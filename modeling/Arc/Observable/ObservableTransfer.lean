import Arc.Foundation.InsertionMap
import Arc.Foundation.Json
import Arc.Foundation.Machine
import Arc.Foundation.Patch
import Arc.Queries.QueryResult

/-!
# Transfer of observable results

`ObservableTransfer` turns each result of a subscription into the frame that is
sent. In delta mode an array is sent as the changes since `previous`, the last
array whose frame was committed. `Transmission` puts the receiver beside the
sender: it sees the committed frames and nothing else.
-/

namespace Arc.Observable

open Arc.Queries

/-! ### Change sets -/

/-- What the `id` field of an item may hold. Values of different type differ. -/
inductive Identity
  | string (value : String)
  | number (value : ℚ)
  | boolean (value : Bool)
  deriving DecidableEq

/-- Whether the integer part of a number is a safe integer. -/
def hasSafeIntegerPart (value : ℚ) : Bool :=
  decide ((value.num.tdiv value.den).natAbs ≤ 9007199254740991)

/-- The value of the only field named `id` in any case, if it can identify an item. -/
def identity : Json → Option Identity
  | .object fields =>
      -- no letter outside ASCII has `i` or `d` as its lower case
      match fields.filter fun field => decide (field.1.toLower = "id") with
      | [(_, .string value)] => some (.string value)
      | [(_, .bool value)] => some (.boolean value)
      | [(_, .number value)] => if hasSafeIntegerPart value then some (.number value) else none
      | _ => none
  | _ => none

/-- Index the remaining items, `none` once one has no identity or a used one. -/
def identifiedFrom (indexed : InsertionMap Identity Json) :
    List Json → Option (InsertionMap Identity Json)
  | [] => some indexed
  | item :: items =>
      match identity item with
      | none => none
      | some id =>
          if (indexed.get id).isSome then none else identifiedFrom (indexed.set id item) items

def identified (items : List Json) : Option (InsertionMap Identity Json) :=
  identifiedFrom .empty items

/-- A change set compares whole items wherever an identity is missing or used twice. -/
def byJson (previous current : List Json) : Patch Json where
  added := current.filter fun item => decide (item ∉ previous)
  replaced := []
  removed := previous.filter fun item => decide (item ∉ current)

def byIdentity (old next : InsertionMap Identity Json) : Patch Json where
  added := (next.entries.filter fun e => (old.get e.1).isNone).map Prod.snd
  replaced := (next.entries.filter fun e =>
    (old.get e.1).any fun item => decide (item ≠ e.2)).map Prod.snd
  removed := (old.entries.filter fun e => (next.get e.1).isNone).map Prod.snd

def computeChangeSet (previous current : List Json) : Patch Json :=
  match identified previous, identified current with
  | some old, some next => byIdentity old next
  | _, _ => byJson previous current

theorem identifiedFrom_entries {indexed result : InsertionMap Identity Json} {items : List Json}
    (h : identifiedFrom indexed items = some result) {id : Identity} {item : Json} :
    (id, item) ∈ result.entries ↔
      (id, item) ∈ indexed.entries ∨ (item ∈ items ∧ identity item = some id) := by
  induction items generalizing indexed with
  | nil =>
      obtain rfl : indexed = result := Option.some.inj h
      simp
  | cons head items ih =>
      rw [identifiedFrom] at h
      cases hid : identity head with
      | none => simp [hid] at h
      | some k =>
          simp only [hid] at h
          split at h
          · cases h
          · rename_i hfree
            have hnone : indexed.get k = none := by simpa using hfree
            rw [ih h, InsertionMap.mem_entries_set]
            constructor
            · rintro ((⟨rfl, rfl⟩ | ⟨-, hmem⟩) | ⟨hmem, hitem⟩)
              · exact Or.inr ⟨List.mem_cons_self, hid⟩
              · exact Or.inl hmem
              · exact Or.inr ⟨List.mem_cons_of_mem _ hmem, hitem⟩
            · rintro (hmem | ⟨hmem, hitem⟩)
              · refine Or.inl (Or.inr ⟨?_, hmem⟩)
                rintro rfl
                rw [InsertionMap.get_eq_some_iff.2 hmem] at hnone
                cases hnone
              · rcases List.mem_cons.1 hmem with rfl | hmem
                · exact Or.inl (Or.inl ⟨Option.some.inj (hitem.symm.trans hid), rfl⟩)
                · exact Or.inr ⟨hmem, hitem⟩

/-- The items of an index stand under their own identities. -/
theorem mem_identified {items : List Json} {index : InsertionMap Identity Json}
    (h : identified items = some index) {id : Identity} {item : Json} :
    index.get id = some item ↔ item ∈ items ∧ identity item = some id := by
  rw [InsertionMap.get_eq_some_iff, identifiedFrom_entries h]
  simp

theorem identifiedFrom_total {indexed result : InsertionMap Identity Json} {items : List Json}
    (h : identifiedFrom indexed items = some result) :
    ∀ item ∈ items, ∃ id, identity item = some id := by
  induction items generalizing indexed with
  | nil => simp
  | cons head items ih =>
      rw [identifiedFrom] at h
      cases hid : identity head with
      | none => simp [hid] at h
      | some k =>
          simp only [hid] at h
          split at h
          · cases h
          · intro item hitem
            rcases List.mem_cons.1 hitem with rfl | hitem
            · exact ⟨k, hid⟩
            · exact ih h item hitem

theorem keyedBy_of_identified {items : List Json} {index : InsertionMap Identity Json}
    (h : identified items = some index) : KeyedBy identity items := by
  refine ⟨identifiedFrom_total h, ?_⟩
  intro x hx y hy hkey
  obtain ⟨k, hk⟩ := identifiedFrom_total h x hx
  have hxk := (mem_identified h).2 ⟨hx, hk⟩
  have hyk := (mem_identified h).2 ⟨hy, hkey.symm.trans hk⟩
  exact Option.some.inj (hxk.symm.trans hyk)

/-- An index misses an identity exactly when no item has it. -/
theorem identified_get_eq_none {items : List Json} {index : InsertionMap Identity Json}
    (h : identified items = some index) {id : Identity} :
    index.get id = none ↔ ∀ item ∈ items, identity item ≠ some id := by
  rw [Option.eq_none_iff_forall_ne_some]
  constructor
  · intro hnone item hitem hid
    exact hnone item ((mem_identified h).2 ⟨hitem, hid⟩)
  · intro hnone item hget
    obtain ⟨hitem, hid⟩ := (mem_identified h).1 hget
    exact hnone item hitem hid

theorem mem_map_entries_filter {index : InsertionMap Identity Json}
    {p : Identity × Json → Bool} {item : Json} :
    item ∈ (index.entries.filter p).map Prod.snd ↔
      ∃ id, index.get id = some item ∧ p (id, item) = true := by
  simp only [List.mem_map, List.mem_filter, Prod.exists, exists_eq_right]
  constructor
  · rintro ⟨id, hmem, hp⟩
    exact ⟨id, InsertionMap.get_eq_some_iff.2 hmem, hp⟩
  · rintro ⟨id, hget, hp⟩
    exact ⟨id, InsertionMap.get_eq_some_iff.1 hget, hp⟩

/-- The change set of two uniquely identified collections. -/
theorem byIdentity_turns {previous current : List Json} {old next : InsertionMap Identity Json}
    (hold : identified previous = some old) (hnext : identified current = some next) :
    (byIdentity old next).Turns identity previous current := by
  refine Patch.turns_of_keys (keyedBy_of_identified hold) (keyedBy_of_identified hnext) ?_ ?_ ?_
  · intro x
    rw [byIdentity, mem_map_entries_filter]
    constructor
    · rintro ⟨id, hget, hnew⟩
      obtain ⟨hx, hid⟩ := (mem_identified hnext).1 hget
      rw [Option.isNone_iff_eq_none, identified_get_eq_none hold] at hnew
      exact ⟨hx, fun y hy => hid ▸ hnew y hy⟩
    · rintro ⟨hx, hnew⟩
      obtain ⟨id, hid⟩ := (keyedBy_of_identified hnext).1 x hx
      refine ⟨id, (mem_identified hnext).2 ⟨hx, hid⟩, ?_⟩
      rw [Option.isNone_iff_eq_none, identified_get_eq_none hold]
      exact fun y hy => hid ▸ hnew y hy
  · intro x
    rw [byIdentity, mem_map_entries_filter]
    constructor
    · rintro ⟨id, hget, hchanged⟩
      obtain ⟨hx, hid⟩ := (mem_identified hnext).1 hget
      obtain ⟨y, hy, hne⟩ := (Option.any_eq_true _ _).1 hchanged
      obtain ⟨hyp, hyid⟩ := (mem_identified hold).1 hy
      exact ⟨hx, y, hyp, hyid.trans hid.symm, by simpa using hne⟩
    · rintro ⟨hx, y, hy, hkey, hne⟩
      obtain ⟨id, hid⟩ := (keyedBy_of_identified hnext).1 x hx
      refine ⟨id, (mem_identified hnext).2 ⟨hx, hid⟩, ?_⟩
      rw [(mem_identified hold).2 ⟨hy, hkey.trans hid⟩]
      simpa using hne
  · intro x
    rw [byIdentity, mem_map_entries_filter]
    constructor
    · rintro ⟨id, hget, hgone⟩
      obtain ⟨hx, hid⟩ := (mem_identified hold).1 hget
      rw [Option.isNone_iff_eq_none, identified_get_eq_none hnext] at hgone
      exact ⟨hx, fun y hy => hid ▸ hgone y hy⟩
    · rintro ⟨hx, hgone⟩
      obtain ⟨id, hid⟩ := (keyedBy_of_identified hold).1 x hx
      refine ⟨id, (mem_identified hold).2 ⟨hx, hid⟩, ?_⟩
      rw [Option.isNone_iff_eq_none, identified_get_eq_none hnext]
      exact fun y hy => hid ▸ hgone y hy

/-- Applied to the previous items, a change set gives the current ones. -/
theorem computeChangeSet_turns (previous current : List Json) :
    (computeChangeSet previous current).Turns identity previous current := by
  rw [computeChangeSet]
  split
  · rename_i old next hold hnext
    exact byIdentity_turns hold hnext
  · exact Patch.turns_of_items (by simp [byJson]) (by simp [byJson]) rfl

/-! ### The transfer -/

inductive ObservableTransferMode
  | full
  | delta
  | legacy
  deriving DecidableEq, Repr

/-- Absent and unknown preferences keep the legacy mode. -/
def ObservableTransferMode.ofPreference : Option String → ObservableTransferMode
  | some "full" => .full
  | some "delta" => .delta
  | _ => .legacy

/-- A result as it is sent: with changes beside its data, or in their place. -/
structure Payload (ν : Type*) extends QueryResult Json ν where
  changeSet : Option (Patch Json)

structure ObservableTransfer where
  mode : ObservableTransferMode
  previous : Option (List Json)

/-- A frame, and the baseline its commit stores. -/
structure Prepared (ν : Type*) where
  payload : Payload ν
  baseline : Option (List Json)

namespace ObservableTransfer

variable {ν : Type*}

def new (preference : Option String) : ObservableTransfer where
  mode := .ofPreference preference
  previous := none

/-- Prepare a frame without advancing the baseline. -/
def prepare (transfer : ObservableTransfer) (result : QueryResult Json ν) : Prepared ν :=
  match result.data with
  | some (.array current) =>
      if transfer.mode = .full then ⟨{ result with changeSet := none }, none⟩
      else
        let changeSet := computeChangeSet (transfer.previous.getD []) current
        if transfer.mode = .delta then
          if transfer.previous.isNone then ⟨{ result with changeSet := none }, some current⟩
          else ⟨{ result with data := none, changeSet := some changeSet }, some current⟩
        else ⟨{ result with changeSet := some changeSet }, some current⟩
  | _ => ⟨{ result with changeSet := none }, none⟩

def commit (transfer : ObservableTransfer) (prepared : Prepared ν) : ObservableTransfer :=
  match prepared.baseline with
  | none => transfer
  | some current => { transfer with previous := some current }

@[simp] theorem mode_commit (transfer : ObservableTransfer) (prepared : Prepared ν) :
    (transfer.commit prepared).mode = transfer.mode := by
  rw [commit]
  split <;> rfl

/-- The result is sent whole unless it is an array and delta mode has a baseline. -/
theorem prepare_eq (transfer : ObservableTransfer) (result : QueryResult Json ν) :
    ((transfer.prepare result).payload.data = result.data ∧
        ((transfer.prepare result).payload.data = none →
          (transfer.prepare result).payload.changeSet = none) ∧
        ((transfer.prepare result).baseline = none ∧
            (transfer.mode = .delta → ∀ current, result.data ≠ some (.array current)) ∨
          ∃ current, (transfer.prepare result).baseline = some current ∧
            result.data = some (.array current))) ∨
      ∃ previous current, transfer.mode = .delta ∧ transfer.previous = some previous ∧
        result.data = some (.array current) ∧
        transfer.prepare result =
          ⟨{ result with data := none, changeSet := some (computeChangeSet previous current) },
            some current⟩ := by
  rw [prepare]
  split
  · rename_i current hdata
    by_cases hfull : transfer.mode = .full
    · simp [hfull]
    · by_cases hdelta : transfer.mode = .delta
      · cases hprevious : transfer.previous with
        | none => simp [hdelta, hdata]
        | some previous => simp [hdelta, hdata]
      · simp [hfull, hdelta, hdata]
  · rename_i hother
    refine Or.inl ⟨rfl, fun _ => rfl, Or.inl ⟨rfl, fun _ current hdata => hother current hdata⟩⟩

end ObservableTransfer

/-! ### The receiver -/

/-- The items of an array; nothing else has items. -/
def items : Option Json → List Json
  | some (.array items) => items
  | _ => []

/-- Data replaces what the receiver holds; otherwise the changes are applied to it. -/
def receive {ν : Type*} (held : Option Json) (payload : Payload ν) : Option Json :=
  match payload.data, payload.changeSet with
  | some data, _ => some data
  | none, some changeSet => some (.array (changeSet.apply identity (items held)))
  | none, none => held

/-- The receiver holds the data of a result: the same items, or the very value when
it has none. -/
def Holds (held : Option Json) : Option Json → Prop
  | some (.array current) => SameItems (items held) current
  | some data => held = some data
  | none => items held = []

instance (held : Option Json) : (data : Option Json) → Decidable (Holds held data)
  | some (.array _) => inferInstanceAs (Decidable (SameItems _ _))
  | some .null => inferInstanceAs (Decidable (_ = _))
  | some (.bool _) => inferInstanceAs (Decidable (_ = _))
  | some (.number _) => inferInstanceAs (Decidable (_ = _))
  | some (.string _) => inferInstanceAs (Decidable (_ = _))
  | some (.object _) => inferInstanceAs (Decidable (_ = _))
  | none => inferInstanceAs (Decidable (_ = _))

theorem holds_self (data : Json) : Holds (some data) (some data) := by
  cases data <;> first | exact SameItems.refl _ | rfl

/-- The sender's transfer and the value its receiver holds. -/
structure Transmission where
  transfer : ObservableTransfer
  held : Option Json

/-- One result of the subscription, and whether its frame is committed. -/
structure Delivery (ν : Type*) where
  result : QueryResult Json ν
  committed : Bool

namespace Transmission

variable {ν : Type*}

def deliver (s : Transmission) (delivery : Delivery ν) : Transmission :=
  if delivery.committed then
    let prepared := s.transfer.prepare delivery.result
    ⟨s.transfer.commit prepared, receive s.held prepared.payload⟩
  else s

/-- A subscription with the given preference, before its first result. -/
def machine (ν : Type*) (preference : Option String) : Machine Transmission (Delivery ν) where
  init := ⟨.new preference, none⟩
  step s delivery := some (s.deliver delivery)

/-- No changes are sent to a receiver that no longer holds an array: an array that
delta mode would send as changes finds the receiver holding one. -/
def Patchable (s : Transmission) (delivery : Delivery ν) : Prop :=
  delivery.committed = true → s.transfer.mode = .delta → s.transfer.previous ≠ none →
    (∃ current, delivery.result.data = some (.array current)) →
    ∃ held, s.held = some (.array held)

/-- In delta mode an array the receiver holds has the items of the baseline. -/
def Tracks (s : Transmission) : Prop :=
  s.transfer.mode = .delta → ∀ previous held, s.transfer.previous = some previous →
    s.held = some (.array held) → SameItems held previous

/-- A committed frame that is not a change set leaves the receiver with its data. -/
theorem held_deliver {s : Transmission} {result : QueryResult Json ν}
    (hs : s.Tracks) (hpatch : s.Patchable ⟨result, true⟩) :
    (∃ previous current, s.transfer.previous = some previous ∧
        result.data = some (.array current) ∧
        (s.deliver ⟨result, true⟩).transfer.previous = some current ∧
        ∃ held, (s.deliver ⟨result, true⟩).held = some (.array held) ∧ SameItems held current) ∨
      ((s.deliver ⟨result, true⟩).held = result.data.or s.held ∧
        ((s.deliver ⟨result, true⟩).transfer.previous = s.transfer.previous ∧
            (s.transfer.mode = .delta → ∀ current, result.data ≠ some (.array current)) ∨
          ∃ current, (s.deliver ⟨result, true⟩).transfer.previous = some current ∧
            result.data = some (.array current))) := by
  rcases s.transfer.prepare_eq result with ⟨hdata, hchanges, hbaseline⟩ |
    ⟨previous, current, hdelta, hprevious, hdata, hprepare⟩
  · refine Or.inr ⟨?_, ?_⟩
    · simp only [deliver, if_true, receive, hdata]
      cases hresult : result.data with
      | none => rw [hchanges (hdata.trans hresult)]; rfl
      | some data => rfl
    · simp only [deliver, if_true, ObservableTransfer.commit]
      rcases hbaseline with ⟨hnone, hother⟩ | ⟨current, hsome, harray⟩
      · exact Or.inl ⟨by rw [hnone], hother⟩
      · exact Or.inr ⟨current, by rw [hsome], harray⟩
  · obtain ⟨held, hheld⟩ := hpatch rfl hdelta (by simp [hprevious]) ⟨current, hdata⟩
    refine Or.inl ⟨previous, current, hprevious, hdata, ?_, ?_⟩
    · simp [deliver, ObservableTransfer.commit, hprepare]
    · refine ⟨_, by simp [deliver, receive, hprepare]; rfl, ?_⟩
      exact computeChangeSet_turns previous current _ (by
        rw [hheld]
        exact hs hdelta previous held hprevious hheld)

/-- A frame keeps the receiver's array and the baseline in step. -/
theorem Tracks.deliver {s : Transmission} (hs : s.Tracks) {delivery : Delivery ν}
    (hpatch : s.Patchable delivery) : (s.deliver delivery).Tracks := by
  obtain ⟨result, committed⟩ := delivery
  cases committed with
  | false => exact hs
  | true =>
      have hmode : (s.deliver ⟨result, true⟩).transfer.mode = s.transfer.mode :=
        ObservableTransfer.mode_commit _ _
      intro hdelta previous held hprevious hheld
      rw [hmode] at hdelta
      rcases held_deliver hs hpatch with ⟨-, current, -, -, hcurrent, held', hheld', hsame⟩ |
        ⟨hor, ⟨hkept, hother⟩ | ⟨current, hcurrent, harray⟩⟩
      · obtain rfl : current = previous := Option.some.inj (hcurrent.symm.trans hprevious)
        obtain rfl : held' = held := by simpa using hheld'.symm.trans hheld
        exact hsame
      · rw [hkept] at hprevious
        rw [hor] at hheld
        cases hdata : result.data with
        | none =>
            rw [hdata, Option.none_or] at hheld
            exact hs hdelta previous held hprevious hheld
        | some data =>
            rw [hdata, Option.some_or] at hheld
            exact absurd (hdata.trans hheld) (hother hdelta held)
      · obtain rfl : current = previous := Option.some.inj (hcurrent.symm.trans hprevious)
        rw [hor, harray, Option.some_or] at hheld
        obtain rfl : current = held := by simpa using hheld
        exact SameItems.refl _

theorem tracks_of_run {preference : Option String} {deliveries : List (Delivery ν)}
    {s : Transmission}
    (hrun : (machine ν preference).exec (machine ν preference).init deliveries = some s)
    (hpatch : (machine ν preference).Within Patchable (machine ν preference).init deliveries) :
    s.Tracks := by
  refine (machine ν preference).exec_preserves (P := Tracks) ?_ ?_ hpatch hrun
  · intro s delivery t hs hpatch ht
    obtain rfl : s.deliver delivery = t := Option.some.inj ht
    exact hs.deliver hpatch
  · intro _ previous held hprevious _
    cases hprevious

/-- In a run that never sends changes to a receiver holding something other than an
array, every committed frame leaves the receiver with the result it was prepared
from, unless that result has no data and the receiver had items; uniquely
identified items are found under their identities. -/
theorem delta_reconstructs (preference : Option String) (deliveries : List (Delivery ν))
    (s : Transmission)
    (hrun : (machine ν preference).exec (machine ν preference).init deliveries = some s)
    (hpatch : (machine ν preference).Within Patchable (machine ν preference).init deliveries)
    (result : QueryResult Json ν) (hlast : s.Patchable ⟨result, true⟩) :
    (Holds (s.deliver ⟨result, true⟩).held result.data ↔
        result.data.isSome = true ∨ items s.held = []) ∧
      ∀ current, result.data = some (.array current) → KeyedBy identity current →
        ∀ id, itemAt identity (items (s.deliver ⟨result, true⟩).held) id =
          itemAt identity current id := by
  have hs := tracks_of_run hrun hpatch
  have hholds : Holds (s.deliver ⟨result, true⟩).held result.data ↔
      result.data.isSome = true ∨ items s.held = [] := by
    rcases held_deliver hs hlast with ⟨-, current, -, hdata, -, held, hheld, hsame⟩ | ⟨hor, -⟩
    · rw [hheld, hdata]
      exact iff_of_true hsame (Or.inl rfl)
    · rw [hor]
      cases hdata : result.data with
      | none => simp [Holds]
      | some data => simpa using holds_self data
  refine ⟨hholds, ?_⟩
  intro current hdata hkeyed id
  have hsame : SameItems (items (s.deliver ⟨result, true⟩).held) current := by
    have hheld := hholds.2 (Or.inl (by rw [hdata]; rfl))
    rwa [hdata] at hheld
  exact (hkeyed.itemAt_congr hsame.symm id).symm

/-- The result of a subscription with the given data. -/
def successful (data : Option Json) : QueryResult Json String :=
  queryResult "c" { data := data }

/-- After an array, a dropped frame and a longer array, the receiver has both items. -/
theorem delta_reconstructs_growing :
    let first := Json.object [("id", .string "1"), ("name", .string "old")]
    let second := Json.object [("Id", .number 2)]
    Holds ((Transmission.mk (.new (some "delta")) none).deliver
        ⟨successful (some (.array [first])), true⟩ |>.deliver
        ⟨successful (some (.array [second])), false⟩ |>.deliver
        ⟨successful (some (.array [second, first])), true⟩).held
      (some (.array [second, first])) := by
  intro first second
  refine ((delta_reconstructs (some "delta")
    [⟨successful (some (.array [first])), true⟩, ⟨successful (some (.array [second])), false⟩]
    _ rfl ?_ (successful (some (.array [second, first]))) ?_).1).2 (Or.inl rfl)
  · refine ⟨fun _ _ hprevious => absurd rfl hprevious, ?_⟩
    rintro t -
    exact ⟨fun hcommitted => absurd hcommitted (by decide), fun _ _ => trivial⟩
  · exact fun _ _ _ _ => ⟨[first], rfl⟩

/-- A scalar between two arrays: the changes are taken against an array the receiver
no longer holds. A result without data leaves the receiver its items. -/
theorem delta_after_scalar :
    let item := Json.object [("id", .string "1")]
    ¬ Holds ((Transmission.mk (.new (some "delta")) none).deliver
        ⟨successful (some (.array [item])), true⟩ |>.deliver
        ⟨successful (some (.number 5)), true⟩ |>.deliver
        ⟨successful (some (.array [item])), true⟩).held
      (some (.array [item])) ∧
    ¬ Holds ((Transmission.mk (.new (some "delta")) none).deliver
        ⟨successful (some (.array [item])), true⟩ |>.deliver
        ⟨successful none, true⟩).held none := by
  decide +kernel

end Transmission

end Arc.Observable
