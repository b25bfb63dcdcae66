import Arc.MongoDB.MongoDBWatcher
import Mathlib.Data.List.Nodup
import Mathlib.Logic.Function.Basic

/-!
# The hub of a watcher

What the observations share is the `Hub` of the watcher. `Shared` is the invariant of the
hub alone, `Kept` that of one observation against it, so that a step of one observation
leaves the others as they are.
-/

namespace Arc.MongoDB

/-! ### The hub -/

/-- What the observations of a watcher share. -/
structure Hub where
  listeners : List ℕ
  stream : Option ℕ
  opening : Option ℕ
  start : ℕ → Option Start
  pump : ℕ → Option Pump
  fanout : Option Fanout
  disposing : Option (List ℕ)

namespace Hub

/-- `o` was attached to the stream `st` when that failed. -/
def CapturedBy (h : Hub) (st o : ℕ) : Prop := ∃ pump, h.pump st = some pump ∧ o ∈ pump.captured

def Captured (h : Hub) (o : ℕ) : Prop := ∃ st, h.CapturedBy st o

/-- `o` is to be errored for the failed stream `st`. -/
def Pending (h : Hub) (st o : ℕ) : Prop :=
  (∃ listeners, h.pump st = some (.closing listeners) ∧ o ∈ listeners) ∨
    ∃ rest, h.fanout = some (.failing st rest) ∧ o ∈ rest

/-- `o` is a listener of the current stream. -/
def Attached (h : Hub) (o : ℕ) : Prop := o ∈ h.listeners ∧ h.stream.isSome = true

/-- Where a listener stands that awaits the start `start`. -/
def Awaits (h : Hub) (o p : ℕ) : Option Start → Prop
  | some (.awaiting _) => o ∈ h.listeners ∧ h.opening = some p
  | some .fulfilled => h.Attached o
  | some .rejected => True
  | none => False

def Joins (h : Hub) (o : ℕ) : Call → Prop
  | .awaiting p => h.Awaits o p (h.start p)
  | .granted | .attached => h.Attached o
  | .rejected | .finished => True

end Hub

theorem Hub.capturedBy_update {h : Hub} {st : ℕ} {pump pump' : Pump} {fanout : Option Fanout}
    (hpump : h.pump st = some pump) (hsame : pump'.captured = pump.captured) (st' o : ℕ) :
    Hub.CapturedBy { h with pump := Function.update h.pump st (some pump'), fanout := fanout } st' o
      ↔ h.CapturedBy st' o := by
  by_cases heq : st' = st
  · subst heq
    simp [Hub.CapturedBy, hpump, hsame]
  · simp [Hub.CapturedBy, Function.update_of_ne heq]

theorem Hub.pending_update {h : Hub} {st : ℕ} {pump pump' : Pump} {fanout : Option Fanout}
    (hpump : h.pump st = some pump) (hold : ∀ listeners, pump ≠ .closing listeners)
    (hnew : ∀ listeners, pump' ≠ .closing listeners)
    (hfanout : ∀ st rest, h.fanout ≠ some (.failing st rest))
    (hfanout' : ∀ st rest, fanout ≠ some (.failing st rest)) (st' o : ℕ) :
    Hub.Pending { h with pump := Function.update h.pump st (some pump'), fanout := fanout } st' o
      ↔ h.Pending st' o := by
  by_cases heq : st' = st
  · subst heq
    simp [Hub.Pending, hpump, hold, hnew, hfanout, hfanout']
  · simp [Hub.Pending, Function.update_of_ne heq, hfanout, hfanout']

/-- What is known of the hub alone. -/
structure Shared (h : Hub) (generation : ℕ) (disposed : Bool) (streams : List ChangeStream) :
    Prop where
  nodup : h.listeners.Nodup
  current : ∀ st, h.stream = some st ↔ ∃ s, streams[st]? = some s ∧ s.closed = false
  joined : h.stream.isSome = true → h.listeners ≠ []
  held : h.stream.isSome = true → h.opening.isSome = true
  opened : ∀ p, h.opening = some p →
    if h.stream.isSome then h.start p = some .fulfilled
    else h.start p = some (.awaiting generation)
  flying : ∀ p g, h.start p = some (.awaiting g) →
    g ≤ generation ∧ (g = generation → h.opening = some p)
  shut : disposed = true → h.disposing = none →
    h.listeners = [] ∧ h.stream = none ∧ h.opening = none
  disposed : h.disposing.isSome = true → disposed = true
  running : ∀ st, h.stream = some st → h.pump st = some .awaiting ∨ h.pump st = some .delivering
  delivering : ∀ st collection rest, h.fanout = some (.change st collection rest) →
    h.pump st = some .delivering
  failing : ∀ st rest, h.fanout = some (.failing st rest) → rest.Nodup ∧
    ∃ listeners, h.pump st = some (.failed listeners) ∧ ∀ o ∈ rest, o ∈ listeners
  closing : ∀ st listeners, h.pump st = some (.closing listeners) → listeners.Nodup
  unique : ∀ o st st', h.CapturedBy st o → h.CapturedBy st' o → st = st'
  disposingNodup : ∀ rest, h.disposing = some rest → rest.Nodup

/-- A loop that is idle has emitted what it read after the last change. -/
def ReadLoop.Latest (l : ReadLoop) : Prop :=
  l.dirty = false ∧ (l.emitted.getLast? = some l.seen ∨ l.emitted = [] ∧ l.seen = 0)

/-- The read loop of the observation `o`. -/
structure Reads (h : Hub) (o : ℕ) (closed : Bool) (l : ReadLoop) : Prop where
  reading : ∀ since, l.phase = .reading since → l.dirty = false → since = l.seen
  delivered : l.phase = .delivered → l.dirty = false → l.emitted.getLast? = some l.seen
  idle : l.phase = .idle → closed = true ∨ h.Captured o ∨ l.Latest
  running : l.phase ≠ .idle → closed = true ∨ h.Captured o ∨ h.Attached o

/-- What is known of the observation `o`. -/
structure Kept (h : Hub) (o : ℕ) (obs : Observation) : Prop where
  errors : obs.errors ≤ 1
  closed : obs.errors = 1 → obs.closed = true
  released : obs.released = true → obs.closed = true ∧ obs.call = .attached
  gone : obs.released = true → o ∉ h.listeners
  known : ∀ p, obs.call = .awaiting p → h.start p ≠ none
  place : obs.released = true ∨ obs.errors = 1 ∨ h.Captured o ∨ h.Joins o obs.call
  stray : ∀ p, obs.call = .awaiting p → h.start p = some .rejected → h.stream.isSome = true →
    o ∉ h.listeners
  clean : h.disposing = none → o ∈ h.listeners → obs.errors = 0
  due : ∀ rest, h.disposing = some rest → o ∈ rest → obs.errors = 0
  left : ∀ rest, h.disposing = some rest → o ∈ h.listeners → o ∈ rest ∨ obs.errors = 1
  lost : ∀ st, h.CapturedBy st o →
    o ∉ h.listeners ∧ (∀ rest, h.disposing = some rest → o ∉ rest) ∧
      (obs.errors = 1 ∨ h.Pending st o)
  pending : ∀ st, h.Pending st o → obs.errors = 0
  change : ∀ st collection rest, h.fanout = some (.change st collection rest) → o ∈ rest →
    obs.closed = true ∨ h.Attached o
  reads : ∀ l, obs.loop = some l → Reads h o obs.closed l

/-! ### One observation -/

namespace Kept

variable {h h' : Hub} {o : ℕ} {obs : Observation}

/-- An observation is kept where the others come and go. -/
theorem transfer (hk : Kept h o obs)
    (hstart : ∀ p, obs.call = .awaiting p → h'.start p = h.start p)
    (hcaptured : ∀ st, h'.CapturedBy st o ↔ h.CapturedBy st o)
    (hpending : ∀ st, h'.Pending st o ↔ h.Pending st o)
    (hdisposing : h'.disposing = h.disposing) (hmem : o ∈ h'.listeners ↔ o ∈ h.listeners)
    (hstay : o ∈ h.listeners →
      h'.stream = h.stream ∧ ∀ p, h.opening = some p → h'.opening = some p)
    (hchange : ∀ st collection rest, h'.fanout = some (.change st collection rest) → o ∈ rest →
      (∃ st' collection' rest', h.fanout = some (.change st' collection' rest') ∧ o ∈ rest') ∨
        h.Attached o) :
    Kept h' o obs := by
  have hattached : h.Attached o → h'.Attached o := fun ⟨ho, hs⟩ =>
    ⟨hmem.2 ho, (hstay ho).1 ▸ hs⟩
  have hlost : h.Captured o → h'.Captured o := fun ⟨st, hst⟩ => ⟨st, (hcaptured st).2 hst⟩
  have hjoins : h.Joins o obs.call → h'.Joins o obs.call := by
    cases hcall : obs.call with
    | awaiting p =>
        change h.Awaits o p (h.start p) → h'.Awaits o p (h'.start p)
        rw [hstart p hcall]
        cases h.start p with
        | none => exact id
        | some start =>
            cases start with
            | awaiting g => exact fun ⟨ho, hopening⟩ => ⟨hmem.2 ho, (hstay ho).2 p hopening⟩
            | fulfilled => exact hattached
            | rejected => exact id
    | granted => exact hattached
    | attached => exact hattached
    | rejected => exact id
    | finished => exact id
  refine
    { errors := hk.errors, closed := hk.closed, released := hk.released
      gone := fun hr ho => hk.gone hr (hmem.1 ho), known := ?_, place := hk.place.imp_right (Or.imp_right (Or.imp hlost hjoins))
      stray := ?_, clean := ?_, due := ?_, left := ?_, lost := ?_
      pending := fun st hp => hk.pending st ((hpending st).1 hp)
      change := ?_, reads := ?_ }
  · intro p hcall
    rw [hstart p hcall]
    exact hk.known p hcall
  · intro p hcall hrejected hsome ho
    rw [hstart p hcall] at hrejected
    rw [(hstay (hmem.1 ho)).1] at hsome
    exact hk.stray p hcall hrejected hsome (hmem.1 ho)
  · exact fun hnone ho => hk.clean (hdisposing ▸ hnone) (hmem.1 ho)
  · exact fun rest hrest ho => hk.due rest (hdisposing ▸ hrest) ho
  · exact fun rest hrest ho => hk.left rest (hdisposing ▸ hrest) (hmem.1 ho)
  · intro st hst
    obtain ⟨hnot, hrest, hor⟩ := hk.lost st ((hcaptured st).1 hst)
    refine ⟨fun ho => hnot (hmem.1 ho), fun rest hr => hrest rest (hdisposing ▸ hr), ?_⟩
    exact hor.imp_right (hpending st).2
  · intro st collection rest hf ho
    rcases hchange st collection rest hf ho with ⟨st', collection', rest', hf', ho'⟩ | hin
    · exact (hk.change st' collection' rest' hf' ho').imp_right hattached
    · exact Or.inr (hattached hin)
  · intro l hl
    have hr := hk.reads l hl
    exact ⟨hr.reading, hr.delivered,
      fun hp => (hr.idle hp).imp_right (Or.imp_left hlost),
      fun hp => (hr.running hp).imp_right (Or.imp hlost hattached)⟩

/-- An observation that is no listener any more. -/
theorem leave {obs' : Observation} (hk : Kept h o obs) (hpump : h'.pump = h.pump)
    (hfanout : h'.fanout = h.fanout) (hdisposing : h'.disposing = h.disposing)
    (hnot : o ∉ h'.listeners) (herrors : obs'.errors = obs.errors)
    (hclosed : obs'.closed = obs.closed) (hloop : obs'.loop = obs.loop)
    (hreleased : obs'.released = true → obs'.closed = true ∧ obs'.call = .attached)
    (hcall : ∀ p, obs'.call ≠ .awaiting p)
    (hplace : obs'.released = true ∨ h'.Joins o obs'.call)
    (hgone : obs.closed = true ∨ h.fanout = none ∧
      ∀ l, obs.loop = some l → l.phase ≠ .idle → h.Captured o) : Kept h' o obs' := by
  have hcaptured : ∀ st, h'.CapturedBy st o ↔ h.CapturedBy st o := fun st => by
    rw [Hub.CapturedBy, Hub.CapturedBy, hpump]
  have hlost : h.Captured o → h'.Captured o := fun ⟨st, hst⟩ => ⟨st, (hcaptured st).2 hst⟩
  have hpending : ∀ st, h'.Pending st o ↔ h.Pending st o := fun st => by
    rw [Hub.Pending, Hub.Pending, hpump, hfanout]
  refine
    { errors := herrors ▸ hk.errors, closed := ?_, released := hreleased
      gone := fun _ => hnot, known := fun p hp => absurd hp (hcall p)
      place := hplace.imp_right fun hj => Or.inr (Or.inr hj)
      stray := fun _ _ _ _ => hnot, clean := fun _ ho => absurd ho hnot
      due := ?_, left := fun _ _ ho => absurd ho hnot, lost := ?_
      pending := ?_, change := ?_, reads := ?_ }
  · rw [herrors, hclosed]
    exact hk.closed
  · intro rest hrest ho
    rw [herrors]
    exact hk.due rest (hdisposing ▸ hrest) ho
  · intro st hst
    obtain ⟨-, hrest, hor⟩ := hk.lost st ((hcaptured st).1 hst)
    refine ⟨hnot, fun rest hr => hrest rest (hdisposing ▸ hr), ?_⟩
    rw [herrors]
    exact hor.imp_right (hpending st).2
  · intro st hp
    rw [herrors]
    exact hk.pending st ((hpending st).1 hp)
  · intro st collection rest hf ho
    rw [hclosed]
    rw [hfanout] at hf
    rcases hgone with hgone | ⟨hnone, -⟩
    · exact Or.inl hgone
    · rw [hnone] at hf
      cases hf
  · intro l hl
    rw [hloop] at hl
    rw [hclosed]
    have hr := hk.reads l hl
    refine ⟨hr.reading, hr.delivered,
      fun hp => (hr.idle hp).imp_right (Or.imp_left hlost), fun hp => ?_⟩
    rcases hgone with hgone | ⟨-, hgone⟩
    · exact Or.inl hgone
    · exact Or.inr (Or.inl (hlost (hgone l hl hp)))

end Kept

theorem Reads.change {h : Hub} {o : ℕ} {closed : Bool} {l : ReadLoop} (hr : Reads h o closed l)
    (hin : closed = true ∨ h.Attached o) (collection : Option String) :
    Reads h o closed (l.change closed collection) := by
  rw [ReadLoop.change]
  split_ifs with hnames
  · rw [ReadLoop.read]
    cases hphase : l.phase with
    | idle =>
        cases closed with
        | true =>
            exact ⟨fun _ hp => by simp at hp, fun hp => by simp at hp,
              fun _ => Or.inl rfl, fun _ => Or.inl rfl⟩
        | false =>
            refine ⟨fun since hp _ => ?_, fun hp => ?_, fun hp => ?_, fun _ => hin.imp_right Or.inr⟩
            · simpa [ReadLoop.startRead] using hp.symm
            · simp [ReadLoop.startRead] at hp
            · simp [ReadLoop.startRead] at hp
    | reading since =>
        exact ⟨fun _ _ hd => by simp at hd, fun _ hd => by simp at hd,
          fun hp => by simp at hp, fun _ => hr.running (by simp [hphase])⟩
    | delivered =>
        exact ⟨fun _ _ hd => by simp at hd, fun _ hd => by simp at hd,
          fun hp => by simp at hp, fun _ => hr.running (by simp [hphase])⟩
  · exact hr

namespace Kept

variable {h h' : Hub} {o : ℕ} {obs : Observation}

/-- The subscriber of an observation is closed. -/
theorem close (hk : Kept h o obs) : Kept h o { obs with closed := true } where
  errors := hk.errors
  closed _ := rfl
  released hr := ⟨rfl, (hk.released hr).2⟩
  gone := hk.gone
  known := hk.known
  place := hk.place
  stray := hk.stray
  clean := hk.clean
  due := hk.due
  left := hk.left
  lost := hk.lost
  pending := hk.pending
  change _ _ _ _ _ := Or.inl rfl
  reads l hl :=
    ⟨(hk.reads l hl).reading, (hk.reads l hl).delivered, fun _ => Or.inl rfl,
      fun _ => Or.inl rfl⟩

/-- The start `p` settles. -/
theorem settle {p : ℕ} {start : Start} (hk : Kept h o obs)
    (hstart : h'.start = Function.update h.start p (some start))
    (hcaptured : ∀ st, h'.CapturedBy st o ↔ h.CapturedBy st o)
    (hpending : ∀ st, h'.Pending st o ↔ h.Pending st o)
    (hdisposing : h'.disposing = h.disposing) (hlisteners : h'.listeners = h.listeners)
    (hfanout : h'.fanout = none) (hattached : h.Attached o → h'.Attached o)
    (hopening : ∀ q, q ≠ p → h.opening = some q → h'.opening = some q)
    (hplace : obs.call = .awaiting p → h.Awaits o p (h.start p) → h'.Awaits o p (some start))
    (hstray : ∀ q, obs.call = .awaiting q → h'.start q = some .rejected →
      h'.stream.isSome = true → o ∉ h.listeners) : Kept h' o obs := by
  have hlost : h.Captured o → h'.Captured o := fun ⟨st, hst⟩ => ⟨st, (hcaptured st).2 hst⟩
  have hjoins : h.Joins o obs.call → h'.Joins o obs.call := by
    cases hcall : obs.call with
    | awaiting q =>
        change h.Awaits o q (h.start q) → h'.Awaits o q (h'.start q)
        by_cases heq : q = p
        · subst heq
          rw [hstart, Function.update_self]
          exact hplace hcall
        · rw [hstart, Function.update_of_ne heq]
          cases h.start q with
          | none => exact id
          | some start =>
              cases start with
              | awaiting g => exact fun ⟨ho, hq⟩ => ⟨hlisteners ▸ ho, hopening q heq hq⟩
              | fulfilled => exact hattached
              | rejected => exact id
    | granted => exact hattached
    | attached => exact hattached
    | rejected => exact id
    | finished => exact id
  refine
    { errors := hk.errors, closed := hk.closed, released := hk.released
      gone := fun hr => hlisteners ▸ hk.gone hr, known := fun q hcall => ?_
      place := hk.place.imp_right (Or.imp_right (Or.imp hlost hjoins))
      stray := fun q hcall hrejected hsome => ?_
      clean := fun hnone ho => hk.clean (hdisposing ▸ hnone) (hlisteners ▸ ho)
      due := fun rest hrest ho => hk.due rest (hdisposing ▸ hrest) ho
      left := fun rest hrest ho => hk.left rest (hdisposing ▸ hrest) (hlisteners ▸ ho)
      lost := fun st hst => ?_, pending := fun st hst => hk.pending st ((hpending st).1 hst)
      change := fun st collection rest hf => absurd (hfanout.symm.trans hf) (by simp)
      reads := fun l hl => ?_ }
  · rw [hstart]
    by_cases heq : q = p
    · subst heq
      simp
    · rw [Function.update_of_ne heq]
      exact hk.known q hcall
  · rw [hlisteners]
    exact hstray q hcall hrejected hsome
  · obtain ⟨hnot, hrest, hor⟩ := hk.lost st ((hcaptured st).1 hst)
    refine ⟨hlisteners ▸ hnot, fun rest hr => hrest rest (hdisposing ▸ hr), ?_⟩
    exact hor.imp_right (hpending st).2
  · have hr := hk.reads l hl
    exact ⟨hr.reading, hr.delivered,
      fun hp => (hr.idle hp).imp_right (Or.imp_left hlost),
      fun hp => (hr.running hp).imp_right (Or.imp hlost hattached)⟩

/-- A call of `listen` has been answered, or its caller goes on. -/
theorem setCall (hk : Kept h o obs) {call : Call} (hreleased : obs.released ≠ true)
    (hcall : ∀ p, call ≠ .awaiting p) (hplace : h.Joins o obs.call → h.Joins o call) :
    Kept h o { obs with call := call } where
  errors := hk.errors
  closed := hk.closed
  released hr := absurd hr hreleased
  gone := hk.gone
  known p hp := absurd hp (hcall p)
  place := hk.place.imp_right (Or.imp_right (Or.imp_right hplace))
  stray p hp := absurd hp (hcall p)
  clean := hk.clean
  due := hk.due
  left := hk.left
  lost := hk.lost
  pending := hk.pending
  change := hk.change
  reads := hk.reads

/-- The read loop goes on. -/
theorem setLoop (hk : Kept h o obs) {loop : Option ReadLoop}
    (hreads : ∀ l, loop = some l → Reads h o obs.closed l) :
    Kept h o { obs with loop := loop } where
  errors := hk.errors
  closed := hk.closed
  released := hk.released
  gone := hk.gone
  known := hk.known
  place := hk.place
  stray := hk.stray
  clean := hk.clean
  due := hk.due
  left := hk.left
  lost := hk.lost
  pending := hk.pending
  change := hk.change
  reads := hreads

end Kept

/-! ### Leaving -/

namespace Shared

variable {h : Hub} {generation : ℕ} {disposed : Bool} {streams : List ChangeStream}

theorem delete (hs : Shared h generation disposed streams) {o : ℕ}
    (hrest : h.stream.isSome = true → h.listeners.erase o ≠ []) :
    Shared { h with listeners := h.listeners.erase o } generation disposed streams where
  nodup := hs.nodup.erase o
  current := hs.current
  joined := hrest
  held := hs.held
  opened := hs.opened
  flying := hs.flying
  shut hd hnone := by
    obtain ⟨hlisteners, hrest⟩ := hs.shut hd hnone
    refine ⟨?_, hrest⟩
    change h.listeners.erase o = []
    rw [hlisteners]
    rfl
  disposed := hs.disposed
  running := hs.running
  delivering := hs.delivering
  failing := hs.failing
  closing := hs.closing
  unique := hs.unique
  disposingNodup := hs.disposingNodup

theorem setDisposing (hs : Shared h generation disposed streams) {disposed' : Bool}
    {disposing : Option (List ℕ)}
    (hshut : disposed' = true → disposing = none →
      h.listeners = [] ∧ h.stream = none ∧ h.opening = none)
    (hdisposed : disposing.isSome = true → disposed' = true)
    (hnodup : ∀ rest, disposing = some rest → rest.Nodup) :
    Shared { h with disposing := disposing } generation disposed' streams where
  nodup := hs.nodup
  current := hs.current
  joined := hs.joined
  held := hs.held
  opened := hs.opened
  flying := hs.flying
  shut := hshut
  disposed := hdisposed
  running := hs.running
  delivering := hs.delivering
  failing := hs.failing
  closing := hs.closing
  unique := hs.unique
  disposingNodup := hnodup

/-- A pump goes on, and the loop over listeners with it. -/
theorem setPump (hs : Shared h generation disposed streams) (st : ℕ) (pump : Pump)
    (fanout : Option Fanout) (streams' : List ChangeStream)
    (hcurrent : ∀ st, h.stream = some st ↔ ∃ s, streams'[st]? = some s ∧ s.closed = false)
    (hrunning : h.stream = some st → pump = .awaiting ∨ pump = .delivering)
    (hcaptured : ∀ o ∈ pump.captured, ∀ st', h.CapturedBy st' o → st' = st)
    (hclosing : ∀ listeners, pump = .closing listeners → listeners.Nodup)
    (hfanout : ∀ st' collection rest, fanout = some (.change st' collection rest) →
      st' = st ∧ pump = .delivering)
    (hfailing : ∀ st' rest, fanout = some (.failing st' rest) → st' = st ∧ rest.Nodup ∧
      ∃ listeners, pump = .failed listeners ∧ ∀ o ∈ rest, o ∈ listeners) :
    Shared { h with pump := Function.update h.pump st (some pump), fanout := fanout } generation
      disposed streams' where
  nodup := hs.nodup
  current := hcurrent
  joined := hs.joined
  held := hs.held
  opened := hs.opened
  flying := hs.flying
  shut := hs.shut
  disposed := hs.disposed
  running st' hst' := by
    by_cases heq : st' = st
    · subst heq
      simpa using hrunning hst'
    · simpa [Function.update_of_ne heq] using hs.running st' hst'
  delivering st' collection rest hf := by
    obtain ⟨rfl, rfl⟩ := hfanout st' collection rest hf
    simp
  failing st' rest hf := by
    obtain ⟨rfl, hnodup, listeners, rfl, hmem⟩ := hfailing st' rest hf
    exact ⟨hnodup, listeners, by simp, hmem⟩
  closing st' listeners hp := by
    by_cases heq : st' = st
    · subst heq
      exact hclosing listeners (by simpa using hp)
    · exact hs.closing st' listeners (by simpa [Function.update_of_ne heq] using hp)
  unique o st₁ st₂ := by
    rintro ⟨pump₁, hp₁, ho₁⟩ ⟨pump₂, hp₂, ho₂⟩
    by_cases heq₁ : st₁ = st
    · subst heq₁
      obtain rfl : pump = pump₁ := by simpa using hp₁
      by_cases heq₂ : st₂ = st₁
      · exact heq₂.symm
      · have hp₂' : h.pump st₂ = some pump₂ := by simpa [Function.update_of_ne heq₂] using hp₂
        exact (hcaptured o ho₁ st₂ ⟨pump₂, hp₂', ho₂⟩).symm
    · have hp₁' : h.pump st₁ = some pump₁ := by simpa [Function.update_of_ne heq₁] using hp₁
      by_cases heq₂ : st₂ = st
      · subst heq₂
        obtain rfl : pump = pump₂ := by simpa using hp₂
        exact hcaptured o ho₂ st₁ ⟨pump₁, hp₁', ho₁⟩
      · have hp₂' : h.pump st₂ = some pump₂ := by simpa [Function.update_of_ne heq₂] using hp₂
        exact hs.unique o st₁ st₂ ⟨pump₁, hp₁', ho₁⟩ ⟨pump₂, hp₂', ho₂⟩
  disposingNodup := hs.disposingNodup

/-- The stream is stopped and no listener is left. -/
theorem stop (hs : Shared h generation disposed streams) {streams' : List ChangeStream}
    (hclosed : ∀ (st : ℕ) s, streams'[st]? = some s → s.closed = true) :
    Shared { h with listeners := [], stream := none, opening := none } (generation + 1) disposed
      streams' where
  nodup := List.nodup_nil
  current st := by
    refine ⟨fun hst => by simp at hst, ?_⟩
    rintro ⟨s, hs, hopen⟩
    exact absurd ((hclosed st s hs).symm.trans hopen) (by decide)
  joined hsome := by simp at hsome
  held hsome := by simp at hsome
  opened p hp := by simp at hp
  flying p g hp := by
    obtain ⟨hle, -⟩ := hs.flying p g hp
    exact ⟨Nat.le_succ_of_le hle, fun heq => by omega⟩
  shut _ _ := ⟨rfl, rfl, rfl⟩
  disposed := hs.disposed
  running st hst := by simp at hst
  delivering := hs.delivering
  failing := hs.failing
  closing := hs.closing
  unique := hs.unique
  disposingNodup := hs.disposingNodup

end Shared

end Arc.MongoDB
