import Arc.Foundation.Checks
import Arc.Foundation.JsonText

/-!
# Request bodies

`body` reads the chunks of a request up to a limit, decodes them together and parses the text.
`clean` walks the value, and refuses one that lies too deep or has a number that is not finite or
a key that could reach a prototype. `parts` lists the values in a value with their depths.
-/

namespace Arc.Http

inductive BodyError
  | badRequest
  | unreadableQueryBody
  deriving DecidableEq

/-- What `body` reads of a request: the number of its `content-length` header, zero without one,
and the chunks of its body. -/
structure BodyRequest where
  contentLength : Number
  body : Option (List (List UInt8))

/-- The keys that could reach a prototype. -/
def isForbidden (key : Units) : Bool :=
  key = units "__proto__" || key = units "prototype" || key = units "constructor"

mutual

def clean : JsonValue → ℕ → Except BodyError JsonValue
  | .number value, depth =>
      if depth > 32 then .error .badRequest
      else if value.isFinite then .ok (.number value)
      else .error .badRequest
  | .array items, depth =>
      if depth > 32 then .error .badRequest
      else do
        let items ← cleanItems items (depth + 1)
        .ok (.array items)
  | .object fields, depth =>
      if depth > 32 then .error .badRequest
      else do
        let fields ← cleanFields fields (depth + 1)
        .ok (.object fields)
  | value, depth => if depth > 32 then .error .badRequest else .ok value

def cleanItems : List JsonValue → ℕ → Except BodyError (List JsonValue)
  | [], _ => .ok []
  | item :: items, depth => do
      let item ← clean item depth
      let items ← cleanItems items depth
      .ok (item :: items)

/-- The entries of an object, whose keys are different, in a new object. -/
def cleanFields : List (Units × JsonValue) → ℕ → Except BodyError (List (Units × JsonValue))
  | [], _ => .ok []
  | (key, entry) :: fields, depth =>
      if isForbidden key then .error .badRequest
      else do
        let entry ← clean entry depth
        let fields ← cleanFields fields depth
        .ok ((key, entry) :: fields)

end

/-- The chunks of the body and the number of their bytes. -/
def readChunks (limit : ℕ) :
    List (List UInt8) → ℕ → List (List UInt8) → Except BodyError (ℕ × List (List UInt8))
  | [], bytes, chunks => .ok (bytes, chunks)
  | value :: left, bytes, chunks =>
      if bytes + value.length > limit then .error .badRequest
      else readChunks limit left (bytes + value.length) (chunks ++ [value])

/-- `combined.set(chunk, offset)` -/
def setChunk (combined chunk : List UInt8) (offset : ℕ) : List UInt8 :=
  combined.take offset ++ chunk ++ combined.drop (offset + chunk.length)

def combine : List (List UInt8) → List UInt8 → ℕ → List UInt8
  | [], combined, _ => combined
  | chunk :: chunks, combined, offset =>
      combine chunks (setChunk combined chunk offset) (offset + chunk.length)

/-- `new TextDecoder('utf-8', { fatal: true }).decode(bytes)`, which skips a byte-order mark. -/
def decode (bytes : List UInt8) : Option Units :=
  let text := match bytes with
    | 0xEF :: 0xBB :: 0xBF :: rest => rest
    | _ => bytes
  (String.fromUTF8? ⟨text.toArray⟩).map units

/-- What is thrown when the bytes are no JSON text. -/
def unreadable (query : Bool) : BodyError := if query then .unreadableQueryBody else .badRequest

def body (request : BodyRequest) (limit : ℕ) (query : Bool) : Except BodyError JsonValue :=
  if (Number.finite limit).less request.contentLength then .error .badRequest
  else
    match request.body with
    | none => .error (unreadable query)
    | some stream => do
        let (bytes, chunks) ← readChunks limit stream 0 []
        match (decode (combine chunks (List.replicate bytes 0) 0)).bind JsonText.parse with
        | none => .error (unreadable query)
        | some parsed => clean parsed 0

/-! ### Chunks -/

/-- The bytes of a request. -/
def BodyRequest.bytes (request : BodyRequest) : List UInt8 := (request.body.getD []).flatten

theorem readChunks_eq (limit : ℕ) (stream chunks : List (List UInt8)) (bytes : ℕ)
    (hbytes : bytes ≤ limit) :
    readChunks limit stream bytes chunks =
      if bytes + stream.flatten.length ≤ limit then
        .ok (bytes + stream.flatten.length, chunks ++ stream)
      else .error .badRequest := by
  induction stream generalizing bytes chunks with
  | nil => simp [readChunks, hbytes]
  | cons value stream ih =>
      unfold readChunks
      rw [List.flatten_cons, List.length_append, ← Nat.add_assoc]
      split_ifs with hlimit hfits hfits
      · omega
      · rfl
      · rw [ih _ _ (by omega), if_pos hfits, List.append_assoc, List.singleton_append]
      · rw [ih _ _ (by omega), if_neg hfits]

/-- The chunks are put one after the other over what is left of the zeros. -/
theorem combine_eq (chunks : List (List UInt8)) (done : List UInt8) :
    combine chunks (done ++ List.replicate chunks.flatten.length 0) done.length =
      done ++ chunks.flatten := by
  induction chunks generalizing done with
  | nil => simp [combine]
  | cons chunk chunks ih =>
      have hset : setChunk (done ++ List.replicate (chunk :: chunks).flatten.length 0) chunk
          done.length = (done ++ chunk) ++ List.replicate chunks.flatten.length 0 := by
        unfold setChunk
        rw [List.take_left, ← List.drop_drop, List.drop_left, List.drop_replicate,
          List.flatten_cons, List.length_append, Nat.add_sub_cancel_left]
      unfold combine
      rw [hset, ← List.length_append, ih, List.flatten_cons, List.append_assoc]

/-! ### Values -/

mutual

/-- The values in a value, with their depths. -/
def parts : ℕ → JsonValue → List (ℕ × JsonValue)
  | depth, .array items => (depth, .array items) :: partsOfItems (depth + 1) items
  | depth, .object fields => (depth, .object fields) :: partsOfFields (depth + 1) fields
  | depth, value => [(depth, value)]

def partsOfItems : ℕ → List JsonValue → List (ℕ × JsonValue)
  | _, [] => []
  | depth, item :: items => parts depth item ++ partsOfItems depth items

def partsOfFields : ℕ → List (Units × JsonValue) → List (ℕ × JsonValue)
  | _, [] => []
  | depth, (_, entry) :: fields => parts depth entry ++ partsOfFields depth fields

end

/-- A number is finite, and an object has no key that could reach a prototype. -/
def Admissible : JsonValue → Prop
  | .number value => value.isFinite = true
  | .object fields => ∀ field ∈ fields, isForbidden field.1 = false
  | _ => True

/-- No part lies deeper than 32 levels, and every part is admissible. -/
def Clean (depth : ℕ) (value : JsonValue) : Prop :=
  ∀ part ∈ parts depth value, part.1 ≤ 32 ∧ Admissible part.2

/-- A value without parts. -/
theorem clean_leaf {value result : JsonValue} {depth : ℕ}
    (hclean : clean value depth =
      if depth > 32 then .error .badRequest else .ok value)
    (hparts : parts depth value = [(depth, value)]) (hadmissible : Admissible value) :
    clean value depth = .ok result ↔ result = value ∧ Clean depth value := by
  have hdepth : Clean depth value ↔ depth ≤ 32 := by
    unfold Clean
    rw [hparts, List.forall_mem_singleton, and_iff_left hadmissible]
  rw [hclean, hdepth]
  split_ifs with h
  · simp only [false_iff, not_and, not_le]
    exact fun _ => h
  · rw [Except.ok.injEq]
    exact ⟨fun heq => ⟨heq.symm, Nat.not_lt.1 h⟩, fun heq => heq.1.symm⟩

mutual

theorem clean_eq_ok_iff (value result : JsonValue) (depth : ℕ) :
    clean value depth = .ok result ↔ result = value ∧ Clean depth value := by
  match value with
  | .null => exact clean_leaf (by simp [clean]) (by simp [parts]) trivial
  | .boolean value => exact clean_leaf (by simp [clean]) (by simp [parts]) trivial
  | .string value => exact clean_leaf (by simp [clean]) (by simp [parts]) trivial
  | .number value =>
      cases hfinite : value.isFinite with
      | true => exact clean_leaf (by simp [clean, hfinite]) (by simp [parts]) hfinite
      | false =>
          have hnot : ¬ Clean depth (.number value) := by
            intro h
            have hadmissible := (h (depth, .number value) (by simp [parts])).2
            rw [Admissible, hfinite] at hadmissible
            cases hadmissible
          rw [clean, hfinite]
          simp [hnot]
  | .array items =>
      have hparts : Clean depth (.array items) ↔ depth ≤ 32 ∧
          ∀ part ∈ partsOfItems (depth + 1) items, part.1 ≤ 32 ∧ Admissible part.2 := by
        rw [Clean, parts, List.forall_mem_cons]
        simp [Admissible]
      rw [clean, hparts]
      split_ifs with h
      · simp only [false_iff]
        omega
      · rw [Except.bind_eq_ok]
        simp only [cleanItems_eq_ok_iff, Except.ok.injEq]
        constructor
        · rintro ⟨items', ⟨rfl, hall⟩, rfl⟩
          exact ⟨rfl, Nat.not_lt.1 h, hall⟩
        · rintro ⟨rfl, -, hall⟩
          exact ⟨items, ⟨rfl, hall⟩, rfl⟩
  | .object fields =>
      have hparts : Clean depth (.object fields) ↔ depth ≤ 32 ∧
          (∀ field ∈ fields, isForbidden field.1 = false) ∧
            ∀ part ∈ partsOfFields (depth + 1) fields, part.1 ≤ 32 ∧ Admissible part.2 := by
        rw [Clean, parts, List.forall_mem_cons, and_assoc]
        rfl
      rw [clean, hparts]
      split_ifs with h
      · simp only [false_iff]
        omega
      · rw [Except.bind_eq_ok]
        simp only [cleanFields_eq_ok_iff, Except.ok.injEq]
        constructor
        · rintro ⟨fields', ⟨rfl, hall⟩, rfl⟩
          exact ⟨rfl, Nat.not_lt.1 h, hall⟩
        · rintro ⟨rfl, -, hall⟩
          exact ⟨fields, ⟨rfl, hall⟩, rfl⟩

theorem cleanItems_eq_ok_iff (items result : List JsonValue) (depth : ℕ) :
    cleanItems items depth = .ok result ↔
      result = items ∧ ∀ part ∈ partsOfItems depth items, part.1 ≤ 32 ∧ Admissible part.2 := by
  match items with
  | [] =>
      rw [cleanItems, partsOfItems, Except.ok.injEq, eq_comm]
      simp
  | item :: items =>
      rw [cleanItems, partsOfItems, List.forall_mem_append, Except.bind_eq_ok]
      simp only [Except.bind_eq_ok, clean_eq_ok_iff, cleanItems_eq_ok_iff, Except.ok.injEq]
      constructor
      · rintro ⟨item', ⟨rfl, hitem⟩, items', ⟨rfl, hitems⟩, rfl⟩
        exact ⟨rfl, hitem, hitems⟩
      · rintro ⟨rfl, hitem, hitems⟩
        exact ⟨item, ⟨rfl, hitem⟩, items, ⟨rfl, hitems⟩, rfl⟩

theorem cleanFields_eq_ok_iff (fields result : List (Units × JsonValue)) (depth : ℕ) :
    cleanFields fields depth = .ok result ↔ result = fields ∧
      (∀ field ∈ fields, isForbidden field.1 = false) ∧
        ∀ part ∈ partsOfFields depth fields, part.1 ≤ 32 ∧ Admissible part.2 := by
  match fields with
  | [] =>
      rw [cleanFields, partsOfFields, Except.ok.injEq, eq_comm]
      simp
  | (key, entry) :: fields =>
      rw [cleanFields, partsOfFields, List.forall_mem_append, List.forall_mem_cons]
      cases hforbidden : isForbidden key with
      | true =>
          rw [if_pos rfl]
          refine iff_of_false (by simp) ?_
          rintro ⟨-, ⟨hkey, -⟩, -⟩
          cases hkey
      | false =>
          rw [if_neg (by simp), Except.bind_eq_ok]
          simp only [Except.bind_eq_ok, clean_eq_ok_iff, cleanFields_eq_ok_iff, Except.ok.injEq,
            true_and]
          constructor
          · rintro ⟨entry', ⟨rfl, hentry⟩, fields', ⟨rfl, hkeys, hfields⟩, rfl⟩
            exact ⟨rfl, hkeys, hentry, hfields⟩
          · rintro ⟨rfl, hkeys, hentry, hfields⟩
            exact ⟨entry, ⟨rfl, hentry⟩, fields, ⟨rfl, hkeys, hfields⟩, rfl⟩

end

/-! ### Bodies -/

/-- What becomes of the bytes of a request. -/
def outcome (bytes : List UInt8) (limit : ℕ) (query : Bool) : Except BodyError JsonValue :=
  if bytes.length ≤ limit then
    match (decode bytes).bind JsonText.parse with
    | none => .error (unreadable query)
    | some parsed => clean parsed 0
  else .error .badRequest

/-- Without bytes there is no JSON text. -/
theorem parse_decode_nil : (decode []).bind JsonText.parse = none := by
  have hdecode : decode [] = some [] := by rfl
  rw [hdecode]
  simp [JsonText.parse, JsonText.tokenize, JsonText.parseValue]

theorem body_eq_outcome {request : BodyRequest} {limit : ℕ} {query : Bool}
    (h : (Number.finite limit).less request.contentLength = false) :
    body request limit query = outcome request.bytes limit query := by
  unfold body outcome BodyRequest.bytes
  rw [h, if_neg (by simp)]
  cases hbody : request.body with
  | none =>
      rw [Option.getD_none, List.flatten_nil, parse_decode_nil, List.length_nil,
        if_pos (Nat.zero_le limit)]
  | some stream =>
      rw [Option.getD_some]
      dsimp only
      rw [readChunks_eq limit stream [] 0 (Nat.zero_le limit), Nat.zero_add, List.nil_append]
      split_ifs with hlimit
      · have hcombine := combine_eq stream []
        rw [List.nil_append, List.nil_append, List.length_nil] at hcombine
        change (match (decode (combine stream (List.replicate stream.flatten.length 0) 0)).bind
            JsonText.parse with
          | none => Except.error (unreadable query)
          | some parsed => clean parsed 0) = _
        rw [hcombine]
      · rfl

/-- A body is read from its bytes alone, however they are split, and accepted exactly when they
are a JSON text within the limit whose value is shallow, finite and without keys that could reach
a prototype; it is that value. -/
theorem body_exact (request : BodyRequest) (limit : ℕ) (query : Bool)
    (h : (Number.finite limit).less request.contentLength = false) :
    (∀ other : BodyRequest, (Number.finite limit).less other.contentLength = false →
      other.bytes = request.bytes → body other limit query = body request limit query) ∧
    ∀ value, body request limit query = .ok value ↔
      request.bytes.length ≤ limit ∧
        ∃ text, decode request.bytes = some text ∧ JsonText.parse text = some value ∧
          ∀ part ∈ parts 0 value, part.1 ≤ 32 ∧ Admissible part.2 := by
  constructor
  · intro other hother hbytes
    rw [body_eq_outcome hother, body_eq_outcome h, hbytes]
  · intro value
    rw [body_eq_outcome h, outcome]
    split_ifs with hlimit
    · cases hparse : (decode request.bytes).bind JsonText.parse with
      | none =>
          refine iff_of_false (by simp) ?_
          rintro ⟨-, text, hdecode, htext, -⟩
          rw [hdecode, Option.bind_some, htext] at hparse
          cases hparse
      | some parsed =>
          obtain ⟨text, hdecode, htext⟩ := Option.bind_eq_some_iff.1 hparse
          dsimp only
          rw [clean_eq_ok_iff]
          constructor
          · rintro ⟨rfl, hclean⟩
            exact ⟨hlimit, text, hdecode, htext, hclean⟩
          · rintro ⟨-, text', hdecode', htext', hclean⟩
            obtain rfl : text = text' := Option.some.inj (hdecode.symm.trans hdecode')
            obtain rfl : parsed = value := Option.some.inj (htext.symm.trans htext')
            exact ⟨rfl, hclean⟩
    · simp [hlimit]

/-- The chunks `[` and `]`, within their two bytes. -/
theorem body_exact_split :
    (Number.finite 2).less (.finite 0) = false ∧
      ∀ value, body ⟨.finite 0, some [[0x5B], [0x5D]]⟩ 2 false = .ok value ↔
        2 ≤ 2 ∧ ∃ text, decode [0x5B, 0x5D] = some text ∧ JsonText.parse text = some value ∧
          ∀ part ∈ parts 0 value, part.1 ≤ 32 ∧ Admissible part.2 :=
  ⟨by decide, (body_exact ⟨.finite 0, some [[0x5B], [0x5D]]⟩ 2 false (by decide)).2⟩

end Arc.Http
