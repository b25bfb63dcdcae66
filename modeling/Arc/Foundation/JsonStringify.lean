import Arc.Foundation.JsonNumbers

/-!
# Writing JSON texts

`JSON.stringify` on the values of JSON, and that `JSON.parse` reads each of them back: the text of
a value is cut into the tokens of the value, and the tokens are read as the value. A text is never
read as the string that it is.
-/

namespace Arc

/-! ### Values -/

/-- The text of a number; the language has only the finite rationals that are rounded to
themselves. -/
def Number.jsonText : Number → List Char
  | .finite value =>
      if h : Number.ofRat value = .finite value then Number.Double.text ⟨value, h⟩ else []
  | _ => "null".toList

mutual

/-- The values that `JSON.parse` gives for texts of numbers that are not too large: the numbers
are finite and the fields of an object have names of their own. -/
def JsonValue.IsJson : JsonValue → Prop
  | .number (.finite value) => Number.ofRat value = .finite value
  | .number _ => False
  | .array items => AreJson items
  | .object fields => (fields.map Prod.fst).Nodup ∧ FieldsAreJson fields
  | _ => True

def JsonValue.AreJson : List JsonValue → Prop
  | [] => True
  | item :: items => item.IsJson ∧ AreJson items

def JsonValue.FieldsAreJson : List (Units × JsonValue) → Prop
  | [] => True
  | field :: fields => field.2.IsJson ∧ FieldsAreJson fields

end

namespace JsonText

/-! ### Texts -/

def hexUnit (digit : UInt16) : UInt16 := if digit < 10 then 0x30 + digit else 0x57 + digit

/-- A unit by its number. -/
def unicodeEscape (unit : UInt16) : Units :=
  [0x5C, 0x75, hexUnit (unit / 0x1000), hexUnit (unit / 0x100 % 0x10),
    hexUnit (unit / 0x10 % 0x10), hexUnit (unit % 0x10)]

def isLeading (unit : UInt16) : Bool := 0xD800 ≤ unit && unit ≤ 0xDBFF

def isTrailing (unit : UInt16) : Bool := 0xDC00 ≤ unit && unit ≤ 0xDFFF

/-- A unit that is no half of a surrogate pair. -/
def quoteUnit (unit : UInt16) : Units :=
  if unit == 0x08 then [0x5C, 0x62]
  else if unit == 0x09 then [0x5C, 0x74]
  else if unit == 0x0A then [0x5C, 0x6E]
  else if unit == 0x0C then [0x5C, 0x66]
  else if unit == 0x0D then [0x5C, 0x72]
  else if unit == 0x22 then [0x5C, 0x22]
  else if unit == 0x5C then [0x5C, 0x5C]
  else if unit < 0x20 || isLeading unit || isTrailing unit then unicodeEscape unit
  else [unit]

/-- A text between quotation marks. A surrogate pair stands for itself, and half a pair is
escaped. -/
def quoteUnits : Units → Units
  | [] => []
  | [unit] => quoteUnit unit
  | unit :: next :: text =>
      if isLeading unit && isTrailing next then unit :: next :: quoteUnits text
      else quoteUnit unit ++ quoteUnits (next :: text)

def quote (text : Units) : Units := 0x22 :: (quoteUnits text ++ [0x22])

mutual

/-- `JSON.stringify(value)` -/
def stringify : JsonValue → Units
  | .null => [0x6E, 0x75, 0x6C, 0x6C]
  | .boolean true => [0x74, 0x72, 0x75, 0x65]
  | .boolean false => [0x66, 0x61, 0x6C, 0x73, 0x65]
  | .number value => asciiUnits value.jsonText
  | .string text => quote text
  | .array items => 0x5B :: (stringifyItems items ++ [0x5D])
  | .object fields => 0x7B :: (stringifyFields fields ++ [0x7D])

def stringifyItems : List JsonValue → Units
  | [] => []
  | [item] => stringify item
  | item :: next :: items => stringify item ++ 0x2C :: stringifyItems (next :: items)

def stringifyFields : List (Units × JsonValue) → Units
  | [] => []
  | [(name, value)] => quote name ++ 0x3A :: stringify value
  | (name, value) :: next :: fields =>
      quote name ++ 0x3A :: (stringify value ++ 0x2C :: stringifyFields (next :: fields))

end

/-! ### Strings -/

theorem hexDigit_hexUnit {digit : UInt16} (h : digit < 16) :
    hexDigit (hexUnit digit) = some digit := by
  have hnat : digit.toNat < 16 := by simpa [UInt16.lt_iff_toNat_lt] using h
  obtain ⟨value, hvalue, rfl⟩ : ∃ value : ℕ, value < 16 ∧ digit = value.toUInt16 :=
    ⟨digit.toNat, hnat, by simp⟩
  interval_cases value <;> decide

/-- A unit from its four hexadecimal digits. -/
theorem hex_digits (unit : UInt16) :
    unit / 0x1000 * 0x1000 + unit / 0x100 % 0x10 * 0x100 + unit / 0x10 % 0x10 * 0x10 +
      unit % 0x10 = unit := by
  apply UInt16.toNat_inj.1
  have := unit.toNat_lt
  simp only [UInt16.toNat_add, UInt16.toNat_mul, UInt16.toNat_div, UInt16.toNat_mod,
    UInt16.reduceToNat]
  omega

theorem lexString_unicodeEscape (unit : UInt16) (rest : Units) :
    lexString (unicodeEscape unit ++ rest) =
      (lexString rest).map fun read => (unit :: read.1, read.2) := by
  have hbound : ∀ value : UInt16, value % 0x10 < 16 := by
    intro value
    rw [UInt16.lt_iff_toNat_lt, UInt16.toNat_mod]
    exact Nat.mod_lt _ (by decide)
  have hfirst : unit / 0x1000 < 16 := by
    rw [UInt16.lt_iff_toNat_lt, UInt16.toNat_div]
    have := unit.toNat_lt
    simp only [UInt16.reduceToNat]
    omega
  simp only [unicodeEscape, List.cons_append, List.nil_append]
  rw [lexString, hexDigit_hexUnit hfirst, hexDigit_hexUnit (hbound _), hexDigit_hexUnit (hbound _),
    hexDigit_hexUnit (hbound _)]
  simp only [Option.bind_eq_bind, Option.bind_some, hex_digits]
  cases lexString rest <;> rfl

/-- A unit that stands for itself. -/
theorem lexString_unit {unit : UInt16} (rest : Units) (hquote : unit ≠ 0x22)
    (hescape : unit ≠ 0x5C) (hcontrol : ¬ unit < 0x20) :
    lexString (unit :: rest) = (lexString rest).map fun read => (unit :: read.1, read.2) := by
  rw [lexString]
  · simp only [hcontrol, decide_false, Bool.false_or, beq_iff_eq, hescape, if_false]
    cases lexString rest <;> rfl
  all_goals intros; simp_all

theorem lexString_escape {letter unit : UInt16} (rest : Units) (h : escaped letter = some unit) :
    lexString (0x5C :: letter :: rest) =
      (lexString rest).map fun read => (unit :: read.1, read.2) := by
  rw [lexString]
  · simp only [h, Option.bind_eq_bind, Option.bind_some]
    cases lexString rest <;> rfl
  · rintro a b c d rest rfl
    cases h

theorem lexString_quoteUnit (unit : UInt16) (rest : Units) :
    lexString (quoteUnit unit ++ rest) =
      (lexString rest).map fun read => (unit :: read.1, read.2) := by
  unfold quoteUnit
  split_ifs with hback htab hline hfeed hreturn hquote hescape hcontrol
  · obtain rfl := eq_of_beq hback
    exact lexString_escape rest rfl
  · obtain rfl := eq_of_beq htab
    exact lexString_escape rest rfl
  · obtain rfl := eq_of_beq hline
    exact lexString_escape rest rfl
  · obtain rfl := eq_of_beq hfeed
    exact lexString_escape rest rfl
  · obtain rfl := eq_of_beq hreturn
    exact lexString_escape rest rfl
  · obtain rfl := eq_of_beq hquote
    exact lexString_escape rest rfl
  · obtain rfl := eq_of_beq hescape
    exact lexString_escape rest rfl
  · exact lexString_unicodeEscape unit rest
  · have hprinted : ¬ unit < 0x20 := by
      intro hlow
      simp [hlow] at hcontrol
    exact lexString_unit rest (by simpa using hquote) (by simpa using hescape) hprinted

/-- A half of a surrogate pair stands for itself. -/
theorem lexString_surrogate {unit : UInt16} (rest : Units) (h : 0xD800 ≤ unit) :
    lexString (unit :: rest) = (lexString rest).map fun read => (unit :: read.1, read.2) := by
  rw [UInt16.le_iff_toNat_le] at h
  refine lexString_unit rest ?_ ?_ ?_
  · rintro rfl
    exact absurd h (by decide)
  · rintro rfl
    exact absurd h (by decide)
  · rw [UInt16.lt_iff_toNat_lt]
    exact fun hlow => absurd (h.trans_lt hlow) (by decide)

/-- A quoted text is read up to its end. -/
theorem lexString_quoteUnits (text rest : Units) :
    lexString (quoteUnits text ++ 0x22 :: rest) = some (text, rest) := by
  fun_induction quoteUnits text with
  | case1 => simp [lexString]
  | case2 unit => rw [lexString_quoteUnit, lexString]; rfl
  | case3 unit next text hpair ih =>
      simp only [isLeading, isTrailing, Bool.and_eq_true, decide_eq_true_eq] at hpair
      have hnext : 0xD800 ≤ next := by
        refine UInt16.le_iff_toNat_le.2 (le_trans ?_ (UInt16.le_iff_toNat_le.1 hpair.2.1))
        decide
      rw [List.cons_append, List.cons_append, lexString_surrogate _ hpair.1.1,
        lexString_surrogate _ hnext, ih]
      rfl
  | case4 unit next text hpair ih =>
      rw [List.append_assoc, lexString_quoteUnit, ih]
      rfl

/-! ### Tokens of a value -/

mutual

def tokens : JsonValue → List Token
  | .string text => [.string text]
  | .array items => .openArray :: (tokensOfItems items ++ [.closeArray])
  | .object fields => .openObject :: (tokensOfFields fields ++ [.closeObject])
  | value => [.literal value]

def tokensOfItems : List JsonValue → List Token
  | [] => []
  | [item] => tokens item
  | item :: next :: items => tokens item ++ .comma :: tokensOfItems (next :: items)

def tokensOfFields : List (Units × JsonValue) → List Token
  | [] => []
  | [(name, value)] => .string name :: .colon :: tokens value
  | (name, value) :: next :: fields =>
      .string name :: .colon :: (tokens value ++ .comma :: tokensOfFields (next :: fields))

end

/-- More fuel gives the same tokens. -/
theorem tokenize_mono {fuel more : ℕ} {text : Units} {read : List Token} (hle : fuel ≤ more)
    (h : tokenize fuel text = some read) : tokenize more text = some read := by
  induction fuel generalizing more text read with
  | zero =>
      cases text with
      | nil => rwa [tokenize] at h ⊢
      | cons unit rest => cases h
  | succ fuel ih =>
      obtain ⟨more, rfl⟩ : ∃ left, more = left + 1 := ⟨more - 1, by omega⟩
      cases text with
      | nil => rwa [tokenize] at h ⊢
      | cons unit rest =>
          rw [tokenize] at h ⊢
          split_ifs at h ⊢
          · exact ih (by omega) h
          · obtain ⟨⟨token, after⟩, htoken, h⟩ := Option.bind_eq_some_iff.1 h
            obtain ⟨later, hlater, h⟩ := Option.bind_eq_some_iff.1 h
            have hmore : tokenize more after = some later := ih (by omega) hlater
            rw [htoken]
            simp only [Option.bind_eq_bind, Option.bind_some, hmore]
            exact h

/-- A text is cut into tokens, whatever follows it. -/
def Cut (text : Units) (read : List Token) (rest : Units) : Prop :=
  ∀ fuel later, tokenize fuel rest = some later →
    tokenize (fuel + text.length) (text ++ rest) = some (read ++ later)

theorem Cut.append {text more rest : Units} {read later : List Token}
    (h : Cut text read (more ++ rest)) (hmore : Cut more later rest) :
    Cut (text ++ more) (read ++ later) rest := by
  intro fuel last hlast
  have hread := h _ _ (hmore fuel last hlast)
  rw [List.append_assoc, List.append_assoc, List.length_append, Nat.add_comm text.length,
    ← Nat.add_assoc]
  exact hread

theorem cut_token {text rest : Units} {token : Token} (hspace : ∀ u ∈ text.head?,
    isWhiteSpace u = false) (hne : text ≠ []) (h : lexToken (text ++ rest) = some (token, rest)) :
    Cut text [token] rest := by
  intro fuel later hlater
  obtain ⟨unit, more, rfl⟩ := List.exists_cons_of_ne_nil hne
  have hunit := hspace unit rfl
  rw [List.cons_append] at h ⊢
  rw [List.length_cons, ← Nat.add_assoc, tokenize, hunit, h]
  have hmono := tokenize_mono (Nat.le_add_right fuel more.length) hlater
  simp only [Bool.false_eq_true, if_false, Option.bind_eq_bind, Option.bind_some, hmono]
  rfl

theorem cut_string (text rest : Units) : Cut (quote text) [.string text] rest := by
  refine cut_token (by simp [quote, isWhiteSpace]) (by simp [quote]) ?_
  have hread : lexString ((quoteUnits text ++ [0x22]) ++ rest) = some (text, rest) := by
    rw [List.append_assoc, List.singleton_append]
    exact lexString_quoteUnits text rest
  unfold quote
  rw [List.cons_append, lexToken, hread]
  rfl

theorem cut_punctuation (unit : UInt16) (token : Token) (rest : Units)
    (hspace : isWhiteSpace unit = false) (h : lexToken (unit :: rest) = some (token, rest)) :
    Cut [unit] [token] rest :=
  cut_token (by simp [hspace]) (by simp) h

theorem cut_number {value : Number} {rest : Units} (h : (JsonValue.number value).IsJson)
    (hrest : Delimited rest) :
    Cut (asciiUnits value.jsonText) [.literal (.number value)] rest := by
  cases value with
  | nan => exact h.elim
  | infinite negative => exact h.elim
  | finite value =>
      have hvalue : Number.ofRat value = .finite value := h
      have htext : (Number.finite value).jsonText = Number.Double.text ⟨value, hvalue⟩ :=
        dif_pos hvalue
      obtain ⟨unit, more, hunits, hspace⟩ := text_eq_cons ⟨value, hvalue⟩
      rw [htext]
      refine cut_token ?_ ?_ (lexToken_text ⟨value, hvalue⟩ hrest)
      · rw [hunits]
        rintro _ ⟨⟩
        exact hspace
      · rw [hunits]
        exact List.cons_ne_nil _ _

/-- A name and the value after it. -/
theorem cut_field {name text rest : Units} {read : List Token} (h : Cut text read rest) :
    Cut (quote name ++ 0x3A :: text) (.string name :: .colon :: read) rest :=
  (cut_string name _).append ((cut_punctuation 0x3A .colon _ rfl rfl).append h)

mutual

theorem cut_stringify (value : JsonValue) (h : value.IsJson) {rest : Units}
    (hrest : Delimited rest) : Cut (stringify value) (tokens value) rest := by
  cases value with
  | null => exact cut_token (by simp [stringify, isWhiteSpace]) (by simp [stringify]) rfl
  | boolean value =>
      cases value <;>
        exact cut_token (by simp [stringify, isWhiteSpace]) (by simp [stringify]) rfl
  | number value => exact cut_number h hrest
  | string text => exact cut_string text rest
  | array items =>
      have hitems := cut_stringifyItems items h (delimited_closeArray rest)
      exact (cut_punctuation 0x5B .openArray _ rfl rfl).append
        (hitems.append (cut_punctuation 0x5D .closeArray rest rfl rfl))
  | object fields =>
      have hfields := cut_stringifyFields fields h.2 (delimited_closeObject rest)
      exact (cut_punctuation 0x7B .openObject _ rfl rfl).append
        (hfields.append (cut_punctuation 0x7D .closeObject rest rfl rfl))

theorem cut_stringifyItems (items : List JsonValue) (h : JsonValue.AreJson items) {rest : Units}
    (hrest : Delimited rest) : Cut (stringifyItems items) (tokensOfItems items) rest := by
  rcases items with _ | ⟨item, _ | ⟨next, items⟩⟩
  · exact fun fuel later hlater => hlater
  · exact cut_stringify item h.1 hrest
  · have hitem := cut_stringify item h.1 (delimited_comma (stringifyItems (next :: items) ++ rest))
    have hitems := cut_stringifyItems (next :: items) h.2 hrest
    exact hitem.append ((cut_punctuation 0x2C .comma _ rfl rfl).append hitems)

theorem cut_stringifyFields (fields : List (Units × JsonValue))
    (h : JsonValue.FieldsAreJson fields) {rest : Units} (hrest : Delimited rest) :
    Cut (stringifyFields fields) (tokensOfFields fields) rest := by
  rcases fields with _ | ⟨⟨name, value⟩, _ | ⟨next, fields⟩⟩
  · exact fun fuel later hlater => hlater
  · exact cut_field (cut_stringify value h.1 hrest)
  · have hvalue := cut_stringify value h.1
      (delimited_comma (stringifyFields (next :: fields) ++ rest))
    have hfields := cut_stringifyFields (next :: fields) h.2 hrest
    exact cut_field (hvalue.append ((cut_punctuation 0x2C .comma _ rfl rfl).append hfields))

end

theorem tokenize_stringify {value : JsonValue} (h : value.IsJson) :
    tokenize (stringify value).length (stringify value) = some (tokens value) := by
  have hcut := cut_stringify value h delimited_nil 0 [] rfl
  simpa using hcut

/-! ### Values of tokens -/

/-- The tokens of a value are read as it, whatever follows them. -/
def Reads (read : List Token) (value : JsonValue) : Prop :=
  ∀ rest, ∃ h, parseValue (read ++ rest) = some (value, ⟨rest, h⟩)

theorem tokens_eq_cons (value : JsonValue) :
    ∃ first later, tokens value = first :: later ∧ first ≠ .closeArray := by
  cases value <;> exact ⟨_, _, rfl, nofun⟩

theorem reads_literal (value : JsonValue) : Reads [.literal value] value := by
  intro rest
  rw [List.singleton_append, parseValue]
  exact ⟨_, rfl⟩

section Parts

variable {read after left : List Token} {value : JsonValue}

theorem parseItems_last {hlt : (Token.closeArray :: left).length < read.length}
    (h : parseValue read = some (value, ⟨.closeArray :: left, hlt⟩)) :
    ∃ h, parseItems read = some ([value], ⟨left, h⟩) := by
  rw [parseItems, h]
  exact ⟨_, rfl⟩

theorem parseItems_more {items : List JsonValue} {hleft : left.length < after.length}
    {hlt : (Token.comma :: after).length < read.length}
    (h : parseValue read = some (value, ⟨.comma :: after, hlt⟩))
    (hitems : parseItems after = some (items, ⟨left, hleft⟩)) :
    ∃ h, parseItems read = some (value :: items, ⟨left, h⟩) := by
  rw [parseItems, h]
  dsimp only
  rw [hitems]
  exact ⟨_, rfl⟩

theorem parseMembers_last {name : Units} {fields : List (Units × JsonValue)}
    {hlt : (Token.closeObject :: left).length < read.length}
    (h : parseValue read = some (value, ⟨.closeObject :: left, hlt⟩)) :
    ∃ h, parseMembers fields (.string name :: .colon :: read) =
      some (setField fields name value, ⟨left, h⟩) := by
  rw [parseMembers, h]
  exact ⟨_, rfl⟩

theorem parseMembers_more {name : Units} {fields members : List (Units × JsonValue)}
    {hleft : left.length < after.length} {hlt : (Token.comma :: after).length < read.length}
    (h : parseValue read = some (value, ⟨.comma :: after, hlt⟩))
    (hmembers : parseMembers (setField fields name value) after =
      some (members, ⟨left, hleft⟩)) :
    ∃ h, parseMembers fields (.string name :: .colon :: read) = some (members, ⟨left, h⟩) := by
  rw [parseMembers, h]
  dsimp only
  rw [hmembers]
  exact ⟨_, rfl⟩

theorem parseValue_array {items : List JsonValue} {hlt : left.length < read.length}
    (hopen : ∀ after, read ≠ .closeArray :: after)
    (h : parseItems read = some (items, ⟨left, hlt⟩)) :
    ∃ h, parseValue (.openArray :: read) = some (.array items, ⟨left, h⟩) := by
  rw [parseValue, h]
  · exact ⟨_, rfl⟩
  · exact hopen

theorem parseValue_object {fields : List (Units × JsonValue)} {hlt : left.length < read.length}
    (hopen : ∀ after, read ≠ .closeObject :: after)
    (h : parseMembers [] read = some (fields, ⟨left, hlt⟩)) :
    ∃ h, parseValue (.openObject :: read) = some (.object fields, ⟨left, h⟩) := by
  rw [parseValue, h]
  · exact ⟨_, rfl⟩
  · exact hopen

end Parts

theorem tokensOfItems_ne (item : JsonValue) (items : List JsonValue) (rest after : List Token) :
    tokensOfItems (item :: items) ++ rest ≠ .closeArray :: after := by
  obtain ⟨first, later, hfirst, hne⟩ := tokens_eq_cons item
  intro h
  rcases items with _ | ⟨next, items⟩
  · rw [tokensOfItems, hfirst] at h
    exact hne (List.cons.inj h).1
  · rw [tokensOfItems, hfirst] at h
    exact hne (List.cons.inj h).1

theorem tokensOfFields_ne (field : Units × JsonValue) (fields : List (Units × JsonValue))
    (rest after : List Token) :
    tokensOfFields (field :: fields) ++ rest ≠ .closeObject :: after := by
  rcases fields with _ | ⟨next, fields⟩ <;> exact fun h => nomatch (List.cons.inj h).1

theorem setField_new {fields : List (Units × JsonValue)} {name : Units} (value : JsonValue)
    (h : name ∉ fields.map Prod.fst) : setField fields name value = fields ++ [(name, value)] := by
  induction fields with
  | nil => rfl
  | cons field fields ih =>
      rw [List.map_cons, List.mem_cons, not_or] at h
      rw [setField, if_neg (Ne.symm h.1), ih h.2, List.cons_append]

mutual

theorem reads_tokens (value : JsonValue) (h : value.IsJson) : Reads (tokens value) value := by
  cases value with
  | null => exact reads_literal _
  | boolean value => exact reads_literal _
  | number value => exact reads_literal _
  | string text =>
      intro rest
      rw [tokens, List.singleton_append, parseValue]
      exact ⟨_, rfl⟩
  | array items =>
      intro rest
      rw [tokens, List.cons_append, List.append_assoc, List.singleton_append]
      rcases items with _ | ⟨item, items⟩
      · rw [tokensOfItems, List.nil_append, parseValue]
        exact ⟨_, rfl⟩
      · obtain ⟨hlt, hread⟩ := reads_items (item :: items) h (List.cons_ne_nil _ _) rest
        exact parseValue_array (tokensOfItems_ne item items _) hread
  | object fields =>
      intro rest
      rw [tokens, List.cons_append, List.append_assoc, List.singleton_append]
      rcases fields with _ | ⟨field, fields⟩
      · rw [tokensOfFields, List.nil_append, parseValue]
        exact ⟨_, rfl⟩
      · obtain ⟨hlt, hread⟩ := reads_fields (field :: fields) h.2 (List.cons_ne_nil _ _) [] h.1 rest
        exact parseValue_object (tokensOfFields_ne field fields _) hread

theorem reads_items (items : List JsonValue) (h : JsonValue.AreJson items) (hne : items ≠ [])
    (rest : List Token) : ∃ h, parseItems (tokensOfItems items ++ .closeArray :: rest) =
      some (items, ⟨rest, h⟩) := by
  rcases items with _ | ⟨item, _ | ⟨next, items⟩⟩
  · exact absurd rfl hne
  · obtain ⟨hlt, hread⟩ := reads_tokens item h.1 (.closeArray :: rest)
    exact parseItems_last hread
  · obtain ⟨hlt, hread⟩ := reads_tokens item h.1
      (.comma :: (tokensOfItems (next :: items) ++ .closeArray :: rest))
    obtain ⟨hleft, hitems⟩ := reads_items (next :: items) h.2 (List.cons_ne_nil _ _) rest
    rw [tokensOfItems, List.append_assoc, List.cons_append]
    exact parseItems_more hread hitems

/-- The fields are read after the ones before them. -/
theorem reads_fields (fields : List (Units × JsonValue)) (h : JsonValue.FieldsAreJson fields)
    (hne : fields ≠ []) (before : List (Units × JsonValue))
    (hnames : ((before ++ fields).map Prod.fst).Nodup) (rest : List Token) :
    ∃ h, parseMembers before (tokensOfFields fields ++ .closeObject :: rest) =
      some (before ++ fields, ⟨rest, h⟩) := by
  rcases fields with _ | ⟨⟨name, value⟩, fields⟩
  · exact absurd rfl hne
  have hset : setField before name value = before ++ [(name, value)] := by
    refine setField_new value fun hmem => ?_
    rw [List.map_append, List.nodup_append] at hnames
    exact hnames.2.2 _ hmem _ List.mem_cons_self rfl
  rcases fields with _ | ⟨next, fields⟩
  · obtain ⟨hlt, hread⟩ := reads_tokens value h.1 (.closeObject :: rest)
    rw [← hset]
    exact parseMembers_last hread
  · obtain ⟨hlt, hread⟩ := reads_tokens value h.1
      (.comma :: (tokensOfFields (next :: fields) ++ .closeObject :: rest))
    have hmore : (((before ++ [(name, value)]) ++ next :: fields).map Prod.fst).Nodup := by
      rwa [List.append_assoc, List.singleton_append]
    obtain ⟨hleft, hfields⟩ := reads_fields (next :: fields) h.2 (List.cons_ne_nil _ _) _ hmore
      rest
    rw [← hset, hset, List.append_assoc, List.singleton_append, ← hset] at hfields
    rw [tokensOfFields, List.cons_append, List.cons_append, List.append_assoc, List.cons_append]
    exact parseMembers_more hread hfields

end

/-- `JSON.parse(JSON.stringify(value))` is the value. -/
theorem parse_stringify {value : JsonValue} (h : value.IsJson) :
    parse (stringify value) = some value := by
  obtain ⟨hlt, hread⟩ := reads_tokens value h []
  unfold parse
  rw [tokenize_stringify h, ← List.append_nil (tokens value)]
  simp only [Option.bind_eq_bind, Option.bind_some, hread]
  rfl

/-! ### Texts that are read as strings -/

/-- The length of the string that a token stands for. -/
def Token.size : Token → ℕ
  | .string text => text.length
  | .literal (.string text) => text.length
  | _ => 0

theorem lexString_length {input text rest : Units} (h : lexString input = some (text, rest)) :
    text.length + rest.length < input.length := by
  fun_induction lexString input generalizing text rest with
  | case1 => cases h
  | case2 rest' =>
      cases h
      simp
  | case3 a b c d rest' ih =>
      obtain ⟨a', -, h⟩ := Option.bind_eq_some_iff.1 h
      obtain ⟨b', -, h⟩ := Option.bind_eq_some_iff.1 h
      obtain ⟨c', -, h⟩ := Option.bind_eq_some_iff.1 h
      obtain ⟨d', -, h⟩ := Option.bind_eq_some_iff.1 h
      obtain ⟨⟨read, left⟩, hread, h⟩ := Option.bind_eq_some_iff.1 h
      cases h
      have hlength := ih hread
      simp only [List.length_cons]
      omega
  | case4 unit rest' hne ih =>
      obtain ⟨unit', -, h⟩ := Option.bind_eq_some_iff.1 h
      obtain ⟨⟨read, left⟩, hread, h⟩ := Option.bind_eq_some_iff.1 h
      cases h
      have hlength := ih hread
      simp only [List.length_cons]
      omega
  | case5 => cases h
  | case6 unit rest' hquote hunicode hescape hprinted ih =>
      obtain ⟨⟨read, left⟩, hread, h⟩ := Option.bind_eq_some_iff.1 h
      cases h
      have hlength := ih hread
      simp only [List.length_cons]
      omega

theorem length_takeWhile_add (input : Units) :
    (input.takeWhile isDigit).length + (input.dropWhile isDigit).length = input.length := by
  rw [← List.length_append, List.takeWhile_append_dropWhile]

theorem lexInteger_length {input digits rest : Units} (h : lexInteger input = some (digits, rest)) :
    rest.length < input.length := by
  unfold lexInteger at h
  split at h
  · cases h
    simp
  · split_ifs at h with hempty
    cases h
    have hlength := length_takeWhile_add input
    have hpos : 0 < (input.takeWhile isDigit).length := by
      rw [List.length_pos_iff]
      simpa using hempty
    omega

theorem lexFraction_length {input fraction rest : Units}
    (h : lexFraction input = some (fraction, rest)) : rest.length ≤ input.length := by
  unfold lexFraction at h
  split at h
  · rename_i after
    split_ifs at h
    cases h
    have hlength := length_takeWhile_add after
    rw [List.length_cons]
    omega
  · cases h
    exact le_rfl

theorem lexExponent_length {input rest : Units} {exponent : ℤ}
    (h : lexExponent input = some (exponent, rest)) : rest.length ≤ input.length := by
  rcases input with _ | ⟨unit, input⟩
  · cases h
    exact le_rfl
  have hdrop : ∀ digits : Units, (digits.dropWhile isDigit).length ≤ digits.length :=
    fun digits => (List.dropWhile_sublist _).length_le
  dsimp only [lexExponent] at h
  split_ifs at h
  all_goals cases h
  -- The sign of the exponent is dropped, if there is one.
  · refine (hdrop _).trans ?_
    split <;> simp only [List.length_cons] <;> omega
  · refine (hdrop _).trans ?_
    split <;> simp only [List.length_cons] <;> omega
  · exact le_rfl

theorem lexUnsigned_length {input rest : Units} {value : ℚ}
    (h : lexUnsigned input = some (value, rest)) : rest.length < input.length := by
  obtain ⟨⟨digits, afterInteger⟩, hinteger, h⟩ := Option.bind_eq_some_iff.1 h
  obtain ⟨⟨fraction, afterFraction⟩, hfraction, h⟩ := Option.bind_eq_some_iff.1 h
  obtain ⟨⟨exponent, after⟩, hexponent, h⟩ := Option.bind_eq_some_iff.1 h
  cases h
  exact (lexExponent_length hexponent).trans_lt
    ((lexFraction_length hfraction).trans_lt (lexInteger_length hinteger))

theorem lexToken_length {input rest : Units} {token : Token}
    (h : lexToken input = some (token, rest)) : token.size + rest.length < input.length := by
  unfold lexToken at h
  split at h
  case h_8 =>
    obtain ⟨⟨text, after⟩, htext, h⟩ := Option.map_eq_some_iff.1 h
    cases h
    have hlength := lexString_length htext
    rw [Token.size, List.length_cons]
    omega
  case h_12 =>
    obtain ⟨⟨value, after⟩, hvalue, h⟩ := Option.map_eq_some_iff.1 h
    cases h
    have hlength := lexUnsigned_length hvalue
    have hsize : (Token.literal (.number (.ofRat (-value)))).size = 0 := rfl
    rw [hsize, List.length_cons]
    omega
  case h_13 =>
    obtain ⟨⟨value, after⟩, hvalue, h⟩ := Option.map_eq_some_iff.1 h
    cases h
    have hlength := lexUnsigned_length hvalue
    have hsize : (Token.literal (.number (.ofRat value))).size = 0 := rfl
    rw [hsize, Nat.zero_add]
    exact hlength
  all_goals
    cases h
    try simp only [Token.size, List.length_cons]
    try omega

/-- A string among the tokens of a text is shorter than the text. -/
theorem tokenize_length {fuel : ℕ} {text : Units} {read : List Token}
    (h : tokenize fuel text = some read) : ∀ token ∈ read, token.size < text.length := by
  induction fuel generalizing text read with
  | zero =>
      cases text with
      | nil =>
          rw [tokenize] at h
          cases h
          simp
      | cons unit rest => cases h
  | succ fuel ih =>
      cases text with
      | nil =>
          rw [tokenize] at h
          cases h
          simp
      | cons unit rest =>
          rw [tokenize] at h
          intro token htoken
          split_ifs at h
          · exact (ih h token htoken).trans (Nat.lt_succ_self _)
          · obtain ⟨⟨first, after⟩, hfirst, h⟩ := Option.bind_eq_some_iff.1 h
            obtain ⟨later, hlater, h⟩ := Option.bind_eq_some_iff.1 h
            cases h
            have hlength := lexToken_length hfirst
            rcases List.mem_cons.1 htoken with rfl | htoken
            · omega
            · have := ih hlater token htoken
              omega

/-- A string is read from a token for it. -/
theorem parseValue_string {read : List Token} {text : Units} {left : Rest read}
    (h : parseValue read = some (.string text, left)) :
    ∃ token ∈ read, token.size = text.length := by
  unfold parseValue at h
  split at h
  · cases h
    exact ⟨_, List.mem_cons_self, rfl⟩
  · cases h
    exact ⟨_, List.mem_cons_self, rfl⟩
  · cases h
  · obtain ⟨_, _, h⟩ := Option.map_eq_some_iff.1 h
    cases h
  · cases h
  · obtain ⟨_, _, h⟩ := Option.map_eq_some_iff.1 h
    cases h
  · cases h

/-- `JSON.parse` never gives back the string that it is given. -/
theorem parse_ne_string (text : Units) : parse text ≠ some (.string text) := by
  intro h
  obtain ⟨read, hread, h⟩ := Option.bind_eq_some_iff.1 h
  obtain ⟨⟨value, left⟩, hvalue, h⟩ := Option.bind_eq_some_iff.1 h
  dsimp only at h
  split_ifs at h
  cases h
  obtain ⟨token, htoken, hsize⟩ := parseValue_string hvalue
  have hlength := tokenize_length hread token htoken
  omega

end JsonText

end Arc
