import Arc.Foundation.Doubles

/-!
# JSON texts

`JSON.parse` on a text of UTF-16 code units: the text is cut into tokens, and the tokens are read
as one value. Of two fields of one name an object keeps the place of the first and the value of
the last. A number is the decimal that is written, rounded, so that one that is too large is
infinite.
-/

namespace Arc

/-- A text as UTF-16 code units. -/
abbrev Units := List UInt16

/-- The code units of a text. -/
def units (text : String) : Units :=
  text.toList.flatMap fun c =>
    if c.toNat < 0x10000 then [c.toNat.toUInt16]
    else [(0xD800 + (c.toNat - 0x10000) / 0x400).toUInt16,
      (0xDC00 + (c.toNat - 0x10000) % 0x400).toUInt16]

/-- A value of JSON as the language has it. -/
inductive JsonValue
  | null
  | boolean (value : Bool)
  | number (value : Number)
  | string (value : Units)
  | array (items : List JsonValue)
  | object (fields : List (Units × JsonValue))

namespace JsonText

inductive Token
  | openArray
  | closeArray
  | openObject
  | closeObject
  | colon
  | comma
  | literal (value : JsonValue)
  | string (text : Units)

/-! ### Tokens -/

def isWhiteSpace (unit : UInt16) : Bool :=
  unit == 0x20 || unit == 0x09 || unit == 0x0A || unit == 0x0D

def isDigit (unit : UInt16) : Bool := 0x30 ≤ unit && unit ≤ 0x39

def hexDigit (unit : UInt16) : Option UInt16 :=
  if isDigit unit then some (unit - 0x30)
  else if 0x41 ≤ unit && unit ≤ 0x46 then some (unit - 0x37)
  else if 0x61 ≤ unit && unit ≤ 0x66 then some (unit - 0x57)
  else none

/-- What an escape of one letter stands for. -/
def escaped (unit : UInt16) : Option UInt16 :=
  if unit == 0x22 || unit == 0x5C || unit == 0x2F then some unit
  else if unit == 0x62 then some 0x08
  else if unit == 0x66 then some 0x0C
  else if unit == 0x6E then some 0x0A
  else if unit == 0x72 then some 0x0D
  else if unit == 0x74 then some 0x09
  else none

/-- A string after its opening quotation mark, and what follows it. -/
def lexString : Units → Option (Units × Units)
  | [] => none
  | 0x22 :: rest => some ([], rest)
  | 0x5C :: 0x75 :: a :: b :: c :: d :: rest => do
      let a ← hexDigit a
      let b ← hexDigit b
      let c ← hexDigit c
      let d ← hexDigit d
      let (text, rest) ← lexString rest
      some ((a * 0x1000 + b * 0x100 + c * 0x10 + d) :: text, rest)
  | 0x5C :: unit :: rest => do
      let unit ← escaped unit
      let (text, rest) ← lexString rest
      some (unit :: text, rest)
  | unit :: rest =>
      if unit < 0x20 || unit == 0x5C then none
      else do
        let (text, rest) ← lexString rest
        some (unit :: text, rest)

/-- The value of a sequence of digits. -/
def digitsValue (digits : Units) : ℕ :=
  digits.foldl (fun value digit => 10 * value + (digit.toNat - 0x30)) 0

/-- The digits after a point, if there is one; it is followed by a digit. -/
def lexFraction : Units → Option (Units × Units)
  | 0x2E :: rest =>
      if (rest.takeWhile isDigit).isEmpty then none
      else some (rest.takeWhile isDigit, rest.dropWhile isDigit)
  | rest => some ([], rest)

/-- The exponent, if there is one; its sign is followed by a digit. -/
def lexExponent : Units → Option (ℤ × Units)
  | [] => some (0, [])
  | unit :: rest =>
      if unit == 0x65 || unit == 0x45 then
        let (negative, digits) := match rest with
          | 0x2D :: digits => (true, digits)
          | 0x2B :: digits => (false, digits)
          | digits => (false, digits)
        if (digits.takeWhile isDigit).isEmpty then none
        else
          let exponent : ℤ := digitsValue (digits.takeWhile isDigit)
          some (if negative then -exponent else exponent, digits.dropWhile isDigit)
      else some (0, unit :: rest)

/-- The digits before the point: a zero, or digits that do not begin with one. -/
def lexInteger : Units → Option (Units × Units)
  | 0x30 :: rest => some ([0x30], rest)
  | input =>
      if (input.takeWhile isDigit).isEmpty then none
      else some (input.takeWhile isDigit, input.dropWhile isDigit)

/-- A number without its sign, and what follows it. -/
def lexUnsigned (input : Units) : Option (ℚ × Units) := do
  let (digits, rest) ← lexInteger input
  let (fraction, rest) ← lexFraction rest
  let (exponent, rest) ← lexExponent rest
  some (digitsValue (digits ++ fraction) * (10 : ℚ) ^ (exponent - fraction.length), rest)

/-- One token, which is not white space, and what follows it. -/
def lexToken : Units → Option (Token × Units)
  | [] => none
  | 0x5B :: rest => some (.openArray, rest)
  | 0x5D :: rest => some (.closeArray, rest)
  | 0x7B :: rest => some (.openObject, rest)
  | 0x7D :: rest => some (.closeObject, rest)
  | 0x3A :: rest => some (.colon, rest)
  | 0x2C :: rest => some (.comma, rest)
  | 0x22 :: rest => (lexString rest).map fun (text, rest) => (.string text, rest)
  | 0x6E :: 0x75 :: 0x6C :: 0x6C :: rest => some (.literal .null, rest)
  | 0x74 :: 0x72 :: 0x75 :: 0x65 :: rest => some (.literal (.boolean true), rest)
  | 0x66 :: 0x61 :: 0x6C :: 0x73 :: 0x65 :: rest => some (.literal (.boolean false), rest)
  | 0x2D :: rest => (lexUnsigned rest).map fun (value, rest) =>
      (.literal (.number (.ofRat (-value))), rest)
  | input => (lexUnsigned input).map fun (value, rest) =>
      (.literal (.number (.ofRat value)), rest)

/-- The tokens of a text. Every token has a unit at least, so there are no more than units. -/
def tokenize : ℕ → Units → Option (List Token)
  | _, [] => some []
  | 0, _ :: _ => none
  | fuel + 1, unit :: rest =>
      if isWhiteSpace unit then tokenize fuel rest
      else do
        let (token, rest) ← lexToken (unit :: rest)
        let tokens ← tokenize fuel rest
        some (token :: tokens)

/-! ### Values -/

/-- Set a field: in place when the object has one of that name. -/
def setField : List (Units × JsonValue) → Units → JsonValue → List (Units × JsonValue)
  | [], key, value => [(key, value)]
  | (name, old) :: fields, key, value =>
      if name = key then (key, value) :: fields else (name, old) :: setField fields key value

/-- What is left of some tokens when at least one was read. -/
abbrev Rest (tokens : List Token) := { rest : List Token // rest.length < tokens.length }

mutual

def parseValue (tokens : List Token) : Option (JsonValue × Rest tokens) :=
  match tokens with
  | .literal value :: rest => some (value, ⟨rest, by simp⟩)
  | .string text :: rest => some (.string text, ⟨rest, by simp⟩)
  | .openArray :: .closeArray :: rest => some (.array [], ⟨rest, by grind⟩)
  | .openArray :: rest =>
      (parseItems rest).map fun (items, after) => (.array items, ⟨after, by grind⟩)
  | .openObject :: .closeObject :: rest => some (.object [], ⟨rest, by grind⟩)
  | .openObject :: rest =>
      (parseMembers [] rest).map fun (fields, after) => (.object fields, ⟨after, by grind⟩)
  | _ => none
termination_by 2 * tokens.length

/-- The items of an array up to its end. -/
def parseItems (tokens : List Token) : Option (List JsonValue × Rest tokens) :=
  match parseValue tokens with
  | none => none
  | some (item, ⟨rest, h⟩) =>
      match rest with
      | .closeArray :: after => some ([item], ⟨after, by grind⟩)
      | .comma :: after =>
          (parseItems after).map fun (items, left) =>
            (item :: items, ⟨left, by grind⟩)
      | _ => none
termination_by 2 * tokens.length + 1
decreasing_by
  · omega
  · simp only [List.length_cons] at h
    omega

/-- The members of an object up to its end. -/
def parseMembers (fields : List (Units × JsonValue)) (tokens : List Token) :
    Option (List (Units × JsonValue) × Rest tokens) :=
  match tokens with
  | .string key :: .colon :: rest =>
      match parseValue rest with
      | none => none
      | some (value, ⟨rest, h⟩) =>
          match rest with
          | .closeObject :: after =>
              some (setField fields key value, ⟨after, by grind⟩)
          | .comma :: after =>
              (parseMembers (setField fields key value) after).map fun (fields, left) =>
                (fields, ⟨left, by grind⟩)
          | _ => none
  | _ => none
termination_by 2 * tokens.length + 1
decreasing_by
  · simp only [List.length_cons]
    omega
  · simp only [List.length_cons] at h ⊢
    omega

end

/-- `JSON.parse(text)`, `none` when it throws. -/
def parse (text : Units) : Option JsonValue := do
  let tokens ← tokenize text.length text
  let (value, rest) ← parseValue tokens
  if rest.1.isEmpty then some value else none

end JsonText

end Arc
