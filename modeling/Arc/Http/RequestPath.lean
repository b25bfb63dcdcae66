import Mathlib.Data.List.SplitOn
import Mathlib.Data.List.Infix
import Mathlib.Data.Nat.Notation

/-!
# The path of a static request

A static file is asked for by one spelling only: `safeSegments` decodes each part of the path,
refuses what has a meaning to a file system, and then compares the path with the canonical
spelling of what it has decoded. A path is the list of its characters here, a file below a root
the list of its components.
-/

namespace Arc.Http

/-! ### Percent decoding -/

def hexDigit (char : Char) : Option ℕ :=
  if '0' ≤ char ∧ char ≤ '9' then some (char.toNat - '0'.toNat)
  else if 'a' ≤ char ∧ char ≤ 'f' then some (char.toNat - 'a'.toNat + 10)
  else if 'A' ≤ char ∧ char ≤ 'F' then some (char.toNat - 'A'.toNat + 10)
  else none

/-- What a text is of once its escapes are read: characters, and bytes that were escaped. -/
inductive Unescaped
  | char (char : Char)
  | byte (value : ℕ)

/-- Read the escapes; `none` where one is malformed. -/
def unescape : List Char → Option (List Unescaped)
  | [] => some []
  | '%' :: high :: low :: rest =>
      match hexDigit high, hexDigit low with
      | some high, some low => (unescape rest).map (.byte (16 * high + low) :: ·)
      | _, _ => none
  | '%' :: _ => none
  | char :: rest => (unescape rest).map (.char char :: ·)

/-- The value of a continuation byte. -/
def continuation : Unescaped → Option ℕ
  | .byte value => if 0x80 ≤ value ∧ value < 0xc0 then some (value - 0x80) else none
  | .char _ => none

/-- A code point that a sequence of its length may encode. -/
def codePoint (least value : ℕ) : Option Char :=
  if least ≤ value ∧ value.isValidChar then some (Char.ofNat value) else none

/-- Read the escaped bytes as UTF-8. -/
def decodeBytes : List Unescaped → Option (List Char)
  | [] => some []
  | .char char :: rest => (decodeBytes rest).map (char :: ·)
  | .byte first :: rest =>
      if first < 0x80 then (decodeBytes rest).map (Char.ofNat first :: ·)
      else
        match rest with
        | second :: rest =>
            if 0xc0 ≤ first ∧ first < 0xe0 then do
              let second ← continuation second
              let char ← codePoint 0x80 ((first - 0xc0) * 64 + second)
              (decodeBytes rest).map (char :: ·)
            else
              match rest with
              | third :: rest =>
                  if 0xe0 ≤ first ∧ first < 0xf0 then do
                    let second ← continuation second
                    let third ← continuation third
                    let char ← codePoint 0x800 ((first - 0xe0) * 4096 + second * 64 + third)
                    (decodeBytes rest).map (char :: ·)
                  else
                    match rest with
                    | fourth :: rest =>
                        if 0xf0 ≤ first ∧ first < 0xf8 then do
                          let second ← continuation second
                          let third ← continuation third
                          let fourth ← continuation fourth
                          let char ← codePoint 0x10000
                            ((first - 0xf0) * 262144 + second * 4096 + third * 64 + fourth)
                          (decodeBytes rest).map (char :: ·)
                        else none
                    | [] => none
              | [] => none
        | [] => none

def decodeURIComponent (text : List Char) : Option (List Char) :=
  (unescape text).bind decodeBytes

/-! ### Segments -/

/-- Whether the text starts with one of the names, in any letter case, and ends or has a dot
after it. -/
def startsWithDevice (names : List (List Char)) (text : List Char) : Bool :=
  names.any fun name =>
    decide ((text.map Char.toLower).take name.length = name) &&
      (text.drop name.length).head?.all (· == '.')

/-- The names of the devices. -/
def devices : List (List Char) :=
  ["con".toList, "prn".toList, "aux".toList, "nul".toList] ++
    ("123456789".toList.map fun digit => ['c', 'o', 'm', digit]) ++
    ("123456789".toList.map fun digit => ['l', 'p', 't', digit])

/-- A character with a meaning to a file system or to a decoder. -/
def unsafeCharacter (char : Char) : Bool :=
  char == '\\' || char == '/' || char == '\x00' || char == '%' || char == ':'

def wellKnownName : List Char := ".well-known".toList

/-- Join segments with single slashes. -/
def join (segments : List (List Char)) : List Char := ['/'].intercalate segments

/-- Whether a decoded part is refused; `first` tells that no segment precedes it. -/
def refusedPart (decoded : List Char) (first : Bool) : Bool :=
  decoded == ['.'] || decoded == ['.', '.'] || decoded.any unsafeCharacter ||
    startsWithDevice devices decoded ||
    decoded.head?.any (· == '.') && !(decoded == wellKnownName && first)

/-- Decode the parts of a path, and collect the segments among them. -/
def collectSegments : List (List Char) → List (List Char) → Option (List (List Char))
  | [], segments => some segments
  | part :: parts, segments =>
      match decodeURIComponent part with
      | none => none
      | some decoded =>
          if refusedPart decoded segments.isEmpty then none
          else collectSegments parts (if decoded.isEmpty then segments else segments ++ [decoded])

/-- The canonical spelling of segments, with the trailing slash of the path. -/
def canonical (path : List Char) (segments : List (List Char)) : List Char :=
  '/' :: join segments ++
    if path.getLast?.any (· == '/') && !segments.isEmpty then ['/'] else []

/-- Decode once; reject non-canonical spelling and unsafe filesystem components. -/
def safeSegments (path : List Char) (wellKnown : List (List Char)) : Option (List (List Char)) :=
  if path.head? ≠ some '/' ∨ path.take 2 = ['/', '/'] then none
  else
    match collectSegments (path.splitOn '/').tail [] with
    | none => none
    | some segments =>
        if canonical path segments ≠ path then none
        else if segments.head? = some wellKnownName ∧ join segments ∉ wellKnown then none
        else some segments

/-- Strip a segment-delimited path base without changing the spelling of the rest. -/
def stripPathBase (path base : List Char) : Option (List Char) :=
  if base.isEmpty then some path
  else if path.map Char.toLower = base.map Char.toLower then some ['/']
  else if (base.map Char.toLower ++ ['/']).isPrefixOf (path.map Char.toLower) then
    some (path.drop base.length)
  else none

/-! ### Files below a root -/

/-- One component of a path. -/
def descend (components : List (List Char)) (component : List Char) : List (List Char) :=
  if component.isEmpty || component == ['.'] then components
  else if component == ['.', '.'] then components.dropLast
  else components ++ [component]

/-- `resolve`, from a directory given by its components. -/
def resolvePath (root : List (List Char)) (segments : List (List Char)) : List (List Char) :=
  segments.foldl (fun components segment =>
    (segment.splitOn '/').foldl descend
      (if segment.head? = some '/' then [] else components)) root

/-- `relative`, between two directories given by their components. -/
def relativePath : List (List Char) → List (List Char) → List (List Char)
  | component :: root, other :: target =>
      if component = other then relativePath root target
      else List.replicate (root.length + 1) ['.', '.'] ++ other :: target
  | root, target => List.replicate root.length ['.', '.'] ++ target

/-- True when a resolved path stays inside the public directory. -/
def contained (root target : List (List Char)) : Bool :=
  (relativePath root target).head?.all (· != ['.', '.'])

/-! ### What is accepted -/

/-- A segment that is the name of a file on every file system. -/
structure PlainSegment (segment : List Char) : Prop where
  nonempty : segment ≠ []
  safe : ∀ char ∈ segment, unsafeCharacter char = false
  device : startsWithDevice devices segment = false

/-- The one spelling of segments: single slashes, and an optional one at the end. -/
def Spells (path : List Char) (segments : List (List Char)) : Prop :=
  path = '/' :: join segments ∨ segments ≠ [] ∧ path = '/' :: join segments ++ ['/']

/-- The segments a static request may ask for. -/
structure SafeSegments (wellKnown : List (List Char)) (segments : List (List Char)) : Prop where
  plain : ∀ segment ∈ segments, PlainSegment segment
  dotted : ∀ (i : ℕ) (segment : List Char), segments[i]? = some segment →
    segment.head? = some '.' → i = 0 ∧ segment = wellKnownName
  allowed : segments.head? = some wellKnownName → join segments ∈ wellKnown

/-! ### Parts that need no decoding -/

theorem unescape_of_not_mem {text : List Char} (h : '%' ∉ text) :
    unescape text = some (text.map .char) := by
  induction text with
  | nil => rfl
  | cons char rest ih =>
      rw [List.mem_cons, not_or] at h
      have hne : char ≠ '%' := Ne.symm h.1
      unfold unescape
      split
      · next heq => cases heq
      · next heq => exact absurd (List.cons.inj heq).1 hne
      · next heq => exact absurd (List.cons.inj heq).1 hne
      · next heq =>
          obtain ⟨rfl, rfl⟩ := List.cons.inj heq
          rw [ih h.2]
          rfl

theorem decodeBytes_chars (text : List Char) : decodeBytes (text.map .char) = some text := by
  induction text with
  | nil => rfl
  | cons char rest ih =>
      rw [List.map_cons, decodeBytes, ih]
      rfl

/-- A text without an escape decodes to itself. -/
theorem decodeURIComponent_of_not_mem {text : List Char} (h : '%' ∉ text) :
    decodeURIComponent text = some text := by
  rw [decodeURIComponent, unescape_of_not_mem h, Option.bind_some, decodeBytes_chars]

/-! ### What a part is refused for -/

/-- Only the name of the well-known directory starts with a dot, and only in first place. -/
def Dotted (segments : List (List Char)) : Prop :=
  ∀ (i : ℕ) (segment : List Char), segments[i]? = some segment →
    segment.head? = some '.' → i = 0 ∧ segment = wellKnownName

theorem PlainSegment.not_mem_slash {segment : List Char} (h : PlainSegment segment) :
    '/' ∉ segment := fun hmem => absurd (h.safe '/' hmem) (by decide)

theorem PlainSegment.not_mem_percent {segment : List Char} (h : PlainSegment segment) :
    '%' ∉ segment := fun hmem => absurd (h.safe '%' hmem) (by decide)

theorem plain_of_not_refused {decoded : List Char} {first : Bool} (hne : decoded ≠ [])
    (h : refusedPart decoded first = false) :
    PlainSegment decoded ∧
      (decoded.head? = some '.' → decoded = wellKnownName ∧ first = true) := by
  simp only [refusedPart, Bool.or_eq_false_iff, Bool.and_eq_false_iff, Bool.not_eq_false',
    List.any_eq_false, Bool.not_eq_true, Bool.and_eq_true, beq_iff_eq] at h
  obtain ⟨⟨⟨-, hsafe⟩, hdevice⟩, hdot⟩ := h
  refine ⟨⟨hne, hsafe, hdevice⟩, fun hhead => ?_⟩
  rcases hdot with hdot | hdot
  · rw [hhead] at hdot
    exact absurd hdot (by decide)
  · exact hdot

theorem not_refused_of_plain {decoded : List Char} {first : Bool} (h : PlainSegment decoded)
    (hdot : decoded.head? = some '.' → decoded = wellKnownName ∧ first = true) :
    refusedPart decoded first = false := by
  have hsafe : decoded.any unsafeCharacter = false := by
    rw [List.any_eq_false]
    intro char hchar
    rw [h.safe char hchar]
    exact Bool.false_ne_true
  by_cases hhead : decoded.head? = some '.'
  · obtain ⟨rfl, rfl⟩ := hdot hhead
    decide
  · have hdotless : decoded.head?.any (· == '.') = false := by
      cases hfirst : decoded.head? with
      | none => rfl
      | some char =>
          rw [Option.any_some, beq_eq_false_iff_ne]
          rintro rfl
          exact hhead hfirst
    have hone : decoded ≠ ['.'] := by
      rintro rfl
      exact hhead rfl
    have htwo : decoded ≠ ['.', '.'] := by
      rintro rfl
      exact hhead rfl
    simp [refusedPart, hsafe, h.device, hdotless, hone, htwo]

theorem refusedPart_nil (first : Bool) : refusedPart [] first = false := by
  cases first <;> decide

/-! ### The loop over the parts -/

theorem dotted_concat {segments : List (List Char)} {segment : List Char} (h : Dotted segments)
    (hdot : segment.head? = some '.' → segment = wellKnownName ∧ segments.isEmpty = true) :
    Dotted (segments ++ [segment]) := by
  intro i other hother hhead
  rw [List.getElem?_append] at hother
  split_ifs at hother with hlt
  · exact h i other hother hhead
  · rw [List.getElem?_singleton] at hother
    split_ifs at hother with hzero
    obtain rfl := Option.some.inj hother
    obtain ⟨hname, hempty⟩ := hdot hhead
    rw [List.isEmpty_iff] at hempty
    subst hempty
    exact ⟨by simpa using hzero, hname⟩

theorem collectSegments_sound {parts segments result : List (List Char)}
    (hplain : ∀ segment ∈ segments, PlainSegment segment) (hdotted : Dotted segments)
    (h : collectSegments parts segments = some result) :
    (∀ segment ∈ result, PlainSegment segment) ∧ Dotted result := by
  induction parts generalizing segments with
  | nil =>
      obtain rfl := Option.some.inj h
      exact ⟨hplain, hdotted⟩
  | cons part parts ih =>
      unfold collectSegments at h
      cases hdecoded : decodeURIComponent part with
      | none =>
          rw [hdecoded] at h
          cases h
      | some decoded =>
          rw [hdecoded] at h
          dsimp only at h
          by_cases hrefused : refusedPart decoded segments.isEmpty = true
          · rw [if_pos hrefused] at h
            cases h
          rw [if_neg hrefused] at h
          by_cases hempty : decoded.isEmpty = true
          · rw [if_pos hempty] at h
            exact ih hplain hdotted h
          · rw [if_neg hempty] at h
            have hne : decoded ≠ [] := by simpa using hempty
            obtain ⟨hdecoded', hdot⟩ := plain_of_not_refused hne (by simpa using hrefused)
            refine ih ?_ (dotted_concat hdotted hdot) h
            intro segment hsegment
            rcases List.mem_append.1 hsegment with hmem | hmem
            · exact hplain segment hmem
            · rw [List.mem_singleton.1 hmem]
              exact hdecoded'

theorem collectSegments_complete {parts segments : List (List Char)} (trailing : Bool)
    (hplain : ∀ segment ∈ parts, PlainSegment segment) (hdotted : Dotted (segments ++ parts)) :
    collectSegments (parts ++ if trailing then [[]] else []) segments =
      some (segments ++ parts) := by
  induction parts generalizing segments with
  | nil =>
      rw [List.nil_append, List.append_nil]
      cases trailing with
      | false => rfl
      | true =>
          rw [if_pos rfl, collectSegments, decodeURIComponent_of_not_mem (by simp)]
          dsimp only
          rw [refusedPart_nil, if_neg Bool.false_ne_true]
          rfl
  | cons part parts ih =>
      have hpart := hplain part List.mem_cons_self
      rw [List.cons_append, collectSegments,
        decodeURIComponent_of_not_mem hpart.not_mem_percent]
      have hdot : part.head? = some '.' →
          part = wellKnownName ∧ segments.isEmpty = true := by
        intro hhead
        have hget : (segments ++ part :: parts)[segments.length]? = some part := by simp
        obtain ⟨hzero, hname⟩ := hdotted _ part hget hhead
        exact ⟨hname, List.isEmpty_iff.2 (List.length_eq_zero_iff.1 hzero)⟩
      have hne : ¬ part.isEmpty = true := by simpa using hpart.nonempty
      dsimp only
      rw [not_refused_of_plain hpart hdot, if_neg Bool.false_ne_true, if_neg hne,
        ih (fun segment hmem => hplain segment (List.mem_cons_of_mem _ hmem))
          (by simpa using hdotted)]
      simp

/-! ### One spelling -/

theorem join_cons {segment : List Char} {segments : List (List Char)} (h : segments ≠ []) :
    join (segment :: segments) = segment ++ '/' :: join segments := by
  cases segments with
  | nil => exact absurd rfl h
  | cons other segments => simp [join, List.intercalate_cons_cons]

theorem join_concat_nil {segments : List (List Char)} (h : segments ≠ []) :
    join (segments ++ [[]]) = join segments ++ ['/'] := by
  induction segments with
  | nil => exact absurd rfl h
  | cons segment segments ih =>
      cases segments with
      | nil => simp [join]
      | cons other segments =>
          have hright : join (segment :: other :: segments) =
              segment ++ '/' :: join (other :: segments) := join_cons (by simp)
          have hleft : join (segment :: other :: segments ++ [[]]) =
              segment ++ '/' :: join (other :: segments ++ [[]]) := join_cons (by simp)
          rw [hleft, ih (by simp), hright, List.append_assoc, List.cons_append]

/-- The parts of a spelling are its segments, and an empty one for the trailing slash. -/
theorem splitOn_spelled {segments : List (List Char)} (trailing : Bool)
    (hne : segments = [] → trailing = true) (h : ∀ segment ∈ segments, '/' ∉ segment) :
    (('/' :: join (segments ++ if trailing then [[]] else [])).splitOn '/').tail =
      segments ++ if trailing then [[]] else [] := by
  set parts := segments ++ if trailing then [[]] else [] with hparts
  have hparts' : parts ≠ [] := by
    intro hempty
    rw [hparts, List.append_eq_nil_iff] at hempty
    rw [hne hempty.1] at hempty
    cases hempty.2
  have hclean : ∀ part ∈ [] :: parts, '/' ∉ part := by
    intro part hpart
    rcases List.mem_cons.1 hpart with rfl | hpart
    · simp
    rcases List.mem_append.1 hpart with hmem | hmem
    · exact h part hmem
    · cases trailing with
      | false => cases hmem
      | true =>
          rw [List.mem_singleton.1 hmem]
          simp
  have hspelled : '/' :: join parts = join ([] :: parts) := by
    rw [join_cons hparts', List.nil_append]
  rw [hspelled, join, List.splitOn_intercalate '/' hclean (by simp)]
  rfl

theorem getLast?_join {segments : List (List Char)} (hne : segments ≠ [])
    (h : ∀ segment ∈ segments, PlainSegment segment) :
    ∃ char, (join segments).getLast? = some char ∧ char ≠ '/' := by
  induction segments with
  | nil => exact absurd rfl hne
  | cons segment segments ih =>
      have hsegment := h segment List.mem_cons_self
      cases segments with
      | nil =>
          have hjoin : join [segment] = segment := by simp [join]
          rw [hjoin]
          obtain ⟨char, hchar⟩ := Option.ne_none_iff_exists'.1
            (mt List.getLast?_eq_none_iff.1 hsegment.nonempty)
          refine ⟨char, hchar, ?_⟩
          rintro rfl
          exact hsegment.not_mem_slash (List.mem_of_getLast? hchar)
      | cons other segments =>
          obtain ⟨char, hchar, hslash⟩ :=
            ih (by simp) fun segment hmem => h segment (List.mem_cons_of_mem _ hmem)
          refine ⟨char, ?_, hslash⟩
          rw [join_cons (by simp), List.getLast?_append, List.getLast?_cons, hchar]
          rfl

theorem head?_join {segments : List (List Char)} {segment : List Char}
    (h : segments.head? = some segment) (hne : segment ≠ []) :
    (join segments).head? = segment.head? := by
  cases segments with
  | nil => cases h
  | cons first segments =>
      obtain rfl := Option.some.inj h
      cases segments with
      | nil => simp [join]
      | cons other segments =>
          rw [join_cons (by simp), List.head?_append_of_ne_nil _ hne]

theorem spelled_of_spells {path : List Char} {segments : List (List Char)}
    (h : Spells path segments) :
    ∃ trailing : Bool, (segments = [] → trailing = true) ∧
      path = '/' :: join (segments ++ if trailing then [[]] else []) ∧
      path = '/' :: join segments ++ if trailing && !segments.isEmpty then ['/'] else [] := by
  rcases h with h | ⟨hne, h⟩
  · by_cases hne : segments = []
    · subst hne
      exact ⟨true, fun _ => rfl, by simpa [join] using h, by simpa using h⟩
    · exact ⟨false, fun hempty => absurd hempty hne, by simpa using h, by simpa using h⟩
  · refine ⟨true, fun _ => rfl, ?_, ?_⟩
    · rw [if_pos rfl, join_concat_nil hne, h]
      rfl
    · have hisEmpty : segments.isEmpty = false := by simpa using hne
      simpa [hisEmpty] using h

/-- The segments of a path are found exactly when the path is their one spelling. -/
theorem safeSegments_eq_some_iff {path : List Char} {wellKnown segments : List (List Char)} :
    safeSegments path wellKnown = some segments ↔
      Spells path segments ∧ SafeSegments wellKnown segments := by
  constructor
  · intro h
    unfold safeSegments at h
    by_cases hstart : path.head? ≠ some '/' ∨ path.take 2 = ['/', '/']
    · rw [if_pos hstart] at h
      cases h
    rw [if_neg hstart] at h
    cases hcollect : collectSegments (path.splitOn '/').tail [] with
    | none =>
        rw [hcollect] at h
        cases h
    | some found =>
        rw [hcollect] at h
        dsimp only at h
        by_cases hcanonical : canonical path found ≠ path
        · rw [if_pos hcanonical] at h
          cases h
        rw [if_neg hcanonical] at h
        by_cases hallowed : found.head? = some wellKnownName ∧ join found ∉ wellKnown
        · rw [if_pos hallowed] at h
          cases h
        rw [if_neg hallowed] at h
        obtain rfl := Option.some.inj h
        rw [not_not] at hcanonical
        obtain ⟨hplain, hdotted⟩ := collectSegments_sound (by simp) (by
          intro i segment hsegment
          cases hsegment) hcollect
        refine ⟨?_, hplain, hdotted, fun hhead => ?_⟩
        · rw [canonical] at hcanonical
          by_cases htrailing : (path.getLast?.any (· == '/') && !found.isEmpty) = true
          · rw [if_pos htrailing] at hcanonical
            refine Or.inr ⟨?_, hcanonical.symm⟩
            rintro rfl
            simp at htrailing
          · rw [if_neg htrailing, List.append_nil] at hcanonical
            exact Or.inl hcanonical.symm
        · by_contra hmem
          exact hallowed ⟨hhead, hmem⟩
  · rintro ⟨hspells, hplain, hdotted, hallowed⟩
    obtain ⟨trailing, hempty, hparts, hpath⟩ := spelled_of_spells hspells
    have hslash : ∀ segment ∈ segments, '/' ∉ segment :=
      fun segment hmem => (hplain segment hmem).not_mem_slash
    have hcollect : collectSegments (path.splitOn '/').tail [] = some segments := by
      rw [hparts, splitOn_spelled trailing hempty hslash]
      exact collectSegments_complete trailing hplain hdotted
    have hlast : (path.getLast?.any (· == '/') && !segments.isEmpty) =
        (trailing && !segments.isEmpty) := by
      cases hsegments : segments.isEmpty with
      | true => simp
      | false =>
          have hne : segments ≠ [] := by simpa using hsegments
          rw [hpath, hsegments]
          cases trailing with
          | true =>
              have hends : ('/' :: join segments ++ ['/']).getLast? = some '/' :=
                List.getLast?_concat
              simpa using congrArg (Option.any (· == '/')) hends
          | false =>
              obtain ⟨char, hchar, hother⟩ := getLast?_join hne hplain
              simp [List.getLast?_cons, hchar, hother]
    have hcanonical : canonical path segments = path := by
      rw [canonical, hlast]
      exact hpath.symm
    have hstart : ¬ (path.head? ≠ some '/' ∨ path.take 2 = ['/', '/']) := by
      rw [not_or, not_not]
      refine ⟨by rw [hpath]; rfl, ?_⟩
      intro htake
      cases segments with
      | nil =>
          rw [hpath] at htake
          simp [join] at htake
      | cons segment segments =>
          have hsegment := hplain segment List.mem_cons_self
          have hhead := @head?_join (segment :: segments) segment rfl hsegment.nonempty
          obtain ⟨char, hchar⟩ := Option.isSome_iff_exists.1
            (List.isSome_head?.2 hsegment.nonempty)
          rw [hchar] at hhead
          obtain ⟨rest, hrest⟩ := List.head?_eq_some_iff.1 hhead
          rw [hpath, hrest] at htake
          have hslash' : char = '/' := by
            simp only [List.cons_append, List.take_succ_cons, List.cons.injEq] at htake
            exact htake.2.1
          rw [hslash'] at hchar
          exact hsegment.not_mem_slash (List.mem_of_head? hchar)
    unfold safeSegments
    rw [if_neg hstart, hcollect]
    dsimp only
    rw [if_neg (not_not.2 hcanonical), if_neg]
    rintro ⟨hhead, hmem⟩
    exact hmem (hallowed hhead)

/-! ### Below a root -/

theorem descend_of_plain {components : List (List Char)} {segment : List Char}
    (h : PlainSegment segment) (hdot : segment ≠ ['.'] ∧ segment ≠ ['.', '.']) :
    descend components segment = components ++ [segment] := by
  have hne : segment.isEmpty = false := by simpa using h.nonempty
  simp [descend, hne, hdot.1, hdot.2]

/-- Resolving safe segments only appends them. -/
theorem resolvePath_of_safe {wellKnown segments : List (List Char)}
    (h : SafeSegments wellKnown segments) (root : List (List Char)) :
    resolvePath root segments = root ++ segments := by
  have hall : ∀ segment ∈ segments, PlainSegment segment ∧ segment ≠ ['.'] ∧
      segment ≠ ['.', '.'] := by
    intro segment hmem
    obtain ⟨i, hi⟩ := List.mem_iff_getElem?.1 hmem
    refine ⟨h.plain segment hmem, ?_, ?_⟩
    · rintro rfl
      exact absurd (h.dotted i _ hi rfl).2 (by decide)
    · rintro rfl
      exact absurd (h.dotted i _ hi rfl).2 (by decide)
  clear h
  unfold resolvePath
  induction segments generalizing root with
  | nil => simp
  | cons segment segments ih =>
      obtain ⟨hplain, hdots⟩ := hall segment List.mem_cons_self
      have hrelative : segment.head? ≠ some '/' :=
        fun hhead => hplain.not_mem_slash (List.mem_of_head? hhead)
      have hsplit : segment.splitOn '/' = [segment] := by
        have hjoined : segment = ['/'].intercalate [segment] := by simp
        conv_lhs => rw [hjoined]
        exact List.splitOn_intercalate '/' (by simpa using hplain.not_mem_slash) (by simp)
      rw [List.foldl_cons, if_neg hrelative, hsplit, List.foldl_cons, List.foldl_nil,
        descend_of_plain hplain hdots,
        ih _ fun other hmem => hall other (List.mem_cons_of_mem _ hmem)]
      simp

theorem relativePath_append (root segments : List (List Char)) :
    relativePath root (root ++ segments) = segments := by
  induction root with
  | nil => cases segments <;> rfl
  | cons component root ih =>
      rw [List.cons_append, relativePath, if_pos rfl]
      exact ih

theorem contained_of_safe {wellKnown segments : List (List Char)}
    (h : SafeSegments wellKnown segments) (root : List (List Char)) :
    contained root (resolvePath root segments) = true := by
  rw [resolvePath_of_safe h, contained, relativePath_append]
  cases hhead : segments.head? with
  | none => rfl
  | some segment =>
      rw [Option.all_some, bne_iff_ne]
      rintro rfl
      have hget : segments[0]? = some ['.', '.'] := by rw [← List.head?_eq_getElem?, hhead]
      exact absurd (h.dotted 0 _ hget rfl).2 (by decide)

theorem not_mem_percent_of_spells {path : List Char} {wellKnown segments : List (List Char)}
    (hspells : Spells path segments) (h : SafeSegments wellKnown segments) : '%' ∉ path := by
  have hjoin : '%' ∉ join segments := by
    have hplain := h.plain
    clear h hspells
    induction segments with
    | nil => simp [join]
    | cons segment segments ih =>
        have hsegment := (hplain segment List.mem_cons_self).not_mem_percent
        cases segments with
        | nil => simpa [join] using hsegment
        | cons other segments =>
            rw [join_cons (by simp), List.mem_append, List.mem_cons, not_or, not_or]
            exact ⟨hsegment, by decide,
              ih fun segment hmem => hplain segment (List.mem_cons_of_mem _ hmem)⟩
  rcases hspells with rfl | ⟨-, rfl⟩
  · simpa using hjoin
  · simpa using hjoin

end Arc.Http
