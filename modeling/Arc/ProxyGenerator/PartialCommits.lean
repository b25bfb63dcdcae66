import Arc.ProxyGenerator.FileCalls

/-!
# Partial commits

A publication reports exactly when what it has recorded is what has changed on the disk. Between
the two lies, in `publishFile` and in `publishGeneratedMetadata`, the removal of the temporary
file: when it fails the file stands and is not recorded. `generateClient` records first.
-/

namespace Arc.ProxyGenerator

/-- What a read of a path answers, `none` when it cannot be read. -/
def readText : Option Node → Option (Option Text)
  | none => some none
  | some (.file text _) => some (some text)
  | some .other => none

/-- The content at a path. -/
def Progress.contentAt (s : Progress) (path : Text) : Option (Option Text) := readText (s.nodes path)

/-- The disk before a publication. -/
def Progress.start (nodes : Text → Option Node) : Progress where
  nodes := nodes
  temporaries := fun _ => none

/-- What has been recorded is what has changed. -/
def Progress.Recorded (nodes : Text → Option Node) (s : Progress) : Prop :=
  ∀ path, path ∈ s.changed ↔ s.contentAt path ≠ readText (nodes path)

/-- The list that is reported is what has changed; without a list nothing has. -/
def Report.Exact (nodes : Text → Option Node) (s : Progress) : Report → Prop
  | .returned changed => ∀ path, path ∈ changed ↔ s.contentAt path ≠ readText (nodes path)
  | .partiallyCommitted changed _ _ =>
      ∀ path, path ∈ changed ↔ s.contentAt path ≠ readText (nodes path)
  | .failed _ _ => ∀ path, s.contentAt path = readText (nodes path)

/-! ### Calls -/

namespace Files

variable {fails : Faults} {place : Place} {path : Text} {s : Progress}

theorem orMissing_readFile {text : Option Text} (h : readText (s.nodes path) = some text)
    (hfails : fails place path = false) : orMissing (readFile fails place path) s = (.ok text, s) := by
  unfold readText at h
  split at h
  · obtain rfl := Option.some.inj h
    simp [orMissing, readFile, Attempt.catching, hfails, *]
  · obtain rfl := Option.some.inj h
    simp [orMissing, readFile, Attempt.catching, hfails, *]
  · cases h

/-- A read that fails, or reads what is no file, throws and changes nothing. -/
theorem orMissing_readFile_error
    (h : ¬(fails place path = false ∧ (readText (s.nodes path)).isSome)) :
    ∃ e, orMissing (readFile fails place path) s = (.error e, s) := by
  cases hfails : fails place path with
  | true => exact ⟨.failed, by simp [orMissing, readFile, Attempt.catching, hfails]⟩
  | false =>
      rcases hnode : s.nodes path with _ | ⟨text, mode⟩ | _
      · exact absurd ⟨hfails, by simp [readText, hnode]⟩ h
      · exact absurd ⟨hfails, by simp [readText, hnode]⟩ h
      · exact ⟨.failed, by simp [orMissing, readFile, Attempt.catching, hfails, hnode]⟩

/-- The removal of a temporary file, which may already be gone. -/
theorem ignoreMissing_unlinkTemporary (h : fails place path = false) :
    ignoreMissing (unlinkTemporary fails place path) s =
      (.ok (), { s with temporaries := Function.update s.temporaries path none }) := by
  cases htemporary : s.temporaries path with
  | none =>
      have hsame : Function.update s.temporaries path none = s.temporaries := by
        rw [← htemporary, Function.update_eq_self]
      simp [ignoreMissing, unlinkTemporary, Attempt.catching, h, htemporary, hsame]
  | some text => simp [ignoreMissing, unlinkTemporary, Attempt.catching, h, htemporary]

theorem ignoreMissing_unlinkTemporary_error (h : fails place path = true) :
    ignoreMissing (unlinkTemporary fails place path) s = (.error .failed, s) := by
  simp [ignoreMissing, unlinkTemporary, Attempt.catching, h]

end Files

/-! ### Source files -/

namespace SourceFiles

open Files

variable {p : SourceFiles} {fails : Faults} {nodes : Text → Option Node} {s : Progress}

/-- The file already has the text it would be published with. -/
def Unchanged (p : SourceFiles) (file : Text × SourceFileEntry) : Prop :=
  p.existing.get file.1 = some (p.published file.2 (p.existing.get file.1))

/-- No call up to the link or the rename fails, and the file is what it was when it was read. -/
def Placed (p : SourceFiles) (fails : Faults) (nodes : Text → Option Node)
    (file : Text × SourceFileEntry) : Prop :=
  dotted file.1 = false ∧ fails .makeDirectory file.1 = false ∧ fails .readActual file.1 = false ∧
    readText (nodes file.1) = some (p.existing.get file.1) ∧ fails .write file.1 = false ∧
    if (p.existing.get file.1).isNone then fails .link file.1 = false
    else fails .lstatMode file.1 = false ∧ fails .lstatAgain file.1 = false ∧
      fails .chmod file.1 = false ∧ fails .rename file.1 = false

/-- The text that is published for a file. -/
abbrev textOf (p : SourceFiles) (file : Text × SourceFileEntry) : Text :=
  p.published file.2 (p.existing.get file.1)

theorem publishFile_unchanged {file : Text × SourceFileEntry} (h : p.Unchanged file) :
    p.publishFile fails file.1 file.2 (p.existing.get file.1) s = (.ok none, s) := by
  unfold Unchanged at h
  simp only [publishFile, if_pos h, Attempt.pure_apply]

/-- What `putInPlace` does to a temporary file and its destination. -/
theorem putInPlace_placed {file : Text × SourceFileEntry} {text : Text} {mode : ℕ}
    (h : p.Placed fails s.nodes file)
    (htemporary : s.temporaries file.1 = some (text, mode)) :
    ∃ t mode, putInPlace fails file.1 (p.existing.get file.1) s = (.ok (), t) ∧
      t.nodes = Function.update s.nodes file.1 (some (.file text mode)) ∧ t.changed = s.changed ∧
      ∀ path ≠ file.1, t.temporaries path = s.temporaries path := by
  obtain ⟨-, -, -, hread, -, hcalls⟩ := h
  cases hprevious : p.existing.get file.1 with
  | none =>
      rw [hprevious] at hread hcalls
      have hnode : s.nodes file.1 = none := by
        unfold readText at hread
        split at hread <;> simp_all
      refine ⟨{ s with nodes := Function.update s.nodes file.1 (some (.file text mode)) }, mode, ?_,
        rfl, rfl, fun _ _ => rfl⟩
      have hlink : fails .link file.1 = false := hcalls
      simp [putInPlace, link, hlink, htemporary, hnode]
  | some previous =>
      rw [hprevious] at hread hcalls
      obtain ⟨oldMode, hnode⟩ : ∃ oldMode, s.nodes file.1 = some (.file previous oldMode) := by
        unfold readText at hread
        split at hread <;> simp_all
      obtain ⟨-, hlstat, hchmod, hrename⟩ := hcalls
      refine ⟨{ s with
        nodes := Function.update s.nodes file.1 (some (.file text oldMode))
        temporaries := Function.update (Function.update s.temporaries file.1 (some (text, oldMode)))
          file.1 none }, oldMode, ?_, rfl, rfl, fun path hpath => ?_⟩
      · simp [putInPlace, lstat, chmod, rename, hlstat, hchmod, hrename, htemporary, hnode]
      · simp [Function.update_of_ne hpath]

/-- When it fails the destination is as before. -/
theorem putInPlace_error {path : Text} {previous : Option Text}
    (hread : readText (s.nodes path) = some previous)
    (h : ¬ if previous.isNone then fails .link path = false
      else fails .lstatAgain path = false ∧ fails .chmod path = false ∧
        fails .rename path = false) :
    ∃ e t, putInPlace fails path previous s = (.error e, t) ∧ t.nodes = s.nodes ∧
      t.changed = s.changed ∧ ∀ q ≠ path, t.temporaries q = s.temporaries q := by
  cases previous with
  | none =>
      have hlink : fails .link path = true := by simpa using h
      exact ⟨.failed, s, by simp [putInPlace, link, hlink], rfl, rfl, fun _ _ => rfl⟩
  | some previous =>
      obtain ⟨mode, hnode⟩ : ∃ mode, s.nodes path = some (.file previous mode) := by
        unfold readText at hread
        split at hread <;> simp_all
      cases hlstat : fails .lstatAgain path with
      | true => exact ⟨.failed, s, by simp [putInPlace, lstat, hlstat], rfl, rfl, fun _ _ => rfl⟩
      | false =>
          cases hchmod : fails .chmod path with
          | true =>
              exact ⟨.failed, s, by simp [putInPlace, lstat, chmod, hlstat, hnode, hchmod], rfl, rfl,
                fun _ _ => rfl⟩
          | false =>
              have hrename : fails .rename path = true := by simpa [hlstat, hchmod] using h
              refine ⟨.failed, { s with
                temporaries := Function.update s.temporaries path
                  ((s.temporaries path).map fun file => (file.1, mode)) }, ?_, rfl, rfl,
                fun q hq => by simp [Function.update_of_ne hq]⟩
              simp [putInPlace, lstat, chmod, rename, hlstat, hnode, hchmod, hrename]

theorem temporaryMode_ok {path : Text} {previous : Option Text}
    (hread : readText (s.nodes path) = some previous)
    (h : previous ≠ none → fails .lstatMode path = false) :
    ∃ mode, p.temporaryMode fails path previous s = (.ok mode, s) := by
  cases previous with
  | none => exact ⟨p.newMode, by simp [temporaryMode]⟩
  | some previous =>
      obtain ⟨mode, hnode⟩ : ∃ mode, s.nodes path = some (.file previous mode) := by
        unfold readText at hread
        split at hread <;> simp_all
      have hlstat := h (by simp)
      exact ⟨mode, by simp [temporaryMode, lstat, hlstat, hnode]⟩

/-- All of a publication up to where the temporary file is put in place. -/
theorem publishFile_reaches {file : Text × SourceFileEntry} (hchanged : ¬ p.Unchanged file)
    (hdotted : dotted file.1 = false) (hdirectory : fails .makeDirectory file.1 = false)
    (hreadable : fails .readActual file.1 = false)
    (hread : readText (s.nodes file.1) = some (p.existing.get file.1))
    (hmode : p.existing.get file.1 ≠ none → fails .lstatMode file.1 = false)
    (hwrite : fails .write file.1 = false) :
    ∃ mode, p.publishFile fails file.1 file.2 (p.existing.get file.1) s =
      Attempt.follow (fun _ => pure (some file.1))
        (Attempt.finishing (putInPlace fails file.1 (p.existing.get file.1))
          (ignoreMissing (unlinkTemporary fails .unlinkTemporary file.1))
          { s with temporaries :=
              Function.update s.temporaries file.1 (some (p.textOf file, mode)) }) := by
  obtain ⟨mode, hmode⟩ := temporaryMode_ok (p := p) hread hmode
  refine ⟨mode, ?_⟩
  unfold Unchanged at hchanged
  simp [publishFile, hchanged, hdotted, call, hdirectory, orMissing_readFile hread hreadable, hmode,
    writeFile, hwrite]

/-- A publication that ends before that has changed nothing. -/
theorem publishFile_fails {file : Text × SourceFileEntry} (hchanged : ¬ p.Unchanged file)
    (h : ¬(dotted file.1 = false ∧ fails .makeDirectory file.1 = false ∧
      fails .readActual file.1 = false ∧
      readText (s.nodes file.1) = some (p.existing.get file.1) ∧
      (p.existing.get file.1 ≠ none → fails .lstatMode file.1 = false) ∧
      fails .write file.1 = false)) :
    ∃ e, p.publishFile fails file.1 file.2 (p.existing.get file.1) s = (.error e, s) := by
  unfold Unchanged at hchanged
  cases hdotted : dotted file.1 with
  | true => exact ⟨_, by simp only [publishFile, if_neg hchanged, hdotted, if_true]; rfl⟩
  | false =>
  cases hdirectory : fails .makeDirectory file.1 with
  | true => exact ⟨_, by simp [publishFile, hchanged, hdotted, call, hdirectory]; rfl⟩
  | false =>
  by_cases hreadable : fails .readActual file.1 = false ∧ (readText (s.nodes file.1)).isSome
  · obtain ⟨actual, hactual⟩ := Option.isSome_iff_exists.1 hreadable.2
    by_cases hsame : p.existing.get file.1 = actual
    · rw [← hsame] at hactual
      by_cases hmode : p.existing.get file.1 ≠ none → fails .lstatMode file.1 = false
      · obtain ⟨mode, hmode'⟩ := temporaryMode_ok (p := p) hactual hmode
        have hwrite : fails .write file.1 = true := by
          by_contra hwrite
          exact h ⟨hdotted, hdirectory, hreadable.1, hactual, hmode, by simpa using hwrite⟩
        exact ⟨.failed, by
          simp [publishFile, hchanged, hdotted, call, hdirectory,
            orMissing_readFile hactual hreadable.1, hmode', writeFile, hwrite]⟩
      · obtain ⟨hsome, hlstat⟩ := Classical.not_imp.1 hmode
        obtain ⟨previous, hprevious⟩ := Option.ne_none_iff_exists'.1 hsome
        rw [Bool.not_eq_false] at hlstat
        rw [hprevious] at hactual hchanged
        exact ⟨.failed, by
          simp [publishFile, hprevious, hchanged, hdotted, call, hdirectory,
            orMissing_readFile hactual hreadable.1, temporaryMode, lstat, hlstat]⟩
    · exact ⟨_, by
        simp [publishFile, hchanged, hdotted, call, hdirectory,
          orMissing_readFile hactual hreadable.1, hsame]; rfl⟩
  · obtain ⟨e, he⟩ := orMissing_readFile_error hreadable
    exact ⟨e, by simp [publishFile, hchanged, hdotted, call, hdirectory, he]⟩

/-- A temporary file that is left is one whose removal failed. -/
def Tidy (fails : Faults) (s : Progress) : Prop :=
  ∀ path, s.temporaries path ≠ none →
    fails .unlinkTemporary path = true ∨ fails .unlinkMetadata path = true

/-- There are no temporary files, what has been recorded has changed, and nothing else has been
touched. -/
structure Between (nodes : Text → Option Node) (s : Progress) : Prop where
  clean : ∀ path, s.temporaries path = none
  recorded : ∀ path ∈ s.changed, s.contentAt path ≠ readText (nodes path)
  untouched : ∀ path, path ∉ s.changed → s.nodes path = nodes path

namespace Between

theorem start (nodes : Text → Option Node) : Between nodes (Progress.start nodes) :=
  ⟨fun _ => rfl, fun _ h => absurd h List.not_mem_nil, fun _ _ => rfl⟩

theorem exact (hs : Between nodes s) : s.Recorded nodes := by
  intro path
  refine ⟨hs.recorded path, fun h => ?_⟩
  by_contra hmem
  exact h (congrArg readText (hs.untouched path hmem))

theorem tidy (hs : Between nodes s) : Tidy fails s := fun path h => absurd (hs.clean path) h

/-- A change that is recorded. -/
theorem record (hs : Between nodes s) {t : Progress} {path : Text} {node : Option Node}
    (hfresh : path ∉ s.changed) (hnode : readText node ≠ readText (nodes path))
    (hnodes : t.nodes = Function.update s.nodes path node) (hchanged : t.changed = s.changed ++ [path])
    (hclean : ∀ path, t.temporaries path = none) : Between nodes t := by
  constructor
  case clean => exact hclean
  case recorded =>
    intro q hq
    rw [hchanged, List.mem_append, List.mem_singleton] at hq
    unfold Progress.contentAt
    rw [hnodes]
    by_cases hsame : q = path
    · rw [hsame, Function.update_self]
      exact hnode
    · rw [Function.update_of_ne hsame]
      exact hs.recorded q (hq.resolve_right hsame)
  case untouched =>
    intro q hq
    rw [hchanged, List.mem_append, List.mem_singleton, not_or] at hq
    rw [hnodes, Function.update_of_ne hq.2]
    exact hs.untouched q hq.1

/-- A change that is not recorded. -/
theorem not_exact (hs : Between nodes s) {t : Progress} {path : Text} {node : Option Node}
    (hfresh : path ∉ s.changed) (hnode : readText node ≠ readText (nodes path))
    (hnodes : t.nodes = Function.update s.nodes path node) (hchanged : t.changed = s.changed) :
    ¬ t.Recorded nodes := by
  intro h
  have hmem := (h path).2 ?_
  · rw [hchanged] at hmem
    exact hfresh hmem
  · unfold Progress.contentAt
    rw [hnodes, Function.update_self]
    exact hnode

/-- Nothing has changed since. -/
theorem exact_of_same (hs : Between nodes s) {t : Progress} (hnodes : t.nodes = s.nodes)
    (hchanged : t.changed = s.changed) : t.Recorded nodes := by
  intro path
  rw [hchanged, hs.exact path, Progress.contentAt, Progress.contentAt, hnodes]

end Between

theorem placed_congr {file : Text × SourceFileEntry} {nodes' : Text → Option Node}
    (h : nodes' file.1 = nodes file.1) : p.Placed fails nodes' file ↔ p.Placed fails nodes file := by
  rw [Placed, Placed, h]

/-- A text that is published is not the one that was there. -/
theorem readText_placed {file : Text × SourceFileEntry} (mode : ℕ) (hchanged : ¬ p.Unchanged file)
    (h : p.Placed fails nodes file) :
    readText (some (.file (p.textOf file) mode)) ≠ readText (nodes file.1) := by
  obtain ⟨-, -, -, hread, -⟩ := h
  rw [hread]
  exact fun heq => hchanged (Option.some.inj heq).symm

theorem publishFile_placed {file : Text × SourceFileEntry} (hs : Between nodes s)
    (hchanged : ¬ p.Unchanged file) (h : p.Placed fails s.nodes file) :
    ∃ t mode, t.nodes = Function.update s.nodes file.1 (some (.file (p.textOf file) mode)) ∧
      t.changed = s.changed ∧ (∀ path ≠ file.1, t.temporaries path = none) ∧
      p.publishFile fails file.1 file.2 (p.existing.get file.1) s =
        if fails .unlinkTemporary file.1 = true then (.error .failed, t)
        else (.ok (some file.1),
          { t with temporaries := Function.update t.temporaries file.1 none }) := by
  have hplaced := h
  obtain ⟨hdotted, hdirectory, hreadable, hread, hwrite, hcalls⟩ := h
  have hmode : p.existing.get file.1 ≠ none → fails .lstatMode file.1 = false := by
    intro hsome
    rw [if_neg (by simpa using hsome)] at hcalls
    exact hcalls.1
  obtain ⟨mode, hreach⟩ :=
    publishFile_reaches hchanged hdotted hdirectory hreadable hread hmode hwrite
  obtain ⟨t, mode', hput, hnodes, htchanged, htemporaries⟩ :=
    putInPlace_placed (s := { s with
      temporaries := Function.update s.temporaries file.1 (some (p.textOf file, mode)) }) hplaced
      (Function.update_self ..)
  refine ⟨t, mode', hnodes, htchanged, fun path hpath => ?_, ?_⟩
  · exact (htemporaries path hpath).trans ((Function.update_of_ne hpath ..).trans (hs.clean path))
  · rw [hreach]
    cases hunlink : fails .unlinkTemporary file.1 with
    | true =>
        rw [Attempt.finishing_of_error (ignoreMissing_unlinkTemporary_error hunlink), hput]
        rfl
    | false =>
        rw [Attempt.finishing_of_ok (ignoreMissing_unlinkTemporary hunlink), hput]
        rfl

variable (fails) in
theorem publishFile_notPlaced {file : Text × SourceFileEntry} (hs : Between nodes s)
    (hchanged : ¬ p.Unchanged file) (h : ¬ p.Placed fails s.nodes file) :
    ∃ e t, p.publishFile fails file.1 file.2 (p.existing.get file.1) s = (.error e, t) ∧
      t.nodes = s.nodes ∧ t.changed = s.changed ∧ Tidy fails t := by
  by_cases hearly : dotted file.1 = false ∧ fails .makeDirectory file.1 = false ∧
      fails .readActual file.1 = false ∧
      readText (s.nodes file.1) = some (p.existing.get file.1) ∧
      (p.existing.get file.1 ≠ none → fails .lstatMode file.1 = false) ∧
      fails .write file.1 = false
  · obtain ⟨hdotted, hdirectory, hreadable, hread, hmode, hwrite⟩ := hearly
    obtain ⟨mode, hreach⟩ :=
      publishFile_reaches hchanged hdotted hdirectory hreadable hread hmode hwrite
    obtain ⟨e, t, hput, hnodes, htchanged, htemporaries⟩ :=
      putInPlace_error (s := { s with
        temporaries := Function.update s.temporaries file.1 (some (p.textOf file, mode)) }) hread (by
          intro hcalls
          refine h ⟨hdotted, hdirectory, hreadable, hread, hwrite, ?_⟩
          cases hprevious : p.existing.get file.1 with
          | none => simpa [hprevious] using hcalls
          | some previous =>
              have hlstat := hmode (by simp [hprevious])
              simpa [hprevious, hlstat] using hcalls)
    have hother : ∀ path ≠ file.1, t.temporaries path = none := by
      intro path hpath
      exact (htemporaries path hpath).trans ((Function.update_of_ne hpath ..).trans (hs.clean path))
    rw [hreach]
    cases hunlink : fails .unlinkTemporary file.1 with
    | true =>
        refine ⟨.failed, t, ?_, hnodes, htchanged, fun path hpath => ?_⟩
        · rw [Attempt.finishing_of_error (ignoreMissing_unlinkTemporary_error hunlink), hput]
          rfl
        · by_cases hsame : path = file.1
          · rw [hsame]
            exact .inl hunlink
          · exact absurd (hother path hsame) hpath
    | false =>
        refine ⟨e, { t with temporaries := Function.update t.temporaries file.1 none }, ?_, hnodes,
          htchanged, fun path hpath => absurd ?_ hpath⟩
        · rw [Attempt.finishing_of_ok (ignoreMissing_unlinkTemporary hunlink), hput]
          rfl
        · by_cases hsame : path = file.1
          · rw [hsame]
            exact Function.update_self ..
          · exact (Function.update_of_ne hsame ..).trans (hother path hsame)
  · obtain ⟨e, he⟩ := publishFile_fails hchanged hearly
    exact ⟨e, s, he, rfl, rfl, hs.tidy⟩

/-! ### The loops -/

/-- The file is put in place, and then its temporary file is not removed. -/
def Interrupted (p : SourceFiles) (fails : Faults) (nodes : Text → Option Node)
    (file : Text × SourceFileEntry) : Prop :=
  ¬ p.Unchanged file ∧ p.Placed fails nodes file ∧ fails .unlinkTemporary file.1 = true

/-- The loop goes on after the file. -/
def Passes (p : SourceFiles) (fails : Faults) (nodes : Text → Option Node)
    (file : Text × SourceFileEntry) : Prop :=
  p.Unchanged file ∨ p.Placed fails nodes file ∧ fails .unlinkTemporary file.1 = false

/-- No file that the loop comes to is interrupted, and neither is what follows the loop. -/
def Uninterrupted (p : SourceFiles) (fails : Faults) (nodes : Text → Option Node) :
    List (Text × SourceFileEntry) → Prop → Prop
  | [], next => next
  | file :: files, next => ¬ p.Interrupted fails nodes file ∧
      (p.Passes fails nodes file → p.Uninterrupted fails nodes files next)

/-- The removal of a file that is no longer rendered succeeds. -/
def Removes (p : SourceFiles) (fails : Faults) (nodes : Text → Option Node)
    (file : Text × Text) : Prop :=
  p.obsolete file.1 file.2 = true → fails .readObsolete file.1 = false ∧
    readText (nodes file.1) = some (some file.2) ∧ fails .unlinkObsolete file.1 = false

/-- How a publication ends: what it has recorded is what has changed under the condition, and a
temporary file is left only where its removal failed. -/
def Ends (fails : Faults) (nodes : Text → Option Node) (condition : Prop) (t : Progress) : Prop :=
  (t.Recorded nodes ↔ condition) ∧ Tidy fails t

variable (fails) in
theorem publishEntry_cases (file : Text × SourceFileEntry) (hs : Between nodes s)
    (hfresh : file.1 ∉ s.changed) :
    (p.Passes fails nodes file ∧ ¬ p.Interrupted fails nodes file ∧
        ∃ t, p.publishEntry fails file s = (.ok (), t) ∧ Between nodes t ∧
          ∀ path ∈ t.changed, path ∈ s.changed ∨ path = file.1) ∨
      ¬ p.Passes fails nodes file ∧
        ∃ e t, p.publishEntry fails file s = (.error e, t) ∧
          Ends fails nodes (¬ p.Interrupted fails nodes file) t := by
  have hnode : s.nodes file.1 = nodes file.1 := hs.untouched file.1 hfresh
  by_cases hchanged : p.Unchanged file
  · refine .inl ⟨.inl hchanged, fun h => h.1 hchanged, s, ?_, hs, fun _ h => .inl h⟩
    unfold publishEntry
    rw [Attempt.bind_apply, publishFile_unchanged hchanged]
    rfl
  by_cases hplaced : p.Placed fails nodes file
  · obtain ⟨t, mode, hnodes, htchanged, hother, hpublish⟩ :=
      publishFile_placed hs hchanged ((placed_congr hnode).2 hplaced)
    have hdiffers := readText_placed mode hchanged hplaced
    cases hunlink : fails .unlinkTemporary file.1 with
    | true =>
        refine .inr ⟨?_, .failed, t, ?_, ?_, fun path hpath => ?_⟩
        · rintro (h | ⟨-, h⟩)
          · exact hchanged h
          · rw [hunlink] at h
            cases h
        · unfold publishEntry
          rw [Attempt.bind_apply, hpublish, if_pos hunlink]
          rfl
        · refine iff_of_false (hs.not_exact hfresh hdiffers hnodes htchanged) ?_
          exact fun h => h ⟨hchanged, hplaced, hunlink⟩
        · by_cases hsame : path = file.1
          · rw [hsame]
            exact .inl hunlink
          · exact absurd (hother path hsame) hpath
    | false =>
        refine .inl ⟨.inr ⟨hplaced, hunlink⟩, fun h => ?_, { t with
          temporaries := Function.update t.temporaries file.1 none
          changed := t.changed ++ [file.1] }, ?_, ?_, fun path hpath => ?_⟩
        · rw [Interrupted, hunlink] at h
          cases h.2.2
        · unfold publishEntry
          rw [Attempt.bind_apply, hpublish, hunlink]
          rfl
        · refine hs.record hfresh hdiffers hnodes (congrArg (· ++ [file.1]) htchanged)
            fun path => ?_
          by_cases hsame : path = file.1
          · rw [hsame]
            exact Function.update_self ..
          · exact (Function.update_of_ne hsame ..).trans (hother path hsame)
        · rw [htchanged] at hpath
          simpa using hpath
  · obtain ⟨e, t, hpublish, hnodes, htchanged, htidy⟩ := publishFile_notPlaced fails hs
      hchanged (fun h => hplaced ((placed_congr hnode).1 h))
    refine .inr ⟨?_, e, t, ?_, ?_, htidy⟩
    · rintro (h | ⟨h, -⟩)
      · exact hchanged h
      · exact hplaced h
    · unfold publishEntry
      rw [Attempt.bind_apply, hpublish]
      rfl
    · exact iff_of_true (hs.exact_of_same hnodes htchanged) fun h => hplaced h.2.1

theorem ends_publishEntries {rest : Files Unit} {condition : Prop}
    (files : List (Text × SourceFileEntry)) (hnodup : (files.map Prod.fst).Nodup)
    (hs : Between nodes s) (hfresh : ∀ file ∈ files, file.1 ∉ s.changed)
    (hrest : ∀ t, Between nodes t →
      (∀ path ∈ t.changed, path ∈ s.changed ∨ path ∈ files.map Prod.fst) →
        Ends fails nodes condition (rest t).2) :
    Ends fails nodes (p.Uninterrupted fails nodes files condition)
      ((Attempt.forEach (p.publishEntry fails) files >>= fun _ => rest) s).2 := by
  induction files generalizing s with
  | nil => exact hrest s hs fun _ h => .inl h
  | cons file files ih =>
      rw [List.map_cons, List.nodup_cons] at hnodup
      rw [Attempt.bind_apply, Attempt.forEach_cons]
      rcases publishEntry_cases (p := p) fails file hs (hfresh file List.mem_cons_self)
        with ⟨hpasses, hnot, t, hpublish, ht, hchanged⟩ | ⟨hnot, e, t, hpublish, hends⟩
      · rw [hpublish, Attempt.follow_ok]
        have hends := ih (s := t) hnodup.2 ht ?_ ?_
        · refine ⟨hends.1.trans ?_, hends.2⟩
          rw [Uninterrupted]
          exact ⟨fun h => ⟨hnot, fun _ => h⟩, fun h => h.2 hpasses⟩
        · intro file' hfile' hmem
          rcases hchanged _ hmem with hold | hsame
          · exact hfresh file' (List.mem_cons_of_mem file hfile') hold
          · exact hnodup.1 (hsame ▸ List.mem_map_of_mem hfile')
        · intro u hu huchanged
          refine hrest u hu fun path hpath => ?_
          rw [List.map_cons, List.mem_cons]
          rcases huchanged path hpath with hold | hnew
          · rcases hchanged path hold with hold | hsame
            · exact .inl hold
            · exact .inr (.inl hsame)
          · exact .inr (.inr hnew)
      · rw [hpublish, Attempt.follow_error, Attempt.follow_error]
        refine ⟨hends.1.trans ?_, hends.2⟩
        rw [Uninterrupted]
        exact ⟨fun h => ⟨h, fun hpasses => absurd hpasses hnot⟩, fun h => h.1⟩

variable (fails) in
theorem removeFile_cases (file : Text × Text) (hs : Between nodes s)
    (hfresh : p.obsolete file.1 file.2 = true → file.1 ∉ s.changed) :
    (p.Removes fails nodes file ∧ ∃ t, p.removeFile fails file s = (.ok (), t) ∧ Between nodes t ∧
        ∀ path ∈ t.changed, path ∈ s.changed ∨ path = file.1 ∧ p.obsolete file.1 file.2 = true) ∨
      ¬ p.Removes fails nodes file ∧ ∃ e, p.removeFile fails file s = (.error e, s) := by
  unfold removeFile Removes
  cases hobsolete : p.obsolete file.1 file.2 with
  | false =>
      refine .inl ⟨fun h => (by cases h), s, ?_, hs, fun _ h => .inl h⟩
      simp
  | true =>
      have hnode : s.nodes file.1 = nodes file.1 := hs.untouched file.1 (hfresh hobsolete)
      rw [if_pos rfl, Attempt.bind_apply]
      cases hread : fails .readObsolete file.1 with
      | true =>
          refine .inr ⟨fun h => (by cases (h rfl).1), .failed, ?_⟩
          simp [readFile, hread]
      | false =>
          rcases hfile : nodes file.1 with _ | ⟨text, mode⟩ | _
          · refine .inr ⟨fun h => ?_, .missing, ?_⟩
            · have hnone := (h rfl).2.1
              simp [readText] at hnone
            · simp [readFile, hread, hnode, hfile]
          · by_cases hsame : text = file.2
            · cases hunlink : fails .unlinkObsolete file.1 with
              | true =>
                  refine .inr ⟨fun h => (by cases (h rfl).2.2), .failed, ?_⟩
                  simp [readFile, hread, hnode, hfile, hsame, unlink, hunlink]
              | false =>
                  refine .inl ⟨fun _ => ⟨rfl, by simp [readText, hsame], rfl⟩, { s with
                    nodes := Function.update s.nodes file.1 none
                    changed := s.changed ++ [file.1] }, ?_, ?_, ?_⟩
                  · simp [readFile, hread, hnode, hfile, hsame, unlink, hunlink, Files.record]
                  · refine hs.record (hfresh hobsolete) ?_ rfl rfl hs.clean
                    simp [readText, hfile]
                  · intro path hpath
                    simpa using hpath
            · refine .inr ⟨fun h => ?_, .generation (.changedDuringCleanup file.1), ?_⟩
              · have hsome := (h rfl).2.1
                simp only [readText, Option.some.injEq] at hsome
                exact hsame hsome
              · simp [readFile, hread, hnode, hfile, hsame]
          · refine .inr ⟨fun h => ?_, .failed, ?_⟩
            · have hother := (h rfl).2.1
              simp [readText] at hother
            · simp [readFile, hread, hnode, hfile]

theorem ends_removeFiles {rest : Files Unit} {condition : Prop} (files : List (Text × Text))
    (hnodup : (files.map Prod.fst).Nodup) (hs : Between nodes s)
    (hfresh : ∀ file ∈ files, p.obsolete file.1 file.2 = true → file.1 ∉ s.changed)
    (hrest : ∀ t, Between nodes t →
      (∀ path ∈ t.changed, path ∈ s.changed ∨
        ∃ file ∈ files, path = file.1 ∧ p.obsolete file.1 file.2 = true) →
          Ends fails nodes condition (rest t).2) :
    Ends fails nodes ((∀ file ∈ files, p.Removes fails nodes file) → condition)
      ((Attempt.forEach (p.removeFile fails) files >>= fun _ => rest) s).2 := by
  induction files generalizing s with
  | nil =>
      have hends := hrest s hs fun _ h => .inl h
      exact ⟨hends.1.trans ⟨fun h _ => h, fun h => h (by simp)⟩, hends.2⟩
  | cons file files ih =>
      rw [List.map_cons, List.nodup_cons] at hnodup
      rw [Attempt.bind_apply, Attempt.forEach_cons]
      rcases removeFile_cases (p := p) fails file hs (hfresh file List.mem_cons_self)
        with ⟨hremoves, t, hremove, ht, hchanged⟩ | ⟨hnot, e, hremove⟩
      · rw [hremove, Attempt.follow_ok]
        have hends := ih (s := t) hnodup.2 ht ?_ ?_
        · refine ⟨hends.1.trans ?_, hends.2⟩
          simp [hremoves]
        · intro file' hfile' hobsolete hmem
          rcases hchanged _ hmem with hold | ⟨hsame, -⟩
          · exact hfresh file' (List.mem_cons_of_mem file hfile') hobsolete hold
          · exact hnodup.1 (hsame ▸ List.mem_map_of_mem hfile')
        · intro u hu huchanged
          refine hrest u hu fun path hpath => ?_
          rcases huchanged path hpath with hold | ⟨file', hfile', hnew⟩
          · rcases hchanged path hold with hold | hnew
            · exact .inl hold
            · exact .inr ⟨file, List.mem_cons_self, hnew⟩
          · exact .inr ⟨file', List.mem_cons_of_mem file hfile', hnew⟩
      · rw [hremove, Attempt.follow_error, Attempt.follow_error]
        refine ⟨iff_of_true hs.exact fun h => ?_, hs.tidy⟩
        exact absurd (h file List.mem_cons_self) hnot

/-! ### The metadata module -/

/-- The metadata module may be replaced. -/
def MetadataAccepted (p : SourceFiles) (fails : Faults) (nodes : Text → Option Node)
    (path : Text) : Prop :=
  fails .metadataDirectory path = false ∧ p.metadataParent = true ∧
    fails .lstatMetadata path = false ∧ fails .preflightMetadata path = false ∧
    ∃ previous, readText (nodes path) = some previous ∧
      ∀ text, previous = some text → metadataOwned p.host text = true

/-- No call up to the rename of a changed metadata module fails. -/
def MetadataPlaced (p : SourceFiles) (fails : Faults) (nodes : Text → Option Node)
    (path : Text) : Prop :=
  p.MetadataAccepted fails nodes path ∧ readText (nodes path) ≠ some (some p.stamped) ∧
    fails .readMetadata path = false ∧ fails .writeMetadata path = false ∧
    fails .readMetadataAgain path = false ∧ fails .renameMetadata path = false

/-- The temporary file of a metadata module that is put in place is removed. -/
def MetadataRemoved (p : SourceFiles) (fails : Faults) (nodes : Text → Option Node) : Prop :=
  ∀ path, p.metadataPath = some path → path ≠ [] → p.metadata ≠ [] →
    p.MetadataPlaced fails nodes path → fails .unlinkMetadata path = false

theorem preflight_cases (p : SourceFiles) (fails : Faults) (path : Text) (s : Progress) :
    (p.MetadataAccepted fails s.nodes path ∧
        p.preflightGeneratedMetadata fails path s = (.ok (), s)) ∨
      ¬ p.MetadataAccepted fails s.nodes path ∧
        ∃ e, p.preflightGeneratedMetadata fails path s = (.error e, s) := by
  unfold preflightGeneratedMetadata MetadataAccepted
  cases hdirectory : fails .metadataDirectory path with
  | true => exact .inr ⟨fun h => (by cases h.1), .failed, by simp [call, hdirectory]⟩
  | false =>
  cases hparent : p.metadataParent with
  | false =>
      exact .inr ⟨fun h => (by cases h.2.1), .noMetadataDirectory, by simp [call, hdirectory]⟩
  | true =>
  cases hlstat : fails .lstatMetadata path with
  | true =>
      refine .inr ⟨fun h => (by cases h.2.2.1), .failed, ?_⟩
      simp [call, hdirectory, orMissing, lstat, Attempt.catching, hlstat]
  | false =>
  rcases hnode : s.nodes path with _ | ⟨text, mode⟩ | _
  · cases hread : fails .preflightMetadata path with
    | true =>
        refine .inr ⟨fun h => (by cases h.2.2.2.1), .failed, ?_⟩
        simp [call, hdirectory, orMissing, lstat, readFile, Attempt.catching, hlstat, hnode, hread]
    | false =>
        refine .inl ⟨⟨rfl, rfl, rfl, rfl, none, rfl, by simp⟩, ?_⟩
        simp [call, hdirectory, orMissing, lstat, readFile, Attempt.catching, hlstat, hnode, hread]
  · cases hread : fails .preflightMetadata path with
    | true =>
        refine .inr ⟨fun h => (by cases h.2.2.2.1), .failed, ?_⟩
        simp [call, hdirectory, orMissing, lstat, readFile, Attempt.catching, hlstat, hnode, hread]
    | false =>
        cases howned : metadataOwned p.host text with
        | true =>
            refine .inl ⟨⟨rfl, rfl, rfl, rfl, some text, rfl, by simp [howned]⟩, ?_⟩
            simp [call, hdirectory, orMissing, lstat, readFile, Attempt.catching, hlstat, hnode,
              hread, howned]
        | false =>
            refine .inr ⟨?_, .generation (.handwrittenMetadata path), ?_⟩
            · rintro ⟨-, -, -, -, previous, hprevious, hall⟩
              obtain rfl := Option.some.inj hprevious
              rw [hall text rfl] at howned
              cases howned
            · simp [call, hdirectory, orMissing, lstat, readFile, Attempt.catching, hlstat, hnode,
                hread, howned]
  · refine .inr ⟨?_, .invalidMetadata, ?_⟩
    · rintro ⟨-, -, -, -, previous, hprevious, -⟩
      cases hprevious
    · simp [call, hdirectory, orMissing, lstat, Attempt.catching, hlstat, hnode]

theorem replaceMetadata_ok {path text : Text} {previous : Option Text} {mode : ℕ}
    (hread : readText (s.nodes path) = some previous)
    (htemporary : s.temporaries path = some (text, mode))
    (hagain : fails .readMetadataAgain path = false) (hrename : fails .renameMetadata path = false) :
    replaceMetadata fails path previous s = (.ok (), { s with
      nodes := Function.update s.nodes path (some (.file text mode))
      temporaries := Function.update s.temporaries path none }) := by
  unfold replaceMetadata
  rw [Attempt.bind_apply, orMissing_readFile hread hagain]
  simp [rename, hrename, htemporary]

theorem replaceMetadata_error {path : Text} {previous : Option Text}
    (hread : readText (s.nodes path) = some previous)
    (h : ¬(fails .readMetadataAgain path = false ∧ fails .renameMetadata path = false)) :
    ∃ e, replaceMetadata fails path previous s = (.error e, s) := by
  unfold replaceMetadata
  rw [Attempt.bind_apply]
  cases hagain : fails .readMetadataAgain path with
  | true =>
      obtain ⟨e, he⟩ : ∃ e, orMissing (readFile fails .readMetadataAgain path) s = (.error e, s) :=
        orMissing_readFile_error fun h => (by cases hagain.symm.trans h.1)
      exact ⟨e, by rw [he, Attempt.follow_error]⟩
  | false =>
      have hrename : fails .renameMetadata path = true := by simpa [hagain] using h
      rw [orMissing_readFile hread hagain]
      exact ⟨.failed, by simp [rename, hrename]⟩

variable (fails) in
/-- What the publication of the metadata module does: nothing, a change that is recorded, or one
that is not because the removal of the temporary file has failed. -/
theorem ends_publishGeneratedMetadata {path : Text} (hs : Between nodes s)
    (hfresh : path ∉ s.changed) :
    Ends fails nodes (p.MetadataPlaced fails nodes path → fails .unlinkMetadata path = false)
      ((p.publishGeneratedMetadata fails path >>= fun published =>
        if published = true then Files.record path else pure ()) s).2 := by
  have hnode : s.nodes path = nodes path := hs.untouched path hfresh
  have haccepted : p.MetadataAccepted fails s.nodes path ↔ p.MetadataAccepted fails nodes path := by
    rw [MetadataAccepted, MetadataAccepted, hnode]
  have hnothing : ¬ p.MetadataPlaced fails nodes path →
      Ends fails nodes (p.MetadataPlaced fails nodes path → fails .unlinkMetadata path = false) s :=
    fun hnot => ⟨iff_of_true hs.exact fun h => absurd h hnot, hs.tidy⟩
  unfold publishGeneratedMetadata
  rw [Attempt.bind_apply, Attempt.bind_apply]
  rcases preflight_cases p fails path s with ⟨haccept, hpreflight⟩ | ⟨haccept, e, hpreflight⟩
  swap
  · rw [hpreflight, Attempt.follow_error, Attempt.follow_error]
    exact hnothing fun h => haccept (haccepted.2 h.1)
  rw [hpreflight, Attempt.follow_ok, Attempt.bind_apply]
  obtain ⟨previous, hprevious, -⟩ := haccept.2.2.2.2
  cases hread : fails .readMetadata path with
  | true =>
      obtain ⟨e, he⟩ : ∃ e, orMissing (readFile fails .readMetadata path) s = (.error e, s) :=
        orMissing_readFile_error fun h => (by cases hread.symm.trans h.1)
      rw [he, Attempt.follow_error, Attempt.follow_error]
      exact hnothing fun h => (by cases hread.symm.trans h.2.2.1)
  | false =>
  rw [orMissing_readFile hprevious hread, Attempt.follow_ok]
  rw [hnode] at hprevious
  by_cases hsame : previous = some p.stamped
  · rw [if_pos hsame]
    refine hnothing fun h => h.2.1 ?_
    rw [hprevious, hsame]
  rw [if_neg hsame, Attempt.bind_apply]
  cases hwrite : fails .writeMetadata path with
  | true =>
      have hfail : writeFile fails .writeMetadata path p.stamped p.newMode s = (.error .failed, s) := by
        simp [writeFile, hwrite]
      rw [hfail, Attempt.follow_error, Attempt.follow_error]
      exact hnothing fun h => (by cases hwrite.symm.trans h.2.2.2.1)
  | false =>
  set written : Progress := { s with
    temporaries := Function.update s.temporaries path (some (p.stamped, p.newMode)) } with hwritten
  have hok : writeFile fails .writeMetadata path p.stamped p.newMode s = (.ok (), written) := by
    simp [writeFile, hwrite, hwritten]
  rw [hok, Attempt.follow_ok, Attempt.bind_apply]
  have hother : ∀ q ≠ path, written.temporaries q = none := fun q hq =>
    (Function.update_of_ne hq ..).trans (hs.clean q)
  have htidy : ∀ t : Progress, (∀ q ≠ path, t.temporaries q = none) →
      fails .unlinkMetadata path = true → Tidy fails t := by
    intro t ht hunlink q hq
    by_cases hsame : q = path
    · rw [hsame]
      exact .inr hunlink
    · exact absurd (ht q hsame) hq
  by_cases hcalls : fails .readMetadataAgain path = false ∧ fails .renameMetadata path = false
  · have hplaced : p.MetadataPlaced fails nodes path :=
      ⟨haccepted.1 haccept, by rw [hprevious]; exact fun h => hsame (Option.some.inj h), hread, hwrite,
        hcalls⟩
    have hreplace := replaceMetadata_ok (s := written) (by rw [← hnode] at hprevious; exact hprevious)
      (Function.update_self ..) hcalls.1 hcalls.2
    have hdiffers : readText (some (.file p.stamped p.newMode)) ≠ readText (nodes path) := by
      rw [hprevious]
      exact fun h => hsame (Option.some.inj h).symm
    cases hunlink : fails .unlinkMetadata path with
    | true =>
        rw [Attempt.finishing_of_error (ignoreMissing_unlinkTemporary_error hunlink), hreplace,
          Attempt.follow_error, Attempt.follow_error]
        refine ⟨iff_of_false (hs.not_exact hfresh hdiffers rfl rfl) fun h => ?_, htidy _ ?_ hunlink⟩
        · cases h hplaced
        · intro q hq
          exact (Function.update_of_ne hq ..).trans (hother q hq)
    | false =>
        rw [Attempt.finishing_of_ok (ignoreMissing_unlinkTemporary hunlink), hreplace,
          Attempt.follow_ok, Attempt.pure_apply, Attempt.follow_ok, if_pos rfl]
        have hbetween : Between nodes { s with
            nodes := Function.update s.nodes path (some (.file p.stamped p.newMode))
            temporaries := Function.update (Function.update written.temporaries path none) path none
            changed := s.changed ++ [path] } := by
          refine hs.record hfresh hdiffers rfl rfl fun q => ?_
          by_cases hq : q = path
          · rw [hq]
            exact Function.update_self ..
          · exact (Function.update_of_ne hq ..).trans ((Function.update_of_ne hq ..).trans (hother q hq))
        exact ⟨iff_of_true hbetween.exact fun _ => rfl, hbetween.tidy⟩
  · have hnot : ¬ p.MetadataPlaced fails nodes path := fun h => hcalls h.2.2.2.2
    obtain ⟨e, he⟩ := replaceMetadata_error (s := written)
      (by rw [← hnode] at hprevious; exact hprevious) hcalls
    cases hunlink : fails .unlinkMetadata path with
    | true =>
        rw [Attempt.finishing_of_error (ignoreMissing_unlinkTemporary_error hunlink), he,
          Attempt.follow_error, Attempt.follow_error]
        exact ⟨iff_of_true (hs.exact_of_same rfl rfl) fun h => absurd h hnot, htidy _ hother hunlink⟩
    | false =>
        rw [Attempt.finishing_of_ok (ignoreMissing_unlinkTemporary hunlink), he, Attempt.follow_error,
          Attempt.follow_error]
        refine ⟨iff_of_true (hs.exact_of_same rfl rfl) fun h => absurd h hnot, fun q hq => ?_⟩
        by_cases hsame : q = path
        · rw [hsame] at hq
          exact absurd (Function.update_self ..) hq
        · exact absurd ((Function.update_of_ne hsame ..).trans (hother q hsame)) hq

theorem ends_publishMetadata (hs : Between nodes s)
    (hfresh : ∀ path, p.metadataPath = some path → path ∉ s.changed) :
    Ends fails nodes (p.MetadataRemoved fails nodes) (p.publishMetadata fails s).2 := by
  unfold publishMetadata MetadataRemoved
  cases hpath : p.metadataPath with
  | none =>
      refine ⟨iff_of_true hs.exact ?_, hs.tidy⟩
      intro path h
      cases h
  | some path =>
      by_cases hempty : path = [] ∨ p.metadata = []
      · dsimp only
        rw [if_pos hempty]
        refine ⟨iff_of_true hs.exact ?_, hs.tidy⟩
        intro path' h hne hmetadata
        cases h
        exact absurd hempty (not_or.2 ⟨hne, hmetadata⟩)
      · dsimp only
        rw [if_neg hempty]
        have hends := ends_publishGeneratedMetadata (p := p) fails hs (hfresh path hpath)
        rw [not_or] at hempty
        refine ⟨hends.1.trans ⟨fun h path' hsame _ _ => ?_, fun h => h path rfl hempty.1 hempty.2⟩,
          hends.2⟩
        cases hsame
        exact h

/-! ### What is reported -/

/-- The first call that fails, if any, is not the removal of the temporary file of a text that has
just been put in its place. -/
def RemovesTemporaries (p : SourceFiles) (fails : Faults) (nodes : Text → Option Node) : Prop :=
  p.Uninterrupted fails nodes p.files.entries
    ((∀ file ∈ p.existing.entries, p.Removes fails nodes file) → p.MetadataRemoved fails nodes)

theorem ends_publishAll (p : SourceFiles) (fails : Faults) (nodes : Text → Option Node) :
    Ends fails nodes (p.RemovesTemporaries fails nodes)
      (p.publishAll fails (.start nodes)).2 := by
  refine ends_publishEntries p.files.entries p.files.nodup_keys (Between.start nodes)
    (fun _ _ => List.not_mem_nil) fun t ht hchanged => ?_
  have hrendered : ∀ path ∈ t.changed, path ∈ p.files.keys := fun path hpath =>
    (hchanged path hpath).resolve_left List.not_mem_nil
  refine ends_removeFiles p.existing.entries p.existing.nodup_keys ht ?_ fun u hu huchanged => ?_
  · intro file _ hobsolete hmem
    obtain ⟨entry, hentry⟩ := InsertionMap.mem_keys_iff.1 (hrendered _ hmem)
    simp [obsolete, hentry] at hobsolete
  · refine ends_publishMetadata hu fun path hpath hmem => ?_
    obtain ⟨hnot, howned⟩ := p.apart path hpath
    rcases huchanged path hmem with hold | ⟨file, hfile, rfl, hobsolete⟩
    · exact hnot (hrendered path hold)
    · have hget := howned file.2 (InsertionMap.get_eq_some_iff.2 hfile)
      simp [obsolete, hget] at hobsolete

/-- Whatever happens, the report is right and only a temporary file whose removal failed is left. -/
def Exact (p : SourceFiles) (fails : Faults) (nodes : Text → Option Node) : Prop :=
  let (report, t) := p.publishSourceFiles fails (.start nodes)
  report.Exact nodes t ∧ Tidy fails t

theorem exact_iff (p : SourceFiles) (fails : Faults) (nodes : Text → Option Node) :
    p.Exact fails nodes ↔ p.RemovesTemporaries fails nodes := by
  obtain ⟨hends, htidy⟩ := ends_publishAll p fails nodes
  unfold Exact publishSourceFiles
  rcases h : p.publishAll fails (.start nodes) with ⟨_ | _, t⟩
  · rw [h] at hends htidy
    by_cases hnone : t.changed = []
    · rw [← hends]
      simp only [hnone, if_true, Report.Exact, htidy, and_true, Progress.Recorded,
        List.not_mem_nil, false_iff, not_not]
    · rw [← hends]
      simp only [hnone, if_false, Report.Exact, htidy, and_true, Progress.Recorded]
  · rw [h] at hends htidy
    rw [← hends]
    simp only [Report.Exact, htidy, and_true, Progress.Recorded]

end SourceFiles

/-! ### Clients -/

namespace ClientFiles

open Files

variable {p : ClientFiles} {fails : Faults} {nodes : Text → Option Node} {s : Progress}

/-- An item is planned for a file whose text is not the rendered one. -/
structure Planned (nodes : Text → Option Node) (item : ClientItem) : Prop where
  read : readText (nodes item.path) = some item.prior
  differs : item.prior ≠ some item.content

theorem inspect_spec (p : ClientFiles) (fails : Faults) (file content : Text) (s : Progress) :
    (∃ e, p.inspect fails file content s = (.error e, s)) ∨
      ∃ item, p.inspect fails file content s = (.ok item, s) ∧
        ∀ i, item = some i → i.path = file ∧ Planned s.nodes i := by
  unfold inspect
  split
  · exact .inl ⟨_, rfl⟩
  cases hlstat : fails .lstatClient file with
  | true => exact .inl ⟨.failed, by simp [Attempt.catching, lstat, hlstat]⟩
  | false =>
  rcases hnode : s.nodes file with _ | ⟨text, mode⟩ | _
  · refine .inr ⟨some ⟨file, content, none, p.newMode⟩, ?_, ?_⟩
    · simp [Attempt.catching, lstat, hlstat, hnode]
    · rintro i ⟨⟩
      exact ⟨rfl, by simp [readText, hnode], by simp⟩
  · cases hread : fails .readClient file with
    | true => exact .inl ⟨.failed, by simp [Attempt.catching, lstat, readFile, hlstat, hnode, hread]⟩
    | false =>
        cases hheader : List.isPrefixOf clientHeader text with
        | false =>
            exact .inl ⟨.client (.handwritten file), by
              simp [Attempt.catching, lstat, readFile, hlstat, hnode, hread, hheader]⟩
        | true =>
            by_cases hsame : text = content
            · subst hsame
              refine .inr ⟨none, ?_, by simp⟩
              simp [Attempt.catching, lstat, readFile, hlstat, hnode, hread, hheader]
            · refine .inr ⟨some ⟨file, content, some text, mode⟩, ?_, ?_⟩
              · simp [Attempt.catching, lstat, readFile, hlstat, hnode, hread, hheader, hsame]
              · rintro i ⟨⟩
                exact ⟨rfl, by simp [readText, hnode], by simpa using hsame⟩
  · exact .inl ⟨.client (.notRegular file), by simp [Attempt.catching, lstat, hlstat, hnode]⟩

variable (fails) in
theorem inspectAll_spec (files : List (Text × Text)) (s : Progress) :
    (∃ e, p.inspectAll fails files s = (.error e, s)) ∨
      ∃ items, p.inspectAll fails files s = (.ok items, s) ∧
        (items.map ClientItem.path).Sublist (files.map Prod.fst) ∧
          ∀ item ∈ items, Planned s.nodes item := by
  induction files with
  | nil => exact .inr ⟨[], rfl, List.Sublist.slnil, by simp⟩
  | cons file files ih =>
      obtain ⟨file, content⟩ := file
      unfold inspectAll
      rw [Attempt.bind_apply]
      rcases inspect_spec p fails file content s with ⟨e, he⟩ | ⟨item, hitem, hplanned⟩
      · exact .inl ⟨e, by rw [he, Attempt.follow_error]⟩
      rw [hitem, Attempt.follow_ok, Attempt.bind_apply]
      rcases ih with ⟨e, he⟩ | ⟨items, hitems, hsublist, hall⟩
      · exact .inl ⟨e, by rw [he, Attempt.follow_error]⟩
      refine .inr ⟨item.toList ++ items, by rw [hitems]; rfl, ?_, ?_⟩
      · cases item with
        | none => exact hsublist.cons file
        | some i =>
            obtain ⟨hpath, -⟩ := hplanned i rfl
            rw [Option.toList_some, List.singleton_append, List.map_cons, List.map_cons, hpath]
            exact hsublist.cons_cons file
      · intro i hi
        rcases List.mem_append.1 hi with hi | hi
        · exact (hplanned i (Option.mem_toList.1 hi)).2
        · exact hall i hi

theorem plan_spec (p : ClientFiles) (fails : Faults) (s : Progress) :
    (∃ e, p.plan fails s = (.error e, s)) ∨
      ∃ items, p.plan fails s = (.ok items, s) ∧ (items.map ClientItem.path).Nodup ∧
        ∀ item ∈ items, Planned s.nodes item := by
  unfold plan
  cases habsolute : p.absolute with
  | false => exact .inl ⟨.client .relativeRoot, by simp⟩
  | true =>
  cases hlstat : fails .lstatRoot [] with
  | true => exact .inl ⟨.failed, by simp [call, hlstat]⟩
  | false =>
  by_cases hdirectory : (!p.isDirectory || p.isSymbolicLink) = true
  · exact .inl ⟨.client .noDirectory, by simp [call, hlstat, hdirectory]⟩
  cases hrealpath : fails .realpathRoot [] with
  | true => exact .inl ⟨.failed, by simp [call, hlstat, hdirectory, hrealpath]⟩
  | false =>
  cases hreal : p.real with
  | false =>
      exact .inl ⟨.client .noDirectory, by simp [call, hlstat, hdirectory, hrealpath]⟩
  | true =>
      rcases inspectAll_spec (p := p) fails p.files.entries s with
        ⟨e, he⟩ | ⟨items, hitems, hsublist, hall⟩
      · exact .inl ⟨e, by simpa [call, hlstat, hdirectory, hrealpath] using he⟩
      · refine .inr ⟨items, ?_, hsublist.nodup p.files.nodup_keys, hall⟩
        simpa [call, hlstat, hdirectory, hrealpath] using hitems

/-- There is a temporary file only where one is pending. -/
def Pending (s : Progress) : Prop := ∀ path, s.temporaries path ≠ none → path ∈ s.pending

/-- While the temporary files are written nothing else happens. -/
structure Preparing (nodes : Text → Option Node) (done : List ClientItem) (s : Progress) : Prop where
  nodes : s.nodes = nodes
  changed : s.changed = []
  pending : s.pending = done.map ClientItem.path
  left : ∀ path, s.temporaries path ≠ none → path ∈ s.pending
  written : ∀ item ∈ done, ∃ mode, s.temporaries item.path = some (item.content, mode)

variable (fails) in
theorem prepare_spec {done : List ClientItem} {item : ClientItem} (hs : Preparing nodes done s)
    (hfresh : item.path ∉ done.map ClientItem.path) :
    (∃ t, prepare fails item s = (.ok (), t) ∧ Preparing nodes (done ++ [item]) t) ∨
      ∃ e t, prepare fails item s = (.error e, t) ∧ t.nodes = nodes ∧ t.changed = [] ∧
        Pending t := by
  have hother : ∀ other ∈ done, other.path ≠ item.path := fun other hmem heq =>
    hfresh (heq ▸ List.mem_map_of_mem hmem)
  cases hwrite : fails .writeClient item.path with
  | true => exact .inr ⟨.failed, s, by simp [prepare, writeFile, hwrite], hs.nodes, hs.changed, hs.left⟩
  | false =>
  have hleft : ∀ (mode : ℕ) path, Function.update s.temporaries item.path
      (some (item.content, mode)) path ≠ none → path ∈ s.pending ++ [item.path] := by
    intro mode path hpath
    by_cases hsame : path = item.path
    · rw [hsame]
      exact List.mem_concat_self
    · rw [Function.update_of_ne hsame] at hpath
      exact List.mem_append_left _ (hs.left path hpath)
  cases hchmod : fails .chmodClient item.path with
  | true =>
      refine .inr ⟨.failed, { s with
        temporaries := Function.update s.temporaries item.path (some (item.content, 0o600))
        pending := s.pending ++ [item.path] }, ?_, hs.nodes, hs.changed, hleft 0o600⟩
      simp [prepare, writeFile, chmod, hwrite, hchmod]
  | false =>
      refine .inl ⟨{ s with
        temporaries := Function.update s.temporaries item.path (some (item.content, item.mode))
        pending := s.pending ++ [item.path] }, ?_, hs.nodes, hs.changed, ?_,
        hleft item.mode, ?_⟩
      · simp [prepare, writeFile, chmod, hwrite, hchmod]
      · change s.pending ++ [item.path] = _
        rw [hs.pending, List.map_append]
        rfl
      · intro other hmem
        rcases List.mem_append.1 hmem with hmem | hmem
        · obtain ⟨mode, hmode⟩ := hs.written other hmem
          exact ⟨mode, (Function.update_of_ne (hother other hmem) ..).trans hmode⟩
        · rw [List.mem_singleton.1 hmem]
          exact ⟨item.mode, Function.update_self ..⟩

variable (fails) in
theorem prepareAll_spec (items : List ClientItem) {done : List ClientItem}
    (hs : Preparing nodes done s) (hnodup : ((done ++ items).map ClientItem.path).Nodup) :
    (∃ t, Attempt.forEach (prepare fails) items s = (.ok (), t) ∧
        Preparing nodes (done ++ items) t) ∨
      ∃ e t, Attempt.forEach (prepare fails) items s = (.error e, t) ∧ t.nodes = nodes ∧
        t.changed = [] ∧ Pending t := by
  induction items generalizing done s with
  | nil =>
      rw [List.append_nil]
      exact .inl ⟨s, rfl, hs⟩
  | cons item items ih =>
      rw [Attempt.forEach_cons]
      have hfresh : item.path ∉ done.map ClientItem.path := by
        intro hmem
        rw [List.map_append, List.nodup_append] at hnodup
        exact hnodup.2.2 _ hmem _ List.mem_cons_self rfl
      rcases prepare_spec fails hs hfresh with
        ⟨t, ht, hprepared⟩ | ⟨e, t, ht, hfailed⟩
      · rw [ht, Attempt.follow_ok, List.append_cons]
        exact ih hprepared (by rwa [← List.append_cons])
      · exact .inr ⟨e, t, by rw [ht, Attempt.follow_error], hfailed⟩

/-- While items are committed, what has been recorded is what has changed, and the temporary
files are those of the items that are left. -/
structure Committing (nodes : Text → Option Node) (remaining : List ClientItem) (s : Progress) :
    Prop where
  recorded : ∀ path ∈ s.changed, s.contentAt path ≠ readText (nodes path)
  untouched : ∀ path, path ∉ s.changed → s.nodes path = nodes path
  fresh : ∀ item ∈ remaining, item.path ∉ s.changed ∧ item.path ∈ s.pending
  left : ∀ path, s.temporaries path ≠ none → path ∈ remaining.map ClientItem.path
  written : ∀ item ∈ remaining, ∃ mode, s.temporaries item.path = some (item.content, mode)

namespace Committing

variable {remaining : List ClientItem} {item : ClientItem}

theorem exact (hs : Committing nodes remaining s) : s.Recorded nodes := by
  intro path
  refine ⟨hs.recorded path, fun h => ?_⟩
  by_contra hmem
  exact h (congrArg readText (hs.untouched path hmem))

theorem pending (hs : Committing nodes remaining s) : Pending s := by
  intro path hpath
  obtain ⟨item, hitem, rfl⟩ := List.mem_map.1 (hs.left path hpath)
  exact (hs.fresh item hitem).2

/-- An item is recorded as soon as its text stands. -/
theorem commit (hs : Committing nodes (item :: remaining) s) {t : Progress} {mode : ℕ}
    (hnodup : ((item :: remaining).map ClientItem.path).Nodup) (hplanned : Planned nodes item)
    (hnodes : t.nodes = Function.update s.nodes item.path (some (.file item.content mode)))
    (hchanged : t.changed = s.changed ++ [item.path]) (hpending : t.pending = s.pending)
    (hother : ∀ path ≠ item.path, t.temporaries path = s.temporaries path) :
    t.Recorded nodes ∧ Pending t ∧ (t.temporaries item.path = none →
      Committing nodes remaining t) := by
  rw [List.map_cons, List.nodup_cons] at hnodup
  have hne : ∀ other ∈ remaining, other.path ≠ item.path := fun other hmem heq =>
    hnodup.1 (heq ▸ List.mem_map_of_mem hmem)
  have hrecorded : ∀ path ∈ t.changed, t.contentAt path ≠ readText (nodes path) := by
    intro path hpath
    rw [hchanged, List.mem_append, List.mem_singleton] at hpath
    unfold Progress.contentAt
    rw [hnodes]
    by_cases hsame : path = item.path
    · rw [hsame, Function.update_self, hplanned.read]
      exact fun h => hplanned.differs (Option.some.inj h).symm
    · rw [Function.update_of_ne hsame]
      exact hs.recorded path (hpath.resolve_right hsame)
  have huntouched : ∀ path, path ∉ t.changed → t.nodes path = nodes path := by
    intro path hpath
    rw [hchanged, List.mem_append, List.mem_singleton, not_or] at hpath
    rw [hnodes, Function.update_of_ne hpath.2]
    exact hs.untouched path hpath.1
  refine ⟨fun path => ⟨hrecorded path, fun h => ?_⟩, fun path hpath => ?_, fun hnone => ?_⟩
  · by_contra hmem
    exact h (congrArg readText (huntouched path hmem))
  · rw [hpending]
    by_cases hsame : path = item.path
    · rw [hsame]
      exact (hs.fresh item List.mem_cons_self).2
    · rw [hother path hsame] at hpath
      exact hs.pending path hpath
  · refine ⟨hrecorded, huntouched, fun other hmem => ?_, fun path hpath => ?_, fun other hmem => ?_⟩
    · obtain ⟨hnot, hmem'⟩ := hs.fresh other (List.mem_cons_of_mem item hmem)
      rw [hchanged, hpending, List.mem_append, List.mem_singleton, not_or]
      exact ⟨⟨hnot, hne other hmem⟩, hmem'⟩
    · have hsame : path ≠ item.path := by
        rintro rfl
        exact hpath hnone
      rw [hother path hsame] at hpath
      exact (List.mem_cons.1 (hs.left path hpath)).resolve_left hsame
    · obtain ⟨mode, hmode⟩ := hs.written other (List.mem_cons_of_mem item hmem)
      exact ⟨mode, (hother other.path (hne other hmem)).trans hmode⟩

end Committing

variable (fails) in
theorem commit_spec {remaining : List ClientItem} {item : ClientItem}
    (hs : Committing nodes (item :: remaining) s)
    (hnodup : ((item :: remaining).map ClientItem.path).Nodup) (hplanned : Planned nodes item) :
    (∃ t, p.commit fails item s = (.ok (), t) ∧ Committing nodes remaining t ∧
        t.changed = s.changed ++ [item.path]) ∨
      ∃ e t, p.commit fails item s = (.error e, t) ∧ t.Recorded nodes ∧ Pending t := by
  have hnode : s.nodes item.path = nodes item.path :=
    hs.untouched item.path (hs.fresh item List.mem_cons_self).1
  obtain ⟨mode, htemporary⟩ := hs.written item List.mem_cons_self
  have hnothing : ∀ e, p.commit fails item s = (.error e, s) →
      ∃ e t, p.commit fails item s = (.error e, t) ∧ t.Recorded nodes ∧ Pending t :=
    fun e he => ⟨e, s, he, hs.exact, hs.pending⟩
  cases hroot : fails .lstatRootAgain item.path with
  | true => exact .inr (hnothing .failed (by simp [ClientFiles.commit, call, hroot]))
  | false =>
  by_cases hdirectory : (!p.isDirectory || p.isSymbolicLink) = true
  · exact .inr (hnothing (.client .rootChanged) (by
      simp [ClientFiles.commit, call, hroot, hdirectory]))
  cases hreal : fails .realpathRootAgain item.path with
  | true => exact .inr (hnothing .failed (by
      simp [ClientFiles.commit, call, hroot, hdirectory, hreal]))
  | false =>
  cases hroot' : p.real with
  | false => exact .inr (hnothing (.client .rootChanged) (by
      simp [ClientFiles.commit, call, hroot, hdirectory, hreal, hroot']))
  | true =>
  have hcommit : p.commit fails item s = Attempt.follow (fun actual =>
      if actual ≠ item.prior then Attempt.fail (.client (.changed item.path))
      else if item.prior.isNone then do
        link fails .linkClient item.path
        record item.path
        unlinkTemporary fails .unlinkClient item.path
      else do
        rename fails .renameClient item.path
        record item.path) (current fails item s) := by
    simp [ClientFiles.commit, call, hroot, hdirectory, hreal, hroot']
  have hcurrent : (∃ e, current fails item s = (.error e, s)) ∨
      ∃ actual, current fails item s = (.ok actual, s) := by
    unfold current orMissing
    cases hlstat : fails .lstatClientAgain item.path with
    | true => exact .inl ⟨.failed, by simp [Attempt.catching, lstat, hlstat]⟩
    | false =>
    rcases hfile : s.nodes item.path with _ | ⟨text, fileMode⟩ | _
    · exact .inr ⟨none, by simp [Attempt.catching, lstat, hlstat, hfile]⟩
    · by_cases hmode : fileMode = item.mode
      · cases hread : fails .readClientAgain item.path with
        | true => exact .inl ⟨.failed, by
            simp [Attempt.catching, lstat, readFile, hlstat, hfile, hmode, hread]⟩
        | false => exact .inr ⟨some text, by
            simp [Attempt.catching, lstat, readFile, hlstat, hfile, hmode, hread]⟩
      · exact .inl ⟨.client (.changedTypeOrMode item.path), by
          simp [Attempt.catching, lstat, hlstat, hfile, hmode]⟩
    · exact .inl ⟨.client (.changedTypeOrMode item.path), by
        simp [Attempt.catching, lstat, hlstat, hfile]⟩
  rcases hcurrent with ⟨e, he⟩ | ⟨actual, hactual⟩
  · exact .inr (hnothing e (by rw [hcommit, he, Attempt.follow_error]))
  rw [hactual, Attempt.follow_ok] at hcommit
  by_cases hsame : actual = item.prior
  swap
  · exact .inr (hnothing (.client (.changed item.path)) (by simp [hcommit, hsame]))
  rw [if_neg (not_not.2 hsame)] at hcommit
  cases hprior : item.prior with
  | none =>
      have hmissing : s.nodes item.path = none := by
        have hread := hplanned.read
        rw [← hnode, hprior] at hread
        unfold readText at hread
        split at hread <;> simp_all
      rw [hprior] at hcommit
      cases hlink : fails .linkClient item.path with
      | true => exact .inr (hnothing .failed (by simp [hcommit, link, hlink]))
      | false =>
      have hstep := hs.commit (t := { s with
        nodes := Function.update s.nodes item.path (some (.file item.content mode))
        changed := s.changed ++ [item.path] }) hnodup hplanned rfl rfl rfl fun _ _ => rfl
      cases hunlink : fails .unlinkClient item.path with
      | true =>
          refine .inr ⟨.failed, _, ?_, hstep.1, hstep.2.1⟩
          simp [hcommit, link, hlink, htemporary, hmissing, Files.record, unlinkTemporary, hunlink]
      | false =>
          have hremoved := hs.commit (t := { s with
            nodes := Function.update s.nodes item.path (some (.file item.content mode))
            changed := s.changed ++ [item.path]
            temporaries := Function.update s.temporaries item.path none }) hnodup hplanned rfl rfl rfl
            fun path hpath => Function.update_of_ne hpath ..
          refine .inl ⟨_, ?_, hremoved.2.2 (Function.update_self ..), rfl⟩
          simp [hcommit, link, hlink, htemporary, hmissing, Files.record, unlinkTemporary, hunlink]
  | some prior =>
      rw [hprior] at hcommit
      cases hrename : fails .renameClient item.path with
      | true => exact .inr (hnothing .failed (by simp [hcommit, rename, hrename]))
      | false =>
      have hrenamed := hs.commit (t := { s with
        nodes := Function.update s.nodes item.path (some (.file item.content mode))
        changed := s.changed ++ [item.path]
        temporaries := Function.update s.temporaries item.path none }) hnodup hplanned rfl rfl rfl
        fun path hpath => Function.update_of_ne hpath ..
      refine .inl ⟨_, ?_, hrenamed.2.2 (Function.update_self ..), rfl⟩
      simp [hcommit, rename, hrename, htemporary, Files.record]

variable (fails) in
theorem commitItems_spec (items : List ClientItem) (hs : Committing nodes items s)
    (hnodup : (items.map ClientItem.path).Nodup) (hplanned : ∀ item ∈ items, Planned nodes item) :
    (∃ t, Attempt.forEach (p.commit fails) items s = (.ok (), t) ∧ Committing nodes [] t ∧
        t.changed = s.changed ++ items.map ClientItem.path) ∨
      ∃ e t, Attempt.forEach (p.commit fails) items s = (.error e, t) ∧ t.Recorded nodes ∧
        Pending t := by
  induction items generalizing s with
  | nil => exact .inl ⟨s, rfl, hs, by simp⟩
  | cons item items ih =>
      rw [Attempt.forEach_cons]
      rcases commit_spec (p := p) fails hs hnodup (hplanned item List.mem_cons_self) with
        ⟨t, ht, hcommitted, hchanged⟩ | ⟨e, t, ht, hfailed⟩
      · rw [ht, Attempt.follow_ok]
        rw [List.map_cons, List.nodup_cons] at hnodup
        rcases ih hcommitted hnodup.2 (fun other hmem => hplanned other (List.mem_cons_of_mem item hmem))
          with ⟨u, hu, hdone, hall⟩ | hfailed
        · exact .inl ⟨u, hu, hdone, by rw [hall, hchanged]; simp⟩
        · exact .inr hfailed
      · exact .inr ⟨e, t, by rw [ht, Attempt.follow_error], hfailed⟩

/-- Only a temporary file whose removal failed is left. -/
def Tidy (fails : Faults) (s : Progress) : Prop :=
  ∀ path, s.temporaries path ≠ none → fails .cleanup path = true

variable (fails) in
theorem cleanup_spec (pending : List Text) (s : Progress) :
    (cleanup fails pending s).2.nodes = s.nodes ∧
      ∀ path, (cleanup fails pending s).2.temporaries path ≠ none →
        s.temporaries path ≠ none ∧ (path ∈ pending → fails .cleanup path = true) := by
  induction pending generalizing s with
  | nil => exact ⟨rfl, fun path h => ⟨h, fun hmem => absurd hmem List.not_mem_nil⟩⟩
  | cons first pending ih =>
      unfold cleanup
      cases hfails : fails .cleanup first with
      | true =>
          rw [ignoreMissing_unlinkTemporary_error hfails]
          refine ⟨(ih s).1, fun path hpath => ?_⟩
          obtain ⟨hbefore, hrest⟩ := (ih s).2 path hpath
          refine ⟨hbefore, fun hmem => ?_⟩
          rcases List.mem_cons.1 hmem with rfl | hmem
          · exact hfails
          · exact hrest hmem
      | false =>
          rw [ignoreMissing_unlinkTemporary hfails]
          set t : Progress := { s with temporaries := Function.update s.temporaries first none }
            with ht
          refine ⟨(ih t).1, fun path hpath => ?_⟩
          obtain ⟨hbefore, hrest⟩ := (ih t).2 path hpath
          have hne : path ≠ first := by
            rintro rfl
            exact hbefore (Function.update_self ..)
          have hsame : t.temporaries path = s.temporaries path := Function.update_of_ne hne ..
          rw [hsame] at hbefore
          exact ⟨hbefore, fun hmem => hrest ((List.mem_cons.1 hmem).resolve_left hne)⟩

/-- Whatever happens, the report is right and only a temporary file whose removal failed is left. -/
def Exact (p : ClientFiles) (fails : Faults) (nodes : Text → Option Node) : Prop :=
  let (report, t) := p.generateClient fails (.start nodes)
  report.Exact nodes t ∧ Tidy fails t

variable (fails) in
/-- What is reported after a failure. -/
theorem exact_failed {u : Progress} (error : FileError) (hrecorded : u.Recorded nodes)
    (hpending : Pending u) :
    (if u.changed = [] then
        (Report.failed error (cleanup fails u.pending u).1)
      else .partiallyCommitted u.changed error (cleanup fails u.pending u).1).Exact nodes
        (cleanup fails u.pending u).2 ∧ Tidy fails (cleanup fails u.pending u).2 := by
  obtain ⟨hnodes, htemporaries⟩ := cleanup_spec fails u.pending u
  have hcontent : ∀ path, (cleanup fails u.pending u).2.contentAt path = u.contentAt path := by
    intro path
    rw [Progress.contentAt, hnodes, Progress.contentAt]
  constructor
  · split_ifs with hnone
    · intro path
      rw [hcontent]
      by_contra h
      have hmem := (hrecorded path).2 h
      rw [hnone] at hmem
      cases hmem
    · intro path
      rw [hcontent]
      exact hrecorded path
  · intro path hpath
    obtain ⟨hbefore, hfails⟩ := htemporaries path hpath
    exact hfails (hpending path hbefore)

theorem exact (p : ClientFiles) (fails : Faults) (nodes : Text → Option Node) :
    p.Exact fails nodes := by
  unfold Exact generateClient
  rcases plan_spec p fails (.start nodes) with ⟨e, he⟩ | ⟨items, hitems, hnodup, hplanned⟩
  · rw [he]
    exact ⟨fun _ => rfl, fun _ h => absurd rfl h⟩
  rw [hitems]
  have hstart : Preparing nodes [] (.start nodes) :=
    ⟨rfl, rfl, rfl, fun _ h => absurd rfl h, by simp⟩
  unfold commitAll
  dsimp only
  rw [Attempt.bind_apply]
  rcases prepareAll_spec fails items hstart hnodup with
    ⟨t, ht, hprepared⟩ | ⟨e, t, ht, hnodes, hchanged, hpending⟩
  swap
  · rw [ht, Attempt.follow_error]
    have hrecorded : t.Recorded nodes := by
      intro path
      rw [hchanged, Progress.contentAt, hnodes]
      simp
    have hfailed := exact_failed fails e hrecorded hpending
    dsimp only
    rw [if_pos hchanged] at hfailed ⊢
    exact hfailed
  rw [ht, Attempt.follow_ok]
  rw [List.nil_append] at hprepared
  have hcommitting : Committing nodes items t := by
    constructor
    case recorded =>
      intro path hmem
      rw [hprepared.changed] at hmem
      cases hmem
    case untouched =>
      intro path _
      rw [hprepared.nodes]
    case fresh =>
      intro item hitem
      rw [hprepared.changed, hprepared.pending]
      exact ⟨List.not_mem_nil, List.mem_map_of_mem hitem⟩
    case left =>
      intro path hpath
      have hmem := hprepared.left path hpath
      rwa [hprepared.pending] at hmem
    case written => exact hprepared.written
  rcases commitItems_spec (p := p) fails items hcommitting hnodup hplanned with
    ⟨u, hu, hdone, hchanged⟩ | ⟨e, u, hu, hrecorded, hpending⟩
  · rw [hu]
    refine ⟨?_, fun path hpath => absurd (hdone.left path hpath) List.not_mem_nil⟩
    have hrecorded := hdone.exact
    rw [hprepared.changed, List.nil_append] at hchanged
    intro path
    rw [← hchanged]
    exact hrecorded path
  · rw [hu]
    have hfailed := exact_failed fails e hrecorded hpending
    dsimp only
    split_ifs with hnone
    · rwa [if_pos hnone] at hfailed
    · rwa [if_neg hnone] at hfailed

end ClientFiles

/-! ### Both publications -/

/-- The source files are reported exactly when no removal of a temporary file fails after its text
was put in its place, and a client always is. -/
theorem partialCommits_exact_iff (source : SourceFiles) (client : ClientFiles) (fails : Faults)
    (nodes : Text → Option Node) :
    source.Exact fails nodes ∧ client.Exact fails nodes ↔ source.RemovesTemporaries fails nodes := by
  rw [source.exact_iff]
  exact and_iff_left (client.exact fails nodes)

/-- One new file, `a.ts`. -/
def oneFile : SourceFiles where
  host := ⟨id, id, [], []⟩
  umask := 0o022
  files := ⟨[("a.ts".toList, ⟨[], ['a'], false⟩)], by decide⟩
  existing := .empty
  skipOutputDeletion := false
  metadataPath := none
  metadata := []
  metadataParent := false
  apart := by simp

/-- The file is linked and its temporary file is not removed: what is thrown reports no commit. -/
theorem oneFile_not_exact : ¬(oneFile.Exact (fun place _ => place = .unlinkTemporary) fun _ => none) := by
  rintro ⟨hreport, -⟩
  have hsame := hreport "a.ts".toList
  revert hsame
  decide

end Arc.ProxyGenerator
