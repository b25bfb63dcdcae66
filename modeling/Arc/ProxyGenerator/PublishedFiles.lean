import Arc.ProxyGenerator.SourcePublication

/-!
# What a publication does to the tree

Without another writer the stages of a publication fail at one point only: at a barrel to be
rewritten whose path holds two dots. Up to there every file is published with the text that
was prepared for it, and nothing else changes; a publication that gets past it deletes what is
obsolete, and no more.
-/

namespace Arc.ProxyGenerator.Generation

variable {g : Generation}

theorem get_existing (path : Text) :
    g.existing.get path = if inside path && isTypeScript path then g.tree.get path else none := by
  unfold existing
  rw [InsertionMap.get_filter]
  cases inside path && isTypeScript path with
  | true =>
      cases g.tree.get path with
      | none => rfl
      | some text => rfl
  | false =>
      cases g.tree.get path with
      | none => rfl
      | some text => rfl

/-- An existing file is one of the tree. -/
theorem get_tree {path text : Text} (h : g.existing.get path = some text) :
    g.tree.get path = some text := by
  rw [get_existing] at h
  split at h
  · exact h
  · cases h

/-! ### The rendered files and the barrels -/

/-- What `publishFiles` leaves behind: the first files are published, the others untouched. -/
structure Published (g : Generation) (files : List (Text × SourceFileEntry)) (p q : Publication)
    (done rest : List (Text × SourceFileEntry)) : Prop where
  split : files = done ++ rest
  published : ∀ file ∈ done,
    q.tree.get file.1 = some (g.published file.2 (g.existing.get file.1))
  untouched : ∀ path, path ∉ done.map Prod.fst → q.tree.get path = p.tree.get path
  /-- What was published has a plain path, or stood there already. -/
  plain : ∀ file ∈ done, dotted file.1 = true →
    g.existing.get file.1 = some (g.published file.2 (g.existing.get file.1))
  ending : rest = [] ∧ q.error = none ∨ ∃ path entry after, rest = (path, entry) :: after ∧
    dotted path = true ∧ g.existing.get path ≠ some (g.published entry (g.existing.get path)) ∧
    q.error = some (.unsafeOutput path)

theorem publishFiles_published {files : List (Text × SourceFileEntry)} {p : Publication}
    (hnodup : (files.map Prod.fst).Nodup) (herror : p.error = none)
    (hsame : ∀ file ∈ files, p.tree.get file.1 = g.existing.get file.1) :
    ∃ done rest, Published g files p (g.publishFiles files p) done rest := by
  induction files generalizing p with
  | nil => exact ⟨[], [], rfl, by simp, fun _ _ => rfl, by simp, Or.inl ⟨rfl, herror⟩⟩
  | cons file files ih =>
      obtain ⟨path, entry⟩ := file
      rw [List.map_cons, List.nodup_cons] at hnodup
      obtain ⟨hfresh, hnodup⟩ := hnodup
      have hpath := hsame (path, entry) List.mem_cons_self
      have hrest : ∀ file ∈ files, p.tree.get file.1 = g.existing.get file.1 :=
        fun file hfile => hsame file (List.mem_cons_of_mem _ hfile)
      unfold publishFiles
      dsimp only
      split
      · -- the file stands there already
        rename_i hkept
        obtain ⟨done, rest, h⟩ := ih hnodup herror hrest
        have hout : path ∉ done.map Prod.fst := by
          intro hmem
          refine hfresh ?_
          rw [h.split, List.map_append]
          exact List.mem_append_left _ hmem
        refine ⟨(path, entry) :: done, rest, ?_, ?_, ?_, ?_, h.ending⟩
        · rw [h.split, List.cons_append]
        · intro file hfile
          rcases List.mem_cons.1 hfile with rfl | hfile
          · exact ((h.untouched path hout).trans hpath).trans hkept
          · exact h.published file hfile
        · intro other hother
          rw [List.map_cons, List.mem_cons, not_or] at hother
          exact h.untouched other hother.2
        · intro file hfile hdotted
          rcases List.mem_cons.1 hfile with rfl | hfile
          · exact hkept
          · exact h.plain file hfile hdotted
      · rename_i hnew
        split
        · rename_i hdotted
          refine ⟨[], (path, entry) :: files, rfl, by simp, fun _ _ => rfl, by simp, Or.inr ?_⟩
          exact ⟨path, entry, files, rfl, hdotted, hnew, rfl⟩
        · rename_i hplain
          rw [if_neg (fun hne => hne hpath)]
          have hrest' : ∀ file ∈ files,
              (p.tree.set path (g.published entry (g.existing.get path))).get file.1 =
                g.existing.get file.1 := by
            intro file hfile
            have hne : file.1 ≠ path := by
              rintro rfl
              exact hfresh (List.mem_map.2 ⟨file, hfile, rfl⟩)
            rw [InsertionMap.get_set_of_ne _ _ hne]
            exact hrest file hfile
          obtain ⟨done, rest, h⟩ := ih (p := { p with
            tree := p.tree.set path (g.published entry (g.existing.get path))
            changed := p.changed ++ [path] }) hnodup herror hrest'
          have hout : path ∉ done.map Prod.fst := by
            intro hmem
            refine hfresh ?_
            rw [h.split, List.map_append]
            exact List.mem_append_left _ hmem
          refine ⟨(path, entry) :: done, rest, ?_, ?_, ?_, ?_, h.ending⟩
          · rw [h.split, List.cons_append]
          · intro file hfile
            rcases List.mem_cons.1 hfile with rfl | hfile
            · exact (h.untouched path hout).trans (InsertionMap.get_set_self _ _ _)
            · exact h.published file hfile
          · intro other hother
            rw [List.map_cons, List.mem_cons, not_or] at hother
            exact (h.untouched other hother.2).trans
              (InsertionMap.get_set_of_ne _ _ hother.1)
          · intro file hfile hdotted
            rcases List.mem_cons.1 hfile with rfl | hfile
            · exact absurd hdotted hplain
            · exact h.plain file hfile hdotted

/-! ### The obsolete files -/

/-- `removeFiles` deletes the obsolete files it is given, and nothing else. -/
structure Removed (g : Generation) (files : List (Text × Text)) (p q : Publication) : Prop where
  error : q.error = none
  removed : ∀ path text, (path, text) ∈ files → g.obsolete path text = true →
    q.tree.get path = none
  kept : ∀ path, (∀ text, (path, text) ∈ files → g.obsolete path text = false) →
    q.tree.get path = p.tree.get path

theorem removeFiles_removed {files : List (Text × Text)} {p : Publication}
    (hnodup : (files.map Prod.fst).Nodup) (herror : p.error = none)
    (hsame : ∀ path text, (path, text) ∈ files → g.obsolete path text = true →
      p.tree.get path = some text) : Removed g files p (g.removeFiles files p) := by
  induction files generalizing p with
  | nil => exact ⟨herror, by simp, fun _ _ => rfl⟩
  | cons file files ih =>
      obtain ⟨path, text⟩ := file
      rw [List.map_cons, List.nodup_cons] at hnodup
      obtain ⟨hfresh, hnodup⟩ := hnodup
      have hother : ∀ other text', (other, text') ∈ files → other ≠ path := by
        rintro other text' hmem rfl
        exact hfresh (List.mem_map.2 ⟨(_, text'), hmem, rfl⟩)
      unfold removeFiles
      cases hobsolete : g.obsolete path text with
      | false =>
          rw [if_neg Bool.false_ne_true]
          have h := ih hnodup herror fun other text' hmem =>
            hsame other text' (List.mem_cons_of_mem _ hmem)
          refine ⟨h.error, ?_, fun other hother' => h.kept other fun text' hmem =>
            hother' text' (List.mem_cons_of_mem _ hmem)⟩
          intro other text' hmem hobsolete'
          rcases List.mem_cons.1 hmem with heq | hmem
          · cases heq
            rw [hobsolete] at hobsolete'
            cases hobsolete'
          · exact h.removed other text' hmem hobsolete'
      | true =>
          have hstands := hsame path text List.mem_cons_self hobsolete
          rw [if_pos rfl, if_neg (fun hne => hne hstands)]
          have h := ih (p := { p with
            tree := p.tree.delete path
            changed := p.changed ++ [path] }) hnodup herror (by
              intro other text' hmem hobsolete'
              dsimp only
              rw [InsertionMap.get_delete_of_ne _ (hother other text' hmem)]
              exact hsame other text' (List.mem_cons_of_mem _ hmem) hobsolete')
          refine ⟨h.error, ?_, ?_⟩
          · intro other text' hmem hobsolete'
            rcases List.mem_cons.1 hmem with heq | hmem
            · cases heq
              rw [h.kept path fun text' hmem => absurd rfl (hother path text' hmem)]
              exact InsertionMap.get_delete_self _ _
            · exact h.removed other text' hmem hobsolete'
          · intro other hkept
            have hne : other ≠ path := by
              rintro rfl
              have hfalse := hkept text List.mem_cons_self
              rw [hobsolete] at hfalse
              cases hfalse
            rw [h.kept other fun text' hmem => hkept text' (List.mem_cons_of_mem _ hmem)]
            exact InsertionMap.get_delete_of_ne _ hne

/-! ### The metadata module -/

/-- The metadata module is the only file its publication touches, and it is not removed. -/
theorem publishMetadata_get (p : Publication) (path : Text) :
    (g.metadataPath ≠ some path → (g.publishMetadata p).tree.get path = p.tree.get path) ∧
      ((g.publishMetadata p).tree.get path = none → p.tree.get path = none) := by
  unfold publishMetadata
  cases hmetadata : g.metadataPath with
  | none => exact ⟨fun _ => rfl, id⟩
  | some target =>
      dsimp only
      split
      · exact ⟨fun _ => rfl, id⟩
      · split
        · exact ⟨fun _ => rfl, id⟩
        · split
          · exact ⟨fun _ => rfl, id⟩
          · by_cases heq : path = target
            · subst heq
              refine ⟨fun hne => absurd rfl hne, fun hnone => ?_⟩
              simp at hnone
            · dsimp only
              rw [InsertionMap.get_set_of_ne _ _ heq]
              exact ⟨fun _ => rfl, id⟩

/-! ### The prepared barrels -/

/-- A line of a barrel that refers to an owned file the generation deletes. -/
def dropped (g : Generation) (path line : Text) : Bool :=
  match exportOf line with
  | none => false
  | some target =>
      !g.skipOutputDeletion && (g.files.get (exported path target)).isNone &&
        owned g.host ((g.existing.get (exported path target)).getD [])

/-- An `index.ts` the generator does not own. -/
def isHandwritten (g : Generation) (file : Text × Text) : Bool :=
  isBarrel file.1 && !owned g.host file.2

/-- The text a handwritten barrel is given. -/
def rewriting (g : Generation) (file : Text × Text) : Text :=
  unlines ((lines file.2).filter fun line => !g.dropped file.1 line && !(blank line)) ++ ['\n']

/-- The handwritten barrels whose text changes, in order. -/
def changedBarrels (g : Generation) (files : List (Text × Text)) : List (Text × Text) :=
  files.filter fun file => g.isHandwritten file && g.rewriting file ≠ file.2

/-- The entry of a handwritten barrel whose text changes. -/
def barrelEntry (g : Generation) (file : Text × Text) : Text × SourceFileEntry :=
  (file.1, ⟨[], g.rewriting file, true⟩)

/-- An export line is never blank. -/
theorem not_blank_of_exportOf {line target : Text} (h : exportOf line = some target) :
    blank line = false := by
  unfold exportOf at h
  dsimp only at h
  split at h
  · rename_i hline
    rw [hline.2.2]
    rfl
  · cases h

/-- The files that are to be published after the barrels `done` were prepared. -/
structure Prepared (g : Generation) (done : List (Text × Text))
    (files : InsertionMap Text SourceFileEntry) : Prop where
  kept : ∀ path, (∀ text, (path, text) ∈ done → g.isHandwritten (path, text) = false) →
    (files.get path).map SourceFileEntry.handwritten =
      (g.files.get path).map SourceFileEntry.handwritten
  handwritten : ∀ path text, (path, text) ∈ done → g.isHandwritten (path, text) = true →
    files.get path = if g.rewriting (path, text) ≠ text then
      some (g.barrelEntry (path, text)).2 else none
  order : files.entries.filter (fun file => file.2.handwritten) =
    (g.changedBarrels done).map g.barrelEntry

theorem not_handwritten_of_owned {path text : Text} (h : owned g.host text = true) :
    g.isHandwritten (path, text) = false := by
  simp [isHandwritten, h]

/-- Preparing a barrel keeps whether an owned file is to be published. -/
theorem Prepared.isNone {done : List (Text × Text)} {files : InsertionMap Text SourceFileEntry}
    (h : Prepared g done files) (hdone : ∀ file ∈ done, file ∈ g.existing.entries) {path : Text}
    (howned : owned g.host ((g.existing.get path).getD []) = true) :
    (files.get path).isNone = (g.files.get path).isNone := by
  have hkept := h.kept path fun text hmem => not_handwritten_of_owned (by
    rw [InsertionMap.get_eq_some_iff.2 (hdone _ hmem)] at howned
    exact howned)
  have hiff := congrArg Option.isNone hkept
  simpa using hiff

/-- A line of a handwritten barrel stays when it is neither dropped nor blank. -/
theorem Prepared.retains {done : List (Text × Text)} {files : InsertionMap Text SourceFileEntry}
    (h : Prepared g done files) (hdone : ∀ file ∈ done, file ∈ g.existing.entries)
    (path line : Text) :
    g.retains files path line = (!g.dropped path line && !(blank line)) := by
  unfold Generation.retains dropped
  cases hexport : exportOf line with
  | none => simp
  | some target =>
      rw [not_blank_of_exportOf hexport]
      dsimp only
      cases howned : owned g.host
          ((g.existing.get (exported path target)).getD []) with
      | false => simp
      | true => simp [h.isNone hdone howned]

theorem prepared_nil (g : Generation) : Prepared g [] g.files := by
  refine ⟨fun _ _ => rfl, by simp, ?_⟩
  have hnone : g.files.entries.filter (fun file => file.2.handwritten) = [] := by
    refine List.filter_eq_nil_iff.2 fun file hfile => ?_
    rw [g.generated file.1 file.2 (InsertionMap.get_eq_some_iff.2 hfile)]
    simp
  rw [hnone]
  rfl

theorem changedBarrels_concat (g : Generation) (done : List (Text × Text)) (file : Text × Text) :
    g.changedBarrels (done ++ [file]) = g.changedBarrels done ++
      if g.isHandwritten file && g.rewriting file ≠ file.2 then [file] else [] := by
  unfold changedBarrels
  rw [List.filter_append, List.filter_singleton, Bool.cond_eq_ite]

/-- A file that is not a handwritten barrel keeps its entry, up to the text. -/
theorem Prepared.keep {done : List (Text × Text)} {files files' : InsertionMap Text SourceFileEntry}
    (h : Prepared g done files) {path text : Text}
    (hnot : g.isHandwritten (path, text) = false)
    (hget : ∀ other, (files'.get other).map SourceFileEntry.handwritten =
      (files.get other).map SourceFileEntry.handwritten)
    (hother : ∀ other, other ≠ path → files'.get other = files.get other)
    (hfresh : path ∉ done.map Prod.fst)
    (horder : files'.entries.filter (fun file => file.2.handwritten) =
      files.entries.filter (fun file => file.2.handwritten)) :
    Prepared g (done ++ [(path, text)]) files' where
  kept := by
    intro other howned
    rw [hget other]
    exact h.kept other fun text' hmem => howned text' (List.mem_append_left _ hmem)
  handwritten := by
    intro other text' hin hwritten
    rcases List.mem_append.1 hin with hmem | hmem
    · have hne : other ≠ path := by
        rintro rfl
        exact hfresh (List.mem_map.2 ⟨(other, text'), hmem, rfl⟩)
      rw [hother other hne]
      exact h.handwritten other text' hmem hwritten
    · cases List.mem_singleton.1 hmem
      rw [hnot] at hwritten
      cases hwritten
  order := by
    rw [horder, changedBarrels_concat, hnot, h.order]
    simp

theorem Prepared.prepareBarrel {done : List (Text × Text)}
    {files : InsertionMap Text SourceFileEntry} (h : Prepared g done files)
    (hdone : ∀ file ∈ done, file ∈ g.existing.entries) {path text : Text}
    (hfresh : path ∉ done.map Prod.fst) :
    Prepared g (done ++ [(path, text)]) (g.prepareBarrel files (path, text)) := by
  -- nothing was written by hand under the path so far
  have hentry : ∀ entry, files.get path = some entry → entry.handwritten = false := by
    intro entry hget
    have hkept := h.kept path fun text' hmem =>
      absurd (List.mem_map.2 ⟨(path, text'), hmem, rfl⟩) hfresh
    rw [hget] at hkept
    cases hrendered : g.files.get path with
    | none =>
        rw [hrendered] at hkept
        cases hkept
    | some entry' =>
        rw [hrendered] at hkept
        rw [Option.some.inj hkept]
        exact g.generated path entry' hrendered
  unfold Generation.prepareBarrel
  cases hbarrel : isBarrel path with
  | false =>
      exact h.keep (by simp [isHandwritten, hbarrel]) (fun _ => rfl) (fun _ _ => rfl) hfresh rfl
  | true =>
      cases howned : owned g.host text with
      | true =>
          have hnot := @not_handwritten_of_owned g path text howned
          dsimp only
          cases hget : files.get path with
          | none => exact h.keep hnot (fun _ => rfl) (fun _ _ => rfl) hfresh rfl
          | some entry =>
              simp only [Bool.not_true, Bool.false_eq_true, if_false, if_true]
              refine h.keep hnot ?_ (fun other hne => InsertionMap.get_set_of_ne _ _ hne) hfresh ?_
              · intro other
                by_cases hother : other = path
                · subst hother
                  rw [InsertionMap.get_set_self, hget]
                  rfl
                · rw [InsertionMap.get_set_of_ne _ _ hother]
              · refine InsertionMap.filter_entries_set _ ?_ (hentry entry hget)
                exact fun entry' hget' => hentry entry' hget'
      | false =>
          have hwritten : g.isHandwritten (path, text) = true := by
            simp [isHandwritten, hbarrel, howned]
          have htext : unlines ((lines text).filter (g.retains files path)) ++ ['\n'] =
              g.rewriting (path, text) := by
            unfold rewriting
            rw [List.filter_congr fun line _ => h.retains hdone path line]
          dsimp only
          rw [htext]
          have hdeleted : (files.delete path).entries.filter (fun file => file.2.handwritten) =
              files.entries.filter (fun file => file.2.handwritten) :=
            InsertionMap.filter_entries_delete _ hentry
          refine ⟨?_, ?_, ?_⟩
          · intro other hnot
            have hother : other ≠ path := by
              rintro rfl
              have hfalse := hnot text (List.mem_append_right _ (List.mem_singleton.2 rfl))
              rw [hwritten] at hfalse
              cases hfalse
            have hold := h.kept other fun text' hmem => hnot text' (List.mem_append_left _ hmem)
            rw [← hold]
            simp only [Bool.not_true, Bool.false_eq_true, if_false]
            split
            · rw [InsertionMap.get_set_of_ne _ _ hother, InsertionMap.get_delete_of_ne _ hother]
            · rw [InsertionMap.get_delete_of_ne _ hother]
          · intro other text' hin hother
            simp only [Bool.not_true, Bool.false_eq_true, if_false]
            rcases List.mem_append.1 hin with hmem | hmem
            · have hne : other ≠ path := by
                rintro rfl
                exact hfresh (List.mem_map.2 ⟨(other, text'), hmem, rfl⟩)
              have hold := h.handwritten other text' hmem hother
              rw [← hold]
              split
              · rw [InsertionMap.get_set_of_ne _ _ hne, InsertionMap.get_delete_of_ne _ hne]
              · rw [InsertionMap.get_delete_of_ne _ hne]
            · cases List.mem_singleton.1 hmem
              split
              · rw [InsertionMap.get_set_self]
                rfl
              · exact InsertionMap.get_delete_self _ _
          · simp only [Bool.not_true, Bool.false_eq_true, if_false]
            rw [changedBarrels_concat, List.map_append, hwritten]
            split
            · rename_i hchanged
              rw [InsertionMap.entries_delete_set, List.filter_append, hdeleted, h.order]
              simp [hchanged, barrelEntry]
            · rename_i hsame
              rw [hdeleted, h.order]
              simp [hsame]

end Arc.ProxyGenerator.Generation
