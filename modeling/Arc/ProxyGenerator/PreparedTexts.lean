import Arc.ProxyGenerator.BuiltFiles

/-!
# Prepared texts

The files that are not barrels are published as they were built, and a barrel the generator owns
keeps the lines that refer to no file it owns before those of the new one. What a run leaves
behind when it succeeds is said file by file.
-/

namespace Arc.ProxyGenerator.Generation

variable {g : Generation}

/-- The lines of an owned barrel that stay. -/
def keptLines (g : Generation) (path text : Text) : List Text :=
  (lines (body text)).filter fun line =>
    (!g.dropped path line && !(blank line)) && g.foreign path line

/-- The entry of a barrel with the lines that stay. -/
def merge (g : Generation) (path text : Text) (entry : SourceFileEntry) : SourceFileEntry :=
  { entry with
    text := unlines (g.keptLines path text ++ lines (trimEnd entry.text)) ++ ['\n'] }

/-- The entries after the barrels `done` were prepared. -/
structure Texts (g : Generation) (done : List (Text × Text))
    (files : InsertionMap Text SourceFileEntry) : Prop where
  plain : ∀ path, (∀ text, (path, text) ∈ done → isBarrel path = false) →
    files.get path = g.files.get path
  owned : ∀ path text, (path, text) ∈ done → isBarrel path = true →
    owned g.host text = true → files.get path = (g.files.get path).map (g.merge path text)

theorem Texts.prepareBarrel {done : List (Text × Text)}
    {files : InsertionMap Text SourceFileEntry} (h : Texts g done files)
    (hprepared : Prepared g done files) (hdone : ∀ file ∈ done, file ∈ g.existing.entries)
    {path text : Text} (hfresh : path ∉ done.map Prod.fst) :
    Texts g (done ++ [(path, text)]) (g.prepareBarrel files (path, text)) := by
  have hsame : files.get path = g.files.get path := h.plain path fun text' hmem =>
    absurd (List.mem_map.2 ⟨(path, text'), hmem, rfl⟩) hfresh
  have hnot : ∀ other text', (other, text') ∈ done → other ≠ path := by
    rintro other text' hmem rfl
    exact hfresh (List.mem_map.2 ⟨(other, text'), hmem, rfl⟩)
  -- the other paths keep their entries
  have hother : ∀ other, other ≠ path →
      (g.prepareBarrel files (path, text)).get other = files.get other := by
    intro other hne
    unfold Generation.prepareBarrel
    dsimp only
    cases isBarrel path with
    | false => rfl
    | true =>
        cases Arc.ProxyGenerator.owned g.host text with
        | true =>
            cases files.get path with
            | none => rfl
            | some entry => exact InsertionMap.get_set_of_ne _ _ hne
        | false =>
            simp only [Bool.not_true, Bool.false_eq_true, if_false]
            split
            · rw [InsertionMap.get_set_of_ne _ _ hne, InsertionMap.get_delete_of_ne _ hne]
            · rw [InsertionMap.get_delete_of_ne _ hne]
  refine ⟨?_, ?_⟩
  · intro other hplain
    by_cases heq : other = path
    · subst heq
      have hbarrel := hplain text (by simp)
      unfold Generation.prepareBarrel
      rw [if_pos (by simp [hbarrel]), hsame]
    · rw [hother other heq]
      exact h.plain other fun text' hmem => hplain text' (List.mem_append_left _ hmem)
  · intro other text' hmem hbarrel howned
    rcases List.mem_append.1 hmem with hmem | hmem
    · rw [hother other (hnot other text' hmem)]
      exact h.owned other text' hmem hbarrel howned
    · cases List.mem_singleton.1 hmem
      have hlines : ((lines (body text)).filter (g.retains files path)).filter (g.foreign path) =
          g.keptLines path text := by
        rw [List.filter_filter]
        refine List.filter_congr fun line _ => ?_
        rw [hprepared.retains hdone path line, Bool.and_comm]
      unfold Generation.prepareBarrel
      dsimp only
      rw [if_neg (by simp [hbarrel]), if_pos howned, hsame]
      cases hget : g.files.get path with
      | none => rw [hsame, hget]; rfl
      | some entry =>
          dsimp only
          rw [InsertionMap.get_set_self, hlines]
          rfl

theorem prepareBarrels_texts (g : Generation) : Texts g g.existing.entries g.prepareBarrels := by
  have hfold : ∀ rest done files, Prepared g done files → Texts g done files →
      done ++ rest = g.existing.entries →
        Texts g g.existing.entries (rest.foldl g.prepareBarrel files) := by
    intro rest
    induction rest with
    | nil =>
        intro done files _ h hall
        rw [List.append_nil] at hall
        rw [← hall]
        exact h
    | cons file rest ih =>
        intro done files hprepared h hall
        have hnodup := g.existing.nodup_keys
        rw [← hall, List.map_append, List.nodup_append] at hnodup
        have hfresh : file.1 ∉ done.map Prod.fst := fun hmem =>
          hnodup.2.2 file.1 hmem file.1 List.mem_cons_self rfl
        have hdone : ∀ file ∈ done, file ∈ g.existing.entries := by
          intro file' hfile
          rw [← hall]
          exact List.mem_append_left _ hfile
        refine ih (done ++ [file]) _ (hprepared.prepareBarrel hdone hfresh)
          (h.prepareBarrel hprepared hdone hfresh) ?_
        rw [List.append_assoc, List.singleton_append, hall]
  exact hfold g.existing.entries [] g.files (prepared_nil g)
    ⟨fun _ _ => rfl, by simp⟩ (List.nil_append _)

section Prepared

variable (hcolocated : g.colocated = false)

include hcolocated

theorem prepared_eq : g.prepared = g.prepareBarrels := by
  unfold prepared
  rw [hcolocated]
  rfl

theorem get_prepared_plain {path : Text}
    (h : ∀ text, g.existing.get path = some text → isBarrel path = false) :
    g.prepared.get path = g.files.get path := by
  rw [prepared_eq hcolocated]
  exact (prepareBarrels_texts g).plain path fun text hmem =>
    h text (InsertionMap.get_eq_some_iff.2 hmem)

theorem get_prepared_owned {path text : Text} (h : g.existing.get path = some text)
    (hbarrel : isBarrel path = true) (howned : owned g.host text = true) :
    g.prepared.get path = (g.files.get path).map (g.merge path text) := by
  rw [prepared_eq hcolocated]
  exact (prepareBarrels_texts g).owned path text (InsertionMap.get_eq_some_iff.1 h) hbarrel howned

theorem get_prepared_handwritten {path text : Text} (h : g.existing.get path = some text)
    (hhand : g.isHandwritten (path, text) = true) :
    g.prepared.get path = if g.rewriting (path, text) ≠ text then
      some (g.barrelEntry (path, text)).2 else none := by
  rw [prepared_eq hcolocated]
  exact (prepareBarrels_prepared g).handwritten path text (InsertionMap.get_eq_some_iff.1 h) hhand

/-- A prepared entry that is not handwritten is a built one. -/
theorem built_of_prepared {path : Text} {entry : SourceFileEntry}
    (h : g.prepared.get path = some entry) (hgenerated : entry.handwritten = false) :
    (∀ text, g.existing.get path = some text → g.isHandwritten (path, text) = false) ∧
      ∃ built, g.files.get path = some built ∧ built.source = entry.source := by
  have hnot : ∀ text, g.existing.get path = some text →
      g.isHandwritten (path, text) = false := by
    intro text hexisting
    cases hhand : g.isHandwritten (path, text) with
    | false => rfl
    | true =>
        rw [get_prepared_handwritten hcolocated hexisting hhand] at h
        split at h
        · rw [← Option.some.inj h] at hgenerated
          cases hgenerated
        · cases h
  refine ⟨hnot, ?_⟩
  by_cases hplain : ∀ text, g.existing.get path = some text → isBarrel path = false
  · rw [get_prepared_plain hcolocated hplain] at h
    exact ⟨entry, h, rfl⟩
  · simp only [not_forall] at hplain
    obtain ⟨text, hexisting, hbarrel⟩ := hplain
    have hbarrel' : isBarrel path = true := by simpa using hbarrel
    have howned : owned g.host text = true := by
      have := hnot text hexisting
      simpa [isHandwritten, hbarrel'] using this
    rw [get_prepared_owned hcolocated hexisting hbarrel' howned] at h
    obtain ⟨built, hbuilt, rfl⟩ := Option.map_eq_some_iff.1 h
    exact ⟨built, hbuilt, rfl⟩

end Prepared

/-! ### What a run leaves behind -/

/-- A run that succeeds: all is published, what is obsolete is removed, and the metadata module is
published last. -/
structure Succeeded (g : Generation) (p q : Publication) : Prop where
  accepted : ¬ Refused g
  published : Published g g.prepared.entries ⟨g.tree, [], none⟩ p g.prepared.entries []
  removed : Removed g g.existing.entries p q
  run : g.run = g.publishMetadata q

theorem succeeded (h : g.run.error = none) : ∃ p q, Succeeded g p q := by
  have haccepted : ¬ Refused g := by
    intro hrefused
    have := (run_refused hrefused).2
    rw [h] at this
    cases this
  obtain ⟨p, done, rest, hran⟩ := run_ran haccepted
  rcases hran.ending with ⟨rfl, q, hremoved, hrun⟩ | ⟨hrest, hrun⟩
  · have hdone : done = g.prepared.entries := by
      rw [hran.published.split, List.append_nil]
    subst hdone
    exact ⟨p, q, haccepted, hran.published, hremoved, hrun⟩
  · rcases hran.published.ending with ⟨hnil, -⟩ | ⟨_, _, _, -, -, -, herror⟩
    · exact absurd hnil hrest
    · rw [hrun, herror] at h
      cases h

/-- The metadata module replaces no file the generator owns. -/
theorem publishMetadata_owned {q : Publication} {path text : Text}
    (hrun : (g.publishMetadata q).error = none) (hget : q.tree.get path = some text)
    (howned : owned g.host text = true) : (g.publishMetadata q).tree.get path = some text := by
  by_cases hpath : g.metadataPath = some path
  · have hmetadata : metadataOwned g.host text = false := by
      cases hheader : metadataOwned g.host text with
      | false => rfl
      | true =>
          unfold metadataOwned at hheader
          simp only [Bool.and_eq_true, List.isPrefixOf_iff_prefix] at hheader
          exact absurd (marker_of_owned howned)
            (g.notice_ne_marker text ((List.prefix_append _ _).trans hheader.1))
    unfold publishMetadata at hrun ⊢
    rw [hpath] at hrun ⊢
    dsimp only at hrun ⊢
    rw [hget] at hrun ⊢
    by_cases hempty : g.metadata = []
    · rw [if_pos hempty]
      exact hget
    · rw [if_neg hempty] at hrun
      simp [hmetadata] at hrun
  · rw [(publishMetadata_get q path).1 hpath, hget]

/-- The metadata module stands where it is published. -/
theorem publishMetadata_stamped {q : Publication} {path : Text}
    (hrun : (g.publishMetadata q).error = none) (hpath : g.metadataPath = some path)
    (hmetadata : g.metadata ≠ []) :
    (g.publishMetadata q).tree.get path = some g.stamped := by
  unfold publishMetadata at hrun ⊢
  rw [hpath] at hrun ⊢
  dsimp only at hrun ⊢
  rw [if_neg hmetadata] at hrun ⊢
  split at hrun
  · cases hrun
  · rename_i hany
    rw [if_neg hany]
    split
    · rename_i hsame
      exact hsame
    · exact InsertionMap.get_set_self _ _ _

theorem publishMetadata_empty {q : Publication} (hmetadata : g.metadata = []) :
    g.publishMetadata q = q := by
  unfold publishMetadata
  rw [hmetadata]
  cases g.metadataPath <;> rfl

namespace Succeeded

variable {p q : Publication} (h : Succeeded g p q)

include h

theorem prepared_get {path : Text} {entry : SourceFileEntry}
    (hprepared : g.prepared.get path = some entry) :
    q.tree.get path = some (g.published entry (g.existing.get path)) := by
  have hmem := InsertionMap.get_eq_some_iff.1 hprepared
  rw [h.removed.kept path fun text _ => by simp [obsolete, hprepared]]
  exact h.published.published (path, entry) hmem

theorem unprepared_get {path : Text} (hprepared : g.prepared.get path = none)
    (hobsolete : ∀ text, g.existing.get path = some text → g.obsolete path text = false) :
    q.tree.get path = g.tree.get path := by
  rw [h.removed.kept path fun text hmem =>
    hobsolete text (InsertionMap.get_eq_some_iff.2 hmem)]
  exact h.published.untouched path (InsertionMap.get_eq_none_iff.1 hprepared)

theorem obsolete_get {path text : Text} (hexisting : g.existing.get path = some text)
    (hobsolete : g.obsolete path text = true) : q.tree.get path = none :=
  h.removed.removed path text (InsertionMap.get_eq_some_iff.1 hexisting) hobsolete

end Succeeded

end Arc.ProxyGenerator.Generation
