import Arc.ProxyGenerator.PublishedFiles

/-!
# What a generation does to files that are not its own

A generation replaces and deletes files it owns, and rewrites barrels it does not own. What it
owes to the second kind is that only the references to the files it deletes are gone. A barrel
is rewritten from its lines that are not blank, with one line end after the last of them, so
that it keeps its other lines exactly when one empty line at the end is its only blank line.
-/

namespace Arc.ProxyGenerator.Generation

variable {g : Generation}

/-! ### Lines -/

theorem unlines_lines (text : Text) : unlines (lines text) = text :=
  List.intercalate_splitOn '\n'

theorem not_mem_of_mem_lines {text line : Text} (h : line ∈ lines text) : '\n' ∉ line := by
  unfold lines at h
  induction text generalizing line with
  | nil =>
      rw [List.splitOn_nil, List.mem_singleton] at h
      simp [h]
  | cons c text ih =>
      rw [List.splitOn_cons_eq_if_modifyHead] at h
      split at h
      · rcases List.mem_cons.1 h with rfl | h
        · simp
        · exact ih h
      · rename_i hc
        cases hsplit : text.splitOn '\n' with
        | nil => exact absurd hsplit (List.splitOn_ne_nil _ _)
        | cons first rest =>
            rw [hsplit] at h ih
            rcases List.mem_cons.1 h with rfl | h
            · have hfirst := ih List.mem_cons_self
              simp only [List.mem_cons, not_or]
              exact ⟨fun heq => hc (by simpa using heq.symm), hfirst⟩
            · exact ih (List.mem_cons_of_mem _ h)

theorem lines_unlines {ls : List Text} (hls : ∀ line ∈ ls, '\n' ∉ line) (hne : ls ≠ []) :
    lines (unlines ls) = ls :=
  List.splitOn_intercalate '\n' hls hne

/-- The lines of a text that ends its last line. -/
def terminated (ls : List Text) : List Text := if ls = [] then [[], []] else ls ++ [[]]

theorem unlines_concat_nil {ls : List Text} (hne : ls ≠ []) :
    unlines (ls ++ [[]]) = unlines ls ++ ['\n'] := by
  unfold unlines
  induction ls with
  | nil => exact absurd rfl hne
  | cons line ls ih =>
      cases ls with
      | nil => simp [List.intercalate_cons_cons]
      | cons next ls =>
          rw [List.cons_append, List.intercalate_cons_of_ne_nil (by simp), ih (by simp),
            List.intercalate_cons_cons]
          simp

theorem unlines_terminated (ls : List Text) : unlines (terminated ls) = unlines ls ++ ['\n'] := by
  unfold terminated
  split
  · rename_i h
    subst h
    rfl
  · rename_i h
    exact unlines_concat_nil h

/-- Lines are told apart by the text they make, apart from having none. -/
theorem unlines_eq_terminated_iff {ls kept : List Text} (hls : ∀ line ∈ ls, '\n' ∉ line)
    (hkept : ∀ line ∈ kept, '\n' ∉ line) :
    unlines kept = unlines (terminated ls) ↔ kept = terminated ls := by
  have hclean : ∀ line ∈ terminated ls, '\n' ∉ line := by
    unfold terminated
    split
    · simp
    · intro line hmem
      rcases List.mem_append.1 hmem with hmem | hmem
      · exact hls line hmem
      · rw [List.mem_singleton.1 hmem]
        simp
  have hne : terminated ls ≠ [] := by
    unfold terminated
    split
    · simp
    · simp
  constructor
  · intro h
    by_cases hempty : kept = []
    · subst hempty
      rw [unlines_terminated] at h
      simp [unlines] at h
    · rw [← lines_unlines hkept hempty, h, lines_unlines hclean hne]
  · intro h
    rw [h]

/-! ### The prepared files -/

theorem prepareBarrels_prepared (g : Generation) :
    Prepared g g.existing.entries g.prepareBarrels := by
  have hfold : ∀ rest done files, Prepared g done files → done ++ rest = g.existing.entries →
      Prepared g g.existing.entries (rest.foldl g.prepareBarrel files) := by
    intro rest
    induction rest with
    | nil =>
        intro done files h hall
        rw [List.append_nil] at hall
        rw [← hall]
        exact h
    | cons file rest ih =>
        intro done files h hall
        have hnodup := g.existing.nodup_keys
        rw [← hall, List.map_append, List.nodup_append] at hnodup
        have hfresh : file.1 ∉ done.map Prod.fst := fun hmem =>
          hnodup.2.2 file.1 hmem file.1 List.mem_cons_self rfl
        have hdone : ∀ file ∈ done, file ∈ g.existing.entries := by
          intro file' hfile
          rw [← hall]
          exact List.mem_append_left _ hfile
        refine ih (done ++ [file]) _ (h.prepareBarrel hdone hfresh) ?_
        rw [List.append_assoc, List.singleton_append, hall]
  exact hfold g.existing.entries [] g.files (prepared_nil g) (List.nil_append _)

/-- A path without two dots does not lead out of the output. -/
theorem inside_of_plain {path : Text} (h : dotted path = false) : inside path = true := by
  unfold inside
  rw [Bool.not_eq_true']
  by_contra hbegins
  rw [Bool.not_eq_false, List.isPrefixOf_iff_prefix] at hbegins
  have hdots : ['.', '.'] <:+: path := by
    obtain ⟨rest, rfl⟩ := hbegins
    exact ⟨[], '/' :: rest, rfl⟩
  unfold dotted at h
  simp [hdots] at h

theorem rendered_existing {path : Text} (h : path ∈ g.files.keys) :
    g.existing.get path = g.tree.get path := by
  rw [get_existing, inside_of_plain (g.plain path h), g.typeScript path h]
  rfl

/-- A prepared file that does not exist is a rendered one. -/
theorem rendered_of_prepared {path : Text} {entry : SourceFileEntry}
    (h : g.prepared.get path = some entry)
    (hnot : ∀ text, g.existing.get path = some text → g.isHandwritten (path, text) = false) :
    path ∈ g.files.keys := by
  unfold prepared at h
  split at h
  · exact InsertionMap.mem_keys_iff.2 ⟨entry, h⟩
  · have hkept := (prepareBarrels_prepared g).kept path fun text hmem =>
      hnot text (InsertionMap.get_eq_some_iff.2 hmem)
    rw [h] at hkept
    cases hrendered : g.files.get path with
    | none =>
        rw [hrendered] at hkept
        cases hkept
    | some entry' => exact InsertionMap.mem_keys_iff.2 ⟨entry', hrendered⟩

theorem prepared_existing {path : Text} {entry : SourceFileEntry}
    (h : g.prepared.get path = some entry) : g.tree.get path = g.existing.get path := by
  cases hexists : g.existing.get path with
  | some text => exact get_tree hexists
  | none =>
      rw [← rendered_existing (rendered_of_prepared h fun text htext => by
        rw [hexists] at htext
        cases htext), hexists]

/-- What is prepared as handwritten is a handwritten barrel that changes. -/
theorem mem_changedBarrels {path : Text} {entry : SourceFileEntry}
    (h : (path, entry) ∈ g.prepared.entries) (hwritten : entry.handwritten = true) :
    g.colocated = false ∧ ∃ text, (path, text) ∈ g.changedBarrels g.existing.entries ∧
      (path, entry) = g.barrelEntry (path, text) := by
  unfold prepared at h
  split at h
  · have hfalse := g.generated path entry (InsertionMap.get_eq_some_iff.2 h)
    rw [hwritten] at hfalse
    cases hfalse
  · rename_i hcolocated
    refine ⟨by simpa using hcolocated, ?_⟩
    have hmem : (path, entry) ∈
        g.prepareBarrels.entries.filter (fun file => file.2.handwritten) :=
      List.mem_filter.2 ⟨h, hwritten⟩
    rw [(prepareBarrels_prepared g).order] at hmem
    obtain ⟨⟨path', text⟩, hchanged, heq⟩ := List.mem_map.1 hmem
    obtain rfl : path' = path := congrArg Prod.fst heq
    exact ⟨text, hchanged, heq.symm⟩

theorem changed_iff {path text : Text} :
    (path, text) ∈ g.changedBarrels g.existing.entries ↔ g.existing.get path = some text ∧
      g.isHandwritten (path, text) = true ∧ g.rewriting (path, text) ≠ text := by
  unfold changedBarrels
  rw [List.mem_filter, InsertionMap.get_eq_some_iff]
  simp

/-- What is prepared with two dots in its path is a handwritten barrel. -/
theorem handwritten_of_dotted {path : Text} {entry : SourceFileEntry}
    (h : (path, entry) ∈ g.prepared.entries) (hdotted : dotted path = true) :
    entry.handwritten = true := by
  cases hwritten : entry.handwritten with
  | true => rfl
  | false =>
      have hget := InsertionMap.get_eq_some_iff.2 h
      have hrendered : path ∈ g.files.keys := by
        refine rendered_of_prepared hget fun text htext => ?_
        cases hhand : g.isHandwritten (path, text) with
        | false => rfl
        | true =>
            unfold prepared at hget
            split at hget
            · rename_i hcolocated
              have hkeys := InsertionMap.mem_keys_iff.2 ⟨entry, hget⟩
              have hbarrel := g.unbarrelled hcolocated path hkeys
              simp [isHandwritten, hbarrel] at hhand
            · rw [(prepareBarrels_prepared g).handwritten path text
                (InsertionMap.get_eq_some_iff.1 htext) hhand] at hget
              split at hget
              · rw [← Option.some.inj hget] at hwritten
                cases hwritten
              · cases hget
      rw [g.plain path hrendered] at hdotted
      cases hdotted

/-! ### The run -/

/-- The preflight refuses: nothing is published. -/
def Refused (g : Generation) : Prop := g.symlink.isSome ∨ g.verifyOwnership.isSome

theorem run_refused (h : Refused g) : g.run.tree = g.tree ∧ g.run.error.isSome := by
  unfold run
  cases hsymlink : g.symlink with
  | some path => exact ⟨rfl, rfl⟩
  | none =>
      cases hverify : g.verifyOwnership with
      | some error => exact ⟨rfl, rfl⟩
      | none => simp [Refused, hsymlink, hverify] at h

/-- The stages of a run that was not refused, with what the first one published. -/
structure Ran (g : Generation) (p : Publication) (done rest : List (Text × SourceFileEntry)) :
    Prop where
  published : Published g g.prepared.entries ⟨g.tree, [], none⟩ p done rest
  ending : (rest = [] ∧ ∃ q, Removed g g.existing.entries p q ∧ g.run = g.publishMetadata q) ∨
    (rest ≠ [] ∧ g.run = p)

theorem run_ran (h : ¬ Refused g) : ∃ p done rest, Ran g p done rest := by
  unfold Refused at h
  rw [not_or, Option.not_isSome_iff_eq_none, Option.not_isSome_iff_eq_none] at h
  obtain ⟨hsymlink, hverify⟩ := h
  have hrun : g.run = andThen (andThen (g.publishFiles g.prepared.entries ⟨g.tree, [], none⟩)
      (g.removeFiles g.existing.entries)) g.publishMetadata := by
    unfold run
    rw [hsymlink, hverify]
  obtain ⟨done, rest, hpublished⟩ := @publishFiles_published g g.prepared.entries
    ⟨g.tree, [], none⟩ g.prepared.nodup_keys rfl
    fun file hfile => prepared_existing (InsertionMap.get_eq_some_iff.2 hfile)
  refine ⟨_, done, rest, hpublished, ?_⟩
  rcases hpublished.ending with ⟨hrest, herror⟩ | ⟨path, entry, after, hrest, -, -, herror⟩
  · -- every file was published: none of those to delete was among them
    have hremoved := @removeFiles_removed g g.existing.entries _ g.existing.nodup_keys herror (by
        intro path text hmem hobsolete
        have hnone : (g.prepared.get path).isNone = true := by
          unfold obsolete at hobsolete
          simp only [Bool.and_eq_true] at hobsolete
          exact hobsolete.1.2
        have hout : path ∉ done.map Prod.fst := by
          intro hin
          rw [Option.isNone_iff_eq_none, InsertionMap.get_eq_none_iff] at hnone
          refine hnone ?_
          unfold InsertionMap.keys
          rw [hpublished.split, List.map_append]
          exact List.mem_append_left _ hin
        rw [hpublished.untouched path hout]
        exact get_tree (InsertionMap.get_eq_some_iff.2 hmem))
    refine Or.inl ⟨hrest, _, hremoved, ?_⟩
    rw [hrun, andThen, andThen, herror]
    simp only [Option.isSome_none, Bool.false_eq_true, if_false]
    rw [hremoved.error]
    simp
  · refine Or.inr ⟨by rw [hrest]; simp, ?_⟩
    rw [hrun, andThen, andThen, herror]
    simp [herror]

namespace Ran

variable {p : Publication} {done rest : List (Text × SourceFileEntry)}

/-- What was published is still there, and so is what was not touched. -/
theorem isSome_get (h : Ran g p done rest) {path text : Text} (hget : g.tree.get path = some text) :
    ∃ text', p.tree.get path = some text' := by
  by_cases hin : path ∈ done.map Prod.fst
  · obtain ⟨file, hfile, rfl⟩ := List.mem_map.1 hin
    exact ⟨_, h.published.published file hfile⟩
  · exact ⟨text, (h.published.untouched path hin).trans hget⟩

/-- What the publication of the files changed was owned, or is a barrel that was not. -/
theorem replaced (h : Ran g p done rest) (hnot : ¬ Refused g) {path text text' : Text}
    (hget : g.tree.get path = some text) (hget' : p.tree.get path = some text')
    (hne : text' ≠ text) :
    owned g.host text = true ∨
      g.isHandwritten (path, text) = true ∧ ¬ marker <+: text := by
  by_cases hin : path ∈ done.map Prod.fst
  · obtain ⟨⟨path, entry⟩, hfile, rfl⟩ := List.mem_map.1 hin
    have hmem : (path, entry) ∈ g.prepared.entries := by
      rw [h.published.split]
      exact List.mem_append_left _ hfile
    have hprepared := InsertionMap.get_eq_some_iff.2 hmem
    have hexisting : g.existing.get path = some text :=
      (prepared_existing hprepared).symm.trans hget
    have hrefuse : g.refuse path text = none := by
      unfold Refused at hnot
      rw [not_or, Option.not_isSome_iff_eq_none, Option.not_isSome_iff_eq_none] at hnot
      exact List.findSome?_eq_none_iff.1 hnot.2 (path, text)
        (InsertionMap.get_eq_some_iff.1 hexisting)
    cases howned : owned g.host text with
    | true => exact Or.inl rfl
    | false =>
        refine Or.inr ?_
        cases hbarrel : isBarrel path with
        | true =>
            refine ⟨by simp [isHandwritten, hbarrel, howned], fun hmarker => ?_⟩
            unfold refuse at hrefuse
            simp [hbarrel, howned, List.isPrefixOf_iff_prefix.2 hmarker] at hrefuse
        | false =>
            have hkeys : path ∈ g.files.keys := by
              refine rendered_of_prepared hprepared fun text' _ => ?_
              simp [isHandwritten, hbarrel]
            obtain ⟨entry', hentry⟩ := InsertionMap.mem_keys_iff.1 hkeys
            unfold refuse at hrefuse
            simp [hbarrel, howned, hentry, bodyHash] at hrefuse
  · rw [h.published.untouched path hin] at hget'
    exact absurd (Option.some.inj (hget'.symm.trans hget)) hne

end Ran

/-! ### What is owed to handwritten files -/

/-- A handwritten `index.ts` of the output; the metadata module is none. -/
structure HandwrittenBarrel (g : Generation) (path text : Text) : Prop where
  existing : g.existing.get path = some text
  handwritten : g.isHandwritten (path, text) = true
  not_metadata : g.metadataPath ≠ some path

/-- An existing file that would be overwritten or deleted is an edited generated file, or one
that is not owned stands at a path to be generated. -/
def Refusable (g : Generation) : Prop :=
  ∃ path text, g.existing.get path = some text ∧ owned g.host text = false ∧
    ((marker <+: text ∧ (path ∈ g.files.keys ∨ g.skipOutputDeletion = false)) ∨
      (path ∈ g.files.keys ∧ isBarrel path = false))

/-- A line refers to an owned file that the run deletes. -/
def deletes (g : Generation) (path line : Text) : Bool :=
  match exportOf line with
  | none => false
  | some target =>
      (g.existing.get (exported path target)).any (owned g.host) &&
        (g.run.tree.get (exported path target)).isNone

/-- A generation never destroys handwritten content. -/
structure KeepsHandwritten (g : Generation) : Prop where
  /-- It fails before anything changes. -/
  refuses : Refusable g → g.run.error.isSome ∧ g.run.tree = g.tree
  /-- What is removed was owned. -/
  removes : ∀ path text, g.tree.get path = some text → g.run.tree.get path = none →
    owned g.host text = true
  /-- What is replaced was owned, is a handwritten barrel, or is the metadata module. -/
  replaces : ∀ path text text', g.tree.get path = some text → g.run.tree.get path = some text' →
    text' ≠ text → owned g.host text = true ∨
      g.isHandwritten (path, text) = true ∧ ¬ marker <+: text ∨
      g.metadataPath = some path ∧ metadataOwned g.host text = true
  /-- A handwritten barrel keeps its lines, but for the references to files the run deletes. -/
  barrels : ∀ path text, HandwrittenBarrel g path text →
    g.run.tree.get path = some (unlines ((lines text).filter fun line => !g.deletes path line))

/-- The lines of a handwritten barrel without the references to files that are deleted. -/
def retained (g : Generation) (path text : Text) : List Text :=
  (lines text).filter fun line => !g.dropped path line

/-- The only blank line is an empty one at the end. -/
def Terminated (ls : List Text) : Prop := ls = terminated (ls.filter fun line => !(blank line))

/-- When handwritten barrels are kept: nothing is published; among backend artifacts, no barrel
refers to a deleted file; a path with two dots stops the publication before any barrel is
rewritten; and otherwise every barrel, without its dropped lines, is terminated. -/
def Kept (g : Generation) : Prop :=
  Refused g ∨
    if g.colocated then
      ∀ path text, HandwrittenBarrel g path text →
        ∀ line ∈ lines text, g.dropped path line = false
    else if ∃ file ∈ g.changedBarrels g.existing.entries, dotted file.1 = true then
      ∀ file ∈ (g.changedBarrels g.existing.entries).takeWhile fun file => !dotted file.1,
        g.metadataPath = some file.1
    else
      ∀ path text, HandwrittenBarrel g path text → Terminated (g.retained path text)

theorem refuses_refusable (h : Refusable g) : Refused g := by
  obtain ⟨path, text, hget, howned, hcase⟩ := h
  refine Or.inr ?_
  have hmem := InsertionMap.get_eq_some_iff.1 hget
  have hrefuse : (g.refuse path text).isSome := by
    unfold refuse
    rcases hcase with ⟨hmarker, hcase⟩ | ⟨hkeys, hbarrel⟩
    · have hbegins := List.isPrefixOf_iff_prefix.2 hmarker
      cases hbarrel : isBarrel path with
      | true => simp [hbegins, howned]
      | false =>
          cases hfile : g.files.get path with
          | some entry => simp [howned, bodyHash]
          | none =>
              rcases hcase with hkeys | hskip
              · exact absurd hkeys (InsertionMap.get_eq_none_iff.1 hfile)
              · simp [hskip, hbegins, howned]
    · obtain ⟨entry, hentry⟩ := InsertionMap.mem_keys_iff.1 hkeys
      simp [hbarrel, howned, hentry, bodyHash]
  unfold verifyOwnership
  rw [List.findSome?_isSome_iff]
  exact ⟨(path, text), hmem, hrefuse⟩

theorem firstLine_eq {text line rest : Text} (h : firstLine text = some (line, rest)) :
    text = line ++ '\n' :: rest := by
  induction text generalizing line with
  | nil => cases h
  | cons c text ih =>
      unfold firstLine at h
      split at h
      · rename_i hc
        subst hc
        cases h
        rfl
      · obtain ⟨⟨line', rest'⟩, hline, heq⟩ := Option.map_eq_some_iff.1 h
        cases heq
        rw [ih hline]
        rfl

theorem marker_of_owned {text : Text} (h : owned g.host text = true) : marker <+: text := by
  unfold owned at h
  split at h
  · rename_i line rest hline
    simp only [Bool.and_eq_true, List.isPrefixOf_iff_prefix] at h
    rw [firstLine_eq hline]
    exact h.1.2.trans (List.prefix_append _ _)
  · cases h

/-- An owned file is not the metadata module. -/
theorem not_metadata_of_owned {path text : Text} (hget : g.tree.get path = some text)
    (howned : owned g.host text = true) : g.metadataPath ≠ some path := by
  intro hmetadata
  have hheader := g.metadata_owned path text hmetadata hget
  unfold metadataOwned at hheader
  simp only [Bool.and_eq_true, List.isPrefixOf_iff_prefix] at hheader
  exact g.notice_ne_marker text ((List.prefix_append _ _).trans hheader.1) (marker_of_owned howned)

theorem owned_of_obsolete {path text : Text} (h : g.obsolete path text = true) :
    owned g.host text = true := by
  unfold obsolete at h
  simp only [Bool.and_eq_true] at h
  exact h.2

/-- What is removed was owned. -/
theorem removes_owned {path text : Text} (hget : g.tree.get path = some text)
    (hnone : g.run.tree.get path = none) : owned g.host text = true := by
  by_cases hrefused : Refused g
  · rw [(run_refused hrefused).1, hget] at hnone
    cases hnone
  · obtain ⟨p, done, rest, hran⟩ := run_ran hrefused
    obtain ⟨text', hget'⟩ := hran.isSome_get hget
    rcases hran.ending with ⟨-, q, hremoved, hrun⟩ | ⟨-, hrun⟩
    · rw [hrun] at hnone
      have hq := (publishMetadata_get q path).2 hnone
      by_contra hforeign
      have hkept := hremoved.kept path fun text'' hmem => by
        have hsame := get_tree (InsertionMap.get_eq_some_iff.2 hmem)
        rw [hget] at hsame
        obtain rfl := Option.some.inj hsame
        cases hobsolete : g.obsolete path text with
        | false => rfl
        | true => exact absurd (owned_of_obsolete hobsolete) hforeign
      rw [hq, hget'] at hkept
      cases hkept
    · rw [hrun, hget'] at hnone
      cases hnone

/-- What is replaced was owned, is a handwritten barrel, or is the metadata module. -/
theorem replaces_owned {path text text' : Text} (hget : g.tree.get path = some text)
    (hget' : g.run.tree.get path = some text') (hne : text' ≠ text) :
    owned g.host text = true ∨ g.isHandwritten (path, text) = true ∧ ¬ marker <+: text ∨
      g.metadataPath = some path ∧ metadataOwned g.host text = true := by
  by_cases hmetadata : g.metadataPath = some path
  · exact Or.inr (Or.inr ⟨hmetadata, g.metadata_owned path text hmetadata hget⟩)
  · by_cases hrefused : Refused g
    · rw [(run_refused hrefused).1, hget] at hget'
      exact absurd (Option.some.inj hget').symm hne
    · obtain ⟨p, done, rest, hran⟩ := run_ran hrefused
      have hp : p.tree.get path = some text' := by
        rcases hran.ending with ⟨-, q, hremoved, hrun⟩ | ⟨-, hrun⟩
        · rw [hrun, (publishMetadata_get q path).1 hmetadata] at hget'
          by_contra hp
          rw [← hget'] at hp
          refine hp (hremoved.kept path fun text'' hmem => ?_).symm
          cases hobsolete : g.obsolete path text'' with
          | false => rfl
          | true =>
              rw [hremoved.removed path text'' hmem hobsolete] at hget'
              cases hget'
        · rw [hrun] at hget'
          exact hget'
      exact (hran.replaced hrefused hget hp hne).imp_right Or.inl

/-! ### Barrels -/

/-- The promise to the handwritten barrels. -/
def BarrelsKept (g : Generation) : Prop :=
  ∀ path text, HandwrittenBarrel g path text →
    g.run.tree.get path = some (unlines ((lines text).filter fun line => !g.deletes path line))

/-- A run that deletes nothing that was there owes every barrel its text. -/
theorem owed_of_kept (hkept : ∀ path text, g.existing.get path = some text →
    g.run.tree.get path ≠ none) (path text : Text) :
    unlines ((lines text).filter fun line => !g.deletes path line) = text := by
  have hall : (lines text).filter (fun line => !g.deletes path line) = lines text := by
    refine List.filter_eq_self.2 fun line _ => ?_
    unfold deletes
    cases hexport : exportOf line with
    | none => rfl
    | some target =>
        dsimp only
        cases hget : g.existing.get (exported path target) with
        | none => rfl
        | some text' =>
            have hsome := Option.ne_none_iff_isSome.1 (hkept _ text' hget)
            rw [Option.isNone_eq_false_iff.2 hsome]
            simp
  rw [hall, unlines_lines]

theorem barrelsKept_refused (h : Refused g) : BarrelsKept g := by
  intro path text hbarrel
  have htree := (run_refused h).1
  rw [owed_of_kept, htree]
  · exact get_tree hbarrel.existing
  · intro path' text' hget
    rw [htree, get_tree hget]
    simp

namespace Ran

variable {p : Publication} {done rest : List (Text × SourceFileEntry)}

/-- A barrel that is published has a plain path. -/
theorem plain_of_done (h : Ran g p done rest) {path : Text} {entry : SourceFileEntry}
    (hmem : (path, entry) ∈ done) (hwritten : entry.handwritten = true) :
    dotted path = false := by
  cases hdotted : dotted path with
  | false => rfl
  | true =>
      have hprepared : (path, entry) ∈ g.prepared.entries := by
        rw [h.published.split]
        exact List.mem_append_left _ hmem
      obtain ⟨-, text, hchanged, heq⟩ := mem_changedBarrels hprepared hwritten
      obtain ⟨hexisting, -, hne⟩ := changed_iff.1 hchanged
      have hstands := h.published.plain _ hmem hdotted
      rw [hexisting, (Prod.mk.inj heq).2] at hstands
      exact absurd (Option.some.inj hstands).symm hne

/-- What is prepared for a handwritten barrel. -/
theorem prepared_barrel {path text : Text} (hcolocated : g.colocated = false)
    (hget : g.existing.get path = some text) (hhand : g.isHandwritten (path, text) = true) :
    g.prepared.get path = if g.rewriting (path, text) ≠ text then
      some (g.barrelEntry (path, text)).2 else none := by
  unfold prepared
  rw [hcolocated, if_neg Bool.false_ne_true]
  exact (prepareBarrels_prepared g).handwritten path text (InsertionMap.get_eq_some_iff.1 hget)
    hhand

/-- A stopped publication has rewritten the barrels before the first path with two dots. -/
theorem stopped (h : Ran g p done rest) (hrest : rest ≠ []) :
    g.colocated = false ∧
      (∃ file ∈ g.changedBarrels g.existing.entries, dotted file.1 = true) ∧
      done.filter (fun file => file.2.handwritten) =
        ((g.changedBarrels g.existing.entries).takeWhile fun file => !dotted file.1).map
          g.barrelEntry := by
  rcases h.published.ending with ⟨hnil, -⟩ | ⟨path, entry, after, heq, hdotted, -, -⟩
  · exact absurd hnil hrest
  · have hmem : (path, entry) ∈ g.prepared.entries := by
      rw [h.published.split, heq]
      simp
    have hwritten := handwritten_of_dotted hmem hdotted
    obtain ⟨hcolocated, text, hchanged, -⟩ := mem_changedBarrels hmem hwritten
    refine ⟨hcolocated, ⟨_, hchanged, hdotted⟩, ?_⟩
    have horder := (prepareBarrels_prepared g).order
    have hfirst : ((path, entry) :: after).filter (fun file => file.2.handwritten) =
        (path, entry) :: after.filter (fun file => file.2.handwritten) :=
      List.filter_cons_of_pos hwritten
    have hprepared : g.prepareBarrels = g.prepared := by
      unfold prepared
      rw [hcolocated, if_neg Bool.false_ne_true]
    rw [hprepared, h.published.split, heq, List.filter_append, hfirst] at horder
    have htake := congrArg (List.takeWhile fun file => !dotted file.1) horder
    rw [List.takeWhile_map] at htake
    refine Eq.trans ?_ htake
    rw [List.takeWhile_append_of_pos]
    · rw [List.takeWhile_cons_of_neg (by simp [hdotted]), List.append_nil]
    · intro file hfile
      obtain ⟨hdone, hhand⟩ := List.mem_filter.1 hfile
      rw [h.plain_of_done hdone hhand]
      rfl

theorem barrelsKept_stopped (h : Ran g p done rest) (hrest : rest ≠ []) (hrun : g.run = p) :
    BarrelsKept g ↔
      ∀ file ∈ (g.changedBarrels g.existing.entries).takeWhile fun file => !dotted file.1,
        g.metadataPath = some file.1 := by
  obtain ⟨hcolocated, -, hdone⟩ := h.stopped hrest
  have howed : ∀ path text,
      unlines ((lines text).filter fun line => !g.deletes path line) = text := by
    refine owed_of_kept fun path text hget => ?_
    obtain ⟨text', hget'⟩ := h.isSome_get (get_tree hget)
    rw [hrun, hget']
    simp
  constructor
  · rintro hkept ⟨path, text⟩ hfile
    by_contra hmetadata
    obtain ⟨hexisting, hhand, hne⟩ := changed_iff.1 ((List.takeWhile_sublist _).subset hfile)
    have hread := hkept path text ⟨hexisting, hhand, hmetadata⟩
    have hmem : g.barrelEntry (path, text) ∈ done := by
      have hin := List.mem_map_of_mem (f := g.barrelEntry) hfile
      rw [← hdone] at hin
      exact (List.mem_filter.1 hin).1
    have hwritten := h.published.published _ hmem
    rw [howed, hrun] at hread
    exact hne (Option.some.inj (hwritten.symm.trans hread))
  · intro hmetadata path text hbarrel
    rw [howed, hrun]
    refine (h.published.untouched path fun hin => ?_).trans (get_tree hbarrel.existing)
    obtain ⟨⟨path', entry⟩, hfile, heq⟩ := List.mem_map.1 hin
    obtain rfl : path' = path := heq
    have hprepared : g.prepared.get path' = some entry := by
      rw [InsertionMap.get_eq_some_iff, h.published.split]
      exact List.mem_append_left _ hfile
    rw [prepared_barrel hcolocated hbarrel.existing hbarrel.handwritten] at hprepared
    split at hprepared
    · have hentry := Option.some.inj hprepared
      have hfilter : (path', entry) ∈ done.filter (fun file => file.2.handwritten) :=
        List.mem_filter.2 ⟨hfile, by rw [← hentry]; rfl⟩
      rw [hdone] at hfilter
      obtain ⟨file, htaken, hsame⟩ := List.mem_map.1 hfilter
      have hpath := hmetadata file htaken
      rw [show file.1 = path' from congrArg Prod.fst hsame] at hpath
      exact hbarrel.not_metadata hpath
    · cases hprepared

/-- A finished run deletes what the lines it drops refer to. -/
theorem deletes_finished (h : Ran g p done rest) {q : Publication}
    (hremoved : Removed g g.existing.entries p q) (hrun : g.run = g.publishMetadata q)
    (path line : Text) : g.deletes path line = g.dropped path line := by
  unfold deletes dropped
  cases hexport : exportOf line with
  | none => rfl
  | some target =>
      dsimp only
      cases hget : g.existing.get (exported path target) with
      | none => simp [owned, firstLine]
      | some text =>
          cases howned : owned g.host text with
          | false => simp [howned]
          | true =>
              have hmetadata := not_metadata_of_owned (get_tree hget) howned
              have hfiles : (g.prepared.get (exported path target)).isNone =
                  (g.files.get (exported path target)).isNone := by
                unfold prepared
                split
                · rfl
                · refine (prepareBarrels_prepared g).isNone (fun _ => id) ?_
                  rw [hget]
                  exact howned
              have hmem := InsertionMap.get_eq_some_iff.1 hget
              have hobsolete : g.obsolete (exported path target) text =
                  (!g.skipOutputDeletion && (g.files.get (exported path target)).isNone) := by
                unfold obsolete
                rw [hfiles, howned, Bool.and_true]
              rw [hrun, (publishMetadata_get q _).1 hmetadata]
              simp only [Option.any_some, Option.getD_some, howned, Bool.true_and, Bool.and_true]
              rw [← hobsolete]
              cases hcase : g.obsolete (exported path target) text with
              | true =>
                  rw [hremoved.removed _ text hmem hcase]
                  rfl
              | false =>
                  obtain ⟨text', hget'⟩ := h.isSome_get (get_tree hget)
                  rw [hremoved.kept _ fun text'' hmem' => ?_, hget']
                  · rfl
                  · rw [InsertionMap.entries_functional _ hmem' hmem]
                    exact hcase

/-- What a finished run leaves of a handwritten barrel. -/
theorem barrel_finished (h : Ran g p done rest) (hrest : rest = []) {q : Publication}
    (hremoved : Removed g g.existing.entries p q) (hrun : g.run = g.publishMetadata q)
    {path text : Text} (hbarrel : HandwrittenBarrel g path text) :
    g.run.tree.get path =
      some (if g.colocated then text else g.rewriting (path, text)) := by
  have hforeign : owned g.host text = false := by
    have hhand := hbarrel.handwritten
    unfold isHandwritten at hhand
    simpa using (Bool.and_eq_true_iff.1 hhand).2
  have hname : isBarrel path = true := by
    have hhand := hbarrel.handwritten
    unfold isHandwritten at hhand
    exact (Bool.and_eq_true_iff.1 hhand).1
  rw [hrun, (publishMetadata_get q path).1 hbarrel.not_metadata,
    hremoved.kept path fun text' hmem => ?_]
  · have hsplit := h.published.split
    rw [hrest, List.append_nil] at hsplit
    have hout : g.prepared.get path = none → p.tree.get path = some text := by
      intro hnone
      refine (h.published.untouched path ?_).trans (get_tree hbarrel.existing)
      rw [← hsplit]
      exact InsertionMap.get_eq_none_iff.1 hnone
    cases hcolocated : g.colocated with
    | true =>
        rw [if_pos rfl]
        refine hout ?_
        unfold prepared
        rw [hcolocated, if_pos rfl, InsertionMap.get_eq_none_iff]
        intro hkeys
        rw [g.unbarrelled hcolocated path hkeys] at hname
        cases hname
    | false =>
        rw [if_neg Bool.false_ne_true]
        have hprepared := prepared_barrel hcolocated hbarrel.existing hbarrel.handwritten
        by_cases hchanged : g.rewriting (path, text) = text
        · rw [if_neg (not_not.2 hchanged)] at hprepared
          rw [hchanged]
          exact hout hprepared
        · rw [if_pos hchanged] at hprepared
          have hmem : g.barrelEntry (path, text) ∈ done := by
            rw [← hsplit]
            exact InsertionMap.get_eq_some_iff.1 hprepared
          exact h.published.published _ hmem
  · have hsame := get_tree (InsertionMap.get_eq_some_iff.2 hmem)
    rw [get_tree hbarrel.existing] at hsame
    obtain rfl := Option.some.inj hsame
    cases hobsolete : g.obsolete path text with
    | false => rfl
    | true =>
        rw [owned_of_obsolete hobsolete] at hforeign
        cases hforeign

end Ran

theorem dropped_nil (g : Generation) (path : Text) : g.dropped path [] = false := by
  have hexport : exportOf [] = none := by decide
  unfold dropped
  rw [hexport]

/-- A text is made of its lines only. -/
theorem unlines_retained_iff (g : Generation) (path text : Text) :
    unlines (g.retained path text) = text ↔ ∀ line ∈ lines text, g.dropped path line = false := by
  constructor
  · intro h
    have hlines : ∀ line ∈ g.retained path text, '\n' ∉ line := fun line hmem =>
      not_mem_of_mem_lines (List.mem_of_mem_filter hmem)
    have hsame : g.retained path text = lines text := by
      by_cases hempty : g.retained path text = []
      · -- an empty text has one line, which is no reference
        rw [hempty] at h
        obtain rfl : text = [] := h.symm
        have hmem : [] ∈ g.retained path [] := by
          refine List.mem_filter.2 ⟨?_, by rw [dropped_nil]; rfl⟩
          rw [lines, List.splitOn_nil]
          exact List.mem_singleton.2 rfl
        rw [hempty] at hmem
        cases hmem
      · rw [← lines_unlines hlines hempty, h]
    intro line hline
    rw [← hsame] at hline
    simpa using (List.mem_filter.1 hline).2
  · intro h
    have hall : g.retained path text = lines text :=
      List.filter_eq_self.2 fun line hline => by rw [h line hline]; rfl
    rw [hall, unlines_lines]

theorem rewriting_eq_iff (g : Generation) (path text : Text) :
    g.rewriting (path, text) = unlines (g.retained path text) ↔
      Terminated (g.retained path text) := by
  have hfilter : (g.retained path text).filter (fun line => !(blank line)) =
      (lines text).filter fun line => !g.dropped path line && !(blank line) := by
    unfold retained
    rw [List.filter_filter]
    exact List.filter_congr fun line _ => Bool.and_comm _ _
  unfold rewriting Terminated
  dsimp only
  rw [← hfilter, ← unlines_terminated, eq_comm]
  refine unlines_eq_terminated_iff (fun line hmem => ?_) fun line hmem => ?_
  · exact not_mem_of_mem_lines (List.mem_of_mem_filter (List.mem_of_mem_filter hmem))
  · exact not_mem_of_mem_lines (List.mem_of_mem_filter hmem)

/-- In a finished run the barrels with two dots in their paths stay as they are. -/
theorem Ran.plain_finished {p : Publication} {done rest : List (Text × SourceFileEntry)}
    (h : Ran g p done rest) (hrest : rest = []) (hcolocated : g.colocated = false) :
    ¬ ∃ file ∈ g.changedBarrels g.existing.entries, dotted file.1 = true := by
  rintro ⟨⟨path, text⟩, hchanged, hdotted⟩
  obtain ⟨hexisting, hhand, hne⟩ := changed_iff.1 hchanged
  have hprepared := prepared_barrel hcolocated hexisting hhand
  rw [if_pos hne] at hprepared
  have hmem : g.barrelEntry (path, text) ∈ done := by
    have hsplit := h.published.split
    rw [hrest, List.append_nil] at hsplit
    rw [← hsplit]
    exact InsertionMap.get_eq_some_iff.1 hprepared
  rw [h.plain_of_done hmem rfl] at hdotted
  cases hdotted

theorem barrelsKept_iff (g : Generation) : BarrelsKept g ↔ Kept g := by
  unfold Kept
  by_cases hrefused : Refused g
  · exact iff_of_true (barrelsKept_refused hrefused) (Or.inl hrefused)
  · rw [or_iff_right hrefused]
    obtain ⟨p, done, rest, hran⟩ := run_ran hrefused
    rcases hran.ending with ⟨hrest, q, hremoved, hrun⟩ | ⟨hrest, hrun⟩
    · have howed : ∀ path text,
          (lines text).filter (fun line => !g.deletes path line) = g.retained path text :=
        fun path text => List.filter_congr fun line _ => by
          rw [hran.deletes_finished hremoved hrun]
      have hleft := fun path text => @Ran.barrel_finished g p done rest hran hrest q hremoved hrun
        path text
      unfold BarrelsKept
      cases hcolocated : g.colocated with
      | true =>
          rw [if_pos rfl]
          refine forall_congr' fun path => forall_congr' fun text =>
            imp_congr_right fun hbarrel => ?_
          rw [howed, hleft path text hbarrel, hcolocated, if_pos rfl, Option.some.injEq, eq_comm,
            unlines_retained_iff]
      | false =>
          rw [if_neg Bool.false_ne_true, if_neg (hran.plain_finished hrest hcolocated)]
          refine forall_congr' fun path => forall_congr' fun text =>
            imp_congr_right fun hbarrel => ?_
          rw [howed, hleft path text hbarrel, hcolocated, if_neg Bool.false_ne_true,
            Option.some.injEq, rewriting_eq_iff]
    · obtain ⟨hcolocated, hdotted, -⟩ := hran.stopped hrest
      rw [hran.barrelsKept_stopped hrest hrun, hcolocated, if_neg Bool.false_ne_true,
        if_pos hdotted]

/-- A generation keeps handwritten content exactly when the barrels it rewrites have no blank
line but an empty one at the end, and the paths and the output are no obstacle to that. -/
theorem keepsHandwritten_iff (g : Generation) : KeepsHandwritten g ↔ Kept g := by
  constructor
  · intro h
    exact (barrelsKept_iff g).1 h.barrels
  · intro h
    exact
      { refuses := fun hrefusable =>
          (run_refused (refuses_refusable hrefusable)).symm
        removes := fun path text => removes_owned
        replaces := fun path text text' => replaces_owned
        barrels := (barrelsKept_iff g).2 h }

/-! ### A barrel with a blank line -/

/-- A handwritten barrel whose exports stand in two groups. -/
def groupedBarrel : Text := "export * from './a';\n\nexport * from './b';\n".toList

/-- A generation of nothing into an output that holds `groupedBarrel`. -/
def grouped : Generation where
  host := ⟨id, id, [], []⟩
  tree := InsertionMap.empty.set "index.ts".toList groupedBarrel
  symlink := none
  files := InsertionMap.empty
  skipOutputDeletion := false
  colocated := false
  metadataPath := none
  metadata := []
  generated := by simp
  typeScript := by simp [InsertionMap.keys]
  plain := by simp [InsertionMap.keys]
  unbarrelled := by simp
  metadata_owned := by simp
  notice_ne_marker := by
    intro text hheader hmarker
    rw [Host.metadataHeader, List.nil_append] at hheader
    have hlength : marker.length ≤ metadataMarker.length := by decide
    exact absurd (List.prefix_of_prefix_length_le hmarker hheader hlength) (by decide)

/-- No file is deleted, and yet the blank line of the barrel is gone. -/
theorem not_keepsHandwritten_grouped : ¬ KeepsHandwritten grouped := by
  intro h
  have hbarrel : HandwrittenBarrel grouped "index.ts".toList groupedBarrel :=
    ⟨by decide, by decide, by decide⟩
  exact absurd (h.barrels _ _ hbarrel) (by decide)

end Arc.ProxyGenerator.Generation
