import Arc.ProxyGenerator.PreparedTexts

/-!
# Generation converges

What it is for a generation to converge: each module is on disk, each barrel the generator owns
exports each module of its directory once and nothing that is missing, and another run changes
nothing. What a run leaves is said file by file, and a barrel line by line.
-/

namespace Arc.ProxyGenerator

/-! ### Contents -/

theorem firstLine_append {line : Text} (rest : Text) (hline : '\n' ∉ line) :
    firstLine (line ++ '\n' :: rest) = some (line, rest) := by
  induction line with
  | nil => rfl
  | cons c line ih =>
      rw [List.mem_cons, not_or] at hline
      rw [List.cons_append, firstLine, if_neg (Ne.symm hline.1), ih hline.2]
      rfl

theorem content_spec (host : Host) {source : Text} (text : Text) (hnow : '\n' ∉ host.now)
    (hdigest : ∀ text, '\n' ∉ host.digest text) (hsource : '\n' ∉ source) :
    owned host (content host source text) = true ∧
      body (content host source text) = text := by
  have hline : '\n' ∉ marker ++ source ++ ". Time: ".toList ++ host.now ++ ". Hash: ".toList ++
      host.digest text := by
    simp only [List.mem_append, not_or]
    refine ⟨⟨⟨⟨⟨by decide, hsource⟩, by decide⟩, hnow⟩, by decide⟩, hdigest text⟩
  have hprefix : marker <+: marker ++ source ++ ". Time: ".toList ++ host.now ++
      ". Hash: ".toList ++ host.digest text := by
    simp only [List.append_assoc]
    exact List.prefix_append _ _
  have hfirst := firstLine_append text hline
  constructor
  · unfold owned content
    rw [hfirst]
    simp only [Bool.and_eq_true, Bool.not_eq_true', List.isPrefixOf_iff_prefix,
      List.isSuffixOf_iff_suffix]
    refine ⟨⟨?_, hprefix⟩, ?_⟩
    · rw [List.isEmpty_eq_false_iff]
      intro hnil
      rw [hnil, List.prefix_nil] at hprefix
      exact absurd hprefix (by decide)
    · simp only [List.append_assoc]
      exact ⟨marker ++ (source ++ (". Time: ".toList ++ host.now)), by
        simp only [List.append_assoc]⟩
  · unfold body content
    rw [hfirst]

theorem bodyHash_of_owned {host : Host} {text : Text} (h : owned host text = true) :
    bodyHash host text = some (host.digest (body text)) := if_pos h

namespace Generation

variable {g : Generation}

/-- What the texts of a run and its hashes are taken to be: the headers are lines, no two of the
texts that are compared have one hash, and the metadata module begins with its own header. -/
structure Stamps (g : Generation) : Prop where
  now : '\n' ∉ g.host.now
  digest : ∀ text, '\n' ∉ g.host.digest text
  sources : ∀ path entry, g.files.get path = some entry → '\n' ∉ entry.source
  collisions : ∀ path previous entry, g.existing.get path = some previous →
    g.prepared.get path = some entry → owned g.host previous = true →
      g.host.digest (body previous) = g.host.digest entry.text → body previous = entry.text
  stamped : ¬ marker <+: g.stamped

/-- No handwritten barrel is left with the marker of a generated file, and the metadata module is
no barrel. -/
structure Settled (g : Generation) : Prop where
  handwritten : ∀ path text, g.existing.get path = some text →
    g.isHandwritten (path, text) = true → ¬ marker <+: g.rewriting (path, text)
  metadata : ∀ path, g.metadataPath = some path → isBarrel path = false

/-- A file is there, or is the metadata module that the run writes. -/
def Stands (g : Generation) (path : Text) : Prop :=
  (g.tree.get path).isSome ∨ g.metadataPath = some path ∧ g.metadata ≠ []

/-- The lines of the owned barrels that are built again refer to files that are there. -/
def Referring (g : Generation) : Prop :=
  ∀ path text, g.existing.get path = some text → isBarrel path = true →
    owned g.host text = true → path ∈ g.files.keys → ∀ line ∈ lines (body text), ∀ target,
      exportOf line = some target → g.Stands (exported path target)

/-- A run of the same rendering on what the first one has left, at some other time. -/
structure Again (g g' : Generation) : Prop where
  host : ∃ later, g'.host = { g.host with now := later }
  tree : g'.tree = g.run.tree
  symlink : g'.symlink = g.symlink
  files : g'.files = g.files
  skipOutputDeletion : g'.skipOutputDeletion = g.skipOutputDeletion
  colocated : g'.colocated = g.colocated
  metadataPath : g'.metadataPath = g.metadataPath
  metadata : g'.metadata = g.metadata

/-- Generation converges, and its barrels are exact. -/
structure Converges (o : RenderOptions) (modules : List RenderedModule) (g : Generation) :
    Prop where
  /-- Every module is on disk. -/
  onDisk : ∀ m ∈ modules, ∃ text, g.run.tree.get (o.path m) = some text ∧
    owned g.host text = true ∧ body text = m.text
  /-- The modules and the barrels have different paths in lower case. -/
  apart : modules.Pairwise fun m m' => folded (o.path m) ≠ folded (o.path m')
  noBarrel : ∀ m ∈ modules, ∀ m' ∈ modules, folded (o.path m) ≠ folded (m'.barrel)
  /-- An owned barrel exports each module of its directory once. -/
  once : ∀ path text, inside path = true → isBarrel path = true →
    g.run.tree.get path = some text → owned g.host text = true →
      ∀ m ∈ modules, dirname (o.path m) = dirname path →
        (lines (body text)).countP (fun line =>
          (exportOf line).map (exported path) = some (o.path m)) = 1
  /-- An owned barrel exports no module that is not on disk. -/
  present : ∀ path text, inside path = true → isBarrel path = true →
    g.run.tree.get path = some text → owned g.host text = true →
      ∀ line ∈ lines (body text), ∀ target, exportOf line = some target →
        (g.run.tree.get (exported path target)).isSome
  /-- Another run succeeds and changes no file. -/
  again : ∀ g', Again g g' → g'.run = ⟨g.run.tree, [], none⟩

/-! ### What a run leaves -/

/-- A run that succeeds, with its stages. -/
structure Completed (g : Generation) (p q : Publication) : Prop where
  colocated : g.colocated = false
  deletion : g.skipOutputDeletion = false
  stamps : Stamps g
  success : g.run.error = none
  succeeded : Succeeded g p q

/-- A file that a run leaves: the metadata module, a generated file, a handwritten barrel as it
is rewritten, or a file that was not the generator's own. -/
inductive Left (g : Generation) (path text : Text) : Prop
  | metadata (hpath : g.metadataPath = some path) (htext : text = g.stamped)
  | generated (entry : SourceFileEntry) (hprepared : g.prepared.get path = some entry)
      (hgenerated : entry.handwritten = false)
      (htext : text = g.published entry (g.existing.get path))
  | handwritten (previous : Text) (hexisting : g.existing.get path = some previous)
      (hhand : g.isHandwritten (path, previous) = true)
      (htext : text = g.rewriting (path, previous))
  | kept (hexisting : g.existing.get path = some text) (hforeign : owned g.host text = false)

namespace Completed

variable {p q : Publication} (h : Completed g p q)

include h

/-- What is published of an entry is owned, and its body is the text of the entry. -/
theorem published_spec {path : Text} {entry : SourceFileEntry}
    (hprepared : g.prepared.get path = some entry) (hgenerated : entry.handwritten = false) :
    owned g.host (g.published entry (g.existing.get path)) = true ∧
      body (g.published entry (g.existing.get path)) = entry.text := by
  obtain ⟨-, built, hbuilt, hsource⟩ := built_of_prepared h.colocated hprepared hgenerated
  have hline : '\n' ∉ entry.source := hsource ▸ h.stamps.sources path built hbuilt
  have hcontent := content_spec g.host entry.text h.stamps.now h.stamps.digest hline
  unfold published
  rw [hgenerated, if_neg Bool.false_ne_true]
  cases hexisting : g.existing.get path with
  | none => exact hcontent
  | some previous =>
      dsimp only
      split
      · rename_i hsame
        have howned : owned g.host previous = true := by
          by_contra hnot
          have := hsame.2
          rw [bodyHash, if_neg hnot] at this
          cases this
        have hdigest := hsame.2
        rw [bodyHash_of_owned howned] at hdigest
        exact ⟨howned, h.stamps.collisions path previous entry hexisting hprepared howned
          (Option.some.inj hdigest)⟩
      · exact hcontent

theorem get_generated {path : Text} {entry : SourceFileEntry}
    (hprepared : g.prepared.get path = some entry) (hgenerated : entry.handwritten = false) :
    g.run.tree.get path = some (g.published entry (g.existing.get path)) := by
  have howned := (h.published_spec hprepared hgenerated).1
  have hsuccess := h.success
  rw [h.succeeded.run] at hsuccess ⊢
  exact publishMetadata_owned hsuccess (h.succeeded.prepared_get hprepared) howned

theorem get_metadata {path : Text} (hpath : g.metadataPath = some path)
    (hmetadata : g.metadata ≠ []) : g.run.tree.get path = some g.stamped := by
  have hsuccess := h.success
  rw [h.succeeded.run] at hsuccess ⊢
  exact publishMetadata_stamped hsuccess hpath hmetadata

/-- The metadata module is not owned as the other files are. -/
theorem stamped_foreign : owned g.host g.stamped = false := by
  rw [← Bool.not_eq_true]
  exact fun howned => h.stamps.stamped (marker_of_owned howned)

/-- Each TypeScript file below the output that is left. -/
theorem left {path text : Text} (hinside : inside path = true)
    (htypeScript : isTypeScript path = true) (hget : g.run.tree.get path = some text) :
    Left g path text := by
  by_cases hmetadata : g.metadataPath = some path ∧ g.metadata ≠ []
  · rw [h.get_metadata hmetadata.1 hmetadata.2] at hget
    exact .metadata hmetadata.1 (Option.some.inj hget).symm
  -- the other files are as they were before the metadata module was published
  have hq : q.tree.get path = some text := by
    rw [h.succeeded.run] at hget
    by_cases hempty : g.metadata = []
    · rw [publishMetadata_empty hempty] at hget
      exact hget
    · rw [(publishMetadata_get q path).1 fun hpath => hmetadata ⟨hpath, hempty⟩] at hget
      exact hget
  cases hprepared : g.prepared.get path with
  | some entry =>
      rw [h.succeeded.prepared_get hprepared] at hq
      cases hwritten : entry.handwritten with
      | false => exact .generated entry hprepared hwritten (Option.some.inj hq).symm
      | true =>
          obtain ⟨-, previous, hchanged, heq⟩ :=
            mem_changedBarrels (InsertionMap.get_eq_some_iff.1 hprepared) hwritten
          obtain ⟨hexisting, hhand, -⟩ := changed_iff.1 hchanged
          have hentry : entry = ⟨[], g.rewriting (path, previous), true⟩ := congrArg Prod.snd heq
          rw [hentry] at hq
          exact .handwritten previous hexisting hhand (Option.some.inj hq).symm
  | none =>
      cases hexisting : g.existing.get path with
      | none =>
          rw [h.succeeded.unprepared_get hprepared fun text htext => by
            rw [hexisting] at htext
            cases htext] at hq
          rw [get_existing, hinside, htypeScript, hq] at hexisting
          cases hexisting
      | some previous =>
          cases howned : owned g.host previous with
          | true =>
              rw [h.succeeded.obsolete_get hexisting
                (by simp [obsolete, h.deletion, hprepared, howned])] at hq
              cases hq
          | false =>
              rw [h.succeeded.unprepared_get hprepared fun text htext => by
                obtain rfl : previous = text := Option.some.inj (hexisting.symm.trans htext)
                simp [obsolete, howned], get_tree hexisting] at hq
              obtain rfl := Option.some.inj hq
              exact .kept hexisting howned

/-- An owned file that is left is one that was generated. -/
theorem generated_of_owned (hsettled : Settled g) {path text : Text}
    (hinside : inside path = true) (htypeScript : isTypeScript path = true)
    (hget : g.run.tree.get path = some text) (howned : owned g.host text = true) :
    ∃ entry, g.prepared.get path = some entry ∧ entry.handwritten = false ∧
      body text = entry.text := by
  cases h.left hinside htypeScript hget with
  | metadata hpath htext =>
      rw [htext, h.stamped_foreign] at howned
      cases howned
  | generated entry hprepared hgenerated htext =>
      rw [htext]
      exact ⟨entry, hprepared, hgenerated, (h.published_spec hprepared hgenerated).2⟩
  | handwritten previous hexisting hhand htext =>
      rw [htext] at howned
      exact absurd (marker_of_owned howned) (hsettled.handwritten path previous hexisting hhand)
  | kept hexisting hforeign =>
      rw [hforeign] at howned
      cases howned

/-- A handwritten barrel is left as it is rewritten. -/
theorem get_handwritten (hsettled : Settled g) {path text : Text}
    (hexisting : g.existing.get path = some text) (hhand : g.isHandwritten (path, text) = true) :
    g.run.tree.get path = some (g.rewriting (path, text)) := by
  have hparts := hhand
  unfold isHandwritten at hparts
  rw [Bool.and_eq_true, Bool.not_eq_true'] at hparts
  obtain ⟨hbarrel, howned⟩ := hparts
  have hpath : g.metadataPath ≠ some path := by
    intro hpath
    rw [hsettled.metadata path hpath] at hbarrel
    cases hbarrel
  rw [h.succeeded.run, (publishMetadata_get q path).1 hpath]
  have hprepared := get_prepared_handwritten h.colocated hexisting hhand
  split at hprepared
  · exact h.succeeded.prepared_get hprepared
  · rename_i hsame
    rw [h.succeeded.unprepared_get hprepared fun text' htext' => by
      obtain rfl : text = text' := Option.some.inj (hexisting.symm.trans htext')
      simp [obsolete, howned], get_tree hexisting]
    exact congrArg some (not_not.1 hsame).symm

/-- A file that stands, and that is not owned, is there after the run. -/
theorem isSome_of_stands {path : Text} (hstands : g.Stands path)
    (howned : owned g.host ((g.existing.get path).getD []) = false) :
    (g.run.tree.get path).isSome := by
  rcases hstands with hsome | ⟨hpath, hmetadata⟩
  · have hq : (q.tree.get path).isSome := by
      cases hprepared : g.prepared.get path with
      | some entry =>
          rw [h.succeeded.prepared_get hprepared]
          rfl
      | none =>
          rw [h.succeeded.unprepared_get hprepared fun text htext => by
            rw [htext] at howned
            simp only [Option.getD_some] at howned
            simp [obsolete, howned]]
          exact hsome
    cases hrunGet : g.run.tree.get path with
    | some text => rfl
    | none =>
        rw [h.succeeded.run] at hrunGet
        rw [(publishMetadata_get q path).2 hrunGet] at hq
        exact hq
  · rw [h.get_metadata hpath hmetadata]
    rfl

/-- Nothing is generated over a file that stands and that is not owned. -/
theorem not_generated {path : Text} (hstands : g.Stands path)
    (howned : owned g.host ((g.existing.get path).getD []) = false) {entry : SourceFileEntry}
    (hprepared : g.prepared.get path = some entry) : entry.handwritten = true := by
  by_contra hwritten
  rw [Bool.not_eq_true] at hwritten
  obtain ⟨hnot, built, hbuilt, -⟩ := built_of_prepared h.colocated hprepared hwritten
  have hkeys : path ∈ g.files.keys := InsertionMap.mem_keys_iff.2 ⟨built, hbuilt⟩
  rcases hstands with hsome | ⟨hpath, hmetadata⟩
  · obtain ⟨previous, hprevious⟩ := Option.isSome_iff_exists.1 hsome
    have hexisting : g.existing.get path = some previous :=
      (rendered_existing hkeys).trans hprevious
    rw [hexisting, Option.getD_some] at howned
    cases hbarrel : isBarrel path with
    | false =>
        exact h.succeeded.accepted (refuses_refusable
          ⟨path, previous, hexisting, howned, .inr ⟨hkeys, hbarrel⟩⟩)
    | true =>
        have hhand := hnot previous hexisting
        simp [isHandwritten, hbarrel, howned] at hhand
  · have hpublished := (h.published_spec hprepared hwritten).1
    have hget := h.get_generated hprepared hwritten
    rw [h.get_metadata hpath hmetadata] at hget
    rw [← Option.some.inj hget, h.stamped_foreign] at hpublished
    cases hpublished

end Completed

/-! ### The lines of a barrel -/

theorem isTypeScript_of_isBarrel {path : Text} (h : isBarrel path = true) :
    isTypeScript path = true := by
  have hbasename : basename path = "index.ts".toList := of_decide_eq_true h
  obtain ⟨front, last, hsplit⟩ := (List.eq_nil_or_concat (path.splitOn '/')).resolve_left
    (List.splitOn_ne_nil _ _)
  have hpath : path = pathOf front last := by
    have hjoin : List.intercalate ['/'] (path.splitOn '/') = path := List.intercalate_splitOn '/'
    rw [← hjoin, hsplit]
    simp [pathOf]
  have hlast : last = "index.ts".toList := by
    rw [← hbasename, basename, hsplit]
    simp
  unfold isTypeScript
  rw [List.isSuffixOf_iff_suffix, hpath, hlast]
  have hindex : ".ts".toList <:+ "index.ts".toList := ⟨"index".toList, by decide⟩
  by_cases hfront : front = []
  · rw [hfront]
    exact hindex
  · rw [pathOf_eq_append hfront]
    exact hindex.trans ((List.suffix_cons _ _).trans (List.suffix_append _ _))

theorem unlines_ends (before : List Text) (line : Text) (c : Char) :
    ∃ front, unlines (before ++ [line ++ [c]]) = front ++ [c] := by
  by_cases hbefore : before = []
  · rw [hbefore]
    exact ⟨line, List.intercalate_singleton⟩
  · refine ⟨unlines before ++ '\n' :: line, ?_⟩
    have hconcat := intercalate_concat '\n' hbefore (line ++ [c])
    unfold unlines
    rw [hconcat, List.append_assoc, List.cons_append]

theorem exportLine_ends (target : Text) : ∃ front, exportLine target = front ++ [';'] := by
  have hclosing : "';".toList = ['\''] ++ [';'] := rfl
  refine ⟨"export * from './".toList ++ target ++ ['\''], ?_⟩
  unfold exportLine
  rw [hclosing]
  exact (List.append_assoc _ _ _).symm

/-- The last line of the barrel that is built ends with its semicolon. -/
theorem lines_trimEnd {targets : List Text} (hne : targets ≠ [])
    (hnewline : ∀ target ∈ targets, '\n' ∉ target) :
    lines (trimEnd (unlines (targets.map exportLine) ++ ['\n'])) = targets.map exportLine := by
  have hline : ∀ line ∈ targets.map exportLine, '\n' ∉ line := by
    intro line hmem
    obtain ⟨target, htarget, rfl⟩ := List.mem_map.1 hmem
    unfold exportLine
    simp only [List.mem_append, not_or]
    exact ⟨⟨by decide, hnewline target htarget⟩, by decide⟩
  obtain ⟨front, hfront⟩ : ∃ front, unlines (targets.map exportLine) = front ++ [';'] := by
    obtain ⟨before, last, rfl⟩ := (List.eq_nil_or_concat targets).resolve_left hne
    obtain ⟨opening, hlast⟩ := exportLine_ends last
    rw [List.concat_eq_append, List.map_append, List.map_singleton, hlast]
    exact unlines_ends _ opening ';'
  have htrim : trimEnd (unlines (targets.map exportLine) ++ ['\n']) =
      unlines (targets.map exportLine) := by
    rw [hfront]
    unfold trimEnd
    rw [List.reverse_append, List.reverse_append]
    have hnewlineSpace : isWhiteSpace '\n' = true := by decide
    have hsemicolon : isWhiteSpace ';' = false := by decide
    simp [List.dropWhile, hnewlineSpace, hsemicolon]
  rw [htrim]
  exact lines_unlines hline (by simpa using hne)

/-- The lines of a barrel that stay when it is built again. -/
def keptOf (g : Generation) (path : Text) : List Text :=
  match g.existing.get path with
  | some text => g.keptLines path text
  | none => []

/-- What is known of a line that a barrel keeps. -/
structure KeptLine (g : Generation) (path line : Text) : Prop where
  not_blank : blank line = false
  no_newline : '\n' ∉ line
  foreign : ∀ target, exportOf line = some target →
    owned g.host ((g.existing.get (exported path target)).getD []) = false
  stands : Referring g → ∀ target, exportOf line = some target → g.Stands (exported path target)

/-- A generated barrel: the lines that stay, and the modules of its directory. -/
structure BarrelText (o : RenderOptions) (modules : List RenderedModule) (g : Generation)
    (path text : Text) (targets : List Text) : Prop where
  built : ∃ entry, g.files.get path = some entry ∧
    Exports o modules path entry.text targets
  lines : lines text = g.keptOf path ++ targets.map exportLine ++ [[]]
  text : text = unlines (g.keptOf path ++ targets.map exportLine) ++ ['\n']
  kept : ∀ line ∈ g.keptOf path, KeptLine g path line

theorem BarrelText.targets_eq {o : RenderOptions} {modules : List RenderedModule}
    {path text : Text} {targets : List Text} {entry : SourceFileEntry}
    (h : BarrelText o modules g path text targets) (hfile : g.files.get path = some entry) :
    targets.map exportLine = Arc.ProxyGenerator.lines (trimEnd entry.text) := by
  obtain ⟨built, hbuilt, hexports⟩ := h.built
  obtain rfl : built = entry := Option.some.inj (hbuilt.symm.trans hfile)
  rw [hexports.text]
  exact (lines_trimEnd hexports.ne_nil fun target htarget =>
    (hexports.names target htarget).2.2).symm

theorem keptLine_of_mem {path text line : Text} (hexisting : g.existing.get path = some text)
    (hbarrel : isBarrel path = true) (howned : owned g.host text = true)
    (hkeys : path ∈ g.files.keys) (hmem : line ∈ g.keptLines path text) :
    KeptLine g path line := by
  obtain ⟨hline, hstays⟩ := List.mem_filter.1 hmem
  rw [Bool.and_eq_true, Bool.and_eq_true, Bool.not_eq_true', Bool.not_eq_true'] at hstays
  refine ⟨hstays.1.2, not_mem_of_mem_lines hline, fun target hexport => ?_,
    fun hreferring target hexport =>
      hreferring path text hexisting hbarrel howned hkeys line hline target hexport⟩
  have hforeign := hstays.2
  unfold Generation.foreign at hforeign
  rw [hexport] at hforeign
  simpa using hforeign

theorem lines_barrel {kept rendered : List Text} (hne : rendered ≠ [])
    (hkept : ∀ line ∈ kept, '\n' ∉ line) (hrendered : ∀ line ∈ rendered, '\n' ∉ line) :
    lines (unlines (kept ++ rendered) ++ ['\n']) = kept ++ rendered ++ [[]] := by
  have hall : kept ++ rendered ≠ [] := by simp [hne]
  rw [← unlines_concat_nil hall]
  refine lines_unlines ?_ (by simp)
  intro line hmem
  rcases List.mem_append.1 hmem with hmem | hmem
  · rcases List.mem_append.1 hmem with hmem | hmem
    · exact hkept line hmem
    · exact hrendered line hmem
  · rw [List.mem_singleton.1 hmem]
    exact List.not_mem_nil

theorem barrelText_of_prepared {o : RenderOptions} {modules : List RenderedModule}
    (hbuilt : Built o modules g.files) (hcolocated : g.colocated = false)
    {path : Text} {entry : SourceFileEntry} (hbarrel : isBarrel path = true)
    (hprepared : g.prepared.get path = some entry) (hgenerated : entry.handwritten = false) :
    ∃ targets, BarrelText o modules g path entry.text targets := by
  obtain ⟨hnot, built, hfile, -⟩ := built_of_prepared hcolocated hprepared hgenerated
  obtain ⟨-, targets, hexports⟩ := hbuilt.barrels path built hfile hbarrel
  have htrim : lines (trimEnd built.text) = targets.map exportLine := by
    rw [hexports.text]
    exact lines_trimEnd hexports.ne_nil fun target htarget => (hexports.names target htarget).2.2
  have hexportLines : ∀ line ∈ targets.map exportLine, '\n' ∉ line := by
    intro line hmem
    rw [← htrim] at hmem
    exact not_mem_of_mem_lines hmem
  have hne : targets.map exportLine ≠ [] := by simpa using hexports.ne_nil
  have htext : entry.text = unlines (g.keptOf path ++ targets.map exportLine) ++ ['\n'] ∧
      ∀ line ∈ g.keptOf path, KeptLine g path line := by
    unfold keptOf
    cases hexisting : g.existing.get path with
    | none =>
        have hplain : ∀ text, g.existing.get path = some text → isBarrel path = false := by
          intro text htext
          rw [hexisting] at htext
          cases htext
        rw [get_prepared_plain hcolocated hplain, hfile] at hprepared
        obtain rfl := Option.some.inj hprepared
        exact ⟨hexports.text, by simp⟩
    | some text =>
        have howned : owned g.host text = true := by
          have := hnot text hexisting
          simpa [isHandwritten, hbarrel] using this
        rw [get_prepared_owned hcolocated hexisting hbarrel howned, hfile] at hprepared
        obtain rfl := Option.some.inj hprepared
        refine ⟨?_, fun line => keptLine_of_mem hexisting hbarrel howned
          (InsertionMap.mem_keys_iff.2 ⟨built, hfile⟩)⟩
        unfold merge
        rw [htrim]
  refine ⟨targets, ⟨built, hfile, hexports⟩, ?_, htext.1, htext.2⟩
  rw [htext.1]
  exact lines_barrel hne (fun line hline => (htext.2 line hline).no_newline) hexportLines

end Generation

end Arc.ProxyGenerator
