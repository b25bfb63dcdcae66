import Arc.ProxyGenerator.Convergence

/-!
# The second run

On what a run has left another one finds each file as it would publish it, none obsolete and no
barrel to rewrite, so it changes nothing. A line of an owned barrel that refers to a missing file
stands against that: the file stays missing, or it is generated and the second run drops the line.
-/

namespace Arc.ProxyGenerator.Generation

variable {g g' : Generation} {p q : Publication}

/-! ### A run without changes -/

theorem publishFiles_kept {files : List (Text × SourceFileEntry)} (p : Publication)
    (h : ∀ file ∈ files,
      g.existing.get file.1 = some (g.published file.2 (g.existing.get file.1))) :
    g.publishFiles files p = p := by
  induction files with
  | nil => rfl
  | cons file files ih =>
      unfold publishFiles
      rw [if_pos (h file List.mem_cons_self)]
      exact ih fun other hother => h other (List.mem_cons_of_mem _ hother)

theorem removeFiles_kept {files : List (Text × Text)} (p : Publication)
    (h : ∀ file ∈ files, g.obsolete file.1 file.2 = false) : g.removeFiles files p = p := by
  induction files with
  | nil => rfl
  | cons file files ih =>
      unfold removeFiles
      rw [if_neg (by simp [h file List.mem_cons_self])]
      exact ih fun other hother => h other (List.mem_cons_of_mem _ hother)

theorem publishMetadata_kept (p : Publication)
    (h : ∀ path, g.metadataPath = some path → g.metadata ≠ [] →
      p.tree.get path = some g.stamped ∧ metadataOwned g.host g.stamped = true) :
    g.publishMetadata p = p := by
  unfold publishMetadata
  cases hpath : g.metadataPath with
  | none => rfl
  | some path =>
      dsimp only
      split_ifs with hempty hany hsame
      · rfl
      · rw [(h path hpath hempty).1, Option.any_some, (h path hpath hempty).2] at hany
        cases hany
      · rfl
      · exact absurd (h path hpath hempty).1 hsame

/-- A run that refuses nothing and finds every file as it is to be published. -/
theorem run_unchanged (hsymlink : g.symlink = none)
    (hrefuse : ∀ path text, g.existing.get path = some text → g.refuse path text = none)
    (hkept : ∀ path entry, g.prepared.get path = some entry →
      g.existing.get path = some (g.published entry (g.existing.get path)))
    (hobsolete : ∀ path text, g.existing.get path = some text → g.obsolete path text = false)
    (hmetadata : ∀ path, g.metadataPath = some path → g.metadata ≠ [] →
      g.tree.get path = some g.stamped) :
    g.run = ⟨g.tree, [], none⟩ := by
  have hverify : g.verifyOwnership = none :=
    List.findSome?_eq_none_iff.2 fun file hfile =>
      hrefuse file.1 file.2 (InsertionMap.get_eq_some_iff.2 hfile)
  have hpublish : g.publishFiles g.prepared.entries ⟨g.tree, [], none⟩ = ⟨g.tree, [], none⟩ :=
    publishFiles_kept _ fun file hfile => hkept file.1 file.2 (InsertionMap.get_eq_some_iff.2 hfile)
  have hremove : andThen ⟨g.tree, [], none⟩ (g.removeFiles g.existing.entries) =
      ⟨g.tree, [], none⟩ :=
    removeFiles_kept _ fun file hfile =>
      hobsolete file.1 file.2 (InsertionMap.get_eq_some_iff.2 hfile)
  unfold run
  rw [hsymlink, hverify]
  dsimp only
  rw [hpublish, hremove]
  refine publishMetadata_kept ⟨g.tree, [], none⟩ fun path hpath hne => ?_
  have hget := hmetadata path hpath hne
  exact ⟨hget, g.metadata_owned path _ hpath hget⟩

theorem refuse_owned {path text : Text} (h : owned g.host text = true) :
    g.refuse path text = none := by
  unfold refuse
  cases g.files.get path <;> simp [h]

theorem refuse_foreign {path text : Text} (hmarker : ¬ marker <+: text)
    (hkeys : path ∈ g.files.keys → isBarrel path = true) : g.refuse path text = none := by
  have hbegins : List.isPrefixOf marker text = false := by
    rw [← Bool.not_eq_true, List.isPrefixOf_iff_prefix]
    exact hmarker
  unfold refuse
  cases hfile : g.files.get path with
  | none => simp [hbegins]
  | some entry => simp [hbegins, hkeys (InsertionMap.mem_keys_iff.2 ⟨entry, hfile⟩)]

/-! ### The same rendering again -/

namespace Again

variable (h : Again g g')

include h

theorem owned_eq (text : Text) : owned g'.host text = owned g.host text := by
  obtain ⟨later, hhost⟩ := h.host
  rw [hhost]
  rfl

theorem bodyHash_eq (text : Text) : bodyHash g'.host text = bodyHash g.host text := by
  obtain ⟨later, hhost⟩ := h.host
  rw [hhost]
  rfl

theorem digest_eq (text : Text) : g'.host.digest text = g.host.digest text := by
  obtain ⟨later, hhost⟩ := h.host
  rw [hhost]

theorem stamped_eq : g'.stamped = g.stamped := by
  obtain ⟨later, hhost⟩ := h.host
  unfold stamped
  rw [hhost, h.metadata]

/-- What exists for the second run is what the first one left. -/
theorem get_existing {path text : Text} (hget : g'.existing.get path = some text) :
    inside path = true ∧ isTypeScript path = true ∧ g.run.tree.get path = some text := by
  rw [Generation.get_existing, h.tree] at hget
  split at hget
  · rename_i hpath
    rw [Bool.and_eq_true] at hpath
    exact ⟨hpath.1, hpath.2, hget⟩
  · cases hget

theorem existing_eq {path : Text} (hkeys : path ∈ g.files.keys) :
    g'.existing.get path = g.run.tree.get path := by
  rw [Generation.get_existing, h.tree, inside_of_plain (g.plain path hkeys),
    g.typeScript path hkeys]
  rfl

/-- What is left is published as it is. -/
theorem published_eq {path text : Text} {entry : SourceFileEntry}
    (hgenerated : entry.handwritten = false) (hkeys : path ∈ g.files.keys)
    (hrun : g.run.tree.get path = some text) (howned : owned g.host text = true)
    (hbody : body text = entry.text) :
    g'.existing.get path = some (g'.published entry (g'.existing.get path)) := by
  have hne : text ≠ [] := by
    rintro rfl
    cases howned
  have hhash : bodyHash g'.host text = some (g'.host.digest entry.text) := by
    rw [h.bodyHash_eq, h.digest_eq, bodyHash_of_owned howned, hbody]
  rw [h.existing_eq hkeys, hrun]
  unfold published
  rw [hgenerated, if_neg Bool.false_ne_true]
  dsimp only
  rw [if_pos ⟨hne, hhash⟩]

end Again

/-! ### What the second run finds -/

variable {o : RenderOptions} {modules : List RenderedModule}

/-- A run that succeeds on a rendering that is settled. -/
structure Settling (o : RenderOptions) (modules : List RenderedModule) (g : Generation)
    (p q : Publication) : Prop where
  built : Built o modules g.files
  completed : Completed g p q
  settled : Settled g

namespace Settling

section Second

variable (h : Settling o modules g p q)

include h

theorem prepared_module {m : RenderedModule} (hm : m ∈ modules) :
    g.prepared.get (o.path m) = some (moduleEntry m) := by
  obtain ⟨hbarrel, hfile⟩ := h.built.get m hm
  rw [get_prepared_plain h.completed.colocated fun _ _ => hbarrel, hfile]

/-- A rendered module is on disk. -/
theorem get_module {m : RenderedModule} (hm : m ∈ modules) :
    ∃ text, g.run.tree.get (o.path m) = some text ∧ owned g.host text = true ∧
      body text = m.text := by
  have hprepared := h.prepared_module hm
  obtain ⟨howned, hbody⟩ := h.completed.published_spec hprepared rfl
  exact ⟨_, h.completed.get_generated hprepared rfl, howned, hbody⟩

/-- The lines that stay refer to no module. -/
theorem not_module (hreferring : Referring g) {path line : Text} (hline : KeptLine g path line)
    {m : RenderedModule} (hm : m ∈ modules) :
    (exportOf line).map (exported path) ≠ some (o.path m) := by
  intro heq
  obtain ⟨target, hexport, hpath⟩ := Option.map_eq_some_iff.1 heq
  have hforeign := hline.foreign target hexport
  have hstands := hline.stands hreferring target hexport
  rw [hpath] at hforeign hstands
  have hwritten := h.completed.not_generated hstands hforeign (h.prepared_module hm)
  cases hwritten

variable (hagain : Again g g')

include hagain

/-- An owned file that exists for the second run is one that is built. -/
theorem generated {path text : Text} (hget : g'.existing.get path = some text)
    (howned : owned g.host text = true) :
    ∃ entry, g.prepared.get path = some entry ∧ entry.handwritten = false ∧
      body text = entry.text ∧ path ∈ g.files.keys := by
  obtain ⟨hinside, htypeScript, hrun⟩ := hagain.get_existing hget
  obtain ⟨entry, hprepared, hgenerated, hbody⟩ := h.completed.generated_of_owned h.settled hinside
    htypeScript hrun howned
  obtain ⟨-, built, hbuilt, -⟩ := built_of_prepared h.completed.colocated hprepared hgenerated
  exact ⟨entry, hprepared, hgenerated, hbody, InsertionMap.mem_keys_iff.2 ⟨built, hbuilt⟩⟩

/-- A file that is not owned has no marker, and is generated only when it is a barrel. -/
theorem foreign_spec {path text : Text} (hget : g'.existing.get path = some text)
    (howned : owned g.host text = false) :
    ¬ marker <+: text ∧ (path ∈ g.files.keys → isBarrel path = true) := by
  obtain ⟨hinside, htypeScript, hrun⟩ := hagain.get_existing hget
  constructor
  · intro hmarker
    cases h.completed.left hinside htypeScript hrun with
    | metadata hpath htext => exact h.completed.stamps.stamped (htext ▸ hmarker)
    | generated entry hprepared hgenerated htext =>
        rw [htext, (h.completed.published_spec hprepared hgenerated).1] at howned
        cases howned
    | handwritten previous hexisting hhand htext =>
        exact h.settled.handwritten path previous hexisting hhand (htext ▸ hmarker)
    | kept hexisting hforeign =>
        exact h.completed.succeeded.accepted (refuses_refusable
          ⟨path, text, hexisting, hforeign, .inl ⟨hmarker, .inr h.completed.deletion⟩⟩)
  · intro hkeys
    by_contra hbarrel
    rw [Bool.not_eq_true] at hbarrel
    obtain ⟨built, hbuilt⟩ := InsertionMap.mem_keys_iff.1 hkeys
    have hprepared : g.prepared.get path = some built := by
      rw [get_prepared_plain h.completed.colocated fun _ _ => hbarrel, hbuilt]
    have hgenerated := g.generated path built hbuilt
    rw [h.completed.get_generated hprepared hgenerated] at hrun
    rw [← Option.some.inj hrun, (h.completed.published_spec hprepared hgenerated).1] at howned
    cases howned

theorem refuse_again {path text : Text} (hget : g'.existing.get path = some text) :
    g'.refuse path text = none := by
  cases howned : owned g.host text with
  | true => exact refuse_owned ((hagain.owned_eq text).trans howned)
  | false =>
      obtain ⟨hmarker, hkeys⟩ := h.foreign_spec hagain hget howned
      rw [← hagain.files] at hkeys
      exact refuse_foreign hmarker hkeys

theorem not_dropped (path line : Text) : g'.dropped path line = false := by
  unfold dropped
  cases hexport : exportOf line with
  | none => rfl
  | some target =>
      dsimp only
      rw [hagain.owned_eq, hagain.files]
      cases hget : g'.existing.get (exported path target) with
      | none =>
          have hnil : owned g.host [] = false := rfl
          simp [hnil]
      | some text =>
          rw [Option.getD_some]
          cases howned : owned g.host text with
          | false => simp
          | true =>
              obtain ⟨-, -, -, -, hkeys⟩ := h.generated hagain hget howned
              obtain ⟨entry, hentry⟩ := InsertionMap.mem_keys_iff.1 hkeys
              simp [hentry]

/-- No owned file is obsolete for the second run. -/
theorem not_obsolete {path text : Text} (hget : g'.existing.get path = some text) :
    g'.obsolete path text = false := by
  unfold obsolete
  rw [hagain.owned_eq]
  cases howned : owned g.host text with
  | false => simp
  | true =>
      obtain ⟨-, -, -, -, hkeys⟩ := h.generated hagain hget howned
      obtain ⟨built, hbuilt⟩ := InsertionMap.mem_keys_iff.1 hkeys
      have hcolocated : g'.colocated = false := hagain.colocated.trans h.completed.colocated
      have howned' : owned g'.host text = true := (hagain.owned_eq text).trans howned
      have hsome : (g'.prepared.get path).isSome := by
        cases hbarrel : isBarrel path with
        | true =>
            rw [get_prepared_owned hcolocated hget hbarrel howned', hagain.files, hbuilt]
            rfl
        | false =>
            rw [get_prepared_plain hcolocated fun _ _ => hbarrel, hagain.files, hbuilt]
            rfl
      rw [Option.isSome_iff_exists] at hsome
      obtain ⟨entry, hentry⟩ := hsome
      simp [hentry]

/-- A barrel that is handwritten for the second run was so for the first one. -/
theorem handwritten_again {path text : Text} (hget : g'.existing.get path = some text)
    (hhand : g'.isHandwritten (path, text) = true) :
    ∃ previous, g.existing.get path = some previous ∧
      g.isHandwritten (path, previous) = true := by
  obtain ⟨hinside, htypeScript, hrun⟩ := hagain.get_existing hget
  unfold isHandwritten at hhand
  rw [Bool.and_eq_true, Bool.not_eq_true', hagain.owned_eq] at hhand
  obtain ⟨hbarrel, hnot⟩ := hhand
  cases h.completed.left hinside htypeScript hrun with
  | metadata hpath htext =>
      rw [h.settled.metadata path hpath] at hbarrel
      cases hbarrel
  | generated entry hprepared hgenerated htext =>
      rw [htext, (h.completed.published_spec hprepared hgenerated).1] at hnot
      cases hnot
  | handwritten previous hexisting hhand htext => exact ⟨previous, hexisting, hhand⟩
  | kept hexisting hforeign =>
      exact ⟨text, hexisting, by simp [isHandwritten, hbarrel, hforeign]⟩

/-- The second run rewrites no handwritten barrel. -/
theorem rewriting_eq {path text : Text} (hget : g'.existing.get path = some text)
    (hhand : g'.isHandwritten (path, text) = true) : g'.rewriting (path, text) = text := by
  obtain ⟨-, -, hrun⟩ := hagain.get_existing hget
  obtain ⟨previous, hexisting, hprevious⟩ := h.handwritten_again hagain hget hhand
  have htext := h.completed.get_handwritten h.settled hexisting hprevious
  rw [hrun] at htext
  rw [Option.some.inj htext]
  unfold rewriting
  dsimp only
  have hkept : ∀ line ∈ (lines previous).filter fun line =>
      !g.dropped path line && !(blank line), blank line = false ∧ '\n' ∉ line := by
    intro line hmem
    obtain ⟨hline, hstays⟩ := List.mem_filter.1 hmem
    rw [Bool.and_eq_true, Bool.not_eq_true', Bool.not_eq_true'] at hstays
    exact ⟨hstays.2, not_mem_of_mem_lines hline⟩
  generalize (lines previous).filter (fun line => !g.dropped path line && !(blank line)) = kept
    at hkept
  have hlines : lines (unlines kept ++ ['\n']) = terminated kept := by
    rw [← unlines_terminated]
    refine lines_unlines ?_ ?_
    · unfold terminated
      split
      · simp
      · intro line hmem
        rcases List.mem_append.1 hmem with hmem | hmem
        · exact (hkept line hmem).2
        · rw [List.mem_singleton.1 hmem]
          exact List.not_mem_nil
    · unfold terminated
      split <;> simp
  have hblank : blank [] = true := rfl
  have hsame : (terminated kept).filter (fun line => !g'.dropped path line && !(blank line)) =
      kept := by
    simp only [h.not_dropped hagain, Bool.not_false, Bool.true_and]
    unfold terminated
    split
    · rename_i hnil
      rw [hnil]
      rfl
    · rw [List.filter_append, List.filter_eq_self.2 fun line hmem => by
        rw [(hkept line hmem).1]; rfl]
      simp [hblank]
  rw [hlines, hsame]

/-- A line that was kept is kept again. -/
theorem foreign_kept (hreferring : Referring g) {path line : Text}
    (hline : KeptLine g path line) : g'.foreign path line = true := by
  unfold foreign
  cases hexport : exportOf line with
  | none => rfl
  | some target =>
      have hforeign := hline.foreign target hexport
      have hstands := hline.stands hreferring target hexport
      dsimp only
      rw [Bool.not_eq_true', hagain.owned_eq]
      cases hget : g'.existing.get (exported path target) with
      | none => rfl
      | some text =>
          rw [Option.getD_some]
          by_contra howned
          rw [Bool.not_eq_false] at howned
          obtain ⟨entry, hprepared, hgenerated, -, -⟩ := h.generated hagain hget howned
          rw [h.completed.not_generated hstands hforeign hprepared] at hgenerated
          cases hgenerated

/-- The line of a file that is generated is not kept: it is rendered again. -/
theorem not_foreign {path line target : Text} (hexport : exportOf line = some target)
    {entry : SourceFileEntry} (hprepared : g.prepared.get (exported path target) = some entry)
    (hgenerated : entry.handwritten = false) : g'.foreign path line = false := by
  obtain ⟨-, built, hbuilt, -⟩ := built_of_prepared h.completed.colocated hprepared hgenerated
  have hkeys := InsertionMap.mem_keys_iff.2 ⟨built, hbuilt⟩
  unfold foreign
  rw [hexport]
  dsimp only
  rw [hagain.existing_eq hkeys, h.completed.get_generated hprepared hgenerated, Option.getD_some,
    hagain.owned_eq, (h.completed.published_spec hprepared hgenerated).1]
  rfl

/-- A barrel keeps the lines it kept before. -/
theorem keptLines_eq (hreferring : Referring g) {path text : Text} {targets : List Text}
    (hbody : BarrelText o modules g path (body text) targets) :
    g'.keptLines path text = g.keptOf path := by
  obtain ⟨built, -, hexports⟩ := hbody.built
  have hkept : (g.keptOf path).filter (fun line =>
      (!g'.dropped path line && !(blank line)) && g'.foreign path line) = g.keptOf path := by
    refine List.filter_eq_self.2 fun line hline => ?_
    have hstays := hbody.kept line hline
    rw [h.not_dropped hagain, hstays.not_blank, h.foreign_kept hagain hreferring hstays]
    rfl
  have htargets : (targets.map exportLine).filter (fun line =>
      (!g'.dropped path line && !(blank line)) && g'.foreign path line) = [] := by
    refine List.filter_eq_nil_iff.2 fun line hline => ?_
    obtain ⟨target, htarget, rfl⟩ := List.mem_map.1 hline
    obtain ⟨hne, hquote, -⟩ := hexports.names target htarget
    obtain ⟨m, hm, hpath, -⟩ := (hexports.mem _).1 (List.mem_map_of_mem htarget)
    have hprepared := h.prepared_module hm
    rw [hpath] at hprepared
    simp [h.not_foreign hagain (exportOf_exportLine hne hquote) hprepared rfl]
  have hblank : blank [] = true := rfl
  unfold keptLines
  rw [hbody.lines, List.filter_append, List.filter_append, hkept, htargets]
  simp [hblank]

/-- A barrel that the second run generates is one that the first run generated. -/
theorem generated_before {path : Text} {built : SourceFileEntry} (hbarrel : isBarrel path = true)
    (hbuilt : g.files.get path = some built)
    (hnot' : ∀ text, g'.existing.get path = some text → g'.isHandwritten (path, text) = false) :
    ∃ first, g.prepared.get path = some first ∧ first.handwritten = false := by
  have hkeys : path ∈ g.files.keys := InsertionMap.mem_keys_iff.2 ⟨built, hbuilt⟩
  cases hexisting : g.existing.get path with
  | none =>
      have hplain : ∀ text, g.existing.get path = some text → isBarrel path = false := by
        intro text htext
        rw [hexisting] at htext
        cases htext
      refine ⟨built, ?_, g.generated path built hbuilt⟩
      rw [get_prepared_plain h.completed.colocated hplain, hbuilt]
  | some previous =>
      cases howned : owned g.host previous with
      | true =>
          refine ⟨g.merge path previous built, ?_, g.generated path built hbuilt⟩
          rw [get_prepared_owned h.completed.colocated hexisting hbarrel howned, hbuilt]
          rfl
      | false =>
          have hhand : g.isHandwritten (path, previous) = true := by
            simp [isHandwritten, hbarrel, howned]
          have hget := (hagain.existing_eq hkeys).trans
            (h.completed.get_handwritten h.settled hexisting hhand)
          have hhand' := hnot' _ hget
          have hfalse : owned g.host (g.rewriting (path, previous)) = false := by
            rw [← Bool.not_eq_true]
            exact fun howned =>
              h.settled.handwritten path previous hexisting hhand (marker_of_owned howned)
          simp [isHandwritten, hbarrel, hagain.owned_eq, hfalse] at hhand'

/-- Every file the second run would publish is there. -/
theorem kept_again (hreferring : Referring g) {path : Text} {entry : SourceFileEntry}
    (hprepared' : g'.prepared.get path = some entry) :
    g'.existing.get path = some (g'.published entry (g'.existing.get path)) := by
  have hcolocated' : g'.colocated = false := hagain.colocated.trans h.completed.colocated
  cases hwritten : entry.handwritten with
  | true =>
      obtain ⟨-, text, hchanged, -⟩ := mem_changedBarrels
        (InsertionMap.get_eq_some_iff.1 hprepared') hwritten
      obtain ⟨hget, hhand, hne⟩ := changed_iff.1 hchanged
      exact absurd (h.rewriting_eq hagain hget hhand) hne
  | false =>
      obtain ⟨hnot', built, hbuilt, -⟩ := built_of_prepared hcolocated' hprepared' hwritten
      rw [hagain.files] at hbuilt
      have hkeys : path ∈ g.files.keys := InsertionMap.mem_keys_iff.2 ⟨built, hbuilt⟩
      cases hbarrel : isBarrel path with
      | false =>
          have hentry : g.prepared.get path = some entry := by
            rw [get_prepared_plain h.completed.colocated fun _ _ => hbarrel, ← hagain.files,
              ← get_prepared_plain hcolocated' fun _ _ => hbarrel, hprepared']
          obtain ⟨howned, hbody⟩ := h.completed.published_spec hentry hwritten
          exact hagain.published_eq hwritten hkeys
            (h.completed.get_generated hentry hwritten) howned hbody
      | true =>
          obtain ⟨first, hfirst, hgenerated⟩ := h.generated_before hagain hbarrel hbuilt hnot'
          obtain ⟨howned, hbody⟩ := h.completed.published_spec hfirst hgenerated
          have hrun := h.completed.get_generated hfirst hgenerated
          obtain ⟨targets, htext⟩ := barrelText_of_prepared h.built h.completed.colocated hbarrel
            hfirst hgenerated
          rw [← hbody] at htext
          have hkept := h.keptLines_eq hagain hreferring htext
          obtain ⟨built', hbuilt', hexports⟩ := htext.built
          obtain rfl : built = built' := Option.some.inj (hbuilt.symm.trans hbuilt')
          have hget := (hagain.existing_eq hkeys).trans hrun
          have howned' := (hagain.owned_eq _).trans howned
          rw [get_prepared_owned hcolocated' hget hbarrel howned', hagain.files, hbuilt]
            at hprepared'
          obtain rfl := Option.some.inj hprepared'
          refine hagain.published_eq hwritten hkeys hrun howned ?_
          unfold merge
          dsimp only
          rw [hkept, hexports.text, lines_trimEnd hexports.ne_nil fun target htarget =>
            (hexports.names target htarget).2.2]
          exact htext.text

theorem unchanged (hreferring : Referring g) : g'.run = ⟨g.run.tree, [], none⟩ := by
  have hsymlink : g.symlink = none := by
    have haccepted := h.completed.succeeded.accepted
    unfold Refused at haccepted
    rw [not_or, Option.not_isSome_iff_eq_none] at haccepted
    exact haccepted.1
  rw [← hagain.tree]
  refine run_unchanged (hagain.symlink.trans hsymlink) (fun path text => h.refuse_again hagain)
    (fun path entry => h.kept_again hagain hreferring)
    (fun path text => h.not_obsolete hagain) fun path hpath hmetadata => ?_
  rw [hagain.metadataPath] at hpath
  rw [hagain.metadata] at hmetadata
  rw [hagain.tree, hagain.stamped_eq]
  exact h.completed.get_metadata hpath hmetadata

end Second

/-! ### The barrels -/

/-- An owned barrel that a run leaves. -/
theorem barrelText (h : Settling o modules g p q) {path text : Text}
    (hinside : inside path = true) (hbarrel : isBarrel path = true)
    (hget : g.run.tree.get path = some text) (howned : owned g.host text = true) :
    ∃ targets, BarrelText o modules g path (body text) targets := by
  obtain ⟨entry, hprepared, hgenerated, hbody⟩ := h.completed.generated_of_owned h.settled hinside
    (isTypeScript_of_isBarrel hbarrel) hget howned
  rw [hbody]
  exact barrelText_of_prepared h.built h.completed.colocated hbarrel hprepared hgenerated

theorem once (h : Settling o modules g p q) (hreferring : Referring g) {path text : Text}
    {targets : List Text} (htext : BarrelText o modules g path text targets) {m : RenderedModule}
    (hm : m ∈ modules) (hdirectory : dirname (o.path m) = dirname path) :
    (lines text).countP (fun line =>
      (exportOf line).map (exported path) = some (o.path m)) = 1 := by
  obtain ⟨built, -, hexports⟩ := htext.built
  have hkept : (g.keptOf path).countP (fun line =>
      (exportOf line).map (exported path) = some (o.path m)) = 0 := by
    refine List.countP_eq_zero.2 fun line hline => ?_
    simpa using h.not_module hreferring (htext.kept line hline) hm
  have htargets : (targets.map exportLine).countP (fun line =>
      (exportOf line).map (exported path) = some (o.path m)) =
        (targets.map (exported path)).count (o.path m) := by
    rw [List.countP_map, List.count, List.countP_map]
    refine List.countP_congr fun target htarget => ?_
    obtain ⟨hne, hquote, -⟩ := hexports.names target htarget
    simp [exportOf_exportLine hne hquote]
  have hmem : o.path m ∈ targets.map (exported path) := (hexports.mem _).2 ⟨m, hm, rfl, hdirectory⟩
  have hnil : exportOf [] = none := by decide
  rw [htext.lines, List.countP_append, List.countP_append, hkept, htargets,
    List.count_eq_one_of_mem hexports.nodup hmem]
  simp [hnil]

theorem present (h : Settling o modules g p q) (hreferring : Referring g) {path text : Text}
    {targets : List Text} (htext : BarrelText o modules g path text targets)
    {line target : Text} (hline : line ∈ lines text) (hexport : exportOf line = some target) :
    (g.run.tree.get (exported path target)).isSome := by
  obtain ⟨built, -, hexports⟩ := htext.built
  rw [htext.lines] at hline
  rcases List.mem_append.1 hline with hline | hline
  · rcases List.mem_append.1 hline with hline | hline
    · have hkept := htext.kept line hline
      exact h.completed.isSome_of_stands (hkept.stands hreferring target hexport)
        (hkept.foreign target hexport)
    · obtain ⟨target', htarget, rfl⟩ := List.mem_map.1 hline
      obtain ⟨hne, hquote, -⟩ := hexports.names target' htarget
      rw [exportOf_exportLine hne hquote] at hexport
      obtain rfl := Option.some.inj hexport
      obtain ⟨m, hm, hpath, -⟩ := (hexports.mem _).1 (List.mem_map_of_mem htarget)
      obtain ⟨text, hrun, -⟩ := h.get_module hm
      rw [← hpath, hrun]
      rfl
  · rw [List.mem_singleton.1 hline] at hexport
    have hnil : exportOf [] = none := by decide
    rw [hnil] at hexport
    cases hexport

end Settling

/-! ### A line for a missing file -/

theorem blank_exportLine (target : Text) : blank (exportLine target) = false := by
  obtain ⟨front, hfront⟩ := exportLine_ends target
  have hsemicolon : isWhiteSpace ';' = false := by decide
  unfold blank
  rw [hfront, List.all_append, List.all_cons, hsemicolon, Bool.false_and, Bool.and_false]

/-- The line of an owned barrel for a file that is missing stays when the barrel is built. -/
theorem mem_keptOf_of_missing {path text line target : Text}
    (hexisting : g.existing.get path = some text) (hline : line ∈ lines (body text))
    (hexport : exportOf line = some target) (hnone : g.tree.get (exported path target) = none) :
    line ∈ g.keptOf path := by
  have hmissing : g.existing.get (exported path target) = none := by
    rw [get_existing, hnone]
    exact ite_self _
  have hnil : owned g.host [] = false := rfl
  have hdropped : g.dropped path line = false := by
    unfold dropped
    rw [hexport]
    dsimp only
    rw [hmissing, Option.getD_none, hnil, Bool.and_false]
  have hforeign : g.foreign path line = true := by
    unfold foreign
    rw [hexport]
    dsimp only
    rw [hmissing, Option.getD_none, hnil, Bool.not_false]
  have hblank : blank line = false := by
    rw [eq_exportLine_of_exportOf hexport]
    exact blank_exportLine target
  unfold keptOf
  rw [hexisting]
  refine List.mem_filter.2 ⟨hline, ?_⟩
  rw [hdropped, hforeign, hblank]
  rfl

/-- A missing file that is not the metadata module is there after the run only when it was
generated. -/
theorem Completed.generated_of_missing (h : Completed g p q) {path : Text}
    (hnot : ¬ g.Stands path) (hsome : (g.run.tree.get path).isSome) :
    ∃ entry, g.prepared.get path = some entry ∧ entry.handwritten = false := by
  unfold Stands at hnot
  rw [not_or, Option.not_isSome_iff_eq_none] at hnot
  obtain ⟨hnone, hmetadata⟩ := hnot
  have hmissing : g.existing.get path = none := by
    rw [get_existing, hnone]
    exact ite_self _
  have hq : (q.tree.get path).isSome := by
    rw [h.succeeded.run] at hsome
    by_cases hempty : g.metadata = []
    · rw [publishMetadata_empty hempty] at hsome
      exact hsome
    · rw [(publishMetadata_get q path).1 fun hpath => hmetadata ⟨hpath, hempty⟩] at hsome
      exact hsome
  cases hprepared : g.prepared.get path with
  | none =>
      have hkept : ∀ text, g.existing.get path = some text → g.obsolete path text = false := by
        intro text htext
        rw [hmissing] at htext
        cases htext
      rw [h.succeeded.unprepared_get hprepared hkept, hnone] at hq
      cases hq
  | some entry =>
      refine ⟨entry, rfl, ?_⟩
      by_contra hwritten
      obtain ⟨-, previous, hchanged, -⟩ := mem_changedBarrels
        (InsertionMap.get_eq_some_iff.1 hprepared) (by simpa using hwritten)
      obtain ⟨hexisting, -⟩ := changed_iff.1 hchanged
      rw [hmissing] at hexisting
      cases hexisting

/-- The second run drops the line of a file that was generated, so it changes the barrel. -/
theorem Settling.referring (h : Settling o modules g p q) (hconverges : Converges o modules g)
    (hagain : Again g g') (hstamps' : Stamps g') : Referring g := by
  intro path text hexisting hbarrel howned hkeys line hline target hexport
  by_contra hnot
  have hnone : g.tree.get (exported path target) = none :=
    Option.not_isSome_iff_eq_none.1 fun hsome => hnot (.inl hsome)
  have hmem := mem_keptOf_of_missing hexisting hline hexport hnone
  -- the barrel after the first run
  obtain ⟨built, hbuilt⟩ := InsertionMap.mem_keys_iff.1 hkeys
  have hprepared : g.prepared.get path = some (g.merge path text built) := by
    rw [get_prepared_owned h.completed.colocated hexisting hbarrel howned, hbuilt]
    rfl
  have hgenerated : (g.merge path text built).handwritten = false := g.generated path built hbuilt
  obtain ⟨targets, htext⟩ := barrelText_of_prepared h.built h.completed.colocated hbarrel
    hprepared hgenerated
  obtain ⟨hpublished, hbody⟩ := h.completed.published_spec hprepared hgenerated
  have hrun := h.completed.get_generated hprepared hgenerated
  obtain ⟨left, hleft⟩ : ∃ left,
    left = g.published (g.merge path text built) (g.existing.get path) := ⟨_, rfl⟩
  rw [← hleft] at hpublished hbody hrun
  have hpresent := hconverges.present path left (inside_of_plain (g.plain path hkeys)) hbarrel hrun
    hpublished line (by
      rw [hbody, htext.lines]
      exact List.mem_append_left _ (List.mem_append_left _ hmem)) target hexport
  obtain ⟨entry, hentry, hwritten⟩ := h.completed.generated_of_missing hnot hpresent
  -- the barrel after the second run
  have hsecond := hconverges.again g' hagain
  have herror : g'.run.error = none := by rw [hsecond]
  obtain ⟨p', q', hsucceeded'⟩ := succeeded herror
  have hcompleted' : Completed g' p' q' :=
    ⟨hagain.colocated.trans h.completed.colocated,
      hagain.skipOutputDeletion.trans h.completed.deletion, hstamps', herror, hsucceeded'⟩
  have hbuilt' : Built o modules g'.files := by
    rw [hagain.files]
    exact h.built
  have hget' := (hagain.existing_eq hkeys).trans hrun
  have howned' := (hagain.owned_eq left).trans hpublished
  have hprepared' : g'.prepared.get path = some (g'.merge path left built) := by
    rw [get_prepared_owned hcompleted'.colocated hget' hbarrel howned', hagain.files, hbuilt]
    rfl
  obtain ⟨targets', htext'⟩ := barrelText_of_prepared hbuilt' hcompleted'.colocated hbarrel
    hprepared' hgenerated
  have hbody' := (hcompleted'.published_spec hprepared' hgenerated).2
  have hrun' := hcompleted'.get_generated hprepared' hgenerated
  rw [hsecond] at hrun'
  have hsame := Option.some.inj (hrun.symm.trans hrun')
  rw [← hsame, hbody] at hbody'
  -- both end with the same lines
  have htargets : targets.map exportLine = targets'.map exportLine := by
    have hbuilt' : g'.files.get path = some built := by rw [hagain.files, hbuilt]
    rw [htext.targets_eq hbuilt, htext'.targets_eq hbuilt']
  have hlines := htext.lines
  rw [hbody', htext'.lines, ← htargets] at hlines
  have hkept : g'.keptOf path = g.keptOf path :=
    List.append_cancel_right (List.append_cancel_right hlines)
  -- and yet the line is not kept
  rw [← hkept] at hmem
  unfold keptOf at hmem
  rw [hget'] at hmem
  have hforeign := (List.mem_filter.1 hmem).2
  rw [h.not_foreign hagain hexport hentry hwritten] at hforeign
  simp at hforeign

/-! ### Convergence -/

/-- Modules that are not called like a barrel have no path of a barrel in lower case. -/
theorem folded_path_ne_barrel (hsafe : ∀ m ∈ modules, m.IsSafe)
    (hnot : NoBarrelModule o modules) {m m' : RenderedModule} (hm : m ∈ modules)
    (hm' : m' ∈ modules) : folded (o.path m) ≠ folded (m'.barrel) := by
  intro heq
  refine hnot m hm ?_
  have hnames := folded_basename (segments_isPlain (hsafe m hm)) (isPlain_fileName (hsafe m hm).2)
    (segments_isPlain (hsafe m' hm')) isPlain_index heq
  rw [hnames]
  decide

/-- A module that is called like a barrel has the path of the barrel of its directory. -/
theorem Converges.noBarrelModule (h : Converges o modules g) : NoBarrelModule o modules := by
  intro m hm heq
  refine h.noBarrel m hm m hm ?_
  unfold RenderOptions.path RenderedModule.barrel pathOf
  rw [folded_intercalate, folded_intercalate, List.map_append, List.map_append,
    List.map_singleton, List.map_singleton, heq]
  rfl

/-- A generation that succeeds on a settled output, and can be run again, converges, and its
barrels are exact, exactly when no module is called like a barrel and the owned barrels refer to
files that are there. -/
theorem converges_iff (o : RenderOptions) (modules : List RenderedModule) (g g' : Generation)
    (hbuilt : buildSourceFiles o modules = .ok g.files) (hcolocated : g.colocated = false)
    (hdeletion : g.skipOutputDeletion = false) (hsuccess : g.run.error = none)
    (hstamps : Stamps g) (hsettled : Settled g) (hagain : Again g g') (hstamps' : Stamps g') :
    Converges o modules g ↔ NoBarrelModule o modules ∧ Referring g := by
  obtain ⟨p, q, hsucceeded⟩ := succeeded hsuccess
  have hcompleted : Completed g p q := ⟨hcolocated, hdeletion, hstamps, hsuccess, hsucceeded⟩
  constructor
  · intro hconverges
    have hnot := hconverges.noBarrelModule
    have h : Settling o modules g p q :=
      ⟨buildSourceFiles_built hbuilt hnot, hcompleted, hsettled⟩
    exact ⟨hnot, h.referring hconverges hagain hstamps'⟩
  · rintro ⟨hnot, hreferring⟩
    have h : Settling o modules g p q :=
      ⟨buildSourceFiles_built hbuilt hnot, hcompleted, hsettled⟩
    refine ⟨fun m hm => h.get_module hm, h.built.apart,
      fun m hm m' hm' => folded_path_ne_barrel h.built.safe hnot hm hm', ?_, ?_,
      fun _ hagain => h.unchanged hagain hreferring⟩
    · intro path text hinside hbarrel hget howned m hm hdirectory
      obtain ⟨targets, htext⟩ := h.barrelText hinside hbarrel hget howned
      exact h.once hreferring htext hm hdirectory
    · intro path text hinside hbarrel hget howned line hline target hexport
      obtain ⟨targets, htext⟩ := h.barrelText hinside hbarrel hget howned
      exact h.present hreferring htext hline hexport

/-! ### A file that was deleted by hand -/

def orderModule : RenderedModule :=
  ⟨[], "Order".toList, "Order".toList, "export class Order {}\n".toList⟩

def orderBarrel : Text := "export * from './Order';\n".toList

/-- The host at some time: what it hashes are the barrel with one line, the module, and the barrel
with two. -/
def orderHost (now : Text) : Host where
  digest := fun text =>
    if text = orderBarrel then
      "0FF943E32C491B5D41E13734FC5CD83EC84AF45B5DF19D31BDC5741C0DA84F3A".toList
    else if text = orderModule.text then
      "6582187485A114E9E3714AF8043C73D8CACE409ACC840AD1731A2E66DF94007A".toList
    else
      "A8E2C8E741534AF97E38D683F000DC726CDFEBB03F47FA912F040653187ECBC6".toList
  sha256 := id
  now := now
  notice := []

def orderTree : InsertionMap Text Text :=
  InsertionMap.empty.set "index.ts".toList
    (content (orderHost "2026-01-01T00:00:00.0000000Z".toList) [] orderBarrel)

def orderFiles : InsertionMap Text SourceFileEntry :=
  (InsertionMap.empty.set "Order.ts".toList (moduleEntry orderModule)).set "index.ts".toList
    ⟨[], orderBarrel, false⟩

theorem metadataMarker_ne_marker {text : Text} (h : metadataMarker <+: text) :
    ¬ marker <+: text := by
  intro hmarker
  have hlength : marker.length ≤ metadataMarker.length := by decide
  exact absurd (List.prefix_of_prefix_length_le hmarker h hlength) (by decide)

/-- A run that renders an order into a tree. -/
def ordering (now : Text) (tree : InsertionMap Text Text) : Generation where
  host := orderHost now
  tree := tree
  symlink := none
  files := orderFiles
  skipOutputDeletion := false
  colocated := false
  metadataPath := none
  metadata := []
  generated := by
    intro path entry hget
    rcases List.mem_pair.1 (InsertionMap.get_eq_some_iff.1 hget) with h | h <;> cases h <;> rfl
  typeScript := by decide
  plain := by decide
  unbarrelled := by simp
  metadata_owned := by simp
  notice_ne_marker := fun _ => metadataMarker_ne_marker

/-- The output holds the barrel of an earlier run, and its module was deleted. -/
def deleted : Generation := ordering "2026-01-02T00:00:00.0000000Z".toList orderTree

/-- The run after it. -/
def deletedAgain : Generation := ordering "2026-01-03T00:00:00.0000000Z".toList deleted.run.tree

def alphabetical : RenderOptions := ⟨false, sortsBefore⟩

theorem buildSourceFiles_order :
    buildSourceFiles alphabetical [orderModule] = .ok orderFiles := by
  have hadded : alphabetical.addModules [orderModule] InsertionMap.empty =
      .ok (InsertionMap.empty.set "Order.ts".toList (moduleEntry orderModule)) := rfl
  have hsorted : alphabetical.sortFiles
      (InsertionMap.empty.set "Order.ts".toList (moduleEntry orderModule)) =
        InsertionMap.empty.set "Order.ts".toList (moduleEntry orderModule) :=
    InsertionMap.ext (List.mergeSort_singleton _)
  have hbarrel : barrelText (InsertionMap.empty.set "Order.ts".toList (moduleEntry orderModule))
      ['.'] = orderBarrel := by
    have hlines : ((InsertionMap.empty.set "Order.ts".toList (moduleEntry orderModule)).keys.filter
        fun path => dirname path = ['.']).map (moduleLine ['.']) = [exportLine "Order".toList] :=
      rfl
    unfold barrelText
    rw [hlines, List.mergeSort_singleton]
    rfl
  have hdirectories : ((InsertionMap.empty.set "Order.ts".toList
      (moduleEntry orderModule)).keys.map dirname).eraseDups = [['.']] := rfl
  have hindex : joinPath ['.'] "index.ts".toList = "index.ts".toList := rfl
  have hbarrels : addBarrels [['.']]
      (InsertionMap.empty.set "Order.ts".toList (moduleEntry orderModule)) = orderFiles := by
    unfold addBarrels
    rw [List.foldl_cons, hbarrel, hindex]
    rfl
  refine Except.bind_eq_ok.2 ⟨_, Except.bind_eq_ok.2 ⟨_, hadded, congrArg Except.ok hsorted⟩, ?_⟩
  rw [hdirectories, hbarrels]

theorem stamps_ordering {now : Text} {tree : InsertionMap Text Text} (hnow : '\n' ∉ now)
    (hcollisions : ∀ file ∈ (ordering now tree).existing.entries,
      ∀ entry ∈ (ordering now tree).prepared.get file.1,
        (orderHost now).digest (body file.2) = (orderHost now).digest entry.text →
          body file.2 = entry.text) : Stamps (ordering now tree) := by
  have hstamped : (ordering now tree).stamped = [] := rfl
  refine ⟨hnow, ?_, ?_, ?_, ?_⟩
  · intro text
    unfold ordering orderHost
    dsimp only
    split_ifs <;> decide
  · intro path entry hget
    rcases List.mem_pair.1 (InsertionMap.get_eq_some_iff.1 hget) with h | h <;> cases h <;> decide
  · intro path previous entry hexisting hprepared _
    exact hcollisions (path, previous) (InsertionMap.get_eq_some_iff.1 hexisting) entry hprepared
  · rw [hstamped, List.prefix_nil]
    decide

theorem run_deleted : deleted.run.error = none :=
  Option.isNone_iff_eq_none.1 (by decide +kernel)

theorem settled_deleted : Settled deleted := by
  refine ⟨fun path text hexisting hhand => ?_, fun path hpath => nomatch hpath⟩
  have hnone : ∀ file ∈ deleted.existing.entries, deleted.isHandwritten file = false := by
    decide +kernel
  rw [hnone (path, text) (InsertionMap.get_eq_some_iff.1 hexisting)] at hhand
  cases hhand

theorem again_ordering (now later : Text) (tree : InsertionMap Text Text) :
    Again (ordering now tree) (ordering later (ordering now tree).run.tree) where
  host := ⟨later, rfl⟩
  tree := rfl
  symlink := rfl
  files := rfl
  skipOutputDeletion := rfl
  colocated := rfl
  metadataPath := rfl
  metadata := rfl

theorem converges_deleted :
    Converges alphabetical [orderModule] deleted ↔
      NoBarrelModule alphabetical [orderModule] ∧ Referring deleted :=
  converges_iff alphabetical [orderModule] deleted deletedAgain buildSourceFiles_order rfl rfl
    run_deleted (stamps_ordering (by decide) (by decide +kernel)) settled_deleted
    (again_ordering _ _ _) (stamps_ordering (by decide) (by decide +kernel))

/-- The barrel that is left exports the order twice. -/
theorem not_converges : ¬ ∀ (o : RenderOptions) (modules : List RenderedModule) (g : Generation),
    buildSourceFiles o modules = .ok g.files → g.colocated = false →
      g.skipOutputDeletion = false → g.run.error = none → Converges o modules g := by
  intro h
  have hconverges := h alphabetical [orderModule] deleted buildSourceFiles_order rfl rfl run_deleted
  obtain ⟨text, hget⟩ : ∃ text, deleted.run.tree.get "index.ts".toList = some text :=
    Option.isSome_iff_exists.1 (by decide +kernel)
  have hleft : ∀ text ∈ deleted.run.tree.get "index.ts".toList, owned deleted.host text = true ∧
      (lines (body text)).countP (fun line =>
        (exportOf line).map (exported "index.ts".toList) = some "Order.ts".toList) = 2 := by
    decide +kernel
  obtain ⟨howned, htwice⟩ := hleft text hget
  have honce := hconverges.once "index.ts".toList text (by decide) (by decide) hget howned
    orderModule List.mem_cons_self (by decide)
  have hpath : alphabetical.path orderModule = "Order.ts".toList := by decide
  rw [hpath, htwice] at honce
  cases honce

end Arc.ProxyGenerator.Generation
