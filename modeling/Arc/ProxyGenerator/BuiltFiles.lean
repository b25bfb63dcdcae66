import Arc.ProxyGenerator.SourceFiles

/-!
# What is built

The files that are built are the modules, under different paths, and the barrels of their
directories, which export each module of the directory on one line, when no module is called like
a barrel.
-/

namespace Arc.ProxyGenerator

namespace RenderOptions

variable (o : RenderOptions)

/-- The path of a module whose names are identifiers. -/
def path (m : RenderedModule) : Text := pathOf m.segments (o.stem m.name ++ ".ts".toList)

end RenderOptions

/-- The barrel of the directory of a module. -/
def RenderedModule.barrel (m : RenderedModule) : Text := pathOf m.segments "index.ts".toList

/-- The names of a module are identifiers. -/
def RenderedModule.IsSafe (m : RenderedModule) : Prop :=
  (∀ segment ∈ m.segments, isIdentifier segment = true) ∧ isIdentifier m.name = true

variable {o : RenderOptions}

/-! ### Identifiers -/

/-- A character of an identifier. -/
def isWord (c : Char) : Bool := c.isAlphanum || c = '_'

theorem isWord_of_mem {text : Text} (h : isIdentifier text = true) {c : Char} (hc : c ∈ text) :
    isWord c = true := by
  cases text with
  | nil => cases hc
  | cons first rest =>
      unfold isIdentifier at h
      rw [Bool.and_eq_true, List.all_eq_true] at h
      rcases List.mem_cons.1 hc with rfl | hc
      · simp [isWord, Char.isAlphanum, h.1]
      · exact h.2 c hc

theorem isIdentifier_ne_nil {text : Text} (h : isIdentifier text = true) : text ≠ [] := by
  rintro rfl
  cases h

theorem isPlain_of_isIdentifier {text : Text} (h : isIdentifier text = true) :
    IsPlain text := by
  refine ⟨isIdentifier_ne_nil h, ?_, ?_, fun hc => ?_⟩
  · rintro rfl
    exact absurd h (by decide)
  · rintro rfl
    exact absurd h (by decide)
  · exact absurd (isWord_of_mem h hc) (by decide)

theorem isPlain_append {text : Text} (h : isIdentifier text = true) {suffix : Text}
    (hsuffix : '/' ∉ suffix) : IsPlain (text ++ suffix) := by
  cases text with
  | nil => cases h
  | cons first rest =>
      have hfirst : first ≠ '.' := by
        rintro rfl
        exact absurd (isWord_of_mem h List.mem_cons_self) (by decide)
      refine ⟨by simp, ?_, ?_, ?_⟩
      · simp [hfirst]
      · simp [hfirst]
      · rw [List.mem_append, not_or]
        exact ⟨fun hc => absurd (isWord_of_mem h hc) (by decide), hsuffix⟩

/-- A module is exported under its name, with the suffix if there is one. -/
theorem stem_spec {name : Text} (h : isIdentifier name = true) :
    o.stem name ≠ [] ∧ '\'' ∉ o.stem name ∧ '\n' ∉ o.stem name := by
  have hnot : ∀ c, isWord c = false → c ∉ ".proxy".toList → c ∉ o.stem name := by
    intro c hword hsuffix
    unfold RenderOptions.stem
    rw [List.mem_append, not_or]
    refine ⟨fun hc => ?_, ?_⟩
    · rw [isWord_of_mem h hc] at hword
      cases hword
    · split_ifs
      · exact hsuffix
      · exact List.not_mem_nil
  refine ⟨?_, hnot _ (by decide) (by decide), hnot _ (by decide) (by decide)⟩
  unfold RenderOptions.stem
  exact List.append_ne_nil_of_left_ne_nil (isIdentifier_ne_nil h) _

theorem isPlain_fileName {name : Text} (h : isIdentifier name = true) :
    IsPlain (o.stem name ++ ".ts".toList) := by
  unfold RenderOptions.stem
  rw [List.append_assoc]
  refine isPlain_append h ?_
  rw [List.mem_append, not_or]
  refine ⟨?_, by decide⟩
  split_ifs
  · decide
  · exact List.not_mem_nil

theorem isPlain_index : IsPlain "index.ts".toList := by
  refine ⟨by decide, by decide, by decide, by decide⟩

section Paths

variable {m : RenderedModule} (h : m.IsSafe)

include h

theorem segments_isPlain : ∀ segment ∈ m.segments, IsPlain segment :=
  fun segment hsegment => isPlain_of_isIdentifier (h.1 segment hsegment)

theorem filename_eq : o.filename m = .ok (o.path m) := by
  have hall : m.segments.all isIdentifier = true := List.all_eq_true.2 h.1
  unfold RenderOptions.filename
  rw [hall, h.2, if_pos (by rfl)]
  rfl

theorem dirname_path : dirname (o.path m) = directoryOf m.segments :=
  dirname_pathOf (segments_isPlain h) (isPlain_fileName h.2)

theorem dirname_barrel : dirname (m.barrel) = directoryOf m.segments :=
  dirname_pathOf (segments_isPlain h) isPlain_index

theorem joinPath_barrel : joinPath (directoryOf m.segments) "index.ts".toList = m.barrel :=
  joinPath_directoryOf (segments_isPlain h) isPlain_index

theorem basename_path : basename (o.path m) = o.stem m.name ++ ".ts".toList :=
  basename_pathOf (segments_isPlain h) (isPlain_fileName h.2)

theorem isBarrel_barrel : isBarrel (m.barrel) = true := by
  unfold isBarrel RenderedModule.barrel
  rw [basename_pathOf (segments_isPlain h) isPlain_index]
  exact decide_eq_true rfl

theorem moduleLine_path :
    moduleLine (directoryOf m.segments) (o.path m) = exportLine (o.stem m.name) :=
  moduleLine_pathOf _ (segments_isPlain h)

/-- The line of a module refers to the module, in any barrel of its directory. -/
theorem exported_stem {path : Text} (hpath : dirname path = directoryOf m.segments) :
    exported path (o.stem m.name) = o.path m := by
  unfold exported
  rw [hpath]
  exact joinPath_directoryOf (segments_isPlain h) (isPlain_fileName h.2)

end Paths

/-! ### Paths in lower case -/

theorem folded_intercalate (segments : List Text) :
    folded (List.intercalate ['/'] segments) =
      List.intercalate ['/'] (segments.map folded) := by
  induction segments with
  | nil => rfl
  | cons segment segments ih =>
      cases segments with
      | nil => simp
      | cons next segments =>
          rw [List.intercalate_cons_cons, List.map_cons, List.map_cons,
            List.intercalate_cons_cons, ← List.map_cons, ← ih]
          simp [folded]

theorem slash_not_mem_folded {text : Text} (h : '/' ∉ text) : '/' ∉ folded text := by
  intro hmem
  obtain ⟨c, hc, hlower⟩ := List.mem_map.1 hmem
  refine h ?_
  have hsame : c = '/' := by
    by_contra hne
    unfold Char.toLower at hlower
    split at hlower
    · rename_i hupper
      have hval := congrArg (fun c => c.val.toNat) hlower
      have hfirst : 65 ≤ c.val.toNat := hupper.1
      have hlast : c.val.toNat ≤ 90 := hupper.2
      have hslash : ('/' : Char).val.toNat = 47 := rfl
      have hdistance : ('a'.val - 'A'.val).toNat = 32 := rfl
      simp only [UInt32.toNat_add, hdistance, hslash] at hval
      omega
    · exact hne hlower
  exact hsame ▸ hc

/-- Paths that are one in lower case have file names that are. -/
theorem folded_basename {segments segments' : List Text} {name name' : Text}
    (hsegments : ∀ segment ∈ segments, IsPlain segment) (hname : IsPlain name)
    (hsegments' : ∀ segment ∈ segments', IsPlain segment) (hname' : IsPlain name')
    (h : folded (pathOf segments name) = folded (pathOf segments' name')) :
    folded name = folded name' := by
  have hsplit : ∀ (segments : List Text) (name : Text),
      (∀ segment ∈ segments, IsPlain segment) → IsPlain name →
        (folded (pathOf segments name)).splitOn '/' = segments.map folded ++ [folded name] := by
    intro segments name hsegments hname
    unfold pathOf
    rw [folded_intercalate, List.map_append]
    refine List.splitOn_intercalate '/' ?_ (by simp)
    intro segment hsegment
    rcases List.mem_append.1 hsegment with hmem | hmem
    · obtain ⟨segment', hsegment', rfl⟩ := List.mem_map.1 hmem
      exact slash_not_mem_folded (hsegments segment' hsegment').2.2.2
    · rw [List.mem_singleton.1 hmem]
      exact slash_not_mem_folded hname.2.2.2
  have hlists := hsplit segments name hsegments hname
  rw [h, hsplit segments' name' hsegments' hname'] at hlists
  exact (List.append_inj' hlists rfl).2 |> List.singleton_inj.1 |> Eq.symm

/-! ### The modules -/

/-- What rendering some modules after others makes of the files. -/
structure Rendered (o : RenderOptions) (modules : List RenderedModule)
    (before after : InsertionMap Text SourceFileEntry) : Prop where
  safe : ∀ m ∈ modules, m.IsSafe
  get : ∀ m ∈ modules, after.get (o.path m) = some (moduleEntry m)
  kept : ∀ path, path ∈ before.keys → after.get path = before.get path
  only : ∀ path entry, after.get path = some entry →
    before.get path = some entry ∨ ∃ m ∈ modules, path = o.path m ∧ entry = moduleEntry m
  apart : modules.Pairwise fun m m' => folded (o.path m) ≠ folded (o.path m')
  fresh : ∀ m ∈ modules, folded (o.path m) ∉ before.keys.map folded

theorem addModules_rendered {modules : List RenderedModule}
    {before after : InsertionMap Text SourceFileEntry}
    (h : o.addModules modules before = .ok after) : Rendered o modules before after := by
  induction modules generalizing before with
  | nil =>
      obtain rfl : before = after := Except.ok.inj h
      exact ⟨by simp, by simp, fun _ _ => rfl, fun _ _ hget => .inl hget, .nil, by simp⟩
  | cons m modules ih =>
      rw [RenderOptions.addModules, Except.bind_eq_ok] at h
      obtain ⟨path, hpath, h⟩ := h
      have hsafe : m.IsSafe := by
        unfold RenderOptions.filename at hpath
        split at hpath
        · rename_i hnames
          rw [Bool.and_eq_true, List.all_eq_true] at hnames
          exact hnames
        · cases hpath
      obtain rfl : o.path m = path := Except.ok.inj ((filename_eq hsafe).symm.trans hpath)
      split at h
      · cases h
      rename_i hany
      have hfolded : folded (o.path m) ∉ before.keys.map folded := by
        intro hmem
        obtain ⟨other, hother, heq⟩ := List.mem_map.1 hmem
        exact hany (List.any_eq_true.2 ⟨other, hother, decide_eq_true heq⟩)
      have hnot : o.path m ∉ before.keys := fun hmem => hfolded (List.mem_map_of_mem hmem)
      have hkeys := InsertionMap.keys_set_of_not_mem (v := moduleEntry m) hnot
      have hafter := ih h
      refine ⟨?_, ?_, ?_, ?_, ?_, ?_⟩
      · exact List.forall_mem_cons.2 ⟨hsafe, hafter.safe⟩
      · refine List.forall_mem_cons.2 ⟨?_, hafter.get⟩
        rw [hafter.kept _ (by rw [hkeys]; simp), InsertionMap.get_set_self]
      · intro other hother
        have hne : other ≠ o.path m := fun heq => hnot (heq ▸ hother)
        rw [hafter.kept other (by rw [hkeys]; exact List.mem_append_left _ hother),
          InsertionMap.get_set_of_ne _ _ hne]
      · intro other entry hget
        rcases hafter.only other entry hget with hold | ⟨m', hm', hother, hentry⟩
        · by_cases heq : other = o.path m
          · rw [heq, InsertionMap.get_set_self] at hold
            exact .inr ⟨m, List.mem_cons_self, heq, (Option.some.inj hold).symm⟩
          · rw [InsertionMap.get_set_of_ne _ _ heq] at hold
            exact .inl hold
        · exact .inr ⟨m', List.mem_cons_of_mem _ hm', hother, hentry⟩
      · refine List.pairwise_cons.2 ⟨fun m' hm' heq => ?_, hafter.apart⟩
        refine hafter.fresh m' hm' ?_
        rw [hkeys, List.map_append, ← heq]
        simp
      · refine List.forall_mem_cons.2 ⟨hfolded, fun m' hm' hmem => ?_⟩
        refine hafter.fresh m' hm' ?_
        rw [hkeys, List.map_append]
        exact List.mem_append_left _ hmem

theorem get_sortFiles (files : InsertionMap Text SourceFileEntry) (path : Text) :
    (o.sortFiles files).get path = files.get path := by
  have hentry : ∀ entry, (o.sortFiles files).get path = some entry ↔
      files.get path = some entry := by
    intro entry
    rw [InsertionMap.get_eq_some_iff, InsertionMap.get_eq_some_iff]
    exact List.mem_mergeSort
  exact Option.ext hentry

/-! ### The barrels -/

theorem nodup_eraseDups (texts : List Text) : texts.eraseDups.Nodup := by
  induction hlength : texts.length using Nat.strong_induction_on generalizing texts with
  | _ length ih =>
      cases texts with
      | nil => simp
      | cons text texts =>
          rw [List.eraseDups_cons, List.nodup_cons, List.mem_eraseDups]
          refine ⟨by simp, ih _ ?_ _ rfl⟩
          rw [← hlength, List.length_cons]
          exact Nat.lt_succ_of_le (List.length_filter_le _ _)

/-- A file of another directory leaves the text of a barrel. -/
theorem barrelText_set {files : InsertionMap Text SourceFileEntry} {path directory : Text}
    (h : path ∉ files.keys) (hdirname : dirname path ≠ directory) (entry : SourceFileEntry) :
    barrelText (files.set path entry) directory = barrelText files directory := by
  unfold barrelText
  rw [InsertionMap.keys_set_of_not_mem h, List.filter_append, List.filter_singleton, decide_eq_false hdirname, cond_false,
    List.append_nil]

/-- The barrels that are added, each with the files its directory had before. -/
theorem addBarrels_spec (files : InsertionMap Text SourceFileEntry) {directories : List Text}
    (hnodup : directories.Nodup)
    (hdirectory : ∀ directory ∈ directories,
      dirname (joinPath directory "index.ts".toList) = directory ∧
        joinPath directory "index.ts".toList ∉ files.keys) :
    (∀ path, (∀ directory ∈ directories, path ≠ joinPath directory "index.ts".toList) →
      (addBarrels directories files).get path = files.get path) ∧
    ∀ directory ∈ directories,
      (addBarrels directories files).get (joinPath directory "index.ts".toList) =
        some ⟨[], barrelText files directory, false⟩ := by
  unfold addBarrels
  induction directories generalizing files with
  | nil => exact ⟨fun _ _ => rfl, by simp⟩
  | cons directory directories ih =>
      obtain ⟨hfresh, hnodup⟩ := List.nodup_cons.1 hnodup
      obtain ⟨hdirname, hkeys⟩ := hdirectory directory List.mem_cons_self
      have hbarrel : ∀ other ∈ directories,
          joinPath other "index.ts".toList ≠ joinPath directory "index.ts".toList := by
        intro other hother heq
        have hdirnameOther := (hdirectory other (List.mem_cons_of_mem _ hother)).1
        rw [heq, hdirname] at hdirnameOther
        exact hfresh (hdirnameOther ▸ hother)
      have hset := InsertionMap.keys_set_of_not_mem (v := ⟨[], barrelText files directory, false⟩) hkeys
      have htext : ∀ other ∈ directories,
          barrelText (files.set (joinPath directory "index.ts".toList)
            ⟨[], barrelText files directory, false⟩) other = barrelText files other := by
        intro other hother
        refine barrelText_set hkeys ?_ _
        rw [hdirname]
        rintro rfl
        exact hfresh hother
      obtain ⟨hkept, hadded⟩ := ih _ hnodup (fun other hother => by
        obtain ⟨hother', hnot⟩ := hdirectory other (List.mem_cons_of_mem _ hother)
        refine ⟨hother', ?_⟩
        rw [hset, List.mem_append, not_or, List.mem_singleton]
        exact ⟨hnot, hbarrel other hother⟩)
      rw [List.foldl_cons]
      constructor
      · intro path hpath
        rw [hkept path fun other hother => hpath other (List.mem_cons_of_mem _ hother),
          InsertionMap.get_set_of_ne _ _ (hpath directory List.mem_cons_self)]
      · intro other hother
        rcases List.mem_cons.1 hother with rfl | hother
        · rw [hkept _ fun other hother => (hbarrel other hother).symm, InsertionMap.get_set_self]
        · rw [hadded other hother, htext other hother]

/-! ### What is built -/

/-- No module is called like a barrel. -/
def NoBarrelModule (o : RenderOptions) (modules : List RenderedModule) : Prop :=
  ∀ m ∈ modules, folded (o.stem m.name ++ ".ts".toList) ≠ "index.ts".toList

/-- The barrel of a directory exports each of its modules once. -/
structure Exports (o : RenderOptions) (modules : List RenderedModule) (path text : Text)
    (targets : List Text) : Prop where
  text : text = unlines (targets.map exportLine) ++ ['\n']
  ne_nil : targets ≠ []
  names : ∀ target ∈ targets, target ≠ [] ∧ '\'' ∉ target ∧ '\n' ∉ target
  nodup : (targets.map (exported path)).Nodup
  mem : ∀ other, other ∈ targets.map (exported path) ↔
    ∃ m ∈ modules, o.path m = other ∧ dirname other = dirname path

/-- The files that are built: the modules, and the barrels of their directories. -/
structure Built (o : RenderOptions) (modules : List RenderedModule)
    (files : InsertionMap Text SourceFileEntry) : Prop where
  safe : ∀ m ∈ modules, m.IsSafe
  apart : modules.Pairwise fun m m' => folded (o.path m) ≠ folded (o.path m')
  get : ∀ m ∈ modules, isBarrel (o.path m) = false ∧ files.get (o.path m) = some (moduleEntry m)
  only : ∀ path entry, files.get path = some entry → isBarrel path = false →
    ∃ m ∈ modules, path = o.path m ∧ entry = moduleEntry m
  barrels : ∀ path entry, files.get path = some entry → isBarrel path = true →
    entry.source = [] ∧ ∃ targets, Exports o modules path entry.text targets

theorem not_isBarrel_path {modules : List RenderedModule} (hnot : NoBarrelModule o modules)
    {m : RenderedModule} (hm : m ∈ modules) (hsafe : m.IsSafe) :
    isBarrel (o.path m) = false := by
  unfold isBarrel
  rw [basename_path hsafe]
  refine decide_eq_false fun heq => hnot m hm ?_
  rw [heq]
  decide

theorem isBarrel_joinPath {m : RenderedModule} (hsafe : m.IsSafe) :
    isBarrel (joinPath (dirname (o.path m)) "index.ts".toList) = true := by
  rw [dirname_path hsafe, joinPath_barrel hsafe]
  exact isBarrel_barrel hsafe

/-- The text of a barrel, line by line. -/
theorem barrelText_exports {modules : List RenderedModule}
    {files : InsertionMap Text SourceFileEntry} (hsafe : ∀ m ∈ modules, m.IsSafe)
    (hkeys : ∀ path, path ∈ files.keys ↔ ∃ m ∈ modules, o.path m = path) (path : Text)
    (hsome : ∃ other ∈ files.keys, dirname other = dirname path) :
    ∃ targets, Exports o modules path (barrelText files (dirname path)) targets := by
  -- the files of the directory, and the line of each
  have hline : ∀ other ∈ files.keys.filter fun other => dirname other = dirname path,
      ∃ target, moduleLine (dirname path) other = exportLine target ∧
        exported path target = other ∧ target ≠ [] ∧ '\'' ∉ target ∧ '\n' ∉ target := by
    intro other hother
    obtain ⟨hmem, hdirname⟩ := List.mem_filter.1 hother
    obtain ⟨m, hm, rfl⟩ := (hkeys other).1 hmem
    have hdirectory : dirname path = directoryOf m.segments :=
      (of_decide_eq_true hdirname).symm.trans (dirname_path (hsafe m hm))
    refine ⟨o.stem m.name, ?_, exported_stem (hsafe m hm) hdirectory, stem_spec (hsafe m hm).2⟩
    rw [hdirectory]
    exact moduleLine_path (hsafe m hm)
  have hperm := List.mergeSort_perm ((files.keys.filter fun other =>
    dirname other = dirname path).map (moduleLine (dirname path))) sortsBefore
  have hsorted : ∀ line ∈ ((files.keys.filter fun other => dirname other = dirname path).map
      (moduleLine (dirname path))).mergeSort sortsBefore,
      ∃ target, exportOf line = some target ∧ line = exportLine target ∧
        target ≠ [] ∧ '\'' ∉ target ∧ '\n' ∉ target := by
    intro line hmem
    obtain ⟨other, hother, rfl⟩ := List.mem_map.1 (hperm.mem_iff.1 hmem)
    obtain ⟨target, heq, -, hne, hquote, hnewline⟩ := hline other hother
    exact ⟨target, by rw [heq, exportOf_exportLine hne hquote], heq, hne, hquote, hnewline⟩
  have htargets : ((((files.keys.filter fun other => dirname other = dirname path).map
      (moduleLine (dirname path))).mergeSort sortsBefore).map fun line => exported path ((exportOf line).getD [])).Perm
          (files.keys.filter fun other => dirname other = dirname path) := by
    refine (hperm.map _).trans (List.Perm.of_eq ?_)
    rw [List.map_map]
    refine (List.map_congr_left fun other hother => ?_).trans (List.map_id _)
    obtain ⟨target, heq, hexported, hne, hquote, -⟩ := hline other hother
    simp only [Function.comp, heq, exportOf_exportLine hne hquote, Option.getD_some, hexported,
      id]
  refine ⟨(((files.keys.filter fun other => dirname other = dirname path).map
      (moduleLine (dirname path))).mergeSort sortsBefore).map
        fun line => (exportOf line).getD [], ?_, ?_, ?_, ?_, ?_⟩
  · unfold barrelText
    rw [List.map_map]
    congr 2
    refine (List.map_id _).symm.trans (List.map_congr_left fun line hmem => ?_)
    obtain ⟨target, hexport, heq, -⟩ := hsorted line hmem
    simp only [id, Function.comp, hexport, Option.getD_some, ← heq]
  · obtain ⟨other, hmem, hdirname⟩ := hsome
    intro hnil
    have hlength := htargets.length_eq
    rw [List.length_map] at hlength
    have hzero := congrArg List.length hnil
    rw [List.length_map, hlength] at hzero
    have hin : other ∈ files.keys.filter fun other => dirname other = dirname path :=
      List.mem_filter.2 ⟨hmem, decide_eq_true hdirname⟩
    rw [List.length_eq_zero_iff.1 hzero] at hin
    cases hin
  · intro target htarget
    obtain ⟨line, hmem, rfl⟩ := List.mem_map.1 htarget
    obtain ⟨target, hexport, -, hnames⟩ := hsorted line hmem
    rw [hexport]
    exact hnames
  · rw [List.map_map]
    exact htargets.nodup_iff.2 (files.nodup_keys.filter _)
  · intro other
    rw [List.map_map]
    refine (htargets.mem_iff (a := other)).trans ?_
    rw [List.mem_filter, hkeys, decide_eq_true_eq]
    constructor
    · rintro ⟨⟨m, hm, rfl⟩, hdirname⟩
      exact ⟨m, hm, rfl, hdirname⟩
    · rintro ⟨m, hm, rfl, hdirname⟩
      exact ⟨⟨m, hm, rfl⟩, hdirname⟩

theorem buildSourceFiles_built {modules : List RenderedModule}
    {files : InsertionMap Text SourceFileEntry} (h : buildSourceFiles o modules = .ok files)
    (hnot : NoBarrelModule o modules) : Built o modules files := by
  unfold buildSourceFiles RenderOptions.renderSource at h
  rw [Except.bind_eq_ok] at h
  obtain ⟨sorted, h, hfiles⟩ := h
  rw [Except.bind_eq_ok] at h
  obtain ⟨added, hadded, hsorted⟩ := h
  obtain rfl := Except.ok.inj hsorted
  obtain rfl := Except.ok.inj hfiles
  have hrendered := addModules_rendered hadded
  have hkeys : ∀ path, path ∈ (o.sortFiles added).keys ↔ ∃ m ∈ modules, o.path m = path := by
    intro path
    rw [InsertionMap.mem_keys_iff]
    constructor
    · rintro ⟨entry, hget⟩
      rw [get_sortFiles] at hget
      rcases hrendered.only path entry hget with hempty | ⟨m, hm, hpath, -⟩
      · rw [InsertionMap.get_empty] at hempty
        cases hempty
      · exact ⟨m, hm, hpath.symm⟩
    · rintro ⟨m, hm, rfl⟩
      exact ⟨_, (get_sortFiles _ _).trans (hrendered.get m hm)⟩
  have hmodule : ∀ m ∈ modules, isBarrel (o.path m) = false :=
    fun m hm => not_isBarrel_path hnot hm (hrendered.safe m hm)
  have hdirectory : ∀ directory ∈ ((o.sortFiles added).keys.map dirname).eraseDups,
      ∃ m ∈ modules, directory = dirname (o.path m) := by
    intro directory hmem
    obtain ⟨path, hpath, rfl⟩ := List.mem_map.1 (List.mem_eraseDups.1 hmem)
    obtain ⟨m, hm, rfl⟩ := (hkeys path).1 hpath
    exact ⟨m, hm, rfl⟩
  have hbarrel : ∀ directory ∈ ((o.sortFiles added).keys.map dirname).eraseDups,
      isBarrel (joinPath directory "index.ts".toList) = true := by
    intro directory hmem
    obtain ⟨m, hm, rfl⟩ := hdirectory directory hmem
    exact isBarrel_joinPath (hrendered.safe m hm)
  obtain ⟨hkept, hbarrels⟩ := addBarrels_spec (o.sortFiles added)
    (nodup_eraseDups ((o.sortFiles added).keys.map dirname)) fun directory hmem => by
      obtain ⟨m, hm, rfl⟩ := hdirectory directory hmem
      have hsafe := hrendered.safe m hm
      refine ⟨?_, fun hin => ?_⟩
      · rw [dirname_path hsafe, joinPath_barrel hsafe]
        exact dirname_barrel hsafe
      · obtain ⟨m', hm', heq⟩ := (hkeys _).1 hin
        have hfalse := hmodule m' hm'
        rw [heq, isBarrel_joinPath hsafe] at hfalse
        cases hfalse
  have hnotBarrel : ∀ path, isBarrel path = false →
      ∀ directory ∈ ((o.sortFiles added).keys.map dirname).eraseDups,
        path ≠ joinPath directory "index.ts".toList := by
    rintro path hfalse directory hmem rfl
    rw [hbarrel directory hmem] at hfalse
    cases hfalse
  refine ⟨hrendered.safe, hrendered.apart, ?_, ?_, ?_⟩
  · intro m hm
    refine ⟨hmodule m hm, ?_⟩
    rw [hkept _ (hnotBarrel _ (hmodule m hm)), get_sortFiles, hrendered.get m hm]
  · intro path entry hget hfalse
    rw [hkept _ (hnotBarrel _ hfalse), get_sortFiles] at hget
    rcases hrendered.only path entry hget with hempty | hmodule
    · rw [InsertionMap.get_empty] at hempty
      cases hempty
    · exact hmodule
  · intro path entry hget htrue
    by_cases hadded : ∃ directory ∈ ((o.sortFiles added).keys.map dirname).eraseDups,
        path = joinPath directory "index.ts".toList
    · obtain ⟨directory, hmem, rfl⟩ := hadded
      rw [hbarrels directory hmem] at hget
      obtain rfl := Option.some.inj hget
      refine ⟨rfl, ?_⟩
      obtain ⟨m, hm, rfl⟩ := hdirectory directory hmem
      have hsafe := hrendered.safe m hm
      have hdirname : dirname (joinPath (dirname (o.path m)) "index.ts".toList) =
          dirname (o.path m) := by
        rw [dirname_path hsafe, joinPath_barrel hsafe]
        exact dirname_barrel hsafe
      have hexports := barrelText_exports hrendered.safe hkeys
        (joinPath (dirname (o.path m)) "index.ts".toList)
        ⟨o.path m, (hkeys _).2 ⟨m, hm, rfl⟩, hdirname.symm⟩
      rw [hdirname] at hexports
      exact hexports
    · rw [hkept path fun directory hmem heq => hadded ⟨directory, hmem, heq⟩] at hget
      obtain ⟨m, hm, rfl⟩ := (hkeys path).1 (InsertionMap.mem_keys_iff.2 ⟨entry, hget⟩)
      rw [hmodule m hm] at htrue
      cases htrue

end Arc.ProxyGenerator
