import Mathlib.Data.List.Sort
import Arc.ProxyGenerator.HandwrittenFiles
import Arc.Foundation.Checks

/-!
# The generated source files

`renderSource` gives each model and operation a file, whose name is made of identifiers, and
refuses two that are one in lower case. `buildSourceFiles` adds a barrel to each directory of
these files: an `index.ts` with a line for each file of the directory.
-/

namespace Arc.ProxyGenerator

/-- A model or an operation as it is rendered: the segments of its namespace that are not
skipped, its name, what its source is called, and its text. -/
structure RenderedModule where
  segments : List Text
  name : Text
  source : Text
  text : Text

/-- The entry of a module. -/
def moduleEntry (m : RenderedModule) : SourceFileEntry := ⟨m.source, m.text, false⟩

inductive RenderError
  | unsafeName (name : Text)
  | collision (path : Text)

/-- What the files of a rendering depend on: whether the file names have the proxy suffix, and in
which order the paths are sorted. -/
structure RenderOptions where
  useProxyFileSuffix : Bool
  localeCompare : Text → Text → Bool

/-- `path.toLowerCase()` of a path, which is made of ASCII characters. -/
def folded (path : Text) : Text := path.map Char.toLower

/-- `/^[A-Za-z][A-Za-z0-9_]*$/` -/
def isIdentifier : Text → Bool
  | [] => false
  | first :: rest => first.isAlpha && rest.all fun c => c.isAlphanum || c = '_'

namespace RenderOptions

variable (o : RenderOptions)

/-- The name of a module, as it is exported. -/
def stem (name : Text) : Text := name ++ if o.useProxyFileSuffix then ".proxy".toList else []

def filename (m : RenderedModule) : Except RenderError Text :=
  if m.segments.all isIdentifier && isIdentifier m.name then
    .ok (List.intercalate ['/'] (m.segments ++ [o.stem m.name ++ ".ts".toList]))
  else .error (.unsafeName m.name)

/-- The loops of `renderSource` over the models and the operations. -/
def addModules : List RenderedModule → InsertionMap Text SourceFileEntry →
    Except RenderError (InsertionMap Text SourceFileEntry)
  | [], files => .ok files
  | m :: modules, files => do
      let path ← o.filename m
      if files.keys.any fun other => folded other = folded path then .error (.collision path)
      else addModules modules (files.set path (moduleEntry m))

/-- The files in the order of their paths. -/
def sortFiles (files : InsertionMap Text SourceFileEntry) : InsertionMap Text SourceFileEntry where
  entries := files.entries.mergeSort fun first second => o.localeCompare first.1 second.1
  nodup_keys := by
    have hperm := List.mergeSort_perm files.entries
      fun first second => o.localeCompare first.1 second.1
    exact (hperm.map Prod.fst).nodup_iff.2 files.nodup_keys

def renderSource (modules : List RenderedModule) :
    Except RenderError (InsertionMap Text SourceFileEntry) := do
  let files ← o.addModules modules InsertionMap.empty
  .ok (o.sortFiles files)

end RenderOptions

/-- The order of `sort()` on texts of one plane: by their characters. -/
def sortsBefore : Text → Text → Bool
  | [], _ => true
  | _ :: _, [] => false
  | c :: text, d :: other => c.toNat < d.toNat || (c.toNat == d.toNat && sortsBefore text other)

/-- `export * from './m';` -/
def exportLine (target : Text) : Text := "export * from './".toList ++ target ++ "';".toList

/-- The line of a barrel for a file of its directory. -/
def moduleLine (directory path : Text) : Text :=
  let name := path.drop (if directory = ['.'] then 0 else directory.length + 1)
  exportLine (if List.isSuffixOf ".ts".toList name then name.take (name.length - 3) else name)

/-- The text of the barrel of a directory. -/
def barrelText (files : InsertionMap Text SourceFileEntry) (directory : Text) : Text :=
  unlines (((files.keys.filter fun path => dirname path = directory).map
    (moduleLine directory)).mergeSort sortsBefore) ++ ['\n']

def addBarrels (directories : List Text) (files : InsertionMap Text SourceFileEntry) :
    InsertionMap Text SourceFileEntry :=
  directories.foldl (fun files directory =>
    files.set (joinPath directory "index.ts".toList) ⟨[], barrelText files directory, false⟩) files

/-- Render source models, operations, and their generated barrels. -/
def buildSourceFiles (o : RenderOptions) (modules : List RenderedModule) :
    Except RenderError (InsertionMap Text SourceFileEntry) := do
  let files ← o.renderSource modules
  .ok (addBarrels (files.keys.map dirname).eraseDups files)

/-! ### Paths of segments -/

/-- A segment that resolving a path keeps. -/
def IsPlain (segment : Text) : Prop :=
  segment ≠ [] ∧ segment ≠ ['.'] ∧ segment ≠ ['.', '.'] ∧ '/' ∉ segment

def pathOf (segments : List Text) (name : Text) : Text :=
  List.intercalate ['/'] (segments ++ [name])

def directoryOf (segments : List Text) : Text :=
  if segments = [] then ['.'] else List.intercalate ['/'] segments

theorem splitOn_pathOf {segments : List Text} {name : Text}
    (hsegments : ∀ segment ∈ segments, IsPlain segment) (hname : IsPlain name) :
    (pathOf segments name).splitOn '/' = segments ++ [name] := by
  refine List.splitOn_intercalate '/' ?_ (by simp)
  intro segment hsegment
  rcases List.mem_append.1 hsegment with h | h
  · exact (hsegments segment h).2.2.2
  · rw [List.mem_singleton.1 h]
    exact hname.2.2.2

theorem dirname_pathOf {segments : List Text} {name : Text}
    (hsegments : ∀ segment ∈ segments, IsPlain segment) (hname : IsPlain name) :
    dirname (pathOf segments name) = directoryOf segments := by
  unfold dirname directoryOf
  rw [splitOn_pathOf hsegments hname, List.dropLast_concat]
  cases segments <;> rfl

theorem basename_pathOf {segments : List Text} {name : Text}
    (hsegments : ∀ segment ∈ segments, IsPlain segment) (hname : IsPlain name) :
    basename (pathOf segments name) = name := by
  unfold basename
  rw [splitOn_pathOf hsegments hname]
  simp

theorem intercalate_concat (separator : Char) {segments : List Text} (hne : segments ≠ [])
    (name : Text) :
    List.intercalate [separator] (segments ++ [name]) =
      List.intercalate [separator] segments ++ separator :: name := by
  induction segments with
  | nil => exact absurd rfl hne
  | cons segment segments ih =>
      cases segments with
      | nil => simp [List.intercalate_cons_cons]
      | cons next segments =>
          rw [List.cons_append, List.intercalate_cons_of_ne_nil (by simp), ih (by simp),
            List.intercalate_cons_cons]
          simp

theorem pathOf_eq_append {segments : List Text} (hne : segments ≠ []) (name : Text) :
    pathOf segments name = List.intercalate ['/'] segments ++ '/' :: name :=
  intercalate_concat '/' hne name

theorem foldl_resolveSegment {segments resolved : List Text}
    (hsegments : ∀ segment ∈ segments, IsPlain segment) :
    segments.foldl resolveSegment resolved = segments.reverse ++ resolved := by
  induction segments generalizing resolved with
  | nil => rfl
  | cons segment segments ih =>
      obtain ⟨hne, hdot, hdots, -⟩ := hsegments segment List.mem_cons_self
      have hresolve : resolveSegment resolved segment = segment :: resolved := by
        simp [resolveSegment, hne, hdot, hdots]
      rw [List.foldl_cons, hresolve, ih fun other h => hsegments other (List.mem_cons_of_mem _ h),
        List.reverse_cons, List.append_assoc, List.singleton_append]

theorem joinPath_directoryOf {segments : List Text} {name : Text}
    (hsegments : ∀ segment ∈ segments, IsPlain segment) (hname : IsPlain name) :
    joinPath (directoryOf segments) name = pathOf segments name := by
  have hall : ∀ segment ∈ segments ++ [name], IsPlain segment := by
    intro segment hsegment
    rcases List.mem_append.1 hsegment with h | h
    · exact hsegments segment h
    · rw [List.mem_singleton.1 h]
      exact hname
  have hresolved : ((directoryOf segments ++ '/' :: name).splitOn '/').foldl resolveSegment [] =
      (segments ++ [name]).reverse := by
    by_cases hempty : segments = []
    · subst hempty
      have hsplit : (['.'] ++ '/' :: name).splitOn '/' = [['.'], name] := by
        have h : (List.intercalate ['/'] [['.'], name]).splitOn '/' = [['.'], name] :=
          List.splitOn_intercalate '/' (by simpa using hname.2.2.2) (by simp)
        simpa [List.intercalate_cons_cons] using h
      have hdirectory : directoryOf [] = ['.'] := rfl
      rw [hdirectory, hsplit, List.foldl_cons]
      have hdot : resolveSegment [] ['.'] = [] := by simp [resolveSegment]
      have hsingle : ∀ segment ∈ [name], IsPlain segment := by simpa using hname
      rw [hdot, foldl_resolveSegment hsingle]
      rfl
    · have hdirectory : directoryOf segments = List.intercalate ['/'] segments := if_neg hempty
      rw [hdirectory, ← pathOf_eq_append hempty, splitOn_pathOf hsegments hname,
        foldl_resolveSegment hall, List.append_nil]
  unfold joinPath
  rw [hresolved]
  split
  · rename_i hnil
    simp at hnil
  · rw [List.reverse_reverse]
    rfl

theorem moduleLine_pathOf {segments : List Text} (name : Text)
    (hsegments : ∀ segment ∈ segments, IsPlain segment) :
    moduleLine (directoryOf segments) (pathOf segments (name ++ ".ts".toList)) =
      exportLine name := by
  have hdrop : (pathOf segments (name ++ ".ts".toList)).drop
      (if directoryOf segments = ['.'] then 0 else (directoryOf segments).length + 1) =
        name ++ ".ts".toList := by
    by_cases hempty : segments = []
    · subst hempty
      have hroot : directoryOf [] = ['.'] := rfl
      rw [hroot, if_pos rfl, List.drop_zero]
      simp [pathOf]
    · have hdirectory : directoryOf segments = List.intercalate ['/'] segments := if_neg hempty
      have hnot : directoryOf segments ≠ ['.'] := by
        intro hdot
        obtain ⟨first, rest, rfl⟩ := List.exists_cons_of_ne_nil hempty
        have hsplit : (List.intercalate ['/'] (first :: rest)).splitOn '/' = first :: rest :=
          List.splitOn_intercalate '/' (fun segment h => (hsegments segment h).2.2.2) (by simp)
        rw [← hdirectory, hdot] at hsplit
        have hfirst : first = ['.'] := (List.cons.inj hsplit).1.symm
        exact (hsegments first List.mem_cons_self).2.1 hfirst
      rw [if_neg hnot, pathOf_eq_append hempty, hdirectory]
      have hlength : (List.intercalate ['/'] segments ++ '/' :: (name ++ ".ts".toList)) =
          (List.intercalate ['/'] segments ++ ['/']) ++ (name ++ ".ts".toList) := by simp
      rw [hlength]
      exact List.drop_left' (by simp)
  unfold moduleLine
  dsimp only
  rw [hdrop, if_pos (List.isSuffixOf_iff_suffix.2 (List.suffix_append _ _))]
  congr 1
  exact List.take_left' (by simp)

/-! ### Lines of a barrel -/

theorem exportOf_exportLine {target : Text} (hne : target ≠ []) (hquote : '\'' ∉ target) :
    exportOf (exportLine target) = some target := by
  have htarget : ((exportLine target).drop "export * from './".toList.length).take
      ((exportLine target).length - "export * from './".toList.length - "';".toList.length) =
        target := by
    unfold exportLine
    rw [List.append_assoc, List.drop_left]
    refine List.take_left' ?_
    simp
  unfold exportOf
  dsimp only
  rw [htarget, if_pos ⟨hne, hquote, rfl⟩]

theorem eq_exportLine_of_exportOf {line target : Text} (h : exportOf line = some target) :
    line = exportLine target := by
  unfold exportOf at h
  dsimp only at h
  split at h
  · rename_i hline
    rw [← Option.some.inj h]
    exact hline.2.2
  · cases h

end Arc.ProxyGenerator
