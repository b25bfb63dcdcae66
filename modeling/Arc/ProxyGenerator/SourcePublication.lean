import Mathlib.Data.List.Infix
import Arc.Foundation.InsertionMap

/-!
# Publishing generated sources

The generator reads the TypeScript files below its output, refuses to go on when a file it
would replace or delete is not its own, rewrites the barrels that are not its own, and then
publishes the rendered files, deletes what it owns and no longer renders, and publishes the
metadata module. A file is its own when it begins with the marker and the hash of its body is
the one in the marker.

A tree is a map from paths to texts; paths are relative to the output, so that `../` leads out
of it. The temporary file through which a text is published is not part of the model: it has a
fresh name and is gone when the file stands.
-/

namespace Arc.ProxyGenerator

abbrev Text := List Char

/-- A generated file's identity and content, or an updated handwritten barrel. -/
structure SourceFileEntry where
  source : Text
  text : Text
  handwritten : Bool

/-- Prefix identifying files owned by the proxy generator. -/
def marker : Text := "// @generated by Cratis. Source: ".toList

/-- The last line of the header of generated server metadata. -/
def metadataMarker : Text :=
  "// @generated by Cratis. Regenerate with arc-proxygenerator --metadata.".toList

/-- What a generation uses of its host: the two hashes, the time, and the comment lines with
which a metadata module begins. -/
structure Host where
  digest : Text → Text
  sha256 : Text → Text
  now : Text
  notice : Text

/-- Exact header of generated server metadata before its integrity hash is added. -/
def Host.metadataHeader (h : Host) : Text := h.notice ++ metadataMarker

/-- What a generation throws. -/
inductive GenerationError
  | symlink (path : Text)
  | editedBarrel (path : Text)
  | handwritten (path : Text)
  | editedFile (path : Text)
  | unsafeOutput (path : Text)
  | changedDuringGeneration (path : Text)
  | changedDuringCleanup (path : Text)
  | handwrittenMetadata (path : Text)
deriving DecidableEq

/-- The text of the error. -/
def GenerationError.message : GenerationError → String
  | .symlink path => "Symlink in output: " ++ String.ofList path
  | .editedBarrel path =>
      "Refusing to overwrite edited generated barrel: " ++ String.ofList path
  | .handwritten path => "Refusing to overwrite handwritten or edited file: " ++ String.ofList path
  | .editedFile path => "Refusing to delete edited generated file: " ++ String.ofList path
  | .unsafeOutput path => "Unsafe output: " ++ String.ofList path
  | .changedDuringGeneration path => "Output changed during generation: " ++ String.ofList path
  | .changedDuringCleanup path => "Output changed during cleanup: " ++ String.ofList path
  | .handwrittenMetadata path =>
      "Refusing to overwrite handwritten or edited metadata: " ++ String.ofList path ++
        "; review and delete the file before regenerating"

/-! ### Paths -/

/-- The last segment of a path. -/
def basename (path : Text) : Text := (path.splitOn '/').getLastD []

def dirname (path : Text) : Text :=
  match (path.splitOn '/').dropLast with
  | [] => ['.']
  | segments => List.intercalate ['/'] segments

/-- One segment of a relative path is resolved against those before it, the last one first. -/
def resolveSegment (resolved : List Text) (segment : Text) : List Text :=
  if segment = [] ∨ segment = ['.'] then resolved
  else if segment = ['.', '.'] then
    match resolved with
    | last :: before => if last = ['.', '.'] then segment :: resolved else before
    | [] => [segment]
  else segment :: resolved

/-- The normalized join of two relative paths. -/
def joinPath (directory name : Text) : Text :=
  match ((directory ++ '/' :: name).splitOn '/').foldl resolveSegment [] with
  | [] => ['.']
  | resolved => List.intercalate ['/'] resolved.reverse

/-- The path lies below the output. -/
def inside (path : Text) : Bool := !List.isPrefixOf ['.', '.', '/'] path

def isTypeScript (path : Text) : Bool := List.isSuffixOf ".ts".toList path

def isBarrel (path : Text) : Bool := basename path = "index.ts".toList

/-- `path.includes('..')`. -/
def dotted (path : Text) : Bool := ['.', '.'] <:+: path

/-! ### Texts -/

def lines (text : Text) : List Text := text.splitOn '\n'

def unlines (lines : List Text) : Text := List.intercalate ['\n'] lines

/-- What `trim` removes. -/
def isWhiteSpace (c : Char) : Bool :=
  [0x9, 0xA, 0xB, 0xC, 0xD, 0x20, 0xA0, 0x1680, 0x2000, 0x2001, 0x2002, 0x2003, 0x2004, 0x2005,
    0x2006, 0x2007, 0x2008, 0x2009, 0x200A, 0x2028, 0x2029, 0x202F, 0x205F, 0x3000,
    0xFEFF].contains c.toNat

/-- `!line.trim()`. -/
def blank (line : Text) : Bool := line.all isWhiteSpace

def trimEnd (text : Text) : Text := (text.reverse.dropWhile isWhiteSpace).reverse

/-- The first line of a text and what follows its line end, when it has one. -/
def firstLine : Text → Option (Text × Text)
  | [] => none
  | c :: text => if c = '\n' then some ([], text) else (firstLine text).map fun p => (c :: p.1, p.2)

/-- The text after the first line end, the whole text when there is none. -/
def body (text : Text) : Text :=
  match firstLine text with
  | some (_, body) => body
  | none => text

variable (h : Host)

/-- Wrap generated content with its source and integrity metadata. -/
def content (source text : Text) : Text :=
  marker ++ source ++ ". Time: ".toList ++ h.now ++ ". Hash: ".toList ++ h.digest text ++
    '\n' :: text

/-- Check whether a file has an intact generated-file marker. -/
def owned (text : Text) : Bool :=
  match firstLine text with
  | some (line, body) =>
      !line.isEmpty && List.isPrefixOf marker line &&
        List.isSuffixOf (". Hash: ".toList ++ h.digest body) line
  | none => false

/-- Hash the body only when the generated file is intact. -/
def bodyHash (text : Text) : Option Text :=
  if owned h text then some (h.digest (body text)) else none

/-- The stamp of a metadata module and what follows it, from the end of the header on. -/
def isStamp (stamp : Text) : Bool :=
  List.isPrefixOf " Hash: ".toList stamp &&
    (stamp.drop 7).length = 64 &&
    (stamp.drop 7).all fun c => ('a' ≤ c ∧ c ≤ 'f') ∨ ('0' ≤ c ∧ c ≤ '9')

/-- Check the exact metadata header and the integrity hash of the unstamped file. -/
def metadataOwned (text : Text) : Bool :=
  List.isPrefixOf (h.metadataHeader ++ " Hash: ".toList) text &&
    match firstLine (text.drop h.metadataHeader.length) with
    | some (stamp, rest) =>
        isStamp stamp && h.sha256 (h.metadataHeader ++ '\n' :: rest) = stamp.drop 7
    | none => false

/-- Replace the first occurrence of a pattern. -/
def replaceFirst (pattern replacement : Text) : Text → Text
  | [] => if pattern = [] then replacement else []
  | c :: text =>
      if List.isPrefixOf pattern (c :: text) then
        replacement ++ (c :: text).drop pattern.length
      else c :: replaceFirst pattern replacement text

/-- The target of a line `export * from './m';`. -/
def exportOf (line : Text) : Option Text :=
  let opening := "export * from './".toList
  let closing := "';".toList
  let target := (line.drop opening.length).take (line.length - opening.length - closing.length)
  if target ≠ [] ∧ '\'' ∉ target ∧ line = opening ++ target ++ closing then some target else none

/-- The file a line of a barrel refers to. -/
def exported (path target : Text) : Text := joinPath (dirname path) (target ++ ".ts".toList)

/-! ### A generation -/

/-- What `preflightSourceFiles` and `publishSourceFiles` are called with. The rendered paths are
made of identifiers, an output among backend artifacts gets no barrels, a metadata module that
exists was found to be the generator's own before the sources were analyzed, and its header is
not the marker of the other files. -/
structure Generation where
  host : Host
  tree : InsertionMap Text Text
  /-- The first symbolic link below the output. -/
  symlink : Option Text
  files : InsertionMap Text SourceFileEntry
  skipOutputDeletion : Bool
  colocated : Bool
  metadataPath : Option Text
  metadata : Text
  generated : ∀ path entry, files.get path = some entry → entry.handwritten = false
  typeScript : ∀ path ∈ files.keys, isTypeScript path = true
  plain : ∀ path ∈ files.keys, dotted path = false
  unbarrelled : colocated = true → ∀ path ∈ files.keys, isBarrel path = false
  metadata_owned : ∀ path text, metadataPath = some path → tree.get path = some text →
    metadataOwned host text = true
  notice_ne_marker : ∀ text, host.metadataHeader <+: text → ¬ marker <+: text

/-- What a generation leaves behind: the tree, the changed paths, and what it threw. -/
structure Publication where
  tree : InsertionMap Text Text
  changed : List Text
  error : Option GenerationError

namespace Generation

variable (g : Generation)

/-- The TypeScript files below the output. -/
def existing : InsertionMap Text Text :=
  g.tree.filter fun path _ => inside path && isTypeScript path

/-! ### Preflight -/

/-- One turn of the loop of `verifyOwnership`. -/
def refuse (path text : Text) : Option GenerationError :=
  if isBarrel path && List.isPrefixOf marker text && !owned g.host text then
    some (.editedBarrel path)
  else
    match g.files.get path with
    | some entry =>
        if isBarrel path then none
        else if bodyHash g.host text ≠ some (g.host.digest entry.text) ∧ owned g.host text = false
          then some (.handwritten path)
        else none
    | none =>
        if !g.skipOutputDeletion && List.isPrefixOf marker text && !owned g.host text then
          some (.editedFile path)
        else none

def verifyOwnership : Option GenerationError :=
  g.existing.entries.findSome? fun file => g.refuse file.1 file.2

/-- Whether a line of the barrel at `path` stays, with `files` to be published. -/
def retains (files : InsertionMap Text SourceFileEntry) (path line : Text) : Bool :=
  match exportOf line with
  | none => !blank line
  | some target =>
      !(!g.skipOutputDeletion && (files.get (exported path target)).isNone &&
        owned g.host ((g.existing.get (exported path target)).getD []))

/-- Whether a line of an owned barrel is not about to be rendered again. -/
def foreign (path line : Text) : Bool :=
  match exportOf line with
  | none => true
  | some target => !owned g.host ((g.existing.get (exported path target)).getD [])

/-- One turn of the loop of `prepareBarrels`. -/
def prepareBarrel (files : InsertionMap Text SourceFileEntry) (file : Text × Text) :
    InsertionMap Text SourceFileEntry :=
  if !isBarrel file.1 then files
  else if owned g.host file.2 then
    let retained := (lines (body file.2)).filter (g.retains files file.1)
    match files.get file.1 with
    | some entry => files.set file.1
        { entry with
          text := unlines (retained.filter (g.foreign file.1) ++ lines (trimEnd entry.text)) ++
            ['\n'] }
    | none => files
  else
    let text := unlines ((lines file.2).filter (g.retains files file.1)) ++ ['\n']
    let files := files.delete file.1
    if text ≠ file.2 then files.set file.1 ⟨[], text, true⟩ else files

/-- Handwritten barrels retain their lines except references to deleted owned files. -/
def prepareBarrels : InsertionMap Text SourceFileEntry :=
  g.existing.entries.foldl g.prepareBarrel g.files

/-- The files to be published. -/
def prepared : InsertionMap Text SourceFileEntry :=
  if g.colocated then g.files else g.prepareBarrels

/-! ### Publication -/

/-- The text a file is published with. -/
def published (entry : SourceFileEntry) (previous : Option Text) : Text :=
  if entry.handwritten then entry.text
  else
    match previous with
    | some text =>
        if text ≠ [] ∧ bodyHash g.host text = some (g.host.digest entry.text) then text
        else content g.host entry.source entry.text
    | none => content g.host entry.source entry.text

/-- Publish the files in order, up to the first failure. -/
def publishFiles : List (Text × SourceFileEntry) → Publication → Publication
  | [], p => p
  | (path, entry) :: files, p =>
      let text := g.published entry (g.existing.get path)
      if g.existing.get path = some text then publishFiles files p
      else if dotted path then { p with error := some (.unsafeOutput path) }
      else if p.tree.get path ≠ g.existing.get path then
        { p with error := some (.changedDuringGeneration path) }
      else publishFiles files
        { p with tree := p.tree.set path text, changed := p.changed ++ [path] }

/-- An existing file that is deleted: owned, and no longer rendered. -/
def obsolete (path text : Text) : Bool :=
  !g.skipOutputDeletion && (g.prepared.get path).isNone && owned g.host text

/-- Delete what is obsolete. -/
def removeFiles : List (Text × Text) → Publication → Publication
  | [], p => p
  | (path, text) :: files, p =>
      if g.obsolete path text then
        if p.tree.get path ≠ some text then
          { p with error := some (.changedDuringCleanup path) }
        else removeFiles files
          { p with tree := p.tree.delete path, changed := p.changed ++ [path] }
      else removeFiles files p

def stamped : Text :=
  replaceFirst metadataMarker
    (metadataMarker ++ " Hash: ".toList ++ g.host.sha256 g.metadata) g.metadata

/-- Publish only owned metadata, keeping unchanged output byte-for-byte stable. -/
def publishMetadata (p : Publication) : Publication :=
  match g.metadataPath with
  | none => p
  | some path =>
      if g.metadata = [] then p
      else if (p.tree.get path).any fun text => !metadataOwned g.host text then
        { p with error := some (.handwrittenMetadata path) }
      else if p.tree.get path = some g.stamped then p
      else { p with tree := p.tree.set path g.stamped, changed := p.changed ++ [path] }

/-- The next stage, unless the one before it threw. -/
def andThen (p : Publication) (next : Publication → Publication) : Publication :=
  if p.error.isSome then p else next p

/-- `preflightSourceFiles`, and then `publishSourceFiles`. -/
def run : Publication :=
  match g.symlink with
  | some path => ⟨g.tree, [], some (.symlink path)⟩
  | none =>
      match g.verifyOwnership with
      | some error => ⟨g.tree, [], some error⟩
      | none =>
          andThen
            (andThen (g.publishFiles g.prepared.entries ⟨g.tree, [], none⟩)
              (g.removeFiles g.existing.entries))
            g.publishMetadata

end Generation

end Arc.ProxyGenerator
