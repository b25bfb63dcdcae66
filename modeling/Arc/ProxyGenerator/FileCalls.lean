import Arc.Foundation.Attempt
import Arc.ProxyGenerator.SourcePublication

/-!
# Publishing through the file system

`publishSourceFiles` and `generateClient` call by call. Every call may fail, and which ones do
is given beforehand for each place in the code and each path; a call that fails has no effect.
Nothing else writes to the disk.

Paths are relative to the output and normalized, so that different paths are different files. A
temporary file is known by the place its text goes to; its own name is random and new.
-/

namespace Arc.ProxyGenerator

/-! ### The file system -/

/-- A regular file with its permissions, or something else. -/
inductive Node
  | file (text : Text) (mode : ℕ)
  | other

inductive ClientError
  | relativeRoot
  | noDirectory
  | escape (file : Text)
  | notRegular (file : Text)
  | handwritten (file : Text)
  | rootChanged
  | changedTypeOrMode (path : Text)
  | changed (path : Text)

def ClientError.message : ClientError → String
  | .relativeRoot => "Client output root must be an absolute path"
  | .noDirectory => "Client output root must be an existing real directory"
  | .escape file => "Client output escape: " ++ String.ofList file
  | .notRegular file => "Client output is not a regular file: " ++ String.ofList file
  | .handwritten file => "Refusing to overwrite handwritten file: " ++ String.ofList file
  | .rootChanged => "Client output root changed during generation"
  | .changedTypeOrMode path => "Client output changed type or mode: " ++ String.ofList path
  | .changed path => "Client output changed during generation: " ++ String.ofList path

/-- A file is missing, one exists, a call failed, or the code refuses to go on. -/
inductive FileError
  | missing
  | existing
  | failed
  | noMetadataDirectory
  | invalidMetadata
  | changedMetadata
  | generation (error : GenerationError)
  | client (error : ClientError)

/-- The places that call the file system. -/
inductive Place
  | makeDirectory | readActual | lstatMode | write | link | lstatAgain | chmod | rename
  | unlinkTemporary | readObsolete | unlinkObsolete
  | metadataDirectory | lstatMetadata | preflightMetadata | readMetadata | writeMetadata
  | readMetadataAgain | renameMetadata | unlinkMetadata
  | lstatRoot | realpathRoot | lstatClient | readClient | writeClient | chmodClient
  | lstatRootAgain | realpathRootAgain | lstatClientAgain | readClientAgain | linkClient
  | renameClient | unlinkClient | cleanup
  deriving DecidableEq

/-- Whether the call at a place fails for a path. -/
abbrev Faults := Place → Text → Bool

/-- The disk, and what a publication remembers: the changes it has recorded, and the files it
has written temporaries for. -/
structure Progress where
  nodes : Text → Option Node
  temporaries : Text → Option (Text × ℕ)
  changed : List Text := []
  pending : List Text := []

abbrev Files (α : Type) := Attempt Progress FileError α

namespace Files

variable (fails : Faults)

def call (place : Place) (path : Text) : Files Unit := fun s =>
  if fails place path then (.error .failed, s) else (.ok (), s)

/-- The permissions of what is at a path, and whether it is a regular file. -/
def lstat (place : Place) (path : Text) : Files (Bool × ℕ) := fun s =>
  if fails place path then (.error .failed, s)
  else
    match s.nodes path with
    | none => (.error .missing, s)
    | some (.file _ mode) => (.ok (true, mode), s)
    | some .other => (.ok (false, 0), s)

def readFile (place : Place) (path : Text) : Files Text := fun s =>
  if fails place path then (.error .failed, s)
  else
    match s.nodes path with
    | none => (.error .missing, s)
    | some (.file text _) => (.ok text, s)
    | some .other => (.error .failed, s)

/-- Write a new temporary file. -/
def writeFile (place : Place) (path text : Text) (mode : ℕ) : Files Unit := fun s =>
  if fails place path then (.error .failed, s)
  else (.ok (), { s with temporaries := Function.update s.temporaries path (some (text, mode)) })

def chmod (place : Place) (path : Text) (mode : ℕ) : Files Unit := fun s =>
  if fails place path then (.error .failed, s)
  else (.ok (), { s with
    temporaries := Function.update s.temporaries path
      ((s.temporaries path).map fun file => (file.1, mode)) })

/-- Give the text of a temporary file to its destination, which must not exist. -/
def link (place : Place) (path : Text) : Files Unit := fun s =>
  if fails place path then (.error .failed, s)
  else
    match s.temporaries path with
    | none => (.error .missing, s)
    | some (text, mode) =>
        if (s.nodes path).isSome then (.error .existing, s)
        else (.ok (), { s with nodes := Function.update s.nodes path (some (.file text mode)) })

/-- Put a temporary file in the place of its destination. -/
def rename (place : Place) (path : Text) : Files Unit := fun s =>
  if fails place path then (.error .failed, s)
  else
    match s.temporaries path with
    | none => (.error .missing, s)
    | some (text, mode) => (.ok (), { s with
        nodes := Function.update s.nodes path (some (.file text mode))
        temporaries := Function.update s.temporaries path none })

def unlink (place : Place) (path : Text) : Files Unit := fun s =>
  if fails place path then (.error .failed, s)
  else if (s.nodes path).isNone then (.error .missing, s)
  else (.ok (), { s with nodes := Function.update s.nodes path none })

def unlinkTemporary (place : Place) (path : Text) : Files Unit := fun s =>
  if fails place path then (.error .failed, s)
  else if (s.temporaries path).isNone then (.error .missing, s)
  else (.ok (), { s with temporaries := Function.update s.temporaries path none })

/-- Only that a file is missing is no error. -/
def orMissing {α : Type} (x : Files α) : Files (Option α) :=
  Attempt.catching (do let a ← x; pure (some a)) fun error =>
    match error with
    | .missing => pure none
    | error => Attempt.fail error

def ignoreMissing (x : Files Unit) : Files Unit :=
  Attempt.catching x fun error =>
    match error with
    | .missing => pure ()
    | error => Attempt.fail error

def record (path : Text) : Files Unit :=
  Attempt.change fun s => { s with changed := s.changed ++ [path] }

end Files

/-- What a publication reports; `cleanup` counts the errors that are reported besides the first. -/
inductive Report
  | returned (changed : List Text)
  | partiallyCommitted (changed : List Text) (error : FileError) (cleanup : ℕ)
  | failed (error : FileError) (cleanup : ℕ)

/-- The message of an error that reports a partial commit. -/
def Report.message (committed : String) : Report → Option String
  | .partiallyCommitted changed _ _ =>
      some (committed ++ String.intercalate ", " (changed.map String.ofList))
  | _ => none

/-! ### `publishSourceFiles` -/

/-- What `publishSourceFiles` is called with. The metadata module is none of the source files. -/
structure SourceFiles where
  host : Host
  umask : ℕ
  files : InsertionMap Text SourceFileEntry
  existing : InsertionMap Text Text
  skipOutputDeletion : Bool
  metadataPath : Option Text
  metadata : Text
  /-- Whether the parent of the metadata module is a directory. -/
  metadataParent : Bool
  apart : ∀ path, metadataPath = some path → path ∉ files.keys ∧
    ∀ text, existing.get path = some text → owned host text = false

namespace SourceFiles

open Files

variable (p : SourceFiles) (fails : Faults)

/-- The text a file is published with. -/
def published (entry : SourceFileEntry) (previous : Option Text) : Text :=
  if entry.handwritten then entry.text
  else
    match previous with
    | some text =>
        if text ≠ [] ∧ bodyHash p.host text = some (p.host.digest entry.text) then text
        else content p.host entry.source entry.text
    | none => content p.host entry.source entry.text

/-- The permissions of a new file. -/
def newMode : ℕ := 0o666 - (0o666 &&& p.umask)

/-- The permissions of a temporary file: those of the file it replaces. -/
def temporaryMode (path : Text) (previous : Option Text) : Files ℕ :=
  if previous.isNone then pure p.newMode
  else do
    let stat ← lstat fails .lstatMode path
    pure stat.2

/-- Link a new file, which overwrites nothing, or rename over the file there was. -/
def putInPlace (path : Text) (previous : Option Text) : Files Unit :=
  if previous.isNone then link fails .link path
  else do
    let stat ← lstat fails .lstatAgain path
    chmod fails .chmod path stat.2
    rename fails .rename path

/-- The path when it is published, `none` when nothing changes. -/
def publishFile (path : Text) (entry : SourceFileEntry) (previous : Option Text) :
    Files (Option Text) :=
  let text := p.published entry previous
  if previous = some text then pure none
  else if dotted path then Attempt.fail (.generation (.unsafeOutput path))
  else do
    call fails .makeDirectory path
    let actual ← orMissing (readFile fails .readActual path)
    if previous ≠ actual then Attempt.fail (.generation (.changedDuringGeneration path))
    else do
      let mode ← p.temporaryMode fails path previous
      writeFile fails .write path text mode
      Attempt.finishing (putInPlace fails path previous)
        (ignoreMissing (unlinkTemporary fails .unlinkTemporary path))
      pure (some path)

/-- One turn of the loop over the files. -/
def publishEntry (file : Text × SourceFileEntry) : Files Unit := do
  let destination ← p.publishFile fails file.1 file.2 (p.existing.get file.1)
  match destination with
  | some path => record path
  | none => pure ()

def obsolete (path text : Text) : Bool :=
  !p.skipOutputDeletion && (p.files.get path).isNone && owned p.host text

/-- One turn of the loop over the existing files. -/
def removeFile (file : Text × Text) : Files Unit :=
  if p.obsolete file.1 file.2 then do
    let actual ← readFile fails .readObsolete file.1
    if actual ≠ file.2 then Attempt.fail (.generation (.changedDuringCleanup file.1))
    else do
      unlink fails .unlinkObsolete file.1
      record file.1
  else pure ()

def stamped : Text :=
  replaceFirst metadataMarker
    (metadataMarker ++ " Hash: ".toList ++ p.host.sha256 p.metadata) p.metadata

/-- Refuse handwritten or edited metadata. -/
def preflightGeneratedMetadata (path : Text) : Files Unit := do
  call fails .metadataDirectory path
  if !p.metadataParent then Attempt.fail .noMetadataDirectory
  else do
    let existingFile ← orMissing (lstat fails .lstatMetadata path)
    if existingFile.any fun stat => !stat.1 then Attempt.fail .invalidMetadata
    else do
      let previous ← orMissing (readFile fails .preflightMetadata path)
      if previous.any fun text => !metadataOwned p.host text then
        Attempt.fail (.generation (.handwrittenMetadata path))
      else pure ()

/-- Rename the temporary file over the metadata module that was read. -/
def replaceMetadata (path : Text) (previous : Option Text) : Files Unit := do
  let actual ← orMissing (readFile fails .readMetadataAgain path)
  if actual ≠ previous then Attempt.fail .changedMetadata
  else rename fails .renameMetadata path

/-- Publish only owned metadata, keeping unchanged output byte-for-byte stable. -/
def publishGeneratedMetadata (path : Text) : Files Bool := do
  p.preflightGeneratedMetadata fails path
  let previous ← orMissing (readFile fails .readMetadata path)
  let next := p.stamped
  if previous = some next then pure false
  else do
    writeFile fails .writeMetadata path next p.newMode
    Attempt.finishing (replaceMetadata fails path previous)
      (ignoreMissing (unlinkTemporary fails .unlinkMetadata path))
    pure true

def publishMetadata : Files Unit :=
  match p.metadataPath with
  | none => pure ()
  | some path =>
      if path = [] ∨ p.metadata = [] then pure ()
      else do
        let published ← p.publishGeneratedMetadata fails path
        if published then record path else pure ()

/-- What is tried; `changed` is kept when it throws. -/
def publishAll : Files Unit := do
  Attempt.forEach (p.publishEntry fails) p.files.entries
  Attempt.forEach (p.removeFile fails) p.existing.entries
  p.publishMetadata fails

/-- Publish changed source files, cleanup and metadata, reporting partial commits on failure. -/
def publishSourceFiles (s : Progress) : Report × Progress :=
  match p.publishAll fails s with
  | (.ok _, t) => (.returned t.changed, t)
  | (.error error, t) =>
      if t.changed = [] then (.failed error 0, t) else (.partiallyCommitted t.changed error 0, t)

end SourceFiles

/-! ### `generateClient` -/

def clientHeader : Text :=
  ("// Copyright (c) Cratis. All rights reserved.\n" ++
    "// Licensed under the MIT license. See LICENSE file in the project root for full license information.\n" ++
    "// Generated by @cratis/arc.proxygenerator; do not edit.\n").toList

/-- What `generateClient` publishes: the rendered files, and what it finds its root to be. -/
structure ClientFiles where
  umask : ℕ
  files : InsertionMap Text Text
  absolute : Bool
  isDirectory : Bool
  isSymbolicLink : Bool
  /-- The root is its own real path. -/
  real : Bool

/-- A file to be changed. -/
structure ClientItem where
  path : Text
  content : Text
  prior : Option Text
  mode : ℕ

namespace ClientFiles

open Files

variable (p : ClientFiles) (fails : Faults)

def newMode : ℕ := 0o666 - (0o666 &&& p.umask)

/-- The item for a rendered file, if it has to be changed. -/
def inspect (file content : Text) : Files (Option ClientItem) :=
  if file.contains '/' || file.contains '\\' then Attempt.fail (.client (.escape file))
  else Attempt.catching
    (do
      let stat ← lstat fails .lstatClient file
      if !stat.1 then Attempt.fail (.client (.notRegular file))
      else do
        let existing ← readFile fails .readClient file
        if !List.isPrefixOf clientHeader existing then
          Attempt.fail (.client (.handwritten file))
        else if existing ≠ content then pure (some ⟨file, content, some existing, stat.2⟩)
        else pure none)
    fun error =>
      match error with
      | .missing => pure (some ⟨file, content, none, p.newMode⟩)
      | error => Attempt.fail error

/-- The files to be changed. -/
def inspectAll : List (Text × Text) → Files (List ClientItem)
  | [] => pure []
  | (file, content) :: files => do
      let item ← p.inspect fails file content
      let items ← inspectAll files
      pure (item.toList ++ items)

/-- Write the temporary file of an item. -/
def prepare (item : ClientItem) : Files Unit := do
  writeFile fails .writeClient item.path item.content 0o600
  Attempt.change fun s => { s with pending := s.pending ++ [item.path] }
  chmod fails .chmodClient item.path item.mode

/-- What is at a path, unless it has changed its type or its permissions. -/
def current (item : ClientItem) : Files (Option Text) :=
  orMissing do
    let stat ← lstat fails .lstatClientAgain item.path
    if !stat.1 || stat.2 ≠ item.mode then
      Attempt.fail (.client (.changedTypeOrMode item.path))
    else readFile fails .readClientAgain item.path

/-- Publish an item, without overwriting what it has not seen. -/
def commit (item : ClientItem) : Files Unit := do
  call fails .lstatRootAgain item.path
  if !p.isDirectory || p.isSymbolicLink then Attempt.fail (.client .rootChanged)
  else do
    call fails .realpathRootAgain item.path
    if !p.real then Attempt.fail (.client .rootChanged)
    else do
      let actual ← current fails item
      if actual ≠ item.prior then Attempt.fail (.client (.changed item.path))
      else if item.prior.isNone then do
        link fails .linkClient item.path
        record item.path
        unlinkTemporary fails .unlinkClient item.path
      else do
        rename fails .renameClient item.path
        record item.path

/-- Remove the temporary files that are left, and count the failures. -/
def cleanup : List Text → Progress → ℕ × Progress
  | [], s => (0, s)
  | path :: pending, s =>
      match ignoreMissing (unlinkTemporary fails .cleanup path) s with
      | (.ok _, t) => cleanup pending t
      | (.error _, t) => ((cleanup pending t).1 + 1, (cleanup pending t).2)

/-- The files to be changed, found before anything is written. -/
def plan : Files (List ClientItem) :=
  if !p.absolute then Attempt.fail (.client .relativeRoot)
  else do
    call fails .lstatRoot []
    if !p.isDirectory || p.isSymbolicLink then Attempt.fail (.client .noDirectory)
    else do
      call fails .realpathRoot []
      if !p.real then Attempt.fail (.client .noDirectory)
      else p.inspectAll fails p.files.entries

/-- Write all temporary files and then publish them one after the other. -/
def commitAll (items : List ClientItem) : Files Unit := do
  Attempt.forEach (prepare fails) items
  Attempt.forEach (p.commit fails) items

/-- No discovery imports: the rendered files and an existing, explicitly chosen output root. -/
def generateClient (s : Progress) : Report × Progress :=
  match p.plan fails s with
  | (.error error, t) => (.failed error 0, t)
  | (.ok items, t) =>
      match p.commitAll fails items t with
      | (.ok _, u) => (.returned (items.map ClientItem.path), u)
      | (.error error, u) =>
          let (errors, cleaned) := cleanup fails u.pending u
          if u.changed = [] then (.failed error errors, cleaned)
          else (.partiallyCommitted u.changed error errors, cleaned)

end ClientFiles

end Arc.ProxyGenerator
