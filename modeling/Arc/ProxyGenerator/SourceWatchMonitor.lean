import Mathlib.Logic.Function.Basic
import Arc.Foundation.InsertionMap
import Arc.Foundation.Machine

/-!
# The source watch monitor

`SourceWatchMonitor` keeps a checkpoint of the source files below a root and updates it from
two sides: a check of one path after a native notification, and a scan of the whole tree after
a directory moved or the fallback timer fired. A check that is notified again while it runs
takes another round; a scan that is requested again while it runs is repeated.

Every step of the machine is one turn of the event loop: a call from outside, the end of one
read, or the continuation of one `await`. The end of a promise and the continuation waiting for
it are different steps, and any other step may come between them. What the file system answers
is part of the event, so that it may change between any two steps.
-/

namespace Arc.ProxyGenerator

abbrev Path := List Char

instance : LawfulBEq Path := inferInstanceAs (LawfulBEq (List Char))

/-- File identity at a watch checkpoint; recent timestamps also need a content fingerprint. -/
structure SourceWatchEntry where
  signature : String
  hash : Option String
deriving DecidableEq, Repr

/-- What the monitor is constructed with. -/
structure Watch where
  root : Path
  sep : Char
  externalFiles : List Path
  excluded : Path → Bool
  interval : ℕ

namespace Watch

variable (w : Watch)

/-- Below the root, and in no `node_modules` or `.git`. -/
def isLocal (path : Path) : Bool :=
  (w.root ++ [w.sep]).isPrefixOf path &&
    !((path.drop (w.root.length + 1)).splitOn w.sep).any fun part =>
      part = ['n', 'o', 'd', 'e', '_', 'm', 'o', 'd', 'u', 'l', 'e', 's'] ||
        part = ['.', 'g', 'i', 't']

/-- A TypeScript file that is not a declaration file. -/
def typeScript (path : Path) : Bool :=
  List.isSuffixOf ['.', 't', 's'] path && !List.isSuffixOf ['.', 'd', '.', 't', 's'] path

/-- The paths whose notification is followed by a read of the file. -/
def isSource (path : Path) : Bool :=
  w.externalFiles.contains path || (w.isLocal path && typeScript path)

/-- The paths `notify` does not ignore. -/
def watches (path : Path) : Bool :=
  !w.excluded path && (w.isLocal path || w.isSource path)

end Watch

/-- The outcome of one read, and when the read was asked for and when it had ended. -/
structure Observation where
  entry : Option SourceWatchEntry
  began : ℕ
  ended : ℕ

/-- Where the loop of `checkPath` stands. A settled stage is one whose continuation has not run. -/
inductive CheckStage
  /-- Waits for `reader.file`. -/
  | reading (began : ℕ) (compareHash : Bool)
  | read (observation : Observation)
  /-- Waits for `reader.isDirectory`. -/
  | statting
  | statted (directory : Option Bool)
  /-- Waits for `requestReconcile`. -/
  | reconciling
  | reconciled
  /-- The loop is over; the `finally` that clears `pending` has not run. -/
  | ended

/-- A running call of `checkPath`. -/
structure Check where
  source : Bool
  stage : CheckStage

/-- A call of `requestReconcile`: by the check of a path, or by the timer. -/
abbrev Requester := Option Path

/-- A running call of `reconcile`: the listing of the tree, and then the reads. -/
structure Scan where
  began : ℕ
  duringScan : List Path
  files : List Path
  /-- The files no read was started for, once the listing is complete. -/
  remaining : Option (List Path)
  inFlight : List (Path × ℕ × Bool)
  snapshot : InsertionMap Path Observation

/-- What a scan says of a path: one its snapshot lacks was not there during the scan. -/
def Scan.observed (scan : Scan) (path : Path) : Observation :=
  (scan.snapshot.get path).getD ⟨none, scan.began, scan.began⟩

/-- Where `reconcileRequested` stands. -/
inductive ScanPhase
  | scanning (scan : Scan)
  /-- `reconcile` returned; the loop has not looked at `scanRequested`. -/
  | reconciled
  /-- The loop is over; the `finally` that clears `scanning` has not run. -/
  | ended

/-- The promise in `scanning`, with those who wait for it. -/
structure Scanning where
  phase : ScanPhase
  /-- Those who were handed the promise itself. -/
  joined : List Requester
  /-- Those who look at `scanRequested` once it is settled. -/
  chained : List Requester

/-- What is seen from outside. -/
inductive WatchFact
  | notified (path : Path)
  | readBegan (path : Path)
  /-- A directory, or a missing path with files of the checkpoint below it, was observed. -/
  | moved (path : Path)
  | scanBegan
  | stored (path : Path) (previous current : Observation)
  | changed

structure SourceWatchMonitor where
  entries : InsertionMap Path SourceWatchEntry
  pending : List Path
  dirty : List Path
  timer : Bool
  scanning : Option Scanning
  scanRequested : Bool
  stopped : Bool
  /-- The running calls of `checkPath`. -/
  checks : Path → Option Check
  /-- Those whose wait for an earlier scan is over and who have not looked at `scanRequested`. -/
  queued : List Requester
  /-- How many steps were taken. -/
  clock : ℕ
  /-- The observation last stored for a path. -/
  checkpoint : Path → Observation
  facts : List WatchFact

namespace SourceWatchMonitor

variable (w : Watch)

/-- The monitor after `start`, whose snapshot found `entries`. -/
def started (entries : InsertionMap Path SourceWatchEntry) : SourceWatchMonitor where
  entries := entries
  pending := []
  dirty := []
  timer := w.interval ≠ 0
  scanning := none
  scanRequested := false
  stopped := false
  checks := fun _ => none
  queued := []
  clock := 0
  checkpoint := fun path => ⟨entries.get path, 0, 0⟩
  facts := []

variable (s : SourceWatchMonitor)

/-- Something happened that is seen from outside. -/
def fact (f : WatchFact) : SourceWatchMonitor := { s with facts := s.facts ++ [f] }

def setCheck (path : Path) (check : Option Check) : SourceWatchMonitor :=
  { s with checks := Function.update s.checks path check }

/-! ### The checkpoint -/

/-- Whether two entries differ: in the signature, or in a hash that both have. -/
def differs (previous current : Option SourceWatchEntry) : Bool :=
  previous.map SourceWatchEntry.signature != current.map SourceWatchEntry.signature ||
    match previous.bind SourceWatchEntry.hash, current.bind SourceWatchEntry.hash with
    | some h, some h' => h != h'
    | _, _ => false

/-- Store an observation. -/
def update (path : Path) (current : Observation) : SourceWatchMonitor :=
  { s with
    entries :=
      match current.entry with
      | some entry => s.entries.set path entry
      | none => s.entries.delete path
    checkpoint := Function.update s.checkpoint path current
    facts := s.facts ++ [.stored path (s.checkpoint path) current] }

/-! ### Scans -/

/-- The synchronous part of `requestReconcile` with no scan running: `reconcileRequested` begins
its first round. -/
def beginScan : ScanPhase :=
  .scanning
    { began := s.clock
      duringScan := []
      files := w.externalFiles
      remaining := none
      inFlight := []
      snapshot := .empty }

/-- A check that waits for a scan hears that the wait is over. -/
def settle (requester : Requester) : SourceWatchMonitor :=
  match requester with
  | none => s
  | some path =>
      match s.checks path with
      | some ⟨source, .reconciling⟩ => s.setCheck path (some ⟨source, .reconciled⟩)
      | _ => s

def requestReconcile (requester : Requester) : SourceWatchMonitor :=
  if s.stopped then s.settle requester
  else
    let s := { s with timer := false, scanRequested := true }
    match s.scanning with
    | some scanning =>
        { s with scanning := some { scanning with chained := scanning.chained ++ [requester] } }
    | none =>
        { s with
          scanRequested := false
          scanning := some ⟨s.beginScan w, [requester], []⟩
          facts := s.facts ++ [.scanBegan] }

/-- The continuation of a request that had waited for an earlier scan. -/
def honour (requester : Requester) : SourceWatchMonitor :=
  if s.scanRequested then s.requestReconcile w requester
  else
    match s.scanning with
    | some scanning =>
        { s with scanning := some { scanning with joined := scanning.joined ++ [requester] } }
    | none => s.settle requester

/-- One turn of the loop over the paths of the checkpoint and of a snapshot. -/
def reconcilePath (scan : Scan) (c : SourceWatchMonitor × Bool) (path : Path) :
    SourceWatchMonitor × Bool :=
  if path ∈ c.1.pending ∨ path ∈ scan.duringScan then c
  else
    (c.1.update path (scan.observed path),
      differs (c.1.entries.get path) (scan.observed path).entry || c.2)

/-- The paths of the checkpoint, and then those only the snapshot has. -/
def scannedPaths (scan : Scan) : List Path :=
  s.entries.keys ++ scan.snapshot.keys.filter fun path => path ∉ s.entries.keys

/-- `reconcile` after its snapshot was taken. -/
def reconcile (scan : Scan) : SourceWatchMonitor :=
  let c := (s.scannedPaths scan).foldl (reconcilePath scan) (s, false)
  if c.2 && !c.1.stopped then c.1.fact .changed else c.1

/-- The end of one round of `reconcileRequested`. -/
def nextRound (scanning : Scanning) : SourceWatchMonitor :=
  if s.scanRequested && !s.stopped then
    { s with
      scanRequested := false
      scanning := some { scanning with phase := s.beginScan w }
      facts := s.facts ++ [.scanBegan] }
  else
    { s with
      timer := s.timer || (!s.stopped && w.interval ≠ 0)
      scanning := some { scanning with phase := .ended } }

/-! ### Checks -/

/-- One round of the loop of `checkPath` begins. -/
def beginRound (path : Path) (source : Bool) : SourceWatchMonitor :=
  { s with
    dirty := s.dirty.filter (· ≠ path)
    checks := Function.update s.checks path (some ⟨source,
      if source then
        .reading s.clock (((s.entries.get path).bind SourceWatchEntry.hash).isSome)
      else .statting⟩)
    facts := s.facts ++ [.readBegan path] }

/-- The end of one round: another one if the path was notified during this one. -/
def endRound (path : Path) (source : Bool) : SourceWatchMonitor :=
  if !s.stopped && path ∈ s.dirty then s.beginRound path source
  else s.setCheck path (some ⟨source, .ended⟩)

/-- A check that stores its observation while a scan runs tells the scan. -/
def addDuringScan (path : Path) : SourceWatchMonitor :=
  match s.scanning with
  | some ⟨.scanning scan, joined, chained⟩ =>
      { s with
        scanning := some ⟨.scanning { scan with duringScan := path :: scan.duringScan },
          joined, chained⟩ }
  | _ => s

def notify (path : Path) : SourceWatchMonitor :=
  let s := s.fact (.notified path)
  if s.stopped || w.excluded path then s
  else if !w.isLocal path && !w.isSource path then s
  else if path ∈ s.pending then { s with dirty := path :: s.dirty }
  else
    let s := s.beginRound path (w.isSource path)
    { s with pending := path :: s.pending }

/-- A directory is visible on disk; a removed directory survives only in the checkpoint. -/
def needsScan (path : Path) : Option Bool → Bool
  | some directory => directory
  | none => s.entries.keys.any (path ++ [w.sep]).isPrefixOf

/-- The continuation of the read a check has waited for. -/
def checked (path : Path) (source : Bool) : CheckStage → Option SourceWatchMonitor
  | .read observation =>
      let s := s.addDuringScan path
      let changed := differs (s.entries.get path) observation.entry
      let s := s.update path observation
      let s := if changed && !s.stopped then s.fact .changed else s
      some (s.endRound path source)
  | .statted directory =>
      if s.needsScan w path directory then
        let s := s.setCheck path (some ⟨source, .reconciling⟩)
        some ((s.fact (.moved path)).requestReconcile w (some path))
      else some (s.endRound path source)
  | .reconciled => some (s.endRound path source)
  | .reading _ _ => none
  | .statting => none
  | .reconciling => none
  | .ended => none

/-! ### The machine -/

inductive WatchEvent
  /-- A native notification. -/
  | notify (path : Path)
  /-- The fallback timer fires. -/
  | fire
  /-- `reader.file` of a check answers. -/
  | fileRead (path : Path) (entry : Option SourceWatchEntry)
  /-- `reader.isDirectory` of a check answers. -/
  | directoryRead (path : Path) (directory : Option Bool)
  /-- A check continues. -/
  | resume (path : Path)
  /-- The `finally` of a check. -/
  | clear (path : Path)
  /-- The listing of a scan meets a file. -/
  | list (path : Path)
  | listed
  /-- A worker of the snapshot takes the next file. -/
  | scanNext
  | scanRead (path : Path) (entry : Option SourceWatchEntry)
  /-- The snapshot is complete. -/
  | snapshot
  /-- `reconcileRequested` continues. -/
  | nextRound
  /-- The `finally` of a scan. -/
  | scanCleared
  /-- A request that had waited for an earlier scan continues. -/
  | honour

/-- What a running scan does next; none of it touches the checkpoint. -/
def scanStep (scan : Scan) : WatchEvent → Option (Scan × List WatchFact)
  | .list path =>
      if scan.remaining = none ∧ w.isLocal path ∧ Watch.typeScript path ∧
          w.excluded path = false then
        some ({ scan with
          files := if path ∈ scan.files then scan.files else scan.files ++ [path] }, [])
      else none
  | .listed =>
      if scan.remaining = none then some ({ scan with remaining := some scan.files }, []) else none
  | .scanNext =>
      match scan.remaining with
      | some (path :: remaining) =>
          -- at most 32 workers share the iterator
          if scan.inFlight.length < 32 then
            some ({ scan with
              remaining := some remaining
              inFlight := scan.inFlight ++ [(path, s.clock,
                ((s.entries.get path).bind SourceWatchEntry.hash).isSome)] }, [.readBegan path])
          else none
      | _ => none
  | .scanRead path entry =>
      match scan.inFlight.find? (fun read => read.1 = path) with
      | some read =>
          some ({ scan with
            inFlight := scan.inFlight.filter fun read => read.1 ≠ path
            snapshot :=
              match entry with
              | some entry => scan.snapshot.set path ⟨some entry, read.2.1, s.clock⟩
              | none => scan.snapshot }, [])
      | none => none
  | _ => none

/-- A step of the scan that is running. -/
def scanningStep (e : WatchEvent) : Option SourceWatchMonitor :=
  match s.scanning with
  | some ⟨.scanning scan, joined, chained⟩ =>
      (s.scanStep w scan e).map fun next =>
        { s with
          scanning := some ⟨.scanning next.1, joined, chained⟩
          facts := s.facts ++ next.2 }
  | _ => none

def perform : WatchEvent → Option SourceWatchMonitor
  | .notify path => some (s.notify w path)
  | .fire =>
      if s.timer then
        some (({ s with timer := false } : SourceWatchMonitor).requestReconcile w none)
      else none
  | .fileRead path entry =>
      match s.checks path with
      | some ⟨source, .reading began _⟩ =>
          some (s.setCheck path (some ⟨source, .read ⟨entry, began, s.clock⟩⟩))
      | _ => none
  | .directoryRead path directory =>
      match s.checks path with
      | some ⟨source, .statting⟩ => some (s.setCheck path (some ⟨source, .statted directory⟩))
      | _ => none
  | .resume path => (s.checks path).bind fun check => s.checked w path check.source check.stage
  | .clear path =>
      match s.checks path with
      | some ⟨_, .ended⟩ =>
          some { s.setCheck path none with pending := s.pending.filter (· ≠ path) }
      | _ => none
  | .snapshot =>
      match s.scanning with
      | some ⟨.scanning scan, joined, chained⟩ =>
          if scan.remaining = some [] ∧ scan.inFlight = [] then
            let s := { s with scanning := some ⟨.reconciled, joined, chained⟩ }
            some (s.reconcile scan)
          else none
      | _ => none
  | .nextRound =>
      match s.scanning with
      | some ⟨.reconciled, joined, chained⟩ => some (s.nextRound w ⟨.reconciled, joined, chained⟩)
      | _ => none
  | .scanCleared =>
      match s.scanning with
      | some ⟨.ended, joined, chained⟩ =>
          some (joined.foldl settle
            { s with scanning := none, queued := s.queued ++ chained })
      | _ => none
  | .honour =>
      match s.queued with
      | requester :: queued =>
          some (({ s with queued := queued } : SourceWatchMonitor).honour w requester)
      | [] => none
  | e => s.scanningStep w e

/-- The clock counts the steps. -/
def tick : SourceWatchMonitor := { s with clock := s.clock + 1 }

/-- The runs of a monitor that was started and not stopped. -/
def monitor (entries : InsertionMap Path SourceWatchEntry) :
    Machine SourceWatchMonitor WatchEvent where
  init := started w entries
  step s e := (s.perform w e).map tick

end SourceWatchMonitor

end Arc.ProxyGenerator
