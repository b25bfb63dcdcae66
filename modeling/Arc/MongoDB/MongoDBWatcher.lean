import Arc.Foundation.Machine
import Mathlib.Data.Nat.Notation

/-!
# A MongoDB watcher

The observations of a watcher share one change stream. It is opened by the first listener,
closed when the last one leaves, and replaced after a failure. An observation, an opening
and a stream are known by the order in which they were made.

The asynchronous parts (`listen`, `start`, `pump`, the read loop of `select`) are suspended
at an await and resumed by a step. A loop over listeners calls one of them at a time, and
until it has called the last one only what a callback may call can happen in between.

An observation counts the changes its `select` was given, and each emitted value carries the
count at the start of its reads. No function of the source reads these numbers.
-/

namespace Arc.MongoDB

/-- The promise of a `start`. -/
inductive Start
  | awaiting (generation : ℕ)
  | fulfilled
  | rejected
  deriving DecidableEq, Repr

/-- The answer to the hello, and whether opening the stream throws. -/
inductive Hello
  | failed
  | operationTime (watchThrows : Bool)
  deriving DecidableEq, Repr

/-- A call of `listen`, and what its caller does with the answer. -/
inductive Call
  | awaiting (start : ℕ)
  | granted
  | rejected
  | attached
  | finished
  deriving DecidableEq, Repr

/-- A pump. One whose stream has failed holds the listeners it errors once the stream is
closed. -/
inductive Pump
  | awaiting
  | delivering
  | closing (listeners : List ℕ)
  | failed (listeners : List ℕ)
  | done
  deriving DecidableEq, Repr

def Pump.captured : Pump → List ℕ
  | .closing listeners | .failed listeners => listeners
  | _ => []

structure ChangeStream where
  closed : Bool
  pump : Pump
  deriving DecidableEq, Repr

inductive Phase
  | idle
  | reading (since : ℕ)
  | delivered
  deriving DecidableEq, Repr

/-- The read loop of `select`; it is running unless it is idle. -/
structure ReadLoop where
  names : List String
  dirty : Bool
  phase : Phase
  seen : ℕ
  emitted : List ℕ
  deriving DecidableEq, Repr

/-- A subscription of `changes`, which has no loop, or of `select`. -/
structure Observation where
  call : Call
  closed : Bool
  released : Bool
  errors : ℕ
  loop : Option ReadLoop
  deriving DecidableEq, Repr

namespace Observation

def new (names : Option (List String)) (call : Call) : Observation where
  call := call
  closed := false
  released := false
  errors := 0
  loop := names.map fun names => ⟨names, false, .idle, 0, []⟩

end Observation

namespace ReadLoop

/-- The body of the loop, up to the await of its reads. -/
def startRead (l : ReadLoop) : ReadLoop :=
  { l with dirty := false, phase := .reading l.seen }

def read (l : ReadLoop) (closed : Bool) : ReadLoop :=
  match l.phase with
  | .idle => if closed then l else l.startRead
  | _ => l

/-- A change of the collection named `collection`. -/
def change (l : ReadLoop) (closed : Bool) (collection : Option String) : ReadLoop :=
  if l.names.contains (collection.getD "") then
    { l with dirty := true, seen := l.seen + 1 }.read closed
  else l

end ReadLoop

/-- A loop over listeners that has yet to call `rest`. -/
inductive Fanout
  | change (stream : ℕ) (collection : Option String) (rest : List ℕ)
  | failing (stream : ℕ) (rest : List ℕ)
  deriving DecidableEq, Repr

structure MongoDBWatcher where
  disposed : Bool
  generation : ℕ
  listeners : List ℕ
  stream : Option ℕ
  opening : Option ℕ
  starts : List Start
  streams : List ChangeStream
  observations : List Observation
  fanout : Option Fanout
  disposing : Option (List ℕ)
  deriving DecidableEq, Repr

namespace MongoDBWatcher

/-- A watcher whose context is aborted is disposed from the start. -/
def new (aborted : Bool) : MongoDBWatcher where
  disposed := aborted
  generation := 0
  listeners := []
  stream := none
  opening := none
  starts := []
  streams := []
  observations := []
  fanout := none
  disposing := none

def modify (w : MongoDBWatcher) (o : ℕ) (f : Observation → Observation) : MongoDBWatcher :=
  { w with observations := w.observations.modify o f }

def setPump (w : MongoDBWatcher) (st : ℕ) (pump : Pump) : MongoDBWatcher :=
  { w with streams := w.streams.modify st fun s => { s with pump := pump } }

def call? (w : MongoDBWatcher) (o : ℕ) : Option Call :=
  w.observations[o]?.map fun obs => obs.call

def pump? (w : MongoDBWatcher) (st : ℕ) : Option Pump :=
  w.streams[st]?.map fun s => s.pump

def stop (w : MongoDBWatcher) : MongoDBWatcher :=
  { w with
    generation := w.generation + 1
    stream := none
    opening := none
    streams := match w.stream with
      | none => w.streams
      | some st => w.streams.modify st fun s => { s with closed := true } }

/-! ### Observations -/

/-- Take `o` out of the listeners. -/
def delete (w : MongoDBWatcher) (o : ℕ) : MongoDBWatcher :=
  { w with listeners := w.listeners.erase o }

/-- The release callback `listen` returned. -/
def release (w : MongoDBWatcher) (o : ℕ) : MongoDBWatcher :=
  let w := (w.modify o fun obs => { obs with released := true }).delete o
  if w.listeners.isEmpty then w.stop else w

/-- The subscriber of `o` unsubscribes or is given an error. Its teardown releases the
listener, where that is at hand. -/
def close (w : MongoDBWatcher) (o : ℕ) : MongoDBWatcher :=
  match w.observations[o]? with
  | none => w
  | some obs =>
      if obs.closed then w
      else
        let w := w.modify o fun obs => { obs with closed := true }
        if obs.call = .attached then w.release o else w

/-- Call the error callback of the listener `o`. -/
def error (w : MongoDBWatcher) (o : ℕ) : MongoDBWatcher :=
  (w.modify o fun obs => { obs with errors := obs.errors + 1 }).close o

/-- Call the change callback of the listener `o`. -/
def change (w : MongoDBWatcher) (o : ℕ) (collection : Option String) : MongoDBWatcher :=
  w.modify o fun obs =>
    { obs with loop := obs.loop.map fun l => l.change obs.closed collection }

/-- Subscribe, which calls `listen` and awaits the opening of the stream. -/
def subscribe (w : MongoDBWatcher) (names : Option (List String)) : MongoDBWatcher :=
  if w.disposed then { w with observations := w.observations ++ [.new names .rejected] }
  else
    let w' : MongoDBWatcher := { w with listeners := w.listeners ++ [w.observations.length] }
    match w.opening with
    | some p => { w' with observations := w.observations ++ [.new names (.awaiting p)] }
    | none =>
        { w' with
          opening := some w.starts.length
          starts := w.starts ++ [.awaiting w.generation]
          observations := w.observations ++ [.new names (.awaiting w.starts.length)] }

def setCall (w : MongoDBWatcher) (o : ℕ) (call : Call) : MongoDBWatcher :=
  w.modify o fun obs => { obs with call := call }

/-- Resume a call of `listen` whose opening has settled. -/
def resumeListen (w : MongoDBWatcher) (o : ℕ) : Option MongoDBWatcher :=
  match w.call? o with
  | some (.awaiting p) =>
      match w.starts[p]? with
      | some .fulfilled =>
          some (if w.disposed then (w.setCall o .rejected).delete o else w.setCall o .granted)
      | some .rejected => some ((w.setCall o .rejected).delete o)
      | _ => none
  | _ => none

/-- The caller of `listen` goes on with its answer. -/
def resumeThen (w : MongoDBWatcher) (o : ℕ) : Option MongoDBWatcher :=
  match w.observations[o]? with
  | none => none
  | some obs =>
      match obs.call with
      | .granted =>
          some (if obs.closed then (w.setCall o .attached).release o
            else (w.setCall o .attached).modify o fun obs =>
              { obs with loop := obs.loop.map fun l => l.read false })
      | .rejected => some ((w.setCall o .finished).close o)
      | _ => none

/-! ### The stream -/

def settleStart (w : MongoDBWatcher) (p : ℕ) (start : Start) : MongoDBWatcher :=
  { w with starts := w.starts.set p start }

def startFailed (w : MongoDBWatcher) (p generation : ℕ) : MongoDBWatcher :=
  { w.settleStart p .rejected with
    opening := if generation = w.generation then none else w.opening }

/-- `start` goes on with the answer to its hello. -/
def helloed (w : MongoDBWatcher) (p generation : ℕ) : Hello → MongoDBWatcher
  | .failed => w.startFailed p generation
  | .operationTime watchThrows =>
      if w.disposed || generation != w.generation then w.settleStart p .fulfilled
      else if w.listeners.isEmpty then { w.settleStart p .fulfilled with opening := none }
      else if watchThrows then w.startFailed p generation
      else
        { w.settleStart p .fulfilled with
          stream := some w.streams.length
          streams := w.streams ++ [⟨false, .awaiting⟩] }

/-- Some call of `listen` awaits an opening that has settled. Such a call goes on before a
hello is answered: the reactions of a promise run in the order in which they were queued. -/
def joining (w : MongoDBWatcher) : Bool :=
  w.observations.any fun obs =>
    match obs.call with
    | .awaiting p => match w.starts[p]? with
        | some (.awaiting _) => false
        | _ => true
    | _ => false

def hello (w : MongoDBWatcher) (p : ℕ) (answer : Hello) : Option MongoDBWatcher :=
  match w.starts[p]? with
  | some (.awaiting generation) => if w.joining then none else some (w.helloed p generation answer)
  | _ => none

/-- The end of `pump`: a stream that is still the current one is stopped. -/
def leave (w : MongoDBWatcher) (st : ℕ) : MongoDBWatcher :=
  if w.stream = some st then w.stop else w

/-- Whether a pump goes on with its stream. -/
def live (w : MongoDBWatcher) (st : ℕ) : Bool := decide (w.stream = some st) && !w.disposed

/-- The stream has a change of `collection`. -/
def next (w : MongoDBWatcher) (st : ℕ) (collection : Option String) : Option MongoDBWatcher :=
  match w.pump? st with
  | some .awaiting =>
      some (if w.live st then
          { w.setPump st .delivering with fanout := some (.change st collection w.listeners) }
        else (w.setPump st .done).leave st)
  | _ => none

/-- The stream has failed or ended. -/
def fail (w : MongoDBWatcher) (st : ℕ) : Option MongoDBWatcher :=
  match w.pump? st with
  | some .awaiting =>
      some (if w.live st then { w.setPump st (.closing w.listeners) with listeners := [] }.stop
        else (w.setPump st .done).leave st)
  | _ => none

/-- The close of a failed stream has settled. -/
def closeSettled (w : MongoDBWatcher) (st : ℕ) : Option MongoDBWatcher :=
  match w.pump? st with
  | some (.closing listeners) =>
      some { w.setPump st (.failed listeners) with fanout := some (.failing st listeners) }
  | _ => none

def dispose (w : MongoDBWatcher) : MongoDBWatcher :=
  if w.disposed then w else { w with disposed := true, disposing := some w.listeners }

/-- The loop over listeners that is under way makes its next call, or ends. A disposal may
be called from a callback of the other two. -/
def unwind (w : MongoDBWatcher) : Option MongoDBWatcher :=
  match w.disposing, w.fanout with
  | some (o :: rest), _ => some ({ w with disposing := some rest }.error o)
  | some [], _ => some { w with disposing := none, listeners := [] }.stop
  | none, some (.change st collection (o :: rest)) =>
      some ({ w with fanout := some (.change st collection rest) }.change o collection)
  | none, some (.change st _ []) =>
      let w : MongoDBWatcher := { w with fanout := none }
      some (if w.live st then w.setPump st .awaiting else (w.setPump st .done).leave st)
  | none, some (.failing st (o :: rest)) =>
      some ({ w with fanout := some (.failing st rest) }.error o)
  | none, some (.failing st []) => some ({ w with fanout := none }.leave st)
  | none, none => none

/-! ### Reads -/

def setLoop (w : MongoDBWatcher) (o : ℕ) (l : ReadLoop) : MongoDBWatcher :=
  w.modify o fun obs => { obs with loop := some l }

/-- The end of the read loop. -/
def endLoop (w : MongoDBWatcher) (o : ℕ) : MongoDBWatcher :=
  w.modify o fun obs => { obs with loop := obs.loop.map fun l => { l with phase := .idle } }

/-- The reads of `o` have been answered. Failing stands for a read or a selector that
throws. -/
def resumeReads (w : MongoDBWatcher) (o : ℕ) (failing : Bool) : Option MongoDBWatcher :=
  match w.observations[o]? with
  | some ⟨_, closed, _, _, some l⟩ =>
      match l.phase with
      | .reading since =>
          some (if failing then (w.close o).endLoop o
            else if closed || w.disposed then w.endLoop o
            else w.setLoop o { l with phase := .delivered, emitted := l.emitted ++ [since] })
      | _ => none
  | _ => none

/-- The subscriber of `o` has been given a value. -/
def resumeLoop (w : MongoDBWatcher) (o : ℕ) : Option MongoDBWatcher :=
  match w.observations[o]? with
  | some ⟨_, closed, _, _, some l⟩ =>
      match l.phase with
      | .delivered =>
          some (if l.dirty && !closed && !w.disposed then w.setLoop o l.startRead else w.endLoop o)
      | _ => none
  | _ => none

end MongoDBWatcher

/-- What may happen to a watcher. Only the first three may be called from a callback. -/
inductive WatcherEvent
  | subscribe (names : Option (List String))
  | unsubscribe (observation : ℕ)
  | dispose
  | unwind
  | hello (start : ℕ) (answer : Hello)
  | resumeListen (observation : ℕ)
  | resumeThen (observation : ℕ)
  | next (stream : ℕ) (collection : Option String)
  | fail (stream : ℕ)
  | closeSettled (stream : ℕ)
  | resumeReads (observation : ℕ) (failing : Bool)
  | resumeLoop (observation : ℕ)
  deriving DecidableEq, Repr

namespace MongoDBWatcher

/-- No loop over listeners is under way. -/
def quiet (w : MongoDBWatcher) : Bool := w.fanout.isNone && w.disposing.isNone

def resume (w : MongoDBWatcher) : WatcherEvent → Option MongoDBWatcher
  | .hello p answer => w.hello p answer
  | .resumeListen o => w.resumeListen o
  | .resumeThen o => w.resumeThen o
  | .next st collection => w.next st collection
  | .fail st => w.fail st
  | .closeSettled st => w.closeSettled st
  | .resumeReads o failing => w.resumeReads o failing
  | .resumeLoop o => w.resumeLoop o
  | _ => none

def step (w : MongoDBWatcher) : WatcherEvent → Option MongoDBWatcher
  | .subscribe names => some (w.subscribe names)
  | .unsubscribe o => some (w.close o)
  | .dispose => some w.dispose
  | .unwind => w.unwind
  | e => if w.quiet then w.resume e else none

/-- A watcher over all interleavings. -/
def machine (aborted : Bool) : Machine MongoDBWatcher WatcherEvent where
  init := new aborted
  step := step

end MongoDBWatcher

end Arc.MongoDB
