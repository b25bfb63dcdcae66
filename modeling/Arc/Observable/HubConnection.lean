import Arc.Observable.ObservableTransfer
import Arc.Observable.SubscriptionRevisions

/-!
# One hub connection and its subscription generations

A `HubConnection` keeps the live subscriptions of one physical connection: each
accepted subscribe creates a generation, registered under its query id until it
is replaced, unsubscribed, completed or released with the connection. A
generation is the position of its `HubSubscription` in `generations`, which
stands for the identity of the object.

Every generation is run by `HubSubscriptionRunner.admit` and `deliver`. Its
`phase` is the await it is suspended at, and `settle` resumes it with what the
awaited call answered. Between two steps of one generation any other event of
the connection may happen.

`send` records with each frame whether its generation is registered at that very
moment; the field is written there and read by no other function.
-/

namespace Arc.Observable

open Arc.Queries

/-- The frames a subscription may cause. -/
inductive HubFrameType
  | queryResult
  | unauthorized
  | error
  deriving DecidableEq, Repr

inductive HubPayload (ν : Type*)
  | absent
  | text (text : String)
  | result (payload : Payload ν)

structure HubFrame (ν : Type*) where
  type : HubFrameType
  queryId : String
  revision : Option ℕ
  payload : HubPayload ν

/-- A frame given to the output, with the generation it was sent for, if any. -/
structure Handed (ν : Type*) where
  frame : HubFrame ν
  generation : Option ℕ
  registered : Bool

inductive HubSubscriptionOutcome
  | accepted
  | unauthorized
  | invalid
  | limited
  | stale
  deriving DecidableEq, Repr

/-- The errors the runner tells apart. -/
inductive HubFailure
  | badRequest
  | subscriptionLimit
  | transport
  | other
  deriving DecidableEq, Repr

/-- A parsed request: its text, compared by legacy subscribes, and its transfer mode. -/
structure HubRequest where
  key : String
  transferMode : Option String

/-- The await a runner is suspended at. -/
inductive Phase (ν : Type*)
  | sendingUnknown
  | opening
  | closingStale
  | loggingStale
  | sendingRejection (isAuthorized : Bool)
  | closingRejection (isAuthorized : Bool)
  | loggingFailure (error : HubFailure)
  | sendingFailure (error : HubFailure)
  | closingFailure (error : HubFailure)
  | streaming
  | sendingTerminal
  | sendingResult (prepared : Prepared ν)
  | returning
  | unwinding (error : HubFailure)
  | loggingDelivery
  | sendingDeliveryFailure
  | closingDelivery (failing : Bool)
  | rejectingDelivery
  | settled

structure HubSubscription (ν : Type*) where
  queryId : String
  revision : Option ℕ
  transfer : ObservableTransfer
  session : Bool
  admission : Option HubSubscriptionOutcome
  phase : Phase ν

/-- What looking the query up and binding the request gives, before the first await. -/
inductive Lookup
  | unknown
  | failing (error : HubFailure)
  | opens

/-- What an awaited call answers. An opened session may be rejected, as authorized or
not; an emitted result may fail to be prepared for the transfer. -/
inductive Settlement (ν : Type*)
  | fulfilled
  | failed (error : HubFailure)
  | opened (rejection : Option Bool)
  | emitted (result : QueryResult Json ν) (preparable : Bool)
  | finished

/-- The answer to a subscribe: at once, or by the admission of a new generation. -/
inductive Subscribed
  | badRequest
  | answered (outcome : HubSubscriptionOutcome)
  | admitted (generation : ℕ)

structure HubConnection (ν : Type*) where
  hubSubscriptionsPerConnection : ℕ
  states : SubscriptionRevisions
  subscriptions : InsertionMap String ℕ
  generations : List (HubSubscription ν)
  closing : Bool
  transportClosing : Bool
  aborted : Bool
  handed : List (Handed ν)

/-- Between one and 256 letters, digits, underscores or hyphens. -/
def validQueryId (value : String) : Bool :=
  decide (1 ≤ value.length) && decide (value.length ≤ 256) &&
    value.toList.all fun c => c.isAlphanum || decide (c = '_') || decide (c = '-')

namespace HubConnection

variable {ν : Type*}

def new (ν : Type*) (tombstones hubSubscriptionsPerConnection : ℕ) : HubConnection ν where
  hubSubscriptionsPerConnection := hubSubscriptionsPerConnection
  states := .new tombstones
  subscriptions := .empty
  generations := []
  closing := false
  transportClosing := false
  aborted := false
  handed := []

def closed (c : HubConnection ν) : Bool := c.closing || c.transportClosing

/-- The generation is the one stored under its query id, and its revision is active. -/
def registered (c : HubConnection ν) (g : ℕ) : Bool :=
  c.generations[g]?.any fun s =>
    decide (c.subscriptions.get s.queryId = some g) && c.states.isActive s.queryId s.revision

def isCurrent (c : HubConnection ν) (g : ℕ) : Bool :=
  !c.closed && !c.aborted && c.registered g

/-! ### What a runner does to the connection -/

def update (c : HubConnection ν) (g : ℕ) (f : HubSubscription ν → HubSubscription ν) :
    HubConnection ν :=
  { c with generations := c.generations.modify g f }

/-- Suspend the runner of `g` at an await. -/
def enter (c : HubConnection ν) (g : ℕ) (phase : Phase ν) : HubConnection ν :=
  c.update g fun s => { s with phase := phase }

/-- Answer the admission of `g`. -/
def answer (c : HubConnection ν) (g : ℕ) (outcome : HubSubscriptionOutcome) : HubConnection ν :=
  c.update g fun s => { s with admission := some outcome }

/-- Give a frame of `g` to the output, tagged with its query id and revision. -/
def send (c : HubConnection ν) (g : ℕ) (type : HubFrameType) (payload : HubPayload ν) :
    HubConnection ν :=
  match c.generations[g]? with
  | none => c
  | some s =>
      { c with handed := c.handed ++
          [⟨⟨type, s.queryId, s.revision, payload⟩, some g, c.registered g⟩] }

/-- The completion callback of `g`: it acts only while `g` is the stored generation. -/
def completed (c : HubConnection ν) (g : ℕ) (now : ℤ) : HubConnection ν :=
  match c.generations[g]? with
  | none => c
  | some s =>
      if c.subscriptions.get s.queryId = some g then
        { c with
          subscriptions := c.subscriptions.delete s.queryId
          states := (c.states.complete s.queryId s.revision now).1 }
      else c

/-- Closing the output aborts its signal, and the abort listener starts the close. -/
def closeOutput (c : HubConnection ν) : HubConnection ν :=
  { c with aborted := true, closing := true }

/-! ### Admission -/

def finishAdmission (c : HubConnection ν) (g : ℕ) (outcome : HubSubscriptionOutcome) (now : ℤ) :
    HubConnection ν :=
  ((c.completed g now).answer g outcome).enter g .settled

def failureText : HubFailure → String
  | .subscriptionLimit => "Subscription limit reached"
  | _ => "Observable query failed"

def failureOutcome : HubFailure → HubSubscriptionOutcome
  | .subscriptionLimit => .limited
  | _ => .invalid

/-- The frame that reports a failed admission. -/
def sendFailure (c : HubConnection ν) (g : ℕ) (error : HubFailure) : HubConnection ν :=
  (c.send g .error (.text (failureText error))).enter g (.sendingFailure error)

/-- The catch block of `admit`, up to its first await. -/
def admissionFailed (c : HubConnection ν) (g : ℕ) (error : HubFailure) : HubConnection ν :=
  if !c.isCurrent g || c.aborted then
    if error = .transport then c.enter g .loggingStale
    else (c.answer g .stale).enter g .settled
  else if error = .badRequest || error = .subscriptionLimit then c.sendFailure g error
  else c.enter g (.loggingFailure error)

/-- The end of the catch block: close the session, if there is one, and complete. -/
def closeFailedAdmission (c : HubConnection ν) (g : ℕ) (error : HubFailure) (now : ℤ) :
    HubConnection ν :=
  if c.generations[g]?.any HubSubscription.session then c.enter g (.closingFailure error)
  else c.finishAdmission g (failureOutcome error) now

/-- The synchronous part of `admit`. -/
def admitSync (c : HubConnection ν) (g : ℕ) : Lookup → HubConnection ν
  | .unknown => (c.send g .error (.text "Unknown observable query")).enter g .sendingUnknown
  | .failing error => c.admissionFailed g error
  | .opens => c.enter g .opening

/-- The session of `g` has opened. -/
def opened (c : HubConnection ν) (g : ℕ) (rejection : Option Bool) : HubConnection ν :=
  let c := c.update g fun s => { s with session := true }
  if !c.isCurrent g then c.enter g .closingStale
  else match rejection with
    | some true => (c.send g .error (.text "Invalid observable query")).enter g
        (.sendingRejection true)
    | some false => (c.send g .unauthorized .absent).enter g (.sendingRejection false)
    | none => (c.answer g .accepted).enter g .streaming

/-! ### Delivery -/

/-- The end of the catch block of `deliver`. -/
def reportDelivery (c : HubConnection ν) (g : ℕ) : HubConnection ν :=
  if c.isCurrent g && !c.aborted then
    (c.send g .error (.text "Observable query failed")).enter g .sendingDeliveryFailure
  else c.enter g (.closingDelivery false)

/-- The catch block of `deliver`, up to its first await. -/
def deliveryFailed (c : HubConnection ν) (g : ℕ) (error : HubFailure) : HubConnection ν :=
  if error = .transport || c.isCurrent g && !c.aborted then c.enter g .loggingDelivery
  else c.reportDelivery g

/-- The body of the delivery loop, up to its await. -/
def emitted (c : HubConnection ν) (g : ℕ) (result : QueryResult Json ν) (preparable : Bool) :
    HubConnection ν :=
  match c.generations[g]? with
  | none => c
  | some s =>
      if !c.isCurrent g then c.enter g .returning
      else if !result.isAuthorized then
        (c.send g .unauthorized .absent).enter g .sendingTerminal
      else if !result.isSuccess then
        (c.send g .error (.text "Observable query failed")).enter g .sendingTerminal
      else if !preparable then c.enter g (.unwinding .other)
      else
        let prepared := s.transfer.prepare result
        if !c.isCurrent g then c.enter g .returning
        else (c.send g .queryResult (.result prepared.payload)).enter g (.sendingResult prepared)

/-- A result frame has been written: commit it, unless the generation is no longer
current. -/
def written (c : HubConnection ν) (g : ℕ) (prepared : Prepared ν) : HubConnection ν :=
  if !c.isCurrent g then c.enter g .returning
  else (c.update g fun s => { s with transfer := s.transfer.commit prepared }).enter g .streaming

/-- The end of `deliver`: the rejection of a failing delivery is still to be handled. -/
def finishDelivery (c : HubConnection ν) (g : ℕ) (failing : Bool) (now : ℤ) :
    HubConnection ν :=
  (c.completed g now).enter g (if failing then .rejectingDelivery else .settled)

/-- Resume the runner of `g` with what the awaited call answered. -/
def settle (c : HubConnection ν) (g : ℕ) (answered : Settlement ν) (now : ℤ) :
    Option (HubConnection ν) :=
  match c.generations[g]?.map HubSubscription.phase, answered with
  | some .sendingUnknown, .fulfilled => some (c.finishAdmission g .invalid now)
  | some .sendingUnknown, .failed error => some (c.admissionFailed g error)
  | some .opening, .opened rejection => some (c.opened g rejection)
  | some .opening, .failed error => some (c.admissionFailed g error)
  | some .closingStale, .fulfilled => some ((c.answer g .stale).enter g .settled)
  | some .loggingStale, .fulfilled => some ((c.answer g .stale).enter g .settled)
  | some .loggingStale, .failed _ => some (c.enter g .settled)
  | some (.sendingRejection isAuthorized), .fulfilled =>
      some (c.enter g (.closingRejection isAuthorized))
  | some (.sendingRejection _), .failed error => some (c.admissionFailed g error)
  | some (.closingRejection isAuthorized), .fulfilled =>
      some (c.finishAdmission g (if isAuthorized then .invalid else .unauthorized) now)
  | some (.loggingFailure error), .fulfilled => some (c.sendFailure g error)
  | some (.loggingFailure error), .failed _ =>
      some (c.closeOutput.closeFailedAdmission g error now)
  | some (.sendingFailure error), .fulfilled => some (c.closeFailedAdmission g error now)
  | some (.sendingFailure error), .failed _ =>
      some (c.closeOutput.closeFailedAdmission g error now)
  | some (.closingFailure error), .fulfilled =>
      some (c.finishAdmission g (failureOutcome error) now)
  | some .streaming, .emitted result preparable => some (c.emitted g result preparable)
  | some .streaming, .finished => some (c.enter g (.closingDelivery false))
  | some .streaming, .failed error => some (c.deliveryFailed g error)
  | some .sendingTerminal, .fulfilled => some (c.enter g .returning)
  | some .sendingTerminal, .failed error => some (c.enter g (.unwinding error))
  | some (.sendingResult prepared), .fulfilled => some (c.written g prepared)
  | some (.sendingResult _), .failed error => some (c.enter g (.unwinding error))
  | some .returning, .fulfilled => some (c.enter g (.closingDelivery false))
  | some .returning, .failed error => some (c.deliveryFailed g error)
  -- a failure while the iterator returns does not replace the error under way
  | some (.unwinding error), .fulfilled => some (c.deliveryFailed g error)
  | some (.unwinding error), .failed _ => some (c.deliveryFailed g error)
  | some .loggingDelivery, .fulfilled => some (c.reportDelivery g)
  | some .loggingDelivery, .failed _ => some (c.enter g (.closingDelivery true))
  | some .sendingDeliveryFailure, .fulfilled => some (c.enter g (.closingDelivery false))
  | some .sendingDeliveryFailure, .failed _ => some (c.enter g (.closingDelivery true))
  | some (.closingDelivery failing), .fulfilled => some (c.finishDelivery g failing now)
  | some .rejectingDelivery, .fulfilled => some (c.closeOutput.enter g .settled)
  | _, _ => none

/-! ### The connection -/

/-- Store a new generation under its query id. -/
def register (c : HubConnection ν) (queryId : String) (revision : Option ℕ)
    (request : HubRequest) : HubConnection ν :=
  { c with
    subscriptions := c.subscriptions.set queryId c.generations.length
    generations := c.generations ++
      [{ queryId := queryId, revision := revision, transfer := .new request.transferMode
         session := false, admission := none, phase := .opening }] }

/-- The payload is absent where `parseHubRequest` rejects it. -/
def subscribe (c : HubConnection ν) (queryId : String) (revision : Option ℕ)
    (payload : Option HubRequest) (lookup : Lookup) (now : ℤ) : HubConnection ν × Subscribed :=
  if c.closed then (c, .answered .stale)
  else if !validQueryId queryId then (c, .badRequest)
  else match payload with
    | none => (c, .badRequest)
    | some request =>
        if (c.subscriptions.get queryId).isNone &&
            decide (c.hubSubscriptionsPerConnection ≤ c.states.activeCount) then
          ({ c with handed := c.handed ++
              [⟨⟨.error, queryId, revision, .text "Connection subscription limit reached"⟩,
                none, false⟩] }, .answered .limited)
        else
          let (states, obeyed) := c.states.subscribe queryId revision request.key now
          if obeyed then
            ((register { c with states := states } queryId revision request).admitSync
              c.generations.length lookup, .admitted c.generations.length)
          else ({ c with states := states }, .answered .stale)

def unsubscribe (c : HubConnection ν) (queryId : String) (revision : Option ℕ) (now : ℤ) :
    HubConnection ν :=
  if !validQueryId queryId then c
  else
    let (states, obeyed) := c.states.unsubscribe queryId revision now
    if obeyed then { c with states := states, subscriptions := c.subscriptions.delete queryId }
    else { c with states := states }

def close (c : HubConnection ν) : HubConnection ν := { c with closing := true }

/-- The first microtask of an uncoordinated close. -/
def clearSubscriptions (c : HubConnection ν) : HubConnection ν :=
  { c.closeOutput with subscriptions := .empty }

def releaseTransport (c : HubConnection ν) : HubConnection ν :=
  if c.closed then c
  else { c.closeOutput with subscriptions := .empty, transportClosing := true }

end HubConnection

/-- What may happen to a connection. -/
inductive HubEvent (ν : Type*)
  | subscribe (queryId : String) (revision : Option ℕ) (payload : Option HubRequest)
      (lookup : Lookup) (now : ℤ)
  | unsubscribe (queryId : String) (revision : Option ℕ) (now : ℤ)
  | settle (g : ℕ) (answered : Settlement ν) (now : ℤ)
  | close
  | clearSubscriptions
  | releaseTransport
  | abortOutput

namespace HubConnection

variable {ν : Type*}

def step (c : HubConnection ν) : HubEvent ν → Option (HubConnection ν)
  | .subscribe queryId revision payload lookup now =>
      some (c.subscribe queryId revision payload lookup now).1
  | .unsubscribe queryId revision now => some (c.unsubscribe queryId revision now)
  | .settle g answered now => c.settle g answered now
  | .close => some c.close
  | .clearSubscriptions => if c.closing then some c.clearSubscriptions else none
  | .releaseTransport => some c.releaseTransport
  | .abortOutput => some c.closeOutput

/-- A connection over all interleavings of its events. -/
def machine (ν : Type*) (tombstones hubSubscriptionsPerConnection : ℕ) :
    Machine (HubConnection ν) (HubEvent ν) where
  init := .new ν tombstones hubSubscriptionsPerConnection
  step := step

end HubConnection

end Arc.Observable
