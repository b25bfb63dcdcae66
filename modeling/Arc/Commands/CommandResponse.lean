import Arc.Commands.CommandResult
import Arc.Foundation.InsertionMap
import Arc.Validation.ValidationResult

/-!
# The response of a command

A command returns a value, a branded tuple of values, or an outcome. Flattened, it is a
list of leaves: operations, which the journal enters, controls, which deny or reject the
command, and ordinary values, which are handled by the response handlers or are the client
response. A canceled command that has already handled its effects keeps its outcome through
`completedCommandResponse`; everything else goes through `processCommandResponse`.

A handler is given by what its calls do. `handle` is any function of the calls before it, so
handlers may share state; the command may be canceled and its commit be acknowledged while
a call runs, and a call may set the response of the context.
-/

namespace Arc.Commands

open Arc.Validation

/-! ### Values and leaves -/

/-- A value `===` compares. `NaN` is the one that differs from itself; a `Map` finds it all
the same, which is the equality of this type. -/
inductive PlainValue (α : Type)
  | nan
  | value (value : α)
  deriving DecidableEq, Repr

/-- `value === other` -/
def PlainValue.same {α : Type} [DecidableEq α] : PlainValue α → PlainValue α → Bool
  | .value item, .value other => item = other
  | _, _ => false

/-- An outcome that is not a response. -/
inductive Control (σ : Type)
  | validation (results : List (ValidationResult σ))
  | denied (reason : Option String)

/-- A leaf that is no operation. -/
inductive OrdinaryLeaf (α σ : Type)
  | control (outcome : Control σ)
  | value (value : PlainValue α)

/-- A flattened response value; a collection is an ordinary array with a declaration in it. -/
inductive ResponseLeaf (α δ σ : Type)
  | operation (declaration : δ)
  | operations (declarations : List δ)
  | collection
  | ordinary (leaf : OrdinaryLeaf α σ)

/-- What a command handler returns. -/
inductive ReturnedValue (α δ σ : Type)
  | nothing
  | tuple (values : List (ReturnedValue α δ σ))
  | response (value : ReturnedValue α δ σ)
  | leaf (leaf : ResponseLeaf α δ σ)

variable {α δ σ : Type}

mutual

/-- Flatten only branded tuples and selected response branches, never ordinary arrays. -/
def flattenCommandResponse : ReturnedValue α δ σ → List (ResponseLeaf α δ σ)
  | .nothing => []
  | .tuple values => flattenTuple values
  | .response value => flattenCommandResponse value
  | .leaf leaf => [leaf]

/-- `values.flatMap(flattenCommandResponse)` -/
def flattenTuple : List (ReturnedValue α δ σ) → List (ResponseLeaf α δ σ)
  | [] => []
  | value :: values => flattenCommandResponse value ++ flattenTuple values

end

namespace ResponseLeaf

/-- `isCommandOperation(value) || isCommandOperations(value)` -/
def isOperation : ResponseLeaf α δ σ → Bool
  | operation _ => true
  | operations _ => true
  | _ => false

/-- `Array.isArray(value) && value.some(isCommandOperation)` -/
def isCollection : ResponseLeaf α δ σ → Bool
  | collection => true
  | _ => false

def ordinary? : ResponseLeaf α δ σ → Option (OrdinaryLeaf α σ)
  | ordinary leaf => some leaf
  | _ => none

def declarations : ResponseLeaf α δ σ → List δ
  | operation declaration => [declaration]
  | operations declarations => declarations
  | _ => []

end ResponseLeaf

namespace OrdinaryLeaf

def control? : OrdinaryLeaf α σ → Option (Control σ)
  | control outcome => some outcome
  | value _ => none

def value? : OrdinaryLeaf α σ → Option (PlainValue α)
  | control _ => none
  | value item => some item

end OrdinaryLeaf

/-- The leaves that are neither operations nor collections of them. -/
def ordinaryLeaves (leaves : List (ResponseLeaf α δ σ)) : List (OrdinaryLeaf α σ) :=
  leaves.filterMap ResponseLeaf.ordinary?

/-! ### Context and handlers -/

/-- What a response is processed under; `reason` is what a canceled command throws. -/
structure CommandContext (α σ : Type) where
  correlationId : String
  allowedSeverity : Severity
  reason : Thrown (ValidationResult σ)
  response : Option (PlainValue α) := none
  aborted : Bool := false
  acknowledged : Bool := false

/-- `results.filter(item => item.severity > context.allowedSeverity)` -/
def CommandContext.rejecting (context : CommandContext α σ) (results : List (ValidationResult σ)) :
    List (ValidationResult σ) :=
  results.filter fun item => item.severity.exceeds context.allowedSeverity

def throwIfCanceled (context : CommandContext α σ) : Except (Thrown (ValidationResult σ)) Unit :=
  if context.aborted then .error context.reason else .ok ()

/-- What a call of `handle` answers when it does not throw. -/
inductive HandlerAnswer (σ : Type)
  | nothing
  | response
  | control (outcome : Control σ)

/-- A call of `handle`: its answer, whether the command is canceled and its commit
acknowledged meanwhile, and the response it sets on the context. -/
structure HandleCall (α σ : Type) where
  answer : Except (Thrown (ValidationResult σ)) (HandlerAnswer σ)
  aborts : Bool := false
  acknowledges : Bool := false
  response : Option (Option (PlainValue α)) := none

/-- A leaf occurrence with a handler for it, by their positions. -/
structure Invocation (α : Type) where
  leaf : ℕ
  value : PlainValue α
  handler : ℕ
  deriving DecidableEq, Repr

/-- A call that was made, with the response it has set. -/
structure HandledCall (α : Type) where
  invocation : Invocation α
  response : Option (Option (PlainValue α))
  deriving DecidableEq, Repr

/-- Consume a server-only command return value. -/
structure CommandResponseValueHandler (α δ σ : Type) where
  incompatibleWithOperations : Bool := false
  canHandle : ResponseLeaf α δ σ → Except (Thrown (ValidationResult σ)) Bool
  handle : List (HandledCall α) → CommandContext α σ → PlainValue α → HandleCall α σ

/-- A handler with its position. -/
abbrev PlacedHandler (α δ σ : Type) := CommandResponseValueHandler α δ σ × ℕ

/-! ### The completed response -/

def declarationsInArray : Thrown (ValidationResult σ) :=
  .error ("Use CommandOperations instead of returning an ordinary collection of " ++
    "operation declarations")

def multipleUnhandled : Thrown (ValidationResult σ) :=
  .error "Multiple unhandled command response values"

/-- The issues of a control that reject the command. -/
def Control.rejecting (context : CommandContext α σ) : Control σ → List (ValidationResult σ)
  | .validation results => context.rejecting results
  | .denied _ => []

/-- The reason of a denial. -/
def Control.denial? : Control σ → Option (Option String)
  | .denied reason => some reason
  | .validation _ => none

/-- Preserve the outcome of a completed handler without admitting response handlers. -/
def completedCommandResponse (context : CommandContext α σ) (leaves : List (ResponseLeaf α δ σ))
    (handlersRegistered : Bool) : Except (Thrown (ValidationResult σ))
      (Option (CommandResult (PlainValue α) (ValidationResult σ))) :=
  if leaves.any ResponseLeaf.isCollection then .error declarationsInArray
  else if leaves.any ResponseLeaf.isOperation then .ok none
  else
    let ordinary := (ordinaryLeaves leaves).filterMap OrdinaryLeaf.value?
    let controls := (ordinaryLeaves leaves).filterMap OrdinaryLeaf.control?
    if handlersRegistered && !ordinary.isEmpty then .ok none
    else if 1 < ordinary.length then .error multipleUnhandled
    else
      let denial := (controls.filterMap Control.denial?).head?
      .ok (some (commandResult context.correlationId {
        response := ordinary.head?
        isAuthorized := denial.isNone
        authorizationFailureReason := (denial.bind id).getD ""
        validationResults := controls.flatMap (Control.rejecting context) }))

/-! ### Processing a response -/

section Process

variable [DecidableEq α]

/-- Ask the handlers for a value; the command may be canceled while one of them answers. -/
def matchesFor (context : CommandContext α σ) (aborts : ℕ → Bool) (value : PlainValue α) :
    List (PlacedHandler α δ σ) →
      Except (Thrown (ValidationResult σ)) (List (PlacedHandler α δ σ))
  | [] => .ok []
  | (handler, index) :: rest => do
      throwIfCanceled context
      let canHandle ← handler.canHandle (.ordinary (.value value))
      throwIfCanceled { context with aborted := aborts index }
      let matched ← matchesFor context aborts value rest
      .ok (if canHandle then (handler, index) :: matched else matched)

/-- The handlers of each value. -/
abbrev Matching (α δ σ : Type) := InsertionMap (PlainValue α) (List (PlacedHandler α δ σ))

/-- Ask for every leaf that is no control. -/
def classify (context : CommandContext α σ) (handlers : List (PlacedHandler α δ σ))
    (aborts : ℕ → ℕ → Bool) : ℕ → List (OrdinaryLeaf α σ) → Matching α δ σ →
      Except (Thrown (ValidationResult σ)) (Matching α δ σ)
  | _, [], matching => .ok matching
  | index, .control _ :: rest, matching =>
      classify context handlers aborts (index + 1) rest matching
  | index, .value value :: rest, matching => do
      let matched ← matchesFor context (aborts index) value handlers
      classify context handlers aborts (index + 1) rest (matching.set value matched)

/-- `matching.get(value) ?? []` -/
def Matching.handlers (matching : Matching α δ σ) (value : PlainValue α) :
    List (PlacedHandler α δ σ) :=
  (matching.get value).getD []

/-- The leaf without a handler becomes the response; there may be one. -/
def selectResponse (matching : Matching α δ σ) : List (OrdinaryLeaf α σ) →
    CommandContext α σ → Except (Thrown (ValidationResult σ)) (CommandContext α σ)
  | [], context => .ok context
  | .control _ :: rest, context => do
      throwIfCanceled context
      selectResponse matching rest context
  | .value value :: rest, context => do
      throwIfCanceled context
      if (matching.handlers value).isEmpty then
        if context.response.isSome then .error multipleUnhandled
        else selectResponse matching rest { context with response := some value }
      else selectResponse matching rest context

/-- The processing of a response as it stands. -/
structure Processing (α σ : Type) where
  context : CommandContext α σ
  authorized : Bool := true
  reason : String := ""
  validation : List (ValidationResult σ) := []
  failures : List String := []
  calls : List (HandledCall α) := []

namespace Processing

/-- A control before the handlers. -/
def settle (processing : Processing α σ) : Control σ → Processing α σ
  | .denied reason => { processing with authorized := false, reason := reason.getD "" }
  | .validation results =>
      { processing with
        validation := processing.validation ++ processing.context.rejecting results }

def settleAll : List (OrdinaryLeaf α σ) → Processing α σ →
    Except (Thrown (ValidationResult σ)) (Processing α σ)
  | [], processing => .ok processing
  | .control outcome :: rest, processing => do
      throwIfCanceled processing.context
      settleAll rest (processing.settle outcome)
  | .value _ :: rest, processing => do
      throwIfCanceled processing.context
      settleAll rest processing

/-- The processing while a call runs, as the call leaves it. -/
def called (processing : Processing α σ) (invocation : Invocation α) (call : HandleCall α σ) :
    Processing α σ :=
  { processing with
    context := { processing.context with
      response := call.response.getD processing.context.response
      aborted := processing.context.aborted || call.aborts
      acknowledged := processing.context.acknowledged || call.acknowledges }
    calls := processing.calls ++ [⟨invocation, call.response⟩] }

def result (processing : Processing α σ) :
    CommandResult (PlainValue α) (ValidationResult σ) :=
  commandResult processing.context.correlationId {
    response := processing.context.response
    isAuthorized := processing.authorized
    authorizationFailureReason := processing.reason
    validationResults := processing.validation
    exceptionMessages := processing.failures }

end Processing

/-- How a loop over handlers goes on: with what follows it, with `break outer`, or it throws. -/
inductive Turn (σ : Type)
  | next
  | stop
  | throw (error : Thrown (ValidationResult σ))

/-- What the answer of a call makes of a processing that was not canceled. -/
def answered (processing : Processing α σ) : HandlerAnswer σ → Turn σ × Processing α σ
  | .nothing => (.next, processing)
  | .control (.denied reason) => (.stop, processing.settle (.denied reason))
  | .control (.validation results) =>
      let processing := processing.settle (.validation results)
      (if processing.validation.isEmpty then .next else .stop, processing)
  | .response =>
      (.stop, { processing with
        failures := processing.failures ++ ["Response value handlers cannot return client responses"] })

/-- What follows a call of `handle`; `last` says whether no matching invocation remains. -/
def settled (last : Option (PlainValue α) → Bool) (processing : Processing α σ)
    (answer : Except (Thrown (ValidationResult σ)) (HandlerAnswer σ)) : Turn σ × Processing α σ :=
  match answer with
  | .error error => (.throw error, processing)
  | .ok handled =>
      if processing.context.aborted then
        match handled with
        | .nothing =>
            -- An acknowledged handler has completed its effect, and none would be skipped.
            if processing.context.acknowledged && last processing.context.response then
              (.stop, processing)
            else (.throw processing.context.reason, processing)
        | _ => (.throw processing.context.reason, processing)
      else answered processing handled

/-- Whether a leaf of `rest` still has an invocation, once the response is `response`. -/
def remains (matching : Matching α δ σ) (response : Option (PlainValue α)) :
    List (OrdinaryLeaf α σ) → Bool
  | [] => false
  | .control _ :: rest => remains matching response rest
  | .value value :: rest =>
      (!response.any value.same && !(matching.handlers value).isEmpty) ||
        remains matching response rest

/-- The handlers of one leaf, in their order. -/
def handleValue (remaining : Option (PlainValue α) → Bool) (leaf : ℕ) (value : PlainValue α) :
    List (PlacedHandler α δ σ) → Processing α σ → Turn σ × Processing α σ
  | [], processing => (.next, processing)
  | (handler, index) :: rest, processing =>
      if processing.context.aborted then (.throw processing.context.reason, processing)
      else
        let call := handler.handle processing.calls processing.context value
        match settled (fun response => rest.isEmpty && !remaining response)
            (processing.called ⟨leaf, value, index⟩ call) call.answer with
        | (.next, processing) => handleValue remaining leaf value rest processing
        | ended => ended

/-- The leaves in their order; controls and the response are passed over. -/
def handleLeaves (matching : Matching α δ σ) :
    ℕ → List (OrdinaryLeaf α σ) → Processing α σ → Turn σ × Processing α σ
  | _, [], processing => (.next, processing)
  | index, .control _ :: rest, processing =>
      handleLeaves matching (index + 1) rest processing
  | index, .value value :: rest, processing =>
      if processing.context.response.any value.same then
        handleLeaves matching (index + 1) rest processing
      else
        match handleValue (remains matching · rest) index value (matching.handlers value)
            processing with
        | (.next, processing) => handleLeaves matching (index + 1) rest processing
        | ended => ended

/-- How a response was processed: the result, and the calls of `handle`. -/
structure Processed (α σ : Type) where
  answer : Except (Thrown (ValidationResult σ))
    (CommandResult (PlainValue α) (ValidationResult σ))
  calls : List (HandledCall α)

/-- The controls precede the other values when operations participate. -/
def orderedValues (operationsPresent : Bool) (ordinary : List (OrdinaryLeaf α σ)) :
    List (OrdinaryLeaf α σ) :=
  if operationsPresent then
    ordinary.filter (·.control?.isSome) ++ ordinary.filter (·.value?.isSome)
  else ordinary

/-- What is known before the first call of `handle`. -/
def classifyLeaves (context : CommandContext α σ) (leaves : List (ResponseLeaf α δ σ))
    (handlers : List (CommandResponseValueHandler α δ σ)) (operationsPresent : Bool)
    (aborts : ℕ → ℕ → Bool) :
    Except (Thrown (ValidationResult σ)) (Matching α δ σ × Processing α σ) := do
  let ordinary := ordinaryLeaves leaves
  if leaves.any ResponseLeaf.isCollection then .error declarationsInArray
  else
    let matching ← classify context handlers.zipIdx aborts 0 ordinary InsertionMap.empty
    let values := orderedValues operationsPresent ordinary
    let context ← selectResponse matching values context
    let processing ← Processing.settleAll values { context := context }
    .ok (matching, processing)

/-- `!operationsPresent || authorized && !validation.length` -/
def Processing.admits (processing : Processing α σ) (operationsPresent : Bool) : Bool :=
  !operationsPresent || (processing.authorized && processing.validation.isEmpty)

/-- The end of a processing whose handlers have run. -/
def Processing.finish (processing : Processing α σ) : Processed α σ :=
  if processing.context.aborted && !processing.context.acknowledged then
    ⟨.error processing.context.reason, processing.calls⟩
  else ⟨.ok processing.result, processing.calls⟩

/-- Classify all leaves before invoking any handlers or operation effects. -/
def processCommandResponse (context : CommandContext α σ) (leaves : List (ResponseLeaf α δ σ))
    (handlers : List (CommandResponseValueHandler α δ σ)) (operationsPresent : Bool)
    (aborts : ℕ → ℕ → Bool) : Processed α σ :=
  match classifyLeaves context leaves handlers operationsPresent aborts with
  | .error error => ⟨.error error, []⟩
  | .ok (matching, processing) =>
      if processing.admits operationsPresent then
        match handleLeaves matching 0 (ordinaryLeaves leaves) processing with
        | (.throw error, processing) => ⟨.error error, processing.calls⟩
        | (_, processing) => processing.finish
      else processing.finish

end Process

end Arc.Commands
