import Arc.Chronicle.ScopedStaging
import Arc.Foundation.Checks
import Arc.Http.OperationRoutes

/-!
# The response handler

`handle` turns what a command returned into a batch: each event is routed, and every source
the batch appends to gets a concurrency scope, the caller's or one that expects the tail the
store answers for it. The tails are read at once and answered in any order; whether a source
already has a scope is asked of a plain object before the first answer.

The event store and the installed SDK are parameters: the handler relies on nothing they do.
-/

namespace Arc.Chronicle

open Arc.Commands
open Arc.Http (isBlank)

/-! ### Routing -/

/-- Command-wide routing defaults; a flag that is not given is off. -/
structure EventRouting where
  eventSourceType : Option String := none
  eventStreamType : Option String := none
  eventStreamId : Option String := none
  subject : Option String := none
  concurrentSource : Bool := false
  concurrentStreamType : Bool := false
  concurrentStreamId : Bool := false

/-- A selected event source: its class, or its name. -/
inductive SelectedSource (γ : Type)
  | type (definition : γ)
  | name (name : String)
  deriving DecidableEq

/-- An event source selector; a thunk answers a selection, or a value of another kind. -/
inductive EventSourceSelector (γ : Type)
  | selected (source : SelectedSource γ)
  | thunk (answer : Except String (SelectedSource γ))

/-- The event source a command appends through, with one of its streams. -/
structure EventSourceReference (γ : Type) where
  source : EventSourceSelector γ
  stream : Option String := none

/-- What is known of a definition: its name and its declared streams. -/
structure DeclaredEventSource where
  name : String
  streams : List String

/-- An event with the source it is appended for and its own routing. -/
structure RoutedEvent (α γ : Type) where
  eventSourceId : String
  event : α
  eventSourceType : Option String := none
  eventStreamType : Option String := none
  eventStreamId : Option String := none
  eventSource : Option (EventSourceSelector γ) := none
  eventStream : Option String := none
  subject : Option String := none
  tags : Option (List String) := none
  occurred : Option String := none

/-- The installed SDK; `declared` is the definition a class is decorated with. -/
structure Sdk (γ : Type) where
  supportsEventSources : Bool
  declared : γ → Option DeclaredEventSource
  nameOf : γ → String

/-- The event store, known by its identity: a registered definition is found by its selection,
or the lookup throws. -/
structure EventStore (α γ : Type) where
  identity : ℕ
  isRegisteredEvent : α → Bool
  eventSources : Option (SelectedSource γ → Option DeclaredEventSource)
  getTailSequenceNumber : String → Option String → Option String → Option String →
    Except (Thrown ValidationResult) ℤ

/-- What an event inherits from its command. -/
structure CommandEventRouting (γ : Type) where
  legacy : EventRouting
  reference : Option (EventSourceReference γ)
  streamId : Option String

variable {α γ : Type}

/-- The message for a feature that needs a newer SDK. -/
def unsupported (subject : String) : Thrown ValidationResult :=
  .error (subject ++
    " uses a Chronicle event source definition, which requires @cratis/chronicle 6.49.0 or later")

def resolveEventSourceSelector :
    EventSourceSelector γ → Except (Thrown ValidationResult) (SelectedSource γ)
  | .selected source => .ok source
  | .thunk (.ok source) => .ok source
  | .thunk (.error kind) => .error (.error ("An event source selector must be an @eventSource " ++
      "class, its name, or an arrow function returning one; got " ++ kind ++
      ". A thunk must be an arrow function, so that it can be told from a class"))

/-- The streams of a definition in a message. -/
def listStreams (streams : List String) : String :=
  if streams.isEmpty then "no streams" else ", ".intercalate streams

def checkStream (owner name : String) (streams : List String) (stream : Option String) :
    Except (Thrown ValidationResult) Unit :=
  match stream with
  | none => .ok ()
  | some stream => require (stream ∈ streams) (.error (owner ++ " selects stream '" ++ stream ++
      "', which event source '" ++ name ++ "' does not declare (" ++ listStreams streams ++ ")"))

/-- Reject the legacy attributes that contradict, rather than repeat, the definition. -/
def checkAgainstLegacy (owner name : String) (streams : List String) (stream : Option String)
    (legacy : EventRouting) : Except (Thrown ValidationResult) Unit := do
  match legacy.eventSourceType with
  | none => pure ()
  | some type => require (type = name) (.error (owner ++ " declares event source type '" ++ type ++
      "', which contradicts its event source definition '" ++ name ++ "'"))
  match stream, legacy.eventStreamType with
  | _, none => pure ()
  | some stream, some type => require (type = stream) (.error (owner ++
      " declares event stream type '" ++ type ++ "', which contradicts its stream '" ++ stream ++
      "' of event source '" ++ name ++ "'"))
  | none, some type => require (type ∈ streams) (.error (owner ++
      " declares event stream type '" ++ type ++ "', which event source '" ++ name ++
      "' does not declare (" ++ listStreams streams ++ ")"))

/-- Validate a reference without a connection; a name is left to the store. -/
def validateEventSourceReference (sdk : Sdk γ) (owner : String)
    (reference : EventSourceReference γ) (legacy : EventRouting) :
    Except (Thrown ValidationResult) Unit := do
  require (sdk.supportsEventSources = true) (unsupported owner)
  match ← resolveEventSourceSelector reference.source with
  | .name _ => pure ()
  | .type definition =>
      match sdk.declared definition with
      | none => .error (.error (owner ++ " refers to " ++ sdk.nameOf definition ++
          ", which is not an event source definition; decorate it with @eventSource()"))
      | some declared =>
          checkStream owner declared.name declared.streams reference.stream
          checkAgainstLegacy owner declared.name declared.streams reference.stream legacy

def describe (sdk : Sdk γ) : SelectedSource γ → String
  | .type definition => sdk.nameOf definition
  | .name name => name

/-- Resolve a reference through the registered definitions of the store. -/
def resolveEventSourceRoute (sdk : Sdk γ) (store : EventStore α γ) (owner : String)
    (reference : EventSourceReference γ) :
    Except (Thrown ValidationResult) (String × Option String) := do
  let selector ← resolveEventSourceSelector reference.source
  match store.eventSources with
  | none => .error (unsupported owner)
  | some getFor =>
      match getFor selector with
      | none => .error (.error (owner ++ " refers to event source definition '" ++
          describe sdk selector ++ "' that is not registered with Chronicle"))
      | some definition =>
          checkStream owner definition.name definition.streams reference.stream
          checkAgainstLegacy owner definition.name definition.streams reference.stream {}
          pure (definition.name, reference.stream)

/-- Fail rather than append without routing when the store cannot honor a definition. -/
def assertEventSourcesSupported (store : EventStore α γ) (entries : List (RoutedEvent α γ)) :
    Except (Thrown ValidationResult) Unit :=
  require (store.eventSources.isSome ∨
      ∀ entry ∈ entries, entry.eventSource.isNone ∧ entry.eventStream.isNone)
    (unsupported "An appended event")

/-- Route one event: its own definition, or its own types, replace what the command supplies. -/
def routeEntry (original : RoutedEvent α γ) (command : CommandEventRouting γ) :
    Except (Thrown ValidationResult) (RoutedEvent α γ) := do
  let streamId := original.eventStreamId.or command.streamId
  let inheritedSource : Except (Thrown ValidationResult) (Option (EventSourceSelector γ)) :=
    match command.reference with
    | none => pure none
    | some reference => do
        let source ← resolveEventSourceSelector reference.source
        pure (some (.selected source))
  if original.eventSource.isSome || original.eventStream.isSome then
    let eventSource ← match original.eventSource with
      | some source => pure (some source)
      | none => inheritedSource
    pure { original with eventSource := eventSource, eventStreamId := streamId }
  else if original.eventSourceType.isSome || original.eventStreamType.isSome then
    let inherited := if command.reference.isSome then {} else command.legacy
    pure { original with
      eventSourceType := original.eventSourceType.or inherited.eventSourceType
      eventStreamType := original.eventStreamType.or inherited.eventStreamType
      eventStreamId := streamId }
  else
    match command.reference with
    | some reference =>
        let eventSource ← inheritedSource
        pure { original with
          eventSource := eventSource
          eventStream := reference.stream
          eventStreamType := if reference.stream.isNone then command.legacy.eventStreamType else none
          eventStreamId := streamId }
    | none =>
        pure { original with
          eventSourceType := command.legacy.eventSourceType
          eventStreamType := command.legacy.eventStreamType
          eventStreamId := streamId }

/-! ### A call of `handle` -/

/-- A returned value: an event with its own routing, or an event for the selected source. -/
inductive ReturnedItem (α γ : Type)
  | routed (entry : RoutedEvent α γ)
  | event (event : α)

def ReturnedItem.registered : ReturnedItem α γ → α
  | .routed entry => entry.event
  | .event value => value

/-- What was returned: its events, the scopes the caller states, and for the result of an
aggregate what `assertUnstaged` throws. -/
structure HandledValue (α γ : Type) where
  values : List (ReturnedItem α γ)
  scopes : InsertionMap String ConcurrencyScope := .empty
  unstaged : Option (Thrown ValidationResult) := none

/-- In which order answers come that were asked for at once. -/
structure AnswerOrder where
  arrange : List String → List String
  perm : ∀ ids, (arrange ids).Perm ids

/-- A call of `handle`: the store it gets, the command with its routing, what the methods of
the command answer, and whether it has been canceled meanwhile. -/
structure HandlerCall (α γ : Type) where
  context : CommandContext
  value : HandledValue α γ
  store : Except (Thrown ValidationResult) (EventStore α γ)
  sdk : Sdk γ
  responseId : Option String := none
  key : Option String := none
  randomUUID : String
  owner : String
  route : EventRouting
  reference : Option (EventSourceReference γ) := none
  getEventStreamId : Option String := none
  getSubject : Except (Thrown ValidationResult) (Option String) := .ok none
  subjectProperty : Except (Thrown ValidationResult) (Option String) := .ok none
  answers : AnswerOrder
  aborted : Option (Thrown ValidationResult) := none

/-- The batch that is staged, or appended when no unit is active. -/
structure Batch (α γ : Type) where
  store : EventStore α γ
  entries : List (RoutedEvent α γ)
  scopes : InsertionMap String ConcurrencyScope

namespace HandlerCall

/-- Whether the command asks for concurrency checks. -/
def concurrent (call : HandlerCall α γ) : Bool :=
  call.route.concurrentSource || call.route.concurrentStreamType || call.route.concurrentStreamId

/-- The source of the events that name none. -/
def selectedId (call : HandlerCall α γ) : String :=
  (call.responseId.or call.key).getD call.randomUUID

def subject (call : HandlerCall α γ) : Except (Thrown ValidationResult) (Option String) := do
  match ← call.getSubject with
  | some subject => pure (some subject)
  | none =>
      match ← call.subjectProperty with
      | some subject => pure (some subject)
      | none => pure call.route.subject

def routing (call : HandlerCall α γ) : CommandEventRouting γ where
  legacy := call.route
  reference := call.reference
  streamId := call.getEventStreamId.or call.route.eventStreamId

/-- The entry of one returned value. -/
def entry (call : HandlerCall α γ) (subject : Option String) (item : ReturnedItem α γ) :
    Except (Thrown ValidationResult) (RoutedEvent α γ) := do
  let original : RoutedEvent α γ :=
    match item with
    | .routed entry => entry
    | .event event => { eventSourceId := call.selectedId, event := event }
  require (isBlank original.eventSourceId = false)
    (.error "Every appended event must have a nonempty event source id")
  let routed ← routeEntry original call.routing
  pure { routed with subject := some ((original.subject.or subject).getD original.eventSourceId) }

/-- The source and stream type an entry is stored under. -/
def effectiveRouting (call : HandlerCall α γ) (store : EventStore α γ) (entry : RoutedEvent α γ) :
    Except (Thrown ValidationResult) (Option String × Option String) :=
  match entry.eventSource with
  | none => pure (entry.eventSourceType, entry.eventStreamType)
  | some source => do
      let resolved ← resolveEventSourceRoute call.sdk store ("Command " ++ call.owner)
        ⟨source, entry.eventStream.or entry.eventStreamType⟩
      pure (some resolved.1, resolved.2)

/-- The scope that expects a tail. -/
def scopeOf (tail : ℤ) (source type stream : Option String) : ConcurrencyScope where
  properties := [.sequenceNumber tail, .eventSourceId (some true), .eventSourceType source,
    .eventStreamType type, .eventStreamId stream]
  nodup_names := by simp [ScopeProperty.name]
  expected := by simp [ScopeProperty.name]

/-- Read the tail of a source, in the dimensions the command marks, for its first entry. -/
def readScope (call : HandlerCall α γ) (store : EventStore α γ) (entries : List (RoutedEvent α γ))
    (id : String) : Except (Thrown ValidationResult) (String × ConcurrencyScope) :=
  match entries.find? (fun entry => decide (entry.eventSourceId = id)) with
  | none => .error (.error "Cannot read properties of undefined (reading 'eventSource')")
  | some sample => do
      let effective ← call.effectiveRouting store sample
      let source := if call.route.concurrentSource then effective.1 else none
      let type := if call.route.concurrentStreamType then effective.2 else none
      let stream := if call.route.concurrentStreamId then sample.eventStreamId else none
      let tail ← store.getTailSequenceNumber id source type stream
      pure (id, scopeOf tail source type stream)

/-- The scopes of a batch: no answer comes before every source was asked about, so each is
asked about in the object of the caller's scopes. -/
def readScopes (call : HandlerCall α γ) (store : EventStore α γ)
    (entries : List (RoutedEvent α γ)) :
    Except (Thrown ValidationResult) (InsertionMap String ConcurrencyScope) := do
  if call.concurrent then
    let ids := (entries.map RoutedEvent.eventSourceId).dedup
    let missing := ids.filter fun id => decide (call.value.scopes.read id = .absent)
    let scopes ← (call.answers.arrange missing).mapM (call.readScope store entries)
    pure (call.value.scopes.setAll scopes)
  else pure call.value.scopes

def checkReference (call : HandlerCall α γ) : Except (Thrown ValidationResult) Unit :=
  match call.reference with
  | some reference =>
      validateEventSourceReference call.sdk ("Command " ++ call.owner) reference call.route
  | none => .ok ()

/-- The batch of the values that were returned. -/
def prepare (call : HandlerCall α γ) : Except (Thrown ValidationResult) (Batch α γ) := do
  let store ← call.store
  require (∀ item ∈ call.value.values, store.isRegisteredEvent item.registered = true)
    (.error "Every appended event must be registered in the selected Chronicle event store")
  require (isBlank call.selectedId = false)
    (.error "A Chronicle event source id must not be empty")
  let subject ← call.subject
  call.checkReference
  let entries ← call.value.values.mapM (call.entry subject)
  assertEventSourcesSupported store entries
  let scopes ← call.readScopes store entries
  match call.aborted with
  | some reason => .error reason
  | none => pure ⟨store, entries, scopes⟩

/-- Consume the registered events that were returned; there is no batch when there are none. -/
def handle (call : HandlerCall α γ) :
    Except (Thrown ValidationResult) (Option (Batch α γ)) :=
  match call.value.unstaged with
  | some error => .error error
  | none => if call.value.values.isEmpty then .ok none else call.prepare.map some

end HandlerCall

/-! ### What a batch was made of -/

namespace HandlerCall

/-- A batch was made from the store, with the scopes that were read for its entries. -/
theorem readScopes_of_prepare {call : HandlerCall α γ} {batch : Batch α γ}
    (h : call.prepare = .ok batch) :
    call.readScopes batch.store batch.entries = .ok batch.scopes := by
  unfold prepare at h
  obtain ⟨store, -, h⟩ := Except.bind_eq_ok.1 h
  obtain ⟨-, h⟩ := Except.bind_unit_eq_ok.1 h
  obtain ⟨-, h⟩ := Except.bind_unit_eq_ok.1 h
  obtain ⟨subject, -, h⟩ := Except.bind_eq_ok.1 h
  obtain ⟨-, h⟩ := Except.bind_unit_eq_ok.1 h
  obtain ⟨entries, -, h⟩ := Except.bind_eq_ok.1 h
  obtain ⟨-, h⟩ := Except.bind_unit_eq_ok.1 h
  obtain ⟨scopes, hscopes, h⟩ := Except.bind_eq_ok.1 h
  cases haborted : call.aborted with
  | some reason =>
      rw [haborted] at h
      cases h
  | none =>
      rw [haborted] at h
      cases h
      exact hscopes

theorem readScopes_of_handle {call : HandlerCall α γ} {batch : Batch α γ}
    (h : call.handle = .ok (some batch)) :
    call.readScopes batch.store batch.entries = .ok batch.scopes := by
  apply readScopes_of_prepare
  unfold handle at h
  cases hunstaged : call.value.unstaged with
  | some error =>
      rw [hunstaged] at h
      cases h
  | none =>
      rw [hunstaged] at h
      dsimp only at h
      split_ifs at h
      · cases h
      · cases hprepare : call.prepare with
        | error error =>
            rw [hprepare] at h
            cases h
        | ok prepared =>
            rw [hprepare] at h
            cases h
            rfl

/-- The scope a source needs: the one the caller states for it, or one that expects the tail
read for it in the dimensions its first entry selects. -/
def Guards (call : HandlerCall α γ) (batch : Batch α γ) (id : String) (scope : ConcurrencyScope) :
    Prop :=
  match call.value.scopes.get id with
  | some given => scope.text = given.text
  | none => ∃ sample effective tail,
      batch.entries.find? (fun entry => decide (entry.eventSourceId = id)) = some sample ∧
      call.effectiveRouting batch.store sample = .ok effective ∧
      batch.store.getTailSequenceNumber id
        (if call.route.concurrentSource then effective.1 else none)
        (if call.route.concurrentStreamType then effective.2 else none)
        (if call.route.concurrentStreamId then sample.eventStreamId else none) = .ok tail ∧
      .sequenceNumber tail ∈ scope.content

/-- Every source among the entries has a scope of its own in the append options. -/
def Covers (call : HandlerCall α γ) (batch : Batch α γ)
    (options : InsertionMap String ConcurrencyScope) : Prop :=
  ∀ id ∈ batch.entries.map RoutedEvent.eventSourceId,
    ∃ scope, options.get id = some scope ∧ call.Guards batch id scope

theorem guards_of_text {call : HandlerCall α γ} {batch : Batch α γ} {id : String}
    {scope other : ConcurrencyScope} (h : call.Guards batch id scope)
    (htext : other.text = scope.text) : call.Guards batch id other := by
  unfold Guards at h ⊢
  cases hgiven : call.value.scopes.get id with
  | some given =>
      rw [hgiven] at h
      exact htext.trans h
  | none =>
      rw [hgiven] at h
      obtain ⟨sample, effective, tail, hfind, heffective, htail, hmem⟩ := h
      refine ⟨sample, effective, tail, hfind, heffective, htail, ?_⟩
      rw [ConcurrencyScope.text_eq_iff.1 htext]
      exact hmem

theorem readScope_id {call : HandlerCall α γ} {store : EventStore α γ}
    {entries : List (RoutedEvent α γ)} {id : String} {read : String × ConcurrencyScope}
    (h : call.readScope store entries id = .ok read) : read.1 = id := by
  unfold readScope at h
  cases hfind : entries.find? (fun entry => decide (entry.eventSourceId = id)) with
  | none =>
      rw [hfind] at h
      cases h
  | some sample =>
      rw [hfind] at h
      obtain ⟨effective, -, h⟩ := Except.bind_eq_ok.1 h
      obtain ⟨tail, -, h⟩ := Except.bind_eq_ok.1 h
      cases h
      rfl

theorem names_of_reads {call : HandlerCall α γ} {store : EventStore α γ}
    {entries : List (RoutedEvent α γ)} {ids : List String}
    {reads : List (String × ConcurrencyScope)}
    (h : List.Forall₂ (fun id read => call.readScope store entries id = .ok read) ids reads) :
    reads.map Prod.fst = ids := by
  induction h with
  | nil => rfl
  | cons hread _ ih => rw [List.map_cons, readScope_id hread, ih]

theorem reads_of_mem {call : HandlerCall α γ} {store : EventStore α γ}
    {entries : List (RoutedEvent α γ)} {ids : List String}
    {reads : List (String × ConcurrencyScope)}
    (h : List.Forall₂ (fun id read => call.readScope store entries id = .ok read) ids reads)
    {read : String × ConcurrencyScope} (hmem : read ∈ reads) :
    call.readScope store entries read.1 = .ok read := by
  induction h with
  | nil => cases hmem
  | cons hread _ ih =>
      rcases List.mem_cons.1 hmem with rfl | hrest
      · rw [readScope_id hread]
        exact hread
      · exact ih hrest

theorem guards_of_readScope {call : HandlerCall α γ} {batch : Batch α γ} {id : String}
    {read : String × ConcurrencyScope}
    (h : call.readScope batch.store batch.entries id = .ok read)
    (hnone : call.value.scopes.get id = none) : call.Guards batch id read.2 := by
  unfold readScope at h
  cases hfind : batch.entries.find? (fun entry => decide (entry.eventSourceId = id)) with
  | none =>
      rw [hfind] at h
      cases h
  | some sample =>
      rw [hfind] at h
      obtain ⟨effective, heffective, h⟩ := Except.bind_eq_ok.1 h
      obtain ⟨tail, htail, h⟩ := Except.bind_eq_ok.1 h
      cases h
      unfold Guards
      rw [hnone]
      refine ⟨sample, effective, tail, hfind, heffective, htail, ?_⟩
      simp [ConcurrencyScope.content, scopeOf, ScopeProperty.isDefined]

/-- The scopes of a batch are the caller's and those that were read: one for each source that
is absent from the object of the caller's. -/
theorem readScopes_get {call : HandlerCall α γ} {batch : Batch α γ}
    (hconcurrent : call.concurrent = true)
    (h : call.readScopes batch.store batch.entries = .ok batch.scopes) {id : String}
    (hid : id ∈ batch.entries.map RoutedEvent.eventSourceId) :
    match call.value.scopes.read id with
    | .own given => batch.scopes.get id = some given
    | .inherited => batch.scopes.get id = none
    | .absent => ∃ read, batch.scopes.get id = some read.2 ∧
        call.readScope batch.store batch.entries id = .ok read := by
  unfold readScopes at h
  rw [if_pos hconcurrent] at h
  obtain ⟨scopes, hscopes, h⟩ := Except.bind_eq_ok.1 h
  have hall := Except.forall₂_of_mapM hscopes
  set missing := ((batch.entries.map RoutedEvent.eventSourceId).dedup).filter
    (fun id => decide (call.value.scopes.read id = .absent)) with hmissing
  have hnames := names_of_reads hall
  have hmem : ∀ name, name ∈ scopes.map Prod.fst ↔ name ∈ missing := by
    intro name
    rw [hnames]
    exact (call.answers.perm missing).mem_iff
  have hnodup : (scopes.map Prod.fst).Nodup := by
    rw [hnames, (call.answers.perm missing).nodup_iff]
    exact (List.nodup_dedup _).filter _
  have hmissing : id ∈ missing ↔ call.value.scopes.read id = .absent := by
    simp [missing, List.mem_filter, hid]
  have hset : batch.scopes = call.value.scopes.setAll scopes := (Except.ok.inj h).symm
  cases hread : call.value.scopes.read id with
  | own given =>
      have hout : id ∉ scopes.map Prod.fst := by
        rw [hmem, hmissing, hread]
        simp
      dsimp only
      rw [hset, InsertionMap.get_setAll_of_not_mem hout]
      exact InsertionMap.read_eq_own_iff.1 hread
  | inherited =>
      have hout : id ∉ scopes.map Prod.fst := by
        rw [hmem, hmissing, hread]
        simp
      dsimp only
      rw [hset, InsertionMap.get_setAll_of_not_mem hout]
      exact InsertionMap.get_of_read_inherited hread
  | absent =>
      have hin : id ∈ scopes.map Prod.fst := by rw [hmem, hmissing, hread]
      obtain ⟨read, hmemread, rfl⟩ := List.mem_map.1 hin
      refine ⟨read, ?_, reads_of_mem hall hmemread⟩
      rw [hset]
      exact InsertionMap.get_setAll_of_mem hnodup hmemread

/-- The scopes a batch is appended under: its own when it is appended at once, and those of its
unit when it was staged, whatever was staged after it. -/
inductive AppendedUnder (call : HandlerCall α γ) (batch : Batch α γ) :
    InsertionMap String ConcurrencyScope → Prop
  | append : AppendedUnder call batch batch.scopes
  | stage (unit : ChronicleUnitOfWork (RoutedEvent α γ) ℕ ConcurrencyScope)
      (later : List (StageCall (RoutedEvent α γ) ℕ))
      (staged : (unit.stageWritten batch.store.identity call.context batch.entries
        batch.scopes).2 = none) :
      AppendedUnder call batch ((unit.stageWritten batch.store.identity call.context batch.entries
        batch.scopes).1.stageAll later).scopes

theorem covers_batch {call : HandlerCall α γ} {batch : Batch α γ}
    (hconcurrent : call.concurrent = true) (h : call.handle = .ok (some batch))
    (hids : ∀ id ∈ batch.entries.map RoutedEvent.eventSourceId,
      (call.value.scopes.get id).isSome ∨ id ∉ objectMembers) :
    call.Covers batch batch.scopes := by
  intro id hid
  have hget := readScopes_get hconcurrent (readScopes_of_handle h) hid
  cases hread : call.value.scopes.read id with
  | own given =>
      rw [hread] at hget
      refine ⟨given, hget, ?_⟩
      unfold Guards
      rw [InsertionMap.read_eq_own_iff.1 hread]
  | inherited =>
      rcases hids id hid with hsome | hmember
      · rw [InsertionMap.get_of_read_inherited hread] at hsome
        cases hsome
      · rw [InsertionMap.read_of_absent (InsertionMap.get_of_read_inherited hread) hmember] at hread
        cases hread
  | absent =>
      rw [hread] at hget
      obtain ⟨read, hscope, hreads⟩ := hget
      exact ⟨read.2, hscope,
        guards_of_readScope hreads (InsertionMap.read_eq_absent_iff.1 hread).1⟩

/-- Every source of an accepted batch has its scope in the options it is appended with, at once
or with a unit, exactly when no source without a stated scope has the name of a member. -/
theorem covers_iff (call : HandlerCall α γ) (batch : Batch α γ)
    (hconcurrent : call.concurrent = true) (h : call.handle = .ok (some batch)) :
    (∀ options, call.AppendedUnder batch options → call.Covers batch options) ↔
      ∀ id ∈ batch.entries.map RoutedEvent.eventSourceId,
        (call.value.scopes.get id).isSome ∨ id ∉ objectMembers := by
  constructor
  · intro hcovers id hid
    obtain ⟨scope, hscope, -⟩ := hcovers _ .append id hid
    have hget := readScopes_get hconcurrent (readScopes_of_handle h) hid
    cases hread : call.value.scopes.read id with
    | own given =>
        left
        rw [InsertionMap.read_eq_own_iff.1 hread]
        rfl
    | inherited =>
        rw [hread] at hget
        rw [hget] at hscope
        cases hscope
    | absent => exact Or.inr (InsertionMap.read_eq_absent_iff.1 hread).2
  · intro hids options hoptions
    have hbatch := covers_batch hconcurrent h hids
    cases hoptions with
    | append => exact hbatch
    | stage unit later staged =>
        intro id hid
        obtain ⟨scope, hscope, hguards⟩ := hbatch id hid
        have hentered := ChronicleUnitOfWork.get_of_stageWritten staged
          (InsertionMap.get_eq_some_iff.1 hscope)
        obtain ⟨kept, hkept, htext⟩ := ChronicleUnitOfWork.get_stageAll later hentered
        exact ⟨kept, hkept, guards_of_text hguards htext⟩

/-- A store in which every event is registered and every tail is the same. -/
def library : EventStore ℕ ℕ where
  identity := 0
  isRegisteredEvent := fun _ => true
  eventSources := none
  getTailSequenceNumber := fun _ _ _ _ => .ok 4

/-- A command with a concurrent source type that returns one event for its key. -/
def lend (key : String) : HandlerCall ℕ ℕ where
  context := ⟨0, "tenant", "correlation"⟩
  value := { values := [.event 1] }
  store := .ok library
  sdk := ⟨false, fun _ => none, fun _ => ""⟩
  key := some key
  randomUUID := "uuid"
  owner := "LendBook"
  route := { eventSourceType := some "Book", concurrentSource := true }
  answers := ⟨id, fun _ => .rfl⟩

/-- The entry of the event of `lend`. -/
def lent (key : String) : RoutedEvent ℕ ℕ where
  eventSourceId := key
  event := 1
  eventSourceType := some "Book"
  subject := some key

theorem covers_iff_lend :
    (∀ options, (lend "book-1").AppendedUnder ⟨library, [lent "book-1"],
        InsertionMap.empty.set "book-1" (scopeOf 4 (some "Book") none none)⟩ options →
      (lend "book-1").Covers ⟨library, [lent "book-1"],
        InsertionMap.empty.set "book-1" (scopeOf 4 (some "Book") none none)⟩ options) ↔
      ∀ id ∈ ([lent "book-1"] : List (RoutedEvent ℕ ℕ)).map RoutedEvent.eventSourceId,
        ((lend "book-1").value.scopes.get id).isSome ∨ id ∉ objectMembers :=
  covers_iff (lend "book-1") ⟨library, [lent "book-1"],
    InsertionMap.empty.set "book-1" (scopeOf 4 (some "Book") none none)⟩ rfl rfl

/-- An event for the source `constructor` is appended without a scope. -/
theorem not_covers_constructor :
    (lend "constructor").concurrent = true ∧
      (lend "constructor").handle = .ok (some ⟨library, [lent "constructor"], .empty⟩) ∧
      ¬ ∀ options, (lend "constructor").AppendedUnder ⟨library, [lent "constructor"], .empty⟩
          options →
        (lend "constructor").Covers ⟨library, [lent "constructor"], .empty⟩ options := by
  refine ⟨rfl, rfl, fun h => ?_⟩
  obtain ⟨scope, hscope, -⟩ := h _ .append "constructor" (by simp [lent])
  cases hscope

end HandlerCall

end Arc.Chronicle
