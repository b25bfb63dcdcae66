import Arc.Foundation.Checks
import Arc.Foundation.InsertionMap
import Arc.Foundation.PlainObject
import Arc.Foundation.Json
import Arc.Foundation.Ledger
import Arc.Foundation.Machine
import Arc.Foundation.Patch
import Arc.Foundation.StableSort
import Arc.Foundation.Traversal
import Arc.Http.OperationRoutes
import Arc.Http.RequestPath
import Arc.Http.StaticRequests
import Arc.Http.RouteTable
import Arc.Http.UnambiguousRoutes
import Arc.Http.AcceptedRoutes
import Arc.Reflection.WireValue
import Arc.Reflection.WireSchema
import Arc.Queries.QueryResult
import Arc.Queries.QueryRendering
import Arc.Queries.ProviderPaging
import Arc.Queries.ReadModelInterception
import Arc.Queries.ReleasedReadModels
import Arc.Queries.WireQueries
import Arc.Queries.RenderingPaths
import Arc.Observable.SubscriptionRevisions
import Arc.Observable.RevisionPrecedence
import Arc.Observable.ObservableTransfer
import Arc.Observable.HubConnection
import Arc.Observable.HubTable
import Arc.Observable.HubFrames
import Arc.Observable.NodeWebSockets
import Arc.Observable.ObservableQueryHub
import Arc.Observable.SocketAdmission
import Arc.Observable.SocketShutdown
import Arc.Observable.UpgradedSockets
import Arc.Observable.HubAdmission
import Arc.Observable.ObservableSessions
import Arc.Observable.SessionLedger
import Arc.Observable.SessionBudgets
import Arc.Observable.CallerBudgets
import Arc.Observable.ObservableQuerySession
import Arc.Observable.EmissionGuards
import Arc.Observable.EmissionStreams
import Arc.Foundation.History
import Arc.Observable.SessionTeardown
import Arc.Observable.TeardownOnce
import Arc.Commands.CommandResult
import Arc.Commands.CommandOperations
import Arc.Commands.ExecuteCommand
import Arc.Commands.ScopeCompletion
import Arc.Commands.CommandAttempt
import Arc.Commands.CommandRun
import Arc.Commands.FirstFailure
import Arc.Commands.CompensationLaw
import Arc.Chronicle.AppendResults
import Arc.Chronicle.ChronicleUnitOfWork
import Arc.Chronicle.ScopedStaging
import Arc.Chronicle.ChronicleResponseHandler
import Arc.Chronicle.CommitDisposition
import Arc.Chronicle.CommandTree
import Arc.Chronicle.OneAppend
import Arc.Chronicle.AppendedEvents
import Arc.Chronicle.ArtifactActivator
import Arc.Chronicle.SettledActivations
import Arc.Chronicle.ChronicleReadModels
import Arc.Chronicle.ReadModelConvergence
import Arc.Drizzle.DrizzleObservationSession
import Arc.Drizzle.LatestSnapshot
import Arc.Drizzle.CurrentSnapshot
import Arc.Drizzle.PostgreSQLObservationEntry
import Arc.Drizzle.PostgreSQLObservationManager
import Arc.Drizzle.EntryMoves
import Arc.Drizzle.StepMoves
import Arc.Drizzle.ChangeRouting
import Arc.Drizzle.CallbackLoops
import Arc.Drizzle.EntryLifecycle
import Arc.Drizzle.RecoveryBudget
import Arc.Drizzle.RecoveryRuns
import Arc.Introspection.ClientTypes
import Arc.Introspection.ClientManifest
import Arc.Introspection.CanonicalDescriptors
import Arc.Introspection.ManifestOrder
import Arc.MongoDB.MongoDocumentCodec
import Arc.MongoDB.StoredFields
import Arc.MongoDB.StoredScalars
import Arc.MongoDB.StoredValues
import Arc.MongoDB.StoredModels
import Arc.MongoDB.MongoDBWatcher
import Arc.MongoDB.WatcherHub
import Arc.MongoDB.WatcherListeners
import Arc.MongoDB.WatcherOpenings
import Arc.MongoDB.WatchedListeners
import Arc.MongoDB.MongoObservation
import Arc.MongoDB.MongoObservable
import Arc.MongoDB.OpeningSteps
import Arc.MongoDB.LatestSnapshots
import Arc.ProxyGenerator.SourceWatchMonitor
import Arc.ProxyGenerator.WatchScans
import Arc.ProxyGenerator.WatchedChanges
import Arc.ProxyGenerator.SourcePublication
import Arc.ProxyGenerator.PublishedFiles
import Arc.ProxyGenerator.HandwrittenFiles
import Arc.Validation.ValidationResult
import Arc.Commands.CommandResponse
import Arc.Commands.CompletedResponse
import Arc.Commands.ResponseHandling
import Arc.Execution.FilterFragments
import Arc.Execution.FilterChains
import Arc.Foundation.Numbers
import Arc.Validation.RuleBuilder
import Arc.Validation.RuleChains
import Arc.Observable.FilteredHealth
import Arc.Foundation.Leaves
import Arc.DependencyInjection.CoordinatedShutdown
import Arc.Foundation.Preorder
import Arc.Validation.ModelGraphValidator
import Arc.Validation.ValidatedGraphs
import Arc.Queries.SortValues
import Arc.Queries.SortedPages
import Arc.Observable.ToEmissions
import Arc.Observable.LosslessEmissions
import Arc.Observable.WebSocketTransport
import Arc.Observable.TransportFrames
import Arc.Observable.TransportLaw
import Arc.Authorization.Authorization
import Arc.DependencyInjection.ServicePreflight
import Arc.Validation.RuleEvaluation
import Arc.Drizzle.DrizzleChangeNotifications
import Arc.Drizzle.RegisteredListeners
import Arc.Drizzle.TenantNotifications
import Arc.Foundation.Attempt
import Arc.ProxyGenerator.FileCalls
import Arc.ProxyGenerator.PartialCommits
import Arc.Chronicle.RawDocuments
import Arc.Foundation.Doubles
import Arc.Foundation.JsonText
import Arc.Foundation.JsonNumbers
import Arc.Foundation.JsonStringify
import Arc.Http.RequestBody
import Arc.Foundation.NumberText
import Arc.Http.QueryBinding
import Arc.Http.QueryTexts
import Arc.Http.QueryForms
import Arc.Http.BoundArguments
import Arc.Http.BindingsAgree
import Arc.ProxyGenerator.SourceFiles
import Arc.ProxyGenerator.BuiltFiles
import Arc.ProxyGenerator.PreparedTexts
import Arc.ProxyGenerator.Convergence
import Arc.ProxyGenerator.ConvergentRuns
import Arc.Execution.PrincipalGraph
import Arc.Execution.PrincipalSnapshot
import Arc.Execution.PrincipalCopies
import Arc.Execution.DetachedPrincipal
import Arc.Drizzle.ColumnCodec
import Arc.Drizzle.DrizzleModelCodec
import Arc.Drizzle.StoredColumns
import Arc.Drizzle.KeyTexts
import Arc.Drizzle.StoredRecords
import Arc.Observable.DirectSse
import Arc.Observable.DeliveredResults
import Arc.Observable.SseHubTransport
import Arc.Observable.SseHubLaw
import Arc.Observable.HubKeepAlive
import Arc.Foundation.Search
import Arc.DependencyInjection.ServiceContainer
import Arc.Foundation.Acyclic
import Arc.DependencyInjection.ServiceCalls
import Arc.DependencyInjection.ServiceLifetimes
import Arc.DependencyInjection.ResolutionWaits
import Arc.DependencyInjection.ServiceOwnership
import Arc.Drizzle.DrizzleObservable
import Arc.Queries.SnapshotStream
