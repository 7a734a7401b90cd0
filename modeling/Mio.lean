import Mio.Core.RoomHistory
import Mio.Core.ConductorRuns
import Mio.Desktop.StoreRecovery
import Mio.Desktop.RoomCommands
import Mio.Desktop.RoomOrchestrationLedger
import Mio.Desktop.RoomOrchestrationRuns
import Mio.Core.RoomPaging
import Mio.Broker.CommandBroker
import Mio.Broker.Confirmation
import Mio.Library.Past
import Mio.Broker.ConfirmationRuns
import Mio.Desktop.CommandConfirmations
import Mio.Desktop.CommandConfirmationRuns
import Mio.Relay.RelayClient
import Mio.Relay.RelayClientRuns
import Mio.Desktop.RelayRuntime
import Mio.Desktop.RelayRuntimeRuns
import Mio.Desktop.AiDispatchRuns
import Mio.Desktop.AiDispatchLaws
import Mio.Desktop.LedgerCapacity
import Mio.Desktop.Time
import Mio.Desktop.AiDispatch
import Mio.Desktop.AiDispatchChecks
import Mio.Desktop.RoomOrchestration
import Mio.Desktop.AiDispatchContext
import Mio.Desktop.TurnCancellation
import Mio.Library.Thread
import Mio.Desktop.AiDispatchTurn
import Mio.Desktop.AiDispatchReplies
import Mio.Desktop.BrowserBridge
import Mio.Desktop.BrowserBridgeRuns
import Mio.Desktop.BrowserBridgeProgress
import Mio.Library.Delimited
import Mio.Library.Reads
import Mio.Relay.RelayTransport
import Mio.Relay.RelayTransportFrames
import Mio.Broker.CommandPlan
import Mio.Launcher.WindowsIsolation
import Mio.Launcher.WindowsIsolationCleanup
import Mio.Desktop.JsonStoreLoads
import Mio.Desktop.AiDispatchInvariants
import Mio.Desktop.RoomBackupCommands
import Mio.Desktop.RoomWorkspaceCommands
import Mio.Broker.HelperProtocol
import Mio.Broker.HelperRequests
import Mio.Desktop.CodexTurnStart
import Mio.Desktop.RoomOrchestratorRuns
import Mio.Library.Value
import Mio.Desktop.CommandExecution
import Mio.Desktop.CodexAppServer
import Mio.Desktop.TextAdapters
import Mio.Desktop.AdapterReplies
import Mio.Desktop.CodexToolLaws
import Mio.Desktop.CodexTurnLaws
import Mio.Desktop.CommandConfirmationConsents
import Mio.Desktop.InstallConsent
import Mio.Desktop.AiDispatchBegin
import Mio.Broker.ConfirmationFrame
import Mio.Broker.WorkspacePath
import Mio.Desktop.ConductorRecovery
import Mio.Desktop.SettingsFiles
import Mio.Broker.NpmPackages
import Mio.Core.ConductorPlans
import Mio.Desktop.LedgerFiles
import Mio.Desktop.LedgerSizes
import Mio.Interface.RoomView
import Mio.Interface.RoomViewRuns
import Mio.Mcp.OwnerProxy
import Mio.Mcp.OwnerProxyRuns
import Mio.Desktop.AiPromptFraming
import Mio.Desktop.BrowserBridgeBodies
import Mio.Desktop.BrowserBridgeHttp
import Mio.Desktop.BrowserBridgeRequests
import Mio.Desktop.DerivedIds
import Mio.Desktop.NpmFingerprint
import Mio.Desktop.OwnerNormalization
import Mio.Desktop.RoomArtifactRuns
import Mio.Launcher.OutputBudget
import Mio.Relay.LifecycleRuns
import Mio.Desktop.CodexTraffic
import Mio.Desktop.CodexLines
import Mio.Desktop.Timestamps
import Mio.Library.HostNames
import Mio.Library.Splits
import Mio.Relay.RelayEndpoint
import Mio.Relay.RelayReading
import Mio.Desktop.AiDispatchOutcomes
import Mio.Desktop.AiDispatchCommands
import Mio.Broker.WorkspaceFileHistories
