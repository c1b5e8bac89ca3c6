import Foco.RustText
import Foco.ApplyPatch
import Foco.Json
import Foco.ToolLocks
import Foco.Result
import Foco.UnixPath
import Foco.FileResolution
import Foco.PatchLockCoverage
import Foco.ToolPlanning
import Foco.PathLockAgreement
import Foco.Runs
import Foco.Programs
import Foco.LockRegistry
import Foco.Table
import Foco.AgentDomain
import Foco.AgentTables
import Foco.AgentStore
import Foco.AgentExecution
import Foco.AgentEvents
import Foco.AgentEffects
import Foco.AgentAttempts
import Foco.AgentSchema
import Foco.AgentInstances
import Foco.AgentClaims
import Foco.Splices
import Foco.PatchReplacements
import Foco.PatchText
import Foco.Rollups
import Foco.UsageRollups
import Foco.UsageRebuild
import Foco.RecursiveQuery
import Foco.AgentStatements
import Foco.AgentWaits
import Foco.AgentSubtrees
import Foco.AgentLeases
import Foco.AgentRecovery
import Foco.AgentRecoveryRuns
import Foco.QueuedRuns
import Foco.QueuedRunCopies
import Foco.QueuedRunClaims
import Foco.Calls
import Foco.PlanTables
import Foco.PlanDispatch
import Foco.PlanDispatchRuns
import Foco.PlanSettlements
import Foco.NumberedLogs
import Foco.OutputRing
import Foco.OutputReaders
import Foco.JsonSize
import Foco.OutputBudget
import Foco.OutputBudgetFixedPoint
import Foco.Utf8Lossy
import Foco.CommandPages
import Foco.CommandPageRuns
import Foco.ApiErrors
import Foco.Maps
import Foco.Oneshot
import Foco.QuestionRegistry
import Foco.ActiveChatRuns
import Foco.ChatRunStreams
import Foco.ScheduledTaskRuns
import Foco.WsContinuations
import Foco.WsRegistry
import Foco.WsRegistryTurns
import Foco.JsonDocuments
import Foco.AuditRedaction
import Foco.SidecarCleanup
import Foco.RemoteRunStreams
import Foco.RemoteRunSubscriptions
import Foco.BrokerChannel
import Foco.RemoteChats
import Foco.RunOwnership
import Foco.ChatQueue
import Foco.HistoryReplay
import Foco.CountingSemaphore
import Foco.WorkspaceGate
import Foco.CommandRegistry
import Foco.TerminalSession
import Foco.CodeGraphRegistry
import Foco.LifecycleParts
import Foco.FileTree
import Foco.SkillMarkdown
import Foco.SkillInstall
import Foco.SkillInstalls
import Foco.ReasoningLoop
import Foco.DepthFirst
import Foco.TodoGraph
import Foco.KnownHosts
import Foco.SortedByKey
import Foco.RemoteToolCalls
import Foco.Occurrences
import Foco.ExactEdits
import Foco.IntervalRuns
import Foco.TextRedaction
import Foco.EdgeClosure
import Foco.MemoryStore
import Foco.FactUpdates
import Foco.AuditSegments
import Foco.AuditSegmentReads
import Foco.ModelRedirects
import Foco.McpToolNames
import Foco.SkillFrontmatter
import Foco.FirstOccurrence
import Foco.CwdTracking
import Foco.CwdReports
import Foco.GraphSnapshots
import Foco.GraphPreviews
import Foco.RunMasking
import Foco.SwappedRuns
import Foco.ShownRuns
import Foco.ProviderMessages
import Foco.MixedOrders
import Foco.UpdateVersions
import Foco.Utf8Chunks
import Foco.CommandPipes
import Foco.LineEdits
import Foco.Utf16
import Foco.TextFiles
import Foco.ReasoningLoopSearch
import Foco.AuditSegmentRuns
import Foco.IndexTrees
import Foco.AgentPromptLayers
import Foco.JsonText
import Foco.JsonLengths
import Foco.TaskOutcomes
import Foco.ContextPacking
import Foco.GraphResolver
import Foco.NestedRanges
import Foco.ContainingSymbols
import Foco.ModuleResolution
import Foco.MemoryRetrieval
import Foco.RunLengths
import Foco.ToolLoop
import Foco.ToolExecution
import Foco.SpecPatches
import Foco.AuditedAttempts
import Foco.AgentRunExecutor
