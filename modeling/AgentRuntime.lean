import AgentRuntime.Lib.Runs
import AgentRuntime.Lib.Fence
import AgentRuntime.Lib.Table
import AgentRuntime.Model
import AgentRuntime.Admission
import AgentRuntime.Outbox
import AgentRuntime.Lease
import AgentRuntime.Planner
import AgentRuntime.RunService
import AgentRuntime.Reconcile
import AgentRuntime.System
import AgentRuntime.Moves
import AgentRuntime.Turns
import AgentRuntime.ReconcileTurns
import AgentRuntime.Perform
import AgentRuntime.FencedWriter
import AgentRuntime.NoRequeue
import AgentRuntime.CallbackStream
import AgentRuntime.Conservation
import AgentRuntime.ActiveTime
import AgentRuntime.Lib.Interleave
import AgentRuntime.ReconciliationLease
import AgentRuntime.Race
import AgentRuntime.Stranded
import AgentRuntime.ModelUsage
import AgentRuntime.PolicyEngine
import AgentRuntime.UsageSessions
import AgentRuntime.UsageStates
import AgentRuntime.ModelBudget
import AgentRuntime.LeakedReservation
import AgentRuntime.GatewayCall
import AgentRuntime.BoundedLoop
import AgentRuntime.LoopContract
import AgentRuntime.Lib.Expiring
import AgentRuntime.Traffic
import AgentRuntime.TrafficPermits
import AgentRuntime.MemoirGateway
import AgentRuntime.ReservedTokens
import AgentRuntime.Idempotency
import AgentRuntime.IdempotentRequests
import AgentRuntime.ToolCallAudit
import AgentRuntime.ToolGateway
import AgentRuntime.PublishDocument
import AgentRuntime.AmbiguousPublish
import AgentRuntime.PublishChain
import AgentRuntime.MemoryArchive
import AgentRuntime.CallbackProjection
import AgentRuntime.SourceDeletion
import AgentRuntime.MemoirBackend
import AgentRuntime.Revisions
import AgentRuntime.DeletedSources
import AgentRuntime.SupersededStart
import AgentRuntime.AudioJobs
import AgentRuntime.AudioWrites
import AgentRuntime.AudioMaintenance
import AgentRuntime.Lib.Totals
import AgentRuntime.AudioBudget
import AgentRuntime.MemoirLoop
import AgentRuntime.LoopStructure
import AgentRuntime.SendAttempt
import AgentRuntime.SentRequests
import AgentRuntime.Lib.Fallback
import AgentRuntime.FallbackRoutes
import AgentRuntime.LoopClock
import AgentRuntime.ImageUsage
import AgentRuntime.AdmissionRejections
import AgentRuntime.StaleDeadLetters
import AgentRuntime.BucketRepair
import AgentRuntime.DocumentRows
import AgentRuntime.CallbackReconciliation
import AgentRuntime.LostCallbacks
import AgentRuntime.AudioSessions
import AgentRuntime.FencedAudio
import AgentRuntime.RepublishedDocument
import AgentRuntime.Dispatcher
import AgentRuntime.Executor
import AgentRuntime.ResumedNodes
import AgentRuntime.StepBudget
import AgentRuntime.ActiveElapsed
import AgentRuntime.LoopVerdict
import AgentRuntime.StepRows
import AgentRuntime.RunProgress
import AgentRuntime.Lib.Packing
import AgentRuntime.LoopBatches
import AgentRuntime.SceneList
import AgentRuntime.MaterialView
import AgentRuntime.CoverageRepair
import AgentRuntime.Lib.Batches
import AgentRuntime.OrphanBatches
import AgentRuntime.CompensationQueue
import AgentRuntime.Lib.Regex
import AgentRuntime.TextPatterns
import AgentRuntime.NodeContext
import AgentRuntime.WholeBatches
import AgentRuntime.MaterialText
import AgentRuntime.CoverageTexts
import AgentRuntime.ToolResults
import AgentRuntime.SafetyReview
import AgentRuntime.SceneMedia
import AgentRuntime.StructuredOutput
import AgentRuntime.PublishedPlayback
import AgentRuntime.TitleWords
import AgentRuntime.GenerationNodes
import AgentRuntime.Lib.Firsts
import AgentRuntime.SceneMerge
import AgentRuntime.Lib.Cutting
import AgentRuntime.NarrationSegments
import AgentRuntime.NarratedScene
import AgentRuntime.SpeechStream
import AgentRuntime.SignatureCheck
import AgentRuntime.PurgeFinal
import AgentRuntime.Recovery
import AgentRuntime.RunWorkers
import AgentRuntime.ResumedOnce
import AgentRuntime.FallbackKept
import AgentRuntime.EarnedSuccess
import AgentRuntime.Lib.Walks
import AgentRuntime.RunStages
import AgentRuntime.MemoryPlayer
import AgentRuntime.MemoryApi
import AgentRuntime.MemoryUnlock
import AgentRuntime.Strangers
import AgentRuntime.PinnedArchives
import AgentRuntime.CheckpointStore
import AgentRuntime.SourceDownload
