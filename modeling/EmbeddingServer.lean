import EmbeddingServer.Lib.Checked
import EmbeddingServer.Lib.Segments
import EmbeddingServer.Core.Contract
import EmbeddingServer.Core.Control
import EmbeddingServer.Core.CompositeLaw
import EmbeddingServer.Core.Activity
import EmbeddingServer.Lib.Cascade
import EmbeddingServer.Core.TokenGraph
import EmbeddingServer.Core.TokenSemantics
import EmbeddingServer.Core.TokenRuns
import EmbeddingServer.Core.TokenRace
import EmbeddingServer.Core.TokenShape
import EmbeddingServer.Core.TokenLag
import EmbeddingServer.Core.WakeUps
import EmbeddingServer.Runtime.Batch
import EmbeddingServer.Runtime.Demultiplex
import EmbeddingServer.Runtime.ResponseContract
import EmbeddingServer.Lib.Transition
import EmbeddingServer.Runtime.Scheduler
import EmbeddingServer.Runtime.SchedulerAccounting
import EmbeddingServer.Runtime.Preflight
import EmbeddingServer.Runtime.Await
import EmbeddingServer.Runtime.LatePublication
import EmbeddingServer.Runtime.BatchBounds
import EmbeddingServer.Runtime.SchedulingRound
import EmbeddingServer.Lib.Monitor
import EmbeddingServer.Runtime.Registry
import EmbeddingServer.Runtime.Lifecycle
import EmbeddingServer.Runtime.AdminLock
import EmbeddingServer.Runtime.RegistryCoherence
import EmbeddingServer.Runtime.ShutdownFence
import EmbeddingServer.Lib.Tally
import EmbeddingServer.Runtime.Requests
import EmbeddingServer.Runtime.RequestAccounting
import EmbeddingServer.Runtime.LeaseAccounting
import EmbeddingServer.Runtime.QueueAccounting
import EmbeddingServer.Lib.Program
import EmbeddingServer.Lib.History
import EmbeddingServer.Models.Manifest
import EmbeddingServer.Models.FileSystem
import EmbeddingServer.Models.Store
import EmbeddingServer.Models.Install
import EmbeddingServer.Models.StoreLogic
import EmbeddingServer.Models.Transaction
import EmbeddingServer.Models.RepairSafety
import EmbeddingServer.Models.Footprint
import EmbeddingServer.Models.StoreSteps
import EmbeddingServer.Models.Inspection
import EmbeddingServer.Models.Verification
import EmbeddingServer.Models.Streaming
import EmbeddingServer.Models.DownloadPolicy
import EmbeddingServer.Models.Deletion
import EmbeddingServer.Models.Publication
import EmbeddingServer.Models.StoreRuns
import EmbeddingServer.Models.StagingIntegrity
import EmbeddingServer.Models.DeletionSafety
import EmbeddingServer.Models.Locality
import EmbeddingServer.Models.LockProtocol
import EmbeddingServer.Models.Leases
import EmbeddingServer.Models.LeaseExclusion
import EmbeddingServer.Models.Identity
import EmbeddingServer.Lib.Worklist
import EmbeddingServer.Onnx.ExternalData
import EmbeddingServer.Lib.Binary32
import EmbeddingServer.Onnx.Engine
import EmbeddingServer.Lib.Json
import EmbeddingServer.Lib.Bytes
import EmbeddingServer.Lib.PrettyJson
import EmbeddingServer.Lib.Layout
import EmbeddingServer.Models.Fingerprint
import EmbeddingServer.Models.Trust
import EmbeddingServer.Models.Layout
import EmbeddingServer.Models.IdentityRecord
import EmbeddingServer.Server.Credentials
import EmbeddingServer.Lib.Layers
import EmbeddingServer.Server.Configuration
import EmbeddingServer.Server.ConfigSources
import EmbeddingServer.Server.ConfigMerge
import EmbeddingServer.Server.MergeLaw
import EmbeddingServer.Server.CommandLine
import EmbeddingServer.Server.CredentialNames
import EmbeddingServer.Server.Application
import EmbeddingServer.Server.LifecycleErrors
import EmbeddingServer.Server.Preload
import EmbeddingServer.Server.PreloadView
import EmbeddingServer.Server.PreloadRollback
import EmbeddingServer.Server.AccessControl
import EmbeddingServer.Server.GrpcAuth
import EmbeddingServer.Lib.Serde
import EmbeddingServer.Server.Mcp
import EmbeddingServer.Server.McpGrammar
import EmbeddingServer.Server.McpSession
import EmbeddingServer.Lib.Lines
import EmbeddingServer.Server.Framing
import EmbeddingServer.Onnx.Epoch
import EmbeddingServer.Onnx.OverLength
import EmbeddingServer.Onnx.PreflightSoundness
import EmbeddingServer.Lib.RowMajor
import EmbeddingServer.Onnx.Tensors
import EmbeddingServer.Onnx.RowLocality
import EmbeddingServer.Server.InputLimits
import EmbeddingServer.Lib.Notify
import EmbeddingServer.Runtime.DrainWait
import EmbeddingServer.Models.Withholding
import EmbeddingServer.Models.Reachable
import EmbeddingServer.Runtime.InstallGate
import EmbeddingServer.Runtime.Coordinator
import EmbeddingServer.Runtime.BlockingPool
import EmbeddingServer.Lib.Directory
import EmbeddingServer.Server.Cors
import EmbeddingServer.Server.GrpcTimeout
import EmbeddingServer.Server.Catalog
import EmbeddingServer.Lib.SerdeText
import EmbeddingServer.Server.McpReplies
import EmbeddingServer.Server.Stdio
import EmbeddingServer.Onnx.Loading
import EmbeddingServer.Lib.Exposition
import EmbeddingServer.Runtime.Metrics
import EmbeddingServer.Runtime.Readiness
import EmbeddingServer.Server.GrpcHealth
import EmbeddingServer.Lib.SerdeFields
import EmbeddingServer.Server.JsonBody
import EmbeddingServer.Server.EmbedRequests
import EmbeddingServer.Server.GrpcDeadlines
