import ProductionStack.Basic
import ProductionStack.Runs
import ProductionStack.Dict
import ProductionStack.Endpoint
import ProductionStack.RoundRobin
import ProductionStack.PrefixIndex
import ProductionStack.Hashtrie
import ProductionStack.Json
import ProductionStack.PrefixAware
import ProductionStack.StatsMonitor
import ProductionStack.ProcessRequest
import ProductionStack.ConsistentHash
import ProductionStack.SessionRouter
import ProductionStack.Guardian
import ProductionStack.GuardianDecision
import ProductionStack.GuardianRestart
import ProductionStack.ListWatch
import ProductionStack.PodDiscovery
import ProductionStack.Regex
import ProductionStack.StaticLists
import ProductionStack.RouterConfig
import ProductionStack.Reconfigure
import ProductionStack.ConfigWatcher
import ProductionStack.Startup
import ProductionStack.UnchangedConfig
import ProductionStack.Batch
import ProductionStack.LocalBatchProcessor
import ProductionStack.BatchInvariants
import ProductionStack.BatchRecords
import ProductionStack.FaissAdapter
import ProductionStack.SleepRouting
import ProductionStack.Command
import ProductionStack.LoraAdapterController
import ProductionStack.LoraCalls
import ProductionStack.LoraDeletion
import ProductionStack.LoraReconcile
import ProductionStack.LoraConvergence
import ProductionStack.Quiescence
import ProductionStack.KubeObjects
import ProductionStack.VLLMRuntimeController
import ProductionStack.VLLMRuntimeQuiescence
import ProductionStack.VLLMRouterController
import ProductionStack.CacheServerController
import ProductionStack.DeploymentDrift
import ProductionStack.ServiceSelectors
import ProductionStack.PdCell
import ProductionStack.PdGpuLauncher
import ProductionStack.PdCellPorts
import ProductionStack.Progressions
import ProductionStack.PrefixMatchPicker
import ProductionStack.KnownModels
import ProductionStack.SemanticCache
import ProductionStack.TextPattern
import ProductionStack.JsonText
import ProductionStack.PiiDetection
import ProductionStack.JsonLoads
import ProductionStack.JsonRoundTrip
import ProductionStack.JsonReads
import ProductionStack.JsonCanonical
import ProductionStack.Utf8Text
import ProductionStack.HashChain
import ProductionStack.AuditLog
import ProductionStack.AuditLogProcesses
import ProductionStack.JevDecide
import ProductionStack.JevDecideStages
import ProductionStack.JevDecideAudit
import ProductionStack.Rotation
import ProductionStack.RoundRobinFairness
import ProductionStack.RoundRobinPicker
import ProductionStack.KvAwarePicker
import ProductionStack.KvAwareRouter
import ProductionStack.Posix
import ProductionStack.FileStorage
import ProductionStack.JsonAscii
import ProductionStack.GeneralRequest
import ProductionStack.ClientSessions
import ProductionStack.LoraFrame
import ProductionStack.LoraInterference
import ProductionStack.StartupRace
import ProductionStack.SlidingWindow
import ProductionStack.StatsWindows
import ProductionStack.RequestBookkeeping
import ProductionStack.FaissSearch
import ProductionStack.StaticDiscovery
import ProductionStack.YamlConfig
import ProductionStack.DisaggregatedPrefill
import ProductionStack.JevDecideSecrecy
import ProductionStack.JevDecideRetries
import ProductionStack.JsonTrailing
import ProductionStack.AuditLogDamage
import ProductionStack.StaticHealthChecks
import ProductionStack.UrlHosts
import ProductionStack.LoraDifference
import ProductionStack.Selection
import ProductionStack.Transcriptions
import ProductionStack.LoraPlacement
import ProductionStack.LoraWaiting
import ProductionStack.Changes
import ProductionStack.GuardianIncidents
import ProductionStack.Slices
import ProductionStack.MatchLength
import ProductionStack.JevDecideValidation
import ProductionStack.PositionalWrites
import ProductionStack.PosixFiles
import ProductionStack.FileContents
import ProductionStack.ChunkedUpload
import ProductionStack.GeneratedIds
import ProductionStack.BatchListing
import ProductionStack.Normpath
import ProductionStack.HuggingfaceDownloader
import ProductionStack.ServiceNameDiscovery
import ProductionStack.EngineStatsScraper
import ProductionStack.QpsRouting
import ProductionStack.RouterNamespace
import ProductionStack.ResponseProxy
