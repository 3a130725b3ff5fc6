import Conduit.Foundation.Run
import Conduit.Foundation.Silence
import Conduit.Foundation.Json
import Conduit.Foundation.OrderedMap
import Conduit.Foundation.KeyIndex
import Conduit.Foundation.Text
import Conduit.Foundation.Delimited
import Conduit.Foundation.SortedSet
import Conduit.RateLimit.Types
import Conduit.RateLimit.Limiter
import Conduit.RateLimit.WindowLog
import Conduit.RateLimit.MemoryRefinement
import Conduit.RateLimit.RedisLimiter
import Conduit.RateLimit.RedisRefinement
import Conduit.RateLimit.Agreement
import Conduit.RateLimit.RateLimiter
import Conduit.RateLimit.Checks
import Conduit.RateLimit.Charging
import Conduit.RateLimit.Occupancy
import Conduit.RateLimit.WindowBound
import Conduit.RateLimit.RetryAfter
import Conduit.RateLimit.Identities
import Conduit.RateLimit.ClientResets
import Conduit.RateLimit.Queue
import Conduit.RateLimit.Concurrency
import Conduit.RateLimit.Recording
import Conduit.RateLimit.QueueLedger
import Conduit.RateLimit.QueueService
import Conduit.RateLimit.QueueAdmission
import Conduit.Config.Types
import Conduit.Router.CircuitBreaker
import Conduit.Router.Namespace
import Conduit.Router.Registry
import Conduit.Router.Hysteresis
import Conduit.Router.Router
import Conduit.Router.Recovery
import Conduit.Proxy.JsonRpc
import Conduit.Proxy.StdioClient
import Conduit.Proxy.StdioSession
import Conduit.Router.HalfOpenPeriod
import Conduit.Foundation.Program
import Conduit.Foundation.Playing
import Conduit.Foundation.JsonText
import Conduit.Foundation.CodeUnits
import Conduit.Utils.DeepSort
import Conduit.Utils.Pattern
import Conduit.Config.Host
import Conduit.Auth.Acl
import Conduit.Auth.Authenticator
import Conduit.Guardrails.Evaluator
import Conduit.Identity.Runtime
import Conduit.Identity.Preflight
import Conduit.Identity.Accounts
import Conduit.Governance.Runtime
import Conduit.Governance.Quota
import Conduit.Governance.Charges
import Conduit.Governance.Store
import Conduit.Governance.Approvals
import Conduit.Governance.ApprovalSoundness
import Conduit.Connect.Profiles
import Conduit.Cache.Policy
import Conduit.Cache.Key
import Conduit.Cache.Store
import Conduit.Cache.StoreIndexes
import Conduit.Cache.RedisCache
import Conduit.Cache.Inflight
import Conduit.Cache.SingleFlight
import Conduit.Cache.Deduplication
import Conduit.Config.Gateway
import Conduit.Config.Schema
import Conduit.Config.Loader
import Conduit.Gateway.Reload
import Conduit.Gateway.Operations
import Conduit.Gateway.Pipeline
import Conduit.Gateway.Handler
import Conduit.Gateway.Admission
import Conduit.Gateway.Discipline
import Conduit.Gateway.Mediation
import Conduit.Router.Operation
import Conduit.Foundation.Rotation
import Conduit.Router.Replicas
import Conduit.Router.Freshness
import Conduit.Gateway.Checked
import Conduit.Gateway.Routing
import Conduit.Observability.Trace
import Conduit.Foundation.Concatenation
import Conduit.Observability.Redactor
import Conduit.Proxy.Transport
import Conduit.Proxy.McpClient
import Conduit.Proxy.UpstreamSessions
import Conduit.Proxy.Authentication
import Conduit.Gateway.Confinement
import Conduit.Gateway.ListAgreement
import Conduit.Gateway.ReloadUnchanged
import Conduit.Gateway.System
import Conduit.Gateway.Serving
import Conduit.Gateway.Provenance
import Conduit.Gateway.Sharing
import Conduit.Gateway.ReloadCoverage
import Conduit.Foundation.Numeral
import Conduit.Foundation.JsonReading
import Conduit.Cache.KeyContents
import Conduit.Gateway.Cluster
import Conduit.Gateway.Tenancy
import Conduit.Runtime.ReleaseHistory
import Conduit.Admin.RegistryDecision
import Conduit.Connect.DescriptorFetch
import Conduit.Admin.ServerAdditions
import Conduit.Foundation.Drain
import Conduit.Gateway.Stop
import Conduit.Gateway.Transparency
import Conduit.Proxy.Batches
import Conduit.Foundation.JsonOrder
import Conduit.Cache.KeyArguments
import Conduit.Cache.CanonicalText
import Conduit.Gateway.Genuineness
import Conduit.Gateway.Staleness
import Conduit.Gateway.Shelves
import Conduit.Gateway.Refusals
import Conduit.Gateway.DeclaredInvalidations
import Conduit.Gateway.DocumentedCaching
import Conduit.Gateway.TierLifetime
import Conduit.Gateway.WaitQueue
import Conduit.Foundation.Layering
import Conduit.Gateway.HeaderSources
import Conduit.Foundation.Ipv6
import Conduit.Utils.Ipv6Guard
import Conduit.Utils.DeniedAddresses
import Conduit.Utils.YamlSafe
import Conduit.Utils.UrlHosts
import Conduit.Connect.Export
import Conduit.Connect.Remote
import Conduit.Foundation.Lines
import Conduit.Foundation.Utf8
import Conduit.Proxy.StdoutLines
import Conduit.Proxy.StdioChildren
import Conduit.Proxy.RespawnBudget
import Conduit.Foundation.LocalFold
import Conduit.Discovery.Backends
import Conduit.Discovery.Manager
import Conduit.Discovery.Convergence
import Conduit.Discovery.Heartbeats
import Conduit.Admin.InstallFrame
import Conduit.Connect.VersionRollout
import Conduit.Connect.Relay
import Conduit.Foundation.JsonFilling
import Conduit.Foundation.JsonSchema
import Conduit.Config.TypeSchemas
import Conduit.Config.Preservation
import Conduit.Config.ServerNormalForm
import Conduit.Config.MergedSections
import Conduit.Config.Lossless
import Conduit.Auth.AclDecisions
import Conduit.Foundation.LineSearch
import Conduit.Foundation.Toml
import Conduit.Foundation.TomlTables
import Conduit.Connect.Local
import Conduit.Connect.ProjectTrust
import Conduit.Foundation.JsonObjects
import Conduit.Foundation.JsonParser
import Conduit.Connect.JsonFiles
import Conduit.Foundation.Paths
import Conduit.Utils.PathGuard
import Conduit.Foundation.PercentText
import Conduit.Connect.InstallSessions
import Conduit.Connect.Installations
import Conduit.Connect.InstallationRuns
import Conduit.Connect.InstallationPlaces
import Conduit.Connect.InstallationManifests
import Conduit.Connect.InstalledRelays
import Conduit.Foundation.Comparison
import Conduit.Foundation.TextRuns
import Conduit.Connect.RegistrySmart
import Conduit.Connect.RegistrySearch
import Conduit.Identity.CredentialIsolation
import Conduit.Plugins.Loader
import Conduit.Plugins.Registry
import Conduit.Plugins.Confinement
