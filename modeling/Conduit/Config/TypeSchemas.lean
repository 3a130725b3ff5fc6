import Conduit.Config.Schema
import Conduit.Foundation.CodeUnits
import Conduit.Foundation.JsonSchema

namespace Conduit.Config.Typed

open Json

section Servers

def toolOverrideConfig : Schema :=
  .object [] [("ttl", .number), ("ignore_args", .list .text), ("invalidates", .list .text)]

def serverCacheConfig : Schema :=
  .object [("default_ttl", .number)] [("overrides", .record toolOverrideConfig)]

def transportType : Schema := .oneOf ["http", "stdio"]

def managedRuntimeChannel : Schema := .oneOf ["stable", "beta", "canary", "pinned"]

def upstreamIdentityForwardConfig : Schema :=
  .object [] [("mode", .oneOf ["none", "bearer", "claims-header"]), ("header_name", .text)]

def upstreamConnectedAccountConfig : Schema :=
  .object [("provider", .text)]
    [("binding", .oneOf ["client", "tenant", "workspace", "client-or-workspace"]),
      ("required", .boolean), ("headers", .record .text)]

def upstreamAuthConfig : Schema :=
  .object [] [("connected_account", upstreamConnectedAccountConfig),
    ("forward_identity", upstreamIdentityForwardConfig)]

def managedRuntimeSandboxConfig : Schema :=
  .object [] [("enabled", .boolean), ("root_dir", .text), ("sanitize_env", .boolean),
    ("allow_network", .boolean)]

def managedRuntimeHealthGateConfig : Schema :=
  .object [] [("enabled", .boolean), ("auto_rollback", .boolean)]

def managedRuntimeReleaseConfig : Schema :=
  .object [("id", .text), ("version", .text), ("channel", managedRuntimeChannel),
      ("command", .text), ("created_at", .text)]
    [("args", .list .text), ("env", .record .text),
      ("status", .oneOf ["active", "healthy", "candidate", "failed", "rolled_back"]),
      ("notes", .text)]

def managedRuntimeServerConfig : Schema :=
  .object [("enabled", .boolean), ("source_type", .oneOf ["npm", "pypi", "oci", "command"]),
      ("source_ref", .text), ("channel", managedRuntimeChannel), ("active_release_id", .text),
      ("releases", .list managedRuntimeReleaseConfig)]
    [("last_healthy_release_id", .text), ("last_rollout_at", .text),
      ("sandbox", managedRuntimeSandboxConfig), ("health_gate", managedRuntimeHealthGateConfig)]

def serverConfig : Schema :=
  .object [("id", .text), ("url", .text), ("cache", serverCacheConfig)]
    [("transport", transportType), ("command", .text), ("args", .list .text),
      ("env", .record .text), ("headers", .record .text), ("replicas", .list .text),
      ("timeout_ms", .number), ("upstream_auth", upstreamAuthConfig),
      ("forward_authorization", .boolean), ("managed_runtime", managedRuntimeServerConfig)]

end Servers

section Sections

def l1CacheConfig : Schema :=
  .object [("max_entries", .number), ("max_entry_size_kb", .number)] []

def l2CacheConfig : Schema :=
  .object [("enabled", .boolean), ("redis_url", .text), ("default_ttl_multiplier", .number)]
    [("key_prefix", .text), ("max_entry_size_kb", .number)]

def cacheConfig : Schema :=
  .object [("enabled", .boolean), ("l1", l1CacheConfig)] [("l2", l2CacheConfig)]

def tlsConfig : Schema :=
  .object [("enabled", .boolean), ("cert_path", .text), ("key_path", .text)]
    [("ca_path", .text), ("min_version", .text)]

def gatewayConfig : Schema := .object [("port", .number), ("host", .text)] [("tls", tlsConfig)]

def healthCheckConfig : Schema :=
  .object [("enabled", .boolean), ("interval_seconds", .number), ("timeout_ms", .number),
    ("unhealthy_threshold", .number), ("healthy_threshold", .number)] []

def circuitBreakerConfig : Schema :=
  .object [("enabled", .boolean), ("failure_threshold", .number), ("reset_timeout_ms", .number),
    ("half_open_max_requests", .number), ("success_threshold", .number)] []

def routerConfig : Schema :=
  .object [("namespace_strategy", .oneOf ["prefix", "none"]), ("health_check", healthCheckConfig)]
    [("load_balancing", .oneOf ["round-robin", "least-connections"]),
      ("circuit_breaker", circuitBreakerConfig)]

def tenantIsolationConfig : Schema := .object [("enabled", .boolean), ("header", .text)] []

def openTelemetryConfig : Schema :=
  .object [("enabled", .boolean), ("endpoint", .text), ("service_name", .text)]
    [("sample_rate", .number)]

def observabilityConfig : Schema :=
  .object [("log_args", .boolean), ("log_responses", .boolean), ("redact_fields", .list .text),
      ("retention_days", .number), ("db_path", .text)]
    [("opentelemetry", openTelemetryConfig)]

def metricsConfig : Schema :=
  .object [("enabled", .boolean), ("port", .number)] [("require_auth", .boolean)]

def adminConfig : Schema :=
  .object [] [("key", .text), ("allow_private_networks", .boolean),
    ("allow_unauthenticated", .boolean)]

def connectProfileConfig : Schema :=
  .object [("id", .text), ("server_ids", .list .text)] [("label", .text), ("description", .text)]

def connectRegistryConfig : Schema :=
  .object [] [("base_url", .text), ("cache_ttl_seconds", .number), ("page_size", .number),
    ("max_pages", .number), ("latest_only", .boolean)]

def connectManagedRuntimeConfig : Schema :=
  .object [] [("enabled", .boolean), ("root_dir", .text), ("default_channel", managedRuntimeChannel),
    ("sanitize_env", .boolean), ("auto_rollback", .boolean)]

def connectConfig : Schema :=
  .object [] [("profiles", .list connectProfileConfig), ("registry", connectRegistryConfig),
    ("managed_runtime", connectManagedRuntimeConfig)]

def identityWorkspaceConfig : Schema :=
  .object [("id", .text)] [("label", .text), ("tenant_ids", .list .text)]

def identityConfig : Schema :=
  .object [("enabled", .boolean)] [("db_path", .text), ("default_workspace_id", .text),
    ("workspaces", .list identityWorkspaceConfig)]

end Sections

section Governance

def workspaceRole : Schema :=
  .oneOf ["owner", "admin", "approver", "operator", "developer", "viewer"]

def governanceRoleBindingConfig : Schema :=
  .object [("workspace_id", .text), ("role", workspaceRole), ("clients", .list .text)] []

def governanceToolPolicyConfig : Schema :=
  .object [("name", .text), ("effect", .oneOf ["allow", "deny", "require_approval"])]
    [("workspace_ids", .list .text), ("roles", .list workspaceRole), ("clients", .list .text),
      ("servers", .list .text), ("tools", .list .text), ("reason", .text)]

def governanceRegistryPolicyConfig : Schema :=
  .object [("name", .text), ("effect", .oneOf ["allow", "deny"])]
    [("workspace_ids", .list .text), ("roles", .list workspaceRole), ("clients", .list .text),
      ("server_names", .list .text), ("package_types", .list .text),
      ("install_modes", .list .text), ("reason", .text)]

def toolRateLimitFields : List (String × Schema) :=
  [("requests_per_minute", .number), ("requests_per_hour", .number), ("requests_per_day", .number)]

def toolRateLimitConfig : Schema := .object [] toolRateLimitFields

def governanceWorkspaceQuotaConfig : Schema :=
  .object [("workspace_id", .text)] toolRateLimitFields

def governanceQuotasConfig : Schema :=
  .object [] [("default", toolRateLimitConfig), ("workspaces", .list governanceWorkspaceQuotaConfig)]

def governanceApprovalsConfig : Schema :=
  .object [] [("enabled", .boolean), ("ttl_seconds", .number),
    ("required_roles", .list workspaceRole), ("allow_self_approval", .boolean)]

def governanceConfig : Schema :=
  .object [("enabled", .boolean)]
    [("db_path", .text), ("registry_default_action", .oneOf ["allow", "deny"]),
      ("role_bindings", .list governanceRoleBindingConfig),
      ("tool_policies", .list governanceToolPolicyConfig),
      ("registry_policies", .list governanceRegistryPolicyConfig),
      ("quotas", governanceQuotasConfig), ("approvals", governanceApprovalsConfig)]

end Governance

-- the sections with types in other files may have any value
def conduitGatewayConfig : Schema :=
  .object
    [("gateway", gatewayConfig), ("router", routerConfig), ("servers", .list serverConfig),
      ("cache", cacheConfig), ("tenant_isolation", tenantIsolationConfig),
      ("observability", observabilityConfig), ("metrics", metricsConfig)]
    [("auth", .any), ("acl", .any), ("rate_limits", .any), ("admin", adminConfig),
      ("connect", connectConfig), ("identity", identityConfig), ("governance", governanceConfig),
      ("guardrails", .any), ("plugins", .any), ("discovery", .any)]

-- a value of type ConduitGatewayConfig, whose objects have one property for each key
structure WellTyped (config : Json) : Prop where
  typed : conduitGatewayConfig.accepts config = true
  keyed : config.Keyed

instance (config : Json) : Decidable (WellTyped config) :=
  decidable_of_iff (conduitGatewayConfig.accepts config = true ∧ config.Keyed)
    ⟨fun h => ⟨h.1, h.2⟩, fun h => ⟨h.typed, h.keyed⟩⟩

end Conduit.Config.Typed
