import Conduit.Config.Host
import Conduit.Foundation.JsonText

namespace Conduit.Config

abbrev Fields := List (String × Json)

-- a server entry as the loader leaves it; `fields` are its properties after id, url and cache
structure ServerObject where
  id : String
  url : String
  cache : Json
  fields : Fields := []
deriving DecidableEq

-- the root configuration object, its sections kept as the values that the loader puts there
structure ConfigObject where
  gateway : Fields
  router : Fields
  servers : List ServerObject
  cache : Fields
  tenantIsolation : Fields
  observability : Fields
  metrics : Fields
  auth : Option Json := none
  acl : Option Json := none
  rateLimits : Option Json := none
  admin : Option Json := none
  connect : Option Json := none
  identity : Option Json := none
  governance : Option Json := none
  guardrails : Option Json := none
  plugins : Option Json := none
  discovery : Option Json := none
deriving DecidableEq

section Values

def text (value : Json) : Json := .str value.toJsString

-- NaN is written null, as in every text of it
def number (host : Host) : Json → Json
  | .num n => .num n
  | .bool b => .ofNat (if b then 1 else 0)
  | .null => .ofNat 0
  | .str s => ((host.numberOf s).map Json.num).getD .null
  | .arr items => ((host.numberOf (Json.arr items).toJsString).map Json.num).getD .null
  | .obj _ => .null

def notFalse (value : Json) : Json := .bool (value ≠ .bool false)

def isTrue (value : Json) : Json := .bool (value = .bool true)

def isPlainObject : Json → Bool
  | .obj _ => true
  | _ => false

def texts (items : List Json) : Json := .arr (items.map text)

def textValues (fields : Fields) : Json := .obj (fields.map fun e => (e.1, text e.2))

-- value ?? fallback
def orElse (value : Option Json) (fallback : Json) : Json :=
  (value.filter (· ≠ .null)).getD fallback

end Values

section Fields

variable (raw : Json) (key : String)

def textOr (fallback : String) : Json := text (orElse (raw.get? key) (.str fallback))

-- the property when the raw value has it
def defined (f : Json → Json) : Fields :=
  ((raw.get? key).map fun value => (key, f value)).toList

def itemsOf (f : List Json → Json) : Fields :=
  match raw.get? key with
  | some (.arr items) => [(key, f items)]
  | _ => []

def objectOf (f : Json → Json) : Fields :=
  match raw.get? key with
  | some (.obj fields) => [(key, f (.obj fields))]
  | _ => []

def objects (f : Json → Json) (items : List Json) : Json :=
  .arr ((items.filter isPlainObject).map f)

-- { ...defaults, ...value }
def spreadOver (defaults : Fields) (value : Json) : Fields :=
  value.spread.foldl (fun fields e => Json.setField fields e.1 e.2) defaults

def mergeObject (defaults : Fields) (override : Option Json) : Fields :=
  match override.filter Json.truthy with
  | none => defaults
  | some value => spreadOver defaults value

variable {raw key}

theorem field_defined_self (f : Json → Json) :
    Json.field (defined raw key f) key = (raw.get? key).map f := by
  unfold defined
  cases raw.get? key <;> simp [Json.field]

theorem field_itemsOf_of_ne {k : String} (f : List Json → Json) (h : key ≠ k) :
    Json.field (itemsOf raw key f) k = none := by
  unfold itemsOf
  split <;> simp [Json.field, h]

theorem field_objectOf_of_ne {k : String} (f : Json → Json) (h : key ≠ k) :
    Json.field (objectOf raw key f) k = none := by
  unfold objectOf
  split <;> simp [Json.field, h]

end Fields

section Defaults

def defaultGateway : Fields := [("port", .ofNat 8080), ("host", .str "127.0.0.1")]

def defaultHealthCheck : Fields :=
  [("enabled", .bool true), ("interval_seconds", .ofNat 30), ("timeout_ms", .ofNat 5000),
    ("unhealthy_threshold", .ofNat 3), ("healthy_threshold", .ofNat 1)]

def defaultL1 : Fields :=
  [("max_entries", .ofNat 10000), ("max_entry_size_kb", .ofNat 64)]

def defaultTenantIsolation : Fields :=
  [("enabled", .bool false), ("header", .str "Authorization")]

def defaultRedactFields : Json :=
  .arr ((["ssn", "password", "api_key", "apikey", "token", "secret", "authorization", "bearer",
    "private_key", "privatekey"] : List String).map Json.str)

def defaultObservability : Fields :=
  [("log_args", .bool true), ("log_responses", .bool false), ("redact_fields", defaultRedactFields),
    ("retention_days", .ofNat 30), ("db_path", .str "./conduit-logs.db")]

def defaultMetrics : Fields := [("enabled", .bool true), ("port", .ofNat 9090)]

def defaultIdentity : Json :=
  .obj [("enabled", .bool false), ("db_path", .str "./conduit-identity.db"),
    ("default_workspace_id", .str "default"), ("workspaces", .arr [])]

def defaultApprovals : Json :=
  .obj [("enabled", .bool true), ("ttl_seconds", .ofNat 3600),
    ("required_roles", .arr [.str "owner", .str "admin", .str "approver"]),
    ("allow_self_approval", .bool false)]

def defaultGovernance : Json :=
  .obj [("enabled", .bool false), ("db_path", .str "./conduit-governance.db"),
    ("registry_default_action", .str "allow"), ("role_bindings", .arr []),
    ("tool_policies", .arr []), ("registry_policies", .arr []),
    ("quotas", .obj [("workspaces", .arr [])]), ("approvals", defaultApprovals)]

end Defaults

section Normalize

variable (host : Host) (raw : Json)

def normalizeConnectProfile : Json :=
  .obj ([("id", textOr raw "id" ""),
      ("server_ids", match raw.get? "server_ids" with
        | some (.arr items) => texts items
        | _ => .arr [])] ++
    defined raw "label" text ++ defined raw "description" text)

def normalizeConnectRegistry : Json :=
  .obj (defined raw "base_url" text ++ defined raw "cache_ttl_seconds" (number host) ++
    defined raw "page_size" (number host) ++ defined raw "max_pages" (number host) ++
    defined raw "latest_only" notFalse)

def normalizeConnectManagedRuntime : Json :=
  .obj (defined raw "enabled" notFalse ++ defined raw "root_dir" text ++
    defined raw "default_channel" text ++ defined raw "sanitize_env" notFalse ++
    defined raw "auto_rollback" notFalse)

def normalizeConnectConfig : Json :=
  .obj (itemsOf raw "profiles" (objects normalizeConnectProfile) ++
    objectOf raw "registry" (normalizeConnectRegistry host) ++
    objectOf raw "managed_runtime" normalizeConnectManagedRuntime)

def normalizeIdentityWorkspace : Json :=
  .obj ([("id", textOr raw "id" "")] ++ defined raw "label" text ++ itemsOf raw "tenant_ids" texts)

def normalizeIdentityConfig : Json :=
  .obj ([("enabled", notFalse ((raw.get? "enabled").getD .null)),
      ("workspaces", match raw.get? "workspaces" with
        | some (.arr items) => objects normalizeIdentityWorkspace items
        | _ => .arr [])] ++
    defined raw "db_path" text ++ defined raw "default_workspace_id" text)

def normalizeToolRateLimit : Fields :=
  defined raw "requests_per_minute" (number host) ++ defined raw "requests_per_hour" (number host) ++
    defined raw "requests_per_day" (number host)

def normalizeGovernanceWorkspaceQuota : Json :=
  .obj (("workspace_id", textOr raw "workspace_id" "") :: normalizeToolRateLimit host raw)

def normalizeGovernanceRoleBinding : Json :=
  .obj [("workspace_id", textOr raw "workspace_id" ""), ("role", textOr raw "role" ""),
    ("clients", match raw.get? "clients" with
      | some (.arr items) => texts items
      | _ => .arr [])]

def normalizeGovernanceToolPolicy : Json :=
  .obj ([("name", textOr raw "name" ""), ("effect", textOr raw "effect" "deny")] ++
    itemsOf raw "workspace_ids" texts ++ itemsOf raw "roles" texts ++ itemsOf raw "clients" texts ++
    itemsOf raw "servers" texts ++ itemsOf raw "tools" texts ++ defined raw "reason" text)

def normalizeGovernanceRegistryPolicy : Json :=
  .obj ([("name", textOr raw "name" ""), ("effect", textOr raw "effect" "deny")] ++
    itemsOf raw "workspace_ids" texts ++ itemsOf raw "roles" texts ++ itemsOf raw "clients" texts ++
    itemsOf raw "server_names" texts ++ itemsOf raw "package_types" texts ++
    itemsOf raw "install_modes" texts ++ defined raw "reason" text)

def normalizeQuotas : Json :=
  .obj (objectOf raw "default" (fun value => .obj (normalizeToolRateLimit host value)) ++
    itemsOf raw "workspaces" (objects (normalizeGovernanceWorkspaceQuota host)))

def normalizeApprovals : Json :=
  .obj (defined raw "enabled" notFalse ++ defined raw "ttl_seconds" (number host) ++
    itemsOf raw "required_roles" texts ++ defined raw "allow_self_approval" isTrue)

def registryDefaultAction : Fields :=
  match (raw.get? "registry_default_action").map text with
  | some (.str "allow") => [("registry_default_action", .str "allow")]
  | some (.str "deny") => [("registry_default_action", .str "deny")]
  | _ => []

def normalizeGovernanceConfig : Json :=
  .obj ([("enabled", notFalse ((raw.get? "enabled").getD .null))] ++ defined raw "db_path" text ++
    registryDefaultAction raw ++
    itemsOf raw "role_bindings" (objects normalizeGovernanceRoleBinding) ++
    itemsOf raw "tool_policies" (objects normalizeGovernanceToolPolicy) ++
    itemsOf raw "registry_policies" (objects normalizeGovernanceRegistryPolicy) ++
    objectOf raw "quotas" (normalizeQuotas host) ++ objectOf raw "approvals" (normalizeApprovals host))

def headerTexts : Json → Json
  | .obj fields => textValues fields
  | value => value

def normalizeConnectedAccount : Json :=
  .obj ([("provider", textOr raw "provider" "")] ++ defined raw "binding" text ++
    defined raw "required" notFalse ++ objectOf raw "headers" headerTexts)

def normalizeForwardIdentity : Json :=
  .obj (defined raw "mode" text ++ defined raw "header_name" text)

def normalizeUpstreamAuth : Json :=
  .obj (objectOf raw "connected_account" normalizeConnectedAccount ++
    objectOf raw "forward_identity" normalizeForwardIdentity)

def normalizeRelease : Json :=
  .obj ([("id", textOr raw "id" ""), ("version", textOr raw "version" ""),
      ("channel", textOr raw "channel" "stable"), ("command", textOr raw "command" ""),
      ("created_at", textOr raw "created_at" "")] ++
    itemsOf raw "args" texts ++ objectOf raw "env" headerTexts ++ defined raw "status" text ++
    defined raw "notes" text)

def normalizeSandbox : Json :=
  .obj (defined raw "enabled" notFalse ++ defined raw "root_dir" text ++
    defined raw "sanitize_env" notFalse ++ defined raw "allow_network" notFalse)

def normalizeHealthGate : Json :=
  .obj (defined raw "enabled" notFalse ++ defined raw "auto_rollback" notFalse)

def normalizeManagedRuntimeServer : Json :=
  .obj ([("enabled", notFalse ((raw.get? "enabled").getD .null)),
      ("source_type", textOr raw "source_type" "command"), ("source_ref", textOr raw "source_ref" ""),
      ("channel", textOr raw "channel" "stable"),
      ("active_release_id", textOr raw "active_release_id" ""),
      ("releases", match raw.get? "releases" with
        | some (.arr items) => objects normalizeRelease items
        | _ => .arr [])] ++
    defined raw "last_healthy_release_id" text ++ defined raw "last_rollout_at" text ++
    objectOf raw "sandbox" normalizeSandbox ++ objectOf raw "health_gate" normalizeHealthGate)

def serverCache : Json :=
  let cache := (raw.get? "cache").getD .null
  .obj ([("default_ttl", match cache.get? "default_ttl" with
      | some (.num n) => .num n
      | _ => .ofNat 0)] ++ defined cache "overrides" id)

def stdioFields : Fields :=
  if raw.get? "transport" = some (.str "stdio") then
    [("transport", .str "stdio")] ++
      (((raw.get? "command").filter Json.truthy).map fun v => ("command", text v)).toList ++
      itemsOf raw "args" texts ++
      (match raw.get? "env" with
        | some (.obj fields) => [("env", .obj fields)]
        | some (.arr items) => [("env", .arr items)]
        | _ => [])
  else []

def serverUrl : String :=
  let url := (orElse (raw.get? "url") (.str "")).toJsString
  match raw.get? "transport", (raw.get? "command").filter Json.truthy with
  | some (.str "stdio"), some command =>
      if url = "" ∧ command.toJsString ≠ "" then "stdio://" ++ command.toJsString else url
  | _, _ => url

-- `none` when the entry is null, whose properties cannot be read
def normalizeServer : Option ServerObject :=
  if raw = .null then none
  else
    some
      { id := (orElse (raw.get? "id") (.str "")).toJsString
        url := serverUrl raw
        cache := serverCache raw
        fields := stdioFields raw ++ objectOf raw "headers" headerTexts ++
          defined raw "timeout_ms" (number host) ++ itemsOf raw "replicas" texts ++
          objectOf raw "upstream_auth" normalizeUpstreamAuth ++
          (if raw.get? "forward_authorization" = some (.bool true) then
            [("forward_authorization", .bool true)] else []) ++
          objectOf raw "managed_runtime" normalizeManagedRuntimeServer }

end Normalize

section Merge

variable (host : Host) (file : Json)

def mergeRouter : Fields :=
  let raw := (file.get? "router").getD .null
  [("namespace_strategy", orElse (raw.get? "namespace_strategy") (.str "prefix")),
      ("health_check",
        .obj (spreadOver defaultHealthCheck (orElse (raw.get? "health_check") (.obj [])))),
      ("load_balancing", (raw.get? "load_balancing").getD (.str "round-robin"))] ++
    (((raw.get? "circuit_breaker").filter (· ≠ .null)).map fun v => ("circuit_breaker", v)).toList

def mergeL2 (raw : Json) : Json :=
  .obj ([("enabled", notFalse ((raw.get? "enabled").getD .null)), ("redis_url", textOr raw "redis_url" ""),
      ("default_ttl_multiplier", number host (orElse (raw.get? "default_ttl_multiplier") (.ofNat 3)))] ++
    (((raw.get? "key_prefix").filter (· ≠ .null)).map fun v => ("key_prefix", text v)).toList ++
    (((raw.get? "max_entry_size_kb").filter (· ≠ .null)).map fun v =>
      ("max_entry_size_kb", number host v)).toList)

def mergeCache : Fields :=
  let raw := (file.get? "cache").getD .null
  [("enabled", orElse (raw.get? "enabled") (.bool true)),
      ("l1", .obj (spreadOver defaultL1 (orElse (raw.get? "l1") (.obj []))))] ++
    (((raw.get? "l2").filter (· ≠ .null)).map fun v => ("l2", mergeL2 host v)).toList

def mergeServers : Option (List ServerObject) :=
  match file.get? "servers" with
  | some (.arr items) => items.mapM (normalizeServer host)
  | _ => some []

-- a section that is normalized; a null one makes the source throw
def mergeSection (key : String) (normalize : Json → Json) (fallback : Option Json) :
    Option (Option Json) :=
  match file.get? key with
  | none => some fallback
  | some .null => none
  | some value => some (some (normalize value))

def mergeWithDefaults : Option ConfigObject := do
  let servers ← mergeServers host file
  let connect ← mergeSection file "connect" (normalizeConnectConfig host) none
  let identity ← mergeSection file "identity" normalizeIdentityConfig (some defaultIdentity)
  let governance ← mergeSection file "governance" (normalizeGovernanceConfig host)
    (some defaultGovernance)
  return {
    gateway := mergeObject defaultGateway (file.get? "gateway")
    router := mergeRouter file
    servers := servers
    cache := mergeCache host file
    tenantIsolation := mergeObject defaultTenantIsolation (file.get? "tenant_isolation")
    observability := mergeObject defaultObservability (file.get? "observability")
    metrics := mergeObject defaultMetrics (file.get? "metrics")
    auth := file.get? "auth"
    acl := file.get? "acl"
    rateLimits := file.get? "rate_limits"
    admin := file.get? "admin"
    connect := connect
    identity := identity
    governance := governance
    guardrails := file.get? "guardrails" }

variable {host file}

theorem field_registryDefaultAction {raw : Json} {k : String} (h : "registry_default_action" ≠ k) :
    Json.field (registryDefaultAction raw) k = none := by
  unfold registryDefaultAction
  split <;> simp [Json.field, h]

theorem get?_obj (fields : Fields) (key : String) :
    (Json.obj fields).get? key = Json.field fields key := rfl

theorem dbPath_normalizeGovernanceConfig (raw : Json) :
    (normalizeGovernanceConfig host raw).get? "db_path" = (raw.get? "db_path").map text := by
  rw [normalizeGovernanceConfig, get?_obj]
  simp only [Json.field_append, field_defined_self]
  rw [field_registryDefaultAction (by decide), field_itemsOf_of_ne _ (by decide),
    field_itemsOf_of_ne _ (by decide), field_itemsOf_of_ne _ (by decide),
    field_objectOf_of_ne _ (by decide), field_objectOf_of_ne _ (by decide)]
  simp [Json.field]

theorem enabled_normalizeGovernanceConfig (raw : Json) :
    (normalizeGovernanceConfig host raw).get? "enabled" =
      some (notFalse ((raw.get? "enabled").getD .null)) := rfl

end Merge

end Conduit.Config
