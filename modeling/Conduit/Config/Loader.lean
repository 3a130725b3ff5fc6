import Conduit.Config.Schema

namespace Conduit.Config

structure ConfigError where
  path : String
  message : String
  value : Option Json := none
deriving DecidableEq

-- what validateConfig answers in the file system at hand; `none` when a value makes it throw
abbrev Validation := ConfigObject → Option (List ConfigError)

def formatConfigErrors (errors : List ConfigError) : String :=
  "\n".intercalate ("[CONDUIT] Configuration errors:" :: errors.map fun err =>
    "  ✗ " ++ err.path ++ ": " ++ err.message ++
      ((err.value.map fun value => " (got: " ++ value.stringify ++ ")").getD ""))

-- the CONDUIT_* variables that applyEnvOverrides reads
structure Environment where
  port : Option String := none
  host : Option String := none
  dbPath : Option String := none
  metricsPort : Option String := none
  adminKey : Option String := none
  identityDbPath : Option String := none
  governanceDbPath : Option String := none
  logArgs : Option String := none
  tlsEnabled : Option String := none
  tlsCert : Option String := none
  tlsKey : Option String := none
  redisUrl : Option String := none

inductive FileRead where
  | unreadable (error : String)
  | malformed (error : String)
  | parsed (value : Json)

def isSpace (c : Char) : Bool :=
  c.toNat ∈ [9, 10, 11, 12, 13, 32, 160, 5760, 8232, 8233, 8239, 8287, 12288, 65279] ||
    (8192 ≤ c.toNat && c.toNat ≤ 8202)

def digits (chars : List Char) : Option ℕ :=
  match chars.takeWhile Char.isDigit with
  | [] => none
  | ds => some (ds.foldl (fun n c => 10 * n + (c.toNat - 48)) 0)

-- parseInt(value, 10), `none` for NaN
def parseInt (value : String) : Option JsNumber :=
  match value.toList.dropWhile isSpace with
  | '-' :: rest => (digits rest).map fun n => .finite (-(Decimal.ofNat n))
  | '+' :: rest => (digits rest).map fun n => .finite (.ofNat n)
  | rest => (digits rest).map fun n => .finite (.ofNat n)

def toLowerCase (value : String) : String := String.ofList (value.toList.map Char.toLower)

-- an assignment to a property; `none` when the target is a primitive, which cannot take one. An
-- array keeps its items, and no text of it shows another property
def assign (target : Json) (key : String) (value : Json) : Option Json :=
  match target with
  | .obj fields => some (.obj (Json.setField fields key value))
  | .arr items => some (.arr items)
  | _ => none

def overrideField (target : Fields) (key : String) (value : Option Json) : Fields :=
  match value with
  | none => target
  | some value => Json.setField target key value

theorem field_overrideField (fields : Fields) (key k : String) (value : Option Json) :
    Json.field (overrideField fields key value) k =
      if key = k then value.or (Json.field fields k) else Json.field fields k := by
  cases value with
  | none => simp [overrideField]
  | some v => by_cases h : key = k <;> simp [overrideField, Json.field_setField, h]

-- writing the value undefined leaves no property behind
def withField (target : Fields) (key : String) (value : Option Json) : Fields :=
  match value with
  | none => target.filter fun e => e.1 ≠ key
  | some value => Json.setField target key value

def newTls (certPath keyPath : String) : Json :=
  .obj [("enabled", .bool false), ("cert_path", .str certPath), ("key_path", .str keyPath)]

namespace Environment

variable (env : Environment)

def overrideTlsEnabled (tls : Option Json) : Option (Option Json) :=
  match env.tlsEnabled with
  | none => some tls
  | some enabled =>
      (assign ((tls.filter Json.truthy).getD (newTls "" "")) "enabled"
        (.bool (toLowerCase enabled = "true"))).map some

def overrideTlsCert (tls : Option Json) : Option (Option Json) :=
  match env.tlsCert, tls.filter Json.truthy with
  | none, _ => some tls
  | some certPath, none => some (some (newTls certPath ""))
  | some certPath, some value => (assign value "cert_path" (.str certPath)).map some

def overrideTlsKey (tls : Option Json) : Option (Option Json) :=
  match env.tlsKey, tls.filter Json.truthy with
  | none, _ => some tls
  | some keyPath, none => some (some (newTls "" keyPath))
  | some keyPath, some value => (assign value "key_path" (.str keyPath)).map some

def overrideTls (tls : Option Json) : Option (Option Json) := do
  let enabled ← env.overrideTlsEnabled tls
  let cert ← env.overrideTlsCert enabled
  env.overrideTlsKey cert

def overrideGateway (gateway : Fields) : Option Fields := do
  let listening := overrideField (overrideField gateway "port" ((env.port.bind parseInt).map .num))
    "host" (env.host.map .str)
  let tls ← env.overrideTls (Json.field gateway "tls")
  return overrideField listening "tls" tls

def overrideObservability (observability : Fields) : Fields :=
  overrideField (overrideField observability "db_path" (env.dbPath.map .str)) "log_args"
    (env.logArgs.map fun value => .bool (toLowerCase value ≠ "false"))

def overrideAdmin (admin : Option Json) : Option Json :=
  match env.adminKey with
  | none => admin
  | some key => some (.obj (Json.setField ((admin.map Json.spread).getD []) "key" (.str key)))

def overrideIdentity (identity : Option Json) : Option Json :=
  match env.identityDbPath with
  | none => identity
  | some dbPath =>
      let current := identity.getD .null
      some (.obj [("enabled", .bool true),
        ("default_workspace_id", orElse (current.get? "default_workspace_id") (.str "default")),
        ("workspaces", orElse (current.get? "workspaces") (.arr [])), ("db_path", .str dbPath)])

def overrideGovernance (governance : Option Json) : Option Json :=
  match env.governanceDbPath with
  | none => governance
  | some dbPath =>
      let current := governance.getD .null
      some (.obj [("enabled", .bool true),
        ("registry_default_action", orElse (current.get? "registry_default_action") (.str "allow")),
        ("role_bindings", orElse (current.get? "role_bindings") (.arr [])),
        ("tool_policies", orElse (current.get? "tool_policies") (.arr [])),
        ("registry_policies", orElse (current.get? "registry_policies") (.arr [])),
        ("quotas", orElse (current.get? "quotas") (.obj [("workspaces", .arr [])])),
        ("approvals", orElse (current.get? "approvals") defaultApprovals), ("db_path", .str dbPath)])

def overrideRateLimits (rateLimits : Option Json) : Option (Option Json) :=
  match env.redisUrl, rateLimits.filter Json.truthy with
  | none, _ => some rateLimits
  | some redisUrl, none =>
      some (some (.obj [("enabled", .bool true), ("backend", .str "redis"),
        ("redis_url", .str redisUrl)]))
  | some redisUrl, some value => (assign value "redis_url" (.str redisUrl)).map some

theorem overrideTls_ne_none {tls : Option Json} (h : env.overrideTls tls = some none) : tls = none := by
  obtain ⟨enabled, henabled, h⟩ := Option.bind_eq_some_iff.mp h
  obtain ⟨cert, hcert, hkey⟩ := Option.bind_eq_some_iff.mp h
  have hcert' : cert = none := by
    unfold overrideTlsKey at hkey
    split at hkey <;> simp_all
  have henabled' : enabled = none := by
    unfold overrideTlsCert at hcert
    split at hcert <;> simp_all
  unfold overrideTlsEnabled at henabled
  split at henabled <;> simp_all

theorem overrideGateway_eq_some {gateway gateway' : Fields}
    (h : env.overrideGateway gateway = some gateway') :
    ∃ tls, env.overrideTls (Json.field gateway "tls") = some tls ∧
      gateway' = overrideField (overrideField (overrideField gateway "port"
        ((env.port.bind parseInt).map .num)) "host" (env.host.map .str)) "tls" tls := by
  obtain ⟨tls, htls, h⟩ := Option.bind_eq_some_iff.mp h
  exact ⟨tls, htls, (Option.some.inj h).symm⟩

end Environment

def applyEnvOverrides (env : Environment) (config : ConfigObject) : Option ConfigObject := do
  let gateway ← env.overrideGateway config.gateway
  let rateLimits ← env.overrideRateLimits config.rateLimits
  return { config with
    gateway := gateway
    observability := env.overrideObservability config.observability
    metrics := overrideField config.metrics "port"
      ((env.metricsPort.bind parseInt).map .num)
    admin := env.overrideAdmin config.admin
    identity := env.overrideIdentity config.identity
    governance := env.overrideGovernance config.governance
    rateLimits := rateLimits }

theorem applyEnvOverrides_eq_some {env : Environment} {config config' : ConfigObject}
    (h : applyEnvOverrides env config = some config') :
    ∃ gateway rateLimits, env.overrideGateway config.gateway = some gateway ∧
      env.overrideRateLimits config.rateLimits = some rateLimits ∧
      config' = { config with
        gateway := gateway
        observability := env.overrideObservability config.observability
        metrics := overrideField config.metrics "port" ((env.metricsPort.bind parseInt).map .num)
        admin := env.overrideAdmin config.admin
        identity := env.overrideIdentity config.identity
        governance := env.overrideGovernance config.governance
        rateLimits := rateLimits } := by
  obtain ⟨gateway, hgateway, h⟩ := Option.bind_eq_some_iff.mp h
  obtain ⟨rateLimits, hrate, h⟩ := Option.bind_eq_some_iff.mp h
  exact ⟨gateway, rateLimits, hgateway, hrate, (Option.some.inj h).symm⟩

-- the object that a file holds, an empty document read as the empty object
def fileObject? (value : Json) : Option Json :=
  match value with
  | .null => some (.obj [])
  | .obj fields => some (.obj fields)
  | .arr items => some (.arr items)
  | _ => none

-- `none` when the source throws or ends the process
def loadConfig (host : Host) (validateConfig : Validation) (env : Environment) :
    FileRead → Option ConfigObject
  | .unreadable _ => none
  | .malformed _ => none
  | .parsed value => do
      let file ← fileObject? value
      let merged ← mergeWithDefaults host file
      let config ← applyEnvOverrides env merged
      let errors ← validateConfig config
      if errors = [] then some config else none

end Conduit.Config
