import Conduit.Config.Loader

namespace Conduit.Gateway

open Config

-- the entries of the three lists that reload returns
inductive ReloadNote where
  | listening
  | tls
  | serverUrl (id : String)
  | authMethod
  | governanceStore
  | added (id : String)
  | removed (id : String)
  | acl
  | guardrails
  | governance
  | rateLimits
  | observability
  | serverCache (id : String)
  | unreadable (error : String)
  | malformed (error : String)
  | notObject
  | invalid (errors : List ConfigError)
  | notAdded (id error : String)
deriving DecidableEq

def ReloadNote.text : ReloadNote → String
  | listening => "gateway.port/host (restart required)"
  | tls => "gateway.tls (restart required)"
  | serverUrl id => "server." ++ id ++ ".url (URL change requires restart)"
  | authMethod => "auth.method (restart required)"
  | governanceStore => "governance.enabled/db_path (restart required)"
  | added id => "server." ++ id ++ " (added)"
  | removed id => "server." ++ id ++ " (removed)"
  | acl => "acl"
  | guardrails => "guardrails"
  | governance => "governance"
  | rateLimits => "rate_limits"
  | observability => "observability"
  | serverCache id => "server." ++ id ++ ".cache"
  | unreadable error => "Cannot read config file: " ++ error
  | malformed error => "YAML parse error: " ++ error
  | notObject => "Config must be a YAML object"
  | invalid errors => formatConfigErrors errors
  | notAdded id error => "Failed to add server \"" ++ id ++ "\": " ++ error

structure ReloadReport where
  reloaded : List ReloadNote := []
  skipped : List ReloadNote := []
  errors : List ReloadNote := []
deriving DecidableEq

-- `registered` are the ids of the registry
structure ReloadState where
  config : ConfigObject
  registered : List String
  report : ReloadReport := {}
deriving DecidableEq

def isScalar : Option Json → Bool
  | some (.obj _) => false
  | some (.arr _) => false
  | _ => true

-- === between a value of one parse and a value of another: no two objects are the same
def sameValue (a b : Option Json) : Bool := a = b && isScalar a

def sameText (a b : Option Json) : Bool := a.map Json.stringify = b.map Json.stringify

def findServer (servers : List ServerObject) (id : String) : Option ServerObject :=
  servers.find? fun s => s.id = id

def serverIds (servers : List ServerObject) : List String := servers.map ServerObject.id

-- the error that createMcpClient throws
def clientError? (server : ServerObject) : Option String :=
  match Json.field server.fields "transport" with
  | none => none
  | some (.str "http") => none
  | some (.str "stdio") => none
  | some transport =>
      some ("Error: Transport inconnu \"" ++ transport.toJsString ++ "\" pour le serveur \"" ++
        server.id ++ "\"")

def registryError? (registered : List String) (id : String) : Option String :=
  if id ∈ registered then some ("Error: Server \"" ++ id ++ "\" already registered") else none

def updateFirst (servers : List ServerObject) (id : String) (f : ServerObject → ServerObject) :
    List ServerObject :=
  match servers with
  | [] => []
  | s :: rest => if s.id = id then f s :: rest else s :: updateFirst rest id f

namespace ReloadState

variable (S : ReloadState)

def reloads (note : ReloadNote) : ReloadState :=
  { S with report := { S.report with reloaded := S.report.reloaded ++ [note] } }

def skips (note : ReloadNote) : ReloadState :=
  { S with report := { S.report with skipped := S.report.skipped ++ [note] } }

def fails (note : ReloadNote) : ReloadState :=
  { S with report := { S.report with errors := S.report.errors ++ [note] } }

end ReloadState

section Reload

variable (N : ConfigObject) (S : ReloadState)

def flagListening : ReloadState :=
  if sameValue (Json.field N.gateway "port") (Json.field S.config.gateway "port") &&
      sameValue (Json.field N.gateway "host") (Json.field S.config.gateway "host") then S
  else S.skips .listening

def flagTls : ReloadState :=
  if sameText (Json.field N.gateway "tls") (Json.field S.config.gateway "tls") then S
  else S.skips .tls

def addServer (S : ReloadState) (server : ServerObject) : ReloadState :=
  match clientError? server, registryError? S.registered server.id with
  | some error, _ => S.fails (.notAdded server.id error)
  | none, some error => S.fails (.notAdded server.id error)
  | none, none =>
      { S with
        config := { S.config with servers := S.config.servers ++ [server] }
        registered := S.registered ++ [server.id] }.reloads (.added server.id)

def addServers : ReloadState :=
  (N.servers.filter fun s => s.id ∉ serverIds S.config.servers).foldl addServer S

def removeServer (S : ReloadState) (server : ServerObject) : ReloadState :=
  { S with registered := S.registered.filter (· ≠ server.id) }.reloads
    (.removed server.id)

def removeServers : ReloadState :=
  let removed := (S.config.servers.filter fun s => s.id ∉ serverIds N.servers).foldl removeServer S
  { removed with
    config := { removed.config with
      servers := removed.config.servers.filter fun s => s.id ∈ serverIds N.servers } }

def flagUrl (S : ReloadState) (server : ServerObject) : ReloadState :=
  match findServer S.config.servers server.id with
  | none => S
  | some current =>
      if current.url = server.url then S
      else S.skips (.serverUrl server.id)

def flagUrls : ReloadState := N.servers.foldl flagUrl S

def authMethod (auth : Option Json) : Option Json := auth.bind (·.get? "method")

def flagAuth : ReloadState :=
  if sameValue (authMethod N.auth) (authMethod S.config.auth) then S
  else S.skips .authMethod

def reloadAcl : ReloadState :=
  if sameText N.acl S.config.acl then S
  else { S with config := { S.config with acl := N.acl } }.reloads .acl

def reloadGuardrails : ReloadState :=
  if sameText N.guardrails S.config.guardrails then S
  else { S with config := { S.config with guardrails := N.guardrails } }.reloads .guardrails

def governanceField (governance : Option Json) (key : String) : Option Json :=
  governance.bind (·.get? key)

def sameGovernanceStore : Bool :=
  sameValue (governanceField N.governance "enabled") (governanceField S.config.governance "enabled") &&
    sameValue (governanceField N.governance "db_path") (governanceField S.config.governance "db_path")

def reloadGovernance : ReloadState :=
  if sameGovernanceStore N S then
    if sameText N.governance S.config.governance then S
    else { S with config := { S.config with governance := N.governance } }.reloads .governance
  else S.skips .governanceStore

def reloadRateLimits : ReloadState :=
  if sameText N.rateLimits S.config.rateLimits then S
  else { S with config := { S.config with rateLimits := N.rateLimits } }.reloads .rateLimits

def sameObservability : Bool :=
  sameValue (Json.field N.observability "log_args") (Json.field S.config.observability "log_args") &&
    sameValue (Json.field N.observability "log_responses") (Json.field S.config.observability "log_responses") &&
    sameText (Json.field N.observability "redact_fields") (Json.field S.config.observability "redact_fields")

def observed : Fields :=
  withField (withField (withField S.config.observability
    "log_args" (Json.field N.observability "log_args"))
    "log_responses" (Json.field N.observability "log_responses"))
    "redact_fields" (Json.field N.observability "redact_fields")

def reloadObservability : ReloadState :=
  if sameObservability N S then S
  else
    { S with config := { S.config with observability := observed N S } }.reloads .observability

def reloadCache (S : ReloadState) (server : ServerObject) : ReloadState :=
  match findServer S.config.servers server.id with
  | none => S
  | some current =>
      if sameText (some server.cache) (some current.cache) then S
      else
        { S with
          config := { S.config with
            servers := updateFirst S.config.servers server.id fun s =>
              { s with cache := server.cache } } }.reloads (.serverCache server.id)

def reloadCaches : ReloadState := N.servers.foldl reloadCache S

-- everything reload does with a configuration that it has read and found valid
def applyReload : ReloadState :=
  let flagged := flagTls N (flagListening N S)
  let served := flagAuth N (flagUrls N (removeServers N (addServers N flagged)))
  let ruled := reloadRateLimits N (reloadGovernance N (reloadGuardrails N (reloadAcl N served)))
  reloadCaches N (reloadObservability N ruled)

end Reload

-- `none` when the source throws
def reload (host : Host) (validateConfig : Validation) (S : ReloadState) :
    FileRead → Option ReloadState
  | .unreadable error => some (S.fails (.unreadable error))
  | .malformed error => some (S.fails (.malformed error))
  | .parsed value =>
      match fileObject? value with
      | none => some (S.fails .notObject)
      | some (.arr _) => some (S.fails .notObject)
      | some file => do
          let N ← mergeWithDefaults host file
          let errors ← validateConfig N
          if errors = [] then return applyReload N S
          else return S.fails (.invalid errors)

end Conduit.Gateway
