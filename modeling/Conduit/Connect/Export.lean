import Conduit.Config.Gateway
import Conduit.Connect.Registry
import Conduit.Utils.UrlValidator

namespace Conduit.Connect

open Utils

inductive ConnectTarget where
  | cursor
  | claudeCode
  | claudeDesktop
  | codex
  | windsurf
  | vscode
  | genericJson
  | claude
  | chatgpt
  | v0
deriving DecidableEq, Repr

inductive ConnectTargetDelivery where
  | localHelper
  | remoteConnector
deriving DecidableEq, Repr

inductive ExportFormat where
  | json
  | shell
  | toml
deriving DecidableEq, Repr

namespace ConnectTarget

def id : ConnectTarget → String
  | cursor => "cursor"
  | claudeCode => "claude-code"
  | claudeDesktop => "claude-desktop"
  | codex => "codex"
  | windsurf => "windsurf"
  | vscode => "vscode"
  | genericJson => "generic-json"
  | claude => "claude"
  | chatgpt => "chatgpt"
  | v0 => "v0"

def label : ConnectTarget → String
  | cursor => "Cursor"
  | claudeCode => "Claude Code"
  | claudeDesktop => "Claude Desktop"
  | codex => "Codex"
  | windsurf => "Windsurf"
  | vscode => "VS Code"
  | genericJson => "Generic JSON"
  | claude => "Claude"
  | chatgpt => "ChatGPT"
  | v0 => "v0"

def format : ConnectTarget → ExportFormat
  | claudeCode => .shell
  | codex => .toml
  | _ => .json

def delivery : ConnectTarget → ConnectTargetDelivery
  | claude => .remoteConnector
  | chatgpt => .remoteConnector
  | v0 => .remoteConnector
  | _ => .localHelper

def isRemote (target : ConnectTarget) : Bool := target.delivery = .remoteConnector

end ConnectTarget

structure ConnectServerBinding where
  id : String
  serverAlias : String
  url : String
deriving DecidableEq, Repr

structure ConnectEnvRequirement where
  name : String
  description : String
deriving DecidableEq, Repr

structure ConnectExportResult where
  target : ConnectTarget
  profile : String
  profileLabel : String
  scope : String
  scopeEffective : String
  baseUrl : String
  snippet : String
  env : List ConnectEnvRequirement := []
  servers : List ConnectServerBinding

-- a scope comes from the request as it is
structure ConnectExportOptions where
  target : ConnectTarget
  profile : Option String := none
  scope : Option String := none
  baseUrl : Option String := none

structure AuthExportSpec where
  method : Auth.AuthMethod
  env : Option ConnectEnvRequirement := none

-- the gateway section, as far as the export reads it
structure GatewayListen where
  host : String
  port : ℕ
  tlsEnabled : Bool := false

section Words

def toTomlString (value : String) : String := Json.quote value

def toTomlArray (values : List String) : String :=
  "[" ++ ", ".intercalate (values.map toTomlString) ++ "]"

def isBareKeyChar (c : Char) : Bool := c.isAlphanum || c = '_' || c = '-'

def toTomlKey (key : String) : String :=
  if key ≠ "" ∧ key.toList.all isBareKeyChar then key else Json.quote key

def toTomlInlineStringTable (values : List (String × String)) : String :=
  if values = [] then "\x7b\x7d"
  else
    "\x7b " ++ ", ".intercalate (values.map fun e => toTomlKey e.1 ++ " = " ++ toTomlString e.2) ++
      " \x7d"

def capitalizeLower : List Char → List Char
  | [] => []
  | c :: rest => c.toUpper :: rest.map Char.toLower

def buildVsCodeAlias (serverId : String) : String :=
  match (words serverId.toList).filter (· ≠ []) with
  | [] => "conduitServer"
  | parts => "conduit" ++ String.ofList (parts.flatMap capitalizeLower)

def buildAlias (serverId : String) (target : ConnectTarget) : String :=
  match target with
  | .vscode => buildVsCodeAlias serverId
  | _ => "conduit-" ++ serverId

end Words

section BaseUrl

def SameOrigin (url url' : Url) : Prop :=
  url'.protocol = url.protocol ∧ url'.username = url.username ∧ url'.password = url.password ∧
    url'.hostname = url.hostname

def withoutSlash (text : String) : String :=
  if text.toList.getLast? = some '/' then String.ofList text.toList.dropLast else text

def withoutSlashes (text : String) : String :=
  String.ofList (text.toList.reverse.dropWhile (· = '/')).reverse

-- the characters that a path keeps as they are
def IsPlainPath (path : String) : Prop :=
  path = "" ∨ path.toList.head? = some '/' ∧
    ∀ c ∈ path.toList, isUriUnreserved c = true ∨ c = '%' ∨ c = '/'

-- the setters of URL: `relocate` sets the path and clears the query and the fragment, which
-- leaves the origin, also of what is read when a path is written after it
structure UrlEditor extends UrlApi where
  relocate : Url → String → Url
  protocol_relocated : ∀ {text url}, parse text = some url → ∀ {path rest url'}, IsPlainPath rest →
    parse (withoutSlash (relocate url path).href ++ rest) = some url' →
      url'.protocol = url.protocol
  parse_relocated : ∀ {text url}, parse text = some url → isHttpProtocol url.protocol = true →
    ∀ {path rest}, IsPlainPath rest →
      ∃ url', parse (withoutSlash (relocate url path).href ++ rest) = some url' ∧
        SameOrigin url url'

variable (api : UrlEditor)

-- `none` when the URL constructor throws
def normalizeBaseUrl (baseUrl : String) : Option String :=
  (api.parse baseUrl).map fun parsed =>
    withoutSlash (api.relocate parsed (withoutSlashes parsed.pathname)).href

def buildConnectProfileUrl (baseUrl profileId : String) : Option String :=
  (normalizeBaseUrl api baseUrl).map fun base =>
    base ++ "/mcp/profile/" ++ encodeURIComponent profileId

def normalizeListenHost (host : String) : String :=
  if host = "0.0.0.0" ∨ host = "::" ∨ host = "::0" ∨ host = "" then "localhost" else host

def deriveBaseUrl (gateway : GatewayListen) : String :=
  (if gateway.tlsEnabled then "https" else "http") ++ "://" ++ normalizeListenHost gateway.host ++
    ":" ++ toString gateway.port

end BaseUrl

def authMethod (config : ConduitGatewayConfig) : Auth.AuthMethod :=
  (config.auth.map (·.method)).getD .none

def deriveAuthExportSpec (config : ConduitGatewayConfig) : AuthExportSpec :=
  match authMethod config with
  | .apiKey =>
      ⟨.apiKey, some ⟨"CONDUIT_API_KEY", "Conduit API key passed as a Bearer token to the gateway"⟩⟩
  | .jwt =>
      ⟨.jwt, some ⟨"CONDUIT_BEARER_TOKEN", "JWT bearer token accepted by the Conduit gateway"⟩⟩
  | .none => ⟨.none, none⟩

section Snippets

variable (auth : AuthExportSpec) (servers : List ConnectServerBinding)

-- the headers that the JSON exports add to an entry
def authHeaders (reference : String → String) : List (String × Json) :=
  match auth.env with
  | none => []
  | some env =>
      [("headers", .obj [("Authorization", .str ("Bearer $\x7b" ++ reference env.name ++ "\x7d"))])]

def mcpServers (entry : ConnectServerBinding → Json) : Json :=
  .obj [("mcpServers", Json.fromEntries (servers.map fun server => (server.serverAlias, entry server)))]

def cursorSnippet : String :=
  (mcpServers servers fun server =>
    .obj (("url", .str server.url) :: authHeaders auth ("env:" ++ ·))).indent 0

def windsurfSnippet : String :=
  (mcpServers servers fun server =>
    .obj (("serverUrl", .str server.url) :: authHeaders auth ("env:" ++ ·))).indent 0

def genericJsonSnippet : String :=
  (mcpServers servers fun server =>
    .obj (("type", .str "http") :: ("url", .str server.url) ::
      authHeaders auth ("env:" ++ ·))).indent 0

def bridgeHeader : List Json :=
  match auth.env with
  | none => []
  | some env => [.str "--header", .str ("Authorization: Bearer $\x7b" ++ env.name ++ "\x7d")]

def claudeDesktopSnippet : String :=
  (mcpServers servers fun server =>
    .obj [("command", .str "npx"),
      ("args", .arr (.str "-y" :: .str "mcp-remote" :: .str server.url :: bridgeHeader auth)),
      ("env", .obj [])]).indent 0

def conduitAuthToken : String := "conduitAuthToken"

def vsCodeInputs : List (String × Json) :=
  match auth.env with
  | none => []
  | some env =>
      [("inputs", .arr [.obj [("type", .str "promptString"), ("id", .str conduitAuthToken),
        ("description", .str env.description), ("password", .bool true)]])]

def vsCodeSnippet : String :=
  (Json.obj (vsCodeInputs auth ++
    [("servers", Json.fromEntries (servers.map fun server =>
      (buildVsCodeAlias server.id,
        .obj (("type", .str "http") :: ("url", .str server.url) ::
          authHeaders auth fun _ => "input:" ++ conduitAuthToken))))])).indent 0

def codexTable (server : ConnectServerBinding) : String :=
  "\n".intercalate
    (("[mcp_servers." ++ toTomlKey server.serverAlias ++ "]") ::
      ("url = " ++ toTomlString server.url) ::
        (auth.env.map fun env => "bearer_token_env_var = " ++ toTomlString env.name).toList)

def codexSnippet : String := "\n\n".intercalate (servers.map (codexTable auth))

def claudeCodeCommand (scope : String) (server : ConnectServerBinding) : String :=
  " ".intercalate
    (["claude mcp add", "--transport http", "--scope " ++ scope] ++
      (auth.env.map fun env => "--header \"Authorization: Bearer $" ++ env.name ++ "\"").toList ++
        [server.serverAlias, server.url])

def claudeCodeSnippet (scope : String) : String :=
  "\n".intercalate (servers.map (claudeCodeCommand auth scope))

-- the remote targets refuse a gateway that asks for a token
def remoteAuthentication : Json :=
  .str (if auth.method = .none then "none" else "unsupported-by-conduit-remote")

def claudeRemoteSnippet (label profileUrl : String) : String :=
  (Json.obj [("name", .str ("Conduit " ++ label)), ("url", .str profileUrl),
    ("transport", .str "streamable-http"),
    ("authentication", remoteAuthentication auth)]).indent 0

def chatGptRemoteSnippet (label profileUrl : String) : String :=
  (Json.obj [("name", .str ("Conduit " ++ label)), ("server_url", .str profileUrl),
    ("transport", .str "streamable-http"), ("authentication", remoteAuthentication auth),
    ("usage", .str "ChatGPT Settings → Connectors → Advanced → Developer mode")]).indent 0

def v0RemoteSnippet (label profileUrl : String) : String :=
  (Json.obj [("name", .str ("Conduit " ++ label)), ("url", .str profileUrl),
    ("authentication", remoteAuthentication auth),
    ("sdk_example", .obj [("method", .str "v0.mcpServers.create"),
      ("body", .obj [("name", .str ("Conduit " ++ label)), ("url", .str profileUrl)])])]).indent 0

end Snippets

section Export

variable (api : UrlEditor) (gateway : GatewayListen) (config : ConduitGatewayConfig)

structure ExportInput where
  target : ConnectTarget
  profile : ResolvedConnectProfile
  scope : String
  baseUrl : String
  auth : AuthExportSpec
  servers : List ConnectServerBinding

namespace ExportInput

variable (input : ExportInput)

def localResult (scopeEffective snippet : String) : ConnectExportResult where
  target := input.target
  profile := input.profile.id
  profileLabel := input.profile.label
  scope := input.scope
  scopeEffective := scopeEffective
  baseUrl := input.baseUrl
  snippet := snippet
  env := input.auth.env.toList
  servers := input.servers

def remoteResult (snippet : AuthExportSpec → String → String → String) :
    Option ConnectExportResult := do
  let profileUrl ← buildConnectProfileUrl api input.baseUrl input.profile.id
  return {
    target := input.target
    profile := input.profile.id
    profileLabel := input.profile.label
    scope := input.scope
    scopeEffective := "global"
    baseUrl := input.baseUrl
    snippet := snippet input.auth input.profile.label profileUrl
    servers := [⟨input.profile.id, "conduit-profile-" ++ input.profile.id, profileUrl⟩] }

def build : Option ConnectExportResult :=
  match input.target with
  | .cursor => some (input.localResult input.scope (cursorSnippet input.auth input.servers))
  | .claudeCode =>
      some (input.localResult input.scope (claudeCodeSnippet input.auth input.servers input.scope))
  | .claudeDesktop =>
      some (input.localResult "global" (claudeDesktopSnippet input.auth input.servers))
  | .codex => some (input.localResult input.scope (codexSnippet input.auth input.servers))
  | .windsurf => some (input.localResult "global" (windsurfSnippet input.auth input.servers))
  | .vscode => some (input.localResult input.scope (vsCodeSnippet input.auth input.servers))
  | .genericJson => some (input.localResult input.scope (genericJsonSnippet input.auth input.servers))
  | .claude => input.remoteResult api claudeRemoteSnippet
  | .chatgpt => input.remoteResult api chatGptRemoteSnippet
  | .v0 => input.remoteResult api v0RemoteSnippet

end ExportInput

def bindServer (target : ConnectTarget) (baseUrl : String) (server : ServerConfig) :
    ConnectServerBinding where
  id := server.id
  serverAlias := buildAlias server.id target
  url := baseUrl ++ "/mcp/" ++ encodeURIComponent server.id

-- `none` when the source throws: an unknown profile, or a base URL that is none
def exportConnectProfile (options : ConnectExportOptions) : Option ConnectExportResult := do
  let profile ← config.resolveConnectProfile (options.profile.getD "default")
  let baseUrl ← normalizeBaseUrl api (options.baseUrl.getD (deriveBaseUrl gateway))
  ExportInput.build api
    { target := options.target
      profile := profile
      scope := options.scope.getD "user"
      baseUrl := baseUrl
      auth := deriveAuthExportSpec config
      servers := profile.servers.map (bindServer options.target baseUrl) }

end Export

end Conduit.Connect
