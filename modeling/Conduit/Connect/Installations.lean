import Conduit.Connect.InstallSessions
import Conduit.Connect.JsonFiles
import Conduit.Connect.Relay
import Conduit.Utils.PathGuard

namespace Conduit.Connect

open Paths Utils

-- the machine of the user, with what it reads from its environment
structure ConnectHost extends JsonHost where
  runtime : Runtime
  darwin : Bool
  cwd : Path
  home : Path
  baseDir : Path
  claudeDesktopConfig : Option Path
  fileSecrets : Bool
  readError : String → String

abbrev Files := Path → Option String

structure Machine where
  files : Files
  keychain : String → Option String

structure SecretReference where
  keychain : Bool
  service : String
  account : String
deriving DecidableEq

inductive LocalAuth where
  | none
  | bearer (description headerName tokenPrefix : String) (secretRef : SecretReference)
deriving DecidableEq

-- what is stored of an installation in its manifest
structure LocalInstallation where
  id : String
  createdAt : String
  target : ConnectTarget
  profile : String
  scope : String
  scopeEffective : String
  baseUrl : String
  servers : List ConnectServerBinding
  configPath : String
  projectDir : Option String
  auth : LocalAuth
deriving DecidableEq

def write (files : Files) (path : Path) (text : String) : Files :=
  fun other => if other = path then some text else files other

-- how the text of a client's file is made from what it was
inductive Change where
  | mcpServers (installId : String) (servers : List ConnectServerBinding) (includeType : Bool)
  | vsCode (installId : String) (servers : List ConnectServerBinding)
  | codex (installId : String) (servers : List ConnectServerBinding)
  | trust (projectDir : String)

structure FileEdit where
  path : Path
  change : Change

section Aliases

def buildAliasForTarget (serverId : String) (target : ConnectTarget) : String :=
  match target with
  | .vscode => toVsCodeAlias serverId
  | _ => "conduit-" ++ serverId

def withAliasesForTarget (servers : List ConnectServerBinding) (target : ConnectTarget) :
    List ConnectServerBinding :=
  servers.map fun server => { server with serverAlias := buildAliasForTarget server.id target }

end Aliases

namespace ConnectHost

variable (host : ConnectHost)

section Locations

def resolveSafeProjectDir (candidate : Option String) : Except String String :=
  assertSafeSystemPath host.cwd (candidate.getD (text host.cwd)) "projectDir"

def getVsCodeUserConfigPath : Path :=
  if host.darwin then
    host.home ++ ["Library", "Application Support", "Code", "User", "mcp.json"]
  else host.home ++ [".config", "Code", "User", "mcp.json"]

def resolveLegacyWindsurfPath : Path := host.home ++ [".codeium", "windsurf", "mcp_config.json"]

def getCodexUserConfigPath : Path := host.home ++ [".codex", "config.toml"]

def claudeDesktopCandidates : List Path :=
  if host.darwin then
    [host.home ++ ["Library", "Application Support", "Claude", "claude_desktop_config.json"],
      host.home ++ [".config", "claude-desktop", "config.json"]]
  else
    [host.home ++ [".config", "claude-desktop", "config.json"],
      host.home ++ [".config", "Claude", "claude_desktop_config.json"]]

def getClaudeDesktopConfigPath (files : Files) : Except String Path :=
  match host.claudeDesktopConfig with
  | some path => .ok path
  | none =>
      match host.claudeDesktopCandidates with
      | [] => .error "Unable to determine Claude Desktop config path"
      | fallback :: _ =>
          .ok ((host.claudeDesktopCandidates.find? fun path => (files path).isSome).getD fallback)

def resolveScopedPath (files : Files) (target : ConnectTarget) (scopeEffective : String)
    (projectDir : Option String) : Except String Path := do
  let projectDir ← host.resolveSafeProjectDir projectDir
  let inProject (parts : List String) (user : Path) : Path :=
    if scopeEffective = "project" then resolve host.cwd projectDir ++ parts else user
  match target with
  | .cursor => return inProject [".cursor", "mcp.json"] (host.home ++ [".cursor", "mcp.json"])
  | .claudeDesktop => host.getClaudeDesktopConfigPath files
  | .codex => return inProject [".codex", "config.toml"] host.getCodexUserConfigPath
  | .windsurf => return host.home ++ [".codeium", "mcp_config.json"]
  | .vscode => return inProject [".vscode", "mcp.json"] host.getVsCodeUserConfigPath
  | .claudeCode => return inProject [".mcp.json"] (host.home ++ [".claude.json"])
  | .genericJson => return inProject ["mcp.json"] (host.baseDir ++ ["generic-mcp.json"])
  | .claude => throw "Local install path is not supported for target \"claude\""
  | .chatgpt => throw "Local install path is not supported for target \"chatgpt\""
  | .v0 => throw "Local install path is not supported for target \"v0\""

def getInstallationManifestPath (installId : String) : Path :=
  host.baseDir ++ ["installations", installId ++ ".json"]

def getSecretFilePath (service account : String) : Path :=
  host.baseDir ++ ["secrets", service ++ "-" ++ account ++ ".secret"]

end Locations

section Edits

def next (edit : FileEdit) (file : Option String) : Except String String :=
  match edit.change with
  | .mcpServers installId servers includeType =>
      host.mergeMcpServersJson host.runtime installId servers includeType (text edit.path) file
  | .vsCode installId servers =>
      host.mergeVsCodeJson host.runtime installId servers (text edit.path) file
  | .codex installId servers => .ok (mergeCodexToml host.runtime installId servers file)
  | .trust projectDir => .ok (ensureCodexProjectTrusted projectDir file)

-- what has been written before a failure stays
def perform : List FileEdit → Files → Files × Except String Unit
  | [], files => (files, .ok ())
  | edit :: edits, files =>
      match host.next edit (files edit.path) with
      | .error message => (files, .error message)
      | .ok text => perform edits (write files edit.path text)

variable (installId : String) (servers : List ConnectServerBinding)

def codexEdits (path : Path) (scopeEffective : String) (projectDir : Option String) :
    Except String (List FileEdit) :=
  if scopeEffective = "project" then do
    let safe ← host.resolveSafeProjectDir projectDir
    let safe ← host.resolveSafeProjectDir (some safe)
    return [⟨path, .codex installId servers⟩,
      ⟨host.getCodexUserConfigPath, .trust (text (resolve host.cwd safe))⟩]
  else return [⟨path, .codex installId servers⟩]

-- the path that is reported, and the files that are written, the first one first
def installTargetConfig (files : Files) (target : ConnectTarget) (scopeEffective : String)
    (projectDir : Option String) : Except String (Path × List FileEdit) :=
  match target with
  | .cursor => do
      let path ← host.resolveScopedPath files .cursor scopeEffective projectDir
      return (path, [⟨path, .mcpServers installId servers false⟩])
  | .claudeDesktop => do
      let path ← host.resolveScopedPath files .claudeDesktop scopeEffective projectDir
      return (path, [⟨path, .mcpServers installId servers false⟩])
  | .codex => do
      let path ← host.resolveScopedPath files .codex scopeEffective projectDir
      let edits ← host.codexEdits installId servers path scopeEffective projectDir
      return (path, edits)
  | .windsurf => do
      let path ← host.resolveScopedPath files .windsurf scopeEffective projectDir
      let legacy := host.resolveLegacyWindsurfPath
      return (path, ⟨path, .mcpServers installId servers false⟩ ::
        if legacy = path then [] else [⟨legacy, .mcpServers installId servers false⟩])
  | .genericJson => do
      let path ← host.resolveScopedPath files .genericJson scopeEffective projectDir
      return (path, [⟨path, .mcpServers installId servers false⟩])
  | .vscode => do
      let path ← host.resolveScopedPath files .vscode scopeEffective projectDir
      let claudePath ← host.resolveScopedPath files .claudeCode scopeEffective projectDir
      let codexPath ← host.resolveScopedPath files .codex scopeEffective projectDir
      let edits ← host.codexEdits installId (withAliasesForTarget servers .codex) codexPath
        scopeEffective projectDir
      return (path, ⟨path, .vsCode installId (withAliasesForTarget servers .vscode)⟩ ::
        ⟨claudePath, .mcpServers installId (withAliasesForTarget servers .claudeCode) true⟩ ::
          edits)
  | .claudeCode => do
      let path ← host.resolveScopedPath files .claudeCode scopeEffective projectDir
      return (path, [⟨path, .mcpServers installId servers true⟩])
  | other => throw ("Local install is not supported for target \"" ++ other.id ++ "\"")

end Edits

section Secrets

def shouldUseKeychain : Bool := !host.fileSecrets && host.darwin

def storeSecret (machine : Machine) (secret installId : String) : Machine × SecretReference :=
  if host.shouldUseKeychain then
    ({ machine with
        keychain := fun account => if account = installId then some secret else machine.keychain account },
      ⟨true, "io.mcp-conduit.connect", installId⟩)
  else
    ({ machine with files := write machine.files (host.getSecretFilePath "file" installId) secret },
      ⟨false, "file", installId⟩)

def readInstallationSecret (machine : Machine) : LocalAuth → Except String (Option String)
  | .none => .ok none
  | .bearer _ _ _ secretRef =>
      if secretRef.keychain then
        match machine.keychain secretRef.account with
        | none => .error (host.readError secretRef.account)
        | some secret => .ok (some (Text.trim secret))
      else
        let path := host.getSecretFilePath secretRef.service secretRef.account
        match machine.files path with
        | none => .error (host.readError (text path))
        | some secret => .ok (some (Text.trim secret))

end Secrets

end ConnectHost

section Manifests

def SecretReference.toJson (ref : SecretReference) : Json :=
  .obj [("backend", .str (if ref.keychain then "keychain" else "file")),
    ("service", .str ref.service), ("account", .str ref.account)]

def LocalAuth.toJson : LocalAuth → Json
  | .none => .obj [("type", .str "none")]
  | .bearer description headerName tokenPrefix secretRef =>
      .obj [("type", .str "bearer"), ("description", .str description),
        ("header_name", .str headerName), ("prefix", .str tokenPrefix),
        ("secret_ref", secretRef.toJson)]

def ConnectServerBinding.toJson (server : ConnectServerBinding) : Json :=
  .obj [("id", .str server.id), ("alias", .str server.serverAlias), ("url", .str server.url)]

namespace LocalInstallation

def toFields (installation : LocalInstallation) : List (String × Json) :=
  [("id", .str installation.id), ("created_at", .str installation.createdAt),
    ("target", .str installation.target.id), ("profile", .str installation.profile),
    ("scope", .str installation.scope), ("scope_effective", .str installation.scopeEffective),
    ("base_url", .str installation.baseUrl), ("transport", .str "stdio-relay"),
    ("servers", .arr (installation.servers.map ConnectServerBinding.toJson)),
    ("config_path", .str installation.configPath), ("auth", installation.auth.toJson)] ++
    (installation.projectDir.map fun dir => ("project_dir", Json.str dir)).toList

end LocalInstallation

def ConnectServerBinding.ofJson (v : Json) : Option ConnectServerBinding := do
  let id ← (v.get? "id").bind Json.asString?
  let serverAlias ← (v.get? "alias").bind Json.asString?
  let url ← (v.get? "url").bind Json.asString?
  return ⟨id, serverAlias, url⟩

def SecretReference.ofJson (v : Json) : Option SecretReference := do
  let backend ← (v.get? "backend").bind Json.asString?
  let service ← (v.get? "service").bind Json.asString?
  let account ← (v.get? "account").bind Json.asString?
  return ⟨backend = "keychain", service, account⟩

def LocalAuth.ofJson (v : Json) : Option LocalAuth := do
  let type ← (v.get? "type").bind Json.asString?
  if type = "none" then return .none
  else
    let description ← (v.get? "description").bind Json.asString?
    let headerName ← (v.get? "header_name").bind Json.asString?
    let tokenPrefix ← (v.get? "prefix").bind Json.asString?
    let secretRef ← (v.get? "secret_ref").bind SecretReference.ofJson
    return .bearer description headerName tokenPrefix secretRef

def ConnectTarget.all : List ConnectTarget :=
  [.cursor, .claudeCode, .claudeDesktop, .codex, .windsurf, .vscode, .genericJson, .claude,
    .chatgpt, .v0]

-- the installation that the fields of a manifest stand for; the source takes them for one
def LocalInstallation.ofLookup (field : String → Option Json) : Option LocalInstallation := do
  let id ← (field "id").bind Json.asString?
  let createdAt ← (field "created_at").bind Json.asString?
  let targetId ← (field "target").bind Json.asString?
  let target ← ConnectTarget.all.find? fun target => target.id = targetId
  let profile ← (field "profile").bind Json.asString?
  let scope ← (field "scope").bind Json.asString?
  let scopeEffective ← (field "scope_effective").bind Json.asString?
  let baseUrl ← (field "base_url").bind Json.asString?
  let items ← (field "servers").bind Json.asItems?
  let servers ← items.mapM ConnectServerBinding.ofJson
  let configPath ← (field "config_path").bind Json.asString?
  let auth ← (field "auth").bind LocalAuth.ofJson
  return {
    id := id
    createdAt := createdAt
    target := target
    profile := profile
    scope := scope
    scopeEffective := scopeEffective
    baseUrl := baseUrl
    servers := servers
    configPath := configPath
    projectDir := (field "project_dir").bind Json.asString?
    auth := auth }

def LocalInstallation.ofFields (fields : List (String × Json)) : Option LocalInstallation :=
  ofLookup (Json.field fields)

end Manifests

namespace ConnectHost

variable (host : ConnectHost)

section Commands

def writeInstallationManifest (machine : Machine) (installId : String)
    (fields : List (String × Json)) : Machine :=
  { machine with
    files := write machine.files (host.getInstallationManifestPath installId) (writeJsonFile fields) }

def loadLocalInstallation (files : Files) (installId : String) :
    Except String (List (String × Json)) :=
  let path := host.getInstallationManifestPath installId
  match files path with
  | none =>
      .error ("Unable to read connect installation \"" ++ installId ++ "\": " ++
        host.readError (text path))
  | some content =>
      match JsonParser.parse host.round content.toList with
      | none =>
          .error ("Unable to read connect installation \"" ++ installId ++ "\": " ++
            host.syntaxError content)
      | some (.obj fields) => .ok fields
      | some (.arr _) => .ok []
      | some _ => .error ("Invalid connect installation manifest for \"" ++ installId ++ "\"")

def createLocalInstallation (machine : Machine) (bundle : ConnectInstallBundle)
    (installId createdAt : String) : Machine × LocalInstallation :=
  let stored :=
    match bundle.auth with
    | .none => (machine, LocalAuth.none)
    | .bearer secret description headerName tokenPrefix =>
        let stored := host.storeSecret machine secret installId
        (stored.1, .bearer description headerName tokenPrefix stored.2)
  (stored.1,
    { id := installId
      createdAt := createdAt
      target := bundle.target
      profile := bundle.profile
      scope := bundle.scope
      scopeEffective := bundle.scopeEffective
      baseUrl := bundle.baseUrl
      servers := bundle.servers
      configPath := ""
      projectDir := none
      auth := stored.2 })

-- the project directory that an installation keeps
def keptProjectDir (projectDir : Option String) : Except String (Option String) :=
  match projectDir with
  | none => .ok none
  | some dir => (host.resolveSafeProjectDir (some dir)).map some

def installConnectBundle (machine : Machine) (bundle : ConnectInstallBundle)
    (installId createdAt : String) (projectDir : Option String) :
    Machine × Except String LocalInstallation :=
  let (machine, installation) := host.createLocalInstallation machine bundle installId createdAt
  match host.installTargetConfig installId bundle.servers machine.files bundle.target
      bundle.scopeEffective projectDir with
  | .error message => (machine, .error message)
  | .ok (configPath, edits) =>
      let (files, outcome) := host.perform edits machine.files
      let machine := { machine with files := files }
      match outcome, host.keptProjectDir
          (if bundle.scopeEffective = "project" then projectDir.filter (· ≠ "") else none) with
      | .error message, _ => (machine, .error message)
      | .ok (), .error message => (machine, .error message)
      | .ok (), .ok kept =>
          let installation :=
            { installation with configPath := text configPath, projectDir := kept }
          (host.writeInstallationManifest machine installId (installation.toFields ++
            [("target_label", .str bundle.targetLabel), ("profile_label", .str bundle.profileLabel)]),
            .ok installation)

def syncedFields (fields : List (String × Json)) (installation : LocalInstallation)
    (configPath : String) (kept : Option String) : List (String × Json) :=
  let fields := Json.setProperty fields "config_path" (.str configPath)
  let fields :=
    match kept with
    | none => fields
    | some dir => Json.setProperty fields "project_dir" (.str dir)
  Json.setProperty (Json.setProperty fields "target_label" (.str installation.target.id))
    "profile_label" (.str installation.profile)

def syncInstallation (machine : Machine) (installId : String) (fields : List (String × Json))
    (installation : LocalInstallation) (projectDir : Option String) :
    Machine × Except String LocalInstallation :=
  let projectDir := (projectDir.or installation.projectDir).filter (· ≠ "")
  if installation.scopeEffective = "project" ∧ projectDir = none then
    (machine, .error ("Installation \"" ++ installId ++
      "\" needs --project-dir because no project path was stored"))
  else
    match host.readInstallationSecret machine installation.auth,
        host.installTargetConfig installation.id installation.servers machine.files
          installation.target installation.scopeEffective projectDir with
    | .error message, _ => (machine, .error message)
    | .ok _, .error message => (machine, .error message)
    | .ok _, .ok (configPath, edits) =>
        let (files, outcome) := host.perform edits machine.files
        let machine := { machine with files := files }
        match outcome, host.keptProjectDir projectDir,
            host.readInstallationSecret machine installation.auth with
        | .error message, _, _ => (machine, .error message)
        | .ok (), .error message, _ => (machine, .error message)
        | .ok (), .ok _, .error message => (machine, .error message)
        | .ok (), .ok kept, .ok _ =>
            (host.writeInstallationManifest machine installation.id
              (syncedFields fields installation (text configPath) kept),
              .ok { installation with
                configPath := text configPath
                projectDir := kept.or installation.projectDir })

-- a manifest that stands for no installation is left alone, which the source does not check
def syncLocalInstallation (machine : Machine) (installId : String) (projectDir : Option String) :
    Machine × Except String LocalInstallation :=
  match host.loadLocalInstallation machine.files installId with
  | .error message => (machine, .error message)
  | .ok fields =>
      match LocalInstallation.ofFields fields with
      | none => (machine, .error "")
      | some installation => host.syncInstallation machine installId fields installation projectDir

end Commands

end ConnectHost

end Conduit.Connect
