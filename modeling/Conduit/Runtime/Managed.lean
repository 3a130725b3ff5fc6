import Conduit.Config.Types
import Conduit.Foundation.JsonText

namespace Conduit.Runtime

inductive ManagedRuntimeChannel where
  | stable
  | beta
  | canary
  | pinned
deriving DecidableEq, Repr

def ManagedRuntimeChannel.name : ManagedRuntimeChannel → String
  | .stable => "stable"
  | .beta => "beta"
  | .canary => "canary"
  | .pinned => "pinned"

inductive ManagedRuntimeSourceType where
  | npm
  | pypi
  | oci
  | command
deriving DecidableEq, Repr

inductive ManagedRuntimeReleaseStatus where
  | active
  | healthy
  | candidate
  | failed
  | rolledBack
deriving DecidableEq, Repr

structure ManagedRuntimeSandboxConfig where
  enabled : Option Bool := none
  rootDir : Option String := none
  sanitizeEnv : Option Bool := none
  allowNetwork : Option Bool := none

structure ManagedRuntimeHealthGateConfig where
  enabled : Option Bool := none
  autoRollback : Option Bool := none

structure ManagedRuntimeReleaseConfig where
  id : String
  version : String
  channel : ManagedRuntimeChannel
  command : String
  args : Option (List String) := none
  env : Option (OrderedMap String String) := none
  createdAt : String
  status : Option ManagedRuntimeReleaseStatus := none
  notes : Option String := none

structure ManagedRuntimeServerConfig where
  enabled : Bool
  sourceType : ManagedRuntimeSourceType
  sourceRef : String
  channel : ManagedRuntimeChannel
  activeReleaseId : String
  lastHealthyReleaseId : Option String := none
  lastRolloutAt : Option String := none
  sandbox : Option ManagedRuntimeSandboxConfig := none
  healthGate : Option ManagedRuntimeHealthGateConfig := none
  releases : List ManagedRuntimeReleaseConfig

-- the fields of a server entry that the stdio transport and the runtime plane read
structure StdioServerConfig extends ServerConfig where
  command : Option String := none
  args : Option (List String) := none
  env : Option (OrderedMap String String) := none
  managedRuntime : Option ManagedRuntimeServerConfig := none

structure ConnectManagedRuntimeConfig where
  enabled : Option Bool := none
  rootDir : Option String := none
  defaultChannel : Option ManagedRuntimeChannel := none
  sanitizeEnv : Option Bool := none
  autoRollback : Option Bool := none

-- one reading of the clock: Date.now() and its ISO text
structure Instant where
  millis : ℕ
  iso : String

structure LaunchHost where
  joinPath : String → String → String
  assertSafeSystemPath : String → String → Except String String
  mkdir : String → Except String Unit
  processEnv : OrderedMap String String

section Values

abbrev Env := OrderedMap String String

-- { ...env, ...overrides }
def spreadEnv (env overrides : Env) : Env :=
  overrides.entries.foldl (fun env e => env.set e.1 e.2) env

def nonEmptyEnv (env : Option Env) : Option Env := env.filter fun env => env.entries ≠ []

def nonEmptyArgs (args : Option (List String)) : Option (List String) := args.filter (· ≠ [])

def truthyText (s : Option String) : Option String := s.filter (· ≠ "")

theorem get?_foldl_set (entries : List (String × String)) (env : Env) (key : String)
    (h : (entries.map Prod.fst).Nodup) :
    (entries.foldl (fun env e => env.set e.1 e.2) env).get? key =
      (OrderedMap.lookup entries key).or (env.get? key) := by
  induction entries generalizing env with
  | nil => rfl
  | cons e entries ih =>
      obtain ⟨k, v⟩ := e
      rw [List.map_cons, List.nodup_cons] at h
      rw [List.foldl_cons, ih _ h.2, OrderedMap.get?_set, OrderedMap.lookup]
      by_cases hk : k = key
      · subst hk
        have hnone : OrderedMap.lookup entries k = none := by
          by_contra hsome
          obtain ⟨value, hvalue⟩ := Option.ne_none_iff_exists'.mp hsome
          have hmem := (OrderedMap.get?_eq_some_iff ⟨entries, h.2⟩ k value).mp hvalue
          exact h.1 (List.mem_map.mpr ⟨(k, value), hmem, rfl⟩)
        simp [hnone]
      · simp [hk]

theorem get?_spreadEnv (env overrides : Env) (key : String) :
    (spreadEnv env overrides).get? key = (overrides.get? key).or (env.get? key) :=
  get?_foldl_set overrides.entries env key overrides.nodup

end Values

section Release

def isTokenChar (c : Char) : Bool :=
  c.isAlphanum || c = '.' || c = '_' || c = '-'

-- runs of other characters become one dash
def sanitizeChars : Bool → List Char → List Char
  | _, [] => []
  | inRun, c :: rest =>
      if isTokenChar c then c :: sanitizeChars false rest
      else if inRun then sanitizeChars true rest
      else '-' :: sanitizeChars true rest

def sanitizeToken (value : String) : String := String.ofList (sanitizeChars false value.toList)

structure ReleaseInput where
  version : String
  channel : ManagedRuntimeChannel
  command : String
  args : Option (List String) := none
  env : Option Env := none
  createdAt : String
  status : ManagedRuntimeReleaseStatus
  notes : Option String := none

def createRelease (now : Instant) (input : ReleaseInput) : ManagedRuntimeReleaseConfig where
  id := input.channel.name ++ "-" ++ sanitizeToken input.version ++ "-" ++ toString now.millis
  version := input.version
  channel := input.channel
  command := input.command
  args := nonEmptyArgs input.args
  env := nonEmptyEnv input.env
  createdAt := input.createdAt
  status := some input.status
  notes := truthyText input.notes

def buildVersionedPackageIdentifier (identifier version : String) : String :=
  if version = "" then identifier
  else if identifier.toList.head? = some '@' then
    if '@' ∈ identifier.toList.drop 1 then identifier else identifier ++ "@" ++ version
  else if '@' ∈ identifier.toList then identifier
  else identifier ++ "@" ++ version

def flattenDockerEnv (env : Env) : List String :=
  (Json.propertyOrder env.entries).flatMap fun e => ["-e", e.1 ++ "=" ++ e.2]

structure ReleaseCommand where
  command : String
  args : List String
  env : Option Env := none

def buildReleaseCommand (sourceType : ManagedRuntimeSourceType) (sourceRef version : String)
    (env : Env) (command : Option String) (args : Option (List String)) :
    Except String ReleaseCommand :=
  match sourceType with
  | .npm =>
      .ok ⟨"npx", ["-y", buildVersionedPackageIdentifier sourceRef version],
        nonEmptyEnv (some env)⟩
  | .pypi =>
      .ok ⟨"uvx", [if version = "" then sourceRef else sourceRef ++ "==" ++ version],
        nonEmptyEnv (some env)⟩
  | .oci => .ok ⟨"docker", ["run", "-i", "--rm"] ++ flattenDockerEnv env ++ [sourceRef], none⟩
  | .command =>
      match command with
      | none => .error "Command runtimes must provide an explicit command to rollout"
      | some command => .ok ⟨command, args.getD [], nonEmptyEnv (some env)⟩

structure PackageInput where
  serverId : String
  sourceType : ManagedRuntimeSourceType
  sourceRef : String
  version : String
  command : String
  args : List String
  env : Option Env := none
  defaults : ConnectManagedRuntimeConfig := {}

def defaultRootDir : String := "./.conduit/runtime"

def createManagedRuntimeForPackage (host : LaunchHost) (now : Instant) (input : PackageInput) :
    ManagedRuntimeServerConfig :=
  let release := createRelease now
    { version := input.version
      channel := input.defaults.defaultChannel.getD .stable
      command := input.command
      args := some input.args
      env := input.env
      createdAt := now.iso
      status := .active }
  { enabled := input.defaults.enabled.getD true
    sourceType := input.sourceType
    sourceRef := input.sourceRef
    channel := release.channel
    activeReleaseId := release.id
    lastHealthyReleaseId := some release.id
    lastRolloutAt := some now.iso
    sandbox := some
      { enabled := some true
        rootDir := some (host.joinPath (input.defaults.rootDir.getD defaultRootDir) input.serverId)
        sanitizeEnv := some (input.defaults.sanitizeEnv.getD true)
        allowNetwork := some true }
    healthGate := some
      { enabled := some true, autoRollback := some (input.defaults.autoRollback.getD true) }
    releases := [release] }

-- the server entry that the registry import builds around it
def packageServer (host : LaunchHost) (now : Instant) (url : String) (input : PackageInput) :
    StdioServerConfig where
  id := input.serverId
  url := url
  transport := some .stdio
  command := some input.command
  args := some input.args
  env := nonEmptyEnv input.env
  managedRuntime := some (createManagedRuntimeForPackage host now
    { input with env := nonEmptyEnv input.env })

end Release

section Server

variable (server : StdioServerConfig)

def isManagedRuntimeServer : Bool :=
  server.transport = some .stdio && server.managedRuntime.any (·.enabled)

def managedRuntime? : Option ManagedRuntimeServerConfig :=
  if isManagedRuntimeServer server then server.managedRuntime else none

def findRelease (releases : List ManagedRuntimeReleaseConfig) (id : String) :
    Option ManagedRuntimeReleaseConfig :=
  releases.find? fun release => release.id = id

def getActiveManagedRelease : Option ManagedRuntimeReleaseConfig :=
  (server.managedRuntime.filter (·.enabled)).bind fun runtime =>
    findRelease runtime.releases runtime.activeReleaseId

structure ManagedRuntimeLaunchSpec where
  command : String
  args : List String
  env : Env
  cwd : Option String := none

def sandboxEnvKeys : List String :=
  ["PATH", "TMPDIR", "TMP", "TEMP", "LANG", "LC_ALL", "TERM", "SystemRoot", "ComSpec", "PATHEXT"]

def pickSandboxEnv (env : Env) : Env :=
  sandboxEnvKeys.foldl (fun picked key =>
    match env.get? key with
    | some value => picked.set key value
    | none => picked) OrderedMap.empty

def sandboxEnvDenylistPrefixes : List String :=
  ["npm_config_", "pip_", "pipx_", "poetry_", "uv_", "cargo_"]

def sandboxEnvDenylistKeys : List String :=
  ["NPM_TOKEN", "NODE_AUTH_TOKEN", "GITHUB_TOKEN", "GH_TOKEN", "GITLAB_TOKEN", "NUGET_API_KEY",
    "TWINE_USERNAME", "TWINE_PASSWORD", "PYPI_TOKEN", "AWS_ACCESS_KEY_ID", "AWS_SECRET_ACCESS_KEY",
    "AWS_SESSION_TOKEN", "GOOGLE_APPLICATION_CREDENTIALS", "CONDUIT_ADMIN_KEY"]

def isLeakyKey (key : String) : Bool :=
  sandboxEnvDenylistPrefixes.any
      (fun denied => denied.toList.isPrefixOf (key.toList.map Char.toLower)) ||
    String.ofList (key.toList.map Char.toUpper) ∈ sandboxEnvDenylistKeys

def stripSandboxLeakyEnv (env : Env) : Env where
  entries := env.entries.filter fun e => ¬ isLeakyKey e.1
  nodup := env.nodup.sublist (List.filter_sublist.map Prod.fst)

def sandboxVariables (host : LaunchHost) (root : String) (allowNetwork : Bool) :
    List (String × String) :=
  [("HOME", root), ("XDG_CACHE_HOME", host.joinPath root "cache"),
    ("XDG_CONFIG_HOME", host.joinPath root "config"), ("XDG_DATA_HOME", host.joinPath root "data"),
    ("npm_config_cache", host.joinPath root "npm-cache"),
    ("PIP_CACHE_DIR", host.joinPath root "pip-cache"),
    ("UV_CACHE_DIR", host.joinPath root "uv-cache"), ("CONDUIT_SANDBOX_ROOT", root),
    ("CONDUIT_SANDBOX_NETWORK", if allowNetwork then "enabled" else "disabled")]

structure Sandbox where
  root : String
  enabled : Bool
  env : Env

-- the sandbox of a launch, before the variables of the server and of the release
def prepareSandbox (host : LaunchHost) (id : String) (config : ManagedRuntimeSandboxConfig) :
    Except String Sandbox := do
  let enabled := config.enabled.getD true
  let root ← host.assertSafeSystemPath (config.rootDir.getD (host.joinPath defaultRootDir id))
    ("managed_runtime.sandbox.root_dir for \"" ++ id ++ "\"")
  let inherited :=
    if config.sanitizeEnv.getD true then pickSandboxEnv host.processEnv
    else stripSandboxLeakyEnv host.processEnv
  if enabled then
    match host.mkdir root with
    | .error error =>
        throw ("Managed runtime \"" ++ id ++ "\" failed to create sandbox at " ++ root ++ ": " ++ error)
    | .ok _ =>
        return ⟨root, true, (sandboxVariables host root (config.allowNetwork.getD true)).foldl
          (fun env e => env.set e.1 e.2) inherited⟩
  else return ⟨root, false, inherited⟩

def buildManagedRuntimeLaunchSpec (host : LaunchHost) :
    Except String (Option ManagedRuntimeLaunchSpec) :=
  match managedRuntime? server with
  | none => return none
  | some runtime =>
      let release := getActiveManagedRelease server
      match truthyText ((release.map (·.command)).or server.command) with
      | none => throw ("Managed runtime \"" ++ server.id ++ "\" has no executable command")
      | some command => do
          let sandbox ← prepareSandbox host server.id (runtime.sandbox.getD {})
          return some
            { command := command
              args := ((release.bind (·.args)).or server.args).getD []
              env := spreadEnv (spreadEnv sandbox.env (server.env.getD OrderedMap.empty))
                ((release.bind (·.env)).getD OrderedMap.empty)
              cwd := if sandbox.enabled then some sandbox.root else none }

def setReleaseStatus (id : String)
    (status : ManagedRuntimeReleaseConfig → Option ManagedRuntimeReleaseStatus)
    (releases : List ManagedRuntimeReleaseConfig) : List ManagedRuntimeReleaseConfig :=
  releases.map fun release =>
    if release.id = id then { release with status := status release } else release

structure RolloutInput where
  version : String
  channel : Option ManagedRuntimeChannel := none
  env : Option Env := none
  notes : Option String := none
  command : Option String := none
  args : Option (List String) := none

def notManaged : String := "Server \"" ++ server.id ++ "\" is not managed by the runtime plane"

def launchedBy (release : ManagedRuntimeReleaseConfig) : StdioServerConfig :=
  { server with
    command := some release.command
    args := some (release.args.getD [])
    env := release.env }

def nextRelease (now : Instant) (runtime : ManagedRuntimeServerConfig) (input : RolloutInput) :
    Except String ManagedRuntimeReleaseConfig := do
  let built ← buildReleaseCommand runtime.sourceType runtime.sourceRef input.version
    (spreadEnv (server.env.getD OrderedMap.empty) (input.env.getD OrderedMap.empty))
    (truthyText input.command) input.args
  return createRelease now
    { version := input.version
      channel := input.channel.getD runtime.channel
      command := built.command
      args := some built.args
      env := built.env
      createdAt := now.iso
      status := .candidate
      notes := input.notes }

def rolloutManagedRuntime (now : Instant) (input : RolloutInput) : Except String StdioServerConfig :=
  match managedRuntime? server with
  | none => throw (notManaged server)
  | some runtime => do
      let release ← nextRelease server now runtime input
      return { launchedBy server release with
        managedRuntime := some { runtime with
          channel := input.channel.getD runtime.channel
          activeReleaseId := release.id
          lastRolloutAt := some now.iso
          releases :=
            setReleaseStatus runtime.activeReleaseId
              (fun existing =>
                if some existing.id = runtime.lastHealthyReleaseId then some .healthy
                else some (existing.status.getD .healthy)) runtime.releases ++ [release] } }

inductive ReleaseOutcome where
  | healthy
  | failed
  | rolledBack
deriving DecidableEq, Repr

def ReleaseOutcome.status : ReleaseOutcome → ManagedRuntimeReleaseStatus
  | .healthy => .healthy
  | .failed => .failed
  | .rolledBack => .rolledBack

def markManagedRuntimeRelease (releaseId : String) (outcome : ReleaseOutcome) : StdioServerConfig :=
  match server.managedRuntime.filter (·.enabled) with
  | none => server
  | some runtime =>
      { server with
        managedRuntime := some { runtime with
          releases := setReleaseStatus releaseId
            (fun _ =>
              if outcome = .healthy ∧ runtime.activeReleaseId = releaseId then some .active
              else some outcome.status) runtime.releases
          lastHealthyReleaseId :=
            if outcome = .healthy then some releaseId else runtime.lastHealthyReleaseId } }

-- releaseId ?? last_healthy_release_id ?? the first other release
def fallbackId (runtime : ManagedRuntimeServerConfig) (releaseId : Option String) : Option String :=
  (releaseId.or runtime.lastHealthyReleaseId).or
    ((runtime.releases.find? fun candidate => candidate.id ≠ runtime.activeReleaseId).map
      ManagedRuntimeReleaseConfig.id)

def rollbackManagedRuntime (now : Instant) (releaseId : Option String) :
    Except String StdioServerConfig :=
  match managedRuntime? server with
  | none => throw (notManaged server)
  | some runtime =>
      match truthyText (fallbackId runtime releaseId) with
      | none => throw ("Managed runtime \"" ++ server.id ++ "\" has no rollback target")
      | some fallback =>
          match findRelease runtime.releases fallback with
          | none =>
              throw ("Managed runtime \"" ++ server.id ++ "\" cannot find rollback release \"" ++
                fallback ++ "\"")
          | some target =>
              return { launchedBy server target with
                managedRuntime := some { runtime with
                  releases := runtime.releases.map fun release =>
                    if release.id = runtime.activeReleaseId then
                      { release with status := some .rolledBack }
                    else if release.id = fallback then { release with status := some .active }
                    else release
                  activeReleaseId := fallback
                  channel := target.channel
                  lastHealthyReleaseId := some fallback
                  lastRolloutAt := some now.iso } }

end Server

end Conduit.Runtime
