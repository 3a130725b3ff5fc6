import Conduit.Connect.Registry
import Conduit.Foundation.Fallible
import Conduit.Runtime.ReleaseHistory

namespace Conduit.Connect

open Conduit.Runtime (Env Instant LaunchHost ManagedRuntimeChannel ManagedRuntimeSourceType
  ManagedRuntimeReleaseConfig ManagedRuntimeServerConfig ManagedRuntimeReleaseStatus
  ManagedRuntimeSandboxConfig ConnectManagedRuntimeConfig PackageInput RolloutInput Sandbox
  StdioServerConfig)

-- a rollout that gives only a version, and possibly a channel and notes
structure VersionRollout where
  now : Instant
  version : String
  channel : Option ManagedRuntimeChannel := none
  notes : Option String := none

def VersionRollout.input (rollout : VersionRollout) : RolloutInput where
  version := rollout.version
  channel := rollout.channel
  notes := rollout.notes

def rollOut (server : StdioServerConfig) (rollout : VersionRollout) :
    Except String StdioServerConfig :=
  Runtime.rolloutManagedRuntime server rollout.now rollout.input

-- what a launch reads of a release
structure Recipe where
  id : String
  command : String
  args : Option (List String)
  env : Option Env

def recipe (release : ManagedRuntimeReleaseConfig) : Recipe where
  id := release.id
  command := release.command
  args := release.args
  env := release.env

-- a release as the calls ask for it, the import being number 0
structure Issued where
  id : String
  version : String
  ordinal : ℕ
deriving DecidableEq

def releaseId (channel : ManagedRuntimeChannel) (version : String) (now : Instant) : String :=
  channel.name ++ "-" ++ Runtime.sanitizeToken version ++ "-" ++ toString now.millis

def issuedFrom : ℕ → ManagedRuntimeChannel → List VersionRollout → List Issued
  | _, _, [] => []
  | ordinal, channel, rollout :: rest =>
      let channel := rollout.channel.getD channel
      ⟨releaseId channel rollout.version rollout.now, rollout.version, ordinal⟩ ::
        issuedFrom (ordinal + 1) channel rest

section Package

variable (packageType : ConnectRegistryPackageType) (identifier : String)

def sourceTypeOf : ManagedRuntimeSourceType :=
  match packageType with
  | .pypi => .pypi
  | .oci => .oci
  | _ => .npm

def packageCommand : String :=
  match packageType with
  | .pypi => "uvx"
  | .oci => "docker"
  | _ => "npx"

-- how the package manager is told which version to run
def packageSpec (version : String) : String :=
  match packageType with
  | .pypi => if version = "" then identifier else identifier ++ "==" ++ version
  | .oci => identifier
  | _ => Runtime.buildVersionedPackageIdentifier identifier version

def packageOptions : List String :=
  match packageType with
  | .pypi => []
  | .oci => ["run", "-i", "--rm"]
  | _ => ["-y"]

def importArgs (version : String) (runtimeArguments : List String) : List String :=
  packageOptions packageType ++ packageSpec packageType identifier version :: runtimeArguments

def rolloutArgs (env : Env) (version : String) : List String :=
  packageOptions packageType ++ (if packageType = .oci then Runtime.flattenDockerEnv env else []) ++
    [packageSpec packageType identifier version]

-- the variables that a rollout leaves with the server
def carriedEnv (env : Option Env) : Option Env := if packageType = .oci then none else env

def Issued.recipe (env : Option Env) (runtimeArguments : List String) (issued : Issued) : Recipe where
  id := issued.id
  command := packageCommand packageType
  args := some
    (if issued.ordinal = 0 then importArgs packageType identifier issued.version runtimeArguments
    else rolloutArgs packageType identifier
      ((if issued.ordinal = 1 then env else carriedEnv packageType env).getD .empty) issued.version)
  env := if issued.ordinal = 0 then env else carriedEnv packageType env

def packageUrl : String :=
  match packageType with
  | .pypi => "stdio://uvx/" ++ identifier
  | .oci => "stdio://docker/" ++ identifier
  | _ => "stdio://npx/" ++ identifier

end Package

section Import

variable {host : LaunchHost} {now : Instant} {defaults : ConnectManagedRuntimeConfig}
  {server : OfficialRegistryServerDocument} {pkg : OfficialRegistryPackage}
  {config : ConnectRegistryImportOptions} {imported : StdioServerConfig}

def IsPackage (packageType : ConnectRegistryPackageType) : Prop :=
  packageType = .npm ∨ packageType = .pypi ∨ packageType = .oci

theorem import_eq_ok_iff :
    buildServerConfigFromOfficialServer host now defaults server (packageOption pkg) config =
        .ok imported ↔
      IsPackage (normalizePackageType pkg.registryType) ∧
        ∃ env, resolveRequirementMap (buildPackageRequirements pkg).env config.env = .ok env ∧
          imported = Runtime.packageServer host now
            (packageUrl (normalizePackageType pkg.registryType) (pkg.identifier.getD ""))
            { serverId := toConduitServerId server.name
              sourceType := sourceTypeOf (normalizePackageType pkg.registryType)
              sourceRef := pkg.identifier.getD ""
              version := pkg.version.getD server.version
              command := packageCommand (normalizePackageType pkg.registryType)
              args := importArgs (normalizePackageType pkg.registryType) (pkg.identifier.getD "")
                (pkg.version.getD server.version) (buildPackageRuntimeArguments pkg)
              env := Runtime.nonEmptyEnv (some env)
              defaults := defaults } := by
  simp only [buildServerConfigFromOfficialServer, packageOption, Option.bind_none,
    Option.filter_none, Except.bind_eq_ok_iff]
  constructor
  · rintro ⟨env, henv, hserver⟩
    cases hkind : normalizePackageType pkg.registryType with
    | npm =>
        rw [hkind] at hserver
        exact ⟨.inl rfl, env, henv, (Except.ok.inj hserver).symm⟩
    | pypi =>
        rw [hkind] at hserver
        exact ⟨.inr (.inl rfl), env, henv, (Except.ok.inj hserver).symm⟩
    | oci =>
        rw [hkind] at hserver
        exact ⟨.inr (.inr rfl), env, henv, (Except.ok.inj hserver).symm⟩
    | nuget =>
        rw [hkind] at hserver
        cases hserver
    | mcpb =>
        rw [hkind] at hserver
        cases hserver
    | unknown =>
        rw [hkind] at hserver
        cases hserver
  · rintro ⟨hkind, env, henv, rfl⟩
    refine ⟨env, henv, ?_⟩
    rcases hkind with hkind | hkind | hkind
    · rw [hkind]
      rfl
    · rw [hkind]
      rfl
    · rw [hkind]
      rfl

end Import

section Rollouts

variable {packageType : ConnectRegistryPackageType} {env : Option Env} 
  {original runtime : ManagedRuntimeServerConfig} {server after : StdioServerConfig}

theorem nonEmptyEnv_idem (env : Option Env) :
    Runtime.nonEmptyEnv (Runtime.nonEmptyEnv env) = Runtime.nonEmptyEnv env := by
  simp only [Runtime.nonEmptyEnv, Option.filter_filter, Bool.and_self]

theorem nonEmptyEnv_getD (h : Runtime.nonEmptyEnv env = env) :
    Runtime.nonEmptyEnv (some (env.getD .empty)) = env := by
  cases env with
  | none => rfl
  | some env => exact h

theorem nonEmptyEnv_carriedEnv (h : Runtime.nonEmptyEnv env = env) :
    Runtime.nonEmptyEnv (carriedEnv packageType env) = carriedEnv packageType env := by
  unfold carriedEnv
  split
  · rfl
  · exact h

theorem buildReleaseCommand_package (hpackage : IsPackage packageType) (identifier version : String)
    (env : Env) :
    Runtime.buildReleaseCommand (sourceTypeOf packageType) identifier version env none none =
      .ok ⟨packageCommand packageType, rolloutArgs packageType identifier env version,
        carriedEnv packageType (Runtime.nonEmptyEnv (some env))⟩ := by
  rcases hpackage with rfl | rfl | rfl
  · rfl
  · rfl
  · rfl

theorem rolloutArgs_ne_nil (identifier version : String) (env : Env) :
    rolloutArgs packageType identifier env version ≠ [] := by
  simp [rolloutArgs]

-- the server after so many rollouts of the import that `original` is the runtime of
structure Rolled (packageType : ConnectRegistryPackageType) (env : Option Env)
    (original : ManagedRuntimeServerConfig) (serverId : String) (rollouts : ℕ)
    (channel : ManagedRuntimeChannel) (recipes : List Recipe) (server : StdioServerConfig)
    (runtime : ManagedRuntimeServerConfig) : Prop where
  id : server.id = serverId
  transport : server.transport = some .stdio
  env : server.env = if rollouts = 0 then env else carriedEnv packageType env
  managed : server.managedRuntime = some runtime
  enabled : runtime.enabled = original.enabled
  sourceType : runtime.sourceType = sourceTypeOf packageType
  sourceRef : runtime.sourceRef = original.sourceRef
  sandbox : runtime.sandbox = original.sandbox
  channel : runtime.channel = channel
  active : recipes.getLast?.map Recipe.id = some runtime.activeReleaseId
  releases : runtime.releases.map recipe = recipes

theorem recipe_setReleaseStatus (id : String)
    (status : ManagedRuntimeReleaseConfig → Option ManagedRuntimeReleaseStatus)
    (releases : List ManagedRuntimeReleaseConfig) :
    (Runtime.setReleaseStatus id status releases).map recipe = releases.map recipe := by
  unfold Runtime.setReleaseStatus
  rw [List.map_map]
  refine List.map_congr_left fun release _ => ?_
  simp only [Function.comp_apply]
  split
  · rfl
  · rfl

theorem recipe_nextRelease (hpackage : IsPackage packageType)
    (hsource : runtime.sourceType = sourceTypeOf packageType)
    (hcanonical : Runtime.nonEmptyEnv server.env = server.env) {rollout : VersionRollout}
    {release : ManagedRuntimeReleaseConfig}
    (h : Runtime.nextRelease server rollout.now runtime rollout.input = .ok release) :
    recipe release =
      { id := releaseId (rollout.channel.getD runtime.channel) rollout.version rollout.now
        command := packageCommand packageType
        args := some (rolloutArgs packageType runtime.sourceRef (server.env.getD .empty)
          rollout.version)
        env := carriedEnv packageType server.env } := by
  have hspread : Runtime.spreadEnv (server.env.getD .empty) (rollout.input.env.getD .empty) =
      server.env.getD .empty := rfl
  unfold Runtime.nextRelease at h
  rw [hsource, hspread] at h
  obtain ⟨built, hbuilt, hrelease⟩ := Except.bind_eq_ok_iff.1 h
  have hcommand := buildReleaseCommand_package hpackage runtime.sourceRef rollout.version
    (server.env.getD .empty)
  obtain rfl := Except.ok.inj (hcommand.symm.trans hbuilt)
  obtain rfl := Except.ok.inj hrelease
  have hargs : Runtime.nonEmptyArgs (some (rolloutArgs packageType runtime.sourceRef
      (server.env.getD .empty) rollout.version)) = some _ :=
    Option.filter_some_pos (decide_eq_true (rolloutArgs_ne_nil _ _ _))
  have henv : Runtime.nonEmptyEnv (carriedEnv packageType
      (Runtime.nonEmptyEnv (some (server.env.getD .empty)))) = carriedEnv packageType server.env := by
    rw [nonEmptyEnv_getD hcanonical, nonEmptyEnv_carriedEnv hcanonical]
  unfold recipe Runtime.createRelease
  exact congrArg₂ (Recipe.mk _ _) hargs henv

theorem Rolled.rollOut {serverId : String} {rollouts : ℕ} {channel : ManagedRuntimeChannel}
    {recipes : List Recipe} (hpackage : IsPackage packageType)
    (hcanonical : Runtime.nonEmptyEnv env = env)
    (h : Rolled packageType env original serverId rollouts channel recipes server runtime)
    {rollout : VersionRollout} (hafter : rollOut server rollout = .ok after)
    (runtimeArguments : List String) :
    ∃ runtime', Rolled packageType env original serverId (rollouts + 1)
      (rollout.channel.getD channel)
      (recipes ++ [Issued.recipe packageType original.sourceRef env runtimeArguments
        ⟨releaseId (rollout.channel.getD channel) rollout.version rollout.now, rollout.version,
          rollouts + 1⟩]) after runtime' := by
  obtain ⟨runtime', release, hruntime, hrelease, rfl⟩ := Runtime.rollout_ok hafter
  obtain rfl := Option.some.inj (hruntime.symm.trans h.managed)
  have hserverEnv : Runtime.nonEmptyEnv server.env = server.env := by
    rw [h.env]
    split
    · exact hcanonical
    · exact nonEmptyEnv_carriedEnv hcanonical
  have hcarried : carriedEnv packageType server.env = carriedEnv packageType env := by
    rw [h.env]
    split
    · rfl
    · unfold carriedEnv
      split
      · rfl
      · rfl
  have hrecipe : recipe release = Issued.recipe packageType original.sourceRef env runtimeArguments
      ⟨releaseId (rollout.channel.getD channel) rollout.version rollout.now, rollout.version,
        rollouts + 1⟩ := by
    rw [recipe_nextRelease hpackage h.sourceType hserverEnv hrelease, hcarried, h.env, h.sourceRef,
      h.channel]
    simp [Issued.recipe]
  refine ⟨_, h.id, h.transport, ?_, rfl, h.enabled, h.sourceType, h.sourceRef, h.sandbox, ?_, ?_, ?_⟩
  · have henv := congrArg Recipe.env hrecipe
    exact henv
  · exact congrArg rollout.channel.getD h.channel
  · rw [List.getLast?_concat, Option.map_some, ← hrecipe]
    rfl
  · rw [List.map_append, recipe_setReleaseStatus, h.releases, List.map_singleton, hrecipe]

theorem Rolled.rollOuts {serverId : String} {made : ℕ} {channel : ManagedRuntimeChannel}
    {recipes : List Recipe} (hpackage : IsPackage packageType)
    (hcanonical : Runtime.nonEmptyEnv env = env)
    (h : Rolled packageType env original serverId made channel recipes server runtime)
    {rollouts : List VersionRollout} (hafter : rollouts.foldlM Connect.rollOut server = .ok after)
    (runtimeArguments : List String) :
    ∃ channel' runtime', Rolled packageType env original serverId (made + rollouts.length) channel'
      (recipes ++ (issuedFrom (made + 1) channel rollouts).map
        (Issued.recipe packageType original.sourceRef env runtimeArguments)) after runtime' := by
  induction rollouts generalizing server runtime made channel recipes with
  | nil =>
      obtain rfl := Except.ok.inj hafter
      exact ⟨channel, runtime, by simpa [issuedFrom] using h⟩
  | cons rollout rollouts ih =>
      rw [List.foldlM_cons] at hafter
      obtain ⟨next, hnext, hrest⟩ := Except.bind_eq_ok_iff.1 hafter
      obtain ⟨runtime', hrolled⟩ :=
        h.rollOut hpackage hcanonical hnext runtimeArguments
      obtain ⟨channel', last, hlast⟩ := ih hrolled hrest
      refine ⟨channel', last, ?_⟩
      have hmade : made + 1 + rollouts.length = made + (rollouts.length + 1) := by omega
      rw [hmade, List.append_assoc] at hlast
      exact hlast

theorem isManaged_of_rollOut {rollout : VersionRollout}
    (h : Connect.rollOut server rollout = .ok after) : Runtime.isManagedRuntimeServer server = true := by
  by_contra hnot
  unfold Connect.rollOut Runtime.rolloutManagedRuntime Runtime.managedRuntime? at h
  rw [if_neg hnot] at h
  cases h

end Rollouts

section Launch

variable {packageType : ConnectRegistryPackageType} {env : Option Env}
  {original runtime : ManagedRuntimeServerConfig} {server : StdioServerConfig}

-- the release that a launch runs: the first to have the id of the last
def launched (issued : List Issued) : Option Issued :=
  issued.getLast?.bind fun last => issued.find? fun release => release.id = last.id

theorem packageCommand_ne (packageType : ConnectRegistryPackageType) :
    packageCommand packageType ≠ "" := by
  unfold packageCommand
  split
  · decide
  · decide
  · decide

theorem Rolled.launchSpec {serverId identifier : String} {made : ℕ}
    {channel : ManagedRuntimeChannel} {issued : List Issued} {runtimeArguments : List String}
    (h : Rolled packageType env original serverId made channel
      (issued.map (Issued.recipe packageType identifier env runtimeArguments)) server runtime)
    (henabled : original.enabled = true) (host : LaunchHost) :
    ∃ picked, launched issued = some picked ∧
      Runtime.buildManagedRuntimeLaunchSpec server host = (do
        let sandbox ← Runtime.prepareSandbox host serverId (original.sandbox.getD {})
        return some
          { command := packageCommand packageType
            args := ((picked.recipe packageType identifier env runtimeArguments).args).getD []
            env := Runtime.spreadEnv (Runtime.spreadEnv sandbox.env (server.env.getD .empty))
              ((picked.recipe packageType identifier env runtimeArguments).env.getD .empty)
            cwd := if sandbox.enabled then some sandbox.root else none }) := by
  have hactive := h.active
  rw [List.getLast?_map, Option.map_map] at hactive
  obtain ⟨last, hlast, hid⟩ := Option.map_eq_some_iff.mp hactive
  have hfound : (issued.find? fun release => release.id = last.id).isSome = true := by
    rw [List.find?_isSome]
    exact ⟨last, List.mem_of_getLast? hlast, decide_eq_true rfl⟩
  obtain ⟨picked, hpicked⟩ := Option.isSome_iff_exists.mp hfound
  refine ⟨picked, by rw [launched, hlast]; exact hpicked, ?_⟩
  have hrecipes : (Runtime.findRelease runtime.releases runtime.activeReleaseId).map recipe =
      some (picked.recipe packageType identifier env runtimeArguments) := by
    have hmapped := congrArg (List.find? fun r => r.id = runtime.activeReleaseId) h.releases
    rw [List.find?_map, List.find?_map, ← hid] at hmapped
    rw [Runtime.findRelease, ← hid]
    refine hmapped.trans ?_
    change (issued.find? fun release => release.id = last.id).map _ = _
    rw [hpicked]
    rfl
  obtain ⟨release, hrelease, hrecipe⟩ := Option.map_eq_some_iff.mp hrecipes
  have hon : runtime.enabled = true := h.enabled.trans henabled
  have hmanaged : Runtime.managedRuntime? server = some runtime := by
    have hstdio : Runtime.isManagedRuntimeServer server = true := by
      simp [Runtime.isManagedRuntimeServer, h.transport, h.managed, hon]
    rw [Runtime.managedRuntime?, if_pos hstdio, h.managed]
  have hrunning : Runtime.getActiveManagedRelease server = some release := by
    rw [Runtime.getActiveManagedRelease, h.managed, Option.filter_some_pos hon, Option.bind_some]
    exact hrelease
  have hcommand : release.command = packageCommand packageType := congrArg Recipe.command hrecipe
  have hargs : release.args = (picked.recipe packageType identifier env runtimeArguments).args :=
    congrArg Recipe.args hrecipe
  have henv : release.env = (picked.recipe packageType identifier env runtimeArguments).env :=
    congrArg Recipe.env hrecipe
  have htruthy : Runtime.truthyText (some (packageCommand packageType)) =
      some (packageCommand packageType) :=
    Option.filter_some_pos (decide_eq_true (packageCommand_ne packageType))
  rw [Runtime.buildManagedRuntimeLaunchSpec, hmanaged]
  simp only [hrunning, Option.map_some, Option.some_or, Option.bind_some, hcommand, hargs, henv,
    htruthy, h.id, h.sandbox]
  rfl

-- the version is named alike; a release that a rollout made has no runtime arguments to lose, and
-- of a container no variable that its command line and the sandbox do not make up for
def NamesVersion (packageType : ConnectRegistryPackageType) (identifier : String)
    (runtimeArguments : List String) (env sandbox : Env) (version : String) (picked : Issued) : Prop :=
  if picked.ordinal = 0 then
    packageSpec packageType identifier picked.version = packageSpec packageType identifier version
  else if packageType = .oci then
    (if picked.ordinal = 1 then Runtime.flattenDockerEnv env else []) ++ [identifier] =
        identifier :: runtimeArguments ∧
      ∀ key value, env.get? key = some value → sandbox.get? key = some value
  else
    packageSpec packageType identifier picked.version = packageSpec packageType identifier version ∧
      runtimeArguments = []

section Comparison

variable {identifier version : String} {runtimeArguments : List String} {picked : Issued}

theorem importArgs_inj_iff {version' : String} :
    importArgs packageType identifier version runtimeArguments =
        importArgs packageType identifier version' runtimeArguments ↔
      packageSpec packageType identifier version = packageSpec packageType identifier version' := by
  simp [importArgs]

theorem rolloutArgs_eq_importArgs_iff {env : Env} {version' : String} :
    rolloutArgs packageType identifier env version =
        importArgs packageType identifier version' runtimeArguments ↔
      (if packageType = .oci then Runtime.flattenDockerEnv env else []) ++
          [packageSpec packageType identifier version] =
        packageSpec packageType identifier version' :: runtimeArguments := by
  rw [rolloutArgs, importArgs, List.append_assoc, List.append_cancel_left_eq]

theorem args_of_import (h : picked.ordinal = 0) :
    (picked.recipe packageType identifier env runtimeArguments).args.getD [] =
      importArgs packageType identifier picked.version runtimeArguments := by
  simp [Issued.recipe, h]

theorem args_of_rollout (h : picked.ordinal ≠ 0) :
    (picked.recipe packageType identifier env runtimeArguments).args.getD [] =
      rolloutArgs packageType identifier
        ((if picked.ordinal = 1 then env else carriedEnv packageType env).getD .empty)
        picked.version := by
  simp [Issued.recipe, h]

-- a variable of the process that a launch starts
def launchVariable (sandbox : Env) (serverEnv releaseEnv : Option Env) (key : String) :
    Option String :=
  ((releaseEnv.getD .empty).get? key).or
    (((serverEnv.getD .empty).get? key).or (sandbox.get? key))

theorem or_eq_iff {α : Type} (a b : Option α) :
    b = a.or (a.or b) ↔ ∀ value, a = some value → b = some value := by
  cases a with
  | none => simp
  | some value => simp

theorem namesVersion_iff (sandbox : Env) :
    ((picked.recipe packageType identifier env runtimeArguments).args.getD [] =
          importArgs packageType identifier version runtimeArguments ∧
        ∀ key, launchVariable sandbox (carriedEnv packageType env)
            (picked.recipe packageType identifier env runtimeArguments).env key =
          launchVariable sandbox env env key) ↔
      NamesVersion packageType identifier runtimeArguments (env.getD .empty) sandbox version
        picked := by
  unfold NamesVersion
  by_cases hzero : picked.ordinal = 0
  · rw [if_pos hzero, args_of_import hzero, importArgs_inj_iff]
    refine and_iff_left fun key => ?_
    have henv : (picked.recipe packageType identifier env runtimeArguments).env = env := by
      simp [Issued.recipe, hzero]
    rw [henv]
    unfold launchVariable carriedEnv
    split
    · change _ = ((env.getD .empty).get? key).or _
      cases (env.getD .empty).get? key with
      | none => rfl
      | some value => rfl
    · rfl
  · rw [if_neg hzero, args_of_rollout hzero, rolloutArgs_eq_importArgs_iff]
    have henv : (picked.recipe packageType identifier env runtimeArguments).env =
        carriedEnv packageType env := by simp [Issued.recipe, hzero]
    rw [henv]
    by_cases hoci : packageType = .oci
    · subst hoci
      have hflags : Runtime.flattenDockerEnv
          ((if picked.ordinal = 1 then env else carriedEnv .oci env).getD .empty) =
          if picked.ordinal = 1 then Runtime.flattenDockerEnv (env.getD .empty) else [] := by
        split
        · rfl
        · rfl
      rw [if_pos rfl, if_pos rfl, hflags]
      exact and_congr Iff.rfl (forall_congr' fun key => or_eq_iff _ _)
    · have hcarried : carriedEnv packageType env = env := if_neg hoci
      rw [if_neg hoci, if_neg hoci, hcarried, List.nil_append, List.cons.injEq, eq_comm (a := [])]
      exact and_iff_left fun key => rfl

end Comparison

end Launch

section Outcome

variable {host : LaunchHost} {now now' : Instant} {defaults : ConnectManagedRuntimeConfig}
  {server : OfficialRegistryServerDocument} {pkg : OfficialRegistryPackage}
  {config : ConnectRegistryImportOptions} {imported rolled : StdioServerConfig}

def issued (channel : ManagedRuntimeChannel) (version : String) (now : Instant)
    (rollouts : List VersionRollout) : List Issued :=
  ⟨releaseId channel version now, version, 0⟩ :: issuedFrom 1 channel rollouts

-- where the other server launches, this one launches the same command
def LaunchesAs (host : LaunchHost) (server other : StdioServerConfig) : Prop :=
  ∀ launch, Runtime.buildManagedRuntimeLaunchSpec other host = .ok (some launch) →
    ∃ launch', Runtime.buildManagedRuntimeLaunchSpec server host = .ok (some launch') ∧
      launch'.command = launch.command ∧ launch'.args = launch.args ∧
      ∀ key, launch'.env.get? key = launch.env.get? key

-- the sandbox that an import configures
def importSandbox (host : LaunchHost) (defaults : ConnectManagedRuntimeConfig) (serverId : String) :
    ManagedRuntimeSandboxConfig where
  enabled := some true
  rootDir := some (host.joinPath (defaults.rootDir.getD Runtime.defaultRootDir) serverId)
  sanitizeEnv := some (defaults.sanitizeEnv.getD true)
  allowNetwork := some true

theorem rolled_packageServer (host : LaunchHost) (now : Instant)
    (packageType : ConnectRegistryPackageType) (url : String) (input : PackageInput)
    {runtimeArguments : List String}
    (hsource : input.sourceType = sourceTypeOf packageType)
    (hcommand : input.command = packageCommand packageType)
    (hargs : input.args = importArgs packageType input.sourceRef input.version runtimeArguments)
    (hcanonical : Runtime.nonEmptyEnv input.env = input.env) :
    ∃ runtime, runtime.sandbox = some (importSandbox host input.defaults input.serverId) ∧
      runtime.enabled = input.defaults.enabled.getD true ∧ runtime.sourceRef = input.sourceRef ∧
      Rolled packageType input.env runtime input.serverId 0
        (input.defaults.defaultChannel.getD .stable)
        ((issued (input.defaults.defaultChannel.getD .stable) input.version now []).map
          (Issued.recipe packageType input.sourceRef input.env runtimeArguments))
        (Runtime.packageServer host now url input) runtime := by
  have hsome : Runtime.nonEmptyArgs (some input.args) =
      some (importArgs packageType input.sourceRef input.version runtimeArguments) := by
    rw [hargs]
    exact Option.filter_some_pos (decide_eq_true (by simp [importArgs]))
  have henv : Runtime.nonEmptyEnv (Runtime.nonEmptyEnv input.env) = input.env := by
    rw [hcanonical, hcanonical]
  refine ⟨_, rfl, rfl, rfl, rfl, rfl, hcanonical, rfl, rfl, hsource, rfl, rfl, rfl, rfl, ?_⟩
  change [Recipe.mk _ input.command (Runtime.nonEmptyArgs (some input.args))
    (Runtime.nonEmptyEnv (Runtime.nonEmptyEnv input.env))] = _
  rw [hsome, henv, hcommand]
  rfl

theorem rolled_import
    (h : buildServerConfigFromOfficialServer host now defaults server (packageOption pkg) config =
      .ok imported) :
    ∃ env runtime, resolveRequirementMap (buildPackageRequirements pkg).env config.env = .ok env ∧
      runtime.sandbox = some (importSandbox host defaults (toConduitServerId server.name)) ∧
      runtime.enabled = defaults.enabled.getD true ∧ runtime.sourceRef = pkg.identifier.getD "" ∧
      Rolled (normalizePackageType pkg.registryType) (Runtime.nonEmptyEnv (some env)) runtime
        (toConduitServerId server.name) 0 (defaults.defaultChannel.getD .stable)
        ((issued (defaults.defaultChannel.getD .stable) (pkg.version.getD server.version) now []).map
          (Issued.recipe (normalizePackageType pkg.registryType) (pkg.identifier.getD "")
            (Runtime.nonEmptyEnv (some env)) (buildPackageRuntimeArguments pkg)))
        imported runtime := by
  obtain ⟨-, env, henv, rfl⟩ := import_eq_ok_iff.1 h
  obtain ⟨runtime, hruntime⟩ := rolled_packageServer host now
    (normalizePackageType pkg.registryType)
    (packageUrl (normalizePackageType pkg.registryType) (pkg.identifier.getD ""))
    { serverId := toConduitServerId server.name
      sourceType := sourceTypeOf (normalizePackageType pkg.registryType)
      sourceRef := pkg.identifier.getD ""
      version := pkg.version.getD server.version
      command := packageCommand (normalizePackageType pkg.registryType)
      args := importArgs (normalizePackageType pkg.registryType) (pkg.identifier.getD "")
        (pkg.version.getD server.version) (buildPackageRuntimeArguments pkg)
      env := Runtime.nonEmptyEnv (some env)
      defaults := defaults } rfl rfl rfl (nonEmptyEnv_idem (some env))
  dsimp only at hruntime
  exact ⟨env, runtime, henv, hruntime⟩

theorem get?_launch (sandbox : Env) (serverEnv releaseEnv : Option Env) (key : String) :
    (Runtime.spreadEnv (Runtime.spreadEnv sandbox (serverEnv.getD .empty))
      (releaseEnv.getD .empty)).get? key = launchVariable sandbox serverEnv releaseEnv key := by
  rw [Runtime.get?_spreadEnv, Runtime.get?_spreadEnv]
  rfl

theorem launchesAs_iff {packageType : ConnectRegistryPackageType} {env : Option Env}
    {original original' runtime runtime' : ManagedRuntimeServerConfig} {fresh : StdioServerConfig}
    {serverId identifier version : String} {made : ℕ} {channel channel' : ManagedRuntimeChannel}
    {releases : List Issued} {runtimeArguments : List String} (hmade : made ≠ 0)
    (h : Rolled packageType env original serverId made channel
      (releases.map (Issued.recipe packageType identifier env runtimeArguments)) rolled runtime)
    (h' : Rolled packageType env original' serverId 0 channel'
      ((issued channel' version now' []).map
        (Issued.recipe packageType identifier env runtimeArguments)) fresh runtime')
    (henabled : original.enabled = true) (henabled' : original'.enabled = true)
    (hsandbox : original'.sandbox = original.sandbox) :
    LaunchesAs host rolled fresh ↔
      ∃ picked, launched releases = some picked ∧
        ∀ sandbox, Runtime.prepareSandbox host serverId (original.sandbox.getD {}) = .ok sandbox →
          NamesVersion packageType identifier runtimeArguments (env.getD .empty) sandbox.env version
            picked := by
  obtain ⟨picked, hpicked, hspec⟩ := h.launchSpec henabled host
  obtain ⟨picked', hpicked', hspec'⟩ := h'.launchSpec henabled' host
  have hfirst : launched (issued channel' version now' []) =
      some ⟨releaseId channel' version now', version, 0⟩ := by
    simp [launched, issued, issuedFrom]
  obtain rfl := Option.some.inj (hfirst.symm.trans hpicked')
  rw [hsandbox] at hspec'
  rw [hpicked]
  simp only [Option.some.injEq, exists_eq_left', LaunchesAs, hspec, hspec', h.env, h'.env,
    if_neg hmade, if_true]
  cases hprepared : Runtime.prepareSandbox host serverId (original.sandbox.getD {}) with
  | error error =>
      constructor
      · intro _ sandbox hsandbox
        cases hsandbox
      · intro _ launch hlaunch
        cases hlaunch
  | ok sandbox =>
      constructor
      · intro hlaunches sandbox' hsame
        obtain rfl := Except.ok.inj hsame
        obtain ⟨launch, hlaunch, _, hargs, hvariables⟩ := hlaunches _ rfl
        obtain rfl := Option.some.inj (Except.ok.inj hlaunch)
        apply (namesVersion_iff sandbox.env).mp
        refine ⟨hargs, fun key => ?_⟩
        have hkey := hvariables key
        rw [get?_launch, get?_launch] at hkey
        exact hkey
      · intro hversion launch hlaunch
        obtain rfl := Option.some.inj (Except.ok.inj hlaunch)
        obtain ⟨hargs, hvariables⟩ := (namesVersion_iff sandbox.env).mpr (hversion sandbox rfl)
        refine ⟨_, rfl, rfl, hargs, fun key => ?_⟩
        rw [get?_launch, get?_launch]
        exact hvariables key

theorem isManaged_of_foldlM {past : List VersionRollout} {last : VersionRollout}
    (h : (past ++ [last]).foldlM rollOut imported = .ok rolled) :
    Runtime.isManagedRuntimeServer imported = true := by
  cases past with
  | nil =>
      obtain ⟨after, hafter, -⟩ := Except.bind_eq_ok_iff.1 h
      exact isManaged_of_rollOut hafter
  | cons first past =>
      obtain ⟨after, hafter, -⟩ := Except.bind_eq_ok_iff.1 h
      exact isManaged_of_rollOut hafter

theorem import_of_version
    (h : buildServerConfigFromOfficialServer host now defaults server (packageOption pkg) config =
      .ok imported) (now' : Instant) (version : String) :
    ∃ fresh, buildServerConfigFromOfficialServer host now' defaults server
      (packageOption { pkg with version := some version }) config = .ok fresh := by
  obtain ⟨hpackage, env, henv, -⟩ := import_eq_ok_iff.1 h
  exact ⟨_, import_eq_ok_iff.2 ⟨hpackage, env, henv, rfl⟩⟩

theorem rollout_changes_version_iff (past : List VersionRollout) (last : VersionRollout)
    (himport : buildServerConfigFromOfficialServer host now defaults server (packageOption pkg)
      config = .ok imported)
    (hrollouts : (past ++ [last]).foldlM rollOut imported = .ok rolled) :
    (∃ fresh, buildServerConfigFromOfficialServer host now' defaults server
        (packageOption { pkg with version := some last.version }) config = .ok fresh ∧
      LaunchesAs host rolled fresh) ↔
      ∃ picked, launched (issued (defaults.defaultChannel.getD .stable)
          (pkg.version.getD server.version) now (past ++ [last])) = some picked ∧
        ∀ sandbox, Runtime.prepareSandbox host imported.id
            ((imported.managedRuntime.bind (·.sandbox)).getD {}) = .ok sandbox →
          NamesVersion (normalizePackageType pkg.registryType) (pkg.identifier.getD "")
            (buildPackageRuntimeArguments pkg) (imported.env.getD .empty) sandbox.env last.version
            picked := by
  have hpackage := (import_eq_ok_iff.1 himport).1
  obtain ⟨env, original, henv, hsandbox, henabled, hsourceRef, himported⟩ := rolled_import himport
  have himportedEnv := himported.env
  rw [if_pos rfl] at himportedEnv
  have hon := isManaged_of_foldlM hrollouts
  simp only [Runtime.isManagedRuntimeServer, himported.managed, Option.any_some,
    Bool.and_eq_true] at hon
  obtain ⟨channel, runtime, hrolled⟩ := himported.rollOuts hpackage (nonEmptyEnv_idem _) hrollouts
    (buildPackageRuntimeArguments pkg)
  rw [hsourceRef, ← List.map_append] at hrolled
  have hmade : 0 + (past ++ [last]).length ≠ 0 := by simp
  rw [himportedEnv, himported.id, himported.managed, Option.bind_some]
  obtain ⟨fresh, hok⟩ := import_of_version himport now' last.version
  obtain ⟨env', original', henv', hsandbox', henabled', -, hfresh⟩ := rolled_import hok
  obtain rfl := Except.ok.inj (henv.symm.trans henv')
  have hon' := henabled'.trans (henabled.symm.trans hon.2)
  refine Iff.trans ⟨?_, fun hsame => ⟨fresh, hok, hsame⟩⟩
    (launchesAs_iff hmade hrolled hfresh hon.2 hon' (hsandbox'.trans hsandbox.symm))
  rintro ⟨fresh', hok', hsame⟩
  obtain rfl := Except.ok.inj (hok.symm.trans hok')
  exact hsame

section Runs

def plainHost : LaunchHost where
  joinPath base path := base ++ "/" ++ path
  assertSafeSystemPath path _ := .ok path
  mkdir _ := .ok ()
  processEnv := .empty

def published (pkg : OfficialRegistryPackage) : OfficialRegistryServerDocument :=
  { name := "io.example/tools", version := "1.0.0", packages := some [pkg] }

def tools (registryType : String) : OfficialRegistryPackage :=
  { registryType := some registryType, identifier := some "tools", version := some "1.0.0" }

def serving : OfficialRegistryPackage :=
  { tools "npm" with
    runtimeArguments := some [.obj [("type", .str "positional"), ("value", .str "serve")]] }

def keyed : OfficialRegistryPackage :=
  { tools "oci" with environmentVariables := some [.obj [("name", .str "TOKEN")]] }

def token : Env := (OrderedMap.empty.set "TOKEN" "secret" : Env)

def rolledTo (version : String) (millis : ℕ) : VersionRollout :=
  { now := ⟨millis, ""⟩, version := version }

-- an import of the package at a version
def importAt (pkg : OfficialRegistryPackage) (env : Option Env) (version : String) :
    Except String StdioServerConfig :=
  buildServerConfigFromOfficialServer plainHost ⟨0, ""⟩ {} (published pkg)
    (packageOption { pkg with version := some version }) { env := env }

def launchArgs (server : StdioServerConfig) : Except String (Option (List String)) :=
  (Runtime.buildManagedRuntimeLaunchSpec server plainHost).map (·.map (·.args))

-- with no runtime arguments, two rollouts of an npm package only change its version
theorem rollout_changes_version_of_plain :
    ∃ imported rolled, importAt (tools "npm") (some token) "1.0.0" = .ok imported ∧
      [rolledTo "1.5.0" 5, rolledTo "2.0.0" 9].foldlM rollOut imported = .ok rolled ∧
      ∃ fresh, importAt (tools "npm") (some token) "2.0.0" = .ok fresh ∧
        LaunchesAs plainHost rolled fresh := by
  have hruns : (importAt (tools "npm") (some token) "1.0.0" >>= fun imported =>
      [rolledTo "1.5.0" 5, rolledTo "2.0.0" 9].foldlM rollOut imported >>= launchArgs) =
      .ok (some ["-y", "tools@2.0.0"]) := by decide +kernel
  obtain ⟨imported, himported, hrest⟩ := Except.bind_eq_ok_iff.1 hruns
  obtain ⟨rolled, hrollouts, -⟩ := Except.bind_eq_ok_iff.1 hrest
  refine ⟨imported, rolled, himported, hrollouts, ?_⟩
  apply (rollout_changes_version_iff [rolledTo "1.5.0" 5] (rolledTo "2.0.0" 9) himported
    hrollouts).mpr
  refine ⟨⟨"stable-2.0.0-9", "2.0.0", 2⟩, by decide +kernel, fun sandbox _ => ?_⟩
  rw [NamesVersion, if_neg (by decide), if_neg (by decide)]
  exact ⟨rfl, rfl⟩

theorem launchArgs_eq_ok {server : StdioServerConfig} {args : List String}
    (h : launchArgs server = .ok (some args)) :
    ∃ launch, Runtime.buildManagedRuntimeLaunchSpec server plainHost = .ok (some launch) ∧
      launch.args = args := by
  unfold launchArgs at h
  cases hspec : Runtime.buildManagedRuntimeLaunchSpec server plainHost with
  | error error =>
      rw [hspec] at h
      cases h
  | ok launch =>
      rw [hspec] at h
      cases launch with
      | none => cases h
      | some launch => exact ⟨launch, rfl, Option.some.inj (Except.ok.inj h)⟩

theorem rollout_differs {pkg : OfficialRegistryPackage} {env : Option Env}
    {rollouts : List VersionRollout} {version : String} {rolledArgs freshArgs : List String}
    (hrolled : (importAt pkg env "1.0.0" >>= fun imported =>
      rollouts.foldlM rollOut imported >>= launchArgs) = .ok (some rolledArgs))
    (hfresh : (importAt pkg env version >>= launchArgs) = .ok (some freshArgs))
    (hne : rolledArgs ≠ freshArgs) :
    ∃ imported rolled, importAt pkg env "1.0.0" = .ok imported ∧
      rollouts.foldlM rollOut imported = .ok rolled ∧
      ¬∃ fresh, importAt pkg env version = .ok fresh ∧ LaunchesAs plainHost rolled fresh := by
  obtain ⟨imported, himported, hrest⟩ := Except.bind_eq_ok_iff.1 hrolled
  obtain ⟨rolled, hrollouts, hargs⟩ := Except.bind_eq_ok_iff.1 hrest
  obtain ⟨fresh, hfreshOk, hfreshArgs⟩ := Except.bind_eq_ok_iff.1 hfresh
  refine ⟨imported, rolled, himported, hrollouts, ?_⟩
  rintro ⟨fresh', hfresh', hsame⟩
  obtain rfl := Except.ok.inj (hfreshOk.symm.trans hfresh')
  obtain ⟨launch, hlaunch, rfl⟩ := launchArgs_eq_ok hfreshArgs
  obtain ⟨launch', hlaunch', rfl⟩ := launchArgs_eq_ok hargs
  obtain ⟨other, hother, -, hsameArgs, -⟩ := hsame launch hlaunch
  obtain rfl := Option.some.inj (Except.ok.inj (hlaunch'.symm.trans hother))
  exact hne hsameArgs

theorem rollout_changes_more :
    (∃ imported rolled, importAt serving none "1.0.0" = .ok imported ∧
        [rolledTo "2.0.0" 5].foldlM rollOut imported = .ok rolled ∧
        ¬∃ fresh, importAt serving none "2.0.0" = .ok fresh ∧ LaunchesAs plainHost rolled fresh) ∧
      ∃ imported rolled, importAt keyed (some token) "1.0.0" = .ok imported ∧
        [rolledTo "2.0.0" 5].foldlM rollOut imported = .ok rolled ∧
        ¬∃ fresh, importAt keyed (some token) "2.0.0" = .ok fresh ∧
          LaunchesAs plainHost rolled fresh := by
  constructor
  · have hrolled : (importAt serving none "1.0.0" >>= fun imported =>
        [rolledTo "2.0.0" 5].foldlM rollOut imported >>= launchArgs) =
        .ok (some ["-y", "tools@2.0.0"]) := by decide +kernel
    have hfresh : (importAt serving none "2.0.0" >>= launchArgs) =
        .ok (some ["-y", "tools@2.0.0", "serve"]) := by decide +kernel
    exact rollout_differs hrolled hfresh (by decide)
  · have hrolled : (importAt keyed (some token) "1.0.0" >>= fun imported =>
        [rolledTo "2.0.0" 5].foldlM rollOut imported >>= launchArgs) =
        .ok (some ["run", "-i", "--rm", "-e", "TOKEN=secret", "tools"]) := by decide +kernel
    have hfresh : (importAt keyed (some token) "2.0.0" >>= launchArgs) =
        .ok (some ["run", "-i", "--rm", "tools"]) := by decide +kernel
    exact rollout_differs hrolled hfresh (by decide)

end Runs

end Outcome

end Conduit.Connect
