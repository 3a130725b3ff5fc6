import Conduit.Runtime.Managed

namespace Conduit.Runtime

inductive RuntimeCall where
  | rollout (now : Instant) (input : RolloutInput)
  | markActive (outcome : ReleaseOutcome)
  | rollback (now : Instant) (releaseId : Option String)

def RuntimeCall.apply (server : StdioServerConfig) : RuntimeCall → Except String StdioServerConfig
  | .rollout now input => rolloutManagedRuntime server now input
  | .markActive outcome =>
      match server.managedRuntime with
      | none => .ok server
      | some runtime => .ok (markManagedRuntimeRelease server runtime.activeReleaseId outcome)
  | .rollback now releaseId => rollbackManagedRuntime server now releaseId

-- every call of a sequence that succeeds, with the server before and after it
def Along (P : StdioServerConfig → RuntimeCall → StdioServerConfig → Prop) :
    StdioServerConfig → List RuntimeCall → Prop
  | _, [] => True
  | server, call :: rest =>
      ∀ after, call.apply server = .ok after → P server call after ∧ Along P after rest

structure LaunchedBy (server : StdioServerConfig) (release : ManagedRuntimeReleaseConfig) : Prop where
  command : server.command = some release.command
  args : server.args.getD [] = release.args.getD []
  env : server.env = release.env

structure Launches (server : StdioServerConfig) (release : ManagedRuntimeReleaseConfig) : Prop extends
    LaunchedBy server release where
  spec : ∀ host launch, buildManagedRuntimeLaunchSpec server host = .ok (some launch) →
    launch.command = release.command ∧ launch.args = release.args.getD [] ∧
      ∃ config sandbox, prepareSandbox host server.id config = .ok sandbox ∧
        ∀ key, launch.env.get? key =
          ((release.env.getD OrderedMap.empty).get? key).or (sandbox.env.get? key)

def releaseIds (releases : List ManagedRuntimeReleaseConfig) : List String :=
  releases.map ManagedRuntimeReleaseConfig.id

def DistinctIds (server : StdioServerConfig) : Prop :=
  ∀ runtime, server.managedRuntime = some runtime → (releaseIds runtime.releases).Nodup

def isActive (release : ManagedRuntimeReleaseConfig) : Bool := release.status = some .active

structure Coherent (before : StdioServerConfig) (call : RuntimeCall) (after : StdioServerConfig) :
    Prop where
  launched : ∃ runtime release, after.managedRuntime = some runtime ∧
    findRelease runtime.releases runtime.activeReleaseId = some release ∧ Launches after release
  single : ∀ runtime, after.managedRuntime = some runtime →
    (runtime.releases.filter isActive).length ≤ 1
  settled : ∀ now releaseId, call = .rollback now releaseId → ∀ runtime release,
    after.managedRuntime = some runtime →
    findRelease runtime.releases runtime.activeReleaseId = some release →
    release.status ≠ some .failed ∧ release.status ≠ some .rolledBack
  moved : ∀ now, call = .rollback now none → ∀ runtime runtime',
    before.managedRuntime = some runtime → after.managedRuntime = some runtime' →
    (∃ release ∈ runtime.releases, release.id ≠ runtime.activeReleaseId) →
    runtime'.activeReleaseId ≠ runtime.activeReleaseId

-- the release that a rollback names, or else the last healthy one, is not the active one
def Diverts (before : StdioServerConfig) (call : RuntimeCall) (_ : StdioServerConfig) : Prop :=
  ∀ now releaseId runtime, call = .rollback now releaseId →
    before.managedRuntime = some runtime →
    releaseId.or runtime.lastHealthyReleaseId ≠ some runtime.activeReleaseId

-- what holds between the calls
structure Kept (server : StdioServerConfig) (runtime : ManagedRuntimeServerConfig) : Prop where
  managed : server.managedRuntime = some runtime
  distinct : (releaseIds runtime.releases).Nodup
  launched : ∃ release, findRelease runtime.releases runtime.activeReleaseId = some release ∧
    LaunchedBy server release
  active : ∀ release ∈ runtime.releases, isActive release = true →
    release.id = runtime.activeReleaseId ∧ runtime.lastHealthyReleaseId = some release.id

section Releases

variable {releases : List ManagedRuntimeReleaseConfig} {id : String}
  {release : ManagedRuntimeReleaseConfig}

theorem mem_of_findRelease (h : findRelease releases id = some release) :
    release ∈ releases ∧ release.id = id :=
  ⟨List.mem_of_find?_eq_some h, by simpa using List.find?_some h⟩

theorem findRelease_map {f : ManagedRuntimeReleaseConfig → ManagedRuntimeReleaseConfig}
    (hf : ∀ r, (f r).id = r.id) :
    findRelease (releases.map f) id = (findRelease releases id).map f := by
  induction releases with
  | nil => rfl
  | cons r rest ih =>
      unfold findRelease at ih ⊢
      by_cases h : r.id = id
      · simp [hf, h]
      · simp [hf, h, ih]

theorem releaseIds_map {f : ManagedRuntimeReleaseConfig → ManagedRuntimeReleaseConfig}
    (hf : ∀ r, (f r).id = r.id) : releaseIds (releases.map f) = releaseIds releases := by
  unfold releaseIds
  rw [List.map_map]
  exact List.map_congr_left fun r _ => hf r

theorem length_filter_le_one {p : ManagedRuntimeReleaseConfig → Bool}
    (hdistinct : (releaseIds releases).Nodup)
    (hsame : ∀ r ∈ releases, p r = true → r.id = id) : (releases.filter p).length ≤ 1 := by
  have hnodup : ((releases.filter p).map ManagedRuntimeReleaseConfig.id).Nodup :=
    hdistinct.sublist (List.filter_sublist.map _)
  have hconst : (releases.filter p).map ManagedRuntimeReleaseConfig.id =
      List.replicate (releases.filter p).length id := by
    refine List.eq_replicate_iff.mpr ⟨by simp, fun other hother => ?_⟩
    obtain ⟨r, hr, rfl⟩ := List.mem_map.mp hother
    obtain ⟨hmem, hp⟩ := List.mem_filter.mp hr
    exact hsame r hmem hp
  rw [hconst] at hnodup
  exact List.nodup_replicate.mp hnodup

theorem id_setReleaseStatus (key : String)
    (status : ManagedRuntimeReleaseConfig → Option ManagedRuntimeReleaseStatus)
    (r : ManagedRuntimeReleaseConfig) :
    (if r.id = key then { r with status := status r } else r).id = r.id := by
  split <;> rfl

end Releases

section Launch

variable {server : StdioServerConfig} {release : ManagedRuntimeReleaseConfig}
  {runtime : ManagedRuntimeServerConfig}

theorem getD_args_or {args : Option (List String)} {fallback : Option (List String)}
    (h : fallback.getD [] = args.getD []) : (args.or fallback).getD [] = args.getD [] := by
  cases args with
  | none => simpa using h
  | some args => rfl

theorem LaunchedBy.launches (h : LaunchedBy server release)
    (hruntime : server.managedRuntime = some runtime)
    (hactive : findRelease runtime.releases runtime.activeReleaseId = some release) :
    Launches server release := by
  refine ⟨h, fun host launch hlaunch => ?_⟩
  unfold buildManagedRuntimeLaunchSpec managedRuntime? at hlaunch
  by_cases hmanaged : isManagedRuntimeServer server = true
  · have henabled : runtime.enabled = true := by
      simpa [isManagedRuntimeServer, hruntime] using (Bool.and_eq_true_iff.mp hmanaged).2
    have hrelease : getActiveManagedRelease server = some release := by
      simp [getActiveManagedRelease, hruntime, Option.filter, henabled, hactive]
    rw [if_pos hmanaged, hruntime] at hlaunch
    simp only [hrelease, Option.map_some, Option.some_or, Option.bind_some] at hlaunch
    split at hlaunch
    next => cases hlaunch
    next command hcommand =>
      obtain rfl : release.command = command :=
        Option.some.inj (Option.filter_eq_some_iff.mp hcommand).1
      cases hsandbox : prepareSandbox host server.id (runtime.sandbox.getD {}) with
      | error error =>
          rw [hsandbox] at hlaunch
          cases hlaunch
      | ok sandbox =>
          rw [hsandbox] at hlaunch
          cases hlaunch
          refine ⟨rfl, getD_args_or h.args, _, sandbox, hsandbox, fun key => ?_⟩
          dsimp only
          rw [get?_spreadEnv, get?_spreadEnv, h.env]
          cases (release.env.getD OrderedMap.empty).get? key <;> rfl
  · rw [if_neg hmanaged] at hlaunch
    cases hlaunch

end Launch

section Calls

variable {server after : StdioServerConfig} {runtime : ManagedRuntimeServerConfig} {now : Instant}

theorem managedRuntime?_eq_some (h : managedRuntime? server = some runtime) :
    server.managedRuntime = some runtime := by
  unfold managedRuntime? at h
  split at h
  · exact h
  · cases h

theorem rollout_ok {input : RolloutInput} (h : rolloutManagedRuntime server now input = .ok after) :
    ∃ runtime release, server.managedRuntime = some runtime ∧
      nextRelease server now runtime input = .ok release ∧
      after = { launchedBy server release with
        managedRuntime := some { runtime with
          channel := input.channel.getD runtime.channel
          activeReleaseId := release.id
          lastRolloutAt := some now.iso
          releases :=
            setReleaseStatus runtime.activeReleaseId
              (fun existing =>
                if some existing.id = runtime.lastHealthyReleaseId then some .healthy
                else some (existing.status.getD .healthy)) runtime.releases ++ [release] } } := by
  unfold rolloutManagedRuntime at h
  split at h
  next => cases h
  next runtime hruntime =>
    cases hrelease : nextRelease server now runtime input with
    | error error =>
        rw [hrelease] at h
        cases h
    | ok release =>
        rw [hrelease] at h
        exact ⟨runtime, release, managedRuntime?_eq_some hruntime, hrelease,
          (Except.ok.inj h).symm⟩

theorem rollback_ok {releaseId : Option String}
    (h : rollbackManagedRuntime server now releaseId = .ok after) :
    ∃ runtime fallback target, server.managedRuntime = some runtime ∧
      fallbackId runtime releaseId = some fallback ∧
      findRelease runtime.releases fallback = some target ∧
      after = { launchedBy server target with
        managedRuntime := some { runtime with
          releases := runtime.releases.map fun release =>
            if release.id = runtime.activeReleaseId then
              { release with status := some .rolledBack }
            else if release.id = fallback then { release with status := some .active }
            else release
          activeReleaseId := fallback
          channel := target.channel
          lastHealthyReleaseId := some fallback
          lastRolloutAt := some now.iso } } := by
  unfold rollbackManagedRuntime at h
  split at h
  next => cases h
  next runtime hruntime =>
    split at h
    next => cases h
    next fallback hfallback =>
      split at h
      next => cases h
      next target htarget =>
        exact ⟨runtime, fallback, target, managedRuntime?_eq_some hruntime,
          (Option.filter_eq_some_iff.mp hfallback).1, htarget, (Except.ok.inj h).symm⟩

theorem launchedBy_launchedBy (release : ManagedRuntimeReleaseConfig)
    (managed : Option ManagedRuntimeServerConfig)
    (status : Option ManagedRuntimeReleaseStatus) :
    LaunchedBy { launchedBy server release with managedRuntime := managed }
      { release with status := status } :=
  ⟨rfl, rfl, rfl⟩

theorem status_nextRelease {input : RolloutInput} {release : ManagedRuntimeReleaseConfig}
    (h : nextRelease server now runtime input = .ok release) :
    release.status = some .candidate := by
  unfold nextRelease at h
  cases hbuilt : buildReleaseCommand runtime.sourceType runtime.sourceRef input.version
      (spreadEnv (server.env.getD OrderedMap.empty) (input.env.getD OrderedMap.empty))
      (truthyText input.command) input.args with
  | error error =>
      rw [hbuilt] at h
      cases h
  | ok built =>
      rw [hbuilt] at h
      cases h
      rfl

theorem Kept.rollout (hkept : Kept server runtime) {input : RolloutInput}
    (h : rolloutManagedRuntime server now input = .ok after) (hdistinct : DistinctIds after) :
    ∃ runtime', Kept after runtime' := by
  obtain ⟨runtime₁, release, hruntime, hrelease, rfl⟩ := rollout_ok h
  obtain rfl := Option.some.inj (hruntime.symm.trans hkept.managed)
  have hnodup := hdistinct _ rfl
  refine ⟨_, rfl, hnodup, ⟨release, ?_, launchedBy_launchedBy release _ release.status⟩, ?_⟩
  · unfold releaseIds at hnodup
    rw [List.map_append, List.map_singleton] at hnodup
    have hnew := (List.nodup_append.mp hnodup).2.2
    unfold findRelease
    rw [List.find?_append, List.find?_eq_none.mpr]
    · simp
    · intro other hother
      have hne := hnew other.id (List.mem_map_of_mem hother) release.id (List.mem_singleton_self _)
      simpa using hne
  · intro other hother hactive
    rcases List.mem_append.mp hother with hold | hnew
    · obtain ⟨existing, hexisting, rfl⟩ := List.mem_map.mp hold
      by_cases hid : existing.id = runtime₁.activeReleaseId
      · rw [if_pos hid] at hactive
        by_cases hhealthy : some existing.id = runtime₁.lastHealthyReleaseId
        · simp [isActive, hhealthy] at hactive
        · have hstatus : existing.status.getD .healthy = .active := by
            simpa [isActive, hhealthy] using hactive
          have hwas : isActive existing = true := by
            unfold isActive
            cases hcase : existing.status with
            | none => simp [hcase] at hstatus
            | some status => simpa [hcase] using hstatus
          exact absurd (hkept.active existing hexisting hwas).2.symm hhealthy
      · rw [if_neg hid] at hactive
        exact absurd (hkept.active existing hexisting hactive).1 hid
    · obtain rfl := List.mem_singleton.mp hnew
      simp [isActive, status_nextRelease hrelease] at hactive

theorem Kept.mark (hkept : Kept server runtime) (outcome : ReleaseOutcome) :
    ∃ runtime', Kept (markManagedRuntimeRelease server runtime.activeReleaseId outcome) runtime' := by
  unfold markManagedRuntimeRelease
  rw [hkept.managed]
  by_cases henabled : runtime.enabled = true
  · rw [Option.filter_some, if_pos henabled]
    dsimp only
    refine ⟨_, rfl, ?_, ?_, ?_⟩
    · unfold setReleaseStatus
      rw [releaseIds_map (id_setReleaseStatus _ _)]
      exact hkept.distinct
    · obtain ⟨release, hfound, hlaunched⟩ := hkept.launched
      unfold setReleaseStatus
      rw [findRelease_map (id_setReleaseStatus _ _), hfound]
      refine ⟨_, rfl, ?_⟩
      dsimp only
      rw [if_pos (mem_of_findRelease hfound).2]
      exact ⟨hlaunched.command, hlaunched.args, hlaunched.env⟩
    · intro other hother hactive
      obtain ⟨existing, hexisting, rfl⟩ := List.mem_map.mp hother
      by_cases hid : existing.id = runtime.activeReleaseId
      · rw [if_pos hid] at hactive ⊢
        refine ⟨hid, ?_⟩
        cases outcome with
        | healthy => simp [hid]
        | failed => simp [isActive, ReleaseOutcome.status] at hactive
        | rolledBack => simp [isActive, ReleaseOutcome.status] at hactive
      · rw [if_neg hid] at hactive
        exact absurd (hkept.active existing hexisting hactive).1 hid
  · rw [Option.filter_some, if_neg henabled]
    exact ⟨runtime, hkept⟩

theorem id_rolledBack (current fallback : String) (release : ManagedRuntimeReleaseConfig) :
    (if release.id = current then { release with status := some .rolledBack }
      else if release.id = fallback then { release with status := some .active }
      else release).id = release.id := by
  split
  · rfl
  · split <;> rfl

theorem rollback_kept (hkept : Kept server runtime) {releaseId : Option String}
    (h : rollbackManagedRuntime server now releaseId = .ok after)
    (hdiverts : fallbackId runtime releaseId ≠ some runtime.activeReleaseId) :
    ∃ runtime' release, Kept after runtime' ∧
      findRelease runtime'.releases runtime'.activeReleaseId = some release ∧
      release.status = some .active ∧ runtime'.activeReleaseId ≠ runtime.activeReleaseId := by
  obtain ⟨runtime₁, fallback, target, hruntime, hfallback, htarget, rfl⟩ := rollback_ok h
  obtain rfl := Option.some.inj (hruntime.symm.trans hkept.managed)
  have hne : fallback ≠ runtime₁.activeReleaseId := by
    rintro rfl
    exact hdiverts hfallback
  obtain ⟨hmem, hid⟩ := mem_of_findRelease htarget
  have hfound : findRelease (runtime₁.releases.map fun release =>
      if release.id = runtime₁.activeReleaseId then { release with status := some .rolledBack }
      else if release.id = fallback then { release with status := some .active }
      else release) fallback = some { target with status := some .active } := by
    rw [findRelease_map (id_rolledBack _ _), htarget, Option.map_some, hid, if_neg hne, if_pos rfl]
  refine ⟨_, { target with status := some .active }, ⟨rfl, ?_, ?_, ?_⟩, hfound, rfl, hne⟩
  · dsimp only
    rw [releaseIds_map (id_rolledBack _ _)]
    exact hkept.distinct
  · exact ⟨_, hfound, launchedBy_launchedBy target _ _⟩
  · intro other hother hactive
    obtain ⟨existing, hexisting, rfl⟩ := List.mem_map.mp hother
    by_cases hcurrent : existing.id = runtime₁.activeReleaseId
    · rw [if_pos hcurrent] at hactive
      simp [isActive] at hactive
    · rw [if_neg hcurrent] at hactive ⊢
      by_cases hsame : existing.id = fallback
      · rw [if_pos hsame]
        exact ⟨hsame, by rw [hsame]⟩
      · rw [if_neg hsame] at hactive
        exact absurd (hkept.active existing hexisting hactive).1 hcurrent

theorem fallbackId_eq_active_iff {releaseId : Option String} :
    fallbackId runtime releaseId = some runtime.activeReleaseId ↔
      releaseId.or runtime.lastHealthyReleaseId = some runtime.activeReleaseId := by
  unfold fallbackId
  cases hnamed : releaseId.or runtime.lastHealthyReleaseId with
  | some named => simp
  | none =>
      refine iff_of_false (fun hother => ?_) (by simp)
      rw [Option.none_or] at hother
      obtain ⟨release, hfound, hid⟩ := Option.map_eq_some_iff.mp hother
      have hne := List.find?_some hfound
      simp [hid] at hne

theorem rollback_to_active (hkept : Kept server runtime) {releaseId : Option String}
    (h : rollbackManagedRuntime server now releaseId = .ok after)
    (hstays : fallbackId runtime releaseId = some runtime.activeReleaseId) :
    ¬ Coherent server (.rollback now releaseId) after := by
  obtain ⟨runtime₁, fallback, target, hruntime, hfallback, htarget, rfl⟩ := rollback_ok h
  obtain rfl := Option.some.inj (hruntime.symm.trans hkept.managed)
  obtain rfl := Option.some.inj (hfallback.symm.trans hstays)
  intro hcoherent
  have hfound : findRelease (runtime₁.releases.map fun release =>
      if release.id = runtime₁.activeReleaseId then { release with status := some .rolledBack }
      else if release.id = runtime₁.activeReleaseId then { release with status := some .active }
      else release) runtime₁.activeReleaseId = some { target with status := some .rolledBack } := by
    rw [findRelease_map (id_rolledBack _ _), htarget, Option.map_some,
      if_pos (mem_of_findRelease htarget).2]
  exact (hcoherent.settled now releaseId rfl _ _ rfl hfound).2 rfl

theorem Kept.launchedAfter (hkept : Kept server runtime) :
    ∃ runtime release, server.managedRuntime = some runtime ∧
      findRelease runtime.releases runtime.activeReleaseId = some release ∧
      Launches server release := by
  obtain ⟨release, hfound, hlaunched⟩ := hkept.launched
  exact ⟨runtime, release, hkept.managed, hfound, hlaunched.launches hkept.managed hfound⟩

theorem Kept.singleActive (hkept : Kept server runtime) :
    ∀ runtime, server.managedRuntime = some runtime →
      (runtime.releases.filter isActive).length ≤ 1 := by
  intro runtime' hruntime'
  obtain rfl := Option.some.inj (hkept.managed.symm.trans hruntime')
  exact length_filter_le_one hkept.distinct fun r hr hp => (hkept.active r hr hp).1

-- one call: what holds between the calls goes on, and the call is coherent unless it stays
theorem Kept.step (hkept : Kept server runtime) {call : RuntimeCall}
    (h : call.apply server = .ok after) (hdistinct : DistinctIds after) :
    (Coherent server call after ↔ Diverts server call after) ∧
      (Diverts server call after → ∃ runtime', Kept after runtime') := by
  cases call with
  | rollout now input =>
      have hrollout : rolloutManagedRuntime server now input = .ok after := h
      obtain ⟨runtime', hkept'⟩ := hkept.rollout hrollout hdistinct
      have hcoherent : Coherent server (.rollout now input) after :=
        ⟨hkept'.launchedAfter, hkept'.singleActive, fun _ _ hcall => (by cases hcall),
          fun _ hcall => (by cases hcall)⟩
      exact ⟨iff_of_true hcoherent fun _ _ _ hcall => (by cases hcall), fun _ => ⟨runtime', hkept'⟩⟩
  | markActive outcome =>
      rw [RuntimeCall.apply, hkept.managed] at h
      obtain rfl := Except.ok.inj h
      obtain ⟨runtime', hkept'⟩ := hkept.mark outcome
      have hcoherent : Coherent server (.markActive outcome)
          (markManagedRuntimeRelease server runtime.activeReleaseId outcome) :=
        ⟨hkept'.launchedAfter, hkept'.singleActive, fun _ _ hcall => (by cases hcall),
          fun _ hcall => (by cases hcall)⟩
      exact ⟨iff_of_true hcoherent fun _ _ _ hcall => (by cases hcall), fun _ => ⟨runtime', hkept'⟩⟩
  | rollback now releaseId =>
      have hrollback : rollbackManagedRuntime server now releaseId = .ok after := h
      by_cases hstays : fallbackId runtime releaseId = some runtime.activeReleaseId
      · have hnot : ¬ Diverts server (.rollback now releaseId) after := fun hdiverts =>
          hdiverts now releaseId runtime rfl hkept.managed (fallbackId_eq_active_iff.1 hstays)
        exact ⟨iff_of_false (rollback_to_active hkept hrollback hstays) hnot,
          fun hdiverts => absurd hdiverts hnot⟩
      · have hdiverts : Diverts server (.rollback now releaseId) after := by
          intro now' releaseId' runtime' hcall hruntime'
          obtain ⟨rfl, rfl⟩ := RuntimeCall.rollback.inj hcall
          obtain rfl := Option.some.inj (hkept.managed.symm.trans hruntime')
          exact fun hnamed => hstays (fallbackId_eq_active_iff.2 hnamed)
        obtain ⟨runtime', release, hkept', hfound, hactive, hmoved⟩ :=
          rollback_kept hkept hrollback hstays
        refine ⟨iff_of_true ⟨hkept'.launchedAfter, hkept'.singleActive, ?_, ?_⟩ hdiverts,
          fun _ => ⟨runtime', hkept'⟩⟩
        · intro _ _ _ runtime₂ release₂ hruntime₂ hfound₂
          obtain rfl := Option.some.inj (hkept'.managed.symm.trans hruntime₂)
          obtain rfl := Option.some.inj (hfound.symm.trans hfound₂)
          rw [hactive]
          exact ⟨by decide, by decide⟩
        · intro _ _ runtime₁ runtime₂ hruntime₁ hruntime₂ _
          obtain rfl := Option.some.inj (hkept.managed.symm.trans hruntime₁)
          obtain rfl := Option.some.inj (hkept'.managed.symm.trans hruntime₂)
          exact hmoved

theorem coherent_iff_of_kept (hkept : Kept server runtime) {calls : List RuntimeCall}
    (hdistinct : Along (fun _ _ after => DistinctIds after) server calls) :
    Along Coherent server calls ↔ Along Diverts server calls := by
  induction calls generalizing server runtime with
  | nil => exact Iff.rfl
  | cons call rest ih =>
      refine forall_congr' fun after => forall_congr' fun hafter => ?_
      obtain ⟨hids, hrest⟩ := hdistinct after hafter
      obtain ⟨hiff, hkeeps⟩ := hkept.step hafter hids
      rw [hiff]
      refine and_congr_right fun hdiverts => ?_
      obtain ⟨runtime', hkept'⟩ := hkeeps hdiverts
      exact ih hkept' hrest

end Calls

theorem kept_packageServer (host : LaunchHost) (now : Instant) (url : String)
    (input : PackageInput) :
    Kept (packageServer host now url input)
      (createManagedRuntimeForPackage host now { input with env := nonEmptyEnv input.env }) := by
  have hfound : findRelease (createManagedRuntimeForPackage host now
      { input with env := nonEmptyEnv input.env }).releases (createManagedRuntimeForPackage host now
        { input with env := nonEmptyEnv input.env }).activeReleaseId = some (createRelease now
      { version := input.version
        channel := input.defaults.defaultChannel.getD .stable
        command := input.command
        args := some input.args
        env := nonEmptyEnv input.env
        createdAt := now.iso
        status := .active }) := by
    simp [createManagedRuntimeForPackage, findRelease]
  refine ⟨rfl, List.nodup_singleton _, ⟨_, hfound, ⟨rfl, ?_, ?_⟩⟩, ?_⟩
  · simp only [packageServer, createRelease, nonEmptyArgs]
    cases input.args <;> simp [Option.filter]
  · simp only [packageServer, createRelease, nonEmptyEnv]
    cases input.env with
    | none => rfl
    | some env => by_cases h : env.entries = [] <;> simp [Option.filter, h]
  · intro release hrelease _
    obtain rfl := List.mem_singleton.mp hrelease
    exact ⟨rfl, rfl⟩

theorem release_history_coherent_iff {host : LaunchHost} {now : Instant} {url : String}
    {input : PackageInput} {calls : List RuntimeCall}
    (hdistinct : Along (fun _ _ after => DistinctIds after) (packageServer host now url input)
      calls) :
    Along Coherent (packageServer host now url input) calls ↔
      Along Diverts (packageServer host now url input) calls :=
  coherent_iff_of_kept (kept_packageServer host now url input) hdistinct

section Example

def plainLaunchHost : LaunchHost where
  joinPath a b := a ++ "/" ++ b
  assertSafeSystemPath path _ := .ok path
  mkdir _ := .ok ()
  processEnv := OrderedMap.empty

def examplePackage : PackageInput where
  serverId := "pkg-server"
  sourceType := .npm
  sourceRef := "@example/pkg-server"
  version := "1.0.0"
  command := "npx"
  args := ["-y", "@example/pkg-server@1.0.0"]

def exampleServer : StdioServerConfig :=
  packageServer plainLaunchHost ⟨1, "t1"⟩ "stdio://npx/@example/pkg-server" examplePackage

-- a second release that turns out healthy, and then a rollback without a release id
def rolledBackCalls : List RuntimeCall :=
  [.rollout ⟨2, "t2"⟩ { version := "2.0.0" }, .markActive .healthy, .rollback ⟨3, "t3"⟩ none]

theorem distinct_rolledBackCalls :
    Along (fun _ _ after => DistinctIds after) exampleServer rolledBackCalls := by
  rintro after hafter
  cases hafter
  refine ⟨fun runtime hruntime => ?_, ?_⟩
  · cases hruntime
    decide +kernel
  rintro after hafter
  cases hafter
  refine ⟨fun runtime hruntime => ?_, ?_⟩
  · cases hruntime
    decide +kernel
  rintro after hafter
  cases hafter
  refine ⟨fun runtime hruntime => ?_, trivial⟩
  cases hruntime
  decide +kernel

theorem release_history_coherent_rollout :
    Along Coherent exampleServer rolledBackCalls ↔ Along Diverts exampleServer rolledBackCalls :=
  release_history_coherent_iff distinct_rolledBackCalls

theorem rollback_stays_on_active :
    Along (fun _ _ after => DistinctIds after) exampleServer rolledBackCalls ∧
      ¬ Along Coherent exampleServer rolledBackCalls := by
  refine ⟨distinct_rolledBackCalls, fun hcoherent => ?_⟩
  have hdiverts := (coherent_iff_of_kept (kept_packageServer ..) distinct_rolledBackCalls).mp hcoherent
  obtain ⟨-, hmarked⟩ := hdiverts _ rfl
  obtain ⟨-, hrolled⟩ := hmarked _ rfl
  obtain ⟨hlast, -⟩ := hrolled _ rfl
  exact hlast ⟨3, "t3"⟩ none _ rfl rfl (by decide +kernel)

end Example

end Conduit.Runtime
