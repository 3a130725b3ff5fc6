import Conduit.Router.Registry
import Mathlib.Data.List.DropRight

namespace Conduit.Router

section Streak

def streak (b : Bool) (outcomes : List Bool) : ℕ := (outcomes.rtakeWhile (· == b)).length

@[simp] theorem streak_concat (b c : Bool) (outcomes : List Bool) :
    streak b (outcomes ++ [c]) = if c = b then streak b outcomes + 1 else 0 := by
  cases b <;> cases c <;> simp [streak]

end Streak

structure ReplicaCheck where
  client : ClientRef
  succeeded : Bool
  latencyMs : ℕ := 0
  now : ℕ := 0
deriving DecidableEq, Repr

def BackendHealth.checked (healthConfig : HealthCheckConfig) (health : BackendHealth)
    (check : ReplicaCheck) : BackendHealth :=
  if check.succeeded then
    ServerRegistry.replicaSucceeded healthConfig check.latencyMs check.now health
  else ServerRegistry.replicaFailed healthConfig check.latencyMs check.now health

structure Counted (healthConfig : HealthCheckConfig) (outcomes : List Bool)
    (health : BackendHealth) : Prop where
  failures : health.consecutiveFailures = streak false outcomes
  successes : health.consecutiveSuccesses = streak true outcomes
  healthy : health.healthy = true → health.consecutiveFailures ≠ 0 →
    health.consecutiveFailures < healthConfig.unhealthyThreshold
  unhealthy : health.healthy = false → health.consecutiveSuccesses ≠ 0 →
    health.consecutiveSuccesses < healthConfig.healthyThreshold
  failed : health.healthy = false → health.consecutiveSuccesses = 0 →
    healthConfig.unhealthyThreshold ≤ health.consecutiveFailures

namespace Counted

variable {healthConfig : HealthCheckConfig} {outcomes : List Bool} {health : BackendHealth}

theorem start (hhealthy : health.healthy = true) (hfailures : health.consecutiveFailures = 0)
    (hsuccesses : health.consecutiveSuccesses = 0) : Counted healthConfig [] health where
  failures := hfailures
  successes := hsuccesses
  healthy := fun _ h => absurd hfailures h
  unhealthy := fun h => absurd hhealthy (by simp [h])
  failed := fun h => absurd hhealthy (by simp [h])

theorem checked (h : Counted healthConfig outcomes health) (check : ReplicaCheck) :
    Counted healthConfig (outcomes ++ [check.succeeded]) (health.checked healthConfig check) := by
  have hfailures := h.failures
  have hsuccesses := h.successes
  cases hcheck : check.succeeded with
  | true =>
      constructor
      · simp [BackendHealth.checked, hcheck, ServerRegistry.replicaSucceeded]
      · simp [BackendHealth.checked, hcheck, ServerRegistry.replicaSucceeded, hsuccesses]
      · simp [BackendHealth.checked, hcheck, ServerRegistry.replicaSucceeded]
      · intro hafter _
        simp only [BackendHealth.checked, hcheck, if_true, ServerRegistry.replicaSucceeded] at hafter ⊢
        split at hafter <;> simp_all
      · simp [BackendHealth.checked, hcheck, ServerRegistry.replicaSucceeded]
  | false =>
      constructor
      · simp [BackendHealth.checked, hcheck, ServerRegistry.replicaFailed, hfailures]
      · simp [BackendHealth.checked, hcheck, ServerRegistry.replicaFailed]
      · intro hafter _
        simpa [BackendHealth.checked, hcheck, ServerRegistry.replicaFailed] using hafter
      · simp [BackendHealth.checked, hcheck, ServerRegistry.replicaFailed]
      · intro hafter _
        simpa [BackendHealth.checked, hcheck, ServerRegistry.replicaFailed] using hafter

theorem degrades (h : Counted healthConfig outcomes health) {check : ReplicaCheck}
    (hbefore : health.healthy = true) (hafter : (health.checked healthConfig check).healthy = false) :
    check.succeeded = false ∧
      streak false (outcomes ++ [check.succeeded]) = max healthConfig.unhealthyThreshold 1 := by
  cases hcheck : check.succeeded with
  | true =>
      simp [BackendHealth.checked, hcheck, ServerRegistry.replicaSucceeded, hbefore] at hafter
  | false =>
      have hreached : healthConfig.unhealthyThreshold ≤ health.consecutiveFailures + 1 := by
        simpa [BackendHealth.checked, hcheck, ServerRegistry.replicaFailed] using hafter
      have hbelow := h.healthy hbefore
      have hfailures := h.failures
      refine ⟨rfl, ?_⟩
      rw [streak_concat, if_pos rfl]
      omega

theorem recovers (h : Counted healthConfig outcomes health) {check : ReplicaCheck}
    (hcheck : check.succeeded = true) (hbefore : health.healthy = false)
    (hafter : (health.checked healthConfig check).healthy = true) :
    streak true (outcomes ++ [check.succeeded]) = max healthConfig.healthyThreshold 1 := by
  have hreached : healthConfig.healthyThreshold ≤ health.consecutiveSuccesses + 1 := by
    simpa [BackendHealth.checked, hcheck, ServerRegistry.replicaSucceeded, hbefore] using hafter
  have hbelow := h.unhealthy hbefore
  have hsuccesses := h.successes
  rw [hcheck, streak_concat, if_pos rfl]
  omega

end Counted

namespace ServerRegistry

variable {R : ServerRegistry} {client : ClientRef} {checks before : List ReplicaCheck}
  {check : ReplicaCheck} {r : ReplicaInfo}

def runCheck (R : ServerRegistry) (check : ReplicaCheck) : ServerRegistry :=
  R.checkReplicaHealth check.client check.succeeded check.latencyMs check.now

def runChecks (R : ServerRegistry) (checks : List ReplicaCheck) : ServerRegistry :=
  checks.foldl runCheck R

def ownChecks (client : ClientRef) (checks : List ReplicaCheck) : List ReplicaCheck :=
  checks.filter fun check => check.client = client

def outcomes (client : ClientRef) (checks : List ReplicaCheck) : List Bool :=
  (ownChecks client checks).map ReplicaCheck.succeeded

def health? (R : ServerRegistry) (client : ClientRef) : Option BackendHealth :=
  (R.replica? client).map ReplicaInfo.health

def healthy? (R : ServerRegistry) (client : ClientRef) : Option Bool :=
  (R.health? client).map BackendHealth.healthy

@[simp] theorem healthConfig_runCheck (R : ServerRegistry) (check : ReplicaCheck) :
    (R.runCheck check).healthConfig = R.healthConfig := by
  rw [runCheck, checkReplicaHealth, updateReplica, updateServer]
  split <;> rfl

theorem health?_runCheck (R : ServerRegistry) (check : ReplicaCheck) (client : ClientRef) :
    (R.runCheck check).health? client =
      if check.client = client then
        (R.health? client).map fun health => health.checked R.healthConfig check
      else R.health? client := by
  rw [health?, health?, runCheck, checkReplicaHealth, replica?_updateReplica]
  split
  · cases R.replica? client <;> rfl
  · rfl

theorem runChecks_concat (R : ServerRegistry) (checks : List ReplicaCheck) (check : ReplicaCheck) :
    R.runChecks (checks ++ [check]) = (R.runChecks checks).runCheck check := by
  simp [runChecks]

@[simp] theorem healthConfig_runChecks (R : ServerRegistry) (checks : List ReplicaCheck) :
    (R.runChecks checks).healthConfig = R.healthConfig := by
  induction checks using List.reverseRecOn with
  | nil => rfl
  | append_singleton checks check ih => rw [runChecks_concat, healthConfig_runCheck, ih]

theorem outcomes_concat (client : ClientRef) (checks : List ReplicaCheck) (check : ReplicaCheck) :
    outcomes client (checks ++ [check]) =
      if check.client = client then outcomes client checks ++ [check.succeeded]
      else outcomes client checks := by
  by_cases h : check.client = client <;> simp [outcomes, ownChecks, h]

structure Started (R : ServerRegistry) (client : ClientRef) (health : BackendHealth) : Prop where
  present : R.health? client = some health
  healthy : health.healthy = true
  failures : health.consecutiveFailures = 0
  successes : health.consecutiveSuccesses = 0

def StartsHealthy (info : ServerInfo) : Prop :=
  ∀ r ∈ info.replicas, r.health.healthy = true ∧ r.health.consecutiveFailures = 0 ∧
    r.health.consecutiveSuccesses = 0

theorem startsHealthy_buildServer (circuitBreaker : Option CircuitBreakerConfig)
    (server : ServerConfig) : StartsHealthy (buildServer circuitBreaker server) := by
  intro r hr
  obtain ⟨idx, hidx, rfl⟩ := List.mem_mapIdx.mp hr
  exact ⟨rfl, rfl, rfl⟩

theorem started_init (router : RouterConfig) (servers : List ServerConfig)
    (hr : (init router servers).replica? client = some r) :
    (init router servers).Started client r.health := by
  obtain ⟨info, hinfo, hidx⟩ := Option.bind_eq_some_iff.mp hr
  have hstart : StartsHealthy info :=
    @forall_init (fun _ info => StartsHealthy info) router
      (fun server => startsHealthy_buildServer router.circuitBreaker server) servers _ info hinfo
  have hreplica := hstart r (List.mem_of_getElem? hidx)
  exact ⟨by rw [health?, hr]; rfl, hreplica.1, hreplica.2.1, hreplica.2.2⟩

theorem Started.counted {start : BackendHealth} (h : R.Started client start)
    (checks : List ReplicaCheck) :
    ∃ health, (R.runChecks checks).health? client = some health ∧
      Counted R.healthConfig (outcomes client checks) health := by
  induction checks using List.reverseRecOn with
  | nil => exact ⟨start, h.present, .start h.healthy h.failures h.successes⟩
  | append_singleton checks check ih =>
      obtain ⟨health, hhealth, hcounted⟩ := ih
      rw [runChecks_concat, health?_runCheck, outcomes_concat]
      by_cases hown : check.client = client
      · refine ⟨health.checked R.healthConfig check, ?_, ?_⟩
        · rw [if_pos hown, hhealth, healthConfig_runChecks]
          rfl
        · rw [if_pos hown]
          exact hcounted.checked check
      · rw [if_neg hown, if_neg hown]
        exact ⟨health, hhealth, hcounted⟩

def Completes (R : ServerRegistry) (client : ClientRef) (succeeded : Bool)
    (before : List ReplicaCheck) (check : ReplicaCheck) : Prop :=
  check.client = client ∧ check.succeeded = succeeded ∧
    streak succeeded (outcomes client (before ++ [check])) =
      max (if succeeded then R.healthConfig.healthyThreshold
        else R.healthConfig.unhealthyThreshold) 1

structure TurnsLawfully (R : ServerRegistry) (client : ClientRef) (before : List ReplicaCheck)
    (check : ReplicaCheck) : Prop where
  degrades : (R.runChecks before).healthy? client = some true →
    (R.runChecks (before ++ [check])).healthy? client = some false →
    R.Completes client false before check
  recovers : (R.runChecks before).healthy? client = some false →
    (R.runChecks (before ++ [check])).healthy? client = some true →
    R.Completes client true before check

def Hysteretic (R : ServerRegistry) (client : ClientRef) (checks : List ReplicaCheck) : Prop :=
  ∀ before check, before ++ [check] <+: checks → R.TurnsLawfully client before check

def Forgets (R : ServerRegistry) (client : ClientRef) (before : List ReplicaCheck)
    (check : ReplicaCheck) : Prop :=
  check.client = client ∧ check.succeeded = false ∧
    ∃ health ∈ (R.runChecks before).health? client, health.healthy = false ∧
      health.consecutiveFailures + 1 < R.healthConfig.unhealthyThreshold

theorem health?_concat {check : ReplicaCheck} (hown : check.client = client) {health : BackendHealth}
    (hhealth : (R.runChecks before).health? client = some health) :
    (R.runChecks (before ++ [check])).health? client =
      some (health.checked R.healthConfig check) := by
  rw [runChecks_concat, health?_runCheck, if_pos hown, hhealth, healthConfig_runChecks]
  rfl

theorem health?_concat_other (hown : check.client ≠ client) :
    (R.runChecks (before ++ [check])).health? client = (R.runChecks before).health? client := by
  rw [runChecks_concat, health?_runCheck, if_neg hown]

theorem Started.turnsLawfully_iff {start : BackendHealth} (h : R.Started client start) :
    R.TurnsLawfully client before check ↔ ¬ R.Forgets client before check := by
  obtain ⟨health, hhealth, hcounted⟩ := h.counted before
  by_cases hown : check.client = client
  · have hafter := health?_concat hown hhealth
    have houtcomes : outcomes client (before ++ [check]) =
        outcomes client before ++ [check.succeeded] := by rw [outcomes_concat, if_pos hown]
    constructor
    · rintro hlaw ⟨-, hcheck, health', hhealth', hdown, hfew⟩
      obtain rfl : health = health' := Option.some.inj (hhealth.symm.trans hhealth')
      have hup : (health.checked R.healthConfig check).healthy = true := by
        simpa [BackendHealth.checked, hcheck, replicaFailed] using hfew
      have hcompleted : R.Completes client true before check :=
        hlaw.recovers (by simp [healthy?, hhealth, hdown]) (by simp [healthy?, hafter, hup])
      simp [hcompleted.2.1] at hcheck
    · intro hkept
      constructor
      · intro hup hdown
        have hdown' : (health.checked R.healthConfig check).healthy = false := by
          simpa [healthy?, hafter] using hdown
        have hturn := hcounted.degrades (by simpa [healthy?, hhealth] using hup) hdown'
        refine ⟨hown, hturn.1, ?_⟩
        rw [houtcomes]
        exact hturn.2
      · intro hdown hup
        have hdown' : health.healthy = false := by simpa [healthy?, hhealth] using hdown
        have hup' : (health.checked R.healthConfig check).healthy = true := by
          simpa [healthy?, hafter] using hup
        have hcheck : check.succeeded = true := by
          by_contra hfailed
          refine hkept ⟨hown, by simpa using hfailed, health, hhealth, hdown', ?_⟩
          simpa [BackendHealth.checked, hfailed, replicaFailed] using hup'
        refine ⟨hown, hcheck, ?_⟩
        rw [houtcomes]
        exact hcounted.recovers hcheck hdown' hup'
  · have hsame : (R.runChecks (before ++ [check])).healthy? client =
        (R.runChecks before).healthy? client := by
      rw [healthy?, health?_concat_other hown, healthy?]
    constructor
    · exact fun _ hforgets => hown hforgets.1
    · intro _
      constructor
      · intro hup hdown
        rw [hsame, hup] at hdown
        cases hdown
      · intro hdown hup
        rw [hsame, hdown] at hup
        cases hup

theorem Started.hysteretic_iff {start : BackendHealth} (h : R.Started client start) :
    R.Hysteretic client checks ↔
      ∀ before check, before ++ [check] <+: checks → ¬ R.Forgets client before check := by
  constructor
  · intro hlaw before check hextends
    exact h.turnsLawfully_iff.mp (hlaw before check hextends)
  · intro hkept before check hextends
    exact h.turnsLawfully_iff.mpr (hkept before check hextends)

theorem Started.not_forgets {start : BackendHealth} (h : R.Started client start)
    (hthreshold : R.healthConfig.unhealthyThreshold ≤ 1 ∨ R.healthConfig.healthyThreshold ≤ 1) :
    ¬ R.Forgets client before check := by
  rintro ⟨-, -, health, hhealth, hdown, hfew⟩
  obtain ⟨health', hhealth', hcounted⟩ := h.counted before
  obtain rfl : health' = health := Option.some.inj (hhealth'.symm.trans hhealth)
  have hslow := hcounted.unhealthy hdown
  have hfailed := hcounted.failed hdown
  omega

def relapse (client : ClientRef) (unhealthyThreshold : ℕ) : List ReplicaCheck :=
  List.replicate unhealthyThreshold ⟨client, false, 0, 0⟩ ++ [⟨client, true, 0, 0⟩]

theorem outcomes_replicate (client : ClientRef) (n : ℕ) :
    streak false (outcomes client (List.replicate n ⟨client, false, 0, 0⟩)) = n := by
  induction n with
  | zero => rfl
  | succ n ih => rw [List.replicate_succ', outcomes_concat, if_pos rfl, streak_concat, if_pos rfl, ih]

theorem Started.forgets_relapse {start : BackendHealth} (h : R.Started client start)
    (hunhealthy : 1 < R.healthConfig.unhealthyThreshold)
    (hhealthy : 1 < R.healthConfig.healthyThreshold) :
    R.Forgets client (relapse client R.healthConfig.unhealthyThreshold) ⟨client, false, 0, 0⟩ := by
  obtain ⟨n, hn⟩ : ∃ n, R.healthConfig.unhealthyThreshold = n + 1 :=
    ⟨_, (Nat.succ_pred_eq_of_pos (by omega)).symm⟩
  obtain ⟨health, hhealth, hcounted⟩ := h.counted (List.replicate n ⟨client, false, 0, 0⟩)
  have hfailures : health.consecutiveFailures = n :=
    hcounted.failures.trans (outcomes_replicate client n)
  have hdown := @health?_concat R client _ ⟨client, false, 0, 0⟩ rfl health hhealth
  rw [← List.replicate_succ', ← hn] at hdown
  have hslow := @health?_concat R client _ ⟨client, true, 0, 0⟩ rfl _ hdown
  refine ⟨rfl, rfl, _, hslow, ?_, ?_⟩
  · simp [BackendHealth.checked, replicaSucceeded, replicaFailed, hfailures, hn]
    omega
  · simpa [BackendHealth.checked, replicaSucceeded] using hunhealthy

theorem hysteresis_iff {start : BackendHealth} (h : R.Started client start) :
    (∀ checks, R.Hysteretic client checks ↔
      ∀ before check, before ++ [check] <+: checks → ¬ R.Forgets client before check) ∧
    ((∀ checks, R.Hysteretic client checks) ↔
      R.healthConfig.unhealthyThreshold ≤ 1 ∨ R.healthConfig.healthyThreshold ≤ 1) := by
  refine ⟨fun checks => h.hysteretic_iff, ?_, ?_⟩
  · intro hlaw
    by_contra hthreshold
    obtain ⟨hunhealthy, hhealthy⟩ := not_or.mp hthreshold
    refine h.hysteretic_iff.mp (hlaw _) _ _ (List.prefix_refl _) (h.forgets_relapse ?_ ?_)
    · omega
    · omega
  · intro hthreshold checks
    exact h.hysteretic_iff.mpr fun before check _ => h.not_forgets hthreshold

def slowRouter : RouterConfig := { healthCheck := { healthyThreshold := 2 } }

def slowRegistry : ServerRegistry := init slowRouter [{ id := "crm", url := "http://crm.internal" }]

theorem hysteresis_iff_slow :
    (∀ checks, slowRegistry.Hysteretic ⟨"crm", 0⟩ checks ↔
      ∀ before check, before ++ [check] <+: checks →
        ¬ slowRegistry.Forgets ⟨"crm", 0⟩ before check) ∧
    ((∀ checks, slowRegistry.Hysteretic ⟨"crm", 0⟩ checks) ↔ 3 ≤ 1 ∨ 2 ≤ 1) :=
  hysteresis_iff (started_init slowRouter _ (r := (slowRegistry.replica? ⟨"crm", 0⟩).get (by decide))
    (Option.some_get _).symm)

theorem failure_recovers_replica :
    ¬ slowRegistry.Hysteretic ⟨"crm", 0⟩
      [⟨⟨"crm", 0⟩, false, 0, 0⟩, ⟨⟨"crm", 0⟩, false, 0, 0⟩, ⟨⟨"crm", 0⟩, false, 0, 0⟩,
        ⟨⟨"crm", 0⟩, true, 0, 0⟩, ⟨⟨"crm", 0⟩, false, 0, 0⟩] := by
  intro hlaw
  have hcompleted := (hlaw [⟨⟨"crm", 0⟩, false, 0, 0⟩, ⟨⟨"crm", 0⟩, false, 0, 0⟩,
    ⟨⟨"crm", 0⟩, false, 0, 0⟩, ⟨⟨"crm", 0⟩, true, 0, 0⟩] ⟨⟨"crm", 0⟩, false, 0, 0⟩
    (List.prefix_refl _)).recovers (by decide) (by decide)
  exact absurd hcompleted.2.1 (by decide)

end ServerRegistry

end Conduit.Router
