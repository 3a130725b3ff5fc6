import Conduit.Foundation.Run
import Conduit.Router.CircuitBreaker
import Mathlib.Data.List.Count

namespace Conduit.Router

structure AdmittedCall where
  id : ℕ
  period : Option ℕ
deriving DecidableEq, Repr

structure Traffic where
  breaker : CircuitBreaker
  period : ℕ
  inFlight : List AdmittedCall
  successes : ℕ
  closings : List ℕ
deriving DecidableEq, Repr

inductive TrafficEvent where
  | forward (id now : ℕ)
  | resolve (id : ℕ)
  | reject (id now : ℕ)
deriving DecidableEq, Repr

namespace Traffic

def init (config : CircuitBreakerConfig) : Traffic where
  breaker := .init config
  period := 0
  inFlight := []
  successes := 0
  closings := []

variable (T : Traffic)

def call? (id : ℕ) : Option AdmittedCall := T.inFlight.find? fun c => c.id = id

def ownCalls : ℕ := T.inFlight.countP fun c => c.period = some T.period

def isOwn (c : AdmittedCall) : Bool := T.breaker.state = .halfOpen ∧ c.period = some T.period

-- a period starts when an open breaker turns half-open
def withBreaker (B : CircuitBreaker) : Traffic :=
  if T.breaker.state = .opened ∧ B.state = .halfOpen then
    { T with breaker := B, period := T.period + 1, successes := 0 }
  else { T with breaker := B }

def enroll (id : ℕ) : Traffic :=
  { T with inFlight := T.inFlight ++
      [⟨id, if T.breaker.state = .halfOpen then some T.period else none⟩] }

def forward (id now : ℕ) : Traffic :=
  let (B, admitted) := T.breaker.canExecute now
  if admitted then (T.withBreaker B).enroll id else T.withBreaker B

def resolve (c : AdmittedCall) : Traffic :=
  let B := T.breaker.onSuccess
  let successes := if T.isOwn c then T.successes + 1 else T.successes
  { T with
    breaker := B
    inFlight := T.inFlight.erase c
    successes := successes
    closings :=
      if T.breaker.state = .halfOpen ∧ B.state = .closed then T.closings ++ [successes]
      else T.closings }

def reject (c : AdmittedCall) (now : ℕ) : Traffic :=
  { T with breaker := T.breaker.onFailure now, inFlight := T.inFlight.erase c }

def step : TrafficEvent → Option Traffic
  | .forward id now => if (T.call? id).isSome then none else some (T.forward id now)
  | .resolve id => (T.call? id).map T.resolve
  | .reject id now => (T.call? id).map fun c => T.reject c now

def OwnSuccess : TrafficEvent → Prop
  | .forward _ _ => True
  | .resolve id => T.breaker.state = .halfOpen → ∀ c ∈ T.call? id, c.period = some T.period
  | .reject _ _ => True

instance (e : TrafficEvent) : Decidable (T.OwnSuccess e) := by
  cases e <;> unfold OwnSuccess <;> infer_instance

def ProbesBounded (config : CircuitBreakerConfig) : Prop :=
  T.breaker.state = .halfOpen → T.ownCalls ≤ config.halfOpenMaxRequests

def ClosedByProbes (config : CircuitBreakerConfig) : Prop :=
  ∀ n ∈ T.closings, config.successThreshold ≤ n

structure Accounted (config : CircuitBreakerConfig) : Prop where
  maxRequests : T.breaker.halfOpenMaxRequests = config.halfOpenMaxRequests
  threshold : T.breaker.successThreshold = config.successThreshold
  pastPeriods : ∀ c ∈ T.inFlight, ∀ p ∈ c.period, p ≤ T.period
  slots : T.breaker.state = .halfOpen → T.breaker.halfOpenRequests = T.ownCalls
  bounded : T.ProbesBounded config
  counted : T.breaker.state = .halfOpen → T.breaker.successCount = T.successes
  closed : T.ClosedByProbes config

theorem accounted_init (config : CircuitBreakerConfig) : (init config).Accounted config where
  maxRequests := rfl
  threshold := rfl
  pastPeriods := by simp [init]
  slots := by simp [init, CircuitBreaker.init]
  bounded := by simp [ProbesBounded, init, CircuitBreaker.init]
  counted := by simp [init, CircuitBreaker.init]
  closed := by simp [ClosedByProbes, init]

variable {T} {config : CircuitBreakerConfig}

theorem mem_of_call? {id : ℕ} {c : AdmittedCall} (h : T.call? id = some c) : c ∈ T.inFlight :=
  List.mem_of_find?_eq_some h

def enterPeriod (T : Traffic) : Traffic :=
  { T with breaker := T.breaker.enterHalfOpen, period := T.period + 1, successes := 0 }

def probe (T : Traffic) (id : ℕ) : Traffic :=
  if T.breaker.admitProbe.2 then enroll { T with breaker := T.breaker.admitProbe.1 } id else T

theorem admitProbe_state (B : CircuitBreaker) : B.admitProbe.1.state = B.state := by
  unfold CircuitBreaker.admitProbe
  split <;> rfl

theorem admitProbe_refused {B : CircuitBreaker} (h : B.admitProbe.2 = false) :
    B.admitProbe.1 = B := by
  unfold CircuitBreaker.admitProbe at h ⊢
  split at h
  · simp at h
  · split
    · contradiction
    · rfl

theorem admitProbe_admitted {B : CircuitBreaker} (h : B.admitProbe.2 = true) :
    B.halfOpenRequests < B.halfOpenMaxRequests ∧
      B.admitProbe.1 = { B with halfOpenRequests := B.halfOpenRequests + 1 } := by
  unfold CircuitBreaker.admitProbe at h ⊢
  split at h
  next hslot => exact ⟨hslot, by simp [hslot]⟩
  next => simp at h

theorem forward_of_closed (h : T.breaker.state = .closed) (id now : ℕ) :
    T.forward id now = T.enroll id := by
  simp [forward, CircuitBreaker.canExecute, withBreaker, h]

theorem forward_of_waiting (h : T.breaker.state = .opened) {id now : ℕ}
    (hwait : T.breaker.timeoutElapsed now = false) : T.forward id now = T := by
  simp [forward, CircuitBreaker.canExecute, withBreaker, h, hwait]

theorem forward_of_halfOpen (h : T.breaker.state = .halfOpen) (id now : ℕ) :
    T.forward id now = T.probe id := by
  unfold forward CircuitBreaker.canExecute probe
  simp only [h]
  cases hprobe : T.breaker.admitProbe.2 with
  | true => simp [withBreaker, h]
  | false => simp [withBreaker, h, admitProbe_refused hprobe]

theorem forward_of_elapsed (h : T.breaker.state = .opened) {id now : ℕ}
    (helapsed : T.breaker.timeoutElapsed now = true) :
    T.forward id now = T.enterPeriod.probe id := by
  have hstate : T.breaker.enterHalfOpen.admitProbe.1.state = .halfOpen := admitProbe_state _
  unfold forward CircuitBreaker.canExecute probe
  simp only [h, helapsed, if_true]
  cases hprobe : T.breaker.enterHalfOpen.admitProbe.2 with
  | true => simp [withBreaker, h, hstate, enterPeriod, hprobe]
  | false =>
      rw [admitProbe_refused hprobe] at hstate ⊢
      simp [withBreaker, h, hstate, enterPeriod, hprobe]

theorem accounted_enroll_closed (h : T.Accounted config) (hstate : T.breaker.state = .closed)
    (id : ℕ) : (T.enroll id).Accounted config where
  maxRequests := h.maxRequests
  threshold := h.threshold
  pastPeriods := by
    intro c hc p hp
    rcases List.mem_append.mp hc with hold | hnew
    · exact h.pastPeriods c hold p hp
    · obtain rfl := List.mem_singleton.mp hnew
      simp [hstate] at hp
  slots := fun hhalf => absurd (hstate.symm.trans hhalf) (by decide)
  bounded := fun hhalf => absurd (hstate.symm.trans hhalf) (by decide)
  counted := fun hhalf => absurd (hstate.symm.trans hhalf) (by decide)
  closed := h.closed

theorem ownCalls_enterPeriod (h : T.Accounted config) : T.enterPeriod.ownCalls = 0 := by
  refine List.countP_eq_zero.mpr fun c hc => ?_
  intro hown
  have hle := h.pastPeriods c hc (T.period + 1) (of_decide_eq_true hown)
  omega

theorem accounted_enterPeriod (h : T.Accounted config) : T.enterPeriod.Accounted config where
  maxRequests := h.maxRequests
  threshold := h.threshold
  pastPeriods := fun c hc p hp => Nat.le_succ_of_le (h.pastPeriods c hc p hp)
  slots := fun _ => (ownCalls_enterPeriod h).symm
  bounded := fun _ => by rw [ownCalls_enterPeriod h]; exact Nat.zero_le _
  counted := fun _ => rfl
  closed := h.closed

theorem ownCalls_enroll (h : T.breaker.state = .halfOpen) (id : ℕ) :
    (T.enroll id).ownCalls = T.ownCalls + 1 := by
  simp [ownCalls, enroll, h, List.countP_append]

theorem accounted_probe (h : T.Accounted config) (hstate : T.breaker.state = .halfOpen)
    (id : ℕ) : (T.probe id).Accounted config := by
  unfold probe
  split
  next hprobe =>
    obtain ⟨hslot, hbreaker⟩ := admitProbe_admitted hprobe
    rw [hbreaker]
    have hown := ownCalls_enroll (T := { T with breaker := { T.breaker with
      halfOpenRequests := T.breaker.halfOpenRequests + 1 } }) hstate id
    have hslots := h.slots hstate
    refine ⟨h.maxRequests, h.threshold, ?_, ?_, ?_, h.counted, h.closed⟩
    · intro c hc p hp
      rcases List.mem_append.mp hc with hold | hnew
      · exact h.pastPeriods c hold p hp
      · obtain rfl := List.mem_singleton.mp hnew
        simp only [hstate, if_true, Option.mem_def, Option.some.injEq] at hp
        exact le_of_eq hp.symm
    · intro _
      rw [hown]
      exact congrArg (· + 1) hslots
    · intro _
      rw [hown, ← h.maxRequests]
      change T.ownCalls + 1 ≤ _
      omega
  next => exact h

theorem accounted_forward (h : T.Accounted config) (id now : ℕ) :
    (T.forward id now).Accounted config := by
  cases hstate : T.breaker.state with
  | closed =>
      rw [forward_of_closed hstate]
      exact accounted_enroll_closed h hstate id
  | halfOpen =>
      rw [forward_of_halfOpen hstate]
      exact accounted_probe h hstate id
  | opened =>
      cases helapsed : T.breaker.timeoutElapsed now with
      | false =>
          rw [forward_of_waiting hstate helapsed]
          exact h
      | true =>
          rw [forward_of_elapsed hstate helapsed]
          exact accounted_probe (accounted_enterPeriod h) rfl id

theorem ownCalls_erase {c : AdmittedCall} (hmem : c ∈ T.inFlight)
    (h : c.period = some T.period) :
    (T.inFlight.erase c).countP (fun c => c.period = some T.period) = T.ownCalls - 1 := by
  simp [ownCalls, List.countP_erase, hmem, h]

theorem accounted_reject (h : T.Accounted config) (c : AdmittedCall) (now : ℕ) :
    (T.reject c now).Accounted config := by
  have hpast : ∀ d ∈ (T.reject c now).inFlight, ∀ p ∈ d.period, p ≤ T.period :=
    fun d hd => h.pastPeriods d (List.mem_of_mem_erase hd)
  have hnot : (T.reject c now).breaker.state ≠ .halfOpen := by
    unfold reject CircuitBreaker.onFailure
    cases hstate : T.breaker.state with
    | closed => dsimp only; split <;> simp
    | halfOpen => simp
    | opened => simp
  have hconfig : (T.reject c now).breaker.halfOpenMaxRequests = config.halfOpenMaxRequests ∧
      (T.reject c now).breaker.successThreshold = config.successThreshold := by
    rw [← h.maxRequests, ← h.threshold]
    unfold reject CircuitBreaker.onFailure
    cases T.breaker.state with
    | closed => dsimp only; split <;> simp
    | halfOpen => simp
    | opened => simp
  exact ⟨hconfig.1, hconfig.2, hpast, fun hhalf => absurd hhalf hnot,
    fun hhalf => absurd hhalf hnot, fun hhalf => absurd hhalf hnot, h.closed⟩

theorem accounted_resolve_idle (h : T.Accounted config) (hstate : T.breaker.state ≠ .halfOpen)
    (c : AdmittedCall) : (T.resolve c).Accounted config := by
  have hpast : ∀ d ∈ (T.resolve c).inFlight, ∀ p ∈ d.period, p ≤ T.period :=
    fun d hd => h.pastPeriods d (List.mem_of_mem_erase hd)
  have hsame : T.breaker.onSuccess.state = T.breaker.state ∧
      T.breaker.onSuccess.halfOpenMaxRequests = config.halfOpenMaxRequests ∧
      T.breaker.onSuccess.successThreshold = config.successThreshold := by
    rw [← h.maxRequests, ← h.threshold]
    unfold CircuitBreaker.onSuccess
    cases hcase : T.breaker.state with
    | closed => simp
    | halfOpen => exact absurd hcase hstate
    | opened => simp [hcase]
  have hnot : (T.resolve c).breaker.state ≠ .halfOpen := fun hhalf =>
    hstate (hsame.1.symm.trans hhalf)
  have hclosed : (T.resolve c).ClosedByProbes config := by
    intro n hn
    simp only [resolve, hstate, false_and, if_false] at hn
    exact h.closed n hn
  exact ⟨hsame.2.1, hsame.2.2, hpast, fun hhalf => absurd hhalf hnot,
    fun hhalf => absurd hhalf hnot, fun hhalf => absurd hhalf hnot, hclosed⟩

theorem accounted_resolve_own (h : T.Accounted config) (hstate : T.breaker.state = .halfOpen)
    {c : AdmittedCall} (hmem : c ∈ T.inFlight) (hown : c.period = some T.period) :
    (T.resolve c).Accounted config := by
  have hpast : ∀ d ∈ (T.resolve c).inFlight, ∀ p ∈ d.period, p ≤ T.period :=
    fun d hd => h.pastPeriods d (List.mem_of_mem_erase hd)
  have hisOwn : T.isOwn c = true := by simp [isOwn, hstate, hown]
  have hcalls : (T.resolve c).ownCalls = T.ownCalls - 1 := ownCalls_erase hmem hown
  have hsuccesses : (T.resolve c).successes = T.successes + 1 := by simp [resolve, hisOwn]
  have hslots := h.slots hstate
  have hbounded := h.bounded hstate
  have hcounted := h.counted hstate
  rcases le_or_gt T.breaker.successThreshold (T.breaker.successCount + 1) with hclose | hopen
  · have hbreaker : T.breaker.onSuccess = { T.breaker with
        state := .closed, failureCount := 0, successCount := 0, halfOpenRequests := 0 } := by
      simp [CircuitBreaker.onSuccess, hstate, hclose]
    have hnot : (T.resolve c).breaker.state ≠ .halfOpen := by simp [resolve, hbreaker]
    refine ⟨?_, ?_, hpast, fun hhalf => absurd hhalf hnot, fun hhalf => absurd hhalf hnot,
      fun hhalf => absurd hhalf hnot, ?_⟩
    · simpa [resolve, hbreaker] using h.maxRequests
    · simpa [resolve, hbreaker] using h.threshold
    · intro n hn
      simp only [resolve, hbreaker, hstate, hisOwn, and_self, if_true] at hn
      rcases List.mem_append.mp hn with hold | hnew
      · exact h.closed n hold
      · obtain rfl := List.mem_singleton.mp hnew
        rw [← h.threshold, ← hcounted]
        exact hclose
  · have hbreaker : T.breaker.onSuccess = { T.breaker with
        successCount := T.breaker.successCount + 1
        halfOpenRequests := T.breaker.halfOpenRequests - 1 } := by
      simp [CircuitBreaker.onSuccess, hstate, not_le.mpr hopen]
    refine ⟨?_, ?_, hpast, ?_, ?_, ?_, ?_⟩
    · simpa [resolve, hbreaker] using h.maxRequests
    · simpa [resolve, hbreaker] using h.threshold
    · intro _
      rw [hcalls, ← hslots]
      simp [resolve, hbreaker]
    · intro _
      rw [hcalls]
      omega
    · intro _
      rw [hsuccesses, ← hcounted]
      simp [resolve, hbreaker]
    · intro n hn
      simp only [resolve, hbreaker, hstate, reduceCtorEq, and_false, if_false] at hn
      exact h.closed n hn

theorem accounted_step {T T' : Traffic} {e : TrafficEvent} (h : T.Accounted config)
    (hown : T.OwnSuccess e) (hstep : T.step e = some T') : T'.Accounted config := by
  cases e with
  | forward id now =>
      simp only [step, Option.ite_none_left_eq_some, Option.some.injEq] at hstep
      exact hstep.2 ▸ accounted_forward h id now
  | resolve id =>
      obtain ⟨c, hc, rfl⟩ := Option.map_eq_some_iff.mp hstep
      rcases eq_or_ne T.breaker.state .halfOpen with hhalf | hidle
      · exact accounted_resolve_own h hhalf (mem_of_call? hc) (hown hhalf c hc)
      · exact accounted_resolve_idle h hidle c
  | reject id now =>
      obtain ⟨c, -, rfl⟩ := Option.map_eq_some_iff.mp hstep
      exact accounted_reject h c now

theorem half_open_period_sound (config : CircuitBreakerConfig) (es : List TrafficEvent)
    (T : Traffic) (hown : Transition.Along step OwnSuccess (init config) es)
    (hrun : Transition.run step (init config) es = some T) :
    T.ProbesBounded config ∧ T.ClosedByProbes config := by
  have h := Transition.run_invariant step (fun _ _ _ hT hg he => accounted_step hT hg he)
    (accounted_init config) hown hrun
  exact ⟨h.bounded, h.closed⟩

def tripped : List TrafficEvent :=
  [.forward 1 0, .reject 1 0, .forward 2 0, .reject 2 0, .forward 3 0, .reject 3 0,
    .forward 4 0, .reject 4 0, .forward 5 0, .reject 5 0]

def recoveryRun : List TrafficEvent :=
  tripped ++ [.forward 6 30000, .resolve 6, .forward 7 30000, .resolve 7]

theorem half_open_period_sound_recovery :
    Transition.Along step OwnSuccess (init {}) recoveryRun ∧
      ∃ T, Transition.run step (init {}) recoveryRun = some T ∧ T.closings = [2] ∧
        T.ProbesBounded {} ∧ T.ClosedByProbes {} :=
  ⟨by decide, _, rfl, rfl, half_open_period_sound {} recoveryRun _ (by decide) rfl⟩

-- call 0 is admitted while the breaker is closed and answered in the half-open period
theorem stale_success_breaks_half_open_period :
    (∃ T, Transition.run step (init {}) (.forward 0 0 :: tripped ++
        [.forward 6 30000, .resolve 0, .forward 7 30000]) = some T ∧ ¬T.ProbesBounded {}) ∧
      ∃ T, Transition.run step (init {}) (.forward 0 0 :: tripped ++
        [.forward 6 30000, .resolve 0, .resolve 6]) = some T ∧ ¬T.ClosedByProbes {} := by
  refine ⟨⟨_, rfl, ?_⟩, _, rfl, ?_⟩
  · intro hbounded
    exact absurd (hbounded rfl) (by decide)
  · intro hclosed
    exact absurd (hclosed 1 (by decide)) (by decide)

end Traffic

end Conduit.Router
