import Conduit.Proxy.StdioChildren
import Conduit.Router.CircuitBreaker

namespace Conduit.Proxy

open Router

-- what happens to the children of one client, the latest first; a child dies with the first word
-- of its end
inductive RespawnEvent where
  | spawned (child time : ℕ)
  | died (child time : ℕ) (wasExternalSignal : Bool)
  | reset
deriving DecidableEq, Repr

def bornAt (child : ℕ) : List RespawnEvent → ℕ
  | [] => 0
  | .spawned c time :: past => if c = child then time else bornAt child past
  | _ :: past => bornAt child past

-- how many children in a row have died early and by themselves since the last reset
def fastFailures : List RespawnEvent → ℕ
  | [] => 0
  | .spawned _ _ :: past => fastFailures past
  | .died child time wasExternalSignal :: past =>
      if wasExternalSignal = false ∧ time - bornAt child past < fastFailureThresholdMs then
        fastFailures past + 1
      else 0
  | .reset :: _ => 0

def lastDeath : List RespawnEvent → ℕ
  | [] => 0
  | .died _ time _ :: _ => time
  | _ :: past => lastDeath past

def respawnBackoff (failures : ℕ) : ℕ :=
  min (respawnBackoffBaseMs * 2 ^ (failures - 1)) maxRespawnBackoffMs

namespace ChildEvent

def death? : ChildEvent → Option (ℕ × Bool)
  | .exit child wasExternalSignal => some (child, wasExternalSignal)
  | .error child => some (child, false)
  | _ => none

def isForward : ChildEvent → Bool
  | .forward _ _ _ _ _ => true
  | _ => false

end ChildEvent

-- `settled` is the breaker hearing how a forward of it has ended
inductive RespawnAct where
  | child (e : ChildEvent)
  | settled (succeeded : Bool)
  | resetCircuits

-- a stdio client with its circuit breaker; `charged` are the children counted as fast failures,
-- and `freshlyReset` holds until a call, a death or a settlement follows the reset of the circuits
structure RespawnWorld where
  children : Children
  breaker : Option CircuitBreaker
  history : List RespawnEvent
  charged : List ℕ
  freshlyReset : Bool

namespace RespawnWorld

variable (parse : String → Option Json)

def start (breaker : Option CircuitBreaker) (now : ℕ) : RespawnWorld where
  children := .init now
  breaker := breaker
  history := []
  charged := []
  freshlyReset := false

variable (w : RespawnWorld)

def canExecute : RespawnWorld × Bool :=
  match w.breaker with
  | none => (w, true)
  | some B =>
      ({ w with breaker := some (B.canExecute w.children.clock).1 },
        (B.canExecute w.children.clock).2)

def record (e : ChildEvent) (S' : Children) : List RespawnEvent :=
  match e with
  | .forward _ _ _ _ _ =>
      if w.children.spawned < S'.spawned then
        .spawned w.children.spawned w.children.clock :: w.history
      else w.history
  | .exit child wasExternalSignal =>
      if child ∈ w.children.gone then w.history
      else .died child w.children.clock wasExternalSignal :: w.history
  | .error child =>
      if child ∈ w.children.gone then w.history
      else .died child w.children.clock false :: w.history
  | .resetRespawnBudget => .reset :: w.history
  | _ => w.history

def charge (e : ChildEvent) (S' : Children) : List ℕ :=
  match e.death? with
  | some (child, _) =>
      if w.children.consecutiveFastFailures < S'.consecutiveFastFailures then child :: w.charged
      else w.charged
  | none => w.charged

def observe (e : ChildEvent) (S' : Children) : RespawnWorld :=
  { w with
    children := S'
    history := w.record e S'
    charged := w.charge e S'
    freshlyReset := w.freshlyReset && !e.isForward && e.death?.isNone }

def refuse (call : ℕ) : RespawnWorld :=
  { w with
    children := { w.children with calls := w.children.calls ++ [call] }.reject [call]
    freshlyReset := false }

def resetCircuitBreaker : RespawnWorld :=
  { w with
    breaker := w.breaker.map CircuitBreaker.reset
    history := .reset :: w.history
    freshlyReset := true }

def hear (succeeded : Bool) : RespawnWorld :=
  { w with
    breaker := w.breaker.map fun B =>
      if succeeded then B.onSuccess else B.onFailure w.children.clock
    freshlyReset := false }

def step : RespawnAct → Option RespawnWorld
  | .child (.forward call message timeoutMs launched flushed) =>
      if w.canExecute.2 then
        (w.children.step parse (.forward call message timeoutMs launched flushed)).map
          (w.canExecute.1.observe (.forward call message timeoutMs launched flushed))
      else some (w.canExecute.1.refuse call)
  | .child e => (w.children.step parse e).map (w.observe e)
  | .settled succeeded => some (w.hear succeeded)
  | .resetCircuits => some w.resetCircuitBreaker

-- the call would find a child or spawn one
def mayForward : Bool := w.canExecute.2 && (w.children.ensureProcess true).isSome

structure WithinBudget (act : RespawnAct) : Prop where
  countedOnce : ∀ w' ∈ w.step parse act, w'.charged.Nodup
  inARow : ∀ w' ∈ w.step parse act, fastFailures w'.history ≤ maxConsecutiveFastFailures
  spaced : ∀ w' ∈ w.step parse act, w.children.spawned < w'.children.spawned →
    fastFailures w.history < maxConsecutiveFastFailures ∧
      (0 < fastFailures w.history →
        lastDeath w.history + respawnBackoff (fastFailures w.history) ≤ w.children.clock)
  reopened : ∀ e, act = .child e → e.isForward = true → w.freshlyReset = true →
    w.children.stopped = false → w.mayForward = true

-- a child's end is heard of once, and the circuits are reset only when a spawn is allowed anyway
def Regular : RespawnAct → Prop
  | .child e => ∀ death ∈ e.death?, death.1 ∉ w.children.gone
  | .settled _ => True
  | .resetCircuits =>
      w.children.consecutiveFastFailures < maxConsecutiveFastFailures ∧
        w.children.nextRespawnAllowedAt ≤ w.children.clock

instance : ∀ act, Decidable (w.Regular act)
  | .child e => inferInstanceAs (Decidable (∀ death ∈ e.death?, death.1 ∉ w.children.gone))
  | .settled _ => isTrue trivial
  | .resetCircuits => inferInstanceAs (Decidable (_ ∧ _))

end RespawnWorld

namespace Children

variable {parse : String → Option Json} {S S' : Children}

-- the fields that decide when the next child is spawned
structure Stays (S S' : Children) : Prop where
  process : S'.process = S.process
  spawned : S'.spawned = S.spawned
  gone : S'.gone = S.gone
  clock : S.clock ≤ S'.clock
  lastSpawnAt : S'.lastSpawnAt = S.lastSpawnAt
  failures : S'.consecutiveFastFailures = S.consecutiveFastFailures
  allowedAt : S'.nextRespawnAllowedAt = S.nextRespawnAllowedAt

structure Spawns (S S' : Children) : Prop where
  limit : S.consecutiveFastFailures < maxConsecutiveFastFailures
  cooled : S.nextRespawnAllowedAt ≤ S.clock
  process : S'.process = some S.spawned
  spawned : S'.spawned = S.spawned + 1
  gone : S'.gone = S.gone
  clock : S'.clock = S.clock
  lastSpawnAt : S'.lastSpawnAt = S.clock
  failures : S'.consecutiveFastFailures = S.consecutiveFastFailures
  allowedAt : S'.nextRespawnAllowedAt = S.nextRespawnAllowedAt

structure Dies (S S' : Children) (child : ℕ) (wasExternalSignal : Bool) : Prop where
  process : S'.process = none
  spawned : S'.spawned = S.spawned
  gone : ∀ c, c ∈ S'.gone ↔ c = child ∨ c ∈ S.gone
  clock : S'.clock = S.clock
  lastSpawnAt : S'.lastSpawnAt = S.lastSpawnAt
  failures : S'.consecutiveFastFailures = (S.recordExit wasExternalSignal).consecutiveFastFailures
  allowedAt : S'.nextRespawnAllowedAt = (S.recordExit wasExternalSignal).nextRespawnAllowedAt

def respawnFields : (Option ℕ × ℕ × List ℕ × List (ℕ × Bool)) × ℕ × ℕ × ℕ × ℕ :=
  (S.lineage, S.clock, S.lastSpawnAt, S.consecutiveFastFailures, S.nextRespawnAllowedAt)

theorem stays_of_eq (h : S'.respawnFields = S.respawnFields) : Stays S S' := by
  simp only [respawnFields, lineage, Prod.mk.injEq] at h
  obtain ⟨⟨hprocess, hspawned, herrored, hended⟩, hclock, hspawn, hfailures, hallowed⟩ := h
  refine ⟨hprocess, hspawned, ?_, hclock.ge, hspawn, hfailures, hallowed⟩
  rw [gone, herrored, hended]
  rfl

theorem spawns_of_spawn {launched : Bool} {child : ℕ}
    (h : S.spawn launched = some (child, S')) : Spawns S S' := by
  unfold spawn at h
  split at h
  · cases h
  split at h
  · cases h
  next hlimit =>
    split at h
    · cases h
    next hcooled =>
      split at h
      · cases h
      · obtain ⟨-, rfl⟩ := Prod.mk.inj (Option.some.inj h)
        exact ⟨Nat.lt_of_not_le hlimit, Nat.le_of_not_lt hcooled, rfl, rfl, rfl, rfl, rfl, rfl, rfl⟩

theorem stays_or_spawns_of_ensureProcess {launched : Bool} {child : ℕ}
    (h : S.ensureProcess launched = some (child, S')) : Stays S S' ∨ Spawns S S' := by
  unfold ensureProcess at h
  split at h
  next current =>
    split at h
    · obtain ⟨-, rfl⟩ := Prod.mk.inj (Option.some.inj h)
      exact .inl (stays_of_eq rfl)
    · exact .inr (spawns_of_spawn h)
  next => exact .inr (spawns_of_spawn h)

theorem stays_or_spawns_of_forward (call : ℕ) (message : Json) (timeoutMs : ℕ)
    (launched flushed : Bool) :
    Stays S (S.doForward call message timeoutMs launched flushed) ∨
      Spawns S (S.doForward call message timeoutMs launched flushed) := by
  unfold doForward
  split
  next => exact .inl (stays_of_eq rfl)
  next child S' hensure =>
    rcases stays_or_spawns_of_ensureProcess hensure with hstays | hspawns
    · left
      split
      · exact ⟨hstays.process, hstays.spawned, hstays.gone, hstays.clock, hstays.lastSpawnAt,
          hstays.failures, hstays.allowedAt⟩
      · exact ⟨hstays.process, hstays.spawned, hstays.gone, hstays.clock, hstays.lastSpawnAt,
          hstays.failures, hstays.allowedAt⟩
    · right
      split
      · exact ⟨hspawns.limit, hspawns.cooled, hspawns.process, hspawns.spawned, hspawns.gone,
          hspawns.clock, hspawns.lastSpawnAt, hspawns.failures, hspawns.allowedAt⟩
      · exact ⟨hspawns.limit, hspawns.cooled, hspawns.process, hspawns.spawned, hspawns.gone,
          hspawns.clock, hspawns.lastSpawnAt, hspawns.failures, hspawns.allowedAt⟩

-- what the fields that recordExit leaves alone say of its result
theorem dies_of_recordExit {M : Children} {child : ℕ} (wasExternalSignal : Bool)
    (hgone : ∀ c, c ∈ M.gone ↔ c = child ∨ c ∈ S.gone) (hprocess : M.process = none)
    (hspawned : M.spawned = S.spawned) (hclock : M.clock = S.clock)
    (hspawn : M.lastSpawnAt = S.lastSpawnAt)
    (hfailures : M.consecutiveFastFailures = S.consecutiveFastFailures) :
    Dies S (M.recordExit wasExternalSignal).rejectAllPending child wasExternalSignal := by
  unfold recordExit
  cases wasExternalSignal with
  | true =>
      refine ⟨hprocess, hspawned, hgone, hclock, hspawn, ?_, ?_⟩
      · rw [recordExit, if_pos rfl]
        rfl
      · rw [recordExit, if_pos rfl]
        rfl
  | false =>
      rw [if_neg Bool.false_ne_true]
      by_cases hfast : S.clock - S.lastSpawnAt < fastFailureThresholdMs
      · rw [if_pos (by rw [hclock, hspawn]; exact hfast)]
        refine ⟨hprocess, hspawned, hgone, hclock, hspawn, ?_, ?_⟩
        · rw [recordExit, if_neg Bool.false_ne_true, if_pos hfast]
          exact congrArg (· + 1) hfailures
        · rw [recordExit, if_neg Bool.false_ne_true, if_pos hfast, ← hfailures, ← hclock]
          rfl
      · rw [if_neg (by rw [hclock, hspawn]; exact hfast)]
        refine ⟨hprocess, hspawned, hgone, hclock, hspawn, ?_, ?_⟩
        · rw [recordExit, if_neg Bool.false_ne_true, if_neg hfast]
          rfl
        · rw [recordExit, if_neg Bool.false_ne_true, if_neg hfast]
          rfl

theorem recordExit_fast {wasExternalSignal : Bool}
    (h : wasExternalSignal = false ∧ S.clock - S.lastSpawnAt < fastFailureThresholdMs) :
    (S.recordExit wasExternalSignal).consecutiveFastFailures = S.consecutiveFastFailures + 1 ∧
      (S.recordExit wasExternalSignal).nextRespawnAllowedAt =
        S.clock + min (respawnBackoffBaseMs * 2 ^ S.consecutiveFastFailures) maxRespawnBackoffMs := by
  obtain ⟨rfl, hfast⟩ := h
  rw [recordExit, if_neg Bool.false_ne_true, if_pos hfast]
  exact ⟨rfl, rfl⟩

theorem recordExit_slow {wasExternalSignal : Bool}
    (h : ¬ (wasExternalSignal = false ∧ S.clock - S.lastSpawnAt < fastFailureThresholdMs)) :
    (S.recordExit wasExternalSignal).consecutiveFastFailures = 0 := by
  unfold recordExit
  cases wasExternalSignal with
  | true => rfl
  | false =>
      rw [if_neg Bool.false_ne_true, if_neg fun hfast => h ⟨rfl, hfast⟩]

theorem dies_of_exit (S : Children) (child : ℕ) (wasExternalSignal : Bool) :
    Dies S (S.onExit child wasExternalSignal) child wasExternalSignal := by
  refine dies_of_recordExit wasExternalSignal (fun c => ?_) rfl rfl rfl rfl rfl
  simp [gone, markEnded, or_comm, or_left_comm]

theorem dies_of_error (S : Children) (child : ℕ) : Dies S (S.onError child) child false := by
  refine dies_of_recordExit false (fun c => ?_) rfl rfl rfl rfl rfl
  simp [gone, markErrored, or_left_comm]

-- the ways in which one event can touch the respawn budget
inductive Respawns (S S' : Children) : ChildEvent → Prop where
  | forwarded {e : ChildEvent} (he : e.isForward = true) (h : Stays S S' ∨ Spawns S S') :
      Respawns S S' e
  | died {e : ChildEvent} {child : ℕ} {wasExternalSignal : Bool}
      (he : e.death? = some (child, wasExternalSignal)) (hlt : child < S.spawned)
      (h : Dies S S' child wasExternalSignal) : Respawns S S' e
  | reset (h : S' = S.resetRespawnBudget) : Respawns S S' .resetRespawnBudget
  | other {e : ChildEvent} (hforward : e.isForward = false) (hdeath : e.death? = none)
      (hreset : e ≠ .resetRespawnBudget) (h : Stays S S') : Respawns S S' e

theorem step_respawns {e : ChildEvent} (h : S.step parse e = some S') : Respawns S S' e := by
  have hcrashed : ¬S.stdout.dispatch.crashed = true := by
    intro hcrashed
    simp only [step, if_pos hcrashed] at h
    cases h
  simp only [step, if_neg hcrashed] at h
  cases e with
  | forward call message timeoutMs launched flushed =>
      obtain ⟨_, heq⟩ := Option.ite_none_left_eq_some.mp h
      obtain rfl := Option.some.inj heq
      have hforward := stays_or_spawns_of_forward (S := { S with calls := S.calls ++ [call] }) call
        message timeoutMs launched flushed
      refine .forwarded rfl (hforward.imp (fun hs => ?_) fun hs => ?_)
      · exact ⟨hs.process, hs.spawned, hs.gone, hs.clock, hs.lastSpawnAt, hs.failures, hs.allowedAt⟩
      · exact ⟨hs.limit, hs.cooled, hs.process, hs.spawned, hs.gone, hs.clock, hs.lastSpawnAt,
          hs.failures, hs.allowedAt⟩
  | data child chunk =>
      obtain ⟨_, heq⟩ := Option.ite_none_right_eq_some.mp h
      obtain rfl := Option.some.inj heq
      exact .other rfl rfl (by simp) (stays_of_eq rfl)
  | exit child wasExternalSignal =>
      obtain ⟨hlt, heq⟩ := Option.ite_none_right_eq_some.mp h
      obtain rfl := Option.some.inj heq
      exact .died rfl hlt.1 (dies_of_exit S child wasExternalSignal)
  | error child =>
      obtain ⟨hlt, heq⟩ := Option.ite_none_right_eq_some.mp h
      obtain rfl := Option.some.inj heq
      exact .died rfl hlt (dies_of_error S child)
  | timeout call =>
      obtain ⟨t, _, rfl⟩ := Option.map_eq_some_iff.mp h
      exact .other rfl rfl (by simp) (stays_of_eq rfl)
  | drained call =>
      obtain ⟨w, _, rfl⟩ := Option.map_eq_some_iff.mp h
      exact .other rfl rfl (by simp) (stays_of_eq rfl)
  | writeError call =>
      obtain ⟨w, _, rfl⟩ := Option.map_eq_some_iff.mp h
      refine .other rfl rfl (by simp) ?_
      unfold onWriteError
      split
      · exact stays_of_eq rfl
      · exact stays_of_eq rfl
  | tick ms =>
      obtain rfl := Option.some.inj h
      exact .other rfl rfl (by simp) ⟨rfl, rfl, rfl, Nat.le_add_right _ _, rfl, rfl, rfl⟩
  | shutdown =>
      obtain rfl := Option.some.inj h
      exact .other rfl rfl (by simp) (stays_of_eq rfl)
  | resetRespawnBudget =>
      obtain rfl := Option.some.inj h
      exact .reset rfl

theorem accounted_of_single {e : ChildEvent} (h : S.Accounted)
    (hsingle : ∀ death ∈ e.death?, death.1 ∉ S.gone) (hstep : S.step parse e = some S') :
    S'.Accounted := by
  cases e with
  | data child chunk =>
      rcases step_of_child hstep rfl with ⟨_, ⟨_, _, rfl⟩ | ⟨_, hexit, _⟩ | ⟨herror, _⟩⟩
      · exact h.congr rfl
      · cases hexit
      · cases herror
  | exit child wasExternalSignal =>
      refine accounted_step h (fun c hc => ?_) hstep
      obtain rfl := Option.some.inj hc
      exact hsingle (child, wasExternalSignal) rfl
  | error child =>
      refine accounted_step h (fun c hc => ?_) hstep
      obtain rfl := Option.some.inj hc
      exact hsingle (child, false) rfl
  | forward => exact accounted_step_other h rfl hstep
  | timeout => exact accounted_step_other h rfl hstep
  | drained => exact accounted_step_other h rfl hstep
  | writeError => exact accounted_step_other h rfl hstep
  | tick => exact accounted_step_other h rfl hstep
  | shutdown => exact accounted_step_other h rfl hstep
  | resetRespawnBudget => exact accounted_step_other h rfl hstep

end Children

namespace RespawnWorld

variable {parse : String → Option Json} {w w' : RespawnWorld} {S' : Children} {e : ChildEvent}

theorem record_of_forward (he : e.isForward = true) :
    w.record e S' = if w.children.spawned < S'.spawned then
      .spawned w.children.spawned w.children.clock :: w.history else w.history := by
  cases e <;> first | rfl | cases he

theorem record_of_death {child : ℕ} {wasExternalSignal : Bool}
    (he : e.death? = some (child, wasExternalSignal)) (hgone : child ∉ w.children.gone) :
    w.record e S' = .died child w.children.clock wasExternalSignal :: w.history := by
  cases e with
  | exit c signal =>
      obtain ⟨rfl, rfl⟩ := Prod.mk.inj (Option.some.inj he)
      exact if_neg hgone
  | error c =>
      obtain ⟨rfl, rfl⟩ := Prod.mk.inj (Option.some.inj he)
      exact if_neg hgone
  | _ => cases he

theorem record_of_other (hforward : e.isForward = false) (hdeath : e.death? = none)
    (hreset : e ≠ .resetRespawnBudget) : w.record e S' = w.history := by
  cases e with
  | forward => cases hforward
  | exit => cases hdeath
  | error => cases hdeath
  | resetRespawnBudget => exact absurd rfl hreset
  | data => rfl
  | timeout => rfl
  | drained => rfl
  | writeError => rfl
  | tick => rfl
  | shutdown => rfl

theorem charge_of_none (he : e.death? = none) : w.charge e S' = w.charged := by
  rw [charge, he]

theorem death?_of_forward (he : e.isForward = true) : e.death? = none := by
  cases e <;> first | rfl | cases he

-- the counter of the client is at least the failures in a row, and the cooldown at least theirs
structure Budgeted (w : RespawnWorld) : Prop where
  accounted : w.children.Accounted
  goneSpawned : ∀ c ∈ w.children.gone, c < w.children.spawned
  countedOnce : w.charged.Nodup
  countedGone : ∀ c ∈ w.charged, c ∈ w.children.gone
  counter : fastFailures w.history ≤ w.children.consecutiveFastFailures
  cooldown : 0 < fastFailures w.history →
    lastDeath w.history + respawnBackoff (fastFailures w.history) ≤ w.children.nextRespawnAllowedAt
  limit : w.children.consecutiveFastFailures ≤ maxConsecutiveFastFailures
  alive : ∀ child, w.children.process = some child → child ∉ w.children.gone ∧
    w.children.consecutiveFastFailures < maxConsecutiveFastFailures ∧
      bornAt child w.history = w.children.lastSpawnAt
  reopened : w.freshlyReset = true →
    w.children.consecutiveFastFailures < maxConsecutiveFastFailures ∧
      w.children.nextRespawnAllowedAt ≤ w.children.clock ∧
        ∀ B, w.breaker = some B → B.state = .closed

theorem budgeted_start {breaker : Option CircuitBreaker} (now : ℕ) :
    Budgeted (start breaker now) where
  accounted := Children.accounted_init now
  goneSpawned := by simp [start, Children.init, Children.gone]
  countedOnce := List.nodup_nil
  countedGone := by simp [start]
  counter := Nat.zero_le _
  cooldown := fun h => absurd h (Nat.lt_irrefl 0)
  limit := Nat.zero_le _
  alive := fun child h => by cases h
  reopened := fun h => by cases h

theorem respawnBackoff_le {m n : ℕ} (h : m ≤ n) :
    respawnBackoff (m + 1) ≤ min (respawnBackoffBaseMs * 2 ^ n) maxRespawnBackoffMs := by
  have hpow : 2 ^ m ≤ 2 ^ n := Nat.pow_le_pow_right (by decide) h
  exact min_le_min_right _ (Nat.mul_le_mul_left _ hpow)

theorem Budgeted.stays (h : Budgeted w) (hstays : Children.Stays w.children S')
    (haccounted : S'.Accounted) {freshlyReset : Bool}
    (hfresh : freshlyReset = true → w.freshlyReset = true) :
    Budgeted { w with children := S', freshlyReset := freshlyReset } where
  accounted := haccounted
  goneSpawned := by
    change ∀ c ∈ S'.gone, c < S'.spawned
    rw [hstays.gone, hstays.spawned]
    exact h.goneSpawned
  countedOnce := h.countedOnce
  countedGone := by
    change ∀ c ∈ w.charged, c ∈ S'.gone
    rw [hstays.gone]
    exact h.countedGone
  counter := hstays.failures.symm ▸ h.counter
  cooldown := hstays.allowedAt.symm ▸ h.cooldown
  limit := hstays.failures.symm ▸ h.limit
  alive := by
    change ∀ child, S'.process = some child → child ∉ S'.gone ∧
      S'.consecutiveFastFailures < _ ∧ bornAt child w.history = S'.lastSpawnAt
    rw [hstays.process, hstays.gone, hstays.failures, hstays.lastSpawnAt]
    exact h.alive
  reopened := by
    intro hreset
    obtain ⟨hfailures, hallowed, hclosed⟩ := h.reopened (hfresh hreset)
    refine ⟨hstays.failures.symm ▸ hfailures, ?_, hclosed⟩
    exact hstays.allowedAt.symm ▸ hallowed.trans hstays.clock

theorem Budgeted.spawns (h : Budgeted w) (hspawns : Children.Spawns w.children S')
    (haccounted : S'.Accounted) :
    Budgeted { w with
      children := S'
      history := .spawned w.children.spawned w.children.clock :: w.history
      freshlyReset := false } where
  accounted := haccounted
  goneSpawned := by
    intro c hc
    change c ∈ S'.gone at hc
    change c < S'.spawned
    rw [hspawns.gone] at hc
    rw [hspawns.spawned]
    exact Nat.lt_succ_of_lt (h.goneSpawned c hc)
  countedOnce := h.countedOnce
  countedGone := by
    change ∀ c ∈ w.charged, c ∈ S'.gone
    rw [hspawns.gone]
    exact h.countedGone
  counter := hspawns.failures.symm ▸ h.counter
  cooldown := hspawns.allowedAt.symm ▸ h.cooldown
  limit := hspawns.failures.symm ▸ h.limit
  alive := by
    intro child hchild
    change S'.process = some child at hchild
    rw [hspawns.process] at hchild
    obtain rfl := Option.some.inj hchild
    refine ⟨?_, hspawns.failures.symm ▸ hspawns.limit, ?_⟩
    · change w.children.spawned ∉ S'.gone
      rw [hspawns.gone]
      intro hgone
      exact Nat.lt_irrefl _ (h.goneSpawned _ hgone)
    · change bornAt w.children.spawned (.spawned _ _ :: w.history) = S'.lastSpawnAt
      rw [bornAt, if_pos rfl, hspawns.lastSpawnAt]
  reopened := fun hreset => by cases hreset

theorem Budgeted.dies (h : Budgeted w) {child : ℕ} {wasExternalSignal : Bool}
    (hcurrent : w.children.process = some child)
    (hdies : Children.Dies w.children S' child wasExternalSignal) (haccounted : S'.Accounted) :
    Budgeted { w with
      children := S'
      history := .died child w.children.clock wasExternalSignal :: w.history
      charged := if w.children.consecutiveFastFailures < S'.consecutiveFastFailures then
        child :: w.charged else w.charged
      freshlyReset := false } := by
  obtain ⟨hliving, hlimit, hborn⟩ := h.alive child hcurrent
  have hcounted : child ∉ w.charged := fun hmem => hliving (h.countedGone child hmem)
  have hmore : ∀ c ∈ w.charged, c ∈ S'.gone := fun c hc =>
    (hdies.gone c).mpr (.inr (h.countedGone c hc))
  refine ⟨haccounted, ?_, ?_, ?_, ?_, ?_, ?_, ?_, fun hreset => by cases hreset⟩
  · intro c hc
    change c < S'.spawned
    rw [hdies.spawned]
    rcases (hdies.gone c).mp hc with rfl | hold
    · exact h.accounted.process_lt c hcurrent
    · exact h.goneSpawned c hold
  · change (if _ then child :: w.charged else w.charged).Nodup
    split
    · exact List.nodup_cons.mpr ⟨hcounted, h.countedOnce⟩
    · exact h.countedOnce
  · intro c hc
    change c ∈ (if _ then child :: w.charged else w.charged) at hc
    split at hc
    · rcases List.mem_cons.mp hc with rfl | hold
      · exact (hdies.gone c).mpr (.inl rfl)
      · exact hmore c hold
    · exact hmore c hc
  · change fastFailures (.died child w.children.clock wasExternalSignal :: w.history) ≤ _
    rw [fastFailures, hborn]
    by_cases hfast : wasExternalSignal = false ∧
        w.children.clock - w.children.lastSpawnAt < fastFailureThresholdMs
    · rw [if_pos hfast, hdies.failures, (Children.recordExit_fast hfast).1]
      exact Nat.succ_le_succ h.counter
    · rw [if_neg hfast]
      exact Nat.zero_le _
  · change 0 < fastFailures (.died child w.children.clock wasExternalSignal :: w.history) →
      w.children.clock + respawnBackoff (fastFailures
        (.died child w.children.clock wasExternalSignal :: w.history)) ≤ S'.nextRespawnAllowedAt
    rw [fastFailures, hborn]
    by_cases hfast : wasExternalSignal = false ∧
        w.children.clock - w.children.lastSpawnAt < fastFailureThresholdMs
    · rw [if_pos hfast, hdies.allowedAt, (Children.recordExit_fast hfast).2]
      exact fun _ => Nat.add_le_add_left (respawnBackoff_le h.counter) _
    · rw [if_neg hfast]
      exact fun hpos => absurd hpos (Nat.lt_irrefl 0)
  · change S'.consecutiveFastFailures ≤ _
    rw [hdies.failures]
    by_cases hfast : wasExternalSignal = false ∧
        w.children.clock - w.children.lastSpawnAt < fastFailureThresholdMs
    · rw [(Children.recordExit_fast hfast).1]
      exact hlimit
    · rw [Children.recordExit_slow hfast]
      exact Nat.zero_le _
  · intro c hc
    change S'.process = some c at hc
    rw [hdies.process] at hc
    cases hc

theorem Budgeted.observe (h : Budgeted w) (hstep : w.children.step parse e = some S')
    (hsingle : ∀ death ∈ e.death?, death.1 ∉ w.children.gone) : Budgeted (w.observe e S') := by
  have haccounted := Children.accounted_of_single h.accounted hsingle hstep
  cases Children.step_respawns hstep with
  | forwarded he hcases =>
      rw [RespawnWorld.observe, record_of_forward he, charge_of_none (death?_of_forward he), he]
      rcases hcases with hstays | hspawns
      · rw [if_neg (by rw [hstays.spawned]; exact Nat.lt_irrefl _)]
        refine h.stays hstays haccounted fun hfresh => ?_
        simp at hfresh
      · rw [if_pos (by rw [hspawns.spawned]; exact Nat.lt_succ_self _), Bool.not_true, Bool.and_false,
          Bool.false_and]
        exact h.spawns hspawns haccounted
  | died he hlt hdies =>
      have hliving := hsingle _ he
      have hcurrent := Children.process_of_parting h.accounted hlt hliving
      rw [RespawnWorld.observe, record_of_death he hliving, charge, he, Option.isNone_some,
        Bool.and_false]
      exact h.dies hcurrent hdies haccounted
  | reset heq =>
      subst heq
      have hnone : 0 < maxConsecutiveFastFailures := by decide
      refine ⟨haccounted, h.goneSpawned, h.countedOnce, h.countedGone, Nat.zero_le _,
        fun hpos => absurd hpos (Nat.lt_irrefl 0), Nat.zero_le _, ?_, ?_⟩
      · intro child hchild
        exact ⟨(h.alive child hchild).1, hnone, (h.alive child hchild).2.2⟩
      · intro hfresh
        have hkept : w.freshlyReset = true := by
          change (w.freshlyReset && true && true) = true at hfresh
          simpa using hfresh
        exact ⟨hnone, Nat.zero_le _, (h.reopened hkept).2.2⟩
  | other hforward hdeath hreset hstays =>
      rw [RespawnWorld.observe, record_of_other hforward hdeath hreset, charge_of_none hdeath]
      refine h.stays hstays haccounted fun hfresh => ?_
      simp only [Bool.and_eq_true] at hfresh
      exact hfresh.1.1

theorem canExecute_fst (w : RespawnWorld) :
    w.canExecute.1 = { w with breaker := w.canExecute.1.breaker } := by
  unfold canExecute
  split <;> rfl

theorem canExecute_of_closed (h : ∀ B, w.breaker = some B → B.state = .closed) :
    w.canExecute = (w, true) := by
  unfold canExecute
  split
  · rfl
  next B hbreaker =>
    have hopen : B.canExecute w.children.clock = (B, true) := by
      rw [CircuitBreaker.canExecute, h B hbreaker]
    rw [hopen, ← hbreaker]

theorem Budgeted.canExecute (h : Budgeted w) : Budgeted w.canExecute.1 := by
  by_cases hfresh : w.freshlyReset = true
  · rw [canExecute_of_closed (h.reopened hfresh).2.2]
    exact h
  · rw [canExecute_fst]
    exact { h with reopened := fun hreset => absurd hreset hfresh }

theorem Budgeted.unreset (h : Budgeted w) (breaker : Option CircuitBreaker)
    (calls rejected : List ℕ) :
    Budgeted { w with
      children := { w.children with calls := calls, rejected := rejected }
      breaker := breaker
      freshlyReset := false } :=
  { h with
    accounted := h.accounted.congr rfl
    reopened := fun hreset => by cases hreset }

theorem step_forward (parse : String → Option Json) (w : RespawnWorld) (h : e.isForward = true) :
    w.step parse (.child e) = (w.children.step parse e).map (w.canExecute.1.observe e) ∧
        w.canExecute.2 = true ∨
      ∃ call, w.step parse (.child e) = some (w.canExecute.1.refuse call) := by
  cases e with
  | forward call message timeoutMs launched flushed =>
      by_cases hadmits : w.canExecute.2 = true
      · exact .inl ⟨if_pos hadmits, hadmits⟩
      · exact .inr ⟨call, if_neg hadmits⟩
  | _ => cases h

theorem step_other (h : e.isForward = false) :
    w.step parse (.child e) = (w.children.step parse e).map (w.observe e) := by
  cases e <;> first | rfl | cases h

theorem Budgeted.step (h : Budgeted w) {act : RespawnAct} (hregular : w.Regular act)
    (hstep : w.step parse act = some w') : Budgeted w' := by
  cases act with
  | child e =>
      cases hforward : e.isForward with
      | true =>
          rcases step_forward parse w hforward with ⟨heq, -⟩ | ⟨call, heq⟩
          · rw [heq] at hstep
            obtain ⟨S', hS', rfl⟩ := Option.map_eq_some_iff.mp hstep
            have hcan := h.canExecute
            rw [canExecute_fst] at hcan ⊢
            exact hcan.observe hS' hregular
          · rw [heq] at hstep
            obtain rfl := Option.some.inj hstep
            rw [canExecute_fst]
            exact h.unreset _ _ _
      | false =>
          rw [step_other hforward] at hstep
          obtain ⟨S', hS', rfl⟩ := Option.map_eq_some_iff.mp hstep
          exact h.observe hS' hregular
  | settled succeeded =>
      obtain rfl := Option.some.inj hstep
      exact h.unreset _ _ _
  | resetCircuits =>
      obtain rfl := Option.some.inj hstep
      obtain ⟨hfailures, hallowed⟩ := hregular
      refine ⟨h.accounted, h.goneSpawned, h.countedOnce, h.countedGone, Nat.zero_le _,
        fun hpos => absurd hpos (Nat.lt_irrefl 0), h.limit, h.alive, fun _ => ?_⟩
      refine ⟨hfailures, hallowed, fun B hB => ?_⟩
      obtain ⟨B₀, -, rfl⟩ := Option.map_eq_some_iff.mp hB
      rfl

theorem Budgeted.mayForward (h : Budgeted w) (hfresh : w.freshlyReset = true)
    (hrunning : w.children.stopped = false) : w.mayForward = true := by
  obtain ⟨hlimit, hallowed, hclosed⟩ := h.reopened hfresh
  rw [RespawnWorld.mayForward, canExecute_of_closed hclosed, Bool.true_and]
  unfold Children.ensureProcess
  split
  next child hchild =>
    have hliving : (child, false) ∉ w.children.ended := fun hended =>
      (h.alive child hchild).1 (List.mem_append_right _ (List.mem_map_of_mem hended))
    rw [if_pos hliving]
    rfl
  next =>
    rw [Children.spawn, if_neg (by rw [hrunning]; exact Bool.false_ne_true),
      if_neg (Nat.not_le.mpr hlimit), if_neg (Nat.not_lt.mpr hallowed)]
    rfl

theorem spawned_of_step {act : RespawnAct} (hstep : w.step parse act = some w')
    (hmore : w.children.spawned < w'.children.spawned) : Children.Spawns w.children w'.children := by
  cases act with
  | child e =>
      have hof : ∀ {S' : Children}, w.children.step parse e = some S' →
          w.children.spawned < S'.spawned → Children.Spawns w.children S' := by
        intro S' hS' hlt
        cases Children.step_respawns hS' with
        | forwarded he hcases =>
            exact hcases.resolve_left fun hstays => absurd hlt (hstays.spawned ▸ Nat.lt_irrefl _)
        | died he _ hdies => exact absurd hlt (hdies.spawned ▸ Nat.lt_irrefl _)
        | reset heq =>
            subst heq
            exact absurd hlt (Nat.lt_irrefl _)
        | other _ _ _ hstays => exact absurd hlt (hstays.spawned ▸ Nat.lt_irrefl _)
      cases hforward : e.isForward with
      | true =>
          rcases step_forward parse w hforward with ⟨heq, -⟩ | ⟨call, heq⟩
          · rw [heq] at hstep
            obtain ⟨S', hS', rfl⟩ := Option.map_eq_some_iff.mp hstep
            exact hof hS' hmore
          · rw [heq] at hstep
            obtain rfl := Option.some.inj hstep
            rw [canExecute_fst] at hmore
            exact absurd hmore (Nat.lt_irrefl _)
      | false =>
          rw [step_other hforward] at hstep
          obtain ⟨S', hS', rfl⟩ := Option.map_eq_some_iff.mp hstep
          exact hof hS' hmore
  | settled succeeded =>
      obtain rfl := Option.some.inj hstep
      exact absurd hmore (Nat.lt_irrefl _)
  | resetCircuits =>
      obtain rfl := Option.some.inj hstep
      exact absurd hmore (Nat.lt_irrefl _)

theorem Budgeted.withinBudget (h : Budgeted w) {act : RespawnAct} (hregular : w.Regular act) :
    w.WithinBudget parse act where
  countedOnce := fun _ hstep => (h.step hregular hstep).countedOnce
  inARow := by
    intro w' hstep
    have hafter := h.step hregular hstep
    exact hafter.counter.trans hafter.limit
  spaced := by
    intro w' hstep hmore
    have hspawns := spawned_of_step hstep hmore
    refine ⟨Nat.lt_of_le_of_lt h.counter hspawns.limit, fun hpos => ?_⟩
    exact (h.cooldown hpos).trans hspawns.cooled
  reopened := fun _ _ _ hfresh hrunning => h.mayForward hfresh hrunning

end RespawnWorld

open RespawnWorld

theorem respawn_budget_kept (parse : String → Option Json) (breaker : Option CircuitBreaker)
    (now : ℕ) {acts : List RespawnAct}
    (h : Transition.Along (step parse) Regular (start breaker now) acts) :
    Transition.Along (step parse) (WithinBudget parse) (start breaker now) acts :=
  Transition.Along.of_invariant (step parse) (I := Budgeted)
    (fun _ _ _ hw hregular hstep => hw.step hregular hstep)
    (fun _ _ hw hregular => hw.withinBudget hregular) (budgeted_start now) h

section Example

def callNumber (n : ℕ) : RespawnAct := .child (.forward n (listRequest n) 30000 true true)

def errorOf (child : ℕ) : RespawnAct := .child (.error child)

def exitOf (child : ℕ) (wasExternalSignal : Bool) : RespawnAct :=
  .child (.exit child wasExternalSignal)

-- two early deaths, a reset once their cooldown is over, and a third child
def regularActs : List RespawnAct :=
  [callNumber 0, exitOf 0 false, .child (.tick 250), callNumber 1, errorOf 1, .child (.tick 500),
    .resetCircuits, callNumber 2]

def respawnRun (acts : List RespawnAct) : Option RespawnWorld :=
  Transition.run (step nothingRead) (start none 0) acts

theorem respawn_budget_kept_regular :
    Transition.Along (step nothingRead) (WithinBudget nothingRead) (start none 0) regularActs :=
  respawn_budget_kept nothingRead none 0 (by decide +kernel)

theorem not_along_of_respawnRun {α : Type} (acts : List RespawnAct) {act : RespawnAct}
    (f : RespawnWorld → α) {a : α} (h : (respawnRun acts).map f = some a)
    (hbroken : ∀ w, f w = a → ¬ w.WithinBudget nothingRead act) :
    ¬ Transition.Along (step nothingRead) (WithinBudget nothingRead) (start none 0)
      (acts ++ [act]) := by
  obtain ⟨w, hw, hf⟩ := Option.map_eq_some_iff.mp h
  intro halong
  exact hbroken w hf ((Transition.along_append (step nothingRead) hw).mp halong).2.1

-- the exit of a child that has failed before is counted again; the late signal of the first child
-- ends the cooldown of the second; a reset of the circuits leaves the cooldown as it is
theorem respawn_budget_broken :
    ¬ Transition.Along (step nothingRead) (WithinBudget nothingRead) (start none 0)
      [callNumber 0, errorOf 0, exitOf 0 false] ∧
    ¬ Transition.Along (step nothingRead) (WithinBudget nothingRead) (start none 0)
      [callNumber 0, errorOf 0, .child (.tick 250), callNumber 1, exitOf 1 false, exitOf 0 true,
        callNumber 2] ∧
    ¬ Transition.Along (step nothingRead) (WithinBudget nothingRead) (start none 0)
      [callNumber 0, errorOf 0, .resetCircuits, callNumber 1] := by
  refine ⟨?_, ?_, ?_⟩
  · refine not_along_of_respawnRun [_, _]
      (fun w => (w.step nothingRead (exitOf 0 false)).map (·.charged)) (a := some [0, 0])
      (by decide +kernel) fun w hw h => ?_
    obtain ⟨w', hw', hcharged⟩ := Option.map_eq_some_iff.mp hw
    have hnodup := h.countedOnce w' hw'
    rw [hcharged] at hnodup
    exact absurd hnodup (by decide)
  · refine not_along_of_respawnRun [_, _, _, _, _, _]
      (fun w => ((fastFailures w.history, lastDeath w.history, w.children.clock,
        w.children.spawned), (w.step nothingRead (callNumber 2)).map (·.children.spawned)))
      (a := ((2, 250, 250, 2), some 3)) (by decide +kernel) fun w hw h => ?_
    simp only [Prod.mk.injEq] at hw
    obtain ⟨⟨hfailures, hdeath, hclock, hspawned⟩, hnext⟩ := hw
    obtain ⟨w', hw', hmore⟩ := Option.map_eq_some_iff.mp hnext
    have hspaced := (h.spaced w' hw' (by omega)).2 (by omega)
    rw [hfailures, hdeath, hclock] at hspaced
    exact absurd hspaced (by decide)
  · refine not_along_of_respawnRun [_, _, _]
      (fun w => (w.freshlyReset, w.children.stopped, w.mayForward)) (a := (true, false, false))
      (by decide +kernel) fun w hw h => ?_
    simp only [Prod.mk.injEq] at hw
    obtain ⟨hfresh, hrunning, hblocked⟩ := hw
    rw [h.reopened _ rfl rfl hfresh hrunning] at hblocked
    cases hblocked

end Example

end Conduit.Proxy
