import Conduit.Gateway.Refusals
import Conduit.RateLimit.Concurrency

namespace Conduit.RateLimit

open Program

def LimitOp.isEnqueue : LimitOp → Prop
  | .enqueue _ _ _ => True
  | _ => False

theorem avoids_firstBlocking (consume : Bool) (checks : List RateLimitCheck) :
    Avoids LimitOp.isEnqueue (firstBlocking consume checks) := by
  induction checks with
  | nil => exact avoids_pure _
  | cons check rest ih =>
      have htry : Avoids LimitOp.isEnqueue (tryCheck consume check) := by
        unfold tryCheck
        split
        · exact avoids_ask id
        · exact avoids_ask id
      refine htry.bind fun result => ?_
      split
      · exact ih
      · exact avoids_pure _

theorem avoids_mostRestrictive (best : Option RateLimitResult) (checks : List RateLimitCheck) :
    Avoids LimitOp.isEnqueue (mostRestrictive best checks) := by
  induction checks generalizing best with
  | nil => exact avoids_pure _
  | cons check rest ih => exact Avoids.ask_bind id fun result => ih _

theorem avoids_evaluateChecks (checks : List RateLimitCheck) (consume : Bool) :
    Avoids LimitOp.isEnqueue (evaluateChecks checks consume) := by
  unfold evaluateChecks
  split
  · exact Avoids.ask_bind id fun now => avoids_pure _
  · refine (avoids_firstBlocking consume checks).bind fun refusal => ?_
    split
    · exact avoids_pure _
    · refine (avoids_mostRestrictive none checks).bind fun best => ?_
      split
      · exact avoids_pure _
      · exact Avoids.ask_bind id fun now => avoids_pure _

end Conduit.RateLimit

namespace Conduit.Gateway

open Program RateLimit

-- the request that an await of handleToolCall makes to the rate limiter
def limitRequest? : Op → Option LimitRequest
  | .consumeClientLimits clientId => some (.consumeClientLimits clientId)
  | .consumeServerLimits clientId serverId toolName =>
      some (.consumeServerLimits clientId serverId toolName)
  | _ => none

def limitAnswer? (result : RateLimitCheckResult) : (o : Op) → Option (Ans o)
  | .consumeClientLimits _ => some ⟨result.allowed, result.retryAfter, result.blockedBy⟩
  | .consumeServerLimits _ _ _ => some ⟨result.allowed, result.retryAfter, result.blockedBy⟩
  | _ => none

def RequestPipeline.rateLimiter (P : RequestPipeline) : RateLimiter :=
  ⟨P.config.rateLimits.getD { enabled := false }⟩

def RequestPipeline.queueConfig (P : RequestPipeline) : QueueConfig :=
  P.rateLimiter.config.queue.getD ⟨false, 0, 0⟩

-- `asked` is the request to the rate limiter that the call waits for, `waited` how long it has
-- stood in a queue so far, and `offered` whether its limit had room while it was first there
structure GatewayCall (P : RequestPipeline) where
  thread : Thread P.handleToolCall
  asked : Option ℕ
  waited : ℕ
  offered : Bool

structure LimitedGateway (P : RequestPipeline) where
  limits : LimiterWorld P.rateLimiter
  calls : List (GatewayCall P)

inductive GatewayAct where
  | arrive (call : ToolCall)
  | answer (caller : ℕ) (answers : (o : Op) → Ans o)
  | asks (caller : ℕ)
  | returns (caller : ℕ)
  | limiter (act : LimiterAct)

namespace GatewayCall

variable {P : RequestPipeline} (c : GatewayCall P)

def request? : Option LimitRequest :=
  match c.thread.rest with
  | .op o _ => limitRequest? o
  | _ => none

-- the refusal that the caller is given
def isRefused : Bool :=
  match c.thread.rest with
  | .exit (.answered result) => result.retryAfter.isSome
  | _ => false

end GatewayCall

namespace LimitedGateway

variable {P : RequestPipeline}

-- the buckets may hold anything when the gateway starts to serve
def start (P : RequestPipeline) (limiter : SlidingWindowLimiter) (clock : ℕ) :
    LimitedGateway P where
  limits := { LimiterWorld.init P.rateLimiter with limiter := limiter, clock := clock }
  calls := []

variable (w : LimitedGateway P)

def stands (n : ℕ) : Bool :=
  w.limits.queue.queues.entries.any fun e => e.2.entries.any fun entry => entry.caller = n

def offers (n : ℕ) : Bool :=
  w.limits.queue.queues.entries.any fun e =>
    e.2.entries.head?.any fun entry =>
      entry.caller = n && w.limits.clock < entry.deadline &&
        (w.limits.limiter.check e.1 e.2.limit e.2.windowMs w.limits.clock).2.allowed

def observe (act : LimiterAct) (c : GatewayCall P) : GatewayCall P :=
  match act with
  | .tick ms => if c.asked.any w.stands then { c with waited := c.waited + ms } else c
  | .poll => { c with offered := c.offered || c.asked.any w.offers }
  | _ => c

def setCall (caller : ℕ) (c : GatewayCall P) : LimitedGateway P :=
  { w with calls := w.calls.set caller c }

-- the call, what the rate limiter has decided for it, and the call once it has been told
def told (caller : ℕ) : Option (GatewayCall P × RateLimitCheckResult × GatewayCall P) :=
  w.calls[caller]?.bind fun c =>
    c.asked.bind fun n => w.limits.tasks[n]?.bind fun t =>
      t.result?.bind fun result =>
        (c.thread.advance fun o => (limitAnswer? result o).map fun a => ((), a)).map fun r =>
          (c, result, { c with thread := r.2, asked := none })

def step : GatewayAct → Option (LimitedGateway P)
  | .arrive call => some { w with calls := w.calls ++ [⟨.spawn _ call, none, 0, false⟩] }
  | .answer caller answers =>
      w.calls[caller]?.bind fun c =>
        (c.thread.advance fun o =>
            if (limitRequest? o).isSome then none else some ((), answers o)).map fun r =>
          w.setCall caller { c with thread := r.2 }
  | .asks caller =>
      w.calls[caller]?.bind fun c =>
        if c.asked.isSome then none
        else
          c.request?.bind fun request =>
            (w.limits.step (.arrive request)).map fun limits =>
              { limits := limits
                calls := w.calls.set caller { c with asked := some w.limits.tasks.length } }
  | .returns caller => (w.told caller).map fun r => w.setCall caller r.2.2
  | .limiter act =>
      match act with
      | .arrive _ => none
      | act =>
          (w.limits.step act).map fun limits =>
            { limits := limits, calls := w.calls.map (w.observe act) }

-- the call that is answered with a rate-limit error in this step, and the limiter's decision
def refusal? : GatewayAct → Option (GatewayCall P × RateLimitCheckResult)
  | .returns caller =>
      (w.told caller).bind fun r =>
        if !r.2.1.allowed && r.2.2.isRefused then some (r.1, r.2.1) else none
  | _ => none

-- a refused call has found the queue of the limit full, or has waited its time without room
def HonoursQueue (act : GatewayAct) : Prop :=
  ∀ r ∈ w.refusal? act,
    (P.queueConfig.maxQueueSize ≤
        (w.limits.queue.entriesOf (r.2.blockingKey.getD "")).length ∨
      P.queueConfig.maxWaitMs ≤ r.1.waited) ∧ r.1.offered = false

instance (act : GatewayAct) : Decidable (w.HonoursQueue act) :=
  inferInstanceAs (Decidable (∀ r ∈ w.refusal? act, _))

-- no call is told that a limit refuses it, unless the queue admits nobody or lets nobody wait
def WithinLimits (act : GatewayAct) : Prop :=
  ∀ caller r, act = .returns caller → w.told caller = some r → r.2.1.allowed = false →
    P.queueConfig.maxQueueSize = 0 ∨ P.queueConfig.maxWaitMs = 0

structure Unqueued (w : LimitedGateway P) : Prop where
  empty : w.limits.queue.queues = .empty
  direct : ∀ t ∈ w.limits.tasks, Avoids LimitOp.isEnqueue (LimitTask.rest t)
  unwaited : ∀ c ∈ w.calls, c.waited = 0 ∧ c.offered = false

variable {w}

theorem unqueued_start (limiter : SlidingWindowLimiter) (clock : ℕ) :
    Unqueued (start P limiter clock) where
  empty := rfl
  direct := by simp [start, LimiterWorld.init]
  unwaited := by simp [start]

theorem poll_of_empty {R : RateLimiter} {limits : LimiterWorld R}
    (h : limits.queue.queues = .empty) : limits.poll = limits := by
  rw [LimiterWorld.poll, h]
  rfl

theorem stands_of_empty (h : w.limits.queue.queues = .empty) (n : ℕ) : w.stands n = false := by
  rw [stands, h]
  rfl

theorem offers_of_empty (h : w.limits.queue.queues = .empty) (n : ℕ) : w.offers n = false := by
  rw [offers, h]
  rfl

-- a task of the rate limiter that enqueues nothing leaves the queue as it is
theorem advance_queue {R : RateLimiter} {limits limits' : LimiterWorld R} {caller : ℕ}
    {t : LimitTask R} (h : limits.advance caller t = some limits')
    (ht : Avoids LimitOp.isEnqueue t.rest) :
    limits'.queue = limits.queue ∧ ∃ t', limits'.tasks = limits.tasks.set caller t' ∧
      Avoids LimitOp.isEnqueue t'.rest := by
  obtain ⟨⟨served, thread⟩, hadvance, rfl⟩ := Option.map_eq_some_iff.mp h
  obtain ⟨o, next, hrest, a, hserve, rfl⟩ := Thread.advance_eq_some hadvance
  have hop : Avoids LimitOp.isEnqueue (.op o next) := hrest ▸ ht
  have hnext : Avoids LimitOp.isEnqueue (next a) := hop.2 a
  have hworld : served.queue = limits.queue ∧ served.tasks = limits.tasks := by
    cases o with
    | consume c =>
        obtain ⟨rfl, -⟩ := Prod.mk.inj (Option.some.inj hserve)
        exact ⟨rfl, rfl⟩
    | check c =>
        obtain ⟨rfl, -⟩ := Prod.mk.inj (Option.some.inj hserve)
        exact ⟨rfl, rfl⟩
    | now =>
        obtain ⟨rfl, -⟩ := Prod.mk.inj (Option.some.inj hserve)
        exact ⟨rfl, rfl⟩
    | enqueue key limit windowMs => exact absurd trivial hop.1
    | awaitSlot =>
        obtain ⟨resolved, -, heq⟩ := Option.map_eq_some_iff.mp hserve
        obtain ⟨rfl, -⟩ := Prod.mk.inj heq
        exact ⟨rfl, rfl⟩
  refine ⟨hworld.1, ⟨t.thread.answer hrest a, t.slot⟩, ?_, hnext⟩
  rw [LimiterWorld.setTask, hworld.2]

-- handleToolCall asks for no queue
theorem avoids_limitRequest {R : RateLimiter} {o : Op} {request : LimitRequest}
    (h : limitRequest? o = some request) : Avoids LimitOp.isEnqueue (R.answer request) := by
  unfold limitRequest? at h
  split at h
  · obtain rfl := Option.some.inj h
    exact avoids_evaluateChecks _ true
  · obtain rfl := Option.some.inj h
    exact avoids_evaluateChecks _ true
  · cases h

theorem Unqueued.setCall (h : Unqueued w) (caller : ℕ) {c : GatewayCall P}
    (hc : c.waited = 0 ∧ c.offered = false) : Unqueued (w.setCall caller c) where
  empty := h.empty
  direct := h.direct
  unwaited := by
    intro c' hc'
    rcases List.mem_or_eq_of_mem_set hc' with hmem | rfl
    · exact h.unwaited c' hmem
    · exact hc

theorem Unqueued.limits (h : Unqueued w) {act : LimiterAct} {limits : LimiterWorld P.rateLimiter}
    (hact : ∀ request, act ≠ .arrive request) (hstep : w.limits.step act = some limits) :
    limits.queue.queues = .empty ∧
      ∀ t ∈ limits.tasks, Avoids LimitOp.isEnqueue (LimitTask.rest t) := by
  cases act with
  | arrive request => exact absurd rfl (hact request)
  | advance caller =>
      obtain ⟨t, ht, hadvance⟩ := Option.bind_eq_some_iff.mp hstep
      obtain ⟨hqueue, t', htasks, ht'⟩ :=
        advance_queue hadvance (h.direct t (List.mem_of_getElem? ht))
      refine ⟨hqueue ▸ h.empty, fun s hs => ?_⟩
      rw [htasks] at hs
      rcases List.mem_or_eq_of_mem_set hs with hmem | rfl
      · exact h.direct s hmem
      · exact ht'
  | poll =>
      obtain rfl := Option.some.inj hstep
      rw [poll_of_empty h.empty]
      exact ⟨h.empty, h.direct⟩
  | tick ms =>
      obtain rfl := Option.some.inj hstep
      exact ⟨h.empty, h.direct⟩
  | resetClient clientId =>
      obtain rfl := Option.some.inj hstep
      exact ⟨h.empty, h.direct⟩
  | resetAll =>
      obtain rfl := Option.some.inj hstep
      exact ⟨h.empty, h.direct⟩

theorem Unqueued.observe (h : Unqueued w) (act : LimiterAct) {c : GatewayCall P}
    (hc : c ∈ w.calls) : (w.observe act c).waited = 0 ∧ (w.observe act c).offered = false := by
  have hstands : c.asked.any w.stands = false := by
    cases c.asked with
    | none => rfl
    | some n => exact stands_of_empty h.empty n
  have hoffers : c.asked.any w.offers = false := by
    cases c.asked with
    | none => rfl
    | some n => exact offers_of_empty h.empty n
  obtain ⟨hwaited, hoffered⟩ := h.unwaited c hc
  cases act with
  | tick ms => simp [LimitedGateway.observe, hstands, hwaited, hoffered]
  | poll => simp [LimitedGateway.observe, hoffers, hwaited, hoffered]
  | arrive request => exact ⟨hwaited, hoffered⟩
  | advance caller => exact ⟨hwaited, hoffered⟩
  | resetClient clientId => exact ⟨hwaited, hoffered⟩
  | resetAll => exact ⟨hwaited, hoffered⟩

theorem told_cases {caller : ℕ} {c c' : GatewayCall P} {result : RateLimitCheckResult}
    (h : w.told caller = some (c, result, c')) :
    c ∈ w.calls ∧ c'.waited = c.waited ∧ c'.offered = c.offered := by
  obtain ⟨c₀, hc, hasked⟩ := Option.bind_eq_some_iff.mp h
  obtain ⟨n, -, htask⟩ := Option.bind_eq_some_iff.mp hasked
  obtain ⟨t, -, hresult⟩ := Option.bind_eq_some_iff.mp htask
  obtain ⟨r, -, hadvance⟩ := Option.bind_eq_some_iff.mp hresult
  obtain ⟨thread, -, heq⟩ := Option.map_eq_some_iff.mp hadvance
  obtain ⟨rfl, heq'⟩ := Prod.mk.inj heq
  obtain ⟨rfl, rfl⟩ := Prod.mk.inj heq'
  exact ⟨List.mem_of_getElem? hc, rfl, rfl⟩

theorem Unqueued.step (h : Unqueued w) {act : GatewayAct} {w' : LimitedGateway P}
    (hstep : w.step act = some w') : Unqueued w' := by
  cases act with
  | arrive call =>
      obtain rfl := Option.some.inj hstep
      refine ⟨h.empty, h.direct, fun c hc => ?_⟩
      rcases List.mem_append.mp hc with hmem | hnew
      · exact h.unwaited c hmem
      · obtain rfl := List.mem_singleton.mp hnew
        exact ⟨rfl, rfl⟩
  | answer caller answers =>
      obtain ⟨c, hc, hadvance⟩ := Option.bind_eq_some_iff.mp hstep
      obtain ⟨r, -, rfl⟩ := Option.map_eq_some_iff.mp hadvance
      exact h.setCall caller (h.unwaited c (List.mem_of_getElem? hc))
  | asks caller =>
      obtain ⟨c, hc, hasked⟩ := Option.bind_eq_some_iff.mp hstep
      split at hasked
      · cases hasked
      · obtain ⟨request, hrequest, harrive⟩ := Option.bind_eq_some_iff.mp hasked
        obtain ⟨limits, hlimits, rfl⟩ := Option.map_eq_some_iff.mp harrive
        obtain rfl := Option.some.inj hlimits
        have hdirect : Avoids LimitOp.isEnqueue (P.rateLimiter.answer request) := by
          unfold GatewayCall.request? at hrequest
          split at hrequest
          · exact avoids_limitRequest hrequest
          · cases hrequest
        have hasks : (w.setCall caller { c with asked := some w.limits.tasks.length }).Unqueued :=
          h.setCall caller (h.unwaited c (List.mem_of_getElem? hc))
        refine ⟨h.empty, fun t ht => ?_, hasks.unwaited⟩
        rcases List.mem_append.mp ht with hmem | hnew
        · exact h.direct t hmem
        · obtain rfl := List.mem_singleton.mp hnew
          exact hdirect
  | returns caller =>
      obtain ⟨⟨c, result, c'⟩, htold, rfl⟩ := Option.map_eq_some_iff.mp hstep
      obtain ⟨hmem, hwaited, hoffered⟩ := told_cases htold
      refine h.setCall caller ?_
      rw [hwaited, hoffered]
      exact h.unwaited c hmem
  | limiter act =>
      have hact : ∀ request, act ≠ .arrive request := by
        rintro request rfl
        cases hstep
      have hstep' : (w.limits.step act).map (fun limits =>
          ({ limits := limits, calls := w.calls.map (w.observe act) } : LimitedGateway P)) =
            some w' := by
        cases act with
        | arrive request => exact absurd rfl (hact request)
        | advance caller => exact hstep
        | poll => exact hstep
        | tick ms => exact hstep
        | resetClient clientId => exact hstep
        | resetAll => exact hstep
      obtain ⟨limits, hlimits, rfl⟩ := Option.map_eq_some_iff.mp hstep'
      obtain ⟨hempty, hdirect⟩ := h.limits hact hlimits
      refine ⟨hempty, hdirect, fun c hc => ?_⟩
      obtain ⟨c₀, hc₀, rfl⟩ := List.mem_map.mp hc
      exact h.observe act hc₀

theorem Unqueued.honoursQueue (h : Unqueued w) {act : GatewayAct} (hwithin : w.WithinLimits act) :
    w.HonoursQueue act := by
  intro refused hrefusal
  cases act with
  | returns caller =>
      obtain ⟨⟨c', result', after⟩, htold, hguard⟩ := Option.bind_eq_some_iff.mp hrefusal
      split at hguard
      next hrefused =>
        obtain rfl := Option.some.inj hguard
        have hdenied : result'.allowed = false := by
          simp only [Bool.and_eq_true, Bool.not_eq_true'] at hrefused
          exact hrefused.1
        obtain ⟨hwaited, hoffered⟩ := h.unwaited _ (told_cases htold).1
        refine ⟨?_, hoffered⟩
        rcases hwithin caller _ rfl htold hdenied with hsize | hwait
        · exact .inl (hsize ▸ Nat.zero_le _)
        · exact .inr (hwait ▸ Nat.zero_le _)
      next => cases hguard
  | arrive call => cases hrefusal
  | answer caller answers => cases hrefusal
  | asks caller => cases hrefusal
  | limiter act => cases hrefusal

end LimitedGateway

open LimitedGateway

variable (P : RequestPipeline) (limiter : SlidingWindowLimiter) (clock : ℕ)

theorem queue_honoured {acts : List GatewayAct}
    (h : Transition.Along step WithinLimits (start P limiter clock) acts) :
    Transition.Along step HonoursQueue (start P limiter clock) acts :=
  Transition.Along.of_invariant step (I := Unqueued)
    (fun _ _ _ hw _ hstep => hw.step hstep) (fun _ _ hw hwithin => hw.honoursQueue hwithin)
    (unqueued_start limiter clock) h

section Example

def queueing (queue : QueueConfig) : RequestPipeline where
  host := plainHost
  config :=
    { servers := [{ id := "crm", url := "http://crm" }]
      rateLimits := some
        { enabled := true, global := some { requestsPerMinute := some 1 }, queue := some queue } }
  hasRateLimiter := true

-- two calls one after the other, the second beyond the limit of one a minute
def twoCalls : List GatewayAct :=
  [.arrive (callOf "list"), .answer 0 permissive, .asks 0, .limiter (.advance 0),
    .limiter (.advance 0), .returns 0, .arrive (callOf "list"), .answer 1 permissive, .asks 1,
    .limiter (.advance 1), .returns 1]

theorem queue_honoured_without_room :
    Transition.Along step HonoursQueue (start (queueing ⟨true, 5000, 0⟩) (.init none) 0)
      twoCalls :=
  queue_honoured _ _ _ (Transition.Along.of_forall step
    (fun _ _ _ _ _ _ _ _ => .inl rfl) _)

-- the queue is empty and has room for ten, and the second call is refused all the same
theorem refused_at_once : ∃ P limiter clock acts,
    P.rateLimiter.config.enabled = true ∧ P.queueConfig = ⟨true, 5000, 10⟩ ∧
      ¬ Transition.Along step HonoursQueue (start P limiter clock) acts :=
  ⟨queueing ⟨true, 5000, 10⟩, .init none, 0, twoCalls, rfl, rfl, by decide +kernel⟩

end Example

end Conduit.Gateway
