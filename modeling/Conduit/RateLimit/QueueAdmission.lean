import Conduit.RateLimit.QueueLedger

namespace Conduit.RateLimit

namespace SlidingWindowLimiter

variable {L L' : SlidingWindowLimiter} {now : ℕ} {checks : List RateLimitCheck}

def Fits (L : SlidingWindowLimiter) (now : ℕ) (check : RateLimitCheck) : Prop :=
  ((L.usage check.key check.windowMs now).length : ℤ) ≤ max 0 check.limit

instance (L : SlidingWindowLimiter) (now : ℕ) (check : RateLimitCheck) :
    Decidable (L.Fits now check) :=
  inferInstanceAs (Decidable (_ ≤ _))

-- what one operation of the backend on behalf of the checks can do to any bucket
def Follows (L L' : SlidingWindowLimiter) (now : ℕ) (checks : List RateLimitCheck) : Prop :=
  ∀ key windowMs, L'.usage key windowMs now = L.usage key windowMs now ∨
    L'.usage key windowMs now = [] ∨
    ∃ check ∈ checks, check.bucket = (key, windowMs) ∧
      ((L.usage key windowMs now).length : ℤ) < check.limit ∧
      L'.usage key windowMs now = L.usage key windowMs now ++ [now]

theorem usage_eq_of_get? {sk : String} {key : String} {windowMs : ℕ}
    (hsk : sk = storageKey key windowMs)
    (h : L'.store.get? sk = L.store.get? sk ∨ L'.store.get? sk = none) :
    L'.usage key windowMs now = L.usage key windowMs now ∨ L'.usage key windowMs now = [] := by
  subst hsk
  unfold usage bucket
  rcases h with heq | hnone
  · rw [heq]
    exact .inl rfl
  · rw [hnone]
    exact .inr rfl

theorem follows_check (L : SlidingWindowLimiter) (key : String) (limit : ℤ) (windowMs now : ℕ) :
    L.Follows (L.check key limit windowMs now).1 now checks :=
  fun key' windowMs' => .inl (L.sameUsage_getValid key windowMs now key' windowMs')

theorem follows_consume (L : SlidingWindowLimiter) (now : ℕ) {check : RateLimitCheck}
    (hcheck : check ∈ checks) :
    L.Follows (L.consume check.key check.limit check.windowMs now).1 now checks := by
  intro key windowMs
  by_cases hfull : L.full check.key check.limit check.windowMs now
  · rw [(consume_of_full hfull).1]
    exact .inl (L.sameUsage_getValid check.key check.windowMs now key windowMs)
  · rw [(consume_of_not_full hfull).1]
    by_cases hkey : storageKey key windowMs = storageKey check.key check.windowMs
    · obtain ⟨rfl, rfl⟩ := storageKey_inj.1 hkey
      refine .inr (.inr ⟨check, hcheck, rfl, not_le.mp hfull, ?_⟩)
      rw [usage, L.afterCharge check.key check.windowMs now |>.bucket_of_get?
        (get?_afterCharge_self ..), valid_append, valid_valid le_rfl]
      simp [usage, valid]
    · exact (usage_eq_of_get? rfl (get?_afterCharge_of_ne hkey now)).imp_right .inl

theorem Fits.follows {c : RateLimitCheck} (h : L.Fits now c) (hfollows : L.Follows L' now checks)
    (hlimit : ∀ check ∈ checks, check.bucket = c.bucket → check.limit = c.limit) :
    L'.Fits now c := by
  rw [Fits]
  rcases hfollows c.key c.windowMs with hsame | hgone | ⟨check, hcheck, hbucket, hroom, hcharged⟩
  · rw [hsame]
    exact h
  · rw [hgone]
    exact le_max_left _ _
  · rw [hcharged, List.length_append, List.length_singleton]
    have hsame := hlimit check hcheck hbucket
    push_cast
    omega

theorem length_usage_le (L : SlidingWindowLimiter) (key : String) (windowMs : ℕ) {later : ℕ}
    (h : now ≤ later) :
    (L.usage key windowMs later).length ≤ (L.usage key windowMs now).length := by
  rw [usage, ← valid_valid h]
  exact List.length_filter_le ..

theorem follows_reset (L : SlidingWindowLimiter) (key : String) :
    L.Follows (L.reset key) now checks := by
  intro key' windowMs
  have hstore : (L.reset key).store.get? (storageKey key' windowMs) =
        L.store.get? (storageKey key' windowMs) ∨
      (L.reset key).store.get? (storageKey key' windowMs) = none := by
    rw [reset, OrderedMap.get?_foldl_delete]
    split
    · exact .inr rfl
    · exact .inl rfl
  exact (usage_eq_of_get? rfl hstore).imp_right .inl

theorem follows_resetAll (L : SlidingWindowLimiter) : L.Follows L.resetAll now checks :=
  fun _ _ => .inr (.inl rfl)

end SlidingWindowLimiter

namespace LimiterWorld

open Program SlidingWindowLimiter

variable {R : RateLimiter} {w w' s : LimiterWorld R}

structure Within (w : LimiterWorld R) : Prop where
  agreed : SameLimits w.declared w.declared
  bounded : ∀ c ∈ w.declared, w.limiter.Fits w.clock c
  owned : ∀ key windowMs, w.limiter.usage key windowMs w.clock ≠ [] →
    ∃ c ∈ w.declared, c.bucket = (key, windowMs)
  queued : ∀ key state, w.queue.queues.get? key = some state →
    ∃ c ∈ w.declared, c.bucket = (key, state.windowMs) ∧ c.limit = state.limit

theorem within_init (R : RateLimiter) : (init R).Within where
  agreed := by simp [SameLimits, declared, requests, init]
  bounded := by simp [declared, requests, init]
  owned := fun _ _ h => absurd rfl h
  queued := by simp [init, RequestQueue.init]

def threads (w : LimiterWorld R) : List (Thread R.answer) := w.tasks.map LimitTask.thread

theorem declared_of_threads (h : s.threads = w.threads) : s.declared = w.declared := by
  have hrequests : ∀ w : LimiterWorld R, w.requests = w.threads.map Thread.input := by
    intro w
    rw [threads, List.map_map]
    rfl
  rw [declared, declared, hrequests, hrequests, h]

-- a step that asks the backend on behalf of the declared checks
theorem Within.follows (h : w.Within) (hdeclared : s.declared = w.declared)
    (hclock : s.clock = w.clock) (hqueue : s.queue = w.queue)
    (hfollows : w.limiter.Follows s.limiter w.clock w.declared) : s.Within := by
  constructor
  · rw [hdeclared]
    exact h.agreed
  · intro c hc
    rw [hdeclared] at hc
    rw [hclock]
    exact (h.bounded c hc).follows hfollows fun check hcheck => h.agreed check hcheck c hc
  · intro key windowMs husage
    rw [hclock] at husage
    rw [hdeclared]
    rcases hfollows key windowMs with hsame | hgone | ⟨check, hcheck, hbucket, -, -⟩
    · exact h.owned key windowMs (hsame ▸ husage)
    · exact absurd hgone husage
    · exact ⟨check, hcheck, hbucket⟩
  · rw [hqueue, hdeclared]
    exact h.queued

-- a step of the queue alone
theorem Within.requeued (h : w.Within) (hdeclared : s.declared = w.declared)
    (hclock : s.clock = w.clock) (hlimiter : s.limiter = w.limiter)
    (hqueued : ∀ key state, s.queue.queues.get? key = some state →
      ∃ c ∈ w.declared, c.bucket = (key, state.windowMs) ∧ c.limit = state.limit) : s.Within := by
  constructor
  · rw [hdeclared]
    exact h.agreed
  · rw [hdeclared, hlimiter, hclock]
    exact h.bounded
  · rw [hdeclared, hlimiter, hclock]
    exact h.owned
  · rw [hdeclared]
    exact hqueued

section Polling

theorem threads_settle (w : LimiterWorld R) (key : String) (entry : QueueEntry) (resolved : Bool) :
    (w.settle key entry resolved).threads = w.threads := by
  apply List.ext_getElem?
  intro c
  rw [threads, threads, List.getElem?_map, List.getElem?_map, getElem?_settle, Option.map_map]
  congr 1
  funext t
  simp only [Function.comp]
  split <;> rfl

theorem Within.settle (h : w.Within) (key : String) (entry : QueueEntry) (resolved : Bool) :
    (w.settle key entry resolved).Within := by
  refine h.requeued (declared_of_threads (threads_settle ..)) rfl rfl fun key' state' hstate' => ?_
  obtain ⟨before, hbefore, hwindow, hlimit, -⟩ := get?_remove w.queue _ _ hstate'
  rw [hwindow, hlimit]
  exact h.queued key' before hbefore

theorem Within.rejectExpired (h : w.Within) (key : String) (line : List QueueEntry) :
    (rejectExpired key line w).Within ∧ (rejectExpired key line w).threads = w.threads := by
  induction line generalizing w with
  | nil => exact ⟨h, rfl⟩
  | cons entry line ih =>
      unfold LimiterWorld.rejectExpired
      split
      · have hrest := ih (h.settle key entry false)
        exact ⟨hrest.1, hrest.2.trans (threads_settle ..)⟩
      · exact ih h

theorem Within.admitNext (h : w.Within) {key : String} {limit : ℤ} {windowMs : ℕ}
    (hlimit : ∃ c ∈ w.declared, c.bucket = (key, windowMs) ∧ c.limit = limit)
    (entry : QueueEntry) : (w.admitNext key limit windowMs entry).Within ∧
      (w.admitNext key limit windowMs entry).threads = w.threads := by
  unfold LimiterWorld.admitNext
  refine ⟨Within.settle (Within.follows h ?_ ?_ ?_ ?_) .., threads_settle ..⟩
  · rfl
  · rfl
  · rfl
  · obtain ⟨c, hc, hbucket, rfl⟩ := hlimit
    obtain ⟨rfl, rfl⟩ := Prod.mk.inj hbucket
    exact follows_consume w.limiter w.clock hc

theorem Within.admitWaiting (h : w.Within) {key : String} {limit : ℤ} {windowMs : ℕ}
    (hlimit : ∃ c ∈ w.declared, c.bucket = (key, windowMs) ∧ c.limit = limit)
    (line : List QueueEntry) :
    (admitWaiting key limit windowMs line w).Within ∧
      (admitWaiting key limit windowMs line w).threads = w.threads := by
  induction line generalizing w with
  | nil => exact ⟨h, rfl⟩
  | cons entry line ih =>
      unfold LimiterWorld.admitWaiting
      dsimp only
      have hseen : Within { w with limiter := (w.limiter.check key limit windowMs w.clock).1 } :=
        h.follows rfl rfl rfl (follows_check w.limiter key limit windowMs w.clock)
      split
      · obtain ⟨hadmitted, hthreads⟩ := hseen.admitNext hlimit entry
        have hrest := ih hadmitted (by rw [declared_of_threads hthreads]; exact hlimit)
        exact ⟨hrest.1, hrest.2.trans hthreads⟩
      · exact ⟨hseen, rfl⟩

theorem Within.pollKey (h : w.Within) (key : String) :
    (w.pollKey key).Within ∧ (w.pollKey key).threads = w.threads := by
  unfold LimiterWorld.pollKey
  split
  · exact ⟨h, rfl⟩
  next state hstate =>
    obtain ⟨hpruned, hthreads⟩ := h.rejectExpired key state.entries
    have hlimit := h.queued key state hstate
    rw [← declared_of_threads hthreads] at hlimit
    obtain ⟨hadmitted, hsame⟩ := hpruned.admitWaiting hlimit
      ((LimiterWorld.rejectExpired key state.entries w).queue.entriesOf key)
    exact ⟨hadmitted.requeued rfl rfl rfl fun key' state' hstate' =>
      hadmitted.queued key' state' (get?_of_dropIfEmpty hstate'), hsame.trans hthreads⟩

theorem Within.poll (h : w.Within) : w.poll.Within ∧ w.poll.threads = w.threads := by
  unfold LimiterWorld.poll
  generalize w.queue.queues.keys = keys
  induction keys generalizing w with
  | nil => exact ⟨h, rfl⟩
  | cons key keys ih =>
      obtain ⟨hkey, hthreads⟩ := h.pollKey key
      obtain ⟨hrest, hsame⟩ := ih hkey
      exact ⟨hrest, hsame.trans hthreads⟩

end Polling

section Advancing

variable {caller : ℕ} {t : LimitTask R}

theorem RateLimiter.distinct_checksOf (R : RateLimiter) (request : LimitRequest) :
    Distinct (R.checksOf request) := by
  cases request with
  | consumeWithQueue => exact RateLimiter.distinct_getChecks
  | consume => exact RateLimiter.distinct_getChecks
  | consumeClientLimits => exact RateLimiter.distinct_getClientChecks
  | consumeServerLimits => exact RateLimiter.distinct_getServerChecks
  | check => exact RateLimiter.distinct_getChecks

theorem declared_arrive (w : LimiterWorld R) (request : LimitRequest) :
    declared { w with tasks := w.tasks ++ [⟨.spawn _ request, none⟩] } =
      w.declared ++ R.checksOf request := by
  simp [declared, requests, LimitTask.request, Thread.spawn]

theorem Within.arrive (h : w.Within) {request : LimitRequest}
    (hfair : SameLimits w.declared (R.checksOf request)) :
    Within { w with tasks := w.tasks ++ [⟨.spawn _ request, none⟩] } := by
  constructor
  · rw [declared_arrive]
    intro c hc d hd hbucket
    rcases List.mem_append.mp hc with hold | hnew
    · rcases List.mem_append.mp hd with hold' | hnew'
      · exact h.agreed c hold d hold' hbucket
      · exact hfair c hold d hnew' hbucket
    · rcases List.mem_append.mp hd with hold' | hnew'
      · exact (hfair d hold' c hnew hbucket.symm).symm
      · rw [List.inj_on_of_nodup_map (RateLimiter.distinct_checksOf R request) hnew hnew' hbucket]
  · rw [declared_arrive]
    intro c hc
    rcases List.mem_append.mp hc with hold | hnew
    · exact h.bounded c hold
    · by_cases husage : w.limiter.usage c.key c.windowMs w.clock = []
      · simp [Fits, husage]
      · obtain ⟨d, hd, hbucket⟩ := h.owned _ _ husage
        obtain ⟨hkey, hwindow⟩ := Prod.mk.inj hbucket
        have hfits := h.bounded d hd
        rw [Fits, hkey, hwindow, hfair d hd c hnew hbucket] at hfits
        exact hfits
  · rw [declared_arrive]
    intro key windowMs husage
    obtain ⟨c, hc, hbucket⟩ := h.owned key windowMs husage
    exact ⟨c, List.mem_append_left _ hc, hbucket⟩
  · rw [declared_arrive]
    intro key state hstate
    obtain ⟨c, hc, hqueued⟩ := h.queued key state hstate
    exact ⟨c, List.mem_append_left _ hc, hqueued⟩

theorem mem_declared (ht : w.tasks[caller]? = some t) {c : RateLimitCheck} (hc : c ∈ t.checks) :
    c ∈ w.declared :=
  List.mem_flatMap.mpr ⟨t.request, List.mem_map_of_mem (List.mem_of_getElem? ht), hc⟩

theorem declared_setTask (ht : s.tasks[caller]? = some t) {t' : LimitTask R}
    (hrequest : t'.request = t.request) : (s.setTask caller t').declared = s.declared := by
  have hrequests : (s.setTask caller t').requests = s.requests := by
    apply List.ext_getElem?
    intro c
    rw [requests, requests, List.getElem?_map, List.getElem?_map, getElem?_setTask s ht]
    split
    next heq =>
      rw [heq, ht]
      exact congrArg some hrequest
    next => rfl
  rw [declared, hrequests, declared]

theorem Within.advance (h : w.Within) (ht : w.tasks[caller]? = some t)
    (hstep : w.advance caller t = some w') : w'.Within := by
  obtain ⟨⟨s, thread⟩, hadvance, rfl⟩ := Option.map_eq_some_iff.mp hstep
  obtain ⟨o, next, hrest, a, hserve, rfl⟩ := Thread.advance_eq_some hadvance
  have hemits := LimitTask.emits_of_rest (t := t) hrest
  have hsame : ∀ s : LimiterWorld R, s.tasks = w.tasks →
      (s.setTask caller { t with thread := t.thread.answer hrest a }).declared = w.declared := by
    intro s htasks
    have hkept : s.declared = w.declared := by rw [declared, requests, htasks, declared, requests]
    have hrequest : ({ t with thread := t.thread.answer hrest a } : LimitTask R).request =
        t.request := rfl
    rw [← htasks] at ht
    exact (declared_setTask ht hrequest).trans hkept
  cases o with
  | consume c =>
      obtain ⟨rfl, rfl⟩ := Prod.mk.inj (Option.some.inj hserve)
      exact h.follows (hsame _ rfl) rfl rfl (follows_consume _ _ (mem_declared ht hemits))
  | check c =>
      obtain ⟨rfl, rfl⟩ := Prod.mk.inj (Option.some.inj hserve)
      exact h.follows (hsame _ rfl) rfl rfl (follows_check _ c.key c.limit c.windowMs _)
  | now =>
      obtain ⟨rfl, rfl⟩ := Prod.mk.inj (Option.some.inj hserve)
      exact h.requeued (hsame _ rfl) rfl rfl h.queued
  | enqueue key limit windowMs =>
      obtain ⟨rfl, rfl⟩ := Prod.mk.inj (Option.some.inj hserve)
      refine h.requeued (hsame _ rfl) rfl rfl fun key' state hstate => ?_
      change (w.queue.enqueue key limit windowMs caller w.clock).1.queues.get? key' = _ at hstate
      obtain ⟨-, -, c, hc, rfl, rfl, rfl⟩ := hemits
      cases haccepted : (w.queue.enqueue c.key c.limit c.windowMs caller w.clock).2 with
      | false =>
          rw [enqueue_rejected haccepted] at hstate
          exact h.queued key' state hstate
      | true =>
          rw [get?_enqueue haccepted] at hstate
          split at hstate
          next heq =>
            subst heq
            obtain rfl := Option.some.inj hstate
            unfold RequestQueue.push
            cases hkey : w.queue.queues.get? c.key with
            | none => exact ⟨c, mem_declared ht hc, rfl, rfl⟩
            | some before => exact h.queued c.key before hkey
          next => exact h.queued key' state hstate
  | awaitSlot =>
      obtain ⟨resolved, -, heq⟩ := Option.map_eq_some_iff.mp hserve
      obtain ⟨rfl, rfl⟩ := Prod.mk.inj heq
      exact h.requeued (hsame _ rfl) rfl rfl h.queued

theorem Within.step (h : w.Within) (act : LimiterAct) (hfair : w.Fair act)
    (hstep : w.step act = some w') : w'.Within := by
  cases act with
  | arrive request =>
      obtain rfl := Option.some.inj hstep
      exact h.arrive hfair
  | advance caller =>
      obtain ⟨t, ht, hadvance⟩ := Option.bind_eq_some_iff.mp hstep
      exact h.advance ht hadvance
  | poll =>
      obtain rfl := Option.some.inj hstep
      exact h.poll.1
  | tick ms =>
      obtain rfl := Option.some.inj hstep
      refine ⟨h.agreed, fun c hc => ?_, fun key windowMs husage => ?_, h.queued⟩
      · have hlater := w.limiter.length_usage_le c.key c.windowMs (Nat.le_add_right w.clock ms)
        exact le_trans (by exact_mod_cast hlater) (h.bounded c hc)
      · refine h.owned key windowMs fun hempty => husage ?_
        have hlater := w.limiter.length_usage_le key windowMs (Nat.le_add_right w.clock ms)
        rw [hempty] at hlater
        exact List.length_eq_zero_iff.mp (Nat.le_zero.mp hlater)
  | resetClient clientId =>
      obtain rfl := Option.some.inj hstep
      have hclient : Within { w with limiter := w.limiter.reset (clientKey clientId) } :=
        h.follows rfl rfl rfl (follows_reset w.limiter _)
      exact hclient.follows rfl rfl rfl (follows_reset (w.limiter.reset _) _)
  | resetAll =>
      obtain rfl := Option.some.inj hstep
      exact h.follows rfl rfl rfl (follows_resetAll w.limiter)

-- every queue that was joined was for the only window its key has in the call's checks
def Lone (w : LimiterWorld R) : Prop :=
  ∀ (c : ℕ) (t : LimitTask R), w.tasks[c]? = some t → ∀ b ∈ joined t.trace,
    KeyWindow t.checks b.1 b.2

theorem Lone.of_threads (h : w.Lone) (hthreads : s.threads = w.threads) : s.Lone := by
  intro c t ht
  have hthread : w.threads[c]? = some t.thread := by
    rw [← hthreads, threads, List.getElem?_map, ht]
    rfl
  rw [threads, List.getElem?_map] at hthread
  obtain ⟨u, hu, heq⟩ := Option.map_eq_some_iff.mp hthread
  have hlone := h c u hu
  rw [LimitTask.trace, LimitTask.checks, LimitTask.request, heq] at hlone
  exact hlone

theorem Lone.advance (h : w.Lone) (hfair : w.Fair (.advance caller))
    (ht : w.tasks[caller]? = some t) (hstep : w.advance caller t = some w') : w'.Lone := by
  obtain ⟨⟨s, thread⟩, hadvance, rfl⟩ := Option.map_eq_some_iff.mp hstep
  obtain ⟨o, next, hrest, a, hserve, rfl⟩ := Thread.advance_eq_some hadvance
  have htasks : s.tasks = w.tasks := by
    cases o with
    | awaitSlot =>
        obtain ⟨resolved, -, heq⟩ := Option.map_eq_some_iff.mp hserve
        rw [← (Prod.mk.inj heq).1]
    | _ => rw [← (Prod.mk.inj (Option.some.inj hserve)).1]
  intro c u hu
  rw [getElem?_setTask s (htasks ▸ ht)] at hu
  split at hu
  next =>
    obtain rfl := Option.some.inj hu
    intro b hb
    change b ∈ joined (t.trace ++ [⟨o, a⟩]) at hb
    rw [joined_snoc] at hb
    rcases List.mem_append.mp hb with hold | hnew
    · exact h caller t ht b hold
    · cases o with
      | enqueue key limit windowMs =>
          have hbucket : b = (key, windowMs) := by
            rw [joinedBucket?] at hnew
            split at hnew
            · exact List.mem_singleton.mp hnew
            · cases hnew
          rw [hbucket]
          exact (hfair (t, key, windowMs) (joins?_of_rest ht hrest)).1
      | _ => cases hnew
  next =>
    rw [htasks] at hu
    exact h c u hu

theorem Lone.step (h : w.Lone) (hwithin : w.Within) (act : LimiterAct) (hfair : w.Fair act)
    (hstep : w.step act = some w') : w'.Lone := by
  cases act with
  | arrive request =>
      obtain rfl := Option.some.inj hstep
      intro c t ht
      rcases lt_or_ge c w.tasks.length with hlt | hge
      · rw [List.getElem?_append_left hlt] at ht
        exact h c t ht
      · rw [List.getElem?_append_right hge, List.getElem?_singleton] at ht
        obtain ⟨-, heq⟩ := Option.ite_none_right_eq_some.mp ht
        obtain rfl := Option.some.inj heq
        intro b hb
        cases hb
  | advance caller =>
      obtain ⟨t, ht, hadvance⟩ := Option.bind_eq_some_iff.mp hstep
      exact h.advance hfair ht hadvance
  | poll =>
      obtain rfl := Option.some.inj hstep
      exact h.of_threads hwithin.poll.2
  | tick ms =>
      obtain rfl := Option.some.inj hstep
      exact h
  | resetClient clientId =>
      obtain rfl := Option.some.inj hstep
      exact h
  | resetAll =>
      obtain rfl := Option.some.inj hstep
      exact h

end Advancing

section Admission

structure Sound (w : LimiterWorld R) : Prop where
  ledger : w.Ledger
  within : w.Within
  lone : w.Lone

theorem sound_init (R : RateLimiter) : (init R).Sound :=
  ⟨ledger_init R, within_init R, fun c t ht => by simp [init] at ht⟩

theorem Sound.step (h : w.Sound) (act : LimiterAct) (hfair : w.Fair act)
    (hstep : w.step act = some w') : w'.Sound :=
  ⟨h.ledger.step act hfair hstep, h.within.step act hfair hstep,
    h.lone.step h.within act hfair hstep⟩

-- each allowed call is on the books once in every bucket it counts in
def RecordedOnce (w : LimiterWorld R) : Prop :=
  ∀ (c : ℕ) (t : LimitTask R), w.tasks[c]? = some t → ∀ clientId serverId toolName,
    t.request = .consumeWithQueue clientId serverId toolName → ∀ r ∈ t.result?, r.allowed = true →
      ∀ check ∈ R.getChecks clientId serverId toolName,
        w.charges.count ⟨c, check.bucket⟩ = 1

-- no bucket that has a limit holds more than that inside its window
def LimitsKept (w : LimiterWorld R) : Prop :=
  (∀ check ∈ w.declared, w.limiter.Fits w.clock check) ∧
    ∀ key windowMs, w.limiter.usage key windowMs w.clock ≠ [] →
      ∃ check ∈ w.declared, check.bucket = (key, windowMs)

theorem count_bucket {checks : List RateLimitCheck} (h : Distinct checks) {check : RateLimitCheck}
    (hcheck : check ∈ checks) (key : String) :
    ((checks.filter fun c => c.key ≠ key).map RateLimitCheck.bucket).count check.bucket =
      if check.key = key then 0 else 1 := by
  split
  next heq =>
    rw [List.count_eq_zero]
    intro hmem
    obtain ⟨d, hd, hbucket⟩ := List.mem_map.mp hmem
    have hne : d.key ≠ key := by simpa using (List.mem_filter.mp hd).2
    exact hne ((congrArg Prod.fst hbucket).trans heq)
  next hne =>
    apply List.count_eq_one_of_mem
    · exact List.Nodup.sublist (List.filter_sublist.map _) h
    · exact List.mem_map_of_mem (List.mem_filter.mpr ⟨hcheck, by simpa using hne⟩)

theorem count_of_recorded {t : LimitTask R} {check : RateLimitCheck}
    (hdistinct : Distinct t.checks) (hrecorded : Recorded t.checks t.trace)
    (hslot : Admitted t.trace → t.slot = some true)
    (hlone : ∀ b ∈ joined t.trace, KeyWindow t.checks b.1 b.2) (hcheck : check ∈ t.checks) :
    recordings t check.bucket = 1 := by
  rcases hrecorded with ⟨hjoined, hcharged⟩ | ⟨c, hc, hjoined, hadmitted, hcharged⟩
  · rw [recordings, hjoined, hcharged, List.count_nil, ite_self, Nat.add_zero]
    exact List.count_eq_one_of_mem hdistinct (List.mem_map_of_mem hcheck)
  · rw [recordings, hjoined, hcharged, if_pos (hslot hadmitted), count_bucket hdistinct hcheck]
    have hwindow := hlone c.bucket (by simp [hjoined])
    by_cases hkey : check.key = c.key
    · have hbucket : check.bucket = c.bucket := Prod.ext hkey (hwindow check hcheck hkey)
      rw [if_pos hkey, hbucket]
      simp
    · have hbucket : c.bucket ≠ check.bucket := fun heq => hkey (congrArg Prod.fst heq).symm
      rw [if_neg hkey]
      simp [hbucket]

theorem Sound.recordedOnce (h : w.Sound) : w.RecordedOnce := by
  intro c t ht clientId serverId toolName hrequest r hr hallowed check hcheck
  have hresult : t.rest = .pure r := by
    unfold LimitTask.result? at hr
    split at hr
    next r' hrest => rw [hrest, Option.some.inj hr]
    next => cases hr
  have hchecks : t.checks = R.getChecks clientId serverId toolName := by
    rw [LimitTask.checks, hrequest, RateLimiter.checksOf]
  rw [← hchecks] at hcheck
  rw [h.ledger.counted c t ht]
  exact count_of_recorded (RateLimiter.distinct_checksOf R t.request)
    (LimitTask.recorded_of_result hresult hrequest hallowed) (h.ledger.slotted c t ht)
    (h.lone c t ht) hcheck

theorem queue_respects_limits (R : RateLimiter) (acts : List LimiterAct) (w : LimiterWorld R)
    (hfair : Transition.Along step Fair (init R) acts)
    (hrun : Transition.run step (init R) acts = some w) : w.RecordedOnce ∧ w.LimitsKept := by
  have hsound : w.Sound := Transition.run_invariant step
    (fun s act s' hs hact hstep => Sound.step hs act hact hstep) (sound_init R) hfair hrun
  exact ⟨hsound.recordedOnce, hsound.within.bounded, hsound.within.owned⟩

end Admission

section Example

def perMinute (hourly : Option ℤ) : RateLimiter where
  config := {
    enabled := true
    perClient := some { requestsPerMinute := some 1, requestsPerHour := hourly }
    queue := some ⟨true, 100000, 10⟩ }

def advances (caller n : ℕ) : List LimiterAct := List.replicate n (.advance caller)

-- the second call waits for the minute to pass
def secondWaits (limits : ℕ) : List LimiterAct :=
  .arrive (.consumeWithQueue "a" "crm" "t") :: advances 0 (4 * limits) ++
    .arrive (.consumeWithQueue "a" "crm" "t") :: advances 1 2 ++
    [.tick 60001, .poll] ++ advances 1 2

def lastWorld (R : RateLimiter) (acts : List LimiterAct) : LimiterWorld R :=
  (Transition.run step (init R) acts).getD (init R)

def allowances (w : LimiterWorld R) : List (Option Bool) :=
  w.tasks.map fun t => t.result?.map RateLimitCheckResult.allowed

theorem run_secondWaits : Transition.run step (init (perMinute none)) (secondWaits 1) =
    some (lastWorld (perMinute none) (secondWaits 1)) := rfl

theorem queue_respects_limits_second :
    Transition.Along step Fair (init (perMinute none)) (secondWaits 1) ∧
      allowances (lastWorld (perMinute none) (secondWaits 1)) = [some true, some true] ∧
      (lastWorld (perMinute none) (secondWaits 1)).RecordedOnce ∧
      (lastWorld (perMinute none) (secondWaits 1)).LimitsKept := by
  have hfair : Transition.Along step Fair (init (perMinute none)) (secondWaits 1) := by
    decide +kernel
  exact ⟨hfair, by decide +kernel,
    queue_respects_limits (perMinute none) (secondWaits 1) _ hfair run_secondWaits⟩

theorem run_secondWaits_hourly :
    Transition.run step (init (perMinute (some 5))) (secondWaits 2) =
      some (lastWorld (perMinute (some 5)) (secondWaits 2)) := rfl

-- it is charged for the minute it waited for, and never for the hour
theorem hourly_limit_escaped :
    (perMinute (some 5)).queueEnabled = true ∧
      ∃ w, Transition.run step (init (perMinute (some 5))) (secondWaits 2) = some w ∧
        ¬ w.RecordedOnce := by
  refine ⟨rfl, _, run_secondWaits_hourly, fun hrecorded => ?_⟩
  have hallowed : ((lastWorld (perMinute (some 5)) (secondWaits 2)).tasks[1]?.bind fun t =>
      t.result?.map fun r => (t.request, r.allowed)) =
        some (.consumeWithQueue "a" "crm" "t", true) := by decide +kernel
  obtain ⟨t, ht, hresult⟩ := Option.bind_eq_some_iff.mp hallowed
  obtain ⟨r, hr, heq⟩ := Option.map_eq_some_iff.mp hresult
  obtain ⟨hrequest, htrue⟩ := Prod.mk.inj heq
  have hhour : (⟨"client:a", 5, msPerHour, "client/heure"⟩ : RateLimitCheck) ∈
      (perMinute (some 5)).getChecks "a" "crm" "t" := by decide
  have hcount := hrecorded 1 t ht "a" "crm" "t" hrequest r hr htrue _ hhour
  revert hcount
  decide +kernel

end Example

end LimiterWorld

end Conduit.RateLimit
