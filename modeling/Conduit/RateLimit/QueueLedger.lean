import Conduit.RateLimit.Recording

namespace Conduit.RateLimit.LimiterWorld

open Program

variable {R : RateLimiter} {w w' : LimiterWorld R}

-- the only limit of the key that the call has is the one whose queue it joins
def KeyWindow (checks : List RateLimitCheck) (key : String) (windowMs : ℕ) : Prop :=
  ∀ c ∈ checks, c.key = key → c.windowMs = windowMs

def QueueWindow (w : LimiterWorld R) (key : String) (windowMs : ℕ) : Prop :=
  ∀ state ∈ w.queue.queues.get? key, state.windowMs = windowMs

def joins? (w : LimiterWorld R) (caller : ℕ) : Option (LimitTask R × String × ℕ) :=
  w.tasks[caller]?.bind fun t =>
    match t.pending? with
    | some (.enqueue key _ windowMs) => some (t, key, windowMs)
    | _ => none

def requests (w : LimiterWorld R) : List LimitRequest := w.tasks.map LimitTask.request

-- the limits of all the requests there have been
def declared (w : LimiterWorld R) : List RateLimitCheck := w.requests.flatMap R.checksOf

def SameLimits (checks others : List RateLimitCheck) : Prop :=
  ∀ c ∈ checks, ∀ d ∈ others, c.bucket = d.bucket → c.limit = d.limit

-- no two requests limit one bucket differently, and a call waits for a bucket of its own, in a
-- queue for that bucket, that shares its key with none of the call's other buckets
def Fair (w : LimiterWorld R) : LimiterAct → Prop
  | .arrive request => SameLimits w.declared (R.checksOf request)
  | .advance caller => ∀ join ∈ w.joins? caller,
      KeyWindow join.1.checks join.2.1 join.2.2 ∧ w.QueueWindow join.2.1 join.2.2
  | _ => True

instance (checks others : List RateLimitCheck) : Decidable (SameLimits checks others) :=
  inferInstanceAs (Decidable (∀ c ∈ checks, ∀ d ∈ others, _ → _))

instance (checks : List RateLimitCheck) (key : String) (windowMs : ℕ) :
    Decidable (KeyWindow checks key windowMs) :=
  inferInstanceAs (Decidable (∀ c ∈ checks, _ → _))

instance (w : LimiterWorld R) (key : String) (windowMs : ℕ) :
    Decidable (w.QueueWindow key windowMs) :=
  inferInstanceAs (Decidable (∀ state ∈ w.queue.queues.get? key, _ = _))

instance Fair.decidable (w : LimiterWorld R) : ∀ act, Decidable (w.Fair act)
  | .arrive request => inferInstanceAs (Decidable (SameLimits w.declared (R.checksOf request)))
  | .advance caller => inferInstanceAs (Decidable (∀ join ∈ w.joins? caller,
      KeyWindow join.1.checks join.2.1 join.2.2 ∧ w.QueueWindow join.2.1 join.2.2))
  | .poll => isTrue trivial
  | .tick _ => isTrue trivial
  | .resetClient _ => isTrue trivial
  | .resetAll => isTrue trivial

-- how often a call has been recorded in a bucket, by itself and by the poll
def recordings (t : LimitTask R) (bucket : String × ℕ) : ℕ :=
  (charged t.trace).count bucket + if t.slot = some true then (joined t.trace).count bucket else 0

structure Ledger (w : LimiterWorld R) : Prop where
  counted : ∀ (c : ℕ) (t : LimitTask R), w.tasks[c]? = some t → ∀ bucket,
    w.charges.count ⟨c, bucket⟩ = recordings t bucket
  known : ∀ charge ∈ w.charges, charge.caller < w.tasks.length
  waiting : ∀ key state, w.queue.queues.get? key = some state → ∀ entry ∈ state.entries,
    ∃ t : LimitTask R, w.tasks[entry.caller]? = some t ∧ t.slot = none ∧
      joined t.trace = [(key, state.windowMs)]
  apart : ∀ key state, w.queue.queues.get? key = some state →
    (state.entries.map QueueEntry.caller).Nodup
  unsettled : ∀ (c : ℕ) (t : LimitTask R), w.tasks[c]? = some t → joined t.trace = [] →
    t.slot = none
  slotted : ∀ (c : ℕ) (t : LimitTask R), w.tasks[c]? = some t → Admitted t.trace →
    t.slot = some true

theorem ledger_init (R : RateLimiter) : (init R).Ledger where
  counted := by simp [init]
  known := by simp [init]
  waiting := by simp [init, RequestQueue.init]
  apart := by simp [init, RequestQueue.init]
  unsettled := by simp [init]
  slotted := by simp [init]

theorem Ledger.of_eq (h : w.Ledger) (htasks : w'.tasks = w.tasks) (hqueue : w'.queue = w.queue)
    (hcharges : w'.charges = w.charges) : w'.Ledger := by
  obtain ⟨clock, limiter, queue, tasks, charges⟩ := w'
  cases htasks
  cases hqueue
  cases hcharges
  exact ⟨h.counted, h.known, h.waiting, h.apart, h.unsettled, h.slotted⟩

section Settling

variable {key : String} {entry : QueueEntry} {state : QueueKeyState}

theorem get?_remove (Q : RequestQueue) (key : String) (entry : QueueEntry) {key' : String}
    {state' : QueueKeyState} (h : (Q.remove key entry).queues.get? key' = some state') :
    ∃ state, Q.queues.get? key' = some state ∧ state'.windowMs = state.windowMs ∧
      state'.limit = state.limit ∧
      state'.entries = if key = key' then state.entries.erase entry else state.entries := by
  unfold RequestQueue.remove at h
  split at h
  next state hstate =>
    rw [OrderedMap.get?_set] at h
    split at h
    next heq =>
      subst heq
      obtain rfl := Option.some.inj h
      exact ⟨state, hstate, rfl, rfl, by simp⟩
    next hne => exact ⟨state', h, rfl, rfl, by simp [hne]⟩
  next hnone =>
    refine ⟨state', h, rfl, rfl, ?_⟩
    split
    next heq =>
      subst heq
      rw [hnone] at h
      cases h
    next => rfl

theorem getElem?_settle (w : LimiterWorld R) (key : String) (entry : QueueEntry) (resolved : Bool)
    (c : ℕ) : (w.settle key entry resolved).tasks[c]? =
      (w.tasks[c]?).map fun t => if entry.caller = c then { t with slot := some resolved } else t := by
  rw [settle, List.getElem?_modify]
  cases w.tasks[c]? <;> rfl

theorem Ledger.caller_ne_of_mem_erase (h : w.Ledger) (hstate : w.queue.queues.get? key = some state)
    (hentry : entry ∈ state.entries) {other : QueueEntry}
    (hother : other ∈ state.entries.erase entry) : other.caller ≠ entry.caller := by
  intro heq
  have hnodup := h.apart key state hstate
  obtain rfl := List.inj_on_of_nodup_map hnodup (List.mem_of_mem_erase hother) hentry heq
  exact (hnodup.of_map _).not_mem_erase hother

-- settling an entry that waits, its charge being on the books if it is resolved
theorem Ledger.settle (h : w.Ledger) (hstate : w.queue.queues.get? key = some state)
    (hentry : entry ∈ state.entries) {s : LimiterWorld R} (htasks : s.tasks = w.tasks)
    (hqueue : s.queue = w.queue) {resolved : Bool} (hcharges : s.charges =
      if resolved then w.charges ++ [⟨entry.caller, (key, state.windowMs)⟩] else w.charges) :
    (s.settle key entry resolved).Ledger := by
  obtain ⟨t, ht, hslot, hjoined⟩ := h.waiting key state hstate entry hentry
  have htask : ∀ (c : ℕ) (u : LimitTask R),
      (s.settle key entry resolved).tasks[c]? =
        some u →
      c = entry.caller ∧ u = { t with slot := some resolved } ∨
        c ≠ entry.caller ∧ w.tasks[c]? = some u := by
    intro c u hu
    rw [getElem?_settle, htasks] at hu
    obtain ⟨u₀, hu₀, rfl⟩ := Option.map_eq_some_iff.mp hu
    split
    next heq =>
      subst heq
      obtain rfl := Option.some.inj (ht.symm.trans hu₀)
      exact .inl ⟨rfl, rfl⟩
    next hne => exact .inr ⟨Ne.symm hne, hu₀⟩
  have hkept : ∀ (c : ℕ) (u : LimitTask R), c ≠ entry.caller → w.tasks[c]? = some u →
      (s.settle key entry resolved).tasks[c]? =
        some u := by
    intro c u hne hu
    rw [getElem?_settle, htasks]
    simp [hu, Ne.symm hne]
  constructor
  · intro c u hu bucket
    rcases htask c u hu with ⟨rfl, rfl⟩ | ⟨hne, hold⟩
    · have hcount := h.counted _ t ht bucket
      rw [recordings, hslot] at hcount
      change s.charges.count _ = (charged t.trace).count bucket +
        if some resolved = some true then (joined t.trace).count bucket else 0
      rw [hcharges, hjoined]
      cases resolved with
      | false => simpa using hcount
      | true => simp [List.count_append, hcount, List.count_singleton]
    · have hcount := h.counted c u hold bucket
      change s.charges.count _ = _
      rw [← hcount, hcharges]
      split
      · simp [List.count_append, Ne.symm hne]
      · rfl
  · intro charge hcharge
    change charge ∈ s.charges at hcharge
    have hlength : (s.settle key entry resolved).tasks.length = w.tasks.length := by
      rw [← htasks]
      exact List.length_modify ..
    rw [hlength]
    rw [hcharges] at hcharge
    split at hcharge
    · rcases List.mem_append.mp hcharge with hold | hnew
      · exact h.known charge hold
      · rw [List.mem_singleton.mp hnew]
        exact (List.getElem?_eq_some_iff.mp ht).1
    · exact h.known charge hcharge
  · intro key' state' hstate' other hother
    obtain ⟨before, hbefore, hwindow, -, hentries⟩ := get?_remove s.queue _ _ hstate'
    rw [hqueue] at hbefore
    rw [hentries] at hother
    have hmem : other ∈ before.entries := by
      split at hother
      · exact List.mem_of_mem_erase hother
      · exact hother
    obtain ⟨u, hu, hnone, huj⟩ := h.waiting key' before hbefore other hmem
    refine ⟨u, hkept _ u ?_ hu, hnone, by rw [hwindow]; exact huj⟩
    by_cases hkey : key = key'
    · subst hkey
      rw [if_pos rfl] at hother
      exact h.caller_ne_of_mem_erase hbefore (Option.some.inj (hstate.symm.trans hbefore) ▸ hentry) hother
    · intro hcaller
      rw [hcaller] at hu
      obtain rfl := Option.some.inj (ht.symm.trans hu)
      rw [hjoined] at huj
      exact hkey (Prod.mk.inj (List.cons.inj huj).1).1
  · intro key' state' hstate'
    obtain ⟨before, hbefore, -, -, hentries⟩ := get?_remove s.queue _ _ hstate'
    rw [hqueue] at hbefore
    have hnodup := h.apart key' before hbefore
    rw [hentries]
    split
    · exact hnodup.sublist (List.erase_sublist.map _)
    · exact hnodup
  · intro c u hu hnone
    rcases htask c u hu with ⟨rfl, rfl⟩ | ⟨-, hold⟩
    · exact absurd (hjoined.symm.trans hnone) (List.cons_ne_nil _ _)
    · exact h.unsettled c u hold hnone
  · intro c u hu hadmitted
    rcases htask c u hu with ⟨rfl, rfl⟩ | ⟨-, hold⟩
    · have htrue := h.slotted _ t ht hadmitted
      rw [hslot] at htrue
      cases htrue
    · exact h.slotted c u hold hadmitted

-- entries that are still in the key's queue, in a line to be dealt with
def Lined (w : LimiterWorld R) (key : String) (windowMs : ℕ) (line : List QueueEntry) : Prop :=
  (line.map QueueEntry.caller).Nodup ∧ ∃ state, w.queue.queues.get? key = some state ∧
    state.windowMs = windowMs ∧ ∀ entry ∈ line, entry ∈ state.entries

variable {windowMs : ℕ} {line : List QueueEntry}

theorem Lined.settle (h : w.Lined key windowMs (entry :: line)) {s : LimiterWorld R}
    (hqueue : s.queue = w.queue) (resolved : Bool) :
    (s.settle key entry resolved).Lined key windowMs line := by
  obtain ⟨hnodup, state, hstate, hwindow, hline⟩ := h
  rw [List.map_cons, List.nodup_cons] at hnodup
  refine ⟨hnodup.2, { state with entries := state.entries.erase entry }, ?_, hwindow, ?_⟩
  · change (s.queue.remove key entry).queues.get? key = _
    rw [hqueue, RequestQueue.remove, hstate]
    exact OrderedMap.get?_set_self ..
  · intro other hother
    have hne : other ≠ entry := by
      rintro rfl
      exact hnodup.1 (List.mem_map_of_mem hother)
    exact (List.mem_erase_of_ne hne).mpr (hline other (List.mem_cons_of_mem _ hother))

theorem Lined.tail (h : w.Lined key windowMs (entry :: line)) : w.Lined key windowMs line := by
  obtain ⟨hnodup, state, hstate, hwindow, hline⟩ := h
  exact ⟨(List.nodup_cons.mp hnodup).2, state, hstate, hwindow,
    fun other hother => hline other (List.mem_cons_of_mem _ hother)⟩

theorem Lined.nil (h : w.Lined key windowMs line) : w.Lined key windowMs [] := by
  obtain ⟨-, state, hstate, hwindow, -⟩ := h
  exact ⟨List.nodup_nil, state, hstate, hwindow, by simp⟩

theorem Ledger.rejectExpired (h : w.Ledger) (hline : w.Lined key windowMs line) :
    (LimiterWorld.rejectExpired key line w).Ledger ∧
      (LimiterWorld.rejectExpired key line w).Lined key windowMs [] := by
  induction line generalizing w with
  | nil => exact ⟨h, hline⟩
  | cons entry line ih =>
      unfold LimiterWorld.rejectExpired
      split
      · have hnext := hline.settle (s := w) rfl false
        obtain ⟨-, state, hstate, -, hentries⟩ := hline
        exact ih (h.settle hstate (hentries entry (by simp)) rfl rfl rfl) hnext
      · exact ih h hline.tail

theorem consume_allowed_of_check {L : SlidingWindowLimiter} {limit : ℤ} {now : ℕ}
    (h : (L.check key limit windowMs now).2.allowed = true) :
    ((L.check key limit windowMs now).1.consume key limit windowMs now).2.allowed = true := by
  have hnot : ¬ (L.check key limit windowMs now).1.full key limit windowMs now := by
    have hallowed : ((L.getValid key windowMs now).1.length : ℤ) < limit := by
      simpa [SlidingWindowLimiter.check] using h
    rw [SlidingWindowLimiter.getValid_fst] at hallowed
    have hbucket : (L.check key limit windowMs now).1.bucket key windowMs =
        SlidingWindowLimiter.valid now windowMs (L.bucket key windowMs) := by
      change (L.getValid key windowMs now).2.bucket key windowMs = _
      rw [SlidingWindowLimiter.getValid_bucket]
      simp
    rw [SlidingWindowLimiter.full, hbucket, SlidingWindowLimiter.valid_valid le_rfl]
    exact not_le.mpr hallowed
  exact (SlidingWindowLimiter.consume_of_not_full hnot).2

theorem Ledger.admitNext (h : w.Ledger) (hstate : w.queue.queues.get? key = some state)
    (hentry : entry ∈ state.entries) {L : SlidingWindowLimiter} {limit : ℤ}
    (hallowed : (L.consume key limit state.windowMs w.clock).2.allowed = true) :
    (LimiterWorld.admitNext { w with limiter := L } key limit state.windowMs entry).Ledger := by
  unfold LimiterWorld.admitNext
  apply Ledger.settle h hstate hentry
  · rfl
  · rfl
  · exact if_pos hallowed

theorem Ledger.admitWaiting (h : w.Ledger) (limit : ℤ) (hline : w.Lined key windowMs line) :
    (LimiterWorld.admitWaiting key limit windowMs line w).Ledger ∧
      (LimiterWorld.admitWaiting key limit windowMs line w).Lined key windowMs [] := by
  induction line generalizing w with
  | nil => exact ⟨h, hline⟩
  | cons entry line ih =>
      unfold LimiterWorld.admitWaiting
      dsimp only
      split
      next hallowed =>
        obtain ⟨-, state, hstate, hwindow, hentries⟩ := id hline
        refine ih ?_ (Lined.settle hline rfl true)
        subst hwindow
        exact h.admitNext hstate (hentries entry (by simp)) (consume_allowed_of_check hallowed)
      next => exact ⟨h.of_eq rfl rfl rfl, hline.nil⟩

theorem get?_of_dropIfEmpty {Q : RequestQueue} {key' : String} {state' : QueueKeyState}
    (h : (Q.dropIfEmpty key).queues.get? key' = some state') : Q.queues.get? key' = some state' := by
  unfold RequestQueue.dropIfEmpty at h
  split at h
  · rw [OrderedMap.get?_delete] at h
    exact (Option.ite_none_left_eq_some.mp h).2
  · exact h

theorem Ledger.dropIfEmpty (h : w.Ledger) (key : String) :
    Ledger { w with queue := w.queue.dropIfEmpty key } := by
  exact {
    counted := h.counted
    known := h.known
    waiting := fun key' state hstate => h.waiting key' state (get?_of_dropIfEmpty hstate)
    apart := fun key' state hstate => h.apart key' state (get?_of_dropIfEmpty hstate)
    unsettled := h.unsettled
    slotted := h.slotted }

theorem Ledger.pollKey (h : w.Ledger) (key : String) : (w.pollKey key).Ledger := by
  unfold LimiterWorld.pollKey
  split
  · exact h
  next state hstate =>
    have hline : w.Lined key state.windowMs state.entries :=
      ⟨h.apart key state hstate, state, hstate, rfl, fun _ hentry => hentry⟩
    obtain ⟨hpruned, -, left, hleft, hwindow, -⟩ := h.rejectExpired hline
    have hentries : (LimiterWorld.rejectExpired key state.entries w).queue.entriesOf key =
        left.entries := by
      rw [RequestQueue.entriesOf, hleft]
    dsimp only
    rw [hentries]
    have hadmitted := hpruned.admitWaiting state.limit
      ⟨hpruned.apart key left hleft, left, hleft, hwindow, fun _ hentry => hentry⟩
    exact hadmitted.1.dropIfEmpty key

theorem Ledger.poll (h : w.Ledger) : w.poll.Ledger := by
  unfold LimiterWorld.poll
  generalize w.queue.queues.keys = keys
  induction keys generalizing w with
  | nil => exact h
  | cons key keys ih => exact ih (h.pollKey key)

end Settling

section Advancing

variable {caller : ℕ} {t t' : LimitTask R} {s : LimiterWorld R}

theorem getElem?_setTask (s : LimiterWorld R) (ht : s.tasks[caller]? = some t) (t' : LimitTask R)
    (c : ℕ) : (s.setTask caller t').tasks[c]? = if c = caller then some t' else s.tasks[c]? := by
  rw [setTask, List.getElem?_set]
  split
  next heq =>
    subst heq
    rw [if_pos (List.getElem?_eq_some_iff.mp ht).1, if_pos rfl]
  next hne => rw [if_neg (Ne.symm hne)]

-- a call that goes on without joining a queue
theorem Ledger.goesOn (h : w.Ledger) (ht : w.tasks[caller]? = some t) (htasks : s.tasks = w.tasks)
    (hqueue : s.queue = w.queue) (hslot : t'.slot = t.slot)
    (hjoined : joined t'.trace = joined t.trace)
    (hadmitted : Admitted t'.trace → t'.slot = some true) {new : List Charge}
    (hcharges : s.charges = w.charges ++ new) (hnew : ∀ charge ∈ new, charge.caller = caller)
    (hcharged : charged t'.trace = charged t.trace ++ new.map Charge.bucket) :
    (s.setTask caller t').Ledger := by
  have htask := getElem?_setTask s (htasks ▸ ht) t'
  have hrecorded : ∀ bucket, new.count ⟨caller, bucket⟩ = (new.map Charge.bucket).count bucket := by
    intro bucket
    rw [List.count, List.count, List.countP_map]
    refine List.countP_congr fun charge hcharge => ?_
    have hcaller := hnew charge hcharge
    cases charge
    simp_all
  constructor
  · intro c u hu bucket
    change s.charges.count _ = _
    rw [htask] at hu
    rw [hcharges, List.count_append]
    split at hu
    next heq =>
      subst heq
      obtain rfl := Option.some.inj hu
      rw [h.counted c t ht bucket, hrecorded, recordings, recordings, hcharged, hslot, hjoined,
        List.count_append]
      omega
    next hne =>
      rw [htasks] at hu
      rw [h.counted c u hu bucket, List.count_eq_zero_of_not_mem, Nat.add_zero]
      exact fun hmem => hne (hnew _ hmem)
  · intro charge hcharge
    change charge ∈ s.charges at hcharge
    have hlength : (s.setTask caller t').tasks.length = w.tasks.length := by
      rw [← htasks]
      exact List.length_set ..
    rw [hlength]
    rw [hcharges] at hcharge
    rcases List.mem_append.mp hcharge with hold | hmem
    · exact h.known charge hold
    · rw [hnew charge hmem]
      exact (List.getElem?_eq_some_iff.mp ht).1
  · intro key state hstate entry hentry
    change s.queue.queues.get? key = some state at hstate
    rw [hqueue] at hstate
    obtain ⟨u, hu, hnone, huj⟩ := h.waiting key state hstate entry hentry
    rw [htask]
    split
    next heq =>
      rw [heq] at hu
      obtain rfl := Option.some.inj (ht.symm.trans hu)
      exact ⟨t', rfl, hslot.trans hnone, hjoined.trans huj⟩
    next =>
      rw [htasks]
      exact ⟨u, hu, hnone, huj⟩
  · intro key state hstate
    change s.queue.queues.get? key = some state at hstate
    rw [hqueue] at hstate
    exact h.apart key state hstate
  · intro c u hu hnone
    rw [htask] at hu
    split at hu
    next =>
      obtain rfl := Option.some.inj hu
      rw [hslot]
      exact h.unsettled caller t ht (hjoined ▸ hnone)
    next =>
      rw [htasks] at hu
      exact h.unsettled c u hu hnone
  · intro c u hu huadmitted
    rw [htask] at hu
    split at hu
    next =>
      obtain rfl := Option.some.inj hu
      exact hadmitted huadmitted
    next =>
      rw [htasks] at hu
      exact h.slotted c u hu huadmitted

theorem get?_enqueue {Q : RequestQueue} {key : String} {limit : ℤ} {windowMs now : ℕ}
    (h : (Q.enqueue key limit windowMs caller now).2 = true) (key' : String) :
    (Q.enqueue key limit windowMs caller now).1.queues.get? key' =
      if key = key' then some (Q.push key limit windowMs ⟨caller, now + Q.config.maxWaitMs⟩)
      else Q.queues.get? key' := by
  unfold RequestQueue.enqueue at h ⊢
  split at h
  · cases h
  next henabled =>
    split at h
    · cases h
    next hroom =>
      rw [if_neg henabled, if_neg hroom]
      exact OrderedMap.get?_set ..

theorem enqueue_rejected {Q : RequestQueue} {key : String} {limit : ℤ} {windowMs now : ℕ}
    (h : (Q.enqueue key limit windowMs caller now).2 = false) :
    (Q.enqueue key limit windowMs caller now).1 = Q := by
  unfold RequestQueue.enqueue at h ⊢
  split at h
  next hdisabled => rw [if_pos hdisabled]
  next henabled =>
    split at h
    next hfull => rw [if_neg henabled, if_pos hfull]
    next => cases h

theorem joins?_of_rest {key : String} {limit : ℤ} {windowMs : ℕ}
    {next : Bool → LimitProc RateLimitCheckResult} (ht : w.tasks[caller]? = some t)
    (hrest : t.thread.rest = .op (.enqueue key limit windowMs) next) :
    (t, key, windowMs) ∈ w.joins? caller := by
  have hpending : t.pending? = some (.enqueue key limit windowMs) := by
    rw [LimitTask.pending?, LimitTask.rest, hrest]
  rw [joins?, ht, Option.bind_some, hpending]
  rfl

-- a call that joins the queue of a key, which counts the same window
theorem Ledger.joins (h : w.Ledger) (ht : w.tasks[caller]? = some t) {key : String} {limit : ℤ}
    {windowMs now : ℕ} (hwindow : w.QueueWindow key windowMs)
    (haccepted : (w.queue.enqueue key limit windowMs caller now).2 = true)
    (hslot : t'.slot = t.slot) (hbefore : joined t.trace = [])
    (hjoined : joined t'.trace = [(key, windowMs)]) (hcharged : charged t'.trace = charged t.trace)
    (hadmitted : Admitted t'.trace → Admitted t.trace) :
    (setTask { w with queue := (w.queue.enqueue key limit windowMs caller now).1 } caller
      t').Ledger := by
  have hnone : t.slot = none := h.unsettled caller t ht hbefore
  have htask := getElem?_setTask
    (s := { w with queue := (w.queue.enqueue key limit windowMs caller now).1 }) ht t'
  have hget := get?_enqueue haccepted
  -- nobody waits under the name of a call that has not joined
  have habsent : ∀ key' state, w.queue.queues.get? key' = some state → ∀ entry ∈ state.entries,
      entry.caller ≠ caller := by
    intro key' state hstate entry hentry heq
    obtain ⟨u, hu, -, huj⟩ := h.waiting key' state hstate entry hentry
    rw [heq] at hu
    obtain rfl := Option.some.inj (ht.symm.trans hu)
    rw [hbefore] at huj
    cases huj
  constructor
  · intro c u hu bucket
    change w.charges.count _ = _
    rw [htask] at hu
    split at hu
    next heq =>
      subst heq
      obtain rfl := Option.some.inj hu
      rw [h.counted c t ht bucket, recordings, recordings, hcharged, hslot, hnone]
      rfl
    next => exact h.counted c u hu bucket
  · intro charge hcharge
    have hlength : (setTask { w with queue := (w.queue.enqueue key limit windowMs caller now).1 }
        caller t').tasks.length = w.tasks.length := List.length_set ..
    rw [hlength]
    exact h.known charge hcharge
  · intro key' state hstate entry hentry
    change (w.queue.enqueue key limit windowMs caller now).1.queues.get? key' = _ at hstate
    rw [hget] at hstate
    have hold : ∀ key' state, w.queue.queues.get? key' = some state → entry ∈ state.entries →
        ∃ u : LimitTask R, (setTask { w with
            queue := (w.queue.enqueue key limit windowMs caller now).1 } caller
            t').tasks[entry.caller]? = some u ∧ u.slot = none ∧
          joined u.trace = [(key', state.windowMs)] := by
      intro key' state hstate hentry
      rw [htask, if_neg (habsent key' state hstate entry hentry)]
      exact h.waiting key' state hstate entry hentry
    split at hstate
    next heq =>
      subst heq
      obtain rfl := Option.some.inj hstate
      unfold RequestQueue.push at hentry ⊢
      cases hkey : w.queue.queues.get? key with
      | none =>
          rw [hkey] at hentry
          rw [List.mem_singleton.mp hentry, htask, if_pos rfl]
          exact ⟨t', rfl, hslot.trans hnone, hjoined⟩
      | some state =>
          rw [hkey] at hentry
          rcases List.mem_append.mp hentry with hin | hnew
          · exact hold key state hkey hin
          · rw [List.mem_singleton.mp hnew, htask, if_pos rfl]
            exact ⟨t', rfl, hslot.trans hnone, by rw [hjoined, hwindow state hkey]⟩
    next => exact hold key' state hstate hentry
  · intro key' state hstate
    change (w.queue.enqueue key limit windowMs caller now).1.queues.get? key' = _ at hstate
    rw [hget] at hstate
    split at hstate
    next heq =>
      subst heq
      obtain rfl := Option.some.inj hstate
      unfold RequestQueue.push
      cases hkey : w.queue.queues.get? key with
      | none => exact List.nodup_singleton _
      | some state =>
          dsimp only
          rw [List.map_append]
          refine (h.apart key state hkey).append (List.nodup_singleton _) ?_
          intro c hc hcaller
          obtain ⟨entry, hentry, rfl⟩ := List.mem_map.mp hc
          exact habsent key state hkey entry hentry (List.mem_singleton.mp hcaller)
    next => exact h.apart key' state hstate
  · intro c u hu hempty
    rw [htask] at hu
    split at hu
    next =>
      obtain rfl := Option.some.inj hu
      exact hslot.trans hnone
    next => exact h.unsettled c u hu hempty
  · intro c u hu huadmitted
    rw [htask] at hu
    split at hu
    next =>
      obtain rfl := Option.some.inj hu
      rw [hslot]
      exact h.slotted caller t ht (hadmitted huadmitted)
    next => exact h.slotted c u hu huadmitted

theorem admitted_snoc {tr : LimitTrace} {e : Event LimitOp LimitAns}
    (h : Admitted (tr ++ [e])) : Admitted tr ∨ e = ⟨.awaitSlot, true⟩ := by
  rcases List.mem_append.mp h with hold | hnew
  · exact .inl hold
  · exact .inr (List.mem_singleton.mp hnew).symm

theorem Ledger.arrive (h : w.Ledger) (request : LimitRequest) :
    Ledger { w with tasks := w.tasks ++ [⟨.spawn _ request, none⟩] } := by
  have htask : ∀ (c : ℕ) (u : LimitTask R),
      (w.tasks ++ [⟨.spawn _ request, none⟩])[c]? = some u →
        w.tasks[c]? = some u ∨ c = w.tasks.length ∧ u = ⟨.spawn _ request, none⟩ := by
    intro c u hu
    rcases lt_or_ge c w.tasks.length with hlt | hge
    · rw [List.getElem?_append_left hlt] at hu
      exact .inl hu
    · rw [List.getElem?_append_right hge, List.getElem?_singleton] at hu
      obtain ⟨hindex, heq⟩ := Option.ite_none_right_eq_some.mp hu
      exact .inr ⟨by omega, (Option.some.inj heq).symm⟩
  constructor
  · intro c u hu bucket
    rcases htask c u hu with hold | ⟨rfl, rfl⟩
    · exact h.counted c u hold bucket
    · rw [List.count_eq_zero_of_not_mem fun hmem => (h.known _ hmem).false]
      rfl
  · intro charge hcharge
    have hlt := h.known charge hcharge
    simp only [List.length_append, List.length_singleton]
    omega
  · intro key state hstate entry hentry
    obtain ⟨u, hu, hwaits⟩ := h.waiting key state hstate entry hentry
    exact ⟨u, by rw [List.getElem?_append_left (List.getElem?_eq_some_iff.mp hu).1]; exact hu,
      hwaits⟩
  · exact h.apart
  · intro c u hu hempty
    rcases htask c u hu with hold | ⟨-, rfl⟩
    · exact h.unsettled c u hold hempty
    · rfl
  · intro c u hu hadmitted
    rcases htask c u hu with hold | ⟨-, rfl⟩
    · exact h.slotted c u hold hadmitted
    · cases hadmitted

theorem Ledger.advance (h : w.Ledger) (hfair : w.Fair (.advance caller))
    (ht : w.tasks[caller]? = some t) (hstep : w.advance caller t = some w') : w'.Ledger := by
  obtain ⟨⟨s, thread⟩, hadvance, rfl⟩ := Option.map_eq_some_iff.mp hstep
  obtain ⟨o, next, hrest, a, hserve, rfl⟩ := Thread.advance_eq_some hadvance
  have hemits := LimitTask.emits_of_rest (t := t) hrest
  have hkept : ∀ e : Event LimitOp LimitAns, e ≠ ⟨.awaitSlot, true⟩ → Admitted (t.trace ++ [e]) →
      t.slot = some true := fun e he hadmitted =>
    h.slotted caller t ht ((admitted_snoc hadmitted).resolve_right he)
  cases o with
  | consume c =>
      obtain ⟨rfl, rfl⟩ := Prod.mk.inj (Option.some.inj hserve)
      have hsame := (joined_snoc t.trace ⟨.consume c,
        (w.limiter.consume c.key c.limit c.windowMs w.clock).2⟩).trans (List.append_nil _)
      have hcharged := charged_snoc t.trace
        ⟨.consume c, (w.limiter.consume c.key c.limit c.windowMs w.clock).2⟩
      rw [chargedBucket?] at hcharged
      cases hallowed : (w.limiter.consume c.key c.limit c.windowMs w.clock).2.allowed with
      | false =>
          rw [hallowed] at hcharged
          exact h.goesOn ht rfl rfl rfl hsame (hkept _ (by simp)) (List.append_nil _).symm (by simp)
            hcharged
      | true =>
          rw [hallowed] at hcharged
          have hmine : ∀ charge ∈ [(⟨caller, c.bucket⟩ : Charge)], charge.caller = caller :=
            fun charge hcharge => by rw [List.mem_singleton.mp hcharge]
          exact h.goesOn ht rfl rfl rfl hsame (hkept _ (by simp)) rfl hmine hcharged
  | check c =>
      obtain ⟨rfl, rfl⟩ := Prod.mk.inj (Option.some.inj hserve)
      exact h.goesOn ht rfl rfl rfl ((joined_snoc ..).trans (List.append_nil _)) (hkept _ (by simp))
        (List.append_nil _).symm (by simp) (charged_snoc ..)
  | now =>
      obtain ⟨rfl, rfl⟩ := Prod.mk.inj (Option.some.inj hserve)
      exact h.goesOn ht rfl rfl rfl ((joined_snoc ..).trans (List.append_nil _)) (hkept _ (by simp))
        (List.append_nil _).symm (by simp) (charged_snoc ..)
  | enqueue key limit windowMs =>
      obtain ⟨rfl, rfl⟩ := Prod.mk.inj (Option.some.inj hserve)
      have hjoined := joined_snoc t.trace
        ⟨.enqueue key limit windowMs, (w.queue.enqueue key limit windowMs caller w.clock).2⟩
      rw [joinedBucket?] at hjoined
      have hcharged := (charged_snoc t.trace ⟨.enqueue key limit windowMs,
        (w.queue.enqueue key limit windowMs caller w.clock).2⟩).trans (List.append_nil _)
      cases haccepted : (w.queue.enqueue key limit windowMs caller w.clock).2 with
      | false =>
          rw [haccepted] at hjoined hcharged
          have hqueue : (w.queue.enqueue key limit windowMs caller w.clock).1 = w.queue :=
            enqueue_rejected haccepted
          exact h.goesOn ht rfl hqueue rfl (hjoined.trans (List.append_nil _)) (hkept _ (by simp))
            (List.append_nil _).symm (by simp) (hcharged.trans (List.append_nil _).symm)
      | true =>
          rw [haccepted] at hjoined hcharged
          rw [hemits.1] at hjoined
          have hwindow := (hfair (t, key, windowMs) (joins?_of_rest ht hrest)).2
          refine h.joins ht hwindow haccepted rfl hemits.1 hjoined hcharged fun hadmitted => ?_
          exact (admitted_snoc hadmitted).resolve_right (by simp)
  | awaitSlot =>
      obtain ⟨resolved, hslot, heq⟩ := Option.map_eq_some_iff.mp hserve
      obtain ⟨rfl, rfl⟩ := Prod.mk.inj heq
      refine h.goesOn ht rfl rfl rfl ((joined_snoc ..).trans (List.append_nil _)) ?_
        (List.append_nil _).symm (by simp) (charged_snoc ..)
      intro hadmitted
      rcases admitted_snoc hadmitted with hold | hnew
      · exact h.slotted caller t ht hold
      · obtain rfl : resolved = true := by simpa using hnew
        exact hslot

theorem Ledger.step (h : w.Ledger) (act : LimiterAct) (hfair : w.Fair act)
    (hstep : w.step act = some w') : w'.Ledger := by
  cases act with
  | arrive request =>
      obtain rfl := Option.some.inj hstep
      exact h.arrive request
  | advance caller =>
      obtain ⟨t, ht, hadvance⟩ := Option.bind_eq_some_iff.mp hstep
      exact h.advance hfair ht hadvance
  | poll =>
      obtain rfl := Option.some.inj hstep
      exact h.poll
  | tick ms =>
      obtain rfl := Option.some.inj hstep
      exact h.of_eq rfl rfl rfl
  | resetClient clientId =>
      obtain rfl := Option.some.inj hstep
      exact h.of_eq rfl rfl rfl
  | resetAll =>
      obtain rfl := Option.some.inj hstep
      exact h.of_eq rfl rfl rfl

end Advancing

end Conduit.RateLimit.LimiterWorld
