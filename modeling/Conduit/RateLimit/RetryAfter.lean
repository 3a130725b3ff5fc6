import Conduit.RateLimit.Occupancy

namespace Conduit.RateLimit.SlidingWindowLimiter

variable {L : SlidingWindowLimiter} {key : String} {windowMs now : ℕ} {limit : ℤ}
  {commands between : List Command} {c : Call} {seconds : ℤ}

section Rounding

theorem le_ceilSeconds (ms : ℤ) : ms ≤ 1000 * ceilSeconds ms := by
  unfold ceilSeconds
  omega

theorem ceilSeconds_mul (k : ℤ) : ceilSeconds (1000 * k) = k := by
  unfold ceilSeconds
  omega

theorem lt_ceilSeconds {ms : ℤ} (h : ¬ (1000 : ℤ) ∣ ms) : ms < 1000 * ceilSeconds ms :=
  lt_of_le_of_ne (le_ceilSeconds ms) fun heq => h ⟨_, heq⟩

end Rounding

theorem length_bucket_le (maxBuckets : Option ℕ)
    (hlimit : ∀ command ∈ commands, command.KeepsLimit key windowMs limit) :
    ((((init maxBuckets).obeyAll commands).bucket key windowMs).length : ℤ) ≤ max 0 limit := by
  induction commands using List.reverseRecOn with
  | nil => exact le_max_left ..
  | append_singleton commands command ih =>
      have hbefore := ih fun c hc => hlimit c (by simp [hc])
      obtain ⟨kept, hkept, hbucket, hfree⟩ :=
        bucket_obey ((init maxBuckets).obeyAll commands) key windowMs command
      have hshorter := hkept.length_le
      rw [obeyAll_concat, hbucket, List.length_append]
      by_cases hnone : ((init maxBuckets).obeyAll commands).admission key windowMs command = []
      · rw [hnone, List.length_nil]
        omega
      · have hroom := hfree limit (hlimit command (by simp)) hnone
        have hone := (admission_sublist ((init maxBuckets).obeyAll commands) key windowMs command).length_le
        have htime : command.time?.toList.length ≤ 1 := Option.length_toList_le
        omega

def Quiet (key : String) (windowMs : ℕ) (between : List Command) : Prop :=
  ∀ command ∈ between, command.consumedBucket? ≠ some (key, windowMs)

theorem bucket_obeyAll_quiet (L : SlidingWindowLimiter) (h : Quiet key windowMs between) :
    ((L.obeyAll between).bucket key windowMs).Sublist (L.bucket key windowMs) := by
  induction between using List.reverseRecOn with
  | nil => exact .refl _
  | append_singleton between command ih =>
      obtain ⟨kept, hkept, hbucket, -⟩ := bucket_obey (L.obeyAll between) key windowMs command
      have hnone : (L.obeyAll between).admission key windowMs command = [] := by
        have hquiet := h command (by simp)
        cases command with
        | consume key' limit' windowMs' now =>
            rw [admission, if_neg]
            rintro ⟨rfl, rfl, -⟩
            exact hquiet rfl
        | check | getUsage | reset | resetAll => rfl
      rw [obeyAll_concat, hbucket, hnone, List.append_nil]
      exact hkept.trans (ih fun c hc => h c (by simp [hc]))

-- the oldest request that counts against the bucket
def oldest? (L : SlidingWindowLimiter) (key : String) (windowMs now : ℕ) : Option ℕ :=
  (valid now windowMs (L.bucket key windowMs)).head?

structure RefusedAt (L : SlidingWindowLimiter) (c : Call) (oldest : ℕ) (rest : List ℕ) : Prop where
  counted : valid c.nowMs c.windowMs (L.bucket c.key c.windowMs) = oldest :: rest
  kept : (L.call c).1.bucket c.key c.windowMs = oldest :: rest
  full : c.limit = rest.length + 1
  alive : c.nowMs ≤ oldest + c.windowMs
  retryAfter : (L.call c).2.retryAfter =
    some (max 1 (ceilSeconds ((oldest : ℤ) + c.windowMs - c.nowMs)))

theorem call_of_full (h : L.full c.key c.limit c.windowMs c.nowMs) :
    L.call c = ((L.getValid c.key c.windowMs c.nowMs).2, {
      allowed := false
      remaining := 0
      limit := c.limit
      resetAt := resetAt (valid c.nowMs c.windowMs (L.bucket c.key c.windowMs)) c.windowMs c.nowMs
      retryAfter := some (max 1 (ceilSeconds
        (resetAt (valid c.nowMs c.windowMs (L.bucket c.key c.windowMs)) c.windowMs c.nowMs -
          c.nowMs))) }) := by
  rw [full] at h
  unfold call
  cases c.operation with
  | check =>
      have hremaining : c.limit -
          ((valid c.nowMs c.windowMs (L.bucket c.key c.windowMs)).length : ℤ) ≤ 0 := by omega
      simp [check, getValid_fst, not_lt.mpr h, hremaining]
  | consume => simp [consume, getValid_fst, h]

theorem full_of_retryAfter (h : (L.call c).2.retryAfter = some seconds) :
    L.full c.key c.limit c.windowMs c.nowMs := by
  by_contra hfull
  unfold call at h
  rw [full, not_le] at hfull
  cases hop : c.operation with
  | check => simp [hop, check, getValid_fst, hfull] at h
  | consume => simp [hop, consume, getValid_fst, not_le.mpr hfull] at h

theorem refusedAt (hbound : ((L.bucket c.key c.windowMs).length : ℤ) ≤ max 0 c.limit)
    (hpositive : 1 ≤ c.limit) (h : (L.call c).2.retryAfter = some seconds) :
    ∃ oldest rest, L.RefusedAt c oldest rest := by
  have hfull := full_of_retryAfter h
  have hcall := call_of_full hfull
  have hshorter := (valid_sublist c.nowMs c.windowMs (L.bucket c.key c.windowMs)).length_le
  have hbucket := L.getValid_bucket c.key c.key c.windowMs c.windowMs c.nowMs
  rw [full] at hfull
  cases hcounted : valid c.nowMs c.windowMs (L.bucket c.key c.windowMs) with
  | nil =>
      rw [hcounted, List.length_nil] at hfull
      omega
  | cons oldest rest =>
      have hmem : oldest ∈ valid c.nowMs c.windowMs (L.bucket c.key c.windowMs) := by simp [hcounted]
      have halive := (List.mem_filter.mp hmem).2
      rw [hcounted, List.length_cons] at hfull hshorter
      refine ⟨oldest, rest, hcounted, ?_, ?_, ?_, ?_⟩
      · rw [hcall, hbucket, if_pos ⟨rfl, rfl⟩, hcounted]
      · omega
      · simp only [decide_eq_true_eq] at halive
        omega
      · rw [hcall, hcounted]
        rfl

def RetrySuffices (L : SlidingWindowLimiter) (c : Call) (seconds : ℤ) : Prop :=
  ∀ between (later : ℕ), Quiet c.key c.windowMs between → (c.nowMs : ℤ) + 1000 * seconds ≤ later →
    (((L.call c).1.obeyAll between).consume c.key c.limit c.windowMs later).2.allowed = true

theorem allowed_of_not_full (h : ¬ L.full key limit windowMs now) :
    (L.consume key limit windowMs now).2.allowed = true := (consume_of_not_full h).2

theorem RefusedAt.suffices {oldest : ℕ} {rest : List ℕ} (h : L.RefusedAt c oldest rest)
    (hsoon : (oldest : ℤ) + c.windowMs < c.nowMs + 1000 * seconds) : L.RetrySuffices c seconds := by
  intro between later hquiet hlater
  refine allowed_of_not_full ?_
  have hsublist := bucket_obeyAll_quiet (L.call c).1 hquiet
  rw [h.kept] at hsublist
  have hcounted := (hsublist.filter fun t : ℕ => decide ((later : ℤ) - c.windowMs ≤ t)).length_le
  have hexpired : ¬ ((later : ℤ) - c.windowMs ≤ oldest) := by omega
  rw [List.filter_cons_of_neg (by simpa using hexpired)] at hcounted
  have hrest := List.length_filter_le (fun t : ℕ => decide ((later : ℤ) - c.windowMs ≤ t)) rest
  have hlimit := h.full
  rw [SlidingWindowLimiter.full, valid]
  omega

theorem RefusedAt.not_suffices {oldest : ℕ} {rest : List ℕ} (h : L.RefusedAt c oldest rest)
    (hsorted : (L.bucket c.key c.windowMs).Pairwise (· ≤ ·))
    (hexact : (oldest : ℤ) + c.windowMs = c.nowMs + 1000 * seconds) :
    ¬ L.RetrySuffices c seconds := by
  intro hsuffices
  have hallowed := hsuffices [] (oldest + c.windowMs) (by simp [Quiet]) (by omega)
  have hcounted : (oldest :: rest).Pairwise (· ≤ ·) := h.counted ▸ hsorted.sublist (valid_sublist ..)
  have hall : valid (oldest + c.windowMs) c.windowMs (oldest :: rest) = oldest :: rest := by
    rw [valid, List.filter_eq_self]
    intro t ht
    have hle : oldest ≤ t := by
      rcases List.mem_cons.mp ht with rfl | hrest
      · exact le_rfl
      · exact (List.pairwise_cons.mp hcounted).1 t hrest
    simp only [decide_eq_true_eq]
    omega
  have hfull : (L.call c).1.full c.key c.limit c.windowMs (oldest + c.windowMs) := by
    have hlimit := h.full
    rw [SlidingWindowLimiter.full, h.kept, hall, List.length_cons]
    omega
  rw [obeyAll_nil, (consume_of_full hfull).2] at hallowed
  cases hallowed

theorem retry_after_suffices_iff {maxBuckets : Option ℕ} (hordered : Chronological commands)
    (hlimit : ∀ command ∈ commands, command.KeepsLimit c.key c.windowMs c.limit)
    (hpositive : 1 ≤ c.limit)
    (hrefused : (((init maxBuckets).obeyAll commands).call c).2.retryAfter = some seconds) :
    ((init maxBuckets).obeyAll commands).RetrySuffices c seconds ↔
      ∀ oldest ∈ ((init maxBuckets).obeyAll commands).oldest? c.key c.windowMs c.nowMs,
        ¬ (c.nowMs < oldest + c.windowMs ∧ 1000 ∣ oldest + c.windowMs - c.nowMs) := by
  obtain ⟨oldest, rest, h⟩ := refusedAt (length_bucket_le maxBuckets hlimit) hpositive hrefused
  have hseconds : max 1 (ceilSeconds ((oldest : ℤ) + c.windowMs - c.nowMs)) = seconds :=
    Option.some.inj (h.retryAfter.symm.trans hrefused)
  have hsorted := hordered.sublist
    ((bucket_obeyAll_sublist maxBuckets commands c.key c.windowMs).trans (admitted_sublist ..))
  have halive := h.alive
  have hcounted : ((init maxBuckets).obeyAll commands).oldest? c.key c.windowMs c.nowMs =
      some oldest := by rw [oldest?, h.counted, List.head?_cons]
  simp only [hcounted, Option.mem_some_iff, forall_eq']
  constructor
  · rintro hsuffices ⟨hbefore, k, hk⟩
    refine h.not_suffices hsorted ?_ hsuffices
    have hwait : (oldest : ℤ) + c.windowMs - c.nowMs = 1000 * k := by omega
    rw [hwait, ceilSeconds_mul] at hseconds
    omega
  · intro hoff
    refine h.suffices ?_
    rcases Nat.lt_or_ge c.nowMs (oldest + c.windowMs) with hbefore | hafter
    · have hnot : ¬ (1000 : ℤ) ∣ (oldest : ℤ) + c.windowMs - c.nowMs := fun hdvd =>
        hoff ⟨hbefore, by omega⟩
      have hlt := lt_ceilSeconds hnot
      omega
    · omega

def oncePerSecond (operation : Operation) (now : ℕ) : Call :=
  ⟨operation, "client:ana", 1, 1000, now, 0⟩

theorem retry_after_suffices_iff_half :
    ((init none).obeyAll [.consume "client:ana" 1 1000 0]).RetrySuffices
        (oncePerSecond .consume 500) 1 ↔
      ∀ oldest ∈ ((init none).obeyAll [.consume "client:ana" 1 1000 0]).oldest? "client:ana" 1000 500,
        ¬ (500 < oldest + 1000 ∧ 1000 ∣ oldest + 1000 - 500) :=
  @retry_after_suffices_iff [.consume "client:ana" 1 1000 0] (oncePerSecond .consume 500) 1 none
    (by unfold Chronological; decide)
    (by simp [Command.KeepsLimit, oncePerSecond]) (by decide) (by decide)

theorem retry_after_too_short :
    (((init none).obeyAll [.consume "client:ana" 1 1000 0]).call
        (oncePerSecond .check 0)).2.retryAfter = some 1 ∧
      ¬ ((init none).obeyAll [.consume "client:ana" 1 1000 0]).RetrySuffices
        (oncePerSecond .check 0) 1 := by
  refine ⟨by decide, fun hsuffices => ?_⟩
  have hallowed := hsuffices [] 1000 (by simp [Quiet]) (by decide)
  revert hallowed
  decide

end Conduit.RateLimit.SlidingWindowLimiter
