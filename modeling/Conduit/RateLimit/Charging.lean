import Conduit.RateLimit.MemoryRefinement
import Conduit.RateLimit.Checks

namespace Conduit.RateLimit

namespace SlidingWindowLimiter

variable {L : SlidingWindowLimiter} {sk key : String} {windowMs now : ℕ} {limit : ℤ}

inductive Command where
  | consume (key : String) (limit : ℤ) (windowMs now : ℕ)
  | check (key : String) (limit : ℤ) (windowMs now : ℕ)
  | getUsage (key : String) (windowMs now : ℕ)
  | reset (key : String)
  | resetAll

def obey (L : SlidingWindowLimiter) : Command → SlidingWindowLimiter
  | .consume key limit windowMs now => (L.consume key limit windowMs now).1
  | .check key limit windowMs now => (L.check key limit windowMs now).1
  | .getUsage key windowMs now => (L.getUsage key windowMs now).1
  | .reset key => L.reset key
  | .resetAll => L.resetAll

-- a limiter as the gateway makes it, after any commands
def Reached (L : SlidingWindowLimiter) : Prop :=
  ∃ commands : List Command, commands.foldl obey (init none) = L

structure Sized (L : SlidingWindowLimiter) : Prop where
  capped : L.maxBuckets = defaultMaxBuckets
  fits : L.store.size ≤ L.maxBuckets

theorem sized_init : (init none).Sized := ⟨rfl, Nat.zero_le _⟩

theorem Sized.getValid (h : L.Sized) (key : String) (windowMs now : ℕ) :
    (L.getValid key windowMs now).2.Sized := by
  constructor
  · rw [getValid_maxBuckets, h.capped]
  · rw [getValid_maxBuckets]
    exact (getValid_size_le ..).trans h.fits

theorem size_evictIfFull (h : L.Sized) : L.evictIfFull.store.size < L.evictIfFull.maxBuckets := by
  unfold evictIfFull
  split
  next hlt => exact hlt
  next =>
    have hcapped := h.capped
    have hfits := h.fits
    rw [defaultMaxBuckets] at hcapped
    simp only [OrderedMap.size_dropOldest]
    omega

theorem maxBuckets_evictIfFull (L : SlidingWindowLimiter) : L.evictIfFull.maxBuckets = L.maxBuckets := by
  unfold evictIfFull
  split <;> rfl

def afterCharge (L : SlidingWindowLimiter) (key : String) (windowMs now : ℕ) :
    SlidingWindowLimiter :=
  let L' := (L.getValid key windowMs now).2
  let L'' := if L'.store.has (storageKey key windowMs) then L' else L'.evictIfFull
  { L'' with
    store := L''.store.set (storageKey key windowMs)
      (valid now windowMs (L.bucket key windowMs) ++ [now]) }

def full (L : SlidingWindowLimiter) (key : String) (limit : ℤ) (windowMs now : ℕ) : Prop :=
  limit ≤ (valid now windowMs (L.bucket key windowMs)).length

instance : Decidable (L.full key limit windowMs now) := inferInstanceAs (Decidable (_ ≤ _))

theorem consume_of_full (h : L.full key limit windowMs now) :
    (L.consume key limit windowMs now).1 = (L.getValid key windowMs now).2 ∧
      (L.consume key limit windowMs now).2.allowed = false := by
  rw [full] at h
  simp only [consume, getValid_fst, if_pos h, and_self]

theorem consume_of_not_full (h : ¬ L.full key limit windowMs now) :
    (L.consume key limit windowMs now).1 = L.afterCharge key windowMs now ∧
      (L.consume key limit windowMs now).2.allowed = true := by
  rw [full] at h
  simp only [consume, getValid_fst, if_neg h, afterCharge, and_self]

theorem consume_allowed (L : SlidingWindowLimiter) (key : String) (limit : ℤ) (windowMs now : ℕ) :
    (L.consume key limit windowMs now).2.allowed = false ↔ L.full key limit windowMs now := by
  by_cases h : L.full key limit windowMs now
  · simp [h, (consume_of_full h).2]
  · simp [h, (consume_of_not_full h).2]

theorem Sized.afterCharge (h : L.Sized) (key : String) (windowMs now : ℕ) :
    (L.afterCharge key windowMs now).Sized := by
  have hvalid := h.getValid key windowMs now
  unfold SlidingWindowLimiter.afterCharge
  dsimp only
  split
  next hhas =>
    obtain ⟨old, hold⟩ := Option.isSome_iff_exists.mp hhas
    exact ⟨hvalid.capped, (OrderedMap.size_set_of_get? _ hold).le.trans hvalid.fits⟩
  next =>
    refine ⟨(maxBuckets_evictIfFull _).trans hvalid.capped, ?_⟩
    exact (OrderedMap.size_set_le ..).trans (size_evictIfFull hvalid)

theorem Sized.consume (h : L.Sized) (key : String) (limit : ℤ) (windowMs now : ℕ) :
    (L.consume key limit windowMs now).1.Sized := by
  by_cases hfull : L.full key limit windowMs now
  · rw [(consume_of_full hfull).1]
    exact h.getValid key windowMs now
  · rw [(consume_of_not_full hfull).1]
    exact h.afterCharge key windowMs now

theorem size_reset_le (L : SlidingWindowLimiter) (key : String) :
    (L.reset key).store.size ≤ L.store.size := by
  unfold reset
  dsimp only
  generalize L.store.keys.filter (fun sk => sk.startsWith (key ++ ":")) = keys
  generalize L.store = store
  induction keys generalizing store with
  | nil => exact le_rfl
  | cons sk keys ih => exact (ih (store.delete sk)).trans (OrderedMap.size_delete_le ..)

theorem Sized.obey (h : L.Sized) (command : Command) : (L.obey command).Sized := by
  cases command with
  | consume key limit windowMs now => exact h.consume key limit windowMs now
  | check key limit windowMs now => exact h.getValid key windowMs now
  | getUsage key windowMs now => exact h.getValid key windowMs now
  | reset key => exact ⟨h.capped, (size_reset_le L key).trans h.fits⟩
  | resetAll => exact ⟨h.capped, Nat.zero_le _⟩

theorem Reached.sized (h : L.Reached) : L.Sized := by
  obtain ⟨commands, rfl⟩ := h
  have hall : ∀ (L : SlidingWindowLimiter), L.Sized →
      (commands.foldl SlidingWindowLimiter.obey L).Sized := by
    induction commands with
    | nil => exact fun _ hL => hL
    | cons command commands ih => exact fun L hL => ih _ (hL.obey command)
  exact hall _ sized_init

section Others

variable (hne : sk ≠ storageKey key windowMs)

include hne

theorem get?_getValid_of_ne (now : ℕ) :
    (L.getValid key windowMs now).2.store.get? sk = L.store.get? sk := by
  unfold SlidingWindowLimiter.getValid
  split
  · rfl
  · dsimp only
    split
    · exact OrderedMap.get?_delete_of_ne _ hne.symm
    · split
      · exact OrderedMap.get?_set_of_ne _ _ hne.symm
      · rfl

theorem get?_afterCharge_of_ne (now : ℕ) :
    (L.afterCharge key windowMs now).store.get? sk = L.store.get? sk ∨
      (L.afterCharge key windowMs now).store.get? sk = none := by
  unfold SlidingWindowLimiter.afterCharge
  dsimp only
  have hsame := get?_getValid_of_ne (L := L) hne now
  rw [OrderedMap.get?_set_of_ne _ _ hne.symm]
  split
  · exact .inl hsame
  · unfold evictIfFull
    split
    · exact .inl hsame
    · exact (OrderedMap.get?_dropOldest ..).imp_left fun h => h.trans hsame

theorem recent_getValid {n : ℕ} (h : L.store.Recent sk n) (now : ℕ) :
    (L.getValid key windowMs now).2.store.Recent sk (n + 1) := by
  unfold SlidingWindowLimiter.getValid
  split
  · exact h.mono (Nat.le_succ n)
  · dsimp only
    split
    · exact (h.delete hne.symm).mono (Nat.le_succ n)
    · split
      · exact h.set hne.symm _
      · exact h.mono (Nat.le_succ n)

-- an eviction spares a bucket that has few younger ones
theorem recent_consume {n : ℕ} (h : L.store.Recent sk n) (hsized : L.Sized) (hn : n < 1000)
    (limit : ℤ) (now : ℕ) :
    (L.consume key limit windowMs now).1.store.Recent sk (n + 2) := by
  have hkept := recent_getValid hne h now
  by_cases hfull : L.full key limit windowMs now
  · rw [(consume_of_full hfull).1]
    exact hkept.mono (Nat.le_succ _)
  · rw [(consume_of_not_full hfull).1]
    unfold SlidingWindowLimiter.afterCharge
    refine OrderedMap.Recent.set ?_ hne.symm _
    split
    · exact hkept
    · unfold evictIfFull
      split
      · exact hkept
      · have hcapped := (hsized.getValid key windowMs now).capped
        rw [defaultMaxBuckets] at hcapped
        refine hkept.dropOldest ?_
        omega

end Others

theorem get?_afterCharge_self (L : SlidingWindowLimiter) (key : String) (windowMs now : ℕ) :
    (L.afterCharge key windowMs now).store.get? (storageKey key windowMs) =
      some (valid now windowMs (L.bucket key windowMs) ++ [now]) :=
  OrderedMap.get?_set_self ..

theorem get?_getValid_of_expired (h : valid now windowMs (L.bucket key windowMs) = []) :
    (L.getValid key windowMs now).2.store.get? (storageKey key windowMs) = none := by
  unfold SlidingWindowLimiter.getValid
  split
  next hnone => exact hnone
  next all hall =>
    rw [L.bucket_of_get? hall] at h
    simp [h]

-- a bucket that the charge has made is the youngest of all
theorem recent_afterCharge (h : valid now windowMs (L.bucket key windowMs) = []) :
    (L.afterCharge key windowMs now).store.Recent (storageKey key windowMs) 0 := by
  have hnone := get?_getValid_of_expired h
  unfold SlidingWindowLimiter.afterCharge
  dsimp only
  rw [OrderedMap.has, hnone]
  refine OrderedMap.recent_set_self _ ?_
  rw [if_neg (by simp)]
  unfold evictIfFull
  split
  · exact hnone
  · exact (OrderedMap.get?_dropOldest ..).elim (fun heq => heq.trans hnone) id

-- what a bucket holds at a time, leaving out what has expired by then
def usage (L : SlidingWindowLimiter) (key : String) (windowMs now : ℕ) : List ℕ :=
  valid now windowMs (L.bucket key windowMs)

def SameUsage (L L' : SlidingWindowLimiter) (now : ℕ) : Prop :=
  ∀ key windowMs, L'.usage key windowMs now = L.usage key windowMs now

theorem sameUsage_getValid (L : SlidingWindowLimiter) (key : String) (windowMs now : ℕ) :
    L.SameUsage (L.getValid key windowMs now).2 now := by
  intro key' windowMs'
  unfold usage
  rw [getValid_bucket]
  split
  next heq =>
    obtain ⟨rfl, rfl⟩ := heq
    exact valid_valid le_rfl ..
  next => rfl

-- a charged bucket shows its charge, unless it has been evicted since and was not empty before
theorem not_sameUsage_of_charged {L' : SlidingWindowLimiter}
    (h : L'.bucket key windowMs = valid now windowMs (L.bucket key windowMs) ++ [now] ∨
      L'.bucket key windowMs = [] ∧ valid now windowMs (L.bucket key windowMs) ≠ []) :
    ¬ L.SameUsage L' now := by
  intro hsame
  have hkey := hsame key windowMs
  unfold usage at hkey
  rcases h with hcharged | ⟨hgone, hbefore⟩
  · rw [hcharged, valid_append, valid_valid le_rfl] at hkey
    simp [valid] at hkey
  · rw [hgone] at hkey
    exact hbefore hkey.symm

end SlidingWindowLimiter

section Sequence

open SlidingWindowLimiter

variable {clock : ℕ → ℕ} {L : SlidingWindowLimiter} {n : ℕ}

-- the memory backend; `clock n` is what the n-th await of the call reads from the clock
def serveMemory (clock : ℕ → ℕ) (s : SlidingWindowLimiter × ℕ) :
    (o : LimitOp) → (SlidingWindowLimiter × ℕ) × LimitAns o
  | .consume c =>
      let r := s.1.consume c.key c.limit c.windowMs (clock s.2)
      ((r.1, s.2 + 1), r.2)
  | .check c =>
      let r := s.1.check c.key c.limit c.windowMs (clock s.2)
      ((r.1, s.2 + 1), r.2)
  | .now => ((s.1, s.2 + 1), clock s.2)
  | .enqueue _ _ _ => ((s.1, s.2 + 1), false)
  | .awaitSlot => ((s.1, s.2 + 1), false)

-- the limiter and the answer when nothing else runs meanwhile
def runMemory {α : Type} (clock : ℕ → ℕ) (L : SlidingWindowLimiter) (p : LimitProc α) :
    SlidingWindowLimiter × α :=
  let r := Program.run (serveMemory clock) (L, 0) p
  (r.1.1, r.2)

-- the loop that evaluateChecks and consumeWorkspaceQuota share
def chargeAll {ρ : Type} (refusal : RateLimitCheck → RateLimitResult → ρ) :
    List RateLimitCheck → LimitProc (Option ρ)
  | [] => return none
  | check :: rest => do
      let result ← request (.consume check)
      if result.allowed then chargeAll refusal rest else return some (refusal check result)

theorem firstBlocking_eq_chargeAll (checks : List RateLimitCheck) :
    firstBlocking true checks = chargeAll (fun check result => blocked result check) checks := by
  induction checks with
  | nil => rfl
  | cons check rest ih =>
      unfold firstBlocking chargeAll
      rw [ih]
      rfl

variable {ρ : Type} {refusal : RateLimitCheck → RateLimitResult → ρ} {check : RateLimitCheck}
  {rest checks : List RateLimitCheck}

theorem run_chargeAll_cons :
    Program.run (serveMemory clock) (L, n) (chargeAll refusal (check :: rest)) =
      if L.full check.key check.limit check.windowMs (clock n) then
        (((L.getValid check.key check.windowMs (clock n)).2, n + 1), some (refusal check
          (L.consume check.key check.limit check.windowMs (clock n)).2))
      else
        Program.run (serveMemory clock) (L.afterCharge check.key check.windowMs (clock n), n + 1)
          (chargeAll refusal rest) := by
  have hstep : Program.run (serveMemory clock) (L, n) (chargeAll refusal (check :: rest)) =
      Program.run (serveMemory clock)
        ((L.consume check.key check.limit check.windowMs (clock n)).1, n + 1)
        (if (L.consume check.key check.limit check.windowMs (clock n)).2.allowed then
            chargeAll refusal rest
          else return some (refusal check
            (L.consume check.key check.limit check.windowMs (clock n)).2)) := rfl
  rw [hstep]
  by_cases hfull : L.full check.key check.limit check.windowMs (clock n)
  · rw [(consume_of_full hfull).1, (consume_of_full hfull).2, if_pos hfull]
    rfl
  · rw [(consume_of_not_full hfull).1, (consume_of_not_full hfull).2, if_neg hfull]
    rfl

def bucketOf (check : RateLimitCheck) : String := storageKey check.key check.windowMs

theorem Distinct.nodup_bucketOf (h : Distinct checks) : (checks.map bucketOf).Nodup := by
  rw [show bucketOf = (fun b : String × ℕ => storageKey b.1 b.2) ∘ RateLimitCheck.bucket from rfl,
    ← List.map_map]
  refine h.map fun b b' hb => ?_
  obtain ⟨hkey, hwindow⟩ := storageKey_inj.1 hb
  exact Prod.ext hkey hwindow

def FullFirst (L : SlidingWindowLimiter) (now : ℕ) : List RateLimitCheck → Prop
  | [] => False
  | check :: _ => L.full check.key check.limit check.windowMs now

instance FullFirst.decidable (L : SlidingWindowLimiter) (now : ℕ) :
    ∀ checks, Decidable (FullFirst L now checks)
  | [] => isFalse id
  | check :: _ => inferInstanceAs (Decidable (L.full check.key check.limit check.windowMs now))

theorem get?_chargeAll {sk : String} (h : sk ∉ checks.map bucketOf) :
    (Program.run (serveMemory clock) (L, n) (chargeAll refusal checks)).1.1.store.get? sk =
        L.store.get? sk ∨
      (Program.run (serveMemory clock) (L, n) (chargeAll refusal checks)).1.1.store.get? sk =
        none := by
  induction checks generalizing L n with
  | nil => exact .inl rfl
  | cons check rest ih =>
      rw [List.map_cons, List.mem_cons, not_or] at h
      obtain ⟨hne, hrest⟩ := h
      rw [run_chargeAll_cons]
      split
      · exact .inl (get?_getValid_of_ne hne _)
      · rcases ih hrest with heq | hnone
        · rw [heq]
          exact get?_afterCharge_of_ne hne _
        · exact .inr hnone

theorem recent_chargeAll {sk : String} (h : sk ∉ checks.map bucketOf) {k : ℕ}
    (hrecent : L.store.Recent sk k) (hsized : L.Sized) (hk : k + 2 * checks.length < 1000) :
    (Program.run (serveMemory clock) (L, n) (chargeAll refusal checks)).1.1.store.Recent sk
      (k + 2 * checks.length) := by
  induction checks generalizing L n k with
  | nil => exact hrecent
  | cons check rest ih =>
      rw [List.map_cons, List.mem_cons, not_or] at h
      obtain ⟨hne, hrest⟩ := h
      simp only [List.length_cons] at hk ⊢
      rw [run_chargeAll_cons]
      split
      · exact (recent_getValid hne hrecent _).mono (by omega)
      next hfull =>
        have hcharged := recent_consume hne hrecent hsized (by omega) check.limit (clock n)
        rw [(consume_of_not_full hfull).1] at hcharged
        exact (ih hrest hcharged (hsized.afterCharge ..) (by omega)).mono (by omega)

theorem bucket_chargeAll (h : bucketOf check ∉ rest.map bucketOf) (hsized : L.Sized)
    (hlength : rest.length < 100) (L' : SlidingWindowLimiter)
    (hL' : (Program.run (serveMemory clock)
      (L.afterCharge check.key check.windowMs (clock n), n + 1) (chargeAll refusal rest)).1.1 = L') :
    L'.bucket check.key check.windowMs =
        valid (clock n) check.windowMs (L.bucket check.key check.windowMs) ++ [clock n] ∨
      L'.bucket check.key check.windowMs = [] ∧
        valid (clock n) check.windowMs (L.bucket check.key check.windowMs) ≠ [] := by
  subst hL'
  unfold bucket
  rcases @get?_chargeAll clock (L.afterCharge check.key check.windowMs (clock n)) (n + 1) _ refusal
    rest _ h with heq | hnone
  · rw [bucketOf, get?_afterCharge_self] at heq
    rw [heq]
    exact .inl rfl
  · rw [bucketOf] at hnone
    rw [hnone]
    refine .inr ⟨rfl, fun hexpired => ?_⟩
    have hrecent := @recent_chargeAll clock _ (n + 1) _ refusal rest _ h _
      (recent_afterCharge hexpired) (hsized.afterCharge ..) (by omega)
    exact hrecent.get?_ne_none hnone

theorem sameUsage_chargeAll_iff (hsized : L.Sized) (hdistinct : Distinct checks)
    (hlength : checks.length < 100)
    (hrefused : (Program.run (serveMemory clock) (L, n) (chargeAll refusal checks)).2 ≠ none) :
    L.SameUsage (Program.run (serveMemory clock) (L, n) (chargeAll refusal checks)).1.1 (clock n) ↔
      FullFirst L (clock n) checks := by
  cases checks with
  | nil => exact absurd rfl hrefused
  | cons check rest =>
      rw [run_chargeAll_cons]
      split
      next hfull => exact ⟨fun _ => hfull, fun _ => L.sameUsage_getValid _ _ _⟩
      next hfull =>
        refine ⟨fun hsame => absurd hsame ?_, fun h => absurd h hfull⟩
        have hnot := (List.nodup_cons.mp hdistinct.nodup_bucketOf).1
        exact not_sameUsage_of_charged
          (bucket_chargeAll hnot hsized (Nat.lt_of_succ_lt hlength) _ rfl)

theorem allowed_reportRemaining (s : SlidingWindowLimiter × ℕ) :
    (Program.run (serveMemory clock) s (reportRemaining checks)).2.allowed = true := by
  unfold reportRemaining
  rw [Program.run_bind]
  split <;> rfl

-- a refusal comes from the charging loop, and nothing runs after it
theorem run_evaluateChecks_of_refused
    (h : (Program.run (serveMemory clock) (L, n) (evaluateChecks checks true)).2.allowed = false) :
    (Program.run (serveMemory clock) (L, n) (firstBlocking true checks)).2 ≠ none ∧
      (Program.run (serveMemory clock) (L, n) (evaluateChecks checks true)).1 =
        (Program.run (serveMemory clock) (L, n) (firstBlocking true checks)).1 := by
  unfold evaluateChecks at h ⊢
  split at h
  · cases h
  next hchecks =>
    rw [if_neg hchecks, Program.run_bind]
    rw [Program.run_bind] at h
    cases hblocking : (Program.run (serveMemory clock) (L, n) (firstBlocking true checks)).2 with
    | none =>
        rw [hblocking, allowed_reportRemaining] at h
        cases h
    | some refusal => exact ⟨by simp, rfl⟩

theorem sameUsage_evaluateChecks_iff (hsized : L.Sized) (hdistinct : Distinct checks)
    (hlength : checks.length < 100)
    (hrefused : (runMemory clock L (evaluateChecks checks true)).2.allowed = false) :
    L.SameUsage (runMemory clock L (evaluateChecks checks true)).1 (clock 0) ↔
      FullFirst L (clock 0) checks := by
  obtain ⟨hblocked, hstate⟩ := run_evaluateChecks_of_refused hrefused
  rw [runMemory, hstate]
  rw [firstBlocking_eq_chargeAll] at hblocked ⊢
  exact sameUsage_chargeAll_iff hsized hdistinct hlength hblocked

end Sequence

end Conduit.RateLimit
