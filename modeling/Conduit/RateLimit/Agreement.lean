import Conduit.RateLimit.MemoryRefinement
import Conduit.RateLimit.RedisRefinement

namespace Conduit.RateLimit

def memoryAnswers (maxBuckets : Option ℕ) (calls : List Call) : List Bool :=
  (Transition.outputs SlidingWindowLimiter.call (.init maxBuckets) calls).map
    RateLimitResult.allowed

def redisAnswers (keyPrefix : Option String) (calls : List Call) : List Bool :=
  (Transition.outputs RedisLimiter.call (.init keyPrefix) calls).map RateLimitResult.allowed

def BucketsLeft (maxBuckets : Option ℕ) (calls : List Call) : Prop :=
  Transition.Throughout SlidingWindowLimiter.call SlidingWindowLimiter.Roomy (.init maxBuckets)
    calls

instance (maxBuckets : Option ℕ) (calls : List Call) : Decidable (BucketsLeft maxBuckets calls) :=
  have : ∀ L c, Decidable (SlidingWindowLimiter.Roomy L c) := fun L _ =>
    inferInstanceAs (Decidable (L.store.size < L.maxBuckets))
  inferInstanceAs (Decidable (Transition.Throughout _ _ _ _))

def UndisturbedRun (calls : List Call) : Prop :=
  Transition.Throughout WindowLog.call WindowLog.Undisturbed .init calls

instance (calls : List Call) : Decidable (UndisturbedRun calls) :=
  inferInstanceAs (Decidable (Transition.Throughout _ _ _ _))

theorem memory_refines_windowLog {maxBuckets : Option ℕ} {calls : List Call}
    (horder : calls.Pairwise fun c d => c.nowMs ≤ d.nowMs) (hroom : BucketsLeft maxBuckets calls) :
    memoryAnswers maxBuckets calls = Transition.outputs WindowLog.call .init calls := by
  have hin := WindowLog.inOrder_throughout (A := .init) horder (fun c _ => Nat.zero_le _)
  refine Transition.outputs_map_eq_of_simulation _ ?_
    (SlidingWindowLimiter.tracks_init maxBuckets) hroom hin
  intro L A c h hr ho
  exact ⟨SlidingWindowLimiter.call_allowed h ho hr, SlidingWindowLimiter.tracks_call h ho hr⟩

theorem redis_refines_windowLog (keyPrefix : Option String) {calls : List Call}
    (horder : calls.Pairwise fun c d => c.nowMs ≤ d.nowMs) (hcond : UndisturbedRun calls) :
    redisAnswers keyPrefix calls = Transition.outputs WindowLog.call .init calls := by
  have hin := WindowLog.inOrder_throughout (A := .init) horder (fun c _ => Nat.zero_le _)
  refine Transition.outputs_map_eq_of_simulation _ ?_ (RedisLimiter.mirrors_init keyPrefix)
    (Transition.throughout_true _ _ calls) (hin.and hcond)
  intro R A c h _ hc
  exact ⟨RedisLimiter.call_allowed h hc.1 hc.2, RedisLimiter.mirrors_call h hc.1 hc.2⟩

theorem redis_agrees_with_memory (maxBuckets : Option ℕ) (keyPrefix : Option String)
    (calls : List Call) (horder : calls.Pairwise fun c d => c.nowMs ≤ d.nowMs)
    (hroom : BucketsLeft maxBuckets calls) (hcond : UndisturbedRun calls) :
    redisAnswers keyPrefix calls = memoryAnswers maxBuckets calls := by
  rw [redis_refines_windowLog keyPrefix horder hcond, memory_refines_windowLog horder hroom]

def minuteRun : List Call :=
  [⟨.consume, "client:a", 1, 60000, 0, 7⟩, ⟨.check, "client:a", 1, 60000, 5, 0⟩,
    ⟨.consume, "client:a", 1, 60000, 60001, 7⟩]

theorem redis_agrees_with_memory_minuteRun :
    memoryAnswers none minuteRun = [true, false, true] ∧
      redisAnswers none minuteRun = memoryAnswers none minuteRun :=
  ⟨by decide, redis_agrees_with_memory none none minuteRun (by decide) (by decide) (by decide)⟩

-- minute and hour quota of one key, an entry exactly one window old, one draw repeated
def mixedWindowsRun : List Call :=
  [⟨.consume, "client:a", 1, 60000, 0, 1⟩, ⟨.consume, "client:a", 1, 3600000, 0, 2⟩]

def boundaryRun : List Call :=
  [⟨.consume, "client:a", 1, 60000, 0, 1⟩, ⟨.consume, "client:a", 1, 60000, 60000, 2⟩]

def repeatedDrawRun : List Call :=
  [⟨.consume, "client:a", 2, 60000, 0, 1⟩, ⟨.consume, "client:a", 2, 60000, 0, 1⟩,
    ⟨.consume, "client:a", 2, 60000, 0, 2⟩]

def Disagrees (calls : List Call) : Prop :=
  (calls.Pairwise fun c d => c.nowMs ≤ d.nowMs) ∧ BucketsLeft none calls ∧
    redisAnswers none calls ≠ memoryAnswers none calls

instance (calls : List Call) : Decidable (Disagrees calls) :=
  inferInstanceAs (Decidable (_ ∧ _ ∧ _))

theorem redis_disagrees_with_memory :
    Disagrees mixedWindowsRun ∧ Disagrees boundaryRun ∧ Disagrees repeatedDrawRun := by
  decide

end Conduit.RateLimit
