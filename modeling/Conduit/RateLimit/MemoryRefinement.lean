import Conduit.RateLimit.Limiter
import Conduit.RateLimit.WindowLog
import Mathlib.Algebra.Order.Ring.Int

namespace Conduit.RateLimit

namespace SlidingWindowLimiter

variable (L : SlidingWindowLimiter)

def bucket (key : String) (windowMs : ℕ) : List ℕ :=
  (L.store.get? (storageKey key windowMs)).getD []

def Roomy (_ : Call) : Prop := L.store.size < L.maxBuckets

theorem valid_valid {now now' : ℕ} (h : now ≤ now') (windowMs : ℕ) (all : List ℕ) :
    valid now' windowMs (valid now windowMs all) = valid now' windowMs all := by
  simp only [valid, List.filter_filter]
  refine List.filter_congr fun t _ => ?_
  simp only [← Bool.decide_and, decide_eq_decide]
  omega

theorem valid_append (now windowMs : ℕ) (all rest : List ℕ) :
    valid now windowMs (all ++ rest) = valid now windowMs all ++ valid now windowMs rest :=
  List.filter_append ..

theorem valid_map_timeMs (now windowMs : ℕ) (log : List Admission) :
    valid now windowMs (log.map Admission.timeMs) =
      (log.filter fun a => now ≤ a.timeMs + windowMs).map Admission.timeMs := by
  rw [valid, List.filter_map]
  congr 1
  refine List.filter_congr fun a _ => ?_
  simp only [Function.comp, decide_eq_decide]
  omega

theorem bucket_of_get? {key : String} {windowMs : ℕ} {all : List ℕ}
    (h : L.store.get? (storageKey key windowMs) = some all) : L.bucket key windowMs = all := by
  simp [bucket, h]

theorem bucket_set (key key' : String) (windowMs windowMs' : ℕ) (all : List ℕ) :
    bucket { L with store := L.store.set (storageKey key windowMs) all } key' windowMs' =
      if key = key' ∧ windowMs = windowMs' then all else L.bucket key' windowMs' := by
  unfold bucket
  rw [OrderedMap.get?_set]
  simp only [storageKey_inj]
  split <;> rfl

theorem bucket_delete (key key' : String) (windowMs windowMs' : ℕ) :
    bucket { L with store := L.store.delete (storageKey key windowMs) } key' windowMs' =
      if key = key' ∧ windowMs = windowMs' then [] else L.bucket key' windowMs' := by
  unfold bucket
  rw [OrderedMap.get?_delete]
  simp only [storageKey_inj]
  split <;> rfl

theorem getValid_fst (key : String) (windowMs now : ℕ) :
    (L.getValid key windowMs now).1 = valid now windowMs (L.bucket key windowMs) := by
  unfold getValid bucket
  cases L.store.get? (storageKey key windowMs) with
  | none => rfl
  | some all =>
      dsimp only
      split
      · rfl
      · split <;> rfl

theorem getValid_bucket (key key' : String) (windowMs windowMs' now : ℕ) :
    (L.getValid key windowMs now).2.bucket key' windowMs' =
      if key = key' ∧ windowMs = windowMs' then valid now windowMs (L.bucket key windowMs)
      else L.bucket key' windowMs' := by
  unfold getValid
  cases hget : L.store.get? (storageKey key windowMs) with
  | none =>
      have hbucket : L.bucket key windowMs = [] := by simp [bucket, hget]
      dsimp only
      split
      next h =>
        obtain ⟨rfl, rfl⟩ := h
        simp [hbucket, valid]
      next => rfl
  | some all =>
      rw [L.bucket_of_get? hget]
      dsimp only
      split
      next hzero =>
        rw [bucket_delete]
        rw [List.length_eq_zero_iff] at hzero
        rw [hzero]
      next =>
        split
        next => exact L.bucket_set key key' windowMs windowMs' _
        next hsame =>
          have hall : valid now windowMs all = all := by
            rw [valid, List.filter_eq_self]
            exact List.length_filter_eq_length_iff.mp (not_not.mp hsame)
          split
          next h =>
            obtain ⟨rfl, rfl⟩ := h
            rw [hall, L.bucket_of_get? hget]
          next => rfl

theorem getValid_maxBuckets (key : String) (windowMs now : ℕ) :
    (L.getValid key windowMs now).2.maxBuckets = L.maxBuckets := by
  unfold getValid
  split
  · rfl
  · dsimp only
    split
    · rfl
    · split <;> rfl

theorem getValid_size_le (key : String) (windowMs now : ℕ) :
    (L.getValid key windowMs now).2.store.size ≤ L.store.size := by
  unfold getValid
  split
  · exact le_rfl
  next all hget =>
    dsimp only
    split
    · exact OrderedMap.size_delete_le _ _
    · split
      · exact (OrderedMap.size_set_of_get? _ hget).le
      · exact le_rfl

structure Tracks (A : WindowLog) : Prop where
  live : ∀ key windowMs now, A.clock ≤ now →
    valid now windowMs (L.bucket key windowMs) = (A.inWindow key windowMs now).map Admission.timeMs

theorem tracks_init (maxBuckets : Option ℕ) : (init maxBuckets).Tracks WindowLog.init where
  live := fun _ _ _ _ => rfl

variable {L}

theorem consume_admitted {key : String} {limit : ℤ} {windowMs now : ℕ}
    (hroom : L.store.size < L.maxBuckets)
    (h : ((L.getValid key windowMs now).1.length : ℤ) < limit) :
    L.consume key limit windowMs now =
      ({ (L.getValid key windowMs now).2 with
          store := (L.getValid key windowMs now).2.store.set (storageKey key windowMs)
            ((L.getValid key windowMs now).1 ++ [now]) },
        { allowed := true
          remaining := limit - ((L.getValid key windowMs now).1 ++ [now]).length
          limit := limit
          resetAt := now + windowMs
          retryAfter := none }) := by
  have hevict : (L.getValid key windowMs now).2.evictIfFull = (L.getValid key windowMs now).2 := by
    rw [evictIfFull, if_pos]
    rw [L.getValid_maxBuckets]
    exact lt_of_le_of_lt (L.getValid_size_le key windowMs now) hroom
  unfold consume
  simp only [not_le.mpr h, if_false, hevict, ite_self]

theorem allowed_eq {A : WindowLog} (h : L.Tracks A) {c : Call} (horder : A.InOrder c) :
    ((L.getValid c.key c.windowMs c.nowMs).1.length : ℤ) < c.limit ↔ A.allowed c = true := by
  rw [L.getValid_fst, h.live _ _ _ horder, List.length_map]
  simp [WindowLog.allowed]

theorem call_allowed {A : WindowLog} (h : L.Tracks A) {c : Call} (horder : A.InOrder c)
    (hroom : L.Roomy c) : (L.call c).2.allowed = A.allowed c := by
  have hallowed := allowed_eq h horder
  unfold call
  cases c.operation with
  | check =>
      rw [Bool.eq_iff_iff, ← hallowed]
      simp [check]
  | consume =>
      rcases lt_or_ge ((L.getValid c.key c.windowMs c.nowMs).1.length : ℤ) c.limit with hlt | hge
      · simp only [consume_admitted hroom hlt, hallowed.mp hlt]
      · have hrefused : A.allowed c = false := by
          rw [Bool.eq_false_iff, Ne, ← hallowed]
          exact not_lt.mpr hge
        simp [consume, hge, hrefused]

theorem getValid_tracks {A : WindowLog} (h : L.Tracks A) {c : Call} (horder : A.InOrder c)
    (key : String) (windowMs : ℕ) {now : ℕ} (hnow : c.nowMs ≤ now) :
    valid now windowMs ((L.getValid c.key c.windowMs c.nowMs).2.bucket key windowMs) =
      (A.inWindow key windowMs now).map Admission.timeMs := by
  rw [L.getValid_bucket]
  split
  next hsame =>
    obtain ⟨rfl, rfl⟩ := hsame
    rw [valid_valid hnow]
    exact h.live _ _ _ (le_trans horder hnow)
  next => exact h.live _ _ _ (le_trans horder hnow)

theorem call_bucket {A : WindowLog} (h : L.Tracks A) {c : Call} (horder : A.InOrder c)
    (hroom : L.Roomy c) (key : String) (windowMs : ℕ) :
    (L.call c).1.bucket key windowMs =
      if A.allowed c = true ∧ c.operation = .consume ∧ c.key = key ∧ c.windowMs = windowMs then
        (L.getValid c.key c.windowMs c.nowMs).1 ++ [c.nowMs]
      else (L.getValid c.key c.windowMs c.nowMs).2.bucket key windowMs := by
  have hallowed := allowed_eq h horder
  unfold call
  cases hop : c.operation with
  | check => simp [check]
  | consume =>
      rcases lt_or_ge ((L.getValid c.key c.windowMs c.nowMs).1.length : ℤ) c.limit with hlt | hge
      · simp only [consume_admitted hroom hlt, bucket_set, hallowed.mp hlt, true_and]
      · have hrefused : A.allowed c = false := by
          rw [Bool.eq_false_iff, Ne, ← hallowed]
          exact not_lt.mpr hge
        simp [consume, hge, hrefused]

theorem tracks_call {A : WindowLog} (h : L.Tracks A) {c : Call} (horder : A.InOrder c)
    (hroom : L.Roomy c) : (L.call c).1.Tracks (A.record c) where
  live := by
    intro key windowMs now hnow
    rw [WindowLog.record_clock horder] at hnow
    rw [call_bucket h horder hroom, WindowLog.inWindow_record, List.map_append]
    have hkept := getValid_tracks h horder key windowMs hnow
    split
    next hpush =>
      obtain ⟨hallowed, hop, rfl, rfl⟩ := hpush
      rw [valid_append, L.getValid_fst, valid_valid hnow, h.live _ _ _ (le_trans horder hnow)]
      have hnew : WindowLog.admission c = [⟨c.key, c.windowMs, c.nowMs, c.draw⟩] := by
        simp [WindowLog.admission, hop]
      have hnewest : valid now c.windowMs [c.nowMs] =
          ((WindowLog.admission c).filter fun a => now ≤ a.timeMs + c.windowMs).map
            Admission.timeMs := by
        rw [← valid_map_timeMs, hnew, List.map_singleton]
      simp [hallowed, hnewest, hnew, List.filter_cons]
    next hpush =>
      have hnone : (if A.allowed c = true then (WindowLog.admission c).filter fun a =>
          a.key = key ∧ a.windowMs = windowMs ∧ now ≤ a.timeMs + windowMs else []) = [] := by
        split
        next hallowed =>
          rw [List.filter_eq_nil_iff]
          intro a ha hmatch
          obtain rfl := WindowLog.eq_of_mem_admission ha
          have hop : c.operation = .consume := WindowLog.consume_of_mem_admission ha
          simp only [decide_eq_true_eq] at hmatch
          exact hpush ⟨hallowed, hop, hmatch.1, hmatch.2.1⟩
        next => rfl
      rw [hkept, hnone, List.map_nil, List.append_nil]

end SlidingWindowLimiter

end Conduit.RateLimit
