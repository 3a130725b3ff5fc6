import Conduit.RateLimit.Charging
import Mathlib.Data.List.Dedup
import Mathlib.Data.List.Perm.Subperm

namespace Conduit.RateLimit.SlidingWindowLimiter

variable {L : SlidingWindowLimiter} {key : String} {windowMs now : ℕ} {limit : ℤ}
  {commands before : List Command} {command : Command}

def Command.time? : Command → Option ℕ
  | .consume _ _ _ now => some now
  | .check _ _ _ now => some now
  | .getUsage _ _ now => some now
  | .reset _ => none
  | .resetAll => none

def Command.consumedBucket? : Command → Option (String × ℕ)
  | .consume key _ windowMs _ => some (key, windowMs)
  | _ => none

def Command.clears (key : String) (windowMs : ℕ) : Command → Bool
  | .reset resetKey => (storageKey key windowMs).startsWith (resetKey ++ ":")
  | .resetAll => true
  | _ => false

def Command.KeepsLimit (key : String) (windowMs : ℕ) (limit : ℤ) (command : Command) : Prop :=
  ∀ limit' now, command = .consume key limit' windowMs now → limit' = limit

def times (commands : List Command) : List ℕ := commands.filterMap Command.time?

def Chronological (commands : List Command) : Prop := (times commands).Pairwise (· ≤ ·)

def obeyAll (L : SlidingWindowLimiter) (commands : List Command) : SlidingWindowLimiter :=
  commands.foldl obey L

def admission (L : SlidingWindowLimiter) (key : String) (windowMs : ℕ) : Command → List ℕ
  | .consume key' limit windowMs' now =>
      if key' = key ∧ windowMs' = windowMs ∧ (L.consume key' limit windowMs' now).2.allowed then [now]
      else []
  | .check .. | .getUsage .. | .reset _ | .resetAll => []

-- the times of the allowed consumes of a bucket
def admitted (L : SlidingWindowLimiter) (key : String) (windowMs : ℕ) : List Command → List ℕ
  | [] => []
  | command :: commands =>
      L.admission key windowMs command ++ (L.obey command).admitted key windowMs commands

@[simp] theorem obeyAll_nil (L : SlidingWindowLimiter) : L.obeyAll [] = L := rfl

theorem obeyAll_append (L : SlidingWindowLimiter) (commands rest : List Command) :
    L.obeyAll (commands ++ rest) = (L.obeyAll commands).obeyAll rest := List.foldl_append

theorem obeyAll_concat (L : SlidingWindowLimiter) (commands : List Command) (command : Command) :
    L.obeyAll (commands ++ [command]) = (L.obeyAll commands).obey command :=
  obeyAll_append L commands [command]

theorem admitted_concat (L : SlidingWindowLimiter) (key : String) (windowMs : ℕ)
    (commands : List Command) (command : Command) :
    L.admitted key windowMs (commands ++ [command]) =
      L.admitted key windowMs commands ++ (L.obeyAll commands).admission key windowMs command := by
  induction commands generalizing L with
  | nil => simp [admitted]
  | cons c commands ih =>
      simp only [List.cons_append, admitted, ih, List.append_assoc]
      rfl

theorem times_concat (commands : List Command) (command : Command) :
    times (commands ++ [command]) = times commands ++ command.time?.toList := by
  cases h : command.time? <;> simp [times, h]

theorem admission_sublist (L : SlidingWindowLimiter) (key : String) (windowMs : ℕ)
    (command : Command) : (L.admission key windowMs command).Sublist command.time?.toList := by
  cases command with
  | consume key' limit windowMs' now =>
      rw [admission, Command.time?, Option.toList_some]
      split
      · exact .refl _
      · exact List.nil_sublist _
  | check | getUsage | reset | resetAll => exact List.nil_sublist _

theorem admitted_sublist (L : SlidingWindowLimiter) (key : String) (windowMs : ℕ)
    (commands : List Command) : (L.admitted key windowMs commands).Sublist (times commands) := by
  induction commands using List.reverseRecOn with
  | nil => exact .refl _
  | append_singleton commands command ih =>
      rw [admitted_concat, times_concat]
      exact ih.append (admission_sublist ..)

section Step

theorem valid_sublist (now windowMs : ℕ) (all : List ℕ) : (valid now windowMs all).Sublist all :=
  List.filter_sublist

theorem bucket_getValid_sublist (L : SlidingWindowLimiter) (key key' : String)
    (windowMs windowMs' now : ℕ) :
    ((L.getValid key' windowMs' now).2.bucket key windowMs).Sublist (L.bucket key windowMs) := by
  rw [getValid_bucket]
  split
  next hsame =>
    obtain ⟨rfl, rfl⟩ := hsame
    exact valid_sublist ..
  next => exact .refl _

theorem bucket_afterCharge_of_ne (L : SlidingWindowLimiter) {key' : String} {windowMs' : ℕ}
    (hne : ¬ (key' = key ∧ windowMs' = windowMs)) (now : ℕ) :
    (L.afterCharge key' windowMs' now).bucket key windowMs = L.bucket key windowMs ∨
      (L.afterCharge key' windowMs' now).bucket key windowMs = [] := by
  have hsk : storageKey key windowMs ≠ storageKey key' windowMs' := fun heq =>
    hne ((storageKey_inj.1 heq).imp Eq.symm Eq.symm)
  rw [bucket, bucket]
  rcases @get?_afterCharge_of_ne L _ key' windowMs' hsk now with hsame | hnone
  · exact .inl (by rw [hsame])
  · exact .inr (by rw [hnone]; rfl)

theorem bucket_reset (L : SlidingWindowLimiter) (resetKey key : String) (windowMs : ℕ) :
    (L.reset resetKey).bucket key windowMs =
      if (storageKey key windowMs).startsWith (resetKey ++ ":") then [] else L.bucket key windowMs := by
  rw [bucket, reset, OrderedMap.get?_foldl_delete]
  by_cases hmatch : (storageKey key windowMs).startsWith (resetKey ++ ":") = true
  · rw [if_pos hmatch]
    split
    · rfl
    next hnone =>
      cases hget : L.store.get? (storageKey key windowMs) with
      | none => rfl
      | some all =>
          have hkey : storageKey key windowMs ∈ L.store.keys := OrderedMap.mem_keys.2 ⟨all, hget⟩
          exact absurd (List.mem_filter.mpr ⟨hkey, hmatch⟩) hnone
  · rw [if_neg hmatch, if_neg (by simp [hmatch]), bucket]

-- a command leaves a part of each bucket and appends the time of its own allowed consume
theorem bucket_obey (L : SlidingWindowLimiter) (key : String) (windowMs : ℕ) (command : Command) :
    ∃ kept, kept.Sublist (L.bucket key windowMs) ∧
      (L.obey command).bucket key windowMs = kept ++ L.admission key windowMs command ∧
      ∀ limit, command.KeepsLimit key windowMs limit → L.admission key windowMs command ≠ [] →
        (kept.length : ℤ) < limit := by
  cases command with
  | consume key' limit' windowMs' now =>
      rw [obey, admission]
      by_cases hfull : L.full key' limit' windowMs' now
      · rw [(consume_of_full hfull).1, (consume_of_full hfull).2, if_neg (by simp)]
        exact ⟨_, bucket_getValid_sublist .., (List.append_nil _).symm, fun _ _ h => absurd rfl h⟩
      · rw [(consume_of_not_full hfull).1, (consume_of_not_full hfull).2]
        by_cases hsame : key' = key ∧ windowMs' = windowMs
        · obtain ⟨rfl, rfl⟩ := hsame
          rw [if_pos ⟨rfl, rfl, rfl⟩]
          refine ⟨_, valid_sublist now windowMs' _, bucket_of_get? _ (get?_afterCharge_self ..), ?_⟩
          intro limit hlimit _
          rw [← hlimit limit' now rfl]
          exact not_le.mp hfull
        · rw [if_neg fun h => hsame ⟨h.1, h.2.1⟩]
          rcases bucket_afterCharge_of_ne L hsame now with hbucket | hbucket
          · exact ⟨_, .refl _, by simp [hbucket], fun _ _ h => absurd rfl h⟩
          · exact ⟨[], List.nil_sublist _, by simp [hbucket], fun _ _ h => absurd rfl h⟩
  | check key' limit' windowMs' now =>
      exact ⟨_, bucket_getValid_sublist .., (List.append_nil _).symm, fun _ _ h => absurd rfl h⟩
  | getUsage key' windowMs' now =>
      exact ⟨_, bucket_getValid_sublist .., (List.append_nil _).symm, fun _ _ h => absurd rfl h⟩
  | reset resetKey =>
      refine ⟨(L.reset resetKey).bucket key windowMs, ?_, (List.append_nil _).symm,
        fun _ _ h => absurd rfl h⟩
      rw [bucket_reset]
      split
      · exact List.nil_sublist _
      · exact .refl _
  | resetAll => exact ⟨[], List.nil_sublist _, rfl, fun _ _ h => absurd rfl h⟩

theorem getValid_subset {sk : String} (h : (L.getValid key windowMs now).2.store.get? sk ≠ none) :
    L.store.get? sk ≠ none := by
  by_cases hsk : sk = storageKey key windowMs
  · subst hsk
    intro hnone
    rw [getValid, hnone] at h
    exact h hnone
  · rwa [get?_getValid_of_ne hsk] at h

theorem afterCharge_subset {sk : String} (h : (L.afterCharge key windowMs now).store.get? sk ≠ none)
    (hsk : sk ≠ storageKey key windowMs) : L.store.get? sk ≠ none := by
  rcases get?_afterCharge_of_ne hsk now with hsame | hnone
  · rwa [hsame] at h
  · exact absurd hnone h

-- only a consume makes a bucket
theorem obey_subset {sk : String} (h : (L.obey command).store.get? sk ≠ none) :
    L.store.get? sk ≠ none ∨
      ∃ bucket ∈ command.consumedBucket?, sk = storageKey bucket.1 bucket.2 := by
  cases command with
  | consume key limit windowMs now =>
      by_cases hsk : sk = storageKey key windowMs
      · exact .inr ⟨(key, windowMs), rfl, hsk⟩
      · refine .inl ?_
        rw [obey] at h
        by_cases hfull : L.full key limit windowMs now
        · rw [(consume_of_full hfull).1] at h
          exact getValid_subset h
        · rw [(consume_of_not_full hfull).1] at h
          exact afterCharge_subset h hsk
  | check key limit windowMs now => exact .inl (getValid_subset h)
  | getUsage key windowMs now => exact .inl (getValid_subset h)
  | reset resetKey =>
      refine .inl fun hnone => h ?_
      rw [obey, reset, OrderedMap.get?_foldl_delete, hnone, ite_self]
  | resetAll => exact absurd rfl h

theorem bucket_obeyAll_sublist (maxBuckets : Option ℕ) (commands : List Command) (key : String)
    (windowMs : ℕ) :
    (((init maxBuckets).obeyAll commands).bucket key windowMs).Sublist
      ((init maxBuckets).admitted key windowMs commands) := by
  induction commands using List.reverseRecOn with
  | nil => exact .refl _
  | append_singleton commands command ih =>
      obtain ⟨kept, hkept, hbucket, -⟩ :=
        bucket_obey ((init maxBuckets).obeyAll commands) key windowMs command
      rw [obeyAll_concat, hbucket, admitted_concat]
      exact (hkept.trans ih).append (.refl _)

end Step

section Rooms

def consumedBuckets (commands : List Command) : List (String × ℕ) :=
  commands.filterMap Command.consumedBucket?

theorem obeyAll_subset {sk : String} (hempty : L.store.get? sk = none)
    (h : (L.obeyAll commands).store.get? sk ≠ none) :
    ∃ bucket ∈ consumedBuckets commands, sk = storageKey bucket.1 bucket.2 := by
  induction commands using List.reverseRecOn with
  | nil => exact absurd hempty h
  | append_singleton commands command ih =>
      rw [obeyAll_concat] at h
      rcases obey_subset h with hbefore | ⟨bucket, hbucket, hsk⟩
      · obtain ⟨bucket, hbucket, hsk⟩ := ih hbefore
        obtain ⟨earlier, hearlier, hconsumed⟩ := List.mem_filterMap.mp hbucket
        exact ⟨bucket, List.mem_filterMap.mpr ⟨earlier, by simp [hearlier], hconsumed⟩, hsk⟩
      · exact ⟨bucket, List.mem_filterMap.mpr ⟨command, by simp, hbucket⟩, hsk⟩

theorem consumedBuckets_mono (commands rest : List Command) :
    (consumedBuckets commands).dedup.length ≤ (consumedBuckets (commands ++ rest)).dedup.length := by
  refine (List.Nodup.subperm (List.nodup_dedup _) fun bucket hbucket => ?_).length_le
  rw [List.mem_dedup] at hbucket ⊢
  rw [consumedBuckets, List.filterMap_append]
  exact List.mem_append_left _ hbucket

theorem size_obeyAll_le (maxBuckets : Option ℕ) (commands : List Command) :
    ((init maxBuckets).obeyAll commands).store.size ≤ (consumedBuckets commands).dedup.length := by
  have hsubset : ((init maxBuckets).obeyAll commands).store.keys ⊆
      (consumedBuckets commands).dedup.map fun bucket => storageKey bucket.1 bucket.2 := by
    intro sk hsk
    obtain ⟨all, hget⟩ := OrderedMap.mem_keys.1 hsk
    have hpresent : ((init maxBuckets).obeyAll commands).store.get? sk ≠ none := by simp [hget]
    obtain ⟨bucket, hbucket, rfl⟩ := obeyAll_subset rfl hpresent
    exact List.mem_map.mpr ⟨bucket, List.mem_dedup.mpr hbucket, rfl⟩
  have hle := (List.Nodup.subperm (OrderedMap.nodup _) hsubset).length_le
  simpa [OrderedMap.keys, OrderedMap.size] using hle

theorem maxBuckets_obey (L : SlidingWindowLimiter) (command : Command) :
    (L.obey command).maxBuckets = L.maxBuckets := by
  cases command with
  | consume key limit windowMs now =>
      rw [obey]
      by_cases hfull : L.full key limit windowMs now
      · rw [(consume_of_full hfull).1, getValid_maxBuckets]
      · rw [(consume_of_not_full hfull).1, afterCharge]
        dsimp only
        split
        · exact getValid_maxBuckets ..
        · exact (maxBuckets_evictIfFull _).trans (getValid_maxBuckets ..)
  | check key limit windowMs now => exact getValid_maxBuckets ..
  | getUsage key windowMs now => exact getValid_maxBuckets ..
  | reset | resetAll => rfl

theorem maxBuckets_obeyAll (L : SlidingWindowLimiter) (commands : List Command) :
    (L.obeyAll commands).maxBuckets = L.maxBuckets := by
  induction commands using List.reverseRecOn with
  | nil => rfl
  | append_singleton commands command ih => rw [obeyAll_concat, maxBuckets_obey, ih]

end Rooms

end Conduit.RateLimit.SlidingWindowLimiter
