import Conduit.RateLimit.Occupancy

namespace Conduit.RateLimit.SlidingWindowLimiter

variable {L : SlidingWindowLimiter} {key : String} {windowMs now : ℕ}
  {commands before : List Command} {command : Command}

section Intervals

-- the times in the closed interval of the window's length that begins at `start`
def inInterval (start : ℤ) (windowMs : ℕ) (times : List ℕ) : List ℕ :=
  times.filter fun t => start ≤ t ∧ (t : ℤ) ≤ start + windowMs

def Bounded (windowMs limit : ℕ) (times : List ℕ) : Prop :=
  ∀ start, (inInterval start windowMs times).length ≤ limit

theorem inInterval_concat (start : ℤ) (windowMs : ℕ) (times : List ℕ) (now : ℕ) :
    inInterval start windowMs (times ++ [now]) = inInterval start windowMs times ++
      if start ≤ now ∧ (now : ℤ) ≤ start + windowMs then [now] else [] := by
  rw [inInterval, List.filter_append, List.filter_singleton, Bool.cond_decide, inInterval]

theorem length_inInterval_le_valid {start : ℤ} (h : (now : ℤ) ≤ start + windowMs) (times : List ℕ) :
    (inInterval start windowMs times).length ≤ (valid now windowMs times).length := by
  refine (List.monotone_filter_right _ fun t ht => ?_).length_le
  simp only [decide_eq_true_eq] at ht ⊢
  omega

theorem Bounded.concat {limit : ℕ} {times : List ℕ} (h : Bounded windowMs limit times)
    (hfree : (valid now windowMs times).length < limit) : Bounded windowMs limit (times ++ [now]) := by
  intro start
  rw [inInterval_concat, List.length_append]
  split
  next hinside =>
    have hle := length_inInterval_le_valid hinside.2 times
    rw [List.length_singleton]
    omega
  next => exact h start

theorem valid_eq_inInterval {times : List ℕ} (h : ∀ t ∈ times, t ≤ now) :
    valid now windowMs times = inInterval ((now : ℤ) - windowMs) windowMs times := by
  refine List.filter_congr fun t ht => ?_
  have hpast := h t ht
  simp only [decide_eq_decide]
  omega

end Intervals

section Live

theorem valid_getValid {key' : String} {windowMs' now' : ℕ} (h : now' ≤ now) :
    valid now windowMs ((L.getValid key' windowMs' now').2.bucket key windowMs) =
      valid now windowMs (L.bucket key windowMs) := by
  rw [getValid_bucket]
  split
  next hsame =>
    obtain ⟨rfl, rfl⟩ := hsame
    exact valid_valid h ..
  next => rfl

theorem live_obey (hroom : L.store.size < L.maxBuckets) (hkept : command.clears key windowMs = false)
    (htime : ∀ t ∈ command.time?, t ≤ now) :
    valid now windowMs ((L.obey command).bucket key windowMs) =
      valid now windowMs (L.bucket key windowMs ++ L.admission key windowMs command) := by
  cases command with
  | consume key' limit windowMs' now' =>
      have hnow : now' ≤ now := htime now' rfl
      rw [obey, admission]
      by_cases hfull : L.full key' limit windowMs' now'
      · rw [(consume_of_full hfull).1, (consume_of_full hfull).2, if_neg (by simp), List.append_nil]
        exact valid_getValid hnow
      · have hfree : ((L.getValid key' windowMs' now').1.length : ℤ) < limit := by
          rw [getValid_fst]
          exact not_le.mp hfull
        rw [(consume_of_not_full hfull).2, consume_admitted hroom hfree, bucket_set, valid_append]
        by_cases hsame : key' = key ∧ windowMs' = windowMs
        · obtain ⟨rfl, rfl⟩ := hsame
          rw [if_pos ⟨rfl, rfl⟩, if_pos ⟨rfl, rfl, rfl⟩, getValid_fst, valid_append, valid_valid hnow]
        · rw [if_neg hsame, if_neg fun h => hsame ⟨h.1, h.2.1⟩, valid_getValid hnow]
          exact (List.append_nil _).symm
  | check key' limit windowMs' now' =>
      rw [admission, List.append_nil]
      exact valid_getValid (htime now' rfl)
  | getUsage key' windowMs' now' =>
      rw [admission, List.append_nil]
      exact valid_getValid (htime now' rfl)
  | reset resetKey =>
      rw [Command.clears] at hkept
      rw [obey, bucket_reset, hkept, admission, List.append_nil]
      rfl
  | resetAll => cases hkept

-- nothing that still counts is lost while the buckets fit and none is cleared
theorem live_obeyAll (maxBuckets : Option ℕ)
    (hroom : (consumedBuckets commands).dedup.length < (init maxBuckets).maxBuckets)
    (hkept : ∀ command ∈ commands, command.clears key windowMs = false)
    (htime : ∀ t ∈ times commands, t ≤ now) :
    valid now windowMs (((init maxBuckets).obeyAll commands).bucket key windowMs) =
      valid now windowMs ((init maxBuckets).admitted key windowMs commands) := by
  induction commands using List.reverseRecOn with
  | nil => rfl
  | append_singleton commands command ih =>
      have hfewer := consumedBuckets_mono commands [command]
      rw [times_concat] at htime
      have hbefore := ih (hfewer.trans_lt hroom) (fun c hc => hkept c (by simp [hc]))
        fun t ht => htime t (by simp [ht])
      have hsize : ((init maxBuckets).obeyAll commands).store.size <
          ((init maxBuckets).obeyAll commands).maxBuckets := by
        rw [maxBuckets_obeyAll]
        exact ((size_obeyAll_le maxBuckets commands).trans hfewer).trans_lt hroom
      rw [obeyAll_concat, admitted_concat,
        live_obey hsize (hkept command (by simp)) fun t ht =>
          htime t (List.mem_append_right _ (Option.mem_toList.mpr ht))]
      rw [valid_append, valid_append, hbefore]

end Live

section Runs

def Command.Uses (limit : String → ℕ → ℤ) : Command → Prop
  | .consume key limit' windowMs _ => limit' = limit key windowMs
  | _ => True

-- commands at non-decreasing times, with one limit a bucket, that neither fill the limiter nor
-- clear the bucket
structure Steady (maxBuckets : Option ℕ) (limit : String → ℕ → ℤ) (key : String) (windowMs : ℕ)
    (commands : List Command) : Prop where
  chronological : Chronological commands
  limited : ∀ command ∈ commands, command.Uses limit
  kept : ∀ command ∈ commands, command.clears key windowMs = false
  fits : (consumedBuckets commands).dedup.length < (init maxBuckets).maxBuckets

variable {maxBuckets : Option ℕ} {limit : String → ℕ → ℤ}

theorem Steady.of_concat (h : Steady maxBuckets limit key windowMs (commands ++ [command])) :
    Steady maxBuckets limit key windowMs commands where
  chronological := by
    have hall := h.chronological
    rw [Chronological, times_concat] at hall
    exact (List.pairwise_append.mp hall).1
  limited := fun c hc => h.limited c (by simp [hc])
  kept := fun c hc => h.kept c (by simp [hc])
  fits := (consumedBuckets_mono commands [command]).trans_lt h.fits

theorem Steady.past (h : Steady maxBuckets limit key windowMs (commands ++ [command]))
    (hnow : command.time? = some now) : ∀ t ∈ times commands, t ≤ now := by
  have hall := h.chronological
  rw [Chronological, times_concat, hnow] at hall
  exact fun t ht => (List.pairwise_append.mp hall).2.2 t ht now (by simp)

theorem Steady.past_admitted (h : Steady maxBuckets limit key windowMs (commands ++ [command]))
    (hnow : command.time? = some now) :
    ∀ t ∈ (init maxBuckets).admitted key windowMs commands, t ≤ now :=
  fun t ht => h.past hnow t ((admitted_sublist ..).mem ht)

theorem Steady.live (h : Steady maxBuckets limit key windowMs (commands ++ [command]))
    (hnow : command.time? = some now) :
    valid now windowMs (((init maxBuckets).obeyAll commands).bucket key windowMs) =
      valid now windowMs ((init maxBuckets).admitted key windowMs commands) :=
  live_obeyAll maxBuckets h.of_concat.fits h.of_concat.kept (h.past hnow)

theorem Steady.bounded (h : Steady maxBuckets limit key windowMs commands) :
    Bounded windowMs (limit key windowMs).toNat
      ((init maxBuckets).admitted key windowMs commands) := by
  induction commands using List.reverseRecOn with
  | nil => exact fun start => Nat.zero_le _
  | append_singleton commands command ih =>
      have hbefore := ih h.of_concat
      rw [admitted_concat]
      cases hcommand : ((init maxBuckets).obeyAll commands).admission key windowMs command with
      | nil => rwa [List.append_nil]
      | cons t rest =>
          cases command with
          | consume key' limit' windowMs' now =>
              rw [admission] at hcommand
              split at hcommand
              next hadmitted =>
                obtain ⟨rfl, rfl, hallowed⟩ := hadmitted
                obtain ⟨rfl, rfl⟩ := List.cons.inj hcommand
                refine hbefore.concat ?_
                have hfree : ¬ ((init maxBuckets).obeyAll commands).full key' limit' windowMs' now := by
                  intro hfull
                  rw [(consume_of_full hfull).2] at hallowed
                  cases hallowed
                have hlimit : limit' = limit key' windowMs' :=
                  h.limited (.consume key' limit' windowMs' now) (by simp)
                rw [full, h.live rfl, hlimit, not_le] at hfree
                omega
              next => cases hcommand
          | check | getUsage | reset | resetAll => cases hcommand

theorem Steady.sorted (h : Steady maxBuckets limit key windowMs commands) (key' : String)
    (windowMs' : ℕ) : (((init maxBuckets).obeyAll commands).bucket key' windowMs').Pairwise (· ≤ ·) :=
  h.chronological.sublist ((bucket_obeyAll_sublist ..).trans (admitted_sublist ..))

theorem Steady.full_of_refused {limit' : ℤ}
    (h : Steady maxBuckets limit key windowMs (before ++ [.consume key limit' windowMs now]))
    (hrefused : (((init maxBuckets).obeyAll before).consume key limit' windowMs now).2.allowed = false) :
    (inInterval ((now : ℤ) - windowMs) windowMs
      ((init maxBuckets).admitted key windowMs before)).length = (limit key windowMs).toNat := by
  have hbound := h.of_concat.bounded ((now : ℤ) - windowMs)
  have hfull := (consume_allowed ..).mp hrefused
  have hlimit : limit' = limit key windowMs :=
    h.limited (.consume key limit' windowMs now) (by simp)
  rw [full, h.live rfl, hlimit, valid_eq_inInterval (h.past_admitted rfl)] at hfull
  omega

theorem Steady.of_extends {rest : List Command}
    (h : Steady maxBuckets limit key windowMs (commands ++ rest)) :
    Steady maxBuckets limit key windowMs commands := by
  induction rest using List.reverseRecOn with
  | nil => rwa [List.append_nil] at h
  | append_singleton rest command ih =>
      rw [← List.append_assoc] at h
      exact ih h.of_concat

theorem sliding_window_bound (h : Steady maxBuckets limit key windowMs commands) :
    Bounded windowMs (limit key windowMs).toNat ((init maxBuckets).admitted key windowMs commands) ∧
    (∀ key' windowMs',
      (((init maxBuckets).obeyAll commands).bucket key' windowMs').Pairwise (· ≤ ·)) ∧
    ∀ before limit' now rest, commands = before ++ .consume key limit' windowMs now :: rest →
      (((init maxBuckets).obeyAll before).consume key limit' windowMs now).2.allowed = false →
      (inInterval ((now : ℤ) - windowMs) windowMs
        ((init maxBuckets).admitted key windowMs before)).length = (limit key windowMs).toNat := by
  refine ⟨h.bounded, h.sorted, ?_⟩
  rintro before limit' now rest rfl hrefused
  rw [← List.singleton_append, ← List.append_assoc] at h
  exact h.of_extends.full_of_refused hrefused

def pollingClient : List Command :=
  [.consume "client:ana" 1 1000 0, .check "client:ana" 1 1000 700, .consume "client:ana" 1 1000 1000]

theorem sliding_window_bound_polling :
    Bounded 1000 1 ((init none).admitted "client:ana" 1000 pollingClient) ∧
    (∀ key' windowMs',
      (((init none).obeyAll pollingClient).bucket key' windowMs').Pairwise (· ≤ ·)) ∧
    ∀ before limit' now rest,
      pollingClient = before ++ .consume "client:ana" limit' 1000 now :: rest →
      (((init none).obeyAll before).consume "client:ana" limit' 1000 now).2.allowed = false →
      (inInterval ((now : ℤ) - 1000) 1000 ((init none).admitted "client:ana" 1000 before)).length = 1 :=
  @sliding_window_bound "client:ana" 1000 pollingClient none (fun _ _ => 1)
    { chronological := by unfold Chronological; decide
      limited := by simp [pollingClient, Command.Uses]
      kept := by simp [pollingClient, Command.clears]
      fits := by decide }

end Runs

end Conduit.RateLimit.SlidingWindowLimiter
