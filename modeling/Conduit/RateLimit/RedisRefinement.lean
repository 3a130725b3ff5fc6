import Conduit.RateLimit.RedisLimiter
import Conduit.RateLimit.WindowLog

namespace Conduit.RateLimit

namespace WindowLog

variable (A : WindowLog)

def strictWindow (key : String) (windowMs now : ℕ) : List Admission :=
  A.log.filter fun a => a.key = key ∧ a.windowMs = windowMs ∧ now < a.timeMs + windowMs

def OthersElapsed (key : String) (windowMs now : ℕ) : Prop :=
  ∀ a ∈ A.log, a.key = key → a.windowMs ≠ windowMs → a.timeMs + a.windowMs < now

theorem strictWindow_eq_inWindow {A : WindowLog} {c : Call} (h : A.Undisturbed c) :
    A.strictWindow c.key c.windowMs c.nowMs = A.inWindow c.key c.windowMs c.nowMs := by
  refine List.filter_congr fun a ha => ?_
  rw [decide_eq_decide]
  refine and_congr_right fun hkey => and_congr_right fun hwindow => ?_
  have hoff := h.offBoundary a ha hkey hwindow
  omega

theorem strictWindow_later (key : String) (windowMs : ℕ) {now now' : ℕ} (h : now ≤ now') :
    (A.strictWindow key windowMs now).filter (fun a => now' < a.timeMs + windowMs) =
      A.strictWindow key windowMs now' := by
  rw [strictWindow, List.filter_filter]
  refine List.filter_congr fun a _ => ?_
  rw [← Bool.decide_and, decide_eq_decide]
  constructor
  · rintro ⟨hnow', hkey, hwindow, -⟩
    exact ⟨hkey, hwindow, hnow'⟩
  · rintro ⟨hkey, hwindow, hnow'⟩
    exact ⟨hnow', hkey, hwindow, by omega⟩

theorem strictWindow_nil_of_clock {key : String} {windowMs now : ℕ}
    (h : A.clock + windowMs ≤ now) : A.strictWindow key windowMs now = [] := by
  rw [strictWindow, List.filter_eq_nil_iff]
  intro a ha hmatch
  have hbound := A.bounded a ha
  simp only [decide_eq_true_eq] at hmatch
  omega

theorem strictWindow_nil_of_other {key : String} {windowMs windowMs' now : ℕ}
    (h : A.OthersElapsed key windowMs now) (hne : windowMs' ≠ windowMs) {now' : ℕ}
    (hnow : now ≤ now') : A.strictWindow key windowMs' now' = [] := by
  rw [strictWindow, List.filter_eq_nil_iff]
  intro a ha hmatch
  simp only [decide_eq_true_eq] at hmatch
  obtain ⟨hkey, rfl, hlate⟩ := hmatch
  have := h a ha hkey hne
  omega

theorem record_log_of_kept {A : WindowLog} {c : Call}
    (h : ¬(A.allowed c = true ∧ c.operation = .consume)) : (A.record c).log = A.log := by
  simp only [record]
  split
  next hallowed =>
    cases hop : c.operation with
    | check => simp [admission, hop]
    | consume => exact absurd ⟨hallowed, hop⟩ h
  next => rfl

theorem record_log_of_admitted {A : WindowLog} {c : Call} (hallowed : A.allowed c = true)
    (hop : c.operation = .consume) :
    (A.record c).log = A.log ++ [⟨c.key, c.windowMs, c.nowMs, c.draw⟩] := by
  simp [record, admission, hallowed, hop]

theorem mem_record_of_mem {A : WindowLog} {c : Call} {a : Admission} (h : a ∈ A.log) :
    a ∈ (A.record c).log := by
  unfold record
  split
  · exact List.mem_append_left _ h
  · exact h

theorem strictWindow_record_of_ne (c : Call) {key : String} {windowMs : ℕ}
    (h : c.key = key → c.windowMs ≠ windowMs) (now : ℕ) :
    (A.record c).strictWindow key windowMs now = A.strictWindow key windowMs now := by
  rcases em (A.allowed c = true ∧ c.operation = .consume) with hadm | hkept
  · rw [strictWindow, record_log_of_admitted hadm.1 hadm.2, List.filter_append, strictWindow,
      List.append_right_eq_self, List.filter_eq_nil_iff]
    intro a ha hmatch
    obtain rfl := List.mem_singleton.mp ha
    simp only [decide_eq_true_eq] at hmatch
    exact h hmatch.1 hmatch.2.1
  · rw [strictWindow, record_log_of_kept hkept, strictWindow]

end WindowLog

namespace RedisLimiter

def entry (a : Admission) : String × ℤ := (member a.timeMs a.draw, a.timeMs)

def recent (windowMs now : ℕ) (entries : List (String × ℤ)) : List (String × ℤ) :=
  entries.filter fun e => (now : ℤ) < e.2 + windowMs

theorem recent_recent {now now' : ℕ} (h : now ≤ now') (windowMs : ℕ)
    (entries : List (String × ℤ)) :
    recent windowMs now' (recent windowMs now entries) = recent windowMs now' entries := by
  rw [recent, recent, List.filter_filter]
  refine List.filter_congr fun e _ => ?_
  rw [← Bool.decide_and, decide_eq_decide]
  omega

theorem recent_map_entry (windowMs now : ℕ) (log : List Admission) :
    recent windowMs now (log.map entry) =
      (log.filter fun a => now < a.timeMs + windowMs).map entry := by
  rw [recent, List.filter_map]
  congr 1
  refine List.filter_congr fun a _ => ?_
  have hiff : (now : ℤ) < (a.timeMs : ℤ) + windowMs ↔ now < a.timeMs + windowMs := by omega
  exact decide_eq_decide.mpr hiff

theorem zremrangebyscore_entries {s : SortedSet String ℤ} (h : ∀ e ∈ s.entries, 0 ≤ e.2)
    (windowMs now : ℕ) :
    (s.zremrangebyscore 0 (now - windowMs)).entries = recent windowMs now s.entries := by
  refine List.filter_congr fun e he => ?_
  have := h e he
  rw [decide_eq_decide]
  omega

variable (R : RedisLimiter)

def entriesAt (key : String) (now : ℕ) : List (String × ℤ) :=
  (R.keyspace.read now (R.prefixed key)).entries

theorem prefixed_inj {key key' : String} : R.prefixed key = R.prefixed key' ↔ key = key' := by
  simp [prefixed, ← String.toList_inj]

structure Mirrors (A : WindowLog) : Prop where
  nonneg : ∀ key now, A.clock ≤ now → ∀ e ∈ R.entriesAt key now, 0 ≤ e.2
  live : ∀ key windowMs now, A.clock ≤ now → A.OthersElapsed key windowMs now →
    recent windowMs now (R.entriesAt key now) = (A.strictWindow key windowMs now).map entry

theorem mirrors_init (keyPrefix : Option String) : (init keyPrefix).Mirrors WindowLog.init where
  nonneg := by
    intro key now _ e he
    simp [entriesAt, init, Keyspace.read_of_none] at he
  live := by
    intro key windowMs now _ _
    simp [entriesAt, init, Keyspace.read_of_none, recent, WindowLog.strictWindow, WindowLog.init]

def trimmed (c : Call) : Keyspace String String ℤ :=
  trim R.keyspace (R.prefixed c.key) c.windowMs c.nowMs

variable {R}

theorem read_trimmed {A : WindowLog} (h : R.Mirrors A) {c : Call} (horder : A.InOrder c)
    {now : ℕ} (hnow : c.nowMs ≤ now) :
    ((R.trimmed c).read now (R.prefixed c.key)).entries =
      recent c.windowMs c.nowMs (R.entriesAt c.key now) := by
  rw [trimmed, trim, Keyspace.read_zremrangebyscore _ _ _ _ hnow]
  exact zremrangebyscore_entries (h.nonneg c.key now (le_trans horder hnow)) _ _

theorem zcard_trimmed {A : WindowLog} (h : R.Mirrors A) {c : Call} (horder : A.InOrder c)
    (hcond : A.Undisturbed c) :
    (R.trimmed c).zcard c.nowMs (R.prefixed c.key) =
      (A.inWindow c.key c.windowMs c.nowMs).length := by
  rw [Keyspace.zcard, SortedSet.zcard, read_trimmed h horder le_rfl,
    h.live _ _ _ horder hcond.otherWindowsElapsed, List.length_map,
    WindowLog.strictWindow_eq_inWindow hcond]

theorem count_lt_iff {A : WindowLog} (h : R.Mirrors A) {c : Call} (horder : A.InOrder c)
    (hcond : A.Undisturbed c) :
    ((R.trimmed c).zcard c.nowMs (R.prefixed c.key) : ℤ) < c.limit ↔ A.allowed c = true := by
  rw [zcard_trimmed h horder hcond]
  simp [WindowLog.allowed]

theorem call_allowed {A : WindowLog} (h : R.Mirrors A) {c : Call} (horder : A.InOrder c)
    (hcond : A.Undisturbed c) : (R.call c).2.allowed = A.allowed c := by
  have hcount := count_lt_iff h horder hcond
  rw [Bool.eq_iff_iff, ← hcount]
  unfold call trimmed
  cases c.operation with
  | check =>
      simp only [checkOnlyLua]
      split <;> simp_all [executeLua, refusal]
  | consume =>
      simp only [slidingWindowLua]
      split <;> simp_all [executeLua, refusal]

theorem call_keyspace {A : WindowLog} (h : R.Mirrors A) {c : Call} (horder : A.InOrder c)
    (hcond : A.Undisturbed c) :
    (R.call c).1.keyspace =
      if A.allowed c = true ∧ c.operation = .consume then
        ((R.trimmed c).zadd c.nowMs (R.prefixed c.key) c.nowMs (member c.nowMs c.draw)).pexpire
          c.nowMs (R.prefixed c.key) c.windowMs
      else R.trimmed c := by
  have hcount := count_lt_iff h horder hcond
  simp only [← hcount]
  unfold call trimmed
  cases c.operation with
  | check =>
      simp only [checkOnlyLua]
      split <;> simp
  | consume =>
      simp only [slidingWindowLua, and_true]
      split <;> simp_all

theorem call_entriesAt_of_ne {A : WindowLog} (h : R.Mirrors A) {c : Call} (horder : A.InOrder c)
    (hcond : A.Undisturbed c) {key : String} (hne : key ≠ c.key) (now : ℕ) :
    (R.call c).1.entriesAt key now = R.entriesAt key now := by
  have hkey : R.prefixed key ≠ R.prefixed c.key := fun heq => hne ((R.prefixed_inj).mp heq)
  have htrim : R.trimmed c (R.prefixed key) = R.keyspace (R.prefixed key) :=
    Keyspace.zremrangebyscore_of_ne _ _ _ _ hkey
  have hsame : (R.call c).1.keyspace (R.prefixed key) = R.keyspace (R.prefixed key) := by
    rw [call_keyspace h horder hcond]
    split
    · rw [Keyspace.pexpire_of_ne _ _ _ hkey, Keyspace.zadd_of_ne _ _ _ _ hkey, htrim]
    · exact htrim
  exact congrArg SortedSet.entries (Keyspace.read_congr hsame now)

theorem call_entriesAt_of_kept {A : WindowLog} (h : R.Mirrors A) {c : Call} (horder : A.InOrder c)
    (hcond : A.Undisturbed c) (hkept : ¬(A.allowed c = true ∧ c.operation = .consume)) {now : ℕ}
    (hnow : c.nowMs ≤ now) :
    (R.call c).1.entriesAt c.key now = recent c.windowMs c.nowMs (R.entriesAt c.key now) := by
  have hkeyspace := call_keyspace h horder hcond
  rw [if_neg hkept] at hkeyspace
  rw [entriesAt, hkeyspace]
  exact read_trimmed h horder hnow

theorem member_fresh {A : WindowLog} (h : R.Mirrors A) {c : Call} (horder : A.InOrder c)
    (hcond : A.Undisturbed c) (hop : c.operation = .consume) :
    ∀ e ∈ recent c.windowMs c.nowMs (R.entriesAt c.key c.nowMs), e.1 ≠ member c.nowMs c.draw := by
  intro e he hmember
  rw [h.live _ _ _ horder hcond.otherWindowsElapsed] at he
  obtain ⟨a, ha, rfl⟩ := List.mem_map.mp he
  simp only [WindowLog.strictWindow, List.mem_filter, decide_eq_true_eq] at ha
  obtain ⟨htime, hdraw⟩ := member_inj.1 hmember
  exact hcond.freshMember hop a ha.1 ha.2.1 ha.2.2.1 htime hdraw

theorem call_entriesAt_of_admitted {A : WindowLog} (h : R.Mirrors A) {c : Call}
    (horder : A.InOrder c) (hcond : A.Undisturbed c) (hallowed : A.allowed c = true)
    (hop : c.operation = .consume) (now : ℕ) :
    (R.call c).1.entriesAt c.key now =
      if c.windowMs = 0 ∨ c.nowMs + c.windowMs < now then []
      else (A.strictWindow c.key c.windowMs c.nowMs).map entry ++
        [entry ⟨c.key, c.windowMs, c.nowMs, c.draw⟩] := by
  have hkeyspace := call_keyspace h horder hcond
  rw [if_pos ⟨hallowed, hop⟩] at hkeyspace
  have hread := read_trimmed h horder le_rfl
  have hfresh : ∀ e ∈ ((R.trimmed c).read c.nowMs (R.prefixed c.key)).entries,
      e.1 ≠ member c.nowMs c.draw := by
    rw [hread]
    exact member_fresh h horder hcond hop
  rw [entriesAt, hkeyspace]
  change (Keyspace.read _ now (R.prefixed c.key)).entries = _
  rw [Keyspace.read_pexpire_zadd]
  split
  · rfl
  · rw [SortedSet.zadd_entries_of_fresh _ hfresh, hread,
      h.live _ _ _ horder hcond.otherWindowsElapsed]
    rfl

theorem nonneg_call {A : WindowLog} (h : R.Mirrors A) {c : Call} (horder : A.InOrder c)
    (hcond : A.Undisturbed c) (key : String) {now : ℕ} (hnow : c.nowMs ≤ now) :
    ∀ e ∈ (R.call c).1.entriesAt key now, 0 ≤ e.2 := by
  have hold := h.nonneg key now (le_trans horder hnow)
  intro e he
  rcases ne_or_eq key c.key with hne | rfl
  · rw [call_entriesAt_of_ne h horder hcond hne] at he
    exact hold e he
  rcases em (A.allowed c = true ∧ c.operation = .consume) with ⟨hallowed, hop⟩ | hkept
  · rw [call_entriesAt_of_admitted h horder hcond hallowed hop] at he
    split at he
    · simp at he
    · rcases List.mem_append.mp he with hmem | hnew
      · obtain ⟨a, -, rfl⟩ := List.mem_map.mp hmem
        exact Int.natCast_nonneg _
      · obtain rfl := List.mem_singleton.mp hnew
        exact Int.natCast_nonneg _
  · rw [call_entriesAt_of_kept h horder hcond hkept hnow] at he
    exact hold e (List.mem_of_mem_filter he)

theorem live_call_of_kept {A : WindowLog} (h : R.Mirrors A) {c : Call} (horder : A.InOrder c)
    (hcond : A.Undisturbed c) (hkept : ¬(A.allowed c = true ∧ c.operation = .consume))
    {windowMs now : ℕ} (hnow : c.nowMs ≤ now) (hothers : A.OthersElapsed c.key windowMs now) :
    recent windowMs now ((R.call c).1.entriesAt c.key now) =
      ((A.record c).strictWindow c.key windowMs now).map entry := by
  have hlive := h.live c.key windowMs now (le_trans horder hnow) hothers
  rw [call_entriesAt_of_kept h horder hcond hkept hnow, WindowLog.strictWindow,
    WindowLog.record_log_of_kept hkept, ← WindowLog.strictWindow, ← hlive]
  rcases eq_or_ne windowMs c.windowMs with rfl | hne
  · exact recent_recent hnow _ _
  · have hnil : recent windowMs now (R.entriesAt c.key now) = [] := by
      rw [hlive, WindowLog.strictWindow_nil_of_other A hcond.otherWindowsElapsed hne hnow]
      rfl
    rw [recent, recent, List.filter_comm, ← recent, ← recent, hnil]
    rfl

theorem live_call_of_admitted {A : WindowLog} (h : R.Mirrors A) {c : Call}
    (horder : A.InOrder c) (hcond : A.Undisturbed c) (hallowed : A.allowed c = true)
    (hop : c.operation = .consume) {windowMs now : ℕ} (hnow : c.nowMs ≤ now)
    (hothers : (A.record c).OthersElapsed c.key windowMs now) :
    recent windowMs now ((R.call c).1.entriesAt c.key now) =
      ((A.record c).strictWindow c.key windowMs now).map entry := by
  rw [call_entriesAt_of_admitted h horder hcond hallowed hop]
  have hlog := WindowLog.record_log_of_admitted hallowed hop
  rcases ne_or_eq windowMs c.windowMs with hne | rfl
  · have hexpired : c.nowMs + c.windowMs < now :=
      hothers ⟨c.key, c.windowMs, c.nowMs, c.draw⟩ (by simp [hlog]) rfl hne.symm
    rw [if_pos (Or.inr hexpired), A.strictWindow_record_of_ne c (fun _ => hne.symm),
      A.strictWindow_nil_of_other hcond.otherWindowsElapsed hne hnow]
    rfl
  split
  next hgone =>
    rw [(A.record c).strictWindow_nil_of_clock (by rw [WindowLog.record_clock horder]; omega)]
    rfl
  next =>
    have hnewest : [entry ⟨c.key, c.windowMs, c.nowMs, c.draw⟩] =
        [⟨c.key, c.windowMs, c.nowMs, c.draw⟩].map entry := rfl
    rw [hnewest, ← List.map_append, recent_map_entry, List.filter_append,
      A.strictWindow_later _ _ hnow, WindowLog.strictWindow, WindowLog.strictWindow, hlog,
      List.filter_append]
    simp [List.filter_cons]

theorem mirrors_call {A : WindowLog} (h : R.Mirrors A) {c : Call} (horder : A.InOrder c)
    (hcond : A.Undisturbed c) : (R.call c).1.Mirrors (A.record c) where
  nonneg := by
    intro key now hnow
    rw [WindowLog.record_clock horder] at hnow
    exact nonneg_call h horder hcond key hnow
  live := by
    intro key windowMs now hnow hothers
    rw [WindowLog.record_clock horder] at hnow
    have hothersA : A.OthersElapsed key windowMs now := fun a ha =>
      hothers a (WindowLog.mem_record_of_mem ha)
    rcases ne_or_eq key c.key with hne | rfl
    · rw [call_entriesAt_of_ne h horder hcond hne,
        A.strictWindow_record_of_ne c (fun heq => absurd heq.symm hne)]
      exact h.live key windowMs now (le_trans horder hnow) hothersA
    rcases em (A.allowed c = true ∧ c.operation = .consume) with ⟨hallowed, hop⟩ | hkept
    · exact live_call_of_admitted h horder hcond hallowed hop hnow hothers
    · exact live_call_of_kept h horder hcond hkept hnow hothersA

end RedisLimiter

end Conduit.RateLimit
