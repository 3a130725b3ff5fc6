import Mathlib.Data.List.Nodup
import Mathlib.Data.List.MinMax
import Mathlib.Order.Defs.LinearOrder

structure SortedSet (M R : Type*) where
  entries : List (M × R)
  nodup : (entries.map Prod.fst).Nodup

namespace SortedSet

variable {M R : Type*}

def empty : SortedSet M R where
  entries := []
  nodup := List.nodup_nil

def zcard (s : SortedSet M R) : ℕ := s.entries.length

theorem eq_empty_of_zcard_eq_zero {s : SortedSet M R} (h : s.zcard = 0) : s = empty := by
  obtain ⟨entries, nodup⟩ := s
  obtain rfl : entries = [] := List.length_eq_zero_iff.mp h
  rfl

@[simp] theorem entries_empty : (empty : SortedSet M R).entries = [] := rfl

variable [DecidableEq M]

def zadd (s : SortedSet M R) (member : M) (score : R) : SortedSet M R where
  entries := s.entries.filter (fun e => e.1 ≠ member) ++ [(member, score)]
  nodup := by
    rw [List.map_append, List.nodup_append]
    refine ⟨s.nodup.sublist (List.filter_sublist.map Prod.fst), by simp, ?_⟩
    rintro m hm _ hmember rfl
    obtain ⟨e, he, rfl⟩ := List.mem_map.mp hm
    rw [List.mem_filter] at he
    simp at he hmember
    exact he.2 hmember

theorem zadd_entries_of_fresh {s : SortedSet M R} {member : M} (score : R)
    (h : ∀ e ∈ s.entries, e.1 ≠ member) :
    (s.zadd member score).entries = s.entries ++ [(member, score)] := by
  simp only [zadd, List.append_cancel_right_eq, List.filter_eq_self]
  intro e he
  simpa using h e he

end SortedSet

namespace SortedSet

variable {M R : Type*} [LinearOrder R]

def zremrangebyscore (s : SortedSet M R) (lo hi : R) : SortedSet M R where
  entries := s.entries.filter fun e => ¬(lo ≤ e.2 ∧ e.2 ≤ hi)
  nodup := s.nodup.sublist (List.filter_sublist.map Prod.fst)

def lowestScore? (s : SortedSet M R) : Option R := (s.entries.map Prod.snd).min?

end SortedSet

structure ExpiringSet (M R : Type*) where
  set : SortedSet M R
  expireAt : Option ℕ

namespace ExpiringSet

variable {M R : Type*}

def expired (e : ExpiringSet M R) (now : ℕ) : Bool :=
  match e.expireAt with
  | none => false
  | some t => t < now

theorem expired_mono {e : ExpiringSet M R} {now now' : ℕ} (h : now ≤ now')
    (hexp : e.expired now = true) : e.expired now' = true := by
  obtain ⟨set, expireAt⟩ := e
  cases expireAt with
  | none => simp [expired] at hexp
  | some t =>
      simp only [expired, decide_eq_true_eq] at hexp ⊢
      omega

end ExpiringSet

abbrev Keyspace (K M R : Type*) := K → Option (ExpiringSet M R)

namespace Keyspace

variable {K M R : Type*}

def live (db : Keyspace K M R) (now : ℕ) (key : K) : Option (ExpiringSet M R) :=
  (db key).filter fun e => !e.expired now

def read (db : Keyspace K M R) (now : ℕ) (key : K) : SortedSet M R :=
  match db.live now key with
  | none => .empty
  | some e => e.set

def zcard (db : Keyspace K M R) (now : ℕ) (key : K) : ℕ := (db.read now key).zcard

theorem read_of_live_none {db : Keyspace K M R} {now : ℕ} {key : K}
    (h : db.live now key = none) : db.read now key = .empty := by
  simp [read, h]

theorem read_of_live_some {db : Keyspace K M R} {now : ℕ} {key : K} {e : ExpiringSet M R}
    (h : db.live now key = some e) : db.read now key = e.set := by
  simp [read, h]

theorem read_of_none {db : Keyspace K M R} {now : ℕ} {key : K} (h : db key = none) :
    db.read now key = .empty := by
  simp [read, live, h]

theorem read_of_some {db : Keyspace K M R} {now : ℕ} {key : K} {e : ExpiringSet M R}
    (h : db key = some e) : db.read now key = if e.expired now then .empty else e.set := by
  by_cases hexp : e.expired now = true <;> simp [read, live, Option.filter, h, hexp]

theorem read_congr {db db' : Keyspace K M R} {key : K} (h : db key = db' key) (now : ℕ) :
    db.read now key = db'.read now key := by
  simp [read, live, h]

theorem live_eq_some_iff {db : Keyspace K M R} {now : ℕ} {key : K} {e : ExpiringSet M R} :
    db.live now key = some e ↔ db key = some e ∧ e.expired now = false := by
  simp [live, Option.filter_eq_some_iff]

theorem live_of_live_later {db : Keyspace K M R} {now now' : ℕ} {key : K} {e : ExpiringSet M R}
    (h : now ≤ now') (hlive : db.live now' key = some e) : db.live now key = some e := by
  rw [live_eq_some_iff] at hlive ⊢
  refine ⟨hlive.1, ?_⟩
  by_contra hexp
  have hlater := ExpiringSet.expired_mono h (by simpa using hexp)
  simp [hlive.2] at hlater

variable [DecidableEq K]

def pexpire (db : Keyspace K M R) (now : ℕ) (key : K) (ms : ℕ) : Keyspace K M R :=
  match db.live now key with
  | none => db
  | some e => Function.update db key (if ms = 0 then none else some { e with expireAt := now + ms })

def zadd [DecidableEq M] (db : Keyspace K M R) (now : ℕ) (key : K) (score : R) (member : M) :
    Keyspace K M R :=
  match db.live now key with
  | none => Function.update db key (some { set := SortedSet.empty.zadd member score, expireAt := none })
  | some e => Function.update db key (some { e with set := e.set.zadd member score })

def zremrangebyscore [LinearOrder R] (db : Keyspace K M R) (now : ℕ) (key : K) (lo hi : R) :
    Keyspace K M R :=
  match db.live now key with
  | none => db
  | some e =>
      let set := e.set.zremrangebyscore lo hi
      Function.update db key (if set.zcard = 0 then none else some { e with set := set })

theorem read_pexpire_zadd [DecidableEq M] (db : Keyspace K M R) (now now' : ℕ) (key : K)
    (score : R) (member : M) (ms : ℕ) :
    ((db.zadd now key score member).pexpire now key ms).read now' key =
      if ms = 0 ∨ now + ms < now' then .empty else (db.read now key).zadd member score := by
  have hlive : ∃ e, (db.zadd now key score member).live now key = some e ∧
      e.set = (db.read now key).zadd member score := by
    unfold zadd
    cases hcase : db.live now key with
    | none =>
        refine ⟨_, live_eq_some_iff.2 ⟨Function.update_self .., rfl⟩, ?_⟩
        rw [read_of_live_none hcase]
    | some e =>
        refine ⟨_, live_eq_some_iff.2 ⟨Function.update_self .., ?_⟩, ?_⟩
        · exact (live_eq_some_iff.1 hcase).2
        · rw [read_of_live_some hcase]
  obtain ⟨e, he, hset⟩ := hlive
  unfold pexpire
  rw [he]
  by_cases hms : ms = 0
  · rw [read_of_none (by simp [hms]), if_pos (Or.inl hms)]
  · rw [read_of_some (by simp only [hms, if_false, Function.update_self]; rfl)]
    by_cases hnow : now + ms < now'
    · simp [hnow, ExpiringSet.expired]
    · simp [hms, hnow, ExpiringSet.expired, hset]

theorem zadd_of_ne [DecidableEq M] (db : Keyspace K M R) (now : ℕ) {key key' : K} (score : R)
    (member : M) (h : key' ≠ key) : (db.zadd now key score member) key' = db key' := by
  unfold zadd
  cases db.live now key <;> simp [h]

theorem pexpire_of_ne (db : Keyspace K M R) (now : ℕ) {key key' : K} (ms : ℕ) (h : key' ≠ key) :
    (db.pexpire now key ms) key' = db key' := by
  unfold pexpire
  cases db.live now key <;> simp [h]

theorem read_zremrangebyscore [LinearOrder R] (db : Keyspace K M R) {now now' : ℕ} (key : K)
    (lo hi : R) (h : now ≤ now') :
    (db.zremrangebyscore now key lo hi).read now' key =
      (db.read now' key).zremrangebyscore lo hi := by
  unfold zremrangebyscore
  cases hcase : db.live now key with
  | none =>
      have hlater : db.live now' key = none := by
        by_contra hsome
        obtain ⟨e, he⟩ := Option.ne_none_iff_exists'.mp hsome
        simp [live_of_live_later h he] at hcase
      rw [read_of_live_none hlater]
      rfl
  | some e =>
      rw [read_of_some (live_eq_some_iff.1 hcase).1]
      by_cases hzero : (e.set.zremrangebyscore lo hi).zcard = 0
      · rw [read_of_none (by simp [hzero])]
        split
        · rfl
        · exact (SortedSet.eq_empty_of_zcard_eq_zero hzero).symm
      · rw [read_of_some (by simp only [hzero, if_false, Function.update_self]; rfl)]
        change (if e.expired now' = true then _ else _) = _
        split <;> rfl

theorem zremrangebyscore_of_ne [LinearOrder R] (db : Keyspace K M R) (now : ℕ) {key key' : K}
    (lo hi : R) (h : key' ≠ key) : (db.zremrangebyscore now key lo hi) key' = db key' := by
  unfold zremrangebyscore
  cases db.live now key <;> simp [h]

end Keyspace
