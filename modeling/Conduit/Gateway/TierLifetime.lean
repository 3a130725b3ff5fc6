import Conduit.Cache.RedisCache
import Conduit.Gateway.Mediation
import Conduit.Gateway.System
import Mathlib.Tactic.Linarith

namespace Conduit.Cache.RedisCacheStore

-- Redis has dropped a key only when the time of its expiry is past
def get (S : RedisCacheStore) (redis : OrderedMap String StoredValue) (key : String) (now : ℕ) :
    Option CacheEntry :=
  if S.connected then
    (((redis.get? (S.prefixed key)).filter fun stored => now ≤ stored.expiresAt).map
      StoredValue.entry).filter fun entry => !entry.expired now
  else none

def executed (redis : OrderedMap String StoredValue) (now : ℕ) :
    Option RedisCommand → OrderedMap String StoredValue
  | some (.set key entry seconds) => redis.set key ⟨entry, now + seconds * 1000⟩
  | _ => redis

variable {S : RedisCacheStore} {key : String} {entry : CacheEntry} {ttlSeconds : ℚ} {now : ℕ}

theorem le_expirySeconds (ttlSeconds : ℚ) : ttlSeconds ≤ expirySeconds ttlSeconds := by
  unfold expirySeconds
  split
  next h =>
    have hceil : (ttlSeconds.ceil : ℚ) ≤ 1 := by exact_mod_cast h
    have hle : ttlSeconds ≤ ttlSeconds.ceil := Rat.le_ceil
    simpa using hle.trans hceil
  next h =>
    have hnonneg : 0 ≤ ttlSeconds.ceil := by omega
    have hle : ttlSeconds ≤ ttlSeconds.ceil := Rat.le_ceil
    have hcast : ((ttlSeconds.ceil.toNat : ℤ) : ℚ) = ttlSeconds.ceil := by
      rw [Int.toNat_of_nonneg hnonneg]
    rw [← hcast] at hle
    exact_mod_cast hle

theorem set_cases (S : RedisCacheStore) (key : String) (entry : CacheEntry) (ttlSeconds : ℚ)
    (now : ℕ) : S.set key entry ttlSeconds now = (S, none) ∨
      S.set key entry ttlSeconds now = (S.markWrite key now,
        some (.set (S.prefixed key) entry.reread (expirySeconds ttlSeconds))) := by
  unfold RedisCacheStore.set
  split
  · exact .inl rfl
  · split
    · exact .inl rfl
    · split
      · exact .inl rfl
      · exact .inr rfl

theorem keyPrefix_set : (S.set key entry ttlSeconds now).1.keyPrefix = S.keyPrefix := by
  rcases set_cases S key entry ttlSeconds now with h | h <;> rw [h]
  exact RedisSession.keyPrefix_markWrite key now

theorem connected_set : (S.set key entry ttlSeconds now).1.connected = S.connected := by
  rcases set_cases S key entry ttlSeconds now with h | h <;> rw [h]
  simp only [markWrite, apply_ite RedisCacheStore.connected, ite_self]

theorem get_eq_some_iff {redis : OrderedMap String StoredValue} {found : CacheEntry} :
    S.get redis key now = some found ↔ S.connected = true ∧
      ∃ stored, redis.get? (S.prefixed key) = some stored ∧ now ≤ stored.expiresAt ∧
        stored.entry = found ∧ found.expired now = false := by
  unfold RedisCacheStore.get
  split
  next hconnected =>
    rw [Option.filter_eq_some_iff, Option.map_eq_some_iff, Bool.not_eq_true']
    constructor
    · rintro ⟨⟨stored, hstored, rfl⟩, hfresh⟩
      obtain ⟨hget, hlive⟩ := Option.filter_eq_some_iff.mp hstored
      exact ⟨hconnected, stored, hget, of_decide_eq_true hlive, rfl, hfresh⟩
    · rintro ⟨-, stored, hget, hlive, rfl, hfresh⟩
      exact ⟨⟨stored, Option.filter_eq_some_iff.mpr ⟨hget, decide_eq_true hlive⟩, rfl⟩, hfresh⟩
  next hconnected => exact iff_of_false (by simp) fun h => hconnected h.1

end Conduit.Cache.RedisCacheStore

namespace Conduit.Cache.CacheStore

theorem not_expired_of_get {S : CacheStore} {key : String} {now : ℕ} {found : CacheEntry}
    (h : (S.get key now).2 = some found) : found.expired now = false := by
  unfold CacheStore.get at h
  split at h
  · cases h
  next entry hentry =>
    split at h
    · cases h
    next hfresh =>
      obtain rfl := Option.some.inj h
      exact Bool.eq_false_iff.mpr hfresh

end Conduit.Cache.CacheStore

namespace Conduit.Gateway

open Cache Program

-- the instances of the gateway, each with an L1 and a connection of its own, over one Redis
structure Tiers (ι : Type) where
  now : ℕ
  l1 : ι → CacheStore
  l2 : ι → RedisCacheStore
  redis : OrderedMap String StoredValue

namespace Tiers

variable {ι : Type} [DecidableEq ι]

def setL1 (s : Tiers ι) (i : ι) (store : CacheStore) : Tiers ι :=
  { s with l1 := Function.update s.l1 i store }

def serve (P : RequestPipeline) (i : ι) (surroundings : (o : Op) → Ans o) (s : Tiers ι) :
    (o : Op) → Tiers ι × Ans o
  | .l1Get key =>
      (s.setL1 i ((s.l1 i).get (P.digest key) s.now).1, ((s.l1 i).get (P.digest key) s.now).2)
  | .l1Set key entry => (s.setL1 i ((s.l1 i).set (P.digest key) entry), ())
  | .l2Get key => (s, (s.l2 i).get s.redis (P.digest key) s.now)
  | .l2Set key entry ttlSeconds =>
      let written := (s.l2 i).set (P.digest key) entry ttlSeconds s.now
      ({ s with
         l2 := Function.update s.l2 i written.1
         redis := RedisCacheStore.executed s.redis s.now written.2 }, ())
  | o => (s, surroundings o)

variable (P : RequestPipeline) (surroundings : (o : Op) → Ans o)

def stores (i : ι) (key : CacheKeyOptions) (entry : CacheEntry) (s : Tiers ι) : Tiers ι :=
  (finish (serve P i surroundings) s (P.store key entry)).1

def looks (i : ι) (call : ToolCall) (key : CacheKeyOptions) (s : Tiers ι) :
    Tiers ι × Except Outcome Unit :=
  finish (serve P i surroundings) s (do RequestPipeline.lookup call key; P.lookupL2 call key)

-- what a call on the instance is answered from, if it is answered from a cache
def finds (i : ι) (key : CacheKeyOptions) (s : Tiers ι) : Option CacheEntry :=
  ((s.l1 i).get (P.digest key) s.now).2.or
    (if P.hasL2Cache then (s.l2 i).get s.redis (P.digest key) s.now else none)

-- time passes, calls look for keys, other keys are written and deleted, and an instance does
-- what it likes with its own L1
inductive Later (fixed : String) : Tiers ι → Tiers ι → Prop where
  | refl (s : Tiers ι) : Later fixed s s
  | passes {s₀ s : Tiers ι} (h : Later fixed s₀ s) (ms : ℕ) :
      Later fixed s₀ { s with now := s.now + ms }
  | looks {s₀ s : Tiers ι} (h : Later fixed s₀ s) (i : ι) (call : ToolCall)
      (key : CacheKeyOptions) : Later fixed s₀ (looks P surroundings i call key s).1
  | stores {s₀ s : Tiers ι} (h : Later fixed s₀ s) (i : ι) (key : CacheKeyOptions)
      (entry : CacheEntry) (hother : (s.l2 i).prefixed (P.digest key) ≠ fixed) :
      Later fixed s₀ (stores P surroundings i key entry s)
  | deletes {s₀ s : Tiers ι} (h : Later fixed s₀ s) (key : String) (hother : key ≠ fixed) :
      Later fixed s₀ { s with redis := s.redis.delete key }
  | rearranges {s₀ s : Tiers ι} (h : Later fixed s₀ s) (i : ι) (store : CacheStore) :
      Later fixed s₀ (s.setL1 i store)

section Operations

variable (i : ι) (key : CacheKeyOptions) (s : Tiers ι)

theorem looks_spec (call : ToolCall) :
    (looks P surroundings i call key s).2 =
      (match finds P i key s with
        | some found => .error (RequestPipeline.hit call found)
        | none => .ok ()) ∧
    (looks P surroundings i call key s).1.redis = s.redis ∧
    (looks P surroundings i call key s).1.l2 = s.l2 ∧
    (looks P surroundings i call key s).1.now = s.now := by
  unfold looks finds RequestPipeline.lookup RequestPipeline.lookupL2
  cases hl1 : ((s.l1 i).get (P.digest key) s.now).2 with
  | some found => simp [serve, setL1, hl1]
  | none =>
      cases P.hasL2Cache with
      | false => simp [serve, setL1, hl1]
      | true =>
          cases hl2 : (s.l2 i).get s.redis (P.digest key) s.now with
          | none => simp [serve, setL1, hl1, hl2]
          | some found => simp [serve, setL1, hl1, hl2]

theorem stores_spec (entry : CacheEntry) :
    (stores P surroundings i key entry s).now = s.now ∧
    (P.hasL2Cache = false → (stores P surroundings i key entry s).redis = s.redis ∧
      (stores P surroundings i key entry s).l2 = s.l2) ∧
    (P.hasL2Cache = true →
      (stores P surroundings i key entry s).redis = RedisCacheStore.executed s.redis s.now
        ((s.l2 i).set (P.digest key) entry (entry.ttl * P.l2TtlMultiplier) s.now).2 ∧
      (stores P surroundings i key entry s).l2 = Function.update s.l2 i
        ((s.l2 i).set (P.digest key) entry (entry.ttl * P.l2TtlMultiplier) s.now).1) := by
  unfold stores RequestPipeline.store
  cases P.hasL2Cache with
  | false => exact ⟨rfl, fun _ => ⟨rfl, rfl⟩, fun h => (by cases h)⟩
  | true => exact ⟨rfl, fun h => (by cases h), fun _ => ⟨rfl, rfl⟩⟩

end Operations

section Lifetime

variable (i : ι) (key : CacheKeyOptions) (entry : CacheEntry)

-- the pipeline of the instance stores an entry, and its write to Redis is sent
structure Written (s : Tiers ι) : Prop where
  enabled : P.hasL2Cache = true
  positive : 0 < entry.ttl
  multiplies : 1 ≤ P.l2TtlMultiplier
  created : entry.createdAt ≤ s.now
  sent : ((s.l2 i).set (P.digest key) entry (entry.ttl * P.l2TtlMultiplier) s.now).2.isSome = true

def Within (s : Tiers ι) : Prop :=
  (s.now : ℚ) - entry.createdAt ≤ entry.ttl * P.l2TtlMultiplier * 1000

structure LivesAsDocumented (s : Tiers ι) : Prop where
  answered : Within P entry s → ∀ j, (s.l2 j).connected = true →
    (s.l2 j).keyPrefix = (s.l2 i).keyPrefix →
      (s.l2 j).get s.redis (P.digest key) s.now = some entry.reread ∧
      ∀ call, ((s.l1 j).get (P.digest key) s.now).2 = none →
        (looks P surroundings j call key s).2 =
          .error (RequestPipeline.hit call entry.reread)
  silent : ∀ j call found, finds P j key s = some found →
    (looks P surroundings j call key s).2 = .error (RequestPipeline.hit call found) →
      found.createdAt = entry.createdAt → found.ttl = entry.ttl → Within P entry s

structure Holds (fixed : String) (stored : StoredValue) (s₀ s : Tiers ι) : Prop where
  held : s.redis.get? fixed = some stored
  later : s₀.now ≤ s.now
  keyPrefix : ∀ j, (s.l2 j).keyPrefix = (s₀.l2 j).keyPrefix
  connected : ∀ j, (s.l2 j).connected = (s₀.l2 j).connected

variable {P surroundings i key entry} {fixed : String} {stored : StoredValue} {s₀ s s' : Tiers ι}

theorem get?_executed {redis : OrderedMap String StoredValue} {now : ℕ}
    {command : Option RedisCommand} (h : ∀ k e seconds, command = some (.set k e seconds) → k ≠ fixed) :
    (RedisCacheStore.executed redis now command).get? fixed = redis.get? fixed := by
  unfold RedisCacheStore.executed
  split
  next k e seconds => exact OrderedMap.get?_set_of_ne _ _ (h k e seconds rfl)
  next => rfl

omit [DecidableEq ι] in
theorem Holds.refl (h : s₀.redis.get? fixed = some stored) : Holds fixed stored s₀ s₀ :=
  ⟨h, Nat.le_refl _, fun _ => rfl, fun _ => rfl⟩

theorem Holds.after_stores (h : Holds fixed stored s₀ s)
    (hother : (s.l2 i).prefixed (P.digest key) ≠ fixed) :
    Holds fixed stored s₀ (stores P surroundings i key entry s) := by
  obtain ⟨hnow, hoff, hon⟩ := stores_spec P surroundings i key s entry
  cases henabled : P.hasL2Cache with
  | false =>
      obtain ⟨hredis, hl2⟩ := hoff henabled
      exact ⟨hredis ▸ h.held, hnow ▸ h.later, hl2 ▸ h.keyPrefix, hl2 ▸ h.connected⟩
  | true =>
      obtain ⟨hredis, hl2⟩ := hon henabled
      refine ⟨?_, hnow ▸ h.later, fun j => ?_, fun j => ?_⟩
      · rw [hredis, get?_executed, h.held]
        intro k e seconds hcommand
        rcases RedisCacheStore.set_cases (s.l2 i) (P.digest key) entry
          (entry.ttl * P.l2TtlMultiplier) s.now with hset | hset
        · rw [hset] at hcommand
          cases hcommand
        · rw [hset] at hcommand
          obtain ⟨rfl, -, -⟩ := RedisCommand.set.inj (Option.some.inj hcommand)
          exact hother
      · rw [hl2, Function.update_apply]
        split
        next heq => rw [RedisCacheStore.keyPrefix_set, heq, h.keyPrefix]
        next => exact h.keyPrefix j
      · rw [hl2, Function.update_apply]
        split
        next heq => rw [RedisCacheStore.connected_set, heq, h.connected]
        next => exact h.connected j

theorem Holds.after_looks (h : Holds fixed stored s₀ s) (call : ToolCall) :
    Holds fixed stored s₀ (looks P surroundings i call key s).1 := by
  obtain ⟨-, hredis, hl2, hnow⟩ := looks_spec P surroundings i key s call
  exact ⟨hredis ▸ h.held, hnow ▸ h.later, hl2 ▸ h.keyPrefix, hl2 ▸ h.connected⟩

theorem Holds.of_later (h : s₀.redis.get? fixed = some stored)
    (hrun : Later P surroundings fixed s₀ s) : Holds fixed stored s₀ s := by
  induction hrun with
  | refl => exact .refl h
  | passes hrun ms ih =>
      exact ⟨ih.held, ih.later.trans (Nat.le_add_right _ ms), ih.keyPrefix,
        ih.connected⟩
  | looks hrun j call key ih => exact ih.after_looks call
  | stores hrun j key entry hother ih => exact ih.after_stores hother
  | deletes hrun key hother ih =>
      exact ⟨(OrderedMap.get?_delete_of_ne _ hother).trans ih.held, ih.later,
        ih.keyPrefix, ih.connected⟩
  | rearranges hrun j store ih =>
      exact ⟨ih.held, ih.later, ih.keyPrefix, ih.connected⟩

def storedValue (P : RequestPipeline) (entry : CacheEntry) (s : Tiers ι) : StoredValue where
  entry := entry.reread
  expiresAt :=
    s.now + RedisCacheStore.expirySeconds (entry.ttl * P.l2TtlMultiplier) * 1000

theorem Written.held (h : Written P i key entry s) :
    (stores P surroundings i key entry s).redis.get? ((s.l2 i).prefixed (P.digest key)) =
      some (storedValue P entry s) := by
  obtain ⟨hredis, -⟩ := (stores_spec P surroundings i key s entry).2.2 h.enabled
  rw [hredis]
  rcases RedisCacheStore.set_cases (s.l2 i) (P.digest key) entry
    (entry.ttl * P.l2TtlMultiplier) s.now with hset | hset
  · have hsent := h.sent
    rw [hset] at hsent
    cases hsent
  · rw [hset]
    exact OrderedMap.get?_set_self ..

omit [DecidableEq ι] in
theorem Written.connected (h : Written P i key entry s) : (s.l2 i).connected = true := by
  by_contra hnot
  have hsent := h.sent
  unfold RedisCacheStore.set at hsent
  rw [if_pos (by simpa using hnot)] at hsent
  cases hsent

omit [DecidableEq ι] in
theorem Written.documented_le (h : Written P i key entry s) :
    (entry.ttl : ℚ) ≤ entry.ttl * P.l2TtlMultiplier := by
  have hpositive : (0 : ℚ) < entry.ttl := by exact_mod_cast h.positive
  exact le_mul_of_one_le_right hpositive.le h.multiplies

omit [DecidableEq ι] in
theorem within_of_fresh {s₁ : Tiers ι} (h : Written P i key entry s)
    (hfresh : (s₁.now : ℤ) - entry.createdAt ≤ entry.ttl * 1000) : Within P entry s₁ := by
  have hcast : ((s₁.now : ℚ) - entry.createdAt) ≤ entry.ttl * 1000 := by exact_mod_cast hfresh
  have hle := h.documented_le
  unfold Within
  linarith

omit [DecidableEq ι] in
-- while the entry is fresh Redis still has it
theorem live_of_fresh {s₁ : Tiers ι} (h : Written P i key entry s)
    (hfresh : (s₁.now : ℤ) - entry.createdAt ≤ entry.ttl * 1000) :
    s₁.now ≤ (storedValue P entry s).expiresAt := by
  have hle := h.documented_le.trans (RedisCacheStore.le_expirySeconds _)
  have hseconds : entry.ttl ≤
      RedisCacheStore.expirySeconds (entry.ttl * P.l2TtlMultiplier) := by exact_mod_cast hle
  have hcreated := h.created
  simp only [storedValue]
  omega

omit [DecidableEq ι] in
theorem get_eq_some_iff_fresh {s₁ : Tiers ι} (h : Written P i key entry s)
    (hholds : Holds ((s.l2 i).prefixed (P.digest key)) (storedValue P entry s) s s₁) {j : ι}
    (hconnected : (s₁.l2 j).connected = true)
    (hshared : (s₁.l2 j).keyPrefix = (s₁.l2 i).keyPrefix) :
    (s₁.l2 j).get s₁.redis (P.digest key) s₁.now = some entry.reread ↔
      (s₁.now : ℤ) - entry.createdAt ≤ entry.ttl * 1000 := by
  have hkey : (s₁.l2 j).prefixed (P.digest key) = (s.l2 i).prefixed (P.digest key) := by
    rw [RedisCacheStore.prefixed, hshared, hholds.keyPrefix]
    rfl
  have hexpired : entry.reread.expired s₁.now = false ↔
      (s₁.now : ℤ) - entry.createdAt ≤ entry.ttl * 1000 := by
    rw [CacheEntry.expired, decide_eq_false_iff_not, Int.not_lt]
    rfl
  rw [RedisCacheStore.get_eq_some_iff, hkey, hexpired]
  constructor
  · intro hget
    obtain ⟨-, _, -, -, -, hfresh⟩ := hget
    exact hfresh
  · intro hfresh
    exact ⟨hconnected, _, hholds.held, live_of_fresh h hfresh, rfl, hfresh⟩

omit [DecidableEq ι] in
theorem not_expired_of_finds {found : CacheEntry} (h : finds P i key s = some found) :
    (s.now : ℤ) - found.createdAt ≤ found.ttl * 1000 := by
  have hfresh : found.expired s.now = false := by
    unfold finds at h
    rcases Option.or_eq_some_iff.mp h with hl1 | ⟨-, hl2⟩
    · exact CacheStore.not_expired_of_get hl1
    · split at hl2
      · obtain ⟨-, _, -, -, -, hfresh⟩ := RedisCacheStore.get_eq_some_iff.1 hl2
        exact hfresh
      · cases hl2
  rw [CacheEntry.expired, decide_eq_false_iff_not, Int.not_lt] at hfresh
  exact hfresh

theorem holds_of_later {s₁ : Tiers ι} (h : Written P i key entry s)
    (hrun : Later P surroundings ((s.l2 i).prefixed (P.digest key))
      (stores P surroundings i key entry s) s₁) :
    Holds ((s.l2 i).prefixed (P.digest key)) (storedValue P entry s) s s₁ := by
  obtain ⟨hnow, -, hon⟩ := stores_spec P surroundings i key s entry
  have hafter := Holds.of_later h.held hrun
  obtain ⟨-, hl2⟩ := hon h.enabled
  refine ⟨hafter.held, hnow ▸ hafter.later, fun j => ?_, fun j => ?_⟩
  · rw [hafter.keyPrefix, hl2, Function.update_apply]
    split
    next heq => rw [RedisCacheStore.keyPrefix_set, heq]
    next => rfl
  · rw [hafter.connected, hl2, Function.update_apply]
    split
    next heq => rw [RedisCacheStore.connected_set, heq]
    next => rfl

theorem l2_lifetime {s₁ : Tiers ι} (h : Written P i key entry s)
    (hrun : Later P surroundings ((s.l2 i).prefixed (P.digest key))
      (stores P surroundings i key entry s) s₁) :
    LivesAsDocumented P surroundings i key entry s₁ ↔
      (s₁.now : ℤ) - entry.createdAt ≤ entry.ttl * 1000 ∨
        entry.ttl * P.l2TtlMultiplier * 1000 < (s₁.now : ℚ) - entry.createdAt := by
  have hholds := holds_of_later h hrun
  constructor
  · intro hlives
    by_cases hwithin : Within P entry s₁
    · have hconnected : (s₁.l2 i).connected = true := by rw [hholds.connected, h.connected]
      have hanswered := (hlives.answered hwithin i hconnected rfl).1
      exact .inl ((get_eq_some_iff_fresh h hholds hconnected rfl).mp hanswered)
    · exact .inr (not_le.mp hwithin)
  · intro hcondition
    refine ⟨fun hwithin j hconnected hshared => ?_, fun j call found hfinds _ hcreated httl => ?_⟩
    · have hfresh := hcondition.resolve_right (not_lt.mpr hwithin)
      have hget := (get_eq_some_iff_fresh h hholds hconnected hshared).mpr hfresh
      refine ⟨hget, fun call hmiss => ?_⟩
      rw [(looks_spec P surroundings j key s₁ call).1, finds, hmiss, h.enabled, hget]
      rfl
    · have hfresh := not_expired_of_finds hfinds
      rw [hcreated, httl] at hfresh
      exact within_of_fresh h hfresh

end Lifetime

section Example

def tieredPipeline : RequestPipeline where
  host := plainHost
  config := { servers := [] }
  hasL2Cache := true

def contactsKey : CacheKeyOptions where
  serverId := "crm"
  toolName := "list_contacts"
  args := []

def contactsEntry : CacheEntry where
  result := .obj []
  createdAt := 0
  ttl := 60
  toolName := "list_contacts"
  serverId := "crm"
  origin := 0

def emptyTiers : Tiers Unit where
  now := 0
  l1 := fun _ => .init {}
  l2 := fun _ => ⟨"conduit:cache:", 524288, true, .empty⟩
  redis := .empty

-- ninety seconds after a result that lives for a minute, and for three in Redis, was stored
def ninetySecondsLater : Tiers Unit :=
  { stores tieredPipeline permissive () contactsKey contactsEntry emptyTiers with
    now :=
      (stores tieredPipeline permissive () contactsKey contactsEntry emptyTiers).now + 90000 }

theorem written_contacts : Written tieredPipeline () contactsKey contactsEntry emptyTiers where
  enabled := rfl
  positive := by decide
  multiplies := by decide +kernel
  created := by decide
  sent := by decide +kernel

theorem later_ninetySeconds : Later tieredPipeline permissive
    ((emptyTiers.l2 ()).prefixed (tieredPipeline.digest contactsKey))
    (stores tieredPipeline permissive () contactsKey contactsEntry emptyTiers)
    ninetySecondsLater :=
  .passes (.refl _) 90000

theorem l2_lifetime_contacts :
    LivesAsDocumented tieredPipeline permissive () contactsKey contactsEntry ninetySecondsLater ↔
      (ninetySecondsLater.now : ℤ) - contactsEntry.createdAt ≤ contactsEntry.ttl * 1000 ∨
        contactsEntry.ttl * tieredPipeline.l2TtlMultiplier * 1000 <
          (ninetySecondsLater.now : ℚ) - contactsEntry.createdAt :=
  l2_lifetime written_contacts later_ninetySeconds

theorem gone_before_documented :
    Within tieredPipeline contactsEntry ninetySecondsLater ∧
    (ninetySecondsLater.redis.get?
      ((emptyTiers.l2 ()).prefixed (tieredPipeline.digest contactsKey))).any
        (fun stored => ninetySecondsLater.now ≤ stored.expiresAt) = true ∧
    ¬ LivesAsDocumented tieredPipeline permissive () contactsKey contactsEntry
      ninetySecondsLater := by
  have hwithin : Within tieredPipeline contactsEntry ninetySecondsLater := by
    change (_ : ℚ) ≤ _
    decide +kernel
  refine ⟨hwithin, by decide +kernel, fun hlives => ?_⟩
  have hmissed : (ninetySecondsLater.l2 ()).get ninetySecondsLater.redis
      (tieredPipeline.digest contactsKey) ninetySecondsLater.now = none := by decide +kernel
  have hanswered := (hlives.answered hwithin () rfl rfl).1
  rw [hmissed] at hanswered
  cases hanswered

end Example

end Tiers

end Conduit.Gateway
