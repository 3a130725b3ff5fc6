import Conduit.RateLimit.Identities

namespace Conduit.RateLimit

open Delimited

variable {clientId other key : String} {windowMs : ℕ}

-- the keys of the scopes that one client has for itself
inductive OwnKey (clientId : String) : String → Prop
  | client : OwnKey clientId (clientKey clientId)
  | clientServerTool (serverId toolName : String) (h : toolName ≠ "") :
      OwnKey clientId (clientSpecificKey clientId serverId toolName)

theorem OwnKey.eq_client (h : OwnKey other key) : ∃ rest, key = "client:" ++ rest := by
  cases h with
  | client => exact ⟨_, rfl⟩
  | clientServerTool serverId toolName h => exact ⟨_, Level.clientSpecificKey_eq_joined ..⟩

section Memory

open SlidingWindowLimiter

def SparesInMemory (clientId other : String) : Prop :=
  ∀ commands key windowMs, OwnKey other key →
    (RateLimiter.resetClient SlidingWindowLimiter.reset ((init none).obeyAll commands)
      clientId).bucket key windowMs = ((init none).obeyAll commands).bucket key windowMs

theorem bucket_resetClient (L : SlidingWindowLimiter) (h : OwnKey other key) (windowMs : ℕ) :
    (RateLimiter.resetClient SlidingWindowLimiter.reset L clientId).bucket key windowMs =
      if (storageKey key windowMs).startsWith (clientKey clientId ++ ":") then []
      else L.bucket key windowMs := by
  obtain ⟨rest, rfl⟩ := h.eq_client
  have hglobal : (storageKey ("client:" ++ rest) windowMs).startsWith ("global" ++ ":") = false := by
    simp [storageKey]
  rw [RateLimiter.resetClient, bucket_reset, hglobal, bucket_reset]
  rfl

theorem sparesInMemory_iff_keys :
    SparesInMemory clientId other ↔ ∀ key windowMs, OwnKey other key →
      ¬ (storageKey key windowMs).startsWith (clientKey clientId ++ ":") := by
  constructor
  · intro h key windowMs hown hmatch
    have hkept := h [.consume key 1 windowMs 0] key windowMs hown
    rw [bucket_resetClient _ hown, if_pos hmatch] at hkept
    have hcharged : ((init none).obeyAll [.consume key 1 windowMs 0]).bucket key windowMs = [0] := by
      have hfree : ¬ (init none).full key 1 windowMs 0 := by
        simp [full, bucket, init, valid, OrderedMap.empty, OrderedMap.get?, OrderedMap.lookup]
      rw [obeyAll, List.foldl_cons, List.foldl_nil, obey, (consume_of_not_full hfree).1]
      exact bucket_of_get? _ (get?_afterCharge_self ..)
    rw [hcharged] at hkept
    cases hkept
  · intro h commands key windowMs hown
    rw [bucket_resetClient _ hown, if_neg (h key windowMs hown)]

theorem startsWith_storageKey_client :
    (storageKey (clientKey other) windowMs).startsWith (clientKey clientId ++ ":") ↔
      clientId.toList ++ [':'] <+: other.toList ++ ':' :: (toString windowMs).toList := by
  rw [String.startsWith_string_iff]
  simp [storageKey, clientKey]

theorem startsWith_storageKey_clientServerTool {serverId toolName : String} :
    (storageKey (clientSpecificKey other serverId toolName) windowMs).startsWith
        (clientKey clientId ++ ":") ↔
      clientId.toList ++ [':'] <+: other.toList ++ (mark ':' "server".toList ++
        (serverId.toList ++ (":tool:".toList ++ (toolName.toList ++
          ':' :: (toString windowMs).toList)))) := by
  rw [String.startsWith_string_iff]
  simp [storageKey, clientSpecificKey, clientKey, mark]

theorem ended_before_window (hne : clientId ≠ other)
    (h : clientId.toList ++ [':'] <+: other.toList ++ ':' :: (toString windowMs).toList) :
    clientId.toList ++ [':'] <+: other.toList := by
  rcases prefix_append_cases h with hinside | ⟨u, hu, hwindow⟩
  · exact hinside
  · rcases List.eq_nil_or_concat u with rfl | ⟨v, x, rfl⟩
    · rw [List.append_nil] at hu
      exact hu ▸ List.prefix_refl _
    · rw [List.concat_eq_append] at hu hwindow
      rw [← List.append_assoc] at hu
      obtain ⟨hclient, hx⟩ := List.append_inj' hu rfl
      obtain rfl : ':' = x := by simpa using hx
      cases v with
      | nil =>
          rw [List.append_nil] at hclient
          exact absurd (String.toList_injective hclient) hne
      | cons y v =>
          have hdigits := (List.cons_prefix_cons.mp hwindow).2
          have hcolon := Text.isDigit_of_mem_toString (hdigits.mem (by simp : ':' ∈ v ++ [':']))
          cases hcolon

theorem sparesInMemory_iff (hne : clientId ≠ other) :
    SparesInMemory clientId other ↔
      ¬ other.startsWith (clientId ++ ":") ∧ ¬ (clientId ++ ":").startsWith (other ++ ":server:") := by
  rw [sparesInMemory_iff_keys]
  constructor
  · intro h
    constructor
    · intro hclient
      refine h (clientKey other) 60000 .client (startsWith_storageKey_client.2 ?_)
      rw [String.startsWith_string_iff, String.toList_append] at hclient
      exact hclient.trans (List.prefix_append ..)
    · intro hserver
      rw [String.startsWith_string_iff] at hserver
      obtain ⟨rest, hrest⟩ := hserver
      refine h (clientSpecificKey other (String.ofList rest) "t") 60000
        (.clientServerTool _ _ (by decide)) (startsWith_storageKey_clientServerTool.2 ?_)
      have hclient : clientId.toList ++ [':'] =
          other.toList ++ (mark ':' "server".toList ++ rest) := by
        simpa [mark] using hrest.symm
      have hserverId : (String.ofList rest).toList = rest := String.toList_ofList
      rw [hclient, hserverId, List.prefix_append_right_inj, List.prefix_append_right_inj]
      exact List.prefix_append ..
  · rintro ⟨hclient, hserver⟩ key windowMs hown hmatch
    cases hown with
    | client =>
        rw [startsWith_storageKey_client] at hmatch
        refine hclient ?_
        rw [String.startsWith_string_iff, String.toList_append]
        exact ended_before_window hne hmatch
    | clientServerTool serverId toolName htool =>
        rw [startsWith_storageKey_clientServerTool] at hmatch
        rcases ended_prefix_cases (by decide) hmatch with heq | hinside | hmark
        · exact hne (String.toList_injective heq)
        · refine hclient ?_
          rw [String.startsWith_string_iff, String.toList_append]
          exact hinside
        · refine hserver ?_
          rw [String.startsWith_string_iff]
          simpa [mark] using hmark

end Memory

section Redis

open RedisLimiter

def reachedRedis (calls : List Call) : RedisLimiter :=
  calls.foldl (fun R c => (R.call c).1) (RedisLimiter.init none)

def SparesInRedis (scan : String → String → Bool) (clientId other : String) : Prop :=
  ∀ calls key, OwnKey other key →
    (RateLimiter.resetClient (fun R => R.reset scan) (reachedRedis calls) clientId).keyspace
      (defaultKeyPrefix ++ key) = (reachedRedis calls).keyspace (defaultKeyPrefix ++ key)

def special : List Char := ['*', '?', '[', '\\']

def Literal (text : String) : Prop := text.toList.all fun c => !special.contains c

instance (text : String) : Decidable (Literal text) := inferInstanceAs (Decidable (_ = true))

-- a glob whose text has no special character, and a star after it, matches what starts with it
def Documented (scan : String → String → Bool) : Prop :=
  ∀ text key, Literal text → scan (text ++ "*") key = key.startsWith text

theorem keyPrefix_reachedRedis (calls : List Call) :
    (reachedRedis calls).keyPrefix = defaultKeyPrefix := by
  induction calls using List.reverseRecOn with
  | nil => rfl
  | append_singleton calls c ih =>
      rw [reachedRedis, List.foldl_append]
      exact ih

variable {scan : String → String → Bool}

theorem startsWith_append_left (lead text start : String) :
    (lead ++ text).startsWith (lead ++ start) = text.startsWith start := by
  rw [Bool.eq_iff_iff, String.startsWith_string_iff, String.startsWith_string_iff,
    String.toList_append, String.toList_append, List.prefix_append_right_inj]

theorem keyspace_resetClient (hscan : Documented scan) (calls : List Call) (hown : OwnKey other key) :
    (RateLimiter.resetClient (fun R => R.reset scan) (reachedRedis calls) clientId).keyspace
        (defaultKeyPrefix ++ key) =
      if scan (defaultKeyPrefix ++ clientKey clientId ++ "*") (defaultKeyPrefix ++ key) then none
      else (reachedRedis calls).keyspace (defaultKeyPrefix ++ key) := by
  obtain ⟨rest, rfl⟩ := hown.eq_client
  have hglobal : scan (defaultKeyPrefix ++ "global" ++ "*") (defaultKeyPrefix ++ ("client:" ++ rest)) =
      false := by
    rw [hscan _ _ (by decide), startsWith_append_left]
    simp
  simp only [RateLimiter.resetClient, RedisLimiter.reset, scanAndDelete, prefixed,
    keyPrefix_reachedRedis, hglobal]
  rfl

theorem keyspace_charged (key : String) :
    (reachedRedis [⟨.consume, key, 1, 60000, 0, 0⟩]).keyspace (defaultKeyPrefix ++ key) ≠ none := by
  simp [reachedRedis, RedisLimiter.call, RedisLimiter.init, slidingWindowLua, RedisLimiter.trim,
    Keyspace.zremrangebyscore, Keyspace.live, Keyspace.zcard, Keyspace.read, Keyspace.zadd,
    Keyspace.pexpire, prefixed, SortedSet.zcard, ExpiringSet.expired, Option.filter]

def pattern (clientId : String) : String := defaultKeyPrefix ++ clientKey clientId ++ "*"

theorem sparesInRedis_iff_keys (hscan : Documented scan) :
    SparesInRedis scan clientId other ↔
      ∀ key, OwnKey other key → scan (pattern clientId) (defaultKeyPrefix ++ key) = false := by
  constructor
  · intro h key hown
    have hkept := h [⟨.consume, key, 1, 60000, 0, 0⟩] key hown
    rw [keyspace_resetClient hscan _ hown] at hkept
    by_contra hmatch
    rw [← pattern, if_pos (by simpa using hmatch)] at hkept
    exact keyspace_charged key hkept.symm
  · intro h calls key hown
    rw [keyspace_resetClient hscan calls hown, ← pattern, h key hown]
    rfl

theorem literal_pattern (h : Literal clientId) : Literal (defaultKeyPrefix ++ clientKey clientId) := by
  have hlead : Literal (defaultKeyPrefix ++ "client:") := by decide
  rw [Literal] at hlead h ⊢
  rw [clientKey, ← String.append_assoc, String.toList_append, List.all_append, hlead, h]
  rfl

theorem scan_literal (hscan : Documented scan) (h : Literal clientId) (key : String) :
    scan (pattern clientId) (defaultKeyPrefix ++ key) = key.startsWith (clientKey clientId) := by
  rw [pattern, hscan _ _ (literal_pattern h), startsWith_append_left]

theorem startsWith_clientKey : (clientKey other).startsWith (clientKey clientId) =
    other.startsWith clientId := startsWith_append_left ..

theorem startsWith_clientSpecificKey {serverId toolName : String} :
    (clientSpecificKey other serverId toolName).startsWith (clientKey clientId) =
      (other ++ ":server:" ++ (serverId ++ ":tool:" ++ toolName)).startsWith clientId := by
  rw [Level.clientSpecificKey_eq_joined, clientKey, startsWith_append_left]
  rfl

theorem sparesInRedis_iff (hscan : Documented scan) (hliteral : Literal clientId) :
    SparesInRedis scan clientId other ↔
      ¬ (other ++ ":server:").startsWith clientId ∧ ¬ clientId.startsWith (other ++ ":server:") := by
  rw [sparesInRedis_iff_keys hscan]
  simp only [scan_literal hscan hliteral]
  constructor
  · intro h
    constructor
    · intro hclient
      have htool := h _ (.clientServerTool "s" "t" (by decide))
      rw [startsWith_clientSpecificKey, String.startsWith_string_eq_false_iff,
        String.toList_append] at htool
      rw [String.startsWith_string_iff] at hclient
      exact htool (hclient.trans (List.prefix_append ..))
    · intro hserver
      rw [String.startsWith_string_iff] at hserver
      obtain ⟨rest, hrest⟩ := hserver
      have htool := h _ (.clientServerTool (String.ofList rest) "t" (by decide))
      have hkey : (other ++ ":server:" ++ (String.ofList rest ++ ":tool:" ++ "t")).toList =
          (other ++ ":server:").toList ++ (rest ++ (":tool:" ++ "t").toList) := by simp
      rw [startsWith_clientSpecificKey, String.startsWith_string_eq_false_iff, ← hrest, hkey,
        List.prefix_append_right_inj] at htool
      exact htool (List.prefix_append ..)
  · rintro ⟨hclient, hserver⟩ key hown
    rw [String.startsWith_string_iff] at hclient hserver
    cases hown with
    | client =>
        rw [startsWith_clientKey, String.startsWith_string_eq_false_iff]
        intro hmatch
        refine hclient ?_
        rw [String.toList_append]
        exact hmatch.trans (List.prefix_append ..)
    | clientServerTool serverId toolName htool =>
        rw [startsWith_clientSpecificKey, String.startsWith_string_eq_false_iff, String.toList_append]
        intro hmatch
        rcases prefix_append_cases hmatch with hinside | ⟨u, hu, -⟩
        · exact hclient hinside
        · exact hserver (hu ▸ List.prefix_append ..)

end Redis

section Claims

variable {scan : String → String → Bool}

theorem buckets_follow_identities_iff (hscan : Documented scan) (hne : clientId ≠ other)
    (R : RateLimiter) (t t' : Caller) :
    (R.Separated RateLimiter.memoryBucket t t' ↔ ∀ l l' windowMs,
      R.Limits l t windowMs → R.Limits l' t' windowMs → ¬ Level.Confused l t l' t') ∧
    (R.Separated (RateLimiter.redisBucket RedisLimiter.defaultKeyPrefix) t t' ↔
      ∀ l l' windowMs windowMs', R.Limits l t windowMs → R.Limits l' t' windowMs' →
        ¬ Level.Confused l t l' t') ∧
    (SparesInMemory clientId other ↔
      ¬ other.startsWith (clientId ++ ":") ∧ ¬ (clientId ++ ":").startsWith (other ++ ":server:")) ∧
    (SparesInRedis scan clientId other ↔ ∀ key, OwnKey other key →
      scan (pattern clientId) (RedisLimiter.defaultKeyPrefix ++ key) = false) ∧
    (Literal clientId → (SparesInRedis scan clientId other ↔
      ¬ (other ++ ":server:").startsWith clientId ∧ ¬ clientId.startsWith (other ++ ":server:"))) :=
  ⟨R.separated_memory_iff t t', R.separated_redis_iff _ t t', sparesInMemory_iff hne,
    sparesInRedis_iff_keys hscan, sparesInRedis_iff hscan⟩

-- MATCH for patterns with no special character but a star at their end
def scanLiteral (pattern key : String) : Bool :=
  key.startsWith (String.ofList pattern.toList.dropLast)

theorem documented_scanLiteral : Documented scanLiteral := by
  intro text key _
  have hstar : (text ++ "*").toList = text.toList ++ ['*'] := String.toList_append
  rw [scanLiteral, hstar, List.dropLast_concat, String.ofList_toList]

def findLimits : RateLimiter where
  config := {
    enabled := true
    perClient := some { requestsPerMinute := some 10 }
    overrides := some [{ server := "crm", requestsPerMinute := some 5 }] }

theorem buckets_follow_identities_iff_ana :
    (findLimits.Separated RateLimiter.memoryBucket ⟨"ana", "crm", "find"⟩ ⟨"bob", "crm", "find"⟩ ↔
      ∀ l l' windowMs, findLimits.Limits l ⟨"ana", "crm", "find"⟩ windowMs →
        findLimits.Limits l' ⟨"bob", "crm", "find"⟩ windowMs →
        ¬ Level.Confused l ⟨"ana", "crm", "find"⟩ l' ⟨"bob", "crm", "find"⟩) ∧
    (findLimits.Separated (RateLimiter.redisBucket RedisLimiter.defaultKeyPrefix)
        ⟨"ana", "crm", "find"⟩ ⟨"bob", "crm", "find"⟩ ↔
      ∀ l l' windowMs windowMs', findLimits.Limits l ⟨"ana", "crm", "find"⟩ windowMs →
        findLimits.Limits l' ⟨"bob", "crm", "find"⟩ windowMs' →
        ¬ Level.Confused l ⟨"ana", "crm", "find"⟩ l' ⟨"bob", "crm", "find"⟩) ∧
    (SparesInMemory "ana" "bob" ↔
      ¬ "bob".startsWith ("ana" ++ ":") ∧ ¬ ("ana" ++ ":").startsWith ("bob" ++ ":server:")) ∧
    (SparesInRedis scanLiteral "ana" "bob" ↔ ∀ key, OwnKey "bob" key →
      scanLiteral (pattern "ana") (RedisLimiter.defaultKeyPrefix ++ key) = false) ∧
    (Literal "ana" → (SparesInRedis scanLiteral "ana" "bob" ↔
      ¬ ("bob" ++ ":server:").startsWith "ana" ∧ ¬ "ana".startsWith ("bob" ++ ":server:"))) :=
  buckets_follow_identities_iff documented_scanLiteral (by decide) findLimits
    ⟨"ana", "crm", "find"⟩ ⟨"bob", "crm", "find"⟩

theorem identities_collide :
    ¬ findLimits.Separated RateLimiter.memoryBucket ⟨"ana:server:crm:tool:find", "crm", "find"⟩
        ⟨"ana", "crm", "find"⟩ ∧
      ¬ SparesInMemory "ana" "ana:pro" ∧ ¬ SparesInRedis scanLiteral "ana" "anabel" := by
  refine ⟨fun h => ?_, fun h => ?_, fun h => ?_⟩
  · have hsame := h .client .clientServerTool
      ⟨"client:ana:server:crm:tool:find", 10, 60000, "client/minute"⟩ (by decide)
      ⟨"client:ana:server:crm:tool:find", 5, 60000, "client-server-tool/minute"⟩ (by decide) rfl
    cases hsame.1
  · have hspares := (sparesInMemory_iff (by decide)).mp h
    exact hspares.1 (by simp)
  · have hspares := (sparesInRedis_iff documented_scanLiteral (by decide)).mp h
    exact hspares.1 (by simp)

end Claims

end Conduit.RateLimit
