import Conduit.Cache.Store
import Conduit.Foundation.Run

namespace Conduit.Cache

inductive RedisCommand where
  | get (key : String) (reader : Option ℕ)
  | set (key : String) (entry : CacheEntry) (seconds : ℕ)
  | del (key : String) (reader : ℕ)

namespace RedisCommand

-- the command stores or deletes the key
def writes (key : String) : RedisCommand → Bool
  | .get _ _ => false
  | .set key' _ _ => key' = key
  | .del key' _ => key' = key

end RedisCommand

structure RedisCacheStore where
  keyPrefix : String
  maxEntrySizeBytes : ℕ
  connected : Bool
  recentWrites : OrderedMap String ℕ

namespace RedisCacheStore

def writeCoalesceWindowMs : ℕ := 200

def recentWritesMax : ℕ := 4096

-- EX: Math.max(1, Math.ceil(ttlSeconds))
def expirySeconds (ttlSeconds : ℚ) : ℕ :=
  if ttlSeconds.ceil ≤ 1 then 1 else ttlSeconds.ceil.toNat

def removeExpired (now : ℕ) : List (String × ℕ) → OrderedMap String ℕ → OrderedMap String ℕ
  | [], recent => recent
  | (key, expiresAt) :: rest, recent =>
      let left := if expiresAt ≤ now then recent.delete key else recent
      if left.size ≤ recentWritesMax then left else removeExpired now rest left

variable (S : RedisCacheStore)

def prefixed (key : String) : String := S.keyPrefix ++ key

def markWrite (key : String) (now : ℕ) : RedisCacheStore :=
  let marked := S.recentWrites.set key (now + writeCoalesceWindowMs)
  if recentWritesMax < marked.size then
    let left := removeExpired now marked.entries marked
    { S with recentWrites := left.dropOldest (left.size - recentWritesMax) }
  else { S with recentWrites := marked }

def fits (entry : CacheEntry) : Bool :=
  (Json.codeUnits entry.toJson.stringify).length ≤ S.maxEntrySizeBytes

def isRecent (key : String) (now : ℕ) : Bool :=
  (S.recentWrites.get? key).any fun recent => now < recent

-- the write is left out because of the window
def coalesces (key : String) (entry : CacheEntry) (now : ℕ) : Bool :=
  S.connected && S.fits entry && S.isRecent key now

def set (key : String) (entry : CacheEntry) (ttlSeconds : ℚ) (now : ℕ) :
    RedisCacheStore × Option RedisCommand :=
  if !S.connected then (S, none)
  else if !S.fits entry then (S, none)
  else if S.isRecent key now then (S, none)
  else
    (S.markWrite key now,
      some (.set (S.prefixed key) entry.reread (expirySeconds ttlSeconds)))

end RedisCacheStore

-- what a deleteByTool does next: go on with the keys of the batch, wait for the value of a key,
-- look at it, or wait for a deletion
inductive Inspection where
  | waiting (keys : List String)
  | reading (key : String) (keys : List String)
  | inspected (key : String) (found : Option CacheEntry) (keys : List String)
  | deleting (keys : List String)

structure Deletion where
  toolName : String
  serverId : String
  inspection : Inspection

structure StoredValue where
  entry : CacheEntry
  expiresAt : ℕ

-- `sent` are the commands that Redis has still to execute, oldest first, and `log` all that were
-- issued with their times, the newest first
structure RedisSession where
  now : ℕ
  store : RedisCacheStore
  deletions : List Deletion
  sent : List RedisCommand
  redis : OrderedMap String StoredValue
  log : List (ℕ × RedisCommand)

inductive RedisEvent where
  | passes (ms : ℕ)
  | get (key : String)
  | set (key : String) (entry : CacheEntry) (ttlSeconds : ℚ)
  | deleteByTool (toolName serverId : String)
  | scanned (deletion : ℕ) (keys : List String)
  | inspects (deletion : ℕ)
  | deletes (deletion : ℕ)
  | executes

namespace RedisSession

def init (store : RedisCacheStore) (redis : OrderedMap String StoredValue) (now : ℕ) :
    RedisSession where
  now := now
  store := { store with recentWrites := .empty }
  deletions := []
  sent := []
  redis := redis
  log := []

variable (s : RedisSession)

def issue (command : RedisCommand) : RedisSession :=
  { s with sent := s.sent ++ [command], log := (s.now, command) :: s.log }

def value? (key : String) : Option CacheEntry :=
  ((s.redis.get? key).filter fun stored => s.now ≤ stored.expiresAt).map StoredValue.entry

def setInspection (deletion : ℕ) (inspection : Inspection) : RedisSession :=
  { s with deletions := s.deletions.modify deletion fun d => { d with inspection := inspection } }

def inspection? (deletion : ℕ) : Option Inspection :=
  s.deletions[deletion]?.map Deletion.inspection

def execute : RedisCommand → RedisSession
  | .get _ none => s
  | .get key (some reader) =>
      match s.inspection? reader with
      | some (.reading _ keys) => s.setInspection reader (.inspected key (s.value? key) keys)
      | _ => s
  | .set key entry seconds => { s with redis := s.redis.set key ⟨entry, s.now + seconds * 1000⟩ }
  | .del key reader =>
      match s.inspection? reader with
      | some (.deleting keys) =>
          { s.setInspection reader (.waiting keys) with redis := s.redis.delete key }
      | _ => { s with redis := s.redis.delete key }

def step : RedisEvent → Option RedisSession
  | .passes ms => some { s with now := s.now + ms }
  | .get key => if s.store.connected then some (s.issue (.get (s.store.prefixed key) none)) else some s
  | .set key entry ttlSeconds =>
      match s.store.set key entry ttlSeconds s.now with
      | (store, some command) => some ({ s with store := store }.issue command)
      | (_, none) => some s
  | .deleteByTool toolName serverId =>
      if s.store.connected then
        some { s with deletions := s.deletions ++ [⟨toolName, serverId, .waiting []⟩] }
      else some s
  | .scanned deletion keys =>
      match s.inspection? deletion with
      | some (.waiting []) => some (s.setInspection deletion (.waiting keys))
      | _ => none
  | .inspects deletion =>
      match s.inspection? deletion with
      | some (.waiting (key :: keys)) =>
          some ((s.setInspection deletion (.reading key keys)).issue (.get key (some deletion)))
      | _ => none
  | .deletes deletion =>
      match s.deletions[deletion]? with
      | some ⟨toolName, serverId, .inspected key found keys⟩ =>
          if found.any fun entry => entry.IsFor toolName serverId then
            some ((s.setInspection deletion (.deleting keys)).issue (.del key deletion))
          else some (s.setInspection deletion (.waiting keys))
      | _ => none
  | .executes =>
      match s.sent with
      | command :: rest => some ({ s with sent := rest }.execute command)
      | [] => none

-- the newest command of a list, oldest first, that stores or deletes the key
def newest? (key : String) (commands : List RedisCommand) : Option RedisCommand :=
  commands.reverse.find? (RedisCommand.writes key)

def lastWrite? (key : String) : Option (ℕ × RedisCommand) :=
  s.log.find? fun write => write.2.writes key

-- what Redis holds for the key once it has executed all it was sent
def eventual? (key : String) : Option CacheEntry :=
  match newest? key s.sent with
  | some (.set _ entry _) => some entry
  | some _ => none
  | none => s.value? key

-- the write adds nothing to what Redis holds or is about to hold
def Redundant (key : String) (entry : CacheEntry) : Prop :=
  ∃ stored, s.eventual? (s.store.prefixed key) = some stored ∧
    stored.result = entry.reread.result

-- the newest command for the key was a write of the same result, so nothing deleted it since
def Repeats (key : String) (entry : CacheEntry) : Prop :=
  ∃ time stored seconds, s.lastWrite? (s.store.prefixed key) =
      some (time, .set (s.store.prefixed key) stored seconds) ∧
    stored.result = entry.reread.result

def SkipsRedundantly : RedisEvent → Prop
  | .set key entry _ => s.store.coalesces key entry s.now = true → s.Redundant key entry
  | _ => True

def SkipsRepeats : RedisEvent → Prop
  | .set key entry _ => s.store.coalesces key entry s.now = true → s.Repeats key entry
  | _ => True

variable {s}

section Store

open RedisCacheStore

variable {S : RedisCacheStore}

theorem get?_of_delete {recent : OrderedMap String ℕ} {k key : String} {expiresAt : ℕ}
    (h : (recent.delete k).get? key = some expiresAt) : recent.get? key = some expiresAt := by
  rw [OrderedMap.get?_delete] at h
  split at h
  · cases h
  · exact h

theorem get?_removeExpired {now : ℕ} {entries : List (String × ℕ)} {recent : OrderedMap String ℕ}
    {key : String} {expiresAt : ℕ}
    (h : (removeExpired now entries recent).get? key = some expiresAt) :
    recent.get? key = some expiresAt := by
  induction entries generalizing recent with
  | nil => exact h
  | cons e rest ih =>
      obtain ⟨k, v⟩ := e
      rw [removeExpired] at h
      have hleft : (if v ≤ now then recent.delete k else recent).get? key = some expiresAt := by
        generalize (if v ≤ now then recent.delete k else recent) = left at h ⊢
        split at h
        · exact h
        · exact ih h
      split at hleft
      · exact get?_of_delete hleft
      · exact hleft

theorem get?_markWrite {key k : String} {now expiresAt : ℕ}
    (h : (S.markWrite key now).recentWrites.get? k = some expiresAt) :
    k = key ∧ expiresAt = now + writeCoalesceWindowMs ∨
      k ≠ key ∧ S.recentWrites.get? k = some expiresAt := by
  have hmarked : (S.recentWrites.set key (now + writeCoalesceWindowMs)).get? k =
      some expiresAt := by
    unfold markWrite at h
    dsimp only at h
    split at h
    · dsimp only at h
      rcases OrderedMap.get?_dropOldest (removeExpired now
          (S.recentWrites.set key (now + writeCoalesceWindowMs)).entries
          (S.recentWrites.set key (now + writeCoalesceWindowMs)))
          ((removeExpired now (S.recentWrites.set key (now + writeCoalesceWindowMs)).entries
            (S.recentWrites.set key (now + writeCoalesceWindowMs))).size - recentWritesMax) k
        with hsame | hnone
      · rw [hsame] at h
        exact get?_removeExpired h
      · rw [hnone] at h
        cases h
    · exact h
  rw [OrderedMap.get?_set] at hmarked
  split at hmarked
  next heq => exact .inl ⟨heq.symm, (Option.some.inj hmarked).symm⟩
  next hne => exact .inr ⟨fun heq => hne heq.symm, hmarked⟩

theorem keyPrefix_markWrite (key : String) (now : ℕ) :
    (S.markWrite key now).keyPrefix = S.keyPrefix := by
  simp only [markWrite, apply_ite RedisCacheStore.keyPrefix, ite_self]

theorem prefixed_inj {k k' : String} : S.prefixed k = S.prefixed k' ↔ k = k' :=
  String.append_right_inj S.keyPrefix

theorem one_le_expirySeconds (ttlSeconds : ℚ) : 1 ≤ expirySeconds ttlSeconds := by
  unfold expirySeconds
  split
  · exact Nat.le_refl 1
  next h =>
    have hlt : 1 < ttlSeconds.ceil := Int.not_le.mp h
    omega

end Store

section Commands

theorem newest?_concat (key : String) (commands : List RedisCommand) (command : RedisCommand) :
    newest? key (commands ++ [command]) =
      if command.writes key then some command else newest? key commands := by
  simp only [newest?, List.reverse_append, List.reverse_singleton, List.singleton_append,
    List.find?_cons]
  split
  next h => rw [if_pos h]
  next h => rw [if_neg (Bool.eq_false_iff.mp h)]

theorem newest?_cons (key : String) (command : RedisCommand) (rest : List RedisCommand) :
    newest? key (command :: rest) =
      (newest? key rest).or (if command.writes key then some command else none) := by
  simp only [newest?, List.reverse_cons, List.find?_append, List.find?_singleton]

theorem lastWrite?_issue (key : String) (command : RedisCommand) :
    (s.issue command).lastWrite? key =
      if command.writes key then some (s.now, command) else s.lastWrite? key := by
  simp only [lastWrite?, issue, List.find?_cons]
  split
  next h => rw [if_pos h]
  next h => rw [if_neg (Bool.eq_false_iff.mp h)]

theorem redis_execute (command : RedisCommand) (key : String) :
    (s.execute command).redis.get? key =
      if command.writes key then
        match command with
        | .set _ entry seconds => some ⟨entry, s.now + seconds * 1000⟩
        | _ => none
      else s.redis.get? key := by
  cases command with
  | get k reader =>
      cases reader with
      | none => rfl
      | some reader =>
          simp only [execute, RedisCommand.writes]
          split
          · rfl
          · rfl
  | set k entry seconds =>
      simp only [execute, RedisCommand.writes, OrderedMap.get?_set, decide_eq_true_eq]
  | del k reader =>
      simp only [execute, RedisCommand.writes, decide_eq_true_eq]
      split
      · exact OrderedMap.get?_delete s.redis k key
      · exact OrderedMap.get?_delete s.redis k key

theorem frame_execute (command : RedisCommand) :
    (s.execute command).now = s.now ∧ (s.execute command).store = s.store ∧
      (s.execute command).sent = s.sent ∧ (s.execute command).log = s.log := by
  cases command with
  | get k reader =>
      cases reader with
      | none => exact ⟨rfl, rfl, rfl, rfl⟩
      | some reader =>
          simp only [execute]
          split
          · exact ⟨rfl, rfl, rfl, rfl⟩
          · exact ⟨rfl, rfl, rfl, rfl⟩
  | set k entry seconds => exact ⟨rfl, rfl, rfl, rfl⟩
  | del k reader =>
      simp only [execute]
      split
      · exact ⟨rfl, rfl, rfl, rfl⟩
      · exact ⟨rfl, rfl, rfl, rfl⟩

end Commands

section Tracking

variable (s) in
-- a command that Redis has executed left this of the key; what it stored lives a second at least
def Left (key : String) (time : ℕ) : RedisCommand → Prop
  | .set _ entry _ => ∃ expiresAt, s.redis.get? key = some ⟨entry, expiresAt⟩ ∧
      time + 1000 ≤ expiresAt
  | _ => s.redis.get? key = none

variable (s) in
structure Tracked : Prop where
  inOrder : ∀ key time command, s.lastWrite? key = some (time, command) →
    time ≤ s.now ∧ (∀ k entry seconds, command = .set k entry seconds → 1 ≤ seconds) ∧
      (newest? key s.sent = some command ∨
        newest? key s.sent = none ∧ s.Left key time command)
  recent : ∀ key expiresAt, s.store.recentWrites.get? key = some expiresAt →
    ∃ time command, s.lastWrite? (s.store.prefixed key) = some (time, command) ∧
      ∀ k entry seconds, command = .set k entry seconds →
        expiresAt = time + RedisCacheStore.writeCoalesceWindowMs

theorem tracked_init (store : RedisCacheStore) (redis : OrderedMap String StoredValue) (now : ℕ) :
    (init store redis now).Tracked where
  inOrder := fun _ _ _ h => by cases h
  recent := fun _ _ h => by cases h

-- a store whose window knows no more than the old one, and the key of the command at this time
theorem Tracked.issue (h : s.Tracked) {command : RedisCommand} (store : RedisCacheStore)
    (hseconds : ∀ k entry seconds, command = .set k entry seconds → 1 ≤ seconds)
    ( hprefix : store.keyPrefix = s.store.keyPrefix)
    (hrecent : ∀ key expiresAt, store.recentWrites.get? key = some expiresAt →
      command.writes (s.store.prefixed key) = true ∧ (∀ k entry seconds,
        command = .set k entry seconds →
          expiresAt = s.now + RedisCacheStore.writeCoalesceWindowMs) ∨
      command.writes (s.store.prefixed key) = false ∧
        s.store.recentWrites.get? key = some expiresAt) :
    ({ s with store := store }.issue command : RedisSession).Tracked where
  inOrder := by
    intro key time last hlast
    rw [lastWrite?_issue] at hlast
    simp only [RedisSession.issue, newest?_concat]
    split at hlast
    next hwrites =>
      obtain ⟨rfl, rfl⟩ := Prod.mk.inj (Option.some.inj hlast)
      exact ⟨Nat.le_refl _, hseconds, .inl (if_pos hwrites)⟩
    next hnot =>
      rw [if_neg hnot]
      exact h.inOrder key time last hlast
  recent := by
    intro key expiresAt hkey
    have hsame : store.prefixed key = s.store.prefixed key := by
      rw [RedisCacheStore.prefixed, RedisCacheStore.prefixed, hprefix]
    change ∃ time command', RedisSession.lastWrite? ({ s with store := store }.issue command)
      (store.prefixed key) = _ ∧ _
    rw [lastWrite?_issue, hsame]
    rcases hrecent key expiresAt hkey with ⟨hwrites, hset⟩ | ⟨hnot, hold⟩
    · exact ⟨s.now, command, if_pos hwrites, hset⟩
    · obtain ⟨time, last, hlast, hset⟩ := h.recent key expiresAt hold
      refine ⟨time, last, ?_, hset⟩
      rw [hnot]
      exact hlast

theorem Left.execute {key : String} {time : ℕ} {command last : RedisCommand}
    (h : s.Left key time last) (hnot : command.writes key = false) :
    (s.execute command).Left key time last := by
  have hget : (s.execute command).redis.get? key = s.redis.get? key := by
    rw [redis_execute, hnot]
    rfl
  cases last with
  | get k reader => exact hget.trans h
  | set k entry seconds =>
      obtain ⟨expiresAt, hstored, hlong⟩ := h
      exact ⟨expiresAt, hget.trans hstored, hlong⟩
  | del k reader => exact hget.trans h

theorem left_of_execute {key : String} {time : ℕ} {command : RedisCommand}
    (hwrites : command.writes key = true) (htime : time ≤ s.now)
    (hseconds : ∀ k entry seconds, command = .set k entry seconds → 1 ≤ seconds) :
    (s.execute command).Left key time command := by
  have hget := redis_execute (s := s) command key
  rw [if_pos hwrites] at hget
  cases command with
  | get k reader => exact hget
  | set k entry seconds =>
      have hone := hseconds k entry seconds rfl
      exact ⟨_, hget, by omega⟩
  | del k reader => exact hget

theorem Tracked.execute (h : s.Tracked) {command : RedisCommand} {rest : List RedisCommand}
    (hsent : s.sent = command :: rest) :
    ({ s with sent := rest }.execute command : RedisSession).Tracked := by
  obtain ⟨hnow, hstore, hsent', hlog⟩ := frame_execute (s := { s with sent := rest }) command
  constructor
  · intro key time last hlast
    have hbefore : s.lastWrite? key = some (time, last) := by
      rw [← hlast, lastWrite?, lastWrite?, hlog]
    obtain ⟨htime, hseconds, hplace⟩ := h.inOrder key time last hbefore
    rw [hnow, hsent']
    refine ⟨htime, hseconds, ?_⟩
    rw [hsent, newest?_cons] at hplace
    cases hrest : newest? key rest with
    | some newer =>
        rw [hrest, Option.some_or] at hplace
        exact .inl (hplace.resolve_right fun h => by cases h.1)
    | none =>
        rw [hrest, Option.none_or] at hplace
        refine .inr ⟨rfl, ?_⟩
        rcases hplace with hmine | ⟨hother, hleft⟩
        · split at hmine
          next hwrites =>
            obtain rfl := Option.some.inj hmine
            exact left_of_execute (s := { s with sent := rest }) hwrites htime hseconds
          next => cases hmine
        · split at hother
          · cases hother
          next hnot =>
            have hleft' : Left { s with sent := rest } key time last := hleft
            exact hleft'.execute (Bool.eq_false_iff.mpr hnot)
  · intro key expiresAt hkey
    rw [hstore] at hkey ⊢
    obtain ⟨time, last, hlast, hset⟩ := h.recent key expiresAt hkey
    refine ⟨time, last, ?_, hset⟩
    rw [← hlast, lastWrite?, lastWrite?, hlog]

theorem Tracked.get (h : s.Tracked) (key : String) (reader : Option ℕ) :
    (s.issue (.get key reader)).Tracked := by
  apply h.issue s.store _ rfl
  · exact fun _ expiresAt hkey => .inr ⟨rfl, hkey⟩
  · exact fun _ _ _ h => by cases h

theorem Tracked.del (h : s.Tracked) (key : String) (reader : ℕ) :
    (s.issue (.del key reader)).Tracked := by
  apply h.issue s.store _ rfl
  · intro key' expiresAt hkey
    cases hwrites : RedisCommand.writes (s.store.prefixed key') (.del key reader) with
    | true => exact .inl ⟨rfl, fun _ _ _ h => by cases h⟩
    | false => exact .inr ⟨rfl, hkey⟩
  · exact fun _ _ _ h => by cases h

theorem Tracked.set (h : s.Tracked) (key : String) (entry : CacheEntry) (ttlSeconds : ℚ) :
    ({ s with store := s.store.markWrite key s.now }.issue
      (.set (s.store.prefixed key) entry.reread
        (RedisCacheStore.expirySeconds ttlSeconds)) : RedisSession).Tracked := by
  apply h.issue (s.store.markWrite key s.now) _ (keyPrefix_markWrite key s.now)
  · intro key' expiresAt hkey
    have hwrites : RedisCommand.writes (s.store.prefixed key')
        (.set (s.store.prefixed key) entry.reread
          (RedisCacheStore.expirySeconds ttlSeconds)) = decide (key = key') := by
      simp only [RedisCommand.writes, prefixed_inj]
    rw [hwrites]
    rcases get?_markWrite hkey with ⟨rfl, hexpires⟩ | ⟨hne, hold⟩
    · exact .inl ⟨decide_eq_true rfl, fun _ _ _ _ => hexpires⟩
    · exact .inr ⟨decide_eq_false fun heq => hne heq.symm, hold⟩
  · rintro k written seconds hcommand
    obtain ⟨-, -, rfl⟩ := RedisCommand.set.inj hcommand
    exact one_le_expirySeconds ttlSeconds

theorem set_eq_or (S : RedisCacheStore) (key : String) (entry : CacheEntry) (ttlSeconds : ℚ)
    (now : ℕ) :
    S.set key entry ttlSeconds now = (S, none) ∨
      S.set key entry ttlSeconds now = (S.markWrite key now,
        some (.set (S.prefixed key) entry.reread (RedisCacheStore.expirySeconds ttlSeconds))) := by
  unfold RedisCacheStore.set
  split
  · exact .inl rfl
  · split
    · exact .inl rfl
    · split
      · exact .inl rfl
      · exact .inr rfl

theorem tracked_step {t : RedisSession} {event : RedisEvent} (h : s.Tracked)
    (hstep : s.step event = some t) : t.Tracked := by
  cases event with
  | passes ms =>
      obtain rfl := Option.some.inj hstep
      constructor
      · intro key time command hlast
        obtain ⟨htime, hrest⟩ := h.inOrder key time command hlast
        exact ⟨Nat.le_trans htime (Nat.le_add_right _ _), hrest⟩
      · exact h.recent
  | get key =>
      simp only [step] at hstep
      split at hstep
      · obtain rfl := Option.some.inj hstep
        exact h.get _ none
      · obtain rfl := Option.some.inj hstep
        exact h
  | set key entry ttlSeconds =>
      simp only [step] at hstep
      rcases set_eq_or s.store key entry ttlSeconds s.now with hskipped | hwritten
      · rw [hskipped] at hstep
        obtain rfl := Option.some.inj hstep
        exact h
      · rw [hwritten] at hstep
        obtain rfl := Option.some.inj hstep
        exact h.set key entry ttlSeconds
  | deleteByTool toolName serverId =>
      simp only [step] at hstep
      split at hstep
      · obtain rfl := Option.some.inj hstep
        exact ⟨h.inOrder, h.recent⟩
      · obtain rfl := Option.some.inj hstep
        exact h
  | scanned deletion keys =>
      simp only [step] at hstep
      split at hstep
      · obtain rfl := Option.some.inj hstep
        exact ⟨h.inOrder, h.recent⟩
      · cases hstep
  | inspects deletion =>
      simp only [step] at hstep
      split at hstep
      next key keys _ =>
        obtain rfl := Option.some.inj hstep
        have hsame : (s.setInspection deletion (.reading key keys)).Tracked :=
          ⟨h.inOrder, h.recent⟩
        exact hsame.get key (some deletion)
      · cases hstep
  | deletes deletion =>
      simp only [step] at hstep
      split at hstep
      next toolName serverId key found keys _ =>
        split at hstep
        · obtain rfl := Option.some.inj hstep
          have hsame : (s.setInspection deletion (.deleting keys)).Tracked :=
            ⟨h.inOrder, h.recent⟩
          exact hsame.del key deletion
        · obtain rfl := Option.some.inj hstep
          exact ⟨h.inOrder, h.recent⟩
      · cases hstep
  | executes =>
      simp only [step] at hstep
      split at hstep
      next command rest hsent =>
        obtain rfl := Option.some.inj hstep
        exact h.execute hsent
      · cases hstep

-- within the window Redis holds, or is about to hold, what the newest command for the key left
theorem redundant_iff_repeats (h : s.Tracked) {key : String} {entry : CacheEntry}
    (hskip : s.store.coalesces key entry s.now = true) :
    s.Redundant key entry ↔ s.Repeats key entry := by
  obtain ⟨-, hrecent⟩ := Bool.and_eq_true_iff.mp hskip
  obtain ⟨expiresAt, hwindow, hnow⟩ : ∃ expiresAt,
      s.store.recentWrites.get? key = some expiresAt ∧ s.now < expiresAt := by
    unfold RedisCacheStore.isRecent at hrecent
    cases hwindow : s.store.recentWrites.get? key with
    | none =>
        rw [hwindow] at hrecent
        cases hrecent
    | some expiresAt =>
        rw [hwindow] at hrecent
        exact ⟨expiresAt, rfl, of_decide_eq_true hrecent⟩
  obtain ⟨time, command, hlast, hset⟩ := h.recent key expiresAt hwindow
  obtain ⟨htime, -, hplace⟩ := h.inOrder _ time command hlast
  have hwrites := List.find?_some hlast
  cases command with
  | get k reader => cases hwrites
  | set k stored seconds =>
      obtain rfl : k = s.store.prefixed key := of_decide_eq_true hwrites
      have hexpires := hset _ _ _ rfl
      have heventual : s.eventual? (s.store.prefixed key) = some stored := by
        unfold eventual?
        rcases hplace with hsent | ⟨hnone, expiry, hstored, hlong⟩
        · rw [hsent]
        · have hlive : s.now ≤ expiry := by
            unfold RedisCacheStore.writeCoalesceWindowMs at hexpires
            omega
          rw [hnone]
          simp only [value?, hstored, Option.filter_some, hlive, decide_true, if_true,
            Option.map_some]
      constructor
      · rintro ⟨stored', hstored', hresult⟩
        obtain rfl := Option.some.inj (heventual.symm.trans hstored')
        exact ⟨time, stored, seconds, hlast, hresult⟩
      · rintro ⟨time', stored', seconds', hlast', hresult⟩
        obtain ⟨-, hcommand⟩ := Prod.mk.inj (Option.some.inj (hlast.symm.trans hlast'))
        obtain ⟨-, rfl, -⟩ := RedisCommand.set.inj hcommand
        exact ⟨stored, heventual, hresult⟩
  | del k reader =>
      have heventual : s.eventual? (s.store.prefixed key) = none := by
        unfold eventual?
        rcases hplace with hsent | ⟨hnone, hgone⟩
        · rw [hsent]
        · have hgone : s.redis.get? (s.store.prefixed key) = none := hgone
          rw [hnone]
          simp only [value?, hgone, Option.filter_none, Option.map_none]
      refine iff_of_false ?_ ?_
      · rintro ⟨stored, hstored, -⟩
        rw [heventual] at hstored
        cases hstored
      · rintro ⟨time', stored, seconds, hlast', -⟩
        obtain ⟨-, hcommand⟩ := Prod.mk.inj (Option.some.inj (hlast.symm.trans hlast'))
        cases hcommand

end Tracking

section Claim

open Transition

theorem skipsRedundantly_iff (h : s.Tracked) (event : RedisEvent) :
    s.SkipsRedundantly event ↔ s.SkipsRepeats event := by
  cases event with
  | set key entry ttlSeconds =>
      exact forall_congr' fun hskip => redundant_iff_repeats h hskip
  | _ => exact Iff.rfl

theorem skipped_writes_redundant_iff (store : RedisCacheStore)
    (redis : OrderedMap String StoredValue) (now : ℕ) (es : List RedisEvent) :
    Along step SkipsRedundantly (init store redis now) es ↔
      Along step SkipsRepeats (init store redis now) es := by
  constructor
  · apply Along.of_invariant step (I := Tracked)
    · exact fun _ _ _ h _ hstep => tracked_step h hstep
    · exact fun s e h => (skipsRedundantly_iff h e).mp
    · exact tracked_init store redis now
  · apply Along.of_invariant step (I := Tracked)
    · exact fun _ _ _ h _ hstep => tracked_step h hstep
    · exact fun s e h => (skipsRedundantly_iff h e).mpr
    · exact tracked_init store redis now

def listing (result : Json) : CacheEntry where
  result := result
  createdAt := 0
  ttl := 60
  toolName := "list"
  serverId := "crm"
  origin := 0

def firstListing : CacheEntry := listing (.str "before")

def secondListing : CacheEntry := listing (.str "after")

def crmStore : RedisCacheStore where
  keyPrefix := "c:"
  maxEntrySizeBytes := 1024
  connected := true
  recentWrites := .empty

-- a listing is stored, an invalidation of its tool deletes it, and the listing is fetched again
def invalidationRun : List RedisEvent :=
  [.set "k" firstListing 60, .executes, .deleteByTool "list" "crm", .scanned 0 ["c:k"],
    .inspects 0, .executes, .deletes 0, .executes, .passes 50]

-- what the second write needs is neither in Redis nor on its way, and was never sent
def Missed (s : RedisSession) : Bool :=
  s.store.coalesces "k" secondListing s.now &&
    (s.eventual? (s.store.prefixed "k")).isNone &&
    s.log.all fun write =>
      match write.2 with
      | .set _ entry _ => entry.result ≠ secondListing.reread.result
      | _ => true

theorem missed_invalidationRun :
    (run step (init crmStore .empty 0) invalidationRun).any Missed = true := by
  decide +kernel

theorem not_skipped_redundantly :
    ¬ Along step SkipsRedundantly (init crmStore .empty 0)
      (invalidationRun ++ [.set "k" secondListing 60]) := by
  intro h
  have hmissed := missed_invalidationRun
  cases hrun : run step (init crmStore .empty 0) invalidationRun with
  | none =>
      rw [hrun] at hmissed
      cases hmissed
  | some s =>
      rw [hrun] at hmissed
      obtain ⟨hskipped, -⟩ := Bool.and_eq_true_iff.mp hmissed
      obtain ⟨hskip, hnone⟩ := Bool.and_eq_true_iff.mp hskipped
      obtain ⟨stored, hstored, -⟩ := ((along_append step hrun).mp h).2.1 hskip
      rw [hstored] at hnone
      cases hnone

end Claim

end RedisSession

end Conduit.Cache
