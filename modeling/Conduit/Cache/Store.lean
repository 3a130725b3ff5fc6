import Conduit.Config.Types
import Conduit.Foundation.JsonReading
import Conduit.Foundation.KeyIndex

namespace Conduit.Cache

-- `origin` is the call whose upstream exchange gave the result; the source keeps no such record
structure CacheEntry where
  result : Json
  createdAt : ℕ
  ttl : ℤ
  toolName : String
  serverId : String
  origin : ℕ
deriving DecidableEq

namespace CacheEntry

variable (entry : CacheEntry)

def toJson : Json :=
  .obj [("result", entry.result), ("createdAt", .ofNat entry.createdAt),
    ("ttl", match entry.ttl with
      | .ofNat n => .ofNat n
      | .negSucc n => .num (.finite (-(Decimal.ofNat (n + 1))))),
    ("toolName", .str entry.toolName), ("serverId", .str entry.serverId)]

def sizeBytes : ℕ := entry.toJson.stringify.utf8ByteSize

def expired (now : ℕ) : Bool := entry.ttl * 1000 < (now : ℤ) - entry.createdAt

-- the entry as it is read from the text that Redis keeps of it
def reread : CacheEntry := { entry with result := entry.result.written }

def IsFor (toolName serverId : String) : Prop :=
  entry.toolName = toolName ∧ entry.serverId = serverId

instance (toolName serverId : String) : Decidable (entry.IsFor toolName serverId) :=
  inferInstanceAs (Decidable (_ ∧ _))

end CacheEntry

structure CacheStore where
  entries : OrderedMap String CacheEntry
  serverIndex : KeyIndex String String
  toolIndex : KeyIndex String String
  maxEntryBytes : ℕ

def toolIndexKey (toolName serverId : String) : String := toolName ++ "@" ++ serverId

namespace CacheStore

def init (config : L1CacheConfig) : CacheStore where
  entries := .empty
  serverIndex := .empty
  toolIndex := .empty
  maxEntryBytes := config.maxEntrySizeKb * 1024

variable (S : CacheStore)

-- the callback that lru-cache runs for an entry that leaves or is replaced
def dispose (entry : CacheEntry) (key : String) : CacheStore :=
  { S with
    serverIndex := S.serverIndex.drop entry.serverId [key]
    toolIndex := S.toolIndex.drop (toolIndexKey entry.toolName entry.serverId) [key] }

-- the cache's own deletion, which an LRU eviction also is
def evict (key : String) : CacheStore :=
  match S.entries.get? key with
  | none => S
  | some entry => { S.dispose entry key with entries := S.entries.delete key }

def replaced (key : String) : CacheStore :=
  match S.entries.get? key with
  | none => S
  | some entry => S.dispose entry key

def delete (key : String) : CacheStore × Bool :=
  ((S.replaced key).evict key, S.entries.has key)

def get (key : String) (now : ℕ) : CacheStore × Option CacheEntry :=
  match S.entries.get? key with
  | none => (S, none)
  | some entry => if entry.expired now then ((S.delete key).1, none) else (S, some entry)

def set (key : String) (entry : CacheEntry) : CacheStore :=
  if S.maxEntryBytes < entry.sizeBytes then S
  else
    { S with
      entries := S.entries.set key entry
      serverIndex := (S.replaced key).serverIndex.insert entry.serverId key
      toolIndex :=
        (S.replaced key).toolIndex.insert (toolIndexKey entry.toolName entry.serverId) key }

def forgetTool (key : String) : CacheStore :=
  match S.entries.get? key with
  | none => S
  | some entry =>
      { S with toolIndex := S.toolIndex.drop (toolIndexKey entry.toolName entry.serverId) [key] }

def deleteByServer (serverId : String) : CacheStore × ℕ :=
  match S.serverIndex.get? serverId with
  | none => (S, 0)
  | some keys =>
      let emptied := keys.foldl (fun S key => (forgetTool S key).evict key) S
      ({ emptied with serverIndex := emptied.serverIndex.delete serverId }, keys.length)

-- the loop runs over a copy of the index row, which the disposals empty meanwhile
def deleteByTool (toolName serverId : String) : CacheStore × ℕ :=
  match S.toolIndex.get? (toolIndexKey toolName serverId) with
  | none => (S, 0)
  | some keys =>
      let emptied := keys.foldl evict S
      let left := (emptied.toolIndex.get? (toolIndexKey toolName serverId)).getD []
      ({ emptied with
         serverIndex := emptied.serverIndex.drop serverId left
         toolIndex := emptied.toolIndex.delete (toolIndexKey toolName serverId) }, keys.length)

-- a deletion sends the iteration over the keys back to the most recent entry, so none is missed
def deleteByPrefix (start : String) : CacheStore × ℕ :=
  let keys := S.entries.keys.filter fun key => key.startsWith start
  (keys.foldl (fun S key => (delete S key).1) S, keys.length)

def clear : CacheStore :=
  { S with entries := .empty, serverIndex := .empty, toolIndex := .empty }

variable {S}

theorem get?_evict (key k : String) :
    (S.evict key).entries.get? k = if key = k then none else S.entries.get? k := by
  unfold evict
  split
  next hnone =>
    split
    next heq => rw [← heq, hnone]
    next => rfl
  next entry hentry => exact OrderedMap.get?_delete ..

theorem get?_of_get?_evict {key k : String} {entry : CacheEntry}
    (h : (S.evict key).entries.get? k = some entry) : key ≠ k ∧ S.entries.get? k = some entry := by
  rw [get?_evict] at h
  split at h
  · cases h
  next hne => exact ⟨hne, h⟩

theorem entries_replaced (key : String) : (S.replaced key).entries = S.entries := by
  unfold replaced
  split <;> rfl

theorem get?_delete (key k : String) :
    (S.delete key).1.entries.get? k = if key = k then none else S.entries.get? k := by
  rw [delete, get?_evict, entries_replaced]

theorem get?_of_get {key k : String} {now : ℕ} {entry : CacheEntry}
    (h : (S.get key now).1.entries.get? k = some entry) : S.entries.get? k = some entry := by
  unfold CacheStore.get at h
  split at h
  · exact h
  · split at h
    · rw [get?_delete] at h
      split at h
      · cases h
      · exact h
    · exact h

theorem get?_of_get_eq_some {key : String} {now : ℕ} {entry : CacheEntry}
    (h : (S.get key now).2 = some entry) : S.entries.get? key = some entry := by
  unfold CacheStore.get at h
  split at h
  · cases h
  next found hfound =>
    split at h
    · cases h
    · exact hfound.trans h

theorem get?_of_get?_set {key k : String} {entry stored : CacheEntry}
    (h : (S.set key stored).entries.get? k = some entry) :
    k = key ∧ entry = stored ∨ S.entries.get? k = some entry := by
  unfold CacheStore.set at h
  split at h
  · exact .inr h
  · rw [OrderedMap.get?_set] at h
    split at h
    next heq => exact .inl ⟨heq.symm, (Option.some.inj h).symm⟩
    next => exact .inr h

theorem get?_of_get?_evictAll {keys : List String} {k : String} {entry : CacheEntry}
    (h : (keys.foldl CacheStore.evict S).entries.get? k = some entry) :
    k ∉ keys ∧ S.entries.get? k = some entry := by
  induction keys generalizing S with
  | nil => exact ⟨by simp, h⟩
  | cons key keys ih =>
      obtain ⟨hrest, hevicted⟩ := ih h
      obtain ⟨hne, hentry⟩ := get?_of_get?_evict hevicted
      exact ⟨by simp [Ne.symm hne, hrest], hentry⟩

theorem get?_of_deleteByTool {toolName serverId k : String} {entry : CacheEntry}
    (h : (S.deleteByTool toolName serverId).1.entries.get? k = some entry) :
    S.entries.get? k = some entry := by
  unfold deleteByTool at h
  split at h
  · exact h
  · exact (get?_of_get?_evictAll h).2

end CacheStore

end Conduit.Cache
