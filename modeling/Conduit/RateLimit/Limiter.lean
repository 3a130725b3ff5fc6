import Conduit.Foundation.OrderedMap
import Conduit.Foundation.Text
import Conduit.RateLimit.Types

namespace Conduit.RateLimit

def defaultMaxBuckets : ℕ := 50000

structure SlidingWindowLimiter where
  store : OrderedMap String (List ℕ)
  maxBuckets : ℕ

namespace SlidingWindowLimiter

def init (maxBuckets : Option ℕ) : SlidingWindowLimiter where
  store := .empty
  maxBuckets := maxBuckets.getD defaultMaxBuckets

def storageKey (key : String) (windowMs : ℕ) : String := key ++ ":" ++ toString windowMs

theorem storageKey_inj {key key' : String} {windowMs windowMs' : ℕ} :
    storageKey key windowMs = storageKey key' windowMs' ↔ key = key' ∧ windowMs = windowMs' :=
  ⟨Text.decimal_suffix_inj ':' (by decide) (by decide), fun ⟨hk, hw⟩ => by rw [hk, hw]⟩

variable (L : SlidingWindowLimiter)

def valid (now windowMs : ℕ) (all : List ℕ) : List ℕ :=
  all.filter fun t => (now : ℤ) - windowMs ≤ t

def getValid (key : String) (windowMs now : ℕ) : List ℕ × SlidingWindowLimiter :=
  match L.store.get? (storageKey key windowMs) with
  | none => ([], L)
  | some all =>
      let kept := valid now windowMs all
      if kept.length = 0 then
        (kept, { L with store := L.store.delete (storageKey key windowMs) })
      else if kept.length ≠ all.length then
        (kept, { L with store := L.store.set (storageKey key windowMs) kept })
      else (kept, L)

def evictIfFull : SlidingWindowLimiter :=
  if L.store.size < L.maxBuckets then L
  else { L with store := L.store.dropOldest (L.store.size - L.maxBuckets * 9 / 10) }

def resetAt (kept : List ℕ) (windowMs now : ℕ) : ℤ :=
  match kept with
  | oldest :: _ => oldest + windowMs
  | [] => now + windowMs

def check (key : String) (limit : ℤ) (windowMs now : ℕ) :
    SlidingWindowLimiter × RateLimitResult :=
  let (kept, L') := L.getValid key windowMs now
  let count : ℤ := kept.length
  let allowed := decide (count < limit)
  let reset := resetAt kept windowMs now
  (L', {
    allowed := allowed
    remaining := max 0 (limit - count)
    limit := limit
    resetAt := reset
    retryAfter := if allowed then none else some (max 1 (ceilSeconds (reset - now))) })

def consume (key : String) (limit : ℤ) (windowMs now : ℕ) :
    SlidingWindowLimiter × RateLimitResult :=
  let (kept, L') := L.getValid key windowMs now
  if limit ≤ (kept.length : ℤ) then
    let reset := resetAt kept windowMs now
    (L', {
      allowed := false
      remaining := 0
      limit := limit
      resetAt := reset
      retryAfter := some (max 1 (ceilSeconds (reset - now))) })
  else
    let pushed := kept ++ [now]
    let L'' := if L'.store.has (storageKey key windowMs) then L' else L'.evictIfFull
    ({ L'' with store := L''.store.set (storageKey key windowMs) pushed }, {
      allowed := true
      remaining := limit - pushed.length
      limit := limit
      resetAt := now + windowMs
      retryAfter := none })

def getUsage (key : String) (windowMs now : ℕ) : SlidingWindowLimiter × (ℕ × ℕ) :=
  let (kept, L') := L.getValid key windowMs now
  (L', (kept.length, kept.head?.getD now))

def reset (key : String) : SlidingWindowLimiter :=
  { L with
    store := (L.store.keys.filter fun sk => sk.startsWith (key ++ ":")).foldl
      OrderedMap.delete L.store }

def resetAll : SlidingWindowLimiter := { L with store := .empty }

def call (c : Call) : SlidingWindowLimiter × RateLimitResult :=
  match c.operation with
  | .check => L.check c.key c.limit c.windowMs c.nowMs
  | .consume => L.consume c.key c.limit c.windowMs c.nowMs

end SlidingWindowLimiter

end Conduit.RateLimit
