import Conduit.Foundation.SortedSet
import Conduit.Foundation.Text
import Conduit.RateLimit.Types
import Mathlib.Algebra.Order.Ring.Int

namespace Conduit.RateLimit

structure RedisLimiter where
  keyPrefix : String
  keyspace : Keyspace String String ℤ

namespace RedisLimiter

def defaultKeyPrefix : String := "conduit:rl:"

def init (keyPrefix : Option String) : RedisLimiter where
  keyPrefix := keyPrefix.getD defaultKeyPrefix
  keyspace := fun _ => none

variable (R : RedisLimiter)

def prefixed (key : String) : String := R.keyPrefix ++ key

structure LuaReply where
  allowed : ℤ
  remaining : ℤ
  retryAfterMs : ℤ
deriving DecidableEq, Repr

def member (now draw : ℕ) : String := toString now ++ "-" ++ toString draw

theorem member_inj {now now' draw draw' : ℕ} :
    member now draw = member now' draw' ↔ now = now' ∧ draw = draw' := by
  constructor
  · intro h
    obtain ⟨hnow, hdraw⟩ := Text.decimal_suffix_inj '-' (by decide) (by decide) h
    exact ⟨Text.toString_inj.1 hnow, hdraw⟩
  · rintro ⟨rfl, rfl⟩
    rfl

def trim (db : Keyspace String String ℤ) (key : String) (windowMs now : ℕ) :
    Keyspace String String ℤ :=
  db.zremrangebyscore now key 0 (now - windowMs)

def refusal (db : Keyspace String String ℤ) (key : String) (windowMs now : ℕ) : LuaReply where
  allowed := 0
  remaining := 0
  retryAfterMs := match (db.read now key).lowestScore? with
    | none => 0
    | some oldest => max 0 (oldest + windowMs - now)

def slidingWindowLua (db : Keyspace String String ℤ) (key : String) (now windowMs : ℕ) (limit : ℤ)
    (draw : ℕ) : Keyspace String String ℤ × LuaReply :=
  let db := trim db key windowMs now
  let count : ℤ := db.zcard now key
  if count < limit then
    ((db.zadd now key now (member now draw)).pexpire now key windowMs,
      { allowed := 1, remaining := limit - count - 1, retryAfterMs := 0 })
  else (db, refusal db key windowMs now)

def checkOnlyLua (db : Keyspace String String ℤ) (key : String) (now windowMs : ℕ) (limit : ℤ) :
    Keyspace String String ℤ × LuaReply :=
  let db := trim db key windowMs now
  let count : ℤ := db.zcard now key
  if count < limit then (db, { allowed := 1, remaining := limit - count, retryAfterMs := 0 })
  else (db, refusal db key windowMs now)

def executeLua (c : Call) (reply : LuaReply) : RateLimitResult where
  allowed := reply.allowed == 1
  remaining := reply.remaining
  limit := c.limit
  resetAt := c.nowMs + c.windowMs
  retryAfter := if 0 < reply.retryAfterMs then some (ceilSeconds reply.retryAfterMs) else none

def call (c : Call) : RedisLimiter × RateLimitResult :=
  let (db, reply) := match c.operation with
    | .consume => slidingWindowLua R.keyspace (R.prefixed c.key) c.nowMs c.windowMs c.limit c.draw
    | .check => checkOnlyLua R.keyspace (R.prefixed c.key) c.nowMs c.windowMs c.limit
  ({ R with keyspace := db }, executeLua c reply)

-- `scan` says which keys SCAN MATCH gives for a pattern
def scanAndDelete (scan : String → String → Bool) (pattern : String) : RedisLimiter :=
  { R with keyspace := fun key => if scan pattern key then none else R.keyspace key }

def reset (scan : String → String → Bool) (key : String) : RedisLimiter :=
  R.scanAndDelete scan (R.prefixed key ++ "*")

end RedisLimiter

end Conduit.RateLimit
