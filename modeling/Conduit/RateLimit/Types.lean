import Conduit.Foundation.OrderedMap
import Mathlib.Data.Int.Basic
import Mathlib.Order.WithBot

namespace Conduit.RateLimit

structure RateLimitResult where
  allowed : Bool
  remaining : ℤ
  limit : ℤ
  resetAt : ℤ
  retryAfter : Option ℤ
deriving DecidableEq, Repr

inductive Operation where
  | check
  | consume
deriving DecidableEq, Repr

structure Call where
  operation : Operation
  key : String
  limit : ℤ
  windowMs : ℕ
  nowMs : ℕ
  draw : ℕ
deriving DecidableEq, Repr

structure ToolRateLimitConfig where
  requestsPerMinute : Option ℤ := none
  requestsPerHour : Option ℤ := none
  requestsPerDay : Option ℤ := none

structure ServerRateLimitOverride extends ToolRateLimitConfig where
  server : String
  perTool : Option (OrderedMap String ToolRateLimitConfig) := none

structure QueueConfig where
  enabled : Bool
  maxWaitMs : ℕ
  maxQueueSize : ℕ

structure RateLimitConfig where
  enabled : Bool
  global : Option ToolRateLimitConfig := none
  perClient : Option ToolRateLimitConfig := none
  overrides : Option (List ServerRateLimitOverride) := none
  queue : Option QueueConfig := none

structure RateLimitCheck where
  key : String
  limit : ℤ
  windowMs : ℕ
  label : String
deriving DecidableEq, Repr

-- infinite where no limit applies
structure RateLimitCheckResult where
  allowed : Bool
  remaining : WithTop ℤ
  limit : WithTop ℤ
  resetAt : ℤ
  retryAfter : Option ℤ := none
  blockedBy : Option String := none
  blockingKey : Option String := none
  blockingLimit : Option ℤ := none
  blockingWindowMs : Option ℕ := none
deriving DecidableEq

def ceilSeconds (ms : ℤ) : ℤ := -(-ms / 1000)

end Conduit.RateLimit
