import Conduit.Foundation.Program
import Conduit.RateLimit.Types

namespace Conduit.RateLimit

def msPerMinute : ℕ := 60000

def msPerHour : ℕ := 3600000

def msPerDay : ℕ := 86400000

-- the awaits of the rate limiter: the backend, the clock, and the queue
inductive LimitOp where
  | consume (check : RateLimitCheck)
  | check (check : RateLimitCheck)
  | now
  | enqueue (key : String) (limit : ℤ) (windowMs : ℕ)
  | awaitSlot

abbrev LimitAns : LimitOp → Type
  | .consume _ => RateLimitResult
  | .check _ => RateLimitResult
  | .now => ℕ
  | .enqueue _ _ _ => Bool
  | .awaitSlot => Bool

abbrev LimitProc (α : Type) := Program LimitOp LimitAns PEmpty α

abbrev LimitTrace := Program.History LimitOp LimitAns

abbrev request (o : LimitOp) : LimitProc (LimitAns o) := Program.ask o

def blocked (result : RateLimitResult) (check : RateLimitCheck) : RateLimitCheckResult where
  allowed := result.allowed
  remaining := result.remaining
  limit := result.limit
  resetAt := result.resetAt
  retryAfter := result.retryAfter
  blockedBy := some check.label
  blockingKey := some check.key
  blockingLimit := some check.limit
  blockingWindowMs := some check.windowMs

def unlimited (now : ℕ) : RateLimitCheckResult where
  allowed := true
  remaining := ⊤
  limit := ⊤
  resetAt := now + msPerMinute

def passed (result : RateLimitResult) : RateLimitCheckResult where
  allowed := true
  remaining := result.remaining
  limit := result.limit
  resetAt := result.resetAt
  retryAfter := result.retryAfter

def tryCheck (consume : Bool) (check : RateLimitCheck) : LimitProc RateLimitResult :=
  if consume then request (.consume check) else request (.check check)

def firstBlocking (consume : Bool) : List RateLimitCheck → LimitProc (Option RateLimitCheckResult)
  | [] => return none
  | check :: rest => do
      let result ← tryCheck consume check
      if result.allowed then firstBlocking consume rest else return some (blocked result check)

def mostRestrictive (best : Option RateLimitResult) :
    List RateLimitCheck → LimitProc (Option RateLimitResult)
  | [] => return best
  | check :: rest => do
      let result ← request (.check check)
      mostRestrictive
        (if best.all fun b => result.remaining < b.remaining then some result else best) rest

def reportRemaining (checks : List RateLimitCheck) : LimitProc RateLimitCheckResult := do
  match ← mostRestrictive none checks with
  | some result => return passed result
  | none => do
      let now ← request .now
      return unlimited now

def evaluateChecks (checks : List RateLimitCheck) (consume : Bool) :
    LimitProc RateLimitCheckResult :=
  if checks = [] then do
    let now ← request .now
    return unlimited now
  else do
    match ← firstBlocking consume checks with
    | some refusal => return refusal
    | none => reportRemaining checks

def buildChecks (key : String) (config : ToolRateLimitConfig) (labelPrefix : String) :
    List RateLimitCheck :=
  (config.requestsPerMinute.map fun limit =>
      ⟨key, limit, msPerMinute, labelPrefix ++ "/minute"⟩).toList ++
    (config.requestsPerHour.map fun limit =>
      ⟨key, limit, msPerHour, labelPrefix ++ "/heure"⟩).toList ++
    (config.requestsPerDay.map fun limit =>
      ⟨key, limit, msPerDay, labelPrefix ++ "/jour"⟩).toList

def buildOptionalChecks (key : String) (config : Option ToolRateLimitConfig)
    (labelPrefix : String) : List RateLimitCheck :=
  match config with
  | some limits => buildChecks key limits labelPrefix
  | none => []

def clientKey (clientId : String) : String := "client:" ++ clientId

def serverKey (serverId : String) : String := "server:" ++ serverId

def toolKey (serverId toolName : String) : String := serverKey serverId ++ ":tool:" ++ toolName

def clientSpecificKey (clientId serverId toolName : String) : String :=
  clientKey clientId ++ ":server:" ++ serverId ++ ":tool:" ++ toolName

structure RateLimiter where
  config : RateLimitConfig

namespace RateLimiter

variable (R : RateLimiter)

def getClientChecks (clientId : String) : List RateLimitCheck :=
  buildOptionalChecks "global" R.config.global "global" ++
    buildOptionalChecks (clientKey clientId) R.config.perClient "client"

def override? (serverId : String) : Option ServerRateLimitOverride :=
  (R.config.overrides.getD []).find? fun o => o.server = serverId

def toolConfig? (o : ServerRateLimitOverride) (toolName : String) : Option ToolRateLimitConfig :=
  o.perTool.bind fun perTool => perTool.get? toolName

def toolChecks (o : ServerRateLimitOverride) (clientId serverId toolName : String) :
    List RateLimitCheck :=
  if toolName = "" then []
  else
    buildOptionalChecks (toolKey serverId toolName) (toolConfig? o toolName) "tool" ++
      buildChecks (clientSpecificKey clientId serverId toolName) o.toToolRateLimitConfig
        "client-server-tool"

def getServerChecks (clientId serverId toolName : String) : List RateLimitCheck :=
  match R.override? serverId with
  | none => []
  | some o =>
      buildChecks (serverKey serverId) o.toToolRateLimitConfig "server" ++
        toolChecks o clientId serverId toolName

def getChecks (clientId serverId toolName : String) : List RateLimitCheck :=
  R.getClientChecks clientId ++ R.getServerChecks clientId serverId toolName

def consume (clientId serverId toolName : String) : LimitProc RateLimitCheckResult :=
  evaluateChecks (R.getChecks clientId serverId toolName) true

def consumeClientLimits (clientId : String) : LimitProc RateLimitCheckResult :=
  evaluateChecks (R.getClientChecks clientId) true

def consumeServerLimits (clientId serverId toolName : String) : LimitProc RateLimitCheckResult :=
  evaluateChecks (R.getServerChecks clientId serverId toolName) true

-- `reset` is the backend's own
def resetClient {B : Type} (reset : B → String → B) (limiter : B) (clientId : String) : B :=
  reset (reset limiter (clientKey clientId)) "global"

def queueEnabled : Bool := R.config.queue.any (·.enabled)

def waitInQueue (key : String) (limit : ℤ) (windowMs : ℕ) : LimitProc Bool := do
  if ← request (.enqueue key limit windowMs) then request .awaitSlot else return false

def consumeWithQueue (clientId serverId toolName : String) : LimitProc RateLimitCheckResult := do
  let checks := R.getChecks clientId serverId toolName
  let preview ← evaluateChecks checks false
  if preview.allowed then evaluateChecks checks true
  else
    match preview.blockingKey.filter fun key => R.queueEnabled && key ≠ "" with
    | none => evaluateChecks checks true
    | some key => do
        let resolved ← waitInQueue key (preview.blockingLimit.getD 1)
          (preview.blockingWindowMs.getD msPerMinute)
        if resolved then evaluateChecks (checks.filter fun c => c.key ≠ key) true
        else return preview

end RateLimiter

end Conduit.RateLimit
