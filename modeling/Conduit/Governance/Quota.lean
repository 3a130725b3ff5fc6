import Conduit.Governance.Runtime
import Conduit.RateLimit.RateLimiter

namespace Conduit.Governance

open RateLimit

def pickQuotaConfig (workspaceId : String) (governance : Option GovernanceConfig) :
    Option ToolRateLimitConfig :=
  let quotas := governance.bind (·.quotas)
  let workspaces := (quotas.bind (·.workspaces)).getD []
  match workspaces.find? fun item => item.workspaceId = workspaceId with
  | some item => some item.toToolRateLimitConfig
  | none => quotas.bind (·.default)

def buildQuotaChecks (key : String) (config : ToolRateLimitConfig) : List RateLimitCheck :=
  (config.requestsPerMinute.map fun limit => ⟨key, limit, 60000, "workspace/minute"⟩).toList ++
    (config.requestsPerHour.map fun limit => ⟨key, limit, 3600000, "workspace/hour"⟩).toList ++
    (config.requestsPerDay.map fun limit => ⟨key, limit, 86400000, "workspace/day"⟩).toList

def workspaceKey (workspaceId : String) : String := "workspace:" ++ workspaceId

namespace GovernanceQuotaDecision

def unlimited (workspaceId : String) (now : ℕ) : GovernanceQuotaDecision where
  allowed := true
  workspaceId := workspaceId
  remaining := ⊤
  limit := ⊤
  resetAt := now + 60000

def refused (workspaceId : String) (check : RateLimitCheck) (result : RateLimitResult) :
    GovernanceQuotaDecision where
  allowed := false
  workspaceId := workspaceId
  remaining := result.remaining
  limit := check.limit
  resetAt := result.resetAt
  retryAfter := result.retryAfter
  blockedBy := some check.label

end GovernanceQuotaDecision

def consumeQuota (workspaceId : String) :
    List RateLimitCheck → LimitProc (Option GovernanceQuotaDecision)
  | [] => return none
  | check :: rest => do
      let result ← request (.consume check)
      if result.allowed then consumeQuota workspaceId rest
      else return some (.refused workspaceId check result)

def leastRemaining (best : GovernanceQuotaDecision) :
    List RateLimitCheck → LimitProc GovernanceQuotaDecision
  | [] => return best
  | check :: rest => do
      let result ← request (.check check)
      leastRemaining
        (if Option.all (fun r => result.remaining < r) best.remaining then
          { best with
            remaining := result.remaining
            limit := check.limit
            resetAt := result.resetAt }
        else best) rest

def reportQuota (workspaceId : String) (checks : List RateLimitCheck) :
    LimitProc GovernanceQuotaDecision := do
  let now ← request .now
  leastRemaining (.unlimited workspaceId now) checks

namespace GovernanceRuntime

variable (G : GovernanceRuntime)

def quotaChecks (workspaceId : String) : List RateLimitCheck :=
  match pickQuotaConfig workspaceId G.config with
  | some config => buildQuotaChecks (workspaceKey workspaceId) config
  | none => []

def consumeWorkspaceQuota (workspaceId : String) : LimitProc GovernanceQuotaDecision :=
  match pickQuotaConfig workspaceId G.config with
  | none => do
      let now ← request .now
      return .unlimited workspaceId now
  | some config => do
      let checks := buildQuotaChecks (workspaceKey workspaceId) config
      match ← consumeQuota workspaceId checks with
      | some refusal => return refusal
      | none => reportQuota workspaceId checks

end GovernanceRuntime

end Conduit.Governance
