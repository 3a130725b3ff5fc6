import Conduit.Governance.Quota
import Conduit.RateLimit.Charging

namespace Conduit.Governance

open RateLimit SlidingWindowLimiter

variable {clock : ℕ → ℕ} {L : SlidingWindowLimiter} {n : ℕ} {workspaceId : String}

theorem distinct_buildQuotaChecks (key : String) (config : ToolRateLimitConfig) :
    Distinct (buildQuotaChecks key config) := by
  unfold Distinct buildQuotaChecks
  cases config.requestsPerMinute <;> cases config.requestsPerHour <;>
    cases config.requestsPerDay <;> simp [RateLimitCheck.bucket]

theorem length_buildQuotaChecks_le (key : String) (config : ToolRateLimitConfig) :
    (buildQuotaChecks key config).length ≤ 3 := by
  unfold buildQuotaChecks
  cases config.requestsPerMinute <;> cases config.requestsPerHour <;>
    cases config.requestsPerDay <;> simp

theorem consumeQuota_eq_chargeAll (checks : List RateLimitCheck) :
    consumeQuota workspaceId checks = chargeAll (.refused workspaceId) checks := by
  induction checks with
  | nil => rfl
  | cons check rest ih =>
      unfold consumeQuota chargeAll
      rw [ih]

theorem allowed_leastRemaining {best : GovernanceQuotaDecision} (h : best.allowed = true)
    (checks : List RateLimitCheck) (s : SlidingWindowLimiter × ℕ) :
    (Program.run (serveMemory clock) s (leastRemaining best checks)).2.allowed = true := by
  induction checks generalizing best s with
  | nil => exact h
  | cons check rest ih =>
      refine ih ?_ _
      split <;> exact h

theorem allowed_reportQuota (checks : List RateLimitCheck) (s : SlidingWindowLimiter × ℕ) :
    (Program.run (serveMemory clock) s (reportQuota workspaceId checks)).2.allowed = true :=
  allowed_leastRemaining rfl checks _

theorem run_consumeWorkspaceQuota_of_refused {G : GovernanceRuntime}
    (h : (runMemory clock L (G.consumeWorkspaceQuota workspaceId)).2.allowed = false) :
    ∃ config, pickQuotaConfig workspaceId G.config = some config ∧
      (Program.run (serveMemory clock) (L, 0) (consumeQuota workspaceId
        (buildQuotaChecks (workspaceKey workspaceId) config))).2 ≠ none ∧
      (runMemory clock L (G.consumeWorkspaceQuota workspaceId)).1 =
        (Program.run (serveMemory clock) (L, 0) (consumeQuota workspaceId
          (buildQuotaChecks (workspaceKey workspaceId) config))).1.1 := by
  unfold GovernanceRuntime.consumeWorkspaceQuota runMemory at h ⊢
  cases hconfig : pickQuotaConfig workspaceId G.config with
  | none =>
      rw [hconfig] at h
      cases h
  | some config =>
      simp only [hconfig, Program.run_bind] at h ⊢
      refine ⟨config, rfl, ?_⟩
      cases hrefusal : (Program.run (serveMemory clock) (L, 0) (consumeQuota workspaceId
          (buildQuotaChecks (workspaceKey workspaceId) config))).2 with
      | none =>
          rw [hrefusal, allowed_reportQuota] at h
          cases h
      | some refusal => exact ⟨by simp, rfl⟩

theorem sameUsage_consumeWorkspaceQuota_iff {G : GovernanceRuntime} (hsized : L.Sized)
    (hrefused : (runMemory clock L (G.consumeWorkspaceQuota workspaceId)).2.allowed = false) :
    L.SameUsage (runMemory clock L (G.consumeWorkspaceQuota workspaceId)).1 (clock 0) ↔
      FullFirst L (clock 0) (G.quotaChecks workspaceId) := by
  obtain ⟨config, hconfig, hrefusal, hstate⟩ := run_consumeWorkspaceQuota_of_refused hrefused
  rw [hstate, GovernanceRuntime.quotaChecks, hconfig]
  rw [consumeQuota_eq_chargeAll] at hrefusal ⊢
  exact sameUsage_chargeAll_iff hsized (distinct_buildQuotaChecks ..)
    ((length_buildQuotaChecks_le ..).trans_lt (by decide)) hrefusal

-- a refusal leaves all usage as it was exactly when the first check made is the one at its limit
def UnchargedIffFullFirst {α : Type} (clock : ℕ → ℕ) (L : SlidingWindowLimiter)
    (call : LimitProc α) (allowed : α → Bool) (checks : List RateLimitCheck) : Prop :=
  allowed (runMemory clock L call).2 = false →
    (L.SameUsage (runMemory clock L call).1 (clock 0) ↔ FullFirst L (clock 0) checks)

theorem refused_uncharged_iff (hL : L.Reached) (clock : ℕ → ℕ) (R : RateLimiter)
    (G : GovernanceRuntime) (clientId serverId toolName workspaceId : String) :
    UnchargedIffFullFirst clock L (R.consume clientId serverId toolName)
        RateLimitCheckResult.allowed (R.getChecks clientId serverId toolName) ∧
      UnchargedIffFullFirst clock L (R.consumeClientLimits clientId)
        RateLimitCheckResult.allowed (R.getClientChecks clientId) ∧
      UnchargedIffFullFirst clock L (R.consumeServerLimits clientId serverId toolName)
        RateLimitCheckResult.allowed (R.getServerChecks clientId serverId toolName) ∧
      UnchargedIffFullFirst clock L (G.consumeWorkspaceQuota workspaceId)
        GovernanceQuotaDecision.allowed (G.quotaChecks workspaceId) := by
  have hsized := hL.sized
  refine ⟨?_, ?_, ?_, sameUsage_consumeWorkspaceQuota_iff hsized⟩
  · exact sameUsage_evaluateChecks_iff hsized RateLimiter.distinct_getChecks
      (RateLimiter.length_getChecks_le.trans_lt (by decide))
  · exact sameUsage_evaluateChecks_iff hsized RateLimiter.distinct_getClientChecks
      (RateLimiter.length_getClientChecks_le.trans_lt (by decide))
  · exact sameUsage_evaluateChecks_iff hsized RateLimiter.distinct_getServerChecks
      (RateLimiter.length_getServerChecks_le.trans_lt (by decide))

section Example

-- two requests a minute for all and one for each client
def sharedLimits : RateLimiter where
  config :=
    { enabled := true
      global := some { requestsPerMinute := some 2 }
      perClient := some { requestsPerMinute := some 1 } }

def noGovernance : GovernanceRuntime where
  config := none
  hasStore := false

def afterOneRequest : SlidingWindowLimiter :=
  [.consume "global" 2 60000 0, .consume "client:a" 1 60000 0].foldl obey (init none)

def afterTwoRequests : SlidingWindowLimiter :=
  [.consume "global" 2 60000 0, .consume "client:a" 1 60000 0, .consume "global" 2 60000 0,
    .consume "client:b" 1 60000 0].foldl obey (init none)

theorem refused_uncharged_iff_third :
    afterTwoRequests.SameUsage
      (runMemory (fun _ => 1) afterTwoRequests (sharedLimits.consumeClientLimits "c")).1 1 :=
  ((refused_uncharged_iff ⟨_, rfl⟩ (fun _ => 1) sharedLimits noGovernance "c" "crm" "t" "w").2.1
    (by decide)).mpr (by decide)

-- the client's own limit refuses its second request, which all the same counts globally
theorem refused_request_charged :
    afterOneRequest.Reached ∧
      (runMemory (fun _ => 1) afterOneRequest (sharedLimits.consume "a" "crm" "t")).2.allowed =
        false ∧
      ¬ afterOneRequest.SameUsage
        (runMemory (fun _ => 1) afterOneRequest (sharedLimits.consume "a" "crm" "t")).1 1 := by
  refine ⟨⟨_, rfl⟩, by decide, fun hsame => ?_⟩
  have hglobal := hsame "global" 60000
  revert hglobal
  decide

end Example

end Conduit.Governance
