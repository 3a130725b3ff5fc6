import Conduit.Gateway.Discipline
import Conduit.Gateway.Routing

namespace Conduit.Gateway

open Router Governance Cache Proxy Identity Program

-- the call is about to reach an upstream, or ends with something that came from one
def Serves : Proc Outcome → Prop
  | .op (.forward _ _) _ => True
  | .op _ _ => False
  | .pure out => out.origin.isSome = true
  | .exit out => out.origin.isSome = true

instance Serves.decidable : ∀ q, Decidable (Serves q)
  | .pure out => inferInstanceAs (Decidable (out.origin.isSome = true))
  | .exit out => inferInstanceAs (Decidable (out.origin.isSome = true))
  | .op o _ => by
      cases o <;> first | exact isTrue trivial | exact isFalse id

theorem not_serves_of_isAdmission {o : Op} {next : Ans o → Proc Outcome}
    (h : o.isAdmission = true) : ¬ Serves (.op o next) := by
  cases o <;> first | exact id | cases h

variable {P : RequestPipeline} {call : ToolCall}

theorem served_of_serves {tr : Trace} {q : Proc Outcome} (h : Steps (P.handleToolCall call) tr q)
    (hserves : Serves q) : ∃ service tr₁ tr₂, tr = tr₁ ++ tr₂ ∧
      Steps (P.admission call) tr₁ (.pure service) ∧ Steps (P.dispatch call service) tr₂ q := by
  rcases RequestPipeline.handleToolCall_cases h with ⟨-, hpending⟩ | hserved
  · rcases hpending with ⟨o, next, rfl, ho⟩ | ⟨out, rfl, hnone⟩
    · exact absurd hserves (not_serves_of_isAdmission ho)
    · rw [Serves, hnone] at hserves
      cases hserves
  · exact hserved

theorem handleToolCall_mediated {tr : Trace} {q : Proc Outcome}
    (h : Steps (P.handleToolCall call) tr q) (hserves : Serves q) :
    ∃ resolution routed,
      Answered tr (.resolve call.directServerId call.toolName) resolution ∧
      resolution.routed? call.serverId call.toolName = some routed ∧
      (∀ client options next, q = .op (.forward client options) next → client = routed.client) ∧
      Mediated P call ⟨routed.serverId, routed.toolName⟩ tr := by
  obtain ⟨service, tr₁, tr₂, rfl, hadmit, hdispatch⟩ := served_of_serves h hserves
  have hadmits := RequestPipeline.admits_of_steps hadmit
  obtain ⟨resolution, routed, annotations, hresolve, hactual, hrouted, hclient, -⟩ :=
    hadmits.resolved
  have hextends := List.prefix_append tr₁ tr₂
  refine ⟨resolution, routed, hresolve.mono hextends, hrouted, ?_, ?_⟩
  · rintro client options next rfl
    exact (RequestPipeline.emits_of_steps hdispatch).1.trans hclient
  · rw [← routed_serverId hrouted, ← hactual]
    exact hadmits.mediated.mono hextends

section Example

def plainHost : Host where
  sha256 := id
  regExpTest := fun _ _ => none
  jwtVerify := fun _ _ _ => .error "signature verification failed"
  parseBase64Json := fun _ => none

-- everything allowed, every grant found, every cache empty
def permissive : (o : Op) → Ans o
  | .runHook _ => none
  | .resolve serverId toolName =>
      ⟨serverId.map fun s => ⟨s, 0⟩, none,
        if serverId.isSome then none else some ⟨"crm", toolName, ⟨"crm", 0⟩⟩⟩
  | .getClientForServer serverId => some ⟨serverId, 0⟩
  | .getAggregatedTools => []
  | .updateAnnotations _ _ => ()
  | .getAnnotations _ _ => {}
  | .verifyApprovalGrant query => some ⟨query.approvalId, .approved, query.workspaceId, "2030"⟩
  | .createApprovalRequest input => ⟨"a2", .pending, input.workspaceId, "2030"⟩
  | .consumeWorkspaceQuota workspaceId => ⟨true, workspaceId, ⊤, ⊤, 60000, none, none⟩
  | .consumeClientLimits _ => { allowed := true }
  | .consumeServerLimits _ _ _ => { allowed := true }
  | .forward _ _ => .ok { body := .obj [("result", .obj [])] }
  | .l1Get _ => none
  | .l1Set _ _ => ()
  | .l1DeleteByTool _ _ => ()
  | .l2Get _ => none
  | .l2Set _ _ _ => ()
  | .l2DeleteByTool _ _ => ()
  | .enterFlight _ => .started 0
  | .settleFlight _ _ => ()
  | .awaitFlight _ => ⟨.resolved (.obj []), 0⟩
  | .now => 0

def toolsCall (params : Json) : Json :=
  .obj [("jsonrpc", .str "2.0"), ("id", .ofNat 1), ("method", .str "tools/call"),
    ("params", params)]

def strictPipeline : RequestPipeline where
  host := plainHost
  config :=
    { servers := [{ id := "crm", url := "http://crm" }]
      acl := some
        { enabled := true
          defaultAction := .deny
          policies :=
            [{ name := "agents", clients := ["agent-*"], allow := some [⟨"crm", ["delete_*"]⟩] }] }
      governance := some
        { enabled := true
          toolPolicies := some
            [{ name := "deletions", tools := some ["delete_*"], effect := .requireApproval }] }
      guardrails := some
        { enabled := true
          defaultAction := .allow
          rules := [{ name := "bulk", action := .requireApproval }] }
      rateLimits := some { enabled := true } }
  hasGovernanceStore := true
  hasRateLimiter := true

def approvedCall : ToolCall where
  self := 0
  serverId := "crm"
  message := toolsCall (.obj [("name", .str "delete_contact"), ("arguments", .obj [])])
  context := { traceId := "t", rawHeaders := .set .empty approvalHeader "a1" }
  principal := { clientId := "agent-7", tenantId := "acme" }

def strictRun : Trace × Proc Outcome :=
  drive permissive 7 (strictPipeline.handleToolCall approvedCall)

theorem handleToolCall_mediated_strict : ∃ resolution routed,
    Answered strictRun.1 (.resolve (some "crm") "delete_contact") resolution ∧
    resolution.routed? "crm" "delete_contact" = some routed ∧
    (∀ client options next, strictRun.2 = .op (.forward client options) next →
      client = routed.client) ∧
    Mediated strictPipeline approvedCall ⟨routed.serverId, routed.toolName⟩ strictRun.1 :=
  handleToolCall_mediated (drive_steps permissive 7 _) (by decide)

end Example

end Conduit.Gateway
