import Conduit.Governance.Store

namespace Conduit.Governance

def defaultApproverRoles : List WorkspaceRole := [.owner, .admin, .approver]

def defaultApprovalTtlSeconds : ℤ := 3600

inductive ApprovalVerdict where
  | approved
  | rejected
deriving DecidableEq, Repr

def ApprovalVerdict.status : ApprovalVerdict → ApprovalStatus
  | .approved => .approved
  | .rejected => .rejected

structure GovernancePrincipal where
  clientId : String
  tenantId : String

structure GovernanceApprovalDecision where
  request : ApprovalRow
  requiredRoles : List WorkspaceRole

namespace GovernanceRuntime

variable (G : GovernanceRuntime)

def approvals : Option GovernanceApprovalsConfig := G.config.bind (·.approvals)

def approvalTtlMs : ℤ := (G.approvals.bind (·.ttlSeconds)).getD defaultApprovalTtlSeconds * 1000

def requiredRoles : List WorkspaceRole :=
  (G.approvals.bind (·.requiredRoles)).getD defaultApproverRoles

def allowSelfApproval : Bool := (G.approvals.bind (·.allowSelfApproval)).getD false

def createApprovalRequest (S : GovernanceStore) (input : CreateGovernanceApprovalRequestInput)
    (id : String) (now : ℤ) : GovernanceStore × Except String ApprovalRow :=
  if G.hasStore then S.createOrReuseApprovalRequest input (now + G.approvalTtlMs) id now
  else (S, .error "Governance store is disabled")

def verifyApprovalGrant (host : Host) (S : GovernanceStore)
    (approvalId workspaceId requesterClientId serverId toolName : String)
    (toolArgs : List (String × Json)) (now : ℤ) : GovernanceStore × Option ApprovalRow :=
  if G.hasStore then
    S.verifyApprovalGrant
      { approvalId := approvalId
        workspaceId := workspaceId
        requesterClientId := requesterClientId
        serverId := serverId
        toolName := toolName
        requestFingerprint := buildRequestFingerprint host serverId toolName toolArgs } now
  else (S, none)

def mayDecide (workspaceId approverClientId : String) : Bool :=
  G.requiredRoles.any (G.getRolesForClient workspaceId approverClientId).contains

-- the exceptions of decideApproval before it updates the request
def decisionError (existing : ApprovalRow) (approvalId approverClientId : String)
    (authenticatedPrincipal : Option GovernancePrincipal) : Option String :=
  if existing.status ≠ .pending then
    some ("Approval request \"" ++ approvalId ++ "\" is already " ++ existing.status.name)
  else
    match authenticatedPrincipal.filter fun p => p.clientId ≠ approverClientId with
    | some principal =>
        some ("Approver impersonation: authenticated client \"" ++ principal.clientId ++
          "\" cannot decide as \"" ++ approverClientId ++ "\"")
    | none =>
        if !G.mayDecide existing.workspaceId approverClientId then
          some ("Client \"" ++ approverClientId ++ "\" cannot decide approvals in workspace \"" ++
            existing.workspaceId ++ "\"")
        else if !G.allowSelfApproval && existing.requesterClientId = approverClientId then
          some "Self approval is not allowed"
        else none

def decideApproval (S : GovernanceStore) (approvalId approverClientId : String)
    (decision : ApprovalVerdict) (note : Option String)
    (authenticatedPrincipal : Option GovernancePrincipal) (now : ℤ) :
    GovernanceStore × Except String GovernanceApprovalDecision :=
  if !G.hasStore then (S, .error "Governance store is disabled")
  else
    let r := S.getApprovalRequest approvalId now
    match r.2 with
    | none => (r.1, .error ("Approval request \"" ++ approvalId ++ "\" not found"))
    | some existing =>
        match G.decisionError existing approvalId approverClientId authenticatedPrincipal with
        | some error => (r.1, .error error)
        | none =>
            let decided := r.1.decideRequest approvalId decision.status approverClientId note now
            match decided.2 with
            | some request => (decided.1, .ok ⟨request, G.requiredRoles⟩)
            | none =>
                (decided.1,
                  .error ("Approval request \"" ++ approvalId ++ "\" could not be updated"))

end GovernanceRuntime

inductive ApprovalCall where
  | createApprovalRequest (input : CreateGovernanceApprovalRequestInput) (id : String)
  | decideApproval (approvalId approverClientId : String) (decision : ApprovalVerdict)
      (note : Option String) (authenticatedPrincipal : Option GovernancePrincipal)
  | verifyApprovalGrant (approvalId workspaceId requesterClientId serverId toolName : String)
      (toolArgs : List (String × Json))

inductive ApprovalAnswer where
  | created (result : Except String ApprovalRow)
  | decided (result : Except String GovernanceApprovalDecision)
  | verified (grant : Option ApprovalRow)

structure ApprovalEvent where
  time : ℤ
  call : ApprovalCall
  answer : ApprovalAnswer

-- the log has the latest call first
structure ApprovalWorld where
  clock : ℤ
  store : GovernanceStore
  log : List ApprovalEvent

namespace ApprovalWorld

variable (G : GovernanceRuntime) (host : Host)

def init (clock : ℤ) : ApprovalWorld where
  clock := clock
  store := .empty
  log := []

def serve (S : GovernanceStore) (now : ℤ) : ApprovalCall → GovernanceStore × ApprovalAnswer
  | .createApprovalRequest input id =>
      let r := G.createApprovalRequest S input id now
      (r.1, .created r.2)
  | .decideApproval approvalId approverClientId decision note authenticatedPrincipal =>
      let r := G.decideApproval S approvalId approverClientId decision note
        authenticatedPrincipal now
      (r.1, .decided r.2)
  | .verifyApprovalGrant approvalId workspaceId requesterClientId serverId toolName toolArgs =>
      let r := G.verifyApprovalGrant host S approvalId workspaceId requesterClientId serverId
        toolName toolArgs now
      (r.1, .verified r.2)

-- a call made some time after the one before
def step (w : ApprovalWorld) (act : ℕ × ApprovalCall) : ApprovalWorld :=
  let now := w.clock + act.1
  let r := serve G host w.store now act.2
  ⟨now, r.1, ⟨now, act.2, r.2⟩ :: w.log⟩

def run (clock : ℤ) (acts : List (ℕ × ApprovalCall)) : ApprovalWorld :=
  acts.foldl (step G host) (init clock)

end ApprovalWorld

end Conduit.Governance
