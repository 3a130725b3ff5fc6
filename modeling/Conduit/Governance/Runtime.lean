import Conduit.Config.Host
import Conduit.Foundation.Text
import Conduit.RateLimit.Types
import Conduit.Utils.DeepSort
import Conduit.Utils.Pattern

namespace Conduit.Governance

open Utils

inductive WorkspaceRole where
  | owner
  | admin
  | approver
  | operator
  | developer
  | viewer
deriving DecidableEq, Repr

def workspaceRoles : List WorkspaceRole :=
  [.owner, .admin, .approver, .operator, .developer, .viewer]

def WorkspaceRole.name : WorkspaceRole → String
  | .owner => "owner"
  | .admin => "admin"
  | .approver => "approver"
  | .operator => "operator"
  | .developer => "developer"
  | .viewer => "viewer"

structure GovernanceRoleBindingConfig where
  workspaceId : String
  role : WorkspaceRole
  clients : List String

inductive PolicyEffect where
  | allow
  | deny
  | requireApproval
deriving DecidableEq, Repr

structure GovernanceToolPolicyConfig where
  name : String
  workspaceIds : Option (List String) := none
  roles : Option (List WorkspaceRole) := none
  clients : Option (List String) := none
  servers : Option (List String) := none
  tools : Option (List String) := none
  effect : PolicyEffect
  reason : Option String := none

inductive RegistryEffect where
  | allow
  | deny
deriving DecidableEq, Repr

structure GovernanceRegistryPolicyConfig where
  name : String
  workspaceIds : Option (List String) := none
  roles : Option (List WorkspaceRole) := none
  clients : Option (List String) := none
  serverNames : Option (List String) := none
  packageTypes : Option (List String) := none
  installModes : Option (List String) := none
  effect : RegistryEffect
  reason : Option String := none

structure GovernanceWorkspaceQuotaConfig extends RateLimit.ToolRateLimitConfig where
  workspaceId : String

structure GovernanceQuotasConfig where
  default : Option RateLimit.ToolRateLimitConfig := none
  workspaces : Option (List GovernanceWorkspaceQuotaConfig) := none

structure GovernanceApprovalsConfig where
  enabled : Option Bool := none
  ttlSeconds : Option ℤ := none
  requiredRoles : Option (List WorkspaceRole) := none
  allowSelfApproval : Option Bool := none

structure GovernanceConfig where
  enabled : Bool
  registryDefaultAction : Option RegistryEffect := none
  roleBindings : Option (List GovernanceRoleBindingConfig) := none
  toolPolicies : Option (List GovernanceToolPolicyConfig) := none
  registryPolicies : Option (List GovernanceRegistryPolicyConfig) := none
  quotas : Option GovernanceQuotasConfig := none
  approvals : Option GovernanceApprovalsConfig := none

structure GovernanceToolSubject where
  workspaceId : String
  clientId : String
  roles : List WorkspaceRole
  serverId : String
  toolName : String

structure GovernanceToolPolicyDecision where
  effect : PolicyEffect
  policyName : String
  reason : String
deriving DecidableEq, Repr

inductive ApprovalStatus where
  | pending
  | approved
  | rejected
  | expired
deriving DecidableEq, Repr

def ApprovalStatus.name : ApprovalStatus → String
  | .pending => "pending"
  | .approved => "approved"
  | .rejected => "rejected"
  | .expired => "expired"

inductive ApprovalSource where
  | guardrail
  | governance
deriving DecidableEq, Repr

structure GovernanceApprovalRequestSummary where
  id : String
  status : ApprovalStatus
  workspaceId : String
  expiresAt : String
deriving DecidableEq, Repr

structure GovernanceApprovalGrantQuery where
  approvalId : String
  workspaceId : String
  requesterClientId : String
  serverId : String
  toolName : String
  requestFingerprint : String
deriving DecidableEq, Repr

structure CreateGovernanceApprovalRequestInput where
  source : ApprovalSource
  workspaceId : String
  requesterClientId : String
  serverId : String
  toolName : String
  ruleName : String
  reason : String
  traceId : String
  requestFingerprint : String
  toolArgs : List (String × Json)
deriving DecidableEq

structure GovernanceQuotaDecision where
  allowed : Bool
  workspaceId : String
  remaining : WithTop ℤ
  limit : WithTop ℤ
  resetAt : ℤ
  retryAfter : Option ℤ := none
  blockedBy : Option String := none
deriving DecidableEq

def buildRequestFingerprint (host : Host) (serverId toolName : String)
    (toolArgs : List (String × Json)) : String :=
  host.sha256 (serverId ++ "\n" ++ toolName ++ "\n" ++ deterministicStringify (.obj toolArgs))

def inScope (patterns : Option (List String)) (value : String) : Bool :=
  match patterns with
  | none => true
  | some patterns => patterns = [] || matchesAnyPattern patterns value

def hasRole (wanted : Option (List WorkspaceRole)) (roles : List WorkspaceRole) : Bool :=
  match wanted with
  | none => true
  | some wanted => wanted = [] || wanted.any roles.contains

def matchesToolPolicy (policy : GovernanceToolPolicyConfig) (subject : GovernanceToolSubject) :
    Bool :=
  inScope policy.workspaceIds subject.workspaceId && hasRole policy.roles subject.roles &&
    inScope policy.clients subject.clientId && inScope policy.servers subject.serverId &&
    inScope policy.tools subject.toolName

def decide (policy : GovernanceToolPolicyConfig) : GovernanceToolPolicyDecision where
  effect := policy.effect
  policyName := policy.name
  reason := policy.reason.getD s!"Governance policy \"{policy.name}\" matched"

def noPolicyMatched : GovernanceToolPolicyDecision where
  effect := .allow
  policyName := ""
  reason := "No governance tool policy matched"

structure GovernanceRegistrySubject where
  workspaceId : String
  clientId : Option String := none
  roles : List WorkspaceRole
  serverName : String
  packageTypes : List String
  installMode : Option String := none

structure GovernanceRegistryDecision where
  allowed : Bool
  effect : RegistryEffect
  policyName : String
  reason : String
  workspaceId : String
  roles : List WorkspaceRole
deriving DecidableEq, Repr

def listsType (types : Option (List String)) (offered : List String) : Bool :=
  match types with
  | none => true
  | some types => types = [] || offered.any fun value =>
        (types.map Text.toLowerCase).contains (Text.toLowerCase value)

-- a policy that lists install modes is open to those, any other to every mode
def opensTo (policy : GovernanceRegistryPolicyConfig) (installMode : Option String) : Bool :=
  match policy.installModes with
  | none => true
  | some modes => modes = [] || installMode.any modes.contains

def clientInScope (clients : Option (List String)) (clientId : Option String) : Bool :=
  match clients with
  | none => true
  | some clients => clients = [] || (clientId.filter (· ≠ "")).any (matchesAnyPattern clients)

def matchesRegistryPolicy (policy : GovernanceRegistryPolicyConfig)
    (subject : GovernanceRegistrySubject) : Bool :=
  inScope policy.workspaceIds subject.workspaceId && hasRole policy.roles subject.roles &&
    clientInScope policy.clients subject.clientId && inScope policy.serverNames subject.serverName &&
    listsType policy.packageTypes subject.packageTypes && opensTo policy subject.installMode

structure GovernanceRuntime where
  config : Option GovernanceConfig
  hasStore : Bool

namespace GovernanceRuntime

variable (G : GovernanceRuntime)

def isEnabled : Bool := (G.config.any (·.enabled)) && G.hasStore

def getRolesForClient (workspaceId clientId : String) : List WorkspaceRole :=
  let bindings := ((G.config.bind (·.roleBindings)).getD []).filter fun binding =>
    binding.workspaceId = workspaceId && matchesAnyPattern binding.clients clientId
  workspaceRoles.filter fun role => bindings.any fun binding => binding.role = role

def evaluateToolPolicy (subject : GovernanceToolSubject) : GovernanceToolPolicyDecision :=
  let policies := (G.config.bind (·.toolPolicies)).getD []
  match policies.find? (matchesToolPolicy · subject) with
  | some policy => decide policy
  | none => noPolicyMatched

def canViewTool (subject : GovernanceToolSubject) : Bool :=
  (G.evaluateToolPolicy subject).effect ≠ .deny

def registryDefaultAction : RegistryEffect :=
  (G.config.bind (·.registryDefaultAction)).getD .allow

def registryVerdict (subject : GovernanceRegistrySubject) (effect : RegistryEffect)
    (policyName reason : String) : GovernanceRegistryDecision where
  allowed := effect = .allow
  effect := effect
  policyName := policyName
  reason := reason
  workspaceId := subject.workspaceId
  roles := subject.roles

def evaluateRegistryPolicy (subject : GovernanceRegistrySubject) : GovernanceRegistryDecision :=
  let policies := (G.config.bind (·.registryPolicies)).getD []
  match policies.find? (matchesRegistryPolicy · subject) with
  | some policy =>
      registryVerdict subject policy.effect policy.name
        (policy.reason.getD ("Registry policy \"" ++ policy.name ++ "\" matched"))
  | none =>
      registryVerdict subject G.registryDefaultAction "" "No governance registry policy matched"

end GovernanceRuntime

end Conduit.Governance
