import Conduit.Utils.Pattern

namespace Conduit.Auth

open Utils

inductive AclAction where
  | allow
  | deny
deriving DecidableEq, Repr

structure AclRule where
  server : String
  tools : List String
deriving DecidableEq, Repr

structure AclPolicy where
  name : String
  clients : List String
  allow : Option (List AclRule) := none
  deny : Option (List AclRule) := none
deriving DecidableEq, Repr

structure AclConfig where
  enabled : Bool
  defaultAction : AclAction
  policies : List AclPolicy
deriving DecidableEq, Repr

structure AclDecision where
  allowed : Bool
  policyName : String
  reason : String
deriving DecidableEq, Repr

def clientMatchesPolicy (clientId : String) (clients : List String) : Bool :=
  clients.any fun pattern => matchesPattern pattern clientId

def toolMatchesRule (toolName : String) (toolPatterns : List String) : Bool :=
  toolPatterns.any fun pattern => matchesPattern pattern toolName

def serverMatchesRule (serverId serverPattern : String) : Bool :=
  matchesPattern serverPattern serverId

def ruleMatches (serverId toolName : String) (rule : AclRule) : Bool :=
  serverMatchesRule serverId rule.server && toolMatchesRule toolName rule.tools

def evaluatePolicy (serverId toolName : String) (policy : AclPolicy) : AclDecision :=
  if (policy.deny.getD []).any (ruleMatches serverId toolName) then
    { allowed := false
      policyName := policy.name
      reason :=
        s!"Refusé par la politique \"{policy.name}\" : outil \"{toolName}\" sur \"{serverId}\"" }
  else if (policy.allow.getD []).any (ruleMatches serverId toolName) then
    { allowed := true
      policyName := policy.name
      reason :=
        s!"Autorisé par la politique \"{policy.name}\" : outil \"{toolName}\" sur \"{serverId}\"" }
  else
    { allowed := false
      policyName := policy.name
      reason :=
        s!"Aucune règle dans \"{policy.name}\" pour l'outil \"{toolName}\" sur \"{serverId}\"" }

def evaluateAcl (clientId serverId toolName : String) (policies : List AclPolicy)
    (defaultAction : AclAction) : AclDecision :=
  match policies with
  | [] =>
      { allowed := defaultAction = .allow
        policyName := ""
        reason :=
          if defaultAction = .allow then
            "Aucune politique trouvée, action par défaut : autoriser"
          else "Aucune politique trouvée, action par défaut : refuser" }
  | policy :: rest =>
      if clientMatchesPolicy clientId policy.clients then evaluatePolicy serverId toolName policy
      else evaluateAcl clientId serverId toolName rest defaultAction

end Conduit.Auth
