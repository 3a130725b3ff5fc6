import Conduit.Config.Host
import Conduit.Utils.Pattern

namespace Conduit.Guardrails

open Utils

inductive ConditionOperator where
  | eq
  | neq
  | gt
  | gte
  | lt
  | lte
  | contains
  | notContains
  | regexMatches
  | exists
  | notExists
deriving DecidableEq, Repr

inductive GuardrailAction where
  | block
  | alert
  | requireApproval
  | transform
  | allow
deriving DecidableEq, Repr

inductive DefaultAction where
  | allow
  | block
deriving DecidableEq, Repr

structure GuardrailCondition where
  field : String
  operator : ConditionOperator
  value : Option Json := none

structure GuardrailRule where
  name : String
  tools : Option (List String) := none
  clients : Option (List String) := none
  servers : Option (List String) := none
  bypass : Bool := false
  conditions : Option (List GuardrailCondition) := none
  action : GuardrailAction
  message : Option String := none

structure GuardrailsConfig where
  enabled : Bool
  defaultAction : DefaultAction
  rules : List GuardrailRule

structure GuardrailContext where
  clientId : String
  serverId : String
  toolName : String
  toolArgs : List (String × Json)

structure GuardrailDecision where
  action : GuardrailAction
  ruleName : String
  reason : String
deriving DecidableEq

def splitDots : List Char → List String
  | [] => [""]
  | '.' :: rest => "" :: splitDots rest
  | c :: rest =>
      match splitDots rest with
      | [] => [String.ofList [c]]
      | part :: parts => String.ofList (c :: part.toList) :: parts

-- own properties of a value, an array's elements and length among them
def property? (value : Json) (key : String) : Option Json :=
  match value with
  | .obj fields => Json.field fields key
  | .arr items =>
      if key = "length" then some (.ofNat items.length)
      else Json.field (Json.indexed 0 items) key
  | _ => none

def resolveField (args : List (String × Json)) (fieldPath : String) : Option Json :=
  (splitDots fieldPath.toList).foldl (fun current part => current.bind (property? · part))
    (some (.obj args))

-- objects and arrays are compared by reference, never the same one here
def strictEquals : Json → Option Json → Bool
  | .obj _, _ => false
  | .arr _, _ => false
  | v, some w => v = w
  | _, none => false

def decimalLe (a b : Decimal) : Bool :=
  let e := min a.exponent b.exponent
  a.mantissa * 10 ^ (a.exponent - e).toNat ≤ b.mantissa * 10 ^ (b.exponent - e).toNat

def numberLe : JsNumber → JsNumber → Bool
  | .negInfinity, _ => true
  | _, .posInfinity => true
  | .finite a, .finite b => decimalLe a b
  | .finite _, .negInfinity => false
  | .posInfinity, .finite _ => false
  | .posInfinity, .negInfinity => false

def compareNumbers (le : JsNumber → JsNumber → Bool) : Json → Option Json → Bool
  | .num a, some (.num b) => le a b
  | _, _ => false

def isInfix (needle : List Char) : List Char → Bool
  | [] => needle = []
  | c :: rest => needle.isPrefixOf (c :: rest) || isInfix needle rest

def includes (actual : Json) (expected : Option Json) : Option Bool :=
  match actual, expected with
  | .str s, some (.str t) => some (isInfix t.toList s.toList)
  | .arr items, _ => some (items.any fun item => strictEquals item expected)
  | _, _ => none

def compareValue (host : Host) (actual : Json) (operator : ConditionOperator)
    (expected : Option Json) : Bool :=
  match operator with
  | .eq => strictEquals actual expected
  | .neq => !strictEquals actual expected
  | .gt => compareNumbers (fun a b => !numberLe a b) actual expected
  | .gte => compareNumbers (fun a b => numberLe b a) actual expected
  | .lt => compareNumbers (fun a b => !numberLe b a) actual expected
  | .lte => compareNumbers numberLe actual expected
  | .contains => (includes actual expected).getD false
  | .notContains => ((includes actual expected).map not).getD true
  | .regexMatches =>
      match actual, expected with
      | .str s, some (.str pattern) => (host.regExpTest pattern s).getD false
      | _, _ => false
  | .exists => false
  | .notExists => false

def evaluateCondition (host : Host) (condition : GuardrailCondition)
    (args : List (String × Json)) : Bool :=
  match condition.operator, resolveField args condition.field with
  | .exists, actual => actual.isSome
  | .notExists, actual => actual.isNone
  | _, none => false
  | operator, some actual => compareValue host actual operator condition.value

def inScope (patterns : Option (List String)) (value : String) : Bool :=
  match patterns with
  | none => true
  | some patterns => patterns = [] || matchesAnyPattern patterns value

def bypassed (context : GuardrailContext) (rule : GuardrailRule) : GuardrailDecision where
  action := .allow
  ruleName := rule.name
  reason := s!"Bypass par la règle \"{rule.name}\" pour le client \"{context.clientId}\""

def triggered (context : GuardrailContext) (rule : GuardrailRule) : GuardrailDecision where
  action := rule.action
  ruleName := rule.name
  reason := rule.message.getD
    s!"Règle \"{rule.name}\" déclenchée sur l'outil \"{context.toolName}\""

-- `none` when the rule is passed over
def evaluateRule (host : Host) (context : GuardrailContext) (rule : GuardrailRule) :
    Option GuardrailDecision :=
  if inScope rule.clients context.clientId && inScope rule.servers context.serverId then
    if rule.bypass then some (bypassed context rule)
    else if inScope rule.tools context.toolName &&
        (rule.conditions.getD []).all (evaluateCondition host · context.toolArgs) then
      some (triggered context rule)
    else none
  else none

def defaultDecision (config : GuardrailsConfig) : GuardrailDecision :=
  match config.defaultAction with
  | .allow =>
      ⟨.allow, "", "Aucune règle guardrail déclenchée, action par défaut : autoriser"⟩
  | .block =>
      ⟨.block, "", "Aucune règle guardrail déclenchée, action par défaut : bloquer"⟩

def evaluateGuardrails (host : Host) (context : GuardrailContext) (config : GuardrailsConfig) :
    GuardrailDecision :=
  (config.rules.findSome? (evaluateRule host context)).getD (defaultDecision config)

end Conduit.Guardrails
