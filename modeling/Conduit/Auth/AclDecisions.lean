import Conduit.Auth.Acl
import Conduit.Config.Types

namespace Conduit.Auth

open Utils

section Patterns

-- "*" stands for everything, "stem*" for what starts with the stem, the rest for itself
inductive PatternMatches (value : String) : String → Prop where
  | everything : PatternMatches value "*"
  | itself : PatternMatches value value
  | stem (stem rest : String) (h : value = stem ++ rest) : PatternMatches value (stem ++ "*")

variable {pattern value : String}

theorem matchesPattern_self (value : String) : matchesPattern value value = true := by
  rw [matchesPattern]
  split
  next => rfl
  next =>
    split
    next =>
      rw [List.isPrefixOf_iff_prefix]
      exact List.dropLast_prefix _
    next => exact decide_eq_true rfl

theorem matchesPattern_stem (stem rest : String) :
    matchesPattern (stem ++ "*") (stem ++ rest) = true := by
  have hchars : (stem ++ "*").toList = stem.toList ++ ['*'] := by
    rw [String.toList_append]
    rfl
  rw [matchesPattern]
  split
  next => rfl
  next =>
    rw [hchars, List.getLast?_concat, if_pos rfl, List.dropLast_concat, String.toList_append,
      List.isPrefixOf_iff_prefix]
    exact List.prefix_append _ _

theorem matchesPattern_iff :
    matchesPattern pattern value = true ↔ PatternMatches value pattern := by
  constructor
  · intro h
    rw [matchesPattern] at h
    split at h
    next heq => exact heq ▸ .everything
    next =>
      split at h
      next hlast =>
        obtain ⟨rest, hrest⟩ := List.isPrefixOf_iff_prefix.mp h
        have hpattern : pattern = String.ofList pattern.toList.dropLast ++ "*" := by
          apply String.toList_injective
          rw [String.toList_append, String.toList_ofList]
          exact (List.dropLast_append_getLast? '*' hlast).symm
        have hvalue : value = String.ofList pattern.toList.dropLast ++ String.ofList rest := by
          apply String.toList_injective
          rw [String.toList_append, String.toList_ofList, String.toList_ofList, hrest]
        rw [hpattern]
        exact .stem _ _ hvalue
      next => exact of_decide_eq_true h ▸ .itself
  · intro h
    cases h with
    | everything => rfl
    | itself => exact matchesPattern_self _
    | stem stem rest h => exact h ▸ matchesPattern_stem stem rest

end Patterns

section Rules

variable (clientId serverId toolName : String)

def ClientMatches (policy : AclPolicy) : Prop :=
  ∃ pattern ∈ policy.clients, PatternMatches clientId pattern

def RuleMatches (rule : AclRule) : Prop :=
  PatternMatches serverId rule.server ∧ ∃ pattern ∈ rule.tools, PatternMatches toolName pattern

def Denies (policy : AclPolicy) : Prop :=
  ∃ rule ∈ policy.deny.getD [], RuleMatches serverId toolName rule

def Allows (policy : AclPolicy) : Prop :=
  ∃ rule ∈ policy.allow.getD [], RuleMatches serverId toolName rule

-- the first of the policies whose clients match
def First (policies : List AclPolicy) (policy : AclPolicy) : Prop :=
  ∃ before after, policies = before ++ policy :: after ∧
    (∀ other ∈ before, ¬ ClientMatches clientId other) ∧ ClientMatches clientId policy

-- the default action decides only where no policy is about the client
def Permitted (policies : List AclPolicy) (defaultAction : AclAction) : Prop :=
  (∃ policy, First clientId policies policy ∧ ¬ Denies serverId toolName policy ∧
      Allows serverId toolName policy) ∨
    (∀ policy ∈ policies, ¬ ClientMatches clientId policy) ∧ defaultAction = .allow

def filterToolsList (tools : List ToolMetadata) (policies : List AclPolicy)
    (defaultAction : AclAction) : List ToolMetadata :=
  tools.filter fun tool =>
    (evaluateAcl clientId serverId tool.name policies defaultAction).allowed

variable {clientId serverId toolName}

theorem clientMatchesPolicy_iff {policy : AclPolicy} :
    clientMatchesPolicy clientId policy.clients = true ↔ ClientMatches clientId policy := by
  simp only [clientMatchesPolicy, ClientMatches, List.any_eq_true, matchesPattern_iff]

theorem ruleMatches_iff {rule : AclRule} :
    ruleMatches serverId toolName rule = true ↔ RuleMatches serverId toolName rule := by
  simp only [ruleMatches, serverMatchesRule, toolMatchesRule, RuleMatches, Bool.and_eq_true,
    List.any_eq_true, matchesPattern_iff]

theorem allowed_evaluatePolicy_iff {policy : AclPolicy} :
    (evaluatePolicy serverId toolName policy).allowed = true ↔
      ¬ Denies serverId toolName policy ∧ Allows serverId toolName policy := by
  have hdeny : (policy.deny.getD []).any (ruleMatches serverId toolName) = true ↔
      Denies serverId toolName policy := by
    simp only [List.any_eq_true, ruleMatches_iff, Denies]
  have hallow : (policy.allow.getD []).any (ruleMatches serverId toolName) = true ↔
      Allows serverId toolName policy := by
    simp only [List.any_eq_true, ruleMatches_iff, Allows]
  rw [evaluatePolicy]
  split
  next h => simp [hdeny.mp h]
  next h =>
    have hnot : ¬ Denies serverId toolName policy := fun hd => h (hdeny.mpr hd)
    split
    next h' => simp [hnot, hallow.mp h']
    next h' =>
      have hnone : ¬ Allows serverId toolName policy := fun ha => h' (hallow.mpr ha)
      simp [hnone]

theorem first_cons_of_match {policy other : AclPolicy} {rest : List AclPolicy}
    (h : ClientMatches clientId policy) :
    First clientId (policy :: rest) other ↔ other = policy := by
  constructor
  · rintro ⟨before, after, heq, hbefore, -⟩
    cases before with
    | nil => exact (List.cons.inj heq).1.symm
    | cons p before =>
        obtain ⟨rfl, -⟩ := List.cons.inj heq
        exact absurd h (hbefore policy (by simp))
  · rintro rfl
    exact ⟨[], rest, rfl, nofun, h⟩

theorem first_cons_of_not_match {policy other : AclPolicy} {rest : List AclPolicy}
    (h : ¬ ClientMatches clientId policy) :
    First clientId (policy :: rest) other ↔ First clientId rest other := by
  constructor
  · rintro ⟨before, after, heq, hbefore, hother⟩
    cases before with
    | nil => exact absurd ((List.cons.inj heq).1 ▸ hother) h
    | cons p before =>
        obtain ⟨rfl, rfl⟩ := List.cons.inj heq
        exact ⟨before, after, rfl, fun q hq => hbefore q (List.mem_cons_of_mem _ hq), hother⟩
  · rintro ⟨before, after, rfl, hbefore, hother⟩
    refine ⟨policy :: before, after, rfl, ?_, hother⟩
    intro q hq
    rcases List.mem_cons.mp hq with rfl | hq
    · exact h
    · exact hbefore q hq

theorem allowed_evaluateAcl_iff {policies : List AclPolicy} {defaultAction : AclAction} :
    (evaluateAcl clientId serverId toolName policies defaultAction).allowed = true ↔
      Permitted clientId serverId toolName policies defaultAction := by
  induction policies with
  | nil =>
      have hnone : ∀ policy, ¬ First clientId [] policy := by
        rintro policy ⟨before, after, heq, -⟩
        simp at heq
      simp [evaluateAcl, Permitted, hnone]
  | cons policy rest ih =>
      rw [evaluateAcl]
      split
      next h =>
        have hmatch := clientMatchesPolicy_iff.1 h
        rw [allowed_evaluatePolicy_iff]
        simp [Permitted, first_cons_of_match hmatch, hmatch]
      next h =>
        have hmatch : ¬ ClientMatches clientId policy :=
          fun hm => h (clientMatchesPolicy_iff.2 hm)
        rw [ih]
        simp [Permitted, first_cons_of_not_match hmatch, hmatch]

instance (policies : List AclPolicy) (defaultAction : AclAction) :
    Decidable (Permitted clientId serverId toolName policies defaultAction) :=
  decidable_of_iff _ allowed_evaluateAcl_iff

theorem acl_rule (clientId serverId toolName : String) (policies : List AclPolicy)
    (defaultAction : AclAction) (tools : List ToolMetadata) :
    ((evaluateAcl clientId serverId toolName policies defaultAction).allowed = true ↔
      Permitted clientId serverId toolName policies defaultAction) ∧
    filterToolsList clientId serverId tools policies defaultAction =
      tools.filter fun tool => Permitted clientId serverId tool.name policies defaultAction := by
  refine ⟨allowed_evaluateAcl_iff, ?_⟩
  rw [filterToolsList]
  apply List.filter_congr
  intro tool _
  rw [Bool.eq_iff_iff, decide_eq_true_iff]
  exact allowed_evaluateAcl_iff

-- the rule with the default action deciding inside a policy as well
def PermittedWithin (clientId serverId toolName : String) (policies : List AclPolicy)
    (defaultAction : AclAction) : Prop :=
  (∃ policy, First clientId policies policy ∧ ¬ Denies serverId toolName policy ∧
      (Allows serverId toolName policy ∨ defaultAction = .allow)) ∨
    (∀ policy ∈ policies, ¬ ClientMatches clientId policy) ∧ defaultAction = .allow

def readersPolicy : AclPolicy :=
  { name := "readers", clients := ["agent-*"], allow := some [⟨"crm", ["get_*"]⟩] }

theorem default_not_within :
    ¬ ((evaluateAcl "agent-1" "crm" "find" [readersPolicy] .allow).allowed = true ↔
      PermittedWithin "agent-1" "crm" "find" [readersPolicy] .allow) := by
  intro h
  have hmatch : ClientMatches "agent-1" readersPolicy := clientMatchesPolicy_iff.1 (by decide)
  have hdenies : ¬ Denies "crm" "find" readersPolicy := by
    rintro ⟨rule, hrule, -⟩
    exact nomatch hrule
  have hwithin : PermittedWithin "agent-1" "crm" "find" [readersPolicy] .allow :=
    .inl ⟨readersPolicy, (first_cons_of_match hmatch).mpr rfl, hdenies, .inr rfl⟩
  exact absurd (h.mpr hwithin) (by decide)

end Rules

end Conduit.Auth
