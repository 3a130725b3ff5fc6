import Conduit.Admin.RegistryImport

namespace Conduit.Admin

open Connect Governance
open Conduit.Runtime (Instant)

section Policies

variable {G : GovernanceRuntime} {policies : List GovernanceRegistryPolicyConfig}
  {a b : Option String}

-- what a policy asks of a request apart from its install mode
def fits (subject : GovernanceRegistrySubject) (policy : GovernanceRegistryPolicyConfig) : Bool :=
  matchesRegistryPolicy { policy with installModes := none } subject

theorem matchesRegistryPolicy_eq (policy : GovernanceRegistryPolicyConfig)
    (subject : GovernanceRegistrySubject) :
    matchesRegistryPolicy policy subject =
      (fits subject policy && opensTo policy subject.installMode) := by
  simp [fits, matchesRegistryPolicy, opensTo]

structure Ruling where
  effect : RegistryEffect
  policyName : String
  reason : String
deriving DecidableEq

def rulingOf (policy : GovernanceRegistryPolicyConfig) : Ruling where
  effect := policy.effect
  policyName := policy.name
  reason := policy.reason.getD ("Registry policy \"" ++ policy.name ++ "\" matched")

def defaultRuling (G : GovernanceRuntime) : Ruling where
  effect := G.registryDefaultAction
  policyName := ""
  reason := "No governance registry policy matched"

def firstRuling (G : GovernanceRuntime) (mode : Option String) :
    List GovernanceRegistryPolicyConfig → Ruling
  | [] => defaultRuling G
  | policy :: rest => if opensTo policy mode then rulingOf policy else firstRuling G mode rest

-- the first policy open to one of the two modes is open to both, or rules as the first one that
-- is open to the other does
def TreatsAlike (G : GovernanceRuntime) (a b : Option String) :
    List GovernanceRegistryPolicyConfig → Prop
  | [] => True
  | policy :: rest =>
      match opensTo policy a, opensTo policy b with
      | true, true => True
      | true, false => rulingOf policy = firstRuling G b rest
      | false, true => rulingOf policy = firstRuling G a rest
      | false, false => TreatsAlike G a b rest

theorem firstRuling_eq_iff :
    firstRuling G a policies = firstRuling G b policies ↔ TreatsAlike G a b policies := by
  induction policies with
  | nil => exact iff_of_true rfl trivial
  | cons policy rest ih =>
      unfold firstRuling TreatsAlike
      cases ha : opensTo policy a <;> cases hb : opensTo policy b
      · simpa using ih
      · simp [eq_comm]
      · simp
      · simp

def fittingPolicies (G : GovernanceRuntime) (subject : GovernanceRegistrySubject) :
    List GovernanceRegistryPolicyConfig :=
  ((G.config.bind (·.registryPolicies)).getD []).filter (fits subject)

def applied (subject : GovernanceRegistrySubject) (ruling : Ruling) : GovernanceRegistryDecision :=
  GovernanceRuntime.registryVerdict subject ruling.effect ruling.policyName ruling.reason

theorem applied_inj {subject : GovernanceRegistrySubject} {ruling ruling' : Ruling} :
    applied subject ruling = applied subject ruling' ↔ ruling = ruling' := by
  refine ⟨fun h => ?_, congrArg _⟩
  have heffect := congrArg GovernanceRegistryDecision.effect h
  have hname := congrArg GovernanceRegistryDecision.policyName h
  have hreason := congrArg GovernanceRegistryDecision.reason h
  cases ruling
  cases ruling'
  cases heffect
  cases hname
  cases hreason
  rfl

theorem evaluateRegistryPolicy_eq (subject : GovernanceRegistrySubject) :
    G.evaluateRegistryPolicy subject =
      applied subject (firstRuling G subject.installMode (fittingPolicies G subject)) := by
  unfold GovernanceRuntime.evaluateRegistryPolicy fittingPolicies
  generalize (G.config.bind (·.registryPolicies)).getD [] = policies
  induction policies with
  | nil => rfl
  | cons policy rest ih =>
      simp only [List.find?_cons, List.filter_cons, matchesRegistryPolicy_eq] at ih ⊢
      cases fits subject policy with
      | false => simpa using ih
      | true =>
          cases hopens : opensTo policy subject.installMode with
          | true => simp [firstRuling, hopens, applied, rulingOf]
          | false => simpa [firstRuling, hopens] using ih

end Policies

section Modes

variable (library : RegistryLibrary) (serverName version : String)

def foundEntry : Option RegistryLibraryStoredItem :=
  match getLibraryItem library serverName version with
  | .ok entry => entry
  | .error _ => none

-- the install mode in the library entry
def summaryMode : Option String :=
  (foundEntry library serverName version).map (·.item.installMode.name)

-- the install mode of the import option that comes first for the entry
def preferredMode : Option String :=
  (foundEntry library serverName version).bind fun entry =>
    (deriveImportOptions entry.raw).head?.map fun option => (installModeOf option.strategy).name

theorem summaryMode_eq_preferredMode_iff {entry : RegistryLibraryStoredItem} {option : ImportOption}
    (hentry : foundEntry library serverName version = some entry)
    (hoption : (deriveImportOptions entry.raw).head? = some option) :
    summaryMode library serverName version = preferredMode library serverName version ↔
      ¬ (hasRemotes entry.raw = true ∧ hasPackages entry.raw = true) := by
  have hmem := strategy_of_mem_deriveImportOptions (List.mem_of_head? hoption)
  simp only [summaryMode, preferredMode, hentry, Option.map_some, Option.bind_some, hoption,
    Option.some.injEq, RegistryLibraryStoredItem.item, scoreOfficialEntry, deriveInstallMode]
  cases hstrategy : option.strategy with
  | proxyRemote =>
      have hremotes := hmem.1 hstrategy
      cases hpackages : hasPackages entry.raw <;> simp [hremotes] <;> decide
  | conduitHostPackage =>
      have hpackages := hmem.2 hstrategy
      cases hremotes : hasRemotes entry.raw <;> simp [hpackages] <;> decide

end Modes

section Requests

def principalOf (body : Json) : Option Identity.AuthenticatedPrincipal :=
  match normalizePreflightPrincipal body with
  | .ok principal => principal
  | .error _ => none

def requestedServer (body : Json) : String := (textField body "server_name").getD ""

-- the same request with its strategy named
def naming (strategy : ConnectRegistryStrategy) : Json → Json
  | .obj fields => .obj (Json.setField fields "strategy" (.str strategy.name))
  | body => body

variable {body : Json} {strategy : ConnectRegistryStrategy}

theorem get?_naming {key : String} (h : "strategy" ≠ key) :
    (naming strategy body).get? key = body.get? key := by
  cases body with
  | obj fields => exact Json.get?_setField_of_ne fields _ h
  | null | bool b | num n | str s | arr items => rfl

theorem textField_naming {key : String} (h : "strategy" ≠ key) :
    textField (naming strategy body) key = textField body key := by
  rw [textField, get?_naming h, textField]

theorem trimmedField_naming {key : String} (h : "strategy" ≠ key) :
    trimmedField (naming strategy body) key = trimmedField body key := by
  rw [trimmedField, textField_naming h, trimmedField]

theorem requestedMode_naming (h : (textField body "server_name").isSome) :
    requestedMode (naming strategy body) = some (installModeOf strategy).name := by
  cases body with
  | obj fields =>
      have hstrategy : requestedStrategy (naming strategy (.obj fields)) = some strategy := by
        rw [requestedStrategy, naming, Json.get?_setField_self]
        cases strategy <;> rfl
      rw [requestedMode, hstrategy]
      rfl
  | null | bool b | num n | str s | arr items => cases h

variable (A : AdminPlane)

theorem resolveGovernanceWorkspaceId_naming (principal : Option Identity.AuthenticatedPrincipal) :
    A.resolveGovernanceWorkspaceId (naming strategy body) principal =
      A.resolveGovernanceWorkspaceId body principal := by
  unfold AdminPlane.resolveGovernanceWorkspaceId
  rw [trimmedField_naming (by decide)]

theorem registrySubject_naming (runtime : GovernanceRuntime)
    (principal : Option Identity.AuthenticatedPrincipal) (serverName : String)
    (entry : Option RegistryLibraryStoredItem) (installMode : Option String) :
    A.registrySubject runtime (naming strategy body) principal serverName entry installMode =
      A.registrySubject runtime body principal serverName entry installMode := by
  rw [AdminPlane.registrySubject, resolveGovernanceWorkspaceId_naming, AdminPlane.registrySubject]

theorem normalizePreflightPrincipal_naming :
    normalizePreflightPrincipal (naming strategy body) = normalizePreflightPrincipal body := by
  rw [normalizePreflightPrincipal, trimmedField_naming (by decide), trimmedField_naming (by decide),
    normalizePreflightPrincipal]

end Requests

section Plans

variable {A : AdminPlane} {runtime : GovernanceRuntime} {now : Instant} {reads : LibraryReads}
  {body : Json} {needsTarget : Bool} {plan : ConnectRegistryImportPlan}
  {governance : Option RegistryGovernance}

theorem strategy_of_importOptions {options : ConnectRegistryImportOptions}
    (h : importOptions body = .ok options) : options.strategy = requestedStrategy body := by
  obtain ⟨urlVariables, -, h⟩ := Except.bind_eq_ok_iff.1 h
  obtain ⟨headers, -, h⟩ := Except.bind_eq_ok_iff.1 h
  obtain ⟨env, -, h⟩ := Except.bind_eq_ok_iff.1 h
  cases h
  rfl

theorem foundEntry_eq {library : RegistryLibrary} {serverName version : String}
    {entry : Option RegistryLibraryStoredItem}
    (h : getLibraryItem library serverName version = .ok entry) :
    foundEntry library serverName version = entry := by
  rw [foundEntry, h]

-- the subject of a decision of this request, in the given install mode
def decidedSubject (A : AdminPlane) (runtime : GovernanceRuntime) (reads : LibraryReads)
    (body : Json) (mode : Option String) : GovernanceRegistrySubject :=
  A.registrySubject runtime body (principalOf body) (requestedServer body)
    (foundEntry reads.decided (requestedServer body) (requestedVersion body)) mode

theorem evaluateRegistryGovernance_ok
    (hruntime : A.governanceRuntime.filter (·.isEnabled) = some runtime) {hint : Option String}
    (h : A.evaluateRegistryGovernance reads.decided body (requestedServer body)
      (requestedVersion body) hint = .ok governance) :
    ∃ decided, governance = some decided ∧
      decided.decision = runtime.evaluateRegistryPolicy (decidedSubject A runtime reads body
        (hint.or (summaryMode reads.decided (requestedServer body) (requestedVersion body)))) := by
  rw [AdminPlane.evaluateRegistryGovernance, hruntime] at h
  obtain ⟨principal, hprincipal, h⟩ := Except.bind_eq_ok_iff.1 h
  obtain ⟨entry, hentry, h⟩ := Except.bind_eq_ok_iff.1 h
  cases h
  refine ⟨_, rfl, ?_⟩
  rw [decidedSubject, summaryMode, foundEntry_eq hentry, principalOf, hprincipal]

theorem planFromRegistry_planned {serverName : String}
    (h : A.planFromRegistry now reads body serverName = .planned plan governance) :
    A.evaluateRegistryGovernance reads.decided body serverName (requestedVersion body)
        (requestedMode body) = .ok governance ∧
      ∃ options, importOptions body = .ok options ∧
        createImportPlan A.host now A.managedRuntime reads.planned serverName
          (requestedVersion body) options = .ok plan := by
  unfold AdminPlane.planFromRegistry at h
  dsimp only at h
  split at h
  next => cases h
  next governance' hdecided =>
    split at h
    next => cases h
    next =>
      split at h
      next => cases h
      next plan' hplan =>
        cases h
        exact ⟨hdecided, Except.bind_eq_ok_iff.1 hplan⟩

theorem registryRoute_planned (h : A.registryRoute needsTarget now reads body =
    .planned plan governance) :
    (textField body "server_name").isSome = true ∧
      A.planFromRegistry now reads body (requestedServer body) = .planned plan governance := by
  unfold AdminPlane.registryRoute at h
  split at h
  next => cases h
  next =>
    split at h
    next => cases h
    next serverName hname =>
      split at h
      next => cases h
      next =>
        have hfield := (Option.filter_eq_some_iff.mp hname).1
        rw [requestedServer, hfield]
        exact ⟨rfl, h⟩

theorem mode_of_plan {options : ConnectRegistryImportOptions} {serverName version : String}
    (hoptions : importOptions body = .ok options)
    (hplan : createImportPlan A.host now A.managedRuntime reads.planned serverName version options =
      .ok plan) :
    some (installModeOf plan.strategy).name =
      (requestedMode body).or (preferredMode reads.planned serverName version) := by
  obtain ⟨entry, preferred, importOption, hentry, hpreferred, hfound, hstrategy, -⟩ :=
    createImportPlan_ok hplan
  rw [hstrategy, (findImportOption_eq_some hfound).2, strategy_of_importOptions hoptions,
    requestedMode, preferredMode, foundEntry_eq hentry, Option.bind_some, hpreferred]
  cases requestedStrategy body <;> rfl

-- the decision is the one for the install mode of the plan, and naming the strategy that the plan
-- uses allows or denies just the same
structure Governed (A : AdminPlane) (runtime : GovernanceRuntime) (reads : LibraryReads)
    (body : Json) (plan : ConnectRegistryImportPlan) (governance : Option RegistryGovernance) :
    Prop where
  enforced : ∃ decided, governance = some decided ∧
    decided.decision = runtime.evaluateRegistryPolicy
      (decidedSubject A runtime reads body (some (installModeOf plan.strategy).name))
  named : ∀ decided namedDecision, governance = some decided →
    A.evaluateRegistryGovernance reads.decided (naming plan.strategy body) (requestedServer body)
      (requestedVersion body) (requestedMode (naming plan.strategy body)) =
        .ok (some namedDecision) →
    namedDecision.decision.allowed = decided.decision.allowed

-- the install modes that the library entry and its first import option stand for get one ruling
def RuledAlike (A : AdminPlane) (runtime : GovernanceRuntime) (reads : LibraryReads) (body : Json) :
    Prop :=
  let entryMode := summaryMode reads.decided (requestedServer body) (requestedVersion body)
  let optionMode := preferredMode reads.planned (requestedServer body) (requestedVersion body)
  entryMode = optionMode ∨ TreatsAlike runtime entryMode optionMode
    (fittingPolicies runtime (decidedSubject A runtime reads body none))

theorem evaluateRegistryPolicy_decidedSubject (mode : Option String) :
    runtime.evaluateRegistryPolicy (decidedSubject A runtime reads body mode) =
      applied (decidedSubject A runtime reads body none) (firstRuling runtime mode
        (fittingPolicies runtime (decidedSubject A runtime reads body none))) :=
  evaluateRegistryPolicy_eq _

theorem registry_decision_governs_iff
    (hruntime : A.governanceRuntime.filter (·.isEnabled) = some runtime)
    (hplan : A.registryRoute needsTarget now reads body = .planned plan governance) :
    Governed A runtime reads body plan governance ↔
      (requestedStrategy body).isSome ∨ RuledAlike A runtime reads body := by
  obtain ⟨hserver, hplan⟩ := registryRoute_planned hplan
  obtain ⟨hevaluated, options, hoptions, hcreated⟩ := planFromRegistry_planned hplan
  obtain ⟨decided, rfl, hdecision⟩ := evaluateRegistryGovernance_ok hruntime hevaluated
  have hmode := mode_of_plan hoptions hcreated
  have hnamed : ∀ namedDecision, A.evaluateRegistryGovernance reads.decided
      (naming plan.strategy body) (requestedServer body) (requestedVersion body)
      (requestedMode (naming plan.strategy body)) = .ok (some namedDecision) →
      namedDecision.decision = runtime.evaluateRegistryPolicy
        (decidedSubject A runtime reads body (some (installModeOf plan.strategy).name)) := by
    intro namedDecision h
    rw [requestedMode_naming hserver] at h
    have hsame : A.evaluateRegistryGovernance reads.decided (naming plan.strategy body)
        (requestedServer body) (requestedVersion body)
        (some (installModeOf plan.strategy).name) =
        A.evaluateRegistryGovernance reads.decided body (requestedServer body)
          (requestedVersion body) (some (installModeOf plan.strategy).name) := by
      simp only [AdminPlane.evaluateRegistryGovernance, registrySubject_naming,
        normalizePreflightPrincipal_naming]
    rw [hsame] at h
    obtain ⟨named, hsome, hdecided⟩ := evaluateRegistryGovernance_ok hruntime h
    cases hsome
    exact hdecided
  have henforced : Governed A runtime reads body plan (some decided) ↔
      decided.decision = runtime.evaluateRegistryPolicy
        (decidedSubject A runtime reads body (some (installModeOf plan.strategy).name)) := by
    refine ⟨fun h => ?_, fun h => ⟨⟨decided, rfl, h⟩, ?_⟩⟩
    · obtain ⟨decided', hsome, hdecided⟩ := h.enforced
      cases hsome
      exact hdecided
    · intro decided' namedDecision hsome hnamedDecision
      cases hsome
      rw [hnamed _ hnamedDecision, h]
  rw [henforced, hdecision, hmode]
  cases hstrategy : requestedStrategy body with
  | some strategy =>
      refine iff_of_true ?_ (.inl rfl)
      rw [requestedMode, hstrategy]
      rfl
  | none =>
      have hmode' : requestedMode body = none := by rw [requestedMode, hstrategy]; rfl
      rw [hmode', Option.none_or, Option.none_or, evaluateRegistryPolicy_decidedSubject,
        evaluateRegistryPolicy_decidedSubject, applied_inj, firstRuling_eq_iff]
      constructor
      · exact fun h => .inr (.inr h)
      · rintro (hsome | hequal | halike)
        · cases hsome
        · rw [hequal]
          exact firstRuling_eq_iff.1 rfl
        · exact halike

end Plans

section Example

-- package installs are denied, everything else is allowed
def noPackages : GovernanceRuntime where
  config := some
    { enabled := true
      registryPolicies := some
        [{ name := "no-packages", installModes := some ["package"], effect := .deny }] }
  hasStore := true

def examplePlane : AdminPlane where
  governanceRuntime := some noPackages
  identityRuntime := ⟨none, none⟩
  host :=
    { joinPath := fun a b => a ++ "/" ++ b
      assertSafeSystemPath := fun path _ => .ok path
      mkdir := fun _ => .ok ()
      processEnv := .empty }

-- its remote asks for a header, its package for nothing
def notesEntry : RegistryLibraryStoredItem where
  raw :=
    { name := "io.github.example/notes"
      version := "1.0.0"
      remotes := some
        [{ url := some "https://notes.example/mcp"
           headers := some
             [.obj [("name", .str "X-Api-Key"), ("isRequired", .bool true)]] }]
      packages := some [{ registryType := some "npm", identifier := some "@example/notes" }] }
  published := { status := some "active", isLatest := some true }

def notesReads : LibraryReads := ⟨.ok [notesEntry], .ok [notesEntry]⟩

def notesRequest : Json := .obj [("server_name", .str "io.github.example/notes")]

def outcomeOf : RegistryOutcome → Option (ConnectRegistryImportPlan × Option RegistryGovernance)
  | .planned plan governance => some (plan, governance)
  | _ => none

theorem planned_of_outcomeOf {outcome : RegistryOutcome} (summary : ConnectRegistryStrategy × Bool)
    (h : (outcomeOf outcome).bind (fun p => p.2.map fun g => (p.1.strategy, g.decision.allowed)) =
      some summary) :
    ∃ plan decided, outcome = .planned plan (some decided) ∧ plan.strategy = summary.1 ∧
      decided.decision.allowed = summary.2 := by
  cases outcome with
  | refused error => cases h
  | denied governance => cases h
  | planned plan governance =>
      cases governance with
      | none => cases h
      | some decided =>
          cases h
          exact ⟨plan, decided, rfl, rfl, rfl⟩

theorem notes_planned : ∃ plan decided,
    examplePlane.registryImport ⟨0, ""⟩ notesReads notesRequest = .planned plan (some decided) ∧
      plan.strategy = .conduitHostPackage ∧ decided.decision.allowed = true :=
  planned_of_outcomeOf (.conduitHostPackage, true) (by decide +kernel)

theorem registry_decision_governs_notes : ∃ plan governance,
    examplePlane.registryRoute false ⟨0, ""⟩ notesReads notesRequest = .planned plan governance ∧
      (Governed examplePlane noPackages notesReads notesRequest plan governance ↔
        (requestedStrategy notesRequest).isSome ∨
          RuledAlike examplePlane noPackages notesReads notesRequest) := by
  obtain ⟨plan, decided, hplan, -, -⟩ := notes_planned
  exact ⟨plan, some decided, hplan, registry_decision_governs_iff rfl hplan⟩

-- without a strategy the denied package install is let through
theorem omitted_strategy_bypasses_deny : ∃ plan decided,
    examplePlane.registryImport ⟨0, ""⟩ notesReads notesRequest = .planned plan (some decided) ∧
      plan.strategy = .conduitHostPackage ∧ decided.decision.allowed = true ∧
      (noPackages.evaluateRegistryPolicy (decidedSubject examplePlane noPackages notesReads
        notesRequest (some "package"))).allowed = false ∧
      ¬ Governed examplePlane noPackages notesReads notesRequest plan (some decided) := by
  obtain ⟨plan, decided, hplan, hstrategy, hallowed⟩ := notes_planned
  have hdenied : (noPackages.evaluateRegistryPolicy (decidedSubject examplePlane noPackages notesReads
      notesRequest (some "package"))).allowed = false := by decide +kernel
  refine ⟨plan, decided, hplan, hstrategy, hallowed, hdenied, fun hgoverned => ?_⟩
  obtain ⟨decided', hsome, henforced⟩ := hgoverned.enforced
  cases hsome
  rw [hstrategy] at henforced
  exact absurd (hallowed.symm.trans ((congrArg _ henforced).trans hdenied)) (by decide)

end Example

end Conduit.Admin
