import Conduit.Gateway.Handler

namespace Conduit.Gateway

open Router Governance Cache Proxy Identity Program

def Answered (tr : Trace) (o : Op) (a : Ans o) : Prop := (⟨o, a⟩ : Event Op Ans) ∈ tr

theorem Answered.mono {tr tr' : Trace} {o : Op} {a : Ans o} (h : Answered tr o a)
    (hextends : tr <+: tr') : Answered tr' o a :=
  hextends.subset h

theorem answered_snoc (tr : Trace) (o : Op) (a : Ans o) : Answered (tr ++ [⟨o, a⟩]) o a := by
  simp [Answered]

def Op.isAdmission : Op → Bool
  | .resolve _ _ => true
  | .getAnnotations _ _ => true
  | .verifyApprovalGrant _ => true
  | .createApprovalRequest _ => true
  | .consumeWorkspaceQuota _ => true
  | .consumeClientLimits _ => true
  | _ => false

def admissionContract : Contract Op Ans Outcome where
  rely := fun _ _ => True
  emits := fun _ o => o.isAdmission = true
  exits := fun _ out => out.origin = none

variable (P : RequestPipeline) (call : ToolCall)

def Approved (actual : ToolTarget) (tr : Trace) : Prop :=
  ∃ approvalId grant, call.approvalId = some approvalId ∧
    Answered tr (.verifyApprovalGrant (P.approvalQuery call actual approvalId)) (some grant)

structure Mediated (actual : ToolTarget) (tr : Trace) : Prop where
  acl : ∀ acl, P.config.acl = some acl → acl.enabled = true →
    (RequestPipeline.aclDecision call acl actual).allowed = true
  toolPolicy : P.governanceRuntime.isEnabled = true → (P.toolPolicy call actual).effect ≠ .deny
  toolPolicyApproval : P.governanceRuntime.isEnabled = true →
    (P.toolPolicy call actual).effect = .requireApproval → Approved P call actual tr
  workspaceQuota : P.governanceRuntime.isEnabled = true →
    ∃ quota, Answered tr (.consumeWorkspaceQuota (P.workspaceId call)) quota ∧ quota.allowed = true
  guardrails : ∀ guardrails, P.config.guardrails = some guardrails → guardrails.enabled = true →
    (P.guardrailDecision call guardrails actual).action ≠ .block
  guardrailApproval : ∀ guardrails, P.config.guardrails = some guardrails →
    guardrails.enabled = true →
    (P.guardrailDecision call guardrails actual).action = .requireApproval →
    Approved P call actual tr
  clientLimits : P.limitsRequests = true →
    ∃ decision, Answered tr (.consumeClientLimits call.clientId) decision ∧ decision.allowed = true

def InProfile (actual : ToolTarget) : Prop :=
  ∀ profileId, call.profileId = some profileId →
    ∃ profile, P.config.resolveConnectProfile profileId = some profile ∧
      actual.serverId ∈ profile.servers.map ServerConfig.id

structure Admits (service : Service) (tr : Trace) : Prop where
  resolved : ∃ resolution routed annotations,
    Answered tr (.resolve call.directServerId call.toolName) resolution ∧
    service.actual = resolution.actual call.serverId call.toolName ∧
    resolution.routed? call.serverId call.toolName = some routed ∧ service.client = routed.client ∧
    Answered tr (.getAnnotations service.actual.serverId service.actual.toolName) annotations ∧
    service.policy =
      decideCachePolicy service.actual.toolName annotations service.serverConfig.cache
  configured : P.config.server? service.actual.serverId = some service.serverConfig
  inProfile : InProfile P call service.actual
  mediated : Mediated P call service.actual tr

variable {P call}

theorem Approved.mono {actual : ToolTarget} {tr tr' : Trace} (h : Approved P call actual tr)
    (hextends : tr <+: tr') : Approved P call actual tr' := by
  obtain ⟨approvalId, grant, hid, hgrant⟩ := h
  exact ⟨approvalId, grant, hid, hgrant.mono hextends⟩

theorem Mediated.mono {actual : ToolTarget} {tr tr' : Trace} (h : Mediated P call actual tr)
    (hextends : tr <+: tr') : Mediated P call actual tr' where
  acl := h.acl
  toolPolicy := h.toolPolicy
  toolPolicyApproval := fun henabled heffect => (h.toolPolicyApproval henabled heffect).mono hextends
  workspaceQuota := fun henabled => by
    obtain ⟨quota, hquota, hallowed⟩ := h.workspaceQuota henabled
    exact ⟨quota, hquota.mono hextends, hallowed⟩
  guardrails := h.guardrails
  guardrailApproval := fun guardrails hsome henabled haction =>
    (h.guardrailApproval guardrails hsome henabled haction).mono hextends
  clientLimits := fun henabled => by
    obtain ⟨decision, hdecision, hallowed⟩ := h.clientLimits henabled
    exact ⟨decision, hdecision.mono hextends, hallowed⟩

namespace RequestPipeline

theorem refuse_meets {returns : Trace → Unit → Prop} (code : ℤ) (message : String)
    (data : Option Json) (tr : Trace) :
    Meets admissionContract returns (call.refuse code message data) tr := rfl

theorem limited_meets {returns : Trace → Unit → Prop} (code : ℤ) (message : String)
    (data : Option Json) (retryAfter : ℤ) (tr : Trace) :
    Meets admissionContract returns (call.limited code message data retryAfter) tr := rfl

theorem getProfileServerIdSet_meets (tr : Trace) :
    Meets admissionContract (fun _ serverIds => ∀ profileId, call.profileId = some profileId →
      ∃ profile, P.config.resolveConnectProfile profileId = some profile ∧
        serverIds = some (profile.servers.map ServerConfig.id))
      (P.getProfileServerIdSet call) tr := by
  unfold getProfileServerIdSet
  split
  next hnone => simp [hnone]
  next profileId hid =>
    split
    next profile hprofile =>
      intro profileId' hid'
      obtain rfl := Option.some.inj (hid.symm.trans hid')
      exact ⟨profile, hprofile, rfl⟩
    next => exact meets_exit.2 rfl

theorem checkProfile_meets (serverIds : Option (List String)) (actual : ToolTarget) (tr : Trace) :
    Meets admissionContract (fun _ _ => ∀ ids, serverIds = some ids → actual.serverId ∈ ids)
      (checkProfile call serverIds actual) tr := by
  unfold checkProfile
  cases serverIds with
  | none => simp
  | some ids =>
      dsimp only
      split
      next hmem => simpa using hmem
      next => exact refuse_meets ..

theorem checkAcl_meets (actual : ToolTarget) (tr : Trace) :
    Meets admissionContract (fun _ _ => ∀ acl, P.config.acl = some acl → acl.enabled = true →
      (aclDecision call acl actual).allowed = true) (P.checkAcl call actual) tr := by
  unfold checkAcl
  split
  next hfilter =>
    intro acl hacl henabled
    simp [hacl, Option.filter, henabled] at hfilter
  next acl hfilter =>
    obtain ⟨hacl, -⟩ := Option.filter_eq_some_iff.mp hfilter
    split
    next hallowed =>
      intro acl' hacl' _
      obtain rfl := Option.some.inj (hacl.symm.trans hacl')
      exact hallowed
    next => exact refuse_meets ..

theorem verifyApprovalGrant_meets (actual : ToolTarget) (approvalId : String) (tr : Trace) :
    Meets admissionContract (fun tr' granted => ∀ grant, granted = some grant →
      Answered tr' (.verifyApprovalGrant (P.approvalQuery call actual approvalId)) (some grant))
      (P.verifyApprovalGrant call actual approvalId) tr := by
  unfold verifyApprovalGrant
  split
  · refine meets_ask.2 ⟨rfl, fun granted _ grant hgrant => ?_⟩
    subst hgrant
    exact answered_snoc ..
  · simp

theorem requestApproval_meets {returns : Trace → Unit → Prop} (actual : ToolTarget)
    (source : ApprovalSource) (ruleName reason : String) (tr : Trace) :
    Meets admissionContract returns (P.requestApproval call actual source ruleName reason) tr := by
  unfold requestApproval
  split
  · exact Meets.ask_bind rfl fun approval _ => refuse_meets ..
  · exact meets_exit.2 rfl

theorem enforceApprovalRequirement_meets (actual : ToolTarget) (source : ApprovalSource)
    (ruleName reason : String) (tr : Trace) :
    Meets admissionContract (fun tr' _ => Approved P call actual tr')
      (P.enforceApprovalRequirement call actual source ruleName reason) tr := by
  unfold enforceApprovalRequirement
  split
  next approvalId hid =>
    refine (verifyApprovalGrant_meets actual approvalId tr).bind fun tr' granted _ hgranted => ?_
    cases granted with
    | none => exact refuse_meets ..
    | some grant => exact ⟨approvalId, grant, hid, hgranted grant rfl⟩
  next => exact requestApproval_meets ..

theorem checkToolPolicy_meets (actual : ToolTarget) (tr : Trace) :
    Meets admissionContract (fun tr' _ => P.governanceRuntime.isEnabled = true →
      (P.toolPolicy call actual).effect ≠ .deny ∧
      ((P.toolPolicy call actual).effect = .requireApproval → Approved P call actual tr'))
      (P.checkToolPolicy call actual) tr := by
  unfold checkToolPolicy
  split
  next =>
    dsimp only
    split
    next heffect => simp [heffect]
    next => exact refuse_meets ..
    next heffect =>
      refine (enforceApprovalRequirement_meets actual _ _ _ tr).imp fun tr' _ _ happroved _ => ?_
      exact ⟨by simp [heffect], fun _ => happroved⟩
  next hdisabled => exact fun henabled => absurd henabled hdisabled

theorem consumeWorkspaceQuota_meets (tr : Trace) :
    Meets admissionContract (fun tr' _ => P.governanceRuntime.isEnabled = true →
      ∃ quota, Answered tr' (.consumeWorkspaceQuota (P.workspaceId call)) quota ∧
        quota.allowed = true) (P.consumeWorkspaceQuota call) tr := by
  unfold consumeWorkspaceQuota
  split
  · refine Meets.ask_bind rfl fun quota _ => ?_
    split
    next hallowed => exact fun _ => ⟨quota, answered_snoc .., hallowed⟩
    next => exact limited_meets ..
  next hdisabled => exact fun henabled => absurd henabled hdisabled

theorem checkGuardrails_meets (actual : ToolTarget) (tr : Trace) :
    Meets admissionContract (fun tr' _ => ∀ guardrails, P.config.guardrails = some guardrails →
      guardrails.enabled = true → (P.guardrailDecision call guardrails actual).action ≠ .block ∧
      ((P.guardrailDecision call guardrails actual).action = .requireApproval →
        Approved P call actual tr')) (P.checkGuardrails call actual) tr := by
  unfold checkGuardrails
  split
  next hfilter =>
    intro guardrails hsome henabled
    simp [hsome, Option.filter, henabled] at hfilter
  next guardrails hfilter =>
    obtain ⟨hsome, -⟩ := Option.filter_eq_some_iff.mp hfilter
    have hunique : ∀ guardrails', P.config.guardrails = some guardrails' →
        guardrails = guardrails' :=
      fun guardrails' h => Option.some.inj (hsome.symm.trans h)
    dsimp only
    cases haction : (P.guardrailDecision call guardrails actual).action with
    | block => exact refuse_meets ..
    | requireApproval =>
        refine (enforceApprovalRequirement_meets actual _ _ _ tr).imp
          fun tr' _ _ happroved guardrails' h _ => ?_
        rw [← hunique guardrails' h, haction]
        exact ⟨by simp, fun _ => happroved⟩
    | alert =>
        intro guardrails' h _
        rw [← hunique guardrails' h, haction]
        simp
    | transform =>
        intro guardrails' h _
        rw [← hunique guardrails' h, haction]
        simp
    | allow =>
        intro guardrails' h _
        rw [← hunique guardrails' h, haction]
        simp

theorem consumeClientLimits_meets (tr : Trace) :
    Meets admissionContract (fun tr' _ => P.limitsRequests = true →
      ∃ decision, Answered tr' (.consumeClientLimits call.clientId) decision ∧
        decision.allowed = true) (P.consumeClientLimits call) tr := by
  unfold consumeClientLimits
  split
  · refine Meets.ask_bind rfl fun decision _ => ?_
    unfold checkLimit
    split
    next hallowed => exact fun _ => ⟨decision, answered_snoc .., hallowed⟩
    next => exact limited_meets ..
  next hdisabled => exact fun henabled => absurd henabled hdisabled

theorem check_meets (serverIds : Option (List String)) (actual : ToolTarget) (tr : Trace) :
    Meets admissionContract (fun tr' _ => Mediated P call actual tr' ∧
      ∀ ids, serverIds = some ids → actual.serverId ∈ ids)
      (P.check call serverIds actual) tr := by
  unfold check
  refine (checkProfile_meets serverIds actual tr).bind fun tr₁ _ _ hprofile => ?_
  refine (checkAcl_meets actual tr₁).bind fun tr₂ _ _ hacl => ?_
  refine (checkToolPolicy_meets actual tr₂).bind fun tr₃ _ _ hpolicy => ?_
  refine (consumeWorkspaceQuota_meets tr₃).bind fun tr₄ _ h₃₄ hquota => ?_
  refine (checkGuardrails_meets actual tr₄).bind fun tr₅ _ h₄₅ hguardrails => ?_
  refine (consumeClientLimits_meets tr₅).imp fun tr₆ _ h₅₆ hlimits => ⟨?_, hprofile⟩
  have h₃₆ := (h₃₄.trans h₄₅).trans h₅₆
  exact {
    acl := hacl
    toolPolicy := fun henabled => (hpolicy henabled).1
    toolPolicyApproval := fun henabled heffect => ((hpolicy henabled).2 heffect).mono h₃₆
    workspaceQuota := fun henabled => by
      obtain ⟨quota, hanswer, hallowed⟩ := hquota henabled
      exact ⟨quota, hanswer.mono (h₄₅.trans h₅₆), hallowed⟩
    guardrails := fun guardrails hsome henabled => (hguardrails guardrails hsome henabled).1
    guardrailApproval := fun guardrails hsome henabled haction =>
      ((hguardrails guardrails hsome henabled).2 haction).mono h₅₆
    clientLimits := hlimits }

theorem routeCall_meets (resolution : Resolution) (tr : Trace) :
    Meets admissionContract (fun _ routed =>
      resolution.routed? call.serverId call.toolName = some routed)
      (routeCall call resolution) tr := by
  unfold routeCall
  split
  next routed h => exact h
  next => exact meets_exit.2 rfl

theorem findServerConfig_meets (serverId : String) (tr : Trace) :
    Meets admissionContract (fun _ serverConfig => P.config.server? serverId = some serverConfig)
      (P.findServerConfig call serverId) tr := by
  unfold findServerConfig
  split
  next serverConfig h => exact h
  next => exact meets_exit.2 rfl

theorem admission_meets : Meets admissionContract (fun tr service => Admits P call service tr)
    (P.admission call) [] := by
  unfold admission
  refine (getProfileServerIdSet_meets []).bind fun tr₁ serverIds _ hids => ?_
  refine Meets.ask_bind rfl fun resolution _ => ?_
  have hresolved := answered_snoc tr₁ (.resolve call.directServerId call.toolName) resolution
  refine (check_meets serverIds _ _).bind fun tr₂ _ h₁₂ hcheck => ?_
  refine (routeCall_meets resolution tr₂).bind fun tr₃ routed h₂₃ hrouted => ?_
  refine Meets.ask_bind rfl fun annotations _ => ?_
  have h₃₄ := List.prefix_append tr₃
    [(⟨.getAnnotations _ _, annotations⟩ : Event Op Ans)]
  refine (findServerConfig_meets _ _).bind fun tr₅ serverConfig h₄₅ hconfig => ?_
  have h₂₅ := (h₂₃.trans h₃₄).trans h₄₅
  exact {
    resolved := ⟨resolution, routed, annotations, hresolved.mono (h₁₂.trans h₂₅), rfl, hrouted, rfl,
      (answered_snoc ..).mono h₄₅, rfl⟩
    configured := hconfig
    inProfile := fun profileId hid => by
      obtain ⟨profile, hprofile, hset⟩ := hids profileId hid
      exact ⟨profile, hprofile, hcheck.2 _ hset⟩
    mediated := hcheck.1.mono h₂₅ }

end RequestPipeline

end Conduit.Gateway
