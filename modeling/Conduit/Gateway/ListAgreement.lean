import Conduit.Gateway.Confinement

namespace Conduit.Router.ConduitRouter

open Gateway

-- the router serves its own operations, the environment every other one
def serve (environment : (o : Op) → Ans o) (C : ConduitRouter) :
    (o : Op) → ConduitRouter × Ans o
  | .resolve serverId toolName => C.resolve serverId toolName
  | .getClientForServer serverId => C.getClientForServer serverId
  | .getAggregatedTools => (C, C.getAggregatedToolsWithServerIds)
  | .updateAnnotations serverId tools =>
      (C.withRegistry (C.registry.updateAnnotations serverId tools), ())
  | .getAnnotations serverId toolName => (C, C.registry.getAnnotations serverId toolName)
  | o => (C, environment o)

variable {C : ConduitRouter}

theorem resolve_registry (serverId : Option String) (toolName : String) :
    (C.resolve serverId toolName).1.registry = C.registry := by
  cases serverId with
  | none => simp [resolve]
  | some s => cases h : (C.getClientForServer s).2 <;> simp [resolve, h]

theorem wellIndexed_serve {environment : (o : Op) → Ans o} (h : C.registry.WellIndexed) (o : Op) :
    (C.serve environment o).1.registry.WellIndexed := by
  cases o with
  | resolve serverId toolName =>
      rw [serve, resolve_registry]
      exact h
  | getClientForServer serverId =>
      rw [serve, getClientForServer_registry]
      exact h
  | updateAnnotations serverId tools => exact h.updateAnnotations serverId tools
  | _ => exact h

theorem getAggregatedTools_congr {C' : ConduitRouter} (h : C'.registry = C.registry) :
    C'.getAggregatedToolsWithServerIds = C.getAggregatedToolsWithServerIds := by
  rw [getAggregatedToolsWithServerIds, h]
  rfl

theorem namespace_of_aggregated {tool : AggregatedTool}
    (h : tool ∈ C.getAggregatedToolsWithServerIds) :
    C.registry.namespaceMap.get? tool.namespacedName = some ⟨tool.serverId, tool.toolName⟩ := by
  obtain ⟨⟨name, target⟩, hmem, hsome⟩ := List.mem_filterMap.mp h
  have hget := (OrderedMap.get?_eq_some_iff _ _ _).mpr hmem
  cases hinfo : C.registry.getServerInfo target.serverId with
  | none => simp [hinfo] at hsome
  | some info =>
      simp only [hinfo, Option.ite_none_right_eq_some] at hsome
      obtain ⟨toolDef, -, rfl⟩ := Option.map_eq_some_iff.mp hsome.2
      exact hget

@[simp] theorem getClientForServer_config (serverId : String) :
    (C.getClientForServer serverId).1.config = C.config := by
  unfold getClientForServer
  split
  · rfl
  · exact selectReplica_config _

theorem resolveToolName_congr {C' : ConduitRouter} (hregistry : C'.registry = C.registry)
    (hconfig : C'.config = C.config) (toolName : String) :
    C'.resolveToolName toolName = C.resolveToolName toolName := by
  rw [resolveToolName, resolveToolName, hregistry, hconfig]

theorem getHealthyReplicas_congr {C' : ConduitRouter}
    (h : ∀ serverId, (C'.registry.getServerInfo serverId).map ServerInfo.replicas =
      (C.registry.getServerInfo serverId).map ServerInfo.replicas) (serverId : String) :
    C'.registry.getHealthyReplicas serverId = C.registry.getHealthyReplicas serverId := by
  have hreplicas := h serverId
  unfold ServerRegistry.getHealthyReplicas
  cases hinfo : C.registry.getServerInfo serverId with
  | none =>
      rw [hinfo, Option.map_none, Option.map_eq_none_iff] at hreplicas
      rw [hreplicas]
  | some info =>
      rw [hinfo, Option.map_some] at hreplicas
      obtain ⟨info', hinfo', heq⟩ := Option.map_eq_some_iff.mp hreplicas
      rw [hinfo']
      simp [heq]

theorem resolveToolName_of_aggregated {tool : AggregatedTool}
    (h : tool ∈ C.getAggregatedToolsWithServerIds) :
    C.resolveToolName tool.namespacedName = some ⟨tool.serverId, tool.toolName⟩ := by
  simp only [resolveToolName, resolveTool, namespace_of_aggregated h]

theorem resolveToolCall_of_name {toolName : String} {target : ToolTarget}
    (h : C.resolveToolName toolName = some target) :
    (C.resolveToolCall toolName).2 =
      (C.selectReplica target.serverId).2.map fun c => ⟨target.serverId, target.toolName, c⟩ := by
  rw [resolveToolCall, h]

end Conduit.Router.ConduitRouter

namespace Conduit.Gateway

open Router Governance Cache Proxy Identity Program

-- where an entry of a tools/list answer comes from
inductive ListedFrom (C : ConduitRouter) (call : ToolCall) (name : String) : ToolTarget → Prop where
  | server (hplain : call.profileId = none)
      (hclient : (C.getClientForServer call.serverId).2.isSome = true) :
      ListedFrom C call name ⟨call.serverId, name⟩
  | namespaced {tool : AggregatedTool}
      (hshared : call.profileId = none → (C.getClientForServer call.serverId).2 = none)
      (htool : tool ∈ C.getAggregatedToolsWithServerIds) (hname : tool.namespacedName = name) :
      ListedFrom C call name ⟨tool.serverId, tool.toolName⟩

-- guardrails, approvals and rate limits are out of the way
structure Unrestricted (P : RequestPipeline) (environment : (o : Op) → Ans o) : Prop where
  guardrails : P.config.guardrails.filter (·.enabled) = none
  approvals : ∀ policy ∈ (P.config.governance.bind (·.toolPolicies)).getD [],
    policy.effect ≠ .requireApproval
  limits : P.limitsRequests = false
  quotas : ∀ workspaceId, (environment (.consumeWorkspaceQuota workspaceId)).allowed = true

-- a tools/call of a listed name, by the same client on the same target
structure CallsListed (call listing : ToolCall) (name : String) : Prop where
  server : call.serverId = listing.serverId
  client : call.principal = listing.principal
  tool : extractToolName call.message = some name

section

variable (P : RequestPipeline) (environment : (o : Op) → Ans o) (C : ConduitRouter)

def afterListing (listing : ToolCall) : ConduitRouter :=
  (finish (ConduitRouter.serve environment) C (P.handleToolsList listing)).1

structure Listed (listing : ToolCall) (name : String) (target : ToolTarget) : Prop where
  answered : ∃ result tools entry,
    (finish (ConduitRouter.serve environment) C (P.handleToolsList listing)).2 =
      .ok (.answered result) ∧
    tools? result.body = some tools ∧ entry ∈ tools ∧ entry.get? "name" = some (.str name)
  source : ListedFrom C listing name target

-- no refusal by profile, access list or tool policy, nothing unknown, and the very tool
def Reaches (call : ToolCall) (target : ToolTarget) : Prop :=
  ∃ service, (finish (ConduitRouter.serve environment) C (P.admission call)).2 = .ok service ∧
    service.actual = target ∧ service.client.serverId = target.serverId

def Callable (call : ToolCall) (target : ToolTarget) : Prop :=
  if call.profileId = none ∧ (C.getClientForServer call.serverId).2.isSome = true then
    ∀ toolName, C.resolveToolName call.toolName = some ⟨call.serverId, toolName⟩ →
      toolName = call.toolName
  else C.registry.getHealthyReplicas target.serverId ≠ [] ∧
    (P.config.server? target.serverId).isSome = true

end

variable {P : RequestPipeline} {environment : (o : Op) → Ans o} {C : ConduitRouter}
  {call listing : ToolCall} {name : String} {target actual : ToolTarget}

section Admission

theorem finish_getProfileServerIdSet {C' : ConduitRouter} {ids : Option (List String)}
    (h : finish (ConduitRouter.serve environment) C (P.getProfileServerIdSet call) = (C', .ok ids)) :
    C' = C ∧ P.getProfileServerIdSet call = Pure.pure ids := by
  unfold RequestPipeline.getProfileServerIdSet at h ⊢
  split at h
  · cases h
    exact ⟨rfl, rfl⟩
  · split at h
    · cases h
      exact ⟨rfl, rfl⟩
    · cases h

theorem admission_ok {service : Service}
    (h : (finish (ConduitRouter.serve environment) C (P.admission call)).2 = .ok service) :
    ∃ routed, (C.resolve call.directServerId call.toolName).2.routed? call.serverId call.toolName =
        some routed ∧
      service.actual =
        (C.resolve call.directServerId call.toolName).2.actual call.serverId call.toolName ∧
      service.client = routed.client ∧ (P.config.server? service.actual.serverId).isSome = true := by
  obtain ⟨C₀, ids, hids, h₁⟩ := finish_bind_ok _ h
  rw [(finish_getProfileServerIdSet hids).1] at h₁
  obtain ⟨C₁, resolution, hresolve, h₂⟩ := finish_bind_ok _ h₁
  obtain rfl := Except.ok.inj (Prod.mk.inj hresolve).2
  obtain ⟨C₂, -, -, h₃⟩ := finish_bind_ok _ h₂
  obtain ⟨C₃, routed, hroute, h₄⟩ := finish_bind_ok _ h₃
  obtain ⟨C₄, annotations, -, h₅⟩ := finish_bind_ok _ h₄
  obtain ⟨C₅, serverConfig, hfound, h₆⟩ := finish_bind_ok _ h₅
  obtain rfl := Except.ok.inj h₆
  refine ⟨routed, ?_, rfl, rfl, ?_⟩
  · unfold RequestPipeline.routeCall at hroute
    split at hroute
    next hrouted =>
      cases hroute
      exact hrouted
    next => cases hroute
  · unfold RequestPipeline.findServerConfig at hfound
    split at hfound
    next hserver => simp [hserver]
    next => cases hfound

theorem checkAcl_of_allows (h : P.aclAllows call actual = true) :
    P.checkAcl call actual = Pure.pure () := by
  unfold RequestPipeline.aclAllows at h
  unfold RequestPipeline.checkAcl
  cases hacl : P.config.acl.filter (·.enabled) with
  | none => rfl
  | some acl =>
      rw [hacl] at h
      exact if_pos h

theorem policy_effect (hopen : Unrestricted P environment) :
    (P.toolPolicy call actual).effect ≠ .requireApproval := by
  unfold RequestPipeline.toolPolicy GovernanceRuntime.evaluateToolPolicy
  dsimp only
  split
  next policy hpolicy => exact hopen.approvals policy (List.mem_of_find?_eq_some hpolicy)
  next => exact nofun

theorem checkToolPolicy_of_canView (hopen : Unrestricted P environment)
    (h : P.canView call actual = true) : P.checkToolPolicy call actual = Pure.pure () := by
  unfold RequestPipeline.checkToolPolicy
  split
  next henabled =>
    have hview : (P.toolPolicy call actual).effect ≠ .deny := by
      have hboth := (Bool.and_eq_true_iff.mp h).2
      rw [henabled] at hboth
      exact of_decide_eq_true hboth
    have happroval := @policy_effect _ _ call actual hopen
    dsimp only
    split
    next => rfl
    next hdeny => exact absurd hdeny hview
    next hrequire => exact absurd hrequire happroval
  next => rfl

theorem finish_consumeWorkspaceQuota (hopen : Unrestricted P environment) :
    finish (ConduitRouter.serve environment) C (P.consumeWorkspaceQuota call) = (C, .ok ()) := by
  unfold RequestPipeline.consumeWorkspaceQuota
  split
  next =>
    rw [ask_bind, finish_op]
    change finish (ConduitRouter.serve environment) C
      (if (environment (.consumeWorkspaceQuota (P.workspaceId call))).allowed = true then _ else _) = _
    rw [if_pos (hopen.quotas _)]
    rfl
  next => rfl

theorem finish_check (hopen : Unrestricted P environment) {ids : Option (List String)}
    (hids : ∀ serverIds, ids = some serverIds → actual.serverId ∈ serverIds)
    (hview : P.canView call actual = true) :
    finish (ConduitRouter.serve environment) C (P.check call ids actual) = (C, .ok ()) := by
  have hprofile : RequestPipeline.checkProfile call ids actual = Pure.pure () := by
    unfold RequestPipeline.checkProfile
    split
    next => rfl
    next serverIds => exact if_pos (hids serverIds rfl)
  have hacl := checkAcl_of_allows (Bool.and_eq_true_iff.mp hview).1
  have hpolicy := checkToolPolicy_of_canView hopen hview
  have hguard : P.checkGuardrails call actual = Pure.pure () := by
    rw [RequestPipeline.checkGuardrails, hopen.guardrails]
  have hlimits : P.consumeClientLimits call = Pure.pure () := by
    rw [RequestPipeline.consumeClientLimits, hopen.limits]
    rfl
  unfold RequestPipeline.check
  rw [hprofile, hacl, hpolicy, hguard, hlimits]
  simp only [Program.pure_bind]
  rw [finish_bind, finish_consumeWorkspaceQuota hopen]
  rfl

theorem admission_finish (hopen : Unrestricted P environment) {ids : Option (List String)}
    (hprofile : P.getProfileServerIdSet call = Pure.pure ids) {routed : RoutedRequest}
    (hrouted : (C.resolve call.directServerId call.toolName).2.routed? call.serverId
      call.toolName = some routed)
    (hids : ∀ serverIds, ids = some serverIds → routed.serverId ∈ serverIds)
    (hview : P.canView call ⟨routed.serverId, routed.toolName⟩ = true)
    {serverConfig : ServerConfig} (hserver : P.config.server? routed.serverId = some serverConfig) :
    ∃ service, (finish (ConduitRouter.serve environment) C (P.admission call)).2 = .ok service ∧
      service.actual = ⟨routed.serverId, routed.toolName⟩ ∧ service.client = routed.client := by
  have hactual := routed_serverId hrouted
  have hcheck : finish (ConduitRouter.serve environment)
      (C.resolve call.directServerId call.toolName).1
      (P.check call ids ⟨routed.serverId, routed.toolName⟩) = (_, .ok ()) :=
    finish_check hopen hids hview
  unfold RequestPipeline.admission
  rw [hprofile]
  simp only [Program.pure_bind, ask_bind, finish_op, ConduitRouter.serve, hactual]
  rw [finish_bind, hcheck]
  dsimp only
  rw [RequestPipeline.routeCall, hrouted]
  simp only [Program.pure_bind, finish_op, RequestPipeline.findServerConfig, hserver]
  exact ⟨_, rfl, rfl, rfl⟩

end Admission

section Listing

inductive Lists (P : RequestPipeline) (C C' : ConduitRouter) (listing : ToolCall)
    (tools : List Json) : Prop where
  | server (hplain : listing.profileId = none)
      (hclient : (C.getClientForServer listing.serverId).2.isSome = true)
      (hserver : (P.config.server? listing.serverId).isSome = true) (published : List Json)
      (htools : tools = P.filterTools listing published)
  | namespaced (ids : Option (List String)) (hids : P.getProfileServerIdSet listing = Pure.pure ids)
      (hshared : ids = none → (C.getClientForServer listing.serverId).2 = none)
      (hregistry : C'.registry = C.registry)
      (htools : tools =
        (P.visibleTools listing ids C.getAggregatedToolsWithServerIds).map listedTool)

theorem profileId_none_of_ids (h : P.getProfileServerIdSet call = Pure.pure none) :
    call.profileId = none := by
  unfold RequestPipeline.getProfileServerIdSet at h
  split at h
  next hnone => exact hnone
  next => split at h <;> cases h

theorem ids_none_of_profileId {ids : Option (List String)}
    (hids : P.getProfileServerIdSet call = Pure.pure ids) (h : call.profileId = none) :
    ids = none := by
  rw [RequestPipeline.getProfileServerIdSet, h] at hids
  cases hids
  rfl

theorem tools?_withTools (body : Json) (tools : List Json) :
    tools? (withTools body tools) = some tools := by
  unfold tools? withTools
  rw [Json.get?_setField_self, Option.bind_some, Json.get?_setField_self]

theorem tools?_toolsListing {result : CoreResult} {visible : List AggregatedTool}
    (h : RequestPipeline.toolsListing call visible = .answered result) :
    tools? result.body = some (visible.map listedTool) := by
  cases h
  rfl

theorem listFromServer_ok {client : ClientRef} {result : CoreResult} {tools : List Json}
    (h : (finish (ConduitRouter.serve environment) C (P.listFromServer listing client)).2 =
      .ok (.answered result)) (htools : tools? result.body = some tools) :
    (P.config.server? listing.serverId).isSome = true ∧
      ∃ published, tools = P.filterTools listing published := by
  unfold RequestPipeline.listFromServer at h
  split at h
  next hnone =>
    obtain rfl := Outcome.answered.inj (Except.ok.inj h)
    cases htools
  next serverConfig hserver =>
    refine ⟨by simp [hserver], ?_⟩
    obtain ⟨C₁, exchange, -, h₁⟩ := finish_bind_ok _ h
    cases exchange with
    | identityError message =>
        obtain rfl := Outcome.answered.inj (Except.ok.inj h₁)
        cases htools
    | failed message => cases h₁
    | completed exchanged =>
        dsimp only at h₁
        split at h₁
        next hnone =>
          obtain rfl := Outcome.answered.inj (Except.ok.inj h₁)
          rw [hnone] at htools
          cases htools
        next published hpublished =>
          obtain ⟨C₂, -, -, h₂⟩ := finish_bind_ok _ h₁
          obtain rfl := Outcome.answered.inj (Except.ok.inj h₂)
          rw [tools?_withTools] at htools
          exact ⟨published, (Option.some.inj htools).symm⟩

theorem finish_namespacedListing {ids : Option (List String)} {C₁ : ConduitRouter}
    (hregistry : C₁.registry = C.registry) {result : CoreResult} {tools : List Json}
    (h : (finish (ConduitRouter.serve environment) C₁ (do
      let tools ← perform .getAggregatedTools
      return RequestPipeline.toolsListing listing (P.visibleTools listing ids tools))).2 =
        .ok (.answered result)) (htools : tools? result.body = some tools) :
    tools = (P.visibleTools listing ids C.getAggregatedToolsWithServerIds).map listedTool := by
  have hresult := Except.ok.inj h
  rw [tools?_toolsListing hresult] at htools
  rw [← ConduitRouter.getAggregatedTools_congr hregistry]
  exact (Option.some.inj htools).symm

theorem handleToolsList_ok {result : CoreResult} {tools : List Json}
    (h : (finish (ConduitRouter.serve environment) C (P.handleToolsList listing)).2 =
      .ok (.answered result)) (htools : tools? result.body = some tools) :
    Lists P C (afterListing P environment C listing) listing tools := by
  obtain ⟨C₀, ids, hids, h₁⟩ := finish_bind_ok _ h
  obtain ⟨hC₀, hpure⟩ := finish_getProfileServerIdSet hids
  rw [hC₀] at hids h₁
  have hregistry : ((C.getClientForServer listing.serverId).1).registry = C.registry :=
    ConduitRouter.getClientForServer_registry _
  have hstate : afterListing P environment C listing = _ :=
    congrArg Prod.fst (finish_bind_of_ok _ hids _)
  have hserve : ConduitRouter.serve environment C (.getClientForServer listing.serverId) =
    C.getClientForServer listing.serverId := rfl
  rw [ask_bind, finish_op, hserve] at h₁ hstate
  cases hclient : (C.getClientForServer listing.serverId).2 with
  | none =>
      rw [hclient] at h₁ hstate
      refine .namespaced ids hpure (fun _ => hclient) ?_ (finish_namespacedListing hregistry h₁ htools)
      rw [hstate]
      exact hregistry
  | some client =>
      rw [hclient] at h₁ hstate
      cases ids with
      | none =>
          obtain ⟨hserver, published, hpublished⟩ := listFromServer_ok h₁ htools
          exact .server (profileId_none_of_ids hpure) (by rw [hclient]; rfl) hserver published hpublished
      | some serverIds =>
          refine .namespaced (some serverIds) hpure (fun hnone => by cases hnone) ?_
            (finish_namespacedListing hregistry h₁ htools)
          rw [hstate]
          exact hregistry

end Listing

section Agreement

theorem CallsListed.toolName (h : CallsListed call listing name) : call.toolName = name := by
  rw [ToolCall.toolName, h.tool]
  rfl

theorem CallsListed.profileId (h : CallsListed call listing name) :
    call.profileId = listing.profileId := by
  rw [ToolCall.profileId, ToolCall.profileId, h.server]

theorem CallsListed.canView (h : CallsListed call listing name) (actual : ToolTarget) :
    P.canView call actual = P.canView listing actual := by
  have hclient : call.clientId = listing.clientId := congrArg AuthenticatedPrincipal.clientId h.client
  have hworkspace : P.workspaceId call = P.workspaceId listing := by
    rw [RequestPipeline.workspaceId, h.client]
    rfl
  have hsubject : P.toolSubject call actual = P.toolSubject listing actual := by
    rw [RequestPipeline.toolSubject, RequestPipeline.workspaceRoles, hclient, hworkspace]
    rfl
  rw [RequestPipeline.canView, RequestPipeline.canView, hsubject]
  rw [RequestPipeline.aclAllows, RequestPipeline.aclAllows]
  simp only [RequestPipeline.aclDecision, hclient]

theorem CallsListed.profileServerIds (h : CallsListed call listing name)
    {ids : Option (List String)} (hids : P.getProfileServerIdSet listing = Pure.pure ids) :
    P.getProfileServerIdSet call = Pure.pure ids := by
  rw [← hids, RequestPipeline.getProfileServerIdSet, RequestPipeline.getProfileServerIdSet,
    h.profileId]

theorem replicas_afterListing (serverId : String) :
    ((afterListing P environment C listing).registry.getServerInfo serverId).map
        ServerInfo.replicas =
      (C.registry.getServerInfo serverId).map ServerInfo.replicas := by
  refine finish_preserves (I := fun C' : ConduitRouter => (C'.registry.getServerInfo serverId).map
    ServerInfo.replicas = (C.registry.getServerInfo serverId).map ServerInfo.replicas) _ ?_ rfl _
  intro C' o h
  cases o with
  | resolve serverId toolName => simpa [ConduitRouter.serve, ConduitRouter.resolve_registry] using h
  | getClientForServer serverId => simpa [ConduitRouter.serve] using h
  | updateAnnotations key tools =>
      rw [← h]
      change ((C'.registry.updateAnnotations key tools).getServerInfo serverId).map _ = _
      unfold ServerRegistry.updateAnnotations
      split
      · rfl
      · rw [ServerRegistry.getServerInfo, ServerRegistry.servers_rebuildNamespaceMap,
          ← ServerRegistry.getServerInfo, ServerRegistry.getServerInfo_updateServer]
        split
        · cases C'.registry.getServerInfo serverId <;> rfl
        · rfl
  | _ => exact h

theorem getHealthyReplicas_afterListing (serverId : String) :
    (afterListing P environment C listing).registry.getHealthyReplicas serverId =
      C.registry.getHealthyReplicas serverId :=
  ConduitRouter.getHealthyReplicas_congr replicas_afterListing serverId

theorem client_afterListing (serverId : String) :
    ((afterListing P environment C listing).getClientForServer serverId).2.isSome = true ↔
      (C.getClientForServer serverId).2.isSome = true := by
  rw [ConduitRouter.getClientForServer_isSome, ConduitRouter.getClientForServer_isSome,
    getHealthyReplicas_afterListing]

theorem wellIndexed_afterListing (h : C.registry.WellIndexed) :
    (afterListing P environment C listing).registry.WellIndexed :=
  finish_preserves (I := fun C' : ConduitRouter => C'.registry.WellIndexed) _
    (fun _ o h => ConduitRouter.wellIndexed_serve h o) h _

theorem canView_of_published {published : List Json} {entry : Json}
    (hentry : entry ∈ P.filterTools listing published)
    (hname : entry.get? "name" = some (.str name)) :
    P.canView listing ⟨listing.serverId, name⟩ = true := by
  have hview := (List.mem_filter.mp hentry).2
  have hmetadata : (toolMetadata entry).name = name := by
    simp [toolMetadata, hname, Json.asString?]
  rwa [hmetadata] at hview

theorem visible_of_listed {ids : Option (List String)} {entry : Json} {tool : AggregatedTool}
    (hentry : entry ∈
      (P.visibleTools listing ids C.getAggregatedToolsWithServerIds).map listedTool)
    (hname : entry.get? "name" = some (.str tool.namespacedName))
    (htool : tool ∈ C.getAggregatedToolsWithServerIds) :
    (∀ serverIds, ids = some serverIds → tool.serverId ∈ serverIds) ∧
      P.canView listing ⟨tool.serverId, tool.toolName⟩ = true := by
  obtain ⟨shown, hshown, rfl⟩ := List.mem_map.mp hentry
  obtain ⟨hmem, hvisible⟩ := List.mem_filter.mp hshown
  have hsame : shown.namespacedName = tool.namespacedName := Json.str.inj (Option.some.inj hname)
  have htarget := ConduitRouter.namespace_of_aggregated hmem
  rw [hsame, ConduitRouter.namespace_of_aggregated htool] at htarget
  have hboth := Bool.and_eq_true_iff.mp hvisible
  rw [Option.some.inj htarget]
  refine ⟨?_, hboth.2⟩
  rintro serverIds rfl
  rw [(ToolTarget.mk.inj (Option.some.inj htarget)).1]
  simpa using hboth.1

theorem resolve_direct {serverId toolName : String}
    (h : (C.getClientForServer serverId).2.isSome = true) :
    ∃ client, (C.resolve (some serverId) toolName).2.directClient = some client ∧
      (C.resolve (some serverId) toolName).2.resolvedToolName = C.resolveToolName toolName := by
  obtain ⟨client, hclient⟩ := Option.isSome_iff_exists.mp h
  refine ⟨client, by simp [ConduitRouter.resolve, hclient], ?_⟩
  have hname := ConduitRouter.resolveToolName_congr
    (ConduitRouter.getClientForServer_registry (C := C) serverId)
    (ConduitRouter.getClientForServer_config serverId) toolName
  simp [ConduitRouter.resolve, hclient, hname]

theorem resolve_shared {call : ToolCall} (toolName : String)
    (h : call.profileId = none → (C.getClientForServer call.serverId).2 = none) :
    ∃ C' : ConduitRouter, C'.registry = C.registry ∧ C'.config = C.config ∧
      (C.resolve call.directServerId toolName).2.routed? call.serverId toolName =
        (C'.resolveToolCall toolName).2 := by
  cases hprofile : call.profileId with
  | some profileId =>
      refine ⟨C, rfl, rfl, ?_⟩
      rw [ToolCall.directServerId, hprofile]
      rfl
  | none =>
      have hnone := h hprofile
      refine ⟨(C.getClientForServer call.serverId).1, ConduitRouter.getClientForServer_registry _,
        ConduitRouter.getClientForServer_config _, ?_⟩
      rw [directServerId_of_profileId_none hprofile]
      simp [ConduitRouter.resolve, hnone, Resolution.routed?]

theorem actual_direct_iff {resolution : Resolution} {client : ClientRef} {serverId toolName : String}
    (h : resolution.directClient = some client) :
    resolution.actual serverId toolName = ⟨serverId, toolName⟩ ↔
      ∀ other, resolution.resolvedToolName = some ⟨serverId, other⟩ → other = toolName := by
  rw [Resolution.actual, h]
  cases hname : resolution.resolvedToolName with
  | none => simp
  | some resolved =>
      obtain ⟨s, t⟩ := resolved
      by_cases hs : s = serverId <;> simp [hs]

theorem reaches_direct_iff (hindexed : C.registry.WellIndexed) (hopen : Unrestricted P environment)
    (hplain : call.profileId = none)
    (hclient : (C.getClientForServer call.serverId).2.isSome = true)
    (hserver : (P.config.server? call.serverId).isSome = true)
    (hview : P.canView call ⟨call.serverId, call.toolName⟩ = true) :
    Reaches P environment C call ⟨call.serverId, call.toolName⟩ ↔
      ∀ toolName, C.resolveToolName call.toolName = some ⟨call.serverId, toolName⟩ →
        toolName = call.toolName := by
  obtain ⟨client, hdirect, hresolved⟩ := @resolve_direct _ _ call.toolName hclient
  have hid := directServerId_of_profileId_none hplain
  have hactual := @actual_direct_iff _ _ call.serverId call.toolName hdirect
  rw [hresolved] at hactual
  rw [← hactual]
  constructor
  · rintro ⟨service, hok, htarget, -⟩
    obtain ⟨routed, -, hservice, -⟩ := admission_ok hok
    rw [hid, htarget] at hservice
    exact hservice.symm
  · intro hsame
    have hrouted : (C.resolve call.directServerId call.toolName).2.routed? call.serverId
        call.toolName = some ⟨call.serverId, call.toolName, client⟩ := by
      rw [hid, Resolution.routed?, hdirect, hsame]
    obtain ⟨serverConfig, hconfig⟩ := Option.isSome_iff_exists.mp hserver
    have hids : P.getProfileServerIdSet call = Pure.pure none := by
      rw [RequestPipeline.getProfileServerIdSet, hplain]
    obtain ⟨service, hok, htarget, hservice⟩ :=
      admission_finish hopen hids hrouted (fun _ hnone => by cases hnone) hview hconfig
    refine ⟨service, hok, htarget, ?_⟩
    rw [hservice]
    exact routed_client hindexed call.eq_of_directServerId hrouted

theorem reaches_shared_iff (hindexed : C.registry.WellIndexed) (hopen : Unrestricted P environment)
    (hshared : call.profileId = none → (C.getClientForServer call.serverId).2 = none)
    {ids : Option (List String)} (hids : P.getProfileServerIdSet call = Pure.pure ids)
    (hmember : ∀ serverIds, ids = some serverIds → target.serverId ∈ serverIds)
    (hview : P.canView call target = true)
    (hname : C.resolveToolName call.toolName = some target) :
    Reaches P environment C call target ↔
      C.registry.getHealthyReplicas target.serverId ≠ [] ∧
        (P.config.server? target.serverId).isSome = true := by
  obtain ⟨C', hregistry, hconfig, hresolve⟩ := resolve_shared call.toolName hshared
  have hcall := ConduitRouter.resolveToolCall_of_name
    ((ConduitRouter.resolveToolName_congr hregistry hconfig _).trans hname)
  constructor
  · rintro ⟨service, hok, htarget, -⟩
    obtain ⟨routed, hrouted, -, -, hserver⟩ := admission_ok hok
    rw [hresolve, hcall] at hrouted
    obtain ⟨client, hclient, -⟩ := Option.map_eq_some_iff.mp hrouted
    have hsome : (C'.selectReplica target.serverId).2.isSome = true := by rw [hclient]; rfl
    rw [ConduitRouter.selectReplica_isSome, hregistry] at hsome
    exact ⟨hsome, htarget ▸ hserver⟩
  · rintro ⟨hhealthy, hserver⟩
    rw [← hregistry, ← ConduitRouter.selectReplica_isSome] at hhealthy
    obtain ⟨client, hclient⟩ := Option.isSome_iff_exists.mp hhealthy
    obtain ⟨serverConfig, hfound⟩ := Option.isSome_iff_exists.mp hserver
    have hrouted : (C.resolve call.directServerId call.toolName).2.routed? call.serverId
        call.toolName = some ⟨target.serverId, target.toolName, client⟩ := by
      rw [hresolve, hcall, hclient]
      rfl
    obtain ⟨service, hok, htarget, hservice⟩ :=
      admission_finish hopen hids hrouted hmember hview hfound
    refine ⟨service, hok, htarget, ?_⟩
    rw [hservice]
    exact routed_client hindexed call.eq_of_directServerId hrouted

section Example

-- the upstream of crm publishes two tools, one of which starts with the id of the server
def publishing : (o : Op) → Ans o
  | .forward _ _ =>
      .ok
        { body := .obj [("result", .obj [("tools", .arr
            [.obj [("name", .str "get")], .obj [("name", .str "crm.get")]])])] }
  | o => permissive o

def crmListing : ToolCall where
  self := 0
  serverId := "crm"
  message := .obj [("jsonrpc", .str "2.0"), ("id", .ofNat 1), ("method", .str "tools/list")]
  context := { traceId := "t", rawHeaders := .empty }
  principal := { clientId := "agent-7", tenantId := "acme" }

def crmCall (name : String) : ToolCall :=
  { crmListing with self := 1, message := toolsCall (.obj [("name", .str name)]) }

theorem unrestricted_publishing : Unrestricted pairPipeline publishing where
  guardrails := rfl
  approvals := nofun
  limits := rfl
  quotas := fun _ => rfl

theorem listed_of_crm {name : String}
    (h : name = "get" ∨ name = "crm.get") :
    Listed pairPipeline publishing (pairRouter []) crmListing name ⟨"crm", name⟩ where
  answered := by
    refine ⟨_, [.obj [("name", .str "get")], .obj [("name", .str "crm.get")]],
      .obj [("name", .str name)], rfl, by decide +kernel, ?_, rfl⟩
    rcases h with rfl | rfl <;> simp
  source := .server (by decide) (by decide)

end Example

end Agreement

end Conduit.Gateway
