import Conduit.Gateway.Checked

namespace Conduit.Router.ConduitRouter

theorem getClientForServer_isSome {C : ConduitRouter} {serverId : String} :
    (C.getClientForServer serverId).2.isSome = true ↔
      C.registry.getHealthyReplicas serverId ≠ [] := by
  unfold getClientForServer
  split
  next hnone => simp [ServerRegistry.getHealthyReplicas, hnone]
  next => exact selectReplica_isSome

theorem getHealthyReplicas_ne_nil_of_resolveToolCall {C : ConduitRouter} {toolName : String}
    {routed : RoutedRequest} (h : (C.resolveToolCall toolName).2 = some routed) :
    C.registry.getHealthyReplicas routed.serverId ≠ [] := by
  obtain ⟨-, r, hr, -⟩ := mem_of_resolveToolCall h
  exact List.ne_nil_of_mem hr

end Conduit.Router.ConduitRouter

namespace Conduit.Gateway

open Router Governance Cache Proxy Identity Program

-- the server that an operation takes an answer from
def Op.source? : Op → Option String
  | .forward client _ => some client.serverId
  | .l1Get key => some key.serverId
  | .l2Get key => some key.serverId
  | .enterFlight key => some key.serverId
  | _ => none

def Allowed (P : RequestPipeline) (call : ToolCall) (serverId : String) : Prop :=
  match call.profileId with
  | none => serverId = call.serverId
  | some profileId =>
      ∃ profile, P.config.resolveConnectProfile profileId = some profile ∧
        serverId ∈ profile.servers.map ServerConfig.id

def routerAnswer? (C : ConduitRouter) : (o : Op) → Option (Ans o)
  | .resolve serverId toolName => some (C.resolve serverId toolName).2
  | .getClientForServer serverId => some (C.getClientForServer serverId).2
  | .getAggregatedTools => some C.getAggregatedToolsWithServerIds
  | _ => none

-- the router answers from one state, as it does between two awaits
def AnsweredFrom (C : ConduitRouter) (tr : Trace) : Prop :=
  ∀ e ∈ tr, ∀ a, routerAnswer? C e.1 = some a → e.2 = a

def Eligible (C : ConduitRouter) (call : ToolCall) : Prop :=
  C.registry.getHealthyReplicas call.serverId ≠ []

variable {P : RequestPipeline} {call : ToolCall} {C : ConduitRouter}

theorem allowed_of_profileId_none (h : call.profileId = none) {serverId : String} :
    Allowed P call serverId ↔ serverId = call.serverId := by
  rw [Allowed, h]

theorem allowed_of_inProfile {actual : ToolTarget} (h : InProfile P call actual)
    (hprofile : call.profileId.isSome = true) : Allowed P call actual.serverId := by
  obtain ⟨profileId, hid⟩ := Option.isSome_iff_exists.mp hprofile
  rw [Allowed, hid]
  exact h profileId hid

theorem directServerId_of_profileId_none (h : call.profileId = none) :
    call.directServerId = some call.serverId := by
  rw [ToolCall.directServerId, h]

section ToolsCall

theorem source_isAdmission {o : Op} {serverId : String} (h : o.source? = some serverId) :
    o.isAdmission = false := by
  cases o <;> first | rfl | cases h

theorem source_of_emits {service : Service} {tr : Trace} {o : Op} {serverId : String}
    (hclient : service.client.serverId = service.actual.serverId)
    (h : Service.emits P call service tr o) (hsource : o.source? = some serverId) :
    serverId = service.actual.serverId := by
  cases o with
  | forward client options =>
      obtain rfl := Option.some.inj hsource
      rw [h.1, hclient]
  | l1Get key =>
      obtain rfl := Option.some.inj hsource
      rw [show key = P.cacheKey call service from h]
      rfl
  | l2Get key =>
      obtain rfl := Option.some.inj hsource
      rw [h.1]
      rfl
  | enterFlight key =>
      obtain rfl := Option.some.inj hsource
      rw [h.1]
      rfl
  | _ => cases hsource

theorem routed_confined_iff {routed : RoutedRequest} (hprofile : call.profileId = none)
    (hrouted : (C.resolve call.directServerId call.toolName).2.routed? call.serverId
      call.toolName = some routed) :
    routed.serverId = call.serverId ↔ Eligible C call := by
  have hdirect := directServerId_of_profileId_none hprofile
  cases routedBy_of_resolve hrouted with
  | direct s hs hclient htarget =>
      obtain rfl := Option.some.inj (hdirect.symm.trans hs)
      have heligible : Eligible C call :=
        ConduitRouter.getClientForServer_isSome.1 (by rw [hclient]; rfl)
      exact iff_of_true htarget heligible
  | named C' hregistry hnone hcall =>
      have hnoclient := hnone _ hdirect
      have hineligible : ¬ Eligible C call := fun heligible => by
        have hsome := ConduitRouter.getClientForServer_isSome.2 heligible
        rw [hnoclient] at hsome
        cases hsome
      refine iff_of_false (fun heq => hineligible ?_) hineligible
      have hne := ConduitRouter.getHealthyReplicas_ne_nil_of_resolveToolCall hcall
      rwa [hregistry, heq] at hne

theorem call_confined_iff (hC : C.registry.WellIndexed) {tr : Trace} {o : Op}
    {next : Ans o → Proc Outcome} (hsteps : Steps (P.handleToolCall call) tr (.op o next))
    (hrouter : AnsweredFrom C tr) {serverId : String} (hsource : o.source? = some serverId) :
    Allowed P call serverId ↔ call.profileId.isSome = true ∨ Eligible C call := by
  rcases RequestPipeline.handleToolCall_cases hsteps with ⟨-, hpending⟩ | hserved
  · rcases hpending with ⟨o', next', heq, ho'⟩ | ⟨out, hresult, -⟩
    · cases heq
      rw [source_isAdmission hsource] at ho'
      cases ho'
    · cases hresult
  · obtain ⟨service, tr₁, tr₂, rfl, hadmission, hdispatch⟩ := hserved
    have hadmits := RequestPipeline.admits_of_steps hadmission
    obtain ⟨resolution, routed, annotations, hresolve, hactual, hrouted, hclient, -⟩ :=
      hadmits.resolved
    obtain rfl := hrouter _ (hresolve.mono (List.prefix_append tr₁ tr₂)) _ rfl
    have hserver : service.actual.serverId = routed.serverId := by
      rw [hactual, routed_serverId hrouted]
    have hsame : service.client.serverId = service.actual.serverId := by
      rw [hclient, routed_client hC call.eq_of_directServerId hrouted, hserver]
    have hemits := RequestPipeline.emits_of_steps hdispatch
    rw [source_of_emits hsame hemits hsource]
    cases hprofile : call.profileId with
    | some profileId =>
        exact iff_of_true (allowed_of_inProfile hadmits.inProfile (by rw [hprofile]; rfl)) (by simp)
    | none =>
        rw [allowed_of_profileId_none hprofile, hserver, routed_confined_iff hprofile hrouted]
        simp

end ToolsCall

section ToolsList

def listingContract (client : ClientRef) : Contract Op Ans Outcome where
  rely := fun _ _ => True
  emits := fun _ o =>
    match o with
    | .forward asked _ => asked = client
    | .updateAnnotations _ _ => True
    | _ => False
  exits := fun _ _ => True

theorem passthroughToServer_listing (message : Json) (client : ClientRef)
    (serverConfig : ServerConfig) (tr : Trace) :
    Meets (listingContract client) (fun _ _ => True)
      (P.passthroughToServer call message client serverConfig) tr := by
  unfold RequestPipeline.passthroughToServer
  split
  · trivial
  · refine Meets.ask_bind rfl fun response _ => ?_
    cases response <;> trivial

theorem recordTools_listing (client : ClientRef) (tools : List Json) (tr : Trace) :
    Meets (listingContract client) (fun _ _ => True) (RequestPipeline.recordTools call tools) tr := by
  unfold RequestPipeline.recordTools
  split
  · trivial
  · exact meets_ask.2 ⟨trivial, fun _ _ => trivial⟩

theorem listFromServer_meets (client : ClientRef) (tr : Trace) :
    Meets (listingContract client) (fun _ _ => True) (P.listFromServer call client) tr := by
  unfold RequestPipeline.listFromServer
  split
  · trivial
  · refine (passthroughToServer_listing ..).bind fun tr' exchange _ _ => ?_
    cases exchange with
    | identityError message => trivial
    | failed message => trivial
    | completed result =>
        dsimp only
        split
        · trivial
        · exact (recordTools_listing ..).bind fun _ _ _ _ => trivial

theorem source_of_listing {client : ClientRef} {tr : Trace} {o : Op}
    {next : Ans o → Proc Outcome} (hsteps : Steps (P.listFromServer call client) tr (.op o next))
    {serverId : String} (hsource : o.source? = some serverId) : serverId = client.serverId := by
  have hemits := (Meets.of_steps (listFromServer_meets client []) hsteps fun _ _ => trivial).1
  cases o with
  | forward asked options =>
      obtain rfl := Option.some.inj hsource
      rw [show asked = client from hemits]
  | l1Get key => exact hemits.elim
  | l2Get key => exact hemits.elim
  | enterFlight key => exact hemits.elim
  | _ => cases hsource

theorem not_aggregated_of_listing {client : ClientRef} {tr : Trace} {q : Proc Outcome}
    (hsteps : Steps (P.listFromServer call client) tr q) (tools : List AggregatedTool) :
    ¬ Answered tr .getAggregatedTools tools := by
  intro hmem
  obtain ⟨tr₁, tr₂, rfl⟩ := List.append_of_mem hmem
  exact Meets.emits_of_steps (listFromServer_meets client []) hsteps fun _ _ => trivial

-- the servers that an aggregated listing is cut down to, all of them for a plain target
def ListsFor (P : RequestPipeline) (call : ToolCall) (serverIds : Option (List String)) : Prop :=
  match call.profileId with
  | none => serverIds = none
  | some profileId =>
      ∃ profile, P.config.resolveConnectProfile profileId = some profile ∧
        serverIds = some (profile.servers.map ServerConfig.id)

inductive Listing (P : RequestPipeline) (call : ToolCall) : Trace → Proc Outcome → Prop where
  | unknown (out : Outcome) : Listing P call [] (.exit out)
  | asking (next : Option ClientRef → Proc Outcome) :
      Listing P call [] (.op (.getClientForServer call.serverId) next)
  | direct {client : ClientRef} {tr : Trace} {q : Proc Outcome} (hplain : call.profileId = none)
      (hsteps : Steps (P.listFromServer call client) tr q) :
      Listing P call (⟨.getClientForServer call.serverId, some client⟩ :: tr) q
  | gathering {serverIds : Option (List String)} {found : Option ClientRef}
      (hids : ListsFor P call serverIds) (hfound : call.profileId = none → found = none)
      (next : List AggregatedTool → Proc Outcome) :
      Listing P call [⟨.getClientForServer call.serverId, found⟩] (.op .getAggregatedTools next)
  | aggregated {serverIds : Option (List String)} {found : Option ClientRef}
      (hids : ListsFor P call serverIds) (hfound : call.profileId = none → found = none)
      (tools : List AggregatedTool) :
      Listing P call [⟨.getClientForServer call.serverId, found⟩, ⟨.getAggregatedTools, tools⟩]
        (.pure (RequestPipeline.toolsListing call (P.visibleTools call serverIds tools)))

theorem listing_of_aggregation {serverIds : Option (List String)} {found : Option ClientRef}
    (hids : ListsFor P call serverIds) (hfound : call.profileId = none → found = none)
    {tr : Trace} {q : Proc Outcome}
    (hsteps : Steps (.op .getAggregatedTools fun tools =>
      .pure (RequestPipeline.toolsListing call (P.visibleTools call serverIds tools))) tr q) :
    Listing P call (⟨.getClientForServer call.serverId, found⟩ :: tr) q := by
  cases hsteps with
  | refl => exact .gathering hids hfound _
  | answer tools rest =>
      cases rest with
      | refl => exact .aggregated hids hfound tools

theorem listing_of_steps {tr : Trace} {q : Proc Outcome}
    (hsteps : Steps (P.handleToolsList call) tr q) : Listing P call tr q := by
  unfold RequestPipeline.handleToolsList RequestPipeline.getProfileServerIdSet at hsteps
  cases hprofile : call.profileId with
  | none =>
      have hids : ListsFor P call none := by simp [ListsFor, hprofile]
      rw [hprofile] at hsteps
      cases hsteps with
      | refl => exact .asking _
      | answer found rest =>
          cases found with
          | some client => exact .direct hprofile rest
          | none => exact listing_of_aggregation hids (fun _ => rfl) rest
  | some profileId =>
      have hfound : ∀ found : Option ClientRef, call.profileId = none → found = none := by
        intro found hnone
        rw [hprofile] at hnone
        cases hnone
      rw [hprofile] at hsteps
      cases hresolve : P.config.resolveConnectProfile profileId with
      | none =>
          simp only [hresolve, exit_bind] at hsteps
          obtain ⟨rfl, rfl⟩ := Steps.of_exit hsteps
          exact .unknown _
      | some profile =>
          have hids : ListsFor P call (some (profile.servers.map ServerConfig.id)) := by
            simp [ListsFor, hprofile, hresolve]
          simp only [hresolve, Program.pure_bind] at hsteps
          cases hsteps with
          | refl => exact .asking _
          | answer found rest => exact listing_of_aggregation hids (hfound found) rest

theorem list_source_allowed (hC : C.registry.WellIndexed) {tr : Trace} {o : Op}
    {next : Ans o → Proc Outcome} (hsteps : Steps (P.handleToolsList call) tr (.op o next))
    (hrouter : AnsweredFrom C tr) {serverId : String} (hsource : o.source? = some serverId) :
    Allowed P call serverId := by
  cases listing_of_steps hsteps with
  | asking next => cases hsource
  | gathering hids hfound next => cases hsource
  | direct hplain hlisting =>
      rename_i client tr
      have hclient := hrouter _ (List.mem_cons_self ..) _ rfl
      rw [allowed_of_profileId_none hplain, source_of_listing hlisting hsource]
      exact ConduitRouter.serverId_of_getClientForServer hC hclient.symm

def OwnVisibleTools (P : RequestPipeline) (C : ConduitRouter) (call : ToolCall) : Prop :=
  ∀ tool ∈ C.getAggregatedToolsWithServerIds,
    P.canView call ⟨tool.serverId, tool.toolName⟩ = true → tool.serverId = call.serverId

theorem serverId_mem_of_visible {serverIds : List String} {tools : List AggregatedTool}
    {tool : AggregatedTool} (h : tool ∈ P.visibleTools call (some serverIds) tools) :
    tool.serverId ∈ serverIds := by
  have hkept := (List.mem_filter.mp h).2
  simp only [Bool.and_eq_true] at hkept
  simpa using hkept.1

theorem list_confined_iff {tr : Trace} {out : Outcome}
    (hsteps : Steps (P.handleToolsList call) tr (.pure out)) (hrouter : AnsweredFrom C tr)
    {tools : List AggregatedTool} (haggregated : Answered tr .getAggregatedTools tools) :
    ∃ listed, out = RequestPipeline.toolsListing call listed ∧
      ((∀ tool ∈ listed, Allowed P call tool.serverId) ↔
        call.profileId.isSome = true ∨ Eligible C call ∨ OwnVisibleTools P C call) := by
  cases listing_of_steps hsteps with
  | direct hplain hlisting =>
      rcases List.mem_cons.mp haggregated with hfirst | hrest
      · cases hfirst
      · exact absurd hrest (not_aggregated_of_listing hlisting tools)
  | aggregated hids hfound shown =>
      rename_i serverIds found
      refine ⟨_, rfl, ?_⟩
      obtain rfl := hrouter ⟨.getAggregatedTools, shown⟩ (by simp) _ rfl
      cases hprofile : call.profileId with
      | some profileId =>
          refine iff_of_true (fun tool htool => ?_) (.inl rfl)
          rw [ListsFor, hprofile] at hids
          obtain ⟨profile, hresolve, rfl⟩ := hids
          rw [Allowed, hprofile]
          exact ⟨profile, hresolve, serverId_mem_of_visible htool⟩
      | none =>
          rw [ListsFor, hprofile] at hids
          obtain rfl := hids
          have hnone := hrouter ⟨.getClientForServer call.serverId, found⟩ (by simp) _ rfl
          rw [hfound hprofile] at hnone
          have hineligible : ¬ Eligible C call := fun heligible => by
            have hsome := ConduitRouter.getClientForServer_isSome.2 heligible
            rw [← hnone] at hsome
            cases hsome
          simp [hineligible, allowed_of_profileId_none hprofile, OwnVisibleTools,
            RequestPipeline.visibleTools]

end ToolsList

theorem target_confined_iff (hC : C.Reached P.config.router) :
    (∀ tr o next serverId, Steps (P.handleToolCall call) tr (.op o next) → AnsweredFrom C tr →
      o.source? = some serverId →
      (Allowed P call serverId ↔ call.profileId.isSome = true ∨ Eligible C call)) ∧
    (∀ tr o next serverId, Steps (P.handleToolsList call) tr (.op o next) → AnsweredFrom C tr →
      o.source? = some serverId → Allowed P call serverId) ∧
    ∀ tr out tools, Steps (P.handleToolsList call) tr (.pure out) → AnsweredFrom C tr →
      Answered tr .getAggregatedTools tools →
      ∃ listed, out = RequestPipeline.toolsListing call listed ∧
        ((∀ tool ∈ listed, Allowed P call tool.serverId) ↔
          call.profileId.isSome = true ∨ Eligible C call ∨ OwnVisibleTools P C call) := by
  have hindexed := ConduitRouter.wellIndexed_of_reached hC
  refine ⟨fun tr o next serverId hsteps hrouter hsource => ?_,
    fun tr o next serverId hsteps hrouter hsource => ?_,
    fun tr out tools hsteps hrouter haggregated => ?_⟩
  · exact call_confined_iff hindexed hsteps hrouter hsource
  · exact list_source_allowed hindexed hsteps hrouter hsource
  · exact list_confined_iff hsteps hrouter haggregated

section Example

def routedAnswer (C : ConduitRouter) (o : Op) : Ans o :=
  (routerAnswer? C o).getD (permissive o)

theorem answeredFrom_drive (C : ConduitRouter) (n : ℕ) (p : Proc Outcome) :
    AnsweredFrom C (drive (routedAnswer C) n p).1 := by
  intro e he a ha
  rw [answer_of_mem_drive he, routedAnswer, ha]
  rfl

def pairPipeline : RequestPipeline where
  host := plainHost
  config := { servers := [{ id := "crm", url := "http://crm" }, { id := "erp", url := "http://erp" }] }

def pairRouter (events : List RouterEvent) : ConduitRouter :=
  events.foldl ConduitRouter.step (.init pairPipeline.config.router pairPipeline.config.servers)

theorem reached_pairRouter (events : List RouterEvent) :
    (pairRouter events).Reached pairPipeline.config.router :=
  ⟨pairPipeline.config.servers, events, rfl⟩

-- three failed health checks of the only replica of crm
def crmDown : List RouterEvent :=
  List.replicate 3 (.checkReplicaHealth ⟨"crm", 0⟩ false 0 0)

def erpCall : ToolCall where
  self := 0
  serverId := "crm"
  message := toolsCall (.obj [("name", .str "erp.delete_contact")])
  context := { traceId := "t", rawHeaders := .empty }
  principal := { clientId := "agent-7", tenantId := "acme" }

def erpRun (events : List RouterEvent) : Trace × Proc Outcome :=
  drive (routedAnswer (pairRouter events)) 2 (pairPipeline.handleToolCall erpCall)

theorem target_confined_up : ∃ client options next,
    (erpRun []).2 = .op (.forward client options) next ∧
    (Allowed pairPipeline erpCall client.serverId ↔
      erpCall.profileId.isSome = true ∨ Eligible (pairRouter []) erpCall) :=
  ⟨_, _, _, rfl, (target_confined_iff (reached_pairRouter [])).1 _ _ _ _ (drive_steps _ 2 _)
    (answeredFrom_drive _ 2 _) rfl⟩

theorem call_leaves_target : ∃ client options next,
    (pairRouter crmDown).Reached pairPipeline.config.router ∧
    AnsweredFrom (pairRouter crmDown) (erpRun crmDown).1 ∧
    Steps (pairPipeline.handleToolCall erpCall) (erpRun crmDown).1
      (.op (.forward client options) next) ∧
    client.serverId = "erp" ∧ ¬ Allowed pairPipeline erpCall client.serverId := by
  have hforeign : ¬ Allowed pairPipeline erpCall "erp" := by
    rw [allowed_of_profileId_none (by decide)]
    decide
  exact ⟨_, _, _, reached_pairRouter crmDown, answeredFrom_drive _ 2 _, drive_steps _ 2 _, rfl,
    hforeign⟩

end Example

end Conduit.Gateway
