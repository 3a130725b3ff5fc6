import Conduit.Gateway.Admission

namespace Conduit.Gateway

open Router Governance Cache Proxy Identity Program

namespace Service

variable (P : RequestPipeline) (call : ToolCall) (service : Service)

def Looked (tr : Trace) : Prop := ∃ found, Answered tr (.l1Get (P.cacheKey call service)) found

def Invalidated (tr : Trace) : Prop :=
  service.policy.isDestructive = true → ∀ toolName ∈ service.policy.invalidates,
    Answered tr (.l1DeleteByTool toolName service.actual.serverId) () ∧
    (P.hasL2Cache = true → Answered tr (.l2DeleteByTool toolName service.actual.serverId) ())

def Flown (tr : Trace) (result : FlightResult) : Prop :=
  ∃ flight, Answered tr (.awaitFlight flight) result

-- the settlement is what an upstream replied after the call had looked in the cache
def Forwarded (tr : Trace) (settlement : Settlement) : Prop :=
  ∃ before client options response,
    before ++ [(⟨.forward client options, .ok response⟩ : Event Op Ans)] <+: tr ∧
    Looked P call service before ∧
    settlementOf (.completed (RequestPipeline.completed call response)) = settlement

structure Fresh (tr : Trace) (entry : CacheEntry) : Prop where
  toolName : entry.toolName = service.actual.toolName
  serverId : entry.serverId = service.actual.serverId
  flown : Flown tr ⟨.resolved entry.result, entry.origin⟩
  healthy : RequestPipeline.isToolError entry.result = false

inductive Obtained (tr : Trace) : CallId → Prop where
  | own : Obtained tr call.self
  | l1 {entry : CacheEntry} (h : Answered tr (.l1Get (P.cacheKey call service)) (some entry)) :
      Obtained tr entry.origin
  | l2 {entry : CacheEntry} (h : Answered tr (.l2Get (P.cacheKey call service)) (some entry)) :
      Obtained tr entry.origin
  | flight {result : FlightResult} (h : Flown tr result) : Obtained tr result.origin

def Invalidates (toolName serverId : String) : Prop :=
  serverId = service.actual.serverId ∧ service.policy.isDestructive = true ∧
    toolName ∈ service.policy.invalidates

def emits (tr : Trace) : Op → Prop
  | .runHook _ => True
  | .now => True
  | .consumeServerLimits _ _ _ => True
  | .forward client options =>
      client = service.client ∧
        options.body = buildForwardMessage call.message service.actual.toolName ∧
        Invalidated P service tr
  | .l1Get key => key = P.cacheKey call service
  | .l2Get key =>
      key = P.cacheKey call service ∧ Looked P call service tr ∧ P.hasL2Cache = true
  | .enterFlight key => key = P.cacheKey call service ∧ Looked P call service tr
  | .l1Set key entry =>
      key = P.cacheKey call service ∧ Looked P call service tr ∧
        (Answered tr (.l2Get (P.cacheKey call service)) (some entry) ∨ Fresh service tr entry)
  | .l2Set key entry _ =>
      key = P.cacheKey call service ∧ Looked P call service tr ∧ Fresh service tr entry ∧
        P.hasL2Cache = true
  | .settleFlight flight result =>
      result.origin = call.self ∧
        Answered tr (.enterFlight (P.cacheKey call service)) (.started flight) ∧
        ∀ content, result.settlement = .resolved content →
          Forwarded P call service tr (.resolved content)
  | .awaitFlight flight =>
      ∃ entered, Answered tr (.enterFlight (P.cacheKey call service)) entered ∧
        (entered = .joined flight ∨ entered = .started flight)
  | .l1DeleteByTool toolName serverId => Invalidates service toolName serverId
  | .l2DeleteByTool toolName serverId => Invalidates service toolName serverId
  | _ => False

def exits (tr : Trace) (out : Outcome) : Prop :=
  ∀ origin, out.origin = some origin → Obtained P call service tr origin

def contract : Contract Op Ans Outcome where
  rely := fun _ _ => True
  emits := emits P call service
  exits := exits P call service

variable {P call service}

theorem Looked.mono {tr tr' : Trace} (h : Looked P call service tr) (hextends : tr <+: tr') :
    Looked P call service tr' := by
  obtain ⟨found, hfound⟩ := h
  exact ⟨found, hfound.mono hextends⟩

theorem Invalidated.mono {tr tr' : Trace} (h : Invalidated P service tr)
    (hextends : tr <+: tr') : Invalidated P service tr' := by
  intro hdestructive toolName hmem
  obtain ⟨hl1, hl2⟩ := h hdestructive toolName hmem
  exact ⟨hl1.mono hextends, fun henabled => (hl2 henabled).mono hextends⟩

theorem Flown.mono {tr tr' : Trace} {result : FlightResult} (h : Flown tr result)
    (hextends : tr <+: tr') : Flown tr' result := by
  obtain ⟨flight, hflight⟩ := h
  exact ⟨flight, hflight.mono hextends⟩

theorem Forwarded.mono {tr tr' : Trace} {settlement : Settlement}
    (h : Forwarded P call service tr settlement) (hextends : tr <+: tr') :
    Forwarded P call service tr' settlement := by
  obtain ⟨before, client, options, response, hforward, hrest⟩ := h
  exact ⟨before, client, options, response, hforward.trans hextends, hrest⟩

theorem exits_of_none {tr : Trace} {out : Outcome} (h : out.origin = none) :
    exits P call service tr out := by
  intro origin horigin
  rw [h] at horigin
  cases horigin

theorem exits_of_obtained {tr : Trace} {out : Outcome} {origin : CallId}
    (h : out.origin = some origin) (hobtained : Obtained P call service tr origin) :
    exits P call service tr out := by
  intro origin' horigin
  obtain rfl := Option.some.inj (h.symm.trans horigin)
  exact hobtained

end Service

namespace RequestPipeline

variable {P : RequestPipeline} {call : ToolCall} {service : Service}

open Service

theorem runHook_meets (name : HookName) (tr : Trace) :
    Meets (contract P call service) (fun _ _ => True) (P.runHook name) tr := by
  unfold runHook
  split
  · refine Meets.ask_bind trivial fun response _ => ?_
    cases response with
    | none => trivial
    | some response => exact exits_of_none rfl
  · trivial

theorem consumeServerLimits_meets (actual : ToolTarget) (tr : Trace) :
    Meets (contract P call service) (fun _ _ => True) (P.consumeServerLimits call actual) tr := by
  unfold consumeServerLimits
  split
  · refine Meets.ask_bind trivial fun decision _ => ?_
    unfold checkLimit
    split
    · trivial
    · exact exits_of_none rfl
  · trivial

theorem invalidateTool_meets {toolName : String}
    (h : Invalidates service toolName service.actual.serverId) (tr : Trace) :
    Meets (contract P call service) (fun tr' _ =>
      Answered tr' (.l1DeleteByTool toolName service.actual.serverId) () ∧
      (P.hasL2Cache = true → Answered tr' (.l2DeleteByTool toolName service.actual.serverId) ()))
      (P.invalidateTool service.actual.serverId toolName) tr := by
  unfold invalidateTool
  refine Meets.ask_bind h fun _ _ => ?_
  split
  · refine meets_ask.2 ⟨h, fun _ _ => ⟨?_, fun _ => answered_snoc ..⟩⟩
    exact (answered_snoc ..).mono (List.prefix_append _ _)
  next hdisabled => exact ⟨answered_snoc .., fun henabled => absurd henabled hdisabled⟩

theorem invalidateAll_meets {toolNames : List String}
    (h : ∀ toolName ∈ toolNames, Invalidates service toolName service.actual.serverId)
    (tr : Trace) :
    Meets (contract P call service) (fun tr' _ => ∀ toolName ∈ toolNames,
      Answered tr' (.l1DeleteByTool toolName service.actual.serverId) () ∧
      (P.hasL2Cache = true → Answered tr' (.l2DeleteByTool toolName service.actual.serverId) ()))
      (P.invalidateAll service.actual.serverId toolNames) tr := by
  induction toolNames generalizing tr with
  | nil => simp [invalidateAll]
  | cons toolName rest ih =>
      have hfirst := @invalidateTool_meets P call service _ (h toolName (by simp)) tr
      refine hfirst.bind fun tr₁ _ _ hdone => ?_
      refine (ih (fun t ht => h t (List.mem_cons_of_mem _ ht)) tr₁).imp fun tr₂ _ h₁₂ hrest => ?_
      intro t ht
      rcases List.mem_cons.mp ht with rfl | hmem
      · exact ⟨hdone.1.mono h₁₂, fun henabled => (hdone.2 henabled).mono h₁₂⟩
      · exact hrest t hmem

theorem invalidate_meets (tr : Trace) :
    Meets (contract P call service) (fun tr' _ => Invalidated P service tr')
      (P.invalidate service.actual.serverId service.policy) tr := by
  unfold invalidate
  split
  next hdestructive =>
    simp only [Bool.and_eq_true, decide_eq_true_eq] at hdestructive
    refine (invalidateAll_meets (fun t ht => ⟨rfl, hdestructive.1, ht⟩) tr).imp
      fun tr' _ _ hall _ => hall
  next hnot =>
    intro hdestructive toolName hmem
    refine absurd ?_ hnot
    simpa [hdestructive] using List.ne_nil_of_mem hmem

theorem passthroughToServer_meets {tr : Trace} (h : Invalidated P service tr) :
    Meets (contract P call service) (fun tr' exchange => tr <+: tr' ∧
      ∀ result, exchange = .completed result → ∃ client options response,
        tr ++ [(⟨.forward client options, .ok response⟩ : Event Op Ans)] <+: tr' ∧
        result = completed call response)
      (P.passthroughToServer call (buildForwardMessage call.message service.actual.toolName)
        service.client service.serverConfig) tr := by
  unfold passthroughToServer
  split
  · exact ⟨List.prefix_rfl, by simp⟩
  · refine Meets.ask_bind ⟨rfl, rfl, h⟩ fun response _ => ?_
    cases response with
    | error error => exact ⟨List.prefix_append _ _, by simp⟩
    | ok response =>
        refine ⟨List.prefix_append _ _, fun result hresult => ?_⟩
        exact ⟨_, _, response, List.prefix_rfl, (Exchange.completed.inj hresult).symm⟩

theorem callUpstream_meets {tr : Trace} (h : Invalidated P service tr) :
    Meets (contract P call service) (exits P call service) (P.callUpstream call service) tr := by
  unfold callUpstream
  refine (consumeServerLimits_meets service.actual tr).bind fun tr₁ _ h₁ _ => ?_
  refine (passthroughToServer_meets (h.mono h₁)).bind fun tr₂ exchange _ hexchange => ?_
  cases exchange with
  | identityError message => exact exits_of_obtained rfl .own
  | failed message => exact exits_of_obtained rfl .own
  | completed result =>
      obtain ⟨client, options, response, -, rfl⟩ := hexchange.2 result rfl
      exact exits_of_obtained rfl .own

theorem lookup_meets (tr : Trace) :
    Meets (contract P call service) (fun tr' _ => Looked P call service tr')
      (lookup call (P.cacheKey call service)) tr := by
  unfold lookup
  refine Meets.ask_bind rfl fun found _ => ?_
  cases found with
  | none => exact ⟨none, answered_snoc ..⟩
  | some entry => exact exits_of_obtained rfl (.l1 (answered_snoc ..))

theorem lookupL2_meets {tr : Trace} (h : Looked P call service tr) :
    Meets (contract P call service) (fun _ _ => True)
      (P.lookupL2 call (P.cacheKey call service)) tr := by
  unfold lookupL2
  split
  next henabled =>
    refine Meets.ask_bind ⟨rfl, h, henabled⟩ fun found _ => ?_
    cases found with
    | none => trivial
    | some entry =>
        have hfound := answered_snoc tr (.l2Get (P.cacheKey call service)) (some entry)
        refine Meets.ask_bind ⟨rfl, h.mono (List.prefix_append _ _), .inl hfound⟩ fun _ _ => ?_
        exact exits_of_obtained rfl (.l2 (hfound.mono (List.prefix_append _ _)))
  next => trivial

theorem fetch_meets {tr : Trace} (hlooked : Looked P call service tr)
    (h : Invalidated P service tr) :
    Meets (contract P call service) (fun tr' settlement => ∀ content,
      settlement = .resolved content → Forwarded P call service tr' (.resolved content))
      (P.fetch call service) tr := by
  unfold fetch
  refine (passthroughToServer_meets h).bind fun tr' exchange _ hexchange => ?_
  intro content hcontent
  cases exchange with
  | identityError message => cases hcontent
  | failed message => cases hcontent
  | completed result =>
      obtain ⟨client, options, response, hforward, rfl⟩ := hexchange.2 result rfl
      exact ⟨tr, client, options, response, hforward, hlooked, hcontent⟩

theorem awaitFlight_meets {tr : Trace} {flight : FlightId} {entered : FlightEntry}
    (h : Answered tr (.enterFlight (P.cacheKey call service)) entered)
    (hflight : entered = .joined flight ∨ entered = .started flight) :
    Meets (contract P call service) (fun tr' result => Flown tr' result)
      (perform (.awaitFlight flight)) tr :=
  meets_ask.2 ⟨⟨entered, h, hflight⟩, fun _ _ => ⟨flight, answered_snoc ..⟩⟩

theorem deduplicate_meets {tr : Trace} (hlooked : Looked P call service tr)
    (hinvalidated : Invalidated P service tr) :
    Meets (contract P call service) (fun tr' result => Flown tr' result)
      (deduplicate call (P.cacheKey call service) (P.fetch call service)) tr := by
  unfold deduplicate
  refine Meets.ask_bind ⟨rfl, hlooked⟩ fun entered _ => ?_
  have hentered := answered_snoc tr (.enterFlight (P.cacheKey call service)) entered
  cases entered with
  | joined flight => exact awaitFlight_meets hentered (.inl rfl)
  | started flight =>
      have hextends := List.prefix_append tr
        [(⟨.enterFlight (P.cacheKey call service), .started flight⟩ : Event Op Ans)]
      have hfetch := fetch_meets (hlooked.mono hextends) (hinvalidated.mono hextends)
      refine hfetch.bind fun tr₁ settlement h₁ hforwarded => ?_
      refine Meets.ask_bind ⟨rfl, hentered.mono h₁, hforwarded⟩ fun _ _ => ?_
      exact awaitFlight_meets (hentered.mono (h₁.trans (List.prefix_append _ _))) (.inr rfl)

theorem contentOf_meets {tr : Trace} {result : FlightResult} (h : Flown tr result) :
    Meets (contract P call service) (fun _ content => result.settlement = .resolved content)
      (contentOf call result) tr := by
  unfold contentOf
  split
  next content hcontent => exact hcontent
  next => exact exits_of_obtained rfl (.flight h)
  next => exact exits_of_obtained rfl (.flight h)
  next => exact exits_of_obtained rfl (.flight h)

theorem store_meets {tr : Trace} {entry : CacheEntry} (hlooked : Looked P call service tr)
    (hfresh : Fresh service tr entry) :
    Meets (contract P call service) (fun _ _ => True)
      (P.store (P.cacheKey call service) entry) tr := by
  unfold store
  refine Meets.ask_bind ⟨rfl, hlooked, .inr hfresh⟩ fun _ _ => ?_
  have hextends := List.prefix_append tr
    [(⟨.l1Set (P.cacheKey call service) entry, ()⟩ : Event Op Ans)]
  split
  next henabled =>
    have hfresh' : Fresh service (tr ++ [(⟨.l1Set (P.cacheKey call service) entry, ()⟩ :
        Event Op Ans)]) entry :=
      ⟨hfresh.toolName, hfresh.serverId, hfresh.flown.mono hextends, hfresh.healthy⟩
    exact meets_ask.2 ⟨⟨rfl, hlooked.mono hextends, hfresh', henabled⟩, fun _ _ => trivial⟩
  next => trivial

theorem storeAndRespond_meets {tr : Trace} {content : Json} {origin : CallId}
    (hlooked : Looked P call service tr) (h : Flown tr ⟨.resolved content, origin⟩)
    (hhealthy : isToolError content = false) :
    Meets (contract P call service) (exits P call service)
      (P.storeAndRespond call service content origin) tr := by
  unfold storeAndRespond
  refine Meets.ask_bind trivial fun createdAt _ => ?_
  have hextends := List.prefix_append tr [(⟨.now, createdAt⟩ : Event Op Ans)]
  have hfresh : Fresh service (tr ++ [(⟨.now, createdAt⟩ : Event Op Ans)])
      (newEntry service content createdAt origin) :=
    ⟨rfl, rfl, h.mono hextends, hhealthy⟩
  refine (store_meets (hlooked.mono hextends) hfresh).bind fun tr₁ _ h₁ _ => ?_
  refine (runHook_meets .beforeResponse tr₁).bind fun tr₂ _ h₂ _ => ?_
  exact exits_of_obtained rfl (.flight (h.mono ((hextends.trans h₁).trans h₂)))

theorem callThroughCache_meets {tr : Trace} (h : Invalidated P service tr) :
    Meets (contract P call service) (exits P call service)
      (P.callThroughCache call service) tr := by
  unfold callThroughCache
  refine (runHook_meets .beforeCache tr).bind fun tr₁ _ h₁ _ => ?_
  refine (lookup_meets tr₁).bind fun tr₂ _ h₂ hlooked => ?_
  refine (lookupL2_meets hlooked).bind fun tr₃ _ h₃ _ => ?_
  refine (consumeServerLimits_meets service.actual tr₃).bind fun tr₄ _ h₄ _ => ?_
  have hlooked₄ := hlooked.mono (h₃.trans h₄)
  have hinvalidated₄ := h.mono (((h₁.trans h₂).trans h₃).trans h₄)
  refine (deduplicate_meets hlooked₄ hinvalidated₄).bind fun tr₅ result h₅ hflown => ?_
  refine (contentOf_meets hflown).bind fun tr₆ content h₆ hcontent => ?_
  refine (runHook_meets .afterUpstream tr₆).bind fun tr₇ _ h₇ _ => ?_
  have hflown₇ := hflown.mono (h₆.trans h₇)
  split
  next => exact exits_of_obtained rfl (.flight hflown₇)
  next hnot =>
    obtain ⟨settlement, origin⟩ := result
    obtain rfl : settlement = .resolved content := hcontent
    have hlooked₇ := hlooked₄.mono ((h₅.trans h₆).trans h₇)
    exact storeAndRespond_meets hlooked₇ hflown₇ (Bool.eq_false_iff.mpr hnot)

theorem dispatch_meets (tr : Trace) : Meets (contract P call service) (exits P call service)
    (P.dispatch call service) tr := by
  unfold dispatch
  refine (invalidate_meets tr).bind fun tr₁ _ _ hinvalidated => ?_
  split
  · exact callThroughCache_meets hinvalidated
  · exact callUpstream_meets hinvalidated

theorem admits_of_steps {tr : Trace} (h : Steps (P.admission call) tr (.pure service)) :
    Admits P call service tr :=
  Meets.of_steps admission_meets h fun _ _ => trivial

theorem isAdmission_of_steps {tr : Trace} {q : Proc Service} (h : Steps (P.admission call) tr q)
    {e : Event Op Ans} (he : e ∈ tr) : e.1.isAdmission = true := by
  obtain ⟨tr₁, tr₂, rfl⟩ := List.append_of_mem he
  exact Meets.emits_of_steps admission_meets h fun _ _ => trivial

theorem emits_of_steps {tr : Trace} {o : Op} {next : Ans o → Proc Outcome}
    (h : Steps (P.dispatch call service) tr (.op o next)) : emits P call service tr o :=
  (Meets.of_steps (dispatch_meets []) h fun _ _ => trivial).1

-- a call is either still being admitted or served under what admission has established
theorem handleToolCall_cases {tr : Trace} {q : Proc Outcome}
    (h : Steps (P.handleToolCall call) tr q) :
    ((∀ e ∈ tr, e.1.isAdmission = true) ∧
      ((∃ o next, q = .op o next ∧ o.isAdmission = true) ∨
        ∃ out, q = .exit out ∧ out.origin = none)) ∨
    ∃ service tr₁ tr₂, tr = tr₁ ++ tr₂ ∧ Steps (P.admission call) tr₁ (.pure service) ∧
      Steps (P.dispatch call service) tr₂ q := by
  rcases Steps.bind_cases h with ⟨p, hp, rfl, hpure⟩ | hserved
  · refine .inl ⟨fun e he => isAdmission_of_steps hp he, ?_⟩
    have hmeets := Meets.of_steps admission_meets hp fun _ _ => trivial
    cases p with
    | pure service => exact absurd rfl (hpure service)
    | exit out => exact .inr ⟨out, rfl, hmeets⟩
    | op o next => exact .inl ⟨o, _, rfl, hmeets.1⟩
  · exact .inr hserved

end RequestPipeline

end Conduit.Gateway
