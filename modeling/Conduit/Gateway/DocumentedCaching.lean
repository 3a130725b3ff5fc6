import Conduit.Gateway.DeclaredInvalidations

namespace Conduit.Cache

section Policy

variable (config : ServerCacheConfig) (annotations : ToolAnnotations) (toolName : String)

def declaredOverride? : Option ToolOverrideConfig :=
  config.overrides.bind (·.get? toolName)

def Cacheable : Prop :=
  annotations.destructiveHint ≠ some true ∧
    (annotations.readOnlyHint = some true ∨ annotations.idempotentHint = some true ∨
      annotations.openWorldHint = some true)

-- the policy as it is documented, for the tool of that very name
def Documented : Prop :=
  match declaredOverride? config toolName with
  | some override => 0 < override.ttl.getD config.defaultTtl
  | none => 0 < config.defaultTtl ∧ Cacheable annotations

-- a plain object answers such a name although nothing is declared under it
def Inherits : Prop := config.overrides.isSome = true ∧ toolName ∈ inheritedKeys

structure Conforms : Prop where
  inherited : declaredOverride? config toolName = none → Inherits config toolName →
    0 < config.defaultTtl → Cacheable annotations
  hinted : declaredOverride? config toolName = none → ¬ Inherits config toolName →
    Cacheable annotations → 0 < config.defaultTtl

variable {config annotations toolName}

theorem toolOverride_of_declared {override : ToolOverrideConfig}
    (h : declaredOverride? config toolName = some override) :
    toolOverride config toolName = some override := by
  obtain ⟨overrides, hoverrides, hget⟩ := Option.bind_eq_some_iff.mp h
  simp only [toolOverride, hoverrides, hget]

theorem toolOverride_of_inherits (hnone : declaredOverride? config toolName = none)
    (h : Inherits config toolName) : toolOverride config toolName = some {} := by
  obtain ⟨overrides, hoverrides⟩ := Option.isSome_iff_exists.mp h.1
  rw [declaredOverride?, hoverrides] at hnone
  change overrides.get? toolName = none at hnone
  simp only [toolOverride, hoverrides, hnone, if_pos h.2]

theorem toolOverride_of_not_inherits (hnone : declaredOverride? config toolName = none)
    (h : ¬ Inherits config toolName) : toolOverride config toolName = none := by
  cases hoverrides : config.overrides with
  | none => simp only [toolOverride, hoverrides]
  | some overrides =>
      rw [declaredOverride?, hoverrides] at hnone
      change overrides.get? toolName = none at hnone
      have hname : toolName ∉ inheritedKeys := fun hmem => h ⟨by simp [hoverrides], hmem⟩
      simp only [toolOverride, hoverrides, hnone, if_neg hname]

@[simp] theorem shouldCache_applyConfigOverride (override : ToolOverrideConfig) (defaultTtl : ℤ) :
    (applyConfigOverride override defaultTtl).shouldCache = true ↔
      0 < override.ttl.getD defaultTtl := by
  unfold applyConfigOverride
  dsimp only
  split
  next hpositive => simp [hpositive]
  next hpositive => simp [hpositive]

theorem shouldCache_of_not_overridden (h : toolOverride config toolName = none) :
    (decideCachePolicy toolName annotations config).shouldCache = true ↔ Cacheable annotations := by
  simp only [decideCachePolicy, h, Cacheable]
  split
  next hdestructive => simp [notCached, hdestructive]
  next hdestructive =>
    split
    next hreadOnly => simp [cachedFor, hdestructive, hreadOnly]
    next hreadOnly =>
      split
      next hidempotent => simp [cachedFor, hdestructive, hidempotent]
      next hidempotent =>
        split
        next hopenWorld => simp [cachedFor, hdestructive, hopenWorld]
        next hopenWorld => simp [notCached, hreadOnly, hidempotent, hopenWorld]

theorem isDestructive_of_shouldCache
    (h : (decideCachePolicy toolName annotations config).shouldCache = true) :
    (decideCachePolicy toolName annotations config).isDestructive = false := by
  cases hoverride : toolOverride config toolName with
  | some override =>
      rw [decideCachePolicy_of_override hoverride] at h ⊢
      have hpositive := (shouldCache_applyConfigOverride override config.defaultTtl).mp h
      simp [applyConfigOverride, hpositive]
  | none =>
      simp only [decideCachePolicy, hoverride] at h ⊢
      repeat' split
      all_goals first | rfl | simp_all [notCached]

theorem conforms_iff :
    ((decideCachePolicy toolName annotations config).shouldCache = true →
      Documented config annotations toolName) ↔ Conforms config annotations toolName := by
  cases hdeclared : declaredOverride? config toolName with
  | some override =>
      have hpolicy := decideCachePolicy_of_override (toolOverride_of_declared hdeclared) annotations
      refine iff_of_true (fun h => ?_) ⟨by simp [hdeclared], by simp [hdeclared]⟩
      rw [hpolicy] at h
      simpa [Documented, hdeclared] using h
  | none =>
      by_cases hinherits : Inherits config toolName
      · have hpolicy :=
          decideCachePolicy_of_override (toolOverride_of_inherits hdeclared hinherits) annotations
        rw [hpolicy, shouldCache_applyConfigOverride, Documented, hdeclared]
        constructor
        · intro h
          exact ⟨fun _ _ hpositive => (h hpositive).2, fun _ hnot => absurd hinherits hnot⟩
        · exact fun h hpositive => ⟨hpositive, h.inherited hdeclared hinherits hpositive⟩
      · rw [shouldCache_of_not_overridden (toolOverride_of_not_inherits hdeclared hinherits),
          Documented, hdeclared]
        constructor
        · intro h
          exact ⟨fun _ hinherits' => absurd hinherits' hinherits, fun _ _ hhinted => (h hhinted).1⟩
        · exact fun h hhinted => ⟨h.hinted hdeclared hinherits hhinted, hhinted⟩

end Policy

end Conduit.Cache

namespace Conduit.Gateway

open Router Governance Cache Proxy Program

variable {P : RequestPipeline} {call : ToolCall} {service : Service}

def Event.usesCache : Event Op Ans → Bool
  | ⟨.l1Get _, found⟩ => found.isSome
  | ⟨.l2Get _, found⟩ => found.isSome
  | ⟨.l1Set _ _, _⟩ => true
  | ⟨.l2Set _ _ _, _⟩ => true
  | _ => false

-- a result is stored, or served from what was stored
def UsesCache (tr : Trace) : Prop := ∃ e ∈ tr, Event.usesCache e = true

def Op.isCaching : Op → Prop
  | .l1Get _ => True
  | .l2Get _ => True
  | .l1Set _ _ => True
  | .l2Set _ _ _ => True
  | _ => False

theorem usesCache_of_not_caching {e : Event Op Ans} (h : ¬ e.1.isCaching) :
    Event.usesCache e = false := by
  obtain ⟨o, a⟩ := e
  cases o <;> first | rfl | exact absurd trivial h

theorem usesCache_of_isAdmission {e : Event Op Ans} (h : e.1.isAdmission = true) :
    Event.usesCache e = false := by
  obtain ⟨o, a⟩ := e
  cases o <;> first | rfl | cases h

namespace RequestPipeline

theorem consumeServerLimits_uncaching (actual : ToolTarget) :
    Avoids Op.isCaching (P.consumeServerLimits call actual) := by
  unfold consumeServerLimits
  split
  · refine Avoids.ask_bind id fun decision => ?_
    unfold checkLimit
    split
    · exact avoids_pure ()
    · exact avoids_exit _
  · exact avoids_pure ()

theorem passthroughToServer_uncaching (message : Json) (client : ClientRef)
    (serverConfig : ServerConfig) :
    Avoids Op.isCaching (P.passthroughToServer call message client serverConfig) := by
  unfold passthroughToServer
  split
  · exact avoids_pure _
  · refine Avoids.ask_bind id fun response => ?_
    cases response with
    | error error => exact avoids_pure _
    | ok response => exact avoids_pure _

theorem callUpstream_uncaching : Avoids Op.isCaching (P.callUpstream call service) := by
  unfold callUpstream
  refine (consumeServerLimits_uncaching _).bind fun _ => ?_
  refine (passthroughToServer_uncaching _ _ _).bind fun exchange => ?_
  cases exchange with
  | identityError message => exact avoids_pure _
  | failed message => exact avoids_pure _
  | completed result => exact avoids_pure _

theorem invalidateAll_uncaching (serverId : String) (toolNames : List String) :
    Avoids Op.isCaching (P.invalidateAll serverId toolNames) := by
  induction toolNames with
  | nil => exact avoids_pure ()
  | cons toolName rest ih =>
      have hone : Avoids Op.isCaching (P.invalidateTool serverId toolName) := by
        unfold invalidateTool
        refine Avoids.ask_bind id fun _ => ?_
        split
        · exact avoids_ask id
        · exact avoids_pure ()
      exact hone.bind fun _ => ih

theorem invalidate_uncaching (serverId : String) (policy : CachePolicyDecision) :
    Avoids Op.isCaching (P.invalidate serverId policy) := by
  unfold invalidate
  split
  · exact invalidateAll_uncaching _ _
  · exact avoids_pure ()

theorem dispatch_uncaching (h : service.policy.shouldCache = false) :
    Avoids Op.isCaching (P.dispatch call service) := by
  unfold dispatch
  refine (invalidate_uncaching _ _).bind fun _ => ?_
  rw [h]
  exact callUpstream_uncaching

theorem shouldCache_of_usesCache {tr : Trace} {q : Proc Outcome}
    (h : Steps (P.dispatch call service) tr q) (huses : UsesCache tr) :
    service.policy.shouldCache = true := by
  obtain ⟨e, he, hcaching⟩ := huses
  by_contra hnot
  have havoids := ((dispatch_uncaching (Bool.eq_false_iff.mpr hnot)).of_steps h).1 e he
  rw [usesCache_of_not_caching havoids] at hcaching
  cases hcaching

end RequestPipeline

-- an admitted call of the tool, on a server so configured, whose hints the registry knows
def Concerns (P : RequestPipeline) (call : ToolCall) (tr : Trace) (config : ServerCacheConfig)
    (annotations : ToolAnnotations) (toolName : String) : Prop :=
  ∃ service, Dispatched P call tr service ∧ service.serverConfig.cache = config ∧
    service.actual.toolName = toolName ∧
    ∀ a, Answered tr (.getAnnotations service.actual.serverId toolName) a → a = annotations

def CachesAsDocumented (config : ServerCacheConfig) (annotations : ToolAnnotations)
    (toolName : String) : Prop :=
  ∀ P call tr q, Steps (RequestPipeline.handleToolCall P call) tr q →
    Concerns P call tr config annotations toolName → UsesCache tr →
    Documented config annotations toolName

section Runs

variable {config : ServerCacheConfig} {annotations : ToolAnnotations} {toolName : String}

theorem dispatched_of_usesCache {tr : Trace} {q : Proc Outcome}
    (h : Steps (P.handleToolCall call) tr q) (huses : UsesCache tr) :
    ∃ service, Dispatched P call tr service := by
  rcases RequestPipeline.handleToolCall_cases h with
    ⟨hadmission, -⟩ | ⟨service, tr₁, tr₂, rfl, hserved, -⟩
  · obtain ⟨e, he, hcaching⟩ := huses
    rw [usesCache_of_isAdmission (hadmission e he)] at hcaching
    cases hcaching
  · exact ⟨service, tr₁, tr₂, rfl, hserved⟩

theorem caches_of_usesCache {tr : Trace} {q : Proc Outcome}
    (h : Steps (P.handleToolCall call) tr q) (hconcerns : Concerns P call tr config annotations toolName)
    (huses : UsesCache tr) : (decideCachePolicy toolName annotations config).shouldCache = true := by
  obtain ⟨service, ⟨tr₁, tr₂, rfl, hserved⟩, rfl, rfl, hannotations⟩ := hconcerns
  have hdispatch : Steps (P.dispatch call service) tr₂ q := hserved.rest_of_bind h
  obtain ⟨e, he, hcaching⟩ := huses
  have hsecond : e ∈ tr₂ := by
    refine (List.mem_append.mp he).resolve_left fun hfirst => ?_
    have hadmission := RequestPipeline.isAdmission_of_steps hserved hfirst
    rw [usesCache_of_isAdmission hadmission] at hcaching
    cases hcaching
  obtain ⟨-, -, a, -, -, -, -, hanswered, hpolicy⟩ :=
    (RequestPipeline.admits_of_steps hserved).resolved
  obtain rfl := hannotations a (List.mem_append_left _ hanswered)
  rw [← hpolicy]
  exact RequestPipeline.shouldCache_of_usesCache hdispatch ⟨e, hsecond, hcaching⟩

end Runs

section Missed

variable (config : ServerCacheConfig) (annotations : ToolAnnotations) (toolName : String)

def policyPipeline : RequestPipeline where
  host := plainHost
  config := { servers := [{ id := "crm", url := "http://crm", cache := config }] }

def annotated : (o : Op) → Ans o
  | .getAnnotations _ _ => annotations
  | o => permissive o

def policyService (policy : CachePolicyDecision) : Service where
  actual := ⟨"crm", toolName⟩
  client := ⟨"crm", 0⟩
  serverConfig := { id := "crm", url := "http://crm", cache := config }
  policy := policy

def admitted : Trace :=
  (drive (annotated annotations) 2 ((policyPipeline config).admission (callOf toolName))).1

def dispatched (policy : CachePolicyDecision) : Trace × Proc Outcome :=
  drive (annotated annotations) 7
    ((policyPipeline config).dispatch (callOf toolName) (policyService config toolName policy))

theorem profileId_callOf : (callOf toolName).profileId = none := by
  have hdirect : Connect.extractProfileIdFromTarget "crm" = none := by decide
  change (Connect.extractProfileIdFromTarget "crm").filter _ = none
  rw [hdirect]
  rfl

theorem directServerId_callOf : (callOf toolName).directServerId = some "crm" := by
  rw [ToolCall.directServerId, profileId_callOf]
  rfl

theorem admission_policyPipeline :
    Steps ((policyPipeline config).admission (callOf toolName)) (admitted config annotations toolName)
      (.pure (policyService config toolName (decideCachePolicy toolName annotations config))) := by
  have hsteps := drive_steps (annotated annotations) 2
    ((policyPipeline config).admission (callOf toolName))
  rw [← admitted] at hsteps
  convert hsteps
  rw [RequestPipeline.admission, RequestPipeline.getProfileServerIdSet, profileId_callOf,
    directServerId_callOf]
  rfl

theorem stores_dispatched {policy : CachePolicyDecision} (hcache : policy.shouldCache = true)
    (hsafe : policy.isDestructive = false) :
    UsesCache (dispatched config annotations toolName policy).1 := by
  obtain ⟨shouldCache, ttl, isDestructive, invalidates, ignoreArgs⟩ := policy
  cases hcache
  cases hsafe
  exact List.any_eq_true.mp rfl

variable {config annotations toolName}

-- the call misses, is forwarded, and its result is stored
theorem caches_of_shouldCache (h : CachesAsDocumented config annotations toolName)
    (hcache : (decideCachePolicy toolName annotations config).shouldCache = true) :
    Documented config annotations toolName := by
  have hserved := admission_policyPipeline config annotations toolName
  have hdispatch := drive_steps (annotated annotations) 7
    ((policyPipeline config).dispatch (callOf toolName)
      (policyService config toolName (decideCachePolicy toolName annotations config)))
  refine h _ _ _ _ (hserved.bind hdispatch) ⟨_, ⟨_, _, rfl, hserved⟩, rfl, rfl, fun a ha => ?_⟩ ?_
  · rcases List.mem_append.mp ha with hfirst | hsecond
    · exact answer_of_mem_drive hfirst
    · exact answer_of_mem_drive hsecond
  · obtain ⟨e, he, huses⟩ :=
      stores_dispatched config annotations toolName hcache (isDestructive_of_shouldCache hcache)
    exact ⟨e, List.mem_append_right _ he, huses⟩

end Missed

theorem caching_policy (config : ServerCacheConfig) (annotations : ToolAnnotations)
    (toolName : String) :
    (CachesAsDocumented config annotations toolName ↔ Conforms config annotations toolName) ∧
    ∀ P call tr q, Steps (RequestPipeline.handleToolCall P call) tr q → UsesCache tr →
      ∃ service, Dispatched P call tr service := by
  refine ⟨?_, fun P call tr q h => dispatched_of_usesCache h⟩
  rw [← conforms_iff]
  constructor
  · exact caches_of_shouldCache
  · exact fun h P call tr q hsteps hconcerns huses => h (caches_of_usesCache hsteps hconcerns huses)

-- a read-only tool of a server whose caching is switched off; a name every object answers
theorem undocumented_caching :
    ¬ CachesAsDocumented {} { readOnlyHint := some true } "list" ∧
    ¬ CachesAsDocumented { defaultTtl := 60, overrides := some .empty }
      { destructiveHint := some true } "toString" := by
  constructor
  · intro h
    have hdocumented := caches_of_shouldCache h rfl
    exact absurd hdocumented.1 (by decide)
  · intro h
    have hdocumented := caches_of_shouldCache h rfl
    exact hdocumented.2.1 rfl

end Conduit.Gateway
