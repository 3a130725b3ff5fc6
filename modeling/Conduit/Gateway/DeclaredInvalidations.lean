import Conduit.Gateway.Refusals

namespace Conduit.Cache

theorem CacheStore.get?_get_of_none {S : CacheStore} {key : String} {now : ℕ}
    (h : (S.get key now).2 = none) : (S.get key now).1.entries.get? key = none := by
  unfold CacheStore.get at h ⊢
  split
  next hnone => exact hnone
  next entry hentry =>
    split
    next => rw [CacheStore.get?_delete, if_pos rfl]
    next hfresh =>
      rw [hentry] at h
      simp only [hfresh] at h
      cases h

theorem decideCachePolicy_of_override {config : ServerCacheConfig} {toolName : String}
    {override : ToolOverrideConfig} (h : toolOverride config toolName = some override)
    (annotations : ToolAnnotations) :
    decideCachePolicy toolName annotations config =
      applyConfigOverride override config.defaultTtl := by
  simp only [decideCachePolicy, h]

@[simp] theorem invalidates_applyConfigOverride (override : ToolOverrideConfig) (defaultTtl : ℤ) :
    (applyConfigOverride override defaultTtl).invalidates = override.invalidates.getD [] := by
  unfold applyConfigOverride
  dsimp only
  split <;> rfl

theorem isDestructive_applyConfigOverride (override : ToolOverrideConfig) (defaultTtl : ℤ) :
    (applyConfigOverride override defaultTtl).isDestructive = true ↔
      override.ttl.getD defaultTtl ≤ 0 ∧ override.invalidates.getD [] ≠ [] := by
  unfold applyConfigOverride
  dsimp only
  split
  next hpositive => simp [Int.not_le.mpr hpositive]
  next hpositive => simp [Int.not_lt.mp hpositive]

end Conduit.Cache

namespace Conduit.Gateway

open Router Governance Cache Proxy Program

variable {P : RequestPipeline} {call : ToolCall} {service : Service}

def Lacks (S : CacheStore) (toolNames : List String) (serverId : String) : Prop :=
  ∀ toolName ∈ toolNames, ∀ key entry, S.entries.get? key = some entry →
    ¬ entry.IsFor toolName serverId

section Dispatch

variable {now : ℕ} {s s' : Shelves} {tr : Trace} {q : Proc Outcome}

theorem get?_after {tr₂ : Trace} {p : Proc Outcome} (h : Plays (Shelves.Serves P now) s p tr₂ s' q)
    (hsparing : ∀ e ∈ tr₂, Service.Sparing P call service e.1) {key : String} {entry : CacheEntry}
    (hentry : s'.l1.entries.get? key = some entry) : s.l1.entries.get? key = some entry := by
  have hspares : Service.Spares P call now service s s' :=
    h.related .refl (fun _ _ _ => .trans) fun e he _ _ hserves =>
      Service.spares_of_serves hserves (hsparing e he)
  exact hspares.l1.kept key entry hentry

theorem lacks_of_deleted (h : Plays (Shelves.Serves P now) s (P.dispatch call service) tr s' q)
    (hunsupplied : Unsupplied tr) {toolName serverId : String}
    (hdeleted : Answered tr (.l1DeleteByTool toolName serverId) ()) :
    Lacks s'.l1 [toolName] serverId := by
  have hsparing := RequestPipeline.sparing_of_steps h.steps hunsupplied
  obtain ⟨tr₁, tr₂, s₁, s₂, p₁, p₂, rfl, -, hserves, hafter⟩ := h.split_at hdeleted
  intro name hname key entry hentry hfor
  obtain rfl := List.mem_singleton.mp hname
  have hleft := get?_after hafter
    (fun e he => hsparing e (List.mem_append_right _ (List.mem_cons_of_mem _ he))) hentry
  cases hserves with
  | surroundings huses => cases huses
  | l1DeleteByTool =>
      have hremoved := (s₁.exact.removes_indexKey name serverId).entries key
      rw [hleft] at hremoved
      have hkept := Option.filter_eq_some_iff.mp hremoved.symm
      refine absurd ?_ (of_decide_eq_true hkept.2)
      rw [CacheEntry.indexKey, hfor.1, hfor.2]

theorem none_of_looked (h : Plays (Shelves.Serves P now) s (P.dispatch call service) tr s' q)
    (hunsupplied : Unsupplied tr) (hlooked : Service.Looked P call service tr) :
    s'.l1.entries.get? (P.digest (P.cacheKey call service)) = none := by
  have hsparing := RequestPipeline.sparing_of_steps h.steps hunsupplied
  obtain ⟨found, hanswered⟩ := hlooked
  have hmissed : found.isSome = false := hunsupplied _ hanswered
  obtain ⟨tr₁, tr₂, s₁, s₂, p₁, p₂, rfl, -, hserves, hafter⟩ := h.split_at hanswered
  cases hentry : s'.l1.entries.get? (P.digest (P.cacheKey call service)) with
  | none => rfl
  | some entry =>
      have hleft := get?_after hafter
        (fun e he => hsparing e (List.mem_append_right _ (List.mem_cons_of_mem _ he))) hentry
      cases hserves with
      | surroundings huses => cases huses
      | l1Get =>
          have hnone := CacheStore.get?_get_of_none (by simpa using hmissed)
          exact absurd hleft (by simp [hnone])

end Dispatch

theorem policy_of_dispatched {tr : Trace} (h : Steps (P.admission call) tr (.pure service))
    {override : ToolOverrideConfig}
    (hoverride : toolOverride service.serverConfig.cache service.actual.toolName = some override) :
    service.policy = applyConfigOverride override service.serverConfig.cache.defaultTtl := by
  obtain ⟨-, -, annotations, -, -, -, -, -, hpolicy⟩ :=
    (RequestPipeline.admits_of_steps h).resolved
  rw [hpolicy, decideCachePolicy_of_override hoverride]

section Example

-- a tool that is cached itself and declares what a call to it invalidates
def declaringPipeline (ttl : Option ℤ) : RequestPipeline :=
  { limitedPipeline with
    config :=
      { servers :=
          [{ id := "crm"
             url := "http://crm"
             cache :=
               { defaultTtl := 60
                 overrides := some (.set .empty "create"
                   { ttl := ttl, invalidates := some ["list"] }) } }] } }

def unlimited : (o : Op) → Ans o
  | .getAnnotations _ _ => {}
  | o => permissive o

def declaringService (ttl : Option ℤ) : Service where
  actual := ⟨"crm", "create"⟩
  client := ⟨"crm", 0⟩
  serverConfig :=
    { id := "crm"
      url := "http://crm"
      cache :=
        { defaultTtl := 60
          overrides := some (.set .empty "create" { ttl := ttl, invalidates := some ["list"] }) } }
  policy := applyConfigOverride { ttl := ttl, invalidates := some ["list"] } 60

def admissionPlay (ttl : Option ℤ) : Shelves × Trace × Proc Service :=
  progress (Shelves.reply (declaringPipeline ttl) 0 unlimited) 2 (stocked .empty)
    ((declaringPipeline ttl).admission (callOf "create"))

def forwardPlay (ttl : Option ℤ) (n : ℕ) : Shelves × Trace × Proc Outcome :=
  progress (Shelves.reply (declaringPipeline ttl) 0 unlimited) n (stocked .empty)
    ((declaringPipeline ttl).dispatch (callOf "create") (declaringService ttl))

theorem admission_declaring (ttl : Option ℤ) :
    Plays (Shelves.Serves (declaringPipeline ttl) 0) (stocked .empty)
      ((declaringPipeline ttl).admission (callOf "create")) (admissionPlay ttl).2.1 (stocked .empty)
      (.pure (declaringService ttl)) :=
  plays_progress (Shelves.serves_reply unlimited) 2 _ _

def declaringTrace (ttl : Option ℤ) (n : ℕ) : Trace := (admissionPlay ttl).2.1 ++ (forwardPlay ttl n).2.1

theorem plays_forwardPlay (ttl : Option ℤ) (n : ℕ) :
    Plays (Shelves.Serves (declaringPipeline ttl) 0) (stocked .empty)
      ((declaringPipeline ttl).handleToolCall (callOf "create")) (declaringTrace ttl n)
      (forwardPlay ttl n).1 (forwardPlay ttl n).2.2 :=
  (admission_declaring ttl).bind (plays_progress (Shelves.serves_reply unlimited) n _ _)

theorem dispatched_declaring (ttl : Option ℤ) (n : ℕ) :
    Dispatched (declaringPipeline ttl) (callOf "create") (declaringTrace ttl n)
      (declaringService ttl) :=
  ⟨_, _, rfl, (admission_declaring ttl).steps⟩

end Example

end Conduit.Gateway
