import Conduit.Gateway.System

namespace Conduit.Gateway

open Cache Program

namespace Task

variable {P : RequestPipeline} {t : Task P} {service : Service}

-- the call has been admitted to the service and is being dispatched
def Serving (t : Task P) (service : Service) : Prop :=
  ∃ tr₁ tr₂, t.trace = tr₁ ++ tr₂ ∧ Steps (P.admission t.call) tr₁ (.pure service) ∧
    Steps (P.dispatch t.call service) tr₂ t.rest

theorem serving_or_admitting (t : Task P) :
    ((∀ e ∈ t.trace, e.1.isAdmission = true) ∧
      ((∃ o next, t.rest = .op o next ∧ o.isAdmission = true) ∨
        ∃ out, t.rest = .exit out ∧ out.origin = none)) ∨ ∃ service, t.Serving service := by
  rcases RequestPipeline.handleToolCall_cases t.thread.steps with hadmitting | hserved
  · exact .inl hadmitting
  · exact .inr hserved

theorem serving_of_mem {e : Event Op Ans} (he : e ∈ t.trace) (h : e.1.isAdmission = false) :
    ∃ service, t.Serving service := by
  rcases t.serving_or_admitting with ⟨hall, -⟩ | hserving
  · rw [hall e he] at h
    cases h
  · exact hserving

theorem serving_of_rest {o : Op} {next : Ans o → Proc Outcome} (hrest : t.rest = .op o next)
    (h : o.isAdmission = false) : ∃ service, t.Serving service := by
  rcases t.serving_or_admitting with ⟨-, hpending⟩ | hserving
  · rcases hpending with ⟨o', next', heq, ho'⟩ | ⟨out, hexit, -⟩
    · cases hrest.symm.trans heq
      rw [ho'] at h
      cases h
    · cases hrest.symm.trans hexit
  · exact hserving

theorem serving_of_origin {out : Outcome} {origin : CallId} (hout : t.rest.result? = some out)
    (horigin : out.origin = some origin) : ∃ service, t.Serving service := by
  rcases t.serving_or_admitting with ⟨-, hpending⟩ | hserving
  · rcases hpending with ⟨o, next, hop, -⟩ | ⟨out', hexit, hnone⟩
    · rw [hop] at hout
      cases hout
    · rw [hexit] at hout
      obtain rfl := Option.some.inj hout
      rw [hnone] at horigin
      cases horigin
  · exact hserving

theorem Serving.admits (h : t.Serving service) : Admits P t.call service t.trace := by
  obtain ⟨tr₁, tr₂, htrace, hadmission, -⟩ := h
  have hadmits := RequestPipeline.admits_of_steps hadmission
  have hextends : tr₁ <+: t.trace := htrace ▸ List.prefix_append tr₁ tr₂
  obtain ⟨resolution, routed, annotations, hresolve, hactual, hrouted, hclient, hannotations,
    hpolicy⟩ := hadmits.resolved
  exact {
    resolved := ⟨resolution, routed, annotations, hresolve.mono hextends, hactual, hrouted, hclient,
      hannotations.mono hextends, hpolicy⟩
    configured := hadmits.configured
    inProfile := hadmits.inProfile
    mediated := hadmits.mediated.mono hextends }

theorem Serving.emits_of_rest (h : t.Serving service) {o : Op} {next : Ans o → Proc Outcome}
    (hrest : t.rest = .op o next) : Service.emits P t.call service t.trace o := by
  obtain ⟨tr₁, tr₂, htrace, -, hdispatch⟩ := h
  rw [hrest] at hdispatch
  rw [htrace]
  exact (Meets.of_steps (RequestPipeline.dispatch_meets tr₁) hdispatch fun _ _ => trivial).1

theorem Serving.obtained (h : t.Serving service) {out : Outcome}
    (hout : t.rest.result? = some out) {origin : CallId} (horigin : out.origin = some origin) :
    Service.Obtained P t.call service t.trace origin := by
  obtain ⟨tr₁, tr₂, htrace, -, hdispatch⟩ := h
  rw [htrace]
  have hmeets := Meets.of_steps (RequestPipeline.dispatch_meets tr₁) hdispatch fun _ _ => trivial
  cases hrest : t.rest with
  | pure out' =>
      rw [hrest] at hout hmeets
      obtain rfl := Option.some.inj hout
      exact hmeets origin horigin
  | exit out' =>
      rw [hrest] at hout hmeets
      obtain rfl := Option.some.inj hout
      exact hmeets origin horigin
  | op o next =>
      rw [hrest] at hout
      cases hout

theorem Serving.emits_of_mem (h : t.Serving service) {e : Event Op Ans} (he : e ∈ t.trace)
    (hadmission : e.1.isAdmission = false) :
    ∃ tr, tr <+: t.trace ∧ Service.emits P t.call service tr e.1 := by
  obtain ⟨tr₁, tr₂, htrace, hsteps, hdispatch⟩ := h
  rw [htrace] at he
  rcases List.mem_append.mp he with hfirst | hsecond
  · rw [RequestPipeline.isAdmission_of_steps hsteps hfirst] at hadmission
    cases hadmission
  · obtain ⟨before, after, rfl⟩ := List.append_of_mem hsecond
    have hemits := Meets.emits_of_steps (RequestPipeline.dispatch_meets tr₁) hdispatch
      fun _ _ => trivial
    exact ⟨tr₁ ++ before, ⟨e :: after, by rw [htrace, List.append_assoc]⟩, hemits⟩

end Task

end Conduit.Gateway
