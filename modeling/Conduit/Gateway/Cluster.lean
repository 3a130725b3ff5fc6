import Conduit.Gateway.Provenance

namespace Conduit.Gateway

open Cache Program

abbrev GatewayId := ℕ

-- gateways of one configuration that share a Redis; each has its own L1 and its own flights
structure Cluster (P : RequestPipeline) where
  tasks : List (Task P)
  l1 : GatewayId → CacheStore
  inflight : GatewayId → InflightTracker FlightResult
  redis : OrderedMap String CacheEntry
  writes : List (String × CacheEntry)
  effects : List CallId

namespace Cluster

variable {P : RequestPipeline}

def init (P : RequestPipeline) : Cluster P where
  tasks := []
  l1 := fun _ => .init P.config.cache.l1
  inflight := fun _ => .init
  redis := .empty
  writes := []
  effects := []

variable (C : Cluster P)

-- what one gateway works with
def world (g : GatewayId) : World P where
  tasks := C.tasks
  l1 := C.l1 g
  inflight := C.inflight g
  redis := C.redis
  writes := C.writes
  effects := C.effects

def put (g : GatewayId) (w : World P) : Cluster P where
  tasks := w.tasks
  l1 := Function.update C.l1 g w.l1
  inflight := Function.update C.inflight g w.inflight
  redis := w.redis
  writes := w.writes
  effects := w.effects

def callerOf : Act → Option CallId
  | .arrive _ => some C.tasks.length
  | .answer caller _ => some caller
  | .takeEffect caller => some caller
  | .readL2 caller => some caller
  | .startScan caller => some caller
  | .scan caller _ => some caller
  | .failScan caller => some caller
  | .landWrite _ => none
  | .evict _ => none
  | .expire _ => none

-- `home` says which gateway a call comes to
def step (home : CallId → GatewayId) (C : Cluster P) (e : GatewayId × Act) : Option (Cluster P) :=
  if (C.callerOf e.2).all fun caller => home caller = e.1 then
    ((C.world e.1).step e.2).map (C.put e.1)
  else none

variable {C}

@[simp] theorem world_init (g : GatewayId) : (init P).world g = World.init P := rfl

@[simp] theorem world_put (g : GatewayId) (w : World P) : (C.put g w).world g = w := by
  simp [world, put]

theorem l1_put_of_ne {g g' : GatewayId} (hne : g' ≠ g) (w : World P) :
    ((C.put g w).world g').l1 = C.l1 g' := by
  simp [world, put, hne]

theorem inflight_put_of_ne {g g' : GatewayId} (hne : g' ≠ g) (w : World P) :
    ((C.put g w).world g').inflight = C.inflight g' := by
  simp [world, put, hne]

end Cluster

namespace World

variable {P : RequestPipeline} {w w' v : World P} {mine : CallId → Prop}

theorem Genuine.congr {digest : String} {entry : CacheEntry} (h : w.Genuine digest entry)
    (htasks : v.tasks = w.tasks) (heffects : v.effects = w.effects) : v.Genuine digest entry where
  looked := by
    obtain ⟨t, ht, hkey⟩ := h.looked
    exact ⟨t, htasks ▸ ht, hkey⟩
  keyed := h.keyed
  computed := heffects ▸ h.computed
  sourced := by
    obtain ⟨content, ⟨t, ht, hsource⟩, hresult⟩ := h.sourced
    exact ⟨content, ⟨t, htasks ▸ ht, hsource⟩, hresult⟩
  healthy := h.healthy

-- a step of another gateway leaves the calls of this one where they are
theorem trace_of_step {act : Act} (hstep : w.step act = some w')
    (hforeign : ∀ c environment, act = .answer c environment → ¬ mine c) {c : CallId} {t' : Task P}
    (ht' : w'.tasks[c]? = some t') (hmine : mine c) :
    t'.trace = [] ∨ ∃ t : Task P, w.tasks[c]? = some t ∧ t'.trace = t.trace := by
  rcases step_cases hstep with
    ⟨c', environment, rfl, t, o, next, hrest, a, s, ht, hserves, rfl⟩ | hbackground
  · rcases getElem?_answered hserves ht' with ⟨rfl, -⟩ | ⟨-, hold⟩
    · exact absurd hmine (hforeign c environment rfl)
    · exact .inr ⟨t', hold, rfl⟩
  · rcases hbackground.quiet.tasks c t' ht' with ⟨hempty, -⟩ | ⟨t, ht, hthread, -⟩
    · exact .inl hempty
    · exact .inr ⟨t, ht, by rw [Task.trace, Task.trace, hthread]⟩

theorem evolves_of_step {act : Act} (hstep : w.step act = some w') : w.Evolves w' := by
  rcases step_cases hstep with
    ⟨c, environment, -, t, o, next, hrest, a, s, ht, hserves, rfl⟩ | hbackground
  · exact hserves.evolves ht hrest
  · exact hbackground.evolves

end World

namespace Cluster

variable {P : RequestPipeline} {C C' : Cluster P} {home : CallId → GatewayId}

open World

def Traced (home : CallId → GatewayId) (C : Cluster P) : Prop :=
  ∀ g, (C.world g).Provenance fun c => home c = g

theorem traced_init : (init P).Traced home := fun g => world_init (P := P) g ▸ provenance_init

-- what the other gateways know after a step of one of them
theorem Traced.elsewhere {g g' : GatewayId} (h : C.Traced home) (hne : g' ≠ g) {act : Act}
    {w' : World P} (hstep : (C.world g).step act = some w')
    (hcaller : ∀ c environment, act = .answer c environment → home c = g)
    (hw' : w'.Provenance fun c => home c = g) :
    ((C.put g w').world g').Provenance fun c => home c = g' := by
  have hev := evolves_of_step hstep
  have hl1 := l1_put_of_ne (C := C) hne w'
  have hinflight := inflight_put_of_ne (C := C) hne w'
  have hother : (C.world g').Evolves ((C.put g w').world g') :=
    .of_tasks hev.tasks hev.effects hinflight
  have hg' := h g'
  refine ⟨hw'.self, ?_, ?_, ?_, ?_, ?_, ?_, ?_, ?_⟩
  · intro c t' ht' hmine e he
    have hforeign : ∀ c environment, act = .answer c environment → ¬ home c = g' :=
      fun c environment hact heq => hne (heq.symm.trans (hcaller c environment hact))
    rcases @trace_of_step _ _ _ (fun c => home c = g') _ hstep hforeign _ _ ht' hmine with
      hempty | ⟨t, ht, htrace⟩
    · rw [hempty] at he
      cases he
    · exact (hg'.consistent c t ht hmine e (htrace ▸ he)).mono hother
  · exact fun c t entry ht hphase key hpending =>
      (hw'.reading c t entry ht hphase key hpending).congr rfl rfl
  · intro digest entry hentry
    rw [hl1] at hentry
    exact (hg'.l1 digest entry hentry).mono hother
  · exact fun digest entry hentry => (hw'.redis digest entry hentry).congr rfl rfl
  · exact fun digest entry hmem => (hw'.writes digest entry hmem).congr rfl rfl
  · rw [hinflight]
    exact hg'.registered
  · rw [hinflight]
    exact fun flight entry hentry => (hg'.starters flight entry hentry).mono hother
  · rw [hinflight]
    intro flight result hresult
    obtain ⟨hentry, hcomputed⟩ := hg'.results flight result hresult
    refine ⟨hentry, fun content hresolved => ?_⟩
    obtain ⟨heffect, hsourced⟩ := hcomputed content hresolved
    exact ⟨hev.effects.subset heffect, hsourced.mono hother⟩

theorem Traced.step (h : C.Traced home) {e : GatewayId × Act} (hstep : C.step home e = some C') :
    C'.Traced home := by
  obtain ⟨g, act⟩ := e
  obtain ⟨hallowed, hstep⟩ := Option.ite_none_right_eq_some.mp hstep
  obtain ⟨w', hw', rfl⟩ := Option.map_eq_some_iff.mp hstep
  have hcaller : ∀ c environment, act = .answer c environment → home c = g := by
    rintro c environment rfl
    simpa [callerOf] using hallowed
  have hhere := (h g).step hcaller hw'
  intro g'
  by_cases hg : g' = g
  · subst hg
    rw [world_put]
    exact hhere
  · exact h.elsewhere hg hw' hcaller hhere

theorem traced_of_run {acts : List (GatewayId × Act)}
    (h : Transition.run (step home) (init P) acts = some C) : C.Traced home := by
  have hinit : ∀ C : Cluster P, C = init P → C.Traced home := fun _ heq => heq ▸ traced_init
  exact Transition.reachable_invariant (step home) hinit (fun _ _ _ h hstep => h.step hstep)
    ⟨init P, acts, rfl, h⟩

end Cluster

end Conduit.Gateway
