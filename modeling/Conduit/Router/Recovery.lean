import Conduit.Foundation.Run
import Conduit.Router.Router

namespace Conduit.Router

inductive ErrandKind where
  | routed
  | probe
deriving DecidableEq, Repr

structure Errand where
  id : ℕ
  client : ClientRef
  kind : ErrandKind
deriving DecidableEq, Repr

structure Fleet where
  router : ConduitRouter
  clock : ℕ
  inFlight : List Errand

inductive FleetEvent where
  | routeTool (id : ℕ) (toolName : String)
  | routeServer (id : ℕ) (serverId : String)
  | probeHttp (client : ClientRef) (succeeded : Bool) (latencyMs : ℕ)
  | probeStdio (id : ℕ) (client : ClientRef)
  | settle (id : ℕ) (succeeded : Bool) (latencyMs : ℕ)
  | serverChecked (serverId : String)
  | rebuilt
  | tick (ms : ℕ)

namespace Fleet

def init (config : RouterConfig) (servers : List ServerConfig) : Fleet where
  router := .init config servers
  clock := 0
  inFlight := []

variable (F : Fleet)

def registry : ServerRegistry := F.router.registry

def withRegistry (R : ServerRegistry) : Fleet := { F with router := { F.router with registry := R } }

def isStdio (serverId : String) : Bool :=
  match F.registry.getServerInfo serverId with
  | some info => info.config.isStdio
  | none => false

-- canExecute of the client's breaker; a client without one admits every call
def canExecute (client : ClientRef) : Fleet × Bool :=
  match (F.registry.replica? client).bind ReplicaInfo.circuitBreaker with
  | none => (F, true)
  | some breaker =>
      (F.withRegistry (F.registry.updateReplica client fun r =>
        { r with circuitBreaker := some (breaker.canExecute F.clock).1 }),
        (breaker.canExecute F.clock).2)

def start (errand : Errand) : Fleet :=
  { F.withRegistry (F.registry.updateReplica errand.client fun r =>
      { r with activeConnections := r.activeConnections + 1 }) with
    inFlight := F.inFlight ++ [errand] }

def forward (errand : Errand) : Fleet × Bool :=
  let (F', admitted) := F.canExecute errand.client
  if admitted then (F'.start errand, true) else (F', false)

def recordOutcome (succeeded : Bool) (r : ReplicaInfo) : ReplicaInfo :=
  { r with
    activeConnections := r.activeConnections - 1
    circuitBreaker := r.circuitBreaker.map fun breaker =>
      if succeeded then breaker.onSuccess else breaker.onFailure F.clock }

def checked (client : ClientRef) (succeeded : Bool) (latencyMs : ℕ) : Fleet :=
  F.withRegistry (F.registry.checkReplicaHealth client succeeded latencyMs F.clock)

def settle (errand : Errand) (succeeded : Bool) (latencyMs : ℕ) : Fleet :=
  let F' := { F.withRegistry (F.registry.updateReplica errand.client (F.recordOutcome succeeded)) with
    inFlight := F.inFlight.erase errand }
  match errand.kind with
  | .routed => F'
  | .probe => F'.checked errand.client succeeded latencyMs

def route (id : ℕ) (client : Option ClientRef) : Fleet :=
  match client with
  | none => F
  | some c => (F.forward ⟨id, c, .routed⟩).1

def probeStdio (id : ℕ) (client : ClientRef) : Fleet :=
  let (F', admitted) := F.forward ⟨id, client, .probe⟩
  if admitted then F' else F'.checked client false 0

def errand? (id : ℕ) : Option Errand := F.inFlight.find? fun e => e.id = id

def step : FleetEvent → Option Fleet
  | .routeTool id toolName =>
      let (router, routed) := F.router.resolveToolCall toolName
      some ({ F with router := router }.route id (routed.map RoutedRequest.client))
  | .routeServer id serverId =>
      let (router, client) := F.router.getClientForServer serverId
      some ({ F with router := router }.route id client)
  | .probeHttp client succeeded latencyMs =>
      if F.isStdio client.serverId then none else some (F.checked client succeeded latencyMs)
  | .probeStdio id client =>
      if F.isStdio client.serverId then some (F.probeStdio id client) else none
  | .settle id succeeded latencyMs =>
      (F.errand? id).map fun errand => F.settle errand succeeded latencyMs
  | .serverChecked serverId => some (F.withRegistry (F.registry.checkServerHealth serverId F.clock))
  | .rebuilt => some (F.withRegistry F.registry.rebuildNamespaceMap)
  | .tick ms => some { F with clock := F.clock + ms }

structure Overdue (client : ClientRef) (r : ReplicaInfo) : Prop where
  http : F.isStdio client.serverId = false
  present : F.registry.replica? client = some r
  healthy : r.health.healthy = true
  overdue : ∃ breaker, r.circuitBreaker = some breaker ∧ breaker.state = .opened ∧
    breaker.timeoutElapsed F.clock = true

def Recoverable : Prop :=
  ∀ client r, F.Overdue client r → r ∈ F.registry.getHealthyReplicas client.serverId

structure OpenHttp (client : ClientRef) : Prop where
  http : F.isStdio client.serverId = false
  opened : ∃ r, F.registry.replica? client = some r ∧ r.isOpen = true

def Keeps (F F' : Fleet) : Prop :=
  F.registry.WellIndexed →
    F'.registry.WellIndexed ∧ ∀ client, F.OpenHttp client → F'.OpenHttp client

variable {F} {G H : Fleet}

theorem Keeps.trans (h : F.Keeps G) (h' : G.Keeps H) : F.Keeps H := by
  intro hF
  obtain ⟨hG, hopen⟩ := h hF
  obtain ⟨hH, hopen'⟩ := h' hG
  exact ⟨hH, fun client hc => hopen' client (hopen client hc)⟩

theorem Keeps.of_registry_eq (h : G.registry = F.registry) : F.Keeps G := by
  intro hF
  refine ⟨h ▸ hF, fun client hc => ⟨?_, ?_⟩⟩
  · have hsame : G.isStdio client.serverId = F.isStdio client.serverId := by
      rw [isStdio, h, ← isStdio]
    rw [hsame]
    exact hc.http
  · rw [h]
    exact hc.opened

theorem isStdio_updateServer {serverId : String} {f : ServerInfo → ServerInfo}
    (hf : ∀ info, (f info).config = info.config) (key : String) :
    (F.withRegistry (F.registry.updateServer serverId f)).isStdio key = F.isStdio key := by
  have hregistry : (F.withRegistry (F.registry.updateServer serverId f)).registry =
      F.registry.updateServer serverId f := rfl
  rw [isStdio, hregistry, ServerRegistry.getServerInfo_updateServer, isStdio]
  cases F.registry.getServerInfo key with
  | none => simp
  | some info =>
      rw [Option.map_some]
      split_ifs
      · exact congrArg ServerConfig.isStdio (hf info)
      · rfl

theorem keeps_updateReplica (client : ClientRef) {f : ReplicaInfo → ReplicaInfo}
    (hclient : ∀ r, (f r).client = r.client)
    (hopen : F.OpenHttp client → ∀ r, r.isOpen = true → (f r).isOpen = true) :
    F.Keeps (F.withRegistry (F.registry.updateReplica client f)) := by
  intro hF
  refine ⟨hF.updateReplica client hclient, fun key hkey => ⟨?_, ?_⟩⟩
  · rw [← hkey.http]
    exact isStdio_updateServer (by intro; rfl) key.serverId
  · obtain ⟨r, hr, hropen⟩ := hkey.opened
    change ∃ r, (F.registry.updateReplica client f).replica? key = some r ∧ _
    rw [ServerRegistry.replica?_updateReplica]
    split
    next heq =>
      subst heq
      exact ⟨f r, by rw [hr]; rfl, hopen hkey r hropen⟩
    next => exact ⟨r, hr, hropen⟩

theorem keeps_canExecute {client : ClientRef} (hnot : ¬F.OpenHttp client) :
    F.Keeps (F.canExecute client).1 := by
  unfold canExecute
  split
  · exact .of_registry_eq rfl
  · exact keeps_updateReplica client (fun _ => rfl) (fun h => absurd h hnot)

theorem keeps_start (errand : Errand) : F.Keeps (F.start errand) := by
  have hcounted : F.Keeps (F.withRegistry (F.registry.updateReplica errand.client fun r =>
      { r with activeConnections := r.activeConnections + 1 })) :=
    keeps_updateReplica errand.client (fun _ => rfl) (fun _ _ h => h)
  exact hcounted.trans (.of_registry_eq rfl)

theorem keeps_forward {errand : Errand} (hnot : ¬F.OpenHttp errand.client) :
    F.Keeps (F.forward errand).1 := by
  unfold forward
  dsimp only
  split
  · exact (keeps_canExecute hnot).trans (keeps_start errand)
  · exact keeps_canExecute hnot

theorem keeps_checked (client : ClientRef) (succeeded : Bool) (latencyMs : ℕ) :
    F.Keeps (F.checked client succeeded latencyMs) :=
  keeps_updateReplica client (fun _ => rfl) (fun _ _ h => h)

theorem isOpen_recordOutcome (succeeded : Bool) {r : ReplicaInfo} (h : r.isOpen = true) :
    (F.recordOutcome succeeded r).isOpen = true := by
  unfold ReplicaInfo.isOpen at h
  split at h
  next breaker hbreaker =>
    have hstate : breaker.state = .opened := of_decide_eq_true h
    have hafter : ∀ b, (if succeeded then breaker.onSuccess else breaker.onFailure F.clock) = b →
        b.state = .opened := by
      rintro b rfl
      split
      · simp [CircuitBreaker.onSuccess, hstate]
      · simp [CircuitBreaker.onFailure, hstate]
    simp [ReplicaInfo.isOpen, recordOutcome, hbreaker, hafter _ rfl]
  · simp at h

theorem keeps_settle (errand : Errand) (succeeded : Bool) (latencyMs : ℕ) :
    F.Keeps (F.settle errand succeeded latencyMs) := by
  have hrecorded : F.Keeps
      (F.withRegistry (F.registry.updateReplica errand.client (F.recordOutcome succeeded))) :=
    keeps_updateReplica errand.client (fun _ => rfl)
      (fun _ _ h => isOpen_recordOutcome succeeded h)
  have hremoved : F.Keeps { F.withRegistry
      (F.registry.updateReplica errand.client (F.recordOutcome succeeded)) with
        inFlight := F.inFlight.erase errand } := hrecorded.trans (.of_registry_eq rfl)
  unfold settle
  dsimp only
  split
  · exact hremoved
  · exact hremoved.trans (keeps_checked _ _ _)

theorem not_openHttp_of_eligible (hF : F.registry.WellIndexed) (serverId : String)
    {client : ClientRef}
    (h : ∃ r ∈ F.registry.getHealthyReplicas serverId, r.client = client) :
    ¬F.OpenHttp client := by
  rintro ⟨-, r', hr', hopen⟩
  obtain ⟨r, hmem, rfl⟩ := h
  obtain ⟨heligible, idx, hr⟩ := ServerRegistry.mem_getHealthyReplicas.1 hmem
  rw [hF _ r hr, hr] at hr'
  obtain rfl := Option.some.inj hr'
  simp [ReplicaInfo.eligible, hopen] at heligible

theorem keeps_route {router : ConduitRouter} (hregistry : router.registry = F.registry) (id : ℕ)
    {client : Option ClientRef} (hselected : ∀ c, client = some c →
      ∃ serverId, ∃ r ∈ F.registry.getHealthyReplicas serverId, r.client = c) :
    F.Keeps ({ F with router := router }.route id client) := by
  intro hF
  have hsame : F.Keeps { F with router := router } := .of_registry_eq hregistry
  unfold route
  cases client with
  | none => exact hsame hF
  | some c =>
      refine (hsame.trans (keeps_forward ?_)) hF
      obtain ⟨serverId, hmem⟩ := hselected c rfl
      refine not_openHttp_of_eligible (hsame hF).1 serverId ?_
      rwa [show registry { F with router := router } = F.registry from hregistry]

theorem keeps_step {e : FleetEvent} (hstep : F.step e = some G) : F.Keeps G := by
  cases e with
  | routeTool id toolName =>
      obtain rfl := Option.some.inj hstep
      refine keeps_route (ConduitRouter.resolveToolCall_registry toolName) id fun c hc => ?_
      obtain ⟨routed, hrouted, rfl⟩ := Option.map_eq_some_iff.mp hc
      exact ⟨_, (ConduitRouter.mem_of_resolveToolCall hrouted).2⟩
  | routeServer id serverId =>
      obtain rfl := Option.some.inj hstep
      exact keeps_route (ConduitRouter.getClientForServer_registry serverId) id
        fun c hc => ⟨_, ConduitRouter.mem_of_getClientForServer hc⟩
  | probeHttp client succeeded latencyMs =>
      simp only [step, Option.ite_none_left_eq_some, Option.some.injEq] at hstep
      exact hstep.2 ▸ keeps_checked client succeeded latencyMs
  | probeStdio id client =>
      simp only [step, Option.ite_none_right_eq_some, Option.some.injEq] at hstep
      obtain ⟨hstdio, rfl⟩ := hstep
      have hnot : ¬F.OpenHttp client := fun h => by simp [h.http] at hstdio
      have hforward : F.Keeps (F.forward ⟨id, client, .probe⟩).1 := keeps_forward hnot
      unfold probeStdio
      dsimp only
      split
      · exact hforward
      · exact hforward.trans (keeps_checked _ _ _)
  | settle id succeeded latencyMs =>
      obtain ⟨errand, -, rfl⟩ := Option.map_eq_some_iff.mp hstep
      exact keeps_settle errand succeeded latencyMs
  | serverChecked serverId =>
      obtain rfl := Option.some.inj hstep
      intro hF
      refine ⟨fun c r hr => hF c r ?_, fun c hc => ⟨?_, ?_⟩⟩
      · exact (ServerRegistry.replica?_checkServerHealth serverId F.clock c).symm.trans hr
      · rw [← hc.http]
        exact isStdio_updateServer (by intro; rfl) c.serverId
      · obtain ⟨r, hr, hopen⟩ := hc.opened
        exact ⟨r, (ServerRegistry.replica?_checkServerHealth serverId F.clock c).trans hr, hopen⟩
  | rebuilt =>
      obtain rfl := Option.some.inj hstep
      intro hF
      refine ⟨fun c r hr => hF c r ?_, fun c hc => ⟨?_, ?_⟩⟩
      · exact (ServerRegistry.replica?_rebuildNamespaceMap c).symm.trans hr
      · rw [← hc.http]
        simp [isStdio, registry, withRegistry, ServerRegistry.getServerInfo]
      · obtain ⟨r, hr, hopen⟩ := hc.opened
        exact ⟨r, (ServerRegistry.replica?_rebuildNamespaceMap c).trans hr, hopen⟩
  | tick ms =>
      obtain rfl := Option.some.inj hstep
      exact .of_registry_eq rfl

theorem wellIndexed_of_reachable {config : RouterConfig} {servers : List ServerConfig}
    (h : Transition.Reachable step (· = init config servers) F) : F.registry.WellIndexed := by
  refine Transition.reachable_invariant step (I := fun F => F.registry.WellIndexed) ?_ ?_ h
  · rintro _ rfl
    exact ServerRegistry.wellIndexed_init config servers
  · exact fun F e G hF hstep => (keeps_step hstep hF).1

theorem openHttp_of_run {client : ClientRef} (hF : F.registry.WellIndexed)
    (hopen : F.OpenHttp client) {es : List FleetEvent} (hrun : Transition.run step F es = some G) :
    G.OpenHttp client := by
  refine (Transition.run_invariant step (p := fun _ _ => True)
    (I := fun F => F.registry.WellIndexed ∧ F.OpenHttp client) ?_ ⟨hF, hopen⟩
    (Transition.along_true step F es) hrun).2
  rintro F e G ⟨hindexed, hopen⟩ - hstep
  obtain ⟨hindexed', hkept⟩ := keeps_step hstep hindexed
  exact ⟨hindexed', hkept client hopen⟩

theorem Overdue.openHttp {client : ClientRef} {r : ReplicaInfo} (h : F.Overdue client r) :
    F.OpenHttp client := by
  obtain ⟨breaker, hbreaker, hstate, -⟩ := h.overdue
  exact ⟨h.http, r, h.present, by simp [ReplicaInfo.isOpen, hbreaker, hstate]⟩

theorem not_mem_of_openHttp {client : ClientRef} {r : ReplicaInfo}
    (hr : F.registry.replica? client = some r) (h : F.OpenHttp client) :
    r ∉ F.registry.getHealthyReplicas client.serverId := by
  intro hmem
  obtain ⟨r', hr', hopen⟩ := h.opened
  rw [hr] at hr'
  obtain rfl := Option.some.inj hr'
  have heligible := (ServerRegistry.mem_getHealthyReplicas.1 hmem).1
  simp [ReplicaInfo.eligible, hopen] at heligible

def breakerConfig : RouterConfig := { circuitBreaker := some {} }

def httpServer : ServerConfig := { id := "crm", url := "http://crm.internal/mcp" }

def outage : List FleetEvent :=
  [.routeServer 1 "crm", .settle 1 false 0, .routeServer 2 "crm", .settle 2 false 0,
    .routeServer 3 "crm", .settle 3 false 0, .routeServer 4 "crm", .settle 4 false 0,
    .routeServer 5 "crm", .settle 5 false 0, .tick 30000]

def overdueReplica : ReplicaInfo where
  url := "http://crm.internal/mcp"
  client := ⟨"crm", 0⟩
  health := { serverId := "crm:0", healthy := true }
  circuitBreaker := some { CircuitBreaker.init {} with
    state := .opened, failureCount := 5, tripCount := 1 }

theorem outage_overdue :
    ∃ F, Transition.run step (init breakerConfig [httpServer]) outage = some F ∧
      F.Overdue ⟨"crm", 0⟩ overdueReplica :=
  ⟨_, rfl, rfl, rfl, rfl, _, rfl, rfl, rfl⟩

end Fleet

end Conduit.Router
