import Conduit.Router.Router

namespace Conduit.Router

inductive RouterEvent where
  | resolveToolCall (toolName : String)
  | getClientForServer (serverId : String)
  | updateAnnotations (serverId : String) (tools : List ToolMetadata)
  | refreshServer (serverId : String) (now : ℕ) (listed : Option (List ToolMetadata))
  | checkReplicaHealth (client : ClientRef) (succeeded : Bool) (latencyMs now : ℕ)
  | checkServerHealth (serverId : String) (now : ℕ)
  | rebuildNamespaceMap
  | addServer (server : ServerConfig)
  | removeServer (serverId : String)
  | clientUsed (client : ClientRef) (breaker : Option CircuitBreaker) (activeConnections : ℕ)

namespace ServerRegistry

variable (R : ServerRegistry)

def addServer (server : ServerConfig) : ServerRegistry :=
  match R.getServerInfo server.id with
  | some _ => R
  | none =>
      { R with servers := R.servers.set server.id (buildServer R.circuitBreakerConfig server) }

def removeServer (serverId : String) : ServerRegistry :=
  match R.getServerInfo serverId with
  | none => R
  | some _ => ServerRegistry.rebuildNamespaceMap { R with servers := R.servers.delete serverId }

variable {R}

theorem wellIndexed_iff :
    R.WellIndexed ↔ ∀ serverId info, R.getServerInfo serverId = some info →
      WellIndexedServer serverId info := by
  constructor
  · intro h serverId info hinfo idx r hr
    exact h ⟨serverId, idx⟩ r (by simp [replica?, hinfo, hr])
  · rintro h ⟨serverId, idx⟩ r hr
    obtain ⟨info, hinfo, hidx⟩ := Option.bind_eq_some_iff.mp hr
    exact h serverId info hinfo idx r hidx

theorem WellIndexed.rebuildNamespaceMap (h : R.WellIndexed) :
    R.rebuildNamespaceMap.WellIndexed := by
  intro client r hr
  rw [replica?_rebuildNamespaceMap] at hr
  exact h client r hr

theorem WellIndexed.updateServer (h : R.WellIndexed) {serverId : String}
    {f : ServerInfo → ServerInfo}
    (hf : ∀ info, WellIndexedServer serverId info → WellIndexedServer serverId (f info)) :
    (R.updateServer serverId f).WellIndexed := by
  rw [wellIndexed_iff] at h ⊢
  intro key info hinfo
  rw [getServerInfo_updateServer] at hinfo
  split at hinfo
  next heq =>
    subst heq
    obtain ⟨info', hinfo', rfl⟩ := Option.map_eq_some_iff.mp hinfo
    exact hf info' (h _ info' hinfo')
  next => exact h key info hinfo

theorem WellIndexedServer.modify {serverId : String} {info : ServerInfo}
    (h : WellIndexedServer serverId info) (n : ℕ) {g : ReplicaInfo → ReplicaInfo}
    (hg : ∀ r, (g r).client = r.client) (idx : ℕ) (r : ReplicaInfo)
    (hr : (info.replicas.modify n g)[idx]? = some r) : r.client = ⟨serverId, idx⟩ := by
  rw [List.getElem?_modify] at hr
  obtain ⟨r', hr', rfl⟩ := Option.map_eq_some_iff.mp hr
  split
  · rw [hg]
    exact h idx r' hr'
  · exact h idx r' hr'

theorem WellIndexed.updateAnnotations (h : R.WellIndexed) (serverId : String)
    (tools : List ToolMetadata) : (R.updateAnnotations serverId tools).WellIndexed := by
  unfold ServerRegistry.updateAnnotations
  split
  · exact h
  · refine WellIndexed.rebuildNamespaceMap (h.updateServer ?_)
    exact fun _ hinfo => hinfo

theorem WellIndexed.refreshServer (h : R.WellIndexed) (serverId : String) (now : ℕ)
    (listed : Option (List ToolMetadata)) : (R.refreshServer serverId now listed).WellIndexed := by
  refine h.updateServer fun info hinfo => ?_
  cases listed with
  | none => exact hinfo
  | some tools =>
      exact fun idx r hr => hinfo.modify 0
        (g := fun r => { r with health := markHealthy now r.health }) (fun _ => rfl) idx r hr

theorem WellIndexed.addServer (h : R.WellIndexed) (server : ServerConfig) :
    (R.addServer server).WellIndexed := by
  unfold ServerRegistry.addServer
  split
  · exact h
  · rw [wellIndexed_iff] at h ⊢
    intro key info hinfo
    rw [getServerInfo, OrderedMap.get?_set] at hinfo
    split at hinfo
    next heq =>
      obtain rfl := Option.some.inj hinfo
      exact heq ▸ fun idx r hr => client_of_mem_buildReplicas hr
    next => exact h key info hinfo

theorem WellIndexed.removeServer (h : R.WellIndexed) (serverId : String) :
    (R.removeServer serverId).WellIndexed := by
  unfold ServerRegistry.removeServer
  split
  · exact h
  · refine WellIndexed.rebuildNamespaceMap ?_
    rw [wellIndexed_iff] at h ⊢
    intro key info hinfo
    rw [getServerInfo, OrderedMap.get?_delete] at hinfo
    split at hinfo
    · cases hinfo
    · exact h key info hinfo

theorem spelled_rebuildNamespaceMap (h : Spelled R.namespaceMap) :
    Spelled R.rebuildNamespaceMap.namespaceMap := by
  unfold rebuildNamespaceMap
  dsimp only
  split
  next hmap => exact spelled_buildNamespaceMap hmap
  next => exact h

theorem spelled_updateServer (h : Spelled R.namespaceMap) {serverId : String}
    {f : ServerInfo → ServerInfo} : Spelled (R.updateServer serverId f).namespaceMap := by
  unfold updateServer
  split <;> exact h

theorem spelled_updateAnnotations (h : Spelled R.namespaceMap) {serverId : String}
    {tools : List ToolMetadata} : Spelled (R.updateAnnotations serverId tools).namespaceMap := by
  unfold updateAnnotations
  split
  · exact h
  · exact spelled_rebuildNamespaceMap (spelled_updateServer h)

theorem spelled_addServer (h : Spelled R.namespaceMap) {server : ServerConfig} :
    Spelled (R.addServer server).namespaceMap := by
  unfold addServer
  split <;> exact h

theorem spelled_removeServer (h : Spelled R.namespaceMap) {serverId : String} :
    Spelled (R.removeServer serverId).namespaceMap := by
  unfold removeServer
  split
  · exact h
  · exact spelled_rebuildNamespaceMap h

end ServerRegistry

namespace ConduitRouter

def withRegistry (C : ConduitRouter) (R : ServerRegistry) : ConduitRouter := { C with registry := R }

def step (C : ConduitRouter) : RouterEvent → ConduitRouter
  | .resolveToolCall toolName => (C.resolveToolCall toolName).1
  | .getClientForServer serverId => (C.getClientForServer serverId).1
  | .updateAnnotations serverId tools =>
      C.withRegistry (C.registry.updateAnnotations serverId tools)
  | .refreshServer serverId now listed =>
      C.withRegistry (C.registry.refreshServer serverId now listed)
  | .checkReplicaHealth client succeeded latencyMs now =>
      C.withRegistry (C.registry.checkReplicaHealth client succeeded latencyMs now)
  | .checkServerHealth serverId now => C.withRegistry (C.registry.checkServerHealth serverId now)
  | .rebuildNamespaceMap => C.withRegistry C.registry.rebuildNamespaceMap
  | .addServer server => C.withRegistry (C.registry.addServer server)
  | .removeServer serverId => C.withRegistry (C.registry.removeServer serverId)
  | .clientUsed client breaker activeConnections =>
      C.withRegistry (C.registry.updateReplica client fun r =>
        { r with circuitBreaker := breaker, activeConnections := activeConnections })

def Reached (config : RouterConfig) (C : ConduitRouter) : Prop :=
  ∃ (servers : List ServerConfig) (events : List RouterEvent),
    events.foldl step (init config servers) = C

theorem wellIndexed_step {C : ConduitRouter} (h : C.registry.WellIndexed) (e : RouterEvent) :
    (C.step e).registry.WellIndexed := by
  cases e with
  | resolveToolCall toolName => simpa [step] using h
  | getClientForServer serverId => simpa [step] using h
  | updateAnnotations serverId tools => exact h.updateAnnotations serverId tools
  | refreshServer serverId now listed => exact h.refreshServer serverId now listed
  | checkReplicaHealth client succeeded latencyMs now =>
      exact h.updateReplica client fun _ => rfl
  | checkServerHealth serverId now =>
      intro client r hr
      exact h client r (by simpa [step, withRegistry] using hr)
  | rebuildNamespaceMap => exact h.rebuildNamespaceMap
  | addServer server => exact h.addServer server
  | removeServer serverId => exact h.removeServer serverId
  | clientUsed client breaker activeConnections => exact h.updateReplica client fun _ => rfl

theorem wellIndexed_foldl {C : ConduitRouter} (h : C.registry.WellIndexed)
    (events : List RouterEvent) : (events.foldl step C).registry.WellIndexed := by
  induction events generalizing C with
  | nil => exact h
  | cons e events ih => exact ih (wellIndexed_step h e)

theorem wellIndexed_of_reached {config : RouterConfig} {C : ConduitRouter}
    (h : Reached config C) : C.registry.WellIndexed := by
  obtain ⟨servers, events, rfl⟩ := h
  exact wellIndexed_foldl (ServerRegistry.wellIndexed_init config servers) events

theorem spelled_step {C : ConduitRouter} (h : Spelled C.registry.namespaceMap) (e : RouterEvent) :
    Spelled (C.step e).registry.namespaceMap := by
  cases e with
  | resolveToolCall toolName => simpa [step] using h
  | getClientForServer serverId => simpa [step] using h
  | updateAnnotations serverId tools => exact ServerRegistry.spelled_updateAnnotations h
  | refreshServer serverId now listed => exact ServerRegistry.spelled_updateServer h
  | checkReplicaHealth client succeeded latencyMs now => exact ServerRegistry.spelled_updateServer h
  | checkServerHealth serverId now => exact ServerRegistry.spelled_updateServer h
  | rebuildNamespaceMap => exact ServerRegistry.spelled_rebuildNamespaceMap h
  | addServer server => exact ServerRegistry.spelled_addServer h
  | removeServer serverId => exact ServerRegistry.spelled_removeServer h
  | clientUsed client breaker activeConnections => exact ServerRegistry.spelled_updateServer h

theorem spelled_of_reached {config : RouterConfig} {C : ConduitRouter} (h : Reached config C) :
    Spelled C.registry.namespaceMap := by
  obtain ⟨servers, events, rfl⟩ := h
  have hinit : Spelled (init config servers).registry.namespaceMap := spelled_empty
  generalize init config servers = C at hinit ⊢
  induction events generalizing C with
  | nil => exact hinit
  | cons e events ih => exact ih (C.step e) (spelled_step hinit e)

theorem serverId_of_getClientForServer {C : ConduitRouter} (h : C.registry.WellIndexed)
    {serverId : String} {client : ClientRef}
    (hclient : (C.getClientForServer serverId).2 = some client) : client.serverId = serverId := by
  obtain ⟨r, hr, rfl⟩ := mem_of_getClientForServer hclient
  obtain ⟨-, idx, hidx⟩ := ServerRegistry.mem_getHealthyReplicas.1 hr
  rw [h _ r hidx]

theorem serverId_of_resolveToolCall {C : ConduitRouter} (h : C.registry.WellIndexed)
    {toolName : String} {routed : RoutedRequest}
    (hrouted : (C.resolveToolCall toolName).2 = some routed) :
    routed.client.serverId = routed.serverId := by
  obtain ⟨-, r, hr, hclient⟩ := mem_of_resolveToolCall hrouted
  obtain ⟨-, idx, hidx⟩ := ServerRegistry.mem_getHealthyReplicas.1 hr
  rw [← hclient, h _ r hidx]

end ConduitRouter

end Conduit.Router
