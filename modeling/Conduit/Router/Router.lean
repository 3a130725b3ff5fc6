import Conduit.Router.Registry

namespace Conduit.Router

structure RoutedRequest where
  serverId : String
  toolName : String
  client : ClientRef
deriving DecidableEq, Repr

structure AggregatedTool where
  namespacedName : String
  serverId : String
  toolName : String
  toolDef : ToolMetadata

structure ConduitRouter where
  registry : ServerRegistry
  config : RouterConfig
  roundRobinCounters : OrderedMap String ℕ

namespace ConduitRouter

def init (config : RouterConfig) (servers : List ServerConfig) : ConduitRouter where
  registry := .init config servers
  config := config
  roundRobinCounters := .empty

def leastConnections (first : ReplicaInfo) (replicas : List ReplicaInfo) : ReplicaInfo :=
  replicas.foldl
    (fun selected replica =>
      if replica.activeConnections < selected.activeConnections then replica else selected) first

variable (C : ConduitRouter)

def selectReplica (serverId : String) : ConduitRouter × Option ClientRef :=
  match C.registry.getHealthyReplicas serverId with
  | [] => (C, none)
  | first :: rest =>
      match C.config.loadBalancing.getD .roundRobin with
      | .leastConnections => (C, some (leastConnections first (first :: rest)).client)
      | .roundRobin =>
          let counter := (C.roundRobinCounters.get? serverId).getD 0
          let idx := counter % (first :: rest).length
          ({ C with roundRobinCounters := C.roundRobinCounters.set serverId (counter + 1) },
            ((first :: rest)[idx]?).map ReplicaInfo.client)

def resolveToolName (toolName : String) : Option ToolTarget :=
  resolveTool toolName C.registry.namespaceMap C.config.namespaceStrategy

def resolveToolCall (toolName : String) : ConduitRouter × Option RoutedRequest :=
  match C.resolveToolName toolName with
  | none => (C, none)
  | some resolved =>
      let (C', client) := C.selectReplica resolved.serverId
      (C', client.map fun c => ⟨resolved.serverId, resolved.toolName, c⟩)

def getClientForServer (serverId : String) : ConduitRouter × Option ClientRef :=
  match C.registry.getServerInfo serverId with
  | none => (C, none)
  | some _ => C.selectReplica serverId

def getAggregatedToolsWithServerIds : List AggregatedTool :=
  C.registry.namespaceMap.entries.filterMap fun (namespacedName, target) =>
    match C.registry.getServerInfo target.serverId with
    | none => none
    | some info =>
        if info.health.healthy then
          (info.tools.find? fun t => t.name = target.toolName).map fun toolDef =>
            ⟨namespacedName, target.serverId, target.toolName, toolDef⟩
        else none

variable {C}

theorem leastConnections_mem (first : ReplicaInfo) (replicas : List ReplicaInfo) :
    leastConnections first replicas = first ∨ leastConnections first replicas ∈ replicas := by
  unfold leastConnections
  induction replicas generalizing first with
  | nil => exact .inl rfl
  | cons r rest ih =>
      rw [List.foldl_cons]
      rcases ih (if r.activeConnections < first.activeConnections then r else first) with h | h
      · rw [h]
        split
        · exact .inr (List.mem_cons_self ..)
        · exact .inl rfl
      · exact .inr (List.mem_cons_of_mem _ h)

@[simp] theorem selectReplica_registry (serverId : String) :
    (C.selectReplica serverId).1.registry = C.registry := by
  unfold selectReplica
  split
  · rfl
  · split <;> rfl

@[simp] theorem selectReplica_config (serverId : String) :
    (C.selectReplica serverId).1.config = C.config := by
  unfold selectReplica
  split
  · rfl
  · split <;> rfl

theorem mem_of_selectReplica {serverId : String} {client : ClientRef}
    (h : (C.selectReplica serverId).2 = some client) :
    ∃ r ∈ C.registry.getHealthyReplicas serverId, r.client = client := by
  unfold selectReplica at h
  split at h
  · simp at h
  next first rest heq =>
    rw [heq]
    split at h
    · refine ⟨leastConnections first (first :: rest), ?_, Option.some.inj h⟩
      rcases leastConnections_mem first (first :: rest) with hfirst | hmem
      · rw [hfirst]
        exact List.mem_cons_self ..
      · exact hmem
    · obtain ⟨r, hr, rfl⟩ := Option.map_eq_some_iff.mp h
      exact ⟨r, List.mem_of_getElem? hr, rfl⟩

theorem selectReplica_isSome {serverId : String} :
    (C.selectReplica serverId).2.isSome = true ↔ C.registry.getHealthyReplicas serverId ≠ [] := by
  unfold selectReplica
  split
  next heq => simp [heq]
  next first rest heq =>
    rw [heq]
    split
    · simp
    · have hlt : (C.roundRobinCounters.get? serverId).getD 0 % (first :: rest).length <
          (first :: rest).length := Nat.mod_lt _ (Nat.succ_pos rest.length)
      simpa using hlt

@[simp] theorem resolveToolCall_registry (toolName : String) :
    (C.resolveToolCall toolName).1.registry = C.registry := by
  unfold resolveToolCall
  split
  · rfl
  · exact selectReplica_registry _

@[simp] theorem getClientForServer_registry (serverId : String) :
    (C.getClientForServer serverId).1.registry = C.registry := by
  unfold getClientForServer
  split
  · rfl
  · exact selectReplica_registry _

theorem mem_of_getClientForServer {serverId : String} {client : ClientRef}
    (h : (C.getClientForServer serverId).2 = some client) :
    ∃ r ∈ C.registry.getHealthyReplicas serverId, r.client = client := by
  unfold getClientForServer at h
  split at h
  · simp at h
  · exact mem_of_selectReplica h

theorem mem_of_resolveToolCall {toolName : String} {routed : RoutedRequest}
    (h : (C.resolveToolCall toolName).2 = some routed) :
    C.resolveToolName toolName = some ⟨routed.serverId, routed.toolName⟩ ∧
      ∃ r ∈ C.registry.getHealthyReplicas routed.serverId, r.client = routed.client := by
  unfold resolveToolCall at h
  split at h
  · simp at h
  next resolved hresolved =>
    obtain ⟨client, hclient, rfl⟩ := Option.map_eq_some_iff.mp h
    exact ⟨hresolved, mem_of_selectReplica hclient⟩

end ConduitRouter

end Conduit.Router
