import Conduit.Discovery.Backends
import Conduit.Foundation.LocalFold
import Conduit.Runtime.Managed

namespace Conduit.Discovery

open Conduit.Runtime (StdioServerConfig)

-- one backend of a reconciliation: the servers behind it, and whether its poll got to them
inductive BackendPoll where
  | http
  | dns (records : List SrvRecord) (answered : Bool)
  | other (servers : List DiscoveredServer) (answered : Bool)

def BackendPoll.failed : BackendPoll → Bool
  | .http => false
  | .dns _ answered => !answered
  | .other _ answered => !answered

-- the manager with what it shares with the gateway: the registry, the clients (each with the
-- configuration it was made from) and the configured servers; a reload gives the gateway a new
-- array of these and leaves the manager the old one
structure DiscoveryManager where
  httpRegistry : HttpRegistryBackend
  registry : OrderedMap String StdioServerConfig
  clients : OrderedMap String StdioServerConfig
  servers : List StdioServerConfig
  detached : Option (List StdioServerConfig) := none
  defaultCache : ServerCacheConfig := {}
  managedServerIds : OrderedMap String Unit := .empty

structure Reconciliation where
  manager : DiscoveryManager
  added : List String := []
  removed : List String := []
  failed : List String := []

namespace DiscoveryManager

variable (M : DiscoveryManager)

def configServers : List StdioServerConfig := M.detached.getD M.servers

def isStatic (id : String) : Bool := M.configServers.any fun server => server.id = id

-- the ServerRegistry calls that a reconciliation makes
def addServer (server : StdioServerConfig) : Option DiscoveryManager :=
  if M.registry.has server.id then none
  else some { M with
    registry := M.registry.set server.id server
    clients := M.clients.set server.id server }

def removeServer (serverId : String) : DiscoveryManager :=
  if M.registry.has serverId then
    { M with registry := M.registry.delete serverId, clients := M.clients.delete serverId }
  else M

section Polls

def servers? (now : ℕ) : BackendPoll → Option (List DiscoveredServer)
  | .http => some (M.httpRegistry.alive now)
  | .dns records answered => some (dnsPoll (if answered then some records else none))
  | .other servers answered => if answered then some servers else none

def allDiscovered (now : ℕ) (polls : List BackendPoll) : List DiscoveredServer :=
  (polls.filterMap (M.servers? now)).flatten

def discoveredMap (now : ℕ) (polls : List BackendPoll) : OrderedMap String DiscoveredServer :=
  .setAll DiscoveredServer.id (M.allDiscovered now polls)

def polled (now : ℕ) (polls : List BackendPoll) : DiscoveryManager :=
  polls.foldl (fun M poll =>
    match poll with
    | .http => { M with httpRegistry := M.httpRegistry.poll now }
    | _ => M) M

end Polls

end DiscoveryManager

def serverConfig (defaultCache : ServerCacheConfig) (discovered : DiscoveredServer) :
    StdioServerConfig where
  id := discovered.id
  url := discovered.url
  cache := defaultCache
  transport := discovered.transport
  command := discovered.command.filter fun command => command ≠ ""
  args := discovered.args

namespace Reconciliation

variable (r : Reconciliation)

-- the client is in place before the registry is asked
def adopt (discovered : DiscoveredServer) : Reconciliation :=
  let M := r.manager
  if M.isStatic discovered.id then r
  else if M.managedServerIds.has discovered.id then r
  else
    let server := serverConfig M.defaultCache discovered
    let M := { M with clients := M.clients.set discovered.id server }
    match M.addServer server with
    | some M =>
        { r with
          manager := { M with managedServerIds := M.managedServerIds.set discovered.id () }
          added := r.added ++ [discovered.id] }
    | none => { r with manager := M, failed := r.failed ++ [discovered.id] }

def drop (discovered : OrderedMap String DiscoveredServer) (r : Reconciliation) (id : String) :
    Reconciliation :=
  if discovered.has id then r
  else
    let M := r.manager.removeServer id
    { r with
      manager := { M with
        clients := M.clients.delete id
        managedServerIds := M.managedServerIds.delete id }
      removed := r.removed ++ [id] }

end Reconciliation

def DiscoveryManager.reconcile (M : DiscoveryManager) (now : ℕ) (polls : List BackendPoll) :
    Reconciliation :=
  let discoveredMap := M.discoveredMap now polls
  let r := discoveredMap.values.foldl Reconciliation.adopt { manager := M.polled now polls }
  r.manager.managedServerIds.keys.foldl (Reconciliation.drop discoveredMap) r

-- what a reconciliation shows of one id
@[ext]
structure Standing where
  defaultCache : ServerCacheConfig
  isStatic : Bool
  managed : Bool
  entry : Option StdioServerConfig
  client : Option StdioServerConfig
  added : Prop
  removed : Prop
  failed : Prop

namespace Standing

def adopt (discovered : DiscoveredServer) (s : Standing) : Standing :=
  let server := serverConfig s.defaultCache discovered
  if s.isStatic then s
  else if s.managed then s
  else if s.entry.isSome then { s with client := some server, failed := True }
  else { s with managed := true, entry := some server, client := some server, added := True }

def drop (s : Standing) : Standing :=
  { s with managed := false, entry := none, client := none, removed := True }

end Standing

namespace Reconciliation

def standing (r : Reconciliation) (id : String) : Standing where
  defaultCache := r.manager.defaultCache
  isStatic := r.manager.isStatic id
  managed := r.manager.managedServerIds.has id
  entry := r.manager.registry.get? id
  client := r.manager.clients.get? id
  added := id ∈ r.added
  removed := id ∈ r.removed
  failed := id ∈ r.failed

theorem adopt_cases (r : Reconciliation) (discovered : DiscoveredServer) :
    (r.manager.isStatic discovered.id = true ∨
        r.manager.managedServerIds.has discovered.id = true) ∧
      r.adopt discovered = r ∨
    r.manager.isStatic discovered.id = false ∧
      r.manager.managedServerIds.has discovered.id = false ∧
      ∃ server, server = serverConfig r.manager.defaultCache discovered ∧
        (r.manager.registry.has discovered.id = true ∧
          r.adopt discovered =
            { r with
              manager := { r.manager with
                clients := r.manager.clients.set discovered.id server }
              failed := r.failed ++ [discovered.id] } ∨
        r.manager.registry.has discovered.id = false ∧
          r.adopt discovered =
            { r with
              manager := { r.manager with
                clients := (r.manager.clients.set discovered.id server).set discovered.id server
                registry := r.manager.registry.set discovered.id server
                managedServerIds := r.manager.managedServerIds.set discovered.id () }
              added := r.added ++ [discovered.id] }) := by
  cases hstatic : r.manager.isStatic discovered.id with
  | true => exact .inl ⟨.inl rfl, by simp [adopt, hstatic]⟩
  | false =>
      cases hmanaged : r.manager.managedServerIds.has discovered.id with
      | true => exact .inl ⟨.inr rfl, by simp [adopt, hstatic, hmanaged]⟩
      | false =>
          refine .inr ⟨rfl, rfl, _, rfl, ?_⟩
          cases hregistered : r.manager.registry.has discovered.id with
          | true =>
              refine .inl ⟨rfl, ?_⟩
              simp [adopt, hstatic, hmanaged, DiscoveryManager.addServer, serverConfig, hregistered]
          | false =>
              refine .inr ⟨rfl, ?_⟩
              simp [adopt, hstatic, hmanaged, DiscoveryManager.addServer, serverConfig, hregistered]

theorem local_adopt : LocalFold adopt DiscoveredServer.id standing Standing.adopt where
  own := by
    intro r discovered
    rcases adopt_cases r discovered with
      ⟨hkept, hsame⟩ | ⟨hstatic, hmanaged, server, rfl, ⟨hregistered, hnext⟩ | ⟨hfree, hnext⟩⟩
    · rw [hsame]
      rcases hkept with hstatic | hmanaged
      · simp [Standing.adopt, standing, hstatic]
      · simp [Standing.adopt, standing, hmanaged]
    · have hadopted : (r.standing discovered.id).adopt discovered =
          { r.standing discovered.id with
            client := some (serverConfig r.manager.defaultCache discovered), failed := True } := by
        simp only [OrderedMap.has] at hregistered
        simp [Standing.adopt, standing, hstatic, hmanaged, hregistered]
      rw [hnext, hadopted]
      simp only [standing, OrderedMap.get?_set_self, List.mem_append, List.mem_singleton, or_true]
      rfl
    · have hadopted : (r.standing discovered.id).adopt discovered =
          { r.standing discovered.id with
            managed := true
            entry := some (serverConfig r.manager.defaultCache discovered)
            client := some (serverConfig r.manager.defaultCache discovered)
            added := True } := by
        simp only [OrderedMap.has] at hfree
        simp [Standing.adopt, standing, hstatic, hmanaged, hfree]
      rw [hnext, hadopted]
      simp only [standing, OrderedMap.has, OrderedMap.get?_set_self, List.mem_append,
        List.mem_singleton, or_true]
      rfl
  other := by
    intro r discovered k hne
    rcases adopt_cases r discovered with
      ⟨hkept, hsame⟩ | ⟨hstatic, hmanaged, server, rfl, ⟨hregistered, hnext⟩ | ⟨hfree, hnext⟩⟩
    · rw [hsame]
    · rw [hnext]
      simp only [standing, List.mem_append, List.mem_singleton, hne, or_false,
        OrderedMap.get?_set_of_ne _ _ hne.symm]
      rfl
    · rw [hnext]
      simp only [standing, List.mem_append, List.mem_singleton, hne, or_false, OrderedMap.has,
        OrderedMap.get?_set_of_ne _ _ hne.symm]
      rfl

theorem local_drop (discovered : OrderedMap String DiscoveredServer) :
    LocalFold (drop discovered) id standing fun serverId s =>
      if discovered.has serverId then s else s.drop where
  own := by
    intro r serverId
    unfold drop DiscoveryManager.removeServer
    rw [id_eq]
    split
    · rfl
    · cases hregistered : r.manager.registry.has serverId with
      | true =>
          simp only [standing, Standing.drop, if_true, OrderedMap.has, OrderedMap.get?_delete_self,
            List.mem_append, List.mem_singleton, or_true]
          rfl
      | false =>
          have hnone : r.manager.registry.get? serverId = none := by
            simpa [OrderedMap.has] using hregistered
          simp only [standing, Standing.drop, if_false, Bool.false_eq_true, OrderedMap.has, hnone,
            OrderedMap.get?_delete_self, List.mem_append, List.mem_singleton, or_true]
          rfl
  other := by
    intro r serverId k hne
    rw [id_eq] at hne
    unfold drop DiscoveryManager.removeServer
    split
    · rfl
    · split
      · simp only [standing, OrderedMap.has, List.mem_append, List.mem_singleton, hne, or_false,
          OrderedMap.get?_delete_of_ne _ hne.symm]
        rfl
      · simp only [standing, OrderedMap.has, List.mem_append, List.mem_singleton, hne, or_false,
          OrderedMap.get?_delete_of_ne _ hne.symm]
        rfl

theorem standing_dropped (discovered : OrderedMap String DiscoveredServer) (r : Reconciliation)
    (serverId : String) :
    (r.manager.managedServerIds.keys.foldl (drop discovered) r).standing serverId =
      if discovered.has serverId then r.standing serverId
      else if (r.standing serverId).managed then (r.standing serverId).drop
      else r.standing serverId := by
  have hmanaged : serverId ∈ r.manager.managedServerIds.keys ↔
      (r.standing serverId).managed = true := by
    rw [OrderedMap.mem_keys, ← Option.isSome_iff_exists]
    rfl
  by_cases hmem : serverId ∈ r.manager.managedServerIds.keys
  · have hnodup : (r.manager.managedServerIds.keys.map id).Nodup := by
      rw [List.map_id]
      exact r.manager.managedServerIds.nodup
    rw [if_pos (hmanaged.mp hmem)]
    exact (local_drop discovered).foldl_of_mem r hnodup hmem
  · rw [if_neg fun h => hmem (hmanaged.mpr h), ite_self]
    apply (local_drop discovered).foldl_of_not_mem
    rw [List.map_id]
    exact hmem

end Reconciliation

namespace DiscoveryManager

variable (M : DiscoveryManager)

def standing (serverId : String) : Standing :=
  Reconciliation.standing { manager := M } serverId

theorem standing_polled (now : ℕ) (polls : List BackendPoll) (serverId : String) :
    (M.polled now polls).standing serverId = M.standing serverId := by
  induction polls generalizing M with
  | nil => rfl
  | cons poll polls ih =>
      cases poll with
      | http => exact ih { M with httpRegistry := M.httpRegistry.poll now }
      | dns records answered => exact ih M
      | other servers answered => exact ih M

-- the last record that the polls answered for the id
def latest (now : ℕ) (polls : List BackendPoll) (serverId : String) : Option DiscoveredServer :=
  (M.allDiscovered now polls).reverse.find? fun server => server.id = serverId

theorem get?_discoveredMap (now : ℕ) (polls : List BackendPoll) (serverId : String) :
    (M.discoveredMap now polls).get? serverId = M.latest now polls serverId :=
  OrderedMap.get?_setAll _ serverId

def settle (s : Standing) : Option DiscoveredServer → Standing
  | some discovered => s.adopt discovered
  | none => if s.managed then s.drop else s

theorem standing_adopted (now : ℕ) (polls : List BackendPoll) (serverId : String) :
    ((M.discoveredMap now polls).values.foldl Reconciliation.adopt
        { manager := M.polled now polls }).standing serverId =
      ((M.latest now polls serverId).elim id Standing.adopt) (M.standing serverId) := by
  have hids : (M.discoveredMap now polls).values.map DiscoveredServer.id =
      (M.discoveredMap now polls).keys := OrderedMap.map_values_setAll _
  rw [← M.standing_polled now polls serverId, ← M.get?_discoveredMap]
  cases hlatest : (M.discoveredMap now polls).get? serverId with
  | none =>
      apply Reconciliation.local_adopt.foldl_of_not_mem
      rw [hids, OrderedMap.mem_keys]
      rintro ⟨discovered, hdiscovered⟩
      rw [hlatest] at hdiscovered
      cases hdiscovered
  | some discovered =>
      have hentry := (OrderedMap.get?_eq_some_iff _ serverId discovered).mp hlatest
      obtain rfl : discovered.id = serverId := OrderedMap.key_of_mem_setAll hentry
      apply Reconciliation.local_adopt.foldl_of_mem
      · rw [hids]
        exact (M.discoveredMap now polls).nodup
      · exact OrderedMap.mem_values_of_get? hlatest

theorem standing_reconcile (now : ℕ) (polls : List BackendPoll) (serverId : String) :
    (M.reconcile now polls).standing serverId =
      settle (M.standing serverId) (M.latest now polls serverId) := by
  simp only [reconcile, Reconciliation.standing_dropped, standing_adopted, OrderedMap.has,
    get?_discoveredMap]
  cases M.latest now polls serverId with
  | none => rfl
  | some discovered => rfl

end DiscoveryManager

end Conduit.Discovery
