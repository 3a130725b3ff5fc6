import Conduit.Discovery.Manager

namespace Conduit.Discovery

open Conduit.Runtime (StdioServerConfig)

inductive DiscoveryEvent where
  | register (server : DiscoveredServer) (now : ℕ)
  | deregister (serverId : String)
  | discoverStatus (now : ℕ)
  | reconcile (now : ℕ) (polls : List BackendPoll)
  | addServer (server : StdioServerConfig)
  | deleteServer (serverId : String)
  | reload (servers : List StdioServerConfig)

namespace DiscoveryManager

def init (httpRegistry : HttpRegistryBackend) (defaultCache : ServerCacheConfig)
    (servers : List StdioServerConfig) : DiscoveryManager where
  httpRegistry := httpRegistry
  registry := .setAll (fun server => server.id) servers
  clients := .setAll (fun server => server.id) servers
  servers := servers
  defaultCache := defaultCache

variable (M : DiscoveryManager)

-- an addition that throws has its client in place already
def reloadAdd (currentIds : List String) (M : DiscoveryManager) (server : StdioServerConfig) :
    DiscoveryManager :=
  if server.id ∈ currentIds then M
  else
    let M := { M with clients := M.clients.set server.id server }
    match M.addServer server with
    | some M => { M with servers := M.servers ++ [server] }
    | none => M

def reloadRemove (newIds : List String) (M : DiscoveryManager) (server : StdioServerConfig) :
    DiscoveryManager :=
  if server.id ∈ newIds then M
  else
    let M := M.removeServer server.id
    { M with clients := M.clients.delete server.id }

def reload (servers : List StdioServerConfig) : DiscoveryManager :=
  let newIds := servers.map fun server => server.id
  let M := servers.foldl (reloadAdd (M.servers.map fun server => server.id)) M
  let M := M.servers.foldl (reloadRemove newIds) M
  { M with
    servers := M.servers.filter fun server => server.id ∈ newIds
    detached := some M.configServers }

def step (M : DiscoveryManager) : DiscoveryEvent → DiscoveryManager
  | .register server now => { M with httpRegistry := M.httpRegistry.register server now }
  | .deregister serverId => { M with httpRegistry := M.httpRegistry.deregister serverId }
  | .discoverStatus now => { M with httpRegistry := M.httpRegistry.poll now }
  | .reconcile now polls => (M.reconcile now polls).manager
  | .addServer server =>
      match M.addServer server with
      | some M => { M with servers := M.servers ++ [server] }
      | none => M
  | .deleteServer serverId =>
      if M.registry.has serverId then
        let M := M.removeServer serverId
        { M with servers := M.servers.eraseP fun server => server.id = serverId }
      else M
  | .reload servers => M.reload servers

def managed (serverId : String) : Prop := M.managedServerIds.has serverId = true

-- the ids of the configuration that the gateway runs
def Declared (serverId : String) : Prop := ∃ server ∈ M.servers, server.id = serverId

end DiscoveryManager

structure Uses (server : StdioServerConfig) (record : DiscoveredServer) : Prop where
  url : server.url = record.url
  transport : server.transport = record.transport
  command : server.command = record.command
  args : server.args = record.args

def AllPolled (polls : List BackendPoll) : Prop := ∀ poll ∈ polls, poll.failed = false

def BackendPoll.behind : BackendPoll → List DiscoveredServer
  | .http => []
  | .dns records _ => records.map srvToServer
  | .other servers _ => servers

namespace DiscoveryManager

variable (M : DiscoveryManager)

-- the registry entry of the id and its client both use the record
def UsesBoth (serverId : String) (record : DiscoveredServer) : Prop :=
  (∃ server, M.registry.get? serverId = some server ∧ Uses server record) ∧
    ∃ client, M.clients.get? serverId = some client ∧ Uses client record

structure Converged (now : ℕ) (polls : List BackendPoll) : Prop where
  managed : ∀ id, (M.reconcile now polls).manager.managed id ↔
    (∃ record, M.latest now polls id = some record) ∧ ¬M.Declared id
  uses : ∀ id record, (M.reconcile now polls).manager.managed id →
    M.latest now polls id = some record → (M.reconcile now polls).manager.UsesBoth id record

-- no server behind a backend whose poll failed is removed
def Spares (now : ℕ) (polls : List BackendPoll) : Prop :=
  ∀ poll ∈ polls, poll.failed = true → ∀ server ∈ poll.behind,
    server.id ∉ (M.reconcile now polls).removed

def Converges (now : ℕ) (polls : List BackendPoll) : Prop :=
  (AllPolled polls → (M.reconcile now polls).failed = [] → M.Converged now polls) ∧
    M.Spares now polls

-- no newcomer's id is registered already
def Free (now : ℕ) (polls : List BackendPoll) : Prop :=
  ∀ id record, M.latest now polls id = some record → M.isStatic id = false → ¬M.managed id →
    M.registry.get? id = none

-- what a reconciliation has to find: each managed server undeclared and running its latest
-- record, and the manager's array agreeing with the gateway's on every other id
structure Settled (id : String) (record : DiscoveredServer) : Prop where
  kept : M.managed id → ¬M.Declared id ∧ M.UsesBoth id record
  new : ¬M.managed id → (M.isStatic id = true ↔ M.Declared id) ∧
    (¬M.Declared id → record.command ≠ some "")

variable {M} {now : ℕ} {polls : List BackendPoll} {id : String} {record : DiscoveredServer}

section Outcome

-- the outcome at the id, from what the polls answered for it
theorem standing_of_missing (hlatest : M.latest now polls id = none) :
    (M.reconcile now polls).standing id =
      if (M.standing id).managed then (M.standing id).drop else M.standing id := by
  rw [standing_reconcile, hlatest]
  rfl

theorem standing_of_latest (hlatest : M.latest now polls id = some record) :
    (M.reconcile now polls).standing id = (M.standing id).adopt record := by
  rw [standing_reconcile, hlatest]
  rfl

theorem adopt_of_managed (h : M.managed id) : (M.standing id).adopt record = M.standing id := by
  have hmanaged : (M.standing id).managed = true := h
  simp only [Standing.adopt, hmanaged, if_true, ite_self]

theorem adopt_of_static (h : M.isStatic id = true) :
    (M.standing id).adopt record = M.standing id :=
  if_pos h

theorem adopt_of_new (hstatic : M.isStatic id = false) (hmanaged : ¬M.managed id)
    (hfree : M.registry.get? id = none) :
    (M.standing id).adopt record =
      { M.standing id with
        managed := true
        entry := some (serverConfig M.defaultCache record)
        client := some (serverConfig M.defaultCache record)
        added := True } := by
  have hnot : (M.standing id).managed = false := Bool.eq_false_iff.mpr hmanaged
  have hunknown : (M.standing id).isStatic = false := hstatic
  have hnone : (M.standing id).entry = none := hfree
  simp only [Standing.adopt, hnot, hunknown, hnone, Option.isSome_none, Bool.false_eq_true, if_false]
  rfl

theorem adopt_of_registered (hstatic : M.isStatic id = false) (hmanaged : ¬M.managed id)
    (hregistered : M.registry.get? id ≠ none) : ((M.standing id).adopt record).failed := by
  have hnot : (M.standing id).managed = false := Bool.eq_false_iff.mpr hmanaged
  have hunknown : (M.standing id).isStatic = false := hstatic
  have hsome : (M.standing id).entry.isSome = true := Option.isSome_iff_ne_none.mpr hregistered
  simp [Standing.adopt, hnot, hunknown, hsome]

theorem managed_iff : (M.reconcile now polls).manager.managed id ↔
    ((M.reconcile now polls).standing id).managed = true :=
  Iff.rfl

theorem failed_reconcile : (M.reconcile now polls).failed = [] ↔ M.Free now polls := by
  have hmem (id : String) : id ∈ (M.reconcile now polls).failed ↔
      ((M.reconcile now polls).standing id).failed := Iff.rfl
  rw [List.eq_nil_iff_forall_not_mem]
  constructor
  · intro h id record hlatest hstatic hmanaged
    by_contra hregistered
    apply h id
    rw [hmem, standing_of_latest hlatest]
    exact adopt_of_registered hstatic hmanaged hregistered
  · intro h id hfailed
    rw [hmem] at hfailed
    cases hlatest : M.latest now polls id with
    | none =>
        rw [standing_of_missing hlatest] at hfailed
        split at hfailed
        · exact List.not_mem_nil hfailed
        · exact List.not_mem_nil hfailed
    | some record =>
        rw [standing_of_latest hlatest] at hfailed
        by_cases hmanaged : M.managed id
        · rw [adopt_of_managed hmanaged] at hfailed
          exact List.not_mem_nil hfailed
        · cases hstatic : M.isStatic id with
          | true =>
              rw [adopt_of_static hstatic] at hfailed
              exact List.not_mem_nil hfailed
          | false =>
              rw [adopt_of_new hstatic hmanaged (h id record hlatest hstatic hmanaged)] at hfailed
              exact List.not_mem_nil hfailed

theorem removed_adopt (s : Standing) (record : DiscoveredServer) :
    (s.adopt record).removed = s.removed := by
  unfold Standing.adopt
  dsimp only
  split
  · rfl
  · split
    · rfl
    · split
      · rfl
      · rfl

theorem mem_removed :
    id ∈ (M.reconcile now polls).removed ↔ M.managed id ∧ M.latest now polls id = none := by
  have hmem : id ∈ (M.reconcile now polls).removed ↔
      ((M.reconcile now polls).standing id).removed := Iff.rfl
  have hnot : ¬(M.standing id).removed := List.not_mem_nil
  rw [hmem]
  cases hlatest : M.latest now polls id with
  | none =>
      rw [standing_of_missing hlatest]
      split
      next hmanaged => exact ⟨fun _ => ⟨hmanaged, rfl⟩, fun _ => trivial⟩
      next hmanaged => exact ⟨fun h => absurd h hnot, fun h => absurd h.1 hmanaged⟩
  | some record =>
      rw [standing_of_latest hlatest, removed_adopt]
      exact ⟨fun h => absurd h hnot, fun h => by cases h.2⟩

theorem managed_of_missing (hlatest : M.latest now polls id = none) :
    ¬(M.reconcile now polls).manager.managed id := by
  rw [managed_iff, standing_of_missing hlatest]
  split
  next => exact Bool.false_ne_true
  next h => exact h

end Outcome

section Condition

theorem uses_serverConfig (defaultCache : ServerCacheConfig) :
    Uses (serverConfig defaultCache record) record ↔ record.command ≠ some "" := by
  constructor
  · rintro ⟨_, _, hcommand, _⟩ hempty
    rw [serverConfig, hempty] at hcommand
    cases hcommand
  · intro h
    refine ⟨rfl, rfl, ?_, rfl⟩
    change record.command.filter _ = record.command
    cases hcommand : record.command with
    | none => rfl
    | some command =>
        have hne : command ≠ "" := fun hempty => h (hempty ▸ hcommand)
        exact Option.filter_some_pos (decide_eq_true hne)

theorem settled_iff (hfree : M.Free now polls) (hlatest : M.latest now polls id = some record) :
    (((M.reconcile now polls).manager.managed id ↔ ¬M.Declared id) ∧
      ((M.reconcile now polls).manager.managed id →
        (M.reconcile now polls).manager.UsesBoth id record)) ↔ M.Settled id record := by
  have huses : (M.reconcile now polls).manager.UsesBoth id record ↔
      (∃ server, ((M.reconcile now polls).standing id).entry = some server ∧ Uses server record) ∧
        ∃ client, ((M.reconcile now polls).standing id).client = some client ∧ Uses client record :=
    Iff.rfl
  rw [managed_iff, huses, standing_of_latest hlatest]
  by_cases hmanaged : M.managed id
  · rw [adopt_of_managed hmanaged]
    constructor
    · rintro ⟨hdeclared, hboth⟩
      exact ⟨fun _ => ⟨hdeclared.mp hmanaged, hboth hmanaged⟩, fun h => absurd hmanaged h⟩
    · intro h
      obtain ⟨hdeclared, hboth⟩ := h.kept hmanaged
      exact ⟨⟨fun _ => hdeclared, fun _ => hmanaged⟩, fun _ => hboth⟩
  · cases hstatic : M.isStatic id with
    | true =>
        rw [adopt_of_static hstatic]
        constructor
        · rintro ⟨hdeclared, -⟩
          have hdeclares : M.Declared id := by
            by_contra hnot
            exact hmanaged (hdeclared.mpr hnot)
          exact ⟨fun h => absurd h hmanaged,
            fun _ => ⟨⟨fun _ => hdeclares, fun _ => hstatic⟩, fun h => absurd hdeclares h⟩⟩
        · intro h
          have hdeclares := (h.new hmanaged).1.mp hstatic
          exact ⟨⟨fun h => absurd h hmanaged, fun h => absurd hdeclares h⟩,
            fun h => absurd h hmanaged⟩
    | false =>
        rw [adopt_of_new hstatic hmanaged (hfree id record hlatest hstatic hmanaged)]
        constructor
        · rintro ⟨hdeclared, hboth⟩
          obtain ⟨⟨server, hserver, hsame⟩, -⟩ := hboth rfl
          obtain rfl := Option.some.inj hserver
          refine ⟨fun h => absurd h hmanaged, fun _ => ⟨⟨fun h => ?_, fun h => ?_⟩, fun _ => ?_⟩⟩
          · exact absurd h (by rw [hstatic]; exact Bool.false_ne_true)
          · exact absurd h (hdeclared.mp rfl)
          · exact (uses_serverConfig _).mp hsame
        · intro h
          obtain ⟨hagree, hcommand⟩ := h.new hmanaged
          have hdeclared : ¬M.Declared id := fun h => by
            have := hagree.mpr h
            rw [hstatic] at this
            cases this
          have hsame := (uses_serverConfig M.defaultCache).mpr (hcommand hdeclared)
          exact ⟨⟨fun _ => hdeclared, fun _ => rfl⟩, fun _ => ⟨⟨_, rfl, hsame⟩, ⟨_, rfl, hsame⟩⟩⟩

theorem converged_iff (hfree : M.Free now polls) :
    M.Converged now polls ↔
      ∀ id record, M.latest now polls id = some record → M.Settled id record := by
  constructor
  · intro h id record hlatest
    refine (settled_iff hfree hlatest).mp ⟨?_, fun hmanaged => h.uses id record hmanaged hlatest⟩
    rw [h.managed id]
    exact ⟨fun hmanaged => hmanaged.2, fun hdeclared => ⟨⟨record, hlatest⟩, hdeclared⟩⟩
  · intro h
    constructor
    · intro id
      cases hlatest : M.latest now polls id with
      | none =>
          refine ⟨fun hmanaged => absurd hmanaged (managed_of_missing hlatest), ?_⟩
          rintro ⟨⟨record, hrecord⟩, -⟩
          cases hrecord
      | some record =>
          rw [((settled_iff hfree hlatest).mpr (h id record hlatest)).1]
          exact ⟨fun hdeclared => ⟨⟨record, rfl⟩, hdeclared⟩, fun hmanaged => hmanaged.2⟩
    · intro id record hmanaged hlatest
      exact ((settled_iff hfree hlatest).mpr (h id record hlatest)).2 hmanaged

theorem spares_iff :
    M.Spares now polls ↔ ∀ poll ∈ polls, poll.failed = true → ∀ server ∈ poll.behind,
      M.managed server.id → ∃ record, M.latest now polls server.id = some record := by
  unfold Spares
  constructor
  · intro h poll hpoll hfailed server hserver hmanaged
    have hnot := h poll hpoll hfailed server hserver
    rw [mem_removed] at hnot
    exact Option.ne_none_iff_exists'.mp fun hnone => hnot ⟨hmanaged, hnone⟩
  · intro h poll hpoll hfailed server hserver hremoved
    obtain ⟨hmanaged, hnone⟩ := mem_removed.1 hremoved
    obtain ⟨record, hrecord⟩ := h poll hpoll hfailed server hserver hmanaged
    rw [hnone] at hrecord
    cases hrecord

end Condition

theorem reconcile_converges_iff (httpRegistry : HttpRegistryBackend)
    (defaultCache : ServerCacheConfig) (servers : List StdioServerConfig)
    (events : List DiscoveryEvent) (now : ℕ) (polls : List BackendPoll) :
    let M := events.foldl step (init httpRegistry defaultCache servers)
    M.Converges now polls ↔
      (AllPolled polls → M.Free now polls →
        ∀ id record, M.latest now polls id = some record → M.Settled id record) ∧
        ∀ poll ∈ polls, poll.failed = true → ∀ server ∈ poll.behind,
          M.managed server.id → ∃ record, M.latest now polls server.id = some record := by
  intro M
  rw [Converges, failed_reconcile, spares_iff]
  refine and_congr_left' ?_
  exact forall_congr' fun _ => forall_congr' converged_iff

section Runs

def tools : DiscoveredServer := { id := "tools", url := "http://tools/mcp" }

def run (events : List DiscoveryEvent) : DiscoveryManager :=
  events.foldl step (init { staleTimeoutMs := 90000 } {} [])

def discovered : List DiscoveryEvent := [.register tools 0, .reconcile 0 [.http]]

-- an admin deletes the discovered server, it registers under a new url, its lookup fails
theorem reconcile_diverges :
    ¬(run (discovered ++ [.deleteServer "tools"])).Converges 0 [.http] ∧
      ¬(run (discovered ++ [.register { tools with url := "http://moved/mcp" } 0])).Converges 0
        [.http] ∧
      ¬(run [.reconcile 0 [.dns [⟨"tools", 80⟩] true]]).Converges 0 [.dns [⟨"tools", 80⟩] false] := by
  have hpolled : AllPolled [.http] := by
    intro poll hpoll
    obtain rfl := List.mem_singleton.mp hpoll
    rfl
  refine ⟨fun h => ?_, fun h => ?_, fun h => ?_⟩
  · have hconverged := h.1 hpolled (by decide +kernel)
    obtain ⟨⟨server, hserver, -⟩, -⟩ :=
      hconverged.uses "tools" tools (by unfold managed; decide +kernel) (by decide +kernel)
    have hnone : ((run (discovered ++ [.deleteServer "tools"])).reconcile 0
        [.http]).manager.registry.get? "tools" = none :=
      Option.isNone_iff_eq_none.mp (by decide +kernel)
    rw [hnone] at hserver
    cases hserver
  · have hconverged := h.1 hpolled (by decide +kernel)
    obtain ⟨⟨server, hserver, huses⟩, -⟩ :=
      hconverged.uses "tools" { tools with url := "http://moved/mcp" }
        (by unfold managed; decide +kernel) (by decide +kernel)
    have hurl := congrArg (Option.map fun server => server.url) hserver
    rw [Option.map_some, huses.url] at hurl
    exact absurd hurl (by decide +kernel)
  · apply h.2 (.dns [⟨"tools", 80⟩] false) List.mem_cons_self rfl (srvToServer ⟨"tools", 80⟩)
      List.mem_cons_self
    decide +kernel

end Runs

end DiscoveryManager

end Conduit.Discovery
