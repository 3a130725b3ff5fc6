import Conduit.Admin.RegistryDecision
import Conduit.Admin.ServerAdditions
import Conduit.Discovery.Convergence

namespace Conduit.Admin

open Connect Utils Discovery
open Conduit.Runtime (Instant StdioServerConfig)

section Additions

-- what addServersToConduit has done so far; `stopped` are the servers it took out of the registry
structure Addition where
  manager : DiscoveryManager
  importedServers : List String := []
  updatedServers : List String := []
  skippedServers : List (String × String) := []
  stopped : List String := []

namespace Addition

variable (r : Addition)

def skip (serverId reason : String) : Addition :=
  { r with skippedServers := r.skippedServers ++ [(serverId, reason)] }

def takeOut (serverId : String) : Addition :=
  let M := r.manager.removeServer serverId
  { r with
    manager := { M with servers := M.servers.eraseP fun server => server.id = serverId }
    stopped := r.stopped ++ [serverId] }

def push (M : DiscoveryManager) (server : StdioServerConfig) (existing : Bool) : Addition :=
  let r := { r with manager := { M with servers := M.servers ++ [server] } }
  if existing then { r with updatedServers := r.updatedServers ++ [server.id] }
  else { r with importedServers := r.importedServers ++ [server.id] }

def placed : List String := r.importedServers ++ r.updatedServers

end Addition

def urlError? (S : ServerAdmin) (server : StdioServerConfig) (lookup : DnsAnswer) :
    Option String :=
  if server.url = "" ∨ server.transport = some .stdio then none
  else
    let urlCheck := validateServerUrlWithDns S.urlApi server.url S.allowPrivateNetworks lookup
    if urlCheck.valid then none
    else some ("invalid server URL: " ++ urlCheck.error.getD "undefined")

-- each server comes with the answer to the lookup of its host
def addServerToConduit (S : ServerAdmin) (replaceExisting : Bool) (r : Addition)
    (entry : StdioServerConfig × DnsAnswer) : Addition :=
  let server := entry.1
  let existing := r.manager.registry.has server.id
  if existing && !replaceExisting then r.skip server.id "already exists"
  else
    match urlError? S server entry.2 with
    | some reason => r.skip server.id reason
    | none =>
        let r := if existing then r.takeOut server.id else r
        match r.manager.addServer server with
        | some M => r.push M server existing
        | none => r.skip server.id ("Server \"" ++ server.id ++ "\" already registered")

def addServersToConduit (S : ServerAdmin) (replaceExisting : Bool) (M : DiscoveryManager)
    (servers : List (StdioServerConfig × DnsAnswer)) : Addition :=
  servers.foldl (addServerToConduit S replaceExisting) { manager := M }

def addPlanned (S : ServerAdmin) (replaceExisting : Bool) (M : DiscoveryManager)
    (lookup : DnsAnswer) : RegistryOutcome → Addition
  | .planned plan _ => addServersToConduit S replaceExisting M [(plan.server, lookup)]
  | .refused _ => { manager := M }
  | .denied _ => { manager := M }

-- one request to a registry route, with what it reads and the lookup of the plan's host
structure RegistryRequest where
  now : Instant
  reads : LibraryReads
  body : Json
  lookup : DnsAnswer

namespace RegistryRequest

variable (request : RegistryRequest) (S : ServerAdmin) (M : DiscoveryManager)

def serverName : String := requestedServer request.body

def imported : Addition :=
  addPlanned S false M request.lookup (S.registryImport request.now request.reads request.body)

def installed : Addition :=
  addPlanned S true M request.lookup (S.registryInstall request.now request.reads request.body)

end RegistryRequest

end Additions

section Ownership

inductive Origin where
  | declared
  | admin
  | discovery
  | registry (serverName : String)
deriving DecidableEq

-- the gateway's servers, with where the one registered under each id came from
structure OwnedServers where
  manager : DiscoveryManager
  origin : String → Option Origin

inductive GatewayEvent where
  | discovery (e : DiscoveryEvent)
  | connectImport (servers : List (StdioServerConfig × DnsAnswer))
  | registryImport (request : RegistryRequest)
  | registryInstall (request : RegistryRequest)
  | redeploy (next : StdioServerConfig) (lookup : DnsAnswer)

-- who a server belongs to that the event adds
def originOf : DiscoveryEvent → Origin
  | .register _ _ => .discovery
  | .deregister _ => .discovery
  | .discoverStatus _ => .discovery
  | .reconcile _ _ => .discovery
  | .addServer _ => .admin
  | .deleteServer _ => .admin
  | .reload _ => .declared

namespace OwnedServers

def start (httpRegistry : HttpRegistryBackend) (defaultCache : ServerCacheConfig)
    (servers : List StdioServerConfig) : OwnedServers where
  manager := .init httpRegistry defaultCache servers
  origin := fun id =>
    if (DiscoveryManager.init httpRegistry defaultCache servers).registry.has id then some .declared
    else none

variable (G : OwnedServers)

-- the servers that were placed, and those that were not there before, belong to the origin
def become (M : DiscoveryManager) (origin : Origin) (placed : List String) : OwnedServers where
  manager := M
  origin := fun id =>
    if M.registry.has id then
      if id ∈ placed ∨ G.manager.registry.has id = false then some origin else G.origin id
    else none

-- a redeployed server stays whose it is
def step (S : ServerAdmin) (G : OwnedServers) : GatewayEvent → OwnedServers
  | .discovery e => G.become (G.manager.step e) (originOf e) []
  | .connectImport servers =>
      G.become (addServersToConduit S false G.manager servers).manager .admin []
  | .registryImport request =>
      let r := request.imported S G.manager
      G.become r.manager (.registry request.serverName) r.placed
  | .registryInstall request =>
      let r := request.installed S G.manager
      G.become r.manager (.registry request.serverName) r.placed
  | .redeploy next lookup =>
      G.become (addServersToConduit S true G.manager [(next, lookup)]).manager .admin []

-- each registered server has an origin, and nothing else does
def Tracked : Prop := ∀ id, (G.origin id).isSome = G.manager.registry.has id

end OwnedServers

structure Untouched (M : DiscoveryManager) (r : Addition) (serverId : String) : Prop where
  running : serverId ∉ r.stopped
  registry : r.manager.registry.get? serverId = M.registry.get? serverId
  clients : r.manager.clients.get? serverId = M.clients.get? serverId
  servers : (r.manager.servers.filter fun server => server.id = serverId) =
    M.servers.filter fun server => server.id = serverId

-- no server but the registry's own of that name is touched, and no configured one is lost that is
-- not registered
structure Spares (G : OwnedServers) (r : Addition) (serverName : String) : Prop where
  registered : ∀ id origin, G.origin id = some origin → origin ≠ .registry serverName →
    Untouched G.manager r id
  listed : ∀ server ∈ G.manager.servers, G.origin server.id = none → server ∈ r.manager.servers

end Ownership

section Tracking

variable {G : OwnedServers} {S : ServerAdmin}

theorem tracked_start (httpRegistry : HttpRegistryBackend) (defaultCache : ServerCacheConfig)
    (servers : List StdioServerConfig) :
    (OwnedServers.start httpRegistry defaultCache servers).Tracked := by
  intro id
  rw [OwnedServers.start]
  dsimp only
  cases (DiscoveryManager.init httpRegistry defaultCache servers).registry.has id with
  | true => rfl
  | false => rfl

theorem tracked_become (h : G.Tracked) (M : DiscoveryManager) (origin : Origin)
    (placed : List String) : (G.become M origin placed).Tracked := by
  intro id
  rw [OwnedServers.become]
  dsimp only
  cases M.registry.has id with
  | false => rfl
  | true =>
      rw [if_pos rfl]
      by_cases hnew : id ∈ placed ∨ G.manager.registry.has id = false
      · rw [if_pos hnew]
        rfl
      · rw [if_neg hnew, h id, ← Bool.not_eq_false]
        exact fun hfree => hnew (.inr hfree)

theorem tracked_step (h : G.Tracked) (e : GatewayEvent) : (G.step S e).Tracked := by
  cases e with
  | discovery e => exact tracked_become h _ _ _
  | connectImport servers => exact tracked_become h _ _ _
  | registryImport request => exact tracked_become h _ _ _
  | registryInstall request => exact tracked_become h _ _ _
  | redeploy next lookup => exact tracked_become h _ _ _

theorem tracked_run (h : G.Tracked) (events : List GatewayEvent) :
    (events.foldl (OwnedServers.step S) G).Tracked := by
  induction events generalizing G with
  | nil => exact h
  | cons e events ih => exact ih (tracked_step h e)

end Tracking

section Frame

variable {S : ServerAdmin} {G : OwnedServers} {M : DiscoveryManager} {server : StdioServerConfig}
  {lookup : DnsAnswer} {serverId serverName : String} {request : RegistryRequest}

theorem untouched_refl : Untouched M { manager := M } serverId := ⟨List.not_mem_nil, rfl, rfl, rfl⟩

theorem spares_refl : Spares G { manager := G.manager } serverName :=
  ⟨fun _ _ _ _ => untouched_refl, fun _ h _ => h⟩

theorem skip_untouched {reason : String} :
    Untouched M (({ manager := M } : Addition).skip server.id reason) serverId :=
  ⟨List.not_mem_nil, rfl, rfl, rfl⟩

-- the outcomes for a single server
theorem addServersToConduit_single (S : ServerAdmin) (M : DiscoveryManager)
    (server : StdioServerConfig) (lookup : DnsAnswer) :
    (∃ reason, urlError? S server lookup = some reason ∧
      addServersToConduit S true M [(server, lookup)] =
        ({ manager := M } : Addition).skip server.id reason) ∨
    (urlError? S server lookup = none ∧ M.registry.has server.id = true ∧
      addServersToConduit S true M [(server, lookup)] =
        (({ manager := M } : Addition).takeOut server.id).push
          { (M.removeServer server.id) with
            registry := (M.registry.delete server.id).set server.id server
            clients := (M.clients.delete server.id).set server.id server
            servers := M.servers.eraseP fun s => s.id = server.id } server true) ∨
    (urlError? S server lookup = none ∧ M.registry.has server.id = false ∧
      addServersToConduit S true M [(server, lookup)] =
        ({ manager := M } : Addition).push
          { M with
            registry := M.registry.set server.id server
            clients := M.clients.set server.id server } server false) := by
  simp only [addServersToConduit, List.foldl_cons, List.foldl_nil, addServerToConduit,
    Bool.not_true, Bool.and_false, Bool.false_eq_true, if_false]
  cases herror : urlError? S server lookup with
  | some reason => exact .inl ⟨reason, rfl, rfl⟩
  | none =>
      cases hexisting : M.registry.has server.id with
      | true =>
          refine .inr (.inl ⟨rfl, rfl, ?_⟩)
          have hfree : (M.registry.delete server.id).has server.id = false := by
            simp [OrderedMap.has]
          simp [Addition.takeOut, DiscoveryManager.removeServer, hexisting,
            DiscoveryManager.addServer, hfree]
      | false =>
          refine .inr (.inr ⟨rfl, rfl, ?_⟩)
          simp [DiscoveryManager.addServer, hexisting]

theorem filter_eraseP_of_ne (servers : List StdioServerConfig) {key : String}
    (hne : key ≠ serverId) :
    ((servers.eraseP fun s => s.id = key).filter fun s => s.id = serverId) =
      servers.filter fun s => s.id = serverId := by
  induction servers with
  | nil => rfl
  | cons s servers ih =>
      by_cases hkey : s.id = key
      · have hother : s.id ≠ serverId := hkey.trans_ne hne
        rw [List.eraseP_cons_of_pos (by simpa using hkey),
          List.filter_cons_of_neg (by simpa using hother)]
      · rw [List.eraseP_cons_of_neg (by simpa using hkey), List.filter_cons, List.filter_cons, ih]

theorem filter_append_of_ne (servers : List StdioServerConfig) (hne : server.id ≠ serverId) :
    ((servers ++ [server]).filter fun s => s.id = serverId) =
      servers.filter fun s => s.id = serverId := by
  rw [List.filter_append, List.filter_cons_of_neg (by simpa using hne), List.filter_nil,
    List.append_nil]

theorem untouched_of_ne (hne : server.id ≠ serverId) :
    Untouched M (addServersToConduit S true M [(server, lookup)]) serverId := by
  rcases addServersToConduit_single S M server lookup with
    ⟨reason, -, hnext⟩ | ⟨-, -, hnext⟩ | ⟨-, -, hnext⟩
  · rw [hnext]
    exact skip_untouched
  · rw [hnext]
    constructor
    · simpa [Addition.push, Addition.takeOut] using hne.symm
    · exact (OrderedMap.get?_set_of_ne _ _ hne).trans (OrderedMap.get?_delete_of_ne _ hne)
    · exact (OrderedMap.get?_set_of_ne _ _ hne).trans (OrderedMap.get?_delete_of_ne _ hne)
    · exact (filter_append_of_ne _ hne).trans (filter_eraseP_of_ne _ hne)
  · rw [hnext]
    constructor
    · exact List.not_mem_nil
    · exact OrderedMap.get?_set_of_ne _ _ hne
    · exact OrderedMap.get?_set_of_ne _ _ hne
    · exact filter_append_of_ne _ hne

-- a server that is registered under the id is stopped
theorem stopped_of_existing (hvalid : urlError? S server lookup = none)
    (hexisting : M.registry.has server.id = true) :
    server.id ∈ (addServersToConduit S true M [(server, lookup)]).stopped := by
  rcases addServersToConduit_single S M server lookup with
    ⟨reason, hinvalid, -⟩ | ⟨-, -, hnext⟩ | ⟨-, hfree, -⟩
  · rw [hvalid] at hinvalid
    cases hinvalid
  · rw [hnext]
    exact List.mem_singleton_self _
  · rw [hexisting] at hfree
    cases hfree

theorem listed_of_free {s : StdioServerConfig} (hs : s ∈ M.servers)
    (hfree : M.registry.has s.id = false) :
    s ∈ (addServersToConduit S true M [(server, lookup)]).manager.servers := by
  rcases addServersToConduit_single S M server lookup with
    ⟨reason, -, hnext⟩ | ⟨-, hexisting, hnext⟩ | ⟨-, -, hnext⟩
  · rw [hnext]
    exact hs
  · rw [hnext]
    refine List.mem_append_left _ ((List.mem_eraseP_of_neg ?_).mpr hs)
    rw [decide_eq_true_eq]
    rintro hid
    rw [hid, hexisting] at hfree
    cases hfree
  · rw [hnext]
    exact List.mem_append_left _ hs

theorem id_packageServer {host : Conduit.Runtime.LaunchHost} {now : Instant} {url : String}
    {input : Conduit.Runtime.PackageInput}
    (h : Except.ok (Conduit.Runtime.packageServer host now url input) =
      (Except.ok server : Except String StdioServerConfig)) : server.id = input.serverId := by
  rw [← Except.ok.inj h]
  rfl

theorem id_of_built {host : Conduit.Runtime.LaunchHost} {now : Instant}
    {managedRuntime : Conduit.Runtime.ConnectManagedRuntimeConfig}
    {document : OfficialRegistryServerDocument} {option : ImportOption}
    {config : ConnectRegistryImportOptions}
    (h : buildServerConfigFromOfficialServer host now managedRuntime document option config =
      .ok server) : server.id = toConduitServerId document.name := by
  simp only [buildServerConfigFromOfficialServer] at h
  cases hremote : (option.remote.bind (·.url)).filter (· ≠ "") with
  | some template =>
      rw [hremote] at h
      obtain ⟨url, -, h⟩ := Except.bind_eq_ok_iff.1 h
      obtain ⟨headers, -, h⟩ := Except.bind_eq_ok_iff.1 h
      rw [← Except.ok.inj h]
  | none =>
      rw [hremote] at h
      cases hpackage : option.package with
      | none =>
          rw [hpackage] at h
          cases h
      | some pkg =>
          rw [hpackage] at h
          obtain ⟨env, -, h⟩ := Except.bind_eq_ok_iff.1 h
          cases hkind : normalizePackageType pkg.registryType with
          | npm =>
              rw [hkind] at h
              have hid := id_packageServer h
              dsimp only at hid
              exact hid
          | pypi =>
              rw [hkind] at h
              have hid := id_packageServer h
              dsimp only at hid
              exact hid
          | oci =>
              rw [hkind] at h
              have hid := id_packageServer h
              dsimp only at hid
              exact hid
          | nuget =>
              rw [hkind] at h
              cases h
          | mcpb =>
              rw [hkind] at h
              cases h
          | unknown =>
              rw [hkind] at h
              cases h

theorem name_of_findOfficialServer {cached : List RegistryLibraryStoredItem}
    {name version : String} {entry : RegistryLibraryStoredItem}
    (h : findOfficialServer cached name version = some entry) : entry.raw.name = name := by
  rw [findOfficialServer] at h
  split at h
  · have hmatch := List.find?_some h
    rw [Bool.and_eq_true, decide_eq_true_eq] at hmatch
    exact hmatch.1
  · have hmatch := List.find?_some h
    rw [Bool.and_eq_true, decide_eq_true_eq] at hmatch
    exact hmatch.1

theorem id_of_planned {A : AdminPlane} {needsTarget : Bool} {now : Instant} {reads : LibraryReads}
    {body : Json} {plan : ConnectRegistryImportPlan} {governance : Option RegistryGovernance}
    (h : A.registryRoute needsTarget now reads body = .planned plan governance) :
    plan.server.id = toConduitServerId (requestedServer body) := by
  obtain ⟨-, hplan⟩ := registryRoute_planned h
  obtain ⟨-, options, -, hplan⟩ := planFromRegistry_planned hplan
  obtain ⟨entry, preferred, importOption, hentry, -, -, -, hbuilt⟩ := createImportPlan_ok hplan
  obtain ⟨cached, -, hfound⟩ := Except.bind_eq_ok_iff.1 hentry
  rw [id_of_built hbuilt, name_of_findOfficialServer (Except.ok.inj hfound)]

-- the registry's own server, or none, holds the id of a plan that goes through
def InstallsOwn (S : ServerAdmin) (G : OwnedServers) (request : RegistryRequest) : Prop :=
  ∀ plan governance,
    S.registryInstall request.now request.reads request.body = .planned plan governance →
    urlError? S plan.server request.lookup = none →
    ∀ origin, G.origin (toConduitServerId request.serverName) = some origin →
      origin = .registry request.serverName

theorem spares_of_own (h : G.Tracked) (hown : InstallsOwn S G request) :
    Spares G (request.installed S G.manager) request.serverName := by
  rw [RegistryRequest.installed]
  cases hplan : S.registryInstall request.now request.reads request.body with
  | refused error => exact spares_refl
  | denied governance => exact spares_refl
  | planned plan governance =>
      have hid : plan.server.id = toConduitServerId request.serverName := id_of_planned hplan
      constructor
      · intro id origin horigin hforeign
        by_cases hne : plan.server.id = id
        · cases hvalid : urlError? S plan.server request.lookup with
          | none =>
              refine absurd (hown plan governance hplan hvalid origin ?_) hforeign
              rw [← hid, hne, horigin]
          | some reason =>
              rcases addServersToConduit_single S G.manager plan.server request.lookup with
                ⟨reason, -, hnext⟩ | ⟨hnone, -, -⟩ | ⟨hnone, -, -⟩
              · rw [addPlanned, hnext]
                exact skip_untouched
              · rw [hvalid] at hnone
                cases hnone
              · rw [hvalid] at hnone
                cases hnone
        · exact untouched_of_ne hne
      · intro server hserver hfree
        apply listed_of_free hserver
        rw [← h server.id, hfree]
        rfl

theorem own_of_spares (h : G.Tracked)
    (hspares : Spares G (request.installed S G.manager) request.serverName) :
    InstallsOwn S G request := by
  intro plan governance hplan hvalid origin horigin
  by_contra hforeign
  have hid : plan.server.id = toConduitServerId request.serverName := id_of_planned hplan
  have hexisting : G.manager.registry.has plan.server.id = true := by
    rw [← h plan.server.id, hid, horigin]
    rfl
  have hrunning := (hspares.registered _ origin horigin hforeign).running
  rw [RegistryRequest.installed, hplan, ← hid] at hrunning
  exact hrunning (stopped_of_existing hvalid hexisting)

end Frame

section Example

def crmEntry (name : String) : RegistryLibraryStoredItem where
  raw := { name, version := "1.0.0", remotes := some [{ url := some exampleUrl.href }] }
  published := { status := some "active", isLatest := some true }

def crmRequest (name : String) : RegistryRequest where
  now := ⟨0, ""⟩
  reads := ⟨.ok [crmEntry name], .ok [crmEntry name]⟩
  body := .obj [("server_name", .str name), ("target", .str "claude-desktop")]
  lookup := some [⟨"93.184.216.34", 4⟩]

def crmGateway (servers : List StdioServerConfig) (events : List GatewayEvent) : OwnedServers :=
  events.foldl (OwnedServers.step exampleAdmin) (.start { staleTimeoutMs := 90000 } {} servers)

def ownCrm : StdioServerConfig := { id := "io-github-acme-crm", url := "http://10.0.0.5/mcp" }

def InstallKeeps (G : OwnedServers) : Prop :=
  Spares G ((crmRequest "io.github.acme/crm").installed exampleAdmin G.manager)
    "io.github.acme/crm"

theorem not_keeps_of_stopped {G : OwnedServers} (h : (G.origin ownCrm.id).isSome = true ∧
    G.origin ownCrm.id ≠ some (.registry "io.github.acme/crm") ∧
    ownCrm.id ∈ ((crmRequest "io.github.acme/crm").installed exampleAdmin G.manager).stopped) :
    ¬InstallKeeps G := by
  obtain ⟨horigin, hforeign, hstopped⟩ := h
  obtain ⟨origin, horigin⟩ := Option.isSome_iff_exists.mp horigin
  intro hkeeps
  refine (hkeeps.registered _ origin horigin ?_).running hstopped
  rintro rfl
  exact hforeign horigin

end Example

end Conduit.Admin
