import Conduit.Admin.RegistryImport
import Conduit.Connect.DescriptorFetch

namespace Conduit.Admin

open Connect Utils
open Conduit.Runtime (Instant StdioServerConfig)

-- the fields of a server entry that decide which clients are built for it, `none` for undefined
structure NewServer where
  id : String
  url : Option Json
  transport : Option Json
  replicas : Option Json

def NewServer.ofBody (id : String) (body : Json) : NewServer where
  id := id
  url := body.get? "url"
  transport := body.get? "transport"
  replicas := body.get? "replicas"

def NewServer.ofConfig (server : StdioServerConfig) : NewServer where
  id := server.id
  url := some (.str server.url)
  transport := server.transport.map fun
    | .http => .str "http"
    | .stdio => .str "stdio"
  replicas := some (.arr (server.replicas.map Json.str))

-- what a request does that the guard is about; the clients are those for HTTP
inductive AdminEvent where
  | checked (url : String) (valid : Bool)
  | client (url : String)
deriving DecidableEq, Repr

-- what one server of a request meets: whether its id is registered when it is looked up, the
-- lookup of its host, and whether its id is registered when it is added
structure Surroundings where
  existing : Bool
  lookup : DnsAnswer
  taken : Bool

structure ServerAdmin extends AdminPlane where
  urlApi : UrlApi
  allowPrivateNetworks : Bool

namespace NewServer

variable (server : NewServer)

def urlText : String := (server.url.map Json.toJsString).getD "undefined"

def hasUrl : Bool := server.url.any fun url => url.truthy

def usesHttp : Bool := (given server.transport).getD (.str "http") = .str "http"

-- a value that cannot be spread makes addServer throw before it builds a replica
def replicaUrls : List String :=
  match given server.replicas with
  | none => []
  | some replicas => ((elements? replicas).getD []).map Json.toJsString

def needsCheck : Bool := server.hasUrl && server.transport ≠ some (.str "stdio")

-- createMcpClient, and the replica clients of registry.addServer
def builtUrls (taken : Bool) : List String :=
  if server.usesHttp then server.urlText :: (if taken then [] else server.replicaUrls) else []

end NewServer

inductive AdditionRequest where
  | servers (body : Json)
  | connectImport (hops : ℕ → Hop) (body : Json)
  | registryImport (now : Instant) (reads : LibraryReads) (body : Json)
  | registryInstall (now : Instant) (reads : LibraryReads) (body : Json)
  | discoverRegister (full : Bool) (body : Json)

namespace ServerAdmin

variable (S : ServerAdmin)

def validates (url : String) (lookup : DnsAnswer) : Bool :=
  (validateServerUrlWithDns S.urlApi url S.allowPrivateNetworks lookup).valid

def addServer (replaceExisting : Bool) (here : Surroundings) (server : NewServer) :
    List AdminEvent :=
  if here.existing && !replaceExisting then []
  else if server.needsCheck then
    let valid := S.validates server.urlText here.lookup
    .checked server.urlText valid ::
      if valid then (server.builtUrls here.taken).map .client else []
  else (server.builtUrls here.taken).map .client

def addServersToConduit (replaceExisting : Bool) (env : ℕ → Surroundings) :
    ℕ → List NewServer → List AdminEvent
  | _, [] => []
  | i, server :: rest =>
      S.addServer replaceExisting (env i) server ++ addServersToConduit replaceExisting env (i + 1) rest

def postedServers (body : Json) : List NewServer :=
  match (truthyField body "id").bind Json.asString? with
  | none => []
  | some id => [.ofBody id body]

def describedServers (hops : ℕ → Hop) (body : Json) : List NewServer :=
  let descriptorImport :=
    match (body.get? "descriptor_url").bind Json.asString?, body.get? "descriptor" with
    | some url, _ =>
        (loadDescriptorFromUrl S.urlApi S.allowPrivateNetworks defaultDescriptorTimeoutMs hops
          url).result
    | none, some descriptor => normalizeDescriptor descriptor
    | none, none => .error "descriptor_url or descriptor is required"
  match descriptorImport with
  | .error _ => []
  | .ok descriptorImport => descriptorImport.servers.map .ofConfig

def plannedServers : RegistryOutcome → List NewServer
  | .planned plan _ => [.ofConfig plan.server]
  | _ => []

-- POST /servers
def postServers (env : ℕ → Surroundings) (body : Json) : List AdminEvent :=
  S.addServersToConduit false env 0 (postedServers body)

-- POST /connect/import
def connectImport (env : ℕ → Surroundings) (hops : ℕ → Hop) (body : Json) : List AdminEvent :=
  S.addServersToConduit false env 0 (S.describedServers hops body)

-- the reconcile round that finds the registration
def reconcileDiscovered (here : Surroundings) (body : Json) : List AdminEvent :=
  let discovered : NewServer :=
    { id := ((body.get? "id").map Json.toJsString).getD ""
      url := body.get? "url"
      transport := truthyField body "transport"
      replicas := none }
  if here.existing then [] else (discovered.builtUrls here.taken).map .client

-- POST /discover/register; `full` when a thousand registrations are held
def discoverRegister (here : Surroundings) (full : Bool) (body : Json) : List AdminEvent :=
  match truthyField body "id", truthyField body "url" with
  | some _, some url =>
      let valid := S.validates url.toJsString here.lookup
      .checked url.toJsString valid ::
        if valid && !full then reconcileDiscovered here body else []
  | _, _ => []

def events (env : ℕ → Surroundings) : AdditionRequest → List AdminEvent
  | .servers body => S.postServers env body
  | .connectImport hops body => S.connectImport env hops body
  | .registryImport now reads body =>
      S.addServersToConduit false env 0 (plannedServers (S.registryImport now reads body))
  | .registryInstall now reads body =>
      S.addServersToConduit true env 0 (plannedServers (S.registryInstall now reads body))
  | .discoverRegister full body => S.discoverRegister (env 0) full body

end ServerAdmin

section Guard

-- the URL of every client is among those that were accepted before it is built
def GuardedBy : List String → List AdminEvent → Prop
  | _, [] => True
  | accepted, .checked url valid :: rest =>
      GuardedBy (if valid then url :: accepted else accepted) rest
  | accepted, .client url :: rest => url ∈ accepted ∧ GuardedBy accepted rest

variable {S : ServerAdmin} {replaceExisting : Bool} {env : ℕ → Surroundings} {accepted : List String}

theorem guardedBy_clients {urls : List String} {rest : List AdminEvent} :
    GuardedBy accepted (urls.map .client ++ rest) ↔
      (∀ url ∈ urls, url ∈ accepted) ∧ GuardedBy accepted rest := by
  induction urls with
  | nil => simp
  | cons url urls ih =>
      rw [List.map_cons, List.cons_append, GuardedBy, ih, List.forall_mem_cons, and_assoc]

-- the server is not skipped and its URL is accepted
structure Accepts (S : ServerAdmin) (replaceExisting : Bool) (here : Surroundings)
    (server : NewServer) : Prop where
  considered : (here.existing && !replaceExisting) = false
  checked : server.needsCheck = true
  valid : S.validates server.urlText here.lookup = true

-- HTTP clients are built for the server
structure Builds (S : ServerAdmin) (replaceExisting : Bool) (here : Surroundings)
    (server : NewServer) : Prop where
  considered : (here.existing && !replaceExisting) = false
  http : server.usesHttp = true
  valid : server.needsCheck = true → S.validates server.urlText here.lookup = true

theorem needsCheck_of_usesHttp {server : NewServer} (hhttp : server.usesHttp = true) :
    server.needsCheck = server.hasUrl := by
  have hstdio : server.transport ≠ some (.str "stdio") := by
    rintro h
    rw [NewServer.usesHttp, h] at hhttp
    exact absurd (of_decide_eq_true hhttp) (by decide)
  simp [NewServer.needsCheck, hstdio]

-- the `k`-th server of a list, the first of which is number `i`, or one before it has this URL, and
-- the URL is accepted; or it was already
def Known (S : ServerAdmin) (replaceExisting : Bool) (env : ℕ → Surroundings)
    (accepted : List String) (i : ℕ) (servers : List NewServer) (k : ℕ) (url : String) : Prop :=
  url ∈ accepted ∨ ∃ j ≤ k, ∃ other, servers[j]? = some other ∧
    Accepts S replaceExisting (env (i + j)) other ∧ url = other.urlText

-- a server without a url, and every replica, has a URL that is known
structure Covers (known : String → Prop) (here : Surroundings) (server : NewServer) : Prop where
  own : server.hasUrl = false → known server.urlText
  replicas : here.taken = false → ∀ url ∈ server.replicaUrls, known url

open Classical in
noncomputable def acceptedAfter (S : ServerAdmin) (replaceExisting : Bool) (here : Surroundings)
    (accepted : List String) (server : NewServer) : List String :=
  if Accepts S replaceExisting here server then server.urlText :: accepted else accepted

theorem forall_builtUrls {known : String → Prop} {taken : Bool} {server : NewServer} :
    (∀ url ∈ server.builtUrls taken, known url) ↔
      (server.usesHttp = true →
        known server.urlText ∧ (taken = false → ∀ url ∈ server.replicaUrls, known url)) := by
  unfold NewServer.builtUrls
  cases server.usesHttp with
  | false => simp
  | true => cases taken <;> simp

theorem guardedBy_addServer {here : Surroundings} {server : NewServer} {rest : List AdminEvent} :
    GuardedBy accepted (S.addServer replaceExisting here server ++ rest) ↔
      (Builds S replaceExisting here server →
        Covers (· ∈ acceptedAfter S replaceExisting here accepted server) here server) ∧
      GuardedBy (acceptedAfter S replaceExisting here accepted server) rest := by
  unfold ServerAdmin.addServer acceptedAfter
  cases hconsidered : here.existing && !replaceExisting with
  | true =>
      have hnot : ¬ Accepts S replaceExisting here server := fun h =>
        absurd (hconsidered.symm.trans h.considered) (by decide)
      rw [if_pos rfl, if_neg hnot, List.nil_append]
      exact (and_iff_right fun h => absurd (hconsidered.symm.trans h.considered) (by decide)).symm
  | false =>
      rw [if_neg Bool.false_ne_true]
      cases hcheck : server.needsCheck with
      | false =>
          have hnot : ¬ Accepts S replaceExisting here server := fun h =>
            absurd (hcheck.symm.trans h.checked) (by decide)
          rw [if_neg Bool.false_ne_true, if_neg hnot, guardedBy_clients, forall_builtUrls]
          refine and_congr_left fun _ => ⟨fun h hbuilds => ?_, fun h hhttp => ?_⟩
          · obtain ⟨hown, hreplicas⟩ := h hbuilds.http
            exact ⟨fun _ => hown, hreplicas⟩
          · have hcovers := h ⟨hconsidered, hhttp, fun hneeds =>
              absurd (hcheck.symm.trans hneeds) (by decide)⟩
            exact ⟨hcovers.own ((needsCheck_of_usesHttp hhttp).symm.trans hcheck), hcovers.replicas⟩
      | true =>
          rw [if_pos rfl]
          dsimp only
          cases hvalid : S.validates server.urlText here.lookup with
          | false =>
              have hnot : ¬ Accepts S replaceExisting here server := fun h =>
                absurd (hvalid.symm.trans h.valid) (by decide)
              rw [if_neg hnot, if_neg Bool.false_ne_true]
              refine (and_iff_right fun h => ?_).symm
              exact absurd (hvalid.symm.trans (h.valid hcheck)) (by decide)
          | true =>
              have haccepts : Accepts S replaceExisting here server := ⟨hconsidered, hcheck, hvalid⟩
              rw [if_pos haccepts, if_pos rfl, List.cons_append, GuardedBy, if_pos rfl,
                guardedBy_clients, forall_builtUrls]
              refine and_congr_left fun _ => ⟨fun h hbuilds => ?_, fun h hhttp => ?_⟩
              · exact ⟨fun _ => List.mem_cons_self, (h hbuilds.http).2⟩
              · exact ⟨List.mem_cons_self, (h ⟨hconsidered, hhttp, fun _ => hvalid⟩).replicas⟩

theorem mem_acceptedAfter {here : Surroundings} {server : NewServer} {url : String} :
    url ∈ acceptedAfter S replaceExisting here accepted server ↔
      url ∈ accepted ∨ Accepts S replaceExisting here server ∧ url = server.urlText := by
  unfold acceptedAfter
  by_cases h : Accepts S replaceExisting here server
  · simp [h, or_comm]
  · simp [h]

theorem Covers.congr {known known' : String → Prop} {here : Surroundings} {server : NewServer}
    (h : ∀ url, known url ↔ known' url) :
    Covers known here server ↔ Covers known' here server := by
  rw [funext fun url => propext (h url)]

theorem known_zero {i : ℕ} {server : NewServer} {rest : List NewServer} {url : String} :
    Known S replaceExisting env accepted i (server :: rest) 0 url ↔
      url ∈ acceptedAfter S replaceExisting (env i) accepted server := by
  rw [mem_acceptedAfter]
  refine or_congr_right ⟨?_, ?_⟩
  · rintro ⟨j, hj, other, hother, haccepts, hurl⟩
    obtain rfl := Nat.le_zero.mp hj
    cases hother
    exact ⟨haccepts, hurl⟩
  · rintro ⟨haccepts, hurl⟩
    exact ⟨0, le_rfl, server, rfl, haccepts, hurl⟩

theorem known_succ {i k : ℕ} {server : NewServer} {rest : List NewServer} {url : String} :
    Known S replaceExisting env accepted i (server :: rest) (k + 1) url ↔
      Known S replaceExisting env (acceptedAfter S replaceExisting (env i) accepted server) (i + 1)
        rest k url := by
  unfold Known
  rw [mem_acceptedAfter, or_assoc]
  refine or_congr_right ⟨?_, ?_⟩
  · rintro ⟨j, hj, other, hother, haccepts, hurl⟩
    cases j with
    | zero =>
        cases hother
        exact .inl ⟨haccepts, hurl⟩
    | succ j =>
        refine .inr ⟨j, Nat.le_of_succ_le_succ hj, other, hother, ?_, hurl⟩
        rw [Nat.add_assoc, Nat.add_comm 1]
        exact haccepts
  · rintro (⟨haccepts, hurl⟩ | ⟨j, hj, other, hother, haccepts, hurl⟩)
    · exact ⟨0, Nat.zero_le _, server, rfl, haccepts, hurl⟩
    · refine ⟨j + 1, Nat.succ_le_succ hj, other, hother, ?_, hurl⟩
      rw [Nat.add_assoc, Nat.add_comm 1] at haccepts
      exact haccepts

theorem guardedBy_addServersToConduit {i : ℕ} {servers : List NewServer} :
    GuardedBy accepted (S.addServersToConduit replaceExisting env i servers) ↔
      ∀ k server, servers[k]? = some server → Builds S replaceExisting (env (i + k)) server →
        Covers (Known S replaceExisting env accepted i servers k) (env (i + k)) server := by
  induction servers generalizing accepted i with
  | nil => exact iff_of_true trivial fun k server h => (by cases h)
  | cons server rest ih =>
      rw [ServerAdmin.addServersToConduit, guardedBy_addServer, ih]
      constructor
      · rintro ⟨hhere, hrest⟩ k other hother hbuilds
        cases k with
        | zero =>
            cases hother
            exact (Covers.congr fun _ => known_zero).mpr (hhere hbuilds)
        | succ k =>
            rw [← Nat.add_assoc, Nat.add_right_comm] at hbuilds ⊢
            exact (Covers.congr fun _ => known_succ).mpr (hrest k other hother hbuilds)
      · refine fun h => ⟨fun hbuilds => ?_, fun k other hother hbuilds => ?_⟩
        · exact (Covers.congr fun _ => known_zero).mp (h 0 server rfl hbuilds)
        · rw [Nat.add_right_comm, Nat.add_assoc] at hbuilds ⊢
          exact (Covers.congr fun _ => known_succ).mp (h (k + 1) other hother hbuilds)

theorem guardedBy_discoverRegister {here : Surroundings} {full : Bool} {body : Json} :
    GuardedBy [] (S.discoverRegister here full body) := by
  unfold ServerAdmin.discoverRegister
  split
  next url hid hurl =>
    have hfield : body.get? "url" = some url := (Option.filter_eq_some_iff.mp hurl).1
    dsimp only
    rw [GuardedBy]
    cases S.validates url.toJsString here.lookup with
    | false => trivial
    | true =>
        cases full with
        | true => trivial
        | false =>
            unfold ServerAdmin.reconcileDiscovered
            cases here.existing with
            | true => trivial
            | false =>
                rw [if_pos (show (true && !false) = true from rfl), if_neg Bool.false_ne_true,
                  ← List.append_nil (List.map _ _), guardedBy_clients, forall_builtUrls]
                refine ⟨fun _ => ⟨?_, fun _ url h => (by cases h)⟩, trivial⟩
                simp [NewServer.urlText, hfield]
  next => trivial

def newServers (S : ServerAdmin) : AdditionRequest → List NewServer
  | .servers body => ServerAdmin.postedServers body
  | .connectImport hops body => S.describedServers hops body
  | .registryImport now reads body => ServerAdmin.plannedServers (S.registryImport now reads body)
  | .registryInstall now reads body => ServerAdmin.plannedServers (S.registryInstall now reads body)
  | .discoverRegister _ _ => []

def replaces : AdditionRequest → Bool
  | .registryInstall _ _ _ => true
  | _ => false

-- each server of the request for which HTTP clients are built has a url, and its replica URLs are
-- accepted urls of servers up to it
def ReplicasChecked (S : ServerAdmin) (env : ℕ → Surroundings) (request : AdditionRequest) : Prop :=
  ∀ k server, (newServers S request)[k]? = some server →
    Builds S (replaces request) (env k) server →
    Covers (fun url => ∃ j ≤ k, ∃ other, (newServers S request)[j]? = some other ∧
      Accepts S (replaces request) (env j) other ∧ url = other.urlText) (env k) server

theorem additions_guarded_iff (S : ServerAdmin) (env : ℕ → Surroundings)
    (request : AdditionRequest) :
    GuardedBy [] (S.events env request) ↔ ReplicasChecked S env request := by
  have hadded : ∀ replaceExisting servers,
      GuardedBy [] (S.addServersToConduit replaceExisting env 0 servers) ↔
        ∀ k server, servers[k]? = some server → Builds S replaceExisting (env k) server →
          Covers (fun url => ∃ j ≤ k, ∃ other, servers[j]? = some other ∧
            Accepts S replaceExisting (env j) other ∧ url = other.urlText) (env k) server := by
    intro replaceExisting servers
    rw [guardedBy_addServersToConduit]
    refine forall_congr' fun k => forall_congr' fun server => forall_congr' fun _ => ?_
    rw [Nat.zero_add]
    refine forall_congr' fun _ => Covers.congr fun url => ?_
    simp only [Known, Nat.zero_add, List.not_mem_nil, false_or]
  cases request with
  | servers body => exact hadded _ _
  | connectImport hops body => exact hadded _ _
  | registryImport now reads body => exact hadded _ _
  | registryInstall now reads body => exact hadded _ _
  | discoverRegister full body =>
      exact iff_of_true guardedBy_discoverRegister fun k server h => (by cases h)

end Guard

section Example

def exampleUrl : Url where
  href := "https://tools.example/mcp"
  protocol := "https:"
  hostname := "tools.example"
  pathname := "/mcp"

def exampleAdmin : ServerAdmin where
  governanceRuntime := none
  identityRuntime := ⟨none, none⟩
  host :=
    { joinPath := fun a b => a ++ "/" ++ b
      assertSafeSystemPath := fun path _ => .ok path
      mkdir := fun _ => .ok ()
      processEnv := .empty }
  urlApi :=
    { parse := fun text => if text = exampleUrl.href then some exampleUrl else none
      parseRelative := fun _ _ => none
      parse_href := fun h => by
        obtain ⟨-, h⟩ := Option.ite_none_right_eq_some.mp h
        cases h
        exact if_pos rfl
      parseRelative_href := fun h => by cases h }
  allowPrivateNetworks := false

def metadataReplica : Json :=
  .obj [("id", .str "tools"), ("url", .str exampleUrl.href),
    ("replicas", .arr [.str "http://169.254.169.254/latest/meta-data"])]

-- the url is checked, the replica is not
theorem replica_url_unchecked :
    exampleAdmin.events (fun _ => ⟨false, some [⟨"93.184.216.34", 4⟩], false⟩)
        (.servers metadataReplica) =
      [.checked exampleUrl.href true, .client exampleUrl.href,
        .client "http://169.254.169.254/latest/meta-data"] ∧
    ¬ GuardedBy [] (exampleAdmin.events (fun _ => ⟨false, some [⟨"93.184.216.34", 4⟩], false⟩)
      (.servers metadataReplica)) := by
  have hevents : exampleAdmin.events (fun _ => ⟨false, some [⟨"93.184.216.34", 4⟩], false⟩)
      (.servers metadataReplica) =
      [.checked exampleUrl.href true, .client exampleUrl.href,
        .client "http://169.254.169.254/latest/meta-data"] := by decide +kernel
  refine ⟨hevents, ?_⟩
  rw [hevents]
  simp [GuardedBy, exampleUrl]

end Example

end Conduit.Admin
