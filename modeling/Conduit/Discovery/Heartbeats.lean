import Conduit.Discovery.Manager
import Conduit.Foundation.Json
import Conduit.Foundation.Run
import Conduit.Utils.UrlValidator

namespace Conduit.Discovery

open Conduit.Utils (Url UrlApi DnsAnswer validateServerUrlWithDns)
open Transition (Throughout throughout_append)

namespace HttpRegistryBackend

variable (B : HttpRegistryBackend)

def size : ℕ := B.registrations.size

def registration (serverId : String) : Option Registration := B.registrations.get? serverId

def live (now : ℕ) (serverId : String) : Bool :=
  (B.registration serverId).any fun reg => !B.stale now reg

end HttpRegistryBackend

namespace HttpRegistryBackend

variable (B : HttpRegistryBackend) (now : ℕ) (serverId : String)

theorem registration_register (server : DiscoveredServer) :
    (B.register server now).registration serverId =
      if server.id = serverId then some ⟨server, now⟩ else B.registration serverId :=
  OrderedMap.get?_set _ _ _ _

theorem registration_deregister (id : String) :
    (B.deregister id).registration serverId =
      if id = serverId then none else B.registration serverId :=
  OrderedMap.get?_delete _ _ _

theorem registration_poll :
    (B.poll now).registration serverId =
      (B.registration serverId).filter fun reg => !B.stale now reg := by
  have hexpired :
      serverId ∈ (B.registrations.entries.filter fun e => B.stale now e.2).map Prod.fst ↔
      ∃ reg, B.registration serverId = some reg ∧ B.stale now reg = true := by
    simp [registration, OrderedMap.get?_eq_some_iff]
  rw [poll, registration, OrderedMap.get?_foldl_delete]
  cases hreg : B.registration serverId with
  | none =>
      rw [registration] at hreg
      rw [hreg, ite_self]
      rfl
  | some reg =>
      rw [hreg] at hexpired
      rw [registration] at hreg
      cases hstale : B.stale now reg with
      | true =>
          rw [if_pos (hexpired.mpr ⟨reg, rfl, hstale⟩)]
          simp [Option.filter, hstale]
      | false =>
          rw [if_neg, hreg]
          · simp [Option.filter, hstale]
          · rw [hexpired]
            rintro ⟨found, hfound, hgone⟩
            obtain rfl := Option.some.inj hfound
            rw [hstale] at hgone
            cases hgone

theorem mem_alive {server : DiscoveredServer} :
    server ∈ B.alive now ↔ ∃ id reg, B.registration id = some reg ∧ B.stale now reg = false ∧
      reg.server = server := by
  simp only [alive, OrderedMap.values, List.mem_map, List.mem_filter, Bool.not_eq_true',
    registration, OrderedMap.get?_eq_some_iff]
  constructor
  · rintro ⟨reg, ⟨⟨e, he, rfl⟩, hfresh⟩, rfl⟩
    exact ⟨e.1, e.2, he, hfresh, rfl⟩
  · rintro ⟨id, reg, hreg, hfresh, rfl⟩
    exact ⟨reg, ⟨⟨(id, reg), hreg, rfl⟩, hfresh⟩, rfl⟩

theorem live_iff :
    B.live now serverId = true ↔
      ∃ reg, B.registration serverId = some reg ∧ B.stale now reg = false := by
  simp [live, Option.any_eq_true]

theorem fresh_of_lt {reg : Registration} (h : now - reg.lastSeen < B.staleTimeoutMs) :
    B.stale now reg = false :=
  decide_eq_false (Nat.lt_asymm h)

-- each record is kept under its own id
def Keyed : Prop := ∀ id reg, B.registration id = some reg → reg.server.id = id

end HttpRegistryBackend

def BackendPoll.isHttp : BackendPoll → Bool
  | .http => true
  | .dns _ _ => false
  | .other _ _ => false

theorem Reconciliation.httpRegistry_adopt (r : Reconciliation) (discovered : DiscoveredServer) :
    (r.adopt discovered).manager.httpRegistry = r.manager.httpRegistry := by
  rcases adopt_cases r discovered with
    ⟨-, hsame⟩ | ⟨-, -, server, -, ⟨-, hnext⟩ | ⟨-, hnext⟩⟩
  · rw [hsame]
  · rw [hnext]
  · rw [hnext]

theorem Reconciliation.httpRegistry_drop (discovered : OrderedMap String DiscoveredServer)
    (r : Reconciliation) (id : String) :
    (r.drop discovered id).manager.httpRegistry = r.manager.httpRegistry := by
  rw [drop, DiscoveryManager.removeServer]
  cases discovered.has id with
  | true => rfl
  | false =>
      cases r.manager.registry.has id with
      | true => rfl
      | false => rfl

namespace DiscoveryManager

variable (M : DiscoveryManager) (now : ℕ) (polls : List BackendPoll)

theorem httpRegistry_reconcile :
    (M.reconcile now polls).manager.httpRegistry = (M.polled now polls).httpRegistry := by
  have hadopt : ∀ (found : List DiscoveredServer) (r : Reconciliation),
      (found.foldl Reconciliation.adopt r).manager.httpRegistry = r.manager.httpRegistry := by
    intro found
    induction found with
    | nil => intro r; rfl
    | cons discovered found ih => intro r; exact (ih _).trans (r.httpRegistry_adopt discovered)
  have hdrop : ∀ discovered (ids : List String) (r : Reconciliation),
      (ids.foldl (Reconciliation.drop discovered) r).manager.httpRegistry =
        r.manager.httpRegistry := by
    intro discovered ids
    induction ids with
    | nil => intro r; rfl
    | cons id ids ih => intro r; exact (ih _).trans (r.httpRegistry_drop discovered id)
  exact (hdrop _ _ _).trans (hadopt _ _)

theorem staleTimeoutMs_polled :
    (M.polled now polls).httpRegistry.staleTimeoutMs = M.httpRegistry.staleTimeoutMs := by
  induction polls generalizing M with
  | nil => rfl
  | cons poll polls ih =>
      cases poll with
      | http => exact ih { M with httpRegistry := M.httpRegistry.poll now }
      | dns records answered => exact ih M
      | other servers answered => exact ih M

theorem registration_polled (serverId : String) :
    (M.polled now polls).httpRegistry.registration serverId =
      if polls.any BackendPoll.isHttp then
        (M.httpRegistry.registration serverId).filter fun reg => !M.httpRegistry.stale now reg
      else M.httpRegistry.registration serverId := by
  induction polls generalizing M with
  | nil => rfl
  | cons poll polls ih =>
      cases poll with
      | http =>
          have hpolled := ih { M with httpRegistry := M.httpRegistry.poll now }
          rw [HttpRegistryBackend.registration_poll] at hpolled
          refine hpolled.trans ?_
          rw [List.any_cons, BackendPoll.isHttp, Bool.true_or, if_pos rfl]
          split
          · rw [Option.filter_filter]
            congr 1
            funext reg
            exact Bool.and_self _
          · rfl
      | dns records answered => exact ih M
      | other servers answered => exact ih M

end DiscoveryManager

structure RegisterReply where
  status : ℕ
  body : Json

def RegisterReply.refuse (status : ℕ) (error : String) : RegisterReply where
  status := status
  body := .obj [("error", .str error)]

def RegisterReply.registered (serverId : String) : RegisterReply where
  status := 200
  body := .obj [("registered", .bool true), ("server_id", .str serverId)]

def maxRegistrations : ℕ := 1000

structure DiscoverRoutes where
  urlApi : UrlApi
  allowPrivateNetworks : Bool

-- an event of the http registry; a reconciliation polls the other backends too
inductive RegistryEvent where
  | register (body : Option DiscoveredServer) (lookup : DnsAnswer)
  | deregister (serverId : String)
  | discoverStatus
  | reconcile (before after : List BackendPoll)

structure TimedEvent where
  now : ℕ
  event : RegistryEvent

inductive RegistryReply where
  | registration (reply : RegisterReply)
  | deregistered (removed : Bool)
  | polled (servers : List DiscoveredServer)

namespace DiscoverRoutes

variable (R : DiscoverRoutes)

-- what POST /discover/register checks before the limit; a field that is absent reads as ""
def checked (body : Option DiscoveredServer) (lookup : DnsAnswer) :
    Except RegisterReply DiscoveredServer :=
  match body with
  | none => .error (.refuse 400 "Invalid JSON body")
  | some body =>
      if body.id = "" ∨ body.url = "" then
        .error (.refuse 400 "Missing required fields: id, url")
      else
        let urlCheck := validateServerUrlWithDns R.urlApi body.url R.allowPrivateNetworks lookup
        if urlCheck.valid then .ok body
        else .error (.refuse 400 ("Invalid URL: " ++ urlCheck.error.getD "undefined"))

def discoverRegister (B : HttpRegistryBackend) (body : Option DiscoveredServer)
    (lookup : DnsAnswer) (now : ℕ) : HttpRegistryBackend × RegisterReply :=
  match R.checked body lookup with
  | .error reply => (B, reply)
  | .ok body =>
      if maxRegistrations ≤ B.size then
        (B, .refuse 429 "Maximum registration limit (1000) reached")
      else (B.register body now, .registered body.id)

def step (M : DiscoveryManager) (e : TimedEvent) : DiscoveryManager × RegistryReply :=
  match e.event with
  | .register body lookup =>
      let (httpRegistry, reply) := R.discoverRegister M.httpRegistry body lookup e.now
      ({ M with httpRegistry := httpRegistry }, .registration reply)
  | .deregister serverId =>
      ({ M with httpRegistry := M.httpRegistry.deregister serverId },
        .deregistered (M.httpRegistry.registrations.has serverId))
  | .discoverStatus =>
      ({ M with httpRegistry := M.httpRegistry.poll e.now }, .polled (M.httpRegistry.alive e.now))
  | .reconcile before after =>
      ((M.reconcile e.now (before ++ .http :: after)).manager,
        .polled (M.httpRegistry.alive e.now))

def after (M : DiscoveryManager) (events : List TimedEvent) : DiscoveryManager :=
  events.foldl (fun M e => (R.step M e).1) M

-- the server of a request that passes the checks
def requested (e : TimedEvent) : Option DiscoveredServer :=
  match e.event with
  | .register body lookup => (R.checked body lookup).toOption
  | .deregister _ => none
  | .discoverStatus => none
  | .reconcile _ _ => none

def Concerns (serverId : String) (e : TimedEvent) : Prop :=
  (∃ server ∈ R.requested e, server.id = serverId) ∨ e.event = .deregister serverId

def Accepts (M : DiscoveryManager) (e : TimedEvent) (server : DiscoveredServer) : Prop :=
  ∃ lookup reply, e.event = .register (some server) lookup ∧
    (R.step M e).2 = .registration reply ∧ reply.status = 200

-- heartbeats with the url at intervals shorter than the timeout, from one at `last` to one at the
-- last time
inductive Beats (serverId url : String) (timeoutMs : ℕ) : ℕ → List TimedEvent → ℕ → Prop where
  | done (last : ℕ) : Beats serverId url timeoutMs last [] last
  | beat {last final : ℕ} {e : TimedEvent} {events : List TimedEvent} (server : DiscoveredServer)
      (lookup : DnsAnswer) (hevent : e.event = .register (some server) lookup)
      (hvalid : R.checked (some server) lookup = .ok server) (hid : server.id = serverId)
      (hurl : server.url = url) (hsoon : e.now - last < timeoutMs)
      (hrest : Beats serverId url timeoutMs e.now events final) :
      Beats serverId url timeoutMs last (e :: events) final
  | other {last final : ℕ} {e : TimedEvent} {events : List TimedEvent}
      (hother : ¬R.Concerns serverId e) (hrest : Beats serverId url timeoutMs last events final) :
      Beats serverId url timeoutMs last (e :: events) final

structure KeepsRegistered (M : DiscoveryManager) (events : List TimedEvent) : Prop where
  kept : ∀ before first between poll rest server last servers,
    events = before ++ first :: (between ++ poll :: rest) →
    R.Accepts (R.after M before) first server →
    R.Beats server.id server.url M.httpRegistry.staleTimeoutMs first.now between last →
    poll.now - last < M.httpRegistry.staleTimeoutMs →
    (R.step (R.after M (before ++ first :: between)) poll).2 = .polled servers →
    ∃ found ∈ servers, found.id = server.id ∧ found.url = server.url
  capacity : ∀ before e rest server lookup reply,
    events = before ++ e :: rest → e.event = .register (some server) lookup →
    (R.after M before).httpRegistry.live e.now server.id = false →
    (R.step (R.after M before) e).2 = .registration reply → reply.status = 429 →
    maxRegistrations ≤ ((R.after M before).httpRegistry.alive e.now).length
  gone : ∀ before first between poll rest server servers,
    events = before ++ first :: (between ++ poll :: rest) →
    R.Accepts (R.after M before) first server →
    (∀ mid e later, between = mid ++ e :: later → ∀ renewed, renewed.id = server.id →
      ¬R.Accepts (R.after M (before ++ first :: mid)) e renewed) →
    M.httpRegistry.staleTimeoutMs < poll.now - first.now →
    (R.step (R.after M (before ++ first :: between)) poll).2 = .polled servers →
    ∀ found ∈ servers, found.id ≠ server.id

-- the limit stops neither a server that is alive nor, while stale ones count, another
def Room (M : DiscoveryManager) (e : TimedEvent) : Prop :=
  ∀ server ∈ R.requested e, maxRegistrations ≤ M.httpRegistry.size →
    M.httpRegistry.live e.now server.id = false ∧
      maxRegistrations ≤ (M.httpRegistry.alive e.now).length

instance Room.decidable (M : DiscoveryManager) (e : TimedEvent) : Decidable (R.Room M e) :=
  inferInstanceAs (Decidable (∀ server ∈ R.requested e, _ → _ ∧ _))

section Steps

variable {R} {M : DiscoveryManager} {e : TimedEvent} {server : DiscoveredServer}
  {body : Option DiscoveredServer} {lookup : DnsAnswer} {serverId : String} {reg : Registration}

theorem checked_ok (h : R.checked body lookup = .ok server) : body = some server := by
  cases body with
  | none => cases h
  | some body =>
      simp only [checked] at h
      split at h
      · cases h
      · split at h
        · rw [Except.ok.inj h]
        · cases h

theorem status_of_checked {reply : RegisterReply} (h : R.checked body lookup = .error reply) :
    reply.status = 400 := by
  cases body with
  | none =>
      obtain rfl := Except.error.inj h
      rfl
  | some body =>
      simp only [checked] at h
      split at h
      · obtain rfl := Except.error.inj h
        rfl
      · split at h
        · cases h
        · obtain rfl := Except.error.inj h
          rfl

-- the three ways a request can go
theorem discoverRegister_cases (B : HttpRegistryBackend) (body : Option DiscoveredServer)
    (lookup : DnsAnswer) (now : ℕ) :
    (∃ reply, R.checked body lookup = .error reply ∧
        R.discoverRegister B body lookup now = (B, reply)) ∨
    (∃ server, R.checked body lookup = .ok server ∧ maxRegistrations ≤ B.size ∧
        R.discoverRegister B body lookup now =
          (B, .refuse 429 "Maximum registration limit (1000) reached")) ∨
    ∃ server, R.checked body lookup = .ok server ∧ B.size < maxRegistrations ∧
      R.discoverRegister B body lookup now = (B.register server now, .registered server.id) := by
  rw [discoverRegister]
  cases R.checked body lookup with
  | error reply => exact .inl ⟨reply, rfl, rfl⟩
  | ok server =>
      by_cases hfull : maxRegistrations ≤ B.size
      · exact .inr (.inl ⟨server, rfl, hfull, if_pos hfull⟩)
      · exact .inr (.inr ⟨server, rfl, Nat.lt_of_not_le hfull, if_neg hfull⟩)

theorem requested_of_checked (hevent : e.event = .register body lookup)
    (hchecked : R.checked body lookup = .ok server) : R.requested e = some server := by
  rw [requested, hevent]
  dsimp only
  rw [hchecked]
  rfl

theorem step_register (hevent : e.event = .register body lookup) :
    R.step M e =
      ({ M with httpRegistry := (R.discoverRegister M.httpRegistry body lookup e.now).1 },
        .registration (R.discoverRegister M.httpRegistry body lookup e.now).2) := by
  rw [step, hevent]

theorem accepts_iff :
    R.Accepts M e server ↔ ∃ lookup, e.event = .register (some server) lookup ∧
      R.checked (some server) lookup = .ok server ∧ M.httpRegistry.size < maxRegistrations := by
  constructor
  · rintro ⟨lookup, reply, hevent, hreply, hstatus⟩
    refine ⟨lookup, hevent, ?_⟩
    rw [step_register hevent] at hreply
    obtain rfl := RegistryReply.registration.inj hreply
    rcases R.discoverRegister_cases M.httpRegistry (some server) lookup e.now with
      ⟨reply, hchecked, hnext⟩ | ⟨found, hchecked, hfull, hnext⟩ | ⟨found, hchecked, hroom, hnext⟩
    · rw [hnext, status_of_checked hchecked] at hstatus
      cases hstatus
    · rw [hnext] at hstatus
      cases hstatus
    · obtain rfl := Option.some.inj (checked_ok hchecked)
      exact ⟨hchecked, hroom⟩
  · rintro ⟨lookup, hevent, hchecked, hroom⟩
    refine ⟨lookup, .registered server.id, hevent, ?_, rfl⟩
    rw [step_register hevent, discoverRegister, hchecked]
    simp only [Nat.not_le.mpr hroom, if_false]

theorem httpRegistry_of_accepts (h : R.Accepts M e server) :
    (R.step M e).1.httpRegistry = M.httpRegistry.register server e.now := by
  obtain ⟨lookup, hevent, hchecked, hroom⟩ := accepts_iff.1 h
  rw [step_register hevent, discoverRegister, hchecked]
  simp only [Nat.not_le.mpr hroom, if_false]

-- what an event leaves in the http registry
theorem step_cases (R : DiscoverRoutes) (M : DiscoveryManager) (e : TimedEvent) :
    (∃ server, R.Accepts M e server ∧ R.Concerns server.id e ∧
      (R.step M e).1.httpRegistry = M.httpRegistry.register server e.now) ∨
    (∃ id, R.Concerns id e ∧ (R.step M e).1.httpRegistry = M.httpRegistry.deregister id) ∨
    (R.step M e).1.httpRegistry = M.httpRegistry ∨
    ((R.step M e).1.httpRegistry.staleTimeoutMs = M.httpRegistry.staleTimeoutMs ∧
      ∀ serverId, (R.step M e).1.httpRegistry.registration serverId =
        (M.httpRegistry.registration serverId).filter fun reg =>
          !M.httpRegistry.stale e.now reg) := by
  cases hevent : e.event with
  | register body lookup =>
      rcases R.discoverRegister_cases M.httpRegistry body lookup e.now with
        ⟨reply, hchecked, hnext⟩ | ⟨server, hchecked, hfull, hnext⟩ |
          ⟨server, hchecked, hroom, hnext⟩
      · refine .inr (.inr (.inl ?_))
        rw [step_register hevent, hnext]
      · refine .inr (.inr (.inl ?_))
        rw [step_register hevent, hnext]
      · obtain rfl := checked_ok hchecked
        have haccepts : R.Accepts M e server := accepts_iff.2 ⟨lookup, hevent, hchecked, hroom⟩
        refine .inl ⟨server, haccepts, ?_, httpRegistry_of_accepts haccepts⟩
        exact .inl ⟨server, requested_of_checked hevent hchecked, rfl⟩
  | deregister id =>
      refine .inr (.inl ⟨id, .inr hevent, ?_⟩)
      rw [step, hevent]
  | discoverStatus =>
      refine .inr (.inr (.inr ?_))
      rw [step, hevent]
      exact ⟨rfl, M.httpRegistry.registration_poll e.now⟩
  | reconcile before after =>
      refine .inr (.inr (.inr ?_))
      rw [step, hevent]
      dsimp only
      rw [M.httpRegistry_reconcile]
      refine ⟨M.staleTimeoutMs_polled _ _, fun serverId => ?_⟩
      rw [M.registration_polled, List.any_append, List.any_cons, BackendPoll.isHttp, Bool.true_or,
        Bool.or_true, if_pos rfl]

theorem staleTimeoutMs_step (R : DiscoverRoutes) (M : DiscoveryManager) (e : TimedEvent) :
    (R.step M e).1.httpRegistry.staleTimeoutMs = M.httpRegistry.staleTimeoutMs := by
  rcases R.step_cases M e with
    ⟨server, -, -, hnext⟩ | ⟨id, -, hnext⟩ | hnext | ⟨hnext, -⟩
  · rw [hnext]
    rfl
  · rw [hnext]
    rfl
  · rw [hnext]
  · exact hnext

-- a record stays while nobody asks about its id and it is fresh
theorem registration_kept (hother : ¬R.Concerns serverId e)
    (hreg : M.httpRegistry.registration serverId = some reg)
    (hfresh : M.httpRegistry.stale e.now reg = false) :
    (R.step M e).1.httpRegistry.registration serverId = some reg := by
  rcases R.step_cases M e with
    ⟨server, -, hconcerns, hnext⟩ | ⟨id, hconcerns, hnext⟩ | hnext | ⟨-, hnext⟩
  · rw [hnext, HttpRegistryBackend.registration_register, if_neg, hreg]
    rintro rfl
    exact hother hconcerns
  · rw [hnext, HttpRegistryBackend.registration_deregister, if_neg, hreg]
    rintro rfl
    exact hother hconcerns
  · rw [hnext, hreg]
  · rw [hnext, hreg]
    simp [Option.filter, hfresh]

-- a record that is there is the one just accepted, or was there before
theorem registration_step (h : (R.step M e).1.httpRegistry.registration serverId = some reg) :
    (∃ server, R.Accepts M e server ∧ server.id = serverId ∧ reg = ⟨server, e.now⟩) ∨
      M.httpRegistry.registration serverId = some reg := by
  rcases R.step_cases M e with
    ⟨server, haccepts, -, hnext⟩ | ⟨id, -, hnext⟩ | hnext | ⟨-, hnext⟩
  · rw [hnext, HttpRegistryBackend.registration_register] at h
    split at h
    next hid => exact .inl ⟨server, haccepts, hid, (Option.some.inj h).symm⟩
    next => exact .inr h
  · rw [hnext, HttpRegistryBackend.registration_deregister] at h
    split at h
    · cases h
    · exact .inr h
  · rw [hnext] at h
    exact .inr h
  · rw [hnext, Option.filter_eq_some_iff] at h
    exact .inr h.1

theorem keyed_step (h : M.httpRegistry.Keyed) : (R.step M e).1.httpRegistry.Keyed := by
  intro serverId reg hreg
  rcases registration_step hreg with ⟨server, -, hid, rfl⟩ | hold
  · exact hid
  · exact h serverId reg hold

theorem registration_of_accepts (h : R.Accepts M e server) :
    (R.step M e).1.httpRegistry.registration server.id = some ⟨server, e.now⟩ := by
  rw [httpRegistry_of_accepts h, HttpRegistryBackend.registration_register, if_pos rfl]

theorem servers_of_polled {servers : List DiscoveredServer}
    (h : (R.step M e).2 = .polled servers) : servers = M.httpRegistry.alive e.now := by
  cases hevent : e.event with
  | register body lookup =>
      rw [step_register hevent] at h
      cases h
  | deregister id =>
      rw [step, hevent] at h
      cases h
  | discoverStatus =>
      rw [step, hevent] at h
      exact (RegistryReply.polled.inj h).symm
  | reconcile before after =>
      rw [step, hevent] at h
      exact (RegistryReply.polled.inj h).symm

-- where there is room, a server that is alive renews
theorem accepts_of_room (hroom : R.Room M e) (hevent : e.event = .register (some server) lookup)
    (hchecked : R.checked (some server) lookup = .ok server)
    (hlive : M.httpRegistry.live e.now server.id = true) : R.Accepts M e server := by
  refine accepts_iff.2 ⟨lookup, hevent, hchecked, ?_⟩
  by_contra hfull
  have hrequested : server ∈ R.requested e := requested_of_checked hevent hchecked
  have hdead := (hroom server hrequested (Nat.le_of_not_lt hfull)).1
  rw [hlive] at hdead
  cases hdead

end Steps

end DiscoverRoutes

def InOrder (events : List TimedEvent) : Prop := events.Pairwise fun e f => e.now ≤ f.now

instance InOrder.decidable (events : List TimedEvent) : Decidable (InOrder events) :=
  inferInstanceAs (Decidable (events.Pairwise _))

-- the manager of a gateway that has just started
def DiscoveryManager.fresh (M : DiscoveryManager) (staleTimeoutMs : ℕ) : DiscoveryManager :=
  { M with httpRegistry := { staleTimeoutMs } }

namespace DiscoverRoutes

section Runs

variable {R : DiscoverRoutes} {M : DiscoveryManager} {events : List TimedEvent}
  {serverId url : String} {last final : ℕ}

theorem after_append (before rest : List TimedEvent) :
    R.after M (before ++ rest) = R.after (R.after M before) rest :=
  List.foldl_append

theorem after_cons (e : TimedEvent) (rest : List TimedEvent) :
    R.after M (e :: rest) = R.after (R.step M e).1 rest := rfl

theorem staleTimeoutMs_after (events : List TimedEvent) :
    (R.after M events).httpRegistry.staleTimeoutMs = M.httpRegistry.staleTimeoutMs := by
  induction events generalizing M with
  | nil => rfl
  | cons e events ih => exact ih.trans (R.staleTimeoutMs_step M e)

theorem keyed_after (h : M.httpRegistry.Keyed) (events : List TimedEvent) :
    (R.after M events).httpRegistry.Keyed := by
  induction events generalizing M with
  | nil => exact h
  | cons e events ih => exact ih (keyed_step h)

-- what comes before a timely poll comes before the heartbeat at `last` is stale
theorem Beats.soon {timeoutMs now poll : ℕ} (h : R.Beats serverId url timeoutMs last events final)
    (hevents : ∀ e ∈ events, now ≤ e.now) (hend : now ≤ poll)
    (hsoon : poll - final < timeoutMs) : now - last < timeoutMs := by
  induction h with
  | done last => exact Nat.lt_of_le_of_lt (Nat.sub_le_sub_right hend last) hsoon
  | beat server lookup hevent hvalid hid hurl hbeat hrest ih =>
      have hnow := hevents _ List.mem_cons_self
      exact Nat.lt_of_le_of_lt (Nat.sub_le_sub_right hnow _) hbeat
  | other hother hrest ih =>
      exact ih (fun e he => hevents e (List.mem_cons_of_mem _ he)) hsoon

theorem kept_of_beats {timeoutMs now : ℕ} {server : DiscoveredServer}
    (h : R.Beats serverId url timeoutMs last events final)
    (htimeout : timeoutMs = M.httpRegistry.staleTimeoutMs)
    (hordered : InOrder events) (hend : ∀ e ∈ events, e.now ≤ now)
    (hroom : Throughout R.step R.Room M events) (hsoon : now - final < timeoutMs)
    (hreg : M.httpRegistry.registration serverId = some ⟨server, last⟩)
    (hurl : server.url = url) :
    ∃ found, (R.after M events).httpRegistry.registration serverId = some ⟨found, final⟩ ∧
      found.url = url := by
  induction h generalizing M server with
  | done last => exact ⟨server, hreg, hurl⟩
  | @beat last final e events renewed lookup hevent hvalid hid hsame hbeat hrest ih =>
      obtain ⟨hfirst, hordered⟩ := List.pairwise_cons.mp hordered
      have hlive : M.httpRegistry.live e.now renewed.id = true := by
        rw [hid, HttpRegistryBackend.live_iff]
        refine ⟨_, hreg, HttpRegistryBackend.fresh_of_lt _ _ ?_⟩
        rw [← htimeout]
        exact hbeat
      have haccepts := accepts_of_room hroom.1 hevent hvalid hlive
      have hrenewed := registration_of_accepts haccepts
      rw [hid] at hrenewed
      refine ih ?_ hordered (fun e he => hend e (List.mem_cons_of_mem _ he)) hroom.2 hsoon hrenewed
        hsame
      rw [htimeout, R.staleTimeoutMs_step]
  | @other last final e events hother hrest ih =>
      obtain ⟨hfirst, hordered⟩ := List.pairwise_cons.mp hordered
      have hnow : e.now - last < timeoutMs :=
        hrest.soon hfirst (hend e List.mem_cons_self) hsoon
      have hfresh : M.httpRegistry.stale e.now ⟨server, last⟩ = false := by
        apply HttpRegistryBackend.fresh_of_lt
        rw [← htimeout]
        exact hnow
      refine ih ?_ hordered (fun e he => hend e (List.mem_cons_of_mem _ he)) hroom.2 hsoon
        (registration_kept hother hreg hfresh) hurl
      rw [htimeout, R.staleTimeoutMs_step]

-- without a renewal, what is still there was last seen when it was accepted
theorem registration_unrenewed {reg : Registration}
    (hunrenewed : ∀ mid e later, events = mid ++ e :: later → ∀ renewed, renewed.id = serverId →
      ¬R.Accepts (R.after M mid) e renewed)
    (h : (R.after M events).httpRegistry.registration serverId = some reg) :
    M.httpRegistry.registration serverId = some reg := by
  induction events generalizing M with
  | nil => exact h
  | cons e events ih =>
      have hlater : ∀ mid f later, events = mid ++ f :: later → ∀ renewed,
          renewed.id = serverId → ¬R.Accepts (R.after (R.step M e).1 mid) f renewed := by
        intro mid f later hevents
        exact hunrenewed (e :: mid) f later (by rw [hevents]; rfl)
      have hstep := ih hlater h
      rcases registration_step hstep with ⟨server, haccepts, hid, -⟩ | hold
      · exact absurd haccepts (hunrenewed [] e events rfl server hid)
      · exact hold

section Clauses

variable {before between rest : List TimedEvent} {first poll e : TimedEvent}
  {server : DiscoveredServer} {servers : List DiscoveredServer}

theorem kept_of_room (hkeyed : M.httpRegistry.Keyed) (hordered : InOrder events)
    (hroom : Throughout R.step R.Room M events)
    (hevents : events = before ++ first :: (between ++ poll :: rest))
    (haccepts : R.Accepts (R.after M before) first server)
    (hbeats : R.Beats server.id server.url M.httpRegistry.staleTimeoutMs first.now between last)
    (hsoon : poll.now - last < M.httpRegistry.staleTimeoutMs)
    (hpolled : (R.step (R.after M (before ++ first :: between)) poll).2 = .polled servers) :
    ∃ found ∈ servers, found.id = server.id ∧ found.url = server.url := by
  subst hevents
  have hlater := (List.pairwise_cons.mp (List.pairwise_append.mp hordered).2.1).2
  obtain ⟨hbetween, -, hends⟩ := List.pairwise_append.mp hlater
  have hfirst := (throughout_append.1 hroom).2.2
  have htimeout := R.staleTimeoutMs_step (R.after M before) first
  rw [staleTimeoutMs_after] at htimeout
  obtain ⟨found, hfound, hurl⟩ := kept_of_beats hbeats htimeout.symm hbetween
    (fun e he => hends e he poll List.mem_cons_self) (throughout_append.1 hfirst).1 hsoon
    (registration_of_accepts haccepts) rfl
  have hkeyed := keyed_after (R := R) hkeyed (before ++ first :: between)
  rw [after_append, after_cons] at hpolled hkeyed
  refine ⟨found, ?_, hkeyed _ _ hfound, hurl⟩
  rw [servers_of_polled hpolled, HttpRegistryBackend.mem_alive]
  refine ⟨_, _, hfound, HttpRegistryBackend.fresh_of_lt _ _ ?_, rfl⟩
  rw [staleTimeoutMs_after, htimeout]
  exact hsoon

theorem capacity_of_room (hroom : Throughout R.step R.Room M events)
    (hevents : events = before ++ e :: rest) {lookup : DnsAnswer} {reply : RegisterReply}
    (hevent : e.event = .register (some server) lookup)
    (hreply : (R.step (R.after M before) e).2 = .registration reply)
    (hstatus : reply.status = 429) :
    maxRegistrations ≤ ((R.after M before).httpRegistry.alive e.now).length := by
  subst hevents
  have he : R.Room (R.after M before) e := (throughout_append.1 hroom).2.1
  rw [step_register hevent] at hreply
  obtain rfl := RegistryReply.registration.inj hreply
  rcases R.discoverRegister_cases (R.after M before).httpRegistry (some server) lookup e.now with
    ⟨reply, hchecked, hnext⟩ | ⟨found, hchecked, hfull, -⟩ | ⟨found, hchecked, hopen, hnext⟩
  · rw [hnext, status_of_checked hchecked] at hstatus
    cases hstatus
  · exact (he found (requested_of_checked hevent hchecked) hfull).2
  · rw [hnext] at hstatus
    cases hstatus

theorem gone_of_stale (hkeyed : M.httpRegistry.Keyed)
    (haccepts : R.Accepts (R.after M before) first server)
    (hunrenewed : ∀ mid e later, between = mid ++ e :: later → ∀ renewed, renewed.id = server.id →
      ¬R.Accepts (R.after M (before ++ first :: mid)) e renewed)
    (hlate : M.httpRegistry.staleTimeoutMs < poll.now - first.now)
    (hpolled : (R.step (R.after M (before ++ first :: between)) poll).2 = .polled servers) :
    ∀ found ∈ servers, found.id ≠ server.id := by
  intro found hfound hid
  rw [servers_of_polled hpolled, HttpRegistryBackend.mem_alive] at hfound
  obtain ⟨serverId, reg, hreg, hfresh, rfl⟩ := hfound
  obtain rfl := keyed_after hkeyed _ _ _ hreg
  rw [HttpRegistryBackend.stale, staleTimeoutMs_after, decide_eq_false_iff_not] at hfresh
  rw [after_append, after_cons, hid] at hreg
  have hfirst := registration_unrenewed (fun mid e later hmid renewed hrenewed => by
    have hnot := hunrenewed mid e later hmid renewed hrenewed
    rwa [after_append, after_cons] at hnot) hreg
  rw [registration_of_accepts haccepts] at hfirst
  obtain rfl := Option.some.inj hfirst
  exact hfresh hlate

end Clauses

end Runs

theorem keeps_registered (R : DiscoverRoutes) (M : DiscoveryManager) (staleTimeoutMs : ℕ)
    {events : List TimedEvent} (hordered : InOrder events)
    (hroom : Throughout R.step R.Room (M.fresh staleTimeoutMs) events) :
    R.KeepsRegistered (M.fresh staleTimeoutMs) events := by
  have hkeyed : (M.fresh staleTimeoutMs).httpRegistry.Keyed := by
    intro id reg hreg
    cases hreg
  constructor
  · intro before first between poll rest server last servers hevents haccepts hbeats hsoon hpolled
    exact kept_of_room hkeyed hordered hroom hevents haccepts hbeats hsoon hpolled
  · intro before e rest server lookup reply hevents hevent hdead hreply hstatus
    exact capacity_of_room hroom hevents hevent hreply hstatus
  · intro before first between poll rest server servers hevents haccepts hunrenewed hlate hpolled
    exact gone_of_stale hkeyed haccepts hunrenewed hlate hpolled

section Examples

def hostUrl : Url where
  href := "http://10.0.1.5:3001/mcp"
  protocol := "http:"
  hostname := "10.0.1.5"
  pathname := "/mcp"

-- a gateway that allows private addresses
def hostRoutes : DiscoverRoutes where
  urlApi := {
    parse := fun text => if text = hostUrl.href then some hostUrl else none
    parseRelative := fun _ _ => none
    parse_href := by
      intro text url h
      obtain ⟨-, h⟩ := Option.ite_none_right_eq_some.mp h
      cases h
      exact if_pos rfl
    parseRelative_href := by
      intro text base url h
      cases h }
  allowPrivateNetworks := true

def hosted (id : String) : DiscoveredServer := { id, url := hostUrl.href, transport := some .http }

def heartbeat (now : ℕ) (id : String) : TimedEvent := ⟨now, .register (some (hosted id)) none⟩

def started (servers : List Conduit.Runtime.StdioServerConfig) : DiscoveryManager where
  httpRegistry := { staleTimeoutMs := 90000 }
  registry := .setAll (fun server => server.id) servers
  clients := .setAll (fun server => server.id) servers
  servers := servers

theorem keeps_registered_crm :
    hostRoutes.KeepsRegistered ((started []).fresh 90000)
      [heartbeat 0 "crm", ⟨30000, .reconcile [] []⟩, heartbeat 60000 "crm", heartbeat 70000 "erp",
        ⟨120000, .discoverStatus⟩, ⟨130000, .deregister "erp"⟩, ⟨150000, .reconcile [] []⟩] :=
  keeps_registered hostRoutes (started []) 90000 (by decide +kernel) (by decide +kernel)

def nodeName (i : ℕ) : String := String.ofList (List.replicate i 'a')

def fleet (n : ℕ) : List TimedEvent := (List.range n).map fun i => heartbeat 0 (nodeName (i + 1))

def enrolled (n : ℕ) : DiscoveryManager := hostRoutes.after ((started []).fresh 90000) (fleet n)

theorem nodeName_inj {i j : ℕ} (h : nodeName i = nodeName j) : i = j := by
  have hlength := congrArg String.length h
  simpa [nodeName] using hlength

theorem enrolled_succ (n : ℕ) :
    enrolled (n + 1) = (hostRoutes.step (enrolled n) (heartbeat 0 (nodeName (n + 1)))).1 := by
  rw [enrolled, fleet, List.range_succ, List.map_append, after_append]
  rfl

theorem checked_hosted {id : String} (h : id ≠ "") :
    hostRoutes.checked (some (hosted id)) none = .ok (hosted id) := by
  have hurl : hostUrl.href ≠ "" := by decide
  have hvalid : (validateServerUrlWithDns hostRoutes.urlApi hostUrl.href
      hostRoutes.allowPrivateNetworks none).valid = true := by decide +kernel
  simp only [checked, hosted, h, hurl, hvalid, or_self, if_false, if_true]

theorem nodeName_ne_empty (i : ℕ) : nodeName (i + 1) ≠ "" := by
  intro h
  have hzero : i + 1 = 0 := nodeName_inj h
  cases hzero

theorem entries_enrolled {n : ℕ} (h : n ≤ maxRegistrations) :
    (enrolled n).httpRegistry.registrations.entries =
      (List.range n).map fun i => (nodeName (i + 1), ⟨hosted (nodeName (i + 1)), 0⟩) := by
  induction n with
  | zero => rfl
  | succ n ih =>
      have hentries := ih (Nat.le_of_succ_le h)
      have hsize : (enrolled n).httpRegistry.size = n := by
        rw [HttpRegistryBackend.size, OrderedMap.size, hentries, List.length_map, List.length_range]
      have haccepts : hostRoutes.Accepts (enrolled n) (heartbeat 0 (nodeName (n + 1)))
          (hosted (nodeName (n + 1))) := by
        refine accepts_iff.2 ⟨none, rfl, checked_hosted (nodeName_ne_empty n), ?_⟩
        rw [hsize]
        exact h
      have hnew : OrderedMap.lookup (enrolled n).httpRegistry.registrations.entries
          (nodeName (n + 1)) = none := by
        rw [← Option.not_isSome_iff_eq_none, Option.isSome_iff_exists]
        rintro ⟨reg, hreg⟩
        have hmem := (OrderedMap.get?_eq_some_iff _ _ reg).mp hreg
        rw [hentries, List.mem_map] at hmem
        obtain ⟨i, hi, heq⟩ := hmem
        have hsame := nodeName_inj (congrArg Prod.fst heq)
        have hlt := List.mem_range.mp hi
        omega
      rw [enrolled_succ, httpRegistry_of_accepts haccepts, List.range_succ, List.map_append,
        ← hentries]
      exact OrderedMap.replace_of_lookup_none _ hnew

theorem size_enrolled {n : ℕ} (h : n ≤ maxRegistrations) :
    (enrolled n).httpRegistry.size = n := by
  rw [HttpRegistryBackend.size, OrderedMap.size, entries_enrolled h, List.length_map,
    List.length_range]

theorem accepts_enrolled {n : ℕ} (h : n < maxRegistrations) :
    hostRoutes.Accepts (enrolled n) (heartbeat 0 (nodeName (n + 1)))
      (hosted (nodeName (n + 1))) := by
  refine accepts_iff.2 ⟨none, rfl, checked_hosted (nodeName_ne_empty n), ?_⟩
  rwa [size_enrolled (Nat.le_of_lt h)]

theorem alive_enrolled {n : ℕ} (h : n ≤ maxRegistrations) :
    (enrolled n).httpRegistry.alive 90001 = [] := by
  have htimeout : (enrolled n).httpRegistry.staleTimeoutMs = 90000 :=
    staleTimeoutMs_after (fleet n)
  have hstale : ∀ reg ∈ (enrolled n).httpRegistry.registrations.values,
      (enrolled n).httpRegistry.stale 90001 reg = true := by
    intro reg hreg
    rw [OrderedMap.values, entries_enrolled h, List.map_map, List.mem_map] at hreg
    obtain ⟨i, -, rfl⟩ := hreg
    rw [HttpRegistryBackend.stale, htimeout]
    rfl
  rw [HttpRegistryBackend.alive, List.map_eq_nil_iff, List.filter_eq_nil_iff]
  intro reg hreg
  simp [hstale reg hreg]

-- a full registry keeps what it has and answers 429
theorem step_full {M : DiscoveryManager} (hfull : maxRegistrations ≤ M.httpRegistry.size)
    {now : ℕ} {id : String} (h : id ≠ "") :
    hostRoutes.step M (heartbeat now id) =
      (M, .registration (.refuse 429 "Maximum registration limit (1000) reached")) := by
  rw [step_register rfl, discoverRegister, checked_hosted h]
  simp only [hfull, if_true]

theorem inOrder_fleet (n : ℕ) {late : List TimedEvent} (h : InOrder late) :
    InOrder (fleet n ++ late) := by
  have hzero : ∀ e ∈ fleet n, e.now = 0 := by
    intro e he
    obtain ⟨i, -, rfl⟩ := List.mem_map.mp he
    rfl
  refine List.pairwise_append.mpr ⟨?_, h, fun e he f _ => ?_⟩
  · refine List.pairwise_iff_forall_sublist.mpr fun {e f} hsub => ?_
    rw [hzero e (hsub.subset List.mem_cons_self)]
    exact Nat.zero_le _
  · rw [hzero e he]
    exact Nat.zero_le _

theorem fleet_succ (n : ℕ) : fleet (n + 1) = fleet n ++ [heartbeat 0 (nodeName (n + 1))] := by
  rw [fleet, List.range_succ, List.map_append]
  rfl

theorem renewal_forgotten {n : ℕ} (hfull : n + 1 = maxRegistrations) :
    ¬hostRoutes.KeepsRegistered ((started []).fresh 90000)
      (fleet (n + 1) ++ [heartbeat 60000 (nodeName (n + 1)), ⟨90001, .reconcile [] []⟩]) := by
  intro hkeeps
  have hle : n + 1 ≤ maxRegistrations := Nat.le_of_eq hfull
  have hsize : maxRegistrations ≤ (enrolled (n + 1)).httpRegistry.size := by
    rw [size_enrolled hle]
    exact Nat.le_of_eq hfull.symm
  have hbeats : hostRoutes.Beats (nodeName (n + 1)) hostUrl.href 90000 0
      [heartbeat 60000 (nodeName (n + 1))] 60000 :=
    .beat (hosted (nodeName (n + 1))) none rfl (checked_hosted (nodeName_ne_empty n)) rfl rfl
      (show 60000 - 0 < 90000 by decide) (.done _)
  have hafter : hostRoutes.after ((started []).fresh 90000)
      (fleet n ++ heartbeat 0 (nodeName (n + 1)) :: [heartbeat 60000 (nodeName (n + 1))]) =
      enrolled (n + 1) := by
    have hsplit : fleet n ++
        heartbeat 0 (nodeName (n + 1)) :: [heartbeat 60000 (nodeName (n + 1))] =
        fleet (n + 1) ++ [heartbeat 60000 (nodeName (n + 1))] := by
      rw [fleet_succ, List.append_assoc]
      rfl
    rw [hsplit, after_append]
    exact congrArg Prod.fst (step_full hsize (nodeName_ne_empty n))
  have hkept := hkeeps.kept (fleet n) (heartbeat 0 (nodeName (n + 1)))
    [heartbeat 60000 (nodeName (n + 1))] ⟨90001, .reconcile [] []⟩ []
    (hosted (nodeName (n + 1))) 60000 []
  rw [hafter] at hkept
  obtain ⟨found, hfound, -⟩ := hkept (by rw [fleet_succ, List.append_assoc]; rfl)
    (accepts_enrolled hle) hbeats (by decide) (by
      rw [step]
      exact congrArg RegistryReply.polled (alive_enrolled hle))
  cases hfound

theorem newcomer_refused :
    ¬hostRoutes.KeepsRegistered ((started []).fresh 90000)
      (fleet maxRegistrations ++ [heartbeat 90001 (nodeName (maxRegistrations + 1))]) := by
  intro hkeeps
  have hle := Nat.le_refl maxRegistrations
  have hdead : (enrolled maxRegistrations).httpRegistry.live 90001
      (nodeName (maxRegistrations + 1)) = false := by
    rw [Bool.eq_false_iff, Ne, HttpRegistryBackend.live_iff]
    rintro ⟨reg, hreg, hfresh⟩
    have halive := (HttpRegistryBackend.mem_alive _ _).mpr ⟨_, reg, hreg, hfresh, rfl⟩
    rw [alive_enrolled hle] at halive
    cases halive
  have hroom := hkeeps.capacity (fleet maxRegistrations)
    (heartbeat 90001 (nodeName (maxRegistrations + 1))) [] (hosted _) none _ rfl rfl hdead
    (congrArg Prod.snd (step_full (size_enrolled hle).ge (nodeName_ne_empty _))) rfl
  have hnone : (hostRoutes.after ((started []).fresh 90000)
      (fleet maxRegistrations)).httpRegistry.alive 90001 = [] := alive_enrolled hle
  rw [show (heartbeat 90001 (nodeName (maxRegistrations + 1))).now = 90001 from rfl, hnone] at hroom
  exact absurd hroom (by decide)

-- the full registry refuses a renewal, and a newcomer when all it holds is stale
theorem full_registry_forgets : ∃ (R : DiscoverRoutes) (M : DiscoveryManager)
    (staleTimeoutMs : ℕ) (renewal newcomer : List TimedEvent),
    (InOrder renewal ∧ ¬R.KeepsRegistered (M.fresh staleTimeoutMs) renewal) ∧
      InOrder newcomer ∧ ¬R.KeepsRegistered (M.fresh staleTimeoutMs) newcomer :=
  ⟨hostRoutes, started [], 90000, _, _,
    ⟨inOrder_fleet _ (by decide), renewal_forgotten (n := 999) rfl⟩,
    inOrder_fleet _ (by decide), newcomer_refused⟩

end Examples

end DiscoverRoutes

end Conduit.Discovery
