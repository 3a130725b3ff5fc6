import Conduit.Foundation.Run
import Conduit.Proxy.McpClient

namespace Conduit.Proxy

open Gateway

section Headers

variable {headers source : Headers} {key value : String}

-- header names are compared without regard to case
def namesSession (key : String) : Bool :=
  decide (key.toList.map Char.toLower = "mcp-session-id".toList)

def sessionIds (headers : Headers) : List String :=
  (headers.entries.filter fun e => namesSession e.1).map Prod.snd

theorem filter_replace_of_not_named (entries : List (String × String))
    (h : namesSession key = false) :
    (OrderedMap.replace entries key value).filter (fun e => namesSession e.1) =
      entries.filter fun e => namesSession e.1 := by
  induction entries with
  | nil => simp [OrderedMap.replace, h]
  | cons e entries ih =>
      obtain ⟨k, v⟩ := e
      unfold OrderedMap.replace
      split
      next heq =>
        subst heq
        simp [h]
      next => rw [List.filter_cons, List.filter_cons, ih]

theorem sessionIds_set_of_not_named (h : namesSession key = false) :
    sessionIds (headers.set key value) = sessionIds headers := by
  rw [sessionIds, sessionIds, OrderedMap.set, filter_replace_of_not_named _ h]

theorem not_named_of_sessionIds (h : sessionIds headers = []) :
    ∀ e ∈ headers.entries, namesSession e.1 = false := fun e he =>
  Bool.eq_false_iff.mpr (List.filter_eq_nil_iff.mp (List.map_eq_nil_iff.mp h) e he)

theorem filter_replace_of_named {entries : List (String × String)} (h : namesSession key = true)
    (hnone : ∀ e ∈ entries, namesSession e.1 = false) :
    (OrderedMap.replace entries key value).filter (fun e => namesSession e.1) = [(key, value)] := by
  induction entries with
  | nil => simp [OrderedMap.replace, h]
  | cons e entries ih =>
      obtain ⟨k, v⟩ := e
      have hk : namesSession k = false := hnone (k, v) (by simp)
      have hne : k ≠ key := by
        rintro rfl
        rw [h] at hk
        cases hk
      have hrest := ih fun e he => hnone e (List.mem_cons_of_mem _ he)
      simpa [OrderedMap.replace, hne, List.filter_cons, hk] using hrest

theorem sessionIds_set_of_named (h : namesSession key = true) (hnone : sessionIds headers = []) :
    sessionIds (headers.set key value) = [value] := by
  rw [sessionIds, OrderedMap.set, filter_replace_of_named h (not_named_of_sessionIds hnone)]
  rfl

theorem sessionIds_assign (h : sessionIds source = []) :
    sessionIds (headers.assign source) = sessionIds headers := by
  have hentries := not_named_of_sessionIds h
  unfold Headers.assign
  revert hentries
  generalize source.entries = entries
  intro hentries
  induction entries generalizing headers with
  | nil => rfl
  | cons e entries ih =>
      have hrest := @ih (headers.set e.1 e.2)
        fun e he => hentries e (List.mem_cons_of_mem _ he)
      exact hrest.trans (sessionIds_set_of_not_named (hentries e (by simp)))

end Headers

namespace McpClient

variable {C : McpClient} {headers extraHeaders : Headers}

-- neither the configuration nor the gateway adds a session header of its own
def Unnamed (C : McpClient) (extraHeaders : Headers) : Prop :=
  sessionIds (C.server.headers.getD .empty) = [] ∧ sessionIds extraHeaders = []

instance (C : McpClient) (extraHeaders : Headers) : Decidable (C.Unnamed extraHeaders) :=
  inferInstanceAs (Decidable (_ ∧ _))

theorem sessionIds_withServerHeaders (h : sessionIds (C.server.headers.getD .empty) = []) :
    sessionIds (C.withServerHeaders headers) = sessionIds headers := by
  unfold withServerHeaders
  split
  next serverHeaders hserver =>
    rw [hserver] at h
    exact sessionIds_assign h
  next => rfl

theorem sessionIds_withSession (h : sessionIds headers = []) (sessionId : Option String) :
    sessionIds (withSession headers sessionId) = (sessionId.filter (· ≠ "")).toList := by
  unfold withSession
  split
  next id hid =>
    rw [hid, sessionIds_set_of_named (by decide) h]
    rfl
  next hnone =>
    rw [hnone, h]
    rfl

theorem sessionIds_forwardHeaders {options : UpstreamRequestOptions}
    (h : C.Unnamed options.extraHeaders) :
    sessionIds (C.forwardHeaders options) =
      ((options.sessionId.or C.sessionId).filter (· ≠ "")).toList := by
  unfold forwardHeaders
  dsimp only
  rw [sessionIds_assign h.2]
  apply sessionIds_withSession
  rw [sessionIds_withServerHeaders h.1, sessionIds_set_of_not_named (by decide),
    sessionIds_set_of_not_named (by decide)]
  rfl

theorem sessionIds_openSseHeaders (h : C.Unnamed extraHeaders) :
    sessionIds (C.openSseHeaders extraHeaders) = (C.sessionId.filter (· ≠ "")).toList := by
  unfold openSseHeaders
  rw [sessionIds_assign h.2]
  apply sessionIds_withSession
  rw [sessionIds_withServerHeaders h.1, sessionIds_set_of_not_named (by decide)]
  rfl

end McpClient

-- the gateway itself lists the tools of a server through the same client
inductive Caller where
  | gateway
  | client (clientId : String)
deriving DecidableEq, Repr

inductive UpstreamEvent where
  | sent (caller : Caller) (presented : Option String) (headers : Headers)
  | answered (caller : Caller) (sessionId : Option String)

inductive Progress where
  | awaiting
  | reading (response : FetchResponse)
  | settled (result : Except String UpstreamResponse)

structure Exchange where
  caller : Caller
  body : Json
  progress : Progress

-- the log has the latest event first
structure UpstreamWorld where
  client : McpClient
  exchanges : List Exchange
  log : List UpstreamEvent

inductive UpstreamAct where
  | forward (caller : Caller) (options : UpstreamRequestOptions) (now : ℕ)
  | respond (exchange : ℕ) (response : FetchResponse)
  | read (exchange : ℕ) (now : ℕ)
  | fail (exchange : ℕ) (error : String) (now : ℕ)
  | openSseStream (caller : Caller) (presented : Option String) (extraHeaders : Headers)

namespace UpstreamWorld

def init (server : ServerConfig) (circuitBreaker : Option Router.CircuitBreaker) :
    UpstreamWorld where
  client := .init server circuitBreaker
  exchanges := []
  log := []

variable (w : UpstreamWorld)

def setProgress (exchange : ℕ) (progress : Progress) : UpstreamWorld :=
  { w with exchanges := w.exchanges.modify exchange fun e => { e with progress := progress } }

def forward (caller : Caller) (options : UpstreamRequestOptions) (now : ℕ) : UpstreamWorld :=
  let r := w.client.forward options now
  match r.2 with
  | some headers =>
      { client := r.1
        exchanges := w.exchanges ++ [⟨caller, options.body, .awaiting⟩]
        log := .sent caller options.sessionId headers :: w.log }
  | none =>
      let refusal := "Circuit breaker open for server \"" ++ w.client.server.id ++
        "\" — request rejected to prevent cascade"
      { w with
        client := r.1
        exchanges := w.exchanges ++ [⟨caller, options.body, .settled (.error refusal)⟩] }

def respond (exchange : ℕ) (e : Exchange) (response : FetchResponse) : UpstreamWorld :=
  { w.setProgress exchange (.reading response) with
    client := w.client.captureSession response
    log := .answered e.caller response.sessionId :: w.log }

def settle (exchange : ℕ) (result : Except String UpstreamResponse) (now : ℕ) : UpstreamWorld :=
  { w.setProgress exchange (.settled result) with client := w.client.finish result.toBool now }

def step : UpstreamAct → Option UpstreamWorld
  | .forward caller options now => some (w.forward caller options now)
  | .respond exchange response =>
      w.exchanges[exchange]?.bind fun e =>
        match e.progress with
        | .awaiting => some (w.respond exchange e response)
        | _ => none
  | .read exchange now =>
      w.exchanges[exchange]?.bind fun e =>
        match e.progress with
        | .reading response =>
            some (w.settle exchange (w.client.readBody e.body response) now)
        | _ => none
  | .fail exchange error now =>
      w.exchanges[exchange]?.bind fun e =>
        match e.progress with
        | .settled _ => none
        | _ => some (w.settle exchange (.error error) now)
  | .openSseStream caller presented extraHeaders =>
      some { w with
        log := .sent caller presented (w.client.openSseHeaders extraHeaders) :: w.log }

end UpstreamWorld

def issued? : UpstreamEvent → Option (Caller × String)
  | .answered caller sessionId => (sessionId.filter (· ≠ "")).map fun id => (caller, id)
  | .sent _ _ _ => none

-- the last answer that issued a session id, and the caller it went to
def lastIssued (log : List UpstreamEvent) : Option (Caller × String) := log.findSome? issued?

-- a client that presents no session id is sent with none, or with one issued to it before
def OwnSession (earlier : List UpstreamEvent) : UpstreamEvent → Prop
  | .sent (.client clientId) none headers => ∀ id ∈ sessionIds headers,
      .answered (.client clientId) (some id) ∈ earlier
  | _ => True

def SessionsApart : List UpstreamEvent → Prop
  | [] => True
  | e :: earlier => OwnSession earlier e ∧ SessionsApart earlier

namespace UpstreamWorld

variable {w w' : UpstreamWorld}

def Undisturbed (w : UpstreamWorld) (caller : Caller) (presented : Option String)
    (extraHeaders : Headers) : Prop :=
  match caller, presented with
  | .client clientId, none => w.client.Unnamed extraHeaders ∧
      ∀ last ∈ lastIssued w.log, last.1 = .client clientId
  | _, _ => True

-- a client presents its session id, or the last one issued was issued to itself
def Attributed (w : UpstreamWorld) : UpstreamAct → Prop
  | .forward caller options _ => w.Undisturbed caller options.sessionId options.extraHeaders
  | .openSseStream caller presented extraHeaders => w.Undisturbed caller presented extraHeaders
  | _ => True

instance Undisturbed.decidable (w : UpstreamWorld) (extraHeaders : Headers) :
    ∀ caller presented, Decidable (w.Undisturbed caller presented extraHeaders)
  | .client clientId, none => inferInstanceAs (Decidable (w.client.Unnamed extraHeaders ∧
      ∀ last ∈ lastIssued w.log, last.1 = .client clientId))
  | .client _, some _ => isTrue trivial
  | .gateway, _ => isTrue (by simp [Undisturbed])

instance Attributed.decidable (w : UpstreamWorld) : ∀ act, Decidable (w.Attributed act)
  | .forward caller options _ =>
      inferInstanceAs (Decidable (w.Undisturbed caller options.sessionId options.extraHeaders))
  | .openSseStream caller presented extraHeaders =>
      inferInstanceAs (Decidable (w.Undisturbed caller presented extraHeaders))
  | .respond _ _ => isTrue trivial
  | .read _ _ => isTrue trivial
  | .fail _ _ _ => isTrue trivial

-- the stored session is the one issued last
def Current (w : UpstreamWorld) : Prop := w.client.sessionId = (lastIssued w.log).map Prod.snd

theorem mem_of_lastIssued {log : List UpstreamEvent} {caller : Caller} {id : String}
    (h : lastIssued log = some (caller, id)) : .answered caller (some id) ∈ log := by
  obtain ⟨e, he, hissued⟩ := List.exists_of_findSome?_eq_some h
  cases e with
  | sent => cases hissued
  | answered c sessionId =>
      obtain ⟨id', hid, heq⟩ := Option.map_eq_some_iff.mp hissued
      obtain ⟨rfl, rfl⟩ := Prod.mk.inj heq
      rw [(Option.filter_eq_some_iff.mp hid).1] at he
      exact he

theorem Current.own_session (h : w.Current) {clientId : String} {headers : Headers}
    (hlast : ∀ last ∈ lastIssued w.log, last.1 = .client clientId)
    (hheaders : sessionIds headers = (w.client.sessionId.filter (· ≠ "")).toList) :
    OwnSession w.log (.sent (.client clientId) none headers) := by
  intro id hid
  rw [hheaders, Option.mem_toList, Option.filter_eq_some_iff, h] at hid
  obtain ⟨⟨caller, id'⟩, hissued, rfl⟩ := Option.map_eq_some_iff.mp hid.1
  have hcaller : caller = .client clientId := hlast _ hissued
  subst hcaller
  exact mem_of_lastIssued hissued

structure Apart (w : UpstreamWorld) : Prop where
  current : w.Current
  apart : SessionsApart w.log

theorem apart_init (server : ServerConfig) (circuitBreaker : Option Router.CircuitBreaker) :
    (init server circuitBreaker).Apart := ⟨rfl, trivial⟩

theorem Current.sends (h : w.Current) {caller : Caller} {presented : Option String}
    {extraHeaders headers : Headers} (hguard : w.Undisturbed caller presented extraHeaders)
    (hheaders : presented = none → w.client.Unnamed extraHeaders →
      sessionIds headers = (w.client.sessionId.filter (· ≠ "")).toList) :
    OwnSession w.log (.sent caller presented headers) := by
  cases caller with
  | gateway => trivial
  | client clientId =>
      cases presented with
      | some _ => trivial
      | none => exact h.own_session hguard.2 (hheaders rfl hguard.1)

theorem Apart.forward (h : w.Apart) {caller : Caller} {options : UpstreamRequestOptions} {now : ℕ}
    (hguard : w.Undisturbed caller options.sessionId options.extraHeaders) :
    (w.forward caller options now).Apart := by
  have hstored := w.client.sessionId_forward options now
  unfold UpstreamWorld.forward
  dsimp only
  split
  next headers hheaders =>
    refine ⟨hstored.trans h.current, h.current.sends hguard fun hnone hclean => ?_, h.apart⟩
    rw [w.client.headers_of_forward hheaders, McpClient.sessionIds_forwardHeaders hclean, hnone,
      Option.none_or]
  next => exact ⟨hstored.trans h.current, h.apart⟩

theorem Apart.respond (h : w.Apart) (exchange : ℕ) (e : Exchange) (response : FetchResponse) :
    (w.respond exchange e response).Apart := by
  refine ⟨?_, trivial, h.apart⟩
  have hstored := h.current
  unfold Current at hstored ⊢
  unfold UpstreamWorld.respond McpClient.captureSession lastIssued
  rw [List.findSome?_cons, issued?]
  cases response.sessionId.filter (· ≠ "") with
  | some id => rfl
  | none => exact hstored

theorem Apart.settle (h : w.Apart) (exchange : ℕ) (result : Except String UpstreamResponse)
    (now : ℕ) : (w.settle exchange result now).Apart :=
  ⟨(w.client.sessionId_finish result.toBool now).trans h.current, h.apart⟩

theorem Apart.step (h : w.Apart) (act : UpstreamAct) (hguard : w.Attributed act)
    (hstep : w.step act = some w') : w'.Apart := by
  cases act with
  | forward caller options now =>
      obtain rfl := Option.some.inj hstep
      exact h.forward hguard
  | respond exchange response =>
      obtain ⟨e, -, hprogress⟩ := Option.bind_eq_some_iff.mp hstep
      split at hprogress
      · obtain rfl := Option.some.inj hprogress
        exact h.respond exchange e response
      · cases hprogress
  | read exchange now =>
      obtain ⟨e, -, hprogress⟩ := Option.bind_eq_some_iff.mp hstep
      split at hprogress
      · obtain rfl := Option.some.inj hprogress
        exact h.settle exchange _ now
      · cases hprogress
  | fail exchange error now =>
      obtain ⟨e, -, hprogress⟩ := Option.bind_eq_some_iff.mp hstep
      split at hprogress
      · cases hprogress
      · obtain rfl := Option.some.inj hprogress
        exact h.settle exchange _ now
  | openSseStream caller presented extraHeaders =>
      obtain rfl := Option.some.inj hstep
      refine ⟨h.current, h.current.sends hguard fun _ hclean => ?_, h.apart⟩
      exact McpClient.sessionIds_openSseHeaders hclean

theorem sessions_apart (server : ServerConfig) (circuitBreaker : Option Router.CircuitBreaker)
    (acts : List UpstreamAct) (w : UpstreamWorld)
    (hguard : Transition.Along step Attributed (init server circuitBreaker) acts)
    (hrun : Transition.run step (init server circuitBreaker) acts = some w) :
    SessionsApart w.log :=
  have hapart : w.Apart := Transition.run_invariant step
    (fun _ act _ hs hact hstep => Apart.step hs act hact hstep)
    (apart_init server circuitBreaker) hguard hrun
  hapart.apart

section Example

def crm : ServerConfig where
  id := "crm"
  url := "https://crm.example"

def listTools (clientId : String) (sessionId : Option String) : UpstreamAct :=
  .forward (.client clientId)
    ⟨.obj [("method", .str "tools/list")], .empty, sessionId⟩ 0

-- the first client's handshake, and what the clients ask for after it
def handshake (others : List UpstreamAct) : List UpstreamAct :=
  listTools "a" none :: .respond 0 { status := 200, ok := true, sessionId := some "s-1" } :: others

def lastWorld (acts : List UpstreamAct) : UpstreamWorld :=
  (Transition.run step (init crm none) acts).getD (init crm none)

theorem sessions_apart_presented :
    SessionsApart (lastWorld (handshake [listTools "b" (some "s-2"), listTools "a" none])).log :=
  sessions_apart crm none (handshake [listTools "b" (some "s-2"), listTools "a" none]) _
    (by decide) rfl

theorem log_handshake :
    (lastWorld (handshake [])).log =
      [.answered (.client "a") (some "s-1"), .sent (.client "a") none
        ((McpClient.init crm none).forwardHeaders ⟨.obj [("method", .str "tools/list")], .empty,
          none⟩)] := rfl

-- the second client's request is sent in the session of the first
theorem session_shared : ∃ w,
    Transition.run step (init crm none) (handshake [listTools "b" none]) = some w ∧
      ¬ SessionsApart w.log := by
  refine ⟨_, rfl, fun hapart => ?_⟩
  have hown : .answered (.client "b") (some "s-1") ∈ (lastWorld (handshake [])).log :=
    hapart.1 "s-1" (by decide)
  rw [log_handshake] at hown
  simp at hown

end Example

end UpstreamWorld

end Conduit.Proxy
