import Conduit.Connect.Registry
import Conduit.Proxy.JsonRpc

namespace Conduit.Connect

open Proxy

inductive InstallationAuth where
  | none
  | bearer (headerName tokenPrefix : String)
deriving DecidableEq, Repr

structure ConnectLocalInstallation where
  id : String
  baseUrl : String
  auth : InstallationAuth

inductive ParsedJsonRpc where
  | single (message : Json)
  | batch (messages : List Json)
deriving DecidableEq

def ParsedJsonRpc.messages : ParsedJsonRpc → List Json
  | .single message => [message]
  | .batch messages => messages

def parseJsonRpc : Json → Option ParsedJsonRpc
  | .arr items =>
      if items = [] ∨ maxBatchSize < items.length then none
      else if items.all isValidJsonRpc then some (.batch items) else none
  | body => if isValidJsonRpc body then some (.single body) else none

structure RelayRequest where
  url : String
  headers : List (String × String)
  body : Json

inductive RelayFetch where
  | failed (message : String)
  | response (status : ℕ) (text : String)

inductive RelayReply where
  | silent
  | one (message : Json)
  | many (messages : List Json)
deriving DecidableEq

def RelayReply.messages : RelayReply → List Json
  | .silent => []
  | .one message => [message]
  | .many messages => messages

-- the relay with its surroundings: `fetch` is what the gateway does with the request for each
-- message of a line, and `race` the failure of a batch that is noticed first
structure Relay where
  parse : String → Option Json
  installation : ConnectLocalInstallation
  serverId : String
  secret : Except String (Option String)
  fetch : ℕ → RelayRequest → RelayFetch
  race : List String → String

-- a message without an id that is no response either
def awaitsNothing (message : Json) : Bool :=
  messageId message == .null && message.has "method" && !message.has "result" &&
    !message.has "error"

namespace Relay

variable (R : Relay)

def requestHeaders : Except String (List (String × String)) :=
  match R.installation.auth with
  | .none => return [("Content-Type", "application/json")]
  | .bearer headerName tokenPrefix => do
      match (← R.secret).filter (· ≠ "") with
      | none =>
          throw ("Missing stored token for installation \"" ++ R.installation.id ++ "\"")
      | some secret =>
          return [("Content-Type", "application/json"), (headerName, tokenPrefix ++ secret)]

def receive : RelayFetch → Except String (Option Json)
  | .failed message => throw message
  | .response status text =>
      if Text.trim text = "" then return none
      else
        match R.parse text with
        | none => throw ("Non-JSON response from Conduit upstream (" ++ toString status ++ ")")
        | some parsed =>
            match parseJsonRpc parsed with
            | some (.single message) => return some message
            | _ =>
                throw ("Invalid JSON-RPC response from Conduit upstream (" ++ toString status ++ ")")

-- what the gateway gives to the message, if there is a gateway and it can be asked
def exchange (i : ℕ) (message : Json) : Except String (Option Json) := do
  let headers ← R.requestHeaders
  R.receive (R.fetch i
    ⟨R.installation.baseUrl ++ "/mcp/" ++ encodeURIComponent R.serverId, headers, message⟩)

def forwardRelayMessage (i : ℕ) (message : Json) : Except String (Option Json) := do
  let answer ← R.exchange i message
  return if awaitsNothing message then none else answer

def errorId (message : Json) : Json :=
  if (rpcId? (messageId message)).isSome then messageId message else .null

def failure? : Except String (Option Json) → Option String
  | .error message => some message
  | .ok _ => none

def answer? : Except String (Option Json) → Option Json
  | .error _ => none
  | .ok answer => answer

def processParsed : ParsedJsonRpc → RelayReply
  | .batch messages =>
      let results := messages.mapIdx R.forwardRelayMessage
      if results.filterMap failure? = [] then .many (results.filterMap answer?)
      else
        .one (buildJsonRpcError .null internalError (R.race (results.filterMap failure?)) none)
  | .single message =>
      match R.forwardRelayMessage 0 message with
      | .ok none => .silent
      | .ok (some answer) => .one answer
      | .error error => .one (buildJsonRpcError (errorId message) internalError error none)

def processRelayLine (line : String) : RelayReply :=
  match R.parse line with
  | none => .one (buildJsonRpcError .null parseError "Invalid JSON" none)
  | some raw =>
      match parseJsonRpc raw with
      | none => .one (buildJsonRpcError .null invalidRequest "Invalid JSON-RPC message" none)
      | some parsed => R.processParsed parsed

end Relay

def isRequest (message : Json) : Bool :=
  (method? message).isSome && (rpcId? (messageId message)).isSome

def isResponse (message : Json) : Bool := message.has "result" || message.has "error"

-- one response for each request of the line with its id, and none for anything else
structure AnsweredOnce (messages : List Json) (reply : RelayReply) : Prop where
  ids : (reply.messages.map messageId).Perm ((messages.filter isRequest).map messageId)
  responses : ∀ answer ∈ reply.messages, isResponse answer = true
  silent : messages.filter isRequest = [] → reply = .silent

namespace Relay

variable (R : Relay)

def exchanges (messages : List Json) : List (Json × Except String (Option Json)) :=
  messages.mapIdx fun i message => (message, R.exchange i message)

-- what the gateway answers to the requests
def given (messages : List Json) : List Json :=
  (R.exchanges messages).filterMap fun e => if isRequest e.1 then answer? e.2 else none

-- a lone message must not fail unless it is a request, and a lone request needs an answer of its
-- own; in a batch nothing may fail, every request needs its answer, and there must be a request
def Obliged : ParsedJsonRpc → Prop
  | .single message =>
      if isRequest message then
        ∀ answer, R.exchange 0 message = .ok answer →
          ∃ response, answer = some response ∧ messageId response = messageId message ∧
            isResponse response = true
      else failure? (R.exchange 0 message) = none
  | .batch messages =>
      (∃ message ∈ messages, isRequest message = true) ∧
        (∀ e ∈ R.exchanges messages, failure? e.2 = none) ∧
        ((R.given messages).map messageId).Perm ((messages.filter isRequest).map messageId) ∧
        ∀ answer ∈ R.given messages, isResponse answer = true

variable {R} {messages : List Json} {message : Json}

theorem rpcId?_of_awaitsNothing (h : awaitsNothing message = true) :
    rpcId? (messageId message) = none := by
  simp only [awaitsNothing, Bool.and_eq_true, beq_iff_eq] at h
  rw [h.1.1.1]
  rfl

theorem isRequest_eq (h : isRequest message = true ∨ awaitsNothing message = true) :
    isRequest message = !awaitsNothing message := by
  cases hawaits : awaitsNothing message with
  | true => simp [isRequest, rpcId?_of_awaitsNothing hawaits]
  | false => simpa [hawaits] using h

theorem failure?_forward (i : ℕ) (message : Json) :
    failure? (R.forwardRelayMessage i message) = failure? (R.exchange i message) := by
  unfold forwardRelayMessage
  cases R.exchange i message with
  | error e => rfl
  | ok answer => rfl

theorem answer?_forward (i : ℕ) (message : Json) :
    answer? (R.forwardRelayMessage i message) =
      if awaitsNothing message then none else answer? (R.exchange i message) := by
  unfold forwardRelayMessage
  cases R.exchange i message with
  | error e => split <;> rfl
  | ok answer => rfl

theorem map_mapIdx {α β γ : Type} (f : ℕ → α → β) (g : β → γ) (xs : List α) :
    (xs.mapIdx f).map g = xs.mapIdx fun i x => g (f i x) := by
  refine List.ext_getElem? fun i => ?_
  rw [List.getElem?_map, List.getElem?_mapIdx, List.getElem?_mapIdx, Option.map_map]
  rfl

theorem fst_exchanges (messages : List Json) : (R.exchanges messages).map Prod.fst = messages := by
  rw [exchanges, map_mapIdx]
  exact List.ext_getElem? fun i => by simp

theorem failures_eq (messages : List Json) :
    (messages.mapIdx R.forwardRelayMessage).filterMap failure? =
      (R.exchanges messages).filterMap fun e => failure? e.2 := by
  have hmaps : (messages.mapIdx R.forwardRelayMessage).map failure? =
      (R.exchanges messages).map fun e => failure? e.2 := by
    rw [exchanges, map_mapIdx, map_mapIdx]
    simp only [failure?_forward]
  have hjoined := congrArg (List.filterMap id) hmaps
  simpa [List.filterMap_map] using hjoined

theorem answers_eq (hkinds : ∀ message ∈ messages,
    isRequest message = true ∨ awaitsNothing message = true) :
    (messages.mapIdx R.forwardRelayMessage).filterMap answer? = R.given messages := by
  have hmaps : (messages.mapIdx R.forwardRelayMessage).map answer? =
      (R.exchanges messages).map fun e => if awaitsNothing e.1 then none else answer? e.2 := by
    rw [exchanges, map_mapIdx, map_mapIdx]
    simp only [answer?_forward]
  have hjoined := congrArg (List.filterMap id) hmaps
  rw [List.filterMap_map, List.filterMap_map] at hjoined
  refine hjoined.trans (List.filterMap_congr fun e he => ?_)
  have hmem : e.1 ∈ messages := fst_exchanges (R := R) messages ▸ List.mem_map_of_mem he
  have hrequest := isRequest_eq (hkinds e.1 hmem)
  cases hawaits : awaitsNothing e.1 with
  | true => simp [hrequest, hawaits]
  | false => simp [hrequest, hawaits]

theorem not_answeredOnce_error {code : ℤ} {text : String} :
    ¬ AnsweredOnce messages (.one (buildJsonRpcError .null code text none)) := by
  intro h
  have hlength : 1 = (messages.filter isRequest).length := by
    simpa [RelayReply.messages] using h.ids.length_eq
  obtain ⟨request, hrequests⟩ := List.length_eq_one_iff.mp hlength.symm
  have hrequest : isRequest request = true := by
    have hmem : request ∈ messages.filter isRequest := by simp [hrequests]
    exact (List.mem_filter.mp hmem).2
  have hids := h.ids
  rw [hrequests] at hids
  have hnull : messageId request = .null := (List.perm_singleton.mp hids.symm |> List.singleton_inj.mp)
  rw [isRequest, hnull, Bool.and_eq_true] at hrequest
  cases hrequest.2

theorem answeredOnce_silent_iff :
    AnsweredOnce messages .silent ↔ messages.filter isRequest = [] := by
  constructor
  · intro h
    have hlength : 0 = (messages.filter isRequest).length := by
      simpa [RelayReply.messages] using h.ids.length_eq
    exact List.length_eq_zero_iff.mp hlength.symm
  · intro h
    exact ⟨by rw [h]; exact List.Perm.refl _, by simp [RelayReply.messages], fun _ => rfl⟩

theorem answeredOnce_many_iff {answers : List Json} :
    AnsweredOnce messages (.many answers) ↔
      (∃ message ∈ messages, isRequest message = true) ∧
        (answers.map messageId).Perm ((messages.filter isRequest).map messageId) ∧
        ∀ answer ∈ answers, isResponse answer = true := by
  constructor
  · intro h
    refine ⟨?_, h.ids, h.responses⟩
    by_contra hnone
    have hnil : messages.filter isRequest = [] := by
      simpa [List.filter_eq_nil_iff] using hnone
    cases h.silent hnil
  · rintro ⟨⟨message, hmem, hrequest⟩, hids, hresponses⟩
    refine ⟨hids, hresponses, fun hnil => ?_⟩
    exact absurd hrequest (List.filter_eq_nil_iff.mp hnil message hmem)

theorem batch_answered_iff (hkinds : ∀ message ∈ messages,
    isRequest message = true ∨ awaitsNothing message = true) :
    AnsweredOnce messages (R.processParsed (.batch messages)) ↔ R.Obliged (.batch messages) := by
  have hfailures : (messages.mapIdx R.forwardRelayMessage).filterMap failure? = [] ↔
      ∀ e ∈ R.exchanges messages, failure? e.2 = none := by
    rw [failures_eq, List.filterMap_eq_nil_iff]
  rw [processParsed, Obliged]
  by_cases hnone : (messages.mapIdx R.forwardRelayMessage).filterMap failure? = []
  · simp only [hnone, if_true, answers_eq hkinds, answeredOnce_many_iff]
    have hall := hfailures.mp hnone
    tauto
  · simp only [hnone, if_false]
    exact iff_of_false not_answeredOnce_error fun h => hnone (hfailures.mpr h.2.1)

theorem answeredOnce_one_iff (hrequest : isRequest message = true) {answer : Json} :
    AnsweredOnce [message] (.one answer) ↔
      messageId answer = messageId message ∧ isResponse answer = true := by
  have hfilter : [message].filter isRequest = [message] := by simp [hrequest]
  constructor
  · intro h
    have hids := h.ids
    rw [hfilter] at hids
    exact ⟨List.singleton_inj.mp (List.perm_singleton.mp hids), h.responses answer (by
      simp [RelayReply.messages])⟩
  · rintro ⟨hid, hresponse⟩
    refine ⟨?_, by simpa [RelayReply.messages] using hresponse, fun hnil => ?_⟩
    · rw [hfilter]
      exact List.Perm.of_eq (congrArg (fun id => [id]) hid)
    · rw [hfilter] at hnil
      cases hnil

theorem processParsed_single (message : Json) :
    R.processParsed (.single message) =
      match R.exchange 0 message with
      | .ok answer =>
          if awaitsNothing message then .silent
          else
            match answer with
            | none => .silent
            | some answer => .one answer
      | .error error => .one (buildJsonRpcError (errorId message) internalError error none) := by
  rw [processParsed, forwardRelayMessage]
  cases R.exchange 0 message with
  | error e => rfl
  | ok answer =>
      change (match (.ok (if awaitsNothing message then none else answer) : Except String _) with
        | .ok none => RelayReply.silent | .ok (some answer) => .one answer | .error e => _) = _
      cases awaitsNothing message with
      | true => rfl
      | false => cases answer <;> rfl

theorem notification_answered_iff (hrequest : isRequest message = false)
    (hawaits : awaitsNothing message = true) :
    AnsweredOnce [message] (R.processParsed (.single message)) ↔
      failure? (R.exchange 0 message) = none := by
  have hnone : [message].filter isRequest = [] := by simp [hrequest]
  have hid : errorId message = .null := by
    rw [errorId, rpcId?_of_awaitsNothing hawaits]
    rfl
  rw [processParsed_single]
  cases R.exchange 0 message with
  | error e =>
      dsimp only
      rw [hid]
      exact iff_of_false not_answeredOnce_error (by simp [failure?])
  | ok answer =>
      dsimp only
      rw [if_pos hawaits]
      exact iff_of_true (answeredOnce_silent_iff.2 hnone) rfl

theorem request_answered_iff (hrequest : isRequest message = true)
    (hawaits : awaitsNothing message = false) :
    AnsweredOnce [message] (R.processParsed (.single message)) ↔
      ∀ answer, R.exchange 0 message = .ok answer →
        ∃ response, answer = some response ∧ messageId response = messageId message ∧
          isResponse response = true := by
  have hid : errorId message = messageId message := by
    rw [isRequest, Bool.and_eq_true] at hrequest
    exact if_pos hrequest.2
  rw [processParsed_single]
  cases R.exchange 0 message with
  | error e =>
      dsimp only
      rw [hid, answeredOnce_one_iff hrequest]
      exact iff_of_true ⟨rfl, rfl⟩ fun answer h => by cases h
  | ok answer =>
      simp only [hawaits, Bool.false_eq_true, if_false, Except.ok.injEq, forall_eq']
      cases answer with
      | none =>
          rw [answeredOnce_silent_iff]
          exact iff_of_false (by simp [hrequest]) (by simp)
      | some answer =>
          rw [answeredOnce_one_iff hrequest]
          simp

theorem single_answered_iff (hkind : isRequest message = true ∨ awaitsNothing message = true) :
    AnsweredOnce [message] (R.processParsed (.single message)) ↔ R.Obliged (.single message) := by
  have hawaits := isRequest_eq hkind
  rw [Obliged]
  cases hrequest : isRequest message with
  | false =>
      rw [hrequest, Eq.comm, Bool.not_eq_false'] at hawaits
      simpa using notification_answered_iff hrequest hawaits
  | true =>
      rw [hrequest, Eq.comm, Bool.not_eq_true'] at hawaits
      simpa using request_answered_iff hrequest hawaits

end Relay

theorem relay_answers_iff (R : Relay) {line : String} {parsed : ParsedJsonRpc}
    (hline : (R.parse line).bind parseJsonRpc = some parsed)
    (hkinds : ∀ message ∈ parsed.messages,
      isRequest message = true ∨ awaitsNothing message = true) :
    AnsweredOnce parsed.messages (R.processRelayLine line) ↔ R.Obliged parsed := by
  obtain ⟨raw, hraw, hparsed⟩ := Option.bind_eq_some_iff.mp hline
  have hreply : R.processRelayLine line = R.processParsed parsed := by
    rw [Relay.processRelayLine, hraw]
    dsimp only
    rw [hparsed]
  rw [hreply]
  cases parsed with
  | single message =>
      exact Relay.single_answered_iff (hkinds message (by simp [ParsedJsonRpc.messages]))
  | batch messages => exact Relay.batch_answered_iff hkinds

section Example

def listTools (id : ℕ) : Json :=
  .obj [("jsonrpc", .str "2.0"), ("id", .ofNat id), ("method", .str "tools/list")]

def noTools (id : ℕ) : Json :=
  .obj [("jsonrpc", .str "2.0"), ("id", .ofNat id), ("result", .obj [("tools", .arr [])])]

def twoLists : Json := .arr [listTools 1, listTools 2]

-- the gateway answers the first request, and does with the second what is given
def listRelay (second : RelayFetch) : Relay where
  parse := fun text => [twoLists, noTools 1, noTools 2].find? fun value => value.stringify = text
  installation := ⟨"i-1", "http://127.0.0.1:3100", .bearer "Authorization" "Bearer "⟩
  serverId := "crm"
  secret := .ok (some "sk-1")
  fetch := fun i _ => if i = 0 then .response 200 (noTools 1).stringify else second
  race := fun failures => failures.headD ""

theorem relay_answers_two_lists :
    AnsweredOnce (ParsedJsonRpc.batch [listTools 1, listTools 2]).messages
        ((listRelay (.response 200 (noTools 2).stringify)).processRelayLine twoLists.stringify) ↔
      (listRelay (.response 200 (noTools 2).stringify)).Obliged
        (.batch [listTools 1, listTools 2]) :=
  relay_answers_iff (listRelay (.response 200 (noTools 2).stringify)) (by decide +kernel)
    (by decide +kernel)

-- one failure takes the place of both answers
theorem relay_drops_answers : ∃ (R : Relay) (line : String) (parsed : ParsedJsonRpc),
    (R.parse line).bind parseJsonRpc = some parsed ∧
      (∀ message ∈ parsed.messages, isRequest message = true ∨ awaitsNothing message = true) ∧
      ¬ AnsweredOnce parsed.messages (R.processRelayLine line) := by
  refine ⟨listRelay (.failed "fetch failed"), twoLists.stringify,
    .batch [listTools 1, listTools 2], by decide +kernel, by decide +kernel, ?_⟩
  have hreply : (listRelay (.failed "fetch failed")).processRelayLine twoLists.stringify =
      .one (buildJsonRpcError .null internalError "fetch failed" none) := by decide +kernel
  rw [hreply]
  exact Relay.not_answeredOnce_error

end Example

end Conduit.Connect
