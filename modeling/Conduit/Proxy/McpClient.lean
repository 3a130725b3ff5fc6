import Conduit.Foundation.Text
import Conduit.Gateway.Operations
import Conduit.Router.CircuitBreaker

namespace Conduit.Proxy

open Gateway Router

abbrev Headers := Identity.Headers

-- Object.assign
def Headers.assign (target source : Headers) : Headers :=
  source.entries.foldl (fun target e => target.set e.1 e.2) target

-- what `fetch` resolves to; `parsed` is what JSON.parse makes of the text
structure FetchResponse where
  status : ℕ
  ok : Bool
  sessionId : Option String := none
  contentType : Option String := none
  text : String := ""
  parsed : Option Json := none

def FetchResponse.isStream (response : FetchResponse) : Bool :=
  decide ("text/event-stream".toList <:+: (response.contentType.getD "").toList)

structure McpClient where
  server : ServerConfig
  sessionId : Option String
  activeConnections : ℕ
  circuitBreaker : Option CircuitBreaker

namespace McpClient

def init (server : ServerConfig) (circuitBreaker : Option CircuitBreaker) : McpClient where
  server := server
  sessionId := none
  activeConnections := 0
  circuitBreaker := circuitBreaker

variable (C : McpClient)

def withServerHeaders (headers : Headers) : Headers :=
  match C.server.headers with
  | some serverHeaders => headers.assign serverHeaders
  | none => headers

def withSession (headers : Headers) (sessionId : Option String) : Headers :=
  match sessionId.filter (· ≠ "") with
  | some id => headers.set "Mcp-Session-Id" id
  | none => headers

-- the request line of a POST; an empty session id hides the stored one
def forwardHeaders (options : UpstreamRequestOptions) : Headers :=
  let headers : Headers :=
    (OrderedMap.empty.set "Content-Type" "application/json").set "Accept"
      "application/json, text/event-stream"
  let effectiveSessionId := options.sessionId.or C.sessionId
  (withSession (C.withServerHeaders headers) effectiveSessionId).assign options.extraHeaders

def openSseHeaders (extraHeaders : Headers) : Headers :=
  (withSession (C.withServerHeaders (OrderedMap.empty.set "Accept" "text/event-stream"))
    C.sessionId).assign extraHeaders

def canExecute (now : ℕ) : McpClient × Bool :=
  match C.circuitBreaker with
  | some breaker =>
      let r := breaker.canExecute now
      ({ C with circuitBreaker := some r.1 }, r.2)
  | none => (C, true)

-- `none` is the refusal of the circuit breaker
def forward (options : UpstreamRequestOptions) (now : ℕ) : McpClient × Option Headers :=
  let r := C.canExecute now
  if r.2 then
    ({ r.1 with activeConnections := r.1.activeConnections + 1 }, some (r.1.forwardHeaders options))
  else (r.1, none)

def captureSession (response : FetchResponse) : McpClient :=
  match response.sessionId.filter (· ≠ "") with
  | some id => { C with sessionId := some id }
  | none => C

-- what the caller is given once the text of the answer has been read
def readBody (body : Json) (response : FetchResponse) : Except String UpstreamResponse :=
  if response.isStream then
    .ok { body := .null, sessionId := response.sessionId, isStream := true,
          rawResponse := some response.text }
  else if Text.trim response.text = "" then
    .ok { body := .null, sessionId := response.sessionId }
  else
    match response.parsed with
    | some answer => .ok { body := answer, sessionId := response.sessionId }
    | none =>
        if isJsonRpcNotification body && response.ok then
          .ok { body := .null, sessionId := response.sessionId }
        else
          .error ("Le serveur en amont \"" ++ C.server.id ++
            "\" a retourné une réponse non-JSON (HTTP " ++ toString response.status ++ ")")

def onSuccess : McpClient :=
  { C with circuitBreaker := C.circuitBreaker.map CircuitBreaker.onSuccess }

def onFailure (now : ℕ) : McpClient :=
  { C with circuitBreaker := C.circuitBreaker.map fun breaker => breaker.onFailure now }

-- the end of `forward`, successful or not
def finish (succeeded : Bool) (now : ℕ) : McpClient :=
  let settled := if succeeded then C.onSuccess else C.onFailure now
  { settled with activeConnections := settled.activeConnections - 1 }

@[simp] theorem sessionId_canExecute (now : ℕ) : (C.canExecute now).1.sessionId = C.sessionId := by
  unfold canExecute
  split <;> rfl

@[simp] theorem server_canExecute (now : ℕ) : (C.canExecute now).1.server = C.server := by
  unfold canExecute
  split <;> rfl

@[simp] theorem sessionId_finish (succeeded : Bool) (now : ℕ) :
    (C.finish succeeded now).sessionId = C.sessionId := by
  unfold finish
  split <;> rfl

theorem sessionId_forward (options : UpstreamRequestOptions) (now : ℕ) :
    (C.forward options now).1.sessionId = C.sessionId := by
  unfold forward
  dsimp only
  split <;> exact C.sessionId_canExecute now

theorem headers_of_forward {options : UpstreamRequestOptions} {now : ℕ} {headers : Headers}
    (h : (C.forward options now).2 = some headers) : headers = C.forwardHeaders options := by
  unfold forward at h
  dsimp only at h
  split at h
  · rw [← Option.some.inj h]
    simp [forwardHeaders, withServerHeaders]
  · cases h

end McpClient

end Conduit.Proxy
