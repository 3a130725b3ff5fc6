import Conduit.Proxy.Transport

namespace Conduit.Proxy

open Gateway

-- what the gateway answers to a message, whatever else is in the batch
abbrev Answering := String → Json → RequestContext → Outcome

def Handling.respondTo (answer : Answering) : Handling → Option HttpResponse
  | .reply response => some response
  | .requests sent respond =>
      some (respond (sent.map fun request =>
        answer request.serverId request.message request.context))
  | .openSseStream _ _ _ => none

section Entries

variable (answer : Json → Outcome)

def invalidEntry (id : Json) : Json :=
  buildJsonRpcError id invalidRequest "Invalid JSON-RPC message in batch entry" none

def entryBody (entry : BatchEntry) : Json :=
  match entryMessage entry with
  | some message => entryResult message (answer message)
  | none => invalidEntry ((invalidEntryId entry).getD .null)

theorem batchResults_eq_map (entries : List BatchEntry) :
    batchResults entries ((entries.filterMap entryMessage).map answer) =
      entries.map (entryBody answer) := by
  induction entries with
  | nil => rfl
  | cons entry entries ih =>
      cases hentry : entryMessage entry with
      | none =>
          have hbody : entryBody answer entry = invalidEntry ((invalidEntryId entry).getD .null) := by
            simp only [entryBody, hentry]
          rw [List.filterMap_cons_none hentry, List.map_cons, ← ih, hbody]
          simp only [batchResults, hentry]
          rfl
      | some message =>
          have hbody : entryBody answer entry = entryResult message (answer message) := by
            simp only [entryBody, hentry]
          rw [List.filterMap_cons_some hentry, List.map_cons, List.map_cons, ← ih, hbody]
          simp only [batchResults, hentry]

theorem entryBody_of_not_valid {item : Json} (h : isValidJsonRpc item = false) :
    entryBody answer (parseBatchEntry item) = invalidEntry (rawEntryId item) := by
  rw [parseBatchEntry, h]
  rfl

-- a message with `invalid: true` is taken for a refused entry
def marked (item : Json) : Prop := item.get? "invalid" = some (.bool true)

theorem entryBody_of_valid {item : Json} (hvalid : isValidJsonRpc item = true)
    (hmarked : ¬ marked item) :
    entryBody answer (parseBatchEntry item) = entryResult item (answer item) := by
  have hmessage : entryMessage (.message item) = some item := if_neg hmarked
  rw [parseBatchEntry, if_pos hvalid, entryBody, hmessage]

end Entries

-- a batch that is read and not too long
structure PostsBatch (r : HttpRequest) (items : List Json) : Prop where
  fits : r.tooLarge = false
  body : r.parsed = some (.arr items)
  nonempty : items ≠ []
  bounded : items.length ≤ maxBatchSize

-- a request with the headers of a batch for one element of it
structure PostsAlone (r single : HttpRequest) (item : Json) : Prop where
  headers : single.headers = r.headers
  generatedTraceId : single.generatedTraceId = r.generatedTraceId
  fits : single.tooLarge = false
  body : single.parsed = some item

variable {r single : HttpRequest} {serverId : String} {items : List Json} {item : Json}
variable {answer : Answering}

theorem PostsAlone.traceId (h : PostsAlone r single item) : single.traceId = r.traceId := by
  rw [HttpRequest.traceId, h.headers, h.generatedTraceId]
  rfl

theorem PostsAlone.requestContext (h : PostsAlone r single item) :
    single.requestContext = r.requestContext := by
  rw [HttpRequest.requestContext, h.traceId, h.headers]
  rfl

def batchHeaders (r : HttpRequest) (serverId : String) : List (String × String) :=
  [(Observability.traceHeader, r.traceId), (serverIdHeader, serverId)]

theorem respondTo_batch (h : PostsBatch r items) :
    (handleMcpRequest r serverId).respondTo answer =
      some (jsonResponse 200 (batchHeaders r serverId) (.arr (items.map fun item =>
        entryBody (fun message => answer serverId message r.requestContext)
          (parseBatchEntry item)))) := by
  have hrequests : ∀ messages : List Json,
      (messages.mapIdx fun i message => r.request serverId message i).map
        (fun request => answer request.serverId request.message request.context) =
      messages.map fun message => answer serverId message r.requestContext := by
    intro messages
    refine List.ext_getElem? fun i => ?_
    simp only [List.getElem?_map, List.getElem?_mapIdx, Option.map_map]
    rfl
  have hbatch : handleMcpRequest r serverId = handleBatch r serverId items := by
    rw [handleMcpRequest, h.fits, h.body]
    rfl
  rw [hbatch, handleBatch, if_neg h.nonempty, if_neg (not_lt.mpr h.bounded)]
  dsimp only [Handling.respondTo]
  rw [hrequests, batchResults_eq_map, parseJsonRpcBatchPartial, List.map_map]
  rfl

theorem respondTo_single (h : PostsAlone r single item) (hvalid : isValidJsonRpc item = true) :
    (handleMcpRequest single serverId).respondTo answer =
      some (singleResponse r.traceId serverId item (answer serverId item r.requestContext)) := by
  have hobject : ∀ items, item ≠ .arr items := by
    rintro items rfl
    cases hvalid
  have hmessage : handleMcpRequest single serverId = handleMessage single serverId item := by
    rw [handleMcpRequest, h.fits, h.body]
    cases item with
    | arr items => exact absurd rfl (hobject items)
    | _ => rfl
  rw [hmessage, handleMessage, if_pos hvalid]
  dsimp only [Handling.respondTo, List.map_cons, List.map_nil]
  rw [h.traceId]
  dsimp only [HttpRequest.request]
  rw [h.requestContext]
  rfl

-- what a message is answered by itself, when that is JSON, is what it is answered in a batch
theorem entryResult_of_json {traceId : String} {out : Outcome} {body : Json}
    (h : (singleResponse traceId serverId item out).body = .json body)
    (hnotification : isNotificationMessage item = false) : entryResult item out = body := by
  cases out with
  | thrown error origin =>
      cases h
      rfl
  | answered result =>
      dsimp only [singleResponse] at h
      rw [hnotification, Bool.and_false] at h
      split at h
      · cases h
      · cases h
        rfl

-- what the batch has for an element
structure Contribution (answer : Answering) (serverId : String) (r : HttpRequest) (item : Json)
    (bodies : List Json) : Prop where
  refused : isValidJsonRpc item = false → bodies = [invalidEntry (rawEntryId item)]
  alone : isValidJsonRpc item = true → ¬ marked item → isNotificationMessage item = false →
    ∀ single response body, PostsAlone r single item →
      (handleMcpRequest single serverId).respondTo answer = some response →
      response.body = .json body → bodies = [body]
  failed : isValidJsonRpc item = true → ¬ marked item → isNotificationMessage item = false →
    ∀ error origin, answer serverId item r.requestContext = .thrown error origin →
      bodies = [buildJsonRpcError (messageId item) internalError error none]

theorem contribution_entryBody (answer : Answering) (serverId : String) (r : HttpRequest)
    (item : Json) : Contribution answer serverId r item
      [entryBody (fun message => answer serverId message r.requestContext) (parseBatchEntry item)] where
  refused hinvalid := by rw [entryBody_of_not_valid _ hinvalid]
  alone hvalid hmarked hnotification single response body hsingle hresponse hbody := by
    rw [respondTo_single hsingle hvalid] at hresponse
    cases hresponse
    rw [entryBody_of_valid _ hvalid hmarked, entryResult_of_json hbody hnotification]
  failed hvalid hmarked _ error origin hthrown := by
    rw [entryBody_of_valid _ hvalid hmarked, hthrown]
    rfl

theorem batch_contributions (h : PostsBatch r items) : ∃ contributions,
    (handleMcpRequest r serverId).respondTo answer =
      some (jsonResponse 200 (batchHeaders r serverId) (.arr contributions.flatten)) ∧
    List.Forall₂ (Contribution answer serverId r) items contributions := by
  let body := fun item =>
    entryBody (fun message => answer serverId message r.requestContext) (parseBatchEntry item)
  refine ⟨items.map fun item => [body item], ?_, ?_⟩
  · rw [respondTo_batch h, ← List.flatMap_def, ← List.map_eq_flatMap]
  · exact List.forall₂_map_right_iff.mpr
      (List.forall₂_same.mpr fun item _ => contribution_entryBody answer serverId r item)

section Example

def postOf (body : Json) : HttpRequest where
  route := .postServer "crm"
  headers := .empty
  body := some { chunks := [], parsed := some body }
  generatedTraceId := "t"
  firstCall := 0

-- an element that is no message, a request and a notification
def mixedItems : List Json :=
  [.obj [("id", .ofNat 7)],
    .obj [("jsonrpc", .str "2.0"), ("id", .ofNat 1), ("method", .str "prompts/list")],
    .obj [("jsonrpc", .str "2.0"), ("method", .str "notifications/cancelled")]]

def echo : Answering := fun _ message _ =>
  .answered { body := buildJsonRpcResult (messageId message) (.obj []) }

theorem postsBatch_mixed : PostsBatch (postOf (.arr mixedItems)) mixedItems :=
  ⟨by decide, rfl, by decide, by decide⟩

theorem batch_contributions_mixed : ∃ contributions,
    (handleMcpRequest (postOf (.arr mixedItems)) "crm").respondTo echo =
      some (jsonResponse 200 (batchHeaders (postOf (.arr mixedItems)) "crm")
        (.arr contributions.flatten)) ∧
    List.Forall₂ (Contribution echo "crm" (postOf (.arr mixedItems))) mixedItems contributions :=
  batch_contributions postsBatch_mixed

-- alone, the first element is refused without its id and in other words
theorem refused_element_differs :
    PostsBatch (postOf (.arr [.obj [("id", .ofNat 7)]])) [.obj [("id", .ofNat 7)]] ∧
    PostsAlone (postOf (.arr [.obj [("id", .ofNat 7)]])) (postOf (.obj [("id", .ofNat 7)]))
      (.obj [("id", .ofNat 7)]) ∧
    ∃ batch single body,
      (handleMcpRequest (postOf (.arr [.obj [("id", .ofNat 7)]])) "crm").respondTo echo =
        some batch ∧
      (handleMcpRequest (postOf (.obj [("id", .ofNat 7)])) "crm").respondTo echo = some single ∧
      single.body = .json body ∧ batch.body ≠ .json (.arr [body]) := by
  refine ⟨⟨by decide, rfl, by decide, by decide⟩, ⟨rfl, rfl, by decide, rfl⟩,
    _, _, _, rfl, rfl, rfl, fun h => ?_⟩
  exact absurd (ResponseBody.json.inj h) (by decide)

end Example

end Conduit.Proxy
