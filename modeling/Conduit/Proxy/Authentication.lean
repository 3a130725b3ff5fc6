import Conduit.Proxy.Transport

namespace Conduit.Gateway

open Program

-- operations that contact an upstream or read what one has answered
def Op.touchesUpstream : Op → Bool
  | .forward _ _ => true
  | .getAggregatedTools => true
  | .l1Get _ => true
  | .l2Get _ => true
  | .enterFlight _ => true
  | .awaitFlight _ => true
  | _ => false

def Touches : Proc Outcome → Prop
  | .pure out => out.origin.isSome = true
  | .exit out => out.origin.isSome = true
  | .op o _ => o.touchesUpstream = true

def unauthenticatedContract : Contract Op Ans Outcome where
  rely := fun _ _ => True
  emits := fun _ o => o.touchesUpstream = false
  exits := fun _ out => out.origin = none

variable {P : RequestPipeline} {request : Request}

theorem not_touches_of_meets {q : Proc Outcome} {tr : Trace}
    (h : Meets unauthenticatedContract (fun _ out => out.origin = none) q tr) : ¬ Touches q := by
  intro htouches
  cases q with
  | pure out =>
      rw [Touches, show out.origin = none from h] at htouches
      cases htouches
  | exit out =>
      rw [Touches, show out.origin = none from h] at htouches
      cases htouches
  | op o next => exact absurd htouches (by simp [Touches, show o.touchesUpstream = false from h.1])

namespace RequestPipeline

theorem runHook_unauthenticated (name : HookName) (tr : Trace) :
    Meets unauthenticatedContract (fun _ _ => True) (P.runHook name) tr := by
  unfold runHook
  split
  · refine Meets.ask_bind rfl fun response _ => ?_
    cases response with
    | none => trivial
    | some response => exact rfl
  · trivial

theorem handle_unauthenticated
    (h : (P.authResult request.context.rawHeaders).authenticated = false) :
    Meets unauthenticatedContract (fun _ out => out.origin = none) (P.handle request) [] := by
  unfold handle
  refine (runHook_unauthenticated .beforeRequest []).bind fun tr _ _ _ => ?_
  dsimp only
  rw [h]
  exact rfl

theorem authenticated_of_touches {tr : Trace} {q : Proc Outcome}
    (hsteps : Steps (P.handle request) tr q) (htouches : Touches q) :
    (P.authResult request.context.rawHeaders).authenticated = true := by
  by_contra hrejected
  have hmeets := @handle_unauthenticated P request (by simpa using hrejected)
  exact not_touches_of_meets (Meets.of_steps hmeets hsteps fun _ _ => trivial) htouches

end RequestPipeline

end Conduit.Gateway

namespace Conduit.Proxy

open Gateway Program

inductive Handling.Reaches (P : RequestPipeline) : Handling → Prop where
  | pipeline {requests : List Request} {respond : List Outcome → HttpResponse} {request : Request}
      {tr : Trace} {q : Proc Outcome} (hmem : request ∈ requests)
      (hsteps : Steps (P.handle request) tr q) (htouches : Touches q) :
      Reaches P (.requests requests respond)
  | stream {serverId : String} {extraHeaders : Identity.Headers}
      {respond : Except String SseResponse → HttpResponse} :
      Reaches P (.openSseStream serverId extraHeaders respond)

def Authenticated (core : GatewayCore) (r : HttpRequest) : Prop :=
  (core.pipeline.authResult r.headers).authenticated = true

-- a GET on a configured server whose client speaks HTTP
structure OpensStream (core : GatewayCore) (r : HttpRequest) (serverId : String) : Prop where
  route : r.route = .getServer serverId
  configured : (core.pipeline.config.server? serverId).isSome = true
  client : core.getClient serverId = some .http

-- what a handling does with its request goes through the pipeline, under the request's headers
def Delegates (r : HttpRequest) : Handling → Prop
  | .reply _ => True
  | .requests requests _ => ∀ request ∈ requests, request.context.rawHeaders = r.headers
  | .openSseStream _ _ _ => False

variable {core : GatewayCore} {r : HttpRequest}

theorem handleBatch_delegates (serverId : String) (items : List Json) :
    Delegates r (handleBatch r serverId items) := by
  unfold handleBatch
  split
  · trivial
  · split
    · trivial
    · intro request hmem
      obtain ⟨i, hi, rfl⟩ := List.mem_mapIdx.mp hmem
      rfl

theorem handleMessage_delegates (serverId : String) (message : Json) :
    Delegates r (handleMessage r serverId message) := by
  unfold handleMessage
  split
  · intro request hmem
    obtain rfl := List.mem_singleton.mp hmem
    rfl
  · trivial

theorem handleMcpRequest_delegates (serverId : String) :
    Delegates r (handleMcpRequest r serverId) := by
  unfold handleMcpRequest
  split
  · trivial
  · split
    · trivial
    · exact handleBatch_delegates ..
    · exact handleMessage_delegates ..

theorem openSse_cases (server : ServerConfig) (client : TransportType) :
    Delegates r (openSse r server client) ∨ client = .http := by
  cases client with
  | http => exact .inr rfl
  | stdio => exact .inl trivial

theorem createTransport_cases (core : GatewayCore) (r : HttpRequest) :
    Delegates r (createTransport core r) ∨ ∃ serverId, OpensStream core r serverId := by
  unfold createTransport
  dsimp only
  cases hroute : r.route with
  | postServer serverId =>
      refine .inl ?_
      dsimp only
      split
      · trivial
      · exact handleMcpRequest_delegates serverId
  | postProfile profileId =>
      refine .inl ?_
      dsimp only
      split
      · trivial
      · exact handleMcpRequest_delegates _
  | post =>
      refine .inl ?_
      dsimp only
      split
      · trivial
      · exact handleMcpRequest_delegates _
  | getServer serverId =>
      dsimp only
      split
      · exact .inl trivial
      next server hserver =>
        split
        · exact .inl trivial
        next client hclient =>
          refine (openSse_cases server client).imp_right fun hhttp => ?_
          exact ⟨serverId, hroute, by rw [hserver]; rfl, hhttp ▸ hclient⟩
  | getProfile profileId =>
      refine .inl ?_
      dsimp only
      split <;> trivial

theorem reaches_of_opensStream {serverId : String} (h : OpensStream core r serverId) :
    (createTransport core r).Reaches core.pipeline := by
  obtain ⟨server, hserver⟩ := Option.isSome_iff_exists.mp h.configured
  simp only [createTransport, h.route, hserver, h.client]
  exact .stream

theorem Delegates.authenticated {handling : Handling} (h : Delegates r handling)
    (hreaches : handling.Reaches core.pipeline) : Authenticated core r := by
  cases hreaches with
  | pipeline hmem hsteps htouches =>
      have hauth := RequestPipeline.authenticated_of_touches hsteps htouches
      rwa [h _ hmem] at hauth
  | stream => exact h.elim

theorem reaches_authenticated_iff (core : GatewayCore) (r : HttpRequest) :
    ((createTransport core r).Reaches core.pipeline → Authenticated core r) ↔
      ((∃ serverId, OpensStream core r serverId) → Authenticated core r) := by
  constructor
  · rintro h ⟨serverId, hopens⟩
    exact h (reaches_of_opensStream hopens)
  · intro h hreaches
    rcases createTransport_cases core r with hdelegates | hopens
    · exact hdelegates.authenticated hreaches
    · exact h hopens

section Example

def keyedCore : GatewayCore where
  pipeline :=
    { host := plainHost
      config :=
        { servers := [{ id := "crm", url := "http://crm" }]
          auth := some { method := .apiKey, apiKeys := some [⟨"k1", "agent-7", "acme"⟩] } } }
  clients := .set .empty "crm" .http

def anonymousGet : HttpRequest where
  route := .getServer "crm"
  headers := .empty
  body := none
  generatedTraceId := "t"
  firstCall := 0

theorem opensStream_anonymousGet : OpensStream keyedCore anonymousGet "crm" where
  route := rfl
  configured := by decide
  client := by decide

theorem anonymousGet_reaches :
    (createTransport keyedCore anonymousGet).Reaches keyedCore.pipeline ∧
      ¬ Authenticated keyedCore anonymousGet := by
  refine ⟨reaches_of_opensStream opensStream_anonymousGet, ?_⟩
  rw [Authenticated]
  decide

end Example

end Conduit.Proxy
