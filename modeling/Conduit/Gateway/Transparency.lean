import Conduit.Gateway.Mediation

namespace Conduit.Gateway

open Router Governance Cache Proxy Identity Program

-- what a caller is told, whatever the id, the session and the cache status
inductive Seen where
  | result (value : Json)
  | error (code message data : Option Json)
  | empty
  | other (body : Json)
  | stream (content : Option String)
  | thrown (message : String)
deriving DecidableEq

def rpcErrorOf (body : Json) : Option Json := (body.get? "error").filter Json.truthy

def seenBody (body : Json) : Seen :=
  match rpcErrorOf body with
  | some error => .error (error.get? "code") (error.get? "message") (error.get? "data")
  | none =>
      match body.get? "result" with
      | some value => .result value
      | none => if body = .null then .empty else .other body

def seen : Outcome → Seen
  | .thrown message _ => .thrown message
  | .answered result =>
      if result.isStream then .stream result.rawResponse else seenBody result.body

def present (value : Option Json) : Bool := (value.filter (· ≠ .null)).isSome

-- a body that is rebuilt from its parts without a loss
def rebuilds (body : Json) : Bool :=
  match rpcErrorOf body with
  | some error =>
      present (error.get? "code") && present (error.get? "message") && (error.get? "data").isNone
  | none => present (body.get? "result")

def survives (response : UpstreamResponse) : Bool := !response.isStream && rebuilds response.body

def outcomeOf : Except Outcome Outcome → Outcome
  | .ok out => out
  | .error out => out

-- a gateway in which the call finds nothing cached and nothing in flight, and whose upstream
-- answers it with `response`; everything else is asked of `serve`
structure Missing (σ : Type) where
  world : σ
  settled : Option FlightResult := none

section World

variable {σ : Type} (serve : σ → (o : Op) → σ × Ans o) (response : Except String UpstreamResponse)

def missing (m : Missing σ) : (o : Op) → Missing σ × Ans o
  | .l1Get _ => (m, none)
  | .l2Get _ => (m, none)
  | .l1Set _ _ => (m, ())
  | .l2Set _ _ _ => (m, ())
  | .enterFlight _ => (m, .started 0)
  | .settleFlight _ result => ({ m with settled := some result }, ())
  | .awaitFlight flight => (m, m.settled.getD (serve m.world (.awaitFlight flight)).2)
  | .forward _ _ => (m, response)
  | o => ({ m with world := (serve m.world o).1 }, (serve m.world o).2)

end World

namespace RequestPipeline

variable (P : RequestPipeline) (call : ToolCall)

def uncached : RequestPipeline :=
  { P with config := { P.config with cache := { P.config.cache with enabled := false } } }

def exchangeOf (service : Service) (response : Except String UpstreamResponse) : Exchange :=
  match P.buildExtraHeaders call service.serverConfig with
  | .error error => .identityError error
  | .ok _ =>
      match response with
      | .error error => .failed error
      | .ok response => .completed (completed call response)

def bypassOutcome : Exchange → Outcome
  | .identityError message => identityFailure call message call.self
  | .failed message => .thrown message (some call.self)
  | .completed result =>
      .answered { result with cacheStatus := some (if result.isStream then .bypass else .skip) }

def settledOutcome : Settlement → Outcome
  | .identityError message => identityFailure call message call.self
  | .rpcError code message =>
      .answered
        { body := .obj [("jsonrpc", .str "2.0"), ("id", messageId call.message),
            ("error", .obj [("code", code), ("message", message)])]
          origin := some call.self }
  | .failed message => .thrown message (some call.self)
  | .resolved content =>
      respondWith call content (if isToolError content then .skipError else .miss) call.self

section Runs

variable {σ : Type} (serve : σ → (o : Op) → σ × Ans o) (response : Except String UpstreamResponse)

-- the call is admitted, cacheable and within its limits, and its headers are resolved
def ForwardsThroughCache (m : Missing σ) : Prop :=
  ∃ m₁ service m₂ headers,
    finish (missing serve response) m (P.admission call) = (m₁, .ok service) ∧
    (service.policy.shouldCache && P.config.cache.enabled) = true ∧
    finish (missing serve response) m₁ (do
      P.invalidate service.actual.serverId service.policy
      P.consumeServerLimits call service.actual) = (m₂, .ok ()) ∧
    P.buildExtraHeaders call service.serverConfig = .ok headers

end Runs

variable {P : RequestPipeline} {call : ToolCall}

theorem some_default_eq_iff {fallback : Json} (hne : fallback ≠ .null) (value : Option Json) :
    some ((value.filter (· ≠ .null)).getD fallback) = value ↔ present value = true := by
  cases value with
  | none => simp [present]
  | some value =>
      by_cases hnull : value = .null
      · simp [present, hnull, Option.filter, hne]
      · simp [present, hnull, Option.filter]

theorem seen_rpcError (code message : Json) :
    seen (settledOutcome call (.rpcError code message)) = .error (some code) (some message) none :=
  rfl

theorem seen_resolved (content : Json) :
    seen (settledOutcome call (.resolved content)) = .result content := rfl

theorem seen_rebuilt_iff (body : Json) :
    seen (settledOutcome call (match upstreamError body with
        | some (code, message) => .rpcError code message
        | none => .resolved (upstreamResult body))) = seenBody body ↔
      rebuilds body = true := by
  have hupstream : upstreamError body = (rpcErrorOf body).map fun error =>
      (((error.get? "code").filter (· ≠ .null)).getD (ofInt internalError),
        ((error.get? "message").filter (· ≠ .null)).getD (.str "Upstream error")) := rfl
  rw [hupstream, seenBody, rebuilds]
  cases rpcErrorOf body with
  | some error =>
      dsimp only [Option.map_some]
      rw [seen_rpcError, Seen.error.injEq,
        some_default_eq_iff (show ofInt internalError ≠ .null by decide) (error.get? "code"),
        some_default_eq_iff (show Json.str "Upstream error" ≠ .null by decide)
          (error.get? "message"),
        Bool.and_eq_true, Bool.and_eq_true, Option.isNone_iff_eq_none, and_assoc,
        @eq_comm _ none]
  | none =>
      dsimp only [Option.map_none]
      rw [seen_resolved,
        ← some_default_eq_iff (show Json.obj [] ≠ .null by decide) (body.get? "result"),
        upstreamResult]
      cases body.get? "result" with
      | some value =>
          dsimp only
          rw [Seen.result.injEq, Option.some_inj]
      | none =>
          refine iff_of_false (fun h => ?_) (by simp)
          dsimp only at h
          split at h <;> cases h

theorem seen_completed_iff {response : UpstreamResponse} :
    seen (settledOutcome call (settlementOf (.completed (completed call response)))) =
      seen (bypassOutcome call (.completed (completed call response))) ↔
      survives response = true := by
  obtain ⟨body, sessionId, isStream, rawResponse⟩ := response
  cases isStream with
  | true =>
      refine iff_of_false (fun h => ?_) (by simp [survives])
      cases h
  | false => exact seen_rebuilt_iff body

section Misses

variable {σ : Type} {serve : σ → (o : Op) → σ × Ans o} {response : Except String UpstreamResponse}
variable {service : Service}

theorem finish_lookup (m : Missing σ) (key : CacheKeyOptions) :
    finish (missing serve response) m (lookup call key) = (m, .ok ()) := rfl

theorem finish_lookupL2 (m : Missing σ) (key : CacheKeyOptions) :
    finish (missing serve response) m (P.lookupL2 call key) = (m, .ok ()) := by
  unfold lookupL2
  split <;> rfl

theorem finish_passthrough (m : Missing σ) (message : Json) (client : ClientRef) :
    finish (missing serve response) m
      (P.passthroughToServer call message client service.serverConfig) =
      (m, .ok (P.exchangeOf call service response)) := by
  unfold passthroughToServer exchangeOf
  cases P.buildExtraHeaders call service.serverConfig with
  | error error => rfl
  | ok headers => cases response <;> rfl

theorem finish_fetch (m : Missing σ) :
    finish (missing serve response) m (P.fetch call service) =
      (m, .ok (settlementOf (P.exchangeOf call service response))) := by
  rw [fetch, finish_bind, finish_passthrough]
  rfl

theorem finish_deduplicate (m : Missing σ) (key : CacheKeyOptions) :
    finish (missing serve response) m (deduplicate call key (P.fetch call service)) =
      ({ m with
          settled := some ⟨settlementOf (P.exchangeOf call service response), call.self⟩ },
        .ok ⟨settlementOf (P.exchangeOf call service response), call.self⟩) := by
  have hstart : finish (missing serve response) m (deduplicate call key (P.fetch call service)) =
      finish (missing serve response) m (do
        let settlement ← P.fetch call service
        perform (.settleFlight 0 ⟨settlement, call.self⟩)
        perform (.awaitFlight 0)) := rfl
  rw [hstart, finish_bind, finish_fetch]
  rfl

theorem finish_storeAndRespond (hplugins : P.hasPlugins = false) (m : Missing σ) (content : Json)
    (origin : CallId) :
    (finish (missing serve response) m (P.storeAndRespond call service content origin)).2 =
      .ok (respondWith call content .miss origin) := by
  simp only [storeAndRespond, store, runHook, hplugins]
  split <;> rfl

theorem finish_callUpstream {m m' : Missing σ}
    (hlimits : finish (missing serve response) m (P.consumeServerLimits call service.actual) =
      (m', .ok ())) :
    outcomeOf (finish (missing serve response) m (P.callUpstream call service)).2 =
      bypassOutcome call (P.exchangeOf call service response) := by
  rw [callUpstream, finish_bind_of_ok _ hlimits, finish_bind, finish_passthrough]
  cases P.exchangeOf call service response <;> rfl

theorem finish_callUpstream_limited {m m' : Missing σ} {out : Outcome}
    (hlimits : finish (missing serve response) m (P.consumeServerLimits call service.actual) =
      (m', .error out)) :
    outcomeOf (finish (missing serve response) m (P.callUpstream call service)).2 = out := by
  rw [callUpstream, finish_bind, hlimits]
  rfl

theorem finish_runHook (hplugins : P.hasPlugins = false) (m : Missing σ) (name : HookName) :
    finish (missing serve response) m (P.runHook name) = (m, .ok ()) := by
  rw [runHook, hplugins]
  rfl

theorem finish_callThroughCache_limited (hplugins : P.hasPlugins = false) {m m' : Missing σ}
    {out : Outcome}
    (hlimits : finish (missing serve response) m (P.consumeServerLimits call service.actual) =
      (m', .error out)) :
    outcomeOf (finish (missing serve response) m (P.callThroughCache call service)).2 = out := by
  rw [callThroughCache, finish_bind_of_ok _ (finish_runHook hplugins m _),
    finish_bind_of_ok _ (finish_lookup m _), finish_bind_of_ok _ (finish_lookupL2 m _), finish_bind,
    hlimits]
  rfl

theorem finish_callThroughCache (hplugins : P.hasPlugins = false) {m m' : Missing σ}
    (hlimits : finish (missing serve response) m (P.consumeServerLimits call service.actual) =
      (m', .ok ())) :
    outcomeOf (finish (missing serve response) m (P.callThroughCache call service)).2 =
      settledOutcome call (settlementOf (P.exchangeOf call service response)) := by
  rw [callThroughCache, finish_bind_of_ok _ (finish_runHook hplugins m _),
    finish_bind_of_ok _ (finish_lookup m _), finish_bind_of_ok _ (finish_lookupL2 m _),
    finish_bind_of_ok _ hlimits, finish_bind_of_ok _ (finish_deduplicate m' _)]
  cases settlementOf (P.exchangeOf call service response) with
  | identityError message | failed message => rfl
  | rpcError code message => rfl
  | resolved content =>
      have hcontent : ∀ m, finish (missing serve response) m
          (contentOf call ⟨.resolved content, call.self⟩) = (m, .ok content) := fun _ => rfl
      rw [finish_bind_of_ok _ (hcontent _), finish_bind_of_ok _ (finish_runHook hplugins _ _)]
      dsimp only [settledOutcome]
      split
      · rfl
      · rw [finish_storeAndRespond hplugins]
        rfl

theorem invalidateAll_uncached (serverId : String) (toolNames : List String) :
    P.uncached.invalidateAll serverId toolNames = P.invalidateAll serverId toolNames := by
  induction toolNames with
  | nil => rfl
  | cons toolName toolNames ih => rw [invalidateAll, invalidateAll, ih]; rfl

theorem invalidate_uncached (serverId : String) (policy : CachePolicyDecision) :
    P.uncached.invalidate serverId policy = P.invalidate serverId policy := by
  rw [invalidate, invalidate, invalidateAll_uncached]

theorem finish_dispatch_uncached (m : Missing σ) :
    finish (missing serve response) m (P.uncached.dispatch call service) =
      finish (missing serve response) m (do
        P.invalidate service.actual.serverId service.policy
        P.callUpstream call service) := by
  rw [dispatch, if_neg (by simp [uncached]), invalidate_uncached]
  rfl

-- what is left of the call once it is admitted, on the two paths
theorem dispatch_transparent_iff (hplugins : P.hasPlugins = false) (m : Missing σ) :
    seen (outcomeOf (finish (missing serve response) m (P.dispatch call service)).2) =
      seen (outcomeOf (finish (missing serve response) m (P.uncached.dispatch call service)).2) ↔
      ((service.policy.shouldCache && P.config.cache.enabled) = true → ∀ m' headers,
        finish (missing serve response) m (do
          P.invalidate service.actual.serverId service.policy
          P.consumeServerLimits call service.actual) = (m', .ok ()) →
        P.buildExtraHeaders call service.serverConfig = .ok headers →
        ∀ answer, response = .ok answer → survives answer = true) := by
  rw [finish_dispatch_uncached, dispatch, finish_bind, finish_bind, finish_bind]
  cases finish (missing serve response) m (P.invalidate service.actual.serverId service.policy) with
  | mk m₁ invalidated =>
  cases invalidated with
  | error out => exact iff_of_true rfl fun _ _ _ h => (by cases h)
  | ok _ =>
  dsimp only
  cases service.policy.shouldCache && P.config.cache.enabled with
  | false => exact iff_of_true rfl fun h => (by cases h)
  | true =>
  rw [if_pos rfl]
  cases hlimits : finish (missing serve response) m₁ (P.consumeServerLimits call service.actual) with
  | mk m₂ limited =>
  cases limited with
  | error out =>
      rw [finish_callThroughCache_limited hplugins hlimits, finish_callUpstream_limited hlimits]
      exact iff_of_true rfl fun _ _ _ h => (by cases h)
  | ok _ =>
      rw [finish_callThroughCache hplugins hlimits, finish_callUpstream hlimits]
      unfold exchangeOf
      cases P.buildExtraHeaders call service.serverConfig with
      | error error => exact iff_of_true rfl fun _ _ _ _ h => (by cases h)
      | ok headers =>
          cases response with
          | error error => exact iff_of_true rfl fun _ _ _ _ _ _ h => (by cases h)
          | ok answer =>
              refine seen_completed_iff.trans ⟨fun h _ _ _ _ _ _ heq => ?_, fun h => ?_⟩
              · cases heq
                exact h
              · exact h rfl m₂ headers rfl rfl answer rfl

end Misses

section Example

def cachingPipeline : RequestPipeline where
  host := plainHost
  config :=
    { servers :=
        [{ id := "crm"
           url := "http://crm"
           cache := { overrides := some (.set .empty "list_contacts" { ttl := some 60 }) } }] }

def listContacts : ToolCall where
  self := 0
  serverId := "crm"
  message := toolsCall (.obj [("name", .str "list_contacts")])
  context := { traceId := "t", rawHeaders := .empty }
  principal := { clientId := "agent-7", tenantId := "acme" }

def obliging (_ : Unit) (o : Op) : Unit × Ans o := ((), permissive o)

def seenBy (P : RequestPipeline) (response : UpstreamResponse) : Seen :=
  seen (outcomeOf (finish (missing obliging (.ok response)) ⟨(), none⟩
    (P.handleToolCall listContacts)).2)

def contacts : UpstreamResponse where
  body := .obj [("jsonrpc", .str "2.0"), ("id", .ofNat 1), ("result", .obj [("content", .arr [])])]

def streamed : UpstreamResponse where
  body := .null
  isStream := true
  rawResponse := some "data: contacts"

end Example

end RequestPipeline

end Conduit.Gateway
