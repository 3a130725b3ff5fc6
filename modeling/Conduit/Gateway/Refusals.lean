import Conduit.Gateway.Shelves

namespace Conduit.Gateway

open Router Governance Cache Proxy Program

-- the call is answered although nothing has supplied an answer
structure Refused (tr : Trace) (q : Proc Outcome) : Prop where
  answered : ∃ result, q.result? = some (.answered result)
  unsupplied : Unsupplied tr

variable {P : RequestPipeline} {call : ToolCall}

theorem supplies_of_isAdmission {o : Op} (h : o.isAdmission = true) (a : Ans o) :
    supplies o a = false := by
  cases o <;> first | rfl | cases h

-- every check before routing refuses in this sense
theorem refused_of_admission {tr : Trace} {result : CoreResult}
    (h : Steps (P.admission call) tr (.exit (.answered result))) :
    Refused tr (.exit (.answered result)) :=
  ⟨⟨result, rfl⟩, fun e he => supplies_of_isAdmission (RequestPipeline.isAdmission_of_steps h he) e.2⟩

theorem refused_spares {now : ℕ} {s s' : Shelves} {tr : Trace} {q : Proc Outcome}
    (h : Plays (Shelves.Serves P now) s (P.handleToolCall call) tr s' q) (hrefused : Refused tr q) :
    (s' = s ∨ ∃ service, Dispatched P call tr service) ∧
      ∀ service, Dispatched P call tr service → Service.Spares P call now service s s' := by
  rcases RequestPipeline.handleToolCall_plays h with
    ⟨rfl, -⟩ | ⟨service, tr₁, tr₂, rfl, hadmit, hdispatch⟩
  · exact ⟨.inl rfl, fun service _ => .refl s'⟩
  · refine ⟨.inr ⟨service, tr₁, tr₂, rfl, hadmit⟩, ?_⟩
    rintro service' ⟨tr₁', tr₂', htr, hadmit'⟩
    obtain ⟨rfl, -⟩ := Steps.pure_unique hadmit hadmit' htr
    have hunsupplied : Unsupplied tr₂ :=
      fun e he => hrefused.unsupplied e (List.mem_append_right _ he)
    exact RequestPipeline.spares_of_plays hdispatch hunsupplied

section Example

def limitedPipeline : RequestPipeline where
  host := plainHost
  config :=
    { servers :=
        [{ id := "crm"
           url := "http://crm"
           cache :=
             { defaultTtl := 60
               overrides := some (.set .empty "create" { ttl := some 0, invalidates := some ["list"] }) } }]
      rateLimits := some { enabled := true } }
  hasRateLimiter := true
  hasL2Cache := true

-- everything allowed but the server's own limit
def exhausted : (o : Op) → Ans o
  | .consumeServerLimits _ _ _ => { allowed := false, retryAfter := some 30, blockedBy := some "server" }
  | .getAnnotations _ _ => { readOnlyHint := some true }
  | o => permissive o

def callOf (toolName : String) : ToolCall where
  self := 0
  serverId := "crm"
  message := toolsCall (.obj [("name", .str toolName), ("arguments", .obj [])])
  context := { traceId := "t", rawHeaders := .empty }
  principal := { clientId := "agent-7", tenantId := "acme" }

def listing : CacheEntry where
  result := .obj []
  createdAt := 0
  ttl := 60
  toolName := "list"
  serverId := "crm"
  origin := 0

def listingKey : String :=
  limitedPipeline.digest { serverId := "crm", toolName := "list", args := [] }

def stocked (redis : OrderedMap String CacheEntry) : Shelves where
  l1 := (CacheStore.init {}).set listingKey listing
  exact := (CacheStore.exact_init {}).set listingKey listing
  redis := redis

def refusedPlay (now : ℕ) (toolName : String) (s : Shelves) : Shelves × Trace × Proc Outcome :=
  progress (Shelves.reply limitedPipeline now exhausted) 8 s
    (limitedPipeline.handleToolCall (callOf toolName))

theorem plays_refusedPlay (now : ℕ) (toolName : String) (s : Shelves) :
    Plays (Shelves.Serves limitedPipeline now) s (limitedPipeline.handleToolCall (callOf toolName))
      (refusedPlay now toolName s).2.1 (refusedPlay now toolName s).1
      (refusedPlay now toolName s).2.2 :=
  plays_progress (Shelves.serves_reply exhausted) 8 s _

def creationPlay : Shelves × Trace × Proc Outcome :=
  refusedPlay 0 "create" (stocked (.set .empty listingKey listing))

def listingPlay : Shelves × Trace × Proc Outcome := refusedPlay 60001 "list" (stocked .empty)

def rateLimited : CoreResult where
  body := buildJsonRpcError (.ofNat 1) (-32000)
    "Rate limit exceeded: server. Retry after 30 seconds" none
  retryAfter := some 30

theorem refused_creationPlay : Refused creationPlay.2.1 creationPlay.2.2 where
  answered := ⟨rateLimited, by decide +kernel⟩
  unsupplied := by decide +kernel

theorem refused_listingPlay : Refused listingPlay.2.1 listingPlay.2.2 where
  answered := ⟨rateLimited, by decide +kernel⟩
  unsupplied := by decide +kernel

theorem refused_spares_listing :
    (listingPlay.1 = stocked .empty ∨
      ∃ service, Dispatched limitedPipeline (callOf "list") listingPlay.2.1 service) ∧
    ∀ service, Dispatched limitedPipeline (callOf "list") listingPlay.2.1 service →
      Service.Spares limitedPipeline (callOf "list") 60001 service (stocked .empty) listingPlay.1 :=
  refused_spares (plays_refusedPlay 60001 "list" (stocked .empty)) refused_listingPlay

-- a call that the server's limit refuses has emptied what its tool invalidates out of both caches,
-- or dropped the expired entry that it has looked up
theorem refused_call_removes :
    (∃ s s' tr q, Plays (Shelves.Serves limitedPipeline 0) s
        (limitedPipeline.handleToolCall (callOf "create")) tr s' q ∧ Refused tr q ∧
      s.l1.entries.get? listingKey = some listing ∧ s'.l1.entries.get? listingKey = none ∧
      s.redis.get? listingKey = some listing ∧ s'.redis.get? listingKey = none) ∧
    ∃ s s' tr q, Plays (Shelves.Serves limitedPipeline 60001) s
        (limitedPipeline.handleToolCall (callOf "list")) tr s' q ∧ Refused tr q ∧
      s.l1.entries.get? listingKey = some listing ∧ s'.l1.entries.get? listingKey = none := by
  refine ⟨⟨_, _, _, _, plays_refusedPlay 0 "create" (stocked (.set .empty listingKey listing)),
    refused_creationPlay, ?_, ?_, ?_, ?_⟩, _, _, _, _,
    plays_refusedPlay 60001 "list" (stocked .empty), refused_listingPlay, ?_, ?_⟩
  all_goals decide +kernel

end Example

end Conduit.Gateway
