import Conduit.Cache.KeyArguments
import Conduit.Gateway.Checked
import Conduit.Gateway.Sharing

namespace Conduit.Gateway

open Router Cache Proxy Program World
open Json (Rearranged)
open Utils (stripped)

-- the arguments that count for the cache
def considered (ignoreArgs : List String) : Json → Json
  | .obj fields => .obj (fields.filter fun e => !ignoreArgs.contains e.1)
  | v => v

def namedTool (body : Json) : String := (extractToolName body).getD ""

-- a JSON-RPC success response with this result
structure Success (body result : Json) : Prop where
  version : body.get? "jsonrpc" = some (.str "2.0")
  result : body.get? "result" = some result
  noError : (body.get? "error").getD .null = .null

namespace RequestPipeline

variable (P : RequestPipeline)

def ignoredArgs (actual : ToolTarget) : List String :=
  ((P.config.server? actual.serverId).bind fun server =>
    (toolOverride server.cache actual.toolName).bind (·.ignoreArgs)).getD []

-- a reply that the cache keeps nothing of, or nothing but its result
inductive Expected (response : UpstreamResponse) : Prop where
  | rpcError (hjson : response.isStream = false)
      (herror : (upstreamError response.body).isSome = true)
  | toolError (hjson : response.isStream = false)
      (hresult : isToolError (upstreamResult response.body) = true)
  | success (hjson : response.isStream = false) {result : Json}
      (hsuccess : Success response.body result) (hvalue : result ≠ .null)
      (hwritten : P.hasL2Cache = true → result.written = result)

-- calls whose arguments are read as the same have the same ones
def ToldApart (actual : ToolTarget) (call call' : ToolCall) : Prop :=
  Rearranged (stripped (considered (P.ignoredArgs actual) (.obj call.toolArgs)))
      (stripped (considered (P.ignoredArgs actual) (.obj call'.toolArgs))) →
    Rearranged (considered (P.ignoredArgs actual) (sentArguments call.message))
      (considered (P.ignoredArgs actual) (sentArguments call'.message))

def ToldApartUnder (call call' : ToolCall) (key key' : CacheKeyOptions) : Prop :=
  key.serverId = key'.serverId → key.toolName = key'.toolName → key.tenantId = key'.tenantId →
    key.groupId = key'.groupId → P.ToldApart ⟨key.serverId, key.toolName⟩ call call'

end RequestPipeline

namespace Task

variable {P : RequestPipeline} (t : Task P)

def Reads (entry : CacheEntry) : Prop :=
  ∃ key, Answered t.trace (.l1Get key) (some entry) ∨ Answered t.trace (.l2Get key) (some entry)

end Task

namespace World

variable {P : RequestPipeline} {w w' : World P}

-- a call that has looked in the cache is sent none but an expected reply
def ExpectedReplies (w : World P) : Act → Prop
  | .answer caller environment => ∀ t : Task P, w.tasks[caller]? = some t → t.lookups ≠ [] →
      ∀ client options response, t.pending? = some (.forward client options) →
        environment (.forward client options) = .ok response → P.Expected response
  | _ => True

-- no call looks its key up after another one that it is only told apart from upstream
def DistinctArguments (w : World P) : Act → Prop := w.LooksUpRelated P.ToldApartUnder

inductive Held (w : World P) (entry : CacheEntry) : Prop where
  | l1 {digest : String} (h : w.l1.entries.get? digest = some entry)
  | redis {digest : String} (h : w.redis.get? digest = some entry)
  | read {t : Task P} (ht : t ∈ w.tasks) (h : t.Reads entry)

-- the upstream of the entry's server sent the result to a call of the entry's tool
structure Backed (w : World P) (entry : CacheEntry) : Prop where
  reply : ∃ (u : Task P) (client : ClientRef) (options : UpstreamRequestOptions)
    (response : UpstreamResponse), w.tasks[entry.origin]? = some u ∧
      Answered u.trace (.forward client options) (.ok response) ∧
      client.serverId = entry.serverId ∧ namedTool options.body = entry.toolName ∧
      response.isStream = false ∧ Success response.body entry.result ∧
      ∀ t ∈ w.tasks, t.Reads entry →
        let ignoreArgs := P.ignoredArgs ⟨entry.serverId, entry.toolName⟩
        Rearranged (considered ignoreArgs (sentArguments options.body))
          (considered ignoreArgs (sentArguments t.call.message))
  healthy : RequestPipeline.isToolError entry.result = false

end World

section Messages

theorem sentArguments_buildForwardMessage (message : Json) (toolName : String) :
    sentArguments (buildForwardMessage message toolName) = sentArguments message := by
  cases h : params? message with
  | none => rw [buildForwardMessage, h]
  | some params =>
      obtain ⟨hparams, -⟩ := Option.filter_eq_some_iff.mp h
      rw [(buildForwardMessage_of_params h toolName).2, sentArguments, hparams]
      rfl

theorem namedTool_of_sentToolName {body : Json} {toolName : String}
    (h : sentToolName body = some (.str toolName)) : namedTool body = toolName := by
  obtain ⟨params, hparams, hname⟩ := Option.bind_eq_some_iff.mp h
  have htruthy : params? body = some params := by
    cases params with
    | obj fields => simp [params?, hparams, Json.truthy, Option.filter]
    | _ => cases hname
  simp [namedTool, extractToolName, htruthy, hname, Json.asString?]

theorem namedTool_buildForwardMessage {message : Json} {toolName : String}
    (h : namedTool message = "" → toolName = "") :
    namedTool (buildForwardMessage message toolName) = toolName := by
  cases hparams : params? message with
  | none =>
      have hname : namedTool message = "" := by simp [namedTool, extractToolName, hparams]
      rw [buildForwardMessage, hparams]
      exact hname.trans (h hname).symm
  | some params =>
      exact namedTool_of_sentToolName (buildForwardMessage_of_params hparams toolName).1

theorem ignoreArgs_decideCachePolicy (toolName : String) (annotations : ToolAnnotations)
    (cache : ServerCacheConfig) :
    (decideCachePolicy toolName annotations cache).ignoreArgs =
      ((toolOverride cache toolName).bind (·.ignoreArgs)).getD [] := by
  unfold decideCachePolicy
  cases toolOverride cache toolName with
  | some override =>
      unfold applyConfigOverride
      dsimp only
      split <;> rfl
  | none =>
      dsimp only
      split
      · rfl
      · split
        · rfl
        · split
          · rfl
          · split <;> rfl

end Messages

namespace Task

variable {P : RequestPipeline} {t : Task P} {service : Service}

theorem Serving.ignoreArgs (h : t.Serving service) :
    service.policy.ignoreArgs = P.ignoredArgs service.actual := by
  obtain ⟨resolution, routed, annotations, -, -, -, -, -, hpolicy⟩ := h.admits.resolved
  rw [hpolicy, ignoreArgs_decideCachePolicy, RequestPipeline.ignoredArgs, h.admits.configured]
  rfl

theorem Serving.client_serverId (h : t.Serving service) (hrouter : FromRouter P.config t.trace) :
    service.client.serverId = service.actual.serverId := by
  obtain ⟨resolution, routed, annotations, hresolve, hactual, hrouted, hclient, -⟩ :=
    h.admits.resolved
  obtain ⟨C, hC, rfl⟩ := hrouter _ _ _ hresolve
  rw [hactual, hclient, routed_serverId hrouted]
  exact routed_client (ConduitRouter.wellIndexed_of_reached hC) t.call.eq_of_directServerId hrouted

theorem Serving.toolName_eq_empty (h : t.Serving service) (hrouter : FromRouter P.config t.trace)
    (hname : namedTool t.call.message = "") : service.actual.toolName = "" := by
  obtain ⟨resolution, routed, annotations, hresolve, hactual, -⟩ := h.admits.resolved
  obtain ⟨C, hC, rfl⟩ := hrouter _ _ _ hresolve
  have htool : t.call.toolName = "" := hname
  rw [hactual, htool]
  exact toolName_of_resolve_empty (ConduitRouter.spelled_of_reached hC) _ _

end Task

namespace RequestPipeline

variable {P : RequestPipeline}

theorem ToldApart.symm {actual : ToolTarget} {call call' : ToolCall}
    (h : P.ToldApart actual call call') : P.ToldApart actual call' call :=
  fun hsame => (h hsame.symm).symm

theorem toldApartUnder_self (call : ToolCall) (key key' : CacheKeyOptions) :
    P.ToldApartUnder call call key key' :=
  fun _ _ _ _ _ => .refl _

theorem ToldApartUnder.symm {call call' : ToolCall} {key key' : CacheKeyOptions}
    (h : P.ToldApartUnder call call' key key') : P.ToldApartUnder call' call key' key := by
  intro hserver htool htenant hgroup
  have hapart := h hserver.symm htool.symm htenant.symm hgroup.symm
  rw [hserver, htool]
  exact hapart.symm

end RequestPipeline

namespace World

variable {P : RequestPipeline} {w w' : World P}

def Vetted (w : World P) : Prop :=
  ∀ t ∈ w.tasks, ∀ before client options response,
    before ++ [(⟨.forward client options, .ok response⟩ : Event Op Ans)] <+: t.trace →
      (∃ key found, Answered before (.l1Get key) found) → P.Expected response

theorem environment_of_serve_forward {c : CallId} {phase : Phase}
    {environment : (o : Op) → Ans o} {client : ClientRef} {options : UpstreamRequestOptions}
    {response : UpstreamResponse} {s : World P}
    (h : w.serve c phase environment (.forward client options) = some (s, .ok response)) :
    environment (.forward client options) = .ok response := by
  simp only [serve] at h
  split at h
  next reply hreply =>
    split at h
    · cases h
      exact hreply
    · cases h
  next => cases h

theorem Vetted.step (h : w.Vetted) {act : Act} (hguard : w.ExpectedReplies act)
    (hstep : w.step act = some w') : w'.Vetted := by
  intro t' ht' before client options response hforward hlooked
  obtain ⟨c', hc'⟩ := List.mem_iff_getElem?.mp ht'
  rcases step_cases hstep with ⟨c, environment, rfl, -⟩ | hbackground
  · obtain ⟨t, ht, hanswer⟩ := Option.bind_eq_some_iff.mp hstep
    obtain ⟨o, next, hrest, a, s, hserve, rfl⟩ := answer_eq_serve hanswer
    rcases getElem?_answered (serves_of_serve hserve) hc' with ⟨rfl, rfl⟩ | ⟨-, hold⟩
    · rcases List.prefix_concat_iff.mp hforward with hlast | hbefore
      · obtain ⟨rfl, hevent⟩ := List.append_inj' hlast rfl
        cases hevent
        obtain ⟨key, found, hfound⟩ := hlooked
        have hlooked : key ∈ t.lookups := Task.mem_lookups.2 ⟨found, hfound⟩
        have hpending : t.pending? = some (.forward client options) := by
          simp [Task.pending?, hrest]
        exact hguard t ht (List.ne_nil_of_mem hlooked) client options response hpending
          (environment_of_serve_forward hserve)
      · exact h t (List.mem_of_getElem? ht) before client options response hbefore hlooked
    · exact h t' (List.mem_of_getElem? hold) before client options response hforward hlooked
  · rcases hbackground.quiet.tasks c' t' hc' with ⟨hempty, -⟩ | ⟨t, ht, hthread, -⟩
    · rw [hempty] at hforward
      simp at hforward
    · rw [Task.trace, hthread] at hforward
      exact h t (List.mem_of_getElem? ht) before client options response hforward hlooked

theorem vetted_of_run {acts : List Act}
    (hguard : Transition.Along step ExpectedReplies (init P) acts)
    (h : Transition.run step (init P) acts = some w) : w.Vetted := by
  have hinit : (init P).Vetted := by
    intro t ht
    cases ht
  exact Transition.run_invariant step (fun _ _ _ hw hact hstep => hw.step hact hstep) hinit hguard h

theorem Held.genuine {entry : CacheEntry} (h : w.Held entry) {mine : CallId → Prop}
    (hmine : ∀ c, mine c) (hprovenance : w.Provenance mine) :
    ∃ digest, w.Genuine digest entry := by
  cases h with
  | l1 hentry => exact ⟨_, hprovenance.l1 _ _ hentry⟩
  | redis hentry => exact ⟨_, hprovenance.redis _ _ hentry⟩
  | read ht hreads =>
      obtain ⟨c, hc⟩ := List.mem_iff_getElem?.mp ht
      obtain ⟨key, hl1 | hl2⟩ := hreads
      · exact ⟨_, hprovenance.consistent c _ hc (hmine c) _ hl1 entry rfl⟩
      · exact ⟨_, hprovenance.consistent c _ hc (hmine c) _ hl2 entry rfl⟩

theorem settled_of_json {call : ToolCall} {response : UpstreamResponse} {content : Json}
    (hjson : response.isStream = false)
    (h : settlementOf (.completed (RequestPipeline.completed call response)) = .resolved content) :
    upstreamError response.body = none ∧ content = upstreamResult response.body := by
  simp only [settlementOf, RequestPipeline.completed, hjson, Bool.false_eq_true, if_false] at h
  split at h
  · cases h
  next hnone => exact ⟨hnone, (Settlement.resolved.inj h).symm⟩

-- the result of an expected reply is kept as it was sent
theorem success_of_settled {call : ToolCall} {response : UpstreamResponse} {content result : Json}
    (hexpected : P.Expected response)
    (hsettled : settlementOf (.completed (RequestPipeline.completed call response)) =
      .resolved content)
    (hresult : result = content ∨ P.hasL2Cache = true ∧ result = content.written)
    (hhealthy : RequestPipeline.isToolError result = false) :
    response.isStream = false ∧ Success response.body result := by
  cases hexpected with
  | rpcError hjson herror =>
      rw [(settled_of_json hjson hsettled).1] at herror
      cases herror
  | toolError hjson htool =>
      obtain ⟨-, rfl⟩ := settled_of_json hjson hsettled
      have hsame : RequestPipeline.isToolError result =
          RequestPipeline.isToolError (upstreamResult response.body) := by
        rcases hresult with rfl | ⟨-, rfl⟩
        · rfl
        · exact isToolError_written _
      rw [hsame, htool] at hhealthy
      cases hhealthy
  | success hjson hsuccess hvalue hwritten =>
      rename_i value
      obtain ⟨-, hcontent⟩ := settled_of_json hjson hsettled
      have hvalued : content = value := by
        simp [hcontent, upstreamResult, hsuccess.result, Option.filter, hvalue]
      have hkept : result = value := by
        rcases hresult with hsame | ⟨henabled, hread⟩
        · exact hsame.trans hvalued
        · rw [hread, hvalued, hwritten henabled]
      exact ⟨hjson, hkept ▸ hsuccess⟩

-- calls under one digest have the same arguments, if they are told apart at all
theorem rearranged_of_digest (hinjective : Function.Injective P.host.sha256)
    (hpaired : w.Paired P.ToldApartUnder) {t u : Task P} (ht : t ∈ w.tasks) (hu : u ∈ w.tasks)
    {service service' : Service} (hserving : t.Serving service) (hserving' : u.Serving service')
    (hkey : P.cacheKey t.call service ∈ t.lookups)
    (hkey' : P.cacheKey u.call service' ∈ u.lookups)
    (hdigest : P.digest (P.cacheKey t.call service) = P.digest (P.cacheKey u.call service')) :
    service.actual = service'.actual ∧
      Rearranged (considered (P.ignoredArgs service.actual) (sentArguments t.call.message))
        (considered (P.ignoredArgs service.actual) (sentArguments u.call.message)) := by
  have hsame := sameKey_of_generateCacheKey hinjective hdigest
  have hserver : service.actual.serverId = service'.actual.serverId := hsame.serverId
  have htool : service.actual.toolName = service'.actual.toolName := hsame.toolName
  have hactual : service.actual = service'.actual := by
    cases hleft : service.actual
    cases hright : service'.actual
    rw [hleft, hright] at hserver htool
    cases hserver
    cases htool
    rfl
  have hapart := hpaired t ht u hu _ hkey _ hkey' hserver htool hsame.tenantId hsame.groupId
  refine ⟨hactual, hapart ?_⟩
  have hargs := Utils.rearranged_of_textFields hsame.args
  have hignore : service.policy.ignoreArgs = P.ignoredArgs service.actual := hserving.ignoreArgs
  have hignore' : service'.policy.ignoreArgs = P.ignoredArgs service.actual :=
    hactual ▸ hserving'.ignoreArgs
  simpa [considered, stripped, filterArgs, RequestPipeline.cacheKey,
    Utils.strippedFields_assignable, hignore, hignore'] using hargs

-- whoever reads an entry looked it up under the digest that its origin looked up
theorem read_of_reads (hprovenance : w.Provenance fun _ => True) {t : Task P} (ht : t ∈ w.tasks)
    {entry : CacheEntry} (h : t.Reads entry) :
    ∃ service, t.Serving service ∧ P.cacheKey t.call service ∈ t.lookups ∧
      w.Genuine (P.digest (P.cacheKey t.call service)) entry := by
  obtain ⟨c, hc⟩ := List.mem_iff_getElem?.mp ht
  obtain ⟨key, hl1 | hl2⟩ := h
  · obtain ⟨service, hserving⟩ := t.serving_of_mem hl1 rfl
    have hkey : key ∈ t.lookups := Task.mem_lookups.2 ⟨_, hl1⟩
    obtain rfl := hserving.eq_of_mem_lookups hkey
    exact ⟨service, hserving, hkey, hprovenance.consistent c t hc trivial _ hl1 entry rfl⟩
  · obtain ⟨service, hserving⟩ := t.serving_of_mem hl2 rfl
    obtain ⟨tr, hextends, rfl, hlooked, -⟩ := hserving.emits_of_mem hl2 rfl
    exact ⟨service, hserving, Task.mem_lookups_of_looked (hlooked.mono hextends),
      hprovenance.consistent c t hc trivial _ hl2 entry rfl⟩

-- the call that an entry comes from, and under which key it looked
theorem Genuine.origin (hinjective : Function.Injective P.host.sha256) {digest : String}
    {entry : CacheEntry} (h : w.Genuine digest entry) {u : Task P}
    (hu : w.tasks[entry.origin]? = some u) {service : Service} (hserving : u.Serving service) :
    P.cacheKey u.call service ∈ u.lookups ∧ P.digest (P.cacheKey u.call service) = digest ∧
      service.actual = ⟨entry.serverId, entry.toolName⟩ := by
  obtain ⟨u', hu', key, found, hfound, hdigest⟩ := h.looked
  obtain rfl := Option.some.inj (hu.symm.trans hu')
  have hkey : key ∈ u.lookups := Task.mem_lookups.2 ⟨found, hfound⟩
  obtain rfl := hserving.eq_of_mem_lookups hkey
  obtain ⟨key', hdigest', htool, hserver⟩ := h.keyed
  have hsame := sameKey_of_generateCacheKey hinjective (hdigest.trans hdigest'.symm)
  refine ⟨hkey, hdigest, ?_⟩
  rw [htool, hserver, ← hsame.serverId, ← hsame.toolName]
  rfl

theorem backed_of_genuine (hinjective : Function.Injective P.host.sha256)
    (hprovenance : w.Provenance fun _ => True) (hvetted : w.Vetted)
    (hpaired : w.Paired P.ToldApartUnder) (hrouter : ∀ t ∈ w.tasks, FromRouter P.config t.trace)
    {digest : String} {entry : CacheEntry} (h : w.Genuine digest entry) : w.Backed entry := by
  obtain ⟨content, ⟨u, hu, before, client, options, response, hforward, hlooked, hsettled⟩,
    hresult⟩ := h.sourced
  have humem : u ∈ w.tasks := List.mem_of_getElem? hu
  have hanswered : Answered u.trace (.forward client options) (.ok response) :=
    (answered_snoc before _ _).mono hforward
  obtain ⟨service, hserving⟩ := u.serving_of_mem hanswered rfl
  obtain ⟨hjson, hsuccess⟩ := success_of_settled
    (hvetted u humem before client options response hforward hlooked) hsettled hresult h.healthy
  obtain ⟨tr, -, hclient, hbody, -⟩ := hserving.emits_of_mem hanswered rfl
  obtain ⟨hkey, hdigest, hactual⟩ := h.origin hinjective hu hserving
  have hfrom := hrouter u humem
  refine ⟨⟨u, client, options, response, hu, hanswered, ?_, ?_, hjson, hsuccess, ?_⟩,
    h.healthy⟩
  · rw [hclient, hserving.client_serverId hfrom, hactual]
  · rw [hbody, namedTool_buildForwardMessage (hserving.toolName_eq_empty hfrom), hactual]
  · intro t ht hreads
    obtain ⟨service', hserving', hkey', hgenuine⟩ := read_of_reads hprovenance ht hreads
    obtain ⟨-, hdigest', -⟩ := hgenuine.origin hinjective hu hserving
    have hsame := rearranged_of_digest hinjective hpaired humem ht hserving hserving' hkey hkey'
      hdigest'
    rw [hbody, sentArguments_buildForwardMessage, ← hactual]
    exact hsame.2

-- every entry that is ever held comes from the upstream of its server, as it was sent
theorem held_entries_backed (hinjective : Function.Injective P.host.sha256) {acts : List Act}
    (hreplies : Transition.Along step ExpectedReplies (init P) acts)
    (harguments : Transition.Along step DistinctArguments (init P) acts)
    (hrun : Transition.run step (init P) acts = some w)
    (hrouter : ∀ t ∈ w.tasks, FromRouter P.config t.trace) {entry : CacheEntry}
    (h : w.Held entry) : w.Backed entry := by
  have hprovenance := provenance_of_run hrun
  have hpaired := paired_of_run RequestPipeline.toldApartUnder_self
    (fun _ _ _ _ hapart => hapart.symm) harguments hrun
  obtain ⟨digest, hgenuine⟩ := h.genuine (fun _ => trivial) hprovenance
  exact backed_of_genuine hinjective hprovenance (vetted_of_run hreplies hrun) hpaired hrouter
    hgenuine

end World

section Example

variable {P : RequestPipeline}

def replying (reply : UpstreamResponse) : (o : Op) → Ans o
  | .forward _ _ => .ok reply
  | o => permissive o

-- resolve, getAnnotations, l1Get, enterFlight; forward, settleFlight, awaitFlight, now, l1Set
def missReplied (reply : UpstreamResponse) : List Act :=
  [.arrive (contactsCall "agent-7")] ++ List.replicate 4 (.answer 0 (replying reply)) ++
    [.takeEffect 0] ++ List.replicate 5 (.answer 0 (replying reply))

def contactsReply : UpstreamResponse where
  body := .obj [("jsonrpc", .str "2.0"), ("id", .ofNat 1),
    ("result", .obj [("content", .arr [])])]

def emptyReply : UpstreamResponse := { body := .null }

theorem expected_contactsReply : accountPipeline.Expected contactsReply :=
  .success rfl ⟨by decide, rfl, by decide⟩ (by decide) (fun _ => rfl)

theorem expectedReplies_missReplied :
    Transition.Along step ExpectedReplies (init accountPipeline) (missReplied contactsReply) := by
  refine Transition.Along.of_forall step (fun act hact w => ?_) _
  have hcases : act = .arrive (contactsCall "agent-7") ∨ act = .takeEffect 0 ∨
      act = .answer 0 (replying contactsReply) := by
    simp [missReplied] at hact
    tauto
  rcases hcases with rfl | rfl | rfl
  · trivial
  · trivial
  · intro t _ _ client options response _ hreply
    obtain rfl : contactsReply = response := Except.ok.inj hreply
    exact expected_contactsReply

theorem distinctArguments_missReplied (reply : UpstreamResponse) :
    Transition.Along step DistinctArguments (init accountPipeline) (missReplied reply) := by
  refine ⟨trivial, fun w hw => ?_⟩
  obtain rfl := Option.some.inj hw
  exact looksUpRelated_of_advances RequestPipeline.toldApartUnder_self rfl le_rfl

def accountRouter : ConduitRouter :=
  .init accountPipeline.config.router accountPipeline.config.servers

def replies (t : Task P) : List UpstreamResponse :=
  t.trace.filterMap fun
    | ⟨.forward _ _, .ok response⟩ => some response
    | _ => none

theorem mem_replies {t : Task P} {client : ClientRef} {options : UpstreamRequestOptions}
    {response : UpstreamResponse}
    (h : Answered t.trace (.forward client options) (.ok response)) : response ∈ replies t :=
  List.mem_filterMap.mpr ⟨_, h, rfl⟩

-- what the router and the upstream have answered, and the entry in L1
structure MissOutline where
  resolved : List (List (Option String × String × Resolution))
  replied : List (List UpstreamResponse)
  entry : Option CacheEntry
deriving DecidableEq

def missOutline (w : World P) : MissOutline where
  resolved := w.tasks.map fun t => resolutions t.trace
  replied := w.tasks.map replies
  entry := w.l1.entries.keys.head?.bind w.l1.entries.get?

def contactsEntry (result : Json) : CacheEntry := ⟨result, 0, 60, "list_contacts", "crm", 0⟩

def contactsOutline (reply : UpstreamResponse) (result : Json) : MissOutline where
  resolved :=
    [[(some "crm", "list_contacts", (accountRouter.resolve (some "crm") "list_contacts").2)]]
  replied := [[reply]]
  entry := some (contactsEntry result)

theorem run_contacts :
    (Transition.run step (init accountPipeline) (missReplied contactsReply)).map missOutline =
      some (contactsOutline contactsReply (.obj [("content", .arr [])])) := by decide +kernel

theorem run_empty :
    (Transition.run step (init accountPipeline) (missReplied emptyReply)).map missOutline =
      some (contactsOutline emptyReply (.obj [])) := by decide +kernel

theorem fromRouter_of_outline {w : World accountPipeline} {reply : UpstreamResponse} {result : Json}
    (h : missOutline w = contactsOutline reply result) :
    ∀ t ∈ w.tasks, FromRouter accountPipeline.config t.trace := by
  intro t ht
  have hreached : accountRouter.Reached accountPipeline.config.router :=
    ⟨accountPipeline.config.servers, [], rfl⟩
  refine .of_resolutions hreached fun r hr => ?_
  have hmem : resolutions t.trace ∈ (missOutline w).resolved := List.mem_map_of_mem ht
  rw [h] at hmem
  rw [List.mem_singleton.mp hmem] at hr
  obtain rfl := List.mem_singleton.mp hr
  rfl

theorem held_of_outline {w : World accountPipeline} {reply : UpstreamResponse} {result : Json}
    (h : missOutline w = contactsOutline reply result) : w.Held (contactsEntry result) := by
  have hentry : w.l1.entries.keys.head?.bind w.l1.entries.get? = some (contactsEntry result) :=
    congrArg MissOutline.entry h
  obtain ⟨digest, -, hget⟩ := Option.bind_eq_some_iff.mp hentry
  exact .l1 hget

theorem held_entries_backed_contacts : ∃ w : World accountPipeline,
    Transition.run step (init accountPipeline) (missReplied contactsReply) = some w ∧
      w.Backed (contactsEntry (.obj [("content", .arr [])])) := by
  obtain ⟨w, hrun, houtline⟩ := Option.map_eq_some_iff.mp run_contacts
  exact ⟨w, hrun, held_entries_backed (fun _ _ h => h) expectedReplies_missReplied
    (distinctArguments_missReplied contactsReply) hrun (fromRouter_of_outline houtline)
    (held_of_outline houtline)⟩

-- an answer without a body leaves an empty result that no upstream has sent
theorem empty_body_cached : ∃ w : World accountPipeline,
    Transition.run step (init accountPipeline) (missReplied emptyReply) = some w ∧
      (∀ t ∈ w.tasks, FromRouter accountPipeline.config t.trace) ∧
      w.Held (contactsEntry (.obj [])) ∧ ¬ w.Backed (contactsEntry (.obj [])) := by
  obtain ⟨w, hrun, houtline⟩ := Option.map_eq_some_iff.mp run_empty
  refine ⟨w, hrun, fromRouter_of_outline houtline, held_of_outline houtline, fun hbacked => ?_⟩
  obtain ⟨u, client, options, response, hu, hanswered, -, -, -, hsuccess, -⟩ := hbacked.reply
  have hmem : replies u ∈ (missOutline w).replied := List.mem_map_of_mem (List.mem_of_getElem? hu)
  have hreply := mem_replies hanswered
  rw [houtline] at hmem
  rw [List.mem_singleton.mp hmem] at hreply
  obtain rfl := List.mem_singleton.mp hreply
  cases hsuccess.version

end Example

end Conduit.Gateway
