import Conduit.Cache.StoreIndexes
import Conduit.Foundation.Playing
import Conduit.Gateway.System

namespace Conduit.Gateway

open Router Cache Proxy Program

-- the two caches as one call finds them; whatever else it asks is answered by its surroundings
structure Shelves where
  l1 : CacheStore
  exact : l1.Exact
  redis : OrderedMap String CacheEntry

def Op.usesCache : Op → Bool
  | .l1Get _ => true
  | .l1Set _ _ => true
  | .l1DeleteByTool _ _ => true
  | .l2Get _ => true
  | .l2Set _ _ _ => true
  | .l2DeleteByTool _ _ => true
  | _ => false

namespace Shelves

-- a scan may fail before it has reached every key
def sweep (redis : OrderedMap String CacheEntry) (toolName serverId : String)
    (reached : List String) : OrderedMap String CacheEntry :=
  reached.foldl (fun redis digest => World.deleteIfFor redis digest toolName serverId) redis

-- `now` is the time at which the call looks into L1, which it does once
inductive Serves (P : RequestPipeline) (now : ℕ) :
    Shelves → (o : Op) → Ans o → Shelves → Prop where
  | l1Get (s : Shelves) (key : CacheKeyOptions) :
      Serves P now s (.l1Get key) (s.l1.get (P.digest key) now).2
        { s with l1 := (s.l1.get (P.digest key) now).1, exact := s.exact.get _ _ }
  | l1Set (s : Shelves) (key : CacheKeyOptions) (entry : CacheEntry) :
      Serves P now s (.l1Set key entry) ()
        { s with l1 := s.l1.set (P.digest key) entry, exact := s.exact.set _ _ }
  | l1DeleteByTool (s : Shelves) (toolName serverId : String) :
      Serves P now s (.l1DeleteByTool toolName serverId) ()
        { s with
          l1 := (s.l1.deleteByTool toolName serverId).1
          exact := s.exact.deleteByTool _ _ }
  | l2Get (s : Shelves) (key : CacheKeyOptions) {found : Option CacheEntry}
      (h : found = none ∨ found = s.redis.get? (P.digest key)) : Serves P now s (.l2Get key) found s
  | l2Set (s : Shelves) (key : CacheKeyOptions) (entry : CacheEntry) (ttlSeconds : ℚ) :
      Serves P now s (.l2Set key entry ttlSeconds) ()
        { s with redis := s.redis.set (P.digest key) entry.reread }
  | l2SetFailed (s : Shelves) (key : CacheKeyOptions) (entry : CacheEntry) (ttlSeconds : ℚ) :
      Serves P now s (.l2Set key entry ttlSeconds) () s
  | l2DeleteByTool (s : Shelves) (toolName serverId : String) (reached : List String) :
      Serves P now s (.l2DeleteByTool toolName serverId) ()
        { s with redis := sweep s.redis toolName serverId reached }
  | surroundings (s : Shelves) {o : Op} (ho : o.usesCache = false) (a : Ans o) :
      Serves P now s o a s

variable {P : RequestPipeline} {now : ℕ}

def reply (P : RequestPipeline) (now : ℕ) (surroundings : (o : Op) → Ans o) (s : Shelves) :
    (o : Op) → Shelves × Ans o
  | .l1Get key =>
      ({ s with l1 := (s.l1.get (P.digest key) now).1, exact := s.exact.get _ _ },
        (s.l1.get (P.digest key) now).2)
  | .l1Set key entry =>
      ({ s with l1 := s.l1.set (P.digest key) entry, exact := s.exact.set _ _ }, ())
  | .l1DeleteByTool toolName serverId =>
      ({ s with
         l1 := (s.l1.deleteByTool toolName serverId).1
         exact := s.exact.deleteByTool _ _ }, ())
  | .l2Get key => (s, s.redis.get? (P.digest key))
  | .l2Set key entry _ => ({ s with redis := s.redis.set (P.digest key) entry.reread }, ())
  | .l2DeleteByTool toolName serverId =>
      ({ s with redis := sweep s.redis toolName serverId s.redis.keys }, ())
  | o => (s, surroundings o)

theorem serves_reply (surroundings : (o : Op) → Ans o) (s : Shelves) (o : Op) :
    Serves P now s o (s.reply P now surroundings o).2 (s.reply P now surroundings o).1 := by
  cases o with
  | l1Get key => exact .l1Get s key
  | l1Set key entry => exact .l1Set s key entry
  | l1DeleteByTool toolName serverId => exact .l1DeleteByTool s toolName serverId
  | l2Get key => exact .l2Get s key (.inr rfl)
  | l2Set key entry ttlSeconds => exact .l2Set s key entry ttlSeconds
  | l2DeleteByTool toolName serverId => exact .l2DeleteByTool s toolName serverId _
  | _ => exact .surroundings s rfl _

end Shelves

-- an answer that gives the caller a response, or something to make one of
def supplies : (o : Op) → Ans o → Bool
  | .forward _ _, _ => true
  | .runHook _, response => response.isSome
  | .l1Get _, found => found.isSome
  | .l2Get _, found => found.isSome
  | .awaitFlight _, result =>
      match result.settlement with
      | .identityError _ => false
      | _ => true
  | _, _ => false

def Unsupplied (tr : Trace) : Prop := ∀ e ∈ tr, supplies e.1 e.2 = false

instance (tr : Trace) : Decidable (Unsupplied tr) :=
  inferInstanceAs (Decidable (∀ e ∈ tr, supplies e.1 e.2 = false))

theorem Unsupplied.snoc {tr : Trace} {o : Op} {a : Ans o} (h : Unsupplied tr)
    (ha : supplies o a = false) : Unsupplied (tr ++ [⟨o, a⟩]) := by
  intro e he
  rcases List.mem_append.mp he with hold | hnew
  · exact h e hold
  · obtain rfl := List.mem_singleton.mp hnew
    exact ha

theorem Unsupplied.of_prefix {tr tr' : Trace} (h : Unsupplied tr') (hextends : tr <+: tr') :
    Unsupplied tr :=
  fun e he => h e (hextends.subset he)

theorem Unsupplied.not_answered {tr : Trace} {o : Op} {a : Ans o} (h : Unsupplied tr)
    (ha : supplies o a = true) : ¬ Answered tr o a := by
  intro hanswered
  rw [h _ hanswered] at ha
  cases ha

def RequestPipeline.caches (P : RequestPipeline) (service : Service) : Bool :=
  service.policy.shouldCache && P.config.cache.enabled

-- the service that admission has ended with
def Dispatched (P : RequestPipeline) (call : ToolCall) (tr : Trace) (service : Service) : Prop :=
  ∃ tr₁ tr₂, tr = tr₁ ++ tr₂ ∧ Steps (P.admission call) tr₁ (.pure service)

def Op.guarded : Op → Prop
  | .l1Get _ => True
  | .forward _ _ => True
  | _ => False

namespace Service

variable (P : RequestPipeline) (call : ToolCall) (now : ℕ) (service : Service)

-- what a call that nothing has supplied may have done to the caches
def Sparing : Op → Prop
  | .l1Get key => key = P.cacheKey call service ∧ P.caches service = true
  | .l1Set _ _ => False
  | .l2Set _ _ _ => False
  | .l1DeleteByTool toolName serverId => Invalidates service toolName serverId
  | .l2DeleteByTool toolName serverId => Invalidates service toolName serverId
  | _ => True

-- the entry that the call has looked up, and found expired
def Expires (key : String) (entry : CacheEntry) : Prop :=
  P.caches service = true ∧ key = P.digest (P.cacheKey call service) ∧ entry.expired now = true

def Sweeps (entry : CacheEntry) : Prop :=
  service.policy.isDestructive = true ∧ ∃ toolName ∈ service.policy.invalidates,
    entry.indexKey = toolIndexKey toolName service.actual.serverId

def SweepsL2 (entry : CacheEntry) : Prop :=
  service.policy.isDestructive = true ∧ ∃ toolName ∈ service.policy.invalidates,
    entry.IsFor toolName service.actual.serverId

structure Spares (s s' : Shelves) : Prop where
  l1 : OrderedMap.Thins (fun key entry => Expires P call now service key entry ∨ Sweeps service entry)
    s.l1.entries s'.l1.entries
  l2 : OrderedMap.Thins (fun _ entry => SweepsL2 service entry) s.redis s'.redis

variable {P call now service}

theorem Spares.refl (s : Shelves) : Spares P call now service s s := ⟨.refl _, .refl _⟩

theorem Spares.trans {s₁ s₂ s₃ : Shelves} (h₁ : Spares P call now service s₁ s₂)
    (h₂ : Spares P call now service s₂ s₃) : Spares P call now service s₁ s₃ :=
  ⟨h₁.l1.trans h₂.l1, h₁.l2.trans h₂.l2⟩

theorem thins_get {S : CacheStore} (hcaches : P.caches service = true) :
    OrderedMap.Thins
      (fun key entry => Expires P call now service key entry ∨ Sweeps service entry)
      S.entries (S.get (P.digest (P.cacheKey call service)) now).1.entries := by
  unfold CacheStore.get
  split
  · exact .refl _
  next found hfound =>
    split
    next hexpired =>
      constructor
      · intro key entry hentry
        rw [CacheStore.get?_delete] at hentry
        exact (Option.ite_none_left_eq_some.mp hentry).2
      · intro key entry hentry
        rw [CacheStore.get?_delete]
        split
        next heq =>
          subst heq
          obtain rfl := Option.some.inj (hfound.symm.trans hentry)
          exact .inr (.inl ⟨hcaches, rfl, hexpired⟩)
        next => exact .inl hentry
    next => exact .refl _

theorem thins_deleteByTool {S : CacheStore} (hS : S.Exact) {toolName serverId : String}
    (h : Invalidates service toolName serverId) :
    OrderedMap.Thins
      (fun key entry => Expires P call now service key entry ∨ Sweeps service entry)
      S.entries (S.deleteByTool toolName serverId).1.entries := by
  obtain ⟨rfl, hdestructive, hmem⟩ := h
  refine .of_forall (hS.removes_indexKey toolName service.actual.serverId).entries ?_
  exact fun key entry _ hentry => .inr ⟨hdestructive, toolName, hmem, hentry⟩

theorem thins_sweep {toolName serverId : String} (h : Invalidates service toolName serverId)
    (redis : OrderedMap String CacheEntry) (reached : List String) :
    OrderedMap.Thins (fun _ entry => SweepsL2 service entry) redis
      (Shelves.sweep redis toolName serverId reached) := by
  obtain ⟨rfl, hdestructive, hmem⟩ := h
  refine .foldl (fun redis digest => ?_) reached redis
  unfold World.deleteIfFor
  split
  · exact .refl _
  next found hfound =>
    split
    next hfor =>
      refine .delete fun entry hentry => ?_
      obtain rfl := Option.some.inj (hfound.symm.trans hentry)
      exact ⟨hdestructive, toolName, hmem, hfor⟩
    next => exact .refl _

theorem spares_of_serves {s s' : Shelves} {o : Op} {a : Ans o}
    (h : Shelves.Serves P now s o a s') (ho : Sparing P call service o) :
    Spares P call now service s s' := by
  cases h with
  | l1Get key =>
      obtain ⟨rfl, hcaches⟩ := ho
      exact ⟨thins_get hcaches, .refl _⟩
  | l1Set key entry => exact ho.elim
  | l1DeleteByTool toolName serverId => exact ⟨thins_deleteByTool s.exact ho, .refl _⟩
  | l2Get key h => exact .refl s
  | l2Set key entry ttlSeconds => exact ho.elim
  | l2SetFailed key entry ttlSeconds => exact ho.elim
  | l2DeleteByTool toolName serverId reached => exact ⟨.refl _, thins_sweep ho _ _⟩
  | surroundings hsurroundings a => exact .refl s

-- L1 is looked into on one path only, and nothing is forwarded after an answer was supplied
def outgoing (P : RequestPipeline) (call : ToolCall) (service : Service) :
    Contract Op Ans Outcome where
  rely := fun _ _ => True
  emits := fun tr o =>
    match o with
    | .l1Get _ => P.caches service = true
    | .forward _ _ => Unsupplied tr ∧ (P.caches service = true → Looked P call service tr)
    | _ => True
  exits := fun _ _ => True

end Service

namespace RequestPipeline

variable {P : RequestPipeline} {call : ToolCall} {service : Service}

open Service

theorem outgoing_of_avoids {α : Type} {p : Proc α} (hp : Avoids Op.guarded p) (tr : Trace) :
    Meets (outgoing P call service) (fun _ _ => True) p tr := by
  refine Meets.of_avoids (fun tr o ho => ?_) (fun _ _ => trivial) hp tr
  cases o <;> first | exact trivial | exact absurd trivial ho

theorem outgoing_ask {o : Op} (ho : ¬ Op.guarded o) (hsupplies : ∀ a, supplies o a = false)
    {tr : Trace} (h : Unsupplied tr) :
    Meets (outgoing P call service) (fun tr' _ => Unsupplied tr') (perform o) tr := by
  refine meets_ask.2 ⟨?_, fun a _ => h.snoc (hsupplies a)⟩
  cases o <;> first | exact trivial | exact absurd trivial ho

theorem runHook_outgoing (name : HookName) {tr : Trace} (h : Unsupplied tr) :
    Meets (outgoing P call service) (fun tr' _ => Unsupplied tr') (P.runHook name) tr := by
  unfold runHook
  split
  · refine Meets.ask_bind trivial fun response _ => ?_
    cases response with
    | none => exact h.snoc rfl
    | some response => trivial
  · exact h

theorem consumeServerLimits_outgoing (actual : ToolTarget) {tr : Trace} (h : Unsupplied tr) :
    Meets (outgoing P call service) (fun tr' _ => Unsupplied tr')
      (P.consumeServerLimits call actual) tr := by
  unfold consumeServerLimits
  split
  · refine Meets.ask_bind trivial fun decision _ => ?_
    unfold checkLimit
    split
    · exact h.snoc rfl
    · trivial
  · exact h

theorem invalidateTool_outgoing (serverId toolName : String) {tr : Trace} (h : Unsupplied tr) :
    Meets (outgoing P call service) (fun tr' _ => Unsupplied tr')
      (P.invalidateTool serverId toolName) tr := by
  unfold invalidateTool
  refine Meets.ask_bind trivial fun _ _ => ?_
  split
  · exact outgoing_ask id (fun _ => rfl) (h.snoc rfl)
  · exact h.snoc rfl

theorem invalidateAll_outgoing (serverId : String) (toolNames : List String) {tr : Trace}
    (h : Unsupplied tr) : Meets (outgoing P call service) (fun tr' _ => Unsupplied tr')
      (P.invalidateAll serverId toolNames) tr := by
  induction toolNames generalizing tr with
  | nil => exact h
  | cons toolName rest ih =>
      exact (invalidateTool_outgoing serverId toolName h).bind fun tr' _ _ h' => ih h'

theorem invalidate_outgoing (serverId : String) (policy : CachePolicyDecision) {tr : Trace}
    (h : Unsupplied tr) : Meets (outgoing P call service) (fun tr' _ => Unsupplied tr')
      (P.invalidate serverId policy) tr := by
  unfold invalidate
  split
  · exact invalidateAll_outgoing serverId _ h
  · exact h

theorem passthroughToServer_outgoing (message : Json) (client : ClientRef)
    (serverConfig : ServerConfig) {tr : Trace} (h : Unsupplied tr)
    (hlooked : P.caches service = true → Looked P call service tr) :
    Meets (outgoing P call service) (fun _ _ => True)
      (P.passthroughToServer call message client serverConfig) tr := by
  unfold passthroughToServer
  split
  · trivial
  · refine Meets.ask_bind ⟨h, hlooked⟩ fun response _ => ?_
    cases response <;> trivial

theorem lookup_outgoing {tr : Trace} (hcaches : P.caches service = true) (h : Unsupplied tr) :
    Meets (outgoing P call service)
      (fun tr' _ => Unsupplied tr' ∧ Looked P call service tr')
      (lookup call (P.cacheKey call service)) tr := by
  unfold lookup
  refine Meets.ask_bind hcaches fun found _ => ?_
  cases found with
  | none => exact ⟨h.snoc rfl, none, answered_snoc ..⟩
  | some entry => trivial

theorem lookupL2_outgoing {tr : Trace} (h : Unsupplied tr) :
    Meets (outgoing P call service) (fun tr' _ => Unsupplied tr')
      (P.lookupL2 call (P.cacheKey call service)) tr := by
  unfold lookupL2
  split
  · refine Meets.ask_bind trivial fun found _ => ?_
    cases found with
    | none => exact h.snoc rfl
    | some entry => exact Meets.ask_bind trivial fun _ _ => trivial
  · exact h

theorem deduplicate_outgoing {tr : Trace} (h : Unsupplied tr)
    (hlooked : Looked P call service tr) :
    Meets (outgoing P call service) (fun _ _ => True)
      (deduplicate call (P.cacheKey call service) (P.fetch call service)) tr := by
  unfold deduplicate
  refine Meets.ask_bind trivial fun entered _ => ?_
  cases entered with
  | joined flight => exact outgoing_of_avoids (avoids_ask id) _
  | started flight =>
      have hfetch : Meets (outgoing P call service) (fun _ _ => True) (P.fetch call service)
          (tr ++ [⟨.enterFlight (P.cacheKey call service), .started flight⟩]) := by
        have hlooked' := hlooked.mono (List.prefix_append tr
          [(⟨.enterFlight (P.cacheKey call service), .started flight⟩ : Event Op Ans)])
        exact (passthroughToServer_outgoing _ _ _ (h.snoc rfl) fun _ => hlooked').bind
          fun _ _ _ _ => trivial
      refine hfetch.bind fun tr' settlement _ _ => ?_
      exact outgoing_of_avoids (Avoids.ask_bind id fun _ => avoids_ask id) tr'

theorem avoids_runHook (name : HookName) : Avoids Op.guarded (P.runHook name) := by
  unfold runHook
  split
  · refine Avoids.ask_bind id fun response => ?_
    cases response with
    | none => exact avoids_pure _
    | some response => exact avoids_exit _
  · exact avoids_pure _

theorem avoids_storeAndRespond (content : Json) (origin : CallId) :
    Avoids Op.guarded (P.storeAndRespond call service content origin) := by
  unfold storeAndRespond store
  refine Avoids.ask_bind id fun createdAt => Avoids.bind ?_ fun _ =>
    (avoids_runHook _).bind fun _ => avoids_pure _
  refine Avoids.ask_bind id fun _ => ?_
  split
  · exact avoids_ask id
  · exact avoids_pure _

theorem callThroughCache_outgoing {tr : Trace} (hcaches : P.caches service = true)
    (h : Unsupplied tr) : Meets (outgoing P call service) (fun _ _ => True)
      (P.callThroughCache call service) tr := by
  unfold callThroughCache
  refine (runHook_outgoing .beforeCache h).bind fun tr₁ _ _ h₁ => ?_
  refine (lookup_outgoing hcaches h₁).bind fun tr₂ _ _ h₂ => ?_
  refine (lookupL2_outgoing h₂.1).bind fun tr₃ _ h₂₃ h₃ => ?_
  refine (consumeServerLimits_outgoing service.actual h₃).bind fun tr₄ _ h₃₄ h₄ => ?_
  refine (deduplicate_outgoing h₄ (h₂.2.mono (h₂₃.trans h₃₄))).bind fun tr₅ result _ _ => ?_
  refine outgoing_of_avoids ?_ tr₅
  have hcontent : Avoids Op.guarded (contentOf call result) := by
    unfold contentOf
    split <;> trivial
  refine hcontent.bind fun content => (avoids_runHook _).bind fun _ => ?_
  split
  · exact avoids_pure _
  · exact avoids_storeAndRespond content result.origin

theorem callUpstream_outgoing {tr : Trace} (hcaches : ¬ P.caches service = true)
    (h : Unsupplied tr) : Meets (outgoing P call service) (fun _ _ => True)
      (P.callUpstream call service) tr := by
  unfold callUpstream
  refine (consumeServerLimits_outgoing service.actual h).bind fun tr₁ _ _ h₁ => ?_
  refine (passthroughToServer_outgoing _ _ _ h₁ fun h => absurd h hcaches).bind
    fun tr₂ exchange _ _ => ?_
  cases exchange <;> trivial

theorem dispatch_outgoing : Meets (outgoing P call service) (fun _ _ => True)
    (P.dispatch call service) [] := by
  unfold dispatch
  have hnothing : Unsupplied [] := fun _ he => absurd he (List.not_mem_nil)
  refine (invalidate_outgoing _ _ hnothing).bind fun tr₁ _ _ h₁ => ?_
  split
  next hcaches => exact callThroughCache_outgoing hcaches h₁
  next hcaches => exact callUpstream_outgoing hcaches h₁

theorem outgoing_of_steps {tr : Trace} {o : Op} {next : Ans o → Proc Outcome}
    (h : Steps (P.dispatch call service) tr (.op o next)) :
    (outgoing P call service).emits tr o :=
  (Meets.of_steps dispatch_outgoing h fun _ _ => trivial).1

theorem sparing_of_steps {tr : Trace} {q : Proc Outcome}
    (h : Steps (P.dispatch call service) tr q) (hunsupplied : Unsupplied tr) :
    ∀ e ∈ tr, Sparing P call service e.1 := by
  intro e he
  obtain ⟨tr₁, tr₂, rfl⟩ := List.append_of_mem he
  have hbefore : Unsupplied tr₁ := hunsupplied.of_prefix (List.prefix_append ..)
  have hemits : emits P call service tr₁ e.1 :=
    Meets.emits_of_steps (dispatch_meets []) h fun _ _ => trivial
  have hlooks : (outgoing P call service).emits tr₁ e.1 :=
    Meets.emits_of_steps dispatch_outgoing h fun _ _ => trivial
  obtain ⟨o, a⟩ := e
  cases o with
  | l1Get key => exact ⟨hemits, hlooks⟩
  | l1Set key entry =>
      obtain ⟨-, -, hpromoted | hfresh⟩ := hemits
      · exact hbefore.not_answered rfl hpromoted
      · obtain ⟨flight, hflown⟩ := hfresh.flown
        exact hbefore.not_answered rfl hflown
  | l2Set key entry ttlSeconds =>
      obtain ⟨-, -, hfresh, -⟩ := hemits
      obtain ⟨flight, hflown⟩ := hfresh.flown
      exact hbefore.not_answered rfl hflown
  | l1DeleteByTool toolName serverId => exact hemits
  | l2DeleteByTool toolName serverId => exact hemits
  | _ => exact trivial

theorem spares_of_plays {now : ℕ} {s s' : Shelves} {tr : Trace} {q : Proc Outcome}
    (h : Plays (Shelves.Serves P now) s (P.dispatch call service) tr s' q)
    (hunsupplied : Unsupplied tr) : Spares P call now service s s' :=
  h.related .refl (fun _ _ _ => .trans) fun e he _ _ hserves =>
    spares_of_serves hserves (sparing_of_steps h.steps hunsupplied e he)

theorem eq_of_admission {now : ℕ} {s s' : Shelves} {tr : Trace} {q : Proc Service}
    (h : Plays (Shelves.Serves P now) s (P.admission call) tr s' q) : s' = s := by
  refine h.related (R := fun s s' => s' = s) (fun _ => rfl) (fun _ _ _ h₁ h₂ => h₂.trans h₁) ?_
  rintro ⟨o, a⟩ he s₁ s₂ hserves
  have hadmission := isAdmission_of_steps h.steps he
  cases hserves with
  | surroundings => rfl
  | l2Get => rfl
  | l2SetFailed => rfl
  | _ => cases hadmission

theorem handleToolCall_plays {now : ℕ} {s s' : Shelves} {tr : Trace} {q : Proc Outcome}
    (h : Plays (Shelves.Serves P now) s (P.handleToolCall call) tr s' q) :
    (s' = s ∧ ∃ p, Steps (P.admission call) tr p ∧ q = p >>= P.dispatch call ∧
        ∀ service, p ≠ .pure service) ∨
      ∃ service tr₁ tr₂, tr = tr₁ ++ tr₂ ∧ Steps (P.admission call) tr₁ (.pure service) ∧
        Plays (Shelves.Serves P now) s (P.dispatch call service) tr₂ s' q := by
  rcases h.bind_cases with ⟨p, hp, hq, hne⟩ | ⟨service, tr₁, tr₂, s₁, htr, hadmit, hdispatch⟩
  · exact .inl ⟨eq_of_admission hp, p, hp.steps, hq, hne⟩
  · obtain rfl := eq_of_admission hadmit
    exact .inr ⟨service, tr₁, tr₂, htr, hadmit.steps, hdispatch⟩

theorem forward_plays {now : ℕ} {s s' : Shelves} {tr : Trace} {client : ClientRef}
    {options : UpstreamRequestOptions} {next : Except String UpstreamResponse → Proc Outcome}
    (h : Plays (Shelves.Serves P now) s (P.handleToolCall call) tr s'
      (.op (.forward client options) next)) :
    ∃ service tr₁ tr₂, tr = tr₁ ++ tr₂ ∧ Steps (P.admission call) tr₁ (.pure service) ∧
      Plays (Shelves.Serves P now) s (P.dispatch call service) tr₂ s'
        (.op (.forward client options) next) := by
  rcases handleToolCall_plays h with ⟨-, p, hp, hq, hne⟩ | hdispatched
  · cases p with
    | pure service => exact absurd rfl (hne service)
    | exit out => cases hq
    | op o next' =>
        have hadmission : o.isAdmission = true :=
          (Meets.of_steps admission_meets hp fun _ _ => trivial).1
        cases hq
        cases hadmission
  · exact hdispatched

end RequestPipeline

end Conduit.Gateway
