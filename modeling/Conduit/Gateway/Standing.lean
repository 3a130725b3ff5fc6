import Conduit.Cache.KeyContents
import Conduit.Cache.StoreIndexes
import Conduit.Gateway.Lifecycle

namespace Conduit.Gateway

open Router Cache Program World

namespace Session

variable {P : RequestPipeline} {σ : Session P} {service : Service}

-- the call has read an entry, is reading one, or has entered a flight
def Holds (σ : Session P) : Prop :=
  (∃ key entry, Answered σ.task.trace (.l1Get key) (some entry) ∨
    Answered σ.task.trace (.l2Get key) (some entry)) ∨
  (∃ entry, σ.task.phase = .read (some entry)) ∨
  ∃ key entered, Answered σ.task.trace (.enterFlight key) entered

theorem targets_of_serving (h : σ.task.Serving service) :
    σ.Targets service.actual.serverId := by
  obtain ⟨resolution, routed, annotations, hresolve, hactual, -⟩ := h.admits.resolved
  exact ⟨_, _, resolution, hresolve, by rw [hactual]⟩

-- the keys that a call uses are keys of its target
theorem targets_of_l1Get {key : CacheKeyOptions} {found : Option CacheEntry}
    (h : Answered σ.task.trace (.l1Get key) found) : σ.Targets key.serverId := by
  obtain ⟨service, hserving⟩ := σ.task.serving_of_mem h rfl
  obtain ⟨tr, -, rfl⟩ := hserving.emits_of_mem h rfl
  exact targets_of_serving hserving

theorem targets_of_l2Get {key : CacheKeyOptions} {found : Option CacheEntry}
    (h : Answered σ.task.trace (.l2Get key) found) : σ.Targets key.serverId := by
  obtain ⟨service, hserving⟩ := σ.task.serving_of_mem h rfl
  obtain ⟨tr, -, rfl, -⟩ := hserving.emits_of_mem h rfl
  exact targets_of_serving hserving

theorem targets_of_enterFlight {key : CacheKeyOptions} {entered : FlightEntry}
    (h : Answered σ.task.trace (.enterFlight key) entered) : σ.Targets key.serverId := by
  obtain ⟨service, hserving⟩ := σ.task.serving_of_mem h rfl
  obtain ⟨tr, -, rfl, -⟩ := hserving.emits_of_mem h rfl
  exact targets_of_serving hserving

theorem targets_of_pending_l2Get {key : CacheKeyOptions}
    (h : σ.task.pending? = some (.l2Get key)) : σ.Targets key.serverId := by
  unfold Task.pending? at h
  split at h
  next o next hrest =>
    obtain rfl := Option.some.inj h
    obtain ⟨service, hserving⟩ := σ.task.serving_of_rest hrest rfl
    obtain ⟨rfl, -⟩ := hserving.emits_of_rest hrest
    exact targets_of_serving hserving
  next => cases h

theorem asked_advanced {purges : String → ℕ} {thread : Thread σ.pipeline.handleToolCall}
    {asked : String → ℕ} (h : σ.asked = some asked) :
    (σ.advanced purges thread).asked = some asked := by
  unfold advanced
  rw [h]
  simp

theorem asked_advanced_cases {purges asked : String → ℕ}
    {thread : Thread σ.pipeline.handleToolCall}
    (h : (σ.advanced purges thread).asked = some asked) :
    σ.asked = some asked ∨ asked = purges ∧ thread.trace.any startsFlight = true := by
  simp only [advanced] at h
  split at h
  next hstarted =>
    cases hasked : σ.asked with
    | none =>
        rw [hasked] at h
        exact .inr ⟨(Option.some.inj h).symm, hstarted⟩
    | some before =>
        rw [hasked] at h
        exact .inl h
  next => exact .inl h

theorem asked_of_started {purges : String → ℕ} {thread : Thread σ.pipeline.handleToolCall}
    {key : CacheKeyOptions} {flight : FlightId}
    (h : Answered thread.trace (.enterFlight key) (.started flight)) :
    (σ.advanced purges thread).asked.isSome = true := by
  have hstarted : thread.trace.any startsFlight = true := List.any_eq_true.mpr ⟨_, h, rfl⟩
  simp only [advanced, hstarted, if_true]
  cases σ.asked <;> rfl

theorem enterFlight_of_startsFlight {trace : Trace} (h : trace.any startsFlight = true) :
    ∃ key entered, Answered trace (.enterFlight key) entered := by
  obtain ⟨⟨o, a⟩, he, hstarts⟩ := List.any_eq_true.mp h
  cases o with
  | enterFlight key => exact ⟨key, a, he⟩
  | _ => cases hstarts

end Session

namespace Installation

variable {P : RequestPipeline} {s s' : Installation P}

-- the call was resolved to the server after its last removal, and asked it after its last purge
def Marked (s : Installation P) (origin : CallId) (serverId : String) : Prop :=
  ∃ u : Session P, s.sessions[origin]? = some u ∧ u.through serverId = s.removals serverId ∧
    ∃ purges, u.asked = some purges ∧ purges serverId = s.purges serverId

def Kept (s : Installation P) (digest : String) (entry : CacheEntry) : Prop :=
  s.Marked entry.origin entry.serverId ∧
    ∃ key, P.digest key = digest ∧ key.serverId = entry.serverId

-- what an answer that a call has been given still tells about the shared state
def Attests (s : Installation P) (σ : Session P) : (o : Op) → Ans o → Prop
  | .l1Get key, found => ∀ entry, found = some entry →
      entry.serverId = key.serverId ∧ s.Marked entry.origin key.serverId
  | .l2Get key, found => ∀ entry, found = some entry →
      entry.serverId = key.serverId ∧ s.Marked entry.origin key.serverId
  | .enterFlight key, entered =>
      (∃ flight : Flight FlightResult, s.inflight.flights[entered.flight]? = some flight ∧
        flight.key = P.digest key) ∧
      (∀ result, s.inflight.result? entered.flight = some result →
        s.Marked result.origin key.serverId) ∧
      ∀ flight, entered = .started flight → σ.asked.isSome = true
  | .awaitFlight flight, result => s.inflight.result? flight = some result
  | _, _ => True

structure Sound (s : Installation P) (σ : Session P) : Prop where
  through : ∀ serverId, σ.Targets serverId → σ.through serverId = s.removals serverId
  asked : ∀ serverId purges, σ.Targets serverId → σ.asked = some purges →
    purges serverId = s.purges serverId
  entered : σ.asked.isSome = true →
    ∃ key entered, Answered σ.task.trace (.enterFlight key) entered
  heard : ∀ e ∈ σ.task.trace, s.Attests σ e.1 e.2
  reading : ∀ entry key, σ.task.phase = .read (some entry) →
    σ.task.pending? = some (.l2Get key) →
      entry.serverId = key.serverId ∧ s.Marked entry.origin key.serverId

structure Current (s : Installation P) : Prop where
  self : ∀ (c : CallId) (σ : Session P), s.sessions[c]? = some σ → σ.task.call.self = c
  sound : ∀ (c : CallId) (σ : Session P), s.sessions[c]? = some σ → σ.task.finished = false →
    s.Sound σ
  l1 : ∀ digest entry, s.l1.entries.get? digest = some entry → s.Kept digest entry
  redis : ∀ digest entry, s.redis.get? digest = some entry → s.Kept digest entry
  writes : ∀ digest entry, (digest, entry) ∈ s.writes → s.Kept digest entry
  flights : s.inflight.Open
  indexed : s.l1.Exact

theorem current_init : (init P).Current where
  self := by simp [init]
  sound := by simp [init]
  l1 := by simp [init, CacheStore.init]
  redis := by simp [init]
  writes := by simp [init]
  flights := InflightTracker.open_init
  indexed := CacheStore.exact_init _

-- calls keep what they were resolved through and when they asked
def Follows (s s' : Installation P) : Prop :=
  ∀ (c : CallId) (σ : Session P), s.sessions[c]? = some σ →
    ∃ σ' : Session P, s'.sessions[c]? = some σ' ∧ σ'.through = σ.through ∧
      ∀ purges, σ.asked = some purges → σ'.asked = some purges

-- the server is neither removed nor purged
def Spares (s s' : Installation P) (serverId : String) : Prop :=
  s'.removals serverId = s.removals serverId ∧ s'.purges serverId = s.purges serverId

theorem Marked.mono {origin : CallId} {serverId : String} (h : s.Marked origin serverId)
    (hfollows : s.Follows s') (hspares : s.Spares s' serverId) : s'.Marked origin serverId := by
  obtain ⟨u, hu, hthrough, purges, hasked, hpurges⟩ := h
  obtain ⟨u', hu', hsame, hkept⟩ := hfollows origin u hu
  refine ⟨u', hu', ?_, purges, hkept purges hasked, ?_⟩
  · rw [hsame, hspares.1]
    exact hthrough
  · rw [hspares.2]
    exact hpurges

theorem Kept.mono {digest : String} {entry : CacheEntry} (h : s.Kept digest entry)
    (hfollows : s.Follows s') (hspares : s.Spares s' entry.serverId) : s'.Kept digest entry :=
  ⟨h.1.mono hfollows hspares, h.2⟩

-- results that are new come from a marked call under the flight's key
structure Settles (s s' : Installation P) : Prop where
  flights : s.inflight.Extends s'.inflight
  kept : ∀ flight result, s.inflight.result? flight = some result →
    s'.inflight.result? flight = some result
  fresh : ∀ flight result, s'.inflight.result? flight = some result →
    s.inflight.result? flight = some result ∨
      ∃ key, (∃ entry : Flight FlightResult, s.inflight.flights[flight]? = some entry ∧
        entry.key = P.digest key) ∧ s'.Marked result.origin key.serverId

theorem settles_of_inflight (h : s'.inflight = s.inflight) : s.Settles s' where
  flights := h ▸ .refl _
  kept := fun _ _ hresult => h ▸ hresult
  fresh := fun _ _ hresult => .inl (h ▸ hresult)

theorem serverId_of_digest (hinjective : Function.Injective P.host.sha256)
    {key key' : CacheKeyOptions} (h : P.digest key = P.digest key') : key.serverId = key'.serverId :=
  (sameKey_of_generateCacheKey hinjective h).serverId

theorem Attests.mono (hinjective : Function.Injective P.host.sha256) {σ σ' : Session P} {o : Op}
    {a : Ans o} (h : s.Attests σ o a) (he : Answered σ.task.trace o a)
    (hfollows : s.Follows s') (hsettles : s.Settles s')
    (hspares : ∀ serverId, σ.Targets serverId → σ.Holds → s.Spares s' serverId)
    (hasked : σ.asked.isSome = true → σ'.asked.isSome = true) : s'.Attests σ' o a := by
  cases o with
  | l1Get key =>
      intro entry hentry
      subst hentry
      have hholds : σ.Holds := .inl ⟨key, entry, .inl he⟩
      have hspared := hspares _ (Session.targets_of_l1Get he) hholds
      exact ⟨(h entry rfl).1, (h entry rfl).2.mono hfollows hspared⟩
  | l2Get key =>
      intro entry hentry
      subst hentry
      have hholds : σ.Holds := .inl ⟨key, entry, .inr he⟩
      have hspared := hspares _ (Session.targets_of_l2Get he) hholds
      exact ⟨(h entry rfl).1, (h entry rfl).2.mono hfollows hspared⟩
  | enterFlight key =>
      obtain ⟨⟨flight, hflight, hkey⟩, hresults, hstarted⟩ := h
      obtain ⟨flight', hflight', hkey', -⟩ := hsettles.flights _ _ hflight
      refine ⟨⟨flight', hflight', hkey'.trans hkey⟩, fun result hresult => ?_,
        fun f hf => hasked (hstarted f hf)⟩
      have hholds : σ.Holds := .inr (.inr ⟨key, a, he⟩)
      have hspared := hspares _ (Session.targets_of_enterFlight he) hholds
      rcases hsettles.fresh _ _ hresult with hold | ⟨key₁, ⟨entry, hentry, hentrykey⟩, hmarked⟩
      · exact (hresults result hold).mono hfollows hspared
      · obtain rfl := Option.some.inj (hflight.symm.trans hentry)
        rw [serverId_of_digest hinjective (hkey.symm.trans hentrykey)]
        exact hmarked
  | awaitFlight flight => exact hsettles.kept _ _ h
  | _ => exact trivial

theorem Sound.mono (hinjective : Function.Injective P.host.sha256) {σ : Session P}
    (h : s.Sound σ) (hfollows : s.Follows s') (hsettles : s.Settles s')
    (hremovals : ∀ serverId, σ.Targets serverId → s'.removals serverId = s.removals serverId)
    (hpurges : ∀ serverId, σ.Targets serverId → σ.Holds →
      s'.purges serverId = s.purges serverId) : s'.Sound σ := by
  have hspares : ∀ serverId, σ.Targets serverId → σ.Holds → s.Spares s' serverId :=
    fun serverId htargets hholds =>
      ⟨hremovals serverId htargets, hpurges serverId htargets hholds⟩
  refine ⟨?_, ?_, h.entered, ?_, ?_⟩
  · intro serverId htargets
    rw [hremovals serverId htargets]
    exact h.through serverId htargets
  · intro serverId purges htargets hasked
    obtain ⟨key, entered, hentered⟩ := h.entered (by rw [hasked]; rfl)
    rw [hpurges serverId htargets (.inr (.inr ⟨key, entered, hentered⟩))]
    exact h.asked serverId purges htargets hasked
  · exact fun e he => (h.heard e he).mono hinjective he hfollows hsettles hspares id
  · intro entry key hphase hpending
    have hholds : σ.Holds := .inr (.inl ⟨entry, hphase⟩)
    have hspared := hspares _ (Session.targets_of_pending_l2Get hpending) hholds
    obtain ⟨hserver, hmarked⟩ := h.reading entry key hphase hpending
    exact ⟨hserver, hmarked.mono hfollows hspared⟩

theorem Sound.inPhase {σ : Session P} (h : s.Sound σ) (phase : Phase)
    (hread : ∀ entry key, phase = .read (some entry) → σ.task.pending? = some (.l2Get key) →
      entry.serverId = key.serverId ∧ s.Marked entry.origin key.serverId) :
    s.Sound (σ.inPhase phase) where
  through := h.through
  asked := h.asked
  entered := h.entered
  heard := by
    intro ⟨o, a⟩ he
    have hold := h.heard ⟨o, a⟩ he
    cases o <;> exact hold
  reading := hread

section Emission

variable {c : CallId} {σ : Session P} {service : Service}

theorem Sound.l1Get_marked (h : s.Sound σ) {key : CacheKeyOptions} {entry : CacheEntry}
    (he : Answered σ.task.trace (.l1Get key) (some entry)) :
    s.Marked entry.origin key.serverId :=
  (h.heard _ he entry rfl).2

theorem Sound.l2Get_marked (h : s.Sound σ) {key : CacheKeyOptions} {entry : CacheEntry}
    (he : Answered σ.task.trace (.l2Get key) (some entry)) :
    s.Marked entry.origin key.serverId :=
  (h.heard _ he entry rfl).2

-- the result of a flight that the call has waited for
theorem Sound.flown_marked (h : s.Sound σ) (hserving : σ.task.Serving service)
    {result : FlightResult} (hflown : Service.Flown σ.task.trace result) :
    s.Marked result.origin service.actual.serverId := by
  obtain ⟨awaited, hawaited⟩ := hflown
  obtain ⟨tr, hextends, entered, hentered, hsame⟩ := hserving.emits_of_mem hawaited rfl
  have hflight : entered.flight = awaited := by
    rcases hsame with rfl | rfl <;> rfl
  subst hflight
  have hresult : s.inflight.result? entered.flight = some result := h.heard _ hawaited
  exact (h.heard _ (hentered.mono hextends)).2.1 result hresult

theorem Sound.kept_of_fresh (h : s.Sound σ) (hserving : σ.task.Serving service)
    {entry : CacheEntry} (hfresh : Service.Fresh service σ.task.trace entry) :
    s.Kept (P.digest (σ.pipeline.cacheKey σ.task.call service)) entry := by
  have hmarked : s.Marked entry.origin service.actual.serverId :=
    h.flown_marked hserving hfresh.flown
  rw [← hfresh.serverId] at hmarked
  exact ⟨hmarked, σ.pipeline.cacheKey σ.task.call service, rfl, hfresh.serverId.symm⟩

theorem Sound.kept_of_l1Set (h : s.Sound σ) {key : CacheKeyOptions} {entry : CacheEntry}
    {next : Unit → Proc Outcome} (hrest : σ.task.rest = .op (.l1Set key entry) next) :
    s.Kept (P.digest key) entry := by
  obtain ⟨service, hserving⟩ := σ.task.serving_of_rest hrest rfl
  obtain ⟨rfl, -, hl2 | hfresh⟩ := hserving.emits_of_rest hrest
  · obtain ⟨hserver, hmarked⟩ := h.heard _ hl2 entry rfl
    rw [← hserver] at hmarked
    exact ⟨hmarked, _, rfl, hserver.symm⟩
  · exact h.kept_of_fresh hserving hfresh

theorem Sound.kept_of_l2Set (h : s.Sound σ) {key : CacheKeyOptions} {entry : CacheEntry} {ttl : ℚ}
    {next : Unit → Proc Outcome} (hrest : σ.task.rest = .op (.l2Set key entry ttl) next) :
    s.Kept (P.digest key) entry.reread := by
  obtain ⟨service, hserving⟩ := σ.task.serving_of_rest hrest rfl
  obtain ⟨rfl, -, hfresh, -⟩ := hserving.emits_of_rest hrest
  have hkept := h.kept_of_fresh hserving hfresh
  exact ⟨hkept.1, hkept.2⟩

-- a call that settles a flight has started it
theorem Sound.marked_of_settleFlight (h : s.Sound σ) (hσ : s.sessions[c]? = some σ)
    (hself : σ.task.call.self = c) {flight : FlightId} {result : FlightResult}
    {next : Unit → Proc Outcome}
    (hrest : σ.task.rest = .op (.settleFlight flight result) next) :
    ∃ key, (∃ entry : Flight FlightResult, s.inflight.flights[flight]? = some entry ∧
      entry.key = P.digest key) ∧ s.Marked result.origin key.serverId := by
  obtain ⟨service, hserving⟩ := σ.task.serving_of_rest hrest rfl
  obtain ⟨horigin, hstarted, -⟩ := hserving.emits_of_rest hrest
  obtain ⟨hentry, -, hasked⟩ := h.heard _ hstarted
  have htargets := Session.targets_of_serving hserving
  obtain ⟨purges, hpurges⟩ := Option.isSome_iff_exists.mp (hasked flight rfl)
  refine ⟨_, hentry, ?_⟩
  rw [horigin, hself]
  exact ⟨σ, hσ, h.through _ htargets, purges, hpurges, h.asked _ purges htargets hpurges⟩

end Emission

section Answers

-- the gateway once a call has been given its answer
def answered (s : Installation P) (w : World P) (c : CallId) (σ : Session P) {o : Op}
    {next : Ans o → Proc Outcome} (hrest : σ.task.rest = .op o next) (a : Ans o) :
    Installation P :=
  (s.put w).setSession c (σ.advanced s.purges (σ.task.thread.answer hrest a))

-- what serves a call beside its router
theorem serves_of_serve {c : CallId} {phase : Phase} {environment : (o : Op) → Ans o} {o : Op}
    {w : World P} {a : Ans o} (h : s.serve c phase environment o = some (w, a)) :
    s.world.Serves c phase o a w ∧ ∀ serverId toolName, o ≠ .resolve serverId toolName := by
  cases o with
  | resolve serverId toolName => cases h
  | getAnnotations serverId toolName =>
      cases h
      exact ⟨.environment rfl _, fun _ _ => nofun⟩
  | _ =>
      have hserve : s.world.serve c phase environment _ = some (w, a) := h
      exact ⟨World.serves_of_serve hserve, fun _ _ => nofun⟩

theorem answer_eq_some {c : CallId} {environment : (o : Op) → Ans o} {σ : Session P}
    (h : s.answer c environment σ = some s') :
    ∃ (o : Op) (next : Ans o → Proc Outcome) (hrest : σ.task.rest = .op o next) (a : Ans o)
      (w : World P), s.world.Serves c σ.task.phase o a w ∧
        (∀ serverId toolName, o ≠ .resolve serverId toolName) ∧
        s' = s.answered w c σ hrest a := by
  obtain ⟨⟨w, thread⟩, hadvance, rfl⟩ := Option.map_eq_some_iff.mp h
  obtain ⟨o, next, hrest, a, hserve, rfl⟩ := Thread.advance_eq_some hadvance
  obtain ⟨hserves, hother⟩ := serves_of_serve hserve
  exact ⟨o, next, hrest, a, w, hserves, hother, rfl⟩

theorem getElem?_setSession {c c' : CallId} {σ u : Session P}
    (h : (s.setSession c σ).sessions[c']? = some u) :
    c' = c ∧ u = σ ∨ c' ≠ c ∧ s.sessions[c']? = some u := by
  rw [setSession, List.getElem?_set] at h
  split at h
  next heq =>
    split at h
    · exact .inl ⟨heq.symm, (Option.some.inj h).symm⟩
    · cases h
  next hne => exact .inr ⟨Ne.symm hne, h⟩

theorem follows_setSession {c : CallId} {σ : Session P} (hσ : s.sessions[c]? = some σ)
    (σ' : Session P) (hthrough : σ'.through = σ.through)
    (hasked : ∀ purges, σ.asked = some purges → σ'.asked = some purges) :
    s.Follows (s.setSession c σ') := by
  intro c' u hu
  rw [setSession, List.getElem?_set]
  split
  next heq =>
    subst heq
    obtain rfl := Option.some.inj (hσ.symm.trans hu)
    exact ⟨σ', by simp [(List.getElem?_eq_some_iff.mp hσ).1], hthrough, hasked⟩
  next => exact ⟨u, hu, rfl, fun _ h => h⟩

variable {c : CallId} {σ : Session P} {o : Op} {next : Ans o → Proc Outcome} {a : Ans o}
  {w : World P}

theorem follows_answered (hσ : s.sessions[c]? = some σ) (hrest : σ.task.rest = .op o next) :
    s.Follows (s.answered w c σ hrest a) :=
  follows_setSession (s := s.put w) hσ _ rfl fun _ hasked => Session.asked_advanced hasked

theorem spares_of_same (hremovals : s'.removals = s.removals) (hpurges : s'.purges = s.purges)
    (serverId : String) : s.Spares s' serverId :=
  ⟨congrFun hremovals serverId, congrFun hpurges serverId⟩

theorem settles_answered (h : s.Sound σ) (hσ : s.sessions[c]? = some σ)
    (hself : σ.task.call.self = c) (hrest : σ.task.rest = .op o next)
    (hserves : s.world.Serves c σ.task.phase o a w) :
    s.Settles (s.answered w c σ hrest a) where
  flights := hserves.extends
  kept := hserves.results
  fresh := by
    intro flight result hresult
    rcases hserves.results_cases hresult with hold | rfl
    · exact .inl hold
    · obtain ⟨key, hentry, hmarked⟩ := h.marked_of_settleFlight hσ hself hrest
      exact .inr ⟨key, hentry,
        hmarked.mono (follows_answered hσ hrest) (spares_of_same rfl rfl _)⟩

-- what a call is told about the caches and the flights
theorem Current.attests_of_serves (hinjective : Function.Injective P.host.sha256) (h : s.Current)
    (hsound : s.Sound σ) (hσ : s.sessions[c]? = some σ) (hrest : σ.task.rest = .op o next)
    (hserves : s.world.Serves c σ.task.phase o a w) :
    (s.answered w c σ hrest a).Attests
      (σ.advanced s.purges (σ.task.thread.answer hrest a)) o a := by
  have hfollows : s.Follows (s.answered w c σ hrest a) := follows_answered hσ hrest
  generalize hphase : σ.task.phase = phase at hserves
  cases hserves with
  | l1Get key now =>
      intro entry hentry
      obtain ⟨hmarked, key', hdigest, hserver⟩ :=
        h.l1 _ _ (CacheStore.get?_of_get_eq_some hentry)
      have hsame : entry.serverId = key.serverId :=
        hserver.symm.trans (serverId_of_digest hinjective hdigest)
      rw [hsame] at hmarked
      exact ⟨hsame, hmarked.mono hfollows (spares_of_same rfl rfl _)⟩
  | l2Get key hread hkept =>
      rintro entry rfl
      have hfound : σ.task.phase = .read (some entry) := by
        rcases hkept with hnone | hsame
        · cases hnone
        · rw [hphase, hread, ← hsame]
      have hpending : σ.task.pending? = some (.l2Get key) := by simp [Task.pending?, hrest]
      obtain ⟨hserver, hmarked⟩ := hsound.reading entry key hfound hpending
      exact ⟨hserver, hmarked.mono hfollows (spares_of_same rfl rfl _)⟩
  | enterFlight key =>
      obtain ⟨flight, hflight, hkey⟩ := h.flights.registered.flight_of_enter (P.digest key) c
      refine ⟨⟨flight, hflight, hkey⟩, fun result hresult => ?_, fun f hstarted => ?_⟩
      · have hnone := h.flights.result?_enter (P.digest key) c
        cases hnone.symm.trans hresult
      · rw [hstarted]
        have hentered : Answered (σ.task.thread.answer hrest (FlightEntry.started f)).trace
            (.enterFlight key) (.started f) := answered_snoc ..
        exact Session.asked_of_started hentered
  | awaitFlight flight hresult => exact hresult
  | environment ho a =>
      cases o <;> first | exact trivial | cases ho
  | _ => trivial

-- the call has not finished, or has not come in yet
def Live (s : Installation P) (c : CallId) : Prop :=
  ∀ σ : Session P, s.sessions[c]? = some σ → σ.task.finished = false

structure Leads (s s' : Installation P) : Prop where
  current : s'.Current
  sound : ∀ (c : CallId) (σ : Session P), s'.sessions[c]? = some σ → s.Live c → s'.Sound σ

theorem finished_of_rest (hrest : σ.task.rest = .op o next) : σ.task.finished = false := by
  unfold Task.finished
  rw [hrest]
  rfl

theorem targets_of_answer {serverId : String} (hrest : σ.task.rest = .op o next)
    (hother : ∀ serverId toolName, o ≠ .resolve serverId toolName) {purges : String → ℕ}
    (h : (σ.advanced purges (σ.task.thread.answer hrest a)).Targets serverId) :
    σ.Targets serverId := by
  obtain ⟨asked, toolName, resolution, hresolve, hserver⟩ := h
  refine ⟨asked, toolName, resolution, ?_, hserver⟩
  rcases List.mem_append.mp hresolve with hold | hnew
  · exact hold
  · have hevent := List.mem_singleton.mp hnew
    exact absurd (congrArg Sigma.fst hevent).symm (hother asked toolName)

theorem Current.sound_answered (hinjective : Function.Injective P.host.sha256) (h : s.Current)
    (hσ : s.sessions[c]? = some σ) (hrest : σ.task.rest = .op o next)
    (hother : ∀ serverId toolName, o ≠ .resolve serverId toolName)
    (hserves : s.world.Serves c σ.task.phase o a w) :
    (s.answered w c σ hrest a).Sound
      (σ.advanced s.purges (σ.task.thread.answer hrest a)) := by
  have hsound : s.Sound σ := h.sound c σ hσ (finished_of_rest hrest)
  have hfollows : s.Follows (s.answered w c σ hrest a) := follows_answered hσ hrest
  have hsettles := settles_answered hsound hσ (h.self c σ hσ) hrest hserves
  refine ⟨?_, ?_, ?_, ?_, ?_⟩
  · exact fun serverId htargets =>
      hsound.through serverId (targets_of_answer hrest hother htargets)
  · intro serverId purges htargets hasked
    rcases Session.asked_advanced_cases hasked with hold | ⟨rfl, -⟩
    · exact hsound.asked serverId purges (targets_of_answer hrest hother htargets) hold
    · rfl
  · intro hasked
    obtain ⟨purges, hpurges⟩ := Option.isSome_iff_exists.mp hasked
    rcases Session.asked_advanced_cases hpurges with hold | ⟨-, hstarted⟩
    · obtain ⟨key, entered, hentered⟩ := hsound.entered (by rw [hold]; rfl)
      exact ⟨key, entered, hentered.mono (List.prefix_append _ _)⟩
    · exact Session.enterFlight_of_startsFlight hstarted
  · intro e he
    rcases List.mem_append.mp he with hold | hnew
    · refine (hsound.heard e hold).mono hinjective hold hfollows hsettles
        (fun serverId _ _ => spares_of_same rfl rfl serverId) fun hasked => ?_
      obtain ⟨purges, hpurges⟩ := Option.isSome_iff_exists.mp hasked
      rw [Session.asked_advanced hpurges]
      rfl
    · obtain rfl := List.mem_singleton.mp hnew
      exact h.attests_of_serves hinjective hsound hσ hrest hserves
  · intro entry key hphase
    cases hphase

theorem flights_of_serves (h : s.inflight.Open) {phase : Phase}
    (hserves : s.world.Serves c phase o a w) : w.inflight.Open := by
  cases hserves with
  | enterFlight key => exact h.enter _ _
  | settleFlight flight result => exact h.settle _ _
  | _ => exact h

theorem exact_of_serves (h : s.l1.Exact) {phase : Phase}
    (hserves : s.world.Serves c phase o a w) : w.l1.Exact := by
  cases hserves with
  | l1Get key now => exact h.get _ _
  | l1Set key entry => exact h.set _ _
  | l1DeleteByTool toolName serverId => exact h.deleteByTool _ _
  | _ => exact h

theorem Current.answered (hinjective : Function.Injective P.host.sha256) (h : s.Current)
    (hσ : s.sessions[c]? = some σ) (hrest : σ.task.rest = .op o next)
    (hother : ∀ serverId toolName, o ≠ .resolve serverId toolName)
    (hserves : s.world.Serves c σ.task.phase o a w) :
    s.Leads (s.answered w c σ hrest a) := by
  have hsound : s.Sound σ := h.sound c σ hσ (finished_of_rest hrest)
  have hfollows : s.Follows (s.answered w c σ hrest a) := follows_answered hσ hrest
  have hsettles := settles_answered hsound hσ (h.self c σ hσ) hrest hserves
  have hspares : ∀ serverId, s.Spares (s.answered w c σ hrest a) serverId :=
    spares_of_same rfl rfl
  have hothers : ∀ (c' : CallId) (u : Session P), s.sessions[c']? = some u →
      u.task.finished = false → (s.answered w c σ hrest a).Sound u := fun c' u hu hunfinished =>
    (h.sound c' u hu hunfinished).mono hinjective hfollows hsettles (fun _ _ => rfl)
      fun _ _ _ => rfl
  refine ⟨⟨?_, ?_, ?_, ?_, ?_, ?_, ?_⟩, ?_⟩
  · intro c' u hu
    rcases getElem?_setSession hu with ⟨rfl, rfl⟩ | ⟨-, hold⟩
    · exact h.self c' σ hσ
    · exact h.self c' u hold
  · intro c' u hu hunfinished
    rcases getElem?_setSession hu with ⟨rfl, rfl⟩ | ⟨-, hold⟩
    · exact h.sound_answered hinjective hσ hrest hother hserves
    · exact hothers c' u hold hunfinished
  · intro digest entry hentry
    rcases hserves.l1_cases hentry with hold | ⟨key, rfl, rfl⟩
    · exact (h.l1 digest entry hold).mono hfollows (hspares _)
    · exact (hsound.kept_of_l1Set hrest).mono hfollows (hspares _)
  · intro digest entry hentry
    have hredis : (s.answered w c σ hrest a).redis = s.redis := hserves.frame.2.1
    rw [hredis] at hentry
    exact (h.redis digest entry hentry).mono hfollows (hspares _)
  · intro digest entry hmem
    rcases hserves.writes_cases hmem with hold | ⟨key, stored, ttl, rfl, rfl, rfl⟩
    · exact (h.writes digest entry hold).mono hfollows (hspares _)
    · exact (hsound.kept_of_l2Set hrest).mono hfollows (hspares _)
  · exact flights_of_serves h.flights hserves
  · exact exact_of_serves h.indexed hserves
  · intro c' u hu hlive
    rcases getElem?_setSession hu with ⟨rfl, rfl⟩ | ⟨-, hold⟩
    · exact h.sound_answered hinjective hσ hrest hother hserves
    · exact hothers c' u hold (hlive u hold)

end Answers

end Installation

end Conduit.Gateway
