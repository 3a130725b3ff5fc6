import Conduit.Gateway.Serving

namespace Conduit.Gateway.World

open Cache Program

variable {P : RequestPipeline} {w w' s : World P}

def LookedUp (w : World P) (caller : CallId) (digest : String) : Prop :=
  ∃ t, w.tasks[caller]? = some t ∧
    ∃ key found, Answered t.trace (.l1Get key) found ∧ P.digest key = digest

-- the content is what an upstream replied to the call after it had looked in the cache
def Sourced (w : World P) (caller : CallId) (content : Json) : Prop :=
  ∃ t, w.tasks[caller]? = some t ∧ ∃ before client options response,
    before ++ [(⟨.forward client options, .ok response⟩ : Event Op Ans)] <+: t.trace ∧
    (∃ key found, Answered before (.l1Get key) found) ∧
    settlementOf (.completed (RequestPipeline.completed t.call response)) = .resolved content

-- the entry is what an upstream computed for a call that looked up the same digest
structure Genuine (w : World P) (digest : String) (entry : CacheEntry) : Prop where
  looked : w.LookedUp entry.origin digest
  keyed : ∃ key, P.digest key = digest ∧ entry.IsFor key.toolName key.serverId
  computed : entry.origin ∈ w.effects
  sourced : ∃ content, w.Sourced entry.origin content ∧
    (entry.result = content ∨ P.hasL2Cache = true ∧ entry.result = content.written)
  healthy : RequestPipeline.isToolError entry.result = false

-- what the shared state still says of an answer that has been given
def Consistent (w : World P) (caller : CallId) : (o : Op) → Ans o → Prop
  | .l1Get key, found => ∀ entry, found = some entry → w.Genuine (P.digest key) entry
  | .l2Get key, found => ∀ entry, found = some entry → w.Genuine (P.digest key) entry
  | .enterFlight key, entered =>
      ∃ flight : Flight FlightResult, w.inflight.flights[entered.flight]? = some flight ∧
        flight.key = P.digest key ∧ (∀ f, entered = .started f → flight.starter = caller)
  | .awaitFlight flight, result => w.inflight.result? flight = some result
  | .forward _ _, response => (∃ r, response = .ok r) → caller ∈ w.effects
  | _, _ => True

structure Evolves (w w' : World P) : Prop where
  tasks : ∀ (c : CallId) (t : Task P), w.tasks[c]? = some t →
    ∃ t' : Task P, w'.tasks[c]? = some t' ∧ t'.call = t.call ∧ t'.earlier = t.earlier ∧
      t.trace <+: t'.trace
  effects : w.effects <+: w'.effects
  flights : w.inflight.Extends w'.inflight
  results : ∀ flight result, w.inflight.result? flight = some result →
    w'.inflight.result? flight = some result

theorem Evolves.of_tasks (htasks : ∀ (c : CallId) (t : Task P), w.tasks[c]? = some t →
      ∃ t' : Task P, w'.tasks[c]? = some t' ∧ t'.call = t.call ∧ t'.earlier = t.earlier ∧
        t.trace <+: t'.trace)
    (heffects : w.effects <+: w'.effects) (hinflight : w'.inflight = w.inflight) :
    w.Evolves w' where
  tasks := htasks
  effects := heffects
  flights := hinflight ▸ .refl _
  results := fun _ _ h => hinflight ▸ h

theorem LookedUp.mono {c : CallId} {digest : String} (h : w.LookedUp c digest)
    (hev : w.Evolves w') : w'.LookedUp c digest := by
  obtain ⟨t, ht, key, found, hfound, hdigest⟩ := h
  obtain ⟨t', ht', -, -, hextends⟩ := hev.tasks c t ht
  exact ⟨t', ht', key, found, hfound.mono hextends, hdigest⟩

theorem Sourced.mono {c : CallId} {content : Json} (h : w.Sourced c content)
    (hev : w.Evolves w') : w'.Sourced c content := by
  obtain ⟨t, ht, before, client, options, response, hforward, hlooked, hsettled⟩ := h
  obtain ⟨t', ht', hcall, -, hextends⟩ := hev.tasks c t ht
  exact ⟨t', ht', before, client, options, response, hforward.trans hextends, hlooked,
    hcall ▸ hsettled⟩

theorem Genuine.mono {digest : String} {entry : CacheEntry} (h : w.Genuine digest entry)
    (hev : w.Evolves w') : w'.Genuine digest entry where
  looked := h.looked.mono hev
  keyed := h.keyed
  computed := hev.effects.subset h.computed
  sourced := by
    obtain ⟨content, hsourced, hresult⟩ := h.sourced
    exact ⟨content, hsourced.mono hev, hresult⟩
  healthy := h.healthy

theorem Consistent.mono {c : CallId} {o : Op} {a : Ans o} (h : w.Consistent c o a)
    (hev : w.Evolves w') : w'.Consistent c o a := by
  cases o with
  | l1Get key => exact fun entry hentry => (h entry hentry).mono hev
  | l2Get key => exact fun entry hentry => (h entry hentry).mono hev
  | enterFlight key =>
      obtain ⟨flight, hflight, hkey, hstarter⟩ := h
      obtain ⟨flight', hflight', hkey', hstarter'⟩ := hev.flights _ _ hflight
      exact ⟨flight', hflight', hkey'.trans hkey, fun f hf => hstarter'.trans (hstarter f hf)⟩
  | awaitFlight flight => exact hev.results _ _ h
  | forward client options => exact fun hok => hev.effects.subset (h hok)
  | _ => exact trivial

theorem getElem?_setTask {c c' : CallId} {t t' : Task P}
    (h : (w.setTask c t).tasks[c']? = some t') :
    c' = c ∧ t' = t ∨ c' ≠ c ∧ w.tasks[c']? = some t' := by
  rw [setTask, List.getElem?_set] at h
  split at h
  next heq =>
    split at h
    · exact .inl ⟨heq.symm, (Option.some.inj h).symm⟩
    · cases h
  next hne => exact .inr ⟨Ne.symm hne, h⟩

theorem tasks_setTask {c : CallId} {t : Task P} (ht : w.tasks[c]? = some t) (t' : Task P)
    (hcall : t'.call = t.call) (hearlier : t'.earlier = t.earlier) (htrace : t.trace <+: t'.trace)
    (c' : CallId) (u : Task P) (hu : w.tasks[c']? = some u) :
    ∃ u' : Task P, (w.setTask c t').tasks[c']? = some u' ∧ u'.call = u.call ∧
      u'.earlier = u.earlier ∧ u.trace <+: u'.trace := by
  rw [setTask, List.getElem?_set]
  split
  next heq =>
    subst heq
    obtain rfl := Option.some.inj (ht.symm.trans hu)
    exact ⟨t', by simp [(List.getElem?_eq_some_iff.mp ht).1], hcall, hearlier, htrace⟩
  next => exact ⟨u, hu, rfl, rfl, List.prefix_rfl⟩

-- what an operation leaves alone
theorem Serves.frame {caller : CallId} {phase : Phase} {o : Op} {a : Ans o}
    (h : w.Serves caller phase o a s) :
    s.tasks = w.tasks ∧ s.redis = w.redis ∧ s.effects = w.effects := by
  cases h <;> exact ⟨rfl, rfl, rfl⟩

theorem Serves.extends {caller : CallId} {phase : Phase} {o : Op} {a : Ans o}
    (h : w.Serves caller phase o a s) : w.inflight.Extends s.inflight := by
  cases h with
  | enterFlight key => exact InflightTracker.enter_extends _ _
  | settleFlight flight result => exact InflightTracker.settle_extends _ _
  | _ => exact .refl _

theorem Serves.results {caller : CallId} {phase : Phase} {o : Op} {a : Ans o}
    (h : w.Serves caller phase o a s) (flight : FlightId) (result : FlightResult)
    (hresult : w.inflight.result? flight = some result) :
    s.inflight.result? flight = some result := by
  cases h with
  | enterFlight key => exact InflightTracker.result?_enter_of_result? hresult ..
  | settleFlight flight' result' => exact InflightTracker.result?_settle_of_result? hresult ..
  | _ => exact hresult

theorem Serves.l1_cases {caller : CallId} {phase : Phase} {o : Op} {a : Ans o}
    (h : w.Serves caller phase o a s) {digest : String} {entry : CacheEntry}
    (hentry : s.l1.entries.get? digest = some entry) :
    w.l1.entries.get? digest = some entry ∨
      ∃ key, o = .l1Set key entry ∧ digest = P.digest key := by
  cases h with
  | l1Get key now => exact .inl (CacheStore.get?_of_get hentry)
  | l1Set key stored =>
      rcases CacheStore.get?_of_get?_set hentry with ⟨rfl, rfl⟩ | hold
      · exact .inr ⟨key, rfl, rfl⟩
      · exact .inl hold
  | l1DeleteByTool toolName serverId => exact .inl (CacheStore.get?_of_deleteByTool hentry)
  | _ => exact .inl hentry

theorem Serves.writes_cases {caller : CallId} {phase : Phase} {o : Op} {a : Ans o}
    (h : w.Serves caller phase o a s) {digest : String} {entry : CacheEntry}
    (hmem : (digest, entry) ∈ s.writes) :
    (digest, entry) ∈ w.writes ∨ ∃ key stored ttl,
      o = .l2Set key stored ttl ∧ digest = P.digest key ∧ entry = stored.reread := by
  cases h with
  | l2Set key stored ttl =>
      rcases List.mem_append.mp hmem with hold | hnew
      · exact .inl hold
      · obtain ⟨rfl, rfl⟩ := Prod.mk.inj (List.mem_singleton.mp hnew)
        exact .inr ⟨key, stored, ttl, rfl, rfl, rfl⟩
  | _ => exact .inl hmem

theorem Serves.results_cases {caller : CallId} {phase : Phase} {o : Op} {a : Ans o}
    (h : w.Serves caller phase o a s) {flight : FlightId} {result : FlightResult}
    (hresult : s.inflight.result? flight = some result) :
    w.inflight.result? flight = some result ∨ o = .settleFlight flight result := by
  cases h with
  | enterFlight key => exact .inl (InflightTracker.result?_enter hresult)
  | settleFlight settled outcome =>
      rcases InflightTracker.result?_settle hresult with hold | ⟨rfl, rfl⟩
      · exact .inl hold
      · exact .inr rfl
  | _ => exact .inl hresult

theorem Serves.flights_cases {caller : CallId} {phase : Phase} {o : Op} {a : Ans o}
    (h : w.Serves caller phase o a s) {flight : FlightId} {entry : Flight FlightResult}
    (hentry : s.inflight.flights[flight]? = some entry) :
    (∃ entry' : Flight FlightResult, w.inflight.flights[flight]? = some entry' ∧
      entry.key = entry'.key ∧ entry.starter = entry'.starter) ∨
      ∃ key, o = .enterFlight key ∧ entry.key = P.digest key ∧ entry.starter = caller := by
  cases h with
  | enterFlight key =>
      rcases InflightTracker.flights_enter hentry with hold | ⟨hkey, hstarter⟩
      · exact .inl ⟨entry, hold, rfl, rfl⟩
      · exact .inr ⟨key, rfl, hkey, hstarter⟩
  | settleFlight settled outcome => exact .inl (InflightTracker.flights_settle hentry)
  | _ => exact .inl ⟨entry, hentry, rfl, rfl⟩

theorem Serves.registered {caller : CallId} {phase : Phase} {o : Op} {a : Ans o}
    (h : w.Serves caller phase o a s) (hregistered : w.inflight.Registered) :
    s.inflight.Registered := by
  cases h with
  | enterFlight key => exact hregistered.enter _ _
  | settleFlight flight result => exact hregistered.settle _ _
  | _ => exact hregistered

-- the world once a call has been given its answer
def answered (s : World P) (c : CallId) (t : Task P) {o : Op} {next : Ans o → Proc Outcome}
    (hrest : t.rest = .op o next) (a : Ans o) : World P :=
  s.setTask c { t with thread := t.thread.answer hrest a, phase := .idle }

theorem Serves.evolves {c : CallId} {t : Task P} (ht : w.tasks[c]? = some t) {o : Op}
    {next : Ans o → Proc Outcome} (hrest : t.rest = .op o next) {a : Ans o}
    (h : w.Serves c t.phase o a s) : w.Evolves (s.answered c t hrest a) where
  tasks := by
    have hs : s.tasks[c]? = some t := h.frame.1 ▸ ht
    intro c' u hu
    exact tasks_setTask hs { t with thread := t.thread.answer hrest a, phase := .idle } rfl rfl
      (List.prefix_append _ _) c' u (h.frame.1 ▸ hu)
  effects := h.frame.2.2 ▸ List.prefix_rfl
  flights := h.extends
  results := h.results

theorem isToolError_written (v : Json) :
    RequestPipeline.isToolError v.written = RequestPipeline.isToolError v := by
  unfold RequestPipeline.isToolError
  rw [Json.get?_written]
  cases v.get? "isError" with
  | none => rfl
  | some flag =>
      cases flag with
      | num n => cases n <;> rfl
      | _ => rfl

theorem answer_eq_serve {c : CallId} {environment : (o : Op) → Ans o} {t : Task P}
    (h : w.answer c environment t = some w') :
    ∃ (o : Op) (next : Ans o → Proc Outcome) (hrest : t.rest = .op o next) (a : Ans o)
      (s : World P), w.serve c t.phase environment o = some (s, a) ∧
        w' = s.answered c t hrest a := by
  obtain ⟨⟨s, thread⟩, hadvance, rfl⟩ := Option.map_eq_some_iff.mp h
  obtain ⟨o, next, hrest, a, hserve, rfl⟩ := Thread.advance_eq_some hadvance
  exact ⟨o, next, hrest, a, s, hserve, rfl⟩

theorem answer_eq_some {c : CallId} {environment : (o : Op) → Ans o} {t : Task P}
    (h : w.answer c environment t = some w') :
    ∃ (o : Op) (next : Ans o → Proc Outcome) (hrest : t.rest = .op o next) (a : Ans o)
      (s : World P), w.Serves c t.phase o a s ∧ w' = s.answered c t hrest a := by
  obtain ⟨o, next, hrest, a, s, hserve, rfl⟩ := answer_eq_serve h
  exact ⟨o, next, hrest, a, s, serves_of_serve hserve, rfl⟩

-- `mine` are the calls that this gateway handles
structure Provenance (w : World P) (mine : CallId → Prop) : Prop where
  self : ∀ (c : CallId) (t : Task P), w.tasks[c]? = some t → t.call.self = c
  consistent : ∀ (c : CallId) (t : Task P), w.tasks[c]? = some t → mine c →
    ∀ e ∈ t.trace, w.Consistent c e.1 e.2
  reading : ∀ (c : CallId) (t : Task P) (entry : CacheEntry), w.tasks[c]? = some t →
    t.phase = .read (some entry) → ∀ key, t.pending? = some (.l2Get key) →
      w.Genuine (P.digest key) entry
  l1 : ∀ digest entry, w.l1.entries.get? digest = some entry → w.Genuine digest entry
  redis : ∀ digest entry, w.redis.get? digest = some entry → w.Genuine digest entry
  writes : ∀ digest entry, (digest, entry) ∈ w.writes → w.Genuine digest entry
  registered : w.inflight.Registered
  starters : ∀ (flight : FlightId) (entry : Flight FlightResult),
    w.inflight.flights[flight]? = some entry → w.LookedUp entry.starter entry.key
  results : ∀ flight result, w.inflight.result? flight = some result →
    (∃ entry : Flight FlightResult, w.inflight.flights[flight]? = some entry ∧
      result.origin = entry.starter) ∧
    ∀ content, result.settlement = .resolved content →
      result.origin ∈ w.effects ∧ w.Sourced result.origin content

variable {mine : CallId → Prop}

theorem provenance_init : (init P).Provenance mine where
  self := by simp [init]
  consistent := by simp [init]
  reading := by simp [init]
  l1 := by simp [init, CacheStore.init]
  redis := by simp [init]
  writes := by simp [init]
  registered := InflightTracker.registered_init
  starters := by simp [init, InflightTracker.init]
  results := by simp [init, InflightTracker.init, InflightTracker.result?]

section Emission

variable {c : CallId} {t : Task P} {service : Service}

-- a flight's result that a call has waited for comes from a flight under the call's digest
theorem Provenance.flown (h : w.Provenance mine) (ht : w.tasks[c]? = some t) (hmine : mine c)
    (hserving : t.Serving service) {result : FlightResult}
    (hflown : Service.Flown t.trace result) :
    ∃ entered : FlightEntry, Answered t.trace (.enterFlight (P.cacheKey t.call service)) entered ∧
      w.inflight.result? entered.flight = some result ∧
      ∃ flight : Flight FlightResult, w.inflight.flights[entered.flight]? = some flight ∧
        flight.key = P.digest (P.cacheKey t.call service) ∧ result.origin = flight.starter := by
  obtain ⟨awaited, hawaited⟩ := hflown
  obtain ⟨tr, hextends, entered, hentered, hsame⟩ := hserving.emits_of_mem hawaited rfl
  have hflight : entered.flight = awaited := by
    rcases hsame with rfl | rfl <;> rfl
  subst hflight
  have hresult : w.inflight.result? entered.flight = some result := h.consistent c t ht hmine _ hawaited
  obtain ⟨flight, hflight, hkey, -⟩ := h.consistent c t ht hmine _ (hentered.mono hextends)
  obtain ⟨⟨flight', hflight', horigin⟩, -⟩ := h.results _ _ hresult
  obtain rfl := Option.some.inj (hflight.symm.trans hflight')
  exact ⟨entered, hentered.mono hextends, hresult, flight, hflight, hkey, horigin⟩

theorem Provenance.genuine_of_fresh (h : w.Provenance mine) (ht : w.tasks[c]? = some t) (hmine : mine c)
    (hserving : t.Serving service) {entry : CacheEntry}
    (hfresh : Service.Fresh service t.trace entry) :
    w.Genuine (P.digest (P.cacheKey t.call service)) entry := by
  obtain ⟨entered, -, hresult, flight, hflight, hkey, horigin⟩ := h.flown ht hmine hserving hfresh.flown
  have horigin : entry.origin = flight.starter := horigin
  exact {
    looked := by
      rw [horigin, ← hkey]
      exact h.starters _ _ hflight
    keyed := ⟨P.cacheKey t.call service, rfl, hfresh.toolName, hfresh.serverId⟩
    computed := ((h.results _ _ hresult).2 entry.result rfl).1
    sourced := ⟨entry.result, ((h.results _ _ hresult).2 entry.result rfl).2, .inl rfl⟩
    healthy := hfresh.healthy }

theorem Provenance.genuine_of_l1Set (h : w.Provenance mine) (ht : w.tasks[c]? = some t) (hmine : mine c)
    {key : CacheKeyOptions} {entry : CacheEntry} {next : Unit → Proc Outcome}
    (hrest : t.rest = .op (.l1Set key entry) next) : w.Genuine (P.digest key) entry := by
  obtain ⟨service, hserving⟩ := t.serving_of_rest hrest rfl
  obtain ⟨rfl, -, hl2 | hfresh⟩ := hserving.emits_of_rest hrest
  · exact h.consistent c t ht hmine _ hl2 entry rfl
  · exact h.genuine_of_fresh ht hmine hserving hfresh

theorem Provenance.genuine_of_l2Set (h : w.Provenance mine) (ht : w.tasks[c]? = some t) (hmine : mine c)
    {key : CacheKeyOptions} {entry : CacheEntry} {ttl : ℚ} {next : Unit → Proc Outcome}
    (hrest : t.rest = .op (.l2Set key entry ttl) next) :
    w.Genuine (P.digest key) entry.reread := by
  obtain ⟨service, hserving⟩ := t.serving_of_rest hrest rfl
  obtain ⟨rfl, -, hfresh, henabled⟩ := hserving.emits_of_rest hrest
  have hresult : w.Sourced entry.origin entry.result := by
    obtain ⟨entered, -, hresult, -⟩ := h.flown ht hmine hserving hfresh.flown
    exact ((h.results _ _ hresult).2 entry.result rfl).2
  have hgenuine := h.genuine_of_fresh ht hmine hserving hfresh
  exact {
    looked := hgenuine.looked
    keyed := hgenuine.keyed
    computed := hgenuine.computed
    sourced := ⟨entry.result, hresult, .inr ⟨henabled, rfl⟩⟩
    healthy := (isToolError_written entry.result).trans hgenuine.healthy }

theorem lookedUp_of_looked (ht : w.tasks[c]? = some t)
    (h : Service.Looked P t.call service t.trace) :
    w.LookedUp c (P.digest (P.cacheKey t.call service)) := by
  obtain ⟨found, hfound⟩ := h
  exact ⟨t, ht, _, found, hfound, rfl⟩

theorem Provenance.lookedUp_of_enterFlight (ht : w.tasks[c]? = some t)
    {key : CacheKeyOptions} {next : FlightEntry → Proc Outcome}
    (hrest : t.rest = .op (.enterFlight key) next) : w.LookedUp c (P.digest key) := by
  obtain ⟨service, hserving⟩ := t.serving_of_rest hrest rfl
  obtain ⟨rfl, hlooked⟩ := hserving.emits_of_rest hrest
  exact lookedUp_of_looked ht hlooked

theorem Provenance.result_of_settleFlight (h : w.Provenance mine) (ht : w.tasks[c]? = some t)
    (hmine : mine c)
    {flight : FlightId} {result : FlightResult} {next : Unit → Proc Outcome}
    (hrest : t.rest = .op (.settleFlight flight result) next) :
    (∃ entry : Flight FlightResult, w.inflight.flights[flight]? = some entry ∧
      result.origin = entry.starter) ∧
    ∀ content, result.settlement = .resolved content →
      result.origin ∈ w.effects ∧ w.Sourced result.origin content := by
  obtain ⟨service, hserving⟩ := t.serving_of_rest hrest rfl
  obtain ⟨horigin, hstarted, hforwarded⟩ := hserving.emits_of_rest hrest
  have hself := h.self c t ht
  obtain ⟨entry, hentry, -, hstarter⟩ := h.consistent c t ht hmine _ hstarted
  refine ⟨⟨entry, hentry, ?_⟩, fun content hresolved => ?_⟩
  · rw [horigin, hself, hstarter flight rfl]
  · obtain ⟨before, client, options, response, hforward, ⟨found, hlooked⟩, hsettled⟩ :=
      hforwarded content hresolved
    have hresponse : Answered t.trace (.forward client options) (.ok response) :=
      (answered_snoc before _ _).mono hforward
    rw [horigin, hself]
    exact ⟨h.consistent c t ht hmine _ hresponse ⟨response, rfl⟩, t, ht, before, client, options,
      response, hforward, ⟨_, found, hlooked⟩, hsettled⟩

end Emission

section Steps

theorem getElem?_answered {c c' : CallId} {t u : Task P} {o : Op} {next : Ans o → Proc Outcome}
    {hrest : t.rest = .op o next} {a : Ans o} {phase : Phase} (h : w.Serves c phase o a s)
    (hu : (s.answered c t hrest a).tasks[c']? = some u) :
    c' = c ∧ u = { t with thread := t.thread.answer hrest a, phase := .idle } ∨
      c' ≠ c ∧ w.tasks[c']? = some u := by
  rw [← h.frame.1]
  exact getElem?_setTask hu

theorem Provenance.consistent_of_serves (h : w.Provenance mine) {c : CallId} {t : Task P}
    (ht : w.tasks[c]? = some t) {o : Op} {next : Ans o → Proc Outcome}
    (hrest : t.rest = .op o next) {a : Ans o} (hserves : w.Serves c t.phase o a s) :
    (s.answered c t hrest a).Consistent c o a := by
  have hev := hserves.evolves ht hrest
  generalize hphase : t.phase = phase at hserves
  cases hserves with
  | l1Get key now =>
      intro entry hentry
      exact (h.l1 _ _ (CacheStore.get?_of_get_eq_some hentry)).mono hev
  | l2Get key hread hkept =>
      rintro entry rfl
      have hfound : t.phase = .read (some entry) := by
        rcases hkept with hnone | hsame
        · cases hnone
        · rw [hphase, hread, ← hsame]
      have hpending : t.pending? = some (.l2Get key) := by simp [Task.pending?, hrest]
      exact (h.reading c t entry ht hfound key hpending).mono hev
  | enterFlight key =>
      obtain ⟨flight, hflight, hkey⟩ := h.registered.flight_of_enter (P.digest key) c
      refine ⟨flight, hflight, hkey, fun f hf => ?_⟩
      exact InflightTracker.starter_of_started hf hflight
  | awaitFlight flight hresult => exact hresult
  | forwarded client options response heffect => exact fun _ => heffect
  | failed client options error =>
      rintro ⟨response, hresponse⟩
      cases hresponse
  | environment ho a =>
      cases o <;> trivial
  | _ => trivial

theorem Provenance.answered (h : w.Provenance mine) {c : CallId} {t : Task P}
    (ht : w.tasks[c]? = some t) (hmine : mine c) {o : Op} {next : Ans o → Proc Outcome}
    (hrest : t.rest = .op o next) {a : Ans o} (hserves : w.Serves c t.phase o a s) :
    (s.answered c t hrest a).Provenance mine := by
  have hev := hserves.evolves ht hrest
  have hconsistent := h.consistent_of_serves ht hrest hserves
  have hframe := hserves.frame
  refine ⟨?_, ?_, ?_, ?_, ?_, ?_, ?_, ?_, ?_⟩
  · intro c' u hu
    rcases getElem?_answered hserves hu with ⟨rfl, rfl⟩ | ⟨-, hold⟩
    · exact h.self _ t ht
    · exact h.self _ u hold
  · intro c' u hu hmine' e he
    rcases getElem?_answered hserves hu with ⟨rfl, rfl⟩ | ⟨-, hold⟩
    · rcases List.mem_append.mp he with hbefore | hlast
      · exact (h.consistent _ t ht hmine' e hbefore).mono hev
      · obtain rfl := List.mem_singleton.mp hlast
        exact hconsistent
    · exact (h.consistent _ u hold hmine' e he).mono hev
  · intro c' u entry hu hphase key hpending
    rcases getElem?_answered hserves hu with ⟨rfl, rfl⟩ | ⟨-, hold⟩
    · cases hphase
    · exact (h.reading _ u entry hold hphase key hpending).mono hev
  · intro digest entry hentry
    rcases hserves.l1_cases hentry with hold | ⟨key, rfl, rfl⟩
    · exact (h.l1 digest entry hold).mono hev
    · exact (h.genuine_of_l1Set ht hmine hrest).mono hev
  · intro digest entry hentry
    exact (h.redis digest entry (hframe.2.1 ▸ hentry)).mono hev
  · intro digest entry hmem
    rcases hserves.writes_cases hmem with hold | ⟨key, stored, ttl, rfl, rfl, rfl⟩
    · exact (h.writes digest entry hold).mono hev
    · exact (h.genuine_of_l2Set ht hmine hrest).mono hev
  · exact hserves.registered h.registered
  · intro flight entry hentry
    rcases hserves.flights_cases hentry with ⟨entry', hold, hkey, hstarter⟩ | ⟨key, rfl, hkey, rfl⟩
    · rw [hkey, hstarter]
      exact (h.starters flight entry' hold).mono hev
    · rw [hkey]
      exact (Provenance.lookedUp_of_enterFlight ht hrest).mono hev
  · intro flight result hresult
    obtain ⟨⟨entry, hentry, horigin⟩, hcomputed⟩ :
        (∃ entry : Flight FlightResult, w.inflight.flights[flight]? = some entry ∧
          result.origin = entry.starter) ∧
        ∀ content, result.settlement = .resolved content →
          result.origin ∈ w.effects ∧ w.Sourced result.origin content := by
      rcases hserves.results_cases hresult with hold | rfl
      · exact h.results flight result hold
      · exact h.result_of_settleFlight ht hmine hrest
    obtain ⟨entry', hentry', -, hstarter⟩ := hev.flights flight entry hentry
    refine ⟨⟨entry', hentry', horigin.trans hstarter.symm⟩, fun content hresolved => ?_⟩
    obtain ⟨heffect, hsourced⟩ := hcomputed content hresolved
    exact ⟨hev.effects.subset heffect, hsourced.mono hev⟩

-- a step that answers no call: tasks keep their threads, and nothing new is stored
structure Quiet (w w' : World P) : Prop where
  tasks : ∀ (c : CallId) (t' : Task P), w'.tasks[c]? = some t' →
    (t'.trace = [] ∧ t'.call.self = c ∧ t'.phase = .idle) ∨
      ∃ t : Task P, w.tasks[c]? = some t ∧ t'.thread = t.thread ∧
        ∀ entry, t'.phase = .read (some entry) → t.phase = .read (some entry) ∨
          ∃ key, t.pending? = some (.l2Get key) ∧ w.redis.get? (P.digest key) = some entry
  inflight : w'.inflight = w.inflight
  l1 : ∀ digest entry, w'.l1.entries.get? digest = some entry →
    w.l1.entries.get? digest = some entry
  redis : ∀ digest entry, w'.redis.get? digest = some entry →
    w.redis.get? digest = some entry ∨ (digest, entry) ∈ w.writes
  writes : ∀ digest entry, (digest, entry) ∈ w'.writes → (digest, entry) ∈ w.writes

theorem Provenance.of_quiet (h : w.Provenance mine) (hev : w.Evolves w') (hquiet : w.Quiet w') :
    w'.Provenance mine := by
  refine ⟨?_, ?_, ?_, ?_, ?_, ?_, ?_, ?_, ?_⟩
  · intro c t' ht'
    rcases hquiet.tasks c t' ht' with ⟨-, hself, -⟩ | ⟨t, ht, hthread, -⟩
    · exact hself
    · rw [Task.call, hthread]
      exact h.self c t ht
  · intro c t' ht' hmine e he
    rcases hquiet.tasks c t' ht' with ⟨hempty, -⟩ | ⟨t, ht, hthread, -⟩
    · rw [hempty] at he
      cases he
    · rw [Task.trace, hthread] at he
      exact (h.consistent c t ht hmine e he).mono hev
  · intro c t' entry ht' hphase key hpending
    rcases hquiet.tasks c t' ht' with ⟨-, -, hidle⟩ | ⟨t, ht, hthread, hread⟩
    · rw [hidle] at hphase
      cases hphase
    · rw [Task.pending?, Task.rest, hthread] at hpending
      rcases hread entry hphase with hbefore | ⟨key', hkey', hentry⟩
      · exact (h.reading c t entry ht hbefore key hpending).mono hev
      · obtain rfl : key' = key := by simpa using hkey'.symm.trans hpending
        exact (h.redis _ _ hentry).mono hev
  · exact fun digest entry hentry => (h.l1 _ _ (hquiet.l1 _ _ hentry)).mono hev
  · intro digest entry hentry
    rcases hquiet.redis _ _ hentry with hold | hwrite
    · exact (h.redis _ _ hold).mono hev
    · exact (h.writes _ _ hwrite).mono hev
  · exact fun digest entry hmem => (h.writes _ _ (hquiet.writes _ _ hmem)).mono hev
  · rw [hquiet.inflight]
    exact h.registered
  · rw [hquiet.inflight]
    exact fun flight entry hentry => (h.starters flight entry hentry).mono hev
  · rw [hquiet.inflight]
    intro flight result hresult
    obtain ⟨hentry, hcomputed⟩ := h.results flight result hresult
    refine ⟨hentry, fun content hresolved => ?_⟩
    obtain ⟨heffect, hsourced⟩ := hcomputed content hresolved
    exact ⟨hev.effects.subset heffect, hsourced.mono hev⟩

theorem evolves_setTask {c : CallId} {t : Task P} (ht : w.tasks[c]? = some t) (t' : Task P)
    (hcall : t'.call = t.call) (hearlier : t'.earlier = t.earlier) (htrace : t.trace <+: t'.trace) :
    w.Evolves (w.setTask c t') :=
  .of_tasks (tasks_setTask ht t' hcall hearlier htrace) List.prefix_rfl rfl

theorem quiet_setTask {c : CallId} {t : Task P} (ht : w.tasks[c]? = some t) (phase : Phase)
    (hread : ∀ entry, phase = .read (some entry) →
      ∃ key, t.pending? = some (.l2Get key) ∧ w.redis.get? (P.digest key) = some entry) :
    w.Quiet (w.setTask c { t with phase := phase }) where
  tasks := by
    intro c' t' ht'
    rcases getElem?_setTask ht' with ⟨rfl, rfl⟩ | ⟨-, hold⟩
    · exact .inr ⟨t, ht, rfl, fun entry hphase => .inr (hread entry hphase)⟩
    · exact .inr ⟨t', hold, rfl, fun _ hphase => .inl hphase⟩
  inflight := rfl
  l1 := fun _ _ h => h
  redis := fun _ _ h => .inl h
  writes := fun _ _ h => h

theorem quiet_of_tasks (htasks : w'.tasks = w.tasks) (hinflight : w'.inflight = w.inflight)
    (hl1 : ∀ digest entry, w'.l1.entries.get? digest = some entry →
      w.l1.entries.get? digest = some entry)
    (hredis : ∀ digest entry, w'.redis.get? digest = some entry →
      w.redis.get? digest = some entry ∨ (digest, entry) ∈ w.writes)
    (hwrites : ∀ digest entry, (digest, entry) ∈ w'.writes → (digest, entry) ∈ w.writes) :
    w.Quiet w' where
  tasks := fun _ t' ht' => .inr ⟨t', htasks ▸ ht', rfl, fun _ h => .inl h⟩
  inflight := hinflight
  l1 := hl1
  redis := hredis
  writes := hwrites

theorem evolves_of_tasks (htasks : w'.tasks = w.tasks) (hinflight : w'.inflight = w.inflight)
    (heffects : w.effects <+: w'.effects) : w.Evolves w' :=
  .of_tasks (fun _ t ht => ⟨t, htasks ▸ ht, rfl, rfl, List.prefix_rfl⟩) heffects hinflight

theorem arrive_getElem? {call : ToolCall} {c : CallId} {t' : Task P}
    (h : (w.arrive call).tasks[c]? = some t') :
    w.tasks[c]? = some t' ∨ c = w.tasks.length ∧
      t' = ⟨.spawn _ { call with self := w.tasks.length }, .idle, w.returned⟩ := by
  rw [arrive, List.getElem?_append] at h
  split at h
  · exact .inl h
  next hge =>
    rw [List.getElem?_singleton] at h
    split at h
    next hzero =>
      have hlength : c = w.tasks.length :=
        le_antisymm (Nat.sub_eq_zero_iff_le.mp hzero) (not_lt.mp hge)
      exact .inr ⟨hlength, (Option.some.inj h).symm⟩
    next => cases h

theorem evolves_arrive (call : ToolCall) : w.Evolves (w.arrive call) :=
  .of_tasks (fun _ t ht => ⟨t, by
    rw [arrive, List.getElem?_append_left (List.getElem?_eq_some_iff.mp ht).1]
    exact ht, rfl, rfl, List.prefix_rfl⟩) List.prefix_rfl rfl

theorem quiet_arrive (call : ToolCall) : w.Quiet (w.arrive call) where
  tasks := by
    intro c t' ht'
    rcases arrive_getElem? ht' with hold | ⟨rfl, rfl⟩
    · exact .inr ⟨t', hold, rfl, fun _ h => .inl h⟩
    · exact .inl ⟨rfl, rfl, rfl⟩
  inflight := rfl
  l1 := fun _ _ h => h
  redis := fun _ _ h => .inl h
  writes := fun _ _ h => h

theorem get?_of_deleteIfFor {redis : OrderedMap String CacheEntry}
    {digest toolName serverId k : String} {entry : CacheEntry}
    (h : (deleteIfFor redis digest toolName serverId).get? k = some entry) :
    redis.get? k = some entry ∧ ¬ (digest = k ∧ entry.IsFor toolName serverId) := by
  unfold deleteIfFor at h
  split at h
  next hnone =>
    refine ⟨h, ?_⟩
    rintro ⟨rfl, -⟩
    rw [hnone] at h
    cases h
  next found hfound =>
    split at h
    · rw [OrderedMap.get?_delete] at h
      split at h
      · cases h
      next hne => exact ⟨h, fun hsame => hne hsame.1⟩
    next hnot =>
      refine ⟨h, ?_⟩
      rintro ⟨rfl, hfor⟩
      obtain rfl := Option.some.inj (hfound.symm.trans h)
      exact hnot hfor

-- every step but the answer to a call
inductive Background (w : World P) : World P → Prop where
  | arrive (call : ToolCall) : Background w (w.arrive call)
  | takeEffect {c : CallId} {t : Task P} (ht : w.tasks[c]? = some t)
      (hsent : (t.awaitsUpstream || t.hasForwarded) = true) (hfresh : c ∉ w.effects) :
      Background w { w with effects := w.effects ++ [c] }
  | readL2 {c : CallId} {t : Task P} (ht : w.tasks[c]? = some t) {key : CacheKeyOptions}
      (hpending : t.pending? = some (.l2Get key)) :
      Background w (w.setTask c { t with phase := .read (w.redis.get? (P.digest key)) })
  | startScan {c : CallId} {t : Task P} (ht : w.tasks[c]? = some t) {toolName serverId : String}
      (hpending : t.pending? = some (.l2DeleteByTool toolName serverId)) :
      Background w (w.setTask c { t with phase := .scanning w.redis.keys })
  | scan {c : CallId} {t : Task P} (ht : w.tasks[c]? = some t) {toolName serverId : String}
      (hpending : t.pending? = some (.l2DeleteByTool toolName serverId)) {digests : List String}
      (hphase : t.phase = .scanning digests) (digest : String) :
      Background w ({ w with redis := deleteIfFor w.redis digest toolName serverId }.setTask c
        { t with phase := .scanning (digests.filter (· ≠ digest)) })
  | failScan {c : CallId} {t : Task P} (ht : w.tasks[c]? = some t) {digests : List String}
      (hphase : t.phase = .scanning digests) :
      Background w (w.setTask c { t with phase := .scanning [] })
  | landWrite {index : ℕ} {write : String × CacheEntry} (hwrite : w.writes[index]? = some write) :
      Background w (w.landWrite index write)
  | evict (key : String) : Background w { w with l1 := w.l1.evict key }
  | expire (key : String) : Background w { w with redis := w.redis.delete key }

theorem step_cases {act : Act} (h : w.step act = some w') :
    (∃ c environment, act = .answer c environment ∧ ∃ (t : Task P) (o : Op)
      (next : Ans o → Proc Outcome) (hrest : t.rest = .op o next) (a : Ans o) (s : World P),
      w.tasks[c]? = some t ∧ w.Serves c t.phase o a s ∧ w' = s.answered c t hrest a) ∨
    w.Background w' := by
  cases act with
  | arrive call =>
      obtain rfl := Option.some.inj h
      exact .inr (.arrive call)
  | answer c environment =>
      obtain ⟨t, ht, hanswer⟩ := Option.bind_eq_some_iff.mp h
      obtain ⟨o, next, hrest, a, s, hserves, heq⟩ := answer_eq_some hanswer
      exact .inl ⟨c, environment, rfl, t, o, next, hrest, a, s, ht, hserves, heq⟩
  | takeEffect c =>
      obtain ⟨t, ht, heffect⟩ := Option.bind_eq_some_iff.mp h
      unfold takeEffect at heffect
      split at heffect
      next hsent =>
        obtain rfl := Option.some.inj heffect
        exact .inr (.takeEffect ht hsent.1 hsent.2)
      next => cases heffect
  | readL2 c =>
      obtain ⟨t, ht, hread⟩ := Option.bind_eq_some_iff.mp h
      unfold readL2 at hread
      split at hread
      next key _ hpending =>
        obtain rfl := Option.some.inj hread
        exact .inr (.readL2 ht hpending)
      next => cases hread
  | startScan c =>
      obtain ⟨t, ht, hscan⟩ := Option.bind_eq_some_iff.mp h
      unfold startScan at hscan
      split at hscan
      next hpending =>
        obtain rfl := Option.some.inj hscan
        exact .inr (.startScan ht hpending)
      next => cases hscan
  | scan c digest =>
      obtain ⟨t, ht, hscan⟩ := Option.bind_eq_some_iff.mp h
      unfold scan at hscan
      split at hscan
      next hphase hpending =>
        obtain rfl := Option.some.inj hscan
        exact .inr (.scan ht hpending hphase digest)
      next => cases hscan
  | failScan c =>
      obtain ⟨t, ht, hscan⟩ := Option.bind_eq_some_iff.mp h
      unfold failScan at hscan
      split at hscan
      next digests hphase =>
        obtain rfl := Option.some.inj hscan
        exact .inr (.failScan ht hphase)
      next => cases hscan
  | landWrite index =>
      obtain ⟨write, hwrite, rfl⟩ := Option.map_eq_some_iff.mp h
      exact .inr (.landWrite hwrite)
  | evict key =>
      obtain rfl := Option.some.inj h
      exact .inr (.evict key)
  | expire key =>
      obtain rfl := Option.some.inj h
      exact .inr (.expire key)

theorem Background.evolves (h : w.Background w') : w.Evolves w' := by
  cases h with
  | arrive call => exact evolves_arrive call
  | takeEffect ht hsent hfresh => exact evolves_of_tasks rfl rfl (List.prefix_append _ _)
  | readL2 ht hpending => exact evolves_setTask ht _ rfl rfl List.prefix_rfl
  | startScan ht hpending => exact evolves_setTask ht _ rfl rfl List.prefix_rfl
  | scan ht hpending hphase digest =>
      rename_i t _ _ digests
      have htasks := tasks_setTask ht
        { t with phase := .scanning (digests.filter (· ≠ digest)) } rfl rfl List.prefix_rfl
      exact .of_tasks htasks List.prefix_rfl rfl
  | failScan ht hphase => exact evolves_setTask ht _ rfl rfl List.prefix_rfl
  | landWrite hwrite => exact evolves_of_tasks rfl rfl List.prefix_rfl
  | evict key => exact evolves_of_tasks rfl rfl List.prefix_rfl
  | expire key => exact evolves_of_tasks rfl rfl List.prefix_rfl

theorem Background.quiet (h : w.Background w') : w.Quiet w' := by
  cases h with
  | arrive call => exact quiet_arrive call
  | takeEffect ht hsent hfresh =>
      exact quiet_of_tasks rfl rfl (fun _ _ h => h) (fun _ _ h => .inl h) fun _ _ h => h
  | readL2 ht hpending =>
      refine quiet_setTask ht _ fun entry hphase => ⟨_, hpending, ?_⟩
      exact Phase.read.inj hphase
  | startScan ht hpending => exact quiet_setTask ht _ fun entry hphase => by cases hphase
  | scan ht hpending hphase digest =>
      rename_i digests
      have hquiet := quiet_setTask ht (.scanning (digests.filter (· ≠ digest))) fun _ hread => by
        cases hread
      exact ⟨hquiet.tasks, rfl, fun _ _ h => h, fun _ _ h => .inl (get?_of_deleteIfFor h).1,
        fun _ _ h => h⟩
  | failScan ht hphase => exact quiet_setTask ht _ fun entry hread => by cases hread
  | landWrite hwrite =>
      refine quiet_of_tasks rfl rfl (fun _ _ h => h) (fun digest entry hentry => ?_)
        fun _ _ hmem => List.mem_of_mem_eraseIdx hmem
      rw [World.landWrite, OrderedMap.get?_set] at hentry
      split at hentry
      next heq =>
        refine .inr ?_
        rw [← heq, ← Option.some.inj hentry]
        exact List.mem_of_getElem? hwrite
      next => exact .inl hentry
  | evict key =>
      exact quiet_of_tasks rfl rfl (fun _ _ h => (CacheStore.get?_of_get?_evict h).2)
        (fun _ _ h => .inl h) fun _ _ h => h
  | expire key =>
      refine quiet_of_tasks rfl rfl (fun _ _ h => h) (fun digest entry hentry => .inl ?_)
        fun _ _ h => h
      rw [OrderedMap.get?_delete] at hentry
      split at hentry
      · cases hentry
      · exact hentry

theorem Provenance.step (h : w.Provenance mine) {act : Act}
    (hmine : ∀ c environment, act = .answer c environment → mine c)
    (hstep : w.step act = some w') : w'.Provenance mine := by
  rcases step_cases hstep with
    ⟨c, environment, rfl, t, o, next, hrest, a, s, ht, hserves, rfl⟩ | hquiet
  · exact h.answered ht (hmine c environment rfl) hrest hserves
  · exact h.of_quiet hquiet.evolves hquiet.quiet

theorem provenance_of_run {acts : List Act} (h : Transition.run step (init P) acts = some w) :
    w.Provenance fun _ => True := by
  have hinit : ∀ s : World P, s = init P → s.Provenance fun _ => True :=
    fun _ heq => heq ▸ provenance_init
  exact Transition.reachable_invariant step hinit
    (fun _ _ _ h hstep => h.step (fun _ _ _ => trivial) hstep) ⟨init P, acts, rfl, h⟩

end Steps

end Conduit.Gateway.World
