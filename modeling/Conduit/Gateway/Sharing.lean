import Conduit.Gateway.Provenance

namespace Conduit.Gateway

open Cache Program Identity

def lookedUpKey? : Event Op Ans → Option CacheKeyOptions
  | ⟨.l1Get key, _⟩ => some key
  | _ => none

namespace Task

variable {P : RequestPipeline} (t : Task P)

def lookups : List CacheKeyOptions := t.trace.filterMap lookedUpKey?

variable {t}

theorem mem_lookups {key : CacheKeyOptions} :
    key ∈ t.lookups ↔ ∃ found, Answered t.trace (.l1Get key) found := by
  constructor
  · intro h
    obtain ⟨⟨o, a⟩, hmem, hkey⟩ := List.mem_filterMap.mp h
    cases o <;> cases hkey
    exact ⟨a, hmem⟩
  · rintro ⟨found, hfound⟩
    exact List.mem_filterMap.mpr ⟨_, hfound, rfl⟩

theorem Serving.eq_of_mem_lookups {service : Service} (h : t.Serving service)
    {key : CacheKeyOptions} (hkey : key ∈ t.lookups) : key = P.cacheKey t.call service := by
  obtain ⟨found, hfound⟩ := mem_lookups.1 hkey
  obtain ⟨tr, -, hemits⟩ := h.emits_of_mem hfound rfl
  exact hemits

theorem mem_lookups_of_looked {service : Service}
    (h : Service.Looked P t.call service t.trace) : P.cacheKey t.call service ∈ t.lookups :=
  mem_lookups.2 h

end Task

-- the identity plane would send the same headers to the server for both principals
def SameHeaders (P : RequestPipeline) (serverId : String) (p q : AuthenticatedPrincipal) : Prop :=
  ∀ server, P.config.server? serverId = some server →
    P.identityRuntime.resolveUpstreamHeaders server p =
      P.identityRuntime.resolveUpstreamHeaders server q

variable {P : RequestPipeline}

theorem SameHeaders.symm {serverId : String} {p q : AuthenticatedPrincipal}
    (h : SameHeaders P serverId p q) : SameHeaders P serverId q p :=
  fun server hserver => (h server hserver).symm

def SharesFairly (t u : Task P) (key key' : CacheKeyOptions) : Prop :=
  P.digest key = P.digest key' →
    SameHeaders P key.serverId t.call.principal u.call.principal ∧
      SameHeaders P key'.serverId t.call.principal u.call.principal

namespace World

variable {w w' s : World P}

-- a call looks its key up only if every earlier call with this key has its identity
def IdentityKeyed (w : World P) : Act → Prop
  | .answer caller _ => ∀ t : Task P, w.tasks[caller]? = some t →
      ∀ key, t.pending? = some (.l1Get key) →
        ∀ u ∈ w.tasks, ∀ key' ∈ u.lookups, SharesFairly t u key key'
  | _ => True

def Agreeing (w : World P) : Prop :=
  ∀ t ∈ w.tasks, ∀ u ∈ w.tasks, ∀ key ∈ t.lookups, ∀ key' ∈ u.lookups,
    SharesFairly t u key key'

-- tasks of the next world that have looked up what a task with the same call had
def Inherits (w w' : World P) : Prop :=
  ∀ t' ∈ w'.tasks, t'.lookups = [] ∨
    ∃ t ∈ w.tasks, t'.call = t.call ∧ t'.lookups = t.lookups

theorem Quiet.inherits (h : w.Quiet w') : w.Inherits w' := by
  intro t' ht'
  obtain ⟨c, hc⟩ := List.mem_iff_getElem?.mp ht'
  rcases h.tasks c t' hc with ⟨hempty, -⟩ | ⟨t, ht, hthread, -⟩
  · exact .inl (by rw [Task.lookups, hempty]; rfl)
  · refine .inr ⟨t, List.mem_of_getElem? ht, ?_, ?_⟩
    · rw [Task.call, Task.call, hthread]
    · rw [Task.lookups, Task.lookups, Task.trace, Task.trace, hthread]

theorem lookups_answered {t : Task P} {o : Op} {next : Ans o → Proc Outcome}
    (hrest : t.rest = .op o next) (a : Ans o) :
    ({ t with thread := t.thread.answer hrest a, phase := .idle } : Task P).lookups =
      t.lookups ++ (lookedUpKey? ⟨o, a⟩).toList := by
  change (t.trace ++ [(⟨o, a⟩ : Event Op Ans)]).filterMap lookedUpKey? = _
  rw [List.filterMap_append, List.filterMap_cons]
  cases lookedUpKey? ⟨o, a⟩ <;> rfl

section Pairs

variable {R : ToolCall → ToolCall → CacheKeyOptions → CacheKeyOptions → Prop}

-- whatever two calls have looked up is related
def Paired (R : ToolCall → ToolCall → CacheKeyOptions → CacheKeyOptions → Prop)
    (w : World P) : Prop :=
  ∀ t ∈ w.tasks, ∀ u ∈ w.tasks, ∀ key ∈ t.lookups, ∀ key' ∈ u.lookups, R t.call u.call key key'

def LooksUpRelated (R : ToolCall → ToolCall → CacheKeyOptions → CacheKeyOptions → Prop)
    (w : World P) : Act → Prop
  | .answer caller _ => ∀ t : Task P, w.tasks[caller]? = some t →
      ∀ key, t.pending? = some (.l1Get key) →
        ∀ u ∈ w.tasks, ∀ key' ∈ u.lookups, R t.call u.call key key'
  | _ => True

theorem paired_init : (init P).Paired R := by
  intro t ht
  cases ht

theorem Paired.of_inherits (h : w.Paired R) (hinherits : w.Inherits w') : w'.Paired R := by
  intro t' ht' u' hu' key hkey key' hkey'
  rcases hinherits t' ht' with hnone | ⟨t, ht, hcall, hlookups⟩
  · rw [hnone] at hkey
    cases hkey
  · rcases hinherits u' hu' with hnone | ⟨u, hu, hcall', hlookups'⟩
    · rw [hnone] at hkey'
      cases hkey'
    · rw [hlookups] at hkey
      rw [hlookups'] at hkey'
      rw [hcall, hcall']
      exact h t ht u hu key hkey key' hkey'

theorem Paired.answered (hself : ∀ call key key', R call call key key')
    (hsymm : ∀ call call' key key', R call call' key key' → R call' call key' key)
    (h : w.Paired R) {c : CallId} {t : Task P} (ht : w.tasks[c]? = some t)
    {environment : (o : Op) → Ans o} (hguard : w.LooksUpRelated R (.answer c environment)) {o : Op}
    {next : Ans o → Proc Outcome} (hrest : t.rest = .op o next) {a : Ans o}
    (hserves : w.Serves c t.phase o a s) : (s.answered c t hrest a).Paired R := by
  have hmem : t ∈ w.tasks := List.mem_of_getElem? ht
  have hcases : ∀ u' ∈ (s.answered c t hrest a).tasks,
      u' = { t with thread := t.thread.answer hrest a, phase := .idle } ∨ u' ∈ w.tasks := by
    intro u' hu'
    obtain ⟨c', hc'⟩ := List.mem_iff_getElem?.mp hu'
    rcases getElem?_answered hserves hc' with ⟨-, rfl⟩ | ⟨-, hold⟩
    · exact .inl rfl
    · exact .inr (List.mem_of_getElem? hold)
  have hnew : ∀ u ∈ w.tasks, ∀ key ∈ t.lookups ++ (lookedUpKey? ⟨o, a⟩).toList,
      ∀ key' ∈ u.lookups, R t.call u.call key key' := by
    intro u hu key hkey key' hkey'
    rcases List.mem_append.mp hkey with hold | hlast
    · exact h t hmem u hu key hold key' hkey'
    · have hlooked := Option.mem_toList.mp hlast
      have hpending : t.pending? = some (.l1Get key) := by
        cases o <;> cases hlooked
        simp [Task.pending?, hrest]
      exact hguard t ht key hpending u hu key' hkey'
  intro u' hu' v' hv' key hkey key' hkey'
  rcases hcases u' hu' with rfl | hu
  · rcases hcases v' hv' with rfl | hv
    · exact hself _ _ _
    · rw [lookups_answered hrest] at hkey
      exact hnew v' hv key hkey key' hkey'
  · rcases hcases v' hv' with rfl | hv
    · rw [lookups_answered hrest] at hkey'
      exact hsymm _ _ _ _ (hnew u' hu key' hkey' key hkey)
    · exact h u' hu v' hv key hkey key' hkey'

theorem paired_of_run (hself : ∀ call key key', R call call key key')
    (hsymm : ∀ call call' key key', R call call' key key' → R call' call key' key)
    {acts : List Act} (hguard : Transition.Along step (LooksUpRelated R) (init P) acts)
    (h : Transition.run step (init P) acts = some w) : w.Paired R := by
  refine Transition.run_invariant step (fun w act w' hw hact hstep => ?_) paired_init hguard h
  rcases step_cases hstep with
    ⟨c, environment, rfl, t, o, next, hrest, a, s, ht, hserves, rfl⟩ | hquiet
  · exact hw.answered hself hsymm ht hact hrest hserves
  · exact hw.of_inherits hquiet.quiet.inherits

end Pairs

-- what `SharesFairly` says of the calls of two tasks
def SameHeadersUnderKey (P : RequestPipeline) (call call' : ToolCall)
    (key key' : CacheKeyOptions) : Prop :=
  P.digest key = P.digest key' →
    SameHeaders P key.serverId call.principal call'.principal ∧
      SameHeaders P key'.serverId call.principal call'.principal

theorem SameHeadersUnderKey.symm {call call' : ToolCall} {key key' : CacheKeyOptions}
    (h : SameHeadersUnderKey P call call' key key') : SameHeadersUnderKey P call' call key' key := by
  intro hdigest
  obtain ⟨hkey, hkey'⟩ := h hdigest.symm
  exact ⟨hkey'.symm, hkey.symm⟩

theorem sameHeadersUnderKey_self (call : ToolCall) (key key' : CacheKeyOptions) :
    SameHeadersUnderKey P call call key key' :=
  fun _ => ⟨fun _ _ => rfl, fun _ _ => rfl⟩

theorem identityKeyed_iff {act : Act} :
    w.IdentityKeyed act ↔ w.LooksUpRelated (SameHeadersUnderKey P) act := by
  cases act <;> exact Iff.rfl

theorem agreeing_of_run {acts : List Act}
    (hguard : Transition.Along step IdentityKeyed (init P) acts)
    (h : Transition.run step (init P) acts = some w) : w.Agreeing :=
  paired_of_run sameHeadersUnderKey_self (fun _ _ _ _ hsame => hsame.symm)
    (hguard.of_invariant step (fun _ _ _ _ _ _ => trivial)
      (fun _ _ _ hkeyed => identityKeyed_iff.1 hkeyed) trivial) h

-- who obtained the outcome that a call ends with looked up the same digest
theorem Provenance.shared {mine : CallId → Prop} (h : w.Provenance mine) {q : CallId} {t : Task P}
    (ht : w.tasks[q]? = some t) (hmine : mine q) {service : Service} (hserving : t.Serving service)
    {origin : CallId} (hobtained : Service.Obtained P t.call service t.trace origin) :
    origin = q ∨ (w.LookedUp origin (P.digest (P.cacheKey t.call service)) ∧
      P.cacheKey t.call service ∈ t.lookups) := by
  cases hobtained with
  | own => exact .inl (h.self q t ht)
  | l1 hfound =>
      exact .inr ⟨(h.consistent q t ht hmine _ hfound _ rfl).looked, Task.mem_lookups.2 ⟨_, hfound⟩⟩
  | l2 hfound =>
      obtain ⟨tr, hextends, -, hlooked, -⟩ := hserving.emits_of_mem hfound rfl
      exact .inr ⟨(h.consistent q t ht hmine _ hfound _ rfl).looked,
        Task.mem_lookups_of_looked (hlooked.mono hextends)⟩
  | flight hflown =>
      obtain ⟨entered, hentered, hresult, flight, hflight, hkey, horigin⟩ :=
        h.flown ht hmine hserving hflown
      obtain ⟨tr, hextends, -, hlooked⟩ := hserving.emits_of_mem hentered rfl
      refine .inr ⟨?_, Task.mem_lookups_of_looked (hlooked.mono hextends)⟩
      rw [horigin, ← hkey]
      exact h.starters _ _ hflight

end World

section Example

open World

def advances : Act → Bool
  | .answer _ _ => true
  | .takeEffect _ => true
  | _ => false

theorem length_tasks_of_advances {w w' : World P} {act : Act} (h : w.step act = some w')
    (hact : advances act = true) : w'.tasks.length = w.tasks.length := by
  cases act with
  | answer caller environment =>
      obtain ⟨t, -, hanswer⟩ := Option.bind_eq_some_iff.mp h
      obtain ⟨o, next, hrest, a, s, hserves, rfl⟩ := answer_eq_some hanswer
      rw [← hserves.frame.1]
      exact List.length_set
  | takeEffect caller =>
      obtain ⟨t, -, heffect⟩ := Option.bind_eq_some_iff.mp h
      obtain ⟨-, heq⟩ := Option.ite_none_right_eq_some.mp heffect
      obtain rfl := Option.some.inj heq
      rfl
  | _ => cases hact

theorem looksUpRelated_of_alone {R : ToolCall → ToolCall → CacheKeyOptions → CacheKeyOptions → Prop}
    (hself : ∀ call key key', R call call key key') {w : World P} (h : w.tasks.length ≤ 1)
    (act : Act) : w.LooksUpRelated R act := by
  cases act with
  | answer caller environment =>
      intro t ht key _ u hu key' _
      obtain ⟨u', hu'⟩ := List.mem_iff_getElem?.mp hu
      have hcaller : caller = 0 :=
        Nat.lt_one_iff.mp ((List.getElem?_eq_some_iff.mp ht).1.trans_le h)
      have hother : u' = 0 := Nat.lt_one_iff.mp ((List.getElem?_eq_some_iff.mp hu').1.trans_le h)
      subst hcaller hother
      obtain rfl := Option.some.inj (ht.symm.trans hu')
      exact hself _ _ _
  | _ => trivial

theorem looksUpRelated_of_advances
    {R : ToolCall → ToolCall → CacheKeyOptions → CacheKeyOptions → Prop}
    (hself : ∀ call key key', R call call key key') {acts : List Act}
    (hacts : acts.all advances = true) {w : World P} (h : w.tasks.length ≤ 1) :
    Transition.Along step (LooksUpRelated R) w acts := by
  induction acts generalizing w with
  | nil => trivial
  | cons act acts ih =>
      obtain ⟨hact, hacts⟩ := Bool.and_eq_true_iff.mp hacts
      refine ⟨looksUpRelated_of_alone hself h act, fun w' hstep => ?_⟩
      exact ih hacts ((length_tasks_of_advances hstep hact).trans_le h)

-- a cached tool of a server that wants each client's own account
def accountPipeline : RequestPipeline where
  host := plainHost
  config :=
    { servers :=
        [{ id := "crm"
           url := "http://crm"
           cache := { overrides := some (.set .empty "list_contacts" { ttl := some 60 }) }
           upstreamAuth := some
             { connectedAccount := some { provider := "crm", binding := some .client } } }]
      identity := some { enabled := true } }
  identityStore := some
    { accounts :=
        [⟨"a1", "acme", "crm", some "agent-7", none, "Bearer", some "s1", none, 0, none⟩] }

def contactsCall (clientId : String) : ToolCall where
  self := 0
  serverId := "crm"
  message := toolsCall (.obj [("name", .str "list_contacts")])
  context := { traceId := "t", rawHeaders := .empty }
  principal := { clientId := clientId, tenantId := "acme" }

-- resolve, getAnnotations and l1Get
def lookUp (caller : CallId) : List Act := List.replicate 3 (.answer caller permissive)

-- a miss goes on with enterFlight, forward, settleFlight, awaitFlight, now and l1Set
def miss (caller : CallId) : List Act :=
  lookUp caller ++ [.answer caller permissive, .takeEffect caller] ++
    List.replicate 5 (.answer caller permissive)

def lonelyMiss : List Act := .arrive (contactsCall "agent-7") :: miss 0

def strangersHit : List Act := lonelyMiss ++ .arrive (contactsCall "agent-8") :: lookUp 1

def lastWorld (acts : List Act) : World accountPipeline :=
  (Transition.run step (init accountPipeline) acts).getD (init accountPipeline)

theorem run_lonelyMiss :
    Transition.run step (init accountPipeline) lonelyMiss = some (lastWorld lonelyMiss) := rfl

theorem identityKeyed_lonelyMiss :
    Transition.Along step IdentityKeyed (init accountPipeline) lonelyMiss := by
  have hrelated : Transition.Along step (LooksUpRelated (SameHeadersUnderKey accountPipeline))
      (init accountPipeline) lonelyMiss := by
    refine ⟨trivial, fun w hw => ?_⟩
    obtain rfl := Option.some.inj hw
    exact looksUpRelated_of_advances sameHeadersUnderKey_self rfl le_rfl
  exact hrelated.of_invariant step (fun _ _ _ _ _ _ => trivial)
    (fun _ _ _ hsame => identityKeyed_iff.2 hsame) trivial

theorem run_strangersHit :
    Transition.run step (init accountPipeline) strangersHit = some (lastWorld strangersHit) := rfl

theorem principals_strangersHit :
    (lastWorld strangersHit).tasks.map (fun t => t.call.principal) =
      [(contactsCall "agent-7").principal, (contactsCall "agent-8").principal] := rfl

theorem origin_strangersHit :
    ((lastWorld strangersHit).tasks[1]?.bind fun t => t.rest.result?.bind Outcome.origin) =
      some 0 := by decide +kernel

theorem lookups_strangersHit :
    ((lastWorld strangersHit).tasks[0]?.map fun t => t.lookups.map CacheKeyOptions.serverId) =
      some ["crm"] := by decide +kernel

theorem principal_strangersHit {c : CallId} {t : Task accountPipeline}
    (h : (lastWorld strangersHit).tasks[c]? = some t) :
    [(contactsCall "agent-7").principal, (contactsCall "agent-8").principal][c]? =
      some t.call.principal := by
  rw [← principals_strangersHit, List.getElem?_map, h]
  rfl

end Example

end Conduit.Gateway
