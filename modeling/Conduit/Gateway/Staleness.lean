import Conduit.Gateway.ServerChanges
import Conduit.Gateway.Sharing

namespace Conduit.Gateway

open Router Cache Program World

namespace Installation

variable {P : RequestPipeline} {s s' : Installation P}

section Steps

-- the state in which a removal or a purge leaves nothing of the server behind
def Vacates (s : Installation P) : Act → Prop
  | .reloadRemovals newIds => ∀ server ∈ s.servers, server.id ∉ newIds →
      s.Registers server.id → s.Idle server.id
  | .reconcileRemovals discovered => ∀ serverId ∈ s.managed, serverId ∉ discovered →
      s.Registers serverId → s.Idle serverId ∧ s.Uncached serverId
  | .replaceServer server => s.Registers server.id → s.Idle server.id ∧ s.Uncached server.id
  | .deleteServer serverId => s.Registers serverId → s.Idle serverId ∧ s.Uncached serverId
  | .purge serverId => s.Unread serverId
  | _ => True

variable (hinjective : Function.Injective P.host.sha256)

include hinjective

theorem Current.of_removal (h : s.Current) {removed : String → Prop}
    (hchanges : s.Changes s' removed Unpurged)
    (hremoved : ∀ serverId, removed serverId → s.Idle serverId ∧ s.Uncached serverId) :
    s.Leads s' :=
  h.of_changes hinjective hchanges
    (fun serverId hgone =>
      ⟨(hremoved serverId hgone).1, (hremoved serverId hgone).2.mono hchanges⟩)
    fun _ hnone => hnone.elim

theorem Current.reloadRemovals (h : s.Current) {newIds : List String}
    (hvacates : s.Vacates (.reloadRemovals newIds)) : s.Leads (s.reloadRemovals newIds) := by
  have hemptied : s.Changes (s.emptied (s.servers.filter fun server => server.id ∉ newIds)) _
      Unpurged := emptied_changes _ s
  have hchanges : s.Changes (s.reloadRemovals newIds) _ Unpurged :=
    hemptied.trans (changes_of_frame _ _ _ _)
  refine h.of_changes hinjective hchanges ?_ fun _ hnone => hnone.elim
  rintro id ⟨⟨server, hserver, rfl⟩, hregisters⟩
  obtain ⟨hmem, hgone⟩ := List.mem_filter.mp hserver
  refine ⟨hvacates server hmem (of_decide_eq_true hgone) hregisters, ?_⟩
  exact uncached_emptied h.indexed hserver

theorem Current.reconcileRemovals (h : s.Current) {discovered : List String}
    (hvacates : s.Vacates (.reconcileRemovals discovered)) :
    s.Leads (s.reconcileRemovals discovered) := by
  have hremoved : s.Changes _ _ Unpurged :=
    removed_changes (s.managed.filter fun serverId => serverId ∉ discovered) s
  have hchanges : s.Changes (s.reconcileRemovals discovered) _ Unpurged :=
    hremoved.trans (changes_of_frame _ _ _ _)
  refine h.of_removal hinjective hchanges ?_
  rintro id ⟨hid, hregisters⟩
  obtain ⟨hmem, hgone⟩ := List.mem_filter.mp hid
  exact hvacates id hmem (of_decide_eq_true hgone) hregisters

theorem Current.unchanged (h : s.Current) : s.Leads s := by
  have hchanges : s.Changes s (fun _ => False) Unpurged := .refl s
  exact h.of_removal hinjective hchanges fun _ hnone => hnone.elim

theorem Current.deleteServer (h : s.Current) {serverId : String}
    (hvacates : s.Vacates (.deleteServer serverId)) : s.Leads (s.deleteServer serverId) := by
  unfold Installation.deleteServer
  split
  · exact h.unchanged hinjective
  · have hremoved : s.Changes _ _ Unpurged := removeServer_changes s serverId
    have hchanges : s.Changes ((s.removeServer serverId).spliceServer serverId) _ Unpurged :=
      hremoved.trans (changes_of_frame _ _ _ _)
    refine h.of_removal hinjective hchanges ?_
    rintro id ⟨rfl, hregisters⟩
    exact hvacates hregisters

theorem Current.replaceServer (h : s.Current) {server : ServerConfig}
    (hvacates : s.Vacates (.replaceServer server)) : s.Leads (s.replaceServer server) := by
  have hremoved : s.Changes _ _ Unpurged := removeServer_changes s server.id
  have hchanges : s.Changes (s.replaceServer server) _ Unpurged :=
    hremoved.trans (changes_of_frame _ _ _ _)
  refine h.of_removal hinjective hchanges ?_
  rintro id ⟨rfl, hregisters⟩
  exact hvacates hregisters

theorem Current.purge (h : s.Current) {serverId : String}
    (hvacates : s.Vacates (.purge serverId)) : s.Leads (s.purge serverId) := by
  have hdeleted : s.Changes (s.deleteByServer serverId) (fun _ => False)
      fun id => id = serverId := deleteByServer_changes s serverId
  have hchanges : s.Changes (s.purge serverId) (fun _ => False) fun id => id = serverId :=
    { hdeleted with
      purges := fun id hkept => Function.update_of_ne hkept _ _ }
  refine h.of_changes hinjective hchanges (fun _ hnone => hnone.elim) ?_
  rintro id rfl
  exact ⟨hvacates, uncached_deleteByServer h.indexed id⟩

theorem Current.arrived (h : s.Current) (router : ConduitRouter) {σ : Session P}
    (hnew : s.New σ) :
    s.Leads { s with router := router, sessions := s.sessions ++ [σ] } := by
  generalize hs' : { s with router := router, sessions := s.sessions ++ [σ] } = s'
  have hfollows : s.Follows s' := by
    intro c u hu
    subst hs'
    refine ⟨u, ?_, rfl, fun _ hasked => hasked⟩
    rw [List.getElem?_append_left (List.getElem?_eq_some_iff.mp hu).1]
    exact hu
  have hspares : ∀ serverId, s.Spares s' serverId := by
    subst hs'
    exact spares_of_same rfl rfl
  have hinflight : s'.inflight = s.inflight := by rw [← hs']
  have hremovals : s'.removals = s.removals := by rw [← hs']
  have hold : ∀ (c : CallId) (u : Session P), s.sessions[c]? = some u →
      u.task.finished = false → s'.Sound u := fun c u hu hunfinished =>
    (h.sound c u hu hunfinished).mono hinjective hfollows (settles_of_inflight hinflight)
      (fun serverId _ => (hspares serverId).1) fun serverId _ _ => (hspares serverId).2
  have hsessions : ∀ (c : CallId) (u : Session P), s'.sessions[c]? = some u →
      s.sessions[c]? = some u ∨ c = s.sessions.length ∧ u = σ := by
    subst hs'
    exact fun c u hu => getElem?_append_session hu
  refine ⟨⟨?_, ?_, ?_, ?_, ?_, ?_, ?_⟩, ?_⟩
  · intro c u hu
    rcases hsessions c u hu with hbefore | ⟨rfl, rfl⟩
    · exact h.self c u hbefore
    · exact hnew.self
  · intro c u hu hunfinished
    rcases hsessions c u hu with hbefore | ⟨rfl, rfl⟩
    · exact hold c u hbefore hunfinished
    · exact hnew.sound hremovals
  · subst hs'
    exact fun digest entry hentry => (h.l1 digest entry hentry).mono hfollows (hspares _)
  · subst hs'
    exact fun digest entry hentry => (h.redis digest entry hentry).mono hfollows (hspares _)
  · subst hs'
    exact fun digest entry hmem => (h.writes digest entry hmem).mono hfollows (hspares _)
  · rw [hinflight]
    exact h.flights
  · subst hs'
    exact h.indexed
  · intro c u hu hlive
    rcases hsessions c u hu with hbefore | ⟨rfl, rfl⟩
    · exact hold c u hbefore (hlive u hbefore)
    · exact hnew.sound hremovals

theorem Current.arrive (h : s.Current) (pipeline : RequestPipeline) (call : ToolCall) :
    s.Leads (s.arrive pipeline call) := by
  unfold Installation.arrive
  dsimp only
  split
  next router resolved hadvance =>
    obtain ⟨o, next, hrest, a, hresolve, rfl⟩ := Thread.advance_eq_some hadvance
    have htrace : ∃ serverId toolName, o = .resolve serverId toolName := by
      cases o with
      | resolve serverId toolName => exact ⟨serverId, toolName, rfl⟩
      | _ => cases hresolve
    refine h.arrived hinjective router ⟨rfl, rfl, rfl, rfl, fun e he => ?_⟩
    obtain rfl := List.mem_singleton.mp he
    exact htrace
  next =>
    refine h.arrived hinjective s.router ⟨rfl, rfl, rfl, rfl, fun e he => ?_⟩
    exact absurd he List.not_mem_nil

theorem Current.frame (h : s.Current) (router : ConduitRouter) (servers : List ServerConfig)
    (managed : List String) :
    s.Leads { s with router := router, servers := servers, managed := managed } := by
  have hchanges : s.Changes { s with router := router, servers := servers, managed := managed }
      (fun _ => False) Unpurged := changes_of_frame s router servers managed
  exact h.of_removal hinjective hchanges fun _ hnone => hnone.elim

theorem Current.step (h : s.Current) {act : Act} (hvacates : s.Vacates act)
    (hstep : s.step act = some s') : s.Leads s' := by
  cases act with
  | arrive pipeline call =>
      obtain rfl := Option.some.inj hstep
      exact h.arrive hinjective pipeline call
  | answer c environment =>
      obtain ⟨σ, hσ, hanswer⟩ := Option.bind_eq_some_iff.mp hstep
      obtain ⟨o, next, hrest, a, w, hserves, hother, rfl⟩ := answer_eq_some hanswer
      exact h.answered hinjective hσ hrest hother hserves
  | takeEffect c =>
      obtain ⟨σ, -, heffect⟩ := Option.bind_eq_some_iff.mp hstep
      exact h.of_quiet hinjective (takeEffect_quiet heffect)
  | readL2 c =>
      obtain ⟨σ, hσ, hread⟩ := Option.bind_eq_some_iff.mp hstep
      exact h.of_quiet hinjective (readL2_quiet hσ hread)
  | startScan c =>
      obtain ⟨σ, hσ, hscan⟩ := Option.bind_eq_some_iff.mp hstep
      exact h.of_quiet hinjective (startScan_quiet hσ hscan)
  | scan c digest =>
      obtain ⟨σ, hσ, hscan⟩ := Option.bind_eq_some_iff.mp hstep
      exact h.of_quiet hinjective (scan_quiet hσ hscan)
  | failScan c =>
      obtain ⟨σ, hσ, hscan⟩ := Option.bind_eq_some_iff.mp hstep
      exact h.of_quiet hinjective (failScan_quiet hσ hscan)
  | landWrite index =>
      obtain ⟨write, hwrite, rfl⟩ := Option.map_eq_some_iff.mp hstep
      exact h.of_quiet hinjective (landWrite_quiet hwrite)
  | evict key =>
      obtain rfl := Option.some.inj hstep
      exact h.of_quiet hinjective (evict_quiet s key)
  | expire key =>
      obtain rfl := Option.some.inj hstep
      exact h.of_quiet hinjective (expire_quiet s key)
  | addServer server =>
      obtain rfl := Option.some.inj hstep
      exact h.frame hinjective _ s.servers s.managed
  | configure server =>
      obtain rfl := Option.some.inj hstep
      exact h.frame hinjective s.router _ s.managed
  | manage serverId =>
      obtain rfl := Option.some.inj hstep
      exact h.frame hinjective s.router s.servers _
  | reloadRemovals newIds =>
      obtain rfl := Option.some.inj hstep
      exact h.reloadRemovals hinjective hvacates
  | reconcileRemovals discovered =>
      obtain rfl := Option.some.inj hstep
      exact h.reconcileRemovals hinjective hvacates
  | replaceServer server =>
      obtain rfl := Option.some.inj hstep
      exact h.replaceServer hinjective hvacates
  | deleteServer serverId =>
      obtain rfl := Option.some.inj hstep
      exact h.deleteServer hinjective hvacates
  | purge serverId =>
      obtain rfl := Option.some.inj hstep
      exact h.purge hinjective hvacates
  | route event =>
      have hroute : (if isUpkeep event then
          some { s with router := s.router.step event } else none) = some s' := hstep
      split at hroute
      · obtain rfl := Option.some.inj hroute
        exact h.frame hinjective _ s.servers s.managed
      · cases hroute

theorem current_of_run {acts : List Act}
    (hvacates : Transition.Along Installation.step Vacates (init P) acts)
    (hrun : Transition.run Installation.step (init P) acts = some s) : s.Current :=
  Transition.run_invariant Installation.step
    (fun _ _ _ h hvacates hstep => (h.step hinjective hvacates hstep).current) current_init
    hvacates hrun

-- whatever a call is answered with, if it is not its own, has been obtained through the server as
-- it is registered now, and after the last purge
theorem answers_current {acts : List Act} {act : Act}
    (hrun : Transition.run Installation.step (init P) acts = some s)
    (hvacates : Transition.Along Installation.step Vacates (init P) (acts ++ [act]))
    (hstep : s.step act = some s') {c origin : CallId} {σ : Session P} {out : Outcome}
    (hlive : s.Live c) (hσ : s'.sessions[c]? = some σ) (hout : σ.task.rest.result? = some out)
    (horigin : out.origin = some origin) (hother : origin ≠ c) :
    ∃ service, σ.task.Serving service ∧ s'.Marked origin service.actual.serverId := by
  obtain ⟨hbefore, hlast⟩ := (Transition.along_append Installation.step hrun).mp hvacates
  have hleads := (current_of_run hinjective hbefore hrun).step hinjective hlast.1 hstep
  have hsound : s'.Sound σ := hleads.sound c σ hσ hlive
  obtain ⟨service, hserving⟩ := σ.task.serving_of_origin hout horigin
  refine ⟨service, hserving, ?_⟩
  cases hserving.obtained hout horigin with
  | own => exact absurd (hleads.current.self c σ hσ) hother
  | l1 hl1 => exact hsound.l1Get_marked hl1
  | l2 hl2 => exact hsound.l2Get_marked hl2
  | flight hflown => exact hsound.flown_marked hserving hflown

end Steps

section Example

def crmServer : ServerConfig := { id := "crm", url := "http://crm.new" }

def answers (c : CallId) (n : ℕ) : List Act := List.replicate n (.answer c permissive)

-- getAnnotations, l1Get, enterFlight; forward, settleFlight, awaitFlight, now, l1Set
def missed : List Act :=
  .arrive accountPipeline (contactsCall "agent-7") :: answers 0 3 ++ .takeEffect 0 :: answers 0 5

-- the second call has still to look in L1
def asked : List Act :=
  [.arrive accountPipeline (contactsCall "agent-7"), .answer 1 permissive]

def replaced : List Act := missed ++ [.deleteServer "crm", .addServer crmServer] ++ asked

def renewal : List Act := [.deleteServer "crm", .addServer crmServer, .purge "crm"]

def renewed : List Act := renewal ++ (missed ++ asked)

def targets (σ : Session P) : List String :=
  σ.task.trace.filterMap fun
    | ⟨.resolve _ _, resolution⟩ =>
        some (resolution.actual σ.task.call.serverId σ.task.call.toolName).serverId
    | _ => none

theorem mem_targets {σ : Session P} {serverId : String} (h : σ.Targets serverId) :
    serverId ∈ targets σ := by
  obtain ⟨asked, toolName, resolution, hresolve, hserver⟩ := h
  exact List.mem_filterMap.mpr ⟨_, hresolve, congrArg some hserver⟩

structure CallOutline where
  targets : List String
  finished : Bool
  origin : Option CallId
  through : ℕ
deriving DecidableEq

def callOutline (σ : Session P) : CallOutline where
  targets := targets σ
  finished := σ.task.finished
  origin := σ.task.rest.result?.bind Outcome.origin
  through := σ.through "crm"

structure Outline where
  calls : List CallOutline
  removals : ℕ
deriving DecidableEq

def outline (s : Installation P) : Outline where
  calls := s.sessions.map callOutline
  removals := s.removals "crm"

-- the first call is answered, the second about to be or answered as well
def pendingHit (through : ℕ) : Outline :=
  ⟨[⟨["crm"], true, some 0, through⟩, ⟨["crm"], false, none, 1⟩], 1⟩

def answeredHit (through : ℕ) : Outline :=
  ⟨[⟨["crm"], true, some 0, through⟩, ⟨["crm"], true, some 0, 1⟩], 1⟩

theorem run_replaced :
    (Transition.run Installation.step (init accountPipeline) replaced).map outline =
      some (pendingHit 0) := by decide +kernel

theorem run_replaced_answered :
    (Transition.run Installation.step (init accountPipeline)
      (replaced ++ [.answer 1 permissive])).map outline = some (answeredHit 0) := by
  decide +kernel

theorem run_renewed :
    (Transition.run Installation.step (init accountPipeline) renewed).map outline =
      some (pendingHit 1) := by decide +kernel

theorem run_renewed_answered :
    (Transition.run Installation.step (init accountPipeline)
      (renewed ++ [.answer 1 permissive])).map outline = some (answeredHit 1) := by
  decide +kernel

-- the call that the last step of such a run answers
theorem hit_of_runs {acts : List Act} {act : Act} {through : ℕ}
    (hpending : (Transition.run Installation.step (init P) acts).map outline =
      some (pendingHit through))
    (hanswered : (Transition.run Installation.step (init P) (acts ++ [act])).map outline =
      some (answeredHit through)) :
    ∃ (s s' : Installation P) (σ : Session P) (out : Outcome),
      Transition.run Installation.step (init P) acts = some s ∧ s.step act = some s' ∧
      s.Live 1 ∧ s'.sessions[1]? = some σ ∧ σ.task.rest.result? = some out ∧
      out.origin = some 0 ∧ outline s' = answeredHit through := by
  obtain ⟨s', hrun', houtline'⟩ := Option.map_eq_some_iff.mp hanswered
  obtain ⟨s, hrun, hlast⟩ := (Transition.run_append_eq_some Installation.step).mp hrun'
  obtain ⟨t, hstep, hnil⟩ := (Transition.run_cons_eq_some Installation.step).mp hlast
  obtain rfl := Option.some.inj hnil
  have houtline : outline s = pendingHit through := by
    rw [hrun] at hpending
    exact Option.some.inj hpending
  have hcalls : s.sessions.map callOutline = (pendingHit through).calls :=
    congrArg Outline.calls houtline
  have hcalls' : t.sessions.map callOutline = (answeredHit through).calls :=
    congrArg Outline.calls houtline'
  have hsecond : (t.sessions.map callOutline)[1]? = some ⟨["crm"], true, some 0, 1⟩ := by
    rw [hcalls']
    rfl
  rw [List.getElem?_map] at hsecond
  obtain ⟨σ, hσ, hcall⟩ := Option.map_eq_some_iff.mp hsecond
  obtain ⟨out, hout, horigin⟩ := Option.bind_eq_some_iff.mp (congrArg CallOutline.origin hcall)
  refine ⟨s, t, σ, out, hrun, hstep, fun u hu => ?_, hσ, hout, horigin, houtline'⟩
  have hbefore : (s.sessions.map callOutline)[1]? = some (callOutline u) := by
    rw [List.getElem?_map, hu]
    rfl
  rw [hcalls] at hbefore
  exact (congrArg CallOutline.finished (Option.some.inj hbefore)).symm

theorem vacant_of_empty {busy : Session P → Prop} (hredis : s.redis = .empty)
    (hwrites : s.writes = []) (hsessions : s.sessions = []) (serverId : String) :
    s.Vacant serverId busy where
  redis := by simp [hredis]
  writes := by simp [hwrites]
  sessions := by simp [hsessions]

theorem vacates_renewal :
    Transition.Along Installation.step Vacates (init accountPipeline) renewal := by
  refine ⟨fun _ => ⟨vacant_of_empty rfl rfl rfl _, nofun⟩, fun s hs => ⟨trivial, fun t ht => ?_⟩⟩
  obtain rfl := Option.some.inj hs
  obtain rfl := Option.some.inj ht
  exact ⟨vacant_of_empty rfl rfl rfl _, fun _ _ => trivial⟩

theorem vacates_renewed :
    Transition.Along Installation.step Vacates (init accountPipeline)
      (renewed ++ [.answer 1 permissive]) := by
  have hrest : ∀ act ∈ missed ++ asked ++ [.answer 1 permissive], ∀ s : Installation accountPipeline,
      s.Vacates act := by
    intro act hact s
    have hcases : act = .arrive accountPipeline (contactsCall "agent-7") ∨ act = .takeEffect 0 ∨
        act = .answer 0 permissive ∨ act = .answer 1 permissive := by
      simp [missed, asked, answers] at hact
      tauto
    rcases hcases with rfl | rfl | rfl | rfl <;> exact trivial
  obtain ⟨s, hrun⟩ : ∃ s, Transition.run Installation.step (init accountPipeline) renewal = some s :=
    ⟨_, rfl⟩
  have hacts : renewed ++ [.answer 1 permissive] =
      renewal ++ (missed ++ asked ++ [.answer 1 permissive]) := by
    simp [renewed]
  rw [hacts]
  exact (Transition.along_append Installation.step hrun).mpr
    ⟨vacates_renewal, .of_forall Installation.step hrest s⟩

theorem answers_current_renewed :
    ∃ (s' : Installation accountPipeline) (σ : Session accountPipeline) (service : Service),
      s'.sessions[1]? = some σ ∧ σ.task.Serving service ∧
        s'.Marked 0 service.actual.serverId := by
  obtain ⟨s, s', σ, out, hrun, hstep, hlive, hσ, hout, horigin, -⟩ :=
    hit_of_runs run_renewed run_renewed_answered
  obtain ⟨service, hserving, hmarked⟩ := answers_current (fun _ _ h => h) hrun vacates_renewed hstep
    hlive hσ hout horigin (by decide)
  exact ⟨s', σ, service, hσ, hserving, hmarked⟩

-- the answer of a server that has been replaced since is given out of L1
theorem replaced_server_answers :
    ∃ (s s' : Installation accountPipeline) (σ : Session accountPipeline) (out : Outcome),
      Transition.run Installation.step (init accountPipeline) replaced = some s ∧
      s.step (.answer 1 permissive) = some s' ∧ s.Live 1 ∧ s'.sessions[1]? = some σ ∧
      σ.task.rest.result? = some out ∧ out.origin = some 0 ∧
      ∀ service, σ.task.Serving service → ¬ s'.Marked 0 service.actual.serverId := by
  obtain ⟨s, s', σ, out, hrun, hstep, hlive, hσ, hout, horigin, houtline⟩ :=
    hit_of_runs run_replaced run_replaced_answered
  refine ⟨s, s', σ, out, hrun, hstep, hlive, hσ, hout, horigin, ?_⟩
  have hcalls : s'.sessions.map callOutline = (answeredHit 0).calls :=
    congrArg Outline.calls houtline
  intro service hserving hmarked
  have htarget : service.actual.serverId = "crm" := by
    have hcall : (s'.sessions.map callOutline)[1]? = some (callOutline σ) := by
      rw [List.getElem?_map, hσ]
      rfl
    rw [hcalls] at hcall
    have htargets : ["crm"] = targets σ := congrArg CallOutline.targets (Option.some.inj hcall)
    have hmem := mem_targets (Session.targets_of_serving hserving)
    rw [← htargets] at hmem
    exact List.mem_singleton.mp hmem
  rw [htarget] at hmarked
  obtain ⟨u, hu, hthrough, -⟩ := hmarked
  have hcall : (s'.sessions.map callOutline)[0]? = some (callOutline u) := by
    rw [List.getElem?_map, hu]
    rfl
  rw [hcalls] at hcall
  have hearlier : 0 = u.through "crm" := congrArg CallOutline.through (Option.some.inj hcall)
  have hremovals : s'.removals "crm" = 1 := congrArg Outline.removals houtline
  rw [← hearlier, hremovals] at hthrough
  cases hthrough

end Example

end Installation

end Conduit.Gateway
