import Conduit.Foundation.Rotation
import Conduit.Foundation.Run
import Conduit.Router.Operation
import Mathlib.Data.Finset.Dedup
import Mathlib.Data.List.ReduceOption

namespace Conduit.Router

namespace ConduitRouter

variable (C : ConduitRouter)

def strategy : LoadBalancingStrategy := C.config.loadBalancing.getD .roundRobin

def eligibleClients (serverId : String) : List ClientRef :=
  (C.registry.getHealthyReplicas serverId).map ReplicaInfo.client

def counter (serverId : String) : ℕ := (C.roundRobinCounters.get? serverId).getD 0

-- the server for which an event selects a replica, and what it selects
def selection? : RouterEvent → Option (String × Option ClientRef)
  | .resolveToolCall toolName =>
      (C.resolveToolName toolName).map fun target =>
        (target.serverId, (C.selectReplica target.serverId).2)
  | .getClientForServer serverId =>
      (C.registry.getServerInfo serverId).map fun _ => (serverId, (C.selectReplica serverId).2)
  | _ => none

def pick? (serverId : String) (e : RouterEvent) : Option (Option ClientRef) :=
  ((C.selection? e).filter fun selection => selection.1 = serverId).map Prod.snd

def observe (serverId : String) (C : ConduitRouter) (e : RouterEvent) :
    ConduitRouter × Option (Option ClientRef) :=
  (C.step e, C.pick? serverId e)

-- the successive selections for the server
def picks (serverId : String) (C : ConduitRouter) (es : List RouterEvent) : List (Option ClientRef) :=
  (Transition.outputs (observe serverId) C es).reduceOption

-- the replicas of the server that can be selected are the same at each of its selections
def Steady (serverId : String) (eligible : Finset ClientRef) (C : ConduitRouter)
    (es : List RouterEvent) : Prop :=
  Transition.Throughout (observe serverId)
    (fun C e => (C.pick? serverId e).isSome → (C.eligibleClients serverId).toFinset = eligible) C es

instance (serverId : String) (eligible : Finset ClientRef) (es : List RouterEvent) :
    Decidable (Steady serverId eligible C es) :=
  inferInstanceAs (Decidable (Transition.Throughout _ _ _ _))

variable {C}

section LeastConnections

theorem leastConnections_le (first : ReplicaInfo) (replicas : List ReplicaInfo) :
    (leastConnections first replicas).activeConnections ≤ first.activeConnections ∧
      ∀ r ∈ replicas, (leastConnections first replicas).activeConnections ≤ r.activeConnections := by
  unfold leastConnections
  induction replicas generalizing first with
  | nil => exact ⟨le_refl _, fun r hr => absurd hr List.not_mem_nil⟩
  | cons replica rest ih =>
      rw [List.foldl_cons]
      obtain ⟨hfirst, hrest⟩ :=
        ih (if replica.activeConnections < first.activeConnections then replica else first)
      have hboth : (if replica.activeConnections < first.activeConnections then replica
            else first).activeConnections ≤ first.activeConnections ∧
          (if replica.activeConnections < first.activeConnections then replica
            else first).activeConnections ≤ replica.activeConnections := by
        split
        next hlt => exact ⟨le_of_lt hlt, le_refl _⟩
        next hge => exact ⟨le_refl _, not_lt.mp hge⟩
      refine ⟨le_trans hfirst hboth.1, fun r hr => ?_⟩
      rcases List.mem_cons.mp hr with rfl | hr
      · exact le_trans hfirst hboth.2
      · exact hrest r hr

theorem least_of_selectReplica {serverId : String} {client : ClientRef}
    (hstrategy : C.strategy = .leastConnections)
    (h : (C.selectReplica serverId).2 = some client) :
    ∃ chosen ∈ C.registry.getHealthyReplicas serverId, chosen.client = client ∧
      ∀ r ∈ C.registry.getHealthyReplicas serverId,
        chosen.activeConnections ≤ r.activeConnections := by
  unfold selectReplica at h
  rw [strategy] at hstrategy
  split at h
  · cases h
  next first rest heq =>
    rw [hstrategy] at h
    rw [heq]
    refine ⟨leastConnections first (first :: rest), ?_, Option.some.inj h,
      (leastConnections_le first (first :: rest)).2⟩
    rcases leastConnections_mem first (first :: rest) with hfirst | hmem
    · rw [hfirst]
      exact List.mem_cons_self ..
    · exact hmem

end LeastConnections

section RoundRobin

theorem selectReplica_roundRobin (hstrategy : C.strategy = .roundRobin) (serverId : String) :
    (C.selectReplica serverId).2 =
        (C.eligibleClients serverId)[C.counter serverId % (C.eligibleClients serverId).length]? ∧
      (C.eligibleClients serverId ≠ [] →
        (C.selectReplica serverId).1.counter serverId = C.counter serverId + 1) := by
  unfold selectReplica eligibleClients
  rw [strategy] at hstrategy
  split
  next heq =>
    rw [heq]
    exact ⟨rfl, fun h => absurd rfl h⟩
  next first rest heq =>
    rw [heq, hstrategy]
    refine ⟨?_, fun _ => ?_⟩
    · simp only [List.getElem?_map, List.length_map]
      rfl
    · simp [counter]

theorem counter_selectReplica_of_ne {serverId other : String} (hne : other ≠ serverId) :
    (C.selectReplica other).1.counter serverId = C.counter serverId := by
  unfold selectReplica
  split
  · rfl
  · split
    · rfl
    · simp [counter, OrderedMap.get?_set, hne]

theorem step_of_picked {serverId : String} {e : RouterEvent} {client : Option ClientRef}
    (h : C.pick? serverId e = some client) :
    client = (C.selectReplica serverId).2 ∧ C.step e = (C.selectReplica serverId).1 := by
  obtain ⟨selection, hselection, rfl⟩ := Option.map_eq_some_iff.mp h
  obtain ⟨hselection, hserver⟩ := Option.filter_eq_some_iff.mp hselection
  have hserver : selection.1 = serverId := of_decide_eq_true hserver
  cases e with
  | resolveToolCall toolName =>
      obtain ⟨target, htarget, rfl⟩ := Option.map_eq_some_iff.mp hselection
      subst hserver
      refine ⟨rfl, ?_⟩
      simp only [step, resolveToolCall, htarget]
  | getClientForServer server =>
      obtain ⟨info, hinfo, rfl⟩ := Option.map_eq_some_iff.mp hselection
      subst hserver
      refine ⟨rfl, ?_⟩
      simp only [step, getClientForServer, hinfo]
  | _ => cases hselection

theorem counter_of_unpicked {serverId : String} {e : RouterEvent}
    (h : C.pick? serverId e = none) : (C.step e).counter serverId = C.counter serverId := by
  have hunpicked : ∀ selection, C.selection? e = some selection → selection.1 ≠ serverId := by
    intro selection hselection heq
    rw [pick?, hselection, Option.filter_some, if_pos (decide_eq_true heq)] at h
    cases h
  cases e with
  | resolveToolCall toolName =>
      simp only [step, resolveToolCall]
      cases htarget : C.resolveToolName toolName with
      | none => rfl
      | some target =>
          apply counter_selectReplica_of_ne
          exact hunpicked (target.serverId, (C.selectReplica target.serverId).2)
            (by simp [selection?, htarget])
  | getClientForServer server =>
      simp only [step, getClientForServer]
      cases hinfo : C.registry.getServerInfo server with
      | none => rfl
      | some info =>
          apply counter_selectReplica_of_ne
          exact hunpicked (server, (C.selectReplica server).2) (by simp [selection?, hinfo])
  | _ => rfl

theorem config_step (e : RouterEvent) : (C.step e).config = C.config := by
  cases e with
  | resolveToolCall toolName =>
      simp only [step, resolveToolCall]
      split
      · rfl
      · exact selectReplica_config _
  | getClientForServer server =>
      simp only [step, getClientForServer]
      split
      · rfl
      · exact selectReplica_config _
  | _ => rfl

theorem strategy_foldl (events : List RouterEvent) :
    (events.foldl step C).strategy = C.strategy := by
  induction events generalizing C with
  | nil => rfl
  | cons e events ih => rw [List.foldl_cons, ih, strategy, config_step, strategy]

-- the replicas of a server keep the order of their indexes, whichever of them are eligible
theorem increasing_eligibleClients (h : C.registry.WellIndexed) (serverId : String) :
    (C.eligibleClients serverId).Pairwise fun a b => a.replica < b.replica := by
  unfold eligibleClients ServerRegistry.getHealthyReplicas
  cases hinfo : C.registry.getServerInfo serverId with
  | none => exact List.Pairwise.nil
  | some info =>
      have hserver := ServerRegistry.wellIndexed_iff.1 h serverId info hinfo
      rw [List.pairwise_map]
      apply List.Pairwise.filter
      rw [List.pairwise_iff_getElem]
      intro i j hi hj hlt
      rw [hserver i _ (List.getElem?_eq_getElem hi), hserver j _ (List.getElem?_eq_getElem hj)]
      exact hlt

theorem nodup_eligibleClients (h : C.registry.WellIndexed) (serverId : String) :
    (C.eligibleClients serverId).Nodup := by
  apply (increasing_eligibleClients h serverId).imp
  intro a b hlt heq
  rw [heq] at hlt
  exact lt_irrefl _ hlt

theorem eligibleClients_eq_of_toFinset_eq {C' : ConduitRouter} {serverId : String}
    (h : C.registry.WellIndexed) (h' : C'.registry.WellIndexed)
    (heq : (C.eligibleClients serverId).toFinset = (C'.eligibleClients serverId).toFinset) :
    C.eligibleClients serverId = C'.eligibleClients serverId := by
  have hperm : (C.eligibleClients serverId).Perm (C'.eligibleClients serverId) :=
    List.perm_of_nodup_nodup_toFinset_eq (nodup_eligibleClients h serverId)
      (nodup_eligibleClients h' serverId) heq
  let before (a b : ClientRef) : Prop := a.replica < b.replica
  have hantisymm : ∀ a b, a ∈ C.eligibleClients serverId → b ∈ C'.eligibleClients serverId →
      before a b → before b a → a = b := by
    intro a b _ _ hab hba
    exact absurd hab (Nat.lt_asymm hba)
  apply hperm.eq_of_pairwise hantisymm
  · exact increasing_eligibleClients h serverId
  · exact increasing_eligibleClients h' serverId

theorem picks_cons (serverId : String) (e : RouterEvent) (es : List RouterEvent) :
    picks serverId C (e :: es) =
      (C.pick? serverId e).toList ++ picks serverId (C.step e) es := by
  cases hpick : C.pick? serverId e with
  | none =>
      simp only [picks, Transition.outputs, observe, hpick]
      rw [List.reduceOption_cons_of_none]
      rfl
  | some client =>
      simp only [picks, Transition.outputs, observe, hpick]
      rw [List.reduceOption_cons_of_some]
      rfl

theorem picks_eq_rotation {serverId : String} {clients : List ClientRef} {es : List RouterEvent}
    (h : C.registry.WellIndexed) (hstrategy : C.strategy = .roundRobin) (hnonempty : clients ≠ [])
    (hclients : ∀ C' : ConduitRouter, C'.registry.WellIndexed →
      (C'.eligibleClients serverId).toFinset = clients.toFinset →
      C'.eligibleClients serverId = clients)
    (hsteady : Steady serverId clients.toFinset C es) :
    picks serverId C es =
      (List.range' (C.counter serverId) (picks serverId C es).length).map
        fun j => clients[j % clients.length]? := by
  induction es generalizing C with
  | nil => rfl
  | cons e es ih =>
      have hstep : (C.step e).strategy = .roundRobin := by
        rw [strategy, config_step, ← strategy, hstrategy]
      have hrest := ih (wellIndexed_step h e) hstep hsteady.2
      rw [picks_cons]
      cases hpick : C.pick? serverId e with
      | none =>
          rw [counter_of_unpicked hpick] at hrest
          exact hrest
      | some client =>
          obtain ⟨hclient, hselect⟩ := step_of_picked hpick
          obtain ⟨hselected, hcounter⟩ := selectReplica_roundRobin hstrategy serverId
          have heligible : C.eligibleClients serverId = clients :=
            hclients C h (hsteady.1 (by rw [hpick]; rfl))
          rw [heligible] at hselected hcounter
          rw [hselect, hcounter hnonempty, ← hselect] at hrest
          rw [Option.toList_some, List.singleton_append, List.length_cons, List.range'_succ,
            List.map_cons, ← hrest, hclient, hselected]

theorem picks_of_unreached {serverId : String} {eligible : Finset ClientRef}
    {es : List RouterEvent} (h : C.registry.WellIndexed)
    (hunreached : ¬ ∃ C' : ConduitRouter, C'.registry.WellIndexed ∧
      (C'.eligibleClients serverId).toFinset = eligible)
    (hsteady : Steady serverId eligible C es) : picks serverId C es = [] := by
  induction es generalizing C with
  | nil => rfl
  | cons e es ih =>
      rw [picks_cons, ih (wellIndexed_step h e) hsteady.2]
      cases hpick : C.pick? serverId e with
      | none => rfl
      | some client => exact absurd ⟨C, h, hsteady.1 (by rw [hpick]; rfl)⟩ hunreached

theorem count_picks {serverId : String} {eligible : Finset ClientRef} {es : List RouterEvent}
    {k : ℕ} {client : ClientRef} (h : C.registry.WellIndexed)
    (hstrategy : C.strategy = .roundRobin) (hsteady : Steady serverId eligible C es)
    (hlength : (picks serverId C es).length = k * eligible.card) (hclient : client ∈ eligible) :
    (picks serverId C es).count (some client) = k := by
  by_cases hreached : ∃ C' : ConduitRouter, C'.registry.WellIndexed ∧
      (C'.eligibleClients serverId).toFinset = eligible
  · obtain ⟨C', h', rfl⟩ := hreached
    have hrotation := picks_eq_rotation h hstrategy
      (List.ne_nil_of_mem (List.mem_toFinset.mp hclient))
      (fun C'' h'' heq => eligibleClients_eq_of_toFinset_eq h'' h' heq) hsteady
    rw [List.toFinset_card_of_nodup (nodup_eligibleClients h' serverId)] at hlength
    rw [hrotation, hlength]
    exact Rotation.count_rotation (nodup_eligibleClients h' serverId)
      (List.mem_toFinset.mp hclient) _ k
  · have hnone : picks serverId C es = [] := picks_of_unreached h hreached hsteady
    have hcard : 0 < eligible.card := Finset.card_pos.mpr ⟨client, hclient⟩
    rw [hnone, List.length_nil] at hlength
    rw [hnone, List.count_nil]
    exact ((Nat.mul_eq_zero.mp hlength.symm).resolve_right (Nat.ne_of_gt hcard)).symm

end RoundRobin

theorem selectReplica_sound_and_fair :
    (∀ (C : ConduitRouter) (serverId : String),
      ((C.selectReplica serverId).2.isSome = true ↔
        ∃ idx r, C.registry.replica? ⟨serverId, idx⟩ = some r ∧ r.eligible = true) ∧
      ∀ client, (C.selectReplica serverId).2 = some client →
        ∃ idx chosen, C.registry.replica? ⟨serverId, idx⟩ = some chosen ∧
          chosen.eligible = true ∧ chosen.client = client ∧
          (C.strategy = .leastConnections →
            ∀ idx r, C.registry.replica? ⟨serverId, idx⟩ = some r → r.eligible = true →
              chosen.activeConnections ≤ r.activeConnections)) ∧
    ∀ (config : RouterConfig) (servers : List ServerConfig) (before es : List RouterEvent)
      (serverId : String) (eligible : Finset ClientRef) (k : ℕ),
      (init config servers).strategy = .roundRobin →
      Steady serverId eligible (before.foldl step (init config servers)) es →
      (picks serverId (before.foldl step (init config servers)) es).length = k * eligible.card →
      ∀ client ∈ eligible,
        (picks serverId (before.foldl step (init config servers)) es).count (some client) = k := by
  refine ⟨fun C serverId => ⟨?_, fun client hclient => ?_⟩, ?_⟩
  · rw [selectReplica_isSome]
    constructor
    · intro hne
      obtain ⟨r, hr⟩ := List.exists_mem_of_ne_nil _ hne
      obtain ⟨heligible, idx, hidx⟩ := ServerRegistry.mem_getHealthyReplicas.1 hr
      exact ⟨idx, r, hidx, heligible⟩
    · rintro ⟨idx, r, hidx, heligible⟩
      exact List.ne_nil_of_mem (ServerRegistry.mem_getHealthyReplicas.2 ⟨heligible, idx, hidx⟩)
  · by_cases hstrategy : C.strategy = .leastConnections
    · obtain ⟨chosen, hmem, hchosen, hleast⟩ := least_of_selectReplica hstrategy hclient
      obtain ⟨heligible, idx, hidx⟩ := ServerRegistry.mem_getHealthyReplicas.1 hmem
      refine ⟨idx, chosen, hidx, heligible, hchosen, fun _ idx' r hr hr' => ?_⟩
      exact hleast r (ServerRegistry.mem_getHealthyReplicas.2 ⟨hr', idx', hr⟩)
    · obtain ⟨chosen, hmem, hchosen⟩ := mem_of_selectReplica hclient
      obtain ⟨heligible, idx, hidx⟩ := ServerRegistry.mem_getHealthyReplicas.1 hmem
      exact ⟨idx, chosen, hidx, heligible, hchosen, fun h => absurd h hstrategy⟩
  · intro config servers before es serverId eligible k hstrategy hsteady hlength client hclient
    have hindexed : (before.foldl step (init config servers)).registry.WellIndexed :=
      wellIndexed_of_reached ⟨servers, before, rfl⟩
    exact count_picks hindexed ((strategy_foldl before).trans hstrategy) hsteady hlength hclient

def twoReplicas : ServerConfig := { id := "search", url := "a", replicas := ["b"] }

def twoClients : Finset ClientRef := {⟨"search", 0⟩, ⟨"search", 1⟩}

theorem selectReplica_sound_and_fair_twoReplicas :
    (picks "search" ([.getClientForServer "search"].foldl step (init {} [twoReplicas]))
      (List.replicate 4 (.getClientForServer "search"))).count (some ⟨"search", 1⟩) = 2 := by
  apply selectReplica_sound_and_fair.2 {} [twoReplicas] [.getClientForServer "search"]
    (List.replicate 4 (.getClientForServer "search")) "search" twoClients 2
  · decide
  · decide
  · decide
  · decide

end ConduitRouter

end Conduit.Router
