import Conduit.Cache.SingleFlight

namespace Conduit.Cache.SingleFlight

namespace State

variable {α ε : Type} {s t : State α ε} {event : Event α ε}

section Callers

variable (s) in
structure CallerSound (c : CallerId) (caller : Caller α ε) : Prop where
  calling : caller.part = .calling → caller.settled = none ∧ ⟨c, caller.key⟩ ∈ s.stack
  threw : ∀ error, caller.part = .threw error → caller.settled = some (.error error)
  execution : ∀ e wasCoalesced, caller.part.awaited? = some (e, wasCoalesced) →
    ∃ x, s.executions[e]? = some x ∧ x.key = caller.key ∧ (wasCoalesced = false → x.owner = c)
  answer : ∀ e wasCoalesced result, caller.part.awaited? = some (e, wasCoalesced) →
    caller.settled = some result →
      ∃ outcome, s.outcome? e = some outcome ∧
        result = outcome.map fun value => (value, wasCoalesced)

variable (s) in
structure Served : Prop where
  callers : ∀ c caller, s.callers[c]? = some caller → s.CallerSound c caller
  frames : ∀ frame ∈ s.stack, ∃ caller, s.callers[frame.caller]? = some caller ∧
    caller.part = .calling ∧ caller.key = frame.key
  distinct : (s.stack.map Frame.caller).Nodup

theorem CallerSound.later {c : CallerId} {caller : Caller α ε} (hs : s.CallerSound c caller)
    (h : s.Moves event t) (hframe : caller.part = .calling → ⟨c, caller.key⟩ ∈ t.stack) :
    t.CallerSound c caller where
  calling := fun hcalling => ⟨(hs.calling hcalling).1, hframe hcalling⟩
  threw := hs.threw
  execution := by
    intro e wasCoalesced hpart
    obtain ⟨x, hx, hkey, howner⟩ := hs.execution e wasCoalesced hpart
    obtain ⟨y, hy, hkey', howner', -⟩ := later_of_moves h hx
    exact ⟨y, hy, hkey'.trans hkey, fun hown => howner'.trans (howner hown)⟩
  answer := by
    intro e wasCoalesced result hpart hsettled
    obtain ⟨outcome, houtcome, hresult⟩ := hs.answer e wasCoalesced result hpart hsettled
    exact ⟨outcome, outcome?_of_moves h houtcome, hresult⟩

theorem getElem?_concat {β : Type} {xs : List β} {x y : β} {i : ℕ}
    (h : (xs ++ [x])[i]? = some y) : xs[i]? = some y ∨ i = xs.length ∧ y = x := by
  rw [List.getElem?_append] at h
  split at h
  · exact .inl h
  next hge =>
    rw [List.getElem?_singleton] at h
    split at h
    · exact .inr ⟨by omega, (Option.some.inj h).symm⟩
    · cases h

theorem Served.join (hs : s.Served) (hm : s.Mapped) {key : String} {existing : InflightEntry}
    (h : s.inflight.get? key = some existing) : (s.join key existing).Served where
  callers := by
    intro c caller hcaller
    rcases getElem?_concat hcaller with hold | ⟨rfl, rfl⟩
    · have hsound := hs.callers c caller hold
      exact hsound.later (.join h) fun hcalling => (hsound.calling hcalling).2
    · have hregistered : s.registered? key = some existing.promise :=
        congrArg (Option.map InflightEntry.promise) h
      obtain ⟨x, hx, hkey, -⟩ := (hm.registered key existing.promise).mp hregistered
      constructor
      · exact fun h => by cases h
      · exact fun _ h => by cases h
      · intro e wasCoalesced hpart
        obtain ⟨rfl, rfl⟩ := Prod.mk.inj (Option.some.inj hpart)
        exact ⟨x, hx, hkey, fun h => by cases h⟩
      · exact fun _ _ _ _ h => by cases h
  frames := by
    intro frame hframe
    obtain ⟨caller, hcaller, hcalling⟩ := hs.frames frame hframe
    have hlt := (List.getElem?_eq_some_iff.mp hcaller).1
    exact ⟨caller, (List.getElem?_append_left hlt).trans hcaller, hcalling⟩
  distinct := hs.distinct

theorem Served.begin (hs : s.Served) {key : String} (h : s.inflight.get? key = none) :
    (s.begin key).Served where
  callers := by
    intro c caller hcaller
    rcases getElem?_concat hcaller with hold | ⟨rfl, rfl⟩
    · have hsound := hs.callers c caller hold
      exact hsound.later (.begin h) fun hcalling =>
        List.mem_cons_of_mem _ (hsound.calling hcalling).2
    · constructor
      · exact fun _ => ⟨rfl, List.mem_cons_self⟩
      · exact fun _ h => by cases h
      · exact fun _ _ h => by cases h
      · exact fun _ _ _ h => by cases h
  frames := by
    intro frame hframe
    rcases List.mem_cons.mp hframe with rfl | hframe
    · exact ⟨_, List.getElem?_concat_length, rfl, rfl⟩
    · obtain ⟨caller, hcaller, hcalling⟩ := hs.frames frame hframe
      have hlt := (List.getElem?_eq_some_iff.mp hcaller).1
      exact ⟨caller, (List.getElem?_append_left hlt).trans hcaller, hcalling⟩
  distinct := by
    refine List.nodup_cons.mpr ⟨fun hmem => ?_, hs.distinct⟩
    obtain ⟨frame, hframe, heq⟩ := List.mem_map.mp hmem
    obtain ⟨caller, hcaller, -⟩ := hs.frames frame hframe
    exact absurd (List.getElem?_eq_some_iff.mp hcaller).1 (heq ▸ Nat.lt_irrefl _)

-- the factory on top of the stack has come to an end, one way or the other
theorem Served.pop (hs : s.Served) {frame : Frame} {rest : List Frame}
    (hstack : s.stack = frame :: rest) (h : s.Moves event t) (hrest : t.stack = rest)
    {f : Caller α ε → Caller α ε} (hcallers : t.callers = s.callers.modify frame.caller f)
    (hf : ∀ caller, caller.part = .calling → caller.key = frame.key → caller.settled = none →
      t.CallerSound frame.caller (f caller)) : t.Served := by
  have hframes := hs.frames
  have hdistinct := hs.distinct
  rw [hstack, List.forall_mem_cons] at hframes
  rw [hstack, List.map_cons, List.nodup_cons] at hdistinct
  obtain ⟨top, htop, hcalling, hkey⟩ := hframes.1
  constructor
  · intro c caller hcaller
    rw [hcallers, List.getElem?_modify] at hcaller
    obtain ⟨old, hold, rfl⟩ := Option.map_eq_some_iff.mp hcaller
    have hsound := hs.callers c old hold
    split
    next heq =>
      subst heq
      obtain rfl := Option.some.inj (htop.symm.trans hold)
      exact hf top hcalling hkey (hsound.calling hcalling).1
    next hne =>
      apply hsound.later h
      intro hcalling
      have hmem := (hsound.calling hcalling).2
      rw [hstack] at hmem
      rw [hrest]
      rcases List.mem_cons.mp hmem with heq | hmem
      · exact absurd (congrArg Frame.caller heq).symm hne
      · exact hmem
  · rw [hrest, hcallers]
    intro frame' hframe'
    obtain ⟨caller, hcaller, hcalling'⟩ := hframes.2 frame' hframe'
    refine ⟨caller, ?_, hcalling'⟩
    rw [List.getElem?_modify_ne, hcaller]
    intro heq
    exact hdistinct.1 (heq ▸ List.mem_map_of_mem hframe')
  · rw [hrest]
    exact hdistinct.2

theorem Served.same (hs : s.Served) (h : s.Moves event t) (hcallers : t.callers = s.callers)
    (hstack : t.stack = s.stack) : t.Served where
  callers := by
    intro c caller hcaller
    rw [hcallers] at hcaller
    have hsound := hs.callers c caller hcaller
    exact hsound.later h fun hcalling => hstack ▸ (hsound.calling hcalling).2
  frames := by
    rw [hcallers, hstack]
    exact hs.frames
  distinct := by
    rw [hstack]
    exact hs.distinct

theorem served_of_moves (hm : s.Mapped) (hs : s.Served) (h : s.Moves event t) : t.Served := by
  cases h with
  | join h => exact hs.join hm h
  | begin h => exact hs.begin h
  | register hstack =>
      apply hs.pop hstack (.register hstack) rfl rfl
      intro caller hcalling hkey hsettled
      constructor
      · exact fun h => by cases h
      · exact fun _ h => by cases h
      · intro e wasCoalesced hpart
        obtain ⟨rfl, rfl⟩ := Prod.mk.inj (Option.some.inj hpart)
        exact ⟨_, List.getElem?_concat_length, hkey.symm, fun _ => rfl⟩
      · intro e wasCoalesced result _ hsome
        rw [hsettled] at hsome
        cases hsome
  | abandon hstack =>
      apply hs.pop hstack (.abandon hstack) rfl rfl
      intro caller hcalling hkey hsettled
      constructor
      · exact fun h => by cases h
      · intro error h
        cases h
        rfl
      · exact fun _ _ h => by cases h
      · exact fun _ _ _ h => by cases h
  | settle h hphase => exact hs.same (.settle h hphase) rfl rfl
  | finalize hstack h hphase => exact hs.same (.finalize hstack h hphase) rfl rfl
  | deliver hstack h hphase => exact hs.same (.deliver hstack h hphase) rfl rfl
  | @resume c caller execution wasCoalesced outcome x hstack h hsettled hpart hx hphase =>
      have hmoves : s.Moves (.resumes c) _ := .resume hstack h hsettled hpart hx hphase
      constructor
      · intro c' caller' hcaller'
        rw [answer, List.getElem?_modify] at hcaller'
        obtain ⟨old, hold, rfl⟩ := Option.map_eq_some_iff.mp hcaller'
        have hsound := hs.callers c' old hold
        split
        next heq =>
          subst heq
          obtain rfl := Option.some.inj (h.symm.trans hold)
          have hlater : CallerSound _ c caller := hsound.later hmoves fun hcalling => by
            rw [hcalling] at hpart
            cases hpart
          constructor
          · intro hcalling
            rw [hcalling] at hpart
            cases hpart
          · intro error hthrew
            rw [hthrew] at hpart
            cases hpart
          · exact hlater.execution
          · intro e wasCoalesced' result hpart' hresult
            obtain ⟨rfl, rfl⟩ := Prod.mk.inj (Option.some.inj (hpart.symm.trans hpart'))
            refine ⟨outcome, ?_, (Option.some.inj hresult).symm⟩
            refine Option.bind_eq_some_iff.mpr ⟨x, hx, ?_⟩
            rw [hphase]
            rfl
        next hne => exact hsound.later hmoves fun hcalling => (hsound.calling hcalling).2
      · intro frame hframe
        rw [answer, hstack] at hframe
        cases hframe
      · rw [answer, hstack]
        exact List.nodup_nil

theorem served_init : (init : State α ε).Served where
  callers := fun _ _ h => by cases h
  frames := fun _ h => by cases h
  distinct := List.nodup_nil

end Callers

section Runs

open Transition

theorem sound_of_run {es : List (Event α ε)} (hflat : Along step Flat s es)
    (hm : s.Mapped) (hs : s.Served) (hrun : run step s es = some t) : t.Mapped ∧ t.Served := by
  apply run_invariant step (p := Flat) (I := fun s => s.Mapped ∧ s.Served) _ ⟨hm, hs⟩ hflat hrun
  rintro s e s' ⟨hm, hs⟩ hflat hstep
  have hmoves := moves_of_step hstep
  exact ⟨mapped_of_moves hm hflat hmoves, served_of_moves hm hs hmoves⟩

theorem continues_of_moves (hs : s.Served) (h : s.Moves event t) {c : CallerId}
    {caller : Caller α ε} (hcaller : s.callers[c]? = some caller) :
    ∃ caller', t.callers[c]? = some caller' ∧ caller'.key = caller.key ∧
      caller.part.Continues caller'.part := by
  have hlt := (List.getElem?_eq_some_iff.mp hcaller).1
  have hmodify : ∀ (i : CallerId) (f : Caller α ε → Caller α ε),
      (∀ x, (f x).key = x.key) →
      (∀ x, s.callers[i]? = some x → x.part.Continues (f x).part) →
      ∃ caller', (s.callers.modify i f)[c]? = some caller' ∧ caller'.key = caller.key ∧
        caller.part.Continues caller'.part := by
    intro i f hkey hpart
    rw [List.getElem?_modify, hcaller]
    refine ⟨_, rfl, ?_, ?_⟩
    · split
      · exact hkey caller
      · rfl
    · split
      next heq => exact hpart caller (heq ▸ hcaller)
      next => exact .inl rfl
  have htop : ∀ {frame : Frame} {rest : List Frame}, s.stack = frame :: rest →
      ∀ x, s.callers[frame.caller]? = some x → x.part = .calling := by
    intro frame rest hstack x hx
    obtain ⟨top, htop, hcalling, -⟩ := hs.frames frame (hstack ▸ List.mem_cons_self)
    obtain rfl := Option.some.inj (htop.symm.trans hx)
    exact hcalling
  cases h with
  | join h => exact ⟨caller, (List.getElem?_append_left hlt).trans hcaller, rfl, .inl rfl⟩
  | begin h => exact ⟨caller, (List.getElem?_append_left hlt).trans hcaller, rfl, .inl rfl⟩
  | register hstack => exact hmodify _ _ (fun _ => rfl) fun x hx => .inr ⟨htop hstack x hx, rfl⟩
  | abandon hstack => exact hmodify _ _ (fun _ => rfl) fun x hx => .inr ⟨htop hstack x hx, rfl⟩
  | settle => exact ⟨caller, hcaller, rfl, .inl rfl⟩
  | finalize => exact ⟨caller, hcaller, rfl, .inl rfl⟩
  | deliver => exact ⟨caller, hcaller, rfl, .inl rfl⟩
  | resume => exact hmodify _ _ (fun _ => rfl) fun _ _ => .inl rfl

theorem continues_of_run {es : List (Event α ε)} (hflat : Along step Flat s es)
    (hm : s.Mapped) (hs : s.Served) (hrun : run step s es = some t) {c : CallerId}
    {caller : Caller α ε} (hcaller : s.callers[c]? = some caller) :
    ∃ caller', t.callers[c]? = some caller' ∧ caller'.key = caller.key ∧
      caller.part.Continues caller'.part := by
  induction es generalizing s caller with
  | nil =>
      obtain rfl : s = t := by simpa using hrun
      exact ⟨caller, hcaller, rfl, .inl rfl⟩
  | cons e es ih =>
      obtain ⟨s', hstep, hrest⟩ := (run_cons_eq_some step).mp hrun
      have hmoves := moves_of_step hstep
      obtain ⟨next, hnext, hkey, hpart⟩ := continues_of_moves hs hmoves hcaller
      obtain ⟨last, hlast, hkey', hpart'⟩ := ih (hflat.2 s' hstep)
        (mapped_of_moves hm hflat.1 hmoves) (served_of_moves hm hs hmoves) hrest hnext
      exact ⟨last, hlast, hkey'.trans hkey, hpart.trans hpart'⟩

variable (s) in
-- a call joins the execution registered for its key, and else calls its factory
def Assigns (key : String) (part : Part ε) : Prop :=
  match s.registered? key with
  | some e => part = .joined e
  | none => part.ran = true

theorem Assigns.continues {key : String} {part part' : Part ε} (h : s.Assigns key part)
    (hcontinues : part.Continues part') : s.Assigns key part' := by
  rcases hcontinues with rfl | ⟨rfl, hran⟩
  · exact h
  · unfold Assigns at h ⊢
    split at h
    · cases h
    · exact hran

theorem assigns_of_calls {key : String} (h : s.Moves (.calls key) t) :
    ∃ caller, t.callers[s.callers.length]? = some caller ∧ caller.key = key ∧
      s.Assigns key caller.part := by
  cases h with
  | join h =>
      refine ⟨_, List.getElem?_concat_length, rfl, ?_⟩
      simp only [Assigns, registered?, h, Option.map_some]
  | begin h =>
      refine ⟨_, List.getElem?_concat_length, rfl, ?_⟩
      simp only [Assigns, registered?, h, Option.map_none, Part.ran]

variable (s) in
-- the result is the outcome of the execution that the caller awaits
def Answers (c : CallerId) (caller : Caller α ε) (result : Except ε (α × Bool)) : Prop :=
  match caller.part with
  | .calling => False
  | .threw error => result = .error error
  | .own e => ∃ x outcome, s.executions[e]? = some x ∧ x.key = caller.key ∧ x.owner = c ∧
      s.outcome? e = some outcome ∧ result = outcome.map fun value => (value, false)
  | .joined e => ∃ x outcome, s.executions[e]? = some x ∧ x.key = caller.key ∧
      s.outcome? e = some outcome ∧ result = outcome.map fun value => (value, true)

theorem answers_of_settled {c : CallerId} {caller : Caller α ε} {result : Except ε (α × Bool)}
    (hsound : s.CallerSound c caller) (hsettled : caller.settled = some result) :
    s.Answers c caller result := by
  unfold Answers
  split
  next hpart =>
    rw [(hsound.calling hpart).1] at hsettled
    cases hsettled
  next error hpart =>
    rw [hsound.threw error hpart] at hsettled
    exact (Option.some.inj hsettled).symm
  next e hpart =>
    have hawaited : caller.part.awaited? = some (e, false) := by rw [hpart]; rfl
    obtain ⟨x, hx, hkey, howner⟩ := hsound.execution e false hawaited
    obtain ⟨outcome, houtcome, hresult⟩ := hsound.answer e false result hawaited hsettled
    exact ⟨x, outcome, hx, hkey, howner rfl, houtcome, hresult⟩
  next e hpart =>
    have hawaited : caller.part.awaited? = some (e, true) := by rw [hpart]; rfl
    obtain ⟨x, hx, hkey, -⟩ := hsound.execution e true hawaited
    obtain ⟨outcome, houtcome, hresult⟩ := hsound.answer e true result hawaited hsettled
    exact ⟨x, outcome, hx, hkey, houtcome, hresult⟩

theorem coalesced_of_answers {c : CallerId} {caller : Caller α ε} {value : α}
    {wasCoalesced : Bool} (h : s.Answers c caller (.ok (value, wasCoalesced))) :
    wasCoalesced = false ↔ caller.part.ran = true := by
  unfold Answers at h
  split at h
  · cases h
  · cases h
  next e hpart =>
    obtain ⟨x, outcome, -, -, -, -, hresult⟩ := h
    rw [hpart]
    cases outcome with
    | error error => cases hresult
    | ok value' =>
        obtain ⟨-, rfl⟩ := Prod.mk.inj (Except.ok.inj hresult)
        exact iff_of_true rfl rfl
  next e hpart =>
    obtain ⟨x, outcome, -, -, -, hresult⟩ := h
    rw [hpart]
    cases outcome with
    | error error => cases hresult
    | ok value' =>
        obtain ⟨-, rfl⟩ := Prod.mk.inj (Except.ok.inj hresult)
        exact iff_of_false (fun h => by cases h) (fun h => by cases h)

end Runs

section Progress

open Transition

variable (s) in
-- callbacks alone bring the call to its end
def Finishes (c : CallerId) : Prop :=
  ∃ callbacks t caller, (∀ event ∈ callbacks, Event.isCallback event = true) ∧
    run step s callbacks = some t ∧ t.callers[c]? = some caller ∧ caller.settled.isSome = true

theorem Finishes.of_step {c : CallerId} (hcallback : event.isCallback = true)
    (h : s.step event = some t) (hfinishes : t.Finishes c) : s.Finishes c := by
  obtain ⟨callbacks, t', caller, hcallbacks, hrun, hcaller, hsettled⟩ := hfinishes
  refine ⟨event :: callbacks, t', caller, ?_, ?_, hcaller, hsettled⟩
  · exact List.forall_mem_cons.mpr ⟨hcallback, hcallbacks⟩
  · rw [run_cons, h]
    exact hrun

section Awaiting

variable {c : CallerId} {caller : Caller α ε} {e : ExecutionId} {wasCoalesced : Bool}
  {x : Execution (Except ε α)} {outcome : Except ε α}

theorem finishes_of_delivered (hstack : s.stack = []) (hcaller : s.callers[c]? = some caller)
    (hsettled : caller.settled = none)
    (hpart : caller.part.awaited? = some (e, wasCoalesced)) (hx : s.executions[e]? = some x)
    (hphase : x.phase = .delivered outcome) : s.Finishes c := by
  obtain ⟨key, part, settled⟩ := caller
  obtain ⟨key', owner, phase⟩ := x
  dsimp only at hsettled hpart hphase
  subst hsettled hphase
  have hstep : s.step (.resumes c) =
      some (s.answer c (outcome.map fun result => (result, wasCoalesced))) := by
    simp only [step, hstack, hcaller, hpart, hx]
  apply Finishes.of_step rfl hstep
  have hanswer : (s.answer c (outcome.map fun result => (result, wasCoalesced))).callers[c]? =
      some ⟨key, part, some (outcome.map fun result => (result, wasCoalesced))⟩ := by
    rw [answer, List.getElem?_modify, hcaller]
    simp only [if_true, Option.map_eq_map, Option.map_some]
  exact ⟨[], _, _, fun _ h => absurd h List.not_mem_nil, rfl, hanswer, rfl⟩

theorem finishes_of_finalized (hstack : s.stack = []) (hcaller : s.callers[c]? = some caller)
    (hsettled : caller.settled = none)
    (hpart : caller.part.awaited? = some (e, wasCoalesced)) (hx : s.executions[e]? = some x)
    (hphase : x.phase = .finalized outcome) : s.Finishes c := by
  have hstep : s.step (.delivers e) = some (s.enterPhase e x (.delivered outcome)) := by
    obtain ⟨key', owner, phase⟩ := x
    dsimp only at hphase
    subst hphase
    simp only [step, hstack, hx]
  apply Finishes.of_step rfl hstep
  have hdelivered : (s.enterPhase e x (.delivered outcome)).executions[e]? =
      some { x with phase := .delivered outcome } := by
    rw [getElem?_enterPhase hx, if_pos rfl]
  exact finishes_of_delivered (s := s.enterPhase e x (.delivered outcome)) hstack hcaller hsettled
    hpart hdelivered rfl

theorem finishes_of_settled (hstack : s.stack = []) (hcaller : s.callers[c]? = some caller)
    (hsettled : caller.settled = none)
    (hpart : caller.part.awaited? = some (e, wasCoalesced)) (hx : s.executions[e]? = some x)
    (hphase : x.phase = .settled outcome) : s.Finishes c := by
  have hstep : s.step (.finalizes e) =
      some { s.enterPhase e x (.finalized outcome) with inflight := s.inflight.delete x.key } := by
    obtain ⟨key', owner, phase⟩ := x
    dsimp only at hphase
    subst hphase
    simp only [step, hstack, hx]
  apply Finishes.of_step rfl hstep
  have hfinalized : (s.enterPhase e x (.finalized outcome)).executions[e]? =
      some { x with phase := .finalized outcome } := by
    rw [getElem?_enterPhase hx, if_pos rfl]
  exact finishes_of_finalized
    (s := { s.enterPhase e x (.finalized outcome) with inflight := s.inflight.delete x.key })
    hstack hcaller hsettled hpart hfinalized rfl

end Awaiting

variable (s) in
-- the call waits for its factory, or for a promise that its factory or another's has to settle
def Waits (caller : Caller α ε) : Prop :=
  s.stack ≠ [] ∨ ∃ e wasCoalesced x, caller.part.awaited? = some (e, wasCoalesced) ∧
    s.executions[e]? = some x ∧ x.phase = .pending

theorem waits_or_finishes {c : CallerId} {caller : Caller α ε} (hsound : s.CallerSound c caller)
    (hcaller : s.callers[c]? = some caller) (hsettled : caller.settled = none) :
    s.Waits caller ∨ s.Finishes c := by
  by_cases hstack : s.stack = []
  · cases hawaited : caller.part.awaited? with
    | none =>
        exfalso
        cases hpart : caller.part with
        | calling =>
            have hframe := (hsound.calling hpart).2
            rw [hstack] at hframe
            cases hframe
        | threw error =>
            rw [hsound.threw error hpart] at hsettled
            cases hsettled
        | own e =>
            rw [hpart] at hawaited
            cases hawaited
        | joined e =>
            rw [hpart] at hawaited
            cases hawaited
    | some awaited =>
        obtain ⟨e, wasCoalesced⟩ := awaited
        obtain ⟨x, hx, -⟩ := hsound.execution e wasCoalesced hawaited
        cases hphase : x.phase with
        | pending => exact .inl (.inr ⟨e, wasCoalesced, x, hawaited, hx, hphase⟩)
        | settled outcome =>
            exact .inr (finishes_of_settled hstack hcaller hsettled hawaited hx hphase)
        | finalized outcome =>
            exact .inr (finishes_of_finalized hstack hcaller hsettled hawaited hx hphase)
        | delivered outcome =>
            exact .inr (finishes_of_delivered hstack hcaller hsettled hawaited hx hphase)
  · exact .inl (.inl hstack)

end Progress

section Tracker

open Transition

theorem simulates_init : (init : State α ε).Simulates .init where
  inflight := fun _ => rfl
  flights := rfl

-- every run is one of the tracker, in which the flights that can be joined are open
theorem simulates_of_run {es : List (Event α ε)} (hflat : Along step Flat init es)
    (hrun : run step init es = some t) : ∃ T, T.Open ∧ t.Simulates T := by
  have hinvariant := run_invariant step (p := Flat)
    (I := fun s => s.Mapped ∧ ∃ T : InflightTracker (Except ε α), T.Open ∧ s.Simulates T)
    ?_ ⟨mapped_init, .init, InflightTracker.open_init, simulates_init⟩ hflat hrun
  · exact hinvariant.2
  · rintro s e s' ⟨hm, T, hopen, hsim⟩ hflat hstep
    have hmoves := moves_of_step hstep
    refine ⟨mapped_of_moves hm hflat hmoves, ?_⟩
    rcases simulates_of_moves hm hsim hmoves with h | ⟨key, caller, h⟩ | ⟨flight, outcome, h⟩
    · exact ⟨T, hopen, h⟩
    · exact ⟨_, hopen.enter key caller, h⟩
    · exact ⟨_, hopen.settle flight outcome, h⟩

end Tracker

section Claim

open Transition

theorem single_flight {es : List (Event α ε)} (hflat : Along step Flat init es)
    (hrun : run step init es = some t) :
    t.running.Nodup ∧
    (∀ before key after, es = before ++ .calls key :: after → ∃ s caller,
      run step init before = some s ∧ t.callers[s.callers.length]? = some caller ∧
      caller.key = key ∧ s.Assigns key caller.part) ∧
    (∀ c caller, t.callers[c]? = some caller →
      (∀ result, caller.settled = some result → t.Answers c caller result) ∧
      (∀ value wasCoalesced, caller.settled = some (.ok (value, wasCoalesced)) →
        (wasCoalesced = false ↔ caller.part.ran = true)) ∧
      (caller.settled = none → t.Waits caller ∨ t.Finishes c)) ∧
    ∀ key e, t.registered? key = some e ↔ t.Holds key e := by
  obtain ⟨hm, hs⟩ := sound_of_run hflat mapped_init served_init hrun
  refine ⟨nodup_running hm, ?_, fun c caller hcaller => ?_, hm.registered⟩
  · rintro before key after rfl
    obtain ⟨s, hbefore, hrest⟩ := (run_append_eq_some step).mp hrun
    obtain ⟨hflat, hflat'⟩ := (along_append step hbefore).mp hflat
    obtain ⟨hm, hs⟩ := sound_of_run hflat mapped_init served_init hbefore
    obtain ⟨next, hstep, hafter⟩ := (run_cons_eq_some step).mp hrest
    have hmoves := moves_of_step hstep
    obtain ⟨caller, hcaller, hkey, hassigns⟩ := assigns_of_calls hmoves
    obtain ⟨last, hlast, hkey', hcontinues⟩ := continues_of_run (hflat'.2 next hstep)
      (mapped_of_moves hm hflat'.1 hmoves) (served_of_moves hm hs hmoves) hafter hcaller
    exact ⟨s, last, hbefore, hlast, hkey'.trans hkey, hassigns.continues hcontinues⟩
  · have hsound := hs.callers c caller hcaller
    refine ⟨fun result => answers_of_settled hsound, fun value wasCoalesced hsettled => ?_, ?_⟩
    · exact coalesced_of_answers (answers_of_settled hsound hsettled)
    · exact waits_or_finishes hsound hcaller

def sharedRun : List (Event ℕ String) :=
  [.calls "k", .returns 0, .calls "k", .settles 0 (.ok 7), .finalizes 0, .delivers 0, .resumes 1,
    .resumes 0]

theorem single_flight_sharedRun :
    ∃ t, run step init sharedRun = some t ∧
      ∀ key e, t.registered? key = some e ↔ t.Holds key e := by
  obtain ⟨t, hrun⟩ := Option.isSome_iff_exists.mp
    (show (run step init sharedRun).isSome = true by decide)
  exact ⟨t, hrun, (single_flight (by decide) hrun).2.2.2⟩

-- a settled promise whose callback is still to run, and a factory that calls for its own key
theorem not_single_flight :
    (∃ t : State ℕ String, run step init [.calls "k", .returns 0, .settles 0 (.ok 7)] = some t ∧
      t.inflight.has "k" = true ∧
      ∀ x ∈ t.executions, x.key = "k" → x.phase.outcome?.isSome = true) ∧
    ∃ t : State ℕ String,
      run step init [.calls "k", .calls "k", .returns 0, .returns 0] = some t ∧
      ¬ t.running.Nodup := by
  refine ⟨⟨_, rfl, ?_, ?_⟩, ⟨_, rfl, ?_⟩⟩
  · decide
  · decide
  · decide

end Claim

end State

end Conduit.Cache.SingleFlight
