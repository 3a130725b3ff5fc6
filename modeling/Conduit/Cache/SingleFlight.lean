import Conduit.Cache.Inflight
import Conduit.Foundation.Run

namespace Conduit.Cache.SingleFlight

abbrev CallerId := ℕ

abbrev ExecutionId := ℕ

-- the factory's promise settles, then its finally callback runs, then the promise that the
-- callers await settles
inductive Phase (ρ : Type) where
  | pending
  | settled (outcome : ρ)
  | finalized (outcome : ρ)
  | delivered (outcome : ρ)
deriving DecidableEq

namespace Phase

variable {ρ : Type}

def outcome? : Phase ρ → Option ρ
  | .pending => none
  | .settled outcome => some outcome
  | .finalized outcome => some outcome
  | .delivered outcome => some outcome

def held : Phase ρ → Bool
  | .pending => true
  | .settled _ => true
  | .finalized _ => false
  | .delivered _ => false

end Phase

structure Execution (ρ : Type) where
  key : String
  owner : CallerId
  phase : Phase ρ
deriving DecidableEq

structure InflightEntry where
  promise : ExecutionId
  startedAt : ℕ
  coalesced : ℕ
deriving DecidableEq

-- what a call came to: its factory is being called, has thrown or has returned a promise, or the
-- call found the promise of another
inductive Part (ε : Type) where
  | calling
  | threw (error : ε)
  | own (execution : ExecutionId)
  | joined (execution : ExecutionId)
deriving DecidableEq

namespace Part

variable {ε : Type}

def awaited? : Part ε → Option (ExecutionId × Bool)
  | .calling => none
  | .threw _ => none
  | .own execution => some (execution, false)
  | .joined execution => some (execution, true)

-- the factory was called
def ran : Part ε → Bool
  | .joined _ => false
  | _ => true

def Continues (part part' : Part ε) : Prop :=
  part' = part ∨ part = .calling ∧ part'.ran = true

theorem Continues.trans {part part' part'' : Part ε} (h : part.Continues part')
    (h' : part'.Continues part'') : part.Continues part'' := by
  rcases h with rfl | ⟨rfl, hran⟩
  · exact h'
  · rcases h' with rfl | ⟨-, hran'⟩
    · exact .inr ⟨rfl, hran⟩
    · exact .inr ⟨rfl, hran'⟩

end Part

structure Caller (α ε : Type) where
  key : String
  part : Part ε
  settled : Option (Except ε (α × Bool))

-- a factory that is being called
structure Frame where
  caller : CallerId
  key : String
deriving DecidableEq

structure State (α ε : Type) where
  inflight : OrderedMap String InflightEntry
  executions : List (Execution (Except ε α))
  callers : List (Caller α ε)
  stack : List Frame

inductive Event (α ε : Type) where
  | calls (key : String)
  | returns (now : ℕ)
  | throws (error : ε)
  | settles (execution : ExecutionId) (outcome : Except ε α)
  | finalizes (execution : ExecutionId)
  | delivers (execution : ExecutionId)
  | resumes (caller : CallerId)

-- a callback runs on its own, once what it waits for has come
def Event.isCallback {α ε : Type} : Event α ε → Bool
  | .finalizes _ => true
  | .delivers _ => true
  | .resumes _ => true
  | _ => false

namespace State

variable {α ε : Type}

def init : State α ε where
  inflight := .empty
  executions := []
  callers := []
  stack := []

variable (s : State α ε)

def join (key : String) (existing : InflightEntry) : State α ε :=
  { s with
    inflight := s.inflight.set key { existing with coalesced := existing.coalesced + 1 }
    callers := s.callers ++ [⟨key, .joined existing.promise, none⟩] }

def begin (key : String) : State α ε :=
  { s with
    callers := s.callers ++ [⟨key, .calling, none⟩]
    stack := ⟨s.callers.length, key⟩ :: s.stack }

def register (frame : Frame) (rest : List Frame) (now : ℕ) : State α ε where
  inflight := s.inflight.set frame.key ⟨s.executions.length, now, 0⟩
  executions := s.executions ++ [⟨frame.key, frame.caller, .pending⟩]
  callers := s.callers.modify frame.caller fun c => { c with part := .own s.executions.length }
  stack := rest

def abandon (frame : Frame) (rest : List Frame) (error : ε) : State α ε :=
  { s with
    callers := s.callers.modify frame.caller fun c =>
      { c with part := .threw error, settled := some (.error error) }
    stack := rest }

def enterPhase (execution : ExecutionId) (x : Execution (Except ε α))
    (phase : Phase (Except ε α)) : State α ε :=
  { s with executions := s.executions.set execution { x with phase := phase } }

def answer (caller : CallerId) (result : Except ε (α × Bool)) : State α ε :=
  { s with callers := s.callers.modify caller fun c => { c with settled := some result } }

-- callbacks run when no factory is being called
def step : Event α ε → Option (State α ε)
  | .calls key =>
      match s.inflight.get? key with
      | some existing => some (s.join key existing)
      | none => some (s.begin key)
  | .returns now =>
      match s.stack with
      | frame :: rest => some (s.register frame rest now)
      | [] => none
  | .throws error =>
      match s.stack with
      | frame :: rest => some (s.abandon frame rest error)
      | [] => none
  | .settles execution outcome =>
      match s.executions[execution]? with
      | some ⟨key, owner, .pending⟩ =>
          some (s.enterPhase execution ⟨key, owner, .pending⟩ (.settled outcome))
      | _ => none
  | .finalizes execution =>
      match s.stack, s.executions[execution]? with
      | [], some ⟨key, owner, .settled outcome⟩ =>
          some { s.enterPhase execution ⟨key, owner, .settled outcome⟩ (.finalized outcome) with
            inflight := s.inflight.delete key }
      | _, _ => none
  | .delivers execution =>
      match s.stack, s.executions[execution]? with
      | [], some ⟨key, owner, .finalized outcome⟩ =>
          some (s.enterPhase execution ⟨key, owner, .finalized outcome⟩ (.delivered outcome))
      | _, _ => none
  | .resumes caller =>
      match s.stack, s.callers[caller]? with
      | [], some ⟨_, part, none⟩ =>
          match part.awaited? with
          | some (execution, wasCoalesced) =>
              match s.executions[execution]? with
              | some ⟨_, _, .delivered outcome⟩ =>
                  some (s.answer caller (outcome.map fun result => (result, wasCoalesced)))
              | _ => none
          | none => none
      | _, _ => none

def registered? (key : String) : Option ExecutionId :=
  (s.inflight.get? key).map InflightEntry.promise

def outcome? (execution : ExecutionId) : Option (Except ε α) :=
  s.executions[execution]?.bind fun x => x.phase.outcome?

-- the keys of the factories that are being called and of the promises that are pending
def running : List String :=
  s.stack.map Frame.key ++
    (s.executions.filter fun x => x.phase.outcome?.isNone).map Execution.key

-- no factory calls deduplicate for the key it is itself called for
def Flat : Event α ε → Prop
  | .calls key => key ∉ s.stack.map Frame.key
  | _ => True

instance : ∀ event : Event α ε, Decidable (s.Flat event)
  | .calls _ => inferInstanceAs (Decidable (_ ∉ _))
  | .returns _ => isTrue trivial
  | .throws _ => isTrue trivial
  | .settles _ _ => isTrue trivial
  | .finalizes _ => isTrue trivial
  | .delivers _ => isTrue trivial
  | .resumes _ => isTrue trivial

inductive Moves : Event α ε → State α ε → Prop
  | join {key : String} {existing : InflightEntry} (h : s.inflight.get? key = some existing) :
      Moves (.calls key) (s.join key existing)
  | begin {key : String} (h : s.inflight.get? key = none) : Moves (.calls key) (s.begin key)
  | register {frame : Frame} {rest : List Frame} {now : ℕ} (h : s.stack = frame :: rest) :
      Moves (.returns now) (s.register frame rest now)
  | abandon {frame : Frame} {rest : List Frame} {error : ε} (h : s.stack = frame :: rest) :
      Moves (.throws error) (s.abandon frame rest error)
  | settle {execution : ExecutionId} {outcome : Except ε α} {x : Execution (Except ε α)}
      (h : s.executions[execution]? = some x) (hphase : x.phase = .pending) :
      Moves (.settles execution outcome) (s.enterPhase execution x (.settled outcome))
  | finalize {execution : ExecutionId} {outcome : Except ε α} {x : Execution (Except ε α)}
      (hstack : s.stack = []) (h : s.executions[execution]? = some x)
      (hphase : x.phase = .settled outcome) :
      Moves (.finalizes execution)
        { s.enterPhase execution x (.finalized outcome) with inflight := s.inflight.delete x.key }
  | deliver {execution : ExecutionId} {outcome : Except ε α} {x : Execution (Except ε α)}
      (hstack : s.stack = []) (h : s.executions[execution]? = some x)
      (hphase : x.phase = .finalized outcome) :
      Moves (.delivers execution) (s.enterPhase execution x (.delivered outcome))
  | resume {c : CallerId} {caller : Caller α ε} {execution : ExecutionId} {wasCoalesced : Bool}
      {outcome : Except ε α} {x : Execution (Except ε α)} (hstack : s.stack = [])
      (h : s.callers[c]? = some caller) (hsettled : caller.settled = none)
      (hpart : caller.part.awaited? = some (execution, wasCoalesced))
      (hx : s.executions[execution]? = some x) (hphase : x.phase = .delivered outcome) :
      Moves (.resumes c) (s.answer c (outcome.map fun result => (result, wasCoalesced)))

variable {s} {t : State α ε} {event : Event α ε}

theorem moves_of_step (h : s.step event = some t) : s.Moves event t := by
  cases event with
  | calls key =>
      simp only [step] at h
      split at h
      next existing hexisting =>
        obtain rfl := Option.some.inj h
        exact .join hexisting
      next hnone =>
        obtain rfl := Option.some.inj h
        exact .begin hnone
  | returns now =>
      simp only [step] at h
      split at h
      next frame rest hstack =>
        obtain rfl := Option.some.inj h
        exact .register hstack
      · cases h
  | throws error =>
      simp only [step] at h
      split at h
      next frame rest hstack =>
        obtain rfl := Option.some.inj h
        exact .abandon hstack
      · cases h
  | settles execution outcome =>
      simp only [step] at h
      split at h
      next key owner hx =>
        obtain rfl := Option.some.inj h
        exact .settle hx rfl
      · cases h
  | finalizes execution =>
      simp only [step] at h
      split at h
      next key owner outcome hstack hx =>
        obtain rfl := Option.some.inj h
        exact .finalize hstack hx rfl
      · cases h
  | delivers execution =>
      simp only [step] at h
      split at h
      next key owner outcome hstack hx =>
        obtain rfl := Option.some.inj h
        exact .deliver hstack hx rfl
      · cases h
  | resumes caller =>
      simp only [step] at h
      split at h
      next key part hstack hcaller =>
        split at h
        next execution wasCoalesced hpart =>
          split at h
          next key' owner outcome hx =>
            obtain rfl := Option.some.inj h
            exact .resume hstack hcaller rfl hpart hx rfl
          · cases h
        · cases h
      · cases h

section Executions

-- an execution keeps its key and owner, and its outcome once it has one
def Later (x y : Execution (Except ε α)) : Prop :=
  y.key = x.key ∧ y.owner = x.owner ∧
    ∀ outcome, x.phase.outcome? = some outcome → y.phase.outcome? = some outcome

theorem Later.refl (x : Execution (Except ε α)) : Later x x := ⟨rfl, rfl, fun _ h => h⟩

theorem getElem?_enterPhase {execution : ExecutionId} {x : Execution (Except ε α)}
    (h : s.executions[execution]? = some x) (phase : Phase (Except ε α)) (e : ExecutionId) :
    (s.enterPhase execution x phase).executions[e]? =
      if execution = e then some { x with phase := phase } else s.executions[e]? := by
  have hlt := (List.getElem?_eq_some_iff.mp h).1
  simp only [enterPhase, List.getElem?_set, hlt, if_true]

theorem later_enterPhase {execution e : ExecutionId} {x y : Execution (Except ε α)}
    {phase : Phase (Except ε α)} (h : s.executions[execution]? = some x)
    (hphase : ∀ outcome, x.phase.outcome? = some outcome → phase.outcome? = some outcome)
    (hy : s.executions[e]? = some y) :
    ∃ y', (s.enterPhase execution x phase).executions[e]? = some y' ∧ Later y y' := by
  rw [getElem?_enterPhase h]
  split
  next heq =>
    subst heq
    obtain rfl := Option.some.inj (h.symm.trans hy)
    exact ⟨_, rfl, rfl, rfl, hphase⟩
  next => exact ⟨y, hy, .refl y⟩

theorem later_of_moves (h : s.Moves event t) {e : ExecutionId} {x : Execution (Except ε α)}
    (hx : s.executions[e]? = some x) : ∃ y, t.executions[e]? = some y ∧ Later x y := by
  cases h with
  | join h => exact ⟨x, hx, .refl x⟩
  | begin h => exact ⟨x, hx, .refl x⟩
  | register h =>
      have hlt := (List.getElem?_eq_some_iff.mp hx).1
      exact ⟨x, (List.getElem?_append_left hlt).trans hx, .refl x⟩
  | abandon h => exact ⟨x, hx, .refl x⟩
  | settle h hphase =>
      apply later_enterPhase h _ hx
      intro outcome houtcome
      rw [hphase] at houtcome
      cases houtcome
  | finalize hstack h hphase =>
      apply later_enterPhase h _ hx
      intro outcome houtcome
      rw [hphase] at houtcome
      exact houtcome
  | deliver hstack h hphase =>
      apply later_enterPhase h _ hx
      intro outcome houtcome
      rw [hphase] at houtcome
      exact houtcome
  | resume => exact ⟨x, hx, .refl x⟩

theorem outcome?_of_moves (h : s.Moves event t) {e : ExecutionId} {outcome : Except ε α}
    (houtcome : s.outcome? e = some outcome) : t.outcome? e = some outcome := by
  obtain ⟨x, hx, hphase⟩ := Option.bind_eq_some_iff.mp houtcome
  obtain ⟨y, hy, -, -, hlater⟩ := later_of_moves h hx
  exact Option.bind_eq_some_iff.mpr ⟨y, hy, hlater outcome hphase⟩

end Executions

section Registry

variable (s) in
def Holds (key : String) (e : ExecutionId) : Prop :=
  ∃ x, s.executions[e]? = some x ∧ x.key = key ∧ x.phase.held = true

variable (s) in
-- the map leads from each key to the one execution of it whose callback has not run
structure Mapped : Prop where
  registered : ∀ key e, s.registered? key = some e ↔ s.Holds key e
  distinct : (s.stack.map Frame.key).Nodup
  unheld : ∀ frame ∈ s.stack, s.registered? frame.key = none

theorem registered?_join {key : String} {existing : InflightEntry}
    (h : s.inflight.get? key = some existing) (key' : String) :
    (s.join key existing).registered? key' = s.registered? key' := by
  simp only [registered?, join, OrderedMap.get?_set]
  split
  next heq =>
    subst heq
    rw [h]
    rfl
  next => rfl

theorem registered?_register (frame : Frame) (rest : List Frame) (now : ℕ) (key : String) :
    (s.register frame rest now).registered? key =
      if frame.key = key then some s.executions.length else s.registered? key := by
  simp only [registered?, register, OrderedMap.get?_set]
  split
  · rfl
  · rfl

theorem holds_enterPhase {execution e : ExecutionId} {x : Execution (Except ε α)}
    {phase : Phase (Except ε α)} {key : String} (h : s.executions[execution]? = some x) :
    (s.enterPhase execution x phase).Holds key e ↔
      if execution = e then x.key = key ∧ phase.held = true else s.Holds key e := by
  unfold Holds
  rw [getElem?_enterPhase h]
  split
  next => simp only [Option.some.injEq, exists_eq_left']
  next => rfl

theorem Mapped.enterPhase (hs : s.Mapped) {execution : ExecutionId} {x : Execution (Except ε α)}
    {phase : Phase (Except ε α)} (h : s.executions[execution]? = some x)
    (hheld : phase.held = x.phase.held) : (s.enterPhase execution x phase).Mapped where
  registered := by
    intro key e
    rw [holds_enterPhase h]
    refine (hs.registered key e).trans ?_
    split
    next heq =>
      subst heq
      unfold Holds
      simp only [h, Option.some.injEq, exists_eq_left', hheld]
    next => rfl
  distinct := hs.distinct
  unheld := hs.unheld

theorem Mapped.finalize (hs : s.Mapped) {execution : ExecutionId} {x : Execution (Except ε α)}
    {phase : Phase (Except ε α)} (h : s.executions[execution]? = some x)
    (hheld : x.phase.held = true) (hphase : phase.held = false) :
    Mapped { s.enterPhase execution x phase with inflight := s.inflight.delete x.key } := by
  have hregistered : ∀ key, State.registered?
      { s.enterPhase execution x phase with inflight := s.inflight.delete x.key } key =
        if x.key = key then none else s.registered? key := by
    intro key
    simp only [registered?, OrderedMap.get?_delete]
    split
    · rfl
    · rfl
  constructor
  · intro key e
    rw [hregistered]
    refine Iff.trans ?_ (holds_enterPhase h).symm
    by_cases hkey : x.key = key
    · rw [if_pos hkey]
      refine iff_of_false (fun h => by cases h) ?_
      split
      · rw [hphase]
        exact fun h => Bool.false_ne_true h.2
      next hne =>
        intro hother
        have hmine := (hs.registered key execution).mpr ⟨x, h, hkey, hheld⟩
        rw [(hs.registered key e).mpr hother] at hmine
        exact hne (Option.some.inj hmine).symm
    · rw [if_neg hkey]
      refine (hs.registered key e).trans ?_
      split
      next heq =>
        subst heq
        refine iff_of_false ?_ fun h => hkey h.1
        rintro ⟨y, hy, hkey', -⟩
        obtain rfl := Option.some.inj (h.symm.trans hy)
        exact hkey hkey'
      next => rfl
  · exact hs.distinct
  · intro frame hframe
    rw [hregistered]
    split
    · rfl
    · exact hs.unheld frame hframe

theorem Mapped.register (hs : s.Mapped) {frame : Frame} {rest : List Frame} (now : ℕ)
    (hstack : s.stack = frame :: rest) : (s.register frame rest now).Mapped := by
  have hdistinct := hs.distinct
  have hunheld := hs.unheld
  rw [hstack, List.map_cons, List.nodup_cons] at hdistinct
  rw [hstack, List.forall_mem_cons] at hunheld
  have hnew : ∀ e key, (s.register frame rest now).Holds key e ↔
      if s.executions.length = e then frame.key = key else s.Holds key e := by
    intro e key
    unfold Holds State.register
    dsimp only
    rcases Nat.lt_trichotomy e s.executions.length with hlt | heq | hgt
    · rw [if_neg (Nat.ne_of_gt hlt), List.getElem?_append_left hlt]
    · subst heq
      rw [if_pos rfl, List.getElem?_concat_length]
      simp only [Option.some.injEq, exists_eq_left', Phase.held, and_true]
    · have hnone : s.executions[e]? = none := List.getElem?_eq_none (Nat.le_of_lt hgt)
      have hnone' : (s.executions ++
          [(⟨frame.key, frame.caller, .pending⟩ : Execution (Except ε α))])[e]? = none := by
        apply List.getElem?_eq_none
        rw [List.length_append]
        exact hgt
      rw [if_neg (Nat.ne_of_lt hgt), hnone, hnone']
  constructor
  · intro key e
    rw [registered?_register, hnew]
    by_cases hkey : frame.key = key
    · rw [if_pos hkey]
      subst hkey
      split
      next heq => exact iff_of_true (congrArg some heq) rfl
      next hne =>
        refine iff_of_false (fun h => hne (Option.some.inj h)) fun hholds => ?_
        have hmine := (hs.registered frame.key e).mpr hholds
        rw [hunheld.1] at hmine
        cases hmine
    · rw [if_neg hkey]
      split
      next heq =>
        refine iff_of_false (fun h => ?_) hkey
        obtain ⟨x, hx, -⟩ := (hs.registered key e).mp h
        exact absurd (List.getElem?_eq_some_iff.mp hx).1 (heq ▸ Nat.lt_irrefl _)
      next => exact hs.registered key e
  · exact hdistinct.2
  · intro frame' hframe'
    rw [registered?_register, if_neg]
    · exact hunheld.2 frame' hframe'
    · intro heq
      exact hdistinct.1 (heq ▸ List.mem_map_of_mem hframe')

theorem mapped_of_moves (hs : s.Mapped) (hflat : s.Flat event) (h : s.Moves event t) :
    t.Mapped := by
  cases h with
  | join h =>
      constructor
      · intro key e
        rw [registered?_join h]
        exact hs.registered key e
      · exact hs.distinct
      · intro frame hframe
        rw [registered?_join h]
        exact hs.unheld frame hframe
  | begin h =>
      constructor
      · exact hs.registered
      · exact List.nodup_cons.mpr ⟨hflat, hs.distinct⟩
      · intro frame hframe
        rcases List.mem_cons.mp hframe with rfl | hframe
        · exact congrArg (Option.map InflightEntry.promise) h
        · exact hs.unheld frame hframe
  | register h => exact hs.register _ h
  | abandon h =>
      have hdistinct := hs.distinct
      have hunheld := hs.unheld
      rw [h, List.map_cons, List.nodup_cons] at hdistinct
      rw [h, List.forall_mem_cons] at hunheld
      exact ⟨hs.registered, hdistinct.2, hunheld.2⟩
  | settle h hphase => exact hs.enterPhase h (by rw [hphase]; rfl)
  | finalize hstack h hphase => exact hs.finalize h (by rw [hphase]; rfl) rfl
  | deliver hstack h hphase => exact hs.enterPhase h (by rw [hphase]; rfl)
  | resume => exact ⟨hs.registered, hs.distinct, hs.unheld⟩

theorem mapped_init : (init : State α ε).Mapped where
  registered := by
    intro key e
    refine iff_of_false (fun h => by cases h) ?_
    rintro ⟨x, hx, -⟩
    cases hx
  distinct := List.nodup_nil
  unheld := fun _ h => by cases h

theorem held_of_outcome_eq_none {phase : Phase (Except ε α)} (h : phase.outcome? = none) :
    phase.held = true := by
  cases phase with
  | pending => rfl
  | _ => cases h

-- two executions of a key are not pending together, nor is one while a factory for it is called
theorem nodup_running (hs : s.Mapped) : s.running.Nodup := by
  have hheld : ∀ e x, s.executions[e]? = some x → x.phase.outcome?.isNone = true →
      s.registered? x.key = some e := by
    intro e x hx hpending
    exact (hs.registered x.key e).mpr
      ⟨x, hx, rfl, held_of_outcome_eq_none (Option.isNone_iff_eq_none.mp hpending)⟩
  apply List.nodup_append.mpr
  refine ⟨hs.distinct, ?_, ?_⟩
  · rw [List.Nodup, List.pairwise_map, List.pairwise_filter, List.pairwise_iff_getElem]
    intro i j hi hj hlt hpending hpending' hkey
    have hfirst := hheld i _ (List.getElem?_eq_getElem hi) hpending
    have hsecond := hheld j _ (List.getElem?_eq_getElem hj) hpending'
    rw [hkey, hsecond] at hfirst
    exact Nat.ne_of_gt hlt (Option.some.inj hfirst)
  · intro key hkey key' hkey' heq
    obtain ⟨frame, hframe, rfl⟩ := List.mem_map.mp hkey
    obtain ⟨x, hx, rfl⟩ := List.mem_map.mp hkey'
    obtain ⟨hx, hpending⟩ := List.mem_filter.mp hx
    obtain ⟨e, he⟩ := List.mem_iff_getElem?.mp hx
    have hmine := hheld e x he hpending
    rw [← heq, hs.unheld frame hframe] at hmine
    cases hmine

end Registry

section Tracker

variable (s) in
-- the tracker that the gateway's pipeline runs on: a flight settles when its callback runs
structure Simulates (T : InflightTracker (Except ε α)) : Prop where
  inflight : ∀ key, T.inflight.get? key = s.registered? key
  flights : T.flights = s.executions.map fun x =>
    ⟨x.key, x.owner, if x.phase.held then none else x.phase.outcome?⟩

theorem Simulates.enterPhase {T : InflightTracker (Except ε α)} (hsim : s.Simulates T)
    {execution : ExecutionId} {x : Execution (Except ε α)} {phase : Phase (Except ε α)}
    (h : s.executions[execution]? = some x)
    (hview : (if phase.held then none else phase.outcome?) =
      if x.phase.held then none else x.phase.outcome?) :
    (s.enterPhase execution x phase).Simulates T where
  inflight := hsim.inflight
  flights := by
    rw [hsim.flights, State.enterPhase, List.map_set, hview]
    apply List.ext_getElem?
    intro e
    rw [List.getElem?_set, List.getElem?_map]
    split
    next heq =>
      subst heq
      have hlt := (List.getElem?_eq_some_iff.mp h).1
      rw [h, List.length_map, if_pos hlt]
      rfl
    next => rfl

-- registering is the tracker's entry, the callback its settlement, and the rest leaves it alone
theorem simulates_of_moves {T : InflightTracker (Except ε α)} (hm : s.Mapped)
    (hsim : s.Simulates T) (h : s.Moves event t) :
    t.Simulates T ∨ (∃ key caller, t.Simulates (T.enter key caller).1) ∨
      ∃ flight outcome, t.Simulates (T.settle flight outcome) := by
  cases h with
  | join h =>
      refine .inl ⟨fun key => ?_, hsim.flights⟩
      rw [registered?_join h]
      exact hsim.inflight key
  | begin h => exact .inl ⟨hsim.inflight, hsim.flights⟩
  | @register frame rest now hstack =>
      have hunheld := hm.unheld frame (hstack ▸ List.mem_cons_self)
      rw [← hsim.inflight] at hunheld
      have hlength : T.flights.length = s.executions.length := by
        rw [hsim.flights, List.length_map]
      refine .inr (.inl ⟨frame.key, frame.caller, ?_, ?_⟩)
      · intro key
        rw [registered?_register]
        simp only [InflightTracker.enter, hunheld, OrderedMap.get?_set, hlength, hsim.inflight]
      · simp only [InflightTracker.enter, hunheld, State.register, List.map_append, hsim.flights]
        rfl
  | abandon h => exact .inl ⟨hsim.inflight, hsim.flights⟩
  | settle h hphase =>
      refine .inl (hsim.enterPhase h ?_)
      rw [hphase]
      rfl
  | @finalize execution outcome x hstack h hphase =>
      have hflight : T.flights[execution]? = some ⟨x.key, x.owner, none⟩ := by
        rw [hsim.flights, List.getElem?_map, h, Option.map_some, hphase]
        rfl
      refine .inr (.inr ⟨execution, outcome, ?_, ?_⟩)
      · intro key
        simp only [InflightTracker.settle, hflight, OrderedMap.get?_delete, hsim.inflight,
          registered?]
        split
        · rfl
        · rfl
      · simp only [InflightTracker.settle, hflight]
        rw [hsim.flights, State.enterPhase, List.map_set]
        rfl
  | deliver hstack h hphase =>
      refine .inl (hsim.enterPhase h ?_)
      rw [hphase]
      rfl
  | resume => exact .inl ⟨hsim.inflight, hsim.flights⟩

end Tracker

end State

end Conduit.Cache.SingleFlight
