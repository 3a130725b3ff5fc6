import Conduit.Foundation.Program
import Conduit.Foundation.Run

universe u

namespace Drain

inductive Stage (ρ : Type*) where
  | release (resource : ρ)
  | drain

-- how a service stops: its stages in order; one that takes requests has a drain among them
structure Plan (ρ : Type*) where
  sequence : List (Stage ρ)
  serving : Bool
  timeout : ℕ
  drains : serving = true → Stage.drain ∈ sequence

-- a service whose requests are programs over operations that use resources; `script` is what the
-- world answers to the operations of a request while their resources are there
structure Service (Op : Type u) (Ans : Op → Type u) (ε α : Type u) (ι ρ : Type*) where
  handler : ι → Program Op Ans ε α
  script : ι → ℕ → (o : Op) → Ans o
  uses : Op → List ρ

-- `early` says that the request came in before the stop
structure Job (Op : Type u) (Ans : Op → Type u) (ε α : Type u) (ι : Type*) where
  input : ι
  early : Bool
  since : ℕ
  count : ℕ
  rest : Program Op Ans ε α

structure Completed (ε α : Type u) (ι : Type*) where
  input : ι
  early : Bool
  since : ℕ
  finishedAt : ℕ
  result : Except ε α

inductive Act (Op : Type u) (Ans : Op → Type u) (ι : Type*) where
  | tick
  | accept (input : ι)
  | answer (index : ℕ) (broken : (o : Op) → Ans o)
  | finish (index : ℕ)
  | stop
  | advance

variable {Op : Type u} {Ans : Op → Type u} {ε α : Type u} {ι ρ : Type*}

structure State (Op : Type u) (Ans : Op → Type u) (ε α : Type u) (ι ρ : Type*) where
  now : ℕ
  calledAt : Option ℕ
  todo : List (Stage ρ)
  drainedFrom : Option ℕ
  serving : Bool
  released : List ρ
  jobs : List (Job Op Ans ε α ι)
  completed : List (Completed ε α ι)

def init (P : Plan ρ) : State Op Ans ε α ι ρ where
  now := 0
  calledAt := none
  todo := []
  drainedFrom := none
  serving := P.serving
  released := []
  jobs := []
  completed := []

section Steps

variable [DecidableEq ρ] (P : Plan ρ) (S : Service Op Ans ε α ι ρ)

def spawn (s : State Op Ans ε α ι ρ) (input : ι) : Job Op Ans ε α ι where
  input := input
  early := s.calledAt.isNone
  since := s.now
  count := 0
  rest := S.handler input

-- an operation whose resource is gone is answered as the environment likes
def respond (s : State Op Ans ε α ι ρ) (job : Job Op Ans ε α ι) (broken : (o : Op) → Ans o)
    (o : Op) : Ans o :=
  if (S.uses o).all fun resource => resource ∉ s.released then S.script job.input job.count o
  else broken o

def answerJob (s : State Op Ans ε α ι ρ) (job : Job Op Ans ε α ι) (broken : (o : Op) → Ans o) :
    Option (Job Op Ans ε α ι) :=
  match job.rest with
  | .op o next =>
      some { job with count := job.count + 1, rest := next (respond S s job broken o) }
  | .pure _ => none
  | .exit _ => none

def resultOf (job : Job Op Ans ε α ι) : Option (Except ε α) :=
  match job.rest with
  | .op _ _ => none
  | .pure a => some (.ok a)
  | .exit e => some (.error e)

def complete (s : State Op Ans ε α ι ρ) (job : Job Op Ans ε α ι) (result : Except ε α) :
    Completed ε α ι where
  input := job.input
  early := job.early
  since := job.since
  finishedAt := s.now
  result := result

-- the next stage of the stop; a drain ends when nothing is handled any more or the time is up
def advance (s : State Op Ans ε α ι ρ) : Option (State Op Ans ε α ι ρ) :=
  match s.todo with
  | [] => none
  | .release resource :: rest => some { s with released := resource :: s.released, todo := rest }
  | .drain :: rest =>
      match s.drainedFrom with
      | none => some { s with drainedFrom := some s.now }
      | some start =>
          if s.jobs.isEmpty then some { s with todo := rest, serving := false }
          else if P.timeout ≤ s.now - start then some { s with todo := rest }
          else none

def step (s : State Op Ans ε α ι ρ) : Act Op Ans ι → Option (State Op Ans ε α ι ρ)
  | .tick => some { s with now := s.now + 1 }
  | .accept input => if s.serving then some { s with jobs := s.jobs ++ [spawn S s input] } else none
  | .answer index broken =>
      s.jobs[index]?.bind fun job =>
        (answerJob S s job broken).map fun job => { s with jobs := s.jobs.set index job }
  | .finish index =>
      s.jobs[index]?.bind fun job => (resultOf job).map fun result =>
        { s with
          jobs := s.jobs.eraseIdx index
          completed := complete s job result :: s.completed }
  | .stop =>
      if s.calledAt.isNone then some { s with calledAt := some s.now, todo := P.sequence } else none
  | .advance => advance P s

end Steps

-- the time for the drain has passed since the stop
def Overdue (P : Plan ρ) (s : State Op Ans ε α ι ρ) : Prop :=
  ∃ called, s.calledAt = some called ∧ P.timeout ≤ s.now - called

def Quiet (P : Plan ρ) (s : State Op Ans ε α ι ρ) : Prop := s.jobs = [] ∨ Overdue P s

-- a release meets no request under way
def SafeRelease (P : Plan ρ) (s : State Op Ans ε α ι ρ) (a : Act Op Ans ι) : Prop :=
  ∀ resource rest, a = .advance → s.todo = .release resource :: rest → Quiet P s

-- the same for the releases that come before the drain
def QuietBeforeDrain (P : Plan ρ) (s : State Op Ans ε α ι ρ) (a : Act Op Ans ι) : Prop :=
  ∀ resource rest, a = .advance → s.todo = .release resource :: rest → Stage.drain ∈ rest → Quiet P s

section Answers

-- what a request is answered when nothing is taken away from it
def settle (script : ℕ → (o : Op) → Ans o) : ℕ → Program Op Ans ε α → Except ε α
  | _, .pure a => .ok a
  | _, .exit e => .error e
  | count, .op o next => settle script (count + 1) (next (script count o))

variable (S : Service Op Ans ε α ι ρ)

def undisturbed (input : ι) : Except ε α := settle (S.script input) 0 (S.handler input)

-- a request that came in before the stop and took less than the time for the drain
def Answered (P : Plan ρ) (s : State Op Ans ε α ι ρ) : Prop :=
  ∀ c ∈ s.completed, c.early = true → c.finishedAt - c.since < P.timeout →
    c.result = undisturbed S c.input

end Answers

section Invariant

variable {P : Plan ρ} {S : Service Op Ans ε α ι ρ} {s s' : State Op Ans ε α ι ρ}

structure Inv (P : Plan ρ) (S : Service Op Ans ε α ι ρ) (s : State Op Ans ε α ι ρ) : Prop where
  idle : s.calledAt = none → s.todo = [] ∧ s.released = []
  past : ∀ called, s.calledAt = some called → called ≤ s.now
  started : ∀ start, s.drainedFrom = some start → ∃ called, s.calledAt = some called ∧ called ≤ start
  serves : s.serving = true → P.serving = true
  closed : s.serving = false → s.jobs = []
  drained : s.calledAt ≠ none → Stage.drain ∉ s.todo → s.serving = false ∨ Overdue P s
  since : ∀ j ∈ s.jobs, j.early = true → j.since ≤ s.calledAt.getD s.now
  kept : ∀ j ∈ s.jobs, j.early = true → Overdue P s ∨
    s.released = [] ∧ settle (S.script j.input) j.count j.rest = undisturbed S j.input
  answered : Answered S P s

theorem inv_init : Inv P S (init P) where
  idle _ := ⟨rfl, rfl⟩
  past _ h := by cases h
  started _ h := by cases h
  serves h := h
  closed _ := rfl
  drained h := absurd rfl h
  since _ h := by cases h
  kept _ h := by cases h
  answered _ h := by cases h

theorem Inv.quiet_of_drained (h : Inv P S s) (hcalled : s.calledAt ≠ none)
    (hdrain : Stage.drain ∉ s.todo) : Quiet P s :=
  (h.drained hcalled hdrain).imp h.closed id

theorem Inv.called_of_todo (h : Inv P S s) (htodo : s.todo ≠ []) : s.calledAt ≠ none :=
  fun hnone => htodo (h.idle hnone).1

theorem Inv.safeRelease (h : Inv P S s) {a : Act Op Ans ι} (hquiet : QuietBeforeDrain P s a) :
    SafeRelease P s a := by
  intro resource rest ha htodo
  by_cases hdrain : Stage.drain ∈ rest
  · exact hquiet resource rest ha htodo hdrain
  · refine h.quiet_of_drained (h.called_of_todo (by simp [htodo])) ?_
    simp [htodo, hdrain]

theorem Overdue.of_now_le (h : Overdue P s) (hcalled : s'.calledAt = s.calledAt)
    (hnow : s.now ≤ s'.now) : Overdue P s' := by
  obtain ⟨called, hs, hle⟩ := h
  exact ⟨called, hcalled.trans hs, le_trans hle (Nat.sub_le_sub_right hnow called)⟩

theorem Inv.tick (h : Inv P S s) : Inv P S { s with now := s.now + 1 } := by
  have hover : ∀ {s : State Op Ans ε α ι ρ}, Overdue P s → Overdue P { s with now := s.now + 1 } :=
    fun h => h.of_now_le rfl (Nat.le_succ _)
  refine ⟨h.idle, fun called hcalled => Nat.le_succ_of_le (h.past called hcalled), h.started,
    h.serves, h.closed, fun hcalled hdrain => (h.drained hcalled hdrain).imp id hover, ?_,
    fun j hj hearly => (h.kept j hj hearly).imp hover id, h.answered⟩
  intro j hj hearly
  have hsince := h.since j hj hearly
  dsimp only
  cases hcalled : s.calledAt with
  | none =>
      rw [hcalled] at hsince
      exact Nat.le_succ_of_le hsince
  | some called =>
      rw [hcalled] at hsince
      exact hsince

theorem Inv.accept (h : Inv P S s) (hserving : s.serving = true) (input : ι) :
    Inv P S { s with jobs := s.jobs ++ [spawn S s input] } := by
  refine ⟨h.idle, h.past, h.started, h.serves,
    fun hclosed => absurd (hserving.symm.trans hclosed) (by decide), h.drained, ?_, ?_, h.answered⟩
  · intro j hj hearly
    rcases List.mem_append.mp hj with hj | hj
    · exact h.since j hj hearly
    · obtain rfl := List.mem_singleton.mp hj
      dsimp only
      rw [Option.isNone_iff_eq_none.mp hearly]
      exact le_rfl
  · intro j hj hearly
    rcases List.mem_append.mp hj with hj | hj
    · exact h.kept j hj hearly
    · obtain rfl := List.mem_singleton.mp hj
      exact .inr ⟨(h.idle (Option.isNone_iff_eq_none.mp hearly)).2, rfl⟩

theorem settle_of_resultOf {job : Job Op Ans ε α ι} {result : Except ε α}
    (h : resultOf job = some result) : settle (S.script job.input) job.count job.rest = result := by
  obtain ⟨input, early, since, count, rest⟩ := job
  cases rest <;> cases h <;> rfl

theorem Inv.finish (h : Inv P S s) {index : ℕ} {job : Job Op Ans ε α ι} {result : Except ε α}
    (hjob : s.jobs[index]? = some job) (hresult : resultOf job = some result) :
    Inv P S { s with
      jobs := s.jobs.eraseIdx index
      completed := complete s job result :: s.completed } := by
  have hmem := List.mem_of_getElem? hjob
  have herase : ∀ j ∈ s.jobs.eraseIdx index, j ∈ s.jobs := fun j hj => List.mem_of_mem_eraseIdx hj
  refine ⟨h.idle, h.past, h.started, h.serves, fun hclosed => ?_, h.drained,
    fun j hj => h.since j (herase j hj), fun j hj => h.kept j (herase j hj), ?_⟩
  · rw [h.closed hclosed] at hmem
    cases hmem
  · intro c hc hearly htime
    rcases List.mem_cons.mp hc with rfl | hc
    · rcases h.kept job hmem hearly with ⟨called, hcalled, hle⟩ | ⟨-, hsettle⟩
      · have hsince := h.since job hmem hearly
        rw [hcalled, Option.getD_some] at hsince
        have hpast := h.past called hcalled
        dsimp only [complete] at htime
        omega
      · exact (settle_of_resultOf hresult).symm.trans hsettle
    · exact h.answered c hc hearly htime

theorem Inv.stop (h : Inv P S s) (hcalled : s.calledAt = none) :
    Inv P S { s with calledAt := some s.now, todo := P.sequence } := by
  have hnot : ¬ Overdue P s := by
    rintro ⟨called, hsome, -⟩
    rw [hcalled] at hsome
    cases hsome
  refine ⟨fun hnone => (by cases hnone), ?_, ?_, h.serves, h.closed, ?_, ?_, ?_, h.answered⟩
  · rintro _ ⟨⟩
    exact le_rfl
  · intro start hstart
    obtain ⟨called, hsome, -⟩ := h.started start hstart
    rw [hcalled] at hsome
    cases hsome
  · intro _ hdrain
    refine .inl (Bool.eq_false_iff.mpr fun hserving => ?_)
    exact hdrain (P.drains (h.serves hserving))
  · intro j hj hearly
    have hsince := h.since j hj hearly
    rw [hcalled] at hsince
    exact hsince
  · intro j hj hearly
    exact .inr ((h.kept j hj hearly).resolve_left hnot)

theorem Inv.release (h : Inv P S s) {resource : ρ} {rest : List (Stage ρ)}
    (htodo : s.todo = .release resource :: rest) (hquiet : Quiet P s) :
    Inv P S { s with released := resource :: s.released, todo := rest } := by
  have hcalled := h.called_of_todo (by simp [htodo])
  refine ⟨fun hnone => absurd hnone hcalled, h.past, h.started, h.serves, h.closed, ?_, h.since, ?_,
    h.answered⟩
  · intro _ hdrain
    exact h.drained hcalled (by simpa [htodo] using hdrain)
  · intro j hj hearly
    rcases hquiet with hnone | hover
    · dsimp only at hj
      rw [hnone] at hj
      cases hj
    · exact .inl hover

theorem Inv.advance (h : Inv P S s) (hsafe : SafeRelease P s (Act.advance : Act Op Ans ι))
    (hstep : advance P s = some s') : Inv P S s' := by
  unfold Drain.advance at hstep
  split at hstep
  next => cases hstep
  next resource rest htodo =>
    cases hstep
    exact h.release htodo (hsafe resource rest rfl htodo)
  next rest htodo =>
    have hcalled := h.called_of_todo (by simp [htodo])
    obtain ⟨called, hsome⟩ := Option.ne_none_iff_exists'.mp hcalled
    split at hstep
    next hstart =>
      cases hstep
      refine ⟨h.idle, h.past, ?_, h.serves, h.closed, h.drained, h.since, h.kept, h.answered⟩
      rintro _ ⟨⟩
      exact ⟨called, hsome, h.past called hsome⟩
    next start hstart =>
      split at hstep
      next hempty =>
        cases hstep
        have hjobs : s.jobs = [] := List.isEmpty_iff.mp hempty
        exact ⟨fun hnone => absurd hnone hcalled, h.past, h.started, fun hopen => (by cases hopen),
          fun _ => hjobs, fun _ _ => .inl rfl, h.since, h.kept, h.answered⟩
      next =>
        split at hstep
        next htime =>
          cases hstep
          obtain ⟨called', hsome', hle⟩ := h.started start hstart
          have hover : Overdue P s := ⟨called', hsome', by omega⟩
          exact ⟨fun hnone => absurd hnone hcalled, h.past, h.started, h.serves, h.closed,
            fun _ _ => .inr hover, h.since, fun j hj hearly => .inl hover, h.answered⟩
        next => cases hstep

section Step

variable [DecidableEq ρ]

theorem settle_answerJob {job job' : Job Op Ans ε α ι} {broken : (o : Op) → Ans o}
    (hreleased : s.released = []) (h : answerJob S s job broken = some job') :
    settle (S.script job'.input) job'.count job'.rest =
      settle (S.script job.input) job.count job.rest := by
  obtain ⟨input, early, since, count, rest⟩ := job
  cases rest with
  | pure a | exit e => cases h
  | op o next =>
      cases h
      have hrespond : ∀ job : Job Op Ans ε α ι,
          respond S s job broken o = S.script job.input job.count o := fun job => by
        simp [respond, hreleased]
      dsimp only
      rw [hrespond]
      rfl

theorem answerJob_fields {job job' : Job Op Ans ε α ι} {broken : (o : Op) → Ans o}
    (h : answerJob S s job broken = some job') :
    job'.input = job.input ∧ job'.early = job.early ∧ job'.since = job.since := by
  unfold answerJob at h
  split at h
  · cases h
    exact ⟨rfl, rfl, rfl⟩
  · cases h
  · cases h

theorem Inv.answer (h : Inv P S s) {index : ℕ} {job job' : Job Op Ans ε α ι}
    {broken : (o : Op) → Ans o} (hjob : s.jobs[index]? = some job)
    (hanswer : answerJob S s job broken = some job') :
    Inv P S { s with jobs := s.jobs.set index job' } := by
  have hmem := List.mem_of_getElem? hjob
  obtain ⟨hinput, hearly', hsince'⟩ := answerJob_fields hanswer
  refine ⟨h.idle, h.past, h.started, h.serves, fun hclosed => ?_, h.drained, ?_, ?_, h.answered⟩
  · rw [h.closed hclosed] at hmem
    cases hmem
  · intro j hj hearly
    rcases List.mem_or_eq_of_mem_set hj with hj | rfl
    · exact h.since j hj hearly
    · rw [hsince']
      exact h.since job hmem (hearly'.symm.trans hearly)
  · intro j hj hearly
    rcases List.mem_or_eq_of_mem_set hj with hj | rfl
    · exact h.kept j hj hearly
    · refine (h.kept job hmem (hearly'.symm.trans hearly)).imp id fun ⟨hreleased, hsettle⟩ => ?_
      exact ⟨hreleased, by rw [settle_answerJob hreleased hanswer, hsettle, hinput]⟩

theorem Inv.step (h : Inv P S s) {a : Act Op Ans ι} (hquiet : QuietBeforeDrain P s a)
    (hstep : step P S s a = some s') : Inv P S s' := by
  cases a with
  | tick =>
      cases hstep
      exact h.tick
  | accept input =>
      obtain ⟨hserving, hstep⟩ := Option.ite_none_right_eq_some.mp hstep
      cases hstep
      exact h.accept hserving input
  | answer index broken =>
      obtain ⟨job, hjob, hstep⟩ := Option.bind_eq_some_iff.mp hstep
      obtain ⟨job', hanswer, rfl⟩ := Option.map_eq_some_iff.mp hstep
      exact h.answer hjob hanswer
  | finish index =>
      obtain ⟨job, hjob, hstep⟩ := Option.bind_eq_some_iff.mp hstep
      obtain ⟨result, hresult, rfl⟩ := Option.map_eq_some_iff.mp hstep
      exact h.finish hjob hresult
  | stop =>
      obtain ⟨hcalled, hstep⟩ := Option.ite_none_right_eq_some.mp hstep
      cases hstep
      exact h.stop (Option.isNone_iff_eq_none.mp hcalled)
  | advance => exact h.advance (h.safeRelease hquiet) hstep

-- what is left to do is the end of the plan
theorem step_suffix {a : Act Op Ans ι} (h : s.todo <:+ P.sequence) (hstep : step P S s a = some s') :
    s'.todo <:+ P.sequence := by
  cases a with
  | tick =>
      cases hstep
      exact h
  | accept input =>
      obtain ⟨-, hstep⟩ := Option.ite_none_right_eq_some.mp hstep
      cases hstep
      exact h
  | answer index broken =>
      obtain ⟨job, -, hstep⟩ := Option.bind_eq_some_iff.mp hstep
      obtain ⟨job', -, rfl⟩ := Option.map_eq_some_iff.mp hstep
      exact h
  | finish index =>
      obtain ⟨job, -, hstep⟩ := Option.bind_eq_some_iff.mp hstep
      obtain ⟨result, -, rfl⟩ := Option.map_eq_some_iff.mp hstep
      exact h
  | stop =>
      obtain ⟨-, hstep⟩ := Option.ite_none_right_eq_some.mp hstep
      cases hstep
      exact List.suffix_rfl
  | advance =>
      have htail : ∀ {stage rest}, s.todo = stage :: rest → rest <:+ P.sequence := fun htodo =>
        (List.suffix_cons _ _).trans (htodo ▸ h)
      change advance P s = some s' at hstep
      unfold advance at hstep
      split at hstep
      next => cases hstep
      next htodo =>
        cases hstep
        exact htail htodo
      next htodo =>
        split at hstep
        next =>
          cases hstep
          exact h
        next =>
          split at hstep
          next =>
            cases hstep
            exact htail htodo
          next =>
            split at hstep
            next =>
              cases hstep
              exact htail htodo
            next => cases hstep

-- no release meets a request, and the early requests are answered as without the stop, in exactly
-- the runs whose releases before the drain meet none
theorem safe_stop_iff {acts : List (Act Op Ans ι)} :
    (Transition.Along (step P S) (SafeRelease P) (init P) acts ∧
      ∀ s, Transition.run (step P S) (init P) acts = some s → Answered S P s) ↔
      Transition.Along (step P S) (QuietBeforeDrain P) (init P) acts := by
  constructor
  · rintro ⟨hsafe, -⟩
    refine Transition.Along.of_invariant (step P S) (I := fun _ => True) (fun _ _ _ _ _ _ => trivial)
      ?_ trivial hsafe
    intro s a _ h resource rest ha htodo _
    exact h resource rest ha htodo
  · intro hquiet
    refine ⟨Transition.Along.of_invariant (step P S) (fun _ _ _ h hq hs => h.step hq hs)
      (fun _ _ h hq => h.safeRelease hq) inv_init hquiet, fun s hrun => ?_⟩
    exact (Transition.run_invariant (step P S) (fun _ _ _ h hq hs => Inv.step h hq hs) inv_init
      hquiet hrun).answered

end Step

end Invariant

end Drain
