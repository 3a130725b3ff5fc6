import Mathlib.Data.Option.Basic
import Mathlib.Data.List.Basic

namespace Transition

section Partial

variable {S E : Type*} (step : S → E → Option S)

def run : S → List E → Option S
  | s, [] => some s
  | s, e :: es => (step s e).bind fun s' => run s' es

@[simp] theorem run_nil (s : S) : run step s [] = some s := rfl

theorem run_cons (s : S) (e : E) (es : List E) :
    run step s (e :: es) = (step s e).bind fun s' => run step s' es := rfl

theorem run_cons_eq_some {s t : S} {e : E} {es : List E} :
    run step s (e :: es) = some t ↔ ∃ s', step s e = some s' ∧ run step s' es = some t := by
  simp [run_cons, Option.bind_eq_some_iff]

theorem run_append_eq_some {s t : S} {es fs : List E} :
    run step s (es ++ fs) = some t ↔ ∃ s', run step s es = some s' ∧ run step s' fs = some t := by
  induction es generalizing s with
  | nil => simp
  | cons e es ih =>
      simp only [List.cons_append, run_cons_eq_some, ih]
      constructor
      · rintro ⟨s', he, s'', hes, hfs⟩
        exact ⟨s'', ⟨s', he, hes⟩, hfs⟩
      · rintro ⟨s'', ⟨s', he, hes⟩, hfs⟩
        exact ⟨s', he, s'', hes, hfs⟩

def Reachable (initial : S → Prop) (s : S) : Prop :=
  ∃ s₀ es, initial s₀ ∧ run step s₀ es = some s

theorem Reachable.refl {initial : S → Prop} {s : S} (h : initial s) : Reachable step initial s :=
  ⟨s, [], h, rfl⟩

theorem Reachable.extend {initial : S → Prop} {s t : S} {es : List E}
    (h : Reachable step initial s) (hrun : run step s es = some t) :
    Reachable step initial t := by
  obtain ⟨s₀, fs, h₀, hfs⟩ := h
  exact ⟨s₀, fs ++ es, h₀, (run_append_eq_some step).mpr ⟨s, hfs, hrun⟩⟩

def Along (guard : S → E → Prop) : S → List E → Prop
  | _, [] => True
  | s, e :: es => guard s e ∧ ∀ s', step s e = some s' → Along guard s' es

theorem along_cons {guard : S → E → Prop} {s : S} {e : E} {es : List E} :
    Along step guard s (e :: es) ↔ guard s e ∧ ∀ s' ∈ step s e, Along step guard s' es :=
  Iff.rfl

instance Along.decidable {guard : S → E → Prop} [∀ s e, Decidable (guard s e)] :
    ∀ s es, Decidable (Along step guard s es)
  | _, [] => isTrue trivial
  | s, e :: es =>
      have : ∀ s', Decidable (Along step guard s' es) := fun s' => Along.decidable s' es
      decidable_of_iff (guard s e ∧ ∀ s' ∈ step s e, Along step guard s' es)
        (along_cons step).symm

theorem along_true (s : S) (es : List E) : Along step (fun _ _ => True) s es := by
  induction es generalizing s with
  | nil => trivial
  | cons e es ih => exact ⟨trivial, fun s' _ => ih s'⟩

theorem along_append {guard : S → E → Prop} {s t : S} {es fs : List E}
    (hrun : run step s es = some t) :
    Along step guard s (es ++ fs) ↔ Along step guard s es ∧ Along step guard t fs := by
  induction es generalizing s with
  | nil =>
      obtain rfl : s = t := by simpa using hrun
      simp [Along]
  | cons e es ih =>
      obtain ⟨s', he, hes⟩ := (run_cons_eq_some step).mp hrun
      simp only [List.cons_append, Along, he, Option.some.injEq, forall_eq', ih hes, and_assoc]

theorem Along.of_forall {guard : S → E → Prop} {es : List E}
    (h : ∀ e ∈ es, ∀ s, guard s e) (s : S) : Along step guard s es := by
  induction es generalizing s with
  | nil => trivial
  | cons e es ih =>
      refine ⟨h e List.mem_cons_self s, fun s' _ => ?_⟩
      exact ih (fun e' he' => h e' (List.mem_cons_of_mem _ he')) s'

theorem run_invariant {p : S → E → Prop} {I : S → Prop}
    (hstep : ∀ s e s', I s → p s e → step s e = some s' → I s')
    {s t : S} {es : List E} (hs : I s) (hguard : Along step p s es)
    (hrun : run step s es = some t) : I t := by
  induction es generalizing s with
  | nil =>
      obtain rfl : s = t := by simpa using hrun
      exact hs
  | cons e es ih =>
      obtain ⟨s', he, hes⟩ := (run_cons_eq_some step).mp hrun
      exact ih (hstep s e s' hs hguard.1 he) (hguard.2 s' he) hes

theorem Along.of_invariant {p q : S → E → Prop} {I : S → Prop}
    (hstep : ∀ s e s', I s → p s e → step s e = some s' → I s')
    (himp : ∀ s e, I s → p s e → q s e) {s : S} {es : List E} (hs : I s)
    (h : Along step p s es) : Along step q s es := by
  induction es generalizing s with
  | nil => trivial
  | cons e es ih =>
      exact ⟨himp s e hs h.1, fun s' he => ih (hstep s e s' hs h.1 he) (h.2 s' he)⟩

theorem along_congr_of_run {p q : S → E → Prop}
    (h : ∀ s e s', step s e = some s' → (p s e ↔ q s e)) {s t : S} {es : List E}
    (hrun : run step s es = some t) : Along step p s es ↔ Along step q s es := by
  induction es generalizing s with
  | nil => exact Iff.rfl
  | cons e es ih =>
      obtain ⟨s', he, hes⟩ := (run_cons_eq_some step).mp hrun
      simp only [Along, he, Option.some.injEq, forall_eq', h s e s' he, ih hes]

theorem reachable_invariant {initial I : S → Prop}
    (hinit : ∀ s, initial s → I s)
    (hstep : ∀ s e s', I s → step s e = some s' → I s')
    {s : S} (h : Reachable step initial s) : I s := by
  obtain ⟨s₀, es, h₀, hrun⟩ := h
  exact run_invariant step (p := fun _ _ => True)
    (fun s e s' hs _ he => hstep s e s' hs he) (hinit s₀ h₀) (along_true step s₀ es) hrun

end Partial

section Total

variable {S T I O : Type*}

def outputs (f : S → I → S × O) : S → List I → List O
  | _, [] => []
  | s, i :: is => (f s i).2 :: outputs f (f s i).1 is

def Throughout (f : S → I → S × O) (guard : S → I → Prop) : S → List I → Prop
  | _, [] => True
  | s, i :: is => guard s i ∧ Throughout f guard (f s i).1 is

instance Throughout.decidable {f : S → I → S × O} {guard : S → I → Prop}
    [∀ s i, Decidable (guard s i)] : ∀ s is, Decidable (Throughout f guard s is)
  | _, [] => isTrue trivial
  | s, i :: is =>
      have : Decidable (Throughout f guard (f s i).1 is) := Throughout.decidable (f s i).1 is
      inferInstanceAs (Decidable (guard s i ∧ Throughout f guard (f s i).1 is))

theorem outputs_map_eq_of_simulation {O' : Type*} {f : S → I → S × O} {g : T → I → T × O'}
    (view : O → O') {R : S → T → Prop} {p : S → I → Prop} {q : T → I → Prop}
    (sim : ∀ s t i, R s t → p s i → q t i → view (f s i).2 = (g t i).2 ∧ R (f s i).1 (g t i).1)
    {s : S} {t : T} {is : List I} (h : R s t) (hp : Throughout f p s is)
    (hq : Throughout g q t is) : (outputs f s is).map view = outputs g t is := by
  induction is generalizing s t with
  | nil => rfl
  | cons i is ih =>
      have hi := sim s t i h hp.1 hq.1
      simp only [outputs, List.map_cons, hi.1, ih hi.2 hp.2 hq.2]

theorem throughout_true (f : S → I → S × O) (s : S) (is : List I) :
    Throughout f (fun _ _ => True) s is := by
  induction is generalizing s with
  | nil => trivial
  | cons i is ih => exact ⟨trivial, ih _⟩

theorem throughout_append {f : S → I → S × O} {guard : S → I → Prop} {s : S} {is js : List I} :
    Throughout f guard s (is ++ js) ↔
      Throughout f guard s is ∧ Throughout f guard (is.foldl (fun s i => (f s i).1) s) js := by
  induction is generalizing s with
  | nil => simp [Throughout]
  | cons i is ih =>
      rw [List.cons_append, List.foldl_cons, Throughout, Throughout, ih, and_assoc]

theorem Throughout.and {f : S → I → S × O} {p q : S → I → Prop} {s : S} {is : List I}
    (hp : Throughout f p s is) (hq : Throughout f q s is) :
    Throughout f (fun s i => p s i ∧ q s i) s is := by
  induction is generalizing s with
  | nil => trivial
  | cons i is ih => exact ⟨⟨hp.1, hq.1⟩, ih hp.2 hq.2⟩

end Total

end Transition
