import Mathlib.Data.List.Infix
import Mathlib.Data.List.Basic

universe u

inductive Program (Op : Type u) (Ans : Op → Type u) (ε α : Type u) : Type u where
  | pure (a : α)
  | exit (e : ε)
  | op (o : Op) (next : Ans o → Program Op Ans ε α)

namespace Program

variable {Op : Type u} {Ans : Op → Type u} {ε α β : Type u}

def bind : Program Op Ans ε α → (α → Program Op Ans ε β) → Program Op Ans ε β
  | .pure a, f => f a
  | .exit e, _ => .exit e
  | .op o next, f => .op o fun a => (next a).bind f

instance : Monad (Program Op Ans ε) where
  pure := .pure
  bind := bind

def ask (o : Op) : Program Op Ans ε (Ans o) := .op o .pure

@[simp] theorem pure_bind (a : α) (f : α → Program Op Ans ε β) :
    (Pure.pure a : Program Op Ans ε α) >>= f = f a := rfl

@[simp] theorem exit_bind (e : ε) (f : α → Program Op Ans ε β) :
    (exit e : Program Op Ans ε α) >>= f = exit e := rfl

@[simp] theorem op_bind (o : Op) (next : Ans o → Program Op Ans ε α)
    (f : α → Program Op Ans ε β) : op o next >>= f = op o fun a => next a >>= f := rfl

@[simp] theorem ask_bind (o : Op) (f : Ans o → Program Op Ans ε β) :
    (ask o : Program Op Ans ε (Ans o)) >>= f = op o f := rfl

def result? : Program Op Ans α α → Option α
  | .pure a => some a
  | .exit a => some a
  | .op _ _ => none

abbrev Event (Op : Type u) (Ans : Op → Type u) := (o : Op) × Ans o

abbrev History (Op : Type u) (Ans : Op → Type u) := List (Event Op Ans)

inductive Steps : Program Op Ans ε α → History Op Ans → Program Op Ans ε α → Prop where
  | refl (p : Program Op Ans ε α) : Steps p [] p
  | answer {o : Op} {next : Ans o → Program Op Ans ε α} (a : Ans o) {tr : History Op Ans}
      {q : Program Op Ans ε α} (rest : Steps (next a) tr q) : Steps (.op o next) (⟨o, a⟩ :: tr) q

theorem Steps.snoc {p : Program Op Ans ε α} {tr : History Op Ans} {o : Op}
    {next : Ans o → Program Op Ans ε α} (h : Steps p tr (.op o next)) (a : Ans o) :
    Steps p (tr ++ [⟨o, a⟩]) (next a) := by
  generalize hq : Program.op o next = q at h
  induction h with
  | refl p =>
      subst hq
      exact .answer a (.refl _)
  | answer b rest ih => exact .answer b (ih hq)

theorem Steps.of_exit {e : ε} {tr : History Op Ans} {q : Program Op Ans ε α}
    (h : Steps (.exit e) tr q) : tr = [] ∧ q = .exit e := by
  cases h
  exact ⟨rfl, rfl⟩

theorem Steps.bind_cases {p : Program Op Ans ε α} {f : α → Program Op Ans ε β}
    {tr : History Op Ans} {q : Program Op Ans ε β} (h : Steps (p >>= f) tr q) :
    (∃ p', Steps p tr p' ∧ q = p' >>= f ∧ ∀ a, p' ≠ .pure a) ∨
      ∃ a tr₁ tr₂, tr = tr₁ ++ tr₂ ∧ Steps p tr₁ (.pure a) ∧ Steps (f a) tr₂ q := by
  induction p generalizing tr with
  | pure a => exact .inr ⟨a, [], tr, rfl, .refl _, h⟩
  | exit e =>
      obtain ⟨rfl, rfl⟩ := Steps.of_exit h
      exact .inl ⟨.exit e, .refl _, rfl, by simp⟩
  | op o next ih =>
      cases h with
      | refl => exact .inl ⟨.op o next, .refl _, rfl, by simp⟩
      | answer b rest =>
          rcases ih b rest with ⟨p', hp', rfl, hne⟩ | ⟨a, tr₁, tr₂, rfl, hp, hf⟩
          · exact .inl ⟨p', .answer b hp', rfl, hne⟩
          · exact .inr ⟨a, ⟨o, b⟩ :: tr₁, tr₂, rfl, .answer b hp, hf⟩

theorem Steps.bind {p : Program Op Ans ε α} {f : α → Program Op Ans ε β} {a : α}
    {tr₁ tr₂ : History Op Ans} {q : Program Op Ans ε β} (hp : Steps p tr₁ (.pure a))
    (hf : Steps (f a) tr₂ q) : Steps (p >>= f) (tr₁ ++ tr₂) q := by
  generalize hpure : (Program.pure a : Program Op Ans ε α) = p' at hp
  induction hp with
  | refl =>
      subst hpure
      exact hf
  | answer b rest ih => exact .answer b (ih hpure)

theorem Steps.rest_of_bind {p : Program Op Ans ε α} {f : α → Program Op Ans ε β} {a : α}
    {tr₁ tr₂ : History Op Ans} {q : Program Op Ans ε β} (hp : Steps p tr₁ (.pure a))
    (h : Steps (p >>= f) (tr₁ ++ tr₂) q) : Steps (f a) tr₂ q := by
  generalize hpure : (Program.pure a : Program Op Ans ε α) = p' at hp
  induction hp with
  | refl =>
      subst hpure
      exact h
  | answer b rest ih =>
      cases h with
      | answer _ hrest => exact ih hrest hpure

-- the first steps of a program whose operations are all answered by one function
def drive (answer : (o : Op) → Ans o) :
    ℕ → Program Op Ans ε α → History Op Ans × Program Op Ans ε α
  | 0, p => ([], p)
  | n + 1, .op o next =>
      let rest := drive answer n (next (answer o))
      (⟨o, answer o⟩ :: rest.1, rest.2)
  | _ + 1, p => ([], p)

theorem drive_steps (answer : (o : Op) → Ans o) (n : ℕ) (p : Program Op Ans ε α) :
    Steps p (drive answer n p).1 (drive answer n p).2 := by
  induction n generalizing p with
  | zero => exact .refl p
  | succ n ih =>
      cases p with
      | pure a => exact .refl _
      | exit e => exact .refl _
      | op o next => exact .answer (answer o) (ih _)

theorem answer_of_mem_drive {answer : (o : Op) → Ans o} {n : ℕ} {p : Program Op Ans ε α}
    {e : Event Op Ans} (h : e ∈ (drive answer n p).1) : e.2 = answer e.1 := by
  induction n generalizing p with
  | zero => cases h
  | succ n ih =>
      cases p with
      | pure a => cases h
      | exit e => cases h
      | op o next =>
          rcases List.mem_cons.mp h with rfl | hrest
          · rfl
          · exact ih hrest

section Serving

variable {σ : Type u} (serve : σ → (o : Op) → σ × Ans o)

-- a program that cannot be left early, on its own against a service that keeps a state
def run : σ → Program Op Ans PEmpty α → σ × α
  | s, .pure a => (s, a)
  | s, .op o next => run (serve s o).1 (next (serve s o).2)

theorem run_bind (s : σ) (p : Program Op Ans PEmpty α) (f : α → Program Op Ans PEmpty β) :
    run serve s (p >>= f) = run serve (run serve s p).1 (f (run serve s p).2) := by
  induction p generalizing s with
  | pure a => rfl
  | exit e => cases e
  | op o next ih => exact ih _ _

-- a program against such a service, left early or not
def finish : σ → Program Op Ans ε α → σ × Except ε α
  | s, .pure a => (s, .ok a)
  | s, .exit e => (s, .error e)
  | s, .op o next => finish (serve s o).1 (next (serve s o).2)

@[simp] theorem finish_pure (s : σ) (a : α) :
    finish serve s (Pure.pure a : Program Op Ans ε α) = (s, .ok a) := rfl

@[simp] theorem finish_exit (s : σ) (e : ε) :
    finish serve s (exit e : Program Op Ans ε α) = (s, .error e) := rfl

@[simp] theorem finish_op (s : σ) (o : Op) (next : Ans o → Program Op Ans ε α) :
    finish serve s (op o next) = finish serve (serve s o).1 (next (serve s o).2) := rfl

theorem finish_bind (s : σ) (p : Program Op Ans ε α) (f : α → Program Op Ans ε β) :
    finish serve s (p >>= f) =
      match finish serve s p with
      | (s', .ok a) => finish serve s' (f a)
      | (s', .error e) => (s', .error e) := by
  induction p generalizing s with
  | pure a => rfl
  | exit e => rfl
  | op o next ih => exact ih _ _

theorem finish_bind_of_ok {s s' : σ} {p : Program Op Ans ε α} {a : α}
    (h : finish serve s p = (s', .ok a)) (f : α → Program Op Ans ε β) :
    finish serve s (p >>= f) = finish serve s' (f a) := by
  rw [finish_bind, h]

theorem finish_bind_ok {s : σ} {p : Program Op Ans ε α} {f : α → Program Op Ans ε β} {b : β}
    (h : (finish serve s (p >>= f)).2 = .ok b) :
    ∃ s' a, finish serve s p = (s', .ok a) ∧ (finish serve s' (f a)).2 = .ok b := by
  rw [finish_bind] at h
  cases hp : finish serve s p with
  | mk s' out =>
      rw [hp] at h
      cases out with
      | ok a => exact ⟨s', a, rfl, h⟩
      | error e => cases h

theorem finish_preserves {I : σ → Prop} (hserve : ∀ s o, I s → I (serve s o).1) {s : σ}
    (h : I s) (p : Program Op Ans ε α) : I (finish serve s p).1 := by
  induction p generalizing s with
  | pure a => exact h
  | exit e => exact h
  | op o next ih => exact ih _ (hserve s o h)

def Avoids (bad : Op → Prop) : Program Op Ans ε α → Prop
  | .pure _ => True
  | .exit _ => True
  | .op o next => ¬ bad o ∧ ∀ a, Avoids bad (next a)

variable {bad : Op → Prop}

theorem avoids_pure (a : α) : Avoids bad (Pure.pure a : Program Op Ans ε α) := trivial

theorem avoids_exit (e : ε) : Avoids bad (exit e : Program Op Ans ε α) := trivial

theorem avoids_ask {o : Op} (h : ¬ bad o) : Avoids bad (ask o : Program Op Ans ε (Ans o)) :=
  ⟨h, fun _ => trivial⟩

theorem Avoids.bind {p : Program Op Ans ε α} {f : α → Program Op Ans ε β} (hp : Avoids bad p)
    (hf : ∀ a, Avoids bad (f a)) : Avoids bad (p >>= f) := by
  induction p with
  | pure a => exact hf a
  | exit e => trivial
  | op o next ih => exact ⟨hp.1, fun a => ih a (hp.2 a)⟩

theorem Avoids.ask_bind {o : Op} {f : Ans o → Program Op Ans ε β} (ho : ¬ bad o)
    (hf : ∀ a, Avoids bad (f a)) : Avoids bad (ask o >>= f) :=
  ⟨ho, hf⟩

theorem Avoids.of_steps {p q : Program Op Ans ε α} {tr : History Op Ans} (hp : Avoids bad p)
    (h : Steps p tr q) : (∀ e ∈ tr, ¬ bad e.1) ∧ Avoids bad q := by
  induction h with
  | refl => exact ⟨by simp, hp⟩
  | answer a rest ih =>
      obtain ⟨hrest, hq⟩ := ih (hp.2 a)
      refine ⟨fun e he => ?_, hq⟩
      rcases List.mem_cons.mp he with rfl | hmem
      · exact hp.1
      · exact hrest e hmem

end Serving

section Threads

variable {ι : Type u} {start : ι → Program Op Ans ε α}

-- a program under way: what it was started with, what it has been answered, what is left of it
structure Thread (start : ι → Program Op Ans ε α) where
  input : ι
  trace : History Op Ans
  rest : Program Op Ans ε α
  steps : Steps (start input) trace rest

namespace Thread

def spawn (start : ι → Program Op Ans ε α) (input : ι) : Thread start :=
  ⟨input, [], start input, .refl _⟩

def answer (t : Thread start) {o : Op} {next : Ans o → Program Op Ans ε α}
    (h : t.rest = .op o next) (a : Ans o) : Thread start :=
  ⟨t.input, t.trace ++ [⟨o, a⟩], next a, (h ▸ t.steps).snoc a⟩

def advance {σ : Type u} (t : Thread start) (serve : (o : Op) → Option (σ × Ans o)) :
    Option (σ × Thread start) :=
  match h : t.rest with
  | .op o _ => (serve o).map fun r => (r.1, t.answer h r.2)
  | .pure _ => none
  | .exit _ => none

theorem advance_eq_some {σ : Type u} {t t' : Thread start}
    {serve : (o : Op) → Option (σ × Ans o)} {s : σ} (h : t.advance serve = some (s, t')) :
    ∃ (o : Op) (next : Ans o → Program Op Ans ε α) (hrest : t.rest = .op o next) (a : Ans o),
      serve o = some (s, a) ∧ t' = t.answer hrest a := by
  unfold advance at h
  split at h
  next o next hrest =>
    obtain ⟨⟨s', a⟩, hserve, heq⟩ := Option.map_eq_some_iff.mp h
    obtain ⟨rfl, rfl⟩ := Prod.mk.inj heq
    exact ⟨o, next, hrest, a, hserve, rfl⟩
  next => cases h
  next => cases h

end Thread

end Threads

structure Contract (Op : Type u) (Ans : Op → Type u) (ε : Type u) where
  rely : (o : Op) → Ans o → Prop
  emits : History Op Ans → Op → Prop
  exits : History Op Ans → ε → Prop

def Meets (C : Contract Op Ans ε) (returns : History Op Ans → α → Prop) :
    Program Op Ans ε α → History Op Ans → Prop
  | .pure a, h => returns h a
  | .exit e, h => C.exits h e
  | .op o next, h => C.emits h o ∧ ∀ a, C.rely o a → Meets C returns (next a) (h ++ [⟨o, a⟩])

variable {C : Contract Op Ans ε} {returns : History Op Ans → α → Prop}

@[simp] theorem meets_pure {a : α} {h : History Op Ans} :
    Meets C returns (Pure.pure a) h ↔ returns h a := Iff.rfl

@[simp] theorem meets_exit {e : ε} {h : History Op Ans} :
    Meets C returns (exit e) h ↔ C.exits h e := Iff.rfl

theorem meets_ask {o : Op} {returns : History Op Ans → Ans o → Prop} {h : History Op Ans} :
    Meets C returns (ask o) h ↔
      C.emits h o ∧ ∀ a, C.rely o a → returns (h ++ [⟨o, a⟩]) a := Iff.rfl

theorem Meets.imp {returns' : History Op Ans → α → Prop} {p : Program Op Ans ε α}
    {h : History Op Ans} (hp : Meets C returns p h)
    (himp : ∀ h' a, h <+: h' → returns h' a → returns' h' a) : Meets C returns' p h := by
  induction p generalizing h with
  | pure a => exact himp h a List.prefix_rfl hp
  | exit e => exact hp
  | op o next ih =>
      refine ⟨hp.1, fun a ha => ih a (hp.2 a ha) fun h' b hextends => ?_⟩
      exact himp h' b ((List.prefix_append h _).trans hextends)

theorem Meets.bind {returns' : History Op Ans → β → Prop} {p : Program Op Ans ε α}
    {f : α → Program Op Ans ε β} {h : History Op Ans} (hp : Meets C returns p h)
    (hf : ∀ h' a, h <+: h' → returns h' a → Meets C returns' (f a) h') :
    Meets C returns' (p >>= f) h := by
  induction p generalizing h with
  | pure a => exact hf h a List.prefix_rfl hp
  | exit e => exact hp
  | op o next ih =>
      refine ⟨hp.1, fun a ha => ih a (hp.2 a ha) fun h' b hextends => ?_⟩
      exact hf h' b ((List.prefix_append h _).trans hextends)

theorem Meets.ask_bind {o : Op} {f : Ans o → Program Op Ans ε α} {h : History Op Ans}
    (hemits : C.emits h o)
    (hf : ∀ a, C.rely o a → Meets C returns (f a) (h ++ [⟨o, a⟩])) :
    Meets C returns (ask o >>= f) h :=
  ⟨hemits, hf⟩

theorem Meets.of_steps {p q : Program Op Ans ε α} {h tr : History Op Ans}
    (hp : Meets C returns p h) (hsteps : Steps p tr q) (hrely : ∀ e ∈ tr, C.rely e.1 e.2) :
    Meets C returns q (h ++ tr) := by
  induction hsteps generalizing h with
  | refl p => simpa using hp
  | answer a rest ih =>
      have ha := hp.2 a (hrely _ (List.mem_cons_self ..))
      have htail := ih ha fun e he => hrely e (List.mem_cons_of_mem _ he)
      simpa using htail

theorem Meets.emits_of_steps {p q : Program Op Ans ε α} {h tr₁ tr₂ : History Op Ans}
    {e : Event Op Ans} (hp : Meets C returns p h) (hsteps : Steps p (tr₁ ++ e :: tr₂) q)
    (hrely : ∀ e' ∈ tr₁, C.rely e'.1 e'.2) : C.emits (h ++ tr₁) e.1 := by
  induction tr₁ generalizing p h with
  | nil =>
      cases hsteps with
      | answer a rest => simpa using hp.1
  | cons e' tr₁ ih =>
      cases hsteps with
      | answer a rest =>
          have ha := hp.2 a (hrely _ (List.mem_cons_self ..))
          simpa using ih ha rest fun e he => hrely e (List.mem_cons_of_mem _ he)

end Program
