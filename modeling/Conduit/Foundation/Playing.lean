import Conduit.Foundation.Program

universe u

namespace Program

variable {Op : Type u} {Ans : Op → Type u} {ε α β : Type u} {σ : Type u}

-- a history says where a program has returned, and what
theorem Steps.pure_unique {p : Program Op Ans ε α} {a b : α} {tr₁ tr₂ rest₁ rest₂ : History Op Ans}
    (h₁ : Steps p tr₁ (.pure a)) (h₂ : Steps p tr₂ (.pure b))
    (heq : tr₁ ++ rest₁ = tr₂ ++ rest₂) : a = b ∧ tr₁ = tr₂ := by
  induction p generalizing tr₁ tr₂ with
  | pure a' =>
      cases h₁
      cases h₂
      exact ⟨rfl, rfl⟩
  | exit e => exact absurd h₁.of_exit.2 (by simp)
  | op o next ih =>
      cases h₁ with
      | answer answer₁ steps₁ =>
          cases h₂ with
          | answer answer₂ steps₂ =>
              obtain ⟨hevent, hrest⟩ := List.cons.inj heq
              obtain rfl := eq_of_heq (Sigma.mk.inj hevent).2
              obtain ⟨rfl, rfl⟩ := ih _ steps₁ steps₂ hrest
              exact ⟨rfl, rfl⟩

-- a program that has got so far against a service; the service may answer in several ways
inductive Plays (serves : σ → (o : Op) → Ans o → σ → Prop) :
    σ → Program Op Ans ε α → History Op Ans → σ → Program Op Ans ε α → Prop where
  | refl (s : σ) (p : Program Op Ans ε α) : Plays serves s p [] s p
  | answer {s s' t : σ} {o : Op} {next : Ans o → Program Op Ans ε α} {a : Ans o}
      {tr : History Op Ans} {q : Program Op Ans ε α} (h : serves s o a s')
      (rest : Plays serves s' (next a) tr t q) : Plays serves s (.op o next) (⟨o, a⟩ :: tr) t q

namespace Plays

variable {serves : σ → (o : Op) → Ans o → σ → Prop} {s t : σ} {p q : Program Op Ans ε α}
  {tr : History Op Ans}

theorem steps (h : Plays serves s p tr t q) : Steps p tr q := by
  induction h with
  | refl s p => exact .refl p
  | answer h rest ih => exact .answer _ ih

theorem of_exit {e : ε} (h : Plays serves s (.exit e) tr t q) : s = t := by
  cases h
  rfl

theorem bind {a : α} {f : α → Program Op Ans ε β} {s₁ : σ} {tr₁ tr₂ : History Op Ans}
    {r : Program Op Ans ε β} (hp : Plays serves s p tr₁ s₁ (.pure a))
    (hf : Plays serves s₁ (f a) tr₂ t r) : Plays serves s (p >>= f) (tr₁ ++ tr₂) t r := by
  generalize hpure : (Program.pure a : Program Op Ans ε α) = p' at hp
  induction hp with
  | refl =>
      subst hpure
      exact hf
  | answer h rest ih => exact .answer h (ih hf hpure)

theorem bind_cases {f : α → Program Op Ans ε β} {r : Program Op Ans ε β}
    (h : Plays serves s (p >>= f) tr t r) :
    (∃ p', Plays serves s p tr t p' ∧ r = p' >>= f ∧ ∀ a, p' ≠ .pure a) ∨
      ∃ a tr₁ tr₂ s₁, tr = tr₁ ++ tr₂ ∧ Plays serves s p tr₁ s₁ (.pure a) ∧
        Plays serves s₁ (f a) tr₂ t r := by
  induction p generalizing s tr with
  | pure a => exact .inr ⟨a, [], tr, s, rfl, .refl .., h⟩
  | exit e =>
      obtain ⟨rfl, rfl⟩ := h.steps.of_exit
      obtain rfl := h.of_exit
      exact .inl ⟨.exit e, .refl .., rfl, by simp⟩
  | op o next ih =>
      cases h with
      | refl => exact .inl ⟨.op o next, .refl .., rfl, by simp⟩
      | answer hserves rest =>
          rcases ih _ rest with ⟨p', hp', rfl, hne⟩ | ⟨a, tr₁, tr₂, s₁, rfl, hp, hf⟩
          · exact .inl ⟨p', .answer hserves hp', rfl, hne⟩
          · exact .inr ⟨a, _ :: tr₁, tr₂, s₁, rfl, .answer hserves hp, hf⟩

-- what relates the states around each answer, and composes, relates the first state to the last
theorem related {R : σ → σ → Prop} (hrefl : ∀ s, R s s)
    (htrans : ∀ s₁ s₂ s₃, R s₁ s₂ → R s₂ s₃ → R s₁ s₃) (h : Plays serves s p tr t q)
    (hstep : ∀ e ∈ tr, ∀ s₁ s₂, serves s₁ e.1 e.2 s₂ → R s₁ s₂) : R s t := by
  induction h with
  | refl s p => exact hrefl s
  | answer h rest ih =>
      have hfirst := hstep _ (List.mem_cons_self ..) _ _ h
      exact htrans _ _ _ hfirst (ih fun e he => hstep e (List.mem_cons_of_mem _ he))

theorem split_at {e : Event Op Ans} (h : Plays serves s p tr t q) (he : e ∈ tr) :
    ∃ tr₁ tr₂ s₁ s₂ p₁ p₂, tr = tr₁ ++ e :: tr₂ ∧ Plays serves s p tr₁ s₁ p₁ ∧
      serves s₁ e.1 e.2 s₂ ∧ Plays serves s₂ p₂ tr₂ t q := by
  induction h with
  | refl s p => cases he
  | answer h rest ih =>
      rcases List.mem_cons.mp he with rfl | hrest
      · exact ⟨[], _, _, _, _, _, rfl, .refl .., h, rest⟩
      · obtain ⟨tr₁, tr₂, s₁, s₂, p₁, p₂, rfl, hbefore, hserves, hafter⟩ := ih hrest
        exact ⟨_ :: tr₁, tr₂, s₁, s₂, p₁, p₂, rfl, .answer h hbefore, hserves, hafter⟩

end Plays

-- the first steps of a program against a service that answers in one way only
def progress (serve : σ → (o : Op) → σ × Ans o) :
    ℕ → σ → Program Op Ans ε α → σ × History Op Ans × Program Op Ans ε α
  | 0, s, p => (s, [], p)
  | n + 1, s, .op o next =>
      let rest := progress serve n (serve s o).1 (next (serve s o).2)
      (rest.1, ⟨o, (serve s o).2⟩ :: rest.2.1, rest.2.2)
  | _ + 1, s, p => (s, [], p)

theorem plays_progress {serves : σ → (o : Op) → Ans o → σ → Prop}
    {serve : σ → (o : Op) → σ × Ans o} (h : ∀ s o, serves s o (serve s o).2 (serve s o).1) (n : ℕ)
    (s : σ) (p : Program Op Ans ε α) :
    Plays serves s p (progress serve n s p).2.1 (progress serve n s p).1
      (progress serve n s p).2.2 := by
  induction n generalizing s p with
  | zero => exact .refl ..
  | succ n ih =>
      cases p with
      | pure a => exact .refl ..
      | exit e => exact .refl ..
      | op o next => exact .answer (h s o) (ih _ _)

theorem Meets.of_avoids {C : Contract Op Ans ε} {bad : Op → Prop} (hemits : ∀ h o, ¬ bad o → C.emits h o)
    (hexits : ∀ h e, C.exits h e) {p : Program Op Ans ε α} (hp : Avoids bad p)
    (h : History Op Ans) : Meets C (fun _ _ => True) p h := by
  induction p generalizing h with
  | pure a => trivial
  | exit e => exact hexits h e
  | op o next ih => exact ⟨hemits h o hp.1, fun a _ => ih a (hp.2 a) _⟩

end Program
