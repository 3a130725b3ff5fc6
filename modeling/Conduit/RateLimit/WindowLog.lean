import Conduit.Foundation.Run
import Conduit.RateLimit.Types
import Mathlib.Data.List.Basic

namespace Conduit.RateLimit

structure Admission where
  key : String
  windowMs : ℕ
  timeMs : ℕ
  draw : ℕ
deriving DecidableEq, Repr

structure WindowLog where
  clock : ℕ
  log : List Admission
  bounded : ∀ a ∈ log, a.timeMs ≤ clock

namespace WindowLog

def init : WindowLog where
  clock := 0
  log := []
  bounded := by simp

variable (A : WindowLog)

def inWindow (key : String) (windowMs now : ℕ) : List Admission :=
  A.log.filter fun a => a.key = key ∧ a.windowMs = windowMs ∧ now ≤ a.timeMs + windowMs

def admission (c : Call) : List Admission :=
  match c.operation with
  | .check => []
  | .consume => [⟨c.key, c.windowMs, c.nowMs, c.draw⟩]

theorem eq_of_mem_admission {c : Call} {a : Admission} (h : a ∈ admission c) :
    a = ⟨c.key, c.windowMs, c.nowMs, c.draw⟩ := by
  unfold admission at h
  split at h <;> simp at h
  exact h

theorem consume_of_mem_admission {c : Call} {a : Admission} (h : a ∈ admission c) :
    c.operation = .consume := by
  unfold admission at h
  split at h
  · simp at h
  · assumption

def allowed (c : Call) : Bool :=
  decide (((A.inWindow c.key c.windowMs c.nowMs).length : ℤ) < c.limit)

def record (c : Call) : WindowLog where
  clock := max A.clock c.nowMs
  log := if A.allowed c then A.log ++ admission c else A.log
  bounded := by
    intro a ha
    have hcase : a.timeMs ≤ A.clock ∨ a.timeMs = c.nowMs := by
      split at ha
      · rcases List.mem_append.mp ha with hold | hnew
        · exact .inl (A.bounded a hold)
        · exact .inr (by rw [eq_of_mem_admission hnew])
      · exact .inl (A.bounded a ha)
    omega

def call (c : Call) : WindowLog × Bool := (A.record c, A.allowed c)

def InOrder (c : Call) : Prop := A.clock ≤ c.nowMs

structure Undisturbed (c : Call) : Prop where
  otherWindowsElapsed : ∀ a ∈ A.log, a.key = c.key → a.windowMs ≠ c.windowMs →
    a.timeMs + a.windowMs < c.nowMs
  offBoundary : ∀ a ∈ A.log, a.key = c.key → a.windowMs = c.windowMs →
    a.timeMs + a.windowMs ≠ c.nowMs
  freshMember : c.operation = .consume → ∀ a ∈ A.log, a.key = c.key → a.windowMs = c.windowMs →
    a.timeMs = c.nowMs → a.draw ≠ c.draw

instance (c : Call) : Decidable (A.Undisturbed c) :=
  decidable_of_iff
    ((∀ a ∈ A.log, a.key = c.key → a.windowMs ≠ c.windowMs → a.timeMs + a.windowMs < c.nowMs) ∧
      (∀ a ∈ A.log, a.key = c.key → a.windowMs = c.windowMs → a.timeMs + a.windowMs ≠ c.nowMs) ∧
      (c.operation = .consume → ∀ a ∈ A.log, a.key = c.key → a.windowMs = c.windowMs →
        a.timeMs = c.nowMs → a.draw ≠ c.draw))
    ⟨fun ⟨h₁, h₂, h₃⟩ => ⟨h₁, h₂, h₃⟩, fun ⟨h₁, h₂, h₃⟩ => ⟨h₁, h₂, h₃⟩⟩

theorem record_clock {A : WindowLog} {c : Call} (h : A.InOrder c) :
    (A.record c).clock = c.nowMs :=
  max_eq_right h

theorem inOrder_throughout {A : WindowLog} {calls : List Call}
    (h : calls.Pairwise fun c d => c.nowMs ≤ d.nowMs) (hstart : ∀ c ∈ calls, A.clock ≤ c.nowMs) :
    Transition.Throughout call InOrder A calls := by
  induction calls generalizing A with
  | nil => trivial
  | cons c calls ih =>
      obtain ⟨hc, hrest⟩ := List.pairwise_cons.mp h
      have hnow : A.clock ≤ c.nowMs := hstart c (by simp)
      refine ⟨hnow, ih hrest fun d hd => ?_⟩
      rw [show (A.call c).1.clock = c.nowMs from record_clock hnow]
      exact hc d hd

theorem inWindow_record (c : Call) (key : String) (windowMs now : ℕ) :
    (A.record c).inWindow key windowMs now = A.inWindow key windowMs now ++
      if A.allowed c then (admission c).filter fun a =>
        a.key = key ∧ a.windowMs = windowMs ∧ now ≤ a.timeMs + windowMs
      else [] := by
  unfold inWindow record
  split <;> simp

end WindowLog

end Conduit.RateLimit
