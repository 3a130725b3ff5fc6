import Mathlib.Algebra.Ring.Nat
import Conduit.Foundation.Text

namespace Ipv6

abbrev Address := BitVec 128

variable (a : Address)

def pieces : List ℕ :=
  [a.toNat / 2 ^ 112, a.toNat / 2 ^ 96 % 65536, a.toNat / 2 ^ 80 % 65536,
    a.toNat / 2 ^ 64 % 65536, a.toNat / 2 ^ 48 % 65536, a.toNat / 2 ^ 32 % 65536,
    a.toNat / 2 ^ 16 % 65536, a.toNat % 65536]

-- whether the leading bits of the address are those of the network
def InBlock (network length : ℕ) : Prop :=
  a.toNat / 2 ^ (128 - length) = network / 2 ^ (128 - length)

instance (network length : ℕ) : Decidable (InBlock a network length) :=
  inferInstanceAs (Decidable (_ = _))

section Compression

def leading : List Bool → ℕ
  | true :: rest => leading rest + 1
  | _ => 0

-- where the first longest run of at least two zero pieces starts, and its length
def longestRun : List Bool → Option (ℕ × ℕ)
  | [] => none
  | zero :: rest =>
      let here := leading (zero :: rest)
      match longestRun rest with
      | none => if 2 ≤ here then some (0, here) else none
      | some (start, length) =>
          if length ≤ here then some (0, here) else some (start + 1, length)

def compression : Option (ℕ × ℕ) := longestRun ((pieces a).map fun piece => piece == 0)

theorem leading_le_length (zeros : List Bool) : leading zeros ≤ zeros.length := by
  induction zeros with
  | nil => exact Nat.le_refl 0
  | cons zero rest ih =>
      cases zero with
      | true => exact Nat.succ_le_succ ih
      | false => exact Nat.zero_le _

theorem longestRun_bounds {zeros : List Bool} {start length : ℕ}
    (h : longestRun zeros = some (start, length)) : 2 ≤ length ∧ start + length ≤ zeros.length := by
  induction zeros generalizing start length with
  | nil => cases h
  | cons zero rest ih =>
      have hleading := leading_le_length (zero :: rest)
      unfold longestRun at h
      dsimp only at h
      split at h
      next =>
        split at h
        next hlong =>
          obtain ⟨rfl, rfl⟩ := Prod.mk.inj (Option.some.inj h)
          exact ⟨hlong, by omega⟩
        next => cases h
      next start' length' hrest =>
        obtain ⟨hlong, hend⟩ := ih hrest
        split at h
        next hle =>
          obtain ⟨rfl, rfl⟩ := Prod.mk.inj (Option.some.inj h)
          exact ⟨Nat.le_trans hlong hle, by omega⟩
        next =>
          obtain ⟨rfl, rfl⟩ := Prod.mk.inj (Option.some.inj h)
          refine ⟨hlong, ?_⟩
          rw [List.length_cons]
          omega

theorem longestRun_false_cons {rest : List Bool} {start length : ℕ}
    (h : longestRun (false :: rest) = some (start, length)) : 1 ≤ start := by
  unfold longestRun at h
  dsimp only [leading] at h
  split at h
  next => cases h
  next start' length' hrest =>
    have hlong := (longestRun_bounds hrest).1
    split at h
    next hle => omega
    next =>
      obtain ⟨rfl, rfl⟩ := Prod.mk.inj (Option.some.inj h)
      exact Nat.le_add_left 1 start'

end Compression

section Writing

-- a piece in lower case hexadecimal, without leading zeros
def digits (piece : ℕ) : List Char :=
  if piece < 16 then [Nat.digitChar piece]
  else if piece < 256 then [Nat.digitChar (piece / 16), Nat.digitChar (piece % 16)]
  else if piece < 4096 then
    [Nat.digitChar (piece / 256), Nat.digitChar (piece / 16 % 16), Nat.digitChar (piece % 16)]
  else
    [Nat.digitChar (piece / 4096), Nat.digitChar (piece / 256 % 16),
      Nat.digitChar (piece / 16 % 16), Nat.digitChar (piece % 16)]

def joined : List ℕ → List Char
  | [] => []
  | [piece] => digits piece
  | piece :: rest => digits piece ++ ':' :: joined rest

-- what the serializer of the URL standard writes
def serialized : List Char :=
  match compression a with
  | none => joined (pieces a)
  | some (start, length) =>
      joined ((pieces a).take start) ++ ':' :: ':' :: joined ((pieces a).drop (start + length))

def text : String := String.ofList (serialized a)

def IsHexChar (c : Char) : Prop := ∃ d : Fin 16, c = Nat.digitChar d

variable {a}

theorem isHexChar_digitChar {d : ℕ} (h : d < 16) : IsHexChar (Nat.digitChar d) := ⟨⟨d, h⟩, rfl⟩

theorem isHexChar_of_mem_digits {piece : ℕ} (h : piece < 65536) {c : Char} (hc : c ∈ digits piece) :
    IsHexChar c := by
  unfold digits at hc
  split at hc
  next hlt =>
    obtain rfl := List.mem_singleton.mp hc
    exact isHexChar_digitChar hlt
  · split at hc
    · simp only [List.mem_cons, List.not_mem_nil, or_false] at hc
      rcases hc with rfl | rfl <;> exact isHexChar_digitChar (by omega)
    · split at hc
      · simp only [List.mem_cons, List.not_mem_nil, or_false] at hc
        rcases hc with rfl | rfl | rfl <;> exact isHexChar_digitChar (by omega)
      · simp only [List.mem_cons, List.not_mem_nil, or_false] at hc
        rcases hc with rfl | rfl | rfl | rfl <;> exact isHexChar_digitChar (by omega)

theorem length_digits (piece : ℕ) : 1 ≤ (digits piece).length ∧ (digits piece).length ≤ 4 := by
  unfold digits
  split
  · simp
  · split
    · simp
    · split <;> simp

theorem digits_ne_nil (piece : ℕ) : digits piece ≠ [] :=
  List.ne_nil_of_length_pos (length_digits piece).1

theorem colon_not_isHexChar : ¬ IsHexChar ':' := by
  rintro ⟨d, hd⟩
  revert d
  decide

theorem colon_not_mem_digits {piece : ℕ} (h : piece < 65536) : ':' ∉ digits piece :=
  fun hmem => colon_not_isHexChar (isHexChar_of_mem_digits h hmem)

theorem lt_of_mem_pieces {piece : ℕ} (h : piece ∈ pieces a) : piece < 65536 := by
  have hlt := a.isLt
  simp only [pieces, List.mem_cons, List.not_mem_nil, or_false] at h
  omega

theorem joined_cons (piece next : ℕ) (rest : List ℕ) :
    joined (piece :: next :: rest) = digits piece ++ ':' :: joined (next :: rest) := rfl

theorem joined_ne_nil {ps : List ℕ} (h : ps ≠ []) : joined ps ≠ [] := by
  cases ps with
  | nil => exact absurd rfl h
  | cons piece rest =>
      cases rest with
      | nil => exact digits_ne_nil piece
      | cons next rest => simp [joined_cons]

theorem mem_joined {ps : List ℕ} (h : ∀ p ∈ ps, p < 65536) {c : Char} (hc : c ∈ joined ps) :
    IsHexChar c ∨ c = ':' := by
  induction ps with
  | nil => cases hc
  | cons piece rest ih =>
      have hpiece := h piece (List.mem_cons_self ..)
      cases rest with
      | nil => exact .inl (isHexChar_of_mem_digits hpiece hc)
      | cons next rest =>
          rw [joined_cons, List.mem_append, List.mem_cons] at hc
          rcases hc with hdigit | hcolon | hrest
          · exact .inl (isHexChar_of_mem_digits hpiece hdigit)
          · exact .inr hcolon
          · exact ih (fun p hp => h p (List.mem_cons_of_mem _ hp)) hrest

theorem serialized_of_run {start length : ℕ} (h : compression a = some (start, length)) :
    serialized a = joined ((pieces a).take start) ++
      ':' :: ':' :: joined ((pieces a).drop (start + length)) := by
  rw [serialized, h]

theorem serialized_of_pieces {ps : List ℕ} (h : pieces a = ps) (start length : ℕ)
    (hrun : longestRun (ps.map fun piece => piece == 0) = some (start, length)) :
    serialized a =
      joined (ps.take start) ++ ':' :: ':' :: joined (ps.drop (start + length)) := by
  subst h
  exact serialized_of_run hrun

theorem mem_serialized {c : Char} (hc : c ∈ serialized a) : IsHexChar c ∨ c = ':' := by
  have hpieces : ∀ p ∈ pieces a, p < 65536 := fun p => lt_of_mem_pieces
  unfold serialized at hc
  split at hc
  · exact mem_joined hpieces hc
  · rw [List.mem_append, List.mem_cons, List.mem_cons] at hc
    rcases hc with hfront | hcolon | hcolon | hback
    · exact mem_joined (fun p hp => hpieces p (List.mem_of_mem_take hp)) hfront
    · exact .inr hcolon
    · exact .inr hcolon
    · exact mem_joined (fun p hp => hpieces p (List.mem_of_mem_drop hp)) hback

example : text 0x20010db8000000000001000000000001 = "2001:db8::1:0:0:1" := by decide

end Writing

end Ipv6
