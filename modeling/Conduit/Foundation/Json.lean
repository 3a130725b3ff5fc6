import Mathlib.Algebra.Order.Ring.Int
import Mathlib.Data.Nat.Log
import Mathlib.Tactic.Ring

structure Decimal where
  mantissa : ℤ
  exponent : ℤ
  normal : mantissa % 10 ≠ 0 ∨ mantissa = 0 ∧ exponent = 0
deriving DecidableEq

namespace Decimal

def dropZeros : ℕ → ℕ → ℕ → ℕ × ℕ
  | 0, n, e => (n, e)
  | fuel + 1, n, e => if n % 10 = 0 then dropZeros fuel (n / 10) (e + 1) else (n, e)

theorem dropZeros_normal (fuel n e : ℕ) (h : n < 10 ^ fuel) (hn : n ≠ 0) :
    (dropZeros fuel n e).1 % 10 ≠ 0 := by
  induction fuel generalizing n e with
  | zero =>
      rw [pow_zero] at h
      omega
  | succ fuel ih =>
      unfold dropZeros
      split
      next =>
        rw [pow_succ] at h
        exact ih (n / 10) (e + 1) (by omega) (by omega)
      next hten => exact hten

def ofNat (n : ℕ) : Decimal :=
  if h : n = 0 then ⟨0, 0, .inr ⟨rfl, rfl⟩⟩
  else ⟨(dropZeros n n 0).1, (dropZeros n n 0).2, .inl (by
    have := dropZeros_normal n n 0 (Nat.lt_pow_self (by omega)) h
    omega)⟩

def neg (d : Decimal) : Decimal :=
  ⟨-d.mantissa, d.exponent, d.normal.imp (by omega) (by omega)⟩

instance : Neg Decimal := ⟨neg⟩

end Decimal

inductive JsNumber where
  | finite (d : Decimal)
  | posInfinity
  | negInfinity
deriving DecidableEq

inductive Json where
  | null
  | bool (b : Bool)
  | num (n : JsNumber)
  | str (s : String)
  | arr (items : List Json)
  | obj (fields : List (String × Json))

namespace Json

mutual

def decEq : (a b : Json) → Decidable (a = b)
  | .null, .null => isTrue rfl
  | .bool a, .bool b => decidable_of_iff (a = b) (by simp)
  | .num a, .num b => decidable_of_iff (a = b) (by simp)
  | .str a, .str b => decidable_of_iff (a = b) (by simp)
  | .arr xs, .arr ys => match decEqList xs ys with
      | isTrue h => isTrue (h ▸ rfl)
      | isFalse h => isFalse fun e => h (Json.arr.inj e)
  | .obj xs, .obj ys => match decEqFields xs ys with
      | isTrue h => isTrue (h ▸ rfl)
      | isFalse h => isFalse fun e => h (Json.obj.inj e)
  | .null, .bool _ | .null, .num _ | .null, .str _ | .null, .arr _ | .null, .obj _ => isFalse nofun
  | .bool _, .null | .bool _, .num _ | .bool _, .str _ | .bool _, .arr _ | .bool _, .obj _ =>
      isFalse nofun
  | .num _, .null | .num _, .bool _ | .num _, .str _ | .num _, .arr _ | .num _, .obj _ =>
      isFalse nofun
  | .str _, .null | .str _, .bool _ | .str _, .num _ | .str _, .arr _ | .str _, .obj _ =>
      isFalse nofun
  | .arr _, .null | .arr _, .bool _ | .arr _, .num _ | .arr _, .str _ | .arr _, .obj _ =>
      isFalse nofun
  | .obj _, .null | .obj _, .bool _ | .obj _, .num _ | .obj _, .str _ | .obj _, .arr _ =>
      isFalse nofun

def decEqList : (a b : List Json) → Decidable (a = b)
  | [], [] => isTrue rfl
  | [], _ :: _ => isFalse nofun
  | _ :: _, [] => isFalse nofun
  | x :: xs, y :: ys => match decEq x y, decEqList xs ys with
      | isTrue h, isTrue h' => isTrue (h ▸ h' ▸ rfl)
      | isFalse h, _ => isFalse fun e => h (List.cons.inj e).1
      | _, isFalse h => isFalse fun e => h (List.cons.inj e).2

def decEqFields : (a b : List (String × Json)) → Decidable (a = b)
  | [], [] => isTrue rfl
  | [], _ :: _ => isFalse nofun
  | _ :: _, [] => isFalse nofun
  | (k, x) :: xs, (k', y) :: ys =>
      match (inferInstance : Decidable (k = k')), decEq x y, decEqFields xs ys with
      | isTrue h, isTrue h', isTrue h'' => isTrue (h ▸ h' ▸ h'' ▸ rfl)
      | isFalse h, _, _ => isFalse fun e => h (Prod.mk.inj (List.cons.inj e).1).1
      | _, isFalse h, _ => isFalse fun e => h (Prod.mk.inj (List.cons.inj e).1).2
      | _, _, isFalse h => isFalse fun e => h (List.cons.inj e).2

end

instance : DecidableEq Json := decEq

def ofNat (n : ℕ) : Json := .num (.finite (.ofNat n))

def field : List (String × Json) → String → Option Json
  | [], _ => none
  | (k, v) :: rest, key => if k = key then some v else field rest key

-- `none` is the source's undefined
def get? : Json → String → Option Json
  | .obj fields, key => field fields key
  | _, _ => none

def has (v : Json) (key : String) : Bool := (v.get? key).isSome

def truthy : Json → Bool
  | .null => false
  | .bool b => b
  | .num n => n ≠ .finite (.ofNat 0)
  | .str s => s ≠ ""
  | .arr _ => true
  | .obj _ => true

def asString? : Json → Option String
  | .str s => some s
  | _ => none

def indexed : ℕ → List Json → List (String × Json)
  | _, [] => []
  | i, v :: rest => (toString i, v) :: indexed (i + 1) rest

-- the own enumerable properties that `{ ...value }` copies
def spread : Json → List (String × Json)
  | .obj fields => fields
  | .arr items => indexed 0 items
  | .str s => indexed 0 (s.toList.map fun c => .str c.toString)
  | _ => []

def setField : List (String × Json) → String → Json → List (String × Json)
  | [], key, value => [(key, value)]
  | (k, v) :: rest, key, value =>
      if k = key then (k, value) :: rest else (k, v) :: setField rest key value

theorem field_cons (k : String) (v : Json) (rest : List (String × Json)) (key : String) :
    field ((k, v) :: rest) key = if k = key then some v else field rest key := rfl

theorem setField_cons (k : String) (v : Json) (rest : List (String × Json)) (key : String)
    (value : Json) : setField ((k, v) :: rest) key value =
      if k = key then (k, value) :: rest else (k, v) :: setField rest key value := rfl

theorem field_setField (fields : List (String × Json)) (key k : String) (value : Json) :
    field (setField fields key value) k = if key = k then some value else field fields k := by
  induction fields with
  | nil => rfl
  | cons e fields ih =>
      obtain ⟨k', v'⟩ := e
      rcases eq_or_ne k' key with rfl | h
      · rcases eq_or_ne k' k with rfl | hk <;> simp [setField_cons, field_cons, *]
      · rcases eq_or_ne key k with rfl | hk
        · simp [setField_cons, field_cons, h, ih]
        · simp [setField_cons, field_cons, h, hk, ih]

theorem get?_setField_self (fields : List (String × Json)) (key : String) (value : Json) :
    (obj (setField fields key value)).get? key = some value := by
  simp [get?, field_setField]

theorem get?_setField_of_ne (fields : List (String × Json)) {key k : String} (value : Json)
    (h : key ≠ k) : (obj (setField fields key value)).get? k = field fields k := by
  simp [get?, field_setField, h]

theorem field_append (xs ys : List (String × Json)) (k : String) :
    field (xs ++ ys) k = (field xs k).or (field ys k) := by
  induction xs with
  | nil => rfl
  | cons e xs ih =>
      obtain ⟨k', v⟩ := e
      by_cases h : k' = k <;> simp [field_cons, h, ih]

theorem mem_of_field {fields : List (String × Json)} {k : String} {v : Json}
    (h : field fields k = some v) : (k, v) ∈ fields := by
  induction fields with
  | nil => cases h
  | cons e fields ih =>
      obtain ⟨k', v'⟩ := e
      rw [field_cons] at h
      split at h
      next heq =>
        cases h
        simp [heq]
      next => exact List.mem_cons_of_mem _ (ih h)

theorem field_isSome_of_mem {fields : List (String × Json)} {e : String × Json} (h : e ∈ fields) :
    (field fields e.1).isSome = true := by
  induction fields with
  | nil => simp at h
  | cons e' fields ih =>
      obtain ⟨k', v'⟩ := e'
      rw [field_cons]
      split
      next => rfl
      next hne =>
        rcases List.mem_cons.mp h with rfl | h
        · exact absurd rfl hne
        · exact ih h

end Json
