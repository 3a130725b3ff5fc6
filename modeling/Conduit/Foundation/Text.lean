import Mathlib.Data.Int.Notation
import Mathlib.Data.List.Basic
import Std.Data.String.ToNat

namespace Text

section Lists

variable {α : Type*} {sep : α} {a a' b b' : List α}

theorem separator_inj (hb : sep ∉ b) (hb' : sep ∉ b') (h : a ++ sep :: b = a' ++ sep :: b') :
    a = a' ∧ b = b' := by
  rcases List.append_eq_append_iff.mp h with ⟨c, rfl, hc⟩ | ⟨c, rfl, hc⟩
  · cases c with
    | nil => exact ⟨by simp, by simpa using hc⟩
    | cons x c =>
        obtain ⟨-, hbc⟩ := List.cons.inj (hc.trans (List.cons_append ..))
        exact absurd (by simp [hbc]) hb
  · cases c with
    | nil => exact ⟨by simp, by simpa using hc.symm⟩
    | cons x c =>
        obtain ⟨-, hbc⟩ := List.cons.inj (hc.trans (List.cons_append ..))
        exact absurd (by simp [hbc]) hb'

end Lists

section Decimals

theorem isDigit_of_mem_toString {n : ℕ} {c : Char} (h : c ∈ (toString n).toList) :
    c.isDigit = true := by
  have hrepr : (toString n).toList = Nat.toDigits 10 n := String.toList_ofList
  exact Nat.isDigit_of_mem_toDigits (by omega) (by omega) (hrepr ▸ h)

theorem toString_inj {m n : ℕ} : toString m = toString n ↔ m = n := Nat.repr_inj

theorem decimal_suffix_inj {a a' sep : String} {n n' : ℕ} (c : Char) (hsep : sep.toList = [c])
    (hc : c.isDigit = false) (h : a ++ sep ++ toString n = a' ++ sep ++ toString n') :
    a = a' ∧ n = n' := by
  have hlist := congrArg String.toList h
  simp only [String.toList_append, hsep, List.append_assoc, List.singleton_append] at hlist
  have hnot : ∀ k : ℕ, c ∉ (toString k).toList := fun k hmem => by
    simp [isDigit_of_mem_toString hmem] at hc
  obtain ⟨ha, hn⟩ := separator_inj (hnot n) (hnot n') hlist
  exact ⟨String.toList_injective ha, toString_inj.1 (String.toList_injective hn)⟩

end Decimals

section Reading

-- the white space and line ends that String.prototype.trim removes
def isSpace (c : Char) : Bool :=
  [9, 10, 11, 12, 13, 32, 160, 5760, 8232, 8233, 8239, 8287, 12288, 65279].contains c.toNat ||
    (8192 ≤ c.toNat && c.toNat ≤ 8202)

def trim (s : String) : String :=
  String.ofList ((s.toList.dropWhile isSpace).reverse.dropWhile isSpace).reverse

-- toLowerCase, as far as what it gives is ASCII: the Kelvin sign becomes k, and the dotted capital
-- i becomes i and a combining dot
def lowerChar (c : Char) : List Char :=
  if c.toNat = 8490 then ['k']
  else if c.toNat = 304 then ['i', Char.ofNat 775]
  else [c.toLower]

def toLowerCase (s : String) : String := String.ofList (s.toList.flatMap lowerChar)

def splitChars (sep : Char) : List Char → List (List Char)
  | [] => [[]]
  | c :: rest =>
      match splitChars sep rest with
      | [] => [[c]]
      | part :: more => if c = sep then [] :: part :: more else (c :: part) :: more

def afterPrefix (lead text : List Char) : Option (List Char) :=
  if lead.isPrefixOf text then some (text.drop lead.length) else none

def decimalValue (digits : List Char) : ℕ := digits.foldl (fun n c => 10 * n + (c.toNat - 48)) 0

def leadingDigits (chars : List Char) : Option ℕ :=
  match chars.takeWhile Char.isDigit with
  | [] => none
  | digits => some (decimalValue digits)

-- `none` is NaN
def parseInt (s : String) : Option ℤ :=
  match s.toList.dropWhile isSpace with
  | '-' :: rest => (leadingDigits rest).map fun n => -(n : ℤ)
  | '+' :: rest => (leadingDigits rest).map fun n => (n : ℤ)
  | chars => (leadingDigits chars).map fun n => (n : ℤ)

example : parseInt " 42kb" = some 42 := by decide

theorem forall_mem {P : Char → Prop} [DecidablePred P] {chars : List Char}
    (h : (chars.all fun c => decide (P c)) = true) : ∀ c ∈ chars, P c :=
  fun c hc => of_decide_eq_true (List.all_eq_true.mp h c hc)

theorem afterPrefix_eq_some {lead chars rest : List Char} :
    afterPrefix lead chars = some rest ↔ chars = lead ++ rest := by
  unfold afterPrefix
  constructor
  · intro h
    split at h
    next hprefix =>
      obtain ⟨tail, rfl⟩ := List.isPrefixOf_iff_prefix.mp hprefix
      rw [List.drop_left] at h
      rw [Option.some.inj h]
    next => cases h
  · rintro rfl
    rw [if_pos (List.isPrefixOf_iff_prefix.mpr (List.prefix_append ..)), List.drop_left]

theorem afterPrefix_append (lead rest : List Char) :
    afterPrefix lead (lead ++ rest) = some rest :=
  afterPrefix_eq_some.2 rfl

theorem afterPrefix_eq_none {lead chars : List Char} :
    afterPrefix lead chars = none ↔ ¬ lead <+: chars := by
  unfold afterPrefix
  rw [← List.isPrefixOf_iff_prefix]
  split
  next h => simp [h]
  next h => simp [h]

theorem splitChars_ne_nil (sep : Char) (text : List Char) : splitChars sep text ≠ [] := by
  cases text with
  | nil => simp [splitChars]
  | cons c rest =>
      unfold splitChars
      split
      · simp
      · split <;> simp

theorem splitChars_sep (sep : Char) (rest : List Char) :
    splitChars sep (sep :: rest) = [] :: splitChars sep rest := by
  rw [splitChars]
  split
  next hnil => exact absurd hnil (splitChars_ne_nil sep rest)
  next part more hparts => rw [if_pos rfl, hparts]

theorem splitChars_of_not_mem {sep : Char} {word : List Char} (h : sep ∉ word) :
    splitChars sep word = [word] := by
  induction word with
  | nil => rfl
  | cons c word ih =>
      obtain ⟨hc, hword⟩ := not_or.mp (List.mem_cons.not.mp h)
      simp [splitChars, ih hword, Ne.symm hc]

theorem splitChars_append {sep : Char} {word : List Char} (h : sep ∉ word) (rest : List Char) :
    splitChars sep (word ++ sep :: rest) = word :: splitChars sep rest := by
  induction word with
  | nil => exact splitChars_sep sep rest
  | cons c word ih =>
      obtain ⟨hc, hword⟩ := not_or.mp (List.mem_cons.not.mp h)
      simp [splitChars, ih hword, Ne.symm hc]

end Reading

section Plain

theorem dropWhile_of_forall {p : Char → Bool} {text : List Char} (h : ∀ c ∈ text, p c = false) :
    text.dropWhile p = text := by
  cases text with
  | nil => rfl
  | cons c rest => simp [List.dropWhile, h c (List.mem_cons_self ..)]

theorem trim_of_forall {text : List Char} (h : ∀ c ∈ text, isSpace c = false) :
    trim (String.ofList text) = String.ofList text := by
  have hback : ∀ c ∈ text.reverse, isSpace c = false := fun c hc => h c (List.mem_reverse.mp hc)
  rw [trim, String.toList_ofList, dropWhile_of_forall h, dropWhile_of_forall hback,
    List.reverse_reverse]

theorem flatMap_lowerChar_of_forall {text : List Char} (h : ∀ c ∈ text, lowerChar c = [c]) :
    text.flatMap lowerChar = text := by
  induction text with
  | nil => rfl
  | cons c rest ih =>
      rw [List.flatMap_cons, h c (List.mem_cons_self ..),
        ih fun c hc => h c (List.mem_cons_of_mem _ hc)]
      rfl

theorem toLowerCase_of_forall {text : List Char} (h : ∀ c ∈ text, lowerChar c = [c]) :
    toLowerCase (String.ofList text) = String.ofList text := by
  rw [toLowerCase, String.toList_ofList, flatMap_lowerChar_of_forall h]

end Plain

end Text
