import Conduit.Foundation.Text

-- the first place at which a line begins and a text matches, as a regular expression with `^` and
-- the flag m finds it
namespace LineSearch

def isLineTerminator (c : Char) : Bool := c = '\n' || c = '\r' || c.toNat = 8232 || c.toNat = 8233

variable {β : Type} (p : List Char → Option β)

def findLine : Bool → List Char → Option (List Char × β)
  | start, [] => (if start then p [] else none).map ([], ·)
  | start, c :: rest =>
      match if start then p (c :: rest) else none with
      | some b => some ([], b)
      | none => (findLine (isLineTerminator c) rest).map fun e => (c :: e.1, e.2)

def StartsLine (start : Bool) (before : List Char) : Prop :=
  match before.getLast? with
  | none => start = true
  | some c => isLineTerminator c = true

instance (start : Bool) (before : List Char) : Decidable (StartsLine start before) := by
  unfold StartsLine
  exact match before.getLast? with
    | none => inferInstanceAs (Decidable (start = true))
    | some c => inferInstanceAs (Decidable (isLineTerminator c = true))

variable {p}

theorem startsLine_nil (start : Bool) : StartsLine start [] ↔ start = true := Iff.rfl

theorem startsLine_cons {start : Bool} {c : Char} {before : List Char} :
    StartsLine start (c :: before) ↔ StartsLine (isLineTerminator c) before := by
  cases before with
  | nil => exact Iff.rfl
  | cons d before =>
      unfold StartsLine
      rw [List.getLast?_cons_cons]
      cases h : (d :: before).getLast? with
      | none => cases List.getLast?_eq_none_iff.mp h
      | some x => exact Iff.rfl

theorem startsLine_append {start : Bool} {a b : List Char} (hb : b ≠ []) :
    StartsLine start (a ++ b) ↔ StartsLine start b := by
  unfold StartsLine
  rw [List.getLast?_append_of_ne_nil a hb]

theorem startsLine_concat {start : Bool} (a : List Char) {c : Char} :
    StartsLine start (a ++ [c]) ↔ isLineTerminator c = true := by
  unfold StartsLine
  rw [List.getLast?_concat]

-- no match where a line begins in a text
def NoMatch (p : List Char → Option β) (start : Bool) (text : List Char) : Prop :=
  ∀ before after, text = before ++ after → StartsLine start before → p after = none

theorem findLine_eq_none {start : Bool} {text : List Char} :
    findLine p start text = none ↔ NoMatch p start text := by
  induction text generalizing start with
  | nil =>
      constructor
      · intro h before after htext hstart
        obtain ⟨rfl, rfl⟩ := List.append_eq_nil_iff.mp htext.symm
        rw [(startsLine_nil start).mp hstart] at h
        exact Option.map_eq_none_iff.mp h
      · intro h
        cases start with
        | false => rfl
        | true => exact Option.map_eq_none_iff.mpr (h [] [] rfl rfl)
  | cons c rest ih =>
      rw [findLine]
      constructor
      · intro h before after htext hstart
        split at h
        next => cases h
        next hhead =>
          have htail := ih.mp (Option.map_eq_none_iff.mp h)
          cases before with
          | nil =>
              rw [(startsLine_nil start).mp hstart, if_pos rfl] at hhead
              rw [← hhead, htext]
              rfl
          | cons d before =>
              obtain ⟨rfl, rfl⟩ := List.cons.inj htext
              exact htail before after rfl (startsLine_cons.1 hstart)
      · intro h
        split
        next b hhead =>
          cases start with
          | false => cases hhead
          | true =>
              have hnone := h [] (c :: rest) rfl rfl
              rw [if_pos rfl, hnone] at hhead
              cases hhead
        next =>
          refine Option.map_eq_none_iff.mpr (ih.mpr ?_)
          intro before after htext hstart
          exact h (c :: before) after (congrArg (c :: ·) htext) (startsLine_cons.2 hstart)

structure FirstMatch (p : List Char → Option β) (start : Bool) (text before : List Char) (b : β) :
    Prop where
  found : ∃ after, text = before ++ after ∧ p after = some b
  starts : StartsLine start before
  first : ∀ shorter after, text = shorter ++ after → shorter.length < before.length →
    StartsLine start shorter → p after = none

theorem findLine_of_firstMatch {start : Bool} {text before : List Char} {b : β}
    (h : FirstMatch p start text before b) : findLine p start text = some (before, b) := by
  obtain ⟨after, rfl, hafter⟩ := h.found
  induction before generalizing start with
  | nil =>
      have hstart : start = true := h.starts
      cases after with
      | nil => simp [findLine, hstart, hafter]
      | cons c after =>
          rw [List.nil_append] at *
          simp [findLine, hstart, hafter]
  | cons c before ih =>
      have hhead : (if start then p (c :: (before ++ after)) else none) = none := by
        cases hstart : start with
        | false => rfl
        | true =>
            rw [if_pos rfl]
            exact h.first [] _ rfl (Nat.succ_pos _) hstart
      have hrest := ih
        { found := ⟨after, rfl, hafter⟩
          starts := startsLine_cons.1 h.starts
          first := fun shorter later htext hlength hline =>
            h.first (c :: shorter) later (congrArg (c :: ·) htext) (Nat.succ_lt_succ hlength)
              (startsLine_cons.2 hline) }
      rw [List.cons_append, findLine, hhead]
      dsimp only
      rw [hrest]
      rfl

theorem firstMatch_of_findLine {start : Bool} {text before : List Char} {b : β}
    (h : findLine p start text = some (before, b)) : FirstMatch p start text before b := by
  induction text generalizing start before with
  | nil =>
      obtain ⟨b', hb, heq⟩ := Option.map_eq_some_iff.mp h
      obtain ⟨rfl, rfl⟩ := Prod.mk.inj heq
      cases start with
      | false => cases hb
      | true => exact ⟨⟨[], rfl, hb⟩, rfl, fun _ _ _ hlength => absurd hlength (Nat.not_lt_zero _)⟩
  | cons c rest ih =>
      rw [findLine] at h
      split at h
      next b' hhead =>
        cases h
        cases start with
        | false => cases hhead
        | true =>
            exact ⟨⟨_, rfl, hhead⟩, rfl, fun _ _ _ hlength => absurd hlength (Nat.not_lt_zero _)⟩
      next hhead =>
        obtain ⟨⟨tail, b'⟩, hrest, heq⟩ := Option.map_eq_some_iff.mp h
        obtain ⟨rfl, rfl⟩ := Prod.mk.inj heq
        have hmatch := ih hrest
        obtain ⟨after, rfl, hafter⟩ := hmatch.found
        refine ⟨⟨after, rfl, hafter⟩, startsLine_cons.2 hmatch.starts, ?_⟩
        intro shorter later htext hlength hstart
        cases shorter with
        | nil =>
            rw [(startsLine_nil start).mp hstart, if_pos rfl] at hhead
            rw [← hhead, htext]
            rfl
        | cons d shorter =>
            obtain ⟨rfl, htail⟩ := List.cons.inj htext
            exact hmatch.first shorter later htail (Nat.lt_of_succ_lt_succ hlength)
              (startsLine_cons.1 hstart)

theorem findLine_eq_some {start : Bool} {text before : List Char} {b : β} :
    findLine p start text = some (before, b) ↔ FirstMatch p start text before b :=
  ⟨firstMatch_of_findLine, findLine_of_firstMatch⟩

-- a text without line ends is one line
theorem findLine_single {text : List Char} (h : ∀ c ∈ text, isLineTerminator c = false) :
    findLine p true text = (p text).map ([], ·) := by
  cases hp : p text with
  | some b =>
      exact findLine_of_firstMatch
        ⟨⟨text, rfl, hp⟩, rfl, fun _ _ _ hlength => absurd hlength (Nat.not_lt_zero _)⟩
  | none =>
      refine findLine_eq_none.2 ?_
      intro before after htext hstart
      cases hlast : before.getLast? with
      | none =>
          rw [List.getLast?_eq_none_iff.mp hlast] at htext
          rw [← hp, htext]
          rfl
      | some c =>
          have hmem : c ∈ text := by
            rw [htext]
            exact List.mem_append_left _ (List.mem_of_getLast? hlast)
          unfold StartsLine at hstart
          rw [hlast] at hstart
          exact absurd (hstart.symm.trans (h c hmem)) (by decide)

section NoMatches

theorem noMatch_true_iff {text : List Char} :
    NoMatch p true text ↔ p text = none ∧ NoMatch p false text := by
  constructor
  · intro h
    refine ⟨h [] text rfl rfl, fun before after htext hstart => h before after htext ?_⟩
    cases before with
    | nil => rfl
    | cons c before => exact startsLine_cons.2 (startsLine_cons.1 hstart)
  · intro ⟨hwhole, h⟩ before after htext hstart
    cases before with
    | nil => rwa [← List.nil_append after, ← htext]
    | cons c before =>
        exact h (c :: before) after htext (startsLine_cons.2 (startsLine_cons.1 hstart))

theorem noMatch_cons {c : Char} {text : List Char} :
    NoMatch p false (c :: text) ↔ NoMatch p (isLineTerminator c) text := by
  constructor
  · intro h before after htext hstart
    exact h (c :: before) after (congrArg (c :: ·) htext) (startsLine_cons.2 hstart)
  · intro h before after htext hstart
    cases before with
    | nil => cases hstart
    | cons d before =>
        obtain ⟨rfl, htail⟩ := List.cons.inj htext
        exact h before after htail (startsLine_cons.1 hstart)

theorem noMatch_append {line text : List Char} (h : ∀ c ∈ line, isLineTerminator c = false) :
    NoMatch p false (line ++ text) ↔ NoMatch p false text := by
  induction line with
  | nil => exact Iff.rfl
  | cons c line ih =>
      rw [List.cons_append, noMatch_cons, h c List.mem_cons_self]
      exact ih fun d hd => h d (List.mem_cons_of_mem c hd)

theorem startsLine_of_last {before : List Char} {c : Char} (hlast : before.getLast? = some c)
    (hc : isLineTerminator c = true) (start : Bool) : StartsLine start before := by
  unfold StartsLine
  rw [hlast]
  exact hc

theorem noMatch_behind {lead text : List Char} {c : Char} {start : Bool}
    (hlast : lead.getLast? = some c) (hc : isLineTerminator c = true)
    (h : NoMatch p start (lead ++ text)) : NoMatch p true text := by
  intro before after htext hstart
  refine h (lead ++ before) after (by rw [htext, List.append_assoc]) ?_
  cases before with
  | nil =>
      rw [List.append_nil]
      exact startsLine_of_last hlast hc start
  | cons d before =>
      rw [startsLine_append (List.cons_ne_nil _ _)]
      exact startsLine_cons.2 (startsLine_cons.1 hstart)

-- the matches before a text and those in it
theorem noMatch_split {lead text : List Char}
    (hlead : ∀ before b, lead = before ++ b → b ≠ [] → StartsLine true before →
      p (b ++ text) = none) (htext : NoMatch p true text) : NoMatch p true (lead ++ text) := by
  intro before after heq hstart
  rcases List.append_eq_append_iff.mp heq with ⟨b, rfl, hafter⟩ | ⟨b, rfl, rfl⟩
  · refine htext b after hafter ?_
    cases b with
    | nil => rfl
    | cons d b =>
        rw [startsLine_append (List.cons_ne_nil _ _)] at hstart
        exact hstart
  · cases b with
    | nil => exact htext [] _ rfl rfl
    | cons d b => exact hlead before (d :: b) rfl (List.cons_ne_nil _ _) hstart

end NoMatches

end LineSearch
