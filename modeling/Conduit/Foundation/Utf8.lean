import Mathlib.Tactic.NormNum

namespace Utf8

def replacement : Char := Char.ofNat 0xFFFD

def Continuation (b : UInt8) : Prop := 0x80 ≤ b.toNat ∧ b.toNat < 0xC0

instance (b : UInt8) : Decidable (Continuation b) := inferInstanceAs (Decidable (_ ∧ _))

-- a character of which some bytes have been read: how many it still needs, between which bounds
-- the next one lies, and the bits read so far
structure Partial where
  needed : ℕ
  low : ℕ
  high : ℕ
  point : ℕ
  low_ge : 0x80 ≤ low
  high_lt : high < 0xC0

namespace Partial

def ofLead (needed point low high : ℕ) (hlow : 0x80 ≤ low) (hhigh : high < 0xC0) : Partial where
  needed := needed
  low := low
  high := high
  point := point
  low_ge := hlow
  high_lt := hhigh

def next (p : Partial) (b : UInt8) : Partial where
  needed := p.needed - 1
  low := 0x80
  high := 0xBF
  point := 64 * p.point + (b.toNat - 0x80)
  low_ge := le_refl _
  high_lt := by decide

end Partial

-- the first byte of a character
def lead (b : UInt8) : List Char × Option Partial :=
  if b.toNat < 0x80 then ([Char.ofNat b.toNat], none)
  else if b.toNat < 0xC2 then ([replacement], none)
  else if b.toNat < 0xE0 then
    ([], some (.ofLead 1 (b.toNat - 0xC0) 0x80 0xBF (by decide) (by decide)))
  else if b.toNat = 0xE0 then ([], some (.ofLead 2 0 0xA0 0xBF (by decide) (by decide)))
  else if b.toNat = 0xED then ([], some (.ofLead 2 13 0x80 0x9F (by decide) (by decide)))
  else if b.toNat < 0xF0 then
    ([], some (.ofLead 2 (b.toNat - 0xE0) 0x80 0xBF (by decide) (by decide)))
  else if b.toNat = 0xF0 then ([], some (.ofLead 3 0 0x90 0xBF (by decide) (by decide)))
  else if b.toNat < 0xF4 then
    ([], some (.ofLead 3 (b.toNat - 0xF0) 0x80 0xBF (by decide) (by decide)))
  else if b.toNat = 0xF4 then ([], some (.ofLead 3 4 0x80 0x8F (by decide) (by decide)))
  else ([replacement], none)

-- a byte that does not continue the character ends it with a replacement and is read again
def feed : Option Partial → UInt8 → List Char × Option Partial
  | none, b => lead b
  | some p, b =>
      if b.toNat < p.low ∨ p.high < b.toNat then (replacement :: (lead b).1, (lead b).2)
      else if p.needed ≤ 1 then ([Char.ofNat (p.next b).point], none)
      else ([], some (p.next b))

def run : Option Partial → List UInt8 → List Char
  | none, [] => []
  | some _, [] => [replacement]
  | state, b :: bytes => (feed state b).1 ++ run (feed state b).2 bytes

def decode (bytes : List UInt8) : List Char := run none bytes

def encode (text : List Char) : List UInt8 := text.flatMap String.utf8EncodeChar

example : decode (encode "é".toList) = "é".toList := by decide

example : decode [0xE2, 0x82, 0x41] = [replacement, 'A'] := by decide

section Characters

-- what a partial character still lacks, and the code point it comes to
inductive Owes : Partial → List UInt8 → ℕ → Prop
  | last {p : Partial} {b : UInt8} (hneeded : p.needed ≤ 1) (hlow : p.low ≤ b.toNat)
      (hhigh : b.toNat ≤ p.high) : Owes p [b] (p.next b).point
  | more {p : Partial} {b : UInt8} {bytes : List UInt8} {point : ℕ} (hneeded : 1 < p.needed)
      (hlow : p.low ≤ b.toNat) (hhigh : b.toNat ≤ p.high) (howes : Owes (p.next b) bytes point) :
      Owes p (b :: bytes) point

variable {p : Partial} {bytes : List UInt8} {point : ℕ}

theorem Owes.continuation (h : Owes p bytes point) : ∀ b ∈ bytes, Continuation b := by
  induction h with
  | @last p b _ hlow hhigh =>
      intro c hc
      rw [List.mem_singleton.mp hc]
      exact ⟨le_trans p.low_ge hlow, lt_of_le_of_lt hhigh p.high_lt⟩
  | @more p b _ _ _ hlow hhigh _ ih =>
      intro c hc
      rcases List.mem_cons.mp hc with rfl | hc
      · exact ⟨le_trans p.low_ge hlow, lt_of_le_of_lt hhigh p.high_lt⟩
      · exact ih c hc

theorem Owes.run_append (h : Owes p bytes point) (rest : List UInt8) :
    run (some p) (bytes ++ rest) = Char.ofNat point :: run none rest := by
  induction h with
  | last hneeded hlow hhigh =>
      simp only [List.singleton_append, run, feed, if_neg (not_or.mpr ⟨hlow.not_gt, hhigh.not_gt⟩),
        if_pos hneeded]
  | more hneeded hlow hhigh _ ih =>
      simp only [List.cons_append, run, feed, if_neg (not_or.mpr ⟨hlow.not_gt, hhigh.not_gt⟩),
        if_neg hneeded.not_ge, List.nil_append]
      exact ih

theorem Owes.run_of_append (h : Owes p bytes point) {front back : List UInt8}
    (hbytes : bytes = front ++ back) (hback : back ≠ []) : run (some p) front = [replacement] := by
  induction h generalizing front with
  | last _ _ _ =>
      cases front with
      | nil => rfl
      | cons c front =>
          simp only [List.cons_append, List.cons.injEq] at hbytes
          exact absurd (List.append_eq_nil_iff.mp hbytes.2.symm).2 hback
  | more hneeded hlow hhigh _ ih =>
      cases front with
      | nil => rfl
      | cons c front =>
          simp only [List.cons_append, List.cons.injEq] at hbytes
          obtain ⟨rfl, hbytes⟩ := hbytes
          simp only [run, feed, if_neg (not_or.mpr ⟨hlow.not_gt, hhigh.not_gt⟩),
            if_neg hneeded.not_ge, List.nil_append]
          exact ih hbytes

theorem toNat_ofNat_of_lt {n : ℕ} (h : n < 256) : (UInt8.ofNat n).toNat = n := by
  rw [UInt8.toNat_ofNat']
  exact Nat.mod_eq_of_lt h

theorem toNat_tail (n : ℕ) : (UInt8.ofNat (n % 0x40 + 0x80)).toNat = n % 0x40 + 0x80 :=
  toNat_ofNat_of_lt (by omega)

theorem Owes.of_tail {n : ℕ} (hneeded : p.needed ≤ 1) (hlow : p.low ≤ n % 0x40 + 0x80)
    (hhigh : n % 0x40 + 0x80 ≤ p.high) (hpoint : point = 64 * p.point + n % 0x40) :
    Owes p [UInt8.ofNat (n % 0x40 + 0x80)] point := by
  have hnext : (p.next (UInt8.ofNat (n % 0x40 + 0x80))).point = point := by
    rw [Partial.next, toNat_tail, Nat.add_sub_cancel, hpoint]
  rw [← hnext]
  exact .last hneeded (by rwa [toNat_tail]) (by rwa [toNat_tail])

theorem Owes.of_tails {n : ℕ} (hneeded : 1 < p.needed) (hlow : p.low ≤ n % 0x40 + 0x80)
    (hhigh : n % 0x40 + 0x80 ≤ p.high)
    (howes : Owes (.ofLead (p.needed - 1) (64 * p.point + n % 0x40) 0x80 0xBF (by decide)
      (by decide)) bytes point) :
    Owes p (UInt8.ofNat (n % 0x40 + 0x80) :: bytes) point := by
  apply Owes.more hneeded (by rwa [toNat_tail]) (by rwa [toNat_tail])
  rw [Partial.next, toNat_tail, Nat.add_sub_cancel]
  exact howes

-- a first byte from 0xC2 on and the bytes that it asks for
def Encoded (bytes : List UInt8) (point : ℕ) : Prop :=
  ∃ (b : UInt8) (p : Partial) (tail : List UInt8),
    bytes = b :: tail ∧ 0xC2 ≤ b.toNat ∧ lead b = ([], some p) ∧ Owes p tail point

theorem encoded_two {v : ℕ} (hlow : 0x7f < v) (hhigh : v ≤ 0x7ff) :
    Encoded [UInt8.ofNat (v / 64 % 0x20 + 0xc0), UInt8.ofNat (v % 0x40 + 0x80)] v := by
  have hfirst : (UInt8.ofNat (v / 64 % 0x20 + 0xc0)).toNat = v / 64 + 0xc0 := by
    rw [toNat_ofNat_of_lt (by omega)]
    omega
  refine ⟨_, .ofLead 1 (v / 64) 0x80 0xBF (by decide) (by decide), _, rfl, by omega, ?_, ?_⟩
  · simp only [lead, hfirst, if_neg (show ¬v / 64 + 0xc0 < 0x80 by omega),
      if_neg (show ¬v / 64 + 0xc0 < 0xC2 by omega), if_pos (show v / 64 + 0xc0 < 0xE0 by omega),
      Nat.add_sub_cancel]
  · apply Owes.of_tail <;> simp only [Partial.ofLead] <;> omega

theorem encoded_three {v : ℕ} (hlow : 0x7ff < v) (hhigh : v ≤ 0xffff)
    (hvalid : v < 0xD800 ∨ 0xDFFF < v) :
    Encoded [UInt8.ofNat (v / 4096 % 0x10 + 0xe0), UInt8.ofNat (v / 64 % 0x40 + 0x80),
      UInt8.ofNat (v % 0x40 + 0x80)] v := by
  have hfirst : (UInt8.ofNat (v / 4096 % 0x10 + 0xe0)).toNat = v / 4096 + 0xe0 := by
    rw [toNat_ofNat_of_lt (by omega)]
    omega
  have hlead : ∃ p, lead (UInt8.ofNat (v / 4096 % 0x10 + 0xe0)) = ([], some p) ∧
      p.needed = 2 ∧ p.point = v / 4096 ∧ p.low ≤ v / 64 % 0x40 + 0x80 ∧
      v / 64 % 0x40 + 0x80 ≤ p.high := by
    simp only [lead, hfirst, if_neg (show ¬v / 4096 + 0xe0 < 0x80 by omega),
      if_neg (show ¬v / 4096 + 0xe0 < 0xC2 by omega),
      if_neg (show ¬v / 4096 + 0xe0 < 0xE0 by omega),
      if_pos (show v / 4096 + 0xe0 < 0xF0 by omega)]
    split_ifs
    all_goals refine ⟨_, rfl, rfl, ?_⟩
    all_goals simp only [Partial.ofLead]; omega
  obtain ⟨p, hp, hneeded, hpoint, hplow, hphigh⟩ := hlead
  refine ⟨_, p, _, rfl, by omega, hp, ?_⟩
  apply Owes.of_tails (by omega) hplow hphigh
  apply Owes.of_tail <;> simp only [Partial.ofLead] <;> omega

theorem encoded_four {v : ℕ} (hlow : 0xffff < v) (hvalid : v < 0x110000) :
    Encoded [UInt8.ofNat (v / 262144 % 0x08 + 0xf0), UInt8.ofNat (v / 4096 % 0x40 + 0x80),
      UInt8.ofNat (v / 64 % 0x40 + 0x80), UInt8.ofNat (v % 0x40 + 0x80)] v := by
  have hfirst : (UInt8.ofNat (v / 262144 % 0x08 + 0xf0)).toNat = v / 262144 + 0xf0 := by
    rw [toNat_ofNat_of_lt (by omega)]
    omega
  have hlead : ∃ p, lead (UInt8.ofNat (v / 262144 % 0x08 + 0xf0)) = ([], some p) ∧
      p.needed = 3 ∧ p.point = v / 262144 ∧ p.low ≤ v / 4096 % 0x40 + 0x80 ∧
      v / 4096 % 0x40 + 0x80 ≤ p.high := by
    simp only [lead, hfirst, if_neg (show ¬v / 262144 + 0xf0 < 0x80 by omega),
      if_neg (show ¬v / 262144 + 0xf0 < 0xC2 by omega),
      if_neg (show ¬v / 262144 + 0xf0 < 0xE0 by omega),
      if_neg (show ¬v / 262144 + 0xf0 = 0xE0 by omega),
      if_neg (show ¬v / 262144 + 0xf0 = 0xED by omega),
      if_neg (show ¬v / 262144 + 0xf0 < 0xF0 by omega)]
    split_ifs
    case neg => omega
    all_goals refine ⟨_, rfl, rfl, ?_⟩
    all_goals simp only [Partial.ofLead]; omega
  obtain ⟨p, hp, hneeded, hpoint, hplow, hphigh⟩ := hlead
  refine ⟨_, p, _, rfl, by omega, hp, ?_⟩
  apply Owes.of_tails (by omega) hplow hphigh
  apply Owes.of_tails
  · simp only [Partial.ofLead]
    omega
  · exact Nat.le_add_left ..
  · simp only [Partial.ofLead]
    omega
  apply Owes.of_tail <;> simp only [Partial.ofLead] <;> omega

theorem utf8EncodeChar_cases (c : Char) :
    (∃ b : UInt8, String.utf8EncodeChar c = [b] ∧ b.toNat = c.toNat ∧ b.toNat < 0x80) ∨
      Encoded (String.utf8EncodeChar c) c.toNat := by
  have hvalid : c.val.toNat < 0xD800 ∨ 0xDFFF < c.val.toNat ∧ c.val.toNat < 0x110000 := c.valid
  have hval : c.toNat = c.val.toNat := rfl
  rw [hval]
  unfold String.utf8EncodeChar
  dsimp only
  split
  next h =>
    have hbyte := toNat_ofNat_of_lt (show c.val.toNat < 256 by omega)
    exact .inl ⟨_, rfl, hbyte, by omega⟩
  next h =>
  split
  next h' => exact .inr (encoded_two (by omega) h')
  next h' =>
  split
  next h'' => exact .inr (encoded_three (by omega) h'' (by omega))
  next h'' => exact .inr (encoded_four (by omega) (by omega))

end Characters

section Texts

theorem not_continuation_of_lt {b : UInt8} (h : b.toNat < 0x80) : ¬Continuation b :=
  fun hb => absurd hb.1 (by omega)

theorem not_continuation_of_le {b : UInt8} (h : 0xC0 ≤ b.toNat) : ¬Continuation b :=
  fun hb => absurd hb.2 (by omega)

theorem run_lead (b : UInt8) (bytes : List UInt8) :
    run none (b :: bytes) = (lead b).1 ++ run (lead b).2 bytes := rfl

theorem lead_ascii {b : UInt8} (h : b.toNat < 0x80) : lead b = ([Char.ofNat b.toNat], none) :=
  if_pos h

theorem lead_continuation {b : UInt8} (h : Continuation b) : lead b = ([replacement], none) := by
  unfold lead
  rw [if_neg (show ¬b.toNat < 0x80 from h.1.not_gt),
    if_pos (show b.toNat < 0xC2 from lt_trans h.2 (by decide))]

theorem run_utf8EncodeChar (c : Char) (rest : List UInt8) :
    run none (String.utf8EncodeChar c ++ rest) = c :: run none rest := by
  rcases utf8EncodeChar_cases c with ⟨b, hbytes, hb, hascii⟩ | ⟨b, p, tail, hbytes, _, hlead, howes⟩
  · rw [hbytes, List.singleton_append, run_lead, lead_ascii hascii, hb, Char.ofNat_toNat]
    rfl
  · rw [hbytes, List.cons_append, run_lead, hlead, List.nil_append, howes.run_append,
      Char.ofNat_toNat]

theorem decode_encode_append (text : List Char) (rest : List UInt8) :
    decode (encode text ++ rest) = text ++ decode rest := by
  induction text with
  | nil => rfl
  | cons c text ih =>
      rw [encode, List.flatMap_cons, List.append_assoc, decode, run_utf8EncodeChar]
      exact congrArg (c :: ·) ih

theorem decode_encode (text : List Char) : decode (encode text) = text := by
  have h := decode_encode_append text []
  rwa [List.append_nil, show decode [] = [] from rfl, List.append_nil] at h

theorem encode_append (a b : List Char) : encode (a ++ b) = encode a ++ encode b :=
  List.flatMap_append

theorem encode_cons (c : Char) (text : List Char) :
    encode (c :: text) = String.utf8EncodeChar c ++ encode text := rfl

theorem utf8EncodeChar_head (c : Char) :
    ∃ b tail, String.utf8EncodeChar c = b :: tail ∧ ¬Continuation b := by
  rcases utf8EncodeChar_cases c with ⟨b, hbytes, _, hascii⟩ | ⟨b, _, tail, hbytes, hfirst, _, _⟩
  · exact ⟨b, [], hbytes, not_continuation_of_lt hascii⟩
  · exact ⟨b, tail, hbytes, not_continuation_of_le (by omega)⟩

-- a character that is cut leaves a replacement before the cut and continuations after it
theorem utf8EncodeChar_cut {c : Char} {front back : List UInt8}
    (hbytes : String.utf8EncodeChar c = front ++ back) (hfront : front ≠ []) (hback : back ≠ []) :
    decode front = [replacement] ∧ ∀ b ∈ back, Continuation b := by
  cases front with
  | nil => exact absurd rfl hfront
  | cons b front =>
      rcases utf8EncodeChar_cases c with ⟨d, hone, _, _⟩ | ⟨d, p, tail, hmany, _, hlead, howes⟩
      · rw [hone, List.cons_append, List.cons.injEq] at hbytes
        exact absurd (List.append_eq_nil_iff.mp hbytes.2.symm).2 hback
      · rw [hmany, List.cons_append, List.cons.injEq] at hbytes
        obtain ⟨rfl, htail⟩ := hbytes
        constructor
        · rw [decode, run_lead, hlead, List.nil_append]
          exact howes.run_of_append htail hback
        · intro b' hb'
          exact howes.continuation b' (htail ▸ List.mem_append_right front hb')

theorem decode_continuation_append {bytes : List UInt8} (h : ∀ b ∈ bytes, Continuation b)
    (rest : List UInt8) :
    decode (bytes ++ rest) = List.replicate bytes.length replacement ++ decode rest := by
  induction bytes with
  | nil => rfl
  | cons b bytes ih =>
      rw [List.cons_append, decode, run_lead, lead_continuation (h b (List.mem_cons_self ..))]
      exact congrArg (replacement :: ·) (ih fun d hd => h d (List.mem_cons_of_mem b hd))

theorem run_ascii (state : Option Partial) {b : UInt8} (h : b.toNat < 0x80)
    (front back : List UInt8) :
    run state (front ++ b :: back) = run state front ++ Char.ofNat b.toNat :: decode back := by
  induction front generalizing state with
  | nil =>
      cases state with
      | none =>
          rw [List.nil_append, run_lead, lead_ascii h]
          rfl
      | some p =>
          have hlow : b.toNat < p.low := lt_of_lt_of_le h p.low_ge
          simp only [List.nil_append, run, feed, if_pos (Or.inl hlow), lead_ascii h]
          rfl
  | cons d front ih => cases state <;> simp only [List.cons_append, run, List.append_assoc, ih]

theorem decode_ascii {b : UInt8} (h : b.toNat < 0x80) (front back : List UInt8) :
    decode (front ++ b :: back) = decode front ++ Char.ofNat b.toNat :: decode back :=
  run_ascii none h front back

theorem utf8EncodeChar_ascii {c : Char} (h : c.toNat < 0x80) :
    String.utf8EncodeChar c = [UInt8.ofNat c.toNat] := by
  unfold String.utf8EncodeChar
  exact if_pos (Nat.le_of_lt_succ h)

theorem mem_encode_ascii {c : Char} (h : c.toNat < 0x80) {text : List Char}
    (hmem : UInt8.ofNat c.toNat ∈ encode text) : c ∈ text := by
  obtain ⟨d, hd, hbyte⟩ := List.mem_flatMap.mp hmem
  have hvalue : (UInt8.ofNat c.toNat).toNat = c.toNat := toNat_ofNat_of_lt (by omega)
  rcases utf8EncodeChar_cases d with ⟨b, hbytes, hb, _⟩ | ⟨b, p, tail, hbytes, hfirst, _, howes⟩
  · rw [hbytes, List.mem_singleton] at hbyte
    have hsame : c.toNat = d.toNat := by rw [← hvalue, hbyte, hb]
    rw [← Char.ofNat_toNat c, hsame, Char.ofNat_toNat]
    exact hd
  · rw [hbytes] at hbyte
    rcases List.mem_cons.mp hbyte with heq | htail
    · rw [← heq, hvalue] at hfirst
      omega
    · have hcont := (howes.continuation _ htail).1
      omega

end Texts

section Chunks

def Continuations (bytes : List UInt8) : Prop := ∀ b ∈ bytes, Continuation b

theorem decode_continuations {bytes : List UInt8} (h : Continuations bytes) :
    decode bytes = List.replicate bytes.length replacement := by
  have hdecode := decode_continuation_append h []
  rwa [List.append_nil, show decode [] = [] from rfl, List.append_nil] at hdecode

def StartsInside (chunk : List UInt8) : Prop := ∃ b rest, chunk = b :: rest ∧ Continuation b

theorem startsInside_append {bytes : List UInt8} (h : Continuations bytes) (hne : bytes ≠ [])
    (rest : List UInt8) : StartsInside (bytes ++ rest) := by
  cases bytes with
  | nil => exact absurd rfl hne
  | cons b bytes => exact ⟨b, bytes ++ rest, rfl, h b (List.mem_cons_self ..)⟩

theorem not_startsInside_encode_append (text : List Char) {rest : List UInt8}
    (hrest : ¬StartsInside rest) : ¬StartsInside (encode text ++ rest) := by
  cases text with
  | nil => exact hrest
  | cons c text =>
      rintro ⟨b, bytes, hbytes, hb⟩
      obtain ⟨d, tail, hc, hd⟩ := utf8EncodeChar_head c
      rw [encode_cons, hc, List.cons_append, List.cons_append, List.cons.injEq] at hbytes
      exact hd (hbytes.1 ▸ hb)

theorem not_startsInside_nil : ¬StartsInside [] := fun ⟨_, _, h, _⟩ => (by cases h)

-- the chunks of a text, of which the bytes `owed` end a character that an earlier chunk began,
-- and what decoding them one by one gives
inductive Cuts : List UInt8 → List Char → List (List UInt8) → List Char → Prop
  | nil : Cuts [] [] [] []
  | inside {bytes owed : List UInt8} {text : List Char} {chunks : List (List UInt8)}
      {received : List Char} (hbytes : Continuations bytes) (h : Cuts owed text chunks received) :
      Cuts (bytes ++ owed) text (bytes :: chunks) (List.replicate bytes.length replacement ++ received)
  | whole {owed : List UInt8} (read : List Char) {text : List Char} {chunks : List (List UInt8)}
      {received : List Char} (howed : Continuations owed) (h : Cuts [] text chunks received) :
      Cuts owed (read ++ text) ((owed ++ encode read) :: chunks)
        (List.replicate owed.length replacement ++ (read ++ received))
  | broken {owed front back : List UInt8} (read : List Char) {c : Char} {text : List Char}
      {chunks : List (List UInt8)} {received : List Char} (howed : Continuations owed)
      (hfront : front ≠ []) (hback : back ≠ []) (hc : String.utf8EncodeChar c = front ++ back)
      (h : Cuts back text chunks received) :
      Cuts owed (read ++ c :: text) ((owed ++ (encode read ++ front)) :: chunks)
        (List.replicate owed.length replacement ++ (read ++ replacement :: received))

-- where a prefix of an encoded text ends: between two characters or inside one
theorem encode_eq_append {text : List Char} {front back : List UInt8}
    (h : encode text = front ++ back) :
    (∃ read rest, text = read ++ rest ∧ front = encode read ∧ back = encode rest) ∨
      ∃ read c rest cut owed, text = read ++ c :: rest ∧ String.utf8EncodeChar c = cut ++ owed ∧
        cut ≠ [] ∧ owed ≠ [] ∧ front = encode read ++ cut ∧ back = owed ++ encode rest := by
  induction text generalizing front with
  | nil =>
      obtain ⟨rfl, rfl⟩ := List.append_eq_nil_iff.mp h.symm
      exact .inl ⟨[], [], rfl, rfl, rfl⟩
  | cons c text ih =>
      rw [encode_cons] at h
      rcases List.append_eq_append_iff.mp h with ⟨more, hfront, htext⟩ | ⟨owed, hchar, hback⟩
      · rcases ih htext with ⟨read, rest, rfl, rfl, rfl⟩ |
          ⟨read, d, rest, cut, owed, rfl, hd, hcut, howed, rfl, rfl⟩
        · exact .inl ⟨c :: read, rest, rfl, hfront, rfl⟩
        · refine .inr ⟨c :: read, d, rest, cut, owed, rfl, hd, hcut, howed, ?_, rfl⟩
          rw [hfront, encode_cons, List.append_assoc]
      · rcases eq_or_ne front [] with rfl | hfront
        · refine .inl ⟨[], c :: text, rfl, rfl, ?_⟩
          rw [hback, encode_cons, hchar, List.nil_append]
        · rcases eq_or_ne owed [] with rfl | howed
          · refine .inl ⟨[c], text, rfl, ?_, ?_⟩
            · rw [← List.append_nil front, ← hchar]
              exact (List.append_nil _).symm
            · rwa [List.nil_append] at hback
          · exact .inr ⟨[], c, text, front, owed, rfl, hchar, hfront, howed, rfl, hback⟩

theorem cuts_of_flatten {owed : List UInt8} (howed : Continuations owed) {text : List Char}
    {chunks : List (List UInt8)} (h : chunks.flatten = owed ++ encode text) :
    Cuts owed text chunks (chunks.flatMap decode) := by
  induction chunks generalizing owed text with
  | nil =>
      obtain ⟨rfl, htext⟩ := List.append_eq_nil_iff.mp h.symm
      cases text with
      | nil => exact .nil
      | cons c text =>
          obtain ⟨b, tail, hc, _⟩ := utf8EncodeChar_head c
          rw [encode_cons, hc] at htext
          cases htext
  | cons chunk chunks ih =>
      rw [List.flatten_cons] at h
      rw [List.flatMap_cons]
      rcases List.append_eq_append_iff.mp h with ⟨more, rfl, hrest⟩ | ⟨front, rfl, hrest⟩
      · have hchunk : Continuations chunk := fun b hb => howed b (List.mem_append_left more hb)
        have hmore : Continuations more := fun b hb => howed b (List.mem_append_right chunk hb)
        rw [decode_continuations hchunk]
        exact .inside hchunk (ih hmore hrest)
      · rw [decode_continuation_append howed, List.append_assoc]
        rcases encode_eq_append hrest with ⟨read, rest, rfl, rfl, hback⟩ |
          ⟨read, c, rest, cut, back, rfl, hc, hcut, hback, rfl, hflat⟩
        · rw [decode_encode]
          exact .whole read howed (ih (fun _ h => (by cases h)) hback)
        · obtain ⟨hfront, hconts⟩ := utf8EncodeChar_cut hc hcut hback
          rw [decode_encode_append, hfront, List.append_assoc]
          exact .broken read howed hcut hback hc (ih hconts hflat)

variable {owed : List UInt8} {text : List Char} {chunks : List (List UInt8)}
  {received : List Char}

theorem Cuts.exists_startsInside (h : Cuts owed text chunks received) (howed : owed ≠ []) :
    ∃ chunk ∈ chunks, StartsInside chunk := by
  induction h with
  | nil => exact absurd rfl howed
  | @inside bytes owed _ _ _ hbytes _ ih =>
      rcases eq_or_ne bytes [] with rfl | hne
      · obtain ⟨chunk, hchunk, hinside⟩ := ih howed
        exact ⟨chunk, List.mem_cons_of_mem _ hchunk, hinside⟩
      · refine ⟨bytes, List.mem_cons_self .., ?_⟩
        have hinside := startsInside_append hbytes hne []
        rwa [List.append_nil] at hinside
  | whole _ hconts _ _ => exact ⟨_, List.mem_cons_self .., startsInside_append hconts howed _⟩
  | broken _ hconts _ _ _ _ _ =>
      exact ⟨_, List.mem_cons_self .., startsInside_append hconts howed _⟩

theorem Cuts.eq_text (h : Cuts owed text chunks received) (howed : owed = [])
    (hunbroken : ∀ chunk ∈ chunks, ¬StartsInside chunk) : received = text := by
  induction h with
  | nil => rfl
  | inside _ _ ih =>
      obtain ⟨rfl, rfl⟩ := List.append_eq_nil_iff.mp howed
      exact ih rfl fun chunk hchunk => hunbroken chunk (List.mem_cons_of_mem _ hchunk)
  | whole read _ _ ih =>
      rw [howed]
      exact congrArg (read ++ ·) (ih rfl fun chunk hchunk =>
        hunbroken chunk (List.mem_cons_of_mem _ hchunk))
  | broken _ _ _ hback _ h _ =>
      obtain ⟨chunk, hchunk, hinside⟩ := h.exists_startsInside hback
      exact absurd hinside (hunbroken chunk (List.mem_cons_of_mem _ hchunk))

theorem Cuts.mem_received (h : Cuts owed text chunks received) {c : Char} (hc : c ∈ received) :
    c = replacement ∨ c ∈ text := by
  induction h with
  | nil => exact absurd hc List.not_mem_nil
  | inside _ _ ih =>
      rcases List.mem_append.mp hc with hc | hc
      · exact .inl (List.eq_of_mem_replicate hc)
      · exact ih hc
  | whole read _ _ ih =>
      rcases List.mem_append.mp hc with hc | hc
      · exact .inl (List.eq_of_mem_replicate hc)
      · rcases List.mem_append.mp hc with hc | hc
        · exact .inr (List.mem_append_left _ hc)
        · exact (ih hc).imp_right (List.mem_append_right read)
  | broken read _ _ _ _ _ ih =>
      rcases List.mem_append.mp hc with hc | hc
      · exact .inl (List.eq_of_mem_replicate hc)
      · rcases List.mem_append.mp hc with hc | hc
        · exact .inr (List.mem_append_left _ hc)
        · rcases List.mem_cons.mp hc with hc | hc
          · exact .inl hc
          · exact (ih hc).imp_right fun h => List.mem_append_right read (List.mem_cons_of_mem _ h)

theorem Cuts.count_le (h : Cuts owed text chunks received) :
    owed.length + text.count replacement ≤ received.count replacement := by
  induction h with
  | nil => exact le_refl _
  | inside _ _ ih =>
      rw [List.length_append, List.count_append, List.count_replicate_self]
      omega
  | whole read _ _ ih =>
      rw [List.count_append, List.count_append, List.count_append, List.count_replicate_self]
      rw [List.length_nil] at ih
      omega
  | @broken _ _ back read c _ _ _ _ _ hback _ _ ih =>
      have hlength := List.length_pos_iff.mpr hback
      have hone : List.count replacement [c] ≤ 1 := List.count_le_length
      rw [List.count_append, List.count_append, List.count_append, List.count_replicate_self,
        List.count_cons_self]
      rw [← List.singleton_append, List.count_append]
      omega

theorem Cuts.count_lt (h : Cuts owed text chunks received) (howed : owed = [])
    (hbroken : ∃ chunk ∈ chunks, StartsInside chunk) :
    text.count replacement < received.count replacement := by
  induction h with
  | nil =>
      obtain ⟨chunk, hchunk, _⟩ := hbroken
      exact absurd hchunk List.not_mem_nil
  | inside _ _ ih =>
      obtain ⟨rfl, rfl⟩ := List.append_eq_nil_iff.mp howed
      obtain ⟨chunk, hchunk, hinside⟩ := hbroken
      rcases List.mem_cons.mp hchunk with rfl | hchunk
      · exact absurd hinside not_startsInside_nil
      · exact ih rfl ⟨chunk, hchunk, hinside⟩
  | whole read _ _ ih =>
      obtain ⟨chunk, hchunk, hinside⟩ := hbroken
      rcases List.mem_cons.mp hchunk with rfl | hchunk
      · rw [howed, List.nil_append, ← List.append_nil (encode read)] at hinside
        exact absurd hinside (not_startsInside_encode_append read not_startsInside_nil)
      · have hlt := ih rfl ⟨chunk, hchunk, hinside⟩
        rw [List.count_append, List.count_append, List.count_append]
        omega
  | @broken _ _ back read c _ _ _ _ _ hback _ h _ =>
      have hle := h.count_le
      have hlength := List.length_pos_iff.mpr hback
      have hone : List.count replacement [c] ≤ 1 := List.count_le_length
      rw [List.count_append, List.count_append, List.count_append, List.count_cons_self]
      rw [← List.singleton_append, List.count_append]
      omega

end Chunks

end Utf8
