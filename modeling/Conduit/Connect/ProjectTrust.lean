import Conduit.Connect.Local
import Conduit.Foundation.Delimited
import Conduit.Foundation.TomlTables

namespace Conduit.Connect

open LineSearch

def project (dir : String) : Toml.Path := [("projects", 0), (dir, 0)]

def trustPlace (dir : String) : Toml.Place := ⟨project dir, "trust_level"⟩

-- the text that was written gives the project one trust level, which is `trusted`, and keeps every
-- other line
structure TrustsProject (dir content written : String) : Prop where
  trusted : ∃ items, Toml.read written.toList = some items ∧ Toml.Valid items ∧
    (Toml.textsAt (trustPlace dir) items).map Toml.stringValue = [some "trusted"]
  kept : ∀ items, Toml.read content.toList = some items →
    (Toml.Context.linesBeside (trustPlace dir) {} items).Sublist (Toml.lines written.toList)
  stable : ensureCodexProjectTrusted dir (some written) = written

section Conditions

def BeginsStatement (before : List Char) : Prop :=
  Lines.remainder '\n' before = [] ∧ (Toml.read before).isSome = true

def AtRoot (before : List Char) : Prop :=
  (Toml.read before).map (fun items => (Toml.Context.after {} (Toml.statements items)).current) =
    some []

def firstLine (text : List Char) : List Char := text.takeWhile (· ≠ '\n')

-- the line that a text begins with is a statement of its own
def OwnLine (text : List Char) : Prop :=
  (∀ c ∈ Toml.trimReturn (firstLine text), isLineTerminator c = false) ∧
    (Toml.read (firstLine text)).isSome = true

-- the white space at the end is at most one empty line
def Tidy (content : List Char) : Prop :=
  Toml.lines content = Toml.lines (trimEnd content) ∨
    (trimEnd content ≠ [] ∧ Toml.lines content = Toml.lines (trimEnd content) ++ [[]])

-- what a header of the project and a trust level under it declare
def trustDeclarations (dir : String) : List Toml.Declaration :=
  [⟨⟨[], "projects"⟩, .implied⟩, ⟨⟨[("projects", 0)], dir⟩, .table⟩, ⟨trustPlace dir, .value⟩]

def NoArrays (dir : String) (items : List Toml.Item) : Prop :=
  ∀ d ∈ Toml.declarations items, d.kind = .element →
    d.place ≠ ⟨[], "projects"⟩ ∧ d.place ≠ ⟨[("projects", 0)], dir⟩

-- the texts that the edit looks for stand where the file's statements have them, each on a line
-- of its own
structure Plain (dir : String) (content : List Char) (items : List Toml.Item) : Prop where
  quotable : Toml.Quotable dir
  arrays : NoArrays dir items
  dotted : ∀ before after, content = before ++ after → StartsLine true before →
    matchAssignment (dottedTrustKey dir) after ≠ none →
      BeginsStatement before ∧ AtRoot before ∧ OwnLine after
  header : ∀ before after, content = before ++ ((trustSectionHeader dir).toList ++ after) →
    StartsLine true before → BeginsStatement before
  first : ∀ before after, content = before ++ ((trustSectionHeader dir).toList ++ '\n' :: after) →
    StartsLine true before → OwnLine after
  tidy : findLine (matchAssignment (dottedTrustKey dir)) true content = none →
    findLine (matchTrustSection dir) true content = none → Tidy content

def Unset (dir : String) (items : List Toml.Item) : Prop :=
  ∀ d ∈ Toml.declarations items, d.place ≠ trustPlace dir

def Unclaimed (dir : String) (items : List Toml.Item) : Prop :=
  ∀ d ∈ Toml.declarations items, ∀ d' ∈ trustDeclarations dir, d.Agrees d'

-- the dotted key is there, or the section begins with its trust level, or with an empty line and
-- has none, or nothing of the project is there
def Editable (dir : String) (content : List Char) (items : List Toml.Item) : Prop :=
  match findLine (matchAssignment (dottedTrustKey dir)) true content,
      findLine (matchTrustSection dir) true content with
  | some _, _ => True
  | none, some (_, line, _) => matchTrustLevel line ≠ none ∨ (line = [] ∧ Unset dir items)
  | none, none => Unclaimed dir items

end Conditions

section Texts

variable (dir : String)

def projectTexts : List (List Char) := ["projects".toList, (Json.quote dir).toList]

def trustTexts : List (List Char) := projectTexts dir ++ ["trust_level".toList]

theorem trustSectionHeader_toList :
    (trustSectionHeader dir).toList = Toml.header (projectTexts dir) := by
  rw [trustSectionHeader, String.toList_append, String.toList_append]
  rfl

theorem dottedTrustKey_toList : (dottedTrustKey dir).toList = Toml.dotted (trustTexts dir) := by
  rw [dottedTrustKey, String.toList_append, String.toList_append]
  simp [Toml.dotted, trustTexts, projectTexts, toTomlString]

theorem trustLine_toList :
    trustLine.toList = Toml.assignment ["trust_level".toList] (Json.quote "trusted").toList := by
  rfl

theorem spelled_trust_level : Toml.Spelled ["trust_level".toList] ["trust_level"] :=
  .cons (.bare (by decide) (Text.forall_mem rfl)) .nil

theorem spelled_projectTexts {dir : String} (h : Toml.Quotable dir) :
    Toml.Spelled (projectTexts dir) ["projects", dir] :=
  .cons (.bare (by decide) (Text.forall_mem rfl)) (.cons (.quote h) .nil)

theorem spelled_trustTexts {dir : String} (h : Toml.Quotable dir) :
    Toml.Spelled (trustTexts dir) ["projects", dir, "trust_level"] :=
  .cons (.bare (by decide) (Text.forall_mem rfl))
    (.cons (.quote h) spelled_trust_level)

theorem header_printable : ∀ c ∈ (trustSectionHeader dir).toList, 32 ≤ c.toNat := by
  intro c hc
  rw [trustSectionHeader, String.toList_append, String.toList_append, List.mem_append,
    List.mem_append] at hc
  rcases hc with (hc | hc) | hc
  · have hlead : ∀ c ∈ "[projects.".toList, 32 ≤ c.toNat := Text.forall_mem rfl
    exact hlead c hc
  · exact Toml.quote_printable dir c hc
  · have hlead : ∀ c ∈ "]".toList, 32 ≤ c.toNat := Text.forall_mem rfl
    exact hlead c hc

theorem dotted_printable : ∀ c ∈ (dottedTrustKey dir).toList, 32 ≤ c.toNat := by
  intro c hc
  rw [dottedTrustKey, String.toList_append, String.toList_append, List.mem_append,
    List.mem_append] at hc
  rcases hc with (hc | hc) | hc
  · have hlead : ∀ c ∈ "projects.".toList, 32 ≤ c.toNat := Text.forall_mem rfl
    exact hlead c hc
  · exact Toml.quote_printable dir c hc
  · have hlead : ∀ c ∈ ".trust_level".toList, 32 ≤ c.toNat := Text.forall_mem rfl
    exact hlead c hc

theorem newline_not_mem {text : List Char} (h : ∀ c ∈ text, 32 ≤ c.toNat) : '\n' ∉ text := by
  intro hmem
  exact absurd (h _ hmem) (by decide)

theorem dotted_head : ∃ rest, (dottedTrustKey dir).toList = 'p' :: rest := by
  rw [dottedTrustKey, String.toList_append, String.toList_append]
  exact ⟨_, rfl⟩

theorem header_head : ∃ rest, (trustSectionHeader dir).toList = '[' :: rest := by
  rw [trustSectionHeader, String.toList_append, String.toList_append]
  exact ⟨_, rfl⟩

end Texts

section Matching

theorem matchAssignment_ne_none {key : String} {text : List Char} :
    matchAssignment key text ≠ none ↔
      ∃ rest value, text = key.toList ++ rest ∧ trimStart rest = '=' :: value := by
  unfold matchAssignment
  constructor
  · intro h
    obtain ⟨e, he⟩ := Option.ne_none_iff_exists'.mp h
    obtain ⟨rest, hrest, he⟩ := Option.bind_eq_some_iff.mp he
    split at he
    next value hvalue => exact ⟨rest, value, Text.afterPrefix_eq_some.1 hrest, hvalue⟩
    next => cases he
  · rintro ⟨rest, value, rfl, hvalue⟩
    rw [Text.afterPrefix_eq_some.2 rfl, Option.bind_some]
    split
    next => exact Option.some_ne_none _
    next hne => exact absurd hvalue (hne value)

theorem matchTrustSection_eq_none {dir : String} {text : List Char} :
    matchTrustSection dir text = none ↔ ¬ (trustSectionHeader dir).toList ++ ['\n'] <+: text := by
  rw [matchTrustSection, Option.map_eq_none_iff, Text.afterPrefix_eq_none]

-- a text without a line feed that reaches into a line feed does not reach over it
theorem prefix_of_newline {key b y : List Char} (hkey : '\n' ∉ key)
    (hb : b.getLast? = some '\n' ∨ y.head? = some '\n') (h : key <+: b ++ y) : key <+: b := by
  rcases Delimited.prefix_append_cases h with h | ⟨u, rfl, hu⟩
  · exact h
  · rcases hb with hb | hy
    · exact absurd (List.mem_append_left _ (List.mem_of_getLast? hb)) hkey
    · cases u with
      | nil => exact ⟨[], by simp⟩
      | cons c u =>
          obtain ⟨rest, rfl⟩ := hu
          cases Option.some.inj hy
          exact absurd (List.mem_append_right _ List.mem_cons_self) hkey

theorem trimStart_append (a b : List Char) :
    trimStart (a ++ b) = if trimStart a = [] then trimStart b else trimStart a ++ b := by
  induction a with
  | nil => rfl
  | cons c a ih =>
      unfold trimStart at ih ⊢
      rw [List.cons_append]
      cases hc : Text.isSpace c with
      | true => rw [List.dropWhile_cons_of_pos hc, List.dropWhile_cons_of_pos hc, ih]
      | false =>
          rw [List.dropWhile_cons_of_neg (by simp [hc]), List.dropWhile_cons_of_neg (by simp [hc])]
          rfl

-- an assignment that is found before other text is found before the text it replaces
theorem matchAssignment_transfer {key : String} {b x y : List Char} (hkey : '\n' ∉ key.toList)
    (hb : b.getLast? = some '\n' ∨ y.head? = some '\n') (hy : (trimStart y).head? ≠ some '=')
    (h : matchAssignment key (b ++ x) = none) : matchAssignment key (b ++ y) = none := by
  by_contra hne
  obtain ⟨rest, value, htext, hvalue⟩ := matchAssignment_ne_none.1 hne
  obtain ⟨tail, rfl⟩ := prefix_of_newline hkey hb ⟨rest, htext.symm⟩
  rw [List.append_assoc] at htext
  obtain rfl := List.append_cancel_left htext
  rw [trimStart_append] at hvalue
  split at hvalue
  next => exact hy (by rw [hvalue]; rfl)
  next htail =>
    obtain ⟨c, more, hmore⟩ := List.exists_cons_of_ne_nil htail
    rw [hmore] at hvalue
    obtain ⟨rfl, -⟩ := List.cons.inj hvalue
    refine matchAssignment_ne_none.2 ⟨tail ++ x, more ++ x, List.append_assoc _ _ _, ?_⟩ h
    rw [trimStart_append, if_neg htail, hmore]
    rfl

theorem section_prefix_iff {dir : String} {b x : List Char} (hb : b.getLast? = some '\n') :
    (trustSectionHeader dir).toList ++ ['\n'] <+: b ++ x ↔
      (trustSectionHeader dir).toList ++ ['\n'] <+: b := by
  constructor
  · intro h
    rcases Delimited.prefix_append_cases h with h | ⟨u, hu, -⟩
    · exact h
    · cases hlast : u.reverse with
      | nil =>
          rw [List.reverse_eq_nil_iff.mp hlast, List.append_nil] at hu
          exact ⟨[], by rw [List.append_nil, hu]⟩
      | cons c v =>
          have hu' : u = v.reverse ++ [c] := by rw [← List.reverse_cons, ← hlast, List.reverse_reverse]
          rw [hu', ← List.append_assoc] at hu
          have hheader := (List.append_inj' hu rfl).1
          have hmem : '\n' ∈ (trustSectionHeader dir).toList := by
            rw [hheader]
            exact List.mem_append_left _ (List.mem_of_getLast? hb)
          exact absurd hmem (newline_not_mem (header_printable dir))
  · exact fun h => h.trans (List.prefix_append b x)

end Matching

section Stability

variable {dir : String}

theorem matchAssignment_of_head {key : String} {c c' : Char} {rest text : List Char}
    (hkey : key.toList = c :: rest) (hc : c ≠ c') : matchAssignment key (c' :: text) = none := by
  by_contra hne
  obtain ⟨tail, value, htext, -⟩ := matchAssignment_ne_none.1 hne
  rw [hkey] at htext
  exact hc (List.cons.inj htext).1.symm

theorem matchAssignment_nil {key : String} {c : Char} {rest : List Char}
    (hkey : key.toList = c :: rest) : matchAssignment key [] = none := by
  by_contra hne
  obtain ⟨tail, value, htext, -⟩ := matchAssignment_ne_none.1 hne
  rw [hkey] at htext
  cases htext

-- a line of the text, up to a line terminator or the end
def AtLineEnd (text : List Char) : Prop := ∀ c ∈ text.head?, isLineTerminator c = true

theorem atLineEnd_lineEnd (text : List Char) : AtLineEnd (lineEnd text) := by
  intro c hc
  have hhead := List.head?_dropWhile_not (fun c => !isLineTerminator c) text
  unfold lineEnd at hc
  rw [show (text.dropWhile fun c => !isLineTerminator c).head? = some c from hc] at hhead
  simpa using hhead

theorem lineEnd_append {line rest : List Char} (hline : ∀ c ∈ line, isLineTerminator c = false)
    (hrest : AtLineEnd rest) : lineEnd (line ++ rest) = rest := by
  unfold lineEnd
  rw [List.dropWhile_append_of_pos (by intro c hc; simp [hline c hc])]
  cases rest with
  | nil => rfl
  | cons c rest => exact List.dropWhile_cons_of_neg (by simp [hrest c rfl])

theorem takeWhile_line {line rest : List Char} (hline : ∀ c ∈ line, isLineTerminator c = false)
    (hrest : AtLineEnd rest) : (line ++ rest).takeWhile (fun c => !isLineTerminator c) = line := by
  rw [List.takeWhile_append_of_pos (by intro c hc; simp [hline c hc])]
  cases rest with
  | nil => simp
  | cons c rest => simp [hrest c rfl]

theorem endLine_append {lead : List Char} (hlead : lead.getLast? ≠ some '\n') (rest : List Char) :
    endLine (lead ++ rest) = lead ++ endLine rest := by
  unfold endLine endsWithNewline
  cases rest with
  | nil =>
      rw [List.append_nil, decide_eq_false hlead]
      rfl
  | cons c rest =>
      rw [List.getLast?_append_of_ne_nil _ (List.cons_ne_nil c rest)]
      split
      next => rfl
      next => exact List.append_assoc _ _ _

theorem endLine_concat (text : List Char) : endLine (text ++ ['\n']) = text ++ ['\n'] := by
  unfold endLine endsWithNewline
  rw [List.getLast?_concat]
  rfl

theorem endLine_cases (text : List Char) :
    endLine text = text ∨ endLine text = text ++ ['\n'] := by
  unfold endLine
  split
  next => exact .inl rfl
  next => exact .inr rfl

theorem endLine_endLine (text : List Char) : endLine (endLine text) = endLine text := by
  rcases endLine_cases text with h | h
  · rw [h, h]
  · rw [h, endLine_concat]

theorem atLineEnd_endLine {text : List Char} (h : AtLineEnd text) : AtLineEnd (endLine text) := by
  rcases endLine_cases text with heq | heq
  · rwa [heq]
  · rw [heq]
    cases text with
    | nil =>
        intro c hc
        cases hc
        decide
    | cons d text => exact h

theorem noMatch_endLine {key : String} {c : Char} {rest : List Char} (hkey : key.toList = c :: rest)
    (hnewline : '\n' ∉ key.toList) {text : List Char}
    (h : NoMatch (matchAssignment key) true text) :
    NoMatch (matchAssignment key) true (endLine text) := by
  rcases endLine_cases text with heq | heq
  · rwa [heq]
  · rw [heq]
    intro before after htext hstart
    rcases List.append_eq_append_iff.mp htext with ⟨b, rfl, hb⟩ | ⟨b, rfl, rfl⟩
    · cases b with
      | nil =>
          rw [← show ['\n'] = after from hb]
          exact matchAssignment_of_head hkey (fun hc => hnewline (by rw [hkey, hc]; exact List.mem_cons_self))
      | cons d b =>
          have hafter : after = [] := by
            cases b with
            | nil => exact (List.cons.inj hb).2.symm
            | cons _ _ => cases (List.cons.inj hb).2
          rw [hafter]
          exact matchAssignment_nil hkey
    · have hb := h before b rfl hstart
      rw [← List.append_nil b] at hb
      exact matchAssignment_transfer hnewline (.inr rfl) (by decide) hb

theorem dotted_newline : '\n' ∉ (dottedTrustKey dir).toList := newline_not_mem (dotted_printable dir)

theorem trustLine_plain : ∀ c ∈ trustLine.toList, isLineTerminator c = false :=
  Text.forall_mem rfl

theorem trustLine_last : trustLine.toList.getLast? = some '"' := rfl

theorem trustLine_ne_nil : trustLine.toList ≠ [] := List.cons_ne_nil _ _

theorem trustLine_matches : matchTrustLevel trustLine.toList ≠ none := Option.some_ne_none []

theorem trustLine_head (rest : List Char) : ∃ tail, trustLine.toList ++ rest = 't' :: tail :=
  ⟨_, rfl⟩

theorem trimStart_trustLine (rest : List Char) : (trimStart (trustLine.toList ++ rest)).head? = some 't' :=
  rfl

theorem noMatch_trustLine {rest : List Char}
    (h : NoMatch (matchAssignment (dottedTrustKey dir)) false rest) :
    NoMatch (matchAssignment (dottedTrustKey dir)) true (trustLine.toList ++ rest) := by
  obtain ⟨tail, hdotted⟩ := dotted_head dir
  refine noMatch_true_iff.2 ⟨?_, (noMatch_append trustLine_plain).mpr h⟩
  exact matchAssignment_of_head hdotted (by decide)

-- the text behind a line break in front of which no dotted key stands may be exchanged
theorem noMatch_exchange {lead x y : List Char} (hlead : lead.getLast? = some '\n')
    (hx : NoMatch (matchAssignment (dottedTrustKey dir)) true (lead ++ x))
    (hhead : (trimStart y).head? ≠ some '=')
    (hy : NoMatch (matchAssignment (dottedTrustKey dir)) true y) :
    NoMatch (matchAssignment (dottedTrustKey dir)) true (lead ++ y) := by
  refine noMatch_split ?_ hy
  intro before b hb hne hstart
  have hlast : b.getLast? = some '\n' := by
    rw [hb, List.getLast?_append_of_ne_nil _ hne] at hlead
    exact hlead
  refine matchAssignment_transfer (x := x) dotted_newline (.inl hlast) hhead ?_
  exact hx before (b ++ x) (by rw [hb, List.append_assoc]) hstart

-- a text and the line of the project's header
def upToHeader (dir : String) (before : List Char) : List Char :=
  before ++ ((trustSectionHeader dir).toList ++ ['\n'])

theorem upToHeader_last (before : List Char) : (upToHeader dir before).getLast? = some '\n' := by
  rw [upToHeader, ← List.append_assoc, List.getLast?_concat]

theorem upToHeader_append (before rest : List Char) : upToHeader dir before ++ rest =
    before ++ ((trustSectionHeader dir).toList ++ '\n' :: rest) := by
  simp [upToHeader]

theorem matchTrustSection_header (rest : List Char) :
    matchTrustSection dir ((trustSectionHeader dir).toList ++ '\n' :: rest) =
      some (rest.takeWhile (fun c => !isLineTerminator c), lineEnd rest) := by
  have hleads : Text.afterPrefix ((trustSectionHeader dir).toList ++ ['\n'])
      ((trustSectionHeader dir).toList ++ '\n' :: rest) = some rest :=
    Text.afterPrefix_eq_some.2 (by simp)
  rw [matchTrustSection, hleads]
  rfl

theorem matchTrustSection_eq_some {text : List Char} {e : List Char × List Char}
    (h : matchTrustSection dir text = some e) : ∃ rest,
      text = (trustSectionHeader dir).toList ++ '\n' :: rest ∧
        e = (rest.takeWhile (fun c => !isLineTerminator c), lineEnd rest) := by
  obtain ⟨rest, hrest, rfl⟩ := Option.map_eq_some_iff.mp h
  refine ⟨rest, ?_, rfl⟩
  rw [Text.afterPrefix_eq_some.1 hrest]
  simp

-- where no header stands before the text of one
def FirstHeader (dir : String) (before rest : List Char) : Prop :=
  StartsLine true before ∧ ∀ shorter b, before = shorter ++ b → b ≠ [] → StartsLine true shorter →
    matchTrustSection dir (b ++ ((trustSectionHeader dir).toList ++ '\n' :: rest)) = none

theorem firstHeader_iff {before rest : List Char} {e : List Char × List Char} :
    FirstMatch (matchTrustSection dir) true (upToHeader dir before ++ rest) before e ↔
      FirstHeader dir before rest ∧
        e = (rest.takeWhile (fun c => !isLineTerminator c), lineEnd rest) := by
  constructor
  · intro h
    obtain ⟨after, hafter, he⟩ := h.found
    rw [upToHeader_append] at hafter
    obtain rfl := List.append_cancel_left hafter
    rw [matchTrustSection_header] at he
    refine ⟨⟨h.starts, ?_⟩, (Option.some.inj he).symm⟩
    intro shorter b hb hne hstart
    refine h.first shorter _ ?_ ?_ hstart
    · rw [upToHeader_append, hb, List.append_assoc]
    · rw [hb, List.length_append]
      exact Nat.lt_add_of_pos_right (List.length_pos_iff.mpr hne)
  · rintro ⟨⟨hstarts, hfirst⟩, rfl⟩
    refine ⟨⟨_, upToHeader_append _ _, matchTrustSection_header _⟩, hstarts, ?_⟩
    intro shorter after htext hlength hstart
    rw [upToHeader_append] at htext
    rcases List.append_eq_append_iff.mp htext with ⟨b, rfl, hb⟩ | ⟨b, rfl, rfl⟩
    · rw [List.length_append] at hlength
      omega
    · cases b with
      | nil =>
          rw [List.append_nil] at hlength
          exact absurd hlength (Nat.lt_irrefl _)
      | cons d b => exact hfirst shorter (d :: b) rfl (List.cons_ne_nil _ _) hstart

theorem FirstHeader.exchange {before x : List Char} (h : FirstHeader dir before x)
    (y : List Char) : FirstHeader dir before y := by
  refine ⟨h.1, ?_⟩
  intro shorter b hb hne hstart
  have hx := h.2 shorter b hb hne hstart
  have hlast : (b ++ ((trustSectionHeader dir).toList ++ ['\n'])).getLast? = some '\n' :=
    upToHeader_last b
  have hjoin : ∀ rest : List Char, b ++ ((trustSectionHeader dir).toList ++ '\n' :: rest) =
      (b ++ ((trustSectionHeader dir).toList ++ ['\n'])) ++ rest := by simp
  rw [matchTrustSection_eq_none, hjoin, section_prefix_iff hlast] at hx ⊢
  exact hx

theorem trustProject_section {before rest : List Char}
    (hdotted : NoMatch (matchAssignment (dottedTrustKey dir)) true (upToHeader dir before ++ rest))
    (hheader : FirstHeader dir before rest) :
    trustProject dir (upToHeader dir before ++ rest) = upToHeader dir before ++
      (updateTrustBody (rest.takeWhile fun c => !isLineTerminator c) ++ lineEnd rest) := by
  unfold trustProject
  rw [findLine_eq_none.2 hdotted]
  dsimp only
  rw [findLine_of_firstMatch (firstHeader_iff.2 ⟨hheader, rfl⟩)]
  simp [upToHeader]

theorem matchTrustLevel_line {line : List Char} (hline : ∀ c ∈ line, isLineTerminator c = false)
    {rest : List Char} (h : matchTrustLevel line = some rest) : rest = [] := by
  obtain ⟨tail, htail, h⟩ := Option.bind_eq_some_iff.mp h
  split at h
  next value hvalue =>
    cases h
    have hmem : ∀ c ∈ value, c ∈ line := by
      intro c hc
      rw [Text.afterPrefix_eq_some.1 htail]
      refine List.mem_append_right _ ((List.dropWhile_sublist Text.isSpace).mem ?_)
      rw [show tail.dropWhile Text.isSpace = '=' :: value from hvalue]
      exact List.mem_cons_of_mem _ hc
    have hend : lineEnd (value ++ []) = [] :=
      lineEnd_append (fun c hc => hline c (hmem c hc)) (by intro c hc; cases hc)
    rwa [List.append_nil] at hend
  next => cases h

theorem updateTrustBody_of_trust {line : List Char}
    (hline : ∀ c ∈ line, isLineTerminator c = false) (h : matchTrustLevel line ≠ none) :
    updateTrustBody line = trustLine.toList := by
  obtain ⟨rest, hrest⟩ := Option.ne_none_iff_exists'.mp h
  rw [updateTrustBody, findLine_single hline, hrest, matchTrustLevel_line hline hrest]
  simp

theorem updateTrustBody_of_other {line : List Char}
    (hline : ∀ c ∈ line, isLineTerminator c = false) (h : matchTrustLevel line = none) :
    updateTrustBody line = trimEnd line ++
      (if trimEnd (trimStart line) = [] then [] else ['\n']) ++ trustLine.toList ++ ['\n'] := by
  rw [updateTrustBody, findLine_single hline, h]
  rfl

-- a text whose section begins with the line of trust is not changed
theorem trustProject_stable {before rest : List Char} (hrest : AtLineEnd rest)
    (hdotted : NoMatch (matchAssignment (dottedTrustKey dir)) true
      (upToHeader dir before ++ (trustLine.toList ++ rest)))
    (hheader : FirstHeader dir before (trustLine.toList ++ rest)) :
    trustProject dir (upToHeader dir before ++ (trustLine.toList ++ rest)) =
      upToHeader dir before ++ (trustLine.toList ++ rest) := by
  rw [trustProject_section hdotted hheader, takeWhile_line trustLine_plain hrest,
    lineEnd_append trustLine_plain hrest,
    updateTrustBody_of_trust trustLine_plain trustLine_matches]

theorem ensure_stable {before rest : List Char} (hrest : AtLineEnd rest)
    (hdotted : NoMatch (matchAssignment (dottedTrustKey dir)) true
      (upToHeader dir before ++ (trustLine.toList ++ rest)))
    (hheader : FirstHeader dir before (trustLine.toList ++ rest)) :
    endLine (trustProject dir (endLine (upToHeader dir before ++ (trustLine.toList ++ rest)))) =
      endLine (upToHeader dir before ++ (trustLine.toList ++ rest)) := by
  have hlast : (upToHeader dir before ++ trustLine.toList).getLast? ≠ some '\n' := by
    rw [List.getLast?_append_of_ne_nil _ trustLine_ne_nil, trustLine_last]
    decide
  have hend : endLine (upToHeader dir before ++ (trustLine.toList ++ rest)) =
      upToHeader dir before ++ (trustLine.toList ++ endLine rest) := by
    rw [← List.append_assoc, endLine_append hlast, List.append_assoc]
  obtain ⟨tail, hdottedKey⟩ := dotted_head dir
  have hnone := noMatch_endLine hdottedKey dotted_newline hdotted
  have hagain := endLine_endLine (upToHeader dir before ++ (trustLine.toList ++ rest))
  rw [hend] at hnone hagain ⊢
  rw [trustProject_stable (atLineEnd_endLine hrest) hnone (hheader.exchange _), hagain]

end Stability

section Reading

variable {dir : String}

theorem read_behind {before after : List Char} {items : List Toml.Item}
    (hbefore : BeginsStatement before) (h : Toml.read (before ++ after) = some items) :
    ∃ first rest, Toml.read before = some first ∧ Toml.read after = some rest ∧
      items = first ++ rest := by
  obtain ⟨first, hfirst⟩ := Option.isSome_iff_exists.mp hbefore.2
  rw [Toml.read_append hbefore.1 hfirst] at h
  obtain ⟨rest, hrest, rfl⟩ := Option.map_eq_some_iff.mp h
  exact ⟨first, rest, hfirst, hrest, rfl⟩

theorem trimReturn_printable {text : List Char} (h : ∀ c ∈ text, 32 ≤ c.toNat) :
    Toml.trimReturn text = text :=
  Toml.trimReturn_of_not_mem fun hmem => absurd (h _ hmem) (by decide)

theorem lines_printable {text : List Char} (h : ∀ c ∈ text, 32 ≤ c.toNat) (rest : List Char) :
    Toml.lines (text ++ '\n' :: rest) = text :: Toml.lines rest := by
  rw [Toml.lines_cons (newline_not_mem h), trimReturn_printable h]

def headerItem (dir : String) : Toml.Item :=
  ⟨[(trustSectionHeader dir).toList], .table ["projects", dir]⟩

theorem readLine_trustSection (h : Toml.Quotable dir) (rest : List Char) :
    Toml.readLine ((trustSectionHeader dir).toList ++ rest) =
      if Toml.endsLine rest then
        some (none, [⟨[(trustSectionHeader dir).toList ++ rest], .table ["projects", dir]⟩])
      else none := by
  rw [trustSectionHeader_toList,
    Toml.readLine_header (spelled_projectTexts h) (List.cons_ne_nil _ _)]

theorem readLine_headerItem (h : Toml.Quotable dir) :
    Toml.readLine (trustSectionHeader dir).toList = some (none, [headerItem dir]) := by
  have hline := readLine_trustSection h []
  rw [List.append_nil] at hline
  exact hline

theorem read_upToHeader (h : Toml.Quotable dir) {before : List Char} {first : List Toml.Item}
    (hbefore : Lines.remainder '\n' before = []) (hfirst : Toml.read before = some first) :
    Toml.read (upToHeader dir before) = some (first ++ [headerItem dir]) := by
  have hheader : Toml.read ((trustSectionHeader dir).toList ++ ['\n']) = some [headerItem dir] := by
    rw [Toml.read, lines_printable (header_printable dir), Toml.readLines_cons (readLine_headerItem h)]
    rfl
  rw [upToHeader, Toml.read_append hbefore hfirst, hheader]
  rfl

theorem upToHeader_remainder (before : List Char) :
    Lines.remainder '\n' (upToHeader dir before) = [] := by
  rw [upToHeader, ← List.append_assoc]
  exact Lines.remainder_concat_sep _

theorem NoArrays.count_projects {items : List Toml.Item} (h : NoArrays dir items) :
    (Toml.Context.after {} (Toml.statements items)).opened.count ⟨[], "projects"⟩ = 0 :=
  Toml.count_opened fun hmem => (h _ hmem rfl).1 rfl

theorem NoArrays.count_dir {items : List Toml.Item} (h : NoArrays dir items) :
    (Toml.Context.after {} (Toml.statements items)).opened.count ⟨[("projects", 0)], dir⟩ = 0 :=
  Toml.count_opened fun hmem => (h _ hmem rfl).2 rfl

theorem descend_project {items : List Toml.Item} (h : NoArrays dir items) :
    Toml.descend (Toml.Context.after {} (Toml.statements items)).opened [] ["projects", dir] =
      project dir := by
  rw [Toml.descend, Toml.descend, h.count_projects, List.nil_append, h.count_dir]
  rfl

theorem NoArrays.left {xs ys : List Toml.Item} (h : NoArrays dir (xs ++ ys)) : NoArrays dir xs := by
  intro d hd hkind
  refine h d ?_ hkind
  rw [Toml.declarations_append]
  exact List.mem_append_left _ hd

-- behind its header the project's table is open
theorem current_headerItem {xs : List Toml.Item} (h : NoArrays dir xs) :
    (Toml.Context.after {} (Toml.statements (xs ++ [headerItem dir]))).current = project dir := by
  rw [Toml.statements_append, Toml.Context.after_append]
  exact descend_project h

theorem toNat_of_isBare {c : Char} (h : Toml.isBare c = true) : 44 < c.toNat ∧ c.toNat < 123 := by
  rw [Toml.isBare, Bool.or_eq_true, Bool.or_eq_true, decide_eq_true_eq, decide_eq_true_eq] at h
  rcases h with (h | rfl) | rfl
  · change ((decide (c.val ≥ 'A'.val ∧ c.val ≤ 'Z'.val) || (c.val ≥ 'a'.val && c.val ≤ 'z'.val)) ||
      (c.val ≥ '0'.val && c.val ≤ '9'.val)) = true at h
    simp only [Bool.or_eq_true, Bool.and_eq_true, decide_eq_true_eq, UInt32.le_iff_toNat_le,
      ge_iff_le] at h
    have hval : c.toNat = c.val.toNat := rfl
    have hA : 'A'.val.toNat = 65 := rfl
    have ha : 'a'.val.toNat = 97 := rfl
    have hZ : 'Z'.val.toNat = 90 := rfl
    have hz : 'z'.val.toNat = 122 := rfl
    have hzero : '0'.val.toNat = 48 := rfl
    have hnine : '9'.val.toNat = 57 := rfl
    omega
  · decide
  · decide

theorem toNat_of_isSpace {c : Char} (h : Text.isSpace c = true) : c.toNat ≤ 32 ∨ 127 < c.toNat := by
  rw [Text.isSpace, Bool.or_eq_true, List.contains_iff_mem, Bool.and_eq_true, decide_eq_true_eq,
    decide_eq_true_eq] at h
  simp only [List.mem_cons, List.not_mem_nil, or_false] at h
  omega

theorem not_isBare_of_isSpace {c : Char} (h : Text.isSpace c = true) : Toml.isBare c = false := by
  cases hbare : Toml.isBare c with
  | false => rfl
  | true =>
      have hlow := toNat_of_isBare hbare
      have hspace := toNat_of_isSpace h
      omega

theorem isSpace_of_isBlank {c : Char} (h : Toml.isBlank c = true) : Text.isSpace c = true := by
  rw [Toml.isBlank, Bool.or_eq_true, decide_eq_true_eq, decide_eq_true_eq] at h
  rcases h with rfl | rfl <;> decide

theorem trimStart_skip (text : List Char) : trimStart (Toml.skip text) = trimStart text := by
  induction text with
  | nil => rfl
  | cons c text ih =>
      cases hc : Toml.isBlank c with
      | true =>
          have hskip : Toml.skip (c :: text) = Toml.skip text := List.dropWhile_cons_of_pos hc
          have htrim : trimStart (c :: text) = trimStart text :=
            List.dropWhile_cons_of_pos (isSpace_of_isBlank hc)
          rw [hskip, htrim, ih]
      | false =>
          have hskip : Toml.skip (c :: text) = c :: text := List.dropWhile_cons_of_neg (by simp [hc])
          rw [hskip]

-- a text whose first sign is an equals sign ends a key
theorem key_ends {rest value : List Char} (h : trimStart rest = '=' :: value) :
    (∀ c ∈ rest.head?, Toml.isBare c = false) ∧ (Toml.skip rest).head? ≠ some '.' := by
  constructor
  · intro c hc
    cases rest with
    | nil => cases hc
    | cons d rest =>
        obtain rfl := Option.some.inj hc
        cases hspace : Text.isSpace d with
        | true => exact not_isBare_of_isSpace hspace
        | false =>
            have htrim : trimStart (d :: rest) = d :: rest :=
              List.dropWhile_cons_of_neg (by simp [hspace])
            rw [htrim] at h
            rw [(List.cons.inj h).1]
            decide
  · intro hdot
    obtain ⟨tail, htail⟩ : ∃ tail, Toml.skip rest = '.' :: tail := by
      cases hskip : Toml.skip rest with
      | nil =>
          rw [hskip] at hdot
          cases hdot
      | cons c tail =>
          rw [hskip] at hdot
          cases Option.some.inj hdot
          exact ⟨tail, rfl⟩
    have htrim := trimStart_skip rest
    rw [htail, h] at htrim
    have hpoint : trimStart ('.' :: tail) = '.' :: tail := List.dropWhile_cons_of_neg (by decide)
    rw [hpoint] at htrim
    exact absurd (List.cons.inj htrim).1 (by decide)

theorem statement_of_assigned {texts : List (List Char)} {keys : List String}
    (h : Toml.Spelled texts keys) (hne : keys ≠ []) {rest value : List Char}
    {items : List Toml.Item} (hvalue : trimStart rest = '=' :: value)
    (hread : Toml.readLine (Toml.dotted texts ++ rest) = some (none, items)) :
    ∃ text, items = [⟨[Toml.dotted texts ++ rest], .entry keys text⟩] := by
  obtain ⟨hrest, hdot⟩ := key_ends hvalue
  obtain ⟨-, text, -, -, -, hitems⟩ := Toml.readLine_assigns h hne hrest hdot hread
  exact ⟨_, hitems⟩

theorem statement_of_trustLevel {line : List Char} {items : List Toml.Item}
    (h : matchTrustLevel line ≠ none) (hread : Toml.readLine line = some (none, items)) :
    ∃ text, items = [⟨[line], .entry ["trust_level"] text⟩] := by
  obtain ⟨e, he⟩ := Option.ne_none_iff_exists'.mp h
  obtain ⟨rest, hrest, he⟩ := Option.bind_eq_some_iff.mp he
  split at he
  next value hvalue =>
    rw [Text.afterPrefix_eq_some.1 hrest] at hread ⊢
    exact statement_of_assigned spelled_trust_level (List.cons_ne_nil _ _) hvalue hread
  next => cases he

-- the first line of a text, what stands behind it, and how the lines change with it
structure LineSplit (text line : List Char) (below : List Toml.Line) (s : Toml.Statement) :
    Prop where
  plain : ∀ c ∈ line, isLineTerminator c = false
  split : text = line ++ lineEnd text
  reads : Toml.readLine line = some (none, [⟨[line], s⟩])
  lines : ∀ other : List Char, (∀ c ∈ other, isLineTerminator c = false) →
    other ≠ [] ∨ lineEnd text ≠ [] → Toml.lines (other ++ lineEnd text) = other :: below
  last : lineEnd text = [] → below = []
  ends : ∀ c ∈ (lineEnd text).head?, c = '\n' ∨ c = '\r'

theorem trimReturn_cases (line : List Char) :
    line = Toml.trimReturn line ∨ line = Toml.trimReturn line ++ ['\r'] := by
  unfold Toml.trimReturn
  split
  next h => exact .inr (List.dropLast_append_getLast? _ h).symm
  next => exact .inl rfl

theorem plain_newline {line : List Char} (h : ∀ c ∈ line, isLineTerminator c = false) :
    '\n' ∉ line ∧ '\r' ∉ line :=
  ⟨fun hmem => absurd (h _ hmem) (by decide), fun hmem => absurd (h _ hmem) (by decide)⟩

theorem lines_first {line tail : List Char} (hline : '\n' ∉ line) (hne : line ≠ [] ∨ tail ≠ [])
    (htail : tail = [] ∨ ∃ rest, tail = '\n' :: rest) :
    Toml.lines (line ++ tail) = Toml.trimReturn line :: Toml.lines tail.tail := by
  rcases htail with rfl | ⟨rest, rfl⟩
  · rw [List.append_nil, Toml.lines_last hline (hne.elim id (absurd rfl ·))]
    rfl
  · rw [Toml.lines_cons hline]
    rfl

-- a line that may end in a carriage return, and the line feed and the lines behind it
theorem lines_of_line {line return_ tail : List Char} (hline : ∀ c ∈ line, isLineTerminator c = false)
    (hreturn : return_ = [] ∨ return_ = ['\r']) (htail : tail = [] ∨ ∃ rest, tail = '\n' :: rest)
    (hne : line ≠ [] ∨ return_ ++ tail ≠ []) :
    Toml.lines (line ++ (return_ ++ tail)) = line :: Toml.lines tail.tail := by
  obtain ⟨hnewline, hcarriage⟩ := plain_newline hline
  have htrim : Toml.trimReturn (line ++ return_) = line := by
    rcases hreturn with rfl | rfl
    · rw [List.append_nil, Toml.trimReturn_of_not_mem hcarriage]
    · exact Toml.trimReturn_concat line
  have hmem : '\n' ∉ line ++ return_ := by
    rcases hreturn with rfl | rfl
    · simpa using hnewline
    · simpa using hnewline
  have hjoin : line ++ return_ ≠ [] ∨ tail ≠ [] := by
    rcases hne with h | h
    · exact .inl (List.append_ne_nil_of_left_ne_nil h _)
    · by_cases hempty : return_ = []
      · rw [hempty, List.nil_append] at h
        exact .inr h
      · exact .inl (List.append_ne_nil_of_right_ne_nil _ hempty)
  rw [← List.append_assoc, lines_first hmem hjoin htail, htrim]

theorem split_newline (text : List Char) : ∃ tail, text = firstLine text ++ tail ∧
    '\n' ∉ firstLine text ∧ (tail = [] ∨ ∃ rest, tail = '\n' :: rest) := by
  refine ⟨text.dropWhile (· ≠ '\n'), (List.takeWhile_append_dropWhile).symm, ?_, ?_⟩
  · intro hmem
    exact absurd (List.mem_takeWhile_imp hmem) (by decide)
  · cases hdrop : text.dropWhile (· ≠ '\n') with
    | nil => exact .inl rfl
    | cons c rest =>
        have hhead := List.head?_dropWhile_not (fun c : Char => decide (c ≠ '\n')) text
        rw [hdrop] at hhead
        have hc : c = '\n' := by simpa using hhead
        exact .inr ⟨rest, by rw [hc]⟩

theorem OwnLine.split {text : List Char} (h : OwnLine text) :
    ∃ line below s, LineSplit text line below s := by
  obtain ⟨hplain, hread⟩ := h
  obtain ⟨tail, htext, hfirst, htail⟩ := split_newline text
  generalize hraw : firstLine text = raw at hplain hread htext hfirst
  generalize hline : Toml.trimReturn raw = line at hplain
  obtain ⟨return_, hreturn, hjoin⟩ : ∃ return_ : List Char,
      (return_ = [] ∨ return_ = ['\r']) ∧ raw = line ++ return_ := by
    rcases trimReturn_cases raw with hcase | hcase
    · exact ⟨[], .inl rfl, by rw [List.append_nil, ← hline]; exact hcase⟩
    · exact ⟨['\r'], .inr rfl, by rw [← hline]; exact hcase⟩
  have hend : AtLineEnd (return_ ++ tail) := by
    intro c hc
    rcases hreturn with rfl | rfl
    · rcases htail with rfl | ⟨rest, rfl⟩
      · cases hc
      · cases Option.some.inj hc
        decide
    · cases Option.some.inj hc
      decide
  have hsplit : text = line ++ (return_ ++ tail) := by rw [htext, hjoin, List.append_assoc]
  have hlineEnd : lineEnd text = return_ ++ tail := by rw [hsplit, lineEnd_append hplain hend]
  obtain ⟨s, hs⟩ : ∃ s, Toml.readLine line = some (none, [⟨[line], s⟩]) := by
    cases hempty : raw with
    | nil =>
        have hnil : line = [] := by rw [← hline, hempty]; rfl
        rw [hnil]
        exact ⟨.blank, rfl⟩
    | cons c rest =>
        obtain ⟨items, hitems⟩ := Option.isSome_iff_exists.mp hread
        rw [Toml.read, Toml.lines_last hfirst (by rw [hempty]; exact List.cons_ne_nil _ _), hline] at hitems
        have hitem := Toml.readLines_singleton.1 hitems
        obtain ⟨s, rfl⟩ := Toml.readLine_none hitem
        exact ⟨s, hitem⟩
  refine ⟨line, Toml.lines tail.tail, s, hplain, ?_, hs, ?_, ?_, ?_⟩
  · rw [hlineEnd]
    exact hsplit
  · intro other hother hne
    rw [hlineEnd] at hne ⊢
    exact lines_of_line hother hreturn htail hne
  · intro hempty
    rw [hlineEnd] at hempty
    rw [(List.append_eq_nil_iff.mp hempty).2]
    rfl
  · rw [hlineEnd]
    intro c hc
    rcases hreturn with rfl | rfl
    · rcases htail with rfl | ⟨rest, rfl⟩
      · cases hc
      · exact .inl (Option.some.inj hc).symm
    · exact .inr (Option.some.inj hc).symm

theorem lines_endLine {text : List Char} (hne : text ≠ []) :
    Toml.lines (endLine text) = Toml.lines text := by
  unfold endLine endsWithNewline
  split
  next => rfl
  next hlast =>
    cases hc : text.getLast? with
    | none => exact absurd (List.getLast?_eq_none_iff.mp hc) hne
    | some c =>
        refine Toml.lines_concat (Toml.remainder_ne_nil hc ?_)
        rintro rfl
        exact hlast (decide_eq_true hc)

theorem read_endLine {text : List Char} (hne : text ≠ []) :
    Toml.read (endLine text) = Toml.read text := by
  rw [Toml.read, lines_endLine hne, Toml.read]

theorem stringValue_trusted :
    Toml.stringValue (Json.quote "trusted").toList = some "trusted" := by rfl

-- what the text that is written has to be
def Rewrites (dir : String) (items : List Toml.Item) (text : List Char) : Prop :=
  (∃ items', Toml.read text = some items' ∧ Toml.Valid items' ∧
    (Toml.textsAt (trustPlace dir) items').map Toml.stringValue = [some "trusted"]) ∧
  (Toml.Context.linesBeside (trustPlace dir) {} items).Sublist (Toml.lines text)

theorem valid_of_declarations {xs ys : List Toml.Item}
    (h : Toml.declarations xs = Toml.declarations ys) : Toml.Valid xs ↔ Toml.Valid ys := by
  rw [Toml.Valid, Toml.Valid, h]

-- the line of an entry of trust may be exchanged for another one of the same keys
theorem rewrites_line {lead text line new : List Char} {below : List Toml.Line} {keys : List String}
    {value : List Char} {first items : List Toml.Item} (hlead : Lines.remainder '\n' lead = [])
    (hfirst : Toml.read lead = some first) (hsplit : LineSplit text line below (.entry keys value))
    (hline : line ≠ []) (hread : Toml.read (lead ++ text) = some items) (hvalid : Toml.Valid items)
    (hplace : Toml.placeOf (Toml.Context.after {} (Toml.statements first)).opened
      (Toml.Context.after {} (Toml.statements first)).current keys = some (trustPlace dir))
    (hnew : ∀ c ∈ new, isLineTerminator c = false) (hne : new ≠ [])
    (hnewRead : Toml.readLine new =
      some (none, [⟨[new], .entry keys (Json.quote "trusted").toList⟩])) :
    Rewrites dir items (lead ++ (new ++ lineEnd text)) := by
  have htext : Toml.lines text = line :: below := by
    have hlines := hsplit.lines line hsplit.plain (.inl hline)
    rwa [← hsplit.split] at hlines
  rw [Toml.read_append hlead hfirst] at hread
  obtain ⟨rest, hrest, rfl⟩ := Option.map_eq_some_iff.mp hread
  rw [Toml.read, htext, Toml.readLines_cons hsplit.reads] at hrest
  obtain ⟨later, hlater, rfl⟩ := Option.map_eq_some_iff.mp hrest
  have hlines : Toml.lines (lead ++ (new ++ lineEnd text)) =
      Toml.lines lead ++ new :: below := by
    rw [Toml.lines_append hlead, hsplit.lines new hnew (.inl hne)]
  have hwritten : Toml.read (lead ++ (new ++ lineEnd text)) =
      some (first ++ ⟨[new], .entry keys (Json.quote "trusted").toList⟩ :: later) := by
    rw [Toml.read, hlines, Toml.readLines_append hfirst, Toml.readLines_cons hnewRead, hlater]
    rfl
  have hvalid' : Toml.Valid
      (first ++ ⟨[new], .entry keys (Json.quote "trusted").toList⟩ :: later) := by
    refine (valid_of_declarations ?_).mp hvalid
    rw [Toml.declarations_append, Toml.declarations_append]
    rfl
  have hassigned : ∀ text, (Toml.Context.after {} (Toml.statements first)).assigned
      (.entry keys text) = some (trustPlace dir, text) := by
    intro text
    rw [Toml.Context.assigned, hplace]
    rfl
  refine ⟨⟨_, hwritten, hvalid', ?_⟩, ?_⟩
  · rw [hvalid'.textsAt (hassigned _), List.map_singleton, stringValue_trusted]
  · rw [hvalid.linesBeside (hassigned _), hlines, Toml.read_lines hfirst]
    have hlaterLines : later.flatMap (·.lines) = below := by
      have hbelow := Toml.advance_lines (Toml.readLines_eq_some.1 hlater)
      simpa [Toml.held] using hbelow
    rw [hlaterLines]
    exact (List.Sublist.refl _).append (List.sublist_cons_self _ _)

end Reading

section Inserting

variable {dir : String}

def trustItem : Toml.Item :=
  ⟨[trustLine.toList], .entry ["trust_level"] (Json.quote "trusted").toList⟩

theorem readLine_trustItem : Toml.readLine trustLine.toList = some (none, [trustItem]) := by
  rw [trustItem, trustLine_toList]
  exact Toml.readLine_assignment spelled_trust_level (List.cons_ne_nil _ _) (.quote "trusted")

theorem trustLine_printable : ∀ c ∈ trustLine.toList, 32 ≤ c.toNat :=
  Text.forall_mem rfl

variable {first rest items : List Toml.Item} {lead text : List Char}

theorem assigned_trustItem
    (hcurrent : (Toml.Context.after {} (Toml.statements first)).current = project dir) :
    (Toml.Context.after {} (Toml.statements first)).assigned trustItem.statement =
      some (trustPlace dir, (Json.quote "trusted").toList) := by
  rw [trustItem, Toml.Context.assigned, hcurrent]
  rfl

-- a trust level may be added to the open section where nothing sets it yet
theorem valid_insert
    (hcurrent : (Toml.Context.after {} (Toml.statements first)).current = project dir) :
    Toml.Valid (first ++ trustItem :: rest) ↔
      Toml.Valid (first ++ rest) ∧ Unset dir (first ++ rest) := by
  have hdeclarations : Toml.declarations (first ++ trustItem :: rest) = _ ++ ⟨trustPlace dir, .value⟩ :: _ :=
    Toml.declarations_entry rfl hcurrent
  rw [Toml.Valid, hdeclarations, Toml.pairwise_value, ← Toml.declarations_append]
  exact Iff.rfl

theorem linesBeside_unset {items : List Toml.Item} {text : List Char} (h : Unset dir items)
    (hread : Toml.read text = some items) :
    Toml.Context.linesBeside (trustPlace dir) {} items = Toml.lines text := by
  rw [Toml.Context.linesBeside_eq, Toml.read_lines hread]
  intro e he
  exact h _ (Toml.Context.mem_declarations_of_assignments he)

theorem read_insert (hlead : Lines.remainder '\n' lead = []) (hfirst : Toml.read lead = some first)
    (text : List Char) : Toml.read (lead ++ (trustLine.toList ++ '\n' :: text)) =
      (Toml.read text).map fun rest => first ++ trustItem :: rest := by
  rw [Toml.read_append hlead hfirst, Toml.read, lines_printable trustLine_printable,
    Toml.readLines_cons readLine_trustItem, Option.map_map, Toml.read]
  rfl

theorem lines_insert (hlead : Lines.remainder '\n' lead = []) :
    Toml.lines (lead ++ (trustLine.toList ++ '\n' :: text)) =
      Toml.lines lead ++ trustLine.toList :: Toml.lines text := by
  rw [Toml.lines_append hlead, lines_printable trustLine_printable]

theorem rewrites_insert (hlead : Lines.remainder '\n' lead = [])
    (hfirst : Toml.read lead = some first) (hread : Toml.read (lead ++ text) = some items)
    (hvalid : Toml.Valid items)
    (hcurrent : (Toml.Context.after {} (Toml.statements first)).current = project dir) :
    Rewrites dir items (lead ++ (trustLine.toList ++ '\n' :: text)) ↔ Unset dir items := by
  have hwhole := hread
  rw [Toml.read_append hlead hfirst] at hread
  obtain ⟨rest, hrest, rfl⟩ := Option.map_eq_some_iff.mp hread
  have hwritten := read_insert hlead hfirst text
  rw [hrest, Option.map_some] at hwritten
  constructor
  · rintro ⟨⟨items', hitems', hvalid', -⟩, -⟩
    rw [hwritten] at hitems'
    cases hitems'
    exact ((valid_insert hcurrent).mp hvalid').2
  · intro hunset
    have hvalid' := (valid_insert hcurrent).mpr ⟨hvalid, hunset⟩
    refine ⟨⟨_, hwritten, hvalid', ?_⟩, ?_⟩
    · rw [hvalid'.textsAt (assigned_trustItem hcurrent), List.map_singleton, stringValue_trusted]
    · rw [linesBeside_unset hunset hwhole, lines_insert hlead, Toml.lines_append hlead]
      exact (List.Sublist.refl _).append (List.sublist_cons_self _ _)

theorem trimEnd_eq_nil {text : List Char} : trimEnd text = [] ↔ ∀ c ∈ text, Text.isSpace c = true := by
  rw [trimEnd, List.reverse_eq_nil_iff, List.dropWhile_eq_nil_iff]
  simp

theorem trimStart_eq_nil {text : List Char} :
    trimStart text = [] ↔ ∀ c ∈ text, Text.isSpace c = true := by
  rw [trimStart, List.dropWhile_eq_nil_iff]

theorem trimEnd_trimStart_eq_nil {text : List Char} :
    trimEnd (trimStart text) = [] ↔ trimEnd text = [] := by
  rw [trimEnd_eq_nil, trimEnd_eq_nil]
  constructor
  · intro h
    by_contra hne
    have htrim : trimStart text ≠ [] := trimStart_eq_nil.not.mpr hne
    obtain ⟨c, rest, hrest⟩ := List.exists_cons_of_ne_nil htrim
    have hhead := List.head?_dropWhile_not Text.isSpace text
    rw [show text.dropWhile Text.isSpace = c :: rest from hrest] at hhead
    have hc := h c (by rw [hrest]; exact List.mem_cons_self)
    simp [hc] at hhead
  · intro h c hc
    exact h c ((List.dropWhile_sublist _).mem hc)

theorem readSimpleKey_of_other {c : Char} {rest : List Char} (hbare : Toml.isBare c = false)
    (hbasic : c ≠ '"') (hliteral : c ≠ '\x27') : Toml.readSimpleKey (c :: rest) = none := by
  rw [Toml.readSimpleKey, if_neg hbasic, if_neg hliteral, if_neg (by simp [hbare])]

-- a line that reads is blank, or begins with a sign that is neither white space nor an equals sign
theorem readLine_starts {line : List Char} {items : List Toml.Item}
    (h : Toml.readLine line = some (none, items)) :
    Toml.skip line = [] ∨
      ∃ c rest, Toml.skip line = c :: rest ∧ Text.isSpace c = false ∧ c ≠ '=' := by
  cases hskip : Toml.skip line with
  | nil => exact .inl rfl
  | cons c rest =>
      refine .inr ⟨c, rest, rfl, ?_⟩
      by_contra hne
      have hc : Text.isSpace c = true ∨ c = '=' := by
        cases hspace : Text.isSpace c with
        | true => exact .inl rfl
        | false =>
            refine .inr ?_
            by_contra hequals
            exact hne ⟨hspace, hequals⟩
      have hother : ∀ d : Char, Text.isSpace d = false → d ≠ '=' → c ≠ d := by
        rintro d hd hd' rfl
        rcases hc with hc | hc
        · rw [hd] at hc
          cases hc
        · exact hd' hc
      have hbare : Toml.isBare c = false := by
        rcases hc with hc | rfl
        · exact not_isBare_of_isSpace hc
        · decide
      have hkey : Toml.readKey (c :: rest) = none := by
        rw [Toml.readKey, List.length_cons, Toml.readDotted, readSimpleKey_of_other hbare
          (hother _ (by decide) (by decide)) (hother _ (by decide) (by decide))]
        rfl
      unfold Toml.readLine at h
      rw [hskip] at h
      dsimp only at h
      rw [if_neg (hother _ (by decide) (by decide)), if_neg (hother _ (by decide) (by decide)),
        Toml.readEntry, hkey] at h
      cases h

theorem trimStart_head {line : List Char} {items : List Toml.Item}
    (h : Toml.readLine line = some (none, items)) : (trimStart line).head? ≠ some '=' := by
  rw [← trimStart_skip]
  rcases readLine_starts h with hskip | ⟨c, rest, hskip, hspace, hequals⟩
  · rw [hskip]
    exact (by decide : (none : Option Char) ≠ some '=')
  · rw [hskip, show trimStart (c :: rest) = c :: rest from
      List.dropWhile_cons_of_neg (by simp [hspace])]
    exact fun heq => hequals (Option.some.inj heq)

theorem blank_of_spaces {line : List Char} {s : Toml.Statement}
    (hspaces : ∀ c ∈ line, Text.isSpace c = true)
    (h : Toml.readLine line = some (none, [⟨[line], s⟩])) : s = .blank := by
  rcases readLine_starts h with hskip | ⟨c, rest, hskip, hspace, -⟩
  · unfold Toml.readLine at h
    rw [hskip] at h
    cases h
    rfl
  · have hmem : c ∈ line := by
      refine (List.dropWhile_sublist Toml.isBlank).mem ?_
      rw [show line.dropWhile Toml.isBlank = c :: rest from hskip]
      exact List.mem_cons_self
    rw [hspaces c hmem] at hspace
    cases hspace

theorem declarations_blank {xs ys : List Toml.Item} {lines : List Toml.Line} :
    Toml.declarations (xs ++ ⟨lines, .blank⟩ :: ys) = Toml.declarations (xs ++ ys) := by
  rw [Toml.declarations_append, Toml.declarations_append]
  rfl

-- a first line of white space alone is lost
theorem blank_line_lost {line : List Char} {below : List Toml.Line} {s : Toml.Statement}
    (hlead : Lines.remainder '\n' lead = []) (hfirst : Toml.read lead = some first)
    (hread : Toml.read (lead ++ text) = some items)
    (hcurrent : (Toml.Context.after {} (Toml.statements first)).current = project dir)
    (hsplit : LineSplit text line below s) (hspaces : ∀ c ∈ line, Text.isSpace c = true)
    (hrewrites : Rewrites dir items (lead ++ (trustLine.toList ++ '\n' :: lineEnd text))) :
    line = [] := by
  by_contra hne
  have hwhole := hread
  have htext : Toml.lines text = line :: below := by
    have hlines := hsplit.lines line hsplit.plain (.inl hne)
    rwa [← hsplit.split] at hlines
  obtain rfl := blank_of_spaces hspaces hsplit.reads
  rw [Toml.read_append hlead hfirst, Toml.read, htext, Toml.readLines_cons hsplit.reads] at hread
  obtain ⟨tail, hrest, rfl⟩ := Option.map_eq_some_iff.mp hread
  obtain ⟨later, hlater, rfl⟩ := Option.map_eq_some_iff.mp hrest
  obtain ⟨⟨items', hitems', hvalid', -⟩, hkept⟩ := hrewrites
  have hend : Toml.lines (lineEnd text) = [] ∧ below = [] ∨
      Toml.lines (lineEnd text) = [] :: below := by
    cases hnil : lineEnd text with
    | nil => exact .inl ⟨rfl, hsplit.last hnil⟩
    | cons c tail =>
        have hlines := hsplit.lines [] (by intro c hc; cases hc)
          (.inr (by rw [hnil]; exact List.cons_ne_nil _ _))
        rw [List.nil_append, hnil] at hlines
        exact .inr hlines
  have hunset : Unset dir (first ++ ⟨[line], .blank⟩ :: later) := by
    rw [read_insert hlead hfirst] at hitems'
    obtain ⟨rest', hrest', rfl⟩ := Option.map_eq_some_iff.mp hitems'
    have hunset' := ((valid_insert hcurrent).mp hvalid').2
    unfold Unset at hunset' ⊢
    rw [declarations_blank]
    rw [Toml.read] at hrest'
    rcases hend with ⟨hnil, hbelow⟩ | hcons
    · rw [hnil] at hrest'
      rw [hbelow] at hlater
      cases hrest'
      cases hlater
      exact hunset'
    · have hblank : Toml.readLine [] = some (none, [⟨[[]], .blank⟩]) := rfl
      rw [hcons, Toml.readLines_cons hblank, hlater] at hrest'
      cases hrest'
      rwa [declarations_blank] at hunset'
  rw [linesBeside_unset hunset hwhole, lines_insert hlead, Toml.lines_append hlead, htext] at hkept
  have hkept := (List.append_sublist_append_left _).mp hkept
  have hdiffers : line ≠ trustLine.toList := by
    rintro rfl
    exact absurd (hspaces 't' List.mem_cons_self) (by decide)
  have hshort : (line :: below).Sublist (Toml.lines (lineEnd text)) := by
    cases hkept with
    | cons _ h => exact h
    | cons_cons _ h => exact absurd rfl hdiffers
  rcases hend with ⟨hnil, -⟩ | hcons
  · rw [hnil] at hshort
    cases hshort
  · rw [hcons] at hshort
    cases hshort with
    | cons _ h => exact absurd h.length_le (by simp)
    | cons_cons _ h => exact hne rfl

end Inserting

section OtherKeyFirst

variable {dir : String}

theorem trimEnd_append_spaces (text : List Char) :
    ∃ spaces, text = trimEnd text ++ spaces ∧ ∀ c ∈ spaces, Text.isSpace c = true := by
  refine ⟨(text.reverse.takeWhile Text.isSpace).reverse, ?_, ?_⟩
  · rw [trimEnd, ← List.reverse_append, List.takeWhile_append_dropWhile, List.reverse_reverse]
  · intro c hc
    exact List.mem_takeWhile_imp (List.mem_reverse.mp hc)

theorem trimEnd_trimEnd (text : List Char) : trimEnd (trimEnd text) = trimEnd text := by
  have hidem : ∀ y : List Char, (y.dropWhile Text.isSpace).dropWhile Text.isSpace =
      y.dropWhile Text.isSpace := by
    intro y
    cases hy : y.dropWhile Text.isSpace with
    | nil => rfl
    | cons c rest =>
        have hhead := List.head?_dropWhile_not Text.isSpace y
        rw [hy] at hhead
        exact List.dropWhile_cons_of_neg (by simpa using hhead)
  rw [trimEnd, trimEnd, List.reverse_reverse, hidem]

theorem matchTrustLevel_ne_none {text : List Char} : matchTrustLevel text ≠ none ↔
    ∃ rest value, text = "trust_level".toList ++ rest ∧ trimStart rest = '=' :: value := by
  unfold matchTrustLevel
  constructor
  · intro h
    obtain ⟨e, he⟩ := Option.ne_none_iff_exists'.mp h
    obtain ⟨rest, hrest, he⟩ := Option.bind_eq_some_iff.mp he
    split at he
    next value hvalue => exact ⟨rest, value, Text.afterPrefix_eq_some.1 hrest, hvalue⟩
    next => cases he
  · rintro ⟨rest, value, rfl, hvalue⟩
    rw [Text.afterPrefix_eq_some.2 rfl, Option.bind_some]
    split
    next => exact Option.some_ne_none _
    next hne => exact absurd hvalue (hne value)

theorem matchTrustLevel_append {a b : List Char} (h : matchTrustLevel (a ++ b) = none) :
    matchTrustLevel a = none := by
  by_contra hne
  obtain ⟨rest, value, rfl, hvalue⟩ := matchTrustLevel_ne_none.1 hne
  refine matchTrustLevel_ne_none.2 ⟨rest ++ b, value ++ b, List.append_assoc _ _ _, ?_⟩ h
  rw [trimStart_append, if_neg (by rw [hvalue]; exact List.cons_ne_nil _ _), hvalue]
  rfl

theorem matchAssignment_lineEnd (text : List Char) :
    matchAssignment (dottedTrustKey dir) (lineEnd text) = none := by
  obtain ⟨tail, hkey⟩ := dotted_head dir
  cases hend : lineEnd text with
  | nil => exact matchAssignment_nil hkey
  | cons c rest =>
      refine matchAssignment_of_head hkey ?_
      rintro rfl
      have hterminator := atLineEnd_lineEnd text
      rw [hend] at hterminator
      exact absurd (hterminator 'p' rfl) (by decide)

theorem length_le_endLine (text : List Char) : text.length ≤ (endLine text).length := by
  rcases endLine_cases text with h | h
  · rw [h]
  · rw [h, List.length_append]
    exact Nat.le_add_right _ _

theorem noMatch_lineEnd {text line : List Char} {below : List Toml.Line} {s : Toml.Statement}
    (hsplit : LineSplit text line below s)
    (h : NoMatch (matchAssignment (dottedTrustKey dir)) true text) :
    NoMatch (matchAssignment (dottedTrustKey dir)) true (lineEnd text) := by
  have hrest := (noMatch_true_iff.1 h).2
  rw [hsplit.split, noMatch_append hsplit.plain] at hrest
  exact noMatch_true_iff.2 ⟨matchAssignment_lineEnd text, hrest⟩

-- behind another key the trust level is added, and added again by the next run
theorem grows {before text line : List Char} {below : List Toml.Line} {s : Toml.Statement}
    (hdotted : NoMatch (matchAssignment (dottedTrustKey dir)) true (upToHeader dir before ++ text))
    (hheader : FirstHeader dir before text) (hsplit : LineSplit text line below s)
    (htrust : matchTrustLevel line = none) (hne : trimEnd line ≠ []) :
    endLine (trustProject dir (endLine (trustProject dir (upToHeader dir before ++ text)))) ≠
      endLine (trustProject dir (upToHeader dir before ++ text)) := by
  obtain ⟨spaces, hspaces, -⟩ := trimEnd_append_spaces line
  have htrustBody := updateTrustBody_of_other hsplit.plain htrust
  rw [if_neg (trimEnd_trimStart_eq_nil.not.mpr hne)] at htrustBody
  have hkeptEnd := trimEnd_trimEnd line
  generalize trimEnd line = kept at *
  have hkeptPlain : ∀ c ∈ kept, isLineTerminator c = false := fun c hc =>
    hsplit.plain c (by rw [hspaces]; exact List.mem_append_left _ hc)
  have hkeptTrust : matchTrustLevel kept = none := by
    rw [hspaces] at htrust
    exact matchTrustLevel_append htrust
  have hkeptStart : trimStart kept ≠ [] := by
    intro hnil
    rw [trimEnd_eq_nil.2 (trimStart_eq_nil.1 hnil)] at hkeptEnd
    exact hne hkeptEnd.symm
  have hkeptBody := updateTrustBody_of_other hkeptPlain hkeptTrust
  rw [hkeptEnd, if_neg (trimEnd_trimStart_eq_nil.not.mpr (by rwa [hkeptEnd]))] at hkeptBody
  have hfirst : trustProject dir (upToHeader dir before ++ text) =
      upToHeader dir before ++ (kept ++ '\n' :: (trustLine.toList ++ '\n' :: lineEnd text)) := by
    have htake : (text.takeWhile fun c => !isLineTerminator c) = line := by
      have htake := takeWhile_line hsplit.plain (atLineEnd_lineEnd text)
      rwa [← hsplit.split] at htake
    rw [trustProject_section hdotted hheader, htake, htrustBody]
    simp
  have hnone : NoMatch (matchAssignment (dottedTrustKey dir)) true (upToHeader dir before ++
      (kept ++ '\n' :: (trustLine.toList ++ '\n' :: lineEnd text))) := by
    have htext := noMatch_behind (upToHeader_last before) (by decide) hdotted
    have htrusted : NoMatch (matchAssignment (dottedTrustKey dir)) true
        (trustLine.toList ++ '\n' :: lineEnd text) :=
      noMatch_trustLine (noMatch_cons.2 (noMatch_lineEnd hsplit htext))
    refine noMatch_exchange (upToHeader_last before) hdotted ?_ (noMatch_true_iff.2 ⟨?_, ?_⟩)
    · obtain ⟨c, rest, hc⟩ := List.exists_cons_of_ne_nil hkeptStart
      have hline := trimStart_head hsplit.reads
      rw [hspaces, trimStart_append, if_neg hkeptStart, hc] at hline
      rw [trimStart_append, if_neg hkeptStart, hc]
      exact hline
    · refine matchAssignment_transfer (x := spaces ++ lineEnd text) dotted_newline (.inr rfl) ?_ ?_
      · exact (by decide : some 't' ≠ some '=')
      · rw [← List.append_assoc, ← hspaces, ← hsplit.split]
        exact (noMatch_true_iff.1 htext).1
    · exact (noMatch_append hkeptPlain).mpr (noMatch_cons.2 htrusted)
  have hlast : (upToHeader dir before ++ (kept ++ '\n' :: trustLine.toList)).getLast? ≠ some '\n' := by
    rw [List.getLast?_append_of_ne_nil _ (by simp), show '\n' :: trustLine.toList =
      ['\n'] ++ trustLine.toList from rfl, ← List.append_assoc,
      List.getLast?_append_of_ne_nil _ trustLine_ne_nil, trustLine_last]
    decide
  obtain ⟨tail, hend⟩ : ∃ tail, endLine (upToHeader dir before ++
      (kept ++ '\n' :: (trustLine.toList ++ '\n' :: lineEnd text))) =
        upToHeader dir before ++ (kept ++ '\n' :: (trustLine.toList ++ tail)) := by
    refine ⟨endLine ('\n' :: lineEnd text), ?_⟩
    have hjoin := endLine_append hlast ('\n' :: lineEnd text)
    simpa using hjoin
  obtain ⟨dottedTail, hkey⟩ := dotted_head dir
  have hagain := noMatch_endLine hkey dotted_newline hnone
  rw [hfirst, hend] at *
  rw [trustProject_section hagain (hheader.exchange _),
    takeWhile_line hkeptPlain (by intro c hc; cases hc; decide),
    lineEnd_append hkeptPlain (by intro c hc; cases hc; decide), hkeptBody]
  intro hsame
  have hlength := length_le_endLine (upToHeader dir before ++
    (kept ++ ['\n'] ++ trustLine.toList ++ ['\n'] ++ '\n' :: (trustLine.toList ++ tail)))
  rw [hsame] at hlength
  simp only [List.length_append, List.length_cons, List.length_nil] at hlength
  omega

end OtherKeyFirst

section Absent

variable {dir : String} {content : List Char} {items : List Toml.Item}

-- what the section is written behind, where there is none
def beforeBlock (content : List Char) : List Char :=
  if trimEnd content = [] then [] else trimEnd content ++ ['\n', '\n']

theorem trustProject_absent
    (hdotted : findLine (matchAssignment (dottedTrustKey dir)) true content = none)
    (hheader : findLine (matchTrustSection dir) true content = none) :
    trustProject dir content =
      upToHeader dir (beforeBlock content) ++ (trustLine.toList ++ ['\n']) := by
  unfold trustProject beforeBlock
  rw [hdotted, hheader]
  dsimp only
  split
  next => simp [upToHeader, trustBlock]
  next => simp [upToHeader, trustBlock]

theorem trimEnd_last {text : List Char} (hne : trimEnd text ≠ []) :
    ∃ c, (trimEnd text).getLast? = some c ∧ Text.isSpace c = false := by
  cases hlast : (trimEnd text).getLast? with
  | none => exact absurd (List.getLast?_eq_none_iff.mp hlast) hne
  | some c =>
      refine ⟨c, rfl, ?_⟩
      have hhead := List.head?_dropWhile_not Text.isSpace text.reverse
      rw [trimEnd, List.getLast?_reverse] at hlast
      rw [hlast] at hhead
      simpa using hhead

theorem beforeBlock_remainder (content : List Char) :
    Lines.remainder '\n' (beforeBlock content) = [] := by
  unfold beforeBlock
  split
  next => rfl
  next =>
    rw [show trimEnd content ++ ['\n', '\n'] = (trimEnd content ++ ['\n']) ++ ['\n'] by simp]
    exact Lines.remainder_concat_sep _

theorem lines_beforeBlock (hne : trimEnd content ≠ []) :
    Toml.lines (beforeBlock content) = Toml.lines (trimEnd content) ++ [[]] := by
  obtain ⟨c, hlast, hspace⟩ := trimEnd_last hne
  have hc : c ≠ '\n' := by
    rintro rfl
    exact absurd hspace (by decide)
  rw [beforeBlock, if_neg hne,
    show trimEnd content ++ ['\n', '\n'] = (trimEnd content ++ ['\n']) ++ ['\n'] by simp,
    Toml.lines_append (Lines.remainder_concat_sep _),
    Toml.lines_concat (Toml.remainder_ne_nil hlast hc)]
  rfl

-- the text before the new section has the statements of the file
theorem read_beforeBlock (htidy : Tidy content) (hread : Toml.read content = some items) :
    ∃ blanks : List Toml.Item, Toml.read (beforeBlock content) = some (items ++ blanks) ∧
      (blanks = [] ∨ blanks = [⟨[[]], .blank⟩]) := by
  by_cases hne : trimEnd content = []
  · refine ⟨[], ?_, .inl rfl⟩
    have hlines : Toml.lines content = [] := by
      rcases htidy with h | ⟨h, -⟩
      · rw [h, hne]
        rfl
      · exact absurd hne h
    rw [Toml.read, hlines] at hread
    rw [beforeBlock, if_pos hne, List.append_nil]
    exact hread
  · rcases htidy with h | ⟨-, h⟩
    · refine ⟨[⟨[[]], .blank⟩], ?_, .inr rfl⟩
      rw [Toml.read, lines_beforeBlock hne, ← h, Toml.readLines_append hread]
      rfl
    · refine ⟨[], ?_, .inl rfl⟩
      rw [Toml.read, lines_beforeBlock hne, ← h, List.append_nil]
      exact hread

theorem declarations_blanks {blanks : List Toml.Item}
    (h : blanks = [] ∨ blanks = [⟨[[]], .blank⟩]) :
    Toml.declarations (items ++ blanks) = Toml.declarations items := by
  rcases h with rfl | rfl
  · rw [List.append_nil]
  · rw [declarations_blank, List.append_nil]

theorem declarations_section (harrays : NoArrays dir items) :
    Toml.declarations (items ++ [headerItem dir, trustItem]) =
      Toml.declarations items ++ trustDeclarations dir := by
  have hheader : Toml.declarations (items ++ [headerItem dir]) = Toml.declarations items ++
      [⟨⟨[], "projects"⟩, .implied⟩, ⟨⟨[("projects", 0)], dir⟩, .table⟩] := by
    rw [Toml.declarations_append]
    change _ ++ (Toml.declare _ _ _ [] ["projects", dir] ++ []) = _
    rw [Toml.declare, Toml.declare, harrays.count_projects]
    · rfl
    · exact List.cons_ne_nil _ _
  have hentry : Toml.declarations ((items ++ [headerItem dir]) ++ [trustItem]) =
      _ ++ ⟨trustPlace dir, .value⟩ :: _ :=
    Toml.declarations_entry rfl (current_headerItem harrays)
  rw [show items ++ [headerItem dir, trustItem] = (items ++ [headerItem dir]) ++ [trustItem] by simp,
    hentry, hheader]
  simp [Toml.statements, Toml.Context.declarations, trustDeclarations]

theorem trustDeclarations_agree : (trustDeclarations dir).Pairwise Toml.Declaration.Agrees := by
  simp [trustDeclarations, Toml.Declaration.Agrees, trustPlace, project]

theorem valid_section (harrays : NoArrays dir items) :
    Toml.Valid (items ++ [headerItem dir, trustItem]) ↔ Toml.Valid items ∧ Unclaimed dir items := by
  rw [Toml.Valid, declarations_section harrays, List.pairwise_append]
  exact ⟨fun h => ⟨h.1, h.2.2⟩, fun h => ⟨h.1, trustDeclarations_agree, h.2⟩⟩

theorem unclaimed_unset (h : Unclaimed dir items) : Unset dir items := by
  intro d hd
  exact Toml.Declaration.agrees_value.mp (h d hd _ (by simp [trustDeclarations]))

theorem rewrites_absent (hquotable : Toml.Quotable dir) (harrays : NoArrays dir items)
    (htidy : Tidy content) (hread : Toml.read content = some items) (hvalid : Toml.Valid items) :
    Rewrites dir items (upToHeader dir (beforeBlock content) ++ (trustLine.toList ++ ['\n'])) ↔
      Unclaimed dir items := by
  obtain ⟨blanks, hblanks, hform⟩ := read_beforeBlock htidy hread
  have hdeclarations : Toml.declarations (items ++ blanks) = Toml.declarations items :=
    declarations_blanks hform
  have harrays' : NoArrays dir (items ++ blanks) := by
    unfold NoArrays
    rw [hdeclarations]
    exact harrays
  have hunclaimed : Unclaimed dir (items ++ blanks) ↔ Unclaimed dir items := by
    rw [Unclaimed, hdeclarations, Unclaimed]
  have hvalid' : Toml.Valid (items ++ blanks) := (valid_of_declarations hdeclarations).mpr hvalid
  have hlead : Lines.remainder '\n' (upToHeader dir (beforeBlock content)) = [] :=
    upToHeader_remainder _
  have hheader := read_upToHeader hquotable (beforeBlock_remainder content) hblanks
  have hwritten := read_insert hlead hheader []
  rw [show Toml.read [] = some [] from rfl, Option.map_some,
    show items ++ blanks ++ [headerItem dir] ++ [trustItem] =
      (items ++ blanks) ++ [headerItem dir, trustItem] by simp] at hwritten
  constructor
  · rintro ⟨⟨items', hitems', hvalid', -⟩, -⟩
    rw [hwritten] at hitems'
    cases hitems'
    exact hunclaimed.mp ((valid_section harrays').mp hvalid').2
  · intro h
    have hnew := (valid_section harrays').mpr ⟨hvalid', hunclaimed.mpr h⟩
    refine ⟨⟨_, hwritten, hnew, ?_⟩, ?_⟩
    · rw [show (items ++ blanks) ++ [headerItem dir, trustItem] =
        (items ++ blanks ++ [headerItem dir]) ++ [trustItem] by simp] at hnew ⊢
      rw [hnew.textsAt (assigned_trustItem (current_headerItem harrays')), List.map_singleton,
        stringValue_trusted]
    · rw [linesBeside_unset (unclaimed_unset h) hread, lines_insert hlead,
        ← Toml.read_lines hread, ← Toml.read_lines hheader, List.flatMap_append,
        List.flatMap_append, List.append_assoc, List.append_assoc]
      exact List.sublist_append_left _ _

theorem length_keys (dir : String) :
    (trustSectionHeader dir).toList.length + 1 < (dottedTrustKey dir).toList.length := by
  rw [trustSectionHeader, dottedTrustKey]
  simp only [String.toList_append, List.length_append]
  have hlead : "[projects.".toList.length = 10 := by decide
  have hend : "]".toList.length = 1 := by decide
  have hlead' : "projects.".toList.length = 9 := by decide
  have hend' : ".trust_level".toList.length = 12 := by decide
  omega

theorem noMatch_nil : NoMatch (matchAssignment (dottedTrustKey dir)) true [] := by
  obtain ⟨tail, hkey⟩ := dotted_head dir
  refine findLine_eq_none.1 ?_
  rw [findLine, if_pos rfl, matchAssignment_nil hkey]
  rfl

theorem noMatch_block : NoMatch (matchAssignment (dottedTrustKey dir)) true
    (upToHeader dir [] ++ (trustLine.toList ++ ['\n'])) := by
  refine noMatch_split ?_ (noMatch_trustLine (noMatch_cons.2 noMatch_nil))
  intro before b hb hne _
  by_contra hmatch
  obtain ⟨rest, -, htext, -⟩ := matchAssignment_ne_none.1 hmatch
  have hlast : b.getLast? = some '\n' := by
    have hend : (upToHeader dir []).getLast? = some '\n' := upToHeader_last []
    rwa [hb, List.getLast?_append_of_ne_nil _ hne] at hend
  have hleads := prefix_of_newline dotted_newline (.inl hlast) ⟨rest, htext.symm⟩
  have hlength := congrArg List.length hb
  simp only [upToHeader, List.nil_append, List.length_append, List.length_cons,
    List.length_nil] at hlength
  have hkeys := length_keys dir
  have hle := hleads.length_le
  omega

theorem upToHeader_join (before after : List Char) :
    upToHeader dir (before ++ after) = before ++ upToHeader dir after := by
  simp [upToHeader]

theorem noMatch_absent (h : NoMatch (matchAssignment (dottedTrustKey dir)) true content) :
    NoMatch (matchAssignment (dottedTrustKey dir)) true
      (upToHeader dir (beforeBlock content) ++ (trustLine.toList ++ ['\n'])) := by
  obtain ⟨spaces, hspaces, -⟩ := trimEnd_append_spaces content
  obtain ⟨tail, hkey⟩ := dotted_head dir
  unfold beforeBlock
  split
  next => exact noMatch_block
  next =>
    rw [upToHeader_join, List.append_assoc]
    refine noMatch_split ?_ ?_
    · intro before b hb hne hstart
      have hold := h before (b ++ spaces) (by rw [← List.append_assoc, ← hb, ← hspaces]) hstart
      obtain ⟨header, hheader⟩ := header_head dir
      refine matchAssignment_transfer dotted_newline (.inr rfl) ?_ hold
      rw [show upToHeader dir ['\n', '\n'] = '\n' :: '\n' :: '[' :: (header ++ ['\n']) by
        simp [upToHeader, hheader]]
      exact (by decide : some '[' ≠ some '=')
    · have hblock : NoMatch (matchAssignment (dottedTrustKey dir)) true _ := noMatch_block
      rw [show upToHeader dir ['\n', '\n'] = '\n' :: '\n' :: upToHeader dir [] from rfl]
      have hline : ∀ text, NoMatch (matchAssignment (dottedTrustKey dir)) true text →
          NoMatch (matchAssignment (dottedTrustKey dir)) true ('\n' :: text) := fun text htext =>
        noMatch_true_iff.2 ⟨matchAssignment_of_head hkey (by decide), noMatch_cons.2 htext⟩
      exact hline _ (hline _ hblock)

theorem header_statement (hquotable : Toml.Quotable dir) {before after : List Char}
    (hbefore : BeginsStatement before)
    (hread : Toml.read (before ++ ((trustSectionHeader dir).toList ++ after)) = some items) :
    ∃ first lines rest, items = first ++ ⟨lines, .table ["projects", dir]⟩ :: rest := by
  obtain ⟨first, rest, -, hrest, rfl⟩ := read_behind hbefore hread
  obtain ⟨tail, hafter, hnewline, htail⟩ := split_newline after
  generalize firstLine after = raw at hafter hnewline
  have hheader := newline_not_mem (header_printable dir)
  obtain ⟨c, more, hhead⟩ : ∃ c more, (trustSectionHeader dir).toList = c :: more :=
    (header_head dir).elim fun rest h => ⟨_, rest, h⟩
  have hmem : '\n' ∉ (trustSectionHeader dir).toList ++ raw := fun h =>
    (List.mem_append.mp h).elim hheader hnewline
  have hne : (trustSectionHeader dir).toList ++ raw ≠ [] := by
    rw [hhead]
    exact List.cons_ne_nil _ _
  obtain ⟨line, hline⟩ : ∃ line, Toml.trimReturn ((trustSectionHeader dir).toList ++ raw) =
      (trustSectionHeader dir).toList ++ line := by
    rcases List.eq_nil_or_concat raw with rfl | ⟨lead, d, rfl⟩
    · exact ⟨[], by rw [List.append_nil, trimReturn_printable (header_printable dir)]⟩
    · rw [Toml.trimReturn]
      split
      next => exact ⟨lead, by simp⟩
      next => exact ⟨_, rfl⟩
  rw [hafter, ← List.append_assoc, Toml.read, lines_first hmem (.inl hne) htail, hline] at hrest
  have hitem := readLine_trustSection hquotable line
  split at hitem
  next =>
    rw [Toml.readLines_cons hitem] at hrest
    obtain ⟨later, -, rfl⟩ := Option.map_eq_some_iff.mp hrest
    exact ⟨first, _, later, rfl⟩
  next =>
    rw [Toml.readLines, Toml.advance, Toml.readNext, hitem] at hrest
    cases hrest

-- a header of the project claims its table
theorem claimed_of_header (harrays : NoArrays dir items) {first rest : List Toml.Item}
    {lines : List Toml.Line} (hitems : items = first ++ ⟨lines, .table ["projects", dir]⟩ :: rest) :
    ¬ Unclaimed dir items := by
  intro h
  rw [hitems] at h harrays
  have hplace : Toml.placeOf (Toml.Context.after {} (Toml.statements first)).opened []
      ["projects", dir] = some ⟨[("projects", 0)], dir⟩ := by
    change some (Toml.Place.mk [("projects", _)] dir) = _
    rw [harrays.left.count_projects]
  have hmem : ⟨⟨[("projects", 0)], dir⟩, .table⟩ ∈
      Toml.declarations (first ++ ⟨lines, .table ["projects", dir]⟩ :: rest) := by
    rw [Toml.declarations_append]
    exact List.mem_append_right _ (List.mem_append_left _ (Toml.declare_last _ _ _ _ hplace))
  have hagrees := h _ hmem ⟨⟨[("projects", 0)], dir⟩, .table⟩ (by simp [trustDeclarations]) rfl
  cases hagrees

theorem beforeBlock_last (hne : beforeBlock content ≠ []) :
    (beforeBlock content).getLast? = some '\n' := by
  unfold beforeBlock at hne ⊢
  split
  next h => exact absurd (if_pos h) hne
  next =>
    rw [show trimEnd content ++ ['\n', '\n'] = (trimEnd content ++ ['\n']) ++ ['\n'] by simp]
    exact List.getLast?_concat

theorem firstHeader_absent (hplain : Plain dir content items)
    (hread : Toml.read content = some items) (hunclaimed : Unclaimed dir items)
    (rest : List Char) : FirstHeader dir (beforeBlock content) rest := by
  refine ⟨?_, ?_⟩
  · by_cases hne : beforeBlock content = []
    · rw [hne]
      rfl
    · exact startsLine_of_last (beforeBlock_last hne) (by decide) true
  · intro shorter b hb hne hstart
    rw [matchTrustSection_eq_none]
    intro hleads
    have hblock : beforeBlock content ≠ [] := by
      rw [hb]
      exact List.append_ne_nil_of_right_ne_nil _ hne
    have hlast : b.getLast? = some '\n' := by
      have hend := beforeBlock_last hblock
      rwa [hb, List.getLast?_append_of_ne_nil _ hne] at hend
    obtain ⟨u, hu⟩ := (section_prefix_iff hlast).mp hleads
    have htrim : trimEnd content ≠ [] := by
      intro h
      exact hblock (if_pos h)
    rw [beforeBlock, if_neg htrim, ← hu, List.append_assoc, ← List.append_assoc] at hb
    obtain ⟨spaces, hspaces, -⟩ := trimEnd_append_spaces content
    rcases List.append_eq_append_iff.mp hb with ⟨v, hv, hend⟩ | ⟨v, hv, -⟩
    · cases v with
      | nil =>
          rw [List.append_nil] at hv
          have hcontent : content = shorter ++ ((trustSectionHeader dir).toList ++ spaces) := by
            rw [← List.append_assoc, hv, ← hspaces]
          obtain ⟨first, lines, later, hitems⟩ := header_statement hplain.quotable
            (hplain.header _ _ hcontent hstart) (hcontent ▸ hread)
          exact claimed_of_header hplain.arrays hitems hunclaimed
      | cons d v =>
          have hheader : ((trustSectionHeader dir).toList).getLast? = some ']' := by
            rw [trustSectionHeader, String.toList_append]
            exact List.getLast?_concat
          have hlastHeader : (d :: v).getLast? = some ']' := by
            have hne : (trustSectionHeader dir).toList ≠ [] := by
              intro h
              rw [h] at hheader
              cases hheader
            have hjoin := congrArg List.getLast? hv
            rw [List.getLast?_append_of_ne_nil _ hne,
              List.getLast?_append_of_ne_nil _ (List.cons_ne_nil _ _), hheader] at hjoin
            exact hjoin.symm
          have hmem : ']' ∈ ['\n', '\n'] := by
            rw [hend]
            exact List.mem_append_left _ (List.mem_of_getLast? hlastHeader)
          exact absurd hmem (by decide)
    · have hcontent : content = shorter ++ ((trustSectionHeader dir).toList ++ (v ++ spaces)) := by
        rw [hspaces, hv]
        simp
      obtain ⟨first, lines, later, hitems⟩ := header_statement hplain.quotable
        (hplain.header _ _ hcontent hstart) (hcontent ▸ hread)
      exact claimed_of_header hplain.arrays hitems hunclaimed

end Absent

section Dotted

variable {dir : String}

theorem next_space {c : Char} (h : Text.isSpace c = true) {s : Toml.Scan}
    (hs : Toml.Scan.next (.plain 0) c = some s) : Toml.isBlank c = true ∧ s = .plain 0 := by
  have hother : ∀ d : Char, Text.isSpace d = false → c ≠ d := by
    rintro d hd rfl
    rw [hd] at h
    cases h
  have hrange := toNat_of_isSpace h
  change Toml.Scan.plainNext 0 c = some s at hs
  unfold Toml.Scan.plainNext at hs
  rw [if_neg (hother _ (by decide)), if_neg (hother _ (by decide)), if_neg (hother _ (by decide)),
    if_neg (not_or.mpr ⟨hother _ (by decide), hother _ (by decide)⟩),
    if_neg (not_or.mpr ⟨hother _ (by decide), hother _ (by decide)⟩)] at hs
  split at hs
  next hblank =>
    cases hs
    refine ⟨hblank.elim id fun hascii => ?_, rfl⟩
    omega
  next => cases hs

-- white space alone is not a value
theorem scan_spaces {text : List Char} (h : ∀ c ∈ text, Text.isSpace c = true)
    {e : Toml.Scan × List Char} (hscan : Toml.scan (.plain 0) text = some e) :
    ∀ c ∈ e.2, Toml.isBlank c = true := by
  induction text generalizing e with
  | nil =>
      cases hscan
      intro c hc
      cases hc
  | cons c text ih =>
      obtain ⟨s, hs, hscan⟩ := Option.bind_eq_some_iff.mp hscan
      obtain ⟨hblank, rfl⟩ := next_space (h c List.mem_cons_self) hs
      obtain ⟨e', he', rfl⟩ := Option.map_eq_some_iff.mp hscan
      have hrest := ih (fun d hd => h d (List.mem_cons_of_mem c hd)) he'
      intro d hd
      rcases List.mem_cons.mp hd with rfl | hd
      · exact hblank
      · exact hrest d hd

theorem strip_blank {text : List Char} (h : ∀ c ∈ text, Toml.isBlank c = true) :
    Toml.strip text = [] := by
  have hskip : Toml.skip text = [] := List.dropWhile_eq_nil_iff.mpr h
  rw [Toml.strip, hskip]
  rfl

theorem lineEnd_trimStart {value rest : List Char} (hvalue : ∀ c ∈ value, isLineTerminator c = false)
    (hrest : AtLineEnd rest) (hne : trimStart value ≠ []) :
    lineEnd (trimStart (value ++ rest)) = rest := by
  rw [trimStart_append, if_neg hne]
  refine lineEnd_append (fun c hc => hvalue c ?_) hrest
  exact (List.dropWhile_sublist Text.isSpace).mem hc

-- the dotted key and its value stand on one line
theorem dotted_line (hquotable : Toml.Quotable dir) {text line rest : List Char}
    {below : List Toml.Line} {s : Toml.Statement}
    (hmatch : matchAssignment (dottedTrustKey dir) text = some rest)
    (hsplit : LineSplit text line below s) :
    (∃ value, s = .entry ["projects", dir, "trust_level"] value) ∧ rest = lineEnd text ∧
      (dottedTrustKey dir).toList <+: line := by
  obtain ⟨tail, htail, hmatch⟩ := Option.bind_eq_some_iff.mp hmatch
  split at hmatch
  next value hvalue =>
    obtain rfl := Option.some.inj hmatch
    have htext := Text.afterPrefix_eq_some.1 htail
    have hleads : (dottedTrustKey dir).toList <+: line := by
      have hwhole : (dottedTrustKey dir).toList <+: line ++ lineEnd text := by
        rw [← hsplit.split]
        exact ⟨tail, htext.symm⟩
      rcases Delimited.prefix_append_cases hwhole with h | ⟨u, hu, hend⟩
      · exact h
      · cases u with
        | nil => exact ⟨[], by rw [hu, List.append_nil, List.append_nil]⟩
        | cons c u =>
            obtain ⟨more, hmore⟩ := hend
            have hc := hsplit.ends c (by rw [← hmore]; rfl)
            have hprintable := dotted_printable dir c
              (by rw [hu]; exact List.mem_append_right _ List.mem_cons_self)
            rcases hc with rfl | rfl
            · exact absurd hprintable (by decide)
            · exact absurd hprintable (by decide)
    obtain ⟨inner, hinner⟩ := hleads
    have htailJoin : tail = inner ++ lineEnd text := by
      have hjoin := hsplit.split
      rw [← hinner, htext, List.append_assoc] at hjoin
      have hcancel := List.append_cancel_left hjoin
      rwa [← htext] at hcancel
    have hread := hsplit.reads
    rw [← hinner, dottedTrustKey_toList] at hread
    have hinnerStart : trimStart inner ≠ [] := by
      intro hnil
      have hspaces := trimStart_eq_nil.1 hnil
      have hhead : ∀ c ∈ inner.head?, Toml.isBare c = false := by
        intro c hc
        exact not_isBare_of_isSpace (hspaces c (List.mem_of_head? hc))
      have hskip : ∀ c ∈ (Toml.skip inner).head?, Text.isSpace c = true := by
        intro c hc
        exact hspaces c ((List.dropWhile_sublist _).mem (List.mem_of_head? hc))
      obtain ⟨value', -, hskip', -⟩ := Toml.readLine_assigns (spelled_trustTexts hquotable)
        (List.cons_ne_nil _ _) hhead (fun hdot => absurd (hskip '.' hdot) (by decide)) hread
      exact absurd (hskip '=' (by rw [hskip']; rfl)) (by decide)
    obtain ⟨inside, hinside, hvalueJoin⟩ : ∃ inside, trimStart inner = '=' :: inside ∧
        value = inside ++ lineEnd text := by
      rw [htailJoin, trimStart_append, if_neg hinnerStart] at hvalue
      obtain ⟨c, inside, hc⟩ := List.exists_cons_of_ne_nil hinnerStart
      rw [hc] at hvalue
      obtain ⟨rfl, hjoin⟩ := List.cons.inj hvalue
      exact ⟨inside, hc, hjoin.symm⟩
    obtain ⟨hhead, hdot⟩ := key_ends hinside
    obtain ⟨value', text', hskip, hscan, hstrip, hitems⟩ :=
      Toml.readLine_assigns (spelled_trustTexts hquotable) (List.cons_ne_nil _ _) hhead hdot hread
    have hsame : value' = inside := by
      have htrim := trimStart_skip inner
      rw [hskip, hinside] at htrim
      exact (List.cons.inj htrim).2
    have hinsideStart : trimStart inside ≠ [] := by
      intro hnil
      rw [hsame] at hscan
      exact hstrip (strip_blank (scan_spaces (trimStart_eq_nil.1 hnil) hscan))
    have hinsidePlain : ∀ c ∈ inside, isLineTerminator c = false := by
      intro c hc
      refine hsplit.plain c ?_
      rw [← hinner]
      refine List.mem_append_right _ ((List.dropWhile_sublist Text.isSpace).mem ?_)
      rw [show inner.dropWhile Text.isSpace = '=' :: inside from hinside]
      exact List.mem_cons_of_mem _ hc
    refine ⟨⟨Toml.strip text', ?_⟩, ?_, ⟨inner, hinner⟩⟩
    · have hone := List.cons.inj hitems
      exact (Toml.Item.mk.inj hone.1).2
    · rw [hvalueJoin, lineEnd_trimStart hinsidePlain (atLineEnd_lineEnd text) hinsideStart]
  next => cases hmatch

def dottedLine (dir : String) : List Char := (dottedTrustKey dir ++ " = \"trusted\"").toList

theorem dottedLine_eq : dottedLine dir =
    Toml.assignment (trustTexts dir) (Json.quote "trusted").toList := by
  rw [dottedLine, String.toList_append, dottedTrustKey_toList, Toml.assignment]
  congr 1

theorem readLine_dottedLine (hquotable : Toml.Quotable dir) :
    Toml.readLine (dottedLine dir) = some (none, [⟨[dottedLine dir],
      .entry ["projects", dir, "trust_level"] (Json.quote "trusted").toList⟩]) := by
  rw [dottedLine_eq]
  exact Toml.readLine_assignment (spelled_trustTexts hquotable) (List.cons_ne_nil _ _)
    (.quote "trusted")

theorem dottedLine_append (rest : List Char) : dottedLine dir ++ rest =
    (dottedTrustKey dir).toList ++ (" = \"trusted\"".toList ++ rest) := by
  rw [dottedLine, String.toList_append, List.append_assoc]

theorem matchAssignment_dottedLine {rest : List Char} (hrest : AtLineEnd rest) :
    matchAssignment (dottedTrustKey dir) (dottedLine dir ++ rest) = some rest := by
  have hvalue : ∀ c ∈ "\"trusted\"".toList, isLineTerminator c = false :=
    Text.forall_mem rfl
  rw [dottedLine_append, matchAssignment, Text.afterPrefix_eq_some.2 rfl, Option.bind_some]
  have hend := lineEnd_append hvalue hrest
  exact congrArg some hend

theorem dottedLine_plain {line : List Char} (hleads : (dottedTrustKey dir).toList <+: line)
    (hline : ∀ c ∈ line, isLineTerminator c = false) :
    ∀ c ∈ dottedLine dir, isLineTerminator c = false := by
  intro c hc
  rw [dottedLine, String.toList_append] at hc
  rcases List.mem_append.mp hc with hc | hc
  · exact hline c (hleads.subset hc)
  · have hvalue : ∀ c ∈ " = \"trusted\"".toList, isLineTerminator c = false :=
      Text.forall_mem rfl
    exact hvalue c hc

theorem placeOf_dotted {first : List Toml.Item} (harrays : NoArrays dir first)
    (hroot : (Toml.Context.after {} (Toml.statements first)).current = []) :
    Toml.placeOf (Toml.Context.after {} (Toml.statements first)).opened
      (Toml.Context.after {} (Toml.statements first)).current ["projects", dir, "trust_level"] =
        some (trustPlace dir) := by
  rw [hroot]
  have hdescend := descend_project harrays
  change some (Toml.Place.mk (Toml.descend _ [] ["projects", dir]) "trust_level") = _
  rw [hdescend]
  rfl

theorem trustProject_dotted {before text rest : List Char}
    (h : FirstMatch (matchAssignment (dottedTrustKey dir)) true text before rest) :
    trustProject dir text = before ++ (dottedLine dir ++ rest) := by
  unfold trustProject
  rw [findLine_of_firstMatch h]
  simp [dottedLine]

-- a text that begins with the dotted key's line is not changed
theorem firstMatch_dottedLine {before after rest : List Char}
    (h : FirstMatch (matchAssignment (dottedTrustKey dir)) true (before ++ after) before rest)
    (hbefore : before = [] ∨ before.getLast? = some '\n') {tail : List Char}
    (htail : AtLineEnd tail) :
    FirstMatch (matchAssignment (dottedTrustKey dir)) true (before ++ (dottedLine dir ++ tail))
      before tail := by
  refine ⟨⟨_, rfl, matchAssignment_dottedLine htail⟩, h.starts, ?_⟩
  intro shorter later htext hlength hstart
  rcases List.append_eq_append_iff.mp htext with ⟨b, rfl, -⟩ | ⟨b, hb, rfl⟩
  · rw [List.length_append] at hlength
    omega
  · have hne : b ≠ [] := by
      rintro rfl
      rw [hb, List.append_nil] at hlength
      exact absurd hlength (Nat.lt_irrefl _)
    have hlast : b.getLast? = some '\n' := by
      rcases hbefore with hnil | hlast
      · rw [hnil] at hb
        exact absurd (List.append_eq_nil_iff.mp hb.symm).2 hne
      · rwa [hb, List.getLast?_append_of_ne_nil _ hne] at hlast
    have hold := h.first shorter (b ++ after) (by rw [hb, List.append_assoc]) hlength hstart
    obtain ⟨more, hkey⟩ := dotted_head dir
    refine matchAssignment_transfer dotted_newline (.inl hlast) ?_ hold
    rw [dottedLine_append, hkey]
    exact (by decide : some 'p' ≠ some '=')

theorem last_of_remainder {text : List Char} (h : Lines.remainder '\n' text = []) :
    text = [] ∨ text.getLast? = some '\n' := by
  cases hlast : text.getLast? with
  | none => exact .inl (List.getLast?_eq_none_iff.mp hlast)
  | some c =>
      refine .inr ?_
      by_contra hne
      exact Toml.remainder_ne_nil hlast (fun hc => hne (by rw [hc])) h

end Dotted

section Main

variable {dir content : String} {items : List Toml.Item}

theorem toList_ensure : (ensureCodexProjectTrusted dir (some content)).toList =
    endLine (trustProject dir content.toList) := by
  rw [ensureCodexProjectTrusted, String.toList_ofList]
  rfl

theorem trustsProject_def (hread : Toml.read content.toList = some items)
    {text : List Char} (htext : trustProject dir content.toList = text) (hne : text ≠ []) :
    TrustsProject dir content (ensureCodexProjectTrusted dir (some content)) ↔
      Rewrites dir items text ∧ endLine (trustProject dir (endLine text)) = endLine text := by
  have hwritten : (ensureCodexProjectTrusted dir (some content)).toList = endLine text := by
    rw [toList_ensure, htext]
  have hstable : ensureCodexProjectTrusted dir (some (ensureCodexProjectTrusted dir (some content))) =
      ensureCodexProjectTrusted dir (some content) ↔
        endLine (trustProject dir (endLine text)) = endLine text := by
    rw [← String.toList_inj, toList_ensure, hwritten]
  constructor
  · intro ⟨htrusted, hkept, hagain⟩
    rw [hwritten, read_endLine hne] at htrusted
    have hlines := hkept items hread
    rw [hwritten, lines_endLine hne] at hlines
    exact ⟨⟨htrusted, hlines⟩, hstable.mp hagain⟩
  · intro ⟨⟨htrusted, hkept⟩, hagain⟩
    refine ⟨?_, ?_, hstable.mpr hagain⟩
    · rwa [hwritten, read_endLine hne]
    · intro items' hitems'
      rw [hread] at hitems'
      cases hitems'
      rwa [hwritten, lines_endLine hne]

theorem trustsProject_of_dotted (hread : Toml.read content.toList = some items)
    (hvalid : Toml.Valid items) (hplain : Plain dir content.toList items)
    {before rest : List Char}
    (hdotted : FirstMatch (matchAssignment (dottedTrustKey dir)) true content.toList before rest) :
    TrustsProject dir content (ensureCodexProjectTrusted dir (some content)) := by
  obtain ⟨after, hcontent, hmatch⟩ := hdotted.found
  obtain ⟨hbegins, hroot, hown⟩ := hplain.dotted before after hcontent hdotted.starts
    (by rw [hmatch]; exact Option.some_ne_none _)
  obtain ⟨line, below, s, hsplit⟩ := hown.split
  obtain ⟨⟨value, rfl⟩, rfl, hleads⟩ := dotted_line hplain.quotable hmatch hsplit
  obtain ⟨first, hfirst⟩ := Option.isSome_iff_exists.mp hbegins.2
  have hcurrent : (Toml.Context.after {} (Toml.statements first)).current = [] := by
    rw [AtRoot, hfirst] at hroot
    exact Option.some.inj hroot
  have hline : line ≠ [] := by
    rintro rfl
    obtain ⟨tail, hkey⟩ := dotted_head dir
    rw [List.prefix_nil.mp hleads] at hkey
    cases hkey
  have hread' := hread
  rw [hcontent] at hread'
  have harrays : NoArrays dir first := by
    obtain ⟨first', later, hfirst', -, hitems⟩ := read_behind hbegins hread'
    rw [hfirst] at hfirst'
    cases hfirst'
    exact NoArrays.left (hitems ▸ hplain.arrays)
  have hdottedLine : dottedLine dir ≠ [] := by
    obtain ⟨tail, hkey⟩ := dotted_head dir
    rw [dottedLine, String.toList_append, hkey]
    exact List.cons_ne_nil _ _
  have hquote : " = \"trusted\"".toList.getLast? = some '"' := rfl
  have hvalue : " = \"trusted\"".toList ≠ [] := List.cons_ne_nil _ _
  have hlast : (before ++ dottedLine dir).getLast? ≠ some '\n' := by
    rw [List.getLast?_append_of_ne_nil _ hdottedLine, dottedLine, String.toList_append,
      List.getLast?_append_of_ne_nil _ hvalue, hquote]
    decide
  rw [trustsProject_def hread (trustProject_dotted hdotted) (by simp [hdottedLine])]
  refine ⟨rewrites_line hbegins.1 hfirst hsplit hline hread' hvalid
    (placeOf_dotted harrays hcurrent) (dottedLine_plain hleads hsplit.plain) hdottedLine
    (readLine_dottedLine hplain.quotable), ?_⟩
  have hend : endLine (before ++ (dottedLine dir ++ lineEnd after)) =
      before ++ (dottedLine dir ++ endLine (lineEnd after)) := by
    rw [← List.append_assoc, endLine_append hlast, List.append_assoc]
  have hagain := endLine_endLine (before ++ (dottedLine dir ++ lineEnd after))
  rw [hcontent] at hdotted
  rw [hend] at hagain ⊢
  rw [trustProject_dotted (firstMatch_dottedLine hdotted (last_of_remainder hbegins.1)
    (atLineEnd_endLine (atLineEnd_lineEnd after))), hagain]

theorem trustsProject_of_section (hread : Toml.read content.toList = some items)
    (hvalid : Toml.Valid items) (hplain : Plain dir content.toList items)
    (hdotted : NoMatch (matchAssignment (dottedTrustKey dir)) true content.toList)
    {before body rest : List Char}
    (hsection : FirstMatch (matchTrustSection dir) true content.toList before (body, rest)) :
    TrustsProject dir content (ensureCodexProjectTrusted dir (some content)) ↔
      matchTrustLevel body ≠ none ∨ (body = [] ∧ Unset dir items) := by
  obtain ⟨after, hcontent, hmatch⟩ := hsection.found
  obtain ⟨text, rfl, he⟩ := matchTrustSection_eq_some hmatch
  have hbegins := hplain.header before _ hcontent hsection.starts
  obtain ⟨line, below, s, hsplit⟩ := (hplain.first before text hcontent hsection.starts).split
  have hbody : body = line := by
    have htake := takeWhile_line hsplit.plain (atLineEnd_lineEnd text)
    rw [← hsplit.split] at htake
    rw [← htake]
    exact (Prod.mk.inj he).1
  obtain ⟨first, hfirst⟩ := Option.isSome_iff_exists.mp hbegins.2
  have hread' := hread
  rw [hcontent] at hread'
  have harrays : NoArrays dir first := by
    obtain ⟨first', later, hfirst', -, hitems⟩ := read_behind hbegins hread'
    rw [hfirst] at hfirst'
    cases hfirst'
    exact NoArrays.left (hitems ▸ hplain.arrays)
  rw [← upToHeader_append] at hcontent hread'
  rw [hcontent] at hdotted hsection
  have hheader := (firstHeader_iff.1 hsection).1
  have hlead : Lines.remainder '\n' (upToHeader dir before) = [] := upToHeader_remainder before
  have hfirst' := read_upToHeader hplain.quotable hbegins.1 hfirst
  have hcurrent := current_headerItem harrays
  have htext := noMatch_behind (upToHeader_last before) (by decide) hdotted
  have hwritten := trustProject_section hdotted hheader
  rw [show (text.takeWhile fun c => !isLineTerminator c) = line by
    rw [← hbody]; exact (Prod.mk.inj he).1.symm] at hwritten
  rw [hbody]
  by_cases htrust : matchTrustLevel line = none
  · rw [updateTrustBody_of_other hsplit.plain htrust] at hwritten
    by_cases hblank : trimEnd line = []
    · rw [if_pos (trimEnd_trimStart_eq_nil.2 hblank), hblank] at hwritten
      have hinsert : trustProject dir content.toList =
          upToHeader dir before ++ (trustLine.toList ++ '\n' :: lineEnd text) := by
        rw [hcontent, hwritten]
        simp
      rw [trustsProject_def hread hinsert (by simp [upToHeader])]
      have hquiet : NoMatch (matchAssignment (dottedTrustKey dir)) true
          (upToHeader dir before ++ (trustLine.toList ++ '\n' :: lineEnd text)) :=
        noMatch_exchange (upToHeader_last before) hdotted (by rw [trimStart_trustLine]; decide)
          (noMatch_trustLine (noMatch_cons.2 (noMatch_lineEnd hsplit htext)))
      have hstable := ensure_stable (by intro c hc; cases hc; decide) hquiet (hheader.exchange _)
      constructor
      · rintro ⟨hrewrites, -⟩
        have hline := blank_line_lost hlead hfirst' hread' hcurrent hsplit
          (trimEnd_eq_nil.1 hblank) hrewrites
        have hsame : lineEnd text = text := by
          have hjoin := hsplit.split
          rw [hline] at hjoin
          exact hjoin.symm
        rw [hsame] at hrewrites
        exact .inr ⟨hline, (rewrites_insert hlead hfirst' hread' hvalid hcurrent).mp hrewrites⟩
      · rintro (hnone | ⟨hline, hunset⟩)
        · exact absurd htrust hnone
        · have hsame : lineEnd text = text := by
            have hjoin := hsplit.split
            rw [hline] at hjoin
            exact hjoin.symm
          rw [hsame] at hstable ⊢
          exact ⟨(rewrites_insert hlead hfirst' hread' hvalid hcurrent).mpr hunset, hstable⟩
    · refine iff_of_false ?_ ?_
      · rw [trustsProject_def hread rfl (by rw [hcontent, hwritten]; simp [upToHeader])]
        rintro ⟨-, hstable⟩
        rw [hcontent] at hstable
        exact grows hdotted hheader hsplit htrust hblank hstable
      · rintro (hnone | ⟨rfl, -⟩)
        · exact hnone htrust
        · exact hblank rfl
  · refine iff_of_true ?_ (.inl htrust)
    rw [updateTrustBody_of_trust hsplit.plain htrust, ← hcontent] at hwritten
    obtain ⟨value, hitem⟩ := statement_of_trustLevel htrust hsplit.reads
    obtain rfl := (Toml.Item.mk.inj (List.cons.inj hitem).1).2
    have hline : line ≠ [] := by
      rintro rfl
      exact htrust rfl
    rw [trustsProject_def hread hwritten (by simp [upToHeader])]
    refine ⟨rewrites_line hlead hfirst' hsplit hline hread' hvalid ?_ trustLine_plain
      trustLine_ne_nil readLine_trustItem, ?_⟩
    · rw [hcurrent]
      rfl
    · have hrest := noMatch_lineEnd hsplit htext
      exact ensure_stable (atLineEnd_lineEnd text)
        (noMatch_exchange (upToHeader_last before) hdotted (by rw [trimStart_trustLine]; decide)
          (noMatch_trustLine (noMatch_true_iff.1 hrest).2))
        (hheader.exchange _)

theorem trustsProject_of_absent (hread : Toml.read content.toList = some items)
    (hvalid : Toml.Valid items) (hplain : Plain dir content.toList items)
    (hdotted : findLine (matchAssignment (dottedTrustKey dir)) true content.toList = none)
    (hsection : findLine (matchTrustSection dir) true content.toList = none) :
    TrustsProject dir content (ensureCodexProjectTrusted dir (some content)) ↔
      Unclaimed dir items := by
  have hrewrites := rewrites_absent hplain.quotable hplain.arrays (hplain.tidy hdotted hsection)
    hread hvalid
  rw [trustsProject_def hread (trustProject_absent hdotted hsection) (by simp [upToHeader]), hrewrites]
  refine ⟨And.left, fun hunclaimed => ⟨hunclaimed, ?_⟩⟩
  exact ensure_stable (by intro c hc; cases hc; decide)
    (noMatch_absent (findLine_eq_none.1 hdotted))
    (firstHeader_absent hplain hread hunclaimed _)

end Main

section Examples

instance (before : List Char) : Decidable (BeginsStatement before) :=
  inferInstanceAs (Decidable (_ ∧ _))

instance (before : List Char) : Decidable (AtRoot before) := inferInstanceAs (Decidable (_ = _))

instance (text : List Char) : Decidable (OwnLine text) :=
  @instDecidableAnd _ _ (List.decidableBAll _ _) (inferInstanceAs (Decidable (_ = _)))

-- what `Plain` asks of one place of the text
def PlainAt (dir : String) (before after : List Char) : Prop :=
  (matchAssignment (dottedTrustKey dir) after ≠ none →
    BeginsStatement before ∧ AtRoot before ∧ OwnLine after) ∧
  ((trustSectionHeader dir).toList <+: after → BeginsStatement before) ∧
  ((trustSectionHeader dir).toList ++ ['\n'] <+: after →
    OwnLine (after.drop ((trustSectionHeader dir).toList.length + 1)))

instance (dir : String) (before after : List Char) : Decidable (PlainAt dir before after) :=
  inferInstanceAs (Decidable (_ ∧ _ ∧ _))

theorem plain_of_places {dir : String} {content : List Char} {items : List Toml.Item}
    (hquotable : Toml.Quotable dir) (harrays : NoArrays dir items) (htidy : Tidy content)
    (h : ∀ n < content.length + 1, StartsLine true (content.take n) →
      PlainAt dir (content.take n) (content.drop n)) : Plain dir content items := by
  have hsplit : ∀ before after, content = before ++ after → StartsLine true before →
      PlainAt dir before after := by
    rintro before after rfl hstart
    have hplace := h before.length (by rw [List.length_append]; omega)
    rw [List.take_left, List.drop_left] at hplace
    exact hplace hstart
  refine ⟨hquotable, harrays, fun before after hcontent hstart => (hsplit _ _ hcontent hstart).1,
    fun before after hcontent hstart =>
      (hsplit _ _ hcontent hstart).2.1 (List.prefix_append _ _), ?_, fun _ _ => htidy⟩
  intro before after hcontent hstart
  have hown := (hsplit _ _ hcontent hstart).2.2 ⟨after, by simp⟩
  rwa [show (trustSectionHeader dir).toList ++ '\n' :: after =
    ((trustSectionHeader dir).toList ++ ['\n']) ++ after by simp,
    show (trustSectionHeader dir).toList.length + 1 =
      ((trustSectionHeader dir).toList ++ ['\n']).length by simp, List.drop_left] at hown

def itemsOf (text : String) : List Toml.Item := (Toml.read text.toList).getD []

def untrusted : String := "[projects.\"/p\"]\ntrust_level = \"untrusted\"\nmodel = \"x\"\n"

def modelFirst : String := "[projects.\"/p\"]\nmodel = \"x\"\ntrust_level = \"untrusted\"\n"

end Examples

end Conduit.Connect
