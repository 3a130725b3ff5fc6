import Conduit.Foundation.JsonReading
import Conduit.Foundation.Lines

-- TOML read line by line: what the lines define, with the text of each value kept as it is
namespace Toml

abbrev Line := List Char

section Characters

def isBlank (c : Char) : Bool := c = ' ' || c = '\t'

def isBare (c : Char) : Bool := c.isAlphanum || c = '_' || c = '-'

def isControl (c : Char) : Bool := (c.toNat < 32 && c ≠ '\t') || c.toNat = 127

def skip (text : List Char) : List Char := text.dropWhile isBlank

def strip (text : List Char) : List Char := ((skip text).reverse.dropWhile isBlank).reverse

def hexDigit? (c : Char) : Option ℕ :=
  if c.isDigit then some (c.toNat - 48)
  else if 97 ≤ c.toNat ∧ c.toNat ≤ 102 then some (c.toNat - 87)
  else if 65 ≤ c.toNat ∧ c.toNat ≤ 70 then some (c.toNat - 55)
  else none

def hexNumber (digits : List Char) : Option ℕ :=
  digits.foldlM (fun n c => (hexDigit? c).map (16 * n + ·)) 0

def scalar (n : ℕ) : Option Char := if n.isValidChar then some (Char.ofNat n) else none

end Characters

section Keys

def escaped : Char → Option Char
  | 'b' => some (Char.ofNat 8)
  | 't' => some (Char.ofNat 9)
  | 'n' => some (Char.ofNat 10)
  | 'f' => some (Char.ofNat 12)
  | 'r' => some (Char.ofNat 13)
  | '"' => some '"'
  | '\\' => some '\\'
  | _ => none

def readEscape : List Char → Option (Char × List Char)
  | 'u' :: a :: b :: c :: d :: rest => (hexNumber [a, b, c, d] >>= scalar).map (·, rest)
  | 'U' :: a :: b :: c :: d :: e :: f :: g :: h :: rest =>
      (hexNumber [a, b, c, d, e, f, g, h] >>= scalar).map (·, rest)
  | c :: rest => (escaped c).map (·, rest)
  | [] => none

def readUnit : List Char → Option (Char × List Char)
  | [] => none
  | c :: rest =>
      if c = '\\' then readEscape rest else if isControl c then none else some (c, rest)

-- a one-line string after its quotation mark, and the text behind it
def readText : ℕ → List Char → Option (List Char × List Char)
  | 0, _ => none
  | fuel + 1, text =>
      if text.head? = some '"' then some ([], text.tail)
      else (readUnit text).bind fun e => (readText fuel e.2).map fun t => (e.1 :: t.1, t.2)

def readLiteral (text : List Char) : Option (List Char × List Char) :=
  let inside := text.takeWhile (· ≠ '\x27')
  match text.dropWhile (· ≠ '\x27') with
  | [] => none
  | _ :: rest => if inside.any isControl then none else some (inside, rest)

def readSimpleKey : List Char → Option (String × List Char)
  | [] => none
  | c :: rest =>
      if c = '"' then
        (readText (rest.length + 1) rest).map fun e => (String.ofList e.1, e.2)
      else if c = '\x27' then (readLiteral rest).map fun e => (String.ofList e.1, e.2)
      else if isBare c then
        some (String.ofList ((c :: rest).takeWhile isBare), (c :: rest).dropWhile isBare)
      else none

def readDotted : ℕ → List Char → Option (List String × List Char)
  | 0, _ => none
  | fuel + 1, text =>
      (readSimpleKey text).bind fun e =>
        match skip e.2 with
        | '.' :: rest => (readDotted fuel (skip rest)).map fun t => (e.1 :: t.1, t.2)
        | rest => some ([e.1], rest)

def readKey (text : List Char) : Option (List String × List Char) :=
  readDotted (text.length + 1) text

end Keys

section Values

inductive Quote where
  | basic
  | literal
deriving DecidableEq, Repr

-- where the text of a value stands, `depth` brackets deep; `quotes` marks of a multi-line
-- string have just been read
inductive Scan where
  | plain (depth : ℕ)
  | comment (depth : ℕ)
  | opened (quote : Quote) (depth : ℕ)
  | empty (quote : Quote) (depth : ℕ)
  | text (quote : Quote) (depth : ℕ)
  | escape (depth : ℕ)
  | block (quote : Quote) (depth quotes : ℕ)
  | closed (quote : Quote) (depth quotes : ℕ)
  | blockEscape (depth : ℕ)
deriving DecidableEq, Repr

def Quote.mark : Quote → Char
  | basic => '"'
  | literal => '\x27'

def Quote.escapes (quote : Quote) (c : Char) : Bool := quote = .basic && c = '\\'

namespace Scan

def plainNext (depth : ℕ) (c : Char) : Option Scan :=
  if c = '#' then some (.comment depth)
  else if c = '"' then some (.opened .basic depth)
  else if c = '\x27' then some (.opened .literal depth)
  else if c = '[' ∨ c = '\x7b' then some (.plain (depth + 1))
  else if c = ']' ∨ c = '\x7d' then
    match depth with
    | 0 => none
    | depth + 1 => some (.plain depth)
  else if isBlank c ∨ (32 < c.toNat ∧ c.toNat < 127) then some (.plain depth)
  else none

def next : Scan → Char → Option Scan
  | plain depth, c => plainNext depth c
  | comment depth, _ => some (.comment depth)
  | opened q depth, c =>
      if c = q.mark then some (.empty q depth)
      else if q.escapes c then some (.escape depth)
      else some (.text q depth)
  | empty q depth, c => if c = q.mark then some (.block q depth 0) else plainNext depth c
  | text q depth, c =>
      if c = q.mark then some (.plain depth)
      else if q.escapes c then some (.escape depth)
      else some (.text q depth)
  | escape depth, _ => some (.text .basic depth)
  | block q depth quotes, c =>
      if c = q.mark then
        if quotes < 2 then some (.block q depth (quotes + 1)) else some (.closed q depth 0)
      else if q.escapes c then some (.blockEscape depth)
      else some (.block q depth 0)
  | closed q depth quotes, c =>
      if c = q.mark ∧ quotes < 2 then some (.closed q depth (quotes + 1)) else plainNext depth c
  | blockEscape depth, _ => some (.block .basic depth 0)

-- at the end of a line only a multi-line string or a bracket may be open
def endLine : Scan → Option Scan
  | plain depth => some (.plain depth)
  | comment depth => some (.plain depth)
  | opened _ _ => none
  | empty _ depth => some (.plain depth)
  | text _ _ => none
  | escape _ => none
  | block q depth _ => some (.block q depth 0)
  | closed _ depth _ => some (.plain depth)
  | blockEscape depth => some (.block .basic depth 0)

def inComment : Scan → Bool
  | comment _ => true
  | _ => false

end Scan

-- one line of a value, and its text without a comment
def scan : Scan → Line → Option (Scan × List Char)
  | s, [] => s.endLine.map (·, [])
  | s, c :: rest =>
      (s.next c).bind fun s' => (scan s' rest).map fun e =>
        (e.1, if s'.inComment then e.2 else c :: e.2)

end Values

section Statements

inductive Statement where
  | blank
  | table (path : List String)
  | tables (path : List String)
  | entry (key : List String) (text : List Char)
deriving DecidableEq, Repr

structure Item where
  lines : List Line
  statement : Statement
deriving DecidableEq, Repr

-- an entry whose value goes on in the next line
structure Pending where
  key : List String
  text : List Char
  scan : Scan
  lines : List Line
deriving DecidableEq, Repr

def endsLine (text : List Char) : Bool :=
  match skip text with
  | [] => true
  | c :: _ => c = '#'

def readTable (text : List Char) : Option Statement :=
  (readKey (skip text)).bind fun e =>
    match skip e.2 with
    | ']' :: rest => if endsLine rest then some (.table e.1) else none
    | _ => none

def readTables (text : List Char) : Option Statement :=
  (readKey (skip text)).bind fun e =>
    match skip e.2 with
    | ']' :: ']' :: rest => if endsLine rest then some (.tables e.1) else none
    | _ => none

def readHeader : List Char → Option Statement
  | '[' :: rest => readTables rest
  | text => readTable text

def settle (p : Pending) : Option Pending × List Item :=
  if p.scan = .plain 0 then (none, [⟨p.lines, .entry p.key (strip p.text)⟩]) else (some p, [])

def readValue (key : List String) (line : Line) : List Char → Option (Option Pending × List Item)
  | '=' :: value =>
      (scan (.plain 0) value).bind fun v =>
        if strip v.2 = [] then none else some (settle ⟨key, v.2, v.1, [line]⟩)
  | _ => none

def readEntry (line : Line) (text : List Char) : Option (Option Pending × List Item) :=
  (readKey text).bind fun e => readValue e.1 line e.2

def readLine (line : Line) : Option (Option Pending × List Item) :=
  match skip line with
  | [] => some (none, [⟨[line], .blank⟩])
  | c :: rest =>
      if c = '#' then some (none, [⟨[line], .blank⟩])
      else if c = '[' then (readHeader rest).map fun s => (none, [⟨[line], s⟩])
      else readEntry line (c :: rest)

def continueValue (p : Pending) (line : Line) : Option (Option Pending × List Item) :=
  (scan p.scan line).map fun v =>
    settle ⟨p.key, p.text ++ '\n' :: v.2, v.1, p.lines ++ [line]⟩

def readNext : Option Pending → Line → Option (Option Pending × List Item)
  | none, line => readLine line
  | some p, line => continueValue p line

def advance : Option Pending → List Line → Option (Option Pending × List Item)
  | p, [] => some (p, [])
  | p, line :: rest =>
      (readNext p line).bind fun e => (advance e.1 rest).map fun t => (t.1, e.2 ++ t.2)

def trimReturn (line : Line) : Line :=
  if line.getLast? = some '\r' then line.dropLast else line

def lines (text : List Char) : List Line :=
  (Lines.completed '\n' text ++
    if Lines.remainder '\n' text = [] then [] else [Lines.remainder '\n' text]).map trimReturn

def readLines (ls : List Line) : Option (List Item) :=
  (advance none ls).bind fun e => if e.1 = none then some e.2 else none

def read (text : List Char) : Option (List Item) := readLines (lines text)

end Statements

section Lines

theorem lines_append {x : List Char} (h : Lines.remainder '\n' x = []) (y : List Char) :
    lines (x ++ y) = lines x ++ lines y := by
  simp only [lines, Lines.completed_append, Lines.remainder_append, h, List.nil_append, if_pos,
    List.append_nil, List.map_append, List.append_assoc]

theorem lines_line {line : Line} (h : '\n' ∉ line) : lines (line ++ ['\n']) = [trimReturn line] := by
  have hline := Lines.split_line h []
  simp only [lines, Lines.completed, Lines.remainder, hline]
  rfl

theorem lines_cons {line : Line} (h : '\n' ∉ line) (rest : List Char) :
    lines (line ++ '\n' :: rest) = trimReturn line :: lines rest := by
  rw [show line ++ '\n' :: rest = (line ++ ['\n']) ++ rest by simp,
    lines_append (Lines.remainder_concat_sep line), lines_line h]
  rfl

theorem lines_last {line : Line} (h : '\n' ∉ line) (hne : line ≠ []) :
    lines line = [trimReturn line] := by
  simp only [lines, Lines.completed_of_not_mem h, Lines.remainder_of_not_mem h, if_neg hne]
  rfl

theorem remainder_ne_nil {text : List Char} {c : Char} (hlast : text.getLast? = some c)
    (hc : c ≠ '\n') : Lines.remainder '\n' text ≠ [] := by
  have htext := List.dropLast_append_getLast? _ hlast
  have hmem : '\n' ∉ Lines.remainder '\n' text.dropLast ++ [c] := by
    intro hmem
    rcases List.mem_append.mp hmem with hmem | hmem
    · exact Lines.not_mem_remainder _ hmem
    · exact hc (List.mem_singleton.mp hmem).symm
  rw [← htext, Lines.remainder_append, Lines.remainder_of_not_mem hmem]
  simp

theorem trimReturn_of_not_mem {line : Line} (h : '\r' ∉ line) : trimReturn line = line :=
  if_neg fun hlast => h (List.mem_of_getLast? hlast)

theorem trimReturn_concat (line : Line) : trimReturn (line ++ ['\r']) = line := by
  rw [trimReturn, if_pos List.getLast?_concat, List.dropLast_concat]

theorem remainder_line {line : Line} : Lines.remainder '\n' (line ++ ['\n']) = [] :=
  Lines.remainder_concat_sep line

theorem lines_concat {text : List Char} (h : Lines.remainder '\n' text ≠ []) :
    lines (text ++ ['\n']) = lines text := by
  have hsep : '\n' ∉ Lines.remainder '\n' text := Lines.not_mem_remainder text
  have hcompleted : Lines.completed '\n' (text ++ ['\n']) =
      Lines.completed '\n' text ++ [Lines.remainder '\n' text] := by
    rw [Lines.completed_append, Lines.completed_line hsep]
    rfl
  simp only [lines, hcompleted, remainder_line, if_pos, if_neg h, List.append_nil]

end Lines

section Advance

theorem advance_append (p : Option Pending) (xs ys : List Line) :
    advance p (xs ++ ys) =
      (advance p xs).bind fun e => (advance e.1 ys).map fun t => (t.1, e.2 ++ t.2) := by
  induction xs generalizing p with
  | nil => simp [advance]
  | cons line xs ih =>
      rw [List.cons_append, advance, advance]
      cases hnext : readNext p line with
      | none => rfl
      | some e =>
          simp only [Option.bind_some, ih]
          cases advance e.1 xs with
          | none => rfl
          | some t =>
              cases hys : advance t.1 ys with
              | none => simp [hys]
              | some u => simp [hys]

theorem readLines_eq_some {ls : List Line} {items : List Item} :
    readLines ls = some items ↔ advance none ls = some (none, items) := by
  unfold readLines
  cases hadvance : advance none ls with
  | none => simp
  | some e =>
      obtain ⟨p, found⟩ := e
      cases p with
      | none => simp
      | some p => simp

theorem readLines_append {xs : List Line} {items : List Item} (h : readLines xs = some items)
    (ys : List Line) : readLines (xs ++ ys) = (readLines ys).map (items ++ ·) := by
  have hxs := readLines_eq_some.1 h
  rw [readLines, readLines, advance_append, hxs, Option.bind_some]
  cases advance none ys with
  | none => rfl
  | some e =>
      obtain ⟨p, found⟩ := e
      cases p with
      | none => rfl
      | some p => rfl

theorem read_append {x y : List Char} {items : List Item} (hx : Lines.remainder '\n' x = [])
    (h : read x = some items) : read (x ++ y) = (read y).map (items ++ ·) := by
  rw [read, lines_append hx, readLines_append h]
  rfl

def held (p : Option Pending) : List Line := (p.map (·.lines)).getD []

theorem settle_lines (p : Pending) :
    (settle p).2.flatMap (·.lines) ++ held (settle p).1 = p.lines := by
  unfold settle
  split
  next => simp [held]
  next => simp [held]

theorem readLine_lines {line : Line} {e : Option Pending × List Item} (h : readLine line = some e) :
    e.2.flatMap (·.lines) ++ held e.1 = [line] := by
  unfold readLine at h
  split at h
  next => cases h; rfl
  next c rest _ =>
    split at h
    next => cases h; rfl
    next =>
      split at h
      next =>
        obtain ⟨s, -, rfl⟩ := Option.map_eq_some_iff.mp h
        rfl
      next =>
        obtain ⟨key, -, h⟩ := Option.bind_eq_some_iff.mp h
        unfold readValue at h
        split at h
        next =>
          obtain ⟨v, -, h⟩ := Option.bind_eq_some_iff.mp h
          split at h
          next => cases h
          next =>
            cases h
            exact settle_lines _
        next => cases h

theorem settle_none {p : Pending} {items : List Item} (h : settle p = (none, items)) :
    items = [⟨p.lines, .entry p.key (strip p.text)⟩] := by
  unfold settle at h
  split at h
  next => exact (Prod.mk.inj h).2.symm
  next => cases h

theorem readLine_none {line : Line} {items : List Item} (h : readLine line = some (none, items)) :
    ∃ s, items = [⟨[line], s⟩] := by
  unfold readLine at h
  split at h
  next => cases h; exact ⟨_, rfl⟩
  next c rest _ =>
    split at h
    next => cases h; exact ⟨_, rfl⟩
    next =>
      split at h
      next =>
        obtain ⟨s, -, heq⟩ := Option.map_eq_some_iff.mp h
        exact ⟨s, (Prod.mk.inj heq).2.symm⟩
      next =>
        obtain ⟨key, -, h⟩ := Option.bind_eq_some_iff.mp h
        unfold readValue at h
        split at h
        next =>
          obtain ⟨v, -, h⟩ := Option.bind_eq_some_iff.mp h
          split at h
          next => cases h
          next => exact ⟨_, settle_none (Option.some.inj h)⟩
        next => cases h

theorem readNext_lines {p : Option Pending} {line : Line} {e : Option Pending × List Item}
    (h : readNext p line = some e) : e.2.flatMap (·.lines) ++ held e.1 = held p ++ [line] := by
  cases p with
  | none => exact readLine_lines h
  | some p =>
      obtain ⟨v, -, rfl⟩ := Option.map_eq_some_iff.mp h
      exact settle_lines _

theorem advance_lines {p : Option Pending} {ls : List Line} {e : Option Pending × List Item}
    (h : advance p ls = some e) : e.2.flatMap (·.lines) ++ held e.1 = held p ++ ls := by
  induction ls generalizing p e with
  | nil =>
      cases h
      exact (List.append_nil _).symm
  | cons line ls ih =>
      obtain ⟨first, hfirst, h⟩ := Option.bind_eq_some_iff.mp h
      obtain ⟨rest, hrest, rfl⟩ := Option.map_eq_some_iff.mp h
      have hline := readNext_lines hfirst
      have hlines := ih hrest
      rw [List.flatMap_append, List.append_assoc, hlines, ← List.append_assoc, hline,
        List.append_assoc]
      rfl

theorem read_lines {text : List Char} {items : List Item} (h : read text = some items) :
    items.flatMap (·.lines) = lines text := by
  have hadvance := advance_lines (readLines_eq_some.1 h)
  simpa [held] using hadvance

theorem readLines_singleton {line : Line} {items : List Item} :
    readLines [line] = some items ↔ readLine line = some (none, items) := by
  rw [readLines_eq_some, advance, readNext]
  cases hline : readLine line with
  | none => simp
  | some e =>
      obtain ⟨p, found⟩ := e
      simp [advance]

theorem readLines_cons {line : Line} {item : Item} (h : readLine line = some (none, [item]))
    (rest : List Line) : readLines (line :: rest) = (readLines rest).map (item :: ·) :=
  readLines_append (readLines_singleton.2 h) rest

end Advance

section Strings

def Quotable (s : String) : Prop := ∀ c ∈ s.toList, c.toNat ≠ 127

theorem hexNumber_control : ∀ n < 32,
    hexNumber ['0', '0', Json.hexDigit (n / 16), Json.hexDigit (n % 16)] = some n := by
  decide

theorem readUnit_escapeChar {c : Char} (hc : c.toNat ≠ 127) (rest : List Char) :
    readUnit (Json.escapeChar c ++ rest) = some (c, rest) := by
  unfold Json.escapeChar
  split
  next h => rw [h]; rfl
  next =>
  split
  next h => rw [h]; rfl
  next hbackslash =>
  split
  next h => rw [← Char.ofNat_toNat c, h]; rfl
  next =>
  split
  next h => rw [← Char.ofNat_toNat c, h]; rfl
  next =>
  split
  next h => rw [← Char.ofNat_toNat c, h]; rfl
  next =>
  split
  next h => rw [← Char.ofNat_toNat c, h]; rfl
  next =>
  split
  next h => rw [← Char.ofNat_toNat c, h]; rfl
  next =>
  split
  next h =>
    change ((hexNumber ['0', '0', Json.hexDigit (c.toNat / 16), Json.hexDigit (c.toNat % 16)] >>=
      scalar).map (·, rest)) = _
    rw [hexNumber_control _ h]
    have hvalid : c.toNat.isValidChar := .inl (by omega)
    simp only [Option.bind_eq_bind, Option.bind_some, scalar, if_pos hvalid, Option.map_some,
      Char.ofNat_toNat]
  next h =>
    have hcontrol : isControl c = false := by
      rw [isControl, decide_eq_false h, decide_eq_false hc]
      rfl
    simp only [List.cons_append, List.nil_append, readUnit, if_neg hbackslash, hcontrol]
    rfl

theorem readText_escaped {s : List Char} (hs : ∀ c ∈ s, c.toNat ≠ 127) {fuel : ℕ}
    (hfuel : s.length < fuel) (rest : List Char) :
    readText fuel (s.flatMap Json.escapeChar ++ '"' :: rest) = some (s, rest) := by
  induction s generalizing fuel with
  | nil =>
      cases fuel with
      | zero => cases hfuel
      | succ fuel => rfl
  | cons c s ih =>
      cases fuel with
      | zero => cases hfuel
      | succ fuel =>
          obtain ⟨d, more, hescape, hne⟩ := Json.head_escapeChar c
          have hhead : (Json.escapeChar c ++ (s.flatMap Json.escapeChar ++ '"' :: rest)).head? ≠
              some '"' := by
            rw [hescape]
            exact fun h => hne (Option.some.inj h)
          rw [List.flatMap_cons, List.append_assoc, readText, if_neg hhead,
            readUnit_escapeChar (hs c List.mem_cons_self), Option.bind_some,
            ih (fun x hx => hs x (List.mem_cons_of_mem c hx)) (Nat.lt_of_succ_lt_succ hfuel)]
          rfl

theorem toList_quote (s : String) (rest : List Char) :
    (Json.quote s).toList ++ rest = '"' :: (s.toList.flatMap Json.escapeChar ++ '"' :: rest) := by
  simp [Json.quote, String.toList_append]

theorem hexDigit_printable : ∀ n < 16, 32 ≤ (Json.hexDigit n).toNat := by decide

theorem escapeChar_printable (c : Char) : ∀ d ∈ Json.escapeChar c, 32 ≤ d.toNat := by
  have hpair : ∀ d : Char, 32 ≤ d.toNat → ∀ x ∈ ['\\', d], 32 ≤ x.toNat := by
    intro d hd x hx
    rcases List.mem_pair.mp hx with rfl | rfl
    · decide
    · exact hd
  unfold Json.escapeChar
  split
  next => exact hpair _ (by decide)
  next =>
  split
  next => exact hpair _ (by decide)
  next =>
  split
  next => exact hpair _ (by decide)
  next =>
  split
  next => exact hpair _ (by decide)
  next =>
  split
  next => exact hpair _ (by decide)
  next =>
  split
  next => exact hpair _ (by decide)
  next =>
  split
  next => exact hpair _ (by decide)
  next =>
  split
  next h =>
    have hlow := hexDigit_printable (c.toNat % 16) (by omega)
    have hhigh := hexDigit_printable (c.toNat / 16) (by omega)
    have hmark : 32 ≤ 'u'.toNat ∧ 32 ≤ '0'.toNat ∧ 32 ≤ '\\'.toNat := by decide
    intro d hd
    simp only [List.mem_cons, List.not_mem_nil, or_false] at hd
    rcases hd with rfl | rfl | rfl | rfl | rfl | rfl
    · exact hmark.2.2
    · exact hmark.1
    · exact hmark.2.1
    · exact hmark.2.1
    · exact hhigh
    · exact hlow
  next h =>
    intro d hd
    rw [List.mem_singleton.mp hd]
    omega

theorem quote_printable (s : String) : ∀ c ∈ (Json.quote s).toList, 32 ≤ c.toNat := by
  have htext := toList_quote s []
  rw [List.append_nil] at htext
  intro c hc
  rw [htext, List.mem_cons, List.mem_append, List.mem_singleton] at hc
  have hmark : 32 ≤ '"'.toNat := by decide
  rcases hc with rfl | hc | rfl
  · exact hmark
  · obtain ⟨x, -, hx⟩ := List.mem_flatMap.mp hc
    exact escapeChar_printable x c hx
  · exact hmark

theorem length_le_escaped (s : List Char) : s.length ≤ (s.flatMap Json.escapeChar).length := by
  induction s with
  | nil => exact Nat.le_refl 0
  | cons c s ih =>
      obtain ⟨d, more, hescape, -⟩ := Json.head_escapeChar c
      rw [List.flatMap_cons, List.length_append, hescape, List.length_cons, List.length_cons]
      omega

theorem readSimpleKey_quote {s : String} (hs : Quotable s) (rest : List Char) :
    readSimpleKey ((Json.quote s).toList ++ rest) = some (s, rest) := by
  have hlength := length_le_escaped s.toList
  rw [toList_quote, readSimpleKey, if_pos rfl, readText_escaped hs]
  · simp
  · rw [List.length_append, List.length_cons]
    omega

end Strings

section Spelling

-- a text that reads as one key wherever no bare character follows
structure Spells (x : List Char) (key : String) : Prop where
  starts : ∃ c more, x = c :: more ∧ isBlank c = false ∧ c ≠ '#' ∧ c ≠ '['
  reads : ∀ rest : List Char, (∀ c ∈ rest.head?, isBare c = false) →
    readSimpleKey (x ++ rest) = some (key, rest)

theorem isBlank_of_isBare {c : Char} (h : isBare c = true) : isBlank c = false := by
  cases hblank : isBlank c with
  | false => rfl
  | true =>
      rw [isBlank, Bool.or_eq_true, decide_eq_true_eq, decide_eq_true_eq] at hblank
      rcases hblank with rfl | rfl <;> exact absurd h (by decide)

theorem Spells.quote {s : String} (hs : Quotable s) : Spells (Json.quote s).toList s where
  starts := by
    have htext := toList_quote s []
    rw [List.append_nil] at htext
    exact ⟨'"', _, htext, by decide, by decide, by decide⟩
  reads := fun rest _ => readSimpleKey_quote hs rest

theorem Spells.bare {x : List Char} (hne : x ≠ []) (hx : ∀ c ∈ x, isBare c = true) :
    Spells x (String.ofList x) := by
  obtain ⟨c, more, rfl⟩ := List.exists_cons_of_ne_nil hne
  have hc := hx c List.mem_cons_self
  have hother : ∀ {d : Char}, isBare d = false → c ≠ d := by
    intro d hd h
    rw [h, hd] at hc
    cases hc
  refine ⟨⟨c, more, rfl, isBlank_of_isBare hc, hother (by decide), hother (by decide)⟩, ?_⟩
  intro rest hrest
  have htake : (c :: more ++ rest).takeWhile isBare = c :: more := by
    rw [List.takeWhile_append_of_pos hx]
    cases rest with
    | nil => simp
    | cons d rest => simp [hrest d rfl]
  have hdrop : (c :: more ++ rest).dropWhile isBare = rest := by
    rw [List.dropWhile_append_of_pos hx]
    cases rest with
    | nil => rfl
    | cons d rest => rw [List.dropWhile_cons_of_neg (by simp [hrest d rfl])]
  rw [List.cons_append] at htake hdrop ⊢
  rw [readSimpleKey, if_neg (hother (by decide)), if_neg (hother (by decide)), if_pos hc, htake,
    hdrop]

theorem Spells.skip_append {x : List Char} {key : String} (h : Spells x key) (rest : List Char) :
    skip (x ++ rest) = x ++ rest := by
  obtain ⟨c, more, rfl, hblank, -⟩ := h.starts
  exact List.dropWhile_cons_of_neg (by simp [hblank])

theorem Spells.length_pos {x : List Char} {key : String} (h : Spells x key) : 0 < x.length := by
  obtain ⟨c, more, rfl, -⟩ := h.starts
  exact Nat.succ_pos _

theorem readDotted_dot {x : List Char} {key : String} (h : Spells x key) (fuel : ℕ)
    (rest : List Char) :
    readDotted (fuel + 1) (x ++ '.' :: rest) =
      (readDotted fuel (skip rest)).map fun t => (key :: t.1, t.2) := by
  rw [readDotted, h.reads _ (by intro c hc; cases hc; decide), Option.bind_some]
  rfl

theorem readDotted_last {x : List Char} {key : String} (h : Spells x key) (fuel : ℕ)
    {rest : List Char} (hrest : ∀ c ∈ rest.head?, isBare c = false)
    (hdot : (skip rest).head? ≠ some '.') :
    readDotted (fuel + 1) (x ++ rest) = some ([key], skip rest) := by
  rw [readDotted, h.reads _ hrest, Option.bind_some]
  dsimp only
  split
  next hskip =>
    rw [hskip] at hdot
    exact absurd rfl hdot
  next => rfl

-- keys with points between them
def dotted : List (List Char) → List Char
  | [] => []
  | [x] => x
  | x :: rest => x ++ '.' :: dotted rest

def Spelled (texts : List (List Char)) (keys : List String) : Prop := List.Forall₂ Spells texts keys

theorem Spelled.starts {texts : List (List Char)} {keys : List String} (h : Spelled texts keys)
    (hne : keys ≠ []) :
    ∃ c more, dotted texts = c :: more ∧ isBlank c = false ∧ c ≠ '#' ∧ c ≠ '[' := by
  cases h with
  | nil => exact absurd rfl hne
  | cons hx htail =>
      obtain ⟨c, more, rfl, hc⟩ := hx.starts
      cases htail with
      | nil => exact ⟨c, more, rfl, hc⟩
      | cons _ _ => exact ⟨c, _, rfl, hc⟩

theorem Spelled.length_le {texts : List (List Char)} {keys : List String} (h : Spelled texts keys) :
    keys.length ≤ (dotted texts).length := by
  induction h with
  | nil => exact Nat.le_refl 0
  | cons hx htail ih =>
      cases htail with
      | nil => exact hx.length_pos
      | cons hy hmore =>
          have hlength := hx.length_pos
          simp only [dotted, List.length_append, List.length_cons] at ih ⊢
          omega

theorem Spelled.skip_append {texts : List (List Char)} {keys : List String}
    (h : Spelled texts keys) (hne : keys ≠ []) (rest : List Char) :
    skip (dotted texts ++ rest) = dotted texts ++ rest := by
  obtain ⟨c, more, htext, hblank, -⟩ := h.starts hne
  rw [htext]
  exact List.dropWhile_cons_of_neg (by simp [hblank])

theorem Spelled.readDotted {texts : List (List Char)} {keys : List String} (h : Spelled texts keys)
    (hne : keys ≠ []) {fuel : ℕ} (hfuel : keys.length < fuel) {rest : List Char}
    (hrest : ∀ c ∈ rest.head?, isBare c = false) (hdot : (skip rest).head? ≠ some '.') :
    readDotted fuel (dotted texts ++ rest) = some (keys, skip rest) := by
  induction h generalizing fuel with
  | nil => exact absurd rfl hne
  | cons hx htail ih =>
      cases fuel with
      | zero => cases hfuel
      | succ fuel =>
          cases htail with
          | nil => exact readDotted_last hx fuel hrest hdot
          | cons hy hmore =>
              have hspelled : Spelled _ _ := .cons hy hmore
              rw [dotted, List.append_assoc, List.cons_append, readDotted_dot hx,
                hspelled.skip_append (List.cons_ne_nil _ _),
                ih (List.cons_ne_nil _ _) (Nat.lt_of_succ_lt_succ hfuel)]
              · rfl
              · exact List.cons_ne_nil _ _

theorem Spelled.readKey {texts : List (List Char)} {keys : List String} (h : Spelled texts keys)
    (hne : keys ≠ []) {rest : List Char} (hrest : ∀ c ∈ rest.head?, isBare c = false)
    (hdot : (skip rest).head? ≠ some '.') :
    readKey (dotted texts ++ rest) = some (keys, skip rest) := by
  have hlength := h.length_le
  refine h.readDotted hne ?_ hrest hdot
  rw [List.length_append]
  omega

end Spelling

section Written

def header (texts : List (List Char)) : Line := '[' :: (dotted texts ++ [']'])

theorem readLine_header {texts : List (List Char)} {keys : List String} (h : Spelled texts keys)
    (hne : keys ≠ []) (rest : List Char) :
    readLine (header texts ++ rest) =
      if endsLine rest then some (none, [⟨[header texts ++ rest], .table keys⟩]) else none := by
  obtain ⟨c, more, htext, hblank, -, hbracket⟩ := h.starts hne
  have hkey : readKey (dotted texts ++ ']' :: rest) = some (keys, ']' :: rest) :=
    h.readKey hne (by intro c hc; cases hc; decide) (show some ']' ≠ some '.' by decide)
  have htable : readHeader (dotted texts ++ ']' :: rest) =
      if endsLine rest then some (.table keys) else none := by
    have hread : readHeader (dotted texts ++ ']' :: rest) =
        readTable (dotted texts ++ ']' :: rest) := by
      rw [htext, List.cons_append]
      unfold readHeader
      split
      next heq => exact absurd (List.cons.inj heq).1 hbracket
      next => rfl
    rw [hread, readTable, h.skip_append hne, hkey, Option.bind_some]
    rfl
  have hline : header texts ++ rest = '[' :: (dotted texts ++ ']' :: rest) := by simp [header]
  have hskip : skip (header texts ++ rest) = '[' :: (dotted texts ++ ']' :: rest) := by
    rw [hline]
    exact List.dropWhile_cons_of_neg (by decide)
  unfold readLine
  rw [hskip]
  dsimp only
  rw [if_neg (by decide), if_pos rfl, htable]
  split
  next => rfl
  next => rfl

-- the text of a value that ends with its line
structure OneLine (x : List Char) : Prop where
  scanned : scan (.plain 0) x = some (.plain 0, x)
  stripped : strip (' ' :: x) = x
  nonempty : x ≠ []

def assignment (texts : List (List Char)) (x : List Char) : Line :=
  dotted texts ++ ' ' :: '=' :: ' ' :: x

theorem readLine_entry {texts : List (List Char)} {keys : List String} (h : Spelled texts keys)
    (hne : keys ≠ []) {rest : List Char} (hrest : ∀ c ∈ rest.head?, isBare c = false)
    (hdot : (skip rest).head? ≠ some '.') :
    readLine (dotted texts ++ rest) = readValue keys (dotted texts ++ rest) (skip rest) := by
  obtain ⟨c, more, htext, hblank, hhash, hbracket⟩ := h.starts hne
  have hkey := h.readKey hne hrest hdot
  have hskip := h.skip_append hne rest
  rw [htext, List.cons_append] at hkey hskip ⊢
  unfold readLine
  rw [hskip]
  dsimp only
  rw [if_neg hhash, if_neg hbracket, readEntry, hkey, Option.bind_some]

theorem readLine_assignment {texts : List (List Char)} {keys : List String}
    (h : Spelled texts keys) (hne : keys ≠ []) {x : List Char} (hx : OneLine x) :
    readLine (assignment texts x) =
      some (none, [⟨[assignment texts x], .entry keys x⟩]) := by
  have hscan : scan (.plain 0) (' ' :: x) = some (.plain 0, ' ' :: x) := by
    rw [scan, show Scan.next (.plain 0) ' ' = some (.plain 0) from rfl, Option.bind_some,
      hx.scanned]
    rfl
  have hskip : skip (' ' :: '=' :: ' ' :: x) = '=' :: ' ' :: x := rfl
  rw [assignment, readLine_entry h hne (by intro c hc; cases hc; decide) (by rw [hskip]; simp),
    hskip, readValue]
  rw [hscan, Option.bind_some]
  dsimp only
  rw [hx.stripped, if_neg hx.nonempty, settle, if_pos rfl]
  dsimp only
  rw [hx.stripped]

end Written

section Passing

-- the scan of a text in which no comment begins
def pass : Scan → List Char → Option Scan
  | s, [] => some s
  | s, c :: rest => (s.next c).bind fun s' => if s'.inComment then none else pass s' rest

theorem pass_append (s : Scan) (x y : List Char) :
    pass s (x ++ y) = (pass s x).bind (pass · y) := by
  induction x generalizing s with
  | nil => rfl
  | cons c x ih =>
      rw [List.cons_append, pass, pass]
      cases s.next c with
      | none => rfl
      | some s' =>
          simp only [Option.bind_some]
          split
          next => rfl
          next => exact ih s'

theorem scan_of_pass {s s' : Scan} {x : List Char} (h : pass s x = some s') (y : List Char) :
    scan s (x ++ y) = (scan s' y).map fun e => (e.1, x ++ e.2) := by
  induction x generalizing s with
  | nil =>
      cases h
      simp
  | cons c x ih =>
      rw [pass] at h
      obtain ⟨t, ht, h⟩ := Option.bind_eq_some_iff.mp h
      split at h
      next => cases h
      next hcomment =>
        rw [List.cons_append, scan, ht, Option.bind_some, ih h, Option.map_map]
        congr 1
        funext e
        simp [hcomment]

theorem strip_solid {x : List Char} (hhead : ∀ c ∈ x.head?, isBlank c = false)
    (hlast : ∀ c ∈ x.getLast?, isBlank c = false) : strip (' ' :: x) = x := by
  have hdrop : ∀ y : List Char, (∀ c ∈ y.head?, isBlank c = false) → y.dropWhile isBlank = y := by
    intro y hy
    cases y with
    | nil => rfl
    | cons c y => exact List.dropWhile_cons_of_neg (by simp [hy c rfl])
  have hskip : skip (' ' :: x) = x := (List.dropWhile_cons_of_pos (by decide)).trans (hdrop x hhead)
  rw [strip, hskip, hdrop x.reverse (by rwa [List.head?_reverse]), List.reverse_reverse]

theorem OneLine.of_pass {x : List Char} {s : Scan} (h : pass (.plain 0) x = some s)
    (hs : s.endLine = some (.plain 0)) (hne : x ≠ [])
    (hhead : ∀ c ∈ x.head?, isBlank c = false) (hlast : ∀ c ∈ x.getLast?, isBlank c = false) :
    OneLine x where
  scanned := by
    have hscan := scan_of_pass h []
    rw [List.append_nil] at hscan
    rw [hscan, scan, hs]
    simp
  stripped := strip_solid hhead hlast
  nonempty := hne

theorem pass_char {s : Scan} {depth : ℕ} (hs : s = .opened .basic depth ∨ s = .text .basic depth)
    {c : Char} (hquote : c ≠ '"') (hbackslash : c ≠ '\\') :
    pass s [c] = some (.text .basic depth) := by
  have hmark : c ≠ Quote.basic.mark := hquote
  have hescapes : Quote.basic.escapes c = false := by
    rw [Quote.escapes, decide_eq_false hbackslash, Bool.and_false]
  rcases hs with rfl | rfl
  · simp [pass, Scan.next, hmark, hescapes, Scan.inComment]
  · simp [pass, Scan.next, hmark, hescapes, Scan.inComment]

theorem hexDigit_plain : ∀ n < 16, Json.hexDigit n ≠ '"' ∧ Json.hexDigit n ≠ '\\' := by decide

theorem pass_escapeChar {s : Scan} {depth : ℕ} (hs : s = .opened .basic depth ∨ s = .text .basic depth)
    (c : Char) : pass s (Json.escapeChar c) = some (.text .basic depth) := by
  have hescape : ∀ d : Char, pass s ['\\', d] = some (.text .basic depth) := by
    rcases hs with rfl | rfl <;> intro d <;> rfl
  unfold Json.escapeChar
  split
  next => exact hescape _
  next hquote =>
  split
  next => exact hescape _
  next hbackslash =>
  split
  next => exact hescape _
  next =>
  split
  next => exact hescape _
  next =>
  split
  next => exact hescape _
  next =>
  split
  next => exact hescape _
  next =>
  split
  next => exact hescape _
  next =>
  split
  next h =>
    have hdigit : ∀ n < 16, pass (.text .basic depth) [Json.hexDigit n] = some (.text .basic depth) :=
      fun n hn => pass_char (.inr rfl) (hexDigit_plain n hn).1 (hexDigit_plain n hn).2
    rw [show ['\\', 'u', '0', '0', Json.hexDigit (c.toNat / 16), Json.hexDigit (c.toNat % 16)] =
      ['\\', 'u'] ++ (['0', '0'] ++ ([Json.hexDigit (c.toNat / 16)] ++
        [Json.hexDigit (c.toNat % 16)])) from rfl, pass_append, hescape, Option.bind_some,
      pass_append, show pass (.text .basic depth) ['0', '0'] = some (.text .basic depth) from rfl,
      Option.bind_some, pass_append, hdigit _ (by omega), Option.bind_some, hdigit _ (by omega)]
  next => exact pass_char hs hquote hbackslash

theorem pass_escaped (s : List Char) (depth : ℕ) :
    pass (.text .basic depth) (s.flatMap Json.escapeChar) = some (.text .basic depth) := by
  induction s with
  | nil => rfl
  | cons c s ih => rw [List.flatMap_cons, pass_append, pass_escapeChar (.inr rfl), Option.bind_some, ih]

-- an empty string might still be the beginning of three quotation marks
def Scan.AfterString (depth : ℕ) (s : Scan) : Prop := s = .plain depth ∨ s = .empty .basic depth

theorem pass_quote (s : String) (depth : ℕ) :
    ∃ t, pass (.plain depth) (Json.quote s).toList = some t ∧ t.AfterString depth := by
  have htext := toList_quote s []
  rw [List.append_nil] at htext
  rw [htext]
  cases s.toList with
  | nil => exact ⟨.empty .basic depth, rfl, .inr rfl⟩
  | cons c rest =>
      refine ⟨.plain depth, ?_, .inl rfl⟩
      change pass (.opened .basic depth) (Json.escapeChar c ++ rest.flatMap Json.escapeChar ++ ['"']) = _
      rw [List.append_assoc, pass_append, pass_escapeChar (.inl rfl), Option.bind_some, pass_append,
        pass_escaped, Option.bind_some]
      rfl

theorem Scan.AfterString.endLine {s : Scan} {depth : ℕ} (h : s.AfterString depth) :
    s.endLine = some (.plain depth) := by
  rcases h with rfl | rfl <;> rfl

theorem Scan.AfterString.pass_cons {s : Scan} {depth : ℕ} (h : s.AfterString depth) {c : Char}
    (hc : c ≠ '"') (rest : List Char) : pass s (c :: rest) = pass (.plain depth) (c :: rest) := by
  rcases h with rfl | rfl
  · rfl
  · have hmark : c ≠ Quote.basic.mark := hc
    simp [pass, Scan.next, hmark]

theorem getLast?_quote (s : String) : (Json.quote s).toList.getLast? = some '"' := by
  rw [Json.quote, String.toList_append]
  exact List.getLast?_concat

theorem head?_quote (s : String) : (Json.quote s).toList.head? = some '"' := by
  have htext := toList_quote s []
  rw [List.append_nil] at htext
  rw [htext]
  rfl

theorem quote_ne_nil (s : String) : (Json.quote s).toList ≠ [] := by
  intro h
  have hhead := head?_quote s
  rw [h] at hhead
  cases hhead

theorem OneLine.quote (s : String) : OneLine (Json.quote s).toList := by
  obtain ⟨t, ht, hafter⟩ := pass_quote s 0
  refine .of_pass ht hafter.endLine (quote_ne_nil s) ?_ ?_
  · intro c hc
    rw [head?_quote] at hc
    cases hc
    decide
  · intro c hc
    rw [getLast?_quote] at hc
    cases hc
    decide

end Passing

section Assigning

theorem readLine_assigns {texts : List (List Char)} {keys : List String} (h : Spelled texts keys)
    (hne : keys ≠ []) {rest : List Char} {items : List Item}
    (hrest : ∀ c ∈ rest.head?, isBare c = false) (hdot : (skip rest).head? ≠ some '.')
    (hread : readLine (dotted texts ++ rest) = some (none, items)) :
    ∃ value text, skip rest = '=' :: value ∧ scan (.plain 0) value = some (.plain 0, text) ∧
      strip text ≠ [] ∧ items = [⟨[dotted texts ++ rest], .entry keys (strip text)⟩] := by
  rw [readLine_entry h hne hrest hdot] at hread
  unfold readValue at hread
  split at hread
  next value hskip =>
    obtain ⟨v, hscan, hread⟩ := Option.bind_eq_some_iff.mp hread
    split at hread
    next => cases hread
    next hstrip =>
      have hsettle := Option.some.inj hread
      have hitems := settle_none hsettle
      unfold settle at hsettle
      split at hsettle
      next hplain => exact ⟨value, v.2, hskip, by rw [hscan, ← hplain], hstrip, hitems⟩
      next => cases hsettle
  next => cases hread

end Assigning

end Toml
