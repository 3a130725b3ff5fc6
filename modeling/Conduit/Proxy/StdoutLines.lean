import Conduit.Foundation.Lines
import Conduit.Foundation.Text
import Conduit.Foundation.Utf8
import Conduit.Proxy.StdioClient

namespace Conduit.Proxy

-- what a stdout line changes; `parsed` and `resolved` list the values of JSON.parse and the
-- resolved calls in order, and `crashed` tells that a line threw, which ends the process
structure Dispatch where
  client : StdioMcpClient
  sessionId : Option String
  parsed : List Json
  resolved : List (ℕ × Json)
  crashed : Bool

namespace Dispatch

def init : Dispatch where
  client := .init
  sessionId := none
  parsed := []
  resolved := []
  crashed := false

variable (parse : String → Option Json)

def message (D : Dispatch) (parsed : Json) : Dispatch :=
  match parsed with
  | .null => { D with parsed := D.parsed ++ [parsed], crashed := true }
  | _ =>
      match D.client.correlate parsed with
      | none => { D with parsed := D.parsed ++ [parsed] }
      | some (id, call) =>
          { D with
            client := D.client.remove id
            sessionId :=
              match parsed.get? "sessionId" with
              | some (.str s) => some s
              | _ => D.sessionId
            parsed := D.parsed ++ [parsed]
            resolved := D.resolved ++ [(call, parsed)] }

def lineText (line : List Char) : String := Text.trim (String.ofList line)

def line (D : Dispatch) (line : List Char) : Dispatch :=
  if D.crashed then D
  else if lineText line = "" then D
  else
    match parse (lineText line) with
    | none => D
    | some parsed => D.message parsed

end Dispatch

structure Stdout where
  dispatch : Dispatch
  stdoutBuffer : List Char

namespace Stdout

variable (parse : String → Option Json)

def processLines : ℕ → Stdout → Stdout
  | 0, S => S
  | fuel + 1, S =>
      if S.dispatch.crashed then S
      else
        match Lines.takeLine '\n' S.stdoutBuffer with
        | none => S
        | some (line, rest) =>
            processLines fuel
              { dispatch := S.dispatch.line parse line
                stdoutBuffer := rest }

-- a pass of the loop takes at least the line feed from the buffer
def processBuffer (S : Stdout) : Stdout := processLines parse S.stdoutBuffer.length S

def onData (S : Stdout) (chunk : List UInt8) : Stdout :=
  if S.dispatch.crashed then S
  else processBuffer parse { S with stdoutBuffer := S.stdoutBuffer ++ Utf8.decode chunk }

end Stdout

-- a spawn starts with an empty buffer
def dispatched (parse : String → Option Json) (D : Dispatch) (chunks : List (List UInt8)) :
    Dispatch :=
  (chunks.foldl (Stdout.onData parse) ⟨D, []⟩).dispatch

section Lines

variable (parse : String → Option Json)

theorem Dispatch.foldl_crashed {D : Dispatch} (h : D.crashed = true) (lines : List (List Char)) :
    lines.foldl (Dispatch.line parse) D = D := by
  induction lines with
  | nil => rfl
  | cons line lines ih =>
      rw [List.foldl_cons, Dispatch.line, if_pos h]
      exact ih

theorem Stdout.processLines_eq {fuel : ℕ} {S : Stdout} (hfuel : S.stdoutBuffer.length ≤ fuel) :
    (processLines parse fuel S).dispatch =
        (Lines.completed '\n' S.stdoutBuffer).foldl (Dispatch.line parse) S.dispatch ∧
      ((processLines parse fuel S).dispatch.crashed = false →
        (processLines parse fuel S).stdoutBuffer = Lines.remainder '\n' S.stdoutBuffer) := by
  induction fuel generalizing S with
  | zero =>
      have hempty : S.stdoutBuffer = [] := List.length_eq_zero_iff.mp (Nat.le_zero.mp hfuel)
      rw [processLines, hempty]
      exact ⟨rfl, fun _ => rfl⟩
  | succ fuel ih =>
      rw [processLines]
      by_cases hcrashed : S.dispatch.crashed = true
      · rw [if_pos hcrashed, Dispatch.foldl_crashed parse hcrashed]
        exact ⟨rfl, fun h => absurd hcrashed (by rw [h]; decide)⟩
      · rw [if_neg hcrashed]
        cases hline : Lines.takeLine '\n' S.stdoutBuffer with
        | none =>
            have hmem := Lines.takeLine_eq_none hline
            rw [Lines.completed_of_not_mem hmem, Lines.remainder_of_not_mem hmem]
            exact ⟨rfl, fun _ => rfl⟩
        | some found =>
            obtain ⟨line, rest⟩ := found
            obtain ⟨hmem, hbuffer⟩ := Lines.takeLine_eq_some hline
            have hrest : rest.length ≤ fuel := by
              rw [hbuffer, List.length_append, List.length_cons] at hfuel
              omega
            rw [hbuffer, Lines.completed_line hmem, Lines.remainder_line hmem, List.foldl_cons]
            exact ih (S := ⟨S.dispatch.line parse line, rest⟩) hrest

theorem Stdout.processBuffer_eq (S : Stdout) :
    (processBuffer parse S).dispatch =
        (Lines.completed '\n' S.stdoutBuffer).foldl (Dispatch.line parse) S.dispatch ∧
      ((processBuffer parse S).dispatch.crashed = false →
        (processBuffer parse S).stdoutBuffer = Lines.remainder '\n' S.stdoutBuffer) :=
  processLines_eq parse (le_refl _)

theorem Stdout.foldl_onData_crashed {S : Stdout} (h : S.dispatch.crashed = true)
    (chunks : List (List UInt8)) : chunks.foldl (onData parse) S = S := by
  induction chunks with
  | nil => rfl
  | cons chunk chunks ih =>
      rw [List.foldl_cons, onData, if_pos h]
      exact ih

theorem Stdout.foldl_onData {S : Stdout} (hbuffer : '\n' ∉ S.stdoutBuffer)
    (chunks : List (List UInt8)) :
    (chunks.foldl (onData parse) S).dispatch =
      (Lines.completed '\n' (S.stdoutBuffer ++ chunks.flatMap Utf8.decode)).foldl
        (Dispatch.line parse) S.dispatch := by
  induction chunks generalizing S with
  | nil =>
      rw [List.flatMap_nil, List.append_nil, Lines.completed_of_not_mem hbuffer]
      rfl
  | cons chunk chunks ih =>
      rw [List.foldl_cons, onData]
      by_cases hcrashed : S.dispatch.crashed = true
      · rw [if_pos hcrashed, foldl_onData_crashed parse hcrashed,
          Dispatch.foldl_crashed parse hcrashed]
      · rw [if_neg hcrashed, List.flatMap_cons, ← List.append_assoc, Lines.completed_append,
          List.foldl_append]
        obtain ⟨hdispatch, hremainder⟩ := processBuffer_eq parse
          { S with stdoutBuffer := S.stdoutBuffer ++ Utf8.decode chunk }
        rw [← hdispatch]
        generalize processBuffer parse _ = S' at hremainder ⊢
        cases hcrashed' : S'.dispatch.crashed with
        | true =>
            rw [foldl_onData_crashed parse hcrashed', Dispatch.foldl_crashed parse hcrashed']
        | false =>
            rw [← hremainder hcrashed']
            apply ih
            rw [hremainder hcrashed']
            exact Lines.not_mem_remainder _

theorem dispatched_eq (D : Dispatch) (chunks : List (List UInt8)) :
    dispatched parse D chunks =
      (Lines.completed '\n' (chunks.flatMap Utf8.decode)).foldl (Dispatch.line parse) D :=
  Stdout.foldl_onData parse List.not_mem_nil chunks

end Lines

section Unbroken

-- no chunk begins inside a character, as long as a line feed is still to come
def Unbroken (chunks : List (List UInt8)) : Prop :=
  ∀ before chunk after, chunks = before ++ chunk :: after → Utf8.StartsInside chunk →
    10 ∉ chunk ++ after.flatten

def received (chunks : List (List UInt8)) : List (List Char) :=
  Lines.completed '\n' (chunks.flatMap Utf8.decode)

theorem received_flatten {text : List Char} {chunks : List (List UInt8)}
    (h : chunks.flatten = Utf8.encode text) :
    received [chunks.flatten] = Lines.completed '\n' text := by
  rw [received, List.flatMap_singleton, h, Utf8.decode_encode]

theorem not_mem_encode {text : List Char} (h : '\n' ∉ text) : (10 : UInt8) ∉ Utf8.encode text :=
  fun hmem => h (Utf8.mem_encode_ascii (c := '\n') (by decide) hmem)

theorem newline_not_mem_of_cuts {owed : List UInt8} {text back : List Char}
    {chunks : List (List UInt8)} (h : Utf8.Cuts owed text chunks back) (htext : '\n' ∉ text) :
    '\n' ∉ back := by
  intro hmem
  rcases h.mem_received hmem with hreplacement | hmem
  · exact absurd hreplacement (by decide)
  · exact htext hmem

theorem encode_line (front back : List Char) :
    Utf8.encode (front ++ '\n' :: back) = Utf8.encode front ++ 10 :: Utf8.encode back := by
  rw [Utf8.encode_append, Utf8.encode_cons, Utf8.utf8EncodeChar_ascii (by decide)]
  rfl

theorem flatMap_decode_line (before after : List (List UInt8)) (a b : List UInt8) :
    (before ++ (a ++ 10 :: b) :: after).flatMap Utf8.decode =
      (before ++ [a]).flatMap Utf8.decode ++ '\n' :: (b :: after).flatMap Utf8.decode := by
  rw [List.flatMap_append, List.flatMap_cons, Utf8.decode_ascii (by decide), List.flatMap_append,
    List.flatMap_singleton, List.flatMap_cons]
  simp only [List.append_assoc, List.cons_append]
  rfl

theorem startsInside_line {a b : List UInt8} :
    Utf8.StartsInside (a ++ 10 :: b) ↔ Utf8.StartsInside a := by
  cases a with
  | nil =>
      constructor
      · rintro ⟨c, rest, hc, hcont⟩
        rw [List.nil_append, List.cons.injEq] at hc
        rw [← hc.1] at hcont
        exact absurd hcont (by decide)
      · exact fun h => absurd h Utf8.not_startsInside_nil
  | cons c a =>
      constructor
      · rintro ⟨d, rest, hd, hcont⟩
        rw [List.cons_append, List.cons.injEq] at hd
        exact ⟨c, a, rfl, hd.1 ▸ hcont⟩
      · rintro ⟨d, rest, hd, hcont⟩
        rw [List.cons.injEq] at hd
        exact ⟨c, a ++ 10 :: b, rfl, hd.1 ▸ hcont⟩

theorem unbroken_line {before after : List (List UInt8)} {a b : List UInt8}
    (hafter : 10 ∉ b ++ after.flatten) :
    Unbroken (before ++ (a ++ 10 :: b) :: after) ↔
      ∀ chunk ∈ before ++ [a], ¬Utf8.StartsInside chunk := by
  constructor
  · intro h chunk hchunk hinside
    rcases List.mem_append.mp hchunk with hchunk | hchunk
    · obtain ⟨front, back, rfl⟩ := List.append_of_mem hchunk
      apply h front chunk (back ++ (a ++ 10 :: b) :: after) (by simp) hinside
      simp
    · rw [List.mem_singleton.mp hchunk] at hinside
      exact h before _ after rfl (startsInside_line.2 hinside) (by simp)
  · intro h front chunk back hchunks hinside hmem
    rcases List.append_eq_append_iff.mp hchunks with ⟨more, rfl, hmore⟩ | ⟨more, rfl, hmore⟩
    · cases more with
      | nil =>
          rw [List.nil_append, List.cons.injEq] at hmore
          rw [← hmore.1, startsInside_line] at hinside
          exact h a (List.mem_append_right before (List.mem_cons_self ..)) hinside
      | cons c more =>
          rw [List.cons_append, List.cons.injEq] at hmore
          obtain ⟨rfl, rfl⟩ := hmore
          apply hafter
          rw [List.flatten_append, List.flatten_cons]
          exact List.mem_append_right b (List.mem_append_right more.flatten hmem)
    · cases more with
      | nil =>
          rw [List.nil_append, List.cons.injEq] at hmore
          rw [hmore.1, startsInside_line] at hinside
          exact h a (List.mem_append_right _ (List.mem_cons_self ..)) hinside
      | cons c more =>
          rw [List.cons_append, List.cons.injEq] at hmore
          refine h chunk (List.mem_append_left [a] ?_) hinside
          rw [hmore.1]
          exact List.mem_append_right front (List.mem_cons_self ..)

-- the chunks up to the last line feed cut the text up to it
theorem received_cases {text : List Char} {chunks : List (List UInt8)}
    (h : chunks.flatten = Utf8.encode text) :
    (Unbroken chunks ∧ received chunks = [] ∧ Lines.completed '\n' text = []) ∨
      ∃ pieces front arrived, Utf8.Cuts [] front pieces arrived ∧
        received chunks = Lines.completed '\n' (arrived ++ ['\n']) ∧
        Lines.completed '\n' text = Lines.completed '\n' (front ++ ['\n']) ∧
        (Unbroken chunks ↔ ∀ chunk ∈ pieces, ¬Utf8.StartsInside chunk) := by
  have hnil : Utf8.Continuations [] := fun _ h => (by cases h)
  by_cases hline : '\n' ∈ text
  · obtain ⟨front, back, rfl, hback⟩ := Lines.eq_append_of_mem hline
    rw [encode_line] at h
    obtain ⟨before, a, b, after, rfl, hbefore, hafter⟩ := Lines.flatten_eq_at h
    have hfront : Utf8.Cuts [] front (before ++ [a]) ((before ++ [a]).flatMap Utf8.decode) := by
      apply Utf8.cuts_of_flatten hnil
      rw [List.flatten_append, List.flatten_singleton, hbefore]
      rfl
    have hrest : Utf8.Cuts [] back (b :: after) ((b :: after).flatMap Utf8.decode) :=
      Utf8.cuts_of_flatten hnil hafter
    refine .inr ⟨_, front, _, hfront, ?_, ?_, ?_⟩
    · rw [received, flatMap_decode_line, Lines.completed_append_of_not_mem]
      exact newline_not_mem_of_cuts hrest hback
    · exact Lines.completed_append_of_not_mem front hback
    · apply unbroken_line
      rw [hafter]
      exact not_mem_encode hback
  · have hcuts := Utf8.cuts_of_flatten hnil h
    refine .inl ⟨?_, ?_, Lines.completed_of_not_mem hline⟩
    · intro before chunk after hchunks _ hmem
      apply not_mem_encode hline
      rw [← h, hchunks, List.flatten_append, List.flatten_cons]
      exact List.mem_append_right _ hmem
    · exact Lines.completed_of_not_mem (newline_not_mem_of_cuts hcuts hline)

theorem received_eq_of_unbroken {text : List Char} {chunks : List (List UInt8)}
    (h : chunks.flatten = Utf8.encode text) (hunbroken : Unbroken chunks) :
    received chunks = received [chunks.flatten] := by
  rw [received_flatten h]
  rcases received_cases h with ⟨_, harrived, hsent⟩ | ⟨_, _, _, hcuts, harrived, hsent, hiff⟩
  · rw [harrived, hsent]
  · rw [harrived, hsent, hcuts.eq_text rfl (hiff.mp hunbroken)]

theorem replacements_lt_of_broken {text : List Char} {chunks : List (List UInt8)}
    (h : chunks.flatten = Utf8.encode text) (hbroken : ¬Unbroken chunks) :
    ((received [chunks.flatten]).map (List.count Utf8.replacement)).sum <
      ((received chunks).map (List.count Utf8.replacement)).sum := by
  rw [received_flatten h]
  rcases received_cases h with ⟨hunbroken, _⟩ | ⟨pieces, front, arrived, hcuts, harrived, hsent, hiff⟩
  · exact absurd hunbroken hbroken
  · rw [harrived, hsent, Lines.sum_count_completed (by decide), Lines.sum_count_completed (by decide)]
    apply hcuts.count_lt rfl
    by_contra hnone
    exact hbroken (hiff.mpr fun chunk hchunk hinside => hnone ⟨chunk, hchunk, hinside⟩)

end Unbroken

section Readers

variable {parse : String → Option Json}

def texts (lines : List (List Char)) : List String :=
  (lines.map Dispatch.lineText).filter (· ≠ "")

theorem texts_append (a b : List (List Char)) : texts (a ++ b) = texts a ++ texts b := by
  simp [texts]

theorem texts_cons_of_eq {line : List Char} (h : Dispatch.lineText line = "")
    (lines : List (List Char)) : texts (line :: lines) = texts lines := by
  simp [texts, h]

theorem texts_cons_of_ne {line : List Char} (h : Dispatch.lineText line ≠ "")
    (lines : List (List Char)) :
    texts (line :: lines) = Dispatch.lineText line :: texts lines := by
  simp [texts, h]

-- every text that is not blank is read as a message, and different texts as different messages
structure Discerns (parse : String → Option Json) (lines : List (List Char)) : Prop where
  reads : ∀ text ∈ texts lines, ∃ parsed, parse text = some parsed ∧ parsed ≠ .null
  tells : ∀ text ∈ texts lines, ∀ text' ∈ texts lines, parse text = parse text' → text = text'

theorem message_parsed (D : Dispatch) (parsed : Json) :
    (D.message parsed).parsed = D.parsed ++ [parsed] := by
  unfold Dispatch.message
  split
  · rfl
  · split <;> rfl

theorem message_crashed {parsed : Json} (h : parsed ≠ .null) (D : Dispatch) :
    (D.message parsed).crashed = D.crashed := by
  unfold Dispatch.message
  split
  next => exact absurd rfl h
  next => split <;> rfl

theorem foldl_line_parsed {lines : List (List Char)}
    (hreads : ∀ text ∈ texts lines, ∃ parsed, parse text = some parsed ∧ parsed ≠ .null)
    {D : Dispatch} (hD : D.crashed = false) :
    (lines.foldl (Dispatch.line parse) D).parsed.map some =
      D.parsed.map some ++ (texts lines).map parse := by
  induction lines generalizing D with
  | nil => exact (List.append_nil _).symm
  | cons line lines ih =>
      rw [List.foldl_cons, Dispatch.line, if_neg (by rw [hD]; decide)]
      by_cases hline : Dispatch.lineText line = ""
      · rw [texts_cons_of_eq hline] at hreads ⊢
        rw [if_pos hline]
        exact ih hreads hD
      · rw [texts_cons_of_ne hline] at hreads ⊢
        obtain ⟨parsed, hparsed, hnull⟩ := hreads _ (List.mem_cons_self ..)
        rw [if_neg hline, hparsed]
        have hrest := ih (D := D.message parsed)
          (fun text htext => hreads text (List.mem_cons_of_mem _ htext))
          ((message_crashed hnull D).trans hD)
        simpa [message_parsed, hparsed] using hrest

theorem eq_of_map_eq {lines lines' : List String} {f : String → Option Json}
    (hf : ∀ text ∈ lines, ∀ text' ∈ lines', f text = f text' → text = text')
    (h : lines.map f = lines'.map f) : lines = lines' := by
  induction lines generalizing lines' with
  | nil => exact (List.map_eq_nil_iff.mp h.symm).symm
  | cons text lines ih =>
      cases lines' with
      | nil => cases h
      | cons text' lines' =>
          rw [List.map_cons, List.map_cons, List.cons.injEq] at h
          rw [hf text (List.mem_cons_self ..) text' (List.mem_cons_self ..) h.1]
          rw [ih (fun t ht t' ht' =>
            hf t (List.mem_cons_of_mem _ ht) t' (List.mem_cons_of_mem _ ht')) h.2]

theorem count_dropWhile {p : Char → Bool} {c : Char} (h : p c = false) (text : List Char) :
    (text.dropWhile p).count c = text.count c := by
  have hsplit := congrArg (List.count c) (List.takeWhile_append_dropWhile (p := p) (l := text))
  have hnone : (text.takeWhile p).count c = 0 := by
    apply List.count_eq_zero_of_not_mem
    intro hmem
    exact absurd (List.mem_takeWhile_imp hmem) (by rw [h]; decide)
  rw [List.count_append, hnone, Nat.zero_add] at hsplit
  exact hsplit

theorem count_lineText (line : List Char) :
    (Dispatch.lineText line).toList.count Utf8.replacement = line.count Utf8.replacement := by
  have hspace : Text.isSpace Utf8.replacement = false := by decide
  rw [Dispatch.lineText, Text.trim, String.toList_ofList, String.toList_ofList, List.count_reverse,
    count_dropWhile hspace, List.count_reverse, count_dropWhile hspace]

theorem sum_count_texts (lines : List (List Char)) :
    ((texts lines).map fun text => text.toList.count Utf8.replacement).sum =
      (lines.map (List.count Utf8.replacement)).sum := by
  induction lines with
  | nil => rfl
  | cons line lines ih =>
      rw [List.map_cons, List.sum_cons, ← ih, ← count_lineText]
      by_cases hline : Dispatch.lineText line = ""
      · rw [texts_cons_of_eq hline, hline]
        exact (Nat.zero_add _).symm
      · rw [texts_cons_of_ne hline, List.map_cons, List.sum_cons]

def SameMessages (parse : String → Option Json) (D : Dispatch) (chunks : List (List UInt8)) : Prop :=
  (dispatched parse D chunks).parsed = (dispatched parse D [chunks.flatten]).parsed

theorem dispatched_eq_of_unbroken {text : List Char} {chunks : List (List UInt8)}
    (h : chunks.flatten = Utf8.encode text) (hunbroken : Unbroken chunks)
    (parse : String → Option Json) (D : Dispatch) :
    dispatched parse D chunks = dispatched parse D [chunks.flatten] := by
  rw [dispatched_eq, dispatched_eq, ← received, ← received, received_eq_of_unbroken h hunbroken]

theorem unbroken_of_sameMessages {text : List Char} {chunks : List (List UInt8)}
    (h : chunks.flatten = Utf8.encode text) {D : Dispatch} (hD : D.crashed = false)
    (hdiscerns : Discerns parse (received chunks ++ received [chunks.flatten]))
    (hsame : SameMessages parse D chunks) : Unbroken chunks := by
  by_contra hbroken
  have hreads := hdiscerns.reads
  have htells := hdiscerns.tells
  rw [texts_append] at hreads htells
  have harrived := foldl_line_parsed (fun text htext =>
    hreads text (List.mem_append_left _ htext)) hD
  have hsent := foldl_line_parsed (fun text htext =>
    hreads text (List.mem_append_right _ htext)) hD
  have hmessages := congrArg (List.map some) hsame
  rw [dispatched_eq, dispatched_eq, ← received, ← received, harrived, hsent,
    List.append_cancel_left_eq] at hmessages
  have htexts := eq_of_map_eq (fun t ht t' ht' =>
    htells t (List.mem_append_left _ ht) t' (List.mem_append_right _ ht')) hmessages
  have hlt := replacements_lt_of_broken h hbroken
  rw [← sum_count_texts, ← sum_count_texts, htexts] at hlt
  exact lt_irrefl _ hlt

theorem discerns_str (lines : List (List Char)) : Discerns (fun text => some (.str text)) lines where
  reads := fun text _ => ⟨.str text, rfl, by simp⟩
  tells := fun _ _ _ _ h => Json.str.inj (Option.some.inj h)

end Readers

theorem same_messages_iff_unbroken (text : List Char) (chunks : List (List UInt8))
    (h : chunks.flatten = Utf8.encode text) :
    ((∀ parse D, SameMessages parse D chunks) ↔ Unbroken chunks) ∧
      ∀ parse (D : Dispatch), D.crashed = false →
        Discerns parse (received chunks ++ received [chunks.flatten]) →
        SameMessages parse D chunks → Unbroken chunks := by
  refine ⟨⟨fun hsame => ?_, fun hunbroken parse D => ?_⟩, fun parse D hD hdiscerns hsame => ?_⟩
  · exact unbroken_of_sameMessages h rfl (discerns_str _) (hsame _ .init)
  · exact congrArg Dispatch.parsed (dispatched_eq_of_unbroken h hunbroken parse D)
  · exact unbroken_of_sameMessages h hD hdiscerns hsame

-- JSON.parse of the reply to request 1 when its result is a plain string
def readReply (text : String) : Option Json :=
  (Text.afterPrefix "\x7b\"id\":1,\"result\":\"".toList text.toList).bind fun rest =>
    match rest.reverse with
    | '\x7d' :: '"' :: body =>
        some (.obj [("id", .num (.finite (.ofNat 1))), ("result", .str (String.ofList body.reverse))])
    | _ => none

def accentedReply : List (List UInt8) :=
  [Utf8.encode "\x7b\"id\":1,\"result\":\"caf".toList ++ [0xC3],
    0xA9 :: Utf8.encode "\"\x7d\n".toList]

theorem discerns_accentedReply :
    Discerns readReply (received accentedReply ++ received [accentedReply.flatten]) := by
  have htexts : texts (received accentedReply ++ received [accentedReply.flatten]) =
      ["\x7b\"id\":1,\"result\":\"caf��\"\x7d", "\x7b\"id\":1,\"result\":\"café\"\x7d"] := by
    decide +kernel
  have hcut : readReply "\x7b\"id\":1,\"result\":\"caf��\"\x7d" =
      some (.obj [("id", .num (.finite (.ofNat 1))), ("result", .str "caf��")]) := by decide +kernel
  have hwhole : readReply "\x7b\"id\":1,\"result\":\"café\"\x7d" =
      some (.obj [("id", .num (.finite (.ofNat 1))), ("result", .str "café")]) := by decide +kernel
  constructor
  · rw [htexts]
    simp [hcut, hwhole]
  · rw [htexts]
    simp [hcut, hwhole]

theorem accented_reply_same_messages :
    ((∀ parse D, SameMessages parse D accentedReply) ↔ Unbroken accentedReply) ∧
      (SameMessages readReply .init accentedReply → Unbroken accentedReply) :=
  have h := same_messages_iff_unbroken "\x7b\"id\":1,\"result\":\"café\"\x7d\n".toList
    accentedReply (by decide)
  ⟨h.1, h.2 readReply .init rfl discerns_accentedReply⟩

theorem cut_reply_differs :
    accentedReply.flatten = Utf8.encode "\x7b\"id\":1,\"result\":\"café\"\x7d\n".toList ∧
      (dispatched readReply .init accentedReply).parsed =
        [.obj [("id", .num (.finite (.ofNat 1))), ("result", .str "caf��")]] ∧
      (dispatched readReply .init [accentedReply.flatten]).parsed =
        [.obj [("id", .num (.finite (.ofNat 1))), ("result", .str "café")]] := by
  decide +kernel

end Conduit.Proxy
