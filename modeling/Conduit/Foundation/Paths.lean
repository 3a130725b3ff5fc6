import Conduit.Foundation.Text

-- POSIX paths: an absolute path is the list of its parts
namespace Paths

abbrev Path := List String

def joined : Path → List Char
  | [] => []
  | part :: path => '/' :: (part.toList ++ joined path)

def text (path : Path) : String := if path = [] then "/" else String.ofList (joined path)

-- one step from a directory
def place (path : Path) (part : String) : Path :=
  if part = "" ∨ part = "." then path else if part = ".." then path.dropLast else path ++ [part]

def parts (path : String) : List String := (Text.splitChars '/' path.toList).map String.ofList

def isAbsolute (path : String) : Bool := path.toList.head? = some '/'

def resolve (cwd : Path) (path : String) : Path :=
  (parts path).foldl place (if isAbsolute path then [] else cwd)

structure IsPart (part : String) : Prop where
  nonempty : part ≠ ""
  dot : part ≠ "."
  dots : part ≠ ".."
  slash : '/' ∉ part.toList

def Resolved (path : Path) : Prop := ∀ part ∈ path, IsPart part

def Separate (path : Path) : Prop := ∀ part ∈ path, '/' ∉ part.toList

theorem Resolved.separate {path : Path} (h : Resolved path) : Separate path := fun part hpart =>
  (h part hpart).slash

section Resolution

theorem Resolved.place {path : Path} {part : String} (h : Resolved path)
    (hslash : '/' ∉ part.toList) : Resolved (place path part) := by
  unfold Paths.place
  split
  · exact h
  next hkept =>
    split
    · exact fun other hother => h other (List.dropLast_subset path hother)
    next hdots =>
      intro other hother
      rcases List.mem_append.mp hother with hother | hother
      · exact h other hother
      · obtain rfl := List.mem_singleton.mp hother
        exact ⟨fun heq => hkept (.inl heq), fun heq => hkept (.inr heq), hdots, hslash⟩

theorem Resolved.foldl_place {path : Path} {ps : List String} (h : Resolved path)
    (hslash : ∀ part ∈ ps, '/' ∉ part.toList) : Resolved (ps.foldl Paths.place path) := by
  induction ps generalizing path with
  | nil => exact h
  | cons part ps ih =>
      exact ih (h.place (hslash part List.mem_cons_self)) fun other hother =>
        hslash other (List.mem_cons_of_mem part hother)

theorem not_mem_splitChars (sep : Char) (chars : List Char) :
    ∀ part ∈ Text.splitChars sep chars, sep ∉ part := by
  induction chars with
  | nil => simp [Text.splitChars]
  | cons c rest ih =>
      obtain ⟨part, more, hsplit⟩ := List.exists_cons_of_ne_nil (Text.splitChars_ne_nil sep rest)
      rw [hsplit] at ih
      by_cases hc : c = sep
      · simpa [Text.splitChars, hsplit, hc] using ih
      · simpa [Text.splitChars, hsplit, hc, Ne.symm hc] using ih

theorem slash_not_mem_parts (path : String) : ∀ part ∈ parts path, '/' ∉ part.toList := by
  intro part hpart
  obtain ⟨chars, hchars, rfl⟩ := List.mem_map.mp hpart
  rw [String.toList_ofList]
  exact not_mem_splitChars '/' path.toList chars hchars

theorem resolved_resolve {cwd : Path} (hcwd : Resolved cwd) (path : String) :
    Resolved (resolve cwd path) := by
  apply Resolved.foldl_place _ (slash_not_mem_parts path)
  split
  · simp [Resolved]
  · exact hcwd

theorem place_of_isPart (path : Path) {part : String} (h : IsPart part) :
    place path part = path ++ [part] := by
  simp [place, h.nonempty, h.dot, h.dots]

theorem foldl_place_of_resolved {path : Path} (h : Resolved path) (base : Path) :
    path.foldl place base = base ++ path := by
  induction path generalizing base with
  | nil => simp
  | cons part path ih =>
      rw [List.foldl_cons, place_of_isPart base (h part List.mem_cons_self),
        ih fun other hother => h other (List.mem_cons_of_mem part hother)]
      simp

theorem splitChars_joined {path : Path} (h : Separate path) (word : List Char)
    (hword : '/' ∉ word) :
    Text.splitChars '/' (word ++ joined path) = word :: path.map String.toList := by
  induction path generalizing word with
  | nil => simpa [joined] using Text.splitChars_of_not_mem hword
  | cons part path ih =>
      rw [joined, Text.splitChars_append hword,
        ih (fun other hother => h other (List.mem_cons_of_mem part hother)) part.toList
          (h part List.mem_cons_self)]
      rfl

theorem toList_text {path : Path} (h : path ≠ []) : (text path).toList = joined path := by
  rw [text, if_neg h, String.toList_ofList]

theorem resolve_text {path : Path} (h : Resolved path) (cwd : Path) :
    resolve cwd (text path) = path := by
  cases path with
  | nil => rfl
  | cons part path =>
      have hsplit := splitChars_joined h.separate [] (by simp)
      rw [List.nil_append] at hsplit
      have habsolute : isAbsolute (text (part :: path)) = true := by
        rw [isAbsolute, toList_text (List.cons_ne_nil _ _)]
        rfl
      have hparts : parts (text (part :: path)) = "" :: part :: path := by
        rw [parts, toList_text (List.cons_ne_nil _ _), hsplit]
        simp
      rw [resolve, hparts, habsolute, List.foldl_cons]
      exact foldl_place_of_resolved h []

end Resolution

section Below

theorem joined_head (path : Path) : joined path = [] ∨ ∃ rest, joined path = '/' :: rest := by
  cases path with
  | nil => exact .inl rfl
  | cons part path => exact .inr ⟨_, rfl⟩

-- what the text of a directory and a slash begin is below the directory
theorem joined_prefix_iff {dir path : Path} (hdir : Separate dir) (hpath : Separate path) :
    joined dir ++ ['/'] <+: joined path ↔ dir <+: path ∧ dir ≠ path := by
  induction dir generalizing path with
  | nil =>
      cases path with
      | nil => simp [joined]
      | cons part path => simp [joined]
  | cons d dir ih =>
      cases path with
      | nil => simp [joined]
      | cons p path =>
          have hd := hdir d List.mem_cons_self
          have hp := hpath p List.mem_cons_self
          have hrest := ih (fun other hother => hdir other (List.mem_cons_of_mem d hother))
            (fun other hother => hpath other (List.mem_cons_of_mem p hother))
          rw [List.cons_prefix_cons]
          by_cases hsame : d = p
          · subst hsame
            simp only [joined, List.cons_append, List.cons_prefix_cons, true_and, List.append_assoc,
              List.prefix_append_right_inj, hrest, ne_eq, List.cons.injEq]
          · have hne : ¬ joined (d :: dir) ++ ['/'] <+: joined (p :: path) := by
              rintro ⟨tail, htail⟩
              simp only [joined, List.cons_append, List.append_assoc, List.cons.injEq, true_and]
                at htail
              obtain ⟨more, hmore⟩ : ∃ more, joined dir ++ '/' :: ([] ++ tail) = '/' :: more := by
                rcases joined_head dir with hnil | ⟨rest, hcons⟩
                · exact ⟨tail, by rw [hnil]; rfl⟩
                · exact ⟨_, by rw [hcons, List.cons_append]⟩
              rw [hmore] at htail
              rcases joined_head path with hnil | ⟨rest, hcons⟩
              · rw [hnil, List.append_nil] at htail
                exact hp (htail ▸ by simp)
              · rw [hcons] at htail
                have hsplit := congrArg (Text.splitChars '/') htail
                rw [Text.splitChars_append hd, Text.splitChars_append hp] at hsplit
                exact hsame (String.toList_injective (List.cons.inj hsplit).1)
            simp [hne, hsame]

theorem joined_inj {path path' : Path} (h : Separate path) (h' : Separate path')
    (heq : joined path = joined path') : path = path' := by
  have hsplit := congrArg (Text.splitChars '/') heq
  have htext := splitChars_joined h [] (by simp)
  have htext' := splitChars_joined h' [] (by simp)
  rw [List.nil_append] at htext htext'
  rw [htext, htext'] at hsplit
  exact List.map_injective_iff.mpr (fun _ _ => String.toList_injective) (List.cons.inj hsplit).2

end Below

section LowerCase

theorem slash_of_toLower {c : Char} (h : '/' = c.toLower) : c = '/' := by
  change '/' = if hupper : c.val ≥ 'A'.val ∧ c.val ≤ 'Z'.val then _ else c at h
  split at h
  next hupper =>
    have hval : ('/' : Char).val.toNat = (c.val + ('a'.val - 'A'.val)).toNat :=
      congrArg (fun d => d.val.toNat) h
    have hlow : 65 ≤ c.val.toNat := hupper.1
    have hhigh : c.val.toNat ≤ 90 := hupper.2
    rw [UInt32.toNat_add] at hval
    change 47 = (c.val.toNat + 32) % 4294967296 at hval
    omega
  next => exact h.symm

theorem slash_of_mem_lowerChar {c : Char} (h : '/' ∈ Text.lowerChar c) : c = '/' := by
  unfold Text.lowerChar at h
  split at h
  next => simp at h
  next =>
    split at h
    next => exact absurd h (by decide)
    next => exact slash_of_toLower (List.mem_singleton.mp h)

theorem Separate.toLowerCase {path : Path} (h : Separate path) :
    Separate (path.map Text.toLowerCase) := by
  intro part hpart
  obtain ⟨word, hword, rfl⟩ := List.mem_map.mp hpart
  rw [Text.toLowerCase, String.toList_ofList, List.mem_flatMap]
  rintro ⟨c, hc, hslash⟩
  exact h word hword (slash_of_mem_lowerChar hslash ▸ hc)

theorem flatMap_lowerChar_joined (path : Path) :
    (joined path).flatMap Text.lowerChar = joined (path.map Text.toLowerCase) := by
  induction path with
  | nil => rfl
  | cons part path ih =>
      rw [joined, List.flatMap_cons, List.flatMap_append, ih]
      simp only [List.map_cons, joined, Text.toLowerCase, String.toList_ofList]
      rfl

theorem toLowerCase_text (path : Path) :
    Text.toLowerCase (text path) = text (path.map Text.toLowerCase) := by
  cases path with
  | nil => rfl
  | cons part path =>
      rw [Text.toLowerCase, toList_text (List.cons_ne_nil part path), flatMap_lowerChar_joined, text,
        if_neg (by simp)]

end LowerCase

end Paths
