import Conduit.Foundation.Paths

namespace Conduit.Utils

open Paths

section Guard

def unixBlockedPrefixes : List String :=
  ["/etc/", "/etc",
    "/root/", "/root",
    "/proc/", "/proc",
    "/sys/", "/sys",
    "/dev/", "/dev",
    "/boot/", "/boot",
    "/var/log/", "/var/run/"]

def normalizePath (cwd : Path) (path : String) : String :=
  Text.toLowerCase (text (resolve cwd path))

def blocks (normalized blocked : String) : Bool :=
  normalized = blocked ||
    (if blocked.toList.getLast? = some '/' then blocked.toList
      else blocked.toList ++ ['/']).isPrefixOf normalized.toList

-- on a POSIX host
def assertSafeSystemPath (cwd : Path) (path label : String) : Except String String :=
  let absolute := text (resolve cwd path)
  let normalized := normalizePath cwd absolute
  if unixBlockedPrefixes.any (blocks normalized) then
    .error (label ++ " \"" ++ path ++ "\" resolves to a restricted system directory (" ++ absolute ++
      ").")
  else .ok absolute

end Guard

section Restriction

def systemDirectories : List String := ["etc", "root", "proc", "sys", "dev", "boot"]

def runtimeDirectories : List String := ["log", "run"]

-- a directory with all that is below it, but of /var/log and /var/run only what is below
inductive Restricted : Path → Prop where
  | system {dir : String} (hdir : dir ∈ systemDirectories) (rest : Path) : Restricted (dir :: rest)
  | runtime {dir : String} (hdir : dir ∈ runtimeDirectories) (part : String) (rest : Path) :
      Restricted ("var" :: dir :: part :: rest)

theorem restricted_iff {path : Path} :
    Restricted path ↔ (∃ dir ∈ systemDirectories, [dir] <+: path) ∨
      ∃ dir ∈ runtimeDirectories, ["var", dir] <+: path ∧ ["var", dir] ≠ path := by
  constructor
  · intro h
    cases h with
    | system hdir rest => exact .inl ⟨_, hdir, rest, rfl⟩
    | runtime hdir part rest => exact .inr ⟨_, hdir, ⟨part :: rest, rfl⟩, by simp⟩
  · rintro (⟨dir, hdir, rest, rfl⟩ | ⟨dir, hdir, ⟨rest, rfl⟩, hne⟩)
    · exact .system hdir rest
    · cases rest with
      | nil => exact absurd rfl hne
      | cons part rest => exact .runtime hdir part rest

theorem below_text_iff {path dir : Path} (hpath : Separate path) (hdir : Separate dir)
    (hne : dir ≠ []) : joined dir ++ ['/'] <+: (text path).toList ↔ dir <+: path ∧ dir ≠ path := by
  cases path with
  | nil =>
      obtain ⟨part, rest, rfl⟩ := List.exists_cons_of_ne_nil hne
      have hroot : ¬ joined (part :: rest) ++ ['/'] <+: (text []).toList := by
        intro hbegins
        have hlength := hbegins.length_le
        rw [List.length_append, joined, List.length_cons] at hlength
        change _ + 1 + 1 ≤ 1 at hlength
        omega
      simp [hroot]
  | cons part path =>
      rw [toList_text (List.cons_ne_nil part path)]
      exact joined_prefix_iff hdir hpath

-- an entry that ends with a slash is what the paths below its directory begin with
theorem blocks_below {path dir : Path} (hpath : Separate path) (hdir : Separate dir)
    (hne : dir ≠ []) {blocked : String} (hblocked : blocked.toList = joined dir ++ ['/']) :
    blocks (text path) blocked = true ↔ dir <+: path ∧ dir ≠ path := by
  have hlast : (joined dir ++ ['/']).getLast? = some '/' := by simp
  rw [← below_text_iff hpath hdir hne, blocks, hblocked, if_pos hlast, Bool.or_eq_true,
    decide_eq_true_eq, List.isPrefixOf_iff_prefix]
  constructor
  · rintro (heq | hbegins)
    · exact ⟨[], by rw [List.append_nil, heq, hblocked]⟩
    · exact hbegins
  · exact .inr

theorem blocks_dir {path dir : Path} (hpath : Separate path) (hdir : Separate dir)
    (hne : dir ≠ []) {blocked : String} (hblocked : blocked.toList = joined dir)
    (hlast : (joined dir).getLast? ≠ some '/') :
    blocks (text path) blocked = true ↔ dir <+: path := by
  have hsame : text path = blocked ↔ path = dir := by
    have htext : blocked = text dir := by
      rw [← String.toList_inj, hblocked, toList_text hne]
    constructor
    · intro heq
      have hjoined := congrArg String.toList (heq.trans htext)
      cases path with
      | nil =>
          rw [toList_text hne] at hjoined
          change ['/'] = joined dir at hjoined
          rw [← hjoined] at hlast
          exact absurd rfl hlast
      | cons part path =>
          rw [toList_text (List.cons_ne_nil part path), toList_text hne] at hjoined
          exact joined_inj hpath hdir hjoined
    · rintro rfl
      exact htext.symm
  rw [blocks, hblocked, if_neg hlast, Bool.or_eq_true, decide_eq_true_eq,
    List.isPrefixOf_iff_prefix, below_text_iff hpath hdir hne, hsame]
  constructor
  · rintro (rfl | ⟨hbegins, -⟩)
    · exact List.prefix_rfl
    · exact hbegins
  · intro hbegins
    by_cases heq : path = dir
    · exact .inl heq
    · exact .inr ⟨hbegins, Ne.symm heq⟩

theorem unixBlockedPrefixes_eq : unixBlockedPrefixes =
    systemDirectories.flatMap (fun dir => ["/" ++ dir ++ "/", "/" ++ dir]) ++
      runtimeDirectories.map fun dir => "/var/" ++ dir ++ "/" := by
  decide

theorem blocked_iff_restricted {path : Path} (hpath : Separate path) :
    unixBlockedPrefixes.any (blocks (text path)) = true ↔ Restricted path := by
  have hsystem : ∀ dir ∈ systemDirectories, '/' ∉ dir.toList ∧
      (joined [dir]).getLast? ≠ some '/' := by decide
  have hruntime : ∀ dir ∈ runtimeDirectories, '/' ∉ dir.toList := by decide
  rw [unixBlockedPrefixes_eq, restricted_iff, List.any_append, Bool.or_eq_true, List.any_flatMap,
    List.any_map, List.any_eq_true, List.any_eq_true]
  apply or_congr
  · apply exists_congr
    intro dir
    apply and_congr_right
    intro hdir
    obtain ⟨hslash, hlast⟩ := hsystem dir hdir
    have hseparate : Separate [dir] := by simpa [Separate] using hslash
    have hbelow : blocks (text path) ("/" ++ dir ++ "/") = true ↔ [dir] <+: path ∧ [dir] ≠ path :=
      blocks_below hpath hseparate (List.cons_ne_nil dir []) (by simp [joined])
    have hsame : blocks (text path) ("/" ++ dir) = true ↔ [dir] <+: path :=
      blocks_dir hpath hseparate (List.cons_ne_nil dir []) (by simp [joined]) hlast
    simp only [List.any_cons, List.any_nil, Bool.or_false, Bool.or_eq_true, hbelow, hsame]
    exact ⟨fun h => h.elim And.left id, .inr⟩
  · apply exists_congr
    intro dir
    apply and_congr_right
    intro hdir
    have hseparate : Separate ["var", dir] := by
      simpa [Separate] using hruntime dir hdir
    exact blocks_below hpath hseparate (List.cons_ne_nil _ _) (by simp [joined])

-- what the guard lets through, whatever the case of the letters
theorem assertSafeSystemPath_eq_ok {cwd : Path} (hcwd : Resolved cwd) (path label absolute : String) :
    assertSafeSystemPath cwd path label = .ok absolute ↔
      absolute = text (resolve cwd path) ∧
        ¬ Restricted ((resolve cwd path).map Text.toLowerCase) := by
  have hresolved := resolved_resolve hcwd path
  have hnormal : normalizePath cwd (text (resolve cwd path)) =
      text ((resolve cwd path).map Text.toLowerCase) := by
    rw [normalizePath, resolve_text hresolved, toLowerCase_text]
  have hblocked := blocked_iff_restricted hresolved.separate.toLowerCase
  simp only [assertSafeSystemPath, hnormal]
  split
  next h => simp [hblocked.mp h]
  next h =>
    have hsafe := mt hblocked.mpr h
    simp [hsafe, eq_comm]

end Restriction

end Conduit.Utils
