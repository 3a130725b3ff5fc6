import Conduit.Connect.InstallationRuns

namespace Conduit.Connect

open Paths Utils

section Directories

theorem not_restricted_append {dir : Path} (h : ¬ Restricted dir) {part : String}
    (hpart : part ∉ "var" :: (systemDirectories ++ runtimeDirectories)) (rest : Path)
    (hdir : ∀ name ∈ runtimeDirectories, dir ≠ ["var", name]) :
    ¬ Restricted (dir ++ part :: rest) := by
  simp only [List.mem_cons, List.mem_append, not_or] at hpart
  obtain ⟨hvar, hsystem, hruntime⟩ := hpart
  intro hrestricted
  cases dir with
  | nil =>
      cases hrestricted with
      | system hmem rest => exact hsystem hmem
      | runtime hmem part rest => exact hvar rfl
  | cons first dir =>
      generalize hpath : first :: dir ++ part :: rest = path at hrestricted
      cases hrestricted with
      | system hmem tail =>
          obtain ⟨rfl, -⟩ := List.cons.inj hpath
          exact h (.system hmem dir)
      | @runtime name hmem below tail =>
          obtain ⟨rfl, hbelow⟩ := List.cons.inj hpath
          cases dir with
          | nil =>
              obtain ⟨rfl, -⟩ := List.cons.inj hbelow
              exact hruntime hmem
          | cons second dir =>
              obtain ⟨rfl, -⟩ := List.cons.inj hbelow
              cases dir with
              | nil => exact hdir _ hmem rfl
              | cons third dir => exact h (.runtime hmem third dir)

end Directories

namespace ConnectHost

variable {host : ConnectHost}

section Reach

theorem head_projectParts {parts : Path} (h : parts ∈ projectParts) :
    ∃ part rest, parts = part :: rest ∧ parts.map Text.toLowerCase = parts ∧
      part ∉ "var" :: (systemDirectories ++ runtimeDirectories) := by
  simp only [projectParts, List.mem_cons, List.not_mem_nil, or_false] at h
  rcases h with rfl | rfl | rfl | rfl | rfl
  all_goals exact ⟨_, _, rfl, by decide, by decide⟩

theorem Located.reach (hcwd : Resolved host.cwd) {projectDir : Option String} {path : Path}
    (h : host.Located projectDir path) (hrestricted : Restricted (path.map Text.toLowerCase)) :
    host.home <+: path ∨ host.baseDir <+: path ∨ host.claudeDesktopConfig = some path ∨
      ∃ dir ∈ runtimeDirectories, ∃ parts ∈ projectParts,
        path.map Text.toLowerCase = "var" :: dir :: parts := by
  cases h with
  | @project safe parts hsafe hparts =>
      right; right; right
      obtain ⟨rfl, hkept⟩ := (assertSafeSystemPath_eq_ok hcwd _ _ _).mp hsafe
      rw [resolve_text (resolved_resolve hcwd _)] at hrestricted ⊢
      generalize resolve host.cwd (projectDir.getD (text host.cwd)) = dir at hkept hrestricted ⊢
      obtain ⟨part, rest, rfl, hlower, hpart⟩ := head_projectParts hparts
      rw [List.map_append, hlower] at hrestricted ⊢
      by_contra hnone
      apply not_restricted_append hkept hpart rest _ hrestricted
      intro name hname hdir
      exact hnone ⟨name, hname, _, hparts, by rw [hdir]; rfl⟩
  | user hparts => exact .inl ⟨_, rfl⟩
  | generic => exact .inr (.inl ⟨_, rfl⟩)
  | chosen hpath => exact .inr (.inr (.inl hpath))

end Reach

end ConnectHost

end Conduit.Connect
