import Conduit.Foundation.Fallible
import Conduit.Foundation.Json
import Conduit.Foundation.Paths
import Mathlib.Data.List.Infix

namespace Conduit.Plugins

open Paths

-- a callback changes the context of its request; it throws, or it may have a response
abbrev HookCallback (σ ρ : Type) := σ → σ × Except String (Option ρ)

structure PluginConfig where
  name : String
  path : String
  hooks : List String
  config : Json := .obj []

-- `none` stands for a value that is no function
abbrev Hooks (σ ρ : Type) := List (String × Option (HookCallback σ ρ))

-- what is taken for a plugin, as far as it is looked at
structure PluginValue (σ ρ : Type) where
  name : Option String
  hooks : Option (Hooks σ ρ)

inductive PluginExport (σ ρ : Type) where
  | factory (make : Json → Except String (PluginValue σ ρ))
  | object (value : PluginValue σ ρ)
  | other (typeName : String)

-- a module is imported once, and its object is shared
structure PluginModule (σ ρ : Type) where
  id : ℕ
  default : Option (PluginExport σ ρ) := none
  plugin : Option (PluginExport σ ρ) := none
  createPlugin : Option (PluginExport σ ρ) := none

structure PluginHost (σ ρ : Type) where
  cwd : Path
  resolved : Resolved cwd
  realpath : Path → Option Path
  realpath_resolved : ∀ path real, realpath path = some real → Resolved real
  importModule : String → Except String (PluginModule σ ρ)
  imported_once : ∀ s s' mod mod', importModule s = .ok mod → importModule s' = .ok mod' →
    mod.id = mod'.id → mod = mod'

def validHooks : List String :=
  ["before:request", "after:auth", "before:cache", "after:upstream", "before:response"]

def defaultAllowedDir : String := "plugins"

def blockedPrefixes : List String := ["/etc/", "/root/", "/proc/", "/sys/", "/dev/"]

section Guard

variable {σ ρ : Type} (host : PluginHost σ ρ)

def realOf (path : Path) : Path := (host.realpath path).getD path

def rootOf (dir : String) : Path := realOf host (resolve host.cwd dir)

def withSeparator (path : Path) : List Char :=
  if (text path).toList.getLast? = some '/' then (text path).toList else (text path).toList ++ ['/']

def isUnderAnyAllowedDir (realPath : Path) (allowedDirs : List String) : Bool :=
  allowedDirs = [] || allowedDirs.any fun dir =>
    realPath = rootOf host dir ||
      (withSeparator (rootOf host dir)).isPrefixOf (text realPath).toList

def startsBlocked (path : Path) (blocked : String) : Bool :=
  (Text.toLowerCase blocked).toList.isPrefixOf (Text.toLowerCase (text path)).toList

def hasDots (path : String) : Bool := ['.', '.'] <:+: path.toList

-- what is imported, unless the path is refused
def modulePathOf (config : PluginConfig) (allowedDirs : List String) : Except String String :=
  match config.hooks.find? (· ∉ validHooks) with
  | some hook =>
      .error ("Invalid hook \"" ++ hook ++ "\". Valid hooks: " ++ ", ".intercalate validHooks)
  | none =>
      let modulePath :=
        if config.path.toList.head? = some '.' then text (resolve host.cwd config.path)
        else config.path
      let resolved := resolve host.cwd modulePath
      let real := realOf host resolved
      match blockedPrefixes.find? fun blocked =>
          startsBlocked resolved blocked || startsBlocked real blocked with
      | some blocked =>
          .error ("Plugin path \"" ++ config.path ++ "\" points to a blocked system directory (" ++
            blocked ++ ")")
      | none =>
          if hasDots config.path ∧
              (text host.cwd).toList.isPrefixOf (text real).toList = false then
            .error ("Plugin path \"" ++ config.path ++
              "\" contains path traversal outside the project")
          else if isUnderAnyAllowedDir host real allowedDirs = false then
            .error ("Plugin path \"" ++ config.path ++
              "\" is outside the allowed plugin directories (" ++ ", ".intercalate allowedDirs ++
              "). Place the plugin under one of these directories or extend the allowlist " ++
              "explicitly.")
          else .ok modulePath

end Guard

section Loading

variable {σ ρ : Type} (host : PluginHost σ ρ)

-- the hooks of a loaded plugin: its own, or those of the object of a module
inductive PluginHooks (σ ρ : Type) where
  | own (hooks : Hooks σ ρ)
  | shared (id : ℕ)

structure LoadedPlugin (σ ρ : Type) where
  name : String
  hooks : PluginHooks σ ρ

-- the specifiers that were imported, and the hooks that the shared objects have by now
structure LoadState (σ ρ : Type) where
  imported : List String := []
  objects : ℕ → Option (Hooks σ ρ) := fun _ => none
  plugins : List (LoadedPlugin σ ρ) := []

def exported (mod : PluginModule σ ρ) : Option (PluginExport σ ρ) :=
  (mod.default.or mod.plugin).or mod.createPlugin

def checkPlugin (name : Option String) (hooks : Option (Hooks σ ρ)) :
    Except String (String × Hooks σ ρ) :=
  match name.filter (· ≠ "") with
  | none => .error "Plugin must have a \"name\" string property"
  | some name =>
      match hooks with
      | none => .error "Plugin must have a \"hooks\" object property"
      | some hooks => .ok (name, hooks)

def filterHooks (wanted : List String) (hooks : Hooks σ ρ) : Hooks σ ρ :=
  hooks.filter fun hook => hook.1 ∈ wanted && hook.2.isSome

def takePlugin (config : PluginConfig) (mod : PluginModule σ ρ) (state : LoadState σ ρ) :
    Except String (LoadState σ ρ) :=
  match exported mod with
  | some (.factory make) => do
      let value ← make config.config
      let (name, hooks) ← checkPlugin value.name value.hooks
      return { state with
        plugins := state.plugins ++ [⟨name, .own (filterHooks config.hooks hooks)⟩] }
  | some (.object value) => do
      let (name, hooks) ← checkPlugin value.name ((state.objects mod.id).or value.hooks)
      return { state with
        objects := fun id =>
          if id = mod.id then some (filterHooks config.hooks hooks) else state.objects id
        plugins := state.plugins ++ [⟨name, .shared mod.id⟩] }
  | some (.other typeName) =>
      throw ("Module must export a default/plugin/createPlugin (got " ++ typeName ++ ")")
  | none => throw "Module must export a default/plugin/createPlugin (got undefined)"

-- a plugin that cannot be loaded is logged and left out
def loadSinglePlugin (allowedDirs : List String) (state : LoadState σ ρ) (config : PluginConfig) :
    LoadState σ ρ :=
  match modulePathOf host config allowedDirs with
  | .error _ => state
  | .ok modulePath =>
      let state := { state with imported := state.imported ++ [modulePath] }
      match host.importModule modulePath with
      | .error _ => state
      | .ok mod =>
          match takePlugin config mod state with
          | .error _ => state
          | .ok state => state

def loadPlugins (configs : List PluginConfig) (allowedDirs : Option (List String)) :
    LoadState σ ρ :=
  configs.foldl (loadSinglePlugin host (allowedDirs.getD [defaultAllowedDir])) {}

def hooksOf (objects : ℕ → Option (Hooks σ ρ)) (plugin : LoadedPlugin σ ρ) : Hooks σ ρ :=
  match plugin.hooks with
  | .own hooks => hooks
  | .shared id => (objects id).getD []

end Loading

end Conduit.Plugins
