import Conduit.Foundation.OrderedMap
import Conduit.Plugins.Loader

namespace Conduit.Plugins

open Paths

variable {σ ρ : Type}

structure RegisteredHook (σ ρ : Type) where
  pluginName : String
  callback : HookCallback σ ρ

structure PluginRegistry (σ ρ : Type) where
  hooks : OrderedMap String (List (RegisteredHook σ ρ)) := OrderedMap.empty
  plugins : List String := []

-- an error of a callback is logged, and what it has done to the context stays
def runCallbacks : List (HookCallback σ ρ) → σ → σ × Option ρ
  | [], ctx => (ctx, none)
  | callback :: callbacks, ctx =>
      match callback ctx with
      | (ctx, .ok (some response)) => (ctx, some response)
      | (ctx, .ok none) => runCallbacks callbacks ctx
      | (ctx, .error _) => runCallbacks callbacks ctx

namespace PluginRegistry

variable (registry : PluginRegistry σ ρ)

def add (pluginName : String) (hook : String × Option (HookCallback σ ρ)) : PluginRegistry σ ρ :=
  match hook.2 with
  | none => registry
  | some callback =>
      { registry with
        hooks := registry.hooks.set hook.1
          ((registry.hooks.get? hook.1).getD [] ++ [⟨pluginName, callback⟩]) }

def register (name : String) (hooks : Hooks σ ρ) : PluginRegistry σ ρ :=
  hooks.foldl (fun registry hook => registry.add name hook)
    { registry with plugins := registry.plugins ++ [name] }

def registered (name : String) : List (RegisteredHook σ ρ) := (registry.hooks.get? name).getD []

def runHook (name : String) (ctx : σ) : σ × Option ρ :=
  runCallbacks ((registry.registered name).map (·.callback)) ctx

end PluginRegistry

def registerAll (state : LoadState σ ρ) : PluginRegistry σ ρ :=
  state.plugins.foldl
    (fun registry plugin => registry.register plugin.name (hooksOf state.objects plugin)) {}

section Registration

def callbacksFor (name pluginName : String) (hooks : Hooks σ ρ) : List (RegisteredHook σ ρ) :=
  hooks.filterMap fun hook =>
    if hook.1 = name then hook.2.map fun callback => ⟨pluginName, callback⟩ else none

theorem registered_add (registry : PluginRegistry σ ρ) (name pluginName : String)
    (hook : String × Option (HookCallback σ ρ)) :
    (registry.add pluginName hook).registered name =
      registry.registered name ++ callbacksFor name pluginName [hook] := by
  obtain ⟨hookName, callback⟩ := hook
  cases callback with
  | none => simp [PluginRegistry.add, callbacksFor]
  | some callback =>
      by_cases hname : hookName = name
      · simp [PluginRegistry.add, PluginRegistry.registered, callbacksFor, hname]
      · simp [PluginRegistry.add, PluginRegistry.registered, callbacksFor, hname,
          OrderedMap.get?_set]

theorem registered_register (registry : PluginRegistry σ ρ) (name pluginName : String)
    (hooks : Hooks σ ρ) : (registry.register pluginName hooks).registered name =
      registry.registered name ++ callbacksFor name pluginName hooks := by
  have hfold : ∀ (hooks : Hooks σ ρ) (registry : PluginRegistry σ ρ),
      (hooks.foldl (fun registry hook => registry.add pluginName hook) registry).registered name =
        registry.registered name ++ callbacksFor name pluginName hooks := by
    intro hooks
    induction hooks with
    | nil => simp [callbacksFor]
    | cons hook hooks ih =>
        intro registry
        rw [List.foldl_cons, ih, registered_add, List.append_assoc]
        congr 1
        exact List.filterMap_append.symm
  exact hfold hooks _

theorem registered_registerAll (state : LoadState σ ρ) (name : String) :
    (registerAll state).registered name =
      state.plugins.flatMap fun plugin => callbacksFor name plugin.name (hooksOf state.objects plugin) := by
  have hfold : ∀ (plugins : List (LoadedPlugin σ ρ)) (registry : PluginRegistry σ ρ),
      (plugins.foldl (fun registry plugin =>
        registry.register plugin.name (hooksOf state.objects plugin)) registry).registered name =
          registry.registered name ++
            plugins.flatMap fun plugin => callbacksFor name plugin.name (hooksOf state.objects plugin) := by
    intro plugins
    induction plugins with
    | nil => simp
    | cons plugin plugins ih =>
        intro registry
        rw [List.foldl_cons, ih, registered_register, List.append_assoc, List.flatMap_cons]
  exact hfold state.plugins {}

end Registration

end Conduit.Plugins
