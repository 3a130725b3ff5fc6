import Conduit.Plugins.Registry
import Conduit.Utils.PathGuard

namespace Conduit.Plugins

open Paths Utils

variable {σ ρ : Type} {host : PluginHost σ ρ}

section Guard

theorem resolved_realOf (host : PluginHost σ ρ) (path : String) :
    Resolved (realOf host (resolve host.cwd path)) := by
  unfold realOf
  cases hreal : host.realpath (resolve host.cwd path) with
  | none => exact resolved_resolve host.resolved path
  | some real => exact host.realpath_resolved _ _ hreal

theorem joined_append (path path' : Path) : joined (path ++ path') = joined path ++ joined path' := by
  induction path with
  | nil => rfl
  | cons part path ih => simp [joined, ih]

theorem getLast?_text {path : Path} (h : Resolved path) (hne : path ≠ []) :
    (text path).toList.getLast? ≠ some '/' := by
  rw [toList_text hne, ← List.dropLast_append_getLast hne, joined_append]
  have hlast := h _ (List.getLast_mem hne)
  generalize path.getLast hne = last at hlast
  obtain ⟨c, hc⟩ : ∃ c, last.toList.getLast? = some c :=
    ⟨_, List.getLast?_eq_some_getLast (by simpa using hlast.nonempty)⟩
  have hjoined : joined [last] = '/' :: last.toList := by simp [joined]
  rw [hjoined, List.getLast?_append, List.getLast?_cons, hc]
  rintro heq
  cases heq
  exact hlast.slash (List.mem_of_getLast? hc)

theorem under_iff {path dir : Path} (hpath : Resolved path) (hdir : Resolved dir) :
    (path = dir ∨ (withSeparator dir).isPrefixOf (text path).toList = true) ↔ dir <+: path := by
  cases dir with
  | nil =>
      have hslash : (withSeparator []).isPrefixOf (text path).toList = true := by
        cases path with
        | nil => rfl
        | cons part path => simp [withSeparator, joined, text]
      simp [hslash]
  | cons part dir =>
      have hne := List.cons_ne_nil part dir
      rw [withSeparator, if_neg (getLast?_text hdir hne), toList_text hne, List.isPrefixOf_iff_prefix,
        below_text_iff hpath.separate hdir.separate hne]
      constructor
      · rintro (rfl | ⟨hbegins, -⟩)
        · exact List.prefix_rfl
        · exact hbegins
      · intro hbegins
        by_cases heq : path = part :: dir
        · exact .inl heq
        · exact .inr ⟨hbegins, Ne.symm heq⟩

-- the directories of the system that no plugin is loaded from
def protectedDirectories : List String := ["etc", "root", "proc", "sys", "dev"]

variable (host) in
-- where the file of a specifier is, as far as the loader has looked at it
def fileOf (specifier : String) : Path := realOf host (resolve host.cwd specifier)

variable (host) in
structure Guarded (allowedDirs : List String) (specifier : String) : Prop where
  allowed : ∃ dir ∈ allowedDirs, rootOf host dir <+: fileOf host specifier
  outside : ∀ dir ∈ protectedDirectories,
    ¬ ([dir] <+: (fileOf host specifier).map Text.toLowerCase ∧
      [dir] ≠ (fileOf host specifier).map Text.toLowerCase)

theorem startsBlocked_iff {path : Path} (h : Resolved path) {dir : String}
    (hdir : dir ∈ protectedDirectories) :
    startsBlocked path ("/" ++ dir ++ "/") = true ↔
      [dir] <+: path.map Text.toLowerCase ∧ [dir] ≠ path.map Text.toLowerCase := by
  have hlower : ∀ dir ∈ protectedDirectories,
      (Text.toLowerCase ("/" ++ dir ++ "/")).toList = joined [dir] ++ ['/'] ∧ '/' ∉ dir.toList := by
    decide
  obtain ⟨htext, hslash⟩ := hlower dir hdir
  rw [startsBlocked, htext, toLowerCase_text, List.isPrefixOf_iff_prefix]
  exact below_text_iff h.separate.toLowerCase (by simpa [Separate] using hslash)
    (List.cons_ne_nil dir [])

theorem blockedPrefixes_eq :
    blockedPrefixes = protectedDirectories.map fun dir => "/" ++ dir ++ "/" := by
  decide

theorem modulePathOf_text {config : PluginConfig} {allowedDirs : List String} {path : Path}
    (hpath : Resolved path) (hne : path ≠ []) (htext : config.path = text path)
    (hhooks : ∀ hook ∈ config.hooks, hook ∈ validHooks) (hreal : realOf host path = path)
    (hcwd : host.cwd <+: path) (hallowed : ∃ dir ∈ allowedDirs, rootOf host dir <+: path)
    (houtside : ∀ dir ∈ protectedDirectories, ¬ [dir] <+: path.map Text.toLowerCase) :
    modulePathOf host config allowedDirs = .ok (text path) := by
  have hfind : config.hooks.find? (· ∉ validHooks) = none := by
    simpa [List.find?_eq_none] using hhooks
  have hblocked : blockedPrefixes.find? (fun blocked =>
      startsBlocked path blocked || startsBlocked path blocked) = none := by
    rw [List.find?_eq_none]
    intro blocked hmem
    rw [blockedPrefixes_eq] at hmem
    obtain ⟨dir, hdir, rfl⟩ := List.mem_map.mp hmem
    rw [Bool.or_self, startsBlocked_iff hpath hdir]
    exact fun h => houtside dir hdir h.1
  have hstart : (text path).toList.head? ≠ some '.' := by
    obtain ⟨part, path, rfl⟩ := List.exists_cons_of_ne_nil hne
    simp [toList_text, joined]
  have hinside : (text host.cwd).toList.isPrefixOf (text path).toList = true := by
    obtain ⟨rest, rfl⟩ := hcwd
    rw [List.isPrefixOf_iff_prefix, toList_text hne, joined_append]
    cases hhost : host.cwd with
    | nil => 
        rw [hhost, List.nil_append] at hne
        obtain ⟨part, rest, rfl⟩ := List.exists_cons_of_ne_nil hne
        simp [text, joined]
    | cons part cwd => simp [toList_text]
  have hunder : isUnderAnyAllowedDir host path allowedDirs = true := by
    obtain ⟨dir, hdir, hbelow⟩ := hallowed
    have hunder := (under_iff hpath (resolved_realOf host dir)).mpr hbelow
    simp only [isUnderAnyAllowedDir, Bool.or_eq_true, List.any_eq_true, decide_eq_true_eq]
    exact .inr ⟨dir, hdir, hunder⟩
  simp only [modulePathOf, hfind, htext, if_neg hstart, resolve_text hpath, hreal, hblocked, hinside,
    hunder]
  simp

theorem modulePathOf_ok {config : PluginConfig} {allowedDirs : List String} (hdirs : allowedDirs ≠ [])
    {specifier : String} (h : modulePathOf host config allowedDirs = .ok specifier) :
    (∀ hook ∈ config.hooks, hook ∈ validHooks) ∧ Guarded host allowedDirs specifier := by
  unfold modulePathOf at h
  split at h
  next => cases h
  next hhooks =>
    dsimp only at h
    generalize (if config.path.toList.head? = some '.' then text (resolve host.cwd config.path)
      else config.path) = modulePath at h
    split at h
    next => cases h
    next hblocked =>
      split at h
      next => cases h
      next =>
        split at h
        next => cases h
        next hunder =>
          cases h
          refine ⟨?_, ?_, ?_⟩
          · intro hook hhook
            simpa using List.find?_eq_none.mp hhooks hook hhook
          · have hany : isUnderAnyAllowedDir host (fileOf host specifier) allowedDirs = true := by
              simpa [fileOf] using hunder
            rw [isUnderAnyAllowedDir, decide_eq_false hdirs, Bool.false_or] at hany
            obtain ⟨dir, hdir, hbelow⟩ := List.any_eq_true.mp hany
            refine ⟨dir, hdir, (under_iff (resolved_realOf host _) (resolved_realOf host dir)).mp ?_⟩
            rw [Bool.or_eq_true, decide_eq_true_eq] at hbelow
            exact hbelow
          · intro dir hdir hbelow
            have hmem : "/" ++ dir ++ "/" ∈ blockedPrefixes := by
              rw [blockedPrefixes_eq]
              exact List.mem_map_of_mem hdir
            have hnone := List.find?_eq_none.mp hblocked _ hmem
            apply hnone
            rw [(startsBlocked_iff (resolved_realOf host _) hdir).mpr hbelow, Bool.or_true]

end Guard

section Origins

-- the value that a module has for a configuration
inductive Offers (config : PluginConfig) (mod : PluginModule σ ρ) (value : PluginValue σ ρ) : Prop
  | factory (make : Json → Except String (PluginValue σ ρ))
      (hexported : exported mod = some (.factory make)) (hmake : make config.config = .ok value)
  | object (hexported : exported mod = some (.object value))

variable (host) in
structure Supplies (allowedDirs : List String) (config : PluginConfig) (name : String)
    (callback : HookCallback σ ρ) : Prop where
  requested : name ∈ config.hooks ∧ name ∈ validHooks
  file : ∃ specifier mod value hooks, Guarded host allowedDirs specifier ∧
    host.importModule specifier = .ok mod ∧ Offers config mod value ∧ value.hooks = some hooks ∧
      (name, some callback) ∈ hooks

variable (host) in
structure Loaded (allowedDirs : List String) (objects : ℕ → Option (Hooks σ ρ))
    (config : PluginConfig) (plugin : LoadedPlugin σ ρ) : Prop where
  kept : ∀ id, plugin.hooks = .shared id → objects id ≠ none
  supplied : ∀ name callback, (name, some callback) ∈ hooksOf objects plugin →
    Supplies host allowedDirs config name callback

variable (host) in
structure Accounted (allowedDirs : List String) (configs : List PluginConfig)
    (state : LoadState σ ρ) : Prop where
  imported : ∀ specifier ∈ state.imported, Guarded host allowedDirs specifier
  objects : ∀ id hooks, state.objects id = some hooks → ∃ specifier mod value all,
    host.importModule specifier = .ok mod ∧ mod.id = id ∧ exported mod = some (.object value) ∧
      value.hooks = some all ∧ hooks ⊆ all
  plugins : ∃ origins, origins.Sublist configs ∧
    List.Forall₂ (Loaded host allowedDirs state.objects) origins state.plugins

theorem mem_filterHooks {wanted : List String} {hooks : Hooks σ ρ} {name : String}
    {callback : HookCallback σ ρ} : (name, some callback) ∈ filterHooks wanted hooks ↔
      (name, some callback) ∈ hooks ∧ name ∈ wanted := by
  simp [filterHooks]

theorem checkPlugin_ok {name : Option String} {hooks : Option (Hooks σ ρ)} {plugin : String × Hooks σ ρ}
    (h : checkPlugin name hooks = .ok plugin) : name = some plugin.1 ∧ hooks = some plugin.2 := by
  unfold checkPlugin at h
  split at h
  next => cases h
  next name' hname =>
    split at h
    next => cases h
    next hooks' =>
      cases h
      exact ⟨(Option.filter_eq_some_iff.mp hname).1, rfl⟩

theorem mem_of_callbacksFor {name pluginName : String} {hooks : Hooks σ ρ}
    {hook : RegisteredHook σ ρ} (h : hook ∈ callbacksFor name pluginName hooks) :
    (name, some hook.callback) ∈ hooks := by
  obtain ⟨⟨hookName, callback⟩, hmem, heq⟩ := List.mem_filterMap.mp h
  dsimp only at heq
  split at heq
  next hname =>
    obtain ⟨callback', rfl, rfl⟩ := Option.map_eq_some_iff.mp heq
    rwa [hname] at hmem
  next => cases heq

theorem Loaded.filtered {allowedDirs : List String} {objects objects' : ℕ → Option (Hooks σ ρ)}
    {config : PluginConfig} {plugin : LoadedPlugin σ ρ}
    (h : Loaded host allowedDirs objects config plugin)
    (hobjects : ∀ id hooks, objects id = some hooks → ∃ hooks' ⊆ hooks, objects' id = some hooks') :
    Loaded host allowedDirs objects' config plugin := by
  constructor
  · intro id hid
    obtain ⟨hooks, hhooks⟩ := Option.ne_none_iff_exists'.mp (h.kept id hid)
    obtain ⟨hooks', -, hhooks'⟩ := hobjects id hooks hhooks
    simp [hhooks']
  · intro name callback hmem
    apply h.supplied
    unfold hooksOf at hmem ⊢
    cases hplugin : plugin.hooks with
    | own hooks => simpa [hplugin] using hmem
    | shared id =>
        obtain ⟨hooks, hhooks⟩ := Option.ne_none_iff_exists'.mp (h.kept id hplugin)
        obtain ⟨hooks', hsub, hhooks'⟩ := hobjects id hooks hhooks
        simp only [hplugin, hhooks', hhooks, Option.getD_some] at hmem ⊢
        exact hsub hmem

theorem supplies_of_filtered {allowedDirs : List String} {config : PluginConfig} {specifier : String}
    {mod : PluginModule σ ρ} {value : PluginValue σ ρ} {hooks all : Hooks σ ρ}
    (hconfig : ∀ hook ∈ config.hooks, hook ∈ validHooks) (hguard : Guarded host allowedDirs specifier)
    (hmod : host.importModule specifier = .ok mod) (hvalue : Offers config mod value)
    (hall : value.hooks = some all) (hsub : hooks ⊆ all) {name : String}
    {callback : HookCallback σ ρ} (hmem : (name, some callback) ∈ filterHooks config.hooks hooks) :
    Supplies host allowedDirs config name callback := by
  obtain ⟨hmem, hwanted⟩ := mem_filterHooks.1 hmem
  exact ⟨⟨hwanted, hconfig name hwanted⟩, specifier, mod, value, all, hguard, hmod, hvalue, hall,
    hsub hmem⟩

theorem imported_takePlugin {config : PluginConfig} {mod : PluginModule σ ρ}
    {state state' : LoadState σ ρ} (h : takePlugin config mod state = .ok state') :
    state'.imported = state.imported := by
  unfold takePlugin at h
  cases hexported : exported mod with
  | none => simp [hexported] at h
  | some value =>
      cases value with
      | other typeName => simp [hexported] at h
      | factory make =>
          simp only [hexported, Except.bind_eq_ok_iff] at h
          obtain ⟨value, -, plugin, -, h⟩ := h
          cases h
          rfl
      | object value =>
          simp only [hexported, Except.bind_eq_ok_iff] at h
          obtain ⟨plugin, -, h⟩ := h
          cases h
          rfl

theorem imported_loadSinglePlugin {allowedDirs : List String} {config : PluginConfig}
    {specifier : String} (h : modulePathOf host config allowedDirs = .ok specifier)
    (state : LoadState σ ρ) :
    (loadSinglePlugin host allowedDirs state config).imported = state.imported ++ [specifier] := by
  simp only [loadSinglePlugin, h]
  cases hmod : host.importModule specifier with
  | error message => rfl
  | ok mod =>
      dsimp only
      cases htake : takePlugin config mod { state with imported := state.imported ++ [specifier] } with
      | error message => rfl
      | ok state' => exact imported_takePlugin htake

theorem accounted_takePlugin {allowedDirs : List String} {configs : List PluginConfig}
    {config : PluginConfig} {state state' : LoadState σ ρ} {specifier : String}
    {mod : PluginModule σ ρ} (hstate : Accounted host allowedDirs configs state)
    (hconfig : ∀ hook ∈ config.hooks, hook ∈ validHooks) (hguard : Guarded host allowedDirs specifier)
    (hmod : host.importModule specifier = .ok mod) (h : takePlugin config mod state = .ok state') :
    Accounted host allowedDirs (configs ++ [config]) state' := by
  obtain ⟨origins, hsub, horigins⟩ := hstate.plugins
  have happend := hsub.append (List.Sublist.refl [config])
  unfold takePlugin at h
  cases hexported : exported mod with
  | none => simp [hexported] at h
  | some value =>
      cases value with
      | other typeName => simp [hexported] at h
      | factory make =>
          simp only [hexported, Except.bind_eq_ok_iff] at h
          obtain ⟨value, hmake, ⟨name, hooks⟩, hcheck, h⟩ := h
          cases h
          refine ⟨hstate.imported, hstate.objects, origins ++ [config], happend, ?_⟩
          apply List.rel_append horigins
          refine .cons ⟨by simp, ?_⟩ .nil
          intro hookName callback hmem
          exact supplies_of_filtered hconfig hguard hmod (.factory make hexported hmake)
            (checkPlugin_ok hcheck).2 (List.Subset.refl hooks) hmem
      | object value =>
          simp only [hexported, Except.bind_eq_ok_iff] at h
          obtain ⟨⟨name, hooks⟩, hcheck, h⟩ := h
          cases h
          have hhooks := (checkPlugin_ok hcheck).2
          obtain ⟨all, hall, hsubset⟩ : ∃ all, value.hooks = some all ∧ hooks ⊆ all := by
            cases hobject : state.objects mod.id with
            | none => exact ⟨hooks, by simpa [hobject] using hhooks, List.Subset.refl hooks⟩
            | some hooks' =>
                obtain ⟨specifier', mod', value', all, hmod', hid, hexported', hall, hsubset⟩ :=
                  hstate.objects _ _ hobject
                cases host.imported_once _ _ _ _ hmod' hmod hid
                rw [hexported] at hexported'
                cases hexported'
                obtain rfl : hooks' = hooks := by simpa [hobject] using hhooks
                exact ⟨all, hall, hsubset⟩
          refine ⟨hstate.imported, ?_, origins ++ [config], happend, ?_⟩
          · intro id hooks' hid
            dsimp only at hid
            split at hid
            next heq =>
              cases hid
              exact ⟨specifier, mod, value, all, hmod, heq.symm, hexported, hall,
                List.Subset.trans (List.filter_subset_self hooks) hsubset⟩
            next => exact hstate.objects id hooks' hid
          · apply List.rel_append
            · apply horigins.imp
              intro config' plugin hloaded
              apply hloaded.filtered
              intro id hooks' hid
              by_cases heq : id = mod.id
              · subst heq
                obtain rfl : hooks' = hooks := by simpa [hid] using hhooks
                exact ⟨_, List.filter_subset_self hooks', if_pos rfl⟩
              · exact ⟨hooks', List.Subset.refl hooks', by simpa [heq] using hid⟩
            · refine .cons ⟨?_, ?_⟩ .nil
              · intro id hid
                cases hid
                simp
              · intro hookName callback hmem
                rw [hooksOf] at hmem
                simp only [if_true, Option.getD_some] at hmem
                exact supplies_of_filtered hconfig hguard hmod (.object hexported) hall hsubset hmem

theorem accounted_loadSinglePlugin {allowedDirs : List String} (hdirs : allowedDirs ≠ [])
    {configs : List PluginConfig} {state : LoadState σ ρ}
    (hstate : Accounted host allowedDirs configs state) (config : PluginConfig) :
    Accounted host allowedDirs (configs ++ [config])
      (loadSinglePlugin host allowedDirs state config) := by
  have hmore : ∀ {state : LoadState σ ρ}, Accounted host allowedDirs configs state →
      Accounted host allowedDirs (configs ++ [config]) state := by
    intro state hstate
    obtain ⟨origins, hsub, horigins⟩ := hstate.plugins
    exact ⟨hstate.imported, hstate.objects, origins, hsub.trans (List.sublist_append_left _ _),
      horigins⟩
  unfold loadSinglePlugin
  cases hpath : modulePathOf host config allowedDirs with
  | error message => exact hmore hstate
  | ok specifier =>
      obtain ⟨hconfig, hguard⟩ := modulePathOf_ok hdirs hpath
      have himported : Accounted host allowedDirs configs
          { state with imported := state.imported ++ [specifier] } := by
        refine ⟨?_, hstate.objects, hstate.plugins⟩
        intro specifier' hmem
        rcases List.mem_append.mp hmem with hmem | hmem
        · exact hstate.imported specifier' hmem
        · simpa [List.mem_singleton.mp hmem] using hguard
      cases hmod : host.importModule specifier with
      | error message => simpa [hmod] using hmore himported
      | ok mod =>
          simp only [hmod]
          cases htake : takePlugin config mod
              { state with imported := state.imported ++ [specifier] } with
          | error message => exact hmore himported
          | ok state' => exact accounted_takePlugin himported hconfig hguard hmod htake

variable (host) in
theorem accounted_loadPlugins {allowedDirs : Option (List String)} (hdirs : allowedDirs ≠ some [])
    (configs : List PluginConfig) :
    Accounted host (allowedDirs.getD [defaultAllowedDir]) configs
      (loadPlugins host configs allowedDirs) := by
  have hne : allowedDirs.getD [defaultAllowedDir] ≠ [] := by
    cases allowedDirs with
    | none => simp
    | some dirs => simpa using hdirs
  have hrun : ∀ (rest before : List PluginConfig) (state : LoadState σ ρ),
      Accounted host (allowedDirs.getD [defaultAllowedDir]) before state →
      Accounted host (allowedDirs.getD [defaultAllowedDir]) (before ++ rest)
        (rest.foldl (loadSinglePlugin host (allowedDirs.getD [defaultAllowedDir])) state) := by
    intro rest
    induction rest with
    | nil => simp
    | cons config rest ih =>
        intro before state hstate
        have hstep := ih _ _ (accounted_loadSinglePlugin hne hstate config)
        simpa using hstep
  simpa [loadPlugins] using hrun configs [] {} ⟨by simp, by simp, [], by simp, .nil⟩

variable (host) in
-- what runs at a hook, in the order of the configurations
theorem runHook_loadPlugins (configs : List PluginConfig) (allowedDirs : Option (List String))
    (hdirs : allowedDirs ≠ some []) (name : String) :
    ∃ (origins : List PluginConfig) (groups : List (List (HookCallback σ ρ))),
      origins.Sublist configs ∧
      List.Forall₂ (fun config group => ∀ callback ∈ group,
        Supplies host (allowedDirs.getD [defaultAllowedDir]) config name callback)
          origins groups ∧
      ∀ ctx, (registerAll (loadPlugins host configs allowedDirs)).runHook name ctx =
        runCallbacks groups.flatten ctx := by
  have haccounted := accounted_loadPlugins host hdirs configs
  obtain ⟨origins, hsub, horigins⟩ := haccounted.plugins
  generalize loadPlugins host configs allowedDirs = state at horigins
  refine ⟨origins, state.plugins.map fun plugin =>
    (callbacksFor name plugin.name (hooksOf state.objects plugin)).map (·.callback), hsub, ?_, ?_⟩
  · rw [List.forall₂_map_right_iff]
    apply horigins.imp
    intro config plugin hloaded callback hmem
    apply hloaded.supplied
    obtain ⟨hook, hhook, rfl⟩ := List.mem_map.mp hmem
    exact mem_of_callbacksFor hhook
  · intro ctx
    rw [PluginRegistry.runHook, registered_registerAll, List.map_flatMap, List.flatMap_def]

end Origins

section Example

def auditModule : PluginModule (List String) String where
  id := 1
  createPlugin := some (.factory fun _ => .ok {
    name := some "audit-logger"
    hooks := some [("after:auth", some fun lines => (lines ++ ["tools/call"], .ok none)),
      ("before:request", some fun lines => (lines, .ok (some "refused")))] })

def auditFile : Path := ["app", "plugins", "audit.js"]

theorem resolved_auditFile : Resolved auditFile := by
  intro part hpart
  simp only [auditFile, List.mem_cons, List.not_mem_nil, or_false] at hpart
  rcases hpart with rfl | rfl | rfl <;> exact ⟨by decide, by decide, by decide, by decide⟩

-- a gateway with one plugin
def auditHost : PluginHost (List String) String where
  cwd := ["app"]
  resolved := by
    intro part hpart
    obtain rfl := List.mem_singleton.mp hpart
    exact ⟨by decide, by decide, by decide, by decide⟩
  realpath := fun path => if path = auditFile then some auditFile else none
  realpath_resolved := by
    intro path real h
    split at h
    next =>
      cases h
      exact resolved_auditFile
    next => cases h
  importModule := fun specifier =>
    if specifier = text auditFile then .ok auditModule else .error "ERR_MODULE_NOT_FOUND"
  imported_once := by
    intro s s' mod mod' h h' hid
    split at h <;> split at h' <;> simp_all

def auditConfig : PluginConfig where
  name := "audit"
  path := text auditFile
  hooks := ["after:auth"]

theorem modulePathOf_audit :
    modulePathOf auditHost auditConfig [defaultAllowedDir] = .ok (text auditFile) := by
  have hlower : auditFile.map Text.toLowerCase = auditFile := by decide
  have hroot : rootOf auditHost defaultAllowedDir = ["app", "plugins"] := by
    have hparts : parts defaultAllowedDir = ["plugins"] := by decide
    have habsolute : isAbsolute defaultAllowedDir = false := by decide
    simp [rootOf, realOf, resolve, hparts, habsolute, place, auditHost, auditFile]
  have hallowed : ∃ dir ∈ [defaultAllowedDir], rootOf auditHost dir <+: auditFile :=
    ⟨defaultAllowedDir, List.mem_cons_self, by simp [hroot, auditFile]⟩
  apply modulePathOf_text resolved_auditFile (by simp [auditFile]) rfl _ _ _ hallowed
  · rw [hlower]
    simp [protectedDirectories, auditFile]
  · simp [auditConfig, validHooks]
  · simp [realOf, auditHost]
  · simp [auditHost, auditFile]

theorem runHook_loadPlugins_audit :
    ∃ (origins : List PluginConfig) (groups : List (List (HookCallback (List String) String))),
      origins.Sublist [auditConfig] ∧
      List.Forall₂ (fun config group => ∀ callback ∈ group,
        Supplies auditHost [defaultAllowedDir] config "after:auth" callback) origins groups ∧
      ∀ ctx, (registerAll (loadPlugins auditHost [auditConfig] none)).runHook "after:auth" ctx =
        runCallbacks groups.flatten ctx := by
  have hrun := runHook_loadPlugins auditHost [auditConfig] none (by simp) "after:auth"
  rw [Option.getD_none] at hrun
  exact hrun

end Example

end Conduit.Plugins
