import Conduit.Config.MergedSections

namespace Conduit.Config

open Json Typed

section Written

-- the property of an object that may be left out
def given (key : String) (value : Option Json) : Fields := (value.map fun v => (key, v)).toList

def ConfigObject.toJson (config : ConfigObject) : Json :=
  .obj (("gateway", .obj config.gateway) :: ("router", .obj config.router) ::
    ("servers", .arr (config.servers.map ServerObject.toJson)) :: ("cache", .obj config.cache) ::
    ("tenant_isolation", .obj config.tenantIsolation) ::
    ("observability", .obj config.observability) :: ("metrics", .obj config.metrics) ::
    (given "auth" config.auth ++ given "acl" config.acl ++ given "rate_limits" config.rateLimits ++
      given "admin" config.admin ++ given "connect" config.connect ++
      given "identity" config.identity ++ given "governance" config.governance ++
      given "guardrails" config.guardrails ++ given "plugins" config.plugins ++
      given "discovery" config.discovery))

def ConfigObject.withoutExtensions (config : ConfigObject) : ConfigObject :=
  { config with plugins := none, discovery := none }

def defaultRouter : Json :=
  .obj [("namespace_strategy", .str "prefix"), ("health_check", .obj defaultHealthCheck),
    ("load_balancing", .str "round-robin")]

def defaultManagedRuntime : Json :=
  .obj [("enabled", .bool true), ("root_dir", .str "./.conduit/runtime"),
    ("default_channel", .str "stable"), ("sanitize_env", .bool true), ("auto_rollback", .bool true)]

-- DEFAULT_GATEWAY_CONFIG
def defaultGatewayConfig : Json :=
  .obj [("gateway", .obj defaultGateway), ("router", defaultRouter), ("servers", .arr []),
    ("cache", .obj [("enabled", .bool true), ("l1", .obj defaultL1)]),
    ("tenant_isolation", .obj defaultTenantIsolation),
    ("observability", .obj defaultObservability), ("metrics", .obj defaultMetrics),
    ("connect", .obj [("managed_runtime", defaultManagedRuntime)]), ("identity", defaultIdentity),
    ("governance", defaultGovernance)]

theorem accepts_defaultGatewayConfig : conduitGatewayConfig.accepts defaultGatewayConfig = true := by
  decide +kernel

def knownTopLevelKeys : List String :=
  ["gateway", "router", "servers", "cache", "auth", "acl", "rate_limits", "tenant_isolation",
    "observability", "metrics", "connect", "identity", "governance", "admin", "guardrails",
    "plugins", "discovery"]

def normalServers : Json → Json
  | .arr items => .arr (items.map normalServer)
  | v => v

def normalSection (config : Json) (key : String) : Option Json :=
  if key = "servers" then (config.get? key).map normalServers
  else if key = "plugins" ∨ key = "discovery" then none
  else config.get? key

-- the sections but for the two that no merge looks at, the server entries in normal form
def normalConfig (config : Json) : Json := ofLookup knownTopLevelKeys (normalSection config)

end Written

theorem field_given (key k : String) (value : Option Json) :
    Json.field (given key value) k = if key = k then value else none := by
  cases value with
  | none => simp [given, Json.field]
  | some x => simp [given, Json.field]

section Merged

variable {host : Host} {c : Json} {servers : List ServerObject}

-- the merge of a configuration whose sections are objects
def merged (host : Host) (file : Json) (servers : List ServerObject) : ConfigObject where
  gateway := mergeObject defaultGateway (file.get? "gateway")
  router := mergeRouter file
  servers := servers
  cache := mergeCache host file
  tenantIsolation := mergeObject defaultTenantIsolation (file.get? "tenant_isolation")
  observability := mergeObject defaultObservability (file.get? "observability")
  metrics := mergeObject defaultMetrics (file.get? "metrics")
  auth := file.get? "auth"
  acl := file.get? "acl"
  rateLimits := file.get? "rate_limits"
  admin := file.get? "admin"
  connect := (file.get? "connect").map (normalizeConnectConfig host)
  identity := some (((file.get? "identity").map normalizeIdentityConfig).getD defaultIdentity)
  governance :=
    some (((file.get? "governance").map (normalizeGovernanceConfig host)).getD defaultGovernance)
  guardrails := file.get? "guardrails"

theorem mergeSection_eq {key : String} {required optional : List (String × Schema)}
    {normalize : Json → Json} {fallback : Option Json}
    (h : ∀ v, c.get? key = some v → (Schema.object required optional).accepts v = true) :
    mergeSection c key normalize fallback = some (((c.get? key).map normalize).or fallback) := by
  cases hx : c.get? key with
  | none => rw [mergeSection, hx]; rfl
  | some v =>
      obtain ⟨fields, rfl, -⟩ := Schema.accepts_object_iff.1 (h v hx)
      rw [mergeSection, hx]
      rfl

theorem mergeWithDefaults_eq (host : Host) (h : conduitGatewayConfig.accepts c = true) :
    ∃ items servers, c.get? "servers" = some (.arr items) ∧
      (∀ x ∈ items, serverConfig.accepts x = true) ∧
      List.Forall₂ (fun raw server => normalizeServer host raw = some server) items servers ∧
      mergeWithDefaults host c = some (merged host c servers) := by
  obtain ⟨raw, hraw, hs⟩ := Schema.required_of_object (k := "servers") h (by repeat constructor)
  obtain ⟨items, rfl, hitems⟩ := Schema.accepts_list_iff.1 hs
  obtain ⟨servers, hservers, hall⟩ := mapM_normalizeServer host hitems
  refine ⟨items, servers, hraw, hitems, hall, ?_⟩
  have hmerge : mergeServers host c = some servers := by
    rw [mergeServers, hraw]
    exact hservers
  have hconnect : mergeSection c "connect" (normalizeConnectConfig host) none = _ :=
    mergeSection_eq fun v => Schema.optional_of_object h (by repeat constructor)
  have hidentity : mergeSection c "identity" normalizeIdentityConfig (some defaultIdentity) = _ :=
    mergeSection_eq fun v => Schema.optional_of_object h (by repeat constructor)
  have hgovernance : mergeSection c "governance" (normalizeGovernanceConfig host)
      (some defaultGovernance) = _ :=
    mergeSection_eq fun v => Schema.optional_of_object h (by repeat constructor)
  rw [mergeWithDefaults, hmerge, hconnect, hidentity, hgovernance, Option.or_none, Option.or_some,
    Option.or_some]
  rfl

-- the objects that a section is spread from
def spreadPaths : List (List Step) :=
  [[.key "gateway"], [.key "router", .key "health_check"], [.key "cache", .key "l1"],
    [.key "tenant_isolation"], [.key "observability"], [.key "metrics"]]

def Spreadable (config : Json) : Prop :=
  ∀ path ∈ spreadPaths, ∀ fields, config.at? path = some (.obj fields) → UniqueKeys fields

-- what the merge adds has the value that `d` has there
structure Supplies (d : Option Json) (config : Json) : Prop where
  loadBalancing : ∀ router, config.get? "router" = some router →
    router.get? "load_balancing" = none →
    ((d.bind fun x => x.get? "router").bind fun x => x.get? "load_balancing") =
      some (.str "round-robin")
  identity : config.get? "identity" = none →
    (d.bind fun x => x.get? "identity") = some defaultIdentity
  workspaces : ∀ identity, config.get? "identity" = some identity →
    identity.get? "workspaces" = none →
    ((d.bind fun x => x.get? "identity").bind fun x => x.get? "workspaces") = some (.arr [])
  governance : config.get? "governance" = none →
    (d.bind fun x => x.get? "governance") = some defaultGovernance

theorem normalSection_plain {key : String} (h : key ∉ ["servers", "plugins", "discovery"]) :
    normalSection c key = c.get? key := by
  simp only [List.mem_cons, List.not_mem_nil, not_or] at h
  simp [normalSection, h]

theorem normalSection_of_none {key : String} (h : c.get? key = none) :
    normalSection c key = none := by
  simp [normalSection, h]

theorem get?_normalConfig (h : conduitGatewayConfig.accepts c = true) (key : String) :
    (normalConfig c).get? key = normalSection c key := by
  rw [normalConfig, get?_ofLookup]
  split
  next => rfl
  next hkey =>
    refine (normalSection_of_none (Schema.closed_of_object h fun hmem => hkey ?_)).symm
    clear hkey
    revert key
    decide

theorem filled_plain {key : String} (hkey : key ∉ ["servers", "plugins", "discovery"])
    {d value : Option Json} (h : Filled d (c.get? key) value) :
    Filled d (normalSection c key) value :=
  normalSection_plain hkey ▸ h

theorem covers_given {key : String} {base : String → Option Json}
    (hkey : key ∉ ["servers", "plugins", "discovery"]) :
    Covers base (normalSection c) [key] (given key (c.get? key)) :=
  Covers.optional (filled_plain hkey (.refl _ _))

section Required

variable {d : Option Json} {base : String → Option Json}

theorem filled_servers {items : List Json} (hitems : c.get? "servers" = some (.arr items))
    (haccepts : ∀ x ∈ items, serverConfig.accepts x = true)
    (hall : List.Forall₂ (fun raw server => normalizeServer host raw = some server) items servers) :
    Filled d (normalSection c "servers") (some (.arr (servers.map ServerObject.toJson))) := by
  rw [normalSection, if_pos rfl, hitems]
  exact .kept (Fills.of_forall₂ (forall₂_fills_entries haccepts hall))

theorem filled_router (h : conduitGatewayConfig.accepts c = true) (hspread : Spreadable c)
    (hsupplies : Supplies d c) :
    Filled (d.bind fun x => x.get? "router") (c.get? "router") (some (.obj (mergeRouter c))) := by
  obtain ⟨raw, hraw, hs⟩ := Schema.required_of_object (k := "router") h (by repeat constructor)
  have hrouter : Fills (d.bind fun x => x.get? "router") raw (.obj (mergeRouter c)) := by
    refine fills_mergeRouter hraw hs ?_ (hsupplies.loadBalancing raw hraw)
    intro fields hfields
    refine hspread [.key "router", .key "health_check"] (by simp [spreadPaths]) fields ?_
    simp [Json.at?, Json.step?, hraw, hfields]
  rw [hraw]
  exact .kept hrouter

theorem filled_cache (h : conduitGatewayConfig.accepts c = true) (hspread : Spreadable c) :
    Filled d (c.get? "cache") (some (.obj (mergeCache host c))) := by
  obtain ⟨raw, hraw, hs⟩ := Schema.required_of_object (k := "cache") h (by repeat constructor)
  have hcache : Fills d raw (.obj (mergeCache host c)) := by
    refine fills_mergeCache hraw hs ?_
    intro fields hfields
    refine hspread [.key "cache", .key "l1"] (by simp [spreadPaths]) fields ?_
    simp [Json.at?, Json.step?, hraw, hfields]
  rw [hraw]
  exact .kept hcache

theorem unique_of_spreadable (hspread : Spreadable c) {key : String}
    (hkey : [.key key] ∈ spreadPaths) (fields : Fields) (h : c.get? key = some (.obj fields)) :
    UniqueKeys fields := by
  refine hspread [.key key] hkey fields ?_
  simp [Json.at?, Json.step?, h]

theorem filled_identity (h : conduitGatewayConfig.accepts c = true) (hsupplies : Supplies d c) :
    Filled (d.bind fun x => x.get? "identity") (c.get? "identity")
      (some (((c.get? "identity").map normalizeIdentityConfig).getD defaultIdentity)) := by
  cases hx : c.get? "identity" with
  | none => exact .added (hsupplies.identity hx)
  | some raw =>
      have hs := Schema.optional_of_object (k := "identity") h (by repeat constructor) hx
      exact .kept (fills_normalizeIdentityConfig hs (hsupplies.workspaces raw hx))

theorem filled_governance (host : Host) (h : conduitGatewayConfig.accepts c = true)
    (hsupplies : Supplies d c) :
    Filled (d.bind fun x => x.get? "governance") (c.get? "governance")
      (some (((c.get? "governance").map (normalizeGovernanceConfig host)).getD
        defaultGovernance)) := by
  cases hx : c.get? "governance" with
  | none => exact .added (hsupplies.governance hx)
  | some raw =>
      have hs := Schema.optional_of_object (k := "governance") h (by repeat constructor) hx
      exact .kept (keeps_normalizeGovernanceConfig host _ raw hs)

theorem filled_connect (host : Host) (h : conduitGatewayConfig.accepts c = true) :
    Filled d (c.get? "connect") ((c.get? "connect").map (normalizeConnectConfig host)) :=
  filled_map (fun _ => Schema.optional_of_object h (by repeat constructor))
    (keeps_normalizeConnectConfig host)

end Required

theorem fills_merged (h : conduitGatewayConfig.accepts c = true) (hspread : Spreadable c)
    {d : Option Json} (hsupplies : Supplies d c) {items : List Json}
    (hitems : c.get? "servers" = some (.arr items))
    (haccepts : ∀ x ∈ items, serverConfig.accepts x = true)
    (hall : List.Forall₂ (fun raw server => normalizeServer host raw = some server) items servers) :
    Fills d (normalConfig c) (merged host c servers).toJson := by
  have hgateway : Filled (d.bind fun x => x.get? "gateway") (c.get? "gateway")
      (some (.obj (mergeObject defaultGateway (c.get? "gateway")))) :=
    filled_mergeObject h (by repeat constructor)
      (unique_of_spreadable hspread (by simp [spreadPaths])) (by decide)
  have htenant : Filled (d.bind fun x => x.get? "tenant_isolation") (c.get? "tenant_isolation")
      (some (.obj (mergeObject defaultTenantIsolation (c.get? "tenant_isolation")))) :=
    filled_mergeObject h (by repeat constructor)
      (unique_of_spreadable hspread (by simp [spreadPaths])) (by decide)
  have hobservability : Filled (d.bind fun x => x.get? "observability") (c.get? "observability")
      (some (.obj (mergeObject defaultObservability (c.get? "observability")))) :=
    filled_mergeObject h (by repeat constructor)
      (unique_of_spreadable hspread (by simp [spreadPaths])) (by decide)
  have hmetrics : Filled (d.bind fun x => x.get? "metrics") (c.get? "metrics")
      (some (.obj (mergeObject defaultMetrics (c.get? "metrics")))) :=
    filled_mergeObject h (by repeat constructor)
      (unique_of_spreadable hspread (by simp [spreadPaths])) (by decide)
  have hoptional : Covers (fun k => d.bind fun x => x.get? k) (normalSection c)
      ["auth", "acl", "rate_limits", "admin", "connect", "identity", "governance", "guardrails",
        "plugins", "discovery"] _ :=
    (((((((((covers_given (by decide)).append (covers_given (by decide)) (by decide)).append
      (covers_given (by decide)) (by decide)).append (covers_given (by decide)) (by decide)).append
      (.optional (filled_plain (by decide) (filled_connect host h))) (by decide)).append
      (.optional (filled_plain (by decide) (filled_identity h hsupplies))) (by decide)).append
      (.optional (filled_plain (by decide) (filled_governance host h hsupplies)))
      (by decide)).append
      (covers_given (by decide)) (by decide)).append (.absent rfl) (by decide)).append (.absent rfl)
      (by decide)
  apply Fills.of_fields
  intro k
  change Filled _ ((normalConfig c).get? k) _
  rw [get?_normalConfig h]
  refine Covers.filled (d := fun k => d.bind fun x => x.get? k)
    (.cons (filled_plain (by decide) hgateway)
    (.cons (filled_plain (by decide) (filled_router h hspread hsupplies))
    (.cons (filled_servers hitems haccepts hall)
    (.cons (filled_plain (by decide) (filled_cache h hspread))
    (.cons (filled_plain (by decide) htenant) (.cons (filled_plain (by decide) hobservability)
    (.cons (filled_plain (by decide) hmetrics) hoptional (by decide)) (by decide)) (by decide))
    (by decide)) (by decide)) (by decide)) (by decide)) ?_ k
  intro k hk
  refine normalSection_of_none (Schema.closed_of_object h fun hmem => hk ?_)
  clear hk
  revert k
  decide

theorem get?_of_normalSection {key : String} {x : Json} (hkey : key ≠ "servers")
    (h : normalSection c key = some x) : c.get? key = some x := by
  rw [normalSection, if_neg hkey] at h
  split at h
  next => cases h
  next => exact h

theorem accepts_normalConfig (h : conduitGatewayConfig.accepts c = true) :
    conduitGatewayConfig.accepts (normalConfig c) = true := by
  obtain ⟨raw, hraw, hs⟩ := Schema.required_of_object (k := "servers") h (by repeat constructor)
  obtain ⟨items, rfl, hitems⟩ := Schema.accepts_list_iff.1 hs
  have hservers : (Schema.list serverConfig).accepts (.arr (items.map normalServer)) = true := by
    refine Schema.accepts_list_iff.2 ⟨_, rfl, fun x hx => ?_⟩
    obtain ⟨raw, hmem, rfl⟩ := List.mem_map.mp hx
    exact accepts_normalServer (hitems raw hmem)
  have hplain : ∀ (key : String) (s : Schema), key ∉ ["servers", "plugins", "discovery"] →
      (∃ x, c.get? key = some x ∧ s.accepts x = true) →
      ∃ x, (normalConfig c).get? key = some x ∧ s.accepts x = true := by
    intro key s hkey hx
    rw [get?_normalConfig h, normalSection_plain hkey]
    exact hx
  refine Schema.accepts_object_of_get? ⟨_, rfl⟩ ?_ ?_ ?_
  · intro e he
    have hrequired := Schema.required_of_object h he
    simp only [List.mem_cons, List.not_mem_nil, or_false] at he
    rcases he with rfl | rfl | rfl | rfl | rfl | rfl | rfl
    on_goal 3 =>
      refine ⟨_, ?_, hservers⟩
      rw [get?_normalConfig h, normalSection, if_pos rfl, hraw]
      rfl
    all_goals exact hplain _ _ (by decide) hrequired
  · intro e he x hx
    have hkey : e.1 ≠ "servers" := by
      intro heq
      have hmem := List.mem_map_of_mem (f := Prod.fst) he
      rw [heq] at hmem
      revert hmem
      decide
    rw [get?_normalConfig h] at hx
    exact Schema.optional_of_object h he (get?_of_normalSection hkey hx)
  · intro k x hx
    by_contra hk
    rw [get?_normalConfig h, normalSection_of_none (Schema.closed_of_object h hk)] at hx
    cases hx

end Merged

section Again

variable {host : Host} {c w v : Json} {servers : List ServerObject}

theorem fills_of_normalConfig (h : conduitGatewayConfig.accepts w = true)
    (hplugins : w.get? "plugins" = none) (hdiscovery : w.get? "discovery" = none)
    {items : List Json} (hservers : w.get? "servers" = some (.arr items))
    (hsettled : ∀ x ∈ items, Settled x) (hfills : Fills none (normalConfig w) v) :
    Fills none w v := by
  obtain ⟨fields, rfl, -⟩ := Schema.accepts_object_iff.1 h
  obtain ⟨ws, rfl⟩ := hfills.object
  apply Fills.of_fields
  intro k
  have hk := hfills.get? k
  rw [get?_normalConfig h] at hk
  change Filled _ ((Json.obj fields).get? k) ((Json.obj ws).get? k)
  by_cases hserver : k = "servers"
  · subst hserver
    rw [normalSection, if_pos rfl, hservers] at hk
    rw [hservers]
    cases hw : (Json.obj ws).get? "servers" with
    | none =>
        rw [hw] at hk
        cases hk
    | some x =>
        rw [hw] at hk
        cases hk with
        | kept hfills => exact .kept (fills_settled hsettled hfills)
  · rw [normalSection, if_neg hserver] at hk
    split at hk
    next hlost =>
      have hnone : (Json.obj fields).get? k = none := by
        rcases hlost with rfl | rfl
        · exact hplugins
        · exact hdiscovery
      rw [hnone]
      exact hk
    next => exact hk

theorem spreadable_merged : Spreadable (merged host c servers).toJson := by
  intro path hpath fields hfields
  simp only [spreadPaths, List.mem_cons, List.not_mem_nil, or_false] at hpath
  rcases hpath with rfl | rfl | rfl | rfl | rfl | rfl
  · cases hfields
    exact uniqueKeys_mergeObject (by decide) _
  · cases hfields
    exact uniqueKeys_spreadOver (by decide) _
  · cases hfields
    exact uniqueKeys_spreadOver (by decide) _
  all_goals
    cases hfields
    exact uniqueKeys_mergeObject (by decide) _

theorem get?_toJson_identity (config : ConfigObject) :
    config.toJson.get? "identity" = config.identity := by
  simp [ConfigObject.toJson, Json.get?, Json.field, field_append, field_given]

theorem get?_toJson_governance (config : ConfigObject) :
    config.toJson.get? "governance" = config.governance := by
  simp [ConfigObject.toJson, Json.get?, Json.field, field_append, field_given]

theorem get?_toJson_plugins (config : ConfigObject) :
    config.toJson.get? "plugins" = config.plugins := by
  simp [ConfigObject.toJson, Json.get?, Json.field, field_append, field_given]

theorem get?_toJson_discovery (config : ConfigObject) :
    config.toJson.get? "discovery" = config.discovery := by
  simp [ConfigObject.toJson, Json.get?, Json.field, field_append, field_given]

theorem workspaces_ne_none {value : Option Json} :
    ((value.map normalizeIdentityConfig).getD defaultIdentity).get? "workspaces" ≠ none := by
  cases value <;> exact nofun

-- a merged configuration has every default already
theorem supplies_merged : Supplies none (merged host c servers).toJson := by
  constructor
  · intro router hrouter hbalancing
    cases hrouter
    cases hbalancing
  · intro hnone
    rw [get?_toJson_identity] at hnone
    cases hnone
  · intro identity hidentity hworkspaces
    rw [get?_toJson_identity] at hidentity
    cases hidentity
    exact absurd hworkspaces workspaces_ne_none
  · intro hnone
    rw [get?_toJson_governance] at hnone
    cases hnone

theorem supplies_default (c : Json) : Supplies (some defaultGatewayConfig) c where
  loadBalancing := fun _ _ _ => rfl
  identity := fun _ => rfl
  workspaces := fun _ _ _ => rfl
  governance := fun _ => rfl

theorem at?_keyed {path : List Step} {v x : Json} (h : v.Keyed) (hx : v.at? path = some x) :
    x.Keyed := by
  induction path generalizing v with
  | nil =>
      cases hx
      exact h
  | cons s path ih =>
      obtain ⟨u, hu, hrest⟩ := Option.bind_eq_some_iff.mp hx
      refine ih ?_ hrest
      cases v with
      | arr items =>
          cases s with
          | key k => cases hu
          | item i => exact keyedItems_iff.1 h u (List.mem_of_getElem? hu)
      | obj fields =>
          cases s with
          | key k => exact keyedFields_iff.1 h.2 (k, u) (mem_of_field hu)
          | item i => cases hu
      | null | bool | num | str => cases s <;> cases hu

theorem spreadable_of_wellTyped (h : WellTyped c) : Spreadable c :=
  fun _ _ _ hx => (at?_keyed h.keyed hx).1

-- nothing is lost but what the server entries need not say; merging once more changes nothing but
-- the order of fields
theorem mergeWithDefaults_lossless (host : Host) (c : Json) (h : WellTyped c) :
    ∃ r, mergeWithDefaults host c = some r ∧
      Fills (some defaultGatewayConfig) (normalConfig c) r.withoutExtensions.toJson ∧
      ∃ r', mergeWithDefaults host r.toJson = some r' ∧ Fills none r.toJson r'.toJson := by
  obtain ⟨items, servers, hitems, haccepts, hall, hmerge⟩ := mergeWithDefaults_eq host h.typed
  have hfills : Fills (some defaultGatewayConfig) (normalConfig c) (merged host c servers).toJson :=
    fills_merged h.typed (spreadable_of_wellTyped h) (supplies_default c) hitems haccepts hall
  refine ⟨merged host c servers, hmerge, hfills, ?_⟩
  have htyped : conduitGatewayConfig.accepts (merged host c servers).toJson = true := by
    refine conduitGatewayConfig.stable _ _ _ (accepts_normalConfig h.typed) ?_ hfills
    intro x hx
    exact Option.some.inj hx ▸ accepts_defaultGatewayConfig
  obtain ⟨items', servers', hitems', haccepts', hall', hmerge'⟩ :=
    mergeWithDefaults_eq host htyped
  refine ⟨merged host _ servers', hmerge', ?_⟩
  have hagain := fills_merged htyped spreadable_merged supplies_merged hitems' haccepts' hall'
  cases hitems'
  exact fills_of_normalConfig htyped (get?_toJson_plugins _) (get?_toJson_discovery _) rfl
    (settled_entries haccepts hall) hagain

end Again

section Samples

def sampleHost : Host where
  sha256 := id
  regExpTest := fun _ _ => none
  jwtVerify := fun _ _ _ => .error "invalid"
  parseBase64Json := fun _ => none

def sampleServer (url : String) (fields : Fields) : Json :=
  .obj (("id", .str "files") :: ("url", .str url) ::
    ("cache", .obj [("default_ttl", .ofNat 60)]) :: fields)

def sampleConfig (servers : List Json) (sections : Fields) : Json :=
  .obj (("gateway", .obj defaultGateway) :: ("router", defaultRouter) ::
    ("servers", .arr servers) ::
    ("cache", .obj [("enabled", .bool true), ("l1", .obj defaultL1)]) ::
    ("tenant_isolation", .obj defaultTenantIsolation) ::
    ("observability", .obj defaultObservability) :: ("metrics", .obj defaultMetrics) :: sections)

def stdioServer : Json :=
  sampleServer "" [("transport", .str "stdio"), ("command", .str "npx"),
    ("args", .arr [.str "files-mcp"])]

theorem mergeWithDefaults_lossless_stdio :
    ∃ r, mergeWithDefaults sampleHost (sampleConfig [stdioServer] []) = some r ∧
      Fills (some defaultGatewayConfig) (normalConfig (sampleConfig [stdioServer] []))
        r.withoutExtensions.toJson ∧
      ∃ r', mergeWithDefaults sampleHost r.toJson = some r' ∧ Fills none r.toJson r'.toJson :=
  mergeWithDefaults_lossless sampleHost (sampleConfig [stdioServer] []) (by decide +kernel)

def LosesNothing (host : Host) (c : Json) : Prop :=
  ∃ r, mergeWithDefaults host c = some r ∧ Fills (some defaultGatewayConfig) c r.toJson ∧
    ∃ r', mergeWithDefaults host r.toJson = some r' ∧ Fills none r.toJson r'.toJson

-- a text or a boolean of `c` at the path that the merge leaves out or changes
def losesAt (host : Host) (c : Json) (path : List Step) : Bool :=
  match c.at? path, mergeWithDefaults host c with
  | some (.str s), some r => r.toJson.at? path ≠ some (.str s)
  | some (.bool b), some r => r.toJson.at? path ≠ some (.bool b)
  | _, _ => false

theorem not_losesNothing {host : Host} {c : Json} {path : List Step}
    (h : losesAt host c path = true) : ¬ LosesNothing host c := by
  rintro ⟨r, hmerge, hfills, -⟩
  rw [losesAt, hmerge] at h
  split at h
  next s r' hs hr =>
    cases hr
    obtain ⟨d, y, hy, hvalue⟩ := hfills.at? hs
    cases hvalue
    exact of_decide_eq_true h hy
  next b r' hb hr =>
    cases hr
    obtain ⟨d, y, hy, hvalue⟩ := hfills.at? hb
    cases hvalue
    exact of_decide_eq_true h hy
  next => cases h

def serverPath (key : String) : List Step := [.key "servers", .item 0, .key key]

-- what the merge loses, each with a path that leads there
def lossySamples : List (Json × List Step) :=
  [(sampleConfig [] [("plugins", .arr [.obj [("name", .str "audit"), ("path", .str "./audit.js"),
      ("hooks", .arr [.str "before:request"])]])], [.key "plugins", .item 0, .key "name"]),
    (sampleConfig [] [("discovery", .obj [("enabled", .bool true),
      ("poll_interval_seconds", .ofNat 30), ("stale_timeout_seconds", .ofNat 90),
      ("default_cache", .obj [("default_ttl", .ofNat 0)]),
      ("backends", .arr [.obj [("type", .str "http")]])])], [.key "discovery", .key "enabled"]),
    (sampleConfig [sampleServer "http://a/mcp" [("transport", .str "http")]] [],
      serverPath "transport"),
    (sampleConfig [sampleServer "http://a/mcp" [("command", .str "npx")]] [], serverPath "command"),
    (sampleConfig [sampleServer "http://a/mcp" [("args", .arr [.str "files-mcp"])]] [],
      serverPath "args" ++ [.item 0]),
    (sampleConfig [sampleServer "http://a/mcp" [("env", .obj [("HOME", .str "/srv")])]] [],
      serverPath "env" ++ [.key "HOME"]),
    (sampleConfig
      [sampleServer "http://a/mcp" [("transport", .str "stdio"), ("command", .str "")]] [],
      serverPath "command"),
    (sampleConfig [stdioServer] [], serverPath "url"),
    (sampleConfig [sampleServer "http://a/mcp" [("forward_authorization", .bool false)]] [],
      serverPath "forward_authorization")]

theorem lossySamples_lose :
    lossySamples.Forall fun e => WellTyped e.1 ∧ ¬ LosesNothing sampleHost e.1 := by
  have hlose : ∀ e ∈ lossySamples, WellTyped e.1 ∧ losesAt sampleHost e.1 e.2 = true := by
    decide +kernel
  rw [List.forall_iff_forall_mem]
  intro e he
  exact ⟨(hlose e he).1, not_losesNothing (hlose e he).2⟩

end Samples

end Conduit.Config
