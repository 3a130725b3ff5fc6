import Conduit.Foundation.Silence
import Conduit.Gateway.Mediation
import Conduit.Gateway.Reload

namespace Conduit.Gateway

open Config

def Loud (S : ReloadState) : Prop := S.report ≠ {}

theorem loud_reloads (S : ReloadState) (note : ReloadNote) : Loud (S.reloads note) := by
  intro h
  have hnil := congrArg ReloadReport.reloaded h
  simp [ReloadState.reloads] at hnil

theorem loud_skips (S : ReloadState) (note : ReloadNote) : Loud (S.skips note) := by
  intro h
  have hnil := congrArg ReloadReport.skipped h
  simp [ReloadState.skips] at hnil

theorem loud_fails (S : ReloadState) (note : ReloadNote) : Loud (S.fails note) := by
  intro h
  have hnil := congrArg ReloadReport.errors h
  simp [ReloadState.fails] at hnil

section Steps

variable (N : ConfigObject)

theorem silent_flagListening : SilentWhen Loud (flagListening N) fun S =>
    (sameValue (Json.field N.gateway "port") (Json.field S.config.gateway "port") &&
      sameValue (Json.field N.gateway "host") (Json.field S.config.gateway "host")) = true :=
  .of_ite fun S => loud_skips S _

theorem silent_flagTls : SilentWhen Loud (flagTls N) fun S =>
    sameText (Json.field N.gateway "tls") (Json.field S.config.gateway "tls") = true :=
  .of_ite fun S => loud_skips S _

theorem loud_addServer (S : ReloadState) (server : ServerObject) : Loud (addServer S server) := by
  unfold addServer
  split
  · exact loud_fails _ _
  · exact loud_fails _ _
  · exact loud_reloads _ _

theorem loud_foldl {f : ReloadState → ServerObject → ReloadState} (hf : ∀ S s, Loud (f S s))
    (servers : List ServerObject) {S : ReloadState} (h : servers = [] → Loud S) :
    Loud (servers.foldl f S) := by
  induction servers generalizing S with
  | nil => exact h rfl
  | cons server servers ih => exact ih fun _ => hf S server

theorem silent_addServers : SilentWhen Loud (addServers N) fun S =>
    ∀ s ∈ N.servers, s.id ∈ serverIds S.config.servers where
  keeps S h := loud_foldl loud_addServer _ fun _ => h
  silent S h := by
    unfold addServers
    rw [List.filter_eq_nil_iff.mpr fun s hs => by simpa using h s hs]
    rfl
  marks S h := by
    refine loud_foldl loud_addServer _ fun hnil => absurd (fun s hs => ?_) h
    simpa using List.filter_eq_nil_iff.mp hnil s hs

theorem silent_removeServers : SilentWhen Loud (removeServers N) fun S =>
    ∀ s ∈ S.config.servers, s.id ∈ serverIds N.servers where
  keeps S h := loud_foldl (fun _ _ => loud_reloads _ _) _ fun _ => h
  silent S h := by
    unfold removeServers
    rw [List.filter_eq_nil_iff.mpr fun s hs => by simpa using h s hs]
    dsimp only [List.foldl_nil]
    rw [List.filter_eq_self.mpr fun s hs => by simpa using h s hs]
  marks S h := by
    refine loud_foldl (fun _ _ => loud_reloads _ _) _ fun hnil => absurd (fun s hs => ?_) h
    simpa using List.filter_eq_nil_iff.mp hnil s hs

def SameUrl (server : ServerObject) (S : ReloadState) : Prop :=
  ∀ current, findServer S.config.servers server.id = some current → current.url = server.url

theorem silent_flagUrl (server : ServerObject) :
    SilentWhen Loud (fun S => flagUrl S server) (SameUrl server) where
  keeps S h := by
    unfold flagUrl
    split
    · exact h
    · split
      · exact h
      · exact loud_skips _ _
  silent S h := by
    unfold flagUrl
    split
    next => rfl
    next current hcurrent => rw [if_pos (h current hcurrent)]
  marks S h := by
    unfold flagUrl
    split
    next hnone => exact absurd (fun current hcurrent => by simp [hnone] at hcurrent) h
    next current hcurrent =>
      rw [if_neg fun hsame => h fun other hother => ?_]
      · exact loud_skips _ _
      · rw [← Option.some.inj (hcurrent.symm.trans hother)]
        exact hsame

theorem silent_flagUrls : SilentWhen Loud (flagUrls N) fun S =>
    ∀ s ∈ N.servers, SameUrl s S :=
  .foldl silent_flagUrl N.servers

theorem silent_flagAuth : SilentWhen Loud (flagAuth N) fun S =>
    sameValue (authMethod N.auth) (authMethod S.config.auth) = true :=
  .of_ite fun S => loud_skips S _

theorem silent_reloadAcl : SilentWhen Loud (reloadAcl N) fun S =>
    sameText N.acl S.config.acl = true :=
  .of_ite fun _ => loud_reloads _ _

theorem silent_reloadGuardrails : SilentWhen Loud (reloadGuardrails N) fun S =>
    sameText N.guardrails S.config.guardrails = true :=
  .of_ite fun _ => loud_reloads _ _

theorem silent_reloadGovernance : SilentWhen Loud (reloadGovernance N) fun S =>
    sameGovernanceStore N S = true ∧ sameText N.governance S.config.governance = true where
  keeps S h := by
    unfold reloadGovernance
    split
    · split
      · exact h
      · exact loud_reloads _ _
    · exact loud_skips _ _
  silent S h := by rw [reloadGovernance, if_pos h.1, if_pos h.2]
  marks S h := by
    unfold reloadGovernance
    split
    next hstore =>
      rw [if_neg fun htext => h ⟨hstore, htext⟩]
      exact loud_reloads _ _
    next => exact loud_skips _ _

theorem silent_reloadRateLimits : SilentWhen Loud (reloadRateLimits N) fun S =>
    sameText N.rateLimits S.config.rateLimits = true :=
  .of_ite fun _ => loud_reloads _ _

theorem silent_reloadObservability : SilentWhen Loud (reloadObservability N) fun S =>
    sameObservability N S = true :=
  .of_ite fun _ => loud_reloads _ _

def SameCache (server : ServerObject) (S : ReloadState) : Prop :=
  ∀ current, findServer S.config.servers server.id = some current →
    server.cache.stringify = current.cache.stringify

theorem sameText_some {a b : Json} :
    sameText (some a) (some b) = true ↔ a.stringify = b.stringify := by
  simp [sameText]

theorem silent_reloadCache (server : ServerObject) :
    SilentWhen Loud (fun S => reloadCache S server) (SameCache server) where
  keeps S h := by
    unfold reloadCache
    split
    · exact h
    · split
      · exact h
      · exact loud_reloads _ _
  silent S h := by
    unfold reloadCache
    split
    next => rfl
    next current hcurrent => rw [if_pos (sameText_some.2 (h current hcurrent))]
  marks S h := by
    unfold reloadCache
    split
    next hnone => exact absurd (fun current hcurrent => by simp [hnone] at hcurrent) h
    next current hcurrent =>
      rw [if_neg fun hsame => h fun other hother => ?_]
      · exact loud_reloads _ _
      · rw [← Option.some.inj (hcurrent.symm.trans hother)]
        exact sameText_some.1 hsame

theorem silent_reloadCaches : SilentWhen Loud (reloadCaches N) fun S =>
    ∀ s ∈ N.servers, SameCache s S :=
  .foldl silent_reloadCache N.servers

-- every comparison that reload makes finds nothing new
structure NothingNew (S : ReloadState) : Prop where
  listening : (sameValue (Json.field N.gateway "port") (Json.field S.config.gateway "port") &&
    sameValue (Json.field N.gateway "host") (Json.field S.config.gateway "host")) = true
  tls : sameText (Json.field N.gateway "tls") (Json.field S.config.gateway "tls") = true
  added : ∀ s ∈ N.servers, s.id ∈ serverIds S.config.servers
  removed : ∀ s ∈ S.config.servers, s.id ∈ serverIds N.servers
  urls : ∀ s ∈ N.servers, SameUrl s S
  auth : sameValue (authMethod N.auth) (authMethod S.config.auth) = true
  acl : sameText N.acl S.config.acl = true
  guardrails : sameText N.guardrails S.config.guardrails = true
  governance : sameGovernanceStore N S = true ∧ sameText N.governance S.config.governance = true
  rateLimits : sameText N.rateLimits S.config.rateLimits = true
  observability : sameObservability N S = true
  caches : ∀ s ∈ N.servers, SameCache s S

theorem silent_applyReload : SilentWhen Loud (applyReload N) (NothingNew N) := by
  have hserved := ((((((silent_flagListening N).comp (silent_flagTls N)).comp
    (silent_addServers N)).comp (silent_removeServers N)).comp (silent_flagUrls N)).comp
    (silent_flagAuth N))
  have hruled := ((((hserved.comp (silent_reloadAcl N)).comp (silent_reloadGuardrails N)).comp
    (silent_reloadGovernance N)).comp (silent_reloadRateLimits N))
  refine ((hruled.comp (silent_reloadObservability N)).comp (silent_reloadCaches N)).congr ?_
  intro S
  constructor
  · rintro ⟨⟨⟨⟨⟨⟨⟨⟨⟨⟨⟨h₁, h₂⟩, h₃⟩, h₄⟩, h₅⟩, h₆⟩, h₇⟩, h₈⟩, h₉⟩, h₁₀⟩, h₁₁⟩, h₁₂⟩
    exact ⟨h₁, h₂, h₃, h₄, h₅, h₆, h₇, h₈, h₉, h₁₀, h₁₁, h₁₂⟩
  · rintro ⟨h₁, h₂, h₃, h₄, h₅, h₆, h₇, h₈, h₉, h₁₀, h₁₁, h₁₂⟩
    exact ⟨⟨⟨⟨⟨⟨⟨⟨⟨⟨⟨h₁, h₂⟩, h₃⟩, h₄⟩, h₅⟩, h₆⟩, h₇⟩, h₈⟩, h₉⟩, h₁₀⟩, h₁₁⟩, h₁₂⟩

end Steps

section Governance

theorem stringify_second (k₁ k₂ : String) (v₁ v₂ : Json) (rest : Fields) :
    ∃ tail, (Json.obj ((k₁, v₁) :: (k₂, v₂) :: rest)).stringify =
      "\x7b" ++ (Json.quote k₁ ++ ":" ++ v₁.stringify) ++ "," ++ (Json.quote k₂ ++ tail) := by
  have hsecond : ∃ tail, ",".intercalate (Json.stringifyFields ((k₂, v₂) :: rest)) =
      Json.quote k₂ ++ tail := by
    rw [Json.stringifyFields]
    cases Json.stringifyFields rest with
    | nil =>
        rw [String.intercalate_singleton, String.append_assoc]
        exact ⟨_, rfl⟩
    | cons t rest =>
        rw [String.intercalate_cons_cons]
        simp only [String.append_assoc]
        exact ⟨_, rfl⟩
  obtain ⟨tail, htail⟩ := hsecond
  refine ⟨tail ++ "\x7d", ?_⟩
  rw [Json.stringify, Json.stringifyFields, Json.stringifyFields, String.intercalate_cons_cons,
    ← Json.stringifyFields, htail]
  simp only [String.append_assoc]

theorem overridden_text_ne {host : Host} {raw : Json} {dbPath : String}
    (hdb : (normalizeGovernanceConfig host raw).get? "db_path" = some (.str dbPath))
    {rest : Fields} {action : Json}
    (htext : (normalizeGovernanceConfig host raw).stringify =
      (Json.obj (("enabled", .bool true) :: ("registry_default_action", action) :: rest)).stringify)
    (henabled : (normalizeGovernanceConfig host raw).get? "enabled" = some (.bool true)) : False := by
  rw [dbPath_normalizeGovernanceConfig] at hdb
  obtain ⟨value, hvalue, -⟩ := Option.map_eq_some_iff.mp hdb
  rw [enabled_normalizeGovernanceConfig] at henabled
  have hshape : ∃ more, normalizeGovernanceConfig host raw =
      .obj (("enabled", .bool true) :: ("db_path", text value) :: more) := by
    rw [normalizeGovernanceConfig, Option.some.inj henabled, defined, hvalue]
    simp only [List.append_assoc, List.cons_append, List.nil_append, Option.map_some,
      Option.toList_some]
    exact ⟨_, rfl⟩
  obtain ⟨more, hmore⟩ := hshape
  obtain ⟨t₁, h₁⟩ := stringify_second "enabled" "db_path" (.bool true) (text value) more
  obtain ⟨t₂, h₂⟩ := stringify_second "enabled" "registry_default_action" (.bool true) action rest
  rw [hmore, h₁, h₂] at htext
  have htail := congrArg String.toList htext
  simp only [String.toList_append, List.append_assoc, List.append_cancel_left_eq] at htail
  have hd : (Json.quote "db_path").toList = '"' :: 'd' :: "b_path\"".toList := by decide
  have hr : (Json.quote "registry_default_action").toList =
      '"' :: 'r' :: "egistry_default_action\"".toList := by decide
  rw [hd, hr] at htail
  simp at htail

end Governance

section Reread

-- every override gives what the file alone would give
structure Redundant (env : Environment) (N : ConfigObject) : Prop where
  port : ∀ n, env.port.bind parseInt = some n → Json.field N.gateway "port" = some (.num n)
  host : ∀ name, env.host = some name → Json.field N.gateway "host" = some (.str name)
  tls : ∀ tls, env.overrideTls (Json.field N.gateway "tls") = some tls →
    sameText (Json.field N.gateway "tls") tls = true
  rateLimits : ∀ rateLimits, env.overrideRateLimits N.rateLimits = some rateLimits →
    sameText N.rateLimits rateLimits = true
  governance : env.governanceDbPath = none
  logArgs : ∀ value, env.logArgs = some value →
    Json.field N.observability "log_args" = some (.bool (toLowerCase value ≠ "false"))

-- no object stands where reload compares by ===, and entries with one id agree on what it compares
structure Steady (N : ConfigObject) : Prop where
  port : isScalar (Json.field N.gateway "port") = true
  host : isScalar (Json.field N.gateway "host") = true
  auth : isScalar (authMethod N.auth) = true
  logArgs : isScalar (Json.field N.observability "log_args") = true
  logResponses : isScalar (Json.field N.observability "log_responses") = true
  urls : ∀ s ∈ N.servers, ∀ first, findServer N.servers s.id = some first → first.url = s.url
  caches : ∀ s ∈ N.servers, ∀ first, findServer N.servers s.id = some first →
    s.cache.stringify = first.cache.stringify

theorem sameValue_self (a : Option Json) : sameValue a a = true ↔ isScalar a = true := by
  simp [sameValue]

theorem sameText_self (a : Option Json) : sameText a a = true := by simp [sameText]

theorem sameValue_or {a value : Option Json} (hvalue : ∀ v, value = some v → isScalar (some v) = true) :
    sameValue a (value.or a) = true ↔ isScalar a = true ∧ ∀ v, value = some v → a = some v := by
  cases value with
  | none => simp [sameValue]
  | some v =>
      simp only [Option.some_or, sameValue, Bool.and_eq_true]
      constructor
      · rintro ⟨hsame, hscalar⟩
        exact ⟨hscalar, fun w hw => hw ▸ of_decide_eq_true hsame⟩
      · rintro ⟨hscalar, hsame⟩
        exact ⟨decide_eq_true (hsame v rfl), hscalar⟩

variable {host : Host} {env : Environment} {file : Json} {N C : ConfigObject}
  {registered : List String}

theorem governance_of_merge (h : mergeWithDefaults host file = some N) :
    mergeSection file "governance" (normalizeGovernanceConfig host) (some defaultGovernance) =
      some N.governance := by
  obtain ⟨servers, hservers, h⟩ := Option.bind_eq_some_iff.mp h
  obtain ⟨connect, hconnect, h⟩ := Option.bind_eq_some_iff.mp h
  obtain ⟨identity, hidentity, h⟩ := Option.bind_eq_some_iff.mp h
  obtain ⟨governance, hgovernance, h⟩ := Option.bind_eq_some_iff.mp h
  obtain rfl := Option.some.inj h
  exact hgovernance

theorem governance_cases {governance : Option Json}
    (h : mergeSection file "governance" (normalizeGovernanceConfig host) (some defaultGovernance) =
      some governance) :
    governance = some defaultGovernance ∨
      ∃ raw, governance = some (normalizeGovernanceConfig host raw) := by
  unfold mergeSection at h
  split at h
  · exact .inl (Option.some.inj h).symm
  · cases h
  next value _ _ => exact .inr ⟨value, (Option.some.inj h).symm⟩

theorem sameGovernanceStore_self (hmerged : mergeWithDefaults host file = some N)
    (hC : C.governance = N.governance) :
    sameGovernanceStore N ⟨C, registered, {}⟩ = true := by
  have hgovernance := governance_of_merge hmerged
  rw [sameGovernanceStore, hC, Bool.and_eq_true, sameValue_self, sameValue_self]
  rcases governance_cases hgovernance with hdefault | ⟨raw, hraw⟩
  · rw [hdefault]
    exact ⟨rfl, rfl⟩
  · rw [hraw]
    refine ⟨rfl, ?_⟩
    rw [governanceField, Option.bind_some, dbPath_normalizeGovernanceConfig]
    cases raw.get? "db_path" <;> rfl

theorem governance_overridden (hmerged : mergeWithDefaults host file = some N) {dbPath : String}
    (hset : env.governanceDbPath = some dbPath)
    (hC : C.governance = env.overrideGovernance N.governance) :
    ¬ (sameGovernanceStore N ⟨C, registered, {}⟩ = true ∧ sameText N.governance C.governance = true) := by
  rintro ⟨hstore, htext⟩
  have hgovernance := governance_of_merge hmerged
  simp only [Environment.overrideGovernance, hset] at hC
  rw [sameGovernanceStore, hC, Bool.and_eq_true] at hstore
  have henabled := of_decide_eq_true (Bool.and_eq_true_iff.mp hstore.1).1
  have hdb := of_decide_eq_true (Bool.and_eq_true_iff.mp hstore.2).1
  rcases governance_cases hgovernance with hdefault | ⟨raw, hraw⟩
  · rw [hdefault] at henabled
    have hne : some (Json.bool false) ≠ some (Json.bool true) := by decide
    exact hne henabled
  · rw [hC, hraw, sameText_some] at htext
    rw [hraw] at henabled hdb
    exact overridden_text_ne hdb htext henabled

theorem field_overridden_gateway (fields : Fields) (port name tls : Option Json) :
    let gateway := overrideField (overrideField (overrideField fields "port" port) "host" name)
      "tls" tls
    Json.field gateway "port" = port.or (Json.field fields "port") ∧
      Json.field gateway "host" = name.or (Json.field fields "host") ∧
      Json.field gateway "tls" = tls.or (Json.field fields "tls") := by
  simp [field_overrideField]

theorem field_overridden_observability (fields : Fields) (k : String) :
    Json.field (env.overrideObservability fields) k =
      if "log_args" = k then
        (env.logArgs.map fun value => Json.bool (toLowerCase value ≠ "false")).or
          (Json.field fields k)
      else if "db_path" = k then (env.dbPath.map Json.str).or (Json.field fields k)
      else Json.field fields k := by
  rw [Environment.overrideObservability, field_overrideField, field_overrideField]
  split
  next heq =>
    subst heq
    simp
  next => rfl

theorem or_map_iff {α : Type} {value : Option α} {f : α → Json} {a : Option Json}
    (hf : ∀ v, isScalar (some (f v)) = true) :
    sameValue a ((value.map f).or a) = true ↔
      isScalar a = true ∧ ∀ v, value = some v → a = some (f v) := by
  rw [sameValue_or]
  · refine and_congr_right fun _ => ⟨fun h v hv => h _ (by rw [hv]; rfl), fun h w hw => ?_⟩
    obtain ⟨v, hv, rfl⟩ := Option.map_eq_some_iff.mp hw
    exact h v hv
  · intro w hw
    obtain ⟨v, -, rfl⟩ := Option.map_eq_some_iff.mp hw
    exact hf v

theorem listening_iff (fields : Fields) (tls : Option Json) :
    let gateway := overrideField (overrideField (overrideField fields "port"
      ((env.port.bind parseInt).map .num)) "host" (env.host.map .str)) "tls" tls
    (sameValue (Json.field fields "port") (Json.field gateway "port") &&
      sameValue (Json.field fields "host") (Json.field gateway "host")) = true ↔
      (isScalar (Json.field fields "port") = true ∧
        ∀ n, env.port.bind parseInt = some n → Json.field fields "port" = some (.num n)) ∧
      (isScalar (Json.field fields "host") = true ∧
        ∀ name, env.host = some name → Json.field fields "host" = some (.str name)) := by
  obtain ⟨hport, hname, -⟩ := field_overridden_gateway fields
    ((env.port.bind parseInt).map .num) (env.host.map .str) tls
  dsimp only at hport hname ⊢
  rw [hport, hname, Bool.and_eq_true, or_map_iff fun _ => rfl, or_map_iff fun _ => rfl]

theorem tls_iff (fields : Fields) (port name : Option Json) {tls : Option Json}
    (htls : env.overrideTls (Json.field fields "tls") = some tls) :
    sameText (Json.field fields "tls") (Json.field (overrideField (overrideField (overrideField
        fields "port" port) "host" name) "tls" tls) "tls") = true ↔
      ∀ other, env.overrideTls (Json.field fields "tls") = some other →
        sameText (Json.field fields "tls") other = true := by
  obtain ⟨-, -, hfield⟩ := field_overridden_gateway fields port name tls
  have hsame : tls.or (Json.field fields "tls") = tls := by
    cases tls with
    | some value => rfl
    | none => exact Environment.overrideTls_ne_none _ htls
  rw [hfield, hsame]
  exact ⟨fun h other hother => Option.some.inj (htls.symm.trans hother) ▸ h, fun h => h tls htls⟩

theorem observability_iff (hC : C.observability = env.overrideObservability N.observability) :
    sameObservability N ⟨C, registered, {}⟩ = true ↔
      (isScalar (Json.field N.observability "log_args") = true ∧ ∀ value, env.logArgs = some value →
        Json.field N.observability "log_args" = some (.bool (toLowerCase value ≠ "false"))) ∧
      isScalar (Json.field N.observability "log_responses") = true := by
  have hargs := @field_overridden_observability env N.observability "log_args"
  have hresponses := @field_overridden_observability env N.observability "log_responses"
  have hredact := @field_overridden_observability env N.observability "redact_fields"
  rw [if_pos rfl] at hargs
  rw [if_neg (by decide), if_neg (by decide)] at hresponses hredact
  simp only [sameObservability, Bool.and_eq_true, hC, hargs, hresponses, hredact]
  rw [or_map_iff fun _ => rfl, sameValue_self]
  exact ⟨fun h => h.1, fun h => ⟨h, sameText_self _⟩⟩

theorem governance_iff (hmerged : mergeWithDefaults host file = some N)
    (hC : C.governance = env.overrideGovernance N.governance) :
    (sameGovernanceStore N ⟨C, registered, {}⟩ = true ∧ sameText N.governance C.governance = true) ↔
      env.governanceDbPath = none := by
  constructor
  · intro h
    cases hset : env.governanceDbPath with
    | none => rfl
    | some dbPath => exact absurd h (governance_overridden hmerged hset hC)
  · intro hnone
    rw [Environment.overrideGovernance, hnone] at hC
    exact ⟨sameGovernanceStore_self hmerged hC, by rw [hC]; exact sameText_self _⟩

theorem nothingNew_iff (hmerged : mergeWithDefaults host file = some N)
    (hC : applyEnvOverrides env N = some C) :
    NothingNew N ⟨C, registered, {}⟩ ↔ Redundant env N ∧ Steady N := by
  obtain ⟨gateway, rateLimits, hgateway, hrate, rfl⟩ := applyEnvOverrides_eq_some hC
  obtain ⟨tls, htls, rfl⟩ := Environment.overrideGateway_eq_some _ hgateway
  have hlistening := @listening_iff env N.gateway tls
  have htlsSame := tls_iff N.gateway ((env.port.bind parseInt).map .num) (env.host.map .str) htls
  have hgovernance := @governance_iff host env file N
    { N with governance := env.overrideGovernance N.governance } registered hmerged rfl
  have hobserve := @observability_iff env N
    { N with observability := env.overrideObservability N.observability } registered rfl
  constructor
  · intro h
    obtain ⟨hport, hname⟩ := hlistening.mp h.listening
    obtain ⟨hargs, hresponses⟩ := hobserve.mp h.observability
    refine ⟨⟨hport.2, hname.2, htlsSame.mp h.tls, ?_, hgovernance.mp h.governance, hargs.2⟩,
      ⟨hport.1, hname.1, (sameValue_self _).mp h.auth, hargs.1, hresponses, h.urls, h.caches⟩⟩
    intro other hother
    rw [← Option.some.inj (hrate.symm.trans hother)]
    exact h.rateLimits
  · rintro ⟨hredundant, hsteady⟩
    exact
      { listening := hlistening.mpr
          ⟨⟨hsteady.port, hredundant.port⟩, ⟨hsteady.host, hredundant.host⟩⟩
        tls := htlsSame.mpr hredundant.tls
        added := fun s hs => List.mem_map_of_mem hs
        removed := fun s hs => List.mem_map_of_mem hs
        urls := hsteady.urls
        auth := (sameValue_self _).mpr hsteady.auth
        acl := sameText_self _
        guardrails := sameText_self _
        governance := hgovernance.mpr hredundant.governance
        rateLimits := hredundant.rateLimits _ hrate
        observability := hobserve.mpr ⟨⟨hsteady.logArgs, hredundant.logArgs⟩, hsteady.logResponses⟩
        caches := hsteady.caches }

-- what a second reading of the file gives, without the environment
structure Rereads (host : Host) (validateConfig : Validation) (env : Environment) (file : FileRead)
    (N : ConfigObject) : Prop where
  merged : ∃ fields, (file = .parsed (.obj fields) ∨ file = .parsed .null ∧ fields = []) ∧
    mergeWithDefaults host (.obj fields) = some N
  valid : validateConfig N = some []
  redundant : Redundant env N
  steady : Steady N

theorem loaded_of_loadConfig {validateConfig : Validation} {file : FileRead}
    (h : loadConfig host validateConfig env file = some C) :
    ∃ value object N, file = .parsed value ∧ fileObject? value = some object ∧
      mergeWithDefaults host object = some N ∧ applyEnvOverrides env N = some C := by
  cases file with
  | unreadable error => cases h
  | malformed error => cases h
  | parsed value =>
      obtain ⟨object, hobject, h⟩ := Option.bind_eq_some_iff.mp h
      obtain ⟨N, hmerged, h⟩ := Option.bind_eq_some_iff.mp h
      obtain ⟨config, hconfig, h⟩ := Option.bind_eq_some_iff.mp h
      obtain ⟨errors, -, h⟩ := Option.bind_eq_some_iff.mp h
      obtain ⟨-, hsame⟩ := Option.ite_none_right_eq_some.mp h
      exact ⟨value, object, N, rfl, hobject, hmerged, hsame ▸ hconfig⟩

theorem fileObject?_cases {value object : Json} (h : fileObject? value = some object) :
    (∃ items, value = .arr items) ∨
      ∃ fields, object = .obj fields ∧ (value = .obj fields ∨ value = .null ∧ fields = []) := by
  cases value with
  | null => exact .inr ⟨[], (Option.some.inj h).symm, .inr ⟨rfl, rfl⟩⟩
  | obj fields => exact .inr ⟨fields, (Option.some.inj h).symm, .inl rfl⟩
  | arr items => exact .inl ⟨items, rfl⟩
  | _ => cases h

theorem applyReload_quiet_iff {S : ReloadState} (hS : S.report = {}) :
    (applyReload N S).report = {} ↔ NothingNew N S := by
  constructor
  · intro hquiet
    by_contra hnew
    exact (silent_applyReload N).marks S hnew hquiet
  · intro h
    rw [(silent_applyReload N).silent S h]
    exact hS

theorem reload_of_object {validateConfig : Validation} {value : Json} {fields : Fields}
    (hvalue : value = .obj fields ∨ value = .null ∧ fields = [])
    (hmerged : mergeWithDefaults host (.obj fields) = some N) (S : ReloadState) :
    reload host validateConfig S (.parsed value) = (validateConfig N).map fun errors =>
      if errors = [] then applyReload N S else S.fails (.invalid errors) := by
  have hobject : fileObject? value = some (.obj fields) := by
    rcases hvalue with rfl | ⟨rfl, rfl⟩ <;> rfl
  rw [reload, hobject]
  dsimp only
  rw [hmerged, Option.bind_eq_bind, Option.bind_some]
  cases hvalid : validateConfig N with
  | none => rfl
  | some errors => by_cases h : errors = [] <;> simp [h]

theorem reload_unchanged_iff {validateConfig : Validation} {file : FileRead}
    (hstart : loadConfig host validateConfig env file = some C) :
    (∃ S, reload host validateConfig ⟨C, registered, {}⟩ file = some S ∧ S.report = {} ∧
      S.config = C) ↔ ∃ N, Rereads host validateConfig env file N := by
  obtain ⟨value, object, N, rfl, hobject, hmerged, hC⟩ := loaded_of_loadConfig hstart
  have hquiet := applyReload_quiet_iff (N := N) (S := ⟨C, registered, {}⟩) rfl
  rw [nothingNew_iff hmerged hC] at hquiet
  rcases fileObject?_cases hobject with ⟨items, rfl⟩ | ⟨fields, rfl, hvalue⟩
  · constructor
    · rintro ⟨S, hreload, hreport, -⟩
      obtain rfl := Option.some.inj hreload
      exact absurd hreport (loud_fails _ _)
    · rintro ⟨N', ⟨_, hfile | hfile, -⟩, -⟩
      · cases hfile
      · cases hfile.1
  · rw [reload_of_object hvalue hmerged]
    constructor
    · rintro ⟨S, hreload, hreport, hconfig⟩
      obtain ⟨errors, hvalid, rfl⟩ := Option.map_eq_some_iff.mp hreload
      split at hreport
      next hnil =>
        obtain ⟨hredundant, hsteady⟩ := hquiet.mp hreport
        refine ⟨N, ⟨fields, ?_, hmerged⟩, hnil ▸ hvalid, hredundant, hsteady⟩
        exact hvalue.imp (congrArg _) fun h => ⟨congrArg _ h.1, h.2⟩
      next => exact absurd hreport (loud_fails _ _)
    · rintro ⟨N', ⟨fields', hfile, hmerged'⟩, hvalid, hredundant, hsteady⟩
      have hsame : fields' = fields := by
        rcases hvalue with rfl | ⟨rfl, rfl⟩ <;> rcases hfile with hfile | ⟨hfile, rfl⟩ <;> cases hfile
          <;> rfl
      subst hsame
      obtain rfl := Option.some.inj (hmerged.symm.trans hmerged')
      have hsilent := (silent_applyReload N).silent ⟨C, registered, {}⟩
        ((nothingNew_iff hmerged hC).mpr ⟨hredundant, hsteady⟩)
      refine ⟨⟨C, registered, {}⟩, ?_, rfl, rfl⟩
      rw [hvalid, Option.map_some, if_pos rfl, hsilent]

section Example

def acceptsAll : Validation := fun _ => some []

def started (env : Environment) : Option ConfigObject :=
  loadConfig plainHost acceptsAll env (.parsed .null)

theorem reload_unchanged_defaults : ∃ C, started {} = some C ∧
    ((∃ S, reload plainHost acceptsAll ⟨C, [], {}⟩ (.parsed .null) = some S ∧ S.report = {} ∧
      S.config = C) ↔ ∃ N, Rereads plainHost acceptsAll {} (.parsed .null) N) :=
  ⟨_, rfl, @reload_unchanged_iff plainHost _ _ _ _ _ rfl⟩

theorem reload_reports_port : ∃ C, started { port := some "9000" } = some C ∧
    ¬ ∃ S, reload plainHost acceptsAll ⟨C, [], {}⟩ (.parsed .null) = some S ∧ S.report = {} ∧
      S.config = C := by
  refine ⟨_, rfl, ?_⟩
  rintro ⟨S, hreload, hreport, -⟩
  obtain rfl := Option.some.inj hreload
  revert hreport
  decide +kernel

end Example

end Reread

end Conduit.Gateway
