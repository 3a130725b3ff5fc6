import Conduit.Connect.InstallationRuns

namespace Conduit.Connect

open Json JsonParser Paths Utils

section Reading

theorem asString?_written (v : Json) : v.written.asString? = v.asString? := by
  cases v with
  | num n => cases n <;> rfl
  | _ => rfl

theorem get?_written (v : Json) (key : String) : v.written.get? key = (v.get? key).map Json.written := by
  cases v with
  | obj fields => exact field_writtenFields fields key
  | num n => cases n <;> rfl
  | _ => rfl

theorem bind_get?_written {α : Type} {f : Json → Option α} (hf : ∀ v, f v.written = f v) (v : Json)
    (key : String) : (v.written.get? key).bind f = (v.get? key).bind f := by
  rw [get?_written]
  cases v.get? key with
  | none => rfl
  | some w => exact hf w

theorem bind_map_written {α : Type} {f : Json → Option α} (hf : ∀ v, f v.written = f v)
    (v : Option Json) : (v.map Json.written).bind f = v.bind f := by
  cases v with
  | none => rfl
  | some w => exact hf w

theorem ConnectServerBinding.ofJson_written (v : Json) : ofJson v.written = ofJson v := by
  simp only [ofJson, bind_get?_written asString?_written]

theorem SecretReference.ofJson_written (v : Json) : ofJson v.written = ofJson v := by
  simp only [ofJson, bind_get?_written asString?_written]

theorem LocalAuth.ofJson_written (v : Json) : ofJson v.written = ofJson v := by
  simp only [ofJson, bind_get?_written asString?_written,
    bind_get?_written SecretReference.ofJson_written]

theorem mapM_ofJson_written (items : List Json) :
    (writtenItems items).mapM ConnectServerBinding.ofJson = items.mapM ConnectServerBinding.ofJson := by
  induction items with
  | nil => rfl
  | cons v items ih =>
      simp only [writtenItems, List.mapM_cons, ConnectServerBinding.ofJson_written, ih]

theorem asItems?_written (v : Json) : v.written.asItems? = v.asItems?.map writtenItems := by
  cases v with
  | num n => cases n <;> rfl
  | _ => rfl

-- what is read does not depend on whether it has been written since
theorem LocalInstallation.ofLookup_written (field : String → Option Json) :
    ofLookup (fun name => (field name).map Json.written) = ofLookup field := by
  have hitems : ((field "servers").map Json.written).bind asItems? =
      ((field "servers").bind asItems?).map writtenItems := by
    cases field "servers" with
    | none => rfl
    | some v => exact asItems?_written v
  simp only [ofLookup, bind_map_written asString?_written, bind_map_written LocalAuth.ofJson_written,
    hitems]
  cases (field "servers").bind asItems? with
  | none => rfl
  | some items => simp [mapM_ofJson_written]

theorem LocalInstallation.ofFields_written (fields : List (String × Json)) :
    ofFields (writtenFields fields) = ofFields fields :=
  (congrArg ofLookup (funext (field_writtenFields fields))).trans (ofLookup_written (field fields))

-- what a repair writes anew
theorem LocalInstallation.ofLookup_moved {field moved : String → Option Json}
    {installation : LocalInstallation} (h : ofLookup field = some installation)
    (hsame : ∀ name, name ≠ "config_path" → name ≠ "project_dir" → name ≠ "target_label" →
      name ≠ "profile_label" → moved name = field name)
    {configPath : String} (hpath : moved "config_path" = some (.str configPath))
    {kept : Option String} (hdir : moved "project_dir" = (kept.map .str).or (field "project_dir")) :
    ofLookup moved = some
      { installation with
        configPath := configPath
        projectDir := kept.or installation.projectDir } := by
  obtain ⟨id, hid, h⟩ := Option.bind_eq_some_iff.mp h
  obtain ⟨createdAt, hcreated, h⟩ := Option.bind_eq_some_iff.mp h
  obtain ⟨targetId, htargetId, h⟩ := Option.bind_eq_some_iff.mp h
  obtain ⟨target, htarget, h⟩ := Option.bind_eq_some_iff.mp h
  obtain ⟨profile, hprofile, h⟩ := Option.bind_eq_some_iff.mp h
  obtain ⟨scope, hscope, h⟩ := Option.bind_eq_some_iff.mp h
  obtain ⟨scopeEffective, heffective, h⟩ := Option.bind_eq_some_iff.mp h
  obtain ⟨baseUrl, hbase, h⟩ := Option.bind_eq_some_iff.mp h
  obtain ⟨items, hitems, h⟩ := Option.bind_eq_some_iff.mp h
  obtain ⟨servers, hservers, h⟩ := Option.bind_eq_some_iff.mp h
  obtain ⟨oldPath, -, h⟩ := Option.bind_eq_some_iff.mp h
  obtain ⟨auth, hauth, h⟩ := Option.bind_eq_some_iff.mp h
  cases h
  have hmoved : ((some (Json.str configPath)).bind asString?) = some configPath := rfl
  have hkept : (moved "project_dir").bind asString? =
      kept.or ((field "project_dir").bind asString?) := by
    rw [hdir]
    cases kept <;> rfl
  have hread : ∀ name ∈ ["id", "created_at", "target", "profile", "scope", "scope_effective",
      "base_url", "servers", "auth"], moved name = field name := by
    intro name hname
    apply hsame <;> rintro rfl <;> simp at hname
  simp only [List.forall_mem_cons, List.not_mem_nil, false_implies, implies_true, and_true] at hread
  obtain ⟨h1, h2, h3, h4, h5, h6, h7, h8, h9⟩ := hread
  simp only [ofLookup, h1, h2, h3, h4, h5, h6, h7, h8, h9, hpath, hid, hcreated, htargetId, htarget,
    hprofile, hscope, heffective, hbase, hitems, hservers, hauth, hmoved, hkept,
    Option.bind_eq_bind, Option.bind_some, Option.pure_def]

end Reading

section Writing

theorem mapM_ofJson_toJson (servers : List ConnectServerBinding) :
    servers.mapM (ConnectServerBinding.ofJson ∘ ConnectServerBinding.toJson) = some servers := by
  induction servers with
  | nil => rfl
  | cons server servers ih =>
      have hserver : ConnectServerBinding.ofJson server.toJson = some server := rfl
      simp [hserver, ih]

theorem LocalAuth.ofJson_toJson (auth : LocalAuth) : ofJson auth.toJson = some auth := by
  cases auth with
  | none => rfl
  | bearer description headerName tokenPrefix secretRef =>
      obtain ⟨keychain, service, account⟩ := secretRef
      cases keychain with
      | false => rfl
      | true => rfl

theorem ConnectTarget.find?_id (target : ConnectTarget) :
    ConnectTarget.all.find? (fun other => other.id = target.id) = some target := by
  cases target <;> rfl

theorem LocalInstallation.ofFields_toFields (installation : LocalInstallation)
    (labels : List (String × Json)) (hlabels : field labels "project_dir" = none) :
    ofFields (installation.toFields ++ labels) = some installation := by
  obtain ⟨id, createdAt, target, profile, scope, scopeEffective, baseUrl, servers, configPath,
    projectDir, auth⟩ := installation
  cases projectDir with
  | none => simp [ofFields, ofLookup, toFields, field, asString?, asItems?, ConnectTarget.find?_id,
      mapM_ofJson_toJson, LocalAuth.ofJson_toJson, hlabels]
  | some dir => simp [ofFields, ofLookup, toFields, field, asString?, asItems?, ConnectTarget.find?_id,
      mapM_ofJson_toJson, LocalAuth.ofJson_toJson]

variable {round : ℚ → JsNumber}

theorem settled_secretRef (ref : SecretReference) : Settled round ref.toJson := by
  apply settled_named
  · change NamedKeys ["backend", "service", "account"]
    decide
  · simp [settled_str]

theorem settled_auth (auth : LocalAuth) : Settled round auth.toJson := by
  cases auth with
  | none =>
      apply settled_named
      · change NamedKeys ["type"]
        decide
      · simp [settled_str]
  | bearer description headerName tokenPrefix secretRef =>
      apply settled_named
      · change NamedKeys ["type", "description", "header_name", "prefix", "secret_ref"]
        decide
      · simp [settled_str, settled_secretRef]

theorem settled_servers (servers : List ConnectServerBinding) :
    Settled round (.arr (servers.map ConnectServerBinding.toJson)) := by
  apply settledItems_iff.2
  intro v hv
  obtain ⟨server, -, rfl⟩ := List.mem_map.mp hv
  apply settled_named
  · change NamedKeys ["id", "alias", "url"]
    decide
  · simp [settled_str]

theorem LocalInstallation.settled_toFields (installation : LocalInstallation)
    (targetLabel profileLabel : String) :
    Settled round (.obj (installation.toFields ++
      [("target_label", .str targetLabel), ("profile_label", .str profileLabel)])) := by
  obtain ⟨id, createdAt, target, profile, scope, scopeEffective, baseUrl, servers, configPath,
    projectDir, auth⟩ := installation
  cases projectDir with
  | none =>
      apply settled_named
      · change NamedKeys ["id", "created_at", "target", "profile", "scope", "scope_effective",
          "base_url", "transport", "servers", "config_path", "auth", "target_label", "profile_label"]
        decide
      · simp [toFields, settled_str, settled_servers, settled_auth]
  | some dir =>
      apply settled_named
      · change NamedKeys ["id", "created_at", "target", "profile", "scope", "scope_effective",
          "base_url", "transport", "servers", "config_path", "auth", "project_dir", "target_label",
          "profile_label"]
        decide
      · simp [toFields, settled_str, settled_servers, settled_auth]

end Writing

-- the installation before its place is known
def LocalInstallation.created (installation : LocalInstallation) : LocalInstallation :=
  { installation with configPath := "", projectDir := none }

def InstallCommand.Installs : InstallCommand → InstallId → Prop
  | .install _ id _ _, other => id = other
  | .sync _ _, _ => False

namespace ConnectHost

variable {host : ConnectHost}

section Frames

theorem perform_frame {es : List FileEdit} {files : Files} {path : Path}
    (h : ∀ e ∈ es, e.path ≠ path) : (host.perform es files).1 path = files path := by
  induction es generalizing files with
  | nil => rfl
  | cons e es ih =>
      rw [perform]
      cases host.next e (files e.path) with
      | error message => rfl
      | ok content =>
          dsimp only
          rw [ih fun f hf => h f (List.mem_cons_of_mem e hf), write,
            if_neg (Ne.symm (h e List.mem_cons_self))]

theorem last_le {path : Path} (h : path ∈ projectParts ++ userParts) :
    ∃ last, path.getLast? = some last ∧ last.length ≤ 26 := by
  simp only [projectParts, userParts, List.cons_append, List.nil_append, List.mem_cons,
    List.not_mem_nil, or_false] at h
  rcases h with rfl | rfl | rfl | rfl | rfl | rfl | rfl | rfl | rfl | rfl | rfl | rfl | rfl | rfl |
    rfl
  all_goals exact ⟨_, rfl, by decide⟩

-- no client's file is one that an installation is kept in
theorem Located.ne_own {projectDir : Option String} {path : Path}
    (h : host.Located projectDir path)
    (hchosen : ∀ chosen, host.claudeDesktopConfig = some chosen → ¬ host.IsOwn chosen)
    {dir name : String} (hdir : dir ∈ ["installations", "secrets"]) (hname : 26 < name.length) :
    path ≠ host.baseDir ++ [dir, name] := by
  have hparts : ∀ (base parts : Path), parts ∈ projectParts ++ userParts →
      base ++ parts ≠ host.baseDir ++ [dir, name] := by
    intro base parts hmem heq
    obtain ⟨last, hlast, hlength⟩ := last_le hmem
    have hends := congrArg List.getLast? heq
    simp only [List.getLast?_append, hlast, Option.some_or, List.getLast?_cons_cons,
      List.getLast?_singleton, Option.some.injEq] at hends
    subst hends
    omega
  cases h with
  | project hsafe hmem => exact hparts _ _ (List.mem_append_left _ hmem)
  | user hmem => exact hparts _ _ (List.mem_append_right _ hmem)
  | generic => simp
  | chosen hpath =>
      rintro rfl
      exact hchosen _ hpath ⟨dir, hdir, name, rfl⟩

end Frames

section Outcomes

theorem installConnectBundle_spec {machine : Machine} {bundle : ConnectInstallBundle}
    {installId createdAt : String} {stored : Machine} {installation : LocalInstallation}
    (hcreated : host.createLocalInstallation machine bundle installId createdAt =
      (stored, installation)) (projectDir : Option String) :
    ∃ es : List FileEdit, (∀ e ∈ es, host.Located projectDir e.path) ∧
      ((∃ message, host.installConnectBundle machine bundle installId createdAt projectDir =
          ({ stored with files := (host.perform es stored.files).1 }, .error message)) ∨
        ∃ configPath kept, host.installConnectBundle machine bundle installId createdAt projectDir =
          (host.writeInstallationManifest { stored with files := (host.perform es stored.files).1 }
            installId
            (({ installation with configPath := configPath, projectDir := kept } :
                LocalInstallation).toFields ++
              [("target_label", .str bundle.targetLabel), ("profile_label", .str bundle.profileLabel)]),
            .ok { installation with configPath := configPath, projectDir := kept })) := by
  unfold installConnectBundle
  rw [hcreated]
  dsimp only
  cases hplan : host.installTargetConfig installId bundle.servers stored.files bundle.target
      bundle.scopeEffective projectDir with
  | error message => exact ⟨[], by simp, .inl ⟨message, rfl⟩⟩
  | ok plan =>
      obtain ⟨configPath, es⟩ := plan
      refine ⟨es, fun e he => (placed_installTargetConfig hplan e he).located, ?_⟩
      dsimp only
      cases (host.perform es stored.files).2 with
      | error message => exact .inl ⟨message, rfl⟩
      | ok done =>
          cases host.keptProjectDir
              (if bundle.scopeEffective = "project" then projectDir.filter (· ≠ "") else none) with
          | error message => exact .inl ⟨message, rfl⟩
          | ok kept => exact .inr ⟨text configPath, kept, rfl⟩

variable (host) in
theorem syncInstallation_spec (machine : Machine) (installId : String)
    (fields : List (String × Json)) (installation : LocalInstallation) (projectDir : Option String) :
    ∃ es : List FileEdit, (∀ e ∈ es, ∃ dir, host.Located dir e.path) ∧
      ((∃ message, host.syncInstallation machine installId fields installation projectDir =
          ({ machine with files := (host.perform es machine.files).1 }, .error message)) ∨
        ∃ configPath kept, host.syncInstallation machine installId fields installation projectDir =
          (host.writeInstallationManifest
            { machine with files := (host.perform es machine.files).1 } installation.id
            (syncedFields fields installation configPath kept),
            .ok { installation with
              configPath := configPath, projectDir := kept.or installation.projectDir })) := by
  unfold syncInstallation
  dsimp only
  split
  next => exact ⟨[], by simp, .inl ⟨_, rfl⟩⟩
  next =>
    cases host.readInstallationSecret machine installation.auth with
    | error message => exact ⟨[], by simp, .inl ⟨message, rfl⟩⟩
    | ok secret =>
        cases hplan : host.installTargetConfig installation.id installation.servers machine.files
            installation.target installation.scopeEffective
            ((projectDir.or installation.projectDir).filter (· ≠ "")) with
        | error message => exact ⟨[], by simp, .inl ⟨message, rfl⟩⟩
        | ok plan =>
            obtain ⟨configPath, es⟩ := plan
            refine ⟨es, fun e he => ⟨_, (placed_installTargetConfig hplan e he).located⟩, ?_⟩
            dsimp only
            cases (host.perform es machine.files).2 with
            | error message => exact .inl ⟨message, rfl⟩
            | ok done =>
                cases host.keptProjectDir ((projectDir.or installation.projectDir).filter (· ≠ "")) with
                | error message => exact .inl ⟨message, rfl⟩
                | ok kept =>
                    cases host.readInstallationSecret
                        { machine with files := (host.perform es machine.files).1 }
                        installation.auth with
                    | error message => exact .inl ⟨message, rfl⟩
                    | ok again => exact .inr ⟨text configPath, kept, rfl⟩

end Outcomes

section Keeping

variable (host) in
-- a claude_desktop_config.json that is chosen is not one of the files of installations
def Apart : Prop := ∀ chosen, host.claudeDesktopConfig = some chosen → ¬ host.IsOwn chosen

variable (host) in
def installed (files : Files) (id : InstallId) : Option LocalInstallation :=
  (host.loadLocalInstallation files id.text).toOption.bind LocalInstallation.ofFields

variable (host) in
-- each installation that is kept can be read under its own name
def Readable (files : Files) : Prop :=
  ∀ (id : InstallId) fields, host.loadLocalInstallation files id.text = .ok fields →
    ∃ installation, LocalInstallation.ofFields fields = some installation ∧
      installation.id = id.text

theorem length_manifest (id : InstallId) : 26 < (id.text ++ ".json").length := by
  rw [String.length_append, id.length]
  decide

theorem length_secret (id : InstallId) : 26 < ("file" ++ "-" ++ id.text ++ ".secret").length := by
  rw [String.length_append, String.length_append, id.length]
  omega

theorem perform_manifest (hapart : host.Apart) {es : List FileEdit}
    (hes : ∀ e ∈ es, ∃ dir, host.Located dir e.path) (files : Files) (id : InstallId) :
    (host.perform es files).1 (host.getInstallationManifestPath id.text) =
      files (host.getInstallationManifestPath id.text) := by
  apply perform_frame
  intro e he
  obtain ⟨dir, hlocated⟩ := hes e he
  exact hlocated.ne_own hapart (by simp) (length_manifest id)

theorem perform_secret (hapart : host.Apart) {es : List FileEdit}
    (hes : ∀ e ∈ es, ∃ dir, host.Located dir e.path) (files : Files) (id : InstallId) :
    (host.perform es files).1 (host.getSecretFilePath "file" id.text) =
      files (host.getSecretFilePath "file" id.text) := by
  apply perform_frame
  intro e he
  obtain ⟨dir, hlocated⟩ := hes e he
  exact hlocated.ne_own hapart (by simp) (length_secret id)

theorem load_congr {files files' : Files} {id : InstallId}
    (h : files' (host.getInstallationManifestPath id.text) =
      files (host.getInstallationManifestPath id.text)) :
    host.loadLocalInstallation files' id.text = host.loadLocalInstallation files id.text := by
  simp [loadLocalInstallation, h]

theorem load_written {files : Files} {id : InstallId} {fields : List (String × Json)}
    (hsettled : Settled host.round (.obj fields))
    (h : files (host.getInstallationManifestPath id.text) = some (writeJsonFile fields)) :
    host.loadLocalInstallation files id.text = .ok (writtenFields fields) := by
  simp [loadLocalInstallation, h, parse_writeJsonFile hsettled]

theorem settled_load {files : Files} {id : InstallId} {fields : List (String × Json)}
    (h : host.loadLocalInstallation files id.text = .ok fields) :
    Settled host.round (.obj fields) := by
  unfold loadLocalInstallation at h
  dsimp only at h
  split at h
  next => cases h
  next =>
    split at h
    next => cases h
    next hparse =>
      cases h
      exact settled_parse host.round_round hparse
    next =>
      cases h
      exact ⟨List.nodup_nil, rfl, trivial⟩
    next => cases h

theorem text_ne {id other : InstallId} (h : id ≠ other) : id.text ≠ other.text := by
  intro htext
  apply h
  cases id
  cases other
  cases htext
  rfl

theorem manifest_ne {id other : InstallId} (h : id ≠ other) :
    host.getInstallationManifestPath id.text ≠ host.getInstallationManifestPath other.text := by
  intro heq
  exact text_ne h (by simpa [getInstallationManifestPath] using heq)

theorem secret_ne {id other : InstallId} (h : id ≠ other) :
    host.getSecretFilePath "file" id.text ≠ host.getSecretFilePath "file" other.text := by
  intro heq
  exact text_ne h (by simpa [getSecretFilePath] using heq)

theorem manifest_ne_secret (id other : InstallId) :
    host.getInstallationManifestPath id.text ≠ host.getSecretFilePath "file" other.text := by
  simp [getInstallationManifestPath, getSecretFilePath]

theorem readable_write {files : Files} (h : host.Readable files) {id : InstallId}
    {fields : List (String × Json)} (hsettled : Settled host.round (.obj fields))
    {installation : LocalInstallation}
    (hfields : LocalInstallation.ofFields fields = some installation)
    (hid : installation.id = id.text) :
    host.Readable
      (write files (host.getInstallationManifestPath id.text) (writeJsonFile fields)) := by
  intro other found hload
  by_cases hsame : id = other
  · subst hsame
    rw [load_written hsettled (if_pos rfl)] at hload
    cases hload
    exact ⟨installation, (LocalInstallation.ofFields_written fields).trans hfields, hid⟩
  · apply h other found
    rwa [load_congr (if_neg (manifest_ne (Ne.symm hsame)))] at hload

theorem settled_synced {fields : List (String × Json)} (h : Settled host.round (.obj fields))
    (installation : LocalInstallation) (configPath : String) (kept : Option String) :
    Settled host.round (.obj (syncedFields fields installation configPath kept)) := by
  have hmoved := settled_setProperty h "config_path" (settled_str configPath)
  cases kept with
  | none =>
      exact settled_setProperty (settled_setProperty hmoved "target_label" (settled_str _))
        "profile_label" (settled_str _)
  | some dir =>
      exact settled_setProperty (settled_setProperty
        (settled_setProperty hmoved "project_dir" (settled_str dir)) "target_label" (settled_str _))
        "profile_label" (settled_str _)

theorem field_synced {fields : List (String × Json)} (h : UniqueKeys fields)
    (installation : LocalInstallation) (configPath : String) (kept : Option String)
    (name : String) :
    field (syncedFields fields installation configPath kept) name =
      if "profile_label" = name then some (.str installation.profile)
      else if "target_label" = name then some (.str installation.target.id)
      else if "project_dir" = name then (kept.map .str).or (field fields name)
      else if "config_path" = name then some (.str configPath)
      else field fields name := by
  have hmoved := uniqueKeys_setProperty h "config_path" (.str configPath)
  cases kept with
  | none =>
      rw [syncedFields, field_setProperty (uniqueKeys_setProperty hmoved _ _),
        field_setProperty hmoved, field_setProperty h]
      by_cases hdir : "project_dir" = name
      · subst hdir
        simp
      · simp [hdir]
  | some dir =>
      have hkept := uniqueKeys_setProperty hmoved "project_dir" (.str dir)
      rw [syncedFields, field_setProperty (uniqueKeys_setProperty hkept _ _),
        field_setProperty hkept, field_setProperty hmoved, field_setProperty h]
      rfl

theorem ofFields_synced {fields : List (String × Json)} (h : UniqueKeys fields)
    {installation : LocalInstallation}
    (hfields : LocalInstallation.ofFields fields = some installation) (configPath : String)
    (kept : Option String) :
    LocalInstallation.ofFields (syncedFields fields installation configPath kept) =
      some { installation with
        configPath := configPath, projectDir := kept.or installation.projectDir } := by
  apply LocalInstallation.ofLookup_moved hfields
  · intro name hpath hdir htarget hprofile
    simp [field_synced h, Ne.symm hpath, Ne.symm hdir, Ne.symm htarget, Ne.symm hprofile]
  · simp [field_synced h]
  · simp [field_synced h]

end Keeping

section Effects

variable (host) in
-- what a command does before it writes a manifest
structure Spares (command : InstallCommand) (machine machine' : Machine) : Prop where
  manifests : ∀ id : InstallId, machine'.files (host.getInstallationManifestPath id.text) =
    machine.files (host.getInstallationManifestPath id.text)
  secrets : ∀ id : InstallId, ¬ command.Installs id →
    machine'.files (host.getSecretFilePath "file" id.text) =
      machine.files (host.getSecretFilePath "file" id.text)
  keychain : ∀ id : InstallId, ¬ command.Installs id →
    machine'.keychain id.text = machine.keychain id.text

variable (host) in
inductive Leaves (command : InstallCommand) (machine : Machine) : Machine → Prop
  | spared {machine' : Machine} (hspared : host.Spares command machine machine') :
      Leaves command machine machine'
  | manifest {machine' : Machine} (hspared : host.Spares command machine machine') {id : InstallId}
      {fields : List (String × Json)} (hsettled : Settled host.round (.obj fields))
      {installation : LocalInstallation}
      (hfields : LocalInstallation.ofFields fields = some installation)
      (hid : installation.id = id.text)
      (horigin : command.Installs id ∨ ∃ held, host.installed machine.files id = some held ∧
        held.created = installation.created) :
      Leaves command machine (host.writeInstallationManifest machine' id.text fields)

theorem Spares.perform (hapart : host.Apart) {command : InstallCommand} {machine machine' : Machine}
    (h : host.Spares command machine machine') {es : List FileEdit}
    (hes : ∀ e ∈ es, ∃ dir, host.Located dir e.path) :
    host.Spares command machine { machine' with files := (host.perform es machine'.files).1 } where
  manifests id := (perform_manifest hapart hes _ id).trans (h.manifests id)
  secrets id hid := (perform_secret hapart hes _ id).trans (h.secrets id hid)
  keychain := h.keychain

variable (host) in
theorem spares_create (machine : Machine) (bundle : ConnectInstallBundle) (id : InstallId)
    (createdAt : String) (projectDir : Option String) :
    host.Spares (.install bundle id createdAt projectDir) machine
      (host.createLocalInstallation machine bundle id.text createdAt).1 := by
  unfold createLocalInstallation
  cases bundle.auth with
  | none => exact ⟨fun _ => rfl, fun _ _ => rfl, fun _ _ => rfl⟩
  | bearer secret description headerName tokenPrefix =>
      dsimp only [storeSecret]
      split
      · exact ⟨fun _ => rfl, fun _ _ => rfl, fun other hother => if_neg (text_ne (Ne.symm hother))⟩
      · exact ⟨fun other => if_neg (manifest_ne_secret other id), fun other hother =>
          if_neg (secret_ne (Ne.symm hother)), fun _ _ => rfl⟩

variable (host) in
theorem id_create (machine : Machine) (bundle : ConnectInstallBundle)
    (installId createdAt : String) :
    (host.createLocalInstallation machine bundle installId createdAt).2.id = installId := by
  unfold createLocalInstallation
  cases bundle.auth <;> rfl

theorem leaves_run (hapart : host.Apart) {machine : Machine} (h : host.Readable machine.files)
    (command : InstallCommand) : host.Leaves command machine (host.run machine command) := by
  cases command with
  | install bundle id createdAt projectDir =>
      have hspared := spares_create host machine bundle id createdAt projectDir
      have hcreatedId := id_create host machine bundle id.text createdAt
      cases hcreated : host.createLocalInstallation machine bundle id.text createdAt with
      | mk stored installation =>
          rw [hcreated] at hspared hcreatedId
          obtain ⟨es, hes, hout⟩ := installConnectBundle_spec hcreated projectDir
          have hperformed := hspared.perform hapart fun e he => ⟨projectDir, hes e he⟩
          change host.Leaves _ machine
            (host.installConnectBundle machine bundle id.text createdAt projectDir).1
          rcases hout with ⟨message, hout⟩ | ⟨configPath, kept, hout⟩
          · rw [hout]
            exact .spared hperformed
          · rw [hout]
            exact .manifest hperformed (LocalInstallation.settled_toFields _ _ _)
              (LocalInstallation.ofFields_toFields _ _ rfl) hcreatedId (.inl rfl)
  | sync id projectDir =>
      have hsame : host.Spares (.sync id projectDir) machine machine :=
        ⟨fun _ => rfl, fun _ _ => rfl, fun _ _ => rfl⟩
      change host.Leaves _ machine (host.syncLocalInstallation machine id.text projectDir).1
      unfold syncLocalInstallation
      cases hload : host.loadLocalInstallation machine.files id.text with
      | error message => exact .spared hsame
      | ok fields =>
          obtain ⟨held, hfields, hid⟩ := h id fields hload
          have hsettled := settled_load hload
          have hheld : host.installed machine.files id = some held := by
            rw [installed, hload]
            exact hfields
          obtain ⟨es, hes, hout⟩ := syncInstallation_spec host machine id.text fields held projectDir
          have hperformed := hsame.perform hapart hes
          dsimp only
          rw [hfields]
          dsimp only
          rcases hout with ⟨message, hout⟩ | ⟨configPath, kept, hout⟩
          · rw [hout]
            exact .spared hperformed
          · rw [hout]
            dsimp only
            rw [hid]
            exact .manifest hperformed (settled_synced hsettled held configPath kept)
              (ofFields_synced hsettled.1 hfields configPath kept) hid (.inr ⟨held, hheld, rfl⟩)

theorem Spares.readable {command : InstallCommand} {machine machine' : Machine}
    (h : host.Spares command machine machine') (hreadable : host.Readable machine.files) :
    host.Readable machine'.files := by
  intro id fields hload
  rw [load_congr (h.manifests id)] at hload
  exact hreadable id fields hload

theorem Leaves.readable {command : InstallCommand} {machine machine' : Machine}
    (h : host.Leaves command machine machine') (hreadable : host.Readable machine.files) :
    host.Readable machine'.files := by
  cases h with
  | spared hspared => exact hspared.readable hreadable
  | manifest hspared hsettled hfields hid horigin =>
      exact readable_write (hspared.readable hreadable) hsettled hfields hid

-- whatever is installed and repaired, each installation that is kept can be read again
theorem readable_runAll (hapart : host.Apart) {machine : Machine} (h : host.Readable machine.files)
    (commands : List InstallCommand) : host.Readable (host.runAll machine commands).files := by
  induction commands generalizing machine with
  | nil => exact h
  | cons command commands ih => exact ih ((leaves_run hapart h command).readable h)

theorem readable_runAll_cursor :
    linux.Readable (linux.runAll newMachine
      [.install cursorBundle someId "" none, .sync someId none]).files := by
  apply readable_runAll
  · intro chosen hchosen
    cases hchosen
  · intro id fields hload
    cases hload

end Effects

section Permanence

-- the reference that storeSecret has given for the installation
def RefersTo (installId : String) : LocalAuth → Prop
  | .none => True
  | .bearer _ _ _ ref =>
      ref = ⟨true, "io.mcp-conduit.connect", installId⟩ ∨ ref = ⟨false, "file", installId⟩

variable (host) in
-- the installation can be read, and so can the secret that it refers to
structure Holds (machine : Machine) (id : InstallId) (installation : LocalInstallation)
    (secret : Option String) : Prop where
  kept : ∃ held, host.installed machine.files id = some held ∧
    held.created = installation.created
  refers : RefersTo id.text installation.auth
  secret : host.readInstallationSecret machine installation.auth = .ok secret

theorem readInstallationSecret_congr {machine machine' : Machine} {id : InstallId}
    {auth : LocalAuth} (hauth : RefersTo id.text auth)
    (hfiles : machine'.files (host.getSecretFilePath "file" id.text) =
      machine.files (host.getSecretFilePath "file" id.text))
    (hkeychain : machine'.keychain id.text = machine.keychain id.text) :
    host.readInstallationSecret machine' auth = host.readInstallationSecret machine auth := by
  cases auth with
  | none => rfl
  | bearer description headerName tokenPrefix ref =>
      rcases hauth with rfl | rfl
      · simp [readInstallationSecret, hkeychain]
      · simp [readInstallationSecret, hfiles]

theorem Spares.installed {command : InstallCommand} {machine machine' : Machine}
    (h : host.Spares command machine machine') (id : InstallId) :
    host.installed machine'.files id = host.installed machine.files id := by
  rw [ConnectHost.installed, load_congr (h.manifests id), ConnectHost.installed]

theorem installed_write {machine : Machine} {id : InstallId} {fields : List (String × Json)}
    (hsettled : Settled host.round (.obj fields)) (other : InstallId) :
    host.installed (host.writeInstallationManifest machine id.text fields).files other =
      if id = other then LocalInstallation.ofFields fields else host.installed machine.files other := by
  split
  next hsame =>
    subst hsame
    rw [installed, load_written hsettled (if_pos rfl)]
    exact LocalInstallation.ofFields_written fields
  next hne => rw [installed, load_congr (if_neg (manifest_ne (Ne.symm hne))), installed]

theorem Leaves.holds {command : InstallCommand} {machine machine' : Machine}
    (h : host.Leaves command machine machine') {id : InstallId} (hother : ¬ command.Installs id)
    {installation : LocalInstallation} {secret : Option String}
    (hholds : host.Holds machine id installation secret) :
    host.Holds machine' id installation secret := by
  obtain ⟨⟨held, hheld, hcreated⟩, hrefers, hsecret⟩ := hholds
  cases h with
  | spared hspared =>
      refine ⟨⟨held, (hspared.installed id).trans hheld, hcreated⟩, hrefers, ?_⟩
      rw [readInstallationSecret_congr hrefers (hspared.secrets id hother)
        (hspared.keychain id hother), hsecret]
  | @manifest stored hspared target fields hsettled written hfields hid horigin =>
      refine ⟨?_, hrefers, ?_⟩
      · rw [installed_write hsettled]
        split
        next hsame =>
          subst hsame
          obtain ⟨held', hheld', hcreated'⟩ := horigin.resolve_left hother
          rw [hheld, Option.some.injEq] at hheld'
          exact ⟨written, hfields, by rw [← hcreated', ← hheld', hcreated]⟩
        next => exact ⟨held, (hspared.installed id).trans hheld, hcreated⟩
      · have hsame : (host.writeInstallationManifest stored target.text fields).files
            (host.getSecretFilePath "file" id.text) =
              stored.files (host.getSecretFilePath "file" id.text) :=
          if_neg (Ne.symm (manifest_ne_secret target id))
        rw [readInstallationSecret_congr hrefers (hsame.trans (hspared.secrets id hother))
          (hspared.keychain id hother), hsecret]

theorem holds_runAll (hapart : host.Apart) {machine : Machine} (h : host.Readable machine.files)
    {id : InstallId} {installation : LocalInstallation} {secret : Option String}
    (hholds : host.Holds machine id installation secret) {commands : List InstallCommand}
    (hothers : ∀ command ∈ commands, ¬ command.Installs id) :
    host.Holds (host.runAll machine commands) id installation secret := by
  induction commands generalizing machine with
  | nil => exact hholds
  | cons command commands ih =>
      have hleaves := leaves_run hapart h command
      exact ih (hleaves.readable h) (hleaves.holds (hothers command List.mem_cons_self) hholds)
        fun other hother => hothers other (List.mem_cons_of_mem command hother)

-- the token of a bundle, as it is read back
def bundleToken : ConnectInstallBundleAuth → Option String
  | .none => none
  | .bearer secret _ _ _ => some (Text.trim secret)

variable (host) in
theorem holds_create (machine : Machine) (bundle : ConnectInstallBundle)
    (installId createdAt : String) :
    RefersTo installId (host.createLocalInstallation machine bundle installId createdAt).2.auth ∧
      host.readInstallationSecret
        (host.createLocalInstallation machine bundle installId createdAt).1
        (host.createLocalInstallation machine bundle installId createdAt).2.auth =
          .ok (bundleToken bundle.auth) := by
  unfold createLocalInstallation
  cases bundle.auth with
  | none => exact ⟨trivial, rfl⟩
  | bearer secret description headerName tokenPrefix =>
      dsimp only [storeSecret]
      split
      · exact ⟨.inl rfl, by simp [readInstallationSecret, bundleToken]⟩
      · exact ⟨.inr rfl, by simp [readInstallationSecret, bundleToken, write]⟩

theorem holds_install (hapart : host.Apart) {machine : Machine} {bundle : ConnectInstallBundle}
    {id : InstallId} {createdAt : String} {projectDir : Option String}
    {installation : LocalInstallation}
    (h : (host.installConnectBundle machine bundle id.text createdAt projectDir).2 =
      .ok installation) :
    host.Holds (host.run machine (.install bundle id createdAt projectDir)) id installation
      (bundleToken bundle.auth) := by
  have hcreate := holds_create host machine bundle id.text createdAt
  cases hcreated : host.createLocalInstallation machine bundle id.text createdAt with
  | mk stored created =>
      rw [hcreated] at hcreate
      obtain ⟨es, hes, hout⟩ := installConnectBundle_spec hcreated projectDir
      have hlocated : ∀ e ∈ es, ∃ dir, host.Located dir e.path := fun e he => ⟨projectDir, hes e he⟩
      change host.Holds (host.installConnectBundle machine bundle id.text createdAt projectDir).1 id
        installation _
      rcases hout with ⟨message, hout⟩ | ⟨configPath, kept, hout⟩
      · rw [hout] at h
        cases h
      · rw [hout] at h ⊢
        cases h
        refine ⟨⟨_, ?_, rfl⟩, hcreate.1, ?_⟩
        · rw [installed_write (LocalInstallation.settled_toFields _ _ _), if_pos rfl]
          exact LocalInstallation.ofFields_toFields _ _ rfl
        · have hperformed := perform_secret hapart hlocated stored.files id
          rw [← hcreate.2]
          apply readInstallationSecret_congr hcreate.1
          · exact (if_neg (Ne.symm (manifest_ne_secret id id))).trans hperformed
          · rfl

-- what has been installed stays, with its secret, until it is installed anew
theorem installed_until_again (hapart : host.Apart) {machine : Machine}
    (hreadable : host.Readable machine.files) {bundle : ConnectInstallBundle} {id : InstallId}
    {createdAt : String} {projectDir : Option String} {installation : LocalInstallation}
    (hinstall : (host.installConnectBundle machine bundle id.text createdAt projectDir).2 =
      .ok installation) {commands : List InstallCommand}
    (hothers : ∀ command ∈ commands, ¬ command.Installs id) :
    host.Holds (host.runAll machine (.install bundle id createdAt projectDir :: commands)) id
      installation (bundleToken bundle.auth) :=
  holds_runAll hapart ((leaves_run hapart hreadable _).readable hreadable)
    (holds_install hapart hinstall) hothers

end Permanence

end ConnectHost

end Conduit.Connect
