import Conduit.Connect.Installations

namespace Conduit.Connect

open Paths Utils

-- what randomUUID returns
structure InstallId where
  text : String
  length : text.length = 36
  slash : '/' ∉ text.toList
deriving DecidableEq

inductive InstallCommand where
  | install (bundle : ConnectInstallBundle) (id : InstallId) (createdAt : String)
      (projectDir : Option String)
  | sync (id : InstallId) (projectDir : Option String)

namespace ConnectHost

variable (host : ConnectHost)

section Histories

-- the edits before the first one that is refused
def succeeded : List FileEdit → Files → List FileEdit
  | [], _ => []
  | edit :: edits, files =>
      match host.next edit (files edit.path) with
      | .error _ => []
      | .ok text => edit :: succeeded edits (write files edit.path text)

def planned (plan : Except String (Path × List FileEdit)) (files : Files) : List FileEdit :=
  match plan with
  | .error _ => []
  | .ok (_, edits) => host.succeeded edits files

-- the edits of clients' files that a command has made
def edits (machine : Machine) : InstallCommand → List FileEdit
  | .install bundle id createdAt projectDir =>
      let files := (host.createLocalInstallation machine bundle id.text createdAt).1.files
      host.planned (host.installTargetConfig id.text bundle.servers files bundle.target
        bundle.scopeEffective projectDir) files
  | .sync id projectDir =>
      match host.loadLocalInstallation machine.files id.text with
      | .error _ => []
      | .ok fields =>
          match LocalInstallation.ofFields fields with
          | none => []
          | some installation =>
              let projectDir := (projectDir.or installation.projectDir).filter (· ≠ "")
              if installation.scopeEffective = "project" ∧ projectDir = none then []
              else
                match host.readInstallationSecret machine installation.auth with
                | .error _ => []
                | .ok _ =>
                    host.planned (host.installTargetConfig installation.id installation.servers
                      machine.files installation.target installation.scopeEffective projectDir)
                      machine.files

def run (machine : Machine) : InstallCommand → Machine
  | .install bundle id createdAt projectDir =>
      (host.installConnectBundle machine bundle id.text createdAt projectDir).1
  | .sync id projectDir => (host.syncLocalInstallation machine id.text projectDir).1

def runAll (machine : Machine) (commands : List InstallCommand) : Machine :=
  commands.foldl host.run machine

def history (machine : Machine) : List InstallCommand → List FileEdit
  | [] => []
  | command :: commands =>
      host.edits machine command ++ history (host.run machine command) commands

end Histories

section Writes

-- the files that the installations themselves are kept in
def IsOwn (path : Path) : Prop :=
  ∃ dir ∈ ["installations", "secrets"], ∃ name, path = host.baseDir ++ [dir, name]

-- clients' files are changed by edits in their order, other ones at will
inductive Writes : Files → List FileEdit → Files → Prop
  | nil (files : Files) : Writes files [] files
  | own {files files' : Files} {edits : List FileEdit} {path : Path} (hown : host.IsOwn path)
      (text : String) (rest : Writes (write files path text) edits files') :
      Writes files edits files'
  | edit {files files' : Files} {edits : List FileEdit} {e : FileEdit} {text : String}
      (hnext : host.next e (files e.path) = .ok text)
      (rest : Writes (write files e.path text) edits files') : Writes files (e :: edits) files'

variable {host}

theorem Writes.append {files files' files'' : Files} {es fs : List FileEdit}
    (h : host.Writes files es files') (h' : host.Writes files' fs files'') :
    host.Writes files (es ++ fs) files'' := by
  induction h with
  | nil files => exact h'
  | own hown text rest ih => exact .own hown text (ih h')
  | edit hnext rest ih => exact .edit hnext (ih h')

variable (host) in
theorem writes_perform (es : List FileEdit) (files : Files) :
    host.Writes files (host.succeeded es files) (host.perform es files).1 := by
  induction es generalizing files with
  | nil => exact .nil files
  | cons e es ih =>
      rw [succeeded, perform]
      cases hnext : host.next e (files e.path) with
      | error message => exact .nil files
      | ok text => exact .edit hnext (ih _)

theorem Writes.concat_own {files files' : Files} {es : List FileEdit} {path : Path}
    (h : host.Writes files es files') (hown : host.IsOwn path) (text : String) :
    host.Writes files es (write files' path text) := by
  have hlast := h.append (.own hown text (.nil _))
  rwa [List.append_nil] at hlast

theorem isOwn_manifest (installId : String) :
    host.IsOwn (host.getInstallationManifestPath installId) :=
  ⟨"installations", by simp, _, rfl⟩

theorem isOwn_secret (service account : String) :
    host.IsOwn (host.getSecretFilePath service account) :=
  ⟨"secrets", by simp, _, rfl⟩

variable (host) in
theorem writes_create (machine : Machine) (bundle : ConnectInstallBundle)
    (installId createdAt : String) :
    host.Writes machine.files [] (host.createLocalInstallation machine bundle installId createdAt).1.files := by
  unfold createLocalInstallation
  cases bundle.auth with
  | none => exact .nil _
  | bearer secret description headerName tokenPrefix =>
      dsimp only [storeSecret]
      split
      · exact .nil _
      · exact .own (isOwn_secret "file" installId) secret (.nil _)

variable (host) in
theorem writes_run (machine : Machine) (command : InstallCommand) :
    host.Writes machine.files (host.edits machine command) (host.run machine command).files := by
  cases command with
  | install bundle id createdAt projectDir =>
      have hcreate := writes_create host machine bundle id.text createdAt
      unfold edits run installConnectBundle
      dsimp only
      generalize host.createLocalInstallation machine bundle id.text createdAt = created at hcreate ⊢
      obtain ⟨stored, installation⟩ := created
      dsimp only at hcreate ⊢
      cases hplan : host.installTargetConfig id.text bundle.servers stored.files bundle.target
          bundle.scopeEffective projectDir with
      | error message => exact hcreate
      | ok plan =>
          obtain ⟨configPath, es⟩ := plan
          have hperform := hcreate.append (writes_perform host es stored.files)
          dsimp only [planned]
          split
          · exact hperform
          · exact hperform
          · exact hperform.concat_own (isOwn_manifest id.text) _
  | sync id projectDir =>
      unfold edits run syncLocalInstallation
      dsimp only
      cases host.loadLocalInstallation machine.files id.text with
      | error message => exact .nil _
      | ok fields =>
          dsimp only
          cases LocalInstallation.ofFields fields with
          | none => exact .nil _
          | some installation =>
              dsimp only [syncInstallation]
              split
              · exact .nil _
              · cases host.readInstallationSecret machine installation.auth with
                | error message => exact .nil _
                | ok secret =>
                    dsimp only
                    cases host.installTargetConfig installation.id installation.servers
                        machine.files installation.target installation.scopeEffective
                        ((projectDir.or installation.projectDir).filter (· ≠ "")) with
                    | error message => exact .nil _
                    | ok plan =>
                        obtain ⟨configPath, es⟩ := plan
                        have hperform := writes_perform host es machine.files
                        dsimp only [planned]
                        split
                        · exact hperform
                        · exact hperform
                        · exact hperform
                        · exact hperform.concat_own (isOwn_manifest installation.id) _

variable (host) in
theorem writes_runAll (machine : Machine) (commands : List InstallCommand) :
    host.Writes machine.files (host.history machine commands)
      (host.runAll machine commands).files := by
  induction commands generalizing machine with
  | nil => exact .nil _
  | cons command commands ih =>
      exact (writes_run host machine command).append (ih (host.run machine command))

end Writes

end ConnectHost

section Merges

variable (runtime : Runtime)

-- the key and the entries of a change that merges servers into a JSON file
def Change.merge : Change → Option (String × List (String × Json))
  | .mcpServers installId servers includeType =>
      some ("mcpServers", mcpServersEntries runtime installId servers includeType)
  | .vsCode installId servers => some ("servers", vsCodeEntries runtime installId servers)
  | .codex _ _ => none
  | .trust _ => none

def Change.entries (change : Change) (key : String) : List (String × Json) :=
  match change.merge runtime with
  | some (k, entries) => if k = key then entries else []
  | none => []

-- what a history has put under a key of a file, in its order
def entriesAt (key : String) (path : Path) (history : List FileEdit) : List (String × Json) :=
  history.flatMap fun e => if e.path = path then e.change.entries runtime key else []

theorem Change.settled_merge (round : ℚ → JsNumber) {change : Change} {key : String}
    {entries : List (String × Json)} (h : change.merge runtime = some (key, entries)) :
    ∀ e ∈ entries, JsonParser.Settled round e.2 := by
  intro e he
  cases change with
  | mcpServers installId servers includeType =>
      cases h
      obtain ⟨server, -, rfl⟩ := List.mem_map.mp he
      exact settled_relayEntry runtime installId round server.id includeType
  | vsCode installId servers =>
      cases h
      obtain ⟨server, -, rfl⟩ := List.mem_map.mp he
      exact settled_relayEntry runtime installId round server.id true
  | codex installId servers => cases h
  | trust projectDir => cases h

theorem Change.key_of_merge {change : Change} {key : String} {entries : List (String × Json)}
    (h : change.merge runtime = some (key, entries)) : key = "mcpServers" ∨ key = "servers" := by
  cases change with
  | mcpServers installId servers includeType =>
      cases h
      exact .inl rfl
  | vsCode installId servers =>
      cases h
      exact .inr rfl
  | codex installId servers => cases h
  | trust projectDir => cases h

theorem next_of_merge (host : ConnectHost) {e : FileEdit} {key : String}
    {entries : List (String × Json)} (h : e.change.merge host.runtime = some (key, entries))
    (file : Option String) :
    host.next e file = host.mergeServersJson key entries (text e.path) file := by
  obtain ⟨path, change⟩ := e
  cases change with
  | mcpServers installId servers includeType =>
      cases h
      rfl
  | vsCode installId servers =>
      cases h
      rfl
  | codex installId servers => cases h
  | trust projectDir => cases h

theorem lastEntry_append (es fs : List (String × Json)) (name : String) :
    lastEntry (es ++ fs) name = (lastEntry fs name).or (lastEntry es name) := by
  induction es with
  | nil => simp [lastEntry]
  | cons e es ih => simp [lastEntry, ih, Option.or_assoc]

theorem ClientConfig.withServers_nil (config : ClientConfig) : config.withServers [] = config := by
  unfold ClientConfig.withServers
  congr 1
  funext name
  split
  next hproto => exact hproto.2.symm
  next => rfl

theorem map_written_written (v : Option Json) :
    (v.map Json.written).map Json.written = v.map Json.written := by
  rw [Option.map_map]
  exact congrArg (Option.map · v) (funext Json.written_written)

-- two merges one after the other are one merge
theorem ClientConfig.withServers_append {config config' : ClientConfig}
    {es : List (String × Json)} (h : config'.servers = (config.withServers es).written.servers)
    (fs : List (String × Json)) :
    (config'.withServers fs).written.servers = (config.withServers (es ++ fs)).written.servers := by
  funext name
  simp only [ClientConfig.written, ClientConfig.withServers, h, lastEntry_append,
    Option.map_eq_none_iff]
  by_cases hproto : name = protoKey ∧ config.servers name = none
  · rw [if_pos hproto, if_pos ⟨hproto.1, rfl⟩, if_pos hproto]
  · rw [if_neg hproto, if_neg hproto]
    split
    next hnone =>
      obtain ⟨hname, hnone⟩ := hnone
      exact absurd ⟨hname, (Option.or_eq_none_iff.mp hnone).2⟩ hproto
    next =>
      rw [Option.or_assoc]
      cases lastEntry fs name with
      | none => rw [Option.none_or, Option.none_or, map_written_written]
      | some v => rfl

end Merges

namespace ConnectHost

variable {host : ConnectHost}

section Plans

def projectParts : List Path :=
  [[".cursor", "mcp.json"], [".codex", "config.toml"], [".vscode", "mcp.json"], [".mcp.json"],
    ["mcp.json"]]

def userParts : List Path :=
  [[".cursor", "mcp.json"], [".codex", "config.toml"], [".codeium", "mcp_config.json"],
    [".codeium", "windsurf", "mcp_config.json"], [".claude.json"],
    ["Library", "Application Support", "Code", "User", "mcp.json"],
    [".config", "Code", "User", "mcp.json"],
    ["Library", "Application Support", "Claude", "claude_desktop_config.json"],
    [".config", "claude-desktop", "config.json"],
    [".config", "Claude", "claude_desktop_config.json"]]

variable (host) in
-- where the files of clients are
inductive Located (projectDir : Option String) : Path → Prop
  | project {safe : String} {parts : Path} (hsafe : host.resolveSafeProjectDir projectDir = .ok safe)
      (hparts : parts ∈ projectParts) : Located projectDir (resolve host.cwd safe ++ parts)
  | user {parts : Path} (hparts : parts ∈ userParts) : Located projectDir (host.home ++ parts)
  | generic : Located projectDir (host.baseDir ++ ["generic-mcp.json"])
  | chosen {path : Path} (hpath : host.claudeDesktopConfig = some path) : Located projectDir path

theorem located_candidates (projectDir : Option String) :
    ∀ candidate ∈ host.claudeDesktopCandidates, host.Located projectDir candidate := by
  intro candidate hcandidate
  unfold claudeDesktopCandidates at hcandidate
  split at hcandidate
  · rcases List.mem_cons.mp hcandidate with rfl | hcandidate
    · exact .user (by simp [userParts])
    · obtain rfl := List.mem_singleton.mp hcandidate
      exact .user (by simp [userParts])
  · rcases List.mem_cons.mp hcandidate with rfl | hcandidate
    · exact .user (by simp [userParts])
    · obtain rfl := List.mem_singleton.mp hcandidate
      exact .user (by simp [userParts])

theorem located_claudeDesktop {files : Files} {projectDir : Option String} {path : Path}
    (h : host.getClaudeDesktopConfigPath files = .ok path) : host.Located projectDir path := by
  unfold getClaudeDesktopConfigPath at h
  split at h
  next chosen hchosen =>
    cases h
    exact .chosen hchosen
  next =>
    split at h
    next => cases h
    next fallback rest hlist =>
      cases h
      apply located_candidates
      cases hfound : host.claudeDesktopCandidates.find? fun path => (files path).isSome with
      | none =>
          rw [hlist]
          exact List.mem_cons_self
      | some found => exact List.mem_of_find?_eq_some hfound

theorem located_resolveScopedPath {files : Files} {target : ConnectTarget} {scopeEffective : String}
    {projectDir : Option String} {path : Path}
    (h : host.resolveScopedPath files target scopeEffective projectDir = .ok path) :
    host.Located projectDir path := by
  obtain ⟨safe, hsafe, h⟩ := Except.bind_eq_ok_iff.1 h
  have hscoped : ∀ {parts user : Path}, parts ∈ projectParts → host.Located projectDir user →
      host.Located projectDir
        (if scopeEffective = "project" then resolve host.cwd safe ++ parts else user) := by
    intro parts user hparts huser
    split
    · exact .project hsafe hparts
    · exact huser
  cases target with
  | cursor =>
      cases h
      exact hscoped (by simp [projectParts]) (.user (by simp [userParts]))
  | claudeDesktop => exact located_claudeDesktop h
  | codex =>
      cases h
      exact hscoped (by simp [projectParts]) (.user (by simp [userParts]))
  | windsurf =>
      cases h
      exact .user (by simp [userParts])
  | vscode =>
      cases h
      apply hscoped (by simp [projectParts])
      unfold getVsCodeUserConfigPath
      split
      · exact .user (by simp [userParts])
      · exact .user (by simp [userParts])
  | claudeCode =>
      cases h
      exact hscoped (by simp [projectParts]) (.user (by simp [userParts]))
  | genericJson =>
      cases h
      exact hscoped (by simp [projectParts]) .generic
  | claude => cases h
  | chatgpt => cases h
  | v0 => cases h

variable (host) in
-- what an installation does to the files of clients
structure Placed (projectDir : Option String) (e : FileEdit) : Prop where
  located : host.Located projectDir e.path
  toml : e.change.merge host.runtime = none → e.path.getLast? = some "config.toml"

theorem mem_succeeded {e : FileEdit} {es : List FileEdit} {files : Files}
    (h : e ∈ host.succeeded es files) : e ∈ es := by
  induction es generalizing files with
  | nil => exact h
  | cons f es ih =>
      rw [succeeded] at h
      split at h
      · cases h
      · rcases List.mem_cons.mp h with rfl | h
        · exact List.mem_cons_self
        · exact List.mem_cons_of_mem f (ih h)

theorem placed_mcpServers {projectDir : Option String} {path : Path}
    (h : host.Located projectDir path) (installId : String) (servers : List ConnectServerBinding)
    (includeType : Bool) :
    host.Placed projectDir ⟨path, .mcpServers installId servers includeType⟩ := ⟨h, nofun⟩

theorem codexPath_last {files : Files} {scopeEffective : String} {projectDir : Option String}
    {path : Path} (h : host.resolveScopedPath files .codex scopeEffective projectDir = .ok path) :
    path.getLast? = some "config.toml" := by
  obtain ⟨safe, -, h⟩ := Except.bind_eq_ok_iff.1 h
  cases h
  split
  · simp
  · simp [getCodexUserConfigPath]

theorem placed_codexEdits {installId scopeEffective : String} {servers : List ConnectServerBinding}
    {files : Files} {projectDir : Option String} {path : Path}
    (hpath : host.resolveScopedPath files .codex scopeEffective projectDir = .ok path)
    {es : List FileEdit}
    (h : host.codexEdits installId servers path scopeEffective projectDir = .ok es) :
    ∀ e ∈ es, host.Placed projectDir e := by
  have hcodex : host.Placed projectDir ⟨path, .codex installId servers⟩ :=
    ⟨located_resolveScopedPath hpath, fun _ => codexPath_last hpath⟩
  unfold codexEdits at h
  split at h
  · obtain ⟨safe, -, h⟩ := Except.bind_eq_ok_iff.1 h
    obtain ⟨safe', -, h⟩ := Except.bind_eq_ok_iff.1 h
    cases h
    intro e he
    rcases List.mem_cons.mp he with rfl | he
    · exact hcodex
    · obtain rfl := List.mem_singleton.mp he
      exact ⟨.user (by simp [userParts]), fun _ => by simp [getCodexUserConfigPath]⟩
  · cases h
    intro e he
    obtain rfl := List.mem_singleton.mp he
    exact hcodex

theorem placed_installTargetConfig {installId scopeEffective : String}
    {servers : List ConnectServerBinding} {files : Files} {target : ConnectTarget}
    {projectDir : Option String} {path : Path} {es : List FileEdit}
    (h : host.installTargetConfig installId servers files target scopeEffective projectDir =
      .ok (path, es)) : ∀ e ∈ es, host.Placed projectDir e := by
  have hsingle : ∀ (client : ConnectTarget) (includeType : Bool),
      (do
        let path ← host.resolveScopedPath files client scopeEffective projectDir
        return (path, [(⟨path, .mcpServers installId servers includeType⟩ : FileEdit)])) =
          Except.ok (path, es) → ∀ e ∈ es, host.Placed projectDir e := by
    intro client includeType h
    obtain ⟨path, hpath, h⟩ := Except.bind_eq_ok_iff.1 h
    cases h
    intro e he
    obtain rfl := List.mem_singleton.mp he
    exact placed_mcpServers (located_resolveScopedPath hpath) _ _ _
  cases target with
  | cursor => exact hsingle _ _ h
  | claudeDesktop => exact hsingle _ _ h
  | genericJson => exact hsingle _ _ h
  | claudeCode => exact hsingle _ _ h
  | codex =>
      obtain ⟨path, hpath, h⟩ := Except.bind_eq_ok_iff.1 h
      obtain ⟨edits, hedits, h⟩ := Except.bind_eq_ok_iff.1 h
      cases h
      exact placed_codexEdits hpath hedits
  | windsurf =>
      obtain ⟨path, hpath, h⟩ := Except.bind_eq_ok_iff.1 h
      cases h
      intro e he
      rcases List.mem_cons.mp he with rfl | he
      · exact placed_mcpServers (located_resolveScopedPath hpath) _ _ _
      · split at he
        · cases he
        · obtain rfl := List.mem_singleton.mp he
          exact placed_mcpServers (.user (by simp [userParts])) _ _ _
  | vscode =>
      obtain ⟨path, hpath, h⟩ := Except.bind_eq_ok_iff.1 h
      obtain ⟨claudePath, hclaude, h⟩ := Except.bind_eq_ok_iff.1 h
      obtain ⟨codexPath, hcodex, h⟩ := Except.bind_eq_ok_iff.1 h
      obtain ⟨edits, hedits, h⟩ := Except.bind_eq_ok_iff.1 h
      cases h
      intro e he
      rcases List.mem_cons.mp he with rfl | he
      · exact ⟨located_resolveScopedPath hpath, nofun⟩
      rcases List.mem_cons.mp he with rfl | he
      · exact placed_mcpServers (located_resolveScopedPath hclaude) _ _ _
      · exact placed_codexEdits hcodex hedits e he
  | claude => cases h
  | chatgpt => cases h
  | v0 => cases h

theorem placed_planned {installId scopeEffective : String} {servers : List ConnectServerBinding}
    {files files' : Files} {target : ConnectTarget} {projectDir : Option String} :
    ∀ e ∈ host.planned
      (host.installTargetConfig installId servers files target scopeEffective projectDir) files',
        host.Placed projectDir e := by
  intro e he
  unfold planned at he
  split at he
  next => cases he
  next hplan => exact placed_installTargetConfig hplan e (mem_succeeded he)

theorem placed_edits (machine : Machine) (command : InstallCommand) :
    ∀ e ∈ host.edits machine command, ∃ projectDir, host.Placed projectDir e := by
  intro e he
  cases command with
  | install bundle id createdAt projectDir => exact ⟨projectDir, placed_planned e he⟩
  | sync id projectDir =>
      dsimp only [edits] at he
      cases hload : host.loadLocalInstallation machine.files id.text with
      | error message =>
          rw [hload] at he
          cases he
      | ok fields =>
          rw [hload] at he
          dsimp only at he
          cases hfields : LocalInstallation.ofFields fields with
          | none =>
              rw [hfields] at he
              cases he
          | some installation =>
              rw [hfields] at he
              dsimp only at he
              split at he
              · cases he
              · cases hsecret : host.readInstallationSecret machine installation.auth with
                | error message =>
                    rw [hsecret] at he
                    cases he
                | ok secret =>
                    rw [hsecret] at he
                    exact ⟨_, placed_planned e he⟩

theorem placed_history (machine : Machine) (commands : List InstallCommand) :
    ∀ e ∈ host.history machine commands, ∃ projectDir, host.Placed projectDir e := by
  induction commands generalizing machine with
  | nil => exact nofun
  | cons command commands ih =>
      intro e he
      rcases List.mem_append.mp he with he | he
      · exact placed_edits machine command e he
      · exact ih (host.run machine command) e he

end Plans

section Configurations

theorem Writes.config {files files' : Files} {es : List FileEdit}
    (h : host.Writes files es files') {path : Path} (hown : ¬ host.IsOwn path)
    (hjson : ∀ e ∈ es, e.path = path → (e.change.merge host.runtime).isSome = true)
    {key : String} {config : ClientConfig} (hconfig : host.clientConfig key (files path) = some config) :
    ∃ config', host.clientConfig key (files' path) = some config' ∧
      config'.written.servers =
        (config.withServers (entriesAt host.runtime key path es)).written.servers ∧
      ∀ name, name ≠ "mcpServers" → name ≠ "servers" →
        config'.written.others name = config.written.others name := by
  induction h generalizing config with
  | nil files =>
      have hsame : config.withServers (entriesAt host.runtime key path []) = config :=
        config.withServers_nil
      exact ⟨config, hconfig, by rw [hsame], fun _ _ _ => rfl⟩
  | @own files files' es other hother text rest ih =>
      have hne : path ≠ other := fun heq => hown (heq ▸ hother)
      apply ih hjson
      rw [write, if_neg hne]
      exact hconfig
  | @edit files files' es e content hnext rest ih =>
      have hrest : ∀ f ∈ es, f.path = path → (f.change.merge host.runtime).isSome = true := fun f hf =>
        hjson f (List.mem_cons_of_mem e hf)
      by_cases hpath : e.path = path
      · obtain ⟨⟨k, entries⟩, hmerge⟩ := Option.isSome_iff_exists.mp
          (hjson e List.mem_cons_self hpath)
        rw [next_of_merge host hmerge, hpath] at hnext
        obtain ⟨middle, hmiddle, hservers, hothers⟩ := clientConfig_after
          (e.change.settled_merge host.runtime host.round hmerge) hnext hconfig
        have hwritten : host.clientConfig key (write files e.path content path) = some middle := by
          rw [write, if_pos hpath.symm]
          exact hmiddle
        obtain ⟨config', hconfig', hservers', hothers'⟩ := ih hrest hwritten
        have hentries : entriesAt host.runtime key path (e :: es) =
            (if k = key then entries else []) ++ entriesAt host.runtime key path es := by
          rw [entriesAt, List.flatMap_cons, if_pos hpath, Change.entries, hmerge]
          rfl
        refine ⟨config', hconfig', ?_, ?_⟩
        · rw [hservers', hentries, ClientConfig.withServers_append hservers]
        · intro name hmcp hserv
          have hkey : name ≠ k := by
            rcases e.change.key_of_merge host.runtime hmerge with rfl | rfl
            · exact hmcp
            · exact hserv
          rw [hothers' name hmcp hserv]
          change (middle.others name).map Json.written = _
          rw [hothers name hkey]
          exact map_written_written _
      · have hentries : entriesAt host.runtime key path (e :: es) =
            entriesAt host.runtime key path es := by
          rw [entriesAt, List.flatMap_cons, if_neg hpath]
          rfl
        rw [hentries]
        apply ih hrest
        rw [write, if_neg (Ne.symm hpath)]
        exact hconfig

theorem Writes.frame {files files' : Files} {es : List FileEdit} (h : host.Writes files es files')
    {path : Path} (hown : ¬ host.IsOwn path) (hes : ∀ e ∈ es, e.path ≠ path) :
    files' path = files path := by
  induction h with
  | nil files => rfl
  | @own files files' es other hother text rest ih =>
      have hne : path ≠ other := fun heq => hown (heq ▸ hother)
      rw [ih hes, write, if_neg hne]
  | @edit files files' es e content hnext rest ih =>
      rw [ih fun f hf => hes f (List.mem_cons_of_mem e hf), write,
        if_neg (Ne.symm (hes e List.mem_cons_self))]

-- over a run of installations and repairs a client's file is the map of all that was merged into it
theorem clientConfig_runAll (machine : Machine) (commands : List InstallCommand) {path : Path}
    (hown : ¬ host.IsOwn path) (hname : path.getLast? ≠ some "config.toml") {key : String}
    {config : ClientConfig} (hconfig : host.clientConfig key (machine.files path) = some config) :
    ∃ config', host.clientConfig key ((host.runAll machine commands).files path) = some config' ∧
      config'.written.servers = (config.withServers
        (entriesAt host.runtime key path (host.history machine commands))).written.servers ∧
      ∀ name, name ≠ "mcpServers" → name ≠ "servers" →
        config'.written.others name = config.written.others name := by
  apply (writes_runAll host machine commands).config hown _ hconfig
  intro e he hpath
  rw [Option.isSome_iff_ne_none]
  intro hnone
  obtain ⟨projectDir, hplaced⟩ := placed_history machine commands e he
  exact hname (hpath ▸ hplaced.toml hnone)

end Configurations

end ConnectHost

section Example

-- as far as texts without numbers go
def linux : ConnectHost where
  round _ := .posInfinity
  round_round := by
    intro q d h
    cases h
  syntaxError _ := "Unexpected token"
  runtime := ⟨"/usr/bin/node", "/usr/bin/conduit"⟩
  darwin := false
  cwd := ["work"]
  home := ["home"]
  baseDir := ["home", ".config", "conduit-link"]
  claudeDesktopConfig := none
  fileSecrets := false
  readError path := "ENOENT: no such file or directory, open '" ++ path ++ "'"

def newMachine : Machine := ⟨fun _ => none, fun _ => none⟩

def someId : InstallId := ⟨"6f9619ff-8b86-4011-b42d-00c04fc964ff", by decide, by decide⟩

def cursorBundle : ConnectInstallBundle where
  target := .cursor
  targetLabel := "Cursor"
  profile := "default"
  profileLabel := "Default"
  scope := "user"
  scopeEffective := "user"
  baseUrl := "https://h"
  servers := [⟨"s", "conduit-s", "https://h/mcp/s"⟩]
  createdAt := 0
  expiresAt := 600000
  auth :=
    .bearer "a" "Conduit API key passed as a Bearer token to the gateway" "Authorization" "Bearer "

theorem clientConfig_runAll_cursor : ∃ config',
    linux.clientConfig "mcpServers" ((linux.runAll newMachine
        [.install cursorBundle someId "" none]).files ["home", ".cursor", "mcp.json"]) =
          some config' ∧
      config'.written.servers = ((⟨fun _ => none, fun _ => none⟩ : ClientConfig).withServers
        (entriesAt linux.runtime "mcpServers" ["home", ".cursor", "mcp.json"]
          (linux.history newMachine [.install cursorBundle someId "" none]))).written.servers := by
  have hown : ¬ linux.IsOwn ["home", ".cursor", "mcp.json"] := by
    rintro ⟨dir, -, name, hpath⟩
    simp [linux] at hpath
  have hconfig : linux.clientConfig "mcpServers" (newMachine.files ["home", ".cursor", "mcp.json"]) =
      some ⟨fun _ => none, fun _ => none⟩ := by
    change some _ = some _
    simp [Json.field]
  obtain ⟨config', hconfig', hservers, -⟩ :=
    ConnectHost.clientConfig_runAll newMachine [.install cursorBundle someId "" none] hown
      (by decide) hconfig
  exact ⟨config', hconfig', hservers⟩

end Example

end Conduit.Connect
