import Conduit.Connect.InstallationManifests

namespace Conduit.Connect

open Paths Utils

def LocalAuth.relayed : LocalAuth → InstallationAuth
  | .none => .none
  | .bearer _ headerName tokenPrefix _ => .bearer headerName tokenPrefix

def ConnectInstallBundleAuth.relayed : ConnectInstallBundleAuth → InstallationAuth
  | .none => .none
  | .bearer _ _ headerName tokenPrefix => .bearer headerName tokenPrefix

def LocalInstallation.relayed (installation : LocalInstallation) : ConnectLocalInstallation :=
  ⟨installation.id, installation.baseUrl, installation.auth.relayed⟩

-- what a relay has around it
structure RelaySurroundings where
  parse : String → Option Json
  fetch : ℕ → RelayRequest → RelayFetch
  race : List String → String

-- the relay reads the installation when it starts and the secret for each message
def ConnectHost.runConnectRelay (host : ConnectHost) (around : RelaySurroundings)
    (started now : Machine) (id : InstallId) (serverId : String) : Option Relay :=
  (host.installed started.files id).map fun installation =>
    { parse := around.parse
      installation := installation.relayed
      serverId := serverId
      secret := host.readInstallationSecret now installation.auth
      fetch := around.fetch
      race := around.race }

-- the headers that the bundle asks for
def ConnectInstallBundle.headers (bundle : ConnectInstallBundle) (installId : String) :
    Except String (List (String × String)) :=
  match bundle.auth with
  | .none => .ok [("Content-Type", "application/json")]
  | .bearer secret _ headerName tokenPrefix =>
      if Text.trim secret = "" then
        .error ("Missing stored token for installation \"" ++ installId ++ "\"")
      else
        .ok [("Content-Type", "application/json"), (headerName, tokenPrefix ++ Text.trim secret)]

theorem LocalInstallation.of_created {held installation : LocalInstallation}
    (h : held.created = installation.created) : held.id = installation.id ∧
      held.baseUrl = installation.baseUrl ∧ held.auth = installation.auth := by
  have hid := congrArg LocalInstallation.id h
  have hbase := congrArg LocalInstallation.baseUrl h
  have hauth := congrArg LocalInstallation.auth h
  exact ⟨hid, hbase, hauth⟩

namespace ConnectHost

variable {host : ConnectHost}

section Asking

variable (host) in
theorem create_bundle (machine : Machine) (bundle : ConnectInstallBundle)
    (installId createdAt : String) :
    let installation := (host.createLocalInstallation machine bundle installId createdAt).2
    installation.id = installId ∧ installation.baseUrl = bundle.baseUrl ∧
      installation.auth.relayed = bundle.auth.relayed := by
  unfold createLocalInstallation
  cases bundle.auth with
  | none => exact ⟨rfl, rfl, rfl⟩
  | bearer secret description headerName tokenPrefix => exact ⟨rfl, rfl, rfl⟩

theorem install_bundle {machine : Machine} {bundle : ConnectInstallBundle}
    {installId createdAt : String} {projectDir : Option String} {installation : LocalInstallation}
    (h : (host.installConnectBundle machine bundle installId createdAt projectDir).2 =
      .ok installation) :
    installation.id = installId ∧ installation.baseUrl = bundle.baseUrl ∧
      installation.auth.relayed = bundle.auth.relayed := by
  have hbundle := create_bundle host machine bundle installId createdAt
  cases hcreated : host.createLocalInstallation machine bundle installId createdAt with
  | mk stored created =>
      rw [hcreated] at hbundle
      obtain ⟨es, -, ⟨message, hout⟩ | ⟨configPath, kept, hout⟩⟩ :=
        installConnectBundle_spec hcreated projectDir
      · rw [hout] at h
        cases h
      · rw [hout] at h
        cases h
        exact hbundle

theorem requestHeaders_bundle {R : Relay} {bundle : ConnectInstallBundle} {installId : String}
    (hid : R.installation.id = installId)
    (hauth : R.installation.auth = bundle.auth.relayed)
    (hsecret : R.secret = .ok (bundleToken bundle.auth)) :
    R.requestHeaders = bundle.headers installId := by
  unfold Relay.requestHeaders ConnectInstallBundle.headers
  rw [hauth, hsecret, hid]
  cases bundle.auth with
  | none => rfl
  | bearer secret description headerName tokenPrefix =>
      simp only [ConnectInstallBundleAuth.relayed, bundleToken, bind, Except.bind]
      by_cases hempty : Text.trim secret = ""
      · simp [hempty]
        rfl
      · rw [filter_nonempty hempty]
        exact (if_neg hempty).symm

-- whatever is installed and repaired meanwhile, the relay asks the gateway of the bundle as the
-- bundle has it
theorem exchange_after_install (around : RelaySurroundings) (hapart : host.Apart)
    {machine : Machine} (hreadable : host.Readable machine.files) {bundle : ConnectInstallBundle}
    {id : InstallId} {createdAt : String} {projectDir : Option String}
    {installation : LocalInstallation}
    (hinstall : (host.installConnectBundle machine bundle id.text createdAt projectDir).2 =
      .ok installation)
    {before after : List InstallCommand} (hbefore : ∀ command ∈ before, ¬ command.Installs id)
    (hafter : ∀ command ∈ after, ¬ command.Installs id) (serverId : String) :
    ∃ R, host.runConnectRelay around
        (host.runAll machine (.install bundle id createdAt projectDir :: before))
        (host.runAll machine (.install bundle id createdAt projectDir :: (before ++ after))) id
        serverId = some R ∧
      ∀ i message, R.exchange i message = (bundle.headers id.text).bind fun headers =>
        R.receive (around.fetch i
          ⟨bundle.baseUrl ++ "/mcp/" ++ encodeURIComponent serverId, headers, message⟩) := by
  have hstarted := installed_until_again hapart hreadable hinstall hbefore
  have hnow := installed_until_again hapart hreadable hinstall
    (List.forall_mem_append.mpr ⟨hbefore, hafter⟩)
  obtain ⟨held, hheld, hcreated⟩ := hstarted.kept
  obtain ⟨hid, hbase, hauth⟩ := install_bundle hinstall
  obtain ⟨hheldId, hheldBase, hheldAuth⟩ := LocalInstallation.of_created hcreated
  rw [hid] at hheldId
  rw [hbase] at hheldBase
  rw [runConnectRelay, hheld]
  refine ⟨_, rfl, ?_⟩
  intro i message
  rw [Relay.exchange, requestHeaders_bundle hheldId (by rw [← hauth, ← hheldAuth]; rfl)
    (by rw [← hnow.secret, ← hheldAuth])]
  rw [← hheldBase]
  rfl

end Asking

section Sessions

open ConnectInstallSessionStore

variable {api : UrlEditor}

theorem auth_of_bundleOf {gateway : GatewayListen} {config : ConduitGatewayConfig} {now : ℕ}
    {options : CreateConnectInstallSessionOptions} {bundle : ConnectInstallBundle}
    (h : bundleOf api gateway config now options = some bundle) :
    bundle.auth = .none ∨ ∃ secret description, options.authSecret = some secret ∧
      bundle.auth = .bearer secret description "Authorization" "Bearer " := by
  obtain ⟨result, -, h⟩ := Option.bind_eq_some_iff.mp h
  obtain ⟨auth, hauth, h⟩ := Option.bind_eq_some_iff.mp h
  cases h
  unfold buildBundleAuth at hauth
  split at hauth
  next =>
    cases hauth
    exact .inl rfl
  next env envs henv =>
    obtain ⟨secret, hsecret, hauth⟩ := Option.map_eq_some_iff.mp hauth
    cases hauth
    exact .inr ⟨secret, env.description, (Option.filter_eq_some_iff.mp hsecret).1, rfl⟩

end Sessions

end ConnectHost

section Example

open ConnectInstallSessionStore

def unreachable : RelaySurroundings where
  parse _ := none
  fetch _ request := .failed request.url
  race _ := ""

def guardedGateway : ConduitGatewayConfig where
  servers := [{ id := "s", url := "https://u/mcp" }]
  auth := some { method := .apiKey }

end Example

end Conduit.Connect
