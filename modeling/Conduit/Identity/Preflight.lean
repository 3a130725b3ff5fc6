import Conduit.Identity.Runtime

namespace Conduit.Identity

inductive IdentityPreflightStatus where
  | none
  | ready
  | optionalUnresolved
  | missingConnectedAccount
  | identityDisabled
  | principalRequired
  | unsupportedTransport
deriving DecidableEq, Repr

structure ConnectedAccountRequirementSummary where
  provider : String
  binding : ConnectedAccountBinding
  required : Bool
  resolved : Bool
  status : IdentityPreflightStatus
  message : String
  account : Option ResolvedConnectedAccount := none
deriving DecidableEq

structure ServerIdentityPreflight where
  serverId : String
  transport : TransportType
  status : IdentityPreflightStatus
  ready : Bool
  blocking : Bool
  forwardIdentityMode : IdentityForwardMode
  workspaceId : Option String := none
  connectedAccount : Option ConnectedAccountRequirementSummary := none
deriving DecidableEq

structure ResolvedUpstreamAuth where
  workspaceId : String
  headers : Headers
  connectedAccount : Option ResolvedConnectedAccount

def toPublicAccount (account : ResolvedConnectedAccount) : ResolvedConnectedAccount :=
  { account with accessToken := none, refreshToken := none }

namespace IdentityRuntime

def unsupportedTransportMessage (server : ServerConfig) : String :=
  s!"Server \"{server.id}\" uses {transportName (server.transport.getD .http)} transport " ++
    "and cannot resolve per-request connected accounts"

def identityDisabledMessage (server : ServerConfig)
    (requirement : UpstreamConnectedAccountConfig) : String :=
  s!"Identity plane is disabled but server \"{server.id}\" " ++
    s!"requires provider \"{requirement.provider}\""

def missingAccountMessage (requirement : UpstreamConnectedAccountConfig)
    (workspaceId : String) : String :=
  s!"No connected account for provider \"{requirement.provider}\" " ++
    s!"in workspace \"{workspaceId}\""

variable (I : IdentityRuntime)

-- the whole answer of the source's resolveUpstreamHeaders
def resolveUpstreamAuth (server : ServerConfig) (principal : AuthenticatedPrincipal) :
    Except String ResolvedUpstreamAuth := do
  let workspaceId := I.resolveWorkspace principal.tenantId
  let account ← I.resolveConnectedAccount server principal workspaceId
  let headers ← I.resolveUpstreamHeaders server principal
  return ⟨workspaceId, headers, account.map fun resolved => toPublicAccount resolved.1⟩

-- a requirement that is not resolved blocks when it is required
def unresolvedPreflight (server : ServerConfig) (requirement : UpstreamConnectedAccountConfig)
    (status : IdentityPreflightStatus) (message : String) (workspaceId : Option String) :
    ServerIdentityPreflight :=
  let required : Bool := requirement.required ≠ some false
  { serverId := server.id
    transport := server.transport.getD .http
    status := status
    ready := !required
    blocking := required
    forwardIdentityMode :=
      ((server.upstreamAuth.bind (·.forwardIdentity)).bind (·.mode)).getD .none
    workspaceId := workspaceId
    connectedAccount := some
      { provider := requirement.provider
        binding := requirement.binding.getD .clientOrWorkspace
        required := required
        resolved := false
        status := status
        message := message } }

-- the error is the one of a stored account whose token is missing
def getServerPreflight (server : ServerConfig) (principal : Option AuthenticatedPrincipal) :
    Except String ServerIdentityPreflight :=
  let transport := server.transport.getD .http
  let forwardIdentityMode :=
    ((server.upstreamAuth.bind (·.forwardIdentity)).bind (·.mode)).getD .none
  match server.upstreamAuth.bind (·.connectedAccount) with
  | none =>
      .ok
        { serverId := server.id
          transport := transport
          status := .none
          ready := true
          blocking := false
          forwardIdentityMode := forwardIdentityMode }
  | some requirement =>
      let binding := requirement.binding.getD .clientOrWorkspace
      let required : Bool := requirement.required ≠ some false
      if transport ≠ .http then
        .ok (unresolvedPreflight server requirement .unsupportedTransport
          (unsupportedTransportMessage server) none)
      else if !I.isEnabled then
        .ok (unresolvedPreflight server requirement .identityDisabled
          (identityDisabledMessage server requirement) none)
      else
        match principal with
        | none =>
            .ok (unresolvedPreflight server requirement .principalRequired
              (s!"Resolve server \"{server.id}\" with client_id and tenant_id " ++
                s!"to check provider \"{requirement.provider}\"") none)
        | some principal =>
            let workspaceId := I.resolveWorkspace principal.tenantId
            match I.store.bind fun store => store.resolveAccountRow workspaceId
                requirement.provider principal binding with
            | none =>
                let status := if required then .missingConnectedAccount else .optionalUnresolved
                let message :=
                  if required then missingAccountMessage requirement workspaceId
                  else
                    s!"No connected account for optional provider \"{requirement.provider}\" " ++
                      s!"in workspace \"{workspaceId}\""
                .ok (unresolvedPreflight server requirement status message workspaceId)
            | some account =>
                match account.accessToken with
                | none => .error s!"Missing access token secret for account \"{account.id}\""
                | some _ =>
                    .ok
                      { serverId := server.id
                        transport := transport
                        status := .ready
                        ready := true
                        blocking := false
                        forwardIdentityMode := forwardIdentityMode
                        workspaceId := workspaceId
                        connectedAccount := some
                          { provider := requirement.provider
                            binding := binding
                            required := required
                            resolved := true
                            status := .ready
                            message := s!"Connected account \"{account.id}\" resolved for " ++
                              s!"provider \"{requirement.provider}\""
                            account := some (toPublicAccount account) } }

-- an optional account the gateway cannot look for at all
def OutOfReach (server : ServerConfig) : Prop :=
  ∃ requirement, server.upstreamAuth.bind (·.connectedAccount) = some requirement ∧
    requirement.required = some false ∧
    (server.transport.getD .http ≠ .http ∨ I.isEnabled = false)

-- the report says what the call does; without a report both fail alike
def Agrees (server : ServerConfig) (principal : AuthenticatedPrincipal) : Prop :=
  match I.getServerPreflight server (some principal) with
  | .error message => I.resolveUpstreamAuth server principal = .error message
  | .ok preflight =>
      (preflight.blocking = true ↔ ∃ message, I.resolveUpstreamAuth server principal = .error message) ∧
      (preflight.status = .ready → ∃ summary account auth,
        preflight.connectedAccount = some summary ∧ summary.account = some account ∧
        I.resolveUpstreamAuth server principal = .ok auth ∧ auth.connectedAccount = some account)

variable {I}

theorem resolveUpstreamAuth_of_error {server : ServerConfig} {principal : AuthenticatedPrincipal}
    {message : String}
    (h : I.resolveConnectedAccount server principal (I.resolveWorkspace principal.tenantId) =
      .error message) :
    I.resolveUpstreamAuth server principal = .error message := by
  simp only [resolveUpstreamAuth]
  rw [h]
  rfl

theorem resolveUpstreamAuth_of_ok {server : ServerConfig} {principal : AuthenticatedPrincipal}
    {account : Option (ResolvedConnectedAccount × String)}
    (h : I.resolveConnectedAccount server principal (I.resolveWorkspace principal.tenantId) =
      .ok account) :
    ∃ headers, I.resolveUpstreamHeaders server principal = .ok headers ∧
      I.resolveUpstreamAuth server principal =
        .ok ⟨I.resolveWorkspace principal.tenantId, headers,
          account.map fun resolved => toPublicAccount resolved.1⟩ := by
  have hheaders : ∃ headers, I.resolveUpstreamHeaders server principal = .ok headers := by
    simp only [resolveUpstreamHeaders]
    rw [h]
    cases account with
    | none => exact ⟨_, rfl⟩
    | some resolved => exact ⟨_, rfl⟩
  obtain ⟨headers, hheaders⟩ := hheaders
  refine ⟨headers, hheaders, ?_⟩
  simp only [resolveUpstreamAuth]
  rw [h, hheaders]
  rfl

-- a report without a resolved account agrees when the call fails just where it blocks
theorem agrees_of_unresolved {server : ServerConfig} {principal : AuthenticatedPrincipal}
    {preflight : ServerIdentityPreflight}
    (hpreflight : I.getServerPreflight server (some principal) = .ok preflight)
    (hstatus : preflight.status ≠ .ready) :
    I.Agrees server principal ↔
      (preflight.blocking = true ↔
        ∃ message, I.resolveConnectedAccount server principal
          (I.resolveWorkspace principal.tenantId) = .error message) := by
  have hfails : (∃ message, I.resolveUpstreamAuth server principal = .error message) ↔
      ∃ message, I.resolveConnectedAccount server principal
        (I.resolveWorkspace principal.tenantId) = .error message := by
    cases haccount : I.resolveConnectedAccount server principal
        (I.resolveWorkspace principal.tenantId) with
    | error message =>
        exact iff_of_true ⟨message, resolveUpstreamAuth_of_error haccount⟩ ⟨message, rfl⟩
    | ok account =>
        obtain ⟨headers, -, hauth⟩ := resolveUpstreamAuth_of_ok haccount
        rw [hauth]
        exact iff_of_false (fun ⟨_, h⟩ => by cases h) (fun ⟨_, h⟩ => by cases h)
  unfold Agrees
  rw [hpreflight, ← hfails]
  exact and_iff_left fun h => absurd h hstatus

theorem agrees_of_no_requirement {server : ServerConfig} (principal : AuthenticatedPrincipal)
    (hnone : server.upstreamAuth.bind (·.connectedAccount) = none) :
    I.Agrees server principal := by
  have hpreflight : I.getServerPreflight server (some principal) = .ok
      { serverId := server.id
        transport := server.transport.getD .http
        status := .none
        ready := true
        blocking := false
        forwardIdentityMode :=
          ((server.upstreamAuth.bind (·.forwardIdentity)).bind (·.mode)).getD .none } := by
    simp only [getServerPreflight, hnone]
  have haccount : I.resolveConnectedAccount server principal
      (I.resolveWorkspace principal.tenantId) = .ok none := by
    simp only [resolveConnectedAccount, hnone]
  rw [agrees_of_unresolved hpreflight (fun h => by cases h), haccount]
  exact iff_of_false Bool.false_ne_true fun ⟨_, h⟩ => by cases h

section Requirement

variable {server : ServerConfig} {requirement : UpstreamConnectedAccountConfig}
  (hrequirement : server.upstreamAuth.bind (·.connectedAccount) = some requirement)

include hrequirement

theorem unsupportedTransport_of_ne (principal : AuthenticatedPrincipal)
    (htransport : server.transport.getD .http ≠ .http) :
    I.getServerPreflight server (some principal) =
        .ok (unresolvedPreflight server requirement .unsupportedTransport
          (unsupportedTransportMessage server) none) ∧
      I.resolveConnectedAccount server principal (I.resolveWorkspace principal.tenantId) =
        .error (unsupportedTransportMessage server) := by
  constructor
  · simp only [getServerPreflight, hrequirement, if_pos htransport]
  · simp only [resolveConnectedAccount, hrequirement, if_pos htransport]
    rfl

theorem identityDisabled_of_not_enabled (principal : AuthenticatedPrincipal)
    (htransport : server.transport.getD .http = .http) (hdisabled : I.isEnabled = false) :
    I.getServerPreflight server (some principal) =
        .ok (unresolvedPreflight server requirement .identityDisabled
          (identityDisabledMessage server requirement) none) ∧
      I.resolveConnectedAccount server principal (I.resolveWorkspace principal.tenantId) =
        .error (identityDisabledMessage server requirement) := by
  constructor
  · simp only [getServerPreflight, hrequirement, htransport, hdisabled]
    rfl
  · simp only [resolveConnectedAccount, hrequirement, htransport, hdisabled]
    rfl

-- the call refuses at once, the report blocks only for a required account
theorem agrees_of_unreachable (principal : AuthenticatedPrincipal)
    (hunreachable : server.transport.getD .http ≠ .http ∨ I.isEnabled = false) :
    I.Agrees server principal ↔ requirement.required ≠ some false := by
  obtain ⟨status, message, hstatus, hpreflight, haccount⟩ :
      ∃ status message, status ≠ .ready ∧
        I.getServerPreflight server (some principal) =
          .ok (unresolvedPreflight server requirement status message none) ∧
        I.resolveConnectedAccount server principal (I.resolveWorkspace principal.tenantId) =
          .error message := by
    by_cases htransport : server.transport.getD .http = .http
    · have hdisabled := hunreachable.resolve_left (not_not.mpr htransport)
      exact ⟨_, _, by decide,
        identityDisabled_of_not_enabled hrequirement principal htransport hdisabled⟩
    · exact ⟨_, _, by decide, unsupportedTransport_of_ne hrequirement principal htransport⟩
  have hrefused : ∃ message, I.resolveConnectedAccount server principal
      (I.resolveWorkspace principal.tenantId) = .error message := ⟨message, haccount⟩
  rw [agrees_of_unresolved hpreflight hstatus]
  exact (iff_true_right hrefused).trans decide_eq_true_iff

theorem agrees_of_reachable (principal : AuthenticatedPrincipal)
    (htransport : server.transport.getD .http = .http) (henabled : I.isEnabled = true) :
    I.Agrees server principal := by
  cases hrow : I.store.bind fun store => store.resolveAccountRow
      (I.resolveWorkspace principal.tenantId) requirement.provider principal
      (requirement.binding.getD .clientOrWorkspace) with
  | none =>
      obtain ⟨status, message, hstatus, hpreflight⟩ : ∃ status message, status ≠ .ready ∧
          I.getServerPreflight server (some principal) =
            .ok (unresolvedPreflight server requirement status message
              (I.resolveWorkspace principal.tenantId)) := by
        simp only [getServerPreflight, hrequirement, htransport, henabled, hrow]
        refine ⟨_, _, ?_, rfl⟩
        split
        · decide
        · decide
      have haccount : I.resolveConnectedAccount server principal
          (I.resolveWorkspace principal.tenantId) =
            if requirement.required = some false then .ok none
            else .error (missingAccountMessage requirement
              (I.resolveWorkspace principal.tenantId)) := by
        simp only [resolveConnectedAccount, hrequirement, htransport, henabled, hrow]
        rfl
      rw [agrees_of_unresolved hpreflight hstatus, haccount]
      refine decide_eq_true_iff.trans ?_
      by_cases hoptional : requirement.required = some false
      · rw [if_pos hoptional]
        exact iff_of_false (not_not.mpr hoptional) fun ⟨_, h⟩ => by cases h
      · rw [if_neg hoptional]
        exact iff_of_true hoptional ⟨_, rfl⟩
  | some account =>
      cases htoken : account.accessToken with
      | none =>
          have haccount : I.resolveConnectedAccount server principal
              (I.resolveWorkspace principal.tenantId) =
                .error s!"Missing access token secret for account \"{account.id}\"" := by
            simp only [resolveConnectedAccount, hrequirement, htransport, henabled, hrow, htoken]
            rfl
          have hpreflight : I.getServerPreflight server (some principal) =
              .error s!"Missing access token secret for account \"{account.id}\"" := by
            simp only [getServerPreflight, hrequirement, htransport, henabled, hrow, htoken]
            rfl
          unfold Agrees
          rw [hpreflight]
          exact resolveUpstreamAuth_of_error haccount
      | some accessToken =>
          have haccount : I.resolveConnectedAccount server principal
              (I.resolveWorkspace principal.tenantId) = .ok (some (account, accessToken)) := by
            simp only [resolveConnectedAccount, hrequirement, htransport, henabled, hrow, htoken]
            rfl
          obtain ⟨headers, -, hauth⟩ := resolveUpstreamAuth_of_ok haccount
          obtain ⟨preflight, summary, hpreflight, hblocking, hsummary, hreported⟩ :
              ∃ preflight summary, I.getServerPreflight server (some principal) = .ok preflight ∧
                preflight.blocking = false ∧ preflight.connectedAccount = some summary ∧
                summary.account = some (toPublicAccount account) := by
            simp only [getServerPreflight, hrequirement, htransport, henabled, hrow, htoken]
            exact ⟨_, _, rfl, rfl, rfl, rfl⟩
          unfold Agrees
          rw [hpreflight]
          constructor
          · rw [hblocking, hauth]
            exact iff_of_false Bool.false_ne_true fun ⟨_, h⟩ => by cases h
          · intro _
            exact ⟨summary, _, _, hsummary, hreported, hauth, rfl⟩

end Requirement

theorem agrees_iff (I : IdentityRuntime) (server : ServerConfig)
    (principal : AuthenticatedPrincipal) :
    I.Agrees server principal ↔ ¬ I.OutOfReach server := by
  cases hrequirement : server.upstreamAuth.bind (·.connectedAccount) with
  | none =>
      refine iff_of_true (agrees_of_no_requirement principal hrequirement) ?_
      rintro ⟨requirement, hsome, -⟩
      rw [hrequirement] at hsome
      cases hsome
  | some requirement =>
      have hout : I.OutOfReach server ↔ requirement.required = some false ∧
          (server.transport.getD .http ≠ .http ∨ I.isEnabled = false) := by
        simp only [OutOfReach, hrequirement, Option.some.injEq, exists_eq_left']
      rw [hout]
      by_cases hunreachable : server.transport.getD .http ≠ .http ∨ I.isEnabled = false
      · rw [agrees_of_unreachable hrequirement principal hunreachable]
        exact not_congr (and_iff_left hunreachable).symm
      · obtain ⟨htransport, henabled⟩ := not_or.mp hunreachable
        refine iff_of_true ?_ fun h => hunreachable h.2
        exact agrees_of_reachable hrequirement principal (not_not.mp htransport)
          (Bool.not_eq_false _ ▸ henabled)

def optionalAccount : ServerConfig :=
  { id := "search"
    url := "https://search"
    upstreamAuth := some
      { connectedAccount := some { provider := "github", required := some false } } }

theorem not_agrees_optionalAccount :
    ¬ IdentityRuntime.Agrees ⟨some { enabled := false }, none⟩ optionalAccount
      { clientId := "c", tenantId := "t" } := by
  rintro ⟨hblocking, -⟩
  cases hblocking.mpr ⟨_, rfl⟩

end IdentityRuntime

end Conduit.Identity
