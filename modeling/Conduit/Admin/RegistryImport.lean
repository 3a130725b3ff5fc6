import Conduit.Connect.Registry
import Conduit.Foundation.Fallible
import Conduit.Governance.Runtime
import Conduit.Identity.Runtime

namespace Conduit.Admin

open Connect Governance Identity
open Conduit.Runtime (Env Instant LaunchHost ConnectManagedRuntimeConfig)

structure AdminPlane where
  governanceRuntime : Option GovernanceRuntime
  identityRuntime : IdentityRuntime
  host : LaunchHost
  managedRuntime : ConnectManagedRuntimeConfig := {}

def textField (source : Json) (key : String) : Option String :=
  (source.get? key).bind Json.asString?

def trimmedField (source : Json) (key : String) : Option String :=
  ((textField source key).map Text.trim).filter (· ≠ "")

def normalizePreflightPrincipal (source : Json) : Except String (Option AuthenticatedPrincipal) :=
  match trimmedField source "client_id", trimmedField source "tenant_id" with
  | some clientId, some tenantId => .ok (some { clientId := clientId, tenantId := tenantId })
  | none, none => .ok none
  | _, _ => .error "client_id and tenant_id must be provided together"

def requestedStrategy (body : Json) : Option ConnectRegistryStrategy :=
  match body.get? "strategy" with
  | some (.str "proxy-remote") => some .proxyRemote
  | some (.str "conduit-host-package") => some .conduitHostPackage
  | _ => none

def installModeOf : ConnectRegistryStrategy → ConnectRegistryInstallMode
  | .proxyRemote => .remote
  | .conduitHostPackage => .package

def addText (label : String) (result : Env) (e : String × Json) : Except String Env :=
  match e.2.asString? with
  | some text => .ok (result.set e.1 text)
  | none => .error (label ++ "." ++ e.1 ++ " must be a string")

def normalizeStringMapBody (value : Option Json) (label : String) : Except String (Option Env) :=
  match value with
  | none => .ok none
  | some (.obj fields) =>
      ((Json.propertyOrder fields).foldlM (addText label) OrderedMap.empty).map some
  | some _ => .error (label ++ " must be an object of string values")

structure RegistryGovernance where
  workspaceId : String
  clientId : Option String
  roles : List WorkspaceRole
  decision : GovernanceRegistryDecision

inductive RegistryOutcome where
  | refused (error : String)
  | denied (governance : RegistryGovernance)
  | planned (plan : ConnectRegistryImportPlan) (governance : Option RegistryGovernance)

-- the library as the decision reads it, and as the plan reads it after another ensureFresh
structure LibraryReads where
  decided : RegistryLibrary
  planned : RegistryLibrary

def requestedVersion (body : Json) : String := (textField body "version").getD "latest"

def requestedMode (body : Json) : Option String :=
  (requestedStrategy body).map fun strategy => (installModeOf strategy).name

def importOptions (body : Json) : Except String ConnectRegistryImportOptions := do
  let urlVariables ← normalizeStringMapBody (body.get? "variables") "variables"
  let headers ← normalizeStringMapBody (body.get? "headers") "headers"
  let env ← normalizeStringMapBody (body.get? "env") "env"
  return { strategy := requestedStrategy body, urlVariables, headers, env }

namespace AdminPlane

variable (A : AdminPlane)

def resolveGovernanceWorkspaceId (source : Json) (principal : Option AuthenticatedPrincipal) :
    String :=
  match trimmedField source "workspace_id", principal with
  | some workspaceId, _ => workspaceId
  | none, some principal => A.identityRuntime.resolveWorkspace principal.tenantId
  | none, none => (A.identityRuntime.config.bind (·.defaultWorkspaceId)).getD "default"

def registrySubject (runtime : GovernanceRuntime) (source : Json)
    (principal : Option AuthenticatedPrincipal) (serverName : String)
    (entry : Option RegistryLibraryStoredItem) (installMode : Option String) :
    GovernanceRegistrySubject :=
  let workspaceId := A.resolveGovernanceWorkspaceId source principal
  let clientId := principal.map (·.clientId)
  { workspaceId := workspaceId
    clientId := clientId
    roles := (clientId.map (runtime.getRolesForClient workspaceId)).getD []
    serverName := serverName
    packageTypes := (entry.map (·.item.packageTypes)).getD []
    installMode := installMode }

def evaluateRegistryGovernance (library : RegistryLibrary) (source : Json)
    (serverName version : String) (installModeHint : Option String) :
    Except String (Option RegistryGovernance) :=
  match A.governanceRuntime.filter (·.isEnabled) with
  | none => return none
  | some runtime => do
      let principal ← normalizePreflightPrincipal source
      let entry ← getLibraryItem library serverName version
      let installMode := installModeHint.or (entry.map (·.item.installMode.name))
      let subject := A.registrySubject runtime source principal serverName entry installMode
      return some
        { workspaceId := subject.workspaceId
          clientId := subject.clientId
          roles := subject.roles
          decision := runtime.evaluateRegistryPolicy subject }

-- the part of both registry routes that decides and then plans
def planFromRegistry (now : Instant) (reads : LibraryReads) (body : Json) (serverName : String) :
    RegistryOutcome :=
  let version := requestedVersion body
  match A.evaluateRegistryGovernance reads.decided body serverName version (requestedMode body) with
  | .error error => .refused error
  | .ok governance =>
      match governance.filter fun governance => !governance.decision.allowed with
      | some governance => .denied governance
      | none =>
          match (do
            let options ← importOptions body
            createImportPlan A.host now A.managedRuntime reads.planned serverName version options) with
          | .error error => .refused error
          | .ok plan => .planned plan governance

def registryRoute (needsTarget : Bool) (now : Instant) (reads : LibraryReads) (body : Json) :
    RegistryOutcome :=
  match normalizePreflightPrincipal body with
  | .error error => .refused error
  | .ok _ =>
      match (textField body "server_name").filter (· ≠ "") with
      | none => .refused "server_name is required"
      | some serverName =>
          if needsTarget ∧ (textField body "target").filter (· ≠ "") = none then
            .refused "target is required"
          else A.planFromRegistry now reads body serverName

-- POST /connect/registry/import
def registryImport (now : Instant) (reads : LibraryReads) (body : Json) : RegistryOutcome :=
  A.registryRoute false now reads body

-- POST /connect/registry/install
def registryInstall (now : Instant) (reads : LibraryReads) (body : Json) : RegistryOutcome :=
  A.registryRoute true now reads body

end AdminPlane

end Conduit.Admin
