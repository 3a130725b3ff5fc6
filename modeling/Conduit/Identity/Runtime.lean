import Conduit.Config.Types
import Conduit.Foundation.JsonText

namespace Conduit.Identity

structure IdentityWorkspaceConfig where
  id : String
  label : Option String := none
  tenantIds : Option (List String) := none

structure IdentityConfig where
  enabled : Bool
  defaultWorkspaceId : Option String := none
  workspaces : Option (List IdentityWorkspaceConfig) := none

structure AuthenticatedPrincipal where
  clientId : String
  tenantId : String
  authHeader : Option String := none
  claims : Option (List (String × Json)) := none
deriving DecidableEq

structure ResolvedConnectedAccount where
  id : String
  workspaceId : String
  provider : String
  clientId : Option String := none
  tenantId : Option String := none
  tokenType : String
  accessToken : Option String
  refreshToken : Option String := none
  updatedAt : ℕ
  revokedAt : Option ℕ := none
deriving DecidableEq

structure IdentityStore where
  accounts : List ResolvedConnectedAccount

abbrev Headers := OrderedMap String String

def base64Alphabet : List Char :=
  "ABCDEFGHIJKLMNOPQRSTUVWXYZabcdefghijklmnopqrstuvwxyz0123456789-_".toList

def sextet (n : ℕ) : Char := base64Alphabet.getD n 'A'

def base64url : List ℕ → List Char
  | [] => []
  | [a] => [sextet (a / 4), sextet (a % 4 * 16)]
  | [a, b] => [sextet (a / 4), sextet (a % 4 * 16 + b / 16), sextet (b % 16 * 4)]
  | a :: b :: c :: rest =>
      sextet (a / 4) :: sextet (a % 4 * 16 + b / 16) :: sextet (b % 16 * 4 + c / 64) ::
        sextet (c % 64) :: base64url rest

def encodePayload (payload : Json) : String :=
  String.ofList (base64url (payload.stringify.toUTF8.toList.map UInt8.toNat))

namespace IdentityStore

def matchesAccount (workspaceId provider : String) (clientId tenantId : Option String)
    (account : ResolvedConnectedAccount) : Bool :=
  account.workspaceId = workspaceId && account.provider = provider &&
    account.clientId = clientId && account.tenantId = tenantId && account.revokedAt.isNone

def latest : List ResolvedConnectedAccount → Option ResolvedConnectedAccount
  | [] => none
  | account :: rest =>
      match latest rest with
      | none => some account
      | some best => if account.updatedAt < best.updatedAt then some best else some account

def findOne (store : IdentityStore) (workspaceId provider : String)
    (clientId tenantId : Option String) : Option ResolvedConnectedAccount :=
  latest (store.accounts.filter (matchesAccount workspaceId provider clientId tenantId))

def resolveAccountRow (store : IdentityStore) (workspaceId provider : String)
    (principal : AuthenticatedPrincipal) (binding : ConnectedAccountBinding) :
    Option ResolvedConnectedAccount :=
  match binding with
  | .client => store.findOne workspaceId provider (some principal.clientId) none
  | .tenant => store.findOne workspaceId provider none (some principal.tenantId)
  | .workspace => store.findOne workspaceId provider none none
  | .clientOrWorkspace =>
      (store.findOne workspaceId provider (some principal.clientId) none).or
        (store.findOne workspaceId provider none none)

end IdentityStore

structure IdentityRuntime where
  config : Option IdentityConfig
  store : Option IdentityStore

def defaultClaimsHeader : String := "X-Conduit-Identity"

def defaultHeaderTemplates : OrderedMap String String :=
  .set .empty "Authorization" "\x7b\x7btoken_type\x7d\x7d \x7b\x7baccess_token\x7d\x7d"

def trim (s : String) : String :=
  String.ofList ((s.toList.dropWhile Char.isWhitespace).reverse.dropWhile Char.isWhitespace).reverse

def isWordChar (c : Char) : Bool := c.isAlphanum || c = '_'

def placeholder? (text : List Char) : Option (List Char × List Char) :=
  match text with
  | '\x7b' :: '\x7b' :: rest =>
      let key := rest.takeWhile isWordChar
      match key, rest.drop key.length with
      | _ :: _, '\x7d' :: '\x7d' :: after => some (key, after)
      | _, _ => none
  | _ => none

def interpolate (values : OrderedMap String String) : ℕ → List Char → List Char
  | 0, text => text
  | _ + 1, [] => []
  | fuel + 1, c :: rest =>
      match placeholder? (c :: rest) with
      | some (key, after) =>
          ((values.get? (String.ofList key)).getD "").toList ++ interpolate values fuel after
      | none => c :: interpolate values fuel rest

def interpolateTemplate (template : String) (values : OrderedMap String String) : String :=
  String.ofList (interpolate values template.toList.length template.toList)

namespace IdentityRuntime

variable (I : IdentityRuntime)

def isEnabled : Bool := (I.config.any (·.enabled)) && I.store.isSome

-- the id of the resolved workspace
def resolveWorkspace (tenantId : String) : String :=
  let workspaces := (I.config.bind (·.workspaces)).getD []
  match workspaces.find? fun w => (w.tenantIds.getD []).contains tenantId with
  | some workspace => workspace.id
  | none =>
      match (I.config.bind (·.defaultWorkspaceId)).filter (· ≠ "") with
      | some workspaceId => workspaceId
      | none => if tenantId = "" then "default" else tenantId

def buildTemplateValues (principal : AuthenticatedPrincipal) (workspaceId accessToken : String)
    (account : ResolvedConnectedAccount) : OrderedMap String String :=
  let values := OrderedMap.empty
    |>.set "access_token" accessToken
    |>.set "token_type" account.tokenType
    |>.set "account_id" account.id
    |>.set "workspace_id" workspaceId
    |>.set "tenant_id" principal.tenantId
    |>.set "client_id" principal.clientId
    |>.set "provider" account.provider
  match account.refreshToken.filter (· ≠ "") with
  | some refreshToken => values.set "refresh_token" refreshToken
  | none => values

def transportName : TransportType → String
  | .http => "http"
  | .stdio => "stdio"

-- the account with its access token; the error is the text of the source's exception
def resolveConnectedAccount (server : ServerConfig) (principal : AuthenticatedPrincipal)
    (workspaceId : String) : Except String (Option (ResolvedConnectedAccount × String)) :=
  match server.upstreamAuth.bind (·.connectedAccount) with
  | none => .ok none
  | some requirement =>
      let transport := server.transport.getD .http
      if transport ≠ .http then
        .error (s!"Server \"{server.id}\" uses {transportName transport} transport " ++
          "and cannot resolve per-request connected accounts")
      else if !I.isEnabled then
        .error (s!"Identity plane is disabled but server \"{server.id}\" " ++
          s!"requires provider \"{requirement.provider}\"")
      else
        match I.store.bind fun store => store.resolveAccountRow workspaceId requirement.provider
            principal (requirement.binding.getD .clientOrWorkspace) with
        | some account =>
            match account.accessToken with
            | some accessToken => .ok (some (account, accessToken))
            | none => .error s!"Missing access token secret for account \"{account.id}\""
        | none =>
            if requirement.required = some false then .ok none
            else
              .error (s!"No connected account for provider \"{requirement.provider}\" " ++
                s!"in workspace \"{workspaceId}\"")

def identityPayload (principal : AuthenticatedPrincipal) (workspaceId : String) : Json :=
  .obj ([("client_id", .str principal.clientId), ("tenant_id", .str principal.tenantId),
    ("workspace_id", .str workspaceId)] ++
      (principal.claims.map fun claims => ("claims", Json.obj claims)).toList)

def forwardedIdentity (server : ServerConfig) (principal : AuthenticatedPrincipal)
    (workspaceId : String) : Headers :=
  match server.upstreamAuth.bind (·.forwardIdentity) with
  | none => .empty
  | some forward =>
      match forward.mode with
      | some .bearer =>
          match principal.authHeader.filter (· ≠ "") with
          | some authHeader => .set .empty "Authorization" authHeader
          | none => .empty
      | some .claimsHeader =>
          let headerName := ((forward.headerName.map trim).filter (· ≠ "")).getD defaultClaimsHeader
          .set .empty headerName (encodePayload (identityPayload principal workspaceId))
      | _ => .empty

def resolveUpstreamHeaders (server : ServerConfig) (principal : AuthenticatedPrincipal) :
    Except String Headers := do
  let workspaceId := I.resolveWorkspace principal.tenantId
  let headers := forwardedIdentity server principal workspaceId
  match ← I.resolveConnectedAccount server principal workspaceId with
  | none => return headers
  | some (account, accessToken) =>
      let headerTemplates :=
        ((server.upstreamAuth.bind (·.connectedAccount)).bind (·.headers)).getD
          defaultHeaderTemplates
      let values := buildTemplateValues principal workspaceId accessToken account
      return headerTemplates.entries.foldl
        (fun headers (headerName, template) =>
          headers.set headerName (interpolateTemplate template values)) headers

end IdentityRuntime

end Conduit.Identity
