import Conduit.Config.Host
import Conduit.Foundation.JsonText
import Conduit.Foundation.OrderedMap

namespace Conduit.Auth

inductive AuthMethod where
  | jwt
  | apiKey
  | none
deriving DecidableEq, Repr

structure ApiKeyEntry where
  key : String
  clientId : String
  tenantId : String
deriving DecidableEq, Repr

structure AuthConfig where
  method : AuthMethod
  jwksUrl : Option String := .none
  issuer : Option String := .none
  audience : Option String := .none
  tenantClaim : Option String := .none
  clientClaim : Option String := .none
  apiKeys : Option (List ApiKeyEntry) := .none
  algorithms : Option (List String) := .none
deriving DecidableEq, Repr

structure AuthResult where
  authenticated : Bool
  clientId : String
  tenantId : String
  claims : Option (List (String × Json)) := .none
  error : Option String := .none

abbrev Headers := OrderedMap String String

def rejected (error : String) : AuthResult where
  authenticated := false
  clientId := ""
  tenantId := ""
  error := some error

def authorizationHeader (headers : Headers) : Option String :=
  (headers.get? "authorization").or (headers.get? "Authorization")

def bearer? (header : String) : Option String :=
  if "Bearer ".toList.isPrefixOf header.toList then some (String.ofList (header.toList.drop 7))
  else .none

def presentedKey (headers : Headers) : Option String :=
  match (authorizationHeader headers).bind bearer? with
  | some key => some key
  | .none => (headers.get? "x-api-key").or (headers.get? "X-API-Key")

-- every key is compared, so that the last match is kept
def matchApiKey (key : String) (entries : List ApiKeyEntry) : Option ApiKeyEntry :=
  entries.foldl (fun found entry => if entry.key = key then some entry else found) .none

def authenticateApiKey (headers : Headers) (config : AuthConfig) : AuthResult :=
  match presentedKey headers with
  | .none => rejected "Clé API manquante"
  | some key =>
      if key = "" then rejected "Clé API manquante"
      else
        match matchApiKey key (config.apiKeys.getD []) with
        | .none => rejected "Clé API invalide"
        | some entry =>
            { authenticated := true, clientId := entry.clientId, tenantId := entry.tenantId }

def defaultAlgorithms : List String :=
  ["RS256", "RS384", "RS512", "PS256", "PS384", "PS512", "ES256", "ES384", "ES512", "EdDSA"]

def verifyOptions (config : AuthConfig) : JwtVerifyOptions where
  issuer := config.issuer
  audience := config.audience
  clockTolerance := 60
  algorithms := config.algorithms.getD defaultAlgorithms

def claim (payload : List (String × Json)) (name default : String) : String :=
  match Json.field payload name with
  | .none => default
  | some value => value.toJsString

def authenticateJwt (host : Host) (headers : Headers) (config : AuthConfig) : AuthResult :=
  match (authorizationHeader headers).bind bearer? with
  | .none => rejected "Token Bearer manquant"
  | some token =>
      match config.jwksUrl.filter (· ≠ "") with
      | .none => rejected "JWKS URL non configurée"
      | some jwksUrl =>
          match host.jwtVerify token jwksUrl (verifyOptions config) with
          | .error message => rejected message
          | .ok payload =>
              let clientId := claim payload (config.clientClaim.getD "sub") ""
              if clientId = "" then
                rejected ("Claim manquant : " ++ config.clientClaim.getD "sub")
              else
                { authenticated := true
                  clientId := clientId
                  tenantId := claim payload (config.tenantClaim.getD "org_id") "default"
                  claims := some payload }

def authenticate (host : Host) (headers : Headers) (config : AuthConfig) : AuthResult :=
  match config.method with
  | .none => { authenticated := true, clientId := "anonymous", tenantId := "default" }
  | .apiKey => authenticateApiKey headers config
  | .jwt => authenticateJwt host headers config

end Conduit.Auth
