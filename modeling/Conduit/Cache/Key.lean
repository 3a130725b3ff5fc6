import Conduit.Config.Host
import Conduit.Utils.DeepSort

namespace Conduit.Cache

open Utils

structure CacheKeyOptions where
  serverId : String
  toolName : String
  args : List (String × Json)
  tenantId : Option String := none
  groupId : Option String := none
  ignoreArgs : List String := []
deriving DecidableEq

def filterArgs (args : List (String × Json)) (ignoreArgs : List String) : List (String × Json) :=
  assignable (args.filter fun e => !ignoreArgs.contains e.1)

def components (options : CacheKeyOptions) : Json :=
  .obj ([("server_id", .str options.serverId), ("tool_name", .str options.toolName),
    ("args", .obj (filterArgs options.args options.ignoreArgs))] ++
      (options.tenantId.map fun tenantId => ("tenant_id", Json.str tenantId)).toList ++
      (options.groupId.map fun groupId => ("group_id", Json.str groupId)).toList)

def generateCacheKey (host : Host) (options : CacheKeyOptions) : String :=
  host.sha256 (deterministicStringify (components options))

def bearerToken? (headerValue : String) : Option String :=
  let rest := headerValue.toList.drop 6
  let token := rest.dropWhile Char.isWhitespace
  if (headerValue.toList.take 6).map Char.toLower = "bearer".toList ∧ token.length < rest.length ∧
      token ≠ [] ∧ '\n' ∉ token then
    some (String.ofList token)
  else none

def splitOn (separator : Char) : List Char → List (List Char)
  | [] => [[]]
  | c :: rest =>
      match splitOn separator rest with
      | [] => [[c]]
      | part :: parts => if c = separator then [] :: part :: parts else (c :: part) :: parts

def padBase64 (payload : List Char) : String :=
  String.ofList (payload ++ List.replicate ((4 - payload.length % 4) % 4) '=')

def extractJwtClaim (host : Host) (token : String) : Option String :=
  match splitOn '.' token.toList with
  | [_, payloadPart, _] =>
      if payloadPart = [] then none
      else
        (host.parseBase64Json (padBase64 payloadPart)).bind fun payload =>
          ((payload.get? "tenant_id").bind Json.asString?).or
            ((payload.get? "sub").bind Json.asString?)
  | _ => none

def hashOpaqueBearerToken (host : Host) (token : String) : String :=
  "bearer:" ++ host.sha256 token

def extractTenantId (host : Host) (headerValue : Option String) : Option String :=
  match headerValue.filter (· ≠ "") with
  | none => none
  | some value =>
      match bearerToken? value with
      | some token => some ((extractJwtClaim host token).getD (hashOpaqueBearerToken host token))
      | none => some value

end Conduit.Cache
