import Conduit.Connect.Profiles
import Conduit.Foundation.Fallible
import Conduit.Runtime.Managed

namespace Conduit.Connect

open Conduit.Runtime (Env StdioServerConfig)

section Values

-- value ?? ..
def given (value : Option Json) : Option Json := value.filter (· ≠ .null)

def truthyField (source : Json) (key : String) : Option Json :=
  (source.get? key).filter fun value => value.truthy

-- what the spread syntax and for..of iterate over
def elements? : Json → Option (List Json)
  | .arr items => some items
  | .str text => some (text.toList.map fun c => .str (String.singleton c))
  | _ => none

def mappedText (value : Json) : Except String (List String) :=
  match value with
  | .arr items => .ok (items.map Json.toJsString)
  | _ => .error "map is not a function"

def entriesText (value : Json) : Env :=
  (Json.propertyOrder value.spread).foldl (fun env e => env.set e.1 e.2.toJsString) OrderedMap.empty

end Values

section Server

def descriptorTransport (server : Json) : Json :=
  (given (server.get? "transport")).getD
    (if (truthyField server "command").isSome then .str "stdio" else .str "http")

def descriptorUrl (server transport : Json) (id : String) : String :=
  if transport = .str "http" then ((given (server.get? "url")).map Json.toJsString).getD ""
  else
    ((given (server.get? "url")).map Json.toJsString).getD
      ("stdio://" ++ ((given (server.get? "command")).map Json.toJsString).getD id)

-- cache settings and time limit are left out
def describedServer (server : Json) (id : String) : Except String StdioServerConfig :=
  let transport := descriptorTransport server
  let url := descriptorUrl server transport id
  if transport = .str "stdio" then
    match truthyField server "command" with
    | none =>
        .error ("Descriptor server \"" ++ id ++ "\" is missing \"command\" for stdio transport")
    | some command => do
        let args ← (truthyField server "args").mapM mappedText
        return { id := id
                 url := url
                 transport := some .stdio
                 command := some command.toJsString
                 args := args
                 env := (truthyField server "env").map entriesText }
  else if (truthyField server "url").isNone then
    .error ("Descriptor server \"" ++ id ++ "\" is missing \"url\" for http transport")
  else .ok { id := id, url := url }

def normalizeDescriptorServer (server : Json) : Except String StdioServerConfig :=
  match (truthyField server "id").bind Json.asString? with
  | none => .error "Descriptor servers must define a non-empty string id"
  | some id => do
      let result ← describedServer server id
      let replicas ← (truthyField server "replicas").mapM mappedText
      return { result with
        headers := (truthyField server "headers").map entriesText
        replicas := replicas.getD [] }

end Server

section Import

structure NormalizedDescriptorImport where
  name : String
  servers : List StdioServerConfig
  profiles : List ConnectProfileConfig

abbrev ProfileMap := OrderedMap String ConnectProfileConfig

def isPlainObject : Json → Bool
  | .obj _ => true
  | _ => false

def descriptorServers (raw : Json) : List Json :=
  (truthyField raw "server").toList ++
    (match raw.get? "servers" with
      | some (.arr servers) => servers
      | _ => [])

def joinProfile (serverId : String) (profiles : ProfileMap) (profileId : Json) :
    Except String ProfileMap :=
  match profileId with
  | .str profileId =>
      let profile := (profiles.get? profileId).getD
        { id := profileId, label := some (titleCaseId profileId), serverIds := [] }
      .ok (profiles.set profileId
        (if profile.serverIds.contains serverId then profile
          else { profile with serverIds := profile.serverIds ++ [serverId] }))
  | _ => .error "split is not a function"

def iterated (value : Option Json) : Except String (List Json) :=
  match given value with
  | none => .ok []
  | some value =>
      match elements? value with
      | some items => .ok items
      | none => .error "value is not iterable"

def joinProfiles (profiles : ProfileMap) (server : Json) : Except String ProfileMap := do
  let profileIds ← iterated (server.get? "profile_ids")
  profileIds.foldlM (joinProfile (((server.get? "id").bind Json.asString?).getD "")) profiles

def mergeProfile (serverIds : List String) (profiles : ProfileMap) (profile : Json) :
    Except String ProfileMap :=
  match (truthyField profile "id").bind Json.asString? with
  | none => .error "Descriptor profiles must define a non-empty string id"
  | some id =>
      let listed :=
        match profile.get? "server_ids" with
        | some (.arr items) => items.filterMap Json.asString?
        | _ => []
      let entry := (profiles.get? id).getD { id := id, serverIds := [] }
      .ok (profiles.set id
        { id := id
          label := ((truthyField profile "label").map Json.toJsString).or
            (entry.label.filter (· ≠ ""))
          serverIds := ((entry.serverIds ++ listed).filter serverIds.contains).eraseDups })

def normalizeDescriptor (descriptor : Json) : Except String NormalizedDescriptorImport :=
  if !isPlainObject descriptor then .error "Descriptor must be a JSON object"
  else
    let described := descriptorServers descriptor
    if described = [] then .error "Descriptor must define at least one server"
    else do
      let servers ← described.mapM normalizeDescriptorServer
      let joined ← described.foldlM joinProfiles OrderedMap.empty
      let raw ← iterated (descriptor.get? "profiles")
      let merged ← raw.foldlM (mergeProfile (servers.map (·.id))) joined
      return { name := ((given (descriptor.get? "name")).map Json.toJsString).getD
                 "Imported descriptor"
               servers := servers
               profiles := merged.values.filter fun profile => profile.serverIds ≠ [] }

end Import

end Conduit.Connect
