import Conduit.Config.Types

namespace Conduit.Connect

structure ConnectProfileConfig where
  id : String
  label : Option String := none
  serverIds : List String

structure ResolvedConnectProfile where
  id : String
  label : String
  servers : List ServerConfig

def profileTargetPrefix : String := "__conduit_profile__:"

def buildProfileTargetId (profileId : String) : String := profileTargetPrefix ++ profileId

def isProfileTargetId (value : String) : Bool :=
  profileTargetPrefix.toList.isPrefixOf value.toList

def extractProfileIdFromTarget (value : String) : Option String :=
  if isProfileTargetId value then
    some (String.ofList (value.toList.drop profileTargetPrefix.toList.length))
  else none

def isAsciiAlphanumeric (c : Char) : Bool := c.isAlphanum

def words : List Char → List (List Char)
  | [] => [[]]
  | c :: rest =>
      match words rest with
      | [] => [[c]]
      | word :: more =>
          if isAsciiAlphanumeric c then (c :: word) :: more else [] :: word :: more

def capitalize : List Char → List Char
  | [] => []
  | c :: rest => c.toUpper :: rest

def titleCaseId (value : String) : String :=
  let title := " ".intercalate
    (((words value.toList).filter (· ≠ [])).map fun word => String.ofList (capitalize word))
  if title = "" then value else title

def builtIn (servers : List ServerConfig) : ResolvedConnectProfile where
  id := "default"
  label := "Default"
  servers := servers

def resolveProfile (servers : List ServerConfig) (profile : ConnectProfileConfig) :
    ResolvedConnectProfile where
  id := profile.id
  label := profile.label.getD (titleCaseId profile.id)
  servers := profile.serverIds.filterMap fun serverId => servers.find? fun s => s.id = serverId

def resolveAllConnectProfiles (servers : List ServerConfig)
    (profiles : List ConnectProfileConfig) : List ResolvedConnectProfile :=
  builtIn servers :: profiles.map (resolveProfile servers)

-- `none` when the source throws on an unknown profile
def resolveConnectProfile (servers : List ServerConfig) (profiles : List ConnectProfileConfig)
    (profileId : String) : Option ResolvedConnectProfile :=
  (resolveAllConnectProfiles servers profiles).find? fun profile => profile.id = profileId

theorem extractProfileIdFromTarget_build (profileId : String) :
    extractProfileIdFromTarget (buildProfileTargetId profileId) = some profileId := by
  unfold extractProfileIdFromTarget buildProfileTargetId isProfileTargetId
  rw [String.toList_append, List.isPrefixOf_iff_prefix.mpr (List.prefix_append _ _)]
  simp

end Conduit.Connect
