import Conduit.Connect.Export
import Conduit.Foundation.LineSearch

namespace Conduit.Connect

open LineSearch

section Text

def trimStart (text : List Char) : List Char := text.dropWhile Text.isSpace

def trimEnd (text : List Char) : List Char := (text.reverse.dropWhile Text.isSpace).reverse

def endsWithNewline (text : List Char) : Bool := text.getLast? = some '\n'

-- the text from the next line terminator on
def lineEnd (text : List Char) : List Char := text.dropWhile fun c => !isLineTerminator c

end Text

section Relay

structure CommandSpec where
  command : String
  args : List String

-- the interpreter that runs the gateway, and its entry script
structure Runtime where
  execPath : String
  scriptPath : String

def getRelayCommandSpec (runtime : Runtime) (installId serverId : String) : CommandSpec where
  command := runtime.execPath
  args := [runtime.scriptPath, "connect", "relay", "--install-id", installId, "--server-id", serverId]

end Relay

section ManagedServers

-- the text of `[\s\S]*?` up to the next line that begins with a bracket, or to the end
def afterSection : List Char → List Char
  | [] => []
  | '\n' :: '[' :: rest => '\n' :: '[' :: rest
  | _ :: rest => afterSection rest

def sectionAfter (header text : List Char) : Option (List Char) :=
  (Text.afterPrefix (header ++ ['\n']) text).map afterSection

-- every match is replaced by the line break it begins with, at the start of the text by nothing
def replaceSections (header : List Char) : ℕ → Bool → List Char → List Char
  | 0, _, text => text
  | fuel + 1, start, text =>
      match if start then sectionAfter header text else none with
      | some rest => replaceSections header fuel false rest
      | none =>
          match text with
          | [] => []
          | c :: rest =>
              match if c = '\n' then sectionAfter header rest else none with
              | some rest' => (if start then [] else ['\n']) ++ replaceSections header fuel false rest'
              | none => c :: replaceSections header fuel false rest

-- runs of three line feeds and more become two
def collapseBlankLines : ℕ → List Char → List Char
  | _, [] => []
  | run, c :: rest =>
      if c = '\n' then
        if run < 2 then c :: collapseBlankLines (run + 1) rest else collapseBlankLines run rest
      else c :: collapseBlankLines 0 rest

def managedHeader (serverAlias : String) : String := "[mcp_servers." ++ toTomlKey serverAlias ++ "]"

def removeCodexManagedServer (content : List Char) (serverAlias : String) : List Char :=
  collapseBlankLines 0
    (replaceSections (managedHeader serverAlias).toList (content.length + 1) true content)

def codexBlock (runtime : Runtime) (installId : String) (server : ConnectServerBinding) : String :=
  "\n".intercalate
    (let relay := getRelayCommandSpec runtime installId server.id
    [managedHeader server.serverAlias,
      "command = " ++ toTomlString relay.command,
      "args = " ++ toTomlArray relay.args,
      "env = " ++ toTomlInlineStringTable []])

def codexBlocks (runtime : Runtime) (installId : String) (servers : List ConnectServerBinding) :
    String :=
  "\n\n".intercalate (servers.map (codexBlock runtime installId))

-- the text that is written over the file's, which is empty for a file that does not exist
def mergeCodexToml (runtime : Runtime) (installId : String) (servers : List ConnectServerBinding)
    (file : Option String) : String :=
  let content := servers.foldl
    (fun content server => removeCodexManagedServer content server.serverAlias)
    (file.getD "").toList
  let blocks := codexBlocks runtime installId servers
  if trimEnd content = [] then blocks ++ "\n"
  else String.ofList (trimEnd content) ++ "\n\n" ++ blocks ++ "\n"

end ManagedServers

section ProjectTrust

variable (normalizedProjectDir : String)

def trustSectionHeader : String := "[projects." ++ toTomlString normalizedProjectDir ++ "]"

def trustLine : String := "trust_level = \"trusted\""

def dottedTrustKey : String := "projects." ++ toTomlString normalizedProjectDir ++ ".trust_level"

-- `key\s*=\s*.*` at the beginning of a text: what follows the match
def matchAssignment (key : String) (text : List Char) : Option (List Char) :=
  (Text.afterPrefix key.toList text).bind fun rest =>
    match trimStart rest with
    | '=' :: value => some (lineEnd (trimStart value))
    | _ => none

-- with the flag m the end `$` of the lazy body is the end of its first line
def matchTrustSection (text : List Char) : Option (List Char × List Char) :=
  (Text.afterPrefix ((trustSectionHeader normalizedProjectDir).toList ++ ['\n']) text).map fun rest =>
    (rest.takeWhile fun c => !isLineTerminator c, lineEnd rest)

-- `^trust_level\s*=.*$`
def matchTrustLevel (text : List Char) : Option (List Char) :=
  (Text.afterPrefix "trust_level".toList text).bind fun rest =>
    match trimStart rest with
    | '=' :: value => some (lineEnd value)
    | _ => none

def updateTrustBody (sectionBody : List Char) : List Char :=
  match findLine matchTrustLevel true sectionBody with
  | some (before, rest) => before ++ trustLine.toList ++ rest
  | none =>
      trimEnd sectionBody ++ (if trimEnd (trimStart sectionBody) = [] then [] else ['\n']) ++
        trustLine.toList ++ ['\n']

def trustBlock : List Char :=
  (trustSectionHeader normalizedProjectDir).toList ++ '\n' :: trustLine.toList ++ ['\n']

def trustProject (content : List Char) : List Char :=
  match findLine (matchAssignment (dottedTrustKey normalizedProjectDir)) true content with
  | some (before, rest) =>
      before ++ (dottedTrustKey normalizedProjectDir ++ " = \"trusted\"").toList ++ rest
  | none =>
      match findLine (matchTrustSection normalizedProjectDir) true content with
      | some (before, sectionBody, rest) =>
          before ++ (trustSectionHeader normalizedProjectDir).toList ++
            '\n' :: updateTrustBody sectionBody ++ rest
      | none =>
          if trimEnd content = [] then trustBlock normalizedProjectDir
          else trimEnd content ++ '\n' :: '\n' :: trustBlock normalizedProjectDir

def endLine (content : List Char) : List Char :=
  if endsWithNewline content then content else content ++ ['\n']

-- the text that is written over the user's file
def ensureCodexProjectTrusted (file : Option String) : String :=
  String.ofList (endLine (trustProject normalizedProjectDir (file.getD "").toList))

end ProjectTrust

end Conduit.Connect
