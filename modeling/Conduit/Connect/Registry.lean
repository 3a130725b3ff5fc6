import Conduit.Foundation.Fallible
import Conduit.Foundation.Text
import Conduit.Runtime.Managed
import Mathlib.Data.List.Sort

namespace Conduit.Connect

open Conduit.Runtime (Env Instant LaunchHost StdioServerConfig ConnectManagedRuntimeConfig PackageInput)

inductive RequirementSource where
  | remoteVariable
  | remoteHeader
  | packageEnv
deriving DecidableEq, Repr

def RequirementSource.name : RequirementSource → String
  | .remoteVariable => "remote-variable"
  | .remoteHeader => "remote-header"
  | .packageEnv => "package-env"

structure ConnectRegistryRequirementField where
  key : String
  required : Bool
  source : RequirementSource
  defaultValue : Option String := none
  choices : Option (List String) := none

structure ConnectRegistryRequirements where
  urlVariables : List ConnectRegistryRequirementField := []
  headers : List ConnectRegistryRequirementField := []
  env : List ConnectRegistryRequirementField := []

-- the parts that the source checks field by field are the JSON of the document
structure OfficialRegistryPackage where
  registryType : Option String := none
  identifier : Option String := none
  version : Option String := none
  runtimeArguments : Option (List Json) := none
  environmentVariables : Option (List Json) := none

structure OfficialRegistryRemote where
  url : Option String := none
  urlVariables : Option (OrderedMap String Json) := none
  headers : Option (List Json) := none

structure OfficialRegistryServerDocument where
  name : String
  version : String
  packages : Option (List OfficialRegistryPackage) := none
  remotes : Option (List OfficialRegistryRemote) := none

structure OfficialRegistryMeta where
  status : Option String := none
  isLatest : Option Bool := none

inductive ConnectRegistryInstallMode where
  | remote
  | package
  | hybrid
deriving DecidableEq, Repr

def ConnectRegistryInstallMode.name : ConnectRegistryInstallMode → String
  | .remote => "remote"
  | .package => "package"
  | .hybrid => "hybrid"

-- a strategy that imports; `none` stands for the manual one
inductive ConnectRegistryStrategy where
  | proxyRemote
  | conduitHostPackage
deriving DecidableEq, Repr

def ConnectRegistryStrategy.name : ConnectRegistryStrategy → String
  | .proxyRemote => "proxy-remote"
  | .conduitHostPackage => "conduit-host-package"

inductive ConnectRegistryReadiness where
  | ready
  | needsConfig
  | manual
deriving DecidableEq, Repr

inductive ConnectRegistryPackageType where
  | npm
  | pypi
  | nuget
  | oci
  | mcpb
  | unknown
deriving DecidableEq, Repr

def ConnectRegistryPackageType.name : ConnectRegistryPackageType → String
  | .npm => "npm"
  | .pypi => "pypi"
  | .nuget => "nuget"
  | .oci => "oci"
  | .mcpb => "mcpb"
  | .unknown => "unknown"

section Document

variable (server : OfficialRegistryServerDocument)

def hasRemotes : Bool := (server.remotes.getD []) ≠ []

def hasPackages : Bool := (server.packages.getD []) ≠ []

def deriveInstallMode : ConnectRegistryInstallMode :=
  if hasRemotes server && hasPackages server then .hybrid
  else if hasRemotes server then .remote
  else .package

def normalizePackageType (value : Option String) : ConnectRegistryPackageType :=
  match value with
  | some "npm" => .npm
  | some "pypi" => .pypi
  | some "nuget" => .nuget
  | some "oci" => .oci
  | some "mcpb" => .mcpb
  | _ => .unknown

def uniqueStrings (values : List String) : List String :=
  (values.filter (· ≠ "")).eraseDups.insertionSort (· ≤ ·)

def listPackageTypes : List String :=
  let values := uniqueStrings ((server.packages.getD []).map fun pkg =>
    (normalizePackageType pkg.registryType).name)
  if values = [] then ["unknown"] else values

def isTrue (value : Option Json) : Bool := value = some (.bool true)

def namedFields (source : RequirementSource) (fields : Option (List Json)) :
    List ConnectRegistryRequirementField :=
  (fields.getD []).filterMap fun field =>
    match (field.get? "name").bind Json.asString? with
    | none => none
    | some name =>
        if Text.trim name = "" then none
        else some { key := name, required := isTrue (field.get? "isRequired"), source := source }

def urlVariableChoices (declared : Json) : Option (List String) :=
  match declared.get? "choices" with
  | some (.arr choices) => some (choices.filterMap Json.asString?)
  | _ => none

def buildRemoteRequirements (remote : OfficialRegistryRemote) : ConnectRegistryRequirements where
  urlVariables := (Json.propertyOrder ((remote.urlVariables.map (·.entries)).getD [])).map fun e =>
    { key := e.1
      required := isTrue (e.2.get? "isRequired")
      source := .remoteVariable
      defaultValue := (e.2.get? "default").bind Json.asString?
      choices := urlVariableChoices e.2 }
  headers := namedFields .remoteHeader remote.headers

def buildPackageRequirements (pkg : OfficialRegistryPackage) : ConnectRegistryRequirements where
  env := namedFields .packageEnv pkg.environmentVariables

def countRequirements (requirements : ConnectRegistryRequirements) : ℕ :=
  (requirements.urlVariables.filter (·.required)).length +
    (requirements.headers.filter (·.required)).length +
    (requirements.env.filter (·.required)).length

structure ImportOption where
  strategy : ConnectRegistryStrategy
  readiness : ConnectRegistryReadiness
  requirements : ConnectRegistryRequirements
  remote : Option OfficialRegistryRemote := none
  package : Option OfficialRegistryPackage := none

def readinessOf (requirements : ConnectRegistryRequirements) : ConnectRegistryReadiness :=
  if countRequirements requirements > 0 then .needsConfig else .ready

def canAutoImportPackage (pkg : OfficialRegistryPackage) : Bool :=
  let packageType := normalizePackageType pkg.registryType
  packageType = .npm || packageType = .pypi || packageType = .oci

def remoteOption (remote : OfficialRegistryRemote) : ImportOption :=
  let requirements := buildRemoteRequirements remote
  { strategy := .proxyRemote
    readiness := readinessOf requirements
    requirements := requirements
    remote := some remote }

def packageOption (pkg : OfficialRegistryPackage) : ImportOption :=
  let requirements := buildPackageRequirements pkg
  { strategy := .conduitHostPackage
    readiness := readinessOf requirements
    requirements := requirements
    package := some pkg }

def compareImportOptions (a b : ImportOption) : ℤ :=
  let readinessRank := if a.readiness = b.readiness then 0 else if a.readiness = .ready then -1 else 1
  if readinessRank ≠ 0 then readinessRank
  else if a.strategy = b.strategy then 0
  else if a.strategy = .proxyRemote then -1
  else 1

def deriveImportOptions : List ImportOption :=
  let remote := (server.remotes.getD []).find? fun candidate => candidate.url.isSome
  let package := (server.packages.getD []).find? canAutoImportPackage
  ((remote.map remoteOption).toList ++ (package.map packageOption).toList).insertionSort
    fun a b => compareImportOptions a b ≤ 0

def findImportOption (strategy : ConnectRegistryStrategy) : Option ImportOption :=
  (deriveImportOptions server).find? fun option => option.strategy = strategy

structure ImportSupport where
  configurableImport : Bool
  strategy : Option ConnectRegistryStrategy
  reason : Option String := none

def deriveImportSupport : ImportSupport :=
  match (deriveImportOptions server).head? with
  | some preferred =>
      { configurableImport := true
        strategy := some preferred.strategy
        reason :=
          if preferred.readiness = .needsConfig then
            some "Required headers, variables, or environment values must be collected before import"
          else none }
  | none =>
      { configurableImport := false
        strategy := none
        reason := some
          "This registry entry cannot yet be mapped automatically into a managed Conduit runtime" }

end Document

section Library

structure ConnectRegistryLibraryItem where
  status : String
  isLatest : Bool
  installMode : ConnectRegistryInstallMode
  packageTypes : List String

def scoreOfficialEntry (server : OfficialRegistryServerDocument) (published : OfficialRegistryMeta) :
    ConnectRegistryLibraryItem where
  status := published.status.getD "unknown"
  isLatest := published.isLatest = some true
  installMode := deriveInstallMode server
  packageTypes := listPackageTypes server

structure RegistryLibraryStoredItem where
  raw : OfficialRegistryServerDocument
  published : OfficialRegistryMeta

def RegistryLibraryStoredItem.item (entry : RegistryLibraryStoredItem) :
    ConnectRegistryLibraryItem :=
  scoreOfficialEntry entry.raw entry.published

-- the library as ensureFresh leaves it, or the error of a refresh that found nothing
abbrev RegistryLibrary := Except String (List RegistryLibraryStoredItem)

def findOfficialServer (cached : List RegistryLibraryStoredItem) (name version : String) :
    Option RegistryLibraryStoredItem :=
  if version = "latest" then cached.find? fun entry => entry.raw.name = name && entry.item.isLatest
  else cached.find? fun entry => entry.raw.name = name && entry.raw.version = version

def getLibraryItem (library : RegistryLibrary) (serverName version : String) :
    Except String (Option RegistryLibraryStoredItem) := do
  let cached ← library
  return findOfficialServer cached serverName version

end Library

section Templates

def hexDigit (n : ℕ) : Char := "0123456789ABCDEF".toList.getD n '0'

def encodeByte (byte : ℕ) : List Char := ['%', hexDigit (byte / 16), hexDigit (byte % 16)]

def isUriUnreserved (c : Char) : Bool := c.isAlphanum || "-_.!~*'()".toList.contains c

def encodeURIComponent (value : String) : String :=
  String.ofList (value.toList.flatMap fun c =>
    if isUriUnreserved c then [c]
    else (String.singleton c).toUTF8.toList.flatMap fun byte => encodeByte byte.toNat)

-- the first argument counts the characters of a match that are still to be skipped
def replaceFrom (needle value : List Char) : ℕ → List Char → List Char
  | _, [] => []
  | skip + 1, _ :: rest => replaceFrom needle value skip rest
  | 0, c :: rest =>
      if needle.isPrefixOf (c :: rest) then value ++ replaceFrom needle value (needle.length - 1) rest
      else c :: replaceFrom needle value 0 rest

def replaceAll (text needle value : String) : String :=
  String.ofList (replaceFrom needle.toList value.toList 0 text.toList)

-- the names between single braces; the first argument is the group that is open
def placeholders : Option (List Char) → List Char → List String
  | _, [] => []
  | group, c :: rest =>
      if c = '\x7b' then placeholders (some []) rest
      else if c = '\x7d' then
        match group with
        | some (x :: xs) => String.ofList (x :: xs).reverse :: placeholders none rest
        | _ => placeholders none rest
      else placeholders (group.map (c :: ·)) rest

def resolveRequirementValue (requirement : ConnectRegistryRequirementField)
    (supplied : Option String) : Except String (Option String) :=
  let value := ((supplied.map Text.trim).filter (· ≠ "")).or requirement.defaultValue
  let choices := requirement.choices.getD []
  if (value = none ∨ value = some "") ∧ requirement.required = true then
    throw ("Missing required " ++ requirement.source.name ++ " value \"" ++ requirement.key ++ "\"")
  else
    match value.filter (· ≠ "") with
    | none => return value
    | some chosen =>
        if choices ≠ [] ∧ chosen ∉ choices then
          throw ("Invalid value for \"" ++ requirement.key ++ "\". Expected one of: " ++
            ", ".intercalate choices)
        else return value

def suppliedValue (supplied : Option Env) (key : String) : Option String :=
  supplied.bind fun supplied => supplied.get? key

def resolveRemoteUrl (template : String) (requirements : List ConnectRegistryRequirementField)
    (supplied : Option Env) : Except String String := do
  let resolved ← requirements.foldlM (fun resolved requirement => do
    match ← resolveRequirementValue requirement (suppliedValue supplied requirement.key) with
    | none => return resolved
    | some value =>
        return replaceAll resolved ("\x7b" ++ requirement.key ++ "\x7d") (encodeURIComponent value))
    template
  let unresolved := placeholders none resolved.toList
  if unresolved ≠ [] then
    throw ("Missing URL template values for " ++ ", ".intercalate unresolved.eraseDups)
  else return resolved

def resolveRequirementMap (requirements : List ConnectRegistryRequirementField)
    (supplied : Option Env) : Except String Env :=
  requirements.foldlM (fun resolved requirement => do
    match ← resolveRequirementValue requirement (suppliedValue supplied requirement.key) with
    | none => return resolved
    | some value => return resolved.set requirement.key value)
    OrderedMap.empty

def normalizeRuntimeFlag (value : String) : String :=
  let trimmed := Text.trim value
  if trimmed = "" then ""
  else if trimmed.toList.head? = some '-' then trimmed
  else if trimmed.length = 1 then "-" ++ trimmed
  else "--" ++ trimmed

def packageRuntimeArgument (runtimeArg : Json) : List String :=
  let type := ((runtimeArg.get? "type").bind Json.asString?).getD "positional"
  let name := Text.trim (((runtimeArg.get? "name").bind Json.asString?).getD "")
  let value := ((runtimeArg.get? "value").bind Json.asString?).getD ""
  if type = "positional" then if Text.trim value = "" then [] else [value]
  else if (type = "flag" ∨ type = "switch") ∧ (name ≠ "" ∨ value ≠ "") then
    let flag := normalizeRuntimeFlag (if name = "" then value else name)
    if flag = "" then [] else [flag]
  else if (type = "option" ∨ type = "named") ∧ name ≠ "" ∧ Text.trim value ≠ "" then
    let flag := normalizeRuntimeFlag name
    if flag = "" then [] else [flag, value]
  else []

def isObject : Json → Bool
  | .obj _ => true
  | .arr _ => true
  | _ => false

def buildPackageRuntimeArguments (pkg : OfficialRegistryPackage) : List String :=
  ((pkg.runtimeArguments.getD []).filter isObject).flatMap packageRuntimeArgument

end Templates

section Plan

structure ConnectRegistryImportOptions where
  strategy : Option ConnectRegistryStrategy := none
  urlVariables : Option Env := none
  headers : Option Env := none
  env : Option Env := none

structure ConnectRegistryImportPlan where
  server : StdioServerConfig
  name : String
  version : String
  strategy : ConnectRegistryStrategy

def isServerIdChar (c : Char) : Bool := ('a' ≤ c && c ≤ 'z') || ('0' ≤ c && c ≤ '9')

-- runs of other characters become one dash, and none stays at either end
def dashed : List Char → List Char
  | [] => []
  | c :: rest =>
      if isServerIdChar c then c :: dashed rest
      else
        match dashed rest with
        | [] => []
        | d :: rest => if d = '-' then d :: rest else '-' :: d :: rest

def toConduitServerId (name : String) : String :=
  let normalized := String.ofList ((dashed (Text.toLowerCase name).toList).dropWhile (· = '-'))
  if normalized = "" then "registry-server" else normalized

variable (host : LaunchHost) (now : Instant) (managedRuntime : ConnectManagedRuntimeConfig)

def buildServerConfigFromOfficialServer (server : OfficialRegistryServerDocument)
    (option : ImportOption) (config : ConnectRegistryImportOptions) :
    Except String StdioServerConfig :=
  let id := toConduitServerId server.name
  match (option.remote.bind (·.url)).filter (· ≠ ""), option.package with
  | some template, _ => do
      let url ← resolveRemoteUrl template option.requirements.urlVariables config.urlVariables
      let headers ← resolveRequirementMap option.requirements.headers config.headers
      return { id := id, url := url, headers := Runtime.nonEmptyEnv (some headers) }
  | none, some pkg => do
      let identifier := pkg.identifier.getD ""
      let version := pkg.version.getD server.version
      let env ← resolveRequirementMap option.requirements.env config.env
      let runtimeArguments := buildPackageRuntimeArguments pkg
      let input : PackageInput :=
        { serverId := id
          sourceType := .npm
          sourceRef := identifier
          version := version
          command := "npx"
          args := "-y" :: Runtime.buildVersionedPackageIdentifier identifier version ::
            runtimeArguments
          env := Runtime.nonEmptyEnv (some env)
          defaults := managedRuntime }
      match normalizePackageType pkg.registryType with
      | .npm => return Runtime.packageServer host now ("stdio://npx/" ++ identifier) input
      | .pypi =>
          return Runtime.packageServer host now ("stdio://uvx/" ++ identifier)
            { input with
              sourceType := .pypi
              command := "uvx"
              args := (if version = "" then identifier else identifier ++ "==" ++ version) ::
                runtimeArguments }
      | .oci =>
          return Runtime.packageServer host now ("stdio://docker/" ++ identifier)
            { input with
              sourceType := .oci
              command := "docker"
              args := ["run", "-i", "--rm", identifier] ++ runtimeArguments }
      | _ => throw (notConvertible server.name)
  | none, none => throw (notConvertible server.name)
where
  notConvertible (name : String) : String :=
    "Registry server \"" ++ name ++
      "\" cannot be converted into a Conduit server config automatically"

def createImportPlan (library : RegistryLibrary) (serverName version : String)
    (options : ConnectRegistryImportOptions) : Except String ConnectRegistryImportPlan := do
  let cached ← library
  match findOfficialServer cached serverName version with
  | none =>
      throw ("Registry server \"" ++ serverName ++ "\" (" ++ version ++
        ") not found in cached library")
  | some selected =>
      let support := deriveImportSupport selected.raw
      if selected.item.status = "deleted" then
        throw ("Registry server \"" ++ serverName ++
          "\" is marked as deleted and cannot be auto-imported")
      else if !support.configurableImport then
        throw (support.reason.getD ("Registry server \"" ++ serverName ++
          "\" requires manual configuration before import"))
      else
        match options.strategy.or support.strategy with
        | none =>
            throw ("Registry server \"" ++ serverName ++
              "\" does not expose a managed Conduit import strategy")
        | some planStrategy =>
            match findImportOption selected.raw planStrategy with
            | none =>
                throw ("Registry server \"" ++ serverName ++ "\" does not support strategy \"" ++
                  planStrategy.name ++ "\"")
            | some importOption => do
                let server ← buildServerConfigFromOfficialServer host now managedRuntime
                  selected.raw importOption options
                return ⟨server, selected.raw.name, selected.raw.version, importOption.strategy⟩

end Plan

section PlanLemmas

variable {server : OfficialRegistryServerDocument} {option : ImportOption}

theorem strategy_of_mem_deriveImportOptions (h : option ∈ deriveImportOptions server) :
    (option.strategy = .proxyRemote → hasRemotes server = true) ∧
      (option.strategy = .conduitHostPackage → hasPackages server = true) := by
  unfold deriveImportOptions at h
  rw [List.mem_insertionSort, List.mem_append, Option.mem_toList, Option.mem_toList] at h
  rcases h with h | h
  · obtain ⟨remote, hremote, rfl⟩ := Option.map_eq_some_iff.mp h
    refine ⟨fun _ => ?_, fun hpackage => (by cases hpackage)⟩
    exact decide_eq_true (List.ne_nil_of_mem (List.mem_of_find?_eq_some hremote))
  · obtain ⟨pkg, hpkg, rfl⟩ := Option.map_eq_some_iff.mp h
    refine ⟨fun hremote => (by cases hremote), fun _ => ?_⟩
    exact decide_eq_true (List.ne_nil_of_mem (List.mem_of_find?_eq_some hpkg))

theorem findImportOption_eq_some {strategy : ConnectRegistryStrategy}
    (h : findImportOption server strategy = some option) :
    option ∈ deriveImportOptions server ∧ option.strategy = strategy :=
  ⟨List.mem_of_find?_eq_some h, by simpa using List.find?_some h⟩

theorem createImportPlan_ok {host : LaunchHost} {now : Instant}
    {managedRuntime : ConnectManagedRuntimeConfig} {library : RegistryLibrary}
    {serverName version : String} {options : ConnectRegistryImportOptions}
    {plan : ConnectRegistryImportPlan}
    (h : createImportPlan host now managedRuntime library serverName version options = .ok plan) :
    ∃ entry preferred importOption,
      getLibraryItem library serverName version = .ok (some entry) ∧
      (deriveImportOptions entry.raw).head? = some preferred ∧
      findImportOption entry.raw (options.strategy.getD preferred.strategy) = some importOption ∧
      plan.strategy = importOption.strategy ∧
      buildServerConfigFromOfficialServer host now managedRuntime entry.raw importOption options =
        .ok plan.server := by
  obtain ⟨cached, hcached, hplan⟩ := Except.bind_eq_ok_iff.1 h
  cases hselected : findOfficialServer cached serverName version with
  | none =>
      rw [hselected] at hplan
      cases hplan
  | some entry =>
      have hentry : getLibraryItem library serverName version = .ok (some entry) := by
        rw [getLibraryItem, hcached, ← hselected]
        rfl
      rw [hselected] at hplan
      dsimp only at hplan
      split at hplan
      · cases hplan
      cases hpreferred : (deriveImportOptions entry.raw).head? with
      | none =>
          simp only [deriveImportSupport, hpreferred] at hplan
          cases hplan
      | some preferred =>
          have hchosen : options.strategy.or (deriveImportSupport entry.raw).strategy =
              some (options.strategy.getD preferred.strategy) := by
            rw [deriveImportSupport, hpreferred]
            cases options.strategy <;> rfl
          rw [hchosen] at hplan
          simp only [deriveImportSupport, hpreferred] at hplan
          cases hfound : findImportOption entry.raw (options.strategy.getD preferred.strategy) with
          | none =>
              rw [hfound] at hplan
              cases hplan
          | some importOption =>
              rw [hfound] at hplan
              obtain ⟨server, hserver, hplan⟩ := Except.bind_eq_ok_iff.1 hplan
              cases hplan
              exact ⟨entry, preferred, importOption, hentry, hpreferred, hfound, rfl, hserver⟩

end PlanLemmas

end Conduit.Connect
