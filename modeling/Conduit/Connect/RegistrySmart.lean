import Conduit.Connect.Export
import Conduit.Connect.Registry
import Conduit.Foundation.Comparison
import Conduit.Foundation.TextRuns
import Conduit.Governance.Runtime

namespace Conduit.Connect

open Governance (GovernanceRegistryDecision)

-- what the host knows of letters and dates
structure RegistryLocale where
  toLowerCase : String → String
  lower_lower : ∀ text, toLowerCase (toLowerCase text) = toLowerCase text
  localeCompare : String → String → ℤ
  lawful : Comparison.Lawful localeCompare
  parseDate : String → Option ℤ

inductive LibraryReadiness where
  | ready
  | needsConfig
  | manual
  | blocked
deriving DecidableEq, Repr

def LibraryReadiness.name : LibraryReadiness → String
  | .ready => "ready"
  | .needsConfig => "needs-config"
  | .manual => "manual"
  | .blocked => "blocked"

-- an entry of the library with all that is shown of it
structure ConnectRegistryScoredItem extends ConnectRegistryLibraryItem where
  name : String
  conduitId : String
  title : String
  description : String
  version : String
  readiness : LibraryReadiness
  strategy : Option ConnectRegistryStrategy
  score : ℤ
  autoImportable : Bool
  configurableImport : Bool
  packageIdentifiers : List String
  remotePatterns : List String
  requiredConfigCount : ℕ
  requirementKeys : List String
  verifiedPublisher : Bool
  publisherLabel : String
  repositoryUrl : Option String := none
  publishedAt : Option String := none
  updatedAt : Option String := none
  reasons : List String

structure ConnectRegistryManagedRuntime where
  managed : Bool
  healthy : Bool
  toolCount : ℕ

inductive ConnectRegistryRuntimeStatus where
  | notImported
  | healthy
  | unhealthy
deriving DecidableEq, Repr

def ConnectRegistryRuntimeStatus.name : ConnectRegistryRuntimeStatus → String
  | .notImported => "not-imported"
  | .healthy => "healthy"
  | .unhealthy => "unhealthy"

structure ConnectRegistryRuntimeHealth where
  status : ConnectRegistryRuntimeStatus
  managed : Bool
  toolCount : ℕ

inductive ConnectRegistryPolicyFitStatus where
  | allowed
  | blocked
  | notEvaluated
deriving DecidableEq, Repr

def ConnectRegistryPolicyFitStatus.name : ConnectRegistryPolicyFitStatus → String
  | .allowed => "allowed"
  | .blocked => "blocked"
  | .notEvaluated => "not-evaluated"

structure ConnectRegistryPolicyFit where
  status : ConnectRegistryPolicyFitStatus
  summary : String

inductive ConnectRegistryCompatibilityLevel where
  | native
  | bridged
  | manual
deriving DecidableEq, Repr

structure ConnectRegistryTargetCompatibility where
  id : ConnectTarget
  label : String
  supported : Bool
  level : ConnectRegistryCompatibilityLevel
  recommended : Bool
  reason : String

inductive ConnectRegistryRecommendationAction where
  | installNow
  | fixRuntime
  | importToConduit
  | configureAndImport
  | manualReview
  | blockedByPolicy
deriving DecidableEq, Repr

structure ConnectRegistryRecommendation where
  action : ConnectRegistryRecommendationAction
  title : String
  summary : String
  preferredTargets : List ConnectTarget

structure ConnectRegistrySmartLibraryItem extends ConnectRegistryScoredItem where
  runtime : ConnectRegistryRuntimeHealth
  policyFit : ConnectRegistryPolicyFit
  supportedCount : ℕ
  recommendedTargets : List ConnectTarget
  targets : List ConnectRegistryTargetCompatibility
  recommendation : ConnectRegistryRecommendation
  badges : List String

section Enrichment

def buildRuntimeHealth (managedRuntime : Option ConnectRegistryManagedRuntime) :
    ConnectRegistryRuntimeHealth :=
  match managedRuntime.filter (·.managed) with
  | none => ⟨.notImported, false, 0⟩
  | some runtime => ⟨if runtime.healthy then .healthy else .unhealthy, true, runtime.toolCount⟩

def buildPolicyFit (decision : Option GovernanceRegistryDecision) : ConnectRegistryPolicyFit :=
  match decision with
  | none => ⟨.notEvaluated, "No workspace policy evaluation for this registry entry"⟩
  | some decision => ⟨if decision.allowed then .allowed else .blocked, decision.reason⟩

def compatibilityLevelForTarget : ConnectTarget → ConnectRegistryCompatibilityLevel
  | .claudeDesktop => .bridged
  | .genericJson => .manual
  | _ => .native

def compatibilityReason (item : ConnectRegistryScoredItem) (target : ConnectTarget)
    (level : ConnectRegistryCompatibilityLevel) : String :=
  if level = .bridged then
    "Installed through the Conduit bridge for " ++ target.id ++ " after the server is managed here"
  else if level = .manual then
    "Generic config export is available, but installation remains manual"
  else if item.readiness = .blocked then
    "Client adapter exists, but the registry entry itself is blocked before Conduit import"
  else
    "Native " ++ target.id ++ " export is available once the server is routed through Conduit"

def compatibilityRank (entry : ConnectRegistryTargetCompatibility) : ℤ :=
  let base :=
    match entry.level with
    | .native => 100
    | .bridged => 60
    | .manual => 20
  match entry.id with
  | .cursor => base + 8
  | .codex => base + 7
  | .vscode => base + 6
  | .windsurf => base + 5
  | .claudeCode => base + 4
  | .claudeDesktop => base + 3
  | _ => base

def buildCompatibility (item : ConnectRegistryScoredItem) (targets : List ConnectTarget) :
    List ConnectRegistryTargetCompatibility :=
  Comparison.sort (fun a b => compatibilityRank b - compatibilityRank a) (targets.map fun target =>
    let level := compatibilityLevelForTarget target
    { id := target
      label := target.label
      supported := true
      level := level
      recommended := level = .native ∧ target ≠ .genericJson
      reason := compatibilityReason item target level })

def strategyName : Option ConnectRegistryStrategy → String
  | some strategy => strategy.name
  | none => "manual"

def buildRecommendation (item : ConnectRegistryScoredItem) (runtime : ConnectRegistryRuntimeHealth)
    (policyFit : ConnectRegistryPolicyFit) (preferredTargets : List ConnectTarget) :
    ConnectRegistryRecommendation :=
  if policyFit.status = .blocked then
    ⟨.blockedByPolicy, "Blocked by workspace policy", policyFit.summary, []⟩
  else if runtime.status = .healthy then
    let clients := " or ".intercalate ((preferredTargets.take 2).map ConnectTarget.id)
    ⟨.installNow, "Ready for client installation",
      "Already healthy in Conduit. Install directly into " ++
        (if clients = "" then "a supported client" else clients) ++ ".", preferredTargets⟩
  else if runtime.status = .unhealthy then
    ⟨.fixRuntime, "Fix runtime health before rollout",
      "This server is already imported into Conduit but is not healthy enough for client rollout.",
      preferredTargets⟩
  else if item.readiness = .ready ∧ item.autoImportable then
    ⟨.importToConduit, "Import, then install",
      "One-click import is available through " ++ strategyName item.strategy ++
        ". After import, install it in a supported client.", preferredTargets⟩
  else if item.readiness = .needsConfig ∧ item.configurableImport then
    ⟨.configureAndImport, "Collect secrets, then import",
      "Provide " ++ toString item.requiredConfigCount ++ " required runtime value" ++
        (if item.requiredConfigCount = 1 then "" else "s") ++
        " before importing this server into Conduit.", preferredTargets⟩
  else
    ⟨.manualReview, "Manual review required",
      "This registry entry cannot be turned into a managed Conduit server without manual " ++
        "intervention.", preferredTargets⟩

def badge (holds : Bool) (name : String) : List String := if holds then [name] else []

def buildBadges (item : ConnectRegistryScoredItem) (runtime : ConnectRegistryRuntimeHealth)
    (policyFit : ConnectRegistryPolicyFit) : List String :=
  badge item.verifiedPublisher "verified-publisher" ++ badge item.autoImportable "one-click" ++
    badge (runtime.status = .healthy) "runtime-healthy" ++
    badge (runtime.status = .unhealthy) "runtime-unhealthy" ++
    badge (policyFit.status = .blocked) "policy-blocked" ++
    badge (item.readiness = .needsConfig) "needs-secrets"

def enrichSmartRegistryItem (item : ConnectRegistryScoredItem) (targets : List ConnectTarget)
    (managedRuntime : Option ConnectRegistryManagedRuntime)
    (decision : Option GovernanceRegistryDecision) : ConnectRegistrySmartLibraryItem :=
  let runtime := buildRuntimeHealth managedRuntime
  let policyFit := buildPolicyFit decision
  let compatibility := buildCompatibility item targets
  let recommended := ((compatibility.filter (·.recommended)).map (·.id)).take 3
  { item with
    runtime := runtime
    policyFit := policyFit
    supportedCount := (compatibility.filter (·.supported)).length
    recommendedTargets := recommended
    targets := compatibility
    recommendation := buildRecommendation item runtime policyFit recommended
    badges := buildBadges item runtime policyFit }

end Enrichment

section Search

variable (locale : RegistryLocale)

def isTokenChar (c : Char) : Bool := c.isAlphanum || "@._/-".toList.contains c

def tokenizeRegistrySearch (value : String) : List String :=
  (TextRuns.runs isTokenChar (locale.toLowerCase value).toList).map String.ofList

def rounded (weight tenths : ℕ) : ℕ := (weight * tenths + 5) / 10

def includes (value term : String) : Bool := term.toList <:+: value.toList

def startsWith (value term : String) : Bool := term.toList <+: value.toList

def scoreSearchField (value term : String) (weight : ℕ) : ℕ :=
  if value = "" ∨ term = "" then 0
  else if value = term then weight * 3
  else if startsWith value term then weight * 2
  else
    let tokens := tokenizeRegistrySearch locale value
    if term ∈ tokens then rounded weight 16
    else if tokens.any (startsWith · term) then rounded weight 12
    else if includes value term then rounded weight 8
    else 0

structure SearchField where
  value : String
  weight : ℕ

def spaced (texts : List String) : String := " ".intercalate texts

def buildRegistrySearchFields (item : ConnectRegistrySmartLibraryItem) : List SearchField :=
  ([(item.name, 120), (item.title, 105), (item.conduitId, 96), (item.publisherLabel, 90),
    (item.description, 74), (item.repositoryUrl.getD "", 68), (spaced item.packageTypes, 56),
    (spaced item.packageIdentifiers, 82), (spaced item.remotePatterns, 60),
    (spaced item.requirementKeys, 70), (spaced item.reasons, 42), (item.recommendation.title, 54),
    (item.recommendation.summary, 46), (item.policyFit.summary, 40), (spaced item.badges, 36),
    (spaced (item.targets.map fun target => target.id.id ++ " " ++ target.label ++ " " ++ target.reason),
      34)].map fun field => (⟨locale.toLowerCase field.1, field.2⟩ : SearchField)).filter
    fun field => field.value ≠ ""

def bestField (fields : List SearchField) (term : String) : ℕ :=
  (fields.map fun field => scoreSearchField locale field.value term field.weight).foldl max 0

def wholeQuery (query : String) (field : SearchField) : ℕ :=
  if field.value = query then field.weight * 3
  else if startsWith field.value query then field.weight * 2
  else if includes field.value query then rounded field.weight 12
  else 0

def bonus (holds : Bool) (points : ℕ) : ℕ := if holds then points else 0

def scoreSmartRegistrySearch (item : ConnectRegistrySmartLibraryItem) (query : String) : ℕ :=
  let normalizedQuery := locale.toLowerCase (Text.trim query)
  if normalizedQuery = "" then 0
  else
    let terms := tokenizeRegistrySearch locale normalizedQuery
    let fields := buildRegistrySearchFields locale item
    if terms = [] then 0
    else if terms.any fun term => bestField locale fields term = 0 then 0
    else
      (terms.map (bestField locale fields)).sum + (fields.map (wholeQuery normalizedQuery)).sum +
        bonus (item.recommendation.action = .installNow) 20 +
        bonus (item.runtime.status = .healthy) 14 + bonus item.autoImportable 10 +
        bonus item.verifiedPublisher 8

end Search

inductive ConnectRegistrySort where
  | relevance
  | trust
  | updated
  | published
  | name
  | runtime
deriving DecidableEq, Repr

-- what is no name of an order means the default one
def ConnectRegistrySort.parse : String → ConnectRegistrySort
  | "relevance" => .relevance
  | "updated" => .updated
  | "published" => .published
  | "name" => .name
  | "runtime" => .runtime
  | _ => .trust

-- the parameters of a query, which name the values that they ask for
structure ConnectRegistrySmartLibraryFilters where
  search : Option String := none
  status : Option String := none
  installMode : Option String := none
  readiness : Option String := none
  packageType : Option String := none
  minScore : Option ℚ := none
  autoImportable : Option Bool := none
  verifiedPublisher : Option Bool := none
  runtimeStatus : Option String := none
  policyFit : Option String := none
  target : Option String := none
  sort : Option ConnectRegistrySort := none

section Filters

variable (locale : RegistryLocale)

def asks (filter : Option String) (holds : String → Bool) : Bool := (filter.filter (· ≠ "")).all holds

def searchKey (item : ConnectRegistrySmartLibraryItem) : String := item.name ++ "@" ++ item.version

namespace ConnectRegistrySmartLibraryFilters

variable (filters : ConnectRegistrySmartLibraryFilters)

-- what is searched for, if anything is
def wanted : Option String :=
  (filters.search.map fun search => locale.toLowerCase (Text.trim search)).filter (· ≠ "")

def found (item : ConnectRegistrySmartLibraryItem) : Bool :=
  (filters.wanted locale).all fun search => 0 < scoreSmartRegistrySearch locale item search

def admits (item : ConnectRegistrySmartLibraryItem) : Bool :=
  asks filters.status (item.status = ·) && asks filters.installMode (item.installMode.name = ·) &&
    asks filters.readiness (item.readiness.name = ·) &&
    asks filters.packageType (item.packageTypes.contains ·) &&
    filters.minScore.all (fun least => least ≤ (item.score : ℚ)) &&
    filters.autoImportable.all (item.autoImportable = ·) &&
    filters.verifiedPublisher.all (item.verifiedPublisher = ·) &&
    asks filters.runtimeStatus (item.runtime.status.name = ·) &&
    asks filters.policyFit (item.policyFit.status.name = ·) &&
    asks filters.target fun id => item.targets.any fun target => target.id.id = id && target.supported

-- the scores of what is found, by its key; a later item with the same key takes its place
def searchScores (items : List ConnectRegistrySmartLibraryItem) : OrderedMap String ℕ :=
  match filters.wanted locale with
  | none => OrderedMap.empty
  | some search =>
      items.foldl (fun scores item =>
        let score := scoreSmartRegistrySearch locale item search
        if score = 0 then scores else scores.set (searchKey item) score) OrderedMap.empty

def order : ConnectRegistrySort :=
  filters.sort.getD (if (filters.wanted locale).isSome then .relevance else .trust)

end ConnectRegistrySmartLibraryFilters

def runtimeRank : ConnectRegistryRuntimeStatus → ℤ
  | .healthy => 3
  | .notImported => 2
  | .unhealthy => 1

def dateOf (date : Option String) : ℤ := ((date.filter (· ≠ "")).bind locale.parseDate).getD 0

section Compare

variable (scores : OrderedMap String ℕ)

abbrev ItemCompare := ConnectRegistrySmartLibraryItem → ConnectRegistrySmartLibraryItem → ℤ

def descending (key : ConnectRegistrySmartLibraryItem → ℤ) : ItemCompare := fun left right =>
  key right - key left

def byName : ItemCompare := fun left right => locale.localeCompare left.name right.name

def byScore : ItemCompare := descending (·.score)

def byPublisher : ItemCompare := descending fun item => if item.verifiedPublisher then 1 else 0

def byRuntime : ItemCompare := descending fun item => runtimeRank item.runtime.status

def byTools : ItemCompare := descending fun item => item.runtime.toolCount

def byUpdate : ItemCompare := descending fun item => dateOf locale item.updatedAt

def byPublication : ItemCompare := descending fun item => dateOf locale item.publishedAt

def byRelevance : ItemCompare := descending fun item => (scores.get? (searchKey item)).getD 0

open Comparison (orElse)

def compareSmartRegistryItems : ConnectRegistrySort → ItemCompare
  | .name => byName locale
  | .updated => orElse (byUpdate locale) (orElse byScore (byName locale))
  | .published => orElse (byPublication locale) (orElse byScore (byName locale))
  | .runtime => orElse byRuntime (orElse byTools (orElse byScore (byName locale)))
  | .relevance =>
      orElse (byRelevance scores)
        (orElse byScore (orElse byPublisher (orElse (byUpdate locale) (byName locale))))
  | .trust =>
      orElse byScore
        (orElse byPublisher (orElse byRuntime (orElse (byUpdate locale) (byName locale))))

end Compare

def applySmartRegistryFilters (items : List ConnectRegistrySmartLibraryItem)
    (filters : ConnectRegistrySmartLibraryFilters) : List ConnectRegistrySmartLibraryItem :=
  Comparison.sort
    (compareSmartRegistryItems locale (filters.searchScores locale items) (filters.order locale))
    (items.filter fun item => filters.found locale item && filters.admits item)

end Filters

section Pages

-- the route never asks for less than one item
structure ConnectRegistryPageRequest where
  limit : ℕ
  offset : ℕ
  positive : 0 < limit

structure ConnectRegistryPagination where
  limit : ℕ
  offset : ℕ
  returned : ℕ
  totalFiltered : ℕ
  page : ℕ
  totalPages : ℕ
  hasMore : Bool
  nextOffset : Option ℕ
  previousOffset : Option ℕ

structure ConnectRegistryStats where
  total : ℕ
  filtered : ℕ
  autoImportable : ℕ
  ready : ℕ
  needsConfig : ℕ
  remote : ℕ
  package : ℕ
  hybrid : ℕ
  verifiedPublishers : ℕ
  managedInConduit : ℕ
  healthyRuntime : ℕ
  policyBlocked : ℕ

structure ConnectRegistrySmartLibraryResponse where
  stats : ConnectRegistryStats
  pagination : ConnectRegistryPagination
  items : List ConnectRegistrySmartLibraryItem

def paginate {α : Type} (filtered : List α) (request : ConnectRegistryPageRequest) :
    ConnectRegistryPagination :=
  let paged := (filtered.drop request.offset).take request.limit
  let more := request.offset + paged.length < filtered.length
  { limit := request.limit
    offset := request.offset
    returned := paged.length
    totalFiltered := filtered.length
    page := request.offset / request.limit + 1
    totalPages := max 1 ((filtered.length + request.limit - 1) / request.limit)
    hasMore := more
    nextOffset := if more then some (request.offset + request.limit) else none
    previousOffset := if 0 < request.offset then some (request.offset - request.limit) else none }

def libraryStats (items filtered : List ConnectRegistrySmartLibraryItem) : ConnectRegistryStats where
  total := items.length
  filtered := filtered.length
  autoImportable := items.countP (·.autoImportable)
  ready := items.countP (·.readiness = .ready)
  needsConfig := items.countP (·.readiness = .needsConfig)
  remote := items.countP (·.installMode = .remote)
  package := items.countP (·.installMode = .package)
  hybrid := items.countP (·.installMode = .hybrid)
  verifiedPublishers := items.countP (·.verifiedPublisher)
  managedInConduit := items.countP (·.runtime.managed)
  healthyRuntime := items.countP (·.runtime.status = .healthy)
  policyBlocked := items.countP (·.policyFit.status = .blocked)

def buildSmartRegistryResponse (items filtered : List ConnectRegistrySmartLibraryItem)
    (request : ConnectRegistryPageRequest) : ConnectRegistrySmartLibraryResponse where
  stats := libraryStats items filtered
  pagination := paginate filtered request
  items := (filtered.drop request.offset).take request.limit

-- Math.trunc
def truncate (number : ℚ) : ℤ := number.num.tdiv number.den

-- the numbers of a query, where it has any that are finite
def pageRequest (limitRaw offsetRaw : Option ℚ) : ConnectRegistryPageRequest where
  limit := (limitRaw.elim 24 fun limit => min 200 (max 1 (truncate limit))).toNat
  offset := (offsetRaw.elim 0 fun offset => max 0 (truncate offset)).toNat
  positive := by
    cases limitRaw with
    | none => decide
    | some limit =>
        dsimp only [Option.elim]
        omega

end Pages

end Conduit.Connect
