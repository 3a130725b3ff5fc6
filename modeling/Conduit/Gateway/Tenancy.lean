import Conduit.Cache.KeyContents
import Conduit.Gateway.Cluster
import Conduit.Gateway.Sharing

namespace Conduit.Gateway

open Cache Program World

variable {P : RequestPipeline} {home : CallId → GatewayId} {C : Cluster P}

theorem tenantId_cacheKey (henabled : P.config.tenantIsolation.enabled = true)
    (hauth : P.authIsActive = true) (call : ToolCall) (service : Service) :
    (P.cacheKey call service).tenantId = some call.principal.tenantId := by
  simp [RequestPipeline.cacheKey, RequestPipeline.resolvedTenantId, henabled, hauth]

-- calls under one digest are calls of one tenant, group, server and tool
structure SameScope (call call' : ToolCall) (service service' : Service) : Prop where
  tenantId : call.principal.tenantId = call'.principal.tenantId
  groupHeader : call.context.groupHeader = call'.context.groupHeader
  actual : service.actual = service'.actual

theorem sameScope_of_digest (hinjective : Function.Injective P.host.sha256)
    (henabled : P.config.tenantIsolation.enabled = true) (hauth : P.authIsActive = true)
    {call call' : ToolCall} {service service' : Service}
    (h : P.digest (P.cacheKey call service) = P.digest (P.cacheKey call' service')) :
    SameScope call call' service service' := by
  have hsame := sameKey_of_generateCacheKey hinjective h
  have htenant := hsame.tenantId
  rw [tenantId_cacheKey henabled hauth, tenantId_cacheKey henabled hauth] at htenant
  exact {
    tenantId := Option.some.inj htenant
    groupHeader := hsame.groupId
    actual := by
      have hserver : service.actual.serverId = service'.actual.serverId := hsame.serverId
      have htool : service.actual.toolName = service'.actual.toolName := hsame.toolName
      cases hactual : service.actual
      cases hactual' : service'.actual
      rw [hactual, hactual'] at hserver htool
      cases hserver
      cases htool
      rfl }

-- whoever is answered from an upstream exchange is in the scope of the call it was made for
theorem tenants_separated (hinjective : Function.Injective P.host.sha256)
    (henabled : P.config.tenantIsolation.enabled = true) (hauth : P.authIsActive = true)
    {acts : List (GatewayId × Act)}
    (hrun : Transition.run (Cluster.step home) (Cluster.init P) acts = some C) {q : CallId}
    {t : Task P} (ht : C.tasks[q]? = some t) {out : Outcome} (hout : t.rest.result? = some out)
    {p : CallId} (horigin : out.origin = some p) :
    ∃ (u : Task P) (service service' : Service), C.tasks[p]? = some u ∧ t.Serving service ∧
      u.Serving service' ∧ SameScope u.call t.call service' service := by
  have htraced := Cluster.traced_of_run hrun (home q)
  obtain ⟨service, hserving⟩ := t.serving_of_origin hout horigin
  have ht' : (C.world (home q)).tasks[q]? = some t := ht
  rcases htraced.shared ht' rfl hserving (hserving.obtained hout horigin) with
    rfl | ⟨⟨u, hu, key, found, hfound, hdigest⟩, -⟩
  · exact ⟨t, service, service, ht, hserving, hserving, rfl, rfl, rfl⟩
  · obtain ⟨service', hserving'⟩ := u.serving_of_mem hfound rfl
    have hkey : key ∈ u.lookups := Task.mem_lookups.2 ⟨found, hfound⟩
    obtain rfl := hserving'.eq_of_mem_lookups hkey
    exact ⟨u, service, service', hu, hserving, hserving',
      sameScope_of_digest hinjective henabled hauth hdigest⟩

section Example

def tenantPipeline : RequestPipeline where
  host := plainHost
  config :=
    { servers :=
        [{ id := "crm"
           url := "http://crm"
           cache := { overrides := some (.set .empty "list_contacts" { ttl := some 60 }) } }]
      auth := some { method := .apiKey }
      tenantIsolation := { enabled := true } }
  hasL2Cache := true

-- one call for each of two gateways
def apart (caller : CallId) : GatewayId := caller

def storedEntry : CacheEntry := ⟨.null, 0, 60, "list_contacts", "crm", 0⟩

def answering : (o : Op) → Ans o
  | .l2Get _ => some storedEntry
  | o => permissive o

def answers (caller : CallId) (n : ℕ) : List (GatewayId × Act) :=
  List.replicate n (apart caller, .answer caller answering)

-- the first call fills the Redis from which the second one is answered
def sharedRun : List (GatewayId × Act) :=
  (0, .arrive (contactsCall "agent-7")) :: answers 0 3 ++ [(0, .readL2 0)] ++ answers 0 2 ++
    [(0, .takeEffect 0)] ++ answers 0 6 ++
    [(0, .landWrite 0), (1, .arrive (contactsCall "agent-8"))] ++ answers 1 3 ++ [(1, .readL2 1)] ++
    answers 1 2

theorem origin_sharedRun :
    ((Transition.run (Cluster.step apart) (Cluster.init tenantPipeline) sharedRun).bind fun C =>
      C.tasks[1]?.bind fun t => t.rest.result?.bind Outcome.origin) = some 0 := by
  decide +kernel

theorem tenants_separated_sharedRun : ∃ (C : Cluster tenantPipeline) (t u : Task tenantPipeline)
    (service service' : Service), C.tasks[1]? = some t ∧ C.tasks[0]? = some u ∧
      t.Serving service ∧ u.Serving service' ∧ SameScope u.call t.call service' service := by
  obtain ⟨C, hrun, hlast⟩ := Option.bind_eq_some_iff.mp origin_sharedRun
  obtain ⟨t, ht, hlast⟩ := Option.bind_eq_some_iff.mp hlast
  obtain ⟨out, hout, horigin⟩ := Option.bind_eq_some_iff.mp hlast
  obtain ⟨u, service, service', hu, hserving, hserving', hscope⟩ :=
    tenants_separated (fun _ _ h => h) rfl rfl hrun ht hout horigin
  exact ⟨C, t, u, service, service', ht, hu, hserving, hserving', hscope⟩

end Example

end Conduit.Gateway
