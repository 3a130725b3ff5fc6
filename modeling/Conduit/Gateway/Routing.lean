import Conduit.Gateway.Pipeline
import Conduit.Gateway.Admission
import Conduit.Router.Operation

namespace Conduit.Gateway

open Router

-- the router answers from a state that it can be in
def FromRouter (config : ConduitGatewayConfig) (tr : Trace) : Prop :=
  ∀ serverId toolName resolution, Answered tr (.resolve serverId toolName) resolution →
    ∃ C : ConduitRouter, C.Reached config.router ∧ resolution = (C.resolve serverId toolName).2

def resolutions (tr : Trace) : List (Option String × String × Resolution) :=
  tr.filterMap fun
    | ⟨.resolve serverId toolName, resolution⟩ => some (serverId, toolName, resolution)
    | _ => none

theorem mem_resolutions {tr : Trace} {serverId : Option String} {toolName : String}
    {resolution : Resolution} (h : Answered tr (.resolve serverId toolName) resolution) :
    (serverId, toolName, resolution) ∈ resolutions tr :=
  List.mem_filterMap.mpr ⟨_, h, rfl⟩

theorem FromRouter.of_resolutions {config : ConduitGatewayConfig} {C : ConduitRouter}
    (hC : C.Reached config.router) {tr : Trace}
    (h : ∀ r ∈ resolutions tr, r.2.2 = (C.resolve r.1 r.2.1).2) : FromRouter config tr :=
  fun _ _ _ hresolve => ⟨C, hC, h _ (mem_resolutions hresolve)⟩

theorem ToolCall.eq_of_directServerId (call : ToolCall) (serverId : String)
    (h : call.directServerId = some serverId) : serverId = call.serverId := by
  unfold ToolCall.directServerId at h
  split at h
  · exact (Option.some.inj h).symm
  · cases h

theorem routed_serverId {resolution : Resolution} {serverId toolName : String}
    {routed : RoutedRequest} (h : resolution.routed? serverId toolName = some routed) :
    resolution.actual serverId toolName = ⟨routed.serverId, routed.toolName⟩ := by
  unfold Resolution.routed? at h
  cases hdirect : resolution.directClient with
  | some client =>
      rw [hdirect] at h
      obtain rfl := Option.some.inj h
      simp [Resolution.actual, hdirect]
  | none =>
      rw [hdirect] at h
      simp [Resolution.actual, hdirect, show resolution.resolvedCall = some routed from h]

inductive RoutedBy (C : ConduitRouter) (serverId : Option String) (target toolName : String)
    (routed : RoutedRequest) : Prop where
  | direct (s : String) (hserver : serverId = some s)
      (hclient : (C.getClientForServer s).2 = some routed.client)
      (htarget : routed.serverId = target)
  | named (C' : ConduitRouter) (hregistry : C'.registry = C.registry)
      (hnone : ∀ s, serverId = some s → (C.getClientForServer s).2 = none)
      (hcall : (C'.resolveToolCall toolName).2 = some routed)

theorem routedBy_of_resolve {C : ConduitRouter} {serverId : Option String}
    {target toolName : String} {routed : RoutedRequest}
    (h : (C.resolve serverId toolName).2.routed? target toolName = some routed) :
    RoutedBy C serverId target toolName routed := by
  cases serverId with
  | none => exact .named C rfl nofun h
  | some s =>
      cases hclient : (C.getClientForServer s).2 with
      | some client =>
          have hresolve : (C.resolve (some s) toolName).2.directClient = some client := by
            simp [ConduitRouter.resolve, hclient]
          rw [Resolution.routed?, hresolve] at h
          obtain rfl := Option.some.inj h
          exact .direct s rfl hclient rfl
      | none =>
          have hresolve : (C.resolve (some s) toolName).2.directClient = none := by
            simp [ConduitRouter.resolve, hclient]
          have hcall : (C.resolve (some s) toolName).2.resolvedCall =
              ((C.getClientForServer s).1.resolveToolCall toolName).2 := by
            simp [ConduitRouter.resolve, hclient]
          rw [Resolution.routed?, hresolve] at h
          refine .named _ (ConduitRouter.getClientForServer_registry s) ?_ (hcall ▸ h)
          rintro _ ⟨⟩
          exact hclient

theorem routed_client {C : ConduitRouter} (hC : C.registry.WellIndexed)
    {serverId : Option String} {target toolName : String}
    (hserver : ∀ s, serverId = some s → s = target) {routed : RoutedRequest}
    (h : (C.resolve serverId toolName).2.routed? target toolName = some routed) :
    routed.client.serverId = routed.serverId := by
  cases routedBy_of_resolve h with
  | direct s hs hclient htarget =>
      rw [htarget, ← hserver s hs]
      exact ConduitRouter.serverId_of_getClientForServer hC hclient
  | named C' hregistry hnone hcall =>
      exact ConduitRouter.serverId_of_resolveToolCall (hregistry ▸ hC) hcall

theorem resolvedToolName_of_resolve {C : ConduitRouter} {serverId : Option String}
    {toolName : String} {resolved : ToolTarget}
    (h : (C.resolve serverId toolName).2.resolvedToolName = some resolved) :
    ∃ C' : ConduitRouter, C'.registry = C.registry ∧ C'.resolveToolName toolName = some resolved := by
  cases serverId with
  | none => exact ⟨C, rfl, h⟩
  | some s =>
      refine ⟨(C.getClientForServer s).1, ConduitRouter.getClientForServer_registry s, ?_⟩
      cases hclient : (C.getClientForServer s).2 <;>
        simpa [ConduitRouter.resolve, hclient] using h

theorem resolvedCall_of_resolve {C : ConduitRouter} {serverId : Option String}
    {toolName : String} {routed : RoutedRequest}
    (h : (C.resolve serverId toolName).2.resolvedCall = some routed) :
    ∃ C' : ConduitRouter, C'.registry = C.registry ∧ (C'.resolveToolCall toolName).2 = some routed := by
  cases serverId with
  | none => exact ⟨C, rfl, h⟩
  | some s =>
      refine ⟨(C.getClientForServer s).1, ConduitRouter.getClientForServer_registry s, ?_⟩
      cases hclient : (C.getClientForServer s).2 with
      | some client => simp [ConduitRouter.resolve, hclient] at h
      | none => simpa [ConduitRouter.resolve, hclient] using h

-- a call that names no tool is a call of the tool without a name
theorem toolName_of_resolve_empty {C : ConduitRouter} (hC : Spelled C.registry.namespaceMap)
    (serverId : Option String) (target : String) :
    ((C.resolve serverId "").2.actual target "").toolName = "" := by
  unfold Resolution.actual
  split
  next client hdirect =>
    dsimp only
    split
    next resolved hname =>
      obtain ⟨C', hregistry, hresolved⟩ := resolvedToolName_of_resolve hname
      split
      · exact toolName_of_resolveTool_empty (hregistry ▸ hC) hresolved
      · rfl
    next => rfl
  next hnone =>
    split
    next routed hrouted =>
      obtain ⟨C', hregistry, hcall⟩ := resolvedCall_of_resolve hrouted
      unfold ConduitRouter.resolveToolCall at hcall
      split at hcall
      · cases hcall
      next resolved hname =>
        obtain ⟨client, -, rfl⟩ := Option.map_eq_some_iff.mp hcall
        exact toolName_of_resolveTool_empty (hregistry ▸ hC) hname
    next => rfl

end Conduit.Gateway
