import Conduit.Foundation.Text
import Conduit.Gateway.Mediation

namespace Json

theorem field_indexed {key : String} (h : ∀ n : ℕ, toString n ≠ key) (i : ℕ) (items : List Json) :
    field (indexed i items) key = none := by
  induction items generalizing i with
  | nil => rfl
  | cons v rest ih => rw [indexed, field, if_neg (h i), ih]

theorem field_spread {key : String} (h : ∀ n : ℕ, toString n ≠ key) (v : Json) :
    field v.spread key = v.get? key := by
  cases v with
  | obj fields => rfl
  | arr items => exact field_indexed h 0 items
  | str s => exact field_indexed h 0 _
  | _ => rfl

end Json

namespace Conduit.Gateway

open Router Governance Cache Proxy Identity Program

def sentToolName (body : Json) : Option Json := (body.get? "params").bind (·.get? "name")

-- the value of params.arguments, an absent one read as the empty object
def sentArguments (body : Json) : Json :=
  ((body.get? "params").bind (·.get? "arguments")).getD (.obj [])

structure SentAsChecked (checked : Guardrails.GuardrailContext) (client : ClientRef) (body : Json) :
    Prop where
  server : client.serverId = checked.serverId
  tool : sentToolName body = some (.str checked.toolName)
  arguments : sentArguments body = .obj checked.toolArgs

instance {checked : Guardrails.GuardrailContext} {client : ClientRef} {body : Json} :
    Decidable (SentAsChecked checked client body) :=
  decidable_of_iff (client.serverId = checked.serverId ∧
    sentToolName body = some (.str checked.toolName) ∧ sentArguments body = .obj checked.toolArgs)
    ⟨fun h => ⟨h.1, h.2.1, h.2.2⟩, fun h => ⟨h.server, h.tool, h.arguments⟩⟩

def WellShaped (message : Json) : Prop :=
  ∃ params, message.get? "params" = some params ∧ params.truthy = true ∧
    (params.get? "arguments" = none ∨ ∃ fields, params.get? "arguments" = some (.obj fields))

theorem toString_ne_of_letter {key : String} {c : Char} (hc : c ∈ key.toList)
    (hdigit : c.isDigit = false) (n : ℕ) : toString n ≠ key := by
  rintro rfl
  rw [Text.isDigit_of_mem_toString hc] at hdigit
  cases hdigit

theorem field_setField_of_params {fields : List (String × Json)} {toolName : String}
    {params : Json} {key : String} (hkey : "name" ≠ key) (hindex : ∀ n : ℕ, toString n ≠ key) :
    ((Json.obj (Json.setField fields "params"
      (.obj (Json.setField params.spread "name" (.str toolName))))).get? "params").bind (·.get? key) =
      params.get? key := by
  rw [Json.get?_setField_self]
  exact (Json.get?_setField_of_ne _ _ hkey).trans (Json.field_spread hindex params)

theorem buildForwardMessage_of_params {message params : Json} (h : params? message = some params)
    (toolName : String) :
    sentToolName (buildForwardMessage message toolName) = some (.str toolName) ∧
      sentArguments (buildForwardMessage message toolName) =
        (params.get? "arguments").getD (.obj []) := by
  obtain ⟨hparams, -⟩ := Option.filter_eq_some_iff.mp h
  unfold buildForwardMessage
  rw [h]
  dsimp only
  split
  next hname => exact ⟨by simp [sentToolName, hparams, hname], by simp [sentArguments, hparams]⟩
  next =>
    have hindex : ∀ n : ℕ, toString n ≠ "arguments" :=
      toString_ne_of_letter (c := 'a') (by decide) rfl
    constructor
    · rw [sentToolName, Json.get?_setField_self]
      exact Json.get?_setField_self _ _ _
    · rw [sentArguments, field_setField_of_params (by decide) hindex]

theorem wellShaped_of_params {message params : Json} (h : params? message = some params) :
    WellShaped message ↔
      (params.get? "arguments").getD (.obj []) = .obj (extractToolArgs message) := by
  obtain ⟨hparams, htruthy⟩ := Option.filter_eq_some_iff.mp h
  have hiff : WellShaped message ↔ params.get? "arguments" = none ∨
      ∃ fields, params.get? "arguments" = some (.obj fields) := by
    constructor
    · rintro ⟨params', hparams', -, hshape⟩
      obtain rfl := Option.some.inj (hparams.symm.trans hparams')
      exact hshape
    · exact fun hshape => ⟨params, hparams, htruthy, hshape⟩
  rw [hiff, extractToolArgs, h]
  cases harguments : params.get? "arguments" with
  | none => simp [harguments]
  | some value => cases value <;> simp [harguments, plainObject?, eq_comm]

theorem wellShaped_iff (message : Json) (toolName : String) :
    WellShaped message ↔
      sentToolName (buildForwardMessage message toolName) = some (.str toolName) ∧
      sentArguments (buildForwardMessage message toolName) = .obj (extractToolArgs message) := by
  cases h : params? message with
  | some params =>
      obtain ⟨hname, harguments⟩ := buildForwardMessage_of_params h toolName
      rw [wellShaped_of_params h, hname, harguments]
      simp
  | none =>
      have hfalsy : ∀ params, message.get? "params" = some params → params.truthy = false := by
        intro params hparams
        by_contra htruthy
        simp [params?, hparams, Option.filter, htruthy] at h
      constructor
      · rintro ⟨params, hparams, htruthy, -⟩
        rw [hfalsy params hparams] at htruthy
        cases htruthy
      · rintro ⟨hname, -⟩
        rw [buildForwardMessage, h] at hname
        obtain ⟨params, hparams, hsome⟩ := Option.bind_eq_some_iff.mp hname
        cases params with
        | obj fields => cases hfalsy _ hparams
        | _ => cases hsome

variable {P : RequestPipeline} {call : ToolCall}

theorem sent_as_checked_iff {tr : Trace} {client : ClientRef} {options : UpstreamRequestOptions}
    {next : Except String UpstreamResponse → Proc Outcome}
    (hsteps : Steps (P.handleToolCall call) tr (.op (.forward client options) next))
    (hrouter : FromRouter P.config tr) :
    ∃ resolution, Answered tr (.resolve call.directServerId call.toolName) resolution ∧
      Mediated P call (resolution.actual call.serverId call.toolName) tr ∧
      (SentAsChecked
        (RequestPipeline.guardrailContext call (resolution.actual call.serverId call.toolName))
        client options.body ↔ WellShaped call.message) := by
  obtain ⟨service, tr₁, tr₂, rfl, hadmit, hdispatch⟩ := served_of_serves hsteps trivial
  have hadmits := RequestPipeline.admits_of_steps hadmit
  obtain ⟨resolution, routed, annotations, hresolve, hactual, hrouted, hclient, -⟩ :=
    hadmits.resolved
  have hextends := List.prefix_append tr₁ tr₂
  obtain ⟨hsame, hbody, -⟩ := RequestPipeline.emits_of_steps hdispatch
  refine ⟨resolution, hresolve.mono hextends, hactual ▸ hadmits.mediated.mono hextends, ?_⟩
  have hserver : client.serverId = (resolution.actual call.serverId call.toolName).serverId := by
    obtain ⟨C, hC, rfl⟩ := hrouter _ _ _ (hresolve.mono hextends)
    rw [hsame, hclient, routed_serverId hrouted,
      routed_client (ConduitRouter.wellIndexed_of_reached hC) call.eq_of_directServerId hrouted]
  rw [wellShaped_iff call.message service.actual.toolName, hbody, hactual]
  exact ⟨fun h => ⟨h.tool, h.arguments⟩, fun h => ⟨hserver, h.1, h.2⟩⟩

section Example

def initialRouter : ConduitRouter :=
  .init strictPipeline.config.router strictPipeline.config.servers

theorem reached_initialRouter : initialRouter.Reached strictPipeline.config.router :=
  ⟨strictPipeline.config.servers, [], rfl⟩

def sendingRun (call : ToolCall) : Trace × Proc Outcome :=
  drive permissive 7 (strictPipeline.handleToolCall call)

theorem fromRouter_sendingRun (call : ToolCall)
    (h : ∀ r ∈ resolutions (sendingRun call).1, r.2.2 = (initialRouter.resolve r.1 r.2.1).2) :
    FromRouter strictPipeline.config (sendingRun call).1 :=
  .of_resolutions reached_initialRouter h

theorem sent_as_checked_empty : ∃ client options next,
    (sendingRun approvedCall).2 = .op (.forward client options) next ∧
    ∃ resolution,
      Answered (sendingRun approvedCall).1 (.resolve (some "crm") "delete_contact") resolution ∧
      Mediated strictPipeline approvedCall (resolution.actual "crm" "delete_contact")
        (sendingRun approvedCall).1 ∧
      (SentAsChecked (RequestPipeline.guardrailContext approvedCall
        (resolution.actual "crm" "delete_contact")) client options.body ↔
          WellShaped approvedCall.message) :=
  ⟨_, _, _, rfl, @sent_as_checked_iff strictPipeline approvedCall _ _ _ _
    (drive_steps permissive 7 _) (fromRouter_sendingRun approvedCall (by decide))⟩

-- params.arguments is an array: the guardrails and the approval read it as empty
def arrayCall : ToolCall :=
  { approvedCall with
    message := toolsCall
      (.obj [("name", .str "delete_contact"), ("arguments", .arr [.str "*"])]) }

theorem array_sent_unchecked :
    isValidJsonRpc arrayCall.message = true ∧
      FromRouter strictPipeline.config (sendingRun arrayCall).1 ∧
      ∃ client options next,
        Steps (strictPipeline.handleToolCall arrayCall) (sendingRun arrayCall).1
          (.op (.forward client options) next) ∧
        ∀ resolution : Resolution, ¬ SentAsChecked (RequestPipeline.guardrailContext arrayCall
          (resolution.actual arrayCall.serverId arrayCall.toolName)) client options.body := by
  have hbody : sentArguments (buildForwardMessage arrayCall.message "delete_contact") ≠
      .obj arrayCall.toolArgs := by decide
  exact ⟨by decide, fromRouter_sendingRun arrayCall (by decide), _, _, _,
    drive_steps permissive 7 _, fun _ h => hbody h.arguments⟩

end Example

end Conduit.Gateway
