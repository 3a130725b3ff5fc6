import Conduit.Foundation.Run
import Conduit.Proxy.StdioClient

namespace Conduit.Proxy

inductive Settlement where
  | answered (origin : Option ℕ) (body : Json)
  | accepted
  | timedOut
  | writeFailed
deriving DecidableEq

structure ForwardCall where
  call : ℕ
  id : Option RpcId
  deadline : ℕ
deriving DecidableEq

structure RequestTimer where
  call : ℕ
  id : RpcId
  deadline : ℕ
deriving DecidableEq

structure StdinWrite where
  call : ℕ
  id : Option RpcId
deriving DecidableEq

structure RequestLine where
  call : ℕ
  id : Json
  message : Json
deriving DecidableEq

structure Session where
  client : StdioMcpClient
  clock : ℕ
  calls : List ForwardCall
  timers : List RequestTimer
  writing : List StdinWrite
  wire : List RequestLine
  settled : List (ℕ × Settlement)

inductive SessionEvent where
  | forward (call : ℕ) (message : Json) (timeoutMs : ℕ) (flushed : Bool)
  | drained (call : ℕ)
  | writeError (call : ℕ) (delivered : Bool)
  | answer (call : ℕ) (parsed : Json)
  | line (parsed : Json)
  | timeout (call : ℕ)
  | tick (ms : ℕ)

namespace Session

def init : Session where
  client := .init
  clock := 0
  calls := []
  timers := []
  writing := []
  wire := []
  settled := []

variable (S : Session)

def isSettled (call : ℕ) : Prop := call ∈ S.settled.map Prod.fst

instance (call : ℕ) : Decidable (S.isSettled call) := inferInstanceAs (Decidable (_ ∈ _))

-- a promise keeps its first outcome
def settle (call : ℕ) (outcome : Settlement) : Session :=
  { S with settled := if S.isSettled call then S.settled else S.settled ++ [(call, outcome)] }

def clearTimeout (call : ℕ) : Session :=
  { S with timers := S.timers.filter fun t => t.call ≠ call }

def deletePending (id : RpcId) : Session := { S with client := S.client.remove id }

def forwardNotification (call : ℕ) (flushed : Bool) : Session :=
  let S' : Session := { S with calls := S.calls ++ [⟨call, none, S.clock⟩] }
  if flushed then S'.settle call .accepted
  else { S' with writing := S'.writing ++ [⟨call, none⟩] }

def forwardRequest (call : ℕ) (message : Json) (timeoutMs : ℕ) (flushed : Bool) : Session :=
  let id := (S.client.requestId message).1
  let deadline := S.clock + timeoutMs
  { S with
    client := S.client.register message call
    calls := S.calls ++ [⟨call, some id, deadline⟩]
    timers := S.timers ++ [⟨call, id, deadline⟩]
    writing := if flushed then S.writing else S.writing ++ [⟨call, some id⟩]
    wire := S.wire ++ [⟨call, wireId id, StdioMcpClient.outgoing message id⟩] }

def finish (call : ℕ) (id : RpcId) (outcome : Settlement) : Session :=
  ((S.clearTimeout call).deletePending id).settle call outcome

def processLine (origin : Option ℕ) (parsed : Json) : Session :=
  match S.client.correlate parsed with
  | none => S
  | some (id, call) => S.finish call id (.answered origin parsed)

def onTimeout (t : RequestTimer) : Session := S.finish t.call t.id .timedOut

def stopWriting (w : StdinWrite) : Session := { S with writing := S.writing.erase w }

def onWriteError (w : StdinWrite) : Session :=
  match w.id with
  | none => (S.settle w.call .writeFailed).stopWriting w
  | some id => (S.finish w.call id .writeFailed).stopWriting w

def onDrained (w : StdinWrite) : Session :=
  match w.id with
  | none => (S.settle w.call .accepted).stopWriting w
  | some _ => S.stopWriting w

def withoutLine (call : ℕ) : Session := { S with wire := S.wire.filter fun l => l.call ≠ call }

def step : SessionEvent → Option Session
  | .forward call message timeoutMs flushed =>
      if call ∈ S.calls.map ForwardCall.call then none
      else if isMcpNotification message then some (S.forwardNotification call flushed)
      else some (S.forwardRequest call message timeoutMs flushed)
  | .drained call => (S.writing.find? fun w => w.call = call).map S.onDrained
  | .writeError call delivered =>
      (S.writing.find? fun w => w.call = call).map fun w =>
        if delivered then S.onWriteError w else (S.onWriteError w).withoutLine call
  | .answer call parsed =>
      match S.wire.find? fun l => l.call = call with
      | none => none
      | some l =>
          if parsed.get? "id" = some l.id then
            some ((S.withoutLine call).processLine (some call) parsed)
          else none
  | .line parsed => if parsed = .null then none else some (S.processLine none parsed)
  | .timeout call =>
      ((S.timers.find? fun t => t.call = call).filter fun t => t.deadline ≤ S.clock).map S.onTimeout
  | .tick ms =>
      if ∀ t ∈ S.timers, S.clock + ms ≤ t.deadline then some { S with clock := S.clock + ms } else none

-- no request in progress uses the id, and the child's other lines name no pending id
def IdsApart : SessionEvent → Prop
  | .forward _ message _ _ =>
      isMcpNotification message = false →
        S.client.pending.get? (S.client.requestId message).1 = none ∧
          (∀ l ∈ S.wire, l.id = wireId (S.client.requestId message).1 → l.id = .null) ∧
            ∀ w ∈ S.writing, w.id ≠ some (S.client.requestId message).1
  | .line parsed => S.client.correlate parsed = none
  | _ => True

instance (e : SessionEvent) : Decidable (S.IdsApart e) := by
  cases e <;> unfold IdsApart <;> infer_instance

def AnsweredByOwnLine : Prop :=
  ∀ call origin body, (call, Settlement.answered origin body) ∈ S.settled → origin = some call

def Settles : Prop :=
  ∀ c ∈ S.calls, S.isSettled c.call ∨ match c.id with
    | some id => ⟨c.call, id, c.deadline⟩ ∈ S.timers ∧ S.clock ≤ c.deadline
    | none => ⟨c.call, none⟩ ∈ S.writing

def KeepsOthers : Prop :=
  ∀ call e S', (e = .timeout call ∨ ∃ delivered, e = .writeError call delivered) →
    S.step e = some S' → ∀ id owner, owner ≠ call →
      S.client.pending.get? id = some owner → S'.client.pending.get? id = some owner

def CanSettle : Prop :=
  ∃ es S', Transition.run step S es = some S' ∧ ∀ c ∈ S.calls, S'.isSettled c.call

structure Correlated : Prop where
  known : ∀ id call, S.client.pending.get? id = some call → call ∈ S.calls.map ForwardCall.call
  timed : ∀ id call, S.client.pending.get? id = some call →
    ∃ deadline, ⟨call, id, deadline⟩ ∈ S.timers
  timerKnown : ∀ t ∈ S.timers, ⟨t.call, some t.id, t.deadline⟩ ∈ S.calls
  timerOwner : ∀ t ∈ S.timers, S.client.pending.get? t.id = some t.call
  writeKnown : ∀ w ∈ S.writing, ∃ deadline, ⟨w.call, w.id, deadline⟩ ∈ S.calls
  writeOwner : ∀ w ∈ S.writing, ∀ id, w.id = some id → ∀ call,
    S.client.pending.get? id = some call → call = w.call
  lineOwner : ∀ l ∈ S.wire, l.id ≠ .null → ∀ id, wireId id = l.id → ∀ call,
    S.client.pending.get? id = some call → call = l.call
  lineId : ∀ l ∈ S.wire, ∃ id, wireId id = l.id
  callsNodup : (S.calls.map ForwardCall.call).Nodup
  due : ∀ t ∈ S.timers, S.clock ≤ t.deadline
  answered : S.AnsweredByOwnLine
  settles : S.Settles

variable {S}

theorem settled_of_not {call : ℕ} (outcome : Settlement) (h : ¬S.isSettled call) :
    (S.settle call outcome).settled = S.settled ++ [(call, outcome)] := if_neg h

theorem settled_of_isSettled {call : ℕ} (outcome : Settlement) (h : S.isSettled call) :
    (S.settle call outcome).settled = S.settled := if_pos h

theorem isSettled_settle (call : ℕ) (outcome : Settlement) :
    (S.settle call outcome).isSettled call := by
  rcases em (S.isSettled call) with hset | hset
  · rw [isSettled, settled_of_isSettled outcome hset]
    exact hset
  · simp [isSettled, settled_of_not outcome hset]

theorem isSettled_settle_of {call c : ℕ} {outcome : Settlement} (h : S.isSettled c) :
    (S.settle call outcome).isSettled c := by
  have hmem : c ∈ S.settled.map Prod.fst := h
  rcases em (S.isSettled call) with hset | hset
  · rw [isSettled, settled_of_isSettled outcome hset]
    exact h
  · rw [isSettled, settled_of_not outcome hset, List.map_append]
    exact List.mem_append_left _ hmem

theorem mem_settle {call c : ℕ} {outcome o : Settlement}
    (h : (c, o) ∈ (S.settle call outcome).settled) :
    (c, o) ∈ S.settled ∨ c = call ∧ o = outcome := by
  simp only [settle] at h
  split at h
  · exact .inl h
  · simpa using h

theorem get?_of_remove {C : StdioMcpClient} {id j : RpcId} {call : ℕ}
    (h : (C.remove id).pending.get? j = some call) : j ≠ id ∧ C.pending.get? j = some call := by
  simp only [StdioMcpClient.remove, OrderedMap.get?_delete] at h
  split at h
  · simp at h
  next hne => exact ⟨Ne.symm hne, h⟩

theorem call_unique (h : S.Correlated) {c d : ForwardCall} (hc : c ∈ S.calls) (hd : d ∈ S.calls)
    (hcall : c.call = d.call) : c = d :=
  List.inj_on_of_nodup_map h.callsNodup hc hd hcall

theorem correlated_settle (h : S.Correlated) (call : ℕ) {outcome : Settlement}
    (hanswer : ∀ origin body, outcome ≠ .answered origin body) :
    (S.settle call outcome).Correlated := by
  refine ⟨h.known, h.timed, h.timerKnown, h.timerOwner, h.writeKnown, h.writeOwner, h.lineOwner,
    h.lineId, h.callsNodup, h.due, ?_, ?_⟩
  · intro c origin body hmem
    rcases mem_settle hmem with hold | ⟨-, heq⟩
    · exact h.answered c origin body hold
    · exact absurd heq.symm (hanswer origin body)
  · exact fun c hc => (h.settles c hc).imp_left isSettled_settle_of

theorem mem_clearTimeout {call : ℕ} {t : RequestTimer} :
    t ∈ (S.clearTimeout call).timers ↔ t ∈ S.timers ∧ t.call ≠ call := by
  simp [clearTimeout]

theorem correlated_finish (h : S.Correlated) {call : ℕ} {id : RpcId} {deadline : ℕ}
    (hcall : ⟨call, some id, deadline⟩ ∈ S.calls)
    (hown : ∀ owner, S.client.pending.get? id = some owner → owner = call) {o : Settlement}
    (hanswer : ∀ origin body, o = .answered origin body → origin = some call) :
    (S.finish call id o).Correlated := by
  constructor
  case known => exact fun j owner hj => h.known j owner (get?_of_remove hj).2
  case timed =>
    intro j owner hj
    obtain ⟨hne, hold⟩ := get?_of_remove hj
    obtain ⟨d, hd⟩ := h.timed j owner hold
    refine ⟨d, mem_clearTimeout.2 ⟨hd, ?_⟩⟩
    rintro rfl
    have hsame := call_unique h (h.timerKnown _ hd) hcall rfl
    simp only [ForwardCall.mk.injEq, Option.some.injEq] at hsame
    exact hne hsame.2.1
  case timerKnown => exact fun t ht => h.timerKnown t (mem_clearTimeout.1 ht).1
  case timerOwner =>
    intro t ht
    obtain ⟨hold, hne⟩ := mem_clearTimeout.1 ht
    have howner := h.timerOwner t hold
    have hid : id ≠ t.id := by
      rintro rfl
      exact hne (hown t.call howner)
    exact (OrderedMap.get?_delete_of_ne _ hid).trans howner
  case writeKnown => exact h.writeKnown
  case writeOwner =>
    exact fun w hw j hj owner ho => h.writeOwner w hw j hj owner (get?_of_remove ho).2
  case lineOwner =>
    exact fun l hl hnull j hj owner ho => h.lineOwner l hl hnull j hj owner (get?_of_remove ho).2
  case lineId => exact h.lineId
  case callsNodup => exact h.callsNodup
  case due => exact fun t ht => h.due t (mem_clearTimeout.1 ht).1
  case answered =>
    intro c origin body hmem
    rcases mem_settle hmem with hold | ⟨rfl, heq⟩
    · exact h.answered c origin body hold
    · exact hanswer origin body heq.symm
  case settles =>
    intro c hc
    rcases eq_or_ne c.call call with rfl | hne
    · exact .inl (isSettled_settle _ _)
    rcases h.settles c hc with hset | hlive
    · exact .inl (isSettled_settle_of hset)
    · right
      cases hid : c.id with
      | none =>
          simp only [hid] at hlive
          exact hlive
      | some i =>
          simp only [hid] at hlive
          exact ⟨mem_clearTimeout.2 ⟨hlive.1, hne⟩, hlive.2⟩

theorem correlated_withoutLine (h : S.Correlated) (call : ℕ) :
    (S.withoutLine call).Correlated := by
  have hsub : ∀ l, l ∈ (S.withoutLine call).wire → l ∈ S.wire := fun l hl =>
    List.mem_of_mem_filter hl
  exact ⟨h.known, h.timed, h.timerKnown, h.timerOwner, h.writeKnown, h.writeOwner,
    fun l hl => h.lineOwner l (hsub l hl), fun l hl => h.lineId l (hsub l hl), h.callsNodup, h.due,
    h.answered, h.settles⟩

theorem correlated_stopWriting (h : S.Correlated) {w : StdinWrite}
    (hset : w.id = none → S.isSettled w.call) : (S.stopWriting w).Correlated := by
  have hsub : ∀ v, v ∈ (S.stopWriting w).writing → v ∈ S.writing := fun v hv =>
    List.mem_of_mem_erase hv
  refine ⟨h.known, h.timed, h.timerKnown, h.timerOwner, fun v hv => h.writeKnown v (hsub v hv),
    fun v hv => h.writeOwner v (hsub v hv), h.lineOwner, h.lineId, h.callsNodup, h.due, h.answered,
    ?_⟩
  intro c hc
  rcases h.settles c hc with hold | hlive
  · exact .inl hold
  cases hid : c.id with
  | some i =>
      simp only [hid] at hlive
      exact .inr hlive
  | none =>
      simp only [hid] at hlive
      rcases eq_or_ne (⟨c.call, none⟩ : StdinWrite) w with rfl | hne
      · exact .inl (hset rfl)
      · exact .inr ((List.mem_erase_of_ne hne).mpr hlive)

theorem correlated_onDrained (h : S.Correlated) (w : StdinWrite) : (S.onDrained w).Correlated := by
  unfold onDrained
  cases hid : w.id with
  | none =>
      exact correlated_stopWriting (correlated_settle h w.call (by simp))
        fun _ => isSettled_settle w.call _
  | some id => exact correlated_stopWriting h fun hnone => by simp [hid] at hnone

theorem correlated_onWriteError (h : S.Correlated) {w : StdinWrite} (hw : w ∈ S.writing) :
    (S.onWriteError w).Correlated := by
  unfold onWriteError
  cases hid : w.id with
  | none =>
      exact correlated_stopWriting (correlated_settle h w.call (by simp))
        fun _ => isSettled_settle w.call _
  | some id =>
      obtain ⟨deadline, hcall⟩ := h.writeKnown w hw
      rw [hid] at hcall
      have hfinished := correlated_finish h hcall (h.writeOwner w hw id hid)
        (o := .writeFailed) (by simp)
      exact correlated_stopWriting hfinished fun hnone => by simp [hid] at hnone

theorem correlated_onTimeout (h : S.Correlated) {t : RequestTimer} (ht : t ∈ S.timers) :
    (S.onTimeout t).Correlated := by
  refine correlated_finish h (h.timerKnown t ht) (fun owner howner => ?_) (by simp)
  exact (Option.some.inj ((h.timerOwner t ht).symm.trans howner)).symm

theorem correlated_answer (h : S.Correlated) {l : RequestLine} (hl : l ∈ S.wire) {parsed : Json}
    (hecho : parsed.get? "id" = some l.id) :
    ((S.withoutLine l.call).processLine (some l.call) parsed).Correlated := by
  have hremoved := correlated_withoutLine h l.call
  unfold processLine
  split
  · exact hremoved
  next id call hcorrelate =>
    obtain ⟨⟨lineId, hparsed, hkey⟩, hpending⟩ :=
      (StdioMcpClient.correlate_eq_some _).mp hcorrelate
    obtain rfl := Option.some.inj (hecho.symm.trans hparsed)
    have hwire := wireId_of_rpcId? hkey (h.lineId l hl)
    have hnull : l.id ≠ .null := by
      intro hnull
      simp [hnull, rpcId?] at hkey
    have hcall : call = l.call := h.lineOwner l hl hnull id hwire call hpending
    subst hcall
    obtain ⟨deadline, htimer⟩ := h.timed id l.call hpending
    refine correlated_finish hremoved (h.timerKnown _ htimer) (fun owner howner => ?_) ?_
    · exact Option.some.inj (howner.symm.trans hpending)
    · rintro origin body heq
      exact (Settlement.answered.inj heq).1.symm

theorem calls_nodup_append (h : S.Correlated) {call : ℕ}
    (hfresh : call ∉ S.calls.map ForwardCall.call) (id : Option RpcId) (deadline : ℕ) :
    ((S.calls ++ [(⟨call, id, deadline⟩ : ForwardCall)]).map ForwardCall.call).Nodup := by
  rw [List.map_append, List.nodup_append]
  refine ⟨h.callsNodup, by simp, ?_⟩
  rintro c hc d hd rfl
  obtain rfl := List.mem_singleton.mp hd
  exact hfresh hc

theorem correlated_forwardNotification (h : S.Correlated) {call : ℕ}
    (hfresh : call ∉ S.calls.map ForwardCall.call) (flushed : Bool) :
    (S.forwardNotification call flushed).Correlated := by
  have hmem : ∀ c : ForwardCall, c ∈ S.calls → c ∈ S.calls ++ [⟨call, none, S.clock⟩] :=
    fun c hc => List.mem_append_left _ hc
  have hknown : ∀ c, c ∈ S.calls.map ForwardCall.call →
      c ∈ (S.calls ++ [(⟨call, none, S.clock⟩ : ForwardCall)]).map ForwardCall.call := by
    intro c hc
    rw [List.map_append]
    exact List.mem_append_left _ hc
  have hwrites : ∀ w ∈ S.writing, ∃ d, (⟨w.call, w.id, d⟩ : ForwardCall) ∈
      S.calls ++ [⟨call, none, S.clock⟩] := fun w hw =>
    (h.writeKnown w hw).imp fun d hd => hmem _ hd
  have hnodup := calls_nodup_append h hfresh none S.clock
  cases flushed with
  | true =>
      refine ⟨fun id c hc => hknown c (h.known id c hc), h.timed,
        fun t ht => hmem _ (h.timerKnown t ht), h.timerOwner, hwrites, h.writeOwner, h.lineOwner,
        h.lineId, hnodup, h.due, ?_, ?_⟩
      · intro c origin body hc
        rcases mem_settle hc with hold | ⟨-, heq⟩
        · exact h.answered c origin body hold
        · simp at heq
      · intro c hc
        rcases List.mem_append.mp hc with hold | hnew
        · exact (h.settles c hold).imp_left isSettled_settle_of
        · obtain rfl := List.mem_singleton.mp hnew
          exact .inl (isSettled_settle _ _)
  | false =>
      refine ⟨fun id c hc => hknown c (h.known id c hc), h.timed,
        fun t ht => hmem _ (h.timerKnown t ht), h.timerOwner, ?_, ?_, h.lineOwner,
        h.lineId, hnodup, h.due, h.answered, ?_⟩
      · intro w hw
        rcases List.mem_append.mp hw with hold | hnew
        · exact hwrites w hold
        · obtain rfl := List.mem_singleton.mp hnew
          exact ⟨S.clock, List.mem_append_right _ (List.mem_singleton_self _)⟩
      · intro w hw id hid c hc
        rcases List.mem_append.mp hw with hold | hnew
        · exact h.writeOwner w hold id hid c hc
        · obtain rfl := List.mem_singleton.mp hnew
          simp at hid
      · intro c hc
        rcases List.mem_append.mp hc with hold | hnew
        · refine (h.settles c hold).imp_right fun hlive => ?_
          cases hid : c.id with
          | some i =>
              simp only [hid] at hlive
              exact hlive
          | none =>
              simp only [hid] at hlive
              exact List.mem_append_left _ hlive
        · obtain rfl := List.mem_singleton.mp hnew
          exact .inr (List.mem_append_right _ (List.mem_singleton_self _))

theorem correlated_forwardRequest (h : S.Correlated) {call : ℕ} {message : Json}
    (hfresh : call ∉ S.calls.map ForwardCall.call) (timeoutMs : ℕ) (flushed : Bool)
    (hpending : S.client.pending.get? (S.client.requestId message).1 = none)
    (hwire : ∀ l ∈ S.wire, l.id = wireId (S.client.requestId message).1 → l.id = .null)
    (hwriting : ∀ w ∈ S.writing, w.id ≠ some (S.client.requestId message).1) :
    (S.forwardRequest call message timeoutMs flushed).Correlated := by
  generalize hi : (S.client.requestId message).1 = i at hpending hwire hwriting
  have hget : ∀ j owner, (S.client.register message call).pending.get? j = some owner →
      j = i ∧ owner = call ∨ j ≠ i ∧ S.client.pending.get? j = some owner := by
    intro j owner hj
    simp only [StdioMcpClient.register, hi, OrderedMap.get?_set] at hj
    split at hj
    next heq => exact .inl ⟨heq.symm, (Option.some.inj hj).symm⟩
    next hne => exact .inr ⟨Ne.symm hne, hj⟩
  have hold : ∀ j owner, S.client.pending.get? j = some owner →
      (S.client.register message call).pending.get? j = some owner := by
    intro j owner hj
    have hne : i ≠ j := by
      rintro rfl
      simp [hpending] at hj
    simp only [StdioMcpClient.register, hi]
    rw [OrderedMap.get?_set_of_ne _ _ hne]
    exact hj
  have hmem : ∀ c, c ∈ S.calls → c ∈ (S.forwardRequest call message timeoutMs flushed).calls :=
    fun c hc => List.mem_append_left _ hc
  have hself : ⟨call, some i, S.clock + timeoutMs⟩ ∈
      (S.forwardRequest call message timeoutMs flushed).calls := by
    simp [forwardRequest, hi]
  have htimerSelf : ⟨call, i, S.clock + timeoutMs⟩ ∈
      (S.forwardRequest call message timeoutMs flushed).timers := by
    simp [forwardRequest, hi]
  have htimers : ∀ t ∈ (S.forwardRequest call message timeoutMs flushed).timers,
      t ∈ S.timers ∨ t = ⟨call, i, S.clock + timeoutMs⟩ := by
    intro t ht
    simpa [forwardRequest, hi] using ht
  have hwrites : ∀ w ∈ (S.forwardRequest call message timeoutMs flushed).writing,
      w ∈ S.writing ∨ w = ⟨call, some i⟩ := by
    intro w hw
    cases flushed with
    | true => exact .inl hw
    | false => simpa [forwardRequest, hi] using hw
  have hlines : ∀ l ∈ (S.forwardRequest call message timeoutMs flushed).wire,
      l ∈ S.wire ∨ l.call = call ∧ l.id = wireId i := by
    intro l hl
    rcases List.mem_append.mp hl with hl | hl
    · exact .inl hl
    · obtain rfl := List.mem_singleton.mp hl
      exact .inr ⟨rfl, by rw [hi]⟩
  constructor
  case known =>
    intro j owner hj
    rcases hget j owner hj with ⟨-, rfl⟩ | ⟨-, hj⟩
    · exact List.mem_map.mpr ⟨_, hself, rfl⟩
    · obtain ⟨c, hc, rfl⟩ := List.mem_map.mp (h.known j owner hj)
      exact List.mem_map.mpr ⟨c, hmem c hc, rfl⟩
  case timed =>
    intro j owner hj
    rcases hget j owner hj with ⟨rfl, rfl⟩ | ⟨-, hj⟩
    · exact ⟨_, htimerSelf⟩
    · exact (h.timed j owner hj).imp fun d hd => List.mem_append_left _ hd
  case timerKnown =>
    intro t ht
    rcases htimers t ht with ht | rfl
    · exact hmem _ (h.timerKnown t ht)
    · exact hself
  case timerOwner =>
    intro t ht
    rcases htimers t ht with ht | rfl
    · exact hold _ _ (h.timerOwner t ht)
    · change (S.client.register message call).pending.get? i = some call
      simp [StdioMcpClient.register, hi]
  case writeKnown =>
    intro w hw
    rcases hwrites w hw with hw | rfl
    · exact (h.writeKnown w hw).imp fun d hd => hmem _ hd
    · exact ⟨_, hself⟩
  case writeOwner =>
    intro w hw j hj owner howner
    rcases hwrites w hw with hw | rfl
    · rcases hget j owner howner with ⟨rfl, -⟩ | ⟨-, hp⟩
      · exact absurd hj (hwriting w hw)
      · exact h.writeOwner w hw j hj owner hp
    · rcases hget j owner howner with ⟨-, rfl⟩ | ⟨hne, -⟩
      · rfl
      · exact absurd (Option.some.inj hj).symm hne
  case lineOwner =>
    intro l hl hnull j hj owner howner
    rcases hlines l hl with hl | ⟨hcall, hid⟩
    · rcases hget j owner howner with ⟨rfl, -⟩ | ⟨-, hp⟩
      · exact absurd (hwire l hl hj.symm) hnull
      · exact h.lineOwner l hl hnull j hj owner hp
    · rcases hget j owner howner with ⟨-, rfl⟩ | ⟨hne, -⟩
      · exact hcall.symm
      · exact absurd (wireId_inj (hj.trans hid) (hj ▸ hnull)) hne
  case lineId =>
    intro l hl
    rcases hlines l hl with hl | ⟨-, hid⟩
    · exact h.lineId l hl
    · exact ⟨i, hid.symm⟩
  case callsNodup => exact calls_nodup_append h hfresh _ _
  case due =>
    intro t ht
    rcases htimers t ht with ht | rfl
    · exact h.due t ht
    · exact Nat.le_add_right _ _
  case answered => exact h.answered
  case settles =>
    intro c hc
    rcases List.mem_append.mp hc with hc | hc
    · refine (h.settles c hc).imp_right fun hlive => ?_
      cases hid : c.id with
      | some j =>
          simp only [hid] at hlive
          exact ⟨List.mem_append_left _ hlive.1, hlive.2⟩
      | none =>
          simp only [hid] at hlive
          cases flushed with
          | true => exact hlive
          | false => exact List.mem_append_left _ hlive
    · obtain rfl := List.mem_singleton.mp hc
      exact .inr ⟨by rw [hi]; exact htimerSelf, Nat.le_add_right _ _⟩

theorem correlated_step {S S' : Session} {e : SessionEvent} (h : S.Correlated)
    (hids : S.IdsApart e) (hstep : S.step e = some S') : S'.Correlated := by
  cases e with
  | forward call message timeoutMs flushed =>
      simp only [step, Option.ite_none_left_eq_some] at hstep
      obtain ⟨hfresh, hstep⟩ := hstep
      cases hnotify : isMcpNotification message with
      | true =>
          simp only [hnotify, if_true, Option.some.injEq] at hstep
          exact hstep ▸ correlated_forwardNotification h hfresh flushed
      | false =>
          simp only [hnotify, Bool.false_eq_true, if_false, Option.some.injEq] at hstep
          obtain ⟨hpending, hwire, hwriting⟩ := hids hnotify
          exact hstep ▸ correlated_forwardRequest h hfresh timeoutMs flushed hpending hwire hwriting
  | drained call =>
      obtain ⟨w, -, rfl⟩ := Option.map_eq_some_iff.mp hstep
      exact correlated_onDrained h w
  | writeError call delivered =>
      obtain ⟨w, hw, rfl⟩ := Option.map_eq_some_iff.mp hstep
      have hfailed := correlated_onWriteError h (List.mem_of_find?_eq_some hw)
      cases delivered with
      | true => exact hfailed
      | false => exact correlated_withoutLine hfailed call
  | answer call parsed =>
      simp only [step] at hstep
      split at hstep
      · simp at hstep
      next l hl =>
        obtain ⟨hecho, heq⟩ := Option.ite_none_right_eq_some.mp hstep
        obtain rfl : l.call = call := by simpa using List.find?_some hl
        exact (Option.some.inj heq) ▸ correlated_answer h (List.mem_of_find?_eq_some hl) hecho
  | line parsed =>
      obtain ⟨-, heq⟩ := Option.ite_none_left_eq_some.mp hstep
      have hignored : S.processLine none parsed = S := by
        rw [processLine, show S.client.correlate parsed = none from hids]
      rw [hignored] at heq
      exact (Option.some.inj heq) ▸ h
  | timeout call =>
      obtain ⟨t, ht, rfl⟩ := Option.map_eq_some_iff.mp hstep
      exact correlated_onTimeout h (List.mem_of_find?_eq_some (Option.filter_eq_some_iff.mp ht).1)
  | tick ms =>
      obtain ⟨hdue, heq⟩ := Option.ite_none_right_eq_some.mp hstep
      obtain rfl := Option.some.inj heq
      refine ⟨h.known, h.timed, h.timerKnown, h.timerOwner, h.writeKnown, h.writeOwner, h.lineOwner,
        h.lineId, h.callsNodup, hdue, h.answered, fun c hc => ?_⟩
      refine (h.settles c hc).imp_right fun hlive => ?_
      cases hid : c.id with
      | some i =>
          simp only [hid] at hlive
          exact ⟨hlive.1, hdue _ hlive.1⟩
      | none =>
          simp only [hid] at hlive
          exact hlive

theorem correlated_init : init.Correlated := by
  constructor <;> simp [init, StdioMcpClient.init, AnsweredByOwnLine, Settles]

theorem Correlated.keepsOthers (h : S.Correlated) : S.KeepsOthers := by
  rintro call e S' (rfl | ⟨delivered, rfl⟩) hstep id owner hne howner
  · obtain ⟨t, ht, rfl⟩ := Option.map_eq_some_iff.mp hstep
    have hfound := (Option.filter_eq_some_iff.mp ht).1
    obtain rfl : t.call = call := by simpa using List.find?_some hfound
    have hid : t.id ≠ id := by
      rintro rfl
      exact hne (Option.some.inj
        (howner.symm.trans (h.timerOwner t (List.mem_of_find?_eq_some hfound))))
    exact (OrderedMap.get?_delete_of_ne _ hid).trans howner
  · obtain ⟨w, hw, rfl⟩ := Option.map_eq_some_iff.mp hstep
    obtain rfl : w.call = call := by simpa using List.find?_some hw
    have hfailed : (S.onWriteError w).client.pending.get? id = some owner := by
      unfold onWriteError
      cases hid : w.id with
      | none => exact howner
      | some i =>
          have hi : i ≠ id := by
            rintro rfl
            exact hne (h.writeOwner w (List.mem_of_find?_eq_some hw) i hid owner howner)
          exact (OrderedMap.get?_delete_of_ne _ hi).trans howner
    cases delivered <;> exact hfailed

theorem exists_first_timer {timers : List RequestTimer} (h : timers ≠ []) :
    ∃ t ∈ timers, ∀ u ∈ timers, t.deadline ≤ u.deadline := by
  induction timers with
  | nil => exact absurd rfl h
  | cons t rest ih =>
      rcases eq_or_ne rest [] with rfl | hrest
      · exact ⟨t, by simp, by simp⟩
      obtain ⟨u, hu, hmin⟩ := ih hrest
      rcases le_total t.deadline u.deadline with hle | hle
      · refine ⟨t, by simp, fun v hv => ?_⟩
        rcases List.mem_cons.mp hv with rfl | hv
        · exact le_rfl
        · exact hle.trans (hmin v hv)
      · refine ⟨u, List.mem_cons_of_mem _ hu, fun v hv => ?_⟩
        rcases List.mem_cons.mp hv with rfl | hv
        · exact hle
        · exact hmin v hv

theorem fire_first_timer (h : S.Correlated) {t : RequestTimer} (ht : t ∈ S.timers)
    (hfirst : ∀ u ∈ S.timers, t.deadline ≤ u.deadline) :
    ∃ S', Transition.run step S [.tick (t.deadline - S.clock), .timeout t.call] = some S' ∧
      S'.Correlated ∧ S'.calls = S.calls ∧ S'.writing = S.writing ∧
        S'.timers.length < S.timers.length := by
  have hdue := h.due t ht
  have htick : S.step (.tick (t.deadline - S.clock)) =
      some { S with clock := S.clock + (t.deadline - S.clock) } := by
    refine if_pos fun u hu => ?_
    have := hfirst u hu
    omega
  have hcorrelated := correlated_step h (e := .tick _) trivial htick
  have hfind : S.timers.find? (fun u => u.call = t.call) = some t := by
    cases hu : S.timers.find? fun u => u.call = t.call with
    | none => simpa using List.find?_eq_none.mp hu t ht
    | some u =>
        have hcall : u.call = t.call := by simpa using List.find?_some hu
        have hsame := call_unique h (h.timerKnown u (List.mem_of_find?_eq_some hu))
          (h.timerKnown t ht) hcall
        simp only [ForwardCall.mk.injEq, Option.some.injEq] at hsame
        cases u
        cases t
        simp_all
  have htimeout : step { S with clock := S.clock + (t.deadline - S.clock) } (.timeout t.call) =
      some (onTimeout { S with clock := S.clock + (t.deadline - S.clock) } t) := by
    have hnow : t.deadline ≤ S.clock + (t.deadline - S.clock) := by omega
    simp [step, hfind, Option.filter, hnow]
  refine ⟨_, ?_, correlated_step hcorrelated (e := .timeout _) trivial htimeout, rfl, rfl, ?_⟩
  · rw [Transition.run_cons, htick, Option.bind_some, Transition.run_cons, htimeout,
      Option.bind_some, Transition.run_nil]
  · exact List.length_filter_lt_length_iff_exists.mpr ⟨t, ht, by simp⟩

theorem finish_first_write (h : S.Correlated) {w : StdinWrite} {rest : List StdinWrite}
    (hw : S.writing = w :: rest) :
    ∃ S', S.step (.drained w.call) = some S' ∧ S'.Correlated ∧ S'.calls = S.calls ∧
      S'.timers = S.timers ∧ S'.writing = rest := by
  have hstep : S.step (.drained w.call) = some (S.onDrained w) := by simp [step, hw]
  refine ⟨_, hstep, correlated_onDrained h w, ?_⟩
  unfold onDrained
  cases w.id <;> exact ⟨rfl, rfl, by simp [stopWriting, settle, hw]⟩

theorem Correlated.canSettle (h : S.Correlated) : S.CanSettle := by
  induction hn : S.timers.length + S.writing.length using Nat.strong_induction_on
    generalizing S with
  | _ n ih =>
      cases hwriting : S.writing with
      | cons w rest =>
          obtain ⟨S', hstep, hS', hcalls, htimers, hrest⟩ := finish_first_write h hwriting
          obtain ⟨es, S'', hrun, hall⟩ := ih (S'.timers.length + S'.writing.length)
            (by rw [htimers, hrest]; simp only [hwriting, List.length_cons] at hn; omega) hS' rfl
          refine ⟨.drained w.call :: es, S'', (Transition.run_cons_eq_some _).mpr ⟨S', hstep, hrun⟩, ?_⟩
          rwa [hcalls] at hall
      | nil =>
          rcases eq_or_ne S.timers [] with htimers | htimers
          · refine ⟨[], S, rfl, fun c hc => ?_⟩
            rcases h.settles c hc with hset | hlive
            · exact hset
            · cases hid : c.id <;> simp [hid, htimers, hwriting] at hlive
          obtain ⟨t, ht, hfirst⟩ := exists_first_timer htimers
          obtain ⟨S', hfire, hS', hcalls, hsame, hlt⟩ := fire_first_timer h ht hfirst
          obtain ⟨es, S'', hrun, hall⟩ := ih (S'.timers.length + S'.writing.length)
            (by rw [hsame]; omega) hS' rfl
          refine ⟨_ ++ es, S'', (Transition.run_append_eq_some _).mpr ⟨S', hfire, hrun⟩, ?_⟩
          rwa [hcalls] at hall

def toolsCall (id : Option Json) : Json :=
  .obj ([("jsonrpc", .str "2.0"), ("method", .str "tools/call")] ++
    (id.map fun i => ("id", i)).toList)

def resultFor (id : Json) (text : String) : Json := buildJsonRpcResult id (.str text)

def distinctIdsRun : List SessionEvent :=
  [.forward 1 (toolsCall (some (.str "a"))) 30000 true,
    .forward 2 (toolsCall (some (.str "b"))) 30000 false, .forward 3 (toolsCall none) 10 true,
    .answer 2 (resultFor (.str "b") "second"), .answer 1 (resultFor (.str "a") "first"), .tick 10,
    .timeout 3, .drained 2]

end Session

end Conduit.Proxy
