import Conduit.Foundation.Run
import Conduit.Proxy.StdioSession
import Conduit.Proxy.StdoutLines

namespace Conduit.Proxy

def fastFailureThresholdMs : ℕ := 2000

def respawnBackoffBaseMs : ℕ := 250

def maxRespawnBackoffMs : ℕ := 30000

def maxConsecutiveFastFailures : ℕ := 10

-- the children are numbered in the order of their spawns; `written` tells to which child a call
-- was written, `fed` what was added to the buffer since the last spawn, and `ended` which children
-- have exited and whether a signal ended them
structure Children where
  stdout : Stdout
  process : Option ℕ
  spawned : ℕ
  ended : List (ℕ × Bool)
  errored : List ℕ
  stopped : Bool
  clock : ℕ
  lastSpawnAt : ℕ
  consecutiveFastFailures : ℕ
  nextRespawnAllowedAt : ℕ
  calls : List ℕ
  written : List (ℕ × ℕ)
  timers : List RequestTimer
  writing : List StdinWrite
  rejected : List ℕ
  fed : List UInt8

inductive ChildEvent where
  | forward (call : ℕ) (message : Json) (timeoutMs : ℕ) (launched flushed : Bool)
  | data (child : ℕ) (chunk : List UInt8)
  | exit (child : ℕ) (wasExternalSignal : Bool)
  | error (child : ℕ)
  | timeout (call : ℕ)
  | drained (call : ℕ)
  | writeError (call : ℕ)
  | tick (ms : ℕ)
  | shutdown
  | resetRespawnBudget

def ChildEvent.child : ChildEvent → Option ℕ
  | .data child _ => some child
  | .exit child _ => some child
  | .error child => some child
  | _ => none

namespace Children

def init (now : ℕ) : Children where
  stdout := ⟨.init, []⟩
  process := none
  spawned := 0
  ended := []
  errored := []
  stopped := false
  clock := now
  lastSpawnAt := 0
  consecutiveFastFailures := 0
  nextRespawnAllowedAt := 0
  calls := []
  written := []
  timers := []
  writing := []
  rejected := []
  fed := []

variable (parse : String → Option Json) (S : Children)

def client : StdioMcpClient := S.stdout.dispatch.client

def setClient (C : StdioMcpClient) : Children :=
  { S with stdout := { S.stdout with dispatch := { S.stdout.dispatch with client := C } } }

def clearTimeouts (calls : List ℕ) : Children :=
  { S with timers := S.timers.filter fun t => t.call ∉ calls }

def reject (calls : List ℕ) : Children := { S with rejected := S.rejected ++ calls }

-- `launched` is false where no command is configured or spawn throws
def spawn (launched : Bool) : Option (ℕ × Children) :=
  if S.stopped then none
  else if maxConsecutiveFastFailures ≤ S.consecutiveFastFailures then none
  else if S.clock < S.nextRespawnAllowedAt then none
  else if launched = false then none
  else
    some (S.spawned,
      { S with
        process := some S.spawned
        spawned := S.spawned + 1
        stdout := { S.stdout with stdoutBuffer := [] }
        fed := []
        lastSpawnAt := S.clock })

def ensureProcess (launched : Bool) : Option (ℕ × Children) :=
  match S.process with
  | some child => if (child, false) ∉ S.ended then some (child, S) else S.spawn launched
  | none => S.spawn launched

def write (call child : ℕ) (id : Option RpcId) (flushed : Bool) : Children :=
  { S with
    written := S.written ++ [(call, child)]
    writing := if flushed then S.writing else S.writing ++ [⟨call, id⟩] }

def forwardRequest (call child : ℕ) (message : Json) (timeoutMs : ℕ) (flushed : Bool) : Children :=
  let id := (S.client.requestId message).1
  let S' : Children :=
    { S.setClient (S.client.register message call) with
      timers := S.timers ++ [⟨call, id, S.clock + timeoutMs⟩] }
  S'.write call child (some id) flushed

def doForward (call : ℕ) (message : Json) (timeoutMs : ℕ) (launched flushed : Bool) : Children :=
  match S.ensureProcess launched with
  | none => S.reject [call]
  | some (child, S') =>
      if isMcpNotification message then S'.write call child none flushed
      else S'.forwardRequest call child message timeoutMs flushed

def recordExit (wasExternalSignal : Bool) : Children :=
  if wasExternalSignal then { S with consecutiveFastFailures := 0, nextRespawnAllowedAt := 0 }
  else if S.clock - S.lastSpawnAt < fastFailureThresholdMs then
    { S with
      consecutiveFastFailures := S.consecutiveFastFailures + 1
      nextRespawnAllowedAt :=
        S.clock + min (respawnBackoffBaseMs * 2 ^ S.consecutiveFastFailures) maxRespawnBackoffMs }
  else { S with consecutiveFastFailures := 0, nextRespawnAllowedAt := 0 }

def rejectAllPending : Children :=
  ((S.clearTimeouts S.client.pending.values).reject S.client.pending.values).setClient
    { S.client with pending := .empty }

def onData (chunk : List UInt8) : Children :=
  let stdout := S.stdout.onData parse chunk
  { S with stdout := stdout, fed := S.fed ++ chunk }.clearTimeouts
    (stdout.dispatch.resolved.map Prod.fst)

def markEnded (child : ℕ) (wasExternalSignal : Bool) : Children :=
  { S with process := none, ended := S.ended ++ [(child, wasExternalSignal)] }

def markErrored (child : ℕ) : Children :=
  { S with process := none, errored := S.errored ++ [child] }

def onExit (child : ℕ) (wasExternalSignal : Bool) : Children :=
  ((S.markEnded child wasExternalSignal).recordExit wasExternalSignal).rejectAllPending

def onError (child : ℕ) : Children := ((S.markErrored child).recordExit false).rejectAllPending

def onTimeout (t : RequestTimer) : Children :=
  ((S.clearTimeouts [t.call]).setClient (S.client.remove t.id)).reject [t.call]

def onWriteError (w : StdinWrite) : Children :=
  let S' := { S with writing := S.writing.erase w }.reject [w.call]
  match w.id with
  | none => S'
  | some id => (S'.clearTimeouts [w.call]).setClient (S'.client.remove id)

def shutdown : Children := { S with stopped := true }.rejectAllPending

def resetRespawnBudget : Children :=
  { S with consecutiveFastFailures := 0, nextRespawnAllowedAt := 0 }

def step (S : Children) (e : ChildEvent) : Option Children :=
  if S.stdout.dispatch.crashed then none
  else
    match e with
    | .forward call message timeoutMs launched flushed =>
        if call ∈ S.calls then none
        else
          some ({ S with calls := S.calls ++ [call] }.doForward call message timeoutMs launched flushed)
    | .data child chunk => if child < S.spawned then some (S.onData parse chunk) else none
    | .exit child wasExternalSignal =>
        if child < S.spawned ∧ child ∉ S.ended.map Prod.fst then
          some (S.onExit child wasExternalSignal)
        else none
    | .error child => if child < S.spawned then some (S.onError child) else none
    | .timeout call =>
        ((S.timers.find? fun t => t.call = call).filter fun t => t.deadline ≤ S.clock).map S.onTimeout
    | .drained call =>
        (S.writing.find? fun w => w.call = call).map fun w =>
          { S with writing := S.writing.erase w }
    | .writeError call => (S.writing.find? fun w => w.call = call).map S.onWriteError
    | .tick ms => some { S with clock := S.clock + ms }
    | .shutdown => some S.shutdown
    | .resetRespawnBudget => some S.resetRespawnBudget

section Isolation

-- what an event of another child leaves alone while `child` is the current one
structure Undisturbed (S S' : Children) (child : ℕ) : Prop where
  requests : ∀ call ∈ S'.rejected, (call, child) ∈ S.written → call ∈ S.rejected
  process : S'.process = some child
  buffer : S'.fed = S.fed

def Isolated (S : Children) (e : ChildEvent) : Prop :=
  ∀ S' child current, S.step parse e = some S' → e.child = some child →
    S.process = some current → child ≠ current → S.Undisturbed S' current

-- a child other than the current one is silent, an empty chunk apart
def Orderly (S : Children) (e : ChildEvent) : Prop :=
  ∀ child current, e.child = some child → S.process = some current → child ≠ current →
    e = .data child []

variable {parse} {S}

theorem process_recordExit (S : Children) (wasExternalSignal : Bool) :
    (S.recordExit wasExternalSignal).process = S.process := by
  unfold recordExit
  split
  · rfl
  · split <;> rfl

theorem process_onExit (S : Children) (child : ℕ) (wasExternalSignal : Bool) :
    (S.onExit child wasExternalSignal).process = none :=
  process_recordExit _ wasExternalSignal

theorem process_onError (S : Children) (child : ℕ) : (S.onError child).process = none :=
  process_recordExit _ false

theorem step_of_child {e : ChildEvent} {S' : Children} {child : ℕ} (h : S.step parse e = some S')
    (hchild : e.child = some child) :
    child < S.spawned ∧
      ((∃ chunk, e = .data child chunk ∧ S' = S.onData parse chunk) ∨
        (∃ wasExternalSignal, e = .exit child wasExternalSignal ∧
          S' = S.onExit child wasExternalSignal) ∨
        e = .error child ∧ S' = S.onError child) := by
  have hcrashed : ¬S.stdout.dispatch.crashed = true := by
    intro hcrashed
    simp only [step, if_pos hcrashed] at h
    cases h
  simp only [step, if_neg hcrashed] at h
  cases e with
  | data c chunk =>
      obtain rfl : c = child := Option.some.inj hchild
      obtain ⟨hlt, heq⟩ := Option.ite_none_right_eq_some.mp h
      exact ⟨hlt, .inl ⟨chunk, rfl, (Option.some.inj heq).symm⟩⟩
  | exit c wasExternalSignal =>
      obtain rfl : c = child := Option.some.inj hchild
      obtain ⟨hlt, heq⟩ := Option.ite_none_right_eq_some.mp h
      exact ⟨hlt.1, .inr (.inl ⟨wasExternalSignal, rfl, (Option.some.inj heq).symm⟩)⟩
  | error c =>
      obtain rfl : c = child := Option.some.inj hchild
      obtain ⟨hlt, heq⟩ := Option.ite_none_right_eq_some.mp h
      exact ⟨hlt, .inr (.inr ⟨rfl, (Option.some.inj heq).symm⟩)⟩
  | forward => cases hchild
  | timeout => cases hchild
  | drained => cases hchild
  | writeError => cases hchild
  | tick => cases hchild
  | shutdown => cases hchild
  | resetRespawnBudget => cases hchild

theorem undisturbed_onData_nil {current : ℕ} (hcurrent : S.process = some current) :
    S.Undisturbed (S.onData parse []) current where
  requests := fun _ hcall _ => hcall
  process := hcurrent
  buffer := List.append_nil _

theorem isolated_iff_orderly {e : ChildEvent} {S' : Children} (h : S.step parse e = some S') :
    S.Isolated parse e ↔ S.Orderly e := by
  constructor
  · intro hisolated child current hchild hcurrent hne
    have hundisturbed := hisolated S' child current h hchild hcurrent hne
    obtain ⟨_, hdata | hexit | herror⟩ := step_of_child h hchild
    · obtain ⟨chunk, rfl, rfl⟩ := hdata
      rw [List.self_eq_append_right.mp hundisturbed.buffer.symm]
    · obtain ⟨wasExternalSignal, _, rfl⟩ := hexit
      have hprocess := hundisturbed.process
      rw [process_onExit] at hprocess
      cases hprocess
    · obtain ⟨_, rfl⟩ := herror
      have hprocess := hundisturbed.process
      rw [process_onError] at hprocess
      cases hprocess
  · intro horderly S'' child current hstep hchild hcurrent hne
    obtain rfl := horderly child current hchild hcurrent hne
    obtain ⟨_, hdata | ⟨_, hexit, _⟩ | ⟨herror, _⟩⟩ := step_of_child hstep hchild
    · obtain ⟨chunk, hchunk, rfl⟩ := hdata
      cases hchunk
      exact undisturbed_onData_nil hcurrent
    · cases hexit
    · cases herror

theorem rejected_recordExit (S : Children) (wasExternalSignal : Bool) :
    (S.recordExit wasExternalSignal).rejected = S.rejected ∧
      (S.recordExit wasExternalSignal).client = S.client := by
  unfold recordExit
  split
  · exact ⟨rfl, rfl⟩
  · split <;> exact ⟨rfl, rfl⟩

theorem rejected_rejectAllPending (S : Children) :
    S.rejectAllPending.rejected = S.rejected ++ S.client.pending.values := rfl

theorem rejected_onExit (S : Children) (child : ℕ) (wasExternalSignal : Bool) :
    (S.onExit child wasExternalSignal).rejected = S.rejected ++ S.client.pending.values := by
  rw [onExit, rejected_rejectAllPending, (rejected_recordExit _ _).1, (rejected_recordExit _ _).2]
  rfl

theorem rejected_onError (S : Children) (child : ℕ) :
    (S.onError child).rejected = S.rejected ++ S.client.pending.values := by
  rw [onError, rejected_rejectAllPending, (rejected_recordExit _ _).1, (rejected_recordExit _ _).2]
  rfl

-- the late exit or error of a child rejects whatever the current child has still to answer
theorem rejects_pending {e : ChildEvent} {S' : Children} {child : ℕ} (h : S.step parse e = some S')
    (hchild : e.child = some child) (hdata : ∀ chunk, e ≠ .data child chunk) {id : RpcId}
    {call : ℕ} (hpending : S.client.pending.get? id = some call) :
    call ∈ S'.rejected ∧ S'.client.pending = .empty := by
  have hmem := OrderedMap.mem_values_of_get? hpending
  obtain ⟨_, ⟨chunk, rfl, _⟩ | ⟨wasExternalSignal, _, rfl⟩ | ⟨_, rfl⟩⟩ := step_of_child h hchild
  · exact absurd rfl (hdata chunk)
  · rw [rejected_onExit]
    exact ⟨List.mem_append_right _ hmem, rfl⟩
  · rw [rejected_onError]
    exact ⟨List.mem_append_right _ hmem, rfl⟩

end Isolation

section LastWords

def gone : List ℕ := S.errored ++ S.ended.map Prod.fst

-- a child's exit or error is the last that is heard of it
def Parting (S : Children) (e : ChildEvent) : Prop := ∀ child, e.child = some child → child ∉ S.gone

structure Accounted : Prop where
  process_lt : ∀ child, S.process = some child → child < S.spawned
  past : ∀ child < S.spawned, S.process = some child ∨ child ∈ S.gone

-- the fields that decide which child is the current one
def lineage : Option ℕ × ℕ × List ℕ × List (ℕ × Bool) :=
  (S.process, S.spawned, S.errored, S.ended)

variable {S} {parse}

theorem Accounted.congr {S' : Children} (h : S.Accounted) (hsame : S'.lineage = S.lineage) :
    S'.Accounted := by
  simp only [lineage, Prod.mk.injEq] at hsame
  obtain ⟨hprocess, hspawned, herrored, hended⟩ := hsame
  constructor
  · rw [hprocess, hspawned]
    exact h.process_lt
  · rw [hprocess, hspawned, gone, herrored, hended]
    exact h.past

theorem accounted_init (now : ℕ) : (init now).Accounted where
  process_lt := fun _ h => (by cases h)
  past := fun _ h => absurd h (Nat.not_lt_zero _)

theorem lineage_recordExit (S : Children) (wasExternalSignal : Bool) :
    (S.recordExit wasExternalSignal).lineage = S.lineage := by
  unfold recordExit
  split
  · rfl
  · split <;> rfl

theorem accounted_spawn (h : S.Accounted) (hpast : ∀ child, S.process = some child → child ∈ S.gone)
    {launched : Bool} {child : ℕ} {S' : Children} (hspawn : S.spawn launched = some (child, S')) :
    S'.Accounted := by
  unfold spawn at hspawn
  split at hspawn
  · cases hspawn
  split at hspawn
  · cases hspawn
  split at hspawn
  · cases hspawn
  split at hspawn
  · cases hspawn
  cases hspawn
  constructor
  · intro child hchild
    rw [← Option.some.inj hchild]
    exact Nat.lt_succ_self _
  · intro child hlt
    rcases Nat.lt_succ_iff_lt_or_eq.mp hlt with hold | rfl
    · exact .inr ((h.past child hold).elim (hpast child) id)
    · exact .inl rfl

theorem accounted_ensureProcess (h : S.Accounted) {launched : Bool} {child : ℕ} {S' : Children}
    (hensure : S.ensureProcess launched = some (child, S')) : S'.Accounted := by
  unfold ensureProcess at hensure
  split at hensure
  next current hcurrent =>
    split at hensure
    next =>
      cases hensure
      exact h
    next hended =>
      apply accounted_spawn h ?_ hensure
      intro other hother
      rw [hcurrent] at hother
      rw [← Option.some.inj hother]
      exact List.mem_append_right _ (List.mem_map_of_mem (not_not.mp hended))
  next hnone =>
    apply accounted_spawn h ?_ hensure
    intro other hother
    rw [hnone] at hother
    cases hother

theorem accounted_doForward (h : S.Accounted) (call : ℕ) (message : Json) (timeoutMs : ℕ)
    (launched flushed : Bool) :
    (S.doForward call message timeoutMs launched flushed).Accounted := by
  unfold doForward
  split
  next => exact h.congr rfl
  next child S' hensure =>
    have hS' := accounted_ensureProcess h hensure
    split
    · exact hS'.congr rfl
    · exact hS'.congr rfl

theorem process_of_parting (h : S.Accounted) {child : ℕ} (hlt : child < S.spawned)
    (hgone : child ∉ S.gone) : S.process = some child :=
  (h.past child hlt).resolve_right hgone

-- the current child leaves the process field, and every other one has gone before
theorem accounted_of_current {child : ℕ} {S' : Children} (h : S.Accounted)
    (hcurrent : S.process = some child) (hprocess : S'.process = none)
    (hspawned : S'.spawned = S.spawned)
    (hgone : ∀ other, other = child ∨ other ∈ S.gone → other ∈ S'.gone) :
    S'.Accounted where
  process_lt := by
    intro other hother
    rw [hprocess] at hother
    cases hother
  past := by
    intro other hlt
    rw [hspawned] at hlt
    rcases h.past other hlt with hother | hold
    · rw [hcurrent] at hother
      exact .inr (hgone other (.inl (Option.some.inj hother).symm))
    · exact .inr (hgone other (.inr hold))

theorem accounted_markEnded (h : S.Accounted) {child : ℕ} (hcurrent : S.process = some child)
    (wasExternalSignal : Bool) : (S.markEnded child wasExternalSignal).Accounted := by
  have hprocess : (S.markEnded child wasExternalSignal).process = none := rfl
  apply accounted_of_current h hcurrent hprocess rfl
  intro other hother
  simp only [gone, markEnded, List.map_append, List.mem_append] at hother ⊢
  rcases hother with rfl | hold | hold
  · exact .inr (.inr (List.mem_cons_self ..))
  · exact .inl hold
  · exact .inr (.inl hold)

theorem accounted_markErrored (h : S.Accounted) {child : ℕ} (hcurrent : S.process = some child) :
    (S.markErrored child).Accounted := by
  have hprocess : (S.markErrored child).process = none := rfl
  apply accounted_of_current h hcurrent hprocess rfl
  intro other hother
  simp only [gone, markErrored, List.mem_append] at hother ⊢
  rcases hother with rfl | hold | hold
  · exact .inl (.inr (List.mem_cons_self ..))
  · exact .inl (.inl hold)
  · exact .inr hold

theorem accounted_onExit (h : S.Accounted) {child : ℕ} (hcurrent : S.process = some child)
    (wasExternalSignal : Bool) : (S.onExit child wasExternalSignal).Accounted :=
  ((accounted_markEnded h hcurrent wasExternalSignal).congr (lineage_recordExit _ _)).congr rfl

theorem accounted_onError (h : S.Accounted) {child : ℕ} (hcurrent : S.process = some child) :
    (S.onError child).Accounted :=
  ((accounted_markErrored h hcurrent).congr (lineage_recordExit _ _)).congr rfl

theorem lineage_onWriteError (S : Children) (w : StdinWrite) :
    (S.onWriteError w).lineage = S.lineage := by
  unfold onWriteError
  split <;> rfl

-- the timers, the writes and the administration leave the children alone
theorem accounted_step_other {e : ChildEvent} {S' : Children} (h : S.Accounted)
    (hchild : e.child = none) (hstep : S.step parse e = some S') : S'.Accounted := by
  have hcrashed : ¬S.stdout.dispatch.crashed = true := by
    intro hcrashed
    simp only [step, if_pos hcrashed] at hstep
    cases hstep
  simp only [step, if_neg hcrashed] at hstep
  cases e with
  | data => cases hchild
  | exit => cases hchild
  | error => cases hchild
  | forward call message timeoutMs launched flushed =>
      obtain ⟨_, heq⟩ := Option.ite_none_left_eq_some.mp hstep
      have hcalls : Accounted { S with calls := S.calls ++ [call] } := h.congr rfl
      rw [← Option.some.inj heq]
      exact accounted_doForward hcalls call message timeoutMs launched flushed
  | timeout call =>
      obtain ⟨t, _, rfl⟩ := Option.map_eq_some_iff.mp hstep
      exact h.congr rfl
  | drained call =>
      obtain ⟨w, _, rfl⟩ := Option.map_eq_some_iff.mp hstep
      exact h.congr rfl
  | writeError call =>
      obtain ⟨w, _, rfl⟩ := Option.map_eq_some_iff.mp hstep
      exact h.congr (lineage_onWriteError S w)
  | tick =>
      cases hstep
      exact h.congr rfl
  | shutdown =>
      cases hstep
      exact h.congr rfl
  | resetRespawnBudget =>
      cases hstep
      exact h.congr rfl

theorem accounted_step {e : ChildEvent} {S' : Children} (h : S.Accounted) (hparting : S.Parting e)
    (hstep : S.step parse e = some S') : S'.Accounted := by
  cases hchild : e.child with
  | some child =>
      obtain ⟨hlt, hcases⟩ := step_of_child hstep hchild
      have hcurrent := process_of_parting h hlt (hparting child hchild)
      rcases hcases with ⟨_, _, rfl⟩ | ⟨_, _, rfl⟩ | ⟨_, rfl⟩
      · exact h.congr rfl
      · exact accounted_onExit h hcurrent _
      · exact accounted_onError h hcurrent
  | none => exact accounted_step_other h hchild hstep

theorem isolated_of_accounted {e : ChildEvent} (h : S.Accounted) (hparting : S.Parting e) :
    S.Isolated parse e := by
  intro S' child current hstep hchild hcurrent hne
  have hown := process_of_parting h (step_of_child hstep hchild).1 (hparting child hchild)
  rw [hcurrent] at hown
  exact absurd (Option.some.inj hown).symm hne

theorem isolated_of_parting {now : ℕ} {es : List ChildEvent}
    (h : Transition.Along (step parse) Parting (init now) es) :
    Transition.Along (step parse) (Isolated parse) (init now) es :=
  Transition.Along.of_invariant _ (fun _ _ _ => accounted_step)
    (fun _ _ => isolated_of_accounted) (accounted_init now) h

end LastWords

end Children

theorem children_isolated_iff (parse : String → Option Json) (now : ℕ) (es : List ChildEvent)
    (S : Children) (hrun : Transition.run (Children.step parse) (.init now) es = some S) :
    Transition.Along (Children.step parse) (Children.Isolated parse) (.init now) es ↔
      Transition.Along (Children.step parse) Children.Orderly (.init now) es :=
  Transition.along_congr_of_run _ (fun _ _ _ h => Children.isolated_iff_orderly h) hrun

def listRequest (id : ℕ) : Json :=
  .obj [("jsonrpc", .str "2.0"), ("id", .num (.finite (.ofNat id))), ("method", .str "tools/list")]

-- child 0 fails after three seconds, child 1 is spawned for call 1, and then child 0 is heard again
def lateChild : List ChildEvent :=
  [.forward 0 (listRequest 1) 30000 true true, .tick 3000, .error 0,
    .forward 1 (listRequest 2) 30000 true true]

def nothingRead (_ : String) : Option Json := none

def observed (es : List ChildEvent) : Option (Option ℕ × List (ℕ × ℕ) × List ℕ × List UInt8) :=
  (Transition.run (Children.step nothingRead) (.init 0) es).map fun S =>
    (S.process, S.written, S.rejected, S.fed)

theorem late_child_isolated_iff :
    Transition.Along (Children.step nothingRead) (Children.Isolated nothingRead) (.init 0)
        (lateChild ++ [.data 0 [0x78], .exit 0 false]) ↔
      Transition.Along (Children.step nothingRead) Children.Orderly (.init 0)
        (lateChild ++ [.data 0 [0x78], .exit 0 false]) :=
  children_isolated_iff nothingRead 0 (lateChild ++ [.data 0 [0x78], .exit 0 false]) _
    (Option.some_get (show (Transition.run (Children.step nothingRead) (.init 0)
      (lateChild ++ [.data 0 [0x78], .exit 0 false])).isSome from by decide +kernel)).symm

theorem late_child_disturbs :
    observed lateChild = some (some 1, [(0, 0), (1, 1)], [0], []) ∧
      observed (lateChild ++ [.data 0 [0x78]]) = some (some 1, [(0, 0), (1, 1)], [0], [0x78]) ∧
      observed (lateChild ++ [.data 0 [0x78], .exit 0 false]) =
        some (none, [(0, 0), (1, 1)], [0, 1], [0x78]) := by
  refine ⟨?_, ?_, ?_⟩ <;> decide +kernel

end Conduit.Proxy
