import Conduit.Foundation.Drain
import Conduit.Gateway.Handler
import Conduit.Gateway.Mediation

namespace Conduit.Gateway

open Drain Router

inductive Resource where
  | queue
  | plugins
  | redisLimiter
  | l2Cache
  | client (serverId : String)
  | logStore
deriving DecidableEq, Repr

-- what the gateway has when stop is called; `clients` are the servers in its map of clients
structure Running where
  pipeline : RequestPipeline
  hasQueue : Bool := false
  hasRedisLimiter : Bool := false
  clients : List ServerConfig := []
  hasServer : Bool := true

def releaseWhen (present : Bool) (resource : Resource) : List (Stage Resource) :=
  if present then [.release resource] else []

namespace Running

variable (G : Running)

-- the clients of stdio servers are the only ones with a shutdown
def shutdownClients : List (Stage Resource) :=
  (G.clients.filter ServerConfig.isStdio).map fun server => .release (.client server.id)

-- everything but the log store, which is closed last
def beforeLogStore : List (Stage Resource) :=
  releaseWhen G.hasQueue .queue ++
    releaseWhen G.pipeline.hasPlugins .plugins ++
    releaseWhen G.hasRedisLimiter .redisLimiter ++
    releaseWhen G.pipeline.hasL2Cache .l2Cache ++
    G.shutdownClients ++
    (if G.hasServer then [.drain] else [])

def stopSequence : List (Stage Resource) := G.beforeLogStore ++ [.release .logStore]

def stopPlan (drainTimeoutMs : ℕ) : Plan Resource where
  sequence := G.stopSequence
  serving := G.hasServer
  timeout := drainTimeoutMs
  drains hserver := by simp [stopSequence, beforeLogStore, hserver]

def usedBy : Op → List Resource
  | .runHook _ => [.plugins]
  | .consumeWorkspaceQuota _ => [.redisLimiter]
  | .consumeClientLimits _ => [.queue, .redisLimiter]
  | .consumeServerLimits _ _ _ => [.queue, .redisLimiter]
  | .forward client _ => if client.replica = 0 then [.client client.serverId] else []
  | .l2Get _ => [.l2Cache]
  | .l2Set _ _ _ => [.l2Cache]
  | .l2DeleteByTool _ _ => [.l2Cache]
  | _ => []

def service (script : Request → ℕ → (o : Op) → Ans o) :
    Drain.Service Op Ans Outcome Outcome Request Resource where
  handler := G.pipeline.handle
  script := script
  uses := usedBy

end Running

abbrev StopState := Drain.State Op Ans Outcome Outcome Request Resource

abbrev StopAct := Drain.Act Op Ans Request

section Runs

variable (G : Running) (drainTimeoutMs : ℕ) (script : Request → ℕ → (o : Op) → Ans o)

def stopStep : StopState → StopAct → Option StopState :=
  step (G.stopPlan drainTimeoutMs) (G.service script)

-- no request is being handled, or the time for the drain has passed since the call of stop
def Unneeded (s : StopState) : Prop := Quiet (G.stopPlan drainTimeoutMs) s

def ReleasesUnneeded (s : StopState) (a : StopAct) : Prop :=
  ∀ resource rest, a = .advance → s.todo = .release resource :: rest →
    Unneeded G drainTimeoutMs s

-- the same of everything but the log store
def EarlyReleasesUnneeded (s : StopState) (a : StopAct) : Prop :=
  ∀ resource rest, a = .advance → s.todo = .release resource :: rest → resource ≠ .logStore →
    Unneeded G drainTimeoutMs s

-- a request from before the stop that took less than the time for the drain has the answer it
-- would have got
def AnsweredInTime (s : StopState) : Prop :=
  ∀ c ∈ s.completed, c.early = true → c.finishedAt - c.since < drainTimeoutMs →
    c.result = Drain.settle (script c.input) 0 (G.pipeline.handle c.input)

end Runs

variable {G : Running} {drainTimeoutMs : ℕ} {script : Request → ℕ → (o : Op) → Ans o}

@[simp] theorem mem_releaseWhen {present : Bool} {resource : Resource} {stage : Stage Resource} :
    stage ∈ releaseWhen present resource ↔ present = true ∧ stage = .release resource := by
  cases present <;> simp [releaseWhen]

theorem logStore_not_mem_beforeLogStore : Stage.release .logStore ∉ G.beforeLogStore := by
  simp [Running.beforeLogStore, Running.shutdownClients]

theorem eq_nil_of_logStore_suffix {rest : List (Stage Resource)}
    (h : .release .logStore :: rest <:+ G.stopSequence) : rest = [] := by
  obtain ⟨before, heq⟩ := h
  rcases List.eq_nil_or_concat' rest with rfl | ⟨init, last, rfl⟩
  · rfl
  · rw [← List.cons_append, ← List.append_assoc] at heq
    have hbefore := (List.append_inj' heq rfl).1
    refine absurd ?_ (logStore_not_mem_beforeLogStore (G := G))
    rw [← hbefore]
    simp

theorem early_of_drain_mem {s : StopState} (hsuffix : s.todo <:+ G.stopSequence)
    {resource : Resource} {rest : List (Stage Resource)}
    (htodo : s.todo = .release resource :: rest) (hdrain : Stage.drain ∈ rest) :
    resource ≠ .logStore := by
  rintro rfl
  obtain rfl := eq_nil_of_logStore_suffix (htodo ▸ hsuffix)
  cases hdrain

-- HTTP servers only, and nothing else to release: such a gateway can stop at any time
theorem early_releases_unneeded_of_none
    (hnone : ∀ resource, Stage.release resource ∉ G.beforeLogStore) (acts : List StopAct) :
    Transition.Along (stopStep G drainTimeoutMs script) (EarlyReleasesUnneeded G drainTimeoutMs)
      (init (G.stopPlan drainTimeoutMs)) acts := by
  refine Transition.Along.of_invariant _ (I := fun s => s.todo <:+ G.stopSequence)
    (fun _ _ _ h _ hstep => step_suffix h hstep) ?_ List.nil_suffix
    (Transition.along_true _ (init (G.stopPlan drainTimeoutMs)) acts)
  intro s a hsuffix _ resource rest _ htodo hearly
  have hmem := hsuffix.subset (htodo ▸ List.mem_cons_self)
  rcases List.mem_append.mp hmem with hmem | hmem
  · exact absurd hmem (hnone resource)
  · cases List.mem_singleton.mp hmem
    exact absurd rfl hearly

section Example

-- a gateway with one stdio server
def stdioGateway : Running where
  pipeline :=
    { host := plainHost
      config := { servers := [{ id := "crm", url := "", transport := some .stdio }] } }
  clients := [{ id := "crm", url := "", transport := some .stdio }]

def promptsRequest : Request where
  self := 0
  serverId := "crm"
  message := .obj [("jsonrpc", .str "2.0"), ("id", .ofNat 1), ("method", .str "prompts/list")]
  context := { traceId := "t", rawHeaders := .empty }

def shutDown : (o : Op) → Ans o
  | .forward _ _ => .error "Stdio client for \"crm\" has been shut down"
  | o => permissive o

-- the request waits for the server when stop is called; its client goes first
def stopRun : List StopAct :=
  [.accept promptsRequest, .answer 0 permissive, .stop, .advance, .answer 0 shutDown, .finish 0]

end Example

end Conduit.Gateway
