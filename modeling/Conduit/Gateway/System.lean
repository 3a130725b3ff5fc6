import Conduit.Foundation.Run
import Conduit.Gateway.Mediation

namespace Conduit.Gateway

open Cache Program

-- how far a Redis command of the call has got
inductive Phase where
  | idle
  | read (found : Option CacheEntry)
  | scanning (digests : List String)

-- `earlier` are the calls whose response had been returned when this one came in
structure Task (P : RequestPipeline) where
  thread : Thread P.handleToolCall
  phase : Phase
  earlier : List CallId

namespace Task

variable {P : RequestPipeline} (t : Task P)

def call : ToolCall := t.thread.input

def trace : Trace := t.thread.trace

def rest : Proc Outcome := t.thread.rest

def pending? : Option Op :=
  match t.rest with
  | .op o _ => some o
  | _ => none

def finished : Bool := t.rest.result?.isSome

def awaitsUpstream : Bool :=
  match t.pending? with
  | some (.forward _ _) => true
  | _ => false

def isForward (e : Event Op Ans) : Bool :=
  match e.1 with
  | .forward _ _ => true
  | _ => false

def hasForwarded : Bool := t.trace.any isForward

end Task

-- `writes` are commands on their way to Redis, `effects` the calls that the upstreams have
-- executed, oldest first
structure World (P : RequestPipeline) where
  tasks : List (Task P)
  l1 : CacheStore
  inflight : InflightTracker FlightResult
  redis : OrderedMap String CacheEntry
  writes : List (String × CacheEntry)
  effects : List CallId

inductive Act where
  | arrive (call : ToolCall)
  | answer (caller : CallId) (environment : (o : Op) → Ans o)
  | takeEffect (caller : CallId)
  | readL2 (caller : CallId)
  | startScan (caller : CallId)
  | scan (caller : CallId) (digest : String)
  | failScan (caller : CallId)
  | landWrite (index : ℕ)
  | evict (key : String)
  | expire (key : String)

def RequestPipeline.digest (P : RequestPipeline) (key : CacheKeyOptions) : String :=
  generateCacheKey P.host key

namespace World

variable {P : RequestPipeline}

def init (P : RequestPipeline) : World P where
  tasks := []
  l1 := .init P.config.cache.l1
  inflight := .init
  redis := .empty
  writes := []
  effects := []

variable (w : World P)

def returned : List CallId :=
  (List.range w.tasks.length).filter fun c => w.tasks[c]?.any Task.finished

def setTask (caller : CallId) (t : Task P) : World P := { w with tasks := w.tasks.set caller t }

-- the answer to an operation and what it does to the shared state; whatever the gateway does not
-- decide by itself comes from the environment
def serve (caller : CallId) (phase : Phase) (environment : (o : Op) → Ans o) :
    (o : Op) → Option (World P × Ans o)
  | .l1Get key =>
      let got := w.l1.get (P.digest key) (environment .now)
      some ({ w with l1 := got.1 }, got.2)
  | .l1Set key entry => some ({ w with l1 := w.l1.set (P.digest key) entry }, ())
  | .l1DeleteByTool toolName serverId =>
      some ({ w with l1 := (w.l1.deleteByTool toolName serverId).1 }, ())
  | .l2Get key =>
      match phase with
      | .read found => some (w, (environment (.l2Get key)).bind fun _ => found)
      | _ => none
  | .l2Set key entry _ => some ({ w with writes := w.writes ++ [(P.digest key, entry.reread)] }, ())
  | .l2DeleteByTool _ _ =>
      match phase with
      | .scanning [] => some (w, ())
      | _ => none
  | .enterFlight key =>
      let entered := w.inflight.enter (P.digest key) caller
      some ({ w with inflight := entered.1 }, entered.2)
  | .settleFlight flight result =>
      some ({ w with inflight := w.inflight.settle flight result }, ())
  | .awaitFlight flight => (w.inflight.result? flight).map fun result => (w, result)
  | .forward client options =>
      match environment (.forward client options) with
      | .ok response => if caller ∈ w.effects then some (w, .ok response) else none
      | .error error => some (w, .error error)
  | o => some (w, environment o)

def arrive (call : ToolCall) : World P :=
  { w with
    tasks := w.tasks ++
      [⟨.spawn _ { call with self := w.tasks.length }, .idle, w.returned⟩] }

def answer (caller : CallId) (environment : (o : Op) → Ans o) (t : Task P) : Option (World P) :=
  (t.thread.advance (w.serve caller t.phase environment)).map fun r =>
    r.1.setTask caller { t with thread := r.2, phase := .idle }

def takeEffect (caller : CallId) (t : Task P) : Option (World P) :=
  if (t.awaitsUpstream || t.hasForwarded) = true ∧ caller ∉ w.effects then
    some { w with effects := w.effects ++ [caller] }
  else none

def readL2 (caller : CallId) (t : Task P) : Option (World P) :=
  match t.phase, t.pending? with
  | .idle, some (.l2Get key) =>
      some (w.setTask caller { t with phase := .read (w.redis.get? (P.digest key)) })
  | _, _ => none

def startScan (caller : CallId) (t : Task P) : Option (World P) :=
  match t.phase, t.pending? with
  | .idle, some (.l2DeleteByTool _ _) =>
      some (w.setTask caller { t with phase := .scanning w.redis.keys })
  | _, _ => none

def deleteIfFor (redis : OrderedMap String CacheEntry) (digest toolName serverId : String) :
    OrderedMap String CacheEntry :=
  match redis.get? digest with
  | none => redis
  | some entry => if entry.IsFor toolName serverId then redis.delete digest else redis

def scan (caller : CallId) (digest : String) (t : Task P) : Option (World P) :=
  match t.phase, t.pending? with
  | .scanning digests, some (.l2DeleteByTool toolName serverId) =>
      some ({ w with redis := deleteIfFor w.redis digest toolName serverId }.setTask caller
        { t with phase := .scanning (digests.filter (· ≠ digest)) })
  | _, _ => none

-- an error ends the scan, and is swallowed
def failScan (caller : CallId) (t : Task P) : Option (World P) :=
  match t.phase with
  | .scanning _ => some (w.setTask caller { t with phase := .scanning [] })
  | _ => none

def landWrite (index : ℕ) (write : String × CacheEntry) : World P :=
  { w with redis := w.redis.set write.1 write.2, writes := w.writes.eraseIdx index }

def step : Act → Option (World P)
  | .arrive call => some (w.arrive call)
  | .answer caller environment => w.tasks[caller]?.bind (w.answer caller environment)
  | .takeEffect caller => w.tasks[caller]?.bind (w.takeEffect caller)
  | .readL2 caller => w.tasks[caller]?.bind (w.readL2 caller)
  | .startScan caller => w.tasks[caller]?.bind (w.startScan caller)
  | .scan caller digest => w.tasks[caller]?.bind (w.scan caller digest)
  | .failScan caller => w.tasks[caller]?.bind (w.failScan caller)
  | .landWrite index => w.writes[index]?.map (w.landWrite index)
  | .evict key => some { w with l1 := w.l1.evict key }
  | .expire key => some { w with redis := w.redis.delete key }

variable {w}

-- what the environment decides: everything but the caches, the flights and the upstreams
def isEnvironment : Op → Bool
  | .l1Get _ => false
  | .l1Set _ _ => false
  | .l1DeleteByTool _ _ => false
  | .l2Get _ => false
  | .l2Set _ _ _ => false
  | .l2DeleteByTool _ _ => false
  | .enterFlight _ => false
  | .settleFlight _ _ => false
  | .awaitFlight _ => false
  | .forward _ _ => false
  | _ => true

inductive Serves (w : World P) (caller : CallId) (phase : Phase) :
    (o : Op) → Ans o → World P → Prop where
  | l1Get (key : CacheKeyOptions) (now : ℕ) :
      Serves w caller phase (.l1Get key) (w.l1.get (P.digest key) now).2
        { w with l1 := (w.l1.get (P.digest key) now).1 }
  | l1Set (key : CacheKeyOptions) (entry : CacheEntry) :
      Serves w caller phase (.l1Set key entry) () { w with l1 := w.l1.set (P.digest key) entry }
  | l1DeleteByTool (toolName serverId : String) :
      Serves w caller phase (.l1DeleteByTool toolName serverId) ()
        { w with l1 := (w.l1.deleteByTool toolName serverId).1 }
  | l2Get (key : CacheKeyOptions) {found kept : Option CacheEntry} (hphase : phase = .read found)
      (hkept : kept = none ∨ kept = found) : Serves w caller phase (.l2Get key) kept w
  | l2Set (key : CacheKeyOptions) (entry : CacheEntry) (ttlSeconds : ℚ) :
      Serves w caller phase (.l2Set key entry ttlSeconds) ()
        { w with writes := w.writes ++ [(P.digest key, entry.reread)] }
  | l2DeleteByTool (toolName serverId : String) (hphase : phase = .scanning []) :
      Serves w caller phase (.l2DeleteByTool toolName serverId) () w
  | enterFlight (key : CacheKeyOptions) :
      Serves w caller phase (.enterFlight key) (w.inflight.enter (P.digest key) caller).2
        { w with inflight := (w.inflight.enter (P.digest key) caller).1 }
  | settleFlight (flight : FlightId) (result : FlightResult) :
      Serves w caller phase (.settleFlight flight result) ()
        { w with inflight := w.inflight.settle flight result }
  | awaitFlight (flight : FlightId) {result : FlightResult}
      (hresult : w.inflight.result? flight = some result) :
      Serves w caller phase (.awaitFlight flight) result w
  | forwarded (client : Router.ClientRef) (options : UpstreamRequestOptions)
      (response : UpstreamResponse) (heffect : caller ∈ w.effects) :
      Serves w caller phase (.forward client options) (.ok response) w
  | failed (client : Router.ClientRef) (options : UpstreamRequestOptions) (error : String) :
      Serves w caller phase (.forward client options) (.error error) w
  | environment {o : Op} (ho : isEnvironment o = true) (a : Ans o) : Serves w caller phase o a w

theorem serves_of_serve {caller : CallId} {phase : Phase} {environment : (o : Op) → Ans o} {o : Op}
    {s : World P} {a : Ans o} (h : w.serve caller phase environment o = some (s, a)) :
    Serves w caller phase o a s := by
  cases o with
  | l1Get key =>
      cases h
      exact .l1Get key _
  | l1Set key entry =>
      cases h
      exact .l1Set key entry
  | l1DeleteByTool toolName serverId =>
      cases h
      exact .l1DeleteByTool toolName serverId
  | l2Get key =>
      simp only [serve] at h
      split at h
      next found =>
        cases h
        refine .l2Get key rfl ?_
        cases environment (.l2Get key) with
        | none => exact .inl rfl
        | some kept => exact .inr rfl
      next => cases h
  | l2Set key entry ttlSeconds =>
      cases h
      exact .l2Set key entry ttlSeconds
  | l2DeleteByTool toolName serverId =>
      simp only [serve] at h
      split at h
      next =>
        cases h
        exact .l2DeleteByTool toolName serverId rfl
      next => cases h
  | enterFlight key =>
      cases h
      exact .enterFlight key
  | settleFlight flight result =>
      cases h
      exact .settleFlight flight result
  | awaitFlight flight =>
      obtain ⟨result, hresult, heq⟩ := Option.map_eq_some_iff.mp h
      cases heq
      exact .awaitFlight flight hresult
  | forward client options =>
      simp only [serve] at h
      split at h
      next response _ =>
        split at h
        next heffect =>
          cases h
          exact .forwarded client options response heffect
        next => cases h
      next error _ =>
        cases h
        exact .failed client options error
  | _ =>
      cases h
      exact .environment rfl _

end World

end Conduit.Gateway
