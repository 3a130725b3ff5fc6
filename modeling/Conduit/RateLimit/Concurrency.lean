import Conduit.Foundation.Run
import Conduit.RateLimit.Charging
import Conduit.RateLimit.Queue

namespace Conduit.RateLimit

open Program

inductive LimitRequest where
  | consumeWithQueue (clientId serverId toolName : String)
  | consume (clientId serverId toolName : String)
  | consumeClientLimits (clientId : String)
  | consumeServerLimits (clientId serverId toolName : String)
  | check (clientId serverId toolName : String)
deriving DecidableEq, Repr

namespace RateLimiter

variable (R : RateLimiter)

def checksOf : LimitRequest → List RateLimitCheck
  | .consumeWithQueue clientId serverId toolName => R.getChecks clientId serverId toolName
  | .consume clientId serverId toolName => R.getChecks clientId serverId toolName
  | .consumeClientLimits clientId => R.getClientChecks clientId
  | .consumeServerLimits clientId serverId toolName => R.getServerChecks clientId serverId toolName
  | .check clientId serverId toolName => R.getChecks clientId serverId toolName

def answer : LimitRequest → LimitProc RateLimitCheckResult
  | .consumeWithQueue clientId serverId toolName => R.consumeWithQueue clientId serverId toolName
  | .consume clientId serverId toolName => R.consume clientId serverId toolName
  | .consumeClientLimits clientId => R.consumeClientLimits clientId
  | .consumeServerLimits clientId serverId toolName =>
      R.consumeServerLimits clientId serverId toolName
  | .check clientId serverId toolName =>
      evaluateChecks (R.getChecks clientId serverId toolName) false

end RateLimiter

-- `slot` is how the queue has settled the promise that the call waits for
structure LimitTask (R : RateLimiter) where
  thread : Thread R.answer
  slot : Option Bool

-- one entry recorded in a bucket for a call; the source keeps the times only
structure Charge where
  caller : ℕ
  bucket : String × ℕ
deriving DecidableEq, Repr

structure LimiterWorld (R : RateLimiter) where
  clock : ℕ
  limiter : SlidingWindowLimiter
  queue : RequestQueue
  tasks : List (LimitTask R)
  charges : List Charge

inductive LimiterAct where
  | arrive (request : LimitRequest)
  | advance (caller : ℕ)
  | poll
  | tick (ms : ℕ)
  | resetClient (clientId : String)
  | resetAll
deriving DecidableEq, Repr

namespace LimitTask

variable {R : RateLimiter} (t : LimitTask R)

def request : LimitRequest := t.thread.input

def checks : List RateLimitCheck := R.checksOf t.request

def trace : LimitTrace := t.thread.trace

def rest : LimitProc RateLimitCheckResult := t.thread.rest

def pending? : Option LimitOp :=
  match t.rest with
  | .op o _ => some o
  | _ => none

def result? : Option RateLimitCheckResult :=
  match t.rest with
  | .pure r => some r
  | _ => none

end LimitTask

namespace LimiterWorld

variable {R : RateLimiter}

def init (R : RateLimiter) : LimiterWorld R where
  clock := 0
  limiter := .init none
  queue := .init (R.config.queue.getD ⟨false, 0, 0⟩)
  tasks := []
  charges := []

variable (w : LimiterWorld R)

def settle (key : String) (entry : QueueEntry) (resolved : Bool) : LimiterWorld R :=
  { w with
    queue := w.queue.remove key entry
    tasks := w.tasks.modify entry.caller fun t => { t with slot := some resolved } }

def rejectExpired (key : String) : List QueueEntry → LimiterWorld R → LimiterWorld R
  | [], w => w
  | entry :: rest, w =>
      rejectExpired key rest
        (if entry.deadline ≤ w.clock then w.settle key entry false else w)

def admitNext (key : String) (limit : ℤ) (windowMs : ℕ) (entry : QueueEntry) : LimiterWorld R :=
  let r := w.limiter.consume key limit windowMs w.clock
  let charged : LimiterWorld R :=
    { w with
      limiter := r.1
      charges :=
        if r.2.allowed then w.charges ++ [⟨entry.caller, (key, windowMs)⟩] else w.charges }
  charged.settle key entry true

def admitWaiting (key : String) (limit : ℤ) (windowMs : ℕ) :
    List QueueEntry → LimiterWorld R → LimiterWorld R
  | [], w => w
  | entry :: rest, w =>
      let checked := w.limiter.check key limit windowMs w.clock
      let seen : LimiterWorld R := { w with limiter := checked.1 }
      if checked.2.allowed then
        admitWaiting key limit windowMs rest (seen.admitNext key limit windowMs entry)
      else seen

def pollKey (key : String) : LimiterWorld R :=
  match w.queue.queues.get? key with
  | none => w
  | some state =>
      let pruned := rejectExpired key state.entries w
      let admitted :=
        admitWaiting key state.limit state.windowMs (pruned.queue.entriesOf key) pruned
      { admitted with queue := admitted.queue.dropIfEmpty key }

def poll : LimiterWorld R := w.queue.queues.keys.foldl pollKey w

-- the awaits of one call, at the present time
def serve (caller : ℕ) (slot : Option Bool) : (o : LimitOp) → Option (LimiterWorld R × LimitAns o)
  | .consume c =>
      let r := w.limiter.consume c.key c.limit c.windowMs w.clock
      some ({ w with
        limiter := r.1
        charges := if r.2.allowed then w.charges ++ [⟨caller, c.bucket⟩] else w.charges }, r.2)
  | .check c =>
      let r := w.limiter.check c.key c.limit c.windowMs w.clock
      some ({ w with limiter := r.1 }, r.2)
  | .now => some (w, w.clock)
  | .enqueue key limit windowMs =>
      let r := w.queue.enqueue key limit windowMs caller w.clock
      some ({ w with queue := r.1 }, r.2)
  | .awaitSlot => slot.map fun resolved => (w, resolved)

def setTask (caller : ℕ) (t : LimitTask R) : LimiterWorld R :=
  { w with tasks := w.tasks.set caller t }

def advance (caller : ℕ) (t : LimitTask R) : Option (LimiterWorld R) :=
  (t.thread.advance (w.serve caller t.slot)).map fun r =>
    r.1.setTask caller { t with thread := r.2 }

def step : LimiterAct → Option (LimiterWorld R)
  | .arrive request => some { w with tasks := w.tasks ++ [⟨.spawn _ request, none⟩] }
  | .advance caller => w.tasks[caller]?.bind (w.advance caller)
  | .poll => some w.poll
  | .tick ms => some { w with clock := w.clock + ms }
  | .resetClient clientId =>
      some { w with limiter := (w.limiter.reset (clientKey clientId)).reset "global" }
  | .resetAll => some { w with limiter := w.limiter.resetAll }

end LimiterWorld

end Conduit.RateLimit
