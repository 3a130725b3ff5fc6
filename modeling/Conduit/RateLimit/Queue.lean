import Conduit.RateLimit.Types

namespace Conduit.RateLimit

-- a waiting call; its promise is settled by the poll
structure QueueEntry where
  caller : ℕ
  deadline : ℕ
deriving DecidableEq, Repr

structure QueueKeyState where
  entries : List QueueEntry
  limit : ℤ
  windowMs : ℕ

structure RequestQueue where
  config : QueueConfig
  queues : OrderedMap String QueueKeyState

namespace RequestQueue

def init (config : QueueConfig) : RequestQueue where
  config := config
  queues := .empty

variable (Q : RequestQueue)

def entriesOf (key : String) : List QueueEntry :=
  match Q.queues.get? key with
  | some state => state.entries
  | none => []

def push (key : String) (limit : ℤ) (windowMs : ℕ) (entry : QueueEntry) : QueueKeyState :=
  match Q.queues.get? key with
  | some state => { state with entries := state.entries ++ [entry] }
  | none => ⟨[entry], limit, windowMs⟩

def enqueue (key : String) (limit : ℤ) (windowMs caller now : ℕ) : RequestQueue × Bool :=
  if Q.config.enabled = false then (Q, false)
  else if Q.config.maxQueueSize ≤ (Q.entriesOf key).length then (Q, false)
  else
    let entry : QueueEntry := ⟨caller, now + Q.config.maxWaitMs⟩
    ({ Q with queues := Q.queues.set key (Q.push key limit windowMs entry) }, true)

-- the splice of an entry out of the array of its key
def remove (key : String) (entry : QueueEntry) : RequestQueue :=
  match Q.queues.get? key with
  | some state =>
      { Q with queues := Q.queues.set key { state with entries := state.entries.erase entry } }
  | none => Q

def dropIfEmpty (key : String) : RequestQueue :=
  if Q.entriesOf key = [] then { Q with queues := Q.queues.delete key } else Q

end RequestQueue

end Conduit.RateLimit
