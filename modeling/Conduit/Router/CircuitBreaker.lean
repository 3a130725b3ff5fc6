import Conduit.Config.Types

namespace Conduit.Router

inductive CircuitState where
  | closed
  | opened
  | halfOpen
deriving DecidableEq, Repr

structure CircuitBreaker where
  state : CircuitState
  failureCount : ℕ
  successCount : ℕ
  lastFailureTime : ℕ
  halfOpenRequests : ℕ
  tripCount : ℕ
  failureThreshold : ℕ
  resetTimeoutMs : ℕ
  halfOpenMaxRequests : ℕ
  successThreshold : ℕ
deriving DecidableEq, Repr

namespace CircuitBreaker

def init (config : CircuitBreakerConfig) : CircuitBreaker where
  state := .closed
  failureCount := 0
  successCount := 0
  lastFailureTime := 0
  halfOpenRequests := 0
  tripCount := 0
  failureThreshold := config.failureThreshold
  resetTimeoutMs := config.resetTimeoutMs
  halfOpenMaxRequests := config.halfOpenMaxRequests
  successThreshold := config.successThreshold

variable (B : CircuitBreaker)

def timeoutElapsed (now : ℕ) : Bool :=
  decide ((B.resetTimeoutMs : ℤ) ≤ (now : ℤ) - B.lastFailureTime)

def admitProbe : CircuitBreaker × Bool :=
  if B.halfOpenRequests < B.halfOpenMaxRequests then
    ({ B with halfOpenRequests := B.halfOpenRequests + 1 }, true)
  else (B, false)

def enterHalfOpen : CircuitBreaker :=
  { B with state := .halfOpen, halfOpenRequests := 0, successCount := 0 }

def canExecute (now : ℕ) : CircuitBreaker × Bool :=
  match B.state with
  | .closed => (B, true)
  | .opened => if B.timeoutElapsed now then B.enterHalfOpen.admitProbe else (B, false)
  | .halfOpen => B.admitProbe

def onSuccess : CircuitBreaker :=
  match B.state with
  | .closed => { B with failureCount := 0 }
  | .halfOpen =>
      if B.successThreshold ≤ B.successCount + 1 then
        { B with state := .closed, failureCount := 0, successCount := 0, halfOpenRequests := 0 }
      else
        { B with successCount := B.successCount + 1, halfOpenRequests := B.halfOpenRequests - 1 }
  | .opened => B

def onFailure (now : ℕ) : CircuitBreaker :=
  match B.state with
  | .closed =>
      if B.failureThreshold ≤ B.failureCount + 1 then
        { B with
          lastFailureTime := now
          failureCount := B.failureCount + 1
          state := .opened
          tripCount := B.tripCount + 1 }
      else { B with lastFailureTime := now, failureCount := B.failureCount + 1 }
  | .halfOpen =>
      { B with
        lastFailureTime := now
        state := .opened
        tripCount := B.tripCount + 1
        successCount := 0
        halfOpenRequests := 0 }
  | .opened => { B with lastFailureTime := now }

def reset : CircuitBreaker :=
  { B with
    state := .closed
    failureCount := 0
    successCount := 0
    halfOpenRequests := 0
    lastFailureTime := 0 }

end CircuitBreaker

end Conduit.Router
