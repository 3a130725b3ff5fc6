import Conduit.Foundation.Run
import Conduit.RateLimit.QueueLedger

namespace Conduit.RateLimit

-- what every enqueue on a key is given
structure Lane (ι : Type) where
  limiter : ι
  limit : ℤ
  windowMs : ℕ

-- how each promise is returned and settled, and what the queue itself takes from a limiter
inductive QueueEvent where
  | enqueued (key : String) (entry : QueueEntry)
  | refused (caller : ℕ)
  | consumed (key : String) (limit : ℤ) (windowMs : ℕ) (allowed : Bool)
  | resolved (key : String) (entry : QueueEntry)
  | rejected (key : String) (entry : QueueEntry)
deriving DecidableEq, Repr

inductive QueueAct (ι : Type) where
  | tick (ms : ℕ)
  | enqueue (key : String)
  | consume (limiter : ι) (key : String) (limit : ℤ) (windowMs : ℕ)
  | poll
  | stop
deriving DecidableEq, Repr

-- `issued` numbers the promises in the order in which enqueue returns them
structure QueueWorld (ι : Type) where
  clock : ℕ
  limiters : ι → SlidingWindowLimiter
  queue : RequestQueue
  pollTimer : Bool
  issued : ℕ
  log : List QueueEvent

namespace RequestQueue

variable (Q : RequestQueue)

def calls : List ℕ := Q.queues.entries.flatMap fun e => e.2.entries.map (·.caller)

-- the loop over the entries with its index: an expired entry is spliced out where it stands
def rejectExpired (now : ℕ) : ℕ → ℕ → List QueueEntry → List QueueEntry × List QueueEntry
  | 0, _, entries => (entries, [])
  | n + 1, i, entries =>
      match entries[i]? with
      | none => (entries, [])
      | some entry =>
          if entry.deadline ≤ now then
            let r := rejectExpired now n i (entries.eraseIdx i)
            (r.1, entry :: r.2)
          else rejectExpired now n (i + 1) entries

-- the entry at the head is spliced out for as long as the limiter has room
def serveWaiting (key : String) (limit : ℤ) (windowMs now : ℕ) :
    SlidingWindowLimiter → List QueueEntry →
      SlidingWindowLimiter × List QueueEvent × List QueueEntry
  | L, [] => (L, [], [])
  | L, entry :: rest =>
      let checked := L.check key limit windowMs now
      if checked.2.allowed then
        let charged := checked.1.consume key limit windowMs now
        let r := serveWaiting key limit windowMs now charged.1 rest
        (r.1, .consumed key limit windowMs charged.2.allowed :: .resolved key entry :: r.2.1, r.2.2)
      else (checked.1, [], entry :: rest)

end RequestQueue

namespace QueueWorld

variable {ι : Type} [DecidableEq ι] (lane : String → Lane ι)

def start (config : QueueConfig) (limiters : ι → SlidingWindowLimiter) (clock : ℕ) :
    QueueWorld ι where
  clock := clock
  limiters := limiters
  queue := .init config
  pollTimer := false
  issued := 0
  log := []

variable (w : QueueWorld ι)

def enqueue (key : String) : QueueWorld ι :=
  let r := w.queue.enqueue key (lane key).limit (lane key).windowMs w.issued w.clock
  if r.2 then
    { w with
      queue := r.1
      pollTimer := true
      issued := w.issued + 1
      log := w.log ++ [.enqueued key ⟨w.issued, w.clock + w.queue.config.maxWaitMs⟩] }
  else { w with queue := r.1, issued := w.issued + 1, log := w.log ++ [.refused w.issued] }

def setEntries (key : String) (state : QueueKeyState) (entries : List QueueEntry) :
    RequestQueue :=
  if entries = [] then { w.queue with queues := w.queue.queues.delete key }
  else { w.queue with queues := w.queue.queues.set key { state with entries := entries } }

def pollKey (key : String) : QueueWorld ι :=
  match w.queue.queues.get? key with
  | none => w
  | some state =>
      if state.entries = [] then
        { w with queue := { w.queue with queues := w.queue.queues.delete key } }
      else
        let kept := RequestQueue.rejectExpired w.clock state.entries.length 0 state.entries
        let served := RequestQueue.serveWaiting key state.limit state.windowMs w.clock
          (w.limiters (lane key).limiter) kept.1
        { w with
          limiters := Function.update w.limiters (lane key).limiter served.1
          queue := w.setEntries key state served.2.2
          log := w.log ++ kept.2.map (.rejected key) ++ served.2.1 }

def stopPollingIfEmpty : QueueWorld ι :=
  if w.queue.queues.size = 0 then { w with pollTimer := false } else w

def processAllPendingRequests : QueueWorld ι :=
  (w.queue.queues.keys.foldl (pollKey lane) w).stopPollingIfEmpty

def stop : QueueWorld ι :=
  { w with
    pollTimer := false
    queue := { w.queue with queues := .empty }
    log := w.log ++ w.queue.queues.entries.flatMap fun e => e.2.entries.map (.rejected e.1) }

-- a poll is the timer firing; `consume` stands for the other users of a limiter
def step : QueueAct ι → Option (QueueWorld ι)
  | .tick ms => some { w with clock := w.clock + ms }
  | .enqueue key => some (w.enqueue lane key)
  | .consume limiter key limit windowMs =>
      some { w with
        limiters := Function.update w.limiters limiter
          ((w.limiters limiter).consume key limit windowMs w.clock).1 }
  | .poll => if w.pollTimer then some (w.processAllPendingRequests lane) else none
  | .stop => some w.stop

end QueueWorld

namespace QueueEvent

-- the promise that enqueue returns with the event
def issues? : QueueEvent → Option ℕ
  | .enqueued _ entry => some entry.caller
  | .refused caller => some caller
  | _ => none

-- the promise that the event settles
def settles? : QueueEvent → Option ℕ
  | .refused caller => some caller
  | .resolved _ entry => some entry.caller
  | .rejected _ entry => some entry.caller
  | _ => none

def enqueues? (key : String) : QueueEvent → Option QueueEntry
  | .enqueued key' entry => if key' = key then some entry else none
  | _ => none

def resolves? (key : String) : QueueEvent → Option QueueEntry
  | .resolved key' entry => if key' = key then some entry else none
  | _ => none

end QueueEvent

-- every resolution follows an allowed consume of its key at once, and no other consume is made
inductive Paired {ι : Type} (lane : String → Lane ι) : List QueueEvent → Prop where
  | nil : Paired lane []
  | enqueued {log : List QueueEvent} (key : String) (entry : QueueEntry) (rest : Paired lane log) :
      Paired lane (.enqueued key entry :: log)
  | refused {log : List QueueEvent} (caller : ℕ) (rest : Paired lane log) :
      Paired lane (.refused caller :: log)
  | rejected {log : List QueueEvent} (key : String) (entry : QueueEntry) (rest : Paired lane log) :
      Paired lane (.rejected key entry :: log)
  | served {log : List QueueEvent} (key : String) (entry : QueueEntry) (rest : Paired lane log) :
      Paired lane (.consumed key (lane key).limit (lane key).windowMs true ::
        .resolved key entry :: log)

namespace QueueWorld

variable {ι : Type} [DecidableEq ι] (lane : String → Lane ι)

-- the state of a run: nothing settled twice, nothing out of turn, nothing beyond the bound
structure InOrder (w : QueueWorld ι) : Prop where
  issuedOnce : w.log.filterMap QueueEvent.issues? = List.range w.issued
  settledOnce : (w.log.filterMap QueueEvent.settles?).Nodup
  inTurn : ∀ key, (w.log.filterMap (QueueEvent.resolves? key)).Sublist
    (w.log.filterMap (QueueEvent.enqueues? key))
  paired : Paired lane w.log
  bounded : ∀ key, (w.queue.entriesOf key).length ≤ w.queue.config.maxQueueSize
  polled : ∀ key, w.queue.entriesOf key ≠ [] → w.pollTimer = true

-- what one step may do to the promises, `news` being what it adds to the log
structure Settles (w w' : QueueWorld ι) (act : QueueAct ι) (news : List QueueEvent) : Prop where
  log : w'.log = w.log ++ news
  dated : ∀ key entry, .enqueued key entry ∈ news →
    entry.deadline = w.clock + w.queue.config.maxWaitMs
  resolved : ∀ key entry, .resolved key entry ∈ news → act = .poll ∧ w.clock < entry.deadline
  expired : act = .poll → ∀ key, ∀ entry ∈ w.queue.entriesOf key, entry.deadline ≤ w.clock →
    .rejected key entry ∈ news
  stopped : act = .stop → ∀ key, w'.queue.entriesOf key = []

end QueueWorld

namespace RequestQueue

theorem rejectExpired_eq (now : ℕ) (passed : List QueueEntry) {n : ℕ} {ahead : List QueueEntry}
    (h : ahead.length ≤ n) :
    rejectExpired now n passed.length (passed ++ ahead) =
      (passed ++ ahead.filter fun e => now < e.deadline,
        ahead.filter fun e => e.deadline ≤ now) := by
  induction ahead generalizing n passed with
  | nil =>
      cases n with
      | zero => simp [rejectExpired]
      | succ n => simp [rejectExpired]
  | cons entry ahead ih =>
      cases n with
      | zero => simp at h
      | succ n =>
          have hlength : ahead.length ≤ n := by simpa using h
          have hentry : (passed ++ entry :: ahead)[passed.length]? = some entry := by simp
          have hsplice : (passed ++ entry :: ahead).eraseIdx passed.length = passed ++ ahead := by
            simp [List.eraseIdx_append_of_length_le]
          rw [rejectExpired, hentry]
          by_cases hexpired : entry.deadline ≤ now
          · simp [hexpired, hsplice, ih passed hlength, Nat.not_lt.mpr hexpired]
          · have hrest := ih (passed ++ [entry]) hlength
            simp only [List.append_assoc, List.singleton_append, List.length_append,
              List.length_singleton] at hrest
            simp [hexpired, hrest, Nat.lt_of_not_le hexpired]

theorem rejectExpired_all (now : ℕ) (entries : List QueueEntry) :
    rejectExpired now entries.length 0 entries =
      (entries.filter fun e => now < e.deadline, entries.filter fun e => e.deadline ≤ now) :=
  rejectExpired_eq now [] (Nat.le_refl _)

def serving (key : String) (limit : ℤ) (windowMs : ℕ) (entry : QueueEntry) : List QueueEvent :=
  [.consumed key limit windowMs true, .resolved key entry]

theorem serveWaiting_spec (key : String) (limit : ℤ) (windowMs now : ℕ)
    (L : SlidingWindowLimiter) (entries : List QueueEntry) :
    ∃ served, entries = served ++ (serveWaiting key limit windowMs now L entries).2.2 ∧
      (serveWaiting key limit windowMs now L entries).2.1 =
        served.flatMap (serving key limit windowMs) := by
  induction entries generalizing L with
  | nil => exact ⟨[], rfl, rfl⟩
  | cons entry entries ih =>
      by_cases hallowed : (L.check key limit windowMs now).2.allowed = true
      · obtain ⟨served, hentries, hevents⟩ :=
          ih ((L.check key limit windowMs now).1.consume key limit windowMs now).1
        refine ⟨entry :: served, ?_, ?_⟩
        · simpa [serveWaiting, hallowed] using hentries
        · simp [serveWaiting, hallowed, serving, hevents,
            LimiterWorld.consume_allowed_of_check hallowed]
      · refine ⟨[], ?_, ?_⟩
        · simp [serveWaiting, hallowed]
        · simp [serveWaiting, hallowed]

variable (Q : RequestQueue) (key : String)

-- the calls that wait on the other keys
def callsBeside : List ℕ :=
  (Q.queues.delete key).entries.flatMap fun e => e.2.entries.map (·.caller)

theorem calls_perm : Q.calls.Perm ((Q.entriesOf key).map (·.caller) ++ Q.callsBeside key) := by
  unfold calls entriesOf callsBeside
  split
  next state hstate => exact (OrderedMap.perm_of_get? hstate).flatMap_right _
  next hnone =>
    rw [OrderedMap.delete_of_get?_none hnone]
    exact List.Perm.refl _

theorem calls_set (state : QueueKeyState) :
    ({ Q with queues := Q.queues.set key state } : RequestQueue).calls.Perm
      (state.entries.map (·.caller) ++ Q.callsBeside key) :=
  (OrderedMap.perm_set Q.queues key state).flatMap_right _

theorem entriesOf_set (state : QueueKeyState) (key' : String) :
    ({ Q with queues := Q.queues.set key state } : RequestQueue).entriesOf key' =
      if key = key' then state.entries else Q.entriesOf key' := by
  by_cases h : key = key'
  · simp [entriesOf, h]
  · simp [entriesOf, OrderedMap.get?_set, h]

theorem entriesOf_delete (key' : String) :
    ({ Q with queues := Q.queues.delete key } : RequestQueue).entriesOf key' =
      if key = key' then [] else Q.entriesOf key' := by
  by_cases h : key = key'
  · simp [entriesOf, h]
  · simp [entriesOf, OrderedMap.get?_delete, h]

end RequestQueue

variable {ι : Type} {lane : String → Lane ι} {w w' : QueueWorld ι} {key : String}

theorem Paired.append {log log' : List QueueEvent} (h : Paired lane log) (h' : Paired lane log') :
    Paired lane (log ++ log') := by
  induction h with
  | nil => exact h'
  | enqueued key entry _ ih => exact .enqueued key entry ih
  | refused caller _ ih => exact .refused caller ih
  | rejected key entry _ ih => exact .rejected key entry ih
  | served key entry _ ih => exact .served key entry ih

theorem paired_rejected (lane : String → Lane ι) (key : String) (entries : List QueueEntry) :
    Paired lane (entries.map (.rejected key)) := by
  induction entries with
  | nil => exact .nil
  | cons entry entries ih => exact .rejected key entry ih

def QueueWorld.servingOn (lane : String → Lane ι) (key : String) : QueueEntry → List QueueEvent :=
  RequestQueue.serving key (lane key).limit (lane key).windowMs

open QueueWorld

theorem paired_serving (lane : String → Lane ι) (key : String) (served : List QueueEntry) :
    Paired lane (served.flatMap (servingOn lane key)) := by
  induction served with
  | nil => exact .nil
  | cons entry served ih => exact .served key entry ih

namespace QueueWorld

def expiredOn (w : QueueWorld ι) (key : String) : List QueueEntry :=
  (w.queue.entriesOf key).filter fun e => e.deadline ≤ w.clock

-- what a poll does to one key: the expired entries are rejected and some of the others served
structure PollsKey (lane : String → Lane ι) (w : QueueWorld ι) (key : String)
    (served rest : List QueueEntry) (w' : QueueWorld ι) : Prop where
  waiting : (w.queue.entriesOf key).filter (fun e => w.clock < e.deadline) = served ++ rest
  log : w'.log = w.log ++
    ((w.expiredOn key).map (.rejected key) ++ served.flatMap (servingOn lane key))
  calls : w'.queue.calls.Perm (rest.map (·.caller) ++ w.queue.callsBeside key)
  entries : ∀ key', w'.queue.entriesOf key' = if key = key' then rest else w.queue.entriesOf key'
  laned : ∀ key' state, w'.queue.queues.get? key' = some state →
    ∃ state₀, w.queue.queues.get? key' = some state₀ ∧ state.limit = state₀.limit ∧
      state.windowMs = state₀.windowMs
  clock : w'.clock = w.clock
  issued : w'.issued = w.issued
  pollTimer : w'.pollTimer = w.pollTimer
  config : w'.queue.config = w.queue.config

def Laned (lane : String → Lane ι) (w : QueueWorld ι) : Prop :=
  ∀ key state, w.queue.queues.get? key = some state →
    state.limit = (lane key).limit ∧ state.windowMs = (lane key).windowMs

theorem calls_setEntries (state : QueueKeyState) (entries : List QueueEntry) :
    (w.setEntries key state entries).calls.Perm
      (entries.map (·.caller) ++ w.queue.callsBeside key) := by
  unfold setEntries
  split
  next hnil =>
    subst hnil
    exact List.Perm.refl _
  next => exact w.queue.calls_set key { state with entries := entries }

theorem entriesOf_setEntries (state : QueueKeyState) (entries : List QueueEntry) (key' : String) :
    (w.setEntries key state entries).entriesOf key' =
      if key = key' then entries else w.queue.entriesOf key' := by
  unfold setEntries
  split
  next hnil =>
    subst hnil
    exact w.queue.entriesOf_delete key key'
  next => exact w.queue.entriesOf_set key { state with entries := entries } key'

theorem get?_setEntries {state : QueueKeyState} (hstate : w.queue.queues.get? key = some state)
    {entries : List QueueEntry} {key' : String} {state' : QueueKeyState}
    (h : (w.setEntries key state entries).queues.get? key' = some state') :
    ∃ state₀, w.queue.queues.get? key' = some state₀ ∧ state'.limit = state₀.limit ∧
      state'.windowMs = state₀.windowMs := by
  unfold setEntries at h
  split at h
  · rw [OrderedMap.get?_delete] at h
    split at h
    · cases h
    · exact ⟨state', h, rfl, rfl⟩
  · rw [OrderedMap.get?_set] at h
    split at h
    next heq =>
      obtain rfl := Option.some.inj h
      exact ⟨state, heq ▸ hstate, rfl, rfl⟩
    next => exact ⟨state', h, rfl, rfl⟩

theorem pollsKey_of_nil (h : w.queue.entriesOf key = []) {queue : RequestQueue}
    (hconfig : queue.config = w.queue.config)
    (hqueue : queue.queues = w.queue.queues ∧ w.queue.queues.get? key = none ∨
      queue.queues = w.queue.queues.delete key) :
    PollsKey lane w key [] [] { w with queue := queue } where
  waiting := by rw [h, List.filter_nil, List.append_nil]
  log := by simp [expiredOn, h]
  calls := by
    unfold RequestQueue.calls
    rcases hqueue with ⟨heq, hnone⟩ | heq
    · rw [heq, ← OrderedMap.delete_of_get?_none hnone]
      exact List.Perm.refl _
    · rw [heq]
      exact List.Perm.refl _
  entries := by
    intro key'
    rcases hqueue with ⟨heq, -⟩ | heq
    · have hsame : queue.entriesOf key' = w.queue.entriesOf key' := by
        rw [RequestQueue.entriesOf, RequestQueue.entriesOf, heq]
      change queue.entriesOf key' = _
      rw [hsame]
      split
      next hkey => rw [← hkey, h]
      next => rfl
    · have hdelete := w.queue.entriesOf_delete key key'
      rw [RequestQueue.entriesOf, ← heq] at hdelete
      exact hdelete
  laned := by
    intro key' state hstate
    rcases hqueue with ⟨heq, -⟩ | heq
    · exact ⟨state, heq ▸ hstate, rfl, rfl⟩
    · change queue.queues.get? key' = some state at hstate
      rw [heq, OrderedMap.get?_delete] at hstate
      split at hstate
      · cases hstate
      · exact ⟨state, hstate, rfl, rfl⟩
  clock := rfl
  issued := rfl
  pollTimer := rfl
  config := hconfig

variable [DecidableEq ι]

theorem pollsKey (hlaned : Laned lane w) (key : String) :
    ∃ served rest, PollsKey lane w key served rest (w.pollKey lane key) := by
  unfold pollKey
  split
  next hnone =>
    refine ⟨[], [], pollsKey_of_nil ?_ rfl (.inl ⟨rfl, hnone⟩)⟩
    rw [RequestQueue.entriesOf, hnone]
  next state hstate =>
    have hentries : w.queue.entriesOf key = state.entries := by
      rw [RequestQueue.entriesOf, hstate]
    split
    next hnil => exact ⟨[], [], pollsKey_of_nil (hentries.trans hnil) rfl (.inr rfl)⟩
    next =>
      obtain ⟨hlimit, hwindow⟩ := hlaned key state hstate
      obtain ⟨served, hserved, hevents⟩ := RequestQueue.serveWaiting_spec key state.limit
        state.windowMs w.clock (w.limiters (lane key).limiter)
        (state.entries.filter fun e => w.clock < e.deadline)
      rw [RequestQueue.rejectExpired_all]
      refine ⟨served, _, ?_, ?_, calls_setEntries _ _, entriesOf_setEntries _ _,
        fun _ _ => get?_setEntries hstate, rfl, rfl, rfl, ?_⟩
      · rw [hentries]
        exact hserved
      · change w.log ++ _ ++ _ = _
        rw [hevents, expiredOn, hentries, servingOn, hlimit, hwindow, List.append_assoc]
      · change (w.setEntries key state _).config = _
        unfold setEntries
        split <;> rfl

end QueueWorld

section News

variable {β : Type} (f : QueueEvent → Option β) (key key' : String) (entries : List QueueEntry)

theorem filterMap_rejected (hf : ∀ entry, f (.rejected key entry) = none) :
    (entries.map (.rejected key)).filterMap f = [] := by
  induction entries with
  | nil => rfl
  | cons entry entries ih => rw [List.map_cons, List.filterMap_cons_none (hf entry), ih]

theorem filterMap_serving (hconsumed : f (.consumed key (lane key).limit (lane key).windowMs true) =
    none) (hresolved : ∀ entry, f (.resolved key entry) = none) :
    (entries.flatMap (servingOn lane key)).filterMap f = [] := by
  induction entries with
  | nil => rfl
  | cons entry entries ih =>
      rw [List.flatMap_cons, List.filterMap_append, ih, List.append_nil, servingOn,
        RequestQueue.serving, List.filterMap_cons_none hconsumed,
        List.filterMap_cons_none (hresolved entry), List.filterMap_nil]

theorem settles?_rejected :
    (entries.map (.rejected key)).filterMap QueueEvent.settles? = entries.map (·.caller) := by
  induction entries with
  | nil => rfl
  | cons entry entries ih => exact congrArg (entry.caller :: ·) ih

theorem settles?_serving :
    (entries.flatMap (servingOn lane key)).filterMap QueueEvent.settles? =
      entries.map (·.caller) := by
  induction entries with
  | nil => rfl
  | cons entry entries ih => exact congrArg (entry.caller :: ·) ih

theorem resolves?_serving :
    (entries.flatMap (servingOn lane key)).filterMap (QueueEvent.resolves? key') =
      if key = key' then entries else [] := by
  induction entries with
  | nil => simp
  | cons entry entries ih =>
      rw [List.flatMap_cons, List.filterMap_append, ih]
      by_cases h : key = key'
      · simp [servingOn, RequestQueue.serving, List.filterMap_cons, QueueEvent.resolves?, h]
      · simp [servingOn, RequestQueue.serving, List.filterMap_cons, QueueEvent.resolves?, h]

end News

namespace QueueWorld

-- every promise is settled or waits, and on each key the waiting ones follow the resolved ones
structure Kept (lane : String → Lane ι) (w : QueueWorld ι) : Prop where
  laned : Laned lane w
  issuedOnce : w.log.filterMap QueueEvent.issues? = List.range w.issued
  held : (w.log.filterMap QueueEvent.settles? ++ w.queue.calls).Perm (List.range w.issued)
  inTurn : ∀ key, (w.log.filterMap (QueueEvent.resolves? key) ++ w.queue.entriesOf key).Sublist
    (w.log.filterMap (QueueEvent.enqueues? key))
  paired : Paired lane w.log
  bounded : ∀ key, (w.queue.entriesOf key).length ≤ w.queue.config.maxQueueSize
  polled : w.queue.queues.size ≠ 0 → w.pollTimer = true

theorem Kept.inOrder (h : Kept lane w) : InOrder lane w where
  issuedOnce := h.issuedOnce
  settledOnce := by
    have hnodup := h.held.nodup_iff.mpr List.nodup_range
    exact hnodup.sublist (List.sublist_append_left _ _)
  inTurn := fun key => (List.sublist_append_left _ _).trans (h.inTurn key)
  paired := h.paired
  bounded := h.bounded
  polled := by
    intro key hentries
    apply h.polled
    intro hsize
    have hnil : w.queue.queues.entries = [] := List.length_eq_zero_iff.mp hsize
    refine hentries ?_
    rw [RequestQueue.entriesOf, OrderedMap.get?, hnil]
    rfl

theorem kept_start (config : QueueConfig) (limiters : ι → SlidingWindowLimiter) (clock : ℕ) :
    Kept lane (start config limiters clock) where
  laned := by
    intro key state hstate
    cases hstate
  issuedOnce := rfl
  held := List.Perm.refl _
  inTurn := fun _ => List.Sublist.refl _
  paired := .nil
  bounded := fun _ => Nat.zero_le _
  polled := fun h => absurd rfl h

-- the expired entries and the others are the key's entries
theorem PollsKey.entries_perm {served rest : List QueueEntry}
    (h : PollsKey lane w key served rest w') :
    (w.expiredOn key ++ (served ++ rest)).Perm (w.queue.entriesOf key) := by
  have hlater : (fun e : QueueEntry => decide (w.clock < e.deadline)) =
      fun e => !decide (e.deadline ≤ w.clock) := by
    funext e
    rw [← decide_not]
    simp only [Nat.not_le]
  rw [← h.waiting, hlater]
  exact List.filter_append_perm ..

-- each call of before has expired, is served or still waits
theorem PollsKey.calls_perm {served rest : List QueueEntry}
    (h : PollsKey lane w key served rest w') :
    ((w.expiredOn key).map (·.caller) ++ (served.map (·.caller) ++ w'.queue.calls)).Perm
      w.queue.calls := by
  calc ((w.expiredOn key).map (·.caller) ++ (served.map (·.caller) ++ w'.queue.calls)).Perm
        ((w.expiredOn key).map (·.caller) ++ (served.map (·.caller) ++
          (rest.map (·.caller) ++ w.queue.callsBeside key))) :=
          (h.calls.append_left _).append_left _
    _ = (w.expiredOn key ++ (served ++ rest)).map (·.caller) ++ w.queue.callsBeside key := by
          simp
    List.Perm _ ((w.queue.entriesOf key).map (·.caller) ++ w.queue.callsBeside key) :=
          (h.entries_perm.map _).append_right _
    List.Perm _ w.queue.calls := (w.queue.calls_perm key).symm

theorem PollsKey.length_rest_le {served rest : List QueueEntry}
    (h : PollsKey lane w key served rest w') : rest.length ≤ (w.queue.entriesOf key).length := by
  have hle : (served ++ rest).length ≤ (w.queue.entriesOf key).length := by
    rw [← h.waiting]
    exact List.length_filter_le _ _
  rw [List.length_append] at hle
  exact Nat.le_trans (Nat.le_add_left _ _) hle

theorem Kept.pollKey (h : Kept lane w) (htimer : w.pollTimer = true)
    {served rest : List QueueEntry} (hpolls : PollsKey lane w key served rest w') :
    Kept lane w' where
  laned := by
    intro key' state hstate
    obtain ⟨state₀, hstate₀, hlimit, hwindow⟩ := hpolls.laned key' state hstate
    rw [hlimit, hwindow]
    exact h.laned key' state₀ hstate₀
  issuedOnce := by
    rw [hpolls.log, hpolls.issued, ← h.issuedOnce]
    rw [List.filterMap_append, List.filterMap_append, filterMap_rejected _ _ _ fun _ => rfl,
      filterMap_serving _ _ _ rfl fun _ => rfl, List.append_nil, List.append_nil]
  held := by
    rw [hpolls.issued, hpolls.log]
    refine List.Perm.trans ?_ h.held
    simp only [List.filterMap_append, settles?_rejected, settles?_serving, List.append_assoc]
    exact hpolls.calls_perm.append_left _
  inTurn := by
    intro key'
    rw [hpolls.log, hpolls.entries]
    have hunissued : (served.flatMap (servingOn lane key)).filterMap (QueueEvent.enqueues? key') =
        [] := filterMap_serving _ key served rfl fun _ => rfl
    simp only [List.filterMap_append, hunissued, resolves?_serving, List.append_nil, List.nil_append,
      filterMap_rejected (QueueEvent.resolves? key') key _ fun _ => rfl,
      filterMap_rejected (QueueEvent.enqueues? key') key _ fun _ => rfl]
    split
    next heq =>
      subst heq
      refine List.Sublist.trans ?_ (h.inTurn key)
      rw [List.append_assoc, ← hpolls.waiting]
      exact List.filter_sublist.append_left _
    next =>
      rw [List.append_nil]
      exact h.inTurn key'
  paired := by
    rw [hpolls.log]
    exact h.paired.append ((paired_rejected lane key _).append (paired_serving lane key served))
  bounded := by
    intro key'
    rw [hpolls.entries, hpolls.config]
    split
    next heq =>
      subst heq
      exact hpolls.length_rest_le.trans (h.bounded key)
    next => exact h.bounded key'
  polled := fun _ => hpolls.pollTimer.trans htimer

theorem PollsKey.early {served rest : List QueueEntry} (h : PollsKey lane w key served rest w')
    {entry : QueueEntry} (hentry : entry ∈ served) : w.clock < entry.deadline := by
  have hmem : entry ∈ (w.queue.entriesOf key).filter fun e => w.clock < e.deadline := by
    rw [h.waiting]
    exact List.mem_append_left _ hentry
  simpa using (List.mem_filter.mp hmem).2

-- what the pass over some of the keys adds to the log
structure Passes (w : QueueWorld ι) (keys : List String) (news : List QueueEvent)
    (w' : QueueWorld ι) : Prop where
  log : w'.log = w.log ++ news
  clock : w'.clock = w.clock
  unissued : ∀ key entry, .enqueued key entry ∉ news
  early : ∀ key entry, .resolved key entry ∈ news → w.clock < entry.deadline
  expired : ∀ key ∈ keys, ∀ entry ∈ w.queue.entriesOf key, entry.deadline ≤ w.clock →
    .rejected key entry ∈ news

theorem passes_nil (w : QueueWorld ι) : Passes w [] [] w where
  log := (List.append_nil _).symm
  clock := rfl
  unissued := by simp
  early := by simp
  expired := by simp

theorem Passes.cons {served rest : List QueueEntry} (h : PollsKey lane w key served rest w')
    {keys : List String} {news : List QueueEvent} {w'' : QueueWorld ι}
    (hrest : Passes w' keys news w'') :
    Passes w (key :: keys) ((w.expiredOn key).map (.rejected key) ++
      served.flatMap (servingOn lane key) ++ news) w'' where
  log := by rw [hrest.log, h.log, List.append_assoc]
  clock := hrest.clock.trans h.clock
  unissued := by
    intro key' entry hmem
    rcases List.mem_append.mp hmem with hfirst | hlater
    · simp [servingOn, RequestQueue.serving] at hfirst
    · exact hrest.unissued key' entry hlater
  early := by
    intro key' entry hmem
    rcases List.mem_append.mp hmem with hfirst | hlater
    · have hserved : entry ∈ served := by
        simp only [servingOn, RequestQueue.serving, List.mem_append, List.mem_map,
          List.mem_flatMap] at hfirst
        rcases hfirst with ⟨_, -, heq⟩ | ⟨e, he, hpair⟩
        · cases heq
        · simp only [List.mem_cons, reduceCtorEq, QueueEvent.resolved.injEq, List.not_mem_nil,
            or_false, false_or] at hpair
          exact hpair.2 ▸ he
      exact h.early hserved
    · rw [← h.clock]
      exact hrest.early key' entry hlater
  expired := by
    intro key' hkey entry hentry hdeadline
    by_cases heq : key = key'
    · subst heq
      have hgone : entry ∈ w.expiredOn key := by
        simpa [expiredOn] using ⟨hentry, hdeadline⟩
      exact List.mem_append_left _ (List.mem_append_left _ (List.mem_map_of_mem hgone))
    · refine List.mem_append_right _ (hrest.expired key' ?_ entry ?_ ?_)
      · exact (List.mem_cons.mp hkey).resolve_left (Ne.symm heq)
      · rw [h.entries, if_neg heq]
        exact hentry
      · rw [h.clock]
        exact hdeadline

theorem Kept.stopPollingIfEmpty (h : Kept lane w) : Kept lane w.stopPollingIfEmpty := by
  unfold QueueWorld.stopPollingIfEmpty
  split
  next hempty => exact { h with polled := fun hsize => absurd hempty hsize }
  next => exact h

theorem settles_poll {news : List QueueEvent} {keys : List String}
    (hkeys : keys = w.queue.queues.keys) (hnews : Passes w keys news w') :
    Settles w w'.stopPollingIfEmpty (.poll : QueueAct ι) news where
  log := by
    unfold QueueWorld.stopPollingIfEmpty
    split
    · exact hnews.log
    · exact hnews.log
  dated := fun key entry hmem => absurd hmem (hnews.unissued key entry)
  resolved := fun key entry hmem => ⟨rfl, hnews.early key entry hmem⟩
  expired := by
    intro _ key entry hentry hdeadline
    refine hnews.expired key ?_ entry hentry hdeadline
    rw [hkeys, OrderedMap.mem_keys]
    unfold RequestQueue.entriesOf at hentry
    split at hentry
    next state hstate => exact ⟨state, hstate⟩
    next => cases hentry
  stopped := fun h => by cases h

def accept (lane : String → Lane ι) (w : QueueWorld ι) (key : String) : QueueWorld ι :=
  let entry : QueueEntry := ⟨w.issued, w.clock + w.queue.config.maxWaitMs⟩
  { w with
    queue := { w.queue with
      queues := w.queue.queues.set key
        (w.queue.push key (lane key).limit (lane key).windowMs entry) }
    pollTimer := true
    issued := w.issued + 1
    log := w.log ++ [.enqueued key entry] }

def refuse (w : QueueWorld ι) : QueueWorld ι :=
  { w with issued := w.issued + 1, log := w.log ++ [.refused w.issued] }

theorem enqueue_cases (lane : String → Lane ι) (w : QueueWorld ι) (key : String) :
    (w.queue.entriesOf key).length < w.queue.config.maxQueueSize ∧
        w.enqueue lane key = w.accept lane key ∨ w.enqueue lane key = w.refuse := by
  unfold QueueWorld.enqueue RequestQueue.enqueue
  by_cases hdisabled : w.queue.config.enabled = false
  · simp only [hdisabled, if_true]
    exact .inr rfl
  · by_cases hfull : w.queue.config.maxQueueSize ≤ (w.queue.entriesOf key).length
    · simp only [hdisabled, hfull, if_true]
      exact .inr rfl
    · simp only [hdisabled, hfull, if_false]
      exact .inl ⟨Nat.lt_of_not_le hfull, rfl⟩

theorem entries_push (Q : RequestQueue) (key : String) (limit : ℤ) (windowMs : ℕ)
    (entry : QueueEntry) :
    (Q.push key limit windowMs entry).entries = Q.entriesOf key ++ [entry] := by
  unfold RequestQueue.push RequestQueue.entriesOf
  split <;> rfl

theorem Kept.refuse (h : Kept lane w) : Kept lane w.refuse where
  laned := h.laned
  issuedOnce := by
    change (w.log ++ [_]).filterMap _ = List.range (w.issued + 1)
    rw [List.filterMap_append, h.issuedOnce, List.range_succ]
    rfl
  held := by
    change ((w.log ++ [_]).filterMap _ ++ w.queue.calls).Perm (List.range (w.issued + 1))
    rw [List.filterMap_append, List.range_succ, List.append_assoc]
    have hmoved : ([w.issued] ++ w.queue.calls).Perm (w.queue.calls ++ [w.issued]) :=
      List.perm_append_comm
    refine (hmoved.append_left _).trans ?_
    rw [← List.append_assoc]
    exact h.held.append_right _
  inTurn := by
    intro key
    change ((w.log ++ [_]).filterMap _ ++ w.queue.entriesOf key).Sublist ((w.log ++ [_]).filterMap _)
    rw [List.filterMap_append, List.filterMap_append]
    simpa [List.filterMap_cons, QueueEvent.resolves?, QueueEvent.enqueues?] using h.inTurn key
  paired := h.paired.append (.refused _ .nil)
  bounded := h.bounded
  polled := h.polled

theorem calls_accept :
    (w.accept lane key).queue.calls.Perm (w.queue.calls ++ [w.issued]) := by
  have hcalls := w.queue.calls_set key (w.queue.push key (lane key).limit (lane key).windowMs
    ⟨w.issued, w.clock + w.queue.config.maxWaitMs⟩)
  rw [entries_push, List.map_append] at hcalls
  refine hcalls.trans ?_
  change ((w.queue.entriesOf key).map (·.caller) ++ [w.issued] ++ w.queue.callsBeside key).Perm _
  rw [List.append_assoc]
  refine (List.perm_append_comm.append_left _).trans ?_
  rw [← List.append_assoc]
  exact (w.queue.calls_perm key).symm.append_right _

theorem Kept.accept (h : Kept lane w) (hroom : (w.queue.entriesOf key).length <
    w.queue.config.maxQueueSize) : Kept lane (w.accept lane key) where
  laned := by
    intro key' state hstate
    change (w.queue.queues.set key _).get? key' = some state at hstate
    rw [OrderedMap.get?_set] at hstate
    split at hstate
    next heq =>
      subst heq
      obtain rfl := Option.some.inj hstate
      unfold RequestQueue.push
      split
      next state₀ hstate₀ => exact h.laned key state₀ hstate₀
      next => exact ⟨rfl, rfl⟩
    next => exact h.laned key' state hstate
  issuedOnce := by
    change (w.log ++ [_]).filterMap _ = List.range (w.issued + 1)
    rw [List.filterMap_append, h.issuedOnce, List.range_succ]
    rfl
  held := by
    change ((w.log ++ [_]).filterMap _ ++ _).Perm (List.range (w.issued + 1))
    rw [List.filterMap_append, List.range_succ]
    change (w.log.filterMap QueueEvent.settles? ++ [] ++ _).Perm _
    rw [List.append_nil]
    refine (calls_accept.append_left _).trans ?_
    rw [← List.append_assoc]
    exact h.held.append_right _
  inTurn := by
    intro key'
    change ((w.log ++ [_]).filterMap _ ++ RequestQueue.entriesOf _ key').Sublist
      ((w.log ++ [_]).filterMap _)
    rw [List.filterMap_append, List.filterMap_append, QueueWorld.accept, RequestQueue.entriesOf_set,
      entries_push]
    by_cases heq : key = key'
    · subst heq
      simpa [List.filterMap_cons, QueueEvent.resolves?, QueueEvent.enqueues?] using
        (h.inTurn key).append_right [_]
    · simpa [List.filterMap_cons, QueueEvent.resolves?, QueueEvent.enqueues?, heq] using
        h.inTurn key'
  paired := h.paired.append (.enqueued _ _ .nil)
  bounded := by
    intro key'
    change (RequestQueue.entriesOf _ key').length ≤ w.queue.config.maxQueueSize
    rw [QueueWorld.accept, RequestQueue.entriesOf_set, entries_push]
    split
    next heq =>
      rw [List.length_append]
      exact hroom
    next => exact h.bounded key'
  polled := fun _ => rfl

theorem Kept.enqueue (h : Kept lane w) (key : String) : Kept lane (w.enqueue lane key) ∧
    ∃ news, Settles w (w.enqueue lane key) (.enqueue key : QueueAct ι) news := by
  rcases enqueue_cases lane w key with ⟨hroom, heq⟩ | heq
  · rw [heq]
    refine ⟨h.accept hroom, _, rfl, ?_, by simp, by simp, by simp⟩
    intro key' entry hmem
    obtain ⟨-, rfl⟩ := QueueEvent.enqueued.inj (List.mem_singleton.mp hmem)
    rfl
  · rw [heq]
    exact ⟨h.refuse, _, rfl, by simp, by simp, by simp, by simp⟩

def dismissals (w : QueueWorld ι) : List QueueEvent :=
  w.queue.queues.entries.flatMap fun e => e.2.entries.map (.rejected e.1)

theorem filterMap_dismissals {β : Type} {f : QueueEvent → Option β}
    (hf : ∀ key entry, f (.rejected key entry) = none) : w.dismissals.filterMap f = [] := by
  apply List.filterMap_eq_nil_iff.mpr
  intro event hevent
  obtain ⟨e, -, hmem⟩ := List.mem_flatMap.mp hevent
  obtain ⟨entry, -, rfl⟩ := List.mem_map.mp hmem
  exact hf e.1 entry

theorem settles_stop (w : QueueWorld ι) :
    Settles w w.stop (.stop : QueueAct ι) w.dismissals where
  log := rfl
  dated := by simp [dismissals]
  resolved := by simp [dismissals]
  expired := fun h => by cases h
  stopped := fun _ _ => rfl

theorem Kept.stop (h : Kept lane w) : Kept lane w.stop where
  laned := by
    intro key state hstate
    cases hstate
  issuedOnce := by
    change (w.log ++ w.dismissals).filterMap _ = List.range w.issued
    rw [List.filterMap_append, filterMap_dismissals fun _ _ => rfl, List.append_nil]
    exact h.issuedOnce
  held := by
    change ((w.log ++ w.dismissals).filterMap _ ++ []).Perm (List.range w.issued)
    simp only [dismissals, List.filterMap_append, List.filterMap_flatMap, settles?_rejected,
      List.append_nil]
    exact h.held
  inTurn := by
    intro key
    change ((w.log ++ w.dismissals).filterMap _ ++ []).Sublist ((w.log ++ w.dismissals).filterMap _)
    rw [List.filterMap_append, List.filterMap_append, filterMap_dismissals fun _ _ => rfl,
      filterMap_dismissals fun _ _ => rfl]
    simp only [List.append_nil]
    exact (List.sublist_append_left _ _).trans (h.inTurn key)
  paired := by
    refine h.paired.append ?_
    induction w.queue.queues.entries with
    | nil => exact .nil
    | cons e entries ih => exact (paired_rejected lane e.1 e.2.entries).append ih
  bounded := fun _ => Nat.zero_le _
  polled := fun hsize => absurd rfl hsize

variable [DecidableEq ι]

theorem Kept.pollKeys (h : Kept lane w) (htimer : w.pollTimer = true) (keys : List String) :
    Kept lane (keys.foldl (QueueWorld.pollKey lane) w) ∧
      ∃ news, Passes w keys news (keys.foldl (QueueWorld.pollKey lane) w) := by
  induction keys generalizing w with
  | nil => exact ⟨h, [], passes_nil w⟩
  | cons key keys ih =>
      obtain ⟨served, rest, hpolls⟩ := QueueWorld.pollsKey h.laned key
      obtain ⟨hkept, news, hnews⟩ := ih (h.pollKey htimer hpolls) (hpolls.pollTimer.trans htimer)
      exact ⟨hkept, _, .cons hpolls hnews⟩

theorem Kept.step (h : Kept lane w) {act : QueueAct ι} (hstep : w.step lane act = some w') :
    Kept lane w' ∧ ∃ news, Settles w w' act news := by
  cases act with
  | tick ms =>
      obtain rfl := Option.some.inj hstep
      exact ⟨{ h with }, [], (List.append_nil _).symm, by simp, by simp, by simp, by simp⟩
  | enqueue key =>
      obtain rfl := Option.some.inj hstep
      exact h.enqueue key
  | consume limiter key limit windowMs =>
      obtain rfl := Option.some.inj hstep
      exact ⟨{ h with }, [], (List.append_nil _).symm, by simp, by simp, by simp, by simp⟩
  | poll =>
      obtain ⟨htimer, hpoll⟩ := Option.ite_none_right_eq_some.mp hstep
      obtain rfl := Option.some.inj hpoll
      obtain ⟨hkept, news, hnews⟩ := h.pollKeys htimer w.queue.queues.keys
      exact ⟨hkept.stopPollingIfEmpty, news, settles_poll rfl hnews⟩
  | stop =>
      obtain rfl := Option.some.inj hstep
      exact ⟨h.stop, _, settles_stop w⟩

end QueueWorld

open Transition

variable [DecidableEq ι]

-- every promise of a run is settled at most once and in turn, and each step settles what it must
theorem queue_serves (lane : String → Lane ι) (config : QueueConfig)
    (limiters : ι → SlidingWindowLimiter) (clock : ℕ) {acts : List (QueueAct ι)} {w : QueueWorld ι}
    (h : run (step lane) (start config limiters clock) acts = some w) :
    InOrder lane w ∧ ∀ act w', w.step lane act = some w' → ∃ news, Settles w w' act news := by
  have hkept : Kept lane w := run_invariant (step lane) (p := fun _ _ => True)
    (fun _ _ _ hw _ hstep => (hw.step hstep).1) (kept_start config limiters clock)
    (along_true _ _ _) h
  exact ⟨hkept.inOrder, fun act w' hstep => (hkept.step hstep).2⟩

section Example

def pacedLane (_ : String) : Lane Unit := ⟨(), 1, 60000⟩

def pacedStart : QueueWorld Unit := start ⟨true, 5000, 2⟩ (fun _ => .init none) 0

-- the third call finds the queue full, the first is served and the second expires
def pacedActs : List (QueueAct Unit) :=
  [.enqueue "crm", .enqueue "crm", .enqueue "crm", .tick 100, .poll, .tick 4900, .poll]

example : (run (step pacedLane) pacedStart pacedActs).map (·.log) =
    some [.enqueued "crm" ⟨0, 5000⟩, .enqueued "crm" ⟨1, 5000⟩, .refused 2,
      .consumed "crm" 1 60000 true, .resolved "crm" ⟨0, 5000⟩, .rejected "crm" ⟨1, 5000⟩] := by
  decide +kernel

theorem queue_serves_paced : ∃ w, run (step pacedLane) pacedStart pacedActs = some w ∧
    InOrder pacedLane w ∧
      ∀ act w', w.step pacedLane act = some w' → ∃ news, Settles w w' act news := by
  obtain ⟨w, hw⟩ := Option.isSome_iff_exists.mp
    (by decide +kernel : (run (step pacedLane) pacedStart pacedActs).isSome = true)
  exact ⟨w, hw, queue_serves pacedLane _ _ _ hw⟩

end Example

end Conduit.RateLimit
