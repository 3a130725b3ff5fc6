import Conduit.Foundation.OrderedMap

namespace Conduit.Cache

abbrev FlightId := ℕ

inductive FlightEntry where
  | joined (flight : FlightId)
  | started (flight : FlightId)
deriving DecidableEq, Repr

def FlightEntry.flight : FlightEntry → FlightId
  | .joined flight => flight
  | .started flight => flight

structure Flight (ρ : Type) where
  key : String
  starter : ℕ
  settled : Option ρ

-- `flights` are the shared promises, `inflight` the ones that a new caller can still join
structure InflightTracker (ρ : Type) where
  inflight : OrderedMap String FlightId
  flights : List (Flight ρ)

namespace InflightTracker

variable {ρ : Type}

def init : InflightTracker ρ where
  inflight := .empty
  flights := []

variable (T : InflightTracker ρ)

-- the synchronous part of deduplicate
def enter (key : String) (caller : ℕ) : InflightTracker ρ × FlightEntry :=
  match T.inflight.get? key with
  | some flight => (T, .joined flight)
  | none =>
      ({ inflight := T.inflight.set key T.flights.length
         flights := T.flights ++ [⟨key, caller, none⟩] }, .started T.flights.length)

-- the factory's promise settles, once, and its finally callback runs
def settle (flight : FlightId) (result : ρ) : InflightTracker ρ :=
  match T.flights[flight]? with
  | some ⟨key, starter, none⟩ =>
      { inflight := T.inflight.delete key
        flights := T.flights.set flight ⟨key, starter, some result⟩ }
  | _ => T

def result? (flight : FlightId) : Option ρ := T.flights[flight]?.bind Flight.settled

def Registered (T : InflightTracker ρ) : Prop :=
  ∀ key flight, T.inflight.get? key = some flight →
    ∃ entry : Flight ρ, T.flights[flight]? = some entry ∧ entry.key = key

-- flights keep their key and starter, and once settled their result
def Extends (T T' : InflightTracker ρ) : Prop :=
  ∀ (flight : FlightId) (entry : Flight ρ), T.flights[flight]? = some entry →
    ∃ entry' : Flight ρ, T'.flights[flight]? = some entry' ∧ entry'.key = entry.key ∧
      entry'.starter = entry.starter

variable {T}

theorem Extends.refl (T : InflightTracker ρ) : T.Extends T :=
  fun _ entry h => ⟨entry, h, rfl, rfl⟩

theorem registered_init : (init : InflightTracker ρ).Registered := by
  intro key flight h
  simp [init] at h

theorem enter_extends (key : String) (caller : ℕ) : T.Extends (T.enter key caller).1 := by
  unfold enter
  split
  · exact .refl T
  · intro flight entry h
    refine ⟨entry, ?_, rfl, rfl⟩
    rw [List.getElem?_append_left (List.getElem?_eq_some_iff.mp h).1]
    exact h

theorem settle_extends (flight : FlightId) (result : ρ) : T.Extends (T.settle flight result) := by
  unfold settle
  split
  next key starter hpending =>
    intro flight' entry h
    rw [List.getElem?_set]
    split
    next heq =>
      subst heq
      obtain rfl := Option.some.inj (hpending.symm.trans h)
      have hlt := (List.getElem?_eq_some_iff.mp h).1
      exact ⟨⟨key, starter, some result⟩, by simp [hlt], rfl, rfl⟩
    next => exact ⟨entry, h, rfl, rfl⟩
  · exact .refl T

theorem Registered.enter (h : T.Registered) (key : String) (caller : ℕ) :
    (T.enter key caller).1.Registered := by
  unfold InflightTracker.enter
  split
  · exact h
  · intro key' flight hflight
    rw [OrderedMap.get?_set] at hflight
    split at hflight
    next heq =>
      obtain rfl := Option.some.inj hflight
      exact ⟨⟨key, caller, none⟩, by simp, heq⟩
    next =>
      obtain ⟨entry, hentry, hkey⟩ := h key' flight hflight
      rw [List.getElem?_append_left (List.getElem?_eq_some_iff.mp hentry).1]
      exact ⟨entry, hentry, hkey⟩

theorem Registered.settle (h : T.Registered) (flight : FlightId) (result : ρ) :
    (T.settle flight result).Registered := by
  intro key flight' hflight'
  have hbefore : T.inflight.get? key = some flight' := by
    unfold InflightTracker.settle at hflight'
    split at hflight'
    · rw [OrderedMap.get?_delete] at hflight'
      split at hflight'
      · cases hflight'
      · exact hflight'
    · exact hflight'
  obtain ⟨entry, hentry, hkey⟩ := h key flight' hbefore
  obtain ⟨entry', hentry', hkey', -⟩ := settle_extends flight result flight' entry hentry
  exact ⟨entry', hentry', hkey'.trans hkey⟩

-- the caller's flight, joined or started, is one for its key
theorem Registered.flight_of_enter (h : T.Registered) (key : String) (caller : ℕ) :
    ∃ entry : Flight ρ, (T.enter key caller).1.flights[(T.enter key caller).2.flight]? = some entry ∧
      entry.key = key := by
  unfold InflightTracker.enter
  split
  next flight hflight => exact h key flight hflight
  next => exact ⟨⟨key, caller, none⟩, by simp [FlightEntry.flight], rfl⟩

theorem starter_of_started {key : String} {caller : ℕ} {flight : FlightId} {entry : Flight ρ}
    (hstarted : (T.enter key caller).2 = .started flight)
    (hentry : (T.enter key caller).1.flights[(T.enter key caller).2.flight]? = some entry) :
    entry.starter = caller := by
  unfold InflightTracker.enter at hstarted hentry
  split at hstarted
  · cases hstarted
  next hnone =>
    rw [hnone] at hentry
    simp only [FlightEntry.flight, List.getElem?_concat_length] at hentry
    obtain rfl := Option.some.inj hentry
    rfl

theorem flights_enter {key : String} {caller : ℕ} {flight : FlightId} {entry : Flight ρ}
    (h : (T.enter key caller).1.flights[flight]? = some entry) :
    T.flights[flight]? = some entry ∨ entry.key = key ∧ entry.starter = caller := by
  unfold InflightTracker.enter at h
  split at h
  · exact .inl h
  · rw [List.getElem?_append] at h
    split at h
    · exact .inl h
    · rw [List.getElem?_singleton] at h
      split at h
      · obtain rfl := Option.some.inj h
        exact .inr ⟨rfl, rfl⟩
      · cases h

theorem flights_settle {flight flight' : FlightId} {result : ρ} {entry : Flight ρ}
    (h : (T.settle flight result).flights[flight']? = some entry) :
    ∃ entry' : Flight ρ, T.flights[flight']? = some entry' ∧ entry.key = entry'.key ∧
      entry.starter = entry'.starter := by
  unfold InflightTracker.settle at h
  split at h
  next key starter hpending =>
    rw [List.getElem?_set] at h
    split at h
    next heq =>
      split at h
      · obtain rfl := Option.some.inj h
        exact ⟨⟨key, starter, none⟩, heq ▸ hpending, rfl, rfl⟩
      · cases h
    next => exact ⟨entry, h, rfl, rfl⟩
  · exact ⟨entry, h, rfl, rfl⟩

theorem result?_enter {key : String} {caller : ℕ} {flight : FlightId} {result : ρ}
    (h : (T.enter key caller).1.result? flight = some result) : T.result? flight = some result := by
  unfold InflightTracker.enter at h
  split at h
  · exact h
  · obtain ⟨entry, hentry, hsettled⟩ := Option.bind_eq_some_iff.mp h
    rw [List.getElem?_append] at hentry
    split at hentry
    · simp [result?, hentry, hsettled]
    · rw [List.getElem?_singleton] at hentry
      split at hentry
      · obtain rfl := Option.some.inj hentry
        cases hsettled
      · cases hentry

theorem result?_settle {flight flight' : FlightId} {result result' : ρ}
    (h : (T.settle flight result).result? flight' = some result') :
    T.result? flight' = some result' ∨ flight' = flight ∧ result' = result := by
  unfold InflightTracker.settle at h
  split at h
  next key starter hpending =>
    obtain ⟨entry', hentry', hsettled⟩ := Option.bind_eq_some_iff.mp h
    rw [List.getElem?_set] at hentry'
    split at hentry'
    next heq =>
      split at hentry'
      · obtain rfl := Option.some.inj hentry'
        exact .inr ⟨heq.symm, (Option.some.inj hsettled).symm⟩
      · cases hentry'
    next => exact .inl (by simp [result?, hentry', hsettled])
  · exact .inl h

theorem result?_enter_of_result? {flight : FlightId} {result : ρ}
    (h : T.result? flight = some result) (key : String) (caller : ℕ) :
    (T.enter key caller).1.result? flight = some result := by
  obtain ⟨entry, hentry, hsettled⟩ := Option.bind_eq_some_iff.mp h
  unfold InflightTracker.enter
  split
  · exact h
  · have hlt := (List.getElem?_eq_some_iff.mp hentry).1
    simp [result?, List.getElem?_append_left hlt, hentry, hsettled]

theorem result?_settle_of_result? {flight : FlightId} {result : ρ}
    (h : T.result? flight = some result) (flight' : FlightId) (result' : ρ) :
    (T.settle flight' result').result? flight = some result := by
  obtain ⟨entry, hentry, hsettled⟩ := Option.bind_eq_some_iff.mp h
  unfold InflightTracker.settle
  split
  next key starter hpending =>
    have hne : flight' ≠ flight := by
      rintro rfl
      obtain rfl := Option.some.inj (hpending.symm.trans hentry)
      cases hsettled
    simp [result?, List.getElem?_set_ne hne, hentry, hsettled]
  · exact h

-- the flights that a new caller can still join have not settled
def Open (T : InflightTracker ρ) : Prop :=
  ∀ key flight, T.inflight.get? key = some flight →
    ∃ starter, T.flights[flight]? = some ⟨key, starter, none⟩

theorem open_init : (init : InflightTracker ρ).Open := by
  intro key flight h
  simp [init] at h

theorem Open.registered (h : T.Open) : T.Registered := by
  intro key flight hflight
  obtain ⟨starter, hentry⟩ := h key flight hflight
  exact ⟨_, hentry, rfl⟩

theorem Open.enter (h : T.Open) (key : String) (caller : ℕ) : (T.enter key caller).1.Open := by
  unfold InflightTracker.enter
  split
  · exact h
  · intro key' flight hflight
    rw [OrderedMap.get?_set] at hflight
    split at hflight
    next heq =>
      obtain rfl := Option.some.inj hflight
      exact ⟨caller, by simp [heq]⟩
    next =>
      obtain ⟨starter, hentry⟩ := h key' flight hflight
      have hlt := (List.getElem?_eq_some_iff.mp hentry).1
      exact ⟨starter, by rw [List.getElem?_append_left hlt, hentry]⟩

theorem Open.settle (h : T.Open) (flight : FlightId) (result : ρ) :
    (T.settle flight result).Open := by
  unfold InflightTracker.settle
  split
  next key starter hpending =>
    intro key' flight' hflight'
    rw [OrderedMap.get?_delete] at hflight'
    split at hflight'
    · cases hflight'
    next hne =>
      obtain ⟨starter', hentry⟩ := h key' flight' hflight'
      have hother : flight ≠ flight' := by
        rintro rfl
        rw [hpending] at hentry
        exact hne (congrArg Flight.key (Option.some.inj hentry))
      exact ⟨starter', by rw [List.getElem?_set_ne hother, hentry]⟩
  next => exact h

theorem Open.result?_enter (h : T.Open) (key : String) (caller : ℕ) :
    (T.enter key caller).1.result? (T.enter key caller).2.flight = none := by
  unfold InflightTracker.enter
  split
  next flight hflight =>
    obtain ⟨starter, hentry⟩ := h key flight hflight
    simp [result?, FlightEntry.flight, hentry]
  next => simp [result?, FlightEntry.flight]

end InflightTracker

end Conduit.Cache
