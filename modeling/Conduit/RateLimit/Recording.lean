import Conduit.RateLimit.Concurrency

namespace Conduit.RateLimit

open Program

def chargedBucket? : Event LimitOp LimitAns → Option (String × ℕ)
  | ⟨.consume c, r⟩ => if r.allowed then some c.bucket else none
  | _ => none

def joinedBucket? : Event LimitOp LimitAns → Option (String × ℕ)
  | ⟨.enqueue key _ windowMs, accepted⟩ => if accepted then some (key, windowMs) else none
  | _ => none

-- the buckets that a call has been recorded in by its own charges
def charged (tr : LimitTrace) : List (String × ℕ) := tr.filterMap chargedBucket?

-- the buckets whose queue it has joined
def joined (tr : LimitTrace) : List (String × ℕ) := tr.filterMap joinedBucket?

theorem charged_snoc (tr : LimitTrace) (e : Event LimitOp LimitAns) :
    charged (tr ++ [e]) = charged tr ++ (chargedBucket? e).toList := by
  rw [charged, List.filterMap_append]
  rfl

theorem joined_snoc (tr : LimitTrace) (e : Event LimitOp LimitAns) :
    joined (tr ++ [e]) = joined tr ++ (joinedBucket? e).toList := by
  rw [joined, List.filterMap_append]
  rfl

variable {checks others : List RateLimitCheck}

def Refused (checks : List RateLimitCheck) (r : RateLimitCheckResult) : Prop :=
  r.allowed = false ∧ ∃ check ∈ checks, r.blockingKey = some check.key ∧
    r.blockingLimit = some check.limit ∧ r.blockingWindowMs = some check.windowMs

def limitContract (checks : List RateLimitCheck) : Contract LimitOp LimitAns PEmpty where
  rely := fun _ _ => True
  emits := fun tr o =>
    match o with
    | .consume c => c ∈ checks
    | .check c => c ∈ checks
    | .now => True
    | .enqueue key limit windowMs => joined tr = [] ∧ charged tr = [] ∧
        ∃ c ∈ checks, c.key = key ∧ c.limit = limit ∧ c.windowMs = windowMs
    | .awaitSlot => joined tr ≠ []
  exits := fun _ e => nomatch e

def toll (consume : Bool) (others : List RateLimitCheck) : List (String × ℕ) :=
  if consume then others.map RateLimitCheck.bucket else []

theorem tryCheck_meets {check : RateLimitCheck} (h : check ∈ checks) (consume : Bool)
    (tr : LimitTrace) :
    Meets (limitContract checks) (fun tr' r => joined tr' = joined tr ∧
      charged tr' = charged tr ++ if r.allowed then toll consume [check] else [])
      (tryCheck consume check) tr := by
  unfold tryCheck
  split
  next hconsume =>
    subst hconsume
    refine meets_ask.2 ⟨h, fun r _ => ⟨?_, ?_⟩⟩
    · simp [joined_snoc, joinedBucket?]
    · rw [charged_snoc, chargedBucket?]
      split <;> rfl
  next hpreview =>
    refine meets_ask.2 ⟨h, fun r _ => ⟨?_, ?_⟩⟩
    · simp [joined_snoc, joinedBucket?]
    · simp [charged_snoc, chargedBucket?, toll, hpreview]

theorem firstBlocking_meets (consume : Bool) (h : ∀ c ∈ others, c ∈ checks) (tr : LimitTrace) :
    Meets (limitContract checks) (fun tr' found => joined tr' = joined tr ∧
      match found with
      | none => charged tr' = charged tr ++ toll consume others
      | some refusal => Refused others refusal ∧ (consume = false → charged tr' = charged tr))
      (firstBlocking consume others) tr := by
  induction others generalizing tr with
  | nil => exact ⟨rfl, by simp [toll]⟩
  | cons check rest ih =>
      unfold firstBlocking
      refine (tryCheck_meets (h check (by simp)) consume tr).bind fun tr₁ r _ hr => ?_
      obtain ⟨hjoined, hcharged⟩ := hr
      split
      next hallowed =>
        rw [hallowed] at hcharged
        refine (ih (fun c hc => h c (List.mem_cons_of_mem _ hc)) tr₁).imp fun tr₂ found _ hrest => ?_
        obtain ⟨hjoined₂, hfound⟩ := hrest
        refine ⟨hjoined₂.trans hjoined, ?_⟩
        cases found with
        | none =>
            simp only at hfound ⊢
            rw [hfound, hcharged]
            cases consume <;> simp [toll]
        | some refusal =>
            obtain ⟨⟨hallowed', c, hc, hkey⟩, hpreview⟩ := hfound
            refine ⟨⟨hallowed', c, List.mem_cons_of_mem _ hc, hkey⟩, fun hconsume => ?_⟩
            rw [hpreview hconsume, hcharged, hconsume]
            simp [toll]
      next hrefused =>
        have hfalse : r.allowed = false := Bool.eq_false_iff.mpr hrefused
        refine ⟨hjoined, ⟨hfalse, check, by simp, rfl, rfl, rfl⟩, fun _ => ?_⟩
        rw [hcharged, hfalse]
        simp

theorem mostRestrictive_meets (best : Option RateLimitResult) (h : ∀ c ∈ others, c ∈ checks)
    (tr : LimitTrace) :
    Meets (limitContract checks) (fun tr' _ => joined tr' = joined tr ∧ charged tr' = charged tr)
      (mostRestrictive best others) tr := by
  induction others generalizing best tr with
  | nil => exact ⟨rfl, rfl⟩
  | cons check rest ih =>
      unfold mostRestrictive
      refine Meets.ask_bind (h check (by simp)) fun r _ => ?_
      refine (ih _ (fun c hc => h c (List.mem_cons_of_mem _ hc)) _).imp fun tr₂ _ _ hrest => ?_
      simpa [joined_snoc, charged_snoc, joinedBucket?, chargedBucket?] using hrest

theorem now_meets (tr : LimitTrace) :
    Meets (limitContract checks) (fun tr' r => joined tr' = joined tr ∧
      charged tr' = charged tr ∧ r.allowed = true)
      (do let now ← request .now; return unlimited now) tr := by
  refine Meets.ask_bind trivial fun now _ => ?_
  simp [joined_snoc, charged_snoc, joinedBucket?, chargedBucket?, unlimited]

theorem reportRemaining_meets (h : ∀ c ∈ others, c ∈ checks) (tr : LimitTrace) :
    Meets (limitContract checks) (fun tr' r => joined tr' = joined tr ∧
      charged tr' = charged tr ∧ r.allowed = true) (reportRemaining others) tr := by
  unfold reportRemaining
  refine (mostRestrictive_meets none h tr).bind fun tr₁ best _ hsame => ?_
  cases best with
  | some result => exact ⟨hsame.1, hsame.2, rfl⟩
  | none =>
      refine (now_meets tr₁).imp fun tr₂ r _ hnow => ?_
      exact ⟨hnow.1.trans hsame.1, hnow.2.1.trans hsame.2, hnow.2.2⟩

theorem evaluateChecks_meets (consume : Bool) (h : ∀ c ∈ others, c ∈ checks) (tr : LimitTrace) :
    Meets (limitContract checks) (fun tr' r => joined tr' = joined tr ∧
      (r.allowed = true ∧ charged tr' = charged tr ++ toll consume others ∨
        Refused others r ∧ (consume = false → charged tr' = charged tr)))
      (evaluateChecks others consume) tr := by
  unfold evaluateChecks
  split
  next hnone =>
    refine (now_meets tr).imp fun tr' r _ hnow => ⟨hnow.1, .inl ⟨hnow.2.2, ?_⟩⟩
    rw [hnow.2.1, hnone]
    cases consume <;> simp [toll]
  next =>
    refine (firstBlocking_meets consume h tr).bind fun tr₁ found _ hfound => ?_
    obtain ⟨hjoined, hfound⟩ := hfound
    cases found with
    | some refusal => exact ⟨hjoined, .inr hfound⟩
    | none =>
        refine (reportRemaining_meets h tr₁).imp fun tr₂ r _ hreport => ?_
        exact ⟨hreport.1.trans hjoined, .inl ⟨hreport.2.2, hreport.2.1.trans hfound⟩⟩

def Admitted (tr : LimitTrace) : Prop := (⟨.awaitSlot, true⟩ : Event LimitOp LimitAns) ∈ tr

theorem Admitted.mono {tr tr' : LimitTrace} (h : Admitted tr) (hextends : tr <+: tr') :
    Admitted tr' :=
  hextends.subset h

-- what an allowed answer of consumeWithQueue has been recorded in by then
def Recorded (checks : List RateLimitCheck) (tr : LimitTrace) : Prop :=
  joined tr = [] ∧ charged tr = checks.map RateLimitCheck.bucket ∨
    ∃ check ∈ checks, joined tr = [check.bucket] ∧ Admitted tr ∧
      charged tr = (checks.filter fun c => c.key ≠ check.key).map RateLimitCheck.bucket

theorem waitInQueue_meets {check : RateLimitCheck} (h : check ∈ checks) {tr : LimitTrace}
    (hjoined : joined tr = []) (hcharged : charged tr = []) :
    Meets (limitContract checks) (fun tr' resolved => charged tr' = [] ∧
      (resolved = true → joined tr' = [check.bucket] ∧ Admitted tr'))
      (RateLimiter.waitInQueue check.key check.limit check.windowMs) tr := by
  unfold RateLimiter.waitInQueue
  refine Meets.ask_bind ⟨hjoined, hcharged, check, h, rfl, rfl, rfl⟩ fun accepted _ => ?_
  cases accepted with
  | false => exact ⟨by simp [charged_snoc, chargedBucket?, hcharged], by simp⟩
  | true =>
      have hone : joined (tr ++ [(⟨.enqueue check.key check.limit check.windowMs, true⟩ :
          Event LimitOp LimitAns)]) = [check.bucket] := by
        simp [joined_snoc, joinedBucket?, hjoined, RateLimitCheck.bucket]
      have hfree : charged (tr ++ [(⟨.enqueue check.key check.limit check.windowMs, true⟩ :
          Event LimitOp LimitAns)]) = [] := by
        rw [charged_snoc, hcharged]
        rfl
      have hwaits : joined (tr ++ [(⟨.enqueue check.key check.limit check.windowMs, true⟩ :
          Event LimitOp LimitAns)]) ≠ [] := by
        rw [hone]
        exact List.cons_ne_nil _ _
      refine meets_ask.2 ⟨hwaits, fun resolved _ => ⟨?_, fun hresolved => ?_⟩⟩
      · rw [charged_snoc, hfree]
        rfl
      · subst hresolved
        rw [joined_snoc, hone]
        exact ⟨rfl, by simp [Admitted]⟩

theorem evaluateAll_meets {tr : LimitTrace} (hjoined : joined tr = []) (hcharged : charged tr = []) :
    Meets (limitContract checks) (fun tr' r => r.allowed = true → Recorded checks tr')
      (evaluateChecks checks true) tr := by
  refine (evaluateChecks_meets true (fun _ h => h) tr).imp fun tr' r _ hr hallowed => ?_
  obtain ⟨hsame, ⟨-, hpaid⟩ | ⟨hrefused, -⟩⟩ := hr
  · exact .inl ⟨hsame.trans hjoined, by rw [hpaid, hcharged]; rfl⟩
  · rw [hrefused.1] at hallowed
    cases hallowed

theorem evaluateRest_meets {check : RateLimitCheck} (h : check ∈ checks) {tr : LimitTrace}
    (hjoined : joined tr = [check.bucket]) (hadmitted : Admitted tr) (hcharged : charged tr = []) :
    Meets (limitContract checks) (fun tr' r => r.allowed = true → Recorded checks tr')
      (evaluateChecks (checks.filter fun c => c.key ≠ check.key) true) tr := by
  have hsub : ∀ c ∈ checks.filter fun c => c.key ≠ check.key, c ∈ checks :=
    fun c hc => (List.mem_filter.mp hc).1
  refine (evaluateChecks_meets true hsub tr).imp fun tr' r hextends hr hallowed => ?_
  obtain ⟨hsame, ⟨-, hpaid⟩ | ⟨hrefused, -⟩⟩ := hr
  · refine .inr ⟨check, h, hsame.trans hjoined, hadmitted.mono hextends, ?_⟩
    rw [hpaid, hcharged]
    rfl
  · rw [hrefused.1] at hallowed
    cases hallowed

theorem consumeWithQueue_meets (R : RateLimiter) (clientId serverId toolName : String) :
    Meets (limitContract (R.getChecks clientId serverId toolName))
      (fun tr r => r.allowed = true → Recorded (R.getChecks clientId serverId toolName) tr)
      (R.consumeWithQueue clientId serverId toolName) [] := by
  unfold RateLimiter.consumeWithQueue
  refine (evaluateChecks_meets false (fun _ h => h) []).bind fun tr preview _ hpreview => ?_
  obtain ⟨hjoined, hcase⟩ := hpreview
  have hcharged : charged tr = [] := by
    rcases hcase with ⟨-, hfree⟩ | ⟨-, hfree⟩
    · exact hfree
    · exact hfree rfl
  split
  · exact evaluateAll_meets hjoined hcharged
  next hrefused =>
    split
    · exact evaluateAll_meets hjoined hcharged
    next key hkey =>
      rcases hcase with ⟨hallowed, -⟩ | ⟨⟨-, check, hcheck, hblocking, hlimit, hwindow⟩, -⟩
      · exact absurd hallowed hrefused
      · have hsame : key = check.key := by
          rw [hblocking] at hkey
          exact (Option.some.inj (Option.mem_filter_iff.mp hkey).1).symm
        subst hsame
        rw [hlimit, hwindow]
        refine (waitInQueue_meets hcheck hjoined hcharged).bind fun tr₁ resolved _ hwaited => ?_
        cases resolved with
        | true =>
            obtain ⟨hone, hadmitted⟩ := hwaited.2 rfl
            exact evaluateRest_meets hcheck hone hadmitted hwaited.1
        | false => exact fun hallowed => absurd hallowed hrefused

theorem answer_meets (R : RateLimiter) (request : LimitRequest) :
    Meets (limitContract (R.checksOf request))
      (fun tr r => ∀ clientId serverId toolName,
        request = .consumeWithQueue clientId serverId toolName → r.allowed = true →
          Recorded (R.checksOf request) tr) (R.answer request) [] := by
  cases request with
  | consumeWithQueue clientId serverId toolName =>
      exact (consumeWithQueue_meets R clientId serverId toolName).imp fun _ _ _ h _ _ _ _ => h
  | consume clientId serverId toolName =>
      exact (evaluateChecks_meets true (fun _ h => h) []).imp fun _ _ _ _ _ _ _ h => by cases h
  | consumeClientLimits clientId =>
      exact (evaluateChecks_meets true (fun _ h => h) []).imp fun _ _ _ _ _ _ _ h => by cases h
  | consumeServerLimits clientId serverId toolName =>
      exact (evaluateChecks_meets true (fun _ h => h) []).imp fun _ _ _ _ _ _ _ h => by cases h
  | check clientId serverId toolName =>
      exact (evaluateChecks_meets false (fun _ h => h) []).imp fun _ _ _ _ _ _ _ h => by cases h

namespace LimitTask

variable {R : RateLimiter} {t : LimitTask R}

theorem emits_of_rest {o : LimitOp} {next : LimitAns o → LimitProc RateLimitCheckResult}
    (hrest : t.rest = .op o next) : (limitContract t.checks).emits t.trace o := by
  have hsteps := t.thread.steps
  rw [show t.thread.rest = .op o next from hrest] at hsteps
  exact (Meets.of_steps (answer_meets R t.request) hsteps fun _ _ => trivial).1

theorem recorded_of_result {r : RateLimitCheckResult} (hresult : t.rest = .pure r)
    {clientId serverId toolName : String}
    (hrequest : t.request = .consumeWithQueue clientId serverId toolName)
    (hallowed : r.allowed = true) : Recorded t.checks t.trace := by
  have hsteps := t.thread.steps
  rw [show t.thread.rest = .pure r from hresult] at hsteps
  exact (Meets.of_steps (answer_meets R t.request) hsteps fun _ _ => trivial) _ _ _ hrequest hallowed

end LimitTask

end Conduit.RateLimit
