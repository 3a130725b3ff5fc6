import Conduit.Governance.Approvals

namespace Conduit.Governance

namespace GovernanceStore

variable {S : GovernanceStore} {id : String} {now : ℤ}

-- no row is lost
def Keeps (S S' : GovernanceStore) : Prop := ∀ row ∈ S.rows, ∃ row' ∈ S'.rows, row'.id = row.id

theorem Keeps.trans {S' S'' : GovernanceStore} (h : S.Keeps S') (h' : S'.Keeps S'') :
    S.Keeps S'' := by
  intro row hrow
  obtain ⟨row', hrow', hid⟩ := h row hrow
  obtain ⟨row'', hrow'', hid'⟩ := h' row' hrow'
  exact ⟨row'', hrow'', hid'.trans hid⟩

theorem Keeps.find? {S' : GovernanceStore} (h : S.Keeps S') {row : ApprovalRow}
    (hfound : S.find? id = some row) : ∃ row', S'.find? id = some row' := by
  obtain ⟨hmem, rfl⟩ := mem_of_find? hfound
  obtain ⟨row', hrow', hid⟩ := h row hmem
  exact ⟨row', hid ▸ find?_of_mem hrow'⟩

theorem keeps_update (f : ApprovalRow → ApprovalRow) (hid : ∀ row, (f row).id = row.id) :
    S.Keeps (S.update f hid) :=
  fun row hrow => ⟨f row, List.mem_map_of_mem hrow, hid row⟩

theorem keeps_prune (now : ℤ) : S.Keeps (S.pruneExpiredApprovalRequests now) := keeps_update _ _

theorem keeps_insert (row : ApprovalRow) (h : S.find? row.id = none) : S.Keeps (S.insert row h) :=
  fun old hold => ⟨old, List.mem_append_left _ hold, rfl⟩

-- a decision updates the one pending, unexpired row of that id, or nothing
theorem decideRequest_cases (S : GovernanceStore) (id : String) (status : ApprovalStatus)
    (approverClientId : String) (note : Option String) (now : ℤ) :
    S.decideRequest id status approverClientId note now =
        (S.pruneExpiredApprovalRequests now, none) ∨
      ∃ existing request, (S.pruneExpiredApprovalRequests now).find? id = some existing ∧
        existing.status = .pending ∧
        (S.decideRequest id status approverClientId note now).2 = some request ∧
        S.Keeps (S.decideRequest id status approverClientId note now).1 ∧
        ∀ row ∈ (S.decideRequest id status approverClientId note now).1.rows,
          ∃ old ∈ (S.pruneExpiredApprovalRequests now).rows,
            row = (if old.id = id then old.decide status approverClientId note now else old).prune
              now := by
  unfold decideRequest getApprovalRequest
  dsimp only
  rw [prune_prune]
  split
  · exact .inl rfl
  next existing hfound =>
    split
    next hpending =>
      have hkept : (S.pruneExpiredApprovalRequests now).Keeps
          (((S.pruneExpiredApprovalRequests now).update (fun row =>
            if row.id = id then row.decide status approverClientId note now else row) (by
              intro row
              split <;> rfl)).pruneExpiredApprovalRequests now) :=
        (keeps_update _ _).trans (keeps_prune now)
      obtain ⟨request, hrequest⟩ := hkept.find? hfound
      refine .inr ⟨existing, request, hfound, hpending, hrequest, (keeps_prune now).trans hkept,
        fun row hrow => ?_⟩
      obtain ⟨updated, hupdated, rfl⟩ := mem_pruned.1 hrow
      obtain ⟨old, hold, rfl⟩ := List.mem_map.mp hupdated
      exact ⟨old, hold, rfl⟩
    next => exact .inl rfl

-- a created request is a pending one that is used again, or a new row
theorem createOrReuse_cases (S : GovernanceStore) (input : CreateGovernanceApprovalRequestInput)
    (expiresAt : ℤ) (id : String) (now : ℤ) :
    (S.createOrReuseApprovalRequest input expiresAt id now).1 =
        S.pruneExpiredApprovalRequests now ∨
      (S.pruneExpiredApprovalRequests now).find? id = none ∧
        S.Keeps (S.createOrReuseApprovalRequest input expiresAt id now).1 ∧
        (∀ row ∈ (S.createOrReuseApprovalRequest input expiresAt id now).1.rows,
          (∃ old ∈ (S.pruneExpiredApprovalRequests now).rows, row = old.prune now) ∨
            row = (newRow input expiresAt id now).prune now ∧
              (S.createOrReuseApprovalRequest input expiresAt id now).2 = .ok row) := by
  unfold createOrReuseApprovalRequest
  dsimp only
  split
  · exact .inl rfl
  · split
    next h =>
      have hnew : ((newRow input expiresAt id now).prune now) ∈
          (((S.pruneExpiredApprovalRequests now).insert (newRow input expiresAt id now)
            h).pruneExpiredApprovalRequests now).rows :=
        mem_pruned.2 ⟨newRow input expiresAt id now, by simp [insert], rfl⟩
      have hfound := find?_of_mem hnew
      rw [(ApprovalRow.sameRequest_prune now (newRow input expiresAt id now)).id] at hfound
      change GovernanceStore.find? _ id = _ at hfound
      unfold getApprovalRequest
      dsimp only
      rw [hfound]
      refine .inr ⟨h, ((keeps_prune now).trans (keeps_insert _ h)).trans (keeps_prune now),
        fun row hrow => ?_⟩
      obtain ⟨old, hold, rfl⟩ := mem_pruned.1 hrow
      rcases List.mem_append.mp hold with hin | hlast
      · exact .inl ⟨old, hin, rfl⟩
      · obtain rfl := List.mem_singleton.mp hlast
        exact .inr ⟨rfl, rfl⟩
    next => exact .inl rfl

end GovernanceStore

namespace ApprovalEvent

variable (G : GovernanceRuntime) (host : Host)

-- the call made the request, under the id that was drawn for it
def Creates (e : ApprovalEvent)
    (id workspaceId requesterClientId serverId toolName fingerprint : String) : Prop :=
  ∃ (input : CreateGovernanceApprovalRequestInput) (row : ApprovalRow),
    e.call = .createApprovalRequest input id ∧ e.answer = .created (.ok row) ∧ row.id = id ∧
      input.workspaceId = workspaceId ∧ input.requesterClientId = requesterClientId ∧
      input.serverId = serverId ∧ input.toolName = toolName ∧
      input.requestFingerprint = fingerprint

def Decides (e : ApprovalEvent) (id : String) : Prop :=
  ∃ approverClientId decision note principal result,
    e.call = .decideApproval id approverClientId decision note principal ∧
      e.answer = .decided (.ok result)

-- by a client with one of the required roles, other than the requester if that is required
def Entitled (workspaceId requesterClientId approverClientId : String) : Prop :=
  (∃ role ∈ G.requiredRoles, role ∈ G.getRolesForClient workspaceId approverClientId) ∧
    (approverClientId ≠ requesterClientId ∨ G.allowSelfApproval = true)

def Approves (e : ApprovalEvent) (id workspaceId requesterClientId : String) : Prop :=
  ∃ approverClientId note principal result,
    e.call = .decideApproval id approverClientId .approved note principal ∧
      e.answer = .decided (.ok result) ∧ Entitled G workspaceId requesterClientId approverClientId

-- the one decision on the request came after its creation, and both it and `now` before its expiry
def Granted (earlier : List ApprovalEvent) (now : ℤ)
    (id workspaceId requesterClientId serverId toolName fingerprint : String) : Prop :=
  ∃ later decided before created, earlier = later ++ decided :: before ∧ created ∈ before ∧
    created.Creates id workspaceId requesterClientId serverId toolName fingerprint ∧
    decided.Approves G id workspaceId requesterClientId ∧
    decided.time < created.time + G.approvalTtlMs ∧ now < created.time + G.approvalTtlMs ∧
    ∀ other ∈ later ++ before, ¬ other.Decides id

def Undecided (earlier : List ApprovalEvent) (now : ℤ) (id approverClientId : String) : Prop :=
  (∀ other ∈ earlier, ¬ other.Decides id) ∧
    ∃ created ∈ earlier, ∃ workspaceId requesterClientId serverId toolName fingerprint,
      created.Creates id workspaceId requesterClientId serverId toolName fingerprint ∧
        now < created.time + G.approvalTtlMs ∧
        Entitled G workspaceId requesterClientId approverClientId

-- what the calls before justify about one answer
def Justified (earlier : List ApprovalEvent) (e : ApprovalEvent) : Prop :=
  match e.call, e.answer with
  | .verifyApprovalGrant id workspaceId requesterClientId serverId toolName toolArgs,
      .verified (some _) =>
      Granted G earlier e.time id workspaceId requesterClientId serverId toolName
        (buildRequestFingerprint host serverId toolName toolArgs)
  | .decideApproval id approverClientId _ _ _, .decided (.ok _) =>
      Undecided G earlier e.time id approverClientId
  | _, _ => True

def Sound : List ApprovalEvent → Prop
  | [] => True
  | e :: earlier => (∀ other ∈ earlier, other.time ≤ e.time) ∧ Justified G host earlier e ∧
      Sound earlier

theorem Decides.eq {e : ApprovalEvent} {id id' : String} (h : e.Decides id) (h' : e.Decides id') :
    id = id' := by
  obtain ⟨_, _, _, _, _, hcall, -⟩ := h
  obtain ⟨_, _, _, _, _, hcall', -⟩ := h'
  rw [hcall] at hcall'
  exact (ApprovalCall.decideApproval.inj hcall').1

end ApprovalEvent

namespace ApprovalWorld

open ApprovalEvent

variable {G : GovernanceRuntime} {host : Host} {w w' : ApprovalWorld}
  {log before : List ApprovalEvent} {e : ApprovalEvent} {row row' : ApprovalRow}

-- the call in the log that made the row
def MadeBy (G : GovernanceRuntime) (row : ApprovalRow) (created : ApprovalEvent) : Prop :=
  created.Creates row.id row.workspaceId row.requesterClientId row.serverId row.toolName
      row.requestFingerprint ∧
    row.expiresAt = created.time + G.approvalTtlMs

def ApprovedIn (G : GovernanceRuntime) (log : List ApprovalEvent) (row : ApprovalRow) : Prop :=
  ∃ later decided before, log = later ++ decided :: before ∧
    (∃ created ∈ before, MadeBy G row created) ∧
    decided.Approves G row.id row.workspaceId row.requesterClientId ∧
    decided.time < row.expiresAt ∧ ∀ other ∈ later ++ before, ¬ other.Decides row.id

structure Recorded (G : GovernanceRuntime) (log : List ApprovalEvent) (row : ApprovalRow) : Prop where
  made : ∃ created ∈ log, MadeBy G row created
  pending : row.status = .pending → ∀ other ∈ log, ¬ other.Decides row.id
  approved : row.status = .approved → ApprovedIn G log row

structure Consistent (G : GovernanceRuntime) (host : Host) (w : ApprovalWorld) : Prop where
  recorded : ∀ row ∈ w.store.rows, Recorded G w.log row
  known : ∀ e ∈ w.log, ∀ id, e.Decides id → ∃ row ∈ w.store.rows, row.id = id
  past : ∀ e ∈ w.log, e.time ≤ w.clock
  sound : Sound G host w.log

theorem MadeBy.of_same {created : ApprovalEvent} (h : MadeBy G row created)
    (hsame : row.SameRequest row') : MadeBy G row' created := by
  unfold MadeBy at h ⊢
  rw [hsame.id, hsame.workspaceId, hsame.requesterClientId, hsame.serverId, hsame.toolName,
    hsame.requestFingerprint, hsame.expiresAt]
  exact h

theorem Recorded.prune (h : Recorded G log row) (now : ℤ) : Recorded G log (row.prune now) := by
  have hsame := row.sameRequest_prune now
  by_cases hexpired : row.status = .pending ∧ row.expiresAt ≤ now
  · have hstatus : (row.prune now).status = .expired := by simp [ApprovalRow.prune, hexpired]
    refine ⟨?_, fun hpending => ?_, fun happroved => ?_⟩
    · obtain ⟨created, hmem, hmade⟩ := h.made
      exact ⟨created, hmem, hmade.of_same hsame⟩
    · rw [hstatus] at hpending
      cases hpending
    · rw [hstatus] at happroved
      cases happroved
  · rw [show row.prune now = row from if_neg hexpired]
    exact h

-- a call that does not decide a request leaves its row as it is recorded
theorem Recorded.cons (h : Recorded G log row) (hother : ¬ e.Decides row.id) :
    Recorded G (e :: log) row := by
  refine ⟨?_, fun hpending => ?_, fun happroved => ?_⟩
  · obtain ⟨created, hmem, hmade⟩ := h.made
    exact ⟨created, List.mem_cons_of_mem _ hmem, hmade⟩
  · intro other hmem
    rcases List.mem_cons.mp hmem with rfl | hold
    · exact hother
    · exact h.pending hpending other hold
  · obtain ⟨later, decided, before, rfl, hmade, happroves, htime, halone⟩ := h.approved happroved
    refine ⟨e :: later, decided, before, rfl, hmade, happroves, htime, fun other hmem => ?_⟩
    rcases List.mem_cons.mp hmem with rfl | hold
    · exact hother
    · exact halone other hold

-- the decision on a pending request is the only one the log has of it
theorem Recorded.decided (h : Recorded G log row) (hpending : row.status = .pending) {now : ℤ}
    (hunexpired : now < row.expiresAt) {approverClientId : String}
    (hentitled : Entitled G row.workspaceId row.requesterClientId approverClientId)
    {decision : ApprovalVerdict} {note : Option String} {principal : Option GovernancePrincipal}
    {result : GovernanceApprovalDecision}
    (he : e = ⟨now, .decideApproval row.id approverClientId decision note principal,
      .decided (.ok result)⟩) :
    Recorded G (e :: log) (row.decide decision.status approverClientId note now) := by
  have hsame := row.sameRequest_decide decision.status approverClientId note now
  obtain ⟨created, hmem, hmade⟩ := h.made
  refine ⟨⟨created, List.mem_cons_of_mem _ hmem, hmade.of_same hsame⟩, fun hstill => ?_,
    fun happroved => ?_⟩
  · cases decision <;> cases hstill
  · obtain rfl : decision = .approved := by
      cases decision with
      | approved => rfl
      | rejected => cases happroved
    refine ⟨[], e, log, rfl, ⟨created, hmem, hmade.of_same hsame⟩, ?_, ?_, h.pending hpending⟩
    · rw [he]
      exact ⟨approverClientId, note, principal, result, rfl, rfl, hentitled⟩
    · rw [he]
      exact hunexpired

theorem Recorded.granted (h : Recorded G log row) {now : ℤ} (happroved : row.status = .approved)
    (hnow : now < row.expiresAt) :
    Granted G log now row.id row.workspaceId row.requesterClientId row.serverId row.toolName
      row.requestFingerprint := by
  obtain ⟨later, decided, before, hlog, ⟨created, hmem, hcreates, hexpires⟩, happroves, htime,
    halone⟩ := h.approved happroved
  rw [hexpires] at htime hnow
  exact ⟨later, decided, before, created, hlog, hmem, hcreates, happroves, htime, hnow, halone⟩

theorem Consistent.extend (h : Consistent G host w) {now : ℤ} (hnow : w.clock ≤ now)
    {S : GovernanceStore} (htime : e.time = now)
    (hrecorded : ∀ row ∈ S.rows, Recorded G (e :: w.log) row) (hkept : w.store.Keeps S)
    (hknown : ∀ id, e.Decides id → ∃ row ∈ w.store.rows, row.id = id)
    (hjustified : Justified G host w.log e) : Consistent G host ⟨now, S, e :: w.log⟩ := by
  have hpast : ∀ other ∈ w.log, other.time ≤ now := fun other hother =>
    (h.past other hother).trans hnow
  refine ⟨hrecorded, fun other hother id hdecides => ?_, fun other hother => ?_,
    fun other hother => htime ▸ hpast other hother, hjustified, h.sound⟩
  · have hrow : ∃ row ∈ w.store.rows, row.id = id := by
      rcases List.mem_cons.mp hother with rfl | hold
      · exact hknown id hdecides
      · exact h.known other hold id hdecides
    obtain ⟨row, hmem, rfl⟩ := hrow
    exact hkept row hmem
  · rcases List.mem_cons.mp hother with rfl | hold
    · exact htime.le
    · exact hpast other hold

theorem Consistent.pruned (h : Consistent G host w) (now : ℤ) :
    ∀ row ∈ (w.store.pruneExpiredApprovalRequests now).rows, Recorded G w.log row := by
  intro row hrow
  obtain ⟨old, hold, rfl⟩ := GovernanceStore.mem_pruned.1 hrow
  exact (h.recorded old hold).prune now

-- a call that decides nothing and at most marks expired requests
theorem Consistent.quiet (h : Consistent G host w) {now : ℤ} (hnow : w.clock ≤ now)
    {S : GovernanceStore} (htime : e.time = now)
    (hstore : S = w.store ∨ S = w.store.pruneExpiredApprovalRequests now)
    (hdecides : ∀ id, ¬ e.Decides id) (hjustified : Justified G host w.log e) :
    Consistent G host ⟨now, S, e :: w.log⟩ := by
  refine h.extend hnow htime ?_ ?_ (fun id hid => absurd hid (hdecides id)) hjustified
  · rcases hstore with rfl | rfl
    · exact fun row hrow => (h.recorded row hrow).cons (hdecides row.id)
    · exact fun row hrow => (h.pruned now row hrow).cons (hdecides row.id)
  · rcases hstore with rfl | rfl
    · exact fun row hrow => ⟨row, hrow, rfl⟩
    · exact GovernanceStore.keeps_prune now

theorem Consistent.create (h : Consistent G host w) {now : ℤ} (hnow : w.clock ≤ now)
    (input : CreateGovernanceApprovalRequestInput) (id : String) :
    Consistent G host ⟨now, (G.createApprovalRequest w.store input id now).1,
      ⟨now, .createApprovalRequest input id,
        .created (G.createApprovalRequest w.store input id now).2⟩ :: w.log⟩ := by
  have hdecides : ∀ (answer : ApprovalAnswer) (id' : String),
      ¬ ApprovalEvent.Decides ⟨now, .createApprovalRequest input id, answer⟩ id' := by
    rintro answer id' ⟨_, _, _, _, _, hcall, -⟩
    cases hcall
  unfold GovernanceRuntime.createApprovalRequest
  split
  · rcases w.store.createOrReuse_cases input (now + G.approvalTtlMs) id now with
      hpruned | ⟨hfresh, hkept, hrows⟩
    · exact h.quiet hnow rfl (.inr hpruned) (hdecides _) trivial
    · refine h.extend hnow rfl (fun row hrow => ?_) hkept
        (fun id' hid' => absurd hid' (hdecides _ id')) trivial
      rcases hrows row hrow with ⟨old, hold, rfl⟩ | ⟨rfl, hanswer⟩
      · exact ((h.pruned now old hold).prune now).cons (hdecides _ _)
      · apply Recorded.prune
        refine ⟨⟨_, List.mem_cons_self, ⟨input, _, rfl, congrArg _ hanswer, ?_, rfl, rfl, rfl, rfl,
            rfl⟩, rfl⟩,
          fun _ other hother hid => ?_, fun happroved => by cases happroved⟩
        · exact (ApprovalRow.sameRequest_prune now _).id
        · rcases List.mem_cons.mp hother with rfl | hold
          · exact hdecides _ _ hid
          · obtain ⟨row, hrow, hrowid⟩ := h.known other hold id hid
            obtain ⟨row', hrow', hrowid'⟩ := GovernanceStore.keeps_prune now row hrow
            have hfound := GovernanceStore.find?_of_mem hrow'
            rw [hrowid', hrowid, hfresh] at hfound
            cases hfound
  · exact h.quiet hnow rfl (.inl rfl) (hdecides _) trivial

theorem Consistent.verify (h : Consistent G host w) {now : ℤ} (hnow : w.clock ≤ now)
    (id workspaceId requesterClientId serverId toolName : String)
    (toolArgs : List (String × Json)) :
    Consistent G host ⟨now, (G.verifyApprovalGrant host w.store id workspaceId requesterClientId
      serverId toolName toolArgs now).1, ⟨now, .verifyApprovalGrant id workspaceId
        requesterClientId serverId toolName toolArgs, .verified (G.verifyApprovalGrant host w.store
          id workspaceId requesterClientId serverId toolName toolArgs now).2⟩ :: w.log⟩ := by
  have hdecides : ∀ (answer : ApprovalAnswer) (id' : String), ¬ ApprovalEvent.Decides
      ⟨now, .verifyApprovalGrant id workspaceId requesterClientId serverId toolName toolArgs,
        answer⟩ id' := by
    rintro answer id' ⟨_, _, _, _, _, hcall, -⟩
    cases hcall
  unfold GovernanceRuntime.verifyApprovalGrant
  split
  · refine h.quiet hnow rfl (.inr rfl) (hdecides _) ?_
    generalize hquery : (⟨id, workspaceId, requesterClientId, serverId, toolName,
      buildRequestFingerprint host serverId toolName toolArgs⟩ : GovernanceApprovalGrantQuery) = query
    cases hgrant : (w.store.verifyApprovalGrant query now).2 with
    | none => trivial
    | some grant =>
        obtain ⟨hmem, hid, happroved, hfor, hunexpired⟩ :=
          GovernanceStore.grantable_of_verified hgrant
        obtain ⟨hworkspace, hrequester, hserver, htool, hfingerprint⟩ := hfor
        have hgranted := (h.pruned now grant hmem).granted happroved hunexpired
        rw [hid, hworkspace, hrequester, hserver, htool, hfingerprint, ← hquery] at hgranted
        exact hgranted
  · exact h.quiet hnow rfl (.inl rfl) (hdecides _) trivial

theorem entitled_of_decisionError {existing : ApprovalRow} {id approverClientId : String}
    {principal : Option GovernancePrincipal}
    (h : G.decisionError existing id approverClientId principal = none) :
    Entitled G existing.workspaceId existing.requesterClientId approverClientId := by
  unfold GovernanceRuntime.decisionError at h
  split at h
  · cases h
  · split at h
    · cases h
    · split at h
      · cases h
      next hrole =>
        split at h
        · cases h
        next hself =>
          constructor
          · simpa [GovernanceRuntime.mayDecide] using hrole
          · by_cases hsame : approverClientId = existing.requesterClientId
            · exact .inr (by simpa [hsame] using hself)
            · exact .inl hsame

-- a decision that is refused leaves the requests as they are, an accepted one decides its own
theorem decideApproval_cases (G : GovernanceRuntime) (S : GovernanceStore)
    (id approverClientId : String) (decision : ApprovalVerdict) (note : Option String)
    (principal : Option GovernancePrincipal) (now : ℤ) :
    ((G.decideApproval S id approverClientId decision note principal now).1 = S ∨
        (G.decideApproval S id approverClientId decision note principal now).1 =
          S.pruneExpiredApprovalRequests now) ∧
      (∀ result,
        (G.decideApproval S id approverClientId decision note principal now).2 ≠ .ok result) ∨
    ∃ existing result, (S.pruneExpiredApprovalRequests now).find? id = some existing ∧
      existing.status = .pending ∧
      Entitled G existing.workspaceId existing.requesterClientId approverClientId ∧
      (G.decideApproval S id approverClientId decision note principal now).2 = .ok result ∧
      S.Keeps (G.decideApproval S id approverClientId decision note principal now).1 ∧
      ∀ row ∈ (G.decideApproval S id approverClientId decision note principal now).1.rows,
        ∃ old ∈ (S.pruneExpiredApprovalRequests now).rows,
          row = (if old.id = id then old.decide decision.status approverClientId note now
            else old).prune now := by
  unfold GovernanceRuntime.decideApproval GovernanceStore.getApprovalRequest
  dsimp only
  split
  · exact .inl ⟨.inl rfl, by simp⟩
  · split
    · exact .inl ⟨.inr rfl, by simp⟩
    next existing hfound =>
      split
      · exact .inl ⟨.inr rfl, by simp⟩
      next herror =>
        rcases (S.pruneExpiredApprovalRequests now).decideRequest_cases id decision.status
          approverClientId note now with hnone | ⟨found, request, hfound', hpending, hrequest,
            hkept, hrows⟩
        · rw [hnone, GovernanceStore.prune_prune]
          exact .inl ⟨.inr rfl, by simp⟩
        · rw [GovernanceStore.prune_prune] at hfound' hrows
          rw [hrequest]
          obtain rfl := Option.some.inj (hfound.symm.trans hfound')
          exact .inr ⟨existing, _, hfound, hpending, entitled_of_decisionError herror, rfl,
            (GovernanceStore.keeps_prune now).trans hkept, hrows⟩

theorem Consistent.decide (h : Consistent G host w) {now : ℤ} (hnow : w.clock ≤ now)
    (id approverClientId : String) (decision : ApprovalVerdict) (note : Option String)
    (principal : Option GovernancePrincipal) :
    Consistent G host ⟨now,
      (G.decideApproval w.store id approverClientId decision note principal now).1,
      ⟨now, .decideApproval id approverClientId decision note principal, .decided
        (G.decideApproval w.store id approverClientId decision note principal now).2⟩ :: w.log⟩ := by
  rcases decideApproval_cases G w.store id approverClientId decision note principal now with
    ⟨hstore, hrefused⟩ | ⟨existing, result, hfound, hpending, hentitled, hanswer, hkept, hrows⟩
  · refine h.quiet hnow rfl hstore ?_ ?_
    · rintro id' ⟨_, _, _, _, result, -, hanswer⟩
      exact hrefused result (ApprovalAnswer.decided.inj hanswer)
    · cases hanswer : (G.decideApproval w.store id approverClientId decision note principal
          now).2 with
      | error => trivial
      | ok result => exact absurd hanswer (hrefused result)
  · obtain ⟨hmem, rfl⟩ := GovernanceStore.mem_of_find? hfound
    obtain ⟨old₀, hold₀, hpruned⟩ := GovernanceStore.mem_pruned.1 hmem
    have hrecorded := h.pruned now existing hmem
    have hunexpired : now < existing.expiresAt := by
      rw [← hpruned] at hpending
      obtain ⟨hsame, hlt⟩ := ApprovalRow.unexpired_of_prune hpending
      rw [← hpruned, hsame]
      exact hlt
    rw [hanswer]
    have hdecides : ApprovalEvent.Decides ⟨now, .decideApproval existing.id approverClientId decision
        note principal, .decided (.ok result)⟩ existing.id :=
      ⟨approverClientId, decision, note, principal, result, rfl, rfl⟩
    refine h.extend hnow rfl (fun row hrow => ?_) hkept (fun id' hid' => ?_) ?_
    · obtain ⟨old, hold, rfl⟩ := hrows row hrow
      split
      next hid =>
        obtain rfl := GovernanceStore.eq_of_mem hold hmem hid
        exact (hrecorded.decided hpending hunexpired hentitled rfl).prune now
      next hid =>
        apply ((h.pruned now old hold).prune now).cons
        rw [(old.sameRequest_prune now).id]
        exact fun hother => hid (hother.eq hdecides)
    · rw [hid'.eq hdecides, ← hpruned, (old₀.sameRequest_prune now).id]
      exact ⟨old₀, hold₀, rfl⟩
    · obtain ⟨created, hcreated, hcreates, hexpires⟩ := hrecorded.made
      rw [hexpires] at hunexpired
      exact ⟨hrecorded.pending hpending, created, hcreated, _, _, _, _, _, hcreates, hunexpired,
        hentitled⟩

theorem Consistent.step (h : Consistent G host w) (act : ℕ × ApprovalCall) :
    Consistent G host (ApprovalWorld.step G host w act) := by
  have hnow : w.clock ≤ w.clock + act.1 := by omega
  obtain ⟨wait, call⟩ := act
  cases call with
  | createApprovalRequest input id => exact h.create hnow input id
  | decideApproval id approverClientId decision note principal =>
      exact h.decide hnow id approverClientId decision note principal
  | verifyApprovalGrant id workspaceId requesterClientId serverId toolName toolArgs =>
      exact h.verify hnow id workspaceId requesterClientId serverId toolName toolArgs

theorem consistent_init (G : GovernanceRuntime) (host : Host) (clock : ℤ) :
    Consistent G host (init clock) where
  recorded := by simp [init, GovernanceStore.empty]
  known := by simp [init]
  past := by simp [init]
  sound := trivial

theorem Consistent.foldl (h : Consistent G host w) (acts : List (ℕ × ApprovalCall)) :
    Consistent G host (acts.foldl (ApprovalWorld.step G host) w) := by
  induction acts generalizing w with
  | nil => exact h
  | cons act acts ih => exact ih (h.step act)

theorem approvals_sound (G : GovernanceRuntime) (host : Host) (clock : ℤ)
    (acts : List (ℕ × ApprovalCall)) : Sound G host (run G host clock acts).log :=
  ((consistent_init G host clock).foldl acts).sound

section Example

def reviewed : GovernanceRuntime where
  config := some {
    enabled := true
    roleBindings := some [⟨"acme", .approver, ["lead"]⟩] }
  hasStore := true

def plainHost : Host where
  sha256 := id
  regExpTest := fun _ _ => none
  jwtVerify := fun _ _ _ => .error "no key"
  parseBase64Json := fun _ => none

def deletion : CreateGovernanceApprovalRequestInput where
  source := .governance
  workspaceId := "acme"
  requesterClientId := "dev"
  serverId := "crm"
  toolName := "delete"
  ruleName := "deletions"
  reason := "deletes data"
  traceId := "t"
  requestFingerprint := buildRequestFingerprint plainHost "crm" "delete" []
  toolArgs := []

-- asked, approved by a lead a minute later, and used a second after that
def approvedDeletion : List (ℕ × ApprovalCall) :=
  [(0, .createApprovalRequest deletion "r-1"),
    (60000, .decideApproval "r-1" "lead" .approved none none),
    (1000, .verifyApprovalGrant "r-1" "acme" "dev" "crm" "delete" [])]

def lastGrant (w : ApprovalWorld) : Option ApprovalRow :=
  match w.log with
  | ⟨_, _, .verified grant⟩ :: _ => grant
  | _ => none

example : (lastGrant (run reviewed plainHost 0 approvedDeletion)).map ApprovalRow.approverClientId =
    some (some "lead") := by decide +kernel

end Example

end ApprovalWorld

end Conduit.Governance
