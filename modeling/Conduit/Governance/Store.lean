import Conduit.Governance.Runtime
import Mathlib.Data.List.Basic

namespace Conduit.Governance

-- a row of approval_requests; its times are in milliseconds
structure ApprovalRow where
  id : String
  createdAt : ℤ
  updatedAt : ℤ
  expiresAt : ℤ
  status : ApprovalStatus
  source : ApprovalSource
  workspaceId : String
  requesterClientId : String
  approverClientId : Option String
  serverId : String
  toolName : String
  ruleName : String
  reason : String
  traceId : String
  requestFingerprint : String
  toolArgs : List (String × Json)
  note : Option String

namespace ApprovalRow

def isFor (row : ApprovalRow) (workspaceId requesterClientId serverId toolName fingerprint : String) :
    Prop :=
  row.workspaceId = workspaceId ∧ row.requesterClientId = requesterClientId ∧
    row.serverId = serverId ∧ row.toolName = toolName ∧ row.requestFingerprint = fingerprint

instance (row : ApprovalRow) (workspaceId requesterClientId serverId toolName fingerprint : String) :
    Decidable (row.isFor workspaceId requesterClientId serverId toolName fingerprint) :=
  inferInstanceAs (Decidable (_ ∧ _))

def prune (now : ℤ) (row : ApprovalRow) : ApprovalRow :=
  if row.status = .pending ∧ row.expiresAt ≤ now then
    { row with status := .expired, updatedAt := now }
  else row

def decide (status : ApprovalStatus) (approverClientId : String) (note : Option String) (now : ℤ)
    (row : ApprovalRow) : ApprovalRow :=
  { row with
    status := status
    approverClientId := some approverClientId
    note := note
    updatedAt := now }

-- what no update of a row changes
structure SameRequest (row row' : ApprovalRow) : Prop where
  id : row'.id = row.id
  createdAt : row'.createdAt = row.createdAt
  expiresAt : row'.expiresAt = row.expiresAt
  workspaceId : row'.workspaceId = row.workspaceId
  requesterClientId : row'.requesterClientId = row.requesterClientId
  serverId : row'.serverId = row.serverId
  toolName : row'.toolName = row.toolName
  requestFingerprint : row'.requestFingerprint = row.requestFingerprint

theorem sameRequest_prune (now : ℤ) (row : ApprovalRow) : row.SameRequest (row.prune now) := by
  unfold prune
  split <;> exact ⟨rfl, rfl, rfl, rfl, rfl, rfl, rfl, rfl⟩

theorem sameRequest_decide (status : ApprovalStatus) (approverClientId : String)
    (note : Option String) (now : ℤ) (row : ApprovalRow) :
    row.SameRequest (row.decide status approverClientId note now) :=
  ⟨rfl, rfl, rfl, rfl, rfl, rfl, rfl, rfl⟩

theorem prune_of_ne_pending {now : ℤ} {row : ApprovalRow} (h : row.status ≠ .pending) :
    row.prune now = row := if_neg fun hexpired => h hexpired.1

theorem prune_prune (now : ℤ) (row : ApprovalRow) : (row.prune now).prune now = row.prune now := by
  by_cases h : row.status = .pending ∧ row.expiresAt ≤ now
  · exact prune_of_ne_pending (by simp [prune, h])
  · rw [show row.prune now = row from if_neg h]
    exact if_neg h

theorem unexpired_of_prune {now : ℤ} {row : ApprovalRow} (h : (row.prune now).status = .pending) :
    row.prune now = row ∧ now < row.expiresAt := by
  by_cases hexpired : row.status = .pending ∧ row.expiresAt ≤ now
  · simp [prune, hexpired] at h
  · have hsame : row.prune now = row := if_neg hexpired
    rw [hsame] at h
    exact ⟨hsame, not_le.mp fun hle => hexpired ⟨h, hle⟩⟩

end ApprovalRow

-- the ids are the primary key
structure GovernanceStore where
  rows : List ApprovalRow
  primary : (rows.map ApprovalRow.id).Nodup

namespace GovernanceStore

def empty : GovernanceStore where
  rows := []
  primary := List.nodup_nil

variable (S : GovernanceStore)

def find? (id : String) : Option ApprovalRow := S.rows.find? fun row => row.id = id

def update (f : ApprovalRow → ApprovalRow) (hid : ∀ row, (f row).id = row.id) : GovernanceStore where
  rows := S.rows.map f
  primary := by
    have hids : (S.rows.map f).map ApprovalRow.id = S.rows.map ApprovalRow.id := by
      rw [List.map_map]
      exact List.map_congr_left fun row _ => hid row
    rw [hids]
    exact S.primary

def insert (row : ApprovalRow) (h : S.find? row.id = none) : GovernanceStore where
  rows := S.rows ++ [row]
  primary := by
    rw [List.map_append]
    refine S.primary.append (List.nodup_singleton _) fun id hid hnew => ?_
    obtain ⟨old, hold, rfl⟩ := List.mem_map.mp hid
    have hne := List.find?_eq_none.mp h old hold
    exact hne (by simpa using List.mem_singleton.mp hnew)

def pruneExpiredApprovalRequests (now : ℤ) : GovernanceStore :=
  S.update (ApprovalRow.prune now) fun row => (row.sameRequest_prune now).id

def getApprovalRequest (id : String) (now : ℤ) : GovernanceStore × Option ApprovalRow :=
  let S' := S.pruneExpiredApprovalRequests now
  (S', S'.find? id)

def Reusable (input : CreateGovernanceApprovalRequestInput) (now : ℤ) (row : ApprovalRow) : Prop :=
  row.isFor input.workspaceId input.requesterClientId input.serverId input.toolName
    input.requestFingerprint ∧ row.status = .pending ∧ now < row.expiresAt

instance (input : CreateGovernanceApprovalRequestInput) (now : ℤ) (row : ApprovalRow) :
    Decidable (Reusable input now row) :=
  inferInstanceAs (Decidable (_ ∧ _))

-- of several rows created at one time, the first
def newest? (rows : List ApprovalRow) : Option ApprovalRow :=
  rows.foldl
    (fun best row => if best.all fun b => b.createdAt < row.createdAt then some row else best) none

def reusable? (input : CreateGovernanceApprovalRequestInput) (now : ℤ) : Option ApprovalRow :=
  newest? (S.rows.filter fun row => Reusable input now row)

def newRow (input : CreateGovernanceApprovalRequestInput) (expiresAt : ℤ) (id : String) (now : ℤ) :
    ApprovalRow where
  id := id
  createdAt := now
  updatedAt := now
  expiresAt := expiresAt
  status := .pending
  source := input.source
  workspaceId := input.workspaceId
  requesterClientId := input.requesterClientId
  approverClientId := none
  serverId := input.serverId
  toolName := input.toolName
  ruleName := input.ruleName
  reason := input.reason
  traceId := input.traceId
  requestFingerprint := input.requestFingerprint
  toolArgs := input.toolArgs
  note := none

-- `id` is what randomUUID returns
def createOrReuseApprovalRequest (input : CreateGovernanceApprovalRequestInput) (expiresAt : ℤ)
    (id : String) (now : ℤ) : GovernanceStore × Except String ApprovalRow :=
  let S' := S.pruneExpiredApprovalRequests now
  match S'.reusable? input now with
  | some existing => (S', .ok existing)
  | none =>
      if h : S'.find? (newRow input expiresAt id now).id = none then
        let r := (S'.insert (newRow input expiresAt id now) h).getApprovalRequest id now
        match r.2 with
        | some row => (r.1, .ok row)
        | none => (r.1, .error "Cannot read properties of null")
      else (S', .error "UNIQUE constraint failed: approval_requests.id")

def decideRequest (id : String) (status : ApprovalStatus) (approverClientId : String)
    (note : Option String) (now : ℤ) : GovernanceStore × Option ApprovalRow :=
  let r := (S.pruneExpiredApprovalRequests now).getApprovalRequest id now
  match r.2 with
  | none => (r.1, none)
  | some existing =>
      if existing.status = .pending then
        let S' := r.1.update (fun row =>
          if row.id = id then row.decide status approverClientId note now else row) (by
            intro row
            split <;> rfl)
        S'.getApprovalRequest id now
      else (r.1, none)

def Grantable (query : GovernanceApprovalGrantQuery) (now : ℤ) (row : ApprovalRow) : Prop :=
  row.id = query.approvalId ∧ row.status = .approved ∧
    row.isFor query.workspaceId query.requesterClientId query.serverId query.toolName
      query.requestFingerprint ∧ now < row.expiresAt

instance (query : GovernanceApprovalGrantQuery) (now : ℤ) (row : ApprovalRow) :
    Decidable (Grantable query now row) :=
  inferInstanceAs (Decidable (_ ∧ _))

def verifyApprovalGrant (query : GovernanceApprovalGrantQuery) (now : ℤ) :
    GovernanceStore × Option ApprovalRow :=
  let S' := S.pruneExpiredApprovalRequests now
  (S', S'.rows.find? fun row => Grantable query now row)

section Lookup

variable {S}

theorem mem_of_find? {id : String} {row : ApprovalRow} (h : S.find? id = some row) :
    row ∈ S.rows ∧ row.id = id :=
  ⟨List.mem_of_find?_eq_some h, by simpa using List.find?_some h⟩

theorem eq_of_mem {row row' : ApprovalRow} (h : row ∈ S.rows) (h' : row' ∈ S.rows)
    (hid : row.id = row'.id) : row = row' :=
  List.inj_on_of_nodup_map S.primary h h' hid

theorem find?_of_mem {row : ApprovalRow} (h : row ∈ S.rows) : S.find? row.id = some row := by
  cases hfound : S.find? row.id with
  | none =>
      have hnot := List.find?_eq_none.mp hfound row h
      simp at hnot
  | some found =>
      obtain ⟨hmem, hid⟩ := mem_of_find? hfound
      rw [eq_of_mem hmem h hid]

theorem mem_pruned {row : ApprovalRow} {now : ℤ} :
    row ∈ (S.pruneExpiredApprovalRequests now).rows ↔ ∃ old ∈ S.rows, old.prune now = row :=
  List.mem_map

theorem prune_prune (S : GovernanceStore) (now : ℤ) :
    (S.pruneExpiredApprovalRequests now).pruneExpiredApprovalRequests now =
      S.pruneExpiredApprovalRequests now := by
  unfold pruneExpiredApprovalRequests update
  congr 1
  rw [List.map_map]
  exact List.map_congr_left fun row _ => row.prune_prune now

theorem grantable_of_verified {query : GovernanceApprovalGrantQuery} {now : ℤ} {row : ApprovalRow}
    (h : (S.verifyApprovalGrant query now).2 = some row) :
    row ∈ (S.pruneExpiredApprovalRequests now).rows ∧ Grantable query now row :=
  ⟨List.mem_of_find?_eq_some h, by simpa using List.find?_some h⟩

end Lookup

end GovernanceStore

end Conduit.Governance
