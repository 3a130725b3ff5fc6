import Conduit.Identity.Accounts

namespace Conduit.Identity

namespace AccountCall

def createdId : AccountCall → Option String
  | .create _ id _ => some id
  | .revoke _ _ => none

-- the call creates, under the id, an account that the predicate is about
def creates (p : ResolvedConnectedAccount → Bool) (id : String) : AccountCall → Bool
  | .create input id' now => id' = id && p (input.account id' now)
  | .revoke _ _ => false

def concerns (p : ResolvedConnectedAccount → Bool) (kept : String → Bool) : AccountCall → Bool
  | .create input id now => p (input.account id now)
  | .revoke id _ => kept id

end AccountCall

def concerning (p : ResolvedConnectedAccount → Bool) (calls : List AccountCall) :
    List AccountCall :=
  calls.filter (·.concerns p fun id => calls.any (·.creates p id))

-- the accounts of a provider that some binding can give to the principal
def reaches (workspaceId provider : String) (principal : AuthenticatedPrincipal)
    (account : ResolvedConnectedAccount) : Bool :=
  account.workspaceId = workspaceId && account.provider = provider &&
    (account.clientId = none || account.clientId = some principal.clientId) &&
    (account.tenantId = none || account.tenantId = some principal.tenantId)

namespace IdentityStore

-- a set of accounts that the key alone decides on
def OfKey (p : ResolvedConnectedAccount → Bool) : Prop :=
  ∀ a b : ResolvedConnectedAccount, a.SameKey b → p a = p b

-- the second store has the accounts of the first that the predicate is about
structure Narrows (p : ResolvedConnectedAccount → Bool) (kept : String → Bool)
    (store narrow : IdentityStore) : Prop where
  accounts : narrow.accounts = store.accounts.filter p
  stored : ∀ a ∈ store.accounts, Stored a
  kept : ∀ a ∈ store.accounts, kept a.id = p a

section Step

variable {p : ResolvedConnectedAccount → Bool} {kept : String → Bool}
  {store narrow : IdentityStore}

theorem filter_map_revokes (hp : OfKey p) {f : ResolvedConnectedAccount → ResolvedConnectedAccount}
    (hf : Revokes f) (accounts : List ResolvedConnectedAccount) :
    (accounts.map f).filter p = (accounts.filter p).map f := by
  rw [List.filter_map]
  congr 1
  apply List.filter_congr
  intro a _
  exact hp _ _ (hf.sameKey a)

theorem revokes_supersede (created : ResolvedConnectedAccount) (now : ℕ) :
    Revokes (supersede created now) :=
  revokes_ite _ now

theorem sameKey_of_coalesces {created a : ResolvedConnectedAccount} (hcreated : Stored created)
    (ha : Stored a) (h : a.coalesces created.workspaceId created.provider created.clientId
      created.tenantId = true) : a.SameKey created := by
  have hid : ∀ {id id' : Option String}, id ≠ some "" → id' ≠ some "" →
      id.getD "" = id'.getD "" → id = id' := by
    intro id id' hne hne' heq
    cases id with
    | none =>
        cases id' with
        | none => rfl
        | some text' => exact absurd (congrArg some heq.symm) hne'
    | some text =>
        cases id' with
        | none => exact absurd (congrArg some heq) hne
        | some text' => exact congrArg some heq
  simp only [ResolvedConnectedAccount.coalesces, Bool.and_eq_true, decide_eq_true_eq] at h
  obtain ⟨⟨⟨⟨hworkspace, hprovider⟩, hclient⟩, htenant⟩, -⟩ := h
  exact ⟨hworkspace, hprovider, hid ha.2.1 hcreated.2.1 hclient, hid ha.2.2 hcreated.2.2 htenant⟩

theorem map_supersede_of_not (hp : OfKey p) {accounts : List ResolvedConnectedAccount}
    (hstored : ∀ a ∈ accounts, Stored a ∧ p a = true) {created : ResolvedConnectedAccount}
    (hcreated : Stored created) (hout : p created = false) (now : ℕ) :
    accounts.map (supersede created now) = accounts := by
  have hkeep : ∀ a ∈ accounts, supersede created now a = id a := by
    intro a ha
    obtain ⟨hstoredA, hin⟩ := hstored a ha
    apply if_neg
    intro hcoalesces
    rw [hp a created (sameKey_of_coalesces hcreated hstoredA hcoalesces), hout] at hin
    cases hin
  rw [List.map_congr_left hkeep, List.map_id]

-- the rows after a creation under a new id
def createdRows (input : CreateConnectedAccountInput) (id : String) (now : ℕ)
    (accounts : List ResolvedConnectedAccount) : List ResolvedConnectedAccount :=
  if (input.account id now).workspaceId = "" ∨ (input.account id now).provider = "" ∨
      input.accessToken = "" then accounts
  else
    (if input.replaceExisting then accounts.map (supersede (input.account id now) now)
      else accounts) ++ [input.account id now]

theorem accounts_create (input : CreateConnectedAccountInput) {id : String} (now : ℕ)
    (hid : ∀ a ∈ store.accounts, a.id ≠ id) :
    (store.call (.create input id now)).accounts = createdRows input id now store.accounts := by
  have hany : store.accounts.any (fun a => a.id = id) = false := by simpa using hid
  simp only [call, createConnectedAccount, createdRows, hany]
  by_cases hworkspace : (input.account id now).workspaceId = ""
  · simp [hworkspace, Except.toOption]
  by_cases hprovider : (input.account id now).provider = ""
  · simp [hworkspace, hprovider, Except.toOption]
  by_cases htoken : input.accessToken = ""
  · simp [hworkspace, hprovider, htoken, Except.toOption]
  simp [hworkspace, hprovider, htoken, Except.toOption]

theorem mem_createdRows (input : CreateConnectedAccountInput) (id : String) (now : ℕ)
    {accounts : List ResolvedConnectedAccount} :
    ∀ a ∈ createdRows input id now accounts,
      (∃ b ∈ accounts, a.SameKey b ∧ a.id = b.id ∧ (Stored b → Stored a)) ∨
        a = input.account id now := by
  have hrevokes := revokes_supersede (input.account id now) now
  have hsame : ∀ a : ResolvedConnectedAccount, a.SameKey a := fun a => ⟨rfl, rfl, rfl, rfl⟩
  intro a ha
  unfold createdRows at ha
  split at ha
  · exact .inl ⟨a, ha, hsame a, rfl, fun h => h⟩
  · rcases List.mem_append.mp ha with ha | ha
    · split at ha
      · obtain ⟨b, hb, rfl⟩ := List.mem_map.mp ha
        have hid : (supersede (input.account id now) now b).id = b.id := by
          unfold supersede
          split <;> rfl
        exact .inl ⟨b, hb, hrevokes.sameKey b, hid, hrevokes.stored b⟩
      · exact .inl ⟨a, ha, hsame a, rfl, fun h => h⟩
    · exact .inr (List.mem_singleton.mp ha)

theorem filter_createdRows (hp : OfKey p) (input : CreateConnectedAccountInput) (id : String)
    (now : ℕ) {accounts : List ResolvedConnectedAccount} (hstored : ∀ a ∈ accounts, Stored a) :
    (createdRows input id now accounts).filter p =
      if p (input.account id now) then createdRows input id now (accounts.filter p)
      else accounts.filter p := by
  have hcreated := stored_account input id now
  have hrevokes := revokes_supersede (input.account id now) now
  unfold createdRows
  generalize input.account id now = created at hcreated hrevokes
  by_cases hrejected : created.workspaceId = "" ∨ created.provider = "" ∨ input.accessToken = ""
  · simp [hrejected]
  cases hout : p created with
  | true =>
      cases input.replaceExisting <;>
        simp [hrejected, hout, filter_map_revokes hp hrevokes]
  | false =>
      have hkept : ∀ a ∈ accounts.filter p, Stored a ∧ p a = true := by
        intro a ha
        exact ⟨hstored a (List.mem_of_mem_filter ha), (List.mem_filter.mp ha).2⟩
      have hsame := map_supersede_of_not hp hkept hcreated hout now
      cases input.replaceExisting <;>
        simp [hrejected, hout, filter_map_revokes hp hrevokes, hsame]

theorem Narrows.create (hp : OfKey p) (h : Narrows p kept store narrow)
    (input : CreateConnectedAccountInput) {id : String} (now : ℕ)
    (hid : ∀ a ∈ store.accounts, a.id ≠ id) (hkept : kept id = p (input.account id now)) :
    Narrows p kept (store.call (.create input id now))
      (if p (input.account id now) then narrow.call (.create input id now) else narrow) := by
  have hrows := accounts_create input now hid
  have hmem : ∀ a ∈ (store.call (.create input id now)).accounts,
      (∃ b ∈ store.accounts, a.SameKey b ∧ a.id = b.id ∧ (Stored b → Stored a)) ∨
        a = input.account id now := by
    rw [hrows]
    exact mem_createdRows input id now
  constructor
  · rw [hrows, filter_createdRows hp input id now h.stored, ← h.accounts]
    cases hin : p (input.account id now) with
    | true =>
        apply accounts_create
        intro a ha
        rw [h.accounts] at ha
        exact hid a (List.mem_of_mem_filter ha)
    | false => rfl
  · intro a ha
    rcases hmem a ha with ⟨b, hb, -, -, hstored⟩ | rfl
    · exact hstored (h.stored b hb)
    · exact stored_account input id now
  · intro a ha
    rcases hmem a ha with ⟨b, hb, hkey, hid', -⟩ | rfl
    · rw [hid', h.kept b hb, hp a b hkey]
    · exact hkept

theorem Narrows.revoke (hp : OfKey p) (h : Narrows p kept store narrow) (id : String) (now : ℕ) :
    Narrows p kept (store.call (.revoke id now))
      (if kept id then narrow.call (.revoke id now) else narrow) := by
  have hrevokes := revokes_ite (fun a => a.id = id && a.revokedAt.isNone) now
  constructor
  · change _ = (store.accounts.map _).filter p
    rw [filter_map_revokes hp hrevokes, ← h.accounts]
    cases hkept : kept id with
    | true => rfl
    | false =>
        have hsame : ∀ a ∈ narrow.accounts, (fun a : ResolvedConnectedAccount =>
            if a.id = id && a.revokedAt.isNone then a.revoke now else a) a = a := by
          intro a ha
          rw [h.accounts] at ha
          obtain ⟨hmem, hin⟩ := List.mem_filter.mp ha
          have hne : a.id ≠ id := by
            rintro rfl
            rw [h.kept a hmem, hin] at hkept
            cases hkept
          simp [hne]
        rw [List.map_congr_left hsame, List.map_id']
        rfl
  · intro a ha
    obtain ⟨b, hb, rfl⟩ := List.mem_map.mp ha
    exact hrevokes.stored b (h.stored b hb)
  · intro a ha
    obtain ⟨b, hb, rfl⟩ := List.mem_map.mp ha
    rw [hp _ _ (hrevokes.sameKey b), ← h.kept b hb]
    congr 1
    split
    · rfl
    · rfl

end Step

section Runs

variable {p : ResolvedConnectedAccount → Bool}

theorem Narrows.foldl (hp : OfKey p) {kept : String → Bool} {calls : List AccountCall}
    (hids : (calls.filterMap AccountCall.createdId).Nodup)
    (hkept : ∀ input id now, .create input id now ∈ calls → kept id = p (input.account id now))
    {store narrow : IdentityStore} (h : Narrows p kept store narrow)
    (hnew : ∀ a ∈ store.accounts, a.id ∉ calls.filterMap AccountCall.createdId) :
    Narrows p kept (calls.foldl call store)
      ((calls.filter (·.concerns p kept)).foldl call narrow) := by
  induction calls generalizing store narrow with
  | nil => exact h
  | cons c calls ih =>
      have hrest : ∀ input id now, .create input id now ∈ calls →
          kept id = p (input.account id now) := fun input id now hmem =>
        hkept input id now (List.mem_cons_of_mem c hmem)
      cases c with
      | revoke id now =>
          have hstep := h.revoke hp id now
          have hfold := ih hids hrest hstep (by
            intro a ha
            obtain ⟨b, hb, rfl⟩ := List.mem_map.mp ha
            have hid := hnew b hb
            split
            · exact hid
            · exact hid)
          cases hin : kept id <;> simpa [AccountCall.concerns, hin] using hfold
      | create input id now =>
          have hnodup : id ∉ calls.filterMap AccountCall.createdId ∧
              (calls.filterMap AccountCall.createdId).Nodup := by
            simpa [AccountCall.createdId] using hids
          have hfresh : ∀ a ∈ store.accounts, a.id ≠ id ∧
              a.id ∉ calls.filterMap AccountCall.createdId := by
            intro a ha
            simpa [AccountCall.createdId] using hnew a ha
          have hstep := h.create hp input now (fun a ha => (hfresh a ha).1)
            (hkept input id now List.mem_cons_self)
          have hfold := ih hnodup.2 hrest hstep (by
            intro a ha
            rw [accounts_create input now fun a ha => (hfresh a ha).1] at ha
            rcases mem_createdRows input id now a ha with ⟨b, hb, -, hid, -⟩ | rfl
            · rw [hid]
              exact (hfresh b hb).2
            · exact hnodup.1)
          cases hin : p (input.account id now) <;>
            simpa [AccountCall.concerns, hin] using hfold

theorem accounts_concerning (hp : OfKey p) {calls : List AccountCall}
    (hids : (calls.filterMap AccountCall.createdId).Nodup) :
    (after (concerning p calls)).accounts = (after calls).accounts.filter p := by
  have hsame : ∀ c ∈ calls, ∀ c' ∈ calls, ∀ id, c.createdId = some id → c'.createdId = some id →
      c = c' := by
    have hpairs := List.pairwise_filterMap.mp hids
    have hall := List.Pairwise.forall_of_forall_of_flip
      (R := fun c c' : AccountCall => ∀ id, c.createdId = some id → c'.createdId = some id → c = c')
      (l := calls) (fun _ _ _ _ _ => rfl)
      (hpairs.imp fun hne id h h' => absurd rfl (hne id h id h'))
      (hpairs.imp fun hne id h h' => absurd rfl (hne id h' id h))
    exact fun c hc c' hc' => hall hc hc'
  have hkept : ∀ input id now, .create input id now ∈ calls →
      calls.any (·.creates p id) = p (input.account id now) := by
    intro input id now hmem
    rw [Bool.eq_iff_iff, List.any_eq_true]
    constructor
    · rintro ⟨c, hc, hcreates⟩
      cases c with
      | revoke => cases hcreates
      | create input' id' now' =>
          simp only [AccountCall.creates, Bool.and_eq_true, decide_eq_true_eq] at hcreates
          obtain ⟨rfl, hin⟩ := hcreates
          cases hsame _ hc _ hmem id' rfl rfl
          exact hin
    · intro hin
      exact ⟨_, hmem, by simp [AccountCall.creates, hin]⟩
  have hempty : Narrows p (fun id => calls.any (·.creates p id)) ⟨[]⟩ ⟨[]⟩ :=
    ⟨rfl, by simp, by simp⟩
  exact (hempty.foldl hp hids hkept fun a ha => by cases ha).accounts

theorem ofKey_reaches (workspaceId provider : String) (principal : AuthenticatedPrincipal) :
    OfKey (reaches workspaceId provider principal) := by
  rintro a b ⟨hworkspace, hprovider, hclient, htenant⟩
  simp only [reaches, hworkspace, hprovider, hclient, htenant]

theorem filter_matchesAccount {workspaceId provider : String} {principal : AuthenticatedPrincipal}
    {clientId tenantId : Option String} (hclient : clientId = none ∨ clientId = some principal.clientId)
    (htenant : tenantId = none ∨ tenantId = some principal.tenantId)
    (accounts : List ResolvedConnectedAccount) :
    (accounts.filter (reaches workspaceId provider principal)).filter
        (matchesAccount workspaceId provider clientId tenantId) =
      accounts.filter (matchesAccount workspaceId provider clientId tenantId) := by
  rw [List.filter_filter]
  apply List.filter_congr
  intro a _
  rw [Bool.and_eq_left_iff_imp]
  intro hmatches
  simp only [matchesAccount, Bool.and_eq_true, decide_eq_true_eq] at hmatches
  obtain ⟨⟨⟨⟨hworkspace, hprovider⟩, hclientId⟩, htenantId⟩, -⟩ := hmatches
  simp only [reaches, hworkspace, hprovider, hclientId, htenantId, decide_true, Bool.true_and,
    Bool.and_eq_true, Bool.or_eq_true, decide_eq_true_eq]
  exact ⟨hclient, htenant⟩

theorem resolveAccountRow_concerning {calls : List AccountCall}
    (hids : (calls.filterMap AccountCall.createdId).Nodup) (workspaceId provider : String)
    (principal : AuthenticatedPrincipal) (binding : ConnectedAccountBinding) :
    (after (concerning (reaches workspaceId provider principal) calls)).resolveAccountRow workspaceId
        provider principal binding =
      (after calls).resolveAccountRow workspaceId provider principal binding := by
  have hfind : ∀ clientId tenantId, (clientId = none ∨ clientId = some principal.clientId) →
      (tenantId = none ∨ tenantId = some principal.tenantId) →
      (after (concerning (reaches workspaceId provider principal) calls)).findOne workspaceId provider
          clientId tenantId = (after calls).findOne workspaceId provider clientId tenantId := by
    intro clientId tenantId hclient htenant
    rw [findOne, accounts_concerning (ofKey_reaches workspaceId provider principal) hids,
      filter_matchesAccount hclient htenant, findOne]
  cases binding with
  | client => exact hfind _ _ (.inr rfl) (.inl rfl)
  | tenant => exact hfind _ _ (.inl rfl) (.inr rfl)
  | workspace => exact hfind _ _ (.inl rfl) (.inl rfl)
  | clientOrWorkspace =>
      exact congrArg₂ Option.or (hfind _ _ (.inr rfl) (.inl rfl)) (hfind _ _ (.inl rfl) (.inl rfl))

end Runs

end IdentityStore

namespace IdentityRuntime

open IdentityStore

variable (I : IdentityRuntime)

def withStore (store : IdentityStore) : IdentityRuntime := { I with store := some store }

-- the accounts of other clients, tenants, workspaces and providers, and what happens to them, do
-- not show in the headers that a request has upstream
theorem resolveUpstreamHeaders_of_concerning {calls calls' : List AccountCall}
    (hids : (calls.filterMap AccountCall.createdId).Nodup)
    (hids' : (calls'.filterMap AccountCall.createdId).Nodup) (server : ServerConfig)
    (principal : AuthenticatedPrincipal)
    (h : ∀ requirement, server.upstreamAuth.bind (·.connectedAccount) = some requirement →
      let p := reaches (I.resolveWorkspace principal.tenantId) requirement.provider principal
      concerning p calls = concerning p calls') :
    (I.withStore (after calls)).resolveUpstreamHeaders server principal =
      (I.withStore (after calls')).resolveUpstreamHeaders server principal := by
  have hresolve : ∀ requirement, server.upstreamAuth.bind (·.connectedAccount) = some requirement →
      (after calls).resolveAccountRow (I.resolveWorkspace principal.tenantId) requirement.provider
          principal (requirement.binding.getD .clientOrWorkspace) =
        (after calls').resolveAccountRow (I.resolveWorkspace principal.tenantId)
          requirement.provider principal (requirement.binding.getD .clientOrWorkspace) := by
    intro requirement hrequirement
    rw [← resolveAccountRow_concerning hids, ← resolveAccountRow_concerning hids',
      h requirement hrequirement]
  have haccount : (I.withStore (after calls)).resolveConnectedAccount server principal
        (I.resolveWorkspace principal.tenantId) =
      (I.withStore (after calls')).resolveConnectedAccount server principal
        (I.resolveWorkspace principal.tenantId) := by
    unfold resolveConnectedAccount
    cases hrequirement : server.upstreamAuth.bind (·.connectedAccount) with
    | none => rfl
    | some requirement =>
        simp only [withStore, isEnabled, Option.bind_some, hresolve requirement hrequirement]
        rfl
  change ((I.withStore (after calls)).resolveConnectedAccount server principal
    (I.resolveWorkspace principal.tenantId)).bind _ = _
  rw [haccount]
  rfl

end IdentityRuntime

section Example

def githubServer : ServerConfig where
  id := "github"
  url := "https://api.example.com/mcp"
  upstreamAuth := some { connectedAccount := some { provider := "github", binding := some .client } }

def clientInput (clientId accessToken : String) : CreateConnectedAccountInput :=
  { workspaceId := "w", provider := "github", clientId := some clientId, accessToken := accessToken }

def ownCalls : List AccountCall := [.create (clientInput "c" "token") "a" 5]

-- another client connects its account and revokes it again
def sharedCalls : List AccountCall :=
  [.create (clientInput "d" "other") "b" 3] ++ ownCalls ++ [.revoke "b" 7]

def identityPlane : IdentityRuntime where
  config := some { enabled := true, defaultWorkspaceId := some "w" }
  store := none

theorem concerning_sharedCalls (workspaceId tenantId : String) :
    concerning (reaches workspaceId "github" ⟨"c", tenantId, none, none⟩) sharedCalls =
      concerning (reaches workspaceId "github" ⟨"c", tenantId, none, none⟩) ownCalls := by
  have hother : reaches workspaceId "github" ⟨"c", tenantId, none, none⟩
      ((clientInput "d" "other").account "b" 3) = false := by
    have hclient : trimmedId (some "d") = some "d" := by decide
    simp [reaches, CreateConnectedAccountInput.account, clientInput, hclient]
  simp [concerning, sharedCalls, ownCalls, AccountCall.concerns, AccountCall.creates, hother,
    List.filter_cons]

theorem resolveUpstreamHeaders_of_concerning_other :
    (identityPlane.withStore (IdentityStore.after sharedCalls)).resolveUpstreamHeaders githubServer
        ⟨"c", "t", none, none⟩ =
      (identityPlane.withStore (IdentityStore.after ownCalls)).resolveUpstreamHeaders githubServer
        ⟨"c", "t", none, none⟩ := by
  apply identityPlane.resolveUpstreamHeaders_of_concerning
  · simp [sharedCalls, ownCalls, AccountCall.createdId, List.filterMap_cons]
  · simp [ownCalls, AccountCall.createdId]
  · intro requirement hrequirement
    cases hrequirement
    exact concerning_sharedCalls _ _

end Example

end Conduit.Identity
