import Conduit.Identity.Runtime
import Conduit.Foundation.Text

namespace Conduit.Identity

structure CreateConnectedAccountInput where
  workspaceId : String
  provider : String
  clientId : Option String := none
  tenantId : Option String := none
  accessToken : String
  refreshToken : Option String := none
  tokenType : Option String := none
  replaceExisting : Bool := false

-- a call with the id the store draws and the time it reads
inductive AccountCall where
  | create (input : CreateConnectedAccountInput) (id : String) (now : ℕ)
  | revoke (id : String) (now : ℕ)

-- only a creation can leave an account of its key in place
def AccountCall.replaces : AccountCall → Bool
  | .create input _ _ => input.replaceExisting
  | .revoke _ _ => true

def trimmedId (id : Option String) : Option String := (id.map Text.trim).filter (· ≠ "")

namespace ResolvedConnectedAccount

def SameKey (a b : ResolvedConnectedAccount) : Prop :=
  a.workspaceId = b.workspaceId ∧ a.provider = b.provider ∧ a.clientId = b.clientId ∧
    a.tenantId = b.tenantId

instance (a b : ResolvedConnectedAccount) : Decidable (a.SameKey b) :=
  inferInstanceAs (Decidable (_ ∧ _))

theorem SameKey.symm {a b : ResolvedConnectedAccount} (h : a.SameKey b) : b.SameKey a :=
  ⟨h.1.symm, h.2.1.symm, h.2.2.1.symm, h.2.2.2.symm⟩

def Unrevoked (a : ResolvedConnectedAccount) : Prop := a.revokedAt = none

instance (a : ResolvedConnectedAccount) : Decidable a.Unrevoked :=
  inferInstanceAs (Decidable (_ = _))

-- COALESCE(client_id, '') = COALESCE(@client_id, ''), and the same for the tenant
def coalesces (workspaceId provider : String) (clientId tenantId : Option String)
    (a : ResolvedConnectedAccount) : Bool :=
  a.workspaceId = workspaceId && a.provider = provider &&
    a.clientId.getD "" = clientId.getD "" && a.tenantId.getD "" = tenantId.getD "" &&
    a.revokedAt.isNone

def revoke (now : ℕ) (a : ResolvedConnectedAccount) : ResolvedConnectedAccount :=
  { a with revokedAt := some now, updatedAt := now }

end ResolvedConnectedAccount

namespace CreateConnectedAccountInput

def account (input : CreateConnectedAccountInput) (id : String) (now : ℕ) :
    ResolvedConnectedAccount where
  id := id
  workspaceId := Text.trim input.workspaceId
  provider := Text.trim input.provider
  clientId := trimmedId input.clientId
  tenantId := trimmedId input.tenantId
  tokenType := (trimmedId input.tokenType).getD "Bearer"
  accessToken := some input.accessToken
  refreshToken := input.refreshToken.filter (· ≠ "")
  updatedAt := now

end CreateConnectedAccountInput

namespace IdentityStore

-- the update of a row under replace_existing
def supersede (created : ResolvedConnectedAccount) (now : ℕ) (a : ResolvedConnectedAccount) :
    ResolvedConnectedAccount :=
  if a.coalesces created.workspaceId created.provider created.clientId created.tenantId then
    a.revoke now
  else a

variable (store : IdentityStore)

-- a transaction: a repeated id leaves the store as it was
def createConnectedAccount (input : CreateConnectedAccountInput) (id : String) (now : ℕ) :
    Except String IdentityStore :=
  let created := input.account id now
  if created.workspaceId = "" then .error "workspace_id is required"
  else if created.provider = "" then .error "provider is required"
  else if input.accessToken = "" then .error "access_token is required"
  else if store.accounts.any fun a => a.id = id then
    .error "UNIQUE constraint failed: connected_accounts.id"
  else
    .ok ⟨(if input.replaceExisting then store.accounts.map (supersede created now)
      else store.accounts) ++ [created]⟩

def revokeConnectedAccount (id : String) (now : ℕ) : IdentityStore :=
  ⟨store.accounts.map fun a => if a.id = id && a.revokedAt.isNone then a.revoke now else a⟩

def resolveConnectedAccount (workspaceId provider : String) (principal : AuthenticatedPrincipal)
    (binding : ConnectedAccountBinding) : Except String (Option ResolvedConnectedAccount) :=
  match store.resolveAccountRow workspaceId provider principal binding with
  | none => .ok none
  | some row =>
      match row.accessToken with
      | none => .error s!"Missing access token secret for account \"{row.id}\""
      | some _ => .ok (some row)

def call : AccountCall → IdentityStore
  | .create input id now => (store.createConnectedAccount input id now).toOption.getD store
  | .revoke id now => store.revokeConnectedAccount id now

def after (calls : List AccountCall) : IdentityStore := calls.foldl call ⟨[]⟩

def Asks (binding : ConnectedAccountBinding) (principal : AuthenticatedPrincipal)
    (clientId tenantId : Option String) : Prop :=
  match binding with
  | .client => clientId = some principal.clientId ∧ tenantId = none
  | .tenant => clientId = none ∧ tenantId = some principal.tenantId
  | .workspace => clientId = none ∧ tenantId = none
  | .clientOrWorkspace =>
      (clientId = some principal.clientId ∨ clientId = none) ∧ tenantId = none

-- some binding returns the account to some principal that has its ids
def Returns (account : ResolvedConnectedAccount) : Prop :=
  ∃ (binding : ConnectedAccountBinding) (principal : AuthenticatedPrincipal),
    (∀ clientId, account.clientId = some clientId → principal.clientId = clientId) ∧
    (∀ tenantId, account.tenantId = some tenantId → principal.tenantId = tenantId) ∧
    store.resolveConnectedAccount account.workspaceId account.provider principal binding =
      .ok (some account)

-- no unrevoked account of the key is as recent
def Newest (account : ResolvedConnectedAccount) : Prop :=
  ∀ other ∈ store.accounts, other.Unrevoked → other.SameKey account → other ≠ account →
    other.updatedAt < account.updatedAt

def LastCreated (account : ResolvedConnectedAccount) : Prop :=
  ∃ before later, store.accounts = before ++ account :: later ∧
    ∀ other ∈ later, ¬ other.SameKey account

variable {store}

section Latest

variable {accounts : List ResolvedConnectedAccount} {account : ResolvedConnectedAccount}

theorem mem_of_latest (h : latest accounts = some account) : account ∈ accounts := by
  induction accounts with
  | nil => cases h
  | cons first rest ih =>
      rw [latest] at h
      split at h
      · obtain rfl := Option.some.inj h
        exact List.mem_cons_self
      next best hbest =>
        split at h
        · obtain rfl := Option.some.inj h
          exact List.mem_cons_of_mem _ (ih hbest)
        · obtain rfl := Option.some.inj h
          exact List.mem_cons_self

theorem latest_eq_none (h : latest accounts = none) : accounts = [] := by
  cases accounts with
  | nil => rfl
  | cons first rest =>
      rw [latest] at h
      split at h
      · cases h
      · split at h <;> cases h

theorem le_of_latest (h : latest accounts = some account) :
    ∀ other ∈ accounts, other.updatedAt ≤ account.updatedAt := by
  induction accounts generalizing account with
  | nil => cases h
  | cons first rest ih =>
      intro other hother
      rw [latest] at h
      split at h
      next hnone =>
        obtain rfl := Option.some.inj h
        rw [latest_eq_none hnone, List.mem_singleton] at hother
        exact Nat.le_of_eq (congrArg _ hother)
      next best hbest =>
        have hrest := ih hbest
        rcases List.mem_cons.mp hother with rfl | hmem
        · split at h
          next hlt =>
            obtain rfl := Option.some.inj h
            exact Nat.le_of_lt hlt
          next =>
            obtain rfl := Option.some.inj h
            exact Nat.le_refl _
        · split at h
          next hlt =>
            obtain rfl := Option.some.inj h
            exact hrest other hmem
          next hge =>
            obtain rfl := Option.some.inj h
            exact Nat.le_trans (hrest other hmem) (Nat.le_of_not_lt hge)

theorem latest_eq_some (hmem : account ∈ accounts)
    (hnewest : ∀ other ∈ accounts, other ≠ account → other.updatedAt < account.updatedAt) :
    latest accounts = some account := by
  cases hlatest : latest accounts with
  | none =>
      rw [latest_eq_none hlatest] at hmem
      cases hmem
  | some best =>
      by_cases heq : best = account
      · rw [heq]
      · have hlt := hnewest best (mem_of_latest hlatest) heq
        exact absurd (le_of_latest hlatest account hmem) (Nat.not_le_of_lt hlt)

end Latest

section Resolution

theorem matchesAccount_iff {workspaceId provider : String} {clientId tenantId : Option String}
    {a : ResolvedConnectedAccount} :
    matchesAccount workspaceId provider clientId tenantId a = true ↔
      a.workspaceId = workspaceId ∧ a.provider = provider ∧ a.clientId = clientId ∧
        a.tenantId = tenantId ∧ a.Unrevoked := by
  simp only [matchesAccount, Bool.and_eq_true, decide_eq_true_eq, Option.isNone_iff_eq_none,
    and_assoc, ResolvedConnectedAccount.Unrevoked]

theorem mem_of_findOne {workspaceId provider : String} {clientId tenantId : Option String}
    {account : ResolvedConnectedAccount}
    (h : store.findOne workspaceId provider clientId tenantId = some account) :
    account ∈ store.accounts ∧ account.workspaceId = workspaceId ∧ account.provider = provider ∧
      account.clientId = clientId ∧ account.tenantId = tenantId ∧ account.Unrevoked := by
  obtain ⟨hmem, hmatches⟩ := List.mem_filter.mp (mem_of_latest h)
  exact ⟨hmem, matchesAccount_iff.1 hmatches⟩

-- each binding asks for one pair of ids, or for two in turn
theorem findOne_of_resolveAccountRow {workspaceId provider : String}
    {principal : AuthenticatedPrincipal} {binding : ConnectedAccountBinding}
    {account : ResolvedConnectedAccount}
    (h : store.resolveAccountRow workspaceId provider principal binding = some account) :
    ∃ clientId tenantId, Asks binding principal clientId tenantId ∧
      store.findOne workspaceId provider clientId tenantId = some account := by
  cases binding with
  | client => exact ⟨_, _, ⟨rfl, rfl⟩, h⟩
  | tenant => exact ⟨_, _, ⟨rfl, rfl⟩, h⟩
  | workspace => exact ⟨_, _, ⟨rfl, rfl⟩, h⟩
  | clientOrWorkspace =>
      rcases Option.or_eq_some_iff.mp h with hclient | ⟨-, hworkspace⟩
      · exact ⟨_, _, ⟨.inl rfl, rfl⟩, hclient⟩
      · exact ⟨_, _, ⟨.inr rfl, rfl⟩, hworkspace⟩

theorem row_of_resolveConnectedAccount {workspaceId provider : String}
    {principal : AuthenticatedPrincipal} {binding : ConnectedAccountBinding}
    {account : ResolvedConnectedAccount}
    (h : store.resolveConnectedAccount workspaceId provider principal binding =
      .ok (some account)) :
    store.resolveAccountRow workspaceId provider principal binding = some account := by
  unfold resolveConnectedAccount at h
  split at h
  · cases h
  next row hrow =>
    split at h
    · cases h
    · rw [hrow, Option.some.inj (Except.ok.inj h)]

-- no binding asks for both ids
theorem not_both_of_returns {account : ResolvedConnectedAccount} (h : store.Returns account) :
    account.clientId = none ∨ account.tenantId = none := by
  obtain ⟨binding, principal, -, -, hresolved⟩ := h
  obtain ⟨clientId, tenantId, hasks, hfind⟩ :=
    findOne_of_resolveAccountRow (row_of_resolveConnectedAccount hresolved)
  obtain ⟨-, -, -, rfl, rfl, -⟩ := mem_of_findOne hfind
  cases binding with
  | client => exact .inr hasks.2
  | tenant => exact .inl hasks.1
  | workspace => exact .inl hasks.1
  | clientOrWorkspace => exact .inr hasks.2

theorem le_of_returns {account other : ResolvedConnectedAccount} (h : store.Returns account)
    (hother : other ∈ store.accounts) (hunrevoked : other.Unrevoked)
    (hkey : other.SameKey account) : other.updatedAt ≤ account.updatedAt := by
  obtain ⟨binding, principal, -, -, hresolved⟩ := h
  obtain ⟨clientId, tenantId, -, hfind⟩ :=
    findOne_of_resolveAccountRow (row_of_resolveConnectedAccount hresolved)
  obtain ⟨-, -, -, rfl, rfl, -⟩ := mem_of_findOne hfind
  apply le_of_latest hfind other
  obtain ⟨hworkspace, hprovider, hclient, htenant⟩ := hkey
  exact List.mem_filter.mpr
    ⟨hother, matchesAccount_iff.2 ⟨hworkspace, hprovider, hclient, htenant, hunrevoked⟩⟩

theorem findOne_eq_some {account : ResolvedConnectedAccount} (hmem : account ∈ store.accounts)
    (hunrevoked : account.Unrevoked) (hnewest : store.Newest account) :
    store.findOne account.workspaceId account.provider account.clientId account.tenantId =
      some account := by
  apply latest_eq_some
  · exact List.mem_filter.mpr
      ⟨hmem, matchesAccount_iff.2 ⟨rfl, rfl, rfl, rfl, hunrevoked⟩⟩
  · intro other hother hne
    obtain ⟨hother, hmatches⟩ := List.mem_filter.mp hother
    obtain ⟨hworkspace, hprovider, hclient, htenant, hother'⟩ := matchesAccount_iff.1 hmatches
    exact hnewest other hother hother' ⟨hworkspace, hprovider, hclient, htenant⟩ hne

theorem resolveConnectedAccount_of_row {workspaceId provider : String}
    {principal : AuthenticatedPrincipal} {binding : ConnectedAccountBinding}
    {account : ResolvedConnectedAccount} (htoken : account.accessToken.isSome = true)
    (h : store.resolveAccountRow workspaceId provider principal binding = some account) :
    store.resolveConnectedAccount workspaceId provider principal binding = .ok (some account) := by
  obtain ⟨accessToken, htoken⟩ := Option.isSome_iff_exists.mp htoken
  simp only [resolveConnectedAccount, h, htoken]

theorem returns_of_newest {account : ResolvedConnectedAccount} (hmem : account ∈ store.accounts)
    (hunrevoked : account.Unrevoked) (htoken : account.accessToken.isSome = true)
    (hone : account.clientId = none ∨ account.tenantId = none) (hnewest : store.Newest account) :
    store.Returns account := by
  have hfind := findOne_eq_some hmem hunrevoked hnewest
  let principal : AuthenticatedPrincipal :=
    { clientId := account.clientId.getD "", tenantId := account.tenantId.getD "" }
  have hclient : ∀ clientId, account.clientId = some clientId → principal.clientId = clientId :=
    fun _ h => congrArg (Option.getD · "") h
  have htenant : ∀ tenantId, account.tenantId = some tenantId → principal.tenantId = tenantId :=
    fun _ h => congrArg (Option.getD · "") h
  cases hclientId : account.clientId with
  | none =>
      cases htenantId : account.tenantId with
      | none =>
          rw [hclientId, htenantId] at hfind
          exact ⟨.workspace, principal, hclient, htenant,
            resolveConnectedAccount_of_row htoken hfind⟩
      | some tenantId =>
          rw [hclientId, htenantId, ← htenant tenantId htenantId] at hfind
          exact ⟨.tenant, principal, hclient, htenant,
            resolveConnectedAccount_of_row htoken hfind⟩
  | some clientId =>
      have htenantId : account.tenantId = none :=
        hone.resolve_left fun h => by rw [hclientId] at h; cases h
      rw [hclientId, htenantId, ← hclient clientId hclientId] at hfind
      exact ⟨.client, principal, hclient, htenant, resolveConnectedAccount_of_row htoken hfind⟩

end Resolution

section Calls

-- what every stored account keeps: its token, and ids that are absent rather than blank
def Stored (account : ResolvedConnectedAccount) : Prop :=
  account.accessToken.isSome = true ∧ account.clientId ≠ some "" ∧ account.tenantId ≠ some ""

-- a later account of the key leaves only revoked ones before it
def Superseded (store : IdentityStore) : Prop :=
  store.accounts.Pairwise fun a b => b.SameKey a → ¬ a.Unrevoked

theorem trimmedId_ne (id : Option String) : trimmedId id ≠ some "" := by
  intro h
  exact of_decide_eq_true (Option.filter_eq_some_iff.mp h).2 rfl

theorem stored_account (input : CreateConnectedAccountInput) (id : String) (now : ℕ) :
    Stored (input.account id now) :=
  ⟨rfl, trimmedId_ne _, trimmedId_ne _⟩

-- an update of the rows that may revoke some of them and changes nothing else they are known by
structure Revokes (f : ResolvedConnectedAccount → ResolvedConnectedAccount) : Prop where
  stored : ∀ a, Stored a → Stored (f a)
  sameKey : ∀ a, (f a).SameKey a
  unrevoked : ∀ a, (f a).Unrevoked → f a = a

theorem revokes_ite (p : ResolvedConnectedAccount → Bool) (now : ℕ) :
    Revokes fun a => if p a then a.revoke now else a := by
  constructor
  · intro a h
    split
    · exact h
    · exact h
  · intro a
    split
    · exact ⟨rfl, rfl, rfl, rfl⟩
    · exact ⟨rfl, rfl, rfl, rfl⟩
  · intro a h
    split at h
    · cases h
    next hnot => rw [if_neg hnot]

theorem Revokes.superseded {f : ResolvedConnectedAccount → ResolvedConnectedAccount}
    (hf : Revokes f) {accounts : List ResolvedConnectedAccount}
    (h : Superseded ⟨accounts⟩) : Superseded ⟨accounts.map f⟩ := by
  unfold Superseded
  rw [List.pairwise_map]
  apply List.Pairwise.imp _ h
  intro a b hab hkey hunrevoked
  have hsame := hf.unrevoked a hunrevoked
  rw [hsame] at hkey hunrevoked
  obtain ⟨hworkspace, hprovider, hclient, htenant⟩ := hf.sameKey b
  exact hab ⟨hworkspace ▸ hkey.1, hprovider ▸ hkey.2.1, hclient ▸ hkey.2.2.1,
    htenant ▸ hkey.2.2.2⟩ hunrevoked

theorem revoked_of_supersede {created a : ResolvedConnectedAccount} {now : ℕ}
    (hkey : created.SameKey (supersede created now a)) :
    ¬ (supersede created now a).Unrevoked := by
  intro hunrevoked
  unfold supersede at hkey hunrevoked
  split at hunrevoked
  · cases hunrevoked
  next hnot =>
    rw [if_neg hnot] at hkey
    obtain ⟨hworkspace, hprovider, hclient, htenant⟩ := hkey
    apply hnot
    unfold ResolvedConnectedAccount.coalesces
    rw [hworkspace, hprovider, hclient, htenant, Option.isNone_iff_eq_none.mpr hunrevoked]
    simp only [decide_true, Bool.and_true]

-- all a call can do to the rows
theorem accounts_call (store : IdentityStore) (c : AccountCall) :
    ∃ f, Revokes f ∧
      ((store.call c).accounts = store.accounts.map f ∨
        ∃ input id now, c = .create input id now ∧
          (store.call c).accounts = store.accounts.map f ++ [input.account id now] ∧
          (input.replaceExisting = true → f = supersede (input.account id now) now)) := by
  have hkeep : Revokes fun a => a :=
    ⟨fun _ h => h, fun _ => ⟨rfl, rfl, rfl, rfl⟩, fun _ _ => rfl⟩
  cases c with
  | revoke id now => exact ⟨_, revokes_ite (fun a => a.id = id && a.revokedAt.isNone) now, .inl rfl⟩
  | create input id now =>
      cases hcreated : store.createConnectedAccount input id now with
      | error message =>
          refine ⟨fun a => a, hkeep, .inl ?_⟩
          simp only [call, hcreated, Except.toOption, Option.getD_none, List.map_id_fun']
          rfl
      | ok store' =>
          have hcall : store.call (.create input id now) = store' := by
            simp only [call, hcreated, Except.toOption, Option.getD_some]
          simp only [createConnectedAccount] at hcreated
          split at hcreated
          · cases hcreated
          split at hcreated
          · cases hcreated
          split at hcreated
          · cases hcreated
          split at hcreated
          · cases hcreated
          rw [hcall, ← Except.ok.inj hcreated]
          by_cases hreplace : input.replaceExisting = true
          · refine ⟨supersede (input.account id now) now, revokes_ite _ now,
              .inr ⟨input, id, now, rfl, ?_, fun _ => rfl⟩⟩
            rw [if_pos hreplace]
          · refine ⟨fun a => a, hkeep,
              .inr ⟨input, id, now, rfl, ?_, fun h => absurd h hreplace⟩⟩
            rw [if_neg hreplace, List.map_id_fun']
            rfl

theorem stored_after (calls : List AccountCall) : ∀ a ∈ (after calls).accounts, Stored a := by
  have hrun : ∀ store : IdentityStore, (∀ a ∈ store.accounts, Stored a) →
      ∀ a ∈ (calls.foldl call store).accounts, Stored a := by
    induction calls with
    | nil => exact fun _ h => h
    | cons c calls ih =>
        intro store h
        apply ih
        intro a ha
        obtain ⟨f, hf, hsame | ⟨input, id, now, -, hcreated, -⟩⟩ := accounts_call store c
        · rw [hsame] at ha
          obtain ⟨b, hb, rfl⟩ := List.mem_map.mp ha
          exact hf.stored b (h b hb)
        · rw [hcreated] at ha
          rcases List.mem_append.mp ha with ha | ha
          · obtain ⟨b, hb, rfl⟩ := List.mem_map.mp ha
            exact hf.stored b (h b hb)
          · obtain rfl := List.mem_singleton.mp ha
            exact stored_account input id now
  exact hrun ⟨[]⟩ fun a ha => by cases ha

theorem superseded_call {c : AccountCall} (hreplaces : c.replaces = true) (h : Superseded store) :
    Superseded (store.call c) := by
  obtain ⟨f, hf, hsame | ⟨input, id, now, rfl, hcreated, hsupersede⟩⟩ :=
    accounts_call store c
  · unfold Superseded
    rw [hsame]
    exact hf.superseded h
  · unfold Superseded
    rw [hcreated, List.pairwise_append]
    refine ⟨hf.superseded h, List.pairwise_singleton .., ?_⟩
    intro a ha b hb hkey
    obtain ⟨a', -, rfl⟩ := List.mem_map.mp ha
    obtain rfl := List.mem_singleton.mp hb
    rw [hsupersede hreplaces] at hkey ⊢
    exact revoked_of_supersede hkey

theorem superseded_after {calls : List AccountCall}
    (hreplaces : ∀ c ∈ calls, c.replaces = true) : Superseded (after calls) := by
  have hrun : ∀ store : IdentityStore, Superseded store → Superseded (calls.foldl call store) := by
    induction calls with
    | nil => exact fun _ h => h
    | cons c calls ih =>
        intro store h
        rw [List.forall_mem_cons] at hreplaces
        exact ih hreplaces.2 _ (superseded_call hreplaces.1 h)
  exact hrun ⟨[]⟩ List.Pairwise.nil

theorem lastCreated_of_superseded (h : Superseded store) {account : ResolvedConnectedAccount}
    (hmem : account ∈ store.accounts) (hunrevoked : account.Unrevoked) :
    store.LastCreated account := by
  obtain ⟨before, later, hsplit⟩ := List.append_of_mem hmem
  refine ⟨before, later, hsplit, fun other hother hkey => ?_⟩
  unfold Superseded at h
  rw [hsplit, List.pairwise_append, List.pairwise_cons] at h
  exact h.2.1.1 other hother hkey hunrevoked

theorem eq_of_superseded (h : Superseded store) {a b : ResolvedConnectedAccount}
    (ha : a ∈ store.accounts) (hb : b ∈ store.accounts) (hkey : a.SameKey b)
    (hunrevoked : a.Unrevoked) (hunrevoked' : b.Unrevoked) : a = b := by
  by_contra hne
  have hrevoked := List.Pairwise.forall_of_forall_of_flip
    (R := fun a b => a ≠ b → a.SameKey b → a.Unrevoked → ¬ b.Unrevoked)
    (fun _ _ h => absurd rfl h) (h.imp ?_) (h.imp ?_)
  · exact hrevoked ha hb hne hkey hunrevoked hunrevoked'
  · exact fun hab _ hkey hunrevoked => absurd hunrevoked (hab hkey.symm)
  · exact fun hab _ hkey _ => hab hkey

end Calls

theorem resolves_as_created (calls : List AccountCall) :
    (∀ workspaceId provider principal binding, ∃ found,
      (after calls).resolveConnectedAccount workspaceId provider principal binding = .ok found ∧
      ∀ account, found = some account →
        account ∈ (after calls).accounts ∧ account.Unrevoked ∧
        account.workspaceId = workspaceId ∧ account.provider = provider ∧
        Asks binding principal account.clientId account.tenantId) ∧
    ((∀ c ∈ calls, c.replaces = true) →
      ∀ account ∈ (after calls).accounts, account.Unrevoked →
        (after calls).LastCreated account ∧
        ∀ other ∈ (after calls).accounts, other.Unrevoked → other.SameKey account →
          other = account) ∧
    ∀ account ∈ (after calls).accounts, account.Unrevoked →
      (account.clientId = none ∨ account.tenantId = none) → (after calls).Newest account →
        (after calls).Returns account := by
  refine ⟨fun workspaceId provider principal binding => ?_, fun hreplaces account hmem h => ?_,
    fun account hmem h hone hnewest => ?_⟩
  · cases hrow : (after calls).resolveAccountRow workspaceId provider principal binding with
    | none =>
        refine ⟨none, ?_, fun _ h => by cases h⟩
        simp only [resolveConnectedAccount, hrow]
    | some account =>
        obtain ⟨clientId, tenantId, hasks, hfind⟩ := findOne_of_resolveAccountRow hrow
        obtain ⟨hmem, hworkspace, hprovider, rfl, rfl, hunrevoked⟩ := mem_of_findOne hfind
        have htoken := (stored_after calls account hmem).1
        refine ⟨some account, resolveConnectedAccount_of_row htoken hrow, fun _ heq => ?_⟩
        obtain rfl := Option.some.inj heq
        exact ⟨hmem, hunrevoked, hworkspace, hprovider, hasks⟩
  · have hsuperseded := superseded_after hreplaces
    refine ⟨lastCreated_of_superseded hsuperseded hmem h, fun other hother hunrevoked hkey => ?_⟩
    exact eq_of_superseded hsuperseded hother hmem hkey hunrevoked h
  · exact returns_of_newest hmem h (stored_after calls account hmem).1 hone hnewest

def sharedInput (accessToken : String) : CreateConnectedAccountInput :=
  { workspaceId := "w", provider := "github", accessToken := accessToken }

def scopedInput : CreateConnectedAccountInput :=
  { workspaceId := "w"
    provider := "github"
    clientId := some "c"
    tenantId := some "t"
    accessToken := "token" }

theorem resolves_as_created_shared :
    (after [.create (sharedInput "token") "a" 5]).Returns ((sharedInput "token").account "a" 5) := by
  apply (resolves_as_created [.create (sharedInput "token") "a" 5]).2.2
  · decide
  · decide
  · decide
  · intro other hother _ _ hne
    exact absurd (List.mem_singleton.mp hother) hne

-- an account with both ids, and one that a newer account of its key hides
theorem not_returns_created :
    (∃ account ∈ (after [.create scopedInput "a" 5]).accounts, account.Unrevoked ∧
      ¬ (after [.create scopedInput "a" 5]).Returns account) ∧
    ∃ account ∈ (after [.create (sharedInput "old") "a" 5,
        .create (sharedInput "new") "b" 6]).accounts, account.Unrevoked ∧
      ¬ (after [.create (sharedInput "old") "a" 5,
        .create (sharedInput "new") "b" 6]).Returns account := by
  constructor
  · refine ⟨scopedInput.account "a" 5, by decide, by decide, fun h => ?_⟩
    rcases not_both_of_returns h with hclient | htenant
    · exact absurd hclient (by decide)
    · exact absurd htenant (by decide)
  · refine ⟨(sharedInput "old").account "a" 5, by decide, by decide, fun h => ?_⟩
    have hle : ((sharedInput "new").account "b" 6).updatedAt ≤
        ((sharedInput "old").account "a" 5).updatedAt :=
      le_of_returns h (by decide) (by decide) (by decide)
    exact absurd hle (by decide)

end IdentityStore

end Conduit.Identity
