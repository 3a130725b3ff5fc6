import Conduit.Gateway.Standing

namespace Conduit.Gateway

open Router Cache Program World

namespace Installation

variable {P : RequestPipeline} {s s' : Installation P}

section Upkeep

-- a step that answers no call and changes no server
structure Quiet (s s' : Installation P) : Prop where
  sessions : ∀ (c : CallId) (σ' : Session P), s'.sessions[c]? = some σ' →
    ∃ (σ : Session P) (phase : Phase), s.sessions[c]? = some σ ∧ σ' = σ.inPhase phase ∧
      ∀ entry, phase = .read (some entry) → σ.task.phase = .read (some entry) ∨
        ∃ key, σ.task.pending? = some (.l2Get key) ∧
          s.redis.get? (P.digest key) = some entry
  follows : s.Follows s'
  inflight : s'.inflight = s.inflight
  l1 : ∀ digest entry, s'.l1.entries.get? digest = some entry →
    s.l1.entries.get? digest = some entry
  redis : ∀ digest entry, s'.redis.get? digest = some entry →
    s.redis.get? digest = some entry ∨ (digest, entry) ∈ s.writes
  writes : ∀ digest entry, (digest, entry) ∈ s'.writes → (digest, entry) ∈ s.writes
  indexed : s.l1.Exact → s'.l1.Exact
  removals : s'.removals = s.removals
  purges : s'.purges = s.purges

theorem Current.reading_of_quiet (hinjective : Function.Injective P.host.sha256) (h : s.Current)
    {σ : Session P} (hsound : s.Sound σ) {phase : Phase}
    (hread : ∀ entry, phase = .read (some entry) → σ.task.phase = .read (some entry) ∨
      ∃ key, σ.task.pending? = some (.l2Get key) ∧ s.redis.get? (P.digest key) = some entry)
    (entry : CacheEntry) (key : CacheKeyOptions) (hphase : phase = .read (some entry))
    (hpending : σ.task.pending? = some (.l2Get key)) :
    entry.serverId = key.serverId ∧ s.Marked entry.origin key.serverId := by
  rcases hread entry hphase with hbefore | ⟨key', hpending', hentry⟩
  · exact hsound.reading entry key hbefore hpending
  · obtain rfl : key' = key := by simpa using hpending'.symm.trans hpending
    obtain ⟨hmarked, key'', hdigest, hserver⟩ := h.redis _ _ hentry
    have hsame : entry.serverId = key'.serverId :=
      hserver.symm.trans (serverId_of_digest hinjective hdigest)
    rw [hsame] at hmarked
    exact ⟨hsame, hmarked⟩

theorem Current.of_quiet (hinjective : Function.Injective P.host.sha256) (h : s.Current)
    (hquiet : s.Quiet s') : s.Leads s' := by
  have hspares := spares_of_same hquiet.removals hquiet.purges
  have hsessions : ∀ (c : CallId) (σ' : Session P), s'.sessions[c]? = some σ' →
      (∀ σ : Session P, s.sessions[c]? = some σ → σ.task.finished = false) → s'.Sound σ' := by
    intro c σ' hσ' hunfinished
    obtain ⟨σ, phase, hσ, rfl, hread⟩ := hquiet.sessions c σ' hσ'
    have hsound : s.Sound σ := h.sound c σ hσ (hunfinished σ hσ)
    have hphased := hsound.inPhase phase (h.reading_of_quiet hinjective hsound hread)
    exact hphased.mono hinjective hquiet.follows (settles_of_inflight hquiet.inflight)
      (fun serverId _ => (hspares serverId).1) fun serverId _ _ => (hspares serverId).2
  refine ⟨⟨?_, ?_, ?_, ?_, ?_, ?_, ?_⟩, hsessions⟩
  · intro c σ' hσ'
    obtain ⟨σ, phase, hσ, rfl, -⟩ := hquiet.sessions c σ' hσ'
    exact h.self c σ hσ
  · intro c σ' hσ' hunfinished
    refine hsessions c σ' hσ' fun σ hσ => ?_
    obtain ⟨u, phase, hu, rfl, -⟩ := hquiet.sessions c σ' hσ'
    obtain rfl := Option.some.inj (hσ.symm.trans hu)
    exact hunfinished
  · exact fun digest entry hentry =>
      (h.l1 _ _ (hquiet.l1 _ _ hentry)).mono hquiet.follows (hspares _)
  · intro digest entry hentry
    rcases hquiet.redis _ _ hentry with hold | hwrite
    · exact (h.redis _ _ hold).mono hquiet.follows (hspares _)
    · exact (h.writes _ _ hwrite).mono hquiet.follows (hspares _)
  · exact fun digest entry hmem =>
      (h.writes _ _ (hquiet.writes _ _ hmem)).mono hquiet.follows (hspares _)
  · rw [hquiet.inflight]
    exact h.flights
  · exact hquiet.indexed h.indexed

theorem quiet_setSession {c : CallId} {σ : Session P} (hσ : s.sessions[c]? = some σ) (phase : Phase)
    (hread : ∀ entry, phase = .read (some entry) →
      ∃ key, σ.task.pending? = some (.l2Get key) ∧ s.redis.get? (P.digest key) = some entry)
    (hsame : s'.sessions = (s.setSession c (σ.inPhase phase)).sessions)
    (hl1 : s'.l1 = s.l1) (hinflight : s'.inflight = s.inflight)
    (hredis : ∀ digest entry, s'.redis.get? digest = some entry →
      s.redis.get? digest = some entry)
    (hwrites : s'.writes = s.writes) (hremovals : s'.removals = s.removals)
    (hpurges : s'.purges = s.purges) : s.Quiet s' where
  sessions := by
    intro c' σ' hσ'
    rw [hsame] at hσ'
    rcases getElem?_setSession hσ' with ⟨rfl, rfl⟩ | ⟨-, hold⟩
    · exact ⟨σ, phase, hσ, rfl, fun entry hphase => .inr (hread entry hphase)⟩
    · exact ⟨σ', σ'.task.phase, hold, rfl, fun _ hphase => .inl hphase⟩
  follows := by
    intro c' u hu
    rw [hsame]
    exact follows_setSession hσ (σ.inPhase phase) rfl (fun _ h => h) c' u hu
  inflight := hinflight
  l1 := fun _ _ hentry => hl1 ▸ hentry
  redis := fun digest entry hentry => .inl (hredis digest entry hentry)
  writes := fun _ _ hmem => hwrites ▸ hmem
  indexed := fun h => hl1 ▸ h
  removals := hremovals
  purges := hpurges

theorem quiet_of_sessions (hsessions : s'.sessions = s.sessions)
    (hinflight : s'.inflight = s.inflight)
    (hl1 : ∀ digest entry, s'.l1.entries.get? digest = some entry →
      s.l1.entries.get? digest = some entry)
    (hredis : ∀ digest entry, s'.redis.get? digest = some entry →
      s.redis.get? digest = some entry ∨ (digest, entry) ∈ s.writes)
    (hwrites : ∀ digest entry, (digest, entry) ∈ s'.writes → (digest, entry) ∈ s.writes)
    (hindexed : s.l1.Exact → s'.l1.Exact) (hremovals : s'.removals = s.removals)
    (hpurges : s'.purges = s.purges) : s.Quiet s' where
  sessions := fun _ σ' hσ' =>
    ⟨σ', σ'.task.phase, hsessions ▸ hσ', rfl, fun _ hphase => .inl hphase⟩
  follows := fun _ σ hσ => ⟨σ, hsessions ▸ hσ, rfl, fun _ h => h⟩
  inflight := hinflight
  l1 := hl1
  redis := hredis
  writes := hwrites
  indexed := hindexed
  removals := hremovals
  purges := hpurges

theorem takeEffect_quiet {c : CallId} {σ : Session P} (h : s.takeEffect c σ = some s') :
    s.Quiet s' := by
  unfold takeEffect at h
  split at h
  next =>
    obtain rfl := Option.some.inj h
    exact quiet_of_sessions rfl rfl (fun _ _ h => h) (fun _ _ h => .inl h) (fun _ _ h => h) id rfl
      rfl
  next => cases h

theorem readL2_quiet {c : CallId} {σ : Session P} (hσ : s.sessions[c]? = some σ)
    (h : s.readL2 c σ = some s') : s.Quiet s' := by
  unfold readL2 at h
  split at h
  next key _ hpending =>
    obtain rfl := Option.some.inj h
    exact quiet_setSession hσ _ (fun entry hread => ⟨key, hpending, Phase.read.inj hread⟩) rfl rfl
      rfl (fun _ _ h => h) rfl rfl rfl
  next => cases h

theorem startScan_quiet {c : CallId} {σ : Session P} (hσ : s.sessions[c]? = some σ)
    (h : s.startScan c σ = some s') : s.Quiet s' := by
  unfold startScan at h
  split at h
  next =>
    obtain rfl := Option.some.inj h
    exact quiet_setSession hσ (.scanning s.redis.keys) (fun _ hread => nomatch hread) rfl rfl rfl
      (fun _ _ h => h) rfl rfl rfl
  next => cases h

theorem scan_quiet {c : CallId} {digest : String} {σ : Session P} (hσ : s.sessions[c]? = some σ)
    (h : s.scan c digest σ = some s') : s.Quiet s' := by
  unfold scan at h
  split at h
  next digests _ _ _ _ =>
    obtain rfl := Option.some.inj h
    exact quiet_setSession hσ (.scanning (digests.filter (· ≠ digest)))
      (fun _ hread => nomatch hread) rfl rfl rfl (fun _ _ h => (get?_of_deleteIfFor h).1) rfl rfl rfl
  next => cases h

theorem failScan_quiet {c : CallId} {σ : Session P} (hσ : s.sessions[c]? = some σ)
    (h : s.failScan c σ = some s') : s.Quiet s' := by
  unfold failScan at h
  split at h
  next =>
    obtain rfl := Option.some.inj h
    exact quiet_setSession hσ (.scanning []) (fun _ hread => nomatch hread) rfl rfl rfl
      (fun _ _ h => h) rfl rfl rfl
  next => cases h

theorem landWrite_quiet {index : ℕ} {write : String × CacheEntry}
    (hwrite : s.writes[index]? = some write) : s.Quiet (s.landWrite index write) := by
  refine quiet_of_sessions rfl rfl (fun _ _ h => h) (fun digest entry hentry => ?_)
    (fun _ _ hmem => List.mem_of_mem_eraseIdx hmem) id rfl rfl
  rw [landWrite, OrderedMap.get?_set] at hentry
  split at hentry
  next heq =>
    refine .inr ?_
    rw [← heq, ← Option.some.inj hentry]
    exact List.mem_of_getElem? hwrite
  next => exact .inl hentry

theorem expire_quiet (s : Installation P) (key : String) :
    s.Quiet { s with redis := s.redis.delete key } := by
  refine quiet_of_sessions rfl rfl (fun _ _ h => h) (fun digest entry hentry => .inl ?_)
    (fun _ _ h => h) id rfl rfl
  rw [OrderedMap.get?_delete] at hentry
  exact (Option.ite_none_left_eq_some.mp hentry).2

theorem evict_quiet (s : Installation P) (key : String) :
    s.Quiet { s with l1 := s.l1.evict key } :=
  quiet_of_sessions rfl rfl (fun _ _ h => (CacheStore.get?_of_get?_evict h).2)
    (fun _ _ h => .inl h) (fun _ _ h => h) (fun h => h.evict key) rfl rfl

theorem getElem?_append_session {σ u : Session P} {c : CallId}
    (h : (s.sessions ++ [σ])[c]? = some u) :
    s.sessions[c]? = some u ∨ c = s.sessions.length ∧ u = σ := by
  rw [List.getElem?_append] at h
  split at h
  · exact .inl h
  next hge =>
    rw [List.getElem?_singleton] at h
    split at h
    next hzero =>
      have hlength : c = s.sessions.length :=
        le_antisymm (Nat.sub_eq_zero_iff_le.mp hzero) (not_lt.mp hge)
      exact .inr ⟨hlength, (Option.some.inj h).symm⟩
    next => cases h

-- a call that has been resolved and no more
structure New (s : Installation P) (σ : Session P) : Prop where
  self : σ.task.call.self = s.sessions.length
  through : σ.through = s.removals
  asked : σ.asked = none
  phase : σ.task.phase = .idle
  trace : ∀ e ∈ σ.task.trace, ∃ serverId toolName, e.1 = .resolve serverId toolName

theorem New.sound {σ : Session P} (h : s.New σ) (hremovals : s'.removals = s.removals) :
    s'.Sound σ := by
  refine ⟨?_, ?_, ?_, ?_, ?_⟩
  · intro serverId _
    rw [h.through, hremovals]
  · intro serverId purges _ hasked
    rw [h.asked] at hasked
    cases hasked
  · intro hasked
    rw [h.asked] at hasked
    cases hasked
  · rintro ⟨o, a⟩ he
    obtain ⟨serverId, toolName, rfl⟩ := h.trace _ he
    exact trivial
  · intro entry key hphase
    rw [h.phase] at hphase
    cases hphase

end Upkeep

section Changes

-- what a change of the servers does to the rest of the gateway
structure Changes (s s' : Installation P) (removed purged : String → Prop) : Prop where
  sessions : s'.sessions = s.sessions
  inflight : s'.inflight = s.inflight
  redis : s'.redis = s.redis
  writes : s'.writes = s.writes
  l1 : ∀ digest entry, s'.l1.entries.get? digest = some entry →
    s.l1.entries.get? digest = some entry
  indexed : s.l1.Exact → s'.l1.Exact
  removals : ∀ serverId, ¬ removed serverId → s'.removals serverId = s.removals serverId
  purges : ∀ serverId, ¬ purged serverId → s'.purges serverId = s.purges serverId

-- nothing of the server's is in Redis or on its way there, and no call is busy with it
structure Vacant (s : Installation P) (serverId : String) (busy : Session P → Prop) : Prop where
  redis : ∀ digest entry, s.redis.get? digest = some entry → entry.serverId ≠ serverId
  writes : ∀ digest entry, (digest, entry) ∈ s.writes → entry.serverId ≠ serverId
  sessions : ∀ (c : CallId) (σ : Session P), s.sessions[c]? = some σ →
    σ.task.finished = false → ¬ busy σ

def Uncached (s : Installation P) (serverId : String) : Prop :=
  ∀ digest entry, s.l1.entries.get? digest = some entry → entry.serverId ≠ serverId

def Idle (s : Installation P) (serverId : String) : Prop :=
  s.Vacant serverId fun σ => σ.Targets serverId

def Unread (s : Installation P) (serverId : String) : Prop :=
  s.Vacant serverId fun σ => σ.Targets serverId ∧ σ.Holds

variable {removed purged removed' purged' : String → Prop}

theorem Current.of_changes (hinjective : Function.Injective P.host.sha256) (h : s.Current)
    (hchanges : s.Changes s' removed purged)
    (hremoved : ∀ serverId, removed serverId → s.Idle serverId ∧ s'.Uncached serverId)
    (hpurged : ∀ serverId, purged serverId → s.Unread serverId ∧ s'.Uncached serverId) :
    s.Leads s' := by
  have hfollows : s.Follows s' := fun _ σ hσ =>
    ⟨σ, hchanges.sessions ▸ hσ, rfl, fun _ hasked => hasked⟩
  have hspares : ∀ serverId, ¬ removed serverId → ¬ purged serverId → s.Spares s' serverId :=
    fun serverId hkept hunpurged =>
      ⟨hchanges.removals serverId hkept, hchanges.purges serverId hunpurged⟩
  have hsessions : ∀ (c : CallId) (σ : Session P), s.sessions[c]? = some σ →
      σ.task.finished = false → s'.Sound σ := by
    intro c σ hσ hunfinished
    refine (h.sound c σ hσ hunfinished).mono hinjective hfollows
      (settles_of_inflight hchanges.inflight) ?_ ?_
    · intro serverId htargets
      refine hchanges.removals serverId fun hgone => ?_
      exact (hremoved serverId hgone).1.sessions c σ hσ hunfinished htargets
    · intro serverId htargets hholds
      refine hchanges.purges serverId fun hgone => ?_
      exact (hpurged serverId hgone).1.sessions c σ hσ hunfinished ⟨htargets, hholds⟩
  refine ⟨⟨?_, ?_, ?_, ?_, ?_, ?_, ?_⟩, ?_⟩
  · rw [hchanges.sessions]
    exact h.self
  · rw [hchanges.sessions]
    exact hsessions
  · intro digest entry hentry
    refine (h.l1 _ _ (hchanges.l1 _ _ hentry)).mono hfollows (hspares _ ?_ ?_)
    · exact fun hgone => (hremoved _ hgone).2 digest entry hentry rfl
    · exact fun hgone => (hpurged _ hgone).2 digest entry hentry rfl
  · rw [hchanges.redis]
    intro digest entry hentry
    refine (h.redis _ _ hentry).mono hfollows (hspares _ ?_ ?_)
    · exact fun hgone => (hremoved _ hgone).1.redis digest entry hentry rfl
    · exact fun hgone => (hpurged _ hgone).1.redis digest entry hentry rfl
  · rw [hchanges.writes]
    intro digest entry hmem
    refine (h.writes _ _ hmem).mono hfollows (hspares _ ?_ ?_)
    · exact fun hgone => (hremoved _ hgone).1.writes digest entry hmem rfl
    · exact fun hgone => (hpurged _ hgone).1.writes digest entry hmem rfl
  · rw [hchanges.inflight]
    exact h.flights
  · exact hchanges.indexed h.indexed
  · intro c σ hσ hlive
    rw [hchanges.sessions] at hσ
    exact hsessions c σ hσ (hlive σ hσ)

def Registers (s : Installation P) (serverId : String) : Prop :=
  (s.router.registry.getServerInfo serverId).isSome = true

theorem Changes.refl (s : Installation P) : s.Changes s removed purged where
  sessions := rfl
  inflight := rfl
  redis := rfl
  writes := rfl
  l1 := fun _ _ h => h
  indexed := id
  removals := fun _ _ => rfl
  purges := fun _ _ => rfl

theorem Changes.trans {s'' : Installation P} (h : s.Changes s' removed purged)
    (h' : s'.Changes s'' removed purged) : s.Changes s'' removed purged where
  sessions := h'.sessions.trans h.sessions
  inflight := h'.inflight.trans h.inflight
  redis := h'.redis.trans h.redis
  writes := h'.writes.trans h.writes
  l1 := fun _ _ hentry => h.l1 _ _ (h'.l1 _ _ hentry)
  indexed := fun hexact => h'.indexed (h.indexed hexact)
  removals := fun serverId hkept =>
    (h'.removals serverId hkept).trans (h.removals serverId hkept)
  purges := fun serverId hkept => (h'.purges serverId hkept).trans (h.purges serverId hkept)

theorem Changes.imp (h : s.Changes s' removed purged)
    (hremoved : ∀ serverId, removed serverId → removed' serverId)
    (hpurged : ∀ serverId, purged serverId → purged' serverId) :
    s.Changes s' removed' purged' :=
  { h with
    removals := fun serverId hkept => h.removals serverId fun hgone =>
      hkept (hremoved serverId hgone)
    purges := fun serverId hkept => h.purges serverId fun hgone =>
      hkept (hpurged serverId hgone) }

theorem Uncached.mono {serverId : String} (h : s.Uncached serverId)
    (hchanges : s.Changes s' removed purged) : s'.Uncached serverId :=
  fun digest entry hentry => h digest entry (hchanges.l1 digest entry hentry)

theorem changes_of_frame (s : Installation P) (router : ConduitRouter)
    (servers : List ServerConfig) (managed : List String) :
    s.Changes { s with router := router, servers := servers, managed := managed }
      removed purged where
  sessions := rfl
  inflight := rfl
  redis := rfl
  writes := rfl
  l1 := fun _ _ h => h
  indexed := id
  removals := fun _ _ => rfl
  purges := fun _ _ => rfl

theorem removeServer_changes (s : Installation P) (serverId : String) :
    s.Changes (s.removeServer serverId) (fun id => id = serverId ∧ s.Registers id) purged := by
  unfold removeServer
  split
  next => exact .refl s
  next info hinfo =>
    have hregisters : s.Registers serverId := by
      unfold Registers
      rw [hinfo]
      rfl
    refine ⟨rfl, rfl, rfl, rfl, fun _ _ h => h, id, fun id hkept => ?_, fun _ _ => rfl⟩
    have hne : id ≠ serverId := by
      rintro rfl
      exact hkept ⟨rfl, hregisters⟩
    exact Function.update_of_ne hne _ _

theorem Registers.of_removeServer {serverId id : String}
    (h : (s.removeServer serverId).Registers id) : s.Registers id := by
  unfold removeServer at h
  split at h
  · exact h
  next info hinfo =>
    obtain ⟨found, hfound⟩ := Option.isSome_iff_exists.mp h
    have hleft : s.router.registry.removeServer serverId = ServerRegistry.rebuildNamespaceMap
        { s.router.registry with servers := s.router.registry.servers.delete serverId } := by
      simp only [ServerRegistry.removeServer, hinfo]
    simp only [ConduitRouter.withRegistry, hleft, ServerRegistry.getServerInfo,
      ServerRegistry.servers_rebuildNamespaceMap, OrderedMap.get?_delete] at hfound
    exact Option.isSome_iff_exists.mpr ⟨found, (Option.ite_none_left_eq_some.mp hfound).2⟩

theorem deleteByServer_changes (s : Installation P) (serverId : String) :
    s.Changes (s.deleteByServer serverId) removed purged where
  sessions := rfl
  inflight := rfl
  redis := rfl
  writes := rfl
  l1 := fun _ _ hentry => by
    have hdeleted := CacheStore.entries_deleteByServer s.l1 serverId
    rw [deleteByServer, hdeleted] at hentry
    exact CacheStore.get?_of_get?_foldl CacheStore.get?_forgetTool_evict hentry
  indexed := fun hexact => hexact.deleteByServer serverId
  removals := fun _ _ => rfl
  purges := fun _ _ => rfl

theorem uncached_deleteByServer (h : s.l1.Exact) (serverId : String) :
    (s.deleteByServer serverId).Uncached serverId := by
  intro digest entry hentry
  have hremoves := (h.removes_server serverId).entries digest
  rw [deleteByServer, hremoves] at hentry
  have hfilter := (Option.filter_eq_some_iff.mp hentry).2
  simpa using hfilter

section Loops

-- the servers of a reload go one after the other
def emptied (s : Installation P) (servers : List ServerConfig) : Installation P :=
  servers.foldl (fun s server => (s.removeServer server.id).deleteByServer server.id) s

def Unpurged : String → Prop := fun _ => False

theorem emptied_changes (servers : List ServerConfig) (s : Installation P) :
    s.Changes (s.emptied servers)
      (fun id => (∃ server ∈ servers, server.id = id) ∧ s.Registers id) purged := by
  induction servers generalizing s with
  | nil => exact .refl s
  | cons server rest ih =>
      have hremoved : s.Changes (s.removeServer server.id) _ purged :=
        removeServer_changes s server.id
      have hfirst := hremoved.trans (deleteByServer_changes (s.removeServer server.id) server.id)
      have hrest := ih ((s.removeServer server.id).deleteByServer server.id)
      refine (hfirst.imp ?_ fun _ h => h).trans (hrest.imp ?_ fun _ h => h)
      · rintro id ⟨rfl, hregisters⟩
        exact ⟨⟨server, List.mem_cons_self, rfl⟩, hregisters⟩
      · rintro id ⟨⟨other, hother, rfl⟩, hregisters⟩
        have hleft : (s.removeServer server.id).Registers other.id := hregisters
        exact ⟨⟨other, List.mem_cons_of_mem _ hother, rfl⟩, hleft.of_removeServer⟩

theorem uncached_emptied (h : s.l1.Exact) {servers : List ServerConfig} {server : ServerConfig}
    (hserver : server ∈ servers) : (s.emptied servers).Uncached server.id := by
  induction servers generalizing s with
  | nil => cases hserver
  | cons first rest ih =>
      have hremoved : s.Changes (s.removeServer first.id) _ Unpurged :=
        removeServer_changes s first.id
      have hexact := hremoved.indexed h
      rcases List.mem_cons.mp hserver with rfl | hlater
      · have hrest : ((s.removeServer server.id).deleteByServer server.id).Changes _ _ Unpurged :=
          emptied_changes rest _
        exact (uncached_deleteByServer hexact server.id).mono hrest
      · exact ih (hexact.deleteByServer first.id) hlater

theorem removed_changes (ids : List String) (s : Installation P) :
    s.Changes (ids.foldl (fun s serverId => s.removeServer serverId) s)
      (fun id => id ∈ ids ∧ s.Registers id) purged := by
  induction ids generalizing s with
  | nil => exact .refl s
  | cons serverId rest ih =>
      have hfirst : s.Changes (s.removeServer serverId) _ purged := removeServer_changes s serverId
      have hrest := ih (s.removeServer serverId)
      refine (hfirst.imp ?_ fun _ h => h).trans (hrest.imp ?_ fun _ h => h)
      · rintro id ⟨rfl, hregisters⟩
        exact ⟨List.mem_cons_self, hregisters⟩
      · rintro id ⟨hid, hregisters⟩
        exact ⟨List.mem_cons_of_mem _ hid, hregisters.of_removeServer⟩

end Loops

end Changes

end Installation

end Conduit.Gateway
