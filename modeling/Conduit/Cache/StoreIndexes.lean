import Conduit.Cache.Store

namespace Conduit.Cache

inductive CacheOp where
  | set (key : String) (entry : CacheEntry)
  | get (key : String) (now : ℕ)
  | delete (key : String)
  | deleteByServer (serverId : String)
  | deleteByTool (toolName serverId : String)
  | deleteByPrefix (start : String)
  | clear
  | evict (key : String)

def isServerId (id : String) : Bool := id ≠ "" && id.toList.all fun c => c.isAlphanum || c = '-'

def CacheEntry.indexKey (entry : CacheEntry) : String :=
  toolIndexKey entry.toolName entry.serverId

theorem not_mem_of_isServerId {id : String} (h : isServerId id = true) : '@' ∉ id.toList := by
  intro hmem
  have hall := (Bool.and_eq_true_iff.mp h).2
  have hat := List.all_eq_true.mp hall '@' hmem
  revert hat
  decide

theorem eq_of_append_cons_eq {α : Type} {c : α} {xs ys us vs : List α}
    (h : xs ++ c :: us = ys ++ c :: vs) (hus : c ∉ us) (hvs : c ∉ vs) : xs = ys ∧ us = vs := by
  rcases List.append_eq_append_iff.mp h with ⟨zs, rfl, hzs⟩ | ⟨zs, rfl, hzs⟩
  · cases zs with
    | nil => exact ⟨by simp, (List.cons.inj hzs).2⟩
    | cons z zs =>
        refine absurd ?_ hus
        rw [(List.cons.inj hzs).2]
        simp
  · cases zs with
    | nil => exact ⟨by simp, (List.cons.inj hzs).2.symm⟩
    | cons z zs =>
        refine absurd ?_ hvs
        rw [(List.cons.inj hzs).2]
        simp

theorem toolIndexKey_inj {toolName toolName' serverId serverId' : String}
    (hserver : isServerId serverId = true) (hserver' : isServerId serverId' = true) :
    toolIndexKey toolName serverId = toolIndexKey toolName' serverId' ↔
      toolName = toolName' ∧ serverId = serverId' := by
  constructor
  · intro h
    have hlists := congrArg String.toList h
    simp only [toolIndexKey, String.toList_append, List.append_assoc] at hlists
    obtain ⟨htool, hid⟩ := eq_of_append_cons_eq hlists (not_mem_of_isServerId hserver)
      (not_mem_of_isServerId hserver')
    exact ⟨String.toList_injective htool, String.toList_injective hid⟩
  · rintro ⟨rfl, rfl⟩
    rfl

namespace CacheStore

variable {S : CacheStore}

def apply (S : CacheStore) : CacheOp → CacheStore
  | .set key entry => S.set key entry
  | .get key now => (S.get key now).1
  | .delete key => (S.delete key).1
  | .deleteByServer serverId => (S.deleteByServer serverId).1
  | .deleteByTool toolName serverId => (S.deleteByTool toolName serverId).1
  | .deleteByPrefix start => (S.deleteByPrefix start).1
  | .clear => S.clear
  | .evict key => S.evict key

structure Exact (S : CacheStore) : Prop where
  tools : S.toolIndex.Mirrors S.entries CacheEntry.indexKey
  servers : S.serverIndex.Mirrors S.entries CacheEntry.serverId
  distinctTools : S.toolIndex.Distinct
  distinctServers : S.serverIndex.Distinct

theorem exact_init (config : L1CacheConfig) : (init config).Exact where
  tools := KeyIndex.mirrors_empty
  servers := KeyIndex.mirrors_empty
  distinctTools := KeyIndex.distinct_empty
  distinctServers := KeyIndex.distinct_empty

theorem Exact.clear (S : CacheStore) : S.clear.Exact where
  tools := KeyIndex.mirrors_empty
  servers := KeyIndex.mirrors_empty
  distinctTools := KeyIndex.distinct_empty
  distinctServers := KeyIndex.distinct_empty

theorem Exact.evict (h : S.Exact) (key : String) : (S.evict key).Exact := by
  unfold CacheStore.evict
  split
  · exact h
  next entry hentry =>
    exact {
      tools := h.tools.delete hentry
      servers := h.servers.delete hentry
      distinctTools := h.distinctTools.drop _ _
      distinctServers := h.distinctServers.drop _ _ }

theorem Exact.delete (h : S.Exact) (key : String) : (S.delete key).1.Exact := by
  unfold CacheStore.delete replaced
  split
  · exact h.evict key
  next entry hentry =>
    unfold CacheStore.evict
    rw [show (S.dispose entry key).entries.get? key = some entry from hentry]
    exact {
      tools := (h.tools.delete hentry).congr fun _ _ => KeyIndex.lists_drop_drop ..
      servers := (h.servers.delete hentry).congr fun _ _ => KeyIndex.lists_drop_drop ..
      distinctTools := (h.distinctTools.drop _ _).drop _ _
      distinctServers := (h.distinctServers.drop _ _).drop _ _ }

theorem Exact.forgetTool_evict (h : S.Exact) (key : String) :
    ((S.forgetTool key).evict key).Exact := by
  unfold forgetTool
  split
  · exact h.evict key
  next entry hentry =>
    unfold CacheStore.evict
    dsimp only
    rw [hentry]
    exact {
      tools := (h.tools.delete hentry).congr fun _ _ => KeyIndex.lists_drop_drop ..
      servers := h.servers.delete hentry
      distinctTools := (h.distinctTools.drop _ _).drop _ _
      distinctServers := h.distinctServers.drop _ _ }

theorem Exact.get (h : S.Exact) (key : String) (now : ℕ) : (S.get key now).1.Exact := by
  unfold CacheStore.get
  split
  · exact h
  · split
    · exact h.delete key
    · exact h

theorem Exact.set (h : S.Exact) (key : String) (entry : CacheEntry) : (S.set key entry).Exact := by
  unfold CacheStore.set replaced
  split
  · exact h
  · cases hold : S.entries.get? key with
    | none =>
        exact {
          tools := h.tools.set hold
          servers := h.servers.set hold
          distinctTools := h.distinctTools.insert _ _
          distinctServers := h.distinctServers.insert _ _ }
    | some old =>
        exact {
          tools := h.tools.replace hold
          servers := h.servers.replace hold
          distinctTools := (h.distinctTools.drop _ _).insert _ _
          distinctServers := (h.distinctServers.drop _ _).insert _ _ }

theorem Exact.foldl {f : CacheStore → String → CacheStore} (hf : ∀ S key, S.Exact → (f S key).Exact)
    (h : S.Exact) (keys : List String) : (keys.foldl f S).Exact := by
  induction keys generalizing S with
  | nil => exact h
  | cons key keys ih => exact ih (hf S key h)

theorem get?_foldl {f : CacheStore → String → CacheStore}
    (hf : ∀ S key k, (f S key).entries.get? k = if key = k then none else S.entries.get? k)
    (S : CacheStore) (keys : List String) (k : String) :
    (keys.foldl f S).entries.get? k = if k ∈ keys then none else S.entries.get? k := by
  induction keys generalizing S with
  | nil => rfl
  | cons key keys ih =>
      rw [List.foldl_cons, ih, hf]
      by_cases hkey : key = k
      · simp [hkey]
      · simp [hkey, Ne.symm hkey]

theorem get?_forgetTool_evict (S : CacheStore) (key k : String) :
    ((S.forgetTool key).evict key).entries.get? k =
      if key = k then none else S.entries.get? k := by
  have hentries : (S.forgetTool key).entries = S.entries := by
    unfold forgetTool
    split <;> rfl
  rw [get?_evict, hentries]

-- nothing is listed under a name once the entries listed there are gone
theorem not_lists_of_emptied {S' : CacheStore} {index index' : KeyIndex String String}
    {nameOf : CacheEntry → String} (h : index.Mirrors S.entries nameOf)
    (h' : index'.Mirrors S'.entries nameOf) (name : String)
    (hentries : ∀ k, S'.entries.get? k = if k ∈ index.row name then none else S.entries.get? k)
    (key : String) : ¬ index'.Lists name key := by
  intro hlists
  obtain ⟨entry, hentry, hname⟩ := (h' name key).mp hlists
  rw [hentries] at hentry
  split at hentry
  · cases hentry
  next hrow => exact hrow (KeyIndex.mem_row.2 ((h name key).mpr ⟨entry, hentry, hname⟩))

theorem Exact.deleteByServer (h : S.Exact) (serverId : String) :
    (S.deleteByServer serverId).1.Exact := by
  unfold CacheStore.deleteByServer
  split
  · exact h
  next keys hkeys =>
    have hemptied := h.foldl (f := fun S key => (S.forgetTool key).evict key)
      (fun _ key hS => hS.forgetTool_evict key) keys
    have hrow : S.serverIndex.row serverId = keys := by rw [KeyIndex.row, hkeys, Option.getD_some]
    have hnone := not_lists_of_emptied h.servers hemptied.servers serverId fun k => by
      rw [hrow]
      exact get?_foldl get?_forgetTool_evict S keys k
    exact {
      tools := hemptied.tools
      servers := hemptied.servers.congr fun name key => by
        rw [KeyIndex.lists_delete]
        refine ⟨fun hlists => hlists.2, fun hlists => ⟨?_, hlists⟩⟩
        rintro rfl
        exact hnone key hlists
      distinctTools := hemptied.distinctTools
      distinctServers := hemptied.distinctServers.delete _ }

theorem Exact.deleteByTool (h : S.Exact) (toolName serverId : String) :
    (S.deleteByTool toolName serverId).1.Exact := by
  unfold CacheStore.deleteByTool
  split
  · exact h
  next keys hkeys =>
    have hemptied := h.foldl (fun _ key hS => hS.evict key) keys
    have hrow : S.toolIndex.row (toolIndexKey toolName serverId) = keys := by
      rw [KeyIndex.row, hkeys, Option.getD_some]
    have hnone := not_lists_of_emptied h.tools hemptied.tools
      (toolIndexKey toolName serverId) fun k => by
        rw [hrow]
        exact get?_foldl (fun S key k => get?_evict key k) S keys k
    exact {
      tools := hemptied.tools.congr fun name key => by
        rw [KeyIndex.lists_delete]
        refine ⟨fun hlists => hlists.2, fun hlists => ⟨?_, hlists⟩⟩
        rintro rfl
        exact hnone key hlists
      servers := hemptied.servers.congr fun name key => by
        rw [KeyIndex.lists_drop]
        refine ⟨fun hlists => hlists.1, fun hlists => ⟨hlists, fun hleft => ?_⟩⟩
        exact hnone key (KeyIndex.mem_row.1 hleft.2)
      distinctTools := hemptied.distinctTools.delete _
      distinctServers := hemptied.distinctServers.drop _ _ }

theorem Exact.deleteByPrefix (h : S.Exact) (start : String) : (S.deleteByPrefix start).1.Exact :=
  h.foldl (fun _ key hS => hS.delete key) _

theorem Exact.apply (h : S.Exact) (op : CacheOp) : (S.apply op).Exact := by
  cases op with
  | set key entry => exact h.set key entry
  | get key now => exact h.get key now
  | delete key => exact h.delete key
  | deleteByServer serverId => exact h.deleteByServer serverId
  | deleteByTool toolName serverId => exact h.deleteByTool toolName serverId
  | deleteByPrefix start => exact h.deleteByPrefix start
  | clear => exact .clear S
  | evict key => exact h.evict key

theorem Exact.applyAll (h : S.Exact) (ops : List CacheOp) :
    (ops.foldl CacheStore.apply S).Exact := by
  induction ops generalizing S with
  | nil => exact h
  | cons op ops ih => exact ih (h.apply op)

theorem entries_deleteByServer (S : CacheStore) (serverId : String) :
    (S.deleteByServer serverId).1.entries =
      ((S.serverIndex.row serverId).foldl (fun S key => (S.forgetTool key).evict key) S).entries := by
  unfold CacheStore.deleteByServer KeyIndex.row
  cases S.serverIndex.get? serverId <;> rfl

theorem count_deleteByServer (S : CacheStore) (serverId : String) :
    (S.deleteByServer serverId).2 = (S.serverIndex.row serverId).length := by
  unfold CacheStore.deleteByServer KeyIndex.row
  cases S.serverIndex.get? serverId <;> rfl

theorem entries_deleteByTool (S : CacheStore) (toolName serverId : String) :
    (S.deleteByTool toolName serverId).1.entries =
      ((S.toolIndex.row (toolIndexKey toolName serverId)).foldl CacheStore.evict S).entries := by
  unfold CacheStore.deleteByTool KeyIndex.row
  cases S.toolIndex.get? (toolIndexKey toolName serverId) <;> rfl

theorem count_deleteByTool (S : CacheStore) (toolName serverId : String) :
    (S.deleteByTool toolName serverId).2 =
      (S.toolIndex.row (toolIndexKey toolName serverId)).length := by
  unfold CacheStore.deleteByTool KeyIndex.row
  cases S.toolIndex.get? (toolIndexKey toolName serverId) <;> rfl

-- the entries in question go, all others stay, and the answer is how many they were
structure Removes (S : CacheStore) (doomed : CacheEntry → Prop) [DecidablePred doomed]
    (result : CacheStore × ℕ) : Prop where
  entries : ∀ key, result.1.entries.get? key = (S.entries.get? key).filter fun e => ¬ doomed e
  count : result.2 = S.entries.values.countP fun e => doomed e

theorem removes_of_row {index : KeyIndex String String} {nameOf : CacheEntry → String}
    (h : index.Mirrors S.entries nameOf) (hdistinct : index.Distinct) {name : String}
    {result : CacheStore × ℕ}
    (hentries : ∀ k, result.1.entries.get? k =
      if k ∈ index.row name then none else S.entries.get? k)
    (hcount : result.2 = (index.row name).length) :
    Removes S (fun e => nameOf e = name) result where
  entries key := by
    rw [hentries]
    cases hentry : S.entries.get? key with
    | none => simp
    | some entry => simp [KeyIndex.mem_row, h name key, hentry, Option.filter_some]
  count := hcount.trans (h.length_row hdistinct name)

theorem Exact.removes_server (h : S.Exact) (serverId : String) :
    Removes S (fun e => e.serverId = serverId) (S.deleteByServer serverId) := by
  refine removes_of_row h.servers h.distinctServers (fun k => ?_) (count_deleteByServer ..)
  rw [entries_deleteByServer]
  exact get?_foldl get?_forgetTool_evict S _ k

theorem Exact.removes_indexKey (h : S.Exact) (toolName serverId : String) :
    Removes S (fun e => e.indexKey = toolIndexKey toolName serverId)
      (S.deleteByTool toolName serverId) := by
  refine removes_of_row h.tools h.distinctTools (fun k => ?_) (count_deleteByTool ..)
  rw [entries_deleteByTool]
  exact get?_foldl (fun S key k => get?_evict key k) S _ k

end CacheStore

def CacheOp.NamesServers : CacheOp → Prop
  | .set _ entry => isServerId entry.serverId = true
  | .deleteByServer serverId => isServerId serverId = true
  | .deleteByTool _ serverId => isServerId serverId = true
  | _ => True

namespace CacheStore

variable {S : CacheStore}

def NamesServers (S : CacheStore) : Prop :=
  ∀ key entry, S.entries.get? key = some entry → isServerId entry.serverId = true

theorem get?_of_get?_foldl {f : CacheStore → String → CacheStore}
    (hf : ∀ S key k, (f S key).entries.get? k = if key = k then none else S.entries.get? k)
    {keys : List String} {k : String} {entry : CacheEntry}
    (h : (keys.foldl f S).entries.get? k = some entry) : S.entries.get? k = some entry := by
  rw [get?_foldl hf] at h
  exact (Option.ite_none_left_eq_some.mp h).2

theorem get?_of_apply {op : CacheOp} {key : String} {entry : CacheEntry}
    (h : (S.apply op).entries.get? key = some entry) :
    S.entries.get? key = some entry ∨ op = .set key entry := by
  cases op with
  | set key' stored =>
      rcases get?_of_get?_set h with ⟨rfl, rfl⟩ | hold
      · exact .inr rfl
      · exact .inl hold
  | get key' now => exact .inl (get?_of_get h)
  | delete key' =>
      rw [CacheStore.apply, get?_delete] at h
      exact .inl (Option.ite_none_left_eq_some.mp h).2
  | deleteByServer serverId =>
      rw [CacheStore.apply, entries_deleteByServer] at h
      exact .inl (get?_of_get?_foldl get?_forgetTool_evict h)
  | deleteByTool toolName serverId => exact .inl (get?_of_deleteByTool h)
  | deleteByPrefix start =>
      exact .inl (get?_of_get?_foldl (fun S key k => get?_delete key k) h)
  | clear => cases h
  | evict key' => exact .inl (get?_of_get?_evict h).2

theorem NamesServers.apply (h : S.NamesServers) {op : CacheOp} (hop : op.NamesServers) :
    (S.apply op).NamesServers := by
  intro key entry hentry
  rcases get?_of_apply hentry with hold | rfl
  · exact h key entry hold
  · exact hop

theorem namesServers_init (config : L1CacheConfig) : (init config).NamesServers := by
  intro key entry hentry
  cases hentry

theorem NamesServers.applyAll (h : S.NamesServers) {ops : List CacheOp}
    (hops : ∀ op ∈ ops, op.NamesServers) : (ops.foldl CacheStore.apply S).NamesServers := by
  induction ops generalizing S with
  | nil => exact h
  | cons op ops ih =>
      exact ih (h.apply (hops op (by simp))) fun o ho => hops o (List.mem_cons_of_mem _ ho)

theorem isFor_iff_indexKey {entry : CacheEntry} (hentry : isServerId entry.serverId = true)
    {toolName serverId : String} (hserver : isServerId serverId = true) :
    entry.indexKey = toolIndexKey toolName serverId ↔ entry.IsFor toolName serverId :=
  toolIndexKey_inj hentry hserver

theorem Exact.removes_tool (h : S.Exact) (hnames : S.NamesServers) {toolName serverId : String}
    (hserver : isServerId serverId = true) :
    Removes S (fun e => e.IsFor toolName serverId) (S.deleteByTool toolName serverId) := by
  obtain ⟨hentries, hcount⟩ := h.removes_indexKey toolName serverId
  constructor
  · intro key
    rw [hentries]
    cases hentry : S.entries.get? key with
    | none => rfl
    | some entry => simp [Option.filter_some, isFor_iff_indexKey (hnames key entry hentry) hserver]
  · rw [hcount]
    refine List.countP_congr fun entry hmem => ?_
    obtain ⟨e, he, rfl⟩ := List.mem_map.mp hmem
    have hentry := (OrderedMap.get?_eq_some_iff S.entries e.1 e.2).mpr he
    simp [isFor_iff_indexKey (hnames e.1 e.2 hentry) hserver]

theorem indexes_exact (config : L1CacheConfig) {ops : List CacheOp}
    (hops : ∀ op ∈ ops, op.NamesServers) {S : CacheStore}
    (hS : ops.foldl CacheStore.apply (init config) = S) :
    (∀ toolName serverId key, isServerId serverId = true →
      (S.toolIndex.Lists (toolIndexKey toolName serverId) key ↔
        ∃ entry, S.entries.get? key = some entry ∧ entry.IsFor toolName serverId) ∧
      (S.serverIndex.Lists serverId key ↔
        ∃ entry, S.entries.get? key = some entry ∧ entry.serverId = serverId)) ∧
    (∀ toolName serverId, isServerId serverId = true →
      Removes S (fun e => e.IsFor toolName serverId) (S.deleteByTool toolName serverId)) ∧
    ∀ serverId, Removes S (fun e => e.serverId = serverId) (S.deleteByServer serverId) := by
  have hexact : S.Exact := hS ▸ (exact_init config).applyAll ops
  have hnames : S.NamesServers := hS ▸ (namesServers_init config).applyAll hops
  refine ⟨fun toolName serverId key hserver => ⟨?_, hexact.servers serverId key⟩,
    fun toolName serverId hserver => hexact.removes_tool hnames hserver, hexact.removes_server⟩
  rw [hexact.tools]
  refine exists_congr fun entry => and_congr_right fun hentry => ?_
  exact isFor_iff_indexKey (hnames key entry hentry) hserver

section Example

def contactsEntry : CacheEntry where
  result := .obj []
  createdAt := 0
  ttl := 60
  toolName := "list_contacts"
  serverId := "crm"
  origin := 0

theorem indexes_exact_contacts :
    Removes ((init {}).set "k" contactsEntry) (fun e => e.IsFor "list_contacts" "crm")
      (((init {}).set "k" contactsEntry).deleteByTool "list_contacts" "crm") :=
  have hops : ∀ op ∈ [CacheOp.set "k" contactsEntry], op.NamesServers :=
    List.forall_mem_singleton.mpr (show isServerId "crm" = true by decide)
  (indexes_exact {} hops rfl).2.1 _ _ (by decide)

end Example

end CacheStore

end Conduit.Cache
