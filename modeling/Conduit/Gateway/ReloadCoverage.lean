import Conduit.Gateway.ReloadUnchanged

namespace Conduit.Gateway

open Config

section Servers

def newcomers (registered : List String) : List ServerObject → List ServerObject
  | [] => []
  | s :: rest =>
      match clientError? s, registryError? registered s.id with
      | none, none => s :: newcomers (registered ++ [s.id]) rest
      | _, _ => newcomers registered rest

def refusals (registered : List String) : List ServerObject → List ReloadNote
  | [] => []
  | s :: rest =>
      match clientError? s, registryError? registered s.id with
      | some error, _ => .notAdded s.id error :: refusals registered rest
      | none, some error => .notAdded s.id error :: refusals registered rest
      | none, none => refusals (registered ++ [s.id]) rest

-- the cache settings that entries of one id leave, one replacing the other when its text differs
def settle (current : Json) (caches : List Json) : Json :=
  caches.foldl (fun cur cache => if cache.stringify = cur.stringify then cur else cache) current

def cachesOf (servers : List ServerObject) (id : String) : List Json :=
  (servers.filter fun s => s.id = id).map ServerObject.cache

def withCache (servers : List ServerObject) (server : ServerObject) : List ServerObject :=
  match findServer servers server.id with
  | none => servers
  | some current =>
      if server.cache.stringify = current.cache.stringify then servers
      else updateFirst servers server.id fun s => { s with cache := server.cache }

theorem findServer_append (xs ys : List ServerObject) (id : String) :
    findServer (xs ++ ys) id = (findServer xs id).or (findServer ys id) :=
  List.find?_append

theorem findServer_eq_none {servers : List ServerObject} {id : String} :
    findServer servers id = none ↔ id ∉ serverIds servers := by
  simp [findServer, serverIds]

theorem id_of_findServer {servers : List ServerObject} {id : String} {server : ServerObject}
    (h : findServer servers id = some server) : server.id = id := by
  simpa using List.find?_some h

theorem findServer_filter (servers : List ServerObject) (p : String → Bool) (id : String) :
    findServer (servers.filter fun s => p s.id) id =
      if p id then findServer servers id else none := by
  induction servers with
  | nil => simp [findServer]
  | cons s rest ih =>
      unfold findServer at ih ⊢
      by_cases hs : p s.id
      · rw [List.filter_cons_of_pos (by simpa using hs)]
        by_cases heq : s.id = id
        · subst heq
          simp [hs]
        · rw [List.find?_cons_of_neg (by simpa using heq), ih,
            List.find?_cons_of_neg (by simpa using heq)]
      · rw [List.filter_cons_of_neg (by simpa using hs), ih]
        by_cases heq : s.id = id
        · subst heq
          simp [hs]
        · rw [List.find?_cons_of_neg (by simpa using heq)]

theorem cachesOf_filter (servers : List ServerObject) (p : String → Bool) {id : String}
    (h : p id = true) : cachesOf (servers.filter fun s => p s.id) id = cachesOf servers id := by
  unfold cachesOf
  rw [List.filter_filter]
  congr 1
  refine List.filter_congr fun s _ => ?_
  by_cases heq : s.id = id
  · simp [heq, h]
  · simp [heq]

theorem refused_of_registered {registered : List String} {servers : List ServerObject} {id : String}
    (hregistered : id ∈ registered) (hid : id ∈ serverIds servers) :
    ∃ error, ReloadNote.notAdded id error ∈ refusals registered servers := by
  induction servers generalizing registered with
  | nil => cases hid
  | cons s rest ih =>
      by_cases heq : s.id = id
      · subst heq
        have hrefused : registryError? registered s.id ≠ none := by
          simp [registryError?, hregistered]
        unfold refusals
        split
        · exact ⟨_, List.mem_cons_self ..⟩
        · exact ⟨_, List.mem_cons_self ..⟩
        next _ hnone => exact absurd hnone hrefused
      · have hrest : id ∈ serverIds rest := by
          rcases List.mem_cons.mp hid with h | h
          · exact absurd h.symm heq
          · exact h
        unfold refusals
        split
        · obtain ⟨error, herror⟩ := ih hregistered hrest
          exact ⟨error, List.mem_cons_of_mem _ herror⟩
        · obtain ⟨error, herror⟩ := ih hregistered hrest
          exact ⟨error, List.mem_cons_of_mem _ herror⟩
        · exact ih (List.mem_append_left _ hregistered) hrest

theorem findServer_newcomers {registered : List String} {servers : List ServerObject} {id : String}
    (hnone : ∀ error, ReloadNote.notAdded id error ∉ refusals registered servers) :
    findServer (newcomers registered servers) id = findServer servers id ∧
      ∀ s, findServer servers id = some s → cachesOf servers id = [s.cache] := by
  induction servers generalizing registered with
  | nil => exact ⟨rfl, fun s h => by cases h⟩
  | cons s rest ih =>
      have hskip (hne : s.id ≠ id) : findServer (s :: rest) id = findServer rest id ∧
          cachesOf (s :: rest) id = cachesOf rest id := by
        simp [findServer, cachesOf, hne]
      unfold refusals at hnone
      unfold newcomers
      split at hnone
      next hclient =>
        have hne : s.id ≠ id := by
          rintro rfl
          exact hnone _ (List.mem_cons_self ..)
        rw [(hskip hne).1, (hskip hne).2, hclient]
        exact ih fun e he => hnone e (List.mem_cons_of_mem _ he)
      next hclient hregistry =>
        have hne : s.id ≠ id := by
          rintro rfl
          exact hnone _ (List.mem_cons_self ..)
        rw [(hskip hne).1, (hskip hne).2, hclient, hregistry]
        exact ih fun e he => hnone e (List.mem_cons_of_mem _ he)
      next hclient hregistry =>
        rw [hclient, hregistry]
        by_cases heq : s.id = id
        · subst heq
          have hlast : s.id ∉ serverIds rest := by
            intro hrest
            obtain ⟨error, herror⟩ := refused_of_registered
              (List.mem_append_right registered (List.mem_singleton_self s.id)) hrest
            exact hnone error herror
          have hnil : rest.filter (fun t => t.id = s.id) = [] := by
            refine List.filter_eq_nil_iff.mpr fun t ht => ?_
            have hne : t.id ≠ s.id := fun h => hlast (h ▸ List.mem_map_of_mem ht)
            simpa using hne
          have hfirst : findServer (s :: rest) s.id = some s := by simp [findServer]
          refine ⟨by simp [findServer], fun t ht => ?_⟩
          obtain rfl := Option.some.inj (hfirst.symm.trans ht)
          simp [cachesOf, hnil]
        · rw [(hskip heq).1, (hskip heq).2]
          obtain ⟨hfind, hcaches⟩ := ih hnone
          refine ⟨?_, hcaches⟩
          rw [← hfind]
          simp [findServer, heq]

theorem findServer_updateFirst (servers : List ServerObject) (key id : String) (cache : Json) :
    findServer (updateFirst servers key fun s => { s with cache := cache }) id =
      if key = id then (findServer servers id).map fun s => { s with cache := cache }
      else findServer servers id := by
  induction servers with
  | nil => simp [updateFirst, findServer]
  | cons s rest ih =>
      unfold findServer at ih ⊢
      by_cases hs : s.id = key
      · by_cases hkey : key = id
        · simp [updateFirst, hs, hkey]
        · simp [updateFirst, hs, hkey]
      · by_cases hid : s.id = id
        · have hne : key ≠ id := fun h => hs (hid.trans h.symm)
          simp [updateFirst, hid, hne, hne.symm]
        · simp [updateFirst, hs, hid, ih]

theorem findServer_withCache (servers : List ServerObject) (server : ServerObject) (id : String) :
    findServer (withCache servers server) id =
      (findServer servers id).map fun s =>
        if server.id = id then { s with cache := settle s.cache [server.cache] } else s := by
  unfold withCache
  by_cases hid : server.id = id
  · subst hid
    cases hfind : findServer servers server.id with
    | none => simp [hfind]
    | some current =>
        by_cases hsame : server.cache.stringify = current.cache.stringify
        · simp [hsame, hfind, settle]
        · simp only [hsame, if_false]
          rw [findServer_updateFirst, if_pos rfl, hfind]
          simp [settle, hsame]
  · have hkeep : (findServer servers id).map (fun s =>
        if server.id = id then { s with cache := settle s.cache [server.cache] } else s) =
        findServer servers id := by
      simp [hid]
    rw [hkeep]
    split
    · rfl
    · split
      · rfl
      · rw [findServer_updateFirst, if_neg hid]

theorem findServer_foldl_withCache (entries servers : List ServerObject) (id : String) :
    findServer (entries.foldl withCache servers) id =
      (findServer servers id).map fun s =>
        { s with cache := settle s.cache (cachesOf entries id) } := by
  induction entries generalizing servers with
  | nil => simp [cachesOf, settle]
  | cons entry entries ih =>
      rw [List.foldl_cons, ih, findServer_withCache, Option.map_map]
      congr 1
      funext s
      by_cases hid : entry.id = id
      · simp [cachesOf, settle, hid]
      · simp [cachesOf, hid]

end Servers

section Steps

def Flagged (S : ReloadState) (note : ReloadNote) : Prop :=
  note ∈ S.report.skipped ∨ note ∈ S.report.errors

variable (N : ConfigObject) (S : ReloadState) (note : ReloadNote)

@[simp] theorem flagged_reloads (other : ReloadNote) :
    Flagged (S.reloads note) other ↔ Flagged S other := Iff.rfl

@[simp] theorem flagged_skips (other : ReloadNote) :
    Flagged (S.skips note) other ↔ Flagged S other ∨ other = note := by
  simp [Flagged, ReloadState.skips, or_right_comm]

@[simp] theorem flagged_fails (other : ReloadNote) :
    Flagged (S.fails note) other ↔ Flagged S other ∨ other = note := by
  simp [Flagged, ReloadState.fails, or_assoc]

-- a step that only flags, a step that only replaces a section
structure Flags (f : ReloadState → ReloadState) (flag : ReloadState → ReloadNote → Prop) : Prop where
  config : ∀ S, (f S).config = S.config
  registered : ∀ S, (f S).registered = S.registered
  flagged : ∀ S note, Flagged (f S) note ↔ Flagged S note ∨ flag S note
  reloaded : ∀ S, (f S).report.reloaded = S.report.reloaded

theorem flags_of_ite {cond : ReloadState → Bool} :
    Flags (fun S => if cond S = true then S else S.skips note)
      fun S other => ¬ cond S = true ∧ other = note where
  config S := by split <;> rfl
  registered S := by split <;> rfl
  flagged S other := by
    split
    next h => simp [h]
    next h => simp [h]
  reloaded S := by split <;> rfl

theorem flags_listening : Flags (flagListening N) fun S note =>
    ¬ (sameValue (Json.field N.gateway "port") (Json.field S.config.gateway "port") &&
      sameValue (Json.field N.gateway "host") (Json.field S.config.gateway "host")) = true ∧
    note = .listening :=
  flags_of_ite _

theorem flags_tls : Flags (flagTls N) fun S note =>
    ¬ sameText (Json.field N.gateway "tls") (Json.field S.config.gateway "tls") = true ∧
    note = .tls :=
  flags_of_ite _

theorem flags_auth : Flags (flagAuth N) fun S note =>
    ¬ sameValue (authMethod N.auth) (authMethod S.config.auth) = true ∧ note = .authMethod :=
  flags_of_ite _

theorem flags_url (server : ServerObject) : Flags (fun S => flagUrl S server) fun S note =>
    ¬ SameUrl server S ∧ note = .serverUrl server.id where
  config S := by
    unfold flagUrl
    split
    · rfl
    · split <;> rfl
  registered S := by
    unfold flagUrl
    split
    · rfl
    · split <;> rfl
  flagged S other := by
    have hsilent := (silent_flagUrl server).silent S
    by_cases h : SameUrl server S
    · rw [hsilent h]
      simp [h]
    · have hflag : flagUrl S server = S.skips (.serverUrl server.id) := by
        unfold flagUrl
        split
        next hnone => exact absurd (fun current hcurrent => by simp [hnone] at hcurrent) h
        next current hcurrent =>
          refine if_neg fun hsame => h fun other hother => ?_
          rw [← Option.some.inj (hcurrent.symm.trans hother)]
          exact hsame
      rw [hflag, flagged_skips]
      simp [h]
  reloaded S := by
    unfold flagUrl
    split
    · rfl
    · split <;> rfl

theorem flags_urls : Flags (flagUrls N) fun S note =>
    ∃ server ∈ N.servers, ¬ SameUrl server S ∧ note = .serverUrl server.id := by
  unfold flagUrls
  induction N.servers with
  | nil => exact ⟨fun _ => rfl, fun _ => rfl, fun S note => by simp, fun _ => rfl⟩
  | cons server servers ih =>
      have hone := flags_url server
      refine ⟨fun S => ?_, fun S => ?_, fun S note => ?_, fun S => ?_⟩
      · rw [List.foldl_cons, ih.config, hone.config]
      · rw [List.foldl_cons, ih.registered, hone.registered]
      · have hsame : ∀ s, SameUrl s (flagUrl S server) ↔ SameUrl s S := by
          intro s
          unfold SameUrl
          rw [hone.config S]
        rw [List.foldl_cons, ih.flagged, hone.flagged]
        simp only [hsame, List.mem_cons, exists_eq_or_imp, or_assoc]
      · rw [List.foldl_cons, ih.reloaded, hone.reloaded]

def candidates (C : ConfigObject) : List ServerObject :=
  N.servers.filter fun s => s.id ∉ serverIds C.servers

theorem config_foldl_addServer (servers : List ServerObject) :
    (servers.foldl addServer S).config = { S.config with
      servers := S.config.servers ++ newcomers S.registered servers } ∧
    ∀ note, Flagged (servers.foldl addServer S) note ↔
      Flagged S note ∨ note ∈ refusals S.registered servers := by
  induction servers generalizing S with
  | nil => simp [newcomers, refusals]
  | cons s rest ih =>
      obtain ⟨hconfig, hflagged⟩ := ih (addServer S s)
      rw [List.foldl_cons]
      unfold newcomers refusals
      unfold addServer at hconfig hflagged ⊢
      cases hclient : clientError? s with
      | some error =>
          simp only [hclient] at hconfig hflagged
          refine ⟨hconfig, fun note => (hflagged note).trans ?_⟩
          simp only [flagged_fails, List.mem_cons, or_assoc]
          rfl
      | none =>
          cases hregistry : registryError? S.registered s.id with
          | some error =>
              simp only [hclient, hregistry] at hconfig hflagged
              refine ⟨hconfig, fun note => (hflagged note).trans ?_⟩
              simp only [flagged_fails, List.mem_cons, or_assoc]
              rfl
          | none =>
              simp only [hclient, hregistry] at hconfig hflagged
              refine ⟨hconfig.trans ?_, hflagged⟩
              simp [ReloadState.reloads]

theorem config_foldl_removeServer (servers : List ServerObject) :
    (servers.foldl removeServer S).config = S.config ∧
    ∀ note, Flagged (servers.foldl removeServer S) note ↔ Flagged S note := by
  induction servers generalizing S with
  | nil => simp
  | cons s rest ih =>
      obtain ⟨hconfig, hflagged⟩ := ih (removeServer S s)
      exact ⟨hconfig, hflagged⟩

-- the servers after the additions and the removals
def served (C : ConfigObject) (registered : List String) : List ServerObject :=
  (C.servers ++ newcomers registered (candidates N C)).filter fun s => s.id ∈ serverIds N.servers

theorem config_served : (removeServers N (addServers N S)).config =
      { S.config with servers := served N S.config S.registered } ∧
    ∀ note, Flagged (removeServers N (addServers N S)) note ↔
      Flagged S note ∨ note ∈ refusals S.registered (candidates N S.config) := by
  obtain ⟨hadded, haddedFlags⟩ := config_foldl_addServer S (candidates N S.config)
  have hremoved := config_foldl_removeServer (addServers N S)
    ((addServers N S).config.servers.filter fun s => s.id ∉ serverIds N.servers)
  constructor
  · unfold removeServers
    dsimp only
    rw [hremoved.1, addServers]
    unfold candidates at hadded
    rw [hadded]
    rfl
  · exact fun note => (hremoved.2 note).trans (haddedFlags note)

def chosen (fresh current : Option Json) : Option Json :=
  if sameText fresh current then current else fresh

def governed (C : ConfigObject) : Option Json :=
  if sameGovernanceStore N ⟨C, [], {}⟩ then chosen N.governance C.governance else C.governance

def observability (C : ConfigObject) : Fields :=
  if sameObservability N ⟨C, [], {}⟩ then C.observability else observed N ⟨C, [], {}⟩

theorem config_reloadAcl :
    (reloadAcl N S).config = { S.config with acl := chosen N.acl S.config.acl } := by
  unfold reloadAcl chosen
  split <;> rfl

theorem config_reloadGuardrails : (reloadGuardrails N S).config =
    { S.config with guardrails := chosen N.guardrails S.config.guardrails } := by
  unfold reloadGuardrails chosen
  split <;> rfl

theorem config_reloadGovernance :
    (reloadGovernance N S).config = { S.config with governance := governed N S.config } := by
  have hstore : sameGovernanceStore N S = sameGovernanceStore N ⟨S.config, [], {}⟩ := rfl
  unfold reloadGovernance governed chosen
  rw [hstore]
  split
  · split <;> rfl
  · rfl

theorem config_reloadRateLimits : (reloadRateLimits N S).config =
    { S.config with rateLimits := chosen N.rateLimits S.config.rateLimits } := by
  unfold reloadRateLimits chosen
  split <;> rfl

theorem config_reloadObservability : (reloadObservability N S).config =
    { S.config with observability := observability N S.config } := by
  have hsame : sameObservability N S = sameObservability N ⟨S.config, [], {}⟩ := rfl
  unfold reloadObservability observability
  rw [hsame]
  split <;> rfl

theorem config_reloadCaches (servers : List ServerObject) :
    (servers.foldl reloadCache S).config =
        { S.config with servers := servers.foldl withCache S.config.servers } ∧
      ∀ note, Flagged (servers.foldl reloadCache S) note ↔ Flagged S note := by
  induction servers generalizing S with
  | nil => simp
  | cons s rest ih =>
      obtain ⟨hconfig, hflagged⟩ := ih (reloadCache S s)
      have hstep : (reloadCache S s).config =
            { S.config with servers := withCache S.config.servers s } ∧
          ∀ note, Flagged (reloadCache S s) note ↔ Flagged S note := by
        unfold reloadCache withCache
        cases findServer S.config.servers s.id with
        | none => exact ⟨rfl, fun _ => Iff.rfl⟩
        | some current =>
            by_cases hsame : s.cache.stringify = current.cache.stringify
            · simp [sameText_some, hsame]
            · simp only [sameText_some, hsame, if_false]
              exact ⟨rfl, fun _ => Iff.rfl⟩
      refine ⟨?_, fun note => (hflagged note).trans (hstep.2 note)⟩
      rw [List.foldl_cons, hconfig, hstep.1]
      rfl

theorem flagged_reloadGovernance : Flagged (reloadGovernance N S) note ↔
    Flagged S note ∨ ¬ sameGovernanceStore N S = true ∧ note = .governanceStore := by
  unfold reloadGovernance
  split
  next h =>
    simp only [h, not_true, false_and, or_false]
    split <;> exact Iff.rfl
  next h => simp [h]

theorem flagged_reloadAcl : Flagged (reloadAcl N S) note ↔ Flagged S note := by
  unfold reloadAcl
  split <;> exact Iff.rfl

theorem flagged_reloadGuardrails : Flagged (reloadGuardrails N S) note ↔ Flagged S note := by
  unfold reloadGuardrails
  split <;> exact Iff.rfl

theorem flagged_reloadRateLimits : Flagged (reloadRateLimits N S) note ↔ Flagged S note := by
  unfold reloadRateLimits
  split <;> exact Iff.rfl

theorem flagged_reloadObservability :
    Flagged (reloadObservability N S) note ↔ Flagged S note := by
  unfold reloadObservability
  split <;> exact Iff.rfl

def reread (C : ConfigObject) (registered : List String) : ConfigObject :=
  { C with
    servers := N.servers.foldl withCache (served N C registered)
    acl := chosen N.acl C.acl
    guardrails := chosen N.guardrails C.guardrails
    governance := governed N C
    rateLimits := chosen N.rateLimits C.rateLimits
    observability := observability N C }

theorem config_applyReload : (applyReload N S).config = reread N S.config S.registered := by
  have hflagged : (flagTls N (flagListening N S)).config = S.config ∧
      (flagTls N (flagListening N S)).registered = S.registered := by
    rw [(flags_tls N).config, (flags_tls N).registered, (flags_listening N).config,
      (flags_listening N).registered]
    exact ⟨rfl, rfl⟩
  unfold applyReload reloadCaches
  dsimp only
  rw [(config_reloadCaches _ _).1, config_reloadObservability, config_reloadRateLimits,
    config_reloadGovernance, config_reloadGuardrails, config_reloadAcl, (flags_auth N).config,
    (flags_urls N).config, (config_served N _).1, hflagged.1, hflagged.2]
  rfl

-- what a reload says in skipped or errors
inductive Said (C : ConfigObject) (registered : List String) : ReloadNote → Prop where
  | listening (h : ¬ (sameValue (Json.field N.gateway "port") (Json.field C.gateway "port") &&
      sameValue (Json.field N.gateway "host") (Json.field C.gateway "host")) = true) :
      Said C registered .listening
  | tls (h : ¬ sameText (Json.field N.gateway "tls") (Json.field C.gateway "tls") = true) :
      Said C registered .tls
  | refused {note : ReloadNote} (h : note ∈ refusals registered (candidates N C)) :
      Said C registered note
  | url {server : ServerObject} (hserver : server ∈ N.servers) {current : ServerObject}
      (hcurrent : findServer (served N C registered) server.id = some current)
      (h : current.url ≠ server.url) : Said C registered (.serverUrl server.id)
  | auth (h : ¬ sameValue (authMethod N.auth) (authMethod C.auth) = true) :
      Said C registered .authMethod
  | governance (h : ¬ sameGovernanceStore N ⟨C, [], {}⟩ = true) :
      Said C registered .governanceStore

theorem said_iff {C : ConfigObject} {registered : List String} : Said N C registered note ↔
    (¬ (sameValue (Json.field N.gateway "port") (Json.field C.gateway "port") &&
      sameValue (Json.field N.gateway "host") (Json.field C.gateway "host")) = true ∧
      note = .listening) ∨
    (¬ sameText (Json.field N.gateway "tls") (Json.field C.gateway "tls") = true ∧ note = .tls) ∨
    note ∈ refusals registered (candidates N C) ∨
    (∃ server ∈ N.servers, ¬ SameUrl server ⟨{ C with servers := served N C registered }, [], {}⟩ ∧
      note = .serverUrl server.id) ∨
    (¬ sameValue (authMethod N.auth) (authMethod C.auth) = true ∧ note = .authMethod) ∨
    (¬ sameGovernanceStore N ⟨C, [], {}⟩ = true ∧ note = .governanceStore) := by
  constructor
  · intro h
    cases h with
    | listening h => exact .inl ⟨h, rfl⟩
    | tls h => exact .inr (.inl ⟨h, rfl⟩)
    | refused h => exact .inr (.inr (.inl h))
    | url hserver hcurrent h =>
        exact .inr (.inr (.inr (.inl ⟨_, hserver, fun hsame => h (hsame _ hcurrent), rfl⟩)))
    | auth h => exact .inr (.inr (.inr (.inr (.inl ⟨h, rfl⟩))))
    | governance h => exact .inr (.inr (.inr (.inr (.inr ⟨h, rfl⟩))))
  · rintro (⟨h, rfl⟩ | ⟨h, rfl⟩ | h | ⟨server, hserver, hurl, rfl⟩ | ⟨h, rfl⟩ | ⟨h, rfl⟩)
    · exact .listening h
    · exact .tls h
    · exact .refused h
    · unfold SameUrl at hurl
      push Not at hurl
      obtain ⟨current, hcurrent, hne⟩ := hurl
      exact .url hserver hcurrent hne
    · exact .auth h
    · exact .governance h

theorem flagged_applyReload :
    Flagged (applyReload N S) note ↔ Flagged S note ∨ Said N S.config S.registered note := by
  have hflagged : (flagTls N (flagListening N S)).config = S.config ∧
      (flagTls N (flagListening N S)).registered = S.registered := by
    rw [(flags_tls N).config, (flags_tls N).registered, (flags_listening N).config,
      (flags_listening N).registered]
    exact ⟨rfl, rfl⟩
  have hserved := (config_served N (flagTls N (flagListening N S))).1
  rw [hflagged.1, hflagged.2] at hserved
  have hgovernance (T : ReloadState) (hT : T.config.governance = S.config.governance) :
      sameGovernanceStore N T = sameGovernanceStore N ⟨S.config, [], {}⟩ := by
    unfold sameGovernanceStore
    rw [hT]
  have hurl (server : ServerObject) :
      SameUrl server (removeServers N (addServers N (flagTls N (flagListening N S)))) ↔
        SameUrl server ⟨{ S.config with servers := served N S.config S.registered }, [], {}⟩ := by
    unfold SameUrl
    rw [hserved]
  rw [said_iff]
  unfold applyReload reloadCaches
  dsimp only
  rw [(config_reloadCaches _ _).2, flagged_reloadObservability, flagged_reloadRateLimits,
    flagged_reloadGovernance, flagged_reloadGuardrails, flagged_reloadAcl, (flags_auth N).flagged,
    (flags_urls N).flagged, (config_served N _).2, (flags_tls N).flagged,
    (flags_listening N).flagged, (flags_listening N).config, (flags_urls N).config, hserved,
    hflagged.1, hflagged.2, hgovernance]
  · simp only [hurl, or_assoc]
  · rw [config_reloadGuardrails, config_reloadAcl, (flags_auth N).config, (flags_urls N).config,
      hserved]

end Steps

inductive Section where
  | gateway
  | router
  | cache
  | tenantIsolation
  | observability
  | metrics
  | auth
  | acl
  | rateLimits
  | admin
  | connect
  | identity
  | governance
  | guardrails
  | plugins
  | discovery
deriving DecidableEq

def sectionOf (C : ConfigObject) : Section → Option Json
  | .gateway => some (.obj C.gateway)
  | .router => some (.obj C.router)
  | .cache => some (.obj C.cache)
  | .tenantIsolation => some (.obj C.tenantIsolation)
  | .observability => some (.obj C.observability)
  | .metrics => some (.obj C.metrics)
  | .auth => C.auth
  | .acl => C.acl
  | .rateLimits => C.rateLimits
  | .admin => C.admin
  | .connect => C.connect
  | .identity => C.identity
  | .governance => C.governance
  | .guardrails => C.guardrails
  | .plugins => C.plugins
  | .discovery => C.discovery

-- where two configurations can differ
inductive Part where
  | shell (name : Section)
  | field (name : Section) (key : String)
  | server (id : String)
  | serverField (id key : String)
deriving DecidableEq

-- a value without its properties
def outline : Json → Json
  | .obj _ => .obj []
  | value => value

def property (server : ServerObject) (key : String) : Option Json :=
  Json.field (("id", .str server.id) :: ("url", .str server.url) :: ("cache", server.cache) ::
    server.fields) key

def valueAt (C : ConfigObject) : Part → Option Json
  | .shell name => (sectionOf C name).map outline
  | .field name key => (sectionOf C name).bind (·.get? key)
  | .server id => (findServer C.servers id).map fun _ => .null
  | .serverField id key => (findServer C.servers id).bind (property · key)

def ReloadNote.Names : ReloadNote → Part → Prop
  | .listening, .field .gateway key => key = "port" ∨ key = "host"
  | .tls, .field .gateway key => key = "tls"
  | .authMethod, .shell .auth => True
  | .authMethod, .field .auth key => key = "method"
  | .governanceStore, .shell .governance => True
  | .governanceStore, .field .governance key => key = "enabled" ∨ key = "db_path"
  | .serverUrl id, .serverField id' key => id = id' ∧ key = "url"
  | .notAdded id _, .server id' => id = id'
  | .notAdded id _, .serverField id' _ => id = id'
  | _, _ => False

section Coverage

variable (C N : ConfigObject)

def Applied (S : ReloadState) (part : Part) : Prop :=
  valueAt S.config part = valueAt N part

def Named (S : ReloadState) (part : Part) : Prop := ∃ note, Flagged S note ∧ note.Names part

-- every difference is applied or named, and a reload that says nothing leaves none
structure Covered (S : ReloadState) : Prop where
  accounted : ∀ part, valueAt C part ≠ valueAt N part → Applied N S part ∨ Named S part
  agree : S.report = {} → ∀ part, valueAt C part = valueAt N part

def SameGovernance : Prop :=
  sameGovernanceStore N ⟨C, [], {}⟩ = true ∧ sameText N.governance C.governance = true

-- the differences that the comparisons of reload reach
def Reached : Part → Prop
  | .field .gateway key => key = "port" ∨ key = "host" ∨
      key = "tls" ∧ ¬ sameText (Json.field N.gateway "tls") (Json.field C.gateway "tls") = true
  | .shell .auth => ¬ sameValue (authMethod N.auth) (authMethod C.auth) = true
  | .field .auth key => key = "method"
  | .shell .acl => ¬ sameText N.acl C.acl = true
  | .field .acl _ => ¬ sameText N.acl C.acl = true
  | .shell .guardrails => ¬ sameText N.guardrails C.guardrails = true
  | .field .guardrails _ => ¬ sameText N.guardrails C.guardrails = true
  | .shell .rateLimits => ¬ sameText N.rateLimits C.rateLimits = true
  | .field .rateLimits _ => ¬ sameText N.rateLimits C.rateLimits = true
  | .shell .governance => ¬ SameGovernance C N
  | .field .governance key => key = "enabled" ∨ key = "db_path" ∨
      sameGovernanceStore N ⟨C, [], {}⟩ = true ∧ ¬ sameText N.governance C.governance = true
  | .field .observability key =>
      (key = "log_args" ∨ key = "log_responses" ∨ key = "redact_fields") ∧
        ¬ sameObservability N ⟨C, [], {}⟩ = true
  | .server _ => True
  | .serverField id key =>
      id ∉ serverIds C.servers ∨ id ∉ serverIds N.servers ∨ key = "url" ∨
        key = "cache" ∧ (findServer C.servers id).map
            (fun current => settle current.cache (cachesOf N.servers id)) =
          (findServer N.servers id).map ServerObject.cache
  | _ => False

def Kept (part : Part) : Prop := valueAt C part = valueAt N part ∨ Reached C N part

variable {C N} {registered : List String}

theorem mem_refusals {servers : List ServerObject} {note : ReloadNote}
    (h : note ∈ refusals registered servers) :
    ∃ id error, note = .notAdded id error ∧ id ∈ serverIds servers := by
  induction servers generalizing registered with
  | nil => cases h
  | cons s rest ih =>
      have hlater {registered : List String} (h : note ∈ refusals registered rest) :
          ∃ id error, note = .notAdded id error ∧ id ∈ serverIds (s :: rest) := by
        obtain ⟨id, error, rfl, hid⟩ := ih h
        exact ⟨id, error, rfl, List.mem_cons_of_mem _ hid⟩
      unfold refusals at h
      split at h
      · rcases List.mem_cons.mp h with rfl | h
        · exact ⟨_, _, rfl, List.mem_cons_self ..⟩
        · exact hlater h
      · rcases List.mem_cons.mp h with rfl | h
        · exact ⟨_, _, rfl, List.mem_cons_self ..⟩
        · exact hlater h
      · exact hlater h

theorem named_iff {part : Part} : Named (applyReload N ⟨C, registered, {}⟩) part ↔
    ∃ note, Said N C registered note ∧ note.Names part := by
  refine exists_congr fun note => and_congr_left fun _ => (flagged_applyReload N _ note).trans ?_
  simp [Flagged]

theorem named_shell_iff {name : Section} :
    Named (applyReload N ⟨C, registered, {}⟩) (.shell name) ↔
      name = .auth ∧ ¬ sameValue (authMethod N.auth) (authMethod C.auth) = true ∨
      name = .governance ∧ ¬ sameGovernanceStore N ⟨C, [], {}⟩ = true := by
  rw [named_iff]
  constructor
  · rintro ⟨note, hsaid, hnames⟩
    cases hsaid with
    | listening => cases hnames
    | tls => cases hnames
    | refused h =>
        obtain ⟨id, error, rfl, -⟩ := mem_refusals h
        cases hnames
    | url => cases hnames
    | auth h =>
        cases name with
        | auth => exact .inl ⟨rfl, h⟩
        | _ => cases hnames
    | governance h =>
        cases name with
        | governance => exact .inr ⟨rfl, h⟩
        | _ => cases hnames
  · rintro (⟨rfl, h⟩ | ⟨rfl, h⟩)
    · exact ⟨_, .auth h, trivial⟩
    · exact ⟨_, .governance h, trivial⟩

theorem named_field_iff {name : Section} {key : String} :
    Named (applyReload N ⟨C, registered, {}⟩) (.field name key) ↔
      name = .gateway ∧ (key = "port" ∨ key = "host") ∧
        ¬ (sameValue (Json.field N.gateway "port") (Json.field C.gateway "port") &&
          sameValue (Json.field N.gateway "host") (Json.field C.gateway "host")) = true ∨
      name = .gateway ∧ key = "tls" ∧
        ¬ sameText (Json.field N.gateway "tls") (Json.field C.gateway "tls") = true ∨
      name = .auth ∧ key = "method" ∧
        ¬ sameValue (authMethod N.auth) (authMethod C.auth) = true ∨
      name = .governance ∧ (key = "enabled" ∨ key = "db_path") ∧
        ¬ sameGovernanceStore N ⟨C, [], {}⟩ = true := by
  rw [named_iff]
  constructor
  · rintro ⟨note, hsaid, hnames⟩
    cases hsaid with
    | listening h =>
        cases name with
        | gateway => exact .inl ⟨rfl, hnames, h⟩
        | _ => cases hnames
    | tls h =>
        cases name with
        | gateway => exact .inr (.inl ⟨rfl, hnames, h⟩)
        | _ => cases hnames
    | refused h =>
        obtain ⟨id, error, rfl, -⟩ := mem_refusals h
        cases hnames
    | url => cases hnames
    | auth h =>
        cases name with
        | auth => exact .inr (.inr (.inl ⟨rfl, hnames, h⟩))
        | _ => cases hnames
    | governance h =>
        cases name with
        | governance => exact .inr (.inr (.inr ⟨rfl, hnames, h⟩))
        | _ => cases hnames
  · rintro (⟨rfl, hkey, h⟩ | ⟨rfl, hkey, h⟩ | ⟨rfl, hkey, h⟩ | ⟨rfl, hkey, h⟩)
    · exact ⟨_, .listening h, hkey⟩
    · exact ⟨_, .tls h, hkey⟩
    · exact ⟨_, .auth h, hkey⟩
    · exact ⟨_, .governance h, hkey⟩

theorem named_server_iff {id : String} :
    Named (applyReload N ⟨C, registered, {}⟩) (.server id) ↔
      ∃ error, .notAdded id error ∈ refusals registered (candidates N C) := by
  rw [named_iff]
  constructor
  · rintro ⟨note, hsaid, hnames⟩
    cases hsaid with
    | refused h =>
        obtain ⟨id', error, rfl, -⟩ := mem_refusals h
        obtain rfl : id' = id := hnames
        exact ⟨error, h⟩
    | _ => cases hnames
  · rintro ⟨error, h⟩
    exact ⟨_, .refused h, rfl⟩

theorem named_serverField_iff {id key : String} :
    Named (applyReload N ⟨C, registered, {}⟩) (.serverField id key) ↔
      (∃ error, .notAdded id error ∈ refusals registered (candidates N C)) ∨
      key = "url" ∧ ∃ server ∈ N.servers, server.id = id ∧
        ∃ current, findServer (served N C registered) id = some current ∧
          current.url ≠ server.url := by
  rw [named_iff]
  constructor
  · rintro ⟨note, hsaid, hnames⟩
    cases hsaid with
    | refused h =>
        obtain ⟨id', error, rfl, -⟩ := mem_refusals h
        obtain rfl : id' = id := hnames
        exact .inl ⟨error, h⟩
    | url hserver hcurrent h =>
        obtain ⟨rfl, hkey⟩ := hnames
        exact .inr ⟨hkey, _, hserver, rfl, _, hcurrent, h⟩
    | _ => cases hnames
  · rintro (⟨error, h⟩ | ⟨hkey, server, hserver, rfl, current, hcurrent, h⟩)
    · exact ⟨_, .refused h, rfl⟩
    · exact ⟨_, .url hserver hcurrent h, rfl, hkey⟩

theorem findServer_served (id : String) : findServer (served N C registered) id =
    if id ∈ serverIds N.servers then
      (findServer C.servers id).or (findServer (newcomers registered (candidates N C)) id)
    else none := by
  unfold served
  rw [findServer_filter _ (fun id => decide (id ∈ serverIds N.servers)), findServer_append]
  simp

theorem findServer_reread (id : String) : findServer (reread N C registered).servers id =
    (findServer (served N C registered) id).map fun s =>
      { s with cache := settle s.cache (cachesOf N.servers id) } :=
  findServer_foldl_withCache ..

theorem not_refused {id error : String} (hid : id ∈ serverIds C.servers) :
    ReloadNote.notAdded id error ∉ refusals registered (candidates N C) := by
  intro h
  obtain ⟨id', error', hnote, hmem⟩ := mem_refusals h
  obtain rfl : id = id' := (ReloadNote.notAdded.inj hnote).1
  obtain ⟨s, hs, rfl⟩ := List.mem_map.mp hmem
  have hnew := (List.mem_filter.mp hs).2
  simp [hid] at hnew

theorem findServer_added {id : String} (hold : id ∉ serverIds C.servers)
    (hnone : ∀ error, ReloadNote.notAdded id error ∉ refusals registered (candidates N C)) :
    findServer (reread N C registered).servers id = findServer N.servers id := by
  have hkeep : decide (id ∉ serverIds C.servers) = true := decide_eq_true hold
  have hcandidates : findServer (candidates N C) id = findServer N.servers id := by
    refine (findServer_filter _ (fun id => decide (id ∉ serverIds C.servers)) id).trans ?_
    rw [if_pos hkeep]
  have hcaches : cachesOf (candidates N C) id = cachesOf N.servers id :=
    cachesOf_filter _ (fun id => decide (id ∉ serverIds C.servers)) hkeep
  obtain ⟨hfind, hcache⟩ := findServer_newcomers hnone
  rw [hcandidates] at hfind hcache
  rw [findServer_reread, findServer_served, findServer_eq_none.2 hold, Option.none_or, hfind]
  cases hfresh : findServer N.servers id with
  | none => simp
  | some fresh =>
      have hmem : id ∈ serverIds N.servers := by
        by_contra hnew
        rw [findServer_eq_none.2 hnew] at hfresh
        cases hfresh
      rw [if_pos hmem, ← hcaches, hcache fresh hfresh]
      simp [settle]

theorem findServer_kept {id : String} (hnew : id ∈ serverIds N.servers) {current : ServerObject}
    (hcurrent : findServer C.servers id = some current) :
    findServer (served N C registered) id = some current ∧
      findServer (reread N C registered).servers id =
        some { current with cache := settle current.cache (cachesOf N.servers id) } := by
  rw [findServer_reread, findServer_served, if_pos hnew, hcurrent]
  exact ⟨rfl, rfl⟩

theorem property_cache (s : ServerObject) : property s "cache" = some s.cache := by
  simp [property, Json.field]

theorem property_url (s : ServerObject) : property s "url" = some (.str s.url) := by
  simp [property, Json.field]

theorem property_of_ne (s : ServerObject) (cache : Json) {key : String} (h : key ≠ "cache") :
    property { s with cache := cache } key = property s key := by
  simp [property, Json.field, h.symm]

theorem exists_findServer {servers : List ServerObject} {id : String} (h : id ∈ serverIds servers) :
    ∃ server, findServer servers id = some server := by
  refine Option.ne_none_iff_exists'.mp fun hnone => ?_
  exact findServer_eq_none.1 hnone h

theorem applied_iff {part : Part} : Applied N (applyReload N ⟨C, registered, {}⟩) part ↔
    valueAt (reread N C registered) part = valueAt N part := by
  unfold Applied
  rw [config_applyReload]

theorem applied_removed {id : String} (hnew : id ∉ serverIds N.servers) :
    findServer (reread N C registered).servers id = findServer N.servers id := by
  rw [findServer_reread, findServer_served, if_neg hnew, findServer_eq_none.2 hnew]
  rfl

theorem accounted_server (id : String) :
    Applied N (applyReload N ⟨C, registered, {}⟩) (.server id) ∨
      Named (applyReload N ⟨C, registered, {}⟩) (.server id) := by
  rw [applied_iff, named_server_iff]
  dsimp only [valueAt]
  by_cases hnew : id ∈ serverIds N.servers
  · obtain ⟨fresh, hfresh⟩ := exists_findServer hnew
    by_cases hold : id ∈ serverIds C.servers
    · obtain ⟨current, hcurrent⟩ := exists_findServer hold
      refine .inl ?_
      rw [(findServer_kept hnew hcurrent).2, hfresh]
      rfl
    · by_cases hrefused : ∃ error, .notAdded id error ∈ refusals registered (candidates N C)
      · exact .inr hrefused
      · refine .inl ?_
        rw [findServer_added hold fun error h => hrefused ⟨error, h⟩]
  · exact .inl (by rw [applied_removed hnew])

theorem accounted_serverField {id key : String}
    (hdiffers : valueAt C (.serverField id key) ≠ valueAt N (.serverField id key)) :
    (Applied N (applyReload N ⟨C, registered, {}⟩) (.serverField id key) ∨
      Named (applyReload N ⟨C, registered, {}⟩) (.serverField id key)) ↔
      Reached C N (.serverField id key) := by
  rw [applied_iff, named_serverField_iff]
  dsimp only [valueAt, Reached] at hdiffers ⊢
  by_cases hnew : id ∈ serverIds N.servers
  · obtain ⟨fresh, hfresh⟩ := exists_findServer hnew
    by_cases hold : id ∈ serverIds C.servers
    · obtain ⟨current, hcurrent⟩ := exists_findServer hold
      obtain ⟨hserved, hreread⟩ := @findServer_kept _ _ registered _ hnew _ hcurrent
      rw [hserved, hreread, hcurrent, hfresh]
      rw [hcurrent, hfresh] at hdiffers
      simp only [Option.bind_some, Option.map_some, not_refused hold, exists_false, false_or,
        hold, hnew, not_true] at hdiffers ⊢
      by_cases hurl : key = "url"
      · subst hurl
        rw [property_url, property_url] at hdiffers
        have hne : current.url ≠ fresh.url := fun h => hdiffers (by rw [h])
        refine iff_of_true (.inr ⟨rfl, fresh, ?_, id_of_findServer hfresh, current, rfl, hne⟩)
          (.inl rfl)
        exact List.mem_of_find?_eq_some hfresh
      · by_cases hcache : key = "cache"
        · subst hcache
          simp [property_cache]
        · rw [property_of_ne _ _ hcache]
          simp [hurl, hcache, hdiffers]
    · refine iff_of_true ?_ (.inl hold)
      by_cases hrefused : ∃ error, .notAdded id error ∈ refusals registered (candidates N C)
      · exact .inr (.inl hrefused)
      · refine .inl ?_
        rw [findServer_added hold fun error h => hrefused ⟨error, h⟩]
  · exact iff_of_true (.inl (by rw [applied_removed hnew])) (.inr (.inl hnew))

theorem chosen_iff (g : Option Json → Option Json) {fresh current : Option Json}
    (h : g current ≠ g fresh) : g (chosen fresh current) = g fresh ↔ ¬ sameText fresh current = true := by
  unfold chosen
  split
  next hsame => exact iff_of_false h (not_not_intro hsame)
  next hnew => exact iff_of_true rfl hnew

theorem governed_iff (g : Option Json → Option Json) (h : g C.governance ≠ g N.governance) :
    g (governed N C) = g N.governance ↔
      sameGovernanceStore N ⟨C, [], {}⟩ = true ∧ ¬ sameText N.governance C.governance = true := by
  unfold governed
  split
  next hstore =>
    rw [chosen_iff g h]
    exact ⟨fun hnew => ⟨hstore, hnew⟩, fun hnew => hnew.2⟩
  next hstore => exact iff_of_false h fun hnew => hstore hnew.1

theorem accounted_shell {name : Section}
    (hdiffers : valueAt C (.shell name) ≠ valueAt N (.shell name)) :
    (Applied N (applyReload N ⟨C, registered, {}⟩) (.shell name) ∨
      Named (applyReload N ⟨C, registered, {}⟩) (.shell name)) ↔ Reached C N (.shell name) := by
  rw [applied_iff, named_shell_iff]
  cases name
  case gateway | router | cache | tenantIsolation | observability | metrics =>
    exact absurd rfl hdiffers
  case admin | connect | identity | plugins | discovery =>
    refine iff_of_false ?_ id
    rintro (h | ⟨h, -⟩ | ⟨h, -⟩)
    · exact hdiffers h
    · cases h
    · cases h
  case auth =>
    constructor
    · rintro (h | ⟨-, h⟩ | ⟨h, -⟩)
      · exact absurd h hdiffers
      · exact h
      · cases h
    · exact fun h => .inr (.inl ⟨rfl, h⟩)
  case acl | guardrails | rateLimits =>
    have happlied := chosen_iff (·.map outline) hdiffers
    refine Iff.trans ?_ happlied
    simp only [reduceCtorEq, false_and, or_false]
    exact Iff.rfl
  case governance =>
    have happlied := governed_iff (·.map outline) hdiffers
    constructor
    · rintro (h | ⟨h, -⟩ | ⟨-, h⟩)
      · exact fun hsame => (happlied.mp h).2 hsame.2
      · cases h
      · exact fun hsame => h hsame.1
    · intro h
      by_cases hstore : sameGovernanceStore N ⟨C, [], {}⟩ = true
      · exact .inl (happlied.mpr ⟨hstore, fun htext => h ⟨hstore, htext⟩⟩)
      · exact .inr (.inr ⟨rfl, hstore⟩)

theorem not_sameValue {a b : Option Json} (h : a ≠ b) : ¬ sameValue b a = true := by
  intro hsame
  exact h (of_decide_eq_true (Bool.and_eq_true_iff.mp hsame).1).symm

theorem accounted_gateway {key : String}
    (hdiffers : Json.field C.gateway key ≠ Json.field N.gateway key) :
    (Applied N (applyReload N ⟨C, registered, {}⟩) (.field .gateway key) ∨
      Named (applyReload N ⟨C, registered, {}⟩) (.field .gateway key)) ↔
      Reached C N (.field .gateway key) := by
  rw [applied_iff, named_field_iff]
  dsimp only [Reached]
  constructor
  · rintro (h | ⟨-, hkey | hkey, -⟩ | ⟨-, hkey, h⟩ | ⟨h, -⟩ | ⟨h, -⟩)
    · exact absurd h hdiffers
    · exact .inl hkey
    · exact .inr (.inl hkey)
    · exact .inr (.inr ⟨hkey, h⟩)
    · cases h
    · cases h
  · rintro (rfl | rfl | ⟨rfl, h⟩)
    · refine .inr (.inl ⟨rfl, .inl rfl, fun hsame => ?_⟩)
      exact not_sameValue hdiffers (Bool.and_eq_true_iff.mp hsame).1
    · refine .inr (.inl ⟨rfl, .inr rfl, fun hsame => ?_⟩)
      exact not_sameValue hdiffers (Bool.and_eq_true_iff.mp hsame).2
    · exact .inr (.inr (.inl ⟨rfl, rfl, h⟩))

theorem field_withField (fields : Fields) (key k : String) (value : Option Json) :
    Json.field (withField fields key value) k = if key = k then value else Json.field fields k := by
  cases value with
  | some v => simp [withField, Json.field_setField]
  | none =>
      induction fields with
      | nil => simp [withField, Json.field]
      | cons e fields ih =>
          obtain ⟨k', v⟩ := e
          unfold withField at ih ⊢
          by_cases hkey : k' = key
          · by_cases hk : key = k
            · subst hkey hk
              simpa using ih
            · subst hkey
              simpa [Json.field, hk] using ih
          · by_cases hk : k' = k
            · subst hk
              simp [Json.field, hkey, Ne.symm hkey]
            · simpa [Json.field, hkey, hk] using ih

theorem field_observed (key : String) : Json.field (observed N ⟨C, [], {}⟩) key =
    if key = "log_args" ∨ key = "log_responses" ∨ key = "redact_fields" then
      Json.field N.observability key
    else Json.field C.observability key := by
  unfold observed
  rw [field_withField, field_withField, field_withField]
  by_cases hredact : "redact_fields" = key
  · subst hredact
    simp
  · by_cases hresponses : "log_responses" = key
    · subst hresponses
      simp
    · by_cases hargs : "log_args" = key
      · subst hargs
        simp
      · simp [hredact, hresponses, hargs, Ne.symm hredact, Ne.symm hresponses, Ne.symm hargs]

theorem accounted_observability {key : String}
    (hdiffers : Json.field C.observability key ≠ Json.field N.observability key) :
    (Applied N (applyReload N ⟨C, registered, {}⟩) (.field .observability key) ∨
      Named (applyReload N ⟨C, registered, {}⟩) (.field .observability key)) ↔
      Reached C N (.field .observability key) := by
  have happlied : Json.field (observability N C) key = Json.field N.observability key ↔
      (key = "log_args" ∨ key = "log_responses" ∨ key = "redact_fields") ∧
        ¬ sameObservability N ⟨C, [], {}⟩ = true := by
    unfold observability
    split
    next hsame => exact iff_of_false hdiffers fun h => h.2 hsame
    next hnew =>
      rw [field_observed]
      split
      next hkey => exact iff_of_true rfl ⟨hkey, hnew⟩
      next hkey => exact iff_of_false hdiffers fun h => hkey h.1
  rw [applied_iff, named_field_iff]
  refine Iff.trans ?_ happlied
  simp only [reduceCtorEq, false_and, or_false]
  exact Iff.rfl

theorem accounted_field {name : Section} {key : String}
    (hdiffers : valueAt C (.field name key) ≠ valueAt N (.field name key)) :
    (Applied N (applyReload N ⟨C, registered, {}⟩) (.field name key) ∨
      Named (applyReload N ⟨C, registered, {}⟩) (.field name key)) ↔
      Reached C N (.field name key) := by
  cases name
  case gateway => exact accounted_gateway hdiffers
  case observability => exact accounted_observability hdiffers
  all_goals rw [applied_iff, named_field_iff]
  case router | cache | tenantIsolation | metrics | admin | connect | identity | plugins
      | discovery =>
    refine iff_of_false ?_ id
    rintro (h | ⟨h, -⟩ | ⟨h, -⟩ | ⟨h, -⟩ | ⟨h, -⟩)
    · exact hdiffers h
    · cases h
    · cases h
    · cases h
    · cases h
  case auth =>
    constructor
    · rintro (h | ⟨h, -⟩ | ⟨h, -⟩ | ⟨-, hkey, -⟩ | ⟨h, -⟩)
      · exact absurd h hdiffers
      · cases h
      · cases h
      · exact hkey
      · cases h
    · rintro rfl
      exact .inr (.inr (.inr (.inl ⟨rfl, rfl, not_sameValue hdiffers⟩)))
  case acl | guardrails | rateLimits =>
    have happlied := chosen_iff (·.bind (·.get? key)) hdiffers
    refine Iff.trans ?_ happlied
    simp only [reduceCtorEq, false_and, or_false]
    exact Iff.rfl
  case governance =>
    have happlied := governed_iff (·.bind (·.get? key)) hdiffers
    constructor
    · rintro (h | ⟨h, -⟩ | ⟨h, -⟩ | ⟨h, -⟩ | ⟨-, hkey | hkey, -⟩)
      · exact .inr (.inr (happlied.mp h))
      · cases h
      · cases h
      · cases h
      · exact .inl hkey
      · exact .inr (.inl hkey)
    · rintro (rfl | rfl | h)
      · refine .inr (.inr (.inr (.inr ⟨rfl, .inl rfl, fun hsame => ?_⟩)))
        exact not_sameValue hdiffers (Bool.and_eq_true_iff.mp hsame).1
      · refine .inr (.inr (.inr (.inr ⟨rfl, .inr rfl, fun hsame => ?_⟩)))
        exact not_sameValue hdiffers (Bool.and_eq_true_iff.mp hsame).2
      · exact .inl (happlied.mpr h)

theorem accounted_iff {part : Part} (hdiffers : valueAt C part ≠ valueAt N part) :
    (Applied N (applyReload N ⟨C, registered, {}⟩) part ∨
      Named (applyReload N ⟨C, registered, {}⟩) part) ↔ Reached C N part := by
  cases part with
  | shell name => exact accounted_shell hdiffers
  | field name key => exact accounted_field hdiffers
  | server id => exact iff_of_true (accounted_server id) trivial
  | serverField id key => exact accounted_serverField hdiffers

theorem covered_iff : Covered C N (applyReload N ⟨C, registered, {}⟩) ↔ ∀ part, Kept C N part := by
  constructor
  · intro h part
    refine or_iff_not_imp_left.mpr fun hdiffers => ?_
    exact (accounted_iff hdiffers).mp (h.accounted part hdiffers)
  · intro hkept
    have haccounted : ∀ part, valueAt C part ≠ valueAt N part →
        Applied N (applyReload N ⟨C, registered, {}⟩) part ∨
          Named (applyReload N ⟨C, registered, {}⟩) part :=
      fun part hdiffers => (accounted_iff hdiffers).mpr ((hkept part).resolve_left hdiffers)
    refine ⟨haccounted, fun hquiet part => ?_⟩
    have hsilent := (silent_applyReload N).silent ⟨C, registered, {}⟩
      ((applyReload_quiet_iff rfl).mp hquiet)
    by_contra hdiffers
    have hpart := haccounted part hdiffers
    rw [hsilent] at hpart
    rcases hpart with happlied | ⟨note, hflagged | hflagged, -⟩
    · exact hdiffers happlied
    · cases hflagged
    · cases hflagged

end Coverage

-- what reload loads from a file: a configuration that validation accepts
structure Loads (host : Host) (validateConfig : Validation) (file : FileRead) (N : ConfigObject) :
    Prop where
  merged : ∃ fields, (file = .parsed (.obj fields) ∨ file = .parsed .null ∧ fields = []) ∧
    mergeWithDefaults host (.obj fields) = some N
  valid : validateConfig N = some []

theorem reload_of_loads {host : Host} {validateConfig : Validation} {file : FileRead}
    {N : ConfigObject} (h : Loads host validateConfig file N) (S : ReloadState) :
    reload host validateConfig S file = some (applyReload N S) := by
  obtain ⟨⟨fields, hfile | ⟨hfile, rfl⟩, hmerged⟩, hvalid⟩ := h
  · rw [hfile, reload_of_object (.inl rfl) hmerged, hvalid]
    rfl
  · rw [hfile, reload_of_object (.inr ⟨rfl, rfl⟩) hmerged, hvalid]
    rfl

section Example

def isolated : FileRead :=
  .parsed (.obj [("tenant_isolation", .obj [("enabled", .bool true)])])

end Example

end Conduit.Gateway
