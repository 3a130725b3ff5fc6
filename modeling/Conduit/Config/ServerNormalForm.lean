import Conduit.Config.Preservation

namespace Conduit.Config

open Json Typed

def ServerObject.toJson (server : ServerObject) : Json :=
  .obj (("id", .str server.id) :: ("url", .str server.url) :: ("cache", server.cache) ::
    server.fields)

section NormalForm

variable (raw : Json)

def isStdio : Bool := raw.get? "transport" = some (.str "stdio")

def normalCommand : Option Json :=
  (raw.get? "command").filter fun value => isStdio raw && value ≠ .str ""

def normalUrl : Option Json :=
  match normalCommand raw with
  | some (.str command) =>
      if raw.get? "url" = some (.str "") then some (.str ("stdio://" ++ command))
      else raw.get? "url"
  | _ => raw.get? "url"

-- what a server entry means to say in a field: the transport where it is not the default, the
-- fields of a process where there is one, and the forwarding of the header where it is asked for
def normalField (key : String) : Option Json :=
  if key = "url" then normalUrl raw
  else if key = "command" then normalCommand raw
  else if key = "transport" ∨ key = "args" ∨ key = "env" then
    (raw.get? key).filter fun _ => isStdio raw
  else if key = "forward_authorization" then (raw.get? key).filter (· = .bool true)
  else raw.get? key

def serverKeys : List String :=
  ["id", "url", "cache", "transport", "command", "args", "env", "headers", "timeout_ms", "replicas",
    "upstream_auth", "forward_authorization", "managed_runtime"]

def normalServer : Json := ofLookup serverKeys (normalField raw)

end NormalForm

section Fields

variable {raw : Json} {key : String}

theorem normalField_plain
    (h : key ∉ ["url", "command", "transport", "args", "env", "forward_authorization"]) :
    normalField raw key = raw.get? key := by
  simp only [List.mem_cons, List.not_mem_nil, not_or] at h
  simp [normalField, h]

theorem normalField_process (h : key ∈ ["transport", "args", "env"]) :
    normalField raw key = (raw.get? key).filter fun _ => isStdio raw := by
  simp only [List.mem_cons, List.not_mem_nil, or_false] at h
  rcases h with rfl | rfl | rfl <;> simp [normalField]

theorem normalField_command : normalField raw "command" = normalCommand raw := by
  simp [normalField]

theorem normalField_url : normalField raw "url" = normalUrl raw := by
  simp [normalField]

theorem normalField_forward :
    normalField raw "forward_authorization" =
      (raw.get? "forward_authorization").filter (· = .bool true) := by
  simp [normalField]

theorem normalField_process_of_stdio (hstdio : isStdio raw = true)
    (h : key ∈ ["transport", "args", "env"]) : normalField raw key = raw.get? key := by
  rw [normalField_process h, hstdio]
  cases raw.get? key <;> rfl

end Fields

section Normalized

variable {host : Host} {raw : Json} {base : String → Option Json}

theorem filled_serverCache (h : serverConfig.accepts raw = true) {d : Option Json} :
    Filled d (raw.get? "cache") (some (serverCache raw)) := by
  obtain ⟨cache, hcache, hs⟩ := Schema.required_of_object (k := "cache") h (by repeat constructor)
  obtain ⟨ttl, httl, hnumber⟩ :=
    Schema.required_of_object (k := "default_ttl") hs (by repeat constructor)
  obtain ⟨n, rfl⟩ := Schema.accepts_number_iff.1 hnumber
  have hid : Keeps (.record toolOverrideConfig) id := fun d v _ => .refl d v
  rw [serverCache, hcache]
  apply Filled.kept
  refine Schema.fills_of_covers hs (.append (.single ?_)
    (covers_defined hs (by repeat constructor) hid) (by decide)) (by decide)
  rw [Option.getD_some, httl]
  exact .refl _ _

theorem normalCommand_of_not_stdio (h : isStdio raw = false) : normalCommand raw = none := by
  rw [normalCommand, h]
  cases raw.get? "command" <;> simp

-- an empty command does not count in the source either
theorem normalCommand_of_stdio (h : serverConfig.accepts raw = true) (hstdio : isStdio raw = true) :
    normalCommand raw = (raw.get? "command").filter Json.truthy := by
  rw [normalCommand, hstdio]
  cases hx : raw.get? "command" with
  | none => rfl
  | some x =>
      have hs := Schema.optional_of_object (k := "command") h (by repeat constructor) hx
      obtain ⟨command, rfl⟩ := Schema.accepts_text_iff.1 hs
      simp [Option.filter, Json.truthy]

theorem normalCommand_cases (h : serverConfig.accepts raw = true) :
    normalCommand raw = none ∨ ∃ command, command ≠ "" ∧ normalCommand raw = some (.str command) := by
  cases hx : normalCommand raw with
  | none => exact .inl rfl
  | some x =>
      obtain ⟨hcommand, hkept⟩ := Option.filter_eq_some_iff.mp hx
      have hs := Schema.optional_of_object (k := "command") h (by repeat constructor) hcommand
      obtain ⟨command, rfl⟩ := Schema.accepts_text_iff.1 hs
      refine .inr ⟨command, ?_, rfl⟩
      rintro rfl
      simp at hkept

theorem orElse_text {value : Option Json} {u : String} (h : value = some (.str u))
    (fallback : Json) : (orElse value fallback).toJsString = u := by
  rw [h]
  rfl

theorem serverUrl_of_command_none {u : String} (hurl : raw.get? "url" = some (.str u))
    (h : isStdio raw = true → (raw.get? "command").filter Json.truthy = none) :
    serverUrl raw = u := by
  rw [serverUrl, orElse_text hurl]
  split
  next htransport hcommand =>
    rw [h (by simp [isStdio, htransport])] at hcommand
    cases hcommand
  next => rfl

theorem serverUrl_of_command {u command : String} (hurl : raw.get? "url" = some (.str u))
    (hstdio : isStdio raw = true)
    (hcommand : (raw.get? "command").filter Json.truthy = some (.str command))
    (hne : command ≠ "") :
    serverUrl raw = if u = "" then "stdio://" ++ command else u := by
  have htransport : raw.get? "transport" = some (.str "stdio") := of_decide_eq_true hstdio
  rw [serverUrl, orElse_text hurl, htransport, hcommand]
  simp only [Json.toJsString, ne_eq, hne, not_false_eq_true, and_true]

theorem normalUrl_eq (h : serverConfig.accepts raw = true) :
    normalUrl raw = some (.str (serverUrl raw)) := by
  obtain ⟨url, hurl, hs⟩ := Schema.required_of_object (k := "url") h (by repeat constructor)
  obtain ⟨u, rfl⟩ := Schema.accepts_text_iff.1 hs
  cases hstdio : isStdio raw with
  | false =>
      rw [normalUrl, normalCommand_of_not_stdio hstdio,
        serverUrl_of_command_none hurl (by simp [hstdio])]
      exact hurl
  | true =>
      rcases normalCommand_cases h with hnone | ⟨command, hne, hcommand⟩
      · have hfilter := (normalCommand_of_stdio h hstdio).symm.trans hnone
        rw [normalUrl, hnone, serverUrl_of_command_none hurl fun _ => hfilter]
        exact hurl
      · have hfilter := (normalCommand_of_stdio h hstdio).symm.trans hcommand
        rw [normalUrl, hcommand, hurl, serverUrl_of_command hurl hstdio hfilter hne]
        by_cases hu : u = ""
        · rw [hu]
          rfl
        · simp [hu]

theorem covers_env (h : serverConfig.accepts raw = true) :
    Covers base raw.get? ["env"] (match raw.get? "env" with
      | some (.obj fields) => [("env", .obj fields)]
      | some (.arr items) => [("env", .arr items)]
      | _ => []) := by
  cases hx : raw.get? "env" with
  | none => exact .absent hx
  | some x =>
      have hs := Schema.optional_of_object (k := "env") h (by repeat constructor) hx
      obtain ⟨fields, rfl, -⟩ := Schema.accepts_record_iff.1 hs
      apply Covers.single
      rw [hx]
      exact .refl _ _

theorem covers_stdioFields (h : serverConfig.accepts raw = true) :
    Covers base (normalField raw) ["transport", "command", "args", "env"] (stdioFields raw) := by
  cases hstdio : isStdio raw with
  | false =>
      have hnone : stdioFields raw = [] := if_neg (of_decide_eq_false hstdio)
      rw [hnone]
      refine ⟨fun k hk => ?_, fun _ _ => rfl⟩
      have hfield : normalField raw k = none := by
        rcases List.mem_cons.mp hk with rfl | hk
        · rw [normalField_process (by simp), hstdio]
          cases raw.get? "transport" <;> rfl
        rcases List.mem_cons.mp hk with rfl | hk
        · rw [normalField_command, normalCommand_of_not_stdio hstdio]
        · rw [normalField_process (List.mem_cons_of_mem _ hk), hstdio]
          cases raw.get? k <;> rfl
      rw [hfield]
      exact .absent
  | true =>
      have htransport : raw.get? "transport" = some (.str "stdio") := of_decide_eq_true hstdio
      rw [stdioFields, if_pos htransport]
      refine ((Covers.single ?_).append (covers_option ?_) (by decide)).append
        ((covers_itemsOf h (by repeat constructor) keepsItems_texts).congr ?_) (by decide)
        |>.append ?_ (by decide)
      · rw [normalField_process_of_stdio hstdio (by simp), htransport]
        exact .refl _ _
      · rw [normalField_command, normalCommand_of_stdio h hstdio]
        refine filled_map (fun x hx => ?_) keeps_text
        exact Schema.optional_of_object (k := "command") h (by repeat constructor)
          (Option.filter_eq_some_iff.mp hx).1
      · intro k hk
        cases List.mem_singleton.mp hk
        exact normalField_process_of_stdio hstdio (by simp)
      · refine (covers_env h).congr ?_
        intro k hk
        cases List.mem_singleton.mp hk
        exact normalField_process_of_stdio hstdio (by simp)

theorem filled_normalField {key : String}
    (hkey : key ∉ ["url", "command", "transport", "args", "env", "forward_authorization"])
    {d value : Option Json} (h : Filled d (raw.get? key) value) :
    Filled d (normalField raw key) value :=
  normalField_plain hkey ▸ h

theorem covers_normalField {ks : List String} {fields : Fields}
    (hks : ∀ k ∈ ks,
      k ∉ ["url", "command", "transport", "args", "env", "forward_authorization"])
    (h : Covers base raw.get? ks fields) : Covers base (normalField raw) ks fields :=
  h.congr fun k hk => normalField_plain (hks k hk)

theorem covers_forward :
    Covers base (normalField raw) ["forward_authorization"]
      (if raw.get? "forward_authorization" = some (.bool true) then
        [("forward_authorization", .bool true)] else []) := by
  by_cases hforward : raw.get? "forward_authorization" = some (.bool true)
  · rw [if_pos hforward]
    apply Covers.single
    rw [normalField_forward, hforward]
    exact .refl _ _
  · rw [if_neg hforward]
    apply Covers.absent
    rw [normalField_forward]
    cases hx : raw.get? "forward_authorization" with
    | none => rfl
    | some x =>
        rw [hx] at hforward
        simpa [Option.filter] using hforward

theorem normalizeServer_eq (host : Host) (h : serverConfig.accepts raw = true)
    (base : String → Option Json) :
    ∃ server, normalizeServer host raw = some server ∧
      Covers base (normalField raw) serverKeys
        (("id", .str server.id) :: ("url", .str server.url) :: ("cache", server.cache) ::
          server.fields) := by
  have hnull : raw ≠ .null := by
    rintro rfl
    cases h
  have hid : Filled (base "id") (raw.get? "id") (some (textOr raw "id" "")) :=
    filled_textOr h (by repeat constructor) keeps_text
  have hurl : Filled (base "url") (normalField raw "url") (some (.str (serverUrl raw))) := by
    rw [normalField_url, normalUrl_eq h]
    exact .refl _ _
  have hheaders : Covers base (normalField raw) ["headers"] (objectOf raw "headers" headerTexts) :=
    covers_normalField (by decide) (covers_objectOf h (by repeat constructor)
      (fun _ => isPlainObject_of_record) keeps_headerTexts)
  have htimeout : Covers base (normalField raw) ["timeout_ms"]
      (defined raw "timeout_ms" (number host)) :=
    covers_normalField (by decide) (covers_defined h (by repeat constructor) (keeps_number host))
  have hreplicas : Covers base (normalField raw) ["replicas"] (itemsOf raw "replicas" texts) :=
    covers_normalField (by decide) (covers_itemsOf h (by repeat constructor) keepsItems_texts)
  have hauth : Covers base (normalField raw) ["upstream_auth"]
      (objectOf raw "upstream_auth" normalizeUpstreamAuth) :=
    covers_normalField (by decide) (covers_objectOf h (by repeat constructor)
      (fun _ => isPlainObject_of_object) keeps_normalizeUpstreamAuth)
  have hruntime : Covers base (normalField raw) ["managed_runtime"]
      (objectOf raw "managed_runtime" normalizeManagedRuntimeServer) :=
    covers_normalField (by decide) (covers_objectOf h (by repeat constructor)
      (fun _ => isPlainObject_of_object) keeps_normalizeManagedRuntimeServer)
  refine ⟨_, if_neg hnull, .cons (filled_normalField (by decide) hid) (.cons hurl
    (.cons (filled_normalField (by decide) (filled_serverCache h)) ?_ (by decide)) (by decide))
    (by decide)⟩
  exact ((((((covers_stdioFields h).append hheaders (by decide)).append htimeout
    (by decide)).append hreplicas (by decide)).append hauth (by decide)).append covers_forward
    (by decide)).append hruntime (by decide)

theorem get?_normalServer (key : String) :
    (normalServer raw).get? key = if key ∈ serverKeys then normalField raw key else none :=
  get?_ofLookup _ _ key

theorem fills_normalServer (host : Host) (h : serverConfig.accepts raw = true) (d : Option Json) :
    ∃ server, normalizeServer host raw = some server ∧ Fills d (normalServer raw) server.toJson := by
  obtain ⟨server, hserver, hcovers⟩ := normalizeServer_eq host h fun k => d.bind fun x => x.get? k
  refine ⟨server, hserver, Fills.of_fields fun k => ?_⟩
  have hlook : Covers _ (normalServer raw).get? serverKeys _ :=
    hcovers.congr fun k hk => (get?_normalServer k).trans (if_pos hk)
  exact hlook.filled (fun k hk => (get?_normalServer k).trans (if_neg hk)) k

theorem get?_of_normalField {key : String} {x : Json} (hkey : key ≠ "url")
    (h : normalField raw key = some x) : raw.get? key = some x := by
  rw [normalField, if_neg hkey] at h
  split at h
  next hcommand =>
    rw [normalCommand, Option.filter_eq_some_iff] at h
    exact hcommand ▸ h.1
  next =>
    split at h
    · exact (Option.filter_eq_some_iff.mp h).1
    · split at h
      · exact (Option.filter_eq_some_iff.mp h).1
      · exact h

theorem accepts_normalServer (h : serverConfig.accepts raw = true) :
    serverConfig.accepts (normalServer raw) = true := by
  obtain ⟨id, hid, hidText⟩ := Schema.required_of_object (k := "id") h (by repeat constructor)
  obtain ⟨cache, hcache, hs⟩ := Schema.required_of_object (k := "cache") h (by repeat constructor)
  refine Schema.accepts_object_of_get? ⟨_, rfl⟩ ?_ ?_ ?_
  · intro e he
    simp only [List.mem_cons, List.not_mem_nil, or_false] at he
    rcases he with rfl | rfl | rfl
    · refine ⟨id, ?_, hidText⟩
      rw [get?_normalServer, if_pos (by decide), normalField_plain (by decide), hid]
    · refine ⟨.str (serverUrl raw), ?_, rfl⟩
      rw [get?_normalServer, if_pos (by decide), normalField_url, normalUrl_eq h]
    · refine ⟨cache, ?_, hs⟩
      rw [get?_normalServer, if_pos (by decide), normalField_plain (by decide), hcache]
  · intro e he x hx
    have hurl : e.1 ≠ "url" := by
      intro heq
      have hmem := List.mem_map_of_mem (f := Prod.fst) he
      rw [heq] at hmem
      revert hmem
      decide
    rw [get?_normalServer] at hx
    split at hx
    next => exact Schema.optional_of_object h he (get?_of_normalField hurl hx)
    next => cases hx
  · intro k x hx
    rw [get?_normalServer] at hx
    split at hx
    next hk =>
      clear hx x
      revert k
      decide
    next => cases hx

end Normalized

section Settled

variable {raw w : Json}

theorem leaf_of_text {x : Json} (h : Schema.text.accepts x = true) : Leaf x := by
  obtain ⟨s, rfl⟩ := Schema.accepts_text_iff.1 h
  trivial

theorem get?_eq_of_leaf (hfills : Fills none (normalServer raw) w) {key : String}
    (hkey : key ∈ serverKeys) (hleaf : ∀ x, normalField raw key = some x → Leaf x) :
    w.get? key = normalField raw key := by
  have hfilled : Filled none ((normalServer raw).get? key) (w.get? key) := hfills.get? key
  rw [get?_normalServer, if_pos hkey] at hfilled
  exact hfilled.eq_of_leaf hleaf

theorem isStdio_normal (h : serverConfig.accepts raw = true)
    (hfills : Fills none (normalServer raw) w) : isStdio w = isStdio raw := by
  have htransport : w.get? "transport" = (raw.get? "transport").filter fun _ => isStdio raw := by
    rw [get?_eq_of_leaf hfills (by decide), normalField_process (by simp)]
    intro x hx
    have hget := get?_of_normalField (by decide) hx
    exact leaf_of_text (Schema.accepts_text_of_oneOf
      (Schema.optional_of_object (k := "transport") h (by repeat constructor) hget))
  rw [isStdio, htransport]
  cases hstdio : isStdio raw with
  | false => cases raw.get? "transport" <;> simp
  | true =>
      rw [of_decide_eq_true hstdio]
      rfl

theorem normalCommand_normal (h : serverConfig.accepts raw = true)
    (hfills : Fills none (normalServer raw) w) :
    w.get? "command" = normalCommand raw ∧ normalCommand w = normalCommand raw := by
  have hcommand : w.get? "command" = normalCommand raw := by
    rw [get?_eq_of_leaf hfills (by decide), normalField_command]
    intro x hx
    rcases normalCommand_cases h with hnone | ⟨command, -, hsome⟩
    · rw [normalField_command, hnone] at hx
      cases hx
    · rw [normalField_command, hsome] at hx
      cases hx
      trivial
  refine ⟨hcommand, ?_⟩
  rw [normalCommand, isStdio_normal h hfills, hcommand, normalCommand, Option.filter_filter]
  simp only [Bool.and_self]

theorem normalUrl_normal (h : serverConfig.accepts raw = true)
    (hfills : Fills none (normalServer raw) w) : normalUrl w = w.get? "url" := by
  have hurl : w.get? "url" = normalUrl raw := by
    rw [get?_eq_of_leaf hfills (by decide), normalField_url]
    intro x hx
    rw [normalField_url, normalUrl_eq h] at hx
    cases hx
    trivial
  rw [normalUrl, (normalCommand_normal h hfills).2]
  split
  next command hcommand =>
    -- the address of a process is never empty
    have hne : normalUrl raw ≠ some (.str "") := by
      rw [normalUrl, hcommand]
      by_cases hempty : raw.get? "url" = some (.str "")
      · simp [hempty]
      · simp [hempty]
    rw [hurl, if_neg hne]
  next => rfl

-- an entry in normal form says what it means
theorem normalField_normal (h : serverConfig.accepts raw = true)
    (hfills : Fills none (normalServer raw) w) {key : String} (hkey : key ∈ serverKeys) :
    normalField w key = w.get? key := by
  have hstdio := isStdio_normal h hfills
  by_cases hurl : key = "url"
  · rw [hurl, normalField_url, normalUrl_normal h hfills]
  by_cases hcommand : key = "command"
  · obtain ⟨hget, hnormal⟩ := normalCommand_normal h hfills
    rw [hcommand, normalField_command, hnormal, hget]
  by_cases hprocess : key ∈ ["transport", "args", "env"]
  · rw [normalField_process hprocess, hstdio]
    cases hraw : isStdio raw with
    | true => cases w.get? key <;> rfl
    | false =>
        have hnone : normalField raw key = none := by
          rw [normalField_process hprocess, hraw]
          cases raw.get? key <;> rfl
        have hw : w.get? key = none := by
          rw [get?_eq_of_leaf hfills hkey (by simp [hnone]), hnone]
        rw [hw]
        rfl
  by_cases hforward : key = "forward_authorization"
  · have hw : w.get? key = (raw.get? key).filter (· = .bool true) := by
      subst hforward
      rw [get?_eq_of_leaf hfills hkey, normalField_forward]
      intro x hx
      rw [normalField_forward, Option.filter_eq_some_iff] at hx
      rw [of_decide_eq_true hx.2]
      trivial
    rw [hw, hforward, normalField_forward, ← hforward, hw, Option.filter_filter]
    simp only [Bool.and_self]
  · exact normalField_plain (by simp_all)

-- an object that is its own normal form
def Settled (v : Json) : Prop :=
  ∃ fields, v = .obj fields ∧ ∀ key, Json.field fields key = (normalServer v).get? key

theorem settled_toJson {host : Host} {server : ServerObject} (h : serverConfig.accepts raw = true)
    (hserver : normalizeServer host raw = some server) : Settled server.toJson := by
  obtain ⟨server', hserver', hfills⟩ := fills_normalServer host h none
  cases hserver.symm.trans hserver'
  have haccepts : serverConfig.accepts server.toJson = true :=
    serverConfig.stable none _ _ (accepts_normalServer h) nofun hfills
  refine ⟨_, rfl, fun key => ?_⟩
  rw [get?_normalServer]
  split
  next hkey => exact (normalField_normal h hfills hkey).symm
  next hkey =>
    refine Schema.closed_of_object haccepts fun hmem => hkey ?_
    clear hkey
    revert key
    decide

theorem Settled.fills {d : Option Json} (h : Settled w) {v : Json}
    (hfills : Fills d (normalServer w) v) : Fills d w v := by
  obtain ⟨fields, rfl, hsame⟩ := h
  exact Fills.of_same hsame hfills

end Settled

section Entries

variable {host : Host} {items : List Json}

theorem mapM_normalizeServer (host : Host) (h : ∀ x ∈ items, serverConfig.accepts x = true) :
    ∃ servers, items.mapM (normalizeServer host) = some servers ∧
      List.Forall₂ (fun raw server => normalizeServer host raw = some server) items servers := by
  induction items with
  | nil => exact ⟨[], rfl, .nil⟩
  | cons raw items ih =>
      obtain ⟨server, hserver, -⟩ := fills_normalServer host (h raw (by simp)) none
      obtain ⟨servers, hservers, hall⟩ := ih fun x hx => h x (List.mem_cons_of_mem _ hx)
      refine ⟨server :: servers, ?_, .cons hserver hall⟩
      rw [List.mapM_cons, hserver, hservers]
      rfl

theorem forall₂_fills_entries {servers : List ServerObject}
    (h : ∀ x ∈ items, serverConfig.accepts x = true)
    (hall : List.Forall₂ (fun raw server => normalizeServer host raw = some server) items servers) :
    List.Forall₂ (Fills none) (items.map normalServer) (servers.map ServerObject.toJson) := by
  induction hall with
  | nil => exact .nil
  | @cons raw server items servers hserver _ ih =>
      obtain ⟨server', hserver', hfills⟩ :=
        fills_normalServer host (h raw (by simp)) none
      cases hserver.symm.trans hserver'
      exact .cons hfills (ih fun x hx => h x (List.mem_cons_of_mem _ hx))

theorem settled_entries {servers : List ServerObject}
    (h : ∀ x ∈ items, serverConfig.accepts x = true)
    (hall : List.Forall₂ (fun raw server => normalizeServer host raw = some server) items servers) :
    ∀ x ∈ servers.map ServerObject.toJson, Settled x := by
  induction hall with
  | nil => exact nofun
  | @cons raw server items servers hserver _ ih =>
      intro x hx
      rcases List.mem_cons.mp hx with rfl | hx
      · exact settled_toJson (h raw (by simp)) hserver
      · exact ih (fun x hx => h x (List.mem_cons_of_mem _ hx)) x hx

theorem fills_settled {d : Option Json} {v : Json} (h : ∀ x ∈ items, Settled x)
    (hfills : Fills d (.arr (items.map normalServer)) v) : Fills d (.arr items) v := by
  obtain ⟨ws, rfl, hlength, hitem⟩ := hfills.items
  refine Fills.arr d ((List.length_map _).symm.trans hlength) ?_
  intro i x w hx hw
  refine (h x (List.mem_of_getElem? hx)).fills (hitem i (normalServer x) w ?_ hw)
  rw [List.getElem?_map, hx]
  rfl

end Entries

end Conduit.Config
