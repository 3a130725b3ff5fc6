import Conduit.Connect.Local
import Conduit.Foundation.JsonParser
import Conduit.Utils.DeepSort

namespace Conduit.Connect

open Json JsonParser
open Utils (protoKey)

-- how the host rounds the number of a text, and what it says of a text that is no JSON
structure JsonHost where
  round : ℚ → JsNumber
  round_round : ∀ q d, round q = .finite d → round d.value = .finite d
  syntaxError : String → String

section Merge

-- servers[key] = v; an inherited setter takes what is assigned to __proto__
def assign (fields : List (String × Json)) (key : String) (v : Json) : List (String × Json) :=
  if key = protoKey ∧ field fields key = none then fields else setProperty fields key v

def assignAll (fields entries : List (String × Json)) : List (String × Json) :=
  entries.foldl (fun fields e => assign fields e.1 e.2) fields

def relayEntry (runtime : Runtime) (installId serverId : String) (includeType : Bool) : Json :=
  let relay := getRelayCommandSpec runtime installId serverId
  .obj ((if includeType then [("type", .str "stdio")] else []) ++
    [("command", .str relay.command), ("args", .arr (relay.args.map .str)), ("env", .obj [])])

def toVsCodeAlias (serverId : String) : String := buildVsCodeAlias serverId

def writeJsonFile (doc : List (String × Json)) : String := (Json.obj doc).indent 0 ++ "\n"

def readObject (doc : List (String × Json)) (key : String) :
    Except String (List (String × Json)) :=
  match field doc key with
  | none => .ok []
  | some (.obj current) => .ok current
  | some _ => .error ("Expected \"" ++ key ++ "\" to be a JSON object")

section Entries

variable (runtime : Runtime) (installId : String) (servers : List ConnectServerBinding)

def mcpServersEntries (includeType : Bool) : List (String × Json) :=
  servers.map fun server =>
    (server.serverAlias, relayEntry runtime installId server.id includeType)

def vsCodeEntries : List (String × Json) :=
  servers.map fun server => (toVsCodeAlias server.id, relayEntry runtime installId server.id true)

end Entries

namespace JsonHost

variable (host : JsonHost)

def readJsonObject (filePath : String) :
    Option String → Except String (List (String × Json))
  | none => .ok []
  | some text =>
      match JsonParser.parse host.round text.toList with
      | none => .error ("Invalid JSON in " ++ filePath ++ ": " ++ host.syntaxError text)
      | some (.obj doc) => .ok doc
      | some _ => .error ("Expected a JSON object in " ++ filePath)

def mergeServersJson (key : String) (entries : List (String × Json)) (filePath : String)
    (file : Option String) : Except String String := do
  let doc ← host.readJsonObject filePath file
  let servers ← readObject doc key
  return writeJsonFile (setProperty doc key (.obj (assignAll servers entries)))

variable (runtime : Runtime) (installId : String) (servers : List ConnectServerBinding)

def mergeMcpServersJson (includeType : Bool) : String → Option String → Except String String :=
  host.mergeServersJson "mcpServers" (mcpServersEntries runtime installId servers includeType)

def mergeVsCodeJson : String → Option String → Except String String :=
  host.mergeServersJson "servers" (vsCodeEntries runtime installId servers)

end JsonHost

end Merge

section Configuration

-- what a client takes from its file: the servers by their names, and what else is in it
structure ClientConfig where
  servers : String → Option Json
  others : String → Option Json

def lastEntry : List (String × Json) → String → Option Json
  | [], _ => none
  | e :: entries, name => (lastEntry entries name).or (if e.1 = name then some e.2 else none)

namespace ClientConfig

variable (config : ClientConfig)

def withServers (entries : List (String × Json)) : ClientConfig :=
  { config with
    servers := fun name =>
      if name = protoKey ∧ config.servers name = none then none
      else (lastEntry entries name).or (config.servers name) }

def written : ClientConfig where
  servers name := (config.servers name).map Json.written
  others name := (config.others name).map Json.written

end ClientConfig

def clientConfigOf (key : String) (doc : List (String × Json)) : Option ClientConfig :=
  (readObject doc key).toOption.map fun servers =>
    ⟨field servers, fun name => if name = key then none else field doc name⟩

def JsonHost.clientConfig (host : JsonHost) (key : String) (file : Option String) :
    Option ClientConfig :=
  (host.readJsonObject "" file).toOption.bind (clientConfigOf key)

end Configuration

section Assignments

theorem uniqueKeys_assign {fields : List (String × Json)} (h : UniqueKeys fields) (key : String)
    (v : Json) : UniqueKeys (assign fields key v) := by
  rw [assign]
  split
  · exact h
  · exact uniqueKeys_setProperty h key v

theorem field_assign {fields : List (String × Json)} (h : UniqueKeys fields) (key name : String)
    (v : Json) :
    field (assign fields key v) name =
      if name = protoKey ∧ field fields name = none then none
      else if key = name then some v else field fields name := by
  rw [assign]
  by_cases hkey : key = name
  · subst hkey
    split
    next hproto => exact hproto.2
    next => rw [field_setProperty h, if_pos rfl]
  · have hsame : field (if key = protoKey ∧ field fields key = none then fields
        else setProperty fields key v) name = field fields name := by
      split
      · rfl
      · rw [field_setProperty h, if_neg hkey]
    rw [hsame, if_neg hkey]
    split
    next hproto => exact hproto.2
    next => rfl

theorem uniqueKeys_assignAll {fields : List (String × Json)} (h : UniqueKeys fields)
    (entries : List (String × Json)) : UniqueKeys (assignAll fields entries) := by
  induction entries generalizing fields with
  | nil => exact h
  | cons e entries ih => exact ih (uniqueKeys_assign h e.1 e.2)

theorem field_assignAll {fields : List (String × Json)} (h : UniqueKeys fields)
    (entries : List (String × Json)) (name : String) :
    field (assignAll fields entries) name =
      if name = protoKey ∧ field fields name = none then none
      else (lastEntry entries name).or (field fields name) := by
  induction entries generalizing fields with
  | nil =>
      split
      next hproto => exact hproto.2
      next => rfl
  | cons e entries ih =>
      have hrest := ih (uniqueKeys_assign h e.1 e.2)
      rw [field_assign h] at hrest
      change field (assignAll (assign fields e.1 e.2) entries) name = _
      rw [hrest]
      by_cases hproto : name = protoKey ∧ field fields name = none
      · rw [if_pos hproto, if_pos ⟨hproto.1, rfl⟩, if_pos hproto]
      · by_cases hname : e.1 = name
        · simp [hproto, hname, lastEntry]
        · simp [hproto, hname, lastEntry]

theorem settled_assign {round : ℚ → JsNumber} {fields : List (String × Json)}
    (h : Settled round (.obj fields)) (key : String) {v : Json} (hv : Settled round v) :
    Settled round (.obj (assign fields key v)) := by
  unfold assign
  split
  · exact h
  · exact settled_setProperty h key hv

theorem settled_assignAll {round : ℚ → JsNumber} {fields entries : List (String × Json)}
    (h : Settled round (.obj fields)) (hentries : ∀ e ∈ entries, Settled round e.2) :
    Settled round (.obj (assignAll fields entries)) := by
  induction entries generalizing fields with
  | nil => exact h
  | cons e entries ih =>
      exact ih (settled_assign h e.1 (hentries e List.mem_cons_self)) fun f hf =>
        hentries f (List.mem_cons_of_mem e hf)

theorem propertyOrder_assign {fields : List (String × Json)}
    (horder : propertyOrder fields = fields) (key : String) (v : Json) :
    propertyOrder (assign fields key v) = assign fields key v := by
  unfold assign
  split
  · exact horder
  · exact propertyOrder_setProperty fields key v

theorem propertyOrder_assignAll {fields : List (String × Json)}
    (horder : propertyOrder fields = fields) (entries : List (String × Json)) :
    propertyOrder (assignAll fields entries) = assignAll fields entries := by
  induction entries generalizing fields with
  | nil => exact horder
  | cons e entries ih => exact ih (propertyOrder_assign horder e.1 e.2)

-- names that are there keep their places
theorem keys_assignAll {fields entries : List (String × Json)}
    (horder : propertyOrder fields = fields)
    (hentries : ∀ e ∈ entries, e.1 = protoKey ∨ e.1 ∈ fields.map Prod.fst) :
    (assignAll fields entries).map Prod.fst = fields.map Prod.fst := by
  induction entries generalizing fields with
  | nil => rfl
  | cons e entries ih =>
      have hrest : ∀ f ∈ entries, f.1 = protoKey ∨ f.1 ∈ fields.map Prod.fst := fun f hf =>
        hentries f (List.mem_cons_of_mem e hf)
      change (assignAll (assign fields e.1 e.2) entries).map Prod.fst = _
      rw [assign]
      split
      next => exact ih horder hrest
      next hassigned =>
        have hmem : e.1 ∈ fields.map Prod.fst := by
          rcases hentries e List.mem_cons_self with hproto | hmem
          · rw [← field_isSome_iff, Option.isSome_iff_ne_none]
            exact fun hnone => hassigned ⟨hproto, hnone⟩
          · exact hmem
        have hkeys := keys_setProperty horder hmem e.2
        rw [ih (propertyOrder_setProperty fields e.1 e.2) (by rw [hkeys]; exact hrest), hkeys]

theorem lastEntry_isSome {entries : List (String × Json)} {e : String × Json} (he : e ∈ entries) :
    (lastEntry entries e.1).isSome = true := by
  induction entries with
  | nil => cases he
  | cons f entries ih =>
      rcases List.mem_cons.mp he with rfl | he
      · simp [lastEntry]
      · simp [lastEntry, ih he]

-- the entries leave what they have made as it is
theorem assignAll_assignAll {fields : List (String × Json)} (hunique : UniqueKeys fields)
    (horder : propertyOrder fields = fields) (entries : List (String × Json)) :
    assignAll (assignAll fields entries) entries = assignAll fields entries := by
  have hunique' := uniqueKeys_assignAll hunique entries
  have horder' := propertyOrder_assignAll horder entries
  apply eq_of_fields (uniqueKeys_assignAll hunique' entries)
  · apply keys_assignAll horder'
    intro e he
    by_cases hproto : e.1 = protoKey
    · exact .inl hproto
    · right
      rw [← field_isSome_iff, field_assignAll hunique, if_neg (fun h => hproto h.1), Option.isSome_or,
        lastEntry_isSome he, Bool.true_or]
  · intro name
    rw [field_assignAll hunique', field_assignAll hunique]
    by_cases hproto : name = protoKey ∧ field fields name = none
    · rw [if_pos hproto, if_pos ⟨hproto.1, rfl⟩]
    · rw [if_neg hproto]
      split
      next hnone => exact hnone.2.symm
      next => rw [← Option.or_assoc, Option.or_self]

end Assignments

section Reading

variable {host : JsonHost}

theorem parse_writeJsonFile {doc : List (String × Json)} (h : Settled host.round (.obj doc)) :
    JsonParser.parse host.round (writeJsonFile doc).toList = some (.obj (writtenFields doc)) := by
  rw [writeJsonFile, String.toList_append]
  exact parse_indent host.round h (by simp [isWhite])

theorem readJsonObject_writeJsonFile (filePath : String) {doc : List (String × Json)}
    (h : Settled host.round (.obj doc)) :
    host.readJsonObject filePath (some (writeJsonFile doc)) = .ok (writtenFields doc) := by
  rw [JsonHost.readJsonObject, parse_writeJsonFile h]

theorem settled_readJsonObject {filePath : String} {file : Option String}
    {doc : List (String × Json)} (h : host.readJsonObject filePath file = .ok doc) :
    Settled host.round (.obj doc) := by
  cases file with
  | none =>
      cases h
      exact ⟨List.nodup_nil, rfl, trivial⟩
  | some text =>
      rw [JsonHost.readJsonObject] at h
      split at h
      next => cases h
      next hparse =>
        cases h
        exact settled_parse host.round_round hparse
      next => cases h

theorem settled_readObject {doc servers : List (String × Json)} {key : String}
    (hdoc : Settled host.round (.obj doc)) (h : readObject doc key = .ok servers) :
    Settled host.round (.obj servers) := by
  rw [readObject] at h
  split at h
  next =>
    cases h
    exact ⟨List.nodup_nil, rfl, trivial⟩
  next hfield =>
    cases h
    exact settledFields_iff.1 hdoc.2.2 _ (mem_of_field hfield)
  next => cases h

theorem mergeServersJson_eq_ok {key filePath text : String} {entries : List (String × Json)}
    {file : Option String} (h : host.mergeServersJson key entries filePath file = .ok text) :
    ∃ doc servers, host.readJsonObject filePath file = .ok doc ∧ readObject doc key = .ok servers ∧
      text = writeJsonFile (setProperty doc key (.obj (assignAll servers entries))) := by
  obtain ⟨doc, hdoc, h⟩ := Except.bind_eq_ok_iff.1 h
  obtain ⟨servers, hservers, h⟩ := Except.bind_eq_ok_iff.1 h
  cases h
  exact ⟨doc, servers, hdoc, hservers, rfl⟩

-- the message is the only thing that the path of a file decides
theorem readJsonObject_toOption (filePath filePath' : String) (file : Option String) :
    (host.readJsonObject filePath file).toOption = (host.readJsonObject filePath' file).toOption := by
  cases file with
  | none => rfl
  | some text =>
      simp only [JsonHost.readJsonObject]
      cases JsonParser.parse host.round text.toList with
      | none => rfl
      | some v => cases v <;> rfl

theorem field_readObject {doc servers : List (String × Json)} {key : String}
    (h : readObject doc key = .ok servers) :
    field doc key = none ∧ servers = [] ∨ field doc key = some (.obj servers) := by
  rw [readObject] at h
  split at h
  next hfield =>
    cases h
    exact .inl ⟨hfield, rfl⟩
  next hfield =>
    cases h
    exact .inr hfield
  next => cases h

theorem field_written_setProperty {doc : List (String × Json)} (hunique : UniqueKeys doc)
    (key name : String) (v : Json) :
    field (writtenFields (setProperty doc key v)) name =
      if key = name then some v.written else (field doc name).map Json.written := by
  rw [field_writtenFields, field_setProperty hunique]
  split
  · rfl
  · rfl

theorem clientConfigOf_written {doc servers : List (String × Json)} {key : String}
    (hunique : UniqueKeys doc) (hservers : UniqueKeys servers)
    (hread : readObject doc key = .ok servers) (entries : List (String × Json)) :
    clientConfigOf key (writtenFields (setProperty doc key (.obj (assignAll servers entries)))) =
      (clientConfigOf key doc).map fun config => (config.withServers entries).written := by
  have hfield := field_written_setProperty hunique key key (.obj (assignAll servers entries))
  rw [if_pos rfl] at hfield
  change field _ key = some (.obj (writtenFields (assignAll servers entries))) at hfield
  have hback : readObject (writtenFields (setProperty doc key (.obj (assignAll servers entries))))
      key = .ok (writtenFields (assignAll servers entries)) := by
    rw [readObject, hfield]
  simp only [clientConfigOf, hback, hread, Except.toOption, Option.map_some, Option.some.injEq]
  rw [ClientConfig.written, ClientConfig.withServers, ClientConfig.mk.injEq]
  constructor
  · funext name
    rw [field_writtenFields, field_assignAll hservers]
  · funext name
    by_cases hname : name = key
    · simp [hname]
    · simp [hname, field_written_setProperty hunique, Ne.symm hname]

-- the merge is refused where a client finds no servers, and else adds the entries to them
theorem clientConfig_mergeServersJson (key filePath : String) {entries : List (String × Json)}
    (hentries : ∀ e ∈ entries, Settled host.round e.2) (file : Option String) :
    ((host.mergeServersJson key entries filePath file).toOption.bind fun text =>
      host.clientConfig key (some text)) =
    (host.clientConfig key file).map fun config => (config.withServers entries).written := by
  rw [JsonHost.clientConfig, readJsonObject_toOption "" filePath]
  cases hdoc : host.readJsonObject filePath file with
  | error message => simp [JsonHost.mergeServersJson, hdoc, Except.toOption, bind, Except.bind]
  | ok doc =>
      cases hservers : readObject doc key with
      | error message =>
          simp [JsonHost.mergeServersJson, hdoc, hservers, Except.toOption, bind, Except.bind,
            clientConfigOf]
      | ok servers =>
          have hsettled := settled_readJsonObject hdoc
          have hsettled' := settled_readObject hsettled hservers
          have hwritten := settled_setProperty hsettled key (settled_assignAll hsettled' hentries)
          have hmerge : host.mergeServersJson key entries filePath file =
              .ok (writeJsonFile (setProperty doc key (.obj (assignAll servers entries)))) := by
            simp only [JsonHost.mergeServersJson, hdoc, hservers, bind, Except.bind, pure,
              Except.pure]
          rw [hmerge]
          change (host.readJsonObject "" (some _)).toOption.bind _ = (clientConfigOf key doc).map _
          rw [readJsonObject_writeJsonFile "" hwritten]
          exact clientConfigOf_written hsettled.1 hsettled'.1 hservers entries

theorem writtenFields_assignAll (fields : List (String × Json)) {entries : List (String × Json)}
    (hentries : ∀ e ∈ entries, e.2.written = e.2) :
    writtenFields (assignAll fields entries) = assignAll (writtenFields fields) entries := by
  induction entries generalizing fields with
  | nil => rfl
  | cons e entries ih =>
      have hstep : writtenFields (assign fields e.1 e.2) =
          assign (writtenFields fields) e.1 e.2 := by
        simp only [assign, field_writtenFields, Option.map_eq_none_iff]
        split
        · rfl
        · rw [writtenFields_setProperty, hentries e List.mem_cons_self]
      have hrest := ih (assign fields e.1 e.2) fun f hf => hentries f (List.mem_cons_of_mem e hf)
      rw [hstep] at hrest
      exact hrest

-- a second merge of the same entries writes the same text
theorem mergeServersJson_again {key filePath text : String} {entries : List (String × Json)}
    (hsettled : ∀ e ∈ entries, Settled host.round e.2) (hwritten : ∀ e ∈ entries, e.2.written = e.2)
    {file : Option String} (h : host.mergeServersJson key entries filePath file = .ok text) :
    host.mergeServersJson key entries filePath (some text) = .ok text := by
  obtain ⟨doc, servers, hdoc, hservers, rfl⟩ := mergeServersJson_eq_ok h
  have hread := settled_readJsonObject hdoc
  have hread' := settled_readObject hread hservers
  have hdoc' := settled_setProperty hread key (settled_assignAll hread' hsettled)
  have hfield := field_setProperty hread.1 key key (.obj (assignAll servers entries))
  rw [if_pos rfl] at hfield
  have hagain : assignAll (writtenFields (assignAll servers entries)) entries =
      writtenFields (assignAll servers entries) := by
    rw [← writtenFields_assignAll _ hwritten, assignAll_assignAll hread'.1 hread'.2.1]
  have hback : readObject (writtenFields (setProperty doc key (.obj (assignAll servers entries))))
      key = .ok (writtenFields (assignAll servers entries)) := by
    rw [readObject, field_writtenFields, hfield]
    rfl
  have hsame := setProperty_of_field hdoc'.1 hdoc'.2.1 hfield
  simp only [JsonHost.mergeServersJson, readJsonObject_writeJsonFile filePath hdoc', hback, bind,
    Except.bind, pure, Except.pure]
  rw [hagain, ← written_obj (assignAll servers entries), ← writtenFields_setProperty, hsame,
    writeJsonFile, ← written_obj, indent_written]
  rfl

theorem clientConfigOf_eq_some {doc : List (String × Json)} {key : String} {config : ClientConfig}
    (h : clientConfigOf key doc = some config) : ∃ servers, readObject doc key = .ok servers ∧
      config = ⟨field servers, fun name => if name = key then none else field doc name⟩ := by
  rw [clientConfigOf] at h
  cases hread : readObject doc key with
  | error message =>
      rw [hread] at h
      cases h
  | ok servers =>
      rw [hread] at h
      cases h
      exact ⟨servers, rfl, rfl⟩

-- a merge under one key leaves what is under another one as it was
theorem clientConfigOf_other {doc : List (String × Json)} {key key' : String}
    (hunique : UniqueKeys doc) (hne : key' ≠ key) (v : Json) {config : ClientConfig}
    (h : clientConfigOf key doc = some config) :
    ∃ config', clientConfigOf key (writtenFields (setProperty doc key' v)) = some config' ∧
      config'.servers = config.written.servers ∧
        ∀ name ≠ key', config'.others name = config.written.others name := by
  obtain ⟨servers, hread, rfl⟩ := clientConfigOf_eq_some h
  have hfield := field_written_setProperty hunique key' key v
  rw [if_neg hne] at hfield
  have hback : readObject (writtenFields (setProperty doc key' v)) key =
      .ok (writtenFields servers) := by
    rw [readObject, hfield]
    rcases field_readObject hread with ⟨hnone, rfl⟩ | hsome
    · rw [hnone]
      rfl
    · rw [hsome]
      rfl
  refine ⟨⟨field (writtenFields servers), fun name => if name = key then none else
    field (writtenFields (setProperty doc key' v)) name⟩, ?_, ?_, ?_⟩
  · rw [clientConfigOf, hback]
    rfl
  · funext name
    exact field_writtenFields servers name
  · intro name hname
    dsimp only [ClientConfig.written]
    rw [field_written_setProperty hunique, if_neg (Ne.symm hname)]
    split
    · rfl
    · rfl

theorem clientConfig_after {key key' filePath text : String} {entries : List (String × Json)}
    (hentries : ∀ e ∈ entries, Settled host.round e.2) {file : Option String}
    {config : ClientConfig} (hmerge : host.mergeServersJson key' entries filePath file = .ok text)
    (h : host.clientConfig key file = some config) :
    ∃ config', host.clientConfig key (some text) = some config' ∧
      config'.servers =
        (config.withServers (if key' = key then entries else [])).written.servers ∧
      ∀ name ≠ key', config'.others name = config.written.others name := by
  by_cases hkey : key' = key
  · subst hkey
    have hrefines := clientConfig_mergeServersJson key' filePath hentries file
    rw [hmerge, h] at hrefines
    rw [if_pos rfl]
    exact ⟨_, hrefines, rfl, fun name _ => rfl⟩
  · obtain ⟨doc, servers, hdoc, hservers, rfl⟩ := mergeServersJson_eq_ok hmerge
    have hsettled := settled_readJsonObject hdoc
    have hwritten := settled_setProperty hsettled key'
      (settled_assignAll (settled_readObject hsettled hservers) hentries)
    have hconfig : clientConfigOf key doc = some config := by
      rwa [JsonHost.clientConfig, readJsonObject_toOption "" filePath, hdoc] at h
    obtain ⟨config', hconfig', hservers', hothers'⟩ := clientConfigOf_other hsettled.1 hkey
      (.obj (assignAll servers entries)) hconfig
    refine ⟨config', ?_, ?_, hothers'⟩
    · rw [JsonHost.clientConfig, readJsonObject_writeJsonFile "" hwritten]
      exact hconfig'
    · rw [hservers', if_neg hkey]
      funext name
      simp only [ClientConfig.written, ClientConfig.withServers, lastEntry, Option.none_or]
      split
      next hproto => rw [hproto.2]
      next => rfl

end Reading

section Entries

variable (runtime : Runtime) (installId : String) (round : ℚ → JsNumber)

theorem settled_relayEntry (serverId : String) (includeType : Bool) :
    Settled round (relayEntry runtime installId serverId includeType) := by
  have hargs : ∀ args : List String, Settled round (.arr (args.map .str)) := by
    intro args
    apply settledItems_iff.2
    intro v hv
    obtain ⟨word, -, rfl⟩ := List.mem_map.mp hv
    trivial
  have henv : Settled round (.obj []) := ⟨List.nodup_nil, rfl, trivial⟩
  cases includeType with
  | false =>
      apply settled_named
      · change NamedKeys ["command", "args", "env"]
        decide
      · simp [hargs, henv, settled_str]
  | true =>
      apply settled_named
      · change NamedKeys ["type", "command", "args", "env"]
        decide
      · simp [hargs, henv, settled_str]

theorem written_relayEntry (serverId : String) (includeType : Bool) :
    (relayEntry runtime installId serverId includeType).written =
      relayEntry runtime installId serverId includeType := by
  have hargs : ∀ args : List String, writtenItems (args.map .str) = args.map .str := by
    intro args
    induction args with
    | nil => rfl
    | cons arg args ih => simp [writtenItems, written, ih]
  cases includeType with
  | false => simp [relayEntry, written, writtenFields, hargs]
  | true => simp [relayEntry, written, writtenFields, hargs]

end Entries

end Conduit.Connect
