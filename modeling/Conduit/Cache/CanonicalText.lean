import Conduit.Cache.KeyArguments
import Conduit.Governance.Runtime

namespace Json

theorem Rearranged.keyed_iff {v w : Json} (h : Rearranged v w) : Keyed v ↔ Keyed w := by
  induction h with
  | refl v => exact Iff.rfl
  | symm _ ih => exact ih.symm
  | trans _ _ ih ih' => exact ih.trans ih'
  | item before after _ ih => simp only [Keyed, keyedItems_iff, List.mem_append, List.mem_cons,
      or_imp, forall_and, forall_eq, ih]
  | field before after k _ ih => simp only [Keyed, keyedFields_iff, List.mem_append, List.mem_cons,
      or_imp, forall_and, forall_eq, ih, UniqueKeys, List.map_append, List.map_cons]
  | perm hperm =>
      simp only [Keyed, keyedFields_iff, hperm.mem_iff, UniqueKeys, (hperm.map Prod.fst).nodup_iff]

def fieldCount : Json → ℕ
  | .obj fields => fields.length
  | _ => 0

theorem Rearranged.fieldCount_eq {v w : Json} (h : Rearranged v w) :
    v.fieldCount = w.fieldCount := by
  induction h with
  | refl v => rfl
  | symm _ ih => exact ih.symm
  | trans _ _ ih ih' => exact ih.trans ih'
  | item before after _ _ => rfl
  | field before after k _ _ => simp [fieldCount]
  | perm hperm => exact hperm.length_eq

mutual

theorem stringify_written : ∀ v : Json, v.written.stringify = v.stringify
  | .null => rfl
  | .bool _ => rfl
  | .num n => by cases n <;> rfl
  | .str _ => rfl
  | .arr items => by rw [written, stringify, stringify, stringifyItems_written items]
  | .obj fields => by rw [written, stringify, stringify, stringifyFields_written fields]

theorem stringifyItems_written : ∀ items : List Json,
    stringifyItems (writtenItems items) = stringifyItems items
  | [] => rfl
  | v :: rest => by
      rw [writtenItems, stringifyItems, stringifyItems, stringify_written v,
        stringifyItems_written rest]

theorem stringifyFields_written : ∀ fields : List (String × Json),
    stringifyFields (writtenFields fields) = stringifyFields fields
  | [] => rfl
  | (k, v) :: rest => by
      rw [writtenFields, stringifyFields, stringifyFields, stringify_written v,
        stringifyFields_written rest]

end

end Json

namespace Conduit.Utils

open Json

theorem deepSortFields_eq (fields : List (String × Json)) :
    deepSortFields fields = mapValues deepSort fields := by
  induction fields with
  | nil => rfl
  | cons e fields ih =>
      obtain ⟨k, v⟩ := e
      rw [deepSortFields, ih]
      rfl

theorem deepSortItems_eq (items : List Json) : deepSortItems items = items.map deepSort := by
  induction items with
  | nil => rfl
  | cons v items ih => rw [deepSortItems, ih, List.map_cons]

theorem deepSort_eq_of_rearranged {v w : Json} (h : Rearranged v w) (hkeyed : Keyed v) :
    deepSort v = deepSort w := by
  induction h with
  | refl v => rfl
  | symm h ih => exact (ih (h.keyed_iff.mpr hkeyed)).symm
  | trans h _ ih ih' => exact (ih hkeyed).trans (ih' (h.keyed_iff.mp hkeyed))
  | @item v w before after _ ih =>
      have hv : Keyed v := keyedItems_iff.1 hkeyed v (by simp)
      simp only [deepSort, deepSortItems_eq, List.map_append, List.map_cons, ih hv]
  | @field v w before after k _ ih =>
      have hv : Keyed v := keyedFields_iff.1 hkeyed.2 (k, v) (by simp)
      simp only [deepSort, deepSortFields_eq, mapValues, List.map_append, List.map_cons, ih hv]
  | @perm es fs hperm =>
      have hunique : UniqueKeys (mapValues deepSort es) := by
        rw [UniqueKeys, keys_mapValues]
        exact hkeyed.1
      rw [deepSort, deepSort, deepSortFields_eq, deepSortFields_eq,
        sortByKey_eq_of_perm hunique (hperm.map _)]
      rfl

theorem strippedItems_eq (items : List Json) : strippedItems items = items.map stripped := by
  induction items with
  | nil => rfl
  | cons v items ih => rw [strippedItems, ih, List.map_cons]

theorem strippedFields_eq (fields : List (String × Json)) :
    strippedFields fields = mapValues stripped (assignable fields) := by
  induction fields with
  | nil => rfl
  | cons e fields ih =>
      obtain ⟨k, v⟩ := e
      by_cases hproto : k = protoKey
      · simpa [strippedFields, assignable, hproto] using ih
      · simpa [strippedFields, assignable, hproto, mapValues] using ih

theorem assignable_mapValues (f : Json → Json) (fields : List (String × Json)) :
    assignable (mapValues f fields) = mapValues f (assignable fields) :=
  filter_mapValues f (fun key => key ≠ protoKey) fields

theorem assignable_assignable (fields : List (String × Json)) :
    assignable (assignable fields) = assignable fields := by
  rw [assignable, List.filter_eq_self]
  intro e he
  exact (List.mem_filter.mp he).2

theorem rearranged_stripped {v w : Json} (h : Rearranged v w) :
    Rearranged (stripped v) (stripped w) := by
  induction h with
  | refl v => exact .refl _
  | symm _ ih => exact ih.symm
  | trans _ _ ih ih' => exact ih.trans ih'
  | item before after _ ih =>
      simp only [stripped, strippedItems_eq, List.map_append, List.map_cons]
      exact .item _ _ ih
  | field before after k _ ih =>
      simp only [stripped, strippedFields_eq, mapValues, assignable, List.filter_append,
        List.map_append, List.filter_cons]
      split
      · exact .field _ _ k ih
      · exact .refl _
  | perm hperm =>
      simp only [stripped, strippedFields_eq]
      exact .perm ((hperm.filter _).map _)

mutual

theorem stripped_written : ∀ v : Json, stripped v.written = stripped v
  | .null => rfl
  | .bool _ => rfl
  | .num n => by cases n <;> rfl
  | .str _ => rfl
  | .arr items => by rw [written, stripped, stripped, strippedItems_written items]
  | .obj fields => by rw [written, stripped, stripped, strippedFields_written fields]

theorem strippedItems_written : ∀ items : List Json,
    strippedItems (writtenItems items) = strippedItems items
  | [] => rfl
  | v :: rest => by
      rw [writtenItems, strippedItems, strippedItems, stripped_written v, strippedItems_written rest]

theorem strippedFields_written : ∀ fields : List (String × Json),
    strippedFields (writtenFields fields) = strippedFields fields
  | [] => rfl
  | (k, v) :: rest => by
      rw [writtenFields, strippedFields, strippedFields, stripped_written v,
        strippedFields_written rest]

end

mutual

theorem keyed_stripped : ∀ v : Json, Keyed v → Keyed (stripped v)
  | .null, _ => trivial
  | .bool _, _ => trivial
  | .num n, _ => by cases n <;> trivial
  | .str _, _ => trivial
  | .arr items, h => keyedItems_stripped items h
  | .obj fields, h => by
      refine ⟨?_, keyedFields_stripped fields h.2⟩
      rw [strippedFields_eq, UniqueKeys, keys_mapValues]
      exact h.1.filter _

theorem keyedItems_stripped : ∀ items : List Json, KeyedItems items → KeyedItems (strippedItems items)
  | [], _ => trivial
  | v :: rest, h => ⟨keyed_stripped v h.1, keyedItems_stripped rest h.2⟩

theorem keyedFields_stripped : ∀ fields : List (String × Json),
    KeyedFields fields → KeyedFields (strippedFields fields)
  | [], _ => trivial
  | (k, v) :: rest, h => by
      rw [strippedFields]
      split
      · exact keyedFields_stripped rest h.2
      · exact ⟨keyed_stripped v h.1, keyedFields_stripped rest h.2⟩

end

-- the text keeps one order of the keys, whether the members named __proto__ go before or after
theorem sorted_assignable {fields : List (String × Json)} (h : UniqueKeys fields) :
    assignable (sortByKey (assignable fields)) = assignable (sortByKey fields) := by
  have hsorted : assignable (sortByKey fields) = sortByKey (assignable fields) :=
    filter_sortByKey h _
  have hagain : assignable (sortByKey (assignable fields)) =
      sortByKey (assignable (assignable fields)) := filter_sortByKey (h.filter _) _
  rw [hagain, assignable_assignable, hsorted]

mutual

theorem written_deepSort : ∀ v : Json, Keyed v → (deepSort v).written = deepSort (stripped v)
  | .null, _ => rfl
  | .bool _, _ => rfl
  | .num n, _ => by cases n <;> rfl
  | .str _, _ => rfl
  | .arr items, h => by
      rw [deepSort, written, stripped, deepSort, writtenItems_deepSortItems items h]
  | .obj fields, h => by
      have hvalues := writtenFields_deepSortFields fields h.2
      have hunique : UniqueKeys (mapValues written (mapValues deepSort fields)) := by
        rw [UniqueKeys, keys_mapValues, keys_mapValues]
        exact h.1
      rw [deepSort, written, stripped, deepSort, deepSortFields_eq, deepSortFields_eq,
        strippedFields_eq, ← assignable_mapValues, ← assignable_mapValues, ← hvalues,
        sorted_assignable hunique]
      rw [sortByKey_mapValues written, assignable_mapValues, propertyOrder_mapValues]
      exact congrArg Json.obj (writtenFields_eq_map _)

theorem writtenItems_deepSortItems : ∀ items : List Json, KeyedItems items →
    writtenItems (deepSortItems items) = deepSortItems (strippedItems items)
  | [], _ => rfl
  | v :: rest, h => by
      rw [deepSortItems, writtenItems, strippedItems, deepSortItems, written_deepSort v h.1,
        writtenItems_deepSortItems rest h.2]

theorem writtenFields_deepSortFields : ∀ fields : List (String × Json), KeyedFields fields →
    mapValues written (mapValues deepSort fields) = mapValues deepSort (mapValues stripped fields)
  | [], _ => rfl
  | (k, v) :: rest, h => by
      have hrest := writtenFields_deepSortFields rest h.2
      simp only [mapValues, List.map_cons, written_deepSort v h.1] at hrest ⊢
      rw [hrest]

end

theorem deterministicStringify_eq_iff {a b : Json} (ha : Keyed a) (hb : Keyed b) :
    deterministicStringify a = deterministicStringify b ↔ Rearranged (stripped a) (stripped b) := by
  constructor
  · intro h
    have hwritten : (deepSort a).written = (deepSort b).written := stringify_inj h
    exact (rearranged_text a).symm.trans (hwritten ▸ rearranged_text b)
  · intro h
    rw [deterministicStringify, deterministicStringify, ← stringify_written,
      ← stringify_written (deepSort b), written_deepSort a ha, written_deepSort b hb,
      deepSort_eq_of_rearranged h (keyed_stripped a ha)]

-- what tells the values apart is not only in members named __proto__
def ToldApart (a b : Json) : Prop :=
  Rearranged (stripped a) (stripped b) → Rearranged a.written b.written

theorem rearranged_stripped_of_written {a b : Json} (h : Rearranged a.written b.written) :
    Rearranged (stripped a) (stripped b) := by
  have hstripped := rearranged_stripped h
  rwa [stripped_written, stripped_written] at hstripped

end Conduit.Utils

namespace Conduit.Cache

open Json Utils Governance

variable {host : Host} {es fs : List (String × Json)}

theorem buildRequestFingerprint_eq_iff (hinjective : Function.Injective host.sha256)
    (serverId toolName : String) (hes : Keyed (.obj es)) (hfs : Keyed (.obj fs)) :
    buildRequestFingerprint host serverId toolName es =
        buildRequestFingerprint host serverId toolName fs ↔
      Rearranged (stripped (.obj es)) (stripped (.obj fs)) := by
  rw [buildRequestFingerprint, buildRequestFingerprint, hinjective.eq_iff, String.append_right_inj,
    deterministicStringify_eq_iff hes hfs]

theorem stripped_filterArgs (es : List (String × Json)) :
    stripped (.obj (filterArgs es [])) = stripped (.obj es) := by
  have hall : es.filter (fun e => !List.contains [] e.1) = es := by simp
  rw [filterArgs, hall, stripped, stripped, strippedFields_assignable]

theorem keyed_filterArgs (h : Keyed (.obj es)) : Keyed (.obj (filterArgs es [])) := by
  refine ⟨(h.1.filter _).filter _, keyedFields_iff.2 fun e he => ?_⟩
  exact keyedFields_iff.1 h.2 e (List.mem_of_mem_filter (List.mem_of_mem_filter he))

theorem keyed_components (options : CacheKeyOptions) (hes : Keyed (.obj es))
    (hignore : options.ignoreArgs = []) : Keyed (components { options with args := es }) := by
  have hargs := keyed_filterArgs hes
  rw [← hignore] at hargs
  refine ⟨?_, ?_⟩
  · cases options.tenantId <;> cases options.groupId <;>
      simp [UniqueKeys]
  · cases options.tenantId <;> cases options.groupId <;>
      simpa [KeyedFields, Keyed] using hargs

theorem generateCacheKey_eq_iff (hinjective : Function.Injective host.sha256)
    (options : CacheKeyOptions) (hignore : options.ignoreArgs = []) (hes : Keyed (.obj es))
    (hfs : Keyed (.obj fs)) :
    generateCacheKey host { options with args := es } =
        generateCacheKey host { options with args := fs } ↔
      Rearranged (stripped (.obj es)) (stripped (.obj fs)) := by
  constructor
  · intro h
    have hsame := (sameKey_of_generateCacheKey hinjective h).args
    simp only [hignore] at hsame
    have hrearranged := rearranged_of_textFields hsame
    rwa [stripped_filterArgs, stripped_filterArgs] at hrearranged
  · intro h
    rw [generateCacheKey, generateCacheKey, hinjective.eq_iff,
      deterministicStringify_eq_iff (keyed_components options hes hignore)
        (keyed_components options hfs hignore)]
    rw [← stripped_filterArgs es, ← stripped_filterArgs fs] at h
    have hserver : ∀ es, stripped (components { options with args := es }) =
        .obj ([("server_id", .str options.serverId), ("tool_name", .str options.toolName)] ++
          ("args", stripped (.obj (filterArgs es []))) ::
            ((options.tenantId.map fun tenantId => ("tenant_id", Json.str tenantId)).toList ++
              (options.groupId.map fun groupId => ("group_id", Json.str groupId)).toList)) := by
      intro es
      cases options.tenantId <;> cases options.groupId <;>
        simp [components, stripped, strippedFields, protoKey, hignore]
    rw [hserver es, hserver fs]
    exact .field _ _ "args" h

theorem canonical_text_iff (hinjective : Function.Injective host.sha256) {a b : Json} (ha : Keyed a)
    (hb : Keyed b) (serverId toolName : String) (options : CacheKeyOptions)
    (hignore : options.ignoreArgs = []) (hes : Keyed (.obj es)) (hfs : Keyed (.obj fs)) :
    ((deterministicStringify a = deterministicStringify b ↔ Rearranged a.written b.written) ↔
      ToldApart a b) ∧
    ((buildRequestFingerprint host serverId toolName es =
          buildRequestFingerprint host serverId toolName fs →
        Rearranged (Json.obj es).written (Json.obj fs).written) ↔ ToldApart (.obj es) (.obj fs)) ∧
    ((generateCacheKey host { options with args := es } =
          generateCacheKey host { options with args := fs } →
        Rearranged (Json.obj es).written (Json.obj fs).written) ↔ ToldApart (.obj es) (.obj fs)) := by
  refine ⟨?_, ?_, ?_⟩
  · rw [deterministicStringify_eq_iff ha hb]
    exact ⟨fun h => h.mp, fun h => ⟨h, rearranged_stripped_of_written⟩⟩
  · rw [buildRequestFingerprint_eq_iff hinjective serverId toolName hes hfs]
    exact Iff.rfl
  · rw [generateCacheKey_eq_iff hinjective options hignore hes hfs]
    exact Iff.rfl

def textHost : Host where
  sha256 := id
  regExpTest _ _ := none
  jwtVerify _ _ _ := .error "no key"
  parseBase64Json _ := none

def pageThenLimit : List (String × Json) := [("page", .ofNat 2), ("limit", .ofNat 10)]

def limitThenPage : List (String × Json) := [("limit", .ofNat 10), ("page", .ofNat 2)]

def findKey : CacheKeyOptions := { serverId := "crm", toolName := "find", args := [] }

theorem canonical_text_iff_page :
    ((deterministicStringify (.obj pageThenLimit) = deterministicStringify (.obj limitThenPage) ↔
        Rearranged (Json.obj pageThenLimit).written (Json.obj limitThenPage).written) ↔
      ToldApart (.obj pageThenLimit) (.obj limitThenPage)) ∧
    ((buildRequestFingerprint textHost "crm" "find" pageThenLimit =
          buildRequestFingerprint textHost "crm" "find" limitThenPage →
        Rearranged (Json.obj pageThenLimit).written (Json.obj limitThenPage).written) ↔
      ToldApart (.obj pageThenLimit) (.obj limitThenPage)) ∧
    ((generateCacheKey textHost { findKey with args := pageThenLimit } =
          generateCacheKey textHost { findKey with args := limitThenPage } →
        Rearranged (Json.obj pageThenLimit).written (Json.obj limitThenPage).written) ↔
      ToldApart (.obj pageThenLimit) (.obj limitThenPage)) := by
  have hpage : Keyed (.obj pageThenLimit) := by
    simp [Keyed, KeyedFields, UniqueKeys, pageThenLimit, Json.ofNat]
  have hlimit : Keyed (.obj limitThenPage) := by
    simp [Keyed, KeyedFields, UniqueKeys, limitThenPage, Json.ofNat]
  exact canonical_text_iff (fun _ _ h => h) hpage hlimit "crm" "find" findKey rfl hpage hlimit

def adminArgs : List (String × Json) := [("__proto__", .obj [("admin", .bool true)])]

theorem proto_left_out :
    ¬ (deterministicStringify (.obj adminArgs) = deterministicStringify (.obj []) ↔
      Rearranged (Json.obj adminArgs).written (Json.obj []).written) ∧
    buildRequestFingerprint textHost "crm" "find" adminArgs =
      buildRequestFingerprint textHost "crm" "find" [] ∧
    generateCacheKey textHost { findKey with args := adminArgs } =
      generateCacheKey textHost { findKey with args := [] } := by
  have hsame : deterministicStringify (.obj adminArgs) = deterministicStringify (.obj []) := by
    decide
  refine ⟨fun h => ?_, ?_, ?_⟩
  · have hcount := (h.mp hsame).fieldCount_eq
    cases hcount
  · rw [buildRequestFingerprint, buildRequestFingerprint, hsame]
  · rfl

end Conduit.Cache
