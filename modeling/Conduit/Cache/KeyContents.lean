import Conduit.Cache.Key
import Conduit.Foundation.JsonReading

namespace Json

section Order

variable {ν : Type*} {fields : List (String × ν)} {e : String × ν}

theorem mem_sortByKey : e ∈ sortByKey fields ↔ e ∈ fields :=
  (List.perm_insertionSort _ fields).mem_iff

theorem mem_propertyOrder : e ∈ propertyOrder fields ↔ e ∈ fields := by
  rw [propertyOrder, List.mem_append, (List.perm_insertionSort _ _).mem_iff, List.mem_filter,
    List.mem_filter]
  cases arrayIndex? e.1 <;> simp

end Order

theorem mem_writtenFields {fields : List (String × Json)} {e : String × Json} :
    e ∈ writtenFields fields ↔ ∃ f ∈ fields, e = (f.1, f.2.written) := by
  induction fields with
  | nil => simp [writtenFields]
  | cons f fields ih =>
      obtain ⟨k, v⟩ := f
      simp [writtenFields, ih]

end Json

namespace Conduit.Utils

open Json

theorem mem_deepSortFields {fields : List (String × Json)} {e : String × Json} :
    e ∈ deepSortFields fields ↔ ∃ f ∈ fields, e = (f.1, deepSort f.2) := by
  induction fields with
  | nil => simp [deepSortFields]
  | cons f fields ih =>
      obtain ⟨k, v⟩ := f
      simp [deepSortFields, ih]

theorem mem_assignable {fields : List (String × Json)} {e : String × Json} :
    e ∈ assignable fields ↔ e ∈ fields ∧ e.1 ≠ protoKey := by
  simp [assignable]

-- the fields of an object as its canonical text has them
def textFields (fields : List (String × Json)) : List (String × Json) :=
  writtenFields (propertyOrder (assignable (sortByKey (deepSortFields fields))))

theorem mem_textFields {fields : List (String × Json)} {e : String × Json} :
    e ∈ textFields fields ↔
      ∃ f ∈ fields, f.1 ≠ protoKey ∧ e = (f.1, (deepSort f.2).written) := by
  simp only [textFields, mem_writtenFields, mem_propertyOrder, mem_assignable, mem_sortByKey,
    mem_deepSortFields]
  constructor
  · rintro ⟨_, ⟨⟨f, hf, rfl⟩, hproto⟩, rfl⟩
    exact ⟨f, hf, hproto, rfl⟩
  · rintro ⟨f, hf, hproto, rfl⟩
    exact ⟨(f.1, deepSort f.2), ⟨⟨f, hf, rfl⟩, hproto⟩, rfl⟩

theorem textFields_eq_of_deterministicStringify {fields fields' : List (String × Json)}
    (h : deterministicStringify (.obj fields) = deterministicStringify (.obj fields')) :
    textFields fields = textFields fields' :=
  Json.obj.inj (stringify_inj h)

end Conduit.Utils

namespace Conduit.Cache

open Json Utils

def componentFields (options : CacheKeyOptions) : List (String × Json) :=
  [("server_id", .str options.serverId), ("tool_name", .str options.toolName),
    ("args", .obj (filterArgs options.args options.ignoreArgs))] ++
    (options.tenantId.map fun tenantId => ("tenant_id", Json.str tenantId)).toList ++
    (options.groupId.map fun groupId => ("group_id", Json.str groupId)).toList

-- everything that a key tells of a call
structure SameKey (key key' : CacheKeyOptions) : Prop where
  serverId : key.serverId = key'.serverId
  toolName : key.toolName = key'.toolName
  tenantId : key.tenantId = key'.tenantId
  groupId : key.groupId = key'.groupId
  args : textFields (filterArgs key.args key.ignoreArgs) =
    textFields (filterArgs key'.args key'.ignoreArgs)

variable {key key' : CacheKeyOptions}

theorem mem_componentFields {k : String} {v : Json} : (k, v) ∈ componentFields key ↔
    k = "server_id" ∧ v = .str key.serverId ∨ k = "tool_name" ∧ v = .str key.toolName ∨
    k = "args" ∧ v = .obj (filterArgs key.args key.ignoreArgs) ∨
    k = "tenant_id" ∧ (∃ tenantId, key.tenantId = some tenantId ∧ v = .str tenantId) ∨
    k = "group_id" ∧ (∃ groupId, key.groupId = some groupId ∧ v = .str groupId) := by
  rw [componentFields, List.mem_append, List.mem_append]
  cases key.tenantId <;> cases key.groupId <;> simp [or_assoc]

-- each component of one key is one of the other
theorem component_of_eq (h : textFields (componentFields key) = textFields (componentFields key'))
    {k : String} {v : Json} (hmem : (k, v) ∈ componentFields key) (hk : k ≠ protoKey) :
    ∃ v', (k, v') ∈ componentFields key' ∧ (deepSort v').written = (deepSort v).written := by
  have htext : (k, (deepSort v).written) ∈ textFields (componentFields key') :=
    h ▸ mem_textFields.2 ⟨(k, v), hmem, hk, rfl⟩
  obtain ⟨⟨k', v'⟩, hmem', -, heq⟩ := mem_textFields.1 htext
  obtain ⟨rfl, hvalue⟩ := Prod.mk.inj heq
  exact ⟨v', hmem', hvalue.symm⟩

theorem tenantId_of_eq (h : textFields (componentFields key) = textFields (componentFields key'))
    {tenantId : String} (htenant : key.tenantId = some tenantId) :
    key'.tenantId = some tenantId := by
  obtain ⟨v', hmem, hvalue⟩ := component_of_eq h
    (mem_componentFields.2 (.inr (.inr (.inr (.inl ⟨rfl, tenantId, htenant, rfl⟩))))) (by decide)
  rcases mem_componentFields.1 hmem with ⟨hk, -⟩ | ⟨hk, -⟩ | ⟨hk, -⟩ | ⟨-, t, ht, rfl⟩ | ⟨hk, -⟩
  · exact absurd hk (by decide)
  · exact absurd hk (by decide)
  · exact absurd hk (by decide)
  · rw [ht, Json.str.inj hvalue]
  · exact absurd hk (by decide)

theorem groupId_of_eq (h : textFields (componentFields key) = textFields (componentFields key'))
    {groupId : String} (hgroup : key.groupId = some groupId) : key'.groupId = some groupId := by
  obtain ⟨v', hmem, hvalue⟩ := component_of_eq h
    (mem_componentFields.2 (.inr (.inr (.inr (.inr ⟨rfl, groupId, hgroup, rfl⟩))))) (by decide)
  rcases mem_componentFields.1 hmem with ⟨hk, -⟩ | ⟨hk, -⟩ | ⟨hk, -⟩ | ⟨hk, -⟩ | ⟨-, g, hg, rfl⟩
  · exact absurd hk (by decide)
  · exact absurd hk (by decide)
  · exact absurd hk (by decide)
  · exact absurd hk (by decide)
  · rw [hg, Json.str.inj hvalue]

theorem sameKey_of_generateCacheKey {host : Host} (hinjective : Function.Injective host.sha256)
    (h : generateCacheKey host key = generateCacheKey host key') : SameKey key key' := by
  have hfields : textFields (componentFields key) = textFields (componentFields key') :=
    textFields_eq_of_deterministicStringify (hinjective h)
  refine ⟨?_, ?_, ?_, ?_, ?_⟩
  · obtain ⟨v', hmem, hvalue⟩ := component_of_eq hfields
      (mem_componentFields.2 (.inl ⟨rfl, rfl⟩)) (by decide)
    rcases mem_componentFields.1 hmem with ⟨-, rfl⟩ | ⟨hk, -⟩ | ⟨hk, -⟩ | ⟨hk, -⟩ | ⟨hk, -⟩
    · exact (Json.str.inj hvalue).symm
    all_goals exact absurd hk (by decide)
  · obtain ⟨v', hmem, hvalue⟩ := component_of_eq hfields
      (mem_componentFields.2 (.inr (.inl ⟨rfl, rfl⟩))) (by decide)
    rcases mem_componentFields.1 hmem with ⟨hk, -⟩ | ⟨-, rfl⟩ | ⟨hk, -⟩ | ⟨hk, -⟩ | ⟨hk, -⟩
    · exact absurd hk (by decide)
    · exact (Json.str.inj hvalue).symm
    all_goals exact absurd hk (by decide)
  · exact Option.ext fun tenantId => ⟨tenantId_of_eq hfields, tenantId_of_eq hfields.symm⟩
  · exact Option.ext fun groupId => ⟨groupId_of_eq hfields, groupId_of_eq hfields.symm⟩
  · obtain ⟨v', hmem, hvalue⟩ := component_of_eq hfields
      (mem_componentFields.2 (.inr (.inr (.inl ⟨rfl, rfl⟩)))) (by decide)
    rcases mem_componentFields.1 hmem with ⟨hk, -⟩ | ⟨hk, -⟩ | ⟨-, rfl⟩ | ⟨hk, -⟩ | ⟨hk, -⟩
    · exact absurd hk (by decide)
    · exact absurd hk (by decide)
    · exact (Json.obj.inj hvalue).symm
    all_goals exact absurd hk (by decide)

end Conduit.Cache
