import Conduit.Foundation.Json
import Conduit.Foundation.OrderedMap
import Mathlib.Data.Fintype.Card
import Mathlib.Data.Fintype.EquivFin
import Mathlib.Logic.Relation

namespace Conduit.Utils

open Relation

-- what the YAML parser gives: anchors and aliases make its nodes shared, or part of themselves
inductive YamlValue (S : Type) (size : ℕ) where
  | scalar (value : S)
  | node (id : Fin size)
deriving DecidableEq

inductive YamlNode (S : Type) (size : ℕ) where
  | sequence (items : List (YamlValue S size))
  | mapping (fields : OrderedMap String (YamlValue S size))

abbrev YamlGraph (S : Type) (size : ℕ) := Fin size → YamlNode S size

variable {S : Type} {size : ℕ}

def pollutes (key : String) : Bool :=
  key = "__proto__" || key = "constructor" || key = "prototype"

namespace YamlNode

def get? (node : YamlNode S size) (key : String) : Option (YamlValue S size) :=
  match node with
  | .sequence _ => none
  | .mapping fields => fields.get? key

def delete (node : YamlNode S size) (key : String) : YamlNode S size :=
  match node with
  | .sequence items => .sequence items
  | .mapping fields => .mapping (fields.delete key)

def children : YamlNode S size → List (YamlValue S size)
  | .sequence items => items
  | .mapping fields => fields.values

-- the entries that the walk goes into
def lasting (fields : OrderedMap String (YamlValue S size)) : List (String × YamlValue S size) :=
  fields.entries.filter fun e => !pollutes e.1

def lastingChildren : YamlNode S size → List (YamlValue S size)
  | .sequence items => items
  | .mapping fields => (lasting fields).map Prod.snd

def Clean (node : YamlNode S size) : Prop := ∀ key, pollutes key = true → node.get? key = none

-- only keys that pollute are gone
inductive Trimmed : YamlNode S size → YamlNode S size → Prop where
  | sequence (items : List (YamlValue S size)) : Trimmed (.sequence items) (.sequence items)
  | mapping {fields fields' : OrderedMap String (YamlValue S size)}
      (hlasting : lasting fields' = lasting fields)
      (hgone : ∀ key, fields.get? key = none → fields'.get? key = none) :
      Trimmed (.mapping fields) (.mapping fields')

end YamlNode

namespace YamlGraph

def delete (g : YamlGraph S size) (id : Fin size) (key : String) : YamlGraph S size :=
  Function.update g id ((g id).delete key)

end YamlGraph

-- `none` when the recursion goes deeper than the call stack, which holds `depth` calls
def stripPollutionKeys :
    ℕ → YamlGraph S size → YamlValue S size → Option (YamlGraph S size)
  | 0, _, _ => none
  | _ + 1, g, .scalar _ => some g
  | depth + 1, g, .node id =>
      match g id with
      | .sequence items => items.foldlM (stripPollutionKeys depth) g
      | .mapping fields =>
          fields.keys.foldlM (fun g key =>
            if pollutes key then some (YamlGraph.delete g id key)
            else
              match (g id).get? key with
              | some value => stripPollutionKeys depth g value
              | none => some g) g

def Contains (g : YamlGraph S size) (v w : YamlValue S size) : Prop :=
  ∃ id, v = .node id ∧ w ∈ (g id).children

def Leads (g : YamlGraph S size) (v w : YamlValue S size) : Prop :=
  ∃ id, v = .node id ∧ w ∈ (g id).lastingChildren

structure Stripped (g g' : YamlGraph S size) (root : YamlValue S size) : Prop where
  clean : ∀ id, ReflTransGen (Contains g') root (.node id) → (g' id).Clean
  kept : ∀ id, (g id).Trimmed (g' id)

-- a sequence or a mapping that the walk reaches is part of itself
def Knotted (g : YamlGraph S size) (root : YamlValue S size) : Prop :=
  ∃ id, ReflTransGen (Leads g) root (.node id) ∧ TransGen (Leads g) (.node id) (.node id)

section Folding

variable {σ α : Type*} {f : σ → α → Option σ} (keeps : σ → σ → Prop)

theorem foldlM_spec (done : α → σ → Prop) (hrefl : ∀ s, keeps s s)
    (htrans : ∀ {s₁ s₂ s₃}, keeps s₁ s₂ → keeps s₂ s₃ → keeps s₁ s₃)
    (hstable : ∀ {x s s'}, keeps s s' → done x s → done x s') {xs : List α} {s s' : σ}
    (hstep : ∀ x ∈ xs, ∀ {t t'}, keeps s t → f t x = some t' → keeps t t' ∧ done x t')
    (h : xs.foldlM f s = some s') : keeps s s' ∧ ∀ x ∈ xs, done x s' := by
  induction xs generalizing s with
  | nil =>
      obtain rfl := Option.some.inj h
      exact ⟨hrefl s, by simp⟩
  | cons x rest ih =>
      rw [List.foldlM_cons] at h
      obtain ⟨t, hx, hrest⟩ := Option.bind_eq_some_iff.mp h
      obtain ⟨hkeeps, hdone⟩ := hstep x (List.mem_cons_self ..) (hrefl s) hx
      obtain ⟨hkeeps', hdone'⟩ := ih (fun y hy t t' ht => hstep y (List.mem_cons_of_mem _ hy)
        (htrans hkeeps ht)) hrest
      refine ⟨htrans hkeeps hkeeps', fun y hy => ?_⟩
      rcases List.mem_cons.mp hy with rfl | hy
      · exact hstable hkeeps' hdone
      · exact hdone' y hy

theorem foldlM_ends (hrefl : ∀ s, keeps s s)
    (htrans : ∀ {s₁ s₂ s₃}, keeps s₁ s₂ → keeps s₂ s₃ → keeps s₁ s₃) {xs : List α} {s : σ}
    (hstep : ∀ x ∈ xs, ∀ {t}, keeps s t → ∃ t', f t x = some t' ∧ keeps t t') :
    ∃ s', xs.foldlM f s = some s' := by
  induction xs generalizing s with
  | nil => exact ⟨s, rfl⟩
  | cons x rest ih =>
      obtain ⟨t, hx, hkeeps⟩ := hstep x (List.mem_cons_self ..) (hrefl s)
      obtain ⟨s', hrest⟩ := ih fun y hy t' ht => hstep y (List.mem_cons_of_mem _ hy)
        (htrans hkeeps ht)
      exact ⟨s', by rw [List.foldlM_cons, hx]; exact hrest⟩

end Folding

section Trimming

variable {node node' node'' : YamlNode S size}

theorem YamlNode.Trimmed.refl (node : YamlNode S size) : node.Trimmed node := by
  cases node with
  | sequence items => exact .sequence items
  | mapping fields => exact .mapping rfl fun _ h => h

theorem YamlNode.Trimmed.trans (h : node.Trimmed node') (h' : node'.Trimmed node'') :
    node.Trimmed node'' := by
  cases h with
  | sequence items => exact h'
  | mapping hlasting hgone =>
      cases h' with
      | mapping hlasting' hgone' =>
          exact .mapping (hlasting'.trans hlasting) fun key hkey => hgone' key (hgone key hkey)

theorem YamlNode.Trimmed.get?_eq_none (h : node.Trimmed node') {key : String}
    (hkey : node.get? key = none) : node'.get? key = none := by
  cases h with
  | sequence items => rfl
  | mapping hlasting hgone => exact hgone key hkey

theorem YamlNode.Trimmed.clean (h : node.Trimmed node') (hclean : node.Clean) : node'.Clean :=
  fun key hkey => h.get?_eq_none (hclean key hkey)

theorem YamlNode.Trimmed.lastingChildren (h : node.Trimmed node') :
    node'.lastingChildren = node.lastingChildren := by
  cases h with
  | sequence items => rfl
  | mapping hlasting hgone => rw [YamlNode.lastingChildren, hlasting, YamlNode.lastingChildren]

theorem YamlNode.Trimmed.clean_of_sequence {items : List (YamlValue S size)}
    (h : Trimmed (.sequence items) node) : node.Clean := by
  cases h with
  | sequence items => exact fun key _ => rfl

theorem YamlNode.mem_lasting {fields : OrderedMap String (YamlValue S size)} {key : String}
    (hkey : pollutes key = false) {value : YamlValue S size} :
    (key, value) ∈ lasting fields ↔ fields.get? key = some value := by
  unfold lasting
  rw [List.mem_filter, OrderedMap.get?_eq_some_iff]
  simp [hkey]

theorem YamlNode.Trimmed.get?_of_lasting (h : node.Trimmed node') {key : String}
    (hkey : pollutes key = false) : node'.get? key = node.get? key := by
  cases h with
  | sequence items => rfl
  | mapping hlasting hgone =>
      refine Option.ext fun value => ?_
      rw [YamlNode.get?, ← mem_lasting hkey, hlasting, mem_lasting hkey, YamlNode.get?]

theorem YamlNode.trimmed_delete (node : YamlNode S size) {key : String} (h : pollutes key = true) :
    node.Trimmed (node.delete key) := by
  cases node with
  | sequence items => exact .sequence items
  | mapping fields =>
      refine .mapping ?_ fun k hk => ?_
      · unfold lasting OrderedMap.delete
        rw [List.filter_filter]
        refine List.filter_congr fun e _ => ?_
        by_cases heq : e.1 = key
        · simp [heq, h]
        · simp [heq]
      · rw [OrderedMap.get?_delete]
        split
        · rfl
        · exact hk

theorem YamlNode.get?_delete_self (node : YamlNode S size) (key : String) :
    (node.delete key).get? key = none := by
  cases node with
  | sequence items => rfl
  | mapping fields => exact OrderedMap.get?_delete_self fields key

theorem YamlNode.lastingChildren_of_clean (h : node.Clean) :
    node.lastingChildren = node.children := by
  cases node with
  | sequence items => rfl
  | mapping fields =>
      have hall : lasting fields = fields.entries := by
        refine List.filter_eq_self.mpr fun e he => ?_
        by_contra hkey
        have hnone := h e.1 (by simpa using hkey)
        have hsome : fields.get? e.1 = some e.2 := (fields.get?_eq_some_iff e.1 e.2).mpr he
        rw [YamlNode.get?, hsome] at hnone
        cases hnone
      rw [lastingChildren, hall]
      rfl

def Trims (g g' : YamlGraph S size) : Prop := ∀ id, (g id).Trimmed (g' id)

variable {g g' : YamlGraph S size}

theorem Trims.refl (g : YamlGraph S size) : Trims g g := fun id => .refl (g id)

theorem Trims.trans {g'' : YamlGraph S size} (h : Trims g g') (h' : Trims g' g'') : Trims g g'' :=
  fun id => (h id).trans (h' id)

theorem trims_delete (g : YamlGraph S size) (id : Fin size) {key : String}
    (h : pollutes key = true) : Trims g (YamlGraph.delete g id key) := by
  intro other
  unfold YamlGraph.delete
  by_cases heq : other = id
  · subst heq
    rw [Function.update_self]
    exact YamlNode.trimmed_delete _ h
  · rw [Function.update_of_ne heq]
    exact .refl _

theorem Trims.leads (h : Trims g g') : Leads g' = Leads g := by
  funext v w
  unfold Leads
  simp only [(h _).lastingChildren]

theorem leads_of_get? {id : Fin size} {key : String} {value : YamlValue S size}
    (hkey : pollutes key = false) (h : (g id).get? key = some value) :
    Leads g (.node id) value := by
  refine ⟨id, rfl, ?_⟩
  cases hnode : g id with
  | sequence items => simp [hnode, YamlNode.get?] at h
  | mapping fields =>
      rw [hnode] at h
      have hmem : (key, value) ∈ fields.entries := (fields.get?_eq_some_iff key value).mp h
      exact List.mem_map.mpr ⟨(key, value), List.mem_filter.mpr ⟨hmem, by simp [hkey]⟩, rfl⟩

theorem get?_of_leads {id : Fin size} {fields : OrderedMap String (YamlValue S size)}
    (hnode : g id = .mapping fields) {value : YamlValue S size} (h : Leads g (.node id) value) :
    ∃ key ∈ fields.keys, pollutes key = false ∧ (g id).get? key = some value := by
  obtain ⟨id', hid, hvalue⟩ := h
  obtain rfl := YamlValue.node.inj hid
  rw [hnode] at hvalue
  obtain ⟨⟨key, value'⟩, he, rfl⟩ := List.mem_map.mp hvalue
  obtain ⟨hmem, hkey⟩ := List.mem_filter.mp he
  refine ⟨key, List.mem_map_of_mem hmem, by simpa using hkey, ?_⟩
  rw [hnode]
  exact (fields.get?_eq_some_iff key value').mpr hmem

end Trimming

section Walk

variable {g g' : YamlGraph S size} {root : YamlValue S size} {depth : ℕ}

theorem acc_scalar (g : YamlGraph S size) (value : S) :
    Acc (fun w v => Leads g v w) (.scalar value) := by
  refine ⟨_, fun w hw => ?_⟩
  obtain ⟨id, hid, -⟩ := hw
  cases hid

-- what a walk that returns has done, and that nothing it went into is part of itself
structure Walked (g g' : YamlGraph S size) (root : YamlValue S size) : Prop where
  trims : Trims g g'
  clean : ∀ id, ReflTransGen (Leads g) root (.node id) → (g' id).Clean
  acc : Acc (fun w v => Leads g v w) root

theorem Walked.of_trims {g₀ : YamlGraph S size} (h : Walked g g' root) (htrims : Trims g₀ g) :
    Walked g₀ g' root := by
  obtain ⟨hafter, hclean, hacc⟩ := h
  rw [htrims.leads] at hclean hacc
  exact ⟨htrims.trans hafter, hclean, hacc⟩

theorem Walked.mono {g'' : YamlGraph S size} (h : Walked g g' root) (htrims : Trims g' g'') :
    Walked g g'' root :=
  ⟨h.trims.trans htrims, fun id hid => (htrims id).clean (h.clean id hid), h.acc⟩

theorem walked_node {id : Fin size} (htrims : Trims g g') (hself : (g' id).Clean)
    (hchildren : ∀ w, Leads g (.node id) w → Walked g g' w) : Walked g g' (.node id) := by
  refine ⟨htrims, fun other hother => ?_, ⟨_, fun w hw => (hchildren w hw).acc⟩⟩
  rcases ReflTransGen.cases_head hother with heq | ⟨w, hw, hrest⟩
  · obtain rfl := YamlValue.node.inj heq
    exact hself
  · exact (hchildren w hw).clean other hrest

-- what one key of a mapping leaves behind
structure KeyDone (g : YamlGraph S size) (id : Fin size) (key : String) (g' : YamlGraph S size) :
    Prop where
  gone : pollutes key = true → (g' id).get? key = none
  walked : pollutes key = false → ∀ {value}, (g id).get? key = some value → Walked g g' value

theorem KeyDone.mono {id : Fin size} {key : String} {g'' : YamlGraph S size}
    (h : KeyDone g id key g') (htrims : Trims g' g'') : KeyDone g id key g'' :=
  ⟨fun hkey => (htrims id).get?_eq_none (h.gone hkey),
    fun hkey _ hvalue => (h.walked hkey hvalue).mono htrims⟩

theorem keyDone_of_some {id : Fin size} {key : String} {t t' : YamlGraph S size}
    (ih : ∀ {g g' : YamlGraph S size} {root : YamlValue S size},
      stripPollutionKeys depth g root = some g' → Walked g g' root)
    (ht : Trims g t)
    (h : (if pollutes key then some (YamlGraph.delete t id key)
      else
        match (t id).get? key with
        | some value => stripPollutionKeys depth t value
        | none => some t) = some t') : Trims t t' ∧ KeyDone g id key t' := by
  split at h
  next hkey =>
    obtain rfl := Option.some.inj h
    refine ⟨trims_delete t id hkey, fun _ => ?_, fun hlasting => ?_⟩
    · unfold YamlGraph.delete
      rw [Function.update_self]
      exact YamlNode.get?_delete_self _ key
    · rw [hkey] at hlasting
      cases hlasting
  next hkey =>
    have hlasting : pollutes key = false := by simpa using hkey
    have hsame := (ht id).get?_of_lasting hlasting
    split at h
    next value hvalue =>
      refine ⟨(ih h).trims, fun hpollutes => absurd hpollutes hkey, fun _ other hother => ?_⟩
      obtain rfl := Option.some.inj (hvalue.symm.trans (hsame.trans hother))
      exact (ih h).of_trims ht
    next hnone =>
      obtain rfl := Option.some.inj h
      refine ⟨.refl t, fun hpollutes => absurd hpollutes hkey, fun _ other hother => ?_⟩
      rw [hsame, hother] at hnone
      cases hnone

theorem walked_of_some (h : stripPollutionKeys depth g root = some g') : Walked g g' root := by
  induction depth generalizing g g' root with
  | zero => cases h
  | succ depth ih =>
      cases root with
      | scalar value =>
          obtain rfl := Option.some.inj h
          refine ⟨.refl g, fun id hid => ?_, acc_scalar g value⟩
          rcases ReflTransGen.cases_head hid with heq | ⟨w, ⟨id', hid', -⟩, -⟩
          · cases heq
          · cases hid'
      | node id =>
          unfold stripPollutionKeys at h
          cases hnode : g id with
          | sequence items =>
              rw [hnode] at h
              obtain ⟨htrims, hitems⟩ := foldlM_spec Trims
                (fun w t => Walked g t w) Trims.refl Trims.trans (fun ht hw => hw.mono ht)
                (fun w _ t t' ht hw => ⟨(ih hw).trims, (ih hw).of_trims ht⟩) h
              refine walked_node htrims ?_ fun w hw => ?_
              · exact (hnode ▸ htrims id).clean_of_sequence
              · obtain ⟨id', hid, hmem⟩ := hw
                obtain rfl := YamlValue.node.inj hid
                rw [hnode] at hmem
                exact hitems w hmem
          | mapping fields =>
              rw [hnode] at h
              obtain ⟨htrims, hkeys⟩ := foldlM_spec Trims (KeyDone g id)
                Trims.refl Trims.trans (fun ht hdone => hdone.mono ht)
                (fun key _ t t' ht hkey => keyDone_of_some ih ht hkey) h
              refine walked_node htrims (fun key hpollutes => ?_) fun w hw => ?_
              · by_cases hmem : key ∈ fields.keys
                · exact (hkeys key hmem).gone hpollutes
                · refine (htrims id).get?_eq_none ?_
                  rw [hnode, YamlNode.get?]
                  exact Option.eq_none_iff_forall_ne_some.mpr fun value hvalue =>
                    hmem (OrderedMap.mem_keys.2 (by rw [hvalue]; simp))
              · obtain ⟨key, hmem, hkey, hvalue⟩ := get?_of_leads hnode hw
                exact (hkeys key hmem).walked hkey hvalue

-- with room for `bound` calls the walk returns, whatever was deleted before
def Bounded (g : YamlGraph S size) (root : YamlValue S size) (bound : ℕ) : Prop :=
  ∀ depth ≥ bound, ∀ t, Trims g t → ∃ t', stripPollutionKeys depth t root = some t'

theorem exists_bound {children : List (YamlValue S size)}
    (h : ∀ w ∈ children, ∃ bound, Bounded g w bound) :
    ∃ bound, ∀ w ∈ children, Bounded g w bound := by
  induction children with
  | nil => exact ⟨0, by simp⟩
  | cons w rest ih =>
      obtain ⟨first, hfirst⟩ := h w (List.mem_cons_self ..)
      obtain ⟨others, hothers⟩ := ih fun w hw => h w (List.mem_cons_of_mem _ hw)
      refine ⟨max first others, fun v hv depth hdepth => ?_⟩
      rcases List.mem_cons.mp hv with rfl | hv
      · exact hfirst depth (by omega)
      · exact hothers v hv depth (by omega)

theorem bounded_node {id : Fin size} {bound : ℕ}
    (h : ∀ w ∈ (g id).lastingChildren, Bounded g w bound) : Bounded g (.node id) (bound + 1) := by
  intro depth hdepth t ht
  obtain ⟨depth, rfl⟩ := Nat.exists_eq_add_of_le' (Nat.le_of_add_left_le hdepth)
  unfold stripPollutionKeys
  rw [← (ht id).lastingChildren] at h
  cases hnode : t id with
  | sequence items =>
      rw [hnode] at h
      refine foldlM_ends Trims Trims.refl Trims.trans fun w hw u hu => ?_
      obtain ⟨u', hwalk⟩ := h w hw depth (by omega) u (ht.trans hu)
      exact ⟨u', hwalk, (walked_of_some hwalk).trims⟩
  | mapping fields =>
      refine foldlM_ends Trims Trims.refl Trims.trans fun key _ u hu => ?_
      split
      next hkey => exact ⟨_, rfl, trims_delete u id hkey⟩
      next hkey =>
        split
        next value hvalue =>
          have hlasting : pollutes key = false := by simpa using hkey
          obtain ⟨id', hid, hmem⟩ := leads_of_get? hlasting hvalue
          obtain rfl := YamlValue.node.inj hid
          rw [(hu _).lastingChildren] at hmem
          obtain ⟨u', hwalk⟩ := h value hmem depth (by omega) u (ht.trans hu)
          exact ⟨u', hwalk, (walked_of_some hwalk).trims⟩
        next => exact ⟨u, rfl, .refl u⟩

theorem bounded_of_acc (h : Acc (fun w v => Leads g v w) root) :
    ∃ bound, Bounded g root bound := by
  induction h with
  | intro root _ ih =>
      cases root with
      | scalar value =>
          refine ⟨1, fun depth hdepth t _ => ?_⟩
          obtain ⟨depth, rfl⟩ := Nat.exists_eq_add_of_le' hdepth
          exact ⟨t, rfl⟩
      | node id =>
          obtain ⟨bound, hbound⟩ := exists_bound fun w hw => ih w ⟨id, rfl, hw⟩
          exact ⟨bound + 1, bounded_node hbound⟩

theorem Walked.stripped (h : Walked g g' root) : Stripped g g' root := by
  refine ⟨fun id hid => ?_, h.trims⟩
  have hleads (v : YamlValue S size) (hv : ReflTransGen (Contains g') root v) :
      ReflTransGen (Leads g) root v := by
    induction hv with
    | refl => exact .refl
    | tail _ hcontains ih =>
        obtain ⟨id, rfl, hw⟩ := hcontains
        refine ih.tail ⟨id, rfl, ?_⟩
        rw [← (h.trims id).lastingChildren, YamlNode.lastingChildren_of_clean (h.clean id ih)]
        exact hw
  exact h.clean id (hleads _ hid)

theorem not_self_of_acc {v : YamlValue S size} (h : Acc (fun w v => Leads g v w) v) :
    ¬ TransGen (Leads g) v v := by
  have hacc : Acc (fun w v => TransGen (Leads g) v w) v := by
    have hswap : (fun w v => TransGen (Leads g) v w) = TransGen fun w v => Leads g v w := by
      funext w v
      exact propext transGen_swap.symm
    rw [hswap]
    exact h.transGen
  clear h
  induction hacc with
  | intro v _ ih => exact fun hself => ih v hself hself

theorem not_knotted_of_acc (h : Acc (fun w v => Leads g v w) root) : ¬ Knotted g root := by
  rintro ⟨id, hreach, hself⟩
  have hacc (v : YamlValue S size) (hv : ReflTransGen (Leads g) root v) :
      Acc (fun w v => Leads g v w) v := by
    induction hv with
    | refl => exact h
    | tail _ hstep ih => exact ih.inv hstep
  exact not_self_of_acc (hacc _ hreach) hself

-- the part of the graph that the walk goes into
def Below (g : YamlGraph S size) (root : YamlValue S size) (id' id : Fin size) : Prop :=
  ReflTransGen (Leads g) root (.node id) ∧ TransGen (Leads g) (.node id) (.node id')

theorem acc_of_not_knotted (h : ¬ Knotted g root) : Acc (fun w v => Leads g v w) root := by
  have htrans : IsTrans (Fin size) (Below g root) :=
    ⟨fun _ _ _ hab hbc => ⟨hbc.1, hbc.2.trans hab.2⟩⟩
  have hirrefl : Std.Irrefl (Below g root) := ⟨fun id hself => h ⟨id, hself⟩⟩
  have hnode (id : Fin size) (hid : ReflTransGen (Leads g) root (.node id)) :
      Acc (fun w v => Leads g v w) (.node id) := by
    induction id using (Finite.wellFounded_of_trans_of_irrefl (Below g root)).induction with
    | _ id ih =>
        refine ⟨_, fun w hw => ?_⟩
        cases w with
        | scalar value => exact acc_scalar g value
        | node id' => exact ih id' ⟨hid, .single hw⟩ (hid.tail hw)
  cases root with
  | scalar value => exact acc_scalar g value
  | node id => exact hnode id .refl

end Walk

theorem strips_iff_not_knotted (g : YamlGraph S size) (root : YamlValue S size) :
    (∃ bound, ∀ depth ≥ bound, ∃ g', stripPollutionKeys depth g root = some g' ∧
      Stripped g g' root) ↔ ¬ Knotted g root := by
  constructor
  · rintro ⟨bound, hends⟩
    obtain ⟨g', hwalk, -⟩ := hends bound le_rfl
    exact not_knotted_of_acc (walked_of_some hwalk).acc
  · intro h
    obtain ⟨bound, hbound⟩ := bounded_of_acc (acc_of_not_knotted h)
    refine ⟨bound, fun depth hdepth => ?_⟩
    obtain ⟨g', hwalk⟩ := hbound depth hdepth g (.refl g)
    exact ⟨g', hwalk, (walked_of_some hwalk).stripped⟩

section Example

-- "gateway: &g { self: *g }"
def selfReferring : YamlGraph Json 2 :=
  fun id =>
    if id = 0 then .mapping ⟨[("gateway", .node 1)], by decide⟩
    else .mapping ⟨[("self", .node 1)], by decide⟩

theorem self_reference_overflows :
    ¬ ∃ depth g', stripPollutionKeys depth selfReferring (.node 0) = some g' := by
  rintro ⟨depth, g', hwalk⟩
  refine not_knotted_of_acc (walked_of_some hwalk).acc ⟨1, ?_, ?_⟩
  · exact .single ⟨0, rfl, by decide⟩
  · exact .single ⟨1, rfl, by decide⟩

end Example

end Conduit.Utils
