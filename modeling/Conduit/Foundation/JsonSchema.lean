import Conduit.Foundation.JsonFilling

namespace Json

-- a type of values; an object has its required and optional properties and no others
inductive Schema where
  | any
  | text
  | number
  | boolean
  | oneOf (texts : List String)
  | list (item : Schema)
  | record (value : Schema)
  | object (required optional : List (String × Schema))

namespace Schema

def keys (required optional : List (String × Schema)) : List String :=
  required.map Prod.fst ++ optional.map Prod.fst

mutual

@[simp] def accepts : Schema → Json → Bool
  | .any, _ => true
  | .text, .str _ => true
  | .number, .num _ => true
  | .boolean, .bool _ => true
  | .oneOf texts, .str s => texts.contains s
  | .list item, .arr items => items.all fun x => item.accepts x
  | .record value, .obj fields =>
      fields.all fun e => (field fields e.1).all fun x => value.accepts x
  | .object required optional, .obj fields =>
      acceptsRequired required fields && acceptsOptional optional fields &&
        fields.all fun e => (keys required optional).contains e.1
  | _, _ => false

@[simp] def acceptsRequired : List (String × Schema) → List (String × Json) → Bool
  | [], _ => true
  | (k, s) :: rest, fields =>
      (field fields k).any (fun x => s.accepts x) && acceptsRequired rest fields

@[simp] def acceptsOptional : List (String × Schema) → List (String × Json) → Bool
  | [], _ => true
  | (k, s) :: rest, fields =>
      (field fields k).all (fun x => s.accepts x) && acceptsOptional rest fields

end

section Values

variable {v : Json} {s : Schema} {required optional : List (String × Schema)}

theorem accepts_text_iff : text.accepts v = true ↔ ∃ s, v = .str s := by
  cases v <;> simp [accepts]

theorem accepts_number_iff : number.accepts v = true ↔ ∃ n, v = .num n := by
  cases v <;> simp [accepts]

theorem accepts_boolean_iff : boolean.accepts v = true ↔ ∃ b, v = .bool b := by
  cases v <;> simp [accepts]

theorem accepts_oneOf_iff {texts : List String} :
    (oneOf texts).accepts v = true ↔ ∃ s, v = .str s ∧ s ∈ texts := by
  cases v <;> simp [accepts]

theorem accepts_text_of_oneOf {texts : List String} (h : (oneOf texts).accepts v = true) :
    text.accepts v = true := by
  obtain ⟨s, rfl, -⟩ := accepts_oneOf_iff.1 h
  rfl

theorem accepts_list_iff :
    (list s).accepts v = true ↔ ∃ items, v = .arr items ∧ ∀ x ∈ items, s.accepts x = true := by
  cases v <;> simp [accepts]

theorem accepts_record_iff :
    (record s).accepts v = true ↔
      ∃ fields, v = .obj fields ∧ ∀ k x, field fields k = some x → s.accepts x = true := by
  cases v with
  | obj fields =>
      simp only [accepts, List.all_eq_true, Json.obj.injEq, exists_eq_left']
      constructor
      · intro h k x hx
        have hk := h (k, x) (mem_of_field hx)
        simpa [hx] using hk
      · intro h e _
        cases hx : field fields e.1 with
        | none => rfl
        | some x => exact h e.1 x hx
  | null | bool | num | str | arr => simp [accepts]

theorem acceptsRequired_iff {fields : List (String × Json)} :
    acceptsRequired required fields = true ↔
      ∀ e ∈ required, ∃ x, field fields e.1 = some x ∧ e.2.accepts x = true := by
  induction required with
  | nil => simp [acceptsRequired]
  | cons e required ih =>
      obtain ⟨k, s⟩ := e
      simp [acceptsRequired, ih, Option.any_eq_true]

theorem acceptsOptional_iff {fields : List (String × Json)} :
    acceptsOptional optional fields = true ↔
      ∀ e ∈ optional, ∀ x, field fields e.1 = some x → e.2.accepts x = true := by
  induction optional with
  | nil => simp [acceptsOptional]
  | cons e optional ih =>
      obtain ⟨k, s⟩ := e
      simp [acceptsOptional, ih, Option.all_eq_true]

theorem accepts_object_iff :
    (object required optional).accepts v = true ↔ ∃ fields, v = .obj fields ∧
      (∀ e ∈ required, ∃ x, field fields e.1 = some x ∧ e.2.accepts x = true) ∧
      (∀ e ∈ optional, ∀ x, field fields e.1 = some x → e.2.accepts x = true) ∧
      ∀ k x, field fields k = some x → k ∈ keys required optional := by
  cases v with
  | obj fields =>
      simp only [accepts, Bool.and_eq_true, acceptsRequired_iff, acceptsOptional_iff,
        List.all_eq_true, List.contains_iff_mem, Json.obj.injEq, exists_eq_left', and_assoc]
      refine and_congr_right fun _ => and_congr_right fun _ => ?_
      constructor
      · intro h k x hx
        exact h (k, x) (mem_of_field hx)
      · intro h e he
        obtain ⟨x, hx⟩ := Option.isSome_iff_exists.mp (field_isSome_of_mem he)
        exact h e.1 x hx
  | null | bool | num | str | arr => simp [accepts]

theorem value_of_record (h : (record s).accepts v = true) {k : String} {x : Json}
    (hx : v.get? k = some x) : s.accepts x = true := by
  obtain ⟨fields, rfl, hfields⟩ := accepts_record_iff.1 h
  exact hfields k x hx

theorem required_of_object (h : (object required optional).accepts v = true) {k : String}
    (hmem : (k, s) ∈ required) : ∃ x, v.get? k = some x ∧ s.accepts x = true := by
  obtain ⟨fields, rfl, hrequired, -, -⟩ := accepts_object_iff.1 h
  exact hrequired (k, s) hmem

theorem optional_of_object (h : (object required optional).accepts v = true) {k : String}
    (hmem : (k, s) ∈ optional) {x : Json} (hx : v.get? k = some x) : s.accepts x = true := by
  obtain ⟨fields, rfl, -, hoptional, -⟩ := accepts_object_iff.1 h
  exact hoptional (k, s) hmem x hx

theorem closed_of_object (h : (object required optional).accepts v = true) {k : String}
    (hk : k ∉ keys required optional) : v.get? k = none := by
  obtain ⟨fields, rfl, -, -, hclosed⟩ := accepts_object_iff.1 h
  cases hx : (Json.obj fields).get? k with
  | none => rfl
  | some x => exact absurd (hclosed k x hx) hk

theorem accepts_object_of_get? (hobject : ∃ fields, v = .obj fields)
    (hrequired : ∀ e ∈ required, ∃ x, v.get? e.1 = some x ∧ e.2.accepts x = true)
    (hoptional : ∀ e ∈ optional, ∀ x, v.get? e.1 = some x → e.2.accepts x = true)
    (hclosed : ∀ k x, v.get? k = some x → k ∈ keys required optional) :
    (object required optional).accepts v = true := by
  obtain ⟨fields, rfl⟩ := hobject
  exact accepts_object_iff.2 ⟨fields, rfl, hrequired, hoptional, hclosed⟩

theorem fills_of_covers {d : Option Json} {ks : List String} {fs : List (String × Json)}
    (h : (object required optional).accepts v = true)
    (hcovers : Covers (fun k => d.bind fun x => x.get? k) v.get? ks fs)
    (hkeys : ∀ k ∈ keys required optional, k ∈ ks) : Fills d v (.obj fs) := by
  obtain ⟨fields, rfl, -, -, -⟩ := accepts_object_iff.1 h
  apply Fills.of_fields
  exact hcovers.filled fun k hk => closed_of_object h fun hmem => hk (hkeys k hmem)

end Values

section Stability

-- what fills a value of the type from a value of the type is of the type
def Stable (s : Schema) : Prop :=
  ∀ d v w, s.accepts v = true → (∀ x, d = some x → s.accepts x = true) → Fills d v w →
    s.accepts w = true

variable {s : Schema}

theorem Stable.filled (hs : s.Stable) {d v w : Option Json} (h : Filled d v w)
    (hv : ∀ x, v = some x → s.accepts x = true) (hd : ∀ x, d = some x → s.accepts x = true)
    {y : Json} (hw : w = some y) : s.accepts y = true := by
  cases h with
  | absent => cases hw
  | kept h =>
      cases hw
      exact hs d _ y (hv _ rfl) hd h
  | added h => exact hd y (h.trans hw)

theorem stable_list (hs : s.Stable) : (list s).Stable := by
  intro d v w hv _ h
  obtain ⟨vs, rfl, hitems⟩ := accepts_list_iff.1 hv
  obtain ⟨ws, rfl, hlength, hitem⟩ := h.items
  refine accepts_list_iff.2 ⟨ws, rfl, ?_⟩
  intro y hy
  obtain ⟨i, hi⟩ := List.mem_iff_getElem?.mp hy
  obtain ⟨hlt, -⟩ := List.getElem?_eq_some_iff.mp hi
  obtain ⟨x, hx⟩ : ∃ x, vs[i]? = some x := ⟨_, List.getElem?_eq_getElem (hlength ▸ hlt)⟩
  exact hs none x y (hitems x (List.mem_of_getElem? hx)) nofun (hitem i x y hx hi)

theorem stable_record (hs : s.Stable) : (record s).Stable := by
  intro d v w hv hd h
  obtain ⟨vs, rfl, hfields⟩ := accepts_record_iff.1 hv
  obtain ⟨ws, rfl⟩ := h.object
  refine accepts_record_iff.2 ⟨ws, rfl, ?_⟩
  intro k y hy
  refine hs.filled (h.get? k) (fun x hx => hfields k x hx) ?_ hy
  intro x hx
  obtain ⟨base, hbase, hbasex⟩ := Option.bind_eq_some_iff.mp hx
  exact value_of_record (hd base hbase) hbasex

theorem stable_object {required optional : List (String × Schema)}
    (hrequired : ∀ e ∈ required, e.2.Stable) (hoptional : ∀ e ∈ optional, e.2.Stable) :
    (object required optional).Stable := by
  intro d v w hv hd h
  obtain ⟨vs, rfl, hreq, hopt, -⟩ := accepts_object_iff.1 hv
  obtain ⟨ws, rfl⟩ := h.object
  refine accepts_object_iff.2 ⟨ws, rfl, ?_, ?_, ?_⟩
  · intro e he
    obtain ⟨x, hx, hsx⟩ := hreq e he
    have hfilled := h.get? e.1
    rw [show (Json.obj vs).get? e.1 = some x from hx] at hfilled
    cases hy : (Json.obj ws).get? e.1 with
    | none =>
        rw [hy] at hfilled
        cases hfilled
    | some y =>
        refine ⟨y, hy, (hrequired e he).filled hfilled ?_ ?_ hy⟩
        · intro x' hx'
          cases hx'
          exact hsx
        · intro x' hx'
          obtain ⟨base, hbase, hbasex⟩ := Option.bind_eq_some_iff.mp hx'
          obtain ⟨x'', hx'', hsx''⟩ := required_of_object (hd base hbase) he
          cases hbasex.symm.trans hx''
          exact hsx''
  · intro e he y hy
    refine (hoptional e he).filled (h.get? e.1) (fun x hx => hopt e he x hx) ?_ hy
    intro x hx
    obtain ⟨base, hbase, hbasex⟩ := Option.bind_eq_some_iff.mp hx
    exact optional_of_object (hd base hbase) he hbasex
  · intro k y hy
    by_contra hk
    have hfilled := h.get? k
    rw [closed_of_object hv hk, show (Json.obj ws).get? k = some y from hy] at hfilled
    cases hfilled with
    | added hadded =>
        obtain ⟨base, hbase, hbasey⟩ := Option.bind_eq_some_iff.mp hadded
        rw [closed_of_object (hd base hbase) hk] at hbasey
        cases hbasey

mutual

theorem stable : (s : Schema) → s.Stable
  | .any => fun _ _ w _ _ _ => by cases w <;> rfl
  | .text => fun _ _ _ hv _ h => by
      obtain ⟨s, rfl⟩ := accepts_text_iff.1 hv
      cases h
      rfl
  | .number => fun _ _ _ hv _ h => by
      obtain ⟨n, rfl⟩ := accepts_number_iff.1 hv
      cases h
      rfl
  | .boolean => fun _ _ _ hv _ h => by
      obtain ⟨b, rfl⟩ := accepts_boolean_iff.1 hv
      cases h
      rfl
  | .oneOf texts => fun _ _ _ hv _ h => by
      obtain ⟨s, rfl, -⟩ := accepts_oneOf_iff.1 hv
      cases h
      exact hv
  | .list item => stable_list item.stable
  | .record value => stable_record value.stable
  | .object required optional => stable_object (stable_fields required) (stable_fields optional)

theorem stable_fields : (es : List (String × Schema)) → ∀ e ∈ es, e.2.Stable
  | [] => nofun
  | (_, s) :: rest => fun e he => by
      rcases List.mem_cons.mp he with rfl | he
      · exact s.stable
      · exact stable_fields rest e he

end

end Stability

end Schema

end Json
