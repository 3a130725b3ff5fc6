import Conduit.Config.TypeSchemas

namespace Conduit.Config

open Json Typed

-- a normalizer that loses nothing of the values of a type and adds only what the defaults have
def Keeps (s : Schema) (f : Json → Json) : Prop :=
  ∀ d v, s.accepts v = true → Fills d v (f v)

section Values

theorem keeps_text : Keeps .text text := by
  intro d v h
  obtain ⟨s, rfl⟩ := Schema.accepts_text_iff.1 h
  exact .refl d _

theorem keeps_oneOf {names : List String} : Keeps (.oneOf names) text :=
  fun d v h => keeps_text d v (Schema.accepts_text_of_oneOf h)

theorem keeps_number (host : Host) : Keeps .number (number host) := by
  intro d v h
  obtain ⟨n, rfl⟩ := Schema.accepts_number_iff.1 h
  exact .refl d _

theorem keeps_notFalse : Keeps .boolean notFalse := by
  intro d v h
  obtain ⟨b, rfl⟩ := Schema.accepts_boolean_iff.1 h
  cases b <;> exact .refl d _

theorem keeps_isTrue : Keeps .boolean isTrue := by
  intro d v h
  obtain ⟨b, rfl⟩ := Schema.accepts_boolean_iff.1 h
  cases b <;> exact .refl d _

theorem field_textValues (fields : Fields) (k : String) :
    Json.field (fields.map fun e => (e.1, text e.2)) k = (Json.field fields k).map text := by
  induction fields with
  | nil => rfl
  | cons e fields ih =>
      obtain ⟨k', v⟩ := e
      by_cases h : k' = k <;> simp [Json.field, h, ih]

theorem keeps_headerTexts : Keeps (.record .text) headerTexts := by
  intro d v h
  obtain ⟨fields, rfl, hfields⟩ := Schema.accepts_record_iff.1 h
  apply Fills.of_fields
  intro k
  rw [field_textValues]
  cases hx : Json.field fields k with
  | none => exact .absent
  | some x => exact .kept (keeps_text _ x (hfields k x hx))

end Values

section Items

variable {s : Schema} {d : Option Json} {items : List Json}

-- the same for what a normalizer makes of the items of a list
def KeepsItems (s : Schema) (f : List Json → Json) : Prop :=
  ∀ d items, (∀ x ∈ items, s.accepts x = true) → Fills d (.arr items) (f items)

theorem keepsItems_texts_of {s : Schema} (h : Keeps s text) : KeepsItems s texts := by
  intro d items hitems
  exact Fills.map text fun x hx => h none x (hitems x hx)

theorem keepsItems_texts : KeepsItems .text texts := keepsItems_texts_of keeps_text

theorem keepsItems_oneOf {names : List String} : KeepsItems (.oneOf names) texts :=
  keepsItems_texts_of keeps_oneOf

theorem isPlainObject_of_object {required optional : List (String × Schema)} {v : Json}
    (h : (Schema.object required optional).accepts v = true) : isPlainObject v = true := by
  obtain ⟨fields, rfl, -⟩ := Schema.accepts_object_iff.1 h
  rfl

theorem isPlainObject_of_record {v : Json} (h : (Schema.record s).accepts v = true) :
    isPlainObject v = true := by
  obtain ⟨fields, rfl, -⟩ := Schema.accepts_record_iff.1 h
  rfl

theorem keepsItems_objects {required optional : List (String × Schema)} {f : Json → Json}
    (h : Keeps (.object required optional) f) : KeepsItems (.object required optional) (objects f) := by
  intro d items hitems
  have hall : items.filter isPlainObject = items :=
    List.filter_eq_self.mpr fun x hx => isPlainObject_of_object (hitems x hx)
  rw [objects, hall]
  exact Fills.map f fun x hx => h none x (hitems x hx)

end Items

section Properties

variable {required optional : List (String × Schema)} {raw : Json} {key : String} {s : Schema}
  {base : String → Option Json}

theorem eq_text_of_keeps (hkeeps : Keeps s text) {v : Json} (h : s.accepts v = true) :
    v = text v := by
  have hfills := hkeeps none v h
  cases v with
  | str => rfl
  | null | bool | num | arr | obj => cases hfills

theorem filled_textOr (h : (Schema.object required optional).accepts raw = true)
    (hmem : (key, s) ∈ required) (hkeeps : Keeps s text) {fallback : String} {d : Option Json} :
    Filled d (raw.get? key) (some (textOr raw key fallback)) := by
  obtain ⟨x, hx, hs⟩ := Schema.required_of_object h hmem
  have hfallback : textOr raw key fallback = x := by
    rw [textOr, hx, eq_text_of_keeps hkeeps hs]
    rfl
  rw [hx, hfallback]
  exact .refl d _

theorem filled_notFalse (h : (Schema.object required optional).accepts raw = true)
    (hmem : (key, .boolean) ∈ required) {d : Option Json} :
    Filled d (raw.get? key) (some (notFalse ((raw.get? key).getD .null))) := by
  obtain ⟨x, hx, hs⟩ := Schema.required_of_object h hmem
  rw [hx]
  exact .kept (keeps_notFalse d x hs)

theorem covers_option {look : String → Option Json} {value : Option Json} {f : Json → Json}
    (h : Filled (base key) (look key) (value.map f)) :
    Covers base look [key] (value.map fun v => (key, f v)).toList := by
  have heq : (value.map fun v => (key, f v)) = (value.map f).map fun v => (key, v) := by
    rw [Option.map_map]
    rfl
  rw [heq]
  exact Covers.optional h

theorem filled_map {f : Json → Json} {d value : Option Json}
    (h : ∀ x, value = some x → s.accepts x = true) (hkeeps : Keeps s f) :
    Filled d value (value.map f) := by
  cases value with
  | none => exact .absent
  | some x => exact .kept (hkeeps d x (h x rfl))

theorem covers_defined {f : Json → Json} (h : (Schema.object required optional).accepts raw = true)
    (hmem : (key, s) ∈ optional) (hkeeps : Keeps s f) :
    Covers base raw.get? [key] (defined raw key f) :=
  covers_option (filled_map (fun _ => Schema.optional_of_object h hmem) hkeeps)

theorem covers_itemsOf {f : List Json → Json}
    (h : (Schema.object required optional).accepts raw = true)
    (hmem : (key, .list s) ∈ optional) (hkeeps : KeepsItems s f) :
    Covers base raw.get? [key] (itemsOf raw key f) := by
  cases hx : raw.get? key with
  | none =>
      rw [itemsOf, hx]
      exact .absent hx
  | some x =>
      obtain ⟨items, rfl, hitems⟩ :=
        Schema.accepts_list_iff.1 (Schema.optional_of_object h hmem hx)
      rw [itemsOf, hx]
      apply Covers.single
      rw [hx]
      exact .kept (hkeeps _ items hitems)

theorem covers_objectOf {f : Json → Json} (h : (Schema.object required optional).accepts raw = true)
    (hmem : (key, s) ∈ optional) (hobj : ∀ x, s.accepts x = true → isPlainObject x = true)
    (hkeeps : Keeps s f) : Covers base raw.get? [key] (objectOf raw key f) := by
  cases hx : raw.get? key with
  | none =>
      rw [objectOf, hx]
      exact .absent hx
  | some x =>
      have hs := Schema.optional_of_object h hmem hx
      cases x with
      | obj fields =>
          rw [objectOf, hx]
          apply Covers.single
          rw [hx]
          exact .kept (hkeeps _ _ hs)
      | null | bool | num | str | arr => cases hobj _ hs

end Properties

section Normalizers

variable (host : Host)

theorem keeps_normalizeConnectProfile : Keeps connectProfileConfig normalizeConnectProfile := by
  intro d raw h
  obtain ⟨ids, hids, hlist⟩ := Schema.required_of_object (k := "server_ids") h (by repeat constructor)
  obtain ⟨items, rfl, hitems⟩ := Schema.accepts_list_iff.1 hlist
  refine Schema.fills_of_covers h (((Covers.cons (filled_textOr h (by repeat constructor) keeps_text)
      (.single ?_) (by decide)).append
    (covers_defined h (by repeat constructor) keeps_text) (by decide)).append
    (covers_defined h (by repeat constructor) keeps_text) (by decide)) (by decide)
  rw [hids]
  exact .kept (keepsItems_texts _ items hitems)

theorem keeps_normalizeConnectRegistry :
    Keeps connectRegistryConfig (normalizeConnectRegistry host) := by
  intro d raw h
  exact Schema.fills_of_covers h (((((covers_defined h (by repeat constructor) keeps_text).append
    (covers_defined h (by repeat constructor) (keeps_number host)) (by decide)).append
    (covers_defined h (by repeat constructor) (keeps_number host)) (by decide)).append
    (covers_defined h (by repeat constructor) (keeps_number host)) (by decide)).append
    (covers_defined h (by repeat constructor) keeps_notFalse) (by decide)) (by decide)

theorem keeps_normalizeConnectManagedRuntime :
    Keeps connectManagedRuntimeConfig normalizeConnectManagedRuntime := by
  intro d raw h
  exact Schema.fills_of_covers h (((((covers_defined h (by repeat constructor) keeps_notFalse).append
    (covers_defined h (by repeat constructor) keeps_text) (by decide)).append
    (covers_defined h (by repeat constructor) keeps_oneOf) (by decide)).append
    (covers_defined h (by repeat constructor) keeps_notFalse) (by decide)).append
    (covers_defined h (by repeat constructor) keeps_notFalse) (by decide)) (by decide)

theorem keeps_normalizeConnectConfig : Keeps connectConfig (normalizeConnectConfig host) := by
  intro d raw h
  exact Schema.fills_of_covers h (((covers_itemsOf h (by repeat constructor)
      (keepsItems_objects keeps_normalizeConnectProfile)).append
    (covers_objectOf h (by repeat constructor) (fun _ => isPlainObject_of_object)
      (keeps_normalizeConnectRegistry host)) (by decide)).append
    (covers_objectOf h (by repeat constructor) (fun _ => isPlainObject_of_object)
      keeps_normalizeConnectManagedRuntime) (by decide)) (by decide)

theorem keeps_normalizeIdentityWorkspace :
    Keeps identityWorkspaceConfig normalizeIdentityWorkspace := by
  intro d raw h
  exact Schema.fills_of_covers h (((Covers.single
      (filled_textOr h (by repeat constructor) keeps_text)).append
    (covers_defined h (by repeat constructor) keeps_text) (by decide)).append
    (covers_itemsOf h (by repeat constructor) keepsItems_texts) (by decide)) (by decide)

-- workspaces are added with their default
theorem fills_normalizeIdentityConfig {d : Option Json} {raw : Json}
    (h : identityConfig.accepts raw = true)
    (hadded : raw.get? "workspaces" = none → (d.bind fun x => x.get? "workspaces") = some (.arr [])) :
    Fills d raw (normalizeIdentityConfig raw) := by
  refine Schema.fills_of_covers h (((Covers.cons (filled_notFalse h (by repeat constructor))
      (.single ?_) (by decide)).append
    (covers_defined h (by repeat constructor) keeps_text) (by decide)).append
    (covers_defined h (by repeat constructor) keeps_text) (by decide)) (by decide)
  cases hx : raw.get? "workspaces" with
  | none => exact .added (hadded hx)
  | some x =>
      have hlist := Schema.optional_of_object h (by repeat constructor) hx
      obtain ⟨items, rfl, hitems⟩ := Schema.accepts_list_iff.1 hlist
      exact .kept (keepsItems_objects keeps_normalizeIdentityWorkspace _ items hitems)

theorem covers_normalizeToolRateLimit {required : List (String × Schema)} {raw : Json}
    {base : String → Option Json}
    (h : (Schema.object required toolRateLimitFields).accepts raw = true) :
    Covers base raw.get? ["requests_per_minute", "requests_per_hour", "requests_per_day"]
      (normalizeToolRateLimit host raw) :=
  ((covers_defined h (by repeat constructor) (keeps_number host)).append
    (covers_defined h (by repeat constructor) (keeps_number host)) (by decide)).append
    (covers_defined h (by repeat constructor) (keeps_number host)) (by decide)

theorem keeps_normalizeGovernanceWorkspaceQuota :
    Keeps governanceWorkspaceQuotaConfig (normalizeGovernanceWorkspaceQuota host) := by
  intro d raw h
  exact Schema.fills_of_covers h (Covers.cons (filled_textOr h (by repeat constructor) keeps_text)
    (covers_normalizeToolRateLimit host h) (by decide)) (by decide)

theorem keeps_normalizeQuotas : Keeps governanceQuotasConfig (normalizeQuotas host) := by
  intro d raw h
  have hdefault : Keeps toolRateLimitConfig fun value => .obj (normalizeToolRateLimit host value) :=
    fun d value h =>
      Schema.fills_of_covers h (covers_normalizeToolRateLimit host h) (by decide)
  exact Schema.fills_of_covers h ((covers_objectOf h (by repeat constructor)
      (fun _ => isPlainObject_of_object) hdefault).append
    (covers_itemsOf h (by repeat constructor)
      (keepsItems_objects (keeps_normalizeGovernanceWorkspaceQuota host))) (by decide)) (by decide)

theorem keeps_normalizeGovernanceRoleBinding :
    Keeps governanceRoleBindingConfig normalizeGovernanceRoleBinding := by
  intro d raw h
  obtain ⟨ids, hids, hlist⟩ := Schema.required_of_object (k := "clients") h (by repeat constructor)
  obtain ⟨items, rfl, hitems⟩ := Schema.accepts_list_iff.1 hlist
  refine Schema.fills_of_covers h (Covers.cons (filled_textOr h (by repeat constructor) keeps_text)
    (Covers.cons (filled_textOr h (by repeat constructor) keeps_oneOf) (.single ?_) (by decide))
    (by decide)) (by decide)
  rw [hids]
  exact .kept (keepsItems_texts _ items hitems)

theorem keeps_normalizeGovernanceToolPolicy :
    Keeps governanceToolPolicyConfig normalizeGovernanceToolPolicy := by
  intro d raw h
  exact Schema.fills_of_covers h (((((((Covers.cons
      (filled_textOr h (by repeat constructor) keeps_text)
      (.single (filled_textOr h (by repeat constructor) keeps_oneOf)) (by decide)).append
    (covers_itemsOf h (by repeat constructor) keepsItems_texts) (by decide)).append
    (covers_itemsOf h (by repeat constructor) keepsItems_oneOf) (by decide)).append
    (covers_itemsOf h (by repeat constructor) keepsItems_texts) (by decide)).append
    (covers_itemsOf h (by repeat constructor) keepsItems_texts) (by decide)).append
    (covers_itemsOf h (by repeat constructor) keepsItems_texts) (by decide)).append
    (covers_defined h (by repeat constructor) keeps_text) (by decide)) (by decide)

theorem keeps_normalizeGovernanceRegistryPolicy :
    Keeps governanceRegistryPolicyConfig normalizeGovernanceRegistryPolicy := by
  intro d raw h
  exact Schema.fills_of_covers h ((((((((Covers.cons
      (filled_textOr h (by repeat constructor) keeps_text)
      (.single (filled_textOr h (by repeat constructor) keeps_oneOf)) (by decide)).append
    (covers_itemsOf h (by repeat constructor) keepsItems_texts) (by decide)).append
    (covers_itemsOf h (by repeat constructor) keepsItems_oneOf) (by decide)).append
    (covers_itemsOf h (by repeat constructor) keepsItems_texts) (by decide)).append
    (covers_itemsOf h (by repeat constructor) keepsItems_texts) (by decide)).append
    (covers_itemsOf h (by repeat constructor) keepsItems_texts) (by decide)).append
    (covers_itemsOf h (by repeat constructor) keepsItems_texts) (by decide)).append
    (covers_defined h (by repeat constructor) keeps_text) (by decide)) (by decide)

theorem keeps_normalizeApprovals : Keeps governanceApprovalsConfig (normalizeApprovals host) := by
  intro d raw h
  exact Schema.fills_of_covers h ((((covers_defined h (by repeat constructor) keeps_notFalse).append
    (covers_defined h (by repeat constructor) (keeps_number host)) (by decide)).append
    (covers_itemsOf h (by repeat constructor) keepsItems_oneOf) (by decide)).append
    (covers_defined h (by repeat constructor) keeps_isTrue) (by decide)) (by decide)

theorem covers_registryDefaultAction {raw : Json} {base : String → Option Json}
    (h : governanceConfig.accepts raw = true) :
    Covers base raw.get? ["registry_default_action"] (registryDefaultAction raw) := by
  cases hx : raw.get? "registry_default_action" with
  | none =>
      rw [registryDefaultAction, hx]
      exact .absent hx
  | some x =>
      obtain ⟨action, rfl, hmem⟩ :=
        Schema.accepts_oneOf_iff.1 (Schema.optional_of_object h (by repeat constructor) hx)
      have heq : registryDefaultAction raw = [("registry_default_action", .str action)] := by
        rw [registryDefaultAction, hx]
        rcases List.mem_pair.mp hmem with rfl | rfl <;> rfl
      rw [heq]
      apply Covers.single
      rw [hx]
      exact .refl _ _

theorem keeps_normalizeGovernanceConfig :
    Keeps governanceConfig (normalizeGovernanceConfig host) := by
  intro d raw h
  exact Schema.fills_of_covers h ((((((((Covers.single
      (filled_notFalse h (by repeat constructor))).append
    (covers_defined h (by repeat constructor) keeps_text) (by decide)).append
    (covers_registryDefaultAction h) (by decide)).append
    (covers_itemsOf h (by repeat constructor)
      (keepsItems_objects keeps_normalizeGovernanceRoleBinding)) (by decide)).append
    (covers_itemsOf h (by repeat constructor)
      (keepsItems_objects keeps_normalizeGovernanceToolPolicy)) (by decide)).append
    (covers_itemsOf h (by repeat constructor)
      (keepsItems_objects keeps_normalizeGovernanceRegistryPolicy)) (by decide)).append
    (covers_objectOf h (by repeat constructor) (fun _ => isPlainObject_of_object)
      (keeps_normalizeQuotas host)) (by decide)).append
    (covers_objectOf h (by repeat constructor) (fun _ => isPlainObject_of_object)
      (keeps_normalizeApprovals host)) (by decide)) (by decide)

theorem keeps_normalizeConnectedAccount :
    Keeps upstreamConnectedAccountConfig normalizeConnectedAccount := by
  intro d raw h
  exact Schema.fills_of_covers h ((((Covers.single
      (filled_textOr h (by repeat constructor) keeps_text)).append
    (covers_defined h (by repeat constructor) keeps_oneOf) (by decide)).append
    (covers_defined h (by repeat constructor) keeps_notFalse) (by decide)).append
    (covers_objectOf h (by repeat constructor) (fun _ => isPlainObject_of_record)
      keeps_headerTexts) (by decide)) (by decide)

theorem keeps_normalizeForwardIdentity :
    Keeps upstreamIdentityForwardConfig normalizeForwardIdentity := by
  intro d raw h
  exact Schema.fills_of_covers h ((covers_defined h (by repeat constructor) keeps_oneOf).append
    (covers_defined h (by repeat constructor) keeps_text) (by decide)) (by decide)

theorem keeps_normalizeUpstreamAuth : Keeps upstreamAuthConfig normalizeUpstreamAuth := by
  intro d raw h
  exact Schema.fills_of_covers h ((covers_objectOf h (by repeat constructor)
      (fun _ => isPlainObject_of_object) keeps_normalizeConnectedAccount).append
    (covers_objectOf h (by repeat constructor) (fun _ => isPlainObject_of_object)
      keeps_normalizeForwardIdentity) (by decide)) (by decide)

theorem keeps_normalizeRelease : Keeps managedRuntimeReleaseConfig normalizeRelease := by
  intro d raw h
  exact Schema.fills_of_covers h (((((Covers.cons
      (filled_textOr h (by repeat constructor) keeps_text)
      (.cons (filled_textOr h (by repeat constructor) keeps_text)
      (.cons (filled_textOr h (by repeat constructor) keeps_oneOf)
      (.cons (filled_textOr h (by repeat constructor) keeps_text)
      (.single (filled_textOr h (by repeat constructor) keeps_text)) (by decide)) (by decide))
      (by decide)) (by decide)).append
    (covers_itemsOf h (by repeat constructor) keepsItems_texts) (by decide)).append
    (covers_objectOf h (by repeat constructor) (fun _ => isPlainObject_of_record)
      keeps_headerTexts) (by decide)).append
    (covers_defined h (by repeat constructor) keeps_oneOf) (by decide)).append
    (covers_defined h (by repeat constructor) keeps_text) (by decide)) (by decide)

theorem keeps_normalizeSandbox : Keeps managedRuntimeSandboxConfig normalizeSandbox := by
  intro d raw h
  exact Schema.fills_of_covers h ((((covers_defined h (by repeat constructor) keeps_notFalse).append
    (covers_defined h (by repeat constructor) keeps_text) (by decide)).append
    (covers_defined h (by repeat constructor) keeps_notFalse) (by decide)).append
    (covers_defined h (by repeat constructor) keeps_notFalse) (by decide)) (by decide)

theorem keeps_normalizeHealthGate : Keeps managedRuntimeHealthGateConfig normalizeHealthGate := by
  intro d raw h
  exact Schema.fills_of_covers h ((covers_defined h (by repeat constructor) keeps_notFalse).append
    (covers_defined h (by repeat constructor) keeps_notFalse) (by decide)) (by decide)

theorem keeps_normalizeManagedRuntimeServer :
    Keeps managedRuntimeServerConfig normalizeManagedRuntimeServer := by
  intro d raw h
  obtain ⟨releases, hreleases, hlist⟩ :=
    Schema.required_of_object (k := "releases") h (by repeat constructor)
  obtain ⟨items, rfl, hitems⟩ := Schema.accepts_list_iff.1 hlist
  refine Schema.fills_of_covers h (((((Covers.cons (filled_notFalse h (by repeat constructor))
      (.cons (filled_textOr h (by repeat constructor) keeps_oneOf)
      (.cons (filled_textOr h (by repeat constructor) keeps_text)
      (.cons (filled_textOr h (by repeat constructor) keeps_oneOf)
      (.cons (filled_textOr h (by repeat constructor) keeps_text)
      (.single ?_) (by decide)) (by decide)) (by decide)) (by decide)) (by decide)).append
    (covers_defined h (by repeat constructor) keeps_text) (by decide)).append
    (covers_defined h (by repeat constructor) keeps_text) (by decide)).append
    (covers_objectOf h (by repeat constructor) (fun _ => isPlainObject_of_object)
      keeps_normalizeSandbox) (by decide)).append
    (covers_objectOf h (by repeat constructor) (fun _ => isPlainObject_of_object)
      keeps_normalizeHealthGate) (by decide)) (by decide)
  rw [hreleases]
  exact .kept (keepsItems_objects keeps_normalizeRelease _ items hitems)

end Normalizers

end Conduit.Config
