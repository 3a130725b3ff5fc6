import Conduit.Config.ServerNormalForm

namespace Conduit.Config

open Json Typed

section Spreads

variable {required optional : List (String × Schema)} {defaults fields : Fields}

theorem field_foldl_setField (hunique : UniqueKeys fields) (k : String) :
    Json.field (fields.foldl (fun acc e => setField acc e.1 e.2) defaults) k =
      (Json.field fields k).or (Json.field defaults k) := by
  induction fields generalizing defaults with
  | nil => rfl
  | cons e fields ih =>
      obtain ⟨k', v⟩ := e
      obtain ⟨hfresh, hrest⟩ := List.nodup_cons.mp hunique
      rw [List.foldl_cons, ih hrest, field_setField]
      by_cases heq : k' = k
      · subst heq
        have hnone : Json.field fields k' = none := by
          cases hx : Json.field fields k' with
          | none => rfl
          | some x => exact absurd (List.mem_map_of_mem (mem_of_field hx)) hfresh
        simp [Json.field, hnone]
      · simp [Json.field, heq]

theorem keys_setField (acc : Fields) (k : String) (v : Json) :
    (setField acc k v).map Prod.fst =
      if k ∈ acc.map Prod.fst then acc.map Prod.fst else acc.map Prod.fst ++ [k] := by
  induction acc with
  | nil => rfl
  | cons e acc ih =>
      obtain ⟨k', v'⟩ := e
      by_cases heq : k' = k
      · simp [setField, heq]
      · rw [setField, if_neg heq, List.map_cons, ih]
        simp only [List.map_cons, List.mem_cons, Ne.symm heq, false_or]
        split <;> rfl

theorem uniqueKeys_spreadOver (h : UniqueKeys defaults) (value : Json) :
    UniqueKeys (spreadOver defaults value) := by
  rw [spreadOver]
  induction value.spread generalizing defaults with
  | nil => exact h
  | cons e rest ih =>
      apply ih
      unfold UniqueKeys
      rw [keys_setField]
      split
      next => exact h
      next hfresh =>
        rw [List.nodup_append]
        refine ⟨h, List.nodup_singleton _, ?_⟩
        intro k hk k' hk'
        rw [List.mem_singleton.mp hk']
        rintro rfl
        exact hfresh hk

theorem uniqueKeys_mergeObject (h : UniqueKeys defaults) (override : Option Json) :
    UniqueKeys (mergeObject defaults override) := by
  rw [mergeObject]
  split
  next => exact h
  next value _ => exact uniqueKeys_spreadOver h value

-- a section of the type already has every default
theorem fills_spreadOver {v : Json} (h : (Schema.object required optional).accepts v = true)
    (hunique : ∀ fields, v = .obj fields → UniqueKeys fields)
    (hdefaults : ∀ k ∈ defaults.map Prod.fst, k ∈ required.map Prod.fst) {d : Option Json} :
    Fills d v (.obj (spreadOver defaults v)) := by
  obtain ⟨fields, rfl, hrequired, -⟩ := Schema.accepts_object_iff.1 h
  apply Fills.of_fields
  intro k
  have hsame : Json.field (spreadOver defaults (.obj fields)) k = Json.field fields k := by
    rw [spreadOver, Json.spread, field_foldl_setField (hunique fields rfl)]
    cases hx : Json.field fields k with
    | some x => rfl
    | none =>
        cases hy : Json.field defaults k with
        | none => rfl
        | some y =>
            obtain ⟨e, he, rfl⟩ :=
              List.mem_map.mp (hdefaults k (List.mem_map_of_mem (mem_of_field hy)))
            obtain ⟨x, hx', -⟩ := hrequired e he
            cases hx.symm.trans hx'
  rw [hsame]
  exact .refl _ _

theorem mergeObject_eq {v : Json} (h : (Schema.object required optional).accepts v = true) :
    mergeObject defaults (some v) = spreadOver defaults v := by
  obtain ⟨fields, rfl, -⟩ := Schema.accepts_object_iff.1 h
  rfl

theorem filled_mergeObject {required' optional' : List (String × Schema)} {c : Json} {key : String}
    (h : (Schema.object required' optional').accepts c = true)
    (hmem : (key, .object required optional) ∈ required')
    (hunique : ∀ fields, c.get? key = some (.obj fields) → UniqueKeys fields)
    (hdefaults : ∀ k ∈ defaults.map Prod.fst, k ∈ required.map Prod.fst) {d : Option Json} :
    Filled d (c.get? key) (some (.obj (mergeObject defaults (c.get? key)))) := by
  obtain ⟨v, hv, hs⟩ := Schema.required_of_object h hmem
  rw [hv, mergeObject_eq hs]
  exact .kept (fills_spreadOver hs (fun fields heq => hunique fields (heq ▸ hv)) hdefaults)

theorem orElse_object {v fallback : Json} (h : (Schema.object required optional).accepts v = true) :
    orElse (some v) fallback = v := by
  obtain ⟨fields, rfl, -⟩ := Schema.accepts_object_iff.1 h
  rfl

end Spreads

section Sections

variable {required optional : List (String × Schema)} {raw : Json} {key : String} {s : Schema}
  {base : String → Option Json}

theorem filter_ne_null {value : Option Json} (h : ∀ x, value = some x → s.accepts x = true)
    (hnull : s.accepts .null = false) : value.filter (· ≠ .null) = value := by
  cases value with
  | none => rfl
  | some x =>
      have hne : x ≠ .null := by
        rintro rfl
        cases (h .null rfl).symm.trans hnull
      simp [Option.filter, hne]

theorem orElse_of_ne_null {v fallback : Json} (h : s.accepts v = true)
    (hnull : s.accepts .null = false) : orElse (some v) fallback = v := by
  rw [orElse, filter_ne_null (fun x hx => Option.some.inj hx ▸ h) hnull, Option.getD_some]

theorem filled_orElse (h : (Schema.object required optional).accepts raw = true)
    (hmem : (key, s) ∈ required) (hnull : s.accepts .null = false) {fallback : Json}
    {d : Option Json} : Filled d (raw.get? key) (some (orElse (raw.get? key) fallback)) := by
  obtain ⟨x, hx, hs⟩ := Schema.required_of_object h hmem
  rw [hx, orElse_of_ne_null hs hnull]
  exact .refl _ _

theorem covers_present {f : Json → Json} (h : (Schema.object required optional).accepts raw = true)
    (hmem : (key, s) ∈ optional) (hnull : s.accepts .null = false) (hkeeps : Keeps s f) :
    Covers base raw.get? [key]
      (((raw.get? key).filter (· ≠ .null)).map fun v => (key, f v)).toList := by
  rw [filter_ne_null (fun _ => Schema.optional_of_object h hmem) hnull]
  exact covers_option (filled_map (fun _ => Schema.optional_of_object h hmem) hkeeps)

theorem keeps_mergeL2 (host : Host) : Keeps l2CacheConfig (mergeL2 host) := by
  intro d raw h
  obtain ⟨n, hn, hs⟩ :=
    Schema.required_of_object (k := "default_ttl_multiplier") h (by repeat constructor)
  refine Schema.fills_of_covers h (((Covers.cons (filled_notFalse h (by repeat constructor))
      (.cons (filled_textOr h (by repeat constructor) keeps_text) (.single ?_) (by decide))
      (by decide)).append
    (covers_present h (by repeat constructor) rfl keeps_text) (by decide)).append
    (covers_present h (by repeat constructor) rfl (keeps_number host)) (by decide)) (by decide)
  rw [hn, orElse_of_ne_null hs rfl]
  exact .kept (keeps_number host _ n hs)

end Sections

section Merge

variable {host : Host} {c raw : Json} {d : Option Json}

theorem fills_mergeRouter (hraw : c.get? "router" = some raw) (h : routerConfig.accepts raw = true)
    (hunique : ∀ fields, raw.get? "health_check" = some (.obj fields) → UniqueKeys fields)
    (hadded : raw.get? "load_balancing" = none →
      (d.bind fun x => x.get? "load_balancing") = some (.str "round-robin")) :
    Fills d raw (.obj (mergeRouter c)) := by
  obtain ⟨health, hhealth, hs⟩ :=
    Schema.required_of_object (k := "health_check") h (by repeat constructor)
  rw [mergeRouter, hraw, Option.getD_some]
  refine Schema.fills_of_covers h ((Covers.cons (filled_orElse h (by repeat constructor) rfl)
      (.cons ?_ (.single ?_) (by decide)) (by decide)).append
    (covers_present (f := fun v => v) h (by repeat constructor) rfl fun d v _ => .refl d v)
    (by decide)) (by decide)
  · rw [hhealth, orElse_object hs]
    exact .kept
      (fills_spreadOver hs (fun fields heq => hunique fields (heq ▸ hhealth)) (by decide))
  · cases hx : raw.get? "load_balancing" with
    | none => exact .added (hadded hx)
    | some x => exact .refl _ _

theorem fills_mergeCache (hraw : c.get? "cache" = some raw) (h : cacheConfig.accepts raw = true)
    (hunique : ∀ fields, raw.get? "l1" = some (.obj fields) → UniqueKeys fields) :
    Fills d raw (.obj (mergeCache host c)) := by
  obtain ⟨l1, hl1, hs⟩ := Schema.required_of_object (k := "l1") h (by repeat constructor)
  rw [mergeCache, hraw, Option.getD_some]
  refine Schema.fills_of_covers h ((Covers.cons (filled_orElse h (by repeat constructor) rfl)
      (.single ?_) (by decide)).append
    (covers_present h (by repeat constructor) rfl (keeps_mergeL2 host)) (by decide)) (by decide)
  rw [hl1, orElse_object hs]
  exact .kept (fills_spreadOver hs (fun fields heq => hunique fields (heq ▸ hl1)) (by decide))

end Merge

end Conduit.Config
