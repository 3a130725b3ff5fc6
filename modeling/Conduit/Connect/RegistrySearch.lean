import Conduit.Connect.RegistrySmart

namespace Conduit.Connect

variable {locale : RegistryLocale}

section Scores

theorem rounded_pos {weight tenths : ℕ} (hweight : 0 < weight) (htenths : 5 ≤ tenths) :
    0 < rounded weight tenths := by
  have hproduct : 5 ≤ weight * tenths := htenths.trans (Nat.le_mul_of_pos_left tenths hweight)
  unfold rounded
  omega

theorem mem_tokenize {value token : String} (h : token ∈ tokenizeRegistrySearch locale value) :
    token.toList <:+: (locale.toLowerCase value).toList ∧ token ≠ "" := by
  obtain ⟨run, hrun, rfl⟩ := List.mem_map.mp h
  constructor
  · rw [String.toList_ofList]
    exact TextRuns.infix_of_mem_runs _ hrun
  · have hne := TextRuns.ne_nil_of_mem_runs _ hrun
    simpa using hne

-- a field has points for a word exactly if the word is in it
theorem scoreSearchField_pos {value term : String} {weight : ℕ}
    (hvalue : locale.toLowerCase value = value) (hterm : term ≠ "") (hweight : 0 < weight) :
    0 < scoreSearchField locale value term weight ↔ term.toList <:+: value.toList := by
  have hsixteen : 0 < rounded weight 16 := rounded_pos hweight (by omega)
  have htwelve : 0 < rounded weight 12 := rounded_pos hweight (by omega)
  have height : 0 < rounded weight 8 := rounded_pos hweight (by omega)
  unfold scoreSearchField
  split
  next hempty =>
    have hnone : value = "" := hempty.resolve_right hterm
    simp [hnone, hterm]
  next =>
    split
    next heq => simp [heq, hweight]
    next =>
      split
      next hstart =>
        have hprefix : term.toList <+: value.toList := by simpa [startsWith] using hstart
        simp [hweight, hprefix.isInfix]
      next =>
        dsimp only
        split
        next htoken =>
          have hwithin := (mem_tokenize htoken).1
          rw [hvalue] at hwithin
          simp [hsixteen, hwithin]
        next =>
          split
          next hany =>
            obtain ⟨token, htoken, hstart⟩ := List.any_eq_true.mp hany
            have hprefix : term.toList <+: token.toList := by simpa [startsWith] using hstart
            have hwithin := hprefix.isInfix.trans (mem_tokenize htoken).1
            rw [hvalue] at hwithin
            simp [htwelve, hwithin]
          next =>
            split
            next hincluded =>
              have hwithin : term.toList <:+: value.toList := by simpa [includes] using hincluded
              simp [height, hwithin]
            next hmissing =>
              have hwithin : ¬ term.toList <:+: value.toList := by simpa [includes] using hmissing
              simp [hwithin]

theorem foldl_max_pos (points : List ℕ) (start : ℕ) :
    0 < points.foldl max start ↔ 0 < start ∨ ∃ point ∈ points, 0 < point := by
  induction points generalizing start with
  | nil => simp
  | cons point points ih =>
      rw [List.foldl_cons, ih]
      simp [or_assoc]

theorem field_lower {item : ConnectRegistrySmartLibraryItem} {field : SearchField}
    (h : field ∈ buildRegistrySearchFields locale item) :
    locale.toLowerCase field.value = field.value ∧ 0 < field.weight := by
  obtain ⟨pair, hpair, rfl⟩ := List.mem_map.mp (List.mem_filter.mp h).1
  refine ⟨locale.lower_lower pair.1, ?_⟩
  simp only [List.mem_cons, List.not_mem_nil, or_false] at hpair
  rcases hpair with rfl | rfl | rfl | rfl | rfl | rfl | rfl | rfl | rfl | rfl | rfl | rfl | rfl |
    rfl | rfl | rfl
  all_goals simp

theorem bestField_pos {item : ConnectRegistrySmartLibraryItem} {term : String} (hterm : term ≠ "") :
    0 < bestField locale (buildRegistrySearchFields locale item) term ↔
      ∃ field ∈ buildRegistrySearchFields locale item, term.toList <:+: field.value.toList := by
  rw [bestField, foldl_max_pos]
  simp only [lt_irrefl, false_or, List.mem_map, exists_exists_and_eq_and]
  apply exists_congr
  intro field
  apply and_congr_right
  intro hfield
  obtain ⟨hlower, hweight⟩ := field_lower hfield
  exact scoreSearchField_pos hlower hterm hweight

variable (locale) in
-- each word of the query is in some field of the item, and there is a word
def Answers (item : ConnectRegistrySmartLibraryItem) (search : String) : Prop :=
  let terms := tokenizeRegistrySearch locale (locale.toLowerCase (Text.trim search))
  terms ≠ [] ∧ ∀ term ∈ terms, ∃ field ∈ buildRegistrySearchFields locale item,
    term.toList <:+: field.value.toList

theorem tokenize_empty {text : String} (h : locale.toLowerCase text = "") :
    tokenizeRegistrySearch locale (locale.toLowerCase text) = [] := by
  rw [tokenizeRegistrySearch, locale.lower_lower, h]
  rfl

theorem scoreSmartRegistrySearch_pos {item : ConnectRegistrySmartLibraryItem} {search : String} :
    0 < scoreSmartRegistrySearch locale item search ↔ Answers locale item search := by
  unfold scoreSmartRegistrySearch Answers
  dsimp only
  generalize hquery : locale.toLowerCase (Text.trim search) = query
  have hempty : query = "" → tokenizeRegistrySearch locale query = [] := by
    rintro rfl
    rw [← hquery]
    exact tokenize_empty hquery
  generalize hterms : tokenizeRegistrySearch locale query = terms at hempty
  have hbest : ∀ term ∈ terms,
      (0 < bestField locale (buildRegistrySearchFields locale item) term ↔
        ∃ field ∈ buildRegistrySearchFields locale item, term.toList <:+: field.value.toList) := by
    intro term hterm
    rw [← hterms] at hterm
    exact bestField_pos (mem_tokenize hterm).2
  split
  next hnone => simp [hempty hnone]
  next =>
    split
    next hnone => simp [hnone]
    next hsome =>
      split
      next hmissing =>
        obtain ⟨term, hterm, hzero⟩ := List.any_eq_true.mp hmissing
        have hpos := hbest term hterm
        simp only [decide_eq_true_eq] at hzero
        rw [hzero] at hpos
        constructor
        · intro h
          omega
        · rintro ⟨-, hall⟩
          exact absurd (hpos.mpr (hall term hterm)) (lt_irrefl 0)
      next hpresent =>
        have hall : ∀ term ∈ terms,
            0 < bestField locale (buildRegistrySearchFields locale item) term := by
          intro term hterm
          by_contra hzero
          exact hpresent (List.any_eq_true.mpr ⟨term, hterm, by simpa using hzero⟩)
        obtain ⟨term, more, rfl⟩ := List.exists_cons_of_ne_nil hsome
        have hfirst := hall term List.mem_cons_self
        constructor
        · intro _
          exact ⟨hsome, fun term hterm => (hbest term hterm).mp (hall term hterm)⟩
        · intro _
          rw [List.map_cons, List.sum_cons]
          omega

end Scores

section Results

theorem found_iff {filters : ConnectRegistrySmartLibraryFilters}
    {item : ConnectRegistrySmartLibraryItem} :
    filters.found locale item = true ↔
      ∀ search, filters.wanted locale = some search → Answers locale item search := by
  unfold ConnectRegistrySmartLibraryFilters.found
  cases filters.wanted locale with
  | none => simp
  | some search => simp [scoreSmartRegistrySearch_pos]

theorem mem_listed {items : List ConnectRegistrySmartLibraryItem}
    {filters : ConnectRegistrySmartLibraryFilters} {item : ConnectRegistrySmartLibraryItem} :
    item ∈ applySmartRegistryFilters locale items filters ↔
      item ∈ items ∧ filters.found locale item = true ∧ filters.admits item = true := by
  rw [applySmartRegistryFilters, (Comparison.perm_sort _ _).mem_iff, List.mem_filter,
    Bool.and_eq_true]

-- what is listed: the items that the filters admit and that answer the query
theorem mem_applySmartRegistryFilters (items : List ConnectRegistrySmartLibraryItem)
    (filters : ConnectRegistrySmartLibraryFilters) (item : ConnectRegistrySmartLibraryItem) :
    item ∈ applySmartRegistryFilters locale items filters ↔
      item ∈ items ∧
        (∀ search, filters.wanted locale = some search → Answers locale item search) ∧
          filters.admits item = true := by
  rw [mem_listed, found_iff]

variable (locale) in
theorem lawful_compare (scores : OrderedMap String ℕ) (order : ConnectRegistrySort) :
    Comparison.Lawful (compareSmartRegistryItems locale scores order) := by
  have hname : Comparison.Lawful (byName locale) :=
    locale.lawful.comap fun item : ConnectRegistrySmartLibraryItem => item.name
  cases order with
  | name => exact hname
  | updated =>
      exact (Comparison.lawful_descending _).orElse ((Comparison.lawful_descending _).orElse hname)
  | published =>
      exact (Comparison.lawful_descending _).orElse ((Comparison.lawful_descending _).orElse hname)
  | runtime =>
      exact (Comparison.lawful_descending _).orElse ((Comparison.lawful_descending _).orElse
        ((Comparison.lawful_descending _).orElse hname))
  | relevance =>
      exact (Comparison.lawful_descending _).orElse ((Comparison.lawful_descending _).orElse
        ((Comparison.lawful_descending _).orElse ((Comparison.lawful_descending _).orElse hname)))
  | trust =>
      exact (Comparison.lawful_descending _).orElse ((Comparison.lawful_descending _).orElse
        ((Comparison.lawful_descending _).orElse ((Comparison.lawful_descending _).orElse hname)))

variable (locale) in
-- the list is in its order, and what the order leaves open stays as it was
theorem sorted_applySmartRegistryFilters (items : List ConnectRegistrySmartLibraryItem)
    (filters : ConnectRegistrySmartLibraryFilters) :
    let compare := compareSmartRegistryItems locale (filters.searchScores locale items)
      (filters.order locale)
    (applySmartRegistryFilters locale items filters).Pairwise (fun a b => compare a b ≤ 0) ∧
      ∀ item, (applySmartRegistryFilters locale items filters).filter (compare · item = 0) =
        items.filter fun other => filters.found locale other && filters.admits other &&
          compare other item = 0 := by
  have hlawful := lawful_compare locale (filters.searchScores locale items)
    (filters.order locale)
  refine ⟨Comparison.pairwise_sort hlawful _, ?_⟩
  intro item
  rw [applySmartRegistryFilters, Comparison.filter_sort hlawful, List.filter_filter]
  apply List.filter_congr
  intro other _
  exact Bool.and_comm _ _

end Results

section Relevance

theorem get?_scores {search : String} {items : List ConnectRegistrySmartLibraryItem}
    {scores : OrderedMap String ℕ} (hkeys : (items.map searchKey).Nodup)
    (hnew : ∀ item ∈ items, scores.get? (searchKey item) = none)
    {item : ConnectRegistrySmartLibraryItem} (hitem : item ∈ items)
    (hscore : 0 < scoreSmartRegistrySearch locale item search) :
    (items.foldl (fun scores item =>
      let score := scoreSmartRegistrySearch locale item search
      if score = 0 then scores else scores.set (searchKey item) score) scores).get?
        (searchKey item) = some (scoreSmartRegistrySearch locale item search) := by
  have hkeep : ∀ (items : List ConnectRegistrySmartLibraryItem) (scores : OrderedMap String ℕ)
      (key : String), key ∉ items.map searchKey →
      (items.foldl (fun scores item =>
        let score := scoreSmartRegistrySearch locale item search
        if score = 0 then scores else scores.set (searchKey item) score) scores).get? key =
          scores.get? key := by
    intro items
    induction items with
    | nil => intros; rfl
    | cons first items ih =>
        intro scores key hkey
        simp only [List.map_cons, List.mem_cons, not_or] at hkey
        rw [List.foldl_cons, ih _ _ hkey.2]
        dsimp only
        split
        · rfl
        · rw [OrderedMap.get?_set, if_neg (Ne.symm hkey.1)]
  induction items generalizing scores with
  | nil => cases hitem
  | cons first items ih =>
      obtain ⟨hfirst, hrest⟩ := List.nodup_cons.mp hkeys
      rcases List.mem_cons.mp hitem with rfl | hitem
      · rw [List.foldl_cons, hkeep items _ _ hfirst]
        dsimp only
        rw [if_neg (by omega), OrderedMap.get?_set, if_pos rfl]
      · rw [List.foldl_cons]
        apply ih hrest _ hitem
        intro other hother
        have hne : searchKey first ≠ searchKey other := fun heq =>
          hfirst (heq ▸ List.mem_map_of_mem hother)
        dsimp only
        split
        · exact hnew other (List.mem_cons_of_mem first hother)
        · rw [OrderedMap.get?_set, if_neg hne]
          exact hnew other (List.mem_cons_of_mem first hother)

-- by relevance no item stands before one that answers the query better
theorem relevance_applySmartRegistryFilters {items : List ConnectRegistrySmartLibraryItem}
    (hkeys : (items.map searchKey).Nodup) {filters : ConnectRegistrySmartLibraryFilters}
    {search : String} (hsearch : filters.wanted locale = some search)
    (horder : filters.order locale = .relevance) :
    (applySmartRegistryFilters locale items filters).Pairwise fun a b =>
      scoreSmartRegistrySearch locale b search ≤ scoreSmartRegistrySearch locale a search := by
  have hsorted := (sorted_applySmartRegistryFilters locale items filters).1
  rw [horder] at hsorted
  apply hsorted.imp_of_mem
  intro a b ha hb hab
  have hscore : ∀ item ∈ applySmartRegistryFilters locale items filters,
      (filters.searchScores locale items).get? (searchKey item) =
        some (scoreSmartRegistrySearch locale item search) := by
    intro item hitem
    obtain ⟨hmem, hfound, -⟩ := mem_listed.1 hitem
    have hpos := scoreSmartRegistrySearch_pos.2 (found_iff.1 hfound search hsearch)
    rw [ConnectRegistrySmartLibraryFilters.searchScores, hsearch]
    exact get?_scores hkeys (fun other _ => rfl) hmem hpos
  simp only [compareSmartRegistryItems, Comparison.orElse, byRelevance, descending, hscore a ha,
    hscore b hb, Option.getD_some] at hab
  split at hab
  · omega
  · omega

end Relevance

section Pages

theorem lt_totalPages {limit length k : ℕ} (hlimit : 0 < limit)
    (h : (k + 1) * limit < length) :
    k + 1 < (length + limit - 1) / limit := by
  apply (Nat.le_div_iff_mul_le hlimit).mpr
  rw [Nat.add_one_mul]
  omega

theorem totalPages_eq {limit length k : ℕ} (hlimit : 0 < limit)
    (hlast : length ≤ (k + 1) * limit)
    (hk : k = 0 ∨ k * limit < length) : max 1 ((length + limit - 1) / limit) = k + 1 := by
  have hupper : (length + limit - 1) / limit < k + 1 + 1 := by
    apply (Nat.div_lt_iff_lt_mul hlimit).mpr
    rw [Nat.add_one_mul]
    omega
  rcases hk with rfl | hk
  · omega
  · have hlower : k + 1 ≤ (length + limit - 1) / limit := by
      apply (Nat.le_div_iff_mul_le hlimit).mpr
      rw [Nat.add_one_mul]
      omega
    omega

variable (items filtered : List ConnectRegistrySmartLibraryItem) {limit : ℕ} (hlimit : 0 < limit)

theorem nextOffset_eq {offset next : ℕ}
    (h : (buildSmartRegistryResponse items filtered ⟨limit, offset, hlimit⟩).pagination.nextOffset =
      some next) : next = offset + limit ∧ next < filtered.length + limit := by
  simp only [buildSmartRegistryResponse, paginate, List.length_take, List.length_drop] at h
  split at h
  · cases h
    omega
  · cases h

-- what a client gets that asks for a page and then for each next one
def followPages (offset : ℕ) : List ConnectRegistrySmartLibraryResponse :=
  let response := buildSmartRegistryResponse items filtered ⟨limit, offset, hlimit⟩
  match _h : response.pagination.nextOffset with
  | none => [response]
  | some next => response :: followPages next
termination_by filtered.length + limit - offset
decreasing_by
  obtain ⟨hnext, hbound⟩ := nextOffset_eq items filtered hlimit _h
  omega

theorem followPages_of_last {offset : ℕ} (h : filtered.length ≤ offset + limit) :
    followPages items filtered hlimit offset =
      [buildSmartRegistryResponse items filtered ⟨limit, offset, hlimit⟩] := by
  rw [followPages]
  split
  next => rfl
  next next hnext =>
    simp only [buildSmartRegistryResponse, paginate, List.length_take, List.length_drop] at hnext
    split at hnext
    · omega
    · cases hnext

theorem followPages_of_more {offset : ℕ} (h : offset + limit < filtered.length) :
    followPages items filtered hlimit offset =
      buildSmartRegistryResponse items filtered ⟨limit, offset, hlimit⟩ ::
        followPages items filtered hlimit (offset + limit) := by
  rw [followPages]
  split
  next hnone =>
    simp only [buildSmartRegistryResponse, paginate, List.length_take, List.length_drop] at hnone
    split at hnone
    · cases hnone
    · omega
  next next hnext => rw [(nextOffset_eq items filtered hlimit hnext).1]

theorem items_followPages (offset : ℕ) :
    (followPages items filtered hlimit offset).flatMap (·.items) = filtered.drop offset := by
  by_cases hmore : offset + limit < filtered.length
  · have ih := items_followPages (offset + limit)
    rw [followPages_of_more items filtered hlimit hmore, List.flatMap_cons, ih,
      ← List.drop_drop]
    exact List.take_append_drop limit (filtered.drop offset)
  · rw [followPages_of_last items filtered hlimit (by omega)]
    change (filtered.drop offset).take limit ++ [] = _
    rw [List.append_nil, List.take_of_length_le (by rw [List.length_drop]; omega)]
termination_by filtered.length - offset

theorem pages_followPages (k : ℕ) (hk : k = 0 ∨ k * limit < filtered.length) :
    (followPages items filtered hlimit (k * limit)).map (·.pagination.page) =
      List.range' (k + 1) (max 1 ((filtered.length + limit - 1) / limit) - k) := by
  have hpage : (buildSmartRegistryResponse items filtered ⟨limit, k * limit, hlimit⟩).pagination.page =
      k + 1 := by
    change k * limit / limit + 1 = _
    rw [Nat.mul_div_cancel k hlimit]
  have hsucc : k * limit + limit = (k + 1) * limit := (Nat.add_one_mul k limit).symm
  by_cases hmore : k * limit + limit < filtered.length
  · have hfewer := lt_totalPages hlimit (hsucc ▸ hmore)
    have ih := pages_followPages (k + 1) (.inr (hsucc ▸ hmore))
    have hlength : max 1 ((filtered.length + limit - 1) / limit) - k =
        max 1 ((filtered.length + limit - 1) / limit) - (k + 1) + 1 := by omega
    rw [followPages_of_more items filtered hlimit hmore, List.map_cons, hpage, hsucc, ih, hlength,
      List.range'_succ]
  · have hpages := totalPages_eq hlimit (by omega : filtered.length ≤ (k + 1) * limit) hk
    have hone : k + 1 - k = 1 := by omega
    rw [followPages_of_last items filtered hlimit (by omega), hpages, hone, List.map_cons, hpage]
    rfl
termination_by filtered.length - k * limit
decreasing_by
  rw [Nat.add_one_mul]
  omega

-- the pages give the list once and in its order, and count themselves
theorem followPages_complete :
    (followPages items filtered hlimit 0).flatMap (·.items) = filtered ∧
      (followPages items filtered hlimit 0).map (·.pagination.page) =
        List.range' 1 (paginate filtered ⟨limit, 0, hlimit⟩).totalPages := by
  have hpages := pages_followPages items filtered hlimit 0 (.inl rfl)
  rw [Nat.zero_mul] at hpages
  exact ⟨items_followPages items filtered hlimit 0, hpages⟩

end Pages

section Example

theorem lawful_strings : Comparison.Lawful fun a b : String =>
    if a < b then -1 else if b < a then 1 else 0 where
  swap a b := by
    by_cases hab : a < b
    · simp [hab, String.lt_asymm hab]
    · by_cases hba : b < a
      · simp [hab, hba]
      · simp [hab, hba]
  trans a b c hab hbc := by
    have hba : ¬ b < a := by
      intro h
      simp [h, String.lt_asymm h] at hab
    have hcb : ¬ c < b := by
      intro h
      simp [h, String.lt_asymm h] at hbc
    have hca : ¬ c < a := String.not_lt.mpr
      (String.le_trans (String.not_lt.mp hba) (String.not_lt.mp hcb))
    by_cases hac : a < c
    · simp [hac]
    · simp [hac, hca]

-- as far as small letters go
def plainLocale : RegistryLocale where
  toLowerCase text := text
  lower_lower _ := rfl
  localeCompare a b := if a < b then -1 else if b < a then 1 else 0
  lawful := lawful_strings
  parseDate _ := none

def plainItem (name : String) : ConnectRegistrySmartLibraryItem where
  status := "active"
  isLatest := true
  installMode := .package
  packageTypes := ["npm"]
  name := name
  conduitId := name
  title := name
  description := "a server"
  version := "1"
  readiness := .ready
  strategy := some .conduitHostPackage
  score := 60
  autoImportable := true
  configurableImport := true
  packageIdentifiers := [name]
  remotePatterns := []
  requiredConfigCount := 0
  requirementKeys := []
  verifiedPublisher := false
  publisherLabel := "community"
  reasons := []
  runtime := ⟨.notImported, false, 0⟩
  policyFit := ⟨.notEvaluated, ""⟩
  supportedCount := 0
  recommendedTargets := []
  targets := []
  recommendation := ⟨.importToConduit, "", "", []⟩
  badges := []

theorem relevance_of_files :
    (applySmartRegistryFilters plainLocale [plainItem "mail", plainItem "files"]
      { search := some "files" }).Pairwise fun a b =>
        scoreSmartRegistrySearch plainLocale b "files" ≤
          scoreSmartRegistrySearch plainLocale a "files" :=
  relevance_applySmartRegistryFilters (by decide) rfl rfl

theorem followPages_two :
    (followPages [] [plainItem "mail", plainItem "files"] Nat.one_pos 0).flatMap (·.items) =
      [plainItem "mail", plainItem "files"] :=
  (followPages_complete [] [plainItem "mail", plainItem "files"] Nat.one_pos).1

end Example

end Conduit.Connect
