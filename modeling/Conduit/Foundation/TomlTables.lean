import Conduit.Foundation.Toml

-- what the statements of a TOML document define, and when they may stand together
namespace Toml

-- the keys on the way to a table; the number with a key is that of the element, where the key
-- is an array of tables
abbrev Path := List (String × ℕ)

structure Place where
  parent : Path
  key : String
deriving DecidableEq, Repr

inductive Kind where
  | value
  | dotted
  | table
  | implied
  | element
deriving DecidableEq, Repr

-- whether a place that stands for the first may later be declared as the second
def Kind.admits : Kind → Kind → Bool
  | table, implied => true
  | implied, table => true
  | implied, implied => true
  | dotted, dotted => true
  | dotted, implied => true
  | element, element => true
  | element, implied => true
  | _, _ => false

structure Declaration where
  place : Place
  kind : Kind
deriving DecidableEq, Repr

def Declaration.Agrees (d d' : Declaration) : Prop :=
  d.place = d'.place → d.kind.admits d'.kind = true

-- the arrays of tables opened so far, and the table whose header was read last
structure Context where
  opened : List Place := []
  current : Path := []
deriving DecidableEq, Repr

def descend (opened : List Place) : Path → List String → Path
  | path, [] => path
  | path, key :: keys => descend opened (path ++ [(key, opened.count ⟨path, key⟩)]) keys

def placeOf (opened : List Place) (path : Path) (keys : List String) : Option Place :=
  keys.getLast?.map fun key => ⟨descend opened path keys.dropLast, key⟩

def declare (opened : List Place) (through last : Kind) : Path → List String → List Declaration
  | _, [] => []
  | path, [key] => [⟨⟨path, key⟩, last⟩]
  | path, key :: keys =>
      ⟨⟨path, key⟩, through⟩ ::
        declare opened through last (path ++ [(key, opened.count ⟨path, key⟩)]) keys

namespace Context

variable (c : Context)

def enter : Statement → Context
  | .table keys => { c with current := descend c.opened [] keys }
  | .tables keys =>
      match placeOf c.opened [] keys with
      | none => c
      | some place => ⟨place :: c.opened, place.parent ++ [(place.key, c.opened.count place + 1)]⟩
  | _ => c

def declared : Statement → List Declaration
  | .blank => []
  | .table keys => declare c.opened .implied .table [] keys
  | .tables keys => declare c.opened .implied .element [] keys
  | .entry keys _ => declare c.opened .dotted .value c.current keys

def assigned : Statement → Option (Place × List Char)
  | .entry keys text => (placeOf c.opened c.current keys).map (·, text)
  | _ => none

def after (statements : List Statement) : Context := statements.foldl enter c

def declarations : Context → List Statement → List Declaration
  | _, [] => []
  | c, s :: rest => c.declared s ++ declarations (c.enter s) rest

def assignments : Context → List Statement → List (Place × List Char)
  | _, [] => []
  | c, s :: rest => (c.assigned s).toList ++ assignments (c.enter s) rest

-- the lines of the items that do not set the value of a place
def linesBeside (place : Place) : Context → List Item → List Line
  | _, [] => []
  | c, item :: rest =>
      (if (c.assigned item.statement).map (·.1) = some place then [] else item.lines) ++
        linesBeside place (c.enter item.statement) rest

end Context

def statements (items : List Item) : List Statement := items.map (·.statement)

def declarations (items : List Item) : List Declaration :=
  Context.declarations {} (statements items)

def assignments (items : List Item) : List (Place × List Char) :=
  Context.assignments {} (statements items)

def Valid (items : List Item) : Prop := (declarations items).Pairwise Declaration.Agrees

instance (d d' : Declaration) : Decidable (d.Agrees d') :=
  inferInstanceAs (Decidable (d.place = d'.place → d.kind.admits d'.kind = true))

instance (items : List Item) : Decidable (Valid items) :=
  inferInstanceAs (Decidable ((declarations items).Pairwise Declaration.Agrees))

-- the texts that are given to a place
def textsAt (place : Place) (items : List Item) : List (List Char) :=
  ((assignments items).filter (·.1 = place)).map (·.2)

-- what a one-line string says
def stringValue (text : List Char) : Option String :=
  if text.head?.any isBare then none
  else (readSimpleKey text).bind fun e => if e.2 = [] then some e.1 else none

section Sequences

theorem placeOf_single (opened : List Place) (path : Path) (key : String) :
    placeOf opened path [key] = some ⟨path, key⟩ := rfl

theorem Context.after_append (c : Context) (xs ys : List Statement) :
    c.after (xs ++ ys) = (c.after xs).after ys := List.foldl_append

theorem Context.declarations_append (c : Context) (xs ys : List Statement) :
    c.declarations (xs ++ ys) = c.declarations xs ++ (c.after xs).declarations ys := by
  induction xs generalizing c with
  | nil => rfl
  | cons s xs ih => rw [List.cons_append, declarations, declarations, ih, List.append_assoc]; rfl

theorem Context.assignments_append (c : Context) (xs ys : List Statement) :
    c.assignments (xs ++ ys) = c.assignments xs ++ (c.after xs).assignments ys := by
  induction xs generalizing c with
  | nil => rfl
  | cons s xs ih => rw [List.cons_append, assignments, assignments, ih, List.append_assoc]; rfl

theorem Context.linesBeside_append (place : Place) (c : Context) (xs ys : List Item) :
    c.linesBeside place (xs ++ ys) =
      c.linesBeside place xs ++ (c.after (statements xs)).linesBeside place ys := by
  induction xs generalizing c with
  | nil => rfl
  | cons item xs ih => rw [List.cons_append, linesBeside, linesBeside, ih, List.append_assoc]; rfl

theorem Context.linesBeside_sublist (place : Place) (c : Context) (items : List Item) :
    (c.linesBeside place items).Sublist (items.flatMap (·.lines)) := by
  induction items generalizing c with
  | nil => exact List.Sublist.refl _
  | cons item rest ih =>
      rw [linesBeside, List.flatMap_cons]
      refine List.Sublist.append ?_ (ih _)
      split
      next => exact List.nil_sublist _
      next => exact List.Sublist.refl _

theorem statements_append (xs ys : List Item) :
    statements (xs ++ ys) = statements xs ++ statements ys := List.map_append

end Sequences

section Places

theorem declare_last (opened : List Place) (through last : Kind) (path : Path) {keys : List String}
    {place : Place} (h : placeOf opened path keys = some place) :
    ⟨place, last⟩ ∈ declare opened through last path keys := by
  induction keys generalizing path with
  | nil => cases h
  | cons key keys ih =>
      cases keys with
      | nil =>
          cases h
          exact List.mem_singleton.mpr rfl
      | cons key' keys =>
          refine List.mem_cons_of_mem _ (ih _ ?_)
          rw [← h]
          simp [placeOf, descend]

theorem Context.mem_declared_of_assigned {c : Context} {s : Statement} {e : Place × List Char}
    (h : c.assigned s = some e) : ⟨e.1, .value⟩ ∈ c.declared s := by
  cases s with
  | entry keys text =>
      obtain ⟨place, hplace, rfl⟩ := Option.map_eq_some_iff.mp h
      exact declare_last _ _ _ _ hplace
  | blank => cases h
  | table keys => cases h
  | tables keys => cases h

theorem Context.mem_declarations_of_assignments {c : Context} {ss : List Statement}
    {e : Place × List Char} (h : e ∈ c.assignments ss) : ⟨e.1, .value⟩ ∈ c.declarations ss := by
  induction ss generalizing c with
  | nil => cases h
  | cons s ss ih =>
      rcases List.mem_append.mp h with h | h
      · exact List.mem_append_left _ (mem_declared_of_assigned (Option.mem_toList.mp h))
      · exact List.mem_append_right _ (ih h)

theorem Context.linesBeside_eq {place : Place} {c : Context} {items : List Item}
    (h : ∀ e ∈ c.assignments (statements items), e.1 ≠ place) :
    c.linesBeside place items = items.flatMap (·.lines) := by
  induction items generalizing c with
  | nil => rfl
  | cons item rest ih =>
      have hrest := ih (c := c.enter item.statement) fun e he =>
        h e (List.mem_append_right _ he)
      have hitem : (c.assigned item.statement).map (·.1) ≠ some place := by
        intro heq
        obtain ⟨e, he, hplace⟩ := Option.map_eq_some_iff.mp heq
        exact h e (List.mem_append_left _ (Option.mem_toList.mpr he)) hplace
      rw [linesBeside, if_neg hitem, hrest]
      rfl

theorem Context.mem_opened {c : Context} {ss : List Statement} {place : Place}
    (h : place ∈ (c.after ss).opened) :
    place ∈ c.opened ∨ ⟨place, .element⟩ ∈ c.declarations ss := by
  induction ss generalizing c with
  | nil => exact .inl h
  | cons s ss ih =>
      rcases ih (c := c.enter s) h with h | h
      · cases s with
        | blank => exact .inl h
        | table keys => exact .inl h
        | entry keys text => exact .inl h
        | tables keys =>
            rw [enter] at h
            cases hplace : placeOf c.opened [] keys with
            | none =>
                rw [hplace] at h
                exact .inl h
            | some found =>
                rw [hplace] at h
                rcases List.mem_cons.mp h with rfl | h
                · exact .inr (List.mem_append_left _ (declare_last _ _ _ _ hplace))
                · exact .inl h
      · exact .inr (List.mem_append_right _ h)

theorem count_opened {items : List Item} {place : Place}
    (h : ⟨place, .element⟩ ∉ declarations items) :
    (Context.after {} (statements items)).opened.count place = 0 := by
  rw [List.count_eq_zero]
  intro hmem
  rcases Context.mem_opened hmem with hmem | hmem
  · cases hmem
  · exact h hmem

theorem textsAt_append (place : Place) (xs ys : List Item) :
    textsAt place (xs ++ ys) = textsAt place xs ++
      ((((Context.after {} (statements xs)).assignments (statements ys)).filter (·.1 = place)).map
        (·.2)) := by
  rw [textsAt, textsAt, assignments, assignments, statements_append, Context.assignments_append,
    List.filter_append, List.map_append]

theorem textsAt_eq_nil {place : Place} {items : List Item}
    (h : ∀ d ∈ declarations items, d.place ≠ place) : textsAt place items = [] := by
  rw [textsAt, List.map_eq_nil_iff, List.filter_eq_nil_iff]
  intro e he heq
  exact h _ (Context.mem_declarations_of_assignments he) (of_decide_eq_true heq)

end Places

section Validity

theorem Kind.admits_value (k : Kind) : k.admits .value = false := by cases k <;> rfl

theorem Kind.value_admits (k : Kind) : Kind.admits .value k = false := by cases k <;> rfl

theorem Declaration.agrees_value {d : Declaration} {place : Place} :
    d.Agrees ⟨place, .value⟩ ↔ d.place ≠ place := by
  constructor
  · intro h hplace
    have hadmits := h hplace
    rw [Kind.admits_value] at hadmits
    cases hadmits
  · intro h hplace
    exact absurd hplace h

theorem Declaration.value_agrees {d : Declaration} {place : Place} :
    Agrees ⟨place, .value⟩ d ↔ d.place ≠ place := by
  constructor
  · intro h hplace
    have hadmits := h hplace.symm
    rw [Kind.value_admits] at hadmits
    cases hadmits
  · intro h hplace
    exact absurd hplace.symm h

-- a value may be set where nothing else is declared
theorem pairwise_value {before after : List Declaration} {place : Place} :
    (before ++ ⟨place, .value⟩ :: after).Pairwise Declaration.Agrees ↔
      (before ++ after).Pairwise Declaration.Agrees ∧
        ∀ d ∈ before ++ after, d.place ≠ place := by
  rw [List.pairwise_append, List.pairwise_append, List.pairwise_cons]
  constructor
  · intro ⟨hbefore, ⟨hvalue, hafter⟩, hcross⟩
    refine ⟨⟨hbefore, hafter, fun d hd d' hd' => hcross d hd d' (List.mem_cons_of_mem _ hd')⟩, ?_⟩
    intro d hd
    rcases List.mem_append.mp hd with hd | hd
    · exact Declaration.agrees_value.1 (hcross d hd _ List.mem_cons_self)
    · exact Declaration.value_agrees.1 (hvalue d hd)
  · intro ⟨⟨hbefore, hafter, hcross⟩, hplace⟩
    refine ⟨hbefore, ⟨?_, hafter⟩, ?_⟩
    · intro d hd
      exact Declaration.value_agrees.2 (hplace d (List.mem_append_right _ hd))
    · intro d hd d' hd'
      rcases List.mem_cons.mp hd' with rfl | hd'
      · exact Declaration.agrees_value.2 (hplace d (List.mem_append_left _ hd))
      · exact hcross d hd d' hd'

variable {xs ys : List Item} {item : Item} {keys : List String} {text : List Char} {place : Place}

-- an entry of one key in the table whose header was read last
theorem declarations_entry (hitem : item.statement = .entry [place.key] text)
    (hplace : (Context.after {} (statements xs)).current = place.parent) :
    declarations (xs ++ item :: ys) = declarations xs ++ ⟨place, .value⟩ ::
      (Context.after {} (statements xs)).declarations (statements ys) := by
  have hcons : statements (item :: ys) = .entry [place.key] text :: statements ys := by
    rw [← hitem]
    rfl
  rw [declarations, statements_append, Context.declarations_append, hcons, Context.declarations,
    Context.declared, hplace]
  rfl

theorem declarations_append (xs ys : List Item) : declarations (xs ++ ys) = declarations xs ++
    (Context.after {} (statements xs)).declarations (statements ys) := by
  rw [declarations, statements_append, Context.declarations_append]
  rfl

theorem assigned_place {c : Context} {s : Statement} {e : Place × List Char}
    (h : c.assigned s = some e) : ∃ before after, c.declared s = before ++ ⟨e.1, .value⟩ :: after :=
  List.append_of_mem (Context.mem_declared_of_assigned h)

-- in a valid document a place has one value
theorem Valid.alone (h : Valid (xs ++ item :: ys))
    (hitem : (Context.after {} (statements xs)).assigned item.statement = some (place, text)) :
    (∀ e ∈ assignments xs, e.1 ≠ place) ∧
      ∀ e ∈ ((Context.after {} (statements xs)).enter item.statement).assignments (statements ys),
        e.1 ≠ place := by
  obtain ⟨before, after, hdeclared⟩ := assigned_place hitem
  have hall : declarations (xs ++ item :: ys) = (declarations xs ++ before) ++ ⟨place, .value⟩ ::
      (after ++ ((Context.after {} (statements xs)).enter item.statement).declarations
        (statements ys)) := by
    have hcons : statements (item :: ys) = item.statement :: statements ys := rfl
    rw [declarations_append, hcons, Context.declarations, hdeclared]
    simp
  rw [Valid, hall] at h
  have hplaces := (pairwise_value.1 h).2
  constructor
  · intro e he
    have hmem := Context.mem_declarations_of_assignments he
    exact hplaces _ (List.mem_append_left _ (List.mem_append_left _ hmem))
  · intro e he
    have hmem := Context.mem_declarations_of_assignments he
    exact hplaces _ (List.mem_append_right _ (List.mem_append_right _ hmem))

theorem Valid.textsAt (h : Valid (xs ++ item :: ys))
    (hitem : (Context.after {} (statements xs)).assigned item.statement = some (place, text)) :
    textsAt place (xs ++ item :: ys) = [text] := by
  obtain ⟨hxs, hys⟩ := h.alone hitem
  have hnone : ∀ es : List (Place × List Char), (∀ e ∈ es, e.1 ≠ place) →
      es.filter (·.1 = place) = [] := by
    intro es hes
    rw [List.filter_eq_nil_iff]
    intro e he heq
    exact hes e he (of_decide_eq_true heq)
  have hcons : statements (item :: ys) = item.statement :: statements ys := rfl
  rw [textsAt_append, Toml.textsAt, hnone _ hxs, hcons, Context.assignments, hitem,
    List.filter_append, hnone _ hys]
  simp

theorem Valid.linesBeside (h : Valid (xs ++ item :: ys))
    (hitem : (Context.after {} (statements xs)).assigned item.statement = some (place, text)) :
    Context.linesBeside place {} (xs ++ item :: ys) =
      xs.flatMap (·.lines) ++ ys.flatMap (·.lines) := by
  obtain ⟨hxs, hys⟩ := h.alone hitem
  rw [Context.linesBeside_append, Context.linesBeside_eq hxs, Context.linesBeside, hitem,
    Option.map_some, if_pos rfl, List.nil_append, Context.linesBeside_eq hys]

end Validity

end Toml
