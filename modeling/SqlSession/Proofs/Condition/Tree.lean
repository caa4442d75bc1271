import SqlSession.Condition.Filter
import SqlSession.Proofs.Statement.Draft

/-!
# `SqlSession.Proofs.Condition.Tree`: the trees that callers can build

Callers do not write trees of conditions down. They grow them, by the
insertions of a predicate, by compiling filters and by adding groups to
a clause. `Predicate.Built` lists these operations, and
`Expression.Built` the ways to make a single condition.

* `Predicate.Built.sound`: in a tree that was grown this way no group is
  empty, at any depth, and no condition is blank, except one that
  carries an error.
* `Predicate.failure_draft`: a predicate is rendered unless one of its
  conditions carries an error, and then it fails with the first of
  them. `entriesError?_eq_none` reads the absence of an error off the
  leaves.

`leaves` are the single conditions of a tree, from left to right.
-/

set_option autoImplicit false

namespace SqlSession

/-! ### What callers can build -/

/-- The ways to make a single condition. -/
inductive Expression.Built : Expression → Prop
  | template (spec : String) (values : List Value) : Built (.template spec values)
  | raw (spec : String) : Built (.raw spec)
  | compare (column operator : String) (value : Value) : Built (.compare column operator value)
  | like (column : String) (pattern : Value) (negated : Bool) :
      Built (.like column pattern negated)
  | inList (column : String) (values : List Value) (negated : Bool) :
      Built (.inList column values negated)
  | between (column : String) (low high : Value) (negated : Bool) :
      Built (.between column low high negated)
  | nullCheck (column : String) (negated : Bool) : Built (.nullCheck column negated)
  | subquery (sub : String) (values : List Value) (negated : Bool) :
      Built (.subquery sub values negated)

/-- The ways to grow a predicate: insertions, compiled filters, and
clauses to which groups are added. -/
inductive Predicate.Built : Predicate → Prop
  | empty : Built .empty
  | and {p : Predicate} : Built p → Built p.and
  | or {p : Predicate} : Built p → Built p.or
  | addExpression {p : Predicate} {e : Expression} : Built p → e.Built → Built (p.addExpression e)
  | addPredicate {p group : Predicate} : Built p → Built group → Built (p.addPredicate group)
  | compileText (s : String) (values : List Value) : Built ((Filter.text s).compile values)
  | compileFields (entries : List (String × Value)) (values : List Value) :
      Built ((Filter.fields entries).compile values)
  | compileTree {p : Predicate} (values : List Value) :
      Built p → Built ((Filter.tree p).compile values)
  | addGroup {c : Clause} {filter : Filter} {values : List Value} (combinator : Combinator) :
      Built c.tree → Built (filter.compile values) → Built (c.add combinator filter values).tree

/-- A filter whose predicate, if it is one, was built by callers. -/
def Filter.Built : Filter → Prop
  | .text _ => True
  | .fields _ => True
  | .tree p => p.Built

/-- A predicate counts as empty when it has no entries, whatever its
pending connective is. -/
theorem Predicate.isEmpty_eq_true {p : Predicate} : p.isEmpty = true ↔ p.entries = [] :=
  List.isEmpty_iff

/-- The negative form, in which the hypothesis of a guarded insertion is
met. -/
theorem Predicate.isEmpty_eq_false {p : Predicate} : p.isEmpty = false ↔ p.entries ≠ [] :=
  List.isEmpty_eq_false_iff

/-! ### Leaves -/

mutual

/-- The single conditions of a node, from left to right. -/
def Node.leaves : Node → List Expression
  | .leaf e => [e]
  | .group entries => entriesLeaves entries
termination_by structural node => node

/-- The single conditions of entries, from left to right. -/
def entriesLeaves : List Entry → List Expression
  | [] => []
  | (_, node) :: rest => node.leaves ++ entriesLeaves rest
termination_by structural entries => entries

end

/-- The single conditions of a predicate, from left to right. -/
def Predicate.leaves (p : Predicate) : List Expression := entriesLeaves p.entries

/-- The leaves of an entry are among those of all entries. -/
theorem mem_entriesLeaves {entries : List Entry} {entry : Entry} {e : Expression}
    (hentry : entry ∈ entries) (he : e ∈ entry.2.leaves) : e ∈ entriesLeaves entries := by
  induction entries with
  | nil => exact nomatch hentry
  | cons first rest ih =>
      rw [entriesLeaves, List.mem_append]
      rcases List.mem_cons.mp hentry with rfl | h
      · exact .inl he
      · exact .inr (ih h)

/-- Every leaf is one of some entry. -/
theorem exists_of_mem_entriesLeaves {entries : List Entry} {e : Expression}
    (he : e ∈ entriesLeaves entries) : ∃ entry ∈ entries, e ∈ entry.2.leaves := by
  induction entries with
  | nil => exact nomatch he
  | cons first rest ih =>
      rw [entriesLeaves, List.mem_append] at he
      rcases he with h | h
      · exact ⟨first, List.mem_cons_self, h⟩
      · obtain ⟨entry, hentry, h⟩ := ih h
        exact ⟨entry, List.mem_cons_of_mem _ hentry, h⟩

/-- The conditions of two lists of entries are met one list after the
other. -/
theorem entriesLeaves_append (before after : List Entry) :
    entriesLeaves (before ++ after) = entriesLeaves before ++ entriesLeaves after := by
  induction before with
  | nil => rfl
  | cons entry rest ih =>
      rw [List.cons_append, entriesLeaves, entriesLeaves, ih, List.append_assoc]

/-- An empty predicate has no conditions to render. -/
theorem Predicate.leaves_eq_nil {p : Predicate} (h : p.isEmpty = true) : p.leaves = [] := by
  rw [Predicate.leaves, Predicate.isEmpty_eq_true.mp h]
  rfl

/-! ### Nothing blank, no empty group -/

/-- A node without empty groups and without blank conditions, at any
depth. -/
inductive Node.Sound : Node → Prop
  | leaf {e : Expression} : e.Built → e.isEmpty = false → Sound (.leaf e)
  | group {entries : List Entry} :
      entries ≠ [] → (∀ entry ∈ entries, Sound entry.2) → Sound (.group entries)

/-- A predicate without empty groups and without blank conditions. -/
def Predicate.Sound (p : Predicate) : Prop := ∀ entry ∈ p.entries, entry.2.Sound

namespace Predicate

/-- Whatever connective is pending, one more sound node keeps a predicate
sound. -/
theorem Sound.push {p : Predicate} {node : Node} (hp : p.Sound) (hn : node.Sound) :
    (p.push node).Sound := by
  intro entry hentry
  rcases List.mem_append.mp hentry with h | h
  · exact hp entry h
  · rw [List.mem_singleton.mp h]
    exact hn

/-- Inserting a condition keeps a predicate sound: what would be blank
is left out. -/
theorem Sound.addExpression {p : Predicate} {e : Expression} (hp : p.Sound) (he : e.Built) :
    (p.addExpression e).Sound := by
  unfold Predicate.addExpression
  split
  · exact hp
  · next h => exact hp.push (.leaf he (by simpa using h))

/-- Inserting a group keeps a predicate sound: what would be empty is
left out. -/
theorem Sound.addPredicate {p group : Predicate} (hp : p.Sound) (hg : group.Sound) :
    (p.addPredicate group).Sound := by
  unfold Predicate.addPredicate
  split
  · exact hp
  · next h =>
    exact hp.push (.group (Predicate.isEmpty_eq_false.mp (Bool.eq_false_iff.mpr h)) hg)

end Predicate

/-- Under a sound node every single condition was made by one of the
constructors of `Expression.Built`. -/
theorem Node.Sound.built_leaves {node : Node} (h : node.Sound) : ∀ e ∈ node.leaves, e.Built := by
  induction h with
  | leaf hbuilt _ =>
      intro e he
      rw [List.mem_singleton.mp he]
      exact hbuilt
  | group _ _ ih =>
      intro e he
      obtain ⟨entry, hentry, he⟩ := exists_of_mem_entriesLeaves he
      exact ih entry hentry e he

/-- The same of all conditions of a sound predicate. -/
theorem Predicate.Sound.built_leaves {p : Predicate} (h : p.Sound) : ∀ e ∈ p.leaves, e.Built := by
  intro e he
  obtain ⟨entry, hentry, he⟩ := exists_of_mem_entriesLeaves he
  exact (h entry hentry).built_leaves e he

/-- An insertion adds at most the inserted condition to the leaves. -/
theorem Predicate.mem_leaves_addExpression {p : Predicate} {added e : Expression}
    (he : e ∈ (p.addExpression added).leaves) : e ∈ p.leaves ∨ e = added := by
  unfold Predicate.addExpression at he
  split at he
  · exact .inl he
  · rw [Predicate.leaves, Predicate.push, entriesLeaves_append, List.mem_append] at he
    exact he.imp_right fun h => List.mem_singleton.mp h

/-- Adding conditions one after the other brings in no condition that was
not in the list. -/
theorem Predicate.mem_leaves_foldl_addExpression {es : List Expression} {p : Predicate}
    {e : Expression} (he : e ∈ (es.foldl Predicate.addExpression p).leaves) :
    e ∈ p.leaves ∨ e ∈ es := by
  induction es generalizing p with
  | nil => exact .inl he
  | cons added rest ih =>
      rcases ih he with h | h
      · exact (Predicate.mem_leaves_addExpression h).imp_right fun heq => List.mem_cons.mpr (.inl heq)
      · exact .inr (List.mem_cons_of_mem _ h)

/-! ### Compiled filters -/

/-- The condition of a field is made by a constructor: a template where
the key has marks, and otherwise the test that fits the kind of the value. -/
theorem Filter.built_compileField (key : String) (value : Value) :
    (Filter.compileField key value).Built := by
  unfold Filter.compileField
  by_cases h : key.toList.contains '?'
  · rw [if_pos h]
    exact .template _ _
  · rw [if_neg h]
    obtain ⟨column, negated⟩ := Filter.splitNegation key
    cases value with
    | null => exact .nullCheck _ _
    | list items => exact .inList _ _ _
    | _ => exact .compare _ _ _

/-- So is the condition of a text. Without marks it is raw, a field or a
list, by the number of its values. -/
theorem Filter.built_compileText (s : String) (values : List Value) :
    (Filter.compileText s values).Built := by
  unfold Filter.compileText
  by_cases h : s.toList.contains '?'
  · rw [if_pos h]
    exact .template _ _
  · rw [if_neg h]
    match values with
    | [] => exact .raw _
    | [value] => exact Filter.built_compileField _ _
    | _ :: _ :: _ => exact .inList _ _ _

/-- The predicate of a map is the sequence of its fields' conditions. -/
theorem Filter.compile_fields (entries : List (String × Value)) (values : List Value) :
    (Filter.fields entries).compile values
      = (entries.map fun field => Filter.compileField field.1 field.2).foldl
          Predicate.addExpression .empty := by
  rw [List.foldl_map]
  rfl

namespace Predicate

/-- Nothing has been added yet, so there is nothing to be blank or empty. -/
theorem sound_empty : empty.Sound := by
  intro entry hentry
  exact nomatch hentry

/-- Adding made conditions one after the other keeps a predicate sound. -/
theorem Sound.foldl_addExpression {p : Predicate} {es : List Expression} (hp : p.Sound)
    (hes : ∀ e ∈ es, e.Built) : (es.foldl Predicate.addExpression p).Sound := by
  induction es generalizing p with
  | nil => exact hp
  | cons e es ih =>
      exact ih (hp.addExpression (hes e (by simp))) fun e' he' => hes e' (by simp [he'])

/-- A predicate that callers built has no blank condition and no empty
group, at any depth. -/
theorem Built.sound {p : Predicate} (h : p.Built) : p.Sound := by
  induction h with
  | empty => exact sound_empty
  | and _ ih => exact ih
  | or _ ih => exact ih
  | addExpression _ he ih => exact ih.addExpression he
  | addPredicate _ _ ihp ihg => exact ihp.addPredicate ihg
  | compileText s values =>
      exact sound_empty.addExpression (Filter.built_compileText s values)
  | compileFields entries values =>
      rw [Filter.compile_fields]
      refine sound_empty.foldl_addExpression fun e he => ?_
      obtain ⟨field, -, rfl⟩ := List.mem_map.mp he
      exact Filter.built_compileField _ _
  | compileTree values _ ih => exact sound_empty.addPredicate ih
  | addGroup combinator _ _ ihc ihg =>
      -- The chosen combinator touches no entry that is there already.
      exact Sound.addPredicate (p := { entries := _, next := combinator }) ihc ihg

end Predicate

/-- What a statement takes from a filter was built by callers if the
filter was. -/
theorem Filter.Built.toPredicate {filter : Filter} (h : filter.Built) (values : List Value) :
    (filter.toPredicate values).Built := by
  cases filter with
  | text s => exact .compileText s values
  | fields entries => exact .compileFields entries values
  | tree p => exact h

/-- Adding a condition that must hold too is one of the operations of
callers. -/
theorem Predicate.Built.merge {p added : Predicate} (hp : p.Built) (ha : added.Built) :
    (p.merge added).Built := by
  unfold Predicate.merge
  split
  · -- An empty predicate is replaced by the added one.
    exact ha
  · exact .addPredicate (.and hp) ha

/-! ### Errors -/

mutual

/-- A node fails with the error that `error?` reads off it, and is
rendered when there is none. -/
theorem Node.failure_draft : (node : Node) → node.draft.failure = node.error?
  | .leaf e => by
      simp only [Node.draft, Node.error?, Expression.draft]
      cases e.error <;> rfl
  | .group entries => by
      simp only [Node.draft, Node.error?]
      split <;> simp [failure_draftEntries]

/-- Entries fail with what stands before them, or else with the error of
their first bad condition. -/
theorem failure_draftEntries :
    (before : Draft) → (entries : List Entry) →
      (draftEntries before entries).failure = before.failure.or (entriesError? entries)
  | before, [] => by simp [draftEntries, entriesError?]
  | before, (combinator, node) :: rest => by
      rw [draftEntries, failure_draftEntries, Draft.failure_add, Node.failure_draft]
      simp [entriesError?, Option.or_assoc, Option.orElse_eq_or]

end

/-- A predicate is rendered unless a condition in it is bad, and fails
with the error of the first bad one. -/
theorem Predicate.failure_draft (p : Predicate) : p.draft.failure = p.error? := by
  simp [Predicate.draft, failure_draftEntries, Predicate.error?]

mutual

/-- A node carries no error exactly when none of its conditions does. -/
theorem Node.error?_eq_none : (node : Node) →
    (node.error? = none ↔ ∀ e ∈ node.leaves, e.error = none)
  | .leaf e => by simp [Node.error?, Node.leaves]
  | .group entries => by
      simpa [Node.error?, Node.leaves] using entriesError?_eq_none entries

/-- There is no error exactly if no leaf carries one. -/
theorem entriesError?_eq_none : (entries : List Entry) →
    (entriesError? entries = none ↔ ∀ e ∈ entriesLeaves entries, e.error = none)
  | [] => by simp [entriesError?, entriesLeaves]
  | (_, node) :: rest => by
      simp [entriesError?, entriesLeaves, Option.orElse_eq_or, Node.error?_eq_none node,
        entriesError?_eq_none rest, or_imp, forall_and]

end

end SqlSession
