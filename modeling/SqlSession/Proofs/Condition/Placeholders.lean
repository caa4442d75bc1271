import SqlSession.Proofs.Condition.Rendering
import SqlSession.Proofs.Statement.Woven

/-!
# `SqlSession.Proofs.Condition.Placeholders`: placeholders in conditions

A single condition binds as many values as its text has placeholders, if
it carries no error: its values were counted when it was made. Nobody
counts for a text that binds nothing, so it may have placeholders that
nothing is bound to; `Expression.MarkFree` excludes that. A condition
compiled from a text or from a field never needs it excluded
(`Filter.markFree_text`, `Filter.markFree_fields`).

`Predicate.Built.weaves`: a predicate whose leaves are free in this sense
has these leaves as its pieces, from left to right.
-/

set_option autoImplicit false

namespace SqlSession

namespace Expression

/-- A condition as a piece of a statement. -/
def fragment (e : Expression) : Fragment := ⟨e.spec, e.values⟩

/-- If the condition is a text that binds nothing, the text has no
placeholders. -/
def MarkFree (e : Expression) : Prop := e = .raw e.spec → placeholderCount e.spec = 0

/-! ### Single conditions -/

/-- The values of a template are counted when it is made. -/
theorem bound_template {spec : String} {values : List Value}
    (ok : (template spec values).error = none) :
    placeholderCount (template spec values).spec = (template spec values).values.length := by
  dsimp only [template] at ok ⊢
  split at ok
  · assumption
  · exact nomatch ok

/-- A membership test writes one placeholder for each value that it
flattened its argument to. -/
theorem bound_inList {column : String} {values : List Value} {negated : Bool}
    (ok : (inList column values negated).error = none) :
    placeholderCount (inList column values negated).spec
      = (inList column values negated).values.length := by
  dsimp only [inList] at ok ⊢
  split at ok
  · -- An empty list carries an error.
    exact nomatch ok
  · next h =>
    rw [if_neg h]
    exact bound_template ok

/-- A subquery is counted like a template. -/
theorem bound_subquery {sub : String} {values : List Value} {negated : Bool}
    (ok : (subquery sub values negated).error = none) :
    placeholderCount (subquery sub values negated).spec
      = (subquery sub values negated).values.length := by
  dsimp only [subquery] at ok ⊢
  split at ok
  · -- So does a subquery with too few values; with too many, some are left out.
    exact nomatch ok
  · next h =>
    rw [if_neg h]
    exact bound_template ok

/-- A condition without error binds as many values as its text has
placeholders. -/
theorem Built.bound {e : Expression} (h : e.Built) (hfree : e.MarkFree) (ok : e.error = none) :
    placeholderCount e.spec = e.values.length := by
  cases h with
  | template => exact bound_template ok
  | raw => exact hfree rfl
  | compare => exact bound_template ok
  | like => exact bound_template ok
  | inList => exact bound_inList ok
  | between => exact bound_template ok
  | nullCheck => exact hfree rfl
  | subquery => exact bound_subquery ok

/-! ### Compiled conditions -/

/-- A condition that was counted is free. -/
theorem markFree_of_bound {e : Expression}
    (h : e.error = none → placeholderCount e.spec = e.values.length) : e.MarkFree := by
  intro heq
  have hvalues : e.values = [] := by rw [heq]; rfl
  rw [h (by rw [heq]; rfl), hvalues]
  rfl

/-- A test for null binds nothing, so its column must have no placeholder
in it. -/
theorem markFree_nullCheck {column : String} (negated : Bool)
    (h : placeholderCount column = 0) : (nullCheck column negated).MarkFree := by
  intro _
  show placeholderCount (quoteIdentifier column ++ _) = 0
  rw [placeholderCount_append, placeholderCount_quoteIdentifier h]
  cases negated <;> decide

end Expression

namespace Filter

/-- A column has no placeholder that the text does not have. -/
theorem placeholderCount_splitNegation {s : String} (h : placeholderCount s = 0) :
    placeholderCount (splitNegation s).1 = 0 := by
  rw [placeholderCount_eq_zero] at h ⊢
  have htrim : '?' ∉ Text.trimChars s.toList := fun hmark => h (Text.mem_trimChars hmark)
  intro hmark
  unfold splitNegation at hmark
  split at hmark
  · next heq =>
    rw [String.toList_ofList] at hmark
    exact htrim (heq ▸ List.mem_cons_of_mem _ (Text.mem_trimChars hmark))
  · rw [String.toList_ofList] at hmark
    exact htrim hmark

/-- What does not contain the mark has no placeholder. -/
theorem placeholderCount_of_not_contains {s : String} (h : ¬ s.toList.contains '?') :
    placeholderCount s = 0 := by
  rw [placeholderCount_eq_zero]
  exact fun hmark => h (List.contains_iff_mem.mpr hmark)

/-- A key with a placeholder becomes a template, so no mark is ever taken
for a part of a column. -/
theorem markFree_compileField (key : String) (value : Value) :
    (compileField key value).MarkFree := by
  unfold compileField
  by_cases h : key.toList.contains '?'
  · rw [if_pos h]
    exact Expression.markFree_of_bound Expression.bound_template
  · rw [if_neg h]
    -- The column is a part of the key, which has no mark here.
    have hcolumn := placeholderCount_splitNegation (placeholderCount_of_not_contains h)
    generalize splitNegation key = cut at hcolumn ⊢
    obtain ⟨column, negated⟩ := cut
    cases value with
    | null => exact Expression.markFree_nullCheck negated hcolumn
    | list items => exact Expression.markFree_of_bound Expression.bound_inList
    | _ => exact Expression.markFree_of_bound Expression.bound_template

/-- The same of a text, with values or without. -/
theorem markFree_compileText (s : String) (values : List Value) :
    (compileText s values).MarkFree := by
  unfold compileText
  by_cases h : s.toList.contains '?'
  · rw [if_pos h]
    exact Expression.markFree_of_bound Expression.bound_template
  · rw [if_neg h]
    match values with
    | [] =>
        intro _
        show placeholderCount (Text.trim s) = 0
        rw [placeholderCount_trim, placeholderCount_of_not_contains h]
    | [value] => exact markFree_compileField s value
    | _ :: _ :: _ => exact Expression.markFree_of_bound Expression.bound_inList

/-- The condition made of a text is free. -/
theorem markFree_text (s : String) (values : List Value) :
    ∀ e ∈ ((Filter.text s).compile values).leaves, e.MarkFree := by
  intro e he
  rcases Predicate.mem_leaves_addExpression he with h | rfl
  · exact nomatch h
  · exact markFree_compileText s values

/-- The conditions made of a map's fields are free. -/
theorem markFree_fields (entries : List (String × Value)) (values : List Value) :
    ∀ e ∈ ((Filter.fields entries).compile values).leaves, e.MarkFree := by
  intro e he
  rw [compile_fields] at he
  rcases Predicate.mem_leaves_foldl_addExpression he with h | h
  · exact nomatch h
  · obtain ⟨field, -, rfl⟩ := List.mem_map.mp h
    exact markFree_compileField field.1 field.2

end Filter

/-! ### Predicates -/

/-- Among tokens the single conditions are the pieces. -/
theorem woven_tokens {tokens : List Token}
    (h : ∀ e ∈ tokens.filterMap Token.leaf?, placeholderCount e.spec = e.values.length) :
    Woven ((tokens.filterMap Token.leaf?).map Expression.fragment)
      (tokens.map Token.fragment) := by
  induction tokens with
  | nil => exact .nil
  | cons token rest ih =>
      cases token with
      | leaf e =>
          exact .piece (h e List.mem_cons_self) (ih fun x hx => h x (List.mem_cons_of_mem _ hx))
      | _ => exact .between (by decide) rfl (ih h)

/-- A predicate has its single conditions as pieces, from left to right. -/
theorem Predicate.Built.weaves {p : Predicate} (h : p.Built)
    (hfree : ∀ e ∈ p.leaves, e.MarkFree) : p.draft.Weaves (p.leaves.map Expression.fragment) := by
  intro hfail
  have ok : p.error? = none := p.failure_draft ▸ hfail
  have hleaves := (entriesError?_eq_none p.entries).mp ok
  rw [h.sound.draft_eq ok, ← p.filterMap_tokens]
  refine woven_tokens fun e he => ?_
  rw [p.filterMap_tokens] at he
  -- A leaf was made by a caller, is free, and has no error because the whole has none.
  exact (h.sound.built_leaves e he).bound (hfree e he) (hleaves e he)

end SqlSession
