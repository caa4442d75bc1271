import SqlSession.Condition.Expression
import SqlSession.Proofs.Value

/-!
# `SqlSession.Proofs.Condition.Elements`: conditions on values inside lists

A condition flattens its values before it counts them. The one on a list
of values does so twice, once to write a placeholder for each and once
more in the template that it becomes; the one on a subquery leaves values
out in between. The second pass never finds a list (`values_inList`,
`values_subquery`), so what a condition is made of depends on the
flattened values alone.

`Value.flattening_exact` puts this together with what flattening is.
-/

set_option autoImplicit false

namespace SqlSession

namespace Expression

/-! ### Bound values -/

/-- A column among values binds all of them, in order. -/
theorem values_inList (column : String) (vs : List Value) (negated : Bool) :
    (inList column vs negated).values = Value.flattenAll vs := by
  dsimp only [inList]
  split
  · next hempty => exact (List.isEmpty_iff.mp hempty).symm
  · exact Value.flattenAll_flattenAll vs

/-- A subquery binds the first of the values, as many as it has
placeholders, or none if there are too few. -/
theorem values_subquery (sub : String) (vs : List Value) (negated : Bool) :
    (subquery sub vs negated).values
      = if (Value.flattenAll vs).length < placeholderCount sub then []
        else (Value.flattenAll vs).take (placeholderCount sub) := by
  dsimp only [subquery]
  split
  · rfl
  · exact Value.flattenAll_of_forall fun v hv =>
      Value.isList_of_mem_flattenAll vs v (List.mem_of_mem_take hv)

/-! ### The same elements -/

section

variable {vs ws : List Value} (h : Value.flattenAll vs = Value.flattenAll ws)
include h

/-- A template sees the elements of its values, and not how they are
nested. -/
theorem template_congr (spec : String) : template spec vs = template spec ws := by
  rw [template, template, h]

/-- So does a membership test. -/
theorem inList_congr (column : String) (negated : Bool) :
    inList column vs negated = inList column ws negated := by
  rw [inList, inList, h]

/-- And so does a subquery. -/
theorem subquery_congr (sub : String) (negated : Bool) :
    subquery sub vs negated = subquery sub ws negated := by
  rw [subquery, subquery, h]

end

end Expression

namespace Value

/-- Flattening gives the values at the leaves, in lexicographic order of
their places, and so does the loop that appends them one after another.
There is no list among them, flattening them again changes nothing, and
the elements of two sequences are those of the first and then those of
the second. Two sequences have the same elements exactly if splices lead
from both to the same values. Conditions bind these elements, so each of
them is the same when a list among its values, at any depth, makes way for
its elements. -/
theorem flattening_exact (vs : List Value) :
    (∃ places, (list vs).Leaves places ∧
      (flattenAll vs).map some = places.map (list vs).inside?) ∧
    (∀ out, pushAllOnto out vs = out ++ flattenAll vs) ∧
    (∀ v ∈ flattenAll vs, v.isList = false) ∧
    flattenAll (flattenAll vs) = flattenAll vs ∧
    (∀ ws, flattenAll (vs ++ ws) = flattenAll vs ++ flattenAll ws) ∧
    (∀ ws, flattenAll vs = flattenAll ws ↔ ∃ us, Splices vs us ∧ Splices ws us) ∧
    (∀ spec, (Expression.template spec vs).values = flattenAll vs) ∧
    (∀ column negated, (Expression.inList column vs negated).values = flattenAll vs) ∧
    (∀ sub negated, (Expression.subquery sub vs negated).values
      = if (flattenAll vs).length < placeholderCount sub then []
        else (flattenAll vs).take (placeholderCount sub)) ∧
    ∀ ws, Splice vs ws →
      (∀ spec, Expression.template spec vs = .template spec ws) ∧
      (∀ column negated, Expression.inList column vs negated = .inList column ws negated) ∧
      ∀ sub negated, Expression.subquery sub vs negated = .subquery sub ws negated := by
  refine ⟨exists_leaves vs, pushAllOnto_eq vs, isList_of_mem_flattenAll vs,
    flattenAll_flattenAll vs, flattenAll_append vs, fun ws => flattenAll_eq_iff, fun _ => rfl,
    fun column => Expression.values_inList column vs,
    fun sub => Expression.values_subquery sub vs, fun ws hsplice => ?_⟩
  -- A splice keeps the elements, and conditions see nothing else of their values.
  have hsame := hsplice.flattenAll_eq
  exact ⟨Expression.template_congr hsame, Expression.inList_congr hsame,
    Expression.subquery_congr hsame⟩

/-- A list inside a list, among it an empty one, and three placeholders. -/
theorem flattening_exact_inside :
    let vs := [.list [.null, .list [.int 1, .list []]], .text "a"]
    let ws := [.list [.null, .int 1, .list []], .text "a"]
    Splice vs ws ∧ flattenAll vs = [.null, .int 1, .text "a"] ∧
      int 1 ∈ flattenAll vs ∧ (int 1).isList = false ∧
      Expression.template "f(?,?,?)" vs = .template "f(?,?,?)" ws ∧
      (Expression.template "f(?,?,?)" ws).error = none ∧
      Expression.inList "c" vs true = .inList "c" ws true ∧
      (Expression.inList "c" ws true).spec = "\x60c\x60 NOT IN (?,?,?)" ∧
      Expression.subquery "SELECT ?" vs false = .subquery "SELECT ?" ws false ∧
      (Expression.subquery "SELECT ?" ws false).values = [.null] := by
  intro vs ws
  have hsplice : Splice vs ws :=
    .inside [] [.text "a"] (.here [.null] [.int 1, .list []] [])
  have hvalues : flattenAll vs = [.null, .int 1, .text "a"] := rfl
  have hmem : int 1 ∈ flattenAll vs := by
    rw [hvalues]
    exact List.mem_cons_of_mem _ List.mem_cons_self
  obtain ⟨-, -, hplain, -, -, -, -, -, -, hconditions⟩ := flattening_exact vs
  obtain ⟨htemplate, hlist, hsub⟩ := hconditions ws hsplice
  exact ⟨hsplice, hvalues, hmem, hplain _ hmem, htemplate _, by decide +kernel, hlist _ _,
    by decide +kernel, hsub _ _, rfl⟩

end Value

end SqlSession
