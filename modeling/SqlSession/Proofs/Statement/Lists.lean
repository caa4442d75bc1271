import SqlSession.Proofs.Condition.Binding
import SqlSession.Proofs.Statement.Alignment
import SqlSession.Proofs.Statement.Rows
import SqlSession.Proofs.Value

/-!
# `SqlSession.Proofs.Statement.Lists`: lists among the parameters

A list that is given for the placeholders of a text stands for its
elements, at any depth: conditions and assignments with a text of their
own flatten their values when they are made or rendered, and count what
is left against the placeholders. A list that is given for a column, in
a plain assignment or in a row, is bound as it is.

`Statement.bare` are the values given for columns.
`Statement.lists_among_parameters` is the main statement: the lists
among the parameters of a statement are those among its bare values, and
`Statement.list_bound_whole` shows that there can be some. What leads to
it is that a built statement binds the values of its pieces, whatever
placeholders the texts around them have (`Draft.values_joinWith`), and
that no condition binds a list (`Expression.Built.isList_eq_false`).
-/

set_option autoImplicit false

namespace SqlSession

/-- Among values none of which is a list there are no lists. -/
theorem Value.filter_isList_of_forall {vs : List Value} (h : ∀ v ∈ vs, v.isList = false) :
    vs.filter isList = [] :=
  List.filter_eq_nil_iff.mpr fun v hv => Bool.eq_false_iff.mp (h v hv)

namespace Expression

variable {e : Expression}

/-- A condition binds no list. -/
theorem Built.isList_eq_false (h : e.Built) : ∀ v ∈ e.values, v.isList = false := by
  have htemplate (spec : String) (values : List Value) :
      ∀ v ∈ (Expression.template spec values).values, v.isList = false :=
    Value.isList_of_mem_flattenAll values
  have hfailed (spec : String) (err : Error) :
      ∀ v ∈ (Expression.failed spec err).values, v.isList = false := fun _ hv => nomatch hv
  -- A condition with values is a template in the end, and a template flattens what it is given.
  cases h with
  | template spec values => exact htemplate spec values
  | raw => exact fun _ hv => nomatch hv
  | compare column operator value => exact htemplate _ _
  | like => exact htemplate _ _
  | between => exact htemplate _ _
  | nullCheck => exact fun _ hv => nomatch hv
  | inList =>
      dsimp only [Expression.inList]
      split
      · exact hfailed _ _
      · exact htemplate _ _
  | subquery =>
      dsimp only [Expression.subquery]
      split
      · exact hfailed _ _
      · exact htemplate _ _

/-- A condition that binds anything has as many placeholders. -/
theorem Built.counted (h : e.Built) (ok : e.error = none) :
    e.values = [] ∨ placeholderCount e.spec = e.values.length := by
  by_cases hraw : e = .raw e.spec
  · -- A text that nothing is bound to may have placeholders of its own.
    left
    rw [hraw]
    rfl
  · right
    exact h.bound (fun heq => absurd heq hraw) ok

end Expression

/-! ### What a draft binds -/

/-- No condition of a predicate that can be built has an error. -/
theorem Predicate.error_of_failure {p : Predicate} (h : p.draft.failure = none) :
    ∀ e ∈ p.leaves, e.error = none :=
  (entriesError?_eq_none p.entries).mp (p.failure_draft.symm.trans h)

/-- A predicate binds what its conditions bind, one after another. -/
theorem Predicate.values_of_failure {p : Predicate} (h : p.draft.failure = none) :
    p.draft.values = valuesOf (p.leaves.map Expression.fragment) := by
  rw [p.values_draft, beforeBad_of_good (p.error_of_failure h), valuesOf, List.flatMap_map]
  rfl

/-- An order entry binds nothing: it is text. -/
theorem Order.values_draft (entry : String) : (Order.draft entry).values = [] := by
  unfold Order.draft
  split <;> rfl

/-- Nor do any number of order entries, if all of them can be read. -/
theorem Select.values_orderDraft {s : Select} (h : s.orderDraft.failure = none) :
    s.orderDraft.values = [] := by
  rw [orderDraft, Draft.failure_headed] at h
  rw [orderDraft, Draft.values_headed, Draft.values_joinWith h, List.flatMap_map,
    List.flatMap_eq_nil_iff]
  exact fun entry _ => Order.values_draft entry

/-- A limit binds its number if it is set, and is not written otherwise. -/
theorem Select.values_countDraft (keyword : String) (n : Option Int64) :
    (countDraft keyword n).values = valuesOf (countPieces keyword n) := by
  cases n <;> rfl

/-- If a select can be built, its clauses can: a failure in any of them is
one of the whole. -/
theorem Select.failure_clauses {s : Select} (h : s.draft.failure = none) :
    s.conditions.draft.failure = none ∧ s.groupConditions.draft.failure = none ∧
      s.orderDraft.failure = none := by
  have hok := Draft.failure_of_joinWith h
  refine ⟨?_, ?_, hok _ (by simp)⟩
  · rw [← Draft.failure_headed "WHERE"]
    exact hok _ (by simp)
  · rw [← Draft.failure_headed "HAVING"]
    exact hok _ (by simp)

/-- A select that can be built binds what its pieces bind: conditions,
conditions on groups, limit and offset, as they are written. -/
theorem Select.values_draft {s : Select} (h : s.draft.failure = none) :
    s.draft.values = valuesOf s.pieces := by
  obtain ⟨hwhere, hhaving, horder⟩ := failure_clauses h
  rw [draft, Draft.values_joinWith h, pieces]
  simp only [List.flatMap_cons, List.flatMap_nil, Draft.values_plain, Draft.values_headed,
    Predicate.values_of_failure hwhere, Predicate.values_of_failure hhaving,
    values_orderDraft horder, values_countDraft, valuesOf_append, List.nil_append,
    List.append_nil, List.append_assoc]

/-- If a delete can be built, its conditions can. -/
theorem Delete.failure_conditions {d : Delete} (h : d.draft.failure = none) :
    d.conditions.draft.failure = none := by
  rw [← Draft.failure_headed "WHERE"]
  exact Draft.failure_of_joinWith h _ (by simp)

/-- A delete that can be built binds what its conditions bind. -/
theorem Delete.values_draft {d : Delete} (h : d.draft.failure = none) :
    d.draft.values = valuesOf d.pieces := by
  rw [draft, Draft.values_joinWith h, pieces]
  simp only [List.flatMap_cons, List.flatMap_nil, Draft.values_plain, Draft.values_headed,
    Predicate.values_of_failure (failure_conditions h), List.nil_append, List.append_nil]

/-- Assignments bind their values one after another. -/
theorem Update.values_setDraft {u : Update} (h : u.setDraft.failure = none) :
    u.setDraft.values = valuesOf (u.assignments.map Assignment.fragment) :=
  (u.weaves_setDraft h).valuesOf_eq

/-- If an update can be built, its assignments and its conditions can. -/
theorem Update.failure_clauses {u : Update} (h : u.draft.failure = none) :
    u.setDraft.failure = none ∧ u.conditions.draft.failure = none := by
  have hok := Draft.failure_of_joinWith h
  refine ⟨hok _ (by simp), ?_⟩
  rw [← Draft.failure_headed "WHERE"]
  exact hok _ (by simp)

/-- An update that can be built binds the values of its assignments before
those of its conditions. -/
theorem Update.values_draft {u : Update} (h : u.draft.failure = none) :
    u.draft.values = valuesOf u.pieces := by
  obtain ⟨hset, hwhere⟩ := failure_clauses h
  rw [draft, Draft.values_joinWith h, pieces]
  simp only [List.flatMap_cons, List.flatMap_nil, Draft.values_plain, Draft.values_headed,
    values_setDraft hset, Predicate.values_of_failure hwhere, valuesOf_append, List.nil_append,
    List.append_nil]

/-- The pieces of an insert have the values of its rows. -/
theorem Insert.valuesOf_pieces (ins : Insert) : valuesOf ins.pieces = ins.rows.flatten := by
  rw [valuesOf, pieces, List.flatMap_map]
  exact List.flatMap_id'

/-- An insert that can be built binds its rows one after another, lists
and all. -/
theorem Insert.values_draft {ins : Insert} (h : ins.draft.failure = none) :
    ins.draft.values = valuesOf ins.pieces := by
  unfold draft at *
  split at h
  · exact nomatch h
  · next hsome =>
    rw [if_neg hsome, Draft.values_append rfl, ins.values_groups, ins.valuesOf_pieces]
    rfl

/-! ### Pieces and their placeholders -/

/-- Pieces that are found in fragments are counted as the fragments are:
what stands around them has no placeholders. -/
theorem Woven.counted {pieces fragments : List Fragment} (h : Woven pieces fragments) :
    ∀ piece ∈ pieces, placeholderCount piece.text = piece.values.length := by
  intro piece hpiece
  obtain ⟨before, after, rfl⟩ := List.append_of_mem hpiece
  obtain ⟨-, -, -, -, hcount⟩ := h.split
  exact hcount

/-- A piece that binds values has a placeholder for each of them. -/
def Fragment.Counted (piece : Fragment) : Prop :=
  piece.values = [] ∨ placeholderCount piece.text = piece.values.length

/-- Every condition of a predicate that can be built has as many
placeholders as values. -/
theorem Predicate.counted {p : Predicate} (hbuilt : p.Built) (h : p.draft.failure = none) :
    ∀ piece ∈ p.leaves.map Expression.fragment, piece.Counted := by
  intro piece hpiece
  obtain ⟨e, he, rfl⟩ := List.mem_map.mp hpiece
  exact (hbuilt.sound.built_leaves e he).counted (p.error_of_failure h e he)

/-- The limit of a select has one placeholder for its one number. -/
theorem Select.counted_countPieces {keyword : String} (h : placeholderCount (keyword ++ " ?") = 1)
    (n : Option Int64) : ∀ piece ∈ countPieces keyword n, piece.Counted := by
  intro piece hpiece
  cases n with
  | none => exact nomatch hpiece
  | some n =>
      rw [List.mem_singleton.mp hpiece]
      exact .inr h

/-- Every piece of a select that can be built has as many placeholders as
values. -/
theorem Select.counted {s : Select} (hbuilt : s.conditions.Built)
    (hgroups : s.groupConditions.Built) (h : s.draft.failure = none) :
    ∀ piece ∈ s.pieces, piece.Counted := by
  obtain ⟨hwhere, hhaving, -⟩ := failure_clauses h
  intro piece hpiece
  rw [pieces, List.mem_append, List.mem_append, List.mem_append] at hpiece
  rcases hpiece with ((hcondition | hgroup) | hlimit) | hoffset
  · exact Predicate.counted hbuilt hwhere piece hcondition
  · exact Predicate.counted hgroups hhaving piece hgroup
  · exact counted_countPieces (by decide) s.limit piece hlimit
  · exact counted_countPieces (by decide) s.offset piece hoffset

/-- Every piece of an update that can be built has as many placeholders as
values. -/
theorem Update.counted {u : Update} (hbuilt : u.conditions.Built) (h : u.draft.failure = none) :
    ∀ piece ∈ u.pieces, piece.Counted := by
  obtain ⟨hset, hwhere⟩ := failure_clauses h
  intro piece hpiece
  rcases List.mem_append.mp hpiece with hassignment | hcondition
  · exact .inr ((u.weaves_setDraft hset).counted piece hassignment)
  · exact Predicate.counted hbuilt hwhere piece hcondition

/-- Every row of an insert has as many placeholders as values, as all rows
have one value for each column. -/
theorem Insert.counted {ins : Insert} (heven : ins.Even) : ∀ piece ∈ ins.pieces, piece.Counted := by
  intro piece hpiece
  obtain ⟨values, hvalues, rfl⟩ := List.mem_map.mp hpiece
  exact .inr ((weaves_rowDraft (heven values hvalues) rfl).counted _ List.mem_cons_self)

/-! ### Lists among the values of pieces -/

/-- The conditions of a predicate bind no list. -/
theorem Predicate.Built.no_list {p : Predicate} (h : p.Built) :
    (valuesOf (p.leaves.map Expression.fragment)).filter Value.isList = [] := by
  refine Value.filter_isList_of_forall fun v hv => ?_
  obtain ⟨piece, hpiece, hv⟩ := List.mem_flatMap.mp hv
  obtain ⟨e, he, rfl⟩ := List.mem_map.mp hpiece
  exact (h.sound.built_leaves e he).isList_eq_false v hv

/-- The number of a limit is no list. -/
theorem Select.no_list_countPieces (keyword : String) (n : Option Int64) :
    (valuesOf (countPieces keyword n)).filter Value.isList = [] := by
  cases n <;> rfl

/-- The values that assignments bind to columns. -/
def Update.bare (u : Update) : List Value :=
  (u.assignments.filter fun a => !a.isTemplate).map Assignment.value

/-- Of the values that an assignment binds only one for a column can be a
list. -/
theorem Assignment.lists_eq (assignments : List Assignment) :
    (valuesOf (assignments.map fragment)).filter Value.isList
      = ((assignments.filter fun a => !a.isTemplate).map value).filter Value.isList := by
  induction assignments with
  | nil => rfl
  | cons a rest ih =>
      show ((a.fragment.values ++ valuesOf (rest.map fragment)).filter Value.isList) = _
      rw [List.filter_append, ih, List.filter_cons]
      -- A plain assignment binds its value as it is; one with a text of its own flattens it.
      cases htemplate : a.isTemplate with
      | false =>
          have hvalues : a.fragment.values = [a.value] := by
            rw [fragment, htemplate]
            rfl
          rw [hvalues]
          exact (List.filter_append [a.value] _).symm
      | true =>
          have hvalues : a.fragment.values = a.value.flatten := by
            rw [fragment, htemplate]
            rfl
          rw [hvalues, Value.filter_isList_of_forall a.value.isList_of_mem_flatten]
          rfl

/-! ### Statements -/

namespace Statement

/-- The values given for columns: those of assignments without a text of
their own, and the rows. -/
def bare : Statement → List Value
  | .update u => u.bare
  | .insert ins => ins.rows.flatten
  | _ => []

/-- A statement that can be built binds the values of its pieces, in
order, and a piece that binds any has a placeholder for each: the list
given for a text is expanded over as many placeholders as it has
elements, or else the statement cannot be built. The lists among the
parameters are those among the values given for columns; a statement
that reads or removes rows binds none, and neither does one whose
columns are given no list. -/
theorem lists_among_parameters (s : Statement) (q : Query) (hchosen : s.Chosen)
    (hq : s.build = .ok q) :
    q.params = valuesOf s.pieces ∧ (∀ piece ∈ s.pieces, piece.Counted) ∧
      q.params.filter Value.isList = s.bare.filter Value.isList := by
  -- What is left of a history of choices is that conditions were built and rows are even.
  cases hchosen with
  | select table choices =>
      have hbuilt := (Conditions.select table choices).built
      have hgroups := (Conditions.selectGroups table choices).built
      generalize Select.ofChoices table choices = s at *
      have hquery : s.draft.query = .ok q := hq
      obtain ⟨hfail, -, hparams⟩ := Draft.query_eq_ok_iff.mp hquery
      have hvalues := hparams.symm.trans (Select.values_draft hfail)
      refine ⟨hvalues, Select.counted hbuilt hgroups hfail, ?_⟩
      -- Conditions bind no lists, and neither do limit and offset.
      rw [hvalues, Select.pieces, valuesOf_append, valuesOf_append, valuesOf_append,
        List.filter_append, List.filter_append, List.filter_append, hbuilt.no_list,
        hgroups.no_list, Select.no_list_countPieces, Select.no_list_countPieces]
      rfl
  | update table choices =>
      have hbuilt := (Conditions.update table choices).built
      generalize Update.ofChoices table choices = u at *
      have hquery : u.draft.query = .ok q := hq
      obtain ⟨hfail, -, hparams⟩ := Draft.query_eq_ok_iff.mp hquery
      have hvalues := hparams.symm.trans (Update.values_draft hfail)
      refine ⟨hvalues, Update.counted hbuilt hfail, ?_⟩
      -- What can bind a list is an assignment without a text of its own.
      rw [hvalues, Update.pieces, valuesOf_append, List.filter_append, hbuilt.no_list,
        List.append_nil, Assignment.lists_eq]
      rfl
  | delete table choices =>
      have hbuilt := (Conditions.delete table choices).built
      generalize Delete.ofChoices table choices = d at *
      have hquery : d.draft.query = .ok q := hq
      obtain ⟨hfail, -, hparams⟩ := Draft.query_eq_ok_iff.mp hquery
      have hvalues := hparams.symm.trans (Delete.values_draft hfail)
      refine ⟨hvalues, Predicate.counted hbuilt (Delete.failure_conditions hfail), ?_⟩
      rw [hvalues, Delete.pieces, hbuilt.no_list]
      rfl
  | insert table choices =>
      have heven := Insert.even_ofChoices table choices
      generalize Insert.ofChoices table choices = ins at *
      have hquery : ins.draft.query = .ok q := hq
      obtain ⟨hfail, -, hparams⟩ := Draft.query_eq_ok_iff.mp hquery
      have hvalues := hparams.symm.trans (Insert.values_draft hfail)
      refine ⟨hvalues, Insert.counted heven, ?_⟩
      rw [hvalues, Insert.valuesOf_pieces]
      rfl

/-- An assignment with a text of its own, one without, and a filter: each
is given a list. -/
theorem lists_among_parameters_update :
    let u := Update.ofChoices "t" [
      .set "n=?+?" (.list [.int 1, .list [.int 2]]),
      .set "m" (.list [.int 3]),
      .filter ⟨.fields [("id", .list [.list [.int 4], .int 5])], trivial, []⟩]
    ∃ q, (Statement.update u).Chosen ∧ (Statement.update u).build = .ok q ∧
      q.sql = "UPDATE \x60t\x60 SET n=?+?, \x60m\x60=? WHERE \x60id\x60 IN (?,?)" ∧
      q.params = [.int 1, .int 2, .list [.int 3], .int 4, .int 5] ∧
      q.params.filter Value.isList = [.list [.int 3]] := by
  intro u
  have hfail : u.draft.failure = none := Option.isNone_iff_eq_none.mp (by decide +kernel)
  have hbuild : (Statement.update u).build = .ok ⟨u.draft.text, u.draft.values⟩ := by
    show u.draft.query = _
    exact Draft.query_of_failure_eq_none hfail
  have hchosen : (Statement.update u).Chosen := .update _ _
  obtain ⟨hparams, -, hlists⟩ := lists_among_parameters _ _ hchosen hbuild
  have hvalues : valuesOf (Statement.update u).pieces
      = [.int 1, .int 2, .list [.int 3], .int 4, .int 5] := by rfl
  have hbare : (Statement.update u).bare.filter Value.isList = [.list [.int 3]] := by rfl
  exact ⟨_, hchosen, hbuild, by decide +kernel, hparams.trans hvalues, hlists.trans hbare⟩

/-- A list given for a column is one parameter, in an assignment and in a
row. -/
theorem list_bound_whole :
    let u := Update.ofChoices "t" [.set "a" (.list [.int 1])]
    let ins := Insert.ofChoices "t" [.addRow [("a", .list [.int 1])]]
    (Statement.update u).build = .ok ⟨"UPDATE \x60t\x60 SET \x60a\x60=?", [.list [.int 1]]⟩ ∧
      (Statement.insert ins).build
        = .ok ⟨"INSERT INTO \x60t\x60(\x60a\x60) VALUES(?)", [.list [.int 1]]⟩ ∧
      ¬ ∀ (s : Statement) (q : Query), s.Chosen → s.build = .ok q →
        ∀ v ∈ q.params, v.isList = false := by
  intro u ins
  have hfail : u.draft.failure = none := Option.isNone_iff_eq_none.mp (by decide +kernel)
  have hfail' : ins.draft.failure = none := Option.isNone_iff_eq_none.mp (by decide +kernel)
  have hupdate : (Statement.update u).build
      = .ok ⟨"UPDATE \x60t\x60 SET \x60a\x60=?", [.list [.int 1]]⟩ := by
    show u.draft.query = _
    exact Draft.query_eq_ok_iff.mpr ⟨hfail, by decide +kernel, by rfl⟩
  have hinsert : (Statement.insert ins).build
      = .ok ⟨"INSERT INTO \x60t\x60(\x60a\x60) VALUES(?)", [.list [.int 1]]⟩ := by
    show ins.draft.query = _
    exact Draft.query_eq_ok_iff.mpr ⟨hfail', by decide +kernel, by rfl⟩
  refine ⟨hupdate, hinsert, fun hall => ?_⟩
  -- The one parameter of the update is the list.
  have hno := hall _ _ (.update "t" _) hupdate _ List.mem_cons_self
  exact Bool.noConfusion hno

end Statement

end SqlSession
