import Mathlib.Data.List.Nodup
import SqlSession.Proofs.Statement.Filtered

/-!
# `SqlSession.Proofs.Condition.Fields`: maps of fields as conditions

A map of fields asks for all of its fields. Each of them becomes one
condition, never a blank one, so the conditions of a map are the drafts
of its fields joined by AND (`Filter.draft_fields`), and a field on its
own is drafted alike whether it is given as a map or as a text with one
value (`Filter.draft_text`). Building joined drafts is building each of
them, up to the first that fails (`Draft.query_joinWith`).

In which order the fields come is left to the map. One that keeps its
keys in order gives them so; one that does not is sorted first, and as
keys do not repeat, there is one way to be sorted
(`Filter.eq_of_ordered`).

`Filter.fields_conjoined` puts these together.
-/

set_option autoImplicit false

namespace SqlSession

/-! ### Building joined drafts -/

namespace Draft

/-- Building drafts one by one stops at the first that fails. -/
theorem mapM_query (drafts : List Draft) :
    drafts.mapM query = match drafts.findSome? failure with
      | some e => .error e
      | none => .ok (drafts.map fun d => ⟨d.text, d.values⟩) := by
  induction drafts with
  | nil => rfl
  | cons d rest ih =>
      rw [List.mapM_cons, ih, List.findSome?_cons]
      cases hd : d.failure with
      | some e =>
          rw [query, hd]
          rfl
      | none =>
          rw [query_of_failure_eq_none hd]
          cases rest.findSome? failure <;> rfl

end Draft

/-- Statements written one after another with a separator between them. -/
def Query.joinWith (separator : String) (qs : List Query) : Query :=
  ⟨separator.intercalate (qs.map (·.sql)), qs.flatMap (·.params)⟩

/-- Joined drafts are built by building each of them. -/
theorem Draft.query_joinWith {separator : String} {drafts : List Draft}
    (hne : ∀ d ∈ drafts, d.failure = none → d.isEmpty = false) :
    (joinWith separator drafts).query = Query.joinWith separator <$> drafts.mapM query := by
  rw [mapM_query]
  cases hfail : drafts.findSome? failure with
  | some e =>
      rw [query, failure_joinWith, hfail]
      rfl
  | none =>
      have hwhole : (joinWith separator drafts).failure = none := by rw [failure_joinWith, hfail]
      have hparts := failure_of_joinWith hwhole
      rw [query_of_failure_eq_none hwhole, values_joinWith hwhole,
        text_joinWith hwhole fun d hd => hne d hd (hparts d hd)]
      show _ = Except.ok (Query.joinWith separator (drafts.map fun d => ⟨d.text, d.values⟩))
      rw [Query.joinWith, List.map_map, List.flatMap_map]
      rfl

/-! ### A predicate on its own -/

/-- What a predicate builds behind parameters. -/
def Predicate.query (p : Predicate) (params : List Value) : Except Error Query :=
  match p.build params with
  | (.ok sql, params) => .ok ⟨sql, params⟩
  | (.error e, _) => .error e

/-- Parameters given before. -/
def Query.behind (params : List Value) (q : Query) : Query := ⟨q.sql, params ++ q.params⟩

/-- A predicate as a query of its own is its draft, with the values behind
the parameters. -/
theorem Predicate.query_eq (p : Predicate) (params : List Value) :
    p.query params = Query.behind params <$> p.draft.query := by
  rw [Predicate.query, p.build_eq, Draft.result, Draft.query]
  cases p.draft.failure <;> rfl

/-- Conditions that are not blank become one entry each, joined by AND. -/
theorem Predicate.entries_foldl_addExpression {es : List Expression}
    (h : ∀ e ∈ es, e.isEmpty = false) {p : Predicate} (hp : p.next = .and) :
    (es.foldl addExpression p).entries = p.entries ++ es.map fun e => (.and, .leaf e) := by
  induction es generalizing p with
  | nil => exact (List.append_nil _).symm
  | cons e rest ih =>
      have he : p.addExpression e = p.push (.leaf e) := by
        rw [addExpression, h e List.mem_cons_self]
        rfl
      rw [List.foldl_cons, he, ih (fun e he => h e (List.mem_cons_of_mem _ he)) rfl, push, hp,
        List.append_assoc]
      rfl

namespace Filter

/-! ### Fields -/

/-- A field that can be built has a text. -/
theorem isEmpty_draft_compileField {key : String} {value : Value}
    (h : (compileField key value).draft.failure = none) :
    (compileField key value).draft.isEmpty = false :=
  Expression.isEmpty_draft (isEmpty_compileField key value)
    ((Node.failure_draft (.leaf (compileField key value))).symm.trans h)

/-- A map of fields is drafted field by field, with AND between them. -/
theorem draft_fields (entries : List (String × Value)) (values : List Value) :
    ((Filter.fields entries).compile values).draft
      = .joinWith " AND " (entries.map fun field => (compileField field.1 field.2).draft) := by
  have hsolid : ∀ e ∈ entries.map (fun field => compileField field.1 field.2),
      e.isEmpty = false := by
    intro e he
    obtain ⟨field, -, rfl⟩ := List.mem_map.mp he
    exact isEmpty_compileField _ _
  rw [Predicate.draft, compile_fields, Predicate.entries_foldl_addExpression hsolid rfl,
    List.map_map, Predicate.empty, List.nil_append, Draft.joinWith]
  -- Drafting entries and joining drafts go through the fields alike, from any draft on.
  generalize Draft.empty = before
  induction entries generalizing before with
  | nil => rfl
  | cons field rest ih => exact ih (fun e he => hsolid e (List.mem_cons_of_mem _ he)) _

/-- A text with one value is drafted as the field of that name. -/
theorem draft_text (key : String) (value : Value) :
    ((Filter.text key).compile [value]).draft = (compileField key value).draft := by
  have htext : compileText key [value] = compileField key value := by
    unfold compileText compileField
    split <;> rfl
  rw [Filter.compile, htext, Predicate.addExpression, isEmpty_compileField,
    if_neg Bool.false_ne_true]
  exact Draft.empty_add " AND " _

/-- A map of fields is built by building each field as a text with its
value. -/
theorem query_fields (entries : List (String × Value)) (values params : List Value) :
    ((Filter.fields entries).compile values).query params
      = (fun qs => (Query.joinWith " AND " qs).behind params) <$>
        entries.mapM fun field => ((Filter.text field.1).compile [field.2]).query [] := by
  have heach : ∀ field : String × Value, ((Filter.text field.1).compile [field.2]).query []
      = (compileField field.1 field.2).draft.query := by
    intro field
    rw [Predicate.query_eq, draft_text]
    cases (compileField field.1 field.2).draft.query <;> rfl
  have hsolid : ∀ d ∈ entries.map (fun field => (compileField field.1 field.2).draft),
      d.failure = none → d.isEmpty = false := by
    intro d hd
    obtain ⟨field, -, rfl⟩ := List.mem_map.mp hd
    exact isEmpty_draft_compileField
  rw [Predicate.query_eq, draft_fields, Draft.query_joinWith hsolid, List.mapM_map,
    funext heach]
  exact (comp_map _ _ _).symm

/-- Several values of a text are the list of a field. -/
theorem compileText_of_several (key : String) {values : List Value} (h : 2 ≤ values.length) :
    compileText key values = compileField key (.list values) := by
  have hflatten : Value.flattenAll [.list values] = Value.flattenAll values := by
    rw [Value.flattenAll, Value.flatten, Value.flattenAll, List.append_nil]
  unfold compileText compileField
  split
  · rw [Expression.template, Expression.template, hflatten]
  · obtain _ | ⟨first, _ | ⟨second, rest⟩⟩ := values
    · exact absurd h (Nat.not_succ_le_zero 1)
    · exact absurd h (Nat.not_succ_le_self 1)
    · rfl

/-! ### The order of the fields -/

/-- The fields of a map without an order, as an iteration lists them. -/
def ofUnordered (entries : List (String × Value)) : Filter :=
  .fields (entries.mergeSort fun a b => decide (a.1 ≤ b.1))

/-- Fields with different keys can be put in order in one way. -/
theorem eq_of_ordered {a b : List (String × Value)} (hperm : a.Perm b)
    (hkeys : (b.map Prod.fst).Nodup) (ha : a.Pairwise fun x y => x.1 ≤ y.1)
    (hb : b.Pairwise fun x y => x.1 ≤ y.1) : a = b := by
  refine hperm.eq_of_pairwise (fun x y hx hy hxy hyx => ?_) ha hb
  exact List.inj_on_of_nodup_map hkeys (hperm.mem_iff.mp hx) hy (String.le_antisymm hxy hyx)

/-- Sorted fields are in the order of their keys. -/
theorem pairwise_mergeSort (entries : List (String × Value)) :
    (entries.mergeSort fun a b => decide (a.1 ≤ b.1)).Pairwise fun a b => a.1 ≤ b.1 := by
  let le : String × Value → String × Value → Bool := fun a b => decide (a.1 ≤ b.1)
  have htrans : ∀ a b c, le a b → le b c → le a c := fun a b c hab hbc =>
    decide_eq_true (String.le_trans (of_decide_eq_true hab) (of_decide_eq_true hbc))
  have htotal : ∀ a b, le a b || le b a := fun a b => by
    simpa [le] using String.le_total a.1 b.1
  have hsorted : (entries.mergeSort le).Pairwise fun a b => le a b :=
    List.pairwise_mergeSort htrans htotal entries
  exact hsorted.imp of_decide_eq_true

/-- Fields in order are what sorting makes of them in any other order. -/
theorem ofUnordered_eq {entries ordered : List (String × Value)} (hperm : entries.Perm ordered)
    (hkeys : (ordered.map Prod.fst).Nodup) (hordered : ordered.Pairwise fun x y => x.1 ≤ y.1) :
    ofUnordered entries = .fields ordered :=
  congrArg Filter.fields <| eq_of_ordered ((List.mergeSort_perm _ _).trans hperm) hkeys
    (pairwise_mergeSort entries) hordered

/-- A map has every key once. -/
theorem nodup_keys_toList (m : Std.HashMap String Value) : (m.toList.map Prod.fst).Nodup := by
  rw [m.map_fst_toList_eq_keys]
  exact m.nodup_keys

/-- In whatever order a map is gone through, its fields are the same. -/
theorem ofUnordered_eq_ofHashMap {m : Std.HashMap String Value}
    {iteration : List (String × Value)} (h : iteration.Perm m.toList) :
    ofUnordered iteration = ofHashMap m := by
  have hsorted := List.mergeSort_perm m.toList fun a b => decide (a.1 ≤ b.1)
  exact ofUnordered_eq (h.trans hsorted.symm)
    ((hsorted.map Prod.fst).nodup_iff.mpr (nodup_keys_toList m)) (pairwise_mergeSort m.toList)

/-- A map that keeps its keys in order is gone through in that order. -/
theorem pairwise_toList (t : Std.TreeMap String Value) :
    t.toList.Pairwise fun a b => a.1 < b.1 :=
  t.ordered_keys_toList.imp fun h => compareOfLessAndEq_eq_lt.mp h

/-- A map without an order and one that keeps its keys in order have the
same fields if they have the same content. -/
theorem ofHashMap_eq_ofTreeMap {m : Std.HashMap String Value} {t : Std.TreeMap String Value}
    (h : ∀ key : String, m[key]? = t[key]?) : ofHashMap m = ofTreeMap t := by
  have hkeys : (t.toList.map Prod.fst).Nodup := by
    rw [List.Nodup, List.pairwise_map]
    refine List.Pairwise.imp ?_ (pairwise_toList t)
    intro a b hlt heq
    rw [heq] at hlt
    exact String.lt_irrefl b.1 hlt
  have hperm : m.toList.Perm t.toList := by
    refine (List.perm_ext_iff_of_nodup (nodup_keys_toList m).of_map hkeys.of_map).mpr ?_
    rintro ⟨key, value⟩
    rw [Std.HashMap.mem_toList_iff_getElem?_eq_some,
      Std.TreeMap.mem_toList_iff_getElem?_eq_some, h]
  exact ofUnordered_eq hperm hkeys <| (pairwise_toList t).imp fun {a b} hlt =>
    (String.le_total a.1 b.1).resolve_right fun hle => String.not_lt.mpr hle hlt

/-- A map of fields asks for all of its fields.

It builds the texts of its fields, each as if it were given as a text
with one value, in order and with AND between them, and binds their
parameters in the same order; if some field cannot be built, the error is
that of the first one. Two or more values of a text are the list of a
field. A map without an order gives the same fields in whatever order it
is gone through, and those of a map that keeps its keys in order, if it
has the same content. -/
theorem fields_conjoined :
    (∀ (entries : List (String × Value)) (values params : List Value),
      ((Filter.fields entries).compile values).query params
        = (fun qs : List Query => ⟨" AND ".intercalate (qs.map (·.sql)),
            params ++ qs.flatMap (·.params)⟩) <$>
          entries.mapM fun field => ((Filter.text field.1).compile [field.2]).query []) ∧
    (∀ (key : String) (values : List Value), 2 ≤ values.length →
      (Filter.text key).compile values = (Filter.fields [(key, .list values)]).compile []) ∧
    (∀ (m : Std.HashMap String Value) (iteration : List (String × Value)),
      iteration.Perm m.toList → ofUnordered iteration = ofHashMap m) ∧
    ∀ (m : Std.HashMap String Value) (t : Std.TreeMap String Value),
      (∀ key : String, m[key]? = t[key]?) → ofHashMap m = ofTreeMap t := by
  refine ⟨query_fields, fun key values h => ?_, fun m iteration h => ofUnordered_eq_ofHashMap h,
    fun m t h => ofHashMap_eq_ofTreeMap h⟩
  show Predicate.empty.addExpression (compileText key values)
    = Predicate.empty.addExpression (compileField key (.list values))
  rw [compileText_of_several key h]

/-- A negated column with a null among its values, and a map of two
fields, gone through from its end. -/
theorem fields_conjoined_of_two :
    let values : List Value := [.int 1, .list [.null, .int 2]]
    let m : Std.HashMap String Value := ((∅ : Std.HashMap String Value).insert "b" (.int 2)).insert
      "!a" .null
    let t : Std.TreeMap String Value := ((∅ : Std.TreeMap String Value).insert "b" (.int 2)).insert
      "!a" .null
    2 ≤ values.length ∧ m.toList.reverse.Perm m.toList ∧ (∀ key : String, m[key]? = t[key]?) ∧
      (Filter.text "!age").compile values = (Filter.fields [("!age", .list values)]).compile [] ∧
      ofUnordered m.toList.reverse = ofTreeMap t ∧
      ((ofHashMap m).compile []).query [.int 0]
        = .ok ⟨"`a` IS NOT NULL AND `b`=?", [.int 0, .int 2]⟩ := by
  intro values m t
  have hlength : 2 ≤ values.length := by decide
  have hcontent : ∀ key : String, m[key]? = t[key]? := by
    intro key
    simp [m, t, Std.HashMap.getElem?_insert, Std.TreeMap.getElem?_insert]
  obtain ⟨hbuilt, hseveral, hiteration, hordered⟩ := fields_conjoined
  have hsame := hordered m t hcontent
  refine ⟨hlength, List.reverse_perm _, hcontent, hseveral _ _ hlength,
    (hiteration m _ (List.reverse_perm _)).trans hsame, ?_⟩
  have hfields : ofTreeMap t = .fields [("!a", .null), ("b", .int 2)] := by rfl
  rw [hsame, hfields, hbuilt]
  rfl

end Filter

end SqlSession
