import SqlSession.Condition.Binding
import SqlSession.Proofs.Condition.Tree

/-!
# `SqlSession.Proofs.Condition.Binding`: errors and values of a rendering

A predicate is rendered in two ways: as a draft that a statement is put
together from, and onto parameters that are there already. `build_eq`
says that both give one text, one error and the same values.

Bad conditions are found in two ways as well: by rendering, which stops
at one, and by `error?`, which searches for one. Both go through the
conditions from left to right, at every depth:

* `Predicate.error?_eq_findSome?`: searching finds the first leaf that
  carries an error;
* `Predicate.values_draft`: rendering binds the values of the leaves
  before it (`beforeBad`), and of no others.

`Predicate.build_agrees_with_error?` puts them together.
-/

set_option autoImplicit false

namespace SqlSession

/-! ### Drafts and parameters -/

/-- A condition is rendered to its text with its values behind the
parameters, or to its error with none. -/
theorem Expression.build_eq (e : Expression) (params : List Value) :
    e.build params = (e.draft.result, params ++ e.draft.values) := by
  unfold Expression.build Expression.draft
  cases e.error with
  | some err => exact congrArg (Prod.mk _) (List.append_nil params).symm
  | none => simp [Draft.result, Draft.text, Draft.values, Draft.bound, String.join_cons]

/-- Joining texts is what adding a draft does to its text. -/
theorem Draft.text_add_combinator {d : Draft} (h : d.failure = none) (combinator : Combinator)
    (next : Draft) : (d.add combinator.text next).text = combinator.join d.text next.text := by
  rw [Draft.text_add h, Draft.isEmpty_eq, Draft.isEmpty_eq]
  rfl

/-- Behind a failure entries change nothing. -/
theorem draftEntries_of_failed {before : Draft} {e : Error} (h : before.failure = some e)
    (entries : List Entry) : draftEntries before entries = before := by
  induction entries with
  | nil => rfl
  | cons entry rest ih =>
      obtain ⟨combinator, node⟩ := entry
      rw [draftEntries, Draft.add_of_failed h, ih]

mutual

/-- Rendering a node onto parameters is its draft behind them. A group
starts its own text, so its entries are met with nothing rendered before
them. -/
theorem Node.build_eq : (node : Node) → (params : List Value) →
    node.build params = (node.draft.result, params ++ node.draft.values)
  | .leaf e, params => Expression.build_eq e params
  | .group entries, params => by
      have h := buildEntries_eq entries (d := .empty) rfl params
      rw [show Draft.empty.text = "" from rfl, show Draft.empty.values = [] from rfl,
        List.append_nil] at h
      rw [Node.build, h, Node.draft]
      -- A group in parentheses has the values of its entries, and fails as they do.
      cases hfail : (draftEntries .empty entries).failure with
      | some err =>
          rw [Draft.result_of_failure hfail]
          dsimp only
          split
          · rw [Draft.result_of_failure (by rw [Draft.failure_parenthesized, hfail]),
              Draft.values_parenthesized]
          · rw [Draft.result_of_failure hfail]
      | none =>
          rw [Draft.result_of_failure_eq_none hfail]
          dsimp only
          rw [Draft.isEmpty_eq]
          split
          · rw [Draft.result_of_failure_eq_none (by rw [Draft.failure_parenthesized, hfail]),
              Draft.values_parenthesized, Draft.text_parenthesized hfail]
          · rw [Draft.result_of_failure_eq_none hfail]

/-- Rendering entries behind a text and parameters is drafting them
behind a draft that has both. -/
theorem buildEntries_eq : (entries : List Entry) → {d : Draft} → d.failure = none →
    (params : List Value) →
      buildEntries d.text (params ++ d.values) entries
        = ((draftEntries d entries).result, params ++ (draftEntries d entries).values)
  | [], before, hbefore, params => by
      rw [buildEntries, draftEntries, Draft.result_of_failure_eq_none hbefore]
  | (combinator, node) :: rest, before, hbefore, params => by
      rw [buildEntries, draftEntries, Node.build_eq node]
      have hfailure := Draft.failure_add before combinator.text node.draft
      rw [hbefore, Option.none_or] at hfailure
      have hvalues := Draft.values_add hbefore combinator.text node.draft
      cases hnode : node.draft.failure with
      | some err =>
          rw [Draft.result_of_failure hnode]
          have hadd : (before.add combinator.text node.draft).failure = some err :=
            hfailure.trans hnode
          -- Both ways stop here, with the values bound so far.
          rw [draftEntries_of_failed hadd, Draft.result_of_failure hadd, hvalues,
            List.append_assoc]
      | none =>
          rw [Draft.result_of_failure_eq_none hnode]
          have ih := buildEntries_eq rest (hfailure.trans hnode) params
          rw [hvalues, Draft.text_add_combinator hbefore, ← List.append_assoc] at ih
          exact ih

end

/-- Rendering a predicate onto parameters is its draft behind them. -/
theorem Predicate.build_eq (p : Predicate) (params : List Value) :
    p.build params = (p.draft.result, params ++ p.draft.values) := by
  have h := buildEntries_eq p.entries (d := .empty) rfl params
  rw [show Draft.empty.values = [] from rfl, List.append_nil] at h
  exact h

/-! ### The first bad condition -/

mutual

/-- The error of a node is that of its first leaf that carries one. -/
theorem Node.error?_eq_findSome? : (node : Node) →
    node.error? = node.leaves.findSome? Expression.error
  | .leaf e => by
      rw [Node.error?, Node.leaves, List.findSome?_singleton]
  | .group entries => entriesError?_eq_findSome? entries

/-- The error of entries is that of the first leaf that carries one. -/
theorem entriesError?_eq_findSome? : (entries : List Entry) →
    entriesError? entries = (entriesLeaves entries).findSome? Expression.error
  | [] => rfl
  | (_, node) :: rest => by
      rw [entriesError?, entriesLeaves, List.findSome?_append, Node.error?_eq_findSome? node,
        entriesError?_eq_findSome? rest, Option.orElse_eq_or]

end

/-- So is the error of a predicate. -/
theorem Predicate.error?_eq_findSome? (p : Predicate) :
    p.error? = p.leaves.findSome? Expression.error :=
  entriesError?_eq_findSome? p.entries

/-- The conditions before the first bad one. -/
def beforeBad (es : List Expression) : List Expression := es.takeWhile fun e => e.error.isNone

/-- Good conditions in front are all before the first bad one. -/
theorem beforeBad_append_of_good {es : List Expression} (h : ∀ e ∈ es, e.error = none)
    (more : List Expression) : beforeBad (es ++ more) = es ++ beforeBad more :=
  List.takeWhile_append_of_pos fun e he => by rw [h e he]; rfl

/-- Where no condition is bad, all of them are rendered. -/
theorem beforeBad_of_good {es : List Expression} (h : ∀ e ∈ es, e.error = none) :
    beforeBad es = es := by
  have hall := beforeBad_append_of_good h []
  rw [List.append_nil] at hall
  exact hall.trans (List.append_nil es)

/-- Nothing comes before a bad condition that stands first. -/
theorem beforeBad_cons_of_bad {bad : Expression} {err : Error} (h : bad.error = some err)
    (after : List Expression) : beforeBad (bad :: after) = [] :=
  List.takeWhile_cons_of_neg (by rw [h]; exact Bool.false_ne_true)

/-- The conditions before the first bad one, where it is known which one
that is. -/
theorem beforeBad_eq {before after : List Expression} {bad : Expression} {err : Error}
    (hbefore : ∀ e ∈ before, e.error = none) (hbad : bad.error = some err) :
    beforeBad (before ++ bad :: after) = before := by
  rw [beforeBad_append_of_good hbefore, beforeBad_cons_of_bad hbad, List.append_nil]

/-- What comes after a bad condition is not before the first one. -/
theorem beforeBad_append_of_bad {es : List Expression} {err : Error}
    (h : es.findSome? Expression.error = some err) (more : List Expression) :
    beforeBad (es ++ more) = beforeBad es := by
  obtain ⟨before, bad, after, rfl, hbad, hbefore⟩ := List.findSome?_eq_some_iff.mp h
  rw [List.append_assoc, List.cons_append, beforeBad_eq hbefore hbad, beforeBad_eq hbefore hbad]

mutual

/-- A node binds the values of its conditions up to the first bad one. -/
theorem Node.values_draft : (node : Node) →
    node.draft.values = (beforeBad node.leaves).flatMap Expression.values
  | .leaf e => by
      rw [Node.draft, Node.leaves, Expression.draft]
      cases h : e.error with
      | some err =>
          rw [beforeBad_cons_of_bad h]
          rfl
      | none =>
          rw [beforeBad_of_good fun x hx => by rw [List.mem_singleton.mp hx, h]]
          rfl
  | .group entries => by
      have h := values_draftEntries entries (d := .empty) rfl
      rw [show Draft.empty.values = [] from rfl, List.nil_append] at h
      rw [Node.draft, Node.leaves, ← h]
      split
      · exact Draft.values_parenthesized _
      · rfl

/-- Entries bind the same behind whatever was bound before them. The
induction is on the entries, for every draft that has not failed. -/
theorem values_draftEntries : (entries : List Entry) → {d : Draft} → d.failure = none →
    (draftEntries d entries).values
      = d.values ++ (beforeBad (entriesLeaves entries)).flatMap Expression.values
  | [], before, _ => (List.append_nil _).symm
  | (combinator, node) :: rest, before, hbefore => by
      have hvalues := Draft.values_add hbefore combinator.text node.draft
      have hfailure := Draft.failure_add before combinator.text node.draft
      rw [hbefore, Option.none_or, Node.failure_draft, Node.error?_eq_findSome?] at hfailure
      rw [draftEntries, entriesLeaves]
      cases hnode : node.leaves.findSome? Expression.error with
      | some err =>
          -- The node is bad, so nothing behind it is rendered.
          rw [draftEntries_of_failed (hfailure.trans hnode), hvalues, Node.values_draft node,
            beforeBad_append_of_bad hnode]
      | none =>
          have hgood := List.findSome?_eq_none_iff.mp hnode
          rw [values_draftEntries rest (hfailure.trans hnode), hvalues, Node.values_draft node,
            beforeBad_append_of_good hgood, beforeBad_of_good hgood, List.flatMap_append,
            List.append_assoc]

end

/-- A predicate binds the values of its conditions up to the first bad
one. -/
theorem Predicate.values_draft (p : Predicate) :
    p.draft.values = (beforeBad p.leaves).flatMap Expression.values :=
  values_draftEntries p.entries rfl

/-- Rendering a predicate fails exactly with the error that searching it
finds: that of its first bad condition, from left to right. The values
bound by then are those of the conditions before it; without a bad
condition all values are bound, in order. -/
theorem Predicate.build_agrees_with_error? (p : Predicate) (params : List Value) :
    (∀ e, (p.build params).1 = .error e ↔ p.error? = some e) ∧
    (∀ e, p.error? = some e → ∃ before bad after,
      p.leaves = before ++ bad :: after ∧ (∀ x ∈ before, x.error = none) ∧
        bad.error = some e ∧
        p.build params = (.error e, params ++ before.flatMap Expression.values)) ∧
    (p.error? = none → ∃ sql,
      p.build params = (.ok sql, params ++ p.leaves.flatMap Expression.values)) := by
  have hbuild := p.build_eq params
  rw [p.values_draft] at hbuild
  have hfail := p.failure_draft
  refine ⟨fun e => ?_, fun e he => ?_, fun hnone => ?_⟩
  · rw [hbuild]
    cases herror : p.error? with
    | some err =>
        rw [Draft.result_of_failure (hfail.trans herror), Option.some.injEq, Except.error.injEq]
    | none =>
        rw [Draft.result_of_failure_eq_none (hfail.trans herror)]
        exact ⟨nofun, nofun⟩
  · have hfirst := he
    rw [p.error?_eq_findSome?] at hfirst
    -- Searching for the error also tells where the first bad condition stands.
    obtain ⟨before, bad, after, hleaves, hbad, hbefore⟩ := List.findSome?_eq_some_iff.mp hfirst
    refine ⟨before, bad, after, hleaves, hbefore, hbad, ?_⟩
    rw [hbuild, Draft.result_of_failure (hfail.trans he), hleaves, beforeBad_eq hbefore hbad]
  · have hgood : ∀ e ∈ p.leaves, e.error = none := (entriesError?_eq_none p.entries).mp hnone
    exact ⟨p.draft.text, by
      rw [hbuild, Draft.result_of_failure_eq_none (hfail.trans hnone), beforeBad_of_good hgood]⟩

/-- A bad condition inside a group, behind two good ones: the parameters
given before stay, and so do the values of the good ones. Without the
group nothing is bad. -/
theorem Predicate.build_agrees_with_error?_inside :
    let good := Predicate.empty.template "a=?" [.int 1]
    let group := (Predicate.empty.template "b=?" [.int 2]).inList "c" []
    let p := (good.addPredicate group).template "d=?" [.int 3]
    (p.error? = some (.emptyValueList "IN") ∧ ∃ before bad after,
      p.leaves = before ++ bad :: after ∧ bad.error = some (.emptyValueList "IN") ∧
        p.build [.int 0] =
          (.error (.emptyValueList "IN"), [.int 0] ++ before.flatMap Expression.values)) ∧
    (p.build [.int 0]).2 = [.int 0, .int 1, .int 2] ∧
    (good.error? = none ∧ ∃ sql, good.build [.int 0] = (.ok sql, [.int 0, .int 1])) := by
  intro good group p
  have herror : p.error? = some (.emptyValueList "IN") := by rfl
  obtain ⟨-, hbad, -⟩ := p.build_agrees_with_error? [.int 0]
  obtain ⟨-, -, hgood⟩ := good.build_agrees_with_error? [.int 0]
  obtain ⟨before, bad, after, hleaves, -, hcarries, hbuild⟩ := hbad _ herror
  exact ⟨⟨herror, before, bad, after, hleaves, hcarries, hbuild⟩, by rfl, by rfl, hgood rfl⟩

end SqlSession
