import SqlSession.Proofs.Condition.Binding
import SqlSession.Proofs.Statement.Choices
import SqlSession.Proofs.Text.Words

/-!
# `SqlSession.Proofs.Statement.Failures`: statements that cannot be built

A statement fails with the first failure among its clauses, in the order
in which they are written. `Statement.Fault` lists the reasons with what
is reported of each, and `Statement.Buildable` says what a statement
needs to be free of them.

* `Order.parse?_isSome_iff`: an order entry is read exactly if it is
  written as it must be (`Order.Written`);
* `Predicate.error?_eq_some_iff`, `Assignment.failure_draft_eq_some_iff`:
  what is bad about conditions and assignments;
* `Select.failure_draft`, `Update.failure_draft`, `Delete.failure_draft`
  and `Insert.failure_draft`: which failure comes first.

`Statement.build_fails_iff` is the main statement. Its second part says
that nothing else keeps a statement from being built.
-/

set_option autoImplicit false

namespace SqlSession

open Text

/-! ### Order entries -/

/-- An order as it must be written: a column, perhaps `asc` or `desc`
behind it in any letter case, and blanks around and between them. -/
inductive Order.Written : List Char → Prop
  | column {lead column tail : List Char} :
      Blanks lead → IsWord column → Blanks tail → Written (lead ++ (column ++ tail))
  | directed {lead column gap word tail : List Char} :
      Blanks lead → IsWord column → Blanks gap → gap ≠ [] → IsWord word →
      word.map Char.toLower = "asc".toList ∨ word.map Char.toLower = "desc".toList →
      Blanks tail → Written (lead ++ (column ++ (gap ++ (word ++ tail))))

/-- Two words are read as directions, in any case of their letters. -/
theorem Direction.parse?_isSome_iff {cs : List Char} :
    (Direction.parse? (String.ofList cs)).isSome ↔
      cs.map Char.toLower = "asc".toList ∨ cs.map Char.toLower = "desc".toList := by
  have hword : ∀ t : String, (String.ofList cs).map Char.toLower = t ↔
      cs.map Char.toLower = t.toList := fun t => by
    rw [← String.toList_inj, String.toList_map, String.toList_ofList]
  rw [← hword, ← hword]
  unfold Direction.parse?
  split
  · next h => exact ⟨fun _ => .inl h, fun _ => rfl⟩
  · next h => exact ⟨fun _ => .inr h, fun _ => rfl⟩
  · next hasc hdesc =>
    exact ⟨fun h => (nomatch h), fun h => absurd h (not_or.mpr ⟨hasc, hdesc⟩)⟩

namespace Order

/-- Blanks end a word. -/
theorem ends_of_blanks {cs : List Char} (h : Blanks cs) : Ends cs :=
  fun c hc => h c (List.mem_of_mem_head? hc)

/-- A column is read if its words are one, or two of which the second is
a direction. -/
theorem parse?_isSome_iff_words {entry : String} : (parse? entry).isSome ↔
    (∃ column, wordChars entry.toList = [column]) ∨
    ∃ column word, wordChars entry.toList = [column, word] ∧
      (word.map Char.toLower = "asc".toList ∨ word.map Char.toLower = "desc".toList) := by
  unfold parse?
  rw [words_eq]
  match hwords : wordChars entry.toList with
  | [] => simp
  | [column] => simp
  | [column, word] => simp [Direction.parse?_isSome_iff, and_assoc]
  | _ :: _ :: _ :: _ => simp

/-- Exactly the orders that are written as they must be are read. -/
theorem parse?_isSome_iff {entry : String} : (parse? entry).isSome ↔ Written entry.toList := by
  rw [parse?_isSome_iff_words]
  constructor
  · rintro (⟨column, h⟩ | ⟨column, word, h, hdirection⟩)
    · obtain ⟨lead, rest, heq, hlead, hcolumn, -, hrest⟩ := wordChars_eq_cons_iff.mp h
      rw [heq]
      exact .column hlead hcolumn (wordChars_eq_nil_iff.mp hrest)
    · obtain ⟨lead, rest, heq, hlead, hcolumn, hends, hrest⟩ := wordChars_eq_cons_iff.mp h
      obtain ⟨gap, tail, rfl, hgap, hword, -, htail⟩ := wordChars_eq_cons_iff.mp hrest
      rw [heq]
      refine .directed hlead hcolumn hgap ?_ hword hdirection (wordChars_eq_nil_iff.mp htail)
      -- Without a gap the word would belong to the column.
      rintro rfl
      obtain ⟨c, cs, rfl⟩ := List.exists_cons_of_ne_nil hword.ne_nil
      have hblank : isBlank c = true := hends c rfl
      rw [hword.solid c List.mem_cons_self] at hblank
      exact Bool.false_ne_true hblank
  · intro h
    generalize entry.toList = cs at h
    cases h with
    | column hlead hcolumn htail =>
        refine .inl ⟨_, wordChars_eq_cons_iff.mpr ⟨_, _, rfl, hlead, hcolumn, ?_, ?_⟩⟩
        · exact ends_of_blanks htail
        · exact wordChars_of_blanks htail
    | @directed lead column gap word tail hlead hcolumn hgap hne hword hdirection htail =>
        refine .inr ⟨_, _, wordChars_eq_cons_iff.mpr ⟨_, _, rfl, hlead, hcolumn, ?_, ?_⟩,
          hdirection⟩
        · obtain ⟨c, cs, rfl⟩ := List.exists_cons_of_ne_nil hne
          exact fun d hd => hgap d (List.mem_of_mem_head? hd)
        · refine wordChars_eq_cons_iff.mpr ⟨_, _, rfl, hgap, hword, ends_of_blanks htail, ?_⟩
          exact wordChars_of_blanks htail

end Order

/-! ### The first that is bad -/

/-- Of some things `x` is the first that is bad. -/
def First {α : Type} (bad : α → Prop) (xs : List α) (x : α) : Prop :=
  ∃ before after, xs = before ++ x :: after ∧ (∀ y ∈ before, ¬ bad y) ∧ bad x

/-- What a search finds first is the first for which there is anything
to find. -/
theorem findSome?_eq_some_iff_first {α β : Type} {f : α → Option β} {xs : List α} {b : β} :
    xs.findSome? f = some b ↔ ∃ x, First (fun y => f y ≠ none) xs x ∧ f x = some b := by
  rw [List.findSome?_eq_some_iff]
  constructor
  · rintro ⟨before, x, after, hxs, hx, hbefore⟩
    exact ⟨x, ⟨before, after, hxs, fun y hy hne => hne (hbefore y hy),
      fun hnone => (nomatch hx.symm.trans hnone)⟩, hx⟩
  · rintro ⟨x, ⟨before, after, hxs, hbefore, -⟩, hx⟩
    exact ⟨before, x, after, hxs, hx, fun y hy => Classical.not_not.mp (hbefore y hy)⟩

section Report
variable {α : Type} {f : α → Option Error} {bad : α → Prop} {report : α → Error}

/-- A search that reports exactly the bad things reports the first of
them. -/
theorem findSome?_eq_some_iff_report (h : ∀ x err, f x = some err ↔ bad x ∧ err = report x)
    {xs : List α} {err : Error} :
    xs.findSome? f = some err ↔ ∃ x, First bad xs x ∧ err = report x := by
  have hbad : (fun x => f x ≠ none) = bad := by
    funext x
    rw [Option.ne_none_iff_exists', eq_iff_iff]
    exact ⟨fun ⟨e, he⟩ => ((h x e).mp he).1, fun hx => ⟨report x, (h x _).mpr ⟨hx, rfl⟩⟩⟩
  rw [findSome?_eq_some_iff_first, hbad]
  refine exists_congr fun x => and_congr_right fun ⟨_, _, _, _, hx⟩ => ?_
  rw [h x err]
  exact and_iff_right hx

/-- Nothing is reported if nothing is bad. -/
theorem findSome?_eq_none_iff_report (h : ∀ x err, f x = some err ↔ bad x ∧ err = report x)
    {xs : List α} : xs.findSome? f = none ↔ ∀ x ∈ xs, ¬ bad x := by
  rw [List.findSome?_eq_none_iff]
  refine forall₂_congr fun x _ => ?_
  rw [Option.eq_none_iff_forall_ne_some]
  exact ⟨fun hx hb => hx _ ((h x _).mpr ⟨hb, rfl⟩), fun hx err he => hx ((h x err).mp he).1⟩

end Report

namespace Expression

/-- The condition carries an error. -/
def Bad (e : Expression) : Prop := e.error ≠ none

/-- The error of a template is that its values do not fit its
placeholders. -/
theorem built_template_error {spec : String} {values : List Value} {err : Error}
    (h : (template spec values).error = some err) : err.isBuild = true := by
  dsimp only [template] at h
  split at h
  · exact nomatch h
  · rw [← Option.some.inj h]
    rfl

/-- The errors that conditions carry are errors of building. -/
theorem Built.isBuild_error {e : Expression} (hbuilt : e.Built) {err : Error}
    (h : e.error = some err) : err.isBuild = true := by
  -- Every way to make a condition ends in a template, or fails on its own before.
  cases hbuilt with
  | raw => exact nomatch h
  | nullCheck => exact nomatch h
  | template => exact built_template_error h
  | compare => exact built_template_error h
  | like => exact built_template_error h
  | between => exact built_template_error h
  | inList column values negated =>
      dsimp only [Expression.inList] at h
      split at h
      · rw [← Option.some.inj h]
        rfl
      · exact built_template_error h
  | subquery sub values negated =>
      dsimp only [Expression.subquery] at h
      split at h
      · rw [← Option.some.inj h]
        rfl
      · exact built_template_error h

end Expression

namespace Predicate

/-- No condition carries an error. -/
def Good (p : Predicate) : Prop := ∀ e ∈ p.leaves, ¬ e.Bad

/-- The error that the first bad condition carries. -/
def FirstError (p : Predicate) (err : Error) : Prop :=
  ∃ e, First Expression.Bad p.leaves e ∧ e.error = some err

/-- What a predicate reports is the error of the first of its conditions
that has one. -/
theorem error?_eq_some_iff {p : Predicate} {err : Error} :
    p.error? = some err ↔ p.FirstError err := by
  rw [p.error?_eq_findSome?]
  exact findSome?_eq_some_iff_first

/-- Nothing is reported if all conditions are good. -/
theorem error?_eq_none_iff {p : Predicate} : p.error? = none ↔ p.Good := by
  rw [p.error?_eq_findSome?, List.findSome?_eq_none_iff]
  exact forall₂_congr fun e _ => Classical.not_not.symm

/-- The errors of conditions that callers can make are errors of building. -/
theorem FirstError.isBuild {p : Predicate} (hbuilt : p.Built) {err : Error}
    (h : p.FirstError err) : err.isBuild = true := by
  obtain ⟨e, ⟨before, after, hleaves, -, -⟩, he⟩ := h
  refine (hbuilt.sound.built_leaves e ?_).isBuild_error he
  rw [hleaves]
  exact List.mem_append_right _ List.mem_cons_self

end Predicate

namespace Order

/-- An order entry fails if it is not written as one, and the entry itself
is reported. -/
theorem failure_draft_eq_some_iff {entry : String} {err : Error} :
    (draft entry).failure = some err ↔ ¬ Written entry.toList ∧ err = .invalidOrder entry := by
  rw [← parse?_isSome_iff]
  unfold draft
  cases hparse : parse? entry with
  | some o => exact ⟨fun h => (nomatch h), fun h => absurd rfl h.1⟩
  | none => exact ⟨fun h => ⟨nofun, (Option.some.inj h).symm⟩, fun h => congrArg some h.2.symm⟩

end Order

namespace Assignment

/-- A text of its own that has another number of placeholders than
values. -/
def Mismatched (a : Assignment) : Prop :=
  '?' ∈ a.target.toList ∧ placeholderCount a.target ≠ a.value.flatten.length

/-- What is reported of a mismatched assignment. -/
def mismatch (a : Assignment) : Error :=
  .placeholderMismatch a.target (placeholderCount a.target) a.value.flatten.length

/-- An assignment whose target has a placeholder is a text of its own. -/
theorem isTemplate_iff {a : Assignment} : a.isTemplate = true ↔ '?' ∈ a.target.toList :=
  List.contains_iff_mem

/-- An assignment fails if its values do not fit the placeholders of its
target. A plain column takes any value. -/
theorem failure_draft_eq_some_iff {a : Assignment} {err : Error} :
    a.draft.failure = some err ↔ a.Mismatched ∧ err = a.mismatch := by
  unfold draft Mismatched
  rw [← isTemplate_iff]
  cases htemplate : a.isTemplate with
  | false => exact ⟨fun h => (nomatch h), fun h => (nomatch h.1.1)⟩
  | true =>
      rw [if_pos rfl]
      dsimp only
      split
      · next hcount => exact ⟨fun h => (nomatch h), fun h => absurd hcount h.1.2⟩
      · next hcount =>
        exact ⟨fun h => ⟨⟨rfl, hcount⟩, (Option.some.inj h).symm⟩, fun h => congrArg some h.2.symm⟩

end Assignment

/-! ### The failures of whole statements -/

/-- The clauses of a select in which something can be bad, as they are
written: conditions, conditions on groups, order entries. -/
theorem Select.failure_draft (s : Select) :
    s.draft.failure = s.conditions.error?.or (s.groupConditions.error?.or
      (s.orders.findSome? fun entry => (Order.draft entry).failure)) := by
  have hcount : ∀ keyword n, (Select.countDraft keyword n).failure = none := fun keyword n => by
    cases n <;> rfl
  have horders : s.orderDraft.failure = s.orders.findSome? fun entry => (Order.draft entry).failure
      := by
    rw [Select.orderDraft, Draft.failure_headed, Draft.failure_joinWith, List.findSome?_map]
    rfl
  rw [Select.draft, Draft.failure_joinWith]
  -- All other clauses are plain texts and counts, which cannot fail.
  simp only [List.findSome?_cons, List.findSome?_nil, Draft.failure_plain, Draft.failure_headed,
    Predicate.failure_draft, hcount, horders]
  cases s.conditions.error? <;> cases s.groupConditions.error? <;>
    cases s.orders.findSome? fun entry => (Order.draft entry).failure <;> rfl

/-- An update without assignments has nothing to build. Otherwise its
assignments come before its conditions. -/
theorem Update.failure_draft (u : Update) :
    u.draft.failure = if u.assignments.isEmpty then some .emptySet
      else (u.assignments.findSome? fun a => a.draft.failure).or u.conditions.error? := by
  have hset : u.setDraft.failure = if u.assignments.isEmpty then some .emptySet
      else u.assignments.findSome? fun a => a.draft.failure := by
    unfold Update.setDraft
    split
    · rfl
    · rw [Draft.failure_append, Draft.failure_plain, Option.none_or, Draft.failure_joinWith,
        List.findSome?_map]
      rfl
  rw [Update.draft, Draft.failure_joinWith]
  simp only [List.findSome?_cons, List.findSome?_nil, Draft.failure_plain, Draft.failure_headed,
    Predicate.failure_draft, hset]
  by_cases hempty : u.assignments.isEmpty
  · -- Without assignments nothing else is looked at.
    rw [if_pos hempty, if_pos hempty]
  · rw [if_neg hempty, if_neg hempty]
    cases u.assignments.findSome? fun a => a.draft.failure with
    | some err => rfl
    | none => cases u.conditions.error? <;> rfl

/-- Only the conditions of a delete can be bad. -/
theorem Delete.failure_draft (d : Delete) : d.draft.failure = d.conditions.error? := by
  rw [Delete.draft, Draft.failure_joinWith]
  simp only [List.findSome?_cons, List.findSome?_nil, Draft.failure_plain, Draft.failure_headed,
    Predicate.failure_draft]
  cases d.conditions.error? <;> rfl

/-- Only an insert without rows or columns fails: rows of values fit their
placeholders by themselves. -/
theorem Insert.failure_draft (ins : Insert) :
    ins.draft.failure
      = if ins.rows.isEmpty || ins.columns.isEmpty then some .emptyInsert else none := by
  unfold Insert.draft
  split
  · rfl
  · rw [Draft.failure_append, Draft.failure_plain, Option.none_or, Draft.failure_joinWith,
      List.findSome?_eq_none_iff]
    intro d hd
    obtain ⟨values, -, rfl⟩ := List.mem_map.mp hd
    rfl

/-- With even rows there are columns exactly if the first row has some. -/
theorem Insert.Even.columns_eq_nil_iff {ins : Insert} (h : ins.Even) {row : List Value}
    {rest : List (List Value)} (hrows : ins.rows = row :: rest) : ins.columns = [] ↔ row = [] := by
  rw [← List.length_eq_zero_iff, ← h row (hrows ▸ List.mem_cons_self), List.length_eq_zero_iff]

namespace Statement

/-- Why a statement cannot be built. Of several reasons the first one
listed here counts: conditions on rows come before those on groups, and
both before the order; assignments come before conditions. -/
inductive Fault : Statement → Error → Prop
  | selectCondition {s : Select} {err : Error} :
      s.conditions.FirstError err → Fault (.select s) err
  | selectGroupCondition {s : Select} {err : Error} :
      s.conditions.Good → s.groupConditions.FirstError err → Fault (.select s) err
  | selectOrder {s : Select} {entry : String} :
      s.conditions.Good → s.groupConditions.Good →
      First (fun entry => ¬ Order.Written entry.toList) s.orders entry →
      Fault (.select s) (.invalidOrder entry)
  | updateNothing {u : Update} : u.assignments = [] → Fault (.update u) .emptySet
  | updateAssignment {u : Update} {a : Assignment} :
      First Assignment.Mismatched u.assignments a → Fault (.update u) a.mismatch
  | updateCondition {u : Update} {err : Error} :
      u.assignments ≠ [] → (∀ a ∈ u.assignments, ¬ a.Mismatched) →
      u.conditions.FirstError err → Fault (.update u) err
  | deleteCondition {d : Delete} {err : Error} :
      d.conditions.FirstError err → Fault (.delete d) err
  | insertNothing {ins : Insert} : ins.rows = [] → Fault (.insert ins) .emptyInsert
  | insertNoColumns {ins : Insert} {rest : List (List Value)} :
      ins.rows = [] :: rest → Fault (.insert ins) .emptyInsert

/-- What a statement needs to be built. -/
def Buildable : Statement → Prop
  | .select s => s.conditions.Good ∧ s.groupConditions.Good ∧
      ∀ entry ∈ s.orders, Order.Written entry.toList
  | .update u => u.assignments ≠ [] ∧ (∀ a ∈ u.assignments, ¬ a.Mismatched) ∧ u.conditions.Good
  | .delete d => d.conditions.Good
  | .insert ins => ∃ row rest, ins.rows = row :: rest ∧ row ≠ []
  | .written _ => True

/-- A select fails with its first fault: a later clause counts only if the
earlier ones are good. -/
theorem fault_select_iff {s : Select} {err : Error} :
    s.draft.failure = some err ↔ (Statement.select s).Fault err := by
  rw [s.failure_draft, Option.or_eq_some_iff, Option.or_eq_some_iff, Predicate.error?_eq_some_iff,
    Predicate.error?_eq_some_iff, Predicate.error?_eq_none_iff, Predicate.error?_eq_none_iff,
    findSome?_eq_some_iff_report fun _ _ => Order.failure_draft_eq_some_iff]
  constructor
  · rintro (h | ⟨hgood, h | ⟨hgroups, entry, h, rfl⟩⟩)
    · exact .selectCondition h
    · exact .selectGroupCondition hgood h
    · exact .selectOrder hgood hgroups h
  · intro h
    cases h with
    | selectCondition h => exact .inl h
    | selectGroupCondition hgood h => exact .inr ⟨hgood, .inl h⟩
    | selectOrder hgood hgroups h => exact .inr ⟨hgood, .inr ⟨hgroups, _, h, rfl⟩⟩

/-- A select that has no fault can be built. -/
theorem buildable_select_iff {s : Select} :
    s.draft.failure = none ↔ (Statement.select s).Buildable := by
  rw [s.failure_draft, Option.or_eq_none_iff, Option.or_eq_none_iff, Predicate.error?_eq_none_iff,
    Predicate.error?_eq_none_iff,
    findSome?_eq_none_iff_report fun _ _ => Order.failure_draft_eq_some_iff]
  simp only [Classical.not_not, Buildable]

/-- An update fails with its first fault. -/
theorem fault_update_iff {u : Update} {err : Error} :
    u.draft.failure = some err ↔ (Statement.update u).Fault err := by
  rw [u.failure_draft]
  split
  · next hempty =>
    -- Without assignments, the other faults have nothing to be about.
    have hnil := List.isEmpty_iff.mp hempty
    constructor
    · intro h
      rw [← Option.some.inj h]
      exact .updateNothing hnil
    · intro h
      cases h with
      | updateNothing => rfl
      | updateAssignment h =>
          obtain ⟨before, after, hcons, -⟩ := h
          rw [hnil] at hcons
          exact absurd hcons (by simp)
      | updateCondition hne => exact absurd hnil hne
  · next hempty =>
    have hne : u.assignments ≠ [] := fun hnil => hempty (List.isEmpty_iff.mpr hnil)
    rw [Option.or_eq_some_iff, Predicate.error?_eq_some_iff,
      findSome?_eq_some_iff_report fun _ _ => Assignment.failure_draft_eq_some_iff,
      findSome?_eq_none_iff_report fun _ _ => Assignment.failure_draft_eq_some_iff]
    constructor
    · rintro (⟨a, ha, rfl⟩ | ⟨hgood, h⟩)
      · exact .updateAssignment ha
      · exact .updateCondition hne hgood h
    · intro h
      cases h with
      | updateNothing hnil => exact absurd hnil hne
      | updateAssignment ha => exact .inl ⟨_, ha, rfl⟩
      | updateCondition _ hgood h => exact .inr ⟨hgood, h⟩

/-- An update that assigns something and has no fault can be built. -/
theorem buildable_update_iff {u : Update} :
    u.draft.failure = none ↔ (Statement.update u).Buildable := by
  rw [u.failure_draft, Buildable]
  split
  · next hempty => exact ⟨fun h => (nomatch h), fun h => absurd (List.isEmpty_iff.mp hempty) h.1⟩
  · next hempty =>
    have hne : u.assignments ≠ [] := fun hnil => hempty (List.isEmpty_iff.mpr hnil)
    rw [Option.or_eq_none_iff, Predicate.error?_eq_none_iff,
      findSome?_eq_none_iff_report fun _ _ => Assignment.failure_draft_eq_some_iff]
    exact (and_iff_right hne).symm

/-- A delete fails with its first bad condition. -/
theorem fault_delete_iff {d : Delete} {err : Error} :
    d.draft.failure = some err ↔ (Statement.delete d).Fault err := by
  rw [d.failure_draft, Predicate.error?_eq_some_iff]
  exact ⟨.deleteCondition, fun | .deleteCondition h => h⟩

/-- A delete with good conditions can be built. -/
theorem buildable_delete_iff {d : Delete} :
    d.draft.failure = none ↔ (Statement.delete d).Buildable := by
  rw [d.failure_draft, Predicate.error?_eq_none_iff]
  rfl

/-- An insert fails if it has nothing to add. Its columns come from its
first row, so it has none if that row is empty. -/
theorem fault_insert_iff {ins : Insert} (heven : ins.Even) {err : Error} :
    ins.draft.failure = some err ↔ (Statement.insert ins).Fault err := by
  rw [ins.failure_draft]
  constructor
  · intro h
    split at h
    · next hempty =>
      rw [← Option.some.inj h]
      rcases hrows : ins.rows with _ | ⟨row, rest⟩
      · exact .insertNothing hrows
      · rw [hrows, Bool.or_eq_true, List.isEmpty_iff, List.isEmpty_iff] at hempty
        -- There are rows, so it is the columns that are missing.
        have hrow := (heven.columns_eq_nil_iff hrows).mp (hempty.resolve_left (List.cons_ne_nil _ _))
        exact .insertNoColumns (hrow ▸ hrows)
    · exact nomatch h
  · intro h
    cases h with
    | insertNothing hrows => rw [hrows]; rfl
    | insertNoColumns hrows =>
        rw [(heven.columns_eq_nil_iff hrows).mpr rfl, hrows]
        rfl

/-- An insert whose first row has a field can be built. -/
theorem buildable_insert_iff {ins : Insert} (heven : ins.Even) :
    ins.draft.failure = none ↔ (Statement.insert ins).Buildable := by
  rw [ins.failure_draft, Buildable]
  rcases hrows : ins.rows with _ | ⟨row, rest⟩
  · exact ⟨fun h => (nomatch h), fun ⟨row, rest, h, _⟩ => (nomatch h)⟩
  · have hcolumns := heven.columns_eq_nil_iff hrows
    rw [List.isEmpty_cons, Bool.false_or]
    constructor
    · intro h
      refine ⟨row, rest, rfl, fun hrow => ?_⟩
      rw [hcolumns.mpr hrow] at h
      exact nomatch h
    · rintro ⟨_, _, heq, hne⟩
      obtain ⟨rfl, rfl⟩ := List.cons.inj heq
      rw [if_neg fun hempty => hne (hcolumns.mp (List.isEmpty_iff.mp hempty))]

/-- What keeps a statement from being built is an error of building. -/
theorem Fault.isBuild {s : Statement} (hchosen : s.Chosen) {err : Error} (h : s.Fault err) :
    err.isBuild = true := by
  -- Conditions are made by callers, and these have errors of building only. The other faults are
  -- such errors themselves.
  cases h with
  | selectCondition h =>
      cases hchosen with
      | select table choices => exact h.isBuild (Conditions.select table choices).built
  | selectGroupCondition _ h =>
      cases hchosen with
      | select table choices => exact h.isBuild (Conditions.selectGroups table choices).built
  | updateCondition _ _ h =>
      cases hchosen with
      | update table choices => exact h.isBuild (Conditions.update table choices).built
  | deleteCondition h =>
      cases hchosen with
      | delete table choices => exact h.isBuild (Conditions.delete table choices).built
  | selectOrder => rfl
  | updateNothing => rfl
  | updateAssignment => rfl
  | insertNothing => rfl
  | insertNoColumns => rfl

end Statement

/-- A draft gives a statement unless it failed, and then the failure. -/
theorem Draft.query_eq_error_iff {d : Draft} {err : Error} :
    d.query = .error err ↔ d.failure = some err := by
  unfold Draft.query
  cases d.failure with
  | none => exact ⟨nofun, nofun⟩
  | some e => rw [Except.error.injEq, Option.some.injEq]

/-- A draft gives a statement if nothing failed. -/
theorem Draft.exists_query_eq_ok_iff {d : Draft} : (∃ q, d.query = .ok q) ↔ d.failure = none := by
  unfold Draft.query
  cases d.failure with
  | none => exact ⟨fun _ => rfl, fun _ => ⟨_, rfl⟩⟩
  | some e => exact ⟨nofun, nofun⟩

namespace Statement

/-- The failure of its draft is the error of a statement. -/
theorem fails_iff_of_draft {s : Statement} {d : Draft} (hbuild : s.build = d.query)
    (hfault : ∀ err, d.failure = some err ↔ s.Fault err)
    (hbuildable : d.failure = none ↔ s.Buildable) :
    (∀ err, s.build = .error err ↔ s.Fault err) ∧ ((∃ q, s.build = .ok q) ↔ s.Buildable) := by
  rw [hbuild]
  exact ⟨fun err => Draft.query_eq_error_iff.trans (hfault err),
    Draft.exists_query_eq_ok_iff.trans hbuildable⟩

/-- A statement that choices led to is built if it has all it needs, and
if not it fails with its fault, which is always an error of building. -/
theorem build_fails_iff {s : Statement} (hchosen : s.Chosen) :
    (∀ err, s.build = .error err ↔ s.Fault err) ∧
    ((∃ q, s.build = .ok q) ↔ s.Buildable) ∧
    (∀ err, s.build = .error err → err.isBuild = true) := by
  have h : (∀ err, s.build = .error err ↔ s.Fault err) ∧
      ((∃ q, s.build = .ok q) ↔ s.Buildable) := by
    cases hchosen with
    | select table choices =>
        exact fails_iff_of_draft (d := (Select.ofChoices table choices).draft) rfl
          (fun _ => fault_select_iff) buildable_select_iff
    | update table choices =>
        exact fails_iff_of_draft (d := (Update.ofChoices table choices).draft) rfl
          (fun _ => fault_update_iff) buildable_update_iff
    | delete table choices =>
        exact fails_iff_of_draft (d := (Delete.ofChoices table choices).draft) rfl
          (fun _ => fault_delete_iff) buildable_delete_iff
    | insert table choices =>
        have heven := Insert.even_ofChoices table choices
        exact fails_iff_of_draft (d := (Insert.ofChoices table choices).draft) rfl
          (fun _ => fault_insert_iff heven) (buildable_insert_iff heven)
  exact ⟨h.1, h.2, fun err herr => ((h.1 err).mp herr).isBuild hchosen⟩

/-- A bad assignment behind a good one, and a bad condition: the
assignment is reported. -/
theorem build_fails_iff_assignment :
    let u := Update.ofChoices "t" [.set "m" (.int 0), .set "n=n+?+?" (.int 1),
      .filter ⟨.text "a=?", trivial, []⟩]
    (Statement.update u).Chosen ∧ ¬ u.conditions.Good ∧
      (Statement.update u).build = .error (.placeholderMismatch "n=n+?+?" 2 1) := by
  intro u
  have hchosen : (Statement.update u).Chosen := .update _ _
  have hbad : (Expression.template "a=?" []).error ≠ none := by decide
  have hcondition : ¬ u.conditions.Good := fun hgood => hgood _ List.mem_cons_self hbad
  have hmismatch : Assignment.mismatch ⟨"n=n+?+?", .int 1⟩ = .placeholderMismatch "n=n+?+?" 2 1 := by
    decide
  have hfirst : First Assignment.Mismatched u.assignments ⟨"n=n+?+?", .int 1⟩ := by
    refine ⟨[⟨"m", .int 0⟩], [], rfl, fun a ha => ?_, by decide, by decide⟩
    rw [List.mem_singleton.mp ha]
    exact fun h => absurd h.1 (by decide)
  -- The condition is bad too, but the assignment comes first.
  refine ⟨hchosen, hcondition, ((build_fails_iff hchosen).1 _).mpr ?_⟩
  rw [← hmismatch]
  exact .updateAssignment hfirst

end Statement

end SqlSession
