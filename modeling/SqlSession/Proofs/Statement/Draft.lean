import SqlSession.Statement.Draft

/-!
# `SqlSession.Proofs.Statement.Draft`: drafts as sequences of fragments

A draft that did not fail is a plain list of fragments, and putting
drafts together is putting these lists together. The lemmas here say so
for every way of joining drafts, so that nothing after this module has
to look into `Draft.append` and `Draft.add` for failures. Each way has
three of them: what the whole fails with, what its text is and which
values it binds.
-/

set_option autoImplicit false

namespace SqlSession

namespace Draft

/-! ### Failures -/

/-- A whole fails with the first failure of its parts. -/
@[simp] theorem failure_append (a b : Draft) :
    (a ++ b).failure = a.failure.or b.failure := by
  show (Draft.append a b).failure = _
  unfold Draft.append
  cases h : a.failure with
  | none => rfl
  | some e => simp [h]

/-- A text cannot fail. -/
@[simp] theorem failure_plain (s : String) : (plain s).failure = none := rfl

/-- Nor can nothing. -/
@[simp] theorem failure_empty : empty.failure = none := rfl

/-- The first failure of two drafts is that of the whole, also if there is
nothing to separate. -/
@[simp] theorem failure_add (a : Draft) (separator : String) (b : Draft) :
    (a.add separator b).failure = a.failure.or b.failure := by
  unfold add
  split <;> simp

/-- Parentheses fail with what is in them. -/
@[simp] theorem failure_parenthesized (d : Draft) : d.parenthesized.failure = d.failure := by
  simp [parenthesized]

/-- A keyword fails with what it stands before. -/
@[simp] theorem failure_headed (keyword : String) (d : Draft) :
    (d.headed keyword).failure = d.failure := by
  unfold headed
  split <;> simp

/-- Joined drafts fail with the first failure among them. -/
@[simp] theorem failure_joinWith (separator : String) (drafts : List Draft) :
    (joinWith separator drafts).failure = drafts.findSome? Draft.failure := by
  suffices hfold : ∀ whole : Draft,
      (drafts.foldl (fun whole d => whole.add separator d) whole).failure
        = whole.failure.or (drafts.findSome? Draft.failure) from hfold empty
  induction drafts with
  | nil => exact fun whole => (Option.or_none).symm
  | cons d rest ih =>
      intro whole
      rw [List.foldl_cons, ih, failure_add, List.findSome?_cons, Option.or_assoc]
      cases d.failure <;> rfl

/-- What has a text has not failed. -/
theorem failure_of_result {d : Draft} {sql : String} (h : d.result = .ok sql) :
    d.failure = none := by
  unfold result at h
  split at h
  · exact nomatch h
  · assumption

/-- What gives a statement did not fail. -/
theorem failure_of_query {d : Draft} {q : Query} (h : d.query = .ok q) : d.failure = none := by
  unfold query at h
  split at h
  · exact nomatch h
  · assumption

/-! ### Fragments -/

/-- What follows a draft that did not fail is put behind its fragments. -/
theorem append_eq {a : Draft} (h : a.failure = none) (b : Draft) :
    a ++ b = ⟨a.fragments ++ b.fragments, b.failure⟩ := by
  show Draft.append a b = _
  unfold Draft.append
  rw [h]

/-- A draft followed by another one is empty if both are. -/
theorem isEmpty_append {a : Draft} (h : a.failure = none) (b : Draft) :
    (a ++ b).isEmpty = (a.isEmpty && b.isEmpty) := by
  rw [append_eq h]
  exact List.all_append

/-! ### Texts and values -/

/-- The text of two drafts is that of the first one followed by that of
the second one. -/
theorem text_append {a : Draft} (h : a.failure = none) (b : Draft) :
    (a ++ b).text = a.text ++ b.text := by
  rw [append_eq h, text, List.map_append, String.join_append]
  rfl

/-- The values of two drafts are those of the first one followed by those
of the second one. -/
theorem values_append {a : Draft} (h : a.failure = none) (b : Draft) :
    (a ++ b).values = a.values ++ b.values := by
  rw [append_eq h]
  exact List.flatMap_append

/-- Nothing comes after a failure. -/
theorem append_of_failed {a : Draft} {e : Error} (h : a.failure = some e) (b : Draft) :
    a ++ b = a := by
  show Draft.append a b = a
  unfold Draft.append
  rw [h]

/-- A text binds nothing. -/
theorem values_plain (s : String) : (plain s).values = [] := rfl

/-- A draft is blank exactly if its text is. -/
theorem isEmpty_eq (d : Draft) : d.isEmpty = d.text.isEmpty := by
  unfold isEmpty text
  induction d.fragments with
  | nil => rfl
  | cons f rest ih =>
      rw [List.all_cons, ih, List.map_cons, String.join_cons, Bool.eq_iff_iff, Bool.and_eq_true,
        String.isEmpty_iff, String.isEmpty_iff, String.isEmpty_iff, String.append_eq_empty_iff]

/-- A text is its own text. -/
theorem text_plain (s : String) : (plain s).text = s := by
  simp [text, plain, bound, String.join_cons]

/-- After a failure nothing more is written. -/
theorem add_of_failed {a : Draft} {e : Error} (h : a.failure = some e) (separator : String)
    (b : Draft) : a.add separator b = a := by
  unfold add
  split
  · exact append_of_failed h b
  · rw [append_of_failed h, append_of_failed h]

/-- A separator binds nothing. -/
theorem values_add {a : Draft} (h : a.failure = none) (separator : String) (b : Draft) :
    (a.add separator b).values = a.values ++ b.values := by
  unfold add
  split
  · exact values_append h b
  · have hplain : (a ++ plain separator).failure = none := by simp [h]
    have hvalues : (plain separator).values = [] := rfl
    rw [values_append hplain, values_append h, hvalues, List.append_nil]

/-- The separator is written where both sides have a text. -/
theorem text_add {a : Draft} (h : a.failure = none) (separator : String) (b : Draft) :
    (a.add separator b).text
      = if a.isEmpty || b.isEmpty then a.text ++ b.text else a.text ++ separator ++ b.text := by
  unfold add
  split
  · exact text_append h b
  · have hplain : (a ++ plain separator).failure = none := by simp [h]
    rw [text_append hplain, text_append h, text_plain]

/-- Parentheses bind what is in them. -/
theorem values_parenthesized (d : Draft) : d.parenthesized.values = d.values := by
  unfold parenthesized
  have hopen : plain "(" ++ d = ⟨⟨"(", []⟩ :: d.fragments, d.failure⟩ := append_eq rfl d
  cases h : d.failure with
  | some e =>
      have hfail : (plain "(" ++ d).failure = some e := by rw [hopen]; exact h
      rw [append_of_failed hfail, hopen]
      rfl
  | none =>
      have hfail : (plain "(" ++ d).failure = none := by rw [hopen]; exact h
      rw [values_append hfail, hopen]
      exact List.append_nil _

/-- A keyword binds nothing. -/
theorem values_headed (keyword : String) (d : Draft) : (d.headed keyword).values = d.values := by
  unfold headed
  split
  · rfl
  · exact values_append rfl d

/-- Parentheses stand around the text, if it did not fail. -/
theorem text_parenthesized {d : Draft} (h : d.failure = none) :
    d.parenthesized.text = "(" ++ d.text ++ ")" := by
  have hopen : (plain "(" ++ d).failure = none := by simp [h]
  rw [parenthesized, text_append hopen, text_append rfl, text_plain, text_plain]

/-- A draft that did not fail gives its text. -/
theorem result_of_failure_eq_none {d : Draft} (h : d.failure = none) : d.result = .ok d.text := by
  rw [result, h]

/-- What is built has the text of its draft, and its values for parameters,
unless the draft failed. -/
theorem query_eq_ok_iff {d : Draft} {q : Query} :
    d.query = .ok q ↔ d.failure = none ∧ d.text = q.sql ∧ d.values = q.params := by
  constructor
  · intro h
    have hfail := failure_of_query h
    rw [query, hfail] at h
    rw [← Except.ok.inj h]
    exact ⟨hfail, rfl, rfl⟩
  · rintro ⟨hfail, htext, hvalues⟩
    rw [query, hfail, htext, hvalues]

/-- A draft that did not fail gives its text with its values. -/
theorem query_of_failure_eq_none {d : Draft} (h : d.failure = none) :
    d.query = .ok ⟨d.text, d.values⟩ := query_eq_ok_iff.mpr ⟨h, rfl, rfl⟩

/-- A draft that failed gives its error. -/
theorem result_of_failure {d : Draft} {e : Error} (h : d.failure = some e) :
    d.result = .error e := by
  rw [result, h]

/-! ### Drafts one after another -/

/-- The first part of some drafts is the whole so far: it may be blank,
and then no separator is written. -/
theorem empty_add (separator : String) (d : Draft) : empty.add separator d = d := by
  show (if true || d.isEmpty then empty ++ d else _) = d
  rw [Bool.true_or, if_pos rfl, append_eq rfl]
  rfl

/-- A draft is empty if its text is, whatever it binds. -/
theorem isEmpty_eq_false_iff {d : Draft} : d.isEmpty = false ↔ d.text ≠ "" := by
  rw [isEmpty_eq, Bool.eq_false_iff, Ne, String.isEmpty_iff]

/-- What follows does not make a text empty. -/
theorem isEmpty_add_left {a : Draft} (h : a.isEmpty = false) (separator : String) (b : Draft) :
    (a.add separator b).isEmpty = false := by
  cases hfail : a.failure with
  | some e => rw [add_of_failed hfail, h]
  | none =>
      rw [isEmpty_eq_false_iff] at h ⊢
      rw [text_add hfail]
      split
      · exact fun heq => h (String.append_eq_empty_iff.mp heq).1
      · exact fun heq => h (String.append_eq_empty_iff.mp (String.append_eq_empty_iff.mp heq).1).1

/-- If drafts joined by a separator did not fail, none of them did. -/
theorem failure_of_joinWith {separator : String} {drafts : List Draft}
    (h : (joinWith separator drafts).failure = none) : ∀ d ∈ drafts, d.failure = none := by
  rw [failure_joinWith] at h
  exact List.findSome?_eq_none_iff.mp h

/-- Joined drafts bind the values of all of them. -/
theorem values_joinWith {separator : String} {drafts : List Draft}
    (h : (joinWith separator drafts).failure = none) :
    (joinWith separator drafts).values = drafts.flatMap values := by
  suffices hfold : ∀ whole : Draft, whole.failure = none →
      (drafts.foldl (fun whole d => whole.add separator d) whole).values
        = whole.values ++ drafts.flatMap values from hfold empty rfl
  have hok := failure_of_joinWith h
  clear h
  -- The whole grows from the left, so it is general in the induction.
  induction drafts with
  | nil => exact fun whole _ => (List.append_nil _).symm
  | cons d rest ih =>
      intro whole hwhole
      have hnext : (whole.add separator d).failure = none := by
        rw [failure_add, hwhole, hok d List.mem_cons_self]
        rfl
      rw [List.foldl_cons, ih (fun e he => hok e (List.mem_cons_of_mem _ he)) _ hnext,
        values_add hwhole, List.flatMap_cons, List.append_assoc]

/-- Between any two drafts with a text the separator is written. -/
theorem text_joinWith {separator : String} {drafts : List Draft}
    (h : (joinWith separator drafts).failure = none) (hne : ∀ d ∈ drafts, d.isEmpty = false) :
    (joinWith separator drafts).text = separator.intercalate (drafts.map text) := by
  -- The induction is on what is left, behind a draft that is joined already and has a text.
  have hfold : ∀ (rest : List Draft) (whole : Draft), (∀ d ∈ rest, d.failure = none) →
      (∀ d ∈ rest, d.isEmpty = false) → whole.failure = none → whole.isEmpty = false →
      (rest.foldl (fun whole d => whole.add separator d) whole).text
        = separator.intercalate (whole.text :: rest.map text) := by
    intro rest
    induction rest with
    | nil => exact fun whole _ _ _ _ => String.intercalate_singleton.symm
    | cons d rest ih =>
        intro whole hok hne hwhole hfull
        have hd := hok d List.mem_cons_self
        have hnext : (whole.add separator d).failure = none := by
          rw [failure_add, hwhole, hd]
          rfl
        have htext : (whole.add separator d).text = whole.text ++ separator ++ d.text := by
          rw [text_add hwhole, hfull, hne d List.mem_cons_self]
          exact if_neg Bool.false_ne_true
        rw [List.foldl_cons, ih _ (fun e he => hok e (List.mem_cons_of_mem _ he))
          (fun e he => hne e (List.mem_cons_of_mem _ he)) hnext (isEmpty_add_left hfull _ _),
          htext, String.intercalate_cons_append, List.map_cons, String.intercalate_cons_cons]
  have hok := failure_of_joinWith h
  cases drafts with
  | nil => rfl
  | cons first rest =>
      rw [joinWith, List.foldl_cons, empty_add]
      exact hfold rest first (fun d hd => hok d (List.mem_cons_of_mem _ hd))
        (fun d hd => hne d (List.mem_cons_of_mem _ hd)) (hok first List.mem_cons_self)
        (hne first List.mem_cons_self)

end Draft

end SqlSession
