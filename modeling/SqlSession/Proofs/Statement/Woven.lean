import SqlSession.Proofs.Statement.Draft
import SqlSession.Proofs.Statement.Placeholders

/-!
# `SqlSession.Proofs.Statement.Woven`: placeholders beside parameters

Among the fragments of a draft some bind values, and all others are text
without placeholders. `Woven pieces fragments` says which: the `pieces`
stand among the `fragments`, in order, each binding as many values as it
has placeholders, and nothing else binds anything.

`Draft.Weaves` says it of a draft that did not fail. Every operation on
drafts keeps it, with the pieces of its parts one after another. What
follows for the finished statement is `Query.Aligned`, and
`Draft.Weaves.query_aligned` is the step from the one to the other.
-/

set_option autoImplicit false

namespace SqlSession

/-! ### Pieces among fragments -/

/-- The pieces stand among the fragments, in order. Each of them binds as
many values as it has placeholders, and what stands between them has no
placeholders and binds nothing. -/
inductive Woven : List Fragment → List Fragment → Prop
  | nil : Woven [] []
  | piece {f : Fragment} {pieces fragments : List Fragment} :
      placeholderCount f.text = f.values.length → Woven pieces fragments →
        Woven (f :: pieces) (f :: fragments)
  | between {f : Fragment} {pieces fragments : List Fragment} :
      placeholderCount f.text = 0 → f.values = [] → Woven pieces fragments →
        Woven pieces (f :: fragments)

/-- The texts of fragments, one after another. -/
def textOf (fragments : List Fragment) : String := String.join (fragments.map (·.text))

/-- The values of fragments, one after another. -/
def valuesOf (fragments : List Fragment) : List Value := fragments.flatMap (·.values)

/-- The text of the first fragment stands first. -/
theorem textOf_cons (f : Fragment) (fragments : List Fragment) :
    textOf (f :: fragments) = f.text ++ textOf fragments := String.join_cons

/-- The texts of two runs of fragments stand one behind the other. -/
theorem textOf_append (before after : List Fragment) :
    textOf (before ++ after) = textOf before ++ textOf after := by
  rw [textOf, List.map_append, String.join_append]
  rfl

/-- So do their values. -/
theorem valuesOf_append (before after : List Fragment) :
    valuesOf (before ++ after) = valuesOf before ++ valuesOf after := List.flatMap_append

namespace Woven

variable {pieces fragments more moreFragments : List Fragment}

/-- Pieces of two runs of fragments are the pieces of both together. -/
theorem append (h : Woven pieces fragments) (hmore : Woven more moreFragments) :
    Woven (pieces ++ more) (fragments ++ moreFragments) := by
  induction h with
  | nil => exact hmore
  | piece hbound _ ih => exact .piece hbound ih
  | between hmarks hvalues _ ih => exact .between hmarks hvalues ih

/-- The values of the pieces are all values. -/
theorem valuesOf_eq (h : Woven pieces fragments) : valuesOf fragments = valuesOf pieces := by
  induction h with
  | nil => rfl
  | @piece f _ _ _ _ ih =>
      show f.values ++ valuesOf _ = f.values ++ valuesOf _
      rw [ih]
  | @between f _ fragments _ hvalues _ ih =>
      show f.values ++ valuesOf fragments = _
      rw [hvalues, List.nil_append, ih]

/-- There are as many placeholders as values. -/
theorem placeholderCount_textOf (h : Woven pieces fragments) :
    placeholderCount (textOf fragments) = (valuesOf pieces).length := by
  induction h with
  | nil => rfl
  | @piece f pieces _ hbound _ ih =>
      show _ = (f.values ++ valuesOf pieces).length
      rw [textOf_cons, placeholderCount_append, hbound, ih, List.length_append]
  | between hmarks _ _ ih => rw [textOf_cons, placeholderCount_append, hmarks, ih, Nat.zero_add]

/-- Every piece has its place among the fragments, behind those of the
pieces before it. -/
theorem split {before after : List Fragment} {piece : Fragment}
    (h : Woven (before ++ piece :: after) fragments) :
    ∃ left right, fragments = left ++ piece :: right ∧ Woven before left ∧
      placeholderCount piece.text = piece.values.length := by
  generalize hpieces : before ++ piece :: after = pieces at h
  induction h generalizing before with
  | nil => exact absurd hpieces (by simp)
  | @piece f pieces fragments hbound hwoven ih =>
      cases before with
      | nil =>
          obtain ⟨rfl, rfl⟩ := List.cons.inj hpieces
          exact ⟨[], fragments, rfl, .nil, hbound⟩
      | cons first rest =>
          obtain ⟨rfl, hrest⟩ := List.cons.inj hpieces
          obtain ⟨left, right, rfl, hleft, hpiece⟩ := ih hrest
          exact ⟨first :: left, right, rfl, .piece hbound hleft, hpiece⟩
  -- What stands between pieces goes to the left of the piece that is looked for.
  | @between f _ _ hmarks hvalues _ ih =>
      obtain ⟨left, right, rfl, hleft, hpiece⟩ := ih hpieces
      exact ⟨f :: left, right, rfl, .between hmarks hvalues hleft, hpiece⟩

end Woven

/-! ### Drafts -/

/-- Unless it failed, a draft has the pieces among its fragments. -/
def Draft.Weaves (d : Draft) (pieces : List Fragment) : Prop :=
  d.failure = none → Woven pieces d.fragments

namespace Draft

/-- Nothing has no pieces. -/
theorem weaves_empty : empty.Weaves [] := fun _ => .nil

/-- A text that binds nothing may not have placeholders, and is no piece. -/
theorem weaves_plain {s : String} (h : placeholderCount s = 0) : (plain s).Weaves [] :=
  fun _ => .between h rfl .nil

/-- A text with as many placeholders as values is the one piece of its
draft. -/
theorem weaves_bound {s : String} {values : List Value}
    (h : placeholderCount s = values.length) : (bound s values).Weaves [⟨s, values⟩] :=
  fun _ => .piece h .nil

/-- A failed draft is never rendered, so nothing is asked of it. -/
theorem weaves_failed (e : Error) (pieces : List Fragment) : (failed e).Weaves pieces :=
  fun h => nomatch h

namespace Weaves

variable {a b : Draft} {ps qs : List Fragment}

/-- Two drafts one behind the other have the pieces of both. -/
theorem append (ha : a.Weaves ps) (hb : b.Weaves qs) : (a ++ b).Weaves (ps ++ qs) := by
  intro hfail
  rw [failure_append, Option.or_eq_none_iff] at hfail
  rw [append_eq hfail.1]
  exact (ha hfail.1).append (hb hfail.2)

/-- A separator without placeholders is no piece. -/
theorem add {separator : String} (hsep : placeholderCount separator = 0) (ha : a.Weaves ps)
    (hb : b.Weaves qs) : (a.add separator b).Weaves (ps ++ qs) := by
  unfold Draft.add
  split
  · exact ha.append hb
  · have h := (ha.append (weaves_plain hsep)).append hb
    rw [List.append_nil] at h
    exact h

/-- A keyword in front is no piece. -/
theorem headed {keyword : String} (hword : placeholderCount (keyword ++ " ") = 0)
    (ha : a.Weaves ps) : (a.headed keyword).Weaves ps := by
  unfold Draft.headed
  split
  · exact ha
  · exact (weaves_plain hword).append ha

/-- Drafts joined have the pieces of all of them. -/
theorem joinWith {α : Type} {separator : String} {draft : α → Draft}
    {pieces : α → List Fragment} {xs : List α} (hsep : placeholderCount separator = 0)
    (h : ∀ x ∈ xs, (draft x).Weaves (pieces x)) :
    (Draft.joinWith separator (xs.map draft)).Weaves (xs.flatMap pieces) := by
  suffices hfold : ∀ (whole : Draft) (sofar : List Fragment), whole.Weaves sofar →
      ((xs.map draft).foldl (fun d next => d.add separator next) whole).Weaves
        (sofar ++ xs.flatMap pieces) from hfold .empty [] weaves_empty
  -- The induction is on what is left to join, behind any draft that is joined already.
  induction xs with
  | nil =>
      intro whole sofar hwhole
      rw [List.flatMap_nil, List.append_nil]
      exact hwhole
  | cons x rest ih =>
      intro whole sofar hwhole
      rw [List.flatMap_cons, ← List.append_assoc]
      exact ih (fun y hy => h y (List.mem_cons_of_mem _ hy)) _ _
        (hwhole.add hsep (h x List.mem_cons_self))

end Weaves

end Draft

/-! ### Statements -/

/-- The parameters of a statement beside its placeholders, for the
`pieces` that bind them: there are as many parameters as placeholders;
they are the values of the pieces, in order; and every piece stands in
the text behind as many placeholders as there are parameters of the
pieces before it, so that its own placeholders meet its own values. -/
structure Query.Aligned (q : Query) (pieces : List Fragment) : Prop where
  woven : ∃ fragments, Woven pieces fragments ∧ q.sql = textOf fragments
  params : q.params = valuesOf pieces
  count : placeholderCount q.sql = q.params.length
  boundary : ∀ before piece after, pieces = before ++ piece :: after →
    ∃ left right, q.sql = left ++ piece.text ++ right ∧
      placeholderCount left = (valuesOf before).length ∧
      placeholderCount piece.text = piece.values.length ∧
      ∀ l r, piece.text = l ++ "?" ++ r →
        q.params[placeholderCount (left ++ l)]? = piece.values[placeholderCount l]?

/-- Before one of its placeholders a text has fewer of them than in whole. -/
theorem placeholderCount_lt_of_mark {s l r : String} (h : s = l ++ "?" ++ r) :
    placeholderCount l < placeholderCount s := by
  have hmark : placeholderCount "?" = 1 := by decide
  rw [h, placeholderCount_append, placeholderCount_append, hmark]
  omega

/-- A statement whose draft has pieces is aligned with them. -/
theorem Draft.Weaves.query_aligned {d : Draft} {pieces : List Fragment} {q : Query}
    (h : d.Weaves pieces) (hq : d.query = .ok q) : q.Aligned pieces := by
  have hfail : d.failure = none := failure_of_query hq
  have hwoven := h hfail
  have heq : q = ⟨textOf d.fragments, valuesOf d.fragments⟩ := by
    rw [Draft.query, hfail] at hq
    exact (Except.ok.inj hq).symm
  have hparams : q.params = valuesOf pieces := by
    rw [heq]
    exact hwoven.valuesOf_eq
  have hsql : q.sql = textOf d.fragments := by rw [heq]
  refine ⟨⟨d.fragments, hwoven, hsql⟩, hparams, ?_, ?_⟩
  · rw [hsql, hparams]
    exact hwoven.placeholderCount_textOf
  · intro before piece after hpieces
    -- The text up to the piece is that of the fragments before it.
    rw [hpieces] at hwoven
    obtain ⟨left, right, hfragments, hleft, hbound⟩ := hwoven.split
    have hcount := hleft.placeholderCount_textOf
    refine ⟨textOf left, textOf right, ?_, hcount, hbound, fun l r hl => ?_⟩
    · rw [hsql, hfragments, textOf_append, textOf_cons, String.append_assoc]
    · have hlt : placeholderCount l < piece.values.length := by
        rw [← hbound]
        exact placeholderCount_lt_of_mark hl
      have hvalues : valuesOf pieces = valuesOf before ++ (piece.values ++ valuesOf after) := by
        rw [hpieces, valuesOf_append]
        rfl
      rw [hparams, hvalues, placeholderCount_append, hcount,
        List.getElem?_append_right (Nat.le_add_right _ _), Nat.add_sub_cancel_left,
        List.getElem?_append_left hlt]

end SqlSession
