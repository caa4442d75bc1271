import SqlSession.Proofs.Condition.Binding
import SqlSession.Proofs.Condition.InPlace
import SqlSession.Proofs.Statement.Choices

/-!
# `SqlSession.Proofs.Condition.Templates`: templates inside a whole text

A template with an OR of its own is one entry of a predicate, so it gets
no parentheses. `Predicate.ReadsAs` says how the text of a predicate is
read if its conditions are formulas themselves, and
`Predicate.Built.templates_in_place` compares this with the predicate in
which every condition is a unit: the text lets through all that the
predicate does, and more exactly if a condition with an OR stands beside
an AND. `Delete.template_leaks` is a statement in which that happens.
-/

set_option autoImplicit false

namespace SqlSession

section Writing
variable (reading : Expression → Formula)

/-! ### The text of the whole -/

/-- A condition is written as a formula: with the text and the values of
its tokens. -/
structure Expression.WrittenAs (e : Expression) (f : Formula) : Prop where
  text : (Draft.ofTokens f.tokens).text = e.spec
  values : (Draft.ofTokens f.tokens).values = e.values

/-- Reading conditions in their places leaves text and values as they
are. -/
theorem Draft.ofTokens_inPlace {ts : List Token}
    (h : ∀ e, .leaf e ∈ ts → e.WrittenAs (reading e)) :
    (ofTokens (ts.flatMap (Token.inPlace reading))).text = (ofTokens ts).text ∧
      (ofTokens (ts.flatMap (Token.inPlace reading))).values = (ofTokens ts).values := by
  induction ts with
  | nil => exact ⟨rfl, rfl⟩
  | cons t rest ih =>
      obtain ⟨htext, hvalues⟩ := ih fun e he => h e (List.mem_cons_of_mem _ he)
      have ht : (ofTokens (t.inPlace reading)).text = (ofTokens [t]).text ∧
          (ofTokens (t.inPlace reading)).values = (ofTokens [t]).values := by
        cases t with
        | leaf e =>
            have he := h e List.mem_cons_self
            exact ⟨he.text.trans (text_plain e.spec).symm,
              he.values.trans (List.append_nil _).symm⟩
        | _ => exact ⟨rfl, rfl⟩
      have hcons : ofTokens (t :: rest) = ofTokens [t] ++ ofTokens rest := by
        rw [ofTokens_append]
        rfl
      rw [List.flatMap_cons, ← ofTokens_append, hcons, text_append rfl, text_append rfl,
        values_append rfl, values_append rfl, ht.1, ht.2, htext, hvalues]
      exact ⟨rfl, rfl⟩

end Writing

namespace Predicate

variable {p : Predicate}

/-- A formula is what the whole text of a predicate is read as: the
tokens of the text, with every condition read in its place, have this
parse and no other. If the conditions are written as they are read, text
and values are those of the formula. -/
structure ReadsAs (p : Predicate) (reading : Expression → Formula) (whole : Formula) : Prop where
  accepted : whole.tokens = p.tokens.flatMap (Token.inPlace reading)
  unique : ∀ g : Formula, g.tokens = p.tokens.flatMap (Token.inPlace reading) → g = whole
  written : (∀ e ∈ p.leaves, e.WrittenAs (reading e)) → ∀ params, p.build params
    = (.ok (Draft.ofTokens whole.tokens).text, params ++ (Draft.ofTokens whole.tokens).values)

/-- If the tokens of a predicate have one parse, so do those that its
conditions are read as, and it is the same parse with a formula in the
place of each condition. -/
theorem Parses.readsAs {f : Formula} (h : p.Parses f) (reading : Expression → Formula) :
    p.ReadsAs reading (f.inPlace reading) := by
  have htokens : (f.inPlace reading).tokens = p.tokens.flatMap (Token.inPlace reading) := by
    rw [f.tokens_inPlace, h.accepted]
  refine ⟨htokens, fun g hg => Formula.tokens_injective (hg.trans htokens.symm),
    fun hwritten params => ?_⟩
  -- Every condition among the tokens is one of the predicate, and is written as it is read.
  have hleaves : ∀ e, .leaf e ∈ p.tokens → e.WrittenAs (reading e) := fun e he =>
    hwritten e (h.leaves ▸ Token.mem_filterMap_leaf?.mpr he)
  obtain ⟨htext, hvalues⟩ := Draft.ofTokens_inPlace reading hleaves
  rw [p.build_eq params, h.written, htokens, htext, hvalues]
  rfl

/-- A predicate that callers built, and that can be rendered, is read as
one formula, whatever the conditions in it are formulas of. Where the
predicate holds with every condition taken as a unit, this formula
holds. It holds nowhere else if no condition that has an OR stands
beside an AND. If one does and the smaller conditions are independent,
it holds somewhere else. -/
theorem Built.templates_in_place (h : p.Built) (ok : p.error? = none) (hne : p.entries ≠ [])
    (reading : Expression → Formula) :
    ∃ whole, p.ReadsAs reading whole ∧
      (∀ v, p.holds (asUnits reading v) = true → whole.eval v = true) ∧
      (p.tokens.IsChain (Token.Apart reading) →
        ∀ v, whole.eval v = p.holds (asUnits reading v)) ∧
      ((innerLeaves reading p.tokens).Nodup → ¬ p.tokens.IsChain (Token.Apart reading) →
        ∃ v, whole.eval v = true ∧ p.holds (asUnits reading v) = false) := by
  obtain ⟨f, hf⟩ := h.sound.parses ok hne
  refine ⟨f.inPlace reading, hf.readsAs reading, fun v hv => ?_, fun hchain v => ?_,
    fun hnodup hchain => ?_⟩
  · rw [← hf.truth] at hv
    exact f.eval_inPlace_of_eval reading hv
  · rw [← hf.accepted] at hchain
    rw [f.eval_inPlace reading hchain, hf.truth]
  · rw [← hf.accepted] at hnodup hchain
    obtain ⟨v, hin, hunits⟩ := f.exists_eval_inPlace reading hnodup hchain
    exact ⟨v, hin, (hf.truth _).symm.trans hunits⟩

/-- The same template behind an OR, where it means the same as a unit,
and behind an AND, where it does not. -/
theorem Built.templates_in_place_pair :
    let either := Formula.or (.one (.leaf (.template "a=?" [.int 1])))
      (.one (.one (.leaf (.template "b=?" [.int 2]))))
    let reading : Expression → Formula := fun e =>
      if e.spec = "a=? OR b=?" then either else .one (.one (.leaf e))
    let behindOr := (Predicate.empty.raw "c").or.template "a=? OR b=?" [.int 1, .int 2]
    let behindAnd := (Predicate.empty.raw "c").and.template "a=? OR b=?" [.int 1, .int 2]
    (behindOr.build [] = (.ok "c OR a=? OR b=?", [.int 1, .int 2]) ∧
      ∃ whole, behindOr.ReadsAs reading whole ∧
        ∀ v, whole.eval v = behindOr.holds (asUnits reading v)) ∧
    (behindAnd.build [] = (.ok "c AND a=? OR b=?", [.int 1, .int 2]) ∧
      ∃ whole, behindAnd.ReadsAs reading whole ∧
        ∃ v, whole.eval v = true ∧ behindAnd.holds (asUnits reading v) = false) := by
  intro either reading behindOr behindAnd
  let template := Expression.template "a=? OR b=?" [.int 1, .int 2]
  have hor : behindOr.Built := .addExpression (.or (.addExpression .empty (.raw _))) (.template _ _)
  have hand : behindAnd.Built :=
    .addExpression (.and (.addExpression .empty (.raw _))) (.template _ _)
  have hortext : behindOr.build [] = (.ok "c OR a=? OR b=?", [.int 1, .int 2]) := by rfl
  have handtext : behindAnd.build [] = (.ok "c AND a=? OR b=?", [.int 1, .int 2]) := by rfl
  have hortokens : behindOr.tokens = [.leaf (.raw "c"), .or, .leaf template] := by rfl
  have handtokens : behindAnd.tokens = [.leaf (.raw "c"), .and, .leaf template] := by rfl
  have horne : behindOr.entries ≠ [] := List.isEmpty_eq_false_iff.mp (by rfl)
  have handne : behindAnd.entries ≠ [] := List.isEmpty_eq_false_iff.mp (by rfl)
  have hreads : reading template = either := by rfl
  obtain ⟨whole, hwhole, -, hsame, -⟩ := hor.templates_in_place rfl horne reading
  obtain ⟨more, hmore, -, -, hleaks⟩ := hand.templates_in_place rfl handne reading
  refine ⟨⟨hortext, whole, hwhole, hsame ?_⟩, handtext, more, hmore, hleaks ?_ ?_⟩
  · -- Beside an OR nothing is asked of a condition.
    rw [hortokens]
    exact .cons_cons trivial (.cons_cons trivial (.singleton _))
  · -- The three smaller conditions are different texts, so they are independent.
    have hinner : innerLeaves reading behindAnd.tokens
        = [.raw "c", .template "a=?" [.int 1], .template "b=?" [.int 2]] := by rfl
    rw [hinner]
    refine List.Nodup.of_map Expression.spec ?_
    decide
  · rw [handtokens]
    intro hchain
    obtain ⟨-, htail⟩ := List.isChain_cons.mp hchain
    -- Beside an AND the template would have to be one run, and it has an OR.
    have hrun : (reading template).IsRun := (List.isChain_cons.mp htail).1 _ rfl
    rw [hreads] at hrun
    exact hrun

end Predicate

/-- A deletion of what has `c` and one of two values: of the template
that was added as one group the AND binds the first half, so rows
without `c` are deleted too. -/
theorem Delete.template_leaks :
    let either := Formula.or (.one (.leaf (.template "a=?" [.int 1])))
      (.one (.one (.leaf (.template "b=?" [.int 2]))))
    let reading : Expression → Formula := fun e =>
      if e.spec = "a=? OR b=?" then either else .one (.one (.leaf e))
    let clause := (Clause.ofFilter (.text "c") []).and (.text "a=? OR b=?") [.int 1, .int 2]
    let given : Given := ⟨clause.toFilter,
      .addGroup .and (.compileText "c" []) (.compileText _ _), []⟩
    let whole := (Delete.ofChoices "t" [.filter given]).conditions
    let v : Expression → Bool := fun e => e.spec == "b=?"
    Conditions whole [given] ∧ whole.build [] = (.ok "c AND a=? OR b=?", [.int 1, .int 2]) ∧
      (∀ e ∈ whole.leaves, e.WrittenAs (reading e)) ∧
      whole.holds (asUnits reading v) = false ∧
      ∃ f, whole.ReadsAs reading f ∧ f.eval v = true := by
  intro either reading clause given whole v
  let template := Expression.template "a=? OR b=?" [.int 1, .int 2]
  have h : Conditions whole [given] := .delete "t" [.filter given]
  have hentries : whole.entries ≠ [] := List.isEmpty_eq_false_iff.mp (by rfl)
  have htext : whole.build [] = (.ok "c AND a=? OR b=?", [.int 1, .int 2]) := by rfl
  have hleaves : whole.leaves = [.raw "c", template] := by rfl
  refine ⟨h, htext, ?_, by decide, ?_⟩
  · rw [hleaves]
    intro e he
    rcases List.mem_cons.mp he with rfl | he
    · exact ⟨by rfl, by rfl⟩
    · rw [List.mem_singleton.mp he]
      exact ⟨by rfl, by rfl⟩
  · -- The AND binds the first half of the template, so the second half alone makes the formula
    -- true.
    obtain ⟨f, hf⟩ := h.built.sound.parses rfl hentries
    have hformula : whole.formula?
        = some (.one (.and (.leaf (.raw "c")) (.one (.leaf template)))) := by rfl
    obtain rfl := Option.some.inj (hf.formula.symm.trans hformula)
    exact ⟨_, hf.readsAs reading, by decide⟩

end SqlSession
