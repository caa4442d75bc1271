import SqlSession.Proofs.Condition.Rendering

/-!
# `SqlSession.Proofs.Condition.Grammar`: how a database reads a condition

A database reads a rendered condition by the grammar

    formula ::= run (OR run)*
    run     ::= factor (AND factor)*
    factor  ::= leaf | ( formula )

in which AND binds tighter than OR. `Formula`, `Run` and `Factor` are
the parse trees of this grammar, and `tokens` is the sequence that a
parse tree stands for: a sequence of tokens is accepted if it is that of
some formula.

* `Formula.tokens_injective`: the grammar is unambiguous. A sequence has
  at most one parse tree.
* `Formula.balanced`: in an accepted sequence every parenthesis has its
  partner.

`eval` is the truth value of a formula, given those of its leaves.
-/

set_option autoImplicit false

namespace SqlSession

mutual

/-- What stands between ANDs. -/
inductive Factor where
  | leaf (e : Expression)
  | group (formula : Formula)

/-- Factors joined by AND. -/
inductive Run where
  | one (factor : Factor)
  | and (factor : Factor) (rest : Run)

/-- Runs joined by OR. -/
inductive Formula where
  | one (run : Run)
  | or (run : Run) (rest : Formula)

end

/-! ### The sequence of a parse tree -/

mutual

/-- The tokens of a factor. -/
def Factor.tokens : Factor → List Token
  | .leaf e => [.leaf e]
  | .group formula => .opening :: (formula.tokens ++ [.closing])
termination_by structural x => x

/-- The tokens of a run. -/
def Run.tokens : Run → List Token
  | .one factor => factor.tokens
  | .and factor rest => factor.tokens ++ .and :: rest.tokens
termination_by structural r => r

/-- The tokens of a formula. -/
def Formula.tokens : Formula → List Token
  | .one run => run.tokens
  | .or run rest => run.tokens ++ .or :: rest.tokens
termination_by structural f => f

end

/-! ### The grammar is unambiguous

A factor ends where its own last token is. A run ends where no AND
follows, and a formula where neither an AND nor an OR does. So a parse
tree can be told from the tokens and what follows them. -/

mutual

/-- A factor is known from its first tokens, whatever comes behind it: a
leaf is one token, and a group ends at its own parenthesis. -/
theorem Factor.tokens_append_inj : (x y : Factor) → {a b : List Token} →
    x.tokens ++ a = y.tokens ++ b → x = y ∧ a = b
  | .leaf e, .leaf e', a, b, h => by
      have h' : Token.leaf e :: a = Token.leaf e' :: b := h
      injection h' with he hab
      injection he with he
      exact ⟨by rw [he], hab⟩
  | .leaf e, .group g, a, b, h => by
      -- A leaf and a parenthesis are different tokens.
      have h' : Token.leaf e :: a = Token.opening :: (g.tokens ++ [.closing] ++ b) := h
      injection h' with ht
      exact nomatch ht
  | .group f, .leaf e, a, b, h => by
      have h' : Token.opening :: (f.tokens ++ [.closing] ++ a) = Token.leaf e :: b := h
      injection h' with ht
      exact nomatch ht
  | .group f, .group g, a, b, h => by
      have h' : Token.opening :: (f.tokens ++ [.closing] ++ a)
          = Token.opening :: (g.tokens ++ [.closing] ++ b) := h
      injection h' with _ htail
      rw [List.append_assoc, List.append_assoc] at htail
      -- What follows the inner formulas is a closing parenthesis on both sides.
      obtain ⟨hfg, hrest⟩ := Formula.tokens_append_inj f g (by simp) (by simp) htail
      injection hrest with _ hab
      exact ⟨by rw [hfg], hab⟩

/-- A run is known from its first tokens, if what comes behind it does not
go on with AND. -/
theorem Run.tokens_append_inj : (r s : Run) → {a b : List Token} →
    a.head? ≠ some .and → b.head? ≠ some .and → r.tokens ++ a = s.tokens ++ b → r = s ∧ a = b
  | .one x, .one y, a, b, _, _, h => by
      obtain ⟨hxy, hab⟩ := Factor.tokens_append_inj x y h
      exact ⟨by rw [hxy], hab⟩
  | .one x, .and y s, a, b, ha, _, h => by
      -- The second run goes on with an AND, which must not follow the first.
      rw [Run.tokens, Run.tokens, List.append_assoc] at h
      obtain ⟨-, hab⟩ := Factor.tokens_append_inj x y h
      exact absurd (by rw [hab]; rfl) ha
  | .and x r, .one y, a, b, _, hb, h => by
      rw [Run.tokens, Run.tokens, List.append_assoc] at h
      obtain ⟨-, hab⟩ := Factor.tokens_append_inj x y h
      exact absurd (by rw [← hab]; rfl) hb
  | .and x r, .and y s, a, b, ha, hb, h => by
      rw [Run.tokens, Run.tokens, List.append_assoc, List.append_assoc] at h
      obtain ⟨hxy, hrest⟩ := Factor.tokens_append_inj x y h
      injection hrest with _ htail
      obtain ⟨hrs, hab⟩ := Run.tokens_append_inj r s ha hb htail
      exact ⟨by rw [hxy, hrs], hab⟩

/-- A formula is known from its first tokens, if what comes behind it goes
on with neither AND nor OR. What comes behind a formula is a closing
parenthesis or nothing. -/
theorem Formula.tokens_append_inj : (f g : Formula) → {a b : List Token} →
    a.head? ≠ some .and ∧ a.head? ≠ some .or → b.head? ≠ some .and ∧ b.head? ≠ some .or →
    f.tokens ++ a = g.tokens ++ b → f = g ∧ a = b
  | .one r, .one s, a, b, ha, hb, h => by
      obtain ⟨hrs, hab⟩ := Run.tokens_append_inj r s ha.1 hb.1 h
      exact ⟨by rw [hrs], hab⟩
  | .one r, .or s g, a, b, ha, _, h => by
      -- The second formula goes on with an OR, which must not follow the first.
      rw [Formula.tokens, Formula.tokens, List.append_assoc] at h
      obtain ⟨-, hab⟩ := Run.tokens_append_inj r s ha.1 (by simp) h
      exact absurd (by rw [hab]; rfl) ha.2
  | .or r f, .one s, a, b, _, hb, h => by
      rw [Formula.tokens, Formula.tokens, List.append_assoc] at h
      obtain ⟨-, hab⟩ := Run.tokens_append_inj r s (by simp) hb.1 h
      exact absurd (by rw [← hab]; rfl) hb.2
  | .or r f, .or s g, a, b, ha, hb, h => by
      rw [Formula.tokens, Formula.tokens, List.append_assoc, List.append_assoc] at h
      obtain ⟨hrs, hrest⟩ := Run.tokens_append_inj r s (by simp) (by simp) h
      injection hrest with _ htail
      obtain ⟨hfg, hab⟩ := Formula.tokens_append_inj f g ha hb htail
      exact ⟨by rw [hrs, hfg], hab⟩

end

/-- A sequence of tokens has at most one parse tree. -/
theorem Formula.tokens_injective {f g : Formula} (h : f.tokens = g.tokens) : f = g :=
  (Formula.tokens_append_inj f g (a := []) (b := []) (by simp) (by simp) (by rw [h])).1

/-! ### Balanced parentheses -/

/-- How deep inside parentheses a sequence ends that starts at a depth,
unless it closes a parenthesis that was not opened. -/
def depthAfter : Nat → List Token → Option Nat
  | depth, [] => some depth
  | depth, .opening :: rest => depthAfter (depth + 1) rest
  | 0, .closing :: _ => none
  | depth + 1, .closing :: rest => depthAfter depth rest
  | depth, _ :: rest => depthAfter depth rest

/-- Every parenthesis has its partner. -/
def Balanced (tokens : List Token) : Prop := depthAfter 0 tokens = some 0

mutual

/-- A factor leaves the depth as it finds it. -/
theorem Factor.depthAfter_tokens : (x : Factor) → (depth : Nat) → (rest : List Token) →
    depthAfter depth (x.tokens ++ rest) = depthAfter depth rest
  | .leaf e, depth, rest => by cases depth <;> rfl
  | .group formula, depth, rest => by
      show depthAfter (depth + 1) (formula.tokens ++ [.closing] ++ rest) = _
      rw [List.append_assoc, Formula.depthAfter_tokens formula]
      rfl

/-- So does a run: the tokens between its factors are no parentheses. -/
theorem Run.depthAfter_tokens : (r : Run) → (depth : Nat) → (rest : List Token) →
    depthAfter depth (r.tokens ++ rest) = depthAfter depth rest
  | .one x, depth, rest => Factor.depthAfter_tokens x depth rest
  | .and x r, depth, rest => by
      rw [Run.tokens, List.append_assoc, Factor.depthAfter_tokens x]
      show depthAfter depth (.and :: (r.tokens ++ rest)) = _
      rw [← Run.depthAfter_tokens r depth rest]
      cases depth <;> rfl

/-- A formula closes exactly the parentheses that it opens. -/
theorem Formula.depthAfter_tokens : (f : Formula) → (depth : Nat) → (rest : List Token) →
    depthAfter depth (f.tokens ++ rest) = depthAfter depth rest
  | .one r, depth, rest => Run.depthAfter_tokens r depth rest
  | .or r f, depth, rest => by
      rw [Formula.tokens, List.append_assoc, Run.depthAfter_tokens r]
      show depthAfter depth (.or :: (f.tokens ++ rest)) = _
      rw [← Formula.depthAfter_tokens f depth rest]
      cases depth <;> rfl

end

/-- An accepted sequence is balanced. -/
theorem Formula.balanced (f : Formula) : Balanced f.tokens := by
  have h := f.depthAfter_tokens 0 []
  rw [List.append_nil] at h
  exact h

/-! ### Truth -/

section Truth
variable (v : Expression → Bool)

mutual

/-- Whether a factor holds. -/
def Factor.eval : Factor → Bool
  | .leaf e => v e
  | .group formula => formula.eval
termination_by structural x => x

/-- Whether all factors of a run hold. -/
def Run.eval : Run → Bool
  | .one factor => factor.eval
  | .and factor rest => factor.eval && rest.eval
termination_by structural r => r

/-- Whether some run of a formula holds. -/
def Formula.eval : Formula → Bool
  | .one run => run.eval
  | .or run rest => run.eval || rest.eval
termination_by structural f => f

end

end Truth

end SqlSession
