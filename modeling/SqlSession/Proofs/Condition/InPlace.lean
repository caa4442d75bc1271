import Mathlib.Data.List.Chain
import Mathlib.Data.List.Nodup
import SqlSession.Proofs.Condition.Grouping

/-!
# `SqlSession.Proofs.Condition.InPlace`: conditions that are formulas themselves

A single condition is written down as it was given, and it may have ANDs
and ORs of its own. A database does not know where it begins and ends:
it reads the whole text, and so each condition in the place where it
stands. A `reading` says which formula every condition is, over smaller
ones, and `Formula.inPlace` is what the whole then is. The alternative
is to take every condition as a unit, as if it stood between parentheses
(`asUnits`).

* `Formula.tokens_inPlace`: what is read in the places of conditions are
  their tokens, without parentheses.
* `Formula.eval_inPlace_of_eval`: the whole holds where it does with
  every condition taken as a unit.
* `Formula.eval_inPlace`: it holds nowhere else if no condition with an
  OR has an AND beside it (`Token.Apart`).
* `Formula.exists_eval_inPlace`: it holds somewhere else if one has, and
  the smaller conditions are independent.

All of it comes from what an AND between two formulas is read as
(`Formula.conj`): it joins the last run of the first one with the first
run of the second.
-/

set_option autoImplicit false

namespace SqlSession

/-! ### Formulas joined without parentheses -/

namespace Formula

/-- Whether a formula has no OR outside parentheses. -/
def IsRun : Formula → Prop
  | .one _ => True
  | .or _ _ => False

end Formula

/-- Two runs joined by AND. -/
def Run.append : Run → Run → Run
  | .one x, s => .and x s
  | .and x r, s => .and x (r.append s)

namespace Formula

/-- What is read if an AND is written between a run and a formula: it
joins the run with the first one of the formula. -/
def runAnd (r : Run) : Formula → Formula
  | .one s => .one (r.append s)
  | .or s g => .or (r.append s) g

/-- What is read if an AND is written between two formulas: it joins the
last run of the first one with the first run of the second. -/
def conj : Formula → Formula → Formula
  | .one r, g => runAnd r g
  | .or r f, g => .or r (conj f g)

/-- What is read if an OR is written between two formulas. -/
def disj : Formula → Formula → Formula
  | .one r, g => .or r g
  | .or r f, g => .or r (disj f g)

end Formula

/-- Two runs joined by AND are written with an AND between them. -/
theorem Run.tokens_append (r s : Run) : (r.append s).tokens = r.tokens ++ .and :: s.tokens := by
  match r with
  | .one x => rfl
  | .and x r =>
      show x.tokens ++ .and :: (r.append s).tokens = x.tokens ++ .and :: r.tokens ++ _
      rw [Run.tokens_append r s, List.append_assoc]
      rfl

namespace Formula

/-- An AND between a run and a formula stands where it was written. -/
theorem tokens_runAnd (r : Run) (g : Formula) :
    (runAnd r g).tokens = r.tokens ++ .and :: g.tokens := by
  cases g with
  | one s => exact Run.tokens_append r s
  | or s g =>
      show (r.append s).tokens ++ .or :: g.tokens = r.tokens ++ .and :: (s.tokens ++ .or :: g.tokens)
      rw [Run.tokens_append, List.append_assoc]
      rfl

/-- An AND between two formulas stands where it was written, although it
does not join them whole. -/
theorem tokens_conj (f g : Formula) : (conj f g).tokens = f.tokens ++ .and :: g.tokens := by
  match f with
  | .one r => exact tokens_runAnd r g
  | .or r f =>
      show r.tokens ++ .or :: (conj f g).tokens = r.tokens ++ .or :: f.tokens ++ _
      rw [tokens_conj f g, List.append_assoc]
      rfl

/-- An OR between two formulas stands where it was written. -/
theorem tokens_disj (f g : Formula) : (disj f g).tokens = f.tokens ++ .or :: g.tokens := by
  match f with
  | .one r => rfl
  | .or r f =>
      show r.tokens ++ .or :: (disj f g).tokens = r.tokens ++ .or :: f.tokens ++ _
      rw [tokens_disj f g, List.append_assoc]
      rfl

end Formula

/-! ### Conditions read in their places -/

section Places
variable (reading : Expression → Formula)

/-- The tokens that a token is read as. -/
def Token.inPlace : Token → List Token
  | .leaf e => (reading e).tokens
  | t => [t]

mutual

/-- What is read where a factor stands. -/
def Factor.inPlace : Factor → Formula
  | .leaf e => reading e
  | .group formula => .one (.one (.group formula.inPlace))
termination_by structural x => x

/-- What is read where a run stands. -/
def Run.inPlace : Run → Formula
  | .one factor => factor.inPlace
  | .and factor rest => .conj factor.inPlace rest.inPlace
termination_by structural r => r

/-- What a formula is read as if every condition is read in its place. -/
def Formula.inPlace : Formula → Formula
  | .one run => run.inPlace
  | .or run rest => .disj run.inPlace rest.inPlace
termination_by structural f => f

end

mutual

/-- A group keeps its parentheses, and a condition becomes the tokens of
its formula. -/
theorem Factor.tokens_inPlace : (x : Factor) →
    (x.inPlace reading).tokens = x.tokens.flatMap (Token.inPlace reading)
  | .leaf e => (List.append_nil _).symm
  | .group f => by
      show .opening :: ((f.inPlace reading).tokens ++ [.closing])
        = .opening :: (f.tokens ++ [Token.closing]).flatMap (Token.inPlace reading)
      rw [Formula.tokens_inPlace f, List.flatMap_append]
      rfl

/-- The AND of a run is written between what its factor and its rest are
read as. -/
theorem Run.tokens_inPlace : (r : Run) →
    (r.inPlace reading).tokens = r.tokens.flatMap (Token.inPlace reading)
  | .one x => Factor.tokens_inPlace x
  | .and x r => by
      rw [Run.inPlace, Formula.tokens_conj, Run.tokens, List.flatMap_append, List.flatMap_cons,
        Factor.tokens_inPlace x, Run.tokens_inPlace r]
      rfl

/-- Reading conditions in their places changes each of the tokens for
those it is read as, and nothing else. -/
theorem Formula.tokens_inPlace : (f : Formula) →
    (f.inPlace reading).tokens = f.tokens.flatMap (Token.inPlace reading)
  | .one r => Run.tokens_inPlace r
  | .or r f => by
      rw [Formula.inPlace, Formula.tokens_disj, Formula.tokens, List.flatMap_append,
        List.flatMap_cons, Run.tokens_inPlace r, Formula.tokens_inPlace f]
      rfl

end

end Places

/-! ### Truth and the conditions that it depends on -/

section Truth
variable {v w : Expression → Bool}

mutual

/-- The truth of a factor depends on its conditions only. -/
theorem Factor.eval_congr : (x : Factor) → (∀ e, .leaf e ∈ x.tokens → v e = w e) →
    x.eval v = x.eval w
  | .leaf e, h => h e List.mem_cons_self
  | .group f, h => Formula.eval_congr f fun e he =>
      h e (List.mem_cons_of_mem _ (List.mem_append_left _ he))

/-- The truth of a run depends on its conditions only. -/
theorem Run.eval_congr : (r : Run) → (∀ e, .leaf e ∈ r.tokens → v e = w e) →
    r.eval v = r.eval w
  | .one x, h => Factor.eval_congr x h
  | .and x r, h => by
      rw [Run.eval, Run.eval, Factor.eval_congr x fun e he => h e (List.mem_append_left _ he),
        Run.eval_congr r fun e he => h e (List.mem_append_right _ (List.mem_cons_of_mem _ he))]

/-- The truth of a formula depends on its conditions only. -/
theorem Formula.eval_congr : (f : Formula) → (∀ e, .leaf e ∈ f.tokens → v e = w e) →
    f.eval v = f.eval w
  | .one r, h => Run.eval_congr r h
  | .or r f, h => by
      rw [Formula.eval, Formula.eval, Run.eval_congr r fun e he => h e (List.mem_append_left _ he),
        Formula.eval_congr f fun e he => h e (List.mem_append_right _ (List.mem_cons_of_mem _ he))]

end

mutual

/-- Conditions of one truth value give it to their factor. -/
theorem Factor.eval_const (b : Bool) : (x : Factor) → x.eval (fun _ => b) = b
  | .leaf _ => rfl
  | .group f => Formula.eval_const b f

/-- Conditions of one truth value give it to their run. -/
theorem Run.eval_const (b : Bool) : (r : Run) → r.eval (fun _ => b) = b
  | .one x => Factor.eval_const b x
  | .and x r => by rw [Run.eval, Factor.eval_const b x, Run.eval_const b r, Bool.and_self]

/-- There are no negations: conditions of one truth value give it to
their formula. -/
theorem Formula.eval_const (b : Bool) : (f : Formula) → f.eval (fun _ => b) = b
  | .one r => Run.eval_const b r
  | .or r f => by rw [Formula.eval, Run.eval_const b r, Formula.eval_const b f, Bool.or_self]

end

/-- A run whose conditions all have one truth value has it too. -/
theorem Run.eval_of_forall {b : Bool} {r : Run} (h : ∀ e, .leaf e ∈ r.tokens → v e = b) :
    r.eval v = b :=
  (r.eval_congr h).trans (r.eval_const b)

/-- Two runs joined by AND hold where both do: a run has no OR to be cut
at. -/
theorem Run.eval_append (r s : Run) : (r.append s).eval v = (r.eval v && s.eval v) := by
  match r with
  | .one x => rfl
  | .and x r =>
      show (x.eval v && (r.append s).eval v) = (x.eval v && r.eval v && s.eval v)
      rw [Run.eval_append r s, Bool.and_assoc]

namespace Formula

/-- A formula whose conditions all have one truth value has it too. -/
theorem eval_of_forall {b : Bool} {f : Formula} (h : ∀ e, .leaf e ∈ f.tokens → v e = b) :
    f.eval v = b :=
  (f.eval_congr h).trans (f.eval_const b)

/-- An OR between formulas means what it says, wherever it stands: it
binds least. -/
theorem eval_disj (f g : Formula) : (disj f g).eval v = (f.eval v || g.eval v) := by
  match f with
  | .one r => rfl
  | .or r f =>
      show (r.eval v || (disj f g).eval v) = (r.eval v || f.eval v || g.eval v)
      rw [eval_disj f g, Bool.or_assoc]

/-- An AND between formulas without OR means what it says. -/
theorem eval_conj_of_isRun {f g : Formula} (hf : f.IsRun) (hg : g.IsRun) :
    (conj f g).eval v = (f.eval v && g.eval v) := by
  match f, g with
  | .one r, .one s => exact Run.eval_append r s

/-- The AND between a run and a formula holds where both do, also if it
joins only the first run of the formula. -/
theorem eval_runAnd_of_both {r : Run} {g : Formula} (hr : r.eval v = true)
    (hg : g.eval v = true) : (runAnd r g).eval v = true := by
  cases g with
  | one s =>
      show (r.append s).eval v = true
      rw [Run.eval_append, hr, Bool.true_and]
      exact hg
  | or s g =>
      show ((r.append s).eval v || g.eval v) = true
      rw [Run.eval_append, hr, Bool.true_and]
      exact hg

/-- What is read holds where both formulas do. -/
theorem eval_conj_of_both {f g : Formula} (hf : f.eval v = true) (hg : g.eval v = true) :
    (conj f g).eval v = true := by
  match f with
  | .one r => exact eval_runAnd_of_both hf hg
  | .or r f =>
      show (r.eval v || (conj f g).eval v) = true
      rw [Formula.eval, Bool.or_eq_true] at hf
      rcases hf with hr | hf
      · rw [hr, Bool.true_or]
      · rw [eval_conj_of_both hf hg, Bool.or_true]

/-- With an OR in the first formula, what is read holds where the
conditions of that formula do, whatever the second one says. -/
theorem eval_conj_of_left {f g : Formula} (hf : ¬ f.IsRun)
    (h : ∀ e, .leaf e ∈ f.tokens → v e = true) : (conj f g).eval v = true := by
  match f with
  | .one r => exact absurd trivial hf
  | .or r f =>
      -- The AND comes behind the last run, so this one stands alone.
      have hr : r.eval v = true := Run.eval_of_forall fun e he => h e (List.mem_append_left _ he)
      show (r.eval v || (conj f g).eval v) = true
      rw [hr, Bool.true_or]

/-- With an OR in the second formula, what is read holds where the
conditions of that formula do, whatever the first one says. -/
theorem eval_conj_of_right {f g : Formula} (hg : ¬ g.IsRun)
    (h : ∀ e, .leaf e ∈ g.tokens → v e = true) : (conj f g).eval v = true := by
  match f with
  | .or r f =>
      show (r.eval v || (conj f g).eval v) = true
      rw [eval_conj_of_right hg h, Bool.or_true]
  | .one r =>
      -- The AND joins the first run of `g` only, and a later one is left.
      match g with
      | .one s => exact absurd trivial hg
      | .or s g =>
          have hg' : g.eval v = true := eval_of_forall fun e he =>
            h e (List.mem_append_right _ (List.mem_cons_of_mem _ he))
          show ((r.append s).eval v || g.eval v) = true
          rw [hg', Bool.or_true]

end Formula

end Truth

/-! ### Conditions as units -/

/-- The truth values of conditions that are taken as units. -/
def asUnits (reading : Expression → Formula) (v : Expression → Bool) (e : Expression) : Bool :=
  (reading e).eval v

section Units
variable (reading : Expression → Formula)

mutual

/-- A factor that holds as a unit holds in its place. -/
theorem Factor.eval_inPlace_of_eval {v : Expression → Bool} : (x : Factor) →
    x.eval (asUnits reading v) = true → (x.inPlace reading).eval v = true
  | .leaf _, h => h
  | .group f, h => Formula.eval_inPlace_of_eval f h

/-- A run that holds with conditions as units holds with conditions in
their places. -/
theorem Run.eval_inPlace_of_eval {v : Expression → Bool} : (r : Run) →
    r.eval (asUnits reading v) = true → (r.inPlace reading).eval v = true
  | .one x, h => Factor.eval_inPlace_of_eval x h
  | .and x r, h => by
      rw [Run.eval, Bool.and_eq_true] at h
      exact Formula.eval_conj_of_both (Factor.eval_inPlace_of_eval x h.1)
        (Run.eval_inPlace_of_eval r h.2)

/-- What holds with conditions as units holds with conditions read in
their places: an AND that joins less lets more through. -/
theorem Formula.eval_inPlace_of_eval {v : Expression → Bool} : (f : Formula) →
    f.eval (asUnits reading v) = true → (f.inPlace reading).eval v = true
  | .one r, h => Run.eval_inPlace_of_eval r h
  | .or r f, h => by
      rw [Formula.eval, Bool.or_eq_true] at h
      rw [Formula.inPlace, Formula.eval_disj, Bool.or_eq_true]
      exact h.imp (Run.eval_inPlace_of_eval r) (Formula.eval_inPlace_of_eval f)

end

/-- Neighbours of which not one is an AND and the other one a condition
with an OR. -/
def Token.Apart : Token → Token → Prop
  | .leaf e, .and => (reading e).IsRun
  | .and, .leaf e => (reading e).IsRun
  | _, _ => True

/-- The factor that a run begins with. -/
def Run.first : Run → Factor
  | .one x => x
  | .and x _ => x

/-- An AND behind a factor is kept apart from it if the factor is read as
a run. Only a bare condition can fail this: a group ends with a
parenthesis. -/
theorem Factor.apart_last {x : Factor} :
    (∀ t ∈ x.tokens.getLast?, t.Apart reading .and) ↔ (x.inPlace reading).IsRun := by
  cases x with
  | leaf e => simp [Factor.tokens, Factor.inPlace, Token.Apart]
  | group f =>
      have hlast : (Factor.group f).tokens.getLast? = some .closing := by
        show ((Token.opening :: f.tokens) ++ [Token.closing]).getLast? = _
        exact List.getLast?_concat
      simp [hlast, Factor.inPlace, Token.Apart, Formula.IsRun]

/-- An AND before a factor is kept apart from it if the factor is read as
a run. -/
theorem Factor.apart_head (x : Factor) (ts : List Token) :
    (∀ t ∈ (x.tokens ++ ts).head?, Token.and.Apart reading t) ↔ (x.inPlace reading).IsRun := by
  cases x with
  | leaf e => simp [Factor.tokens, Factor.inPlace, Token.Apart]
  | group f => simp [Factor.tokens, Factor.inPlace, Token.Apart, Formula.IsRun]

/-- An AND before a run meets its first factor. -/
theorem Run.apart_head {r : Run} :
    (∀ t ∈ r.tokens.head?, Token.and.Apart reading t) ↔ (r.first.inPlace reading).IsRun := by
  cases r with
  | one x =>
      have hx := Factor.apart_head reading x []
      rw [List.append_nil] at hx
      exact hx
  | and x r => exact Factor.apart_head reading x _

/-- Parentheses keep everything apart. -/
theorem Factor.isChain_group {f : Formula} :
    (Factor.group f).tokens.IsChain (Token.Apart reading) ↔
      f.tokens.IsChain (Token.Apart reading) := by
  show (Token.opening :: (f.tokens ++ [.closing])).IsChain _ ↔ _
  rw [List.isChain_cons, List.isChain_append]
  simp [Token.Apart]

/-- The neighbours in a run: those in its factor and in its rest, and the
AND between the two with what stands on each side of it. -/
theorem Run.isChain_and {x : Factor} {r : Run} :
    (Run.and x r).tokens.IsChain (Token.Apart reading) ↔
      x.tokens.IsChain (Token.Apart reading) ∧ (x.inPlace reading).IsRun ∧
        (r.first.inPlace reading).IsRun ∧ r.tokens.IsChain (Token.Apart reading) := by
  have hlast : (∀ t ∈ x.tokens.getLast?, ∀ u ∈ (Token.and :: r.tokens).head?,
      t.Apart reading u) ↔ (x.inPlace reading).IsRun := by
    rw [← Factor.apart_last reading]
    simp
  rw [Run.tokens, List.isChain_append, List.isChain_cons, Run.apart_head, hlast]
  exact ⟨fun ⟨hx, ⟨hfirst, hr⟩, hrun⟩ => ⟨hx, hrun, hfirst, hr⟩,
    fun ⟨hx, hrun, hfirst, hr⟩ => ⟨hx, ⟨hfirst, hr⟩, hrun⟩⟩

/-- An OR keeps what stands on its sides apart. -/
theorem Formula.isChain_or {r : Run} {f : Formula} :
    (Formula.or r f).tokens.IsChain (Token.Apart reading) ↔
      r.tokens.IsChain (Token.Apart reading) ∧ f.tokens.IsChain (Token.Apart reading) := by
  rw [Formula.tokens, List.isChain_append, List.isChain_cons]
  simp [Token.Apart]

/-! ### Where nothing changes -/

/-- An AND leaves every OR where it is. -/
theorem Formula.isRun_conj_iff {f g : Formula} : (conj f g).IsRun ↔ f.IsRun ∧ g.IsRun := by
  cases f with
  | one r => cases g <;> simp [conj, runAnd, IsRun]
  | or r f => simp [conj, IsRun]

/-- A run whose conditions are kept apart from its ANDs stays a run. -/
theorem Run.isRun_inPlace {r : Run} (h : r.tokens.IsChain (Token.Apart reading))
    (hfirst : (r.first.inPlace reading).IsRun) : (r.inPlace reading).IsRun := by
  match r with
  | .one x => exact hfirst
  | .and x r =>
      -- The rest stands behind an AND, so it begins with a run as well.
      obtain ⟨-, hx, hr, htokens⟩ := (Run.isChain_and reading).mp h
      exact Formula.isRun_conj_iff.mpr ⟨hx, Run.isRun_inPlace htokens hr⟩

/-- A run that begins with an OR is not read as a run. -/
theorem Run.isRun_first {r : Run} (h : (r.inPlace reading).IsRun) :
    (r.first.inPlace reading).IsRun := by
  match r with
  | .one x => exact h
  | .and x r => exact (Formula.isRun_conj_iff.mp h).1

mutual

/-- A factor without ORs beside ANDs means in its place what it means as a
unit. -/
theorem Factor.eval_inPlace {v : Expression → Bool} : (x : Factor) →
    x.tokens.IsChain (Token.Apart reading) →
      (x.inPlace reading).eval v = x.eval (asUnits reading v)
  | .leaf _, _ => rfl
  | .group f, h => Formula.eval_inPlace f ((Factor.isChain_group reading).mp h)

/-- A run without ORs beside ANDs means in its place what it means as a
unit. -/
theorem Run.eval_inPlace {v : Expression → Bool} : (r : Run) →
    r.tokens.IsChain (Token.Apart reading) →
      (r.inPlace reading).eval v = r.eval (asUnits reading v)
  | .one x, h => Factor.eval_inPlace x h
  | .and x r, h => by
      obtain ⟨hx, hrun, hfirst, hr⟩ := (Run.isChain_and reading).mp h
      -- Both sides of the AND are runs, so it binds them whole.
      rw [Run.inPlace, Formula.eval_conj_of_isRun hrun (Run.isRun_inPlace reading hr hfirst),
        Run.eval, Factor.eval_inPlace x hx, Run.eval_inPlace r hr]

/-- Where no condition with an OR has an AND beside it, conditions mean
in their places what they mean as units. -/
theorem Formula.eval_inPlace {v : Expression → Bool} : (f : Formula) →
    f.tokens.IsChain (Token.Apart reading) →
      (f.inPlace reading).eval v = f.eval (asUnits reading v)
  | .one r, h => Run.eval_inPlace r h
  | .or r f, h => by
      obtain ⟨hr, hf⟩ := (Formula.isChain_or reading).mp h
      rw [Formula.inPlace, Formula.eval_disj, Formula.eval, Run.eval_inPlace r hr,
        Formula.eval_inPlace f hf]

end

/-! ### Where more is let through -/

/-- The smaller conditions in some tokens, from left to right. -/
def innerLeaves (ts : List Token) : List Expression :=
  (ts.flatMap (Token.inPlace reading)).filterMap Token.leaf?

/-- The smaller conditions of joined tokens are those of the parts. -/
theorem innerLeaves_append (ts us : List Token) :
    innerLeaves reading (ts ++ us) = innerLeaves reading ts ++ innerLeaves reading us := by
  rw [innerLeaves, List.flatMap_append, List.filterMap_append]
  rfl

/-- The smaller conditions are those that are read in the places of the
tokens. -/
theorem mem_innerLeaves {ts : List Token} {a : Expression} :
    a ∈ innerLeaves reading ts ↔ .leaf a ∈ ts.flatMap (Token.inPlace reading) :=
  Token.mem_filterMap_leaf?

/-- Truth values can be put together from those of independent
conditions. -/
theorem exists_both {as bs : List Expression} (h : as.Disjoint bs) (v w : Expression → Bool) :
    ∃ u : Expression → Bool, (∀ a ∈ as, u a = v a) ∧ ∀ b ∈ bs, u b = w b := by
  classical
  exact ⟨fun e => if e ∈ as then v e else w e, fun a ha => if_pos ha,
    fun b hb => if_neg fun ha => h ha hb⟩

/-- Tokens joined by AND or OR that have no smaller condition twice. -/
theorem nodup_innerLeaves {ts us : List Token} {t : Token} (ht : t = .and ∨ t = .or)
    (h : (innerLeaves reading (ts ++ t :: us)).Nodup) :
    (innerLeaves reading ts).Nodup ∧ (innerLeaves reading us).Nodup ∧
      (innerLeaves reading ts).Disjoint (innerLeaves reading us) := by
  have hus : innerLeaves reading (t :: us) = innerLeaves reading us := by
    rcases ht with rfl | rfl <;> rfl
  rw [innerLeaves_append, hus] at h
  exact List.nodup_append'.mp h

section Dependence
variable {v w : Expression → Bool} {ts : List Token}

/-- What is read in the place of tokens depends on the smaller conditions
in them. -/
theorem Formula.eval_congr_innerLeaves {f : Formula}
    (hf : f.tokens = ts.flatMap (Token.inPlace reading))
    (h : ∀ a ∈ innerLeaves reading ts, v a = w a) : f.eval v = f.eval w :=
  f.eval_congr fun a ha => h a ((mem_innerLeaves reading).mpr (hf ▸ ha))

/-- Units depend on the smaller conditions in them. -/
theorem asUnits_congr (h : ∀ a ∈ innerLeaves reading ts, v a = w a) :
    ∀ e, .leaf e ∈ ts → asUnits reading v e = asUnits reading w e := fun e he =>
  (reading e).eval_congr fun a ha =>
    h a ((mem_innerLeaves reading).mpr (List.mem_flatMap.mpr ⟨_, he, ha⟩))

/-- If the smaller conditions all have one truth value, the units have it. -/
theorem asUnits_of_forall {b : Bool} (h : ∀ a ∈ innerLeaves reading ts, v a = b) :
    ∀ e, .leaf e ∈ ts → asUnits reading v e = b := fun e he =>
  (asUnits_congr reading (w := fun _ => b) h e he).trans ((reading e).eval_const b)

end Dependence

mutual

/-- A bare condition has no neighbours, so it is inside the group that an
AND lets more through. -/
theorem Factor.exists_eval_inPlace : (x : Factor) → (innerLeaves reading x.tokens).Nodup →
    ¬ x.tokens.IsChain (Token.Apart reading) →
      ∃ v, (x.inPlace reading).eval v = true ∧ x.eval (asUnits reading v) = false
  | .leaf e, _, h => absurd (.singleton _) h
  | .group f, hnodup, h => by
      refine Formula.exists_eval_inPlace f ?_ fun hf => h ((Factor.isChain_group reading).mpr hf)
      have hgroup : innerLeaves reading (Factor.group f).tokens
          = innerLeaves reading f.tokens ++ [] := innerLeaves_append reading f.tokens [.closing]
      rw [hgroup, List.append_nil] at hnodup
      exact hnodup

/-- The AND of a run lets more through: at this AND, because one side has
an OR beside it, or at one inside the factor or the rest. -/
theorem Run.exists_eval_inPlace : (r : Run) → (innerLeaves reading r.tokens).Nodup →
    ¬ r.tokens.IsChain (Token.Apart reading) →
      ∃ v, (r.inPlace reading).eval v = true ∧ r.eval (asUnits reading v) = false
  | .one x, hnodup, h => Factor.exists_eval_inPlace x hnodup h
  | .and x r, hnodup, h => by
      obtain ⟨hxnodup, hrnodup, hdisjoint⟩ := nodup_innerLeaves reading (.inl rfl) hnodup
      by_cases hx : x.tokens.IsChain (Token.Apart reading)
      · by_cases hr : r.tokens.IsChain (Token.Apart reading)
        · by_cases hrun : (x.inPlace reading).IsRun
          · -- The rest begins with an OR: it holds, and the factor does not.
            have hrest : ¬ (r.inPlace reading).IsRun := fun hrest =>
              h ((Run.isChain_and reading).mpr ⟨hx, hrun, Run.isRun_first reading hrest, hr⟩)
            obtain ⟨v, hvx, hvr⟩ := exists_both hdisjoint (fun _ => false) fun _ => true
            refine ⟨v, Formula.eval_conj_of_right hrest fun a ha => hvr a ?_, ?_⟩
            · exact (mem_innerLeaves reading).mpr (Run.tokens_inPlace reading r ▸ ha)
            · rw [Run.eval, x.eval_congr (asUnits_of_forall reading hvx), x.eval_const,
                Bool.false_and]
          · -- The factor has an OR: it holds, and the rest does not.
            obtain ⟨v, hvx, hvr⟩ := exists_both hdisjoint (fun _ => true) fun _ => false
            refine ⟨v, Formula.eval_conj_of_left hrun fun a ha => hvx a ?_, ?_⟩
            · exact (mem_innerLeaves reading).mpr (Factor.tokens_inPlace reading x ▸ ha)
            · rw [Run.eval, r.eval_congr (asUnits_of_forall reading hvr), r.eval_const,
                Bool.and_false]
        · -- The rest lets more through, and the factor holds.
          obtain ⟨w, hin, hunits⟩ := Run.exists_eval_inPlace r hrnodup hr
          obtain ⟨v, hvx, hvr⟩ := exists_both hdisjoint (fun _ => true) w
          refine ⟨v, Formula.eval_conj_of_both ?_ ?_, ?_⟩
          · rw [Formula.eval_congr_innerLeaves reading (Factor.tokens_inPlace reading x) hvx,
              Formula.eval_const]
          · rw [Formula.eval_congr_innerLeaves reading (Run.tokens_inPlace reading r) hvr, hin]
          · rw [Run.eval, r.eval_congr (asUnits_congr reading hvr), hunits, Bool.and_false]
      · -- The factor lets more through, and the rest holds.
        obtain ⟨w, hin, hunits⟩ := Factor.exists_eval_inPlace x hxnodup hx
        obtain ⟨v, hvx, hvr⟩ := exists_both hdisjoint w fun _ => true
        refine ⟨v, Formula.eval_conj_of_both ?_ ?_, ?_⟩
        · rw [Formula.eval_congr_innerLeaves reading (Factor.tokens_inPlace reading x) hvx, hin]
        · rw [Formula.eval_congr_innerLeaves reading (Run.tokens_inPlace reading r) hvr,
            Formula.eval_const]
        · rw [Run.eval, x.eval_congr (asUnits_congr reading hvx), hunits, Bool.false_and]

/-- Where some condition with an OR has an AND beside it, and the smaller
conditions are independent, the AND can let through what it would not
if that condition were a unit. -/
theorem Formula.exists_eval_inPlace : (f : Formula) → (innerLeaves reading f.tokens).Nodup →
    ¬ f.tokens.IsChain (Token.Apart reading) →
      ∃ v, (f.inPlace reading).eval v = true ∧ f.eval (asUnits reading v) = false
  | .one r, hnodup, h => Run.exists_eval_inPlace r hnodup h
  | .or r f, hnodup, h => by
      obtain ⟨hrnodup, hfnodup, hdisjoint⟩ := nodup_innerLeaves reading (.inr rfl) hnodup
      by_cases hr : r.tokens.IsChain (Token.Apart reading)
      · have hf : ¬ f.tokens.IsChain (Token.Apart reading) := fun hf =>
          h ((Formula.isChain_or reading).mpr ⟨hr, hf⟩)
        -- An OR lets the rest decide where the run does not hold.
        obtain ⟨w, hin, hunits⟩ := Formula.exists_eval_inPlace f hfnodup hf
        obtain ⟨v, hvr, hvf⟩ := exists_both hdisjoint (fun _ => false) w
        refine ⟨v, ?_, ?_⟩
        · rw [Formula.inPlace, Formula.eval_disj,
            Formula.eval_congr_innerLeaves reading (Formula.tokens_inPlace reading f) hvf, hin,
            Bool.or_true]
        · rw [Formula.eval, r.eval_congr (asUnits_of_forall reading hvr), r.eval_const,
            f.eval_congr (asUnits_congr reading hvf), hunits, Bool.or_self]
      · obtain ⟨w, hin, hunits⟩ := Run.exists_eval_inPlace r hrnodup hr
        obtain ⟨v, hvr, hvf⟩ := exists_both hdisjoint w fun _ => false
        refine ⟨v, ?_, ?_⟩
        · rw [Formula.inPlace, Formula.eval_disj,
            Formula.eval_congr_innerLeaves reading (Run.tokens_inPlace reading r) hvr, hin,
            Bool.true_or]
        · rw [Formula.eval, r.eval_congr (asUnits_congr reading hvr), hunits,
            f.eval_congr (asUnits_of_forall reading hvf), f.eval_const, Bool.or_self]

end

end Units

end SqlSession
