import SqlSession.Proofs.Condition.Grammar

/-!
# `SqlSession.Proofs.Condition.Grouping`: the tree behind the text

The entries of a predicate mean an OR of runs, where a run is the
longest stretch of entries joined by AND. `entriesFormula?` writes this
reading down as a formula, in which a group of one entry is no more than
that entry. `holds` is the truth value of a predicate by the same
reading, without a formula in between.

`Predicate.Built.grouping_survives` is the main statement: the text of a predicate
that was built by callers has exactly one parse, and it is the formula
of the predicate. So no group leaks into what stands beside it, and a
group has inside a statement the truth value that it has on its own.
-/

set_option autoImplicit false

namespace SqlSession

/-! ### The formula of a tree -/

/-- A formula with one more factor in front of it. -/
def Formula.joined (x : Factor) : Combinator → Formula → Formula
  | .and, .one run => .one (.and x run)
  | .and, .or run rest => .or (.and x run) rest
  | .or, f => .or (.one x) f

/-- A formula as a part of another one. A single factor is taken as it
is. -/
def Formula.asFactor : Formula → Factor
  | .one (.one x) => x
  | f => .group f

mutual

/-- What a node is in a formula; an empty group is nothing. -/
def Node.factor? : Node → Option Factor
  | .leaf e => some (.leaf e)
  | .group entries => (entriesFormula? entries).map Formula.asFactor
termination_by structural node => node

/-- The formula of entries: the OR of their runs. -/
def entriesFormula? : List Entry → Option Formula
  | [] => none
  | (_, node) :: rest => node.factor?.bind fun x => laterFormula? x rest
termination_by structural entries => entries

/-- The formula of a factor and the entries behind it. -/
def laterFormula? (x : Factor) : List Entry → Option Formula
  | [] => some (.one (.one x))
  | (combinator, node) :: rest =>
      node.factor?.bind fun y => (laterFormula? y rest).map (Formula.joined x combinator)
termination_by structural entries => entries

end

/-- The formula of a predicate; an empty one has none. -/
def Predicate.formula? (p : Predicate) : Option Formula := entriesFormula? p.entries

/-- Joining puts the tokens of the factor and of the combinator in front. -/
theorem Formula.tokens_joined (x : Factor) (combinator : Combinator) (f : Formula) :
    (Formula.joined x combinator f).tokens = x.tokens ++ combinator.token :: f.tokens := by
  cases combinator with
  | or => rfl
  | and =>
      cases f with
      | one run => rfl
      | or run rest =>
          show (x.tokens ++ .and :: run.tokens) ++ .or :: rest.tokens = _
          rw [List.append_assoc]
          rfl

/-- With a factor put in front there are at least two, so the formula
needs its parentheses. -/
theorem Formula.asFactor_joined (x : Factor) (combinator : Combinator) (f : Formula) :
    (Formula.joined x combinator f).asFactor = .group (Formula.joined x combinator f) := by
  cases combinator <;> cases f <;> rfl

/-- Behind a factor there is always a formula, if what stands there has
one. -/
theorem laterFormula?_isSome {entries : List Entry}
    (h : ∀ entry ∈ entries, entry.2.factor?.isSome) (x : Factor) :
    (laterFormula? x entries).isSome := by
  induction entries generalizing x with
  | nil => rfl
  | cons entry rest ih =>
      obtain ⟨combinator, node⟩ := entry
      obtain ⟨y, hy⟩ := Option.isSome_iff_exists.mp (h (combinator, node) (by simp))
      simpa [laterFormula?, hy] using ih (fun e he => h e (by simp [he])) y

/-- Entries have a formula when there are any and each has its place in
one. -/
theorem entriesFormula?_isSome {entries : List Entry} (hne : entries ≠ [])
    (h : ∀ entry ∈ entries, entry.2.factor?.isSome) : (entriesFormula? entries).isSome := by
  match entries with
  | (combinator, node) :: rest =>
      obtain ⟨x, hx⟩ := Option.isSome_iff_exists.mp (h (combinator, node) (by simp))
      rw [entriesFormula?, hx]
      exact laterFormula?_isSome (fun e he => h e (by simp [he])) x

/-- Without empty groups every node has its place in a formula. -/
theorem Node.Sound.factor?_isSome {node : Node} (h : node.Sound) : node.factor?.isSome := by
  induction h with
  | leaf => rfl
  | group hne _ ih =>
      rw [Node.factor?, Option.isSome_map]
      exact entriesFormula?_isSome hne ih

/-! ### Its tokens -/

mutual

/-- A node and its factor are written alike. -/
theorem Node.tokens_factor : (node : Node) → {x : Factor} →
    node.factor? = some x → x.tokens = node.tokens
  | .leaf e, x, h => by
      rw [Node.factor?, Option.some.injEq] at h
      rw [← h]
      rfl
  | .group [], x, h => nomatch h
  | .group [(_, node)], x, h => by
      -- The only factor of a formula is not put between parentheses again.
      simp only [Node.factor?, entriesFormula?, laterFormula?, Option.map_eq_some_iff,
        Option.bind_eq_some_iff, Option.some.injEq] at h
      obtain ⟨_, ⟨y, hy, rfl⟩, rfl⟩ := h
      show y.tokens = node.tokens ++ []
      rw [Node.tokens_factor node hy, List.append_nil]
  | .group ((c, node) :: entry :: rest), x, h => by
      rw [Node.factor?, Option.map_eq_some_iff] at h
      obtain ⟨f, hf, rfl⟩ := h
      have htokens := tokens_entriesFormula ((c, node) :: entry :: rest) hf
      simp only [entriesFormula?, laterFormula?, Option.map_eq_some_iff,
        Option.bind_eq_some_iff] at hf
      obtain ⟨y, -, z, -, g, -, rfl⟩ := hf
      rw [Formula.asFactor_joined, Factor.tokens, htokens, Node.tokens, if_pos (by simp)]

/-- Entries and their formula are written alike. The induction is on the
entries, together with the nodes in them and with what stands behind a
factor. -/
theorem tokens_entriesFormula : (entries : List Entry) → {f : Formula} →
    entriesFormula? entries = some f → f.tokens = entriesTokens entries
  | [], f, h => nomatch h
  | (_, node) :: rest, f, h => by
      rw [entriesFormula?, Option.bind_eq_some_iff] at h
      obtain ⟨x, hx, hf⟩ := h
      rw [tokens_laterFormula rest hf, Node.tokens_factor node hx, entriesTokens]

/-- So are a factor and the entries behind it. Here the factor is what the
entries read so far have come to. -/
theorem tokens_laterFormula : (entries : List Entry) → {x : Factor} → {f : Formula} →
    laterFormula? x entries = some f → f.tokens = x.tokens ++ laterTokens entries
  | [], x, f, h => by
      rw [laterFormula?, Option.some.injEq] at h
      rw [← h, laterTokens, List.append_nil]
      rfl
  | (combinator, node) :: rest, x, f, h => by
      rw [laterFormula?, Option.bind_eq_some_iff] at h
      obtain ⟨y, hy, hf⟩ := h
      obtain ⟨g, hg, rfl⟩ := Option.map_eq_some_iff.mp hf
      rw [Formula.tokens_joined, tokens_laterFormula rest hg, Node.tokens_factor node hy,
        laterTokens]

end

/-! ### Its truth -/

section Truth
variable (v : Expression → Bool)

mutual

/-- Whether a node holds. -/
def Node.holds : Node → Bool
  | .leaf e => v e
  | .group entries => entriesHold entries
termination_by structural node => node

/-- Whether some run of entries holds; no entries ask for nothing. -/
def entriesHold : List Entry → Bool
  | [] => true
  | (_, node) :: rest => laterHold node.holds rest
termination_by structural entries => entries

/-- Whether the run so far, continued by the entries behind it, or some
later run holds. -/
def laterHold (run : Bool) : List Entry → Bool
  | [] => run
  | (.and, node) :: rest => laterHold (run && node.holds) rest
  | (.or, node) :: rest => run || laterHold node.holds rest
termination_by structural entries => entries

end

/-- Whether a predicate holds. -/
def Predicate.holds (p : Predicate) : Bool := entriesHold v p.entries

/-- Whether a formula holds if one more factor, of a known value, stands
in its first run. -/
def Formula.evalWith (b : Bool) : Formula → Bool
  | .one run => b && run.eval v
  | .or run rest => (b && run.eval v) || rest.eval v

/-- A factor that holds makes no difference to the run it is put in. -/
theorem Formula.evalWith_true (f : Formula) : f.evalWith v true = f.eval v := by
  cases f <;> simp [Formula.evalWith, Formula.eval]

/-- A factor joined by AND belongs to the first run, and its value to what
is known of that run. -/
theorem Formula.evalWith_joined_and (b : Bool) (x : Factor) (f : Formula) :
    (Formula.joined x .and f).evalWith v b = f.evalWith v (b && x.eval v) := by
  cases f <;> simp [Formula.joined, Formula.evalWith, Run.eval, Bool.and_assoc]

/-- A factor joined by OR closes the first run, and the rest is on its
own. -/
theorem Formula.evalWith_joined_or (b : Bool) (x : Factor) (f : Formula) :
    (Formula.joined x .or f).evalWith v b = ((b && x.eval v) || f.eval v) := rfl

/-- A formula and the factor made of it have one truth value. -/
theorem Formula.eval_asFactor (f : Formula) : f.asFactor.eval v = f.eval v := by
  match f with
  | .one (.one x) => rfl
  | .one (.and x run) => rfl
  | .or run rest => rfl

mutual

/-- A node and its factor have one truth value. -/
theorem Node.eval_factor : (node : Node) → {x : Factor} →
    node.factor? = some x → x.eval v = node.holds v
  | .leaf e, x, h => by
      rw [Node.factor?, Option.some.injEq] at h
      rw [← h]
      rfl
  | .group entries, x, h => by
      rw [Node.factor?, Option.map_eq_some_iff] at h
      obtain ⟨f, hf, rfl⟩ := h
      rw [Formula.eval_asFactor, eval_entriesFormula entries hf]
      rfl

/-- Entries and their formula have one truth value. -/
theorem eval_entriesFormula : (entries : List Entry) → {f : Formula} →
    entriesFormula? entries = some f → f.eval v = entriesHold v entries
  | [], f, h => nomatch h
  | (_, node) :: rest, f, h => by
      rw [entriesFormula?, Option.bind_eq_some_iff] at h
      obtain ⟨x, hx, hf⟩ := h
      rw [← Formula.evalWith_true, evalWith_laterFormula rest true hf, Bool.true_and,
        Node.eval_factor node hx]
      rfl

/-- The run that a formula begins with may have begun before it: `b` is
the value of what stands there. -/
theorem evalWith_laterFormula : (entries : List Entry) → (b : Bool) → {x : Factor} →
    {f : Formula} → laterFormula? x entries = some f →
      f.evalWith v b = laterHold v (b && x.eval v) entries
  | [], b, x, f, h => by
      rw [laterFormula?, Option.some.injEq] at h
      rw [← h]
      rfl
  | (.and, node) :: rest, b, x, f, h => by
      rw [laterFormula?, Option.bind_eq_some_iff] at h
      obtain ⟨y, hy, hf⟩ := h
      obtain ⟨g, hg, rfl⟩ := Option.map_eq_some_iff.mp hf
      rw [Formula.evalWith_joined_and, evalWith_laterFormula rest _ hg,
        Node.eval_factor node hy]
      rfl
  | (.or, node) :: rest, b, x, f, h => by
      rw [laterFormula?, Option.bind_eq_some_iff] at h
      obtain ⟨y, hy, hf⟩ := h
      obtain ⟨g, hg, rfl⟩ := Option.map_eq_some_iff.mp hf
      -- The OR ends the run, and what follows begins a run of its own.
      rw [Formula.evalWith_joined_or, ← Formula.evalWith_true,
        evalWith_laterFormula rest true hg, Bool.true_and, Node.eval_factor node hy]
      rfl

end

end Truth

/-! ### Groups inside groups -/

/-- The factors of a run, from left to right. -/
def Run.factors : Run → List Factor
  | .one x => [x]
  | .and x run => x :: run.factors

/-- The factors of a formula, from left to right. Those between
parentheses are not among them. -/
def Formula.factors : Formula → List Factor
  | .one run => run.factors
  | .or run rest => run.factors ++ rest.factors

/-- A node stands among entries, at any depth. -/
inductive Node.Inside (node : Node) : List Entry → Prop
  | entry {entries : List Entry} {combinator : Combinator} :
      (combinator, node) ∈ entries → Inside node entries
  | deeper {entries inner : List Entry} {combinator : Combinator} :
      (combinator, .group inner) ∈ entries → Inside node inner → Inside node entries

/-- A factor stands in a formula, at any depth. -/
inductive Factor.Inside (x : Factor) : Formula → Prop
  | factor {f : Formula} : x ∈ f.factors → Inside x f
  | deeper {f g : Formula} : .group g ∈ f.factors → Inside x g → Inside x f

/-- Joining puts the factor in front, by whichever combinator. -/
theorem Formula.factors_joined (x : Factor) (combinator : Combinator) (f : Formula) :
    (Formula.joined x combinator f).factors = x :: f.factors := by
  cases combinator <;> cases f <;> rfl

/-- What stands in a formula stands in every formula that has the first
one as a factor, between parentheses or not. -/
theorem Factor.Inside.of_asFactor {x : Factor} {f g : Formula} (hx : x.Inside g)
    (hg : g.asFactor ∈ f.factors) : x.Inside f := by
  match g with
  | .one (.one y) =>
      -- The only factor of a formula was taken as it is.
      cases hx with
      | factor h =>
          rw [List.mem_singleton.mp h]
          exact .factor hg
      | deeper h hx =>
          rw [← List.mem_singleton.mp h] at hg
          exact .deeper hg hx
  | .one (.and _ _) => exact .deeper hg hx
  | .or _ _ => exact .deeper hg hx

/-- Every entry behind a factor has its own factor. -/
theorem factor_mem_laterFormula {entries : List Entry} {x : Factor} {f : Formula}
    (hf : laterFormula? x entries = some f) :
    x ∈ f.factors ∧ ∀ entry ∈ entries, ∃ y, entry.2.factor? = some y ∧ y ∈ f.factors := by
  induction entries generalizing x f with
  | nil =>
      rw [laterFormula?, Option.some.injEq] at hf
      rw [← hf]
      exact ⟨List.mem_singleton.mpr rfl, fun entry h => nomatch h⟩
  | cons first rest ih =>
      rw [laterFormula?, Option.bind_eq_some_iff] at hf
      obtain ⟨y, hy, hf⟩ := hf
      obtain ⟨g, hg, rfl⟩ := Option.map_eq_some_iff.mp hf
      obtain ⟨hyg, hrest⟩ := ih hg
      rw [Formula.factors_joined]
      refine ⟨List.mem_cons_self, fun entry hentry => ?_⟩
      rcases List.mem_cons.mp hentry with rfl | h
      · -- The factor of the next entry is the one that the rest was joined to.
        exact ⟨y, hy, List.mem_cons_of_mem _ hyg⟩
      · obtain ⟨z, hz, hzg⟩ := hrest entry h
        exact ⟨z, hz, List.mem_cons_of_mem _ hzg⟩

/-- Every entry has its own factor in the formula of them all. -/
theorem factor_mem_entriesFormula {entries : List Entry} {f : Formula}
    (hf : entriesFormula? entries = some f) :
    ∀ entry ∈ entries, ∃ y, entry.2.factor? = some y ∧ y ∈ f.factors := by
  match entries with
  | [] => exact nomatch hf
  | (combinator, node) :: rest =>
      rw [entriesFormula?, Option.bind_eq_some_iff] at hf
      obtain ⟨x, hx, hf⟩ := hf
      -- The first node has no combinator of its own, and is the factor that all others stand
      -- behind.
      obtain ⟨hxf, hrest⟩ := factor_mem_laterFormula hf
      intro entry hentry
      rcases List.mem_cons.mp hentry with rfl | h
      · exact ⟨x, hx, hxf⟩
      · exact hrest entry h

namespace Node.Inside

/-- A node at any depth has its own factor, at some depth. -/
theorem exists_factor {node : Node} {entries : List Entry} (h : node.Inside entries) :
    ∀ {f : Formula}, entriesFormula? entries = some f →
      ∃ x, node.factor? = some x ∧ x.Inside f := by
  induction h with
  | entry hmem =>
      intro f hf
      obtain ⟨x, hx, hxf⟩ := factor_mem_entriesFormula hf _ hmem
      exact ⟨x, hx, .factor hxf⟩
  | deeper hmem _ ih =>
      intro f hf
      -- The group has a factor in `f`, and the node one in the formula of the group.
      obtain ⟨y, hy, hyf⟩ := factor_mem_entriesFormula hf _ hmem
      obtain ⟨g, hg, rfl⟩ := Option.map_eq_some_iff.mp hy
      obtain ⟨x, hx, hxg⟩ := ih hg
      exact ⟨x, hx, hxg.of_asFactor hyf⟩

/-- Nothing that stands inside sound entries is blank or empty. -/
theorem sound {node : Node} {entries : List Entry} (h : node.Inside entries)
    (hs : ∀ entry ∈ entries, entry.2.Sound) : node.Sound := by
  induction h with
  | entry hmem => exact hs _ hmem
  | deeper hmem _ ih =>
      cases hs _ hmem with
      | group _ hinner => exact ih hinner

/-- The conditions of a group are among those of the tree it stands in. -/
theorem leaves_subset {node : Node} {entries : List Entry} (h : node.Inside entries)
    {e : Expression} (he : e ∈ node.leaves) : e ∈ entriesLeaves entries := by
  induction h with
  | entry hmem => exact mem_entriesLeaves hmem he
  | deeper hmem _ ih => exact mem_entriesLeaves hmem ih

end Node.Inside

/-! ### The parse of a predicate -/

/-- A predicate is written as a sequence of tokens that has one parse:
a formula with the conditions and the truth value of the predicate. -/
structure Predicate.Parses (p : Predicate) (f : Formula) : Prop where
  written : p.draft = .ofTokens p.tokens
  formula : p.formula? = some f
  accepted : f.tokens = p.tokens
  unique : ∀ g : Formula, g.tokens = p.tokens → g = f
  balanced : Balanced p.tokens
  leaves : p.tokens.filterMap Token.leaf? = p.leaves
  truth : ∀ v : Expression → Bool, f.eval v = p.holds v

/-- A sound predicate with entries and without errors has a parse. -/
theorem Predicate.Sound.parses {p : Predicate} (h : p.Sound) (ok : p.error? = none)
    (hne : p.entries ≠ []) : ∃ f, p.Parses f := by
  have hsome := entriesFormula?_isSome hne fun entry hentry => (h entry hentry).factor?_isSome
  obtain ⟨f, hf⟩ := Option.isSome_iff_exists.mp hsome
  have htokens : f.tokens = p.tokens := tokens_entriesFormula p.entries hf
  refine ⟨f, h.draft_eq ok, hf, htokens, fun g hg => ?_, ?_, p.filterMap_tokens, fun v => ?_⟩
  · exact Formula.tokens_injective (hg.trans htokens.symm)
  · rw [← htokens]
    exact f.balanced
  · exact eval_entriesFormula v p.entries hf

/-- The text of a predicate that callers built has exactly one parse,
and that is the predicate's own formula; only the empty predicate has no
text to parse. Every group in it, at any depth, is found in the parse
again, with the formula and the truth value that it has on its own. -/
theorem Predicate.Built.grouping_survives {p : Predicate} {sql : String} (h : p.Built)
    (hok : p.draft.result = .ok sql) :
    sql = (Draft.ofTokens p.tokens).text ∧
    (p.entries = [] → p.tokens = []) ∧
    (p.entries ≠ [] → ∃ f, p.Parses f ∧
      ∀ group : Predicate, (Node.group group.entries).Inside p.entries →
        ∃ g, group.Parses g ∧ g.asFactor.Inside f ∧
          ∀ v : Expression → Bool, g.asFactor.eval v = group.holds v) := by
  have ok : p.error? = none := p.failure_draft ▸ Draft.failure_of_result hok
  have hdraft := h.sound.draft_eq ok
  refine ⟨?_, ?_, fun hne => ?_⟩
  · rw [hdraft] at hok
    exact (Except.ok.inj hok).symm
  · intro hnil
    rw [Predicate.tokens, hnil]
    rfl
  · obtain ⟨f, hf⟩ := h.sound.parses ok hne
    refine ⟨f, hf, fun group hgroup => ?_⟩
    -- The group is sound and has no error because the whole is and has none.
    have hleaves := (entriesError?_eq_none p.entries).mp ok
    have okGroup : group.error? = none :=
      (entriesError?_eq_none group.entries).mpr fun e he => hleaves e (hgroup.leaves_subset he)
    cases hgroup.sound h.sound with
    | group hne hs =>
        obtain ⟨g, hg⟩ := Predicate.Sound.parses (p := group) hs okGroup hne
        obtain ⟨x, hx, hxf⟩ := hgroup.exists_factor hf.formula
        have hgx : (entriesFormula? group.entries).map Formula.asFactor = some x := hx
        rw [show entriesFormula? group.entries = some g from hg.formula, Option.map_some,
          Option.some.injEq] at hgx
        exact ⟨g, hg, hgx ▸ hxf, fun v => (g.eval_asFactor v).trans (hg.truth v)⟩

/-- A group of two, behind a condition and inside a group of one. -/
theorem Predicate.Built.grouping_survives_nested :
    let pair := (Predicate.empty.raw "a").or.raw "b"
    let whole := (Predicate.empty.raw "c").addPredicate (Predicate.empty.addPredicate pair)
    whole.Built ∧ whole.draft.result = .ok "c AND (a OR b)" ∧
      ∃ f, whole.Parses f ∧ ∃ g, pair.Parses g ∧ g.asFactor.Inside f := by
  intro pair whole
  have hpair : pair.Built := .addExpression (.or (.addExpression .empty (.raw _))) (.raw _)
  have hwhole : whole.Built :=
    .addPredicate (.addExpression .empty (.raw _)) (.addPredicate .empty hpair)
  have hok : whole.draft.result = .ok "c AND (a OR b)" := by rfl
  obtain ⟨-, -, hparses⟩ := hwhole.grouping_survives hok
  obtain ⟨f, hf, hgroups⟩ := hparses (by decide)
  have hinside : (Node.group pair.entries).Inside whole.entries :=
    @Node.Inside.deeper _ _ [(.and, .group pair.entries)] .and
      (List.mem_of_getElem? (i := 1) rfl) (@Node.Inside.entry _ _ .and List.mem_cons_self)
  obtain ⟨g, hg, hgf, -⟩ := hgroups pair hinside
  exact ⟨hwhole, hok, f, hf, g, hg, hgf⟩

/-- The empty predicate is rendered as the empty text, which the grammar
does not have. -/
theorem Predicate.empty_not_accepted :
    Predicate.empty.Built ∧ Predicate.empty.draft.result = .ok "" ∧
      ∀ f : Formula, f.tokens ≠ Predicate.empty.tokens := by
  refine ⟨.empty, rfl, fun f => ?_⟩
  show f.tokens ≠ []
  match f with
  | .one (.one (.leaf _)) => exact List.cons_ne_nil _ _
  | .one (.one (.group _)) => exact List.cons_ne_nil _ _
  | .one (.and _ _) => simp [Formula.tokens, Run.tokens]
  | .or _ _ => simp [Formula.tokens]

end SqlSession
