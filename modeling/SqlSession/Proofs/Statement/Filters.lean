import SqlSession.Proofs.Statement.Choices

/-!
# `SqlSession.Proofs.Statement.Filters`: what repeated filters mean

Filters given one after another are meant to hold all together. The
first of them is taken into the statement as it is, without parentheses
of its own, and AND binds tighter than OR. So a later filter joins the
last run of the first one only.

`Conditions.conjunction_iff` gives the truth value of the conditions for
every way to build a statement, and says when it is that of all filters
together: exactly where no earlier run of the first filter holds while a
later filter does not. A first filter without OR has one run, and then
nothing is lost. `Delete.later_filter_lost` is a statement in which a
later filter is lost.
-/

set_option autoImplicit false

namespace SqlSession

namespace Conditions

variable {whole : Predicate} {given : List Given}

/-- Conditions of which some were given have a parse. -/
theorem parses (h : Conditions whole given) (ok : whole.error? = none) {first : Predicate}
    {later : List Predicate}
    (hpresent : Predicate.present (given.map Given.predicate) = first :: later) :
    ∃ f, whole.Parses f := by
  refine h.built.sound.parses ok ?_
  have hfirst := Predicate.mem_present.mp (hpresent ▸ List.mem_cons_self : first ∈ _)
  rw [h.eq_conjoin, Predicate.entries_conjoin hpresent]
  exact List.append_ne_nil_of_left_ne_nil (Predicate.isEmpty_eq_false.mp hfirst.2) _

/-- Every given filter that has entries has a parse on its own: it has no
error because the whole has none. -/
theorem parses_given (h : Conditions whole given) (ok : whole.error? = none) {p : Predicate}
    (hp : p ∈ Predicate.present (given.map Given.predicate)) : ∃ g, p.Parses g := by
  obtain ⟨hmem, hne⟩ := Predicate.mem_present.mp hp
  obtain ⟨g, -, rfl⟩ := List.mem_map.mp hmem
  have hg : g.predicate.error? = none := Predicate.error?_of_conjoin (h.eq_conjoin ▸ ok) hmem
  exact g.built_predicate.sound.parses hg (Predicate.isEmpty_eq_false.mp hne)

/-- Conditions of which none were given are the empty text. -/
theorem result_of_present_eq_nil {sql : String} (h : Conditions whole given)
    (hok : whole.draft.result = .ok sql)
    (hnil : Predicate.present (given.map Given.predicate) = []) : sql = "" := by
  rw [h.eq_conjoin, Predicate.draft, Predicate.entries_conjoin_nil hnil] at hok
  exact (Except.ok.inj hok).symm

/-- The conditions of a statement have a parse if a filter was given that
has entries, and are the empty text if not. They hold if an earlier run
of the first filter holds, or if its last run and all later filters do.
This is the truth of all filters together exactly where an earlier run
of the first filter does not hold against a later filter, so always if
the first filter has no OR. What the first filter rejects is rejected
in any case. -/
theorem conjunction_iff {sql : String} (h : Conditions whole given)
    (hok : whole.draft.result = .ok sql) :
    (Predicate.present (given.map Given.predicate) = [] →
      sql = "" ∧ ∀ v : Expression → Bool, (given.all fun g => g.predicate.holds v) = true) ∧
    ∀ (first : Predicate) (later : List Predicate),
      Predicate.present (given.map Given.predicate) = first :: later →
      ∃ f, whole.Parses f ∧ (∀ p ∈ first :: later, ∃ g, p.Parses g) ∧
        ∀ v : Expression → Bool,
          f.eval v = (first.earlierHolds v ||
            (first.lastHolds v && later.all fun p => p.holds v)) ∧
          (f.eval v = (given.all fun g => g.predicate.holds v) ↔
            (first.earlierHolds v = true → (later.all fun p => p.holds v) = true)) ∧
          ((∀ entry ∈ first.entries.tail, entry.1 = .and) →
            f.eval v = given.all fun g => g.predicate.holds v) ∧
          (f.eval v = true → first.holds v = true) := by
  have ok : whole.error? = none := by
    rw [← whole.failure_draft]
    exact Draft.failure_of_result hok
  have hall : ∀ v : Expression → Bool, ((given.map Given.predicate).all fun p => p.holds v)
      = given.all fun g => g.predicate.holds v := fun v => List.all_map
  refine ⟨fun hnil => ⟨h.result_of_present_eq_nil hok hnil, fun v => ?_⟩,
    fun first later hpresent => ?_⟩
  · rw [← hall v, ← Predicate.all_holds_present, hnil]
    rfl
  · obtain ⟨f, hf⟩ := h.parses ok hpresent
    refine ⟨f, hf, fun p hp => h.parses_given ok (hpresent ▸ hp), fun v => ?_⟩
    have htruth : f.eval v = (Predicate.conjoin (given.map Given.predicate)).holds v := by
      rw [hf.truth v, h.eq_conjoin]
    have hvalue := htruth.trans (Predicate.holds_conjoin v hpresent)
    have hiff := Predicate.holds_conjoin_iff v hpresent
    rw [← htruth, hall v] at hiff
    refine ⟨hvalue, hiff, fun hand => hiff.mpr fun hearlier => ?_, fun htrue => ?_⟩
    · -- Without OR the first filter has one run, and that is its last.
      rw [Predicate.earlierHolds_eq_false v hand] at hearlier
      exact absurd hearlier Bool.false_ne_true
    · have hfirst := Predicate.mem_present.mp (hpresent ▸ List.mem_cons_self : first ∈ _)
      rw [hvalue, Bool.or_eq_true, Bool.and_eq_true] at htrue
      rw [Predicate.holds_eq v hfirst.2, Bool.or_eq_true]
      exact htrue.imp_right And.left

/-- A statement with two filters, of which the first has an OR: the
conditions hold although the second filter does not, by the first
condition of the first filter. -/
theorem conjunction_iff_of_two :
    let either : Given := ⟨.tree ((Predicate.empty.raw "a").or.raw "b"), by
      exact .addExpression (.or (.addExpression .empty (.raw _))) (.raw _), []⟩
    let also : Given := ⟨.tree (Predicate.empty.raw "c"), by
      exact .addExpression .empty (.raw _), []⟩
    let whole := (Delete.ofChoices "t" [.filter either, .filter also]).conditions
    let v : Expression → Bool := fun e => e.spec == "a"
    whole.draft.result = .ok "a OR b AND c" ∧
      ∃ f, whole.Parses f ∧ f.eval v = (either.predicate.earlierHolds v ||
        (either.predicate.lastHolds v && also.predicate.holds v)) := by
  intro either also whole v
  have h : Conditions whole [either, also] := .delete "t" [.filter either, .filter also]
  have hok : whole.draft.result = .ok "a OR b AND c" := by rfl
  obtain ⟨-, hparses⟩ := h.conjunction_iff hok
  obtain ⟨f, hf, -, htruth⟩ := hparses either.predicate [also.predicate] rfl
  exact ⟨hok, f, hf, by simpa using (htruth v).1⟩

end Conditions

/-- Two filters of which the second is lost where the first condition of
the first one holds: what they build is not their conjunction. -/
theorem Delete.later_filter_lost :
    let either : Given := ⟨.tree ((Predicate.empty.raw "a").or.raw "b"), by
      exact .addExpression (.or (.addExpression .empty (.raw _))) (.raw _), []⟩
    let also : Given := ⟨.tree (Predicate.empty.raw "c"), by
      exact .addExpression .empty (.raw _), []⟩
    let whole := (Delete.ofChoices "t" [.filter either, .filter also]).conditions
    let v : Expression → Bool := fun e => e.spec == "a"
    Conditions whole [either, also] ∧ whole.draft.result = .ok "a OR b AND c" ∧
      also.predicate.holds v = false ∧ ∃ f, whole.Parses f ∧ f.eval v = true := by
  intro either also whole v
  have h : Conditions whole [either, also] := .delete "t" [.filter either, .filter also]
  obtain ⟨f, hf⟩ := h.built.sound.parses rfl (List.cons_ne_nil _ _)
  exact ⟨h, by rfl, by decide, f, hf, (hf.truth v).trans (by decide)⟩

end SqlSession
