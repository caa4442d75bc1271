import SqlSession.Proofs.Condition.Binding
import SqlSession.Proofs.Condition.Grouping
import SqlSession.Proofs.Statement.Choices
import SqlSession.Proofs.Text.Words

/-!
# `SqlSession.Proofs.Statement.Filtered`: no filter is lost

Blank conditions and empty groups are dropped wherever they turn up:
when they are inserted, when a filter is compiled or merged, when a
fragment is rendered and when a clause gets its keyword. A statement
whose filter is dropped on one of these ways reaches every row of its
table. `no_filter_lost` says that this happens to no filter that asks
for anything. It is put together from

* `Given.isEmpty_predicate_iff`: a filter becomes an empty predicate only
  if it asks for nothing (`Given.Vacuous`);
* `Predicate.infix_leaves_conjoin`: the conditions of a filter stand
  together among those of the statement;
* `Predicate.Sound.not_blank`: a predicate with entries is not rendered
  as a blank text;
* `Draft.text_joinWith_headed`: where a clause with a keyword stands in
  the text of a statement.
-/

set_option autoImplicit false

namespace SqlSession

open Text

/-! ### Conditions that are not blank -/

namespace Expression

/-- A condition with a character that is not a blank is kept. -/
theorem isEmpty_eq_false_of_mem {e : Expression} {c : Char} (hc : c ∈ e.spec.toList)
    (hblank : isBlank c = false) : e.isEmpty = false := by
  have htrim : (trim e.spec).isEmpty = false := by
    rw [Bool.eq_false_iff, Ne, isEmpty_trim_iff]
    intro h
    rw [h c hc] at hblank
    exact Bool.false_ne_true hblank.symm
  rw [isEmpty, htrim, Bool.and_false]

/-- Trimming keeps the placeholders of a template. -/
theorem isEmpty_template_trim {spec : String} (h : '?' ∈ spec.toList) (values : List Value) :
    (template (trim spec) values).isEmpty = false := by
  refine isEmpty_eq_false_of_mem (c := '?') ?_ (by decide)
  show '?' ∈ (trim spec).toList
  rw [trim, String.toList_ofList]
  exact (mem_trimChars_iff_of_not_blank (by decide)).mpr h

/-- A comparison has its placeholder, whatever its column is. -/
theorem isEmpty_compare (column operator : String) (value : Value) :
    (compare column operator value).isEmpty = false := by
  refine isEmpty_eq_false_of_mem (c := '?') ?_ (by decide)
  show '?' ∈ (quoteIdentifier column ++ operator ++ "?").toList
  rw [String.toList_append]
  exact List.mem_append_right _ List.mem_cons_self

/-- A membership test is kept, also the empty one: that carries an error
and must be reported. -/
theorem isEmpty_inList (column : String) (values : List Value) (negated : Bool) :
    (inList column values negated).isEmpty = false := by
  dsimp only [inList]
  split
  · rfl
  · refine isEmpty_eq_false_of_mem (c := '(') ?_ (by decide)
    simp [template]

/-- A test for null has its keyword. -/
theorem isEmpty_nullCheck (column : String) (negated : Bool) :
    (nullCheck column negated).isEmpty = false := by
  refine isEmpty_eq_false_of_mem (c := 'N') ?_ (by decide)
  cases negated <;> simp [nullCheck, raw]

/-- A raw text is dropped exactly if it has blanks only. -/
theorem isEmpty_raw_trim_iff {s : String} :
    (raw (trim s)).isEmpty = true ↔ Blanks s.toList := by
  show (true && (trim (trim s)).isEmpty) = true ↔ _
  rw [Bool.true_and, isEmpty_trim_iff, trim, String.toList_ofList]
  -- Trimming takes blanks away and nothing else.
  constructor
  · intro h c hc
    cases hblank : isBlank c with
    | true => rfl
    | false => rw [← hblank, h c ((mem_trimChars_iff_of_not_blank hblank).mpr hc)]
  · exact fun h c hc => h c (mem_trimChars hc)

end Expression

namespace Filter

/-- The condition of a field is never blank. -/
theorem isEmpty_compileField (key : String) (value : Value) :
    (compileField key value).isEmpty = false := by
  unfold compileField
  by_cases h : key.toList.contains '?'
  · rw [if_pos h]
    exact Expression.isEmpty_template_trim (List.contains_iff_mem.mp h) _
  · rw [if_neg h]
    obtain ⟨column, negated⟩ := splitNegation key
    cases value with
    | null => exact Expression.isEmpty_nullCheck _ _
    | list items => exact Expression.isEmpty_inList _ _ _
    | _ => exact Expression.isEmpty_compare _ _ _

/-- The condition of a text is blank exactly if the text is and nothing
is given with it. -/
theorem isEmpty_compileText_iff {s : String} {values : List Value} :
    (compileText s values).isEmpty = true ↔ Blanks s.toList ∧ values = [] := by
  unfold compileText
  by_cases h : s.toList.contains '?'
  · have hmark : '?' ∈ s.toList := List.contains_iff_mem.mp h
    rw [if_pos h, Expression.isEmpty_template_trim hmark]
    exact ⟨fun h => (nomatch h), fun h => absurd (h.1 '?' hmark) (by decide)⟩
  · rw [if_neg h]
    -- With values the text is a column name, and the condition is one about that column.
    match values with
    | [] => exact Expression.isEmpty_raw_trim_iff.trans (and_iff_left rfl).symm
    | [value] =>
        dsimp only
        rw [isEmpty_compileField]
        exact ⟨fun h => (nomatch h), fun h => (nomatch h.2)⟩
    | _ :: _ :: _ =>
        dsimp only
        rw [Expression.isEmpty_inList]
        exact ⟨fun h => (nomatch h), fun h => (nomatch h.2)⟩

end Filter

namespace Predicate

/-- The first condition of a predicate decides whether the predicate has
any. -/
theorem isEmpty_empty_addExpression (e : Expression) :
    (empty.addExpression e).isEmpty = e.isEmpty := by
  unfold Predicate.addExpression
  cases e.isEmpty <;> rfl

/-- What has entries keeps them. -/
theorem isEmpty_foldl_addExpression {p : Predicate} (h : p.isEmpty = false)
    (es : List Expression) : (es.foldl addExpression p).isEmpty = false := by
  induction es generalizing p with
  | nil => exact h
  | cons e rest ih =>
      refine ih ?_
      unfold Predicate.addExpression
      split
      · exact h
      · rw [isEmpty_eq_false, push]
        exact List.append_ne_nil_of_right_ne_nil _ (List.cons_ne_nil _ _)

end Predicate

namespace Given

/-- A filter that asks for nothing: a blank text without values, a map
without fields, a predicate without entries. -/
def Vacuous (g : Given) : Prop :=
  match g.filter with
  | .text s => Blanks s.toList ∧ g.values = []
  | .fields entries => entries = []
  | .tree p => p.entries = []

/-- Nothing else becomes an empty predicate. -/
theorem isEmpty_predicate_iff {g : Given} : g.predicate.isEmpty = true ↔ g.Vacuous := by
  obtain ⟨filter, built, values⟩ := g
  cases filter with
  | text s =>
      show (Predicate.empty.addExpression (Filter.compileText s values)).isEmpty = true ↔
        Blanks s.toList ∧ values = []
      rw [Predicate.isEmpty_empty_addExpression, Filter.isEmpty_compileText_iff]
  | fields entries =>
      show ((Filter.fields entries).compile values).isEmpty = true ↔ entries = []
      rw [Filter.compile_fields]
      cases entries with
      | nil => exact ⟨fun _ => rfl, fun _ => rfl⟩
      | cons field rest =>
          -- The condition of the first field stays, whatever the others are.
          have hfirst : (Predicate.empty.addExpression
              (Filter.compileField field.1 field.2)).isEmpty = false := by
            rw [Predicate.isEmpty_empty_addExpression, Filter.isEmpty_compileField]
          rw [List.map_cons, List.foldl_cons, Predicate.isEmpty_foldl_addExpression hfirst]
          exact ⟨fun h => (nomatch h), fun h => (nomatch h)⟩
  | tree p => exact Predicate.isEmpty_eq_true

end Given

/-! ### The conditions of a filter in the whole -/

/-- The leaves of a filter with entries stand together among those of the
whole. -/
theorem Predicate.infix_leaves_conjoin {given : List Predicate} {p : Predicate} (hp : p ∈ given)
    (hne : p.isEmpty = false) : p.leaves <:+: (conjoin given).leaves := by
  have hpresent : p ∈ present given := mem_present.mpr ⟨hp, hne⟩
  match hgiven : present given with
  | [] =>
      rw [hgiven] at hpresent
      exact nomatch hpresent
  | first :: later =>
      rw [leaves, leaves, entries_conjoin hgiven, entriesLeaves_append]
      rw [hgiven] at hpresent
      rcases List.mem_cons.mp hpresent with rfl | hlater
      · -- The first filter was taken as it is, a later one as a group.
        exact List.infix_append' [] _ _
      · obtain ⟨before, after, rfl⟩ := List.append_of_mem hlater
        have hgroup : entriesLeaves (p.asEntry :: after.map asEntry)
            = entriesLeaves p.entries ++ entriesLeaves (after.map asEntry) := rfl
        rw [List.map_append, List.map_cons, entriesLeaves_append, hgroup, ← List.append_assoc,
          ← List.append_assoc]
        exact List.infix_append _ _ _

/-! ### What is rendered is not blank -/

/-- A node that says nothing: a blank condition, unless it carries an
error, or an empty group. -/
def Node.Void : Node → Prop
  | .leaf e => e.error = none ∧ Blanks e.spec.toList
  | .group entries => entries = []

/-- A condition that is kept and carries no error has a character to show. -/
theorem Expression.not_blanks {e : Expression} (h : e.isEmpty = false) (ok : e.error = none) :
    ¬ Blanks e.spec.toList := by
  rw [Expression.isEmpty, ok, Option.isNone_none, Bool.true_and] at h
  rw [← isEmpty_trim_iff, h]
  exact Bool.false_ne_true

namespace Node.Sound

/-- A sound node says something. -/
theorem not_void {node : Node} (h : node.Sound) : ¬ node.Void := by
  cases h with
  | leaf _ hne => exact fun hvoid => Expression.not_blanks hne hvoid.1 hvoid.2
  | group hne _ => exact hne

/-- Somewhere in a node there is a condition. -/
theorem exists_leaf {node : Node} (h : node.Sound) : ∃ e ∈ node.leaves, e.isEmpty = false := by
  induction h with
  | leaf _ hne => exact ⟨_, List.mem_cons_self, hne⟩
  | group hne _ ih =>
      obtain ⟨entry, hentry⟩ := List.exists_mem_of_ne_nil _ hne
      obtain ⟨e, he, hkept⟩ := ih entry hentry
      exact ⟨e, mem_entriesLeaves hentry he, hkept⟩

end Node.Sound

namespace Predicate

/-- A predicate with entries has a condition that is kept. -/
theorem Sound.exists_leaf {p : Predicate} (h : p.Sound) (hne : p.entries ≠ []) :
    ∃ e ∈ p.leaves, e.isEmpty = false :=
  (Node.Sound.group hne h).exists_leaf

/-- A predicate with entries is not rendered as a blank text: some
condition in it is not blank. -/
theorem Sound.not_blank {p : Predicate} (h : p.Sound) (ok : p.error? = none)
    (hne : p.entries ≠ []) : ¬ Blanks p.draft.text.toList := by
  obtain ⟨e, he, hkept⟩ := h.exists_leaf hne
  have hspec := Expression.not_blanks hkept ((entriesError?_eq_none p.entries).mp ok e he)
  rw [← p.filterMap_tokens, Token.mem_filterMap_leaf?] at he
  intro hblank
  refine hspec fun c hc => hblank c ?_
  rw [h.draft_eq ok, Draft.text, String.toList_join]
  exact List.mem_flatMap.mpr ⟨e.spec, List.mem_map.mpr ⟨_, List.mem_map_of_mem he, rfl⟩, hc⟩

/-- A predicate is rendered as the empty text only if it has no entries. -/
theorem Built.build_eq_empty_iff {p : Predicate} (h : p.Built) (params : List Value) :
    (p.build params).1 = .ok "" ↔ p.entries = [] := by
  rw [p.build_eq params]
  constructor
  · intro hok
    by_cases hne : p.entries = []
    · exact hne
    · have ok := Draft.failure_of_result hok
      rw [Draft.result_of_failure_eq_none ok] at hok
      refine absurd ?_ (h.sound.not_blank (p.failure_draft ▸ ok) hne)
      rw [Except.ok.inj hok]
      exact blanks_nil
  · intro hnil
    rw [draft, hnil]
    rfl

end Predicate

namespace Draft

/-! ### Clauses one after another -/

/-- A draft as it is written behind others, after a space. -/
def spaced (d : Draft) : String := if d.isEmpty then "" else " " ++ d.text

/-- Behind a draft with a text every draft is written after a space. -/
theorem text_foldl_add {drafts : List Draft} {whole : Draft} (h : whole.failure = none)
    (hne : whole.isEmpty = false) (hdrafts : ∀ d ∈ drafts, d.failure = none) :
    (drafts.foldl (fun whole d => whole.add " " d) whole).text
      = whole.text ++ String.join (drafts.map spaced) := by
  induction drafts generalizing whole with
  | nil => simp
  | cons d rest ih =>
      have hd := hdrafts d List.mem_cons_self
      have hnext : (whole.add " " d).failure = none := by rw [failure_add, h, hd]; rfl
      have htext : (whole.add " " d).text = whole.text ++ d.spaced := by
        rw [text_add h, hne, Bool.false_or, spaced]
        cases hempty : d.isEmpty with
        | true =>
            -- What has no text leaves no space behind either.
            rw [isEmpty_eq, String.isEmpty_iff] at hempty
            rw [if_pos rfl, if_pos rfl, hempty]
        | false => rw [if_neg Bool.false_ne_true, if_neg Bool.false_ne_true, String.append_assoc]
      rw [List.foldl_cons, ih hnext (isEmpty_add_left hne " " d) fun e he =>
        hdrafts e (List.mem_cons_of_mem _ he), htext, List.map_cons, String.join_cons,
        String.append_assoc]

/-- A clause with a keyword among others: its text is found between those
of the clauses before it and of the clauses behind it. -/
theorem text_joinWith_headed {before behind : List Draft} {keyword : String} {d : Draft}
    (h : (joinWith " " (before ++ d.headed keyword :: behind)).failure = none)
    (hbefore : (joinWith " " before).isEmpty = false) (hne : d.isEmpty = false) :
    (joinWith " " (before ++ d.headed keyword :: behind)).text
      = (joinWith " " before).text ++ (" " ++ keyword ++ " ") ++ d.text
        ++ String.join (behind.map spaced) := by
  rw [failure_joinWith, List.findSome?_eq_none_iff] at h
  have hlead : (joinWith " " before).failure = none := by
    rw [failure_joinWith, List.findSome?_eq_none_iff]
    exact fun e he => h e (List.mem_append_left _ he)
  have hd : d.failure = none := by
    rw [← failure_headed keyword]
    exact h _ (List.mem_append_right _ List.mem_cons_self)
  have hheaded : d.headed keyword = plain (keyword ++ " ") ++ d := by
    rw [headed, hne, if_neg Bool.false_ne_true]
  have htext : (d.headed keyword).text = keyword ++ " " ++ d.text := by
    rw [hheaded, text_append rfl, text_plain]
  -- The clause is not empty, so it is set off from what stands before it by a space.
  have hkept : (d.headed keyword).isEmpty = false := by
    rw [hheaded, isEmpty_append rfl, hne, Bool.and_false]
  have hall : ∀ e ∈ d.headed keyword :: behind, e.failure = none :=
    fun e he => h e (List.mem_append_right _ he)
  have hspaced : (d.headed keyword).spaced = " " ++ keyword ++ " " ++ d.text := by
    rw [spaced, hkept, if_neg Bool.false_ne_true, htext, ← String.append_assoc,
      ← String.append_assoc]
  show ((before ++ d.headed keyword :: behind).foldl _ empty).text = _
  rw [List.foldl_append]
  show (List.foldl _ (joinWith " " before) _).text = _
  rw [text_foldl_add hlead hbefore hall, List.map_cons, String.join_cons, hspaced,
    ← String.append_assoc, ← String.append_assoc]

/-- What begins with a text that is not empty is not empty. -/
theorem isEmpty_joinWith_cons {d : Draft} (h : d.isEmpty = false) (separator : String)
    (rest : List Draft) : (joinWith separator (d :: rest)).isEmpty = false := by
  have hfold : ∀ whole : Draft, whole.isEmpty = false →
      (rest.foldl (fun whole d => whole.add separator d) whole).isEmpty = false := by
    induction rest with
    | nil => exact fun _ h => h
    | cons e rest ih => exact fun whole h => ih _ (isEmpty_add_left h separator e)
  rw [joinWith, List.foldl_cons, empty_add]
  exact hfold d h

end Draft

/-! ### Statements with conditions -/

/-- The clauses before the conditions. -/
def Select.before (s : Select) : List Draft :=
  [.plain s.columnsText, .plain s.forceIndexText, .plain (joinsText s.joins)]

/-- The clauses behind the conditions. -/
def Select.behind (s : Select) : List Draft :=
  [.plain s.groupText, s.groupConditions.draft.headed "HAVING", s.orderDraft,
    Select.countDraft "LIMIT" s.limit, Select.countDraft "OFFSET" s.offset,
    .plain (s.tail.getD "")]

/-- The clauses before the conditions. -/
def Update.before (u : Update) : List Draft :=
  [.plain ("UPDATE " ++ quoteTable u.table), .plain (joinsText u.joins), u.setDraft]

/-- The clauses before the conditions. -/
def Delete.before (d : Delete) : List Draft := [.plain ("DELETE FROM " ++ quoteTable d.table)]

/-- A statement that choices led to and that can have conditions: the
clauses before them, the conditions, the clauses behind them and the
filters that were given. -/
inductive Statement.Filtered :
    Statement → List Draft → Predicate → List Draft → List Given → Prop
  | select (table : String) (choices : List Select.Choice) :
      Filtered (.select (.ofChoices table choices)) (Select.ofChoices table choices).before
        (Select.ofChoices table choices).conditions (Select.ofChoices table choices).behind
        (choices.filterMap Select.Choice.given?)
  | update (table : String) (choices : List Update.Choice) :
      Filtered (.update (.ofChoices table choices)) (Update.ofChoices table choices).before
        (Update.ofChoices table choices).conditions []
        (choices.filterMap Update.Choice.given?)
  | delete (table : String) (choices : List Delete.Choice) :
      Filtered (.delete (.ofChoices table choices)) (Delete.ofChoices table choices).before
        (Delete.ofChoices table choices).conditions []
        (choices.filterMap Delete.Choice.given?)

namespace Statement.Filtered

variable {s : Statement} {before behind : List Draft} {whole : Predicate} {given : List Given}

/-- The conditions are those that the choices of the statement make. -/
theorem conditions (h : s.Filtered before whole behind given) : Conditions whole given := by
  cases h with
  | select table choices => exact .select table choices
  | update table choices => exact .update table choices
  | delete table choices => exact .delete table choices

/-- Such a statement is its clauses, with a keyword in front of the
conditions. -/
theorem build_eq (h : s.Filtered before whole behind given) :
    s.build = (Draft.joinWith " " (before ++ whole.draft.headed "WHERE" :: behind)).query := by
  cases h with
  | select table choices => rfl
  | update table choices => rfl
  | delete table choices => rfl

/-- A statement that is built has no bad condition. -/
theorem error?_of_draft
    (hdraft : (Draft.joinWith " " (before ++ whole.draft.headed "WHERE" :: behind)).failure = none) :
    whole.error? = none := by
  rw [Draft.failure_joinWith, List.findSome?_eq_none_iff] at hdraft
  have hclause := hdraft _ (List.mem_append_right _ List.mem_cons_self)
  rw [Draft.failure_headed, Predicate.failure_draft] at hclause
  exact hclause

/-- It begins with a verb. -/
theorem isEmpty_before (h : s.Filtered before whole behind given) :
    (Draft.joinWith " " before).isEmpty = false := by
  -- One letter of the verb is enough.
  have hplain : ∀ (c : Char) (text : String), c ∈ text.toList → (Draft.plain text).isEmpty = false
      := fun c text hc => by
    rw [Draft.isEmpty_eq_false_iff, Draft.text_plain]
    rintro rfl
    exact List.not_mem_nil hc
  cases h with
  | select table choices =>
      refine Draft.isEmpty_joinWith_cons (hplain 'S' _ ?_) _ _
      simp [Select.columnsText, String.toList_append]
  | update table choices =>
      refine Draft.isEmpty_joinWith_cons (hplain 'U' _ ?_) _ _
      rw [String.toList_append]
      exact List.mem_append_left _ List.mem_cons_self
  | delete table choices =>
      refine Draft.isEmpty_joinWith_cons (hplain 'D' _ ?_) _ _
      rw [String.toList_append]
      exact List.mem_append_left _ List.mem_cons_self

end Statement.Filtered

/-- In a predicate that callers built nothing is blank and no group is
empty, at any depth, so it is rendered as the empty text only if it has
no entries. And of the filters given to a statement none is lost that
asks for anything: if the statement is built, its text has the whole of
the conditions behind the keyword, these are not blank, and the
conditions of the filter stand together among them. -/
theorem no_filter_lost :
    (∀ p : Predicate, p.Built →
      (∀ node : Node, node.Inside p.entries → ¬ node.Void) ∧
      ∀ params, (p.build params).1 = .ok "" ↔ p.entries = []) ∧
    ∀ (s : Statement) (before behind : List Draft) (whole : Predicate) (given : List Given),
      s.Filtered before whole behind given → ∀ g ∈ given, ¬ g.Vacuous →
      ∀ q, s.build = .ok q → ∃ condition,
        (whole.build []).1 = .ok condition ∧ ¬ Blanks condition.toList ∧
        q.sql = (Draft.joinWith " " before).text ++ " WHERE " ++ condition
          ++ String.join (behind.map Draft.spaced) ∧
        g.predicate.leaves ≠ [] ∧ g.predicate.leaves <:+: whole.leaves := by
  refine ⟨fun p hp => ⟨fun node hnode => (hnode.sound hp.sound).not_void, hp.build_eq_empty_iff⟩,
    fun s before behind whole given h g hg hasks q hq => ?_⟩
  have hgiven : g.predicate.isEmpty = false := by
    rw [Bool.eq_false_iff, Ne, Given.isEmpty_predicate_iff]
    exact hasks
  have hleaves : g.predicate.leaves <:+: whole.leaves := by
    rw [h.conditions.eq_conjoin]
    exact Predicate.infix_leaves_conjoin (List.mem_map_of_mem hg) hgiven
  -- A condition of the filter is among those of the whole, so the whole has entries and is not
  -- rendered blank.
  obtain ⟨e, he, -⟩ := g.built_predicate.sound.exists_leaf (Predicate.isEmpty_eq_false.mp hgiven)
  have hne : whole.entries ≠ [] := by
    intro hnil
    have hmem : e ∈ whole.leaves := hleaves.subset he
    rw [Predicate.leaves, hnil] at hmem
    exact List.not_mem_nil hmem
  rw [h.build_eq] at hq
  have hdraft := Draft.failure_of_query hq
  have ok : whole.error? = none := Statement.Filtered.error?_of_draft hdraft
  have hblank := h.conditions.built.sound.not_blank ok hne
  have htext : whole.draft.isEmpty = false := by
    rw [Draft.isEmpty_eq_false_iff]
    intro hempty
    rw [hempty] at hblank
    exact hblank blanks_nil
  refine ⟨whole.draft.text, ?_, hblank, ?_, List.ne_nil_of_mem he, hleaves⟩
  · rw [whole.build_eq, Draft.result_of_failure_eq_none (whole.failure_draft.trans ok)]
  · have hsql := Draft.text_joinWith_headed hdraft h.isEmpty_before htext
    rw [Draft.query, hdraft] at hq
    rw [← Except.ok.inj hq]
    exact hsql

/-- A blank filter is no filter, and the one given behind it is the whole
condition. -/
theorem no_filter_lost_behind_blank :
    let blank : Given := ⟨.text " ", trivial, []⟩
    let asked : Given := ⟨.text "a=?", trivial, [.int 1]⟩
    let d := Delete.ofChoices "t" [.filter blank, .filter asked]
    blank.Vacuous ∧ ¬ asked.Vacuous ∧
      (d.conditions.build []).1 ≠ .ok "" ∧
      ∃ q condition, (Statement.delete d).build = .ok q ∧
        (d.conditions.build []).1 = .ok condition ∧ ¬ Blanks condition.toList ∧
        q.sql = (Draft.joinWith " " d.before).text ++ " WHERE " ++ condition
          ++ String.join ([].map Draft.spaced) ∧
        q.sql = "DELETE FROM \x60t\x60 WHERE a=?" := by
  intro blank asked d
  have hblank : blank.Vacuous := ⟨fun c hc => by rw [List.mem_singleton.mp hc]; rfl, rfl⟩
  have hasked : ¬ asked.Vacuous := fun h => nomatch h.2
  have h : (Statement.delete d).Filtered d.before d.conditions [] [blank, asked] :=
    .delete "t" [.filter blank, .filter asked]
  obtain ⟨hpredicate, hstatement⟩ := no_filter_lost
  have hbuild : (Statement.delete d).build = .ok ⟨d.draft.text, d.draft.values⟩ := by
    have hfail : d.draft.failure = none := Option.isNone_iff_eq_none.mp (by decide +kernel)
    show d.draft.query = _
    rw [Draft.query, hfail]
  obtain ⟨condition, hcondition, hne, hsql, -, -⟩ :=
    hstatement _ _ _ _ _ h asked (by simp) hasked _ hbuild
  refine ⟨hblank, hasked, fun hempty => ?_, _, condition, hbuild, hcondition, hne,
    hsql, by decide +kernel⟩
  have hentries : d.conditions.entries ≠ [] := List.isEmpty_eq_false_iff.mp (by decide +kernel)
  exact hentries (((hpredicate d.conditions h.conditions.built).2 []).mp hempty)

end SqlSession
