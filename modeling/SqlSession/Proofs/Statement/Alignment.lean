import SqlSession.Proofs.Condition.Placeholders
import SqlSession.Proofs.Statement.Choices

/-!
# `SqlSession.Proofs.Statement.Alignment`: parameters meet their placeholders

A statement binds values in the single conditions of its WHERE and
HAVING, in its assignments, its rows, its limit and its offset:
`Statement.pieces` lists them in the order in which they are written.
All else is text that nothing is bound to, taken over from the caller.
`Statement.MarkFree` says that this text has no placeholders.

`Statement.parameters_aligned` is the main statement: whatever a caller
chose, a statement that can be built has its parameters in the order of
its placeholders, one for each.
-/

set_option autoImplicit false

namespace SqlSession

/-! ### Joins -/

/-- The text of a join has no placeholders. -/
structure Join.MarkFree (j : Join) : Prop where
  target : placeholderCount j.target = 0
  condition : placeholderCount j.condition = 0
  columns : ∀ column ∈ j.columns, placeholderCount column = 0

/-- A join of parts without placeholders has none. -/
theorem Join.markFree_on {kind : JoinKind} {target : String} {parts columns : List String}
    (htarget : placeholderCount target = 0) (hparts : ∀ part ∈ parts, placeholderCount part = 0)
    (hcolumns : ∀ column ∈ columns, placeholderCount column = 0) :
    (Join.on kind target parts columns).MarkFree := by
  refine ⟨htarget, ?_, hcolumns⟩
  refine placeholderCount_intercalate_map (by decide) fun part hpart => ?_
  exact placeholderCount_quoteDotted (by rw [placeholderCount_trim, hparts part hpart])

/-- A join without placeholders in its names has none in its text. -/
theorem Join.placeholderCount_text {j : Join} (h : j.MarkFree) : placeholderCount j.text = 0 := by
  have hkind : placeholderCount j.kind.text = 0 := by cases j.kind <;> decide
  have hjoin : placeholderCount " JOIN " = 0 := by decide
  have hon : placeholderCount " ON " = 0 := by decide
  rw [Join.text, placeholderCount_append, placeholderCount_append, placeholderCount_append,
    placeholderCount_append, hkind, hjoin, hon, h.condition, quoteTable,
    placeholderCount_quoteIdentifier h.target]

/-- Nor have any number of joins. -/
theorem placeholderCount_joinsText {joins : List Join} (h : ∀ j ∈ joins, j.MarkFree) :
    placeholderCount (joinsText joins) = 0 :=
  placeholderCount_intercalate_map (by decide) fun j hj => Join.placeholderCount_text (h j hj)

/-- A keyword and a quoted table have no placeholders, if the name has
none. -/
theorem placeholderCount_prefixed {keyword table : String} (hword : placeholderCount keyword = 0)
    (htable : placeholderCount table = 0) :
    placeholderCount (keyword ++ quoteTable table) = 0 := by
  rw [placeholderCount_append, hword, quoteTable, placeholderCount_quoteIdentifier htable]

/-! ### Reading rows -/

/-- A word of a text has no placeholder that the text does not have. -/
theorem placeholderCount_words {s word : String} (h : placeholderCount s = 0)
    (hword : word ∈ Text.words s) : placeholderCount word = 0 := by
  rw [placeholderCount_eq_zero] at h ⊢
  intro hmark
  obtain ⟨piece, hpiece, rfl⟩ := List.mem_map.mp hword
  rw [String.toList_ofList] at hmark
  exact h (Text.mem_splitWhere (List.mem_filter.mp hpiece).1 hmark)

/-- The column of an order entry is a word of the entry. -/
theorem Order.column_mem_words {entry : String} {o : Order} (h : Order.parse? entry = some o) :
    o.column ∈ Text.words entry := by
  unfold Order.parse? at h
  split at h
  · next column hwords =>
    rw [hwords, ← Option.some.inj h]
    exact List.mem_cons_self
  · next column word hwords =>
    obtain ⟨direction, -, rfl⟩ := Option.map_eq_some_iff.mp h
    rw [hwords]
    exact List.mem_cons_self
  · exact nomatch h

/-- An order entry without placeholders has nothing to bind. -/
theorem Order.weaves_draft {entry : String} (h : placeholderCount entry = 0) :
    (Order.draft entry).Weaves [] := by
  unfold Order.draft
  cases hparse : Order.parse? entry with
  | none => exact Draft.weaves_failed _ _
  | some o =>
      refine Draft.weaves_plain ?_
      have hcolumn := placeholderCount_words h (Order.column_mem_words hparse)
      have hdirection : placeholderCount (" " ++ o.direction.text) = 0 := by
        cases o.direction <;> decide
      rw [Order.text, String.append_assoc, placeholderCount_append,
        placeholderCount_quoteIdentifier hcolumn, hdirection]

namespace Select

/-- The texts that bind nothing have no placeholders. -/
structure MarkFree (s : Select) : Prop where
  table : placeholderCount s.table = 0
  quantifier : ∀ word ∈ s.quantifier, placeholderCount word = 0
  forceIndex : ∀ index ∈ s.forceIndex, placeholderCount index = 0
  columns : ∀ column ∈ s.columns, placeholderCount column = 0
  computed : ∀ c ∈ s.computed, placeholderCount c.1 = 0 ∧ placeholderCount c.2 = 0
  joins : ∀ j ∈ s.joins, j.MarkFree
  conditions : ∀ e ∈ s.conditions.leaves, e.MarkFree
  groups : ∀ column ∈ s.groups, placeholderCount column = 0
  groupConditions : ∀ e ∈ s.groupConditions.leaves, e.MarkFree
  orders : ∀ entry ∈ s.orders, placeholderCount entry = 0
  tail : ∀ tail ∈ s.tail, placeholderCount tail = 0

/-- The piece of a count behind a keyword. -/
def countPieces (keyword : String) : Option Int64 → List Fragment
  | some n => [⟨keyword ++ " ?", [.int n]⟩]
  | none => []

/-- What binds values, in order. -/
def pieces (s : Select) : List Fragment :=
  s.conditions.leaves.map Expression.fragment ++
    s.groupConditions.leaves.map Expression.fragment ++
    countPieces "LIMIT" s.limit ++ countPieces "OFFSET" s.offset

variable {s : Select}

/-- The columns that are read have no placeholders, also those of joins
and those that stand for all. -/
theorem placeholderCount_resultColumns (h : s.MarkFree) :
    ∀ column ∈ s.resultColumns, placeholderCount column = 0 := by
  have hown := placeholderCount_quoteSegment_tableAlias h.table
  intro column hcolumn
  -- The table's columns come first, then those of the joins, then the computed ones.
  dsimp only [resultColumns] at hcolumn
  rw [List.mem_append, List.mem_append] at hcolumn
  rcases hcolumn with (htable | hjoin) | hcomputed
  · split at htable
    · rw [List.mem_singleton.mp htable, placeholderCount_append, hown]
      decide
    · obtain ⟨name, hname, rfl⟩ := List.mem_map.mp htable
      exact placeholderCount_qualifyColumn hown (h.columns name hname)
  · obtain ⟨j, hj, hjcolumn⟩ := List.mem_flatMap.mp hjoin
    obtain ⟨name, hname, rfl⟩ := List.mem_map.mp hjcolumn
    exact placeholderCount_qualifyColumn
      (placeholderCount_quoteSegment_tableAlias (h.joins j hj).target)
      ((h.joins j hj).columns name hname)
  · obtain ⟨⟨expression, name⟩, hpair, rfl⟩ := List.mem_map.mp hcomputed
    obtain ⟨hexpression, hname⟩ := h.computed _ hpair
    have has : placeholderCount " AS " = 0 := by decide
    rw [placeholderCount_append, placeholderCount_append, hexpression, has,
      placeholderCount_quoteIdentifier hname]

/-- What a select begins with, up to its table, has no placeholders. -/
theorem placeholderCount_columnsText (h : s.MarkFree) : placeholderCount s.columnsText = 0 := by
  have htable : placeholderCount
      (if s.table.isEmpty then "" else " FROM " ++ quoteTable s.table) = 0 := by
    split
    · decide
    · exact placeholderCount_prefixed (by decide) h.table
  have hcolumns : placeholderCount (", ".intercalate s.resultColumns) = 0 :=
    placeholderCount_intercalate_eq_zero (by decide) (placeholderCount_resultColumns h)
  have hselect : placeholderCount "SELECT " = 0 := by decide
  dsimp only [columnsText]
  rw [placeholderCount_append, placeholderCount_append, placeholderCount_append, hselect,
    hcolumns, htable]
  split
  · next word hword =>
    rw [placeholderCount_append, h.quantifier word hword]
    decide
  · decide

/-- An index has no placeholders. -/
theorem placeholderCount_forceIndexText (h : s.MarkFree) :
    placeholderCount s.forceIndexText = 0 := by
  unfold forceIndexText
  cases hindex : s.forceIndex with
  | none => decide
  | some index =>
      show placeholderCount ("FORCE INDEX (" ++ quoteIdentifier index ++ ")") = 0
      rw [placeholderCount_append, placeholderCount_append,
        placeholderCount_quoteIdentifier (h.forceIndex index hindex)]
      decide

/-- Nor have the columns to group by. -/
theorem placeholderCount_groupText (h : s.MarkFree) : placeholderCount s.groupText = 0 := by
  unfold groupText
  split
  · decide
  · have hcolumns : placeholderCount (", ".intercalate (s.groups.map quoteIdentifier)) = 0 :=
      placeholderCount_intercalate_map (by decide) fun column hcolumn =>
        placeholderCount_quoteIdentifier (h.groups column hcolumn)
    rw [placeholderCount_append, hcolumns]
    decide

/-- Nor have the order entries. -/
theorem weaves_orderDraft (h : s.MarkFree) : s.orderDraft.Weaves [] := by
  have hjoined : (Draft.joinWith ", " (s.orders.map Order.draft)).Weaves
      (s.orders.flatMap fun _ => []) :=
    .joinWith (by decide) fun entry hentry => Order.weaves_draft (h.orders entry hentry)
  -- No entry is a piece, so neither are all of them.
  rw [List.flatMap_eq_nil_iff.mpr fun _ _ => rfl] at hjoined
  exact hjoined.headed (by decide)

/-- A limit that is set has one placeholder for its number; one that is
not set is not written. -/
theorem weaves_countDraft {keyword : String} (h : placeholderCount (keyword ++ " ?") = 1)
    (n : Option Int64) : (countDraft keyword n).Weaves (countPieces keyword n) := by
  cases n with
  | none => exact Draft.weaves_empty
  | some n => exact Draft.weaves_bound h

/-- The tail of a select is taken over as it is, and has no placeholders. -/
theorem placeholderCount_tail (h : s.MarkFree) : placeholderCount (s.tail.getD "") = 0 := by
  cases htail : s.tail with
  | none => decide
  | some tail => exact h.tail tail htail

/-- The clauses of a statement that reads rows follow each other with
their pieces. -/
theorem weaves_draft (hbuilt : s.conditions.Built) (hgroups : s.groupConditions.Built)
    (h : s.MarkFree) : s.draft.Weaves s.pieces := by
  have hsep : placeholderCount " " = 0 := by decide
  have hwhere : (s.conditions.draft.headed "WHERE").Weaves _ :=
    (hbuilt.weaves h.conditions).headed (by decide)
  have hhaving : (s.groupConditions.draft.headed "HAVING").Weaves _ :=
    (hgroups.weaves h.groupConditions).headed (by decide)
  have hlimit : (countDraft "LIMIT" s.limit).Weaves _ := weaves_countDraft (by decide) s.limit
  have hoffset : (countDraft "OFFSET" s.offset).Weaves _ := weaves_countDraft (by decide) s.offset
  have hdraft := Draft.weaves_empty
    |>.add hsep (Draft.weaves_plain (placeholderCount_columnsText h))
    |>.add hsep (Draft.weaves_plain (placeholderCount_forceIndexText h))
    |>.add hsep (Draft.weaves_plain (placeholderCount_joinsText h.joins))
    |>.add hsep hwhere
    |>.add hsep (Draft.weaves_plain (placeholderCount_groupText h))
    |>.add hsep hhaving
    |>.add hsep (weaves_orderDraft h)
    |>.add hsep hlimit
    |>.add hsep hoffset
    |>.add hsep (Draft.weaves_plain (placeholderCount_tail h))
  simp only [List.nil_append, List.append_nil] at hdraft
  -- Unfolded by hand: left to itself the unifier opens the clauses instead of the fold.
  simp only [draft, pieces, Draft.joinWith, List.foldl_cons, List.foldl_nil]
  exact hdraft

end Select

/-! ### Changing rows -/

namespace Assignment

/-- An assignment as a piece of a statement. -/
def fragment (a : Assignment) : Fragment :=
  if a.isTemplate then ⟨Text.trim a.target, a.value.flatten⟩
  else ⟨quoteIdentifier a.target ++ "=?", [a.value]⟩

/-- An assignment binds as many values as it has placeholders: those of a
text of its own are counted, and a column has none besides its own. -/
theorem weaves_draft (a : Assignment) : a.draft.Weaves [a.fragment] := by
  dsimp only [draft, fragment]
  by_cases htemplate : a.isTemplate
  · rw [if_pos htemplate, if_pos htemplate]
    split
    · next hcount => exact Draft.weaves_bound ((placeholderCount_trim _).trans hcount)
    · exact Draft.weaves_failed _ _
  · rw [if_neg htemplate, if_neg htemplate]
    refine Draft.weaves_bound ?_
    -- A target that is no text of its own has no placeholder, and quoting adds none.
    have hcolumn := Filter.placeholderCount_of_not_contains htemplate
    have hmark : placeholderCount "=?" = 1 := by decide
    rw [placeholderCount_append, placeholderCount_quoteIdentifier hcolumn, hmark]
    rfl

end Assignment

namespace Update

/-- The texts that bind nothing have no placeholders. -/
structure MarkFree (u : Update) : Prop where
  table : placeholderCount u.table = 0
  joins : ∀ j ∈ u.joins, j.MarkFree
  conditions : ∀ e ∈ u.conditions.leaves, e.MarkFree

/-- What binds values, in order. -/
def pieces (u : Update) : List Fragment :=
  u.assignments.map Assignment.fragment ++ u.conditions.leaves.map Expression.fragment

variable {u : Update}

/-- Each assignment has its values at its placeholders. -/
theorem weaves_setDraft (u : Update) :
    u.setDraft.Weaves (u.assignments.map Assignment.fragment) := by
  unfold setDraft
  split
  · exact Draft.weaves_failed _ _
  · have hjoined : (Draft.joinWith ", " (u.assignments.map Assignment.draft)).Weaves
        (u.assignments.flatMap fun a => [a.fragment]) :=
      .joinWith (by decide) fun a _ => a.weaves_draft
    rw [← List.map_eq_flatMap] at hjoined
    have hset : (Draft.plain "SET ").Weaves [] := Draft.weaves_plain (by decide)
    exact hset.append hjoined

/-- An update has its assignments first and its conditions after them. -/
theorem weaves_draft (hbuilt : u.conditions.Built) (h : u.MarkFree) :
    u.draft.Weaves u.pieces := by
  have hsep : placeholderCount " " = 0 := by decide
  have hhead : placeholderCount ("UPDATE " ++ quoteTable u.table) = 0 :=
    placeholderCount_prefixed (by decide) h.table
  have hwhere : (u.conditions.draft.headed "WHERE").Weaves _ :=
    (hbuilt.weaves h.conditions).headed (by decide)
  have hdraft := Draft.weaves_empty
    |>.add hsep (Draft.weaves_plain hhead)
    |>.add hsep (Draft.weaves_plain (placeholderCount_joinsText h.joins))
    |>.add hsep u.weaves_setDraft
    |>.add hsep hwhere
  -- The heading and the joins bind nothing, so their pieces are gone.
  simp only [List.nil_append, List.append_nil] at hdraft
  simp only [draft, pieces, Draft.joinWith, List.foldl_cons, List.foldl_nil]
  exact hdraft

end Update

/-! ### Removing rows -/

namespace Delete

/-- The texts that bind nothing have no placeholders. -/
structure MarkFree (d : Delete) : Prop where
  table : placeholderCount d.table = 0
  conditions : ∀ e ∈ d.conditions.leaves, e.MarkFree

/-- What binds values, in order. -/
def pieces (d : Delete) : List Fragment := d.conditions.leaves.map Expression.fragment

/-- A delete has its conditions. -/
theorem weaves_draft {d : Delete} (hbuilt : d.conditions.Built) (h : d.MarkFree) :
    d.draft.Weaves d.pieces := by
  have hsep : placeholderCount " " = 0 := by decide
  have hhead : placeholderCount ("DELETE FROM " ++ quoteTable d.table) = 0 :=
    placeholderCount_prefixed (by decide) h.table
  have hwhere : (d.conditions.draft.headed "WHERE").Weaves _ :=
    (hbuilt.weaves h.conditions).headed (by decide)
  have hdraft := Draft.weaves_empty
    |>.add hsep (Draft.weaves_plain hhead)
    |>.add hsep hwhere
  simp only [List.nil_append] at hdraft
  simp only [draft, pieces, Draft.joinWith, List.foldl_cons, List.foldl_nil]
  exact hdraft

end Delete

/-! ### Adding rows -/

namespace Insert

/-- The texts that bind nothing have no placeholders. -/
structure MarkFree (ins : Insert) : Prop where
  table : placeholderCount ins.table = 0
  columns : ∀ column ∈ ins.columns, placeholderCount column = 0

/-- One row as a piece of a statement. -/
def rowFragment (ins : Insert) (values : List Value) : Fragment :=
  ⟨"(" ++ ",".intercalate (ins.columns.map fun _ => "?") ++ ")", values⟩

/-- What binds values, in order. -/
def pieces (ins : Insert) : List Fragment := ins.rows.map ins.rowFragment

/-- A row has a placeholder for each column, and a value for each. -/
theorem weaves_rowDraft {ins : Insert} {values : List Value}
    (h : values.length = ins.columns.length) :
    (ins.rowDraft values).Weaves [ins.rowFragment values] := by
  have hopen : placeholderCount "(" = 0 := by decide
  have hclose : placeholderCount ")" = 0 := by decide
  refine Draft.weaves_bound ?_
  rw [placeholderCount_append, placeholderCount_append, placeholderCount_marks, hopen, hclose, h,
    Nat.zero_add, Nat.add_zero]

/-- An insert has its rows: one placeholder for each column, and one value
for each. -/
theorem weaves_draft {ins : Insert} (heven : ins.Even) (h : ins.MarkFree) :
    ins.draft.Weaves ins.pieces := by
  unfold draft
  split
  · exact Draft.weaves_failed _ _
  · have hcolumns : placeholderCount (", ".intercalate (ins.columns.map quoteIdentifier)) = 0 :=
      placeholderCount_intercalate_map (by decide) fun column hcolumn =>
        placeholderCount_quoteIdentifier (h.columns column hcolumn)
    have hhead : placeholderCount ("INSERT INTO " ++ quoteTable ins.table) = 0 :=
      placeholderCount_prefixed (by decide) h.table
    have hrows : (Draft.joinWith ", " (ins.rows.map ins.rowDraft)).Weaves
        (ins.rows.flatMap fun values => [ins.rowFragment values]) :=
      .joinWith (by decide) fun values hvalues => weaves_rowDraft (heven values hvalues)
    rw [← List.map_eq_flatMap] at hrows
    -- What stands before the rows is names between commas.
    refine (Draft.weaves_plain ?_).append hrows
    rw [placeholderCount_append, placeholderCount_append, placeholderCount_append, hhead, hcolumns]
    decide

end Insert

/-! ### Statements -/

namespace Statement

/-- The texts that bind nothing have no placeholders. A statement that is
written already is not put together from texts. -/
def MarkFree : Statement → Prop
  | .select s => s.MarkFree
  | .update u => u.MarkFree
  | .delete d => d.MarkFree
  | .insert ins => ins.MarkFree
  | .written _ => True

/-- What binds values in a statement, in order. -/
def pieces : Statement → List Fragment
  | .select s => s.pieces
  | .update u => u.pieces
  | .delete d => d.pieces
  | .insert ins => ins.pieces
  | .written _ => []

/-- In every statement that can be built the parameters are aligned with
the placeholders, provided that the texts that bind nothing have none.
For the conditions of compiled texts and of compiled fields nothing has
to be provided. -/
theorem parameters_aligned :
    (∀ (s : Statement) (q : Query), s.Chosen → s.MarkFree → s.build = .ok q →
      q.Aligned s.pieces) ∧
    (∀ (text : String) (values : List Value),
      ∀ e ∈ ((Filter.text text).compile values).leaves, e.MarkFree) ∧
    (∀ (entries : List (String × Value)) (values : List Value),
      ∀ e ∈ ((Filter.fields entries).compile values).leaves, e.MarkFree) := by
  refine ⟨fun s q hchosen hfree hq => ?_, Filter.markFree_text, Filter.markFree_fields⟩
  -- Each kind of statement is woven from its own pieces; what is woven is aligned.
  cases hchosen with
  | select table choices =>
      have hbuilt := (Conditions.select table choices).built
      have hgroups := (Conditions.selectGroups table choices).built
      exact (Select.weaves_draft hbuilt hgroups hfree).query_aligned hq
  | update table choices =>
      exact (Update.weaves_draft (Conditions.update table choices).built hfree).query_aligned hq
  | delete table choices =>
      exact (Delete.weaves_draft (Conditions.delete table choices).built hfree).query_aligned hq
  | insert table choices =>
      exact (Insert.weaves_draft (Insert.even_ofChoices table choices) hfree).query_aligned hq

/-- A join, two assignments and a filter whose values come as a list. -/
theorem parameters_aligned_update :
    let u := Update.ofChoices "t" [
      .addJoin .inner "u" ["t.id", "u.id"] [],
      .set "n=n+?" (.int 1),
      .set "m" (.int 2),
      .filter ⟨.text "a=? OR b=?", trivial, [.list [.int 3, .int 4]]⟩]
    ∃ q, (Statement.update u).build = .ok q ∧ q.Aligned (Statement.update u).pieces ∧
      q.sql = "UPDATE \x60t\x60 INNER JOIN \x60u\x60 ON \x60t\x60.\x60id\x60=\x60u\x60.\x60id\x60 " ++
        "SET n=n+?, \x60m\x60=? WHERE a=? OR b=?" ∧
      q.params = [.int 1, .int 2, .int 3, .int 4] := by
  intro u
  have hfail : u.draft.failure = none := Option.isNone_iff_eq_none.mp (by decide +kernel)
  have hbuild : (Statement.update u).build = .ok ⟨u.draft.text, u.draft.values⟩ := by
    show u.draft.query = _
    rw [Draft.query, hfail]
  have hfree : (Statement.update u).MarkFree := by
    refine ⟨by decide, fun j hj => ?_, ?_⟩
    · rw [List.mem_singleton.mp hj]
      exact Join.markFree_on (by decide) (by decide) (by decide)
    · exact Filter.markFree_text "a=? OR b=?" [.list [.int 3, .int 4]]
  exact ⟨_, hbuild, parameters_aligned.1 _ _ (.update _ _) hfree hbuild, by decide +kernel, rfl⟩

end Statement

end SqlSession
