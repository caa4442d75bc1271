import SqlSession.Proofs.Identifier.Segments
import SqlSession.Proofs.Statement.Filtered

/-!
# `SqlSession.Proofs.Statement.Qualified`: columns under the names of tables

The columns of a result are written under a name of their table, unless
they name one themselves. `Select.selected` lists them with their
tables, the table of the statement first and then the joined ones, and
`Select.sql_eq` shows where both are in the text: the columns behind the
verb, under `qualifier`; the tables behind `FROM` and `JOIN`, where
`introduced` is the name that each of them gets.

`Select.columns_under_introduced_iff` is the main statement: the two
names are one exactly for the tables that are addressable.
`Select.schema_table_misqualified` is a table of a schema, which is not.
-/

set_option autoImplicit false

namespace SqlSession

/-! ### Columns with their tables -/

/-- A column of a result. -/
inductive Selected where
  | all (table : String)
  | under (table column : String)
  | addressed (column : String)
  | computed (expression name : String)
  deriving DecidableEq

namespace Selected

/-- A column of a table: one with a dot names its table itself. -/
def ofColumn (table column : String) : Selected :=
  if column.toList.contains '.' then .addressed column else .under table column

/-- The table whose name the column is put under. -/
def table? : Selected → Option String
  | .all table => some table
  | .under table _ => some table
  | _ => none

/-- The text of a column, with a name for each table. -/
def text (nameOf : String → String) : Selected → String
  | .all table => nameOf table ++ ".*"
  | .under table column => nameOf table ++ "." ++ quoteIdentifier column
  | .addressed column => quoteIdentifier column
  | .computed expression name => expression ++ " AS " ++ quoteIdentifier name

/-- Qualifying a column writes it under the name of its table, unless it
names one itself. -/
theorem qualifyColumn_eq (table column : String) :
    qualifyColumn (quoteSegment (tableAlias table)) column
      = (ofColumn table column).text qualifier := by
  unfold qualifyColumn ofColumn
  split <;> rfl

/-- A column is put under its own table or under none. -/
theorem eq_of_mem_table?_ofColumn {table column other : String}
    (h : (ofColumn table column).table? = some other) : other = table := by
  unfold ofColumn at h
  split at h
  · exact nomatch h
  · exact (Option.some.inj h).symm

/-- A column has the same text under two names of its table only if they
are the same. -/
theorem text_eq_text_iff {nameOf nameOf' : String → String} {c : Selected} :
    c.text nameOf = c.text nameOf' ↔
      ∀ table, c.table? = some table → nameOf table = nameOf' table := by
  cases c with
  | all table =>
      simp only [text, table?, String.append_left_inj, Option.some.injEq, forall_eq']
  | under table column =>
      simp only [text, table?, String.append_left_inj, Option.some.injEq, forall_eq']
  | addressed column => exact iff_of_true rfl fun _ h => nomatch h
  | computed expression name => exact iff_of_true rfl fun _ h => nomatch h

end Selected

namespace Select

/-- The columns of the result with their tables. -/
def selected (s : Select) : List Selected :=
  (if s.columns.isEmpty && s.computed.isEmpty then [.all s.table]
    else s.columns.map (Selected.ofColumn s.table)) ++
  s.joins.flatMap (fun j => j.columns.map (Selected.ofColumn j.target)) ++
  s.computed.map fun (expression, name) => .computed expression name

variable {s : Select}

/-- The columns of a result are the selected ones, each under the name of
its table. -/
theorem resultColumns_eq (s : Select) :
    s.resultColumns = s.selected.map (Selected.text qualifier) := by
  have hcolumns (table : String) (columns : List String) :
      columns.map (qualifyColumn (quoteSegment (tableAlias table)))
        = (columns.map (Selected.ofColumn table)).map (Selected.text qualifier) := by
    rw [List.map_map]
    exact List.map_congr_left fun column _ => Selected.qualifyColumn_eq table column
  have hjoins : s.joins.flatMap Join.qualifiedColumns
      = (s.joins.flatMap fun j => j.columns.map (Selected.ofColumn j.target)).map
          (Selected.text qualifier) := by
    rw [List.map_flatMap]
    exact congrArg (List.flatMap · s.joins) (funext fun j => hcolumns j.target j.columns)
  have hcomputed : (s.computed.map fun (expression, name) =>
        expression ++ " AS " ++ quoteIdentifier name)
      = (s.computed.map fun (expression, name) => Selected.computed expression name).map
          (Selected.text qualifier) := by
    rw [List.map_map]
    rfl
  rw [selected, List.map_append, List.map_append, ← hjoins, ← hcomputed]
  -- With no column chosen the statement selects all of its table.
  dsimp only [resultColumns]
  split
  · rfl
  · rw [hcolumns]

/-- The columns are put under names of the statement's tables. -/
theorem table_of_selected {c : Selected} {table : String} (hc : c ∈ s.selected)
    (htable : c.table? = some table) : table = s.table ∨ ∃ j ∈ s.joins, j.target = table := by
  rw [selected, List.mem_append, List.mem_append] at hc
  rcases hc with (hown | hjoin) | hcomputed
  · left
    split at hown
    · rw [List.mem_singleton.mp hown] at htable
      exact (Option.some.inj htable).symm
    · obtain ⟨column, -, rfl⟩ := List.mem_map.mp hown
      exact Selected.eq_of_mem_table?_ofColumn htable
  · right
    obtain ⟨j, hj, hcolumn⟩ := List.mem_flatMap.mp hjoin
    obtain ⟨column, -, rfl⟩ := List.mem_map.mp hcolumn
    exact ⟨j, hj, (Selected.eq_of_mem_table?_ofColumn htable).symm⟩
  · -- A computed column is under no table.
    obtain ⟨pair, -, rfl⟩ := List.mem_map.mp hcomputed
    exact nomatch htable

/-! ### Where the tables are named -/

/-- What names the table of the statement. -/
def fromText (s : Select) : String :=
  if s.table.isEmpty then ""
  else " FROM " ++ (Identifier.parse s.table).lead ++ introduced s.table

/-- What names the joined tables, with their conditions. -/
def joinTexts (s : Select) : List String :=
  s.joins.map fun j =>
    j.kind.text ++ " JOIN " ++ (Identifier.parse j.target).lead ++ introduced j.target ++
      " ON " ++ j.condition

/-- The verb is followed by the columns and then by the table. The word
between them is the quantifier, if there is one. -/
theorem columnsText_eq (s : Select) : ∃ word, s.columnsText
    = "SELECT " ++ word ++ ", ".intercalate (s.selected.map (Selected.text qualifier)) ++
      s.fromText := by
  -- A statement may be of no table, and then has no such clause.
  have hfrom : (if s.table.isEmpty then "" else " FROM " ++ quoteTable s.table) = s.fromText := by
    unfold fromText
    split
    · rfl
    · rw [quoteTable, quoteIdentifier, Identifier.quoted_eq, ← String.append_assoc]
      rfl
  dsimp only [columnsText]
  rw [hfrom, resultColumns_eq]
  exact ⟨_, rfl⟩

/-- Every join names its table before its condition. -/
theorem joinsText_eq (s : Select) : joinsText s.joins = " ".intercalate s.joinTexts := by
  refine congrArg _ (List.map_congr_left fun j _ => ?_)
  rw [Join.text, quoteTable, quoteIdentifier, Identifier.quoted_eq, ← String.append_assoc]
  rfl

/-- A selection begins with its verb. -/
theorem isEmpty_columnsText (s : Select) : (Draft.plain s.columnsText).isEmpty = false := by
  obtain ⟨word, htext⟩ := s.columnsText_eq
  rw [Draft.isEmpty_eq_false_iff, Draft.text_plain, htext]
  intro h
  have hverb := (String.append_eq_empty_iff.mp (String.append_eq_empty_iff.mp
    (String.append_eq_empty_iff.mp h).1).1).1
  exact absurd hverb (by decide)

/-- The text of a statement begins with its columns, its table and its
joins. -/
theorem sql_eq {q : Query} (hq : (Statement.select s).build = .ok q) : ∃ word rest, q.sql
    = "SELECT " ++ word ++ ", ".intercalate (s.selected.map (Selected.text qualifier)) ++
      s.fromText ++ (Draft.plain s.forceIndexText).spaced ++
      (Draft.plain (" ".intercalate s.joinTexts)).spaced ++ rest := by
  have hquery : s.draft.query = .ok q := hq
  obtain ⟨hfail, hsql, -⟩ := Draft.query_eq_ok_iff.mp hquery
  have hok := Draft.failure_of_joinWith hfail
  have hplain : (Draft.plain s.columnsText).failure = none := rfl
  obtain ⟨word, htext⟩ := s.columnsText_eq
  -- The columns are never empty, so each further clause is put behind a blank or left out.
  have hdraft : s.draft.text = s.columnsText ++ String.join ([
      .plain s.forceIndexText, .plain (joinsText s.joins),
      s.conditions.draft.headed "WHERE", .plain s.groupText,
      s.groupConditions.draft.headed "HAVING", s.orderDraft, countDraft "LIMIT" s.limit,
      countDraft "OFFSET" s.offset, .plain (s.tail.getD "")].map Draft.spaced) := by
    rw [draft, Draft.joinWith, List.foldl_cons, Draft.empty_add,
      Draft.text_foldl_add hplain s.isEmpty_columnsText fun d hd =>
        hok d (List.mem_cons_of_mem _ hd), Draft.text_plain]
  rw [List.map_cons, List.map_cons, String.join_cons, String.join_cons, joinsText_eq,
    ← String.append_assoc, ← String.append_assoc, htext] at hdraft
  exact ⟨word, _, hsql.symm.trans hdraft⟩

/-- A statement that can be built begins with its columns, each under the
`qualifier` of its table if it names none itself, and with the tables,
for each of which a name is `introduced`; the columns are put under
names of tables of the statement. The columns of the whole statement are
under the introduced names exactly if all tables that columns are put
under are addressable, and so is it for each table on its own, however
its reference is written. -/
theorem columns_under_introduced_iff (s : Select) (q : Query)
    (hq : (Statement.select s).build = .ok q) :
    (∃ word rest, q.sql
      = "SELECT " ++ word ++ ", ".intercalate (s.selected.map (Selected.text qualifier)) ++
        s.fromText ++ (Draft.plain s.forceIndexText).spaced ++
        (Draft.plain (" ".intercalate s.joinTexts)).spaced ++ rest) ∧
    (∀ c ∈ s.selected, ∀ table, c.table? = some table →
      table = s.table ∨ ∃ j ∈ s.joins, j.target = table) ∧
    (s.selected.map (Selected.text qualifier) = s.selected.map (Selected.text introduced) ↔
      ∀ c ∈ s.selected, ∀ table, c.table? = some table → Addressable table) ∧
    ∀ table, qualifier table = introduced table ↔ Addressable table := by
  refine ⟨sql_eq hq, fun c hc table => table_of_selected hc, ?_, qualifier_eq_introduced_iff⟩
  rw [List.map_inj_left]
  simp only [Selected.text_eq_text_iff, qualifier_eq_introduced_iff]

/-- A table of a schema with an alias, and a joined one between
backticks. -/
theorem columns_under_introduced_iff_of_two :
    let s := Select.ofChoices "db.tb AS t" [.withColumns ["id", "u.age"],
      .addJoin .left "\x60db\x60.\x60u\x60" ["t.id", "\x60db\x60.\x60u\x60.id"] ["name"]]
    ∃ q, (Statement.select s).build = .ok q ∧
      s.selected.map (Selected.text qualifier) = s.selected.map (Selected.text introduced) ∧
      q.sql = "SELECT \x60t\x60.\x60id\x60, \x60u\x60.\x60age\x60, " ++
        "\x60db\x60.\x60u\x60.\x60name\x60 " ++
        "FROM \x60db\x60.\x60tb\x60 AS \x60t\x60 LEFT JOIN \x60db\x60.\x60u\x60 " ++
        "ON \x60t\x60.\x60id\x60=\x60db\x60.\x60u\x60.\x60id\x60" := by
  intro s
  have hfail : s.draft.failure = none := Option.isNone_iff_eq_none.mp (by decide +kernel)
  have hbuild : (Statement.select s).build = .ok ⟨s.draft.text, s.draft.values⟩ := by
    show s.draft.query = _
    exact Draft.query_of_failure_eq_none hfail
  have hselected : s.selected = [.under "db.tb AS t" "id", .addressed "u.age",
      .under "\x60db\x60.\x60u\x60" "name"] := by decide +kernel
  obtain ⟨-, -, hall, -⟩ := columns_under_introduced_iff s _ hbuild
  refine ⟨_, hbuild, hall.mpr fun c hc table htable => ?_, by decide +kernel⟩
  have hnamed : table ∈ ["db.tb AS t", "\x60db\x60.\x60u\x60"] := by
    rw [hselected] at hc
    simp only [List.mem_cons, List.not_mem_nil, or_false] at hc ⊢
    rcases hc with rfl | rfl | rfl
    · exact .inl (Option.some.inj htable).symm
    · exact nomatch htable
    · exact .inr (Option.some.inj htable).symm
  -- One table has an alias, and the segments of the other stand between backticks.
  have haddressable : ∀ table ∈ ["db.tb AS t", "\x60db\x60.\x60u\x60"], Addressable table := by
    decide +kernel
  exact haddressable table hnamed

/-- A table of a schema without an alias: the name in front of its
columns is not the one behind `FROM`. -/
theorem schema_table_misqualified :
    let s := Select.ofChoices "db.tb" []
    (Statement.select s).build
        = .ok ⟨"SELECT \x60db.tb\x60.* FROM \x60db\x60.\x60tb\x60", []⟩ ∧
      s.selected = [.all "db.tb"] ∧ qualifier "db.tb" = "\x60db.tb\x60" ∧
      introduced "db.tb" = "\x60db\x60.\x60tb\x60" ∧
      ¬ ∀ table, qualifier table = introduced table := by
  intro s
  have hfail : s.draft.failure = none := Option.isNone_iff_eq_none.mp (by decide +kernel)
  have hvalues : s.draft.values = [] := List.isEmpty_iff.mp (by decide +kernel)
  have hbuild : (Statement.select s).build
      = .ok ⟨"SELECT \x60db.tb\x60.* FROM \x60db\x60.\x60tb\x60", []⟩ := by
    show s.draft.query = _
    exact Draft.query_eq_ok_iff.mpr ⟨hfail, by decide +kernel, hvalues⟩
  have hqualifier : qualifier "db.tb" = "\x60db.tb\x60" := by decide +kernel
  have hintroduced : introduced "db.tb" = "\x60db\x60.\x60tb\x60" := by decide +kernel
  refine ⟨hbuild, rfl, hqualifier, hintroduced, fun hall => ?_⟩
  have hsame := hall "db.tb"
  rw [hqualifier, hintroduced] at hsame
  exact absurd hsame (by decide +kernel)

end Select

end SqlSession
