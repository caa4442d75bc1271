import Mathlib.Data.List.Forall2
import Mathlib.Data.List.Perm.Basic
import SqlSession.Proofs.Statement.Choices

/-!
# `SqlSession.Proofs.Statement.Rows`: the rows of an insert by their columns

The values of a row are put in the order of the columns by taking its
fields out one after another, and every field taken out moves the last
field into the gap. `align_eq` is what remains of this: under each
column stands the value of the field of that name, and what is left are
the fields with no column, in some order. `takeOut_perm` is the reason:
taking a field out changes the order of the others and nothing else.

`Asked` is what a caller has asked an insert for. `Follows.addRow` and
`Follows.ofChoices` carry through every history of choices that the
insert is what was asked for, and `rows_by_column` is the main
statement.
-/

set_option autoImplicit false

namespace SqlSession

namespace Insert

/-! ### Fields by name -/

/-- No two fields of a row have one name. -/
def Distinct (row : List (String × Value)) : Prop := (row.map Prod.fst).Nodup

/-- The values of a row under columns: the value of the field of that
name, a null where there is none. -/
def cells (columns : List String) (row : List (String × Value)) : List Value :=
  columns.map fun column => (row.lookup column).getD .null

/-- The fields of a row that have no column. -/
def strays (columns : List String) (row : List (String × Value)) : List (String × Value) :=
  row.filter fun field => field.1 ∉ columns

section Fields

variable {row other : List (String × Value)} {column : String} {value : Value}

/-- A look for a column goes past the fields with other names. -/
theorem lookup_cons (column : String) (field : String × Value) (rest : List (String × Value)) :
    (field :: rest).lookup column
      = if column = field.1 then some field.2 else rest.lookup column := by
  rw [List.lookup_cons]
  by_cases hname : column = field.1
  · rw [if_pos hname, beq_iff_eq.mpr hname]
  · rw [if_neg hname, beq_eq_false_iff_ne.mpr hname]

/-- The order of fields does not matter for their names to differ. -/
theorem Distinct.perm (h : Distinct row) (hperm : row.Perm other) : Distinct other :=
  (hperm.map Prod.fst).nodup_iff.mp h

/-- If no name comes twice, what is found under a name is the value of its
one field, wherever it stands. -/
theorem Distinct.lookup_eq_some_iff (h : Distinct row) :
    row.lookup column = some value ↔ (column, value) ∈ row := by
  induction row with
  | nil => simp
  | cons field rest ih =>
      obtain ⟨name, held⟩ := field
      have hrest := ih (List.nodup_cons.mp h).2
      rw [lookup_cons, List.mem_cons]
      by_cases hname : column = name
      · -- The name is at the front, so it is nowhere behind.
        subst hname
        have hbehind : (column, value) ∉ rest := by
          intro hmem
          have hkey : column ∈ rest.map Prod.fst := List.mem_map_of_mem hmem
          exact (List.nodup_cons.mp h).1 hkey
        simp [hbehind, eq_comm]
      · simp [hname, hrest]

/-- The order of fields with distinct names has no influence on what a
name means. -/
theorem Distinct.lookup_perm (h : Distinct row) (hperm : row.Perm other) (column : String) :
    row.lookup column = other.lookup column := by
  refine Option.ext fun value => ?_
  rw [h.lookup_eq_some_iff, (h.perm hperm).lookup_eq_some_iff, hperm.mem_iff]

/-- The values under the columns do not depend on the order of the fields. -/
theorem Distinct.cells_perm (h : Distinct row) (hperm : row.Perm other) (columns : List String) :
    cells columns row = cells columns other := by
  refine List.map_congr_left fun column _ => ?_
  rw [h.lookup_perm hperm]

/-- Under its own names a row has its values. -/
theorem Distinct.cells_keys (h : Distinct row) :
    cells (row.map Prod.fst) row = row.map Prod.snd := by
  rw [cells, List.map_map]
  refine List.map_congr_left fun field hfield => ?_
  show (row.lookup field.1).getD .null = field.2
  rw [h.lookup_eq_some_iff.mpr hfield, Option.getD_some]

/-- A name that no field has finds nothing. -/
theorem lookup_eq_none_of_not_mem (h : column ∉ row.map Prod.fst) : row.lookup column = none := by
  rw [List.lookup_eq_none_iff]
  intro field hfield
  rw [bne_iff_ne]
  exact fun heq => h (heq ▸ List.mem_map_of_mem hfield)

end Fields

/-! ### One row -/

/-- The last element fills the gap, unless it is the one taken out. -/
theorem takeOut_concat {α : Type} (front : List α) (last : α) {i : Nat} (h : i ≤ front.length) :
    takeOut (front ++ [last]) i = if i < front.length then front.set i last else front := by
  have hlast : (front ++ [last]).getLast? = some last := List.getLast?_concat
  unfold takeOut
  rw [hlast]
  show ((front ++ [last]).set i last).dropLast = _
  split
  · next hi => rw [List.set_append_left i last hi, List.dropLast_concat]
  · next hi =>
    have hend : i = front.length := by omega
    rw [hend, List.set_append_right _ last (Nat.le_refl _), Nat.sub_self, List.set_cons_zero,
      List.dropLast_concat]

/-- Taking an element out leaves the others, in some order. -/
theorem takeOut_perm {α : Type} {xs : List α} {i : Nat} (h : i < xs.length) :
    xs.Perm (xs[i] :: takeOut xs i) := by
  cases hlast : xs.getLast? with
  | none => simp [List.getLast?_eq_none_iff.mp hlast] at h
  | some last =>
      obtain ⟨front, rfl⟩ := List.getLast?_eq_some_iff.mp hlast
      have hle : i ≤ front.length := by
        rw [List.length_append, List.length_singleton] at h
        omega
      -- The last field moves into the gap, unless it is the one that is taken out.
      rw [takeOut_concat front last hle]
      split
      · next hi =>
        have hkept : (front.set i last).Perm (last :: front.eraseIdx i) := by
          have hperm := List.getElem_cons_eraseIdx_perm (l := front.set i last) (n := i)
            (by rw [List.length_set]; exact hi)
          rw [List.getElem_set_self, List.eraseIdx_set_eq] at hperm
          exact hperm.symm
        rw [List.getElem_append_left hi]
        calc List.Perm (front ++ [last]) (last :: front) := List.perm_append_singleton last front
          List.Perm _ (last :: front[i] :: front.eraseIdx i) :=
            (List.getElem_cons_eraseIdx_perm hi).symm.cons last
          List.Perm _ (front[i] :: last :: front.eraseIdx i) := .swap _ _ _
          List.Perm _ (front[i] :: front.set i last) := hkept.symm.cons front[i]
      · next hi =>
        have hend : i = front.length := by omega
        subst hend
        rw [List.getElem_append_right (Nat.le_refl _)]
        simp

/-- A column for which there is no field gets a null, and takes nothing
out. -/
theorem align_of_not_mem {column : String} {columns : List String}
    {row : List (String × Value)} (h : column ∉ row.map Prod.fst) :
    align (column :: columns) row
      = (.null :: (align columns row).1, (align columns row).2) := by
  have hnone : row.findIdx? (fun field => field.1 == column) = none := by
    rw [List.findIdx?_eq_none_iff]
    intro field hfield
    rw [beq_eq_false_iff_ne]
    exact fun heq => h (heq ▸ List.mem_map_of_mem hfield)
  rw [align, hnone]

/-- A field under the next column is taken out of the row. -/
theorem align_of_mem {column : String} (columns : List String) {row : List (String × Value)}
    (h : column ∈ row.map Prod.fst) :
    ∃ value rest, row.Perm ((column, value) :: rest) ∧
      align (column :: columns) row
        = (value :: (align columns rest).1, (align columns rest).2) := by
  cases hfind : row.findIdx? (fun field => field.1 == column) with
  | none =>
      obtain ⟨field, hfield, rfl⟩ := List.mem_map.mp h
      exact absurd (List.findIdx?_eq_none_iff.mp hfind field hfield) (by simp)
  | some i =>
      obtain ⟨hi, hname, -⟩ := List.findIdx?_eq_some_iff_getElem.mp hfind
      have hfield : row[i] = (column, row[i].2) := Prod.ext (beq_iff_eq.mp hname) rfl
      have hvalue : (row[i]?.map (·.2)).getD .null = row[i].2 := by
        rw [List.getElem?_eq_getElem hi, Option.map_some, Option.getD_some]
      -- The field of the column is the one at the place that was found; the rest are the others in
      -- some order.
      refine ⟨row[i].2, takeOut row i, hfield ▸ takeOut_perm hi, ?_⟩
      rw [align, hfind]
      show ((row[i]?.map (·.2)).getD .null :: _, _) = _
      rw [hvalue]

/-- A field that has a column is no stray; those behind it are strays as
they were. -/
theorem strays_cons_of_perm {column : String} {columns : List String} {value : Value}
    {row rest : List (String × Value)} (hrow : Distinct row)
    (h : row.Perm ((column, value) :: rest)) :
    (strays columns rest).Perm (strays (column :: columns) row) := by
  have hrest : strays (column :: columns) ((column, value) :: rest) = strays columns rest := by
    have hbehind : column ∉ rest.map Prod.fst := (List.nodup_cons.mp (hrow.perm h)).1
    rw [strays, List.filter_cons_of_neg (by simp)]
    refine List.filter_congr fun field hfield => ?_
    -- Names are distinct, so no other field has the column of the first.
    have hne : field.1 ≠ column := fun heq => hbehind (heq ▸ List.mem_map_of_mem hfield)
    simp [hne]
  rw [← hrest]
  exact (h.filter _).symm

/-- Under every column stands the value of the field of that name, and
what is left of the row are its strays. -/
theorem align_eq {columns : List String} {row : List (String × Value)} (hcolumns : columns.Nodup)
    (hrow : Distinct row) :
    (align columns row).1 = cells columns row ∧
      (align columns row).2.Perm (strays columns row) := by
  -- The row shrinks along the columns: what is kept of it is that its names are distinct.
  induction columns generalizing row with
  | nil =>
      refine ⟨rfl, ?_⟩
      rw [strays, List.filter_eq_self.mpr fun _ _ => by simp]
      exact .refl row
  | cons column columns ih =>
      obtain ⟨hnew, hrest⟩ := List.nodup_cons.mp hcolumns
      by_cases hmem : column ∈ row.map Prod.fst
      · -- The field is taken out, and the others are what they were, in another order.
        obtain ⟨value, rest, hperm, halign⟩ := align_of_mem columns hmem
        have hdistinct := hrow.perm hperm
        obtain ⟨hvalues, hleft⟩ := ih hrest (List.nodup_cons.mp hdistinct).2
        have hhere : row.lookup column = some value := by
          rw [hrow.lookup_perm hperm, lookup_cons, if_pos rfl]
        have hbehind : cells columns rest = cells columns row := by
          refine List.map_congr_left fun other hother => ?_
          have hne : ¬other = column := fun h => hnew (h ▸ hother)
          rw [hrow.lookup_perm hperm, lookup_cons, if_neg hne]
        rw [halign]
        refine ⟨?_, hleft.trans (strays_cons_of_perm hrow hperm)⟩
        show value :: (align columns rest).1 = (row.lookup column).getD .null :: cells columns row
        rw [hvalues, hbehind, hhere, Option.getD_some]
      · -- Nothing is taken out, and a null stands for the value.
        obtain ⟨hvalues, hleft⟩ := ih hrest hrow
        have hnone := lookup_eq_none_of_not_mem hmem
        rw [align_of_not_mem hmem]
        refine ⟨?_, ?_⟩
        · show Value.null :: (align columns row).1
            = (row.lookup column).getD .null :: cells columns row
          rw [hvalues, hnone, Option.getD_none]
        · have hsame : strays (column :: columns) row = strays columns row := by
            refine List.filter_congr fun field hfield => ?_
            have hne : field.1 ≠ column := fun h => hmem (h ▸ List.mem_map_of_mem hfield)
            simp [hne]
          rw [hsame]
          exact hleft

/-! ### A history of rows -/

/-- What a caller has asked an insert for: a table; the rows that count;
and for every row that came after a first one and has fields which that
one lacks, the table of that time and the names of these fields. -/
structure Asked where
  table : String
  rows : List (List (String × Value)) := []
  surplus : List (String × List String) := []

namespace Asked

/-- The names in the first row that counts. -/
def columns (asked : Asked) : List String :=
  (asked.rows.head?.getD []).map Prod.fst

/-- One more row asked for. -/
def addRow (asked : Asked) (row : List (String × Value)) : Asked :=
  let names := (strays asked.columns row).map Prod.fst
  { asked with
    rows := asked.rows ++ [row]
    surplus := asked.surplus ++
      if asked.rows = [] ∨ names = [] then [] else [(asked.table, names)] }

/-- One choice made: rows given together count in place of all before. -/
def choose (asked : Asked) : Choice → Asked
  | .onTable table => { asked with table }
  | .addRow row => asked.addRow row
  | .withRows rows => rows.foldl addRow { asked with rows := [] }

/-- What choices ask for. -/
def ofChoices (table : String) (choices : List Choice) : Asked :=
  choices.foldl choose { table }

/-- The first row says which columns there are. -/
theorem columns_addRow_of_nil {asked : Asked} (h : asked.rows = []) (row : List (String × Value)) :
    (asked.addRow row).columns = row.map Prod.fst := by
  show ((asked.rows ++ [row]).head?.getD []).map Prod.fst = _
  rw [h]
  rfl

/-- A later row changes no column. -/
theorem columns_addRow {asked : Asked} (h : asked.rows ≠ []) (row : List (String × Value)) :
    (asked.addRow row).columns = asked.columns := by
  obtain ⟨first, rest, hrows⟩ := List.exists_cons_of_ne_nil h
  show ((asked.rows ++ [row]).head?.getD []).map Prod.fst = _
  rw [columns, hrows]
  rfl

end Asked

/-- The rows that a choice gives. -/
def Choice.rows : Choice → List (List (String × Value))
  | .onTable _ => []
  | .addRow row => [row]
  | .withRows rows => rows

/-- The first row makes the columns. -/
theorem addRow_of_nil {ins : Insert} (h : ins.rows = []) (row : List (String × Value)) :
    ins.addRow row
      = { ins with columns := row.map Prod.fst, rows := [row.map Prod.snd] } := by
  rw [addRow, h]
  rfl

/-- A later row is aligned, with a warning if anything is left of it. -/
theorem addRow_of_ne_nil {ins : Insert} (h : ins.rows ≠ []) (row : List (String × Value)) :
    ins.addRow row
      = { ins with
          rows := ins.rows ++ [(align ins.columns row).1]
          warnings := ins.warnings ++ if (align ins.columns row).2.isEmpty then []
            else [.columnsDropped ins.table ((align ins.columns row).2.map Prod.fst)] } := by
  rw [addRow, List.isEmpty_eq_false_iff.mpr h]
  rfl

/-- A warning names the table and the fields without a column, each of
them once. -/
def Reports (warning : Event) (surplus : String × List String) : Prop :=
  ∃ names, warning = .columnsDropped surplus.1 names ∧ names.Perm surplus.2

/-- An insert is what was asked for. -/
structure Follows (ins : Insert) (asked : Asked) : Prop where
  table : ins.table = asked.table
  columns : ins.columns = asked.columns
  rows : ins.rows = asked.rows.map (cells asked.columns)
  warnings : List.Forall₂ Reports ins.warnings asked.surplus
  distinct : ∀ row ∈ asked.rows, Distinct row

namespace Follows

variable {ins : Insert} {asked : Asked} {row : List (String × Value)}

/-- The names of the first row are distinct. -/
theorem nodup_columns (h : Follows ins asked) : asked.columns.Nodup := by
  unfold Asked.columns
  cases hrows : asked.rows with
  | nil => exact List.nodup_nil
  | cons first rest =>
      have hfirst : first ∈ asked.rows := hrows ▸ List.mem_cons_self
      exact h.distinct first hfirst

/-- Rows with distinct names stay so with one more of them. -/
theorem distinct_addRow (h : Follows ins asked) (hrow : Distinct row) :
    ∀ other ∈ (asked.addRow row).rows, Distinct other := by
  intro other hother
  rcases List.mem_append.mp hother with hold | hnew
  · exact h.distinct other hold
  · rw [List.mem_singleton.mp hnew]
    exact hrow

/-- The first row gives the insert its columns, and all of its fields have
one. -/
theorem addRow_of_nil (h : Follows ins asked) (hnil : asked.rows = []) (hrow : Distinct row) :
    Follows (ins.addRow row) (asked.addRow row) := by
  have hnone : ins.rows = [] := by rw [h.rows, hnil, List.map_nil]
  have hrows : (asked.addRow row).rows = [row] := by
    show asked.rows ++ [row] = [row]
    rw [hnil, List.nil_append]
  have hsurplus : (asked.addRow row).surplus = asked.surplus := by
    show asked.surplus ++ (if _ ∨ _ then [] else _) = _
    rw [if_pos (.inl hnil), List.append_nil]
  have hcolumns := Asked.columns_addRow_of_nil hnil row
  -- Under its own columns a row has the values that it came with, in their order.
  rw [Insert.addRow_of_nil hnone]
  refine ⟨h.table, hcolumns.symm, ?_, ?_, h.distinct_addRow hrow⟩
  · rw [hrows, hcolumns, List.map_singleton, hrow.cells_keys]
  · rw [hsurplus]
    exact h.warnings

/-- A later row is put under the columns that are there, and what has no
column is reported. -/
theorem addRow_of_ne_nil (h : Follows ins asked) (hne : asked.rows ≠ []) (hrow : Distinct row) :
    Follows (ins.addRow row) (asked.addRow row) := by
  have hsome : ins.rows ≠ [] := by
    rw [h.rows]
    exact fun hmap => hne (List.map_eq_nil_iff.mp hmap)
  have hcolumns := Asked.columns_addRow hne row
  obtain ⟨hvalues, hleft⟩ := align_eq h.nodup_columns hrow
  rw [Insert.addRow_of_ne_nil hsome, h.columns, h.table]
  refine ⟨rfl, hcolumns.symm, ?_, ?_, h.distinct_addRow hrow⟩
  · show ins.rows ++ [(align asked.columns row).1] = (asked.rows ++ [row]).map _
    rw [hcolumns, hvalues, h.rows, List.map_append, List.map_singleton]
  · refine List.rel_append h.warnings ?_
    have hnames := hleft.map Prod.fst
    cases hrest : (align asked.columns row).2 with
    | nil =>
        -- Nothing is left, so the row has no strays.
        rw [hrest] at hnames
        show List.Forall₂ Reports [] (if _ ∨ _ then [] else _)
        rw [if_pos (.inr hnames.nil_eq.symm)]
        exact .nil
    | cons field rest =>
        rw [hrest] at hnames
        have hsurplus : ¬((strays asked.columns row).map Prod.fst = []) := by
          intro hnil
          rw [hnil] at hnames
          exact List.cons_ne_nil _ _ hnames.eq_nil
        show List.Forall₂ Reports [_] (if _ ∨ _ then [] else _)
        rw [if_neg (not_or.mpr ⟨hne, hsurplus⟩)]
        exact .cons ⟨_, rfl, hnames⟩ .nil

/-- One more row, the first one or a later one. -/
theorem addRow (h : Follows ins asked) (hrow : Distinct row) :
    Follows (ins.addRow row) (asked.addRow row) := by
  by_cases hnil : asked.rows = []
  · exact h.addRow_of_nil hnil hrow
  · exact h.addRow_of_ne_nil hnil hrow

/-- Any number of rows, one after another. -/
theorem foldl_addRow {rows : List (List (String × Value))} (h : Follows ins asked)
    (hrows : ∀ row ∈ rows, Distinct row) :
    Follows (rows.foldl Insert.addRow ins) (rows.foldl Asked.addRow asked) := by
  induction rows generalizing ins asked with
  | nil => exact h
  | cons row rest ih =>
      have hnext := h.addRow (hrows row List.mem_cons_self)
      exact ih hnext fun other hother => hrows other (List.mem_cons_of_mem _ hother)

/-- One more choice, of rows or of the table. -/
theorem choose {choice : Choice} (h : Follows ins asked)
    (hrows : ∀ row ∈ choice.rows, Distinct row) :
    Follows (ins.choose choice) (asked.choose choice) := by
  cases choice with
  | onTable table => exact ⟨rfl, h.columns, h.rows, h.warnings, h.distinct⟩
  | addRow row => exact h.addRow (hrows row List.mem_cons_self)
  | withRows rows =>
      -- The rows given so far do not count any longer; the warnings about them stay.
      refine foldl_addRow ⟨h.table, rfl, rfl, h.warnings, ?_⟩ hrows
      exact fun row hrow => nomatch hrow

/-- After every history of choices an insert is what was asked for. -/
theorem ofChoices {table : String} {choices : List Choice}
    (hrows : ∀ choice ∈ choices, ∀ row ∈ choice.rows, Distinct row) :
    Follows (ofChoices table choices) (Asked.ofChoices table choices) := by
  suffices hfold : ∀ (ins : Insert) (asked : Asked), Follows ins asked →
      Follows (choices.foldl Insert.choose ins) (choices.foldl Asked.choose asked) from
    hfold { table } { table } ⟨rfl, rfl, rfl, .nil, fun row hrow => nomatch hrow⟩
  induction choices with
  | nil => exact fun _ _ h => h
  | cons choice rest ih =>
      intro ins asked h
      have hnext := h.choose (hrows choice List.mem_cons_self)
      exact ih (fun other hother => hrows other (List.mem_cons_of_mem _ hother)) _ _ hnext

end Follows

/-! ### The statement -/

/-- One row of placeholders. -/
def marks (columns : List String) : String :=
  "(" ++ ",".intercalate (columns.map fun _ => "?") ++ ")"

/-- What an insert says before its rows. -/
def heading (table : String) (columns : List String) : String :=
  "INSERT INTO " ++ quoteTable table ++ "(" ++ ", ".intercalate (columns.map quoteIdentifier) ++
    ") VALUES"

/-- The placeholders of a row are in parentheses, also if there are none. -/
theorem marks_ne_empty (columns : List String) : marks columns ≠ "" := by
  intro h
  have hopen := (String.append_eq_empty_iff.mp (String.append_eq_empty_iff.mp h).1).1
  exact absurd hopen (by decide)

/-- A row is written as one placeholder for each column. -/
theorem text_rowDraft (ins : Insert) (values : List Value) :
    (ins.rowDraft values).text = marks ins.columns :=
  Draft.text_plain _

/-- A row binds its values, in the order of the columns. -/
theorem values_rowDraft (ins : Insert) (values : List Value) :
    (ins.rowDraft values).values = values :=
  List.append_nil values

/-- The draft of an insert with rows and columns: a heading, then its
rows. -/
theorem draft_eq {ins : Insert} (hrows : ins.rows ≠ []) (hcolumns : ins.columns ≠ []) :
    ins.draft = .plain (heading ins.table ins.columns) ++
      .joinWith ", " (ins.rows.map ins.rowDraft) := by
  rw [draft, List.isEmpty_eq_false_iff.mpr hrows, List.isEmpty_eq_false_iff.mpr hcolumns]
  rfl

section Groups

variable (ins : Insert)

/-- Rows of placeholders cannot fail. -/
theorem failure_groups : (Draft.joinWith ", " (ins.rows.map ins.rowDraft)).failure = none := by
  rw [Draft.failure_joinWith, List.findSome?_eq_none_iff]
  intro d hd
  obtain ⟨values, -, rfl⟩ := List.mem_map.mp hd
  rfl

/-- The rows bind their values one after another. -/
theorem values_groups :
    (Draft.joinWith ", " (ins.rows.map ins.rowDraft)).values = ins.rows.flatten := by
  rw [Draft.values_joinWith ins.failure_groups, List.flatMap_map]
  simp only [values_rowDraft, List.flatMap_id']

/-- The rows are written one after another, with commas between them. -/
theorem text_groups :
    (Draft.joinWith ", " (ins.rows.map ins.rowDraft)).text
      = ", ".intercalate (ins.rows.map fun _ => marks ins.columns) := by
  have hfull : ∀ d ∈ ins.rows.map ins.rowDraft, d.isEmpty = false := by
    intro d hd
    obtain ⟨values, -, rfl⟩ := List.mem_map.mp hd
    rw [Draft.isEmpty_eq_false_iff, text_rowDraft]
    exact marks_ne_empty _
  rw [Draft.text_joinWith ins.failure_groups hfull, List.map_map]
  exact congrArg _ (List.map_congr_left fun values _ => ins.text_rowDraft values)

end Groups

/-- An insert with rows and columns binds its rows one after another. -/
theorem build_eq {ins : Insert} (hrows : ins.rows ≠ []) (hcolumns : ins.columns ≠ []) :
    (Statement.insert ins).build
      = .ok ⟨heading ins.table ins.columns ++
          ", ".intercalate (ins.rows.map fun _ => marks ins.columns), ins.rows.flatten⟩ := by
  have hdraft := draft_eq hrows hcolumns
  have hfail : ins.draft.failure = none := by
    rw [hdraft, Draft.failure_append, ins.failure_groups]
    rfl
  have htext : ins.draft.text = heading ins.table ins.columns ++
      ", ".intercalate (ins.rows.map fun _ => marks ins.columns) := by
    rw [hdraft, Draft.text_append rfl, Draft.text_plain, ins.text_groups]
  have hvalues : ins.draft.values = ins.rows.flatten := by
    rw [hdraft, Draft.values_append rfl, ins.values_groups]
    rfl
  show ins.draft.query = _
  -- What does not fail is its text with its values.
  exact Draft.query_eq_ok_iff.mpr ⟨hfail, htext, hvalues⟩

/-- Rows of one length bind that many values each. -/
theorem Even.length_flatten {ins : Insert} (h : ins.Even) :
    ins.rows.flatten.length = ins.rows.length * ins.columns.length := by
  have hlengths : ins.rows.map List.length = List.replicate ins.rows.length ins.columns.length :=
    List.map_eq_replicate_iff.mpr h
  rw [List.length_flatten, hlengths, List.sum_replicate_nat]

/-- What is asked for is the same but for the order of the fields in the
rows behind the first. -/
structure Asked.Reordered (asked other : Asked) : Prop where
  table : other.table = asked.table
  first : other.rows.head? = asked.rows.head?
  rows : List.Forall₂ List.Perm asked.rows other.rows

/-- Rows whose fields stand in another order have the same values under
the columns. -/
theorem map_cells_of_perm {given other : List (List (String × Value))}
    (hgiven : ∀ row ∈ given, Distinct row) (h : List.Forall₂ List.Perm given other)
    (columns : List String) : other.map (cells columns) = given.map (cells columns) := by
  induction h with
  | nil => rfl
  | cons hperm _ ih =>
      have hhead := (hgiven _ List.mem_cons_self).cells_perm hperm columns
      rw [List.map_cons, List.map_cons, hhead,
        ih fun row hrow => hgiven row (List.mem_cons_of_mem _ hrow)]

/-- The order of fields behind the first row has no influence on the
statement. -/
theorem Follows.draft_eq_of_reordered {ins ins' : Insert} {asked other : Asked}
    (h : Follows ins asked) (h' : Follows ins' other) (hother : asked.Reordered other) :
    ins'.draft = ins.draft := by
  have hcolumns : other.columns = asked.columns := by
    rw [Asked.columns, hother.first]
    rfl
  have htable : ins'.table = ins.table := by rw [h'.table, hother.table, h.table]
  have hnames : ins'.columns = ins.columns := by rw [h'.columns, hcolumns, h.columns]
  have hrows : ins'.rows = ins.rows := by
    rw [h'.rows, hcolumns, map_cells_of_perm h.distinct hother.rows, h.rows]
  unfold draft rowDraft
  rw [htable, hnames, hrows]

/-- An insert that rows with distinct names were given to, in any number
of choices, has the names of the first row that counts as its columns,
and every row that counts as one row, with the value of the field of
that name under each column, or a null. There is one warning for each
row behind a first one that has fields without a column, and it names
these. The statement can be built exactly if it has rows and columns, it
binds the rows one after another, and the order of the fields behind the
first row has no influence on it. -/
theorem rows_by_column (table : String) (choices : List Choice)
    (hkeys : ∀ choice ∈ choices, ∀ row ∈ choice.rows, Distinct row) :
    let ins := ofChoices table choices
    let asked := Asked.ofChoices table choices
    ins.table = asked.table ∧ ins.columns = asked.columns ∧
      ins.rows = asked.rows.map (cells ins.columns) ∧
      (∀ values ∈ ins.rows, values.length = ins.columns.length) ∧
      List.Forall₂ Reports ins.warnings asked.surplus ∧
      (Statement.insert ins).build =
        (if asked.rows = [] ∨ asked.columns = [] then .error .emptyInsert
        else .ok ⟨heading ins.table ins.columns ++
          ", ".intercalate (ins.rows.map fun _ => marks ins.columns), ins.rows.flatten⟩) ∧
      ins.rows.flatten.length = ins.rows.length * ins.columns.length ∧
      ∀ (table' : String) (choices' : List Choice),
        (∀ choice ∈ choices', ∀ row ∈ choice.rows, Distinct row) →
        asked.Reordered (Asked.ofChoices table' choices') →
        (Statement.insert (ofChoices table' choices')).build = (Statement.insert ins).build := by
  intro ins asked
  have h : Follows ins asked := .ofChoices hkeys
  have heven : ins.Even := even_ofChoices table choices
  have hrows : ins.rows = [] ↔ asked.rows = [] := by rw [h.rows, List.map_eq_nil_iff]
  refine ⟨h.table, h.columns, h.columns ▸ h.rows, heven, h.warnings, ?_, heven.length_flatten, ?_⟩
  · split
    · next hnone =>
      show ins.draft.query = _
      -- Rows and columns are missing from the insert exactly where they were not asked for.
      have hempty : (ins.rows.isEmpty || ins.columns.isEmpty) = true := by
        rw [Bool.or_eq_true, List.isEmpty_iff, List.isEmpty_iff, hrows, h.columns]
        exact hnone
      rw [draft, if_pos hempty]
      rfl
    · next hsome =>
      obtain ⟨hne, hnames⟩ := not_or.mp hsome
      exact build_eq (fun hnil => hne (hrows.mp hnil)) (h.columns ▸ hnames)
  · intro table' choices' hkeys' hother
    show (ofChoices table' choices').draft.query = ins.draft.query
    rw [h.draft_eq_of_reordered (.ofChoices hkeys') hother]

/-- Whether no name comes twice can be checked. -/
instance (row : List (String × Value)) : Decidable (Distinct row) :=
  inferInstanceAs (Decidable (row.map Prod.fst).Nodup)

/-- A row that does not count any longer, a row in another order and with
a field too many, a row with a field too few, and one with both. -/
theorem rows_by_column_mixed :
    let choices : List Choice := [
      .addRow [("z", .int 0)],
      .withRows [[("a", .int 1), ("b", .int 2)], [("c", .int 9), ("b", .int 4), ("a", .int 3)],
        [("a", .int 5)]],
      .onTable "u",
      .addRow [("d", .int 8), ("b", .int 6), ("e", .int 7)]]
    let ins := ofChoices "t" choices
    (∀ choice ∈ choices, ∀ row ∈ choice.rows, Distinct row) ∧
      ins.columns = ["a", "b"] ∧
      ins.rows = [[.int 1, .int 2], [.int 3, .int 4], [.int 5, .null], [.null, .int 6]] ∧
      List.Forall₂ Reports ins.warnings [("t", ["c"]), ("u", ["d", "e"])] ∧
      (Statement.insert ins).build = .ok
        ⟨"INSERT INTO \x60u\x60(\x60a\x60, \x60b\x60) VALUES(?,?), (?,?), (?,?), (?,?)",
          [.int 1, .int 2, .int 3, .int 4, .int 5, .null, .null, .int 6]⟩ := by
  intro choices ins
  have hkeys : ∀ choice ∈ choices, ∀ row ∈ choice.rows, Distinct row := by decide +kernel
  obtain ⟨-, hcolumns, hrows, -, hwarnings, hbuild, -, -⟩ := rows_by_column "t" choices hkeys
  have hsome : ¬((Asked.ofChoices "t" choices).rows = [] ∨
      (Asked.ofChoices "t" choices).columns = []) :=
    not_or.mpr ⟨List.cons_ne_nil _ _, List.cons_ne_nil _ _⟩
  rw [if_neg hsome] at hbuild
  have hsql : heading ins.table ins.columns ++
      ", ".intercalate (ins.rows.map fun _ => marks ins.columns)
        = "INSERT INTO \x60u\x60(\x60a\x60, \x60b\x60) VALUES(?,?), (?,?), (?,?), (?,?)" := by
    decide +kernel
  refine ⟨hkeys, hcolumns, hrows.trans (by rfl), ?_, ?_⟩
  · have hsurplus : (Asked.ofChoices "t" choices).surplus = [("t", ["c"]), ("u", ["d", "e"])] := by
      rfl
    exact hsurplus ▸ hwarnings
  · rw [hbuild, hsql]
    rfl

end Insert

end SqlSession
