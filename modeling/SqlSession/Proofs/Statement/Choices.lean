import SqlSession.Proofs.Condition.Conjunction
import SqlSession.Statement.Basic

/-!
# `SqlSession.Proofs.Statement.Choices`: the statements that callers can build

A caller names a table and then makes choices, any number of them and in
any order. `Choice` lists the choices that each kind of statement
offers, and `ofChoices` is the statement that they lead to.
`Statement.Chosen` gathers all statements reached in this way.

* `conditions_ofChoices`, `groupConditions_ofChoices`: of all choices
  only the given filters have a part in the conditions of a statement,
  which are these filters conjoined.
* `Conditions.eq_conjoin` states this for statements of every kind.
* `Insert.even_ofChoices`: every row of an insert has a value for each
  of its columns.
-/

set_option autoImplicit false

namespace SqlSession

/-- A filter as a caller gives it, with values that belong to it. -/
structure Given where
  filter : Filter
  built : filter.Built
  values : List Value := []

/-- What a statement takes from a given filter. -/
def Given.predicate (given : Given) : Predicate := given.filter.toPredicate given.values

/-- What callers give as a filter was built by them. -/
theorem Given.built_predicate (given : Given) : given.predicate.Built :=
  given.built.toPredicate given.values

/-- If a choice that gives a filter adds it to the conditions, and any
other choice leaves them alone, choices conjoin the given filters. -/
theorem foldl_merge_given {σ γ : Type} {choose : σ → γ → σ} {conditions : σ → Predicate}
    {given? : γ → Option Given}
    (h : ∀ s c, conditions (choose s c)
      = (given? c).elim (conditions s) fun given => (conditions s).merge given.predicate)
    (s : σ) (choices : List γ) :
    conditions (choices.foldl choose s)
      = ((choices.filterMap given?).map Given.predicate).foldl Predicate.merge (conditions s) := by
  induction choices generalizing s with
  | nil => rfl
  | cons c rest ih =>
      rw [List.foldl_cons, ih, h, List.filterMap_cons]
      cases given? c <;> rfl

/-! ### Reading rows -/

namespace Select

/-- What a caller can choose about a statement that reads rows. -/
inductive Choice where
  | onTable (table : String)
  | withQuantifier (word : String)
  | distinct
  | withColumns (columns : List String)
  | addColumn (column : String)
  | addComputed (expression name : String)
  | withIndex (index : String)
  | addJoin (kind : JoinKind) (target : String) (parts columns : List String)
  | filter (given : Given)
  | having (given : Given)
  | groupBy (columns : List String)
  | orderBy (entries : List String)
  | addOrder (entry : String)
  | withLimit (n : Int64)
  | withOffset (n : Int64)
  | withTail (tail : String)

/-- One choice made. -/
def choose (s : Select) : Choice → Select
  | .onTable table => s.onTable table
  | .withQuantifier word => s.withQuantifier word
  | .distinct => s.distinct
  | .withColumns columns => s.withColumns columns
  | .addColumn column => s.addColumn column
  | .addComputed expression name => s.addComputed expression name
  | .withIndex index => s.withIndex index
  | .addJoin kind target parts columns => s.addJoin (.on kind target parts columns)
  | .filter given => s.filter given.filter given.values
  | .having given => s.having given.filter given.values
  | .groupBy columns => s.groupBy columns
  | .orderBy entries => s.orderBy entries
  | .addOrder entry => s.addOrder entry
  | .withLimit n => s.withLimit n
  | .withOffset n => s.withOffset n
  | .withTail tail => s.withTail tail

/-- The statement that choices lead to. -/
def ofChoices (table : String) (choices : List Choice) : Select :=
  choices.foldl choose (.ofTable table)

/-- The filter of rows that a choice gives. -/
def Choice.given? : Choice → Option Given
  | .filter given => some given
  | _ => none

/-- The filter of groups that a choice gives. -/
def Choice.givenGroup? : Choice → Option Given
  | .having given => some given
  | _ => none

/-- Of the choices of a select only a filter changes the conditions. -/
theorem conditions_choose (s : Select) (choice : Choice) :
    (s.choose choice).conditions = choice.given?.elim s.conditions fun given =>
        s.conditions.merge given.predicate := by
  cases choice <;>
    simp only [choose, Choice.given?, Option.elim, Given.predicate, onTable,
      withQuantifier, distinct, withColumns, addColumn, addComputed, withIndex, addJoin, filter,
      having, groupBy, orderBy, addOrder, withLimit, withOffset, withTail]

/-- And only a filter on groups changes the conditions on groups. -/
theorem groupConditions_choose (s : Select) (choice : Choice) :
    (s.choose choice).groupConditions
      = choice.givenGroup?.elim s.groupConditions fun given =>
        s.groupConditions.merge given.predicate := by
  cases choice <;>
    simp only [choose, Choice.givenGroup?, Option.elim, Given.predicate, onTable,
      withQuantifier, distinct, withColumns, addColumn, addComputed, withIndex, addJoin, filter,
      having, groupBy, orderBy, addOrder, withLimit, withOffset, withTail]

/-- The conditions of a select are the given filters, conjoined in their
order. -/
theorem conditions_ofChoices (table : String) (choices : List Choice) :
    (ofChoices table choices).conditions
      = .conjoin ((choices.filterMap Choice.given?).map Given.predicate) :=
  foldl_merge_given conditions_choose _ choices

/-- So are its conditions on groups. -/
theorem groupConditions_ofChoices (table : String) (choices : List Choice) :
    (ofChoices table choices).groupConditions
      = .conjoin ((choices.filterMap Choice.givenGroup?).map Given.predicate) :=
  foldl_merge_given groupConditions_choose _ choices

end Select

/-! ### Changing rows -/

namespace Update

/-- What a caller can choose about a statement that changes rows. -/
inductive Choice where
  | onTable (table : String)
  | addJoin (kind : JoinKind) (target : String) (parts columns : List String)
  | set (target : String) (value : Value)
  | setAll (assignments : List (String × Value))
  | filter (given : Given)

/-- One choice made. -/
def choose (u : Update) : Choice → Update
  | .onTable table => u.onTable table
  | .addJoin kind target parts columns => u.addJoin (.on kind target parts columns)
  | .set target value => u.set target value
  | .setAll assignments => u.setAll assignments
  | .filter given => u.filter given.filter given.values

/-- The statement that choices lead to. -/
def ofChoices (table : String) (choices : List Choice) : Update :=
  choices.foldl choose { table }

/-- The filter of rows that a choice gives. -/
def Choice.given? : Choice → Option Given
  | .filter given => some given
  | _ => none

/-- Of the choices of an update only a filter changes the conditions. -/
theorem conditions_choose (u : Update) (choice : Choice) :
    (u.choose choice).conditions = choice.given?.elim u.conditions fun given =>
        u.conditions.merge given.predicate := by
  cases choice <;>
    simp only [choose, Choice.given?, Option.elim, Given.predicate, onTable, addJoin,
      set, setAll, filter]

/-- The conditions of an update are the given filters, conjoined in their
order. -/
theorem conditions_ofChoices (table : String) (choices : List Choice) :
    (ofChoices table choices).conditions
      = .conjoin ((choices.filterMap Choice.given?).map Given.predicate) :=
  foldl_merge_given conditions_choose _ choices

end Update

/-! ### Removing rows -/

namespace Delete

/-- What a caller can choose about a statement that removes rows. -/
inductive Choice where
  | onTable (table : String)
  | filter (given : Given)

/-- One choice made. -/
def choose (d : Delete) : Choice → Delete
  | .onTable table => d.onTable table
  | .filter given => d.filter given.filter given.values

/-- The statement that choices lead to. -/
def ofChoices (table : String) (choices : List Choice) : Delete :=
  choices.foldl choose { table }

/-- The filter of rows that a choice gives. -/
def Choice.given? : Choice → Option Given
  | .filter given => some given
  | _ => none

/-- Of the choices of a delete only a filter changes the conditions. -/
theorem conditions_choose (d : Delete) (choice : Choice) :
    (d.choose choice).conditions = choice.given?.elim d.conditions fun given =>
        d.conditions.merge given.predicate := by
  cases choice <;>
    simp only [choose, Choice.given?, Option.elim, Given.predicate, onTable, filter]

/-- The conditions of a delete are the given filters, conjoined in their
order. -/
theorem conditions_ofChoices (table : String) (choices : List Choice) :
    (ofChoices table choices).conditions
      = .conjoin ((choices.filterMap Choice.given?).map Given.predicate) :=
  foldl_merge_given conditions_choose _ choices

end Delete

/-! ### Adding rows -/

namespace Insert

/-- What a caller can choose about a statement that adds rows. -/
inductive Choice where
  | onTable (table : String)
  | addRow (row : List (String × Value))
  | withRows (rows : List (List (String × Value)))

/-- One choice made. -/
def choose (ins : Insert) : Choice → Insert
  | .onTable table => ins.onTable table
  | .addRow row => ins.addRow row
  | .withRows rows => ins.withRows rows

/-- The statement that choices lead to. -/
def ofChoices (table : String) (choices : List Choice) : Insert :=
  choices.foldl choose { table }

/-- Every row has a value for each column. -/
def Even (ins : Insert) : Prop := ∀ row ∈ ins.rows, row.length = ins.columns.length

/-- A row has one value for each column, whatever its fields are. -/
theorem length_align (columns : List String) (row : List (String × Value)) :
    (align columns row).1.length = columns.length := by
  induction columns generalizing row with
  | nil => rfl
  | cons column rest ih =>
      rw [align]
      split
      · exact congrArg (· + 1) (ih _)
      · exact congrArg (· + 1) (ih _)

/-- One more row has as many values as there are columns. The first one
makes the columns. -/
theorem Even.addRow {ins : Insert} (h : ins.Even) (row : List (String × Value)) :
    (ins.addRow row).Even := by
  unfold Insert.addRow
  split
  · -- The first row makes the columns.
    intro values hvalues
    rw [List.mem_singleton.mp hvalues, List.length_map]
    exact (List.length_map _).symm
  · intro values hvalues
    rcases List.mem_append.mp hvalues with hold | hnew
    · exact h values hold
    · rw [List.mem_singleton.mp hnew]
      exact length_align ins.columns row

/-- So have any number of rows. -/
theorem Even.foldl_addRow {ins : Insert} (h : ins.Even) (rows : List (List (String × Value))) :
    (rows.foldl Insert.addRow ins).Even := by
  induction rows generalizing ins with
  | nil => exact h
  | cons row rest ih => exact ih (h.addRow row)

/-- Without rows there is nothing to be uneven. -/
theorem even_of_no_rows {ins : Insert} (h : ins.rows = []) : ins.Even := by
  intro row hrow
  rw [h] at hrow
  exact nomatch hrow

/-- No choice makes rows uneven. -/
theorem Even.choose {ins : Insert} (h : ins.Even) (choice : Choice) :
    (ins.choose choice).Even := by
  cases choice with
  | onTable table => exact h
  | addRow row => exact h.addRow row
  | withRows rows => exact (even_of_no_rows rfl).foldl_addRow rows

/-- However an insert was built, its rows are even. -/
theorem even_ofChoices (table : String) (choices : List Choice) :
    (ofChoices table choices).Even := by
  suffices hfold : ∀ ins : Insert, ins.Even → (choices.foldl Insert.choose ins).Even from
    hfold { table } (even_of_no_rows rfl)
  induction choices with
  | nil => exact fun _ h => h
  | cons choice rest ih => exact fun ins h => ih _ (h.choose choice)

end Insert

/-- A statement that choices led to. -/
inductive Statement.Chosen : Statement → Prop
  | select (table : String) (choices : List Select.Choice) :
      Chosen (.select (Select.ofChoices table choices))
  | update (table : String) (choices : List Update.Choice) :
      Chosen (.update (Update.ofChoices table choices))
  | delete (table : String) (choices : List Delete.Choice) :
      Chosen (.delete (Delete.ofChoices table choices))
  | insert (table : String) (choices : List Insert.Choice) :
      Chosen (.insert (Insert.ofChoices table choices))

/-! ### The conditions of a statement -/

/-- The conditions of a statement that choices led to, on rows or on
groups, and the filters that were given for them. -/
inductive Conditions : Predicate → List Given → Prop
  | select (table : String) (choices : List Select.Choice) :
      Conditions (Select.ofChoices table choices).conditions
        (choices.filterMap Select.Choice.given?)
  | selectGroups (table : String) (choices : List Select.Choice) :
      Conditions (Select.ofChoices table choices).groupConditions
        (choices.filterMap Select.Choice.givenGroup?)
  | update (table : String) (choices : List Update.Choice) :
      Conditions (Update.ofChoices table choices).conditions
        (choices.filterMap Update.Choice.given?)
  | delete (table : String) (choices : List Delete.Choice) :
      Conditions (Delete.ofChoices table choices).conditions
        (choices.filterMap Delete.Choice.given?)

namespace Conditions

variable {whole : Predicate} {given : List Given}

/-- The conditions of a statement are the given filters, conjoined. -/
theorem eq_conjoin (h : Conditions whole given) :
    whole = .conjoin (given.map Given.predicate) := by
  cases h with
  | select table choices => exact Select.conditions_ofChoices table choices
  | selectGroups table choices => exact Select.groupConditions_ofChoices table choices
  | update table choices => exact Update.conditions_ofChoices table choices
  | delete table choices => exact Delete.conditions_ofChoices table choices

/-- Conditions of a statement were built by callers: they are filters
conjoined. -/
theorem built (h : Conditions whole given) : whole.Built := by
  rw [h.eq_conjoin]
  refine .conjoin fun p hp => ?_
  obtain ⟨g, -, rfl⟩ := List.mem_map.mp hp
  exact g.built_predicate

end Conditions

end SqlSession
