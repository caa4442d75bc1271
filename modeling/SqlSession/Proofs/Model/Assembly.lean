import SqlSession.Proofs.Model.Operation

/-!
# `SqlSession.Proofs.Model.Assembly`: what operations are made of

The operations of a model are put together from a few things: statements,
transactions around them, and pieces of work on the records that take no
call. `Assembled` are all programs that can be made of these, and
`Operation.assembled` goes along the operations once. What holds of every
part, and of what is put together from parts for which it holds, so
holds of every operation.
-/

set_option autoImplicit false

namespace SqlSession

variable {π α β μ : Type}

/-- Programs made of statements, transactions and pieces of work on the
records. -/
inductive Assembled : {α : Type} → Program π α → Prop
  | pure {α : Type} (value : α) : Assembled (Pure.pure value)
  | bind {α β : Type} {program : Program π α} {next : α → Program π β} :
      Assembled program → (∀ value, Assembled (next value)) → Assembled (program >>= next)
  | query (sql : String) (params : List Value) : Assembled (Session.query sql params).run
  | exec (sql : String) (params : List Value) : Assembled (Session.exec sql params).run
  | runInTransaction {α : Type} {body : Action π α} :
      Assembled body.run → Assembled (Session.runInTransaction body).run
  | inTransaction : Assembled (Program.read (·.session.inTransaction))
  | data {μ : Type} (model : Model π μ) (record : Record μ) :
      Assembled (Program.read fun scope => model.data? scope.memory record)
  | lookUp {μ : Type} (model : Model π μ) (key : String) : Assembled (model.lookUp key)
  | internRow {μ : Type} (model : Model π μ) (row : Row) :
      Assembled (Memory.change (model.internRow row))
  | internRows {μ : Type} (model : Model π μ) (rows : List Row) :
      Assembled (Memory.change (model.internRows rows))
  | mergeAndSave {μ : Type} (model : Model π μ) (record : Record μ) (written : Row) :
      Assembled (Memory.change (model.mergeAndSave record written))
  | forget (key : String) : Assembled (Memory.change (Model.forget key))

namespace Assembled

/-- An error ends a sequence of actions. -/
theorem andThen {action : Action π α} {next : α → Action π β} (h : Assembled action.run)
    (hnext : ∀ value, Assembled (next value).run) : Assembled (action >>= next).run := by
  refine h.bind fun result => ?_
  cases result with
  | ok value => exact hnext value
  | error e => exact .pure _

/-- A result that is at hand, be it a value or an error, needs no call. -/
theorem ofExcept (result : Except Error α) : Assembled (liftM result : Action π α).run :=
  .pure result

/-- Failing is a part like any other. -/
theorem raise (e : Error) : Assembled (throw e : Action π α).run := .pure _

/-- So is ending with a value. -/
theorem done (value : α) : Assembled (Pure.pure value : Action π α).run := .pure _

/-- A program that cannot fail may stand among actions that can. -/
theorem lifted {program : Program π α} (h : Assembled program) :
    Assembled (ExceptT.lift program : Action π α).run :=
  h.bind fun _ => .pure _

end Assembled

/-! ### Operations of a model -/

namespace Model

open Assembled

variable (model : Model π μ)

/-- Reading the rows of a statement is building it, which may fail, and
one query. -/
theorem assembled_rowsOf (stmt : Select) : Assembled (rowsOf stmt : Action π (List Row)).run :=
  (ofExcept _).andThen fun built => .query built.sql built.params

/-- Interning the first row either fails, for want of a row, or changes
the memory. -/
theorem assembled_internFirst (rows : List Row) : Assembled (model.internFirst rows).run := by
  cases rows with
  | nil => exact .pure _
  | cons row rest => exact .internRow model row

/-- Interning all rows is one change of the memory. -/
theorem assembled_internAll (rows : List Row) : Assembled (model.internAll rows).run :=
  .internRows model rows

/-- Looking a key up takes no call. -/
theorem assembled_lookUp (key : String) :
    Assembled (ExceptT.lift (model.lookUp key) : Action π (Option (Record μ))).run :=
  (Assembled.lookUp model key).lifted

/-- Loading by index makes the filter, reads the rows and interns the
first. -/
theorem assembled_load (index : List Value) : Assembled (model.load index).run :=
  (ofExcept _).andThen fun _ => (ofExcept _).andThen fun _ =>
    (assembled_rowsOf _).andThen model.assembled_internFirst

/-- Counting and summing read one row and look at one of its columns. They
leave the memory alone. -/
theorem assembled_aggregate (function name column : String) (filter : Filter) :
    Assembled (model.aggregate function name column filter).run := by
  refine (assembled_rowsOf _).andThen fun rows => ?_
  cases rows with
  | nil => exact raise _
  | cons row rest => exact (ofExcept _).andThen fun _ => done _

/-- The index of a record is read off its data, or there is no data to
read it off. -/
theorem assembled_indexOf (record : Record μ) : Assembled (model.indexOf record).run := by
  refine .bind (.data model record) fun found => ?_
  cases found with
  | none => exact .pure _
  | some data => exact .pure _

/-- Executing a statement is building it and one call. -/
theorem assembled_execute (stmt : Statement) :
    Assembled (Session.execute stmt : Action π ExecResult).run :=
  (ofExcept _).andThen fun built => .exec built.sql built.params

/-- An insertion is a transaction around two parts: the statement, and
interning the row that was written. -/
theorem assembled_insert (data : List (String × Value)) (index : List Value) :
    Assembled (model.insert data index).run := by
  refine (ofExcept _).andThen fun fields => (ofExcept _).andThen fun built => ?_
  refine .runInTransaction <| .andThen (.exec _ _) fun result => ?_
  have hstore : Assembled (do
      let fields ← model.withGeneratedId fields result
      ExceptT.mk (Memory.change (model.internRow ⟨fields⟩)) : Action π (Record μ)).run :=
    (ofExcept _).andThen fun fields => .internRow model ⟨fields⟩
  -- The check of the affected rows either raises an error or goes on.
  dsimp only
  split
  · exact (raise _).andThen fun _ => hstore
  · exact hstore

/-- An update asks for the index first, so that a record without one makes
no call. -/
theorem assembled_update (record : Record μ) (set : List (String × Value)) :
    Assembled (model.update record set).run := by
  refine (model.assembled_indexOf record).andThen fun index => (ofExcept _).andThen fun fields => ?_
  refine (assembled_execute _).andThen fun result => ?_
  dsimp only
  split
  · exact Assembled.andThen (.mergeAndSave model record _) fun _ => done _
  · exact done _

/-- Removal forgets the key after the statement, whether or not a row was
hit. -/
theorem assembled_remove (record : Record μ) : Assembled (model.remove record).run := by
  refine (model.assembled_indexOf record).andThen fun index => (ofExcept _).andThen fun fields => ?_
  refine (assembled_execute _).andThen fun result => ?_
  -- The check of the affected rows either fails before this or goes on to it.
  have hforget : Assembled (do
      let key ← model.key index
      ExceptT.mk do
        Memory.change (forget key)
        return .ok () : Action π Unit).run :=
    (ofExcept _).andThen fun key => (Assembled.forget key).bind fun _ => .pure _
  dsimp only
  split
  · exact (raise _).andThen fun _ => hforget
  · exact hforget

end Model

/-- Every operation is made of the parts. -/
theorem Operation.assembled (model : Model π μ) (op : Operation μ) :
    Assembled (op.run model).run := by
  cases op with
  | queryCache index =>
      refine (Assembled.ofExcept _).andThen fun key =>
        (model.assembled_lookUp key).andThen fun found => ?_
      cases found with
      | none => exact .raise _
      | some record => exact .done _
  | select index =>
      refine (Assembled.ofExcept _).andThen fun key =>
        (model.assembled_lookUp key).andThen fun found => ?_
      cases found with
      | none => exact model.assembled_load index
      | some record => exact .done _
  | load index => exact model.assembled_load index
  | selectForUpdate index =>
      -- The check for a transaction either raises an error or goes on to the read.
      have hread : Assembled (do
          let fields ← model.indexFilter index
          model.internFirst (← Model.rowsOf
            ((model.selection.filter (.fields fields)).withTail "FOR UPDATE")) :
          Action π (Record μ)).run :=
        (Assembled.ofExcept _).andThen fun _ =>
          (Model.assembled_rowsOf _).andThen model.assembled_internFirst
      refine (Assembled.lifted .inTransaction).andThen fun open? => ?_
      cases open? with
      | true => exact hread
      | false => exact (Assembled.raise _).andThen fun _ => hread
  | selectOne filter => exact (Model.assembled_rowsOf _).andThen model.assembled_internFirst
  | selectMany filter => exact (Model.assembled_rowsOf _).andThen model.assembled_internAll
  | selectOneWithSql sql params => exact .andThen (.query _ _) model.assembled_internFirst
  | selectManyWithSql sql params => exact .andThen (.query _ _) model.assembled_internAll
  | count column filter => exact model.assembled_aggregate ..
  | sum column filter => exact model.assembled_aggregate ..
  | insert data index => exact model.assembled_insert data index
  | update record set => exact model.assembled_update record set
  | remove record => exact model.assembled_remove record

end SqlSession
