import SqlSession.Model.Writes

/-!
# `SqlSession.Proofs.Model.Operation`: what can be asked of a model

The operations on the records of a model as data, so that statements
can speak of any of them. `Operation.run` is the operation itself, and
`Operation.records` are the records that its result hands out.
-/

set_option autoImplicit false

namespace SqlSession

variable {π μ : Type}

/-- Something to ask of a model. -/
inductive Operation (μ : Type) where
  | queryCache (index : List Value)
  | select (index : List Value)
  | load (index : List Value)
  | selectForUpdate (index : List Value)
  | selectOne (filter : Filter)
  | selectMany (filter : Filter)
  | selectOneWithSql (sql : String) (params : List Value)
  | selectManyWithSql (sql : String) (params : List Value)
  | count (column : String) (filter : Filter)
  | sum (column : String) (filter : Filter)
  | insert (data : List (String × Value)) (index : List Value)
  | update (record : Record μ) (set : List (String × Value))
  | remove (record : Record μ)

namespace Operation

/-- What an operation results in. -/
abbrev Result : Operation μ → Type
  | .queryCache _ | .select _ | .load _ | .selectForUpdate _ | .selectOne _
  | .selectOneWithSql .. | .insert .. => Record μ
  | .selectMany _ | .selectManyWithSql .. => List (Record μ)
  | .count .. | .sum .. => Int64
  | .update .. => UInt64
  | .remove _ => Unit

/-- Runs an operation. -/
def run (model : Model π μ) : (op : Operation μ) → Action π op.Result
  | .queryCache index => model.queryCache index
  | .select index => model.select index
  | .load index => model.load index
  | .selectForUpdate index => model.selectForUpdate index
  | .selectOne filter => model.selectOne filter
  | .selectMany filter => model.selectMany filter
  | .selectOneWithSql sql params => model.selectOneWithSql sql params
  | .selectManyWithSql sql params => model.selectManyWithSql sql params
  | .count column filter => model.count column filter
  | .sum column filter => model.sum column filter
  | .insert data index => model.insert data index
  | .update record set => model.update record set
  | .remove record => model.remove record

/-- The records in a result. -/
def records : (op : Operation μ) → op.Result → List (Record μ)
  | .queryCache _, record | .select _, record | .load _, record
  | .selectForUpdate _, record | .selectOne _, record | .selectOneWithSql .., record
  | .insert .., record => [record]
  | .selectMany _, records | .selectManyWithSql .., records => records
  | .count .., _ | .sum .., _ | .update .., _ | .remove _, _ => []

end Operation

end SqlSession
