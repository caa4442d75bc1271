import SqlSession.Condition.Predicate

/-!
# `SqlSession.Condition.Binding`: conditions rendered onto parameters

Who writes a statement by hand renders a condition on its own, behind
the parameters that the statement has so far. `build` gives the text of
the condition, or the error of a bad part of it, and the parameters
afterwards: what was bound before the bad part stays bound.
-/

set_option autoImplicit false

namespace SqlSession

/-- A single condition behind parameters. -/
def Expression.build (e : Expression) (params : List Value) : Except Error String × List Value :=
  match e.error with
  | some err => (.error err, params)
  | none => (.ok e.spec, params ++ e.values)

/-- A text continued by another one, with the combinator between them
where both have something. -/
def Combinator.join (combinator : Combinator) (sql fragment : String) : String :=
  if sql.isEmpty || fragment.isEmpty then sql ++ fragment else sql ++ combinator.text ++ fragment

mutual

/-- A condition behind parameters. -/
def Node.build (params : List Value) : Node → Except Error String × List Value
  | .leaf e => e.build params
  | .group entries =>
      match buildEntries "" params entries with
      | (.error err, params) => (.error err, params)
      | (.ok inner, params) =>
          (.ok (if 1 < entries.length ∧ !inner.isEmpty then "(" ++ inner ++ ")" else inner), params)
termination_by structural node => node

/-- Entries one after another, behind the text and the parameters of
those before them; nothing comes after a bad one. -/
def buildEntries (sql : String) (params : List Value) :
    List Entry → Except Error String × List Value
  | [] => (.ok sql, params)
  | (combinator, node) :: rest =>
      match node.build params with
      | (.error err, params) => (.error err, params)
      | (.ok fragment, params) => buildEntries (combinator.join sql fragment) params rest
termination_by structural entries => entries

end

/-- A predicate behind parameters. -/
def Predicate.build (p : Predicate) (params : List Value) : Except Error String × List Value :=
  buildEntries "" params p.entries

end SqlSession
