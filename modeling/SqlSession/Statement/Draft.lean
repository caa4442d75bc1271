import SqlSession.Error

/-!
# `SqlSession.Statement.Draft`: statements as pieces

A statement is put together from fragments, each a piece of text with
the values of the placeholders in it. A `Draft` is a sequence of
fragments and, if putting it together failed, the reason: the fragments
are then those before the failure. The text of the whole and its
parameters are read off the same sequence, so a parameter cannot lose
its placeholder.
-/

set_option autoImplicit false

namespace SqlSession

/-- The number of placeholders in a text. -/
def placeholderCount (s : String) : Nat := s.toList.count '?'

/-- A piece of a statement and the values bound in it, in order. -/
structure Fragment where
  text : String
  values : List Value
  deriving Inhabited, Repr

/-- A statement with its parameters in the order of their placeholders. -/
structure Query where
  sql : String
  params : List Value
  deriving Inhabited, Repr

/-- Equality of statements, with parameters equal as values: a NaN among
them equals nothing. -/
def Query.same (a b : Query) : Bool := a.sql == b.sql && Value.sameAll a.params b.params

/-- Fragments in order, up to a failure if there is one. -/
structure Draft where
  fragments : List Fragment
  failure : Option Error
  deriving Inhabited, Repr

namespace Draft

/-- Nothing to be written. -/
def empty : Draft := ⟨[], none⟩

/-- A text with the values bound in it. -/
def bound (text : String) (values : List Value) : Draft := ⟨[⟨text, values⟩], none⟩

/-- A text that binds nothing. -/
def plain (text : String) : Draft := bound text []

/-- Nothing that can be written, and why. -/
def failed (e : Error) : Draft := ⟨[], some e⟩

/-- One draft after another; nothing comes after a failure. -/
def append (a b : Draft) : Draft :=
  match a.failure with
  | some _ => a
  | none => ⟨a.fragments ++ b.fragments, b.failure⟩

instance : Append Draft := ⟨append⟩

/-- Whether no fragment has any text. -/
def isEmpty (d : Draft) : Bool := d.fragments.all fun f => f.text.isEmpty

/-- The texts of all fragments, one after another. -/
def text (d : Draft) : String := String.join (d.fragments.map (·.text))

/-- The values of all fragments, one after another. -/
def values (d : Draft) : List Value := d.fragments.flatMap (·.values)

/-- One draft after another with a separator between their texts, where
both have one. -/
def add (a : Draft) (separator : String) (b : Draft) : Draft :=
  if a.isEmpty || b.isEmpty then a ++ b else a ++ plain separator ++ b

/-- Drafts in order with a separator between their texts; a draft
without text leaves no trace of itself. -/
def joinWith (separator : String) (drafts : List Draft) : Draft :=
  drafts.foldl (fun whole d => whole.add separator d) empty

/-- A keyword in front of a draft that has any text. -/
def headed (keyword : String) (d : Draft) : Draft :=
  if d.isEmpty then d else plain (keyword ++ " ") ++ d

/-- A draft between parentheses. -/
def parenthesized (d : Draft) : Draft := plain "(" ++ d ++ plain ")"

/-- The text, or the reason why there is none. -/
def result (d : Draft) : Except Error String :=
  match d.failure with
  | some e => .error e
  | none => .ok d.text

/-- The statement, or the reason why there is none. -/
def query (d : Draft) : Except Error Query :=
  match d.failure with
  | some e => .error e
  | none => .ok ⟨d.text, d.values⟩

end Draft

end SqlSession
