import SqlSession.Value.Basic

/-!
# `SqlSession.Value.Convert`: values from data

`toValue` makes a value of a piece of data by its type. A sequence
becomes a list, except that bytes stay together as one value; an absent
option is a null.
-/

set_option autoImplicit false

namespace SqlSession

/-- Types whose data can be bound. -/
class ToValue (α : Type) where
  toValue : α → Value

export ToValue (toValue)

instance : ToValue Value := ⟨id⟩
instance : ToValue Bool := ⟨.bool⟩
instance : ToValue Int64 := ⟨.int⟩
instance : ToValue Int32 := ⟨fun i => .int i.toInt64⟩
instance : ToValue Int16 := ⟨fun i => .int i.toInt64⟩
instance : ToValue Int8 := ⟨fun i => .int i.toInt64⟩
instance : ToValue UInt64 := ⟨.uint⟩
instance : ToValue UInt32 := ⟨fun u => .uint u.toUInt64⟩
instance : ToValue UInt16 := ⟨fun u => .uint u.toUInt64⟩
instance : ToValue UInt8 := ⟨fun u => .uint u.toUInt64⟩
instance : ToValue Double := ⟨.float⟩
instance : ToValue String := ⟨.text⟩
instance : ToValue Uuid := ⟨.uuid⟩
instance : ToValue DateTime := ⟨.dateTime⟩
instance : ToValue Json := ⟨.json⟩

instance {α : Type} [ToValue α] : ToValue (Option α) where
  toValue
    | some a => toValue a
    | none => .null

instance {α : Type} [ToValue α] : ToValue (List α) :=
  ⟨fun items => .list (items.map toValue)⟩

/-- Bytes are one value and no list. -/
instance (priority := high) : ToValue (List UInt8) := ⟨.bytes⟩

end SqlSession
