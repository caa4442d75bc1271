import SqlSession.Json.Reader
import SqlSession.Text.Utf8
import SqlSession.Value.Basic

/-!
# `SqlSession.Value.Decode`: data from values

`fromValue` reads a value as data of a type, or says why it cannot be
read so. Integers of either signedness are read as any integer type
that holds them, and as truth values and binary64 numbers; bytes and
texts are read as each other; identifiers and documents are also read
from their texts; a null is an absent option of any type.
-/

set_option autoImplicit false

namespace SqlSession

/-- Why a column cannot be read as asked. -/
inductive DecodeFault where
  | mismatch (expected found : String)
  | outOfRange
  | notUtf8 (flaw : Text.Utf8.Flaw)
  | notUuid
  | notJson
  | columnNotFound
  | custom (message : String)
  deriving DecidableEq, Repr

/-- The wording of a fault. -/
def DecodeFault.message : DecodeFault → String
  | .mismatch expected found => s!"expected {expected}, got {found}"
  | .outOfRange => "out of range integral type conversion attempted"
  | .notUtf8 flaw => flaw.message
  | .notUuid => "the text is no UUID"
  | .notJson => "the text is no JSON document"
  | .columnNotFound => "column not found"
  | .custom message => message

/-- Types that can be read from values. -/
class FromValue (α : Type) where
  fromValue : Value → Except DecodeFault α

export FromValue (fromValue)

namespace Value

/-- The fault of a value of another kind than expected. -/
def mismatch {α : Type} (expected : String) (v : Value) : Except DecodeFault α :=
  .error (.mismatch expected v.kind)

end Value

instance : FromValue Value := ⟨.ok⟩

instance : FromValue Bool where
  fromValue
    | .bool b => .ok b
    | .int i => .ok (i != 0)
    | .uint u => .ok (u != 0)
    | v => v.mismatch "bool"

instance : FromValue Int64 where
  fromValue
    | .int i => .ok i
    | .uint u => if u.toNat ≤ Int64.maxValue.toInt then .ok (Int64.ofNat u.toNat) else .error .outOfRange
    | v => v.mismatch "integer"

instance : FromValue Int32 where
  fromValue v := do
    let wide : Int64 ← fromValue v
    if Int32.minValue.toInt ≤ wide.toInt ∧ wide.toInt ≤ Int32.maxValue.toInt then .ok (Int32.ofInt wide.toInt)
    else .error .outOfRange

instance : FromValue UInt64 where
  fromValue
    | .uint u => .ok u
    | .int i => if 0 ≤ i.toInt then .ok (UInt64.ofNat i.toInt.toNat) else .error .outOfRange
    | v => v.mismatch "unsigned integer"

instance : FromValue Double where
  fromValue
    | .float d => .ok d
    | .int i => .ok (.ofInt i.toInt)
    | .uint u => .ok (.ofInt u.toNat)
    | v => v.mismatch "float"

instance : FromValue String where
  fromValue
    | .text s => .ok s
    | .bytes data => (Text.Utf8.decode data).mapError .notUtf8
    | v => v.mismatch "text"

instance : FromValue (List UInt8) where
  fromValue
    | .bytes data => .ok data
    | .text s => .ok (Text.Utf8.encode s)
    | v => v.mismatch "bytes"

instance : FromValue Uuid where
  fromValue
    | .uuid u => .ok u
    | .text s => (Uuid.parse s).elim (.error .notUuid) .ok
    | v => v.mismatch "uuid"

instance : FromValue DateTime where
  fromValue
    | .dateTime t => .ok t
    | v => v.mismatch "datetime"

instance : FromValue Json where
  fromValue
    | .json doc => .ok doc
    | .text s => (Json.parse s).elim (.error .notJson) .ok
    | v => v.mismatch "json"

instance {α : Type} [FromValue α] : FromValue (Option α) where
  fromValue
    | .null => .ok none
    | v => some <$> fromValue v

end SqlSession
