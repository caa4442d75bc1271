import SqlSession.Error
import SqlSession.Text.Hex

/-!
# `SqlSession.RowKey`: keys of rows

A row is known by its table and the values of its index columns.
`rowKey` writes them as one text: the table, then a backtick and a
tagged value for each index column. A non-negative integer has the tag
`u` whatever its signedness, a negative one `i`; a text, and whatever
is written as a text, has the tag `s` and its length in bytes in front;
bytes that are no text have the tag `x`. Other values, empty texts and
empty index lists make no key.
-/

set_option autoImplicit false

namespace SqlSession

namespace RowKey

/-- A text with its length in bytes. -/
def textPart (table s : String) : Except Error String :=
  if s.isEmpty then .error (.cacheKey s!"empty string index value for table `{table}`")
  else .ok s!"s{s.utf8ByteSize}:{s}"

/-- One tagged value. -/
def part (table : String) : Value → Except Error String
  | .int i => .ok (if 0 ≤ i.toInt then s!"u{i.toInt.toNat}" else s!"i{i.toInt}")
  | .uint u => .ok s!"u{u.toNat}"
  | .text s => textPart table s
  | .bytes data =>
      match Text.Utf8.decode data with
      | .ok s => textPart table s
      | .error _ => .ok ("x" ++ Text.Hex.ofBytes data)
  | .uuid u => textPart table u.hyphenated
  | .dateTime t => textPart table t.text
  | v => .error (.cacheKey s!"unsupported {v.kind} index value for table `{table}`")

end RowKey

/-- The key of the row of a table that has the given index values. -/
def rowKey (table : String) (index : List Value) : Except Error String :=
  if index.isEmpty then .error (.cacheKey s!"no index values for table `{table}`")
  else do
    let parts ← index.mapM (RowKey.part table)
    return parts.foldl (fun key part => key ++ "`" ++ part) table

end SqlSession
