import SqlSession.Proofs.Identifier
import SqlSession.Statement.Draft
import SqlSession.Statement.Join

/-!
# `SqlSession.Proofs.Statement.Placeholders`: counting placeholders

How many placeholders a text has that was put together from others.
Trimming keeps all of them, as a placeholder is not a blank. Quoting a
name and qualifying a column add none, so a name without placeholders
is written without placeholders.
-/

set_option autoImplicit false

namespace SqlSession

/-- The placeholders of two texts are those of both. -/
theorem placeholderCount_append (s t : String) :
    placeholderCount (s ++ t) = placeholderCount s + placeholderCount t := by
  rw [placeholderCount, String.toList_append, List.count_append]
  rfl

/-- No placeholders means no mark. -/
theorem placeholderCount_eq_zero {s : String} : placeholderCount s = 0 ↔ '?' ∉ s.toList :=
  List.count_eq_zero

/-- Trimming takes blanks, and the mark is none. -/
theorem placeholderCount_trim (s : String) :
    placeholderCount (Text.trim s) = placeholderCount s := by
  rw [placeholderCount, Text.trim, String.toList_ofList,
    Text.count_trimChars (show Text.isBlank '?' = false by decide)]
  rfl

/-- A separator without placeholders adds none between texts. -/
theorem placeholderCount_intercalate {separator : String} (h : placeholderCount separator = 0)
    (texts : List String) :
    placeholderCount (separator.intercalate texts) = placeholderCount (String.join texts) := by
  induction texts with
  | nil => rfl
  | cons s rest ih =>
      rw [String.join_cons, placeholderCount_append, ← ih]
      cases rest with
      | nil =>
          rw [String.intercalate_singleton]
          rfl
      | cons t others =>
          rw [String.intercalate_cons_cons, placeholderCount_append, placeholderCount_append, h,
            Nat.add_zero]

/-- Texts without placeholders have none when they are joined. -/
theorem placeholderCount_intercalate_eq_zero {separator : String} {texts : List String}
    (h : placeholderCount separator = 0) (htexts : ∀ s ∈ texts, placeholderCount s = 0) :
    placeholderCount (separator.intercalate texts) = 0 := by
  rw [placeholderCount_intercalate h]
  induction texts with
  | nil => rfl
  | cons s rest ih =>
      rw [String.join_cons, placeholderCount_append, htexts s List.mem_cons_self,
        ih fun t ht => htexts t (List.mem_cons_of_mem _ ht)]

/-- What is made of each element of a list, with a separator between. -/
theorem placeholderCount_intercalate_map {α : Type} {separator : String} {f : α → String}
    {xs : List α} (h : placeholderCount separator = 0) (hxs : ∀ x ∈ xs, placeholderCount (f x) = 0) :
    placeholderCount (separator.intercalate (xs.map f)) = 0 := by
  refine placeholderCount_intercalate_eq_zero h fun s hs => ?_
  obtain ⟨x, hx, rfl⟩ := List.mem_map.mp hs
  exact hxs x hx

/-- One placeholder for each element of a list. -/
theorem placeholderCount_marks {α : Type} (xs : List α) :
    placeholderCount (",".intercalate (xs.map fun _ => "?")) = xs.length := by
  have hmark : placeholderCount "?" = 1 := by decide
  rw [placeholderCount_intercalate (by decide)]
  induction xs with
  | nil => rfl
  | cons x rest ih =>
      rw [List.map_cons, String.join_cons, placeholderCount_append, ih, hmark, List.length_cons,
        Nat.add_comm]

/-! ### Names -/

/-- A quoted reference has only characters of its own, backticks, dots and
` AS `. -/
theorem placeholderCount_quoteIdentifier {s : String} (h : placeholderCount s = 0) :
    placeholderCount (quoteIdentifier s) = 0 := by
  rw [placeholderCount_eq_zero] at h ⊢
  intro hmark
  rcases mem_quoteIdentifier hmark with hs | hc | hc | hc
  · exact h hs
  · exact absurd hc (by decide)
  · exact absurd hc (by decide)
  · exact absurd hc (by decide)

/-- A quoted dotted name has only characters of its own, backticks and
dots. -/
theorem placeholderCount_quoteDotted {s : String} (h : placeholderCount s = 0) :
    placeholderCount (quoteDotted s) = 0 := by
  rw [placeholderCount_eq_zero] at h ⊢
  intro hmark
  rcases mem_quoteDotted hmark with hs | hc | hc
  · exact h hs
  · exact absurd hc (by decide)
  · exact absurd hc (by decide)

/-- The alias of a table, between backticks. -/
theorem placeholderCount_quoteSegment_tableAlias {table : String}
    (h : placeholderCount table = 0) : placeholderCount (quoteSegment (tableAlias table)) = 0 := by
  rw [placeholderCount_eq_zero] at h ⊢
  intro hmark
  rcases mem_quoteSegment hmark with hs | hc
  · exact h (Identifier.mem_parse (.inr hs))
  · exact absurd hc (by decide)

/-- A column is put under an alias with nothing but a dot between them. -/
theorem placeholderCount_qualifyColumn {quotedAlias column : String}
    (halias : placeholderCount quotedAlias = 0) (h : placeholderCount column = 0) :
    placeholderCount (qualifyColumn quotedAlias column) = 0 := by
  unfold qualifyColumn
  split
  · exact placeholderCount_quoteIdentifier h
  · rw [placeholderCount_append, placeholderCount_append, halias,
      placeholderCount_quoteIdentifier h]
    rfl

end SqlSession
