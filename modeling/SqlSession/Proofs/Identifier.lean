import SqlSession.Identifier
import SqlSession.Proofs.Text.Blank

/-!
# `SqlSession.Proofs.Identifier`: the characters of quoted names

A quoted name has no characters but those of the text it was read from,
and those that quoting brings along: backticks, the dots between
segments, and ` AS ` in front of an alias. `mem_quoteIdentifier` says so
for a whole reference, `mem_quoteDotted` and `mem_quoteSegment` for its
parts.
-/

set_option autoImplicit false

namespace SqlSession

open Text

namespace Identifier

/-! ### Quoting -/

/-- Quoting a segment brings in backticks alone. -/
theorem mem_segmentChars {c : Char} {cs : List Char} (h : c ∈ segmentChars cs) :
    c ∈ cs ∨ c = backtick := by
  dsimp only [segmentChars] at h
  split at h
  · exact .inl (mem_trimChars h)
  · rw [List.mem_cons, List.mem_append, List.mem_singleton] at h
    rcases h with h | h | h
    · exact .inr h
    · exact .inl (mem_trimChars h)
    · exact .inr h

/-- Joining pieces with dots brings in dots alone. -/
theorem mem_intercalate_dot {c : Char} {pieces : List (List Char)}
    (h : c ∈ ['.'].intercalate pieces) : (∃ piece ∈ pieces, c ∈ piece) ∨ c = '.' := by
  induction pieces with
  | nil => exact nomatch h
  | cons first rest ih =>
      cases rest with
      | nil =>
          rw [List.intercalate_singleton] at h
          exact .inl ⟨first, List.mem_cons_self, h⟩
      | cons second others =>
          rw [List.intercalate_cons_cons, List.mem_append, List.mem_append] at h
          rcases h with (h | h) | h
          · exact .inl ⟨first, List.mem_cons_self, h⟩
          · exact .inr (List.mem_singleton.mp h)
          · exact (ih h).imp_left fun ⟨piece, hpiece, hc⟩ =>
              ⟨piece, List.mem_cons_of_mem _ hpiece, hc⟩

/-- Quoting a dotted name brings in backticks and dots. -/
theorem mem_dottedChars {c : Char} {cs : List Char} (h : c ∈ dottedChars cs) :
    c ∈ cs ∨ c = backtick ∨ c = '.' := by
  -- The character is in some quoted segment, or it is a dot between two.
  rcases mem_intercalate_dot h with ⟨quoted, hquoted, hc⟩ | hdot
  · obtain ⟨piece, hpiece, rfl⟩ := List.mem_map.mp hquoted
    rcases mem_segmentChars hc with hc | hc
    · exact .inl (mem_splitWhere hpiece hc)
    · exact .inr (.inl hc)
  · exact .inr (.inr hdot)

/-! ### Reading -/

/-- Cutting at the keyword brings in nothing. -/
theorem mem_cutAs {c : Char} {cs before after : List Char}
    (h : cutAs cs = some (before, after)) (hc : c ∈ before ∨ c ∈ after) : c ∈ cs := by
  induction cs generalizing before with
  | nil => exact nomatch h
  | cons e es ih =>
      rw [cutAs] at h
      split at h
      · -- The keyword stands here: nothing is before it, and the rest is behind it.
        obtain ⟨rfl, rfl⟩ := Prod.mk.inj (Option.some.inj h)
        exact List.mem_of_mem_drop (hc.resolve_left List.not_mem_nil)
      · rw [Option.map_eq_some_iff] at h
        obtain ⟨⟨first, second⟩, hcut, heq⟩ := h
        obtain ⟨rfl, rfl⟩ := Prod.mk.inj heq
        rcases hc with hc | hc
        · rcases List.mem_cons.mp hc with rfl | hc
          · exact List.mem_cons_self
          · exact List.mem_cons_of_mem _ (ih hcut (.inl hc))
        · exact List.mem_cons_of_mem _ (ih hcut (.inr hc))

/-- The name and the alias are parts of the text. -/
theorem mem_parts {c : Char} {cs : List Char} (hc : c ∈ (parts cs).1 ∨ c ∈ (parts cs).2) :
    c ∈ cs := by
  unfold parts at hc
  cases has : cutAs cs with
  | some cut =>
      rw [has] at hc
      exact mem_cutAs has (hc.imp mem_trimChars mem_trimChars)
  | none =>
      -- Without the keyword the first space is what a reference is cut at.
      cases hspace : cutAt ' ' cs with
      | some cut =>
          rw [has, hspace] at hc
          exact mem_cutAt hspace (hc.imp mem_trimChars mem_trimChars)
      | none =>
          rw [has, hspace] at hc
          exact hc.elim id id

/-- The name and the alias that are read from a text have its characters. -/
theorem mem_parse {c : Char} {s : String}
    (hc : c ∈ (parse s).name.toList ∨ c ∈ (parse s).knownAs.toList) : c ∈ s.toList := by
  simp only [parse, String.toList_ofList] at hc
  exact mem_trimChars (mem_parts hc)

end Identifier

/-- A quoted segment has the characters of its text and backticks. -/
theorem mem_quoteSegment {c : Char} {s : String} (h : c ∈ (quoteSegment s).toList) :
    c ∈ s.toList ∨ c = backtick := by
  rw [quoteSegment, String.toList_ofList] at h
  exact Identifier.mem_segmentChars h

/-- A quoted dotted name may have dots as well. -/
theorem mem_quoteDotted {c : Char} {s : String} (h : c ∈ (quoteDotted s).toList) :
    c ∈ s.toList ∨ c = backtick ∨ c = '.' := by
  rw [quoteDotted, String.toList_ofList] at h
  exact Identifier.mem_dottedChars h

/-- The characters of a quoted reference. -/
theorem mem_quoteIdentifier {c : Char} {s : String} (h : c ∈ (quoteIdentifier s).toList) :
    c ∈ s.toList ∨ c = backtick ∨ c = '.' ∨ c ∈ " AS ".toList := by
  have hname : c ∈ (quoteDotted (Identifier.parse s).name).toList →
      c ∈ s.toList ∨ c = backtick ∨ c = '.' ∨ c ∈ " AS ".toList := fun h =>
    (mem_quoteDotted h).imp (fun h => Identifier.mem_parse (.inl h)) (·.imp_right .inl)
  unfold quoteIdentifier Identifier.quoted at h
  split at h
  · exact hname h
  · rw [String.toList_append, String.toList_append, List.mem_append, List.mem_append] at h
    rcases h with (h | h) | h
    · exact hname h
    · exact .inr (.inr (.inr h))
    · exact (mem_quoteSegment h).imp (fun h => Identifier.mem_parse (.inr h)) .inl

end SqlSession
