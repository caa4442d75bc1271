import Mathlib.Data.List.DropRight
import SqlSession.Text.Blank

/-!
# `SqlSession.Proofs.Text.Blank`: what trimming and cutting keep

Trimming takes blanks away and nothing else: `mem_trimChars`, and
`count_trimChars` for a character that is not a blank. What is trimmed
already stays as it is (`trimChars_trimChars`). Cutting a text into
pieces makes up no characters either: `mem_splitWhere`, `mem_cutAt`.
The pieces are those of the library (`splitWhere_eq_splitOnP`).
-/

set_option autoImplicit false

namespace SqlSession.Text

/-! ### Trimming -/

/-- Trimming brings in no character. -/
theorem mem_trimChars {c : Char} {cs : List Char} (h : c ∈ trimChars cs) : c ∈ cs := by
  unfold trimChars at h
  have hback := (List.dropWhile_sublist isBlank).subset (List.mem_reverse.mp h)
  exact (List.dropWhile_sublist isBlank).subset (List.mem_reverse.mp hback)

/-- Dropping blanks drops nothing else. -/
theorem count_dropWhile_isBlank {c : Char} (h : isBlank c = false) (cs : List Char) :
    (cs.dropWhile isBlank).count c = cs.count c := by
  induction cs with
  | nil => rfl
  | cons d ds ih =>
      by_cases hd : isBlank d = true
      · have hne : d ≠ c := fun heq => by
          rw [heq, h] at hd
          exact Bool.false_ne_true hd
        rw [List.dropWhile_cons_of_pos hd, ih, List.count_cons_of_ne hne]
      · rw [List.dropWhile_cons_of_neg hd]

/-- Trimming keeps every occurrence of a character that is not a blank. -/
theorem count_trimChars {c : Char} (h : isBlank c = false) (cs : List Char) :
    (trimChars cs).count c = cs.count c := by
  rw [trimChars, List.count_reverse, count_dropWhile_isBlank h, List.count_reverse,
    count_dropWhile_isBlank h]

/-- What is trimmed at both ends is a front of what is trimmed at one, so
it begins with no blank. -/
theorem dropWhile_isBlank_trimChars (cs : List Char) :
    (trimChars cs).dropWhile isBlank = trimChars cs := by
  obtain ⟨back, hcut⟩ := List.rdropWhile_prefix isBlank (cs.dropWhile isBlank)
  cases htrim : trimChars cs with
  | nil => rfl
  | cons c rest =>
      have hhead := List.head?_dropWhile_not isBlank cs
      have hfront : cs.dropWhile isBlank = c :: rest ++ back := by
        rw [← htrim]
        exact hcut.symm
      rw [hfront] at hhead
      have hsolid : isBlank c = false := hhead
      exact List.dropWhile_cons_of_neg (Bool.eq_false_iff.mp hsolid)

/-- What is trimmed is not trimmed any further. -/
theorem trimChars_trimChars (cs : List Char) : trimChars (trimChars cs) = trimChars cs := by
  show ((trimChars cs).dropWhile isBlank).rdropWhile isBlank = trimChars cs
  rw [dropWhile_isBlank_trimChars]
  exact List.rdropWhile_idempotent isBlank (cs.dropWhile isBlank)

/-- A blank in front is trimmed away. -/
theorem trimChars_cons_of_isBlank {c : Char} (h : isBlank c = true) (cs : List Char) :
    trimChars (c :: cs) = trimChars cs := by
  rw [trimChars, List.dropWhile_cons_of_pos h]
  rfl

/-- A blank behind is trimmed away. -/
theorem trimChars_concat_of_isBlank {c : Char} (h : isBlank c = true) (cs : List Char) :
    trimChars (cs ++ [c]) = trimChars cs := by
  show ((cs ++ [c]).dropWhile isBlank).rdropWhile isBlank = (cs.dropWhile isBlank).rdropWhile isBlank
  rw [List.dropWhile_append]
  split
  · next hempty =>
    -- There was nothing but blanks.
    rw [List.isEmpty_iff.mp hempty, List.dropWhile_cons_of_pos h, List.dropWhile_nil]
  · exact List.rdropWhile_concat_pos isBlank (cs.dropWhile isBlank) c h

/-! ### Cutting -/

/-- The pieces between characters are those that the library splits
into. -/
theorem splitWhere_eq_splitOnP (p : Char → Bool) (cs : List Char) :
    splitWhere p cs = cs.splitOnP p := by
  induction cs with
  | nil => rfl
  | cons c cs ih =>
      rw [splitWhere, List.splitOnP_cons_eq_if_modifyHead, ih]
      split
      · rfl
      · cases hpieces : cs.splitOnP p with
        | nil => exact absurd hpieces (List.splitOnP_ne_nil p cs)
        | cons piece pieces => rfl

/-- Nor does splitting. -/
theorem mem_splitWhere {p : Char → Bool} {c : Char} {cs piece : List Char}
    (hpiece : piece ∈ splitWhere p cs) (hc : c ∈ piece) : c ∈ cs := by
  induction cs generalizing piece with
  | nil =>
      rw [List.mem_singleton.mp hpiece] at hc
      exact nomatch hc
  | cons d ds ih =>
      rw [splitWhere] at hpiece
      by_cases hd : p d = true
      · rw [if_pos hd] at hpiece
        rcases List.mem_cons.mp hpiece with rfl | h
        · exact nomatch hc
        · exact List.mem_cons_of_mem _ (ih h hc)
      · rw [if_neg hd] at hpiece
        cases hrest : splitWhere p ds with
        | nil =>
            rw [hrest] at hpiece
            rw [List.mem_singleton.mp hpiece, List.mem_singleton] at hc
            exact hc ▸ List.mem_cons_self
        | cons first others =>
            rw [hrest] at hpiece ih
            rcases List.mem_cons.mp hpiece with rfl | h
            · -- The character in front belongs to the first piece.
              rcases List.mem_cons.mp hc with rfl | hc
              · exact List.mem_cons_self
              · exact List.mem_cons_of_mem _ (ih List.mem_cons_self hc)
            · exact List.mem_cons_of_mem _ (ih (List.mem_cons_of_mem _ h) hc)

/-- What stands before and after a cut stood in the text. -/
theorem mem_cutAt {c d : Char} {cs before after : List Char}
    (h : cutAt d cs = some (before, after)) (hc : c ∈ before ∨ c ∈ after) : c ∈ cs := by
  induction cs generalizing before with
  | nil => exact nomatch h
  | cons e es ih =>
      rw [cutAt] at h
      by_cases he : e = d
      · rw [if_pos he] at h
        obtain ⟨rfl, rfl⟩ := Prod.mk.inj (Option.some.inj h)
        exact List.mem_cons_of_mem _ (hc.resolve_left (List.not_mem_nil))
      · rw [if_neg he, Option.map_eq_some_iff] at h
        obtain ⟨⟨first, second⟩, hcut, heq⟩ := h
        obtain ⟨rfl, rfl⟩ := Prod.mk.inj heq
        rcases hc with hc | hc
        · rcases List.mem_cons.mp hc with rfl | hc
          · exact List.mem_cons_self
          · exact List.mem_cons_of_mem _ (ih hcut (.inl hc))
        · exact List.mem_cons_of_mem _ (ih hcut (.inr hc))

end SqlSession.Text
