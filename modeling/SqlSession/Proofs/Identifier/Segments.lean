import SqlSession.Proofs.Identifier

/-!
# `SqlSession.Proofs.Identifier.Segments`: names quoted in whole and by segments

A table reference is quoted segment by segment, while the name that its
columns are put under is quoted as one segment. `segmentChars_eq_dottedChars_iff`
says when both give the same text: for a name without a dot, and for one
between backticks whose segments are written between backticks already.
Else the two differ (`qualifier_eq_introduced_iff`), unless the reference
has an alias of its own, which is quoted in one way only.

What decides is the number of backticks: quoting a segment adds two of
them or none (`count_segmentChars`), and quoting a name in whole puts
one in front of its first segment and one behind its last.
-/

set_option autoImplicit false

namespace SqlSession

open Text

namespace Identifier

/-! ### One segment -/

/-- Quoting adds two backticks or none. -/
theorem count_segmentChars (cs : List Char) :
    (segmentChars cs).count backtick = cs.count backtick ∨
      (segmentChars cs).count backtick = cs.count backtick + 2 := by
  have hinner := count_trimChars (show isBlank backtick = false by decide) cs
  dsimp only [segmentChars]
  split
  · exact .inl hinner
  · right
    rw [List.count_cons_self, List.count_append, hinner, List.count_singleton_self]

/-- Quoting adds no backtick in front alone. -/
theorem segmentChars_ne_cons (cs : List Char) : segmentChars cs ≠ backtick :: cs := by
  intro h
  have hcount := congrArg (List.count backtick) h
  rw [List.count_cons_self] at hcount
  have hquoted := count_segmentChars cs
  omega

/-- What stands between backticks has no blanks at its ends. -/
theorem trimChars_of_isQuoted {cs : List Char} (h : isQuoted cs = true) : trimChars cs = cs := by
  rw [isQuoted, Bool.and_eq_true, Bool.and_eq_true, beq_iff_eq, beq_iff_eq] at h
  obtain ⟨⟨-, hfirst⟩, hlast⟩ := h
  -- The first and the last character are backticks, which trimming stops at.
  have hsolid : isBlank backtick = false := by decide
  have hfront : cs.dropWhile isBlank = cs := by
    obtain ⟨rest, rfl⟩ := List.head?_eq_some_iff.mp hfirst
    exact List.dropWhile_cons_of_neg (Bool.eq_false_iff.mp hsolid)
  show (cs.dropWhile isBlank).rdropWhile isBlank = cs
  rw [hfront, List.rdropWhile_eq_self_iff]
  intro hne
  rw [List.getLast?_eq_some_getLast hne] at hlast
  rw [Option.some.inj hlast]
  exact Bool.eq_false_iff.mp hsolid

/-- A segment is written as it stands if it is the star or stands between
backticks. -/
theorem segmentChars_eq_self_iff {cs : List Char} :
    segmentChars cs = cs ↔ cs = ['*'] ∨ isQuoted cs = true := by
  constructor
  · intro h
    dsimp only [segmentChars] at h
    split at h
    · next hplain =>
      rw [h] at hplain
      exact hplain
    · -- Two backticks were added, so the text is another one.
      have hcount := congrArg (List.count backtick) h
      rw [List.count_cons_self, List.count_append, List.count_singleton_self,
        count_trimChars (by decide)] at hcount
      omega
  · rintro (rfl | hquoted)
    · decide
    · have htrim := trimChars_of_isQuoted hquoted
      dsimp only [segmentChars]
      rw [htrim, if_pos (.inr hquoted)]

/-! ### Dotted names -/

/-- The segments of a name are those that the library splits it into. -/
theorem splitWhere_dot (cs : List Char) : splitWhere (· == '.') cs = cs.splitOn '.' :=
  splitWhere_eq_splitOnP _ cs

/-- A name is quoted by segments with dots between them. -/
theorem dottedChars_eq (cs : List Char) :
    dottedChars cs = ['.'].intercalate ((cs.splitOn '.').map segmentChars) := by
  rw [dottedChars, splitWhere_dot]

/-- No segment has a dot in it. -/
theorem dot_not_mem_of_mem_splitOn {cs segment : List Char} (h : segment ∈ cs.splitOn '.') :
    '.' ∉ segment := by
  induction cs generalizing segment with
  | nil =>
      rw [List.mem_singleton.mp h]
      exact List.not_mem_nil
  | cons c cs ih =>
      rw [List.splitOn_cons_eq_if_modifyHead] at h
      split at h
      · rcases List.mem_cons.mp h with rfl | hrest
        · exact List.not_mem_nil
        · exact ih hrest
      · next hc =>
        -- The character goes to the first segment of what is left.
        cases hpieces : cs.splitOn '.' with
        | nil => exact absurd hpieces (List.splitOn_ne_nil '.' cs)
        | cons first rest =>
            rw [hpieces] at h ih
            rcases List.mem_cons.mp h with rfl | hrest
            · rw [List.mem_cons]
              rintro (heq | hmem)
              · exact hc (beq_iff_eq.mpr heq.symm)
              · exact ih List.mem_cons_self hmem
            · exact ih (List.mem_cons_of_mem _ hrest)

/-- A quoted name has the quoted segments. -/
theorem splitOn_dottedChars (cs : List Char) :
    (dottedChars cs).splitOn '.' = (cs.splitOn '.').map segmentChars := by
  rw [dottedChars_eq]
  refine List.splitOn_intercalate '.' ?_ ?_
  · intro quoted hquoted hdot
    obtain ⟨segment, hsegment, rfl⟩ := List.mem_map.mp hquoted
    rcases mem_segmentChars hdot with hmem | htick
    · exact dot_not_mem_of_mem_splitOn hsegment hmem
    · exact absurd htick (by decide)
  · exact fun hnil => List.splitOn_ne_nil '.' cs (List.map_eq_nil_iff.mp hnil)

/-- A name without dots is its only segment. -/
theorem dottedChars_of_not_mem {cs : List Char} (h : '.' ∉ cs) :
    dottedChars cs = segmentChars cs := by
  rw [dottedChars_eq, List.splitOn_eq_singleton h, List.map_singleton,
    List.intercalate_singleton]

/-- A dotted name is written as it stands if each of its segments is. -/
theorem dottedChars_eq_self_iff {cs : List Char} :
    dottedChars cs = cs ↔ ∀ segment ∈ cs.splitOn '.', segmentChars segment = segment := by
  constructor
  · intro h
    have hsegments := splitOn_dottedChars cs
    rw [h] at hsegments
    exact List.map_inj_left.mp (hsegments.symm.trans (List.map_id' _).symm)
  · intro h
    rw [dottedChars_eq, List.map_congr_left h, List.map_id', List.intercalate_splitOn]

/-- A name with a dot that does not stand between backticks is written in
two ways: between two backticks in whole, and by segments. -/
theorem segmentChars_ne_dottedChars {cs : List Char} (htrim : trimChars cs = cs)
    (hdot : '.' ∈ cs) (hbare : isQuoted cs = false) : segmentChars cs ≠ dottedChars cs := by
  have hstar : cs ≠ ['*'] := by
    rintro rfl
    exact absurd hdot (by decide)
  have hwhole : segmentChars cs = backtick :: (cs ++ [backtick]) := by
    dsimp only [segmentChars]
    rw [htrim, hbare, if_neg]
    exact not_or.mpr ⟨hstar, Bool.false_ne_true⟩
  obtain ⟨first, rest, rfl, hfirst⟩ := List.eq_append_cons_of_mem hdot
  have htick : '.' ∉ backtick :: first := by
    rw [List.mem_cons]
    rintro (h | h)
    · exact absurd h (by decide)
    · exact hfirst h
  -- Cut at dots, the first piece would be the first segment with one backtick more.
  intro heq
  have hcut := congrArg (List.splitOn '.') heq
  rw [hwhole, splitOn_dottedChars, List.splitOn_append_cons_self_of_not_mem hfirst,
    List.append_assoc, List.cons_append, ← List.cons_append,
    List.splitOn_append_cons_self_of_not_mem htick, List.map_cons] at hcut
  exact segmentChars_ne_cons first (List.cons.inj hcut).1.symm

/-- A name that is quoted in one way only, in whole and by segments: one
without a dot, and one between backticks whose segments are stars or
stand between backticks themselves. -/
def Plain (cs : List Char) : Prop :=
  '.' ∉ cs ∨ isQuoted cs = true ∧
    ∀ segment ∈ splitWhere (· == '.') cs, segment = ['*'] ∨ isQuoted segment = true

/-- Whether a name is quoted in one way only can be computed. -/
instance (cs : List Char) : Decidable (Plain cs) := inferInstanceAs (Decidable (_ ∨ _))

/-- A trimmed name is quoted in whole as it is by segments exactly if it
is plain. -/
theorem segmentChars_eq_dottedChars_iff {cs : List Char} (htrim : trimChars cs = cs) :
    segmentChars cs = dottedChars cs ↔ Plain cs := by
  by_cases hdot : '.' ∈ cs
  · cases hquoted : isQuoted cs with
    | false =>
        refine iff_of_false (segmentChars_ne_dottedChars htrim hdot hquoted) ?_
        rintro (hno | ⟨hyes, -⟩)
        · exact hno hdot
        · exact Bool.false_ne_true (hquoted.symm.trans hyes)
    | true =>
        -- In whole the name is left as it stands, so its segments must be as well.
        have hwhole : segmentChars cs = cs := segmentChars_eq_self_iff.mpr (.inr hquoted)
        rw [hwhole, eq_comm, dottedChars_eq_self_iff, Plain, splitWhere_dot]
        simp only [segmentChars_eq_self_iff, hquoted, hdot, not_true_eq_false, false_or, true_and]
  · exact iff_of_true (dottedChars_of_not_mem hdot).symm (.inl hdot)

/-! ### References -/

/-- What a clause that names a table writes before the name that it
introduces: the table that an alias stands for. -/
def lead (id : Identifier) : String :=
  if id.knownAs = id.name then "" else quoteDotted id.name ++ " AS "

/-- The name that a clause introduces for a table: the alias if one is
written, else the reference itself. -/
def introduced (id : Identifier) : String :=
  if id.knownAs = id.name then quoteDotted id.name else quoteSegment id.knownAs

/-- A reference is written as the name it introduces, behind what that
name is for. -/
theorem quoted_eq (id : Identifier) : id.quoted = id.lead ++ id.introduced := by
  unfold quoted lead introduced
  split
  · exact String.empty_append.symm
  · rfl

/-- A name that is read from a text has no blanks at its ends. -/
theorem trimChars_name (s : String) :
    trimChars (parse s).name.toList = (parse s).name.toList := by
  simp only [parse, String.toList_ofList, parts]
  split
  · exact trimChars_trimChars _
  · split
    · exact trimChars_trimChars _
    · exact trimChars_trimChars _

end Identifier

/-- The name that a table's columns are put under. -/
def qualifier (table : String) : String := quoteSegment (tableAlias table)

/-- The name that a clause with a table introduces for it. -/
def introduced (table : String) : String := (Identifier.parse table).introduced

/-- A table whose columns can be put under the name that is introduced for
it: it has an alias of its own, or its name is quoted in one way only. -/
def Addressable (table : String) : Prop :=
  (Identifier.parse table).knownAs ≠ (Identifier.parse table).name ∨
    Identifier.Plain (Identifier.parse table).name.toList

/-- Whether a table is addressable can be computed. -/
instance (table : String) : Decidable (Addressable table) := inferInstanceAs (Decidable (_ ∨ _))

/-- The columns of a table are put under the name that is introduced for
it exactly if the table is addressable. -/
theorem qualifier_eq_introduced_iff (table : String) :
    qualifier table = introduced table ↔ Addressable table := by
  unfold qualifier introduced Addressable tableAlias Identifier.introduced
  have htrim := Identifier.trimChars_name table
  generalize Identifier.parse table = id at htrim ⊢
  by_cases hknown : id.knownAs = id.name
  · rw [if_pos hknown, hknown, quoteSegment, quoteDotted, String.ofList_inj,
      Identifier.segmentChars_eq_dottedChars_iff htrim]
    simp only [ne_eq, not_true_eq_false, false_or]
  · rw [if_neg hknown]
    exact iff_of_true rfl (.inl hknown)

end SqlSession
