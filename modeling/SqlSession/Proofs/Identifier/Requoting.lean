import SqlSession.Proofs.Identifier.Segments
import SqlSession.Statement.Join

/-!
# `SqlSession.Proofs.Identifier.Requoting`: names quoted beforehand

A name may be quoted before it is given to something that quotes it.
Quoting by segments then leaves it as it is if it is `Enclosed`: if each of
its segments is the star or stands between backticks
(`quoteDotted_eq_self_iff`). Every name is enclosed once it was quoted by
segments (`enclosed_quoteDotted`), and one without a dot also once it was
quoted in whole (`enclosed_quoteSegment`).

Quoting by segments does not see the blanks around a name
(`quoteDotted_trim`), so it is what the columns of a join are quoted with
(`Join.condition_on`), and references that have no space
(`quoteIdentifier_of_not_mem`).

`quoting_idempotent` puts this together. A dot ends a segment and a space
ends a name wherever they stand, between backticks too: other names are cut
there and quoted once more (`quoted_again`).
-/

set_option autoImplicit false

namespace SqlSession

open Text

namespace Identifier

/-! ### Quoted segments -/

/-- What stands between backticks counts as quoted, whatever it is. -/
theorem isQuoted_between (cs : List Char) : isQuoted (backtick :: (cs ++ [backtick])) = true := by
  have hlast : (backtick :: (cs ++ [backtick])).getLast? = some backtick := by
    rw [← List.cons_append, List.getLast?_append, List.getLast?_singleton, Option.some_or]
  rw [isQuoted, hlast]
  simp

/-- A quoted segment is the star or stands between backticks. -/
theorem segmentChars_settled (cs : List Char) :
    segmentChars cs = ['*'] ∨ isQuoted (segmentChars cs) = true := by
  dsimp only [segmentChars]
  split
  · assumption
  · exact .inr (isQuoted_between (trimChars cs))

/-- A segment is quoted once: what comes out is the star or stands between
backticks, and is left alone. -/
theorem segmentChars_segmentChars (cs : List Char) :
    segmentChars (segmentChars cs) = segmentChars cs :=
  segmentChars_eq_self_iff.mpr (segmentChars_settled cs)

/-! ### Enclosed names -/

/-- A name with segments that are stars or stand between backticks. -/
def Enclosed (cs : List Char) : Prop :=
  ∀ segment ∈ splitWhere (· == '.') cs, segment = ['*'] ∨ isQuoted segment = true

/-- Whether every segment is the star or quoted can be checked. -/
instance (cs : List Char) : Decidable (Enclosed cs) := inferInstanceAs (Decidable (∀ _ ∈ _, _))

/-- Quoting by segments leaves exactly the enclosed names as they are. -/
theorem dottedChars_eq_self_iff_enclosed {cs : List Char} :
    dottedChars cs = cs ↔ Enclosed cs := by
  rw [dottedChars_eq_self_iff, Enclosed, splitWhere_dot]
  exact forall₂_congr fun segment _ => segmentChars_eq_self_iff

/-- Quoting by segments encloses a name. -/
theorem enclosed_dottedChars (cs : List Char) : Enclosed (dottedChars cs) := by
  intro segment hsegment
  rw [splitWhere_dot, splitOn_dottedChars] at hsegment
  obtain ⟨piece, -, rfl⟩ := List.mem_map.mp hsegment
  exact segmentChars_settled piece

/-! ### Blanks around a name -/

/-- A segment is quoted by what is left of it without the blanks around. -/
theorem segmentChars_congr {cs ds : List Char} (h : trimChars cs = trimChars ds) :
    segmentChars cs = segmentChars ds := by
  dsimp only [segmentChars]
  rw [h]

/-- A blank in front belongs to the first segment, and goes with the
blanks around that one. -/
theorem dottedChars_cons_of_isBlank {c : Char} (h : isBlank c = true) (cs : List Char) :
    dottedChars (c :: cs) = dottedChars cs := by
  have hdot : (c == '.') = false := beq_eq_false_iff_ne.mpr fun heq => by
    rw [heq] at h
    exact absurd h (by decide)
  rw [dottedChars_eq, dottedChars_eq, List.splitOn_cons_eq_if_modifyHead, hdot,
    if_neg Bool.false_ne_true]
  -- The blank belongs to the first segment.
  cases hpieces : cs.splitOn '.' with
  | nil => exact absurd hpieces (List.splitOn_ne_nil '.' cs)
  | cons first rest =>
      have hfirst : segmentChars (c :: first) = segmentChars first :=
        segmentChars_congr (trimChars_cons_of_isBlank h first)
      rw [List.modifyHead_cons, List.map_cons, List.map_cons, hfirst]

/-- A character that is no dot goes to the last segment. -/
theorem exists_splitOn_concat {c : Char} (h : c ≠ '.') (cs : List Char) :
    ∃ segments last, cs.splitOn '.' = segments ++ [last] ∧
      (cs ++ [c]).splitOn '.' = segments ++ [last ++ [c]] := by
  induction cs with
  | nil =>
      refine ⟨[], [], List.splitOn_nil '.', List.splitOn_eq_singleton ?_⟩
      rw [List.nil_append, List.mem_singleton]
      exact h.symm
  | cons d ds ih =>
      obtain ⟨segments, last, hds, hconcat⟩ := ih
      rw [List.cons_append, List.splitOn_cons_eq_if_modifyHead,
        List.splitOn_cons_eq_if_modifyHead, hds, hconcat]
      -- A dot opens a segment in front; any other character is put into the first one.
      split
      · exact ⟨[] :: segments, last, rfl, rfl⟩
      · cases segments with
        | nil => exact ⟨[], d :: last, rfl, rfl⟩
        | cons first rest => exact ⟨(d :: first) :: rest, last, rfl, rfl⟩

/-- A blank at the end belongs to the last segment. -/
theorem dottedChars_concat_of_isBlank {c : Char} (h : isBlank c = true) (cs : List Char) :
    dottedChars (cs ++ [c]) = dottedChars cs := by
  have hdot : c ≠ '.' := by
    rintro rfl
    exact absurd h (by decide)
  obtain ⟨segments, last, hcs, hconcat⟩ := exists_splitOn_concat hdot cs
  rw [dottedChars_eq, dottedChars_eq, hcs, hconcat, List.map_append, List.map_append,
    List.map_singleton, List.map_singleton,
    segmentChars_congr (trimChars_concat_of_isBlank h last)]

/-- Blanks in front are not seen. -/
theorem dottedChars_dropWhile (cs : List Char) :
    dottedChars (cs.dropWhile isBlank) = dottedChars cs := by
  induction cs with
  | nil => rfl
  | cons c cs ih =>
      by_cases hc : isBlank c = true
      · rw [List.dropWhile_cons_of_pos hc, ih, dottedChars_cons_of_isBlank hc]
      · rw [List.dropWhile_cons_of_neg hc]

/-- Nor are blanks at the end. -/
theorem dottedChars_rdropWhile (cs : List Char) :
    dottedChars (cs.rdropWhile isBlank) = dottedChars cs := by
  induction cs using List.reverseRecOn with
  | nil => rfl
  | append_singleton cs c ih =>
      by_cases hc : isBlank c = true
      · rw [List.rdropWhile_concat_pos _ _ _ hc, ih, dottedChars_concat_of_isBlank hc]
      · rw [List.rdropWhile_concat_neg _ _ _ hc]

/-- Quoting by segments does not see the blanks around a name. -/
theorem dottedChars_trimChars (cs : List Char) : dottedChars (trimChars cs) = dottedChars cs :=
  (dottedChars_rdropWhile (cs.dropWhile isBlank)).trans (dottedChars_dropWhile cs)

/-! ### References without a space -/

/-- Only a space is a space in small letters. -/
theorem eq_space_of_toLower {c : Char} (h : c.toLower = ' ') : c = ' ' := by
  unfold Char.toLower at h
  split at h
  · next hupper =>
    -- It would be the capital letter 32 characters before the space.
    have hval : c.val + 32 = 32 := congrArg Char.val h
    have hzero : c.val = 0 := by simpa using hval
    rw [hzero] at hupper
    exact absurd hupper.1 (by decide)
  · exact h

/-- Without a space there is no alias behind the word AS. -/
theorem cutAs_of_not_mem {cs : List Char} (h : ' ' ∉ cs) : cutAs cs = none := by
  induction cs with
  | nil => rfl
  | cons c cs ih =>
      rw [List.mem_cons, not_or] at h
      rw [cutAs, if_neg, ih h.2, Option.map_none]
      intro hkeyword
      exact h.1 (eq_space_of_toLower (List.cons.inj hkeyword).1).symm

/-- What does not occur cuts nothing. -/
theorem cutAt_of_not_mem {c : Char} {cs : List Char} (h : c ∉ cs) : cutAt c cs = none := by
  induction cs with
  | nil => rfl
  | cons d ds ih =>
      rw [List.mem_cons, not_or] at h
      rw [cutAt, if_neg (Ne.symm h.1), ih h.2, Option.map_none]

/-- Without a space there is nothing to cut at. -/
theorem parts_of_not_mem {cs : List Char} (h : ' ' ∉ cs) : parts cs = (cs, cs) := by
  rw [parts, cutAs_of_not_mem h, cutAt_of_not_mem h]

end Identifier

/-! ### Texts -/

/-- A name with segments that are stars or stand between backticks. -/
def Enclosed (name : String) : Prop := Identifier.Enclosed name.toList

/-- Whether a name is enclosed can be checked. -/
instance (name : String) : Decidable (Enclosed name) :=
  inferInstanceAs (Decidable (Identifier.Enclosed _))

/-- A name is quoted in whole once. -/
theorem quoteSegment_quoteSegment (s : String) :
    quoteSegment (quoteSegment s) = quoteSegment s := by
  rw [quoteSegment, quoteSegment, String.toList_ofList, Identifier.segmentChars_segmentChars]

/-- A segment is written as it stands if it is the star or stands between
backticks. -/
theorem quoteSegment_eq_self_iff {s : String} :
    quoteSegment s = s ↔ s = "*" ∨ Identifier.isQuoted s.toList = true := by
  have hstar : s = "*" ↔ s.toList = ['*'] := by
    rw [← String.toList_inj]
    rfl
  rw [hstar, ← Identifier.segmentChars_eq_self_iff, ← String.toList_inj, quoteSegment,
    String.toList_ofList]

/-- A name is written as it stands if it is enclosed. -/
theorem quoteDotted_eq_self_iff {s : String} : quoteDotted s = s ↔ Enclosed s := by
  rw [← String.toList_inj, quoteDotted, String.toList_ofList, Enclosed,
    Identifier.dottedChars_eq_self_iff_enclosed]

/-- Quoting by segments encloses every name. -/
theorem enclosed_quoteDotted (s : String) : Enclosed (quoteDotted s) := by
  rw [Enclosed, quoteDotted, String.toList_ofList]
  exact Identifier.enclosed_dottedChars s.toList

/-- A name is quoted by segments once. -/
theorem quoteDotted_quoteDotted (s : String) : quoteDotted (quoteDotted s) = quoteDotted s :=
  quoteDotted_eq_self_iff.mpr (enclosed_quoteDotted s)

/-- A name without a dot is quoted alike in whole and by segments. -/
theorem quoteDotted_of_not_mem {s : String} (h : '.' ∉ s.toList) :
    quoteDotted s = quoteSegment s :=
  congrArg String.ofList (Identifier.dottedChars_of_not_mem h)

/-- Quoting in whole encloses a name without a dot: it has one segment. -/
theorem enclosed_quoteSegment {s : String} (h : '.' ∉ s.toList) : Enclosed (quoteSegment s) := by
  rw [← quoteDotted_of_not_mem h]
  exact enclosed_quoteDotted s

/-- Quoting by segments does not see the blanks around a name. -/
theorem quoteDotted_trim (s : String) : quoteDotted (trim s) = quoteDotted s := by
  rw [quoteDotted, trim, String.toList_ofList, Identifier.dottedChars_trimChars]
  rfl

/-- A reference without a space has no alias of its own. -/
theorem quoteIdentifier_of_not_mem {s : String} (h : ' ' ∉ s.toList) :
    quoteIdentifier s = quoteDotted s := by
  have hparts : Identifier.parts (trimChars s.toList) = (trimChars s.toList, trimChars s.toList) :=
    Identifier.parts_of_not_mem fun hmem => h (mem_trimChars hmem)
  have hparse : Identifier.parse s = ⟨trim s, trim s⟩ := by
    rw [Identifier.parse, hparts]
    rfl
  rw [quoteIdentifier, hparse, Identifier.quoted, if_pos rfl, quoteDotted_trim]

/-- The columns that a join compares are quoted by segments. -/
theorem Join.condition_on (kind : JoinKind) (target : String) (parts columns : List String) :
    (Join.on kind target parts columns).condition = "=".intercalate (parts.map quoteDotted) :=
  congrArg ("=".intercalate ·) (List.map_congr_left fun part _ => quoteDotted_trim part)

/-- What is done to columns beforehand does not matter to a join if quoting
by segments does not see it. -/
theorem Join.on_map {f : String → String} {parts : List String}
    (h : ∀ part ∈ parts, quoteDotted (f part) = quoteDotted part) (kind : JoinKind)
    (target : String) (columns : List String) :
    Join.on kind target (parts.map f) columns = Join.on kind target parts columns := by
  have hcondition : (Join.on kind target (parts.map f) columns).condition
      = (Join.on kind target parts columns).condition := by
    rw [condition_on, condition_on, List.map_map]
    exact congrArg _ (List.map_congr_left h)
  exact congrArg (Join.mk kind target · columns) hcondition

/-- Quoting a second time, in whole or by segments, changes nothing, and
neither does quoting the columns of a join beforehand, by segments or, if
they have no dot, in whole: a join writes each of them as quoting by segments
does. What is left as it is by quoting in whole is a star or stands between
backticks, and what is left as it is by quoting by segments is enclosed.
Names are enclosed once they were quoted by segments, or in whole if they
have no dot, and an enclosed name without a space stays as it is where a
reference is expected, too. -/
theorem quoting_idempotent :
    (∀ s, quoteSegment (quoteSegment s) = quoteSegment s) ∧
    (∀ s, quoteDotted (quoteDotted s) = quoteDotted s) ∧
    (∀ kind target parts columns,
      (Join.on kind target parts columns).condition = "=".intercalate (parts.map quoteDotted) ∧
      Join.on kind target (parts.map quoteDotted) columns = .on kind target parts columns ∧
      ((∀ part ∈ parts, '.' ∉ part.toList) →
        Join.on kind target (parts.map quoteSegment) columns = .on kind target parts columns)) ∧
    (∀ s, quoteSegment s = s ↔ s = "*" ∨ Identifier.isQuoted s.toList = true) ∧
    (∀ s, quoteDotted s = s ↔ Enclosed s) ∧
    (∀ s, Enclosed (quoteDotted s)) ∧
    (∀ s, '.' ∉ s.toList → Enclosed (quoteSegment s)) ∧
    ∀ s, Enclosed s → ' ' ∉ s.toList → quoteIdentifier s = s ∧ quoteTable s = s := by
  refine ⟨quoteSegment_quoteSegment, quoteDotted_quoteDotted,
    fun kind target parts columns => ⟨Join.condition_on kind target parts columns, ?_, ?_⟩,
    fun s => quoteSegment_eq_self_iff, fun s => quoteDotted_eq_self_iff, enclosed_quoteDotted,
    fun s => enclosed_quoteSegment, fun s henclosed hspace => ?_⟩
  · exact Join.on_map (fun part _ => quoteDotted_quoteDotted part) kind target columns
  · intro hdots
    refine Join.on_map (fun part hpart => ?_) kind target columns
    -- Without a dot both ways of quoting are one.
    rw [← quoteDotted_of_not_mem (hdots part hpart), quoteDotted_quoteDotted]
  · have hquoted : quoteIdentifier s = s :=
      (quoteIdentifier_of_not_mem hspace).trans (quoteDotted_eq_self_iff.mpr henclosed)
    exact ⟨hquoted, hquoted⟩

/-- Blanks, an empty segment and a stray backtick, and a name with a space. -/
theorem quoting_idempotent_stray :
    let s := " a . .b\x60"
    let t := "first name"
    quoteDotted s = "\x60a\x60.\x60\x60.\x60b\x60\x60" ∧
      quoteDotted (quoteDotted s) = quoteDotted s ∧
      Enclosed (quoteDotted s) ∧ ' ' ∉ (quoteDotted s).toList ∧
      quoteIdentifier (quoteDotted s) = quoteDotted s ∧
      '.' ∉ t.toList ∧ quoteSegment t = "\x60first name\x60" ∧ Enclosed (quoteSegment t) ∧
      Join.on .inner "u" ([t].map quoteSegment) [] = .on .inner "u" [t] [] := by
  intro s t
  obtain ⟨-, hdotted, hjoin, -, -, henclosed, hwhole, hreference⟩ := quoting_idempotent
  have hspace : ' ' ∉ (quoteDotted s).toList := by decide +kernel
  have hdot : '.' ∉ t.toList := by decide +kernel
  refine ⟨by decide +kernel, hdotted s, henclosed s, hspace, (hreference _ (henclosed s) hspace).1,
    hdot, by decide +kernel, hwhole t hdot, ?_⟩
  refine (hjoin .inner "u" [t] []).2.2 fun part hpart => ?_
  rw [List.mem_singleton.mp hpart]
  exact hdot

/-- A name with a dot that was quoted in whole is cut and quoted again as a
column of a join, and a name with a space as a reference. -/
theorem quoted_again :
    quoteSegment "a.b" = "\x60a.b\x60" ∧
      (Join.on .inner "u" ["\x60a.b\x60", "\x60u\x60.\x60id\x60"] []).condition
        = "\x60\x60a\x60.\x60b\x60\x60=\x60u\x60.\x60id\x60" ∧
      quoteSegment "first name" = "\x60first name\x60" ∧
      quoteDotted "first name" = "\x60first name\x60" ∧
      quoteIdentifier "\x60first name\x60" = "\x60\x60first\x60 AS \x60name\x60\x60" ∧
      (¬ ∀ s, quoteDotted (quoteSegment s) = quoteSegment s) ∧
      (¬ ∀ s, quoteIdentifier (quoteSegment s) = quoteSegment s) ∧
      ¬ ∀ s, quoteIdentifier (quoteDotted s) = quoteDotted s := by
  -- A dot between backticks still ends a segment, and a space still ends the name.
  refine ⟨by decide +kernel, by decide +kernel, by decide +kernel, by decide +kernel,
    by decide +kernel, fun h => ?_, fun h => ?_, fun h => ?_⟩
  · exact absurd (h "a.b") (by decide +kernel)
  · exact absurd (h "first name") (by decide +kernel)
  · exact absurd (h "first name") (by decide +kernel)

end SqlSession
