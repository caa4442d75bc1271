import Mathlib.Data.List.Chain
import SqlSession.Proofs.Identifier.Segments

/-!
# `SqlSession.Proofs.Identifier.Lexemes`: quoted references read back

Who reads a statement cuts it into lexemes: a backtick opens a quoted
name, the next one closes it unless it is doubled, and outside of
backticks every character stands for itself. `lex` is this reader.

`Identifier.lexemes` says what a reference is meant to be read as: the
segments of its name with dots between them, and its own alias behind
` AS `. Written out they are the quoted reference
(`toList_quoted`), and no quoted lexeme stands directly behind
another one (`isChain_lexemes`), so none of their backticks is taken for
half of a doubled one. `lexFrom_flatMap_chars` reads such lexemes back.
`quoteIdentifier_reads_back` puts this together: nothing of a reference
without backticks gets out of the quotes, and references that are written
alike have the same segments and the same alias.
-/

set_option autoImplicit false

namespace SqlSession

open Text

/-! ### Reading quotes -/

/-- A piece of a text with quotes: what stands between two backticks, or
a character outside of them. -/
inductive Lexeme where
  | quoted (content : List Char)
  | bare (c : Char)
  deriving DecidableEq, Repr

/-- Reads a text with quotes. `inside` is what was read since a backtick
opened, if none has closed since; a doubled backtick in there stands for
one. -/
def lexFrom : (inside : Option (List Char)) → List Char → Option (List Lexeme)
  | none, [] => some []
  | some _, [] => none
  | none, c :: cs =>
      if c = backtick then lexFrom (some []) cs else (lexFrom none cs).map (.bare c :: ·)
  | some content, [c] => if c = backtick then some [.quoted content] else none
  | some content, c :: d :: cs =>
      if c ≠ backtick then lexFrom (some (content ++ [c])) (d :: cs)
      else if d = backtick then lexFrom (some (content ++ [backtick])) cs
      else (lexFrom none (d :: cs)).map (.quoted content :: ·)

/-- The lexemes of a text, unless a quote in it stays open. -/
def lex (s : String) : Option (List Lexeme) := lexFrom none s.toList

namespace Lexeme

/-- A lexeme as it is written. -/
def chars : Lexeme → List Char
  | .quoted content => backtick :: (content ++ [backtick])
  | .bare c => [c]

/-- The character that a lexeme has outside of quotes. -/
def bare? : Lexeme → Option Char
  | .quoted _ => none
  | .bare c => some c

/-- There is no backtick in it but the two around it. -/
def Clean : Lexeme → Prop
  | .quoted content => backtick ∉ content
  | .bare c => c ≠ backtick

/-- Two lexemes that can stand next to each other: one of them is not
quoted. -/
def Apart (a b : Lexeme) : Prop := a.bare?.isSome ∨ b.bare?.isSome

end Lexeme

/-- Inside a quote everything is read up to a backtick that is not
doubled. -/
theorem lexFrom_inside {content rest : List Char} (h : backtick ∉ content)
    (hrest : rest.head? ≠ some backtick) (read : List Char) :
    lexFrom (some read) (content ++ backtick :: rest)
      = (lexFrom none rest).map (.quoted (read ++ content) :: ·) := by
  induction content generalizing read with
  | nil =>
      rw [List.nil_append, List.append_nil]
      cases rest with
      | nil => rfl
      | cons d cs =>
          have hd : d ≠ backtick := fun heq => hrest (congrArg some heq)
          exact (if_neg (not_not_intro rfl)).trans (if_neg hd)
  | cons c more ih =>
      rw [List.mem_cons, not_or] at h
      obtain ⟨hc, hmore⟩ := h
      -- Something follows the character: what is left of the content, or the closing backtick.
      obtain ⟨d, cs, hnext⟩ := List.exists_cons_of_ne_nil
        (List.append_ne_nil_of_right_ne_nil more (List.cons_ne_nil backtick rest))
      rw [List.cons_append, hnext, lexFrom, if_pos (Ne.symm hc), ← hnext, ih hmore,
        List.append_assoc, List.singleton_append]

/-- A lexeme in front is read first. -/
theorem lexFrom_chars {l : Lexeme} (h : l.Clean) {rest : List Char}
    (hrest : l.bare?.isSome ∨ rest.head? ≠ some backtick) :
    lexFrom none (l.chars ++ rest) = (lexFrom none rest).map (l :: ·) := by
  cases l with
  | quoted content =>
      have hend : rest.head? ≠ some backtick := hrest.resolve_left Bool.false_ne_true
      rw [Lexeme.chars, List.cons_append, lexFrom, if_pos rfl, List.append_assoc,
        List.singleton_append, lexFrom_inside h hend, List.nil_append]
  | bare c => rw [Lexeme.chars, List.singleton_append, lexFrom, if_neg h]

/-- Written lexemes are read back, if no quoted one stands directly behind
another. -/
theorem lexFrom_flatMap_chars {ls : List Lexeme} (hclean : ∀ l ∈ ls, l.Clean)
    (hapart : ls.IsChain Lexeme.Apart) : lexFrom none (ls.flatMap Lexeme.chars) = some ls := by
  induction ls with
  | nil => rfl
  | cons l rest ih =>
      obtain ⟨hnext, hchain⟩ := List.isChain_cons.mp hapart
      have hl := hclean l List.mem_cons_self
      have hread := ih (fun m hm => hclean m (List.mem_cons_of_mem _ hm)) hchain
      rw [List.flatMap_cons, lexFrom_chars hl, hread, Option.map_some]
      -- What follows a quoted lexeme is bare, or the end.
      cases rest with
      | nil => exact .inr nofun
      | cons m others =>
          refine (hnext m rfl).imp_right fun hm => ?_
          cases m with
          | quoted content => exact absurd hm Bool.false_ne_true
          | bare c =>
              have hc : c ≠ backtick := hclean (.bare c) (List.mem_cons_of_mem _ List.mem_cons_self)
              exact fun heq => hc (Option.some.inj heq)

/-! ### What a reference is read as -/

/-- A segment as it is read: the star is not quoted. -/
def Lexeme.ofSegment (segment : List Char) : Lexeme :=
  if segment = ['*'] then .bare '*' else .quoted segment

/-- Segments with dots between them. -/
def dottedLexemes (segments : List (List Char)) : List Lexeme :=
  (segments.map Lexeme.ofSegment).intersperse (.bare '.')

/-- What is read behind the segments: an alias behind ` AS `, if there is
one. -/
def aliasLexemes : Option (List Char) → List Lexeme
  | none => []
  | some knownAs => " AS ".toList.map Lexeme.bare ++ [.ofSegment knownAs]

namespace Identifier

/-- The segments of a name, without the blanks around them. -/
def segments (id : Identifier) : List (List Char) :=
  (id.name.toList.splitOn '.').map trimChars

/-- The alias of a reference, if it is not its name. -/
def ownAlias? (id : Identifier) : Option (List Char) :=
  if id.knownAs = id.name then none else some (trimChars id.knownAs.toList)

/-- What a reference is read as. -/
def lexemes (id : Identifier) : List Lexeme :=
  dottedLexemes id.segments ++ aliasLexemes id.ownAlias?

end Identifier

namespace Lexeme

/-- Two segments that are read as the same lexeme are the same: only the
star is bare. -/
theorem ofSegment_injective : Function.Injective ofSegment := by
  intro a b h
  unfold ofSegment at h
  split at h <;> split at h
  · next ha hb => rw [ha, hb]
  · exact nomatch h
  · exact nomatch h
  · exact quoted.inj h

/-- No segment is taken for a dot or a blank. -/
theorem ofSegment_ne_bare {c : Char} (h : c ≠ '*') (segment : List Char) :
    ofSegment segment ≠ .bare c := by
  unfold ofSegment
  split
  · exact fun heq => h (bare.inj heq).symm
  · exact nofun

/-- A segment without backticks has none as a lexeme. -/
theorem clean_ofSegment {segment : List Char} (h : backtick ∉ segment) :
    (ofSegment segment).Clean := by
  unfold ofSegment
  split
  · show '*' ≠ backtick
    decide
  · exact h

end Lexeme

/-- The first of several segments has a dot behind it. -/
theorem dottedLexemes_cons_cons (a b : List Char) (rest : List (List Char)) :
    dottedLexemes (a :: b :: rest) = .ofSegment a :: .bare '.' :: dottedLexemes (b :: rest) := rfl

/-- A lexeme of a dotted name is one of its segments or a dot. -/
theorem mem_dottedLexemes {segments : List (List Char)} {l : Lexeme}
    (h : l ∈ dottedLexemes segments) : (∃ s ∈ segments, l = .ofSegment s) ∨ l = .bare '.' := by
  induction segments with
  | nil => exact nomatch h
  | cons a rest ih =>
      cases rest with
      | nil => exact .inl ⟨a, List.mem_cons_self, List.mem_singleton.mp h⟩
      | cons b others =>
          rw [dottedLexemes_cons_cons, List.mem_cons, List.mem_cons] at h
          rcases h with rfl | rfl | h
          · exact .inl ⟨a, List.mem_cons_self, rfl⟩
          · exact .inr rfl
          · exact (ih h).imp_left fun ⟨s, hs, hl⟩ => ⟨s, List.mem_cons_of_mem _ hs, hl⟩

/-- Between two segments there is a dot. -/
theorem isChain_dottedLexemes (segments : List (List Char)) :
    (dottedLexemes segments).IsChain Lexeme.Apart := by
  induction segments with
  | nil => exact .nil
  | cons a rest ih =>
      cases rest with
      | nil => exact .singleton _
      | cons b others =>
          rw [dottedLexemes_cons_cons, List.isChain_cons_cons, List.isChain_cons]
          exact ⟨.inr rfl, fun _ _ => .inl rfl, ih⟩

/-- Segments with dots between them are written as their texts with dots
between them. -/
theorem flatMap_chars_dottedLexemes (segments : List (List Char)) :
    (dottedLexemes segments).flatMap Lexeme.chars
      = ['.'].intercalate (segments.map fun s => (Lexeme.ofSegment s).chars) := by
  induction segments with
  | nil => rfl
  | cons a rest ih =>
      cases rest with
      | nil =>
          rw [List.map_singleton, List.intercalate_singleton]
          exact List.flatMap_singleton Lexeme.chars (Lexeme.ofSegment a)
      | cons b others =>
          rw [dottedLexemes_cons_cons, List.flatMap_cons, List.flatMap_cons, ih, List.map_cons,
            List.map_cons, List.map_cons, List.intercalate_cons_cons, List.append_assoc]
          rfl

/-- The segments of a dotted name are what is left of its lexemes without
the dots. -/
theorem filter_dottedLexemes (segments : List (List Char)) :
    (dottedLexemes segments).filter (· != .bare '.') = segments.map .ofSegment := by
  have hkept : ∀ s : List Char, (Lexeme.ofSegment s != .bare '.') = true := fun s =>
    bne_iff_ne.mpr (Lexeme.ofSegment_ne_bare (by decide) s)
  -- The last segment has no dot behind it, so one and several are different cases.
  induction segments with
  | nil => rfl
  | cons a rest ih =>
      cases rest with
      | nil => exact List.filter_cons_of_pos (hkept a)
      | cons b others =>
          rw [dottedLexemes_cons_cons, List.filter_cons, if_pos (hkept a), List.filter_cons,
            if_neg (by decide), ih]
          rfl

/-- A dotted name is read as its segments and no others: they are what is
left without the dots. -/
theorem dottedLexemes_injective : Function.Injective dottedLexemes := by
  intro a b h
  have hfilter := congrArg (List.filter (· != .bare '.')) h
  rw [filter_dottedLexemes, filter_dottedLexemes] at hfilter
  exact Lexeme.ofSegment_injective.list_map hfilter

/-- So is the end of a reference as its alias, or as none. -/
theorem aliasLexemes_injective : Function.Injective aliasLexemes := by
  intro a b h
  cases a with
  | none =>
      cases b with
      | none => rfl
      | some knownAs => exact nomatch h
  | some knownAs =>
      cases b with
      | none => exact nomatch h
      | some other =>
          have hlast := List.singleton_inj.mp (List.append_cancel_left h)
          rw [Lexeme.ofSegment_injective hlast]

/-- There is no blank outside of quotes but in front of an alias, so what
is read tells the segments and the alias. -/
theorem append_aliasLexemes_inj {segments others : List (List Char)}
    {known other : Option (List Char)} :
    dottedLexemes segments ++ aliasLexemes known = dottedLexemes others ++ aliasLexemes other ↔
      segments = others ∧ known = other := by
  refine ⟨fun h => ?_, fun ⟨hsegments, hknown⟩ => by rw [hsegments, hknown]⟩
  have hsolid : ∀ (segments : List (List Char)), ∀ l ∈ dottedLexemes segments,
      (l != .bare ' ') = true := by
    intro segments l hl
    rcases mem_dottedLexemes hl with ⟨s, -, rfl⟩ | rfl
    · exact bne_iff_ne.mpr (Lexeme.ofSegment_ne_bare (by decide) s)
    · decide
  have hfront : ∀ known : Option (List Char),
      (aliasLexemes known).takeWhile (· != .bare ' ') = [] := by
    intro known
    cases known <;> rfl
  -- Cut at the first blank that is not quoted, and both names are what stands before it.
  have hname : dottedLexemes segments = dottedLexemes others := by
    have htake := congrArg (List.takeWhile (· != .bare ' ')) h
    rwa [List.takeWhile_append_of_pos (hsolid segments),
      List.takeWhile_append_of_pos (hsolid others), hfront, hfront, List.append_nil,
      List.append_nil] at htake
  rw [hname] at h
  exact ⟨dottedLexemes_injective hname, aliasLexemes_injective (List.append_cancel_left h)⟩

/-! ### References -/

namespace Identifier

/-- Cutting at dots brings in no characters. -/
theorem mem_of_mem_splitOn {c : Char} {cs piece : List Char} (hpiece : piece ∈ cs.splitOn '.')
    (hc : c ∈ piece) : c ∈ cs := by
  rw [← splitWhere_dot] at hpiece
  exact mem_splitWhere hpiece hc

/-- A piece without backticks counts as unquoted. It is trimmed and
quoted, or is the star. -/
theorem segmentChars_of_not_mem {cs : List Char} (h : backtick ∉ cs) :
    segmentChars cs = (Lexeme.ofSegment (trimChars cs)).chars := by
  -- What is quoted begins with a backtick.
  have hbare : isQuoted (trimChars cs) = false := by
    rw [Bool.eq_false_iff]
    intro hquoted
    rw [isQuoted, Bool.and_eq_true, Bool.and_eq_true, beq_iff_eq] at hquoted
    obtain ⟨rest, hrest⟩ := List.head?_eq_some_iff.mp hquoted.1.2
    exact h (mem_trimChars (hrest ▸ List.mem_cons_self))
  dsimp only [segmentChars]
  rw [hbare, Lexeme.ofSegment]
  by_cases hstar : trimChars cs = ['*']
  · rw [if_pos (.inl hstar), if_pos hstar, hstar]
    rfl
  · rw [if_neg (not_or.mpr ⟨hstar, Bool.false_ne_true⟩), if_neg hstar]
    rfl

/-- The segments of a name without backticks have none. -/
theorem backtick_not_mem_segments {id : Identifier} (h : backtick ∉ id.name.toList) :
    ∀ s ∈ id.segments, backtick ∉ s := by
  intro s hs hmem
  obtain ⟨piece, hpiece, rfl⟩ := List.mem_map.mp hs
  exact h (mem_of_mem_splitOn hpiece (mem_trimChars hmem))

/-- A reference without backticks is written as its lexemes are. -/
theorem toList_quoted {id : Identifier} (hname : backtick ∉ id.name.toList)
    (hknown : backtick ∉ id.knownAs.toList) :
    id.quoted.toList = id.lexemes.flatMap Lexeme.chars := by
  -- The name is written piece by piece, and each piece as its lexeme.
  have hdotted : (quoteDotted id.name).toList = (dottedLexemes id.segments).flatMap Lexeme.chars := by
    rw [quoteDotted, String.toList_ofList, dottedChars_eq, flatMap_chars_dottedLexemes, segments,
      List.map_map]
    congr 1
    exact List.map_congr_left fun piece hpiece => segmentChars_of_not_mem fun hmem =>
      hname (mem_of_mem_splitOn hpiece hmem)
  unfold quoted lexemes ownAlias?
  split
  · rw [hdotted, aliasLexemes, List.append_nil]
  · rw [String.toList_append, String.toList_append, hdotted, List.flatMap_append, quoteSegment,
      String.toList_ofList, segmentChars_of_not_mem hknown, List.append_assoc]
    simp [aliasLexemes, Lexeme.chars]

/-- The lexemes of a reference without backticks have none but those
around them. -/
theorem clean_lexemes {id : Identifier} (hname : backtick ∉ id.name.toList)
    (hknown : backtick ∉ id.knownAs.toList) : ∀ l ∈ id.lexemes, l.Clean := by
  intro l hl
  rcases List.mem_append.mp hl with hl | hl
  · rcases mem_dottedLexemes hl with ⟨s, hs, rfl⟩ | rfl
    · exact Lexeme.clean_ofSegment (backtick_not_mem_segments hname s hs)
    · show '.' ≠ backtick
      decide
  · unfold ownAlias? at hl
    split at hl
    · exact nomatch hl
    · rcases List.mem_append.mp hl with hl | hl
      · obtain ⟨c, hc, rfl⟩ := List.mem_map.mp hl
        show c ≠ backtick
        rintro rfl
        exact absurd hc (by decide)
      · rw [List.mem_singleton.mp hl]
        exact Lexeme.clean_ofSegment fun hmem => hknown (mem_trimChars hmem)

/-- Between two quoted lexemes of a reference there is always a dot or a
blank. -/
theorem isChain_lexemes (id : Identifier) : id.lexemes.IsChain Lexeme.Apart := by
  refine List.isChain_append.mpr ⟨isChain_dottedLexemes _, ?_, fun l _ m hm => ?_⟩
  · unfold ownAlias?
    split
    · exact .nil
    · rw [aliasLexemes]
      simp [Lexeme.Apart, Lexeme.bare?]
  · -- An alias has a blank in front.
    unfold ownAlias? at hm
    split at hm
    · exact nomatch hm
    · rw [← Option.some.inj hm]
      exact .inr rfl

end Identifier

/-- Outside of quotes there are dots and stars between segments. -/
theorem bare_dottedLexemes {segments : List (List Char)} {c : Char}
    (h : c ∈ (dottedLexemes segments).filterMap Lexeme.bare?) : c = '.' ∨ c = '*' := by
  obtain ⟨l, hl, hc⟩ := List.mem_filterMap.mp h
  rcases mem_dottedLexemes hl with ⟨s, -, rfl⟩ | rfl
  · unfold Lexeme.ofSegment at hc
    split at hc
    · exact .inr (Option.some.inj hc).symm
    · exact nomatch hc
  · exact .inl (Option.some.inj hc).symm

/-- What an alias shows outside of quotes. -/
theorem bare_aliasLexemes (knownAs : List Char) :
    (aliasLexemes (some knownAs)).filterMap Lexeme.bare?
      = " AS ".toList ++ if knownAs = ['*'] then ['*'] else [] := by
  rw [aliasLexemes, List.filterMap_append, List.filterMap_map]
  unfold Lexeme.ofSegment
  split <;> rfl

/-- A reference without backticks, whatever else is in it, is read back
from its quoted form: the trimmed segments of its name, each quoted, with
dots between them, and behind ` AS ` its alias, quoted, if that is not
the name. A segment or an alias that is a star stays bare.

So nothing of the reference but dots and stars is outside of quotes, and
besides them there is only the ` AS `. Two references are written alike
exactly if they have the same segments and the same alias of their own,
or both none. -/
theorem quoteIdentifier_reads_back {s : String} (h : backtick ∉ s.toList) :
    let id := Identifier.parse s
    lex (quoteIdentifier s) = some (dottedLexemes id.segments ++ aliasLexemes id.ownAlias?) ∧
    (∃ signs : List Char, (∀ c ∈ signs, c = '.' ∨ c = '*') ∧
      id.lexemes.filterMap Lexeme.bare? = signs ++
        match id.ownAlias? with
        | none => []
        | some knownAs => " AS ".toList ++ if knownAs = ['*'] then ['*'] else []) ∧
    ∀ t : String, backtick ∉ t.toList →
      (quoteIdentifier s = quoteIdentifier t ↔
        id.segments = (Identifier.parse t).segments ∧
          id.ownAlias? = (Identifier.parse t).ownAlias?) := by
  -- What is parsed from a text without backticks has none.
  have hparsed : ∀ {t : String}, backtick ∉ t.toList →
      (quoteIdentifier t).toList = (Identifier.parse t).lexemes.flatMap Lexeme.chars ∧
        lex (quoteIdentifier t) = some (Identifier.parse t).lexemes := by
    intro t ht
    have hname : backtick ∉ (Identifier.parse t).name.toList := fun hmem =>
      ht (Identifier.mem_parse (.inl hmem))
    have hknown : backtick ∉ (Identifier.parse t).knownAs.toList := fun hmem =>
      ht (Identifier.mem_parse (.inr hmem))
    have hwritten := Identifier.toList_quoted hname hknown
    refine ⟨hwritten, ?_⟩
    rw [lex, quoteIdentifier, hwritten]
    exact lexFrom_flatMap_chars (Identifier.clean_lexemes hname hknown)
      (Identifier.isChain_lexemes _)
  intro id
  obtain ⟨hwritten, hread⟩ := hparsed h
  refine ⟨hread, ⟨(dottedLexemes id.segments).filterMap Lexeme.bare?,
    fun c hc => bare_dottedLexemes hc, ?_⟩, fun t ht => ?_⟩
  · rw [Identifier.lexemes, List.filterMap_append]
    cases id.ownAlias? with
    | none => rfl
    | some knownAs => rw [bare_aliasLexemes]
  · obtain ⟨hother, hreadOther⟩ := hparsed ht
    rw [← append_aliasLexemes_inj]
    constructor
    · intro heq
      rw [heq, hreadOther] at hread
      exact (Option.some.inj hread).symm
    · intro heq
      have hlexemes : id.lexemes = (Identifier.parse t).lexemes := heq
      rw [← String.toList_inj, hwritten, hother, hlexemes]

/-- Blanks inside a segment and around another one, a star, and the
keyword in mixed case. -/
theorem quoteIdentifier_reads_back_star :
    let s := "a b. c .* aS d.e"
    let t := "  a b.c . * AS  d.e "
    backtick ∉ s.toList ∧ backtick ∉ t.toList ∧
      lex (quoteIdentifier s) = some ([.quoted "a b".toList, .bare '.', .quoted ['c'], .bare '.',
        .bare '*'] ++ (" AS ".toList.map Lexeme.bare ++ [.quoted "d.e".toList])) ∧
      quoteIdentifier s = quoteIdentifier t := by
  intro s t
  have hs : backtick ∉ s.toList := by decide
  have ht : backtick ∉ t.toList := by decide
  obtain ⟨hread, -, hiff⟩ := quoteIdentifier_reads_back hs
  exact ⟨hs, ht, hread.trans (by decide +kernel), (hiff t ht).mpr (by decide +kernel)⟩

end SqlSession
