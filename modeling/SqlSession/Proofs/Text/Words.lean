import SqlSession.Proofs.Text.Blank

/-!
# `SqlSession.Proofs.Text.Words`: the words of a text

Words are the longest runs of a text without a blank. The step equations
`wordChars_append_of_blanks` and `wordChars_append_of_isWord` read them
off from the left: blanks are skipped, and a word ends where the text
does or where a blank follows. `wordChars_eq_nil_iff` and
`wordChars_eq_cons_iff` are the way back, from the words of a text to
how it is written. `trimChars_eq_nil_iff` says the same of trimming: what
is trimmed to nothing has no word in it.
-/

set_option autoImplicit false

namespace SqlSession.Text

/-- Nothing but blanks. -/
def Blanks (cs : List Char) : Prop := ∀ c ∈ cs, isBlank c = true

/-- No characters are blanks. -/
theorem blanks_nil : Blanks [] := fun _ hc => absurd hc List.not_mem_nil

/-- A word: it has a character, and no blank. -/
structure IsWord (cs : List Char) : Prop where
  ne_nil : cs ≠ []
  solid : ∀ c ∈ cs, isBlank c = false

/-- A text that does not go on with a character of a word. -/
def Ends (cs : List Char) : Prop := ∀ c ∈ cs.head?, isBlank c = true

/-- The words in a sequence of characters. -/
def wordChars (cs : List Char) : List (List Char) :=
  (splitWhere isBlank cs).filter fun w => !w.isEmpty

/-- The words of a text are those of its characters. -/
theorem words_eq (s : String) : words s = (wordChars s.toList).map String.ofList := rfl

/-! ### From left to right -/

/-- A blank in front is skipped. -/
theorem wordChars_cons_of_isBlank {c : Char} (h : isBlank c = true) (cs : List Char) :
    wordChars (c :: cs) = wordChars cs := by
  rw [wordChars, splitWhere, if_pos h]
  exact List.filter_cons_of_neg (by simp)

/-- Blanks in front are skipped. -/
theorem wordChars_append_of_blanks {lead : List Char} (h : Blanks lead) (cs : List Char) :
    wordChars (lead ++ cs) = wordChars cs := by
  induction lead with
  | nil => rfl
  | cons c rest ih =>
      rw [List.cons_append, wordChars_cons_of_isBlank (h c List.mem_cons_self)]
      exact ih fun d hd => h d (List.mem_cons_of_mem _ hd)

/-- Up to the first blank there is one piece. -/
theorem splitWhere_append_of_solid {w : List Char} (h : ∀ c ∈ w, isBlank c = false) {cs : List Char}
    {pieces : List (List Char)} (hcs : splitWhere isBlank cs = [] :: pieces) :
    splitWhere isBlank (w ++ cs) = w :: pieces := by
  induction w with
  | nil => exact hcs
  | cons c rest ih =>
      have hc : isBlank c = false := h c List.mem_cons_self
      rw [List.cons_append, splitWhere, hc, if_neg Bool.false_ne_true,
        ih fun d hd => h d (List.mem_cons_of_mem _ hd)]

/-- A word in front is the first one, if no more of it follows. -/
theorem wordChars_append_of_isWord {w rest : List Char} (hw : IsWord w) (hrest : Ends rest) :
    wordChars (w ++ rest) = w :: wordChars rest := by
  -- Splitting at blanks leaves empty pieces between them. A word is none of these.
  have hkept : ∀ pieces : List (List Char), (w :: pieces).filter (fun v => !v.isEmpty)
      = w :: pieces.filter fun v => !v.isEmpty := fun pieces =>
    List.filter_cons_of_pos (by simpa using hw.ne_nil)
  cases rest with
  | nil =>
      rw [wordChars, splitWhere_append_of_solid hw.solid rfl, hkept]
      rfl
  | cons b cs =>
      have hb : isBlank b = true := hrest b rfl
      have hsplit : splitWhere isBlank (b :: cs) = [] :: splitWhere isBlank cs := by
        rw [splitWhere, if_pos hb]
      rw [wordChars, splitWhere_append_of_solid hw.solid hsplit, hkept,
        wordChars_cons_of_isBlank hb]
      rfl

/-! ### From the words to the text -/

/-- Among blanks there are no words. -/
theorem wordChars_of_blanks {cs : List Char} (h : Blanks cs) : wordChars cs = [] := by
  have hall := wordChars_append_of_blanks h []
  rw [List.append_nil] at hall
  exact hall

/-- A text that is not all blanks begins with blanks and a word. -/
theorem exists_first_word {cs : List Char} (h : ¬ Blanks cs) :
    ∃ lead w rest, cs = lead ++ (w ++ rest) ∧ Blanks lead ∧ IsWord w ∧ Ends rest := by
  induction cs with
  | nil => exact absurd blanks_nil h
  | cons c cs ih =>
      cases hc : isBlank c with
      | true =>
          have hcs : ¬ Blanks cs := fun hall => h fun d hd => by
            rcases List.mem_cons.mp hd with rfl | hd
            · exact hc
            · exact hall d hd
          obtain ⟨lead, w, rest, rfl, hlead, hw, hrest⟩ := ih hcs
          refine ⟨c :: lead, w, rest, rfl, fun d hd => ?_, hw, hrest⟩
          rcases List.mem_cons.mp hd with rfl | hd
          · exact hc
          · exact hlead d hd
      | false =>
          -- The word goes as far as there is no blank.
          refine ⟨[], c :: cs.takeWhile (fun d => !isBlank d), cs.dropWhile (fun d => !isBlank d),
            ?_, blanks_nil, ⟨List.cons_ne_nil _ _, fun d hd => ?_⟩, fun d hd => ?_⟩
          · rw [List.nil_append, List.cons_append, List.takeWhile_append_dropWhile]
          · rcases List.mem_cons.mp hd with rfl | hd
            · exact hc
            · simpa using List.all_eq_true.mp List.all_takeWhile d hd
          · have hhead := List.head?_dropWhile_not (fun d => !isBlank d) cs
            rw [hd] at hhead
            simpa using hhead

/-- A text without words is blank. -/
theorem wordChars_eq_nil_iff {cs : List Char} : wordChars cs = [] ↔ Blanks cs := by
  refine ⟨fun h => ?_, wordChars_of_blanks⟩
  by_cases hblank : Blanks cs
  · exact hblank
  · obtain ⟨lead, w, rest, rfl, hlead, hw, hrest⟩ := exists_first_word hblank
    rw [wordChars_append_of_blanks hlead, wordChars_append_of_isWord hw hrest] at h
    exact nomatch h

/-- A text with a first word: blanks, the word, and what the other words
are in. -/
theorem wordChars_eq_cons_iff {cs w : List Char} {ws : List (List Char)} :
    wordChars cs = w :: ws ↔ ∃ lead rest, cs = lead ++ (w ++ rest) ∧ Blanks lead ∧ IsWord w ∧
      Ends rest ∧ wordChars rest = ws := by
  constructor
  · intro h
    have hblank : ¬ Blanks cs := fun hblank => by
      rw [wordChars_of_blanks hblank] at h
      exact nomatch h
    obtain ⟨lead, v, rest, rfl, hlead, hv, hrest⟩ := exists_first_word hblank
    rw [wordChars_append_of_blanks hlead, wordChars_append_of_isWord hv hrest] at h
    obtain ⟨rfl, hws⟩ := List.cons.inj h
    exact ⟨lead, rest, rfl, hlead, hv, hrest, hws⟩
  · rintro ⟨lead, rest, rfl, hlead, hw, hrest, rfl⟩
    rw [wordChars_append_of_blanks hlead, wordChars_append_of_isWord hw hrest]

/-! ### Trimming -/

/-- Trimming keeps every character that is not a blank. -/
theorem mem_trimChars_iff_of_not_blank {c : Char} (h : isBlank c = false) {cs : List Char} :
    c ∈ trimChars cs ↔ c ∈ cs := by
  rw [← List.count_pos_iff, ← List.count_pos_iff, count_trimChars h]

/-- Exactly blanks are trimmed to nothing. -/
theorem trimChars_eq_nil_iff {cs : List Char} : trimChars cs = [] ↔ Blanks cs := by
  constructor
  · intro h c hc
    cases hblank : isBlank c with
    | true => rfl
    | false =>
        have hkept := (mem_trimChars_iff_of_not_blank hblank).mpr hc
        rw [h] at hkept
        exact nomatch hkept
  · intro h
    have hdrop : cs.dropWhile isBlank = [] := by
      induction cs with
      | nil => rfl
      | cons c rest ih =>
          rw [List.dropWhile_cons_of_pos (h c List.mem_cons_self)]
          exact ih fun d hd => h d (List.mem_cons_of_mem _ hd)
    rw [trimChars, hdrop]
    rfl

/-- A text is trimmed to nothing exactly if it has blanks only. -/
theorem isEmpty_trim_iff {s : String} : (trim s).isEmpty = true ↔ Blanks s.toList := by
  rw [String.isEmpty_iff, ← String.toList_inj, trim, String.toList_ofList, ← trimChars_eq_nil_iff]
  rfl

end SqlSession.Text
