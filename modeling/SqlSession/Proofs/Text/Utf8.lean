import SqlSession.Text.Utf8
import Mathlib.Tactic.SplitIfs

/-!
# `SqlSession.Proofs.Text.Utf8`: decoding inverts encoding

`Sequence bs n` transcribes the table of well-formed sequences: the
bytes `bs` are the character with the number `n`. The decoder reads
sequence after sequence (`Sequence.decodeFrom_append`,
`decodeFrom_eq_ok`), and the sequences are the encodings of the
characters (`sequence_utf8EncodeChar`, `Sequence.utf8EncodeChar_eq`).
So `decode` accepts exactly the encodings of texts (`decode_eq_ok_iff`),
as the library's decoder does (`toOption_decode`).
-/

set_option autoImplicit false

namespace SqlSession.Text.Utf8

open String (utf8EncodeChar)

/-! ### The sequences of one character -/

/-- The bytes of one character and its number. -/
inductive Sequence : List UInt8 → Nat → Prop where
  | one {a : UInt8} : a < 0x80 → Sequence [a] a.toNat
  | two {a b : UInt8} : 0xC2 ≤ a → a ≤ 0xDF → isTail b = true →
      Sequence [a, b] (a.toNat % 32 * 64 + tailBits b)
  | three {a b c : UInt8} : 0xE0 ≤ a → a ≤ 0xEF → isSecondOfThree a b = true →
      isTail c = true →
      Sequence [a, b, c] ((a.toNat % 16 * 64 + tailBits b) * 64 + tailBits c)
  | four {a b c d : UInt8} : 0xF0 ≤ a → a ≤ 0xF4 → isSecondOfFour a b = true →
      isTail c = true → isTail d = true →
      Sequence [a, b, c, d]
        (((a.toNat % 8 * 64 + tailBits b) * 64 + tailBits c) * 64 + tailBits d)

/-- A sequence in front is read as its character. -/
theorem Sequence.decodeFrom_append {bs : List UInt8} {n : Nat} (h : Sequence bs n) (i : Nat)
    (rest : List UInt8) :
    decodeFrom i (bs ++ rest) = (Char.ofNat n :: ·) <$> decodeFrom (i + bs.length) rest := by
  cases h with
  | one ha =>
      rw [List.cons_append, decodeFrom.eq_def]
      simp [ha]
  | @two a b ha ha' hb =>
      have hone : ¬ a < 0x80 := by grind
      rw [List.cons_append, decodeFrom.eq_def]
      simp [hone, ha, ha', hb]
  | @three a b c ha ha' hb hc =>
      have hone : ¬ a < 0x80 := by grind
      have htwo : ¬ a ≤ 0xDF := by grind
      rw [List.cons_append, decodeFrom.eq_def]
      simp [hone, htwo, ha, ha', hb, hc]
  | @four a b c d ha ha' hb hc hd =>
      have hone : ¬ a < 0x80 := by grind
      have htwo : ¬ a ≤ 0xDF := by grind
      have hthree : ¬ a ≤ 0xEF := by grind
      rw [List.cons_append, decodeFrom.eq_def]
      simp [hone, htwo, hthree, ha, ha', hb, hc, hd]

/-- What is read starts with a sequence, unless nothing is left. -/
theorem decodeFrom_eq_ok {i : Nat} {bytes : List UInt8} {cs : List Char} :
    decodeFrom i bytes = .ok cs → (bytes = [] ∧ cs = []) ∨
      ∃ bs n rest tail, Sequence bs n ∧ bytes = bs ++ rest ∧ cs = Char.ofNat n :: tail ∧
        decodeFrom (i + bs.length) rest = .ok tail := by
  have hread : ∀ {bs : List UInt8} {n : Nat} {rest : List UInt8}, Sequence bs n →
      (Char.ofNat n :: ·) <$> decodeFrom (i + bs.length) rest = .ok cs →
      ∃ bs' n rest' tail, Sequence bs' n ∧ bs ++ rest = bs' ++ rest' ∧
        cs = Char.ofNat n :: tail ∧ decodeFrom (i + bs'.length) rest' = .ok tail := by
    intro bs n rest hseq h
    cases hrest : decodeFrom (i + bs.length) rest with
    | error flaw =>
        rw [hrest] at h
        exact nomatch h
    | ok tail =>
        rw [hrest] at h
        exact ⟨bs, n, rest, tail, hseq, rfl, (Except.ok.inj h).symm, hrest⟩
  fun_cases decodeFrom i bytes
  case case1 => exact fun h => .inl ⟨rfl, (Except.ok.inj h).symm⟩
  case case2 a rest ha => exact fun h => .inr (hread (.one ha) h)
  case case4 a _ ha b rest hb =>
      rw [Bool.and_eq_true, decide_eq_true_iff, decide_eq_true_iff] at ha
      exact fun h => .inr (hread (.two ha.1 ha.2 hb) h)
  case case9 a _ _ ha b hb c rest hc =>
      rw [Bool.and_eq_true, decide_eq_true_iff, decide_eq_true_iff] at ha
      rw [Bool.not_eq_true, Bool.not_eq_false'] at hb
      exact fun h => .inr (hread (.three ha.1 ha.2 hb hc) h)
  case case16 a _ _ _ ha b hb c hc d rest hd =>
      rw [Bool.and_eq_true, decide_eq_true_iff, decide_eq_true_iff] at ha
      rw [Bool.not_eq_true, Bool.not_eq_false'] at hb hc
      exact fun h => .inr (hread (.four ha.1 ha.2 hb hc hd) h)
  -- Every other case is a flaw.
  all_goals exact fun h => nomatch h

/-! ### The encoding of a character -/

/-- A tail byte by its bounds. -/
theorem isTail_iff {b : UInt8} : isTail b = true ↔ 0x80 ≤ b.toNat ∧ b.toNat ≤ 0xBF := by
  simp [isTail, UInt8.le_iff_toNat_le]

/-- The second of three bytes. The bounds leave out what two bytes could
say, and the surrogates. -/
theorem isSecondOfThree_iff {a b : UInt8} :
    isSecondOfThree a b = true ↔ isTail b = true ∧ (a.toNat = 0xE0 → 0xA0 ≤ b.toNat) ∧
      (a.toNat = 0xED → b.toNat ≤ 0x9F) := by
  rw [isTail_iff, isSecondOfThree]
  split_ifs with he0 hed
  · simp [he0, UInt8.le_iff_toNat_le]
    omega
  · simp [hed, UInt8.le_iff_toNat_le]
    omega
  · rw [← UInt8.toNat_inj] at he0 hed
    rw [isTail_iff]
    exact ⟨fun h => ⟨h, fun ha => absurd ha he0, fun ha => absurd ha hed⟩, And.left⟩

/-- The second of four bytes. The bounds leave out what three bytes could
say, and what is beyond the last code point. -/
theorem isSecondOfFour_iff {a b : UInt8} :
    isSecondOfFour a b = true ↔ isTail b = true ∧ (a.toNat = 0xF0 → 0x90 ≤ b.toNat) ∧
      (a.toNat = 0xF4 → b.toNat ≤ 0x8F) := by
  rw [isTail_iff, isSecondOfFour]
  split_ifs with hf0 hf4
  · simp [hf0, UInt8.le_iff_toNat_le]
    omega
  · simp [hf4, UInt8.le_iff_toNat_le]
    omega
  · rw [← UInt8.toNat_inj] at hf0 hf4
    rw [isTail_iff]
    exact ⟨fun h => ⟨h, fun ha => absurd ha hf0, fun ha => absurd ha hf4⟩, And.left⟩

/-- A sequence is the encoding of its character. -/
theorem Sequence.utf8EncodeChar_eq {bs : List UInt8} {n : Nat} (h : Sequence bs n) :
    utf8EncodeChar (Char.ofNat n) = bs := by
  have hnumber : ∀ n : Nat, n.isValidChar → (Char.ofNat n).val.toNat = n := fun n hn => by
    rw [Char.ofNat, dif_pos hn]
    rfl
  -- What is left of each byte is arithmetic on its number.
  have hbyte : ∀ {n : Nat} {a : UInt8}, n = a.toNat → UInt8.ofNat n = a := fun h => by
    rw [h, UInt8.ofNat_toNat]
  cases h with
  | @one a ha =>
      rw [UInt8.lt_iff_toNat_lt] at ha
      simp only [UInt8.reduceToNat] at ha
      rw [utf8EncodeChar, hnumber _ (.inl (by omega)), if_pos (by omega), hbyte rfl]
  | @two a b ha ha' hb =>
      rw [UInt8.le_iff_toNat_le] at ha ha'
      simp only [UInt8.reduceToNat] at ha ha'
      rw [isTail_iff] at hb
      rw [utf8EncodeChar, tailBits, hnumber _ (.inl (by omega)), if_neg (by omega),
        if_pos (by omega), hbyte (a := a) (by omega), hbyte (a := b) (by omega)]
  | @three a b c ha ha' hb hc =>
      rw [UInt8.le_iff_toNat_le] at ha ha'
      simp only [UInt8.reduceToNat] at ha ha'
      rw [isSecondOfThree_iff, isTail_iff] at hb
      rw [isTail_iff] at hc
      obtain ⟨hb, he0, hed⟩ := hb
      rw [utf8EncodeChar, tailBits, tailBits, hnumber _ (by unfold Nat.isValidChar; omega),
        if_neg (by omega), if_neg (by omega), if_pos (by omega), hbyte (a := a) (by omega),
        hbyte (a := b) (by omega), hbyte (a := c) (by omega)]
  | @four a b c d ha ha' hb hc hd =>
      rw [UInt8.le_iff_toNat_le] at ha ha'
      simp only [UInt8.reduceToNat] at ha ha'
      rw [isSecondOfFour_iff, isTail_iff] at hb
      rw [isTail_iff] at hc hd
      obtain ⟨hb, hf0, hf4⟩ := hb
      rw [utf8EncodeChar, tailBits, tailBits, tailBits,
        hnumber _ (by unfold Nat.isValidChar; omega),
        if_neg (by omega), if_neg (by omega), if_neg (by omega), hbyte (a := a) (by omega),
        hbyte (a := b) (by omega), hbyte (a := c) (by omega), hbyte (a := d) (by omega)]

/-- The encoding of a character is its sequence. -/
theorem sequence_utf8EncodeChar (c : Char) : Sequence (utf8EncodeChar c) c.toNat := by
  have hv := c.valid
  rw [UInt32.isValidChar, Nat.isValidChar] at hv
  have hn : c.val.toNat = c.toNat := rfl
  rw [hn] at hv
  rw [utf8EncodeChar, hn]
  generalize c.toNat = n at hv
  have hbyte : ∀ n : Nat, n < 256 → ∃ a : UInt8, a = UInt8.ofNat n ∧ a.toNat = n :=
    fun n hn => ⟨_, rfl, UInt8.toNat_ofNat_of_lt hn⟩
  -- One case for each length, which the number decides.
  split_ifs with hone htwo hthree
  · obtain ⟨a, rfl, ha⟩ := hbyte n (by omega)
    have hseq := Sequence.one (a := UInt8.ofNat n) (by simp [UInt8.lt_iff_toNat_lt, ha]; omega)
    rwa [ha] at hseq
  · obtain ⟨a, ha, ha'⟩ := hbyte (n / 64 % 32 + 0xC0) (by omega)
    obtain ⟨b, hb, hb'⟩ := hbyte (n % 64 + 0x80) (by omega)
    have hseq := Sequence.two (a := a) (b := b) (by simp [UInt8.le_iff_toNat_le]; omega)
      (by simp [UInt8.le_iff_toNat_le]; omega) (isTail_iff.mpr (by omega))
    rwa [tailBits, show a.toNat % 32 * 64 + b.toNat % 64 = n by omega, ha, hb] at hseq
  · obtain ⟨a, ha, ha'⟩ := hbyte (n / 4096 % 16 + 0xE0) (by omega)
    obtain ⟨b, hb, hb'⟩ := hbyte (n / 64 % 64 + 0x80) (by omega)
    obtain ⟨c, hc, hc'⟩ := hbyte (n % 64 + 0x80) (by omega)
    have hseq := Sequence.three (a := a) (b := b) (c := c)
      (by simp [UInt8.le_iff_toNat_le]; omega)
      (by simp [UInt8.le_iff_toNat_le]; omega)
      (isSecondOfThree_iff.mpr ⟨isTail_iff.mpr (by omega), by omega⟩)
      (isTail_iff.mpr (by omega))
    rwa [tailBits, tailBits,
      show (a.toNat % 16 * 64 + b.toNat % 64) * 64 + c.toNat % 64 = n by omega,
      ha, hb, hc] at hseq
  · obtain ⟨a, ha, ha'⟩ := hbyte (n / 262144 % 8 + 0xF0) (by omega)
    obtain ⟨b, hb, hb'⟩ := hbyte (n / 4096 % 64 + 0x80) (by omega)
    obtain ⟨c, hc, hc'⟩ := hbyte (n / 64 % 64 + 0x80) (by omega)
    obtain ⟨d, hd, hd'⟩ := hbyte (n % 64 + 0x80) (by omega)
    have hseq := Sequence.four (a := a) (b := b) (c := c) (d := d)
      (by simp [UInt8.le_iff_toNat_le]; omega)
      (by simp [UInt8.le_iff_toNat_le]; omega)
      (isSecondOfFour_iff.mpr ⟨isTail_iff.mpr (by omega), by omega⟩)
      (isTail_iff.mpr (by omega)) (isTail_iff.mpr (by omega))
    rwa [tailBits, tailBits, tailBits,
      show ((a.toNat % 8 * 64 + b.toNat % 64) * 64 + c.toNat % 64) * 64 + d.toNat % 64 = n by
        omega,
      ha, hb, hc, hd] at hseq

/-! ### Whole texts -/

/-- An encoding is read as the characters it encodes. -/
theorem decodeFrom_utf8Encode (cs : List Char) (i : Nat) :
    decodeFrom i (cs.flatMap utf8EncodeChar) = .ok cs := by
  induction cs generalizing i with
  | nil => rfl
  | cons c cs ih =>
      rw [List.flatMap_cons, (sequence_utf8EncodeChar c).decodeFrom_append, ih,
        Char.ofNat_toNat]
      rfl

/-- What is read is what the bytes encode. -/
theorem utf8Encode_of_decodeFrom {i : Nat} {bytes : List UInt8} {cs : List Char}
    (h : decodeFrom i bytes = .ok cs) : cs.flatMap utf8EncodeChar = bytes := by
  induction cs generalizing i bytes with
  | nil =>
      rcases decodeFrom_eq_ok h with ⟨rfl, -⟩ | ⟨_, _, _, _, _, _, hcs, _⟩
      · rfl
      · exact nomatch hcs
  | cons c cs ih =>
      rcases decodeFrom_eq_ok h with ⟨-, hcs⟩ | ⟨bs, n, rest, tail, hseq, rfl, hcs, hrest⟩
      · exact nomatch hcs
      · obtain ⟨rfl, rfl⟩ := List.cons.inj hcs
        rw [List.flatMap_cons, hseq.utf8EncodeChar_eq, ih hrest]

/-- Bytes are read as a text exactly if they are its encoding. -/
theorem decode_eq_ok_iff {bytes : List UInt8} {s : String} :
    decode bytes = .ok s ↔ s.toList.flatMap utf8EncodeChar = bytes := by
  constructor
  · intro h
    cases hread : decodeFrom 0 bytes with
    | error flaw =>
        rw [decode, hread] at h
        exact nomatch h
    | ok cs =>
        rw [decode, hread] at h
        rw [← Except.ok.inj h, String.toList_ofList]
        exact utf8Encode_of_decodeFrom hread
  · rintro rfl
    rw [decode, decodeFrom_utf8Encode]
    exact congrArg Except.ok String.ofList_toList

/-- The decoder agrees with the library's on which bytes are a text, and on the text. -/
theorem toOption_decode (bytes : List UInt8) :
    (decode bytes).toOption = String.fromUTF8? bytes.toByteArray := by
  rw [String.fromUTF8?]
  split_ifs with hvalid
  · have hdecode : decode bytes = .ok (String.fromUTF8 bytes.toByteArray hvalid) := by
      rw [decode_eq_ok_iff, ← List.toByteArray_inj]
      exact String.utf8Encode_toList
    rw [hdecode]
    rfl
  · cases hdecode : decode bytes with
    | error flaw => rfl
    | ok s =>
        refine absurd ?_ hvalid
        rw [← decode_eq_ok_iff.mp hdecode]
        exact ByteArray.isValidUTF8_utf8Encode

end SqlSession.Text.Utf8
