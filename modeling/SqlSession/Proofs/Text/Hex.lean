import SqlSession.Text.Hex

/-!
# `SqlSession.Proofs.Text.Hex`: reading back hexadecimal digits

Bytes written in hexadecimal digits are read back (`bytes?_ofBytes`), so
no two byte sequences are written alike (`ofBytes_injective`), and
nothing but digits is written (`isSome_digit?_of_mem_ofBytes`).
-/

set_option autoImplicit false

namespace SqlSession.Text.Hex

/-- A digit is read back. -/
theorem digit?_digit {n : Nat} (h : n < 16) : digit? (digit n) = some n := by
  have hall : ∀ k : Fin 16, digit? (digit k) = some k.val := by decide
  exact hall ⟨n, h⟩

/-- A byte is written as its upper and its lower digit. -/
theorem fixed_two (n : Nat) : fixed 2 n = [digit (n / 16 % 16), digit (n % 16)] := rfl

/-- The two digits of a byte are read as the byte. -/
theorem number?_fixed_two {n : Nat} (h : n < 256) : number? (fixed 2 n) = some n := by
  have hlow : digit? (digit (n % 16)) = some (n % 16) := digit?_digit (by omega)
  have hhigh : digit? (digit (n / 16 % 16)) = some (n / 16 % 16) := digit?_digit (by omega)
  rw [fixed_two, number?, List.foldlM_cons, hhigh]
  simp only [Option.map_some, Option.bind_eq_bind, Option.bind_some, List.foldlM_cons,
    List.foldlM_nil, hlow, Option.pure_def, Option.some.injEq]
  omega

/-- Every byte is written with two digits. -/
theorem toList_ofBytes_cons (b : UInt8) (bytes : List UInt8) :
    (ofBytes (b :: bytes)).toList = fixed 2 b.toNat ++ (ofBytes bytes).toList := by
  rw [ofBytes, ofBytes, String.toList_ofList, String.toList_ofList, List.flatMap_cons]

/-- Written bytes are read back. -/
theorem bytes?_ofBytes (bytes : List UInt8) : bytes? (ofBytes bytes).toList = some bytes := by
  induction bytes with
  | nil => rfl
  | cons b bytes ih =>
      have hb := number?_fixed_two b.toNat_lt
      rw [fixed_two] at hb
      rw [toList_ofBytes_cons, fixed_two, List.cons_append, List.cons_append, List.nil_append,
        bytes?, hb, ih]
      simp

/-- Different bytes are written differently. -/
theorem ofBytes_injective {bytes bytes' : List UInt8} (h : ofBytes bytes = ofBytes bytes') :
    bytes = bytes' := by
  have hread := bytes?_ofBytes bytes
  rw [h, bytes?_ofBytes] at hread
  exact (Option.some.inj hread).symm

/-- Nothing but digits is written. -/
theorem isSome_digit?_of_mem_ofBytes {c : Char} {bytes : List UInt8}
    (h : c ∈ (ofBytes bytes).toList) : (digit? c).isSome := by
  rw [ofBytes, String.toList_ofList, List.mem_flatMap] at h
  obtain ⟨b, -, hc⟩ := h
  rw [fixed_two, List.mem_cons, List.mem_singleton] at hc
  rcases hc with rfl | rfl <;> rw [digit?_digit (by omega)] <;> rfl

end SqlSession.Text.Hex
