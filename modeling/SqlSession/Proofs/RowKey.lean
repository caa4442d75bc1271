import Mathlib.Data.List.Basic
import SqlSession.Identifier
import SqlSession.Proofs.Text.Hex
import SqlSession.Proofs.Text.Utf8
import SqlSession.RowKey

/-!
# `SqlSession.Proofs.RowKey`: keys identify rows

Two rows share a key only if they are one row. `RowKey.Part` is what an
index value stands for, whatever type it came in, and `RowKey.Part.encode`
the characters that a key has for it. A key is the table and, for each
index value, a backtick and an encoded part (`exists_rowKey`).

The encoding can be cut in one way only, although a text may itself
contain backticks, colons and digits: a number and a run of hexadecimal
digits end at the first backtick, and a text is as long as the number in
front of it says (`RowKey.Part.encode_append_inj`). Hence a whole list
of parts is known from its characters (`RowKey.encodeAll_inj`).
-/

set_option autoImplicit false

namespace SqlSession

namespace RowKey

/-! ### What index values stand for -/

/-- What an index value stands for: an integer whatever its signedness,
a text whatever it was read from, or bytes that are no text. -/
inductive Part where
  | number (n : Int)
  | text (s : String)
  | raw (data : List UInt8)
  deriving DecidableEq

/-- What an index value stands for; nothing if it is of a kind that no
key is made of. -/
def normal? : Value → Option Part
  | .int i => some (.number i.toInt)
  | .uint u => some (.number u.toNat)
  | .text s => some (.text s)
  | .bytes data =>
      match String.fromUTF8? data.toByteArray with
      | some s => some (.text s)
      | none => some (.raw data)
  | .uuid u => some (.text u.hyphenated)
  | .dateTime t => some (.text t.text)
  | _ => none

/-- The values that a key can be made of. -/
def Indexes : Value → Prop
  | .int _ | .uint _ | .uuid _ | .dateTime _ => True
  | .text s => s ≠ ""
  | .bytes data => data ≠ []
  | _ => False

/-- The index values of a row that has a key. -/
def IsIndex (index : List Value) : Prop := index ≠ [] ∧ ∀ v ∈ index, Indexes v

/-- A UUID always has text: its hyphens, if nothing else. -/
theorem hyphenated_ne_empty (u : Uuid) : u.hyphenated ≠ "" := by
  intro h
  have hlist := congrArg String.toList h
  rw [Uuid.hyphenated, String.toList_ofList] at hlist
  simp [Uuid.groups, List.intercalate] at hlist

/-- So has a point in time. -/
theorem dateTime_text_ne_empty (t : DateTime) : t.text ≠ "" := by
  simp [DateTime.text]

/-- No bytes but none are the empty text. -/
theorem decode_eq_empty_iff {data : List UInt8} :
    Text.Utf8.decode data = .ok "" ↔ data = [] := by
  rw [Text.Utf8.decode_eq_ok_iff]
  exact eq_comm

/-- What the bytes of an index value stand for, by the decoder that
reads them. -/
theorem normal?_bytes (data : List UInt8) :
    normal? (.bytes data) = some (match Text.Utf8.decode data with
      | .ok s => .text s
      | .error _ => .raw data) := by
  rw [normal?, ← Text.Utf8.toOption_decode]
  cases Text.Utf8.decode data <;> rfl

/-- A value can be part of a key if it stands for something other than
the empty text. -/
theorem indexes_iff {v : Value} : Indexes v ↔ ∃ p, normal? v = some p ∧ p ≠ .text "" := by
  cases v with
  | bytes data =>
      rw [normal?_bytes, Indexes, Ne, ← decode_eq_empty_iff]
      cases Text.Utf8.decode data <;> simp
  | uuid u => simp [Indexes, normal?, hyphenated_ne_empty]
  | dateTime t => simp [Indexes, normal?, dateTime_text_ne_empty]
  | _ => simp [Indexes, normal?]

/-! ### The characters of a part -/

/-- The tag of a part and what it is known by. -/
def Part.encode : Part → List Char
  | .number (.ofNat n) => 'u' :: Nat.toDigits 10 n
  | .number (.negSucc n) => 'i' :: '-' :: Nat.toDigits 10 (n + 1)
  | .text s => 's' :: (Nat.toDigits 10 s.utf8ByteSize ++ ':' :: s.toList)
  | .raw data => 'x' :: (Text.Hex.ofBytes data).toList

/-- A text that is not empty becomes the part that `Part.encode` gives for
it. -/
theorem textPart_of_ne_empty {s : String} (h : s ≠ "") (table : String) :
    textPart table s = .ok (String.ofList (Part.text s).encode) := by
  rw [textPart, if_neg (by simpa using h)]
  refine congrArg Except.ok (String.toList_inj.mp ?_)
  rw [String.toList_ofList, Part.encode]
  simp only [String.toList_append, Nat.toString_eq_repr, Nat.toList_repr, List.append_assoc]
  rfl

/-- A value makes the part of a key that it stands for. -/
theorem part_of_normal? {v : Value} {p : Part} (h : normal? v = some p) (hp : p ≠ .text "")
    (table : String) : part table v = .ok (String.ofList p.encode) := by
  have htext : ∀ {s : String}, p = .text s → textPart table s = .ok (String.ofList p.encode) := by
    rintro s rfl
    exact textPart_of_ne_empty (fun hs => hp (hs ▸ rfl)) table
  cases v with
  | int i =>
      obtain rfl := Option.some.inj h
      refine congrArg Except.ok (String.toList_inj.mp ?_)
      rw [String.toList_ofList]
      -- The tag tells the sign, and the digits are printed by the same functions that `Part.encode`
      -- uses.
      cases i.toInt with
      | ofNat n =>
          rw [if_pos (show 0 ≤ Int.ofNat n from Int.natCast_nonneg n), String.toList_append,
            Nat.toString_eq_repr, Nat.toList_repr]
          rfl
      | negSucc n =>
          rw [if_neg (Int.negSucc_not_nonneg n).mp, String.toList_append, Int.toString_eq_repr,
            Int.repr, String.toList_append, Nat.toList_repr]
          rfl
  | uint u =>
      obtain rfl := Option.some.inj h
      refine congrArg Except.ok (String.toList_inj.mp ?_)
      rw [String.toList_ofList, String.toList_append, Nat.toString_eq_repr, Nat.toList_repr]
      rfl
  | text s => exact htext (Option.some.inj h).symm
  | bytes data =>
      rw [normal?_bytes] at h
      have hread := Option.some.inj h
      rw [part]
      -- Bytes that are a text become the part of that text, and all others are written in
      -- hexadecimal.
      cases hdecode : Text.Utf8.decode data with
      | ok s =>
          rw [hdecode] at hread
          exact htext hread.symm
      | error flaw =>
          rw [hdecode] at hread
          subst hread
          refine congrArg Except.ok (String.toList_inj.mp ?_)
          simp [Part.encode]
  | uuid u => exact htext (Option.some.inj h).symm
  | dateTime t => exact htext (Option.some.inj h).symm
  | null | bool | float | json | list => exact nomatch h

/-- The empty text is refused. -/
theorem ne_empty_of_textPart {table s key : String} (h : textPart table s = .ok key) :
    s ≠ "" := by
  rintro rfl
  exact nomatch h

/-- What makes a part of a key stands for something. -/
theorem indexes_of_part {table key : String} {v : Value} (h : part table v = .ok key) :
    Indexes v := by
  cases v with
  | int | uint | uuid | dateTime => trivial
  | text s => exact ne_empty_of_textPart h
  | bytes data =>
      rintro rfl
      exact nomatch h
  | null | bool | float | json | list => exact nomatch h

/-! ### Cutting -/

/-- A run without a mark ends where the mark is, or at the end. -/
theorem append_inj_of_mark {m : Char} {xs ys rest rest' : List Char} (hxs : m ∉ xs)
    (hys : m ∉ ys) (hrest : ∀ c ∈ rest.head?, c = m) (hrest' : ∀ c ∈ rest'.head?, c = m)
    (h : xs ++ rest = ys ++ rest') : xs = ys ∧ rest = rest' := by
  induction xs generalizing ys with
  | nil =>
      cases ys with
      | nil => exact ⟨rfl, h⟩
      | cons y ys =>
          -- One run is over, so the other goes on with a mark, which it does not have.
          have hy : y = m := hrest y (by rw [← List.nil_append rest, h]; rfl)
          exact absurd (hy ▸ List.mem_cons_self) hys
  | cons x xs ih =>
      cases ys with
      | nil =>
          have hx : x = m := hrest' x (by rw [← List.nil_append rest', ← h]; rfl)
          exact absurd (hx ▸ List.mem_cons_self) hxs
      | cons y ys =>
          obtain ⟨rfl, htail⟩ := List.cons.inj h
          rw [List.mem_cons, not_or] at hxs hys
          obtain ⟨rfl, hrests⟩ := ih hxs.2 hys.2 htail
          exact ⟨rfl, hrests⟩

/-- A list that is written with its head has that head. -/
theorem head?_cons (m : Char) (rest : List Char) : ∀ c ∈ (m :: rest).head?, c = m :=
  fun _ hc => (Option.some.inj hc).symm

/-- Two texts of one size in front of something are equal. -/
theorem append_inj_of_utf8ByteSize {s s' : String} {rest rest' : List Char}
    (hsize : s.utf8ByteSize = s'.utf8ByteSize) (h : s.toList ++ rest = s'.toList ++ rest') :
    s = s' ∧ rest = rest' := by
  -- The longer text goes on with what has no size, hence with nothing.
  have hlonger : ∀ {s s' : String} {rest rest' more : List Char},
      s.utf8ByteSize = s'.utf8ByteSize → s'.toList = s.toList ++ more →
      rest = more ++ rest' → s = s' ∧ rest = rest' := by
    intro s s' rest rest' more hsize hs' hrest
    have happend : s' = s ++ String.ofList more := by
      rw [← String.toList_inj, hs', String.toList_append, String.toList_ofList]
    rw [happend, String.utf8ByteSize_append] at hsize
    have hmore : String.ofList more = "" := String.utf8ByteSize_eq_zero_iff.mp (by omega)
    have hnil : more = [] := by simpa using congrArg String.toList hmore
    refine ⟨?_, by rw [hrest, hnil, List.nil_append]⟩
    rw [happend, hmore, String.append_empty]
  rcases List.append_eq_append_iff.mp h with ⟨more, hs', hrest⟩ | ⟨more, hs, hrest'⟩
  · exact hlonger hsize hs' hrest
  · obtain ⟨heq, hrests⟩ := hlonger hsize.symm hs hrest'
    exact ⟨heq.symm, hrests.symm⟩

/-- Whatever is no digit does not occur among the decimal digits of a
number. -/
theorem not_mem_toDigits {c : Char} (hc : c.isDigit = false) (n : Nat) :
    c ∉ Nat.toDigits 10 n := by
  intro h
  rw [Nat.isDigit_of_mem_toDigits (by decide) (by decide) h] at hc
  exact nomatch hc

/-- The decimal digits of a number are read back. -/
theorem toDigits_injective {n n' : Nat} (h : Nat.toDigits 10 n = Nat.toDigits 10 n') :
    n = n' := by
  rw [← Nat.ofDigitChars_ten_toDigits (n := n), h, Nat.ofDigitChars_ten_toDigits]

/-- Among hexadecimal digits there is no backtick. -/
theorem backtick_not_mem_ofBytes (bytes : List UInt8) :
    backtick ∉ (Text.Hex.ofBytes bytes).toList := fun h =>
  absurd (Text.Hex.isSome_digit?_of_mem_ofBytes h) (by decide)

/-- Decimal digits in front of a backtick, or of the end, are read back. -/
theorem toDigits_append_inj {n n' : Nat} {rest rest' : List Char}
    (hrest : ∀ c ∈ rest.head?, c = backtick) (hrest' : ∀ c ∈ rest'.head?, c = backtick)
    (h : Nat.toDigits 10 n ++ rest = Nat.toDigits 10 n' ++ rest') : n = n' ∧ rest = rest' := by
  have hdigits := not_mem_toDigits (c := backtick) (by decide)
  obtain ⟨heq, hrests⟩ := append_inj_of_mark (hdigits n) (hdigits n') hrest hrest' h
  exact ⟨toDigits_injective heq, hrests⟩

/-- A part is known from its characters, and so is what comes after it. -/
theorem Part.encode_append_inj {p p' : Part} {rest rest' : List Char}
    (hrest : ∀ c ∈ rest.head?, c = backtick) (hrest' : ∀ c ∈ rest'.head?, c = backtick)
    (h : p.encode ++ rest = p'.encode ++ rest') : p = p' ∧ rest = rest' := by
  -- Parts of different kinds have different tags.
  rcases p with (n | n) | s | data <;> rcases p' with (n' | n') | s' | data' <;>
    obtain ⟨htag, hbody⟩ := List.cons.inj h <;>
    first | exact absurd htag (by decide) | clear htag
  · obtain ⟨rfl, hrests⟩ := toDigits_append_inj hrest hrest' hbody
    exact ⟨rfl, hrests⟩
  · obtain ⟨hn, hrests⟩ := toDigits_append_inj hrest hrest' (List.cons.inj hbody).2
    obtain rfl : n = n' := Nat.succ.inj hn
    exact ⟨rfl, hrests⟩
  · have hdigits := not_mem_toDigits (c := ':') (by decide)
    simp only [List.append_eq, List.append_assoc] at hbody
    obtain ⟨hsize, htexts⟩ := append_inj_of_mark (hdigits _) (hdigits _) (head?_cons ':' _)
      (head?_cons ':' _) hbody
    obtain ⟨rfl, hrests⟩ :=
      append_inj_of_utf8ByteSize (toDigits_injective hsize) (List.cons.inj htexts).2
    exact ⟨rfl, hrests⟩
  · obtain ⟨hdata, hrests⟩ := append_inj_of_mark (backtick_not_mem_ofBytes data)
      (backtick_not_mem_ofBytes data') hrest hrest' hbody
    obtain rfl := Text.Hex.ofBytes_injective (String.toList_inj.mp hdata)
    exact ⟨rfl, hrests⟩

/-! ### Whole keys -/

/-- The characters of a key behind its table. -/
def encodeAll (parts : List Part) : List Char :=
  parts.flatMap fun p => backtick :: p.encode

/-- Every part has its own backtick in front. -/
theorem encodeAll_cons (p : Part) (parts : List Part) :
    encodeAll (p :: parts) = backtick :: (p.encode ++ encodeAll parts) := by
  rw [encodeAll, List.flatMap_cons, List.cons_append, ← encodeAll]

/-- What comes behind a table or a part starts with a backtick. -/
theorem head?_encodeAll (parts : List Part) : ∀ c ∈ (encodeAll parts).head?, c = backtick := by
  cases parts with
  | nil => exact fun c hc => nomatch hc
  | cons p parts =>
      rw [encodeAll_cons]
      exact head?_cons backtick _

/-- Parts are known from their characters. -/
theorem encodeAll_inj {parts parts' : List Part} (h : encodeAll parts = encodeAll parts') :
    parts = parts' := by
  induction parts generalizing parts' with
  | nil =>
      cases parts' with
      | nil => rfl
      | cons p' parts' => exact nomatch h
  | cons p parts ih =>
      cases parts' with
      | nil => exact nomatch h
      | cons p' parts' =>
          rw [encodeAll_cons, encodeAll_cons] at h
          -- The first parts are cut off, and what is left starts with a backtick or is empty again.
          obtain ⟨rfl, hrest⟩ := Part.encode_append_inj (head?_encodeAll parts)
            (head?_encodeAll parts') (List.cons.inj h).2
          rw [ih hrest]

/-- The loop that puts a key together writes the table and then all parts
behind it. -/
theorem toList_foldl (parts : List Part) (table : String) :
    ((parts.map fun p => String.ofList p.encode).foldl (fun key part => key ++ "`" ++ part)
      table).toList = table.toList ++ encodeAll parts := by
  induction parts generalizing table with
  | nil => simp [encodeAll]
  | cons p parts ih =>
      rw [List.map_cons, List.foldl_cons, ih, encodeAll_cons]
      simp [backtick]

/-- Index values that can make a key stand for parts that can. -/
theorem exists_parts {index : List Value} (h : ∀ v ∈ index, Indexes v) :
    ∃ parts : List Part, index.map normal? = parts.map some ∧ ∀ p ∈ parts, p ≠ .text "" := by
  induction index with
  | nil => exact ⟨[], rfl, by simp⟩
  | cons v index ih =>
      obtain ⟨p, hp, hne⟩ := indexes_iff.mp (h v List.mem_cons_self)
      obtain ⟨parts, hparts, hall⟩ := ih fun w hw => h w (List.mem_cons_of_mem v hw)
      refine ⟨p :: parts, ?_, ?_⟩
      · rw [List.map_cons, List.map_cons, hp, hparts]
      · exact List.forall_mem_cons.mpr ⟨hne, hall⟩

/-- Index values make the parts of a key that they stand for. -/
theorem mapM_part {index : List Value} {parts : List Part}
    (hparts : index.map normal? = parts.map some) (hne : ∀ p ∈ parts, p ≠ .text "")
    (table : String) :
    index.mapM (part table) = .ok (parts.map fun p => String.ofList p.encode) := by
  induction index generalizing parts with
  | nil =>
      cases parts with
      | nil => rfl
      | cons p parts => exact nomatch hparts
  -- Parts are made from left to right, and none of them fails.
  | cons v index ih =>
      cases parts with
      | nil => exact nomatch hparts
      | cons p parts =>
          obtain ⟨hp, hrest⟩ := List.cons.inj hparts
          rw [List.forall_mem_cons] at hne
          rw [List.mapM_cons, part_of_normal? hp hne.1, ih hrest hne.2]
          rfl

/-- What makes the parts of a key can be part of one. -/
theorem indexes_of_mapM {table : String} {index : List Value} {parts : List String}
    (h : index.mapM (part table) = .ok parts) : ∀ v ∈ index, Indexes v := by
  induction index generalizing parts with
  | nil => exact fun v hv => nomatch hv
  | cons v index ih =>
      rw [List.mapM_cons] at h
      cases hpart : part table v with
      | error e =>
          rw [hpart] at h
          exact nomatch h
      | ok key =>
          cases hrest : index.mapM (part table) with
          | error e =>
              rw [hpart, hrest] at h
              exact nomatch h
          | ok keys => exact List.forall_mem_cons.mpr ⟨indexes_of_part hpart, ih hrest⟩

end RowKey

open RowKey

/-- The characters of a key: those of the table and of the parts that
the index values stand for. -/
theorem exists_rowKey {index : List Value} (h : IsIndex index) (table : String) :
    ∃ key parts, rowKey table index = .ok key ∧ index.map normal? = parts.map some ∧
      key.toList = table.toList ++ encodeAll parts := by
  obtain ⟨parts, hparts, hne⟩ := exists_parts h.2
  refine ⟨_, parts, ?_, hparts, toList_foldl parts table⟩
  rw [rowKey, if_neg (by simpa using h.1), mapM_part hparts hne]
  rfl

/-- Only index values of the right kinds make a key, and only if there are
any. -/
theorem isIndex_of_rowKey {table key : String} {index : List Value}
    (h : rowKey table index = .ok key) : IsIndex index := by
  have hindex : index ≠ [] := by
    rintro rfl
    exact nomatch h
  rw [rowKey, if_neg (by simpa using hindex)] at h
  cases hparts : index.mapM (part table) with
  | error e =>
      rw [hparts] at h
      exact nomatch h
  | ok keys => exact ⟨hindex, indexes_of_mapM hparts⟩

/-- Equal characters behind tables without backticks, or behind one
table, come from equal tables and equal parts. -/
theorem table_encodeAll_inj {table table' : String} {parts parts' : List Part}
    (htables : table = table' ∨ backtick ∉ table.toList ∧ backtick ∉ table'.toList)
    (h : table.toList ++ encodeAll parts = table'.toList ++ encodeAll parts') :
    table = table' ∧ parts = parts' := by
  rcases htables with rfl | ⟨htable, htable'⟩
  · exact ⟨rfl, encodeAll_inj (List.append_cancel_left h)⟩
  · obtain ⟨heq, hparts⟩ := append_inj_of_mark htable htable' (head?_encodeAll parts)
      (head?_encodeAll parts') h
    exact ⟨String.toList_inj.mp heq, encodeAll_inj hparts⟩

/-- Keys never collide. Among tables whose names have no backtick, and
among the rows of one table whatever its name, two rows have one key
exactly if they are of one table and their index values stand for the
same; and a row has a key exactly if there are index values and all of
them can be part of one. -/
theorem rowKey_eq_iff {table table' : String} {index index' : List Value}
    (htables : table = table' ∨ backtick ∉ table.toList ∧ backtick ∉ table'.toList) :
    ((∃ key, rowKey table index = .ok key) ↔ IsIndex index) ∧
    ((∃ key, rowKey table index = .ok key ∧ rowKey table' index' = .ok key) ↔
      table = table' ∧ IsIndex index ∧ IsIndex index' ∧
        index.map normal? = index'.map normal?) := by
  refine ⟨⟨fun ⟨key, hkey⟩ => isIndex_of_rowKey hkey, fun h => ?_⟩, ?_, ?_⟩
  · obtain ⟨key, -, hkey, -⟩ := exists_rowKey h table
    exact ⟨key, hkey⟩
  · rintro ⟨key, hkey, hkey'⟩
    have hindex := isIndex_of_rowKey hkey
    have hindex' := isIndex_of_rowKey hkey'
    obtain ⟨_, parts, hrow, hparts, hchars⟩ := exists_rowKey hindex table
    obtain ⟨_, parts', hrow', hparts', hchars'⟩ := exists_rowKey hindex' table'
    obtain rfl := Except.ok.inj (hrow.symm.trans hkey)
    obtain rfl := Except.ok.inj (hrow'.symm.trans hkey')
    -- One key has one table and one list of parts.
    obtain ⟨rfl, rfl⟩ := table_encodeAll_inj htables (hchars.symm.trans hchars')
    exact ⟨rfl, hindex, hindex', hparts.trans hparts'.symm⟩
  · rintro ⟨rfl, hindex, hindex', hsame⟩
    obtain ⟨key, parts, hrow, hparts, hchars⟩ := exists_rowKey hindex table
    obtain ⟨key', parts', hrow', hparts', hchars'⟩ := exists_rowKey hindex' table
    have hmap : parts.map some = parts'.map some :=
      hparts.symm.trans (hsame.trans hparts')
    obtain rfl := List.map_injective_iff.mpr (fun _ _ => Option.some.inj) hmap
    obtain rfl := String.toList_inj.mp (hchars.trans hchars'.symm)
    exact ⟨key, hrow, hrow'⟩

/-- A number has one key whether it is signed or not, and a text whether
it comes as bytes or not. -/
theorem rowKey_eq_iff_bytes :
    (backtick ∉ "users".toList ∧ backtick ∉ "users".toList) ∧
      ∃ key, rowKey "users" [.int 1, .text "é"] = .ok key ∧
        rowKey "users" [.uint 1, .bytes [0xC3, 0xA9]] = .ok key := by
  have htable : backtick ∉ "users".toList := by decide
  have hbytes : normal? (.bytes [0xC3, 0xA9]) = some (.text "é") := by
    rw [normal?_bytes]
    rfl
  refine ⟨⟨htable, htable⟩, (rowKey_eq_iff (.inr ⟨htable, htable⟩)).2.mpr ⟨rfl, ?_, ?_, ?_⟩⟩
  · exact ⟨by decide, by simp [Indexes]⟩
  · exact ⟨by decide, by simp [Indexes]⟩
  · rw [List.map_cons, List.map_cons, List.map_cons, List.map_cons, hbytes]
    rfl

end SqlSession
