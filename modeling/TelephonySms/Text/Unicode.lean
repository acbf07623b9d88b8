import TelephonySms.Text.Convert

/-! # Unicode

UTF-8 and UTF-16 as `iconv` converts between them.
-/

namespace TelephonySms.Text

/-! ## UTF-16 -/

def utf16Units (c : Char) : List UInt16 :=
  if c.toNat < 0x10000 then [UInt16.ofNat c.toNat]
  else
    [UInt16.ofNat (0xD800 + (c.toNat - 0x10000) / 0x400),
      UInt16.ofNat (0xDC00 + (c.toNat - 0x10000) % 0x400)]

/-- The characters before the first error. -/
def utf16Chars : List UInt16 → List Char
  | [] => []
  | [c] => if isHighSurrogate c || isLowSurrogate c then [] else [Char.ofNat c.toNat]
  | c :: low :: units =>
      if isHighSurrogate c then
        if isLowSurrogate low then
          Char.ofNat (0x10000 + (c.toNat - 0xD800) * 0x400 + (low.toNat - 0xDC00)) ::
            utf16Chars units
        else []
      else if isLowSurrogate c then []
      else Char.ofNat c.toNat :: utf16Chars (low :: units)

def utf8Iconv : Iconv where
  utf8ToUtf16 src := src.toByteArray.utf8Decode?.map fun chars => chars.toList.flatMap utf16Units
  utf16ToUtf8 src := (utf16Chars src).flatMap String.utf8EncodeChar

theorem isHighSurrogate_iff {c : UInt16} :
    isHighSurrogate c = true ↔ 0xD800 ≤ c.toNat ∧ c.toNat < 0xDC00 := by
  simp [isHighSurrogate, UInt16.le_iff_toNat_le, UInt16.lt_iff_toNat_lt]

theorem isLowSurrogate_iff {c : UInt16} :
    isLowSurrogate c = true ↔ 0xDC00 ≤ c.toNat ∧ c.toNat < 0xE000 := by
  simp [isLowSurrogate, UInt16.le_iff_toNat_le, UInt16.lt_iff_toNat_lt]

theorem utf16Chars_unit {c : UInt16} (hhigh : isHighSurrogate c = false)
    (hlow : isLowSurrogate c = false) (units : List UInt16) :
    utf16Chars (c :: units) = Char.ofNat c.toNat :: utf16Chars units := by
  cases units with
  | nil => simp [utf16Chars, hhigh, hlow]
  | cons low units => simp [utf16Chars, hhigh, hlow]

theorem utf16Chars_pair {high low : UInt16} (hhigh : isHighSurrogate high = true)
    (hlow : isLowSurrogate low = true) (units : List UInt16) :
    utf16Chars (high :: low :: units) =
      Char.ofNat (0x10000 + (high.toNat - 0xD800) * 0x400 + (low.toNat - 0xDC00)) ::
        utf16Chars units := by
  simp [utf16Chars, hhigh, hlow]

theorem utf16Chars_append {units : List UInt16} (h : WellFormed units) (more : List UInt16) :
    utf16Chars (units ++ more) = utf16Chars units ++ utf16Chars more := by
  induction h with
  | nil => rfl
  | unit hhigh hlow _ ih =>
      rw [List.cons_append, utf16Chars_unit hhigh hlow, ih, utf16Chars_unit hhigh hlow]
      rfl
  | pair hhigh hlow _ ih =>
      rw [List.cons_append, List.cons_append, utf16Chars_pair hhigh hlow, ih,
        utf16Chars_pair hhigh hlow]
      rfl

theorem toNat_ofNat_char {n : Nat} (h : n.isValidChar) : (Char.ofNat n).toNat = n := by
  rw [Char.ofNat, dif_pos h]
  exact UInt32.toNat_ofNatLT

/-- A character is a unit that is no surrogate, or a pair of them. -/
theorem utf16Units_cases (c : Char) :
    (∃ unit, utf16Units c = [unit] ∧ isHighSurrogate unit = false ∧
        isLowSurrogate unit = false ∧ Char.ofNat unit.toNat = c) ∨
      ∃ high low, utf16Units c = [high, low] ∧ isHighSurrogate high = true ∧
        isLowSurrogate low = true ∧
        Char.ofNat (0x10000 + (high.toNat - 0xD800) * 0x400 + (low.toNat - 0xDC00)) = c := by
  have hvalid : c.toNat < 0xD800 ∨ 0xDFFF < c.toNat ∧ c.toNat < 0x110000 := c.valid
  unfold utf16Units
  split
  · rename_i hlt
    have hunit : (UInt16.ofNat c.toNat).toNat = c.toNat := by
      rw [UInt16.toNat_ofNat', Nat.mod_eq_of_lt hlt]
    refine .inl ⟨_, rfl, ?_, ?_, by rw [hunit, Char.ofNat_toNat]⟩
    · rw [← Bool.not_eq_true, isHighSurrogate_iff, hunit]
      omega
    · rw [← Bool.not_eq_true, isLowSurrogate_iff, hunit]
      omega
  · have hhigh : (UInt16.ofNat (0xD800 + (c.toNat - 0x10000) / 0x400)).toNat =
        0xD800 + (c.toNat - 0x10000) / 0x400 := by
      rw [UInt16.toNat_ofNat', Nat.mod_eq_of_lt (by omega)]
    have hlow : (UInt16.ofNat (0xDC00 + (c.toNat - 0x10000) % 0x400)).toNat =
        0xDC00 + (c.toNat - 0x10000) % 0x400 := by
      rw [UInt16.toNat_ofNat', Nat.mod_eq_of_lt (by omega)]
    refine .inr ⟨_, _, rfl, ?_, ?_, ?_⟩
    · rw [isHighSurrogate_iff, hhigh]
      omega
    · rw [isLowSurrogate_iff, hlow]
      omega
    · have hback : 0x10000 + (0xD800 + (c.toNat - 0x10000) / 0x400 - 0xD800) * 0x400 +
          (0xDC00 + (c.toNat - 0x10000) % 0x400 - 0xDC00) = c.toNat := by
        omega
      rw [hhigh, hlow, hback, Char.ofNat_toNat]

theorem wellFormed_utf16Units (chars : List Char) : WellFormed (chars.flatMap utf16Units) := by
  induction chars with
  | nil => exact .nil
  | cons c chars ih =>
      rw [List.flatMap_cons]
      cases utf16Units_cases c with
      | inl h =>
          obtain ⟨unit, hc, hhigh, hlow, -⟩ := h
          rw [hc]
          exact .unit hhigh hlow ih
      | inr h =>
          obtain ⟨high, low, hc, hhigh, hlow, -⟩ := h
          rw [hc]
          exact .pair hhigh hlow ih

theorem utf16Chars_flatMap (chars : List Char) :
    utf16Chars (chars.flatMap utf16Units) = chars := by
  induction chars with
  | nil => rfl
  | cons c chars ih =>
      rw [List.flatMap_cons]
      cases utf16Units_cases c with
      | inl h =>
          obtain ⟨unit, hc, hhigh, hlow, hchar⟩ := h
          rw [hc, List.singleton_append, utf16Chars_unit hhigh hlow, hchar, ih]
      | inr h =>
          obtain ⟨high, low, hc, hhigh, hlow, hchar⟩ := h
          rw [hc, List.cons_append, List.singleton_append, utf16Chars_pair hhigh hlow, hchar, ih]

theorem utf16Units_unit {c : UInt16} (hhigh : isHighSurrogate c = false)
    (hlow : isLowSurrogate c = false) : utf16Units (Char.ofNat c.toNat) = [c] := by
  have hlt := c.toNat_lt
  rw [← Bool.not_eq_true, isHighSurrogate_iff] at hhigh
  rw [← Bool.not_eq_true, isLowSurrogate_iff] at hlow
  have hvalid : c.toNat.isValidChar := by
    unfold Nat.isValidChar
    omega
  rw [utf16Units, toNat_ofNat_char hvalid, if_pos hlt, UInt16.ofNat_toNat]

theorem utf16Units_pair {high low : UInt16} (hhigh : isHighSurrogate high = true)
    (hlow : isLowSurrogate low = true) :
    utf16Units (Char.ofNat (0x10000 + (high.toNat - 0xD800) * 0x400 + (low.toNat - 0xDC00))) =
      [high, low] := by
  rw [isHighSurrogate_iff] at hhigh
  rw [isLowSurrogate_iff] at hlow
  have hvalid : (0x10000 + (high.toNat - 0xD800) * 0x400 + (low.toNat - 0xDC00)).isValidChar := by
    unfold Nat.isValidChar
    omega
  rw [utf16Units, toNat_ofNat_char hvalid, if_neg (by omega)]
  have hfirst : 0xD800 + (0x10000 + (high.toNat - 0xD800) * 0x400 + (low.toNat - 0xDC00) -
      0x10000) / 0x400 = high.toNat := by
    omega
  have hsecond : 0xDC00 + (0x10000 + (high.toNat - 0xD800) * 0x400 + (low.toNat - 0xDC00) -
      0x10000) % 0x400 = low.toNat := by
    omega
  rw [hfirst, hsecond, UInt16.ofNat_toNat, UInt16.ofNat_toNat]

theorem flatMap_utf16Chars {units : List UInt16} (h : WellFormed units) :
    (utf16Chars units).flatMap utf16Units = units := by
  induction h with
  | nil => rfl
  | unit hhigh hlow _ ih =>
      rw [utf16Chars_unit hhigh hlow, List.flatMap_cons, ih, utf16Units_unit hhigh hlow]
      rfl
  | pair hhigh hlow _ ih =>
      rw [utf16Chars_pair hhigh hlow, List.flatMap_cons, ih, utf16Units_pair hhigh hlow]
      rfl

/-! ## UTF-8 -/

theorem utf8ToUtf16_encode (chars : List Char) :
    utf8Iconv.utf8ToUtf16 (chars.flatMap String.utf8EncodeChar) =
      some (chars.flatMap utf16Units) := by
  have hdecode : (chars.flatMap String.utf8EncodeChar).toByteArray.utf8Decode? =
      some chars.toArray := List.utf8Decode?_utf8Encode
  simp [utf8Iconv, hdecode]

theorem utf8ToUtf16_eq_some {src : List UInt8} {units : List UInt16}
    (h : utf8Iconv.utf8ToUtf16 src = some units) :
    ∃ chars : List Char, src = chars.flatMap String.utf8EncodeChar ∧
      units = chars.flatMap utf16Units := by
  obtain ⟨chars, hdecode, rfl⟩ := Option.map_eq_some_iff.1 h
  refine ⟨chars.toList, ?_, rfl⟩
  have hsome : src.toByteArray.utf8Decode?.isSome = true := by rw [hdecode]; rfl
  have hencode := ByteArray.utf8Encode_get_utf8Decode? (h := hsome)
  simp only [hdecode, Option.get_some] at hencode
  have hoctets := congrArg (fun b : ByteArray => b.data.toList) hencode
  simpa [List.utf8Encode] using hoctets.symm

theorem length_utf16Units_le (c : Char) :
    (utf16Units c).length ≤ (String.utf8EncodeChar c).length := by
  rw [String.length_utf8EncodeChar]
  unfold utf16Units
  split
  · exact c.utf8Size_pos
  · rename_i hge
    have hfour : c.utf8Size = 4 := by
      rw [Char.utf8Size_eq_four_iff, UInt32.lt_iff_toNat_lt, Char.toNat_val]
      simp
      omega
    rw [hfour]
    simp

theorem utf8EncodeChar_ascii {c : UInt16} (h : c ≤ 0x7F) :
    String.utf8EncodeChar (Char.ofNat c.toNat) = [c.toUInt8] := by
  have hlt : c.toNat ≤ 0x7F := UInt16.le_iff_toNat_le.1 h
  have hchar : (Char.ofNat c.toNat).toNat = c.toNat := toNat_ofNat_char (.inl (by omega))
  have hsize : (Char.ofNat c.toNat).utf8Size = 1 := by
    rw [Char.utf8Size_eq_one_iff, UInt32.le_iff_toNat_le, Char.toNat_val, hchar]
    exact hlt
  have hoctet : (Char.ofNat c.toNat).val.toUInt8 = c.toUInt8 := by
    apply UInt8.toNat.inj
    rw [UInt32.toNat_toUInt8, Char.toNat_val, hchar, UInt16.toNat_toUInt8]
  rw [String.utf8EncodeChar_eq_singleton hsize, hoctet]

theorem utf8Iconv_faithful : utf8Iconv.Faithful where
  wellFormed := by
    intro src units h
    obtain ⟨chars, -, rfl⟩ := utf8ToUtf16_eq_some h
    exact wellFormed_utf16Units chars
  length_le := by
    intro src units h
    obtain ⟨chars, rfl, rfl⟩ := utf8ToUtf16_eq_some h
    clear h
    induction chars with
    | nil => rfl
    | cons c chars ih =>
        have hle := length_utf16Units_le c
        simp only [List.flatMap_cons, List.length_append]
        omega
  back := by
    intro src units h
    obtain ⟨chars, rfl, rfl⟩ := utf8ToUtf16_eq_some h
    simp only [utf8Iconv, utf16Chars_flatMap]
  forth := by
    intro units h
    have hforth := utf8ToUtf16_encode (utf16Chars units)
    rwa [flatMap_utf16Chars h] at hforth
  ascii := by
    intro units h
    induction units with
    | nil => rfl
    | cons c units ih =>
        obtain ⟨hc, hunits⟩ := List.forall_mem_cons.1 h
        have hlt := UInt16.le_iff_toNat_le.1 hc
        have hhigh : isHighSurrogate c = false := by
          rw [← Bool.not_eq_true, isHighSurrogate_iff]
          simp at hlt
          omega
        have hlow : isLowSurrogate c = false := by
          rw [← Bool.not_eq_true, isLowSurrogate_iff]
          simp at hlt
          omega
        have hrest := ih hunits
        simp only [utf8Iconv] at hrest ⊢
        rw [utf16Chars_unit hhigh hlow, List.flatMap_cons, hrest, utf8EncodeChar_ascii hc]
        rfl
  append := by
    intro units more h
    simp only [utf8Iconv]
    rw [utf16Chars_append h, List.flatMap_append]
  incomplete := by
    intro c h
    simp [utf8Iconv, utf16Chars, h]
  broken := by
    intro c more h
    have hhigh : isHighSurrogate c = false := by
      rw [isLowSurrogate_iff] at h
      rw [← Bool.not_eq_true, isHighSurrogate_iff]
      omega
    cases more with
    | nil => simp [utf8Iconv, utf16Chars, h]
    | cons next more => simp [utf8Iconv, utf16Chars, h, hhigh]

end TelephonySms.Text
