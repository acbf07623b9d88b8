import TelephonySms.Mms.HeaderReading
import TelephonySms.Mms.ValueRoundTrip

/-! # Encoded strings through the encoder and back

A charset that has none of its bits 8 to 15 is written as one octet, which keeps seven
bits of it. An empty text is written without its end.
-/

namespace TelephonySms.Mms

open Action OctetReader Reader

/-! ## The charset -/

theorem short_bits (b : UInt8) :
    b &&& 0x7f < 0x80 ∧ (b &&& 0x7f) ||| 0x80 = b ||| 0x80 ∧
      (b &&& 0x7f).toNat = b.toNat % 128 := by
  obtain ⟨f⟩ := b
  revert f
  decide

/-- The integer that `charsetWire` holds. -/
def charsetValue (charset : Nat) : IntegerValue :=
  if charset &&& 0xff00 = 0 then .short (UInt8.ofNat charset &&& 0x7f) else integerValue charset

theorem charsetWire_eq (charset : Nat) : charsetWire charset = (charsetValue charset).wire := by
  unfold charsetWire charsetValue
  split
  · rw [IntegerValue.wire, (short_bits _).2.1]
    rfl
  · exact integerWire_eq charset

theorem charsetValue_valid (charset : Nat) :
    (charsetValue charset).Valid ∧ (charsetValue charset).IsShort := by
  unfold charsetValue
  split
  · exact ⟨(short_bits _).1, trivial⟩
  · exact integerValue_valid charset

/-- One octet has room for seven bits of the charset. -/
theorem charsetValue_value {charset : Nat} (h : charset < 2 ^ 32) :
    (charsetValue charset).value =
      if charset &&& 0xff00 = 0 then charset % 128 else charset := by
  unfold charsetValue
  split
  · rw [IntegerValue.value, (short_bits _).2.2, UInt8.toNat_ofNat']
    omega
  · exact integerValue_value (by omega)

theorem charset_restored_iff {charset : Nat} (h : charset < 2 ^ 32) :
    u32 (charsetValue charset).value = charset ↔ charset < 0x80 ∨ charset &&& 0xff00 ≠ 0 := by
  rw [charsetValue_value h]
  split
  · next hshort =>
      rw [u32_of_lt (by omega)]
      constructor
      · intro heq
        exact Or.inl (by omega)
      · intro hlow
        have hlt := hlow.resolve_right (not_not_intro hshort)
        omega
  · next hlong => exact iff_of_true (u32_of_lt h) (Or.inr hlong)

/-! ## The string -/

/-- The string that the encoder writes for a charset and a text. -/
def codedString (platform : Platform) (charset : Nat) (text : Octets) : EncodedString :=
  let body := (charsetValue charset).wire ++ (textString platform text).wire
  .inCharset (valueLengthWire body.length) (charsetValue charset) (textString platform text) []

theorem encodeStringWire_setEncodeString (platform : Platform) {charset : Nat} (h : charset ≠ 0)
    (text : Octets) :
    encodeStringWire platform (setEncodeString charset text) =
      lengthWire ((charsetValue charset).wire ++ textWire platform text) := by
  simp only [encodeStringWire, setEncodeString, if_neg h]
  rw [if_pos h, charsetWire_eq]

theorem encodeStringWire_eq_wire (platform : Platform) {charset : Nat} (h : charset ≠ 0)
    {text : Octets} (hne : text ≠ []) :
    encodeStringWire platform (setEncodeString charset text) =
      (codedString platform charset text).wire := by
  rw [encodeStringWire_setEncodeString platform h, textWire_eq platform hne]
  simp [codedString, EncodedString.wire, lengthWire]

theorem codedString_valid (platform : Platform) (charset : Nat) {text : Octets}
    (htext : IsTextValue text)
    (hlt : (codedString platform charset text).wire.length < 2 ^ 31) :
    (codedString platform charset text).Valid := by
  refine ⟨(charsetValue_valid charset).1, textString_valid platform htext, ?_⟩
  rw [List.append_nil]
  apply valueLengthWire_isValueLength
  simp only [codedString, EncodedString.wire, List.length_append] at hlt ⊢
  omega

theorem codedString_reads (platform : Platform) (charset : Nat) {text : Octets}
    (htext : IsTextValue text)
    (hlt : (codedString platform charset text).wire.length < 2 ^ 31) :
    Reads decodeEncodeString (codedString platform charset text).wire
      (codedString platform charset text).value :=
  decodeEncodeString_reads (codedString_valid platform charset htext hlt)
    ⟨(charsetValue_valid charset).2, rfl⟩

theorem getOneByte_failsAtEnd : FailsBefore getOneByte [] [] := by
  intro front trace _
  refine ⟨trace, ?_⟩
  rw [getOneByte_of_ge (by simp)]
  simp

/-- Behind a charset that nothing follows the decoder finds no text. -/
theorem decodeEncodeString_fails_of_nil (platform : Platform) {charset : Nat} (h : charset ≠ 0) :
    FailsBefore decodeEncodeString
      (encodeStringWire platform (setEncodeString charset [])) [] := by
  have hne := IntegerValue.wire_ne_nil (charsetValue charset)
  have hsize := (charsetWire_length charset).2
  rw [charsetWire_eq] at hsize
  have hlength : IsValueLength (charsetValue charset).wire.length
      (valueLengthWire (charsetValue charset).wire.length) :=
    valueLengthWire_isValueLength (by omega)
  rcases hlength.first (List.length_pos_iff.2 hne) with ⟨b, u, hb, hzero, hlow⟩
  rw [encodeStringWire_setEncodeString platform h]
  simp only [textWire, List.append_nil, lengthWire]
  have hpeek : ReadsBefore peekOneByte []
      (valueLengthWire (charsetValue charset).wire.length ++ (charsetValue charset).wire ++ []) b := by
    rw [hb]
    exact peekOneByte_reads b _
  refine FailsBefore.bind (u := []) hpeek ?_
  rw [if_neg hzero, if_pos hlow]
  refine FailsBefore.bind (decodeValueLength_reads hlength _) ?_
  rcases charsetValue_valid charset with ⟨hvalid, hshort⟩
  rw [← List.append_nil (charsetValue charset).wire]
  refine FailsBefore.bind (decodeInteger_reads hvalid hshort _) ?_
  exact FailsBefore.bind_left _ (FailsBefore.bind_left _ getOneByte_failsAtEnd)

/-- A string in a charset is written with room left behind it. -/
theorem encodeEncodeString_length_lt (platform : Platform) {charset : Nat} (h : charset ≠ 0)
    {text buffer buffer' : Octets}
    (hencode : encodeEncodeString platform (setEncodeString charset text) buffer =
      (some (), buffer')) : buffer'.length < MMS_PDU_MAX_SIZE := by
  have hset : (setEncodeString charset text).charset ≠ 0 := by
    rw [setEncodeString, if_neg h]
    exact h
  rw [encodeEncodeString, if_pos hset] at hencode
  rcases bind_eq_some hencode with ⟨temp, buffer₁, -, hrest⟩
  rcases bind_eq_some hrest with ⟨_, buffer₂, -, hwrite⟩
  rcases writeBuffer_eq_some hwrite with ⟨rfl, hlt⟩
  rw [List.length_append]
  exact hlt

/-- An encoded string comes back when it has a text, and a charset that one octet has room
for or that is not written as one octet. -/
theorem encodeEncodeString_decodes_iff (platform : Platform) (charset : UInt32) (text : Octets)
    (hcharset : charset ≠ 0) (hnul : 0 ∉ text) (hquote : text.head? ≠ some 0x7f)
    (buffer buffer' : Octets)
    (hencode : encodeEncodeString platform (setEncodeString charset.toNat text) buffer =
      (some (), buffer')) :
    (∃ wire found, buffer' = buffer ++ wire ∧ Reads decodeEncodeString wire found ∧
        found.charset = charset.toNat ∧ found.strEncodeString = text) ↔
      text ≠ [] ∧ (charset.toNat < 0x80 ∨ charset.toNat &&& 0xff00 ≠ 0) := by
  have hne : charset.toNat ≠ 0 := fun hzero => hcharset (UInt32.toNat_inj.1 hzero)
  have hbuffer := encodeEncodeString_emits platform _ _ _ hencode
  have hroom := encodeEncodeString_length_lt platform hne hencode
  have hlt : (encodeStringWire platform (setEncodeString charset.toNat text)).length < 2 ^ 31 := by
    rw [hbuffer, List.length_append] at hroom
    exact Nat.lt_trans (Nat.lt_of_le_of_lt (Nat.le_add_left _ _) hroom) (by decide)
  by_cases hempty : text = []
  · subst hempty
    have hfails := decodeEncodeString_fails_of_nil platform hne
    apply iff_of_false
    · intro ⟨wire, found, hwire, hreads, _⟩
      have heq := List.append_cancel_left (hbuffer.symm.trans hwire)
      rw [heq] at hfails hlt
      exact hfails.not_reads (by simpa using hlt) found (hreads [])
    · exact fun hboth => hboth.1 rfl
  · have htext : IsTextValue text := ⟨hempty, hnul, hquote⟩
    rw [encodeStringWire_eq_wire platform hne hempty] at hbuffer hlt
    have hread := codedString_reads platform charset.toNat htext hlt
    have hvalue : (codedString platform charset.toNat text).value.charset = charset.toNat ↔
        charset.toNat < 0x80 ∨ charset.toNat &&& 0xff00 ≠ 0 := charset_restored_iff charset.toNat_lt
    constructor
    · intro ⟨wire, found, hwire, hreads, hcharset, _⟩
      have heq := List.append_cancel_left (hbuffer.symm.trans hwire)
      rw [← heq] at hreads
      rw [← hvalue, (hread []).unique (hreads []) (by simpa using hlt)]
      exact ⟨hempty, hcharset⟩
    · intro ⟨_, hkept⟩
      exact ⟨_, _, hbuffer, hread, hvalue.2 hkept, rfl⟩

/-- A charset of eight bits comes back as another one. -/
theorem charset_128_decodes_to_0 :
    encodeEncodeString plainPlatform (setEncodeString 0x80 (ascii "a")) [] =
        (some (), [3, 0x80, 0x61, 0]) ∧
      (decodeEncodeString ⟨[3, 0x80, 0x61, 0], 0, []⟩).1 = .done ⟨0, 1, ascii "a"⟩ :=
  ⟨rfl, rfl⟩

theorem utf8_text_decodes : (0x6a : UInt32) ≠ 0 ∧
    encodeEncodeString plainPlatform (setEncodeString 0x6a (ascii "a")) [] =
      (some (), [3, 0xea, 0x61, 0]) ∧
    ((∃ wire found, [3, 0xea, 0x61, 0] = [] ++ wire ∧ Reads decodeEncodeString wire found ∧
        found.charset = 0x6a ∧ found.strEncodeString = ascii "a") ↔
      ascii "a" ≠ [] ∧ (0x6a < 0x80 ∨ 0x6a &&& 0xff00 ≠ 0)) :=
  ⟨by decide, rfl, encodeEncodeString_decodes_iff plainPlatform 0x6a (ascii "a") (by decide)
    (by decide) (by decide) [] [3, 0xea, 0x61, 0] rfl⟩

end TelephonySms.Mms
