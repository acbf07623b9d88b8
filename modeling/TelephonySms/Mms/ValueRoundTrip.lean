import TelephonySms.Mms.Values
import TelephonySms.Mms.Wire

/-! # Basic values through the encoder and back

The digits that the encoders of the integers write make the same value again, and the
decoders take all of them and no more, whatever follows.
-/

namespace TelephonySms.Mms

open Action OctetReader Reader

/-! ## Numbers -/

theorem octetsFrom_lowDigits {fuel value : Nat} (h : value < 256 ^ fuel) (w : Octets) :
    octetsFrom 0 (((lowDigits 8 fuel value).map UInt8.ofNat).reverse ++ w) =
      octetsFrom value w := by
  induction fuel generalizing value w with
  | zero =>
      have hzero : value = 0 := by simpa using h
      simp [lowDigits, hzero]
  | succ fuel ih =>
      rw [lowDigits]
      split
      · next hzero => simp [hzero]
      · have hhigh : value / 256 < 256 ^ fuel := by
          rw [Nat.pow_succ] at h
          exact Nat.div_lt_of_lt_mul (by omega)
        have hdigit : (UInt8.ofNat (value % 256)).toNat = value % 256 :=
          UInt8.toNat_ofNat_of_lt' (Nat.mod_lt _ (by decide))
        rw [show (2 : Nat) ^ 8 = 256 from rfl, List.map_cons, List.reverse_cons,
          List.append_assoc, ih hhigh]
        simp only [octetsFrom, List.cons_append, List.nil_append, List.foldl_cons]
        rw [hdigit, Nat.div_add_mod']

theorem uintvarFrom_lowDigits {fuel value : Nat} (h : value < 128 ^ fuel) (w : Octets) :
    uintvarFrom 0 (((lowDigits 7 fuel value).map fun d => UInt8.ofNat (0x80 + d)).reverse ++ w) =
      uintvarFrom value w := by
  induction fuel generalizing value w with
  | zero =>
      have hzero : value = 0 := by simpa using h
      simp [lowDigits, hzero]
  | succ fuel ih =>
      rw [lowDigits]
      split
      · next hzero => simp [hzero]
      · have hhigh : value / 128 < 128 ^ fuel := by
          rw [Nat.pow_succ] at h
          exact Nat.div_lt_of_lt_mul (by omega)
        have hdigit : (UInt8.ofNat (0x80 + value % 128)).toNat = 128 + value % 128 := by
          rw [UInt8.toNat_ofNat']
          omega
        rw [show (2 : Nat) ^ 7 = 128 from rfl, List.map_cons, List.reverse_cons,
          List.append_assoc, ih hhigh, List.singleton_append, uintvarFrom, hdigit,
          if_neg (by omega), Nat.add_sub_cancel_left, Nat.div_add_mod']

theorem uintvarOctets_isUintvar {value : Nat} (h : value < 2 ^ 32) :
    IsUintvar value (uintvarOctets value) := by
  refine ⟨?_, h⟩
  have hhigh : value / 128 < 128 ^ 4 := by omega
  have hdigit : value % 128 < 128 := Nat.mod_lt _ (by decide)
  have hlast : (UInt8.ofNat (value % 128)).toNat = value % 128 :=
    UInt8.toNat_ofNat_of_lt' (Nat.lt_trans hdigit (by decide))
  rw [uintvarOctets, List.reverse_cons, uintvarFrom_lowDigits hhigh, uintvarFrom, hlast,
    if_pos hdigit, if_pos rfl, Nat.div_add_mod']

theorem valueLengthWire_isValueLength {value : Nat} (h : value < 2 ^ 32) :
    IsValueLength value (valueLengthWire value) := by
  unfold valueLengthWire
  split
  · next hshort => exact IsValueLength.short hshort
  · exact IsValueLength.long (uintvarOctets_isUintvar h)

theorem octetsFrom_longIntegerOctets {value : Nat} (h : value < 2 ^ 64) :
    octetsFrom 0 (longIntegerOctets value) = value := by
  have hlt : value < 256 ^ 8 := h
  have hall := octetsFrom_lowDigits hlt []
  rw [List.append_nil] at hall
  exact hall

theorem longIntegerOctets_ne_nil {value : Nat} (h : value ≠ 0) : longIntegerOctets value ≠ [] := by
  rw [longIntegerOctets, lowDigits, if_neg h]
  simp

theorem longIntegerWire_of_ne_zero {value : Nat} (h : value ≠ 0) :
    longIntegerWire value = (IntegerValue.long (longIntegerOctets value)).wire := by
  rw [longIntegerWire, if_neg h]
  rfl

theorem longIntegerOctets_length_le (value : Nat) : (longIntegerOctets value).length ≤ 8 := by
  by_cases hzero : value = 0
  · simp [longIntegerOctets, lowDigits, hzero]
  · have hwire := longIntegerWire_length_le value
    rw [longIntegerWire_of_ne_zero hzero, IntegerValue.wire, List.length_cons] at hwire
    omega

/-! ## Integers -/

/-- Below the size of a PDU the encoder succeeds, where it succeeds it has written the same
octets, and the decoder takes exactly these octets and returns what is said of them. -/
def Restores {α : Type} (encode : Write Unit) (decode : Reader α) (result : Octets → α) : Prop :=
  ∃ wire, Appends MMS_PDU_MAX_SIZE encode wire ∧ Emits encode wire ∧
    Reads decode wire (result wire)

theorem encodeUintvar_restores {value : Nat} (h : value < 2 ^ 32) :
    Restores (encodeUintvar value) decodeUintvar fun wire => (value, wire.length) :=
  ⟨uintvarOctets value, encodeUintvar_appends value, writeBytes_emits _,
    decodeUintvar_reads (uintvarOctets_isUintvar h)⟩

theorem encodeValueLength_restores {value : Nat} (h : value < 2 ^ 32) :
    Restores (encodeValueLength value) decodeValueLength fun _ => value :=
  ⟨valueLengthWire value, encodeValueLength_appends value, encodeValueLength_emits value,
    decodeValueLength_reads (valueLengthWire_isValueLength h)⟩

theorem encodeValueLength_restoresLen {value : Nat} (h : value < 2 ^ 32) :
    Restores (encodeValueLength value) decodeValueLengthReturnLen
      fun wire => (value, wire.length) :=
  ⟨valueLengthWire value, encodeValueLength_appends value, encodeValueLength_emits value,
    decodeValueLengthReturnLen_reads (valueLengthWire_isValueLength h)⟩

/-- Zero has one octet, and every other number the octets of its digits. -/
theorem longIntegerWire_reads {value : Nat} (h : value < 2 ^ 64) :
    Reads decodeLongInteger (longIntegerWire value) value := by
  by_cases hzero : value = 0
  · have hoctet : [(0 : UInt8)].length ≤ 8 := by decide
    rw [hzero]
    exact decodeLongInteger_reads hoctet
  · have hread := decodeLongInteger_reads (longIntegerOctets_length_le value)
    rw [octetsFrom_longIntegerOctets h] at hread
    rw [longIntegerWire_of_ne_zero hzero]
    exact hread

theorem encodeLongInteger_restores {value : Nat} (h : value < 2 ^ 64) :
    Restores (encodeLongInteger value) decodeLongInteger fun _ => value :=
  ⟨longIntegerWire value, encodeLongInteger_appends value, encodeLongInteger_emits value,
    longIntegerWire_reads h⟩

theorem encodeInteger_emits (value : Nat) : Emits (encodeInteger value) (integerWire value) := by
  unfold encodeInteger integerWire
  split
  · exact writeByte_emits _
  · exact encodeLongInteger_emits value

/-- The value that is on the wire. -/
def integerValue (value : Nat) : IntegerValue :=
  if value ≤ 127 then .short (UInt8.ofNat value) else .long (longIntegerOctets value)

theorem integerWire_eq (value : Nat) : integerWire value = (integerValue value).wire := by
  unfold integerWire integerValue
  split
  · rfl
  · next hlong => exact longIntegerWire_of_ne_zero (by omega)

theorem integerValue_valid (value : Nat) :
    (integerValue value).Valid ∧ (integerValue value).IsShort := by
  unfold integerValue
  split
  · next hshort =>
      have hsize : value < UInt8.size := Nat.lt_of_le_of_lt hshort (by decide)
      exact ⟨(UInt8.ofNat_lt_iff_lt hsize (by decide)).2 (Nat.lt_succ_of_le hshort), trivial⟩
  · next hlong =>
      have hle := longIntegerOctets_length_le value
      exact ⟨⟨longIntegerOctets_ne_nil (by omega), by omega⟩, hle⟩

theorem integerValue_value {value : Nat} (h : value < 2 ^ 64) :
    (integerValue value).value = value := by
  unfold integerValue
  split
  · next hshort => exact UInt8.toNat_ofNat_of_lt' (Nat.lt_of_le_of_lt hshort (by decide))
  · exact octetsFrom_longIntegerOctets h

theorem integerWire_reads {value : Nat} (h : value < 2 ^ 64) :
    Reads decodeInteger (integerWire value) value := by
  rcases integerValue_valid value with ⟨hvalid, hshort⟩
  have hread := decodeInteger_reads hvalid hshort
  rwa [← integerWire_eq, integerValue_value h] at hread

theorem encodeInteger_restores {value : Nat} (h : value < 2 ^ 64) :
    Restores (encodeInteger value) decodeInteger fun _ => value :=
  ⟨integerWire value, encodeInteger_appends value, encodeInteger_emits value,
    integerWire_reads h⟩

/-- The integers and the lengths of the protocol, each with its decoders. -/
theorem integerCodecs_restore (value : UInt32) (longValue : UInt64) :
    Restores (encodeUintvar value.toNat) decodeUintvar (fun wire => (value.toNat, wire.length)) ∧
    Restores (encodeValueLength value.toNat) decodeValueLength (fun _ => value.toNat) ∧
    Restores (encodeValueLength value.toNat) decodeValueLengthReturnLen
      (fun wire => (value.toNat, wire.length)) ∧
    Restores (encodeInteger value.toNat) decodeInteger (fun _ => value.toNat) ∧
    Restores (encodeLongInteger longValue.toNat) decodeLongInteger (fun _ => longValue.toNat) := by
  have hvalue := value.toNat_lt
  have hlong := longValue.toNat_lt
  exact ⟨encodeUintvar_restores hvalue, encodeValueLength_restores hvalue,
    encodeValueLength_restoresLen hvalue, encodeInteger_restores (by omega),
    encodeLongInteger_restores hlong⟩

/-! ## Texts -/

/-- A text with an octet at least, that ends only where it ends and starts with no quote. -/
structure IsTextValue (text : Octets) : Prop where
  ne_nil : text ≠ []
  noNul : 0 ∉ text
  noQuote : text.head? ≠ some 0x7f

/-- A text as the encoder writes it. Where `char` is signed it has no quote. -/
def textString (platform : Platform) (text : Octets) : TextString where
  quoted := platform.charIsUnsigned && text.head?.any (· > 0x7f)
  text := text

theorem textWire_eq (platform : Platform) {text : Octets} (h : text ≠ []) :
    textWire platform text = (textString platform text).wire := by
  cases text with
  | nil => exact absurd rfl h
  | cons first rest => simp [textWire, TextString.wire, textString]

theorem textString_valid (platform : Platform) {text : Octets} (h : IsTextValue text) :
    (textString platform text).Valid :=
  ⟨h.noNul, fun _ => h.noQuote⟩

theorem encodeText_produces (platform : Platform) {text : Octets} (h : text ≠ []) :
    Produces MMS_PDU_MAX_SIZE (encodeText platform text)
      (some (textString platform text).wire) := by
  rw [← textWire_eq platform h]
  exact ⟨encodeText_appends platform text, encodeText_emits platform text⟩

theorem writeByte_produces (b : UInt8) : Produces MMS_PDU_MAX_SIZE (writeByte b) (some [b]) :=
  ⟨writeByte_appends b, writeByte_emits b⟩

end TelephonySms.Mms
