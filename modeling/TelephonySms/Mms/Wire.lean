import TelephonySms.Mms.BodyEncode

/-! # What is on the wire

The octets of every field and of every part, and that the encoders write them. A field
that its encoder refuses has none.
-/

namespace TelephonySms.Mms

open Action MmsFieldCode ContentParam MmsHeaderParam

/-- Behind its length. -/
def lengthWire (w : Octets) : Octets := valueLengthWire w.length ++ w

theorem lengthWire_appends {m : Write Unit} {w : Octets} (hm : Appends MMS_PDU_MAX_SIZE m w)
    (hw : w ≠ []) : Appends MMS_PDU_MAX_SIZE (do
      let temp ← inTempBuffer m
      encodeValueLength temp.length
      writeBuffer temp) (lengthWire w) := by
  refine inTempBuffer_appends hm ?_ (by simp [lengthWire])
  exact Appends.bind (encodeValueLength_appends _) (writeBuffer_appends w hw)

theorem lengthWire_emits {m : Write Unit} {w : Octets}
    (hm : ∀ temp, m [] = (some (), temp) → temp = w) : Emits (do
      let temp ← inTempBuffer m
      encodeValueLength temp.length
      writeBuffer temp) (lengthWire w) :=
  inTempBuffer_emits hm (Emits.bind (encodeValueLength_emits _) (writeBuffer_emits w))

/-! ## Strings and addresses -/

def charsetWire (charset : Nat) : Octets :=
  if charset &&& 0xff00 = 0 then shortIntegerWire (UInt8.ofNat charset) else integerWire charset

def encodeStringWire (platform : Platform) (value : MmsEncodeString) : Octets :=
  if value.charset ≠ 0 then
    lengthWire (charsetWire value.charset ++ textWire platform value.strEncodeString)
  else
    textWire platform value.strEncodeString

theorem longIntegerWire_length_le (value : Nat) : (longIntegerWire value).length ≤ 9 := by
  have hdigits : ∀ n v, (lowDigits 8 n v).length ≤ n := by
    intro n
    induction n with
    | zero => simp [lowDigits]
    | succ n ih =>
        intro v
        rw [lowDigits]
        split
        · simp
        · simpa using ih _
  unfold longIntegerWire
  have hall := hdigits 8 value
  split
  · simp
  · rw [longIntegerOctets, List.length_cons, List.length_reverse, List.length_map]
    omega

theorem charsetWire_length (charset : Nat) :
    1 ≤ (charsetWire charset).length ∧ (charsetWire charset).length ≤ 9 := by
  have hlong := longIntegerWire_length_le charset
  unfold charsetWire integerWire
  split
  · simp [shortIntegerWire]
  · split
    · simp [shortIntegerWire]
    · exact ⟨by simp [longIntegerWire], hlong⟩

/-- The charset and the text as they stand in the temporary buffer. -/
def encodeStringBody (platform : Platform) (value : MmsEncodeString) : Write Unit := do
  if value.charset &&& 0xff00 = 0 then
    attempt (encodeShortInteger (UInt8.ofNat value.charset))
  else
    attempt (encodeInteger value.charset)
  encodeText platform value.strEncodeString

theorem encodeStringBody_appends (platform : Platform) (value : MmsEncodeString) :
    Appends MMS_PDU_MAX_SIZE (encodeStringBody platform value)
      (charsetWire value.charset ++ textWire platform value.strEncodeString) := by
  unfold encodeStringBody charsetWire
  split
  · exact Appends.bind (Appends.attempt (encodeShortInteger_appends _))
      (encodeText_appends platform _)
  · exact Appends.bind (Appends.attempt (encodeInteger_appends _))
      (encodeText_appends platform _)

/-- In a fresh buffer the charset fits. -/
theorem encodeStringBody_emits (platform : Platform) (value : MmsEncodeString) (temp : Octets)
    (h : encodeStringBody platform value [] = (some (), temp)) :
    temp = charsetWire value.charset ++ textWire platform value.strEncodeString := by
  have hlength := (charsetWire_length value.charset).2
  have hfits : ([] : Octets).length + (charsetWire value.charset).length < MMS_PDU_MAX_SIZE := by
    simp [MMS_PDU_MAX_SIZE]
    omega
  unfold encodeStringBody at h
  unfold charsetWire at hfits ⊢
  split at h
  · next hshort =>
      rw [if_pos hshort] at hfits ⊢
      rw [bind_of_some (Appends.attempt (encodeShortInteger_appends _) [] hfits)] at h
      simpa using encodeText_emits platform _ _ _ h
  · next hlong =>
      rw [if_neg hlong] at hfits ⊢
      rw [bind_of_some (Appends.attempt (encodeInteger_appends _) [] hfits)] at h
      simpa using encodeText_emits platform _ _ _ h

theorem encodeStringBody_ne_nil (platform : Platform) (value : MmsEncodeString) :
    charsetWire value.charset ++ textWire platform value.strEncodeString ≠ [] := by
  have hlength := (charsetWire_length value.charset).1
  intro h
  have hnil := (List.append_eq_nil_iff.mp h).1
  simp [hnil] at hlength

theorem encodeEncodeString_appends (platform : Platform) (value : MmsEncodeString) :
    Appends MMS_PDU_MAX_SIZE (encodeEncodeString platform value)
      (encodeStringWire platform value) := by
  unfold encodeEncodeString encodeStringWire
  split
  · exact lengthWire_appends (encodeStringBody_appends platform value)
      (encodeStringBody_ne_nil platform value)
  · exact encodeText_appends platform _

theorem encodeEncodeString_emits (platform : Platform) (value : MmsEncodeString) :
    Emits (encodeEncodeString platform value) (encodeStringWire platform value) := by
  unfold encodeEncodeString encodeStringWire
  split
  · exact lengthWire_emits (encodeStringBody_emits platform value)
  · exact encodeText_emits platform _

def addressesWire (platform : Platform) (fieldId : UInt8) (addrs : List MmsAddress) : Octets :=
  addrs.flatMap fun addr => fieldId :: encodeStringWire platform (setAddressString addr)

/-- The value of the sender field. -/
def senderAddressWire (platform : Platform) : List MmsAddress → Octets
  | [] => [129]
  | address :: _ =>
      if address.addressString = [] then
        [129]
      else
        128 :: encodeStringWire platform (setAddressString address)

def senderWire (platform : Platform) (addr : List MmsAddress) : Octets :=
  MMS_FROM :: lengthWire (senderAddressWire platform addr)

namespace MmsHeader

variable (platform : Platform)

theorem encodeFromAddress_appends (addr : List MmsAddress) :
    Appends MMS_PDU_MAX_SIZE (encodeFromAddress platform addr)
      (senderAddressWire platform addr) := by
  cases addr with
  | nil => exact writeByte_appends 129
  | cons address rest =>
      simp only [encodeFromAddress, senderAddressWire]
      split
      · exact writeByte_appends 129
      · exact Appends.bind (writeByte_appends 128) (encodeEncodeString_appends platform _)

theorem encodeFromAddress_emits (addr : List MmsAddress) :
    Emits (encodeFromAddress platform addr) (senderAddressWire platform addr) := by
  cases addr with
  | nil => exact writeByte_emits 129
  | cons address rest =>
      simp only [encodeFromAddress, senderAddressWire]
      split
      · exact writeByte_emits 129
      · exact Emits.bind (writeByte_emits 128) (encodeEncodeString_emits platform _)

theorem senderAddressWire_ne_nil (addr : List MmsAddress) :
    senderAddressWire platform addr ≠ [] := by
  cases addr with
  | nil => simp [senderAddressWire]
  | cons address rest =>
      simp only [senderAddressWire]
      split <;> simp

/-! ## Fields -/

variable (h : MmsHeader) (fieldId : UInt8)

def octetFieldWire : Option Octets := (h.octetValueMap fieldId).map fun value => [fieldId, value]

def textWireOf (value : Octets) : Option Octets :=
  if value = [] then none else some (fieldId :: textWire platform value)

def textFieldWire : Option Octets := (h.textValueMap fieldId).bind (textWireOf platform fieldId)

def encodeStringWireOf (value : MmsEncodeString) : Option Octets :=
  if (value.getEncodeString platform).1 = true ∧ (value.getEncodeString platform).2 ≠ [] then
    some (fieldId :: encodeStringWire platform value)
  else
    none

def encodeStringFieldWire : Option Octets :=
  (h.encodeStringsMap fieldId).bind (encodeStringWireOf platform fieldId)

def longFieldWire : Option Octets :=
  (h.longValueMap fieldId).map fun value => fieldId :: longIntegerWire (toUInt64 value)

def expiryWire (value : Int64) : Octets :=
  MMS_EXPIRY :: lengthWire (129 :: longIntegerWire (toUInt64 value))

def expiryFieldWire : Option Octets := (h.longValueMap MMS_EXPIRY).map expiryWire

def senderFieldWire : Option Octets := (h.addressMap .sender).map (senderWire platform)

def addressListWire (addrs : List MmsAddress) : Option Octets :=
  if addrs = [] then none else some (addressesWire platform fieldId addrs)

def addressFieldWire (field : AddressField) : Option Octets :=
  (h.addressMap field).bind (addressListWire platform field.code)

def messageClassOf (strValue : Octets) : Option Octets :=
  if strValue = ascii "personal" then some [MMS_MESSAGE_CLASS, 128]
  else if strValue = ascii "advertisement" then some [MMS_MESSAGE_CLASS, 129]
  else if strValue = ascii "informational" then some [MMS_MESSAGE_CLASS, 130]
  else if strValue = ascii "auto" then some [MMS_MESSAGE_CLASS, 131]
  else textWireOf platform MMS_MESSAGE_CLASS strValue

def messageClassWire : Option Octets :=
  match h.octetValueMap MMS_MESSAGE_CLASS with
  | some valueOctet => some [MMS_MESSAGE_CLASS, valueOctet]
  | none => (h.textValueMap MMS_MESSAGE_CLASS).bind (messageClassOf platform)

/-- The type, the transaction id and the version. -/
def commonWire : Option Octets :=
  Option.map₂ (· ++ ·) (some [MMS_MESSAGE_TYPE, (h.octetValueMap MMS_MESSAGE_TYPE).getD 0])
    (Option.map₂ (· ++ ·)
      (match h.textValueMap MMS_TRANSACTION_ID with
        | some transactionId => textWireOf platform MMS_TRANSACTION_ID transactionId
        | none => some [])
      (some (MMS_MMS_VERSION :: shortIntegerWire
        (UInt8.ofNat (toUInt64 ((h.longValueMap MMS_MMS_VERSION).getD 0))))))

theorem encodeOctetValue_renders (value : UInt8) :
    Renders MMS_PDU_MAX_SIZE (encodeOctetValue fieldId value) (some [fieldId, value]) :=
  ⟨Appends.bind (writeByte_appends fieldId) (writeByte_appends value),
    Emits.bind (writeByte_emits fieldId) (writeByte_emits value)⟩

theorem encodeTextStringValue_renders (value : Octets) :
    Renders MMS_PDU_MAX_SIZE (encodeTextStringValue platform fieldId value)
      (textWireOf platform fieldId value) := by
  unfold encodeTextStringValue textWireOf
  split
  · next hempty =>
      rw [guard_of_not (not_not_intro hempty)]
      exact fun _ => rfl
  · next hvalue =>
      rw [guard_of hvalue]
      exact ⟨Appends.bind (writeByte_appends fieldId) (encodeText_appends platform value),
        Emits.bind (writeByte_emits fieldId) (encodeText_emits platform value)⟩

theorem encodeTextStringValueFromMap_renders :
    Renders MMS_PDU_MAX_SIZE (h.encodeTextStringValueFromMap platform fieldId)
      (h.textFieldWire platform fieldId) := by
  unfold encodeTextStringValueFromMap textFieldWire
  cases h.textValueMap fieldId with
  | none => exact Renders.fail
  | some value => exact encodeTextStringValue_renders platform fieldId value

theorem encodeLongIntergerValueFromMap_renders :
    Renders MMS_PDU_MAX_SIZE (h.encodeLongIntergerValueFromMap fieldId)
      (h.longFieldWire fieldId) := by
  unfold encodeLongIntergerValueFromMap longFieldWire
  cases h.longValueMap fieldId with
  | none => exact Renders.fail
  | some value =>
      exact ⟨Appends.bind (writeByte_appends fieldId) (encodeLongInteger_appends _),
        Emits.bind (writeByte_emits fieldId) (encodeLongInteger_emits _)⟩

theorem encodeFieldExpriyValue_renders (value : Int64) :
    Renders MMS_PDU_MAX_SIZE (encodeFieldExpriyValue value) (some (expiryWire value)) := by
  have htoken : Appends MMS_PDU_MAX_SIZE (do
      encodeOctet 129
      encodeLongInteger (toUInt64 value)) (129 :: longIntegerWire (toUInt64 value)) :=
    Appends.bind (writeByte_appends 129) (encodeLongInteger_appends _)
  have htoken' : Emits (do
      encodeOctet 129
      encodeLongInteger (toUInt64 value)) (129 :: longIntegerWire (toUInt64 value)) :=
    Emits.bind (writeByte_emits 129) (encodeLongInteger_emits _)
  constructor
  · exact Appends.bind (writeByte_appends MMS_EXPIRY) (lengthWire_appends htoken (by simp))
  · refine Emits.bind (writeByte_emits MMS_EXPIRY) (lengthWire_emits fun temp htemp => ?_)
    simpa using htoken' [] temp htemp

theorem encodeMultipleAddressValue_renders (addrs : List MmsAddress) :
    Renders MMS_PDU_MAX_SIZE (encodeMultipleAddressValue platform fieldId addrs)
      (addressListWire platform fieldId addrs) := by
  unfold encodeMultipleAddressValue addressListWire
  split
  · next hempty =>
      rw [guard_of_not (not_not_intro hempty)]
      exact fun _ => rfl
  · next haddrs =>
      rw [guard_of haddrs]
      constructor
      · exact Appends.forEach addrs fun addr _ =>
          Appends.bind (writeByte_appends fieldId) (encodeEncodeString_appends platform _)
      · exact Emits.forEach addrs fun addr _ =>
          Emits.bind (writeByte_emits fieldId) (encodeEncodeString_emits platform _)

theorem econdeFieldMessageClassValue_renders :
    Renders MMS_PDU_MAX_SIZE (h.econdeFieldMessageClassValue platform)
      (h.messageClassWire platform) := by
  unfold econdeFieldMessageClassValue messageClassWire
  cases h.octetValueMap MMS_MESSAGE_CLASS with
  | some valueOctet => exact encodeOctetValue_renders _ _
  | none =>
      cases h.textValueMap MMS_MESSAGE_CLASS with
      | none => exact Renders.fail
      | some strValue =>
          simp only [Option.bind_some, messageClassOf]
          split_ifs
          · exact encodeOctetValue_renders _ _
          · exact encodeOctetValue_renders _ _
          · exact encodeOctetValue_renders _ _
          · exact encodeOctetValue_renders _ _
          · exact encodeTextStringValue_renders platform _ _

theorem encodeCommontFieldValue_produces :
    Produces MMS_PDU_MAX_SIZE (h.encodeCommontFieldValue platform) (h.commonWire platform) := by
  unfold encodeCommontFieldValue commonWire
  have hversion (value : Int64) : Produces MMS_PDU_MAX_SIZE
      (encodeShortIntegerValue MMS_MMS_VERSION value)
      (some (MMS_MMS_VERSION :: shortIntegerWire (UInt8.ofNat (toUInt64 value)))) :=
    ⟨Appends.bind (writeByte_appends _) (encodeShortInteger_appends _),
      Emits.bind (writeByte_emits _) (writeByte_emits _)⟩
  refine Produces.bind (encodeOctetValue_renders _ _).produces ?_
  cases h.textValueMap MMS_TRANSACTION_ID with
  | none => exact hversion _
  | some transactionId =>
      exact Produces.bind (encodeTextStringValue_renders platform _ _).produces (hversion _)

end MmsHeader

end TelephonySms.Mms
