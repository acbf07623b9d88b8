import TelephonySms.Mms.EncodedStringRoundTrip
import TelephonySms.Mms.HeaderFraming

/-! # The fields that are sent

A message type writes its fields in an order of its own. Every place in that order has the
fields that a header puts there. What the setters let in is what the decoder takes.
-/

namespace TelephonySms.Mms

open OctetReader Reader MmsFieldCode

/-- A place for a field, or for all the addresses of a field. -/
inductive Slot where
  | octet (code : UInt8)
  | long (code : UInt8)
  | version
  | expiry
  | text (code : UInt8)
  | encoded (code : UInt8)
  | sender
  | addresses (field : AddressField)
  deriving DecidableEq, Repr

/-! ## The fields of a place -/

/-- The octets behind their number. -/
def longOctets (value : Nat) : Octets := if value = 0 then [0] else longIntegerOctets value

def expiryField (value : Int64) : HeaderField :=
  let date := BlockValue.date 129 (longOctets (toUInt64 value))
  ⟨MMS_EXPIRY, .block (valueLengthWire date.wire.length) date []⟩

def addressString (platform : Platform) (address : MmsAddress) : EncodedString :=
  codedString platform (setAddressString address).charset address.addressString

def senderAddress (platform : Platform) : List MmsAddress → Option EncodedString
  | [] => none
  | address :: _ =>
      if address.addressString = [] then none else some (addressString platform address)

def senderField (platform : Platform) (addrs : List MmsAddress) : HeaderField :=
  let sender := BlockValue.sender (senderAddress platform addrs)
  ⟨MMS_FROM, .block (valueLengthWire sender.wire.length) sender []⟩

namespace Slot

/-- The decoder has a handler for the place that takes what is written there. -/
def Known : Slot → Prop
  | octet code =>
      0x80 ≤ code ∧ (memberFuncMap code = some .decodeFieldOctetValue ∨ code = MMS_MESSAGE_TYPE)
  | long code => 0x80 ≤ code ∧ memberFuncMap code = some .decodeFieldLongValue
  | text code => 0x80 ≤ code ∧ memberFuncMap code = some .decodeFieldTextStringValue
  | encoded code => 0x80 ≤ code ∧ memberFuncMap code = some .decodeFieldEncodedStringValue
  | addresses field => field ≠ .sender
  | _ => True

instance (slot : Slot) : Decidable slot.Known := by
  cases slot <;> unfold Known <;> infer_instance

def fields (platform : Platform) (h : MmsHeader) : Slot → List HeaderField
  | octet code => (h.octetValueMap code).toList.map fun value => ⟨code, .octet value⟩
  | long code => (h.longValueMap code).toList.map fun value =>
      ⟨code, .integer (.long (longOctets (toUInt64 value)))⟩
  | version => (h.longValueMap MMS_MMS_VERSION).toList.map fun value =>
      ⟨MMS_MMS_VERSION, .integer (.short (UInt8.ofNat (toUInt64 value) &&& 0x7f))⟩
  | expiry => (h.longValueMap MMS_EXPIRY).toList.map expiryField
  | text code => (h.textValueMap code).toList.map fun value =>
      ⟨code, .text (textString platform value)⟩
  | encoded code =>
      ((h.encodeStringsMap code).filter fun value => (value.getEncodeString platform).1).toList.map
        fun value => ⟨code, .encoded (codedString platform value.charset value.strEncodeString)⟩
  | sender => (h.addressMap .sender).toList.map (senderField platform)
  | addresses field => ((h.addressMap field).getD []).map fun address =>
      ⟨field.code, .encoded (addressString platform address)⟩

end Slot

/-! ## What the setters see to -/

/-- The values that can be sent: octets with their high bit, texts that end where they end. -/
structure Sendable (h : MmsHeader) : Prop where
  octets : ∀ code value, h.octetValueMap code = some value → 0x80 ≤ value
  messageType : ∀ value, h.octetValueMap MMS_MESSAGE_TYPE = some value → value ≤ 151
  texts : ∀ code value, h.textValueMap code = some value → IsTextValue value
  textClass : h.textValueMap MMS_MESSAGE_CLASS = none
  strings : ∀ code value, h.encodeStringsMap code = some value →
    IsTextValue value.strEncodeString ∧ value.charset ≠ 0 ∧ value.charset < 2 ^ 32
  addresses : ∀ field addrs, h.addressMap field = some addrs →
    addrs ≠ [] ∧ ∀ address ∈ addrs, address.charset < 2 ^ 32 ∧
      (address.addressString = [] ∧ field = .sender ∨ IsTextValue address.addressString)

/-- The version is one of the four that have a number. -/
def KnownVersion (h : MmsHeader) : Prop :=
  ∃ value, h.longValueMap MMS_MMS_VERSION = some value ∧ 0x10 ≤ toUInt64 value ∧
    toUInt64 value ≤ 0x13

/-! ## The octets of the fields -/

theorem longIntegerWire_eq (value : Nat) :
    longIntegerWire value = (IntegerValue.long (longOctets value)).wire := rfl

theorem longOctets_valid (value : Nat) :
    (IntegerValue.long (longOctets value)).Valid ∧ (longOctets value).length ≤ 8 := by
  unfold longOctets
  split
  · exact ⟨⟨by decide, by decide⟩, by decide⟩
  · rename_i hzero
    have hle := longIntegerOctets_length_le value
    exact ⟨⟨longIntegerOctets_ne_nil hzero, Nat.le_trans hle (by decide)⟩, hle⟩

theorem octetsFrom_longOctets {value : Nat} (h : value < 2 ^ 64) :
    octetsFrom 0 (longOctets value) = value := by
  unfold longOctets
  split
  · rename_i hzero
    rw [hzero]
    rfl
  · exact octetsFrom_longIntegerOctets h

theorem toUInt64_lt (value : Int64) : toUInt64 value < 2 ^ 64 := value.toUInt64.toNat_lt

theorem toInt64_toUInt64 (value : Int64) : toInt64 (toUInt64 value) = value := by
  rw [toInt64, toUInt64, UInt64.ofNat_toNat]
  exact Int64.toInt64_toUInt64 value

theorem setAddressString_charset (address : MmsAddress) :
    (setAddressString address).charset ≠ 0 := by
  rw [setAddressString, setEncodeString]
  dsimp only
  split
  · decide
  · assumption

/-- Only the charset and the text are written. -/
theorem encodeStringWire_of_text (platform : Platform) {value : MmsEncodeString}
    (hcharset : value.charset ≠ 0) (hne : value.strEncodeString ≠ []) :
    encodeStringWire platform value =
      (codedString platform value.charset value.strEncodeString).wire := by
  rw [← encodeStringWire_eq_wire platform hcharset hne, setEncodeString, if_neg hcharset]
  rfl

theorem addressString_wire (platform : Platform) {address : MmsAddress}
    (hne : address.addressString ≠ []) :
    encodeStringWire platform (setAddressString address) =
      (addressString platform address).wire :=
  encodeStringWire_of_text platform (setAddressString_charset address) hne

theorem senderAddressWire_eq (platform : Platform) (addrs : List MmsAddress) :
    senderAddressWire platform addrs = (BlockValue.sender (senderAddress platform addrs)).wire := by
  cases addrs with
  | nil => rfl
  | cons address rest =>
      rw [senderAddressWire, senderAddress]
      split
      · rfl
      · rename_i hne
        rw [addressString_wire platform hne]
        rfl

theorem senderWire_eq (platform : Platform) (addrs : List MmsAddress) :
    senderWire platform addrs = (senderField platform addrs).wire := by
  rw [senderWire, senderAddressWire_eq]
  simp [senderField, HeaderField.wire, FieldValue.wire, lengthWire]

theorem expiryWire_eq (value : Int64) : MmsHeader.expiryWire value = (expiryField value).wire := by
  rw [MmsHeader.expiryWire, longIntegerWire_eq]
  simp [expiryField, HeaderField.wire, FieldValue.wire, lengthWire, BlockValue.wire]

theorem shortIntegerWire_eq (value : UInt8) :
    shortIntegerWire value = (IntegerValue.short (value &&& 0x7f)).wire := by
  rw [shortIntegerWire, IntegerValue.wire, (short_bits value).2.1]

/-! ## The fields are valid -/

/-- A field in front of the content type that the decoder takes to its end. -/
structure IsTaken (f : HeaderField) : Prop where
  valid : f.Valid
  read : f.value.IsRead
  noContentType : memberFuncMap f.code ≠ some .decodeMmsContentType

theorem IsTaken.of_handler {f : HeaderField} {handler : FieldHandler} (hcode : 0x80 ≤ f.code)
    (hhandler : memberFuncMap f.code = some handler) (hfits : f.value.Fits f.code (some handler))
    (hread : f.value.IsRead) (hne : handler ≠ .decodeMmsContentType) : IsTaken f := by
  refine ⟨⟨hcode, ?_⟩, hread, ?_⟩
  · rw [hhandler]
    exact hfits
  · rw [hhandler]
    intro hsame
    exact hne (Option.some.inj hsame)

theorem codedString_isRead (platform : Platform) (charset : Nat) (text : Octets) :
    (codedString platform charset text).IsRead :=
  ⟨(charsetValue_valid charset).2, rfl⟩

theorem valueLengthWire_append_nil {w : Octets} (h : w.length < 2 ^ 32) :
    IsValueLength (w ++ []).length (valueLengthWire w.length) := by
  rw [List.append_nil]
  exact valueLengthWire_isValueLength h

theorem expiryField_isTaken (value : Int64) : IsTaken (expiryField value) := by
  have hvalid := longOctets_valid (toUInt64 value)
  have hlt : (BlockValue.date 129 (longOctets (toUInt64 value))).wire.length < 2 ^ 32 := by
    have hle := hvalid.2
    simp only [BlockValue.wire, IntegerValue.wire, List.length_cons]
    omega
  apply @IsTaken.of_handler _ .decodeFieldDate
  · exact show (0x80 : UInt8) ≤ MMS_EXPIRY by decide
  · exact show memberFuncMap MMS_EXPIRY = some .decodeFieldDate by decide
  · have hdate : (BlockValue.date 129 (longOctets (toUInt64 value))).Valid := ⟨.inr rfl, hvalid.1⟩
    exact .block hdate (valueLengthWire_append_nil hlt)
  · exact ⟨hvalid.2, rfl⟩
  · intro hsame
    cases hsame

theorem insertAddress_valid :
    (BlockValue.sender none).Valid ∧ (BlockValue.sender none).IsRead := by
  constructor
  · rintro s ⟨⟩
  · rintro s ⟨⟩

section Sender

variable {h : MmsHeader} {addrs : List MmsAddress}

theorem senderAddress_valid (platform : Platform) (hs : Sendable h)
    (haddrs : h.addressMap .sender = some addrs)
    (hlt : (senderField platform addrs).wire.length < 2 ^ 31) :
    (BlockValue.sender (senderAddress platform addrs)).Valid ∧
      (BlockValue.sender (senderAddress platform addrs)).IsRead := by
  rcases addrs with _ | ⟨address, rest⟩
  · exact insertAddress_valid
  · rcases (hs.addresses .sender _ haddrs).2 address List.mem_cons_self with
      ⟨-, ⟨hempty, -⟩ | htext⟩
    · have hnone : senderAddress platform (address :: rest) = none := if_pos hempty
      rw [hnone]
      exact insertAddress_valid
    · have hsome : senderAddress platform (address :: rest) =
          some (addressString platform address) := if_neg htext.ne_nil
      have hshort : (addressString platform address).wire.length < 2 ^ 31 := by
        simp only [senderField, hsome, HeaderField.wire, FieldValue.wire, BlockValue.wire,
          List.length_cons, List.length_append] at hlt
        omega
      rw [hsome]
      constructor
      · rintro s ⟨⟩
        exact codedString_valid platform _ htext hshort
      · rintro s ⟨⟩
        exact codedString_isRead platform _ _

theorem senderField_isTaken (platform : Platform) (hs : Sendable h)
    (haddrs : h.addressMap .sender = some addrs)
    (hlt : (senderField platform addrs).wire.length < 2 ^ 31) :
    IsTaken (senderField platform addrs) := by
  rcases senderAddress_valid platform hs haddrs hlt with ⟨hvalid, hread⟩
  have hshort : (BlockValue.sender (senderAddress platform addrs)).wire.length < 2 ^ 32 := by
    simp only [senderField, HeaderField.wire, FieldValue.wire, List.length_cons,
      List.length_append] at hlt
    omega
  apply @IsTaken.of_handler _ .decodeFromValue
  · exact show (0x80 : UInt8) ≤ MMS_FROM by decide
  · exact show memberFuncMap MMS_FROM = some .decodeFromValue by decide
  · exact .block hvalid (valueLengthWire_append_nil hshort)
  · exact ⟨hread, rfl⟩
  · intro hsame
    cases hsame

end Sender

theorem AddressField.handler {field : AddressField} (h : field ≠ .sender) :
    memberFuncMap field.code = some (.decodeFieldAddressModelValue field) := by
  cases field with
  | bcc => rfl
  | cc => rfl
  | sender => exact absurd rfl h
  | recipient => rfl

theorem AddressField.le_code (field : AddressField) : 0x80 ≤ field.code := by
  cases field <;> decide

/-- Every field of a place is taken. -/
theorem Slot.fields_isTaken (platform : Platform) {h : MmsHeader} (hs : Sendable h) {slot : Slot}
    (hknown : slot.Known) {f : HeaderField} (hf : f ∈ slot.fields platform h)
    (hlt : f.wire.length < 2 ^ 31) : IsTaken f := by
  cases slot with
  | octet code =>
      rcases List.mem_map.1 hf with ⟨value, hvalue, rfl⟩
      have hsome := Option.mem_toList.1 hvalue
      rcases hknown with ⟨hcode, hhandler | rfl⟩
      · exact IsTaken.of_handler hcode hhandler (.octet (hs.octets code value hsome)) trivial
          (by decide)
      · have hhandler : memberFuncMap MMS_MESSAGE_TYPE = some .decodeMmsMsgType := by decide
        have hvalue : 0x80 ≤ value ∧ value ≤ 151 :=
          ⟨hs.octets _ value hsome, hs.messageType value hsome⟩
        exact IsTaken.of_handler hcode hhandler (.msgType hvalue) trivial (by decide)
  | long code =>
      rcases List.mem_map.1 hf with ⟨value, -, rfl⟩
      have hvalid := longOctets_valid (toUInt64 value)
      exact IsTaken.of_handler hknown.1 hknown.2 (.long hvalid.1) hvalid.2 (by decide)
  | version =>
      rcases List.mem_map.1 hf with ⟨value, -, rfl⟩
      have hcode : (0x80 : UInt8) ≤ MMS_MMS_VERSION := by decide
      have hhandler : memberFuncMap MMS_MMS_VERSION = some .decodeFieldIntegerValue := by decide
      exact IsTaken.of_handler hcode hhandler (.integer (short_bits _).1) trivial (by decide)
  | expiry =>
      rcases List.mem_map.1 hf with ⟨value, -, rfl⟩
      exact expiryField_isTaken value
  | text code =>
      rcases List.mem_map.1 hf with ⟨value, hvalue, rfl⟩
      have htext := hs.texts code value (Option.mem_toList.1 hvalue)
      exact IsTaken.of_handler hknown.1 hknown.2 (.text (textString_valid platform htext)) trivial
        (by decide)
  | encoded code =>
      rcases List.mem_map.1 hf with ⟨value, hvalue, rfl⟩
      have hsome := (Option.filter_eq_some_iff.1 (Option.mem_toList.1 hvalue)).1
      have hshort : (codedString platform value.charset value.strEncodeString).wire.length <
          2 ^ 31 := by
        simp only [HeaderField.wire, FieldValue.wire, List.length_cons] at hlt
        omega
      exact IsTaken.of_handler hknown.1 hknown.2
        (.encoded (codedString_valid platform _ (hs.strings code value hsome).1 hshort))
        (codedString_isRead platform value.charset value.strEncodeString) (by decide)
  | sender =>
      rcases List.mem_map.1 hf with ⟨addrs, haddrs, rfl⟩
      exact senderField_isTaken platform hs (Option.mem_toList.1 haddrs) hlt
  | addresses field =>
      rcases List.mem_map.1 hf with ⟨address, hmem, rfl⟩
      cases haddrs : h.addressMap field with
      | none =>
          rw [haddrs] at hmem
          cases hmem
      | some addrs =>
          rw [haddrs] at hmem
          have haddress := ((hs.addresses field addrs haddrs).2 address hmem).2
          have htext := haddress.resolve_left fun hempty => hknown hempty.2
          have hshort : (addressString platform address).wire.length < 2 ^ 31 := by
            simp only [HeaderField.wire, FieldValue.wire, List.length_cons] at hlt
            omega
          exact IsTaken.of_handler field.le_code (AddressField.handler hknown)
            (.address (codedString_valid platform _ htext hshort))
            (codedString_isRead platform _ address.addressString) (by intro hsame; cases hsame)

end TelephonySms.Mms
