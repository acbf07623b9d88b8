import Mathlib.Data.List.TakeWhile
import TelephonySms.Mms.ContentTypeReading
import TelephonySms.Mms.Header

/-! # Header fields on the wire

The fields of a message as their definitions allow them, with what each leaves in the
header, and which of them the decoder takes exactly.
-/

namespace TelephonySms.Mms

open OctetReader Reader MmsFieldCode

/-! ## Integers that are too long -/

theorem decodeLongInteger_fails {octets : Octets} (h : (IntegerValue.long octets).Valid)
    (hlong : ¬ octets.length ≤ 8) (rest : Octets) :
    FailsBefore decodeLongInteger [UInt8.ofNat octets.length] rest := by
  have hle : octets.length ≤ 30 := h.2
  have hnat : (UInt8.ofNat octets.length).toNat = octets.length := by
    rw [UInt8.toNat_ofNat']
    omega
  have hmore : ¬ UInt8.ofNat octets.length ≤ 8 := by
    rw [UInt8.le_iff_toNat_le, hnat]
    exact hlong
  exact FailsBefore.bind (v := []) (getOneByte_reads _ _)
    (FailsBefore.bind_left _ (FailsBefore.guard hmore _))

theorem decodeInteger_fails {octets : Octets} (h : (IntegerValue.long octets).Valid)
    (hlong : ¬ octets.length ≤ 8) (rest : Octets) :
    FailsBefore decodeInteger [UInt8.ofNat octets.length] rest := by
  have hle : octets.length ≤ 30 := h.2
  have hlow : ¬ UInt8.ofNat octets.length > 0x7f := by
    rw [gt_iff_lt, UInt8.lt_iff_toNat_lt, UInt8.toNat_ofNat', Nat.mod_eq_of_lt (by omega)]
    have hmax : (0x7f : UInt8).toNat = 127 := rfl
    omega
  refine FailsBefore.bind (u := []) (decodeIsShortInt_reads _ _) ?_
  rw [if_neg (by simpa using hlow)]
  exact decodeLongInteger_fails h hlong rest

/-- An integer that is too long stops the reader at its length, and all behind it. -/
theorem decodeInteger_bind_short {α : Type} {v : IntegerValue} (h : v.Valid) (hlong : ¬ v.IsShort)
    (f : Nat → Reader α) (more rest : Octets) :
    FallsShort (decodeInteger >>= f) rest (v.wire ++ more) := by
  cases v with
  | short value => exact absurd trivial hlong
  | long octets =>
      have hne : octets ++ more ≠ [] := by simp [h.1]
      exact FallsShort.fails (u := [UInt8.ofNat octets.length])
        ((decodeInteger_fails h hlong _).bind_left f) hne

theorem decodeLongInteger_bind_short {α : Type} {octets : Octets}
    (h : (IntegerValue.long octets).Valid) (hlong : ¬ octets.length ≤ 8) (f : Nat → Reader α)
    (more rest : Octets) :
    FallsShort (decodeLongInteger >>= f) rest ((IntegerValue.long octets).wire ++ more) := by
  have hne : octets ++ more ≠ [] := by simp [h.1]
  exact FallsShort.fails (u := [UInt8.ofNat octets.length])
    ((decodeLongInteger_fails h hlong _).bind_left f) hne

/-! ## Strings -/

/-- `Encoded-string-value = Text-string | Value-length Char-set Text-string` -/
inductive EncodedString where
  | plain (text : TextString)
  | inCharset (length : Octets) (charset : IntegerValue) (text : TextString) (trailing : Octets)
  deriving DecidableEq, Repr

namespace EncodedString

def wire : EncodedString → Octets
  | plain text => text.wire
  | inCharset length charset text trailing => length ++ (charset.wire ++ (text.wire ++ trailing))

def Valid : EncodedString → Prop
  | plain text => text.Valid ∧ (text.wire = [0] ∨ 0x20 ≤ text.first)
  | inCharset length charset text trailing =>
      charset.Valid ∧ text.Valid ∧
        IsValueLength (charset.wire ++ (text.wire ++ trailing)).length length

/-- The charset is short, and the value length ends with the text. -/
def IsRead : EncodedString → Prop
  | plain _ => True
  | inCharset _ charset _ trailing => charset.IsShort ∧ trailing = []

def value : EncodedString → MmsEncodeString
  | plain text => ⟨0, text.count, text.text⟩
  | inCharset _ charset text _ => ⟨u32 charset.value, text.count, text.text⟩

end EncodedString

theorem IntegerValue.wire_ne_nil (v : IntegerValue) : v.wire ≠ [] := by
  cases v <;> simp [IntegerValue.wire]

/-- A value length that counts something does not start with the octet 0. -/
theorem IsValueLength.first {n : Nat} {w : Octets} (h : IsValueLength n w) (hn : 0 < n) :
    ∃ b u, w = b :: u ∧ b ≠ 0 ∧ (b ≤ 30 ∨ b = 0x1f) := by
  cases h with
  | short hle =>
      have hnat : (UInt8.ofNat n).toNat = n := by
        rw [UInt8.toNat_ofNat']
        omega
      refine ⟨UInt8.ofNat n, [], rfl, ?_, Or.inl ?_⟩
      · intro hzero
        rw [hzero] at hnat
        exact absurd hnat (Nat.ne_of_lt hn)
      · rw [UInt8.le_iff_toNat_le, hnat]
        exact hle
  | @long u h => exact ⟨0x1f, u, rfl, by decide, Or.inr rfl⟩

theorem EncodedString.length_first {length : Octets} {charset : IntegerValue} {text : TextString}
    {trailing : Octets} (h : (inCharset length charset text trailing).Valid) :
    ∃ b u, length = b :: u ∧ b ≠ 0 ∧ (b ≤ 30 ∨ b = 0x1f) := by
  have hpos := List.length_pos_iff.mpr charset.wire_ne_nil
  exact h.2.2.first (by simp only [List.length_append]; omega)

theorem decodeEncodeString_reads {s : EncodedString} (h : s.Valid) (hread : s.IsRead) :
    Reads decodeEncodeString s.wire s.value := by
  intro rest
  cases s with
  | plain text =>
      obtain ⟨hvalid, hfirst⟩ := h
      have hcons : text.wire ++ rest = text.first :: (text.wire.tail ++ rest) := by
        rw [text.wire_eq_cons]
        rfl
      refine ReadsBefore.bind_nil (a := text.first) ?_ ?_
      · change ReadsBefore _ _ (text.wire ++ rest) _
        rw [hcons]
        exact peekOneByte_reads _ _
      by_cases hzero : text.first = 0
      · have hempty : text.wire = [0] := by
          rcases hfirst with hempty | hlow
          · exact hempty
          · rw [hzero] at hlow
            exact absurd hlow (by decide)
        have hvalue : (EncodedString.plain text).value = {} := by
          obtain ⟨quoted, str⟩ := text
          cases quoted with
          | true => simp [TextString.wire] at hempty
          | false =>
              obtain rfl : str = [] := by simpa [TextString.wire] using hempty
              rfl
        rw [if_pos hzero, hvalue, EncodedString.wire, hempty]
        exact ReadsBefore.bind_last (increasePointer_reads [0] rest).attempt (ReadsBefore.pure _ _)
      · have hlow : 0x20 ≤ text.first := by
          rcases hfirst with hempty | hlow
          · exact absurd (by rw [TextString.first, hempty]; rfl) hzero
          · exact hlow
        have hlength : ¬ (text.first ≤ 30 ∨ text.first = 0x1f) := by
          rintro (hle | heq)
          · exact absurd (UInt8.le_trans hlow hle) (by decide)
          · rw [heq] at hlow
            exact absurd hlow (by decide)
        rw [if_neg hzero, if_neg hlength]
        exact ReadsBefore.bind_last (text.decodeText_reads hvalid rest) (ReadsBefore.pure _ _)
  | inCharset length charset text trailing =>
      obtain ⟨b, u, hb, hzero, hlow⟩ := EncodedString.length_first h
      obtain ⟨hcharset, htext, hlength⟩ := h
      obtain ⟨hshort, rfl⟩ := hread
      refine ReadsBefore.bind_nil (a := b) ?_ ?_
      · rw [EncodedString.wire, hb]
        exact peekOneByte_reads _ _
      rw [if_neg hzero, if_pos hlow]
      refine ReadsBefore.bind (decodeValueLength_reads hlength _) ?_
      refine ReadsBefore.bind (decodeInteger_reads hcharset hshort _) ?_
      rw [List.append_nil]
      exact ReadsBefore.bind_last (text.decodeText_reads htext rest) (ReadsBefore.pure _ _)

/-- A charset of more than eight octets is refused, and what stands behind the text is left. -/
theorem decodeEncodeString_short {s : EncodedString} (h : s.Valid) (hread : ¬ s.IsRead)
    (rest : Octets) : FallsShort decodeEncodeString rest s.wire := by
  cases s with
  | plain text => exact absurd trivial hread
  | inCharset length charset text trailing =>
      obtain ⟨b, u, hb, hzero, hlow⟩ := EncodedString.length_first h
      obtain ⟨hcharset, htext, hlength⟩ := h
      refine FallsShort.bind_nil (a := b) ?_ ?_
      · rw [EncodedString.wire, hb]
        exact peekOneByte_reads _ _
      rw [if_neg hzero, if_pos hlow]
      refine FallsShort.bind (decodeValueLength_reads hlength _) ?_
      by_cases hshort : charset.IsShort
      · have htrailing : trailing ≠ [] := fun hnil => hread ⟨hshort, hnil⟩
        refine FallsShort.bind (decodeInteger_reads hcharset hshort _) ?_
        exact FallsShort.reads (ReadsBefore.bind_last (text.decodeText_reads htext _)
          (ReadsBefore.pure (⟨u32 charset.value, text.count, text.text⟩ : MmsEncodeString) _)) htrailing
      · exact decodeInteger_bind_short hcharset hshort _ _ rest

/-! ## Fields -/

/-- What a value length counts in a field. -/
inductive BlockValue where
  | sender (address : Option EncodedString)
  | date (token : UInt8) (octets : Octets)
  | sentDate (count : IntegerValue) (octets : Octets)
  | mBox (token : UInt8) (size : IntegerValue)
  | mmFlag (token : UInt8) (text : EncodedString)
  deriving DecidableEq, Repr

namespace BlockValue

def handler : BlockValue → FieldHandler
  | sender _ => .decodeFromValue
  | date _ _ => .decodeFieldDate
  | sentDate _ _ => .decodeFieldPreviouslySentDate
  | mBox _ _ => .decodeFieldMBox
  | mmFlag _ _ => .decodeFieldMMFlag

def wire : BlockValue → Octets
  | sender none => [129]
  | sender (some address) => 128 :: address.wire
  | date token octets => token :: (IntegerValue.long octets).wire
  | sentDate count octets => count.wire ++ (IntegerValue.long octets).wire
  | mBox token size => token :: size.wire
  | mmFlag token text => token :: text.wire

def Valid : BlockValue → Prop
  | sender address => ∀ s ∈ address, s.Valid
  | date token octets => (token = 128 ∨ token = 129) ∧ (IntegerValue.long octets).Valid
  | sentDate count octets => count.Valid ∧ (IntegerValue.long octets).Valid
  | mBox token size => (token = 128 ∨ token = 129) ∧ size.Valid
  | mmFlag token text => 128 ≤ token ∧ text.Valid

def IsRead : BlockValue → Prop
  | sender address => ∀ s ∈ address, s.IsRead
  | date _ octets => octets.length ≤ 8
  | sentDate count octets => count.IsShort ∧ octets.length ≤ 8
  | mBox _ size => size.IsShort
  | mmFlag _ text => text.IsRead

/-- The address of the sender, or the text for the one to insert. -/
def senderOf (platform : Platform) : Option EncodedString → MmsAddress
  | some address => { addressString := (address.value.getEncodeString platform).2 }
  | none => { addressString := ascii "Insert-address-token" }

def timeOf (platform : Platform) (token : UInt8) (octets : Octets) : Nat :=
  if token = 0x81 then u64 (octetsFrom 0 octets + platform.systemClock) else octetsFrom 0 octets

/-- What the value of a block leaves in the header. -/
def store (platform : Platform) (code : UInt8) (header : MmsHeader) : BlockValue → MmsHeader
  | sender address => header.emplaceAddress .sender [senderOf platform address]
  | date token octets => header.putLong code (toInt64 (timeOf platform token octets))
  | sentDate _ octets => header.putLong code (toInt64 (octetsFrom 0 octets))
  | _ => header

end BlockValue

inductive FieldValue where
  | octet (value : UInt8)
  | tokenText (name : Octets)
  | integer (value : IntegerValue)
  | text (value : TextString)
  | encoded (value : EncodedString)
  | block (length : Octets) (value : BlockValue) (trailing : Octets)
  | contentType (value : ContentTypeValue)
  | unknown (octets : Octets)
  deriving DecidableEq, Repr

namespace FieldValue

def wire : FieldValue → Octets
  | octet value => [value]
  | tokenText name => name ++ [0]
  | integer value => value.wire
  | text value => value.wire
  | encoded value => value.wire
  | block length value trailing => length ++ (value.wire ++ trailing)
  | contentType value => value.wire
  | unknown octets => octets

/-- A short integer, a text, or octets behind their number. -/
inductive IsUnknownValue : Octets → Prop
  | short {value : UInt8} (h : 0x80 ≤ value) : IsUnknownValue [value]
  | text {t : TextString} (h : t.Valid) : IsUnknownValue t.wire
  | block {length w : Octets} (h : IsValueLength w.length length) : IsUnknownValue (length ++ w)

/-- The values that a field with the handler may have. -/
inductive Fits (code : UInt8) : Option FieldHandler → FieldValue → Prop
  | octet {value : UInt8} (h : 0x80 ≤ value) :
      Fits code (some .decodeFieldOctetValue) (octet value)
  | tokenText {name : Octets} (hcode : code = MMS_MESSAGE_CLASS) (hne : name ≠ [])
      (h : name.all charIsToken = true) : Fits code (some .decodeFieldOctetValue) (tokenText name)
  | msgType {value : UInt8} (h : 128 ≤ value ∧ value ≤ 151) :
      Fits code (some .decodeMmsMsgType) (octet value)
  | long {octets : Octets} (h : (IntegerValue.long octets).Valid) :
      Fits code (some .decodeFieldLongValue) (integer (.long octets))
  | integer {value : IntegerValue} (h : value.Valid) :
      Fits code (some .decodeFieldIntegerValue) (integer value)
  | text {value : TextString} (h : value.Valid) :
      Fits code (some .decodeFieldTextStringValue) (text value)
  | encoded {value : EncodedString} (h : value.Valid) :
      Fits code (some .decodeFieldEncodedStringValue) (encoded value)
  | address {field : AddressField} {value : EncodedString} (h : value.Valid) :
      Fits code (some (.decodeFieldAddressModelValue field)) (encoded value)
  | block {length trailing : Octets} {value : BlockValue} (h : value.Valid)
      (hlength : IsValueLength (value.wire ++ trailing).length length) :
      Fits code (some value.handler) (block length value trailing)
  | contentType {value : ContentTypeValue} (h : value.Valid) :
      Fits code (some .decodeMmsContentType) (contentType value)
  | unknown {octets : Octets} (h : IsUnknownValue octets) : Fits code none (unknown octets)

/-- The values that the decoder takes to their end. -/
def IsRead : FieldValue → Prop
  | octet _ => True
  | tokenText _ => False
  | integer value => value.IsShort
  | text _ => True
  | encoded value => value.IsRead
  | block _ value trailing => value.IsRead ∧ trailing = []
  | contentType value => value.IsRead
  | unknown octets => ∀ b ∈ octets, b < 0x80

end FieldValue

/-- A field and its value. -/
structure HeaderField where
  code : UInt8
  value : FieldValue
  deriving DecidableEq, Repr

namespace HeaderField

def wire (f : HeaderField) : Octets := f.code :: f.value.wire

/-- A code has its high bit set. -/
structure Valid (f : HeaderField) : Prop where
  code : 0x80 ≤ f.code
  value : f.value.Fits f.code (memberFuncMap f.code)

/-- What the field leaves in the header. -/
def store (platform : Platform) (h : MmsHeader) (f : HeaderField) : MmsHeader :=
  match f.value with
  | .octet value => h.putOctet f.code value
  | .integer value => h.putLong f.code (toInt64 value.value)
  | .text value => h.putText f.code value.text
  | .encoded value =>
      match memberFuncMap f.code with
      | some (.decodeFieldAddressModelValue field) =>
          h.pushAddress field { addressString := (value.value.getEncodeString platform).2 }
      | _ => h.putEncodeString f.code value.value
  | .block _ value _ => value.store platform f.code h
  | .contentType value => { h with mmsContentType := value.apply h.mmsContentType }
  | _ => h

end HeaderField

/-! ## Fields that are read -/

theorem findHeaderFieldName_of_handler (code : UInt8) {handler : FieldHandler}
    (h : memberFuncMap code = some handler) : findHeaderFieldName code = true := by
  by_contra hname
  have hne {c : UInt8} (hc : findHeaderFieldName c = true) : ¬ code = c :=
    fun heq => hname (heq ▸ hc)
  have hnot {codes : List UInt8} (hcodes : codes.all findHeaderFieldName = true) :
      ¬ code ∈ codes := fun hmem => hname (List.all_eq_true.1 hcodes code hmem)
  rw [memberFuncMap, if_neg (hnot (by decide)), if_neg (hne (by decide)),
    if_neg (hnot (by decide)), if_neg (hne (by decide)), if_neg (hnot (by decide)),
    if_neg (hnot (by decide)), if_neg (hnot (by decide)), if_neg (hnot (by decide)),
    if_neg (hne (by decide)), if_neg (hnot (by decide)), if_neg (hne (by decide)),
    if_neg (hne (by decide)), if_neg (hne (by decide)), if_neg (hne (by decide)),
    if_neg (hnot (by decide))] at h
  cases h

theorem or_0x80_of_le {code : UInt8} (h : 0x80 ≤ code) : code ||| 0x80 = code := by
  obtain ⟨f⟩ := code
  revert f
  decide

section Handlers

variable {platform : Platform} {code : UInt8} {header : MmsHeader}

/-- The handler of a block does not look at what follows its value. -/
theorem block_reads (platform : Platform) (header : MmsHeader) {value : BlockValue}
    {length trailing : Octets} (h : value.Valid)
    (hlength : IsValueLength (value.wire ++ trailing).length length) (hread : value.IsRead)
    (hname : findHeaderFieldName code = true) :
    Reads (header.handle platform code value.handler) (length ++ value.wire)
      (value.store platform code header) := by
  intro rest
  have hguard := fun w => ReadsBefore.guard (p := findHeaderFieldName code = true) hname w
  have hcount := fun w => decodeValueLength_reads hlength w
  cases value with
  | sender address =>
      refine ReadsBefore.bind_nil (hguard _) (ReadsBefore.bind (hcount _) ?_)
      cases address with
      | none => exact ReadsBefore.bind_last (getOneByte_reads 129 rest) (ReadsBefore.pure _ _)
      | some s =>
          have hstring := decodeEncodeString_reads (h s rfl) (hread s rfl) rest
          refine ReadsBefore.bind (u := [128]) (getOneByte_reads 128 _) ?_
          exact ReadsBefore.bind_last hstring.attempt (ReadsBefore.pure _ _)
  | date token octets =>
      have htime := decodeLongInteger_reads (show octets.length ≤ 8 from hread) rest
      refine ReadsBefore.bind_nil (hguard _) (ReadsBefore.bind (hcount _) ?_)
      refine ReadsBefore.bind (u := [token]) (getOneByte_reads token _) ?_
      exact ReadsBefore.bind_last htime (ReadsBefore.pure _ _)
  | sentDate count octets =>
      obtain ⟨hshort, hle⟩ := hread
      refine ReadsBefore.bind_nil (hguard _) (ReadsBefore.bind (hcount _) ?_)
      refine ReadsBefore.bind (decodeInteger_reads h.1 hshort _) ?_
      exact ReadsBefore.bind_last (decodeLongInteger_reads hle rest) (ReadsBefore.pure _ _)
  | mBox token size =>
      refine ReadsBefore.bind_nil (hguard _) (ReadsBefore.bind (hcount _) ?_)
      refine ReadsBefore.bind (u := [token]) (getOneByte_reads token _) ?_
      exact ReadsBefore.bind_last (decodeInteger_reads h.2 hread rest) (ReadsBefore.pure _ _)
  | mmFlag token text =>
      refine ReadsBefore.bind_nil (hguard _) (ReadsBefore.bind (hcount _) ?_)
      refine ReadsBefore.bind (u := [token]) (getOneByte_reads token _) ?_
      exact ReadsBefore.bind_last (decodeEncodeString_reads h.2 hread rest) (ReadsBefore.pure _ _)

/-- A value that is not taken to its end stops the handler. -/
theorem block_short {value : BlockValue} {length trailing : Octets} (h : value.Valid)
    (hlength : IsValueLength (value.wire ++ trailing).length length) (hread : ¬ value.IsRead)
    (hname : findHeaderFieldName code = true) (rest : Octets) :
    FallsShort (header.handle platform code value.handler) rest
      (length ++ (value.wire ++ trailing)) := by
  have hguard := fun w => ReadsBefore.guard (p := findHeaderFieldName code = true) hname w
  have hcount := fun w => decodeValueLength_reads hlength w
  cases value with
  | sender address =>
      cases address with
      | none => exact absurd (by simp [BlockValue.IsRead]) hread
      | some s =>
          have hs : ¬ s.IsRead := fun hs => hread (by simpa [BlockValue.IsRead] using hs)
          refine FallsShort.bind_nil (hguard _) (FallsShort.bind (hcount _) ?_)
          refine FallsShort.bind (u := [128]) (getOneByte_reads 128 _) ?_
          have hshort := (decodeEncodeString_short (h s rfl) hs (trailing ++ rest)).extend
          exact hshort.attempt.bind_left fun r rest => ReadsBefore.pure _ rest
  | date token octets =>
      refine FallsShort.bind_nil (hguard _) (FallsShort.bind (hcount _) ?_)
      refine FallsShort.bind (u := [token]) (getOneByte_reads token _) ?_
      exact decodeLongInteger_bind_short h.2 hread _ _ rest
  | sentDate count octets =>
      refine FallsShort.bind_nil (hguard _) (FallsShort.bind (hcount _) ?_)
      change FallsShort _ rest ((count.wire ++ _) ++ trailing)
      rw [List.append_assoc]
      by_cases hshort : count.IsShort
      · refine FallsShort.bind (decodeInteger_reads h.1 hshort _) ?_
        exact decodeLongInteger_bind_short h.2 (fun hle => hread ⟨hshort, hle⟩) _ _ rest
      · exact decodeInteger_bind_short h.1 hshort _ _ rest
  | mBox token size =>
      refine FallsShort.bind_nil (hguard _) (FallsShort.bind (hcount _) ?_)
      refine FallsShort.bind (u := [token]) (getOneByte_reads token _) ?_
      exact decodeInteger_bind_short h.2 hread _ _ rest
  | mmFlag token text =>
      refine FallsShort.bind_nil (hguard _) (FallsShort.bind (hcount _) ?_)
      refine FallsShort.bind (u := [token]) (getOneByte_reads token _) ?_
      have hshort := (decodeEncodeString_short h.2 hread (trailing ++ rest)).extend
      exact hshort.bind_left fun _ rest => ReadsBefore.pure _ rest

/-- A handler takes a value that is read. -/
theorem handle_reads {value : FieldValue} {handler : FieldHandler}
    (h : value.Fits code (some handler)) (hread : value.IsRead)
    (hname : findHeaderFieldName code = true) (hhandler : memberFuncMap code = some handler) :
    Reads (header.handle platform code handler) value.wire
      (HeaderField.store platform header ⟨code, value⟩) := by
  intro rest
  have hguard := fun w => ReadsBefore.guard (p := findHeaderFieldName code = true) hname w
  cases h with
  | octet h =>
      refine ReadsBefore.bind_nil (hguard _) ?_
      exact ReadsBefore.bind_last (getOneByte_reads _ rest) (ReadsBefore.pure _ _)
  | tokenText => exact absurd hread id
  | msgType h =>
      refine ReadsBefore.bind_nil (hguard _) ?_
      refine ReadsBefore.bind_last (getOneByte_reads _ rest) ?_
      exact ReadsBefore.bind_nil (ReadsBefore.guard h _) (ReadsBefore.pure _ _)
  | long h =>
      refine ReadsBefore.bind_nil (hguard _) ?_
      exact ReadsBefore.bind_last (decodeLongInteger_reads hread rest) (ReadsBefore.pure _ _)
  | integer h =>
      refine ReadsBefore.bind_nil (hguard _) ?_
      exact ReadsBefore.bind_last (decodeInteger_reads h hread rest) (ReadsBefore.pure _ _)
  | text h =>
      refine ReadsBefore.bind_nil (hguard _) ?_
      exact ReadsBefore.bind_last (TextString.decodeText_reads h rest) (ReadsBefore.pure _ _)
  | encoded h =>
      refine ReadsBefore.bind_nil (hguard _) ?_
      rw [HeaderField.store]
      simp only [hhandler]
      exact ReadsBefore.bind_last (decodeEncodeString_reads h hread rest) (ReadsBefore.pure _ _)
  | address h =>
      refine ReadsBefore.bind_nil (hguard _) ?_
      rw [HeaderField.store]
      simp only [hhandler]
      exact ReadsBefore.bind_last (decodeEncodeString_reads h hread rest).attempt
        (ReadsBefore.pure _ _)
  | @block length trailing value h hlength =>
      obtain ⟨hvalue, rfl⟩ := hread
      rw [FieldValue.wire, List.append_nil]
      exact block_reads _ _ h hlength hvalue hname rest
  | contentType h =>
      refine ReadsBefore.bind_nil (hguard _) ?_
      exact ReadsBefore.bind_last (decodeMmsContentType_reads _ h hread rest)
        (ReadsBefore.pure _ _)

/-- A handler stops short of the end of any other value, save perhaps a content type. -/
theorem handle_short (platform : Platform) (header : MmsHeader) {value : FieldValue}
    {handler : FieldHandler}
    (h : value.Fits code (some handler)) (hread : ¬ value.IsRead)
    (hcontent : handler ≠ .decodeMmsContentType)
    (hname : findHeaderFieldName code = true) (rest : Octets) :
    FallsShort (header.handle platform code handler) rest value.wire := by
  have hguard := fun w => ReadsBefore.guard (p := findHeaderFieldName code = true) hname w
  cases h with
  | octet h => exact absurd trivial hread
  | @tokenText name hcode hne h =>
      obtain ⟨b, w, rfl⟩ := List.exists_cons_of_ne_nil hne
      refine FallsShort.bind_nil (hguard _) ?_
      exact FallsShort.reads (u := [b]) (ReadsBefore.bind_last (getOneByte_reads b _)
        (ReadsBefore.pure _ _)) (by simp)
  | msgType h => exact absurd trivial hread
  | long h =>
      refine FallsShort.bind_nil (hguard _) ?_
      have hshort := decodeLongInteger_bind_short h hread
        (fun value => pure (header.putLong code (toInt64 value))) [] rest
      rwa [List.append_nil] at hshort
  | @integer value h =>
      refine FallsShort.bind_nil (hguard _) ?_
      have hshort := decodeInteger_bind_short h hread
        (fun value => pure (header.putLong code (toInt64 value))) [] rest
      rwa [List.append_nil] at hshort
  | text h => exact absurd trivial hread
  | encoded h =>
      refine FallsShort.bind_nil (hguard _) ?_
      exact (decodeEncodeString_short h hread rest).bind_left fun _ rest => ReadsBefore.pure _ rest
  | address h =>
      refine FallsShort.bind_nil (hguard _) ?_
      exact (decodeEncodeString_short h hread rest).attempt.bind_left
        fun r rest => ReadsBefore.pure _ rest
  | @block length trailing value h hlength =>
      by_cases hvalue : value.IsRead
      · have htrailing : trailing ≠ [] := fun hnil => hread ⟨hvalue, hnil⟩
        have hreads := block_reads platform header h hlength hvalue hname
          (trailing ++ rest)
        rw [FieldValue.wire, ← List.append_assoc]
        exact FallsShort.reads hreads htrailing
      · exact block_short h hlength hvalue hname rest
  | contentType h => exact absurd rfl hcontent

end Handlers

/-! ## Fields without a handler -/

/-- One round of the loop that skips a value. -/
def skipRound (_ : Unit) : Reader (Unit ⊕ Unit) := do
  let oneByte ← getOneByte
  if oneByte < 0x80 then pure (.inl ()) else pure (.inr ())

theorem skipRound_low {b : UInt8} (hb : b < 0x80) (rest : Octets) :
    ReadsBefore (skipRound ()) [b] rest (.inl ()) := by
  refine ReadsBefore.bind_last (getOneByte_reads b rest) ?_
  rw [if_pos hb]
  exact ReadsBefore.pure _ _

theorem skip_rounds {w : Octets} {b : UInt8} (hw : ∀ c ∈ w, c < 0x80) (hb : 0x80 ≤ b)
    (rest : Octets) : Rounds skipRound rest () () (w ++ [b]) := by
  induction w with
  | nil =>
      refine Rounds.last (ReadsBefore.bind_last (getOneByte_reads b rest) ?_)
      rw [if_neg (UInt8.not_lt.mpr hb)]
      exact ReadsBefore.pure _ _
  | cons c w ih =>
      rw [List.forall_mem_cons] at hw
      exact Rounds.next (u := [c]) (skipRound_low hw.1 _) (by simp) (ih hw.2)

theorem skip_fails {w : Octets} (hw : ∀ c ∈ w, c < 0x80) (fuel : Nat) (hfuel : w.length < fuel) :
    FailsBefore (iterate skipRound fuel ()) w [] := by
  induction w generalizing fuel with
  | nil =>
      obtain ⟨n, rfl⟩ : ∃ n, fuel = n + 1 := ⟨fuel - 1, by omega⟩
      refine FailsBefore.bind_left _ (FailsBefore.bind_left _ ?_)
      intro front trace _
      exact ⟨trace, getOneByte_of_ge (by simp)⟩
  | cons c w ih =>
      rw [List.forall_mem_cons] at hw
      rw [List.length_cons] at hfuel
      obtain ⟨n, rfl⟩ : ∃ n, fuel = n + 1 := ⟨fuel - 1, by omega⟩
      exact FailsBefore.bind (u := [c]) (skipRound_low hw.1 _) (ih hw.2 n (by omega))

/-- The skipping of a value ends before the next octet with its high bit set. -/
theorem decodeMmsMsgUnKnownField_reads {w : Octets} {b : UInt8} (hw : ∀ c ∈ w, c < 0x80)
    (hb : 0x80 ≤ b) (rest : Octets) :
    ReadsBefore MmsHeader.decodeMmsMsgUnKnownField w (b :: rest) () := by
  intro front trace hshort
  have hjoin : front ++ w ++ b :: rest = front ++ (w ++ [b]) ++ rest := by simp
  rw [hjoin] at hshort ⊢
  obtain ⟨trace₁, hskip⟩ := (skip_rounds hw hb rest).loop front trace hshort
  obtain ⟨x, trace₂, hback⟩ := attempt_movesBack (front ++ (w ++ [b]) ++ rest)
    (front.length + w.length) trace₁
  rw [List.length_append, List.length_singleton, ← Nat.add_assoc] at hskip
  refine ⟨trace₂, ?_⟩
  rw [MmsHeader.decodeMmsMsgUnKnownField]
  exact (bind_of_done hskip _).trans (bind_of_done hback _)

/-- At the end of the octets it fails behind the value. -/
theorem decodeMmsMsgUnKnownField_fails {w : Octets} (hw : ∀ c ∈ w, c < 0x80) :
    FailsBefore MmsHeader.decodeMmsMsgUnKnownField w [] := by
  refine FailsBefore.bind_left _ ?_
  intro front trace hshort
  refine skip_fails hw _ ?_ front trace hshort
  rw [List.length_append, List.length_append]
  omega

/-- What follows a field: nothing, or the code of another. -/
def StartsField (rest : Octets) : Prop := ∀ b ∈ rest.head?, 0x80 ≤ b

theorem attemptUnknown_reads {w rest : Octets} (hw : ∀ c ∈ w, c < 0x80) (hrest : StartsField rest) :
    ∃ r, ReadsBefore (attempt MmsHeader.decodeMmsMsgUnKnownField) w rest r := by
  cases rest with
  | nil => exact ⟨none, (decodeMmsMsgUnKnownField_fails hw).attempt⟩
  | cons b rest =>
      exact ⟨some (), (decodeMmsMsgUnKnownField_reads hw (hrest b rfl) rest).attempt⟩

theorem attemptUnknown_short {w : Octets} (hw : ¬ ∀ c ∈ w, c < 0x80) (rest : Octets) :
    FallsShort (attempt MmsHeader.decodeMmsMsgUnKnownField) rest w := by
  have hhigh : w.dropWhile (· < 0x80) ≠ [] := by
    rw [ne_eq, List.dropWhile_eq_nil_iff]
    simpa using hw
  obtain ⟨b, v, hv⟩ := List.exists_cons_of_ne_nil hhigh
  have hb : 0x80 ≤ b := by
    have hhead := List.head_dropWhile_not (· < (0x80 : UInt8)) (l := w) hhigh
    simpa [hv, UInt8.not_lt] using hhead
  have hlow : ∀ c ∈ w.takeWhile (· < 0x80), c < 0x80 := by
    intro c hc
    simpa using List.mem_takeWhile_imp hc
  have hreads := (decodeMmsMsgUnKnownField_reads hlow hb (v ++ rest)).attempt
  rw [← List.takeWhile_append_dropWhile (p := (· < 0x80)) (l := w), hv]
  exact FallsShort.reads hreads (by simp)

/-! ## One field -/

variable {platform : Platform} {header : MmsHeader}

/-- A round of the decoder takes a field that is read, and goes on unless it was the
content type. -/
theorem decodeOneField_reads (platform : Platform) (header : MmsHeader) {f : HeaderField} (h : f.Valid) (hread : f.value.IsRead)
    {rest : Octets} (hrest : StartsField rest ∨ f.code = MMS_CONTENT_TYPE) :
    ReadsBefore (MmsHeader.decodeOneField platform header) f.wire rest
      (if f.code = MMS_CONTENT_TYPE then .inr (f.store platform header)
        else .inl (f.store platform header)) := by
  obtain ⟨code, value⟩ := f
  obtain ⟨hcode, hfits⟩ := h
  simp only at hcode hfits hread hrest ⊢
  refine ReadsBefore.bind (u := [code]) (getOneByte_reads code _).attempt ?_
  simp only [or_0x80_of_le hcode]
  cases hhandler : memberFuncMap code with
  | some handler =>
      rw [hhandler] at hfits
      have hname := findHeaderFieldName_of_handler code hhandler
      refine ReadsBefore.bind_last (handle_reads hfits hread hname hhandler rest) ?_
      split
      · exact ReadsBefore.pure _ _
      · exact ReadsBefore.pure _ _
  | none =>
      rw [hhandler] at hfits
      have hother : code ≠ MMS_CONTENT_TYPE := by
        rintro rfl
        exact absurd hhandler (by decide)
      cases hfits with
      | @unknown octets h =>
          obtain ⟨r, hr⟩ := attemptUnknown_reads hread (hrest.resolve_right hother)
          rw [if_neg hother]
          exact ReadsBefore.bind_last hr (ReadsBefore.pure _ _)

theorem decodeOneField_short {f : HeaderField} (h : f.Valid) (hread : ¬ f.value.IsRead)
    (hcontent : memberFuncMap f.code ≠ some .decodeMmsContentType) (rest : Octets) :
    FallsShort (MmsHeader.decodeOneField platform header) rest f.wire := by
  obtain ⟨code, value⟩ := f
  obtain ⟨hcode, hfits⟩ := h
  simp only at hcode hfits hread hcontent ⊢
  refine FallsShort.bind (u := [code]) (getOneByte_reads code _).attempt ?_
  simp only [or_0x80_of_le hcode]
  cases hhandler : memberFuncMap code with
  | some handler =>
      rw [hhandler] at hfits hcontent
      have hname := findHeaderFieldName_of_handler code hhandler
      have hshort := handle_short platform header hfits hread
        (fun heq => hcontent (by rw [heq])) hname rest
      refine hshort.bind_left (g := fun h => if code = MMS_CONTENT_TYPE then .inr h else .inl h)
        fun h rest => ?_
      split
      · exact ReadsBefore.pure _ _
      · exact ReadsBefore.pure _ _
  | none =>
      rw [hhandler] at hfits
      cases hfits with
      | @unknown octets h =>
          exact (attemptUnknown_short hread rest).bind_left fun r rest => ReadsBefore.pure _ rest

end TelephonySms.Mms
