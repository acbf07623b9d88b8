import TelephonySms.Mms.ContentType

/-! # Message headers

`MmsEncodeString`, `MmsAddress` and `MmsHeader`: the fields of a message, kept in one map
for each kind of value, and their decoders. Every field code has its handler in a table.
A field without one is skipped.
-/

namespace TelephonySms.Mms

open OctetReader Reader

/-! ## Strings and addresses -/

structure MmsEncodeString where
  charset : Nat := 0
  valLength : Nat := 0
  strEncodeString : Octets := []
  deriving DecidableEq, Repr

structure MmsAddress where
  addressString : Octets := []
  charset : Nat := 0x6a
  deriving DecidableEq, Repr

/-- The service is not asked about an empty string. -/
def getEncodeStringFunc (platform : Platform) (charset valLength : Nat) (str : Octets) :
    Bool × Octets :=
  if str = [] then (false, []) else platform.getEncodeStringFunc charset valLength str

def MmsEncodeString.getEncodeString (platform : Platform) (value : MmsEncodeString) :
    Bool × Octets :=
  let (ret, encodeString) :=
    getEncodeStringFunc platform value.charset value.valLength value.strEncodeString
  (ret, if encodeString = [] then value.strEncodeString else encodeString)

def setEncodeString (charset : Nat) (encodeString : Octets) : MmsEncodeString :=
  ⟨if charset = 0 then 0x6a else charset, u32 encodeString.length, encodeString⟩

def setAddressString (address : MmsAddress) : MmsEncodeString :=
  setEncodeString address.charset address.addressString

/-- A call that fails leaves the string empty, whatever the charset. -/
def decodeEncodeString : Reader MmsEncodeString := do
  let oneByte ← peekOneByte
  if oneByte = 0 then do
    let _ ← attempt (increasePointer 1)
    pure {}
  else if oneByte ≤ 30 ∨ oneByte = 0x1f then do
    let _ ← decodeValueLength
    let charset ← decodeInteger
    let (str, len) ← decodeText
    pure ⟨u32 charset, len, str⟩
  else do
    let (str, len) ← decodeText
    pure ⟨0, len, str⟩

/-! ## Field codes -/

namespace MmsFieldCode

def MMS_BCC : UInt8 := 0x81
def MMS_CC : UInt8 := 0x82
def MMS_CONTENT_LOCATION : UInt8 := 0x83
def MMS_CONTENT_TYPE : UInt8 := 0x84
def MMS_DATE : UInt8 := 0x85
def MMS_DELIVERY_REPORT : UInt8 := 0x86
def MMS_DELIVERY_TIME : UInt8 := 0x87
def MMS_EXPIRY : UInt8 := 0x88
def MMS_FROM : UInt8 := 0x89
def MMS_MESSAGE_CLASS : UInt8 := 0x8a
def MMS_MESSAGE_ID : UInt8 := 0x8b
def MMS_MESSAGE_TYPE : UInt8 := 0x8c
def MMS_MMS_VERSION : UInt8 := 0x8d
def MMS_MESSAGE_SIZE : UInt8 := 0x8e
def MMS_PRIORITY : UInt8 := 0x8f
def MMS_READ_REPORT : UInt8 := 0x90
def MMS_REPORT_ALLOWED : UInt8 := 0x91
def MMS_RESPONSE_STATUS : UInt8 := 0x92
def MMS_RESPONSE_TEXT : UInt8 := 0x93
def MMS_SENDER_VISIBILITY : UInt8 := 0x94
def MMS_STATUS : UInt8 := 0x95
def MMS_SUBJECT : UInt8 := 0x96
def MMS_TO : UInt8 := 0x97
def MMS_TRANSACTION_ID : UInt8 := 0x98
def MMS_RETRIEVE_STATUS : UInt8 := 0x99
def MMS_RETRIEVE_TEXT : UInt8 := 0x9a
def MMS_READ_STATUS : UInt8 := 0x9b
def MMS_REPLY_CHARGING : UInt8 := 0x9c
def MMS_REPLY_CHARGING_DEADLINE : UInt8 := 0x9d
def MMS_REPLY_CHARGING_ID : UInt8 := 0x9e
def MMS_REPLY_CHARGING_SIZE : UInt8 := 0x9f
def MMS_PREVIOUSLY_SENT_BY : UInt8 := 0xa0
def MMS_PREVIOUSLY_SENT_DATE : UInt8 := 0xa1
def MMS_STORE : UInt8 := 0xa2
def MMS_MM_STATE : UInt8 := 0xa3
def MMS_MM_FLAGS : UInt8 := 0xa4
def MMS_STORE_STATUS : UInt8 := 0xa5
def MMS_STORE_STATUS_TEXT : UInt8 := 0xa6
def MMS_STORED : UInt8 := 0xa7
def MMS_ATTRIBUTES : UInt8 := 0xa8
def MMS_TOTALS : UInt8 := 0xa9
def MMS_MBOX_TOTALS : UInt8 := 0xaa
def MMS_QUOTAS : UInt8 := 0xab
def MMS_MBOX_QUOTAS : UInt8 := 0xac
def MMS_MESSAGE_COUNT : UInt8 := 0xad
def MMS_START : UInt8 := 0xaf
def MMS_DISTRIBUTION_INDICATOR : UInt8 := 0xb1
def MMS_ELEMENT_DESCRIPTOR : UInt8 := 0xb2
def MMS_LIMIT : UInt8 := 0xb3
def MMS_RECOMMENDED_RETRIEVAL_MODE : UInt8 := 0xb4
def MMS_RECOMMENDED_RETRIEVAL_MODE_TEXT : UInt8 := 0xb5
def MMS_STATUS_TEXT : UInt8 := 0xb6
def MMS_APPLIC_ID : UInt8 := 0xb7
def MMS_REPLY_APPLIC_ID : UInt8 := 0xb8
def MMS_AUX_APPLIC_INFO : UInt8 := 0xb9
def MMS_CONTENT_CLASS : UInt8 := 0xba
def MMS_DRM_CONTENT : UInt8 := 0xbb
def MMS_ADAPTATION_ALLOWED : UInt8 := 0xbc
def MMS_REPLACE_ID : UInt8 := 0xbd
def MMS_CANCEL_ID : UInt8 := 0xbe
def MMS_CANCEL_STATUS : UInt8 := 0xbf

end MmsFieldCode

open MmsFieldCode

/-- The codes of `mmsHeaderNames`: all from `MMS_BCC` to `MMS_CANCEL_STATUS`, and 0. -/
def findHeaderFieldName (fieldId : UInt8) : Bool :=
  (0x81 ≤ fieldId ∧ fieldId ≤ 0xbf) ∨ fieldId = 0

/-- The fields with addresses, in the order of their codes. -/
inductive AddressField where
  | bcc
  | cc
  | sender
  | recipient
  deriving DecidableEq, Repr

def AddressField.code : AddressField → UInt8
  | .bcc => MMS_BCC
  | .cc => MMS_CC
  | .sender => MMS_FROM
  | .recipient => MMS_TO

structure MmsHeader where
  octetValueMap : UInt8 → Option UInt8 := fun _ => none
  longValueMap : UInt8 → Option Int64 := fun _ => none
  textValueMap : UInt8 → Option Octets := fun _ => none
  encodeStringsMap : UInt8 → Option MmsEncodeString := fun _ => none
  addressMap : AddressField → Option (List MmsAddress) := fun _ => none
  mmsContentType : MmsContentType := {}

namespace MmsHeader

def putOctet (h : MmsHeader) (fieldId value : UInt8) : MmsHeader :=
  { h with octetValueMap := Function.update h.octetValueMap fieldId (some value) }

def putLong (h : MmsHeader) (fieldId : UInt8) (value : Int64) : MmsHeader :=
  { h with longValueMap := Function.update h.longValueMap fieldId (some value) }

def putText (h : MmsHeader) (fieldId : UInt8) (value : Octets) : MmsHeader :=
  { h with textValueMap := Function.update h.textValueMap fieldId (some value) }

def putEncodeString (h : MmsHeader) (fieldId : UInt8) (value : MmsEncodeString) : MmsHeader :=
  { h with encodeStringsMap := Function.update h.encodeStringsMap fieldId (some value) }

/-- Appends to the addresses of the field. -/
def pushAddress (h : MmsHeader) (field : AddressField) (address : MmsAddress) : MmsHeader :=
  { h with
    addressMap := Function.update h.addressMap field
      (some ((h.addressMap field).getD [] ++ [address])) }

/-- `std::map::emplace`: addresses that are there stay. -/
def emplaceAddress (h : MmsHeader) (field : AddressField) (addresses : List MmsAddress) :
    MmsHeader :=
  match h.addressMap field with
  | some _ => h
  | none => { h with addressMap := Function.update h.addressMap field (some addresses) }

end MmsHeader

/-! ## Decoding -/

/-- `static_cast<int64_t>` -/
def toInt64 (value : Nat) : Int64 := (UInt64.ofNat value).toInt64

inductive FieldHandler where
  | decodeFieldOctetValue
  | decodeFieldMMFlag
  | decodeFieldMBox
  | decodeMmsMsgType
  | decodeMmsContentType
  | decodeFieldLongValue
  | decodeFieldIntegerValue
  | decodeFieldDate
  | decodeFieldPreviouslySentDate
  | decodeFieldEncodedStringValue
  | decodeFieldAddressModelValue (field : AddressField)
  | decodeFromValue
  | decodeFieldTextStringValue
  deriving DecidableEq, Repr

def octetFields : List UInt8 :=
  [MMS_DELIVERY_REPORT, MMS_READ_REPORT, MMS_REPORT_ALLOWED, MMS_STORE, MMS_STORED, MMS_TOTALS,
    MMS_QUOTAS, MMS_DISTRIBUTION_INDICATOR, MMS_ADAPTATION_ALLOWED, MMS_MESSAGE_CLASS,
    MMS_PRIORITY, MMS_RESPONSE_STATUS, MMS_SENDER_VISIBILITY, MMS_STATUS, MMS_RETRIEVE_STATUS,
    MMS_READ_STATUS, MMS_REPLY_CHARGING, MMS_MM_STATE, MMS_STORE_STATUS,
    MMS_RECOMMENDED_RETRIEVAL_MODE, MMS_CONTENT_CLASS, MMS_CANCEL_STATUS, MMS_ATTRIBUTES,
    MMS_DRM_CONTENT]

def encodedStringFields : List UInt8 :=
  [MMS_RESPONSE_TEXT, MMS_SUBJECT, MMS_RETRIEVE_TEXT, MMS_PREVIOUSLY_SENT_BY,
    MMS_STORE_STATUS_TEXT, MMS_RECOMMENDED_RETRIEVAL_MODE_TEXT, MMS_STATUS_TEXT]

def textFields : List UInt8 :=
  [MMS_CONTENT_LOCATION, MMS_TRANSACTION_ID, MMS_MESSAGE_ID, MMS_REPLACE_ID, MMS_CANCEL_ID,
    MMS_APPLIC_ID, MMS_REPLY_APPLIC_ID, MMS_REPLY_CHARGING_ID, MMS_AUX_APPLIC_INFO]

def memberFuncMap (fieldCode : UInt8) : Option FieldHandler :=
  if fieldCode ∈ octetFields then some .decodeFieldOctetValue
  else if fieldCode = MMS_MM_FLAGS then some .decodeFieldMMFlag
  else if fieldCode ∈ [MMS_MBOX_TOTALS, MMS_MBOX_QUOTAS] then some .decodeFieldMBox
  else if fieldCode = MMS_MESSAGE_TYPE then some .decodeMmsMsgType
  else if fieldCode ∈ [MMS_CONTENT_TYPE, MMS_ELEMENT_DESCRIPTOR] then some .decodeMmsContentType
  else if fieldCode ∈ [MMS_DATE, MMS_REPLY_CHARGING_SIZE, MMS_MESSAGE_SIZE] then
    some .decodeFieldLongValue
  else if fieldCode ∈ [MMS_MESSAGE_COUNT, MMS_START, MMS_LIMIT, MMS_MMS_VERSION] then
    some .decodeFieldIntegerValue
  else if fieldCode ∈ [MMS_DELIVERY_TIME, MMS_EXPIRY, MMS_REPLY_CHARGING_DEADLINE] then
    some .decodeFieldDate
  else if fieldCode = MMS_PREVIOUSLY_SENT_DATE then some .decodeFieldPreviouslySentDate
  else if fieldCode ∈ encodedStringFields then some .decodeFieldEncodedStringValue
  else if fieldCode = MMS_BCC then some (.decodeFieldAddressModelValue .bcc)
  else if fieldCode = MMS_CC then some (.decodeFieldAddressModelValue .cc)
  else if fieldCode = MMS_TO then some (.decodeFieldAddressModelValue .recipient)
  else if fieldCode = MMS_FROM then some .decodeFromValue
  else if fieldCode ∈ textFields then some .decodeFieldTextStringValue
  else none

namespace MmsHeader

variable (platform : Platform) (fieldId : UInt8) (h : MmsHeader)

def decodeMmsMsgType : Reader MmsHeader := do
  guard (findHeaderFieldName fieldId)
  let oneByte ← getOneByte
  guard (128 ≤ oneByte ∧ oneByte ≤ 151)
  pure (h.putOctet fieldId oneByte)

def decodeFieldAddressModelValue (field : AddressField) : Reader MmsHeader := do
  guard (findHeaderFieldName fieldId)
  let encodeString ← attempt decodeEncodeString
  let (_, encodeAddress) := (encodeString.getD {}).getEncodeString platform
  pure (h.pushAddress field { addressString := encodeAddress })

def decodeFieldOctetValue : Reader MmsHeader := do
  guard (findHeaderFieldName fieldId)
  let oneByte ← getOneByte
  pure (h.putOctet fieldId oneByte)

def decodeFieldLongValue : Reader MmsHeader := do
  guard (findHeaderFieldName fieldId)
  let value ← decodeLongInteger
  pure (h.putLong fieldId (toInt64 value))

def decodeFieldIntegerValue : Reader MmsHeader := do
  guard (findHeaderFieldName fieldId)
  let value ← decodeInteger
  pure (h.putLong fieldId (toInt64 value))

def decodeFieldTextStringValue : Reader MmsHeader := do
  guard (findHeaderFieldName fieldId)
  let (tempString, _) ← decodeText
  pure (h.putText fieldId tempString)

def decodeFieldEncodedStringValue : Reader MmsHeader := do
  guard (findHeaderFieldName fieldId)
  let encodeString ← decodeEncodeString
  pure (h.putEncodeString fieldId encodeString)

def decodeFromValue : Reader MmsHeader := do
  guard (findHeaderFieldName fieldId)
  let _ ← decodeValueLength
  let oneByte ← getOneByte
  if oneByte = 128 then do
    let encodeString ← attempt decodeEncodeString
    let (_, encodeAddress) := (encodeString.getD {}).getEncodeString platform
    pure (h.emplaceAddress .sender [{ addressString := encodeAddress }])
  else if oneByte = 129 then
    pure (h.emplaceAddress .sender [{ addressString := ascii "Insert-address-token" }])
  else
    fail

def decodeFieldDate : Reader MmsHeader := do
  guard (findHeaderFieldName fieldId)
  let _ ← decodeValueLength
  let token ← getOneByte
  let timeValue ← decodeLongInteger
  let timeValue := if token = 0x81 then u64 (timeValue + platform.systemClock) else timeValue
  pure (h.putLong fieldId (toInt64 timeValue))

def decodeFieldPreviouslySentDate : Reader MmsHeader := do
  guard (findHeaderFieldName fieldId)
  let _ ← decodeValueLength
  let _ ← decodeInteger
  let perviouslySentDate ← decodeLongInteger
  pure (h.putLong fieldId (toInt64 perviouslySentDate))

/-- The value is read and dropped. -/
def decodeFieldMBox : Reader MmsHeader := do
  guard (findHeaderFieldName fieldId)
  let _ ← decodeValueLength
  let _ ← getOneByte
  let _ ← decodeInteger
  pure h

/-- The value is read and dropped. -/
def decodeFieldMMFlag : Reader MmsHeader := do
  guard (findHeaderFieldName fieldId)
  let _ ← decodeValueLength
  let _ ← getOneByte
  let _ ← decodeEncodeString
  pure h

def decodeMmsContentType : Reader MmsHeader := do
  guard (findHeaderFieldName fieldId)
  let (contentType, _) ← Mms.decodeMmsContentType h.mmsContentType
  pure { h with mmsContentType := contentType }

def decodeMmsMsgUnKnownField : Reader Unit := do
  loop (fun () => do
    let oneByte ← getOneByte
    if oneByte < 0x80 then pure (.inl ()) else pure (.inr ())) ()
  let _ ← attempt (decreasePointer 1)
  pure ()

def handle : FieldHandler → Reader MmsHeader
  | .decodeFieldOctetValue => decodeFieldOctetValue fieldId h
  | .decodeFieldMMFlag => decodeFieldMMFlag fieldId h
  | .decodeFieldMBox => decodeFieldMBox fieldId h
  | .decodeMmsMsgType => decodeMmsMsgType fieldId h
  | .decodeMmsContentType => decodeMmsContentType fieldId h
  | .decodeFieldLongValue => decodeFieldLongValue fieldId h
  | .decodeFieldIntegerValue => decodeFieldIntegerValue fieldId h
  | .decodeFieldDate => decodeFieldDate platform fieldId h
  | .decodeFieldPreviouslySentDate => decodeFieldPreviouslySentDate fieldId h
  | .decodeFieldEncodedStringValue => decodeFieldEncodedStringValue fieldId h
  | .decodeFieldAddressModelValue field => decodeFieldAddressModelValue platform fieldId h field
  | .decodeFromValue => decodeFromValue platform fieldId h
  | .decodeFieldTextStringValue => decodeFieldTextStringValue fieldId h

/-- One round of `DecodeMmsHeader`: a field and its value. -/
def decodeOneField : Reader (MmsHeader ⊕ MmsHeader) := do
  match ← attempt getOneByte with
  | none => pure (.inr h)
  | some oneByte =>
      let fieldCode := oneByte ||| 0x80
      match memberFuncMap fieldCode with
      | some handler => do
          let h ← handle platform fieldCode h handler
          if fieldCode = MMS_CONTENT_TYPE then pure (.inr h) else pure (.inl h)
      | none => do
          let _ ← attempt decodeMmsMsgUnKnownField
          pure (.inl h)

def decodeMmsHeader : Reader MmsHeader := loop (decodeOneField platform) h

end MmsHeader

/-! ## Every handler stays inside the buffer -/

/-- Also where it fails it does not move back, for it looks at an octet first. -/
theorem decodeEncodeString_moves : Moves decodeEncodeString (fun _ => 0) 0 := by
  intro c hc
  by_cases h : c.position < c.octets.length
  · refine MovesAt.bind (peekOneByte_moves c hc) fun oneByte c' hrun hc' => ?_
    rw [peekOneByte_of_lt h, Prod.mk.injEq] at hrun
    obtain ⟨-, rfl⟩ := hrun
    split
    · refine Moves.bind (Moves.attempt (increasePointer_moves 1)) (le_refl _) (fun r => ?_) _ hc'
      exact Moves.pure _ (by cases r <;> simp)
    · split
      · refine MovesAt.bind ((decodeValueLength_movesAt hc' h).mono (fun _ => le_refl _) (by simp))
          fun _ c' _ hc' => ?_
        refine Moves.bind decodeInteger_moves (by simp) (fun _ => ?_) c' hc'
        exact Moves.bind decodeText_moves (by simp) fun _ => Moves.pure _ (by simp)
      · exact Moves.bind decodeText_moves (by simp) (fun _ => Moves.pure _ (by simp)) _ hc'
  · refine MovesAt.of_failed hc ?_ (le_refl 0)
    exact bind_of_failed (peekOneByte_of_ge (Nat.not_lt.mp h)) _

namespace MmsHeader

variable (platform : Platform) (fieldId : UInt8) (h : MmsHeader)

theorem decodeMmsMsgUnKnownField_moves : Moves decodeMmsMsgUnKnownField (fun _ => 0) 0 := by
  have hskip : Moves (loop (fun () => do
      let oneByte ← getOneByte
      if oneByte < 0x80 then pure (.inl ()) else pure (.inr ())) () : Reader Unit)
      (fun _ => 1) 0 := by
    refine Moves.loop (fun _ => ?_) ()
    refine Moves.bind getOneByte_moves (le_refl 0) fun oneByte => ?_
    exact Moves.ite _ (Moves.pure _ (by simp)) (Moves.pure _ (by simp))
  refine Moves.bind hskip (le_refl 0) fun _ => ?_
  refine Moves.bind (Moves.attempt (decreasePointer_moves 1)) (le_refl _) fun r => ?_
  exact Moves.pure _ (by cases r <;> simp)

theorem handle_moves (handler : FieldHandler) :
    Moves (handle platform fieldId h handler) (fun _ => 0) (-1) := by
  have hguard := Moves.guard (findHeaderFieldName fieldId = true) (le_refl (0 : Int))
  cases handler with
  | decodeFieldOctetValue =>
      refine Moves.bind hguard (by simp) fun _ => ?_
      exact Moves.bind getOneByte_moves (by simp) fun _ => Moves.pure _ (by simp)
  | decodeMmsMsgType =>
      refine Moves.bind hguard (by simp) fun _ => ?_
      refine Moves.bind getOneByte_moves (by simp) fun _ => ?_
      exact Moves.bind (Moves.guard _ (le_refl 0)) (by simp) fun _ => Moves.pure _ (by simp)
  | decodeMmsContentType =>
      refine Moves.bind hguard (by simp) fun _ => ?_
      exact Moves.bind (decodeMmsContentType_moves _) (by simp) fun _ => Moves.pure _ (by simp)
  | decodeFieldLongValue =>
      refine Moves.bind hguard (by simp) fun _ => ?_
      exact Moves.bind decodeLongInteger_moves (by simp) fun _ => Moves.pure _ (by simp)
  | decodeFieldIntegerValue =>
      refine Moves.bind hguard (by simp) fun _ => ?_
      exact Moves.bind decodeInteger_moves (by simp) fun _ => Moves.pure _ (by simp)
  | decodeFieldTextStringValue =>
      refine Moves.bind hguard (by simp) fun _ => ?_
      exact Moves.bind decodeText_moves (by simp) fun _ => Moves.pure _ (by simp)
  | decodeFieldEncodedStringValue =>
      refine Moves.bind hguard (by simp) fun _ => ?_
      exact Moves.bind decodeEncodeString_moves (by simp) fun _ => Moves.pure _ (by simp)
  | decodeFieldAddressModelValue field =>
      refine Moves.bind hguard (by simp) fun _ => ?_
      refine Moves.bind (Moves.attempt decodeEncodeString_moves) (le_refl _) fun r => ?_
      exact Moves.pure _ (by cases r <;> simp)
  | decodeFieldDate =>
      refine Moves.bind hguard (by simp) fun _ => ?_
      refine Moves.bind decodeValueLength_moves (by simp) fun _ => ?_
      refine Moves.bind getOneByte_moves (by simp) fun _ => ?_
      exact Moves.bind decodeLongInteger_moves (by simp) fun _ => Moves.pure _ (by simp)
  | decodeFieldPreviouslySentDate =>
      refine Moves.bind hguard (by simp) fun _ => ?_
      refine Moves.bind decodeValueLength_moves (by simp) fun _ => ?_
      refine Moves.bind decodeInteger_moves (by simp) fun _ => ?_
      exact Moves.bind decodeLongInteger_moves (by simp) fun _ => Moves.pure _ (by simp)
  | decodeFieldMBox =>
      refine Moves.bind hguard (by simp) fun _ => ?_
      refine Moves.bind decodeValueLength_moves (by simp) fun _ => ?_
      refine Moves.bind getOneByte_moves (by simp) fun _ => ?_
      exact Moves.bind decodeInteger_moves (by simp) fun _ => Moves.pure _ (by simp)
  | decodeFieldMMFlag =>
      refine Moves.bind hguard (by simp) fun _ => ?_
      refine Moves.bind decodeValueLength_moves (by simp) fun _ => ?_
      refine Moves.bind getOneByte_moves (by simp) fun _ => ?_
      exact Moves.bind decodeEncodeString_moves (by simp) fun _ => Moves.pure _ (by simp)
  | decodeFromValue =>
      refine Moves.bind hguard (by simp) fun _ => ?_
      refine Moves.bind decodeValueLength_moves (by simp) fun _ => ?_
      refine Moves.bind getOneByte_moves (by simp) fun _ => ?_
      refine Moves.ite _ ?_ (Moves.ite _ (Moves.pure _ (by simp)) (Moves.fail (by simp)))
      refine Moves.bind (Moves.attempt decodeEncodeString_moves) (le_refl _) fun r => ?_
      exact Moves.pure _ (by cases r <;> simp)

/-- Every round reads a field code. -/
theorem decodeOneField_moves :
    Moves (decodeOneField platform h) (Sum.elim (fun _ => 1) (fun _ => 0)) 0 := by
  refine Moves.bind (Moves.attempt getOneByte_moves) (le_refl _) fun r => ?_
  cases r with
  | none => exact Moves.pure _ (by simp)
  | some oneByte =>
      dsimp only
      cases memberFuncMap (oneByte ||| 0x80) with
      | none =>
          refine Moves.bind (Moves.attempt decodeMmsMsgUnKnownField_moves) (le_refl _) fun r => ?_
          exact Moves.pure _ (by cases r <;> simp)
      | some handler =>
          refine Moves.bind (handle_moves platform _ h handler) (by simp) fun h => ?_
          exact Moves.ite _ (Moves.pure _ (by simp)) (Moves.pure _ (by simp))

theorem decodeMmsHeader_moves : Moves (decodeMmsHeader platform h) (fun _ => 0) 0 :=
  Moves.loop (decodeOneField_moves platform) h

end MmsHeader

end TelephonySms.Mms
