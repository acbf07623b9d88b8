import TelephonySms.Mms.Body

/-! # Setting and encoding headers

The setters of `MmsHeader` and its encoders. An encoder writes to the buffer and may also
change the header it encodes, so it acts on both. A field that fails to encode is left
out or ends the encoding, as the encoder of the message type has it.
-/

namespace TelephonySms.Mms

open Action MmsFieldCode

/-! ## Setters -/

inductive MmsFieldValueType where
  | MMS_FIELD_OCTET_TYPE
  | MMS_FIELD_INTEGER_TYPE
  | MMS_FIELD_LONG_TYPE
  | MMS_FIELD_TEXT_TYPE
  | MMS_FIELD_ENCODE_TEXT_TYPE
  | MMS_FIELD_ENCODE_ADDR_TYPE
  | MMS_FIELD_UNKOWN_TYPE
  deriving DecidableEq, Repr

open MmsFieldValueType

/-- `MmsHeaderCateg::FindFieldDes` -/
def findFieldDes (fieldId : UInt8) : MmsFieldValueType :=
  if fieldId ∈ [MMS_BCC, MMS_CC, MMS_FROM, MMS_TO] then MMS_FIELD_ENCODE_ADDR_TYPE
  else if fieldId ∈ [MMS_CONTENT_LOCATION, MMS_MESSAGE_ID, MMS_TRANSACTION_ID,
    MMS_REPLY_CHARGING_ID] then MMS_FIELD_TEXT_TYPE
  else if fieldId ∈ [MMS_DATE, MMS_DELIVERY_TIME, MMS_EXPIRY, MMS_MESSAGE_SIZE,
    MMS_REPLY_CHARGING_DEADLINE, MMS_REPLY_CHARGING_SIZE, MMS_PREVIOUSLY_SENT_DATE] then
    MMS_FIELD_LONG_TYPE
  else if fieldId ∈ [MMS_MMS_VERSION, MMS_MBOX_TOTALS, MMS_MBOX_QUOTAS, MMS_MESSAGE_COUNT,
    MMS_START, MMS_LIMIT] then MMS_FIELD_INTEGER_TYPE
  else if fieldId ∈ [MMS_SUBJECT, MMS_RETRIEVE_TEXT, MMS_PREVIOUSLY_SENT_BY, MMS_MM_FLAGS,
    MMS_STORE_STATUS_TEXT] then MMS_FIELD_ENCODE_TEXT_TYPE
  else if fieldId ∈ [MMS_DELIVERY_REPORT, MMS_MESSAGE_CLASS, MMS_MESSAGE_TYPE, MMS_PRIORITY,
    MMS_READ_REPORT, MMS_REPORT_ALLOWED, MMS_RESPONSE_STATUS, MMS_RESPONSE_TEXT,
    MMS_SENDER_VISIBILITY, MMS_STATUS, MMS_RETRIEVE_STATUS, MMS_READ_STATUS, MMS_REPLY_CHARGING,
    MMS_STORE, MMS_MM_STATE, MMS_STORE_STATUS, MMS_STORED, MMS_ATTRIBUTES, MMS_TOTALS,
    MMS_QUOTAS, MMS_DISTRIBUTION_INDICATOR, MMS_CONTENT_CLASS] then MMS_FIELD_OCTET_TYPE
  else MMS_FIELD_UNKOWN_TYPE

def inRange (value low high : UInt8) : Bool := low ≤ value ∧ value ≤ high

def checkResponseStatus (value : UInt8) : Bool :=
  inRange value 128 136 || inRange value 192 196 || inRange value 224 235

def checkRetrieveStatus (value : UInt8) : Bool :=
  value == 128 || inRange value 192 194 || inRange value 224 227

def checkStoreStatus (value : UInt8) : Bool :=
  value == 128 || inRange value 192 193 || inRange value 224 228

def booleanFields : List UInt8 :=
  [MMS_DELIVERY_REPORT, MMS_READ_REPORT, MMS_REPORT_ALLOWED, MMS_STORE, MMS_STORED, MMS_TOTALS,
    MMS_QUOTAS, MMS_DISTRIBUTION_INDICATOR, MMS_DRM_CONTENT, MMS_ADAPTATION_ALLOWED]

/-- Whether the value is valid, and whether the field is one of these. -/
def setOctetValuePortionData (fieldId value : UInt8) : Bool × Bool :=
  if fieldId = MMS_MESSAGE_TYPE then (inRange value 128 138, true)
  else if fieldId = MMS_PRIORITY then (inRange value 128 130, true)
  else if fieldId = MMS_RESPONSE_STATUS then (checkResponseStatus value, true)
  else if fieldId = MMS_SENDER_VISIBILITY then (inRange value 128 129, true)
  else if fieldId = MMS_STATUS then (inRange value 128 135, true)
  else if fieldId = MMS_RETRIEVE_STATUS then (checkRetrieveStatus value, true)
  else (true, false)

/-- The fields that are only checked here do not become a match. -/
def setOctetValuePartData (fieldId value : UInt8) : Bool × Bool :=
  let (valid, isMatch) := setOctetValuePortionData fieldId value
  if !valid || isMatch then (valid, isMatch)
  else if fieldId = MMS_READ_STATUS then (inRange value 128 129, isMatch)
  else if fieldId = MMS_REPLY_CHARGING then (inRange value 128 131, isMatch)
  else if fieldId = MMS_MM_STATE then (inRange value 128 132, isMatch)
  else if fieldId = MMS_MM_FLAGS then (inRange value 128 130, isMatch)
  else if fieldId = MMS_STORE_STATUS then (checkStoreStatus value, isMatch)
  else (true, false)

namespace MmsHeader

variable (h : MmsHeader)

def setOctetValue (fieldId value : UInt8) : Option MmsHeader :=
  if findFieldDes fieldId ≠ MMS_FIELD_OCTET_TYPE then
    none
  else if fieldId ∈ booleanFields ∧ inRange value 128 129 then
    some (h.putOctet fieldId value)
  else
    let (valid, isMatch) := setOctetValuePartData fieldId value
    let accepted :=
      if fieldId = MMS_CONTENT_CLASS then inRange value 128 135
      else if fieldId = MMS_CANCEL_STATUS then inRange value 128 129
      else if fieldId = MMS_MESSAGE_CLASS then inRange value 128 131
      else isMatch
    if valid && accepted then some (h.putOctet fieldId value) else none

def setLongValue (fieldId : UInt8) (value : Int64) : Option MmsHeader :=
  if findFieldDes fieldId ≠ MMS_FIELD_INTEGER_TYPE ∧ findFieldDes fieldId ≠ MMS_FIELD_LONG_TYPE then
    none
  else
    some (h.putLong fieldId value)

def setTextValue (fieldId : UInt8) (value : Octets) : Option MmsHeader :=
  if value = [] then
    none
  else if findFieldDes fieldId ≠ MMS_FIELD_TEXT_TYPE then
    none
  else
    some (h.putText fieldId value)

def setEncodeStringValue (fieldId : UInt8) (charset : Nat) (value : Octets) : Option MmsHeader :=
  if value = [] then
    none
  else if findFieldDes fieldId ≠ MMS_FIELD_ENCODE_TEXT_TYPE then
    none
  else
    some (h.putEncodeString fieldId (setEncodeString charset value))

def addHeaderAddressValue (field : AddressField) (address : MmsAddress) : Option MmsHeader :=
  if address.addressString = [] ∧ field ≠ .sender then
    none
  else
    some (h.pushAddress field address)

/-- Whether `GetStringValue` finds the field. -/
def hasStringValue (fieldId : UInt8) : Bool :=
  (h.textValueMap fieldId).isSome || (h.encodeStringsMap fieldId).isSome

def isHaveBody : Bool :=
  match h.octetValueMap MMS_MESSAGE_TYPE with
  | some msgType => msgType == MMS_MSGTYPE_SEND_REQ || msgType == MMS_MSGTYPE_RETRIEVE_CONF
  | none => false

end MmsHeader

/-! ## Field values -/

def encodeEncodeString (platform : Platform) (value : MmsEncodeString) : Write Unit :=
  if value.charset ≠ 0 then do
    let tempBuffer ← inTempBuffer do
      if value.charset &&& 0xff00 = 0 then
        attempt (encodeShortInteger (UInt8.ofNat value.charset))
      else
        attempt (encodeInteger value.charset)
      encodeText platform value.strEncodeString
    encodeValueLength tempBuffer.length
    writeBuffer tempBuffer
  else
    encodeText platform value.strEncodeString

/-- `static_cast<uint64_t>` -/
def toUInt64 (value : Int64) : Nat := value.toUInt64.toNat

namespace MmsHeader

variable (platform : Platform) (h : MmsHeader) (fieldId : UInt8)

def encodeOctetValue (value : UInt8) : Write Unit := do
  writeByte fieldId
  writeByte value

def encodeShortIntegerValue (value : Int64) : Write Unit := do
  writeByte fieldId
  encodeShortInteger (UInt8.ofNat (toUInt64 value))

def encodeTextStringValue (value : Octets) : Write Unit := do
  guard (value ≠ [])
  writeByte fieldId
  encodeText platform value

def encodeEncodeStringValue (value : MmsEncodeString) : Write Unit := do
  let (ok, valueUtf8) := value.getEncodeString platform
  guard ok
  guard (valueUtf8 ≠ [])
  writeByte fieldId
  encodeEncodeString platform value

def encodeLongIntergerValue (value : Int64) : Write Unit := do
  writeByte fieldId
  encodeLongInteger (toUInt64 value)

def encodeOctetValueFromMap : Write Unit :=
  match h.octetValueMap fieldId with
  | none => fail
  | some value => encodeOctetValue fieldId value

def encodeTextStringValueFromMap : Write Unit :=
  match h.textValueMap fieldId with
  | none => fail
  | some value => encodeTextStringValue platform fieldId value

def enocdeEncodeStringValueFromMap : Write Unit :=
  match h.encodeStringsMap fieldId with
  | none => fail
  | some value => encodeEncodeStringValue platform fieldId value

def encodeLongIntergerValueFromMap : Write Unit :=
  match h.longValueMap fieldId with
  | none => fail
  | some value => encodeLongIntergerValue fieldId value

def encodeFieldExpriyValue (value : Int64) : Write Unit := do
  writeByte MMS_EXPIRY
  let tempBuf ← inTempBuffer do
    encodeOctet 129
    encodeLongInteger (toUInt64 value)
  encodeValueLength tempBuf.length
  writeBuffer tempBuf

/-- `Address-present-token Encoded-string-value | Insert-address-token` -/
def encodeFromAddress (addr : List MmsAddress) : Write Unit :=
  match addr with
  | [] => writeByte 129
  | address :: _ =>
      if address.addressString = [] then
        writeByte 129
      else do
        writeByte 128
        encodeEncodeString platform (setAddressString address)

def encodeMultipleAddressValue (addrs : List MmsAddress) : Write Unit := do
  guard (addrs ≠ [])
  forEach (fun addr => do
    writeByte fieldId
    encodeEncodeString platform (setAddressString addr)) addrs

def econdeFieldMessageClassValue : Write Unit :=
  match h.octetValueMap MMS_MESSAGE_CLASS with
  | some valueOctet => encodeOctetValue MMS_MESSAGE_CLASS valueOctet
  | none =>
      match h.textValueMap MMS_MESSAGE_CLASS with
      | none => fail
      | some strValue =>
          if strValue = ascii "personal" then encodeOctetValue MMS_MESSAGE_CLASS 128
          else if strValue = ascii "advertisement" then encodeOctetValue MMS_MESSAGE_CLASS 129
          else if strValue = ascii "informational" then encodeOctetValue MMS_MESSAGE_CLASS 130
          else if strValue = ascii "auto" then encodeOctetValue MMS_MESSAGE_CLASS 131
          else encodeTextStringValue platform MMS_MESSAGE_CLASS strValue

def encodeCommontFieldValue : Write Unit := do
  encodeOctetValue MMS_MESSAGE_TYPE ((h.octetValueMap MMS_MESSAGE_TYPE).getD 0)
  match h.textValueMap MMS_TRANSACTION_ID with
  | some transactionId => encodeTextStringValue platform MMS_TRANSACTION_ID transactionId
  | none => pure ()
  encodeShortIntegerValue MMS_MMS_VERSION ((h.longValueMap MMS_MMS_VERSION).getD 0)

end MmsHeader

/-! ## Message types -/

/-- The encoders act on the header and on the buffer. -/
abbrev HeaderWrite := Action (MmsHeader × Octets)

namespace HeaderWrite

variable (platform : Platform)

def header : HeaderWrite MmsHeader := do
  let s ← get
  pure s.1

/-- The addresses of the sender are erased once they are written. -/
def encodeFieldFromValue (addr : List MmsAddress) : HeaderWrite Unit := do
  let h ← header
  match h.addressMap .sender with
  | none => pure ()
  | some _ => do
      onSnd (writeByte MMS_FROM)
      let tempBuff ← onSnd (inTempBuffer (MmsHeader.encodeFromAddress platform addr))
      onSnd (encodeValueLength tempBuff.length)
      onSnd (writeBuffer tempBuff)
      modify fun s =>
        ({ s.1 with addressMap := Function.update s.1.addressMap .sender none }, s.2)

def encodeMmsSendReq : HeaderWrite Unit := do
  let h ← header
  encodeFieldFromValue platform ((h.addressMap .sender).getD [])
  let h ← header
  onSnd do
    match h.longValueMap MMS_EXPIRY with
    | some mmsExpriy => attempt (MmsHeader.encodeFieldExpriyValue mmsExpriy)
    | none => pure ()
    forEach (fun field =>
      match h.addressMap field with
      | some addrs => attempt (MmsHeader.encodeMultipleAddressValue platform field.code addrs)
      | none => pure ()) [.bcc, .cc, .sender, .recipient]
    attempt (h.econdeFieldMessageClassValue platform)
    attempt (h.encodeLongIntergerValueFromMap MMS_DATE)
    attempt (h.enocdeEncodeStringValueFromMap platform MMS_SUBJECT)
    attempt (h.encodeTextStringValueFromMap platform MMS_MESSAGE_CLASS)
    attempt (h.encodeOctetValueFromMap MMS_PRIORITY)
    attempt (h.encodeOctetValueFromMap MMS_SENDER_VISIBILITY)
    attempt (h.encodeOctetValueFromMap MMS_DELIVERY_REPORT)
    attempt (h.encodeOctetValueFromMap MMS_READ_REPORT)

def encodeMmsSendConf : HeaderWrite Unit := do
  let h ← header
  onSnd do
    h.encodeOctetValueFromMap MMS_RESPONSE_STATUS
    attempt (h.encodeTextStringValueFromMap platform MMS_MESSAGE_ID)

def encodeMmsNotificationInd : HeaderWrite Unit := do
  let h ← header
  onSnd do
    h.encodeTextStringValueFromMap platform MMS_CONTENT_LOCATION
    h.encodeLongIntergerValueFromMap MMS_MESSAGE_SIZE
    match h.longValueMap MMS_EXPIRY with
    | some mmsExpriy => MmsHeader.encodeFieldExpriyValue mmsExpriy
    | none => fail
    h.econdeFieldMessageClassValue platform
  match h.addressMap .sender with
  | some fromAddress => attempt (encodeFieldFromValue platform fromAddress)
  | none => pure ()
  onSnd do
    attempt (h.encodeOctetValueFromMap MMS_CONTENT_CLASS)
    attempt (h.enocdeEncodeStringValueFromMap platform MMS_SUBJECT)
    attempt (h.encodeOctetValueFromMap MMS_DELIVERY_REPORT)

def enocdeMmsNotifyRespInd : HeaderWrite Unit := do
  let h ← header
  onSnd do
    h.encodeOctetValueFromMap MMS_STATUS
    attempt (h.encodeOctetValueFromMap MMS_REPORT_ALLOWED)

def enocdeMmsRetrieveConf : HeaderWrite Unit := do
  let h ← header
  onSnd do
    h.encodeLongIntergerValueFromMap MMS_DATE
    attempt (h.encodeTextStringValueFromMap platform MMS_MESSAGE_ID)
  match h.addressMap .sender with
  | some fromAddress => attempt (encodeFieldFromValue platform fromAddress)
  | none => pure ()
  onSnd do
    match h.addressMap .recipient with
    | some toAddress => MmsHeader.encodeMultipleAddressValue platform MMS_TO toAddress
    | none => pure ()
    match h.addressMap .cc with
    | some ccAddress => MmsHeader.encodeMultipleAddressValue platform MMS_CC ccAddress
    | none => pure ()
    attempt (h.econdeFieldMessageClassValue platform)
    attempt (h.enocdeEncodeStringValueFromMap platform MMS_SUBJECT)
    attempt (h.encodeOctetValueFromMap MMS_PRIORITY)
    attempt (h.encodeOctetValueFromMap MMS_DELIVERY_REPORT)
    attempt (h.encodeOctetValueFromMap MMS_READ_REPORT)
    attempt (h.encodeOctetValueFromMap MMS_RETRIEVE_STATUS)
    attempt (h.enocdeEncodeStringValueFromMap platform MMS_RETRIEVE_TEXT)

def enocdeMmsAcknowledgeInd : HeaderWrite Unit := do
  let h ← header
  onSnd (attempt (h.encodeOctetValueFromMap MMS_REPORT_ALLOWED))

def encodeToAddress (h : MmsHeader) : Write Unit :=
  match h.addressMap .recipient with
  | some toAddress => MmsHeader.encodeMultipleAddressValue platform MMS_TO toAddress
  | none => fail

def enocdeMmsDeliveryInd : HeaderWrite Unit := do
  let h ← header
  onSnd do
    encodeToAddress platform h
    h.encodeTextStringValueFromMap platform MMS_MESSAGE_ID
    h.encodeLongIntergerValueFromMap MMS_DATE
    h.encodeOctetValueFromMap MMS_STATUS

/-- Up to the read status, both read reports are written alike. -/
def encodeReadReport : HeaderWrite Unit := do
  let h ← header
  onSnd do
    h.encodeTextStringValueFromMap platform MMS_MESSAGE_ID
    encodeToAddress platform h
  encodeFieldFromValue platform ((h.addressMap .sender).getD [])
  onSnd (h.encodeOctetValueFromMap MMS_READ_STATUS)

def encodeMmsReadRecInd : HeaderWrite Unit := do
  encodeReadReport platform
  let h ← header
  onSnd (attempt (h.encodeLongIntergerValueFromMap MMS_DATE))

def encodeMmsReadOrigInd : HeaderWrite Unit := do
  encodeReadReport platform
  let h ← header
  onSnd (h.encodeLongIntergerValueFromMap MMS_DATE)

end HeaderWrite

def MMS_MSGTYPE_SEND_CONF : UInt8 := 129
def MMS_MSGTYPE_NOTIFICATION_IND : UInt8 := 130
def MMS_MSGTYPE_NOTIFYRESP_IND : UInt8 := 131
def MMS_MSGTYPE_ACKNOWLEDGE_IND : UInt8 := 133
def MMS_MSGTYPE_DELIVERY_IND : UInt8 := 134
def MMS_MSGTYPE_READ_REC_IND : UInt8 := 135
def MMS_MSGTYPE_READ_ORIG_IND : UInt8 := 136

def isHaveTransactionId (messageType : UInt8) : Bool :=
  [MMS_MSGTYPE_SEND_REQ, MMS_MSGTYPE_SEND_CONF, MMS_MSGTYPE_NOTIFICATION_IND,
    MMS_MSGTYPE_NOTIFYRESP_IND, MMS_MSGTYPE_RETRIEVE_CONF,
    MMS_MSGTYPE_ACKNOWLEDGE_IND].contains messageType

namespace HeaderWrite

variable (platform : Platform)

/-- A transaction id and a version are made up where there is no valid one. -/
def fillDefaults (messageType : UInt8) (h : MmsHeader) : MmsHeader :=
  let h := if !h.hasStringValue MMS_TRANSACTION_ID && isHaveTransactionId messageType then
    (h.setTextValue MMS_TRANSACTION_ID (platform.makeTransactionId 24)).getD h else h
  match h.longValueMap MMS_MMS_VERSION with
  | none => (h.setLongValue MMS_MMS_VERSION 0x13).getD h
  | some mmsVersion =>
      if mmsVersion < 0x10 ∨ mmsVersion > 0x13 then
        (h.setLongValue MMS_MMS_VERSION 0x13).getD h
      else
        h

def encodeMessageType (messageType : UInt8) : HeaderWrite Unit :=
  if messageType = MMS_MSGTYPE_SEND_REQ then encodeMmsSendReq platform
  else if messageType = MMS_MSGTYPE_SEND_CONF then encodeMmsSendConf platform
  else if messageType = MMS_MSGTYPE_NOTIFICATION_IND then encodeMmsNotificationInd platform
  else if messageType = MMS_MSGTYPE_NOTIFYRESP_IND then enocdeMmsNotifyRespInd
  else if messageType = MMS_MSGTYPE_RETRIEVE_CONF then enocdeMmsRetrieveConf platform
  else if messageType = MMS_MSGTYPE_ACKNOWLEDGE_IND then enocdeMmsAcknowledgeInd
  else if messageType = MMS_MSGTYPE_DELIVERY_IND then enocdeMmsDeliveryInd platform
  else if messageType = MMS_MSGTYPE_READ_REC_IND then encodeMmsReadRecInd platform
  else if messageType = MMS_MSGTYPE_READ_ORIG_IND then encodeMmsReadOrigInd platform
  else fail

def encodeMmsHeader : HeaderWrite Unit := do
  let h ← header
  match h.octetValueMap MMS_MESSAGE_TYPE with
  | none => fail
  | some messageType => do
      modify fun s => (fillDefaults platform messageType s.1, s.2)
      let h ← header
      onSnd (h.encodeCommontFieldValue platform)
      encodeMessageType platform messageType

end HeaderWrite

end TelephonySms.Mms
