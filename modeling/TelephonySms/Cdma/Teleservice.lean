import TelephonySms.Cdma.UserData

/-! # Teleservice messages

`CdmaSmsTeleserviceMessage` and the kinds of message derived from it. A message
to send is the list of its sub-parameters. A message that is read is scanned
first, from identifier to identifier by the length octets, which makes a list of
sub-parameters; each of them is then read in turn.
-/

namespace TelephonySms.Cdma

open TelephonySms.Pdu
open SmsPduBuffer

/-- The classes of sub-parameters, each with the field of the message it refers to. -/
inductive SubParameter where
  | messageId
  | userData
  | cmasData
  | userResponseCode
  | messageCenterTimeStamp
  | validityPeriodAbsolute
  | validityPeriodRelative
  | deferredDeliveryTimeAbsolute
  | deferredDeliveryTimeRelative
  | priorityIndicator
  | privacyIndicator
  | replyOption
  | numberOfMessages
  | alertOnMsgDelivery
  | languageIndicator
  | callbackNumber
  | messageDisplayMode
  | messageDepositIndex
  | messageStatus
  | tpFailureCause
  | enhancedVmn
  | enhancedVmnAck
  | reserved (id : UInt8)
deriving DecidableEq, Repr

def SubParameter.id : SubParameter → UInt8
  | .messageId => 0x00
  | .userData => 0x01
  | .cmasData => 0x01
  | .userResponseCode => 0x02
  | .messageCenterTimeStamp => 0x03
  | .validityPeriodAbsolute => 0x04
  | .validityPeriodRelative => 0x05
  | .deferredDeliveryTimeAbsolute => 0x06
  | .deferredDeliveryTimeRelative => 0x07
  | .priorityIndicator => 0x08
  | .privacyIndicator => 0x09
  | .replyOption => 0x0A
  | .numberOfMessages => 0x0B
  | .alertOnMsgDelivery => 0x0C
  | .languageIndicator => 0x0D
  | .callbackNumber => 0x0E
  | .messageDisplayMode => 0x0F
  | .messageDepositIndex => 0x11
  | .messageStatus => 0x14
  | .tpFailureCause => 0x15
  | .enhancedVmn => 0x16
  | .enhancedVmnAck => 0x17
  | .reserved id => id

/-- The numbers of `CdmaSmsTeleserviceMessage::MessageType`. -/
def TeleserviceMsgType.value : TeleserviceMsgType → UInt8
  | .reserved => 0
  | .deliver => 1
  | .submit => 2
  | .cancel => 3
  | .deliveryAck => 4
  | .userAck => 5
  | .readAck => 6
  | .deliverReport => 7
  | .submitReport => 8

/-! ## Writing -/

/-- The sub-parameters that a message to send is made of; the other classes
cannot be encoded or are not used for it. -/
def SubParameter.encode (par : SubParameter) (msg : CdmaTeleserviceMsg) (b : SmsPduBuffer) :
    Option SmsPduBuffer :=
  match par with
  | .messageId => encodeMessageId msg.type.value msg.msgId b
  | .userData => encodeUserData msg.userData b
  | .deferredDeliveryTimeRelative =>
      match msg.deferValPeriod with
      | .relative time => encodeBaseParameter 0x07 time b
      | _ => none
  | .deferredDeliveryTimeAbsolute =>
      match msg.deferValPeriod with
      | .absolute time => encodeAbsoluteTime 0x06 time b
      | _ => none
  | .priorityIndicator => encodePriorityInd msg.priority b
  | .replyOption => encodeReplyOption msg.replyOpt b
  | .callbackNumber => encodeCallbackNumber msg.callbackNumber b
  | .tpFailureCause => encodeBaseParameter 0x15 msg.tpFailCause b
  | .reserved _ => some b
  | _ => none

def submitParameters (msg : CdmaTeleserviceMsg) : List SubParameter :=
  [.messageId, .userData] ++
  (match msg.deferValPeriod with
    | .relative _ => [.deferredDeliveryTimeRelative]
    | .absolute _ => [.deferredDeliveryTimeAbsolute]
    | .empty => []) ++
  (if msg.priority ≠ .reserved then [.priorityIndicator] else []) ++
  (if msg.replyOpt.userAck || msg.replyOpt.dak || msg.replyOpt.readAck || msg.replyOpt.report then
    [.replyOption] else []) ++
  (if msg.callbackNumber.szData.length > 0 then [.callbackNumber] else [])

def cancelParameters : List SubParameter := [.messageId]

def deliverReportParameters (msg : CdmaTeleserviceMsg) : List SubParameter :=
  [.messageId] ++ (if msg.tpFailCause ≥ 0x80 then [.tpFailureCause] else []) ++ [.userData]

/-- The message that `CdmaSmsBearerData` makes of a record to send. -/
def teleserviceParameters (msg : CdmaTeleserviceMsg) : Option (List SubParameter) :=
  match msg.type with
  | .submit => some (submitParameters msg)
  | .cancel => some cancelParameters
  | .deliverReport => some (deliverReportParameters msg)
  | _ => none

/-- `CdmaSmsTeleserviceMessage::Encode`. -/
def encodeParameters (msg : CdmaTeleserviceMsg) : List SubParameter → SmsPduBuffer →
    Option SmsPduBuffer
  | [], b => some b
  | par :: pars, b => do
      let b ← par.encode msg b
      encodeParameters msg pars b

/-! ## Scanning -/

/-- A record as a scan meets it: the index of its identifier, its length octet,
and what the scan makes of it. -/
structure Scanned (α : Type) where
  start : Nat
  len : UInt8
  parameter : α
deriving DecidableEq, Repr

def submitParameter (id : UInt8) : SubParameter :=
  if id = 0x00 then .messageId
  else if id = 0x01 then .userData
  else if id = 0x04 then .validityPeriodAbsolute
  else if id = 0x05 then .validityPeriodRelative
  else if id = 0x06 then .deferredDeliveryTimeAbsolute
  else if id = 0x07 then .deferredDeliveryTimeRelative
  else if id = 0x08 then .priorityIndicator
  else if id = 0x09 then .privacyIndicator
  else if id = 0x0A then .replyOption
  else if id = 0x0C then .alertOnMsgDelivery
  else if id = 0x0D then .languageIndicator
  else if id = 0x0E then .callbackNumber
  else if id = 0x11 then .messageDepositIndex
  else .reserved id

def pushParameter (id : UInt8) : SubParameter :=
  if id = 0x00 then .messageId
  else if id = 0x01 then .userData
  else if id = 0x03 then .messageCenterTimeStamp
  else if id = 0x04 then .validityPeriodAbsolute
  else if id = 0x05 then .validityPeriodRelative
  else if id = 0x08 then .priorityIndicator
  else if id = 0x09 then .privacyIndicator
  else if id = 0x0A then .replyOption
  else if id = 0x0B then .numberOfMessages
  else if id = 0x0C then .alertOnMsgDelivery
  else if id = 0x0D then .languageIndicator
  else if id = 0x0E then .callbackNumber
  else if id = 0x0F then .messageDisplayMode
  else if id = 0x11 then .messageDepositIndex
  else if id = 0x16 then .enhancedVmn
  else if id = 0x17 then .enhancedVmnAck
  else .reserved id

def deliverParameter (isCMAS : Bool) (id : UInt8) : SubParameter :=
  if isCMAS ∧ id = 0x01 then .cmasData else pushParameter id

def deliveryAckParameter (id : UInt8) : SubParameter :=
  if id = 0x00 then .messageId
  else if id = 0x01 then .userData
  else if id = 0x03 then .messageCenterTimeStamp
  else if id = 0x14 then .messageStatus
  else .reserved id

def userAckParameter (id : UInt8) : SubParameter :=
  if id = 0x00 then .messageId
  else if id = 0x01 then .userData
  else if id = 0x02 then .userResponseCode
  else if id = 0x03 then .messageCenterTimeStamp
  else if id = 0x11 then .messageDepositIndex
  else .reserved id

def readAckParameter (id : UInt8) : SubParameter :=
  if id = 0x00 then .messageId
  else if id = 0x01 then .userData
  else if id = 0x03 then .messageCenterTimeStamp
  else if id = 0x11 then .messageDepositIndex
  else .reserved id

/-- The loop that the constructors of the messages to read share: `n` more
sub-parameters at most. A length that leads over the end moves nothing. -/
def scanParameters (parameter : UInt8 → SubParameter) : Nat → SmsPduBuffer →
    List (Scanned SubParameter) × SmsPduBuffer
  | 0, b => ([], b)
  | n + 1, b =>
      match b.readByte with
      | none => ([], b)
      | some (id, b') =>
          match b'.readByte with
          | none => ([], b')
          | some (len, b'') =>
              let (pars, b₃) := scanParameters parameter n (b''.moveForward len.toNat)
              (⟨b.index, len, parameter id⟩ :: pars, b₃)

/-- The loop of `GetMessageType` for `n` more records, which is as many as there
are octets. A record that moves nothing has taken two octets. Where an
identifier stops that cannot be read does not matter: without a type the
message is refused. -/
def getMessageTypeLoop : Nat → SmsPduBuffer → UInt8 × SmsPduBuffer
  | 0, b => (0, b)
  | n + 1, b =>
      match b.readByte with
      | none => (0, b)
      | some (id, b') =>
          if id = 0x00 then
            match decodeMessageId (b'.moveBack 1) with
            | none => (0, b'.moveBack 1)
            | some ((type, _), b'') => (type, b'')
          else
            match b'.readByte with
            | none => (0, b')
            | some (len, b'') => getMessageTypeLoop n (b''.moveForward len.toNat)

def getMessageType (b : SmsPduBuffer) : UInt8 × SmsPduBuffer :=
  getMessageTypeLoop b.getSize b

/-- What a type octet says a message to read is, with the parameters it supports. -/
def messageKind (isCMAS : Bool) (type : UInt8) :
    Option (TeleserviceMsgType × (UInt8 → SubParameter)) :=
  if type = 1 then some (.deliver, deliverParameter isCMAS)
  else if type = 2 then some (.submit, submitParameter)
  else if type = 4 then some (.deliveryAck, deliveryAckParameter)
  else if type = 5 then some (.userAck, userAckParameter)
  else if type = 6 then some (.readAck, readAckParameter)
  else none

/-! ## Reading -/

/-- `Decode` of one sub-parameter into its field. The formats of the two periods
are set by the scan, in the order in which the periods are read here. -/
def SubParameter.decode (coder : TextCoder) (par : SubParameter) (msg : CdmaTeleserviceMsg)
    (b : SmsPduBuffer) : Option (CdmaTeleserviceMsg × SmsPduBuffer) :=
  match par with
  | .messageId => do
      let ((_, msgId), b) ← decodeMessageId b
      some ({ msg with msgId := msgId }, b)
  | .userData => do
      let (data, b) ← decodeUserData coder msg.msgId.headerInd b
      some ({ msg with userData := data }, b)
  | .cmasData => do
      let (data, b) ← decodeCmasData b
      some ({ msg with cmasData := data }, b)
  | .userResponseCode => do
      let (respCode, b) ← decodeBaseParameter 0x02 b
      some ({ msg with respCode := respCode }, b)
  | .messageCenterTimeStamp => do
      let (timeStamp, b) ← decodeAbsoluteTime 0x03 b
      some ({ msg with timeStamp := timeStamp }, b)
  | .validityPeriodAbsolute => do
      let (time, b) ← decodeAbsoluteTime 0x04 b
      some ({ msg with valPeriod := .absolute time }, b)
  | .validityPeriodRelative => do
      let (time, b) ← decodeBaseParameter 0x05 b
      some ({ msg with valPeriod := .relative time }, b)
  | .deferredDeliveryTimeAbsolute => do
      let (time, b) ← decodeAbsoluteTime 0x06 b
      some ({ msg with deferValPeriod := .absolute time }, b)
  | .deferredDeliveryTimeRelative => do
      let (time, b) ← decodeBaseParameter 0x07 b
      some ({ msg with deferValPeriod := .relative time }, b)
  | .priorityIndicator => do
      let (priority, b) ← decodePriorityInd b
      some ({ msg with priority := priority }, b)
  | .privacyIndicator => do
      let (privacy, b) ← decodePrivacyInd b
      some ({ msg with privacy := privacy }, b)
  | .replyOption => do
      let (replyOpt, b) ← decodeReplyOption b
      some ({ msg with replyOpt := replyOpt }, b)
  | .numberOfMessages => do
      let (numMsg, b) ← decodeNumberMessages b
      some ({ msg with numMsg := numMsg }, b)
  | .alertOnMsgDelivery => do
      let (alertPriority, b) ← decodeAlertPriority b
      some ({ msg with alertPriority := alertPriority }, b)
  | .languageIndicator => do
      let (language, b) ← decodeLanguageInd b
      some ({ msg with language := language }, b)
  | .callbackNumber => do
      let (address, b) ← decodeCallbackNumber msg.callbackNumber b
      some ({ msg with callbackNumber := address }, b)
  | .messageDisplayMode => do
      let (displayMode, b) ← decodeDisplayMode b
      some ({ msg with displayMode := displayMode }, b)
  | .messageDepositIndex => do
      let (depositId, b) ← decodeDepositIndex b
      some ({ msg with depositId := depositId }, b)
  | .messageStatus => do
      let (msgStatus, b) ← decodeMessageStatus b
      some ({ msg with msgStatus := msgStatus }, b)
  | .tpFailureCause => do
      let (tpFailCause, b) ← decodeBaseParameter 0x15 b
      some ({ msg with tpFailCause := tpFailCause }, b)
  | .enhancedVmn => do
      let (vmn, b) ← decodeEnhancedVmn b
      some ({ msg with vmn := vmn }, b)
  | .enhancedVmnAck => do
      let (vmnAck, b) ← decodeEnhancedVmnAck b
      some ({ msg with vmnAck := vmnAck }, b)
  | .reserved id => do
      let b ← decodeReservedParameter id b
      some (msg, b)

def decodeSubParameters (coder : TextCoder) : List SubParameter → CdmaTeleserviceMsg →
    SmsPduBuffer → Option (CdmaTeleserviceMsg × SmsPduBuffer)
  | [], msg, b => some (msg, b)
  | par :: pars, msg, b => do
      let (msg, b) ← par.decode coder msg b
      decodeSubParameters coder pars msg b

/-- `CdmaSmsTeleserviceMessage::Decode`. -/
def decodeTeleservice (coder : TextCoder) (pars : List SubParameter) (msg : CdmaTeleserviceMsg)
    (b : SmsPduBuffer) : Option (CdmaTeleserviceMsg × SmsPduBuffer) :=
  if pars = [] then none else decodeSubParameters coder pars msg b

end TelephonySms.Cdma
