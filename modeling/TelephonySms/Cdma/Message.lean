import TelephonySms.Cdma.Transport
import TelephonySms.Text.Split

/-! # Messages that are read

`CdmaSmsMessage::CreateMessage`: the transport message is decoded, and what its kind has is
taken over into the message.
-/

namespace TelephonySms.Cdma

open TelephonySms.Pdu TelephonySms.Text

/-- What the message keeps of a PDU. Only a message to send has its port set. -/
structure CdmaSmsMessage where
  originatingAddress : List UInt8 := []
  msgRef : UInt16 := 0
  bHeaderInd : Bool := false
  headerDataLen : Nat := 0
  smsUserData : SmsUDPackage := ⟨[], []⟩
  userHeaders : List SmsUDH := []
  visibleMessageBody : List UInt8 := []
  /-- `uint16_t destPort_ = -1` -/
  destPort : UInt16 := 0xFFFF
deriving DecidableEq, Repr

/-- The coders of text to UTF-8. -/
structure BodyCoders where
  iconv : Iconv
  /-- `ShiftjisToUtf8` -/
  shiftjisToUtf8 : List UInt8 → List UInt8
  /-- `Gsm7bitToUtf8` on the octets of the record that holds the user data -/
  gsm7bitRecordToUtf8 : SmsUDPackage → List UInt8
  /-- `EuckrToUtf8` on the octets of that record -/
  euckrRecordToUtf8 : SmsUDPackage → List UInt8

/-- The text of user data in its coding. -/
def visibleText (coders : BodyCoders) (userData : SmsTeleSvcUserData) : List UInt8 :=
  let octets := userData.userData.data
  match userData.encodeType with
  | .gsm7Bit => coders.gsm7bitRecordToUtf8 userData.userData
  | .korean | .eucKr => coders.euckrRecordToUtf8 userData.userData
  | .ia5 | .ascii7Bit | .latinHebrew | .latin | .octet => octets
  | .shiftJis => coders.shiftjisToUtf8 octets
  | _ => coders.iconv.utf16ToUtf8 (ucs2Units octets)

namespace CdmaSmsMessage

variable (coders : BodyCoders) (message : CdmaSmsMessage)

/-- `MAX_UD_HEADER_NUM` -/
def maxUdHeaderNum : Nat := 7

def analsisHeader (userData : SmsTeleSvcUserData) : CdmaSmsMessage :=
  let headers := userData.userData.header
  { message with
    headerDataLen := userData.userData.data.length
    smsUserData := userData.userData
    userHeaders :=
      if message.bHeaderInd ∧ headers.length > 0 ∧ headers.length ≤ maxUdHeaderNum then headers
      else message.userHeaders }

def analsisUserData (userData : SmsTeleSvcUserData) : CdmaSmsMessage :=
  let message := message.analsisHeader userData
  { message with
    visibleMessageBody := visibleText coders userData ++ message.visibleMessageBody }

/-- `AnalsisDeliverMsg` and `AnalsisSubmitMsg` -/
def analsisDeliverMsg (msg : CdmaTeleserviceMsg) : CdmaSmsMessage :=
  { message with msgRef := msg.msgId.msgId, bHeaderInd := msg.msgId.headerInd }.analsisUserData
    coders msg.userData

/-- A message with the reserved teleservice is left as it is. -/
def analysisP2pMsg (p2pMsg : CdmaTransportMsg) : CdmaSmsMessage :=
  if p2pMsg.teleserviceId = 0xFFFF then message
  else
    let message := { message with originatingAddress := cString p2pMsg.address.szData }
    let telesvcMsg := p2pMsg.telesvcMsg
    match telesvcMsg.type with
    | .deliver => message.analsisDeliverMsg coders telesvcMsg
    | .deliveryAck => message.analsisUserData coders telesvcMsg.userData
    | .submitReport => message.analsisUserData coders telesvcMsg.userData
    | .submit => message.analsisDeliverMsg coders telesvcMsg
    | _ => message

/-- The text of an alert, whose coding stays zero. -/
def analsisCMASMsg (msg : CdmaTeleserviceMsg) : CdmaSmsMessage :=
  message.analsisUserData coders
    { SmsTeleSvcUserData.zero with encodeType := .octet, userData := ⟨[], msg.cmasData.alertText⟩ }

def analysisCbMsg (cbMsg : CdmaTransportMsg) : CdmaSmsMessage :=
  let telesvcMsg := cbMsg.telesvcMsg
  if telesvcMsg.type ≠ .deliver then message
  else if isCMAS cbMsg.serviceCtg then message.analsisCMASMsg coders telesvcMsg
  else message.analsisDeliverMsg coders telesvcMsg

def analsisAckMsg (ackMsg : CdmaTransportMsg) : CdmaSmsMessage :=
  { message with originatingAddress := cString ackMsg.address.szData }

/-- `CreateMessage` and `PduAnalysis` on the octets of the PDU. -/
def createMessage (coder : TextCoder) (pdu : List UInt8) : Option CdmaSmsMessage :=
  (decodeTransport coder pdu).bind fun msg =>
    match msg.type with
    | .p2p => some (analysisP2pMsg coders {} msg)
    | .broadcast => some (analysisCbMsg coders {} msg)
    | .ack => some (analsisAckMsg {} msg)
    | .reserved => none

def getDestPort : Int16 := message.destPort.toInt16

/-- The first header of a concatenated message. -/
def getConcatMsg : Option SmsConcat :=
  message.smsUserData.header.findSome? fun
    | .concat8Bit msgRef totalSeg seqNum =>
        some ⟨msgRef.toUInt16, seqNum.toUInt16, totalSeg.toUInt16, true⟩
    | .concat16Bit msgRef totalSeg seqNum =>
        some ⟨msgRef, seqNum.toUInt16, totalSeg.toUInt16, false⟩
    | _ => none

/-! ## The port -/

theorem analysisP2pMsg_destPort (msg : CdmaTransportMsg) :
    (message.analysisP2pMsg coders msg).destPort = message.destPort := by
  unfold analysisP2pMsg
  dsimp only
  split
  · rfl
  · split <;> rfl

theorem analysisCbMsg_destPort (msg : CdmaTransportMsg) :
    (message.analysisCbMsg coders msg).destPort = message.destPort := by
  unfold analysisCbMsg
  dsimp only
  split
  · rfl
  · split <;> rfl

/-- No kind of message that is read sets the port. -/
theorem createMessage_getDestPort {coder : TextCoder} {pdu : List UInt8}
    {m : CdmaSmsMessage} (h : createMessage coders coder pdu = some m) : m.getDestPort = -1 := by
  obtain ⟨msg, -, hm⟩ := Option.bind_eq_some_iff.mp h
  have hport : m.destPort = 0xFFFF := by
    cases htype : msg.type with
    | p2p =>
        rw [htype] at hm
        rw [← Option.some.inj hm]
        exact analysisP2pMsg_destPort coders {} msg
    | broadcast =>
        rw [htype] at hm
        rw [← Option.some.inj hm]
        exact analysisCbMsg_destPort coders {} msg
    | ack =>
        rw [htype] at hm
        rw [← Option.some.inj hm]
        rfl
    | reserved => simp [htype] at hm
  rw [getDestPort, hport]
  decide

end CdmaSmsMessage

end TelephonySms.Cdma
