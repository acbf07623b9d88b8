import TelephonySms.Pdu.Submit

/-! # Messages to submit

The submitting side of `GsmSmsMessage`, with the records of
`sms_base_message.h`: a default message is made once, and the senders put the
headers and the octets of each cell into it.
-/

namespace TelephonySms.Pdu

structure SmsConcat where
  msgRef : UInt16
  seqNum : UInt16
  totalSeg : UInt16
  is8Bits : Bool
deriving DecidableEq, Repr

/-- One cell of a split message: its text, and the octets it is encoded to. -/
structure SplitInfo where
  text : List UInt8
  encodeData : List UInt8
  encodeType : DataCodingScheme
  langId : UInt8
deriving DecidableEq, Repr

/-- The characters of a string before its terminator. -/
def cString (octets : List UInt8) : List UInt8 := octets.takeWhile (· ≠ 0)

/-- A number that is too long is cut, one character earlier without a `+`. -/
def setSmsTpduDestAddress (desAddr : List UInt8) : AddressNumber where
  ton := 0
  npi := 1
  address :=
    cString <|
      if desAddr.length < 21 then desAddr
      else if desAddr.head? = some 0x2B then desAddr.take 21
      else desAddr.take 20

def createDefaultSubmit (desAddr : List UInt8) (bStatusReport : Bool)
    (codingScheme : DataCodingScheme) : SmsSubmit where
  bRejectDup := false
  bStatusReport := bStatusReport
  bHeaderInd := false
  bReplyPath := false
  msgRef := 0
  vpf := .notPresent
  destAddress := setSmsTpduDestAddress desAddr
  pid := 0
  dcs := { SmsDcs.zero with msgClass := .classUnknown, codingScheme := codingScheme }
  validityPeriod := .empty
  userData := .zero

/-! ## Headers

Each function gives the header it adds. `SetHeaderReply` adds none: the reply
address of a message is never set. -/

def setHeaderConcat (concat : SmsConcat) : List SmsUDH :=
  if concat.is8Bits then
    [.concat8Bit concat.msgRef.toUInt8 concat.totalSeg.toUInt8 concat.seqNum.toUInt8]
  else [.concat16Bit concat.msgRef concat.totalSeg.toUInt8 concat.seqNum.toUInt8]

def setHeaderLang (codingType : DataCodingScheme) (langId : UInt8) : List SmsUDH :=
  if codingType = .dataCoding7Bit ∧ langId ≠ 0 then [.singleShift langId] else []

/-! ## Octets -/

/-- The octets of a message, of which there are none when it cannot be encoded:
`GetSubmitEncodeInfo` returns the empty record all the same. -/
def getSubmitEncodeInfo (submit : SmsSubmit) : List UInt8 :=
  (encodeSmsPdu (.submit submit) 255).getD []

theorem submitTpduType_submit (pSubmit : SmsSubmit) : submitTpduType pSubmit &&& 0x01 = 0x01 := by
  have hmask := vpfMask_cases pSubmit.vpf
  unfold submitTpduType
  generalize (pSubmit.bHeaderInd && ctSmsc ≠ pSubmit.destAddress.address) = headerInd
  generalize vpfMask pSubmit.vpf = mask at hmask
  obtain rfl | rfl | rfl | rfl := hmask <;> cases pSubmit.bRejectDup <;>
    cases pSubmit.bStatusReport <;> cases headerInd <;> cases pSubmit.bReplyPath <;> decide

/-- Octets with the first two parameters of a submitted message that accepts
duplicates, or none. -/
def AcceptsDup (msgRef : UInt8) (octets : List UInt8) : Prop :=
  octets = [] ∨ ∃ flags rest, octets = flags :: msgRef :: rest ∧ flags &&& 0x01 = 0x01 ∧
    flags &&& 0x04 = 0

theorem getSubmitEncodeInfo_acceptsDup (submit : SmsSubmit) (h : submit.bRejectDup = false) :
    AcceptsDup submit.msgRef (getSubmitEncodeInfo submit) := by
  unfold getSubmitEncodeInfo
  cases hencode : encodeSmsPdu (.submit submit) 255 with
  | none => exact .inl rfl
  | some octets =>
      obtain ⟨rest, hfront⟩ := encodeSmsPdu_submit_front hencode
      exact .inr ⟨_, rest, hfront.symm, submitTpduType_submit submit,
        (submitTpduType_rejectDup submit).mpr h⟩

end TelephonySms.Pdu
