import TelephonySms.Pdu.CodeType
import TelephonySms.Receive.Combine

/-! # The receive handlers

`SmsReceiveHandler` leaves three methods to its subclasses: the direct path
`HandleSmsByType`, and the pair that replaces it while the data share is down,
`HandleAck` at arrival and `HandleRemainDataShare` when the queue is drained.
The GSM and the CDMA handler are the two instances.
-/

namespace TelephonySms.Receive

open TelephonySms.Pdu

inductive AckIncomeCause where
  | resultOk
  | processed
  | repeatedError
  | outOfMemory
  | invalidTeleserviceId
  | unknownError
deriving DecidableEq, Repr

/-- `ReplySmsToSmsc` tells its caller whether the network got a positive answer. -/
def AckIncomeCause.isOk (c : AckIncomeCause) : Bool := c = .resultOk

/-- The virtual methods of `SmsReceiveHandler`. -/
structure SmsReceiveHandler (μ : Type*) where
  handleSmsByType : DataShare → SmsTable → μ → AckIncomeCause × SmsTable × List Effect
  handleAck : DataShare → μ → AckIncomeCause × List Effect
  handleRemainDataShare : DataShare → SmsTable → μ → SmsTable × List Effect

/-! ## GSM -/

structure GsmSmsMessage extends SmsBaseMessage where
  protocolId : Nat
  messageClass : SmsMessageClass
  isMwiSet : Bool
  isMwiClear : Bool
deriving DecidableEq, Repr

namespace GsmSmsMessage

def getIsTypeZeroInd (m : GsmSmsMessage) : Bool := m.protocolId = 0x40

def getIsSIMDataTypeDownload (m : GsmSmsMessage) : Bool :=
  m.messageClass = .simMessage && (m.protocolId = 0x7f || m.protocolId = 0x7c)

def isSpecialMessage (m : GsmSmsMessage) : Bool :=
  m.getIsTypeZeroInd || m.getIsSIMDataTypeDownload || m.isMwiSet || m.isMwiClear

/-- The indexer a GSM handler builds, raw user data included. -/
def indexer (m : GsmSmsMessage) : SmsReceiveIndexer :=
  { m.toIndexer false with
    rawUserData := m.rawUserData
    rawWapPushUserData := m.rawWapPushUserData }

end GsmSmsMessage

def invalidSmsPort : Int := 0x157b

section CreateMessage

variable (createMessage : Pdu → Option SmsBaseMessage)

namespace GsmSmsReceiveHandler

def checkSmsSupport (slotId : Nat) (ds : DataShare) (t : SmsTable) :
    AckIncomeCause × SmsTable × List Effect :=
  if !ds.smsCapable then (.processed, t, [])
  else
    let (_, t, out) := deleteExpireSmsFromDB ds slotId t
    (.resultOk, t, out)

/-- A text part that is stored already is not stored again. -/
def isRepeated (t : SmsTable) (m : GsmSmsMessage) : Bool :=
  m.indexer.getIsText && m.isConcatMsg && isRepeatedMessagePart t m.indexer

def handleNormalSmsByType (slotId : Nat) (ds : DataShare) (t : SmsTable) (m : GsmSmsMessage) :
    AckIncomeCause × SmsTable × List Effect :=
  if isRepeated t m then (.resultOk, t, [])
  else if m.indexer.destPort = invalidSmsPort then (.resultOk, t, [])
  else
    match addMsgToDB ds slotId t m.indexer with
    | none => (.unknownError, t, [])
    | some (t, indexer) => (.resultOk, combineMessagePart createMessage ds slotId t indexer)

def handleSmsByType (slotId : Nat) (ds : DataShare) (t : SmsTable) (m : GsmSmsMessage) :
    AckIncomeCause × SmsTable × List Effect :=
  if m.isSpecialMessage then (.resultOk, t, [])
  else
    let (ret, t, out) := checkSmsSupport slotId ds t
    if ret ≠ .resultOk then (ret, t, out)
    else
      let (ret, t, sent) := handleNormalSmsByType createMessage slotId ds t m
      (ret, t, out ++ sent)

def handleAck (ds : DataShare) (m : GsmSmsMessage) : AckIncomeCause × List Effect :=
  if m.isSpecialMessage then (.resultOk, [])
  else if !ds.smsCapable then (.processed, [])
  else (.resultOk, [])

/-- Unlike `HandleNormalSmsByType` this stores a message for the invalid port. -/
def handleRemainDataShare (slotId : Nat) (ds : DataShare) (t : SmsTable) (m : GsmSmsMessage) :
    SmsTable × List Effect :=
  let (_, t, out) := deleteExpireSmsFromDB ds slotId t
  if isRepeated t m then (t, out)
  else
    match addMsgToDB ds slotId t m.indexer with
    | none => (t, out)
    | some (t, indexer) =>
        let (t, sent) := combineMessagePart createMessage ds slotId t indexer
        (t, out ++ sent)

end GsmSmsReceiveHandler

def gsmSmsReceiveHandler (slotId : Nat) : SmsReceiveHandler GsmSmsMessage where
  handleSmsByType := GsmSmsReceiveHandler.handleSmsByType createMessage slotId
  handleAck := GsmSmsReceiveHandler.handleAck
  handleRemainDataShare := GsmSmsReceiveHandler.handleRemainDataShare createMessage slotId

/-! ## CDMA -/

namespace CdmaSmsReceiveHandler

def wemt : Nat := 0x1005
def cmt95 : Nat := 0x1002

/-- The branches `HandleSmsByType` and `HandleAck` share: what they answer at
once, or `none` for a message that goes on to storage. The status report of a
CDMA sender that is gone is such a message. -/
def answeredAtOnce (slotId : Nat) (senderAlive : Bool) (m : CdmaSmsMessage) :
    Option (AckIncomeCause × List Effect) :=
  if m.isBroadcastMsg then some (.resultOk, [.cbBroadcast slotId m])
  else if wemt ≠ m.transTeleService ∧ cmt95 ≠ m.transTeleService then some (.resultOk, [])
  else if m.isStatusReport && senderAlive then
    some (.resultOk, [.statusReport m.msgRef m.rawPdu])
  else none

def isRepeated (t : SmsTable) (m : CdmaSmsMessage) : Bool :=
  (m.toIndexer true).getIsText && m.isConcatMsg && isRepeatedMessagePart t (m.toIndexer true)

/-- Here expired rows are deleted after the insert, and a failure ends the call
with the new row in place. -/
def handleSmsOtherSvcid (slotId : Nat) (ds : DataShare) (t : SmsTable) (m : CdmaSmsMessage) :
    AckIncomeCause × SmsTable × List Effect :=
  if isRepeated t m then (.resultOk, t, [])
  else
    match addMsgToDB ds slotId t (m.toIndexer true) with
    | none => (.unknownError, t, [])
    | some (t, indexer) =>
        match deleteExpireSmsFromDB ds slotId t with
        | (false, t, out) => (.unknownError, t, out)
        | (true, t, out) =>
            let (t, sent) := combineMessagePart createMessage ds slotId t indexer
            (.resultOk, t, out ++ sent)

def handleSmsByType (slotId : Nat) (senderAlive : Bool) (ds : DataShare) (t : SmsTable)
    (m : CdmaSmsMessage) : AckIncomeCause × SmsTable × List Effect :=
  match answeredAtOnce slotId senderAlive m with
  | some (ret, out) => (ret, t, out)
  | none => handleSmsOtherSvcid createMessage slotId ds t m

def handleAck (slotId : Nat) (senderAlive : Bool) (m : CdmaSmsMessage) :
    AckIncomeCause × List Effect :=
  match answeredAtOnce slotId senderAlive m with
  | some answer => answer
  | none => (.resultOk, [])

def handleRemainDataShare (slotId : Nat) (ds : DataShare) (t : SmsTable) (m : CdmaSmsMessage) :
    SmsTable × List Effect :=
  if isRepeated t m then (t, [])
  else
    match addMsgToDB ds slotId t (m.toIndexer true) with
    | none => (t, [])
    | some (t, indexer) =>
        match deleteExpireSmsFromDB ds slotId t with
        | (false, t, out) => (t, out)
        | (true, t, out) =>
            let (t, sent) := combineMessagePart createMessage ds slotId t indexer
            (t, out ++ sent)

end CdmaSmsReceiveHandler

/-- `senderAlive` says that the weak reference to the CDMA sender has not expired. -/
def cdmaSmsReceiveHandler (slotId : Nat) (senderAlive : Bool) :
    SmsReceiveHandler CdmaSmsMessage where
  handleSmsByType := CdmaSmsReceiveHandler.handleSmsByType createMessage slotId senderAlive
  handleAck := fun _ => CdmaSmsReceiveHandler.handleAck slotId senderAlive
  handleRemainDataShare := CdmaSmsReceiveHandler.handleRemainDataShare createMessage slotId

end CreateMessage

end TelephonySms.Receive
