import TelephonySms.Pdu.CodeType

/-! # CDMA message records

The enumerations and records of `cdma_sms_common.h` that the codec reads and
writes. A character array with its length is the list of its characters. The
members of a union have most of their fields in common: one record has them
all, next to the field that says which member is live, and a field that the
live member lacks keeps its zero.
-/

namespace TelephonySms.Cdma

open TelephonySms.Pdu

/-! ## Enumerations -/

inductive CdmaTransportMsgType where
  | p2p
  | broadcast
  | ack
  | reserved
deriving DecidableEq, Repr

inductive TeleserviceMsgType where
  | reserved
  | deliver
  | submit
  | cancel
  | deliveryAck
  | userAck
  | readAck
  | deliverReport
  | submitReport
deriving DecidableEq, Repr

inductive SmsPriorityIndicator where
  | normal
  | interactive
  | urgent
  | emergency
  | reserved
deriving DecidableEq, Repr

def SmsPriorityIndicator.value : SmsPriorityIndicator → UInt8
  | .normal => 0
  | .interactive => 1
  | .urgent => 2
  | .emergency => 3
  | .reserved => 4

/-- `SmsPriorityIndicator(v)` for two bits. -/
def SmsPriorityIndicator.ofValue (v : UInt8) : SmsPriorityIndicator :=
  if v = 0 then .normal
  else if v = 1 then .interactive
  else if v = 2 then .urgent
  else if v = 3 then .emergency
  else .reserved

inductive SmsPrivacyIndicator where
  | notRestricted
  | restricted
  | confidential
  | secret
deriving DecidableEq, Repr

def SmsPrivacyIndicator.ofValue (v : UInt8) : SmsPrivacyIndicator :=
  if v = 0 then .notRestricted
  else if v = 1 then .restricted
  else if v = 2 then .confidential
  else .secret

inductive SmsAlertPriority where
  | default
  | low
  | medium
  | high
deriving DecidableEq, Repr

def SmsAlertPriority.ofValue (v : UInt8) : SmsAlertPriority :=
  if v = 0 then .default
  else if v = 1 then .low
  else if v = 2 then .medium
  else .high

inductive SmsDisplayMode where
  | immediate
  | defaultSetting
  | userInvoke
  | reserved
deriving DecidableEq, Repr

def SmsDisplayMode.ofValue (v : UInt8) : SmsDisplayMode :=
  if v = 0 then .immediate
  else if v = 1 then .defaultSetting
  else if v = 2 then .userInvoke
  else .reserved

inductive SmsEncodingType where
  | octet
  | epm
  | ascii7Bit
  | ia5
  | unicode
  | shiftJis
  | korean
  | latinHebrew
  | latin
  | gsm7Bit
  | gsmDcs
  | eucKr
  | reserved
deriving DecidableEq, Repr

def SmsEncodingType.value : SmsEncodingType → UInt8
  | .octet => 0x00
  | .epm => 0x01
  | .ascii7Bit => 0x02
  | .ia5 => 0x03
  | .unicode => 0x04
  | .shiftJis => 0x05
  | .korean => 0x06
  | .latinHebrew => 0x07
  | .latin => 0x08
  | .gsm7Bit => 0x09
  | .gsmDcs => 0x0A
  | .eucKr => 0x10
  | .reserved => 0x11

def getEncodingType (v : UInt8) : SmsEncodingType :=
  if v = 0x00 then .octet
  else if v = 0x01 then .epm
  else if v = 0x02 then .ascii7Bit
  else if v = 0x03 then .ia5
  else if v = 0x04 then .unicode
  else if v = 0x05 then .shiftJis
  else if v = 0x06 then .korean
  else if v = 0x07 then .latinHebrew
  else if v = 0x08 then .latin
  else if v = 0x09 then .gsm7Bit
  else if v = 0x0A then .gsmDcs
  else if v = 0x10 then .eucKr
  else .reserved

theorem getEncodingType_value (encodeType : SmsEncodingType) :
    getEncodingType encodeType.value = encodeType := by
  cases encodeType <;> rfl

inductive TransportErrClass where
  | none
  | temporary
  | permanent
deriving DecidableEq, Repr

def TransportErrClass.value : TransportErrClass → UInt8
  | .none => 0
  | .temporary => 2
  | .permanent => 3

inductive TransportSubAddrType where
  | nsap
  | user
  | reserved
deriving DecidableEq, Repr

def TransportSubAddrType.value : TransportSubAddrType → UInt8
  | .nsap => 0
  | .user => 1
  | .reserved => 2

def TransportSubAddrType.ofValue (v : UInt8) : TransportSubAddrType :=
  if v = 0 then .nsap else if v = 1 then .user else .reserved

/-! ## Sub-parameters -/

structure SmsTeleSvcMsgId where
  msgId : UInt16
  headerInd : Bool
deriving DecidableEq, Repr

structure SmsTeleSvcAddr where
  digitMode : Bool
  numberType : UInt8
  numberPlan : UInt8
  szData : List UInt8
deriving DecidableEq, Repr

structure SmsReplyOption where
  userAck : Bool
  dak : Bool
  readAck : Bool
  report : Bool
deriving DecidableEq, Repr

structure SmsTeleSvcUserData where
  encodeType : SmsEncodingType
  msgType : UInt8
  userData : SmsUDPackage
deriving DecidableEq, Repr

/-- The codes of an alert are kept as they are read, with or without an
enumerator. -/
structure SmsTeleSvcCmasData where
  alertText : List UInt8
  category : UInt8
  responseType : UInt8
  severity : UInt8
  urgency : UInt8
  certainty : UInt8
  id : Nat
  alertHandle : UInt8
  expires : SmsTimeAbs
  language : UInt8
deriving DecidableEq, Repr

structure SmsEnhancedVmn where
  priority : SmsPriorityIndicator
  passwordReq : Bool
  setupReq : Bool
  pwChangeReq : Bool
  minPwLen : UInt8
  maxPwLen : UInt8
  vmNumUnheardMsg : UInt8
  vmMailboxAlmFull : Bool
  vmMailboxFull : Bool
  replyAllowed : Bool
  faxIncluded : Bool
  vmLen : UInt16
  vmRetDay : UInt8
  vmMsgId : UInt16
  vmMailboxId : UInt16
  anDigitMode : Bool
  anNumberType : UInt8
  anNumberPlan : UInt8
  anChar : List UInt8
  cliDigitMode : Bool
  cliNumberType : UInt8
  cliNumberPlan : UInt8
  cliChar : List UInt8
deriving DecidableEq, Repr

structure SmsEnhancedVmnAck where
  vmMailboxId : UInt16
  vmNumUnheardMsg : UInt8
  daVmMsgId : List UInt16
  paVmMsgId : List UInt16
deriving DecidableEq, Repr

def timeZero : SmsTimeAbs := ⟨0, 0, 0, 0, 0, 0, 0⟩

/-! ## Messages -/

/-- `CdmaTeleserviceMsg`. `language` and `msgStatus` hold any octet. -/
structure CdmaTeleserviceMsg where
  type : TeleserviceMsgType
  msgId : SmsTeleSvcMsgId
  userData : SmsTeleSvcUserData
  cmasData : SmsTeleSvcCmasData
  timeStamp : SmsTimeAbs
  valPeriod : SmsTimeStamp
  deferValPeriod : SmsTimeStamp
  priority : SmsPriorityIndicator
  privacy : SmsPrivacyIndicator
  replyOpt : SmsReplyOption
  numMsg : Nat
  alertPriority : SmsAlertPriority
  language : UInt8
  callbackNumber : SmsTeleSvcAddr
  displayMode : SmsDisplayMode
  depositId : UInt16
  vmn : SmsEnhancedVmn
  vmnAck : SmsEnhancedVmnAck
  respCode : UInt8
  msgStatus : UInt8
  tpFailCause : UInt8
deriving DecidableEq, Repr

structure TransportAddr where
  digitMode : Bool
  numberMode : Bool
  numberType : UInt8
  numberPlan : UInt8
  szData : List UInt8
deriving DecidableEq, Repr

structure TransportSubAddr where
  type : TransportSubAddrType
  odd : Bool
  szData : List UInt8
deriving DecidableEq, Repr

structure TransportCauseCode where
  transReplySeq : UInt8
  errorClass : TransportErrClass
  causeCode : UInt8
deriving DecidableEq, Repr

structure CdmaTransportMsg where
  type : CdmaTransportMsgType
  teleserviceId : UInt16
  serviceCtg : UInt16
  address : TransportAddr
  subAddress : TransportSubAddr
  replySeq : UInt8
  telesvcMsg : CdmaTeleserviceMsg
  causeCode : TransportCauseCode
deriving DecidableEq, Repr

/-! ## Zeroed records -/

def SmsTeleSvcUserData.zero : SmsTeleSvcUserData := ⟨.octet, 0, ⟨[], []⟩⟩

def SmsTeleSvcCmasData.zero : SmsTeleSvcCmasData := ⟨[], 0, 0, 0, 0, 0, 0, 0, timeZero, 0⟩

def SmsEnhancedVmn.zero : SmsEnhancedVmn where
  priority := .normal
  passwordReq := false
  setupReq := false
  pwChangeReq := false
  minPwLen := 0
  maxPwLen := 0
  vmNumUnheardMsg := 0
  vmMailboxAlmFull := false
  vmMailboxFull := false
  replyAllowed := false
  faxIncluded := false
  vmLen := 0
  vmRetDay := 0
  vmMsgId := 0
  vmMailboxId := 0
  anDigitMode := false
  anNumberType := 0
  anNumberPlan := 0
  anChar := []
  cliDigitMode := false
  cliNumberType := 0
  cliNumberPlan := 0
  cliChar := []

def CdmaTeleserviceMsg.zero : CdmaTeleserviceMsg where
  type := .reserved
  msgId := ⟨0, false⟩
  userData := .zero
  cmasData := .zero
  timeStamp := timeZero
  valPeriod := .empty
  deferValPeriod := .empty
  priority := .normal
  privacy := .notRestricted
  replyOpt := ⟨false, false, false, false⟩
  numMsg := 0
  alertPriority := .default
  language := 0
  callbackNumber := ⟨false, 0, 0, []⟩
  displayMode := .immediate
  depositId := 0
  vmn := .zero
  vmnAck := ⟨0, 0, [], []⟩
  respCode := 0
  msgStatus := 0
  tpFailCause := 0

/-- What `memset_s` leaves before a message is read. -/
def CdmaTransportMsg.zero : CdmaTransportMsg where
  type := .p2p
  teleserviceId := 0
  serviceCtg := 0
  address := ⟨false, false, 0, 0, []⟩
  subAddress := ⟨.nsap, false, []⟩
  replySeq := 0
  telesvcMsg := .zero
  causeCode := ⟨0, .none, 0⟩

end TelephonySms.Cdma
