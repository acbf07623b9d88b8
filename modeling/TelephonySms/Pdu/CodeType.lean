import Mathlib.Data.List.Basic

/-! # PDU code types

The enumerations and records of `gsm_pdu_code_type.h` and
`sms_pdu_code_type.h`. A C string is the list of its characters before the
terminator, and an array with a separate count is the list of the counted
elements. A union together with the field that says which member is live is
one inductive type.
-/

namespace TelephonySms.Pdu

inductive SmsMessageClass where
  | instantMessage
  | optionalMessage
  | simMessage
  | forwardMessage
  | classUnknown
deriving DecidableEq, Repr

inductive PduSchemeGroup where
  | codingGeneralGroup
  | smsClassGroup
  | codingDeletionGroup
  | codingDiscardGroup
  | codingStoreGroup
  | codingUnknownGroup
deriving DecidableEq, Repr

inductive DataCodingScheme where
  | dataCoding7Bit
  | dataCoding8Bit
  | dataCodingUcs2
  | dataCodingAuto
  | dataCodingEuckr
  | dataCodingAscii7Bit
deriving DecidableEq, Repr

inductive SmsIndicatorType where
  | voiceIndicator
  | voice2Indicator
  | faxIndicator
  | emailIndicator
  | otherIndicator
deriving DecidableEq, Repr

/-- `DecodeSubmit` casts a masked octet to `enum SmsVpf`, so numbers without an
enumerator occur. -/
inductive SmsVpf where
  | notPresent
  | enhanced
  | relative
  | absolute
  | other (value : UInt8)
deriving DecidableEq, Repr

def SmsVpf.ofValue (value : UInt8) : SmsVpf :=
  if value = 0 then .notPresent
  else if value = 1 then .enhanced
  else if value = 2 then .relative
  else if value = 3 then .absolute
  else .other value

structure SmsTimeAbs where
  year : UInt8
  month : UInt8
  day : UInt8
  hour : UInt8
  minute : UInt8
  second : UInt8
  timeZone : Int
deriving DecidableEq, Repr

/-- The format and the member of the union it selects. -/
inductive SmsTimeStamp where
  | empty
  | relative (time : UInt8)
  | absolute (time : SmsTimeAbs)
deriving DecidableEq, Repr

structure SmsDcs where
  bCompressed : Bool
  bMWI : Bool
  bIndActive : Bool
  msgClass : SmsMessageClass
  codingScheme : DataCodingScheme
  codingGroup : PduSchemeGroup
  indType : SmsIndicatorType
deriving DecidableEq, Repr

structure AddressNumber where
  ton : UInt8
  npi : UInt8
  address : List UInt8
deriving DecidableEq, Repr

/-- The header type and the member of the union it selects. `other` holds a
type for which the code reads and writes no member. -/
inductive SmsUDH where
  | concat8Bit (msgRef totalSeg seqNum : UInt8)
  | concat16Bit (msgRef : UInt16) (totalSeg seqNum : UInt8)
  | appPort8Bit (destPort originPort : UInt8)
  | appPort16Bit (destPort originPort : UInt16)
  | specialSms (bStore : Bool) (msgInd waitMsgNum : UInt16)
  | alternateReplyAddress (alternateAddress : AddressNumber)
  | singleShift (langId : UInt8)
  | lockingShift (langId : UInt8)
  | other (udhType : UInt8)
deriving DecidableEq, Repr

structure SmsUDPackage where
  header : List SmsUDH
  data : List UInt8
deriving DecidableEq, Repr

/-- The raw user data kept for WAP push: `udl` and the octets copied. -/
structure SmsTpud where
  udl : UInt8
  ud : List UInt8
deriving DecidableEq, Repr

structure SmsSubmit where
  bRejectDup : Bool
  bStatusReport : Bool
  bHeaderInd : Bool
  bReplyPath : Bool
  msgRef : UInt8
  vpf : SmsVpf
  destAddress : AddressNumber
  pid : UInt8
  dcs : SmsDcs
  validityPeriod : SmsTimeStamp
  userData : SmsUDPackage
deriving DecidableEq, Repr

structure SmsDeliver where
  bMoreMsg : Bool
  bStatusReport : Bool
  bHeaderInd : Bool
  bReplyPath : Bool
  originAddress : AddressNumber
  pid : UInt8
  dcs : SmsDcs
  timeStamp : SmsTimeStamp
  userData : SmsUDPackage
  udData : SmsTpud
deriving DecidableEq, Repr

inductive SmsReportType where
  | positive
  | negative
deriving DecidableEq, Repr

structure SmsDeliverReport where
  reportType : SmsReportType
  bHeaderInd : Bool
  failCause : UInt8
  paramInd : UInt8
  pid : UInt8
  dcs : SmsDcs
  userData : SmsUDPackage
deriving DecidableEq, Repr

structure SmsStatusReport where
  bMoreMsg : Bool
  bStatusReport : Bool
  bHeaderInd : Bool
  msgRef : UInt8
  recipAddress : AddressNumber
  timeStamp : SmsTimeStamp
  dischargeTime : SmsTimeStamp
  status : UInt8
  paramInd : UInt8
  pid : UInt8
  dcs : SmsDcs
  userData : SmsUDPackage
deriving DecidableEq, Repr

/-- The type of a TPDU and the member of the union it selects. -/
inductive SmsTpdu where
  | submit (data : SmsSubmit)
  | deliver (data : SmsDeliver)
  | deliverRep (data : SmsDeliverReport)
  | statusRep (data : SmsStatusReport)
deriving DecidableEq, Repr

/-! ## Zero-initialised records

`std::make_shared<SmsTpdu>()` and `memset_s` leave every octet zero, which is
the first enumerator of each enumeration. -/

def SmsDcs.zero : SmsDcs where
  bCompressed := false
  bMWI := false
  bIndActive := false
  msgClass := .instantMessage
  codingScheme := .dataCoding7Bit
  codingGroup := .codingGeneralGroup
  indType := .voiceIndicator

def SmsUDPackage.zero : SmsUDPackage := ⟨[], []⟩

def SmsTpud.zero : SmsTpud := ⟨0, []⟩

end TelephonySms.Pdu
