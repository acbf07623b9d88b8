import TelephonySms.Pdu.CodeType
import TelephonySms.Pdu.CommonUtils

/-! # Parameters of a TPDU

`GsmSmsParamEncode` and `GsmSmsParamDecode`: addresses, data coding schemes and
time stamps, each as octets of a TPDU.
-/

namespace TelephonySms.Pdu

open SmsPduBuffer

/-! ## Addresses -/

/-- A number with a leading `+` and something after it. -/
def AddressNumber.hasPlus (num : AddressNumber) : Bool :=
  num.address.head? = some 0x2B ∧ num.address.length > 1

/-- What is left of the address once a leading `+` is taken off. -/
def AddressNumber.dialled (num : AddressNumber) : List UInt8 :=
  if num.hasPlus then num.address.tail else num.address

/-- `TYPE_INTERNATIONAL` for a number with `+`. -/
def AddressNumber.encodedTon (num : AddressNumber) : UInt8 := if num.hasPlus then 1 else num.ton

def encodeAddressPdu (num : AddressNumber) : Option (List UInt8) :=
  if num.address.length > 20 then none
  else do
    let bcd ← digitToBcd num.dialled (List.replicate 12 0)
    if 2 + bcd.length > 12 then none
    else
      some (UInt8.ofNat num.dialled.length :: ((0x80 : UInt8) + num.encodedTon <<< 4 + num.npi) :: bcd)

def readBytes : Nat → SmsPduBuffer → Option (List UInt8 × SmsPduBuffer)
  | 0, b => some ([], b)
  | n + 1, b => do
      let (oneByte, b) ← b.readByte
      let (octets, b) ← readBytes n b
      some (oneByte :: octets, b)

/-- The last element that satisfies `p`, with what stands before and after it. -/
def splitLast {α : Type*} (p : α → Bool) : List α → Option (List α × α × List α)
  | [] => none
  | x :: xs =>
      match splitLast p xs with
      | some (before, y, after) => some (x :: before, y, after)
      | none => if p x then some ([], x, xs) else none

/-- `[#*]`. -/
def isMark (c : UInt8) : Bool := c = 0x23 ∨ c = 0x2A

/-- The match groups of `(^[#*])(.*)([#*])(.*)`: `.*` is greedy, so the third
group is the last mark. -/
def matchMarks : List UInt8 → Option (UInt8 × List UInt8 × UInt8 × List UInt8)
  | [] => none
  | c :: cs =>
      if isMark c then do
        let (before, mark, after) ← splitLast isMark cs
        some (c, before, mark, after)
      else none

/-- `(^[#*])(.*)([#*])(.*)(#)$` is the same with a last `#` taken off first. -/
def regProcessSmsAddrs (smsAddrs : List UInt8) : List UInt8 :=
  match if smsAddrs.getLast? = some 0x23 then matchMarks smsAddrs.dropLast else none with
  | some (first, before, mark, after) =>
      if before = [] then first :: mark :: after ++ [0x23, 0x2B]
      else first :: before ++ mark :: 0x2B :: after ++ [0x23]
  | none =>
      match matchMarks smsAddrs with
      | some (first, before, mark, after) => first :: before ++ mark :: 0x2B :: after
      | none => 0x2B :: smsAddrs

/-- The digits of `bcdLen` octets, of which 21 at most are read into the array. -/
def decodeAddressDigits (b : SmsPduBuffer) (bcdLen : Nat) :
    Option (List UInt8 × SmsPduBuffer) := do
  let b := b.moveForward 1
  let (octets, b) ← readBytes (min bcdLen 21) b
  let addrNum ← bcdToDigit (octets ++ List.replicate (bcdLen - octets.length) 0) 21
  some (addrNum, b)

def decodeAddressAlphaNum (coder : TextCoder) (b : SmsPduBuffer) (bcdLen addrLen : Nat) :
    Option (List UInt8 × SmsPduBuffer) := do
  let dataLen := addrLen * 4 / 7
  let (_, b) ← b.readByte
  let (octets, b) ← readBytes bcdLen b
  let septets ← unpack7bitCharForMiddlePart coder octets dataLen
  some (coder.gsm7bitToUtf8 septets, b)

def decodeAddressInternationalNum (b : SmsPduBuffer) (bcdLen : Nat) :
    Option (List UInt8 × SmsPduBuffer) := do
  let (addrNum, b) ← decodeAddressDigits b bcdLen
  some ((regProcessSmsAddrs addrNum).take 21, b)

def decodeAddressDefaultNum (b : SmsPduBuffer) (bcdLen : Nat) :
    Option (List UInt8 × SmsPduBuffer) := do
  let (addrNum, b) ← decodeAddressDigits b bcdLen
  some (addrNum.take 21, b)

/-- `npi` is not assigned and stays as the zero-initialised record has it. -/
def decodeAddressPdu (coder : TextCoder) (b : SmsPduBuffer) :
    Option (AddressNumber × SmsPduBuffer) := do
  let (oneByte, b) ← b.readByte
  if oneByte ≥ 44 then none
  else
    let addrLen := oneByte.toNat
    let bcdLen := if addrLen % 2 = 0 then addrLen / 2 else addrLen / 2 + 1
    let oneByte ← b.pickOneByte
    let ton := (oneByte &&& 0x70) >>> 4
    let (address, b) ←
      if ton = 5 then decodeAddressAlphaNum coder b bcdLen addrLen
      else if ton = 1 then decodeAddressInternationalNum b bcdLen
      else decodeAddressDefaultNum b bcdLen
    some (⟨ton, 0, address⟩, b)

/-! ## Data coding schemes -/

/-- The number of the enumerator. -/
def SmsMessageClass.value : SmsMessageClass → UInt8
  | .instantMessage => 0
  | .optionalMessage => 1
  | .simMessage => 2
  | .forwardMessage => 3
  | .classUnknown => 4

/-- The second `switch` of `EncodeDCS`: `front` of an empty string is its
terminator, and 7-bit coding leaves nothing where a character was taken off. -/
def encodeDCSCodingScheme (scheme : DataCodingScheme) (returnValue : List UInt8) : List UInt8 :=
  let value := returnValue.headD 0
  match scheme with
  | .dataCodingUcs2 => returnValue.dropLast ++ [value ||| 0x08]
  | .dataCoding8Bit => returnValue.dropLast ++ [value ||| 0x04]
  | _ => returnValue.dropLast

/-- A compressed text of the general group without a class takes a character
off an empty string; what follows is undefined, and there is no result. -/
def encodeDCS (dcsData : SmsDcs) : Option (List UInt8) :=
  match dcsData.codingGroup with
  | .codingDeletionGroup | .codingDiscardGroup | .codingStoreGroup =>
      some (encodeDCSCodingScheme dcsData.codingScheme [])
  | .codingGeneralGroup =>
      let returnValue :=
        if dcsData.msgClass ≠ .classUnknown then [0x10 + dcsData.msgClass.value] else []
      if dcsData.bCompressed then
        match returnValue with
        | [] => none
        | value :: _ => some (encodeDCSCodingScheme dcsData.codingScheme [value ||| 0x20])
      else some (encodeDCSCodingScheme dcsData.codingScheme returnValue)
  | .smsClassGroup =>
      some (encodeDCSCodingScheme dcsData.codingScheme [0xF0 + dcsData.msgClass.value])
  | .codingUnknownGroup => some []

def getMsgClass (dcs : UInt8) : SmsMessageClass :=
  if dcs &&& 0x03 = 0 then .instantMessage
  else if dcs &&& 0x03 = 1 then .optionalMessage
  else if dcs &&& 0x03 = 2 then .simMessage
  else .forwardMessage

def getMsgCodingScheme (dcs : UInt8) : DataCodingScheme :=
  if dcs &&& 0x03 = 0 then .dataCoding7Bit
  else if dcs &&& 0x03 = 1 then .dataCoding8Bit
  else if dcs &&& 0x03 = 2 then .dataCodingUcs2
  else .dataCodingAuto

def getMsgIndicatorType (dcs : UInt8) : SmsIndicatorType :=
  if dcs &&& 0x03 = 0 then .voiceIndicator
  else if dcs &&& 0x03 = 1 then .voice2Indicator
  else if dcs &&& 0x03 = 2 then .faxIndicator
  else .emailIndicator

def getMwiType (dcs : UInt8) (smsDcs : SmsDcs) : SmsDcs :=
  { smsDcs with
    bCompressed := false
    msgClass := .classUnknown
    bMWI := true
    bIndActive := (dcs &&& 0x08) >>> 3 = 1
    indType := getMsgIndicatorType (dcs &&& 0x03) }

def decodeDcsGeneralGroupPdu (dcs : UInt8) (smsDcs : SmsDcs) : SmsDcs :=
  { smsDcs with
    codingGroup := .codingGeneralGroup
    bCompressed := (dcs &&& 0x20) >>> 5 = 1
    codingScheme := getMsgCodingScheme ((dcs &&& 0x0C) >>> 2)
    msgClass := if (dcs &&& 0x10) >>> 4 = 0 then .classUnknown else getMsgClass (dcs &&& 0x03) }

def decodeDcsClassGroupPdu (dcs : UInt8) (smsDcs : SmsDcs) : SmsDcs :=
  { smsDcs with
    codingGroup := .smsClassGroup
    bCompressed := false
    codingScheme := getMsgCodingScheme ((dcs &&& 0x0C) >>> 2)
    msgClass := getMsgClass (dcs &&& 0x03) }

/-- The coding scheme is not assigned here, nor in the discard group. -/
def decodeDcsDeleteGroupPdu (smsDcs : SmsDcs) : SmsDcs :=
  { smsDcs with
    codingGroup := .codingDeletionGroup
    bCompressed := false
    msgClass := .classUnknown }

def decodeDcsDiscardGroupPdu (dcs : UInt8) (smsDcs : SmsDcs) : SmsDcs :=
  getMwiType dcs { smsDcs with codingGroup := .codingDiscardGroup }

def decodeDcsStoreGsmGroupPdu (dcs : UInt8) (smsDcs : SmsDcs) : SmsDcs :=
  getMwiType dcs { smsDcs with codingGroup := .codingStoreGroup, codingScheme := .dataCoding7Bit }

def decodeDcsStoreUCS2GroupPdu (dcs : UInt8) (smsDcs : SmsDcs) : SmsDcs :=
  getMwiType dcs { smsDcs with codingGroup := .codingStoreGroup, codingScheme := .dataCodingUcs2 }

def decodeDcsUnknownGroupPdu (dcs : UInt8) (smsDcs : SmsDcs) : SmsDcs :=
  { smsDcs with
    codingGroup := .codingUnknownGroup
    bCompressed := (dcs &&& 0x20) >>> 5 = 1
    codingScheme := getMsgCodingScheme ((dcs &&& 0x0C) >>> 2)
    msgClass := .classUnknown }

/-- The scheme an octet stands for, written over a zero-initialised record. -/
def decodeDcs (dcs : UInt8) : SmsDcs :=
  let smsDcs := { SmsDcs.zero with bMWI := false, bIndActive := false, indType := .otherIndicator }
  if (dcs &&& 0xC0) >>> 6 = 0 then decodeDcsGeneralGroupPdu dcs smsDcs
  else if (dcs &&& 0xF0) >>> 4 = 0x0F then decodeDcsClassGroupPdu dcs smsDcs
  else if (dcs &&& 0xC0) >>> 6 = 0x01 then decodeDcsDeleteGroupPdu smsDcs
  else if (dcs &&& 0xF0) >>> 4 = 0x0C then decodeDcsDiscardGroupPdu dcs smsDcs
  else if (dcs &&& 0xF0) >>> 4 = 0x0D then decodeDcsStoreGsmGroupPdu dcs smsDcs
  else if (dcs &&& 0xF0) >>> 4 = 0x0E then decodeDcsStoreUCS2GroupPdu dcs smsDcs
  else decodeDcsUnknownGroupPdu dcs smsDcs

def decodeDcsPdu (b : SmsPduBuffer) : Option (SmsDcs × SmsPduBuffer) := do
  let (dcs, b) ← b.readByte
  some (decodeDcs dcs, b)

/-! ## Time stamps -/

/-- Two decimal digits as semi-octets, tens in the low one. -/
def encodeTimeField (v : UInt8) : UInt8 := ((v % 10) <<< 4) + v / 10

def encodeTimePdu : SmsTimeStamp → List UInt8
  | .empty => []
  | .relative time => [time, 0]
  | .absolute time =>
      let fields := [time.year, time.month, time.day, time.hour, time.minute, time.second].map
        encodeTimeField
      let resultValue := if time.timeZone < 0 then fields ++ [0x08] else fields
      let value := (UInt8.ofInt (time.timeZone.tmod 10) <<< 4) + UInt8.ofInt (time.timeZone.tdiv 10) +
        resultValue.headD 0
      resultValue.dropLast ++ [value]

def decodeTimeField (b : SmsPduBuffer) : Option (UInt8 × SmsPduBuffer) := do
  let pickByte ← b.pickOneByte
  let (oneByte, b) ← b.readByte
  let tens : UInt8 := pickByte &&& 0x0F
  let units : UInt8 := (oneByte &&& 0xF0) >>> 4
  some (tens * 10 + units, b)

/-- The time zone an octet stands for. -/
def decodeTimeZone (oneByte : UInt8) : Int :=
  let tens : UInt8 := oneByte &&& 0x07
  let units : UInt8 := (oneByte &&& 0xF0) >>> 4
  let timeZone : Int := (tens * 10 + units).toNat
  if oneByte &&& 0x08 ≠ 0 then -timeZone else timeZone

def decodeTimePdu (b : SmsPduBuffer) : Option (SmsTimeStamp × SmsPduBuffer) := do
  let (year, b) ← decodeTimeField b
  let (month, b) ← decodeTimeField b
  let (day, b) ← decodeTimeField b
  let (hour, b) ← decodeTimeField b
  let (minute, b) ← decodeTimeField b
  let (second, b) ← decodeTimeField b
  let (oneByte, b) ← b.readByte
  some (.absolute ⟨year, month, day, hour, minute, second, decodeTimeZone oneByte⟩, b)

end TelephonySms.Pdu
