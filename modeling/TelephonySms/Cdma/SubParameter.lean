import TelephonySms.Cdma.Common
import TelephonySms.Pdu.Param

/-! # Sub-parameters of bearer data

The codecs of `cdma_sms_sub_parameter.cpp` other than user data. Each record
starts with its identifier and a length octet. A writer either knows the length
or leaves room for it and inserts it at the end; a reader checks the identifier,
and reads what its kind asks for whatever the length says.
-/

namespace TelephonySms.Cdma

open TelephonySms.Pdu
open SmsPduBuffer

/-! ## Records -/

/-- `IsInvalidPdu`, with the length octet that it leaves in `len_`. -/
def readIdLen (id : UInt8) (b : SmsPduBuffer) : Option (UInt8 × SmsPduBuffer) := do
  let (v, b) ← b.readByte
  let (len, b) ← b.readByte
  if v = id then some (len, b) else none

def writeIdLen (id len : UInt8) (b : SmsPduBuffer) : Option SmsPduBuffer := do
  let b ← b.writeByte id
  b.writeByte len

/-- The end of a record whose length octet is at `lenIndex`. -/
def insertLen (lenIndex : Nat) (b : SmsPduBuffer) : Option SmsPduBuffer :=
  let b := b.skipBits
  b.insertByte (UInt8.ofNat (b.index - lenIndex - 1)) lenIndex

/-- A record that leaves room for its length octet and inserts it once `body` is written. -/
def writeRecord (id : UInt8) (body : SmsPduBuffer → Option SmsPduBuffer) (b : SmsPduBuffer) :
    Option SmsPduBuffer := do
  let b ← b.writeByte id
  let lenIndex := b.index
  let b ← body (b.moveForward 1)
  insertLen lenIndex b

/-- A record whose `body`, which is given the length octet, is followed by
zeros up to the end of the octet. -/
def readRecord {α : Type} (id : UInt8) (body : UInt8 → SmsPduBuffer → Option (α × SmsPduBuffer))
    (b : SmsPduBuffer) : Option (α × SmsPduBuffer) := do
  let (len, b) ← readIdLen id b
  let (x, b) ← body len b
  some (x, b.skipBits)

/-- `WriteBits` in a loop, `l` bits of each octet. -/
def writeEach (l : Nat) : List UInt8 → SmsPduBuffer → Option SmsPduBuffer
  | [], b => some b
  | v :: vs, b => do
      let b ← b.writeBits v l
      writeEach l vs b

/-- `ReadBits` in a loop, `n` times. -/
def readEach (l : Nat) : Nat → SmsPduBuffer → Option (List UInt8 × SmsPduBuffer)
  | 0, b => some ([], b)
  | n + 1, b => do
      let (v, b) ← b.readBits l
      let (vs, b) ← readEach l n b
      some (v :: vs, b)

/-- A field that is there only when `c` holds. -/
def writeIf (c : Bool) (v : UInt8) (l : Nat) (b : SmsPduBuffer) : Option SmsPduBuffer :=
  if c then b.writeBits v l else some b

/-- A field that keeps the value `v` unless `c` holds. -/
def readIf (c : Bool) (v : UInt8) (l : Nat) (b : SmsPduBuffer) : Option (UInt8 × SmsPduBuffer) :=
  if c then b.readBits l else some (v, b)

def writeBool (v : Bool) (b : SmsPduBuffer) : Option SmsPduBuffer :=
  b.writeBits (if v then 0b1 else 0b0) 1

def readBool (b : SmsPduBuffer) : Option (Bool × SmsPduBuffer) := do
  let (v, b) ← b.readBits 1
  some (v = 0b1, b)

/-- Two octets that are read as bits, the high one first. -/
def readBitsPair (b : SmsPduBuffer) : Option (UInt16 × SmsPduBuffer) := do
  let (vh, b) ← b.readBits 8
  let (v, b) ← b.readBits 8
  some (vh.toUInt16 <<< 8 ||| v.toUInt16, b)

/-! ## One octet -/

def encodeBaseParameter (id data : UInt8) (b : SmsPduBuffer) : Option SmsPduBuffer := do
  let b ← writeIdLen id 1 b
  b.writeByte data

def decodeBaseParameter (id : UInt8) (b : SmsPduBuffer) : Option (UInt8 × SmsPduBuffer) := do
  let (_, b) ← readIdLen id b
  b.readByte

/-- A record of two bits and padding: the priority, privacy, alert and display indicators. -/
def encodeTwoBits (id v : UInt8) (b : SmsPduBuffer) : Option SmsPduBuffer := do
  let b ← writeIdLen id 1 b
  let b ← b.writeBits v 2
  some b.skipBits

def decodeTwoBits (id : UInt8) : SmsPduBuffer → Option (UInt8 × SmsPduBuffer) :=
  readRecord id fun _ b => b.readBits 2

def encodePriorityInd (priority : SmsPriorityIndicator) (b : SmsPduBuffer) :
    Option SmsPduBuffer :=
  encodeTwoBits 0x08 priority.value b

def decodePriorityInd (b : SmsPduBuffer) : Option (SmsPriorityIndicator × SmsPduBuffer) := do
  let (v, b) ← decodeTwoBits 0x08 b
  some (.ofValue v, b)

def decodePrivacyInd (b : SmsPduBuffer) : Option (SmsPrivacyIndicator × SmsPduBuffer) := do
  let (v, b) ← decodeTwoBits 0x09 b
  some (.ofValue v, b)

def decodeAlertPriority (b : SmsPduBuffer) : Option (SmsAlertPriority × SmsPduBuffer) := do
  let (v, b) ← decodeTwoBits 0x0C b
  some (.ofValue v, b)

def decodeDisplayMode (b : SmsPduBuffer) : Option (SmsDisplayMode × SmsPduBuffer) := do
  let (v, b) ← decodeTwoBits 0x0F b
  some (.ofValue v, b)

def encodeReplyOption (replyOpt : SmsReplyOption) (b : SmsPduBuffer) : Option SmsPduBuffer := do
  let b ← writeIdLen 0x0A 1 b
  let b ← writeBool replyOpt.userAck b
  let b ← writeBool replyOpt.dak b
  let b ← writeBool replyOpt.readAck b
  let b ← writeBool replyOpt.report b
  some b.skipBits

def decodeReplyOption : SmsPduBuffer → Option (SmsReplyOption × SmsPduBuffer) :=
  readRecord 0x0A fun _ b => do
    let (userAck, b) ← readBool b
    let (dak, b) ← readBool b
    let (readAck, b) ← readBool b
    let (report, b) ← readBool b
    some (⟨userAck, dak, readAck, report⟩, b)

def decodeLanguageInd (b : SmsPduBuffer) : Option (UInt8 × SmsPduBuffer) :=
  decodeBaseParameter 0x0D b

def decodeMessageStatus (b : SmsPduBuffer) : Option (UInt8 × SmsPduBuffer) :=
  decodeBaseParameter 0x14 b

/-- Two decimal digits, one in each half of an octet. -/
def decodeNumberMessages (b : SmsPduBuffer) : Option (Nat × SmsPduBuffer) := do
  let (v, b) ← decodeBaseParameter 0x0B b
  some ((v >>> 4).toNat * 10 + (v &&& 0x0F).toNat, b)

/-! ## Identifier, time and deposit index -/

def encodeMessageId (type : UInt8) (msgId : SmsTeleSvcMsgId) (b : SmsPduBuffer) :
    Option SmsPduBuffer := do
  let b ← writeIdLen 0x00 3 b
  let b ← b.writeBits type 4
  let b ← b.writeBits (msgId.msgId >>> 8).toUInt8 8
  let b ← b.writeBits msgId.msgId.toUInt8 8
  let b ← writeBool msgId.headerInd b
  some b.skipBits

/-- The message type and the identifier. -/
def decodeMessageId : SmsPduBuffer → Option ((UInt8 × SmsTeleSvcMsgId) × SmsPduBuffer) :=
  readRecord 0x00 fun _ b => do
    let (type, b) ← b.readBits 4
    let (msgId, b) ← readBitsPair b
    let (headerInd, b) ← readBool b
    some ((type, ⟨msgId, headerInd⟩), b)

def encodeBCD (v : UInt8) : UInt8 := (v / 10) <<< 4 ||| v % 10

def decodeBCD (v : UInt8) : UInt8 := ((v &&& 0xF0) >>> 4) * 10 + (v &&& 0x0F)

def encodeAbsoluteTime (id : UInt8) (time : SmsTimeAbs) (b : SmsPduBuffer) :
    Option SmsPduBuffer := do
  let b ← writeIdLen id 6 b
  let b ← b.writeByte (encodeBCD time.year)
  let b ← b.writeByte (encodeBCD time.month)
  let b ← b.writeByte (encodeBCD time.day)
  let b ← b.writeByte (encodeBCD time.hour)
  let b ← b.writeByte (encodeBCD time.minute)
  b.writeByte (encodeBCD time.second)

/-- The time zone, which no octet stands for, stays zero. -/
def decodeAbsoluteTime (id : UInt8) (b : SmsPduBuffer) : Option (SmsTimeAbs × SmsPduBuffer) := do
  let (_, b) ← readIdLen id b
  let (v1, b) ← b.readByte
  let (v2, b) ← b.readByte
  let (v3, b) ← b.readByte
  let (v4, b) ← b.readByte
  let (v5, b) ← b.readByte
  let (v6, b) ← b.readByte
  some (⟨decodeBCD v1, decodeBCD v2, decodeBCD v3, decodeBCD v4, decodeBCD v5, decodeBCD v6, 0⟩, b)

def decodeDepositIndex (b : SmsPduBuffer) : Option (UInt16 × SmsPduBuffer) := do
  let (_, b) ← readIdLen 0x11 b
  b.readWord

/-- A record of a kind that the message does not support is skipped. -/
def decodeReservedParameter (id : UInt8) (b : SmsPduBuffer) : Option SmsPduBuffer := do
  let (len, b) ← readIdLen id b
  some (b.moveForward len.toNat)

/-! ## Numbers -/

def digitToDtmfChar (c : UInt8) : UInt8 :=
  if c = 0x30 then 0x0A
  else if c = 0x2A then 0x0B
  else if c = 0x23 then 0x0C
  else c - 0x30

def dtmfCharToDigit (c : UInt8) : UInt8 :=
  if c = 0x0B then 0x2A
  else if c = 0x0C then 0x23
  else if c = 0x0A then 0x30
  else c + 0x30

/-- The characters of a number, an octet each or in four bits. The counter of
the loop has eight bits, so from 256 characters on it starts again until the
buffer is full. -/
def writeNumber (digitMode : Bool) (szData : List UInt8) (b : SmsPduBuffer) :
    Option SmsPduBuffer :=
  if szData.length > 255 then none
  else if digitMode then writeEach 8 szData b
  else writeEach 4 (szData.map digitToDtmfChar) b

def readNumber (digitMode : Bool) (addrLen : Nat) (b : SmsPduBuffer) :
    Option (List UInt8 × SmsPduBuffer) :=
  if digitMode then readEach 8 addrLen b
  else do
    let (vs, b) ← readEach 4 addrLen b
    some (vs.map dtmfCharToDigit, b)

def encodeCallbackNumber (address : SmsTeleSvcAddr) : SmsPduBuffer → Option SmsPduBuffer :=
  writeRecord 0x0E fun b => do
    let b ← writeBool address.digitMode b
    if address.szData.length > 257 then none
    else
      let b ← writeIf address.digitMode address.numberType 3 b
      let b ← writeIf address.digitMode address.numberPlan 4 b
      let b ← b.writeBits (UInt8.ofNat address.szData.length) 8
      writeNumber address.digitMode address.szData b

/-- The type and plan of a number in four bits are not read and stay as they are. -/
def decodeCallbackNumber (address : SmsTeleSvcAddr) :
    SmsPduBuffer → Option (SmsTeleSvcAddr × SmsPduBuffer) :=
  readRecord 0x0E fun _ b => do
    let (digitMode, b) ← readBool b
    let (numberType, b) ← readIf digitMode address.numberType 3 b
    let (numberPlan, b) ← readIf digitMode address.numberPlan 4 b
    let (addrLen, b) ← b.readBits 8
    let (szData, b) ← readNumber digitMode addrLen.toNat b
    some (⟨digitMode, numberType, numberPlan, szData⟩, b)

/-! ## Voice mail -/

/-- The characters of an access or calling number: at most 160 of them, in four
bits when `digitMode` is set. -/
def readVmnNumber (digitMode : Bool) (b : SmsPduBuffer) :
    Option ((UInt8 × List UInt8) × SmsPduBuffer) := do
  let (numberPlan, b) ← readIf digitMode 0 4 b
  let (numField, b) ← b.readBits 8
  if numField.toNat ≥ 161 then none
  else
    let (chars, b) ← readNumber (!digitMode) numField.toNat b
    some ((numberPlan, chars), b)

def decodeVmnHeader (vmn : SmsEnhancedVmn) (b : SmsPduBuffer) :
    Option (SmsEnhancedVmn × SmsPduBuffer) := do
  let (v1, b) ← b.readBits 2
  let (passwordReq, b) ← readBool b
  let (setupReq, b) ← readBool b
  let (pwChangeReq, b) ← readBool b
  let (minPwLen, b) ← readIf (setupReq || pwChangeReq) vmn.minPwLen 4 b
  let (maxPwLen, b) ← readIf (setupReq || pwChangeReq) vmn.maxPwLen 4 b
  some ({ vmn with
    priority := .ofValue v1
    passwordReq := passwordReq
    setupReq := setupReq
    pwChangeReq := pwChangeReq
    minPwLen := minPwLen
    maxPwLen := maxPwLen }, b)

def decodeVoiceMail (vmn : SmsEnhancedVmn) (b : SmsPduBuffer) :
    Option (SmsEnhancedVmn × SmsPduBuffer) := do
  let (vmNumUnheardMsg, b) ← b.readBits 8
  let (vmMailboxAlmFull, b) ← readBool b
  let (vmMailboxFull, b) ← readBool b
  let (replyAllowed, b) ← readBool b
  let (faxIncluded, b) ← readBool b
  let (v1, b) ← b.readBits 7
  let (v2, b) ← b.readBits 5
  let (vmRetDay, b) ← b.readBits 7
  let (vmMsgId, b) ← readBitsPair b
  let (vmMailboxId, b) ← readBitsPair b
  some ({ vmn with
    vmNumUnheardMsg := vmNumUnheardMsg
    vmMailboxAlmFull := vmMailboxAlmFull
    vmMailboxFull := vmMailboxFull
    replyAllowed := replyAllowed
    faxIncluded := faxIncluded
    vmLen := v1.toUInt16 <<< 5 ||| v2.toUInt16
    vmRetDay := vmRetDay
    vmMsgId := vmMsgId
    vmMailboxId := vmMailboxId }, b)

def decodeAccessNumber (vmn : SmsEnhancedVmn) (b : SmsPduBuffer) :
    Option (SmsEnhancedVmn × SmsPduBuffer) := do
  let (digitMode, b) ← readBool b
  let (numberType, b) ← b.readBits 3
  let ((numberPlan, chars), b) ← readVmnNumber digitMode b
  some ({ vmn with
    anDigitMode := digitMode
    anNumberType := numberType
    anNumberPlan := numberPlan
    anChar := chars }, b)

def decodeCallingPartyNumber (vmn : SmsEnhancedVmn) (b : SmsPduBuffer) :
    Option (SmsEnhancedVmn × SmsPduBuffer) := do
  let (digitMode, b) ← readBool b
  let (numberType, b) ← b.readBits 3
  let ((numberPlan, chars), b) ← readVmnNumber digitMode b
  some ({ vmn with
    cliDigitMode := digitMode
    cliNumberType := numberType
    cliNumberPlan := numberPlan
    cliChar := chars }, b)

def decodeEnhancedVmn : SmsPduBuffer → Option (SmsEnhancedVmn × SmsPduBuffer) :=
  readRecord 0x16 fun _ b => do
    let (vmn, b) ← decodeVmnHeader .zero b
    let (vmn, b) ← decodeVoiceMail vmn b
    let (vmn, b) ← decodeAccessNumber vmn b
    decodeCallingPartyNumber vmn b

def readPairs : Nat → SmsPduBuffer → Option (List UInt16 × SmsPduBuffer)
  | 0, b => some ([], b)
  | n + 1, b => do
      let (v, b) ← readBitsPair b
      let (vs, b) ← readPairs n b
      some (v :: vs, b)

/-- Three bits count no more acknowledgements than there is room for. -/
def decodeEnhancedVmnAck : SmsPduBuffer → Option (SmsEnhancedVmnAck × SmsPduBuffer) :=
  readRecord 0x17 fun _ b => do
    let (vmMailboxId, b) ← b.readWord
    let (vmNumUnheardMsg, b) ← b.readByte
    let (numDeleteAck, b) ← b.readBits 3
    let (numPlayAck, b) ← b.readBits 3
    let (daVmMsgId, b) ← readPairs numDeleteAck.toNat b
    let (paVmMsgId, b) ← readPairs numPlayAck.toNat b
    some (⟨vmMailboxId, vmNumUnheardMsg, daVmMsgId, paVmMsgId⟩, b)

/-! ## Alerts -/

/-- `DecodeAbsTime`: two digits of four bits for each part. -/
def readTwoDigits (b : SmsPduBuffer) : Option (UInt8 × SmsPduBuffer) := do
  let (v1, b) ← b.readBits 4
  let (v2, b) ← b.readBits 4
  some (v1 * 10 + v2, b)

def decodeAbsTime (b : SmsPduBuffer) : Option (SmsTimeAbs × SmsPduBuffer) := do
  let (year, b) ← readTwoDigits b
  let (month, b) ← readTwoDigits b
  let (day, b) ← readTwoDigits b
  let (hour, b) ← readTwoDigits b
  let (minute, b) ← readTwoDigits b
  let (second, b) ← readTwoDigits b
  some (⟨year, month, day, hour, minute, second, 0⟩, b)

/-- The text of an alert. Without an octet for the coding the septets are
followed by an `ignoredBits` that no read accepts. -/
def decodeType0Data (data : SmsTeleSvcCmasData) (b : SmsPduBuffer) :
    Option (SmsTeleSvcCmasData × SmsPduBuffer) := do
  let (len, b) ← b.readBits 8
  let (v, b) ← b.readBits 5
  match getEncodingType v with
  | .ascii7Bit | .ia5 | .gsm7Bit =>
      if len = 0 then none
      else
        let bits := len.toNat * 8 - 5
        if bits / 7 > 161 then none
        else
          let (alertText, b) ← readEach 7 (bits / 7) b
          if bits % 7 = 0 then some ({ data with alertText := alertText }, b)
          else
            let (_, b) ← b.readBits (bits % 7)
            some ({ data with alertText := alertText }, b)
  | .epm | .gsmDcs => none
  | _ =>
      if len.toNat - 1 > 161 then none
      else
        let (alertText, b) ← readEach 8 (len.toNat - 1) b
        some ({ data with alertText := alertText }, b)

def decodeType1Data (data : SmsTeleSvcCmasData) (b : SmsPduBuffer) :
    Option (SmsTeleSvcCmasData × SmsPduBuffer) := do
  let (_, b) ← b.readBits 8
  let (category, b) ← b.readBits 8
  let (responseType, b) ← b.readBits 8
  let (severity, b) ← b.readBits 4
  let (urgency, b) ← b.readBits 4
  let (certainty, b) ← b.readBits 4
  let (_, b) ← b.readBits 4
  some ({ data with
    category := category
    responseType := responseType
    severity := severity
    urgency := urgency
    certainty := certainty }, b)

def decodeType2Data (data : SmsTeleSvcCmasData) (b : SmsPduBuffer) :
    Option (SmsTeleSvcCmasData × SmsPduBuffer) := do
  let (_, b) ← b.readBits 8
  let (v1, b) ← b.readBits 8
  let (v2, b) ← b.readBits 8
  let (alertHandle, b) ← b.readBits 8
  let (expires, b) ← decodeAbsTime b
  let (language, b) ← b.readBits 8
  some ({ data with
    id := v1.toNat * 256 + v2.toNat
    alertHandle := alertHandle
    expires := expires
    language := language }, b)

/-- `DecodeData`; a record of another type is left after its type. -/
def decodeCmasRecord (data : SmsTeleSvcCmasData) (b : SmsPduBuffer) :
    Option (SmsTeleSvcCmasData × SmsPduBuffer) := do
  let (v, b) ← b.readBits 8
  if v = 0x00 then decodeType0Data data b
  else if v = 0x01 then decodeType1Data data b
  else if v = 0x02 then decodeType2Data data b
  else some (data, b)

/-- Records up to the index `stop`; each takes an octet at least, so there are
no more of them than octets. -/
def decodeCmasLoop (stop : Nat) : Nat → SmsTeleSvcCmasData → SmsPduBuffer →
    Option (SmsTeleSvcCmasData × SmsPduBuffer)
  | 0, data, b => some (data, b)
  | n + 1, data, b =>
      if b.index < stop then do
        let (data, b) ← decodeCmasRecord data b
        decodeCmasLoop stop n data b
      else some (data, b)

def decodeCmasData : SmsPduBuffer → Option (SmsTeleSvcCmasData × SmsPduBuffer) :=
  readRecord 0x01 fun len b => do
    let index := b.index
    let (v, b) ← b.readBits 5
    if getEncodingType v ≠ .octet then none
    else
      let (_, b) ← b.readBits 8
      let (version, b) ← b.readBits 8
      if version ≠ 0x00 then none
      else decodeCmasLoop (index + len.toNat - 1) b.getSize .zero b

end TelephonySms.Cdma
