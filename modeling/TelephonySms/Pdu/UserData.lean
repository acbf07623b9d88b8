import TelephonySms.Pdu.Param

/-! # User data

`GsmUserDataPdu`, `GsmUserDataEncode` and `GsmUserDataDecode`: the information
elements of a user data header, and user data in the three codings.
-/

namespace TelephonySms.Pdu

open SmsPduBuffer

/-! ## Writing information elements -/

def encodeHeaderConcat8Bit (b : SmsPduBuffer) (msgRef totalSeg seqNum : UInt8) : SmsPduBuffer :=
  b.writeBytes [0x00, 0x03, msgRef, totalSeg, seqNum]

def encodeHeaderConcat16Bit (b : SmsPduBuffer) (msgRef : UInt16) (totalSeg seqNum : UInt8) :
    SmsPduBuffer :=
  b.writeBytes [0x08, 0x04, (msgRef >>> 8).toUInt8, (msgRef &&& 0x00FF).toUInt8, totalSeg, seqNum]

def encodeHeaderAppPort8bit (b : SmsPduBuffer) (destPort originPort : UInt8) : SmsPduBuffer :=
  b.writeBytes [0x04, 0x02, destPort, originPort]

def encodeHeaderAppPort16bit (b : SmsPduBuffer) (destPort originPort : UInt16) : SmsPduBuffer :=
  b.writeBytes [0x05, 0x04, (destPort >>> 8).toUInt8, (destPort &&& 0x00FF).toUInt8,
    (originPort >>> 8).toUInt8, (originPort &&& 0x00FF).toUInt8]

/-- The address is copied behind its length, but the index stays before it. -/
def encodeHeaderReplyAddress (b : SmsPduBuffer) (alternateAddress : AddressNumber) :
    SmsPduBuffer :=
  match b.writeByte 0x22, encodeAddressPdu alternateAddress with
  | none, _ => b
  | some b, none => b
  | some b, some encodedAddr =>
      b.steps [fun b => b.writeByte (UInt8.ofNat encodedAddr.length),
        fun b => b.copyHere encodedAddr]

def encodeHeader (b : SmsPduBuffer) : SmsUDH → SmsPduBuffer
  | .concat8Bit msgRef totalSeg seqNum => encodeHeaderConcat8Bit b msgRef totalSeg seqNum
  | .concat16Bit msgRef totalSeg seqNum => encodeHeaderConcat16Bit b msgRef totalSeg seqNum
  | .appPort8Bit destPort originPort => encodeHeaderAppPort8bit b destPort originPort
  | .appPort16Bit destPort originPort => encodeHeaderAppPort16bit b destPort originPort
  | .alternateReplyAddress alternateAddress => encodeHeaderReplyAddress b alternateAddress
  | .singleShift langId => b.writeBytes [0x24, 0x01, langId]
  | .lockingShift langId => b.writeBytes [0x25, 0x01, langId]
  | .specialSms _ _ _ | .other _ => b

/-- Room for `UDL`, and for `UDHL` when there are headers; then the headers.
The second result is the number of octets the headers take. -/
def encodeHeaders (b : SmsPduBuffer) (header : List SmsUDH) : SmsPduBuffer × Nat :=
  let b := b.moveForward (if header.length > 0 then 2 else 1)
  let start := b.index
  let b := header.foldl encodeHeader b
  (b, if b.index > start then b.index - start else 0)

/-! ## Writing user data -/

/-- Bits from the end of the headers to the next septet boundary. -/
def headFillBits (udhl : Nat) : Nat :=
  let fillBits := if udhl > 0 then (udhl + 1) * 8 % 7 else 0
  if fillBits > 0 ∧ 7 > fillBits then 7 - fillBits else 0

def encodeGsmHeadPdu (b : SmsPduBuffer) (userData : SmsUDPackage) :
    Option (SmsPduBuffer × Nat) := do
  let location := b.index
  let (b, udhl) := encodeHeaders b userData.header
  let fillBits := headFillBits udhl
  if udhl > 0 then
    let value := (udhl + 1) * 8 + fillBits + userData.data.length * 7
    let b ← b.insertByte (UInt8.ofNat (value / 7)) location
    let b ← b.insertByte (UInt8.ofNat udhl) (location + 1)
    some (b, fillBits)
  else
    let b ← b.insertByte (UInt8.ofNat userData.data.length) location
    some (b, fillBits)

def encodeGsmPdu (b : SmsPduBuffer) (userData : SmsUDPackage) : Option SmsPduBuffer := do
  let (b, fillBits) ← encodeGsmHeadPdu b userData
  pack7bitChar b userData.data fillBits

/-- The head that `Encode8bitHeadPdu` and `EncodeUcs2HeadPdu` write. -/
def encodeOctetHeadPdu (b : SmsPduBuffer) (header : List SmsUDH) (length : Nat) :
    Option SmsPduBuffer := do
  let location := b.index
  let (b, udhl) := encodeHeaders b header
  if udhl > 0 then
    let b ← b.insertByte (UInt8.ofNat (udhl + 1 + length)) location
    b.insertByte (UInt8.ofNat udhl) (location + 1)
  else b.insertByte (UInt8.ofNat length) location

/-- `CT_SMSC`, "10659401". -/
def ctSmsc : List UInt8 := [0x31, 0x30, 0x36, 0x35, 0x39, 0x34, 0x30, 0x31]

/-- Headers are left out for the service centre `CT_SMSC`. -/
def encode8bitHeadPdu (b : SmsPduBuffer) (userData : SmsUDPackage) (destAddr : List UInt8) :
    Option SmsPduBuffer :=
  encodeOctetHeadPdu b (if ctSmsc = destAddr then [] else userData.header) userData.data.length

def encode8bitBodyPdu (b : SmsPduBuffer) (data : List UInt8) : Option SmsPduBuffer :=
  if b.index ≥ 255 ∨ data.length + b.index > 255 then none
  else if b.index ≥ b.getSize ∨ data.length + b.index > b.getSize then none
  else do
    let b ← b.memcpy (255 - b.index - 1) data
    some (b.moveForward data.length)

def encode8bitPdu (b : SmsPduBuffer) (userData : SmsUDPackage) (destAddr : List UInt8) :
    Option SmsPduBuffer := do
  let b ← encode8bitHeadPdu b userData destAddr
  encode8bitBodyPdu b userData.data

def encodeUcs2HeadPdu (b : SmsPduBuffer) (userData : SmsUDPackage) : Option SmsPduBuffer :=
  encodeOctetHeadPdu b userData.header userData.data.length

def encodeUcs2BodyPdu (b : SmsPduBuffer) (data : List UInt8) : Option SmsPduBuffer :=
  if data.length + b.index ≥ 255 then none
  else if b.index + data.length > b.getSize then none
  else do
    let b ← b.memcpy (255 - b.index - 1) data
    some (b.moveForward data.length)

def encodeUcs2Pdu (b : SmsPduBuffer) (userData : SmsUDPackage) : Option SmsPduBuffer := do
  let b ← encodeUcs2HeadPdu b userData
  encodeUcs2BodyPdu b userData.data

def encodeUserDataPdu (b : SmsPduBuffer) (userData : SmsUDPackage) (scheme : DataCodingScheme)
    (destAddr : List UInt8) : Option SmsPduBuffer :=
  match scheme with
  | .dataCoding7Bit => encodeGsmPdu b userData
  | .dataCoding8Bit => encode8bitPdu b userData destAddr
  | .dataCodingUcs2 => encodeUcs2Pdu b userData
  | _ => none

/-! ## Reading information elements -/

/-- The length octet of an element; zero is refused. -/
def decodeHeaderLength (b : SmsPduBuffer) : Option SmsPduBuffer := do
  let (oneByte, b) ← b.readByte
  if oneByte = 0 then none else some b

def decodeHeaderConcat8Bit (b : SmsPduBuffer) : Option (SmsUDH × SmsPduBuffer) := do
  let b ← decodeHeaderLength b
  let (msgRef, b) ← b.readByte
  let (totalSeg, b) ← b.readByte
  let (seqNum, b) ← b.readByte
  some (.concat8Bit msgRef totalSeg seqNum, b)

/-- Two octets, the high one first. -/
def readPair (b : SmsPduBuffer) : Option (UInt16 × SmsPduBuffer) := do
  let (high, b) ← b.readByte
  let (low, b) ← b.readByte
  some (low.toUInt16 ||| high.toUInt16 <<< 8, b)

def decodeHeaderConcat16Bit (b : SmsPduBuffer) : Option (SmsUDH × SmsPduBuffer) := do
  let b ← decodeHeaderLength b
  let (msgRef, b) ← readPair b
  let (totalSeg, b) ← b.readByte
  let (seqNum, b) ← b.readByte
  some (.concat16Bit msgRef totalSeg seqNum, b)

def decodeHeaderAppPort8Bit (b : SmsPduBuffer) : Option (SmsUDH × SmsPduBuffer) := do
  let b ← decodeHeaderLength b
  let (destPort, b) ← b.readByte
  let (originPort, b) ← b.readByte
  some (.appPort8Bit destPort originPort, b)

def decodeHeaderAppPort16Bit (b : SmsPduBuffer) : Option (SmsUDH × SmsPduBuffer) := do
  let b ← decodeHeaderLength b
  let (destPort, b) ← readPair b
  let (originPort, b) ← readPair b
  some (.appPort16Bit destPort originPort, b)

def decodeHeaderSpecialSms (b : SmsPduBuffer) : Option (SmsUDH × SmsPduBuffer) := do
  let (oneByte, b) ← b.readByte
  if oneByte ≠ 0x02 then none
  else
    let pickByte ← b.pickOneByte
    let (msgInd, b) ← b.readByte
    let (waitMsgNum, b) ← b.readByte
    some (.specialSms (pickByte &&& 0x80 ≠ 0) (msgInd &&& 0x7F).toUInt16 waitMsgNum.toUInt16, b)

def decodeHeaderReplyAddress (coder : TextCoder) (b : SmsPduBuffer) :
    Option (SmsUDH × SmsPduBuffer) := do
  let b ← decodeHeaderLength b
  let (alternateAddress, b) ← decodeAddressPdu coder b
  some (.alternateReplyAddress alternateAddress, b)

def decodeHeaderSingleShift (b : SmsPduBuffer) : Option (SmsUDH × SmsPduBuffer) := do
  let b ← decodeHeaderLength b
  let (langId, b) ← b.readByte
  some (.singleShift langId, b)

def decodeHeaderLockingShift (b : SmsPduBuffer) : Option (SmsUDH × SmsPduBuffer) := do
  let b ← decodeHeaderLength b
  let (langId, b) ← b.readByte
  some (.lockingShift langId, b)

def decodeHeaderDefaultCase (b : SmsPduBuffer) (udhType : UInt8) :
    Option (SmsUDH × SmsPduBuffer) := do
  let (oneByte, b) ← b.readByte
  some (.other udhType, b.moveForward oneByte.toNat)

def decodeHeader (coder : TextCoder) (b : SmsPduBuffer) : Option (SmsUDH × SmsPduBuffer) := do
  let (udhType, b) ← b.readByte
  if udhType = 0x00 then decodeHeaderConcat8Bit b
  else if udhType = 0x08 then decodeHeaderConcat16Bit b
  else if udhType = 0x04 then decodeHeaderAppPort8Bit b
  else if udhType = 0x05 then decodeHeaderAppPort16Bit b
  else if udhType = 0x01 then decodeHeaderSpecialSms b
  else if udhType = 0x22 then decodeHeaderReplyAddress coder b
  else if udhType = 0x24 then decodeHeaderSingleShift b
  else if udhType = 0x25 then decodeHeaderLockingShift b
  else decodeHeaderDefaultCase b udhType

/-- The header loops of the three decoders, `n` headers at most: `more` is the
loop condition and `bad` the check on the buffer before and after an element.
An element of length zero is refused by all of them. -/
def decodeHeaders (coder : TextCoder) (more : SmsPduBuffer → Bool)
    (bad : SmsPduBuffer → SmsPduBuffer → Bool) :
    Nat → SmsPduBuffer → Option (List SmsUDH × SmsPduBuffer)
  | 0, b => some ([], b)
  | n + 1, b =>
      if more b then do
        let (header, b') ← decodeHeader coder b
        if b'.index ≤ b.index ∨ bad b b' then none
        else
          let (headers, b'') ← decodeHeaders coder more bad n b'
          some (header :: headers, b'')
      else some ([], b)

/-! ## Reading user data -/

/-- `len` octets from the index on. -/
def SmsPduBuffer.octets (b : SmsPduBuffer) (len : Nat) : List UInt8 := (b.data.drop b.index).take len

/-- The head of 7-bit user data: `pTPUD` is `none` for a null pointer. The
checks on the length copied for it cannot fail once `udl` is at most 160. -/
def decodeGsmHeadPdu (coder : TextCoder) (b : SmsPduBuffer) (bHeaderInd : Bool)
    (pTPUD : Option SmsTpud) :
    Option ((List SmsUDH × Nat × Nat) × Option SmsTpud × SmsPduBuffer) := do
  let (udl, b) ← b.readByte
  if udl > 160 then none
  else
    let pTPUD := pTPUD.map fun tpud =>
      if udl > 0 then
        ⟨udl, b.octets (if b.index + udl.toNat ≥ b.getSize then b.getSize - b.index else udl.toNat)⟩
      else tpud
    let (header, udhl, b) ←
      if bHeaderInd then do
        let (udhl, b) ← b.readByte
        let current := b.index % 256
        let (header, b) ← decodeHeaders coder (fun b => b.index < current + udhl.toNat)
          (fun _ b => b.index > b.getSize) 7 b
        some (header, udhl.toNat, b)
      else some ([], 0, b)
    let udl := udl.toNat
    if udhl > 0 ∧ (udhl + 1) * 8 ≤ udl * 7 then
      some ((header, (udl * 7 - (udhl + 1) * 8) / 7, (udl * 7 - (udhl + 1) * 8) % 7), pTPUD, b)
    else some ((header, udl, 0), pTPUD, b)

def decodeGsmPdu (coder : TextCoder) (b : SmsPduBuffer) (bHeaderInd : Bool)
    (pTPUD : Option SmsTpud) : Option (SmsUDPackage × Option SmsTpud × SmsPduBuffer) := do
  let ((header, udl, fillBits), pTPUD, b) ← decodeGsmHeadPdu coder b bHeaderInd pTPUD
  let (data, b) ← unpack7bitChar b udl fillBits 161
  some (⟨header, data⟩, pTPUD, b)

/-- The body of 8-bit and UCS2 user data: what is missing stays zero. -/
def decodeOctetBody (b : SmsPduBuffer) (length : Nat) : List UInt8 × SmsPduBuffer :=
  let remain := (b.getSize - b.index) % 256
  let len := min length remain
  (b.octets len ++ List.replicate (length - len) 0,
    if len = 0 then b else b.moveForward length)

/-- Length of the body when `udhl` octets of headers and `UDHL` come off `udl`. -/
def bodyLength (udl udhl : Nat) : Nat :=
  if udhl > 0 ∧ udl ≥ udhl + 1 then udl - (udhl + 1) else udl

/-- The index moves once more before a body that follows headers. -/
def decode8bitPduPartData (coder : TextCoder) (b : SmsPduBuffer) (bHeaderInd : Bool) (udl : Nat) :
    Option (SmsUDPackage × SmsPduBuffer) := do
  let (header, udhl, b) ←
    if bHeaderInd then do
      let (udhl, b) ← b.readByte
      let current := b.index
      let (header, b) ← decodeHeaders coder (fun b => b.index - current < udhl.toNat)
        (fun b b' => b'.index - b.index > udhl.toNat + 2) 7 b
      some (header, udhl.toNat, b)
    else some ([], 0, b)
  let b := if udhl > 0 ∧ udl ≥ udhl + 1 then b.moveForward 1 else b
  if b.index > b.getSize then none
  else
    let (data, b) := decodeOctetBody b (bodyLength udl udhl)
    some (⟨header, data⟩, b)

def decode8bitPdu (coder : TextCoder) (b : SmsPduBuffer) (bHeaderInd : Bool)
    (pTPUD : Option SmsTpud) : Option (SmsUDPackage × Option SmsTpud × SmsPduBuffer) := do
  let (udl, b) ← b.readByte
  if udl > 140 then none
  else
    let udl := udl.toNat
    -- an absent octet counts as `WAP_PUSH_UDHL - 1`
    let udhl := (b.pickOneByte.getD 6).toNat
    let pTPUD ←
      if pTPUD.isSome ∧ udl > udhl + 1 then
        if b.index + udl > b.getSize then none
        else
          some (some ⟨UInt8.ofNat (udl - (udhl + 1)),
            ({ b with index := b.index + (udhl + 1) } : SmsPduBuffer).octets (udl - (udhl + 1))⟩)
      else some pTPUD
    let (userData, b) ← decode8bitPduPartData coder b bHeaderInd udl
    some (userData, pTPUD, b)

/-- The loop counts the headers from `UDL` on, two octets before the first. -/
def decodeUcs2PduPartData (coder : TextCoder) (b : SmsPduBuffer) (bHeaderInd : Bool)
    (current udl : Nat) : Option (SmsUDPackage × SmsPduBuffer) := do
  let (header, udhl, b) ←
    if bHeaderInd then do
      let (udhl, b) ← b.readByte
      let (header, b) ← decodeHeaders coder (fun b => b.index < udhl.toNat + current)
        (fun _ b' => b'.index > current + udhl.toNat + 2) 7 b
      some (header, udhl.toNat, b)
    else some ([], 0, b)
  if b.index > b.getSize then none
  else
    let (data, b) := decodeOctetBody b (bodyLength udl udhl)
    some (⟨header, data⟩, b)

def decodeUcs2Pdu (coder : TextCoder) (b : SmsPduBuffer) (bHeaderInd : Bool)
    (pTPUD : Option SmsTpud) : Option (SmsUDPackage × Option SmsTpud × SmsPduBuffer) := do
  let current := b.index
  let (udl, b) ← b.readByte
  if udl > 140 ∨ udl.toNat + b.index - 1 > b.getSize then none
  else
    let udl := udl.toNat
    let pTPUD ←
      if pTPUD.isSome then
        if b.index + udl > b.getSize then none
        else some (some ⟨UInt8.ofNat udl, b.octets udl⟩)
      else some pTPUD
    let (userData, b) ← decodeUcs2PduPartData coder b bHeaderInd current udl
    some (userData, pTPUD, b)

/-- Both overloads of `DecodeUserDataPdu`: only the one with `pTPUD` knows
`DATA_CODING_EUCKR`. -/
def decodeUserDataPdu (coder : TextCoder) (b : SmsPduBuffer) (bHeaderInd : Bool)
    (scheme : DataCodingScheme) (pTPUD : Option SmsTpud) :
    Option (SmsUDPackage × Option SmsTpud × SmsPduBuffer) :=
  match scheme with
  | .dataCoding7Bit => decodeGsmPdu coder b bHeaderInd pTPUD
  | .dataCoding8Bit => decode8bitPdu coder b bHeaderInd pTPUD
  | .dataCodingUcs2 => decodeUcs2Pdu coder b bHeaderInd pTPUD
  | .dataCodingEuckr =>
      if pTPUD.isSome then decodeUcs2Pdu coder b bHeaderInd pTPUD else none
  | _ => none

end TelephonySms.Pdu
