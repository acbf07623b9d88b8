import TelephonySms.Cdma.Teleservice

/-! # Transport messages

The parameter records of `cdma_sms_parameter_record.cpp` and the three kinds of
transport message. A message that is read is scanned first, with the bearer data
scanned in its turn as soon as it is met, and then every parameter is read.
-/

namespace TelephonySms.Cdma

open TelephonySms.Pdu
open SmsPduBuffer

/-! ## Parameter records -/

/-- `CdmaSmsTeleserviceId` and `CdmaSmsServiceCategory`. -/
def encodeWord (id : UInt8) (v : UInt16) (b : SmsPduBuffer) : Option SmsPduBuffer := do
  let b ← writeIdLen id 2 b
  b.writeWord v

def decodeWord (id : UInt8) (b : SmsPduBuffer) : Option (UInt16 × SmsPduBuffer) := do
  let (_, b) ← readIdLen id b
  b.readWord

def encodeBearerReply (replySeq : UInt8) (b : SmsPduBuffer) : Option SmsPduBuffer := do
  let b ← writeIdLen 0x06 1 b
  let b ← b.writeBits replySeq 6
  some b.skipBits

def decodeBearerReply : SmsPduBuffer → Option (UInt8 × SmsPduBuffer) :=
  readRecord 0x06 fun _ b => b.readBits 6

def encodeCauseCodes (code : TransportCauseCode) : SmsPduBuffer → Option SmsPduBuffer :=
  writeRecord 0x07 fun b => do
    let b ← b.writeBits code.transReplySeq 6
    let b ← b.writeBits code.errorClass.value 2
    writeIf (code.errorClass ≠ .none) code.causeCode 8 b

/-- A class without a name leaves the class as it is. -/
def decodeErrorClass (errorClass : TransportErrClass) (v : UInt8) : TransportErrClass :=
  if v = 0 then .none
  else if v = 2 then .temporary
  else if v = 3 then .permanent
  else errorClass

def decodeCauseCodes (code : TransportCauseCode) :
    SmsPduBuffer → Option (TransportCauseCode × SmsPduBuffer) :=
  readRecord 0x07 fun _ b => do
    let (transReplySeq, b) ← b.readBits 6
    let (v, b) ← b.readBits 2
    let errorClass := decodeErrorClass code.errorClass v
    let (causeCode, b) ← readIf (errorClass ≠ .none) code.causeCode 8 b
    some (⟨transReplySeq, errorClass, causeCode⟩, b)

def encodeAddress (address : TransportAddr) (b : SmsPduBuffer) : Option SmsPduBuffer := do
  let b ← b.writeBits (UInt8.ofNat address.szData.length) 8
  if address.szData.length > 257 then none
  else writeNumber address.digitMode address.szData b

def encodeAddressParameter (id : UInt8) (address : TransportAddr) :
    SmsPduBuffer → Option SmsPduBuffer :=
  writeRecord id fun b => do
    let b ← writeBool address.digitMode b
    let b ← writeBool address.numberMode b
    let b ← writeIf address.digitMode address.numberType 3 b
    let b ← writeIf (address.digitMode && !address.numberMode) address.numberPlan 4 b
    encodeAddress address b

/-- The address is cleared before it is read. -/
def decodeAddressParameter (id : UInt8) : SmsPduBuffer → Option (TransportAddr × SmsPduBuffer) :=
  readRecord id fun _ b => do
    let (digitMode, b) ← readBool b
    let (numberMode, b) ← readBool b
    let (numberType, b) ← readIf digitMode 0 3 b
    let (numberPlan, b) ← readIf (digitMode && !numberMode) 0 4 b
    let (addrLen, b) ← b.readBits 8
    let (szData, b) ← readNumber digitMode addrLen.toNat b
    some (⟨digitMode, numberMode, numberType, numberPlan, szData⟩, b)

def encodeSubaddress (id : UInt8) (address : TransportSubAddr) :
    SmsPduBuffer → Option SmsPduBuffer :=
  writeRecord id fun b => do
    let b ← b.writeBits address.type.value 3
    let b ← writeBool address.odd b
    let b ← b.writeBits (UInt8.ofNat address.szData.length) 8
    if address.szData.length > 257 then none else writeNumber true address.szData b

def decodeSubaddress (id : UInt8) : SmsPduBuffer → Option (TransportSubAddr × SmsPduBuffer) :=
  readRecord id fun _ b => do
    let (v1, b) ← b.readBits 3
    let (odd, b) ← readBool b
    let (addrLen, b) ← b.readBits 8
    let (szData, b) ← readNumber true addrLen.toNat b
    some (⟨.ofValue v1, odd, szData⟩, b)

/-- `CdmaSmsBearerData::Encode`; the teleservice message ends with an octet. -/
def encodeBearerData (msg : CdmaTeleserviceMsg) (b : SmsPduBuffer) : Option SmsPduBuffer := do
  let pars ← teleserviceParameters msg
  let b ← b.writeByte 0x08
  let lenIndex := b.index
  let b ← encodeParameters msg pars (b.moveForward 1)
  b.insertByte (UInt8.ofNat (b.index - lenIndex - 1)) lenIndex

/-! ## Parameters of a message -/

/-- The classes of parameter records. Bearer data that is read holds the
sub-parameters of its message, unless its type is not one of a message to read. -/
inductive ParameterRecord where
  | teleserviceId
  | serviceCategory
  | address (id : UInt8)
  | subaddress (id : UInt8)
  | bearerReply
  | causeCodes
  | bearerData (message : Option (List (Scanned SubParameter)))
deriving DecidableEq, Repr

def ParameterRecord.id : ParameterRecord → UInt8
  | .teleserviceId => 0x00
  | .serviceCategory => 0x01
  | .address id => id
  | .subaddress id => id
  | .bearerReply => 0x06
  | .causeCodes => 0x07
  | .bearerData _ => 0x08

/-! ## Writing -/

def ParameterRecord.encode (par : ParameterRecord) (msg : CdmaTransportMsg) (b : SmsPduBuffer) :
    Option SmsPduBuffer :=
  match par with
  | .teleserviceId => encodeWord 0x00 msg.teleserviceId b
  | .serviceCategory => encodeWord 0x01 msg.serviceCtg b
  | .address id => encodeAddressParameter id msg.address b
  | .subaddress id => encodeSubaddress id msg.subAddress b
  | .bearerReply => encodeBearerReply msg.replySeq b
  | .causeCodes => encodeCauseCodes msg.causeCode b
  | .bearerData _ => encodeBearerData msg.telesvcMsg b

def p2pParameters (msg : CdmaTransportMsg) : List ParameterRecord :=
  [.teleserviceId] ++
  (if msg.serviceCtg < 0x8001 then [.serviceCategory] else []) ++
  [.address 0x04] ++
  (if msg.subAddress.szData.length > 0 then [.subaddress 0x05] else []) ++
  (if msg.replySeq > 0 then [.bearerReply] else []) ++
  [.bearerData none]

def broadcastParameters : List ParameterRecord := [.serviceCategory, .bearerData none]

def ackParameters (msg : CdmaTransportMsg) : List ParameterRecord :=
  [.address 0x04] ++ (if msg.subAddress.szData.length > 0 then [.subaddress 0x05] else []) ++
  [.causeCodes]

/-- `CreateTransportMessage` for a message to send: its type octet and parameters. -/
def transportParameters (msg : CdmaTransportMsg) : Option (UInt8 × List ParameterRecord) :=
  match msg.type with
  | .p2p => some (0, p2pParameters msg)
  | .broadcast => some (1, broadcastParameters)
  | .ack => some (2, ackParameters msg)
  | .reserved => none

def encodeRecords (msg : CdmaTransportMsg) : List ParameterRecord → SmsPduBuffer →
    Option SmsPduBuffer
  | [], b => some b
  | par :: pars, b => do
      let b ← par.encode msg b
      encodeRecords msg pars b

/-- `CreateTransportMessage` and `CdmaSmsTransportMessage::Encode` into an empty buffer. -/
def encodeTransport (msg : CdmaTransportMsg) : Option SmsPduBuffer := do
  let (type, pars) ← transportParameters msg
  let b ← (new.setIndex 0).writeByte type
  encodeRecords msg pars b

/-! ## Scanning -/

/-- `CdmaSmsBearerData` behind the length octet: the type of the message, its
scanned sub-parameters, and the buffer. The index is kept in eight bits. -/
def scanBearerData (isCMAS : Bool) (msg : CdmaTeleserviceMsg) (b : SmsPduBuffer) :
    (CdmaTeleserviceMsg × Option (List (Scanned SubParameter))) × SmsPduBuffer :=
  let index := b.index % 256
  let (type, b) := getMessageType b
  let b := b.setIndex index
  match messageKind isCMAS type with
  | none => (({ msg with type := .reserved }, none), b)
  | some (kind, parameter) =>
      let (pars, b) := scanParameters parameter 24 b
      let msg := { msg with type := kind }
      ((if kind = .submit then { msg with priority := .reserved } else msg, some pars), b)

/-- One known parameter of a scan: the message and the buffer before the length is skipped. -/
abbrev ScanStep := CdmaTransportMsg → SmsPduBuffer →
  Option ((CdmaTransportMsg × ParameterRecord) × SmsPduBuffer)

def scanP2pParameter (id : UInt8) : ScanStep := fun msg b =>
  if id = 0x00 then some ((msg, .teleserviceId), b)
  else if id = 0x01 then some ((msg, .serviceCategory), b)
  else if id = 0x02 ∨ id = 0x04 then some ((msg, .address id), b)
  else if id = 0x03 ∨ id = 0x05 then some ((msg, .subaddress id), b)
  else if id = 0x06 then some ((msg, .bearerReply), b)
  else if id = 0x08 then
    let index := b.index
    let ((telesvcMsg, message), b) := scanBearerData false msg.telesvcMsg b
    some (({ msg with telesvcMsg := telesvcMsg }, .bearerData message), b.setIndex index)
  else none

/-- `CMAS_PRESIDENTIAL` to `CMAS_TEST`. -/
def isCMAS (serviceCtg : UInt16) : Bool := 0x1000 ≤ serviceCtg ∧ serviceCtg ≤ 0x1004

/-- The category is read at once, whether or not that succeeds. -/
def scanBroadcastParameter (id : UInt8) : ScanStep := fun msg b =>
  if id = 0x01 then
    let index := b.index
    match decodeWord 0x01 (b.moveBack 2) with
    | none => some ((msg, .serviceCategory), b.setIndex index)
    | some (serviceCtg, b) =>
        some (({ msg with serviceCtg := serviceCtg }, .serviceCategory), b.setIndex index)
  else if id = 0x08 then
    let index := b.index
    let ((telesvcMsg, message), b) := scanBearerData (isCMAS msg.serviceCtg) msg.telesvcMsg b
    some (({ msg with telesvcMsg := telesvcMsg }, .bearerData message), b.setIndex index)
  else none

def scanAckParameter (id : UInt8) : ScanStep := fun msg b =>
  if id = 0x04 then some ((msg, .address id), b)
  else if id = 0x05 then some ((msg, .subaddress id), b)
  else if id = 0x07 then some ((msg, .causeCodes), b)
  else none

/-- The loop of the three constructors, for `n` more parameters at most. An
unknown identifier ends it. -/
def scanRecords (step : UInt8 → ScanStep) : Nat → CdmaTransportMsg → SmsPduBuffer →
    CdmaTransportMsg × List (Scanned ParameterRecord)
  | 0, msg, _ => (msg, [])
  | n + 1, msg, b =>
      match b.readByte with
      | none => (msg, [])
      | some (id, b') =>
          match b'.readByte with
          | none => (msg, [])
          | some (len, b'') =>
              match step id msg b'' with
              | none => (msg, [])
              | some ((msg, par), b₃) =>
                  let (msg, pars) := scanRecords step n msg (b₃.moveForward len.toNat)
                  (msg, ⟨b.index, len, par⟩ :: pars)

/-- `CreateTransportMessage` for a buffer: the message as far as the scan sets
it, and the parameters. `CAT_UNKNOWN` is `0x8001`. -/
def createTransportMessage (msg : CdmaTransportMsg) (b : SmsPduBuffer) :
    Option (CdmaTransportMsg × List (Scanned ParameterRecord)) := do
  let (type, b) ← b.readByte
  if type = 0 then
    some (scanRecords scanP2pParameter 9 { msg with type := .p2p, serviceCtg := 0x8001 } b)
  else if type = 1 then
    some (scanRecords scanBroadcastParameter 9
      { msg with type := .broadcast, serviceCtg := 0x8001 } b)
  else if type = 2 then some (scanRecords scanAckParameter 9 { msg with type := .ack } b)
  else none

/-! ## Reading -/

def ParameterRecord.decode (coder : TextCoder) (par : ParameterRecord) (msg : CdmaTransportMsg)
    (b : SmsPduBuffer) : Option (CdmaTransportMsg × SmsPduBuffer) :=
  match par with
  | .teleserviceId => do
      let (v, b) ← decodeWord 0x00 b
      some ({ msg with teleserviceId := v }, b)
  | .serviceCategory => do
      let (v, b) ← decodeWord 0x01 b
      some ({ msg with serviceCtg := v }, b)
  | .address id => do
      let (addr, b) ← decodeAddressParameter id b
      some ({ msg with address := addr }, b)
  | .subaddress id => do
      let (addr, b) ← decodeSubaddress id b
      some ({ msg with subAddress := addr }, b)
  | .bearerReply => do
      let (replySeq, b) ← decodeBearerReply b
      some ({ msg with replySeq := replySeq }, b)
  | .causeCodes => do
      let (code, b) ← decodeCauseCodes msg.causeCode b
      some ({ msg with causeCode := code }, b)
  | .bearerData none => none
  | .bearerData (some pars) => do
      let (_, b) ← readIdLen 0x08 b
      let (telesvcMsg, b) ←
        decodeTeleservice coder (pars.map Scanned.parameter) msg.telesvcMsg b
      some ({ msg with telesvcMsg := telesvcMsg }, b)

def decodeRecords (coder : TextCoder) : List ParameterRecord → CdmaTransportMsg →
    SmsPduBuffer → Option (CdmaTransportMsg × SmsPduBuffer)
  | [], msg, b => some (msg, b)
  | par :: pars, msg, b => do
      let (msg, b) ← par.decode coder msg b
      decodeRecords coder pars msg b

/-- `CreateTransportMessage` and `CdmaSmsTransportMessage::Decode` on the octets
of a message, into a zeroed record. -/
def decodeTransport (coder : TextCoder) (hex : List UInt8) : Option CdmaTransportMsg := do
  let b := ofHex hex
  let (msg, pars) ← createTransportMessage .zero b
  if pars = [] then none
  else
    -- The type was one of the three for the scan to succeed.
    let (_, b) ← (b.setIndex 0).readByte
    let (msg, _) ← decodeRecords coder (pars.map Scanned.parameter) msg b
    some msg

end TelephonySms.Cdma
