import TelephonySms.Cdma.SubParameter
import TelephonySms.Pdu.UserData

/-! # CDMA user data

`CdmaSmsUserData`, with the septet functions of `SmsCommonUtils` that it calls.
The information elements go through the header coder of GSM user data, here in
bit mode.
-/

namespace TelephonySms.Cdma

open TelephonySms.Pdu
open SmsPduBuffer

/-! ## Septets in an array -/

/-- `packData[dstIdx - 1] |= v`. -/
def orLast (packed : List UInt8) (v : UInt8) : List UInt8 :=
  packed.dropLast ++ [packed.getLastD 0 ||| v]

/-- The loop of `Pack7bitChar` over the characters left, with `packed` in the
array so far. A round that starts with `shift` zero goes on with the next
character, as another round would. -/
def packLoop (packLen : Nat) : List UInt8 → Nat → List UInt8 → List UInt8
  | packed, _, [] => packed
  | packed, shift, c :: cs =>
      if packed.length ≥ packLen then packed
      else if shift = 0 then packLoop packLen (packed ++ [c]) 7 cs
      else if shift > 1 then
        packLoop packLen (orLast packed (c <<< UInt8.ofNat shift) ++ [c >>> UInt8.ofNat (8 - shift)])
          (shift - 1) cs
      else packLoop packLen (orLast packed (c <<< UInt8.ofNat shift)) 0 cs

/-- `Pack7bitChar` without fill bits. -/
def pack7bitChar (userData : List UInt8) (packLen : Nat) : List UInt8 :=
  if userData.length > 160 then [] else packLoop packLen [] 0 userData

/-- The septet that ends `shift` bits into the octet at `srcIdx`. -/
def joinedSeptet (tpdu : List UInt8) (shift srcIdx : Nat) : UInt8 :=
  ((tpdu.getD (srcIdx - 1) 0 >>> UInt8.ofNat shift) +
    (tpdu.getD srcIdx 0 <<< UInt8.ofNat (8 - shift))) &&& 0x7F

/-- The second half of a round of `Unpack7bitChar`: what it adds, with the new
`shift` and `srcIdx`. -/
def unpackJoined (tpdu : List UInt8) (shift srcIdx : Nat) : List UInt8 × Nat × Nat :=
  if srcIdx < tpdu.length then
    ([joinedSeptet tpdu shift srcIdx], shift - 1, if shift - 1 > 0 then srcIdx + 1 else srcIdx)
  else ([], shift, srcIdx)

/-- The loop of `Unpack7bitChar` for `n` more rounds, with `dstIdx` septets in
the array. The septet that starts an octet ends the loop when there are as many
septets as octets. -/
def unpackLoop (tpdu : List UInt8) (unpackDataLen : Nat) : Nat → Nat → Nat → Nat → List UInt8
  | 0, _, _, _ => []
  | n + 1, shift, srcIdx, dstIdx =>
      if srcIdx < tpdu.length ∧ dstIdx < unpackDataLen then
        if shift = 0 then
          (tpdu.getD srcIdx 0 &&& 0x7F) ::
            if dstIdx + 1 ≥ tpdu.length then []
            else if dstIdx + 1 < unpackDataLen then
              let (septets, shift, src) := unpackJoined tpdu 7 (srcIdx + 1)
              septets ++ unpackLoop tpdu unpackDataLen n shift src (dstIdx + 2)
            else []
        else
          let (septets, shift, src) := unpackJoined tpdu shift srcIdx
          septets ++ unpackLoop tpdu unpackDataLen n shift src (dstIdx + 1)
      else []

/-- `Unpack7bitChar` without fill bits: the septets it puts into the array. -/
def unpack7bitChar (tpdu : List UInt8) (unpackDataLen : Nat) : List UInt8 :=
  if tpdu.length = 0 ∨ unpackDataLen = 0 ∨ tpdu.length > unpackDataLen then []
  else unpackLoop tpdu unpackDataLen unpackDataLen 0 0 0

/-! ## Writing -/

/-- The headers in a buffer of their own, of which the octets up to its index count. -/
def headerPdu (header : List SmsUDH) : List UInt8 :=
  let b := header.foldl encodeHeader new
  b.data.take (b.index % 256)

def encodeHeader7Bit (data : SmsTeleSvcUserData) (b : SmsPduBuffer) : Option SmsPduBuffer :=
  if data.userData.header.length > 7 then none
  else
    let udh := headerPdu data.userData.header
    let length := data.userData.data.length
    if udh.length > 0 then
      let bits := (udh.length + 1) * 8
      let udhLen := bits / 7 + if bits % 7 ≠ 0 then 1 else 0
      let gsm7Bit := data.encodeType = .gsm7Bit
      let ignoredBits := if gsm7Bit then 8 else 7 - bits % 7
      let numFields := UInt8.ofNat ((if gsm7Bit then udhLen + 1 else udhLen) + length)
      do
        let b ← b.writeBits numFields 8
        let b ← b.writeBits (UInt8.ofNat udh.length) 8
        let b ← writeEach 8 udh b
        writeIf (ignoredBits ≠ 7) 0 ignoredBits b
    else b.writeBits (UInt8.ofNat length) 8

def encodeAscii7Bit (data : SmsTeleSvcUserData) (b : SmsPduBuffer) : Option SmsPduBuffer := do
  let b ← encodeHeader7Bit data b
  if data.userData.data.length > 161 then none else writeEach 7 data.userData.data b

def encodeGsm7Bit (data : SmsTeleSvcUserData) (b : SmsPduBuffer) : Option SmsPduBuffer := do
  let b ← encodeHeader7Bit data b
  writeEach 8 (pack7bitChar data.userData.data 161) b

def encodeHeaderUnicode (data : SmsTeleSvcUserData) (b : SmsPduBuffer) : Option SmsPduBuffer :=
  if data.userData.header.length > 7 then none
  else
    let udh := headerPdu data.userData.header
    let length := data.userData.data.length
    if udh.length > 0 then do
      let b ← b.writeBits (UInt8.ofNat ((udh.length + length) / 2 + 1)) 8
      let b ← b.writeBits (UInt8.ofNat udh.length) 8
      writeEach 8 udh b
    else b.writeBits (UInt8.ofNat (length / 2)) 8

def encodeUnicode (data : SmsTeleSvcUserData) (b : SmsPduBuffer) : Option SmsPduBuffer := do
  let b ← encodeHeaderUnicode data b
  if data.userData.data.length > 161 then none else writeEach 8 data.userData.data b

/-- No header is written. -/
def encode8BitData (data : SmsTeleSvcUserData) (b : SmsPduBuffer) : Option SmsPduBuffer :=
  if data.userData.data.length > 161 then none
  else do
    let b ← b.writeBits (UInt8.ofNat data.userData.data.length) 8
    writeEach 8 data.userData.data b

def encodeUserData (data : SmsTeleSvcUserData) : SmsPduBuffer → Option SmsPduBuffer :=
  writeRecord 0x01 fun b => do
    let b ← b.writeBits data.encodeType.value 5
    let b ← writeIf (data.encodeType = .epm ∨ data.encodeType = .gsmDcs) data.msgType 8 b
    match data.encodeType with
    | .ascii7Bit | .ia5 => encodeAscii7Bit data b
    | .gsm7Bit => encodeGsm7Bit data b
    | .unicode => encodeUnicode data b
    | _ => encode8BitData data b

/-! ## Reading headers -/

/-- Where octets stop when they cannot all be read. -/
def readStop : Nat → SmsPduBuffer → SmsPduBuffer
  | 0, b => b
  | n + 1, b =>
      match b.readByte with
      | none => b
      | some (_, b) => readStop n b

/-- Where an address stops, behind the length of its element, when it cannot be read. -/
def addressStop (b : SmsPduBuffer) : SmsPduBuffer :=
  match b.readByte with
  | none => b
  | some (addrLen, b) =>
      if addrLen ≥ 44 then b
      else
        let bcdLen := (addrLen.toNat + 1) / 2
        match b.pickOneByte with
        | none => b
        | some oneByte =>
            if (oneByte &&& 0x70) >>> 4 = 5 then readStop (1 + bcdLen) b
            else readStop (min bcdLen 21) (b.moveForward 1)

/-- Where an element stops when `DecodeHeader` refuses it: at an octet that
cannot be read, at a length that is refused, or after an address that is. -/
def headerStop (b : SmsPduBuffer) : SmsPduBuffer :=
  match b.readByte with
  | none => b
  | some (udhType, b) =>
      match b.readByte with
      | none => b
      | some (length, b) =>
          if udhType = 0x01 then if length ≠ 0x02 then b else readStop 2 b
          else if length = 0 then b
          else if udhType = 0x22 then addressStop b
          else readStop 4 b

/-- The header loop for the element with number `i`: the headers that count, the
`udhBytes` that are returned, and the buffer. `index` is the octets so far. -/
def decodeHeaderLoop (coder : TextCoder) (udhBytes : UInt8) :
    Nat → List SmsUDH → UInt8 → SmsPduBuffer → (List SmsUDH × UInt8) × SmsPduBuffer
  | 0, headers, index, b => if index < udhBytes then ((headers, 0), b) else ((headers, udhBytes), b)
  | n + 1, headers, index, b =>
      if index < udhBytes then
        match decodeHeader coder b with
        | none => ((headers, 0), headerStop b)
        | some (header, b') =>
            let length := b'.index - b.index
            if length = 0 then ((headers, 0), b')
            else
              let index := index + UInt8.ofNat length
              if index.toNat > udhBytes.toNat + 2 then ((headers, 0), b')
              else decodeHeaderLoop coder udhBytes n (headers ++ [header]) index b'
      else ((headers, udhBytes), b)

/-- `DecodeHeader7Bit`: what cannot be read is taken for no header, and the data
is read from where that stopped. -/
def decodeHeader7Bit (coder : TextCoder) (headerInd : Bool) (b : SmsPduBuffer) :
    (List SmsUDH × UInt8) × SmsPduBuffer :=
  if headerInd then
    match b.readBits 8 with
    | none => (([], 0), b)
    | some (udhBytes, b) =>
        if udhBytes.toNat > 161 then (([], 0), b)
        else decodeHeaderLoop coder udhBytes 7 [] 0 b
  else (([], 0), b)

/-! ## Reading -/

def decodeAscii7Bit (b : SmsPduBuffer) (numFields udhBytes : UInt8) :
    Option (List UInt8 × SmsPduBuffer) := do
  let bits := (udhBytes.toNat + 1) * 8
  let filled : Bool := udhBytes ≠ 0 ∧ bits % 7 ≠ 0
  let (_, b) ← readIf filled 0 (7 - bits % 7) b
  let udhLen := if udhBytes = 0 then 0 else if filled then bits / 7 + 1 else bits / 7
  if udhLen > numFields.toNat then none
  else
    let length := numFields.toNat - udhLen
    if length > 161 then none else readEach 7 length b

/-- The array has zeros where no septet is put. -/
def decodeGsm7Bit (b : SmsPduBuffer) (numFields udhBytes : UInt8) :
    Option (List UInt8 × SmsPduBuffer) := do
  let bits := (udhBytes.toNat + 1) * 8
  let filled : Bool := udhBytes ≠ 0 ∧ bits % 7 ≠ 0
  let (_, b) ← readIf filled 0 8 b
  let udhLen := if udhBytes = 0 then 0 else if filled then bits / 7 + 2 else bits / 7 + 1
  if udhLen > numFields.toNat then none
  else
    let length := numFields.toNat - udhLen
    let udBytes := (length * 7 + 7) / 8
    if udBytes > 161 then none
    else
      let (dest, b) ← readEach 8 udBytes b
      let septets := unpack7bitChar dest 161
      some ((septets ++ List.replicate (length - septets.length) 0).take length, b)

def decode8BitData (b : SmsPduBuffer) (length : UInt8) : Option (List UInt8 × SmsPduBuffer) :=
  if length.toNat > 161 then none else readEach 8 length.toNat b

/-- `Decode` behind the count of fields and the headers. -/
def decodeFields (b : SmsPduBuffer) (encodeType : SmsEncodingType) (headerInd : Bool)
    (numFields udhBytes : UInt8) : Option (List UInt8 × SmsPduBuffer) :=
  match encodeType with
  | .ascii7Bit | .ia5 => decodeAscii7Bit b numFields udhBytes
  | .gsm7Bit => decodeGsm7Bit b numFields udhBytes
  | .epm | .gsmDcs => none
  | .unicode =>
      decode8BitData b (if headerInd then numFields * 2 - udhBytes - 1 else numFields * 2)
  | _ => decode8BitData b (if headerInd then numFields - udhBytes - 1 else numFields)

/-- `Decode` into a zeroed record, with the header indicator that the message
has when it is called. Nothing is read for the two codings with a message type,
which are refused. -/
def decodeUserData (coder : TextCoder) (headerInd : Bool) :
    SmsPduBuffer → Option (SmsTeleSvcUserData × SmsPduBuffer) :=
  readRecord 0x01 fun _ b => do
    let (v, b) ← b.readBits 5
    let encodeType := getEncodingType v
    let (msgType, b) ← readIf (encodeType = .epm ∨ encodeType = .gsmDcs) 0 8 b
    let (numFields, b) ← b.readBits 8
    let ((header, udhBytes), b) := decodeHeader7Bit coder headerInd b
    let (data, b) ← decodeFields b encodeType headerInd numFields udhBytes
    some (⟨encodeType, msgType, ⟨header, data⟩⟩, b)

end TelephonySms.Cdma
