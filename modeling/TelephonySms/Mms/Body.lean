import TelephonySms.Mms.Header

/-! # Message bodies

`MmsBodyPartHeader`, `MmsBodyPart`, `MmsBody` and `MmsMsg::DecodeMsg`: a multipart body is
a count and as many parts, and each part has the lengths of its headers and of its data,
a content type, headers and data.
-/

namespace TelephonySms.Mms

open OctetReader Reader

/-! ## Part headers -/

structure MmsBodyPartHeader where
  strContentTransferEncoding : Octets := ascii "binary"
  strFileName : Octets := []
  strDisposition : Octets := []
  strContentID : Octets := []
  strContentLocation : Octets := []
  deriving DecidableEq, Repr

def DISPOSITION_FROM_DATA : Octets := ascii "from-data"
def DISPOSITION_ATTACHMENT : Octets := ascii "attachment"
def DISPOSITION_INLINE : Octets := ascii "inline"

namespace MmsHeaderParam

def P_CONTENT_LOCATION_V1 : UInt8 := 0x04
def P_CONTENT_LOCATION_V2 : UInt8 := 0x0e
def P_CONTENT_ID : UInt8 := 0x40
def P_CONTENT_DISPOSITION_V1 : UInt8 := 0x2e
def P_CONTENT_DISPOSITION_V2 : UInt8 := 0x45

end MmsHeaderParam

open MmsHeaderParam

namespace MmsBodyPartHeader

variable (ph : MmsBodyPartHeader)

def decodeContentLocation : Reader (MmsBodyPartHeader × Nat) := do
  let (sTmp, len) ← decodeText
  pure ({ ph with strContentLocation := sTmp }, len)

def decodeContentId : Reader (MmsBodyPartHeader × Nat) := do
  let (sTmp, len) ← decodeQuotedText
  pure ({ ph with strContentID := sTmp }, len)

def decodeFileName (oneByte : UInt8) : Reader MmsBodyPartHeader :=
  if oneByte = 0x98 then do
    let (strTmp, _) ← decodeText
    pure { ph with strFileName := strTmp }
  else
    pure ph

def decodeDispositionParameter (dispLen beginPos : Nat) : Reader (MmsBodyPartHeader × Nat) := do
  let endPostion ← getCurPosition
  if endPostion < beginPos then
    pure (ph, dispLen)
  else if dispLen ≤ endPostion - beginPos ∧ dispLen ≥ 1 then
    pure (ph, endPostion - beginPos - 1)
  else do
    let oneByte ← getOneByte
    let ph ← decodeFileName ph oneByte
    let endPostion ← getCurPosition
    guard (¬ (endPostion < beginPos ∨ dispLen < endPostion - beginPos))
    increasePointer (dispLen - (endPostion - beginPos))
    pure (ph, dispLen)

/-- `Form-data | Attachment | Inline | Token-text` -/
def decodeDisposition : Reader Octets := do
  let oneByte ← getOneByte
  if oneByte = 0x80 then
    pure DISPOSITION_FROM_DATA
  else if oneByte = 0x81 then
    pure DISPOSITION_ATTACHMENT
  else if oneByte = 0x82 then
    pure DISPOSITION_INLINE
  else do
    decreasePointer 1
    let (strTmp, _) ← decodeText
    pure strTmp

def decodeContentDisposition : Reader (MmsBodyPartHeader × Nat) := do
  let (dispositionLength, count) ← decodeUintvar
  let beginPostion ← getCurPosition
  let disposition ← decodeDisposition
  let (ph, dispositionLength) ← decodeDispositionParameter { ph with strDisposition := disposition }
    dispositionLength beginPostion
  pure (ph, u32 (dispositionLength + count + 1))

/-- The value of the field, and the length the caller takes off the header. -/
def decodeWellKnownValue (fieldCode : UInt8) : Reader (MmsBodyPartHeader × Nat) :=
  if fieldCode = P_CONTENT_LOCATION_V1 ∨ fieldCode = P_CONTENT_LOCATION_V2 then
    decodeContentLocation ph
  else if fieldCode = P_CONTENT_ID then
    decodeContentId ph
  else if fieldCode = P_CONTENT_DISPOSITION_V1 ∨ fieldCode = P_CONTENT_DISPOSITION_V2 then
    decodeContentDisposition ph
  else do
    let text ← attempt decodeQuotedText
    pure (ph, (text.getD ([], 0)).2)

def decodeWellKnownHeader (headerLen : Nat) : Reader (MmsBodyPartHeader × Nat) := do
  let oneByte ← getOneByte
  let headerLen := headerLen - 1
  let (ph, len) ← decodeWellKnownValue ph (oneByte &&& 0x7f)
  pure (ph, if headerLen > u32 (len + 1) then headerLen - u32 (len + 1) else 0)

/-- The length that is left is reset before anything is taken off it. -/
def decodeApplicationHeader : Reader (MmsBodyPartHeader × Nat) := do
  let headerLen := 0
  let (sField, fieldLen) ← decodeTokenText
  let (sValue, valueLen) ← decodeText
  let ph := if sField = ascii "Content-Transfer-Encoding" then
    { ph with strContentTransferEncoding := sValue } else ph
  pure (ph, if headerLen > u32 (fieldLen + valueLen + 2) then
    headerLen - u32 (fieldLen + valueLen + 2) else 0)

end MmsBodyPartHeader

/-! ## Transfer encodings -/

/-- The loop of `MmsQuotedPrintable::Decode` over what is left of the input. -/
def quotedPrintableLoop (platform : Platform) : Nat → Octets → Octets
  | 0, _ => []
  | _, [] => []
  | fuel + 1, oneByte :: rest =>
      if (oneByte :: rest).take 3 = ascii "=/r" then
        quotedPrintableLoop platform fuel ((oneByte :: rest).drop 3)
      else
        match if oneByte = 0x3d then platform.scanHexOctet (oneByte :: rest) else none with
        | some hexChar =>
            UInt8.ofNat hexChar :: quotedPrintableLoop platform fuel ((oneByte :: rest).drop 3)
        | none => oneByte :: quotedPrintableLoop platform fuel rest

def MAX_MMS_ATTACHMENT_LEN : Nat := 10 * 1024 * 1024

def quotedPrintableDecode (platform : Platform) (src : Octets) : Octets :=
  if src.length = 0 ∨ src.length > MAX_MMS_ATTACHMENT_LEN then
    []
  else
    quotedPrintableLoop platform src.length src

/-- What the transfer encoding of a part makes of its data, empty for none of the two. -/
def transferDecode (platform : Platform) (transferEncoding data : Octets) : Octets :=
  if transferEncoding = ascii "base64" then
    platform.getBase64Decode data
  else if transferEncoding = ascii "quoted-printable" then
    quotedPrintableDecode platform data
  else
    []

/-! ## Parts -/

structure MmsBodyPart where
  isSmilFile : Bool := false
  strFileName : Octets := []
  headerLen : Nat := 0
  bodyPartContentType : MmsContentType := {}
  mmsBodyPartHeader : MmsBodyPartHeader := {}
  /-- the first `bodyLen_` octets of `pbodyPartBuffer_` -/
  pbodyPartBuffer : Octets := []

namespace MmsBodyPart

variable (platform : Platform)

/-- One round of `DecodePartHeader`: a header, and the length that is left. -/
def decodeOnePartHeader (state : MmsBodyPartHeader × Nat) :
    Reader ((MmsBodyPartHeader × Nat) ⊕ MmsBodyPartHeader) :=
  if state.2 > 0 then do
    let oneByte ← peekOneByte
    if 0x80 ≤ oneByte ∧ oneByte ≤ 0xc7 then do
      let next ← state.1.decodeWellKnownHeader state.2
      pure (.inl next)
    else if 32 ≤ oneByte ∧ oneByte ≤ 127 then do
      let next ← state.1.decodeApplicationHeader
      pure (.inl next)
    else
      fail
  else
    pure (.inr state.1)

def decodePartHeader (ph : MmsBodyPartHeader) (headerLen : Nat) : Reader MmsBodyPartHeader :=
  loop decodeOnePartHeader (ph, headerLen)

/-- The data taken out of its transfer encoding. -/
def transferBody (ph : MmsBodyPartHeader) (bodyPartBuffer : Octets) : Reader Octets :=
  let encodebuffer := transferDecode platform ph.strContentTransferEncoding bodyPartBuffer
  if encodebuffer.length ≠ 0 then do
    guard (encodebuffer.length ≤ MMS_PDU_MAX_SIZE)
    pure encodebuffer
  else
    pure bodyPartBuffer

def decodePartBody (ph : MmsBodyPartHeader) (bodyLength : Nat) : Reader Octets := do
  let offset ← getCurPosition
  let size ← getSize
  guard (¬ (u32 (offset + bodyLength) > size ∨ bodyLength > MMS_PDU_MAX_SIZE))
  let bodyPartBuffer ← readDataBuffer offset bodyLength
  let body ← transferBody platform ph bodyPartBuffer
  increasePointer bodyLength
  pure body

def decodeSetFileName (nEntries : Nat) (part : MmsBodyPart) : MmsBodyPart :=
  let fileName := part.bodyPartContentType.msgContentParm.getFileName
  if fileName.length > 0 then
    { part with strFileName := fileName }
  else if part.mmsBodyPartHeader.strContentLocation.length > 0 then
    { part with strFileName := part.mmsBodyPartHeader.strContentLocation }
  else if part.mmsBodyPartHeader.strContentID.length > 0 then
    { part with strFileName := part.mmsBodyPartHeader.strContentID }
  else
    { part with strFileName := platform.currentTime ++ [0x5f, UInt8.ofNat (0x30 + nEntries)] }

def decodePart (nEntries : Nat) : Reader MmsBodyPart := do
  let (headerLength, _) ← decodeUintvar
  let (bodyLength, _) ← decodeUintvar
  let (contentType, contentLength) ← decodeMmsContentType {}
  guard (¬ headerLength < contentLength)
  let ph ← decodePartHeader {} (headerLength - contentLength)
  let body ← decodePartBody platform ph bodyLength
  pure (decodeSetFileName platform nEntries {
    headerLen := headerLength
    bodyPartContentType := contentType
    mmsBodyPartHeader := ph
    pbodyPartBuffer := body })

end MmsBodyPart

/-! ## Bodies and messages -/

structure MmsBody where
  bHaveSmilPart : Bool := false
  mmsBodyParts : List MmsBodyPart := []

structure MmsMsg where
  mmsHeader : MmsHeader := {}
  mmsBody : MmsBody := {}

def MMS_MSGTYPE_SEND_REQ : UInt8 := 128
def MMS_MSGTYPE_RETRIEVE_CONF : UInt8 := 132

namespace MmsBody

variable (platform : Platform)

/-- `while (nEntries)` -/
def decodeParts : Nat → Reader (List MmsBodyPart)
  | 0 => pure []
  | nEntries + 1 => do
      let bodyPart ← MmsBodyPart.decodePart platform (nEntries + 1)
      let bodyParts ← decodeParts nEntries
      pure (bodyPart :: bodyParts)

def decodeMultipart (body : MmsBody) : Reader MmsBody := do
  let (nEntries, _) ← decodeUintvar
  let size ← getSize
  let position ← getCurPosition
  guard (¬ size - position < nEntries)
  let bodyParts ← decodeParts platform nEntries
  pure { body with mmsBodyParts := body.mmsBodyParts ++ bodyParts }

/-- The content types that are decoded as multipart. -/
def multipartTypes : List Nat := [0x23, 0x33, 0x26, 0x0c, 0x0f, 0x48, 0x49]

def isMultipart (contentType : Octets) : Bool :=
  match getContentTypeFromString contentType with
  | some index => multipartTypes.contains index
  | none => false

def decodeMmsBody (body : MmsBody) (header : MmsHeader) : Reader MmsBody :=
  match header.octetValueMap MmsFieldCode.MMS_MESSAGE_TYPE with
  | none => fail
  | some msgType =>
      if msgType ≠ MMS_MSGTYPE_SEND_REQ ∧ msgType ≠ MMS_MSGTYPE_RETRIEVE_CONF then
        pure body
      else if isMultipart header.mmsContentType.contentType then
        decodeMultipart platform body
      else
        pure body

end MmsBody

namespace MmsMsg

variable (platform : Platform)

def decodeBuffer (msg : MmsMsg) : Reader MmsMsg := do
  let header ← msg.mmsHeader.decodeMmsHeader platform
  let body ← MmsBody.decodeMmsBody platform msg.mmsBody header
  pure ⟨header, body⟩

/-- The cursor over a buffer to which `WriteDataBuffer` has copied the octets. -/
def startOf (inBuff : Octets) : Cursor := ⟨inBuff, 0, []⟩

def decodeMsg (msg : MmsMsg) (inBuff : Octets) : Outcome MmsMsg :=
  if inBuff.length = 0 ∨ inBuff.length > MMS_PDU_MAX_SIZE then
    .failed
  else
    (msg.decodeBuffer platform (startOf inBuff)).1

end MmsMsg

end TelephonySms.Mms
