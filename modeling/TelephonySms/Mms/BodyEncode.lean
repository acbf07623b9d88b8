import TelephonySms.Mms.HeaderEncode

/-! # Encoding bodies and messages

The encoders of `MmsContentType`, `MmsBodyPartHeader`, `MmsBodyPart` and `MmsBody`, and
`MmsMsg::EncodeMsg`, which returns the octets and leaves the message it was called on.
-/

namespace TelephonySms.Mms

open Action MmsFieldCode ContentParam MmsHeaderParam

/-! ## Content types -/

namespace MmsContentParam

variable (platform : Platform) (param : MmsContentParam)

def encodeTextField : Write Unit :=
  forEach (fun field =>
    match param.textMap field with
    | none => pure ()
    | some value => do
        writeByte field
        encodeText platform value) textParams

def encodeCharsetField : Write Unit :=
  if param.charset = 0 then
    pure ()
  else do
    writeByte CT_P_CHARSET
    encodeLongInteger param.charset

def encodeTypeField : Write Unit :=
  if param.type = [] then
    pure ()
  else do
    writeByte CT_P_TYPE_STRING
    encodeText platform param.type

end MmsContentParam

def encodeMmsBodyPartContentType (platform : Platform) (contentType : MmsContentType) :
    Write Unit := do
  let tmpEncodeBuffer ← inTempBuffer do
    match getContentTypeFromString contentType.contentType with
    | none => encodeText platform contentType.contentType
    | some index => writeByte (UInt8.ofNat index ||| 0x80)
    contentType.msgContentParm.encodeTextField platform
    contentType.msgContentParm.encodeCharsetField
    contentType.msgContentParm.encodeTypeField platform
  encodeValueLength tmpEncodeBuffer.length
  writeBuffer tmpEncodeBuffer

/-! ## Parts -/

namespace MmsBodyPartHeader

variable (platform : Platform) (ph : MmsBodyPartHeader)

def encodeContentId : Write Unit :=
  if ph.strContentID = [] then
    pure ()
  else do
    writeByte (P_CONTENT_ID ||| 0x80)
    encodeQuotedText ph.strContentID

def encodeContentLocation : Write Unit :=
  if ph.strContentLocation = [] then
    pure ()
  else do
    writeByte (P_CONTENT_LOCATION_V2 ||| 0x80)
    encodeText platform ph.strContentLocation

def dispositionCode (disposition : Octets) : Option UInt8 :=
  if disposition = DISPOSITION_FROM_DATA then some 0x80
  else if disposition = DISPOSITION_ATTACHMENT then some 0x81
  else if disposition = DISPOSITION_INLINE then some 0x82
  else none

def encodeContentDisposition : Write Unit :=
  match dispositionCode ph.strDisposition with
  | none => pure ()
  | some code => do
      writeByte (P_CONTENT_DISPOSITION_V1 ||| 0x80)
      encodeUintvar 1
      writeByte code

def encodeContentTransferEncoding : Write Unit :=
  if ph.strContentTransferEncoding = [] then
    pure ()
  else do
    encodeText platform (ascii "Content-Transfer-Encoding")
    encodeText platform ph.strContentTransferEncoding

def encodeMmsBodyPartHeader : Write Unit := do
  ph.encodeContentId
  ph.encodeContentLocation platform
  ph.encodeContentDisposition
  ph.encodeContentTransferEncoding platform

end MmsBodyPartHeader

namespace MmsBodyPart

variable (platform : Platform) (part : MmsBodyPart)

/-- `memcpy_s` refuses an empty destination. -/
def readBodyPartBuffer : Write Octets := do
  guard (part.pbodyPartBuffer.length ≤ MMS_PDU_MAX_SIZE)
  guard (part.pbodyPartBuffer ≠ [])
  pure part.pbodyPartBuffer

def encodeMmsBodyPart : Write Unit := do
  let tmpEncodeBuffer ← inTempBuffer do
    encodeMmsBodyPartContentType platform part.bodyPartContentType
    part.mmsBodyPartHeader.encodeMmsBodyPartHeader platform
  encodeUintvar tmpEncodeBuffer.length
  encodeUintvar part.pbodyPartBuffer.length
  writeBuffer tmpEncodeBuffer
  let bodyBuff ← part.readBodyPartBuffer
  writeBuffer bodyBuff

end MmsBodyPart

/-! ## Bodies and messages -/

namespace MmsBody

variable (platform : Platform) (body : MmsBody)

def encodeMmsHeaderContentType (mmsHeader : MmsHeader) : Write Unit := do
  writeByte MMS_CONTENT_TYPE
  guard (mmsHeader.mmsContentType.contentType ≠ [])
  if !mmsHeader.isHaveBody || body.mmsBodyParts.isEmpty then
    encodeText platform mmsHeader.mmsContentType.contentType
  else do
    let tmpEncodeBuffer ← inTempBuffer do
      encodeText platform mmsHeader.mmsContentType.contentType
      attempt (mmsHeader.mmsContentType.msgContentParm.encodeTextField platform)
      attempt (mmsHeader.mmsContentType.msgContentParm.encodeTypeField platform)
      attempt mmsHeader.mmsContentType.msgContentParm.encodeCharsetField
    encodeValueLength tmpEncodeBuffer.length
    writeBuffer tmpEncodeBuffer

def encodeMmsBody : Write Unit := do
  encodeUintvar body.mmsBodyParts.length
  forEach (fun part => part.encodeMmsBodyPart platform) body.mmsBodyParts

end MmsBody

namespace MmsMsg

variable (platform : Platform)

/-- Everything that is written behind the header fields. -/
def encodeBody (header : MmsHeader) (body : MmsBody) : Write Unit :=
  if header.isHaveBody then do
    body.encodeMmsHeaderContentType platform header
    body.encodeMmsBody platform
  else
    pure ()

/-- The octets, and the message after the call. -/
def encodeMsg (msg : MmsMsg) : Option Octets × MmsMsg :=
  match HeaderWrite.encodeMmsHeader platform (msg.mmsHeader, []) with
  | (none, header, _) => (none, { msg with mmsHeader := header })
  | (some (), header, buffer) =>
      match encodeBody platform header msg.mmsBody buffer with
      | (none, _) => (none, { msg with mmsHeader := header })
      | (some (), octets) => (some octets, { msg with mmsHeader := header })

end MmsMsg

end TelephonySms.Mms
