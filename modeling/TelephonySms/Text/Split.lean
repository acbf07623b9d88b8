import TelephonySms.Pdu.Message
import TelephonySms.Text.Coder

/-! # Splitting a text

`SmsBaseMessage` with the coders of `GsmSmsMessage` and `CdmaSmsMessage`: a text is
coded as a whole and the coded octets are cut into the segments of a concatenated
message, and `GetSmsSegmentsInfo` counts the segments without cutting.
-/

namespace TelephonySms.Text

open TelephonySms.Pdu

/-- The class of the message; the GSM message knows the national type. -/
inductive Splitter where
  | gsm (smsCodingNationalType : SmsCodingNationalType)
  | cdma
deriving DecidableEq, Repr

/-- What `DecodeMessage` leaves: the scheme it settles on, the language, and the
octets of `decodeData` up to the length it returns. No octets stand for a length
that is not positive. -/
structure Decoded where
  codingType : DataCodingScheme
  langId : UInt8
  data : List UInt8
deriving DecidableEq, Repr

/-- `sizeof(decodeData)`. -/
def maxDecodeLen : Nat := 160 * 15 + 1

/-- `UCS2_LEN_MAX`, with a `WCHAR` of eight octets. -/
def ucs2LenMax : Nat := 2147483647 / 8

/-! ## Coding the text -/

section Decode

variable (iconv : Iconv)

def utf8ToGsm7bit (src : List UInt8) : List UInt8 × UInt8 :=
  if src.length ≥ ucs2LenMax then ([], 0)
  else
    match iconv.utf8ToUtf16 src with
    | none => ([], 0)
    | some ucs2 => ucs2ToGsm7bit maxDecodeLen ucs2

def utf8ToUcs2 (src : List UInt8) : List UInt8 :=
  match iconv.utf8ToUtf16 src with
  | none => []
  | some ucs2 => if (ucs2Octets ucs2).length ≤ maxDecodeLen then ucs2Octets ucs2 else []

/-- Text that is not UTF-8 stays as it is. -/
def gsmUtf8ToAuto (codingNationalType : SmsCodingNationalType) (src : List UInt8) : Decoded :=
  if src.length ≥ ucs2LenMax then ⟨.dataCodingAuto, 0, []⟩
  else
    match iconv.utf8ToUtf16 src with
    | none => ⟨.dataCoding8Bit, 0, src.take maxDecodeLen⟩
    | some ucs2 =>
        match ucs2ToGsm7bitAuto maxDecodeLen ucs2 codingNationalType with
        | none => ⟨.dataCodingUcs2, 0, (ucs2Octets ucs2).take maxDecodeLen⟩
        | some dest => ⟨.dataCoding7Bit, codingNationalType.langId, dest⟩

def cdmaUtf8ToAuto (src : List UInt8) : Decoded :=
  if src.length ≥ ucs2LenMax then ⟨.dataCodingAuto, 0, []⟩
  else
    match iconv.utf8ToUtf16 src with
    | none => ⟨.dataCoding8Bit, 0, src.take maxDecodeLen⟩
    | some ucs2 =>
        match ucs2ToAscii maxDecodeLen ucs2 with
        | none => ⟨.dataCodingUcs2, 0, (ucs2Octets ucs2).take maxDecodeLen⟩
        | some dest => ⟨.dataCodingAscii7Bit, 0, dest⟩

/-- Octets that are copied, if the array holds them. -/
def copied (src : List UInt8) : List UInt8 := if src.length > maxDecodeLen then [] else src

def decodeMessage (splitter : Splitter) (codingType : DataCodingScheme) (msgText : List UInt8) :
    Decoded :=
  if msgText = [] then ⟨codingType, 0, []⟩
  else
    match splitter, codingType with
    | .gsm _, .dataCoding7Bit =>
        let (decodeData, langId) := utf8ToGsm7bit iconv msgText
        ⟨.dataCoding7Bit, langId, decodeData⟩
    | .cdma, .dataCoding7Bit =>
        if msgText.length > maxDecodeLen then ⟨.dataCoding7Bit, 0, []⟩
        else ⟨.dataCodingAscii7Bit, 0, msgText⟩
    | _, .dataCoding8Bit => ⟨.dataCoding8Bit, 0, copied msgText⟩
    | _, .dataCodingUcs2 => ⟨.dataCodingUcs2, 0, utf8ToUcs2 iconv msgText⟩
    | .gsm national, _ => gsmUtf8ToAuto iconv national msgText
    | .cdma, _ => cdmaUtf8ToAuto iconv msgText

end Decode

/-! ## Segment sizes -/

/-- `DATA_CODING_7BIT` and `DATA_CODING_ASCII7BIT`. -/
def is7Bit (codingScheme : DataCodingScheme) : Bool :=
  codingScheme = .dataCoding7Bit || codingScheme = .dataCodingAscii7Bit

/-- `DATA_CODING_8BIT` and `DATA_CODING_UCS2`. -/
def isOctet (codingScheme : DataCodingScheme) : Bool :=
  codingScheme = .dataCoding8Bit || codingScheme = .dataCodingUcs2

def maxGsm7BitDataLen : Nat := 160
def maxUcs2DataLen : Nat := 140
def gsmBearDataLen : Nat := 140
def maxAddParamLen : Nat := 12

def getSegmentSize (codingScheme : DataCodingScheme) (dataLen : Nat) (bPortNum : Bool)
    (langId : UInt8) : Nat :=
  let headerSize := (if bPortNum then 6 else 0) + (if langId ≠ 0 then 3 else 0)
  if is7Bit codingScheme then
    if dataLen + headerSize > maxGsm7BitDataLen then 153 else dataLen
  else if isOctet codingScheme then
    if dataLen + headerSize > maxUcs2DataLen then 134 else dataLen
  else 0

def getMaxSegmentSize (codingScheme : DataCodingScheme) (dataLen : Nat) (bPortNum : Bool)
    (langId : UInt8) (replyAddrLen : Nat) : Nat :=
  let headerSize := (if bPortNum then 6 else 0) + (if langId ≠ 0 then 3 else 0) +
    (if replyAddrLen > 0 then 2 + replyAddrLen else 0)
  if is7Bit codingScheme then
    if dataLen + headerSize > maxGsm7BitDataLen then
      (gsmBearDataLen * 8 - (1 + 5 + headerSize) * 8) / 7
    else maxGsm7BitDataLen - headerSize
  else if isOctet codingScheme then
    if dataLen + headerSize > maxUcs2DataLen then gsmBearDataLen - (1 + 5 + headerSize)
    else maxUcs2DataLen - headerSize
  else 0

/-- The quotient of two lengths, rounded up. -/
def ceilDiv (n segSize : Nat) : Nat := (n + segSize - 1) / segSize

/-! ## Cutting -/

section Boundaries

-- Whether the character iterator of ICU has a boundary before a unit of a text.
variable (isBoundary : List UInt16 → Nat → Bool)

/-- The last boundary before `index`. -/
def previousBoundary (fullData : List UInt16) (index : Nat) : Option Nat :=
  (List.range index).reverse.find? (isBoundary fullData)

def findNextUnicodePosition (index segSizeHalf : Nat) (fullData : List UInt16) : Nat :=
  let nextIndex := index + segSizeHalf
  if isBoundary fullData nextIndex then nextIndex
  else
    match previousBoundary isBoundary fullData nextIndex with
    | some breakPos => if breakPos > index then breakPos else nextIndex
    | none => nextIndex

/-- The loop of `SplitMessageUcs2` from a unit on, in at most `fuel` rounds: every
round moves the index. -/
def splitUnits (segSizeHalf : Nat) (fullData : List UInt16) : Nat → Nat → List (List UInt16)
  | 0, index => [fullData.drop index]
  | fuel + 1, index =>
      if fullData.length - index > segSizeHalf then
        let nextIndex := findNextUnicodePosition isBoundary index segSizeHalf fullData
        (fullData.drop index).take (nextIndex - index) ::
          splitUnits segSizeHalf fullData fuel nextIndex
      else [fullData.drop index]

def splitMessageUcs2 (decodeData : List UInt8) (segSize : Nat) : List (List UInt8) :=
  let fullData := ucs2Units decodeData
  (splitUnits isBoundary (segSize / 2) fullData fullData.length 0).map ucs2Octets

/-- The loop that cuts all other data. -/
def splitFixed (decodeData : List UInt8) (segSize segCount : Nat) : List (List UInt8) :=
  (List.range segCount).map fun i =>
    (decodeData.drop (i * segSize)).take
      (if i + 1 = segCount then decodeData.length - i * segSize else segSize)

/-- Whether the segments are cut at the boundaries of ICU. -/
def Decoded.atBoundaries (d : Decoded) (bPortNum : Bool) : Bool :=
  d.codingType = .dataCodingUcs2 ∧
    ceilDiv d.data.length (getSegmentSize d.codingType d.data.length bPortNum d.langId) > 1

/-- The `encodeData` of the segments. -/
def Decoded.segments (d : Decoded) (bPortNum : Bool) : List (List UInt8) :=
  let segSize := getSegmentSize d.codingType d.data.length bPortNum d.langId
  let segCount := if segSize > 0 then ceilDiv d.data.length segSize else 0
  if d.data = [] then []
  else if d.atBoundaries bPortNum then splitMessageUcs2 isBoundary d.data segSize
  else splitFixed d.data segSize segCount

variable (iconv : Iconv)

/-- The text of a segment; no language is passed on to the coder. -/
def convertSpiltToUtf8 (codingType : DataCodingScheme) (encodeData : List UInt8) : List UInt8 :=
  match codingType with
  | .dataCoding7Bit => gsm7bitToUtf8 iconv 0 encodeData
  | .dataCodingUcs2 => iconv.utf16ToUtf8 (ucs2Units encodeData)
  | _ => encodeData

/-- The scheme a text is to be coded in. -/
def requestedScheme (force7BitCode : Bool) (desAddr : List UInt8) : DataCodingScheme :=
  if ctSmsc = desAddr then .dataCoding8Bit
  else if force7BitCode then .dataCoding7Bit
  else .dataCodingAuto

/-- The text as `SplitMessage` codes it. -/
def decoded (splitter : Splitter) (text : List UInt8) (force7BitCode : Bool)
    (desAddr : List UInt8) : Decoded :=
  decodeMessage iconv splitter (requestedScheme force7BitCode desAddr) text

def splitMessage (splitter : Splitter) (text : List UInt8) (force7BitCode bPortNum : Bool)
    (desAddr : List UInt8) : DataCodingScheme × List SplitInfo :=
  let d := decoded iconv splitter text force7BitCode desAddr
  (d.codingType, (d.segments isBoundary bPortNum).map fun encodeData =>
    { text := convertSpiltToUtf8 iconv d.codingType encodeData
      encodeData := encodeData
      encodeType := d.codingType
      langId := if d.atBoundaries bPortNum then 0 else d.langId })

end Boundaries

/-! ## Counting -/

structure LengthInfo where
  dcs : UInt8
  msgSegCount : UInt8
  msgEncodeCount : UInt16
  msgRemainCount : UInt8
deriving DecidableEq, Repr

def LengthInfo.zero : LengthInfo := ⟨0, 0, 0, 0⟩

/-- The counts of coded data. -/
def Decoded.lengthInfo (d : Decoded) : LengthInfo :=
  let dcs : UInt8 :=
    if is7Bit d.codingType then 1
    else if d.codingType = .dataCodingUcs2 then 3
    else if d.codingType = .dataCoding8Bit then 2
    else 0
  let size := getMaxSegmentSize d.codingType d.data.length false d.langId maxAddParamLen
  let msgEncodeCount := if dcs = 3 then d.data.length % 65536 / 2 else d.data.length % 65536
  let segSize := if dcs = 3 then size / 2 else size
  if segSize = 0 then ⟨dcs, 0, UInt16.ofNat msgEncodeCount, 0⟩
  else
    ⟨dcs, UInt8.ofNat (ceilDiv msgEncodeCount segSize), UInt16.ofNat msgEncodeCount,
      UInt8.ofNat ((segSize - msgEncodeCount % segSize) % segSize)⟩

/-- `GetSmsSegmentsInfo`: the record is left as it was when nothing was coded. -/
def getSmsSegmentsInfo (iconv : Iconv) (splitter : Splitter) (message : List UInt8)
    (force7BitCode : Bool) : LengthInfo :=
  let d := decodeMessage iconv splitter
    (if force7BitCode then .dataCoding7Bit else .dataCodingAuto) message
  if d.data = [] then .zero else d.lengthInfo

end TelephonySms.Text
