import TelephonySms.Broadcast.PageSeptets

/-! # Decoding cell broadcasts

`GsmCbCodec` decodes a PDU of at most 88 octets as one page in the GSM format, and a longer one
as all pages of a message in the UMTS format. Both headers end at the page, of which they have
read two octets ahead: with an ISO 639 data coding scheme these name the language.
-/

namespace TelephonySms.Broadcast

/-! ## Messages -/

/-- What an extension library may supply. -/
structure TelephonyExtWrapper where
  isCustEtwsMessage : Option (UInt16 → Bool)
  getCustEtwsType : Option (UInt16 → UInt16 → UInt16)
  getCbsPduLength : Option (List UInt8 → Nat)

structure GsmCbMsgSerialNum where
  geoScope : UInt8
  updateNum : UInt8
  msgCode : UInt16
deriving DecidableEq, Repr

inductive SmsCbCodingGroupType where
  | generalDcs
  | wap
  | classCoding
deriving DecidableEq, Repr

/-- `iso639Lang` is an array of three characters. -/
structure GsmCbMsgDcs where
  codingGroup : SmsCbCodingGroupType
  classType : UInt8
  bCompressed : Bool
  codingScheme : UInt8
  langType : UInt8
  iso639Lang : UInt8 × UInt8 × UInt8
  bUDH : Bool
  rawData : UInt8
deriving DecidableEq, Repr

inductive CBNetType where
  | gsm
  | umts
deriving DecidableEq, Repr

inductive EtwsCBType where
  | primary
  | gsm
deriving DecidableEq, Repr

structure GsmCbMessageHeader where
  bEtwsMessage : Bool
  cbEtwsType : EtwsCBType
  cbNetType : CBNetType
  cbMsgType : UInt8
  warningType : UInt16
  serialNum : GsmCbMsgSerialNum
  msgId : UInt16
  langType : UInt8
  dcs : GsmCbMsgDcs
  page : UInt8
  totalPages : UInt8
  recvTime : Int
deriving DecidableEq, Repr

/-- A message that was decoded. -/
structure GsmCbCodec where
  cbHeader : GsmCbMessageHeader
  messageRaw : List UInt8
deriving DecidableEq, Repr

def dataCoding7Bit : UInt8 := 0

def dataCoding8Bit : UInt8 := 1

def dataCodingUcs2 : UInt8 := 2

def maxPagePduLen : Nat := 82

def maxEtwsPduLen : Nat := 56

def maxCbMsgLen : Nat := 4200

/-- A header before anything is decoded. -/
def GsmCbMessageHeader.init (cbNetType : CBNetType) (cbMsgType : UInt8) : GsmCbMessageHeader :=
  ⟨false, .primary, cbNetType, cbMsgType, 0, ⟨0, 0, 0⟩, 0, 0,
    ⟨.generalDcs, 0, false, 0, 0, (0, 0, 0), false, 0⟩, 0, 0, 0⟩

/-- `CreateCbMessage` gives the buffer the octets of the PDU. -/
structure GsmCbPduDecodeBuffer where
  pduBuffer : List UInt8
  curPosition : Nat
  totolLength : Nat
deriving DecidableEq, Repr

abbrev CbDecoder := StateT GsmCbPduDecodeBuffer Option

def getOneByte : CbDecoder UInt8 := fun buffer =>
  if buffer.curPosition < buffer.totolLength then
    buffer.pduBuffer[buffer.curPosition]?.map fun oneByte =>
      (oneByte, { buffer with curPosition := buffer.curPosition + 1 })
  else none

def setPointer (offset : Nat) : CbDecoder Unit :=
  modify fun buffer => { buffer with curPosition := offset }

/-- `GetPduData`. -/
def GsmCbPduDecodeBuffer.pduData (buffer : GsmCbPduDecodeBuffer) : List UInt8 :=
  (buffer.pduBuffer.take buffer.totolLength).drop buffer.curPosition

/-! ## Data coding schemes -/

/-- `iosData` has the first octet of the message in its low half. -/
def decodeIos639Dcs (dcsData : UInt8) (iosData : UInt16) (dcs : GsmCbMsgDcs) : GsmCbMsgDcs :=
  if dcsData &&& 0x0F = 0 ∨ dcsData &&& 0x0F = 1 then
    let hight := (iosData >>> 8).toUInt8
    let low := iosData.toUInt8
    { dcs with
      codingGroup := .generalDcs
      codingScheme := if dcsData &&& 0x01 ≠ 0 then dataCodingUcs2 else dataCoding7Bit
      langType := 0x10
      iso639Lang :=
        if hight ≠ 0 ∧ low ≠ 0 then
          (hight &&& 0x7F, (hight &&& 0x80) >>> 7 ||| (low &&& 0x3F) <<< 1, 0x13)
        else (0x45, 0x4E, 0x13) }
  else dcs

def decodeGeneralDcs (dcsData : UInt8) (dcs : GsmCbMsgDcs) : GsmCbMsgDcs :=
  let tmpScheme := (dcsData &&& 0x0C) >>> 2
  { dcs with
    codingGroup := .generalDcs
    bCompressed := dcsData &&& 0x20 ≠ 0
    classType := if dcsData &&& 0x10 ≠ 0 then dcsData &&& 0x03 else dcs.classType
    codingScheme := if tmpScheme = 3 then dcs.codingScheme else tmpScheme }

def decodeCbMsgDCS (dcsData : UInt8) (iosData : UInt16) : GsmCbMsgDcs :=
  let dcs : GsmCbMsgDcs :=
    ⟨.generalDcs, 4, false, dataCoding7Bit, 0x0F, (0, 0, 0), false, dcsData⟩
  let codingGroup := (dcsData &&& 0xF0) >>> 4
  if codingGroup = 0 ∨ codingGroup = 2 ∨ codingGroup = 3 then { dcs with langType := dcsData }
  else if codingGroup = 1 then decodeIos639Dcs dcsData iosData dcs
  else if codingGroup = 4 ∨ codingGroup = 5 ∨ codingGroup = 6 ∨ codingGroup = 7 then
    decodeGeneralDcs dcsData dcs
  else if codingGroup = 9 then
    { dcs with
      bUDH := true
      classType := dcsData &&& 0x03
      codingScheme := (dcsData &&& 0x0C) >>> 2 }
  else if codingGroup = 0x0E then { dcs with codingGroup := .wap }
  else if codingGroup = 0x0F then
    { dcs with
      codingGroup := .classCoding
      codingScheme := if dcsData &&& 0x04 ≠ 0 then dataCoding8Bit else dataCoding7Bit
      classType := dcsData &&& 0x03 }
  else dcs

namespace TelephonyExtWrapper

def isEtwsMessage (ext : TelephonyExtWrapper) (msgId : UInt16) : Bool :=
  msgId &&& 0xFFF8 = 0x1100 || ext.isCustEtwsMessage.any fun isCust => isCust msgId

/-- `GetWarningType`, which an extension that knows the type preempts. -/
def getWarningType (ext : TelephonyExtWrapper) (msgId type : UInt16) : UInt16 :=
  match ext.getCustEtwsType with
  | some custType => if custType msgId type ≠ 0xFFFE then custType msgId type else msgId - 0x1100
  | none => msgId - 0x1100

/-- `PduAfterDiscardNullBlock`. -/
def discardNullBlock (ext : TelephonyExtWrapper) (pdu : List UInt8)
    (buffer : GsmCbPduDecodeBuffer) : GsmCbPduDecodeBuffer :=
  match ext.getCbsPduLength with
  | some pduLength => { buffer with totolLength := pduLength pdu }
  | none => buffer

end TelephonyExtWrapper

/-! ## The GSM format -/

def decode2gHeaderEtws (ext : TelephonyExtWrapper) (header : GsmCbMessageHeader) :
    CbDecoder GsmCbMessageHeader := do
  let oneByte ← getOneByte
  let warningType := ((oneByte &&& 0xFE) >>> 1).toUInt16
  let _ ← getOneByte
  pure { header with
    cbEtwsType := .primary
    bEtwsMessage := true
    warningType :=
      if header.msgId ≥ 0x1100 then ext.getWarningType header.msgId warningType else warningType
    totalPages := 1 }

def decode2gHeaderCommonCb (ext : TelephonyExtWrapper) (now : Int) (header : GsmCbMessageHeader) :
    CbDecoder GsmCbMessageHeader := do
  let dcs ← getOneByte
  let pages ← getOneByte
  let first ← getOneByte
  let second ← getOneByte
  let dcs := decodeCbMsgDCS dcs (first.toUInt16 ||| second.toUInt16 <<< 8)
  let totalPages := pages &&& 0x0F
  if totalPages > 15 then setPointer 0
  let buffer ← get
  if buffer.curPosition ≥ 2 then setPointer (buffer.curPosition - 2)
  let isEtws := ext.isEtwsMessage header.msgId
  pure { header with
    totalPages
    page := (pages &&& 0xF0) >>> 4
    dcs
    langType := dcs.langType
    recvTime := now
    bEtwsMessage := header.bEtwsMessage || isEtws
    cbEtwsType := if isEtws then .gsm else header.cbEtwsType
    warningType :=
      if isEtws ∧ header.msgId ≥ 0x1100 then ext.getWarningType header.msgId header.warningType
      else header.warningType }

def decode2gHeader (ext : TelephonyExtWrapper) (now : Int) (header : GsmCbMessageHeader) :
    CbDecoder GsmCbMessageHeader := do
  let serial ← getOneByte
  let serial' ← getOneByte
  let msgId ← getOneByte
  let msgId' ← getOneByte
  let header := { header with
    bEtwsMessage := false
    serialNum :=
      { geoScope := (serial &&& 0xC0) >>> 6
        updateNum := serial' &&& 0x0F
        msgCode := (serial &&& 0x3F).toUInt16 <<< 4 ||| ((serial' &&& 0xF0) >>> 4).toUInt16 }
    msgId := msgId.toUInt16 <<< 8 ||| msgId'.toUInt16 }
  let buffer ← get
  if ext.isEtwsMessage header.msgId ∧ buffer.totolLength ≤ maxEtwsPduLen then
    decode2gHeaderEtws ext header
  else decode2gHeaderCommonCb ext now header

/-- `Decode2gCbMsg7bit`: where the language is skipped, the septets are counted without it, but
copied from the first one on. -/
def decode2gCbMsg7bit (dcs : GsmCbMsgDcs) (buffer : GsmCbPduDecodeBuffer) (dataLen : Nat) :
    Option (List UInt8) :=
  if buffer.pduData = [] then none
  else
    let pageData := unpack7bitCharForCBPdu (buffer.pduData.take dataLen) 94
    let offset := if dcs.iso639Lang.1 ≠ 0 ∧ pageData.length ≥ 3 then 3 else 0
    let unpackLen := pageData.length - offset
    if offset + unpackLen ≥ 94 then none else some (pageData.take unpackLen)

def decode2gCbMsg (dcs : GsmCbMsgDcs) (buffer : GsmCbPduDecodeBuffer) : Option (List UInt8) :=
  if buffer.curPosition ≥ buffer.totolLength then none
  else
    let dataLen := (buffer.totolLength - buffer.curPosition) % 2 ^ 16
    if dcs.codingScheme = dataCoding7Bit then decode2gCbMsg7bit dcs buffer dataLen
    else if dcs.codingScheme = dataCoding8Bit ∨ dcs.codingScheme = dataCodingUcs2 then
      if dataLen < 2 then none
      else
        let skipped := if dcs.iso639Lang.1 ≠ 0 then 2 else 0
        let buffer := { buffer with curPosition := buffer.curPosition + skipped }
        let dataLen := dataLen - skipped
        if dataLen = 0 ∨ buffer.curPosition + dataLen > buffer.totolLength then none
        else some buffer.pduData
    else some []

def decodeEtwsMsg (dcs : GsmCbMsgDcs) (buffer : GsmCbPduDecodeBuffer) : Option (List UInt8) :=
  if buffer.totolLength = 0 ∨ buffer.totolLength > maxEtwsPduLen then none
  else decode2gCbMsg7bit dcs buffer ((buffer.totolLength - buffer.curPosition) % 2 ^ 8)

/-! ## The UMTS format -/

def decode3gHeader (ext : TelephonyExtWrapper) (now : Int) (header : GsmCbMessageHeader) :
    CbDecoder GsmCbMessageHeader := do
  modify fun buffer => { buffer with curPosition := buffer.curPosition + 1 }
  let msgId ← getOneByte
  let msgId' ← getOneByte
  let serial ← getOneByte
  let serial' ← getOneByte
  let dcs ← getOneByte
  let totalPages ← getOneByte
  let first ← getOneByte
  let second ← getOneByte
  let dcs := decodeCbMsgDCS dcs (first.toUInt16 ||| second.toUInt16 <<< 8)
  let buffer ← get
  if buffer.curPosition ≥ 2 then setPointer (buffer.curPosition - 2)
  let msgId := msgId.toUInt16 <<< 8 ||| msgId'.toUInt16
  pure { header with
    msgId
    cbMsgType := if ext.isEtwsMessage msgId then 5 else header.cbMsgType
    serialNum :=
      { geoScope := (serial &&& 0xC0) >>> 6
        updateNum := serial' &&& 0x0F
        msgCode := (serial &&& 0x3F).toUInt16 <<< 4 ||| ((serial' &&& 0xF0) >>> 4).toUInt16 }
    totalPages
    dcs
    langType := dcs.langType
    recvTime := now }

/-- A round of `Decode3g7Bit`: the septets of the page numbered `i` from zero on. -/
def decode3g7BitPage (tpdu : List UInt8) (i : Nat) : Option (List UInt8) :=
  let pageLenOffset := ((i + 1) * maxPagePduLen + i) % 2 ^ 16
  if tpdu.length % 2 ^ 16 ≤ pageLenOffset then none
  else
    let dataLen := (tpdu.getD pageLenOffset 0).toNat
    let offset := (i * maxPagePduLen + i) % 2 ^ 16
    if dataLen > maxPagePduLen then none
    else some (decode3gPage ((tpdu.drop offset).take dataLen) 93)

def decode3g7Bit (totalPages : UInt8) (buffer : GsmCbPduDecodeBuffer) : Option (List UInt8) :=
  if buffer.pduData = [] then none
  else do
    let pages ← (List.range totalPages.toNat).mapM (decode3g7BitPage buffer.pduData)
    pure pages.flatten

/-- A round of `Decode3gUCS2`. The place of the length octet is cut down to eight bits, and the
language is skipped on every page. -/
def decode3gUCS2Page (iso639 : Bool) (tpdu : List UInt8) (i : Nat) : Option (List UInt8) :=
  let pageLenOffset := ((i + 1) * maxPagePduLen + i) % 2 ^ 8
  if tpdu.length % 2 ^ 16 ≤ pageLenOffset then none
  else
    let told := (tpdu.getD pageLenOffset 0).toNat
    let dataLen := if iso639 then told - 2 else told
    let offset := (i * maxPagePduLen + i + if iso639 then 2 else 0) % 2 ^ 16
    if dataLen > 0 ∧ dataLen ≤ maxPagePduLen ∧ offset + dataLen ≤ tpdu.length % 2 ^ 16 then
      some ((tpdu.drop offset).take dataLen)
    else some []

def decode3gUCS2 (dcs : GsmCbMsgDcs) (totalPages : UInt8) (buffer : GsmCbPduDecodeBuffer) :
    Option (List UInt8) :=
  if buffer.pduData = [] then none
  else do
    let pages ← (List.range totalPages.toNat).mapM
      (decode3gUCS2Page (dcs.iso639Lang.1 ≠ 0) buffer.pduData)
    pure pages.flatten

def decode3gCbMsg (header : GsmCbMessageHeader) (buffer : GsmCbPduDecodeBuffer) :
    Option (List UInt8) :=
  if header.dcs.codingScheme = dataCoding7Bit then decode3g7Bit header.totalPages buffer
  else if header.dcs.codingScheme = dataCoding8Bit ∨ header.dcs.codingScheme = dataCodingUcs2 then
    decode3gUCS2 header.dcs header.totalPages buffer
  else none

/-! ## Both formats -/

/-- `CreateCbMessage` of the octets of a PDU, at a time. All pages of a UMTS message are one. -/
def createCbMessage (ext : TelephonyExtWrapper) (now : Int) (pdu : List UInt8) :
    Option GsmCbCodec :=
  if pdu.length = 0 ∨ pdu.length > maxCbMsgLen then none
  else do
    let buffer : GsmCbPduDecodeBuffer := ⟨pdu, 0, pdu.length⟩
    let gsm := pdu.length ≤ maxPagePduLen + 6
    let (header, buffer) ←
      if gsm then (decode2gHeader ext now (.init .gsm 1)).run buffer
      else (decode3gHeader ext now (.init .umts (pdu.headD 0))).run buffer
    if buffer.curPosition ≥ pdu.length then none
    else if header.bEtwsMessage ∧ header.cbEtwsType = .primary then do
      let messageRaw ← decodeEtwsMsg header.dcs (ext.discardNullBlock pdu buffer)
      pure ⟨header, messageRaw⟩
    else if gsm then do
      let messageRaw ← decode2gCbMsg header.dcs (ext.discardNullBlock pdu buffer)
      pure ⟨header, messageRaw⟩
    else do
      let messageRaw ← decode3gCbMsg header buffer
      pure ⟨{ header with totalPages := 1 }, messageRaw⟩

/-! ## Where the pages are -/

theorem run_getOneByte (buffer : GsmCbPduDecodeBuffer) :
    getOneByte.run buffer =
      if buffer.curPosition < buffer.totolLength then
        buffer.pduBuffer[buffer.curPosition]?.map fun oneByte =>
          (oneByte, { buffer with curPosition := buffer.curPosition + 1 })
      else none := rfl

/-- An octet inside is read and the position behind it. -/
theorem run_getOneByte_bind {α : Type} {pdu : List UInt8} {position total : Nat} {oneByte : UInt8}
    (hinside : position < total) (hoctet : pdu[position]? = some oneByte)
    (f : UInt8 → CbDecoder α) :
    (getOneByte >>= f).run ⟨pdu, position, total⟩ = (f oneByte).run ⟨pdu, position + 1, total⟩ := by
  rw [StateT.run_bind, run_getOneByte, if_pos hinside, hoctet]
  rfl

/-- At the end nothing is read. -/
theorem run_getOneByte_bind_end {α : Type} {pdu : List UInt8} {position total : Nat}
    (hend : total ≤ position) (f : UInt8 → CbDecoder α) :
    (getOneByte >>= f).run ⟨pdu, position, total⟩ = none := by
  rw [StateT.run_bind, run_getOneByte, if_neg (Nat.not_lt.2 hend)]
  rfl

theorem run_modify_bind {α : Type} (g : GsmCbPduDecodeBuffer → GsmCbPduDecodeBuffer)
    (f : PUnit → CbDecoder α) (buffer : GsmCbPduDecodeBuffer) :
    ((modify g : CbDecoder PUnit) >>= f).run buffer = (f ⟨⟩).run (g buffer) := rfl

section Headers

variable {s s' m m' dcs pages o o' : UInt8} {rest pdu : List UInt8} {total : Nat}

/-- A header in the common format is six octets, of which the last two are not taken. -/
theorem run_decode2gHeaderCommonCb (ext : TelephonyExtWrapper) (now : Int)
    (header : GsmCbMessageHeader)
    (hpdu : pdu = s :: s' :: m :: m' :: dcs :: pages :: o :: o' :: rest) (htotal : 8 ≤ total) :
    ∃ header', (decode2gHeaderCommonCb ext now header).run ⟨pdu, 4, total⟩ =
        some (header', ⟨pdu, 6, total⟩) ∧
      header'.dcs = decodeCbMsgDCS dcs (o.toUInt16 ||| o'.toUInt16 <<< 8) ∧
        (header.bEtwsMessage = false → header'.bEtwsMessage = true →
          header'.cbEtwsType = .gsm) := by
  have hpages : ¬ pages &&& 0x0F > 15 := by
    have hle := @Nat.and_le_right pages.toNat 15
    rw [gt_iff_lt, UInt8.lt_iff_toNat_lt, UInt8.toNat_and]
    exact Nat.not_lt.2 hle
  unfold decode2gHeaderCommonCb
  rw [run_getOneByte_bind (by omega) (by rw [hpdu]; rfl),
    run_getOneByte_bind (by omega) (by rw [hpdu]; rfl),
    run_getOneByte_bind (by omega) (by rw [hpdu]; rfl),
    run_getOneByte_bind (by omega) (by rw [hpdu]; rfl)]
  simp only [if_neg hpages]
  refine ⟨_, rfl, rfl, ?_⟩
  intro hnone hetws
  simp only [hnone, Bool.false_or] at hetws
  simp [hetws]

theorem run_decode2gHeader (ext : TelephonyExtWrapper) (now : Int) (header : GsmCbMessageHeader)
    (hpdu : pdu = s :: s' :: m :: m' :: dcs :: pages :: o :: o' :: rest) (htotal : 8 ≤ total)
    (hcommon : ¬ (ext.isEtwsMessage (m.toUInt16 <<< 8 ||| m'.toUInt16) = true ∧
      total ≤ maxEtwsPduLen)) :
    ∃ header', (decode2gHeader ext now header).run ⟨pdu, 0, total⟩ =
        some (header', ⟨pdu, 6, total⟩) ∧
      header'.dcs = decodeCbMsgDCS dcs (o.toUInt16 ||| o'.toUInt16 <<< 8) ∧
        (header'.bEtwsMessage = true → header'.cbEtwsType = .gsm) := by
  unfold decode2gHeader
  rw [run_getOneByte_bind (by omega) (by rw [hpdu]; rfl),
    run_getOneByte_bind (by omega) (by rw [hpdu]; rfl),
    run_getOneByte_bind (by omega) (by rw [hpdu]; rfl),
    run_getOneByte_bind (by omega) (by rw [hpdu]; rfl)]
  simp only [StateT.run_bind, StateT.run_get, Option.pure_def, Option.bind_eq_bind,
    Option.bind_some, if_neg hcommon]
  rcases run_decode2gHeaderCommonCb ext now _ hpdu htotal with ⟨header', hrun, hdcs, hetws⟩
  exact ⟨header', hrun, hdcs, hetws rfl⟩

theorem run_decode3gHeader (ext : TelephonyExtWrapper) (now : Int) (header : GsmCbMessageHeader)
    {type : UInt8} (hpdu : pdu = type :: m :: m' :: s :: s' :: dcs :: pages :: o :: o' :: rest)
    (htotal : 9 ≤ total) :
    ∃ header', (decode3gHeader ext now header).run ⟨pdu, 0, total⟩ =
        some (header', ⟨pdu, 7, total⟩) ∧
      header'.dcs = decodeCbMsgDCS dcs (o.toUInt16 ||| o'.toUInt16 <<< 8) ∧
        header'.totalPages = pages ∧ header'.bEtwsMessage = header.bEtwsMessage := by
  unfold decode3gHeader
  rw [run_modify_bind]
  dsimp only
  rw [run_getOneByte_bind (by omega) (by rw [hpdu]; rfl),
    run_getOneByte_bind (by omega) (by rw [hpdu]; rfl),
    run_getOneByte_bind (by omega) (by rw [hpdu]; rfl),
    run_getOneByte_bind (by omega) (by rw [hpdu]; rfl),
    run_getOneByte_bind (by omega) (by rw [hpdu]; rfl),
    run_getOneByte_bind (by omega) (by rw [hpdu]; rfl),
    run_getOneByte_bind (by omega) (by rw [hpdu]; rfl),
    run_getOneByte_bind (by omega) (by rw [hpdu]; rfl)]
  exact ⟨_, rfl, rfl, rfl, rfl⟩

/-- A page in the GSM format is read behind the six octets of its header. -/
theorem createCbMessage_gsm (ext : TelephonyExtWrapper) (now : Int)
    (hpdu : pdu = s :: s' :: m :: m' :: dcs :: pages :: o :: o' :: rest)
    (hlen : pdu.length ≤ maxPagePduLen + 6)
    (hcommon : ¬ (ext.isEtwsMessage (m.toUInt16 <<< 8 ||| m'.toUInt16) = true ∧
      pdu.length ≤ maxEtwsPduLen)) :
    (createCbMessage ext now pdu).map (·.messageRaw) =
      decode2gCbMsg (decodeCbMsgDCS dcs (o.toUInt16 ||| o'.toUInt16 <<< 8))
        (ext.discardNullBlock pdu ⟨pdu, 6, pdu.length⟩) := by
  have hmax : ¬ (pdu.length = 0 ∨ pdu.length > maxCbMsgLen) := by
    rw [hpdu] at hlen ⊢
    simp only [List.length_cons, maxPagePduLen, maxCbMsgLen] at hlen ⊢
    omega
  have hbehind : ¬ 6 ≥ pdu.length := by
    rw [hpdu]
    simp
  have hlong : 8 ≤ pdu.length := by simp [hpdu]
  rcases run_decode2gHeader ext now (.init .gsm 1) hpdu hlong hcommon with
    ⟨header, hrun, hdcs, hetws⟩
  have hprimary : ¬ (header.bEtwsMessage = true ∧ header.cbEtwsType = .primary) := by
    rintro ⟨hmessage, hprimary⟩
    rw [hetws hmessage] at hprimary
    cases hprimary
  rw [createCbMessage, if_neg hmax]
  simp only [hlen, if_true, hrun, Option.bind_eq_bind, Option.bind_some, if_neg hbehind,
    if_neg hprimary, hdcs]
  cases decode2gCbMsg (decodeCbMsgDCS dcs (o.toUInt16 ||| o'.toUInt16 <<< 8))
    (ext.discardNullBlock pdu ⟨pdu, 6, pdu.length⟩) <;> rfl

/-- The pages in the UMTS format are read behind the seven octets of the header. -/
theorem createCbMessage_umts (ext : TelephonyExtWrapper) (now : Int) {type : UInt8}
    (hpdu : pdu = type :: m :: m' :: s :: s' :: dcs :: pages :: o :: o' :: rest)
    (hlen : maxPagePduLen + 6 < pdu.length) (hmax : pdu.length ≤ maxCbMsgLen) :
    ∃ header : GsmCbMessageHeader,
      header.dcs = decodeCbMsgDCS dcs (o.toUInt16 ||| o'.toUInt16 <<< 8) ∧
        header.totalPages = pages ∧
      (createCbMessage ext now pdu).map (·.messageRaw) =
        decode3gCbMsg header ⟨pdu, 7, pdu.length⟩ := by
  have hsize : ¬ (pdu.length = 0 ∨ pdu.length > maxCbMsgLen) := by omega
  have hgsm : ¬ pdu.length ≤ maxPagePduLen + 6 := by omega
  have hbehind : ¬ 7 ≥ pdu.length := by
    rw [hpdu]
    simp
  have hlong : 9 ≤ pdu.length := by simp [hpdu]
  rcases run_decode3gHeader ext now (.init .umts (pdu.headD 0)) hpdu hlong with
    ⟨header, hrun, hdcs, hpages, hetws⟩
  have hprimary : ¬ (header.bEtwsMessage = true ∧ header.cbEtwsType = .primary) := by
    rw [hetws]
    simp [GsmCbMessageHeader.init]
  refine ⟨header, hdcs, hpages, ?_⟩
  rw [createCbMessage, if_neg hsize]
  simp only [hgsm, if_false, hrun, Option.bind_eq_bind, Option.bind_some, if_neg hbehind,
    if_neg hprimary]
  cases decode3gCbMsg header ⟨pdu, 7, pdu.length⟩ <;> rfl

end Headers

end TelephonySms.Broadcast
