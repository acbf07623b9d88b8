import TelephonySms.Pdu.Message
import TelephonySms.Send.Sender

/-! # What a cell is sent as

The senders build the PDU of a cell four ways: of a text, of a data page, and of
each once more when the cell is retried on a GSM network after it was last
prepared for a CDMA network. The second time they start from what the indexer
kept of the cell.
-/

namespace TelephonySms.Send

open TelephonySms.Pdu

/-- A cell of a message, the `index`-th of `count`. -/
structure Page where
  desAddr : List UInt8
  cell : SplitInfo
  codingType : DataCodingScheme
  count : Nat
  index : Nat
  port : UInt16
  /-- `deliveryCallback` is not null. -/
  deliveryCallback : Bool
deriving DecidableEq, Repr

namespace Page

variable (page : Page) (msgRef : UInt8)

def smsConcat (is8Bits : Bool) : SmsConcat :=
  ⟨msgRef.toUInt16, UInt16.ofNat (page.index + 1), UInt16.ofNat page.count, is8Bits⟩

def concatHeader : List SmsUDH :=
  if page.count > 1 then setHeaderConcat (page.smsConcat msgRef true) else []

def textHeader : List SmsUDH :=
  page.concatHeader msgRef ++ setHeaderLang page.codingType page.cell.langId

/-- `TextBasedSmsSplitDelivery` of the GSM sender and `SendSmsForEveryIndexer` of
the CDMA sender. -/
def textSubmit : SmsSubmit :=
  { createDefaultSubmit page.desAddr
      (if page.count > 1 ∧ page.index < page.count - 1 then false else page.deliveryCallback)
      page.codingType with
    msgRef := msgRef
    bHeaderInd := (page.textHeader msgRef).length > 0
    userData := ⟨page.textHeader msgRef, page.cell.encodeData⟩ }

def dataHeader : List SmsUDH := page.concatHeader msgRef ++ [.appPort16Bit page.port 0]

/-- `DataBasedSmsDeliveryPacketSplitPage`: no language, whatever the cell has, and
the report is asked for with the first page, before the flag is set. -/
def dataSubmit : SmsSubmit :=
  { createDefaultSubmit page.desAddr (page.index = 0 && page.deliveryCallback)
      page.codingType with
    msgRef := msgRef
    bHeaderInd := true
    userData := ⟨page.dataHeader msgRef, page.cell.encodeData⟩ }

end Page

/-! ## Building again -/

/-- What the indexer keeps of a cell to build its PDU again. -/
structure CellContent where
  destAddr : List UInt8
  text : List UInt8
  data : List UInt8
  dcs : DataCodingScheme
  langId : UInt8
  isConcat : Bool
  smsConcat : SmsConcat
  deliveryCallback : Bool
deriving DecidableEq, Repr

/-- The GSM sender stores the concatenation of a text before it sets `is8Bits`, so
the field is whatever was in memory. -/
def Page.textContent (page : Page) (msgRef : UInt8) (is8Bits : Bool) : CellContent where
  destAddr := page.desAddr
  text := page.cell.encodeData
  data := []
  dcs := page.cell.encodeType
  langId := page.cell.langId
  isConcat := page.count > 1
  smsConcat := if page.count > 1 then page.smsConcat msgRef is8Bits else ⟨0, 0, 0, false⟩
  deliveryCallback := page.deliveryCallback

def Page.dataContent (page : Page) (msgRef : UInt8) : CellContent where
  destAddr := page.desAddr
  text := []
  data := page.cell.text
  dcs := .dataCoding7Bit
  langId := 0
  isConcat := page.count > 1
  smsConcat := if page.count > 1 then page.smsConcat msgRef true else ⟨0, 0, 0, false⟩
  deliveryCallback := page.deliveryCallback

/-- What each loop leaves in the indexer; `is8Bits` is the octet in memory that the
GSM sender finds there. -/
def Page.content (page : Page) (msgRef : UInt8) (is8Bits : Bool) : SplitKind → CellContent
  | .gsmText => page.textContent msgRef is8Bits
  | .cdmaImsText => page.textContent msgRef true
  | .cdmaText => { page.textContent msgRef true with langId := 0 }
  | .data => page.dataContent msgRef
  | .cdmaData =>
      { page.dataContent msgRef with
        data := page.cell.encodeData
        isConcat := false
        smsConcat := ⟨0, 0, 0, false⟩ }

/-- The PDU of a cell as its loop builds it; a CDMA PDU is given. -/
def Page.pdu (page : Page) (msgRef : UInt8) (cdmaPdu : List UInt8) : SplitKind → List UInt8
  | .gsmText | .cdmaImsText => getSubmitEncodeInfo (page.textSubmit msgRef)
  | .data => getSubmitEncodeInfo (page.dataSubmit msgRef)
  | .cdmaText | .cdmaData => cdmaPdu

namespace CellContent

variable (content : CellContent) (msgRef : UInt8)

def header : List SmsUDH :=
  (if content.isConcat then setHeaderConcat content.smsConcat else []) ++
    setHeaderLang content.dcs content.langId

/-- `SetPduInfo`. -/
def resendTextSubmit : SmsSubmit :=
  { createDefaultSubmit content.destAddr
      (if content.smsConcat.totalSeg.toUInt8 > 1 ∧
          content.smsConcat.seqNum < content.smsConcat.totalSeg.toUInt8.toUInt16 then false
        else content.deliveryCallback) content.dcs with
    msgRef := msgRef
    bHeaderInd := content.header.length > 0
    userData := ⟨content.header, content.text⟩ }

/-- `CreateDataSubmitSmsTpdu` as `ResendDataDelivery` calls it: the page is coded
once more, without headers, and cut to the length it had before. Octets behind the
array, which a longer page would read, count as zero. -/
def resendDataSubmit (utf8ToGsm7bit : List UInt8 → List UInt8) : SmsSubmit :=
  let encodeData := (utf8ToGsm7bit content.data).take 160
  { createDefaultSubmit content.destAddr content.deliveryCallback content.dcs with
    msgRef := msgRef
    userData :=
      ⟨[], (encodeData ++ List.replicate content.data.length 0).take content.data.length⟩ }

end CellContent

/-- A text of one cell is built again as it was built first. -/
theorem resendTextSubmit_textContent {page : Page} (msgRef : UInt8) (is8Bits : Bool)
    (hcount : ¬ page.count > 1) (htype : page.cell.encodeType = page.codingType) :
    (page.textContent msgRef is8Bits).resendTextSubmit msgRef = page.textSubmit msgRef := by
  have hheader : (page.textContent msgRef is8Bits).header = page.textHeader msgRef := by
    simp [CellContent.header, Page.textHeader, Page.textContent, Page.concatHeader, hcount, htype]
  unfold CellContent.resendTextSubmit Page.textSubmit
  rw [hheader]
  simp [Page.textContent, hcount, htype]

/-- The PDU as `UpdatePduForResend` leaves it. -/
def updatePduForResend (pdu : List UInt8) (msgRefId : UInt8) : List UInt8 :=
  match pdu with
  | flags :: ref :: rest =>
      if flags &&& 0x01 = 0x01 then (flags ||| 0x04) :: msgRefId :: rest else flags :: ref :: rest
  | pdu => pdu

theorem submitBit_or_rejectDup (flags : UInt8) (h : flags &&& 0x01 = 0x01) :
    (flags ||| 0x04) &&& 0x01 = 0x01 := by
  obtain ⟨f⟩ := flags
  revert f
  decide

theorem updatePduForResend_idem (pdu : List UInt8) (msgRefId : UInt8) :
    updatePduForResend (updatePduForResend pdu msgRefId) msgRefId =
      updatePduForResend pdu msgRefId := by
  match pdu with
  | [] => rfl
  | [_] => rfl
  | flags :: ref :: rest =>
      by_cases hsubmit : flags &&& 0x01 = 0x01
      · have hkept := submitBit_or_rejectDup flags hsubmit
        simp only [updatePduForResend, hsubmit, hkept, if_true, List.cons.injEq, and_true]
        rw [UInt8.or_assoc, UInt8.or_self]
      · simp only [updatePduForResend, if_neg hsubmit]

end TelephonySms.Send
