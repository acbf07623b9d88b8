import TelephonySms.Cdma.Transport
import TelephonySms.Send.Build
import TelephonySms.Send.Track

/-! # What a cell is sent as on a CDMA network

`CdmaSmsSender` fills a transport message for a cell and encodes it. When the cell
comes back to a CDMA network after another one, the message is filled again from what
the indexer kept.
-/

namespace TelephonySms.Send

open TelephonySms.Machine TelephonySms.Pdu TelephonySms.Cdma

/-! ## Transport messages -/

/-- `CMT_95` -/
def teleserviceWmt : UInt16 := 0x1002

/-- `WEMT` -/
def teleserviceWemt : UInt16 := 0x1005

/-- `GreateTransMsg`: no service category, and the validity has no end. -/
def greateTransMsg : CdmaTransportMsg :=
  { CdmaTransportMsg.zero with
    type := .p2p
    teleserviceId := teleserviceWmt
    serviceCtg := 0x8001
    telesvcMsg := { CdmaTeleserviceMsg.zero with type := .submit, valPeriod := .relative 245 } }

/-- The `addrLen` characters of `szData` behind `strncpy_s`. An address that does not fit
leaves the array clear. -/
def addressChars (dest : List UInt8) : List UInt8 :=
  if dest.length > 256 then List.replicate 256 0
  else cString dest ++ List.replicate (dest.length - (cString dest).length) 0

theorem length_addressChars {dest : List UInt8} (h : dest.length ≤ 256) :
    (addressChars dest).length = dest.length := by
  have hle : (cString dest).length ≤ dest.length := (List.takeWhile_sublist _).length_le
  rw [addressChars, if_neg (by omega), List.length_append, List.length_replicate]
  omega

/-- What both `CreateSubmitTransMsg` set. -/
def submitTransMsg (dest : List UInt8) (bStatusReport : Bool) : CdmaTransportMsg :=
  let plus : Bool := dest.head? = some 0x2b
  { greateTransMsg with
    address := ⟨plus, false, if plus then 1 else 2, 0, addressChars dest⟩
    telesvcMsg := { greateTransMsg.telesvcMsg with
      replyOpt := ⟨false, bStatusReport, false, false⟩ } }

def covertEncodingType : DataCodingScheme → SmsEncodingType
  | .dataCoding7Bit => .gsm7Bit
  | .dataCodingAscii7Bit => .ascii7Bit
  | .dataCoding8Bit => .octet
  | _ => .unicode

def createTextTransMsg (dest : List UInt8) (bStatusReport : Bool)
    (codingScheme : DataCodingScheme) : CdmaTransportMsg :=
  let msg := submitTransMsg dest bStatusReport
  { msg with telesvcMsg := { msg.telesvcMsg with
      userData := { msg.telesvcMsg.userData with encodeType := covertEncodingType codingScheme } } }

def createDataTransMsg (dest : List UInt8) (bStatusReport : Bool) : Option CdmaTransportMsg :=
  if dest.length > 257 then none else some (submitTransMsg dest bStatusReport)

/-- `MAX_USER_DATA_LEN + 1` -/
def userDataSize : Nat := 161

/-- The part of a message that the senders set themselves. -/
def fillSubmit (msg : CdmaTransportMsg) (replySeq : UInt8) (msgId : UInt16)
    (headerInd : Bool) (encodeType : SmsEncodingType) (userData : SmsUDPackage) :
    CdmaTransportMsg :=
  { msg with
    replySeq := replySeq
    telesvcMsg := { msg.telesvcMsg with
      msgId := ⟨msgId, headerInd⟩
      userData := { msg.telesvcMsg.userData with encodeType := encodeType, userData := userData } } }

/-- `EncodeMsg` -/
def encodeMsg (msg : CdmaTransportMsg) : Option (List UInt8) :=
  (encodeTransport msg).bind SmsPduBuffer.getPduBuffer

/-- `GetSubmitMsgId` -/
def getSubmitMsgId (msgSubmitId : UInt8) : UInt8 := UInt8.ofNat ((msgSubmitId.toNat + 1) % 65536)

/-! ## Sent first -/

namespace Page

variable (page : Page) (msgRef msgSubmitId : UInt8)

/-- `SetPduSeqInfo` -/
def setPduSeqInfo (msg : CdmaTransportMsg) : CdmaTransportMsg :=
  if page.count > 1 then { msg with teleserviceId := teleserviceWemt } else msg

/-- `TextBasedSmsSplitDelivery` -/
def textTransMsg : Option CdmaTransportMsg :=
  if page.cell.encodeData.length > userDataSize then none
  else
    some (page.setPduSeqInfo (fillSubmit
      (createTextTransMsg page.desAddr page.deliveryCallback page.codingType) msgRef
      (getSubmitMsgId msgSubmitId).toUInt16 (page.count > 1)
      (covertEncodingType page.codingType) ⟨page.concatHeader msgRef, page.cell.encodeData⟩))

/-- `DataBasedSmsDelivery` -/
def dataTransMsg : Option CdmaTransportMsg := do
  let msg ← createDataTransMsg page.desAddr page.deliveryCallback
  if page.cell.encodeData.length > userDataSize then none
  else
    some (fillSubmit msg msgRef (getSubmitMsgId msgSubmitId).toUInt16 true .octet
      ⟨[], page.cell.encodeData⟩)

/-- The `msgId_` of the indexer. `EncodeMsgData` counts once more. -/
def savedMsgId : SplitKind → UInt8
  | .cdmaData => getSubmitMsgId (getSubmitMsgId msgSubmitId)
  | _ => getSubmitMsgId msgSubmitId

end Page

/-! ## Sent again -/

namespace CellContent

variable (content : CellContent) (msgRef : UInt8) (msgId : UInt16)

/-- The header that `SetConcact` sets. The fields are written as those of an 8 bit
reference, and with 16 bits they are read one octet further on. -/
def setConcact : List SmsUDH :=
  let concat := content.smsConcat
  if content.isConcat then
    if concat.is8Bits then
      [.concat8Bit concat.msgRef.toUInt8 concat.totalSeg.toUInt8 concat.seqNum.toUInt8]
    else
      [.concat16Bit (concat.totalSeg.toUInt8.toUInt16 <<< 8 ||| concat.msgRef.toUInt8.toUInt16)
        concat.seqNum.toUInt8 0]
  else []

/-- `ResendTextDelivery`: the text is copied, and the length stays zero. -/
def resendTextTransMsg : Option CdmaTransportMsg :=
  if content.text.length > userDataSize then none
  else
    let msg := fillSubmit
      (createTextTransMsg content.destAddr content.deliveryCallback content.dcs)
      msgRef msgId content.isConcat .octet ⟨content.setConcact, []⟩
    some (if content.isConcat then { msg with teleserviceId := teleserviceWemt } else msg)

/-- `ResendDataDelivery` -/
def resendDataTransMsg : Option CdmaTransportMsg := do
  let msg ← createDataTransMsg content.destAddr content.deliveryCallback
  if content.data.length > userDataSize then none
  else some (fillSubmit msg msgRef msgId true .octet ⟨[], content.data⟩)

end CellContent

/-! ## The cells of a run -/

/-- What a split step finds: the cell and the counter of the messages. -/
structure CdmaInput where
  page : Page
  msgSubmitId : UInt8
deriving DecidableEq, Repr

/-- A cell as its loop knew it. -/
structure CdmaCell where
  kind : SplitKind
  page : Page
  msgRef : UInt8
  msgSubmitId : UInt8
deriving DecidableEq, Repr

namespace CdmaCell

variable (cell : CdmaCell)

/-- The message that is first encoded. -/
def first : Option CdmaTransportMsg :=
  if cell.kind.isText then cell.page.textTransMsg cell.msgRef cell.msgSubmitId
  else cell.page.dataTransMsg cell.msgRef cell.msgSubmitId

/-- The message that is encoded when the cell is resent with the indexer `i`. -/
def resent (i : SmsSendIndexer) : Option CdmaTransportMsg :=
  let content := cell.page.content cell.msgRef true cell.kind
  let msgId := (Page.savedMsgId cell.msgSubmitId cell.kind).toUInt16
  if i.isText then content.resendTextTransMsg (UInt8.ofNat i.msgRefId) msgId
  else content.resendDataTransMsg (UInt8.ofNat i.msgRefId) msgId

end CdmaCell

def cdmaCells : Tracker CdmaInput CdmaCell where
  split x l := ⟨l.kind, x.page, UInt8.ofNat l.msgRefId, x.msgSubmitId⟩
  again c := c
  retry _ _ _ c := c
  sent _ _ _ c := c

/-- The indexer keeps the reference of the cell and whether it is a text. -/
structure SameCell (i : SmsSendIndexer) (c : CdmaCell) : Prop where
  msgRef : UInt8.ofNat i.msgRefId = c.msgRef
  isText : i.isText = c.kind.isText

theorem SameCell.of_eq {i j : SmsSendIndexer} {c : CdmaCell} (h : SameCell i c)
    (href : j.msgRefId = i.msgRefId) (htext : j.isText = i.isText) : SameCell j c :=
  ⟨by rw [href, h.msgRef], by rw [htext, h.isText]⟩

theorem cdmaCells_follows (p : Platform) : Follows p cdmaCells SameCell where
  split _ _ _ _ := ⟨rfl, rfl⟩
  sent _ _ _ _ h := h
  counted refId i c h := by
    apply h.of_eq (updateUnSentCellCount_msgRefId refId i)
    unfold SendWorld.updateUnSentCellCount
    split <;> rfl
  answered flag res i c h := by
    apply h.of_eq (setResponse_msgRefId flag i res)
    cases res <;> rfl
  again w sender i c _ h := by
    obtain ⟨-, href, -, htext⟩ := countResend_fields w sender i
    exact h.of_eq href htext
  retry _ _ _ _ _ _ _ h := ⟨h.msgRef, h.isText⟩

/-! ## Resent messages -/

theorem getSubmitMsgId_ne (id : UInt8) : getSubmitMsgId id ≠ id := by
  obtain ⟨id⟩ := id
  revert id
  decide

theorem covertEncodingType_eq_octet (codingScheme : DataCodingScheme) :
    covertEncodingType codingScheme = .octet ↔ codingScheme = .dataCoding8Bit := by
  cases codingScheme <;> simp [covertEncodingType]

/-- The header of a text is set again as it was. -/
theorem setConcact_content (page : Page) (msgRef : UInt8) :
    (page.content msgRef true .cdmaText).setConcact = page.concatHeader msgRef := by
  unfold CellContent.setConcact Page.concatHeader
  by_cases hcount : page.count > 1
  · simp [Page.content, Page.textContent, hcount, Page.smsConcat, setHeaderConcat]
  · simp [Page.content, Page.textContent, hcount]

/-- A resent text has another coding and no data, apart from empty 8 bit data. -/
theorem textResent_eq_iff {page : Page} {msgRef msgSubmitId : UInt8}
    {first again : CdmaTransportMsg} (hfirst : page.textTransMsg msgRef msgSubmitId = some first)
    (hagain : (page.content msgRef true .cdmaText).resendTextTransMsg msgRef
      (Page.savedMsgId msgSubmitId .cdmaText).toUInt16 = some again) :
    again = first ↔ page.codingType = .dataCoding8Bit ∧ page.cell.encodeData = [] := by
  have hsize : ¬ page.cell.encodeData.length > userDataSize := by
    intro hlong
    simp [Page.textTransMsg, hlong] at hfirst
  have htext : (page.content msgRef true .cdmaText).text = page.cell.encodeData := rfl
  rw [CellContent.resendTextTransMsg, htext, if_neg hsize, Option.some.injEq] at hagain
  rw [Page.textTransMsg, if_neg hsize, Option.some.injEq] at hfirst
  rw [setConcact_content] at hagain
  rw [← covertEncodingType_eq_octet, ← hagain, ← hfirst]
  by_cases hcount : page.count > 1
  · simp [Page.setPduSeqInfo, hcount, fillSubmit, Page.content, Page.textContent,
      createTextTransMsg, submitTransMsg, Page.savedMsgId, greateTransMsg,
      CdmaTeleserviceMsg.zero, SmsTeleSvcUserData.zero, eq_comm]
  · simp [Page.setPduSeqInfo, hcount, fillSubmit, Page.content, Page.textContent,
      createTextTransMsg, submitTransMsg, Page.savedMsgId, greateTransMsg,
      CdmaTeleserviceMsg.zero, SmsTeleSvcUserData.zero, eq_comm]

/-- Resent data has the next message id. -/
theorem dataResent_ne {page : Page} {msgRef msgSubmitId : UInt8}
    {first again : CdmaTransportMsg} (hfirst : page.dataTransMsg msgRef msgSubmitId = some first)
    (hagain : (page.content msgRef true .cdmaData).resendDataTransMsg msgRef
      (Page.savedMsgId msgSubmitId .cdmaData).toUInt16 = some again) : again ≠ first := by
  have hid (m : Option CdmaTransportMsg) (msgId : UInt16) (data : List UInt8)
      {msg : CdmaTransportMsg} (h : (m.bind fun m =>
        if data.length > userDataSize then none
        else some (fillSubmit m msgRef msgId true .octet ⟨[], data⟩)) = some msg) :
      msg.telesvcMsg.msgId.msgId = msgId := by
    cases m with
    | none => simp at h
    | some m =>
        rw [Option.bind_some] at h
        split at h
        · simp at h
        · rw [← Option.some.inj h]
          rfl
  rintro rfl
  have hsame := (hid _ _ _ hfirst).symm.trans (hid _ _ _ hagain)
  have hids : getSubmitMsgId msgSubmitId = getSubmitMsgId (getSubmitMsgId msgSubmitId) := by
    simpa [Page.savedMsgId, ← UInt16.toNat_inj, ← UInt8.toNat_inj] using hsame
  exact getSubmitMsgId_ne _ hids.symm

/-- In every run, a cell that the CDMA sender first sent itself is resent as the same
message, and so as the same PDU, exactly when it is a text of empty 8 bit data. -/
theorem cdmaResent_eq_iff (p : Platform) (events : List (SendEvent × CdmaInput)) (index : Nat)
    (r : SenderId × SmsSendIndexer) (c : CdmaCell) (first again : CdmaTransportMsg)
    (hr : (trackedRun p cdmaCells events).1.retries[index]? = some r)
    (hc : (trackedRun p cdmaCells events).2.queued[index]? = some c)
    (hkind : c.kind = .cdmaText ∨ c.kind = .cdmaData) (hfirst : c.first = some first)
    (hagain : c.resent r.2 = some again) :
    (again = first ∧ encodeMsg again = encodeMsg first) ↔
      c.kind = .cdmaText ∧ c.page.codingType = .dataCoding8Bit ∧ c.page.cell.encodeData = [] := by
  have hcell := (tracked_of_run (cdmaCells_follows p) events).queued index r c hr hc
  have hpdu : (again = first ∧ encodeMsg again = encodeMsg first) ↔ again = first :=
    ⟨fun h => h.1, fun h => ⟨h, by rw [h]⟩⟩
  rw [hpdu]
  unfold CdmaCell.first at hfirst
  unfold CdmaCell.resent at hagain
  rw [hcell.msgRef, hcell.isText] at hagain
  rcases hkind with hkind | hkind
  · simp only [hkind, SplitKind.isText, if_true] at hfirst hagain
    rw [textResent_eq_iff hfirst hagain]
    simp [hkind]
  · simp only [hkind, SplitKind.isText, Bool.false_eq_true, if_false] at hfirst hagain
    have hne := dataResent_ne hfirst hagain
    simp [hkind, hne]

/-- A text to `123` that fails on a CDMA network and then on a GSM network. -/
def failedOnBoth (x : CdmaInput) : List (SendEvent × CdmaInput) :=
  [(.networkState ⟨0, .cdma⟩ false true, x), (.textDelivery ⟨0, .cdma⟩ true [⟨2, true⟩], x),
    (.splitStep 0 ⟨0, false⟩, x), (.response ⟨0, .cdma⟩ 1 (.sendSmsResult 4) 1, x),
    (.retry 0 .gsm .encoded ⟨1, false⟩, x), (.response ⟨0, .gsm⟩ 2 (.sendSmsResult 4) 2, x)]

def textTo123 (encodeData : List UInt8) (codingType : DataCodingScheme) : CdmaInput :=
  ⟨⟨[0x31, 0x32, 0x33], ⟨encodeData, encodeData, codingType, 0⟩, codingType, 1, 0, 0, false⟩, 6⟩

def failedIndexer : SmsSendIndexer :=
  ⟨1, 0, ⟨0, 0⟩, true, false, .gsm, 1, 1, 1, 4, true, 2⟩

/-- Two characters are resent as none, in another coding. -/
theorem cdmaResent_loses_text :
    ∃ r c first again,
      (trackedRun ⟨false, 4⟩ cdmaCells
        (failedOnBoth (textTo123 [0x48, 0x69] .dataCodingAscii7Bit))).1.retries[0]? = some r ∧
      (trackedRun ⟨false, 4⟩ cdmaCells
        (failedOnBoth (textTo123 [0x48, 0x69] .dataCodingAscii7Bit))).2.queued[0]? = some c ∧
      c.kind = .cdmaText ∧ c.first = some first ∧ c.resent r.2 = some again ∧
      encodeMsg first = some [0, 0, 2, 16, 2, 4, 3, 0, 196, 140, 6, 1, 4, 8, 14, 0, 3, 32, 0, 112,
        1, 4, 16, 20, 141, 32, 8, 1, 0] ∧
      encodeMsg again = some [0, 0, 2, 16, 2, 4, 3, 0, 196, 140, 6, 1, 4, 8, 12, 0, 3, 32, 0, 112,
        1, 2, 0, 0, 8, 1, 0] :=
  ⟨(⟨0, .gsm⟩, failedIndexer),
    ⟨.cdmaText, (textTo123 [0x48, 0x69] .dataCodingAscii7Bit).page, 1, 6⟩, _, _,
    by decide +kernel, by decide +kernel, rfl, rfl, rfl, by decide +kernel, by decide +kernel⟩

/-- Nothing is lost of a text of no octets. -/
theorem cdmaResent_eq_empty :
    ∃ first again,
      (trackedRun ⟨false, 4⟩ cdmaCells
        (failedOnBoth (textTo123 [] .dataCoding8Bit))).2.queued[0]? =
          some ⟨.cdmaText, (textTo123 [] .dataCoding8Bit).page, 1, 6⟩ ∧
      again = first ∧ encodeMsg again = encodeMsg first :=
  have hcell : (trackedRun ⟨false, 4⟩ cdmaCells
      (failedOnBoth (textTo123 [] .dataCoding8Bit))).2.queued[0]? =
        some ⟨.cdmaText, (textTo123 [] .dataCoding8Bit).page, 1, 6⟩ := by
    decide +kernel
  ⟨_, _, hcell, (cdmaResent_eq_iff ⟨false, 4⟩ (failedOnBoth (textTo123 [] .dataCoding8Bit)) 0
    (⟨0, .gsm⟩, failedIndexer) _ _ _ (by decide +kernel) hcell (Or.inl rfl) rfl rfl).mpr
      ⟨rfl, rfl, rfl⟩⟩

end TelephonySms.Send
