import TelephonySms.Send.Preview
import TelephonySms.Send.TextDelivery

/-! # What a CDMA text is booked under

`TextBasedSmsDelivery` of the CDMA sender hands one indexer to the RIL for each segment, and when
the answers come in, the row of the database is found by what the indexer says. The row number
and the mark of the application change places on the way to `UpdateIndexerInfo`, where an `int32_t`
and a `bool` pass for one another.
-/

namespace TelephonySms.Send

open TelephonySms.Pdu TelephonySms.Text

/-! ## Indexers -/

/-- The arguments of `TextBasedSmsDelivery`; a callback is known by a number, and `none` is null. -/
structure TextRequest where
  desAddr : List UInt8
  scAddr : List UInt8
  text : List UInt8
  sendCallback : Option Nat
  deliveryCallback : Option Nat
  dataBaseId : Int32
  isMmsApp : Bool
deriving DecidableEq, Repr

/-- The fields of `SmsSendIndexer` that the loop over the segments sets. -/
structure TextIndexer where
  text : List UInt8
  scAddr : List UInt8
  destAddr : List UInt8
  sendCallback : Option Nat
  deliveryCallback : Option Nat
  isText : Bool
  pdu : List UInt8
  netWorkType : NetWorkType
  timeStamp : Int
  msgRefId : UInt8
  unSentCellCount : UInt8
  hasCellFailed : Option CellFlag
  dcs : DataCodingScheme
  isConcat : Bool
  smsConcat : SmsConcat
  isMmsApp : Bool
  msgId : UInt16
  dataBaseId : Int32
deriving DecidableEq, Repr

/-- `SmsSendIndexer(desAddr, scAddr, text, sendCallback, deliveryCallback)`. -/
def TextIndexer.new (desAddr scAddr text : List UInt8)
    (sendCallback deliveryCallback : Option Nat) : TextIndexer where
  text := text
  scAddr := scAddr
  destAddr := desAddr
  sendCallback := sendCallback
  deliveryCallback := deliveryCallback
  isText := true
  pdu := []
  netWorkType := .unknown
  timeStamp := 0
  msgRefId := 0
  unSentCellCount := 0
  hasCellFailed := none
  dcs := .dataCoding7Bit
  isConcat := false
  smsConcat := ⟨0, 0, 0, false⟩
  isMmsApp := true
  msgId := 0
  dataBaseId := 0

/-- What `SetPduSeqInfo` tells the indexer. -/
def TextIndexer.setPduSeqInfo (indexer : TextIndexer) (size index : Nat) (msgRef8bit : UInt8) :
    TextIndexer :=
  if size > 1 then
    { indexer with
      isConcat := true
      smsConcat :=
        ⟨msgRef8bit.toUInt16, UInt16.ofNat (index + 1), (UInt8.ofNat size).toUInt16, true⟩ }
  else indexer

def TextIndexer.updateIndexerInfo (indexer : TextIndexer) (msgRef8bit unSentCellCount : UInt8)
    (hasCellFailed : CellFlag) (timeStamp : Int) (msgId : UInt16) (dataBaseId : Int32)
    (isMmsApp : Bool) : TextIndexer :=
  { indexer with
    msgRefId := msgRef8bit
    netWorkType := .cdma
    unSentCellCount := unSentCellCount
    hasCellFailed := some hasCellFailed
    timeStamp := timeStamp
    msgId := msgId
    dataBaseId := dataBaseId
    isMmsApp := isMmsApp }

/-- A `bool` where an `int32_t` is wanted. -/
def boolToInt32 (b : Bool) : Int32 := if b then 1 else 0

/-- An `int32_t` where a `bool` is wanted. -/
def int32ToBool (n : Int32) : Bool := n ≠ 0

/-! ## Delivery -/

inductive TextEffect where
  | sendResultCallBack (sendCallback : Option Nat) (result : SmsSendResult)
  | sendSmsToRil (indexer : TextIndexer)
deriving DecidableEq, Repr

/-- The row and the application an effect names. -/
def TextEffect.row : TextEffect → Option (Int32 × Bool)
  | .sendSmsToRil indexer => some (indexer.dataBaseId, indexer.isMmsApp)
  | .sendResultCallBack _ _ => none

/-- What the CDMA sender counts, and whether it codes texts in seven bits. -/
structure CdmaSmsSender where
  force7BitEncodeType : Bool
  msgSeqNum : UInt8
  msgSubmitId : UInt8
deriving DecidableEq, Repr

/-- What is made for one call: the failure flag its segments share, and its time. -/
structure DeliveryCall where
  hasCellFailed : CellFlag
  timeStamp : Int
deriving DecidableEq, Repr

namespace CdmaSmsSender

variable (sender : CdmaSmsSender) (call : DeliveryCall) (request : TextRequest)

/-- The indexer of a segment. The last two arguments of `UpdateIndexerInfo` are `isMmsApp` and
`dataBaseId`, and its last two parameters `dataBaseId` and `isMmsApp`. -/
def segmentIndexer (page : Page) (pdu : List UInt8) : TextIndexer :=
  let msgRef8bit := getSeqNum sender.msgSeqNum
  let msgId := (getSubmitMsgId sender.msgSubmitId).toUInt16
  let indexer := TextIndexer.new request.desAddr request.scAddr page.cell.encodeData
    request.sendCallback request.deliveryCallback
  let indexer := { indexer with dcs := page.cell.encodeType }
  let indexer := indexer.setPduSeqInfo page.count page.index msgRef8bit
  let indexer := { indexer with pdu := pdu }
  indexer.updateIndexerInfo msgRef8bit (UInt8.ofNat page.count) call.hasCellFailed call.timeStamp
    msgId (boolToInt32 request.isMmsApp) (int32ToBool request.dataBaseId)

/-- The loop ends without a word at data that is too long, and with a report at a PDU that cannot
be encoded. -/
def textBasedSmsSplitDelivery : List Page → List TextEffect
  | [] => []
  | page :: pages =>
      if page.cell.encodeData.length > userDataSize then []
      else
        match page.textPdu (getSeqNum sender.msgSeqNum) sender.msgSubmitId with
        | none => [.sendResultCallBack request.sendCallback .failureUnknown]
        | some pdu =>
            .sendSmsToRil (sender.segmentIndexer call request page pdu) ::
              textBasedSmsSplitDelivery pages

variable (isBoundary : List UInt16 → Nat → Bool) (iconv : Iconv)

/-- The segments of the text. -/
def segments : List Page :=
  textPages isBoundary iconv request.desAddr request.text sender.force7BitEncodeType
    request.deliveryCallback.isSome

/-- Behind the branch to `TextBasedSmsDeliveryViaIms`. There is no result where `desAddr.at(0)`
throws. -/
def textBasedSmsDelivery : Option (List TextEffect) :=
  let pages := sender.segments request isBoundary iconv
  if pages.length > maxSegmentNum then
    some [.sendResultCallBack request.sendCallback .failureUnknown]
  else if request.desAddr = [] then none
  else some (sender.textBasedSmsSplitDelivery call request pages)

/-- Failure is reported, or each segment goes to the RIL in its turn and says for which request,
under which reference and as how many segments. -/
def Booked (pages : List Page) (result : Option (List TextEffect)) : Prop :=
  ∃ effects, result = some effects ∧
    (.sendResultCallBack request.sendCallback .failureUnknown ∈ effects ∨
      ∃ indexers : List TextIndexer, effects = indexers.map .sendSmsToRil ∧
        indexers.map TextIndexer.text = pages.map (fun page => page.cell.encodeData) ∧
        ∀ indexer ∈ indexers,
          indexer.dataBaseId = request.dataBaseId ∧ indexer.isMmsApp = request.isMmsApp ∧
            indexer.msgRefId = getSeqNum sender.msgSeqNum ∧
            indexer.msgId = (getSubmitMsgId sender.msgSubmitId).toUInt16 ∧
            indexer.unSentCellCount.toNat = pages.length ∧
            indexer.hasCellFailed = some call.hasCellFailed)

/-! ## The loop -/

variable {sender call request} {isBoundary} {iconv}

/-- When every segment can be encoded, every one is handed over. -/
theorem textBasedSmsSplitDelivery_of_encoded {pages : List Page}
    (hlen : ∀ page ∈ pages, page.cell.encodeData.length ≤ userDataSize)
    (h : ∀ page ∈ pages,
      page.textPdu (getSeqNum sender.msgSeqNum) sender.msgSubmitId ≠ none) :
    ∃ indexers : List TextIndexer,
      sender.textBasedSmsSplitDelivery call request pages = indexers.map .sendSmsToRil ∧
        List.Forall₂ (fun page indexer => ∃ pdu, indexer =
          sender.segmentIndexer call request page pdu) pages indexers := by
  induction pages with
  | nil => exact ⟨[], rfl, .nil⟩
  | cons page pages ih =>
      rcases List.forall_mem_cons.1 hlen with ⟨hpage, hpages⟩
      rcases List.forall_mem_cons.1 h with ⟨hpdu, hpdus⟩
      rcases Option.ne_none_iff_exists'.1 hpdu with ⟨pdu, hencode⟩
      rcases ih hpages hpdus with ⟨indexers, hrun, hrest⟩
      refine ⟨sender.segmentIndexer call request page pdu :: indexers, ?_, .cons ⟨pdu, rfl⟩ hrest⟩
      rw [textBasedSmsSplitDelivery, if_neg (Nat.not_lt.2 hpage), hencode, hrun]
      rfl

/-- When one cannot, this is reported. -/
theorem report_mem_textBasedSmsSplitDelivery {pages : List Page}
    (hlen : ∀ page ∈ pages, page.cell.encodeData.length ≤ userDataSize)
    (h : ∃ page ∈ pages, page.textPdu (getSeqNum sender.msgSeqNum) sender.msgSubmitId = none) :
    .sendResultCallBack request.sendCallback .failureUnknown ∈
      sender.textBasedSmsSplitDelivery call request pages := by
  induction pages with
  | nil =>
      rcases h with ⟨page, hmem, -⟩
      cases hmem
  | cons page pages ih =>
      rcases List.forall_mem_cons.1 hlen with ⟨hpage, hpages⟩
      rw [textBasedSmsSplitDelivery, if_neg (Nat.not_lt.2 hpage)]
      cases hencode : page.textPdu (getSeqNum sender.msgSeqNum) sender.msgSubmitId with
      | none => exact List.mem_singleton_self _
      | some pdu =>
          rcases h with ⟨other, hmem, hnone⟩
          rcases List.mem_cons.1 hmem with rfl | hmem
          · cases hencode.symm.trans hnone
          · exact List.mem_cons_of_mem _ (ih hpages ⟨other, hmem, hnone⟩)

/-- No segment is too long, and each knows how many there are. -/
theorem of_mem_segments {page : Page} (h : page ∈ sender.segments request isBoundary iconv) :
    page.cell.encodeData.length ≤ userDataSize ∧
      page.count = (sender.segments request isBoundary iconv).length := by
  rw [segments, textPages] at *
  simp only [List.length_map, List.length_zipIdx] at h ⊢
  rcases List.mem_map.1 h with ⟨split, hmem, rfl⟩
  have hcell := length_of_mem_cells (List.fst_mem_of_mem_zipIdx hmem)
  exact ⟨hcell.2.trans (by decide), rfl⟩

/-- What an indexer says of its segment and of its request. -/
theorem segmentIndexer_fields (sender : CdmaSmsSender) (call : DeliveryCall)
    (request : TextRequest) (page : Page) (pdu : List UInt8) :
    (sender.segmentIndexer call request page pdu).text = page.cell.encodeData ∧
      (sender.segmentIndexer call request page pdu).dataBaseId = boolToInt32 request.isMmsApp ∧
      (sender.segmentIndexer call request page pdu).isMmsApp = int32ToBool request.dataBaseId := by
  refine ⟨?_, rfl, rfl⟩
  unfold segmentIndexer TextIndexer.updateIndexerInfo TextIndexer.setPduSeqInfo
  dsimp only
  split <;> rfl

theorem exists_of_mem_forall₂ {α β : Type} {R : α → β → Prop} {xs : List α} {ys : List β}
    (h : List.Forall₂ R xs ys) {y : β} (hy : y ∈ ys) : ∃ x ∈ xs, R x y := by
  induction h with
  | nil => cases hy
  | cons hR hRs ih =>
      rcases List.mem_cons.1 hy with rfl | hy
      · exact ⟨_, List.mem_cons_self, hR⟩
      · rcases ih hy with ⟨x, hx, hxy⟩
        exact ⟨x, List.mem_cons_of_mem _ hx, hxy⟩

/-- Both change places without harm where they say the same. -/
theorem boolToInt32_eq_iff (n : Int32) (b : Bool) :
    boolToInt32 b = n ∧ int32ToBool n = b ↔ n = boolToInt32 b := by
  constructor
  · exact fun h => h.1.symm
  · rintro rfl
    cases b <;> exact ⟨rfl, rfl⟩

/-- A text of at least one segment is booked as it was requested when failure is reported, or
when the row is 1 for the application and 0 for another. -/
theorem booked_iff (sender : CdmaSmsSender) (call : DeliveryCall) {request : TextRequest}
    (isBoundary : List UInt16 → Nat → Bool) (iconv : Iconv) (hdes : request.desAddr ≠ [])
    (hsplit : sender.segments request isBoundary iconv ≠ []) :
    sender.Booked call request (sender.segments request isBoundary iconv)
        (sender.textBasedSmsDelivery call request isBoundary iconv) ↔
      (sender.segments request isBoundary iconv).length > maxSegmentNum ∨
        (∃ page ∈ sender.segments request isBoundary iconv,
          page.textPdu (getSeqNum sender.msgSeqNum) sender.msgSubmitId = none) ∨
        request.dataBaseId = if request.isMmsApp then 1 else 0 := by
  have hpage : ∀ page ∈ sender.segments request isBoundary iconv,
      page.cell.encodeData.length ≤ userDataSize ∧
        page.count = (sender.segments request isBoundary iconv).length :=
    fun page hmem => of_mem_segments hmem
  rw [textBasedSmsDelivery]
  generalize sender.segments request isBoundary iconv = pages at *
  by_cases hmany : pages.length > maxSegmentNum
  · rw [if_pos hmany]
    exact iff_of_true ⟨_, rfl, .inl (List.mem_singleton_self _)⟩ (.inl hmany)
  rw [if_neg hmany, if_neg hdes, or_iff_right hmany]
  by_cases hfail : ∃ page ∈ pages,
      page.textPdu (getSeqNum sender.msgSeqNum) sender.msgSubmitId = none
  · exact iff_of_true ⟨_, rfl, .inl (report_mem_textBasedSmsSplitDelivery
      (fun page hmem => (hpage page hmem).1) hfail)⟩ (.inl hfail)
  rw [or_iff_right hfail]
  have hencoded : ∀ page ∈ pages,
      page.textPdu (getSeqNum sender.msgSeqNum) sender.msgSubmitId ≠ none :=
    fun page hmem hnone => hfail ⟨page, hmem, hnone⟩
  rcases textBasedSmsSplitDelivery_of_encoded (fun page hmem => (hpage page hmem).1) hencoded with
    ⟨indexers, hrun, hindexers⟩
  rw [hrun]
  have hswap := boolToInt32_eq_iff request.dataBaseId request.isMmsApp
  constructor
  · rintro ⟨effects, heq, hbooked⟩
    cases heq
    rcases hbooked with hreport | ⟨others, hmap, -, hall⟩
    · rcases List.mem_map.1 hreport with ⟨indexer, -, hindexer⟩
      cases hindexer
    · have hinj : Function.Injective TextEffect.sendSmsToRil := fun _ _ h => by cases h; rfl
      rw [← List.map_injective_iff.2 hinj hmap] at hall
      cases hindexers with
      | nil => exact absurd rfl hsplit
      | cons hfirst hrest =>
          rcases hfirst with ⟨pdu, rfl⟩
          have hfields := (List.forall_mem_cons.1 hall).1
          rcases segmentIndexer_fields sender call request _ pdu with ⟨-, hdata, hmms⟩
          exact hswap.1 ⟨hdata.symm.trans hfields.1, hmms.symm.trans hfields.2.1⟩
  · intro hrow
    rcases hswap.2 hrow with ⟨hdata, hmms⟩
    refine ⟨_, rfl, .inr ⟨indexers, rfl, map_eq_of_forall₂ hindexers ?_, ?_⟩⟩
    · rintro page - indexer ⟨pdu, rfl⟩
      exact (segmentIndexer_fields sender call request page pdu).1
    · intro indexer hmem
      rcases exists_of_mem_forall₂ hindexers hmem with ⟨page, hpages, pdu, rfl⟩
      refine ⟨hdata, hmms, rfl, rfl, ?_, rfl⟩
      have hcount := (hpage page hpages).2
      unfold maxSegmentNum at hmany
      rw [← hcount] at hmany ⊢
      exact Nat.mod_eq_of_lt (by omega)

/-- The letter a to `1`, for a row and from an application. -/
def letterRequest (dataBaseId : Int32) (isMmsApp : Bool) : TextRequest :=
  ⟨[0x31], [], [0x61], some 0, none, dataBaseId, isMmsApp⟩

theorem segments_letterRequest (dataBaseId : Int32) (isMmsApp : Bool) :
    (⟨false, 0, 0⟩ : CdmaSmsSender).segments (letterRequest dataBaseId isMmsApp) (fun _ _ => true)
        utf8Iconv =
      [⟨[0x31], ⟨[0x61], [0x61], .dataCodingAscii7Bit, 0⟩, .dataCodingAscii7Bit, 1, 0, 0,
        false⟩] := by
  have hdecoded : decoded utf8Iconv .cdma [0x61] false [] = ⟨.dataCodingAscii7Bit, 0, [0x61]⟩ := by
    simp only [decoded, decodeMessage, cdmaUtf8ToAuto, utf8ToUtf16_letter]
    decide +kernel
  have hpages : textPages (fun _ _ => true) utf8Iconv [0x31] [0x61] false false =
      [⟨[0x31], ⟨[0x61], [0x61], .dataCodingAscii7Bit, 0⟩, .dataCodingAscii7Bit, 1, 0, 0,
        false⟩] := by
    unfold textPages splitMessage
    rw [hdecoded]
    decide +kernel
  exact hpages

/-- Row 1 of the application itself. -/
theorem booked_first_row :
    (⟨false, 0, 0⟩ : CdmaSmsSender).Booked ⟨⟨0, 0⟩, 0⟩ (letterRequest 1 true)
      ((⟨false, 0, 0⟩ : CdmaSmsSender).segments (letterRequest 1 true) (fun _ _ => true) utf8Iconv)
      ((⟨false, 0, 0⟩ : CdmaSmsSender).textBasedSmsDelivery ⟨⟨0, 0⟩, 0⟩ (letterRequest 1 true)
        (fun _ _ => true) utf8Iconv) :=
  (booked_iff ⟨false, 0, 0⟩ ⟨⟨0, 0⟩, 0⟩ (fun _ _ => true) utf8Iconv (by decide)
    (by rw [segments_letterRequest]; exact List.cons_ne_nil _ _)).2 (.inr (.inr rfl))

/-- Row 7 is booked as row 1. -/
theorem not_booked_other_row :
    ((⟨false, 0, 0⟩ : CdmaSmsSender).textBasedSmsDelivery ⟨⟨0, 0⟩, 0⟩ (letterRequest 7 true)
        (fun _ _ => true) utf8Iconv).map (List.map TextEffect.row) = some [some (1, true)] ∧
      ¬ (⟨false, 0, 0⟩ : CdmaSmsSender).Booked ⟨⟨0, 0⟩, 0⟩ (letterRequest 7 true)
        ((⟨false, 0, 0⟩ : CdmaSmsSender).segments (letterRequest 7 true) (fun _ _ => true) utf8Iconv)
        ((⟨false, 0, 0⟩ : CdmaSmsSender).textBasedSmsDelivery ⟨⟨0, 0⟩, 0⟩ (letterRequest 7 true)
          (fun _ _ => true) utf8Iconv) := by
  have hrun : ((⟨false, 0, 0⟩ : CdmaSmsSender).textBasedSmsDelivery ⟨⟨0, 0⟩, 0⟩
      (letterRequest 7 true) (fun _ _ => true) utf8Iconv).map (List.map TextEffect.row) =
        some [some (1, true)] := by
    rw [textBasedSmsDelivery, segments_letterRequest]
    decide +kernel
  refine ⟨hrun, ?_⟩
  rintro ⟨effects, heq, hbooked⟩
  rw [heq, Option.map_some, Option.some.injEq] at hrun
  rcases hbooked with hreport | ⟨indexers, rfl, -, hall⟩
  · have hrow := List.mem_map_of_mem (f := TextEffect.row) hreport
    rw [hrun] at hrow
    cases List.mem_singleton.1 hrow
  · cases indexers with
    | nil => cases hrun
    | cons indexer indexers =>
        have hbooked := (hall indexer List.mem_cons_self).1
        have hrow := (List.cons.inj hrun).1
        rw [TextEffect.row, hbooked, Option.some.injEq, Prod.mk.injEq] at hrow
        exact absurd hrow.1 (by decide)

end CdmaSmsSender

end TelephonySms.Send
