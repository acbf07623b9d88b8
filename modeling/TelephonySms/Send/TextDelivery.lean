import TelephonySms.Cdma.TextBody
import TelephonySms.Send.CdmaResend
import TelephonySms.Text.Lossless
import Mathlib.Algebra.Order.BigOperators.Group.List

/-! # Text on a CDMA network

`TextBasedSmsDelivery` of the CDMA sender and what the receiver makes of its PDUs. A text that is
forced into seven bits is copied octet by octet, and an octet that has eight bits runs into its
neighbour. The other texts come through, unless a cut stands inside a surrogate pair.
-/

namespace TelephonySms.Send

open TelephonySms.Pdu TelephonySms.Cdma TelephonySms.Text

/-! ## Delivery -/

/-- `GetSeqNum`, with `CDMASMS_SEQ_NUM_MAX` of 64. -/
def getSeqNum (msgSeqNum : UInt8) : UInt8 := UInt8.ofNat ((msgSeqNum.toNat + 1) % 64)

section Delivery

variable (isBoundary : List UInt16 → Nat → Bool) (iconv : Iconv)

/-- The segments of a text in the order in which the loop takes them. -/
def textPages (desAddr text : List UInt8) (force7BitCode deliveryCallback : Bool) : List Page :=
  let (codingType, splits) := splitMessage isBoundary iconv .cdma text force7BitCode false []
  splits.zipIdx.map fun split =>
    { desAddr := desAddr
      cell := split.1
      codingType := codingType
      count := splits.length
      index := split.2
      port := 0
      deliveryCallback := deliveryCallback }

/-- The PDU of a segment. -/
def Page.textPdu (page : Page) (msgRef msgSubmitId : UInt8) : Option (List UInt8) :=
  (page.textTransMsg msgRef msgSubmitId).bind encodeMsg

/-- The PDUs that are handed to the RIL, if the loop comes to the last segment. It does not when
failure is reported, or when `desAddr.at(0)` throws. -/
def textPdus (desAddr text : List UInt8) (force7BitCode deliveryCallback : Bool)
    (msgSeqNum msgSubmitId : UInt8) : Option (List (List UInt8)) :=
  let pages := textPages isBoundary iconv desAddr text force7BitCode deliveryCallback
  if pages.length > maxSegmentNum then none
  else if desAddr = [] then none
  else pages.mapM fun page => page.textPdu (getSeqNum msgSeqNum) msgSubmitId

end Delivery

/-- Every PDU is read as a message, the texts of the messages are the text, and the messages of
a text of several segments are numbered in order under one reference. -/
def Survives (coders : BodyCoders) (coder : TextCoder) (text : List UInt8)
    (pdus : List (List UInt8)) : Prop :=
  ∃ messages, pdus.mapM (CdmaSmsMessage.createMessage coders coder) = some messages ∧
    messages.flatMap CdmaSmsMessage.visibleMessageBody = text ∧
    (1 < pdus.length → ∃ msgRef, messages.map CdmaSmsMessage.getConcatMsg =
      (List.range pdus.length).map fun i =>
        some ⟨msgRef, UInt16.ofNat (i + 1), UInt16.ofNat pdus.length, true⟩)

/-- The text has no character of more than seven bits when it is forced into seven, and no cut
inside a surrogate pair otherwise; and it is not too long to be coded at all. -/
def Deliverable (isBoundary : List UInt16 → Nat → Bool) (iconv : Iconv) (text : List UInt8)
    (force7BitCode : Bool) : Prop :=
  if force7BitCode then text.length ≤ maxDecodeLen ∧ ∀ c ∈ text, c.toNat < 128
  else text.length < ucs2LenMax ∧ NoPairCut isBoundary (decoded iconv .cdma text false []) false

/-! ## Lists of results -/

theorem mapM_eq_some_iff {α β : Type} (f : α → Option β) (xs : List α) (ys : List β) :
    xs.mapM f = some ys ↔ List.Forall₂ (fun x y => f x = some y) xs ys := by
  induction xs generalizing ys with
  | nil => cases ys <;> simp
  | cons x xs ih =>
      rw [List.mapM_cons]
      cases hx : f x with
      | none => cases ys <;> simp [hx]
      | some y =>
          cases hxs : xs.mapM f with
          | none => cases ys <;> simp [hx, ← ih, hxs]
          | some zs => cases ys <;> simp [hx, ← ih, hxs]

/-- What is made of each element in two steps. -/
theorem exists_mapM {α β γ : Type} {R : α → γ → Prop} {f : α → Option β} {g : β → Option γ}
    {xs : List α} {ys : List β} (hys : xs.mapM f = some ys)
    (h : ∀ x ∈ xs, ∀ y, f x = some y → ∃ z, g y = some z ∧ R x z) :
    ∃ zs, ys.mapM g = some zs ∧ List.Forall₂ R xs zs := by
  rw [mapM_eq_some_iff] at hys
  induction hys with
  | nil => exact ⟨[], rfl, .nil⟩
  | cons hx hxs ih =>
      obtain ⟨z, hz, hR⟩ := h _ List.mem_cons_self _ hx
      obtain ⟨zs, hzs, hRs⟩ := ih fun x hmem => h x (List.mem_cons_of_mem _ hmem)
      exact ⟨z :: zs, by simp [List.mapM_cons, hz, hzs], .cons hR hRs⟩

theorem forall_mapM {α β γ : Type} {P : γ → Prop} {f : α → Option β} {g : β → Option γ}
    {xs : List α} {ys : List β} {zs : List γ} (hys : xs.mapM f = some ys)
    (hzs : ys.mapM g = some zs)
    (h : ∀ x ∈ xs, ∀ y z, f x = some y → g y = some z → P z) : ∀ z ∈ zs, P z := by
  rw [mapM_eq_some_iff] at hys hzs
  induction hys generalizing zs with
  | nil =>
      cases hzs
      simp
  | cons hx hxs ih =>
      cases hzs with
      | cons hy hzs =>
          rw [List.forall_mem_cons]
          exact ⟨h _ List.mem_cons_self _ _ hx hy,
            ih hzs fun x hmem => h x (List.mem_cons_of_mem _ hmem)⟩

theorem map_eq_of_forall₂ {α β γ : Type} {R : α → β → Prop} {f : α → γ} {g : β → γ} {xs : List α}
    {ys : List β} (h : List.Forall₂ R xs ys) (hfg : ∀ x ∈ xs, ∀ y, R x y → g y = f x) :
    ys.map g = xs.map f := by
  induction h with
  | nil => rfl
  | cons hR hRs ih =>
      rw [List.map_cons, List.map_cons, hfg _ List.mem_cons_self _ hR,
        ih fun x hx => hfg x (List.mem_cons_of_mem _ hx)]

/-! ## A segment -/

namespace Page

variable (page : Page) (msgRef msgSubmitId : UInt8)

/-- The user data of a segment. -/
def textUserData : SmsTeleSvcUserData :=
  ⟨covertEncodingType page.codingType, 0, ⟨page.concatHeader msgRef, page.cell.encodeData⟩⟩

/-- The message of a segment with no text in it. -/
def bareMsg : CdmaTransportMsg :=
  page.setPduSeqInfo (fillSubmit
    (createTextTransMsg page.desAddr page.deliveryCallback page.codingType) msgRef
    (getSubmitMsgId msgSubmitId).toUInt16 (page.count > 1) .ascii7Bit
    ⟨page.concatHeader msgRef, []⟩)

theorem textTransMsg_eq : page.textTransMsg msgRef msgSubmitId =
    if page.cell.encodeData.length > userDataSize then none
    else some ((page.bareMsg msgRef msgSubmitId).withUserData (page.textUserData msgRef)) := by
  unfold textTransMsg bareMsg setPduSeqInfo
  split_ifs <;> rfl

end Page

theorem addressChars_digits {dest : List UInt8} (hlen : dest.length ≤ 256)
    (h : ∀ c ∈ dest, c ∈ dtmfDigits) : addressChars dest = dest := by
  have hnonzero : ∀ c ∈ dest, decide (c ≠ 0) = true := by
    intro c hc
    have hdigit := h c hc
    rw [decide_eq_true_eq]
    rintro rfl
    exact absurd hdigit (by decide)
  have hstring : cString dest = dest := List.takeWhile_eq_self_iff.mpr hnonzero
  rw [addressChars, if_neg (by omega), hstring, Nat.sub_self, List.replicate_zero, List.append_nil]

/-- A number that is written in its mode: digits, or anything behind a plus. -/
def IsDialable (dest : List UInt8) : Prop := IsNumber (dest.head? = some 0x2b) dest

theorem concatHeader_cases (page : Page) (msgRef : UInt8) :
    page.concatHeader msgRef =
      if page.count > 1 then
        [.concat8Bit msgRef (UInt16.ofNat page.count).toUInt8 (UInt16.ofNat (page.index + 1)).toUInt8]
      else [] := by
  unfold Page.concatHeader
  split_ifs
  · simp [setHeaderConcat, Page.smsConcat]
  · rfl

section Segment

variable {page : Page} {msgRef msgSubmitId : UInt8}

theorem plain_concatHeader : (page.concatHeader msgRef).all SmsUDH.isPlain = true := by
  rw [concatHeader_cases]
  split_ifs <;> rfl

theorem length_concatHeader_le : (page.concatHeader msgRef).length ≤ 7 := by
  rw [concatHeader_cases]
  split_ifs <;> simp

theorem length_udh_textUserData :
    (page.textUserData msgRef).userData.udh.length = if page.count > 1 then 5 else 0 := by
  have hudh : (page.textUserData msgRef).userData.udh =
      (page.concatHeader msgRef).flatMap headerOctets := rfl
  rw [hudh, concatHeader_cases]
  split_ifs <;> rfl

/-- What the segment adds to the message of a submitted text. -/
theorem bareMsg_eq : page.bareMsg msgRef msgSubmitId =
    { submitTransMsg page.desAddr page.deliveryCallback with
      teleserviceId := if page.count > 1 then teleserviceWemt else teleserviceWmt
      replySeq := msgRef
      telesvcMsg :=
        { (submitTransMsg page.desAddr page.deliveryCallback).telesvcMsg with
          msgId := ⟨(getSubmitMsgId msgSubmitId).toUInt16, page.count > 1⟩
          userData := ⟨.ascii7Bit, 0, ⟨page.concatHeader msgRef, []⟩⟩ } } := by
  unfold Page.bareMsg Page.setPduSeqInfo
  split_ifs <;> rfl

theorem headerInd_bareMsg : (page.bareMsg msgRef msgSubmitId).telesvcMsg.msgId.headerInd =
    decide ((page.textUserData msgRef).userData.header ≠ []) := by
  have hheader : (page.textUserData msgRef).userData.header = page.concatHeader msgRef := rfl
  rw [hheader, concatHeader_cases, bareMsg_eq]
  by_cases hseveral : page.count > 1 <;> simp [hseveral]

theorem isSubmit_bareMsg (hdest : IsDialable page.desAddr) (hlen : page.desAddr.length ≤ 256)
    (href : msgRef.toNat < 64) : IsSubmit (page.bareMsg msgRef msgSubmitId) := by
  have hindicator : (page.bareMsg msgRef msgSubmitId).telesvcMsg.msgId.headerInd = _ :=
    headerInd_bareMsg
  rw [bareMsg_eq] at hindicator ⊢
  refine ⟨rfl, rfl, ⟨fun _ => ?_, fun _ => (by decide : (0 : UInt8).toNat < 2 ^ 4), ?_⟩, href,
    hindicator, ?_, ?_, ?_⟩
  · unfold submitTransMsg
    dsimp only
    split_ifs <;> decide
  · intro hmode c hc
    have hdigits : ∀ c ∈ page.desAddr, c ∈ dtmfDigits := hdest hmode
    have hchars : c ∈ addressChars page.desAddr := hc
    rw [addressChars_digits hlen hdigits] at hchars
    exact hdigits c hchars
  · exact .septets (.inl rfl) (by simp) plain_concatHeader length_concatHeader_le
  · intro time htime
    cases htime
  · exact ⟨nofun, nofun, fun _ => by simp [submitTransMsg, greateTransMsg, CdmaTeleserviceMsg.zero]⟩

theorem teleserviceId_bareMsg : (page.bareMsg msgRef msgSubmitId).teleserviceId ≠ 0xFFFF := by
  rw [bareMsg_eq]
  dsimp only
  split_ifs <;> decide

theorem exists_of_textPdu {pdu : List UInt8} (h : page.textPdu msgRef msgSubmitId = some pdu) :
    page.cell.encodeData.length ≤ 161 ∧ ∃ b, encodeTransport
      ((page.bareMsg msgRef msgSubmitId).withUserData (page.textUserData msgRef)) = some b ∧
        pdu = b.data.take b.index := by
  rw [Page.textPdu, Page.textTransMsg_eq] at h
  split at h
  · cases h
  · next hlen =>
      rw [Option.bind_some] at h
      obtain ⟨b, hb, hpdu⟩ := Option.bind_eq_some_iff.mp h
      exact ⟨Nat.not_lt.mp hlen, b, hb, (SmsPduBuffer.getPduBuffer_eq_some hpdu).2.2⟩

theorem length_desAddr_le {data : SmsTeleSvcUserData} {b : SmsPduBuffer}
    (h : encodeTransport ((page.bareMsg msgRef msgSubmitId).withUserData data) = some b) :
    page.desAddr.length ≤ 256 := by
  have hp2p : ((page.bareMsg msgRef msgSubmitId).withUserData data).type = .p2p := by
    rw [bareMsg_eq]
    rfl
  have haddress : ((page.bareMsg msgRef msgSubmitId).withUserData data).address.szData =
      addressChars page.desAddr := by
    rw [bareMsg_eq]
    rfl
  simp only [encodeTransport, transportParameters, hp2p, Option.bind_eq_bind,
    Option.bind_some] at h
  obtain ⟨b₁, -, hrecords⟩ := Option.bind_eq_some_iff.mp h
  obtain ⟨b₂, c₂, haccepted⟩ := exists_encode_of_encodeRecords hrecords (.address 0x04)
    (by simp [p2pParameters])
  have hle : (addressChars page.desAddr).length ≤ 255 := by
    rw [← haddress]
    exact length_le_of_encodeAddress haccepted
  by_contra hlong
  rw [addressChars, if_pos (by omega), List.length_replicate] at hle
  omega

/-- A segment in a coding that is read back is shown as it was sent, behind its header. -/
theorem createMessage_textPdu (coders : BodyCoders) (coder : TextCoder)
    (hdest : IsDialable page.desAddr) (href : msgRef.toNat < 64)
    (htext : IsText (page.textUserData msgRef)) {pdu : List UInt8}
    (h : page.textPdu msgRef msgSubmitId = some pdu) :
    ∃ m, CdmaSmsMessage.createMessage coders coder pdu = some m ∧
      m.visibleMessageBody = visibleText coders (page.textUserData msgRef) ∧
      m.smsUserData.header = page.concatHeader msgRef := by
  obtain ⟨hlen, b, hb, rfl⟩ := exists_of_textPdu h
  have hsubmit : IsSubmit (page.bareMsg msgRef msgSubmitId) :=
    isSubmit_bareMsg hdest (length_desAddr_le hb) href
  obtain ⟨m, hm, hbody, huser⟩ := CdmaSmsMessage.createMessage_text coders coder hsubmit
    teleserviceId_bareMsg headerInd_bareMsg htext plain_concatHeader length_concatHeader_le hlen hb
  exact ⟨m, hm, hbody, by rw [huser]; rfl⟩

/-- A segment in septets is shown in septets. -/
theorem lt_of_createMessage_textPdu (coders : BodyCoders) (coder : TextCoder)
    (hdest : IsDialable page.desAddr) (href : msgRef.toNat < 64)
    (hascii : page.codingType = .dataCodingAscii7Bit) {pdu : List UInt8}
    (h : page.textPdu msgRef msgSubmitId = some pdu) {m : CdmaSmsMessage}
    (hm : CdmaSmsMessage.createMessage coders coder pdu = some m) :
    ∀ c ∈ m.visibleMessageBody, c.toNat < 128 := by
  obtain ⟨-, b, hb, rfl⟩ := exists_of_textPdu h
  have hsubmit : IsSubmit (page.bareMsg msgRef msgSubmitId) :=
    isSubmit_bareMsg hdest (length_desAddr_le hb) href
  have htype : (page.textUserData msgRef).encodeType = .ascii7Bit := by
    rw [Page.textUserData, hascii]
    rfl
  have hlength : (page.textUserData msgRef).userData.udh.length = if page.count > 1 then 5 else 0 :=
    length_udh_textUserData
  have hfill : (page.textUserData msgRef).userData.udh = [] ∨
      fill7 false (page.textUserData msgRef).userData.udh.length ≠ [] := by
    rw [hlength]
    split_ifs at hlength ⊢
    · exact .inr (by decide)
    · exact .inl (List.eq_nil_of_length_eq_zero hlength)
  exact CdmaSmsMessage.lt_of_createMessage coders coder hsubmit headerInd_bareMsg htype
    plain_concatHeader length_concatHeader_le hfill hb hm

end Segment

/-! ## All segments -/

section Pages

variable {isBoundary : List UInt16 → Nat → Bool} {coders : BodyCoders} {coder : TextCoder}
variable {desAddr text : List UInt8} {force7BitCode deliveryCallback : Bool}
variable {msgSeqNum msgSubmitId : UInt8} {d : Decoded} {pdus : List (List UInt8)}

theorem textPages_data {iconv : Iconv} (hd : decoded iconv .cdma text force7BitCode [] = d) :
    (textPages isBoundary iconv desAddr text force7BitCode deliveryCallback).map
      (fun page => page.cell.encodeData) = d.segments isBoundary false := by
  simp only [textPages, splitMessage, hd, List.map_map]
  have hfst := List.zipIdx_map_fst 0 ((d.segments isBoundary false).map fun encodeData =>
    SplitInfo.mk (convertSpiltToUtf8 iconv d.codingType encodeData) encodeData d.codingType
      (if d.atBoundaries false then 0 else d.langId))
  have hdata := congrArg (List.map SplitInfo.encodeData) hfst
  simp only [List.map_map] at hdata
  refine Eq.trans hdata ?_
  conv_rhs => rw [← List.map_id (d.segments isBoundary false)]
  rfl

theorem length_textPages {iconv : Iconv} (hd : decoded iconv .cdma text force7BitCode [] = d) :
    (textPages isBoundary iconv desAddr text force7BitCode deliveryCallback).length =
      (d.segments isBoundary false).length := by
  have hdata : (textPages isBoundary iconv desAddr text force7BitCode deliveryCallback).map
      (fun page => page.cell.encodeData) = d.segments isBoundary false := textPages_data hd
  rw [← hdata, List.length_map]

theorem of_mem_textPages {iconv : Iconv} (hd : decoded iconv .cdma text force7BitCode [] = d)
    {page : Page}
    (h : page ∈ textPages isBoundary iconv desAddr text force7BitCode deliveryCallback) :
    page.desAddr = desAddr ∧ page.codingType = d.codingType ∧
      page.cell.encodeData ∈ d.segments isBoundary false := by
  have hdata := List.mem_map_of_mem (f := fun page : Page => page.cell.encodeData) h
  rw [textPages_data hd] at hdata
  simp only [textPages, splitMessage, hd] at h
  obtain ⟨split, -, rfl⟩ := List.mem_map.mp h
  exact ⟨rfl, rfl, hdata⟩

/-- The numbers in the headers of several segments. -/
theorem textPages_concatHeader {iconv : Iconv}
    (hseveral : 1 < (textPages isBoundary iconv desAddr text force7BitCode deliveryCallback).length)
    (msgRef : UInt8) :
    (textPages isBoundary iconv desAddr text force7BitCode deliveryCallback).map
        (fun page => page.concatHeader msgRef) =
      (List.range (textPages isBoundary iconv desAddr text force7BitCode
        deliveryCallback).length).map fun i =>
          [.concat8Bit msgRef (UInt16.ofNat (textPages isBoundary iconv desAddr text force7BitCode
            deliveryCallback).length).toUInt8 (UInt16.ofNat (i + 1)).toUInt8] := by
  unfold textPages at hseveral ⊢
  generalize splitMessage isBoundary iconv .cdma text force7BitCode false [] = split at hseveral ⊢
  obtain ⟨codingType, splits⟩ := split
  simp only [List.length_map, List.length_zipIdx, List.map_map] at hseveral ⊢
  have hsnd := congrArg (List.map fun i => [SmsUDH.concat8Bit msgRef
    (UInt16.ofNat splits.length).toUInt8 (UInt16.ofNat (i + 1)).toUInt8])
    (List.zipIdx_map_snd 0 splits)
  rw [List.map_map, ← List.range_eq_range'] at hsnd
  rw [← hsnd]
  refine List.map_congr_left fun split _ => ?_
  simp only [Function.comp_apply]
  rw [concatHeader_cases, if_pos hseveral]

theorem length_textPages_le {iconv : Iconv}
    (h : textPdus isBoundary iconv desAddr text force7BitCode deliveryCallback msgSeqNum
      msgSubmitId = some pdus) :
    (textPages isBoundary iconv desAddr text force7BitCode deliveryCallback).length ≤ 15 ∧
      (textPages isBoundary iconv desAddr text force7BitCode deliveryCallback).mapM
        (fun page => page.textPdu (getSeqNum msgSeqNum) msgSubmitId) = some pdus := by
  unfold textPdus at h
  dsimp only at h
  split_ifs at h with hmany hempty
  exact ⟨Nat.not_lt.mp hmany, h⟩

theorem getSeqNum_lt (msgSeqNum : UInt8) : (getSeqNum msgSeqNum).toNat < 64 := by
  rw [getSeqNum, UInt8.toNat_ofNat']
  omega

theorem visibleText_textUserData (coders : BodyCoders) {page : Page} {msgRef : UInt8}
    (hcoding : d.codingType = .dataCodingAscii7Bit ∨ d.codingType = .dataCodingUcs2)
    (hpage : page.codingType = d.codingType) :
    visibleText coders (page.textUserData msgRef) = d.read coders.iconv page.cell.encodeData := by
  rcases hcoding with hcoding | hcoding <;>
    simp [Page.textUserData, hpage, hcoding, covertEncodingType, visibleText, Decoded.read]

/-- The concatenation that a message has in its header. -/
theorem getConcatMsg_concat8Bit {m : CdmaSmsMessage} {msgRef totalSeg seqNum : UInt8}
    (h : m.smsUserData.header = [.concat8Bit msgRef totalSeg seqNum]) :
    m.getConcatMsg = some ⟨msgRef.toUInt16, seqNum.toUInt16, totalSeg.toUInt16, true⟩ := by
  rw [CdmaSmsMessage.getConcatMsg, h]
  rfl

theorem toUInt16_ofNat {n : Nat} (h : n ≤ 255) :
    (UInt16.ofNat n).toUInt8.toUInt16 = UInt16.ofNat n := by
  apply UInt16.toNat_inj.mp
  simp
  omega

/-- What is made of segments in a coding that is read back. -/
theorem survives_iff_reading (hd : decoded coders.iconv .cdma text force7BitCode [] = d)
    (hcoding : d.codingType = .dataCodingAscii7Bit ∨ d.codingType = .dataCodingUcs2)
    (hdest : IsDialable desAddr)
    (htext : ∀ page ∈ textPages isBoundary coders.iconv desAddr text force7BitCode deliveryCallback,
      IsText (page.textUserData (getSeqNum msgSeqNum)))
    (hsent : textPdus isBoundary coders.iconv desAddr text force7BitCode deliveryCallback msgSeqNum
      msgSubmitId = some pdus) :
    Survives coders coder text pdus ↔ d.reading isBoundary coders.iconv false = text := by
  obtain ⟨hfew, hpdus⟩ := length_textPages_le hsent
  have hdata : (textPages isBoundary coders.iconv desAddr text force7BitCode deliveryCallback).map
      (fun page => page.cell.encodeData) = d.segments isBoundary false := textPages_data hd
  have hmem : ∀ page ∈ textPages isBoundary coders.iconv desAddr text force7BitCode
      deliveryCallback, page.desAddr = desAddr ∧ page.codingType = d.codingType ∧
        page.cell.encodeData ∈ d.segments isBoundary false := fun page => of_mem_textPages hd
  have hconcat : 1 < (textPages isBoundary coders.iconv desAddr text force7BitCode
      deliveryCallback).length → _ := fun hseveral =>
    textPages_concatHeader hseveral (getSeqNum msgSeqNum)
  generalize textPages isBoundary coders.iconv desAddr text force7BitCode deliveryCallback = pages
    at htext hfew hpdus hdata hmem hconcat
  have hstep : ∀ page ∈ pages, ∀ pdu, page.textPdu (getSeqNum msgSeqNum) msgSubmitId = some pdu →
      ∃ m, CdmaSmsMessage.createMessage coders coder pdu = some m ∧
        m.visibleMessageBody = visibleText coders (page.textUserData (getSeqNum msgSeqNum)) ∧
        m.smsUserData.header = page.concatHeader (getSeqNum msgSeqNum) := by
    intro page hpage pdu hpdu
    have hnumber : IsDialable page.desAddr := by rwa [(hmem page hpage).1]
    exact createMessage_textPdu coders coder hnumber (getSeqNum_lt msgSeqNum) (htext page hpage) hpdu
  obtain ⟨messages, hmessages, hread⟩ := exists_mapM hpdus hstep
  have hbody : messages.flatMap CdmaSmsMessage.visibleMessageBody =
      d.reading isBoundary coders.iconv false := by
    have hbodies : messages.map CdmaSmsMessage.visibleMessageBody =
        pages.map (fun page => d.read coders.iconv page.cell.encodeData) :=
      map_eq_of_forall₂ hread fun page hpage m hm => by
        rw [hm.1, visibleText_textUserData coders hcoding (hmem page hpage).2.1]
    rw [Decoded.reading, ← hdata, List.flatMap_map, List.flatMap_def, hbodies, List.flatMap_def]
  have hlen : pdus.length = pages.length := ((mapM_eq_some_iff _ _ _).mp hpdus).length_eq.symm
  constructor
  · rintro ⟨messages', hmessages', htext', -⟩
    rw [hmessages] at hmessages'
    cases hmessages'
    rw [← hbody, htext']
  · intro hreading
    refine ⟨messages, hmessages, by rw [hbody, hreading], fun hseveral => ?_⟩
    rw [hlen] at hseveral ⊢
    refine ⟨(getSeqNum msgSeqNum).toUInt16, ?_⟩
    have hheaders : messages.map (fun m => m.smsUserData.header) =
        pages.map (fun page => page.concatHeader (getSeqNum msgSeqNum)) :=
      map_eq_of_forall₂ hread fun page _ m hm => hm.2
    rw [hconcat hseveral] at hheaders
    apply List.ext_getElem?
    intro i
    have hget := congrArg (fun headers => headers[i]?) hheaders
    simp only [List.getElem?_map] at hget ⊢
    by_cases hi : i < pages.length
    · rw [List.getElem?_range hi] at hget ⊢
      obtain ⟨m, hm, hheader⟩ := Option.map_eq_some_iff.mp hget
      rw [hm, Option.map_some, Option.map_some, getConcatMsg_concat8Bit hheader,
        toUInt16_ofNat (by omega), toUInt16_ofNat (by omega)]
    · have hnone : (List.range pages.length)[i]? = none := by simpa using hi
      rw [hnone, Option.map_none, Option.map_eq_none_iff] at hget
      rw [hnone, hget, Option.map_none, Option.map_none]

/-! ## Coded text -/

theorem mem_of_mem_segments (hc : d.Coded) (hascii : d.codingType = .dataCodingAscii7Bit)
    {encodeData : List UInt8} (h : encodeData ∈ d.segments isBoundary false) :
    ∀ c ∈ encodeData, c ∈ d.data := by
  intro c hcmem
  rw [← flatten_segments hc (atBoundaries_of_ne (by simp [hascii]) false)]
  exact List.mem_flatten.mpr ⟨encodeData, h, hcmem⟩

/-- A text of at most 15 segments was not cut off at the end of the array. -/
theorem length_data_lt (hc : d.Coded)
    (hcoding : d.codingType = .dataCodingAscii7Bit ∨ d.codingType = .dataCodingUcs2)
    (hfew : (d.segments isBoundary false).length ≤ 15) : d.data.length < maxDecodeLen := by
  unfold maxDecodeLen
  by_cases hne : d.data = []
  · rw [hne]
    decide
  rcases hcoding with hascii | hucs2
  · have h7Bit : is7Bit d.codingType := by simp [is7Bit, hascii]
    by_cases hone : d.data.length ≤ 160
    · omega
    · have hsegments : d.segments isBoundary false = _ := segments_7Bit h7Bit
        (by unfold maxGsm7BitDataLen; omega) hne
      rw [hsegments, length_splitFixed] at hfew
      have hle := le_ceilDiv_mul d.data.length (by decide : 0 < 153)
      have hmul := Nat.mul_le_mul_right 153 hfew
      omega
  · by_cases hone : d.data.length ≤ 140
    · omega
    · have hlang : d.langId = 0 := hc.octet_lang (by simp [isOctet, hucs2])
      have hsegments : d.segments isBoundary false = _ := segments_ucs2 hucs2
        (by unfold maxUcs2DataLen; omega) (by omega)
      have hflat := flatten_splitUnits isBoundary (by decide : 0 < 67) (ucs2Units d.data)
        (ucs2Units d.data).length 0
      have hpieces : ∀ piece ∈ splitUnits isBoundary 67 (ucs2Units d.data)
          (ucs2Units d.data).length 0, piece.length ≤ 67 := fun piece hpiece =>
        length_of_mem_splitUnits isBoundary (by decide) _ (by omega) hpiece
      rw [hsegments, List.length_map] at hfew
      generalize splitUnits isBoundary 67 (ucs2Units d.data) (ucs2Units d.data).length 0 = pieces
        at hfew hflat hpieces
      have hunits : (ucs2Units d.data).length ≤ pieces.length * 67 := by
        rw [← List.drop_zero (l := ucs2Units d.data), ← hflat, List.length_flatten]
        simpa using List.sum_le_card_nsmul (pieces.map List.length) 67 (by simpa using hpieces)
      have hmul := Nat.mul_le_mul_right 67 hfew
      rw [length_ucs2Units] at hunits
      omega

theorem even_of_mem_segments (hc : d.Coded) (hucs2 : d.codingType = .dataCodingUcs2)
    (hlt : d.data.length < maxDecodeLen) {encodeData : List UInt8}
    (h : encodeData ∈ d.segments isBoundary false) : encodeData.length % 2 = 0 := by
  by_cases hne : d.data = []
  · rw [segments_nil hne] at h
    cases h
  cases hat : d.atBoundaries false with
  | false =>
      rw [segments_of_not_atBoundaries hc hucs2 hne hat, List.mem_singleton] at h
      rw [h]
      exact hc.ucs2_pairs hucs2 hlt
  | true =>
      have hmany := (atBoundaries_iff hc hucs2 hne).mp hat
      rw [segments_ucs2 hucs2 hmany.1 hmany.2] at h
      obtain ⟨piece, -, rfl⟩ := List.mem_map.mp h
      rw [length_ucs2Octets]
      omega

theorem isText_ascii {page : Page} {msgRef : UInt8}
    (hascii : page.codingType = .dataCodingAscii7Bit)
    (hlow : ∀ c ∈ page.cell.encodeData, c.toNat < 128) : IsText (page.textUserData msgRef) :=
  .septets (by simp [Page.textUserData, hascii, covertEncodingType]) hlow

theorem isText_ucs2 {page : Page} {msgRef : UInt8} (hucs2 : page.codingType = .dataCodingUcs2)
    (heven : page.cell.encodeData.length % 2 = 0) : IsText (page.textUserData msgRef) := by
  refine .units (by simp [Page.textUserData, hucs2, covertEncodingType]) heven fun hheader => ?_
  have hconcat : page.concatHeader msgRef ≠ [] := hheader
  rw [concatHeader_cases] at hconcat
  rw [length_udh_textUserData]
  split_ifs at hconcat ⊢
  · rfl
  · contradiction

/-! ## Where the text survives -/

/-- Nothing is sent. -/
theorem survives_nil (hd : decoded coders.iconv .cdma text force7BitCode [] = d) (hnil : d.data = [])
    (hsent : textPdus isBoundary coders.iconv desAddr text force7BitCode deliveryCallback msgSeqNum
      msgSubmitId = some pdus) :
    Survives coders coder text pdus ↔ text = [] := by
  have hpages : (textPages isBoundary coders.iconv desAddr text force7BitCode
      deliveryCallback).length = 0 := by
    rw [length_textPages hd, segments_nil hnil, List.length_nil]
  have hpdus := (length_textPages_le hsent).2
  rw [List.eq_nil_of_length_eq_zero hpages] at hpdus
  cases hpdus
  constructor
  · rintro ⟨messages, hmessages, rfl, -⟩
    cases hmessages
    rfl
  · rintro rfl
    exact ⟨[], rfl, rfl, by simp⟩

theorem survives_ascii (hd : decoded coders.iconv .cdma text force7BitCode [] = d)
    (hascii : d.codingType = .dataCodingAscii7Bit) (hlow : ∀ c ∈ d.data, c.toNat < 128)
    (hdest : IsDialable desAddr)
    (hsent : textPdus isBoundary coders.iconv desAddr text force7BitCode deliveryCallback msgSeqNum
      msgSubmitId = some pdus) :
    Survives coders coder text pdus ↔ d.data = text := by
  have hc : d.Coded := by
    rw [← hd]
    exact decodeMessage_coded coders.iconv .cdma _ text
  rw [survives_iff_reading hd (.inl hascii) hdest ?_ hsent,
    reading_octets hc (by simp [hascii]) (by simp [hascii])]
  intro page hpage
  obtain ⟨-, hcoding, hmem⟩ := of_mem_textPages hd hpage
  exact isText_ascii (hcoding.trans hascii) fun c hcmem =>
    hlow c (mem_of_mem_segments hc hascii hmem c hcmem)

/-- Units are cut between characters. -/
theorem survives_ucs2 (hf : coders.iconv.Faithful) {units : List UInt16}
    (hutf8 : coders.iconv.utf8ToUtf16 text = some units) (hnil : units ≠ [])
    (hd : decoded coders.iconv .cdma text force7BitCode [] =
      ⟨.dataCodingUcs2, 0, (ucs2Octets units).take maxDecodeLen⟩)
    (hdest : IsDialable desAddr)
    (hsent : textPdus isBoundary coders.iconv desAddr text force7BitCode deliveryCallback msgSeqNum
      msgSubmitId = some pdus) :
    Survives coders coder text pdus ↔
      NoPairCut isBoundary ⟨.dataCodingUcs2, 0, (ucs2Octets units).take maxDecodeLen⟩ false := by
  have hc : Decoded.Coded ⟨.dataCodingUcs2, 0, (ucs2Octets units).take maxDecodeLen⟩ := by
    rw [← hd]
    exact decodeMessage_coded coders.iconv .cdma _ text
  have hlen := (length_textPages hd).symm.trans_le (length_textPages_le hsent).1
  have hlt := length_data_lt hc (.inr rfl) hlen
  rw [survives_iff_reading hd (.inr rfl) hdest ?_ hsent]
  · have hpos := List.length_pos_iff.mpr hnil
    have hne : (ucs2Octets units).take maxDecodeLen ≠ [] := by
      apply List.ne_nil_of_length_pos
      rw [List.length_take, length_ucs2Octets]
      unfold maxDecodeLen
      omega
    obtain ⟨pieces, hflat, hread, hcuts⟩ := @reading_ucs2 isBoundary coders.iconv false _ hc rfl hne
    have hall : pieces.flatten = units := by
      rw [List.length_take, length_ucs2Octets] at hlt
      rw [hflat, ucs2Units_take, List.take_of_length_le (by omega)]
    rw [hread, ← hcuts, ← hf.back hutf8]
    constructor
    · intro heq
      exact (whole_of_flatMap_eq hf (by rw [hall, List.append_nil]) (hf.wellFormed hutf8) heq).1
    · intro hwhole
      rw [flatMap_of_cutsWhole hf hwhole, hall]
  · intro page hpage
    obtain ⟨-, hcoding, hmem⟩ := of_mem_textPages hd hpage
    exact isText_ucs2 hcoding (even_of_mem_segments hc rfl hlt hmem)

theorem decoded_forced (iconv : Iconv) (hnil : text ≠ []) :
    decoded iconv .cdma text true [] =
      if text.length > maxDecodeLen then ⟨.dataCoding7Bit, 0, []⟩
      else ⟨.dataCodingAscii7Bit, 0, text⟩ := by
  have hrequested : requestedScheme true [] = .dataCoding7Bit := by decide
  rw [decoded, hrequested, decodeMessage, if_neg hnil]

theorem decoded_auto (iconv : Iconv) (hnil : text ≠ []) :
    decoded iconv .cdma text false [] = cdmaUtf8ToAuto iconv text := by
  have hrequested : requestedScheme false [] = .dataCodingAuto := by decide
  rw [decoded, hrequested, decodeMessage, if_neg hnil] <;> simp

/-- What is shown of septets is below 128. -/
theorem lt_of_survives (hd : decoded coders.iconv .cdma text force7BitCode [] = d)
    (hascii : d.codingType = .dataCodingAscii7Bit) (hdest : IsDialable desAddr)
    (hsent : textPdus isBoundary coders.iconv desAddr text force7BitCode deliveryCallback msgSeqNum
      msgSubmitId = some pdus)
    (h : Survives coders coder text pdus) : ∀ c ∈ text, c.toNat < 128 := by
  obtain ⟨messages, hmessages, rfl, -⟩ := h
  have hlow : ∀ m ∈ messages, ∀ c ∈ m.visibleMessageBody, c.toNat < 128 :=
    forall_mapM (length_textPages_le hsent).2 hmessages fun page hpage pdu m hpdu hm => by
      obtain ⟨hdes, hcoding, -⟩ := of_mem_textPages hd hpage
      have hnumber : IsDialable page.desAddr := by rwa [hdes]
      exact lt_of_createMessage_textPdu coders coder hnumber (getSeqNum_lt msgSeqNum)
        (hcoding.trans hascii) hpdu hm
  intro c hc
  obtain ⟨m, hm, hcm⟩ := List.mem_flatMap.mp hc
  exact hlow m hm c hcm

theorem survives_forced (hnil : text ≠ []) (hdest : IsDialable desAddr)
    (hsent : textPdus isBoundary coders.iconv desAddr text true deliveryCallback msgSeqNum
      msgSubmitId = some pdus) :
    Survives coders coder text pdus ↔
      text.length ≤ maxDecodeLen ∧ ∀ c ∈ text, c.toNat < 128 := by
  have hd : decoded coders.iconv .cdma text true [] = _ := decoded_forced coders.iconv hnil
  split at hd
  · next hlong =>
      rw [survives_nil hd rfl hsent]
      simp [hnil, Nat.not_le.mpr hlong]
  · next hfits =>
      constructor
      · intro h
        exact ⟨Nat.not_lt.mp hfits, lt_of_survives hd rfl hdest hsent h⟩
      · intro h
        exact (survives_ascii hd rfl h.2 hdest hsent).mpr rfl

/-- What fits the array is the text. -/
theorem ascii_eq (hf : coders.iconv.Faithful) {units : List UInt16} {dest : List UInt8}
    (hutf8 : coders.iconv.utf8ToUtf16 text = some units)
    (hdest : ucs2ToAscii maxDecodeLen units = some dest) (hlt : dest.length < maxDecodeLen) :
    dest = text ∧ ∀ c ∈ text, c.toNat < 128 := by
  have hlen := length_ucs2ToAsciiLoop (by decide) hdest
  obtain ⟨k, hk, hlow, hall⟩ := ucs2ToAsciiLoop_eq (by decide) hdest
  rw [List.length_nil, Nat.zero_add] at hlen hall
  rw [List.take_of_length_le (hall (by omega))] at hk hlow
  have htext : text = units.map UInt16.toUInt8 := by rw [← hf.back hutf8, hf.ascii hlow]
  refine ⟨by rw [hk, htext, List.nil_append], ?_⟩
  rw [htext, List.forall_mem_map]
  intro c hc
  have hle := UInt16.le_iff_toNat_le.mp (hlow c hc)
  rw [UInt16.toNat_toUInt8]
  have hbound : (0x7F : UInt16).toNat = 127 := rfl
  omega

theorem survives_auto (hf : coders.iconv.Faithful) {units : List UInt16}
    (hutf8 : coders.iconv.utf8ToUtf16 text = some units) (hnil : text ≠ [])
    (hdest : IsDialable desAddr)
    (hsent : textPdus isBoundary coders.iconv desAddr text false deliveryCallback msgSeqNum
      msgSubmitId = some pdus) :
    Survives coders coder text pdus ↔ text.length < ucs2LenMax ∧
      NoPairCut isBoundary (decoded coders.iconv .cdma text false []) false := by
  have hd : decoded coders.iconv .cdma text false [] = _ := decoded_auto coders.iconv hnil
  unfold cdmaUtf8ToAuto at hd
  by_cases hlong : text.length ≥ ucs2LenMax
  · rw [if_pos hlong] at hd
    rw [survives_nil hd rfl hsent]
    simp [hnil, Nat.not_lt.mpr hlong]
  rw [if_neg hlong, hutf8] at hd
  rw [and_iff_right (Nat.not_le.mp hlong)]
  cases hascii : ucs2ToAscii maxDecodeLen units with
  | none =>
      simp only [hascii] at hd
      have hunits : units ≠ [] := by
        rintro rfl
        cases hascii
      rw [hd]
      exact survives_ucs2 hf hutf8 hunits hd hdest hsent
  | some dest =>
      simp only [hascii] at hd
      have hc : Decoded.Coded ⟨.dataCodingAscii7Bit, 0, dest⟩ := by
        rw [← hd]
        exact decodeMessage_coded coders.iconv .cdma _ text
      have hlen := (length_textPages hd).symm.trans_le (length_textPages_le hsent).1
      obtain ⟨rfl, hlow⟩ := ascii_eq hf hutf8 hascii (length_data_lt hc (.inl rfl) hlen)
      have hsurvives : Survives coders coder dest pdus :=
        (survives_ascii hd rfl hlow hdest hsent).mpr rfl
      refine iff_of_true hsurvives fun hat => ?_
      rw [hd, atBoundaries_of_ne (by simp)] at hat
      cases hat

/-- A text that is sent survives where it is deliverable, and only there. -/
theorem textDelivery_survives_iff (hf : coders.iconv.Faithful) {units : List UInt16}
    (hutf8 : coders.iconv.utf8ToUtf16 text = some units) (hdest : IsDialable desAddr)
    (hsent : textPdus isBoundary coders.iconv desAddr text force7BitCode deliveryCallback msgSeqNum
      msgSubmitId = some pdus) :
    Survives coders coder text pdus ↔
      Deliverable isBoundary coders.iconv text force7BitCode := by
  unfold Deliverable
  by_cases hnil : text = []
  · subst hnil
    refine iff_of_true ((survives_nil rfl decoded_nil hsent).mpr rfl) ?_
    split_ifs
    · simp
    · exact ⟨by decide, fun hat => by cases hat⟩
  · cases force7BitCode with
    | true => exact survives_forced hnil hdest hsent
    | false => exact survives_auto hf hutf8 hnil hdest hsent

end Pages

/-- The letter a to `1` survives. -/
theorem textDelivery_survives_letter :
    textPdus (fun _ _ => true) utf8Iconv [0x31] [0x61] false false 0 0 =
        some [[0, 0, 2, 16, 2, 4, 2, 0, 68, 6, 1, 4, 8, 13, 0, 3, 32, 0, 16, 1, 3, 16, 14, 16, 8, 1,
          0]] ∧
      Survives ⟨utf8Iconv, id, SmsUDPackage.data, SmsUDPackage.data⟩ ⟨id, id⟩ [0x61]
        [[0, 0, 2, 16, 2, 4, 2, 0, 68, 6, 1, 4, 8, 13, 0, 3, 32, 0, 16, 1, 3, 16, 14, 16, 8, 1,
          0]] := by
  have hdecoded : decoded utf8Iconv .cdma [0x61] false [] = ⟨.dataCodingAscii7Bit, 0, [0x61]⟩ := by
    simp only [decoded, decodeMessage, cdmaUtf8ToAuto, utf8ToUtf16_letter]
    decide +kernel
  have hsent : textPdus (fun _ _ => true) utf8Iconv [0x31] [0x61] false false 0 0 =
      some [[0, 0, 2, 16, 2, 4, 2, 0, 68, 6, 1, 4, 8, 13, 0, 3, 32, 0, 16, 1, 3, 16, 14, 16, 8, 1,
        0]] := by
    unfold textPdus textPages splitMessage
    rw [hdecoded]
    decide +kernel
  have hfaithful : (BodyCoders.mk utf8Iconv id SmsUDPackage.data SmsUDPackage.data).iconv.Faithful :=
    utf8Iconv_faithful
  have hdest : IsDialable [0x31] := fun _ => by decide +kernel
  refine ⟨hsent, (textDelivery_survives_iff hfaithful utf8ToUtf16_letter hdest hsent).mpr ?_⟩
  refine ⟨by decide, fun hat => ?_⟩
  rw [hdecoded] at hat
  exact absurd hat (by decide)

/-- U+00E9 in UTF-8 is C3 A9. When it is forced into seven bits behind the letter b, the high bit
of C3 makes a c of the letter, and the rest is shown as `C)`. -/
theorem not_survives_forced :
    utf8Iconv.utf8ToUtf16 [0x62, 0xC3, 0xA9] = some [0x62, 0xE9] ∧
      textPdus (fun _ _ => true) utf8Iconv [0x31] [0x62, 0xC3, 0xA9] true false 0 0 =
        some [[0, 0, 2, 16, 2, 4, 2, 0, 68, 6, 1, 4, 8, 15, 0, 3, 32, 0, 16, 1, 5, 16, 30, 56, 106,
          64, 8, 1, 0]] ∧
      ¬ Survives ⟨utf8Iconv, id, SmsUDPackage.data, SmsUDPackage.data⟩ ⟨id, id⟩ [0x62, 0xC3, 0xA9]
        [[0, 0, 2, 16, 2, 4, 2, 0, 68, 6, 1, 4, 8, 15, 0, 3, 32, 0, 16, 1, 5, 16, 30, 56, 106, 64, 8,
          1, 0]] := by
  refine ⟨utf8ToUtf16_encode ['b', 'é'], by decide +kernel, ?_⟩
  have hread : ([[0, 0, 2, 16, 2, 4, 2, 0, 68, 6, 1, 4, 8, 15, 0, 3, 32, 0, 16, 1, 5, 16, 30, 56,
      106, 64, 8, 1, 0]].mapM (CdmaSmsMessage.createMessage ⟨utf8Iconv, id, SmsUDPackage.data,
        SmsUDPackage.data⟩ ⟨id, id⟩)).map (List.flatMap CdmaSmsMessage.visibleMessageBody) =
      some [0x63, 0x43, 0x29] := by
    decide +kernel
  rintro ⟨messages, hmessages, htext, -⟩
  rw [hmessages, Option.map_some, htext] at hread
  exact absurd hread (by decide)

end TelephonySms.Send
