import TelephonySms.Pdu.UserDataLayout
import TelephonySms.Send.Build
import TelephonySms.Text.Cut

/-! # Segments in TPDUs

`SplitMessage` sizes the segments, and the senders attach the headers later. A TPDU
carries 140 octets of user data, the headers among them.
-/

namespace TelephonySms.Send

open TelephonySms.Pdu TelephonySms.Text

/-! ## User data of a submitted message -/

/-- The headers the encoder writes: none in 8-bit coding to `CT_SMSC`. -/
def writtenHeader (submit : SmsSubmit) : List SmsUDH :=
  if submit.dcs.codingScheme = .dataCoding8Bit ∧ ctSmsc = submit.destAddress.address then []
  else submit.userData.header

/-- The octets of the user data, `UDHL` and headers included. -/
def userDataOctets (submit : SmsSubmit) : Nat :=
  let udhl := ((writtenHeader submit).flatMap headerOctets).length
  if submit.dcs.codingScheme = .dataCoding7Bit then
    (7 * septetLength udhl submit.userData.data.length + 7) / 8
  else octetLength udhl submit.userData.data.length

/-- The user data are small enough for a TPDU, and the encoder writes all of them
behind `UDL`, wherever they start in its array. -/
structure FitsTpdu (submit : SmsSubmit) : Prop where
  octets : userDataOctets submit ≤ 140
  encoded : ∀ passed m, passed.length + m = 256 → 200 ≤ m →
    ∃ written rest,
      encodeUserDataPdu (SmsPduBuffer.cursor passed (List.replicate m 0)) submit.userData
        submit.dcs.codingScheme submit.destAddress.address =
          some (SmsPduBuffer.cursor (passed ++ written) rest) ∧
      written.length = 1 + userDataOctets submit

open SmsPduBuffer

theorem length_headOctets (header : List SmsUDH) (udl : UInt8) :
    (headOctets header udl).length = headLength header := by
  unfold headOctets headLength
  split <;> rfl

theorem septet_octets (udhl length : Nat) (h : 0 < udhl) :
    (7 * septetLength udhl length + 7) / 8 =
      udhl + 1 + (headFillBits udhl + 7 * length + 7) / 8 := by
  unfold septetLength headFillBits
  simp only [h, if_true]
  split <;> omega

theorem udhl_pos {header : List SmsUDH} (hplain : header.all SmsUDH.isPlain = true)
    (hne : header ≠ []) : 0 < (header.flatMap headerOctets).length := by
  cases header with
  | nil => exact absurd rfl hne
  | cons first rest =>
      rw [List.all_cons, Bool.and_eq_true] at hplain
      obtain ⟨⟨udhType, length, contents⟩, helement⟩ := Option.isSome_iff_exists.1 hplain.1
      rw [List.flatMap_cons, headerOctets_of_element helement]
      simp

theorem encodeGsmPdu_written {userData : SmsUDPackage} {passed : List UInt8} {m : Nat}
    (hplain : userData.header.all SmsUDH.isPlain = true) (hheaders : userData.header.length ≤ 2)
    (hdata : userData.data.length ≤ 160) (hsize : passed.length + m = 256) (hm : 200 ≤ m) :
    ∃ written rest, encodeGsmPdu (cursor passed (List.replicate m 0)) userData =
        some (cursor (passed ++ written) rest) ∧
      written.length = 1 + (7 * septetLength (userData.header.flatMap headerOctets).length
        userData.data.length + 7) / 8 := by
  have hudh := length_flatMap_headerOctets_le userData.header
  have hfill := headFillBits_lt (userData.header.flatMap headerOctets).length
  obtain ⟨rest, hhead, hlen, hblank⟩ := encodeGsmHeadPdu_cursor userData passed m (by omega)
  have hhl : headLength userData.header ≤ 2 := by
    unfold headLength
    split <;> omega
  obtain ⟨n, hn⟩ : ∃ n, rest.length =
      (headFillBits (userData.header.flatMap headerOctets).length +
        7 * userData.data.length + 7) / 8 + n := Nat.exists_eq_add_of_le (by omega)
  generalize hud : headOctets userData.header _ = head at hhead
  have hheadLength : head.length = headLength userData.header := by
    rw [← hud, length_headOctets]
  have hpack := pack7bitChar_cursor userData.data
    (passed ++ head ++ userData.header.flatMap headerOctets) (by omega) hdata hn
    (by simp only [List.length_append]; omega)
  rw [← hblank hplain] at hpack
  refine ⟨head ++ userData.header.flatMap headerOctets ++
    Septet.pack (headFillBits (userData.header.flatMap headerOctets).length) 0 userData.data,
    List.replicate n 0, ?_, ?_⟩
  · rw [encodeGsmPdu, hhead, Option.bind_eq_bind, Option.bind_some]
    dsimp only
    rw [hpack]
    simp only [List.append_assoc]
  · rw [List.length_append, List.length_append, hheadLength,
      Septet.length_pack userData.data 0 (by omega)]
    by_cases hnone : userData.header = []
    · simp only [hnone, headLength, List.flatMap_nil, List.length_nil]
      simp [septetLength, headFillBits]
    · have hpos := udhl_pos hplain hnone
      rw [septet_octets _ _ hpos, headLength, if_pos (List.length_pos_iff.2 hnone)]
      omega

theorem memcpy_body {passed rest data : List UInt8}
    (hroom : passed.length + data.length < 254) :
    (do
      let b ← (cursor passed rest).memcpy (255 - (cursor passed rest).index - 1) data
      some (b.moveForward data.length)) =
        some (cursor (passed ++ data) (rest.drop data.length)) := by
  have hcopy : (cursor passed rest).memcpy (255 - (cursor passed rest).index - 1) data =
      some (cursor passed (data ++ rest.drop data.length)) := by
    rw [memcpy, if_neg (by rw [cursor_index]; omega)]
    simp [cursor]
  rw [hcopy, Option.bind_eq_bind, Option.bind_some, moveForward_cursor _ _ _ (by simp)]
  simp

theorem encode8bitBodyPdu_eq {passed rest data : List UInt8} (hrest : data.length < rest.length)
    (hroom : passed.length + data.length < 254) :
    encode8bitBodyPdu (cursor passed rest) data =
      some (cursor (passed ++ data) (rest.drop data.length)) := by
  rw [encode8bitBodyPdu, if_neg (by rw [cursor_index]; omega),
    if_neg (by rw [cursor_index, cursor_getSize]; omega)]
  exact memcpy_body hroom

theorem encodeUcs2BodyPdu_eq {passed rest data : List UInt8} (hrest : data.length ≤ rest.length)
    (hroom : passed.length + data.length < 254) :
    encodeUcs2BodyPdu (cursor passed rest) data =
      some (cursor (passed ++ data) (rest.drop data.length)) := by
  rw [encodeUcs2BodyPdu, if_neg (by rw [cursor_index]; omega),
    if_neg (by rw [cursor_index, cursor_getSize]; omega)]
  exact memcpy_body hroom

/-- Octets behind headers, in the body of either octet coding. -/
theorem encodeOctetPdu_written {header : List SmsUDH} {data passed : List UInt8} {m : Nat}
    (hplain : header.all SmsUDH.isPlain = true) (hheaders : header.length ≤ 2)
    (hdata : data.length ≤ 140) (hsize : passed.length + m = 256) (hm : 200 ≤ m) :
    ∃ front rest, encodeOctetHeadPdu (cursor passed (List.replicate m 0)) header data.length =
        some (cursor (passed ++ front) rest) ∧
      encode8bitBodyPdu (cursor (passed ++ front) rest) data =
        some (cursor (passed ++ (front ++ data)) (rest.drop data.length)) ∧
      encodeUcs2BodyPdu (cursor (passed ++ front) rest) data =
        some (cursor (passed ++ (front ++ data)) (rest.drop data.length)) ∧
      (front ++ data).length = 1 + octetLength (header.flatMap headerOctets).length data.length := by
  have hudh := length_flatMap_headerOctets_le header
  obtain ⟨rest, hhead, hlen⟩ := encodeOctetHeadPdu_cursor header data.length passed m (by omega)
  have hhl : headLength header ≤ 2 := by
    unfold headLength
    split <;> omega
  rw [List.append_assoc] at hhead
  generalize hfront : headOctets header _ ++ header.flatMap headerOctets = front at hhead
  have hflen : front.length = headLength header + (header.flatMap headerOctets).length := by
    rw [← hfront, List.length_append, length_headOctets]
  refine ⟨front, rest, hhead, ?_, ?_, ?_⟩
  · rw [← List.append_assoc]
    exact encode8bitBodyPdu_eq (by omega) (by rw [List.length_append]; omega)
  · rw [← List.append_assoc]
    exact encodeUcs2BodyPdu_eq (by omega) (by rw [List.length_append]; omega)
  · rw [List.length_append, hflen]
    by_cases hnone : header = []
    · simp [hnone, headLength, octetLength]
    · have hpos := udhl_pos hplain hnone
      rw [octetLength, if_pos hpos, headLength, if_pos (List.length_pos_iff.2 hnone)]
      omega

theorem le_octetLength (udhl length : Nat) : length ≤ octetLength udhl length := by
  unfold octetLength
  split <;> omega

/-- User data that are small enough are written whole. -/
theorem fitsTpdu_of_octets {submit : SmsSubmit} (hoctets : userDataOctets submit ≤ 140)
    (hscheme : submit.dcs.codingScheme = .dataCoding7Bit ∨
      submit.dcs.codingScheme = .dataCoding8Bit ∨ submit.dcs.codingScheme = .dataCodingUcs2)
    (hplain : submit.userData.header.all SmsUDH.isPlain = true)
    (hheaders : submit.userData.header.length ≤ 2) : FitsTpdu submit := by
  refine ⟨hoctets, fun passed m hsize hm => ?_⟩
  obtain h7Bit | h8Bit | hucs2 := hscheme
  · have hwritten : writtenHeader submit = submit.userData.header := by
      rw [writtenHeader, if_neg (by simp [h7Bit])]
    simp only [userDataOctets, h7Bit, if_true, hwritten] at hoctets ⊢
    have hle := le_septetLength (submit.userData.header.flatMap headerOctets).length
      submit.userData.data.length
    exact encodeGsmPdu_written hplain hheaders (by omega) hsize hm
  · have hnot : submit.dcs.codingScheme ≠ .dataCoding7Bit := by simp [h8Bit]
    have hwritten : writtenHeader submit =
        if ctSmsc = submit.destAddress.address then [] else submit.userData.header := by
      simp [writtenHeader, h8Bit]
    rw [userDataOctets, if_neg hnot] at hoctets ⊢
    have hdata : submit.userData.data.length ≤ 140 := (le_octetLength _ _).trans hoctets
    have hfew : (writtenHeader submit).length ≤ 2 ∧
        (writtenHeader submit).all SmsUDH.isPlain = true := by
      rw [hwritten]
      split
      · exact ⟨by simp, rfl⟩
      · exact ⟨hheaders, hplain⟩
    obtain ⟨front, rest, hhead, hbody, -, hlen⟩ :=
      encodeOctetPdu_written hfew.2 hfew.1 hdata hsize hm
    refine ⟨front ++ submit.userData.data, rest.drop submit.userData.data.length, ?_, hlen⟩
    rw [h8Bit]
    simp only [encodeUserDataPdu, encode8bitPdu, encode8bitHeadPdu]
    rw [← hwritten, hhead]
    exact hbody
  · have hnot : submit.dcs.codingScheme ≠ .dataCoding7Bit := by simp [hucs2]
    have hwritten : writtenHeader submit = submit.userData.header := by
      rw [writtenHeader, if_neg (by simp [hucs2])]
    rw [userDataOctets, if_neg hnot, hwritten] at hoctets ⊢
    have hdata : submit.userData.data.length ≤ 140 := (le_octetLength _ _).trans hoctets
    obtain ⟨front, rest, hhead, -, hbody, hlen⟩ :=
      encodeOctetPdu_written hplain hheaders hdata hsize hm
    refine ⟨front ++ submit.userData.data, rest.drop submit.userData.data.length, ?_, hlen⟩
    rw [hucs2]
    simp only [encodeUserDataPdu, encodeUcs2Pdu, encodeUcs2HeadPdu]
    rw [hhead]
    exact hbody

/-! ## The room headers leave -/

/-- The characters of a cell that fit a TPDU with the headers the sender attaches. -/
def room (bPortNum : Bool) (codingType : DataCodingScheme) (langId : UInt8)
    (toSmsc several : Bool) : Nat :=
  if codingType = .dataCoding7Bit then
    if bPortNum then if several then 146 else 152
    else if langId ≠ 0 then if several then 149 else 155
    else if several then 153 else 160
  else if codingType = .dataCoding8Bit ∧ toSmsc then 140
  else if bPortNum then if several then 128 else 133
  else if several then 134 else 140

/-- The message a sender makes of a cell: a data page when a port is set, else a text. -/
def Page.submit (page : Page) (bPortNum : Bool) (msgRef : UInt8) : SmsSubmit :=
  if bPortNum then page.dataSubmit msgRef else page.textSubmit msgRef

/-- The header is left out for the service centre of 8-bit data. -/
def Page.toSmsc (page : Page) : Bool := ctSmsc = (setSmsTpduDestAddress page.desAddr).address

theorem length_concatHeader (page : Page) (msgRef : UInt8) :
    ((page.concatHeader msgRef).flatMap headerOctets).length = if page.count > 1 then 5 else 0 := by
  unfold Page.concatHeader
  split <;> rfl

theorem length_langHeader (codingType : DataCodingScheme) (langId : UInt8) :
    ((setHeaderLang codingType langId).flatMap headerOctets).length =
      if codingType = .dataCoding7Bit ∧ langId ≠ 0 then 3 else 0 := by
  unfold setHeaderLang
  split <;> rfl

theorem length_textHeader (page : Page) (msgRef : UInt8) :
    ((page.textHeader msgRef).flatMap headerOctets).length =
      (if page.count > 1 then 5 else 0) +
        (if page.codingType = .dataCoding7Bit ∧ page.cell.langId ≠ 0 then 3 else 0) := by
  rw [Page.textHeader, List.flatMap_append, List.length_append, length_concatHeader,
    length_langHeader]

theorem length_dataHeader (page : Page) (msgRef : UInt8) :
    ((page.dataHeader msgRef).flatMap headerOctets).length =
      (if page.count > 1 then 5 else 0) + 6 := by
  rw [Page.dataHeader, List.flatMap_append, List.length_append, length_concatHeader]
  rfl

theorem submit_codingScheme (page : Page) (bPortNum : Bool) (msgRef : UInt8) :
    (page.submit bPortNum msgRef).dcs.codingScheme = page.codingType := by
  cases bPortNum <;> rfl

theorem submit_data (page : Page) (bPortNum : Bool) (msgRef : UInt8) :
    (page.submit bPortNum msgRef).userData.data = page.cell.encodeData := by
  cases bPortNum <;> rfl

theorem submit_address (page : Page) (bPortNum : Bool) (msgRef : UInt8) :
    (page.submit bPortNum msgRef).destAddress = setSmsTpduDestAddress page.desAddr := by
  cases bPortNum <;> rfl

theorem submit_header_plain (page : Page) (bPortNum : Bool) (msgRef : UInt8) :
    (page.submit bPortNum msgRef).userData.header.all SmsUDH.isPlain = true ∧
      (page.submit bPortNum msgRef).userData.header.length ≤ 2 := by
  have hconcat : (page.concatHeader msgRef).all SmsUDH.isPlain = true ∧
      (page.concatHeader msgRef).length ≤ 1 := by
    unfold Page.concatHeader
    split <;> simp [setHeaderConcat, Page.smsConcat, SmsUDH.isPlain, SmsUDH.element]
  have hlang : (setHeaderLang page.codingType page.cell.langId).all SmsUDH.isPlain = true ∧
      (setHeaderLang page.codingType page.cell.langId).length ≤ 1 := by
    unfold setHeaderLang
    split <;> simp [SmsUDH.isPlain, SmsUDH.element]
  cases bPortNum with
  | false =>
      change (page.textHeader msgRef).all _ = true ∧ (page.textHeader msgRef).length ≤ 2
      rw [Page.textHeader, List.all_append, List.length_append, hconcat.1, hlang.1]
      exact ⟨rfl, by omega⟩
  | true =>
      change (page.dataHeader msgRef).all _ = true ∧ (page.dataHeader msgRef).length ≤ 2
      rw [Page.dataHeader, List.all_append, List.length_append, hconcat.1]
      exact ⟨rfl, by simp; omega⟩

/-- The octets of the headers the encoder writes. -/
theorem length_writtenHeader (page : Page) (bPortNum : Bool) (msgRef : UInt8) :
    ((writtenHeader (page.submit bPortNum msgRef)).flatMap headerOctets).length =
      if page.codingType = .dataCoding8Bit ∧ page.toSmsc then 0
      else (if page.count > 1 then 5 else 0) +
        if bPortNum then 6
        else if page.codingType = .dataCoding7Bit ∧ page.cell.langId ≠ 0 then 3 else 0 := by
  simp only [writtenHeader, submit_codingScheme, submit_address, Page.toSmsc, decide_eq_true_eq]
  split
  · rfl
  · cases bPortNum with
    | false => exact length_textHeader page msgRef
    | true => exact length_dataHeader page msgRef

theorem octets_le_iff (page : Page) (bPortNum : Bool) (msgRef : UInt8) :
    userDataOctets (page.submit bPortNum msgRef) ≤ 140 ↔
      page.cell.encodeData.length ≤
        room bPortNum page.codingType page.cell.langId page.toSmsc (page.count > 1) := by
  simp only [userDataOctets, length_writtenHeader, submit_codingScheme, submit_data, room,
    decide_eq_true_eq]
  by_cases h7Bit : page.codingType = .dataCoding7Bit
  · cases bPortNum <;> by_cases hseveral : page.count > 1 <;>
      by_cases hlang : page.cell.langId = 0 <;>
      simp [h7Bit, hseveral, hlang, septetLength, headFillBits] <;> omega
  · by_cases hsmsc : page.codingType = .dataCoding8Bit ∧ page.toSmsc
    · simp only [hsmsc, octetLength, and_self, if_true, if_false, Nat.lt_irrefl]
      rfl
    · cases bPortNum <;> by_cases hseveral : page.count > 1 <;>
        simp [h7Bit, hsmsc, hseveral, octetLength] <;> omega

/-! ## Which segments leave the room -/

section Segments

variable (isBoundary : List UInt16 → Nat → Bool)

/-- Every cut is at most 64 units behind the one before, and at most 64 units stand
behind the last. -/
def ShortCuts (fullData : List UInt16) (index : Nat) : Prop :=
  ∀ k, fullData.length - cuts isBoundary 67 fullData index k ≤ 64 ∨
    67 < fullData.length - cuts isBoundary 67 fullData index k ∧
      cuts isBoundary 67 fullData index (k + 1) ≤ cuts isBoundary 67 fullData index k + 64

/-- The coded data whose segments leave room for the headers attached later. -/
structure RoomForHeaders (d : Decoded) (bPortNum toSmsc : Bool) : Prop where
  text7Bit : bPortNum = false → d.codingType = .dataCoding7Bit → d.langId ≠ 0 →
    d.data.length ≤ 155
  data7Bit : bPortNum = true → d.codingType = .dataCoding7Bit → d.data.length ≤ 152
  data8Bit : bPortNum = true → d.codingType = .dataCoding8Bit →
    toSmsc = true ∨ d.data.length ≤ 133
  dataUcs2 : bPortNum = true → d.codingType = .dataCodingUcs2 →
    d.data.length ≤ 133 ∨ 134 < d.data.length ∧ ShortCuts isBoundary (ucs2Units d.data) 0

/-- Every segment is at most what fits. -/
def SegmentsFit (d : Decoded) (bPortNum toSmsc : Bool) : Prop :=
  ∀ encodeData ∈ d.segments isBoundary bPortNum,
    encodeData.length ≤ room bPortNum d.codingType d.langId toSmsc
      (decide ((d.segments isBoundary bPortNum).length > 1))

theorem shortCuts_step (fullData : List UInt16) {index : Nat}
    (hmore : 67 < fullData.length - index) :
    ShortCuts isBoundary fullData index ↔
      findNextUnicodePosition isBoundary index 67 fullData ≤ index + 64 ∧
        ShortCuts isBoundary fullData (findNextUnicodePosition isBoundary index 67 fullData) := by
  constructor
  · intro h
    refine ⟨?_, fun k => h (k + 1)⟩
    obtain hlast | ⟨-, hcut⟩ := h 0
    · change fullData.length - index ≤ 64 at hlast
      omega
    · exact hcut
  · rintro ⟨hcut, h⟩ k
    cases k with
    | zero => exact .inr ⟨hmore, hcut⟩
    | succ k => exact h k

theorem shortCuts_last (fullData : List UInt16) {index : Nat}
    (hlast : fullData.length - index ≤ 67) :
    ShortCuts isBoundary fullData index ↔ fullData.length - index ≤ 64 := by
  constructor
  · intro h
    obtain hle | ⟨hmore, -⟩ := h 0
    · exact hle
    · change 67 < fullData.length - index at hmore
      omega
  · intro h k
    have hle := cuts_mono isBoundary (by decide : 0 < 67) fullData index (Nat.zero_le k)
    rw [cuts_zero] at hle
    exact .inl (by omega)

theorem splitUnits_short_iff (fullData : List UInt16) {fuel index : Nat}
    (hfuel : fullData.length - index ≤ fuel) :
    (∀ piece ∈ splitUnits isBoundary 67 fullData fuel index, piece.length ≤ 64) ↔
      ShortCuts isBoundary fullData index := by
  induction fuel generalizing index with
  | zero =>
      rw [shortCuts_last isBoundary fullData (by omega), splitUnits]
      simp
  | succ fuel ih =>
      have hlt := lt_findNextUnicodePosition isBoundary index (by decide : 0 < 67) fullData
      have hle := findNextUnicodePosition_le isBoundary index 67 fullData
      rw [splitUnits]
      split
      · rename_i hmore
        rw [shortCuts_step isBoundary fullData hmore, ← ih (by omega), List.forall_mem_cons,
          List.length_take, List.length_drop]
        constructor
        · rintro ⟨hfirst, hrest⟩
          exact ⟨by omega, hrest⟩
        · rintro ⟨hfirst, hrest⟩
          exact ⟨by omega, hrest⟩
      · rename_i hlast
        rw [shortCuts_last isBoundary fullData (by omega)]
        simp

variable {d : Decoded} {bPortNum toSmsc : Bool}

theorem segmentsFit_single (h : d.segments isBoundary bPortNum = [d.data]) :
    SegmentsFit isBoundary d bPortNum toSmsc ↔
      d.data.length ≤ room bPortNum d.codingType d.langId toSmsc false := by
  simp [SegmentsFit, h]

theorem take_mem_splitFixed (data : List UInt8) {segSize segCount : Nat} (h : 1 < segCount) :
    data.take segSize ∈ splitFixed data segSize segCount := by
  obtain ⟨k, rfl⟩ : ∃ k, segCount = k + 1 := ⟨segCount - 1, by omega⟩
  rw [splitFixed_succ]
  refine List.mem_append_left _ (List.mem_map.2 ⟨0, List.mem_range.2 (by omega), ?_⟩)
  rw [Nat.zero_mul, List.drop_zero]

theorem segmentsFit_fixed {segSize : Nat} (hs : 0 < segSize) (hlt : segSize < d.data.length)
    (h : d.segments isBoundary bPortNum =
      splitFixed d.data segSize (ceilDiv d.data.length segSize)) :
    SegmentsFit isBoundary d bPortNum toSmsc ↔
      segSize ≤ room bPortNum d.codingType d.langId toSmsc true := by
  have hmany : 1 < ceilDiv d.data.length segSize := one_lt_ceilDiv hs hlt
  have hseveral : decide ((d.segments isBoundary bPortNum).length > 1) = true := by
    rw [h, length_splitFixed]
    exact decide_eq_true hmany
  rw [SegmentsFit, hseveral, h]
  constructor
  · intro hall
    have hfirst := hall _ (take_mem_splitFixed d.data hmany)
    rwa [List.length_take, Nat.min_eq_left hlt.le] at hfirst
  · intro hroom encodeData hmem
    exact (length_of_mem_splitFixed hs hmem).trans hroom

/-- Septets may be one segment although the header is counted as too large. -/
theorem segments_7Bit_one {isBoundary : List UInt16 → Nat → Bool} (hc : d.Coded)
    (hne : d.data ≠ []) (h7Bit : is7Bit d.codingType)
    (h : d.data.length + headerSize bPortNum d.langId ≤ 160 ∨ d.data.length ≤ 153) :
    d.segments isBoundary bPortNum = [d.data] := by
  by_cases hone : d.data.length + headerSize bPortNum d.langId ≤ 160
  · exact segments_single hc hne (by rwa [singleSize, if_pos h7Bit])
  · have hpos := List.length_pos_iff.2 hne
    rw [segments_7Bit h7Bit (Nat.lt_of_not_le hone) hne, ceilDiv_eq_one hpos (by omega),
      splitFixed_one]

theorem segmentsFit_7Bit_iff (hc : d.Coded) (hne : d.data ≠ [])
    (h7Bit : d.codingType = .dataCoding7Bit) :
    SegmentsFit isBoundary d bPortNum toSmsc ↔ RoomForHeaders isBoundary d bPortNum toSmsc := by
  have his : is7Bit d.codingType := by rw [h7Bit]; rfl
  have hroom : ∀ several, room bPortNum d.codingType d.langId toSmsc several =
      if bPortNum then if several then 146 else 152
      else if d.langId ≠ 0 then if several then 149 else 155
      else if several then 153 else 160 := by
    intro several
    rw [room, if_pos h7Bit]
  have hcond : RoomForHeaders isBoundary d bPortNum toSmsc ↔
      (bPortNum = false → d.langId ≠ 0 → d.data.length ≤ 155) ∧
        (bPortNum = true → d.data.length ≤ 152) := by
    constructor
    · rintro ⟨htext, hdata, -, -⟩
      exact ⟨fun hb => htext hb h7Bit, fun hb => hdata hb h7Bit⟩
    · rintro ⟨htext, hdata⟩
      exact ⟨fun hb _ => htext hb, fun hb _ => hdata hb, by simp [h7Bit], by simp [h7Bit]⟩
  rw [hcond]
  by_cases hone : d.data.length + headerSize bPortNum d.langId ≤ 160 ∨ d.data.length ≤ 153
  · rw [segmentsFit_single isBoundary (segments_7Bit_one hc hne his hone), hroom]
    cases bPortNum <;> by_cases hlang : d.langId = 0 <;> simp [hlang, headerSize] at hone ⊢
    omega
  · rw [not_or, Nat.not_le, Nat.not_le] at hone
    rw [segmentsFit_fixed isBoundary (by decide) hone.2 (segments_7Bit his hone.1 hne), hroom]
    cases bPortNum <;> by_cases hlang : d.langId = 0 <;> simp [hlang, headerSize] at hone ⊢ <;>
      omega

theorem segmentsFit_8Bit_iff (hc : d.Coded) (hne : d.data ≠ [])
    (h8Bit : d.codingType = .dataCoding8Bit) :
    SegmentsFit isBoundary d bPortNum toSmsc ↔ RoomForHeaders isBoundary d bPortNum toSmsc := by
  have hlang := hc.octet_lang (by rw [h8Bit]; rfl)
  have hsingle : singleSize d.codingType = 140 := by rw [h8Bit]; rfl
  have hroom : ∀ several, room bPortNum d.codingType d.langId toSmsc several =
      if toSmsc then 140 else if bPortNum then if several then 128 else 133
      else if several then 134 else 140 := by
    intro several
    rw [room, if_neg (by simp [h8Bit])]
    simp [h8Bit]
  have hcond : RoomForHeaders isBoundary d bPortNum toSmsc ↔
      (bPortNum = true → toSmsc = true ∨ d.data.length ≤ 133) := by
    constructor
    · rintro ⟨-, -, hdata, -⟩
      exact fun hb => hdata hb h8Bit
    · intro hdata
      exact ⟨by simp [h8Bit], by simp [h8Bit], fun hb _ => hdata hb, by simp [h8Bit]⟩
  rw [hcond]
  by_cases hone : d.data.length + headerSize bPortNum d.langId ≤ 140
  · rw [segmentsFit_single isBoundary (segments_single hc hne (by rwa [hsingle])), hroom]
    cases bPortNum <;> cases toSmsc <;> simp [hlang, headerSize] at hone ⊢ <;> omega
  · have hmany : 134 < d.data.length := by
      cases bPortNum <;> simp [hlang, headerSize] at hone <;> omega
    rw [Nat.not_le] at hone
    rw [segmentsFit_fixed isBoundary (by decide) hmany (segments_8Bit h8Bit hone hne), hroom]
    cases bPortNum <;> cases toSmsc <;> simp
    omega

theorem segmentsFit_ucs2_iff (hc : d.Coded) (hne : d.data ≠ [])
    (hucs2 : d.codingType = .dataCodingUcs2) :
    SegmentsFit isBoundary d bPortNum toSmsc ↔ RoomForHeaders isBoundary d bPortNum toSmsc := by
  have hlang := hc.octet_lang (by rw [hucs2]; rfl)
  have hsingle : singleSize d.codingType = 140 := by rw [hucs2]; rfl
  have hroom : ∀ several, room bPortNum d.codingType d.langId toSmsc several =
      if bPortNum then if several then 128 else 133 else if several then 134 else 140 := by
    intro several
    rw [room, if_neg (by simp [hucs2]), if_neg (by simp [hucs2])]
  have hcond : RoomForHeaders isBoundary d bPortNum toSmsc ↔
      (bPortNum = true → d.data.length ≤ 133 ∨
        134 < d.data.length ∧ ShortCuts isBoundary (ucs2Units d.data) 0) := by
    constructor
    · rintro ⟨-, -, -, hdata⟩
      exact fun hb => hdata hb hucs2
    · intro hdata
      exact ⟨by simp [hucs2], by simp [hucs2], by simp [hucs2], fun hb _ => hdata hb⟩
  rw [hcond]
  by_cases hone : d.data.length + headerSize bPortNum d.langId ≤ 140
  · rw [segmentsFit_single isBoundary (segments_single hc hne (by rwa [hsingle])), hroom]
    cases bPortNum <;> simp [hlang, headerSize] at hone ⊢ <;> omega
  · have hmany : 135 < d.data.length := by
      have hpairs := hc.ucs2_pairs hucs2
      simp only [maxDecodeLen] at hpairs
      cases bPortNum <;> simp [hlang, headerSize] at hone <;> omega
    have hunits := length_ucs2Units d.data
    have hseg : d.segments isBoundary bPortNum = _ :=
      segments_ucs2 hucs2 (Nat.lt_of_not_le hone) (by omega)
    have hseveral : decide ((d.segments isBoundary bPortNum).length > 1) = true := by
      rw [hseg, List.length_map]
      exact decide_eq_true (one_lt_length_splitUnits isBoundary (by decide) (by omega))
    rw [SegmentsFit, hseveral, hseg, hroom, List.forall_mem_map]
    simp only [length_ucs2Octets]
    cases bPortNum with
    | false =>
        refine iff_of_true (fun piece hmem => ?_) (by simp)
        have hle := length_of_mem_splitUnits isBoundary (by decide) (ucs2Units d.data)
          (by omega) hmem
        simp only [if_true, Bool.false_eq_true, if_false]
        omega
    | true =>
        have hshort := splitUnits_short_iff isBoundary (ucs2Units d.data)
          (by omega : (ucs2Units d.data).length - 0 ≤ (ucs2Units d.data).length)
        rw [← hshort]
        constructor
        · intro h _
          refine .inr ⟨by omega, fun piece hmem => ?_⟩
          have hle := h piece hmem
          simp only [if_true] at hle
          omega
        · intro h piece hmem
          obtain hfew | ⟨-, hpieces⟩ := h rfl
          · omega
          · have hle := hpieces piece hmem
            simp only [if_true]
            omega

theorem segmentsFit_iff (hc : d.Coded) (hgsm : d.codingType ≠ .dataCodingAscii7Bit) :
    SegmentsFit isBoundary d bPortNum toSmsc ↔ RoomForHeaders isBoundary d bPortNum toSmsc := by
  by_cases hne : d.data = []
  · refine iff_of_true ?_ ?_
    · intro encodeData hmem
      rw [segments_nil hne] at hmem
      simp at hmem
    · constructor <;> simp [hne]
  · obtain h7Bit | hoctet := hc.scheme hne
    · have h7Bit : d.codingType = .dataCoding7Bit := by
        simpa [is7Bit, hgsm] using h7Bit
      exact segmentsFit_7Bit_iff isBoundary hc hne h7Bit
    · simp only [isOctet, Bool.or_eq_true, decide_eq_true_eq] at hoctet
      obtain h8Bit | hucs2 := hoctet
      · exact segmentsFit_8Bit_iff isBoundary hc hne h8Bit
      · exact segmentsFit_ucs2_iff isBoundary hc hne hucs2

end Segments

/-! ## Segments as they are sent -/

/-- The cells of a text, or of data when a port is set, as the senders build them. A
text is split without its address. -/
def splitPages (isBoundary : List UInt16 → Nat → Bool) (iconv : Iconv)
    (national : SmsCodingNationalType) (text : List UInt8) (force7BitCode bPortNum : Bool)
    (desAddr : List UInt8) (port : UInt16) (deliveryCallback : Bool) : List Page :=
  let (codingType, cells) := splitMessage isBoundary iconv (.gsm national) text force7BitCode
    bPortNum (if bPortNum then desAddr else [])
  cells.mapIdx fun i cell =>
    { desAddr := desAddr
      cell := cell
      codingType := codingType
      count := cells.length
      index := i
      port := port
      deliveryCallback := deliveryCallback }

theorem gsmUtf8ToAuto_ne_ascii (iconv : Iconv) (national : SmsCodingNationalType)
    (src : List UInt8) :
    (gsmUtf8ToAuto iconv national src).codingType ≠ .dataCodingAscii7Bit := by
  unfold gsmUtf8ToAuto
  split
  · simp
  · split
    · simp
    · split <;> simp

theorem decoded_ne_ascii (iconv : Iconv) (national : SmsCodingNationalType)
    (text : List UInt8) (force7BitCode : Bool) (desAddr : List UInt8) :
    (decoded iconv (.gsm national) text force7BitCode desAddr).codingType ≠
      .dataCodingAscii7Bit := by
  have hauto := gsmUtf8ToAuto_ne_ascii iconv national text
  unfold decoded
  obtain hscheme | hscheme | hscheme := requestedScheme_cases force7BitCode desAddr <;>
    rw [hscheme] <;> unfold decodeMessage <;> split
  · simp
  · simp
  · simp
  · simp
  · simp
  · exact hauto

/-- Every segment fits a TPDU with its headers exactly when the coded data leave room
for them. -/
theorem splitPages_fit_iff (isBoundary : List UInt16 → Nat → Bool) (iconv : Iconv)
    (national : SmsCodingNationalType) (text : List UInt8) (force7BitCode bPortNum : Bool)
    (desAddr : List UInt8) (port : UInt16) (deliveryCallback : Bool) (msgRef : UInt8) :
    (∀ page ∈ splitPages isBoundary iconv national text force7BitCode bPortNum desAddr port
        deliveryCallback, FitsTpdu (page.submit bPortNum msgRef)) ↔
      RoomForHeaders isBoundary
        (decoded iconv (.gsm national) text force7BitCode (if bPortNum then desAddr else []))
        bPortNum (ctSmsc = (setSmsTpduDestAddress desAddr).address) := by
  have hc : (decoded iconv (.gsm national) text force7BitCode
      (if bPortNum then desAddr else [])).Coded := decodeMessage_coded _ _ _ _
  have hascii := decoded_ne_ascii iconv national text force7BitCode
    (if bPortNum then desAddr else [])
  simp only [splitPages, splitMessage]
  generalize decoded iconv (.gsm national) text force7BitCode
    (if bPortNum then desAddr else []) = d at hc hascii ⊢
  rw [← segmentsFit_iff isBoundary hc hascii]
  simp only [segment_langId hc, List.length_map]
  constructor
  · intro hpages encodeData hmem
    obtain ⟨i, hi, rfl⟩ := List.getElem_of_mem hmem
    have hfits := hpages _ (List.mem_mapIdx.2 ⟨i, by rwa [List.length_map], rfl⟩)
    have hle := (octets_le_iff _ _ _).1 hfits.octets
    simpa [Page.toSmsc] using hle
  · intro hsegments page hmem
    obtain ⟨i, hi, rfl⟩ := List.mem_mapIdx.1 hmem
    rw [List.length_map] at hi
    have hne : d.data ≠ [] := by
      intro hnil
      rw [segments_nil hnil] at hi
      simp at hi
    have hscheme : d.codingType = .dataCoding7Bit ∨ d.codingType = .dataCoding8Bit ∨
        d.codingType = .dataCodingUcs2 := by
      simpa [is7Bit, isOctet, hascii] using hc.scheme hne
    have hle := hsegments _ (List.getElem_mem hi)
    obtain ⟨hplain, hfew⟩ := submit_header_plain _ bPortNum msgRef
    refine fitsTpdu_of_octets ((octets_le_iff _ _ _).2 ?_) ?_ hplain hfew
    · simpa [Page.toSmsc] using hle
    · rw [submit_codingScheme]
      exact hscheme

/-- With a port, 153 letters are one segment of 141 octets. -/
theorem splitPages_fit_port :
    ¬ ∀ page ∈ splitPages (fun _ _ => true) asciiIconv .default (List.replicate 153 0x61) false
      true [0x31] 1 false, FitsTpdu (page.submit true 0) := by
  intro h
  have hoctets : ∀ page ∈ splitPages (fun _ _ => true) asciiIconv .default
      (List.replicate 153 0x61) false true [0x31] 1 false,
      userDataOctets (page.submit true 0) ≤ 140 := fun page hmem => (h page hmem).octets
  revert hoctets
  decide +kernel

end TelephonySms.Send
