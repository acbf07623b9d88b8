import TelephonySms.Pdu.Headers

/-! # User data as octets

Where the writers of user data put what: the length octets, the headers, and
behind them the octets or the packed septets.
-/

namespace TelephonySms.Pdu

open SmsPduBuffer

/-! ## Headers -/

theorem writeBytes_cursor_drop (passed rest vs : List UInt8) (h : vs.length ≤ rest.length) :
    (cursor passed rest).writeBytes vs = cursor (passed ++ vs) (rest.drop vs.length) := by
  have hwrite := writeBytes_cursor passed (rest.drop vs.length) vs (rest.take vs.length)
    (by simp [h])
  rwa [List.take_append_drop] at hwrite

theorem encodeHeader_of_isPlain (b : SmsPduBuffer) {header : SmsUDH}
    (h : header.isPlain = true) : encodeHeader b header = b.writeBytes (headerOctets header) := by
  cases header with
  | alternateReplyAddress _ => simp [SmsUDH.isPlain, SmsUDH.element] at h
  | specialSms _ _ _ => simp [SmsUDH.isPlain, SmsUDH.element] at h
  | other _ => simp [SmsUDH.isPlain, SmsUDH.element] at h
  | _ => rfl

theorem length_headerOctets_le_six (header : SmsUDH) : (headerOctets header).length ≤ 6 := by
  cases hplain : header.isPlain with
  | false =>
      have := length_headerOctets_of_not_isPlain hplain
      omega
  | true =>
      cases header <;> simp_all [SmsUDH.isPlain, SmsUDH.element, headerOctets]

theorem length_flatMap_headerOctets_le (headers : List SmsUDH) :
    (headers.flatMap headerOctets).length ≤ 6 * headers.length := by
  induction headers with
  | nil => simp
  | cons header headers ih =>
      have := length_headerOctets_le_six header
      simp only [List.flatMap_cons, List.length_append, List.length_cons]
      omega

theorem length_of_encodeAddressPdu {num : AddressNumber} {octets : List UInt8}
    (h : encodeAddressPdu num = some octets) : 2 ≤ octets.length ∧ octets.length ≤ 12 := by
  unfold encodeAddressPdu at h
  split at h
  · simp at h
  · obtain ⟨bcd, -, h⟩ := Option.bind_eq_some_iff.mp h
    split at h
    · simp at h
    · cases h
      simp
      omega

/-- The octets of a reply address are left behind the index. -/
theorem encodeHeaderReplyAddress_cursor (passed rest : List UInt8) (num : AddressNumber)
    (hroom : 14 ≤ rest.length) :
    ∃ rest', encodeHeaderReplyAddress (cursor passed rest) num =
        cursor (passed ++ headerOctets (.alternateReplyAddress num)) rest' ∧
      rest'.length + (headerOctets (.alternateReplyAddress num)).length = rest.length := by
  obtain ⟨v, w, rest, rfl⟩ : ∃ v w rest', rest = v :: w :: rest' := by
    match rest with
    | [] => simp at hroom
    | [_] => simp at hroom
    | v :: w :: rest' => exact ⟨v, w, rest', rfl⟩
  cases haddr : encodeAddressPdu num with
  | none =>
      refine ⟨w :: rest, ?_, ?_⟩
      · simp [encodeHeaderReplyAddress, haddr, headerOctets, SmsUDH.element]
      · simp [headerOctets, SmsUDH.element, haddr]
  | some octets =>
      obtain ⟨hpos, hle⟩ := length_of_encodeAddressPdu haddr
      simp only [List.length_cons] at hroom
      have hfit : ¬ rest.length < octets.length := by omega
      refine ⟨octets ++ rest.drop octets.length, ?_, ?_⟩
      · have hcopy := memcpy_cursor (passed ++ [0x22, UInt8.ofNat octets.length]) rest
          octets.length octets (by omega) (Nat.le_refl _)
        simp [encodeHeaderReplyAddress, haddr, headerOctets, SmsUDH.element, steps, copyHere, hfit,
          hcopy]
      · simp [headerOctets, SmsUDH.element, haddr]
        omega

theorem encodeHeader_cursor (passed rest : List UInt8) (header : SmsUDH)
    (hroom : 14 ≤ rest.length) :
    ∃ rest', encodeHeader (cursor passed rest) header =
        cursor (passed ++ headerOctets header) rest' ∧
      rest'.length + (headerOctets header).length = rest.length ∧
      (header.isPlain = true → rest' = rest.drop (headerOctets header).length) := by
  cases hplain : header.isPlain with
  | true =>
      have hle := length_headerOctets_le_six header
      refine ⟨_, ?_, ?_, fun _ => rfl⟩
      · rw [encodeHeader_of_isPlain _ hplain, writeBytes_cursor_drop _ _ _ (by omega)]
      · simp
        omega
  | false =>
      cases header with
      | alternateReplyAddress num =>
          obtain ⟨rest', hencode, hlen⟩ := encodeHeaderReplyAddress_cursor passed rest num hroom
          exact ⟨rest', hencode, hlen, by simp⟩
      | specialSms _ _ _ =>
          exact ⟨rest, by simp [encodeHeader, headerOctets, SmsUDH.element],
            by simp [headerOctets, SmsUDH.element], by simp⟩
      | other _ =>
          exact ⟨rest, by simp [encodeHeader, headerOctets, SmsUDH.element],
            by simp [headerOctets, SmsUDH.element], by simp⟩
      | _ => simp [SmsUDH.isPlain, SmsUDH.element] at hplain

theorem foldl_encodeHeader_cursor (headers : List SmsUDH) (passed rest : List UInt8)
    (hroom : 6 * headers.length + 8 ≤ rest.length) :
    ∃ rest', headers.foldl encodeHeader (cursor passed rest) =
        cursor (passed ++ headers.flatMap headerOctets) rest' ∧
      rest'.length + (headers.flatMap headerOctets).length = rest.length ∧
      (headers.all SmsUDH.isPlain = true →
        rest' = rest.drop (headers.flatMap headerOctets).length) := by
  induction headers generalizing passed rest with
  | nil => exact ⟨rest, by simp, by simp, by simp⟩
  | cons header headers ih =>
      simp only [List.length_cons] at hroom
      have hle := length_headerOctets_le_six header
      obtain ⟨rest₁, hfirst, hlen₁, hplain₁⟩ :=
        encodeHeader_cursor passed rest header (by omega)
      obtain ⟨rest₂, hothers, hlen₂, hplain₂⟩ :=
        ih (passed ++ headerOctets header) rest₁ (by omega)
      refine ⟨rest₂, ?_, ?_, ?_⟩
      · rw [List.foldl_cons, hfirst, hothers, List.flatMap_cons, List.append_assoc]
      · rw [List.flatMap_cons, List.length_append]
        omega
      · intro hall
        simp only [List.all_cons, Bool.and_eq_true] at hall
        rw [hplain₂ hall.2, hplain₁ hall.1, List.drop_drop, List.flatMap_cons, List.length_append]

/-- The number of length octets before the headers. -/
def headLength (header : List SmsUDH) : Nat := if header.length > 0 then 2 else 1

theorem encodeHeaders_cursor (header : List SmsUDH) (passed : List UInt8) (m : Nat)
    (hroom : 6 * header.length + 10 ≤ m) :
    ∃ rest, encodeHeaders (cursor passed (List.replicate m 0)) header =
        (cursor (passed ++ List.replicate (headLength header) 0 ++ header.flatMap headerOctets) rest,
          (header.flatMap headerOctets).length) ∧
      rest.length + headLength header + (header.flatMap headerOctets).length = m ∧
      (header.all SmsUDH.isPlain = true → rest = List.replicate rest.length 0) := by
  have hhead : headLength header ≤ 2 := by
    unfold headLength
    split <;> omega
  have hmove : (cursor passed (List.replicate m 0)).moveForward (headLength header) =
      cursor (passed ++ List.replicate (headLength header) 0)
        (List.replicate (m - headLength header) 0) := by
    rw [moveForward_cursor _ _ _ (by simp; omega), List.take_replicate, List.drop_replicate,
      Nat.min_eq_left (by omega)]
  obtain ⟨rest, hfold, hlen, hplain⟩ := foldl_encodeHeader_cursor header
    (passed ++ List.replicate (headLength header) 0) (List.replicate (m - headLength header) 0)
    (by simp; omega)
  rw [List.length_replicate] at hlen
  refine ⟨rest, ?_, by omega, ?_⟩
  · have hmove' := hmove
    unfold headLength at hmove'
    simp only [encodeHeaders, hmove']
    rw [← headLength, hfold]
    simp only [cursor_index, Prod.mk.injEq, true_and]
    simp only [List.length_append]
    split <;> omega
  · intro hall
    have hrest := hplain hall
    rw [List.drop_replicate] at hrest
    rw [hrest, List.length_replicate]

/-! ## Length octets -/

/-- `UDL`, and `UDHL` when there are headers. -/
def headOctets (header : List SmsUDH) (udl : UInt8) : List UInt8 :=
  if header.length > 0 then [udl, UInt8.ofNat (header.flatMap headerOctets).length] else [udl]

/-- `UDL` of user data in septets, `length` of them behind the headers. -/
def septetLength (udhl length : Nat) : Nat :=
  if udhl > 0 then ((udhl + 1) * 8 + headFillBits udhl + length * 7) / 7 else length

/-- `UDL` of user data in octets. -/
def octetLength (udhl length : Nat) : Nat := if udhl > 0 then udhl + 1 + length else length

theorem headFillBits_lt (udhl : Nat) : headFillBits udhl < 7 := by
  unfold headFillBits
  dsimp only
  split <;> split <;> omega

theorem insertByte_append_cons (passed more rest : List UInt8) (v w : UInt8) :
    (cursor (passed ++ w :: more) rest).insertByte v passed.length =
      some (cursor (passed ++ v :: more) rest) := by
  rw [insertByte_cursor_of_lt _ _ _ _ (by simp)]
  simp

/-- Without octets of headers `UDHL` stays blank, which is zero as well. -/
theorem insertHead_cursor (header : List SmsUDH) (passed rest : List UInt8) (udl : UInt8) :
    (let b := cursor (passed ++ List.replicate (headLength header) 0 ++
        header.flatMap headerOctets) rest
      if (header.flatMap headerOctets).length > 0 then
        (b.insertByte udl passed.length).bind fun b =>
          b.insertByte (UInt8.ofNat (header.flatMap headerOctets).length) (passed.length + 1)
      else b.insertByte udl passed.length) =
    some (cursor (passed ++ headOctets header udl ++ header.flatMap headerOctets) rest) := by
  cases header with
  | nil => simpa [headLength, headOctets] using insertByte_append_cons passed [] rest udl 0
  | cons header headers =>
      generalize hH : (header :: headers).flatMap headerOctets = H
      have htwo : List.replicate (headLength (header :: headers)) (0 : UInt8) = [0, 0] := rfl
      have hfirst := insertByte_append_cons passed (0 :: H) rest udl 0
      have hsecond := insertByte_append_cons (passed ++ [udl]) H rest (UInt8.ofNat H.length) 0
      simp only [List.length_append, List.length_singleton, List.append_assoc,
        List.singleton_append] at hsecond
      simp only [htwo, headOctets, hH, List.append_assoc, List.cons_append, List.nil_append,
        List.length_cons, Nat.zero_lt_succ, if_true, hfirst, Option.bind_some, gt_iff_lt]
      split
      · exact hsecond
      · next hzero =>
          have hnil : H.length = 0 := by omega
          simp [hnil]

theorem encodeOctetHeadPdu_cursor (header : List SmsUDH) (length : Nat) (passed : List UInt8)
    (m : Nat) (hroom : 6 * header.length + 10 ≤ m) :
    ∃ rest, encodeOctetHeadPdu (cursor passed (List.replicate m 0)) header length =
        some (cursor (passed ++ headOctets header
            (UInt8.ofNat (octetLength (header.flatMap headerOctets).length length)) ++
          header.flatMap headerOctets) rest) ∧
      rest.length + headLength header + (header.flatMap headerOctets).length = m := by
  obtain ⟨rest, hheaders, hlen, -⟩ := encodeHeaders_cursor header passed m hroom
  refine ⟨rest, ?_, hlen⟩
  rw [← insertHead_cursor]
  simp only [encodeOctetHeadPdu, hheaders, cursor_index, octetLength, Option.bind_eq_bind]
  split <;> rfl

theorem encodeGsmHeadPdu_cursor (userData : SmsUDPackage) (passed : List UInt8) (m : Nat)
    (hroom : 6 * userData.header.length + 10 ≤ m) :
    ∃ rest, encodeGsmHeadPdu (cursor passed (List.replicate m 0)) userData =
        some (cursor (passed ++ headOctets userData.header
            (UInt8.ofNat (septetLength (userData.header.flatMap headerOctets).length
              userData.data.length)) ++
          userData.header.flatMap headerOctets) rest,
          headFillBits (userData.header.flatMap headerOctets).length) ∧
      rest.length + headLength userData.header +
        (userData.header.flatMap headerOctets).length = m ∧
      (userData.header.all SmsUDH.isPlain = true → rest = List.replicate rest.length 0) := by
  obtain ⟨rest, hheaders, hlen, hblank⟩ := encodeHeaders_cursor userData.header passed m hroom
  refine ⟨rest, ?_, hlen, hblank⟩
  have hinsert := insertHead_cursor userData.header passed rest
    (UInt8.ofNat (septetLength (userData.header.flatMap headerOctets).length userData.data.length))
  simp only [encodeGsmHeadPdu, hheaders, cursor_index, septetLength, Option.bind_eq_bind] at hinsert ⊢
  split
  · next hpos =>
      simp only [if_pos hpos] at hinsert ⊢
      rw [← Option.bind_assoc, hinsert]
      rfl
  · next hzero =>
      simp only [if_neg hzero] at hinsert ⊢
      rw [hinsert]
      rfl

/-! ## Bodies -/

/-- The octets of the headers. -/
def SmsUDPackage.udh (userData : SmsUDPackage) : List UInt8 := userData.header.flatMap headerOctets

/-- The length that goes into `UDL`. -/
def SmsUDPackage.udl (userData : SmsUDPackage) (scheme : DataCodingScheme) : Nat :=
  if scheme = .dataCoding7Bit then septetLength userData.udh.length userData.data.length
  else octetLength userData.udh.length userData.data.length

/-- The octets before the body. -/
def SmsUDPackage.front (userData : SmsUDPackage) (scheme : DataCodingScheme) : List UInt8 :=
  headOctets userData.header (UInt8.ofNat (userData.udl scheme)) ++ userData.udh

/-- User data that the record has room for and one TPDU can carry. -/
structure SmsUDPackage.Fits (userData : SmsUDPackage) (scheme : DataCodingScheme) : Prop where
  headers : userData.header.length ≤ 7
  septets : scheme = .dataCoding7Bit → ∀ c ∈ userData.data, c < 128
  length : userData.udl scheme ≤ if scheme = .dataCoding7Bit then 160 else 140

theorem memcpy_eq_some_cursor {passed rest octets : List UInt8} {destMax : Nat} {b : SmsPduBuffer}
    (h : (cursor passed rest).memcpy destMax octets = some b) :
    b = cursor passed (octets ++ rest.drop octets.length) := by
  unfold memcpy at h
  split at h
  · simp at h
  · next hdest =>
      cases h
      simp [cursor]

theorem encode8bitBodyPdu_cursor {passed rest data : List UInt8} {b : SmsPduBuffer}
    (h : encode8bitBodyPdu (cursor passed rest) data = some b) :
    ∃ rest', b = cursor (passed ++ data) rest' ∧ data.length + rest'.length = rest.length := by
  unfold encode8bitBodyPdu at h
  split at h
  · simp at h
  split at h
  · simp at h
  · next hroom =>
      rw [cursor_index, cursor_getSize] at hroom
      obtain ⟨c, hc, hd⟩ := Option.bind_eq_some_iff.mp h
      cases hd
      rw [memcpy_eq_some_cursor hc, moveForward_cursor _ _ _ (by simp)]
      exact ⟨rest.drop data.length, by simp, by simp; omega⟩

theorem encodeUcs2BodyPdu_cursor {passed rest data : List UInt8} {b : SmsPduBuffer}
    (h : encodeUcs2BodyPdu (cursor passed rest) data = some b) :
    ∃ rest', b = cursor (passed ++ data) rest' ∧ data.length + rest'.length = rest.length := by
  unfold encodeUcs2BodyPdu at h
  split at h
  · simp at h
  split at h
  · simp at h
  · next hroom =>
      rw [cursor_index, cursor_getSize] at hroom
      obtain ⟨c, hc, hd⟩ := Option.bind_eq_some_iff.mp h
      cases hd
      rw [memcpy_eq_some_cursor hc, moveForward_cursor _ _ _ (by simp)]
      exact ⟨rest.drop data.length, by simp, by simp; omega⟩

theorem le_septetLength (udhl length : Nat) : length ≤ septetLength udhl length := by
  unfold septetLength
  split <;> omega

/-- Octets stand behind the headers as they are. -/
theorem encodeUserDataPdu_octets {userData : SmsUDPackage} {scheme : DataCodingScheme}
    {passed : List UInt8} {m : Nat} {b : SmsPduBuffer} (hfits : userData.Fits scheme)
    (hm : 200 ≤ m) (hscheme : scheme = .dataCoding8Bit ∨ scheme = .dataCodingUcs2)
    (h : encodeUserDataPdu (cursor passed (List.replicate m 0)) userData scheme [] = some b) :
    ∃ rest, b = cursor (passed ++ userData.front scheme ++ userData.data) rest := by
  have hheaders := hfits.headers
  obtain ⟨rest, hhead, -⟩ := encodeOctetHeadPdu_cursor userData.header userData.data.length passed m
    (by omega)
  rw [List.append_assoc] at hhead
  obtain rfl | rfl := hscheme
  · have hcentre : ¬ ctSmsc = [] := by decide
    obtain ⟨c, hc, hbody⟩ := Option.bind_eq_some_iff.mp h
    rw [encode8bitHeadPdu, if_neg hcentre, hhead, Option.some.injEq] at hc
    subst hc
    obtain ⟨rest', hb, -⟩ := encode8bitBodyPdu_cursor hbody
    exact ⟨rest', hb⟩
  · obtain ⟨c, hc, hbody⟩ := Option.bind_eq_some_iff.mp h
    rw [encodeUcs2HeadPdu, hhead, Option.some.injEq] at hc
    subst hc
    obtain ⟨rest', hb, -⟩ := encodeUcs2BodyPdu_cursor hbody
    exact ⟨rest', hb⟩

theorem length_front (userData : SmsUDPackage) (scheme : DataCodingScheme) :
    (userData.front scheme).length = headLength userData.header + userData.udh.length := by
  unfold SmsUDPackage.front headOctets headLength
  split <;> simp <;> omega

/-- Septets are packed behind the headers; over octets of a reply address they
only keep their place. -/
theorem encodeUserDataPdu_septets {userData : SmsUDPackage} {passed : List UInt8} {m : Nat}
    {b : SmsPduBuffer} (hfits : userData.Fits .dataCoding7Bit) (hm : 200 ≤ m)
    (hsize : passed.length + m = 256)
    (h : encodeUserDataPdu (cursor passed (List.replicate m 0)) userData .dataCoding7Bit [] =
      some b) :
    ∃ body rest, b = cursor (passed ++ userData.front .dataCoding7Bit ++ body) rest ∧
      body.length = (headFillBits userData.udh.length + 7 * userData.data.length + 7) / 8 ∧
      (userData.header.all SmsUDH.isPlain = true →
        body = Septet.pack (headFillBits userData.udh.length) 0 userData.data) := by
  have hheaders := hfits.headers
  have hoctets : userData.udh.length ≤ 6 * userData.header.length :=
    length_flatMap_headerOctets_le userData.header
  have hlength : septetLength userData.udh.length userData.data.length ≤ 160 := hfits.length
  have hdata := le_septetLength userData.udh.length userData.data.length
  have hfill := headFillBits_lt userData.udh.length
  have hheadLength : headLength userData.header ≤ 2 := by
    unfold headLength
    split <;> omega
  obtain ⟨rest, hhead, hlen, hblank⟩ := encodeGsmHeadPdu_cursor userData passed m (by omega)
  rw [List.append_assoc] at hhead
  obtain ⟨⟨c, fillBits⟩, hc, hpack⟩ := Option.bind_eq_some_iff.mp h
  rw [hhead, Option.some.injEq, Prod.mk.injEq] at hc
  obtain ⟨rfl, rfl⟩ := hc
  change pack7bitChar (cursor (passed ++ userData.front .dataCoding7Bit) rest) userData.data
    (headFillBits userData.udh.length) = some b at hpack
  change rest.length + headLength userData.header + userData.udh.length = m at hlen
  have hfront := length_front userData .dataCoding7Bit
  have htotal : (passed ++ userData.front .dataCoding7Bit).length + rest.length = 256 := by
    rw [List.length_append]
    omega
  cases hplain : userData.header.all SmsUDH.isPlain with
  | true =>
      obtain ⟨n, hn⟩ : ∃ n, rest.length =
          (headFillBits userData.udh.length + 7 * userData.data.length + 7) / 8 + n :=
        Nat.exists_eq_add_of_le (by omega)
      have hexact := pack7bitChar_cursor userData.data (passed ++ userData.front .dataCoding7Bit)
        (by omega) (by omega) hn (by omega)
      rw [← hblank hplain, hpack, Option.some.injEq] at hexact
      exact ⟨_, _, hexact, Septet.length_pack userData.data 0 (by omega), fun _ => rfl⟩
  | false =>
      obtain ⟨body, rest', hb, hbody, -⟩ := pack7bitChar_length (by omega)
        (List.ne_nil_of_length_pos (by omega)) (by omega) hpack
      exact ⟨body, rest', hb, hbody, by simp⟩

end TelephonySms.Pdu
