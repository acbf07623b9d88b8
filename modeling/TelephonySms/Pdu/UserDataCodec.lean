import TelephonySms.Pdu.UserDataRoundTrip

/-! # Round trips of user data

The writers of user data at any position of a fresh buffer, and the readers on
the octets taken out of it. A writer that runs out of room while it writes
headers goes on silently, but then its buffer is full and no octets are taken
out of it.
-/

namespace TelephonySms.Pdu

open SmsPduBuffer

/-! ## Full buffers -/

theorem getPduBuffer_cursor_nil (passed : List UInt8) : (cursor passed []).getPduBuffer = none := by
  simp [getPduBuffer]

theorem getPduBuffer_cursor {passed rest octets : List UInt8}
    (h : (cursor passed rest).getPduBuffer = some octets) :
    octets = passed ∧ 0 < rest.length := by
  obtain ⟨-, hlt, rfl⟩ := getPduBuffer_eq_some h
  rw [cursor_index, cursor_getSize] at hlt
  exact ⟨by simp, by omega⟩

theorem writeBytes_cursor_nil (passed vs : List UInt8) :
    (cursor passed []).writeBytes vs = cursor passed [] := by
  cases vs <;> simp [writeBytes, steps]

theorem writeBytes_cursor_of_gt (vs : List UInt8) (passed rest : List UInt8)
    (h : rest.length < vs.length) : ∃ passed', (cursor passed rest).writeBytes vs =
      cursor passed' [] := by
  induction vs generalizing passed rest with
  | nil => simp at h
  | cons v vs ih =>
      cases rest with
      | nil => exact ⟨passed, writeBytes_cursor_nil passed _⟩
      | cons w rest =>
          obtain ⟨passed', hwrite⟩ := ih (passed ++ [v]) rest (by simpa using h)
          exact ⟨passed', by simpa [writeBytes, steps] using hwrite⟩

theorem foldl_encodeHeader_cursor_nil {headers : List SmsUDH}
    (hplain : headers.all SmsUDH.isPlain = true) (passed : List UInt8) :
    headers.foldl encodeHeader (cursor passed []) = cursor passed [] := by
  induction headers with
  | nil => rfl
  | cons header headers ih =>
      rw [List.all_cons, Bool.and_eq_true] at hplain
      rw [List.foldl_cons, encodeHeader_of_isPlain _ hplain.1, writeBytes_cursor_nil, ih hplain.2]

/-- Headers that are written in full stand there, or the buffer is full. -/
theorem foldl_encodeHeader_plain {headers : List SmsUDH}
    (hplain : headers.all SmsUDH.isPlain = true) (passed rest : List UInt8) :
    (headers.flatMap headerOctets).length ≤ rest.length ∧
        headers.foldl encodeHeader (cursor passed rest) =
          cursor (passed ++ headers.flatMap headerOctets)
            (rest.drop (headers.flatMap headerOctets).length) ∨
      ∃ passed', headers.foldl encodeHeader (cursor passed rest) = cursor passed' [] := by
  induction headers generalizing passed rest with
  | nil => exact .inl ⟨by simp, by simp⟩
  | cons header headers ih =>
      rw [List.all_cons, Bool.and_eq_true] at hplain
      rw [List.foldl_cons, encodeHeader_of_isPlain _ hplain.1, List.flatMap_cons,
        List.length_append]
      by_cases hroom : (headerOctets header).length ≤ rest.length
      · rw [writeBytes_cursor_drop _ _ _ hroom]
        obtain ⟨hle, hfold⟩ | hfull := ih hplain.2 (passed ++ headerOctets header)
          (rest.drop (headerOctets header).length)
        · rw [List.length_drop] at hle
          refine .inl ⟨by omega, ?_⟩
          rw [hfold, List.drop_drop, List.append_assoc]
        · exact .inr hfull
      · obtain ⟨passed', hwrite⟩ := writeBytes_cursor_of_gt (headerOctets header) passed rest
          (by omega)
        rw [hwrite, foldl_encodeHeader_cursor_nil hplain.2]
        exact .inr ⟨passed', rfl⟩

theorem encodeHeaders_plain {header : List SmsUDH} (hplain : header.all SmsUDH.isPlain = true)
    (passed : List UInt8) (m : Nat) :
    headLength header + (header.flatMap headerOctets).length ≤ m ∧
        encodeHeaders (cursor passed (List.replicate m 0)) header =
          (cursor (passed ++ List.replicate (headLength header) 0 ++ header.flatMap headerOctets)
            (List.replicate (m - headLength header - (header.flatMap headerOctets).length) 0),
            (header.flatMap headerOctets).length) ∨
      ∃ passed' udhl, encodeHeaders (cursor passed (List.replicate m 0)) header =
        (cursor passed' [], udhl) := by
  have hunfold : encodeHeaders (cursor passed (List.replicate m 0)) header =
      (let b := (cursor passed (List.replicate m 0)).moveForward (headLength header)
       (header.foldl encodeHeader b, if (header.foldl encodeHeader b).index > b.index then
          (header.foldl encodeHeader b).index - b.index else 0)) := rfl
  simp only [hunfold]
  by_cases hroom : headLength header ≤ m
  · rw [moveForward_cursor _ _ _ (by simpa using hroom), List.take_replicate, List.drop_replicate,
      Nat.min_eq_left hroom]
    obtain ⟨hle, hfold⟩ | ⟨passed', hfold⟩ := foldl_encodeHeader_plain hplain
      (passed ++ List.replicate (headLength header) 0) (List.replicate (m - headLength header) 0)
    · rw [List.length_replicate] at hle
      refine .inl ⟨by omega, ?_⟩
      rw [hfold, List.drop_replicate]
      simp only [cursor_index, List.length_append, Prod.mk.injEq, true_and]
      split <;> omega
    · exact .inr ⟨passed', _, by rw [hfold]⟩
  · rw [moveForward_cursor_of_gt _ _ _ (by simpa using hroom)]
    cases header with
    | nil =>
        obtain rfl : m = 0 := by simp [headLength] at hroom; exact hroom
        exact .inr ⟨passed, _, rfl⟩
    | cons first others =>
        obtain ⟨hle, -⟩ | ⟨passed', hfold⟩ := foldl_encodeHeader_plain hplain passed
          (List.replicate m 0)
        · rw [List.all_cons, Bool.and_eq_true] at hplain
          have hthree := three_le_length_headerOctets hplain.1
          simp [headLength] at hroom
          simp only [List.flatMap_cons, List.length_append, List.length_replicate] at hle
          omega
        · exact .inr ⟨passed', _, by rw [hfold]⟩

theorem insertByte_cursor_nil {passed : List UInt8} {v : UInt8} {i : Nat} {b : SmsPduBuffer}
    (h : (cursor passed []).insertByte v i = some b) : ∃ passed', b = cursor passed' [] := by
  unfold insertByte at h
  split at h
  · cases h
    exact ⟨passed.set i v, by simp [cursor]⟩
  · simp at h

theorem pack7bitCharLoop_cursor_nil {cs passed : List UInt8} {k : Nat} {b : SmsPduBuffer}
    (h : pack7bitCharLoop (cursor passed []) k cs = some b) : ∃ passed', b = cursor passed' [] := by
  induction cs generalizing passed k with
  | nil =>
      rw [pack7bitCharLoop] at h
      cases h
      exact ⟨passed, rfl⟩
  | cons c cs ih =>
      rw [pack7bitCharLoop] at h
      split at h
      · simp at h
      split at h
      · obtain ⟨d, hd, -⟩ := Option.bind_eq_some_iff.mp h
        simp only [pack7bitCharPartData, Option.bind_eq_bind, Option.bind_eq_some_iff] at hd
        obtain ⟨_, -, e, he, _, htop, -⟩ := hd
        obtain ⟨passed', rfl⟩ := insertByte_cursor_nil he
        simp [getTopValue] at htop
      · simp only [Option.bind_eq_bind, Option.bind_eq_some_iff] at h
        obtain ⟨_, -, d, hd, h⟩ := h
        obtain ⟨passed', rfl⟩ := insertByte_cursor_nil hd
        exact ih h

theorem pack7bitChar_cursor_nil {cs passed : List UInt8} {k : Nat} {b : SmsPduBuffer}
    (h : pack7bitChar (cursor passed []) cs k = some b) : ∃ passed', b = cursor passed' [] := by
  unfold pack7bitChar at h
  split at h
  · simp at h
  · rw [moveForward_cursor_nil, ite_self] at h
    exact pack7bitCharLoop_cursor_nil h

theorem length_le_of_pack7bitChar {cs : List UInt8} {k : Nat} {b c : SmsPduBuffer}
    (h : pack7bitChar b cs k = some c) : cs.length ≤ 160 := by
  unfold pack7bitChar at h
  split at h
  · simp at h
  · omega

/-! ## The writers at any position -/

/-- `UDL` and, behind headers, `UDHL` go in front of what was written. -/
def insertHead (b : SmsPduBuffer) (udl udhl location : Nat) : Option SmsPduBuffer :=
  if udhl > 0 then (b.insertByte (UInt8.ofNat udl) location).bind fun b =>
    b.insertByte (UInt8.ofNat udhl) (location + 1)
  else b.insertByte (UInt8.ofNat udl) location

theorem insertHead_cursor_nil {passed : List UInt8} {udl udhl location : Nat} {b : SmsPduBuffer}
    (h : insertHead (cursor passed []) udl udhl location = some b) :
    ∃ passed', b = cursor passed' [] := by
  unfold insertHead at h
  split at h
  · obtain ⟨c, hc, hb⟩ := Option.bind_eq_some_iff.mp h
    obtain ⟨passed', rfl⟩ := insertByte_cursor_nil hc
    exact insertByte_cursor_nil hb
  · exact insertByte_cursor_nil h

theorem encodeGsmHeadPdu_eq (b : SmsPduBuffer) (userData : SmsUDPackage) :
    encodeGsmHeadPdu b userData =
      (insertHead (encodeHeaders b userData.header).1
        (septetLength (encodeHeaders b userData.header).2 userData.data.length)
        (encodeHeaders b userData.header).2 b.index).map
          fun c => (c, headFillBits (encodeHeaders b userData.header).2) := by
  simp only [encodeGsmHeadPdu, insertHead, septetLength, Option.bind_eq_bind]
  split <;> simp only [Option.map_eq_bind, Option.bind_assoc, Function.comp_def]

theorem encodeOctetHeadPdu_eq (b : SmsPduBuffer) (header : List SmsUDH) (length : Nat) :
    encodeOctetHeadPdu b header length =
      insertHead (encodeHeaders b header).1 (octetLength (encodeHeaders b header).2 length)
        (encodeHeaders b header).2 b.index := by
  simp only [encodeOctetHeadPdu, insertHead, octetLength, Option.bind_eq_bind]
  split <;> rfl

/-- The head of user data stands there in full, or the buffer is full. -/
theorem insertHead_encodeHeaders {header : List SmsUDH}
    (hplain : header.all SmsUDH.isPlain = true) {passed : List UInt8} {m : Nat}
    (udl : Nat → Nat) {b : SmsPduBuffer}
    (h : insertHead (encodeHeaders (cursor passed (List.replicate m 0)) header).1
      (udl (encodeHeaders (cursor passed (List.replicate m 0)) header).2)
      (encodeHeaders (cursor passed (List.replicate m 0)) header).2 passed.length = some b) :
    (∃ n, m = headLength header + (header.flatMap headerOctets).length + n ∧
        (encodeHeaders (cursor passed (List.replicate m 0)) header).2 =
          (header.flatMap headerOctets).length ∧
        b = cursor (passed ++ (headOctets header
            (UInt8.ofNat (udl (header.flatMap headerOctets).length)) ++
          header.flatMap headerOctets)) (List.replicate n 0)) ∨
      ∃ passed', b = cursor passed' [] := by
  obtain ⟨hle, hheaders⟩ | ⟨passed', udhl, hheaders⟩ := encodeHeaders_plain hplain passed m
  · rw [hheaders] at h
    have hinsert := insertHead_cursor header passed
      (List.replicate (m - headLength header - (header.flatMap headerOctets).length) 0)
      (UInt8.ofNat (udl (header.flatMap headerOctets).length))
    simp only [insertHead, hinsert] at h
    cases h
    exact .inl ⟨m - headLength header - (header.flatMap headerOctets).length, by omega,
      by rw [hheaders], by rw [List.append_assoc]⟩
  · rw [hheaders] at h
    exact .inr (insertHead_cursor_nil h)

/-- Septets whose octets are taken out of the buffer were all written. -/
theorem encodeGsmPdu_octets {userData : SmsUDPackage}
    (hplain : userData.header.all SmsUDH.isPlain = true) {passed octets : List UInt8} {m : Nat}
    {b : SmsPduBuffer} (hsize : passed.length + m < 0x10000)
    (h : encodeGsmPdu (cursor passed (List.replicate m 0)) userData = some b)
    (hget : b.getPduBuffer = some octets) :
    userData.data.length ≤ 160 ∧ octets = passed ++ (userData.front .dataCoding7Bit ++
        Septet.pack (headFillBits userData.udh.length) 0 userData.data) ∧
      octets.length < passed.length + m := by
  have hfill := headFillBits_lt userData.udh.length
  obtain ⟨⟨c, fillBits⟩, hhead, hpack⟩ := Option.bind_eq_some_iff.mp h
  have hdata : userData.data.length ≤ 160 := length_le_of_pack7bitChar hpack
  refine ⟨hdata, ?_⟩
  rw [encodeGsmHeadPdu_eq, Option.map_eq_some_iff] at hhead
  obtain ⟨d, hinsert, hpair⟩ := hhead
  rw [Prod.mk.injEq] at hpair
  obtain ⟨rfl, rfl⟩ := hpair
  obtain ⟨n, rfl, hudhl, rfl⟩ | ⟨passed', rfl⟩ := insertHead_encodeHeaders hplain
    (fun udhl => septetLength udhl userData.data.length) hinsert
  · rw [hudhl] at hpack
    change pack7bitChar (cursor (passed ++ userData.front .dataCoding7Bit) (List.replicate n 0))
      userData.data (headFillBits userData.udh.length) = some b at hpack
    have hfront := length_front userData .dataCoding7Bit
    have hn : n ≠ 0 := by
      rintro rfl
      obtain ⟨passed', rfl⟩ := pack7bitChar_cursor_nil hpack
      simp [getPduBuffer_cursor_nil] at hget
    have hlen : (passed ++ userData.front .dataCoding7Bit).length + n < 0x10000 := by
      rw [List.length_append, hfront]
      change passed.length + (headLength userData.header + userData.udh.length + n) < _ at hsize
      omega
    obtain ⟨body, rest, rfl, hbody, htotal⟩ := pack7bitChar_length (by omega)
      (by simpa using hn) (by simpa using hlen) hpack
    obtain ⟨rfl, hroom⟩ := getPduBuffer_cursor hget
    rw [List.length_replicate] at htotal
    have hexact : pack7bitChar (cursor (passed ++ userData.front .dataCoding7Bit)
        (List.replicate n 0)) userData.data (headFillBits userData.udh.length) =
      some (cursor (passed ++ userData.front .dataCoding7Bit ++
        Septet.pack (headFillBits userData.udh.length) 0 userData.data)
          (List.replicate rest.length 0)) :=
      pack7bitChar_cursor userData.data _ (by omega) hdata (by omega) hlen
    rw [hpack, Option.some.injEq] at hexact
    have hdone := congrArg (fun b => b.data.take b.index) hexact
    simp only [cursor_data, cursor_index, List.take_left] at hdone
    refine ⟨by rw [hdone, List.append_assoc], ?_⟩
    rw [List.length_append, List.length_append, hfront]
    change _ < passed.length + (headLength userData.header + userData.udh.length + n)
    omega
  · obtain ⟨passed'', rfl⟩ := pack7bitChar_cursor_nil hpack
    simp [getPduBuffer_cursor_nil] at hget

/-! ## Septets -/

theorem septetLength_le {userData : SmsUDPackage} (hheaders : userData.header.length ≤ 7)
    (hdata : userData.data.length ≤ 160) : userData.udl .dataCoding7Bit ≤ 210 := by
  have hudh : userData.udh.length ≤ 6 * userData.header.length :=
    length_flatMap_headerOctets_le userData.header
  have hfill := headFillBits_lt userData.udh.length
  change septetLength userData.udh.length userData.data.length ≤ 210
  unfold septetLength
  split <;> omega

theorem exists_front_eq_cons (userData : SmsUDPackage) (scheme : DataCodingScheme) :
    ∃ more, userData.front scheme = UInt8.ofNat (userData.udl scheme) :: more := by
  by_cases hnil : userData.header = []
  · exact ⟨_, (front_of_nil scheme hnil).1⟩
  · exact ⟨_, front_of_ne_nil scheme hnil⟩

/-- Septets behind plain headers, written at any position of a buffer, come
back with their headers and nothing else as long as `UDL` stays within the 160
septets of one TPDU. The packer takes 160 septets behind headers as well; that
`UDL` is refused. -/
theorem decodeGsmPdu_encodeGsmPdu_iff (coder : TextCoder) (userData : SmsUDPackage)
    (passed octets : List UInt8) (m : Nat) (b : SmsPduBuffer) (pTPUD : Option SmsTpud)
    (hheaders : userData.header.length ≤ 7) (hplain : userData.header.all SmsUDH.isPlain = true)
    (hseptets : ∀ c ∈ userData.data, c < 128) (hsize : passed.length + m = 256)
    (h : encodeGsmPdu (cursor passed (List.replicate m 0)) userData = some b)
    (hget : b.getPduBuffer = some octets) :
    (∃ pTPUD' b', decodeGsmPdu coder ⟨octets, passed.length, 0⟩ (!userData.header.isEmpty) pTPUD =
        some (userData, pTPUD', b')) ↔ userData.udl .dataCoding7Bit ≤ 160 := by
  obtain ⟨hdata, rfl, hlen⟩ := encodeGsmPdu_octets hplain (by omega) h hget
  have hudl := septetLength_le hheaders hdata
  change (∃ pTPUD' b', decodeGsmPdu coder (cursor passed _) _ pTPUD = _) ↔ _
  constructor
  · rintro ⟨pTPUD', b', hdecode⟩
    simp only [decodeGsmPdu, Option.bind_eq_bind, Option.bind_eq_some_iff, Prod.exists] at hdecode
    obtain ⟨header, count, fillBits, _, c, hhead, -⟩ := hdecode
    obtain ⟨udl, xs, _, _, _, hxs, hle, -⟩ := decodeGsmHeadPdu_sound hhead
    obtain ⟨more, hmore⟩ := exists_front_eq_cons userData .dataCoding7Bit
    rw [hmore, List.cons_append, List.cons.injEq] at hxs
    rw [← hxs.1, UInt8.toNat_ofNat', Nat.mod_eq_of_lt (by omega)] at hle
    exact hle
  · intro hle
    have hfits : userData.Fits .dataCoding7Bit :=
      ⟨hheaders, fun _ => hseptets, by simpa using hle⟩
    have hind : (!userData.header.isEmpty) = true ↔ userData.header ≠ [] := by simp
    rw [List.length_append] at hlen
    obtain ⟨pTPUD', b', hdecode, -⟩ := decodeGsmPdu_pack coder pTPUD hfits hplain hind
      (show passed.length + _ ≤ 256 by omega)
    exact ⟨pTPUD', b', hdecode⟩

/-- Two characters behind a concatenation header, after one octet of a TPDU. -/
theorem decodeGsmPdu_encodeGsmPdu_concat :
    ∃ pTPUD' b', decodeGsmPdu ⟨id, id⟩
        ⟨[0x41, 0x09, 0x05, 0x00, 0x03, 0x07, 0x02, 0x01, 0x90, 0x69], 1, 0⟩ true none =
      some (⟨[.concat8Bit 7 2 1], [0x48, 0x69]⟩, pTPUD', b') :=
  (decodeGsmPdu_encodeGsmPdu_iff ⟨id, id⟩ ⟨[.concat8Bit 7 2 1], [0x48, 0x69]⟩ [0x41] _ 255
    (cursor [0x41, 0x09, 0x05, 0x00, 0x03, 0x07, 0x02, 0x01, 0x90, 0x69] (List.replicate 246 0))
    none (by decide) (by decide +kernel) (by decide +kernel) (by decide +kernel)
    (by decide +kernel) (by decide +kernel)).mpr (by decide)

/-! ## Octets -/

/-- Octets that are taken out of the buffer were all written. -/
theorem encodeOctetPdu_octets {userData : SmsUDPackage} {scheme : DataCodingScheme}
    (hplain : userData.header.all SmsUDH.isPlain = true) {passed octets : List UInt8} {m : Nat}
    {b : SmsPduBuffer} (hscheme : scheme = .dataCoding8Bit ∨ scheme = .dataCodingUcs2)
    (h : encodeUserDataPdu (cursor passed (List.replicate m 0)) userData scheme [] = some b)
    (hget : b.getPduBuffer = some octets) :
    octets = passed ++ (userData.front scheme ++ userData.data) ∧
      octets.length < passed.length + m := by
  obtain ⟨c, hhead, hbody⟩ : ∃ c, encodeOctetHeadPdu (cursor passed (List.replicate m 0))
      userData.header userData.data.length = some c ∧ ∀ passed' rest, c = cursor passed' rest →
        ∃ rest', b = cursor (passed' ++ userData.data) rest' ∧
          userData.data.length + rest'.length = rest.length := by
    obtain rfl | rfl := hscheme
    · have hcentre : ¬ ctSmsc = [] := by decide
      obtain ⟨c, hc, hbody⟩ := Option.bind_eq_some_iff.mp h
      rw [encode8bitHeadPdu, if_neg hcentre] at hc
      exact ⟨c, hc, fun _ _ hcursor => encode8bitBodyPdu_cursor (hcursor ▸ hbody)⟩
    · obtain ⟨c, hc, hbody⟩ := Option.bind_eq_some_iff.mp h
      exact ⟨c, hc, fun _ _ hcursor => encodeUcs2BodyPdu_cursor (hcursor ▸ hbody)⟩
  have hnot : scheme ≠ .dataCoding7Bit := by
    obtain rfl | rfl := hscheme <;> simp
  rw [encodeOctetHeadPdu_eq, cursor_index] at hhead
  obtain ⟨n, rfl, -, rfl⟩ | ⟨passed', rfl⟩ := insertHead_encodeHeaders hplain
    (fun udhl => octetLength udhl userData.data.length) hhead
  · obtain ⟨rest, rfl, htotal⟩ := hbody _ _ rfl
    obtain ⟨rfl, hroom⟩ := getPduBuffer_cursor hget
    have hfront : headOctets userData.header (UInt8.ofNat (octetLength
        (userData.header.flatMap headerOctets).length userData.data.length)) ++
          userData.header.flatMap headerOctets = userData.front scheme := by
      simp [SmsUDPackage.front, SmsUDPackage.udl, SmsUDPackage.udh, hnot]
    rw [hfront, List.length_append, List.length_append, length_front, List.append_assoc]
    rw [List.length_replicate] at htotal
    exact ⟨rfl, by change _ < passed.length + (headLength userData.header +
      userData.udh.length + n); omega⟩
  · obtain ⟨rest, rfl, htotal⟩ := hbody _ _ rfl
    obtain rfl : rest = [] := List.eq_nil_of_length_eq_zero (by
      rw [List.length_nil] at htotal
      omega)
    simp [getPduBuffer_cursor_nil] at hget

/-- What is written for `userData`: 8-bit data to `CT_SMSC` goes without its
headers. -/
def SmsUDPackage.written (userData : SmsUDPackage) (scheme : DataCodingScheme)
    (destAddr : List UInt8) : SmsUDPackage where
  header := if scheme = .dataCoding8Bit ∧ ctSmsc = destAddr then [] else userData.header
  data := userData.data

theorem encodeUserDataPdu_written (b : SmsPduBuffer) (userData : SmsUDPackage)
    (scheme : DataCodingScheme) (destAddr : List UInt8) :
    encodeUserDataPdu b userData scheme destAddr =
      encodeUserDataPdu b (userData.written scheme destAddr) scheme [] := by
  cases scheme with
  | dataCoding8Bit =>
      have hcentre : ¬ ctSmsc = [] := by decide
      simp [encodeUserDataPdu, encode8bitPdu, encode8bitHeadPdu, SmsUDPackage.written, hcentre]
  | _ => rfl

theorem SmsUDPackage.written_eq (userData : SmsUDPackage) (scheme : DataCodingScheme)
    (destAddr : List UInt8) :
    userData.written scheme destAddr = userData ∨
      (userData.written scheme destAddr).header = [] ∧ scheme = .dataCoding8Bit ∧
        ctSmsc = destAddr := by
  unfold SmsUDPackage.written
  split
  · next hcentre => exact .inr ⟨rfl, hcentre⟩
  · exact .inl rfl

theorem udl_lt_of_octets (userData : SmsUDPackage) {scheme : DataCodingScheme}
    (hnot : scheme ≠ .dataCoding7Bit) :
    userData.udl scheme < (userData.front scheme ++ userData.data).length := by
  rw [List.length_append, length_front, SmsUDPackage.udl, if_neg hnot]
  unfold octetLength headLength
  split
  · next hudh =>
      have hheader : userData.header.length > 0 := by
        refine List.length_pos_iff.mpr fun hnil => ?_
        simp [SmsUDPackage.udh, hnil] at hudh
      rw [if_pos hheader]
      omega
  · split <;> omega

/-- The readers of octets refuse a longer `UDL`. -/
theorem udl_le_of_decodeUserDataPdu {coder : TextCoder} {passed : List UInt8} {udl : Nat}
    {more : List UInt8} {bHeaderInd : Bool} {scheme : DataCodingScheme}
    {pTPUD pTPUD' : Option SmsTpud} {userData : SmsUDPackage} {b : SmsPduBuffer}
    (hscheme : scheme = .dataCoding8Bit ∨ scheme = .dataCodingUcs2) (hudl : udl < 256)
    (h : decodeUserDataPdu coder (cursor passed (UInt8.ofNat udl :: more)) bHeaderInd scheme
      pTPUD = some (userData, pTPUD', b)) : udl ≤ 140 := by
  have hoctet : (UInt8.ofNat udl).toNat = udl := by
    rw [UInt8.toNat_ofNat', Nat.mod_eq_of_lt hudl]
  by_contra hlong
  have hrefused : UInt8.ofNat udl > 140 := by
    rw [gt_iff_lt, UInt8.lt_iff_toNat_lt, hoctet]
    simpa using Nat.not_le.mp hlong
  obtain rfl | rfl := hscheme
  · simp [decodeUserDataPdu, decode8bitPdu, hrefused] at h
  · simp [decodeUserDataPdu, decodeUcs2Pdu, hrefused] at h

/-- Octets come back with their headers and nothing else exactly when `UDL` is
within one TPDU and, in the 8-bit coding, there are no headers, or the headers
are written and skipping one octet behind them makes no difference. -/
theorem decodeUserDataPdu_encodeUserDataPdu_iff (coder : TextCoder) (userData : SmsUDPackage)
    (scheme : DataCodingScheme) (destAddr passed octets : List UInt8) (m : Nat)
    (b : SmsPduBuffer) (pTPUD : Option SmsTpud)
    (hscheme : scheme = .dataCoding8Bit ∨ scheme = .dataCodingUcs2)
    (hheaders : userData.header.length ≤ 7) (hplain : userData.header.all SmsUDH.isPlain = true)
    (hsize : passed.length + m = 256)
    (h : encodeUserDataPdu (cursor passed (List.replicate m 0)) userData scheme destAddr = some b)
    (hget : b.getPduBuffer = some octets) :
    (∃ pTPUD' b', decodeUserDataPdu coder ⟨octets, passed.length, 0⟩
        (!(userData.written scheme destAddr).header.isEmpty) scheme pTPUD =
          some (userData, pTPUD', b')) ↔
      (userData.written scheme destAddr).udl scheme ≤ 140 ∧
        (scheme = .dataCoding8Bit → userData.header = [] ∨
          ctSmsc ≠ destAddr ∧ ∀ c ∈ userData.data, c = 0) := by
  have hnot : scheme ≠ .dataCoding7Bit := by
    obtain rfl | rfl := hscheme <;> simp
  have hwritten := userData.written_eq scheme destAddr
  rw [encodeUserDataPdu_written] at h
  obtain ⟨written, hw⟩ : ∃ written, userData.written scheme destAddr = written := ⟨_, rfl⟩
  rw [hw] at h hwritten ⊢
  have hplain' : written.header.all SmsUDH.isPlain = true := by
    obtain rfl | ⟨hnil, -⟩ := hwritten
    · exact hplain
    · simp [hnil]
  obtain ⟨rfl, hlen⟩ := encodeOctetPdu_octets hplain' hscheme h hget
  rw [List.length_append] at hlen
  have hudl := udl_lt_of_octets written hnot
  change (∃ pTPUD' b', decodeUserDataPdu coder (cursor passed _) _ scheme pTPUD = _) ↔ _
  constructor
  · rintro ⟨pTPUD', b', hdecode⟩
    have hle : written.udl scheme ≤ 140 := by
      obtain ⟨more, hmore⟩ := exists_front_eq_cons written scheme
      have hdecode' := hdecode
      rw [hmore, List.cons_append] at hdecode'
      exact udl_le_of_decodeUserDataPdu hscheme (by omega) hdecode'
    refine ⟨hle, fun h8 => ?_⟩
    by_cases hnil : userData.header = []
    · exact .inl hnil
    obtain rfl | ⟨hnil', -, -⟩ := hwritten
    · have hfits : written.Fits scheme :=
        ⟨hheaders, fun h7 => absurd h7 hnot, by simpa [hnot] using hle⟩
      have hkept := decodeUserDataPdu_octets_kept hfits hscheme (by omega) hdecode
      refine .inr ⟨fun hcentre => hnil ?_, hkept.skip hnil h8⟩
      rw [← hw]
      simp [SmsUDPackage.written, h8, hcentre]
    · -- without the flag no headers are read
      obtain ⟨_, _, -, _, _, hread, -⟩ := decodeUserDataPdu_octets_sound hscheme (by omega) hdecode
      simp only [hnil', List.isEmpty_nil, Bool.not_true] at hread
      exact .inl hread.1
  · rintro ⟨hle, hcond⟩
    obtain rfl : written = userData := by
      obtain heq | ⟨hnil, h8, hcentre⟩ := hwritten
      · exact heq
      · obtain hnil' | ⟨hne, -⟩ := hcond h8
        · rw [← hw, SmsUDPackage.written, hnil', ite_self, ← hnil']
        · exact absurd hcentre hne
    have hfits : written.Fits scheme :=
      ⟨hheaders, fun h7 => absurd h7 hnot, by simpa [hnot] using hle⟩
    have hkept : written.Kept scheme (!written.header.isEmpty) := by
      refine ⟨hplain, fun hne => by simp [hne], fun hnil hind => by simp [hnil] at hind,
        fun hne h8 => ?_⟩
      obtain hnil | ⟨-, hzero⟩ := hcond h8
      · exact absurd hnil hne
      · exact hzero
    obtain ⟨pTPUD', b', hdecode, -⟩ := decodeUserDataPdu_octets_back coder pTPUD hfits hscheme hkept
      (show passed.length + _ < 256 by omega)
    exact ⟨pTPUD', b', hdecode⟩

/-- One UCS2 character behind a concatenation header. -/
theorem decodeUserDataPdu_encodeUserDataPdu_ucs2 :
    ∃ pTPUD' b', decodeUserDataPdu ⟨id, id⟩
        ⟨[0x41, 0x08, 0x05, 0x00, 0x03, 0x07, 0x02, 0x01, 0x4F, 0x60], 1, 0⟩ true .dataCodingUcs2
          none = some (⟨[.concat8Bit 7 2 1], [0x4F, 0x60]⟩, pTPUD', b') :=
  (decodeUserDataPdu_encodeUserDataPdu_iff ⟨id, id⟩ ⟨[.concat8Bit 7 2 1], [0x4F, 0x60]⟩
    .dataCodingUcs2 [] [0x41] _ 255
    (cursor [0x41, 0x08, 0x05, 0x00, 0x03, 0x07, 0x02, 0x01, 0x4F, 0x60] (List.replicate 246 0))
    none (.inr rfl) (by decide) (by decide) (by decide) (by decide +kernel)
    (by decide +kernel)).mpr ⟨by decide, by decide⟩

/-- Two octets behind a concatenation header: the first is lost, and a zero
follows the second. -/
theorem decodeUserDataPdu_encodeUserDataPdu_lost :
    ¬ ∀ b octets, encodeUserDataPdu (cursor [0x41] (List.replicate 255 0))
        ⟨[.concat8Bit 7 2 1], [0x48, 0x69]⟩ .dataCoding8Bit [] = some b →
      b.getPduBuffer = some octets →
      ∃ pTPUD' b', decodeUserDataPdu ⟨id, id⟩ ⟨octets, 1, 0⟩ true .dataCoding8Bit none =
        some (⟨[.concat8Bit 7 2 1], [0x48, 0x69]⟩, pTPUD', b') := by
  intro h
  obtain ⟨pTPUD', b', hdecode⟩ := h
    (cursor [0x41, 0x08, 0x05, 0x00, 0x03, 0x07, 0x02, 0x01, 0x48, 0x69] (List.replicate 246 0))
    [0x41, 0x08, 0x05, 0x00, 0x03, 0x07, 0x02, 0x01, 0x48, 0x69]
    (by decide +kernel) (by decide +kernel)
  have hread : (decodeUserDataPdu ⟨id, id⟩
      ⟨[0x41, 0x08, 0x05, 0x00, 0x03, 0x07, 0x02, 0x01, 0x48, 0x69], 1, 0⟩ true .dataCoding8Bit
        none).map Prod.fst = some ⟨[.concat8Bit 7 2 1], [0x69, 0x00]⟩ := by
    decide +kernel
  rw [hdecode] at hread
  simp at hread

end TelephonySms.Pdu
