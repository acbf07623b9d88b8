import TelephonySms.Cdma.Reading

/-! # User data read back

The header loop in bit mode over headers that are written in full, and user data
up to the point where its fields are read.
-/

namespace TelephonySms.Cdma

open TelephonySms.Pdu
open SmsPduBuffer

/-! ## Headers -/

theorem headerPdu_eq {header : List SmsUDH} (h : header.length ≤ 7) :
    headerPdu header = header.flatMap headerOctets := by
  have hle := length_flatMap_headerOctets_le header
  obtain ⟨rest, hfold, hlen, -⟩ := foldl_encodeHeader_cursor header [] (List.replicate 256 0)
    (by rw [List.length_replicate]; omega)
  rw [headerPdu, new_eq_cursor, hfold]
  simp only [List.nil_append, cursor_data, cursor_index]
  rw [Nat.mod_eq_of_lt (by omega), List.take_left]

theorem readPair_bitCursor (v : UInt16) (passed rest : List Bool) :
    readPair (bitCursor passed
      (field 8 (v >>> 8).toUInt8 ++ (field 8 (v &&& 0x00FF).toUInt8 ++ rest))) =
        some (v, bitCursor (passed ++ (field 8 (v >>> 8).toUInt8 ++
          field 8 (v &&& 0x00FF).toUInt8)) rest) := by
  simp only [readPair, readByte_bitCursor, Option.bind_eq_bind, Option.bind_some,
    joinPair_splitPair, List.append_assoc]

theorem decodeHeader_bitCursor (coder : TextCoder) {header : SmsUDH} (h : header.isPlain = true)
    (passed rest : List Bool) :
    decodeHeader coder (bitCursor passed (each 8 (headerOctets header) ++ rest)) =
      some (header, bitCursor (passed ++ each 8 (headerOctets header)) rest) := by
  cases header with
  | concat8Bit msgRef totalSeg seqNum =>
      simp [headerOctets, SmsUDH.element, decodeHeader, decodeHeaderConcat8Bit, decodeHeaderLength]
  | concat16Bit msgRef totalSeg seqNum =>
      have htype : ¬ (0x08 : UInt8) = 0x00 := by decide
      have hlength : ¬ (0x04 : UInt8) = 0 := by decide
      simp only [headerOctets, SmsUDH.element, each_cons, each_nil, List.append_assoc,
        List.append_nil, decodeHeader, decodeHeaderConcat16Bit,
        decodeHeaderLength, readByte_bitCursor, Option.bind_eq_bind, Option.bind_some,
        if_neg htype, if_neg hlength, if_true, readPair_bitCursor]
  | appPort8Bit destPort originPort =>
      simp [headerOctets, SmsUDH.element, decodeHeader, decodeHeaderAppPort8Bit, decodeHeaderLength]
  | appPort16Bit destPort originPort =>
      have htype : ¬ (0x05 : UInt8) = 0x00 ∧ ¬ (0x05 : UInt8) = 0x08 ∧ ¬ (0x05 : UInt8) = 0x04 := by
        decide
      have hlength : ¬ (0x04 : UInt8) = 0 := by decide
      simp only [headerOctets, SmsUDH.element, each_cons, each_nil, List.append_assoc,
        List.append_nil, decodeHeader, decodeHeaderAppPort16Bit,
        decodeHeaderLength, readByte_bitCursor, Option.bind_eq_bind, Option.bind_some,
        if_neg htype.1, if_neg htype.2.1, if_neg htype.2.2, if_neg hlength, if_true,
        readPair_bitCursor]
  | singleShift langId =>
      simp [headerOctets, SmsUDH.element, decodeHeader, decodeHeaderSingleShift, decodeHeaderLength]
  | lockingShift langId =>
      simp [headerOctets, SmsUDH.element, decodeHeader, decodeHeaderLockingShift,
        decodeHeaderLength]
  | alternateReplyAddress _ => simp [SmsUDH.isPlain, SmsUDH.element] at h
  | specialSms _ _ _ => simp [SmsUDH.isPlain, SmsUDH.element] at h
  | other _ => simp [SmsUDH.isPlain, SmsUDH.element] at h

theorem length_headerOctets_pos {header : SmsUDH} (h : header.isPlain = true) :
    0 < (headerOctets header).length := by
  cases header <;> simp_all [SmsUDH.isPlain, SmsUDH.element, headerOctets]

/-- The loop over the headers left, with `index` octets read so far. -/
theorem decodeHeaderLoop_bitCursor (coder : TextCoder) (udhBytes : UInt8) (headers : List SmsUDH)
    {n : Nat} {read : List SmsUDH} {index : UInt8} {passed : List Bool} (rest : List Bool)
    (hplain : headers.all SmsUDH.isPlain = true) (hn : headers.length ≤ n)
    (hindex : index.toNat + (headers.flatMap headerOctets).length = udhBytes.toNat) :
    decodeHeaderLoop coder udhBytes n read index
        (bitCursor passed (each 8 (headers.flatMap headerOctets) ++ rest)) =
      ((read ++ headers, udhBytes),
        bitCursor (passed ++ each 8 (headers.flatMap headerOctets)) rest) := by
  have hlt := udhBytes.toNat_lt
  induction headers generalizing n read index passed with
  | nil =>
      have hdone : ¬ index < udhBytes := by
        rw [UInt8.lt_iff_toNat_lt]
        simp at hindex
        omega
      cases n <;> simp [decodeHeaderLoop, hdone]
  | cons header headers ih =>
      cases n with
      | zero => simp at hn
      | succ n =>
          simp only [List.all_cons, Bool.and_eq_true] at hplain
          have hpos := length_headerOctets_pos hplain.1
          simp only [List.flatMap_cons, List.length_append] at hindex
          have hmore : index < udhBytes := by
            rw [UInt8.lt_iff_toNat_lt]
            omega
          have hlength : (passed.length + 8 * (headerOctets header).length) / 8 -
              passed.length / 8 = (headerOctets header).length := by omega
          have hsum : (index + UInt8.ofNat (headerOctets header).length).toNat =
              index.toNat + (headerOctets header).length := by
            rw [UInt8.toNat_add, ofNat_toNat_of_le (by omega)]
            omega
          rw [decodeHeaderLoop, if_pos hmore, List.flatMap_cons, each_append, List.append_assoc,
            decodeHeader_bitCursor coder hplain.1]
          simp only [bitCursor_index, List.length_append, length_each, hlength]
          rw [if_neg (by omega), if_neg (by omega),
            ih hplain.2 (by simpa using hn) (by omega), List.append_assoc, List.append_assoc]
          rfl

/-- The count of the header octets and the octets, if there are any. -/
def udhBits (udh : List UInt8) : List Bool :=
  if udh.length > 0 then field 8 (UInt8.ofNat udh.length) ++ each 8 udh else []

theorem decodeHeader7Bit_bitCursor (coder : TextCoder) {header : List SmsUDH}
    (hplain : header.all SmsUDH.isPlain = true) (hn : header.length ≤ 7)
    (passed rest : List Bool) :
    decodeHeader7Bit coder (header ≠ [])
        (bitCursor passed (udhBits (header.flatMap headerOctets) ++ rest)) =
      ((header, UInt8.ofNat (header.flatMap headerOctets).length),
        bitCursor (passed ++ udhBits (header.flatMap headerOctets)) rest) := by
  have hle := length_flatMap_headerOctets_le header
  cases header with
  | nil => simp [decodeHeader7Bit, udhBits]
  | cons first others =>
      have hpos : ((first :: others).flatMap headerOctets).length > 0 := by
        simp only [List.all_cons, Bool.and_eq_true] at hplain
        have := length_headerOctets_pos hplain.1
        simp
        omega
      have hcount := ofNat_toNat_of_le (n := ((first :: others).flatMap headerOctets).length)
        (by omega)
      rw [decodeHeader7Bit, udhBits, if_pos (by simp), if_pos hpos, List.append_assoc,
        readBits_bitCursor_octet]
      simp only
      rw [hcount, if_neg (by omega), decodeHeaderLoop_bitCursor coder _ _ rest hplain hn
        (by rw [hcount]; simp)]
      simp

/-! ## Fields -/

/-- The count of septets. -/
def numFields7 (gsm7Bit : Bool) (udhBytes length : Nat) : Nat :=
  if udhBytes > 0 then udhSeptets udhBytes + gsm7Bit.toNat + length else length

/-- What stands between the headers and the septets. -/
def fill7 (gsm7Bit : Bool) (udhBytes : Nat) : List Bool :=
  if udhBytes > 0 then
    if gsm7Bit then field 8 0 else List.replicate ((7 - (udhBytes + 1) * 8 % 7) % 7) false
  else []

/-- The count of 16-bit units. -/
def numFields16 (udhBytes length : Nat) : Nat :=
  if udhBytes > 0 then (udhBytes + length) / 2 + 1 else length / 2

theorem header7Bits_eq (gsm7Bit : Bool) (udh : List UInt8) (length : Nat) :
    header7Bits gsm7Bit udh length =
      field 8 (UInt8.ofNat (numFields7 gsm7Bit udh.length length)) ++
        (udhBits udh ++ fill7 gsm7Bit udh.length) := by
  unfold header7Bits numFields7 udhBits fill7
  split <;> simp

theorem headerUnicodeBits_eq (udh : List UInt8) (length : Nat) :
    headerUnicodeBits udh length =
      field 8 (UInt8.ofNat (numFields16 udh.length length)) ++ udhBits udh := by
  unfold headerUnicodeBits numFields16 udhBits
  split <;> simp

/-- Contents whose headers are read: what is behind them is left to `DecodeFields`. -/
theorem decodeUserData_content (coder : TextCoder) {encodeType : SmsEncodingType}
    {header : List SmsUDH} (hne : encodeType ≠ .epm) (hne' : encodeType ≠ .gsmDcs)
    (hplain : header.all SmsUDH.isPlain = true) (hn : header.length ≤ 7) {numFields : UInt8}
    {tail content : List Bool}
    (hcontent : content = field 5 encodeType.value ++
      (field 8 numFields ++ (udhBits (header.flatMap headerOctets) ++ tail)))
    (passed rest : List Bool) :
    ∃ front, front.length % 8 = (passed ++ field 5 encodeType.value).length % 8 ∧
      front ++ tail = passed ++ (field 8 0x01 ++
        field 8 (UInt8.ofNat ((content.length + 7) / 8))) ++ content ∧
      decodeUserData coder (header ≠ []) (bitCursor passed (recordBits 0x01 content ++ rest)) =
        (decodeFields (bitCursor front (tail ++ (pad content.length ++ rest))) encodeType
          (header ≠ []) numFields (UInt8.ofNat (header.flatMap headerOctets).length)).map fun r =>
            (⟨encodeType, 0, ⟨header, r.1⟩⟩, r.2.skipBits) := by
  have htype : encodeType.value.toNat < 2 ^ 5 := by
    cases encodeType <;> decide
  have hno : decide (encodeType = .epm ∨ encodeType = .gsmDcs) = false :=
    decide_eq_false (not_or.mpr ⟨hne, hne'⟩)
  refine ⟨passed ++ (field 8 0x01 ++ field 8 (UInt8.ofNat ((content.length + 7) / 8))) ++
    (field 5 encodeType.value ++ (field 8 numFields ++ udhBits (header.flatMap headerOctets))),
    ?_, ?_, ?_⟩
  · have hudh : (udhBits (header.flatMap headerOctets)).length % 8 = 0 := by
      unfold udhBits
      split <;> simp
    simp only [List.length_append, length_field]
    omega
  · simp [hcontent]
  · have hheader := fun passed rest => decodeHeader7Bit_bitCursor coder hplain hn passed rest
    have hread := fun passed rest => readBits_bitCursor passed rest (by omega : 0 < 5) (by omega) htype
    simp only [decodeUserData, readRecord, readIdLen_record, Option.bind_eq_bind, Option.bind_some]
    generalize pad content.length = zeros
    generalize UInt8.ofNat ((content.length + 7) / 8) = len
    rw [hcontent]
    simp only [List.append_assoc, hread, Option.bind_some, getEncodingType_value, hno, readIf,
      Bool.false_eq_true, if_false, readBits_bitCursor_octet, hheader, Option.map_eq_bind,
      Option.bind_assoc]
    rfl

/-- `DecodeFields` behind what the headers of the message leave. -/
theorem decodeUserData_bitCursor (coder : TextCoder) {data : SmsTeleSvcUserData}
    {numFields : UInt8} {tail : List Bool} (hne : data.encodeType ≠ .epm)
    (hne' : data.encodeType ≠ .gsmDcs)
    (hplain : data.userData.header.all SmsUDH.isPlain = true)
    (hn : data.userData.header.length ≤ 7)
    (hbits : fieldsBits data = field 8 numFields ++ (udhBits data.userData.udh ++ tail))
    (passed rest : List Bool) :
    ∃ front, front.length % 8 = (passed ++ field 5 data.encodeType.value).length % 8 ∧
      front ++ tail = passed ++ (field 8 0x01 ++
        field 8 (UInt8.ofNat (((userDataBits data).length + 7) / 8))) ++ userDataBits data ∧
      decodeUserData coder (data.userData.header ≠ [])
          (bitCursor passed (recordBits 0x01 (userDataBits data) ++ rest)) =
        (decodeFields (bitCursor front (tail ++ (pad (userDataBits data).length ++ rest)))
          data.encodeType (data.userData.header ≠ []) numFields
          (UInt8.ofNat data.userData.udh.length)).map fun r =>
            (⟨data.encodeType, 0, ⟨data.userData.header, r.1⟩⟩, r.2.skipBits) :=
  decodeUserData_content coder hne hne' hplain hn (by rw [userDataBits, hbits]; rfl) passed rest

/-- Fields that take what is left of the contents. -/
theorem reads_userData (coder : TextCoder) {data : SmsTeleSvcUserData}
    {numFields : UInt8} {tail : List Bool} (hne : data.encodeType ≠ .epm)
    (hne' : data.encodeType ≠ .gsmDcs)
    (hplain : data.userData.header.all SmsUDH.isPlain = true)
    (hn : data.userData.header.length ≤ 7)
    (hbits : fieldsBits data = field 8 numFields ++ (udhBits data.userData.udh ++ tail))
    (hfields : ∀ passed rest, decodeFields (bitCursor passed (tail ++ rest)) data.encodeType
      (data.userData.header ≠ []) numFields (UInt8.ofNat data.userData.udh.length) =
        some (data.userData.data, bitCursor (passed ++ tail) rest)) :
    Reads (decodeUserData coder (data.userData.header ≠ []))
      (recordBits 0x01 (userDataBits data)) { data with msgType := 0 } := by
  intro passed rest h
  obtain ⟨front, -, hfront, hdecode⟩ :=
    decodeUserData_bitCursor coder hne hne' hplain hn hbits passed rest
  rw [hdecode, hfields, hfront]
  simp only [Option.map_some, skipBits_record passed rest 0x01 h]

theorem decodeAscii7Bit_bitCursor {udhBytes : Nat} {octets : List UInt8} (hudh : udhBytes ≤ 42)
    (hlen : octets.length ≤ 161) (hoctets : ∀ c ∈ octets, c.toNat < 2 ^ 7)
    (passed rest : List Bool) :
    decodeAscii7Bit (bitCursor passed (fill7 false udhBytes ++ each 7 octets ++ rest))
        (UInt8.ofNat (numFields7 false udhBytes octets.length)) (UInt8.ofNat udhBytes) =
      some (octets, bitCursor (passed ++ (fill7 false udhBytes ++ each 7 octets)) rest) := by
  have hcount := ofNat_toNat_of_le (n := udhBytes) (by omega)
  have hfields : numFields7 false udhBytes octets.length ≤ 255 := by
    unfold numFields7 udhSeptets
    rw [Bool.toNat_false]
    split <;> omega
  have hzero : UInt8.ofNat udhBytes = 0 ↔ udhBytes = 0 := by
    rw [← UInt8.toNat_inj, hcount]
    rfl
  have hread := readEach_bitCursor (passed ++ fill7 false udhBytes) rest (by omega : 0 < 7)
    (by omega) hoctets
  have hskip : readIf (decide (UInt8.ofNat udhBytes ≠ 0 ∧ (udhBytes + 1) * 8 % 7 ≠ 0)) 0
      (7 - (udhBytes + 1) * 8 % 7)
      (bitCursor passed (fill7 false udhBytes ++ each 7 octets ++ rest)) =
        some (0, bitCursor (passed ++ fill7 false udhBytes) (each 7 octets ++ rest)) := by
    have hbits : fill7 false udhBytes = fieldIf (decide (UInt8.ofNat udhBytes ≠ 0 ∧
        (udhBytes + 1) * 8 % 7 ≠ 0)) (7 - (udhBytes + 1) * 8 % 7) 0 := by
      unfold fill7 fieldIf
      by_cases h0 : udhBytes = 0
      · simp [h0]
      · by_cases h7 : (udhBytes + 1) * 8 % 7 = 0
        · simp [h7, h0, hzero]
        · have hlt : 7 - (udhBytes + 1) * 8 % 7 < 7 := by omega
          simp [h7, h0, hzero, show 0 < udhBytes by omega, Nat.mod_eq_of_lt hlt, field_zero]
    rw [hbits, List.append_assoc, readIf_bitCursor _ _ _ (by omega) (by omega)
      fun _ => Nat.two_pow_pos _]
    simp
  have hudhLen : (if UInt8.ofNat udhBytes = 0 then 0
      else if decide (UInt8.ofNat udhBytes ≠ 0 ∧ (udhBytes + 1) * 8 % 7 ≠ 0) = true then
        (udhBytes + 1) * 8 / 7 + 1 else (udhBytes + 1) * 8 / 7) =
      numFields7 false udhBytes octets.length - octets.length := by
    unfold numFields7 udhSeptets
    by_cases h0 : udhBytes = 0
    · simp [h0]
    · by_cases h7 : (udhBytes + 1) * 8 % 7 = 0
      · simp [h7, h0, hzero, show 0 < udhBytes by omega]
        omega
      · simp [h7, h0, hzero, show 0 < udhBytes by omega]
        omega
  have hle : octets.length ≤ numFields7 false udhBytes octets.length := by
    unfold numFields7
    split <;> omega
  simp only [decodeAscii7Bit, hcount, hskip, Option.bind_eq_bind, Option.bind_some, hudhLen,
    ofNat_toNat_of_le hfields]
  rw [if_neg (by omega), if_neg (by omega),
    show numFields7 false udhBytes octets.length - (numFields7 false udhBytes octets.length -
      octets.length) = octets.length by omega, hread, List.append_assoc]

theorem decode8BitData_bitCursor {octets : List UInt8} (h : octets.length ≤ 161)
    (passed rest : List Bool) :
    decode8BitData (bitCursor passed (each 8 octets ++ rest)) (UInt8.ofNat octets.length) =
      some (octets, bitCursor (passed ++ each 8 octets) rest) := by
  have hlen := ofNat_toNat_of_le (n := octets.length) (by omega)
  rw [decode8BitData, hlen, if_neg (by omega), readEach_octets]

end TelephonySms.Cdma
