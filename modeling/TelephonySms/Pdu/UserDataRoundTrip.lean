import TelephonySms.Pdu.UserDataLayout

/-! # Which user data survives a round trip

The readers of user data are described by what they took from the octets in
front of them. Compared with what the writers laid out, this says which user
data comes back, and that none comes back when the reader starts one octet
late.
-/

namespace TelephonySms.Pdu

open SmsPduBuffer

/-! ## What the readers took -/

/-- Behind `UDL`, the headers and `UDHL` are taken with the header flag only. -/
def ReadHead (bHeaderInd : Bool) (xs : List UInt8) (header : List SmsUDH) (udhl : Nat)
    (rest : List UInt8) : Prop :=
  if bHeaderInd then
    ∃ oneByte used, udhl = oneByte.toNat ∧ xs = oneByte :: used ++ rest ∧ ReadAll header used
  else header = [] ∧ udhl = 0 ∧ rest = xs

/-- The number of septets and the fill bits that the reader makes of the two
length octets. -/
def septetCount (udl udhl : Nat) : Nat × Nat :=
  if udhl > 0 ∧ (udhl + 1) * 8 ≤ udl * 7 then
    ((udl * 7 - (udhl + 1) * 8) / 7, (udl * 7 - (udhl + 1) * 8) % 7)
  else (udl, 0)

theorem decodeGsmHeadPdu_sound {coder : TextCoder} {passed xs : List UInt8} {bHeaderInd : Bool}
    {pTPUD pTPUD' : Option SmsTpud} {header : List SmsUDH} {count fillBits : Nat}
    {b : SmsPduBuffer}
    (h : decodeGsmHeadPdu coder (cursor passed xs) bHeaderInd pTPUD =
      some ((header, count, fillBits), pTPUD', b)) :
    ∃ udl xs' udhl passed' rest, xs = udl :: xs' ∧ udl.toNat ≤ 160 ∧
      ReadHead bHeaderInd xs' header udhl rest ∧
      (count, fillBits) = septetCount udl.toNat udhl ∧ b = cursor passed' rest ∧
      passed' ++ rest = passed ++ xs := by
  obtain ⟨⟨udl, c⟩, hread, h⟩ := Option.bind_eq_some_iff.mp h
  obtain ⟨xs', rfl, rfl⟩ := readByte_cursor_eq_some hread
  simp only at h
  split at h
  · simp at h
  · next hudl =>
      have hle : udl.toNat ≤ 160 := by
        simpa using UInt8.le_iff_toNat_le.mp (UInt8.not_lt.mp hudl)
      cases bHeaderInd with
      | true =>
          simp only [if_true, Option.bind_eq_bind, Option.bind_eq_some_iff, Prod.exists,
            Option.some.injEq, Prod.mk.injEq] at h
          obtain ⟨udhl, c, hread', header', d, hheaders, _, _, _, ⟨rfl, rfl, rfl⟩, h⟩ := h
          obtain ⟨xs'', rfl, rfl⟩ := readByte_cursor_eq_some hread'
          obtain ⟨used, rest, rfl, rfl, hall⟩ := decodeHeaders_sound hheaders
          refine ⟨udl, _, udhl.toNat, (passed ++ [udl]) ++ [udhl] ++ used, rest, rfl, hle, ?_⟩
          unfold septetCount
          split at h
          · next hlong =>
              simp only [Option.some.injEq, Prod.mk.injEq] at h
              obtain ⟨⟨rfl, rfl, rfl⟩, -, rfl⟩ := h
              exact ⟨⟨udhl, used, rfl, rfl, hall⟩, by rw [if_pos hlong], rfl, by simp⟩
          · next hshort =>
              simp only [Option.some.injEq, Prod.mk.injEq] at h
              obtain ⟨⟨rfl, rfl, rfl⟩, -, rfl⟩ := h
              exact ⟨⟨udhl, used, rfl, rfl, hall⟩, by rw [if_neg hshort], rfl, by simp⟩
      | false =>
          simp at h
          obtain ⟨⟨rfl, rfl, rfl⟩, -, rfl⟩ := h
          exact ⟨udl, xs', 0, passed ++ [udl], xs', rfl, hle, ⟨rfl, rfl, rfl⟩, rfl, rfl, by simp⟩

/-- Past the last octet at most one more septet is read, out of the last octet. -/
theorem length_unpack7bitCharLoop_nil (passed : List UInt8) (n : Nat) {k : Nat} (hk : 0 < k) :
    (unpack7bitCharLoop (cursor passed []) k n).1.length ≤ if k = 1 then 1 else 0 := by
  cases n with
  | zero => simp [unpack7bitCharLoop]
  | succ n =>
      rw [unpack7bitCharLoop, if_neg (by omega)]
      split
      · simp
      · by_cases hone : k = 1
        · have hstop : unpack7bitCharLoop (cursor passed []) 0 n = ([], cursor passed []) := by
            cases n <;> simp [unpack7bitCharLoop]
          simp [hone, hstop]
        · simp [hone]

/-- The septets of a text that is returned were there, but for one that may be
read out of the octet before. -/
theorem decodeGsmPdu_sound {coder : TextCoder} {passed xs : List UInt8} {bHeaderInd : Bool}
    {pTPUD pTPUD' : Option SmsTpud} {userData : SmsUDPackage} {b : SmsPduBuffer}
    (hsize : passed.length + xs.length ≤ 256)
    (h : decodeGsmPdu coder (cursor passed xs) bHeaderInd pTPUD = some (userData, pTPUD', b)) :
    ∃ udl xs' udhl rest, xs = udl :: xs' ∧ ReadHead bHeaderInd xs' userData.header udhl rest ∧
      (userData.data = [] ∨ 7 * userData.data.length ≤ 8 * rest.length ∨
        rest = [] ∧ userData.data.length = 1 ∧ (septetCount udl.toNat udhl).2 = 1) := by
  simp only [decodeGsmPdu, Option.bind_eq_bind, Option.bind_eq_some_iff, Prod.exists,
    Option.some.injEq, Prod.mk.injEq] at h
  obtain ⟨header, count, fillBits, _, c, hhead, data, d, hunpack, rfl, -, -⟩ := h
  obtain ⟨udl, xs', udhl, passed', rest, rfl, hudl, hread, hcount, rfl, htotal⟩ :=
    decodeGsmHeadPdu_sound hhead
  refine ⟨udl, xs', udhl, rest, rfl, hread, ?_⟩
  have hlength := congrArg List.length htotal
  simp only [List.length_append] at hlength
  obtain ⟨hcountLt, hfill⟩ : count < 161 ∧ fillBits < 8 := by
    unfold septetCount at hcount
    split at hcount <;> cases hcount <;> omega
  rw [← hcount]
  by_cases hlast : fillBits = 0 ∨ rest ≠ []
  · obtain ⟨_, _, hexact, -⟩ := unpack7bitChar_cursor passed' rest hcountLt hfill hlast (by omega)
    rw [hexact, Option.some.injEq, Prod.mk.injEq] at hunpack
    obtain ⟨rfl, -⟩ := hunpack
    by_cases hempty : Septet.unpack fillBits count rest = []
    · exact .inl hempty
    · have := Septet.length_unpack_le _ rest hfill hempty
      exact .inr (.inl (by simp only; omega))
  · simp only [not_or, ne_eq, not_not] at hlast
    obtain ⟨hpos, rfl⟩ := hlast
    have hguard : ¬ (count ≥ 161 ∨ fillBits > 7) := by omega
    rw [unpack7bitChar, if_neg hguard, if_pos (by omega), moveForward_cursor_nil,
      Option.some.injEq] at hunpack
    have hone := length_unpack7bitCharLoop_nil passed' count (k := fillBits) (by omega)
    rw [hunpack] at hone
    simp only at hone
    split at hone
    · next hfillOne =>
        by_cases hempty : data = []
        · exact .inl hempty
        · have hdata := List.length_pos_iff.mpr hempty
          exact .inr (.inr ⟨rfl, by simp only; omega, hfillOne⟩)
    · exact .inl (List.eq_nil_of_length_eq_zero (by simp only; omega))

theorem decodeOctetBody_cursor (passed rest : List UInt8) (length : Nat)
    (hrest : rest.length < 256) :
    (decodeOctetBody (cursor passed rest) length).1.length = length ∧
      ∀ i < length, (decodeOctetBody (cursor passed rest) length).1.getD i 0 = rest.getD i 0 := by
  have hremain : (passed.length + rest.length - passed.length) % 256 = rest.length := by omega
  have hbody : (decodeOctetBody (cursor passed rest) length).1 =
      rest.take length ++ List.replicate (length - rest.length) 0 := by
    simp only [decodeOctetBody, cursor_getSize, cursor_index, hremain, SmsPduBuffer.octets,
      cursor_data, List.drop_left]
    by_cases hle : length ≤ rest.length
    · rw [Nat.min_eq_left hle, Nat.sub_self, Nat.sub_eq_zero_of_le hle]
    · rw [Nat.min_eq_right (by omega), List.take_length, List.take_of_length_le (by omega)]
  rw [hbody]
  refine ⟨by simp; omega, fun i hi => ?_⟩
  by_cases hlt : i < rest.length
  · rw [List.getD_append _ _ _ _ (by simp; omega)]
    simp [List.getD_eq_getElem?_getD, hi]
  · rw [List.getD_append_right _ _ _ _ (by simp; omega), List.getD_eq_default rest _ (by omega)]
    simp [List.getD_eq_getElem?_getD, List.getElem?_replicate]
    split <;> rfl

/-- The index is moved once more before a body of octets behind headers. -/
def bodySkip (scheme : DataCodingScheme) (udl udhl : Nat) : Nat :=
  if scheme = .dataCoding8Bit ∧ udhl > 0 ∧ udl ≥ udhl + 1 then 1 else 0

/-- What the body of octets is once the index has moved `skip` octets. -/
theorem decodeOctetBody_eq_some {header : List SmsUDH} {passed rest : List UInt8}
    {length skip : Nat} {userData : SmsUDPackage} {b : SmsPduBuffer} (hrest : rest.length < 256)
    (h : (let c := cursor (passed ++ rest.take skip) (rest.drop skip)
      if c.index > c.getSize then none
      else some ((⟨header, (decodeOctetBody c length).1⟩ : SmsUDPackage),
        (decodeOctetBody c length).2)) = some (userData, b)) :
    userData.header = header ∧ userData.data.length = length ∧
      ∀ i < length, userData.data.getD i 0 = rest.getD (skip + i) 0 := by
  simp only at h
  split at h
  · simp at h
  · cases h
    obtain ⟨hlen, hget⟩ := decodeOctetBody_cursor (passed ++ rest.take skip) (rest.drop skip) length
      (by simp; omega)
    refine ⟨rfl, hlen, fun i hi => ?_⟩
    rw [hget i hi]
    simp [List.getD_eq_getElem?_getD]

/-- What the readers of octets took behind `UDL`. -/
def ReadOctets (scheme : DataCodingScheme) (bHeaderInd : Bool) (udl : Nat) (xs : List UInt8)
    (userData : SmsUDPackage) : Prop :=
  ∃ udhl rest, ReadHead bHeaderInd xs userData.header udhl rest ∧
    userData.data.length = bodyLength udl udhl ∧
    ∀ i < bodyLength udl udhl, userData.data.getD i 0 = rest.getD (bodySkip scheme udl udhl + i) 0

theorem moveForward_bodySkip (udl udhl : Nat) (passed rest : List UInt8) :
    (if udhl > 0 ∧ udl ≥ udhl + 1 then (cursor passed rest).moveForward 1
      else cursor passed rest) =
    cursor (passed ++ rest.take (bodySkip .dataCoding8Bit udl udhl))
      (rest.drop (bodySkip .dataCoding8Bit udl udhl)) := by
  unfold bodySkip
  split
  · next hlong =>
      rw [if_pos ⟨rfl, hlong⟩]
      cases rest <;> simp
  · next hshort =>
      rw [if_neg (fun h => hshort h.2)]
      simp

theorem decode8bitPduPartData_sound {coder : TextCoder} {passed xs : List UInt8}
    {bHeaderInd : Bool} {udl : Nat} {userData : SmsUDPackage} {b : SmsPduBuffer}
    (hsize : passed.length + xs.length < 256)
    (h : decode8bitPduPartData coder (cursor passed xs) bHeaderInd udl = some (userData, b)) :
    ReadOctets .dataCoding8Bit bHeaderInd udl xs userData := by
  unfold decode8bitPduPartData at h
  cases bHeaderInd with
  | true =>
      simp only [if_true, Option.bind_eq_bind, Option.bind_eq_some_iff, Prod.exists,
        Option.some.injEq, Prod.mk.injEq] at h
      obtain ⟨udhl, c, hread, header, d, hheaders, _, _, _, ⟨rfl, rfl, rfl⟩, h⟩ := h
      obtain ⟨xs', rfl, rfl⟩ := readByte_cursor_eq_some hread
      obtain ⟨used, rest, rfl, rfl, hall⟩ := decodeHeaders_sound hheaders
      simp only [List.length_cons, List.length_append] at hsize
      rw [moveForward_bodySkip] at h
      obtain ⟨rfl, hdata⟩ := decodeOctetBody_eq_some (by omega) h
      exact ⟨udhl.toNat, rest, ⟨udhl, used, rfl, rfl, hall⟩, hdata⟩
  | false =>
      simp only [Bool.false_eq_true, if_false, Option.bind_eq_bind, Option.bind_some] at h
      rw [moveForward_bodySkip] at h
      obtain ⟨hheader, hdata⟩ := decodeOctetBody_eq_some (by omega) h
      exact ⟨0, xs, ⟨hheader, rfl, rfl⟩, hdata⟩

theorem decodeUcs2PduPartData_sound {coder : TextCoder} {passed xs : List UInt8}
    {bHeaderInd : Bool} {current udl : Nat} {userData : SmsUDPackage} {b : SmsPduBuffer}
    (hsize : passed.length + xs.length < 256)
    (h : decodeUcs2PduPartData coder (cursor passed xs) bHeaderInd current udl =
      some (userData, b)) :
    ReadOctets .dataCodingUcs2 bHeaderInd udl xs userData := by
  have hmove (udhl : Nat) (passed rest : List UInt8) : cursor passed rest =
      cursor (passed ++ rest.take (bodySkip .dataCodingUcs2 udl udhl))
        (rest.drop (bodySkip .dataCodingUcs2 udl udhl)) := by
    simp [bodySkip]
  unfold decodeUcs2PduPartData at h
  cases bHeaderInd with
  | true =>
      simp only [if_true, Option.bind_eq_bind, Option.bind_eq_some_iff, Prod.exists,
        Option.some.injEq, Prod.mk.injEq] at h
      obtain ⟨udhl, c, hread, header, d, hheaders, _, _, _, ⟨rfl, rfl, rfl⟩, h⟩ := h
      obtain ⟨xs', rfl, rfl⟩ := readByte_cursor_eq_some hread
      obtain ⟨used, rest, rfl, rfl, hall⟩ := decodeHeaders_sound hheaders
      simp only [List.length_cons, List.length_append] at hsize
      rw [hmove udhl.toNat] at h
      obtain ⟨rfl, hdata⟩ := decodeOctetBody_eq_some (by omega) h
      exact ⟨udhl.toNat, rest, ⟨udhl, used, rfl, rfl, hall⟩, hdata⟩
  | false =>
      simp only [Bool.false_eq_true, if_false, Option.bind_eq_bind, Option.bind_some] at h
      rw [hmove 0] at h
      obtain ⟨hheader, hdata⟩ := decodeOctetBody_eq_some (by omega) h
      exact ⟨0, xs, ⟨hheader, rfl, rfl⟩, hdata⟩

section PartData

variable {coder : TextCoder} {passed xs : List UInt8} {udl : UInt8} {bHeaderInd : Bool}
  {pTPUD pTPUD' : Option SmsTpud} {userData : SmsUDPackage} {b : SmsPduBuffer}

/-- What is kept for WAP push comes on top of what is read. -/
theorem exists_of_bind_tpud {x : Option (SmsUDPackage × SmsPduBuffer)} {tpud : Option SmsTpud}
    (h : (x.bind fun part => some (part.1, tpud, part.2)) = some (userData, pTPUD', b)) :
    ∃ c, x = some (userData, c) := by
  obtain ⟨⟨_, c⟩, hx, h⟩ := Option.bind_eq_some_iff.mp h
  cases h
  exact ⟨_, hx⟩

theorem decode8bitPdu_partData
    (h : decode8bitPdu coder (cursor passed (udl :: xs)) bHeaderInd pTPUD =
      some (userData, pTPUD', b)) :
    ∃ c, decode8bitPduPartData coder (cursor (passed ++ [udl]) xs) bHeaderInd udl.toNat =
      some (userData, c) := by
  simp only [decode8bitPdu, readByte_cursor_cons, Option.bind_eq_bind, Option.bind_some] at h
  split at h
  · simp at h
  split at h
  · split at h
    · simp at h
    · exact exists_of_bind_tpud h
  · exact exists_of_bind_tpud h

theorem decodeUcs2Pdu_partData
    (h : decodeUcs2Pdu coder (cursor passed (udl :: xs)) bHeaderInd pTPUD =
      some (userData, pTPUD', b)) :
    ∃ c, decodeUcs2PduPartData coder (cursor (passed ++ [udl]) xs) bHeaderInd passed.length
      udl.toNat = some (userData, c) := by
  simp only [decodeUcs2Pdu, readByte_cursor_cons, Option.bind_eq_bind, Option.bind_some] at h
  split at h
  · simp at h
  split at h
  · split at h
    · simp at h
    · exact exists_of_bind_tpud h
  · exact exists_of_bind_tpud h

end PartData

theorem decodeUserDataPdu_octets_sound {coder : TextCoder} {passed xs : List UInt8}
    {bHeaderInd : Bool} {scheme : DataCodingScheme} {pTPUD pTPUD' : Option SmsTpud}
    {userData : SmsUDPackage} {b : SmsPduBuffer}
    (hscheme : scheme = .dataCoding8Bit ∨ scheme = .dataCodingUcs2)
    (hsize : passed.length + xs.length < 256)
    (h : decodeUserDataPdu coder (cursor passed xs) bHeaderInd scheme pTPUD =
      some (userData, pTPUD', b)) :
    ∃ udl xs', xs = udl :: xs' ∧ ReadOctets scheme bHeaderInd udl.toNat xs' userData := by
  cases xs with
  | nil => obtain rfl | rfl := hscheme <;> simp [decodeUserDataPdu, decode8bitPdu, decodeUcs2Pdu] at h
  | cons udl xs =>
      have hsize' : (passed ++ [udl]).length + xs.length < 256 := by
        simp at hsize ⊢
        omega
      obtain rfl | rfl := hscheme
      · obtain ⟨c, hpart⟩ := decode8bitPdu_partData h
        exact ⟨udl, xs, rfl, decode8bitPduPartData_sound hsize' hpart⟩
      · obtain ⟨c, hpart⟩ := decodeUcs2Pdu_partData h
        exact ⟨udl, xs, rfl, decodeUcs2PduPartData_sound hsize' hpart⟩

/-! ## Headers that are not written in full -/

theorem headFillBits_add_mod {udhl : Nat} (h : udhl > 0) :
    ((udhl + 1) * 8 + headFillBits udhl) % 7 = 0 := by
  unfold headFillBits
  simp only [if_pos h]
  split <;> omega

/-- The reader counts the septets and fill bits that were written. -/
theorem septetCount_septetLength (udhl n : Nat) :
    septetCount (septetLength udhl n) udhl = (n, headFillBits udhl) := by
  unfold septetCount septetLength
  by_cases h : udhl > 0
  · have hmod := headFillBits_add_mod h
    have hlt := headFillBits_lt udhl
    rw [if_pos h, if_pos (by omega), Prod.mk.injEq]
    omega
  · obtain rfl : udhl = 0 := by omega
    rfl

/-- Septets behind such headers do not come back: the headers are read at least
two octets too far, and the septets that follow are not there. -/
theorem ReadAll.false_of_septets {header : List SmsUDH} {used rest body : List UInt8}
    {k n fillBits : Nat} (hread : ReadAll header used)
    (hnot : header.all SmsUDH.isPlain = false)
    (heq : used ++ rest = (header.flatMap headerOctets ++ body).drop k)
    (hfill : fillBits < 7) (hbody : body.length = (fillBits + 7 * n + 7) / 8)
    (hn : n = 0 ∨ 7 * n ≤ 8 * rest.length ∨ rest = [] ∧ n = 1 ∧ (k = 0 → fillBits < 2)) :
    False := by
  have hfar := hread.length_le.2 hnot
  have hlen := congrArg List.length heq
  simp only [List.length_append, List.length_drop] at hlen
  obtain hn | hn | ⟨rfl, hn, hone⟩ := hn
  · omega
  · omega
  · simp only [List.length_nil] at hlen
    omega

/-- What is left behind the headers is left of the body. -/
theorem ReadAll.rest_eq_drop {header : List SmsUDH} {used rest body : List UInt8} {k : Nat}
    (hread : ReadAll header used)
    (heq : used ++ rest = (header.flatMap headerOctets ++ body).drop k) :
    rest = body.drop (k + used.length - (header.flatMap headerOctets).length) := by
  have hle := hread.length_le.1
  have hdrop := congrArg (List.drop used.length) heq
  rwa [List.drop_left, List.drop_drop, List.drop_append, List.drop_of_length_le (by omega),
    List.nil_append] at hdrop

theorem getD_drop (xs : List UInt8) (k i : Nat) : (xs.drop k).getD i 0 = xs.getD (k + i) 0 := by
  simp [List.getD_eq_getElem?_getD]

/-- Nor do octets: they would be zero, and the last header is not read from zeros. -/
theorem ReadAll.false_of_octets {header : List SmsUDH} {used rest data : List UInt8} {k skip : Nat}
    (hread : ReadAll header used) (hnot : header.all SmsUDH.isPlain = false)
    (heq : used ++ rest = (header.flatMap headerOctets ++ data).drop k)
    (hdata : ∀ i < data.length, data.getD i 0 = rest.getD (skip + i) 0) : False := by
  have hfar := hread.length_le.2 hnot
  have hrest := hread.rest_eq_drop heq
  have hzero : ∀ i, data.getD i 0 = 0 := by
    apply getD_eq_zero_of_shift
      (k := k + used.length - (header.flatMap headerOctets).length + skip) (by omega)
    intro i hi
    rw [hdata i hi, hrest, getD_drop, Nat.add_assoc]
  apply hread.false_of_zero rest (k := k) _ (.inr hnot)
  intro i
  rw [heq, getD_drop]
  by_cases hi : k + i < (header.flatMap headerOctets).length
  · rw [List.getD_append _ _ _ _ hi]
  · rw [List.getD_append_right _ _ _ _ (by omega), hzero, List.getD_eq_default _ _ (by omega)]

/-! ## What comes back -/

/-- The user data that comes back with the header flag `bHeaderInd`. -/
structure SmsUDPackage.Kept (userData : SmsUDPackage) (scheme : DataCodingScheme)
    (bHeaderInd : Bool) : Prop where
  plain : userData.header.all SmsUDH.isPlain = true
  flag : userData.header ≠ [] → bHeaderInd = true
  noFlag : userData.header = [] → bHeaderInd = true →
    scheme ≠ .dataCoding7Bit ∧ userData.data ≠ [] ∧ ∀ c ∈ userData.data, c = 0
  skip : userData.header ≠ [] → scheme = .dataCoding8Bit → ∀ c ∈ userData.data, c = 0

theorem front_of_nil {userData : SmsUDPackage} (scheme : DataCodingScheme)
    (h : userData.header = []) :
    userData.front scheme = [UInt8.ofNat (userData.udl scheme)] ∧ userData.udh = [] := by
  simp [SmsUDPackage.front, SmsUDPackage.udh, headOctets, h]

theorem front_of_ne_nil {userData : SmsUDPackage} (scheme : DataCodingScheme)
    (h : userData.header ≠ []) :
    userData.front scheme = UInt8.ofNat (userData.udl scheme) ::
      UInt8.ofNat userData.udh.length :: userData.udh := by
  have hpos := List.length_pos_iff.mpr h
  simp [SmsUDPackage.front, SmsUDPackage.udh, headOctets, hpos]

theorem three_le_length_udh {userData : SmsUDPackage}
    (hplain : userData.header.all SmsUDH.isPlain = true) (hne : userData.header ≠ []) :
    3 ≤ userData.udh.length := by
  unfold SmsUDPackage.udh
  cases hheader : userData.header with
  | nil => exact absurd hheader hne
  | cons header headers =>
      rw [hheader, List.all_cons, Bool.and_eq_true] at hplain
      have hthree := three_le_length_headerOctets hplain.1
      rw [List.flatMap_cons, List.length_append]
      omega

theorem eq_zero_of_getD {xs : List UInt8} (h : ∀ i, xs.getD i 0 = 0) : ∀ c ∈ xs, c = 0 := by
  intro c hc
  obtain ⟨i, hi, rfl⟩ := List.mem_iff_getElem.mp hc
  simpa [List.getD_eq_getElem?_getD, hi] using h i

theorem ReadHead.of_cons {bHeaderInd : Bool} {xs : List UInt8} {header : List SmsUDH} {udhl : Nat}
    {rest : List UInt8} (h : ReadHead bHeaderInd xs header udhl rest) (hne : header ≠ []) :
    bHeaderInd = true ∧ ∃ oneByte used, udhl = oneByte.toNat ∧ xs = oneByte :: used ++ rest ∧
      ReadAll header used := by
  cases bHeaderInd with
  | true => exact ⟨rfl, h⟩
  | false => exact absurd h.1 hne

/-- Without headers the flag costs one octet. -/
theorem ReadHead.of_nil {bHeaderInd : Bool} {xs : List UInt8} {udhl : Nat} {rest : List UInt8}
    (h : ReadHead bHeaderInd xs [] udhl rest) :
    bHeaderInd = false ∧ udhl = 0 ∧ rest = xs ∨
      bHeaderInd = true ∧ ∃ oneByte, udhl = oneByte.toNat ∧ xs = oneByte :: rest := by
  cases bHeaderInd with
  | false => exact .inl ⟨rfl, h.2.1, h.2.2⟩
  | true =>
      obtain ⟨oneByte, used, hudhl, hxs, hread⟩ := h
      cases hread
      exact .inr ⟨rfl, oneByte, hudhl, hxs⟩

/-- A text that starts one octet late does not come back. -/
theorem decodeGsmPdu_late {coder : TextCoder} {passed body : List UInt8} {bHeaderInd : Bool}
    {pTPUD pTPUD' : Option SmsTpud} {userData : SmsUDPackage} {b : SmsPduBuffer}
    (hbody : body.length =
      (headFillBits userData.udh.length + 7 * userData.data.length + 7) / 8)
    (hsize : passed.length + (userData.front .dataCoding7Bit ++ body).length ≤ 256) :
    decodeGsmPdu coder (cursor passed (userData.front .dataCoding7Bit ++ body).tail) bHeaderInd
      pTPUD ≠ some (userData, pTPUD', b) := by
  intro h
  obtain ⟨udl, xs', udhl, rest, hxs, hread, hcount⟩ :=
    decodeGsmPdu_sound (by rw [List.length_tail]; omega) h
  have hfill := headFillBits_lt userData.udh.length
  by_cases hnil : userData.header = []
  · obtain ⟨hfront, hudh⟩ := front_of_nil .dataCoding7Bit hnil
    rw [hfront, List.singleton_append, List.tail_cons] at hxs
    rw [hudh, hxs, List.length_nil, show headFillBits 0 = 0 from rfl, List.length_cons] at hbody
    rw [hnil] at hread
    obtain ⟨-, rfl, rfl⟩ | ⟨-, oneByte, -, rfl⟩ := hread.of_nil
    · obtain hzero | hle | ⟨rfl, hone, hfillOne⟩ := hcount
      · simp [hzero] at hbody
      · omega
      · simp [septetCount] at hfillOne
    · rw [List.length_cons] at hbody
      obtain hzero | hle | ⟨rfl, hone, -⟩ := hcount
      · simp [hzero] at hbody
      · omega
      · simp only [List.length_nil] at hbody
        omega
  · rw [front_of_ne_nil _ hnil, List.cons_append, List.tail_cons, List.cons_append,
      List.cons.injEq] at hxs
    obtain ⟨-, rfl⟩ := hxs
    obtain ⟨-, oneByte, used, -, hused, hall⟩ := hread.of_cons hnil
    have hlate : used ++ rest = (userData.udh ++ body).drop 1 := by rw [hused]; rfl
    cases hplain : userData.header.all SmsUDH.isPlain with
    | true => exact hall.false_of_late hnil (by simpa using hplain) hlate
    | false =>
        apply hall.false_of_septets hplain hlate hfill hbody
        obtain hzero | hle | ⟨hrest, hone, -⟩ := hcount
        · exact .inl (by simp [hzero])
        · exact .inr (.inl hle)
        · exact .inr (.inr ⟨hrest, hone, by omega⟩)

/-- Which texts come back. -/
theorem decodeGsmPdu_kept {coder : TextCoder} {passed body : List UInt8} {bHeaderInd : Bool}
    {pTPUD pTPUD' : Option SmsTpud} {userData : SmsUDPackage} {b : SmsPduBuffer}
    (hfits : userData.Fits .dataCoding7Bit)
    (hbody : body.length =
      (headFillBits userData.udh.length + 7 * userData.data.length + 7) / 8)
    (hsize : passed.length + (userData.front .dataCoding7Bit ++ body).length ≤ 256)
    (h : decodeGsmPdu coder (cursor passed (userData.front .dataCoding7Bit ++ body)) bHeaderInd
      pTPUD = some (userData, pTPUD', b)) :
    userData.Kept .dataCoding7Bit bHeaderInd := by
  obtain ⟨udl, xs', udhl, rest, hxs, hread, hcount⟩ := decodeGsmPdu_sound hsize h
  have hfill := headFillBits_lt userData.udh.length
  have hlength : userData.udl .dataCoding7Bit ≤ 160 := hfits.length
  have hudl : (UInt8.ofNat (userData.udl .dataCoding7Bit)).toNat =
      septetLength userData.udh.length userData.data.length := by
    rw [UInt8.toNat_ofNat', Nat.mod_eq_of_lt (by omega)]
    rfl
  by_cases hnil : userData.header = []
  · obtain ⟨hfront, hudh⟩ := front_of_nil .dataCoding7Bit hnil
    rw [hfront, List.singleton_append, List.cons.injEq] at hxs
    obtain ⟨rfl, rfl⟩ := hxs
    rw [hudh, List.length_nil] at hudl
    rw [hudh, List.length_nil, show headFillBits 0 = 0 from rfl] at hbody
    rw [hnil] at hread
    obtain ⟨rfl, -, -⟩ | ⟨-, oneByte, rfl, rfl⟩ := hread.of_nil
    · exact ⟨by simp [hnil], fun hne => absurd hnil hne, by simp, fun hne => absurd hnil hne⟩
    · exfalso
      rw [List.length_cons] at hbody
      obtain hzero | hle | ⟨-, hone, hfillOne⟩ := hcount
      · simp [hzero] at hbody
      · omega
      · have hnone : ¬ (oneByte.toNat > 0 ∧ (oneByte.toNat + 1) * 8 ≤ 1 * 7) := by omega
        rw [hudl, hone, show septetLength 0 1 = 1 from rfl, septetCount, if_neg hnone] at hfillOne
        simp at hfillOne
  · rw [front_of_ne_nil _ hnil, List.cons_append, List.cons.injEq] at hxs
    obtain ⟨rfl, rfl⟩ := hxs
    obtain ⟨hind, oneByte, used, rfl, hused, hall⟩ := hread.of_cons hnil
    rw [List.cons_append, List.cons_append, List.cons.injEq] at hused
    obtain ⟨rfl, hused⟩ := hused
    refine ⟨?_, fun _ => hind, fun hempty => absurd hempty hnil, fun _ h8 => by simp at h8⟩
    cases hplain : userData.header.all SmsUDH.isPlain with
    | true => rfl
    | false =>
        exfalso
        apply hall.false_of_septets (k := 0) hplain (by rw [← hused]; rfl) hfill hbody
        obtain hzero | hle | ⟨hrest, hone, hfillOne⟩ := hcount
        · exact .inl (by simp [hzero])
        · exact .inr (.inl hle)
        · refine .inr (.inr ⟨hrest, hone, fun _ => ?_⟩)
          have hoctets := length_flatMap_headerOctets_le userData.header
          have hheaders := hfits.headers
          have hudhl : (UInt8.ofNat userData.udh.length).toNat = userData.udh.length := by
            rw [UInt8.toNat_ofNat', Nat.mod_eq_of_lt]
            change userData.udh.length ≤ _ at hoctets
            omega
          rw [hudl, hudhl, septetCount_septetLength] at hfillOne
          simp only at hfillOne
          omega

theorem bodyLength_le (udl udhl : Nat) : bodyLength udl udhl ≤ udl := by
  unfold bodyLength
  split <;> omega

/-- Octets that are read some places behind where they stand are zero. -/
theorem getD_eq_zero_of_drop {data rest : List UInt8} {k skip : Nat} (hpos : 0 < k + skip)
    (hrest : rest = data.drop k)
    (hdata : ∀ i < data.length, data.getD i 0 = rest.getD (skip + i) 0) :
    ∀ i, data.getD i 0 = 0 := by
  apply getD_eq_zero_of_shift (k := k + skip) hpos
  intro i hi
  rw [hdata i hi, hrest, getD_drop, Nat.add_assoc]

/-- Octets that start one octet late do not come back. -/
theorem decodeUserDataPdu_octets_late {coder : TextCoder} {passed : List UInt8}
    {bHeaderInd : Bool} {scheme : DataCodingScheme} {pTPUD pTPUD' : Option SmsTpud}
    {userData : SmsUDPackage} {b : SmsPduBuffer}
    (hscheme : scheme = .dataCoding8Bit ∨ scheme = .dataCodingUcs2)
    (hsize : passed.length + (userData.front scheme ++ userData.data).length ≤ 256) :
    decodeUserDataPdu coder (cursor passed (userData.front scheme ++ userData.data).tail)
      bHeaderInd scheme pTPUD ≠ some (userData, pTPUD', b) := by
  intro h
  have hpos : 0 < (userData.front scheme ++ userData.data).length := by
    rw [List.length_append, length_front]
    unfold headLength
    split <;> omega
  obtain ⟨udl, xs', hxs, udhl, rest, hread, hlen, hdata⟩ :=
    decodeUserDataPdu_octets_sound hscheme (by rw [List.length_tail]; omega) h
  rw [← hlen] at hdata
  by_cases hnil : userData.header = []
  · rw [(front_of_nil scheme hnil).1, List.singleton_append, List.tail_cons] at hxs
    rw [hnil] at hread
    have hfirst : userData.data.getD 0 0 = 0 := by
      obtain ⟨-, -, rfl⟩ | ⟨-, oneByte, -, rfl⟩ := hread.of_nil
      · exact getD_eq_zero_of_drop (k := 1) (by omega) (by rw [hxs]; rfl) hdata 0
      · exact getD_eq_zero_of_drop (k := 2) (by omega) (by rw [hxs]; rfl) hdata 0
    have hle := bodyLength_le udl.toNat udhl
    rw [hxs, List.getD_cons_zero] at hfirst
    rw [hxs, List.length_cons] at hlen
    rw [hfirst, UInt8.toNat_zero] at hle hlen
    omega
  · rw [front_of_ne_nil _ hnil, List.cons_append, List.tail_cons, List.cons_append,
      List.cons.injEq] at hxs
    obtain ⟨-, rfl⟩ := hxs
    obtain ⟨-, oneByte, used, -, hused, hall⟩ := hread.of_cons hnil
    have hlate : used ++ rest = (userData.udh ++ userData.data).drop 1 := by rw [hused]; rfl
    cases hplain : userData.header.all SmsUDH.isPlain with
    | true => exact hall.false_of_late hnil (by simpa using hplain) hlate
    | false => exact hall.false_of_octets hplain hlate hdata

/-- Which octets come back. -/
theorem decodeUserDataPdu_octets_kept {coder : TextCoder} {passed : List UInt8}
    {bHeaderInd : Bool} {scheme : DataCodingScheme} {pTPUD pTPUD' : Option SmsTpud}
    {userData : SmsUDPackage} {b : SmsPduBuffer} (hfits : userData.Fits scheme)
    (hscheme : scheme = .dataCoding8Bit ∨ scheme = .dataCodingUcs2)
    (hsize : passed.length + (userData.front scheme ++ userData.data).length < 256)
    (h : decodeUserDataPdu coder (cursor passed (userData.front scheme ++ userData.data))
      bHeaderInd scheme pTPUD = some (userData, pTPUD', b)) :
    userData.Kept scheme bHeaderInd := by
  have hnot : scheme ≠ .dataCoding7Bit := by
    obtain rfl | rfl := hscheme <;> simp
  have hlength : userData.udl scheme ≤ 140 := by simpa [hnot] using hfits.length
  have hudl : (UInt8.ofNat (userData.udl scheme)).toNat =
      octetLength userData.udh.length userData.data.length := by
    rw [UInt8.toNat_ofNat', Nat.mod_eq_of_lt (by omega)]
    simp [SmsUDPackage.udl, hnot]
  obtain ⟨udl, xs', hxs, udhl, rest, hread, hlen, hdata⟩ :=
    decodeUserDataPdu_octets_sound hscheme hsize h
  rw [← hlen] at hdata
  by_cases hnil : userData.header = []
  · rw [(front_of_nil scheme hnil).1, List.singleton_append, List.cons.injEq] at hxs
    obtain ⟨-, rfl⟩ := hxs
    rw [hnil] at hread
    refine ⟨by simp [hnil], fun hne => absurd hnil hne, fun _ hind => ?_,
      fun hne => absurd hnil hne⟩
    obtain ⟨hfalse, -, -⟩ | ⟨-, oneByte, -, hcons⟩ := hread.of_nil
    · simp [hfalse] at hind
    · have hzero := getD_eq_zero_of_drop (k := 1) (by omega) (by rw [hcons]; rfl) hdata
      exact ⟨hnot, by simp [hcons], eq_zero_of_getD hzero⟩
  · rw [front_of_ne_nil _ hnil, List.cons_append, List.cons.injEq] at hxs
    obtain ⟨rfl, rfl⟩ := hxs
    obtain ⟨hind, oneByte, used, rfl, hused, hall⟩ := hread.of_cons hnil
    rw [List.cons_append, List.cons_append, List.cons.injEq] at hused
    obtain ⟨rfl, hused⟩ := hused
    have heq : used ++ rest = (userData.udh ++ userData.data).drop 0 := hused.symm
    have hplain : userData.header.all SmsUDH.isPlain = true := by
      cases hplain : userData.header.all SmsUDH.isPlain with
      | true => rfl
      | false => exact (hall.false_of_octets hplain heq hdata).elim
    refine ⟨hplain, fun _ => hind, fun hempty => absurd hempty hnil, fun _ h8 => ?_⟩
    -- the reader skips one octet of the body
    have hpos := three_le_length_udh hplain hnil
    have hudhl : (UInt8.ofNat userData.udh.length).toNat = userData.udh.length := by
      rw [UInt8.toNat_ofNat', Nat.mod_eq_of_lt]
      simp [front_of_ne_nil _ hnil] at hsize
      omega
    have hskip : bodySkip scheme (UInt8.ofNat (userData.udl scheme)).toNat
        (UInt8.ofNat userData.udh.length).toNat = 1 := by
      rw [hudl, hudhl, octetLength, if_pos (by omega), bodySkip,
        if_pos ⟨h8, by omega, by omega⟩]
    rw [hskip] at hdata
    exact eq_zero_of_getD (getD_eq_zero_of_drop (by omega) (hall.rest_eq_drop heq) hdata)

/-! ## Reading back -/

theorem decodeGsmHeadPdu_front (coder : TextCoder) {passed body : List UInt8} {bHeaderInd : Bool}
    (pTPUD : Option SmsTpud) {userData : SmsUDPackage} (hfits : userData.Fits .dataCoding7Bit)
    (hplain : userData.header.all SmsUDH.isPlain = true)
    (hind : bHeaderInd = true ↔ userData.header ≠ [])
    (hsize : passed.length + (userData.front .dataCoding7Bit ++ body).length ≤ 256) :
    ∃ pTPUD', decodeGsmHeadPdu coder (cursor passed (userData.front .dataCoding7Bit ++ body))
        bHeaderInd pTPUD =
      some ((userData.header, userData.data.length, headFillBits userData.udh.length), pTPUD',
        cursor (passed ++ userData.front .dataCoding7Bit) body) := by
  have hlength : userData.udl .dataCoding7Bit ≤ 160 := hfits.length
  have hudl : (UInt8.ofNat (userData.udl .dataCoding7Bit)).toNat = userData.udl .dataCoding7Bit := by
    rw [UInt8.toNat_ofNat', Nat.mod_eq_of_lt (by omega)]
  have hsmall : ¬ UInt8.ofNat (userData.udl .dataCoding7Bit) > 160 := by
    rw [gt_iff_lt, UInt8.lt_iff_toNat_lt, hudl]
    simpa using hlength
  have hcount : septetCount (userData.udl .dataCoding7Bit) userData.udh.length = _ :=
    septetCount_septetLength userData.udh.length userData.data.length
  unfold septetCount at hcount
  by_cases hnil : userData.header = []
  · obtain ⟨hfront, hudh⟩ := front_of_nil .dataCoding7Bit hnil
    have hfalse : bHeaderInd = false := by simpa [hnil] using hind
    have hudl0 : userData.udl .dataCoding7Bit = userData.data.length := by
      simp [SmsUDPackage.udl, hudh, septetLength]
    rw [hfront, hfalse, hudh, ← hudl0]
    simp only [decodeGsmHeadPdu, List.singleton_append, readByte_cursor_cons, Option.bind_eq_bind,
      Option.bind_some, if_neg hsmall, Bool.false_eq_true, if_false, Nat.lt_irrefl, false_and,
      gt_iff_lt, hnil, hudl]
    exact ⟨_, rfl⟩
  · have htrue : bHeaderInd = true := hind.mpr hnil
    have hpos := three_le_length_udh hplain hnil
    have hfront := front_of_ne_nil .dataCoding7Bit hnil
    rw [hfront] at hsize
    simp only [List.length_append, List.length_cons] at hsize
    have hudhl : (UInt8.ofNat userData.udh.length).toNat = userData.udh.length := by
      rw [UInt8.toNat_ofNat', Nat.mod_eq_of_lt (by omega)]
    have hcurrent : (passed.length + 1 + 1) % 256 = passed.length + 1 + 1 := by omega
    have hheaders : decodeHeaders coder
        (fun b => b.index < passed.length + 1 + 1 + userData.udh.length)
        (fun _ b => b.index > b.getSize) 7
        (cursor (passed ++ [UInt8.ofNat (userData.udl .dataCoding7Bit)] ++
          [UInt8.ofNat userData.udh.length]) (userData.udh ++ body)) = _ :=
      decodeHeaders_append coder (passed.length + 1 + 1 + userData.udh.length) _ userData.header
        (by simpa using hplain) _ body hfits.headers (fun p r _ => rfl)
        (fun p r p' r' _ _ => by simp) rfl (by simp [SmsUDPackage.udh])
    rw [hfront, htrue]
    simp only [decodeGsmHeadPdu, List.cons_append, readByte_cursor_cons, Option.bind_eq_bind,
      Option.bind_some, if_neg hsmall, if_true, cursor_index, List.length_append, List.length_cons,
      List.length_nil, Nat.zero_add, hcurrent, hudhl, hheaders, hudl]
    split at hcount
    · next hlong =>
        obtain ⟨hn, hfill⟩ := Prod.mk.inj hcount
        rw [if_pos hlong, hn, hfill]
        simp [SmsUDPackage.udh]
    · next hshort =>
        obtain ⟨hn, hfill⟩ := Prod.mk.inj hcount
        rw [if_neg hshort, ← hn, ← hfill]
        simp [SmsUDPackage.udh]

/-- A text that was packed behind its headers is read back, and the index stays
inside the buffer. -/
theorem decodeGsmPdu_pack (coder : TextCoder) {passed : List UInt8} {bHeaderInd : Bool}
    (pTPUD : Option SmsTpud) {userData : SmsUDPackage} (hfits : userData.Fits .dataCoding7Bit)
    (hplain : userData.header.all SmsUDH.isPlain = true)
    (hind : bHeaderInd = true ↔ userData.header ≠ [])
    (hsize : passed.length + (userData.front .dataCoding7Bit ++
      Septet.pack (headFillBits userData.udh.length) 0 userData.data).length ≤ 256) :
    ∃ pTPUD' b, decodeGsmPdu coder (cursor passed (userData.front .dataCoding7Bit ++
        Septet.pack (headFillBits userData.udh.length) 0 userData.data)) bHeaderInd pTPUD =
      some (userData, pTPUD', b) ∧ b.index ≤ passed.length + (userData.front .dataCoding7Bit ++
        Septet.pack (headFillBits userData.udh.length) 0 userData.data).length := by
  have hlength : septetLength userData.udh.length userData.data.length ≤ 160 := hfits.length
  have hdata := le_septetLength userData.udh.length userData.data.length
  have hfill := headFillBits_lt userData.udh.length
  obtain ⟨pTPUD', hhead⟩ := decodeGsmHeadPdu_front coder pTPUD hfits hplain hind hsize
  have hpack := Septet.length_pack userData.data 0 (k := headFillBits userData.udh.length) (by omega)
  have hbody : headFillBits userData.udh.length = 0 ∨
      Septet.pack (headFillBits userData.udh.length) 0 userData.data ≠ [] := by
    by_cases hzero : headFillBits userData.udh.length = 0
    · exact .inl hzero
    · exact .inr (List.ne_nil_of_length_pos (by omega))
  simp only [List.length_append] at hsize
  have hcount : userData.data.length < 161 := by omega
  obtain ⟨passed', rest, hunpack, htotal⟩ := unpack7bitChar_cursor
    (passed ++ userData.front .dataCoding7Bit) _ hcount (by omega) hbody
    (by rw [List.length_append]; omega)
  have hseptets : ∀ s ∈ userData.data, s.toNat < 128 := fun s hs => by
    simpa using UInt8.lt_iff_toNat_lt.mp (hfits.septets rfl s hs)
  have hback := Septet.unpack_pack userData.data [] (k := headFillBits userData.udh.length) (p := 0)
    (by omega) (by simp) hseptets
  rw [List.append_nil] at hback
  refine ⟨pTPUD', cursor passed' rest, ?_, ?_⟩
  · rw [decodeGsmPdu, hhead]
    simp only [Option.bind_eq_bind, Option.bind_some, hunpack, hback]
  · have hlen := congrArg List.length htotal
    simp only [List.length_append] at hlen
    simp only [cursor_index, List.length_append]
    omega

theorem eq_of_getD {xs ys : List UInt8} (hlen : xs.length = ys.length)
    (h : ∀ i < xs.length, xs.getD i 0 = ys.getD i 0) : xs = ys := by
  apply List.ext_getElem hlen
  intro i hi hi'
  simpa [List.getD_eq_getElem?_getD, hi, hi'] using h i hi

/-- A body of octets that is padded with zeros where it ends too early. -/
theorem decodeOctetBody_eq (passed rest data : List UInt8) (hrest : rest.length < 256)
    (h : ∀ i < data.length, data.getD i 0 = rest.getD i 0) :
    ∃ b, decodeOctetBody (cursor passed rest) data.length = (data, b) ∧
      b.index ≤ passed.length + rest.length := by
  obtain ⟨hlen, hget⟩ := decodeOctetBody_cursor passed rest data.length hrest
  refine ⟨(decodeOctetBody (cursor passed rest) data.length).2, ?_, ?_⟩
  · apply Prod.ext
    · apply eq_of_getD hlen
      intro i hi
      rw [hget i (by omega), h i (by omega)]
    · rfl
  · simp only [decodeOctetBody, moveForward, cursor_getSize, cursor_index, cursor_bitIndex]
    split
    · simp
    · split
      · simp_all
      · split
        · simp
        · simp
          omega

/-- Octets behind headers that are written in full are read back by the 8-bit
reader, when they are the octets it finds. -/
theorem decode8bitPduPartData_append (coder : TextCoder) (passed : List UInt8)
    {header : List SmsUDH} {rest data : List UInt8} {udl : Nat} (hplain : header.all SmsUDH.isPlain = true)
    (hheaders : header.length ≤ 7)
    (hsize : passed.length + 1 + (header.flatMap headerOctets).length + rest.length < 256)
    (hlen : data.length = bodyLength udl (header.flatMap headerOctets).length)
    (hdata : ∀ i < data.length, data.getD i 0 =
      rest.getD (bodySkip .dataCoding8Bit udl (header.flatMap headerOctets).length + i) 0) :
    ∃ b, decode8bitPduPartData coder (cursor passed
        (UInt8.ofNat (header.flatMap headerOctets).length ::
          (header.flatMap headerOctets ++ rest))) true udl = some (⟨header, data⟩, b) ∧
      b.index ≤ passed.length + 1 + (header.flatMap headerOctets).length + rest.length := by
  obtain ⟨udhl, hudhl⟩ : ∃ udhl, (header.flatMap headerOctets).length = udhl := ⟨_, rfl⟩
  rw [hudhl] at hsize hlen hdata ⊢
  have hoctet : (UInt8.ofNat udhl).toNat = udhl := by
    rw [UInt8.toNat_ofNat', Nat.mod_eq_of_lt (by omega)]
  have hread : decodeHeaders coder (fun b => b.index - (passed.length + 1) < udhl)
      (fun b b' => b'.index - b.index > udhl + 2) 7 (cursor (passed ++ [UInt8.ofNat udhl])
        (header.flatMap headerOctets ++ rest)) =
      some (header, cursor (passed ++ [UInt8.ofNat udhl] ++ header.flatMap headerOctets) rest) := by
    apply decodeHeaders_append coder (passed.length + 1 + udhl) (passed.length + 1 + udhl) header
      (by simpa using hplain) (passed ++ [UInt8.ofNat udhl]) rest hheaders
    · intro p r hp
      rw [List.length_append, List.length_singleton] at hp
      rw [decide_eq_decide, cursor_index]
      omega
    · intro p r p' r' hp hp'
      rw [List.length_append, List.length_singleton] at hp
      rw [decide_eq_false_iff_not, cursor_index, cursor_index]
      omega
    · simp [← hudhl]
    · omega
  obtain ⟨b, hbody, hindex⟩ := decodeOctetBody_eq
    (passed ++ [UInt8.ofNat udhl] ++ header.flatMap headerOctets ++
      rest.take (bodySkip .dataCoding8Bit udl udhl))
    (rest.drop (bodySkip .dataCoding8Bit udl udhl)) data (by simp; omega)
    (fun i hi => by rw [getD_drop, hdata i hi])
  refine ⟨b, ?_, ?_⟩
  · simp only [decode8bitPduPartData, if_true, readByte_cursor_cons, Option.bind_eq_bind,
      Option.bind_some, cursor_index, List.length_append, List.length_singleton, hoctet, hread,
      moveForward_bodySkip, ← hlen, hbody]
    rw [if_neg (by simp only [cursor_getSize, List.length_append, List.length_singleton]; omega)]
  · simp only [List.length_append, List.length_take, List.length_drop, List.length_singleton,
      hudhl] at hindex
    omega

theorem decodeUcs2PduPartData_append (coder : TextCoder) (passed : List UInt8)
    {header : List SmsUDH} {rest data : List UInt8} {current udl : Nat}
    (hplain : header.all SmsUDH.isPlain = true) (hheaders : header.length ≤ 7)
    (hcurrent : current + 1 = passed.length)
    (hsize : passed.length + 1 + (header.flatMap headerOctets).length + rest.length < 256)
    (hlen : data.length = bodyLength udl (header.flatMap headerOctets).length)
    (hdata : ∀ i < data.length, data.getD i 0 = rest.getD i 0) :
    ∃ b, decodeUcs2PduPartData coder (cursor passed
        (UInt8.ofNat (header.flatMap headerOctets).length ::
          (header.flatMap headerOctets ++ rest))) true current udl = some (⟨header, data⟩, b) ∧
      b.index ≤ passed.length + 1 + (header.flatMap headerOctets).length + rest.length := by
  obtain ⟨udhl, hudhl⟩ : ∃ udhl, (header.flatMap headerOctets).length = udhl := ⟨_, rfl⟩
  rw [hudhl] at hsize hlen ⊢
  have hoctet : (UInt8.ofNat udhl).toNat = udhl := by
    rw [UInt8.toNat_ofNat', Nat.mod_eq_of_lt (by omega)]
  have hread : decodeHeaders coder (fun b => b.index < udhl + current)
      (fun _ b' => b'.index > current + udhl + 2) 7 (cursor (passed ++ [UInt8.ofNat udhl])
        (header.flatMap headerOctets ++ rest)) =
      some (header, cursor (passed ++ [UInt8.ofNat udhl] ++ header.flatMap headerOctets) rest) := by
    apply decodeHeaders_append coder (udhl + current) (passed.length + 1 + udhl) header
      (by simpa using hplain) (passed ++ [UInt8.ofNat udhl]) rest hheaders
    · intro p r _
      rfl
    · intro p r p' r' _ hp'
      rw [decide_eq_false_iff_not, cursor_index]
      omega
    · simp [← hudhl]
    · omega
  obtain ⟨b, hbody, hindex⟩ := decodeOctetBody_eq
    (passed ++ [UInt8.ofNat udhl] ++ header.flatMap headerOctets) rest data (by omega) hdata
  refine ⟨b, ?_, ?_⟩
  · simp only [decodeUcs2PduPartData, if_true, readByte_cursor_cons, Option.bind_eq_bind,
      Option.bind_some, hoctet, hread, ← hlen, hbody]
    rw [if_neg (by simp)]
  · simp only [List.length_append, List.length_singleton, hudhl] at hindex
    omega

/-- Without the header flag the octets behind `UDL` are the body. -/
theorem decodePartData_append (coder : TextCoder) (passed data : List UInt8) (current : Nat)
    (hsize : passed.length + data.length < 256) :
    ∃ b, decode8bitPduPartData coder (cursor passed data) false data.length =
        some (⟨[], data⟩, b) ∧
      decodeUcs2PduPartData coder (cursor passed data) false current data.length =
        some (⟨[], data⟩, b) ∧ b.index ≤ passed.length + data.length := by
  obtain ⟨b, hbody, hindex⟩ := decodeOctetBody_eq passed data data (by omega)
    (fun _ _ => rfl)
  refine ⟨b, ?_, ?_, hindex⟩
  · simp [decode8bitPduPartData, bodyLength, hbody]
  · simp [decodeUcs2PduPartData, bodyLength, hbody]

/-- The 8-bit reader from its part behind `UDL`; the check on the octets kept
for WAP push passes when they are there. -/
theorem decode8bitPdu_of_partData {coder : TextCoder} {passed xs : List UInt8} {udl : Nat}
    {bHeaderInd : Bool} (pTPUD : Option SmsTpud) {userData : SmsUDPackage} {b : SmsPduBuffer}
    (hudl : udl ≤ 140) (hroom : udl ≤ xs.length)
    (h : decode8bitPduPartData coder (cursor (passed ++ [UInt8.ofNat udl]) xs) bHeaderInd udl =
      some (userData, b)) :
    ∃ pTPUD', decode8bitPdu coder (cursor passed (UInt8.ofNat udl :: xs)) bHeaderInd pTPUD =
      some (userData, pTPUD', b) := by
  have hoctet : (UInt8.ofNat udl).toNat = udl := by
    rw [UInt8.toNat_ofNat', Nat.mod_eq_of_lt (by omega)]
  have hsmall : ¬ UInt8.ofNat udl > 140 := by
    rw [gt_iff_lt, UInt8.lt_iff_toNat_lt, hoctet]
    simpa using hudl
  have hfit : ¬ (cursor (passed ++ [UInt8.ofNat udl]) xs).index + udl >
      (cursor (passed ++ [UInt8.ofNat udl]) xs).getSize := by
    simp only [cursor_index, cursor_getSize]
    omega
  simp only [decode8bitPdu, readByte_cursor_cons, Option.bind_eq_bind, Option.bind_some,
    if_neg hsmall, hoctet, if_neg hfit, h]
  split
  · exact ⟨_, rfl⟩
  · exact ⟨_, rfl⟩

theorem decodeUcs2Pdu_of_partData {coder : TextCoder} {passed xs : List UInt8} {udl : Nat}
    {bHeaderInd : Bool} (pTPUD : Option SmsTpud) {userData : SmsUDPackage} {b : SmsPduBuffer}
    (hudl : udl ≤ 140) (hroom : udl ≤ xs.length)
    (h : decodeUcs2PduPartData coder (cursor (passed ++ [UInt8.ofNat udl]) xs) bHeaderInd
      passed.length udl = some (userData, b)) :
    ∃ pTPUD', decodeUcs2Pdu coder (cursor passed (UInt8.ofNat udl :: xs)) bHeaderInd pTPUD =
      some (userData, pTPUD', b) := by
  have hoctet : (UInt8.ofNat udl).toNat = udl := by
    rw [UInt8.toNat_ofNat', Nat.mod_eq_of_lt (by omega)]
  have hsmall : ¬ (UInt8.ofNat udl > 140 ∨
      udl + (cursor (passed ++ [UInt8.ofNat udl]) xs).index - 1 >
        (cursor (passed ++ [UInt8.ofNat udl]) xs).getSize) := by
    rw [gt_iff_lt, UInt8.lt_iff_toNat_lt, hoctet]
    simp only [UInt8.reduceToNat, cursor_index, cursor_getSize, List.length_append,
      List.length_singleton]
    omega
  have hfit : ¬ (cursor (passed ++ [UInt8.ofNat udl]) xs).index + udl >
      (cursor (passed ++ [UInt8.ofNat udl]) xs).getSize := by
    simp only [cursor_index, cursor_getSize]
    omega
  have hindex : (cursor passed (UInt8.ofNat udl :: xs)).index = passed.length := rfl
  simp only [decodeUcs2Pdu, readByte_cursor_cons, Option.bind_eq_bind, Option.bind_some, hoctet,
    if_neg hsmall, if_neg hfit, hindex, h]
  split
  · exact ⟨_, rfl⟩
  · exact ⟨_, rfl⟩

theorem getD_of_forall_eq_zero {xs : List UInt8} (h : ∀ c ∈ xs, c = 0) (i : Nat) :
    xs.getD i 0 = 0 := by
  by_cases hi : i < xs.length
  · rw [List.getD_eq_getElem _ _ hi]
    exact h _ (List.getElem_mem hi)
  · exact List.getD_eq_default _ _ (Nat.not_lt.mp hi)

/-- Octets that are kept are read back, and the index stays inside the buffer. -/
theorem decodeUserDataPdu_octets_back (coder : TextCoder) {passed : List UInt8}
    {bHeaderInd : Bool} {scheme : DataCodingScheme} (pTPUD : Option SmsTpud)
    {userData : SmsUDPackage} (hfits : userData.Fits scheme)
    (hscheme : scheme = .dataCoding8Bit ∨ scheme = .dataCodingUcs2)
    (hkept : userData.Kept scheme bHeaderInd)
    (hsize : passed.length + (userData.front scheme ++ userData.data).length < 256) :
    ∃ pTPUD' b, decodeUserDataPdu coder (cursor passed (userData.front scheme ++ userData.data))
        bHeaderInd scheme pTPUD = some (userData, pTPUD', b) ∧
      b.index ≤ passed.length + (userData.front scheme ++ userData.data).length := by
  have hnot : scheme ≠ .dataCoding7Bit := by
    obtain rfl | rfl := hscheme <;> simp
  have hlength : userData.udl scheme ≤ 140 := by simpa [hnot] using hfits.length
  have hudl : userData.udl scheme = octetLength userData.udh.length userData.data.length := by
    simp [SmsUDPackage.udl, hnot]
  obtain ⟨passed', hpassed⟩ : ∃ passed', passed ++ [UInt8.ofNat (userData.udl scheme)] = passed' :=
    ⟨_, rfl⟩
  have hlen' : passed'.length = passed.length + 1 := by simp [← hpassed]
  -- the part behind `UDL` is enough, for both readers
  suffices hpart : ∃ xs b, userData.front scheme ++ userData.data =
      UInt8.ofNat (userData.udl scheme) :: xs ∧ userData.udl scheme ≤ xs.length ∧
      b.index ≤ passed'.length + xs.length ∧
      (scheme = .dataCoding8Bit → decode8bitPduPartData coder (cursor passed' xs) bHeaderInd
        (userData.udl scheme) = some (userData, b)) ∧
      (scheme = .dataCodingUcs2 → decodeUcs2PduPartData coder (cursor passed' xs) bHeaderInd
        passed.length (userData.udl scheme) = some (userData, b)) by
    obtain ⟨xs, b, hxs, hroom, hindex, h8, h16⟩ := hpart
    rw [hxs]
    obtain rfl | rfl := hscheme
    · obtain ⟨pTPUD', hdecode⟩ := decode8bitPdu_of_partData pTPUD hlength hroom
        (by rw [hpassed]; exact h8 rfl)
      exact ⟨pTPUD', b, hdecode, by simp only [List.length_cons]; omega⟩
    · obtain ⟨pTPUD', hdecode⟩ := decodeUcs2Pdu_of_partData pTPUD hlength hroom
        (by rw [hpassed]; exact h16 rfl)
      exact ⟨pTPUD', b, hdecode, by simp only [List.length_cons]; omega⟩
  -- with the header flag, `rest` is what stands behind the octets of the headers
  have hflagged (rest : List UInt8) (hind : bHeaderInd = true)
      (hxs : userData.front scheme ++ userData.data = UInt8.ofNat (userData.udl scheme) ::
        UInt8.ofNat userData.udh.length :: (userData.udh ++ rest))
      (hlen : userData.data.length = bodyLength (userData.udl scheme) userData.udh.length)
      (hdata : ∀ i < userData.data.length, userData.data.getD i 0 =
        rest.getD (bodySkip scheme (userData.udl scheme) userData.udh.length + i) 0)
      (hroom : userData.udl scheme ≤ 1 + userData.udh.length + rest.length) :
      ∃ xs b, userData.front scheme ++ userData.data =
        UInt8.ofNat (userData.udl scheme) :: xs ∧ userData.udl scheme ≤ xs.length ∧
        b.index ≤ passed'.length + xs.length ∧
        (scheme = .dataCoding8Bit → decode8bitPduPartData coder (cursor passed' xs) bHeaderInd
          (userData.udl scheme) = some (userData, b)) ∧
        (scheme = .dataCodingUcs2 → decodeUcs2PduPartData coder (cursor passed' xs) bHeaderInd
          passed.length (userData.udl scheme) = some (userData, b)) := by
    have hsize' : passed'.length + 1 + userData.udh.length + rest.length < 256 := by
      rw [hxs] at hsize
      simp only [List.length_cons, List.length_append] at hsize
      omega
    obtain rfl | rfl := hscheme
    · obtain ⟨b, hdecode, hindex⟩ := decode8bitPduPartData_append coder passed'
        hkept.plain hfits.headers hsize' hlen hdata
      change b.index ≤ passed'.length + 1 + userData.udh.length + rest.length at hindex
      exact ⟨_, b, hxs, by simp; omega, by simp only [List.length_cons, List.length_append]; omega,
        fun _ => hind ▸ hdecode, by simp⟩
    · obtain ⟨b, hdecode, hindex⟩ := decodeUcs2PduPartData_append coder passed'
        hkept.plain hfits.headers hlen'.symm hsize' hlen (fun i hi => by
          simpa [bodySkip] using hdata i hi)
      change b.index ≤ passed'.length + 1 + userData.udh.length + rest.length at hindex
      exact ⟨_, b, hxs, by simp; omega, by simp only [List.length_cons, List.length_append]; omega,
        by simp, fun _ => hind ▸ hdecode⟩
  by_cases hnil : userData.header = []
  · obtain ⟨hfront, hudh⟩ := front_of_nil scheme hnil
    have hudl0 : userData.udl scheme = userData.data.length := by rw [hudl, hudh]; rfl
    cases hind : bHeaderInd with
    | false =>
        have heta : userData = ⟨[], userData.data⟩ := by rw [← hnil]
        rw [hfront] at hsize ⊢
        simp only [List.length_append, List.length_singleton] at hsize
        obtain ⟨b, h8, h16, hindex⟩ := decodePartData_append coder passed' userData.data
          passed.length (by omega)
        rw [← heta, ← hudl0] at h8 h16
        exact ⟨userData.data, b, rfl, by omega, hindex, fun _ => h8, fun _ => h16⟩
    | true =>
        rw [← hind]
        obtain ⟨-, hne, hzero⟩ := hkept.noFlag hnil hind
        obtain ⟨c, rest, hcons⟩ := List.exists_cons_of_ne_nil hne
        have hc : c = 0 := hzero c (by simp [hcons])
        apply hflagged rest hind
        · rw [hfront, hudh, hcons, hc]
          rfl
        · rw [hudl0, hudh]
          rfl
        · intro i _
          rw [getD_of_forall_eq_zero hzero,
            getD_of_forall_eq_zero (fun d hd => hzero d (by simp [hcons, hd]))]
        · rw [hudl0, hudh, hcons]
          simp only [List.length_cons, List.length_nil]
          omega
  · have hpos := three_le_length_udh hkept.plain hnil
    have hudl1 : userData.udl scheme = userData.udh.length + 1 + userData.data.length := by
      rw [hudl, octetLength, if_pos (by omega)]
    apply hflagged userData.data (hkept.flag hnil)
    · rw [front_of_ne_nil scheme hnil]
      rfl
    · rw [hudl1, bodyLength, if_pos (by omega)]
      omega
    · intro i _
      by_cases h8 : scheme = .dataCoding8Bit
      · have hzero := hkept.skip hnil h8
        rw [getD_of_forall_eq_zero hzero, getD_of_forall_eq_zero hzero]
      · simp [bodySkip, h8]
    · omega

/-! ## Both kinds -/

/-- The body that user data is written with. -/
def BodyOf (userData : SmsUDPackage) (scheme : DataCodingScheme) (body : List UInt8) : Prop :=
  if scheme = .dataCoding7Bit then
    body.length = (headFillBits userData.udh.length + 7 * userData.data.length + 7) / 8 ∧
      (userData.header.all SmsUDH.isPlain = true →
        body = Septet.pack (headFillBits userData.udh.length) 0 userData.data)
  else body = userData.data

theorem encodeUserDataPdu_layout {userData : SmsUDPackage} {scheme : DataCodingScheme}
    {passed : List UInt8} {m : Nat} {b : SmsPduBuffer} (hfits : userData.Fits scheme)
    (hm : 200 ≤ m) (hsize : passed.length + m = 256)
    (h : encodeUserDataPdu (cursor passed (List.replicate m 0)) userData scheme [] = some b) :
    scheme.isWritten = true ∧ ∃ body rest, BodyOf userData scheme body ∧
      b = cursor (passed ++ (userData.front scheme ++ body)) rest := by
  cases scheme with
  | dataCoding7Bit =>
      obtain ⟨body, rest, hb, hlen, hpack⟩ := encodeUserDataPdu_septets hfits hm hsize h
      exact ⟨rfl, body, rest, ⟨hlen, hpack⟩, by rw [hb, List.append_assoc]⟩
  | dataCoding8Bit =>
      obtain ⟨rest, hb⟩ := encodeUserDataPdu_octets hfits hm (.inl rfl) h
      exact ⟨rfl, userData.data, rest, rfl, by rw [hb, List.append_assoc]⟩
  | dataCodingUcs2 =>
      obtain ⟨rest, hb⟩ := encodeUserDataPdu_octets hfits hm (.inr rfl) h
      exact ⟨rfl, userData.data, rest, rfl, by rw [hb, List.append_assoc]⟩
  | dataCodingAuto => simp [encodeUserDataPdu] at h
  | dataCodingEuckr => simp [encodeUserDataPdu] at h
  | dataCodingAscii7Bit => simp [encodeUserDataPdu] at h

section Reading

variable {passed body : List UInt8} {bHeaderInd : Bool} {scheme : DataCodingScheme}
  {pTPUD pTPUD' : Option SmsTpud} {userData : SmsUDPackage} {b : SmsPduBuffer}

/-- User data that starts one octet late does not come back. -/
theorem decodeUserDataPdu_late {coder : TextCoder} (hscheme : scheme.isWritten = true)
    (hbody : BodyOf userData scheme body)
    (hsize : passed.length + (userData.front scheme ++ body).length ≤ 256) :
    decodeUserDataPdu coder (cursor passed (userData.front scheme ++ body).tail) bHeaderInd scheme
      pTPUD ≠ some (userData, pTPUD', b) := by
  cases scheme with
  | dataCoding7Bit => exact decodeGsmPdu_late hbody.1 hsize
  | dataCoding8Bit =>
      obtain rfl : body = userData.data := hbody
      exact decodeUserDataPdu_octets_late (.inl rfl) hsize
  | dataCodingUcs2 =>
      obtain rfl : body = userData.data := hbody
      exact decodeUserDataPdu_octets_late (.inr rfl) hsize
  | dataCodingAuto => simp [DataCodingScheme.isWritten] at hscheme
  | dataCodingEuckr => simp [DataCodingScheme.isWritten] at hscheme
  | dataCodingAscii7Bit => simp [DataCodingScheme.isWritten] at hscheme

/-- User data that comes back is kept. -/
theorem decodeUserDataPdu_kept {coder : TextCoder} (hscheme : scheme.isWritten = true)
    (hfits : userData.Fits scheme) (hbody : BodyOf userData scheme body)
    (hsize : passed.length + (userData.front scheme ++ body).length < 256)
    (h : decodeUserDataPdu coder (cursor passed (userData.front scheme ++ body)) bHeaderInd scheme
      pTPUD = some (userData, pTPUD', b)) : userData.Kept scheme bHeaderInd := by
  cases scheme with
  | dataCoding7Bit => exact decodeGsmPdu_kept hfits hbody.1 (by omega) h
  | dataCoding8Bit =>
      obtain rfl : body = userData.data := hbody
      exact decodeUserDataPdu_octets_kept hfits (.inl rfl) hsize h
  | dataCodingUcs2 =>
      obtain rfl : body = userData.data := hbody
      exact decodeUserDataPdu_octets_kept hfits (.inr rfl) hsize h
  | dataCodingAuto => simp [DataCodingScheme.isWritten] at hscheme
  | dataCodingEuckr => simp [DataCodingScheme.isWritten] at hscheme
  | dataCodingAscii7Bit => simp [DataCodingScheme.isWritten] at hscheme

/-- User data that is kept comes back. -/
theorem decodeUserDataPdu_of_kept (coder : TextCoder) (passed : List UInt8)
    (pTPUD : Option SmsTpud)
    (hscheme : scheme.isWritten = true) (hfits : userData.Fits scheme)
    (hbody : BodyOf userData scheme body)
    (hsize : passed.length + (userData.front scheme ++ body).length < 256)
    (hkept : userData.Kept scheme bHeaderInd) :
    ∃ pTPUD' b, decodeUserDataPdu coder (cursor passed (userData.front scheme ++ body)) bHeaderInd
        scheme pTPUD = some (userData, pTPUD', b) ∧
      b.index ≤ passed.length + (userData.front scheme ++ body).length := by
  cases scheme with
  | dataCoding7Bit =>
      have hind : bHeaderInd = true ↔ userData.header ≠ [] :=
        ⟨fun hind hnil => (hkept.noFlag hnil hind).1 rfl, hkept.flag⟩
      obtain rfl := hbody.2 hkept.plain
      exact decodeGsmPdu_pack coder pTPUD hfits hkept.plain hind (by omega)
  | dataCoding8Bit =>
      obtain rfl : body = userData.data := hbody
      exact decodeUserDataPdu_octets_back coder pTPUD hfits (.inl rfl) hkept hsize
  | dataCodingUcs2 =>
      obtain rfl : body = userData.data := hbody
      exact decodeUserDataPdu_octets_back coder pTPUD hfits (.inr rfl) hkept hsize
  | dataCodingAuto => simp [DataCodingScheme.isWritten] at hscheme
  | dataCodingEuckr => simp [DataCodingScheme.isWritten] at hscheme
  | dataCodingAscii7Bit => simp [DataCodingScheme.isWritten] at hscheme

end Reading

end TelephonySms.Pdu
