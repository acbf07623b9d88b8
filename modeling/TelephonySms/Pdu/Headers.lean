import Mathlib.Data.List.GetD
import TelephonySms.Pdu.ParamRoundTrip
import TelephonySms.Pdu.UserData

/-! # Information elements as octets

What the encoder leaves of each header, what the decoder has read when it
returns one, and the header loops over both. Six kinds of element are written
in full; a reply address loses its octets and the others are not written, so a
decoder that returns such a header has read further than the writer wrote.
-/

namespace TelephonySms.Pdu

open SmsPduBuffer

/-! ## Elements -/

/-- Type, length and contents of the elements that are written in full. -/
def SmsUDH.element : SmsUDH → Option (UInt8 × UInt8 × List UInt8)
  | .concat8Bit msgRef totalSeg seqNum => some (0x00, 0x03, [msgRef, totalSeg, seqNum])
  | .concat16Bit msgRef totalSeg seqNum =>
      some (0x08, 0x04, [(msgRef >>> 8).toUInt8, (msgRef &&& 0x00FF).toUInt8, totalSeg, seqNum])
  | .appPort8Bit destPort originPort => some (0x04, 0x02, [destPort, originPort])
  | .appPort16Bit destPort originPort =>
      some (0x05, 0x04, [(destPort >>> 8).toUInt8, (destPort &&& 0x00FF).toUInt8,
        (originPort >>> 8).toUInt8, (originPort &&& 0x00FF).toUInt8])
  | .singleShift langId => some (0x24, 0x01, [langId])
  | .lockingShift langId => some (0x25, 0x01, [langId])
  | .alternateReplyAddress _ | .specialSms _ _ _ | .other _ => none

/-- Whether a header is written in full. -/
def SmsUDH.isPlain (header : SmsUDH) : Bool := header.element.isSome

/-- The octets that stand before the index once a header is written. -/
def headerOctets (header : SmsUDH) : List UInt8 :=
  match header, header.element with
  | _, some (udhType, length, contents) => udhType :: length :: contents
  | .alternateReplyAddress alternateAddress, none =>
      0x22 :: ((encodeAddressPdu alternateAddress).map fun encodedAddr =>
        UInt8.ofNat encodedAddr.length).toList
  | _, none => []

/-- What the decoder has read when it returns a header. -/
def ReadAs (header : SmsUDH) (used : List UInt8) : Prop :=
  match header, header.element with
  | _, some (udhType, _, contents) =>
      ∃ length, length ≠ 0 ∧ used = udhType :: length :: contents
  | .alternateReplyAddress _, none =>
      ∃ length addrLen more, length ≠ 0 ∧ addrLen ≠ 0 ∧ more ≠ [] ∧
        used = 0x22 :: length :: addrLen :: more
  | .specialSms _ _ _, none => ∃ more, used = 0x01 :: more ∧ more.length = 3
  | .other udhType, none => ∃ more, udhType ≠ 0 ∧ used = udhType :: more ∧ more ≠ []
  | _, none => False

theorem headerOctets_of_element {header : SmsUDH} {udhType length : UInt8} {contents : List UInt8}
    (h : header.element = some (udhType, length, contents)) :
    headerOctets header = udhType :: length :: contents := by
  simp [headerOctets, h]

theorem readAs_of_element {header : SmsUDH} {udhType length : UInt8} {contents used : List UInt8}
    (h : header.element = some (udhType, length, contents)) (hused : ReadAs header used) :
    ∃ length', length' ≠ 0 ∧ used = udhType :: length' :: contents := by
  simpa [ReadAs, h] using hused

theorem toNat_joinPair (high low : UInt8) :
    (low.toUInt16 ||| high.toUInt16 <<< 8).toNat = low.toNat + 256 * high.toNat := by
  have hlow := low.toNat_lt
  have hhigh := high.toNat_lt
  have hshift : (high.toUInt16 <<< 8).toNat = 2 ^ 8 * high.toNat := by
    simp [UInt16.toNat_shiftLeft, Nat.shiftLeft_eq]
    omega
  rw [UInt16.toNat_or, hshift, UInt8.toNat_toUInt16, Nat.or_comm,
    ← Nat.two_pow_add_eq_or_of_lt (by simpa using hlow), Nat.add_comm]

theorem toNat_highOctet (v : UInt16) : (v >>> 8).toUInt8.toNat = v.toNat / 256 := by
  have hlt := v.toNat_lt
  simp [UInt16.toNat_shiftRight, Nat.shiftRight_eq_div_pow]
  omega

theorem toNat_lowOctet (v : UInt16) : (v &&& 0x00FF).toUInt8.toNat = v.toNat % 256 := by
  have hand : (v &&& 0x00FF).toNat = v.toNat % 256 := Nat.and_two_pow_sub_one_eq_mod v.toNat 8
  rw [UInt16.toNat_toUInt8, hand]
  omega

theorem joinPair_splitPair (v : UInt16) :
    (v &&& 0x00FF).toUInt8.toUInt16 ||| (v >>> 8).toUInt8.toUInt16 <<< 8 = v := by
  apply UInt16.toNat_inj.mp
  rw [toNat_joinPair, toNat_highOctet, toNat_lowOctet]
  omega

theorem splitPair_joinPair (high low : UInt8) :
    ((low.toUInt16 ||| high.toUInt16 <<< 8) >>> 8).toUInt8 = high ∧
      ((low.toUInt16 ||| high.toUInt16 <<< 8) &&& 0x00FF).toUInt8 = low := by
  have hlow := low.toNat_lt
  constructor
  · apply UInt8.toNat_inj.mp
    rw [toNat_highOctet, toNat_joinPair]
    omega
  · apply UInt8.toNat_inj.mp
    rw [toNat_lowOctet, toNat_joinPair]
    omega

/-! ## Reading one element -/

theorem readPair_splitPair (v : UInt16) (passed rest : List UInt8) :
    readPair (cursor passed ((v >>> 8).toUInt8 :: (v &&& 0x00FF).toUInt8 :: rest)) =
      some (v, cursor (passed ++ [(v >>> 8).toUInt8, (v &&& 0x00FF).toUInt8]) rest) := by
  simp only [readPair, readByte_cursor_cons, Option.bind_eq_bind, Option.bind_some,
    joinPair_splitPair, List.append_assoc, List.singleton_append]

theorem decodeHeader_append (coder : TextCoder) {header : SmsUDH} (h : header.isPlain = true)
    (passed rest : List UInt8) :
    decodeHeader coder (cursor passed (headerOctets header ++ rest)) =
      some (header, cursor (passed ++ headerOctets header) rest) := by
  cases header with
  | concat8Bit msgRef totalSeg seqNum =>
      simp [headerOctets, SmsUDH.element, decodeHeader, decodeHeaderConcat8Bit, decodeHeaderLength]
  | concat16Bit msgRef totalSeg seqNum =>
      have htype : ¬ (0x08 : UInt8) = 0x00 := by decide
      have hlength : ¬ (0x04 : UInt8) = 0 := by decide
      simp only [headerOctets, SmsUDH.element, List.cons_append, List.nil_append, decodeHeader,
        decodeHeaderConcat16Bit, decodeHeaderLength, readByte_cursor_cons, Option.bind_eq_bind,
        Option.bind_some, if_neg htype, if_neg hlength, if_true, readPair_splitPair,
        List.append_assoc]
  | appPort8Bit destPort originPort =>
      simp [headerOctets, SmsUDH.element, decodeHeader, decodeHeaderAppPort8Bit, decodeHeaderLength]
  | appPort16Bit destPort originPort =>
      have htype : ¬ (0x05 : UInt8) = 0x00 ∧ ¬ (0x05 : UInt8) = 0x08 ∧ ¬ (0x05 : UInt8) = 0x04 := by
        decide
      have hlength : ¬ (0x04 : UInt8) = 0 := by decide
      simp only [headerOctets, SmsUDH.element, List.cons_append, List.nil_append, decodeHeader,
        decodeHeaderAppPort16Bit, decodeHeaderLength, readByte_cursor_cons, Option.bind_eq_bind,
        Option.bind_some, if_neg htype.1, if_neg htype.2.1, if_neg htype.2.2, if_neg hlength,
        if_true, readPair_splitPair, List.append_assoc]
  | singleShift langId =>
      simp [headerOctets, SmsUDH.element, decodeHeader, decodeHeaderSingleShift, decodeHeaderLength]
  | lockingShift langId =>
      simp [headerOctets, SmsUDH.element, decodeHeader, decodeHeaderLockingShift,
        decodeHeaderLength]
  | alternateReplyAddress _ => simp [SmsUDH.isPlain, SmsUDH.element] at h
  | specialSms _ _ _ => simp [SmsUDH.isPlain, SmsUDH.element] at h
  | other _ => simp [SmsUDH.isPlain, SmsUDH.element] at h

theorem readByte_cursor_eq_some {passed xs : List UInt8} {v : UInt8} {b : SmsPduBuffer}
    (h : (cursor passed xs).readByte = some (v, b)) :
    ∃ rest, xs = v :: rest ∧ b = cursor (passed ++ [v]) rest := by
  cases xs with
  | nil => simp at h
  | cons w rest =>
      simp only [readByte_cursor_cons, Option.some.injEq, Prod.mk.injEq] at h
      obtain ⟨rfl, rfl⟩ := h
      exact ⟨rest, rfl, rfl⟩

theorem decodeHeaderLength_cursor {passed xs : List UInt8} {b : SmsPduBuffer}
    (h : decodeHeaderLength (cursor passed xs) = some b) :
    ∃ length rest, length ≠ 0 ∧ xs = length :: rest ∧ b = cursor (passed ++ [length]) rest := by
  obtain ⟨⟨length, c⟩, hread, h⟩ := Option.bind_eq_some_iff.mp h
  obtain ⟨rest, rfl, rfl⟩ := readByte_cursor_eq_some hread
  simp only at h
  split at h
  · simp at h
  · next hne =>
      cases h
      exact ⟨length, rest, hne, rfl, rfl⟩

theorem readBytes_cursor_eq_some {n : Nat} {passed xs octets : List UInt8} {b : SmsPduBuffer}
    (h : readBytes n (cursor passed xs) = some (octets, b)) :
    ∃ rest, octets.length = n ∧ xs = octets ++ rest ∧ b = cursor (passed ++ octets) rest := by
  induction n generalizing passed xs octets with
  | zero =>
      cases h
      exact ⟨xs, rfl, rfl, by simp⟩
  | succ n ih =>
      simp only [readBytes, Option.bind_eq_bind, Option.bind_eq_some_iff, Prod.exists,
        Option.some.injEq, Prod.mk.injEq] at h
      obtain ⟨v, c, hread, more, d, hmore, rfl, rfl⟩ := h
      obtain ⟨rest, rfl, rfl⟩ := readByte_cursor_eq_some hread
      obtain ⟨rest', hlen, rfl, rfl⟩ := ih hmore
      exact ⟨rest', by simp [hlen], rfl, by simp⟩

theorem decodeAddressDigits_cursor {bcdLen : Nat} {passed rest addrNum : List UInt8} {v : UInt8}
    {b : SmsPduBuffer} (h : decodeAddressDigits (cursor passed (v :: rest)) bcdLen = some (addrNum, b)) :
    bcdLen ≠ 0 ∧ ∃ octets rest', rest = octets ++ rest' ∧
      b = cursor (passed ++ v :: octets) rest' := by
  constructor
  · rintro rfl
    simp [decodeAddressDigits_zero] at h
  · simp only [decodeAddressDigits, moveForward_cursor_cons, Option.bind_eq_bind,
      Option.bind_eq_some_iff, Prod.exists, Option.some.injEq, Prod.mk.injEq] at h
    obtain ⟨octets, c, hread, _, -, -, rfl⟩ := h
    obtain ⟨rest', -, rfl, rfl⟩ := readBytes_cursor_eq_some hread
    exact ⟨octets, rest', rfl, by simp⟩

theorem decodeAddressAlphaNum_cursor {coder : TextCoder} {bcdLen addrLen : Nat}
    {passed rest address : List UInt8} {v : UInt8} {b : SmsPduBuffer}
    (h : decodeAddressAlphaNum coder (cursor passed (v :: rest)) bcdLen addrLen =
      some (address, b)) :
    addrLen ≠ 0 ∧ ∃ octets rest', rest = octets ++ rest' ∧
      b = cursor (passed ++ v :: octets) rest' := by
  simp only [decodeAddressAlphaNum, readByte_cursor_cons, Option.bind_eq_bind, Option.bind_some,
    Option.bind_eq_some_iff, Prod.exists, Option.some.injEq, Prod.mk.injEq] at h
  obtain ⟨octets, c, hread, septets, hsept, -, rfl⟩ := h
  obtain ⟨rest', -, rfl, rfl⟩ := readBytes_cursor_eq_some hread
  refine ⟨?_, octets, rest', rfl, by simp⟩
  rintro rfl
  simp [unpack7bitCharForMiddlePart] at hsept

/-- An address that is returned took its length, not zero, and its type at least. -/
theorem decodeAddressPdu_cursor {coder : TextCoder} {passed xs : List UInt8} {num : AddressNumber}
    {b : SmsPduBuffer} (h : decodeAddressPdu coder (cursor passed xs) = some (num, b)) :
    ∃ addrLen more rest, addrLen ≠ 0 ∧ more ≠ [] ∧ xs = addrLen :: more ++ rest ∧
      b = cursor (passed ++ addrLen :: more) rest := by
  obtain ⟨⟨addrLen, c⟩, hread, h⟩ := Option.bind_eq_some_iff.mp h
  obtain ⟨rest, rfl, rfl⟩ := readByte_cursor_eq_some hread
  simp only at h
  split at h
  · simp at h
  obtain ⟨oneByte, hpick, h⟩ := Option.bind_eq_some_iff.mp h
  cases rest with
  | nil => simp at hpick
  | cons v rest =>
      have hlen : (if addrLen.toNat % 2 = 0 then addrLen.toNat / 2 else addrLen.toNat / 2 + 1) ≠ 0 →
          addrLen ≠ 0 := by
        rintro hhalf rfl
        simp at hhalf
      have hend (hne : addrLen ≠ 0) (hread : ∃ octets rest', rest = octets ++ rest' ∧
          b = cursor ((passed ++ [addrLen]) ++ v :: octets) rest') :
          ∃ addrLen' more rest', addrLen' ≠ 0 ∧ more ≠ [] ∧
            addrLen :: v :: rest = addrLen' :: more ++ rest' ∧
              b = cursor (passed ++ addrLen' :: more) rest' := by
        obtain ⟨octets, rest', rfl, rfl⟩ := hread
        exact ⟨addrLen, v :: octets, rest', hne, by simp, by simp, by simp⟩
      split at h
      · obtain ⟨⟨address, d⟩, haddr, h⟩ := Option.bind_eq_some_iff.mp h
        cases h
        obtain ⟨hne, hread⟩ := decodeAddressAlphaNum_cursor haddr
        exact hend (fun h0 => hne (by simp [h0])) hread
      split at h
      · obtain ⟨⟨address, d⟩, haddr, h⟩ := Option.bind_eq_some_iff.mp h
        cases h
        obtain ⟨⟨digits, e⟩, hdigits, haddr⟩ := Option.bind_eq_some_iff.mp haddr
        cases haddr
        obtain ⟨hne, hread⟩ := decodeAddressDigits_cursor hdigits
        exact hend (hlen hne) hread
      · obtain ⟨⟨address, d⟩, haddr, h⟩ := Option.bind_eq_some_iff.mp h
        cases h
        obtain ⟨⟨digits, e⟩, hdigits, haddr⟩ := Option.bind_eq_some_iff.mp haddr
        cases haddr
        obtain ⟨hne, hread⟩ := decodeAddressDigits_cursor hdigits
        exact hend (hlen hne) hread

theorem readPair_cursor {passed xs : List UInt8} {v : UInt16} {b : SmsPduBuffer}
    (h : readPair (cursor passed xs) = some (v, b)) :
    ∃ rest, xs = (v >>> 8).toUInt8 :: (v &&& 0x00FF).toUInt8 :: rest ∧
      b = cursor (passed ++ [(v >>> 8).toUInt8, (v &&& 0x00FF).toUInt8]) rest := by
  simp only [readPair, Option.bind_eq_bind, Option.bind_eq_some_iff, Prod.exists,
    Option.some.injEq, Prod.mk.injEq] at h
  obtain ⟨high, c, hhigh, low, d, hlow, rfl, rfl⟩ := h
  obtain ⟨rest, rfl, rfl⟩ := readByte_cursor_eq_some hhigh
  obtain ⟨rest', rfl, rfl⟩ := readByte_cursor_eq_some hlow
  obtain ⟨hsplit, hsplit'⟩ := splitPair_joinPair high low
  rw [hsplit, hsplit']
  exact ⟨rest', rfl, by simp⟩

/-- The decoder of an element, called behind its type octet, has read what its
result says. -/
def ReadsElement (udhType : UInt8) (decode : SmsPduBuffer → Option (SmsUDH × SmsPduBuffer)) :
    Prop :=
  ∀ passed xs header b, decode (cursor passed xs) = some (header, b) →
    ∃ used rest, xs = used ++ rest ∧ b = cursor (passed ++ used) rest ∧
      ReadAs header (udhType :: used)

theorem decodeHeaderConcat8Bit_reads : ReadsElement 0x00 decodeHeaderConcat8Bit := by
  intro passed xs header b h
  simp only [decodeHeaderConcat8Bit, Option.bind_eq_bind, Option.bind_eq_some_iff, Prod.exists,
    Option.some.injEq, Prod.mk.injEq] at h
  obtain ⟨c, hc, msgRef, d, hd, totalSeg, e, he, seqNum, f, hf, rfl, rfl⟩ := h
  obtain ⟨length, rest, hne, rfl, rfl⟩ := decodeHeaderLength_cursor hc
  obtain ⟨rest, rfl, rfl⟩ := readByte_cursor_eq_some hd
  obtain ⟨rest, rfl, rfl⟩ := readByte_cursor_eq_some he
  obtain ⟨rest, rfl, rfl⟩ := readByte_cursor_eq_some hf
  exact ⟨[length, msgRef, totalSeg, seqNum], rest, rfl, by simp, length, hne, rfl⟩

theorem decodeHeaderConcat16Bit_reads : ReadsElement 0x08 decodeHeaderConcat16Bit := by
  intro passed xs header b h
  simp only [decodeHeaderConcat16Bit, Option.bind_eq_bind, Option.bind_eq_some_iff, Prod.exists,
    Option.some.injEq, Prod.mk.injEq] at h
  obtain ⟨c, hc, msgRef, d, hd, totalSeg, e, he, seqNum, f, hf, rfl, rfl⟩ := h
  obtain ⟨length, rest, hne, rfl, rfl⟩ := decodeHeaderLength_cursor hc
  obtain ⟨rest, rfl, rfl⟩ := readPair_cursor hd
  obtain ⟨rest, rfl, rfl⟩ := readByte_cursor_eq_some he
  obtain ⟨rest, rfl, rfl⟩ := readByte_cursor_eq_some hf
  exact ⟨[length, _, _, totalSeg, seqNum], rest, rfl, by simp, length, hne, rfl⟩

theorem decodeHeaderAppPort8Bit_reads : ReadsElement 0x04 decodeHeaderAppPort8Bit := by
  intro passed xs header b h
  simp only [decodeHeaderAppPort8Bit, Option.bind_eq_bind, Option.bind_eq_some_iff, Prod.exists,
    Option.some.injEq, Prod.mk.injEq] at h
  obtain ⟨c, hc, destPort, d, hd, originPort, e, he, rfl, rfl⟩ := h
  obtain ⟨length, rest, hne, rfl, rfl⟩ := decodeHeaderLength_cursor hc
  obtain ⟨rest, rfl, rfl⟩ := readByte_cursor_eq_some hd
  obtain ⟨rest, rfl, rfl⟩ := readByte_cursor_eq_some he
  exact ⟨[length, destPort, originPort], rest, rfl, by simp, length, hne, rfl⟩

theorem decodeHeaderAppPort16Bit_reads : ReadsElement 0x05 decodeHeaderAppPort16Bit := by
  intro passed xs header b h
  simp only [decodeHeaderAppPort16Bit, Option.bind_eq_bind, Option.bind_eq_some_iff, Prod.exists,
    Option.some.injEq, Prod.mk.injEq] at h
  obtain ⟨c, hc, destPort, d, hd, originPort, e, he, rfl, rfl⟩ := h
  obtain ⟨length, rest, hne, rfl, rfl⟩ := decodeHeaderLength_cursor hc
  obtain ⟨rest, rfl, rfl⟩ := readPair_cursor hd
  obtain ⟨rest, rfl, rfl⟩ := readPair_cursor he
  exact ⟨[length, _, _, _, _], rest, rfl, by simp, length, hne, rfl⟩

theorem decodeHeaderSingleShift_reads : ReadsElement 0x24 decodeHeaderSingleShift := by
  intro passed xs header b h
  simp only [decodeHeaderSingleShift, Option.bind_eq_bind, Option.bind_eq_some_iff, Prod.exists,
    Option.some.injEq, Prod.mk.injEq] at h
  obtain ⟨c, hc, langId, d, hd, rfl, rfl⟩ := h
  obtain ⟨length, rest, hne, rfl, rfl⟩ := decodeHeaderLength_cursor hc
  obtain ⟨rest, rfl, rfl⟩ := readByte_cursor_eq_some hd
  exact ⟨[length, langId], rest, rfl, by simp, length, hne, rfl⟩

theorem decodeHeaderLockingShift_reads : ReadsElement 0x25 decodeHeaderLockingShift := by
  intro passed xs header b h
  simp only [decodeHeaderLockingShift, Option.bind_eq_bind, Option.bind_eq_some_iff, Prod.exists,
    Option.some.injEq, Prod.mk.injEq] at h
  obtain ⟨c, hc, langId, d, hd, rfl, rfl⟩ := h
  obtain ⟨length, rest, hne, rfl, rfl⟩ := decodeHeaderLength_cursor hc
  obtain ⟨rest, rfl, rfl⟩ := readByte_cursor_eq_some hd
  exact ⟨[length, langId], rest, rfl, by simp, length, hne, rfl⟩

theorem decodeHeaderReplyAddress_reads (coder : TextCoder) :
    ReadsElement 0x22 (decodeHeaderReplyAddress coder) := by
  intro passed xs header b h
  simp only [decodeHeaderReplyAddress, Option.bind_eq_bind, Option.bind_eq_some_iff, Prod.exists,
    Option.some.injEq, Prod.mk.injEq] at h
  obtain ⟨c, hc, num, d, hd, rfl, rfl⟩ := h
  obtain ⟨length, rest, hne, rfl, rfl⟩ := decodeHeaderLength_cursor hc
  obtain ⟨addrLen, more, rest, haddr, hmore, rfl, rfl⟩ := decodeAddressPdu_cursor hd
  exact ⟨length :: addrLen :: more, rest, rfl, by simp,
    length, addrLen, more, hne, haddr, hmore, rfl⟩

theorem decodeHeaderSpecialSms_reads : ReadsElement 0x01 decodeHeaderSpecialSms := by
  intro passed xs header b h
  obtain ⟨⟨length, c⟩, hc, h⟩ := Option.bind_eq_some_iff.mp h
  obtain ⟨rest, rfl, rfl⟩ := readByte_cursor_eq_some hc
  simp only at h
  split at h
  · simp at h
  · simp only [Option.bind_eq_bind, Option.bind_eq_some_iff, Prod.exists, Option.some.injEq,
      Prod.mk.injEq] at h
    obtain ⟨_, -, msgInd, d, hd, waitMsgNum, e, he, rfl, rfl⟩ := h
    obtain ⟨rest, rfl, rfl⟩ := readByte_cursor_eq_some hd
    obtain ⟨rest, rfl, rfl⟩ := readByte_cursor_eq_some he
    exact ⟨[length, msgInd, waitMsgNum], rest, rfl, by simp, _, rfl, rfl⟩

theorem decodeHeaderDefaultCase_reads {udhType : UInt8} (hne : udhType ≠ 0) :
    ReadsElement udhType (fun b => decodeHeaderDefaultCase b udhType) := by
  intro passed xs header b h
  simp only [decodeHeaderDefaultCase, Option.bind_eq_bind, Option.bind_eq_some_iff, Prod.exists,
    Option.some.injEq, Prod.mk.injEq] at h
  obtain ⟨length, c, hc, rfl, rfl⟩ := h
  obtain ⟨rest, rfl, rfl⟩ := readByte_cursor_eq_some hc
  by_cases hfit : length.toNat ≤ rest.length
  · exact ⟨length :: rest.take length.toNat, rest.drop length.toNat, by simp,
      by rw [moveForward_cursor _ _ _ hfit]; simp, _, hne, rfl, by simp⟩
  · exact ⟨[length], rest, rfl, moveForward_cursor_of_gt _ _ _ (by omega), _, hne, rfl, by simp⟩

/-- The decoder returns a header only for octets that say so. -/
theorem decodeHeader_sound {coder : TextCoder} {passed xs : List UInt8} {header : SmsUDH}
    {b : SmsPduBuffer} (h : decodeHeader coder (cursor passed xs) = some (header, b)) :
    ∃ used rest, xs = used ++ rest ∧ b = cursor (passed ++ used) rest ∧ ReadAs header used := by
  obtain ⟨⟨udhType, c⟩, hread, h⟩ := Option.bind_eq_some_iff.mp h
  obtain ⟨rest, rfl, rfl⟩ := readByte_cursor_eq_some hread
  suffices htail : ∃ used rest', rest = used ++ rest' ∧
      b = cursor ((passed ++ [udhType]) ++ used) rest' ∧ ReadAs header (udhType :: used) by
    obtain ⟨used, rest', rfl, rfl, hused⟩ := htail
    exact ⟨udhType :: used, rest', rfl, by simp, hused⟩
  simp only at h
  split at h
  · next htype => subst htype; exact decodeHeaderConcat8Bit_reads _ _ _ _ h
  split at h
  · next htype => subst htype; exact decodeHeaderConcat16Bit_reads _ _ _ _ h
  split at h
  · next htype => subst htype; exact decodeHeaderAppPort8Bit_reads _ _ _ _ h
  split at h
  · next htype => subst htype; exact decodeHeaderAppPort16Bit_reads _ _ _ _ h
  split at h
  · next htype => subst htype; exact decodeHeaderSpecialSms_reads _ _ _ _ h
  split at h
  · next htype => subst htype; exact decodeHeaderReplyAddress_reads coder _ _ _ _ h
  split at h
  · next htype => subst htype; exact decodeHeaderSingleShift_reads _ _ _ _ h
  split at h
  · next htype => subst htype; exact decodeHeaderLockingShift_reads _ _ _ _ h
  · next hne _ _ _ _ _ _ _ =>
      exact decodeHeaderDefaultCase_reads hne _ _ _ _ h

/-! ## Several elements -/

/-- What the decoder has read when it returns a list of headers. -/
inductive ReadAll : List SmsUDH → List UInt8 → Prop where
  | nil : ReadAll [] []
  | cons {header : SmsUDH} {headers : List SmsUDH} {used more : List UInt8} :
      ReadAs header used → ReadAll headers more → ReadAll (header :: headers) (used ++ more)

theorem decodeHeaders_sound {coder : TextCoder} {more : SmsPduBuffer → Bool}
    {bad : SmsPduBuffer → SmsPduBuffer → Bool} {n : Nat} {passed xs : List UInt8}
    {headers : List SmsUDH} {b : SmsPduBuffer}
    (h : decodeHeaders coder more bad n (cursor passed xs) = some (headers, b)) :
    ∃ used rest, xs = used ++ rest ∧ b = cursor (passed ++ used) rest ∧ ReadAll headers used := by
  induction n generalizing passed xs headers with
  | zero =>
      cases h
      exact ⟨[], xs, rfl, by simp, .nil⟩
  | succ n ih =>
      unfold decodeHeaders at h
      split at h
      · obtain ⟨⟨header, c⟩, hheader, h⟩ := Option.bind_eq_some_iff.mp h
        simp only at h
        split at h
        · simp at h
        · obtain ⟨⟨others, d⟩, hothers, h⟩ := Option.bind_eq_some_iff.mp h
          cases h
          obtain ⟨used, rest, rfl, rfl, hused⟩ := decodeHeader_sound hheader
          obtain ⟨used', rest', rfl, rfl, hused'⟩ := ih hothers
          exact ⟨used ++ used', rest', by simp, by simp, .cons hused hused'⟩
      · cases h
        exact ⟨[], xs, rfl, by simp, .nil⟩

theorem three_le_length_headerOctets {header : SmsUDH} (h : header.isPlain = true) :
    3 ≤ (headerOctets header).length := by
  cases header <;> simp_all [SmsUDH.isPlain, SmsUDH.element, headerOctets]

/-- The loops read back headers that are written in full, when the loop
condition holds up to the last of them and no check fails on the way. -/
theorem decodeHeaders_append (coder : TextCoder) {more : SmsPduBuffer → Bool}
    {bad : SmsPduBuffer → SmsPduBuffer → Bool} (limit last : Nat)
    (headers : List SmsUDH) (hplain : ∀ header ∈ headers, header.isPlain = true)
    (passed rest : List UInt8) {n : Nat} (hn : headers.length ≤ n)
    (hmore : ∀ p r, passed.length ≤ p.length → more (cursor p r) = decide (p.length < limit))
    (hbad : ∀ p r p' r', passed.length ≤ p.length → p'.length ≤ last →
      bad (cursor p r) (cursor p' r') = false)
    (hlast : last = passed.length + (headers.flatMap headerOctets).length)
    (hlimit : limit ≤ last ∧ last < limit + 3) :
    decodeHeaders coder more bad n (cursor passed (headers.flatMap headerOctets ++ rest)) =
      some (headers, cursor (passed ++ headers.flatMap headerOctets) rest) := by
  induction headers generalizing passed n with
  | nil =>
      have hstop : more (cursor passed rest) = false := by
        rw [hmore passed rest (Nat.le_refl _)]
        simp at hlast ⊢
        omega
      cases n with
      | zero => simp [decodeHeaders]
      | succ n => simp [decodeHeaders, hstop]
  | cons header headers ih =>
      obtain ⟨n, rfl⟩ : ∃ n', n = n' + 1 := ⟨n - 1, by simp at hn; omega⟩
      have hthree := three_le_length_headerOctets (hplain header (by simp))
      simp only [List.flatMap_cons, List.length_append] at hlast
      have hgo (r : List UInt8) : more (cursor passed r) = true := by
        rw [hmore passed r (Nat.le_refl _), decide_eq_true_iff]
        omega
      have hgood (r : List UInt8) : ¬ ((passed ++ headerOctets header).length ≤ passed.length ∨
          bad (cursor passed r) (cursor (passed ++ headerOctets header)
            (headers.flatMap headerOctets ++ rest)) = true) := by
        rw [hbad passed r _ _ (Nat.le_refl _) (by rw [List.length_append]; omega),
          List.length_append, Bool.false_eq_true, or_false]
        omega
      have hrest := ih (fun other hother => hplain other (by simp [hother]))
        (passed ++ headerOctets header) (by simpa using hn)
        (fun p r hp => hmore p r (by simp at hp; omega))
        (fun p r p' r' hp hp' => hbad p r p' r' (by simp at hp; omega) hp')
        (by rw [List.length_append]; omega)
      rw [decodeHeaders, if_pos (hgo _), List.flatMap_cons, List.append_assoc,
        decodeHeader_append coder (hplain header (by simp))]
      simp only [Option.bind_eq_bind, Option.bind_some, cursor_index]
      rw [if_neg (hgood _), hrest]
      simp

/-! ## Reading further than was written -/

theorem length_headerOctets_le {header : SmsUDH} {used : List UInt8} (h : ReadAs header used) :
    (headerOctets header).length ≤ used.length ∧
      (header.isPlain = false → (headerOctets header).length + 2 ≤ used.length) := by
  cases helem : header.element with
  | some element =>
      obtain ⟨udhType, length, contents⟩ := element
      obtain ⟨length', -, rfl⟩ := readAs_of_element helem h
      simp [headerOctets_of_element helem, SmsUDH.isPlain, helem]
  | none =>
      suffices hfar : (headerOctets header).length + 2 ≤ used.length from
        ⟨by omega, fun _ => hfar⟩
      cases header with
      | alternateReplyAddress alternateAddress =>
          obtain ⟨length, addrLen, more, -, -, hmore, rfl⟩ := h
          have hpos := List.length_pos_iff.mpr hmore
          cases haddr : encodeAddressPdu alternateAddress with
          | none => simp [headerOctets, SmsUDH.element, haddr]
          | some octets => simp [headerOctets, SmsUDH.element, haddr]; omega
      | specialSms _ _ _ =>
          obtain ⟨more, rfl, hmore⟩ := h
          simp [headerOctets, SmsUDH.element, hmore]
      | other _ =>
          obtain ⟨more, -, rfl, hmore⟩ := h
          have hpos := List.length_pos_iff.mpr hmore
          simp [headerOctets, SmsUDH.element]
          omega
      | _ => simp [SmsUDH.element] at helem

theorem ReadAll.length_le {headers : List SmsUDH} {used : List UInt8} (h : ReadAll headers used) :
    (headers.flatMap headerOctets).length ≤ used.length ∧
      (headers.all SmsUDH.isPlain = false →
        (headers.flatMap headerOctets).length + 2 ≤ used.length) := by
  induction h with
  | nil => simp
  | @cons header headers used more hused hmore ih =>
      obtain ⟨hle, hfar⟩ := length_headerOctets_le hused
      simp only [List.flatMap_cons, List.length_append, List.all_cons]
      cases hplain : header.isPlain with
      | true =>
          simp only [Bool.true_and]
          exact ⟨by omega, fun hnot => by have := ih.2 hnot; omega⟩
      | false =>
          have := hfar hplain
          exact ⟨by omega, fun _ => by omega⟩

/-- Octets that equal the octets some places behind them, with zeros at the
end, are zero. -/
theorem getD_eq_zero_of_shift {xs : List UInt8} {k : Nat} (hk : 0 < k)
    (h : ∀ i < xs.length, xs.getD i 0 = xs.getD (k + i) 0) (i : Nat) : xs.getD i 0 = 0 := by
  -- downwards from the end: octet `i` is zero because octet `k + i` is
  induction hd : xs.length - i using Nat.strong_induction_on generalizing i with
  | _ d ih =>
      by_cases hi : i < xs.length
      · rw [h i hi]
        exact ih (xs.length - (k + i)) (by omega) (k + i) rfl
      · exact List.getD_eq_default _ _ (Nat.not_lt.mp hi)

theorem length_headerOctets_of_not_isPlain {header : SmsUDH} (h : header.isPlain = false) :
    (headerOctets header).length ≤ 2 := by
  cases header with
  | alternateReplyAddress alternateAddress =>
      cases haddr : encodeAddressPdu alternateAddress with
      | none => simp [headerOctets, SmsUDH.element, haddr]
      | some octets => simp [headerOctets, SmsUDH.element, haddr]
  | specialSms _ _ _ => simp [headerOctets, SmsUDH.element]
  | other _ => simp [headerOctets, SmsUDH.element]
  | _ => simp [SmsUDH.isPlain, SmsUDH.element] at h

/-- A last header is not read from its own octets and zeros behind them, when
the reading starts two octets late or the header is not written in full. -/
theorem not_readAs_of_zero {header : SmsUDH} {used : List UInt8} {k : Nat}
    (hused : ReadAs header used) (rest : List UInt8)
    (hzero : ∀ i, (used ++ rest).getD i 0 = (headerOctets header).getD (k + i) 0)
    (hk : 2 ≤ k ∨ header.isPlain = false) : False := by
  cases helem : header.element with
  | some element =>
      obtain ⟨udhType, length, contents⟩ := element
      obtain ⟨length', hne, rfl⟩ := readAs_of_element helem hused
      obtain ⟨k, rfl⟩ : ∃ k', k = k' + 2 :=
        ⟨k - 2, by simp [SmsUDH.isPlain, helem] at hk; omega⟩
      simp only [headerOctets_of_element helem, List.cons_append] at hzero
      -- the contents stand two places behind where they are read from
      have hshift : ∀ i < contents.length, contents.getD i 0 = contents.getD (k + 2 + i) 0 := by
        intro i hi
        have hi' := hzero (i + 2)
        rwa [show k + 2 + (i + 2) = (k + 2 + i) + 2 by omega, List.getD_cons_succ,
          List.getD_cons_succ, List.getD_cons_succ, List.getD_cons_succ,
          List.getD_append _ _ _ _ hi] at hi'
      have hlength := hzero 1
      rw [show k + 2 + 1 = (k + 1) + 2 by omega] at hlength
      simp only [List.getD_cons_succ, List.getD_cons_zero,
        getD_eq_zero_of_shift (by omega) hshift] at hlength
      exact hne hlength
  | none =>
      have hplain : header.isPlain = false := by simp [SmsUDH.isPlain, helem]
      have hlen := length_headerOctets_of_not_isPlain hplain
      have hzero' (i : Nat) (hi : (headerOctets header).length ≤ k + i) :
          (used ++ rest).getD i 0 = 0 := by
        rw [hzero i, List.getD_eq_default _ _ hi]
      cases header with
      | alternateReplyAddress alternateAddress =>
          obtain ⟨length, addrLen, more, -, haddr, -, rfl⟩ := hused
          exact haddr (by simpa using hzero' 2 (by omega))
      | specialSms _ _ _ =>
          obtain ⟨more, rfl, -⟩ := hused
          simpa using hzero' 0 (by simp [headerOctets, SmsUDH.element])
      | other udhType =>
          obtain ⟨more, hne, rfl, -⟩ := hused
          exact hne (by simpa using hzero' 0 (by simp [headerOctets, SmsUDH.element]))
      | _ => simp [SmsUDH.element] at helem

/-- Headers of which one is not written in full are not read from their octets
and zeros behind them. -/
theorem ReadAll.false_of_zero {headers : List SmsUDH} {used : List UInt8} {k : Nat}
    (hused : ReadAll headers used) (rest : List UInt8)
    (hzero : ∀ i, (used ++ rest).getD i 0 = (headers.flatMap headerOctets).getD (k + i) 0)
    (hk : headers ≠ [] ∧ 2 ≤ k ∨ headers.all SmsUDH.isPlain = false) : False := by
  induction hused generalizing k with
  | nil => simp at hk
  | @cons header headers used more hused hmore ih =>
      obtain ⟨hle, hfar⟩ := length_headerOctets_le hused
      by_cases hlast : headers = []
      · subst hlast
        cases hmore
        apply not_readAs_of_zero hused rest (k := k)
        · simpa using hzero
        · simpa using hk
      · -- the next header starts at least as late as this one
        apply ih (k := k + used.length - (headerOctets header).length)
        · intro i
          have hi := hzero (used.length + i)
          rw [List.append_assoc, List.getD_append_right used _ _ _ (by omega), List.flatMap_cons,
            List.getD_append_right (headerOctets header) _ _ _ (by omega),
            show used.length + i - used.length = i by omega] at hi
          rw [hi]
          congr 1
          omega
        · simp only [List.all_cons] at hk
          cases hplain : header.isPlain with
          | true =>
              rw [hplain] at hk
              obtain hk | hk := hk
              · exact .inl ⟨hlast, by omega⟩
              · exact .inr (by simpa using hk)
          | false =>
              have := hfar hplain
              exact .inl ⟨hlast, by omega⟩

/-- The first of several headers is not read one octet late. -/
theorem ReadAll.false_of_late {headers : List SmsUDH} {used rest more : List UInt8}
    (hused : ReadAll headers used) (hne : headers ≠ [])
    (hplain : ∀ header ∈ headers, header.isPlain = true)
    (hlate : used ++ rest = (headers.flatMap headerOctets ++ more).drop 1) : False := by
  cases hused with
  | nil => exact hne rfl
  | @cons header headers used used' hused _ =>
      have hfirst := hplain header (by simp)
      cases header with
      | alternateReplyAddress _ => simp [SmsUDH.isPlain, SmsUDH.element] at hfirst
      | specialSms _ _ _ => simp [SmsUDH.isPlain, SmsUDH.element] at hfirst
      | other _ => simp [SmsUDH.isPlain, SmsUDH.element] at hfirst
      | _ =>
          obtain ⟨length, -, rfl⟩ := hused
          simp [headerOctets, SmsUDH.element] at hlate

end TelephonySms.Pdu
