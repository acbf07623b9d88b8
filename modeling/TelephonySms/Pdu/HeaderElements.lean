import TelephonySms.Pdu.UserDataRoundTrip

/-! # How far the header loops read

A user data header as any sequence of information elements, each with its own
length octet. The decoders read the elements they know with fixed sizes and
skip the others by their length; each of the three loops has its own bound, and
the 8-bit reader moves once more before the body.
-/

namespace TelephonySms.Pdu

open SmsPduBuffer

/-! ## Elements -/

structure InformationElement where
  udhType : UInt8
  contents : List UInt8
deriving DecidableEq, Repr

/-- Type, length and contents. -/
def InformationElement.octets (element : InformationElement) : List UInt8 :=
  element.udhType :: UInt8.ofNat element.contents.length :: element.contents

@[simp] theorem InformationElement.length_octets (element : InformationElement) :
    element.octets.length = element.contents.length + 2 := rfl

/-- The octets of an address that `DecodeAddressPdu` takes in full: an
alphanumeric one of 20 septets at most, or digits that end within 10 octets. -/
def isAddress : List UInt8 → Bool
  | addrLen :: oneByte :: octets =>
      let bcdLen := (addrLen.toNat + 1) / 2
      if (oneByte &&& 0x70) >>> 4 = 5 then
        1 < addrLen.toNat ∧ addrLen.toNat ≤ 36 ∧ octets.length = bcdLen
      else
        0 < addrLen.toNat ∧ addrLen.toNat < 44 ∧ octets.length = min bcdLen 21 ∧
          (bcdLen ≤ 10 ∨ (octets.take 10).any fun octet => octet >>> 4 = 0x0F)
  | _ => false

/-- An element whose contents have the size its decoder reads. -/
def InformationElement.isSized (element : InformationElement) : Bool :=
  if element.udhType = 0x00 then element.contents.length = 3
  else if element.udhType = 0x08 then element.contents.length = 4
  else if element.udhType = 0x04 then element.contents.length = 2
  else if element.udhType = 0x05 then element.contents.length = 4
  else if element.udhType = 0x01 then element.contents.length = 2
  else if element.udhType = 0x22 then isAddress element.contents
  else if element.udhType = 0x24 then element.contents.length = 1
  else if element.udhType = 0x25 then element.contents.length = 1
  else true

/-! ## Elements of a fixed size -/

/-- Where the index is once an element behind its type octet is read. -/
def afterElement (decode : SmsPduBuffer → Option (SmsUDH × SmsPduBuffer)) (b : SmsPduBuffer) :
    Option SmsPduBuffer :=
  (decode b).map Prod.snd

theorem afterElement_eq_some {decode : SmsPduBuffer → Option (SmsUDH × SmsPduBuffer)}
    {b c : SmsPduBuffer} : afterElement decode b = some c ↔ ∃ header, decode b = some (header, c) := by
  simp [afterElement]

theorem after_concat8Bit (b : SmsPduBuffer) : afterElement decodeHeaderConcat8Bit b =
    (decodeHeaderLength b).bind fun b => (readBytes 3 b).map Prod.snd := by
  simp [afterElement, decodeHeaderConcat8Bit, readBytes, Option.map_bind, Option.bind_assoc]

theorem after_concat16Bit (b : SmsPduBuffer) : afterElement decodeHeaderConcat16Bit b =
    (decodeHeaderLength b).bind fun b => (readBytes 4 b).map Prod.snd := by
  simp [afterElement, decodeHeaderConcat16Bit, readPair, readBytes, Option.map_bind, Option.bind_assoc]

theorem after_appPort8Bit (b : SmsPduBuffer) : afterElement decodeHeaderAppPort8Bit b =
    (decodeHeaderLength b).bind fun b => (readBytes 2 b).map Prod.snd := by
  simp [afterElement, decodeHeaderAppPort8Bit, readBytes, Option.map_bind, Option.bind_assoc]

theorem after_appPort16Bit (b : SmsPduBuffer) : afterElement decodeHeaderAppPort16Bit b =
    (decodeHeaderLength b).bind fun b => (readBytes 4 b).map Prod.snd := by
  simp [afterElement, decodeHeaderAppPort16Bit, readPair, readBytes, Option.map_bind, Option.bind_assoc]

theorem after_singleShift (b : SmsPduBuffer) : afterElement decodeHeaderSingleShift b =
    (decodeHeaderLength b).bind fun b => (readBytes 1 b).map Prod.snd := by
  simp [afterElement, decodeHeaderSingleShift, readBytes, Option.map_bind]

theorem after_lockingShift (b : SmsPduBuffer) : afterElement decodeHeaderLockingShift b =
    (decodeHeaderLength b).bind fun b => (readBytes 1 b).map Prod.snd := by
  simp [afterElement, decodeHeaderLockingShift, readBytes, Option.map_bind]

theorem readBytes_takes_iff (n : Nat) (passed contents more : List UInt8) :
    (readBytes n (cursor passed (contents ++ more))).map Prod.snd =
      some (cursor (passed ++ contents) more) ↔ contents.length = n := by
  constructor
  · intro h
    obtain ⟨⟨octets, b⟩, hread, hb⟩ := Option.map_eq_some_iff.mp h
    obtain ⟨rest, hlen, -, rfl⟩ := readBytes_cursor_eq_some hread
    have hindex := congrArg SmsPduBuffer.index hb
    simp only [cursor_index, List.length_append] at hindex
    omega
  · rintro rfl
    rw [readBytes_cursor]
    rfl

theorem decodeHeaderLength_takes_iff {length n : Nat} (hlt : length < 256) (hn : 0 < n)
    (passed contents more : List UInt8) (hlength : length = contents.length) :
    ((decodeHeaderLength (cursor passed (UInt8.ofNat length :: (contents ++ more)))).bind fun b =>
      (readBytes n b).map Prod.snd) =
        some (cursor (passed ++ UInt8.ofNat length :: contents) more) ↔ contents.length = n := by
  have happend : passed ++ UInt8.ofNat length :: contents =
      (passed ++ [UInt8.ofNat length]) ++ contents := by simp
  rw [happend, ← readBytes_takes_iff n (passed ++ [UInt8.ofNat length]) contents more]
  have hzero : UInt8.ofNat length = 0 ↔ length = 0 := by
    rw [← UInt8.toNat_inj, UInt8.toNat_ofNat', Nat.mod_eq_of_lt hlt]
    rfl
  by_cases h0 : length = 0
  · rw [readBytes_takes_iff]
    simp [decodeHeaderLength, hzero.mpr h0]
    omega
  · simp [decodeHeaderLength, mt hzero.mp h0]

theorem ofNat_eq_iff {n : Nat} (h : n < 256) (v : UInt8) : UInt8.ofNat n = v ↔ n = v.toNat := by
  rw [← UInt8.toNat_inj, UInt8.toNat_ofNat_of_lt' h]

theorem afterElement_specialSms_iff (passed contents more : List UInt8)
    (hlt : contents.length < 256) :
    afterElement decodeHeaderSpecialSms
        (cursor passed (UInt8.ofNat contents.length :: (contents ++ more))) =
      some (cursor (passed ++ UInt8.ofNat contents.length :: contents) more) ↔
    contents.length = 2 := by
  have htwo := ofNat_eq_iff hlt 0x02
  constructor
  · intro h
    obtain ⟨header, h⟩ := afterElement_eq_some.mp h
    simp only [decodeHeaderSpecialSms, readByte_cursor_cons, Option.bind_eq_bind,
      Option.bind_some] at h
    split at h
    · simp at h
    · next hlength => simpa using htwo.mp (not_not.mp hlength)
  · intro h
    obtain ⟨v, w, rfl⟩ := List.length_eq_two.mp h
    simp [afterElement, decodeHeaderSpecialSms]

/-- An unknown element is skipped by its length. -/
theorem afterElement_defaultCase (udhType : UInt8) (passed contents more : List UInt8)
    (hlt : contents.length < 256) :
    afterElement (fun b => decodeHeaderDefaultCase b udhType)
        (cursor passed (UInt8.ofNat contents.length :: (contents ++ more))) =
      some (cursor (passed ++ UInt8.ofNat contents.length :: contents) more) := by
  simp [afterElement, decodeHeaderDefaultCase, Nat.mod_eq_of_lt hlt, moveForward_cursor]

/-! ## Addresses -/

/-- Twenty digits at most, or fewer with an end mark. -/
theorem isSome_bcdToDigitLoop (octets digit : List UInt8) {j : Nat} (hj : digit.length = 2 * j) :
    (bcdToDigitLoop 21 digit octets).isSome = true ↔
      octets.length + j ≤ 10 ∨ (octets.take (10 - j)).any (fun octet => octet >>> 4 = 0x0F) ∨
        octets = [] := by
  induction octets generalizing digit j with
  | nil => simp [bcdToDigitLoop]
  | cons octet octets ih =>
      rw [bcdToDigitLoop]
      by_cases hroom : digit.length + 2 ≥ 21
      · rw [if_pos hroom]
        have hnone : 10 - j = 0 := by omega
        simp [hnone]
        omega
      · obtain ⟨n, hn⟩ : ∃ n, 10 - j = n + 1 := ⟨9 - j, by omega⟩
        have hn' : 10 - (j + 1) = n := by omega
        rw [if_neg hroom, hn, List.take_succ_cons, List.any_cons]
        simp only [highNibble]
        by_cases hend : octet >>> 4 = 0x0F
        · simp [hend]
        · rw [if_neg hend, ih _ (j := j + 1) (by simp; omega), hn']
          simp only [hend, decide_false, Bool.false_or, List.length_cons, reduceCtorEq, or_false]
          constructor
          · rintro (h | h | rfl)
            · exact .inl (by omega)
            · exact .inr h
            · exact .inl (by simp; omega)
          · rintro (h | h)
            · exact .inl (by omega)
            · exact .inr (.inl h)

theorem isSome_bcdToDigit (octets : List UInt8) :
    (bcdToDigit octets 21).isSome = true ↔ octets ≠ [] ∧
      (octets.length ≤ 10 ∨ (octets.take 10).any (fun octet => octet >>> 4 = 0x0F)) := by
  unfold bcdToDigit
  by_cases hnil : octets = []
  · simp [hnil]
  · simp [hnil, isSome_bcdToDigitLoop octets [] (j := 0) rfl]

theorem isSome_unpack7bitCharForMiddlePartLoop (coder : TextCoder) (buffer : List UInt8) (n : Nat)
    (i : Nat) (flag : Bool) :
    (unpack7bitCharForMiddlePartLoop coder buffer i flag n).isSome = true ↔ n = 0 ∨ i + n ≤ 20 := by
  induction n generalizing i flag with
  | zero => simp [unpack7bitCharForMiddlePartLoop]
  | succ n ih =>
      simp only [unpack7bitCharForMiddlePartLoop]
      by_cases hi : i > 19
      · simp [hi]
        omega
      · have hcons (c : UInt8) (cs : Option (List UInt8)) :
            (cs.bind fun cs => some (c :: cs)).isSome = cs.isSome := by
          cases cs <;> rfl
        rw [if_neg hi, Option.bind_eq_bind, hcons, ih]
        omega

theorem isSome_unpack7bitCharForMiddlePart (coder : TextCoder) (buffer : List UInt8) (n : Nat) :
    (unpack7bitCharForMiddlePart coder buffer n).isSome = true ↔ 0 < n ∧ n ≤ 20 := by
  unfold unpack7bitCharForMiddlePart
  by_cases h0 : n = 0
  · simp [h0]
  · rw [if_neg h0, isSome_unpack7bitCharForMiddlePartLoop]
    omega

theorem decodeAddressDigits_length {bcdLen : Nat} {passed octets more addrNum : List UInt8}
    {v : UInt8} (h : decodeAddressDigits (cursor passed (v :: (octets ++ more))) bcdLen =
      some (addrNum, cursor (passed ++ v :: octets) more)) : octets.length = min bcdLen 21 := by
  simp only [decodeAddressDigits, moveForward_cursor_cons, Option.bind_eq_bind,
    Option.bind_eq_some_iff, Prod.exists, Option.some.injEq, Prod.mk.injEq] at h
  obtain ⟨read, c, hread, _, -, -, hc⟩ := h
  obtain ⟨rest, hlen, -, rfl⟩ := readBytes_cursor_eq_some hread
  have hindex := congrArg SmsPduBuffer.index hc
  simp only [cursor_index, List.length_append, List.length_cons, List.length_nil] at hindex
  omega

theorem decodeAddressDigits_eq {bcdLen : Nat} (passed octets more : List UInt8) (v : UInt8)
    (hlen : octets.length = min bcdLen 21) :
    decodeAddressDigits (cursor passed (v :: (octets ++ more))) bcdLen =
      (bcdToDigit (octets ++ List.replicate (bcdLen - octets.length) 0) 21).map
        fun addrNum => (addrNum, cursor (passed ++ v :: octets) more) := by
  simp only [decodeAddressDigits, moveForward_cursor_cons, Option.bind_eq_bind]
  rw [← hlen, readBytes_cursor]
  simp [Option.map_eq_bind]

theorem decodeAddressDigits_takes_iff (bcdLen : Nat) (passed octets more : List UInt8) (v : UInt8) :
    (∃ addrNum, decodeAddressDigits (cursor passed (v :: (octets ++ more))) bcdLen =
        some (addrNum, cursor (passed ++ v :: octets) more)) ↔
      0 < bcdLen ∧ octets.length = min bcdLen 21 ∧
        (bcdLen ≤ 10 ∨ (octets.take 10).any fun octet => octet >>> 4 = 0x0F) := by
  by_cases hlen : octets.length = min bcdLen 21
  · have hsome : (∃ addrNum, decodeAddressDigits (cursor passed (v :: (octets ++ more))) bcdLen =
        some (addrNum, cursor (passed ++ v :: octets) more)) ↔
        (bcdToDigit (octets ++ List.replicate (bcdLen - octets.length) 0) 21).isSome = true := by
      rw [decodeAddressDigits_eq _ _ _ _ hlen, Option.isSome_iff_exists]
      simp
    have htotal : (octets ++ List.replicate (bcdLen - octets.length) (0 : UInt8)).length =
        bcdLen := by
      simp
      omega
    rw [hsome, isSome_bcdToDigit, ← List.length_pos_iff, htotal]
    by_cases hshort : bcdLen ≤ 10
    · simp [hlen, hshort]
    · rw [List.take_append_of_le_length (by omega)]
      simp [hlen, hshort]
  · constructor
    · rintro ⟨addrNum, h⟩
      exact absurd (decodeAddressDigits_length h) hlen
    · rintro ⟨-, h, -⟩
      exact absurd h hlen

theorem decodeAddressAlphaNum_takes_iff (coder : TextCoder) (bcdLen addrLen : Nat)
    (passed octets more : List UInt8) (v : UInt8) :
    (∃ address, decodeAddressAlphaNum coder (cursor passed (v :: (octets ++ more))) bcdLen
        addrLen = some (address, cursor (passed ++ v :: octets) more)) ↔
      octets.length = bcdLen ∧ 0 < addrLen * 4 / 7 ∧ addrLen * 4 / 7 ≤ 20 := by
  simp only [decodeAddressAlphaNum, readByte_cursor_cons, Option.bind_eq_bind, Option.bind_some,
    Option.bind_eq_some_iff, Prod.exists, Option.some.injEq, Prod.mk.injEq]
  rw [← isSome_unpack7bitCharForMiddlePart coder octets, Option.isSome_iff_exists]
  constructor
  · rintro ⟨address, read, c, hread, septets, hseptets, -, rfl⟩
    obtain ⟨rest, hlen, heq, hc⟩ := readBytes_cursor_eq_some hread
    have hindex := congrArg SmsPduBuffer.index hc
    simp only [cursor_index, List.length_append, List.length_cons, List.length_nil] at hindex
    obtain rfl : octets = read := (List.append_inj heq (by omega)).1
    exact ⟨hlen, septets, hseptets⟩
  · rintro ⟨rfl, septets, hseptets⟩
    exact ⟨_, octets, _, readBytes_cursor octets _ more, septets, hseptets, rfl, by simp⟩

/-- A value made of the one that was read comes with the same buffer. -/
theorem exists_bind_some_iff {α β : Type} (x : Option (α × SmsPduBuffer)) (f : α → β)
    (b : SmsPduBuffer) :
    (∃ w, (x.bind fun r => some (f r.1, r.2)) = some (w, b)) ↔ ∃ v, x = some (v, b) := by
  cases x with
  | none => simp
  | some r => simp [Prod.ext_iff]

/-- An address takes two octets at least. -/
theorem two_le_of_decodeAddressPdu {coder : TextCoder} {passed xs contents more : List UInt8}
    {num : AddressNumber}
    (h : decodeAddressPdu coder (cursor passed xs) = some (num, cursor (passed ++ contents) more)) :
    2 ≤ contents.length := by
  obtain ⟨addrLen, octets, rest, -, hne, -, hc⟩ := decodeAddressPdu_cursor h
  have hindex := congrArg SmsPduBuffer.index hc
  have hpos := List.length_pos_iff.mpr hne
  simp only [cursor_index, List.length_append, List.length_cons] at hindex
  omega

theorem decodeAddressPdu_takes_iff (coder : TextCoder) (passed contents more : List UInt8) :
    (∃ num, decodeAddressPdu coder (cursor passed (contents ++ more)) =
      some (num, cursor (passed ++ contents) more)) ↔ isAddress contents = true := by
  match contents with
  | [] =>
      simp only [isAddress, Bool.false_eq_true, iff_false, not_exists]
      intro num h
      simpa using two_le_of_decodeAddressPdu h
  | [addrLen] =>
      simp only [isAddress, Bool.false_eq_true, iff_false, not_exists]
      intro num h
      simpa using two_le_of_decodeAddressPdu h
  | addrLen :: oneByte :: octets =>
      have hbcd : (if addrLen.toNat % 2 = 0 then addrLen.toNat / 2 else addrLen.toNat / 2 + 1) =
          (addrLen.toNat + 1) / 2 := by
        split <;> omega
      have hlt : addrLen ≥ 44 ↔ 44 ≤ addrLen.toNat := UInt8.le_iff_toNat_le
      have happend : passed ++ addrLen :: oneByte :: octets =
          (passed ++ [addrLen]) ++ oneByte :: octets := by simp
      simp only [List.cons_append, decodeAddressPdu, readByte_cursor_cons, Option.bind_eq_bind,
        Option.bind_some, pickOneByte_cursor_cons, hbcd, isAddress, happend]
      by_cases hlong : addrLen ≥ 44
      · rw [hlt] at hlong
        simp only [hlt.mpr hlong, if_true, reduceCtorEq, exists_false, false_iff]
        split <;> simp <;> omega
      rw [hlt] at hlong
      simp only [if_neg (mt hlt.mp hlong)]
      have hnum (x : Option (List UInt8 × SmsPduBuffer)) (b : SmsPduBuffer) :=
        exists_bind_some_iff x
          (fun address => (⟨(oneByte &&& 0x70) >>> 4, 0, address⟩ : AddressNumber)) b
      have hdigits := decodeAddressDigits_takes_iff ((addrLen.toNat + 1) / 2)
        (passed ++ [addrLen]) octets more oneByte
      rw [show 0 < (addrLen.toNat + 1) / 2 ↔ 0 < addrLen.toNat by omega] at hdigits
      by_cases halpha : (oneByte &&& 0x70) >>> 4 = 5
      · simp only [if_pos halpha]
        rw [hnum, decodeAddressAlphaNum_takes_iff, decide_eq_true_eq]
        omega
      by_cases hinter : (oneByte &&& 0x70) >>> 4 = 1
      · simp only [if_neg halpha, if_pos hinter, decodeAddressInternationalNum, Option.bind_eq_bind]
        rw [hnum, exists_bind_some_iff _ (fun addrNum => (regProcessSmsAddrs addrNum).take 21),
          hdigits, decide_eq_true_eq]
        simp [Nat.not_le.mp hlong]
      · simp only [if_neg halpha, if_neg hinter, decodeAddressDefaultNum, Option.bind_eq_bind]
        rw [hnum, exists_bind_some_iff _ (List.take 21), hdigits, decide_eq_true_eq]
        simp [Nat.not_le.mp hlong]

theorem afterElement_replyAddress_iff (coder : TextCoder) (passed contents more : List UInt8)
    (hlt : contents.length < 256) :
    afterElement (decodeHeaderReplyAddress coder)
        (cursor passed (UInt8.ofNat contents.length :: (contents ++ more))) =
      some (cursor (passed ++ UInt8.ofNat contents.length :: contents) more) ↔
    isAddress contents = true := by
  have happend : passed ++ UInt8.ofNat contents.length :: contents =
      (passed ++ [UInt8.ofNat contents.length]) ++ contents := by simp
  rw [afterElement_eq_some, happend]
  by_cases hnil : contents = []
  · subst hnil
    simp [decodeHeaderReplyAddress, decodeHeaderLength, isAddress]
  · have hne : ¬ UInt8.ofNat contents.length = 0 := by
      rw [ofNat_eq_iff hlt]
      simpa using hnil
    rw [← decodeAddressPdu_takes_iff coder (passed ++ [UInt8.ofNat contents.length]) contents more,
      ← exists_bind_some_iff _ SmsUDH.alternateReplyAddress]
    simp only [decodeHeaderReplyAddress, decodeHeaderLength, readByte_cursor_cons,
      Option.bind_eq_bind, Option.bind_some, if_neg hne]

/-- The decoder takes an element in full exactly when its contents have the
size that is read for its type. -/
theorem decodeHeader_takes_iff (coder : TextCoder) (element : InformationElement)
    (passed more : List UInt8) (hlt : element.contents.length < 256) :
    (∃ header, decodeHeader coder (cursor passed (element.octets ++ more)) =
      some (header, cursor (passed ++ element.octets) more)) ↔ element.isSized = true := by
  obtain ⟨udhType, contents⟩ := element
  have happend : passed ++ InformationElement.octets ⟨udhType, contents⟩ =
      (passed ++ [udhType]) ++ UInt8.ofNat contents.length :: contents := by
    simp [InformationElement.octets]
  have hfixed {n : Nat} (hn : 0 < n) := decodeHeaderLength_takes_iff hlt hn (passed ++ [udhType])
    contents more rfl
  rw [happend]
  simp only [InformationElement.octets, List.cons_append, decodeHeader, readByte_cursor_cons,
    Option.bind_eq_bind, Option.bind_some, InformationElement.isSized]
  by_cases hconcat8 : udhType = 0x00
  · rw [if_pos hconcat8, if_pos hconcat8, ← afterElement_eq_some,
      after_concat8Bit, hfixed (by omega), decide_eq_true_eq]
  rw [if_neg hconcat8, if_neg hconcat8]
  by_cases hconcat16 : udhType = 0x08
  · rw [if_pos hconcat16, if_pos hconcat16, ← afterElement_eq_some,
      after_concat16Bit, hfixed (by omega), decide_eq_true_eq]
  rw [if_neg hconcat16, if_neg hconcat16]
  by_cases hport8 : udhType = 0x04
  · rw [if_pos hport8, if_pos hport8, ← afterElement_eq_some,
      after_appPort8Bit, hfixed (by omega), decide_eq_true_eq]
  rw [if_neg hport8, if_neg hport8]
  by_cases hport16 : udhType = 0x05
  · rw [if_pos hport16, if_pos hport16, ← afterElement_eq_some,
      after_appPort16Bit, hfixed (by omega), decide_eq_true_eq]
  rw [if_neg hport16, if_neg hport16]
  by_cases hspecial : udhType = 0x01
  · rw [if_pos hspecial, if_pos hspecial, ← afterElement_eq_some,
      afterElement_specialSms_iff _ _ _ hlt, decide_eq_true_eq]
  rw [if_neg hspecial, if_neg hspecial]
  by_cases hreply : udhType = 0x22
  · rw [if_pos hreply, if_pos hreply, ← afterElement_eq_some,
      afterElement_replyAddress_iff _ _ _ _ hlt]
  rw [if_neg hreply, if_neg hreply]
  by_cases hsingle : udhType = 0x24
  · rw [if_pos hsingle, if_pos hsingle, ← afterElement_eq_some,
      after_singleShift, hfixed (by omega), decide_eq_true_eq]
  rw [if_neg hsingle, if_neg hsingle]
  by_cases hlocking : udhType = 0x25
  · rw [if_pos hlocking, if_pos hlocking, ← afterElement_eq_some,
      after_lockingShift, hfixed (by omega), decide_eq_true_eq]
  rw [if_neg hlocking, if_neg hlocking]
  have hskip := afterElement_eq_some.mp
    (afterElement_defaultCase udhType (passed ++ [udhType]) contents more hlt)
  simpa using hskip

/-! ## The loops -/

/-- The elements as the decoder takes them one after the other from `b` on: one
header for each, and two octets and the contents for each header. -/
def TakenAs (coder : TextCoder) :
    List InformationElement → SmsPduBuffer → List SmsUDH → SmsPduBuffer → Prop
  | [], b, headers, b' => headers = [] ∧ b' = b
  | element :: elements, b, headers, b' =>
      ∃ header others c, headers = header :: others ∧ decodeHeader coder b = some (header, c) ∧
        c.index = b.index + 2 + element.contents.length ∧ TakenAs coder elements c others b'

/-- A decoded element that ends where its contents do was taken in full. -/
theorem eq_cursor_of_decodeHeader {coder : TextCoder} {element : InformationElement}
    {passed more : List UInt8} {header : SmsUDH} {c : SmsPduBuffer}
    (h : decodeHeader coder (cursor passed (element.octets ++ more)) = some (header, c))
    (hindex : c.index = passed.length + 2 + element.contents.length) :
    c = cursor (passed ++ element.octets) more := by
  obtain ⟨used, rest, heq, rfl, -⟩ := decodeHeader_sound h
  rw [cursor_index, List.length_append] at hindex
  obtain ⟨rfl, rfl⟩ := List.append_inj heq (by rw [InformationElement.length_octets]; omega)
  rfl

theorem TakenAs.eq_cursor {coder : TextCoder} {elements : List InformationElement}
    {passed rest : List UInt8} {b : SmsPduBuffer} {headers : List SmsUDH}
    (h : TakenAs coder elements (cursor passed (elements.flatMap InformationElement.octets ++ rest))
      headers b) :
    b = cursor (passed ++ elements.flatMap InformationElement.octets) rest := by
  induction elements generalizing passed headers with
  | nil =>
      obtain ⟨-, rfl⟩ := h
      simp
  | cons element elements ih =>
      obtain ⟨header, others, c, -, hdecode, hindex, hothers⟩ := h
      rw [List.flatMap_cons, List.append_assoc] at hdecode
      obtain rfl := eq_cursor_of_decodeHeader hdecode hindex
      rw [ih hothers, List.flatMap_cons, List.append_assoc]

theorem length_octets_le_of_mem {element : InformationElement} {elements : List InformationElement}
    (h : element ∈ elements) :
    element.octets.length ≤ (elements.flatMap InformationElement.octets).length := by
  obtain ⟨before, after, rfl⟩ := List.append_of_mem h
  simp only [List.flatMap_append, List.flatMap_cons, List.length_append]
  omega

section Loop

variable {coder : TextCoder} {more : SmsPduBuffer → Bool}
  {bad : SmsPduBuffer → SmsPduBuffer → Bool}

/-- A loop that goes on below `limit` takes all elements up to `last` exactly
when there are not too many, each has the size that is read for it, and the
last of them starts below `limit`. -/
theorem decodeHeaders_takenAs_iff (limit last : Nat) (elements : List InformationElement)
    (passed rest : List UInt8) {n : Nat} (hmore : ∀ p r, passed.length ≤ p.length →
      more (cursor p r) = decide (p.length < limit))
    (hbad : ∀ p r p' r', passed.length ≤ p.length → p'.length ≤ last →
      bad (cursor p r) (cursor p' r') = false)
    (hlast : last = passed.length + (elements.flatMap InformationElement.octets).length)
    (hlimit : limit ≤ last) (hcontents : ∀ element ∈ elements, element.contents.length < 256) :
    (∃ headers b, decodeHeaders coder more bad n
        (cursor passed (elements.flatMap InformationElement.octets ++ rest)) = some (headers, b) ∧
      TakenAs coder elements (cursor passed (elements.flatMap InformationElement.octets ++ rest))
        headers b) ↔
      elements.length ≤ n ∧ (∀ element ∈ elements, element.isSized = true) ∧
        ∀ element, elements.getLast? = some element → last < limit + element.octets.length := by
  induction elements generalizing passed n with
  | nil =>
      have hstop : more (cursor passed rest) = false := by
        rw [hmore passed rest (Nat.le_refl _)]
        simp at hlast ⊢
        omega
      have hloop : decodeHeaders coder more bad n (cursor passed rest) =
          some ([], cursor passed rest) := by
        cases n <;> simp [decodeHeaders, hstop]
      simp [hloop, TakenAs]
  | cons element elements ih =>
      rw [List.flatMap_cons, List.length_append] at hlast
      rw [List.flatMap_cons, List.append_assoc]
      have hlength := element.length_octets
      -- the last element starts below `limit` when the rest does and this one does
      have hstart : (∀ e, (element :: elements).getLast? = some e → last < limit + e.octets.length) ↔
          passed.length < limit ∧
            ∀ e, elements.getLast? = some e → last < limit + e.octets.length := by
        cases hrest : elements.getLast? with
        | none =>
            obtain rfl := List.getLast?_eq_none_iff.mp hrest
            simp at hlast ⊢
            omega
        | some e =>
            have hle := length_octets_le_of_mem (List.mem_of_getLast? hrest)
            rw [List.getLast?_cons, hrest]
            simp only [Option.getD_some, Option.some.injEq, forall_eq']
            omega
      rw [hstart, List.forall_mem_cons, List.length_cons]
      cases n with
      | zero => simp [decodeHeaders, TakenAs]
      | succ n =>
          have hih := ih (passed ++ element.octets) (n := n)
            (fun p r hp => hmore p r (by simp at hp; omega))
            (fun p r p' r' hp => hbad p r p' r' (by simp at hp; omega))
            (by rw [List.length_append]; omega) (fun e he => hcontents e (by simp [he]))
          obtain ⟨tail, htail⟩ :
              ∃ tail, elements.flatMap InformationElement.octets ++ rest = tail := ⟨_, rfl⟩
          rw [htail] at hih ⊢
          rw [← decodeHeader_takes_iff coder element passed tail (hcontents element (by simp))]
          have hcont := hmore passed (element.octets ++ tail) (Nat.le_refl _)
          by_cases hgo : passed.length < limit
          · rw [decide_eq_true hgo] at hcont
            have hfine : ¬ ((cursor (passed ++ element.octets) tail).index ≤
                  (cursor passed (element.octets ++ tail)).index ∨
                bad (cursor passed (element.octets ++ tail))
                  (cursor (passed ++ element.octets) tail) = true) := by
              rw [hbad _ _ _ _ (Nat.le_refl _) (by rw [List.length_append]; omega)]
              simp only [cursor_index, List.length_append, Bool.false_eq_true, or_false]
              omega
            constructor
            · rintro ⟨headers, b, hloop, header, others, c, rfl, hdecode, hindex, hothers⟩
              obtain rfl := eq_cursor_of_decodeHeader hdecode hindex
              rw [decodeHeaders, if_pos hcont, hdecode, Option.bind_eq_bind, Option.bind_some] at hloop
              simp only [if_neg hfine, Option.bind_eq_bind, Option.bind_eq_some_iff, Prod.exists,
                Option.some.injEq, Prod.mk.injEq, List.cons.injEq] at hloop
              obtain ⟨_, _, hrec, ⟨-, rfl⟩, rfl⟩ := hloop
              obtain ⟨hn, hsized, hend⟩ := hih.mp ⟨_, _, hrec, hothers⟩
              exact ⟨by omega, ⟨⟨header, hdecode⟩, hsized⟩, hgo, hend⟩
            · rintro ⟨hn, ⟨⟨header, hdecode⟩, hsized⟩, -, hend⟩
              obtain ⟨others, b, hrec, hothers⟩ := hih.mpr ⟨by omega, hsized, hend⟩
              refine ⟨header :: others, b, ?_, header, others, _, rfl, hdecode, ?_, hothers⟩
              · rw [decodeHeaders, if_pos hcont, hdecode, Option.bind_eq_bind, Option.bind_some]
                simp only [if_neg hfine, hrec, Option.bind_some, Option.bind_eq_bind]
              · simp only [cursor_index, List.length_append]
                omega
          · rw [decide_eq_false hgo] at hcont
            simp [decodeHeaders, hcont, TakenAs, hgo]

end Loop

/-! ## The three decoders -/

/-- The header loop of each decoder; `current` is the index of `UDL`. -/
def headerLoop (coder : TextCoder) (scheme : DataCodingScheme) (current udhl : Nat)
    (b : SmsPduBuffer) : Option (List SmsUDH × SmsPduBuffer) :=
  match scheme with
  | .dataCoding7Bit => decodeHeaders coder (fun b => b.index < (current + 2) % 256 + udhl)
      (fun _ b => b.index > b.getSize) 7 b
  | .dataCoding8Bit => decodeHeaders coder (fun b => b.index - (current + 2) < udhl)
      (fun b b' => b'.index - b.index > udhl + 2) 7 b
  | .dataCodingUcs2 => decodeHeaders coder (fun b => b.index < udhl + current)
      (fun _ b' => b'.index > current + udhl + 2) 7 b
  | _ => none

/-- Where the body starts once the loop has ended with `b`: the index, and the
bits that are left out after it. -/
def bodyStart (scheme : DataCodingScheme) (udl udhl : Nat) (b : SmsPduBuffer) : Nat × Nat :=
  match scheme with
  | .dataCoding7Bit => (b.index, (septetCount udl udhl).2)
  | .dataCoding8Bit => ((if udhl > 0 ∧ udl ≥ udhl + 1 then b.moveForward 1 else b).index, 0)
  | _ => (b.index, 0)

/-- The body that is read from its start on. -/
def bodyFrom (scheme : DataCodingScheme) (udl udhl : Nat) (b : SmsPduBuffer) :
    Option (List UInt8) :=
  let start := bodyStart scheme udl udhl b
  let b := { b with index := start.1 }
  match scheme with
  | .dataCoding7Bit => (unpack7bitChar b (septetCount udl udhl).1 start.2 161).map Prod.fst
  | _ => some (decodeOctetBody b (bodyLength udl udhl)).1

section Decoders

variable {coder : TextCoder} {passed xs : List UInt8} {udl udhl : UInt8}
  {pTPUD pTPUD' : Option SmsTpud} {userData : SmsUDPackage} {b : SmsPduBuffer}

theorem decodeGsmPdu_headerLoop
    (h : decodeGsmPdu coder (cursor passed (udl :: udhl :: xs)) true pTPUD =
      some (userData, pTPUD', b)) :
    ∃ c, headerLoop coder .dataCoding7Bit passed.length udhl.toNat
        (cursor (passed ++ [udl, udhl]) xs) = some (userData.header, c) ∧
      bodyFrom .dataCoding7Bit udl.toNat udhl.toNat c = some userData.data := by
  simp only [decodeGsmPdu, Option.bind_eq_bind, Option.bind_eq_some_iff, Prod.exists,
    Option.some.injEq, Prod.mk.injEq] at h
  obtain ⟨header, count, fillBits, _, c, hhead, data, d, hunpack, rfl, -, -⟩ := h
  have happend : passed ++ [udl] ++ [udhl] = passed ++ [udl, udhl] := by simp
  have hfirst : (cursor (passed ++ [udl, udhl]) xs).index = passed.length + 2 := by simp
  simp only [decodeGsmHeadPdu, readByte_cursor_cons, Option.bind_eq_bind, Option.bind_some] at hhead
  split at hhead
  · simp at hhead
  simp only [if_true, Option.bind_eq_some_iff, Prod.exists, happend, hfirst] at hhead
  obtain ⟨_, _, hloop, hcount⟩ := hhead
  have hpair : (count, fillBits) = septetCount udl.toNat udhl.toNat ∧
      some (header, c) = headerLoop coder .dataCoding7Bit passed.length udhl.toNat
        (cursor (passed ++ [udl, udhl]) xs) := by
    unfold septetCount headerLoop
    split at hcount
    · next hlong =>
        cases hcount
        exact ⟨by rw [if_pos hlong], hloop.symm⟩
    · next hshort =>
        cases hcount
        exact ⟨by rw [if_neg hshort], hloop.symm⟩
  refine ⟨c, hpair.2.symm, ?_⟩
  simp only [bodyFrom, bodyStart, ← hpair.1]
  rw [show ({ c with index := c.index } : SmsPduBuffer) = c from rfl, hunpack]
  rfl

/-- Moving changes the index only. -/
theorem moveForward_eq_index (b : SmsPduBuffer) (len : Nat) :
    ({ b with index := (b.moveForward len).index } : SmsPduBuffer) = b.moveForward len := by
  unfold moveForward
  split
  · rfl
  split <;> rfl

theorem decode8bitPduPartData_headerLoop
    (h : decode8bitPduPartData coder (cursor (passed ++ [udl]) (udhl :: xs)) true udl.toNat =
      some (userData, b)) :
    ∃ c, headerLoop coder .dataCoding8Bit passed.length udhl.toNat
        (cursor (passed ++ [udl, udhl]) xs) = some (userData.header, c) ∧
      bodyFrom .dataCoding8Bit udl.toNat udhl.toNat c = some userData.data := by
  have happend : passed ++ [udl] ++ [udhl] = passed ++ [udl, udhl] := by simp
  have hfirst : (cursor (passed ++ [udl, udhl]) xs).index = passed.length + 2 := by simp
  simp only [decode8bitPduPartData, if_true, readByte_cursor_cons, Option.bind_eq_bind,
    Option.bind_some, Option.bind_eq_some_iff, Prod.exists, happend, hfirst] at h
  obtain ⟨header, c, hloop, h⟩ := h
  obtain ⟨moved, hmoved⟩ : ∃ moved, (if udhl.toNat > 0 ∧ udl.toNat ≥ udhl.toNat + 1 then
    c.moveForward 1 else c) = moved := ⟨_, rfl⟩
  rw [hmoved] at h
  split at h
  · simp at h
  · cases h
    have hindex : ({ c with index := moved.index } : SmsPduBuffer) = moved := by
      rw [← hmoved]
      split
      · exact moveForward_eq_index c 1
      · rfl
    refine ⟨c, hloop, ?_⟩
    simp only [bodyFrom, bodyStart, hmoved, hindex]

theorem decodeUcs2PduPartData_headerLoop
    (h : decodeUcs2PduPartData coder (cursor (passed ++ [udl]) (udhl :: xs)) true passed.length
      udl.toNat = some (userData, b)) :
    ∃ c, headerLoop coder .dataCodingUcs2 passed.length udhl.toNat
        (cursor (passed ++ [udl, udhl]) xs) = some (userData.header, c) ∧
      bodyFrom .dataCodingUcs2 udl.toNat udhl.toNat c = some userData.data := by
  have happend : passed ++ [udl] ++ [udhl] = passed ++ [udl, udhl] := by simp
  simp only [decodeUcs2PduPartData, if_true, readByte_cursor_cons, Option.bind_eq_bind,
    Option.bind_some, Option.bind_eq_some_iff, Prod.exists, happend] at h
  obtain ⟨header, c, hloop, h⟩ := h
  split at h
  · simp at h
  · cases h
    exact ⟨c, hloop, rfl⟩

/-- User data that a decoder returns was read by its loop and from where its
body starts. -/
theorem decodeUserDataPdu_headerLoop {scheme : DataCodingScheme} (hscheme : scheme.isWritten = true)
    (h : decodeUserDataPdu coder (cursor passed (udl :: udhl :: xs)) true scheme pTPUD =
      some (userData, pTPUD', b)) :
    ∃ c, headerLoop coder scheme passed.length udhl.toNat (cursor (passed ++ [udl, udhl]) xs) =
        some (userData.header, c) ∧
      bodyFrom scheme udl.toNat udhl.toNat c = some userData.data := by
  cases scheme with
  | dataCoding7Bit => exact decodeGsmPdu_headerLoop h
  | dataCoding8Bit =>
      obtain ⟨c, hpart⟩ := decode8bitPdu_partData h
      exact decode8bitPduPartData_headerLoop hpart
  | dataCodingUcs2 =>
      obtain ⟨c, hpart⟩ := decodeUcs2Pdu_partData h
      exact decodeUcs2PduPartData_headerLoop hpart
  | dataCodingAuto => simp [DataCodingScheme.isWritten] at hscheme
  | dataCodingEuckr => simp [DataCodingScheme.isWritten] at hscheme
  | dataCodingAscii7Bit => simp [DataCodingScheme.isWritten] at hscheme

end Decoders

/-! ## Headers that are taken as they are -/

/-- The bits from the end of the headers to the next septet. -/
def fillBits (scheme : DataCodingScheme) (udhl : Nat) : Nat :=
  if scheme = .dataCoding7Bit then (7 - (udhl + 1) * 8 % 7) % 7 else 0

/-- The loop takes each element as two octets and its contents, `UDHL` octets in
all, and the body starts behind them and the fill bits. -/
def HeadersConsumed (coder : TextCoder) (scheme : DataCodingScheme) (passed : List UInt8)
    (udl : UInt8) (elements : List InformationElement) (rest : List UInt8) : Prop :=
  let octets := elements.flatMap InformationElement.octets
  let first := cursor (passed ++ [udl, UInt8.ofNat octets.length]) (octets ++ rest)
  ∃ headers b, headerLoop coder scheme passed.length octets.length first = some (headers, b) ∧
    TakenAs coder elements first headers b ∧ b.index = first.index + octets.length ∧
    bodyStart scheme udl.toNat octets.length b =
      (first.index + octets.length, fillBits scheme octets.length)

/-- What each decoder needs for its body to start in the right place: septets a
`UDL` that covers the headers or no fill bits, octets nothing behind the headers
or no headers, UCS2 a last element with contents. -/
def BodyInPlace (scheme : DataCodingScheme) (udl : Nat) (elements : List InformationElement)
    (rest : List UInt8) : Prop :=
  let udhl := (elements.flatMap InformationElement.octets).length
  match scheme with
  | .dataCoding7Bit => (udhl + 1) % 7 = 0 ∨ 0 < udhl ∧ (udhl + 1) * 8 ≤ udl * 7
  | .dataCoding8Bit => udhl = 0 ∨ udl ≤ udhl ∨ rest = []
  | _ => ∀ element, elements.getLast? = some element → element.contents ≠ []

theorem headerLoop_takenAs_iff (coder : TextCoder) {scheme : DataCodingScheme}
    (passed : List UInt8) (udl udhl : UInt8) (elements : List InformationElement)
    (rest : List UInt8) (hscheme : scheme.isWritten = true)
    (hsize : passed.length + 2 + (elements.flatMap InformationElement.octets).length +
      rest.length ≤ 256) :
    (∃ headers b, headerLoop coder scheme passed.length
        (elements.flatMap InformationElement.octets).length (cursor (passed ++ [udl, udhl])
          (elements.flatMap InformationElement.octets ++ rest)) = some (headers, b) ∧
      TakenAs coder elements (cursor (passed ++ [udl, udhl])
        (elements.flatMap InformationElement.octets ++ rest)) headers b) ↔
      elements.length ≤ 7 ∧ (∀ element ∈ elements, element.isSized = true) ∧
        (scheme = .dataCodingUcs2 →
          ∀ element, elements.getLast? = some element → element.contents ≠ []) := by
  have hcontents : ∀ element ∈ elements, element.contents.length < 256 := by
    intro element hmem
    have hle := length_octets_le_of_mem hmem
    rw [InformationElement.length_octets] at hle
    omega
  have hfirst : (passed ++ [udl, udhl]).length = passed.length + 2 := by simp
  obtain ⟨total, htotal⟩ :
      ∃ total, (elements.flatMap InformationElement.octets).length = total := ⟨_, rfl⟩
  rw [htotal] at hsize ⊢
  cases scheme with
  | dataCoding7Bit =>
      -- the index fits an octet unless nothing follows
      have hlimit : (passed.length + 2) % 256 + total = passed.length + 2 + total ∨
          total = 0 ∧ (passed.length + 2) % 256 = 0 := by omega
      rw [headerLoop, decodeHeaders_takenAs_iff ((passed.length + 2) % 256 + total)
        (passed.length + 2 + total) elements (passed ++ [udl, udhl]) rest (fun _ _ _ => rfl)
        (fun p r p' r' _ _ => by simp) (by rw [hfirst, htotal]) (by omega) hcontents]
      have hend : ∀ element, elements.getLast? = some element →
          passed.length + 2 + total < (passed.length + 2) % 256 + total + element.octets.length := by
        intro element hlast
        have hle := length_octets_le_of_mem (List.mem_of_getLast? hlast)
        rw [InformationElement.length_octets] at hle ⊢
        omega
      simp only [reduceCtorEq, false_implies, and_true]
      exact ⟨fun h => ⟨h.1, h.2.1⟩, fun h => ⟨h.1, h.2, hend⟩⟩
  | dataCoding8Bit =>
      have hmore (p : List UInt8) (hp : (passed ++ [udl, udhl]).length ≤ p.length) :
          decide (p.length - (passed.length + 2) < total) =
            decide (p.length < passed.length + 2 + total) := by
        rw [decide_eq_decide]
        omega
      rw [headerLoop, decodeHeaders_takenAs_iff (passed.length + 2 + total)
        (passed.length + 2 + total) elements (passed ++ [udl, udhl]) rest
        (fun p _ hp => hmore p hp) (fun p r p' r' hp hp' => by simp at hp ⊢; omega)
        (by rw [hfirst, htotal]) (by omega) hcontents]
      simp
  | dataCodingUcs2 =>
      rw [headerLoop, decodeHeaders_takenAs_iff (total + passed.length)
        (passed.length + 2 + total) elements (passed ++ [udl, udhl]) rest (fun _ _ _ => rfl)
        (fun p r p' r' hp hp' => by simp; omega) (by rw [hfirst, htotal]) (by omega) hcontents]
      have hend (element : InformationElement) :
          passed.length + 2 + total < total + passed.length + element.octets.length ↔
            element.contents ≠ [] := by
        rw [InformationElement.length_octets, ← List.length_pos_iff]
        omega
      simp only [hend, true_implies]
  | dataCodingAuto => simp [DataCodingScheme.isWritten] at hscheme
  | dataCodingEuckr => simp [DataCodingScheme.isWritten] at hscheme
  | dataCodingAscii7Bit => simp [DataCodingScheme.isWritten] at hscheme

theorem septetCount_snd_iff (udl udhl : Nat) :
    (septetCount udl udhl).2 = (7 - (udhl + 1) * 8 % 7) % 7 ↔
      (udhl + 1) % 7 = 0 ∨ 0 < udhl ∧ (udhl + 1) * 8 ≤ udl * 7 := by
  unfold septetCount
  split <;> simp only <;> omega

theorem moveForward_one_index_iff (before rest : List UInt8) :
    ((cursor before rest).moveForward 1).index = before.length ↔ rest = [] := by
  cases rest <;> simp

/-- The body is in place when the last element of UCS2 headers is read and the
body starts behind the headers. -/
theorem bodyInPlace_iff {scheme : DataCodingScheme} (hscheme : scheme.isWritten = true) (udl : Nat)
    (elements : List InformationElement) (before rest : List UInt8) :
    BodyInPlace scheme udl elements rest ↔
      (scheme = .dataCodingUcs2 →
        ∀ element, elements.getLast? = some element → element.contents ≠ []) ∧
      bodyStart scheme udl (elements.flatMap InformationElement.octets).length
        (cursor before rest) =
          (before.length, fillBits scheme (elements.flatMap InformationElement.octets).length) := by
  obtain ⟨total, htotal⟩ :
      ∃ total, (elements.flatMap InformationElement.octets).length = total := ⟨_, rfl⟩
  cases scheme with
  | dataCoding7Bit =>
      simp only [BodyInPlace, bodyStart, fillBits, cursor_index, if_true, Prod.mk.injEq, true_and,
        septetCount_snd_iff, reduceCtorEq, false_implies]
  | dataCoding8Bit =>
      simp only [BodyInPlace, bodyStart, fillBits, Prod.mk.injEq, reduceCtorEq, if_false, and_true,
        false_implies, true_and, htotal]
      split
      · rw [moveForward_one_index_iff]
        constructor
        · rintro (h | h | h)
          · omega
          · omega
          · exact h
        · exact fun h => .inr (.inr h)
      · simp only [cursor_index, iff_true]
        omega
  | dataCodingUcs2 => simp [BodyInPlace, bodyStart, fillBits]
  | dataCodingAuto => simp [DataCodingScheme.isWritten] at hscheme
  | dataCodingEuckr => simp [DataCodingScheme.isWritten] at hscheme
  | dataCodingAscii7Bit => simp [DataCodingScheme.isWritten] at hscheme

/-- Each of the decoders takes a user data header as it stands exactly when it
has at most seven elements, each with contents of the size that is read for its
type, and the body is in place. -/
theorem headersConsumed_iff (coder : TextCoder) (scheme : DataCodingScheme)
    (passed : List UInt8) (udl : UInt8) (elements : List InformationElement) (rest : List UInt8)
    (hscheme : scheme.isWritten = true)
    (hsize : passed.length + 2 + (elements.flatMap InformationElement.octets).length +
      rest.length ≤ 256) :
    HeadersConsumed coder scheme passed udl elements rest ↔
      elements.length ≤ 7 ∧ (∀ element ∈ elements, element.isSized = true) ∧
        BodyInPlace scheme udl.toNat elements rest := by
  have hloop := headerLoop_takenAs_iff coder passed udl
    (UInt8.ofNat (elements.flatMap InformationElement.octets).length) elements rest hscheme hsize
  have hbefore : (passed ++ [udl, UInt8.ofNat (elements.flatMap InformationElement.octets).length] ++
      elements.flatMap InformationElement.octets).length =
        passed.length + 2 + (elements.flatMap InformationElement.octets).length := by
    simp only [List.length_append, List.length_cons, List.length_nil]
  -- the loop and the start of the body are judged apart
  have hsplit : HeadersConsumed coder scheme passed udl elements rest ↔
      (elements.length ≤ 7 ∧ (∀ element ∈ elements, element.isSized = true) ∧
        (scheme = .dataCodingUcs2 →
          ∀ element, elements.getLast? = some element → element.contents ≠ [])) ∧
      bodyStart scheme udl.toNat (elements.flatMap InformationElement.octets).length
        (cursor (passed ++ [udl, UInt8.ofNat (elements.flatMap InformationElement.octets).length] ++
          elements.flatMap InformationElement.octets) rest) =
        (passed.length + 2 + (elements.flatMap InformationElement.octets).length,
          fillBits scheme (elements.flatMap InformationElement.octets).length) := by
    rw [← hloop]
    constructor
    · rintro ⟨headers, b, hrun, htaken, -, hstart⟩
      refine ⟨⟨headers, b, hrun, htaken⟩, ?_⟩
      rw [← htaken.eq_cursor, hstart]
      simp
    · rintro ⟨⟨headers, b, hrun, htaken⟩, hstart⟩
      refine ⟨headers, b, hrun, htaken, ?_, ?_⟩
      · rw [htaken.eq_cursor]
        simp
        omega
      · rw [htaken.eq_cursor, hstart]
        simp
  rw [hsplit, bodyInPlace_iff hscheme udl.toNat elements (passed ++
    [udl, UInt8.ofNat (elements.flatMap InformationElement.octets).length] ++
      elements.flatMap InformationElement.octets) rest, hbefore]
  simp only [and_assoc]

/-- A concatenation element and an unknown one without contents, before septets. -/
theorem headersConsumed_unknown :
    HeadersConsumed ⟨id, id⟩ .dataCoding7Bit [0x40] 11
      [⟨0x00, [0x07, 0x02, 0x01]⟩, ⟨0x70, []⟩] [0x90, 0x69] :=
  (headersConsumed_iff ⟨id, id⟩ .dataCoding7Bit [0x40] 11
    [⟨0x00, [0x07, 0x02, 0x01]⟩, ⟨0x70, []⟩] [0x90, 0x69] rfl (by decide)).mpr
    ⟨by decide, by decide, by simp [BodyInPlace]⟩

/-- Behind one concatenation element the 8-bit body starts one octet late. -/
theorem headersConsumed_late :
    ¬ ∀ (coder : TextCoder) (scheme : DataCodingScheme) (passed : List UInt8) (udl : UInt8)
        (elements : List InformationElement) (rest : List UInt8), scheme.isWritten = true →
      passed.length + 2 + (elements.flatMap InformationElement.octets).length +
        rest.length ≤ 256 → HeadersConsumed coder scheme passed udl elements rest := by
  intro h
  obtain ⟨headers, b, hloop, -, -, hstart⟩ := h ⟨id, id⟩ .dataCoding8Bit [0x40] 8
    [⟨0x00, [0x07, 0x02, 0x01]⟩] [0x48, 0x69] rfl (by decide)
  have hrun : headerLoop ⟨id, id⟩ .dataCoding8Bit 1 5
      (cursor [0x40, 0x08, 0x05] [0x00, 0x03, 0x07, 0x02, 0x01, 0x48, 0x69]) =
        some ([.concat8Bit 7 2 1],
          cursor [0x40, 0x08, 0x05, 0x00, 0x03, 0x07, 0x02, 0x01] [0x48, 0x69]) := by
    decide +kernel
  cases hloop.symm.trans hrun
  revert hstart
  decide

end TelephonySms.Pdu
