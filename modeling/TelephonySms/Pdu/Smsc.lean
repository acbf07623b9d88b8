import TelephonySms.Pdu.ParamRoundTrip

/-! # Service-centre addresses

`EncodeSmscPdu` counts the type octet in the length it writes, and so does what
`DecodeSmscPdu` returns; its digits are read from one octet more, the first of the TPDU.
-/

namespace TelephonySms.Pdu

/-! ## Encoding -/

/-- The array as `DigitToBcd` leaves it. -/
def digitToBcdArray (digit bcd : List UInt8) : Option (List UInt8) := do
  let (bcd, len) ← digitToBcdLoop 0 digit bcd 0
  if len + 1 ≥ bcd.length then none
  else if digit.length % 2 = 1 then some (bcd.set len (bcd.getD len 0 ||| 0xF0))
  else some bcd

/-- The octets in `smscNum`. A `+` is taken off and not looked at any more; a copy of
twenty-one characters has no terminator, and there is no result. -/
def encodeSmscPdu (num : AddressNumber) (smscLen : Nat) : Option (List UInt8) :=
  let newNum := num.dialled
  let addrLen := newNum.length
  let dataSize := if addrLen % 2 = 0 then 2 + addrLen / 2 else 2 + addrLen / 2 + 1
  if addrLen > 20 then none
  else if dataSize > 20 ∨ dataSize ≥ smscLen ∨ dataSize ≤ 1 ∨ smscLen ≤ 2 then none
  else do
    let bcd ← digitToBcdArray newNum (List.replicate (smscLen - 2) 0)
    some (UInt8.ofNat (dataSize - 1) :: ((0x80 : UInt8) + num.ton <<< 4 + num.npi) ::
      bcd.take (dataSize - 2))

/-- The address `GetSubmitEncodeInfo` makes of a number, for an array of twenty octets. -/
def smscAddress (sc : List UInt8) : AddressNumber :=
  ⟨if sc.head? = some 0x2B then 1 else 0, 1, sc⟩

/-! ## Decoding -/

/-- What `BcdToDigit` leaves in `digit`, whether or not it comes to the end. -/
def bcdToDigitText (maxDigitLen : Nat) : List UInt8 → List UInt8 → List UInt8
  | digit, [] => digit
  | digit, octet :: octets =>
      if digit.length + 2 ≥ maxDigitLen then digit
      else
        let digit := digit ++ [bcdToChar (octet &&& 0x0F)]
        let temp := (octet &&& 0xF0) >>> 4
        if temp = 0x0F then digit
        else bcdToDigitText maxDigitLen (digit ++ [bcdToChar temp]) octets

/-- The octets of the address, and the address, which is zero at first. -/
def decodeSmscPdu (pTpdu : List UInt8) (pduLen : UInt8) : Nat × AddressNumber :=
  let addrLen := (pTpdu.getD 0 0).toNat
  let type := pTpdu.getD 1 0
  let ton := (type &&& 0x70) >>> 4
  let npi := type &&& 0x0F
  if pduLen = 0 then (0, ⟨0, 0, []⟩)
  else if addrLen = 0 then (1, ⟨0, 0, []⟩)
  else if addrLen ≥ pduLen.toNat ∨ 1 ≥ pduLen.toNat then (0, ⟨0, 0, []⟩)
  else if addrLen > 21 ∨ 2 + addrLen ≥ pduLen.toNat then (0, ⟨ton, npi, []⟩)
  else
    let addrNum := bcdToDigitText 21 [] ((pTpdu.drop 2).take addrLen)
    (2 + (addrLen - 1),
      ⟨ton, npi, (if ton = 1 then regProcessSmsAddrs addrNum else addrNum).take 21⟩)

/-! ## Which numbers come back -/

/-- The number comes back, with its type and plan and the number of its octets. -/
def SmscKept (sc tpdu : List UInt8) : Prop :=
  ∃ octets, encodeSmscPdu (smscAddress sc) 20 = some octets ∧
    decodeSmscPdu (octets ++ tpdu) (UInt8.ofNat (octets.length + tpdu.length)) =
      (octets.length, smscAddress sc)

theorem digitToBcdArray_blank {cs : List UInt8} {m : Nat}
    (hcs : ∀ c ∈ cs, isDigitChar c = true) (hm : cs.length / 2 + 1 < m) :
    ∃ bcd, digitToBcdArray cs (List.replicate m 0) = some bcd ∧
      bcd.take ((cs.length + 1) / 2) = bcdOctets cs := by
  have hblank := digitToBcd_blank cs m hcs hm
  have hlen := length_bcdOctets cs
  simp only [digitToBcd, Option.bind_eq_bind, Option.bind_eq_some_iff] at hblank
  rcases hblank with ⟨⟨bcd, len⟩, hloop, hend⟩
  simp only [digitToBcdEnd] at hend
  simp only [digitToBcdArray, hloop, Option.bind_eq_bind, Option.bind_some]
  split at hend
  · cases hend
  · next hroom =>
      rw [if_neg hroom]
      -- What is taken has as many octets as there are digits, so `len` counts them.
      have htake {n : Nat} {bcd : List UInt8} (hn : n ≤ bcd.length)
          (h : some (bcd.take n) = some (bcdOctets cs)) :
          bcd.take ((cs.length + 1) / 2) = bcdOctets cs := by
        have heq := Option.some.inj h
        have hcount := congrArg List.length heq
        rw [List.length_take, hlen] at hcount
        rw [← heq, ← hcount, Nat.min_eq_left hn]
      split at hend
      · next hodd =>
          rw [if_pos hodd]
          exact ⟨_, rfl, htake (by rw [List.length_set]; omega) hend⟩
      · next heven =>
          rw [if_neg heven]
          exact ⟨_, rfl, htake (by omega) hend⟩

/-- Of the octets of digits the digits are read, and on where the last of them is full. -/
theorem bcdToDigitText_bcdOctets {cs digit more : List UInt8} {maxDigitLen : Nat}
    (hcs : ∀ c ∈ cs, isDigitChar c = true)
    (hlen : digit.length + 2 * ((cs.length + 1) / 2) < maxDigitLen) :
    bcdToDigitText maxDigitLen digit (bcdOctets cs ++ more) =
      if cs.length % 2 = 1 then digit ++ cs else bcdToDigitText maxDigitLen (digit ++ cs) more := by
  fun_induction bcdOctets cs generalizing digit with
  | case1 => simp
  | case2 c =>
      rcases charToBcd_of_isDigitChar (hcs c (by simp)) with ⟨-, -, hlt, -, hchar⟩
      rcases nibbles_or_shiftLeft (y := 0x0F) hlt (by decide) with ⟨hlow, hhigh⟩
      rw [show (0x0F : UInt8) <<< 4 = 0xF0 from rfl] at hlow hhigh
      have hroom : ¬ digit.length + 2 ≥ maxDigitLen := by
        simp at hlen
        omega
      simp only [List.singleton_append, bcdToDigitText, if_neg hroom, hlow, hhigh, hchar, if_true]
      rfl
  | case3 c d cs ih =>
      rcases charToBcd_of_isDigitChar (hcs c (by simp)) with ⟨-, -, hlt, -, hchar⟩
      rcases charToBcd_of_isDigitChar (hcs d (by simp)) with ⟨-, -, hlt', hne, hchar'⟩
      rcases nibbles_or_shiftLeft hlt hlt' with ⟨hlow, hhigh⟩
      simp only [List.length_cons] at hlen
      have hroom : ¬ digit.length + 2 ≥ maxDigitLen := by omega
      have hrest := @ih (digit ++ [c] ++ [d]) (fun e he => hcs e (by simp [he])) (by simp; omega)
      have hparity : (c :: d :: cs).length % 2 = cs.length % 2 := by
        simp only [List.length_cons]
        omega
      simp only [List.cons_append, bcdToDigitText, if_neg hroom, hlow, hhigh, if_neg hne, hchar,
        hchar', hrest, hparity]
      simp

theorem length_bcdToDigitText (maxDigitLen : Nat) (digit octets : List UInt8) :
    digit.length ≤ (bcdToDigitText maxDigitLen digit octets).length := by
  fun_induction bcdToDigitText maxDigitLen digit octets with
  | case1 => exact Nat.le_refl _
  | case2 => exact Nat.le_refl _
  | case3 digit octet octets hroom digit' temp hend => simp [digit']
  | case4 digit octet octets hroom digit' temp hne ih =>
      simp only [digit', List.length_append, List.length_singleton] at ih ⊢
      omega

/-- With room for it, an octet gives one digit at least. -/
theorem length_bcdToDigitText_cons {maxDigitLen : Nat} {digit : List UInt8}
    (hroom : digit.length + 2 < maxDigitLen) (octet : UInt8) (octets : List UInt8) :
    digit.length < (bcdToDigitText maxDigitLen digit (octet :: octets)).length := by
  rw [bcdToDigitText, if_neg (by omega)]
  simp only
  split
  · simp
  · have hle := length_bcdToDigitText maxDigitLen
      (digit ++ [bcdToChar (octet &&& 0x0F)] ++ [bcdToChar ((octet &&& 0xF0) >>> 4)]) octets
    simp only [List.length_append, List.length_singleton] at hle ⊢
    omega

theorem isDigitChar_of_decimal {c : UInt8} (h : 0x30 ≤ c ∧ c ≤ 0x39) : isDigitChar c = true := by
  simp [isDigitChar, h]

/-- Without marks the digits come back with a `+` in front. -/
theorem matchMarks_decimal {cs : List UInt8} (h : ∀ c ∈ cs, 0x30 ≤ c ∧ c ≤ 0x39) :
    matchMarks cs = none := by
  cases cs with
  | nil => rfl
  | cons c cs =>
      have hc : isMark c = false := by
        have hge := UInt8.le_iff_toNat_le.1 (h c List.mem_cons_self).1
        simp only [isMark, decide_eq_false_iff_not, not_or, ← UInt8.toNat_inj]
        simp only [UInt8.reduceToNat] at hge ⊢
        omega
      simp [matchMarks, hc]

/-- The first two octets, and the digits. -/
theorem encodeSmscPdu_smscAddress {sc : List UInt8}
    (hdigits : ∀ c ∈ (smscAddress sc).dialled, 0x30 ≤ c ∧ c ≤ 0x39)
    (hlen : (smscAddress sc).dialled.length ≤ 19) :
    encodeSmscPdu (smscAddress sc) 20 =
      some (UInt8.ofNat (((smscAddress sc).dialled.length + 1) / 2 + 1) ::
        ((0x80 : UInt8) + (smscAddress sc).ton <<< 4 + 1) :: bcdOctets (smscAddress sc).dialled) := by
  rcases digitToBcdArray_blank (m := 18) (fun c hc => isDigitChar_of_decimal (hdigits c hc))
    (by omega) with ⟨bcd, harray, htake⟩
  have hhalf : (if (smscAddress sc).dialled.length % 2 = 0
      then 2 + (smscAddress sc).dialled.length / 2
      else 2 + (smscAddress sc).dialled.length / 2 + 1) =
        ((smscAddress sc).dialled.length + 1) / 2 + 2 := by
    split <;> omega
  simp only [encodeSmscPdu, hhalf]
  rw [if_neg (by omega), if_neg (by omega), harray]
  simp only [Option.bind_eq_bind, Option.bind_some]
  rw [show ((smscAddress sc).dialled.length + 1) / 2 + 2 - 2 =
    ((smscAddress sc).dialled.length + 1) / 2 by omega, htake]
  rfl

theorem smscAddress_ton {sc : List UInt8}
    (hdigits : ∀ c ∈ (smscAddress sc).dialled, 0x30 ≤ c ∧ c ≤ 0x39) :
    (smscAddress sc).ton = 1 ∧ sc = 0x2B :: (smscAddress sc).dialled ∨
      (smscAddress sc).ton = 0 ∧ sc = (smscAddress sc).dialled := by
  cases hplus : (smscAddress sc).hasPlus with
  | true =>
      have haddress := AddressNumber.address_of_hasPlus hplus
      refine .inl ⟨?_, haddress⟩
      have hhead : sc.head? = some 0x2B := congrArg List.head? haddress
      simp [smscAddress, hhead]
  | false =>
      have hdialled : (smscAddress sc).dialled = sc := if_neg (by simp [hplus])
      refine .inr ⟨?_, hdialled.symm⟩
      rw [hdialled] at hdigits
      cases sc with
      | nil => rfl
      | cons c sc =>
          have hc : c ≠ 0x2B := by
            rintro rfl
            exact absurd (hdigits 0x2B List.mem_cons_self) (by decide)
          simp [smscAddress, hc]

/-- What is read of the octets of a number and a TPDU behind them. -/
theorem decodeSmscPdu_octets {ton : UInt8} (hton : ton = 1 ∨ ton = 0) {cs tpdu : List UInt8}
    (hlen : cs.length ≤ 19) (htotal : (cs.length + 1) / 2 + 2 + tpdu.length ≤ 255) :
    decodeSmscPdu (UInt8.ofNat ((cs.length + 1) / 2 + 1) :: ((0x80 : UInt8) + ton <<< 4 + 1) ::
        bcdOctets cs ++ tpdu) (UInt8.ofNat ((cs.length + 1) / 2 + 2 + tpdu.length)) =
      if tpdu.length < 2 then (0, ⟨ton, 1, []⟩)
      else
        ((cs.length + 1) / 2 + 2,
          ⟨ton, 1,
            (if ton = 1 then
              regProcessSmsAddrs (bcdToDigitText 21 [] (bcdOctets cs ++ tpdu.take 1))
            else bcdToDigitText 21 [] (bcdOctets cs ++ tpdu.take 1)).take 21⟩) := by
  have hsize : (UInt8.ofNat ((cs.length + 1) / 2 + 1)).toNat = (cs.length + 1) / 2 + 1 := by
    rw [UInt8.toNat_ofNat']
    omega
  have hpdu : (UInt8.ofNat ((cs.length + 1) / 2 + 2 + tpdu.length)).toNat =
      (cs.length + 1) / 2 + 2 + tpdu.length := by
    rw [UInt8.toNat_ofNat']
    omega
  have hpos : UInt8.ofNat ((cs.length + 1) / 2 + 2 + tpdu.length) ≠ 0 := by
    rw [← UInt8.toNat_inj.ne, hpdu]
    simp
  have htype : ((((0x80 : UInt8) + ton <<< 4 + 1) &&& 0x70) >>> 4 = ton) ∧
      ((0x80 : UInt8) + ton <<< 4 + 1) &&& 0x0F = 1 := by
    rcases hton with rfl | rfl <;> decide
  have htake : (bcdOctets cs ++ tpdu).take ((cs.length + 1) / 2 + 1) =
      bcdOctets cs ++ tpdu.take 1 := by
    rw [← length_bcdOctets, List.take_length_add_append]
  simp only [decodeSmscPdu, List.cons_append, List.getD_cons_zero, List.getD_cons_succ, hsize,
    htype.1, htype.2, hpdu, List.drop_succ_cons, List.drop_zero, htake]
  rw [if_neg hpos, if_neg (by omega), if_neg (by omega)]
  by_cases hshort : tpdu.length < 2
  · rw [if_pos hshort, if_pos (by omega)]
  · rw [if_neg hshort, if_neg (by omega), Nat.add_sub_cancel, Nat.add_comm 2]

/-- With an even number of digits, the first octet of the TPDU gives one more at least. -/
theorem bcdToDigitText_eq_iff {cs : List UInt8} (hcs : ∀ c ∈ cs, isDigitChar c = true)
    (hlen : cs.length ≤ 19) (octet : UInt8) :
    (bcdToDigitText 21 [] (bcdOctets cs ++ [octet])).length = cs.length ↔ cs.length % 2 = 1 := by
  rw [bcdToDigitText_bcdOctets hcs (by simp only [List.length_nil]; omega), List.nil_append]
  by_cases hodd : cs.length % 2 = 1
  · simp [hodd]
  · have hmore := length_bcdToDigitText_cons (show cs.length + 2 < 21 by omega) octet []
    rw [if_neg hodd]
    omega

/-- A number comes back when it has an odd number of digits, and two octets of the TPDU are
behind it. -/
theorem smscKept_iff {sc tpdu : List UInt8}
    (hdigits : ∀ c ∈ (smscAddress sc).dialled, 0x30 ≤ c ∧ c ≤ 0x39)
    (hlen : (smscAddress sc).dialled.length ≤ 19)
    (htotal : ((smscAddress sc).dialled.length + 1) / 2 + 2 + tpdu.length ≤ 255) :
    SmscKept sc tpdu ↔ (smscAddress sc).dialled.length % 2 = 1 ∧ 2 ≤ tpdu.length := by
  have hoctets := encodeSmscPdu_smscAddress hdigits hlen
  have hton := smscAddress_ton hdigits
  have hcs : ∀ c ∈ (smscAddress sc).dialled, isDigitChar c = true :=
    fun c hc => isDigitChar_of_decimal (hdigits c hc)
  have hdecode := decodeSmscPdu_octets (hton.imp And.left And.left) hlen htotal
  have hsize := length_bcdOctets (smscAddress sc).dialled
  simp only [SmscKept, hoctets, Option.some.injEq, exists_eq_left', List.length_cons, hsize]
  rw [hdecode]
  by_cases hshort : tpdu.length < 2
  · rw [if_pos hshort]
    exact iff_of_false (fun h => by simp at h) (by omega)
  · rw [if_neg hshort, and_iff_left (by omega)]
    rcases tpdu with _ | ⟨octet, tpdu⟩
    · simp at hshort
    have hlength := bcdToDigitText_eq_iff hcs hlen octet
    have htext : (smscAddress sc).dialled.length % 2 = 1 →
        bcdToDigitText 21 [] (bcdOctets (smscAddress sc).dialled ++ [octet]) =
          (smscAddress sc).dialled := by
      intro hodd
      rw [bcdToDigitText_bcdOctets hcs (by simp only [List.length_nil]; omega), if_pos hodd]
      rfl
    have haddress (address : List UInt8) :
        ((((smscAddress sc).dialled.length + 1) / 2 + 2, (⟨(smscAddress sc).ton, 1, address⟩ :
          AddressNumber)) = (((smscAddress sc).dialled.length + 1) / 2 + 1 + 1, smscAddress sc)) ↔
          address = sc := by
      simp [smscAddress]
    rw [List.take_succ_cons, List.take_zero, haddress, ← hlength]
    constructor
    · intro h
      rcases hton with ⟨hton, hsc⟩ | ⟨hton, hsc⟩
      · have hcount := congrArg List.length (h.trans hsc)
        rw [if_pos hton, List.length_take, length_regProcessSmsAddrs, List.length_cons] at hcount
        omega
      · have hcount := congrArg List.length (h.trans hsc)
        rw [if_neg (by rw [hton]; decide), List.length_take] at hcount
        omega
    · intro h
      rw [htext (hlength.1 h)]
      rcases hton with ⟨hton, hsc⟩ | ⟨hton, hsc⟩
      · rw [if_pos hton, regProcessSmsAddrs_of_none (matchMarks_decimal hdigits), ← hsc]
        have hlen' := congrArg List.length hsc
        rw [List.length_cons] at hlen'
        exact List.take_of_length_le (by omega)
      · rw [if_neg (by rw [hton]; decide), ← hsc]
        have hlen' := congrArg List.length hsc
        exact List.take_of_length_le (by omega)

/-- `+861`. -/
theorem smscKept_iff_odd :
    SmscKept [0x2B, 0x38, 0x36, 0x31] [0x00, 0x05] ↔
      (smscAddress [0x2B, 0x38, 0x36, 0x31]).dialled.length % 2 = 1 ∧
        2 ≤ [(0x00 : UInt8), 0x05].length :=
  smscKept_iff (by decide +kernel) (by decide) (by decide)

/-- Behind `12` the octet `01` of the TPDU is read as two digits more. -/
theorem not_smscKept_even :
    encodeSmscPdu (smscAddress [0x31, 0x32]) 20 = some [0x02, 0x81, 0x21] ∧
      decodeSmscPdu [0x02, 0x81, 0x21, 0x01, 0x00] 5 = (3, ⟨0, 1, [0x31, 0x32, 0x31, 0x30]⟩) ∧
      ¬ SmscKept [0x31, 0x32] [0x01, 0x00] := by
  refine ⟨by decide, by decide, ?_⟩
  rintro ⟨octets, hoctets, hdecode⟩
  rw [show encodeSmscPdu (smscAddress [0x31, 0x32]) 20 = some [0x02, 0x81, 0x21] by decide,
    Option.some.injEq] at hoctets
  subst hoctets
  exact absurd (congrArg (fun result => result.2.address) hdecode) (by decide)

end TelephonySms.Pdu
