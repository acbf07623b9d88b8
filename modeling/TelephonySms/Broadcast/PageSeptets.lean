import TelephonySms.Cdma.HeaderCodings

/-! # The septets of a page

A page of a cell broadcast has at most 82 octets. `Unpack7bitCharForCBPdu` reads the page of a
GSM message, and `Unpack7bitChar`, which bearer data goes through too, each page of a UMTS
message. Neither goes by the bits there are: the first looks at the value of what is left in the
last octet, and the second compares the septets with the octets.
-/

namespace TelephonySms.Broadcast

open Cdma

/-- The septets of a page: the digits of its bits as one number. -/
def pageSeptets (page : List UInt8) : List UInt8 :=
  (List.range (8 * page.length / 7)).map fun j =>
    UInt8.ofNat (Septet.octetsValue page / 128 ^ j % 128)

theorem pageSeptets_eq (page : List UInt8) :
    pageSeptets page = Septet.unpack 0 (8 * page.length / 7) page :=
  (Septet.unpack_eq_digits page (by omega)).symm

/-! ## GSM pages -/

/-- The loop of `Unpack7bitCharForCBPdu` for at most `n` more septets: these, and `shift` and
`srcIdx` at its end. A round that starts an octet goes on with the next septet, as another
round would. -/
def unpackCBLoop (tpdu : List UInt8) (unpackDataLen : Nat) :
    Nat → Nat → Nat → Nat → List UInt8 × Nat × Nat
  | 0, shift, srcIdx, _ => ([], shift, srcIdx)
  | n + 1, shift, srcIdx, dstIdx =>
      if srcIdx < tpdu.length ∧ dstIdx < unpackDataLen then
        if shift = 0 then
          let (septets, state) := unpackCBLoop tpdu unpackDataLen n 7 (srcIdx + 1) (dstIdx + 1)
          ((tpdu.getD srcIdx 0 &&& 0x7F) :: septets, state)
        else
          let (septets, state) := unpackCBLoop tpdu unpackDataLen n (shift - 1)
            (if shift - 1 > 0 then srcIdx + 1 else srcIdx) (dstIdx + 1)
          (joinedSeptet tpdu shift srcIdx :: septets, state)
      else ([], shift, srcIdx)

/-- `Unpack7bitCharForCBPdu` without fill bits. What the last octet has left is a septet more if
it is printable. -/
def unpack7bitCharForCBPdu (tpdu : List UInt8) (unpackDataLen : Nat) : List UInt8 :=
  if tpdu.length = 0 ∨ unpackDataLen = 0 ∨ tpdu.length > unpackDataLen then []
  else
    let (septets, shift, srcIdx) := unpackCBLoop tpdu unpackDataLen unpackDataLen 0 0 0
    if septets.length ≥ unpackDataLen then []
    else
      let value :=
        if shift = 0 then tpdu.getD srcIdx 0
        else if srcIdx > 1 then tpdu.getD (srcIdx - 1) 0 >>> UInt8.ofNat shift
        else 0
      if value ≥ 32 ∧ value ≤ 127 then septets ++ [value] else septets

/-- What a run of the loop leaves that reads from the `k`-th bit of the octet at `i` on, with
`dstIdx` septets before: at least a bit of the last octet, and all septets before that. -/
structure LeavesLast (tpdu : List UInt8) (k i dstIdx : Nat) (run : List UInt8 × Nat × Nat) :
    Prop where
  shift_pos : 0 < run.2.1
  shift_lt : run.2.1 < 8
  srcIdx_eq : run.2.2 = tpdu.length
  bits : 7 * (dstIdx + run.1.length) + 8 = 8 * tpdu.length + run.2.1
  unpack (j : Nat) : Septet.unpack k (run.1.length + j) (tpdu.drop i) =
    run.1 ++ Septet.unpack run.2.1 j (tpdu.drop (tpdu.length - 1))

namespace LeavesLast

variable {tpdu septets : List UInt8} {k k' i i' dstIdx : Nat} {s : UInt8} {state : Nat × Nat}

theorem nil (hpos : 0 < k) (hk : k < 8) (hlast : i + 1 = tpdu.length)
    (hbits : 8 * i + k = 7 * dstIdx) : LeavesLast tpdu k i dstIdx ([], k, i + 1) where
  shift_pos := hpos
  shift_lt := hk
  srcIdx_eq := hlast
  bits := by
    show 7 * (dstIdx + 0) + 8 = 8 * tpdu.length + k
    omega
  unpack j := by rw [List.length_nil, Nat.zero_add, List.nil_append, ← hlast, Nat.add_sub_cancel]

theorem cons (hrun : LeavesLast tpdu k' i' (dstIdx + 1) (septets, state))
    (hstep : ∀ n, Septet.unpack k (n + 1) (tpdu.drop i) = s :: Septet.unpack k' n (tpdu.drop i')) :
    LeavesLast tpdu k i dstIdx (s :: septets, state) where
  shift_pos := hrun.shift_pos
  shift_lt := hrun.shift_lt
  srcIdx_eq := hrun.srcIdx_eq
  bits := by
    have hbits : 7 * (dstIdx + 1 + septets.length) + 8 = 8 * tpdu.length + state.1 := hrun.bits
    show 7 * (dstIdx + (septets.length + 1)) + 8 = 8 * tpdu.length + state.1
    omega
  unpack j := by
    rw [List.length_cons, Nat.add_right_comm, hstep, hrun.unpack j, List.cons_append]

end LeavesLast

theorem unpackCBLoop_leavesLast (tpdu : List UInt8) {unpackDataLen : Nat}
    (hroom : 8 * tpdu.length / 7 < unpackDataLen) (n : Nat) {k i dstIdx : Nat} (hk : k < 8)
    (hi : i < tpdu.length) (hbits : 8 * i + k = 7 * dstIdx)
    (hfuel : 8 * tpdu.length ≤ 7 * (dstIdx + n) + 7) :
    LeavesLast tpdu k i dstIdx
      (unpackCBLoop tpdu unpackDataLen n k (if k = 0 then i else i + 1) dstIdx) := by
  induction n generalizing k i dstIdx with
  | zero =>
      rw [if_neg (by omega), unpackCBLoop]
      exact .nil (by omega) hk (by omega) hbits
  | succ n ih =>
      have hdst : dstIdx < unpackDataLen := by omega
      by_cases hzero : k = 0
      · have hrest := @ih 7 i (dstIdx + 1) (by decide) hi (by omega) (by omega)
        rw [if_neg (by decide)] at hrest
        rw [if_pos hzero, unpackCBLoop, if_pos ⟨hi, hdst⟩, if_pos hzero, hzero]
        exact hrest.cons fun n => unpack_starting tpdu n hi
      · rw [if_neg hzero]
        by_cases hlast : i + 1 = tpdu.length
        · rw [unpackCBLoop, if_neg (by omega)]
          exact .nil (by omega) hk hlast hbits
        · have hnext : i + 1 < tpdu.length := by omega
          have hrest := @ih (k - 1) (i + 1) (dstIdx + 1) (by omega) hnext (by omega) (by omega)
          have hsrc : (if k - 1 > 0 then i + 1 + 1 else i + 1) =
              if k - 1 = 0 then i + 1 else i + 1 + 1 := by
            split <;> split <;> omega
          rw [unpackCBLoop, if_pos ⟨hnext, hdst⟩, if_neg hzero, hsrc]
          exact hrest.cons fun n => unpack_joinedSeptet tpdu n (by omega) hnext

/-- What the last octet has left is told from a septet by its value: a septet below the space
is lost, and six bits that have the value of a printable character are a septet too many. -/
def LastIsTold (page : List UInt8) : Prop :=
  (page.length % 7 = 0 → page ≠ [] → page.getLastD 0 >>> 1 ≥ 32) ∧
    (page.length % 7 = 6 → page.getLastD 0 >>> 2 < 32)

/-- Of what the last octet has left, seven bits are a septet. -/
theorem pageSeptets_concat {front septets : List UInt8} {o : UInt8} {left : Nat}
    (hrun : LeavesLast (front ++ [o]) 0 0 0 (septets, left, (front ++ [o]).length)) :
    pageSeptets (front ++ [o]) = septets ++ if left = 1 then [o >>> 1] else [] := by
  have hpos : 0 < left := hrun.shift_pos
  have hlt : left < 8 := hrun.shift_lt
  have hbits : 7 * (0 + septets.length) + 8 = 8 * (front ++ [o]).length + left := hrun.bits
  have hlast : (front ++ [o]).drop ((front ++ [o]).length - 1) = [o] := by simp
  have hunpack (j : Nat) : Septet.unpack 0 (septets.length + j) (front ++ [o]) =
      septets ++ Septet.unpack left j [o] := by
    have hall := hrun.unpack j
    rwa [hlast, List.drop_zero] at hall
  rw [pageSeptets_eq]
  by_cases hone : left = 1
  · have hmask : (o >>> 1) &&& (0x7F : UInt8) = o >>> 1 := by
      have hshift := Septet.toNat_shiftRight_ofNat o (show 1 < 8 by decide)
      have ho := o.toNat_lt
      simp only [UInt8.reduceOfNat] at hshift
      rw [← UInt8.toNat_inj, Septet.toNat_and_7F, hshift]
      omega
    rw [show 8 * (front ++ [o]).length / 7 = septets.length + 1 by omega, hunpack, if_pos hone,
      hone, Septet.unpack, hmask, Septet.unpack]
  · rw [show 8 * (front ++ [o]).length / 7 = septets.length + 0 by omega, hunpack, if_neg hone,
      Septet.unpack]

/-- What is left of an octet behind `k` bits is as small as fewer bits leave it. -/
theorem toNat_shiftRight_lt_of_le (o : UInt8) {j k : Nat} (hj : j ≤ k) (hk : k < 8) :
    (o >>> UInt8.ofNat k).toNat < 2 ^ (8 - j) :=
  Nat.lt_of_lt_of_le (Septet.toNat_shiftRight_lt (n := 8) hk (by omega) o.toNat_lt)
    (Nat.pow_le_pow_right (by decide) (by omega))

/-- The value that is told from a septet, with the shift that the length leaves. -/
theorem lastIsTold_concat_iff {front septets : List UInt8} {o : UInt8} {left : Nat}
    (hpos : 0 < left) (hlt : left < 8)
    (hbits : 7 * septets.length + 8 = 8 * (front ++ [o]).length + left) :
    LastIsTold (front ++ [o]) ↔
      (o >>> UInt8.ofNat left ≥ 32 ∧ (front ++ [o]).length > 1 ↔ left = 1) := by
  have hne : front ++ [o] ≠ [] := by simp
  have hlast : (front ++ [o]).getLastD 0 = o := by simp
  have hlen : 0 < (front ++ [o]).length := by simp
  unfold LastIsTold
  rw [hlast]
  by_cases hone : left = 1
  · have hmod : (front ++ [o]).length % 7 = 0 := by omega
    have hlong : (front ++ [o]).length > 1 := by omega
    simp only [hone, hmod, hlong]
    simp
  by_cases htwo : left = 2
  · have hmod : (front ++ [o]).length % 7 = 6 := by omega
    have hlong : (front ++ [o]).length > 1 := by omega
    simp only [htwo, hmod, hlong]
    simp
  · have hmod : (front ++ [o]).length % 7 ≠ 0 ∧ (front ++ [o]).length % 7 ≠ 6 := by omega
    have hsmall : ¬ o >>> UInt8.ofNat left ≥ 32 := by
      have hlt := toNat_shiftRight_lt_of_le o (show 3 ≤ left by omega) hlt
      rw [ge_iff_le, UInt8.le_iff_toNat_le]
      exact Nat.not_le.2 hlt
    simp only [hmod, hsmall, hone]
    simp

/-- What is read and what there is: the septets up to the last octet, and what that has left. -/
theorem unpack7bitCharForCBPdu_concat (front : List UInt8) (o : UInt8) {unpackDataLen : Nat}
    (hroom : 8 * (front ++ [o]).length / 7 < unpackDataLen) :
    ∃ (septets : List UInt8) (left : Nat), 0 < left ∧ left < 8 ∧
      7 * septets.length + 8 = 8 * (front ++ [o]).length + left ∧
      pageSeptets (front ++ [o]) = septets ++ (if left = 1 then [o >>> 1] else []) ∧
      unpack7bitCharForCBPdu (front ++ [o]) unpackDataLen =
        septets ++ (if o >>> UInt8.ofNat left ≥ 32 ∧ (front ++ [o]).length > 1 then
          [o >>> UInt8.ofNat left] else []) := by
  have hlen : 0 < (front ++ [o]).length := by simp
  have hrun := unpackCBLoop_leavesLast (front ++ [o]) hroom unpackDataLen (show 0 < 8 by decide)
    hlen (show 8 * 0 + 0 = 7 * 0 from rfl) (by omega)
  rw [if_pos rfl] at hrun
  rw [unpack7bitCharForCBPdu, if_neg (by omega)]
  generalize unpackCBLoop (front ++ [o]) unpackDataLen unpackDataLen 0 0 0 = run at hrun ⊢
  rcases run with ⟨septets, left, srcIdx⟩
  have hpos : 0 < left := hrun.shift_pos
  have hlt : left < 8 := hrun.shift_lt
  obtain rfl : srcIdx = (front ++ [o]).length := hrun.srcIdx_eq
  have hbits : 7 * (0 + septets.length) + 8 = 8 * (front ++ [o]).length + left := hrun.bits
  rw [Nat.zero_add] at hbits
  refine ⟨septets, left, hpos, hlt, hbits, pageSeptets_concat hrun, ?_⟩
  have hlast : (front ++ [o]).getD ((front ++ [o]).length - 1) 0 = o := by simp
  have hroom' : ¬ septets.length ≥ unpackDataLen := by omega
  have hprints : o >>> UInt8.ofNat left ≤ 127 :=
    UInt8.le_iff_toNat_le.2 (Nat.le_of_lt_succ (toNat_shiftRight_lt_of_le o hpos hlt))
  simp only [if_neg hroom', if_neg (show ¬ left = 0 by omega), hlast]
  by_cases hlong : (front ++ [o]).length > 1
  · by_cases hprint : o >>> UInt8.ofNat left ≥ 32
    · simp only [hlong, hprint, hprints, and_self, if_true]
    · simp only [hlong, hprint, if_true, false_and, if_false, List.append_nil]
  · have hzero : ¬ (0 : UInt8) ≥ 32 := by decide
    simp only [hlong, hzero, and_false, false_and, if_false, List.append_nil]

/-- As many septets as there are, are these. -/
theorem unpack7bitCharForCBPdu_length_eq_iff (page : List UInt8) {unpackDataLen : Nat}
    (hroom : 8 * page.length / 7 < unpackDataLen) :
    (unpack7bitCharForCBPdu page unpackDataLen).length = (pageSeptets page).length ↔
      LastIsTold page := by
  rcases List.eq_nil_or_concat' page with rfl | ⟨front, o, rfl⟩
  · simp [unpack7bitCharForCBPdu, pageSeptets, LastIsTold]
  rcases unpack7bitCharForCBPdu_concat front o hroom with
    ⟨septets, left, hpos, hlt, hbits, hall, hread⟩
  rw [lastIsTold_concat_iff hpos hlt hbits, hall, hread]
  by_cases htold : o >>> UInt8.ofNat left ≥ 32 ∧ (front ++ [o]).length > 1
  · rw [if_pos htold, iff_true_left htold]
    by_cases hone : left = 1
    · simp [hone]
    · simp [hone]
  · rw [if_neg htold, iff_false_left htold]
    by_cases hone : left = 1
    · simp [hone]
    · simp [hone]

theorem unpack7bitCharForCBPdu_eq_iff (page : List UInt8) {unpackDataLen : Nat}
    (hroom : 8 * page.length / 7 < unpackDataLen) :
    unpack7bitCharForCBPdu page unpackDataLen = pageSeptets page ↔ LastIsTold page := by
  rw [← unpack7bitCharForCBPdu_length_eq_iff page hroom]
  refine ⟨congrArg List.length, fun hlen => ?_⟩
  rcases List.eq_nil_or_concat' page with rfl | ⟨front, o, rfl⟩
  · rfl
  rcases unpack7bitCharForCBPdu_concat front o hroom with ⟨septets, left, -, -, -, hall, hread⟩
  rw [hall, hread] at hlen ⊢
  by_cases htold : o >>> UInt8.ofNat left ≥ 32 ∧ (front ++ [o]).length > 1
  · rw [if_pos htold] at hlen ⊢
    by_cases hone : left = 1
    · rw [if_pos hone, hone]
      rfl
    · simp [hone] at hlen
  · rw [if_neg htold] at hlen ⊢
    by_cases hone : left = 1
    · simp [hone] at hlen
    · rw [if_neg hone]

/-- At most one septet is not read. -/
theorem length_pageSeptets_le (page : List UInt8) {unpackDataLen : Nat}
    (hroom : 8 * page.length / 7 < unpackDataLen) :
    (pageSeptets page).length ≤ (unpack7bitCharForCBPdu page unpackDataLen).length + 1 := by
  rcases List.eq_nil_or_concat' page with rfl | ⟨front, o, rfl⟩
  · simp [pageSeptets]
  rcases unpack7bitCharForCBPdu_concat front o hroom with ⟨septets, left, -, -, -, hall, hread⟩
  have hone : (if left = 1 then [o >>> 1] else []).length ≤ 1 := by
    split <;> simp
  rw [hall, hread, List.length_append, List.length_append]
  omega

/-- The array of 94 octets has room for a septet too many. -/
theorem length_unpack7bitCharForCBPdu_lt {page : List UInt8} (hpage : page.length ≤ 82) :
    (unpack7bitCharForCBPdu page 94).length < 94 := by
  rcases List.eq_nil_or_concat' page with rfl | ⟨front, o, rfl⟩
  · decide
  rcases unpack7bitCharForCBPdu_concat front o (show 8 * (front ++ [o]).length / 7 < 94 by omega)
    with ⟨septets, left, hpos, hlt, hbits, -, hread⟩
  rw [hread]
  by_cases htold : o >>> UInt8.ofNat left ≥ 32 ∧ (front ++ [o]).length > 1
  · have hleft : left < 3 := by
      by_contra hge
      have hsmall := toNat_shiftRight_lt_of_le o (show 3 ≤ left by omega) hlt
      have hlarge := UInt8.le_iff_toNat_le.1 htold.1
      exact absurd (Nat.lt_of_le_of_lt hlarge hsmall) (by decide)
    rw [if_pos htold, List.length_append, List.length_singleton]
    omega
  · rw [if_neg htold, List.append_nil]
    omega

/-! ## UMTS pages -/

/-- The loop of `Unpack7bitChar` for at most `n` more rounds: the `dstIdx` that it returns. A
round that starts an octet steps over two septets, also where it does not write the second. -/
def returnedLoop (dataLen unpackDataLen : Nat) : Nat → Nat → Nat → Nat → Nat
  | 0, _, _, dstIdx => dstIdx
  | n + 1, shift, srcIdx, dstIdx =>
      if srcIdx < dataLen ∧ dstIdx < unpackDataLen then
        if shift = 0 then
          if dstIdx + 1 ≥ dataLen then dstIdx
          else if srcIdx + 1 < dataLen ∧ dstIdx + 1 < unpackDataLen then
            returnedLoop dataLen unpackDataLen n 6 (srcIdx + 2) (dstIdx + 2)
          else returnedLoop dataLen unpackDataLen n 7 (srcIdx + 1) (dstIdx + 2)
        else
          returnedLoop dataLen unpackDataLen n (shift - 1)
            (if shift - 1 > 0 then srcIdx + 1 else srcIdx) (dstIdx + 1)
      else dstIdx

/-- What `Unpack7bitChar` returns without fill bits. -/
def returned (dataLen unpackDataLen : Nat) : Nat :=
  if dataLen = 0 ∨ unpackDataLen = 0 ∨ dataLen > unpackDataLen then 0
  else returnedLoop dataLen unpackDataLen unpackDataLen 0 0 0

/-- What `Decode3g7Bit` takes of a page: as many entries of an array of zeros as
`Unpack7bitChar` returns, with those in it that this writes. -/
def decode3gPage (tpdu : List UInt8) (unpackDataLen : Nat) : List UInt8 :=
  let septets := unpack7bitChar tpdu unpackDataLen
  (septets ++ List.replicate (unpackDataLen - septets.length) 0).take
    (returned tpdu.length unpackDataLen)

section Returned

variable {dataLen unpackDataLen n : Nat}

/-- The rounds from one octet that is started to the next. -/
theorem returnedLoop_octets {k : Nat} (srcIdx dstIdx : Nat) (hpos : 0 < k)
    (hsrc : srcIdx + k ≤ dataLen) (hdst : dstIdx + k ≤ unpackDataLen) :
    returnedLoop dataLen unpackDataLen (n + k) k srcIdx dstIdx =
      returnedLoop dataLen unpackDataLen n 0 (srcIdx + k - 1) (dstIdx + k) := by
  induction k generalizing srcIdx dstIdx with
  | zero => cases hpos
  | succ k ih =>
      rw [← Nat.add_assoc, returnedLoop, if_pos (by omega), if_neg (by omega), Nat.add_sub_cancel]
      by_cases hlast : k = 0
      · simp [hlast]
      · rw [if_pos (by omega), ih (srcIdx + 1) (dstIdx + 1) (by omega) (by omega) (by omega)]
        congr 1 <;> omega

/-- The rounds up to the last octet. -/
theorem returnedLoop_end {k : Nat} (srcIdx dstIdx : Nat) (hsrc : srcIdx ≤ dataLen)
    (hlast : dataLen < srcIdx + k) (hdst : dstIdx + (dataLen - srcIdx) ≤ unpackDataLen)
    (hfuel : dataLen - srcIdx ≤ n) :
    returnedLoop dataLen unpackDataLen n k srcIdx dstIdx = dstIdx + (dataLen - srcIdx) := by
  induction n generalizing k srcIdx dstIdx with
  | zero =>
      rw [returnedLoop]
      omega
  | succ n ih =>
      rw [returnedLoop]
      by_cases hgo : srcIdx < dataLen
      · rw [if_pos (by omega), if_neg (by omega), if_pos (by omega),
          ih (srcIdx + 1) (dstIdx + 1) (by omega) (by omega) (by omega) (by omega)]
        omega
      · rw [if_neg (by omega)]
        omega

/-- The loop from the `g`-th group of seven octets on: it breaks at the first group with as many
septets before it, but for one, as there are octets. -/
theorem returnedLoop_group {g : Nat} (hgroup : 7 * g < dataLen) (hbefore : 8 * g < dataLen + 7)
    (hroom : 8 * dataLen / 7 ≤ unpackDataLen) (hfuel : unpackDataLen ≤ 8 * g + n) :
    returnedLoop dataLen unpackDataLen n 0 (7 * g) (8 * g) =
      if 7 * ((dataLen + 6) / 8) < dataLen then 8 * ((dataLen + 6) / 8)
      else dataLen + (dataLen - 1) / 7 := by
  induction n using Nat.strong_induction_on generalizing g with
  | h n ih =>
      obtain ⟨m, rfl⟩ : ∃ m, n = m + 1 := ⟨n - 1, by omega⟩
      rw [returnedLoop, if_pos (by omega), if_pos rfl]
      by_cases hbreak : 8 * g + 1 ≥ dataLen
      · rw [if_pos hbreak, if_pos (by omega)]
        omega
      rw [if_neg hbreak, if_pos (by omega)]
      by_cases hfull : 7 * g + 8 ≤ dataLen
      · obtain ⟨m, rfl⟩ : ∃ m', m = m' + 6 := ⟨m - 6, by omega⟩
        rw [returnedLoop_octets (7 * g + 2) (8 * g + 2) (by decide) (by omega) (by omega)]
        exact ih m (by omega) (g := g + 1) (by omega) (by omega) (by omega)
      · rw [returnedLoop_end (7 * g + 2) (8 * g + 2) (by omega) (by omega) (by omega) (by omega),
          if_neg (by omega)]
        omega

theorem returned_eq (hroom : 8 * dataLen / 7 ≤ unpackDataLen) (hpos : 0 < dataLen) :
    returned dataLen unpackDataLen =
      if 7 * ((dataLen + 6) / 8) < dataLen then 8 * ((dataLen + 6) / 8)
      else dataLen + (dataLen - 1) / 7 := by
  rw [returned, if_neg (by omega)]
  exact returnedLoop_group (g := 0) (by omega) (by omega) hroom (by omega)

/-- No group of seven octets has as many septets before it, but for one, as there are octets,
and the last group has an octet less or fewer. -/
def GroupsFit (dataLen : Nat) : Prop :=
  dataLen = 0 ∨ (dataLen % 7 ≠ 0 ∧ dataLen ≤ 7 * ((dataLen + 6) / 8))

theorem returned_le (hroom : 8 * dataLen / 7 ≤ unpackDataLen) :
    returned dataLen unpackDataLen ≤ 8 * dataLen / 7 := by
  by_cases hzero : dataLen = 0
  · simp [hzero, returned]
  · rw [returned_eq hroom (by omega)]
    split <;> omega

theorem returned_eq_iff (hroom : 8 * dataLen / 7 ≤ unpackDataLen) :
    returned dataLen unpackDataLen = 8 * dataLen / 7 ↔ GroupsFit dataLen := by
  unfold GroupsFit
  by_cases hzero : dataLen = 0
  · simp [hzero, returned]
  · rw [returned_eq hroom (by omega)]
    have hbits : 8 * dataLen / 7 = dataLen + dataLen / 7 := by omega
    have hlast : (dataLen - 1) / 7 = dataLen / 7 ↔ dataLen % 7 ≠ 0 := by omega
    split <;> omega

/-- What is returned is written. -/
theorem returnedLoop_le (hlen : dataLen ≤ unpackDataLen) {shift srcIdx dstIdx : Nat}
    (hsrc : srcIdx ≤ dstIdx) :
    returnedLoop dataLen unpackDataLen n shift srcIdx dstIdx ≤
      dstIdx + unpackCount dataLen unpackDataLen n shift srcIdx dstIdx := by
  induction n generalizing shift srcIdx dstIdx with
  | zero => exact Nat.le_add_right ..
  | succ n ih =>
      rw [returnedLoop, unpackCount]
      by_cases hgo : srcIdx < dataLen ∧ dstIdx < unpackDataLen
      case neg => simp [hgo]
      rw [if_pos hgo, if_pos hgo]
      by_cases hzero : shift = 0
      · rw [if_pos hzero, if_pos hzero]
        by_cases hbreak : dstIdx + 1 ≥ dataLen
        · rw [if_pos hbreak]
          exact Nat.le_add_right ..
        · have hrest := @ih 6 (srcIdx + 2) (dstIdx + 2) (by omega)
          rw [if_neg hbreak, if_neg hbreak, if_pos (by omega), if_pos (by omega), if_pos (by omega)]
          omega
      · have hrest := @ih (shift - 1) (if shift - 1 > 0 then srcIdx + 1 else srcIdx) (dstIdx + 1)
          (by split <;> omega)
        rw [if_neg hzero, if_neg hzero]
        omega

end Returned

theorem length_unpackLoop (tpdu : List UInt8) (unpackDataLen n shift srcIdx dstIdx : Nat) :
    (unpackLoop tpdu unpackDataLen n shift srcIdx dstIdx).length =
      unpackCount tpdu.length unpackDataLen n shift srcIdx dstIdx := by
  induction n generalizing shift srcIdx dstIdx with
  | zero => rfl
  | succ n ih =>
      rw [unpackLoop, unpackCount]
      by_cases hgo : srcIdx < tpdu.length ∧ dstIdx < unpackDataLen
      case neg => simp [hgo]
      rw [if_pos hgo, if_pos hgo]
      by_cases hzero : shift = 0
      · rw [if_pos hzero, if_pos hzero, List.length_cons, Nat.add_comm]
        by_cases hbreak : dstIdx + 1 ≥ tpdu.length
        · simp [hbreak]
        by_cases hroom : dstIdx + 1 < unpackDataLen
        case neg => simp [hroom]
        by_cases hnext : srcIdx + 1 < tpdu.length
        · simp only [hbreak, hroom, hnext, unpackJoined, if_true, if_false, List.length_append, ih]
          rfl
        · have hend := unpackLoop_of_ge tpdu unpackDataLen n 7 (srcIdx + 1) (dstIdx + 2) (by omega)
          simp [hnext, unpackJoined, hend]
      · rw [if_neg hzero, if_neg hzero]
        simp [unpackJoined, hgo.1, ih, Nat.add_comm]

theorem decode3gPage_eq (page : List UInt8) (unpackDataLen : Nat) :
    decode3gPage page unpackDataLen =
      Septet.unpack 0 (returned page.length unpackDataLen) page := by
  by_cases hguard : page.length = 0 ∨ unpackDataLen = 0 ∨ page.length > unpackDataLen
  · rw [decode3gPage, returned, if_pos hguard]
    simp [Septet.unpack]
  · have hwritten : unpack7bitChar page unpackDataLen =
        Septet.unpack 0 (unpackCount page.length unpackDataLen unpackDataLen 0 0 0) page := by
      rw [unpack7bitChar, if_neg hguard, unpackLoop_eq _ _ _ _ _ _ (by decide) (by decide)]
      rfl
    have hlen : (unpack7bitChar page unpackDataLen).length =
        unpackCount page.length unpackDataLen unpackDataLen 0 0 0 := by
      rw [unpack7bitChar, if_neg hguard, length_unpackLoop]
    have hle : returned page.length unpackDataLen ≤ (unpack7bitChar page unpackDataLen).length := by
      have hloop : returnedLoop page.length unpackDataLen unpackDataLen 0 0 0 ≤
          0 + unpackCount page.length unpackDataLen unpackDataLen 0 0 0 :=
        returnedLoop_le (by omega) (Nat.le_refl 0)
      rw [returned, if_neg hguard, hlen]
      omega
    rw [decode3gPage, List.take_append_of_le_length hle, hwritten, ← Septet.unpack_take]
    rwa [hlen] at hle

theorem decode3gPage_eq_iff (page : List UInt8) {unpackDataLen : Nat}
    (hroom : 8 * page.length / 7 ≤ unpackDataLen) :
    decode3gPage page unpackDataLen = pageSeptets page ↔ GroupsFit page.length := by
  have hle := returned_le hroom
  rw [decode3gPage_eq, pageSeptets_eq, ← returned_eq_iff hroom]
  constructor
  · intro heq
    have hlen := congrArg List.length heq
    rwa [Septet.length_unpack page (by decide) (by omega),
      Septet.length_unpack page (by decide) (by omega)] at hlen
  · intro hcount
    rw [hcount]

/-! ## Both kinds of pages -/

/-- The arrays have room for a page of 82 octets. The septets of a GSM page are those of the page
if the last is told from what is no septet, and the septets of a UMTS page if the groups of seven
octets fit. -/
theorem unpacked_eq_pageSeptets_iff {page : List UInt8} (hpage : page.length ≤ 82) :
    (unpack7bitCharForCBPdu page 94 = pageSeptets page ↔ LastIsTold page) ∧
      (decode3gPage page 93 = pageSeptets page ↔ GroupsFit page.length) :=
  ⟨unpack7bitCharForCBPdu_eq_iff page (by omega), decode3gPage_eq_iff page (by omega)⟩

theorem unpacked_eq_pageSeptets_two :
    unpack7bitCharForCBPdu [0x41, 0x42] 94 = pageSeptets [0x41, 0x42] ∧
      decode3gPage [0x41, 0x42] 93 = pageSeptets [0x41, 0x42] := by
  rcases unpacked_eq_pageSeptets_iff (show [(0x41 : UInt8), 0x42].length ≤ 82 by decide) with
    ⟨hgsm, humts⟩
  exact ⟨hgsm.2 (by simp [LastIsTold]), humts.2 (by simp [GroupsFit])⟩

/-- Of the eight septets of seven zero octets neither reads the last. -/
theorem unpacked_ne_pageSeptets :
    unpack7bitCharForCBPdu (List.replicate 7 0) 94 ≠ pageSeptets (List.replicate 7 0) ∧
      decode3gPage (List.replicate 7 0) 93 ≠ pageSeptets (List.replicate 7 0) := by
  decide

end TelephonySms.Broadcast
