import TelephonySms.Cdma.UserDataReading

/-! # Octets in seven bits

`EncodeAscii7Bit` writes every octet of the user data as seven bits, also an octet that has
eight. Its highest bit then falls on the bit in front: on the character before, on the bits
behind the headers, or on the count of fields. The reader takes seven bits for each character
whatever was written.
-/

namespace TelephonySms.Cdma

open TelephonySms.Pdu TelephonySms.BitStream
open SmsPduBuffer

/-! ## Writing -/

/-- Seven bits of an octet are its eight bits from one bit earlier on. -/
theorem writeBits_seven {b : SmsPduBuffer} (v : UInt8) (hpos : 0 < b.bitIndex)
    (hlt : b.bitIndex < 8) :
    b.writeBits v 7 = SmsPduBuffer.writeBits ⟨b.data, b.index, b.bitIndex - 1⟩ v 8 := by
  unfold writeBits
  by_cases hone : b.bitIndex = 1
  · simp [hone]
  · have hseven : ¬ b.bitIndex + 7 ≤ 8 := by omega
    have height : ¬ b.bitIndex - 1 + 8 ≤ 8 := by omega
    have hend : 8 + (b.bitIndex - 1) - 8 = 7 + b.bitIndex - 8 := by omega
    simp only [hseven, height, hend, if_false]
    rfl

/-- The first octet of a field of eight bits has its highest bit at the position. -/
theorem testBit_first {v : UInt8} (hv : 128 ≤ v.toNat) {k : Nat} (hk : k < 8) :
    (v >>> UInt8.ofNat k).toNat.testBit (7 - k) = true := by
  rw [testBit_shiftRight _ hk, show 7 - k + k = 7 by omega, Nat.testBit_eq_decide_div_mod_eq]
  have hlt := v.toNat_lt
  simp
  omega

/-- A bit that is set already does not show under the highest bit of an octet. -/
theorem writeBits_over {v : UInt8} (hv : 128 ≤ v.toNat) (passed : List Bool) (x : Bool) (n : Nat) :
    (bitCursor passed (x :: List.replicate n false)).writeBits v 8 =
      (blank passed (n + 1)).writeBits v 8 := by
  obtain ⟨i, hi⟩ : ∃ i, passed.length / 8 = i := ⟨_, rfl⟩
  obtain ⟨k, hk⟩ : ∃ k, passed.length % 8 = k := ⟨_, rfl⟩
  have hk8 : k < 8 := by omega
  have hlen : (passed ++ x :: List.replicate n false).length =
      (passed ++ List.replicate (n + 1) false).length := by simp
  have hget : ∀ j, j ≠ passed.length → (passed ++ x :: List.replicate n false).getD j false =
      (passed ++ List.replicate (n + 1) false).getD j false := by
    intro j hj
    by_cases hlt : j < passed.length
    · rw [List.getD_append _ _ _ _ hlt, List.getD_append _ _ _ _ hlt]
    · rw [List.getD_append_right _ _ _ _ (by omega), List.getD_append_right _ _ _ _ (by omega),
        List.replicate_succ]
      obtain ⟨m, hm⟩ : ∃ m, j - passed.length = m + 1 := ⟨j - passed.length - 1, by omega⟩
      rw [hm, List.getD_cons_succ, List.getD_cons_succ]
  have hother : ∀ j, j ≠ i → octetAt (passed ++ x :: List.replicate n false) j =
      octetAt (passed ++ List.replicate (n + 1) false) j := by
    intro j hj
    exact octetAt_congr fun t ht => hget _ (by omega)
  have hsame : octetAt (passed ++ x :: List.replicate n false) i ||| v >>> UInt8.ofNat k =
      octetAt (passed ++ List.replicate (n + 1) false) i ||| v >>> UInt8.ofNat k := by
    apply toNat_eq_of_testBit
    intro t ht
    rw [UInt8.toNat_or, UInt8.toNat_or, Nat.testBit_or, Nat.testBit_or, testBit_octetAt _ _ ht,
      testBit_octetAt _ _ ht]
    by_cases hfirst : t = 7 - k
    · rw [hfirst, testBit_first hv hk8, Bool.or_true, Bool.or_true]
    · rw [hget _ (by omega)]
  have hset : ∀ o, (octets (passed ++ x :: List.replicate n false)).set i o =
      (octets (passed ++ List.replicate (n + 1) false)).set i o := by
    intro o
    apply List.ext_getElem?
    intro j
    rw [List.getElem?_set, List.getElem?_set, length_octets, length_octets, hlen]
    by_cases hj : i = j
    · rw [if_pos hj, if_pos hj]
    · rw [if_neg hj, if_neg hj, octets_getElem?, octets_getElem?, hlen, hother j (Ne.symm hj)]
  simp only [writeBits, blank, bitCursor, hi, hk]
  by_cases hzero : k = 0
  · have hshift : v <<< UInt8.ofNat (8 - k - 8) = v >>> UInt8.ofNat k := by
      rw [hzero]
      simp
    simp only [hzero, octets_getElem?, hlen] at hshift hsame ⊢
    by_cases hroom : 8 * i < (passed ++ List.replicate (n + 1) false).length
    · simp only [if_pos hroom, hset]
      simp only [Nat.zero_add, Nat.le_refl, if_true] at hshift hsame ⊢
      rw [hshift, hsame]
    · simp only [if_neg hroom]
  · have hfit : ¬ k + 8 ≤ 8 := by omega
    simp only [hfit, if_false, octets_getElem?, hlen, hother (i + 1) (by omega),
      show 8 + k - 8 = k by omega]
    by_cases hroom : 8 * i < (passed ++ List.replicate (n + 1) false).length
    · by_cases hnext : 8 * (i + 1) < (passed ++ List.replicate (n + 1) false).length
      · simp only [if_pos hroom, if_pos hnext, hset, hsame]
      · simp only [if_pos hroom, if_neg hnext]
    · simp only [if_neg hroom]

/-- An octet with eight bits takes the bit in front of its seven. -/
theorem writeBits_wide {v : UInt8} (hv : 128 ≤ v.toNat) {passed : List Bool} (x : Bool) {n : Nat}
    (hpassed : (passed.length + 1) % 8 ≠ 0) (hsize : (passed.length + 1 + n) % 8 = 0) :
    (blank (passed ++ [x]) n).writeBits v 7 =
      if 7 ≤ n then some (blank (passed ++ field 8 v) (n - 7)) else none := by
  have hback : (⟨(blank (passed ++ [x]) n).data, (blank (passed ++ [x]) n).index,
      (blank (passed ++ [x]) n).bitIndex - 1⟩ : SmsPduBuffer) =
        bitCursor passed (x :: List.replicate n false) := by
    simp only [blank, bitCursor, List.append_assoc, List.singleton_append, List.length_append,
      List.length_singleton, SmsPduBuffer.mk.injEq, true_and]
    omega
  rw [writeBits_seven v (by rw [blank_bitIndex, List.length_append, List.length_singleton]; omega)
    (by rw [blank_bitIndex]; omega), hback, writeBits_over hv,
    writeBits_blank (by omega) (by omega) v.toNat_lt (by omega)]
  by_cases hroom : 7 ≤ n
  · rw [if_pos hroom, if_pos (by omega), show n + 1 - 8 = n - 7 by omega]
  · rw [if_neg hroom, if_neg (by omega)]

theorem field_and_7F (v : UInt8) : field 7 (v &&& 0x7F) = field 7 v := by
  apply List.ext_getElem?
  intro i
  by_cases hi : i < 7
  · have hbit (u : UInt8) : (field 7 u)[i]? = some (u.toNat.testBit (6 - i)) := by
      have hget := getD_toBits u.toNat hi
      rw [List.getD_eq_getElem?_getD] at hget
      have hlt : i < (field 7 u).length := by simpa using hi
      rw [List.getElem?_eq_getElem hlt]
      rw [← field, List.getElem?_eq_getElem hlt] at hget
      simpa using hget
    rw [hbit, hbit, UInt8.toNat_and, Nat.testBit_and]
    have hmask : (0x7F : UInt8).toNat.testBit (6 - i) = true := by
      interval_cases i <;> rfl
    rw [hmask, Bool.and_true]
  · rw [List.getElem?_eq_none (by simpa using hi), List.getElem?_eq_none (by simpa using hi)]

/-- At the start of an octet the highest bit falls off. -/
theorem writeBits_start (v : UInt8) {passed : List Bool} {n : Nat} (hpassed : passed.length % 8 = 0)
    (hsize : (passed.length + n) % 8 = 0) :
    (blank passed n).writeBits v 7 =
      if 7 ≤ n then some (blank (passed ++ field 7 v) (n - 7)) else none := by
  have hlow : (v &&& 0x7F).toNat < 2 ^ 7 := by
    rw [Septet.toNat_and_7F]
    omega
  have hshift : (v &&& 0x7F) <<< (1 : UInt8) = v <<< (1 : UInt8) := by
    obtain ⟨v⟩ := v
    revert v
    decide
  have hsame : (blank passed n).writeBits v 7 = (blank passed n).writeBits (v &&& 0x7F) 7 := by
    simp only [writeBits, blank_bitIndex, hpassed]
    simp [hshift]
  rw [hsame, writeBits_blank (by omega) (by omega) hlow hsize, field_and_7F]

/-- Octets in seven bits each behind the bits `w` of a writer that started `k` bits into an
octet. -/
def spill (k : Nat) : List Bool → List UInt8 → List Bool
  | w, [] => w
  | w, v :: vs =>
      spill k (if v.toNat < 128 ∨ (k + w.length) % 8 = 0 then w ++ field 7 v
        else w.dropLast ++ field 8 v) vs

theorem spill_append (k : Nat) (front : List Bool) {w : List Bool} (hw : w ≠ [])
    (vs : List UInt8) : spill k (front ++ w) vs = front ++ spill (k + front.length) w vs := by
  induction vs generalizing w with
  | nil => rfl
  | cons v vs ih =>
      rw [spill, spill, List.length_append, ← Nat.add_assoc]
      by_cases hfits : v.toNat < 128 ∨ (k + front.length + w.length) % 8 = 0
      · rw [if_pos hfits, if_pos hfits, List.append_assoc]
        exact ih (by simp [hw])
      · rw [if_neg hfits, if_neg hfits, List.dropLast_append_of_ne_nil hw, List.append_assoc]
        exact ih fun hnil => by simpa using congrArg List.length hnil

theorem writeEach_spill {k : Nat} {passed w : List Bool} (hk : passed.length % 8 = k % 8)
    (hw : w ≠ []) {vs : List UInt8} {n : Nat} {c : SmsPduBuffer}
    (hsize : (passed.length + w.length + n) % 8 = 0)
    (h : writeEach 7 vs (blank (passed ++ w) n) = some c) :
    (spill k w vs).length ≤ w.length + n ∧
      c = blank (passed ++ spill k w vs) (w.length + n - (spill k w vs).length) := by
  induction vs generalizing w n with
  | nil =>
      cases h
      rw [spill, show w.length + n - w.length = n by omega]
      exact ⟨by omega, rfl⟩
  | cons v vs ih =>
      obtain ⟨d, hd, h⟩ := Option.bind_eq_some_iff.mp h
      rw [spill]
      by_cases hfits : v.toNat < 128 ∨ (k + w.length) % 8 = 0
      · rw [if_pos hfits]
        have hstep : (blank (passed ++ w) n).writeBits v 7 =
            if 7 ≤ n then some (blank (passed ++ w ++ field 7 v) (n - 7)) else none := by
          rcases hfits with hlow | hstart
          · exact writeBits_blank (by omega) (by omega) (by omega)
              (by rw [List.length_append]; omega)
          · exact writeBits_start v (by rw [List.length_append]; omega)
              (by rw [List.length_append]; omega)
        rw [hstep] at hd
        split at hd
        · next hroom =>
            cases hd
            rw [List.append_assoc] at h
            have hlen : (w ++ field 7 v).length = w.length + 7 := by simp
            have hrest := ih (by simp [hw]) (by rw [hlen]; omega) h
            rwa [hlen, show w.length + 7 + (n - 7) = w.length + n by omega] at hrest
        · cases hd
      · rw [if_neg hfits]
        obtain ⟨front, x, rfl⟩ : ∃ front x, w = front ++ [x] :=
          ⟨_, _, (List.dropLast_concat_getLast hw).symm⟩
        have hlength : (front ++ [x]).length = front.length + 1 := by simp
        have hpartial : ((passed ++ front).length + 1) % 8 ≠ 0 := by
          rw [List.length_append]
          omega
        have hstep := writeBits_wide (v := v) (by omega) x hpartial (n := n)
          (by rw [List.length_append]; omega)
        rw [← List.append_assoc, hstep] at hd
        split at hd
        · next hroom =>
            cases hd
            rw [List.append_assoc] at h
            have hlen : (front ++ field 8 v).length = front.length + 8 := by simp
            have hne : front ++ field 8 v ≠ [] := fun hnil => by
              rw [hnil] at hlen
              exact absurd hlen (by simp)
            have hrest := ih hne (by rw [hlen]; omega) h
            rw [List.dropLast_concat, hlength]
            rwa [hlen, show front.length + 8 + (n - 7) = front.length + 1 + n by omega] at hrest
        · cases hd

theorem writes_spill {k : Nat} {f : SmsPduBuffer → Option SmsPduBuffer} {w : List Bool}
    (hf : Writes k f w) (hw : w ≠ []) (vs : List UInt8) :
    Writes k (fun b => f b >>= writeEach 7 vs) (spill k w vs) := by
  intro passed n c hpassed hsize h
  obtain ⟨b, hb, h⟩ := Option.bind_eq_some_iff.mp h
  obtain ⟨hroom, rfl⟩ := hf passed n b hpassed hsize hb
  have hrest := writeEach_spill hpassed hw (by omega) h
  rwa [show w.length + (n - w.length) = n by omega] at hrest

/-! ## User data -/

/-- What `Encode` writes of characters of seven bits, whatever the octets are. -/
def septetBits (data : SmsTeleSvcUserData) : List Bool :=
  field 5 data.encodeType.value ++
    spill 5 (header7Bits false data.userData.udh data.userData.data.length) data.userData.data

theorem header7Bits_ne_nil (gsm7Bit : Bool) (udh : List UInt8) (length : Nat) :
    header7Bits gsm7Bit udh length ≠ [] := by
  intro hnil
  have hlen := congrArg List.length hnil
  rw [header7Bits_eq, List.length_append, length_field] at hlen
  exact absurd hlen (by simp)

theorem writes_septets {data : SmsTeleSvcUserData} (htype : data.encodeType = .ascii7Bit)
    (hn : data.userData.header.length ≤ 7) :
    Writes 0 (encodeUserData data) (recordBits 0x01 (septetBits data)) := by
  have hheader := writes_header7Bit 5 data
  rw [decide_eq_false (by simp [htype]), show headerPdu data.userData.header = data.userData.udh from
    headerPdu_eq hn] at hheader
  have hfields : Writes 5 (encodeAscii7Bit data) (spill 5
      (header7Bits false data.userData.udh data.userData.data.length) data.userData.data) := by
    by_cases hlong : data.userData.data.length > 161
    · intro passed n c _ _ h
      obtain ⟨d, -, h⟩ := Option.bind_eq_some_iff.mp h
      simp [hlong] at h
    · have hbody : encodeAscii7Bit data =
          fun b => encodeHeader7Bit data b >>= writeEach 7 data.userData.data := by
        funext b
        simp [encodeAscii7Bit, hlong]
      rw [hbody]
      exact writes_spill hheader (header7Bits_ne_nil _ _ _) _
  have htypeBits : data.encodeType.value.toNat < 2 ^ 5 := by
    rw [htype]
    decide
  refine writes_record rfl (Writes.bind (Writes.bits (by omega) (by omega) htypeBits) ?_)
  simp only [htype, writeIf, reduceCtorEq, or_self, decide_false, Bool.false_eq_true, if_false,
    Option.bind_eq_bind, Option.bind_some]
  exact hfields.mono (by simp) rfl

/-- Behind the headers there are bits to fill up a septet, so no octet reaches them. -/
theorem septetBits_eq {data : SmsTeleSvcUserData}
    (hfill : data.userData.udh = [] ∨ fill7 false data.userData.udh.length ≠ []) :
    ∃ numFields tail, septetBits data = field 5 data.encodeType.value ++
      (field 8 numFields ++ (udhBits data.userData.udh ++ tail)) := by
  rw [septetBits, header7Bits_eq]
  obtain hnil | hfill := hfill
  · have hlen : ∀ (k : Nat) (w : List Bool) (vs : List UInt8), 8 ≤ w.length →
        8 ≤ (spill k w vs).length := by
      intro k w vs
      induction vs generalizing w with
      | nil => exact fun h => h
      | cons v vs ih =>
          intro h
          rw [spill]
          split
          · exact ih _ (by rw [List.length_append]; omega)
          · exact ih _ (by rw [List.length_append, length_field]; omega)
    rw [hnil]
    simp only [List.length_nil, udhBits, fill7, gt_iff_lt, Nat.lt_irrefl, if_false,
      List.append_nil, List.nil_append]
    have hlong := hlen 5 (field 8 (UInt8.ofNat (numFields7 false 0 data.userData.data.length)))
      data.userData.data (by simp)
    generalize spill 5 (field 8 (UInt8.ofNat (numFields7 false 0 data.userData.data.length)))
      data.userData.data = w at hlong
    have htake : (w.take 8).length = 8 := by
      rw [List.length_take]
      omega
    obtain ⟨numFields, -, hfield⟩ := exists_field (v := w.take 8) (by omega)
    rw [htake] at hfield
    exact ⟨numFields, w.drop 8, by rw [← hfield, List.take_append_drop]⟩
  · have hfront := spill_append 5 (field 8 (UInt8.ofNat (numFields7 false data.userData.udh.length
      data.userData.data.length)) ++ udhBits data.userData.udh) hfill data.userData.data
    rw [← List.append_assoc, hfront, List.append_assoc]
    exact ⟨_, _, rfl⟩

/-! ## Reading -/

theorem bitIndex_of_readBits {b c : SmsPduBuffer} {l : Nat} {v : UInt8} (hb : b.bitIndex < 8)
    (h : b.readBits l = some (v, c)) : c.bitIndex < 8 := by
  unfold readBits at h
  split at h
  · cases h
  · split at h
    · cases hoctet : b.data[b.index]? with
      | none => simp [hoctet] at h
      | some octet =>
          simp only [hoctet] at h
          split at h
          · cases h
            simp
          · cases h
            simp only
            omega
    · cases hoctet : b.data[b.index]? with
      | none => simp [hoctet] at h
      | some octet =>
          cases hnext : b.data[b.index + 1]? with
          | none => simp [hoctet, hnext] at h
          | some next =>
              simp only [hoctet, hnext, Option.some.injEq, Prod.mk.injEq] at h
              rw [← h.2]
              simp only
              omega

theorem lt_of_readBits_seven {b c : SmsPduBuffer} {v : UInt8} (hb : b.bitIndex < 8)
    (h : b.readBits 7 = some (v, c)) : v.toNat < 128 := by
  have hshift (o : UInt8) {k : Nat} (hk : 0 < k) (hlt : k < 8) :
      (o >>> UInt8.ofNat k).toNat < 2 ^ 7 := by
    have ho := o.toNat_lt
    have hpow : 2 ^ 1 ≤ 2 ^ k := Nat.pow_le_pow_right (by omega) hk
    rw [Septet.toNat_shiftRight_ofNat o hlt, Nat.div_lt_iff_lt_mul (by omega)]
    omega
  unfold readBits at h
  rw [if_neg (by omega)] at h
  split at h
  · cases hoctet : b.data[b.index]? with
    | none => simp [hoctet] at h
    | some octet =>
        simp only [hoctet] at h
        split at h <;> (cases h; exact hshift _ (by omega) (by omega))
  · next hfit =>
    cases hoctet : b.data[b.index]? with
    | none => simp [hoctet] at h
    | some octet =>
        cases hnext : b.data[b.index + 1]? with
        | none => simp [hoctet, hnext] at h
        | some next =>
            simp only [hoctet, hnext, Option.some.injEq, Prod.mk.injEq] at h
            rw [← h.1, UInt8.toNat_or]
            exact Nat.or_lt_two_pow (hshift _ (by omega) (by omega))
              (hshift _ (by omega) (by omega))

theorem lt_of_readEach_seven {n : Nat} {b c : SmsPduBuffer} {vs : List UInt8}
    (hb : b.bitIndex < 8) (h : readEach 7 n b = some (vs, c)) : ∀ v ∈ vs, v.toNat < 128 := by
  induction n generalizing b vs with
  | zero =>
      cases h
      simp
  | succ n ih =>
      obtain ⟨⟨v, d⟩, hv, h⟩ := Option.bind_eq_some_iff.mp h
      obtain ⟨⟨us, e⟩, hus, h⟩ := Option.bind_eq_some_iff.mp h
      cases h
      intro u hu
      rcases List.mem_cons.mp hu with rfl | hu
      · exact lt_of_readBits_seven hb hv
      · exact ih (bitIndex_of_readBits hb hv) hus u hu

/-- Characters of seven bits are read with seven bits. -/
theorem lt_of_decodeAscii7Bit {b c : SmsPduBuffer} {numFields udhBytes : UInt8}
    {octets : List UInt8} (hb : b.bitIndex < 8)
    (h : decodeAscii7Bit b numFields udhBytes = some (octets, c)) : ∀ v ∈ octets, v.toNat < 128 := by
  obtain ⟨⟨u, d⟩, hskip, h⟩ := Option.bind_eq_some_iff.mp h
  have hd : d.bitIndex < 8 := by
    unfold readIf at hskip
    split at hskip
    · exact bitIndex_of_readBits hb hskip
    · cases hskip
      exact hb
  simp only at h
  generalize (if udhBytes = 0 then 0 else _ : Nat) = udhLen at h
  split at h
  · cases h
  · split at h
    · cases h
    · exact lt_of_readEach_seven hd h

end TelephonySms.Cdma
