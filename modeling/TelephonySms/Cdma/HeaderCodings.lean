import Mathlib.Data.List.TakeWhile
import TelephonySms.Cdma.UserDataReading

/-! # User data behind headers in the other codings

Each coding counts its fields in a unit of its own, and the reader takes the headers off
that count in its own way. What is read back of 16-bit units, of septets of the alphabet
of GSM and of octets depends on the lengths of the headers and of the data.
-/

namespace TelephonySms.Cdma

open TelephonySms.Pdu
open SmsPduBuffer

/-! ## Septets -/

theorem packLoop_eq (packLen : Nat) (cs done : List UInt8) {k : Nat} (p : UInt8) (hk : k < 8)
    (hroom : done.length + (Septet.pack k p cs).length < packLen) :
    packLoop packLen (done ++ Septet.pack k p []) k cs = done ++ Septet.pack k p cs := by
  induction cs generalizing done k p with
  | nil => rfl
  | cons c cs ih =>
      match k with
      | 0 =>
          have hroom' : done.length + (Septet.pack 7 c cs).length < packLen := hroom
          have hfull : ¬ done.length ≥ packLen := by omega
          have hrest := ih done c (by omega : 7 < 8) hroom'
          simpa [packLoop, Septet.pack, hfull] using hrest
      | 1 =>
          simp only [Septet.pack, List.length_cons] at hroom
          have hfull : ¬ done.length + 1 ≥ packLen := by omega
          have hrest := ih (done ++ [p ||| c <<< 1]) (k := 0) 0 (by omega)
            (by simp only [List.length_append, List.length_singleton]; omega)
          simpa [packLoop, Septet.pack, hfull, orLast] using hrest
      | k + 2 =>
          simp only [Septet.pack, List.length_cons] at hroom
          have hfull : ¬ done.length + 1 ≥ packLen := by omega
          have hrest := ih (done ++ [p ||| c <<< UInt8.ofNat (k + 2)])
            (c >>> UInt8.ofNat (6 - k)) (by omega : k + 1 < 8)
            (by simp only [List.length_append, List.length_singleton]; omega)
          have hsub : 8 - (k + 2) = 6 - k := by omega
          simpa [packLoop, Septet.pack, hfull, orLast, hsub] using hrest

theorem pack7bitChar_eq {octets : List UInt8} (h : octets.length ≤ 160) :
    pack7bitChar octets 161 = Septet.pack 0 0 octets := by
  have hlen := Septet.length_pack octets 0 (by omega : 0 < 8)
  have hloop := packLoop_eq 161 octets [] 0 (by omega : 0 < 8) (by simp only [List.length_nil]; omega)
  rw [pack7bitChar, if_neg (by omega)]
  simpa [Septet.pack] using hloop

/-- How many septets the loop of `Unpack7bitChar` puts into the array. -/
def unpackCount (dataLen unpackDataLen : Nat) : Nat → Nat → Nat → Nat → Nat
  | 0, _, _, _ => 0
  | n + 1, shift, srcIdx, dstIdx =>
      if srcIdx < dataLen ∧ dstIdx < unpackDataLen then
        if shift = 0 then
          1 + if dstIdx + 1 ≥ dataLen then 0
            else if dstIdx + 1 < unpackDataLen then
              if srcIdx + 1 < dataLen then 1 + unpackCount dataLen unpackDataLen n 6 (srcIdx + 2) (dstIdx + 2)
              else 0
            else 0
        else
          1 + unpackCount dataLen unpackDataLen n (shift - 1)
            (if shift - 1 > 0 then srcIdx + 1 else srcIdx) (dstIdx + 1)
      else 0

/-- With no octet left the loop ends. -/
theorem unpackLoop_of_ge (tpdu : List UInt8) (unpackDataLen n shift srcIdx dstIdx : Nat)
    (h : tpdu.length ≤ srcIdx) : unpackLoop tpdu unpackDataLen n shift srcIdx dstIdx = [] := by
  cases n with
  | zero => rfl
  | succ n => rw [unpackLoop, if_neg (by omega)]

theorem getD_eq_of_drop {os : List UInt8} {i : Nat} {o : UInt8} {rest : List UInt8}
    (h : os.drop i = o :: rest) : os.getD i 0 = o ∧ os.drop (i + 1) = rest := by
  constructor
  · rw [List.getD_eq_getElem?_getD, ← List.head?_drop, h]
    rfl
  · rw [← List.tail_drop, h]
    rfl

theorem and_7F_of_shiftLeft_seven (o o' : UInt8) :
    ((o >>> (1 : UInt8)) + (o' <<< (7 : UInt8))) &&& (0x7F : UInt8) = (o >>> (1 : UInt8)) &&& (0x7F : UInt8) := by
  apply UInt8.toNat_inj.mp
  have hshift := Septet.toNat_shiftLeft_ofNat o' (k := 7) (by omega)
  simp only [UInt8.reduceOfNat] at hshift
  rw [Septet.toNat_and_7F, Septet.toNat_and_7F, UInt8.toNat_add, hshift]
  omega

theorem unpack_starting (tpdu : List UInt8) (n : Nat) {i : Nat} (hi : i < tpdu.length) :
    Septet.unpack 0 (n + 1) (tpdu.drop i) =
      (tpdu.getD i 0 &&& 0x7F) :: Septet.unpack 7 n (tpdu.drop i) := by
  rcases List.exists_cons_of_ne_nil (show tpdu.drop i ≠ [] by simp; omega) with ⟨o, rest, hdrop⟩
  rw [hdrop, Septet.unpack, (getD_eq_of_drop hdrop).1]

/-- The septet that ends in an octet is the next that is read from the octet before. -/
theorem unpack_joinedSeptet (tpdu : List UInt8) (n : Nat) {i k : Nat} (hpos : 0 < k)
    (hi : i + 1 < tpdu.length) :
    Septet.unpack k (n + 1) (tpdu.drop i) =
      joinedSeptet tpdu k (i + 1) :: Septet.unpack (k - 1) n (tpdu.drop (i + 1)) := by
  rcases List.exists_cons_of_ne_nil (show tpdu.drop i ≠ [] by simp; omega) with ⟨o, rest, ho⟩
  rcases List.exists_cons_of_ne_nil (show tpdu.drop (i + 1) ≠ [] by simp; omega) with
    ⟨o', rest', ho'⟩
  have hnext := (getD_eq_of_drop ho).2
  rw [ho'] at hnext
  rw [ho, ← hnext, ho', joinedSeptet, Nat.add_sub_cancel, (getD_eq_of_drop ho).1,
    (getD_eq_of_drop ho').1]
  match k with
  | 1 => exact congrArg (· :: _) (and_7F_of_shiftLeft_seven o o').symm
  | k + 2 => rw [Septet.unpack, show 8 - (k + 2) = 6 - k by omega, show k + 2 - 1 = k + 1 by omega]

theorem unpackLoop_eq (tpdu : List UInt8) (unpackDataLen n shift srcIdx dstIdx : Nat)
    (hshift : shift < 8) (hsrc : 0 < shift → 0 < srcIdx) :
    unpackLoop tpdu unpackDataLen n shift srcIdx dstIdx =
      Septet.unpack shift (unpackCount tpdu.length unpackDataLen n shift srcIdx dstIdx)
        (tpdu.drop (if shift = 0 then srcIdx else srcIdx - 1)) := by
  induction n generalizing shift srcIdx dstIdx with
  | zero => cases shift <;> simp [unpackLoop, unpackCount, Septet.unpack]
  | succ n ih =>
      by_cases hgo : srcIdx < tpdu.length ∧ dstIdx < unpackDataLen
      case neg => simp [unpackLoop, unpackCount, hgo, Septet.unpack]
      by_cases hzero : shift = 0
      · rw [if_pos hzero, hzero, unpackLoop, unpackCount, if_pos hgo, if_pos hgo, if_pos rfl,
          if_pos rfl, Nat.add_comm 1, unpack_starting tpdu _ hgo.1]
        congr 1
        by_cases hlast : dstIdx + 1 ≥ tpdu.length
        · simp [hlast, Septet.unpack]
        by_cases hroom : dstIdx + 1 < unpackDataLen
        case neg => simp [hlast, hroom, Septet.unpack]
        by_cases hnext : srcIdx + 1 < tpdu.length
        · have hmore := ih 6 (srcIdx + 2) (dstIdx + 2) (by omega) (by omega)
          rw [if_neg hlast, if_neg hlast, if_pos hroom, if_pos hroom, if_pos hnext, Nat.add_comm 1,
            unpack_joinedSeptet tpdu _ (by omega) hnext]
          simpa [unpackJoined, hnext] using hmore
        · have hend := unpackLoop_of_ge tpdu unpackDataLen n 7 (srcIdx + 1) (dstIdx + 2) (by omega)
          simp [hlast, hroom, hnext, unpackJoined, hend, Septet.unpack]
      · obtain ⟨i, rfl⟩ : ∃ i, srcIdx = i + 1 := ⟨srcIdx - 1, by omega⟩
        have hmore := ih (shift - 1) (if shift - 1 > 0 then i + 2 else i + 1) (dstIdx + 1)
          (by omega) (fun _ => by split <;> omega)
        have hdrop : (if shift - 1 = 0 then if shift - 1 > 0 then i + 2 else i + 1
            else (if shift - 1 > 0 then i + 2 else i + 1) - 1) = i + 1 := by
          split <;> split <;> omega
        rw [hdrop] at hmore
        rw [if_neg hzero, Nat.add_sub_cancel, unpackLoop, unpackCount, if_pos hgo, if_pos hgo,
          if_neg hzero, if_neg hzero, Nat.add_comm 1, unpack_joinedSeptet tpdu _ (by omega) hgo.1,
          ← hmore, unpackJoined, if_pos hgo.1]
        rfl

/-- How many of `n` septets `Unpack7bitChar` reads back. -/
def septetsRead (n : Nat) : Nat :=
  let udBytes := (n * 7 + 7) / 8
  let groups := (udBytes + 6) / 8
  if n = 0 then 0
  else if 7 * groups < udBytes then min n (8 * groups + 1)
  else if n % 8 = 0 then n - 1
  else n

theorem unpackCount_eq :
    ∀ n < 161, n ≠ 0 → unpackCount ((n * 7 + 7) / 8) 161 161 0 0 0 = septetsRead n := by
  decide +kernel

theorem septetsRead_le (n : Nat) : septetsRead n ≤ n := by
  unfold septetsRead
  dsimp only
  split
  · omega
  split
  · omega
  split <;> omega

theorem unpack7bitChar_eq {dest : List UInt8} {n : Nat} (hn : n ≤ 160)
    (hlen : dest.length = (n * 7 + 7) / 8) :
    unpack7bitChar dest 161 = Septet.unpack 0 (septetsRead n) dest := by
  by_cases hzero : n = 0
  · have hnil : dest = [] := List.length_eq_zero_iff.mp (by omega)
    simp [hzero, hnil, unpack7bitChar, septetsRead, Septet.unpack]
  · rw [unpack7bitChar, if_neg (by omega), unpackLoop_eq _ _ _ _ _ _ (by omega) (by omega), hlen,
      unpackCount_eq n (by omega) hzero]
    simp

/-- The data that `DecodeGsm7Bit` makes of octets for `n` septets. -/
def readBack (n : Nat) (dest : List UInt8) : List UInt8 :=
  let septets := unpack7bitChar dest 161
  (septets ++ List.replicate (n - septets.length) 0).take n

theorem lt_of_mem_readBack {n : Nat} {dest : List UInt8} (hn : n ≤ 160)
    (hlen : dest.length = (n * 7 + 7) / 8) : ∀ s ∈ readBack n dest, s.toNat < 128 := by
  intro s hs
  have hmem := List.mem_of_mem_take hs
  rw [unpack7bitChar_eq hn hlen] at hmem
  rcases List.mem_append.mp hmem with hseptet | hzero
  · obtain ⟨j, hj⟩ := List.mem_iff_getElem?.mp hseptet
    rw [Septet.toNat_getElem_unpack dest _ j (by omega) s hj]
    exact Nat.mod_lt _ (by omega)
  · rw [(List.mem_replicate.mp hzero).2]
    decide

/-- Behind the septets that are read the data is zero. -/
theorem readBack_pack {octets : List UInt8} (hn : octets.length ≤ 160)
    (h7 : ∀ s ∈ octets, s.toNat < 128) :
    readBack octets.length (Septet.pack 0 0 octets) =
      octets.take (septetsRead octets.length) ++
        List.replicate (octets.length - septetsRead octets.length) 0 := by
  have hle := septetsRead_le octets.length
  have hlen : (Septet.pack 0 0 octets).length = (octets.length * 7 + 7) / 8 := by
    rw [Septet.length_pack octets 0 (by omega)]
    omega
  have hall := Septet.unpack_pack octets [] (by omega : 0 < 8) (by decide : (0 : UInt8).toNat < 1) h7
  rw [List.append_nil] at hall
  unfold readBack
  rw [unpack7bitChar_eq hn hlen, Septet.unpack_take _ hle, hall]
  dsimp only
  rw [List.length_take, Nat.min_eq_left hle, List.take_of_length_le]
  simp
  omega

theorem take_append_zeros_eq_iff {octets : List UInt8} {r : Nat} (h : r ≤ octets.length) :
    octets.take r ++ List.replicate (octets.length - r) 0 = octets ↔
      ∀ s ∈ octets.drop r, s = 0 := by
  constructor
  · intro heq s hs
    have htail := congrArg (List.drop r) heq
    rw [List.drop_left' (by simpa using h)] at htail
    rw [← htail] at hs
    exact (List.mem_replicate.mp hs).2
  · intro hzero
    have hdrop : octets.drop r = List.replicate (octets.length - r) 0 :=
      List.eq_replicate_iff.mpr ⟨by simp, hzero⟩
    rw [← hdrop, List.take_append_drop]

/-! ## Septets read an octet too early -/

theorem septetsValue_zeros (z : Nat) (ss : List UInt8) :
    Septet.septetsValue (List.replicate z 0 ++ ss) = 128 ^ z * Septet.septetsValue ss := by
  induction z with
  | zero => simp
  | succ z ih =>
      rw [List.replicate_succ, List.cons_append, Septet.septetsValue, ih, Nat.pow_succ]
      rw [Nat.mul_comm (128 ^ z) 128, Nat.mul_assoc]
      simp

theorem octetsValue_take (os : List UInt8) (m : Nat) :
    Septet.octetsValue (os.take m) = Septet.octetsValue os % 256 ^ m := by
  induction os generalizing m with
  | nil => simp [Septet.octetsValue]
  | cons o os ih =>
      cases m with
      | zero => simp [Septet.octetsValue, Nat.mod_one]
      | succ m =>
          have ho := o.toNat_lt
          rw [List.take_succ_cons, Septet.octetsValue, Septet.octetsValue, ih, Nat.pow_succ',
            Nat.mod_mul]
          congr 1
          · omega
          · congr 2
            omega

theorem length_readBack (n : Nat) (dest : List UInt8) : (readBack n dest).length = n := by
  simp [readBack]
  omega

/-- Every septet is cut out of the number that the octets stand for, or is zero. -/
theorem readBack_getElem {n : Nat} {dest : List UInt8} (hn : n ≤ 160)
    (hlen : dest.length = (n * 7 + 7) / 8) {z : Nat} {s : UInt8}
    (h : (readBack n dest)[z]? = some s) :
    s = 0 ∨ (s.toNat = Septet.octetsValue dest / 128 ^ z % 128 ∧ 7 * (z + 1) ≤ 8 * dest.length) := by
  unfold readBack at h
  rw [unpack7bitChar_eq hn hlen, List.getElem?_take] at h
  split at h
  case isFalse => simp at h
  by_cases hz : z < (Septet.unpack 0 (septetsRead n) dest).length
  · rw [List.getElem?_append_left hz] at h
    right
    constructor
    · simpa using Septet.toNat_getElem_unpack dest _ z (by omega) s h
    · have hbits := Septet.length_unpack_le (septetsRead n) dest (by omega : 0 < 8)
        (List.ne_nil_of_length_pos (by omega))
      omega
  · rw [List.getElem?_append_right (by omega), List.getElem?_replicate] at h
    split at h
    · exact Or.inl (Option.some.inj h).symm
    · simp at h

/-- Septets that are read an octet too early are the same only if all are zero. -/
theorem readBack_shifted_eq_iff {octets : List UInt8} (hn : octets.length ≤ 160)
    (h7 : ∀ s ∈ octets, s.toNat < 128) :
    readBack octets.length ((0 :: Septet.pack 0 0 octets).take ((octets.length * 7 + 7) / 8)) =
      octets ↔ ∀ s ∈ octets, s = 0 := by
  have hpack := Septet.length_pack octets 0 (by omega : 0 < 8)
  have hlen : ((0 :: Septet.pack 0 0 octets).take ((octets.length * 7 + 7) / 8)).length =
      (octets.length * 7 + 7) / 8 := by
    rw [List.length_take, List.length_cons, hpack]
    omega
  have hvalue : Septet.octetsValue ((0 :: Septet.pack 0 0 octets).take
      ((octets.length * 7 + 7) / 8)) =
        256 * Septet.septetsValue octets % 256 ^ ((octets.length * 7 + 7) / 8) := by
    rw [octetsValue_take, Septet.octetsValue, Septet.octetsValue_pack octets (by omega)
      (by decide) h7]
    simp
  constructor
  · intro heq
    by_contra hne
    -- The first septet that is not zero would be cut out of zeros.
    obtain ⟨s, rest, hrest⟩ : ∃ s rest, octets.dropWhile (· == 0) = s :: rest := by
      refine List.exists_cons_of_ne_nil fun hnil => hne ?_
      simpa [List.dropWhile_eq_nil_iff] using hnil
    have hs : s ≠ 0 := by
      have hhead := List.head_dropWhile_not (· == 0) (l := octets) (by simp [hrest])
      simpa [hrest] using hhead
    have hzeros : octets.takeWhile (· == 0) =
        List.replicate (octets.takeWhile (· == 0)).length 0 := by
      refine List.eq_replicate_iff.mpr ⟨rfl, fun b hb => ?_⟩
      simpa using List.mem_takeWhile_imp hb
    generalize (octets.takeWhile (· == 0)).length = z at hzeros
    have hsplit : octets = List.replicate z 0 ++ s :: rest := by
      rw [← hzeros, ← hrest, List.takeWhile_append_dropWhile]
    have hat : octets[z]? = some s := by
      rw [hsplit, List.getElem?_append_right (by simp)]
      simp
    rw [← heq] at hat
    rcases readBack_getElem hn hlen hat with hzero | ⟨hcut, hbits⟩
    · exact hs hzero
    · have hdvd : 128 ^ (z + 1) ∣ Septet.octetsValue ((0 :: Septet.pack 0 0 octets).take
          ((octets.length * 7 + 7) / 8)) := by
        have hpow : (128 : Nat) ^ (z + 1) ∣ 256 ^ ((octets.length * 7 + 7) / 8) := by
          rw [show 128 = 2 ^ 7 from rfl, show 256 = 2 ^ 8 from rfl, ← Nat.pow_mul, ← Nat.pow_mul]
          exact Nat.pow_dvd_pow 2 (by omega)
        rw [hvalue, Nat.dvd_mod_iff hpow, hsplit, septetsValue_zeros, Nat.pow_succ]
        exact ⟨2 * Septet.septetsValue (s :: rest), by
          rw [Nat.mul_left_comm, Nat.mul_assoc, Nat.mul_left_comm 128 2, ← Nat.mul_assoc 2 128]⟩
      obtain ⟨q, hq⟩ := hdvd
      rw [hq, Nat.pow_succ, Nat.mul_assoc, Nat.mul_div_cancel_left _ (by positivity),
        Nat.mul_mod_right] at hcut
      exact hs (UInt8.toNat_inj.mp hcut)
  · intro hzero
    have hall : octets = List.replicate octets.length 0 := List.eq_replicate_iff.mpr ⟨rfl, hzero⟩
    have hnone : Septet.septetsValue octets = 0 := by
      have hz := septetsValue_zeros octets.length []
      rw [List.append_nil, ← hall] at hz
      simpa [Septet.septetsValue] using hz
    have hread : ∀ s ∈ readBack octets.length ((0 :: Septet.pack 0 0 octets).take
        ((octets.length * 7 + 7) / 8)), s = 0 := by
      intro s hs
      obtain ⟨z, hz⟩ := List.mem_iff_getElem?.mp hs
      rcases readBack_getElem hn hlen hz with h0 | ⟨hcut, -⟩
      · exact h0
      · apply UInt8.toNat_inj.mp
        rw [hcut, hvalue, hnone]
        simp
    rw [List.eq_replicate_iff.mpr ⟨length_readBack _ _, hread⟩, ← hall]

/-! ## Octets that are read -/

theorem length_of_readEach {l n : Nat} {b b' : SmsPduBuffer} {vs : List UInt8}
    (h : readEach l n b = some (vs, b')) : vs.length = n := by
  induction n generalizing b b' vs with
  | zero =>
      rw [readEach, Option.some.injEq, Prod.mk.injEq] at h
      rw [← h.1]
      rfl
  | succ n ih =>
      simp only [readEach, Option.bind_eq_bind, Option.bind_eq_some_iff, Option.some.injEq,
        Prod.mk.injEq, Prod.exists] at h
      obtain ⟨v, c, -, ws, d, hrest, rfl, -⟩ := h
      rw [List.length_cons, ih hrest]

theorem readBits_octet_step {b c : SmsPduBuffer} {v : UInt8} (h : b.readBits 8 = some (v, c)) :
    c.data = b.data ∧ c.index = b.index + 1 ∧ c.index ≤ b.data.length := by
  unfold readBits at h
  split at h
  · simp at h
  split at h
  · split at h
    · simp at h
    next octet hoctet =>
      obtain ⟨hlt, -⟩ := List.getElem?_eq_some_iff.mp hoctet
      split at h
      · obtain ⟨-, rfl⟩ := Prod.mk.inj (Option.some.inj h)
        exact ⟨rfl, rfl, hlt⟩
      · omega
  · split at h
    · next octet next hoctet hnext =>
      obtain ⟨hlt, -⟩ := List.getElem?_eq_some_iff.mp hnext
      obtain ⟨-, rfl⟩ := Prod.mk.inj (Option.some.inj h)
      exact ⟨rfl, rfl, by simp; omega⟩
    · simp at h

/-- Every octet that is read is there. -/
theorem index_of_readEach {n : Nat} {b b' : SmsPduBuffer} {vs : List UInt8}
    (h : readEach 8 n b = some (vs, b')) (hsize : b.index ≤ b.data.length) :
    b.index + n ≤ b.data.length := by
  induction n generalizing b b' vs with
  | zero => exact hsize
  | succ n ih =>
      simp only [readEach, Option.bind_eq_bind, Option.bind_eq_some_iff, Option.some.injEq,
        Prod.mk.injEq, Prod.exists] at h
      obtain ⟨v, c, hfirst, ws, d, hrest, -, -⟩ := h
      obtain ⟨hdata, hindex, hle⟩ := readBits_octet_step hfirst
      have hmore := ih hrest (by rw [hdata]; exact hle)
      rw [hdata, hindex] at hmore
      omega

/-! ## The alphabet of GSM -/

/-- Whether the reader skips the octet behind the headers. -/
def fillIsRead (udhBytes : Nat) : Bool := udhBytes ≠ 0 ∧ (udhBytes + 1) * 8 % 7 ≠ 0

theorem decodeGsm7Bit_eq {udhBytes n : Nat} (hudh : udhBytes ≤ 42) (hn : n ≤ 161)
    (b : SmsPduBuffer) :
    decodeGsm7Bit b (UInt8.ofNat (numFields7 true udhBytes n)) (UInt8.ofNat udhBytes) =
      (readIf (fillIsRead udhBytes) 0 8 b).bind fun r =>
        (readEach 8 ((n * 7 + 7) / 8) r.2).map fun r => (readBack n r.1, r.2) := by
  have hcount := ofNat_toNat_of_le (n := udhBytes) (by omega)
  have hfields : (UInt8.ofNat (numFields7 true udhBytes n)).toNat = numFields7 true udhBytes n := by
    apply ofNat_toNat_of_le
    unfold numFields7 udhSeptets
    rw [Bool.toNat_true]
    split <;> omega
  have hzero : UInt8.ofNat udhBytes = 0 ↔ udhBytes = 0 := by
    rw [← UInt8.toNat_inj, hcount]
    rfl
  have hfill : decide (UInt8.ofNat udhBytes ≠ 0 ∧ (udhBytes + 1) * 8 % 7 ≠ 0) =
      fillIsRead udhBytes := by
    simp [fillIsRead, hzero]
  have hudhLen : (if UInt8.ofNat udhBytes = 0 then 0
      else if fillIsRead udhBytes = true then (udhBytes + 1) * 8 / 7 + 2
      else (udhBytes + 1) * 8 / 7 + 1) = numFields7 true udhBytes n - n := by
    unfold numFields7 udhSeptets
    by_cases h0 : udhBytes = 0
    · simp [h0]
    · by_cases h7 : (udhBytes + 1) * 8 % 7 = 0
      · simp [h7, h0, hzero, fillIsRead, show 0 < udhBytes by omega]
        omega
      · simp [h7, h0, hzero, fillIsRead, show 0 < udhBytes by omega]
        omega
  have hle : n ≤ numFields7 true udhBytes n := by
    unfold numFields7
    split <;> omega
  have hlength : numFields7 true udhBytes n - (numFields7 true udhBytes n - n) = n := by omega
  simp only [decodeGsm7Bit, hcount, hfill, hfields, hudhLen, hlength, Option.bind_eq_bind,
    Option.map_eq_bind]
  congr 1
  funext r
  rw [if_neg (by omega), if_neg (by omega)]
  rfl

/-- The reader takes the septets from where they start. -/
theorem decodeGsm7Bit_aligned {udhBytes : Nat} {octets : List UInt8} (hudh : udhBytes ≤ 42)
    (hn : octets.length ≤ 160) (hfill : udhBytes = 0 ∨ (udhBytes + 1) * 8 % 7 ≠ 0)
    (passed rest : List Bool) :
    (decodeGsm7Bit (bitCursor passed (fill7 true udhBytes ++ each 8 (pack7bitChar octets 161) ++
        rest)) (UInt8.ofNat (numFields7 true udhBytes octets.length))
        (UInt8.ofNat udhBytes)).map Prod.fst =
      some (readBack octets.length (Septet.pack 0 0 octets)) := by
  have hpack := Septet.length_pack octets 0 (by omega : 0 < 8)
  have hskip : readIf (fillIsRead udhBytes) 0 8
      (bitCursor passed (fill7 true udhBytes ++ each 8 (Septet.pack 0 0 octets) ++ rest)) =
        some (0, bitCursor (passed ++ fill7 true udhBytes)
          (each 8 (Septet.pack 0 0 octets) ++ rest)) := by
    have hbits : fill7 true udhBytes = fieldIf (fillIsRead udhBytes) 8 0 := by
      unfold fill7 fieldIf fillIsRead
      by_cases h0 : udhBytes = 0
      · simp [h0]
      · have h7 := hfill.resolve_left h0
        simp [h7, h0, show 0 < udhBytes by omega]
    rw [hbits, List.append_assoc, readIf_bitCursor _ _ _ (by omega) (by omega)
      fun _ => Nat.two_pow_pos _]
    simp
  rw [pack7bitChar_eq hn, decodeGsm7Bit_eq hudh (by omega), hskip, Option.bind_some,
    show (octets.length * 7 + 7) / 8 = (Septet.pack 0 0 octets).length by omega, readEach_octets]
  rfl

/-- Where the headers end with a septet the reader does not skip the octet behind them. -/
theorem decodeGsm7Bit_shifted {udhBytes : Nat} {octets : List UInt8} (hudh : udhBytes ≤ 42)
    (hn : octets.length ≤ 160) (hfill : (udhBytes + 1) * 8 % 7 = 0)
    (passed rest : List Bool) :
    (decodeGsm7Bit (bitCursor passed (fill7 true udhBytes ++ each 8 (pack7bitChar octets 161) ++
        rest)) (UInt8.ofNat (numFields7 true udhBytes octets.length))
        (UInt8.ofNat udhBytes)).map Prod.fst =
      some (readBack octets.length
        ((0 :: Septet.pack 0 0 octets).take ((octets.length * 7 + 7) / 8))) := by
  have hpack := Septet.length_pack octets 0 (by omega : 0 < 8)
  have hskip : fillIsRead udhBytes = false := by simp [fillIsRead, hfill]
  have hbits : fill7 true udhBytes ++ each 8 (Septet.pack 0 0 octets) ++ rest =
      each 8 ((0 :: Septet.pack 0 0 octets).take ((octets.length * 7 + 7) / 8)) ++
        (each 8 ((0 :: Septet.pack 0 0 octets).drop ((octets.length * 7 + 7) / 8)) ++ rest) := by
    rw [← List.append_assoc, ← each_append, List.take_append_drop]
    simp [fill7, show udhBytes > 0 by omega]
  have hlen : (octets.length * 7 + 7) / 8 =
      ((0 :: Septet.pack 0 0 octets).take ((octets.length * 7 + 7) / 8)).length := by
    rw [List.length_take, List.length_cons, hpack]
    omega
  rw [pack7bitChar_eq hn, decodeGsm7Bit_eq hudh (by omega), hskip, hbits]
  simp only [readIf, Bool.false_eq_true, if_false, Option.bind_some]
  generalize hdest : (0 :: Septet.pack 0 0 octets).take ((octets.length * 7 + 7) / 8) = dest at hlen ⊢
  rw [hlen, readEach_octets]
  rfl

/-- More than 160 septets are not packed, and then there is nothing to read. -/
theorem decodeGsm7Bit_unpacked {udhBytes n : Nat} {b : SmsPduBuffer} (hudh : udhBytes ≤ 42)
    (hn : n = 161) (hindex : b.index ≤ b.data.length) (hend : b.data.length < b.index + 141) :
    decodeGsm7Bit b (UInt8.ofNat (numFields7 true udhBytes n)) (UInt8.ofNat udhBytes) = none := by
  rw [decodeGsm7Bit_eq hudh (by omega), Option.bind_eq_none_iff]
  rintro ⟨v, c⟩ hskip
  have hc : c.data = b.data ∧ b.index ≤ c.index ∧ c.index ≤ b.data.length := by
    unfold readIf at hskip
    split at hskip
    · obtain ⟨hdata, hstep, hle⟩ := readBits_octet_step hskip
      exact ⟨hdata, by omega, hle⟩
    · obtain ⟨-, rfl⟩ := Prod.mk.inj (Option.some.inj hskip)
      exact ⟨rfl, le_refl _, hindex⟩
  rw [Option.map_eq_none_iff]
  cases hread : readEach 8 ((n * 7 + 7) / 8) c with
  | none => rfl
  | some r =>
      have hmore := index_of_readEach hread (by rw [hc.1]; exact hc.2.2)
      rw [hc.1] at hmore
      omega

/-! ## What is read back -/

/-- The lengths of the headers and of the data, and the data itself, for which a coding
reads back what it wrote. -/
def SmsTeleSvcUserData.ReadsBack (data : SmsTeleSvcUserData) : Prop :=
  let octets := data.userData.data
  let udhBytes := data.userData.udh.length
  match data.encodeType with
  | .unicode => (udhBytes + octets.length) % 2 = 1
  | .gsm7Bit =>
      octets.length ≤ 160 ∧ (∀ c ∈ octets, c.toNat < 128) ∧
        ∀ c ∈ octets.drop (if (udhBytes + 1) % 7 = 0 then 0 else septetsRead octets.length), c = 0
  | _ => False

/-- What the reader gets of user data that was written. -/
theorem ofHex_encodeUserData {data : SmsTeleSvcUserData} {b : SmsPduBuffer} (h : data.Plain)
    (hb : encodeUserData data new = some b) :
    ofHex (b.data.take b.index) = bitCursor [] (recordBits 0x01 (userDataBits data)) := by
  have hlen := length_recordBits 0x01 (userDataBits data)
  rw [new_eq_blank] at hb
  obtain ⟨hle, rfl⟩ := writes_userData h [] 2048 b rfl rfl hb
  rw [List.nil_append, take_blank _ (by omega), ofHex_octets (by omega) hle]

/-- Where the headers are read back, the data decides. -/
theorem decodeUserData_eq_some_iff (coder : TextCoder) {data : SmsTeleSvcUserData}
    {numFields : UInt8} {tail : List Bool} (hne : data.encodeType ≠ .epm)
    (hne' : data.encodeType ≠ .gsmDcs)
    (hplain : data.userData.header.all SmsUDH.isPlain = true)
    (hn : data.userData.header.length ≤ 7)
    (hbits : fieldsBits data = field 8 numFields ++ (udhBits data.userData.udh ++ tail)) :
    ∃ front,
      (decodeUserData coder (data.userData.header ≠ [])
          (bitCursor [] (recordBits 0x01 (userDataBits data)))).map (fun r => r.1.userData) =
        some data.userData ↔
      (decodeFields (bitCursor front (tail ++ pad (userDataBits data).length)) data.encodeType
          (data.userData.header ≠ []) numFields (UInt8.ofNat data.userData.udh.length)).map Prod.fst =
        some data.userData.data := by
  obtain ⟨front, -, -, hdecode⟩ :=
    decodeUserData_bitCursor coder hne hne' hplain hn hbits [] []
  simp only [List.append_nil] at hdecode
  refine ⟨front, ?_⟩
  rw [hdecode, Option.map_map, Option.map_eq_some_iff, Option.map_eq_some_iff]
  constructor
  · rintro ⟨r, hr, heq⟩
    exact ⟨r, hr, congrArg SmsUDPackage.data heq⟩
  · rintro ⟨r, hr, heq⟩
    exact ⟨r, hr, congrArg (SmsUDPackage.mk data.userData.header) heq⟩

theorem length_udh_le {userData : SmsUDPackage} (h : userData.header.length ≤ 7) :
    userData.udh.length ≤ 42 := by
  have hle := length_flatMap_headerOctets_le userData.header
  unfold SmsUDPackage.udh
  omega

/-! ### Octets -/

theorem decodeHeaderLoop_le (coder : TextCoder) (udhBytes : UInt8) (n : Nat) (read : List SmsUDH)
    (index : UInt8) (b : SmsPduBuffer) :
    (decodeHeaderLoop coder udhBytes n read index b).1.2 = 0 ∨
      (decodeHeaderLoop coder udhBytes n read index b).1.2 = udhBytes := by
  induction n generalizing read index b with
  | zero =>
      rw [decodeHeaderLoop]
      split
      · exact Or.inl rfl
      · exact Or.inr rfl
  | succ n ih =>
      rw [decodeHeaderLoop]
      split
      · cases decodeHeader coder b with
        | none => exact Or.inl rfl
        | some r =>
            dsimp only
            split
            · exact Or.inl rfl
            · split
              · exact Or.inl rfl
              · exact ih _ _ _
      · exact Or.inr rfl

theorem decodeHeader7Bit_le (coder : TextCoder) (headerInd : Bool) (b : SmsPduBuffer) :
    (decodeHeader7Bit coder headerInd b).1.2.toNat ≤ 161 := by
  unfold decodeHeader7Bit
  split
  · cases b.readBits 8 with
    | none => simp
    | some r =>
        dsimp only
        split
        · simp
        · rcases decodeHeaderLoop_le coder r.1 7 [] 0 r.2 with h | h
          · rw [h]
            simp
          · rw [h]
            omega
  · simp

theorem length_of_decode8BitData {b c : SmsPduBuffer} {length : UInt8} {octets : List UInt8}
    (h : decode8BitData b length = some (octets, c)) : octets.length = length.toNat := by
  unfold decode8BitData at h
  split at h
  · cases h
  · exact length_of_readEach h

/-- Octets are written without the headers, and the reader takes headers off their count. -/
theorem decodeUserData_octet_ne (coder : TextCoder) {data : SmsTeleSvcUserData}
    (htype : data.encodeType = .octet) (hsize : data.userData.data.length ≤ 161) :
    (decodeUserData coder true
        (bitCursor [] (recordBits 0x01 (userDataBits data)))).map (fun r => r.1.userData) ≠
      some data.userData := by
  intro heq
  obtain ⟨⟨back, c⟩, hback, heq⟩ := Option.map_eq_some_iff.mp heq
  have hread := fun passed rest => readBits_bitCursor passed rest (by omega : 0 < 5) (by omega)
    (show SmsEncodingType.octet.value.toNat < 2 ^ 5 by decide)
  have hbits : userDataBits data = field 5 SmsEncodingType.octet.value ++
      (field 8 (UInt8.ofNat data.userData.data.length) ++ each 8 data.userData.data) := by
    simp [userDataBits, fieldsBits, htype]
  have hid := readIdLen_record [] [] 0x01 (userDataBits data)
  rw [List.append_nil] at hid
  simp only [decodeUserData, readRecord, hid, Option.bind_eq_bind, Option.bind_some] at hback
  generalize pad (userDataBits data).length = zeros at hback
  generalize UInt8.ofNat (((userDataBits data).length + 7) / 8) = len at hback
  rw [hbits] at hback
  simp only [List.append_assoc, hread, Option.bind_some, getEncodingType_value, readIf,
    readBits_bitCursor_octet, Option.bind_eq_some_iff, Option.some.injEq, Prod.mk.injEq,
    Prod.exists, reduceCtorEq, or_self, decide_false, Bool.false_eq_true, if_false,
    decodeFields] at hback
  obtain ⟨back', c', ⟨octets, d, hfields, rfl, -⟩, rfl, -⟩ := hback
  obtain rfl : octets = data.userData.data := congrArg SmsUDPackage.data heq
  have hless (udhBytes : UInt8) (hudh : udhBytes.toNat ≤ 161) :
      (UInt8.ofNat data.userData.data.length - udhBytes - 1).toNat ≠ data.userData.data.length := by
    have hone : (1 : UInt8).toNat = 1 := rfl
    rw [UInt8.toNat_sub, UInt8.toNat_sub, ofNat_toNat_of_le (by omega), hone]
    omega
  exact hless _ (decodeHeader7Bit_le coder true _) (length_of_decode8BitData hfields).symm

/-! ### 16-bit units -/

theorem numFields16_double {udhBytes n : Nat} (hpos : 0 < udhBytes) (hudh : udhBytes ≤ 42)
    (hn : n ≤ 161) :
    (UInt8.ofNat (numFields16 udhBytes n) * 2 - UInt8.ofNat udhBytes - 1).toNat =
      if (udhBytes + n) % 2 = 1 then n else n + 1 := by
  have htwo : (2 : UInt8).toNat = 2 := rfl
  have hone : (1 : UInt8).toNat = 1 := rfl
  rw [UInt8.toNat_sub, UInt8.toNat_sub, UInt8.toNat_mul, ofNat_toNat_of_le (by omega), numFields16,
    if_pos hpos, ofNat_toNat_of_le (by omega), htwo, hone]
  split <;> omega

theorem decodeFields_unicode_iff {data : SmsTeleSvcUserData} {rest : List Bool}
    (htype : data.encodeType = .unicode) (hpos : 0 < data.userData.udh.length)
    (hudh : data.userData.udh.length ≤ 42) (hsize : data.userData.data.length ≤ 161)
    (hheader : data.userData.header ≠ []) (front : List Bool) :
    (decodeFields (bitCursor front (each 8 data.userData.data ++ rest)) data.encodeType
        (data.userData.header ≠ [])
        (UInt8.ofNat (numFields16 data.userData.udh.length data.userData.data.length))
        (UInt8.ofNat data.userData.udh.length)).map Prod.fst = some data.userData.data ↔
      data.ReadsBack := by
  have hlength := numFields16_double hpos hudh hsize
  simp only [decodeFields, htype, SmsTeleSvcUserData.ReadsBack, decide_eq_true hheader, if_true]
  generalize UInt8.ofNat (numFields16 data.userData.udh.length data.userData.data.length) * 2 -
    UInt8.ofNat data.userData.udh.length - 1 = length at hlength
  by_cases hodd : (data.userData.udh.length + data.userData.data.length) % 2 = 1
  · rw [if_pos hodd] at hlength
    have hread := decode8BitData_bitCursor hsize front rest
    rw [← hlength, UInt8.ofNat_toNat] at hread
    simp [hread, hodd]
  · rw [if_neg hodd] at hlength
    simp only [hodd, iff_false]
    intro heq
    obtain ⟨⟨octets, c⟩, hread, rfl⟩ := Option.map_eq_some_iff.mp heq
    have hmore := length_of_decode8BitData hread
    omega

/-! ### Septets -/

theorem decodeFields_gsm7Bit_iff {data : SmsTeleSvcUserData} {rest : List Bool}
    (htype : data.encodeType = .gsm7Bit) (hudh : data.userData.udh.length ≤ 42)
    (hsize : data.userData.data.length ≤ 161) (hrest : rest.length ≤ 8) (front : List Bool) :
    (decodeFields (bitCursor front (fill7 true data.userData.udh.length ++
        each 8 (pack7bitChar data.userData.data 161) ++ rest)) data.encodeType
        (data.userData.header ≠ [])
        (UInt8.ofNat (numFields7 true data.userData.udh.length data.userData.data.length))
        (UInt8.ofNat data.userData.udh.length)).map Prod.fst = some data.userData.data ↔
      data.ReadsBack := by
  simp only [decodeFields, htype, SmsTeleSvcUserData.ReadsBack]
  generalize data.userData.udh.length = udhBytes at hudh
  generalize data.userData.data = octets at hsize
  by_cases hn : octets.length ≤ 160
  case neg =>
    have hunpacked : pack7bitChar octets 161 = [] := by
      rw [pack7bitChar, if_pos (by omega)]
    have hfill : (fill7 true udhBytes).length ≤ 8 := by
      unfold fill7
      split <;> simp
    rw [decodeGsm7Bit_unpacked hudh (by omega)]
    · simp [hn]
    · simp
      omega
    · simp [hunpacked]
      omega
  by_cases h7 : ∀ c ∈ octets, c.toNat < 128
  case neg =>
    have hne (dest : List UInt8) (hlen : dest.length = (octets.length * 7 + 7) / 8) :
        readBack octets.length dest ≠ octets := by
      intro heq
      exact h7 (heq ▸ lt_of_mem_readBack hn hlen)
    have hpack := Septet.length_pack octets 0 (by omega : 0 < 8)
    simp only [h7, false_and, and_false, iff_false]
    by_cases hfill : (udhBytes + 1) * 8 % 7 = 0
    · rw [decodeGsm7Bit_shifted hudh hn hfill, Option.some.injEq]
      apply hne
      rw [List.length_take, List.length_cons, hpack]
      omega
    · rw [decodeGsm7Bit_aligned hudh hn (Or.inr hfill), Option.some.injEq]
      apply hne
      omega
  rw [and_iff_right hn, and_iff_right h7]
  by_cases hfill : (udhBytes + 1) % 7 = 0
  · rw [decodeGsm7Bit_shifted hudh hn (by omega), Option.some.injEq, readBack_shifted_eq_iff hn h7,
      if_pos hfill, List.drop_zero]
  · rw [decodeGsm7Bit_aligned hudh hn (Or.inr (by omega)), Option.some.injEq, readBack_pack hn h7,
      take_append_zeros_eq_iff (septetsRead_le _), if_neg hfill]

/-- The codings other than septets of seven bits, with headers that are written in full,
or the alphabet of GSM with or without them, are read back as they were written exactly
where their units agree. -/
theorem decodeUserData_encodeUserData_iff (coder : TextCoder) {data : SmsTeleSvcUserData}
    {b : SmsPduBuffer}
    (hcoding : data.encodeType = .unicode ∨ data.encodeType = .gsm7Bit ∨ data.encodeType = .octet)
    (hplain : data.userData.header.all SmsUDH.isPlain = true)
    (hn : data.userData.header.length ≤ 7)
    (hheader : data.userData.header ≠ [] ∨ data.encodeType = .gsm7Bit)
    (hsize : data.userData.data.length ≤ 161)
    (hencode : encodeUserData data new = some b) :
    (decodeUserData coder (data.userData.header ≠ []) (ofHex (b.data.take b.index))).map
        (fun r => r.1.userData) = some data.userData ↔
      data.ReadsBack := by
  have hudh : data.userData.udh.length ≤ 42 := length_udh_le hn
  have hpdu : headerPdu data.userData.header = data.userData.udh := headerPdu_eq hn
  have hPlain : data.Plain :=
    ⟨by rcases hcoding with h | h | h <;> simp [h], by rcases hcoding with h | h | h <;> simp [h],
      by rcases hcoding with h | h | h <;> simp [h]⟩
  rw [ofHex_encodeUserData hPlain hencode]
  rcases hcoding with htype | htype | htype
  · have hne : data.userData.header ≠ [] := by simpa [htype] using hheader
    have hpos : 0 < data.userData.udh.length := by
      obtain ⟨first, others, hcons⟩ := List.exists_cons_of_ne_nil hne
      rw [hcons, List.all_cons, Bool.and_eq_true] at hplain
      have := length_headerOctets_pos hplain.1
      simp only [SmsUDPackage.udh, hcons, List.flatMap_cons, List.length_append]
      omega
    have hbits : fieldsBits data = field 8 (UInt8.ofNat (numFields16 data.userData.udh.length
        data.userData.data.length)) ++ (udhBits data.userData.udh ++ each 8 data.userData.data) := by
      simp [fieldsBits, htype, hpdu, headerUnicodeBits_eq]
    obtain ⟨front, hiff⟩ :=
      decodeUserData_eq_some_iff coder hPlain.ne_epm hPlain.ne_gsmDcs hplain hn hbits
    rw [hiff]
    exact decodeFields_unicode_iff htype hpos hudh hsize hne front
  · have hbits : fieldsBits data = field 8 (UInt8.ofNat (numFields7 true data.userData.udh.length
        data.userData.data.length)) ++ (udhBits data.userData.udh ++
          (fill7 true data.userData.udh.length ++ each 8 (pack7bitChar data.userData.data 161))) := by
      simp [fieldsBits, htype, hpdu, header7Bits_eq]
    obtain ⟨front, hiff⟩ :=
      decodeUserData_eq_some_iff coder hPlain.ne_epm hPlain.ne_gsmDcs hplain hn hbits
    rw [hiff]
    refine decodeFields_gsm7Bit_iff htype hudh hsize ?_ front
    simp
    omega
  · have hne : data.userData.header ≠ [] := by simpa [htype] using hheader
    have hnever := decodeUserData_octet_ne coder htype hsize
    simp only [hne, ne_eq, not_false_eq_true, decide_true, SmsTeleSvcUserData.ReadsBack, htype,
      iff_false]
    exact hnever

/-- A 16-bit unit behind the header of a first part of two. -/
def unicodePart : SmsTeleSvcUserData := ⟨.unicode, 0, ⟨[.concat8Bit 7 2 1], [0x4E, 0x2D]⟩⟩

theorem decodeUserData_encodeUserData_unicodePart :
    ∃ b, encodeUserData unicodePart new = some b ∧
      (decodeUserData ⟨id, id⟩ true (ofHex (b.data.take b.index))).map (fun r => r.1.userData) =
        some unicodePart.userData := by
  have haccepted : (encodeUserData unicodePart new).isSome = true := by decide +kernel
  obtain ⟨b, hb⟩ := Option.isSome_iff_exists.mp haccepted
  have hback : unicodePart.ReadsBack := by
    change (unicodePart.userData.udh.length + unicodePart.userData.data.length) % 2 = 1
    decide
  exact ⟨b, hb, (decodeUserData_encodeUserData_iff ⟨id, id⟩ (.inl rfl) rfl (by decide)
    (.inl (by decide)) (by decide) hb).mpr hback⟩

/-- Eight septets, of which the last is not read. -/
def eightSeptets : SmsTeleSvcUserData :=
  ⟨.gsm7Bit, 0, ⟨[], [0x31, 0x32, 0x33, 0x34, 0x35, 0x36, 0x37, 0x38]⟩⟩

theorem decodeUserData_eightSeptets :
    ¬ ∀ b, encodeUserData eightSeptets new = some b →
      (decodeUserData ⟨id, id⟩ false (ofHex (b.data.take b.index))).map (fun r => r.1.userData) =
        some eightSeptets.userData := by
  intro hall
  have haccepted : (encodeUserData eightSeptets new).isSome = true := by decide +kernel
  obtain ⟨b, hb⟩ := Option.isSome_iff_exists.mp haccepted
  have hread : ((encodeUserData eightSeptets new).bind fun b =>
      (decodeUserData ⟨id, id⟩ false (ofHex (b.data.take b.index))).map fun r => r.1.userData) =
        some ⟨[], [0x31, 0x32, 0x33, 0x34, 0x35, 0x36, 0x37, 0]⟩ := by decide +kernel
  rw [hb, Option.bind_some, hall b hb] at hread
  exact absurd hread (by decide)

end TelephonySms.Cdma
