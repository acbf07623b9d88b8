import TelephonySms.Cdma.HeaderCodings
import TelephonySms.Pdu.CommonUtils

/-! # The two packers of septets

`GsmSmsCommonUtils` packs septets into a write buffer and reads them back, and
`SmsCommonUtils` packs them into an array, of which it looks at the end before each round
whether or not the round needs an octet more.
-/

namespace TelephonySms.Pdu

open SmsPduBuffer

/-! ## Into a buffer and back -/

/-- What is packed behind the fill bits is read back behind them, and takes no more octets than
its bits. -/
theorem unpack7bitChar_pack7bitChar {cs : List UInt8} {fillBits m : Nat}
    (hcs : ∀ c ∈ cs, c < 0x80) (hlen : cs.length ≤ 160) (hfill : fillBits ≤ 6)
    (hroom : (fillBits + 7 * cs.length + 7) / 8 ≤ m) (passed : List UInt8)
    (hsize : passed.length + m < 0x10000) :
    ∃ octets, pack7bitChar (cursor passed (List.replicate m 0)) cs fillBits =
        some (cursor (passed ++ octets) (List.replicate (m - octets.length) 0)) ∧
      octets.length = (fillBits + 7 * cs.length + 7) / 8 ∧
      ∀ passed rest unpackDataLen, cs.length < unpackDataLen →
        passed.length + (octets ++ rest).length < 0x10000 →
        ∃ b, unpack7bitChar (cursor passed (octets ++ rest)) cs.length fillBits unpackDataLen =
          some (cs, b) := by
  have hcount := Septet.length_pack cs (k := fillBits) 0 (by omega)
  refine ⟨Septet.pack fillBits 0 cs, ?_, hcount, ?_⟩
  · exact pack7bitChar_cursor cs passed (by omega) hlen (by omega) (by omega)
  · intro passed rest unpackDataLen hdata hsize
    have hne : fillBits = 0 ∨ Septet.pack fillBits 0 cs ++ rest ≠ [] := by
      by_cases hzero : fillBits = 0
      · exact .inl hzero
      · refine .inr (List.ne_nil_of_length_pos ?_)
        rw [List.length_append, hcount]
        omega
    rcases unpack7bitChar_cursor passed (Septet.pack fillBits 0 cs ++ rest) hdata
      (show fillBits < 8 by omega) hne hsize with ⟨before, after, hunpack, -⟩
    rw [Septet.unpack_pack cs rest (by omega) (Nat.two_pow_pos fillBits)
      fun c hc => UInt8.lt_iff_toNat_lt.1 (hcs c hc)] at hunpack
    exact ⟨_, hunpack⟩

/-- Three septets behind one fill bit. -/
theorem unpack7bitChar_pack7bitChar_three :
    ∃ octets, pack7bitChar (cursor [] (List.replicate 3 0)) [0x41, 0x7F, 0x00] 1 =
        some (cursor ([] ++ octets) (List.replicate (3 - octets.length) 0)) ∧
      octets.length = (1 + 7 * [(0x41 : UInt8), 0x7F, 0x00].length + 7) / 8 ∧
      ∃ b, unpack7bitChar (cursor [] (octets ++ [])) [(0x41 : UInt8), 0x7F, 0x00].length 1 161 =
        some ([0x41, 0x7F, 0x00], b) := by
  rcases unpack7bitChar_pack7bitChar
    (show ∀ c ∈ [(0x41 : UInt8), 0x7F, 0x00], c < 0x80 by simp) (by decide)
    (show 1 ≤ 6 by decide) (show (1 + 7 * 3 + 7) / 8 ≤ 3 by decide) [] (by decide) with
    ⟨octets, hpack, hcount, hback⟩
  exact ⟨octets, hpack, hcount, hback [] [] 161 (by decide) (by rw [List.append_nil, hcount]; decide)⟩

/-! ## Into an array -/

/-- `packData[dstIdx - 1] |= v`. -/
def orLastOctet (packed : List UInt8) (v : UInt8) : List UInt8 :=
  packed.dropLast ++ [packed.getLastD 0 ||| v]

/-- The loop of `SmsCommonUtils::Pack7bitChar` with the octets up to `dstIdx`. A round that
starts an octet takes two characters, the second without a look at the end of the array. -/
def packDataLoop (packLen : Nat) : List UInt8 → Nat → List UInt8 → List UInt8
  | packed, _, [] => packed
  | packed, shift, c :: cs =>
      if packLen ≤ packed.length then packed
      else if shift = 0 then
        match cs with
        | [] => packed ++ [c]
        | d :: cs => packDataLoop packLen (orLastOctet (packed ++ [c]) (d <<< 7) ++ [d >>> 1]) 6 cs
      else if shift > 1 then
        packDataLoop packLen
          (orLastOctet packed (c <<< UInt8.ofNat shift) ++ [c >>> UInt8.ofNat (8 - shift)])
          (shift - 1) cs
      else packDataLoop packLen (orLastOctet packed (c <<< 1)) 0 cs

/-- The octets that are written to an array of zeros, as many as are returned. -/
def packData (userData : List UInt8) (fillBits packLen : Nat) : List UInt8 :=
  if userData.length > 160 then []
  else packDataLoop packLen (if fillBits > 0 then [0] else []) fillBits userData

/-- The last septet ends where an octet ends, and that is the last of the array. -/
def EndsWithArray (packLen done k : Nat) (cs : List UInt8) : Prop :=
  cs ≠ [] ∧ (k + 7 * cs.length) % 8 = 0 ∧ packLen = done + (k + 7 * cs.length) / 8

instance (packLen done k : Nat) (cs : List UInt8) : Decidable (EndsWithArray packLen done k cs) :=
  inferInstanceAs (Decidable (_ ∧ _))

/-- The septets without one that ends with the array. -/
def keptSeptets (packLen done k : Nat) (cs : List UInt8) : List UInt8 :=
  if EndsWithArray packLen done k cs then cs.dropLast else cs

/-- Whether the last septet ends with the array is seen once an octet is full. -/
theorem keptSeptets_append {packLen done k k' : Nat} {front cs : List UInt8}
    (hbits : k + 7 * front.length = 8 + k')
    (hlast : cs = [] → (k + 7 * front.length) % 8 ≠ 0) :
    keptSeptets packLen done k (front ++ cs) = front ++ keptSeptets packLen (done + 1) k' cs := by
  have hiff : EndsWithArray packLen done k (front ++ cs) ↔
      EndsWithArray packLen (done + 1) k' cs := by
    have hsum : k + 7 * (front.length + cs.length) = k' + 7 * cs.length + 8 := by omega
    unfold EndsWithArray
    rw [List.length_append, hsum, Nat.add_mod_right, Nat.add_div_right _ (by decide)]
    by_cases hcs : cs = []
    · have hmod := hlast hcs
      rw [hbits, Nat.add_mod_left] at hmod
      simp [hcs, hmod]
    · have happend : front ++ cs ≠ [] := by simp [hcs]
      simp only [ne_eq, happend, hcs, not_false_eq_true, true_and]
      omega
  unfold keptSeptets
  by_cases hends : EndsWithArray packLen (done + 1) k' cs
  · rw [if_pos hends, if_pos (hiff.2 hends), List.dropLast_append_of_ne_nil hends.1]
  · rw [if_neg hends, if_neg fun h => hends (hiff.1 h)]

/-- With room for the septets all of them are packed, but for a last one that ends with the
array. -/
theorem packDataLoop_eq (packLen : Nat) (cs done : List UInt8) {k : Nat} (p : UInt8) (hk : k < 8)
    (hroom : done.length + (k + 7 * cs.length + 7) / 8 ≤ packLen) :
    packDataLoop packLen (done ++ Septet.pack k p []) k cs =
      done ++ Septet.pack k p (keptSeptets packLen done.length k cs) := by
  match cs, k with
  | [], k => simp [packDataLoop, keptSeptets]
  | [c], 0 =>
      have hfull : ¬ packLen ≤ done.length := by
        simp only [List.length_singleton] at hroom
        omega
      simp [packDataLoop, keptSeptets, EndsWithArray, Septet.pack, hfull]
  | c :: d :: cs, 0 =>
      simp only [List.length_cons] at hroom
      have hrest := packDataLoop_eq packLen cs (done ++ [c ||| d <<< 7]) (k := 6) (d >>> 1)
        (by omega) (by simp only [List.length_append, List.length_singleton]; omega)
      have hkept : keptSeptets packLen done.length 0 ([c, d] ++ cs) =
          [c, d] ++ keptSeptets packLen (done.length + 1) 6 cs :=
        keptSeptets_append rfl (by simp)
      have hfull : ¬ packLen ≤ done.length := by omega
      rw [List.length_append, List.length_singleton] at hrest
      rw [show c :: d :: cs = [c, d] ++ cs from rfl, hkept]
      simpa [packDataLoop, Septet.pack, hfull, orLastOctet] using hrest
  | [c], 1 =>
      simp only [List.length_singleton] at hroom
      by_cases hfull : packLen ≤ done.length + 1
      · have hends : EndsWithArray packLen done.length 1 [c] :=
          ⟨by simp, by simp, by simp only [List.length_singleton]; omega⟩
        simp [packDataLoop, keptSeptets, hends, Septet.pack, hfull]
      · have hends : ¬ EndsWithArray packLen done.length 1 [c] := by
          rintro ⟨-, -, hlen⟩
          simp only [List.length_singleton] at hlen
          omega
        simp [packDataLoop, keptSeptets, hends, Septet.pack, hfull, orLastOctet]
  | c :: d :: cs, 1 =>
      simp only [List.length_cons] at hroom
      have hrest := packDataLoop_eq packLen (d :: cs) (done ++ [p ||| c <<< 1]) (k := 0) 0
        (by omega) (by simp only [List.length_append, List.length_cons, List.length_nil]; omega)
      have hkept : keptSeptets packLen done.length 1 ([c] ++ d :: cs) =
          [c] ++ keptSeptets packLen (done.length + 1) 0 (d :: cs) :=
        keptSeptets_append rfl (by simp)
      have hfull : ¬ packLen ≤ done.length + 1 := by omega
      rw [List.length_append, List.length_singleton] at hrest
      rw [show c :: d :: cs = [c] ++ d :: cs from rfl, hkept]
      simpa [packDataLoop, Septet.pack, hfull, orLastOctet] using hrest
  | c :: cs, k + 2 =>
      simp only [List.length_cons] at hroom
      have hrest := packDataLoop_eq packLen cs (done ++ [p ||| c <<< UInt8.ofNat (k + 2)])
        (k := k + 1) (c >>> UInt8.ofNat (6 - k)) (by omega)
        (by simp only [List.length_append, List.length_singleton]; omega)
      have hkept : keptSeptets packLen done.length (k + 2) ([c] ++ cs) =
          [c] ++ keptSeptets packLen (done.length + 1) (k + 1) cs := by
        refine keptSeptets_append ?_ ?_
        · simp only [List.length_singleton]
          omega
        · simp only [List.length_singleton]
          omega
      have hfull : ¬ packLen ≤ done.length + 1 := by omega
      have hsub : 8 - (k + 2) = 6 - k := by omega
      rw [List.length_append, List.length_singleton] at hrest
      rw [show c :: cs = [c] ++ cs from rfl, hkept]
      unfold packDataLoop
      simpa [Septet.pack, hfull, orLastOctet, hsub] using hrest
termination_by cs.length

theorem packData_eq {cs : List UInt8} {fillBits packLen : Nat} (hlen : cs.length ≤ 160)
    (hfill : fillBits < 8) (hroom : (fillBits + 7 * cs.length + 7) / 8 ≤ packLen) :
    packData cs fillBits packLen = Septet.pack fillBits 0 (keptSeptets packLen 0 fillBits cs) := by
  have hloop := packDataLoop_eq packLen cs [] 0 hfill
    (show [].length + (fillBits + 7 * cs.length + 7) / 8 ≤ packLen by simpa using hroom)
  rw [packData, if_neg (by omega)]
  cases fillBits with
  | zero => simpa [Septet.pack] using hloop
  | succ k => simpa [Septet.pack] using hloop

/-- The array of bearer data has more octets than it takes septets, so that its end is not seen
there. -/
theorem packData_eq_pack7bitChar (cs : List UInt8) :
    packData cs 0 161 = Cdma.pack7bitChar cs 161 := by
  by_cases hlong : cs.length > 160
  · rw [packData, Cdma.pack7bitChar, if_pos hlong, if_pos hlong]
  · have hends : ¬ EndsWithArray 161 0 0 cs := by
      rintro ⟨-, -, hlen⟩
      omega
    rw [packData_eq (by omega) (by decide) (by omega), Cdma.pack7bitChar_eq (by omega), keptSeptets,
      if_neg hends]

/-- The array takes no octet behind its end and those that the buffer takes, of which there are
as many, however long the buffer is; what one packer refuses the other does. -/
def PackersAgree (cs : List UInt8) (fillBits packLen : Nat) : Prop :=
  (packData cs fillBits packLen).length ≤ packLen ∧
    (cs.length > 160 → packData cs fillBits packLen = []) ∧
    ∀ m, (fillBits + 7 * cs.length + 7) / 8 ≤ m → m < 0x10000 →
      pack7bitChar (cursor [] (List.replicate m 0)) cs fillBits =
        if cs.length > 160 then none
        else some (cursor (packData cs fillBits packLen)
          (List.replicate (m - (packData cs fillBits packLen).length) 0))

/-- The packers agree on what they pack if the array's packer ends with the octets of all
septets. -/
theorem packersAgree_iff_pack {cs : List UInt8} {fillBits packLen : Nat} (hlen : cs.length ≤ 160)
    (hfill : fillBits < 8) (hroom : (fillBits + 7 * cs.length + 7) / 8 ≤ packLen) :
    PackersAgree cs fillBits packLen ↔ packData cs fillBits packLen = Septet.pack fillBits 0 cs := by
  have hcount := Septet.length_pack cs 0 hfill
  have hwritten {m : Nat} (hm : (fillBits + 7 * cs.length + 7) / 8 ≤ m) (hsize : m < 0x10000) :
      pack7bitChar (cursor [] (List.replicate m 0)) cs fillBits =
        some (cursor (Septet.pack fillBits 0 cs)
          (List.replicate (m - (Septet.pack fillBits 0 cs).length) 0)) := by
    rw [pack7bitChar_cursor cs [] hfill hlen (n := m - (fillBits + 7 * cs.length + 7) / 8)
      (by omega) (by simpa using hsize), hcount, List.nil_append]
  constructor
  · rintro ⟨-, -, hagree⟩
    have hbuffer := hagree ((fillBits + 7 * cs.length + 7) / 8) (Nat.le_refl _) (by omega)
    rw [if_neg (by omega), hwritten (Nat.le_refl _) (by omega)] at hbuffer
    have hindex := congrArg SmsPduBuffer.index (Option.some.inj hbuffer)
    have hdata := congrArg SmsPduBuffer.data (Option.some.inj hbuffer)
    rw [cursor_index, cursor_index] at hindex
    rw [cursor_data, cursor_data] at hdata
    exact (List.append_inj_left hdata hindex).symm
  · intro hpacked
    refine ⟨by rw [hpacked, hcount]; exact hroom, fun hlong => absurd hlen (by omega), ?_⟩
    intro m hm hsize
    rw [if_neg (by omega), hpacked, hwritten hm hsize]

/-- The packers agree unless the last septet ends with the array and is not zero: the end of the
array is looked at before a septet that needs no octet more. -/
theorem packersAgree_iff {cs : List UInt8} {fillBits packLen : Nat} (hcs : ∀ c ∈ cs, c < 0x80)
    (hfill : fillBits ≤ 6) (hroom : (fillBits + 7 * cs.length + 7) / 8 ≤ packLen) :
    PackersAgree cs fillBits packLen ↔
      ¬ (cs.length ≤ 160 ∧ EndsWithArray packLen 0 fillBits cs ∧ cs.getLast? ≠ some 0) := by
  by_cases hlong : cs.length > 160
  · have hnone : packData cs fillBits packLen = [] := if_pos hlong
    refine iff_of_true ⟨by simp [hnone], fun _ => hnone, ?_⟩ fun h => absurd h.1 (by omega)
    intro m _ _
    rw [pack7bitChar, if_pos hlong, if_pos hlong]
  have hlen : cs.length ≤ 160 := by omega
  rw [packersAgree_iff_pack hlen (by omega) hroom, packData_eq hlen (by omega) hroom, keptSeptets]
  by_cases hends : EndsWithArray packLen 0 fillBits cs
  case neg => simp [hends]
  obtain ⟨front, c, rfl⟩ : ∃ front c, cs = front ++ [c] :=
    ⟨_, _, (List.dropLast_append_getLast hends.1).symm⟩
  have hseptets : ∀ t ∈ front ++ [c], t.toNat < 128 := fun t ht => UInt8.lt_iff_toNat_lt.1 (hcs t ht)
  have hshows := Septet.pack_concat_eq_iff front (k := fillBits) (p := 0) (s := c) (by omega)
    (Nat.two_pow_pos fillBits) (fun t ht => hseptets t (by simp [ht])) (hseptets c (by simp))
    (by simpa using hends.2.1)
  rw [if_pos hends, List.dropLast_concat, eq_comm, hshows]
  simp only [hlen, hends, true_and, ne_eq, Decidable.not_not, List.getLast?_concat,
    Option.some.injEq]

/-- Eight septets of which the last ends behind the array. -/
theorem packersAgree_spare : PackersAgree (List.replicate 8 0x41) 0 8 := by
  have hcs : ∀ c ∈ List.replicate 8 (0x41 : UInt8), c < 0x80 := by simp
  exact (packersAgree_iff hcs (by decide) (by decide)).2 (by decide)

/-- The last of eight septets is not packed into seven octets. -/
theorem not_packersAgree :
    (∀ c ∈ List.replicate 8 (0x41 : UInt8), c < 0x80) ∧ (0 + 7 * 8 + 7) / 8 ≤ 7 ∧
      ¬ PackersAgree (List.replicate 8 0x41) 0 7 := by
  refine ⟨by simp, by decide, fun hagree => ?_⟩
  have hbuffer := hagree.2.2 7 (by decide) (by decide)
  revert hbuffer
  decide

end TelephonySms.Pdu
