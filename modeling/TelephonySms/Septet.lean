import Mathlib.Data.List.Basic
import Mathlib.Tactic.IntervalCases

/-! # Septets in octets

Seven-bit units laid into octets, least significant bits first. A packing in
progress is the number of bits already in the current octet and that octet, so
a stream that starts after fill bits is one more starting point. A reader in
progress has the same two, and stops where the octets run out.
-/

namespace TelephonySms.Septet

/-! ## One octet -/

theorem toNat_shiftLeft_ofNat (s : UInt8) {k : Nat} (hk : k < 8) :
    (s <<< UInt8.ofNat k).toNat = 2 ^ k * s.toNat % 256 := by
  have hmod : k % 256 % 8 = k := by omega
  simp [UInt8.toNat_shiftLeft, hmod, Nat.shiftLeft_eq, Nat.mul_comm]

theorem toNat_shiftRight_ofNat (s : UInt8) {k : Nat} (hk : k < 8) :
    (s >>> UInt8.ofNat k).toNat = s.toNat / 2 ^ k := by
  have hmod : k % 256 % 8 = k := by omega
  simp [UInt8.toNat_shiftRight, hmod, Nat.shiftRight_eq_div_pow]

theorem toNat_and_7F (o : UInt8) : (o &&& 0x7F).toNat = o.toNat % 128 :=
  Nat.and_two_pow_sub_one_eq_mod o.toNat 7

/-- A septet laid above the `k` bits an octet already holds. -/
theorem toNat_or_shiftLeft (p s : UInt8) {k : Nat} (hk : k < 8) (hp : p.toNat < 2 ^ k) :
    (p ||| s <<< UInt8.ofNat k).toNat = p.toNat + 2 ^ k * (s.toNat % 2 ^ (8 - k)) := by
  have hpow : 256 = 2 ^ k * 2 ^ (8 - k) := by
    rw [← Nat.pow_add, Nat.add_sub_cancel' (by omega)]
  have hshift : (s <<< UInt8.ofNat k).toNat = 2 ^ k * (s.toNat % 2 ^ (8 - k)) := by
    rw [toNat_shiftLeft_ofNat s hk, hpow, Nat.mul_mod_mul_left]
  rw [UInt8.toNat_or, hshift, Nat.or_comm, ← Nat.two_pow_add_eq_or_of_lt hp, Nat.add_comm]

theorem toNat_shiftRight_lt {o : UInt8} {n k : Nat} (hk : k < 8) (hkn : k ≤ n)
    (ho : o.toNat < 2 ^ n) : (o >>> UInt8.ofNat k).toNat < 2 ^ (n - k) := by
  rw [toNat_shiftRight_ofNat o hk]
  apply Nat.div_lt_of_lt_mul
  rwa [← Nat.pow_add, Nat.add_sub_cancel' hkn]

/-- What a septet leaves for the next octet when `k + 2` bits of the current one are taken. -/
theorem carry_lt {s : UInt8} {k : Nat} (hk : k + 2 < 8) (hs : s.toNat < 128) :
    (s >>> UInt8.ofNat (6 - k)).toNat < 2 ^ (k + 1) := by
  have hlt := toNat_shiftRight_lt (n := 7) (show 6 - k < 8 by omega) (by omega) hs
  rwa [show 7 - (6 - k) = k + 1 by omega] at hlt

/-! ## Packing and reading -/

/-- The octets from the current one on, when `p` holds `shift` bits and `ss`
follow; with `shift` zero there is no current octet. -/
def pack : Nat → UInt8 → List UInt8 → List UInt8
  | 0, _, [] => []
  | _ + 1, p, [] => [p]
  | 0, _, s :: ss => pack 7 s ss
  | 1, p, s :: ss => (p ||| s <<< 1) :: pack 0 0 ss
  | k + 2, p, s :: ss =>
      (p ||| s <<< UInt8.ofNat (k + 2)) :: pack (k + 1) (s >>> UInt8.ofNat (6 - k)) ss

/-- At most `n` septets from octets of which the first has `shift` bits read. -/
def unpack : Nat → Nat → List UInt8 → List UInt8
  | _, 0, _ => []
  | _, _ + 1, [] => []
  | 0, n + 1, o :: os => (o &&& 0x7F) :: unpack 7 n (o :: os)
  | 1, n + 1, o :: os => ((o >>> 1) &&& 0x7F) :: unpack 0 n os
  | _ + 2, _ + 1, [_] => []
  | k + 2, n + 1, o :: o' :: os =>
      (((o >>> UInt8.ofNat (k + 2)) + (o' <<< UInt8.ofNat (6 - k))) &&& 0x7F) ::
        unpack (k + 1) n (o' :: os)

theorem length_pack (ss : List UInt8) {k : Nat} (p : UInt8) (hk : k < 8) :
    (pack k p ss).length = (k + 7 * ss.length + 7) / 8 := by
  induction ss generalizing k p with
  | nil =>
      cases k with
      | zero => rfl
      | succ k => simp [pack]; omega
  | cons s ss ih =>
      match k with
      | 0 => rw [pack, ih s (by omega), List.length_cons]; omega
      | 1 => rw [pack, List.length_cons, ih 0 (by omega), List.length_cons]; omega
      | k + 2 => rw [pack, List.length_cons, ih _ (by omega), List.length_cons]; omega

/-- The current octet keeps the bits it already had. -/
theorem pack_eq_cons (ss : List UInt8) {k : Nat} {p : UInt8} (hk : k < 8) (hpos : 0 < k)
    (hp : p.toNat < 2 ^ k) :
    ∃ o os, pack k p ss = o :: os ∧ o.toNat % 2 ^ k = p.toNat := by
  have hkeep (s : UInt8) : (p ||| s <<< UInt8.ofNat k).toNat % 2 ^ k = p.toNat := by
    rw [toNat_or_shiftLeft p s hk hp, Nat.add_mul_mod_self_left, Nat.mod_eq_of_lt hp]
  match k, ss with
  | k + 1, [] => exact ⟨p, [], rfl, Nat.mod_eq_of_lt hp⟩
  | 1, s :: ss => exact ⟨_, _, rfl, hkeep s⟩
  | k + 2, s :: ss => exact ⟨_, _, rfl, hkeep s⟩

/-- A septet split over two octets is put together again. -/
theorem join_split {p s o' : UInt8} {k : Nat} (hk : k + 2 < 8) (hp : p.toNat < 2 ^ (k + 2))
    (hs : s.toNat < 128)
    (ho : o'.toNat % 2 ^ (k + 1) = (s >>> UInt8.ofNat (6 - k)).toNat) :
    ((((p ||| s <<< UInt8.ofNat (k + 2)) >>> UInt8.ofNat (k + 2)) +
      (o' <<< UInt8.ofNat (6 - k))) &&& 0x7F) = s := by
  apply UInt8.toNat_inj.mp
  rw [toNat_shiftRight_ofNat s (by omega)] at ho
  rw [toNat_and_7F, UInt8.toNat_add, toNat_shiftRight_ofNat _ hk, toNat_or_shiftLeft p s hk hp,
    toNat_shiftLeft_ofNat o' (by omega)]
  have hcases : k = 0 ∨ k = 1 ∨ k = 2 ∨ k = 3 ∨ k = 4 ∨ k = 5 := by omega
  obtain rfl | rfl | rfl | rfl | rfl | rfl := hcases <;> norm_num at * <;> omega

/-- What was packed is read back, whatever octets follow. -/
theorem unpack_pack (ss rest : List UInt8) {k : Nat} {p : UInt8} (hk : k < 8)
    (hp : p.toNat < 2 ^ k) (hss : ∀ s ∈ ss, s.toNat < 128) :
    unpack k ss.length (pack k p ss ++ rest) = ss := by
  induction ss generalizing k p with
  | nil => cases k <;> simp [unpack]
  | cons s ss ih =>
      have hs : s.toNat < 128 := hss s (by simp)
      have hrest : ∀ t ∈ ss, t.toNat < 128 := fun t ht => hss t (by simp [ht])
      match k with
      | 0 =>
          obtain ⟨o, os, hpack, ho⟩ := pack_eq_cons ss (k := 7) (p := s) (by omega) (by omega) hs
          have htail := ih (k := 7) (p := s) (by omega) hs hrest
          have hhead : o &&& 0x7F = s := by
            apply UInt8.toNat_inj.mp
            rw [toNat_and_7F]
            exact ho
          simp only [pack, hpack, List.cons_append, List.length_cons, unpack, hhead] at htail ⊢
          rw [htail]
      | 1 =>
          have hhead : ((p ||| s <<< 1) >>> 1) &&& 0x7F = s := by
            apply UInt8.toNat_inj.mp
            have hor := toNat_or_shiftLeft p s (k := 1) (by omega) hp
            have hshift := toNat_shiftRight_ofNat (p ||| s <<< 1) (k := 1) (by omega)
            rw [toNat_and_7F]
            simp only [UInt8.reduceOfNat] at hor hshift
            omega
          simp only [pack, List.cons_append, List.length_cons, unpack, hhead]
          rw [ih (by omega) (by simp) hrest]
      | k + 2 =>
          have hcarry := carry_lt (k := k) (by omega) hs
          obtain ⟨o, os, hpack, ho⟩ := pack_eq_cons ss (by omega) (by omega) hcarry
          have htail := ih (by omega) hcarry hrest
          simp only [pack, hpack, List.cons_append, List.length_cons, unpack,
            join_split hk hp hs ho] at htail ⊢
          rw [htail]

/-- Septets are read from bits that are there. -/
theorem length_unpack_le (n : Nat) (os : List UInt8) {k : Nat} (hk : k < 8)
    (hne : unpack k n os ≠ []) : 7 * (unpack k n os).length + k ≤ 8 * os.length := by
  fun_induction unpack k n os with
  | case1 => simp at hne
  | case2 => simp at hne
  | case3 n o os ih =>
      by_cases h : unpack 7 n (o :: os) = []
      · simp [h]; omega
      · have hlen := ih (by omega) h
        simp only [List.length_cons] at hlen ⊢
        omega
  | case4 n o os ih =>
      by_cases h : unpack 0 n os = []
      · simp [h]
      · have hlen := ih (by omega) h
        simp only [List.length_cons] at hlen ⊢
        omega
  | case5 => simp at hne
  | case6 k n o o' os ih =>
      by_cases h : unpack (k + 1) n (o' :: os) = []
      · simp [h]; omega
      · have hlen := ih (by omega) h
        simp only [List.length_cons] at hlen ⊢
        omega

/-- There are as many septets as there are bits for. -/
theorem length_unpack (os : List UInt8) {k n : Nat} (hk : k < 8)
    (hbits : k + 7 * n ≤ 8 * os.length) : (unpack k n os).length = n := by
  fun_induction unpack k n os with
  | case1 => rfl
  | case2 => simp at hbits
  | case3 n o os ih => rw [List.length_cons, ih (by omega) (by omega)]
  | case4 n o os ih =>
      rw [List.length_cons] at hbits
      rw [List.length_cons, ih (by omega) (by omega)]
  | case5 k n o =>
      rw [List.length_singleton] at hbits
      omega
  | case6 k n o o' os ih =>
      simp only [List.length_cons] at hbits ih
      rw [List.length_cons, ih (by omega) (by omega)]

theorem unpack_take (os : List UInt8) {k n n' : Nat} (h : n ≤ n') :
    unpack k n os = (unpack k n' os).take n := by
  fun_induction unpack k n os generalizing n' with
  | case1 k os => simp
  | case2 k n => cases n' <;> simp [unpack]
  | case3 n o os ih =>
      obtain ⟨j, rfl⟩ : ∃ j, n' = j + 1 := ⟨n' - 1, by omega⟩
      rw [unpack, List.take_succ_cons, ← ih (by omega)]
  | case4 n o os ih =>
      obtain ⟨j, rfl⟩ : ∃ j, n' = j + 1 := ⟨n' - 1, by omega⟩
      rw [unpack, List.take_succ_cons, ← ih (by omega)]
  | case5 k n o =>
      obtain ⟨j, rfl⟩ : ∃ j, n' = j + 1 := ⟨n' - 1, by omega⟩
      simp [unpack]
  | case6 k n o o' os ih =>
      obtain ⟨j, rfl⟩ : ∃ j, n' = j + 1 := ⟨n' - 1, by omega⟩
      rw [unpack, List.take_succ_cons, ← ih (by omega)]

/-- A last septet that ends where an octet ends takes none more, and shows unless it is zero. -/
theorem pack_concat_eq_iff (ss : List UInt8) {k : Nat} {p s : UInt8} (hk : k < 8)
    (hp : p.toNat < 2 ^ k) (hss : ∀ t ∈ ss, t.toNat < 128) (hs : s.toNat < 128)
    (hfull : (k + 7 * (ss.length + 1)) % 8 = 0) :
    pack k p (ss ++ [s]) = pack k p ss ↔ s = 0 := by
  induction ss generalizing k p with
  | nil =>
      obtain rfl : k = 1 := by
        rw [List.length_nil] at hfull
        omega
      have hor := toNat_or_shiftLeft p s (k := 1) (by omega) hp
      simp only [UInt8.reduceOfNat] at hor
      simp only [List.nil_append, pack, List.cons.injEq, and_true, ← UInt8.toNat_inj, hor,
        UInt8.toNat_zero]
      omega
  | cons t ss ih =>
      have ht : t.toNat < 128 := hss t (by simp)
      have hrest : ∀ u ∈ ss, u.toNat < 128 := fun u hu => hss u (by simp [hu])
      rw [List.length_cons] at hfull
      match k with
      | 0 =>
          rw [List.cons_append, pack, pack]
          exact ih (by omega) ht hrest (by omega)
      | 1 =>
          rw [List.cons_append, pack, pack, List.cons.injEq, ih (by omega) (by simp) hrest (by omega)]
          simp
      | k + 2 =>
          have hcarry := carry_lt (k := k) (by omega) ht
          rw [List.cons_append, pack, pack, List.cons.injEq, ih (by omega) hcarry hrest (by omega)]
          simp

/-! ## The number that is packed -/

/-- The number that octets stand for, the least significant first. -/
def octetsValue : List UInt8 → Nat
  | [] => 0
  | o :: os => o.toNat + 256 * octetsValue os

def septetsValue : List UInt8 → Nat
  | [] => 0
  | s :: ss => s.toNat + 128 * septetsValue ss

theorem octetsValue_pack (ss : List UInt8) {k : Nat} {p : UInt8} (hk : k < 8)
    (hp : p.toNat < 2 ^ k) (hss : ∀ s ∈ ss, s.toNat < 128) :
    octetsValue (pack k p ss) = p.toNat + 2 ^ k * septetsValue ss := by
  induction ss generalizing k p with
  | nil =>
      cases k with
      | zero => simp at hp; simp [pack, octetsValue, septetsValue, hp]
      | succ k => simp [pack, octetsValue, septetsValue]
  | cons s ss ih =>
      have hs : s.toNat < 128 := hss s (by simp)
      have hrest : ∀ t ∈ ss, t.toNat < 128 := fun t ht => hss t (by simp [ht])
      match k with
      | 0 =>
          have hzero : p.toNat = 0 := by simpa using hp
          rw [pack, ih (by omega) hs hrest, septetsValue, hzero]
          omega
      | 1 =>
          have hor := toNat_or_shiftLeft p s (k := 1) (by omega) hp
          simp only [UInt8.reduceOfNat] at hor
          rw [pack, octetsValue, ih (by omega) (by simp) hrest, septetsValue, hor]
          simp
          omega
      | k + 2 =>
          have hcarry := carry_lt (k := k) (by omega) hs
          rw [pack, octetsValue, ih (by omega) hcarry hrest, septetsValue,
            toNat_or_shiftLeft p s hk hp, toNat_shiftRight_ofNat s (by omega)]
          have hcases : k = 0 ∨ k = 1 ∨ k = 2 ∨ k = 3 ∨ k = 4 ∨ k = 5 := by omega
          obtain rfl | rfl | rfl | rfl | rfl | rfl := hcases <;> norm_num at * <;> omega

theorem toNat_getElem_unpack (os : List UInt8) {k : Nat} (n j : Nat) (hk : k < 8) (s : UInt8)
    (h : (unpack k n os)[j]? = some s) :
    s.toNat = octetsValue os / 2 ^ k / 128 ^ j % 128 := by
  have hstep (a i : Nat) : a / 128 ^ (i + 1) = a / 128 / 128 ^ i := by
    rw [Nat.pow_succ', Nat.div_div_eq_div_mul]
  fun_induction unpack k n os generalizing j with
  | case1 k os => simp at h
  | case2 k n => simp at h
  | case3 n o os ih =>
      cases j with
      | zero =>
          simp only [List.getElem?_cons_zero, Option.some.injEq] at h
          rw [← h, toNat_and_7F, octetsValue]
          simp
          omega
      | succ j =>
          rw [List.getElem?_cons_succ] at h
          rw [ih j (by omega) h, hstep]
          simp
  | case4 n o os ih =>
      cases j with
      | zero =>
          simp only [List.getElem?_cons_zero, Option.some.injEq] at h
          have hshift := toNat_shiftRight_ofNat o (k := 1) (by omega)
          simp only [UInt8.reduceOfNat] at hshift
          rw [← h, toNat_and_7F, octetsValue, hshift]
          simp
          omega
      | succ j =>
          rw [List.getElem?_cons_succ] at h
          rw [ih j (by omega) h, octetsValue, hstep]
          congr 2
          have ho := o.toNat_lt
          omega
  | case5 k n o => simp at h
  | case6 k n o o' os ih =>
      cases j with
      | zero =>
          simp only [List.getElem?_cons_zero, Option.some.injEq] at h
          rw [← h, toNat_and_7F, UInt8.toNat_add, toNat_shiftRight_ofNat o hk,
            toNat_shiftLeft_ofNat o' (by omega), octetsValue, octetsValue]
          have hcases : k = 0 ∨ k = 1 ∨ k = 2 ∨ k = 3 ∨ k = 4 ∨ k = 5 := by omega
          obtain rfl | rfl | rfl | rfl | rfl | rfl := hcases <;> norm_num at * <;> omega
      | succ j =>
          rw [List.getElem?_cons_succ] at h
          rw [ih j (by omega) h, octetsValue, octetsValue, octetsValue, hstep]
          congr 2
          have ho := o.toNat_lt
          have hcases : k = 0 ∨ k = 1 ∨ k = 2 ∨ k = 3 ∨ k = 4 ∨ k = 5 := by omega
          obtain rfl | rfl | rfl | rfl | rfl | rfl := hcases <;> norm_num <;> omega

/-- The septets are the digits of the number that the octets stand for. -/
theorem unpack_eq_digits (os : List UInt8) {n : Nat} (hbits : 7 * n ≤ 8 * os.length) :
    unpack 0 n os =
      (List.range n).map fun j => UInt8.ofNat (octetsValue os / 128 ^ j % 128) := by
  have hlen := length_unpack os (n := n) (show 0 < 8 by decide) (by omega)
  refine List.ext_getElem (by simpa using hlen) fun j hj _ => ?_
  have hdigit := toNat_getElem_unpack os n j (by omega) _ (List.getElem?_eq_getElem hj)
  rw [List.getElem_map, List.getElem_range, ← UInt8.toNat_inj, hdigit, UInt8.toNat_ofNat',
    Nat.pow_zero, Nat.div_one]
  have hlt := Nat.mod_lt (octetsValue os / 128 ^ j) (show 128 > 0 by decide)
  exact (Nat.mod_eq_of_lt (Nat.lt_trans hlt (by decide))).symm

end TelephonySms.Septet
