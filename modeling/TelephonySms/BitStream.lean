import Mathlib.Data.List.GetD
import TelephonySms.Septet

/-! # Bits in octets

Numbers of a given width as bits, most significant first, and bits laid into octets from
the top of each. A string of bits that ends inside an octet is followed by zeros.
-/

namespace TelephonySms.BitStream

/-! ## Numbers -/

/-- The low `l` bits of a number, the highest of them first. -/
def toBits : Nat → Nat → List Bool
  | 0, _ => []
  | l + 1, v => v.testBit l :: toBits l v

@[simp] theorem toBits_zero (v : Nat) : toBits 0 v = [] := rfl

@[simp] theorem length_toBits (l v : Nat) : (toBits l v).length = l := by
  induction l with
  | zero => rfl
  | succ l ih => simp [toBits, ih]

theorem getD_toBits {l i : Nat} (v : Nat) (h : i < l) :
    (toBits l v).getD i false = v.testBit (l - 1 - i) := by
  induction l generalizing i with
  | zero => omega
  | succ l ih =>
      cases i with
      | zero => simp [toBits]
      | succ i =>
          rw [toBits, List.getD_cons_succ, ih (by omega)]
          congr 1
          omega

theorem toBits_ofNat_zero (l : Nat) : toBits l 0 = List.replicate l false := by
  induction l with
  | zero => rfl
  | succ l ih => simp [toBits, ih, List.replicate_succ]

def ofBits : List Bool → Nat
  | [] => 0
  | b :: bits => 2 ^ bits.length * b.toNat + ofBits bits

theorem ofBits_lt (bits : List Bool) : ofBits bits < 2 ^ bits.length := by
  induction bits with
  | nil => simp [ofBits]
  | cons b bits ih =>
      have hb : b.toNat ≤ 1 := Bool.toNat_le b
      rw [ofBits, List.length_cons, Nat.pow_succ]
      have hmul : 2 ^ bits.length * b.toNat ≤ 2 ^ bits.length * 1 := Nat.mul_le_mul_left _ hb
      omega

theorem testBit_ofBits (bits : List Bool) {i : Nat} (h : i < bits.length) :
    (ofBits bits).testBit (bits.length - 1 - i) = bits.getD i false := by
  induction bits generalizing i with
  | nil => simp at h
  | cons b bits ih =>
      rw [ofBits, Nat.testBit_two_pow_mul_add _ (ofBits_lt bits)]
      simp only [List.length_cons] at h ⊢
      cases i with
      | zero =>
          rw [if_neg (by omega), List.getD_cons_zero, show bits.length + 1 - 1 - 0 -
            bits.length = 0 by omega]
          cases b <;> rfl
      | succ i =>
          rw [if_pos (by omega), List.getD_cons_succ, ← ih (by omega)]
          congr 1
          omega

theorem toBits_add (l k v : Nat) : toBits (l + k) v = toBits l (v / 2 ^ k) ++ toBits k v := by
  induction l with
  | zero => simp
  | succ l ih =>
      rw [Nat.add_right_comm, toBits, ih, toBits, Nat.testBit_div_two_pow, List.cons_append,
        Nat.add_comm]

theorem toBits_ofBits (bits : List Bool) : toBits bits.length (ofBits bits) = bits := by
  apply List.ext_getElem (length_toBits _ _)
  intro i h h'
  have hget := getD_toBits (ofBits bits) h'
  rw [testBit_ofBits bits h'] at hget
  simpa [List.getD_eq_getElem, h'] using hget

/-! ## Octets -/

theorem toNat_eq_of_testBit {a b : UInt8}
    (h : ∀ t < 8, a.toNat.testBit t = b.toNat.testBit t) : a = b := by
  apply UInt8.toNat_inj.mp
  apply Nat.eq_of_testBit_eq
  intro t
  by_cases ht : t < 8
  · exact h t ht
  · have hpow : 2 ^ 8 ≤ 2 ^ t := Nat.pow_le_pow_right (by omega) (by omega)
    have ha := a.toNat_lt
    have hb := b.toNat_lt
    rw [Nat.testBit_lt_two_pow (by omega), Nat.testBit_lt_two_pow (by omega)]

theorem testBit_of_le {o : UInt8} {l t : Nat} (ho : o.toNat < 2 ^ l) (h : l ≤ t) :
    o.toNat.testBit t = false :=
  Nat.testBit_lt_two_pow (Nat.lt_of_lt_of_le ho (Nat.pow_le_pow_right (by omega) h))

theorem testBit_shiftLeft (o : UInt8) {k t : Nat} (hk : k < 8) (ht : t < 8) :
    (o <<< UInt8.ofNat k).toNat.testBit t = (decide (k ≤ t) && o.toNat.testBit (t - k)) := by
  rw [Septet.toNat_shiftLeft_ofNat o hk, show 256 = 2 ^ 8 from rfl, Nat.testBit_mod_two_pow,
    Nat.testBit_two_pow_mul]
  simp [ht]

theorem testBit_shiftRight (o : UInt8) {k : Nat} (hk : k < 8) (t : Nat) :
    (o >>> UInt8.ofNat k).toNat.testBit t = o.toNat.testBit (t + k) := by
  rw [Septet.toNat_shiftRight_ofNat o hk, Nat.testBit_div_two_pow]

/-- The octet with index `i` of a string of bits. -/
def octetAt (bits : List Bool) (i : Nat) : UInt8 :=
  UInt8.ofNat (ofBits ((List.range 8).map fun j => bits.getD (8 * i + j) false))

/-- Bits in octets, the last one filled up with zeros. -/
def octets (bits : List Bool) : List UInt8 :=
  (List.range ((bits.length + 7) / 8)).map (octetAt bits)

@[simp] theorem length_octets (bits : List Bool) :
    (octets bits).length = (bits.length + 7) / 8 := by
  simp [octets]

theorem octets_getElem? (bits : List Bool) (i : Nat) :
    (octets bits)[i]? = if 8 * i < bits.length then some (octetAt bits i) else none := by
  by_cases h : 8 * i < bits.length
  · have hi : i < (bits.length + 7) / 8 := by omega
    simp [octets, hi, h]
  · rw [if_neg h, List.getElem?_eq_none]
    simp only [length_octets]
    omega

theorem testBit_octetAt (bits : List Bool) (i : Nat) {t : Nat} (h : t < 8) :
    (octetAt bits i).toNat.testBit t = bits.getD (8 * i + (7 - t)) false := by
  have hlt := ofBits_lt ((List.range 8).map fun j => bits.getD (8 * i + j) false)
  rw [List.length_map, List.length_range] at hlt
  have hbit := testBit_ofBits ((List.range 8).map fun j => bits.getD (8 * i + j) false)
    (i := 7 - t) (by simp; omega)
  rw [octetAt, UInt8.toNat_ofNat', Nat.mod_eq_of_lt hlt]
  rw [List.length_map, List.length_range, show 8 - 1 - (7 - t) = t by omega] at hbit
  rw [hbit]
  have hrange : 7 - t < (List.range 8).length := by simp; omega
  simp [List.getD_eq_getElem?_getD, show 7 - t < 8 by omega]

/-- Octets whose bits are those of a string. -/
theorem eq_octetAt {o : UInt8} {bits : List Bool} {i : Nat}
    (h : ∀ t < 8, o.toNat.testBit t = bits.getD (8 * i + (7 - t)) false) : o = octetAt bits i := by
  apply toNat_eq_of_testBit
  intro t ht
  rw [h t ht, testBit_octetAt _ _ ht]

theorem octetAt_congr {bits bits' : List Bool} {i : Nat}
    (h : ∀ j < 8, bits.getD (8 * i + j) false = bits'.getD (8 * i + j) false) :
    octetAt bits i = octetAt bits' i := by
  apply eq_octetAt
  intro t ht
  rw [testBit_octetAt _ _ ht, h (7 - t) (by omega)]

/-- The octets of a string that ends with one do not depend on what follows it. -/
theorem take_octets {bits : List Bool} (rest : List Bool) (h : bits.length % 8 = 0) :
    (octets (bits ++ rest)).take (bits.length / 8) = octets bits := by
  apply List.ext_getElem?
  intro i
  rw [List.getElem?_take, octets_getElem?, octets_getElem?, List.length_append]
  by_cases hi : 8 * i < bits.length
  · rw [if_pos (by omega), if_pos (by omega), if_pos hi]
    congr 1
    apply octetAt_congr
    intro j hj
    rw [List.getD_append _ _ _ _ (by omega)]
  · rw [if_neg (by omega), if_neg hi]

/-- Changing one octet. -/
theorem set_octets {bits bits' : List Bool} {i : Nat} (hlen : bits.length = bits'.length)
    (h : ∀ j, j ≠ i → octetAt bits j = octetAt bits' j) :
    (octets bits).set i (octetAt bits' i) = octets bits' := by
  apply List.ext_getElem?
  intro j
  rw [List.getElem?_set, octets_getElem?, octets_getElem?, hlen, length_octets, hlen]
  by_cases hj : i = j
  · subst hj
    by_cases hlt : 8 * i < bits'.length
    · simp [hlt, show i < (bits'.length + 7) / 8 by omega]
    · simp [hlt, show ¬ i < (bits'.length + 7) / 8 by omega]
  · rw [if_neg hj, h j (Ne.symm hj)]

/-- Changing two octets in a row. -/
theorem set_set_octets {bits bits' : List Bool} {i : Nat} (hlen : bits.length = bits'.length)
    (h : ∀ j, j ≠ i → j ≠ i + 1 → octetAt bits j = octetAt bits' j) :
    ((octets bits).set i (octetAt bits' i)).set (i + 1) (octetAt bits' (i + 1)) =
      octets bits' := by
  apply List.ext_getElem?
  intro j
  simp only [List.getElem?_set, octets_getElem?, List.length_set, hlen, length_octets]
  by_cases hj : i + 1 = j
  · subst hj
    by_cases hlt : 8 * (i + 1) < bits'.length
    · simp [hlt, show i + 1 < (bits'.length + 7) / 8 by omega]
    · simp [hlt, show ¬ i + 1 < (bits'.length + 7) / 8 by omega]
  · rw [if_neg hj]
    by_cases hi : i = j
    · subst hi
      by_cases hlt : 8 * i < bits'.length
      · simp [hlt, show i < (bits'.length + 7) / 8 by omega]
      · simp [hlt, show ¬ i < (bits'.length + 7) / 8 by omega]
    · rw [if_neg hi, h j (Ne.symm hi) (Ne.symm hj)]

end TelephonySms.BitStream
