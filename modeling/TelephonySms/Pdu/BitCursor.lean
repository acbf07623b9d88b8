import TelephonySms.BitStream
import TelephonySms.Pdu.Buffer

/-! # Buffers in bit mode

A buffer read or written bit by bit is seen as the bits before its position and the bits
from it on. A writer goes over blank bits, so what it writes stands where the blanks were.
-/

namespace TelephonySms.Pdu

open TelephonySms.BitStream

namespace SmsPduBuffer

/-- A buffer that has `passed` before its position and `rest` from it on. -/
def bitCursor (passed rest : List Bool) : SmsPduBuffer :=
  ⟨octets (passed ++ rest), passed.length / 8, passed.length % 8⟩

/-- A field of `l` bits. -/
def field (l : Nat) (v : UInt8) : List Bool := toBits l v.toNat

@[simp] theorem length_field (l : Nat) (v : UInt8) : (field l v).length = l := length_toBits l _

theorem exists_field {v : List Bool} (h : v.length ≤ 8) :
    ∃ x : UInt8, x.toNat < 2 ^ v.length ∧ v = field v.length x := by
  have hlt := ofBits_lt v
  have hpow : 2 ^ v.length ≤ 2 ^ 8 := Nat.pow_le_pow_right (by decide) h
  have hvalue : (UInt8.ofNat (ofBits v)).toNat = ofBits v := by
    rw [UInt8.toNat_ofNat', Nat.mod_eq_of_lt (by omega)]
  refine ⟨UInt8.ofNat (ofBits v), by omega, ?_⟩
  rw [field, hvalue, toBits_ofBits]

/-- Zeros up to the end of the octet. -/
def pad (n : Nat) : List Bool := List.replicate ((8 - n % 8) % 8) false

@[simp] theorem length_pad (n : Nat) : (pad n).length = (8 - n % 8) % 8 := List.length_replicate

theorem pad_congr {m n : Nat} (h : m % 8 = n % 8) : pad m = pad n := by
  rw [pad, pad, h]

variable (passed rest : List Bool)

@[simp] theorem bitCursor_data : (bitCursor passed rest).data = octets (passed ++ rest) := rfl

@[simp] theorem bitCursor_index : (bitCursor passed rest).index = passed.length / 8 := rfl

@[simp] theorem bitCursor_bitIndex : (bitCursor passed rest).bitIndex = passed.length % 8 := rfl

/-! ## Reading -/

theorem readByte_eq_readBits (b : SmsPduBuffer) : b.readByte = b.readBits 8 := by
  by_cases h : b.bitIndex = 0
  · simp only [readByte, readBits, h]
    cases hoctet : b.data[b.index]? with
    | none => simp
    | some v => simp
  · rw [readByte, if_pos h]

/-- The bits of a field inside a string. -/
theorem getD_append_field {l : Nat} {v : UInt8} {passed rest : List Bool} {i : Nat}
    (hlo : passed.length ≤ i) (hhi : i < passed.length + l) :
    (passed ++ (field l v ++ rest)).getD i false = v.toNat.testBit (passed.length + l - 1 - i) := by
  rw [List.getD_append_right _ _ _ _ hlo, List.getD_append _ _ _ _ (by simp; omega), field,
    getD_toBits _ (by omega)]
  congr 1
  omega

/-- Bits cut out of one octet. -/
theorem testBit_cut (o : UInt8) {k l t : Nat} (hk : k < 8) (hl : 0 < l) (hle : l ≤ 8) :
    ((o <<< UInt8.ofNat k) >>> UInt8.ofNat (8 - l)).toNat.testBit t =
      (decide (t < l) && decide (k + l ≤ t + 8) && o.toNat.testBit (t + 8 - l - k)) := by
  rw [testBit_shiftRight _ (by omega)]
  by_cases ht : t < l
  · rw [testBit_shiftLeft _ hk (by omega), show t + (8 - l) - k = t + 8 - l - k by omega]
    have hiff : (k ≤ t + (8 - l)) ↔ (k + l ≤ t + 8) := by omega
    simp [ht, hiff]
  · rw [testBit_of_le (UInt8.toNat_lt _) (by omega)]
    simp [ht]

theorem readBits_bitCursor {l : Nat} {v : UInt8} (hl : 0 < l) (hle : l ≤ 8)
    (hv : v.toNat < 2 ^ l) :
    (bitCursor passed (field l v ++ rest)).readBits l =
      some (v, bitCursor (passed ++ field l v) rest) := by
  obtain ⟨bits, hbits⟩ : ∃ bits, passed ++ (field l v ++ rest) = bits := ⟨_, rfl⟩
  have hlen : bits.length = passed.length + l + rest.length := by
    rw [← hbits]
    simp
    omega
  have hfield : ∀ i, passed.length ≤ i → i < passed.length + l →
      bits.getD i false = v.toNat.testBit (passed.length + l - 1 - i) := by
    intro i hlo hhi
    rw [← hbits, getD_append_field hlo hhi]
  have hoctet : (octets bits)[passed.length / 8]? = some (octetAt bits (passed.length / 8)) := by
    rw [octets_getElem?, if_pos (by omega)]
  have hdata : passed ++ field l v ++ rest = bits := by
    rw [← hbits, List.append_assoc]
  have hrange : ¬ (l = 0 ∨ l > 8) := by omega
  simp only [readBits, bitCursor, hbits, if_neg hrange, hoctet, hdata, List.length_append,
    length_field]
  by_cases hfit : passed.length % 8 + l ≤ 8
  · have hvalue : (octetAt bits (passed.length / 8) <<< UInt8.ofNat (passed.length % 8)) >>>
        UInt8.ofNat (8 - l) = v := by
      apply toNat_eq_of_testBit
      intro t ht
      rw [testBit_cut _ (by omega) hl hle]
      by_cases hlt : t < l
      · rw [testBit_octetAt _ _ (by omega), hfield _ (by omega) (by omega),
          show passed.length + l - 1 - (8 * (passed.length / 8) +
            (7 - (t + 8 - l - passed.length % 8))) = t by omega]
        simp [hlt, show passed.length % 8 + l ≤ t + 8 by omega]
      · simp [hlt, testBit_of_le hv (Nat.le_of_not_lt hlt)]
    rw [if_pos hfit, hvalue]
    by_cases hend : passed.length % 8 + l = 8
    · rw [if_pos hend, show (passed.length + l) / 8 = passed.length / 8 + 1 by omega,
        show (passed.length + l) % 8 = 0 by omega]
    · rw [if_neg hend, show (passed.length + l) / 8 = passed.length / 8 by omega,
        show (passed.length + l) % 8 = passed.length % 8 + l by omega]
  · have hnext : (octets bits)[passed.length / 8 + 1]? =
        some (octetAt bits (passed.length / 8 + 1)) := by
      rw [octets_getElem?, if_pos (by omega)]
    have hvalue : (octetAt bits (passed.length / 8) <<< UInt8.ofNat (passed.length % 8)) >>>
        UInt8.ofNat (8 - l) ||| octetAt bits (passed.length / 8 + 1) >>>
          UInt8.ofNat (8 - (l + passed.length % 8 - 8)) = v := by
      apply toNat_eq_of_testBit
      intro t ht
      rw [UInt8.toNat_or, Nat.testBit_or, testBit_cut _ (by omega) hl hle,
        testBit_shiftRight _ (by omega)]
      by_cases hlt : t < l
      · by_cases hlow : passed.length % 8 + l ≤ t + 8
        · have hother : (octetAt bits (passed.length / 8 + 1)).toNat.testBit
              (t + (8 - (l + passed.length % 8 - 8))) = false :=
            testBit_of_le (UInt8.toNat_lt _) (by omega)
          rw [hother, testBit_octetAt _ _ (by omega), hfield _ (by omega) (by omega),
            show passed.length + l - 1 - (8 * (passed.length / 8) +
              (7 - (t + 8 - l - passed.length % 8))) = t by omega]
          simp [hlt, hlow]
        · rw [testBit_octetAt _ (passed.length / 8 + 1) (by omega),
            hfield _ (by omega) (by omega),
            show passed.length + l - 1 - (8 * (passed.length / 8 + 1) +
              (7 - (t + (8 - (l + passed.length % 8 - 8))))) = t by omega]
          simp [hlow]
      · have hother : (octetAt bits (passed.length / 8 + 1)).toNat.testBit
            (t + (8 - (l + passed.length % 8 - 8))) = false :=
          testBit_of_le (UInt8.toNat_lt _) (by omega)
        rw [hother, testBit_of_le hv (Nat.le_of_not_lt hlt)]
        simp [hlt]
    rw [if_neg hfit, hnext]
    simp only [hvalue]
    rw [show (passed.length + l) / 8 = passed.length / 8 + 1 by omega,
      show (passed.length + l) % 8 = l + passed.length % 8 - 8 by omega]

@[simp] theorem readByte_bitCursor (v : UInt8) :
    (bitCursor passed (field 8 v ++ rest)).readByte =
      some (v, bitCursor (passed ++ field 8 v) rest) := by
  rw [readByte_eq_readBits]
  exact readBits_bitCursor passed rest (by omega) (by omega) (UInt8.toNat_lt v)

@[simp] theorem readBits_bitCursor_octet (v : UInt8) :
    (bitCursor passed (field 8 v ++ rest)).readBits 8 =
      some (v, bitCursor (passed ++ field 8 v) rest) :=
  readBits_bitCursor passed rest (by omega) (by omega) (UInt8.toNat_lt v)

theorem readWord_eq_readByte {b : SmsPduBuffer} (h : b.bitIndex = 0) :
    b.readWord = b.readByte.bind fun (high, b) => b.readByte.map fun (low, b) =>
      (high.toUInt16 <<< 8 ||| low.toUInt16, b) := by
  simp only [readWord, readByte, h, getSize]
  by_cases hroom : b.index + 1 < b.data.length
  · have hfirst : b.index < b.data.length := by omega
    simp [hroom, hfirst]
  · by_cases hfirst : b.index < b.data.length
    · simp [hroom, hfirst]
    · simp [hroom, hfirst]

theorem skipBits_bitCursor {n : Nat} (h : n % 8 = passed.length % 8) :
    (bitCursor passed (pad n ++ rest)).skipBits = bitCursor (passed ++ pad n) rest := by
  have hlen : (pad n).length = (8 - passed.length % 8) % 8 := by
    rw [length_pad, h]
  by_cases h0 : passed.length % 8 = 0
  · have hnil : pad n = [] := List.eq_nil_of_length_eq_zero (by omega)
    have hbits : ¬ (bitCursor passed (pad n ++ rest)).bitIndex > 0 := by
      rw [bitCursor_bitIndex]
      omega
    rw [skipBits, if_neg hbits, hnil]
    simp
  · have hbits : (bitCursor passed (pad n ++ rest)).bitIndex > 0 := by
      rw [bitCursor_bitIndex]
      omega
    rw [skipBits, if_pos hbits]
    simp only [bitCursor, List.append_assoc, List.length_append]
    rw [show (passed.length + (pad n).length) / 8 = passed.length / 8 + 1 by omega,
      show (passed.length + (pad n).length) % 8 = 0 by omega]

/-! ## Moving -/

variable {passed rest}

theorem moveForward_bitCursor {w : List Bool} {len : Nat} (h : passed.length % 8 = 0)
    (hw : w.length = 8 * len) :
    (bitCursor passed (w ++ rest)).moveForward len = bitCursor (passed ++ w) rest := by
  have hbits : ¬ (bitCursor passed (w ++ rest)).bitIndex ≠ 0 := by simp [h]
  have hsize : ¬ (bitCursor passed (w ++ rest)).index + len >
      (bitCursor passed (w ++ rest)).getSize := by
    simp [getSize]
    omega
  rw [moveForward, if_neg hbits, if_neg hsize]
  simp only [bitCursor, List.append_assoc, List.length_append]
  rw [show (passed.length + w.length) / 8 = passed.length / 8 + len by omega,
    show (passed.length + w.length) % 8 = passed.length % 8 by omega]

theorem moveBack_bitCursor {w : List Bool} {len : Nat} (h : passed.length % 8 = 0)
    (hw : w.length = 8 * len) :
    (bitCursor (passed ++ w) rest).moveBack len = bitCursor passed (w ++ rest) := by
  have hbits : ¬ (bitCursor (passed ++ w) rest).bitIndex ≠ 0 := by
    simp
    omega
  have hindex : ¬ (bitCursor (passed ++ w) rest).index < len := by
    simp
    omega
  rw [moveBack, if_neg hbits, if_neg hindex]
  simp only [bitCursor, List.append_assoc, List.length_append]
  rw [show (passed.length + w.length) / 8 - len = passed.length / 8 by omega,
    show (passed.length + w.length) % 8 = passed.length % 8 by omega]

theorem setIndex_bitCursor {passed' rest' : List Bool} {i : Nat} (h : passed.length % 8 = 0)
    (h' : passed'.length % 8 = 0) (hdata : passed ++ rest = passed' ++ rest')
    (hi : i = passed'.length / 8) :
    (bitCursor passed rest).setIndex i = bitCursor passed' rest' := by
  have hlen := congrArg List.length hdata
  simp only [List.length_append] at hlen
  have hbits : ¬ (bitCursor passed rest).bitIndex ≠ 0 := by simp [h]
  have hsize : ¬ i > (bitCursor passed rest).getSize := by
    simp [getSize]
    omega
  rw [setIndex, if_neg hbits, if_neg hsize]
  simp only [bitCursor, hdata, hi, h, h']

/-! ## Writing -/

/-- A buffer with `n` blank bits from its position on. -/
def blank (passed : List Bool) (n : Nat) : SmsPduBuffer :=
  bitCursor passed (List.replicate n false)

theorem getD_blank (passed : List Bool) (n i : Nat) :
    (passed ++ List.replicate n false).getD i false = passed.getD i false := by
  by_cases hi : i < passed.length
  · rw [List.getD_append _ _ _ _ hi]
  · rw [List.getD_append_right _ _ _ _ (by omega), List.getD_eq_default passed _ (by omega)]
    simp only [List.getD_eq_getElem?_getD, List.getElem?_replicate]
    split <;> rfl

theorem replicate_zero_eq_octets (n : Nat) :
    List.replicate n (0 : UInt8) = octets (List.replicate (8 * n) false) := by
  apply List.ext_getElem?
  intro i
  rw [octets_getElem?, List.length_replicate, List.getElem?_replicate]
  by_cases hi : i < n
  · rw [if_pos hi, if_pos (by omega)]
    congr 1
    apply eq_octetAt
    intro t ht
    have hblank := getD_blank [] (8 * n) (8 * i + (7 - t))
    rw [List.nil_append] at hblank
    rw [hblank]
    simp
  · rw [if_neg hi, if_neg (by omega)]

theorem new_eq_blank : new = blank [] 2048 := by
  unfold new blank bitCursor
  rw [replicate_zero_eq_octets]
  rfl

/-- The octets in front of the position of a buffer. -/
theorem take_blank {w : List Bool} (n : Nat) (h : w.length % 8 = 0) :
    (blank w n).data.take (blank w n).index = octets w :=
  take_octets (List.replicate n false) h

theorem ofHex_octets {w : List Bool} (h : 16 ≤ w.length) (hle : w.length ≤ 2048) :
    ofHex (octets w) = bitCursor [] w := by
  rw [ofHex, if_neg (by rw [length_octets]; omega)]
  rfl

theorem getD_field_blank (passed : List Bool) (l n : Nat) (v : UInt8) (i : Nat) :
    (passed ++ field l v ++ List.replicate n false).getD i false =
      (passed.getD i false || (decide (passed.length ≤ i) && decide (i < passed.length + l) &&
        v.toNat.testBit (passed.length + l - 1 - i))) := by
  rw [getD_blank]
  by_cases hi : i < passed.length
  · rw [List.getD_append _ _ _ _ hi]
    simp [show ¬ passed.length ≤ i by omega]
  · rw [List.getD_eq_default passed _ (by omega)]
    by_cases hhi : i < passed.length + l
    · rw [← List.append_nil (field l v), getD_append_field (by omega) hhi]
      simp [hhi, show passed.length ≤ i by omega]
    · rw [List.getD_eq_default _ _ (by simp; omega)]
      simp [hhi]

/-- An octet of blank bits with a field laid over it. -/
theorem or_octetAt_blank {passed : List Bool} {l n i : Nat} {v o : UInt8}
    (h : ∀ t < 8, o.toNat.testBit t = (decide (passed.length ≤ 8 * i + (7 - t)) &&
      decide (8 * i + (7 - t) < passed.length + l) &&
        v.toNat.testBit (passed.length + l - 1 - (8 * i + (7 - t))))) (m : Nat) :
    octetAt (passed ++ List.replicate n false) i ||| o =
      octetAt (passed ++ field l v ++ List.replicate m false) i := by
  apply eq_octetAt
  intro t ht
  rw [UInt8.toNat_or, Nat.testBit_or, testBit_octetAt _ _ ht, getD_blank, getD_field_blank, h t ht]

theorem octetAt_blank_of_disjoint {passed : List Bool} {l n i : Nat} {v : UInt8}
    (h : 8 * i + 8 ≤ passed.length ∨ passed.length + l ≤ 8 * i) (m : Nat) :
    octetAt (passed ++ List.replicate n false) i =
      octetAt (passed ++ field l v ++ List.replicate m false) i := by
  apply octetAt_congr
  intro j hj
  rw [getD_blank, getD_field_blank]
  obtain h | h := h
  · simp [show ¬ passed.length ≤ 8 * i + j by omega]
  · simp [show ¬ 8 * i + j < passed.length + l by omega]

/-- The part of a field that an octet holds. -/
theorem testBit_shiftLeft_field {passed : List Bool} {l i s t : Nat} {v : UInt8} (ht : t < 8)
    (hs : s < 8) (hend : passed.length + l + s = 8 * i + 8) (hv : v.toNat < 2 ^ l) :
    (v <<< UInt8.ofNat s).toNat.testBit t = (decide (passed.length ≤ 8 * i + (7 - t)) &&
      decide (8 * i + (7 - t) < passed.length + l) &&
        v.toNat.testBit (passed.length + l - 1 - (8 * i + (7 - t)))) := by
  rw [testBit_shiftLeft _ hs ht]
  by_cases hlow : s ≤ t
  · rw [show t - s = passed.length + l - 1 - (8 * i + (7 - t)) by omega]
    by_cases hhigh : passed.length ≤ 8 * i + (7 - t)
    · simp [hlow, hhigh, show 8 * i + (7 - t) < passed.length + l by omega]
    · have hbit : v.toNat.testBit (passed.length + l - 1 - (8 * i + (7 - t))) = false :=
        testBit_of_le hv (by omega)
      simp [hbit]
  · simp [hlow, show ¬ 8 * i + (7 - t) < passed.length + l by omega]

theorem writeBits_blank {passed : List Bool} {l n : Nat} {v : UInt8} (hl : 0 < l) (hle : l ≤ 8)
    (hv : v.toNat < 2 ^ l) (hsize : (passed.length + n) % 8 = 0) :
    (blank passed n).writeBits v l =
      if l ≤ n then some (blank (passed ++ field l v) (n - l)) else none := by
  have hrange : ¬ (l = 0 ∨ l > 8) := by omega
  obtain ⟨i, hi⟩ : ∃ i, passed.length / 8 = i := ⟨_, rfl⟩
  obtain ⟨k, hk⟩ : ∃ k, passed.length % 8 = k := ⟨_, rfl⟩
  have hat : ∀ j, (octets (passed ++ List.replicate n false))[j]? =
      if 8 * j < passed.length + n then some (octetAt (passed ++ List.replicate n false) j)
        else none := by
    intro j
    rw [octets_getElem?]
    simp
  simp only [writeBits, blank, bitCursor, if_neg hrange, hi, hk]
  by_cases hroom : l ≤ n
  · have hlen : (passed ++ List.replicate n false).length =
        (passed ++ field l v ++ List.replicate (n - l) false).length := by
      simp only [List.length_append, List.length_replicate, length_field]
      omega
    have hfirst : (octets (passed ++ List.replicate n false))[i]? =
        some (octetAt (passed ++ List.replicate n false) i) := by
      rw [hat, if_pos (by omega)]
    rw [if_pos hroom]
    by_cases hfit : k + l ≤ 8
    · have hoctet : octetAt (passed ++ List.replicate n false) i |||
          v <<< UInt8.ofNat (8 - k - l) =
            octetAt (passed ++ field l v ++ List.replicate (n - l) false) i :=
        or_octetAt_blank (fun t ht => testBit_shiftLeft_field ht (by omega) (by omega) hv) _
      have hdata : (octets (passed ++ List.replicate n false)).set i
          (octetAt (passed ++ List.replicate n false) i ||| v <<< UInt8.ofNat (8 - k - l)) =
          octets (passed ++ field l v ++ List.replicate (n - l) false) := by
        rw [hoctet]
        exact set_octets hlen fun j hj => octetAt_blank_of_disjoint (by omega) _
      simp only [if_pos hfit, hfirst, hdata, List.length_append, length_field]
      by_cases hend : k + l = 8
      · rw [if_pos hend, show (passed.length + l) / 8 = i + 1 by omega,
          show (passed.length + l) % 8 = 0 by omega]
      · rw [if_neg hend, show (passed.length + l) / 8 = i by omega,
          show (passed.length + l) % 8 = k + l by omega]
    · have hsecond : (octets (passed ++ List.replicate n false))[i + 1]? =
          some (octetAt (passed ++ List.replicate n false) (i + 1)) := by
        rw [hat, if_pos (by omega)]
      have hhigh : octetAt (passed ++ List.replicate n false) i |||
          v >>> UInt8.ofNat (l + k - 8) =
            octetAt (passed ++ field l v ++ List.replicate (n - l) false) i := by
        refine or_octetAt_blank (fun t ht => ?_) _
        rw [testBit_shiftRight _ (by omega)]
        by_cases hin : passed.length ≤ 8 * i + (7 - t)
        · rw [show t + (l + k - 8) = passed.length + l - 1 - (8 * i + (7 - t)) by omega]
          simp [hin, show 8 * i + (7 - t) < passed.length + l by omega]
        · rw [testBit_of_le hv (by omega)]
          simp [hin]
      have hlow : octetAt (passed ++ List.replicate n false) (i + 1) |||
          v <<< UInt8.ofNat (8 - (l + k - 8)) =
            octetAt (passed ++ field l v ++ List.replicate (n - l) false) (i + 1) :=
        or_octetAt_blank (fun t ht => testBit_shiftLeft_field ht (by omega) (by omega) hv) _
      have hdata : ((octets (passed ++ List.replicate n false)).set i
            (octetAt (passed ++ field l v ++ List.replicate (n - l) false) i)).set (i + 1)
              (octetAt (passed ++ field l v ++ List.replicate (n - l) false) (i + 1)) =
          octets (passed ++ field l v ++ List.replicate (n - l) false) := by
        apply set_set_octets hlen
        intro j hj hj'
        exact octetAt_blank_of_disjoint (by omega) _
      simp only [if_neg hfit, hfirst, hsecond, hhigh, hlow, hdata, List.length_append,
        length_field]
      rw [show (passed.length + l) / 8 = i + 1 by omega,
        show (passed.length + l) % 8 = l + k - 8 by omega]
  · rw [if_neg hroom]
    by_cases hfit : k + l ≤ 8
    · -- The bits left end with an octet, so there is none here.
      have hn : 8 * i = passed.length + n := by omega
      rw [if_pos hfit, hat, if_neg (by omega)]
    · rw [if_neg hfit, hat (i + 1), if_neg (by omega)]
      split
      · next heq => cases heq
      · rfl

theorem octetAt_blank_eq_zero {passed : List Bool} {n i : Nat} (h : passed.length ≤ 8 * i) :
    octetAt (passed ++ List.replicate n false) i = 0 := by
  symm
  apply eq_octetAt
  intro t ht
  rw [getD_blank, List.getD_eq_default _ _ (by omega)]
  simp

@[simp] theorem blank_index (passed : List Bool) (n : Nat) :
    (blank passed n).index = passed.length / 8 := rfl

@[simp] theorem blank_bitIndex (passed : List Bool) (n : Nat) :
    (blank passed n).bitIndex = passed.length % 8 := rfl

theorem blank_getSize (passed : List Bool) (n : Nat) :
    (blank passed n).getSize = (passed.length + n + 7) / 8 := by
  simp [blank, getSize]

/-- A whole octet over blank bits is the same in both modes. -/
theorem writeByte_eq_writeBits_blank (passed : List Bool) (n : Nat) (v : UInt8) :
    (blank passed n).writeByte v = (blank passed n).writeBits v 8 := by
  by_cases h : passed.length % 8 = 0
  · have hdata : (blank passed n).data[passed.length / 8]? =
        if 8 * (passed.length / 8) < (passed ++ List.replicate n false).length then
          some (octetAt (passed ++ List.replicate n false) (passed.length / 8)) else none :=
      octets_getElem? _ _
    rw [octetAt_blank_eq_zero (by omega), List.length_append, List.length_replicate] at hdata
    simp only [writeByte, writeBits, blank_bitIndex, blank_index, blank_getSize, h]
    by_cases hroom : 8 * (passed.length / 8) < passed.length + n
    · rw [if_pos hroom] at hdata
      simp [hdata, show passed.length / 8 < (passed.length + n + 7) / 8 by omega]
    · rw [if_neg hroom] at hdata
      simp [hdata, show ¬ passed.length / 8 < (passed.length + n + 7) / 8 by omega]
  · have hbits : (blank passed n).bitIndex ≠ 0 := h
    rw [writeByte, if_pos hbits]

theorem octetAt_append_field {passed rest : List Bool} {v : UInt8} (h : passed.length % 8 = 0) :
    octetAt (passed ++ (field 8 v ++ rest)) (passed.length / 8) = v := by
  symm
  apply eq_octetAt
  intro t ht
  rw [getD_append_field (by omega) (by omega)]
  congr 1
  omega

/-- An octet that is replaced. -/
theorem set_octets_field {passed old rest : List Bool} {v : UInt8} (h : passed.length % 8 = 0)
    (hold : old.length = 8) :
    (octets (passed ++ (old ++ rest))).set (passed.length / 8) v =
      octets (passed ++ (field 8 v ++ rest)) := by
  have hoctet : octetAt (passed ++ (field 8 v ++ rest)) (passed.length / 8) = v :=
    octetAt_append_field h
  conv_lhs => rw [← hoctet]
  apply set_octets
  · simp [hold]
  · intro i hi
    apply octetAt_congr
    intro j hj
    by_cases hlt : 8 * i + j < passed.length
    · rw [List.getD_append _ _ _ _ hlt, List.getD_append _ _ _ _ hlt]
    · have hge : passed.length + 8 ≤ 8 * i + j := by omega
      rw [List.getD_append_right _ _ _ _ (by omega), List.getD_append_right _ _ _ _ (by omega),
        List.getD_append_right _ _ _ _ (by omega),
        List.getD_append_right _ _ _ _ (by rw [length_field]; omega), hold, length_field]

theorem moveForward_blank {passed : List Bool} {n : Nat} (h : passed.length % 8 = 0)
    (hroom : 8 ≤ n) :
    (blank passed n).moveForward 1 = blank (passed ++ List.replicate 8 false) (n - 8) := by
  have hbits : ¬ (blank passed n).bitIndex ≠ 0 := by simp [h]
  have hsize : ¬ (blank passed n).index + 1 > (blank passed n).getSize := by
    rw [blank_index, blank_getSize]
    omega
  rw [moveForward, if_neg hbits, if_neg hsize]
  simp only [blank, bitCursor, List.append_assoc, List.replicate_append_replicate,
    List.length_append, List.length_replicate]
  rw [show 8 + (n - 8) = n by omega, show (passed.length + 8) / 8 = passed.length / 8 + 1 by omega,
    show (passed.length + 8) % 8 = passed.length % 8 by omega]

theorem insertByte_blank {passed w : List Bool} {n : Nat} {v : UInt8}
    (h : passed.length % 8 = 0) (hw : w.length % 8 = 0) :
    (blank (passed ++ (List.replicate 8 false ++ w)) n).insertByte v (passed.length / 8) =
      some (blank (passed ++ (field 8 v ++ w)) n) := by
  have hlen : passed.length / 8 < (blank (passed ++ (List.replicate 8 false ++ w)) n).getSize := by
    rw [blank_getSize]
    simp
    omega
  have hbits : (blank (passed ++ (List.replicate 8 false ++ w)) n).bitIndex = 0 := by
    simp
    omega
  rw [insertByte, if_pos ⟨hlen, hbits⟩]
  have hdata : (octets (passed ++ (List.replicate 8 false ++ (w ++ List.replicate n false)))).set
      (passed.length / 8) v = octets (passed ++ (field 8 v ++ (w ++ List.replicate n false))) :=
    set_octets_field h List.length_replicate
  simp only [blank, bitCursor, List.append_assoc, hdata, List.length_append, List.length_replicate,
    length_field]

theorem insertByte_blank_of_le {passed : List Bool} {n i : Nat} {v : UInt8}
    (h : passed.length + n ≤ 8 * i) : (blank passed n).insertByte v i = none := by
  have hlen : ¬ (i < (blank passed n).getSize ∧ (blank passed n).bitIndex = 0) := by
    rw [blank_getSize]
    omega
  rw [insertByte, if_neg hlen]

theorem writeWord_eq_writeByte {b : SmsPduBuffer} (v : UInt16) (h : b.bitIndex = 0) :
    b.writeWord v = (b.writeByte ((0xFF00 &&& v) >>> 8).toUInt8).bind fun b =>
      b.writeByte (0x00FF &&& v).toUInt8 := by
  by_cases hroom : b.index + 1 < b.getSize
  · have hfirst : b.index < b.getSize := by omega
    simp only [getSize] at hroom hfirst
    simp [writeWord, writeByte, getSize, h, hroom, hfirst]
  · by_cases hfirst : b.index < b.getSize
    · simp only [getSize] at hroom hfirst
      simp [writeWord, writeByte, getSize, h, hroom, hfirst]
    · simp [writeWord, writeByte, h, hroom, hfirst]

/-! ## Writers -/

/-- The octets of a word as `WriteWord` cuts them, the high one first. -/
def wordBits (v : UInt16) : List Bool :=
  field 8 ((0xFF00 &&& v) >>> 8).toUInt8 ++ field 8 (0x00FF &&& v).toUInt8

@[simp] theorem length_wordBits (v : UInt16) : (wordBits v).length = 16 := by
  simp [wordBits]

/-- A writer that, started `k` bits into an octet, puts `w` over the blank bits
or fails. -/
def Writes (k : Nat) (f : SmsPduBuffer → Option SmsPduBuffer) (w : List Bool) : Prop :=
  ∀ passed n b, passed.length % 8 = k % 8 → (passed.length + n) % 8 = 0 →
    f (blank passed n) = some b → w.length ≤ n ∧ b = blank (passed ++ w) (n - w.length)

namespace Writes

variable {k : Nat} {f g : SmsPduBuffer → Option SmsPduBuffer} {w w' : List Bool}

theorem pure : Writes k (fun b => some b) [] := by
  intro passed n b _ _ h
  cases h
  simp

theorem bits {v : UInt8} {l : Nat} (hl : 0 < l) (hle : l ≤ 8) (hv : v.toNat < 2 ^ l) :
    Writes k (fun b => b.writeBits v l) (field l v) := by
  intro passed n b _ hsize h
  simp only [writeBits_blank hl hle hv hsize] at h
  split at h
  · next hroom =>
      cases h
      simpa using hroom
  · cases h

theorem octet (v : UInt8) : Writes k (fun b => b.writeBits v 8) (field 8 v) :=
  bits (by omega) (by omega) v.toNat_lt

theorem byte (v : UInt8) : Writes k (fun b => b.writeByte v) (field 8 v) := by
  intro passed n b hk hsize h
  simp only [writeByte_eq_writeBits_blank] at h
  exact octet v passed n b hk hsize h

theorem bind (hf : Writes k f w) (hg : Writes (k + w.length) g w') :
    Writes k (fun b => f b >>= g) (w ++ w') := by
  intro passed n b hk hsize h
  obtain ⟨c, hc, h⟩ := Option.bind_eq_some_iff.mp h
  obtain ⟨hroom, rfl⟩ := hf passed n c hk hsize hc
  obtain ⟨hroom', rfl⟩ := hg (passed ++ w) (n - w.length) b
    (by rw [List.length_append]; omega) (by rw [List.length_append]; omega) h
  rw [List.append_assoc, List.length_append, Nat.sub_sub]
  exact ⟨by omega, rfl⟩

theorem guarded {c : Prop} [Decidable c] (hf : ¬ c → Writes k f w) :
    Writes k (fun b => if c then none else f b) w := by
  intro passed n b hk hsize h
  by_cases hc : c
  · simp [hc] at h
  · simp only [if_neg hc] at h
    exact hf hc passed n b hk hsize h

theorem mono (hf : Writes k f w) {k' : Nat} (hk : k' % 8 = k % 8) (hw : w = w') :
    Writes k' f w' := by
  subst hw
  intro passed n b hk'
  exact hf passed n b (by omega)

theorem skip {n : Nat} (h : n % 8 = k % 8) : Writes k (fun b => some b.skipBits) (pad n) := by
  intro passed m b hk hsize hb
  cases hb
  rw [pad_congr h]
  by_cases h0 : passed.length % 8 = 0
  · have hpad : pad k = [] := by
      rw [pad, show (8 - k % 8) % 8 = 0 by omega]
      rfl
    have hbits : ¬ (blank passed m).bitIndex > 0 := by
      rw [blank_bitIndex]
      omega
    rw [skipBits, if_neg hbits, hpad]
    simp
  · have hpad : pad k = List.replicate (8 - passed.length % 8) false := by
      rw [pad, show (8 - k % 8) % 8 = 8 - passed.length % 8 by omega]
    have hbits : (blank passed m).bitIndex > 0 := by
      rw [blank_bitIndex]
      omega
    rw [skipBits, if_pos hbits, hpad, List.length_replicate]
    refine ⟨by omega, ?_⟩
    simp only [blank, bitCursor, List.append_assoc, List.replicate_append_replicate,
      List.length_append, List.length_replicate]
    rw [show 8 - passed.length % 8 + (m - (8 - passed.length % 8)) = m by omega,
      show (passed.length + (8 - passed.length % 8)) / 8 = passed.length / 8 + 1 by omega,
      show (passed.length + (8 - passed.length % 8)) % 8 = 0 by omega]

theorem word (v : UInt16) (hk : k % 8 = 0) : Writes k (fun b => b.writeWord v) (wordBits v) := by
  intro passed n b hpassed hsize h
  have hbits : (blank passed n).bitIndex = 0 := by
    rw [blank_bitIndex]
    omega
  simp only [writeWord_eq_writeByte v hbits] at h
  exact bind (byte _) (byte _) passed n b hpassed hsize h

end Writes

end SmsPduBuffer

end TelephonySms.Pdu
