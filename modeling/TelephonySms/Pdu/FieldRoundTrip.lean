import TelephonySms.Pdu.BufferCalls

/-! # Fields through a PDU buffer

Fields of one to eight bits that are written one behind the other into a fresh buffer, and
read again from the octets that hold them.
-/

namespace TelephonySms.Pdu

open Action SmsPduBuffer

namespace PduCall

/-! ## Fields -/

/-- A value with the bits that it is written with. -/
structure BitField where
  value : UInt8
  width : Nat
  width_pos : 0 < width
  width_le : width ≤ 8
  value_lt : value.toNat < 2 ^ width

namespace BitField

def bits (f : BitField) : List Bool := field f.width f.value

def totalWidth (fields : List BitField) : Nat := (fields.map width).sum

theorem length_flatMap_bits (fields : List BitField) :
    (fields.flatMap bits).length = totalWidth fields := by
  simp [totalWidth, bits]

end BitField

open BitField

def writeAll (fields : List BitField) : PduCall Unit :=
  forEach (fun f => writeBits f.value f.width) fields

def readAll : List Nat → PduCall (List UInt8)
  | [] => pure []
  | l :: ls => do
      let v ← readBits l
      let vs ← readAll ls
      pure (v :: vs)

theorem bitCursor_placed (passed rest : List Bool) : (bitCursor passed rest).Placed := by
  rw [placed_iff, bitPosition, getSize, bitCursor_data, bitCursor_index, bitCursor_bitIndex,
    BitStream.length_octets, List.length_append]
  omega

theorem blank_placed (passed : List Bool) (n : Nat) : (blank passed n).Placed :=
  bitCursor_placed _ _

theorem new_placed : new.Placed := by
  rw [new_eq_blank]
  exact blank_placed [] 2048

theorem ofHex_placed (hex : List UInt8) : (ofHex hex).Placed := by
  unfold ofHex
  split
  · exact placed_of_byteMode rfl (Nat.zero_le _)
  · exact placed_of_byteMode rfl (Nat.zero_le _)

/-- Fields are written one behind the other over blank bits. -/
theorem writeAll_blank (fields : List BitField) {passed : List Bool} {n : Nat}
    (hsize : (passed.length + n) % 8 = 0) (hroom : totalWidth fields ≤ n) :
    writeAll fields (blank passed n) =
      (some (), blank (passed ++ fields.flatMap bits) (n - totalWidth fields)) := by
  induction fields generalizing passed n with
  | nil => simp [writeAll, forEach, totalWidth]
  | cons f fields ih =>
      have htotal : totalWidth (f :: fields) = f.width + totalWidth fields := by simp [totalWidth]
      have hfits : f.width ≤ n := by omega
      have hlen : (f.bits).length = f.width := length_field _ _
      have hwrite : writeBits f.value f.width (blank passed n) =
          (some (), blank (passed ++ f.bits) (n - f.width)) := by
        rw [writeBits_performs f.value f.width _ (blank_placed passed n)]
        simp only [writeBits_blank f.width_pos f.width_le f.value_lt hsize, if_pos hfits]
        rfl
      have hnext : ((passed ++ f.bits).length + (n - f.width)) % 8 = 0 := by
        rw [List.length_append, hlen]
        omega
      rw [writeAll, forEach, bind_of_some hwrite]
      have hrest := ih hnext (by omega)
      rw [writeAll] at hrest
      rw [hrest, htotal, List.flatMap_cons, List.append_assoc, Nat.sub_sub]

theorem readAll_bitCursor (fields : List BitField) (passed rest : List Bool) :
    readAll (fields.map width) (bitCursor passed (fields.flatMap bits ++ rest)) =
      (some (fields.map value), bitCursor (passed ++ fields.flatMap bits) rest) := by
  induction fields generalizing passed with
  | nil => simp [readAll]
  | cons f fields ih =>
      have hread : readBits f.width (bitCursor passed (f.bits ++ (fields.flatMap bits ++ rest))) =
          (some f.value, bitCursor (passed ++ f.bits) (fields.flatMap bits ++ rest)) := by
        rw [readBits_performs f.width _ (bitCursor_placed _ _)]
        simp only [bits, readBits_bitCursor passed _ f.width_pos f.width_le f.value_lt]
        rfl
      rw [List.map_cons, List.map_cons, List.flatMap_cons, List.append_assoc, readAll,
        bind_of_some hread, bind_of_some (ih (passed ++ f.bits)), List.append_assoc]
      rfl

/-! ## Octets as fields of eight bits -/

theorem getD_flatMap_field (hex : List UInt8) (i : Nat) :
    (hex.flatMap (field 8)).getD i false = (hex.getD (i / 8) 0).toNat.testBit (7 - i % 8) := by
  induction hex generalizing i with
  | nil => simp
  | cons o hex ih =>
      rw [List.flatMap_cons]
      by_cases hi : i < 8
      · rw [List.getD_append _ _ _ _ (by simpa using hi), field, BitStream.getD_toBits _ hi,
          Nat.div_eq_of_lt hi, Nat.mod_eq_of_lt hi]
        rfl
      · have hdiv : i / 8 = (i - 8) / 8 + 1 := by omega
        have hmod : i % 8 = (i - 8) % 8 := by omega
        rw [List.getD_append_right _ _ _ _ (by simpa using hi), length_field, ih, hdiv, hmod]
        rfl

theorem length_flatMap_field (hex : List UInt8) :
    (hex.flatMap (field 8)).length = 8 * hex.length := by
  simp [Nat.mul_comm]

theorem octets_flatMap_field (hex : List UInt8) :
    BitStream.octets (hex.flatMap (field 8)) = hex := by
  apply List.ext_getElem?
  intro i
  rw [BitStream.octets_getElem?, length_flatMap_field]
  by_cases hi : i < hex.length
  · have hget : hex[i]? = some (hex.getD i 0) := getElem?_eq_some (b := ⟨hex, 0, 0⟩) hi
    rw [if_pos (by omega), hget]
    congr 1
    symm
    apply BitStream.eq_octetAt
    intro t ht
    rw [getD_flatMap_field, show (8 * i + (7 - t)) / 8 = i by omega,
      show 7 - (8 * i + (7 - t)) % 8 = t by omega]
  · rw [if_neg (by omega), List.getElem?_eq_none (Nat.le_of_not_lt hi)]

/-- Octets that begin like those of a string have its bits. -/
theorem take_flatMap_field {w rest : List Bool} {hex : List UInt8}
    (h : hex.take ((w.length + 7) / 8) = (BitStream.octets (w ++ rest)).take ((w.length + 7) / 8)) :
    (hex.flatMap (field 8)).take w.length = w := by
  have hlen := congrArg List.length h
  rw [List.length_take, List.length_take, BitStream.length_octets, List.length_append] at hlen
  have hbit : ∀ i < w.length, (hex.flatMap (field 8)).getD i false = w.getD i false := by
    intro i hi
    have hsame : hex[i / 8]? = some (BitStream.octetAt (w ++ rest) (i / 8)) := by
      have hat := congrArg (fun octets : List UInt8 => octets[i / 8]?) h
      simp only [List.getElem?_take_of_lt (show i / 8 < (w.length + 7) / 8 by omega)] at hat
      rw [hat, BitStream.octets_getElem?, if_pos (by rw [List.length_append]; omega)]
    rw [getD_flatMap_field, List.getD_eq_getElem?_getD, hsame, Option.getD_some,
      BitStream.testBit_octetAt _ _ (by omega),
      show 8 * (i / 8) + (7 - (7 - i % 8)) = i by omega, List.getD_append _ _ _ _ hi]
  apply List.ext_getElem
  · rw [List.length_take, length_flatMap_field]
    omega
  · intro i h₁ h₂
    have hi := hbit i h₂
    have hlong : i < (hex.flatMap (field 8)).length := by
      rw [List.length_take] at h₁
      omega
    rw [List.getD_eq_getElem _ _ h₂, List.getD_eq_getElem _ _ hlong] at hi
    rw [List.getElem_take, hi]

/-- The octets that the fields fill are enough to read them again. -/
theorem readAll_ofHex (fields : List BitField) {hex : List UInt8} {rest : List Bool}
    (hmin : 2 ≤ hex.length) (hmax : hex.length ≤ 256)
    (h : hex.take ((totalWidth fields + 7) / 8) =
      (BitStream.octets (fields.flatMap bits ++ rest)).take ((totalWidth fields + 7) / 8)) :
    (readAll (fields.map width) (ofHex hex)).1 = some (fields.map value) := by
  rw [← length_flatMap_bits] at h
  have htake := take_flatMap_field h
  have hsplit := List.take_append_drop (fields.flatMap bits).length (hex.flatMap (field 8))
  rw [htake] at hsplit
  have hlen := length_flatMap_field hex
  have hhex : ofHex hex = bitCursor [] (hex.flatMap (field 8)) := by
    rw [← ofHex_octets (by omega) (by omega), octets_flatMap_field]
  rw [hhex, ← hsplit, readAll_bitCursor]

/-- Every method keeps the position in place and changes nothing when it fails, and fields
that fit into a fresh buffer are read again from the octets that hold them. -/
theorem methods_keep_and_fields_restored :
    (new.Placed ∧ ∀ hex, (ofHex hex).Placed) ∧
    (∀ method, Keeps (perform method)) ∧
    ∀ fields, totalWidth fields ≤ 2048 → ∃ written,
      writeAll fields new = (some (), written) ∧ written.data.length = 256 ∧
      ∀ hex, 2 ≤ hex.length → hex.length ≤ 256 →
        hex.take ((totalWidth fields + 7) / 8) =
          written.data.take ((totalWidth fields + 7) / 8) →
        (readAll (fields.map width) (ofHex hex)).1 = some (fields.map value) := by
  refine ⟨⟨new_placed, ofHex_placed⟩, perform_keeps, ?_⟩
  intro fields hroom
  refine ⟨blank (fields.flatMap bits) (2048 - totalWidth fields), ?_, ?_, ?_⟩
  · rw [new_eq_blank]
    exact writeAll_blank fields (by decide) hroom
  · have hsize := blank_getSize (fields.flatMap bits) (2048 - totalWidth fields)
    rw [length_flatMap_bits] at hsize
    rw [getSize] at hsize
    omega
  · intro hex hmin hmax h
    exact readAll_ofHex fields hmin hmax h

/-- A field of three bits with one of eight behind it. -/
def straddling : List BitField :=
  [⟨5, 3, by decide, by decide, by decide⟩, ⟨0xab, 8, by decide, by decide, by decide⟩]

theorem straddling_restored : totalWidth straddling ≤ 2048 ∧ ∃ written,
    writeAll straddling new = (some (), written) ∧ written.data.length = 256 ∧
    ∀ hex, 2 ≤ hex.length → hex.length ≤ 256 →
      hex.take ((totalWidth straddling + 7) / 8) =
        written.data.take ((totalWidth straddling + 7) / 8) →
      (readAll (straddling.map width) (ofHex hex)).1 = some (straddling.map value) :=
  ⟨by decide, methods_keep_and_fields_restored.2.2 straddling (by decide)⟩

end PduCall

end TelephonySms.Pdu
