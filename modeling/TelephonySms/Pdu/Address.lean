import TelephonySms.Pdu.ParamRoundTrip
import TelephonySms.Text.Gsm7bit
import TelephonySms.Text.Unicode

/-! # Addresses there and back

A telephone number as `EncodeAddressPdu` writes it is read by `DecodeAddressPdu` up to its
last octet. A `+` makes it international, and an international number is read with a `+`:
in front of it or, where it begins like a supplementary service code, behind that. A name
is read through the alphabet twice.
-/

namespace TelephonySms.Pdu

open SmsPduBuffer

theorem encodeAddressPdu_of_le {num : AddressNumber} (hnum : num.Encodable)
    (hlen : num.address.length ≤ 20) : encodeAddressPdu num = some num.octets := by
  have hle := num.length_dialled_le
  have hbcd := length_bcdOctets num.dialled
  rw [encodeAddressPdu, if_neg (by omega), digitToBcd_blank num.dialled 12 hnum.digits (by omega)]
  simp only [Option.bind_eq_bind, Option.bind_some]
  rw [if_neg (by omega)]
  rfl

/-- Type and address come back when a `+` stands for an international number, and no mark
pattern behind it moves it. -/
theorem AddressNumber.decoded_ton_address_iff (num : AddressNumber) :
    num.decoded.ton = num.ton ∧ num.decoded.address = num.address ↔
      (num.hasPlus = true ↔ num.ton = 1) ∧
        (num.hasPlus = true → matchMarks num.dialled = none) := by
  simp only [decoded]
  cases hplus : num.hasPlus with
  | true =>
      have hton : num.encodedTon = 1 := if_pos hplus
      rw [hton, if_pos rfl, num.address_of_hasPlus hplus, regProcessSmsAddrs_eq_cons_iff]
      simp [eq_comm]
  | false =>
      have hton : num.encodedTon = num.ton := if_neg (by simp [hplus])
      have hdialled : num.dialled = num.address := if_neg (by simp [hplus])
      rw [hton, hdialled]
      by_cases hint : num.ton = 1
      · have hne : regProcessSmsAddrs num.address ≠ num.address := by
          intro heq
          have hlen := length_regProcessSmsAddrs num.address
          rw [heq] at hlen
          omega
        simp [hint, hne]
      · simp [hint]

/-- A number of up to twenty characters is written, read up to its last octet, and comes back
with the type and the `+` it was written with. -/
theorem decodeAddressPdu_encodeAddressPdu (coder : TextCoder) {num : AddressNumber}
    (hnum : num.Encodable) (hne : num.dialled ≠ []) (hlen : num.address.length ≤ 20)
    (hnumeric : num.encodedTon ≠ 5) (passed rest : List UInt8) :
    ∃ octets, encodeAddressPdu num = some octets ∧
      decodeAddressPdu coder (cursor passed (octets ++ rest)) =
        some (num.decoded, cursor (passed ++ octets) rest) ∧
      (num.decoded.ton = num.ton ∧ num.decoded.address = num.address ↔
        (num.hasPlus = true ↔ num.ton = 1) ∧
          (num.hasPlus = true → matchMarks num.dialled = none)) := by
  refine ⟨num.octets, encodeAddressPdu_of_le hnum hlen, ?_, num.decoded_ton_address_iff⟩
  rw [decodeAddressPdu_octets coder hnum hnumeric hlen, if_neg hne]

/-- `+86*1`. -/
theorem decodeAddressPdu_encodeAddressPdu_international :
    ∃ octets, encodeAddressPdu ⟨1, 1, [0x2B, 0x38, 0x36, 0x2A, 0x31]⟩ = some octets ∧
      decodeAddressPdu ⟨fun _ => 0, fun s => s⟩ (cursor [] (octets ++ [0x00])) =
        some (AddressNumber.decoded ⟨1, 1, [0x2B, 0x38, 0x36, 0x2A, 0x31]⟩,
          cursor ([] ++ octets) [0x00]) ∧
      (AddressNumber.decoded ⟨1, 1, [0x2B, 0x38, 0x36, 0x2A, 0x31]⟩).address =
        [0x2B, 0x38, 0x36, 0x2A, 0x31] := by
  rcases decodeAddressPdu_encodeAddressPdu ⟨fun _ => 0, fun s => s⟩
    (show AddressNumber.Encodable ⟨1, 1, [0x2B, 0x38, 0x36, 0x2A, 0x31]⟩ from
      ⟨List.all_eq_true.1 rfl, by decide, by decide⟩)
    (by decide) (by decide) (by decide) [] [0x00] with ⟨octets, hoctets, hdecode, -⟩
  exact ⟨octets, hoctets, hdecode, by decide⟩

/-- Of `+*21#5` the `+` comes back behind the code, and a `+` in front of twenty digits is one
character too many. -/
theorem not_decodeAddressPdu_encodeAddressPdu :
    (encodeAddressPdu ⟨1, 1, [0x2B, 0x2A, 0x32, 0x31, 0x23, 0x35]⟩ =
        some [0x05, 0x91, 0x2A, 0xB1, 0xF5] ∧
      (decodeAddressPdu ⟨fun _ => 0, fun s => s⟩
        (cursor [] [0x05, 0x91, 0x2A, 0xB1, 0xF5])).map (fun result => result.1.address) =
        some [0x2A, 0x32, 0x31, 0x23, 0x2B, 0x35]) ∧
    encodeAddressPdu ⟨1, 1, 0x2B :: List.replicate 20 0x31⟩ = none := by
  decide

/-! ## Names -/

/-- The conversions of `TextCoder`, one of which cuts a character to an octet. -/
def textCoder (iconv : Text.Iconv) : TextCoder where
  getUCS2Value charset := (Text.gsm7BitToUcs2.getD charset.toNat 0).toUInt8
  gsm7bitToUtf8 := Text.MsgLangInfo.gsm7bitToUtf8 ⟨false, false, 0, 0⟩ iconv 21

/-- The characters of septets, without shifts. -/
def characters (septets : List UInt8) : List UInt16 :=
  (Text.septetUnits septets).map (Text.MsgLangInfo.character ⟨false, false, 0, 0⟩)

/-- The name that septets stand for. -/
def alphaNumeric (iconv : Text.Iconv) (septets : List UInt8) : List UInt8 :=
  iconv.utf16ToUtf8 (characters septets)

/-- What `Unpack7bitCharForMiddlePart` makes of septets, behind an escape or not. -/
def middlePart (coder : TextCoder) : Bool → List UInt8 → List UInt8
  | _, [] => []
  | true, septet :: septets =>
      (if septet = 0x1B then 0x20 else coder.getUCS2Value septet) :: middlePart coder false septets
  | false, septet :: septets =>
      if septet = 0x1B then 0 :: middlePart coder true septets
      else coder.getUCS2Value septet :: middlePart coder false septets

theorem toNat_getD_octetsValue (os : List UInt8) (j : Nat) :
    (os.getD j 0).toNat = Septet.octetsValue os / 256 ^ j % 256 := by
  induction os generalizing j with
  | nil => simp [Septet.octetsValue]
  | cons o os ih =>
      have ho := o.toNat_lt
      cases j with
      | zero => simp [Septet.octetsValue]
      | succ j =>
          rw [List.getD_cons_succ, ih, Septet.octetsValue, Nat.pow_succ', ← Nat.div_div_eq_div_mul]
          congr 2
          omega

/-- The septet `Unpack7bitCharForMiddlePart` takes at a position. -/
def septetAt (buffer : List UInt8) (i : Nat) : UInt8 :=
  let shiftNumber := 7 * i % 8
  let byteOffsetNumber := 7 * i / 8
  let octet := buffer.getD byteOffsetNumber 0
  let next := buffer.getD (byteOffsetNumber + 1) 0
  let value := 0x7F &&& (octet >>> UInt8.ofNat shiftNumber)
  if shiftNumber > 1 then
    (value &&& (0x7F >>> UInt8.ofNat (shiftNumber - 1))) |||
      (0x7F &&& (next <<< UInt8.ofNat (8 - shiftNumber)))
  else value

theorem toNat_7F_and (o : UInt8) : ((0x7F : UInt8) &&& o).toNat = o.toNat % 128 := by
  rw [UInt8.and_comm, Septet.toNat_and_7F]

/-- The bits of the second octet are put above those of the first. -/
theorem septet_split_eq (octet next : UInt8) {shift : Nat} (hpos : 1 < shift) (hshift : shift < 8) :
    (((0x7F : UInt8) &&& (octet >>> UInt8.ofNat shift)) &&& (0x7F >>> UInt8.ofNat (shift - 1))) |||
        (0x7F &&& (next <<< UInt8.ofNat (8 - shift))) =
      0x7F &&& ((octet >>> UInt8.ofNat shift) ||| next <<< UInt8.ofNat (8 - shift)) := by
  have hmask : ((0x7F : UInt8) &&& (octet >>> UInt8.ofNat shift)) &&&
      (0x7F >>> UInt8.ofNat (shift - 1)) = 0x7F &&& (octet >>> UInt8.ofNat shift) := by
    have hcases : shift = 2 ∨ shift = 3 ∨ shift = 4 ∨ shift = 5 ∨ shift = 6 ∨ shift = 7 := by omega
    cases octet with
    | ofBitVec octet =>
        cases octet with
        | ofFin octet =>
            revert octet
            rcases hcases with rfl | rfl | rfl | rfl | rfl | rfl <;> decide +kernel
  rw [hmask]
  apply UInt8.toNat_inj.mp
  simp only [UInt8.toNat_or, UInt8.toNat_and, Nat.and_or_distrib_left]

/-- Two octets with a septet across them. -/
theorem toNat_septet_split (octet next : UInt8) {shift : Nat} (hshift : shift < 8) :
    (if shift > 1 then
      (((0x7F : UInt8) &&& (octet >>> UInt8.ofNat shift)) &&&
        (0x7F >>> UInt8.ofNat (shift - 1))) ||| (0x7F &&& (next <<< UInt8.ofNat (8 - shift)))
    else 0x7F &&& (octet >>> UInt8.ofNat shift)).toNat =
      (octet.toNat + 256 * next.toNat) / 2 ^ shift % 128 := by
  have hoctet := octet.toNat_lt
  have hright := Septet.toNat_shiftRight_ofNat octet hshift
  split
  · next hmore =>
      have hlt : (octet >>> UInt8.ofNat shift).toNat < 2 ^ (8 - shift) := by
        rw [hright]
        apply Nat.div_lt_of_lt_mul
        rwa [← Nat.pow_add, Nat.add_sub_cancel' (by omega)]
      rw [septet_split_eq _ _ hmore hshift, toNat_7F_and,
        Septet.toNat_or_shiftLeft _ _ (by omega) hlt, hright]
      have hcases : shift = 2 ∨ shift = 3 ∨ shift = 4 ∨ shift = 5 ∨ shift = 6 ∨ shift = 7 := by
        omega
      rcases hcases with rfl | rfl | rfl | rfl | rfl | rfl <;> norm_num <;> omega
  · have hcases : shift = 0 ∨ shift = 1 := by omega
    rw [toNat_7F_and, hright]
    rcases hcases with rfl | rfl <;> norm_num <;> omega

theorem toNat_septetAt (buffer : List UInt8) (i : Nat) :
    (septetAt buffer i).toNat = Septet.octetsValue buffer / 128 ^ i % 128 := by
  have hshift : 7 * i % 8 < 8 := Nat.mod_lt _ (by omega)
  have hpow : 128 ^ i = 256 ^ (7 * i / 8) * 2 ^ (7 * i % 8) := by
    rw [show 128 = 2 ^ 7 from rfl, show 256 = 2 ^ 8 from rfl, ← Nat.pow_mul, ← Nat.pow_mul,
      ← Nat.pow_add, Nat.div_add_mod]
  rw [septetAt, toNat_septet_split _ _ hshift, toNat_getD_octetsValue, toNat_getD_octetsValue, hpow,
    ← Nat.div_div_eq_div_mul, Nat.pow_succ, ← Nat.div_div_eq_div_mul]
  generalize Septet.octetsValue buffer / 256 ^ (7 * i / 8) = value
  generalize 7 * i % 8 = shift at hshift
  have hcases : shift = 0 ∨ shift = 1 ∨ shift = 2 ∨ shift = 3 ∨ shift = 4 ∨ shift = 5 ∨
      shift = 6 ∨ shift = 7 := by omega
  rcases hcases with rfl | rfl | rfl | rfl | rfl | rfl | rfl | rfl <;> norm_num <;> omega

/-- The septets are taken one by one. -/
theorem unpack7bitCharForMiddlePartLoop_eq (coder : TextCoder) (buffer : List UInt8) (i n : Nat)
    (flag : Bool) (hlen : i + n ≤ 20) :
    unpack7bitCharForMiddlePartLoop coder buffer i flag n =
      some (middlePart coder flag ((List.range' i n).map (septetAt buffer))) := by
  induction n generalizing i flag with
  | zero => rfl
  | succ n ih =>
      have hstep : unpack7bitCharForMiddlePartLoop coder buffer i flag (n + 1) =
          if i > 19 then none
          else
            (unpack7bitCharForMiddlePartLoop coder buffer (i + 1)
              (if flag then false else septetAt buffer i = 0x1B) n).map
              ((if flag then
                  if septetAt buffer i = 0x1B then 0x20 else coder.getUCS2Value (septetAt buffer i)
                else if septetAt buffer i = 0x1B then 0
                else coder.getUCS2Value (septetAt buffer i)) :: ·) := by
        rw [unpack7bitCharForMiddlePartLoop]
        unfold septetAt
        generalize hvalue : (if 7 * i % 8 > 1 then
          (((0x7F : UInt8) &&& (buffer.getD (7 * i / 8) 0 >>> UInt8.ofNat (7 * i % 8))) &&&
              (0x7F >>> UInt8.ofNat (7 * i % 8 - 1))) |||
            (0x7F &&& (buffer.getD (7 * i / 8 + 1) 0 <<< UInt8.ofNat (8 - 7 * i % 8)))
          else 0x7F &&& (buffer.getD (7 * i / 8) 0 >>> UInt8.ofNat (7 * i % 8))) = value
        simp only
        cases flag with
        | true => simp [Option.map_eq_bind]
        | false =>
            by_cases hescape : value = 0x1B <;> simp [hescape, Option.map_eq_bind]
      rw [hstep, if_neg (by omega), ih _ _ (by omega), List.range'_succ, List.map_cons]
      cases flag with
      | true => simp [middlePart]
      | false => by_cases hescape : septetAt buffer i = 0x1B <;> simp [middlePart, hescape]

/-- Octets that hold septets are read as these. -/
theorem map_septetAt {septets os : List UInt8}
    (hpacked : Septet.unpack 0 septets.length os = septets) :
    (List.range' 0 septets.length).map (septetAt os) = septets := by
  apply List.ext_getElem?
  intro i
  by_cases hi : i < septets.length
  · have hget : (Septet.unpack 0 septets.length os)[i]? = some septets[i] := by
      rw [hpacked, List.getElem?_eq_getElem hi]
    have hvalue := Septet.toNat_getElem_unpack os septets.length i (by omega) septets[i] hget
    have hat : septetAt os i = septets[i] := by
      apply UInt8.toNat_inj.mp
      rw [toNat_septetAt, hvalue, Nat.pow_zero, Nat.div_one]
    simp [hi, hat]
  · rw [List.getElem?_eq_none (by simpa using hi), List.getElem?_eq_none (by omega)]

/-! ### The second conversion -/

section Names

variable {iconv : Text.Iconv}

/-- The UTF-8 of a septet's character is the septet itself. -/
def Plain (septet : UInt8) : Prop :=
  septet ≠ 0x1B ∧ Text.gsm7BitToUcs2.getD septet.toNat 0 = septet.toUInt16

instance (septet : UInt8) : Decidable (Plain septet) := inferInstanceAs (Decidable (_ ∧ _))

/-- What becomes of a septet that is not escaped: no escape, and a character of the default
alphabet with one octet, which is that of the septet for the plain ones alone. -/
theorem getUCS2Value_septet {septet : UInt8} (hlt : septet < 0x80) (hne : septet ≠ 0x1B) :
    (textCoder iconv).getUCS2Value septet ≠ 0x1B ∧
      ((textCoder iconv).getUCS2Value septet < 0x80 →
        Text.gsm7BitToUcs2.getD ((textCoder iconv).getUCS2Value septet).toNat 0 < 0x100 ∧
        (Text.gsm7BitToUcs2.getD ((textCoder iconv).getUCS2Value septet).toNat 0 =
          Text.gsm7BitToUcs2.getD septet.toNat 0 → Plain septet)) := by
  revert hlt hne
  simp only [textCoder]
  cases septet with
  | ofBitVec septet =>
      cases septet with
      | ofFin septet =>
          revert septet
          decide +kernel

theorem Plain.getUCS2Value {septet : UInt8} (h : Plain septet) :
    (textCoder iconv).getUCS2Value septet = septet := by
  have hvalue : (textCoder iconv).getUCS2Value septet =
      (Text.gsm7BitToUcs2.getD septet.toNat 0).toUInt8 := rfl
  rw [hvalue, h.2, UInt8.toUInt8_toUInt16]

/-- What the reader makes of septets holds no escape. -/
theorem escape_not_mem_middlePart {septets : List UInt8} (h : ∀ septet ∈ septets, septet < 0x80)
    (flag : Bool) : 0x1B ∉ middlePart (textCoder iconv) flag septets := by
  induction septets generalizing flag with
  | nil => simp [middlePart]
  | cons septet septets ih =>
      rcases List.forall_mem_cons.1 h with ⟨hlt, hrest⟩
      have hvalue : septet ≠ 0x1B → (textCoder iconv).getUCS2Value septet ≠ 0x1B :=
        fun hne => (getUCS2Value_septet hlt hne).1
      cases flag with
      | true =>
          rw [middlePart, List.mem_cons, not_or]
          refine ⟨?_, ih hrest false⟩
          split
          · decide
          · next hne => exact (hvalue hne).symm
      | false =>
          rw [middlePart]
          split
          · exact fun hmem => (List.mem_cons.1 hmem).elim (by decide) (ih hrest true)
          · next hne =>
              exact fun hmem => (List.mem_cons.1 hmem).elim (hvalue hne).symm (ih hrest false)

theorem middlePart_plain {front : List UInt8} (h : ∀ septet ∈ front, Plain septet)
    (septets : List UInt8) :
    middlePart (textCoder iconv) false (front ++ septets) =
      front ++ middlePart (textCoder iconv) false septets := by
  induction front with
  | nil => rfl
  | cons septet front ih =>
      rcases List.forall_mem_cons.1 h with ⟨hplain, hrest⟩
      rw [List.cons_append, middlePart, if_neg hplain.1, hplain.getUCS2Value, ih hrest,
        List.cons_append]

/-- The characters the second conversion comes to. -/
def convertedTwice (coder : TextCoder) (septets : List UInt8) : List UInt16 :=
  (middlePart coder false septets).map fun septet => Text.gsm7BitToUcs2.getD septet.toNat 0

theorem characters_plain {front : List UInt8} (h : ∀ septet ∈ front, Plain septet)
    (septets : List UInt8) :
    characters (front ++ septets) = front.map UInt8.toUInt16 ++ characters septets := by
  have hescape : 0x1B ∉ front := fun hmem => (h 0x1B hmem).1 rfl
  rw [characters, Text.septetUnits_append hescape, List.map_append, List.map_map, ← characters]
  congr 1
  exact List.map_congr_left fun septet hmem => (h septet hmem).2

theorem convertedTwice_plain {front : List UInt8} (h : ∀ septet ∈ front, Plain septet)
    (septets : List UInt8) :
    convertedTwice (textCoder iconv) (front ++ septets) =
      front.map UInt8.toUInt16 ++ convertedTwice (textCoder iconv) septets := by
  rw [convertedTwice, middlePart_plain h, List.map_append, ← convertedTwice]
  congr 1
  exact List.map_congr_left fun septet hmem => (h septet hmem).2

/-- No escaped character is the `@` that is read for an escape. -/
theorem character_escaped_ne (next : UInt8) :
    Text.MsgLangInfo.character ⟨false, false, 0, 0⟩ (.escaped next) ≠ 0x0040 := by
  have hall : ∀ entry ∈ Text.gsm7BitExtToUcs2 ++ Text.turkishSingleToUcs2 ++
      Text.spanishSingleToUcs2 ++ Text.portuSingleToUcs2, entry.2 ≠ 0x0040 :=
    Text.forall_of_all (by decide +kernel)
  rw [Text.MsgLangInfo.character, Text.MsgLangInfo.escapeToUcs2]
  split
  · decide
  · cases Text.escapeToUcs2_mem 0 next with
    | inl hspace =>
        simp only [Bool.false_eq_true, if_false, Option.getD_some, hspace]
        decide
    | inr hin =>
        simp only [Bool.false_eq_true, if_false, Option.getD_some]
        exact hall _ hin

/-- Where the characters are a start of those converted twice, all septets are plain but for an
escape at the end, which has no character. -/
theorem plain_of_characters_eq_take {septets : List UInt8} (hlt : ∀ septet ∈ septets, septet < 0x80)
    (hlow : ∀ septet ∈ middlePart (textCoder iconv) false septets, septet < 0x80) {k : Nat}
    (h : characters septets = (convertedTwice (textCoder iconv) septets).take k) :
    (∀ septet ∈ septets, Plain septet) ∨
      ∃ front, septets = front ++ [0x1B] ∧ ∀ septet ∈ front, Plain septet := by
  induction septets generalizing k with
  | nil => exact .inl (by simp)
  | cons septet septets ih =>
      rcases List.forall_mem_cons.1 hlt with ⟨hseptet, hrest⟩
      by_cases hescape : septet = 0x1B
      · subst hescape
        cases septets with
        | nil => exact .inr ⟨[], rfl, by simp⟩
        | cons next septets =>
            exfalso
            rw [characters, convertedTwice, middlePart, if_pos rfl] at h
            cases k with
            | zero => cases h
            | succ k => exact character_escaped_ne next (List.cons.inj h).1
      · rw [characters, Text.septetUnits_cons hescape, List.map_cons, ← characters,
          convertedTwice, middlePart, if_neg hescape, List.map_cons, ← convertedTwice] at h
        rw [middlePart, if_neg hescape, List.forall_mem_cons] at hlow
        cases k with
        | zero => cases h
        | succ k =>
            rw [List.take_succ_cons, List.cons.injEq] at h
            have hplain : Plain septet :=
              ((getUCS2Value_septet hseptet hescape).2 hlow.1).2 h.1.symm
            rcases ih hrest hlow.2 h.2 with hall | ⟨front, rfl, hfront⟩
            · exact .inl (List.forall_mem_cons.2 ⟨hplain, hall⟩)
            · exact .inr ⟨septet :: front, rfl, List.forall_mem_cons.2 ⟨hplain, hfront⟩⟩

theorem wellFormed_characters (septets : List UInt8) : Text.WellFormed (characters septets) := by
  refine Text.wellFormed_of_forall fun c hmem => ?_
  rcases List.mem_map.1 hmem with ⟨unit, -, rfl⟩
  cases unit with
  | single septet => exact Text.septet_not_surrogate septet
  | escaped next =>
      rw [Text.MsgLangInfo.character, Text.MsgLangInfo.escapeToUcs2]
      split
      · decide
      · exact Text.escapeToUcs2_not_surrogate 0 next

theorem wellFormed_convertedTwice (septets : List UInt8) (k : Nat) :
    Text.WellFormed ((convertedTwice (textCoder iconv) septets).take k) := by
  refine Text.wellFormed_of_forall fun c hmem => ?_
  rcases List.mem_map.1 (List.mem_of_mem_take hmem) with ⟨septet, -, rfl⟩
  exact Text.septet_not_surrogate septet

theorem gsm7bitToUcs2_no_escape {src : List UInt8} {maxLength : Nat} (hne : src ≠ [])
    (hroom : 2 * src.length < maxLength) (hescape : 0x1B ∉ src) :
    Text.MsgLangInfo.gsm7bitToUcs2 ⟨false, false, 0, 0⟩ maxLength src =
      if src.any (0x80 ≤ ·) then .refused
      else .text (src.map fun septet => Text.gsm7BitToUcs2.getD septet.toNat 0) := by
  rw [Text.MsgLangInfo.gsm7bitToUcs2, if_neg (by simp only [hne, false_or]; omega),
    Text.MsgLangInfo.gsm7bitToUcs2Loop_single rfl hroom hescape]

theorem head_middlePart {septets octets : List UInt8} {octet : UInt8}
    (hlt : ∀ septet ∈ septets, septet < 0x80)
    (h : middlePart (textCoder iconv) false septets = octet :: octets) (hoctet : octet < 0x80) :
    Text.gsm7BitToUcs2.getD octet.toNat 0 < 0x100 := by
  cases septets with
  | nil => cases h
  | cons septet septets =>
      rw [middlePart] at h
      split at h
      · cases h
        decide
      · next hescape =>
          cases h
          exact ((getUCS2Value_septet (hlt septet List.mem_cons_self) hescape).2 hoctet).1

/-- Octets of which one is no septet leave nothing: what is written first begins with a zero. -/
theorem gsm7bitToUtf8_refused {septets : List UInt8} (hlt : ∀ septet ∈ septets, septet < 0x80)
    (hhigh : (middlePart (textCoder iconv) false septets).any (0x80 ≤ ·) = true) :
    (textCoder iconv).gsm7bitToUtf8 (middlePart (textCoder iconv) false septets) = [] := by
  have hescape : 0x1B ∉ middlePart (textCoder iconv) false septets :=
    escape_not_mem_middlePart hlt false
  have hhead : ∀ octet octets, middlePart (textCoder iconv) false septets = octet :: octets →
      octet < 0x80 → Text.gsm7BitToUcs2.getD octet.toNat 0 < 0x100 :=
    fun octet octets => head_middlePart hlt
  generalize middlePart (textCoder iconv) false septets = src at *
  cases src with
  | nil => cases hhigh
  | cons octet src =>
      have hrefused := gsm7bitToUcs2_no_escape (List.cons_ne_nil octet src)
        (show 2 * (octet :: src).length < 8 * (octet :: src).length by
          rw [List.length_cons]
          omega) hescape
      rw [if_pos hhigh] at hrefused
      simp only [textCoder, Text.MsgLangInfo.gsm7bitToUtf8, hrefused]
      by_cases hoctet : octet < 0x80
      · have hsub : ∀ septet ∈ octet :: src.takeWhile (· < 0x80), septet ∈ octet :: src ∧
            septet < 0x80 := by
          intro septet hmem
          rcases List.mem_cons.1 hmem with rfl | hmem
          · exact ⟨List.mem_cons_self, hoctet⟩
          · exact ⟨List.mem_cons_of_mem _ ((List.takeWhile_sublist _).subset hmem),
              by simpa using List.all_eq_true.1 List.all_takeWhile septet hmem⟩
        have hlow : (octet :: src.takeWhile (· < 0x80)).any (0x80 ≤ ·) = false := by
          rw [List.any_eq_false]
          intro septet hmem
          simpa using (hsub septet hmem).2
        have hle := (List.takeWhile_sublist (l := src) (· < 0x80)).length_le
        have htext := gsm7bitToUcs2_no_escape (List.cons_ne_nil octet (src.takeWhile (· < 0x80)))
          (show 2 * (octet :: src.takeWhile (· < 0x80)).length < 8 * (octet :: src).length by
            simp only [List.length_cons]
            omega) fun hmem => hescape (hsub 0x1B hmem).1
        rw [hlow, if_neg (by decide)] at htext
        rw [List.takeWhile_cons_of_pos (by simpa using hoctet), htext]
        simp only [List.map_cons, Text.ucs2Units_takeWhile (hhead octet src rfl hoctet)]
        rfl
      · rw [List.takeWhile_cons_of_neg (by simpa using hoctet)]
        rfl

/-- Septets that are all of the alphabet twice are read as its characters, as many as fit. -/
theorem gsm7bitToUtf8_text {septets : List UInt8} (hne : septets ≠ [])
    (hlt : ∀ septet ∈ septets, septet < 0x80)
    (hlow : ¬ (middlePart (textCoder iconv) false septets).any (0x80 ≤ ·) = true) :
    (textCoder iconv).gsm7bitToUtf8 (middlePart (textCoder iconv) false septets) =
      Text.ucs2ToUtf8 iconv 21 (convertedTwice (textCoder iconv) septets) := by
  have hsrc : middlePart (textCoder iconv) false septets ≠ [] := by
    cases septets with
    | nil => exact absurd rfl hne
    | cons septet septets =>
        rw [middlePart]
        split <;> exact List.cons_ne_nil _ _
  have hpos := List.length_pos_iff.2 hsrc
  have htext := gsm7bitToUcs2_no_escape hsrc
    (show 2 * (middlePart (textCoder iconv) false septets).length <
      8 * (middlePart (textCoder iconv) false septets).length by omega)
    (escape_not_mem_middlePart hlt false)
  rw [if_neg hlow, ← convertedTwice] at htext
  rw [show (textCoder iconv).gsm7bitToUtf8 =
    Text.MsgLangInfo.gsm7bitToUtf8 ⟨false, false, 0, 0⟩ iconv 21 from rfl,
    Text.MsgLangInfo.gsm7bitToUtf8, htext]

theorem eq_nil_of_characters {septets : List UInt8} (h : characters septets = []) :
    septets = [] ∨ septets = [0x1B] := by
  cases septets with
  | nil => exact .inl rfl
  | cons septet septets =>
      by_cases hescape : septet = 0x1B
      · subst hescape
        cases septets with
        | nil => exact .inr rfl
        | cons next septets => cases h
      · rw [characters, Text.septetUnits_cons hescape] at h
        cases h

/-- Plain septets have an octet each. -/
theorem utf8_plain (hf : iconv.Faithful) {septets : List UInt8}
    (h : ∀ c ∈ septets.map UInt8.toUInt16, c ≤ 0x7F) (more : List UInt16)
    (hmore : ∀ c ∈ more, c ≤ 0x7F) :
    (iconv.utf16ToUtf8 (septets.map UInt8.toUInt16 ++ more)).length =
      septets.length + more.length := by
  rw [hf.ascii (List.forall_mem_append.2 ⟨h, hmore⟩)]
  simp

/-- Septets come back as the name they stand for when they are all plain. -/
theorem gsm7bitToUtf8_eq_alphaNumeric_iff (hf : iconv.Faithful) {septets : List UInt8}
    (hne : septets ≠ []) (hlen : septets.length ≤ 11) (hlt : ∀ septet ∈ septets, septet < 0x80) :
    (textCoder iconv).gsm7bitToUtf8 (middlePart (textCoder iconv) false septets) =
        alphaNumeric iconv septets ↔ ∀ septet ∈ septets, Plain septet := by
  have hascii {front : List UInt8} (h : ∀ septet ∈ front, septet ∈ septets) :
      ∀ c ∈ front.map UInt8.toUInt16, c ≤ 0x7F := by
    intro c hmem
    rcases List.mem_map.1 hmem with ⟨septet, hseptet, rfl⟩
    have hnat := UInt8.lt_iff_toNat_lt.1 (hlt septet (h septet hseptet))
    rw [UInt16.le_iff_toNat_le, UInt8.toNat_toUInt16]
    simp only [UInt8.reduceToNat, UInt16.reduceToNat] at hnat ⊢
    omega
  by_cases hhigh : (middlePart (textCoder iconv) false septets).any (0x80 ≤ ·) = true
  · rw [gsm7bitToUtf8_refused hlt hhigh]
    refine iff_of_false (fun h => ?_) fun hplain => ?_
    · have hnil := hf.injective (wellFormed_characters septets) .nil (h.symm.trans hf.nil.symm)
      rcases eq_nil_of_characters hnil with rfl | rfl
      · exact hne rfl
      · simp [middlePart] at hhigh
    · have hsame : middlePart (textCoder iconv) false (septets ++ []) = septets ++ [] :=
        middlePart_plain hplain []
      rw [List.append_nil] at hsame
      rw [hsame, List.any_eq_true] at hhigh
      rcases hhigh with ⟨septet, hmem, hge⟩
      exact absurd (hlt septet hmem) (UInt8.not_lt.2 (by simpa using hge))
  · rw [gsm7bitToUtf8_text hne hlt hhigh]
    rcases Text.ucs2ToUtf8_eq hf 21 (convertedTwice (textCoder iconv) septets) with ⟨k, heq, hall⟩
    rw [heq]
    constructor
    · intro h
      have hchars := hf.injective (wellFormed_characters septets)
        (wellFormed_convertedTwice septets k) h.symm
      have hlow : ∀ septet ∈ middlePart (textCoder iconv) false septets, septet < 0x80 := by
        intro septet hmem
        refine UInt8.not_le.1 fun hge => hhigh ?_
        exact List.any_eq_true.2 ⟨septet, hmem, by simpa using hge⟩
      rcases plain_of_characters_eq_take hlt hlow hchars with hplain | ⟨front, rfl, hfront⟩
      · exact hplain
      · exfalso
        have htwice : convertedTwice (textCoder iconv) (front ++ [0x1B]) =
            front.map UInt8.toUInt16 ++ [0x0040] := convertedTwice_plain hfront [0x1B]
        have honce : characters (front ++ [0x1B]) = front.map UInt8.toUInt16 ++ [] :=
          characters_plain hfront [0x1B]
        have hsize := utf8_plain hf (hascii fun septet hmem => List.mem_append_left _ hmem)
          [0x0040] (by simp)
        rw [List.length_append] at hlen
        rw [htwice, hsize] at hall
        rw [htwice, hall (by simp only [List.length_singleton] at hlen ⊢; omega), honce] at hchars
        simpa using congrArg List.length hchars
    · intro hplain
      have htwice : convertedTwice (textCoder iconv) (septets ++ []) =
          septets.map UInt8.toUInt16 ++ [] := convertedTwice_plain hplain []
      have honce : characters (septets ++ []) = septets.map UInt8.toUInt16 ++ [] :=
        characters_plain hplain []
      have hsize := utf8_plain hf (hascii fun septet hmem => hmem) [] (by simp)
      rw [List.append_nil] at htwice honce
      rw [htwice, hsize] at hall
      rw [htwice, hall (by simp only [List.length_nil]; omega), alphaNumeric, honce]

theorem septet_lt_of_unpack {septets os : List UInt8}
    (hpacked : Septet.unpack 0 septets.length os = septets) :
    ∀ septet ∈ septets, septet < 0x80 := by
  intro septet hmem
  rcases List.mem_iff_getElem?.1 hmem with ⟨i, hget⟩
  rw [← hpacked] at hget
  have hvalue := Septet.toNat_getElem_unpack os septets.length i (by omega) septet hget
  rw [UInt8.lt_iff_toNat_lt, hvalue]
  exact Nat.mod_lt _ (by decide)

/-- A name comes back as the text of its septets when it is not empty and they are all plain. -/
theorem decodeAddressPdu_alphaNumeric_iff (hf : iconv.Faithful) {septets os : List UInt8}
    (hlen : septets.length ≤ 11) (hos : os.length = (7 * septets.length + 7) / 8)
    (hpacked : Septet.unpack 0 septets.length os = septets) {type : UInt8}
    (htype : (type &&& 0x70) >>> 4 = 5) (passed rest : List UInt8) :
    (decodeAddressPdu (textCoder iconv) (cursor passed
          (UInt8.ofNat ((7 * septets.length + 3) / 4) :: type :: (os ++ rest)))).map Prod.fst =
        some ⟨5, 0, alphaNumeric iconv septets⟩ ↔
      septets ≠ [] ∧ ∀ septet ∈ septets, Plain septet := by
  have hsize : (UInt8.ofNat ((7 * septets.length + 3) / 4)).toNat =
      (7 * septets.length + 3) / 4 := by
    rw [UInt8.toNat_ofNat']
    omega
  have hsmall : ¬ UInt8.ofNat ((7 * septets.length + 3) / 4) ≥ 44 := by
    rw [ge_iff_le, UInt8.le_iff_toNat_le, hsize]
    simp only [UInt8.reduceToNat]
    omega
  have hhalf : (if (7 * septets.length + 3) / 4 % 2 = 0 then (7 * septets.length + 3) / 4 / 2
      else (7 * septets.length + 3) / 4 / 2 + 1) = os.length := by
    split <;> omega
  have hcount : (7 * septets.length + 3) / 4 * 4 / 7 = septets.length := by omega
  have hread := readBytes_cursor os
    (passed ++ [UInt8.ofNat ((7 * septets.length + 3) / 4)] ++ [type]) rest
  have hmiddle : unpack7bitCharForMiddlePart (textCoder iconv) os septets.length =
      if septets.length = 0 then none
      else some (middlePart (textCoder iconv) false septets) := by
    rw [unpack7bitCharForMiddlePart, unpack7bitCharForMiddlePartLoop_eq _ _ _ _ _ (by omega),
      map_septetAt hpacked]
  simp only [decodeAddressPdu, decodeAddressAlphaNum, readByte_cursor_cons, Option.bind_eq_bind,
    Option.bind_some, if_neg hsmall, hsize, hhalf, hcount, pickOneByte_cursor_cons, htype, if_true,
    hread, hmiddle]
  by_cases hne : septets = []
  · simp [hne]
  · have hback := gsm7bitToUtf8_eq_alphaNumeric_iff hf hne hlen (septet_lt_of_unpack hpacked)
    rw [if_neg (by simpa using hne), and_iff_right hne, ← hback]
    simp

/-- The name `OK`. -/
theorem decodeAddressPdu_alphaNumeric_ok :
    (decodeAddressPdu (textCoder Text.utf8Iconv) (cursor []
          (UInt8.ofNat ((7 * [(0x4F : UInt8), 0x4B].length + 3) / 4) :: 0xD0 ::
            ([0xCF, 0x25] ++ [])))).map Prod.fst =
        some ⟨5, 0, alphaNumeric Text.utf8Iconv [0x4F, 0x4B]⟩ ↔
      [(0x4F : UInt8), 0x4B] ≠ [] ∧ ∀ septet ∈ [(0x4F : UInt8), 0x4B], Plain septet :=
  decodeAddressPdu_alphaNumeric_iff Text.utf8Iconv_faithful (by decide) (by decide) (by decide)
    (by decide) [] []

/-- The name `@` is read as `¡`. -/
theorem not_decodeAddressPdu_alphaNumeric :
    (decodeAddressPdu (textCoder Text.utf8Iconv) (cursor [] [0x02, 0xD0, 0x00])).map Prod.fst =
        some ⟨5, 0, [0xC2, 0xA1]⟩ ∧
      alphaNumeric Text.utf8Iconv [0x00] = [0x40] := by
  decide +kernel

end Names

end TelephonySms.Pdu
