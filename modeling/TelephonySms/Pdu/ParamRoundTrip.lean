import TelephonySms.Pdu.Param

/-! # Which parameters survive a round trip

For each kind of parameter, the octets it is written as and exactly which
values the decoder gives back.
-/

namespace TelephonySms.Pdu

open SmsPduBuffer

/-! ## Addresses -/

theorem readBytes_cursor (octets passed rest : List UInt8) :
    readBytes octets.length (cursor passed (octets ++ rest)) =
      some (octets, cursor (passed ++ octets) rest) := by
  induction octets generalizing passed with
  | nil => simp [readBytes]
  | cons v octets ih => simp [readBytes, ih]

/-- An address of digits, `*` and `#` with at most a leading `+`, whose type
and plan fit their bits. -/
structure AddressNumber.Encodable (num : AddressNumber) : Prop where
  digits : ∀ c ∈ num.dialled, isDigitChar c = true
  ton_lt : num.ton < 8
  npi_lt : num.npi < 16

def AddressNumber.typeOctet (num : AddressNumber) : UInt8 :=
  (0x80 : UInt8) + num.encodedTon <<< 4 + num.npi

theorem lt_of_isDigitChar {c : UInt8} (h : isDigitChar c = true) : c < 0x80 := by
  revert h
  cases c with
  | ofBitVec c =>
      cases c with
      | ofFin c =>
          revert c
          decide +kernel

theorem AddressNumber.length_dialled_le (num : AddressNumber) :
    num.dialled.length ≤ num.address.length := by
  unfold dialled
  split <;> simp

/-- What an encodable address is written as. -/
def AddressNumber.octets (num : AddressNumber) : List UInt8 :=
  UInt8.ofNat num.dialled.length :: num.typeOctet :: bcdOctets num.dialled

theorem encodeAddressPdu_eq_some {num : AddressNumber} {octets : List UInt8}
    (hnum : num.Encodable) (h : encodeAddressPdu num = some octets) :
    num.address.length ≤ 20 ∧ octets = num.octets := by
  unfold encodeAddressPdu at h
  split at h
  · simp at h
  · next hlen =>
      have hle := num.length_dialled_le
      rw [digitToBcd_blank num.dialled 12 hnum.digits (by omega)] at h
      simp only [Option.bind_eq_bind, Option.bind_some] at h
      split at h
      · simp at h
      · cases h
        exact ⟨by omega, rfl⟩

theorem toNat_tonBits (o : UInt8) : ((o &&& 0x70) >>> 4).toNat = o.toNat / 16 % 8 := by
  cases o with
  | ofBitVec o =>
      cases o with
      | ofFin o =>
          revert o
          decide +kernel

theorem AddressNumber.Encodable.encodedTon_lt {num : AddressNumber} (h : num.Encodable) :
    num.encodedTon < 8 := by
  unfold AddressNumber.encodedTon
  split
  · decide
  · exact h.ton_lt

theorem AddressNumber.Encodable.tonBits_typeOctet {num : AddressNumber} (h : num.Encodable) :
    (num.typeOctet &&& 0x70) >>> 4 = num.encodedTon := by
  have hton : num.encodedTon.toNat < 8 := by simpa using UInt8.lt_iff_toNat_lt.mp h.encodedTon_lt
  have hnpi : num.npi.toNat < 16 := by simpa using UInt8.lt_iff_toNat_lt.mp h.npi_lt
  have hshift : (num.encodedTon <<< 4).toNat = 16 * num.encodedTon.toNat % 256 :=
    Septet.toNat_shiftLeft_ofNat num.encodedTon (k := 4) (by omega)
  apply UInt8.toNat_inj.mp
  rw [toNat_tonBits, typeOctet, UInt8.toNat_add, UInt8.toNat_add, hshift]
  simp only [UInt8.reduceToNat]
  omega

/-- The type octet of an address is no length of an address. -/
theorem AddressNumber.typeOctet_ge {num : AddressNumber} (hton : num.encodedTon < 8)
    (hnpi : num.npi < 16) : num.typeOctet ≥ 44 := by
  have hton' : num.encodedTon.toNat < 8 := by simpa using UInt8.lt_iff_toNat_lt.mp hton
  have hnpi' : num.npi.toNat < 16 := by simpa using UInt8.lt_iff_toNat_lt.mp hnpi
  have hshift : (num.encodedTon <<< 4).toNat = 16 * num.encodedTon.toNat % 256 :=
    Septet.toNat_shiftLeft_ofNat num.encodedTon (k := 4) (by omega)
  rw [ge_iff_le, UInt8.le_iff_toNat_le, AddressNumber.typeOctet, UInt8.toNat_add, UInt8.toNat_add,
    hshift]
  simp only [UInt8.reduceToNat]
  omega

theorem splitLast_eq_none {α : Type*} {p : α → Bool} {xs : List α} :
    splitLast p xs = none ↔ ∀ x ∈ xs, p x = false := by
  induction xs with
  | nil => simp [splitLast]
  | cons x xs ih =>
      unfold splitLast
      split
      · next hsome =>
          rw [hsome] at ih
          simp only [reduceCtorEq, false_iff, List.mem_cons, forall_eq_or_imp, not_and] at ih ⊢
          exact fun _ => ih
      · next hnone =>
          have hall := ih.mp hnone
          cases hx : p x with
          | true => simp [hx]
          | false => simpa [hx] using hall

theorem splitLast_eq_some {α : Type*} {p : α → Bool} {xs before after : List α} {y : α}
    (h : splitLast p xs = some (before, y, after)) : xs = before ++ y :: after := by
  induction xs generalizing before with
  | nil => simp [splitLast] at h
  | cons x xs ih =>
      unfold splitLast at h
      split at h
      · next hrest =>
          cases h
          rw [ih hrest]
          rfl
      · split at h
        · cases h
          rfl
        · simp at h

theorem matchMarks_eq_some {xs before after : List UInt8} {first mark : UInt8}
    (h : matchMarks xs = some (first, before, mark, after)) :
    xs = first :: before ++ mark :: after ∧ isMark first = true := by
  cases xs with
  | nil => simp [matchMarks] at h
  | cons c cs =>
      simp only [matchMarks] at h
      split at h
      · next hc =>
          obtain ⟨⟨before', mark', after'⟩, hsplit, h⟩ := Option.bind_eq_some_iff.mp h
          cases h
          exact ⟨by rw [splitLast_eq_some hsplit]; rfl, hc⟩
      · simp at h

/-- Taking a last character off leaves no mark where there was none. -/
theorem matchMarks_dropLast {xs : List UInt8} (h : matchMarks xs = none) :
    matchMarks xs.dropLast = none := by
  match xs with
  | [] => rfl
  | [c] => rfl
  | c :: d :: cs =>
      simp only [matchMarks, List.dropLast_cons_cons] at h ⊢
      split
      · next hc =>
          simp only [hc, if_true, Option.bind_eq_bind, Option.bind_eq_none_iff] at h
          have hnone : splitLast isMark (d :: cs) = none := by
            rw [Option.eq_none_iff_forall_ne_some]
            rintro ⟨before, mark, after⟩ hsome
            have := h _ hsome
            simp at this
          have hlast : splitLast isMark (d :: cs).dropLast = none :=
            splitLast_eq_none.mpr fun x hx =>
              splitLast_eq_none.mp hnone x ((List.dropLast_sublist _).subset hx)
          simp [hlast]
      · rfl

theorem regProcessSmsAddrs_of_none {xs : List UInt8} (h : matchMarks xs = none) :
    regProcessSmsAddrs xs = 0x2B :: xs := by
  unfold regProcessSmsAddrs
  rw [matchMarks_dropLast h, h, ite_self]

theorem length_regProcessSmsAddrs (xs : List UInt8) :
    (regProcessSmsAddrs xs).length = xs.length + 1 := by
  unfold regProcessSmsAddrs
  split
  · next first before mark after hmatch =>
      split at hmatch
      · next hlast =>
          obtain ⟨hxs, -⟩ := matchMarks_eq_some hmatch
          have hlen := congrArg List.length hxs
          have hne : xs ≠ [] := by
            rintro rfl
            simp at hlast
          have hpos := List.length_pos_iff.mpr hne
          simp only [List.length_dropLast, List.length_append, List.length_cons] at hlen
          split
          · next hbefore =>
              subst hbefore
              simp at hlen ⊢
              omega
          · simp
            omega
      · simp at hmatch
  · split
    · next first before mark after hmatch =>
        obtain ⟨hxs, -⟩ := matchMarks_eq_some hmatch
        rw [hxs]
        simp
        omega
    · rfl

/-- The number comes back with `+` in front exactly when no mark pattern moves it. -/
theorem regProcessSmsAddrs_eq_cons_iff (xs : List UInt8) :
    regProcessSmsAddrs xs = 0x2B :: xs ↔ matchMarks xs = none := by
  refine ⟨fun h => ?_, regProcessSmsAddrs_of_none⟩
  have hplus : isMark 0x2B = false := by decide
  unfold regProcessSmsAddrs at h
  split at h
  · next first before mark after hmatch =>
      split at hmatch
      · obtain ⟨-, hmark⟩ := matchMarks_eq_some hmatch
        split at h
        · cases h
          simp [hplus] at hmark
        · cases h
          simp [hplus] at hmark
      · simp at hmatch
  · split at h
    · next first before mark after hmatch =>
        obtain ⟨-, hmark⟩ := matchMarks_eq_some hmatch
        simp only [List.cons_append, List.cons.injEq] at h
        rw [h.1, hplus] at hmark
        simp at hmark
    · next hnone => exact hnone

/-- What the decoder makes of the octets of an encodable address. -/
def AddressNumber.decoded (num : AddressNumber) : AddressNumber :=
  ⟨num.encodedTon, 0,
    if num.encodedTon = 1 then regProcessSmsAddrs num.dialled else num.dialled⟩

theorem decodeAddressDigits_bcdOctets {cs : List UInt8} (passed rest : List UInt8) (v : UInt8)
    (hne : cs ≠ [])
    (hcs : ∀ c ∈ cs, isDigitChar c = true) (hlen : cs.length ≤ 20) :
    decodeAddressDigits (cursor passed (v :: bcdOctets cs ++ rest)) ((cs.length + 1) / 2) =
      some (cs, cursor (passed ++ v :: bcdOctets cs) rest) := by
  have hbcd := length_bcdOctets cs
  have hread := readBytes_cursor (bcdOctets cs) (passed ++ [v]) rest
  rw [hbcd] at hread
  have hmin : min ((cs.length + 1) / 2) 21 = (cs.length + 1) / 2 := by omega
  have hdigit : bcdToDigit (bcdOctets cs) 21 = some cs := bcdToDigit_bcdOctets hne hcs (by omega)
  simp [decodeAddressDigits, hmin, hread, hbcd, hdigit]

theorem decodeAddressDigits_zero (b : SmsPduBuffer) : decodeAddressDigits b 0 = none := by
  simp [decodeAddressDigits, readBytes, bcdToDigit]

/-- A number that was written is read up to its last octet, unless it is empty. -/
theorem decodeAddressPdu_octets (coder : TextCoder) {num : AddressNumber} (hnum : num.Encodable)
    (hnumeric : num.encodedTon ≠ 5) (hlen : num.address.length ≤ 20) (passed rest : List UInt8) :
    decodeAddressPdu coder (cursor passed (num.octets ++ rest)) =
      if num.dialled = [] then none
      else some (num.decoded, cursor (passed ++ num.octets) rest) := by
  have hle := num.length_dialled_le
  have hsize : (UInt8.ofNat num.dialled.length).toNat = num.dialled.length := by
    rw [UInt8.toNat_ofNat']
    omega
  have hsmall : ¬ UInt8.ofNat num.dialled.length ≥ 44 := by
    rw [ge_iff_le, UInt8.le_iff_toNat_le, hsize]
    simp only [UInt8.reduceToNat]
    omega
  have hhalf : (if num.dialled.length % 2 = 0 then num.dialled.length / 2
      else num.dialled.length / 2 + 1) = (num.dialled.length + 1) / 2 := by
    split <;> omega
  have hton : (num.typeOctet &&& 0x70) >>> 4 = num.encodedTon := hnum.tonBits_typeOctet
  have htake : (regProcessSmsAddrs num.dialled).take 21 = regProcessSmsAddrs num.dialled := by
    apply List.take_of_length_le
    rw [length_regProcessSmsAddrs]
    omega
  have htake' : num.dialled.take 21 = num.dialled := List.take_of_length_le (by omega)
  simp only [AddressNumber.octets, List.cons_append, decodeAddressPdu, readByte_cursor_cons,
    Option.bind_eq_bind, Option.bind_some, if_neg hsmall, hsize, hhalf, pickOneByte_cursor_cons,
    hton, if_neg hnumeric]
  by_cases hempty : num.dialled = []
  · have hzero : (num.dialled.length + 1) / 2 = 0 := by simp [hempty]
    rw [if_pos hempty, hzero]
    simp [decodeAddressInternationalNum, decodeAddressDefaultNum, decodeAddressDigits_zero]
  · have hdigits := decodeAddressDigits_bcdOctets (passed ++ [UInt8.ofNat num.dialled.length]) rest
      num.typeOctet hempty hnum.digits (by omega)
    simp only [List.cons_append] at hdigits
    rw [if_neg hempty]
    by_cases hint : num.encodedTon = 1
    · simp [hint, decodeAddressInternationalNum, hdigits, htake, AddressNumber.decoded]
    · simp [hint, decodeAddressDefaultNum, hdigits, htake', AddressNumber.decoded]

/-- The addresses that come back as they were: a number that is not typed as
alphanumeric, no numbering plan, `+` exactly on an international number, and no
mark pattern behind it. -/
structure AddressNumber.Kept (num : AddressNumber) : Prop where
  numeric : num.ton ≠ 5
  npi : num.npi = 0
  dialled : num.dialled ≠ []
  plus : num.hasPlus = true ↔ num.ton = 1
  marks : num.hasPlus = true → matchMarks num.dialled = none

theorem AddressNumber.address_of_hasPlus {num : AddressNumber} (h : num.hasPlus = true) :
    num.address = 0x2B :: num.dialled := by
  rw [AddressNumber.dialled, if_pos h]
  simp only [hasPlus, decide_eq_true_eq] at h
  cases haddr : num.address with
  | nil => simp [haddr] at h
  | cons c cs => simp_all

theorem AddressNumber.eq_iff (num other : AddressNumber) :
    num = other ↔ num.ton = other.ton ∧ num.npi = other.npi ∧ num.address = other.address := by
  cases num
  cases other
  simp

theorem AddressNumber.decoded_eq_iff {num : AddressNumber} (hnumeric : num.encodedTon ≠ 5)
    (hne : num.dialled ≠ []) : num.decoded = num ↔ num.Kept := by
  rw [AddressNumber.eq_iff]
  simp only [decoded]
  cases hplus : num.hasPlus with
  | true =>
      have hton : num.encodedTon = 1 := if_pos hplus
      rw [hton, if_pos rfl, num.address_of_hasPlus hplus, regProcessSmsAddrs_eq_cons_iff]
      constructor
      · rintro ⟨h1, h0, hmarks⟩
        exact ⟨by simp [← h1], h0.symm, hne, by simp [hplus, ← h1], fun _ => hmarks⟩
      · intro h
        exact ⟨(h.plus.mp hplus).symm, h.npi.symm, h.marks hplus⟩
  | false =>
      have hton : num.encodedTon = num.ton := if_neg (by simp [hplus])
      have hdialled : num.dialled = num.address := if_neg (by simp [hplus])
      rw [hton, hdialled]
      constructor
      · rintro ⟨-, h0, haddr⟩
        refine ⟨hton ▸ hnumeric, h0.symm, hne, ?_, by simp [hplus]⟩
        simp only [hplus, Bool.false_eq_true, false_iff]
        intro h1
        rw [if_pos h1] at haddr
        have hlen := length_regProcessSmsAddrs num.address
        rw [haddr] at hlen
        omega
      · intro h
        have h1 : num.ton ≠ 1 := fun h1 => by simpa [hplus] using h.plus.mpr h1
        exact ⟨rfl, h.npi.symm, if_neg h1⟩

theorem AddressNumber.Kept.encodedTon_ne {num : AddressNumber} (h : num.Kept) :
    num.encodedTon ≠ 5 := by
  unfold AddressNumber.encodedTon
  split
  · decide
  · exact h.numeric

theorem decodeAddressPdu_of_kept (coder : TextCoder) {num : AddressNumber} (hnum : num.Encodable)
    (hlen : num.address.length ≤ 20) (hkept : num.Kept) (passed rest : List UInt8) :
    decodeAddressPdu coder (cursor passed (num.octets ++ rest)) =
      some (num, cursor (passed ++ num.octets) rest) := by
  rw [decodeAddressPdu_octets coder hnum hkept.encodedTon_ne hlen, if_neg hkept.dialled,
    (AddressNumber.decoded_eq_iff hkept.encodedTon_ne hkept.dialled).mpr hkept]

/-- A text has no more ASCII characters than there were septets. -/
def TextCoder.AsciiBounded (coder : TextCoder) : Prop :=
  ∀ septets, (coder.gsm7bitToUtf8 septets).countP (· < 0x80) ≤ septets.length

theorem length_unpack7bitCharForMiddlePartLoop {coder : TextCoder} {buffer septets : List UInt8}
    {i n : Nat} {flag : Bool}
    (h : unpack7bitCharForMiddlePartLoop coder buffer i flag n = some septets) :
    septets.length = n := by
  induction n generalizing i flag septets with
  | zero =>
      cases h
      rfl
  | succ n ih =>
      simp only [unpack7bitCharForMiddlePartLoop] at h
      split at h
      · simp at h
      · obtain ⟨rest, hrest, h⟩ := Option.bind_eq_some_iff.mp h
        cases h
        rw [List.length_cons, ih hrest]

/-- The digits of an alphanumeric address are read as septets, too few to be
as many digits. -/
theorem decodeAddressAlphaNum_ne {coder : TextCoder} (hcoder : coder.AsciiBounded)
    {b b' : SmsPduBuffer} {bcdLen : Nat} {address : List UInt8}
    (hdigits : ∀ c ∈ address, isDigitChar c = true)
    (h : decodeAddressAlphaNum coder b bcdLen address.length = some (address, b')) : False := by
  simp only [decodeAddressAlphaNum, Option.bind_eq_bind, Option.bind_eq_some_iff, Prod.exists,
    Option.some.injEq, Prod.mk.injEq] at h
  obtain ⟨_, c, -, octets, d, -, septets, hsept, htext, -⟩ := h
  unfold unpack7bitCharForMiddlePart at hsept
  split at hsept
  · simp at hsept
  · have hlen := length_unpack7bitCharForMiddlePartLoop hsept
    have hcount := hcoder septets
    have hascii : address.countP (· < 0x80) = address.length := by
      rw [List.countP_eq_length]
      intro c hc
      simpa using lt_of_isDigitChar (hdigits c hc)
    rw [htext, hascii] at hcount
    omega

/-- A number with the type of a name is read as a name, which it is not. -/
theorem decodeAddressPdu_address_ne {coder : TextCoder} (hcoder : coder.AsciiBounded)
    {num found : AddressNumber} (hnum : num.Encodable) (hlen : num.address.length ≤ 20)
    (hname : num.encodedTon = 5) {passed rest : List UInt8} {b : SmsPduBuffer}
    (h : decodeAddressPdu coder (cursor passed (num.octets ++ rest)) = some (found, b)) :
    found.address ≠ num.address := by
  have hplus : num.hasPlus = false := by
    cases hplus : num.hasPlus with
    | true => simp [AddressNumber.encodedTon, hplus] at hname
    | false => rfl
  have hdialled : num.dialled = num.address := if_neg (by simp [hplus])
  have hton : (num.typeOctet &&& 0x70) >>> 4 = 5 := hnum.tonBits_typeOctet.trans hname
  have hsize : (UInt8.ofNat num.address.length).toNat = num.address.length := by
    rw [UInt8.toNat_ofNat']
    omega
  have hsmall : ¬ UInt8.ofNat num.address.length ≥ 44 := by
    rw [ge_iff_le, UInt8.le_iff_toNat_le, hsize]
    simp only [UInt8.reduceToNat]
    omega
  simp only [AddressNumber.octets, hdialled, List.cons_append, decodeAddressPdu,
    readByte_cursor_cons, Option.bind_eq_bind, Option.bind_some, if_neg hsmall, hsize,
    pickOneByte_cursor_cons, hton, if_true, Option.bind_eq_some_iff, Prod.exists,
    Option.some.injEq, Prod.mk.injEq] at h
  rcases h with ⟨address, c, halpha, heq, -⟩
  intro haddress
  rw [show address = num.address by rw [← haddress, ← heq]] at halpha
  exact decodeAddressAlphaNum_ne hcoder (hdialled ▸ hnum.digits) halpha

/-- An address that comes back is one of those that are kept. -/
theorem decodeAddressPdu_kept {coder : TextCoder} (hcoder : coder.AsciiBounded)
    {num : AddressNumber} (hnum : num.Encodable) (hlen : num.address.length ≤ 20)
    {passed rest : List UInt8} {b : SmsPduBuffer}
    (h : decodeAddressPdu coder (cursor passed (num.octets ++ rest)) = some (num, b)) :
    num.Kept := by
  by_cases hnumeric : num.encodedTon = 5
  · exact absurd rfl (decodeAddressPdu_address_ne hcoder hnum hlen hnumeric h)
  · rw [decodeAddressPdu_octets coder hnum hnumeric hlen] at h
    split at h
    · simp at h
    · next hne =>
        rw [Option.some.injEq, Prod.mk.injEq] at h
        exact (AddressNumber.decoded_eq_iff hnumeric hne).mp h.1

/-! ## Data coding schemes -/

/-- A scheme without the indication that no scheme is written with. -/
def SmsDcs.written (dcs : SmsDcs) : SmsDcs :=
  { dcs with bMWI := false, bIndActive := false, indType := .otherIndicator }

/-- The schemes that come back as they were. Seven-bit coding loses the class,
and only two groups are written. -/
def SmsDcs.Kept (dcs : SmsDcs) : Prop :=
  dcs.written = dcs ∧
    (dcs.codingGroup = .codingGeneralGroup ∧
        (dcs.codingScheme = .dataCoding7Bit →
          dcs.msgClass = .classUnknown ∧ dcs.bCompressed = false) ∨
      dcs.codingGroup = .smsClassGroup ∧ dcs.codingScheme ≠ .dataCoding7Bit ∧
        dcs.msgClass ≠ .classUnknown ∧ dcs.bCompressed = false)

instance (dcs : SmsDcs) : Decidable dcs.Kept := inferInstanceAs (Decidable (_ ∧ _))

/-- The codings that user data is written in. -/
def DataCodingScheme.isWritten : DataCodingScheme → Bool
  | .dataCoding7Bit | .dataCoding8Bit | .dataCodingUcs2 => true
  | _ => false

/-- Case by case: an octet that was written stands for no indication and not
for KSC5601, and which schemes it stands for. -/
theorem decodeDcs_mk (bCompressed : Bool) (msgClass : SmsMessageClass)
    (codingScheme : DataCodingScheme) (codingGroup : PduSchemeGroup)
    (hscheme : codingScheme.isWritten = true) :
    ∀ value ∈ encodeDCS ⟨bCompressed, false, false, msgClass, codingScheme, codingGroup,
        .otherIndicator⟩,
      (decodeDcs (value.headD 0)).written = decodeDcs (value.headD 0) ∧ value.headD 0 ≠ 0x84 ∧
        (decodeDcs (value.headD 0) =
            ⟨bCompressed, false, false, msgClass, codingScheme, codingGroup, .otherIndicator⟩ ↔
          SmsDcs.Kept
            ⟨bCompressed, false, false, msgClass, codingScheme, codingGroup, .otherIndicator⟩) := by
  revert hscheme
  cases codingScheme <;> cases codingGroup <;> cases msgClass <;> cases bCompressed <;>
    decide +kernel

theorem dcsOctet_ne {dcs : SmsDcs} {value : List UInt8}
    (hscheme : dcs.codingScheme.isWritten = true) (h : encodeDCS dcs = some value) :
    value.headD 0 ≠ 0x84 :=
  (decodeDcs_mk dcs.bCompressed dcs.msgClass dcs.codingScheme dcs.codingGroup hscheme value h).2.1

theorem decodeDcs_eq_iff {dcs : SmsDcs} {value : List UInt8}
    (hscheme : dcs.codingScheme.isWritten = true) (h : encodeDCS dcs = some value) :
    decodeDcs (value.headD 0) = dcs ↔ dcs.Kept := by
  obtain ⟨hwritten, -, hiff⟩ :=
    decodeDcs_mk dcs.bCompressed dcs.msgClass dcs.codingScheme dcs.codingGroup hscheme value h
  constructor
  · intro hdcs
    have hself : dcs.written = dcs := by rw [← hdcs, hwritten]
    have hkept : dcs.written.Kept := hiff.mp (hdcs.trans hself.symm)
    rwa [hself] at hkept
  · intro hkept
    have hself : dcs.written = dcs := hkept.1
    rw [← hself] at hkept
    exact (hiff.mpr hkept).trans hself

/-! ## Time stamps -/

/-- The number two semi-octets stand for. -/
def timeFieldValue (o : UInt8) : UInt8 :=
  let tens : UInt8 := o &&& 0x0F
  let units : UInt8 := (o &&& 0xF0) >>> 4
  tens * 10 + units

theorem timeFieldValue_encodeTimeField (v : UInt8) :
    timeFieldValue (encodeTimeField v) = v ↔ v < 160 := by
  cases v with
  | ofBitVec v =>
      cases v with
      | ofFin v =>
          revert v
          decide +kernel

theorem toNat_encodeTimeField (v : UInt8) :
    (encodeTimeField v).toNat = 16 * (v.toNat % 10) + v.toNat / 10 := by
  cases v with
  | ofBitVec v =>
      cases v with
      | ofFin v =>
          revert v
          decide +kernel

theorem decodeTimeZone_eq (o : UInt8) :
    decodeTimeZone o =
      if 8 ≤ o.toNat % 16 then -(10 * (o.toNat % 16 - 8) + o.toNat / 16 : Int)
      else 10 * (o.toNat % 16) + o.toNat / 16 := by
  cases o with
  | ofBitVec o =>
      cases o with
      | ofFin o =>
          revert o
          decide +kernel

theorem decodeTimeField_cursor (passed rest : List UInt8) (o : UInt8) :
    decodeTimeField (cursor passed (o :: rest)) =
      some (timeFieldValue o, cursor (passed ++ [o]) rest) := by
  simp [decodeTimeField, timeFieldValue]

theorem decodeTimePdu_cursor (passed rest : List UInt8) (year month day hour minute second zone : UInt8) :
    decodeTimePdu (cursor passed
        (year :: month :: day :: hour :: minute :: second :: zone :: rest)) =
      some (.absolute ⟨timeFieldValue year, timeFieldValue month, timeFieldValue day,
        timeFieldValue hour, timeFieldValue minute, timeFieldValue second, decodeTimeZone zone⟩,
        cursor (passed ++ [year, month, day, hour, minute, second, zone]) rest) := by
  simp [decodeTimePdu, decodeTimeField_cursor]

/-- The octet put last: the time zone over the octet of the year. -/
def SmsTimeAbs.zoneOctet (time : SmsTimeAbs) : UInt8 :=
  (UInt8.ofInt (time.timeZone.tmod 10) <<< 4) + UInt8.ofInt (time.timeZone.tdiv 10) +
    encodeTimeField time.year

/-- The first five octets of a time stamp. -/
def SmsTimeAbs.fields (time : SmsTimeAbs) : List UInt8 :=
  [time.year, time.month, time.day, time.hour, time.minute].map encodeTimeField

/-- East of Greenwich the last octet takes the place of the seconds. -/
theorem encodeTimePdu_absolute (time : SmsTimeAbs) :
    encodeTimePdu (.absolute time) =
      if time.timeZone < 0 then time.fields ++ [encodeTimeField time.second, time.zoneOctet]
      else time.fields ++ [time.zoneOctet] := by
  by_cases h : time.timeZone < 0
  · simp [encodeTimePdu, h, SmsTimeAbs.fields, SmsTimeAbs.zoneOctet]
  · simp [encodeTimePdu, h, SmsTimeAbs.fields, SmsTimeAbs.zoneOctet]

theorem toNat_ofInt (x : Int) : ((UInt8.ofInt x).toNat : Int) = x % 256 := by
  unfold UInt8.ofInt
  rw [UInt8.toNat_ofNat']
  omega

/-- The number in the last octet of a time stamp west of Greenwich, `zone`
quarters of an hour behind. -/
def SmsTimeAbs.zoneNumber (time : SmsTimeAbs) (zone : Int) : Int :=
  (16 * (time.year.toNat % 10) + time.year.toNat / 10 - 16 * (zone % 10) - zone / 10) % 256

theorem SmsTimeAbs.toNat_zoneOctet {time : SmsTimeAbs} (h : time.timeZone < 0) :
    (time.zoneOctet.toNat : Int) = time.zoneNumber (-time.timeZone) := by
  have hmod : time.timeZone.tmod 10 = -(-time.timeZone % 10) := by
    rw [← Int.tmod_eq_emod_of_nonneg (by omega), ← Int.neg_tmod, Int.neg_neg]
  have hdiv : time.timeZone.tdiv 10 = -(-time.timeZone / 10) := by
    rw [← Int.tdiv_eq_ediv_of_nonneg (by omega), ← Int.neg_tdiv, Int.neg_neg]
  have hunits := toNat_ofInt (time.timeZone.tmod 10)
  have htens := toNat_ofInt (time.timeZone.tdiv 10)
  have hshift : (UInt8.ofInt (time.timeZone.tmod 10) <<< 4).toNat =
      16 * (UInt8.ofInt (time.timeZone.tmod 10)).toNat % 256 :=
    Septet.toNat_shiftLeft_ofNat _ (k := 4) (by omega)
  have hyear := toNat_encodeTimeField time.year
  rw [SmsTimeAbs.zoneOctet, UInt8.toNat_add, UInt8.toNat_add, hshift, hyear]
  rw [hmod] at hunits
  rw [hdiv] at htens
  rw [hmod, hdiv]
  unfold SmsTimeAbs.zoneNumber
  omega

/-- The time stamps that come back as they were. -/
structure SmsTimeAbs.Kept (time : SmsTimeAbs) : Prop where
  fields : time.year < 160 ∧ time.month < 160 ∧ time.day < 160 ∧ time.hour < 160 ∧
    time.minute < 160 ∧ time.second < 160
  west : time.timeZone < 0
  zone : 8 ≤ time.zoneNumber (-time.timeZone) % 16 ∧
    10 * (time.zoneNumber (-time.timeZone) % 16 - 8) + time.zoneNumber (-time.timeZone) / 16 =
      -time.timeZone

theorem SmsTimeAbs.decodeTimeZone_zoneOctet {time : SmsTimeAbs} (h : time.timeZone < 0) :
    decodeTimeZone time.zoneOctet = time.timeZone ↔
      8 ≤ time.zoneNumber (-time.timeZone) % 16 ∧
        10 * (time.zoneNumber (-time.timeZone) % 16 - 8) + time.zoneNumber (-time.timeZone) / 16 =
          -time.timeZone := by
  have hoctet := time.toNat_zoneOctet h
  rw [decodeTimeZone_eq]
  split <;> omega

/-- West of Greenwich the seven octets are read, and these time stamps come back. -/
theorem decodeTimePdu_encodeTimePdu {time : SmsTimeAbs} (hwest : time.timeZone < 0)
    (passed rest : List UInt8) :
    ∃ timeStamp, decodeTimePdu (cursor passed (encodeTimePdu (.absolute time) ++ rest)) =
        some (timeStamp, cursor (passed ++ encodeTimePdu (.absolute time)) rest) ∧
      (timeStamp = .absolute time ↔ time.Kept) := by
  rw [encodeTimePdu_absolute, if_pos hwest]
  simp only [SmsTimeAbs.fields, List.map_cons, List.map_nil, List.cons_append, List.nil_append,
    decodeTimePdu_cursor]
  refine ⟨_, rfl, ?_⟩
  have hzone := time.decodeTimeZone_zoneOctet hwest
  obtain ⟨year, month, day, hour, minute, second, timeZone⟩ := time
  simp only [SmsTimeStamp.absolute.injEq, SmsTimeAbs.mk.injEq, timeFieldValue_encodeTimeField]
  constructor
  · rintro ⟨hyear, hmonth, hday, hhour, hminute, hsecond, htz⟩
    exact ⟨⟨hyear, hmonth, hday, hhour, hminute, hsecond⟩, hwest, hzone.mp htz⟩
  · rintro ⟨⟨hyear, hmonth, hday, hhour, hminute, hsecond⟩, -, htz⟩
    exact ⟨hyear, hmonth, hday, hhour, hminute, hsecond, hzone.mpr htz⟩

/-- A date and a time of day, and a zone of up to 79 quarters of an hour. -/
structure SmsTimeAbs.Valid (time : SmsTimeAbs) : Prop where
  year : time.year ≤ 99
  month : 1 ≤ time.month ∧ time.month ≤ 12
  day : 1 ≤ time.day ∧ time.day ≤ 31
  hour : time.hour ≤ 23
  minute : time.minute ≤ 59
  second : time.second ≤ 59
  zone : -79 ≤ time.timeZone ∧ time.timeZone ≤ 79

/-- Two decimal digits as semi-octets, the number on its own. -/
def semiOctets (n : Int) : Int := 16 * (n % 10) + n / 10

/-- An octet stands for `zone` quarters of an hour west of Greenwich when it is that number
with the sign, or when ten of its units are a ten that its tens lack. -/
theorem zoneValue_iff {octet zone : Int} (hoctet : 0 ≤ octet ∧ octet < 256)
    (hzone : 0 ≤ zone ∧ zone ≤ 79) :
    (8 ≤ octet % 16 ∧ 10 * (octet % 16 - 8) + octet / 16 = zone) ↔
      octet = semiOctets zone + 8 ∨ 10 ≤ zone ∧ zone % 10 ≤ 5 ∧ octet = semiOctets zone + 167 := by
  have hdigits : zone = 10 * (zone / 10) + zone % 10 := by omega
  have hnibbles : octet = 16 * (octet / 16) + octet % 16 := by omega
  have hunits : 0 ≤ zone % 10 ∧ zone % 10 ≤ 9 := by omega
  have htens : 0 ≤ zone / 10 ∧ zone / 10 ≤ 7 := by omega
  have hlow : 0 ≤ octet % 16 ∧ octet % 16 ≤ 15 := by omega
  have hhigh : 0 ≤ octet / 16 ∧ octet / 16 ≤ 15 := by omega
  unfold semiOctets
  generalize zone % 10 = units at *
  generalize zone / 10 = tens at *
  generalize octet % 16 = low at *
  generalize octet / 16 = high at *
  constructor
  · rintro ⟨hsign, hvalue⟩
    have hhigh' : high = units ∨ high = units + 10 := by omega
    rcases hhigh' with rfl | rfl
    · exact .inl (by omega)
    · exact .inr ⟨by omega, by omega, by omega⟩
  · rintro (hown | ⟨hten, hfive, hlucky⟩)
    · obtain rfl : high = units := by omega
      exact ⟨by omega, by omega⟩
    · obtain rfl : high = units + 10 := by omega
      exact ⟨by omega, by omega⟩

/-- The years whose octet is what the encoder takes off it and the zone west of Greenwich
together. -/
def YearOfZone (year zone : Int) : Prop :=
  semiOctets year = (2 * semiOctets zone + 8) % 256 ∨
    10 ≤ zone ∧ zone % 10 ≤ 5 ∧ semiOctets year = (2 * semiOctets zone + 167) % 256

instance (year zone : Int) : Decidable (YearOfZone year zone) := inferInstanceAs (Decidable (_ ∨ _))

theorem SmsTimeAbs.zoneNumber_iff {time : SmsTimeAbs} (hyear : time.year ≤ 99) {zone : Int}
    (hzone : 0 ≤ zone ∧ zone ≤ 79) :
    (8 ≤ time.zoneNumber zone % 16 ∧
        10 * (time.zoneNumber zone % 16 - 8) + time.zoneNumber zone / 16 = zone) ↔
      YearOfZone time.year.toNat zone := by
  have hnat : time.year.toNat ≤ 99 := UInt8.le_iff_toNat_le.1 hyear
  have hnumber : time.zoneNumber zone =
      (semiOctets time.year.toNat - semiOctets zone) % 256 := by
    unfold zoneNumber semiOctets
    omega
  have hy : 0 ≤ semiOctets time.year.toNat ∧ semiOctets time.year.toNat < 256 := by
    unfold semiOctets
    omega
  have hz : 0 ≤ semiOctets zone ∧ semiOctets zone ≤ 151 := by
    unfold semiOctets
    omega
  have hlucky : zone % 10 ≤ 5 → semiOctets zone ≤ 87 := by
    unfold semiOctets
    omega
  rw [zoneValue_iff (by omega) hzone, hnumber, YearOfZone]
  generalize semiOctets zone = z at hz hlucky ⊢
  generalize semiOctets time.year.toNat = y at hy ⊢
  constructor
  · rintro (hwest | ⟨hten, hunits, hwest⟩)
    · exact .inl (by omega)
    · have hle := hlucky hunits
      exact .inr ⟨hten, hunits, by omega⟩
  · rintro (hwest | ⟨hten, hunits, hwest⟩)
    · exact .inl (by omega)
    · have hle := hlucky hunits
      exact .inr ⟨hten, hunits, by omega⟩

/-- A time stamp comes back from seven octets when its zone is west of Greenwich and its year
makes up for that. -/
theorem decodeTimePdu_encodeTimePdu_iff {time : SmsTimeAbs} (h : time.Valid)
    (passed rest : List UInt8) :
    ((encodeTimePdu (.absolute time)).length = 7 ∧
        decodeTimePdu (cursor passed (encodeTimePdu (.absolute time) ++ rest)) =
          some (.absolute time, cursor (passed ++ encodeTimePdu (.absolute time)) rest)) ↔
      time.timeZone < 0 ∧ YearOfZone time.year.toNat (-time.timeZone) := by
  by_cases hwest : time.timeZone < 0
  · have hlen : (encodeTimePdu (.absolute time)).length = 7 := by
      simp [encodeTimePdu_absolute, hwest, SmsTimeAbs.fields]
    rcases decodeTimePdu_encodeTimePdu hwest passed rest with ⟨timeStamp, hdecode, hkept⟩
    have hrange : 0 ≤ -time.timeZone ∧ -time.timeZone ≤ 79 := by
      have hle := h.zone.1
      omega
    have hzone := SmsTimeAbs.zoneNumber_iff h.year hrange
    rw [and_iff_right hlen, and_iff_right hwest, hdecode, ← hzone]
    constructor
    · intro heq
      exact (hkept.1 (Prod.mk.inj (Option.some.inj heq)).1).zone
    · intro hz
      have hfield {field bound : UInt8} (hle : field ≤ bound) (hlt : bound < 160) : field < 160 :=
        UInt8.lt_of_le_of_lt hle hlt
      have hall : time.Kept := ⟨⟨hfield h.year (by decide), hfield h.month.2 (by decide),
        hfield h.day.2 (by decide), hfield h.hour (by decide), hfield h.minute (by decide),
        hfield h.second (by decide)⟩, hwest, hz⟩
      rw [hkept.2 hall]
  · have hlen : (encodeTimePdu (.absolute time)).length = 6 := by
      simp [encodeTimePdu_absolute, hwest, SmsTimeAbs.fields]
    exact iff_of_false (fun hback => by omega) fun hcond => hwest hcond.1

/-- A quarter of an hour west of Greenwich, in the year 82. -/
theorem decodeTimePdu_encodeTimePdu_west :
    ((encodeTimePdu (.absolute ⟨82, 1, 2, 3, 4, 5, -1⟩)).length = 7 ∧
        decodeTimePdu (cursor [] (encodeTimePdu (.absolute ⟨82, 1, 2, 3, 4, 5, -1⟩) ++ [])) =
          some (.absolute ⟨82, 1, 2, 3, 4, 5, -1⟩,
            cursor ([] ++ encodeTimePdu (.absolute ⟨82, 1, 2, 3, 4, 5, -1⟩)) [])) ↔
      (-1 : Int) < 0 ∧ YearOfZone (UInt8.toNat 82) (-(-1)) :=
  decodeTimePdu_encodeTimePdu_iff
    ⟨by decide, by decide, by decide, by decide, by decide, by decide, by decide⟩ [] []

/-- Eight hours east of Greenwich there are six octets, and five hours west of it another zone
comes back. -/
theorem not_decodeTimePdu_encodeTimePdu :
    (encodeTimePdu (.absolute ⟨24, 1, 2, 3, 4, 5, 32⟩)).length = 6 ∧
      (decodeTimePdu (cursor [] (encodeTimePdu (.absolute ⟨24, 1, 2, 3, 4, 5, -20⟩)))).map Prod.fst =
        some (.absolute ⟨24, 1, 2, 3, 4, 5, 4⟩) := by
  decide

end TelephonySms.Pdu
