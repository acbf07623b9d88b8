import TelephonySms.Cdma.Reading

/-! # Records of an alert

The records in the user data of an alert start five bits into an octet. The readers take
what the type of a record asks for and do not look at its length, so the next record is
found only where the two agree.
-/

namespace TelephonySms.Cdma

open TelephonySms.BitStream
open TelephonySms.Pdu
open SmsPduBuffer

/-! ## Readers of a fixed width -/

/-- The reader takes the next `n` bits, and what it returns depends on these bits only. -/
def Takes {α : Type} (n : Nat) (f : SmsPduBuffer → Option (α × SmsPduBuffer)) : Prop :=
  ∀ v : List Bool, v.length = n → ∃ x, ∀ passed rest,
    f (bitCursor passed (v ++ rest)) = some (x, bitCursor (passed ++ v) rest)

namespace Takes

variable {α β : Type} {m n : Nat} {f : SmsPduBuffer → Option (α × SmsPduBuffer)}

theorem pure (x : α) : Takes 0 fun b => some (x, b) := by
  intro v hv
  refine ⟨x, fun passed rest => ?_⟩
  rw [List.eq_nil_of_length_eq_zero hv, List.nil_append, List.append_nil]

theorem bits {l : Nat} (hl : 0 < l) (hle : l ≤ 8) : Takes l fun b => b.readBits l := by
  intro v hv
  obtain ⟨x, hx, hfield⟩ := exists_field (v := v) (by omega)
  rw [hv] at hx hfield
  refine ⟨x, fun passed rest => ?_⟩
  rw [hfield]
  exact readBits_bitCursor passed rest hl hle hx

theorem bind {h : α × SmsPduBuffer → Option (β × SmsPduBuffer)} (hf : Takes m f)
    (hh : ∀ x, Takes n fun b => h (x, b)) : Takes (m + n) fun b => f b >>= h := by
  intro v hv
  obtain ⟨x, hx⟩ := hf (v.take m) (by rw [List.length_take]; omega)
  obtain ⟨y, hy⟩ := hh x (v.drop m) (by rw [List.length_drop]; omega)
  refine ⟨y, fun passed rest => ?_⟩
  have hsplit := List.take_append_drop m v
  rw [← hsplit, List.append_assoc]
  change (f _).bind h = _
  rw [hx, Option.bind_some]
  exact (hy _ rest).trans (by rw [List.append_assoc])

theorem each {l : Nat} (hl : 0 < l) (hle : l ≤ 8) : ∀ n, Takes (l * n) (readEach l n)
  | 0 => pure []
  | n + 1 => by
      have hbits : l * (n + 1) = l + (l * n + 0) := by
        rw [Nat.mul_succ]
        omega
      rw [hbits]
      exact bind (bits hl hle) fun x => bind (each hl hle n) fun xs => pure (x :: xs)

end Takes

section Types

variable (data : SmsTeleSvcCmasData)

theorem takes_twoDigits : Takes 8 readTwoDigits :=
  Takes.bind (n := 4) (.bits (by omega) (by omega)) fun _ =>
    Takes.bind (n := 0) (.bits (by omega) (by omega)) fun _ => .pure _

theorem takes_absTime : Takes 48 decodeAbsTime :=
  Takes.bind (n := 40) takes_twoDigits fun _ => Takes.bind (n := 32) takes_twoDigits fun _ =>
    Takes.bind (n := 24) takes_twoDigits fun _ => Takes.bind (n := 16) takes_twoDigits fun _ =>
      Takes.bind (n := 8) takes_twoDigits fun _ => Takes.bind (n := 0) takes_twoDigits fun _ =>
        .pure _

/-- The length octet and four octets. -/
theorem takes_type1 : Takes 40 (decodeType1Data data) :=
  have octet : Takes 8 fun b => b.readBits 8 := .bits (by omega) (by omega)
  have half : Takes 4 fun b => b.readBits 4 := .bits (by omega) (by omega)
  Takes.bind (n := 32) octet fun _ => Takes.bind (n := 24) octet fun _ =>
    Takes.bind (n := 16) octet fun _ => Takes.bind (n := 12) half fun _ =>
      Takes.bind (n := 8) half fun _ => Takes.bind (n := 4) half fun _ =>
        Takes.bind (n := 0) half fun _ => .pure _

/-- The length octet and ten octets. -/
theorem takes_type2 : Takes 88 (decodeType2Data data) :=
  have octet : Takes 8 fun b => b.readBits 8 := .bits (by omega) (by omega)
  Takes.bind (n := 80) octet fun _ => Takes.bind (n := 72) octet fun _ =>
    Takes.bind (n := 64) octet fun _ => Takes.bind (n := 56) octet fun _ =>
      Takes.bind (n := 8) takes_absTime fun _ => Takes.bind (n := 0) octet fun _ => .pure _

end Types

/-! ## Records -/

/-- The codings of a text in septets. -/
def IsSeptets (encodeType : SmsEncodingType) : Prop :=
  encodeType = .ascii7Bit ∨ encodeType = .ia5 ∨ encodeType = .gsm7Bit

/-- A record with as many octets as its length octet says. -/
structure CmasRecord where
  type : UInt8
  content : List UInt8
  fits : content.length ≤ 255

namespace CmasRecord

def bits (r : CmasRecord) : List Bool :=
  field 8 r.type ++ (field 8 (UInt8.ofNat r.content.length) ++ each 8 r.content)

theorem length_bits (r : CmasRecord) : r.bits.length = 16 + 8 * r.content.length := by
  simp [bits]
  omega

/-- The coding of a text is in its first five bits; without an octet it is read from the type
of the record behind. -/
def coding (r : CmasRecord) (next : Option CmasRecord) : Option SmsEncodingType :=
  match r.content with
  | octet :: _ => some (getEncodingType (octet >>> 3))
  | [] => next.map fun s : CmasRecord => getEncodingType (s.type >>> 3)

/-- The record does not go on behind its octets or end in front of them: a text in septets, or
a record of four or ten octets. -/
def Framed (r : CmasRecord) : Prop :=
  (r.type = 0x00 ∧ r.content.length ≤ 142 ∧
      ∃ encodeType, r.coding none = some encodeType ∧ IsSeptets encodeType) ∨
    (r.type = 0x01 ∧ r.content.length = 4) ∨ (r.type = 0x02 ∧ r.content.length = 10)

/-- A text in this coding is refused for the coding or for its length. -/
def Refuses (r : CmasRecord) : SmsEncodingType → Prop
  | .epm | .gsmDcs => True
  | .ascii7Bit | .ia5 | .gsm7Bit => r.content = [] ∨ 142 < r.content.length
  | _ => 162 < r.content.length

def Refused (r : CmasRecord) (next : Option CmasRecord) : Prop :=
  r.type = 0x00 ∧ ∃ encodeType, r.coding next = some encodeType ∧ r.Refuses encodeType

/-- What the record alone makes of the data of an alert. -/
def stored (r : CmasRecord) (data : SmsTeleSvcCmasData) : SmsTeleSvcCmasData :=
  ((decodeCmasRecord data (bitCursor [] r.bits)).map Prod.fst).getD data

end CmasRecord

/-- Up to the first record that is refused, all records are framed. -/
def FramedUntilRefused : List CmasRecord → Prop
  | [] => True
  | r :: records => r.Refused records.head? ∨ (r.Framed ∧ FramedUntilRefused records)

/-! ## One record -/

section OneRecord

variable {r : CmasRecord} {data : SmsTeleSvcCmasData} {passed rest : List Bool}

theorem field_octet (v : UInt8) : field 8 v = field 5 (v >>> 3) ++ toBits 3 v.toNat := by
  have hshift : (v >>> 3).toNat = v.toNat / 2 ^ 3 := by
    simp [Nat.shiftRight_eq_div_pow]
  rw [field, field, hshift, ← toBits_add]

/-- The type and the length octet are read first. -/
theorem decodeCmasRecord_type (r : CmasRecord) (data : SmsTeleSvcCmasData)
    (passed rest : List Bool) :
    decodeCmasRecord data (bitCursor passed (r.bits ++ rest)) =
      let b := bitCursor (passed ++ field 8 r.type)
        (field 8 (UInt8.ofNat r.content.length) ++ (each 8 r.content ++ rest))
      if r.type = 0x00 then decodeType0Data data b
      else if r.type = 0x01 then decodeType1Data data b
      else if r.type = 0x02 then decodeType2Data data b
      else some (data, b) := by
  rw [decodeCmasRecord, CmasRecord.bits, List.append_assoc, List.append_assoc]
  simp only [readBits_bitCursor_octet, Option.bind_eq_bind, Option.bind_some]

section Text

variable {len v : UInt8} {w : List Bool}

theorem decodeType0Data_septets (data : SmsTeleSvcCmasData) (hv : v.toNat < 2 ^ 5) (hcoding : IsSeptets (getEncodingType v))
    (hlen : len ≠ 0) (hmax : (len.toNat * 8 - 5) / 7 ≤ 161)
    (hw : w.length = len.toNat * 8 - 5) :
    ∃ x, ∀ passed rest,
      decodeType0Data data (bitCursor passed (field 8 len ++ (field 5 v ++ (w ++ rest)))) =
        some (x, bitCursor (passed ++ (field 8 len ++ (field 5 v ++ w))) rest) := by
  obtain ⟨n, hn⟩ : ∃ n, len.toNat * 8 - 5 = n := ⟨_, rfl⟩
  rw [hn] at hmax hw
  have hmod := Nat.mod_lt n (by decide : 0 < 7)
  have hdiv := Nat.div_add_mod n 7
  have hsplit := List.take_append_drop (7 * (n / 7)) w
  obtain ⟨alertText, htext⟩ := Takes.each (by decide : 0 < 7) (by decide) (n / 7)
    (w.take (7 * (n / 7))) (by rw [List.length_take]; omega)
  refine ⟨{ data with alertText := alertText }, fun passed rest => ?_⟩
  have hread : ∀ encodeType, IsSeptets encodeType → getEncodingType v = encodeType →
      decodeType0Data data (bitCursor passed (field 8 len ++ (field 5 v ++ (w ++ rest)))) =
        (readEach 7 (n / 7) (bitCursor (passed ++ (field 8 len ++ field 5 v)) (w ++ rest))).bind
          fun p => if n % 7 = 0 then some ({ data with alertText := p.1 }, p.2)
            else (p.2.readBits (n % 7)).bind fun q =>
              some ({ data with alertText := p.1 }, q.2) := by
    intro encodeType hseptets htype
    rw [decodeType0Data]
    simp only [readBits_bitCursor_octet, Option.bind_eq_bind, Option.bind_some, hn,
      readBits_bitCursor _ _ (by omega : 0 < 5) (by omega) hv, List.append_assoc, htype]
    obtain rfl | rfl | rfl := hseptets <;>
      simp only [hlen, if_false, Nat.not_lt.2 hmax]
  rw [hread _ hcoding rfl, ← hsplit, List.append_assoc, htext, Option.bind_some]
  by_cases hzero : n % 7 = 0
  · have hnil : w.drop (7 * (n / 7)) = [] := List.drop_eq_nil_of_le (by omega)
    rw [if_pos hzero, hnil]
    simp
  · obtain ⟨ignored, hignored⟩ := Takes.bits (Nat.pos_of_ne_zero hzero) (by omega)
      (w.drop (7 * (n / 7))) (by rw [List.length_drop]; omega)
    rw [if_neg hzero]
    dsimp only at hignored ⊢
    rw [hignored]
    simp

/-- A text in octets stops three bits short of its end. -/
theorem decodeType0Data_octets (data : SmsTeleSvcCmasData) (hv : v.toNat < 2 ^ 5) (hepm : getEncodingType v ≠ .epm)
    (hdcs : getEncodingType v ≠ .gsmDcs) (hcoding : ¬ IsSeptets (getEncodingType v))
    (hmax : len.toNat - 1 ≤ 161) (hw : w.length = 8 * (len.toNat - 1)) (passed rest : List Bool) :
    ∃ x, decodeType0Data data (bitCursor passed (field 8 len ++ (field 5 v ++ (w ++ rest)))) =
        some (x, bitCursor (passed ++ (field 8 len ++ (field 5 v ++ w))) rest) := by
  obtain ⟨alertText, htext⟩ := Takes.each (by decide : 0 < 8) (by decide) (len.toNat - 1) w hw
  refine ⟨{ data with alertText := alertText }, ?_⟩
  rw [decodeType0Data]
  simp only [readBits_bitCursor_octet, Option.bind_eq_bind, Option.bind_some,
    readBits_bitCursor _ _ (by omega : 0 < 5) (by omega) hv, List.append_assoc]
  split
  · next h => exact absurd (.inl h) hcoding
  · next h => exact absurd (.inr (.inl h)) hcoding
  · next h => exact absurd (.inr (.inr h)) hcoding
  · next h => exact absurd h hepm
  · next h => exact absurd h hdcs
  · rw [if_neg (Nat.not_lt.2 hmax), htext]
    simp

theorem decodeType0Data_refused (hv : v.toNat < 2 ^ 5)
    (h : match getEncodingType v with
      | .epm | .gsmDcs => True
      | .ascii7Bit | .ia5 | .gsm7Bit => len = 0 ∨ 161 < (len.toNat * 8 - 5) / 7
      | _ => 161 < len.toNat - 1) (passed rest : List Bool) :
    decodeType0Data data (bitCursor passed (field 8 len ++ (field 5 v ++ rest))) = none := by
  rw [decodeType0Data]
  simp only [readBits_bitCursor_octet, Option.bind_eq_bind, Option.bind_some,
    readBits_bitCursor _ _ (by omega : 0 < 5) (by omega) hv, List.append_assoc]
  cases hcode : getEncodingType v with
  | epm => rfl
  | gsmDcs => rfl
  | ascii7Bit | ia5 | gsm7Bit =>
      simp only [hcode] at h ⊢
      split
      · rfl
      · next hlen => rw [if_pos (h.resolve_left hlen)]
  | _ =>
      simp only [hcode] at h ⊢
      rw [if_pos h]

end Text

theorem Takes.of_le {α : Type} {n : Nat} {f : SmsPduBuffer → Option (α × SmsPduBuffer)}
    (h : Takes n f) {w : List Bool} (hw : n ≤ w.length) :
    ∃ x, ∀ passed, f (bitCursor passed w) =
      some (x, bitCursor (passed ++ w.take n) (w.drop n)) := by
  obtain ⟨x, hx⟩ := h (w.take n) (by rw [List.length_take]; omega)
  refine ⟨x, fun passed => ?_⟩
  have hsplit := hx passed (w.drop n)
  rwa [List.take_append_drop] at hsplit

theorem toNat_length (r : CmasRecord) :
    (UInt8.ofNat r.content.length).toNat = r.content.length :=
  ofNat_toNat_of_le r.fits

theorem toNat_coding_lt (v : UInt8) : (v >>> 3).toNat < 2 ^ 5 := by
  have := v.toNat_lt
  simp only [UInt8.toNat_shiftRight, UInt8.reduceToNat, Nat.shiftRight_eq_div_pow,
    Nat.reduceMod, Nat.reducePow]
  omega

/-- The contents of a text, behind its coding. -/
theorem each_cons_octet (octet : UInt8) (more : List UInt8) :
    each 8 (octet :: more) = field 5 (octet >>> 3) ++ (toBits 3 octet.toNat ++ each 8 more) := by
  rw [each_cons, field_octet, List.append_assoc]

/-- A framed record is read from its own bits to its end. -/
theorem exists_of_framed (h : r.Framed) (data : SmsTeleSvcCmasData) :
    ∃ x, ∀ passed rest, decodeCmasRecord data (bitCursor passed (r.bits ++ rest)) =
      some (x, bitCursor (passed ++ r.bits) rest) := by
  have hlen := toNat_length r
  obtain ⟨htype, hmax, encodeType, hcoding, hseptets⟩ | ⟨htype, hfour⟩ | ⟨htype, hten⟩ := h
  · cases hcontent : r.content with
    | nil =>
        rw [CmasRecord.coding, hcontent] at hcoding
        cases hcoding
    | cons octet more =>
        rw [CmasRecord.coding, hcontent] at hcoding
        cases hcoding
        rw [hcontent, List.length_cons] at hmax hlen
        have hne : UInt8.ofNat (more.length + 1) ≠ 0 := by
          intro hzero
          rw [hzero] at hlen
          cases hlen
        obtain ⟨x, hx⟩ := decodeType0Data_septets data (toNat_coding_lt octet) hseptets
          hne (by omega) (w := toBits 3 octet.toNat ++ each 8 more) (by simp; omega)
        refine ⟨x, fun passed rest => ?_⟩
        rw [decodeCmasRecord_type, htype, hcontent, each_cons_octet, List.length_cons]
        simp only [if_true, List.append_assoc] at hx ⊢
        rw [hx]
        simp only [CmasRecord.bits, htype, hcontent, each_cons_octet, List.length_cons,
          List.append_assoc]
  · obtain ⟨x, hx⟩ := takes_type1 data
      (field 8 (UInt8.ofNat r.content.length) ++ each 8 r.content) (by simp [hfour])
    refine ⟨x, fun passed rest => ?_⟩
    rw [decodeCmasRecord_type, htype]
    simp only [List.append_assoc] at hx ⊢
    rw [if_neg (by decide), if_pos trivial, hx]
    simp [CmasRecord.bits, htype]
  · obtain ⟨x, hx⟩ := takes_type2 data
      (field 8 (UInt8.ofNat r.content.length) ++ each 8 r.content) (by simp [hten])
    refine ⟨x, fun passed rest => ?_⟩
    rw [decodeCmasRecord_type, htype]
    simp only [List.append_assoc] at hx ⊢
    rw [if_neg (by decide), if_neg (by decide), if_pos trivial, hx]
    simp [CmasRecord.bits, htype]

theorem decodeCmasRecord_of_framed (h : r.Framed) (data : SmsTeleSvcCmasData)
    (passed rest : List Bool) :
    decodeCmasRecord data (bitCursor passed (r.bits ++ rest)) =
      some (r.stored data, bitCursor (passed ++ r.bits) rest) := by
  obtain ⟨x, hx⟩ := exists_of_framed h data
  have halone := hx [] []
  rw [List.append_nil] at halone
  rw [hx, CmasRecord.stored, halone]
  rfl

theorem position_ne {front front' back back' : List Bool} (h : front.length ≠ front'.length) :
    bitCursor front back ≠ bitCursor front' back' := by
  intro heq
  have hindex := congrArg SmsPduBuffer.index heq
  have hbit := congrArg SmsPduBuffer.bitIndex heq
  simp only [bitCursor_index, bitCursor_bitIndex] at hindex hbit
  omega

/-- The first five bits of a text, its own or those of what follows it. -/
theorem exists_coding {next : Option CmasRecord} {following : List Bool}
    (hnext : ∀ s ∈ next, ∃ more, following = s.bits ++ more) {encodeType : SmsEncodingType}
    (h : r.coding next = some encodeType) :
    ∃ (v : UInt8) (w : List Bool), v.toNat < 2 ^ 5 ∧ getEncodingType v = encodeType ∧
      each 8 r.content ++ following = field 5 v ++ w := by
  cases hcontent : r.content with
  | cons octet more =>
      rw [CmasRecord.coding, hcontent] at h
      cases h
      refine ⟨octet >>> 3, toBits 3 octet.toNat ++ each 8 more ++ following,
        toNat_coding_lt octet, rfl, ?_⟩
      rw [each_cons_octet]
      simp only [List.append_assoc]
  | nil =>
      rw [CmasRecord.coding, hcontent] at h
      obtain ⟨s, hs, rfl⟩ := Option.map_eq_some_iff.1 h
      obtain ⟨more, rfl⟩ := hnext s hs
      refine ⟨s.type >>> 3, toBits 3 s.type.toNat ++
        (field 8 (UInt8.ofNat s.content.length) ++ each 8 s.content) ++ more,
        toNat_coding_lt _, rfl, ?_⟩
      rw [CmasRecord.bits, field_octet s.type]
      simp only [each_nil, List.nil_append, List.append_assoc]

theorem decodeCmasRecord_of_refused {next : Option CmasRecord} {following : List Bool}
    (hnext : ∀ s ∈ next, ∃ more, following = s.bits ++ more) (h : r.Refused next)
    (data : SmsTeleSvcCmasData) (passed : List Bool) :
    decodeCmasRecord data (bitCursor passed (r.bits ++ following)) = none := by
  obtain ⟨htype, encodeType, hcoding, hrefused⟩ := h
  obtain ⟨v, w, hv, rfl, hbits⟩ := exists_coding hnext hcoding
  have hlen := toNat_length r
  rw [decodeCmasRecord_type, htype, hbits]
  dsimp only
  rw [if_pos rfl]
  refine decodeType0Data_refused hv ?_ _ _
  cases hcode : getEncodingType v with
  | epm => trivial
  | gsmDcs => trivial
  | ascii7Bit | ia5 | gsm7Bit =>
      simp only [hcode, CmasRecord.Refuses] at hrefused ⊢
      cases hrefused with
      | inl hempty =>
          left
          rw [hempty]
          rfl
      | inr hlong =>
          right
          omega
  | _ =>
      simp only [hcode, CmasRecord.Refuses] at hrefused ⊢
      omega

/-- A text in octets does not end where its record does. -/
theorem misread_octets {v : UInt8} {w : List Bool} (hv : v.toNat < 2 ^ 5)
    (htype : r.type = 0x00) (hepm : getEncodingType v ≠ .epm) (hdcs : getEncodingType v ≠ .gsmDcs)
    (hcoding : ¬ IsSeptets (getEncodingType v)) (hmax : r.content.length ≤ 162)
    {following : List Bool} (hbits : each 8 r.content ++ following = field 5 v ++ w)
    (data : SmsTeleSvcCmasData) (passed : List Bool) :
    ∃ x b, decodeCmasRecord data (bitCursor passed (r.bits ++ following)) = some (x, b) ∧
      b ≠ bitCursor (passed ++ r.bits) following := by
  have hlen := toNat_length r
  have hlength := congrArg List.length hbits
  simp only [List.length_append, length_each, length_field] at hlength
  have hroom : 8 * ((UInt8.ofNat r.content.length).toNat - 1) ≤ w.length := by omega
  obtain ⟨x, hx⟩ := decodeType0Data_octets data hv hepm hdcs hcoding
    (by omega : (UInt8.ofNat r.content.length).toNat - 1 ≤ 161)
    (w := w.take (8 * ((UInt8.ofNat r.content.length).toNat - 1)))
    (by rw [List.length_take]; omega) (passed ++ field 8 r.type)
    (w.drop (8 * ((UInt8.ofNat r.content.length).toNat - 1)))
  have hread := decodeCmasRecord_type r data passed following
  rw [htype, hbits] at hread
  dsimp only at hread
  rw [if_pos rfl] at hread
  rw [List.take_append_drop, htype] at hx
  refine ⟨x, _, hread.trans hx, position_ne ?_⟩
  simp [r.length_bits]
  omega

/-- The coding of a text that is neither framed nor refused is one of octets. -/
theorem octets_of_misframed {next : Option CmasRecord} {encodeType : SmsEncodingType}
    (hcoding : r.coding next = some encodeType) (htype : r.type = 0x00) (hframed : ¬ r.Framed)
    (hrefused : ¬ r.Refused next) :
    encodeType ≠ .epm ∧ encodeType ≠ .gsmDcs ∧ ¬ IsSeptets encodeType ∧
      r.content.length ≤ 162 := by
  have hkept : ¬ r.Refuses encodeType := fun h => hrefused ⟨htype, encodeType, hcoding, h⟩
  have hseptets : ¬ IsSeptets encodeType := by
    intro hseptets
    have hlong : ¬ (r.content = [] ∨ 142 < r.content.length) := by
      intro h
      obtain rfl | rfl | rfl := hseptets <;> exact hkept h
    rw [not_or] at hlong
    have hown : r.coding none = some encodeType := by
      rw [← hcoding]
      unfold CmasRecord.coding
      cases hcontent : r.content with
      | nil => exact absurd hcontent hlong.1
      | cons octet more => rfl
    exact hframed (.inl ⟨htype, Nat.le_of_not_lt hlong.2, encodeType, hown, hseptets⟩)
  refine ⟨?_, ?_, hseptets, ?_⟩
  · rintro rfl
    exact hkept trivial
  · rintro rfl
    exact hkept trivial
  · by_contra hlong
    cases encodeType with
    | epm | gsmDcs => exact hkept trivial
    | ascii7Bit => exact hseptets (.inl rfl)
    | ia5 => exact hseptets (.inr (.inl rfl))
    | gsm7Bit => exact hseptets (.inr (.inr rfl))
    | _ => exact hkept (Nat.lt_of_not_le hlong)

/-- A record that is neither framed nor refused is read to another place than its end, where
enough bits follow it. -/
theorem misread {next : Option CmasRecord} {following : List Bool}
    (hnext : ∀ s ∈ next, ∃ more, following = s.bits ++ more)
    (hlast : next = none → ∃ more, following = field 5 0 ++ more)
    (hroom : 80 ≤ following.length) (hframed : ¬ r.Framed) (hrefused : ¬ r.Refused next)
    (data : SmsTeleSvcCmasData) (passed : List Bool) :
    ∃ x b, decodeCmasRecord data (bitCursor passed (r.bits ++ following)) = some (x, b) ∧
      b ≠ bitCursor (passed ++ r.bits) following := by
  have hread := decodeCmasRecord_type r data passed following
  dsimp only at hread
  obtain ⟨w, hw⟩ : ∃ w, field 8 (UInt8.ofNat r.content.length) ++
      (each 8 r.content ++ following) = w := ⟨_, rfl⟩
  have hlength : w.length = 8 + 8 * r.content.length + following.length := by
    rw [← hw]
    simp
    omega
  by_cases htype : r.type = 0x00
  · cases hcoding : r.coding next with
    | some encodeType =>
        obtain ⟨hepm, hdcs, hseptets, hmax⟩ := octets_of_misframed hcoding htype hframed hrefused
        obtain ⟨v, w, hv, rfl, hbits⟩ := exists_coding hnext hcoding
        exact misread_octets hv htype hepm hdcs hseptets hmax hbits data passed
    | none =>
        -- An empty text behind which there is no record takes its coding from the padding.
        unfold CmasRecord.coding at hcoding
        split at hcoding
        · cases hcoding
        · next hcontent =>
            obtain ⟨more, hmore⟩ := hlast (Option.map_eq_none_iff.1 hcoding)
            refine misread_octets (v := 0) (w := more) (by decide) htype (by decide) (by decide)
              ?_ (by simp [hcontent]) (by simpa [hcontent] using hmore) data passed
            rintro (h | h | h) <;> cases h
  · by_cases htype1 : r.type = 0x01
    · have hlen : r.content.length ≠ 4 := fun hfour => hframed (.inr (.inl ⟨htype1, hfour⟩))
      obtain ⟨x, hx⟩ := (takes_type1 data).of_le (w := w) (by omega)
      rw [if_neg htype, if_pos htype1, hw, hx] at hread
      refine ⟨x, _, hread, position_ne ?_⟩
      simp [r.length_bits, hlength]
      omega
    · by_cases htype2 : r.type = 0x02
      · have hlen : r.content.length ≠ 10 := fun hten => hframed (.inr (.inr ⟨htype2, hten⟩))
        obtain ⟨x, hx⟩ := (takes_type2 data).of_le (w := w) (by omega)
        rw [if_neg htype, if_neg htype1, if_pos htype2, hw, hx] at hread
        refine ⟨x, _, hread, position_ne ?_⟩
        simp [r.length_bits, hlength]
        omega
      · rw [if_neg htype, if_neg htype1, if_neg htype2] at hread
        refine ⟨data, _, hread, position_ne ?_⟩
        simp [r.length_bits]
        omega

end OneRecord

/-! ## The sub-parameter -/

/-- The user data of an alert whose length fits the length octet. -/
structure CmasUserData where
  fields : UInt8
  records : List CmasRecord
  fits : 3 + (records.flatMap CmasRecord.bits).length / 8 ≤ 255

namespace CmasUserData

/-- The coding, the number of fields and the version of the protocol. -/
def header (u : CmasUserData) : List Bool := field 5 0 ++ (field 8 u.fields ++ field 8 0)

def content (u : CmasUserData) : List Bool := u.header ++ u.records.flatMap CmasRecord.bits

def bits (u : CmasUserData) : List Bool := recordBits 0x01 u.content

/-- Its number of octets. -/
def len (u : CmasUserData) : Nat := 3 + (u.records.flatMap CmasRecord.bits).length / 8

/-- What stands in front of the records. -/
def opening (u : CmasUserData) : List Bool :=
  field 8 0x01 ++ field 8 (UInt8.ofNat u.len) ++ u.header

/-- The buffer in front of the record with index `n`. -/
def atRecord (u : CmasUserData) (passed rest : List Bool) (n : Nat) : SmsPduBuffer :=
  bitCursor (passed ++ u.opening ++ (u.records.take n).flatMap CmasRecord.bits)
    ((u.records.drop n).flatMap CmasRecord.bits ++ (pad 5 ++ rest))

/-- The index the loop of `Decode` runs up to. -/
def stop (u : CmasUserData) (passed : List Bool) : Nat := passed.length / 8 + 2 + u.len - 1

/-- After every round the decoder has taken `16 + 8 * len` bits for each record and stored what
the record alone says, and where it succeeds it stops at the end. -/
structure KeepsFraming (u : CmasUserData) : Prop where
  consumes : ∀ (passed rest : List Bool) (n : Nat) (data : SmsTeleSvcCmasData) (b : SmsPduBuffer),
    passed.length % 8 = 0 → n ≤ u.records.length →
      decodeCmasLoop (u.stop passed) n .zero (u.atRecord passed rest 0) = some (data, b) →
        b = u.atRecord passed rest n ∧
          data = (u.records.take n).foldl (fun data r => r.stored data) .zero
  ends : ∀ (passed rest : List Bool) (data : SmsTeleSvcCmasData) (b : SmsPduBuffer),
    passed.length % 8 = 0 → decodeCmasData (bitCursor passed (u.bits ++ rest)) = some (data, b) →
      b = bitCursor (passed ++ u.bits) rest ∧
        data = u.records.foldl (fun data r => r.stored data) .zero

end CmasUserData

section Loop

variable {records : List CmasRecord} {stop : Nat} {passed tail : List Bool}
  {data : SmsTeleSvcCmasData}

theorem length_flatMap_cmasBits_mod (records : List CmasRecord) :
    (records.flatMap CmasRecord.bits).length % 8 = 0 := by
  induction records with
  | nil => rfl
  | cons r records ih =>
      rw [List.flatMap_cons, List.length_append, r.length_bits]
      omega

theorem length_le_flatMap_cmasBits (records : List CmasRecord) :
    16 * records.length ≤ (records.flatMap CmasRecord.bits).length := by
  induction records with
  | nil => simp
  | cons r records ih =>
      rw [List.flatMap_cons, List.length_append, r.length_bits, List.length_cons]
      omega

theorem decodeCmasLoop_add (stop m n : Nat) (data : SmsTeleSvcCmasData) (b : SmsPduBuffer) :
    decodeCmasLoop stop (m + n) data b =
      (decodeCmasLoop stop m data b).bind fun p => decodeCmasLoop stop n p.1 p.2 := by
  induction m generalizing data b with
  | zero => simp [decodeCmasLoop]
  | succ m ih =>
      rw [Nat.add_right_comm, decodeCmasLoop, decodeCmasLoop]
      split
      · simp only [Option.bind_eq_bind, Option.bind_assoc, ih]
      · next hstop =>
          cases n with
          | zero => rfl
          | succ n =>
              rw [Option.bind_some, decodeCmasLoop, if_neg hstop]

theorem exists_of_mem_head? (records : List CmasRecord) (tail : List Bool) :
    ∀ s ∈ records.head?, ∃ more, records.flatMap CmasRecord.bits ++ tail = s.bits ++ more := by
  intro s hs
  cases records with
  | nil => cases hs
  | cons r records =>
      cases hs
      exact ⟨records.flatMap CmasRecord.bits ++ tail, by simp⟩

/-- Rounds over framed records, and the end of the loop at the first that is refused. -/
theorem decodeCmasLoop_of_framedUntilRefused (h : FramedUntilRefused records)
    (hstop : 8 * stop + 5 = passed.length + (records.flatMap CmasRecord.bits).length) {n : Nat}
    {data' : SmsTeleSvcCmasData} {b : SmsPduBuffer}
    (hrun : decodeCmasLoop stop n data
      (bitCursor passed (records.flatMap CmasRecord.bits ++ tail)) = some (data', b)) :
    b = bitCursor (passed ++ (records.take n).flatMap CmasRecord.bits)
        ((records.drop n).flatMap CmasRecord.bits ++ tail) ∧
      data' = (records.take n).foldl (fun data r => r.stored data) data := by
  induction records generalizing n passed data with
  | nil =>
      have hend : ¬ (bitCursor passed (List.flatMap CmasRecord.bits [] ++ tail)).index < stop := by
        rw [bitCursor_index]
        simp only [List.flatMap_nil, List.length_nil] at hstop
        omega
      cases n with
      | zero =>
          cases hrun
          simp
      | succ n =>
          rw [decodeCmasLoop, if_neg hend] at hrun
          cases hrun
          simp
  | cons r records ih =>
      cases n with
      | zero =>
          cases hrun
          simp
      | succ n =>
          rw [List.flatMap_cons, List.length_append, r.length_bits] at hstop
          have hmore : (bitCursor passed
              (List.flatMap CmasRecord.bits (r :: records) ++ tail)).index < stop := by
            rw [bitCursor_index]
            omega
          rw [decodeCmasLoop, if_pos hmore, List.flatMap_cons, List.append_assoc] at hrun
          cases h with
          | inl hrefused =>
              rw [decodeCmasRecord_of_refused (exists_of_mem_head? records tail) hrefused] at hrun
              cases hrun
          | inr hframed =>
              rw [decodeCmasRecord_of_framed hframed.1] at hrun
              obtain ⟨hb, hdata⟩ := ih hframed.2
                (by rw [List.length_append, r.length_bits]; omega) hrun
              refine ⟨?_, by simpa using hdata⟩
              rw [hb, List.take_succ_cons, List.flatMap_cons, List.drop_succ_cons,
                List.append_assoc]

/-- Rounds over framed records go through. -/
theorem decodeCmasLoop_of_framed (data : SmsTeleSvcCmasData) (tail : List Bool)
    (h : ∀ r ∈ records, r.Framed)
    (hstop : passed.length + (records.flatMap CmasRecord.bits).length ≤ 8 * stop + 5) :
    ∃ data', decodeCmasLoop stop records.length data
      (bitCursor passed (records.flatMap CmasRecord.bits ++ tail)) =
        some (data', bitCursor (passed ++ records.flatMap CmasRecord.bits) tail) := by
  induction records generalizing passed data with
  | nil => exact ⟨data, by simp [decodeCmasLoop]⟩
  | cons r records ih =>
      rw [List.flatMap_cons, List.length_append, r.length_bits] at hstop
      have hmore : (bitCursor passed
          (List.flatMap CmasRecord.bits (r :: records) ++ tail)).index < stop := by
        rw [bitCursor_index]
        omega
      obtain ⟨data', hrun⟩ := @ih (passed ++ r.bits) (r.stored data)
        (fun s hs => h s (List.mem_cons_of_mem r hs))
        (by rw [List.length_append, r.length_bits]; omega)
      refine ⟨data', ?_⟩
      rw [List.length_cons, decodeCmasLoop, if_pos hmore, List.flatMap_cons, List.append_assoc,
        decodeCmasRecord_of_framed (h r List.mem_cons_self)]
      exact hrun.trans (by rw [List.append_assoc])

end Loop

section Decoding

variable (u : CmasUserData) {passed : List Bool} (rest : List Bool)

theorem CmasUserData.length_content :
    u.content.length = 21 + (u.records.flatMap CmasRecord.bits).length := by
  simp [CmasUserData.content, CmasUserData.header]
  omega

theorem CmasUserData.bits_eq :
    u.bits = field 8 0x01 ++ (field 8 (UInt8.ofNat u.len) ++ (u.header ++
      (u.records.flatMap CmasRecord.bits ++ pad 5))) := by
  have hmod := length_flatMap_cmasBits_mod u.records
  have hlen : (u.content.length + 7) / 8 = u.len := by
    rw [u.length_content, CmasUserData.len]
    omega
  have hpad : pad u.content.length = pad 5 := pad_congr (by rw [u.length_content]; omega)
  rw [CmasUserData.bits, recordBits, hlen, hpad, CmasUserData.content, List.append_assoc]

theorem CmasUserData.atRecord_zero :
    u.atRecord passed rest 0 =
      bitCursor (passed ++ u.opening) (u.records.flatMap CmasRecord.bits ++ (pad 5 ++ rest)) := by
  simp [CmasUserData.atRecord]

theorem CmasUserData.atRecord_end :
    u.atRecord passed rest u.records.length =
      bitCursor (passed ++ u.opening ++ u.records.flatMap CmasRecord.bits) (pad 5 ++ rest) := by
  rw [CmasUserData.atRecord, List.take_length, List.drop_length]
  rfl

/-- `Decode` is the loop from the first record on, and the skip behind it. -/
theorem decodeCmasData_eq (hpassed : passed.length % 8 = 0) :
    decodeCmasData (bitCursor passed (u.bits ++ rest)) =
      (decodeCmasLoop (u.stop passed) (u.atRecord passed rest 0).getSize .zero
        (u.atRecord passed rest 0)).map fun p => (p.1, p.2.skipBits) := by
  have hlen : (UInt8.ofNat u.len).toNat = u.len := ofNat_toNat_of_le u.fits
  have hindex : (passed.length + (8 + 8)) / 8 + u.len - 1 = u.stop passed := by
    unfold CmasUserData.stop
    omega
  have hzero : getEncodingType 0 = .octet := rfl
  rw [u.atRecord_zero, u.bits_eq, decodeCmasData, readRecord, readIdLen]
  simp only [CmasUserData.opening, CmasUserData.header, List.append_assoc, readByte_bitCursor, Option.bind_eq_bind,
    Option.bind_some, if_true, bitCursor_index, List.length_append, length_field, hlen, hindex,
    readBits_bitCursor _ _ (by omega : 0 < 5) (by omega) (by decide : (0 : UInt8).toNat < 2 ^ 5),
    readBits_bitCursor_octet, hzero, ne_eq, not_true_eq_false, if_false]
  cases decodeCmasLoop _ _ _ _ <;> rfl

theorem skipBits_atRecord_end (hpassed : passed.length % 8 = 0) :
    (u.atRecord passed rest u.records.length).skipBits = bitCursor (passed ++ u.bits) rest := by
  have hmod := length_flatMap_cmasBits_mod u.records
  rw [u.atRecord_end, u.bits_eq, skipBits_bitCursor]
  · simp only [CmasUserData.opening, List.append_assoc]
  · simp only [CmasUserData.opening, CmasUserData.header, List.length_append, length_field]
    omega

theorem length_le_getSize (passed : List Bool) :
    u.records.length ≤ (u.atRecord passed rest 0).getSize := by
  have hle := length_le_flatMap_cmasBits u.records
  rw [u.atRecord_zero]
  simp only [getSize, bitCursor_data, length_octets, List.length_append]
  omega

theorem stop_eq (hpassed : passed.length % 8 = 0) :
    8 * u.stop passed + 5 =
      (passed ++ u.opening).length + (u.records.flatMap CmasRecord.bits).length := by
  have hmod := length_flatMap_cmasBits_mod u.records
  simp only [CmasUserData.stop, CmasUserData.len, CmasUserData.opening, CmasUserData.header,
    List.length_append, length_field]
  omega

variable {u}

theorem keepsFraming_of_framedUntilRefused (h : FramedUntilRefused u.records) :
    u.KeepsFraming := by
  have hloop : ∀ (passed rest : List Bool) (n : Nat) (data : SmsTeleSvcCmasData)
      (b : SmsPduBuffer), passed.length % 8 = 0 →
        decodeCmasLoop (u.stop passed) n .zero (u.atRecord passed rest 0) = some (data, b) →
          b = u.atRecord passed rest n ∧
            data = (u.records.take n).foldl (fun data r => r.stored data) .zero := by
    intro passed rest n data b hpassed hrun
    rw [u.atRecord_zero] at hrun
    exact decodeCmasLoop_of_framedUntilRefused h (stop_eq u hpassed) hrun
  refine ⟨fun passed rest n data b hpassed _ => hloop passed rest n data b hpassed,
    fun passed rest data b hpassed hdecode => ?_⟩
  rw [decodeCmasData_eq u rest hpassed] at hdecode
  obtain ⟨⟨data', b'⟩, hrun, heq⟩ := Option.map_eq_some_iff.1 hdecode
  cases heq
  obtain ⟨rfl, rfl⟩ := hloop passed rest _ data' b' hpassed hrun
  have hsize := length_le_getSize u rest passed
  have hall : u.atRecord passed rest (u.atRecord passed rest 0).getSize =
      u.atRecord passed rest u.records.length := by
    rw [CmasUserData.atRecord, List.take_of_length_le hsize, List.drop_of_length_le hsize,
      u.atRecord_end]
    rfl
  refine ⟨?_, by rw [List.take_of_length_le hsize]⟩
  dsimp only
  rw [hall, skipBits_atRecord_end u rest hpassed]

/-- After framed records comes one that is framed or refused. -/
theorem framedUntilRefused_of_consumes (h : u.KeepsFraming) {front back : List CmasRecord}
    (hrecords : u.records = front ++ back) (hfront : ∀ r ∈ front, r.Framed) :
    FramedUntilRefused back := by
  induction back generalizing front with
  | nil => trivial
  | cons r back ih =>
      by_cases hrefused : r.Refused back.head?
      · exact .inl hrefused
      · by_cases hframed : r.Framed
        · refine .inr ⟨hframed, ih (by simp [hrecords] : u.records = (front ++ [r]) ++ back) ?_⟩
          intro s hs
          cases List.mem_append.1 hs with
          | inl hs => exact hfront s hs
          | inr hs =>
              rw [List.mem_singleton.1 hs]
              exact hframed
        · exfalso
          -- Zeros behind the sub-parameter let every reader go on.
          let rest : List Bool := List.replicate 80 false
          let tail := back.flatMap CmasRecord.bits ++ (pad 5 ++ rest)
          have hpad : pad 5 ++ rest = field 5 0 ++ List.replicate 78 false := by decide
          have hstop := stop_eq u (rfl : ([] : List Bool).length % 8 = 0)
          simp only [hrecords, List.flatMap_append, List.flatMap_cons, List.length_append,
            r.length_bits, List.nil_append] at hstop
          have hfits : u.opening.length + (front.flatMap CmasRecord.bits).length ≤
              8 * u.stop [] + 5 := by omega
          obtain ⟨data, hrun⟩ := decodeCmasLoop_of_framed .zero (r.bits ++ tail) hfront hfits
          have hnext : ∀ s ∈ back.head?, ∃ more, tail = s.bits ++ more :=
            exists_of_mem_head? back (pad 5 ++ rest)
          obtain ⟨x, b, hread, hne⟩ := misread hnext
            (fun hnone => ⟨List.replicate 78 false, by
              simp only [tail]
              rw [List.head?_eq_none_iff.1 hnone, List.flatMap_nil, List.nil_append, hpad]⟩)
            (by simp [tail, rest]) hframed hrefused data
            (u.opening ++ front.flatMap CmasRecord.bits)
          have hmore : (bitCursor (u.opening ++ front.flatMap CmasRecord.bits)
              (r.bits ++ tail)).index < u.stop [] := by
            rw [bitCursor_index, List.length_append]
            omega
          have hstart : u.atRecord [] rest 0 =
              bitCursor u.opening (front.flatMap CmasRecord.bits ++ (r.bits ++ tail)) := by
            rw [u.atRecord_zero, hrecords]
            simp [tail]
          have hround : decodeCmasLoop (u.stop []) (front.length + 1) .zero
              (u.atRecord [] rest 0) = some (x, b) := by
            rw [decodeCmasLoop_add, hstart, hrun, Option.bind_some, decodeCmasLoop, if_pos hmore,
              hread]
            rfl
          have hexact := (h.consumes [] rest (front.length + 1) x b rfl
            (by simp [hrecords]) hround).1
          refine hne (hexact.trans ?_)
          have htake : front.take (front.length + 1) = front := List.take_of_length_le (by omega)
          have hdrop : front.drop (front.length + 1) = [] := List.drop_of_length_le (by omega)
          rw [CmasUserData.atRecord, hrecords, List.take_append, List.drop_append, htake, hdrop]
          simp [tail]

/-- The framing of an alert is kept where every record up to the first that is refused is a
text in septets, or has the length that the reader of its type takes. -/
theorem keepsFraming_iff (u : CmasUserData) :
    u.KeepsFraming ↔ FramedUntilRefused u.records :=
  ⟨fun h => framedUntilRefused_of_consumes h (List.nil_append _).symm (by simp),
    keepsFraming_of_framedUntilRefused⟩

/-- A text of one octet, and the fields of the alert behind it. -/
theorem not_keepsFraming_octets :
    ¬ (⟨0, [⟨0x00, [0x02, 0x08], by decide⟩, ⟨0x01, [0x03, 0x01, 0x11, 0x10], by decide⟩],
      by decide⟩ : CmasUserData).KeepsFraming := by
  intro h
  cases framedUntilRefused_of_consumes h (List.nil_append _).symm (by simp) with
  | inl hrefused =>
      obtain ⟨-, encodeType, hencode, hrefuses⟩ := hrefused
      cases (show some SmsEncodingType.octet = some encodeType from hencode)
      exact absurd hrefuses (by unfold CmasRecord.Refuses; decide)
  | inr hframed =>
      obtain ⟨-, -, encodeType, hencode, hseptets⟩ | ⟨htype, -⟩ | ⟨htype, -⟩ := hframed.1
      · cases (show some SmsEncodingType.octet = some encodeType from hencode)
        obtain h | h | h := hseptets <;> cases h
      · cases htype
      · cases htype

end Decoding

end TelephonySms.Cdma
