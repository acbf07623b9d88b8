import TelephonySms.Pdu.CodeType
import TelephonySms.Text.Unicode

/-! # The national language of a received message

`ConvertUserPartData` takes the language of the extension table from the first user data
header, as if that were a single-shift element. The headers are a union, so it reads the
octet at the start of whatever element stands first.
-/

namespace TelephonySms.Text

open TelephonySms.Pdu

/-- How the machine lays out a number of two octets. -/
inductive ByteOrder where
  | little
  | big
deriving DecidableEq, Repr

def ByteOrder.firstOctet (order : ByteOrder) (value : UInt16) : UInt8 :=
  match order with
  | .little => value.toUInt8
  | .big => (value >>> 8).toUInt8

/-- The octet at the start of the union, which is also `singleShift.langId`. An element the
decoder does not know leaves it zero. -/
def unionOctet (order : ByteOrder) : SmsUDH → UInt8
  | .concat8Bit msgRef _ _ => msgRef
  | .concat16Bit msgRef _ _ => order.firstOctet msgRef
  | .appPort8Bit destPort _ => destPort
  | .appPort16Bit destPort _ => order.firstOctet destPort
  | .specialSms bStore _ _ => if bStore then 1 else 0
  | .alternateReplyAddress alternateAddress => alternateAddress.ton
  | .singleShift langId => langId
  | .lockingShift langId => langId
  | .other _ => 0

/-- `smsUserData_.header[0].udh.singleShift.langId`, zero without headers. -/
def firstLangId (order : ByteOrder) (header : List SmsUDH) : UInt8 :=
  (header.head?.map (unionOctet order)).getD 0

/-- What `ConvertUserPartData` writes. -/
structure UserPart where
  visibleMessageBody : List UInt8
  rawUserData : List UInt8
  rawWapPushUserData : List UInt8
deriving DecidableEq, Repr

/-- `udl` octets of `ud`, which is zero behind what was copied. -/
def wapPushOctets (tpud : SmsTpud) : List UInt8 :=
  (tpud.ud ++ List.replicate (tpud.udl.toNat - tpud.ud.length) 0).take tpud.udl.toNat

def convertUserPartData (order : ByteOrder) (iconv : Iconv) (euckrToUtf8 : List UInt8 → List UInt8)
    (codingScheme : DataCodingScheme) (smsUserData : SmsUDPackage)
    (smsWapPushUserData : SmsTpud) : UserPart :=
  if smsUserData.data.length = 0 then ⟨[], [], []⟩
  else
    let body :=
      match codingScheme with
      | .dataCoding7Bit =>
          gsm7bitToUtf8 iconv (firstLangId order smsUserData.header) smsUserData.data
      | .dataCodingUcs2 => iconv.utf16ToUtf8 (ucs2Units smsUserData.data)
      | .dataCoding8Bit => smsUserData.data
      | .dataCodingEuckr => euckrToUtf8 smsUserData.data
      | _ => []
    ⟨body, smsUserData.data, wapPushOctets smsWapPushUserData⟩

/-! ## Which table is used -/

/-- The language of the single-shift element, wherever it stands; zero is the default
extension table. -/
def namedLangId (header : List SmsUDH) : UInt8 :=
  (header.findSome? fun element =>
    match element with
    | .singleShift langId => some langId
    | _ => none).getD 0

/-- The table `EscapeToUcs2` selects for a language. -/
def shiftTable (langId : UInt8) : UInt8 := if 1 ≤ langId ∧ langId ≤ 3 then langId else 0

/-- Every decoded 7-bit message with these headers is read with the table its single-shift
element names. -/
def UsesNamedTable (order : ByteOrder) (header : List SmsUDH) : Prop :=
  ∀ (euckrToUtf8 : List UInt8 → List UInt8) (data : List UInt8) (tpud : SmsTpud),
    data.length ≤ 160 → (∀ septet ∈ data, septet < 0x80) →
      (convertUserPartData order utf8Iconv euckrToUtf8 .dataCoding7Bit ⟨header, data⟩
        tpud).visibleMessageBody = gsm7bitToUtf8 utf8Iconv (namedLangId header) data

theorem escapeToUcs2_shiftTable (langId srcText : UInt8) :
    escapeToUcs2 (shiftTable langId) srcText = escapeToUcs2 langId srcText := by
  unfold shiftTable
  split
  · rfl
  · rename_i hother
    have hne : langId ≠ 1 ∧ langId ≠ 2 ∧ langId ≠ 3 := by
      refine ⟨?_, ?_, ?_⟩ <;> rintro rfl <;> exact hother (by decide)
    simp [escapeToUcs2, hne]

theorem gsm7bitToUcs2Loop_shiftTable (langId : UInt8) (result : UInt16) (src : List UInt8) :
    gsm7bitToUcs2Loop (shiftTable langId) result src = gsm7bitToUcs2Loop langId result src := by
  fun_induction gsm7bitToUcs2Loop langId result src with
  | case1 result => rfl
  | case2 result septet hhigh => simp [gsm7bitToUcs2Loop, hhigh]
  | case3 result hlow => simp [gsm7bitToUcs2Loop]
  | case4 result septet hlow hescape => simp [gsm7bitToUcs2Loop, hlow, hescape]
  | case5 result septet next src hhigh => simp [gsm7bitToUcs2Loop, hhigh]
  | case6 result next src hlow ih =>
      rw [gsm7bitToUcs2Loop, if_neg hlow, if_pos rfl, escapeToUcs2_shiftTable, ih]
  | case7 result septet next src hlow hescape ih =>
      rw [gsm7bitToUcs2Loop, if_neg hlow, if_neg hescape, ih]

theorem gsm7bitToUtf8_shiftTable (iconv : Iconv) (langId : UInt8) (src : List UInt8) :
    gsm7bitToUtf8 iconv (shiftTable langId) src = gsm7bitToUtf8 iconv langId src := by
  unfold gsm7bitToUtf8 gsm7bitToUcs2
  rw [gsm7bitToUcs2Loop_shiftTable]

theorem shiftTable_cases (langId : UInt8) :
    shiftTable langId = 0 ∨ shiftTable langId = 1 ∨ shiftTable langId = 2 ∨
      shiftTable langId = 3 := by
  unfold shiftTable
  split
  · rename_i hlang
    simp only [UInt8.le_iff_toNat_le, ← UInt8.toNat_inj] at hlang ⊢
    have hone : (1 : UInt8).toNat = 1 := rfl
    have htwo : (2 : UInt8).toNat = 2 := rfl
    have hthree : (3 : UInt8).toNat = 3 := rfl
    omega
  · exact .inl rfl

/-- Two escapes that are read differently with each of the four tables. -/
def probe : List UInt8 := [0x1B, 0x47, 0x1B, 0x41]

theorem shiftTable_eq_of_probe {langId other : UInt8}
    (h : gsm7bitToUtf8 utf8Iconv langId probe = gsm7bitToUtf8 utf8Iconv other probe) :
    shiftTable langId = shiftTable other := by
  rw [← gsm7bitToUtf8_shiftTable, ← gsm7bitToUtf8_shiftTable utf8Iconv other] at h
  rcases shiftTable_cases langId with ha | ha | ha | ha <;>
    rcases shiftTable_cases other with hb | hb | hb | hb <;>
      rw [ha, hb] at h ⊢ <;> exact absurd h (by decide)

/-- The octet at the start of the first header has to select the table that the
single-shift element names. -/
theorem usesNamedTable_iff (order : ByteOrder) (header : List SmsUDH) :
    UsesNamedTable order header ↔
      shiftTable (firstLangId order header) = shiftTable (namedLangId header) := by
  constructor
  · intro h
    exact shiftTable_eq_of_probe
      (h id probe .zero (by decide) (forall_of_all (by decide)))
  · intro htable euckrToUtf8 data tpud _ _
    unfold convertUserPartData
    split
    · rename_i hempty
      have hdata : data = [] := List.length_eq_zero_iff.1 hempty
      rw [hdata]
      rfl
    · change gsm7bitToUtf8 utf8Iconv (firstLangId order header) data = _
      rw [← gsm7bitToUtf8_shiftTable, htable, gsm7bitToUtf8_shiftTable]

/-- The first part of two with reference 1 is read with the Turkish table. -/
theorem not_usesNamedTable_concat :
    ¬ UsesNamedTable .little [.concat8Bit 1 2 1] := by
  intro h
  have hprobe := h id probe .zero (by decide) (forall_of_all (by decide))
  exact absurd hprobe (by decide)

end TelephonySms.Text
