import TelephonySms.Pdu.Frame
import TelephonySms.Pdu.ParamRoundTrip

/-! # Status reports

With the header flag the first octet of a status report stays and carries the
flag for more messages, which the decoder reads the other way round. Without
it the message reference is written over the first octet, and the decoder looks
for the address one octet late.
-/

namespace TelephonySms.Pdu

open SmsPduBuffer

/-! ## Layout -/

/-- The octet `EncodeStatusReportPdu` makes of the flags before the header flag. -/
def statusReportType (pStatusRep : SmsStatusReport) : UInt8 :=
  0x02 ||| (if pStatusRep.bMoreMsg then 0x04 else 0) |||
    (if pStatusRep.bStatusReport then 0x20 else 0)

/-- What stands before the address. -/
def statusReportLead (pStatusRep : SmsStatusReport) : List UInt8 :=
  if pStatusRep.bHeaderInd then [statusReportType pStatusRep ||| 0x40, pStatusRep.msgRef]
  else [pStatusRep.msgRef]

theorem encodeStatusReportPdu_lead {pStatusRep : SmsStatusReport} {b : SmsPduBuffer}
    {rest : List UInt8}
    (h : encodeStatusReportPdu (cursor [] (0 :: 0 :: rest)) pStatusRep = some b) :
    ∃ address c d, encodeAddressPdu pStatusRep.recipAddress = some address ∧
      copyOctets address (cursor (statusReportLead pStatusRep)
        (if pStatusRep.bHeaderInd then rest else 0 :: rest)) = some c ∧
      copyOctets (encodeTimePdu pStatusRep.timeStamp) c = some d ∧
      ∀ front, Keeps front d → Keeps front b := by
  have hfirst : (cursor [] (0 :: 0 :: rest)).insertByte 0x02 0 =
      some (cursor [] (0x02 :: 0 :: rest)) := insertByte_cursor_index [] _ 0x02 0
  simp only [encodeStatusReportPdu, cursor_index, List.length_nil, hfirst, Option.bind_eq_bind,
    Option.bind_some, insertFlag_cursor, getTopValue_cursor_cons, writeByte_cursor_cons,
    List.nil_append] at h
  obtain ⟨address, haddress, c, hc, d, hd, e, he, f, hf, g, hg, h⟩ : ∃ address,
      encodeAddressPdu pStatusRep.recipAddress = some address ∧
      ∃ c, copyOctets address (cursor (statusReportLead pStatusRep)
        (if pStatusRep.bHeaderInd then rest else 0 :: rest)) = some c ∧
      ∃ d, copyOctets (encodeTimePdu pStatusRep.timeStamp) c = some d ∧
      ∃ e, copyOctets (stringOctets (encodeTimePdu pStatusRep.dischargeTime)
        (encodeTimePdu pStatusRep.timeStamp).length) d = some e ∧
      ∃ f, e.writeByte pStatusRep.status = some f ∧
      ∃ g, f.writeByte pStatusRep.paramInd = some g ∧ _ := by
    cases hind : pStatusRep.bHeaderInd with
    | true =>
        simp only [hind, if_true, Option.bind_eq_some_iff] at h
        simp only [statusReportLead, hind, if_true]
        exact h
    | false =>
        simp only [hind, Bool.false_eq_true, if_false, Option.bind_eq_some_iff] at h
        simp only [statusReportLead, hind, Bool.false_eq_true, if_false]
        exact h
  refine ⟨address, c, d, haddress, hc, hd, fun front hfront => ?_⟩
  have hg' := ((hfront.copyOctets he).writeByte hf).writeByte hg
  have hdata (i : SmsPduBuffer) (hi : Keeps front i)
      (h : (if pStatusRep.paramInd &&& 4 ≠ 0 then
        encodeUserDataPdu i pStatusRep.userData pStatusRep.dcs.codingScheme [] else none) = some b) :
      Keeps front b := by
    split at h
    · exact hi.encodeUserDataPdu h
    · simp at h
  have hscheme (i : SmsPduBuffer) (hi : Keeps front i)
      (h : (if pStatusRep.paramInd &&& 2 ≠ 0 then
        (encodeDCS pStatusRep.dcs).bind fun dcs =>
          (copyOctets (stringOctets dcs (encodeTimePdu pStatusRep.timeStamp).length) i).bind fun b =>
            if pStatusRep.paramInd &&& 4 ≠ 0 then
              encodeUserDataPdu b pStatusRep.userData pStatusRep.dcs.codingScheme [] else none
        else if pStatusRep.paramInd &&& 4 ≠ 0 then
          encodeUserDataPdu i pStatusRep.userData pStatusRep.dcs.codingScheme [] else none) =
        some b) : Keeps front b := by
    split at h
    · obtain ⟨dcs, -, h⟩ := Option.bind_eq_some_iff.mp h
      obtain ⟨j, hj, h⟩ := Option.bind_eq_some_iff.mp h
      exact hdata j (hi.copyOctets hj) h
    · exact hdata i hi h
  split at h
  · obtain ⟨i, hi, h⟩ := Option.bind_eq_some_iff.mp h
    exact hscheme i (hg'.writeByte hi) h
  · exact hscheme g hg' h

/-- The octets of a status report start with the lead and the address. -/
theorem encodeSmsPdu_statusRep_front {pStatusRep : SmsStatusReport} {pduLen : Nat}
    {octets : List UInt8} (h : encodeSmsPdu (.statusRep pStatusRep) pduLen = some octets) :
    octets.length ≤ 255 ∧ ∃ address, encodeAddressPdu pStatusRep.recipAddress = some address ∧
      statusReportLead pStatusRep ++ address <+: octets := by
  obtain ⟨b, hb, -, -, hle, hmax, rfl⟩ := encodeSmsPdu_eq_some h
  obtain ⟨rest, hrest, hnew⟩ : ∃ rest, rest.length = 254 ∧ new = cursor [] (0 :: 0 :: rest) :=
    ⟨List.replicate 254 0, List.length_replicate, rfl⟩
  simp only [encodeTpdu, hnew] at hb
  obtain ⟨address, c, d, haddress, hc, hd, hkeeps⟩ := encodeStatusReportPdu_lead hb
  obtain ⟨hne, hfit⟩ := copyOctets_eq_some hc
  rw [cursor_index, cursor_getSize] at hfit
  rw [copyOctets_cursor _ _ _ hne (by omega), Option.some.injEq] at hc
  subst hc
  obtain ⟨hne', hfit'⟩ := copyOctets_eq_some hd
  rw [cursor_index, cursor_getSize] at hfit'
  rw [copyOctets_cursor _ _ _ hne' (by omega), Option.some.injEq] at hd
  subst hd
  have hsize : (statusReportLead pStatusRep).length +
      (if pStatusRep.bHeaderInd then rest else 0 :: rest).length = 256 := by
    unfold statusReportLead
    split <;> simp [hrest]
  have hpos := List.length_pos_iff.mpr hne'
  have hkept := hkeeps (statusReportLead pStatusRep ++ address)
    ⟨by simp, by simp only [cursor_index, List.length_append]; omega, by simp, by
      simp only [List.length_drop] at hfit'
      simp only [cursor_data, List.length_append, List.length_drop] at hfit hfit' ⊢
      omega⟩
  refine ⟨by rw [List.length_take]; omega, address, haddress, ?_⟩
  exact List.prefix_take_iff.mpr ⟨hkept.kept, Nat.le_of_lt hkept.lt⟩

/-! ## Round trip -/

/-- The parameters of a status report that a round trip should keep. -/
structure SameStatusReport (pStatusRep statusRep : SmsStatusReport) : Prop where
  bMoreMsg : statusRep.bMoreMsg = pStatusRep.bMoreMsg
  bStatusReport : statusRep.bStatusReport = pStatusRep.bStatusReport
  msgRef : statusRep.msgRef = pStatusRep.msgRef
  recipAddress : statusRep.recipAddress = pStatusRep.recipAddress
  timeStamp : statusRep.timeStamp = pStatusRep.timeStamp
  dischargeTime : statusRep.dischargeTime = pStatusRep.dischargeTime
  status : statusRep.status = pStatusRep.status
  userData : statusRep.userData = pStatusRep.userData

/-- The octets decode to a status report with the same parameters. -/
def StatusReportRoundTrip (coder : TextCoder) (pStatusRep : SmsStatusReport)
    (octets : List UInt8) : Prop :=
  ∃ statusRep, decodeSmsPdu coder octets = some (.statusRep statusRep) ∧
    SameStatusReport pStatusRep statusRep

theorem decodeTpdu_statusRep {coder : TextCoder} {mti : UInt8} {b b' : SmsPduBuffer}
    {statusRep : SmsStatusReport}
    (h : decodeTpdu coder mti b = some (.statusRep statusRep, b')) :
    decodeStatusReport coder b = some (statusRep, b') := by
  unfold decodeTpdu at h
  split at h
  · obtain ⟨_, -, h⟩ := Option.bind_eq_some_iff.mp h
    cases h
  split at h
  · obtain ⟨⟨statusRep', b''⟩, hreport, h⟩ := Option.bind_eq_some_iff.mp h
    cases h
    exact hreport
  · obtain ⟨_, -, h⟩ := Option.bind_eq_some_iff.mp h
    cases h

theorem decodeStatusReportData_eq_some {coder : TextCoder} {b b' : SmsPduBuffer}
    {statusRep result : SmsStatusReport}
    (h : decodeStatusReportData coder b statusRep = some (result, b')) :
    result.bMoreMsg = statusRep.bMoreMsg ∧ result.recipAddress = statusRep.recipAddress := by
  by_cases hpid : statusRep.paramInd &&& 0x01 ≠ 0 <;>
    by_cases hdcs : statusRep.paramInd &&& 0x02 ≠ 0 <;>
    by_cases hdata : statusRep.paramInd &&& 0x04 ≠ 0 <;>
    simp only [decodeStatusReportData, hpid, hdcs, hdata, not_false_eq_true, if_true, if_false,
      ne_eq, Option.bind_eq_bind, Option.bind_some, Option.bind_eq_some_iff, Prod.exists,
      Option.some.injEq, Prod.mk.injEq] at h <;>
    grind

/-- The first two octets of a status report and its address decide what its
flag for more messages and its address are. -/
theorem decodeStatusReport_eq_some {coder : TextCoder} {v w : UInt8} {xs : List UInt8}
    {statusRep : SmsStatusReport} {b : SmsPduBuffer}
    (h : decodeStatusReport coder (cursor [] (v :: w :: xs)) = some (statusRep, b)) :
    statusRep.bMoreMsg = decide (v &&& 0x04 = 0) ∧
      ∃ c, decodeAddressPdu coder (cursor [v, w] xs) = some (statusRep.recipAddress, c) := by
  simp only [decodeStatusReport, readByte_cursor_cons, List.nil_append, Option.bind_eq_bind,
    Option.bind_some, Option.bind_eq_some_iff, Prod.exists] at h
  obtain ⟨num, c, hc, _, _, -, _, _, -, _, d, -, h⟩ := h
  split at h
  · cases h
    exact ⟨rfl, c, hc⟩
  · obtain ⟨hmore, haddress⟩ := decodeStatusReportData_eq_some h
    exact ⟨hmore, c, haddress ▸ hc⟩

/-- A decoded address has a type below eight and no numbering plan. -/
theorem decodeAddressPdu_ton {coder : TextCoder} {b b' : SmsPduBuffer} {num : AddressNumber}
    (h : decodeAddressPdu coder b = some (num, b')) : num.ton < 8 ∧ num.npi = 0 := by
  obtain ⟨⟨addrLen, c⟩, -, h⟩ := Option.bind_eq_some_iff.mp h
  simp only at h
  split at h
  · simp at h
  obtain ⟨oneByte, -, h⟩ := Option.bind_eq_some_iff.mp h
  have hton : (oneByte &&& 0x70) >>> 4 < 8 := by
    rw [UInt8.lt_iff_toNat_lt, toNat_tonBits]
    exact Nat.mod_lt _ (by decide)
  split at h
  · obtain ⟨⟨address, d⟩, -, h⟩ := Option.bind_eq_some_iff.mp h
    cases h
    exact ⟨hton, rfl⟩
  split at h
  · obtain ⟨⟨address, d⟩, -, h⟩ := Option.bind_eq_some_iff.mp h
    cases h
    exact ⟨hton, rfl⟩
  · obtain ⟨⟨address, d⟩, -, h⟩ := Option.bind_eq_some_iff.mp h
    cases h
    exact ⟨hton, rfl⟩

theorem encodeAddressPdu_head {num : AddressNumber} {octets : List UInt8}
    (h : encodeAddressPdu num = some octets) :
    ∃ bcd, octets = UInt8.ofNat num.dialled.length :: num.typeOctet :: bcd := by
  unfold encodeAddressPdu at h
  split at h
  · simp at h
  · obtain ⟨bcd, -, h⟩ := Option.bind_eq_some_iff.mp h
    split at h
    · simp at h
    · cases h
      exact ⟨bcd, rfl⟩

theorem statusReportType_moreMsg (pStatusRep : SmsStatusReport) :
    (statusReportType pStatusRep ||| 0x40) &&& 0x04 = 0 ↔ pStatusRep.bMoreMsg = false := by
  unfold statusReportType
  cases pStatusRep.bMoreMsg <;> cases pStatusRep.bStatusReport <;> decide

/-- No status report comes back from the octets it is encoded to. -/
theorem statusReport_not_roundTrip (coder : TextCoder) (pStatusRep : SmsStatusReport)
    (pduLen : Nat) (octets : List UInt8)
    (h : encodeSmsPdu (.statusRep pStatusRep) pduLen = some octets) :
    ¬ StatusReportRoundTrip coder pStatusRep octets := by
  rintro ⟨statusRep, hdecode, hsame⟩
  obtain ⟨hmax, address, haddress, more, rfl⟩ := encodeSmsPdu_statusRep_front h
  obtain ⟨bcd, rfl⟩ := encodeAddressPdu_head haddress
  obtain ⟨b, hb⟩ := decodeSmsPdu_eq_some hdecode
  have hreport := decodeTpdu_statusRep hb
  unfold statusReportLead at hreport hmax
  cases hind : pStatusRep.bHeaderInd with
  | true =>
      simp only [hind, if_true] at hreport hmax
      rw [ofHex_eq_cursor (by simp) (by omega)] at hreport
      obtain ⟨hflag, -⟩ := decodeStatusReport_eq_some hreport
      have hinverted : pStatusRep.bMoreMsg = true ↔ pStatusRep.bMoreMsg = false := by
        rw [← statusReportType_moreMsg, ← hsame.bMoreMsg, hflag, decide_eq_true_iff]
      cases hmore : pStatusRep.bMoreMsg <;> simp [hmore] at hinverted
  | false =>
      simp only [hind, Bool.false_eq_true, if_false] at hreport hmax
      rw [ofHex_eq_cursor (by simp) (by omega)] at hreport
      obtain ⟨-, c, hc⟩ := decodeStatusReport_eq_some hreport
      rw [hsame.recipAddress] at hc
      obtain ⟨hton, hnpi⟩ := decodeAddressPdu_ton hc
      -- the address starts with its type, which is too large for its length
      have htype : pStatusRep.recipAddress.typeOctet ≥ 44 := by
        apply AddressNumber.typeOctet_ge
        · unfold AddressNumber.encodedTon
          split
          · decide
          · exact hton
        · rw [hnpi]
          decide
      simp [decodeAddressPdu, htype] at hc

/-- A report on message 5 to `123` with a text of two characters. -/
def plainStatusReport : SmsStatusReport where
  bMoreMsg := false
  bStatusReport := false
  bHeaderInd := true
  msgRef := 5
  recipAddress := ⟨0, 0, [0x31, 0x32, 0x33]⟩
  timeStamp := .absolute ⟨25, 1, 2, 3, 4, 5, -52⟩
  dischargeTime := .absolute ⟨25, 1, 2, 3, 4, 6, -52⟩
  status := 0
  paramInd := 0x04
  pid := 0
  dcs := SmsDcs.zero
  userData := ⟨[.concat8Bit 7 2 1], [0x48, 0x69]⟩

def plainStatusReportOctets : List UInt8 :=
  [0x42, 0x05, 0x03, 0x80, 0x21, 0xF3, 0x52, 0x10, 0x20, 0x30, 0x40, 0x50, 0x2D, 0x52, 0x10, 0x20,
    0x30, 0x40, 0x60, 0x2D, 0x00, 0x04, 0x09, 0x05, 0x00, 0x03, 0x07, 0x02, 0x01, 0x90, 0x69]

theorem plainStatusReport_encoded :
    encodeSmsPdu (.statusRep plainStatusReport) 255 = some plainStatusReportOctets := by
  decide +kernel

theorem plainStatusReport_decoded :
    decodeSmsPdu ⟨id, id⟩ plainStatusReportOctets =
      some (.statusRep { plainStatusReport with bMoreMsg := true }) := by
  decide +kernel

theorem statusReport_not_roundTrip_plain :
    encodeSmsPdu (.statusRep plainStatusReport) 255 = some plainStatusReportOctets ∧
      ¬ StatusReportRoundTrip ⟨id, id⟩ plainStatusReport plainStatusReportOctets :=
  ⟨plainStatusReport_encoded, statusReport_not_roundTrip _ _ _ _ plainStatusReport_encoded⟩

theorem plainStatusReport_not_returned :
    ¬ ∀ octets, encodeSmsPdu (.statusRep plainStatusReport) 255 = some octets →
      StatusReportRoundTrip ⟨id, id⟩ plainStatusReport octets := by
  intro h
  obtain ⟨statusRep, hdecode, hsame⟩ := h _ plainStatusReport_encoded
  rw [plainStatusReport_decoded, Option.some.injEq, SmsTpdu.statusRep.injEq] at hdecode
  have hmore := hsame.bMoreMsg
  rw [← hdecode] at hmore
  exact absurd hmore (by decide)

end TelephonySms.Pdu
