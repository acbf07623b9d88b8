import TelephonySms.Pdu.Frame

/-! # Submitted messages

The first octet of a submitted message carries the flags it was given.
The decoder reads one of these flags the other way round.
-/

namespace TelephonySms.Pdu

open SmsPduBuffer

theorem Keeps.encodeSubmitPduPartData {front : List UInt8} {b b' : SmsPduBuffer}
    {pSubmit : SmsSubmit} (h : Keeps front b)
    (hw : encodeSubmitPduPartData b pSubmit = some b') : Keeps front b' := by
  simp only [Pdu.encodeSubmitPduPartData, Option.bind_eq_bind, Option.bind_eq_some_iff] at hw
  obtain ⟨c, hc, hw⟩ := hw
  generalize (if pSubmit.vpf ≠ .notPresent then encodeTimePdu pSubmit.validityPeriod else []) =
    vpTime at hw
  split at hw
  · exact (h.copyDCS hc).encodeUserDataPdu hw
  · obtain ⟨d, hd, hw⟩ := Option.bind_eq_some_iff.mp hw
    exact ((h.copyDCS hc).copyOctets hd).encodeUserDataPdu hw

/-! ## The flags -/

def vpfMask : SmsVpf → UInt8
  | .enhanced => 0x08
  | .relative => 0x10
  | .absolute => 0x18
  | .notPresent | .other _ => 0

/-- The octet `EncodeSubmitTpduType` makes of the flags. -/
def submitTpduType (pSubmit : SmsSubmit) : UInt8 :=
  0x01 ||| (if pSubmit.bRejectDup then 0x04 else 0) ||| vpfMask pSubmit.vpf |||
    (if pSubmit.bStatusReport then 0x20 else 0) |||
    (if pSubmit.bHeaderInd && ctSmsc ≠ pSubmit.destAddress.address then 0x40 else 0) |||
    (if pSubmit.bReplyPath then 0x80 else 0)

theorem insertVpf_cursor (passed rest : List UInt8) (vpf : SmsVpf) (w : UInt8) :
    insertVpf vpf (cursor passed (w :: rest)) =
      some (cursor passed ((w ||| vpfMask vpf) :: rest)) := by
  cases vpf <;> simp [insertVpf, insertFlag_cursor, vpfMask]

theorem encodeSubmitTpduType_cursor (pSubmit : SmsSubmit) (rest : List UInt8) :
    encodeSubmitTpduType (cursor [] (0 :: rest)) pSubmit =
      cursor [submitTpduType pSubmit] rest := by
  have hfirst : (cursor [] (0 :: rest)).insertByte 0x01 0 = some (cursor [] (0x01 :: rest)) :=
    insertByte_cursor_index [] rest 0x01 0
  simp [encodeSubmitTpduType, steps, hfirst, insertFlag_cursor, insertVpf_cursor, submitTpduType]

theorem vpfMask_cases (vpf : SmsVpf) :
    vpfMask vpf = 0 ∨ vpfMask vpf = 0x08 ∨ vpfMask vpf = 0x10 ∨ vpfMask vpf = 0x18 := by
  cases vpf <;> simp [vpfMask]

theorem submitTpduType_rejectDup (pSubmit : SmsSubmit) :
    submitTpduType pSubmit &&& 0x04 = 0 ↔ pSubmit.bRejectDup = false := by
  have hmask := vpfMask_cases pSubmit.vpf
  unfold submitTpduType
  generalize (pSubmit.bHeaderInd && ctSmsc ≠ pSubmit.destAddress.address) = headerInd
  generalize vpfMask pSubmit.vpf = mask at hmask
  obtain rfl | rfl | rfl | rfl := hmask <;> cases pSubmit.bRejectDup <;>
    cases pSubmit.bStatusReport <;> cases headerInd <;> cases pSubmit.bReplyPath <;> decide

/-- The octets of a submitted message start with its flags and its reference. -/
theorem encodeSmsPdu_submit_front {pSubmit : SmsSubmit} {pduLen : Nat} {octets : List UInt8}
    (h : encodeSmsPdu (.submit pSubmit) pduLen = some octets) :
    [submitTpduType pSubmit, pSubmit.msgRef] <+: octets := by
  obtain ⟨b, hb, hpos, -, -, -, rfl⟩ := encodeSmsPdu_eq_some h
  have hnew : new = cursor [] (0 :: List.replicate 255 0) := rfl
  simp only [encodeTpdu, encodeSubmitPdu, hnew, encodeSubmitTpduType_cursor] at hb
  obtain ⟨c, hc, hb⟩ := Option.bind_eq_some_iff.mp hb
  have hwrite := writeByte_cursor_cons [submitTpduType pSubmit] (List.replicate 254 0)
    pSubmit.msgRef 0
  rw [← List.replicate_succ, hc, Option.some.injEq] at hwrite
  subst hwrite
  simp only [Option.bind_eq_bind, Option.bind_eq_some_iff] at hb
  obtain ⟨address, -, d, hd, e, he, hb⟩ := hb
  have hfront : Keeps [submitTpduType pSubmit, pSubmit.msgRef] d :=
    Keeps.of_copyOctets (by rw [List.length_replicate]; rfl) hd
  have hlast := (hfront.writeByte he).encodeSubmitPduPartData hb
  exact List.prefix_take_iff.mpr ⟨hlast.kept, Nat.le_of_lt hlast.lt⟩

theorem encodeSmsPdu_submit_head {pSubmit : SmsSubmit} {pduLen : Nat} {octets : List UInt8}
    (h : encodeSmsPdu (.submit pSubmit) pduLen = some octets) :
    octets.head? = some (submitTpduType pSubmit) := by
  obtain ⟨more, rfl⟩ := encodeSmsPdu_submit_front h
  rfl

/-! ## Round trip -/

/-- The parameters of a submitted message that a round trip should keep. -/
structure SameSubmit (pSubmit submit : SmsSubmit) : Prop where
  bRejectDup : submit.bRejectDup = pSubmit.bRejectDup
  bReplyPath : submit.bReplyPath = pSubmit.bReplyPath
  bStatusReport : submit.bStatusReport = pSubmit.bStatusReport
  bHeaderInd : submit.bHeaderInd = pSubmit.bHeaderInd
  msgRef : submit.msgRef = pSubmit.msgRef
  destAddress : submit.destAddress = pSubmit.destAddress
  pid : submit.pid = pSubmit.pid
  dcs : submit.dcs = pSubmit.dcs
  vpf : submit.vpf = pSubmit.vpf
  userData : submit.userData = pSubmit.userData

/-- The octets decode to a submitted message with the same parameters. -/
def SubmitRoundTrip (coder : TextCoder) (pSubmit : SmsSubmit) (octets : List UInt8) : Prop :=
  ∃ submit, decodeSmsPdu coder octets = some (.submit submit) ∧ SameSubmit pSubmit submit

theorem decodeSubmit_rejectDup {coder : TextCoder} {b b' : SmsPduBuffer} {submit : SmsSubmit}
    (h : decodeSubmit coder b = some (submit, b')) :
    ∃ oneByte, b.pickOneByte = some oneByte ∧ submit.bRejectDup = decide (oneByte &&& 0x04 = 0) := by
  simp only [decodeSubmit, Option.bind_eq_bind, Option.bind_eq_some_iff, Prod.exists,
    Option.some.injEq, Prod.mk.injEq] at h
  obtain ⟨oneByte, hpick, _, _, -, _, _, -, _, _, -, _, _, -, _, _, _, -, rfl, -⟩ := h
  exact ⟨oneByte, hpick, rfl⟩

/-- Whatever is submitted and encoded, the flag that refuses duplicates comes
back inverted, when anything comes back. -/
theorem submit_not_roundTrip (coder : TextCoder) (pSubmit : SmsSubmit) (pduLen : Nat)
    (octets : List UInt8) (h : encodeSmsPdu (.submit pSubmit) pduLen = some octets) :
    ¬ SubmitRoundTrip coder pSubmit octets := by
  rintro ⟨submit, hdecode, hsame⟩
  have hhead := encodeSmsPdu_submit_head h
  obtain ⟨b, hb⟩ := decodeSmsPdu_eq_some hdecode
  obtain ⟨oneByte, hpick, hflag⟩ := decodeSubmit_rejectDup (decodeTpdu_submit hb)
  have hbyte : oneByte = submitTpduType pSubmit := by
    rw [head?_of_pickOneByte_ofHex hpick, Option.some.injEq] at hhead
    exact hhead
  have hinverted : submit.bRejectDup = true ↔ pSubmit.bRejectDup = false := by
    rw [hflag, hbyte, decide_eq_true_iff, submitTpduType_rejectDup]
  rw [hsame.bRejectDup] at hinverted
  cases hdup : pSubmit.bRejectDup <;> simp [hdup] at hinverted

/-- A text of two characters to `123` on a fresh message: only the flag differs. -/
def plainSubmit : SmsSubmit where
  bRejectDup := true
  bStatusReport := false
  bHeaderInd := false
  bReplyPath := false
  msgRef := 5
  vpf := .notPresent
  destAddress := ⟨0, 0, [0x31, 0x32, 0x33]⟩
  pid := 0
  dcs := defaultDcs
  validityPeriod := .empty
  userData := ⟨[], [0x48, 0x69]⟩

def plainSubmitOctets : List UInt8 := [0x05, 0x05, 0x03, 0x80, 0x21, 0xF3, 0x00, 0x00, 0x02, 0xC8, 0x34]

theorem plainSubmit_encoded : encodeSmsPdu (.submit plainSubmit) 255 = some plainSubmitOctets := by
  decide +kernel

theorem plainSubmit_decoded :
    decodeSmsPdu ⟨id, id⟩ plainSubmitOctets =
      some (.submit { plainSubmit with bRejectDup := false }) := by
  decide +kernel

theorem submit_not_roundTrip_plain :
    encodeSmsPdu (.submit plainSubmit) 255 = some plainSubmitOctets ∧
      ¬ SubmitRoundTrip ⟨id, id⟩ plainSubmit plainSubmitOctets :=
  ⟨plainSubmit_encoded, submit_not_roundTrip _ _ _ _ plainSubmit_encoded⟩

theorem plainSubmit_not_returned :
    ¬ ∀ octets, encodeSmsPdu (.submit plainSubmit) 255 = some octets →
      SubmitRoundTrip ⟨id, id⟩ plainSubmit octets := by
  intro h
  obtain ⟨submit, hdecode, hsame⟩ := h _ plainSubmit_encoded
  rw [plainSubmit_decoded, Option.some.injEq, SmsTpdu.submit.injEq] at hdecode
  have hdup := hsame.bRejectDup
  rw [← hdecode] at hdup
  exact absurd hdup (by decide)

end TelephonySms.Pdu
