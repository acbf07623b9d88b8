import TelephonySms.Cdma.HeaderCodings
import TelephonySms.Cdma.Message
import TelephonySms.Cdma.Spill
import TelephonySms.Cdma.Submitted

/-! # The text of a submitted message

What the receiver of a message to submit shows as its text. User data in septets below 128 or in
whole 16-bit units is shown as it was sent. Octets from 128 on that were sent in septets are never
shown: a character that is read in seven bits is below 128.
-/

namespace TelephonySms.Cdma

open TelephonySms.Pdu
open SmsPduBuffer

/-! ## Text that is read back -/

/-- User data in a coding of text that is read as it was written: septets, or 16-bit units, in
front of which the headers have an odd number of octets if there are any. -/
inductive IsText (data : SmsTeleSvcUserData) : Prop where
  | septets (htype : data.encodeType = .ascii7Bit)
      (hlow : ∀ c ∈ data.userData.data, c.toNat < 128)
  | units (htype : data.encodeType = .unicode) (heven : data.userData.data.length % 2 = 0)
      (hudh : data.userData.header ≠ [] → data.userData.udh.length % 2 = 1)

section Text

variable {data : SmsTeleSvcUserData}

theorem IsText.plain (h : IsText data) : data.Plain := by
  cases h with
  | septets htype hlow => exact ⟨by simp [htype], by simp [htype], fun _ => hlow⟩
  | units htype _ _ => exact ⟨by simp [htype], by simp [htype], by simp [htype]⟩

/-- 16-bit units behind headers. -/
theorem reads_units (coder : TextCoder) (htype : data.encodeType = .unicode)
    (heven : data.userData.data.length % 2 = 0) (hudh : data.userData.udh.length % 2 = 1)
    (hplain : data.userData.header.all SmsUDH.isPlain = true)
    (hn : data.userData.header.length ≤ 7) (hlen : data.userData.data.length ≤ 161) :
    Reads (decodeUserData coder (data.userData.header ≠ []))
      (recordBits 0x01 (userDataBits data)) { data with msgType := 0 } := by
  have hheader : data.userData.header ≠ [] := by
    intro hnil
    simp [SmsUDPackage.udh, hnil] at hudh
  have hcount := numFields16_double (n := data.userData.data.length) (by omega)
    (length_udh_le hn) hlen
  have hlength : UInt8.ofNat (numFields16 data.userData.udh.length data.userData.data.length) * 2 -
      UInt8.ofNat data.userData.udh.length - 1 = UInt8.ofNat data.userData.data.length := by
    apply UInt8.toNat_inj.mp
    rw [hcount, if_pos (by omega), ofNat_toNat_of_le (by omega)]
  have hbits : fieldsBits data = field 8 (UInt8.ofNat (numFields16 data.userData.udh.length
      data.userData.data.length)) ++ (udhBits data.userData.udh ++ each 8 data.userData.data) := by
    have hpdu : headerPdu data.userData.header = data.userData.udh := headerPdu_eq hn
    simp [fieldsBits, htype, hpdu, headerUnicodeBits_eq]
  refine reads_userData coder (by simp [htype]) (by simp [htype]) hplain hn hbits
    fun passed rest => ?_
  have hread := decode8BitData_bitCursor hlen passed rest
  simpa [decodeFields, htype, hheader, hlength] using hread

theorem reads_text (coder : TextCoder) (h : IsText data)
    (hplain : data.userData.header.all SmsUDH.isPlain = true)
    (hn : data.userData.header.length ≤ 7) (hlen : data.userData.data.length ≤ 161) :
    Reads (decodeUserData coder (data.userData.header ≠ []))
      (recordBits 0x01 (userDataBits data)) { data with msgType := 0 } := by
  cases h with
  | septets htype hlow => exact reads_sendable coder (.septets (.inl htype) hlow hplain hn) hlen
  | units htype heven hudh =>
      by_cases hheader : data.userData.header = []
      · exact reads_sendable coder (.unicode htype hheader heven) hlen
      · exact reads_units coder htype heven (hudh hheader) hplain hn hlen

end Text

/-! ## Messages -/

namespace CdmaSmsMessage

variable (coders : BodyCoders) (coder : TextCoder)

/-- A message that was submitted is taken over with its user data. -/
theorem createMessage_received {msg : CdmaTransportMsg} {pdu : List UInt8}
    (hid : msg.teleserviceId ≠ 0xFFFF)
    (hdecode : decodeTransport coder pdu = some (received msg)) :
    ∃ m, createMessage coders coder pdu = some m ∧
      m.visibleMessageBody = visibleText coders { msg.telesvcMsg.userData with msgType := 0 } ∧
      m.smsUserData = msg.telesvcMsg.userData.userData := by
  have hp2p : (received msg).type = .p2p := rfl
  have hsubmit : (received msg).telesvcMsg.type = .submit := rfl
  have hid' : (received msg).teleserviceId ≠ 0xFFFF := hid
  refine ⟨analysisP2pMsg coders {} (received msg), ?_, ?_, ?_⟩
  · simp only [createMessage, hdecode, Option.bind_some, hp2p]
  · simp only [analysisP2pMsg, if_neg hid', hsubmit, analsisDeliverMsg, analsisUserData,
      analsisHeader, List.append_nil]
    rfl
  · simp only [analysisP2pMsg, if_neg hid', hsubmit, analsisDeliverMsg, analsisUserData,
      analsisHeader]
    rfl

/-- The text of a point-to-point message is that of its user data, if it has one. -/
theorem body_analysisP2pMsg (msg : CdmaTransportMsg) :
    (analysisP2pMsg coders {} msg).visibleMessageBody = [] ∨
      (analysisP2pMsg coders {} msg).visibleMessageBody =
        visibleText coders msg.telesvcMsg.userData := by
  unfold analysisP2pMsg
  split
  · exact .inl rfl
  · dsimp only
    split
    · exact .inr (List.append_nil _)
    · exact .inr (List.append_nil _)
    · exact .inr (List.append_nil _)
    · exact .inr (List.append_nil _)
    · exact .inl rfl

variable {msg : CdmaTransportMsg} {data : SmsTeleSvcUserData} {b : SmsPduBuffer}

/-- Text in a coding that is read back is shown as it was sent. -/
theorem createMessage_text (h : IsSubmit msg) (hid : msg.teleserviceId ≠ 0xFFFF)
    (hheaderInd : msg.telesvcMsg.msgId.headerInd = decide (data.userData.header ≠ []))
    (htext : IsText data) (hplain : data.userData.header.all SmsUDH.isPlain = true)
    (hn : data.userData.header.length ≤ 7) (hlen : data.userData.data.length ≤ 161)
    (hb : encodeTransport (msg.withUserData data) = some b) :
    ∃ m, createMessage coders coder (b.data.take b.index) = some m ∧
      m.visibleMessageBody = visibleText coders { data with msgType := 0 } ∧
      m.smsUserData = data.userData := by
  have hread := reads_text coder htext hplain hn hlen
  rw [← hheaderInd] at hread
  have hdecode := decodeTransport_withUserData coder h (writes_userData htext.plain) hb rfl hread
  have hid' : (msg.withUserData { data with msgType := 0 }).teleserviceId ≠ 0xFFFF := hid
  exact createMessage_received coders coder hid' hdecode

/-- Text in septets is shown in septets, whatever was sent. -/
theorem lt_of_createMessage (h : IsSubmit msg)
    (hheaderInd : msg.telesvcMsg.msgId.headerInd = decide (data.userData.header ≠ []))
    (htype : data.encodeType = .ascii7Bit)
    (hplain : data.userData.header.all SmsUDH.isPlain = true)
    (hn : data.userData.header.length ≤ 7)
    (hfill : data.userData.udh = [] ∨ fill7 false data.userData.udh.length ≠ [])
    (hb : encodeTransport (msg.withUserData data) = some b) {m : CdmaSmsMessage}
    (hm : createMessage coders coder (b.data.take b.index) = some m) :
    ∀ c ∈ m.visibleMessageBody, c.toNat < 128 := by
  obtain ⟨msg', hdecode, hm⟩ := Option.bind_eq_some_iff.mp hm
  obtain ⟨hp2p, passed, rest, c, hread⟩ :=
    exists_decodeUserData coder h (writes_septets htype hn) hb hdecode
  obtain ⟨numFields, tail, hcontent⟩ := septetBits_eq hfill
  obtain ⟨front, -, -, hfields⟩ := decodeUserData_content coder (by simp [htype]) (by simp [htype])
    hplain hn hcontent passed rest
  rw [hheaderInd, hfields, htype] at hread
  obtain ⟨⟨octets, d⟩, hoctets, heq⟩ := Option.map_eq_some_iff.mp hread
  obtain ⟨huser, -⟩ := Prod.mk.inj heq
  have hlow : ∀ c ∈ octets, c.toNat < 128 :=
    lt_of_decodeAscii7Bit (Nat.mod_lt _ (by decide)) hoctets
  simp only [hp2p, Option.some.injEq] at hm
  rw [← hm]
  rcases body_analysisP2pMsg coders msg' with hbody | hbody
  · simp [hbody]
  · rw [hbody, ← huser]
    exact hlow

end CdmaSmsMessage

end TelephonySms.Cdma
