import TelephonySms.Cdma.Message
import TelephonySms.Cdma.Room
import TelephonySms.Send.CdmaResend

/-! # Data on a CDMA network

`DataBasedSmsDelivery` of the CDMA sender and what the receiver makes of its PDU. The data
are split, and the first segment goes out as one message. The port is kept in the message of
the sender and written nowhere.
-/

namespace TelephonySms.Send

open TelephonySms.Pdu TelephonySms.Cdma TelephonySms.Text

/-! ## Delivery -/

/-- What comes of a call: the callback reports failure, nothing happens, or a PDU is handed
to the RIL. -/
inductive DataDelivery where
  | failed
  | silent
  | sent (pdu : List UInt8)
deriving DecidableEq, Repr

section Delivery

variable (isBoundary : List UInt16 → Nat → Bool) (iconv : Iconv)

/-- `splits[0].encodeData` -/
def firstSplit (data : List UInt8) : Option (List UInt8) :=
  (splitMessage isBoundary iconv .cdma data false true []).2.head?.map SplitInfo.encodeData

def dataTransMsg (dest : List UInt8) (bStatusReport : Bool) (replySeq : UInt8) (msgId : UInt16)
    (encodeData : List UInt8) : CdmaTransportMsg :=
  fillSubmit (submitTransMsg dest bStatusReport) replySeq msgId true .octet ⟨[], encodeData⟩

/-- `dest.at(0)` throws for an empty address. -/
def dataBasedSmsDelivery (dest data : List UInt8) (_port : UInt16) (bStatusReport : Bool)
    (replySeq : UInt8) (msgId : UInt16) : DataDelivery :=
  match firstSplit isBoundary iconv data with
  | none => .silent
  | some encodeData =>
      if dest = [] then .silent
      else
        match createDataTransMsg dest bStatusReport with
        | none => .failed
        | some _ =>
            if encodeData.length > userDataSize then .silent
            else
              match encodeMsg (dataTransMsg dest bStatusReport replySeq msgId encodeData) with
              | none => .failed
              | some pdu => .sent pdu

/-- Failure is reported, or the PDU is read as a message with all the data and the port. -/
def DeliversData (coders : BodyCoders) (coder : TextCoder) (data : List UInt8) (port : UInt16) :
    DataDelivery → Prop
  | .failed => True
  | .silent => False
  | .sent pdu => ∃ m, CdmaSmsMessage.createMessage coders coder pdu = some m ∧
      m.smsUserData.data = data ∧ m.getDestPort.toInt = port.toNat

end Delivery

/-! ## Room -/

/-- The octets of the address parameter. -/
def addressOctets (dest : List UInt8) : Nat :=
  2 + (Spends.addressRoom (dest.head? = some 0x2b) false dest.length + 7) / 8

/-- The octets of the PDU for a segment of `n` octets. -/
def dataPduLength (dest : List UInt8) (bStatusReport : Bool) (replySeq : UInt8) (n : Nat) : Nat :=
  19 + addressOctets dest + n + (if replySeq > 0 then 3 else 0) +
    (if bStatusReport then 3 else 0)

/-- The address does not fit its array, or it fits and the PDU has no room for it. -/
def DataRefused (dest : List UInt8) (bStatusReport : Bool) (replySeq : UInt8) (n : Nat) : Prop :=
  257 < dest.length ∨
    (n ≤ userDataSize ∧ (255 < dest.length ∨ 255 < dataPduLength dest bStatusReport replySeq n))

section Encoding

variable {dest : List UInt8} {bStatusReport : Bool} {replySeq : UInt8} {msgId : UInt16}
variable {encodeData : List UInt8}

theorem address_dataTransMsg :
    (dataTransMsg dest bStatusReport replySeq msgId encodeData).address.szData =
      addressChars dest := rfl

/-- The records of the message. -/
def dataRecords (replySeq : UInt8) : List ParameterRecord :=
  .teleserviceId :: .address 0x04 ::
    ((if replySeq > 0 then [.bearerReply] else []) ++ [.bearerData none])

/-- The sub-parameters of the message. -/
def dataParameters (bStatusReport : Bool) : List SubParameter :=
  .messageId :: .userData :: .priorityIndicator :: if bStatusReport then [.replyOption] else []

/-- An address of more than 255 characters is never written to its end. -/
theorem encodeMsg_long (h : 255 < dest.length) :
    encodeMsg (dataTransMsg dest bStatusReport replySeq msgId encodeData) = none := by
  have hlong : (addressChars dest).length > 255 := by
    by_cases hfits : dest.length ≤ 256
    · rw [length_addressChars hfits]
      exact h
    · rw [addressChars, if_pos (by omega), List.length_replicate]
      omega
  have haddress (b : SmsPduBuffer) : encodeAddress
      (dataTransMsg dest bStatusReport replySeq msgId encodeData).address b = none := by
    unfold encodeAddress writeNumber
    rw [address_dataTransMsg]
    simp only [if_pos hlong]
    cases b.writeBits (UInt8.ofNat (addressChars dest).length) 8 <;> simp
  have hparameter (b : SmsPduBuffer) : encodeAddressParameter 0x04
      (dataTransMsg dest bStatusReport replySeq msgId encodeData).address b = none := by
    unfold encodeAddressParameter writeRecord
    simp only [haddress, Option.bind_eq_bind, Option.bind_fun_none, Option.bind_none]
  have hparameters : p2pParameters (dataTransMsg dest bStatusReport replySeq msgId encodeData) =
      dataRecords replySeq := rfl
  unfold encodeMsg encodeTransport transportParameters
  simp only [show (dataTransMsg dest bStatusReport replySeq msgId encodeData).type = .p2p from rfl,
    hparameters, dataRecords, encodeRecords, ParameterRecord.encode, hparameter, Option.bind_eq_bind,
    Option.bind_none, Option.bind_fun_none, Option.bind_some]

/-- The bits of a sub-parameter of the message. -/
def dataParameterBits (n : Nat) : SubParameter → Nat
  | .messageId => 40
  | .userData => 8 * (n + 4)
  | _ => 24

theorem spends_dataParameters (hlength : encodeData.length ≤ userDataSize) :
    Spends 0 (8 * (encodeData.length + 12 + if bStatusReport then 3 else 0))
      (encodeParameters (dataTransMsg dest bStatusReport replySeq msgId encodeData).telesvcMsg
        (dataParameters bStatusReport)) := by
  have hpars : ∀ par ∈ dataParameters bStatusReport,
      dataParameterBits encodeData.length par % 8 = 0 ∧
        Spends 0 (dataParameterBits encodeData.length par)
          (par.encode (dataTransMsg dest bStatusReport replySeq msgId encodeData).telesvcMsg) := by
    intro par hpar
    have hcases : par = .messageId ∨ par = .userData ∨ par = .priorityIndicator ∨
        par = .replyOption := by
      cases bStatusReport <;> simp [dataParameters] at hpar <;> tauto
    rcases hcases with rfl | rfl | rfl | rfl
    · exact ⟨by simp [dataParameterBits], Spends.messageId _ _⟩
    · refine ⟨by simp [dataParameterBits], ?_⟩
      have hcoding : (dataTransMsg dest bStatusReport replySeq msgId
          encodeData).telesvcMsg.userData.encodeType = .octet := rfl
      exact Spends.octetData hcoding hlength
    · exact ⟨by simp [dataParameterBits], Spends.twoBits 0x08 _⟩
    · exact ⟨by simp [dataParameterBits], Spends.replyOption _⟩
  refine (Spends.encodeParameters hpars).mono rfl ?_
  cases bStatusReport <;> simp [dataParameters, dataParameterBits] <;> omega

/-- The bits of a record of the message. -/
def dataRecordBits (dest : List UInt8) (n : Nat) : ParameterRecord → Nat
  | .teleserviceId => 32
  | .address _ => 8 * addressOctets dest
  | .bearerData _ => 16 + n
  | _ => 24

theorem spends_dataTransMsg (hdest : dest.length ≤ 255)
    (hlength : encodeData.length ≤ userDataSize) :
    Spends 0 (8 * dataPduLength dest bStatusReport replySeq encodeData.length) (fun b =>
      b.writeByte 0 >>= encodeRecords (dataTransMsg dest bStatusReport replySeq msgId encodeData)
        (dataRecords replySeq)) := by
  obtain ⟨n, hn⟩ : ∃ n, 8 * (encodeData.length + 12 + if bStatusReport then 3 else 0) = n :=
    ⟨_, rfl⟩
  have hbearer : Spends 0 n (encodeParameters
      (dataTransMsg dest bStatusReport replySeq msgId encodeData).telesvcMsg
      (dataParameters bStatusReport)) :=
    (spends_dataParameters hlength).mono rfl hn.symm
  have hpars : ∀ par ∈ dataRecords replySeq,
      dataRecordBits dest n par % 8 = 0 ∧ Spends 0 (dataRecordBits dest n par)
        (par.encode (dataTransMsg dest bStatusReport replySeq msgId encodeData)) := by
    intro par hpar
    have hcases : par = .teleserviceId ∨ par = .address 0x04 ∨ par = .bearerReply ∨
        par = .bearerData none := by
      by_cases hseq : replySeq > 0
      · simp [dataRecords, hseq] at hpar
        tauto
      · simp [dataRecords, hseq] at hpar
        tauto
    rcases hcases with rfl | rfl | rfl | rfl
    · exact ⟨by simp [dataRecordBits], Spends.wordRecord 0x00 _⟩
    · refine ⟨by simp [dataRecordBits], ?_⟩
      have hchars : (addressChars dest).length = dest.length := length_addressChars (by omega)
      have hfits : (dataTransMsg dest bStatusReport replySeq msgId encodeData).address.szData.length ≤
          255 := by
        rw [address_dataTransMsg, hchars]
        exact hdest
      have haddress := Spends.address 0x04 hfits
      rw [address_dataTransMsg, hchars] at haddress
      exact haddress.mono rfl (Nat.mul_add 8 2 _)
    · exact ⟨by simp [dataRecordBits], Spends.bearerReply _⟩
    · refine ⟨by simp only [dataRecordBits]; omega, ?_⟩
      refine Spends.bearerData ?_ (by omega) (by omega) hbearer
      simp [teleserviceParameters, submitParameters, dataTransMsg, fillSubmit, submitTransMsg,
        greateTransMsg, CdmaTeleserviceMsg.zero, dataParameters]
  have hspends := Spends.encodeRecords hpars
  refine ((Spends.byte 0).bind (hspends.mono rfl rfl)).mono rfl ?_
  unfold dataPduLength
  by_cases hseq : replySeq > 0 <;> simp [dataRecords, hseq, dataRecordBits] <;> omega

theorem encodeMsg_dataTransMsg_iff (hlength : encodeData.length ≤ userDataSize) :
    encodeMsg (dataTransMsg dest bStatusReport replySeq msgId encodeData) = none ↔
      255 < dest.length ∨
        255 < dataPduLength dest bStatusReport replySeq encodeData.length := by
  by_cases hdest : 255 < dest.length
  · simp [encodeMsg_long hdest, hdest]
  · have hspends : Spends 0 (8 * dataPduLength dest bStatusReport replySeq encodeData.length) _ :=
      @spends_dataTransMsg dest bStatusReport replySeq msgId encodeData (Nat.not_lt.mp hdest) hlength
    have hiff := getPduBuffer_eq_none_iff hspends (by unfold dataPduLength; omega)
    have hparameters : transportParameters
        (dataTransMsg dest bStatusReport replySeq msgId encodeData) =
          some (0, dataRecords replySeq) := rfl
    have hset : SmsPduBuffer.new.setIndex 0 = SmsPduBuffer.new := by
      unfold SmsPduBuffer.setIndex
      split_ifs <;> rfl
    rw [or_iff_right hdest, ← hiff, encodeMsg, encodeTransport, hparameters,
      Option.bind_eq_bind, Option.bind_some, hset]

end Encoding

/-! ## What is delivered -/

theorem not_deliversData_sent (coders : BodyCoders) (coder : TextCoder) (data : List UInt8)
    (port : UInt16) (pdu : List UInt8) : ¬ DeliversData coders coder data port (.sent pdu) := by
  rintro ⟨m, hm, -, hport⟩
  rw [CdmaSmsMessage.createMessage_getDestPort coders hm] at hport
  have hneg : (-1 : Int16).toInt = -1 := by decide
  omega

/-- Data and port are delivered only in that failure is reported: for an address or a PDU
that is too long. -/
theorem deliversData_iff (isBoundary : List UInt16 → Nat → Bool) (iconv : Iconv)
    (coders : BodyCoders) (coder : TextCoder) (dest data : List UInt8) (port : UInt16)
    (bStatusReport : Bool) (replySeq : UInt8) (msgId : UInt16) :
    DeliversData coders coder data port
        (dataBasedSmsDelivery isBoundary iconv dest data port bStatusReport replySeq msgId) ↔
      ∃ encodeData, firstSplit isBoundary iconv data = some encodeData ∧ dest ≠ [] ∧
        DataRefused dest bStatusReport replySeq encodeData.length := by
  unfold dataBasedSmsDelivery
  cases hsplit : firstSplit isBoundary iconv data with
  | none => simp [DeliversData]
  | some encodeData =>
      simp only [Option.some.injEq, exists_eq_left', DataRefused]
      by_cases hdest : dest = []
      · simp [hdest, DeliversData]
      by_cases hlong : 257 < dest.length
      · have hnone : createDataTransMsg dest bStatusReport = none := if_pos hlong
        simp [hdest, hnone, hlong, DeliversData]
      have hsome : createDataTransMsg dest bStatusReport = some (submitTransMsg dest bStatusReport) :=
        if_neg hlong
      by_cases hlength : encodeData.length > userDataSize
      · simp [hdest, hsome, hlong, hlength, DeliversData, Nat.not_le.mpr hlength]
      have hencode : encodeMsg (dataTransMsg dest bStatusReport replySeq msgId encodeData) = none ↔ _ :=
        encodeMsg_dataTransMsg_iff (Nat.not_lt.mp hlength)
      simp only [hdest, hsome, hlong, hlength, if_false, false_or, ne_eq, not_false_eq_true,
        true_and, Nat.not_lt.mp hlength]
      rw [← hencode]
      cases encodeMsg (dataTransMsg dest bStatusReport replySeq msgId encodeData) with
      | none => simp [DeliversData]
      | some pdu => simp [not_deliversData_sent]

/-- Three octets to `123` for port 9200: the PDU is read with one octet less and port -1. -/
theorem not_deliversData_short :
    dataBasedSmsDelivery (fun _ _ => true) asciiIconv [0x31, 0x32, 0x33] [0, 1, 2] 9200 false 1 7 =
        .sent [0, 0, 2, 16, 2, 4, 3, 0, 196, 140, 6, 1, 4, 8, 15, 0, 3, 32, 0, 120, 1, 5, 0, 24, 0,
          8, 16, 8, 1, 0] ∧
      ¬ DeliversData ⟨asciiIconv, id, fun u => u.data, fun u => u.data⟩ ⟨id, id⟩ [0, 1, 2] 9200
        (dataBasedSmsDelivery (fun _ _ => true) asciiIconv [0x31, 0x32, 0x33] [0, 1, 2] 9200 false
          1 7) := by
  have hsent : dataBasedSmsDelivery (fun _ _ => true) asciiIconv [0x31, 0x32, 0x33] [0, 1, 2] 9200
      false 1 7 = .sent [0, 0, 2, 16, 2, 4, 3, 0, 196, 140, 6, 1, 4, 8, 15, 0, 3, 32, 0, 120, 1, 5,
        0, 24, 0, 8, 16, 8, 1, 0] := by
    decide +kernel
  refine ⟨hsent, ?_⟩
  rw [hsent]
  exact not_deliversData_sent _ _ _ _ _

end TelephonySms.Send
