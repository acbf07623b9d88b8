import TelephonySms.Cdma.RoundTrip

/-! # Any user data in a submitted message

The other parameters of a message to submit are read back whatever its user data is, and the
reader of user data gets the record that the writer of user data left. So what becomes of a
message is decided by that record alone.
-/

namespace TelephonySms.Cdma

open TelephonySms.Pdu
open SmsPduBuffer

/-- A message with other user data. -/
def CdmaTransportMsg.withUserData (msg : CdmaTransportMsg) (data : SmsTeleSvcUserData) :
    CdmaTransportMsg :=
  { msg with telesvcMsg := { msg.telesvcMsg with userData := data } }

/-- The record of a sub-parameter, that of the user data with the contents given. -/
def SubParameter.recordWith (content : List Bool) (msg : CdmaTeleserviceMsg)
    (par : SubParameter) : RawRecord :=
  if par = .userData then ⟨0x01, content⟩ else par.record msg

section Submitted

variable {msg : CdmaTransportMsg} {data : SmsTeleSvcUserData} {content : List Bool}

theorem writes_recordWith (h : IsSubmit msg)
    (hdata : Writes 0 (encodeUserData data) (recordBits 0x01 content)) :
    ∀ par ∈ submitParameters (msg.withUserData data).telesvcMsg,
      Writes 0 (par.encode (msg.withUserData data).telesvcMsg)
        (par.recordWith content msg.telesvcMsg).bits := by
  intro par hpar
  by_cases huser : par = .userData
  · subst huser
    exact hdata
  · have hencode : par.encode (msg.withUserData data).telesvcMsg = par.encode msg.telesvcMsg := by
      cases par <;> first | rfl | exact absurd rfl huser
    rw [hencode, SubParameter.recordWith, if_neg huser]
    exact writes_submitParameter h par hpar

/-- The bits of the message with these contents of its user data. -/
def submittedBits (content : List Bool) (msg : CdmaTransportMsg) : List Bool :=
  field 8 0 ++ (((p2pFront msg).map fun par => par.record msg).flatMap RawRecord.bits ++
    recordBits 0x08 (((submitParameters msg.telesvcMsg).map
      (SubParameter.recordWith content msg.telesvcMsg)).flatMap RawRecord.bits))

theorem encodeTransport_withUserData (h : IsSubmit msg)
    (hdata : Writes 0 (encodeUserData data) (recordBits 0x01 content)) {b : SmsPduBuffer}
    (hb : encodeTransport (msg.withUserData data) = some b) :
    (submittedBits content msg).length ≤ 2048 ∧
      b.data.take b.index = BitStream.octets (submittedBits content msg) ∧
      ∃ b₁, encodeRecords (msg.withUserData data) (p2pParameters (msg.withUserData data)) b₁ =
        some b := by
  have hfront : ∀ par ∈ p2pFront (msg.withUserData data), Writes 0
      (par.encode (msg.withUserData data)) (par.record (msg.withUserData data)).bits :=
    forall_p2pFront (writes_word 0x00 _) (writes_word 0x01 _) (writes_address 0x04 h.address)
      (writes_subaddress 0x05 _) (writes_bearerReply h.replySeq_lt)
  have hsubmit : (msg.withUserData data).telesvcMsg.type = .submit := h.submit
  have hbearer : Writes 0 (encodeBearerData (msg.withUserData data).telesvcMsg)
      (recordBits 0x08 (((submitParameters msg.telesvcMsg).map
        (SubParameter.recordWith content msg.telesvcMsg)).flatMap RawRecord.bits)) :=
    writes_bearerRecord hsubmit (writes_recordWith h hdata)
  have hrecords : ∀ par ∈ p2pFront msg, par.record msg = par.record (msg.withUserData data) :=
    forall_p2pFront rfl rfl rfl rfl rfl
  have hp2p : (msg.withUserData data).type = .p2p := h.p2p
  refine encodeTransport_octets hp2p hfront hbearer ?_ hb
  rw [submittedBits, List.map_congr_left hrecords]
  rfl

/-- Both scans of what was written. -/
theorem createTransportMessage_withUserData (h : IsSubmit msg)
    (hlen : (submittedBits content msg).length ≤ 2048) :
    ∃ pars subs start len,
      createTransportMessage .zero (bitCursor [] (submittedBits content msg)) =
        some (scannedSubmit, pars ++ [⟨start, len, .bearerData (some subs)⟩]) ∧
      pars.map Scanned.parameter = p2pFront msg ∧
      subs.map Scanned.parameter = submitParameters msg.telesvcMsg := by
  have hfirst : SubParameter.recordWith content msg.telesvcMsg .messageId =
      SubParameter.record .messageId msg.telesvcMsg := if_neg (by simp)
  have hids : ∀ par ∈ submitParameters msg.telesvcMsg,
      (par.recordWith content msg.telesvcMsg).id = par.id := by
    intro par _
    unfold SubParameter.recordWith
    split
    · next huser =>
        rw [huser]
        rfl
    · rfl
  exact createTransportMessage_records h.submit hfirst hids rfl hlen

/-- The parameters in front are read back. -/
theorem reads_front (coder : TextCoder) (h : IsSubmit msg) {b : SmsPduBuffer}
    (haccepted : ∃ b₁, encodeRecords (msg.withUserData data)
      (p2pParameters (msg.withUserData data)) b₁ = some b) :
    Reads (decodeRecords coder (p2pFront msg) scannedSubmit)
      (((p2pFront msg).map fun par => par.record msg).flatMap RawRecord.bits)
      { scannedSubmit with
        teleserviceId := msg.teleserviceId
        serviceCtg := if msg.serviceCtg < 0x8001 then msg.serviceCtg else 0x8001
        address := msg.address.sent
        subAddress := if msg.subAddress.szData.length > 0 then msg.subAddress
          else ⟨.nsap, false, []⟩
        replySeq := msg.replySeq } := by
  obtain ⟨b₁, hencode⟩ := haccepted
  have hone : ∀ par ∈ p2pFront msg, ∃ b c, par.encode msg b = some c := by
    have hsame : ∀ par ∈ p2pFront msg, par.encode (msg.withUserData data) = par.encode msg :=
      forall_p2pFront rfl rfl rfl rfl rfl
    intro par hpar
    obtain ⟨b₂, c₂, haccepted⟩ := exists_encode_of_encodeRecords hencode par
      (by rw [p2pParameters_eq]; exact List.mem_append_left _ hpar)
    exact ⟨b₂, c₂, by rw [← hsame par hpar, haccepted]⟩
  have hread := reads_records id (fun par => par.record msg) (fun par => par.store msg)
    (fun par hpar => reads_p2pFront coder h par hpar (hone par hpar)) scannedSubmit
  rwa [foldl_p2pFront msg _ rfl rfl rfl, List.map_id] at hread

/-- The user data that was written is read as `read`, so the message is read with it. -/
theorem decodeTransport_withUserData (coder : TextCoder) (h : IsSubmit msg)
    (hdata : Writes 0 (encodeUserData data) (recordBits 0x01 content)) {b : SmsPduBuffer}
    (hb : encodeTransport (msg.withUserData data) = some b) {read : SmsTeleSvcUserData}
    (hmsgType : read.msgType = 0)
    (hread : Reads (decodeUserData coder msg.telesvcMsg.msgId.headerInd)
      (recordBits 0x01 content) read) :
    decodeTransport coder (b.data.take b.index) = some (received (msg.withUserData read)) := by
  obtain ⟨hlen, hoctets, haccepted⟩ := encodeTransport_withUserData h hdata hb
  obtain ⟨pars, subs, start, len, hcreate, hpars, hsubPars⟩ :=
    createTransportMessage_withUserData h hlen
  have hfirst := reads_front coder h haccepted
  obtain ⟨b₁, hencode⟩ := haccepted
  obtain ⟨b₂, c₂, hbearer⟩ := exists_encode_of_encodeRecords hencode (.bearerData none)
    (by simp [p2pParameters_eq])
  have hsubmit : (msg.withUserData data).telesvcMsg.type = .submit := h.submit
  obtain ⟨b₃, c₃, hsubs⟩ := exists_encode_of_encodeBearerData hsubmit hbearer
  have hsecond : Reads (decodeSubParameters coder (submitParameters msg.telesvcMsg)
      (startOf .submit .zero)) (((submitParameters msg.telesvcMsg).map
        (SubParameter.recordWith content msg.telesvcMsg)).flatMap RawRecord.bits)
      ((submitParameters msg.telesvcMsg).foldl
        (fun m par => par.store (msg.withUserData read).telesvcMsg m) (startOf .submit .zero)) := by
    refine reads_fromMessageId coder (fun par hpar old hold => ?_) _
    refine ⟨?_, store_msgId par hold⟩
    by_cases huser : par = .userData
    · subst huser
      have hmsgId : old.msgId = msg.telesvcMsg.msgId := hold.resolve_left (by simp)
      have hstored : { read with msgType := 0 } = read := by
        cases read
        cases hmsgType
        rfl
      have hstore := hread.store fun data => { old with userData := data }
      rw [← hmsgId] at hstore
      simp only [SubParameter.recordWith, if_true, SubParameter.store, CdmaTransportMsg.withUserData,
        hstored]
      exact hstore
    · have hsame : par.encode (msg.withUserData data).telesvcMsg = par.encode msg.telesvcMsg ∧
          par.store (msg.withUserData read).telesvcMsg old = par.store msg.telesvcMsg old := by
        cases par <;> first | exact ⟨rfl, rfl⟩ | exact absurd rfl huser
      obtain ⟨b', c', hone⟩ := exists_encode_of_encodeParameters hsubs par hpar
      rw [hsame.1] at hone
      rw [hsame.2, SubParameter.recordWith, if_neg huser]
      exact reads_submitParameter coder h old par hpar b' c' hone hold
  have hfold : (submitParameters msg.telesvcMsg).foldl
      (fun m par => par.store (msg.withUserData read).telesvcMsg m) (startOf .submit .zero) =
        receivedTelesvc (msg.withUserData read).telesvcMsg :=
    foldl_submitParameters (msg.withUserData read).telesvcMsg
  rw [hfold] at hsecond
  have hne : subs ≠ [] := by
    rintro rfl
    rw [List.map_nil] at hsubPars
    exact absurd hsubPars.symm (by simp [submitParameters])
  rw [hoctets]
  exact decodeTransport_records hlen hcreate hne (by rw [hpars]; exact hfirst)
    (by rw [hsubPars]; exact hsecond)

/-! ## What a message that is read has -/

theorem userData_of_decode (coder : TextCoder) {par : SubParameter} (hne : par ≠ .userData)
    {old telesvcMsg : CdmaTeleserviceMsg} {b c : SmsPduBuffer}
    (h : par.decode coder old b = some (telesvcMsg, c)) : telesvcMsg.userData = old.userData := by
  cases par <;> first
    | exact absurd rfl hne
    | (obtain ⟨r, -, hr⟩ := Option.bind_eq_some_iff.mp h
       cases hr
       rfl)

theorem userData_of_decodeSubParameters (coder : TextCoder) {pars : List SubParameter}
    (hne : SubParameter.userData ∉ pars) {old telesvcMsg : CdmaTeleserviceMsg} {b c : SmsPduBuffer}
    (h : decodeSubParameters coder pars old b = some (telesvcMsg, c)) :
    telesvcMsg.userData = old.userData := by
  induction pars generalizing old b with
  | nil =>
      cases h
      rfl
  | cons par pars ih =>
      obtain ⟨⟨middle, d⟩, hpar, h⟩ := Option.bind_eq_some_iff.mp h
      rw [List.mem_cons, not_or] at hne
      rw [ih hne.2 h, userData_of_decode coder (Ne.symm hne.1) hpar]

theorem submitParameters_eq (msg : CdmaTeleserviceMsg) :
    ∃ pars, submitParameters msg = .messageId :: .userData :: pars ∧
      SubParameter.userData ∉ pars := by
  refine ⟨_, rfl, ?_⟩
  cases msg.deferValPeriod <;> split_ifs <;> simp

/-- Behind the identifier of a message its user data is read where it was written. -/
theorem exists_decodeUserData_of_subParameters (coder : TextCoder) (h : IsSubmit msg)
    {pars : List SubParameter} (hpars : SubParameter.userData ∉ pars)
    {passed rest : List Bool} (hpassed : passed.length % 8 = 0)
    {old telesvcMsg : CdmaTeleserviceMsg} {c : SmsPduBuffer}
    (hdecode : decodeSubParameters coder (.messageId :: .userData :: pars) old
      (bitCursor passed ((SubParameter.record .messageId msg.telesvcMsg).bits ++
        (recordBits 0x01 content ++ rest))) = some (telesvcMsg, c)) :
    ∃ passed rest c, decodeUserData coder msg.telesvcMsg.msgId.headerInd
      (bitCursor passed (recordBits 0x01 content ++ rest)) = some (telesvcMsg.userData, c) := by
  have htype : msg.telesvcMsg.type.value.toNat < 2 ^ 4 := by
    rw [h.submit]
    decide
  have hmessageId : Reads (SubParameter.decode coder .messageId old)
      (SubParameter.record .messageId msg.telesvcMsg).bits
      (SubParameter.store .messageId msg.telesvcMsg old) :=
    (reads_messageId htype msg.telesvcMsg.msgId).store
      fun x => ({ old with msgId := x.2 } : CdmaTeleserviceMsg)
  simp only [decodeSubParameters, hmessageId passed _ hpassed, Option.bind_eq_bind,
    Option.bind_some, Option.bind_eq_some_iff] at hdecode
  obtain ⟨⟨middle, d⟩, huser, hdecode⟩ := hdecode
  obtain ⟨⟨read, e⟩, huser, heq⟩ := Option.bind_eq_some_iff.mp huser
  cases heq
  rw [userData_of_decodeSubParameters coder hpars hdecode]
  exact ⟨_, _, _, huser⟩

/-- The user data of a message that is read was read where it had been written. -/
theorem exists_decodeUserData (coder : TextCoder) (h : IsSubmit msg)
    (hdata : Writes 0 (encodeUserData data) (recordBits 0x01 content)) {b : SmsPduBuffer}
    (hb : encodeTransport (msg.withUserData data) = some b) {msg' : CdmaTransportMsg}
    (hdecode : decodeTransport coder (b.data.take b.index) = some msg') :
    msg'.type = .p2p ∧ ∃ passed rest c,
      decodeUserData coder msg.telesvcMsg.msgId.headerInd
        (bitCursor passed (recordBits 0x01 content ++ rest)) =
          some (msg'.telesvcMsg.userData, c) := by
  obtain ⟨hlen, hoctets, haccepted⟩ := encodeTransport_withUserData h hdata hb
  obtain ⟨pars, subs, start, len, hcreate, hpars, hsubPars⟩ :=
    createTransportMessage_withUserData h hlen
  have hfirst := reads_front coder h haccepted
  have hrun := decodeTransport_scanned hlen hcreate (by rw [hpars]; exact hfirst)
  rw [hoctets, submittedBits, hrun] at hdecode
  obtain ⟨⟨msg₁, c₁⟩, hbearer, rfl⟩ := Option.map_eq_some_iff.mp hdecode
  obtain ⟨tail, htail, hnotTail⟩ := submitParameters_eq msg.telesvcMsg
  have hrecords : ((submitParameters msg.telesvcMsg).map
      (SubParameter.recordWith content msg.telesvcMsg)).flatMap RawRecord.bits =
        (SubParameter.record .messageId msg.telesvcMsg).bits ++ (recordBits 0x01 content ++
          (tail.map (SubParameter.recordWith content msg.telesvcMsg)).flatMap RawRecord.bits) := by
    rw [htail]
    rfl
  have hmod := RawRecord.length_flatMap_bits_mod ((p2pFront msg).map fun par => par.record msg)
  generalize ((submitParameters msg.telesvcMsg).map
    (SubParameter.recordWith content msg.telesvcMsg)).flatMap RawRecord.bits = records
    at hrecords hbearer
  have hid := readIdLen_record (field 8 0 ++ ((p2pFront msg).map fun par =>
    par.record msg).flatMap RawRecord.bits) [] 0x08 records
  rw [List.append_nil] at hid
  have hne : ¬ subs.map Scanned.parameter = [] := by
    rw [hsubPars, htail]
    simp
  simp only [ParameterRecord.decode, hid, decodeTeleservice, if_neg hne, Option.bind_eq_bind,
    Option.bind_some, Option.bind_eq_some_iff] at hbearer
  obtain ⟨⟨telesvcMsg, d⟩, hsub, heq⟩ := hbearer
  obtain ⟨rfl, -⟩ := Prod.mk.inj (Option.some.inj heq)
  refine ⟨rfl, ?_⟩
  rw [hsubPars, htail, hrecords] at hsub
  simp only [List.append_assoc] at hsub
  refine exists_decodeUserData_of_subParameters coder h hnotTail ?_ hsub
  simp only [List.length_append, length_field]
  omega

end Submitted

end TelephonySms.Cdma
