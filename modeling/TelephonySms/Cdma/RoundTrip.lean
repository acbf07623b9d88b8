import TelephonySms.Cdma.Scan

/-! # A submitted message read back

The octets of a point-to-point message to submit, scanned and read: the
sub-parameters in bearer data, the bearer data among the parameters, and what is
left of the message.
-/

namespace TelephonySms.Cdma

open TelephonySms.Pdu
open SmsPduBuffer

/-! ## Messages to submit -/

/-- User data that is sent and read in the same units: septets with any headers
that are written in full, or octets or whole 16-bit units without headers. -/
inductive IsSendable : SmsTeleSvcUserData → Prop where
  | septets {data : SmsTeleSvcUserData} :
      data.encodeType = .ascii7Bit ∨ data.encodeType = .ia5 →
      (∀ c ∈ data.userData.data, c.toNat < 128) →
      data.userData.header.all SmsUDH.isPlain = true → data.userData.header.length ≤ 7 →
      IsSendable data
  | octets {data : SmsTeleSvcUserData} :
      data.encodeType = .octet → data.userData.header = [] → IsSendable data
  | unicode {data : SmsTeleSvcUserData} :
      data.encodeType = .unicode → data.userData.header = [] →
      data.userData.data.length % 2 = 0 → IsSendable data

/-- A message to submit whose fields are what their types say: numbers in four
bits consist of digits, enumerations fit their bits, parts of a time have two
digits, and the header indicator tells whether there are headers. -/
structure IsSubmit (msg : CdmaTransportMsg) : Prop where
  p2p : msg.type = .p2p
  submit : msg.telesvcMsg.type = .submit
  address : msg.address.Valid
  replySeq_lt : msg.replySeq.toNat < 64
  headerInd : msg.telesvcMsg.msgId.headerInd = decide (msg.telesvcMsg.userData.userData.header ≠ [])
  userData : IsSendable msg.telesvcMsg.userData
  deferred : ∀ time, msg.telesvcMsg.deferValPeriod = .absolute time → IsDecimal time
  callback : msg.telesvcMsg.callbackNumber.Valid

/-! ## Sub-parameters -/

/-- The contents of a sub-parameter of a message to submit. -/
def SubParameter.content (par : SubParameter) (msg : CdmaTeleserviceMsg) : List Bool :=
  match par with
  | .messageId => messageIdBits msg.type.value msg.msgId
  | .userData => userDataBits msg.userData
  | .deferredDeliveryTimeRelative =>
      match msg.deferValPeriod with
      | .relative time => field 8 time
      | _ => []
  | .deferredDeliveryTimeAbsolute =>
      match msg.deferValPeriod with
      | .absolute time => absoluteTimeBits time
      | _ => []
  | .priorityIndicator => field 2 msg.priority.value
  | .replyOption => replyOptionBits msg.replyOpt
  | .callbackNumber => callbackBits msg.callbackNumber
  | _ => []

def SubParameter.record (par : SubParameter) (msg : CdmaTeleserviceMsg) : RawRecord :=
  ⟨par.id, par.content msg⟩

/-- A period as it is sent, without the time zone. -/
def sentPeriod : SmsTimeStamp → SmsTimeStamp
  | .absolute time => .absolute { time with timeZone := 0 }
  | period => period

/-- A sub-parameter of `msg` read into `old`. -/
def SubParameter.store (par : SubParameter) (msg old : CdmaTeleserviceMsg) : CdmaTeleserviceMsg :=
  match par with
  | .messageId => { old with msgId := msg.msgId }
  | .userData => { old with userData := { msg.userData with msgType := 0 } }
  | .deferredDeliveryTimeRelative | .deferredDeliveryTimeAbsolute =>
      { old with deferValPeriod := sentPeriod msg.deferValPeriod }
  | .priorityIndicator => { old with priority := msg.priority }
  | .replyOption => { old with replyOpt := msg.replyOpt }
  | .callbackNumber =>
      { old with
        callbackNumber :=
          { msg.callbackNumber with
            numberType := if msg.callbackNumber.digitMode then msg.callbackNumber.numberType
              else old.callbackNumber.numberType
            numberPlan := if msg.callbackNumber.digitMode then msg.callbackNumber.numberPlan
              else old.callbackNumber.numberPlan } }
  | _ => old

/-- A property of the sub-parameters of a message to submit. -/
theorem forall_submitParameters {msg : CdmaTeleserviceMsg} {P : SubParameter → Prop}
    (hmessageId : P .messageId) (huserData : P .userData)
    (hrelative : ∀ time, msg.deferValPeriod = .relative time → P .deferredDeliveryTimeRelative)
    (habsolute : ∀ time, msg.deferValPeriod = .absolute time → P .deferredDeliveryTimeAbsolute)
    (hpriority : msg.priority ≠ .reserved → P .priorityIndicator)
    (hreplyOption : P .replyOption) (hcallback : P .callbackNumber) :
    ∀ par ∈ submitParameters msg, P par := by
  intro par hpar
  simp only [submitParameters, List.mem_append] at hpar
  obtain ((((hpar | hpar) | hpar) | hpar) | hpar) := hpar
  · simp only [List.mem_cons, List.not_mem_nil, or_false] at hpar
    obtain rfl | rfl := hpar
    · exact hmessageId
    · exact huserData
  · split at hpar
    · next time hperiod =>
        obtain rfl := List.mem_singleton.mp hpar
        exact hrelative time hperiod
    · next time hperiod =>
        obtain rfl := List.mem_singleton.mp hpar
        exact habsolute time hperiod
    · cases hpar
  · split at hpar
    · next h =>
        obtain rfl := List.mem_singleton.mp hpar
        exact hpriority h
    · cases hpar
  · split at hpar
    · obtain rfl := List.mem_singleton.mp hpar
      exact hreplyOption
    · cases hpar
  · split at hpar
    · obtain rfl := List.mem_singleton.mp hpar
      exact hcallback
    · cases hpar

theorem IsSendable.plain {data : SmsTeleSvcUserData} (h : IsSendable data) : data.Plain := by
  cases h with
  | septets htype hlt _ _ =>
      exact ⟨by obtain h | h := htype <;> simp [h], by obtain h | h := htype <;> simp [h],
        fun _ => hlt⟩
  | octets htype _ => exact ⟨by simp [htype], by simp [htype], by simp [htype]⟩
  | unicode htype _ _ => exact ⟨by simp [htype], by simp [htype], by simp [htype]⟩

theorem writes_submitParameter {msg : CdmaTransportMsg} (h : IsSubmit msg) :
    ∀ par ∈ submitParameters msg.telesvcMsg,
      Writes 0 (par.encode msg.telesvcMsg) (par.record msg.telesvcMsg).bits := by
  apply forall_submitParameters
  · exact writes_messageId (by rw [h.submit]; decide) _
  · exact writes_userData h.userData.plain
  · intro time hperiod
    have hencode : SubParameter.encode .deferredDeliveryTimeRelative msg.telesvcMsg =
        encodeBaseParameter 0x07 time := by
      funext b
      simp [SubParameter.encode, hperiod]
    simpa [hencode, SubParameter.record, SubParameter.id, SubParameter.content, RawRecord.bits,
      hperiod] using writes_base 0x07 time
  · intro time hperiod
    have hencode : SubParameter.encode .deferredDeliveryTimeAbsolute msg.telesvcMsg =
        encodeAbsoluteTime 0x06 time := by
      funext b
      simp [SubParameter.encode, hperiod]
    simpa [hencode, SubParameter.record, SubParameter.id, SubParameter.content, RawRecord.bits,
      hperiod] using writes_absoluteTime 0x06 time
  · intro hne
    refine writes_twoBits 0x08 ?_
    cases hpriority : msg.telesvcMsg.priority <;> first | decide | exact absurd hpriority hne
  · exact writes_replyOption _
  · exact writes_callback h.callback

theorem writes_parameters {msg : CdmaTeleserviceMsg} {pars : List SubParameter}
    {record : SubParameter → RawRecord}
    (h : ∀ par ∈ pars, Writes 0 (par.encode msg) (record par).bits) :
    Writes 0 (encodeParameters msg pars) ((pars.map record).flatMap RawRecord.bits) := by
  induction pars with
  | nil => exact Writes.pure
  | cons par pars ih =>
      have hlen := (record par).length_bits_mod
      exact (h par List.mem_cons_self).bind
        ((ih fun p hp => h p (List.mem_cons_of_mem par hp)).mono (by omega) rfl)

/-! ## Lengths that are accepted -/

theorem length_le_of_writeNumber {digitMode : Bool} {szData : List UInt8} {b c : SmsPduBuffer}
    (h : writeNumber digitMode szData b = some c) : szData.length ≤ 255 := by
  unfold writeNumber at h
  split at h
  · cases h
  · omega

theorem length_le_of_encodeCallback {address : SmsTeleSvcAddr} {b c : SmsPduBuffer}
    (h : encodeCallbackNumber address b = some c) : address.szData.length ≤ 255 := by
  simp only [encodeCallbackNumber, writeRecord, Option.bind_eq_bind, Option.bind_eq_some_iff] at h
  obtain ⟨_, -, _, ⟨_, -, h⟩, -⟩ := h
  split at h
  · cases h
  · simp only [Option.bind_eq_some_iff] at h
    obtain ⟨_, -, _, -, _, -, h⟩ := h
    exact length_le_of_writeNumber h

theorem length_le_of_encodeAddress {id : UInt8} {address : TransportAddr} {b c : SmsPduBuffer}
    (h : encodeAddressParameter id address b = some c) : address.szData.length ≤ 255 := by
  simp only [encodeAddressParameter, encodeAddress, writeRecord, Option.bind_eq_bind,
    Option.bind_eq_some_iff] at h
  obtain ⟨_, -, _, ⟨_, -, _, -, _, -, _, -, _, -, h⟩, -⟩ := h
  split at h
  · cases h
  · exact length_le_of_writeNumber h

theorem length_le_of_encodeSubaddress {id : UInt8} {address : TransportSubAddr}
    {b c : SmsPduBuffer} (h : encodeSubaddress id address b = some c) :
    address.szData.length ≤ 255 := by
  simp only [encodeSubaddress, writeRecord, Option.bind_eq_bind, Option.bind_eq_some_iff] at h
  obtain ⟨_, -, _, ⟨_, -, _, -, _, -, h⟩, -⟩ := h
  split at h
  · cases h
  · exact length_le_of_writeNumber h

theorem length_le_of_encodeUserData {data : SmsTeleSvcUserData} (hdata : IsSendable data)
    {b c : SmsPduBuffer} (h : encodeUserData data b = some c) : data.userData.data.length ≤ 161 := by
  simp only [encodeUserData, writeRecord, Option.bind_eq_bind, Option.bind_eq_some_iff] at h
  obtain ⟨_, -, _, ⟨_, -, d, -, h⟩, -⟩ := h
  have hascii (e : SmsPduBuffer) (h : encodeAscii7Bit data d = some e) :
      data.userData.data.length ≤ 161 := by
    obtain ⟨_, -, h⟩ := Option.bind_eq_some_iff.mp h
    split at h
    · cases h
    · omega
  cases hdata with
  | septets htype _ _ _ => obtain htype | htype := htype <;> exact hascii _ (by simpa [htype] using h)
  | octets htype _ =>
      simp only [htype, encode8BitData] at h
      split at h
      · cases h
      · omega
  | unicode htype _ _ =>
      simp only [htype] at h
      obtain ⟨_, -, h⟩ := Option.bind_eq_some_iff.mp h
      split at h
      · cases h
      · omega

theorem exists_encode_of_encodeParameters {msg : CdmaTeleserviceMsg} {pars : List SubParameter}
    {b c : SmsPduBuffer} (h : encodeParameters msg pars b = some c) :
    ∀ par ∈ pars, ∃ b' c', par.encode msg b' = some c' := by
  induction pars generalizing b with
  | nil => simp
  | cons par pars ih =>
      obtain ⟨d, hfirst, h⟩ := Option.bind_eq_some_iff.mp h
      intro p hp
      rcases List.mem_cons.mp hp with rfl | hp
      · exact ⟨b, d, hfirst⟩
      · exact ih h p hp

/-! ## Reading back -/

theorem reads_sendable (coder : TextCoder) {data : SmsTeleSvcUserData} (h : IsSendable data)
    (hlen : data.userData.data.length ≤ 161) :
    Reads (decodeUserData coder (data.userData.header ≠ []))
      (recordBits 0x01 (userDataBits data)) { data with msgType := 0 } := by
  obtain ⟨hne, hne', -⟩ := h.plain
  cases h with
  | septets htype hlt hplain hn =>
      have hle := length_flatMap_headerOctets_le data.userData.header
      have hudh : data.userData.udh.length ≤ 42 := by
        unfold SmsUDPackage.udh
        omega
      have hbits : fieldsBits data = field 8 (UInt8.ofNat (numFields7 false
          data.userData.udh.length data.userData.data.length)) ++ (udhBits data.userData.udh ++
            (fill7 false data.userData.udh.length ++ each 7 data.userData.data)) := by
        have hheader := header7Bits_eq false data.userData.udh data.userData.data.length
        have hpdu : headerPdu data.userData.header = data.userData.udh := headerPdu_eq hn
        obtain htype | htype := htype <;> simp [fieldsBits, htype, hpdu, hheader]
      refine reads_userData coder hne hne' hplain hn hbits fun passed rest => ?_
      have hread := decodeAscii7Bit_bitCursor hudh hlen hlt passed rest
      obtain htype | htype := htype <;> simpa [decodeFields, htype] using hread
  | octets htype hheader =>
      have hbits : fieldsBits data = field 8 (UInt8.ofNat data.userData.data.length) ++
          (udhBits data.userData.udh ++ each 8 data.userData.data) := by
        simp [fieldsBits, htype, SmsUDPackage.udh, hheader, udhBits]
      refine reads_userData coder hne hne' (by simp [hheader]) (by simp [hheader]) hbits
        fun passed rest => ?_
      have hread := decode8BitData_bitCursor hlen passed rest
      simpa [decodeFields, htype, hheader] using hread
  | unicode htype hheader heven =>
      have hbits : fieldsBits data = field 8 (UInt8.ofNat (data.userData.data.length / 2)) ++
          (udhBits data.userData.udh ++ each 8 data.userData.data) := by
        have hpdu : headerPdu [] = [] := headerPdu_eq (by simp)
        simp [fieldsBits, htype, SmsUDPackage.udh, hheader, udhBits, headerUnicodeBits, hpdu]
      refine reads_userData coder hne hne' (by simp [hheader]) (by simp [hheader]) hbits
        fun passed rest => ?_
      have hread := decode8BitData_bitCursor hlen passed rest
      have hlength : UInt8.ofNat (data.userData.data.length / 2) * 2 =
          UInt8.ofNat data.userData.data.length := by
        apply UInt8.toNat_inj.mp
        rw [UInt8.toNat_mul, ofNat_toNat_of_le (by omega), ofNat_toNat_of_le (by omega)]
        simp
        omega
      simpa [decodeFields, htype, hheader, hlength] using hread

/-- A sub-parameter that a writer has accepted is read back, user data under the
header indicator of its message. -/
theorem reads_submitParameter (coder : TextCoder) {msg : CdmaTransportMsg} (h : IsSubmit msg)
    (old : CdmaTeleserviceMsg) :
    ∀ par ∈ submitParameters msg.telesvcMsg, ∀ b c, par.encode msg.telesvcMsg b = some c →
      (par = .messageId ∨ old.msgId = msg.telesvcMsg.msgId) →
      Reads (par.decode coder old) (par.record msg.telesvcMsg).bits
        (par.store msg.telesvcMsg old) := by
  apply forall_submitParameters
  · intro b c _ _
    have htype : msg.telesvcMsg.type.value.toNat < 2 ^ 4 := by rw [h.submit]; decide
    exact (reads_messageId htype msg.telesvcMsg.msgId).store
      fun x => { old with msgId := x.2 }
  · intro b c haccepted hold
    have hmsgId : old.msgId = msg.telesvcMsg.msgId := hold.resolve_left (by simp)
    have hread := reads_sendable coder h.userData
      (length_le_of_encodeUserData h.userData haccepted)
    rw [← h.headerInd, ← hmsgId] at hread
    exact hread.store fun data => { old with userData := data }
  · intro time hperiod b c _ _
    have hread := (reads_base 0x07 time).store
      fun time => { old with deferValPeriod := .relative time }
    simp only [SubParameter.record, SubParameter.content, SubParameter.store, hperiod, sentPeriod]
    exact hread
  · intro time hperiod b c _ _
    have hread := (reads_absoluteTime 0x06 (h.deferred time hperiod)).store
      fun time => { old with deferValPeriod := .absolute time }
    simp only [SubParameter.record, SubParameter.content, SubParameter.store, hperiod, sentPeriod]
    exact hread
  · intro hne b c _ _
    exact (reads_priorityInd hne).store fun priority => { old with priority := priority }
  · intro b c _ _
    exact (reads_replyOption _).store fun replyOpt => { old with replyOpt := replyOpt }
  · intro b c haccepted _
    exact (reads_callback h.callback (length_le_of_encodeCallback haccepted)).store
      fun address => { old with callbackNumber := address }

theorem store_msgId (par : SubParameter) {msg old : CdmaTeleserviceMsg}
    (h : par = .messageId ∨ old.msgId = msg.msgId) : (par.store msg old).msgId = msg.msgId := by
  cases par <;> simp_all [SubParameter.store]

/-- The identifier comes first, and from there on the header indicator is known. -/
theorem reads_fromMessageId (coder : TextCoder) {msg : CdmaTeleserviceMsg}
    {record : SubParameter → RawRecord}
    {store : SubParameter → CdmaTeleserviceMsg → CdmaTeleserviceMsg}
    (hstep : ∀ par ∈ submitParameters msg, ∀ old : CdmaTeleserviceMsg,
      (par = .messageId ∨ old.msgId = msg.msgId) →
      Reads (par.decode coder old) (record par).bits (store par old) ∧
        (store par old).msgId = msg.msgId)
    (old : CdmaTeleserviceMsg) :
    Reads (decodeSubParameters coder (submitParameters msg) old)
      (((submitParameters msg).map record).flatMap RawRecord.bits)
      ((submitParameters msg).foldl (fun m par => store par m) old) := by
  obtain ⟨pars, hpars⟩ : ∃ pars, submitParameters msg = .messageId :: pars := ⟨_, rfl⟩
  rw [hpars] at hstep ⊢
  obtain ⟨hfirst, hgood⟩ := hstep .messageId List.mem_cons_self old (.inl rfl)
  have hrest := reads_parameters id record store
    (fun par hpar old hold => hstep par (List.mem_cons_of_mem _ hpar) old (.inr hold))
    _ hgood
  intro passed rest hpassed
  have hlen := (record .messageId).length_bits_mod
  have hread := hrest (passed ++ (record .messageId).bits) rest
    (by rw [List.length_append]; omega)
  simp only [List.map_id, List.map_cons, List.flatMap_cons, List.append_assoc,
    decodeSubParameters, hfirst passed _ hpassed, Option.bind_eq_bind, Option.bind_some,
    List.foldl_cons] at hread ⊢
  exact hread

theorem reads_submitParameters (coder : TextCoder) {msg : CdmaTransportMsg} (h : IsSubmit msg)
    {b c : SmsPduBuffer}
    (hencode : encodeParameters msg.telesvcMsg (submitParameters msg.telesvcMsg) b = some c)
    (old : CdmaTeleserviceMsg) :
    Reads (decodeSubParameters coder (submitParameters msg.telesvcMsg) old)
      (((submitParameters msg.telesvcMsg).map fun par => par.record msg.telesvcMsg).flatMap
        RawRecord.bits)
      ((submitParameters msg.telesvcMsg).foldl (fun m par => par.store msg.telesvcMsg m) old) := by
  have haccepted := exists_encode_of_encodeParameters hencode
  refine reads_fromMessageId coder (fun par hpar old hold => ?_) old
  obtain ⟨b', c', hone⟩ := haccepted par hpar
  exact ⟨reads_submitParameter coder h old par hpar b' c' hone hold, store_msgId par hold⟩

/-! ## Parameter records -/

/-- The contents of a parameter of a message to submit. -/
def ParameterRecord.content (par : ParameterRecord) (msg : CdmaTransportMsg) : List Bool :=
  match par with
  | .teleserviceId => wordBits msg.teleserviceId
  | .serviceCategory => wordBits msg.serviceCtg
  | .address _ => addressBits msg.address
  | .subaddress _ => subaddressBits msg.subAddress
  | .bearerReply => field 6 msg.replySeq
  | .causeCodes => []
  | .bearerData _ =>
      ((submitParameters msg.telesvcMsg).map fun p => p.record msg.telesvcMsg).flatMap
        RawRecord.bits

def ParameterRecord.record (par : ParameterRecord) (msg : CdmaTransportMsg) : RawRecord :=
  ⟨par.id, par.content msg⟩

/-- A parameter of `msg`, other than bearer data, read into `old`. -/
def ParameterRecord.store (par : ParameterRecord) (msg old : CdmaTransportMsg) :
    CdmaTransportMsg :=
  match par with
  | .teleserviceId => { old with teleserviceId := msg.teleserviceId }
  | .serviceCategory => { old with serviceCtg := msg.serviceCtg }
  | .address _ => { old with address := msg.address.sent }
  | .subaddress _ => { old with subAddress := msg.subAddress }
  | .bearerReply => { old with replySeq := msg.replySeq }
  | _ => old

/-- The parameters in front of bearer data. -/
def p2pFront (msg : CdmaTransportMsg) : List ParameterRecord :=
  [.teleserviceId] ++
  (if msg.serviceCtg < 0x8001 then [.serviceCategory] else []) ++
  [.address 0x04] ++
  (if msg.subAddress.szData.length > 0 then [.subaddress 0x05] else []) ++
  (if msg.replySeq > 0 then [.bearerReply] else [])

theorem p2pParameters_eq (msg : CdmaTransportMsg) :
    p2pParameters msg = p2pFront msg ++ [.bearerData none] := rfl

theorem forall_p2pFront {msg : CdmaTransportMsg} {P : ParameterRecord → Prop}
    (hteleserviceId : P .teleserviceId) (hcategory : P .serviceCategory)
    (haddress : P (.address 0x04)) (hsubaddress : P (.subaddress 0x05))
    (hreply : P .bearerReply) : ∀ par ∈ p2pFront msg, P par := by
  intro par hpar
  have hmem : par ∈ [ParameterRecord.teleserviceId, .serviceCategory, .address 0x04,
      .subaddress 0x05, .bearerReply] := by
    revert hpar
    unfold p2pFront
    split <;> split <;> split <;> simp <;> grind
  simp only [List.mem_cons, List.not_mem_nil, or_false] at hmem
  obtain rfl | rfl | rfl | rfl | rfl := hmem
  · exact hteleserviceId
  · exact hcategory
  · exact haddress
  · exact hsubaddress
  · exact hreply

theorem writes_p2pFront {msg : CdmaTransportMsg} (h : IsSubmit msg) :
    ∀ par ∈ p2pFront msg, Writes 0 (par.encode msg) (par.record msg).bits :=
  forall_p2pFront (writes_word 0x00 _) (writes_word 0x01 _) (writes_address 0x04 h.address)
    (writes_subaddress 0x05 _) (writes_bearerReply h.replySeq_lt)

theorem skipBits_of_insertByte {b c : SmsPduBuffer} {v : UInt8} {i : Nat}
    (h : b.insertByte v i = some c) : b.skipBits = b := by
  unfold insertByte at h
  split at h
  · next hroom => rw [skipBits, if_neg (by omega)]
  · cases h

/-- Bearer data is a record like the others, whose contents end with an octet. -/
theorem writes_bearerRecord {msg : CdmaTeleserviceMsg} (hsubmit : msg.type = .submit)
    {record : SubParameter → RawRecord}
    (h : ∀ par ∈ submitParameters msg, Writes 0 (par.encode msg) (record par).bits) :
    Writes 0 (encodeBearerData msg)
      (recordBits 0x08 (((submitParameters msg).map record).flatMap RawRecord.bits)) := by
  have hrecord : Writes 0 (writeRecord 0x08 _) _ := writes_record rfl (writes_parameters h)
  intro passed n c hpassed hsize hc
  refine hrecord passed n c hpassed hsize ?_
  simp only [encodeBearerData, teleserviceParameters, hsubmit, Option.bind_eq_bind,
    Option.bind_some, Option.bind_eq_some_iff] at hc
  obtain ⟨b₁, hid, b₂, hpars, hinsert⟩ := hc
  simp only [writeRecord, hid, hpars, Option.bind_eq_bind, Option.bind_some, insertLen,
    skipBits_of_insertByte hinsert, hinsert]

theorem writes_bearerData {msg : CdmaTransportMsg} (h : IsSubmit msg) :
    Writes 0 (encodeBearerData msg.telesvcMsg)
      (ParameterRecord.record (.bearerData none) msg).bits := by
  have hrecord : Writes 0 (encodeBearerData msg.telesvcMsg)
      (recordBits 0x08 (((submitParameters msg.telesvcMsg).map fun par =>
        par.record msg.telesvcMsg).flatMap RawRecord.bits)) :=
    writes_bearerRecord h.submit (writes_submitParameter h)
  exact hrecord

theorem writes_records {msg : CdmaTransportMsg} {pars : List ParameterRecord}
    {record : ParameterRecord → RawRecord}
    (h : ∀ par ∈ pars, Writes 0 (par.encode msg) (record par).bits) :
    Writes 0 (encodeRecords msg pars) ((pars.map record).flatMap RawRecord.bits) := by
  induction pars with
  | nil => exact Writes.pure
  | cons par pars ih =>
      have hlen := (record par).length_bits_mod
      exact (h par List.mem_cons_self).bind
        ((ih fun p hp => h p (List.mem_cons_of_mem par hp)).mono (by omega) rfl)

theorem exists_encode_of_encodeRecords {msg : CdmaTransportMsg} {pars : List ParameterRecord}
    {b c : SmsPduBuffer} (h : encodeRecords msg pars b = some c) :
    ∀ par ∈ pars, ∃ b' c', par.encode msg b' = some c' := by
  induction pars generalizing b with
  | nil => simp
  | cons par pars ih =>
      obtain ⟨d, hfirst, h⟩ := Option.bind_eq_some_iff.mp h
      intro p hp
      rcases List.mem_cons.mp hp with rfl | hp
      · exact ⟨b, d, hfirst⟩
      · exact ih h p hp

/-- The bits of a whole message to submit. -/
def transportBits (msg : CdmaTransportMsg) : List Bool :=
  field 8 0 ++ (((p2pFront msg).map fun par => par.record msg).flatMap RawRecord.bits ++
    (ParameterRecord.record (.bearerData none) msg).bits)

/-- What is written of the parameters in front and of bearer data with these contents fits the
buffer, and its octets are those of the bits. -/
theorem encodeTransport_octets {msg : CdmaTransportMsg} (hp2p : msg.type = .p2p)
    (hfront : ∀ par ∈ p2pFront msg, Writes 0 (par.encode msg) (par.record msg).bits)
    {records : List RawRecord} (hbearer : Writes 0 (encodeBearerData msg.telesvcMsg)
      (recordBits 0x08 (records.flatMap RawRecord.bits)))
    {bits : List Bool} (hbits : bits = field 8 0 ++ (((p2pFront msg).map fun par =>
      par.record msg).flatMap RawRecord.bits ++ recordBits 0x08 (records.flatMap RawRecord.bits)))
    {b : SmsPduBuffer} (hb : encodeTransport msg = some b) :
    bits.length ≤ 2048 ∧ b.data.take b.index = BitStream.octets bits ∧
      ∃ b₁, encodeRecords msg (p2pParameters msg) b₁ = some b := by
  have hset : new.setIndex 0 = blank [] 2048 := by
    rw [new_eq_blank]
    exact setIndex_bitCursor rfl rfl rfl rfl
  have hstart : encodeTransport msg =
      (blank [] 2048).writeByte 0 >>= encodeRecords msg (p2pParameters msg) := by
    simp only [encodeTransport, transportParameters, hp2p, hset, Option.bind_eq_bind,
      Option.bind_some]
  let record (par : ParameterRecord) : RawRecord :=
    if par = .bearerData none then ⟨0x08, records.flatMap RawRecord.bits⟩ else par.record msg
  have hrecord : ∀ par ∈ p2pFront msg, record par = par.record msg :=
    forall_p2pFront rfl rfl rfl rfl rfl
  have hall : ∀ par ∈ p2pParameters msg, Writes 0 (par.encode msg) (record par).bits := by
    rw [p2pParameters_eq]
    intro par hpar
    rcases List.mem_append.mp hpar with hpar | hpar
    · rw [hrecord par hpar]
      exact hfront par hpar
    · obtain rfl := List.mem_singleton.mp hpar
      exact hbearer
  have hwrites : Writes 0 (fun b => b.writeByte 0 >>= encodeRecords msg (p2pParameters msg))
      bits := by
    refine ((Writes.byte 0).bind ((writes_records hall).mono (by simp) rfl)).mono rfl ?_
    rw [hbits, p2pParameters_eq, List.map_append, List.flatMap_append, List.map_congr_left hrecord]
    simp [record, RawRecord.bits]
  have hmod : bits.length % 8 = 0 := by
    have hfirst := RawRecord.length_flatMap_bits_mod ((p2pFront msg).map fun par => par.record msg)
    have hlast := length_recordBits 0x08 (records.flatMap RawRecord.bits)
    rw [hbits, List.length_append, List.length_append, length_field]
    omega
  rw [hstart] at hb
  obtain ⟨b₁, -, hrecords⟩ := Option.bind_eq_some_iff.mp hb
  obtain ⟨hle, rfl⟩ := hwrites [] 2048 b rfl rfl hb
  refine ⟨hle, ?_, b₁, hrecords⟩
  rw [List.nil_append, take_blank _ hmod]

/-- What is written fits the buffer, and its octets are those of the bits. -/
theorem encodeTransport_eq {msg : CdmaTransportMsg} (h : IsSubmit msg) {b : SmsPduBuffer}
    (hb : encodeTransport msg = some b) :
    (transportBits msg).length ≤ 2048 ∧
      b.data.take b.index = BitStream.octets (transportBits msg) ∧
      ∃ b₁, encodeRecords msg (p2pParameters msg) b₁ = some b :=
  encodeTransport_octets h.p2p (writes_p2pFront h) (writes_bearerData h) rfl hb

theorem reads_p2pFront (coder : TextCoder) {msg : CdmaTransportMsg} (h : IsSubmit msg) :
    ∀ par ∈ p2pFront msg, (∃ b c, par.encode msg b = some c) →
      ∀ old, Reads (par.decode coder old) (par.record msg).bits (par.store msg old) := by
  apply forall_p2pFront
  · intro _ old
    exact (reads_word 0x00 _).store fun v => { old with teleserviceId := v }
  · intro _ old
    exact (reads_word 0x01 _).store fun v => { old with serviceCtg := v }
  · rintro ⟨b, c, haccepted⟩ old
    exact (reads_address 0x04 h.address (length_le_of_encodeAddress haccepted)).store
      fun address => { old with address := address }
  · rintro ⟨b, c, haccepted⟩ old
    exact (reads_subaddress 0x05 (length_le_of_encodeSubaddress haccepted)).store
      fun address => { old with subAddress := address }
  · intro _ old
    exact (reads_bearerReply h.replySeq_lt).store fun replySeq => { old with replySeq := replySeq }

/-! ## The round trip -/

/-- What the receiver has of the teleservice message of `msg`. -/
def receivedTelesvc (msg : CdmaTeleserviceMsg) : CdmaTeleserviceMsg :=
  { CdmaTeleserviceMsg.zero with
    type := .submit
    msgId := msg.msgId
    userData := { msg.userData with msgType := 0 }
    deferValPeriod := sentPeriod msg.deferValPeriod
    priority := msg.priority
    replyOpt := msg.replyOpt
    callbackNumber :=
      if msg.callbackNumber.szData.length > 0 then
        { msg.callbackNumber with
          numberType := if msg.callbackNumber.digitMode then msg.callbackNumber.numberType else 0
          numberPlan := if msg.callbackNumber.digitMode then msg.callbackNumber.numberPlan else 0 }
      else CdmaTeleserviceMsg.zero.callbackNumber }

section Stages

variable {msg m : CdmaTeleserviceMsg}

theorem foldl_priority (hm : m.priority = .reserved) :
    (if msg.priority ≠ .reserved then [SubParameter.priorityIndicator] else []).foldl
      (fun m par => par.store msg m) m = { m with priority := msg.priority } := by
  split
  · rfl
  · cases m
    simp_all

theorem foldl_replyOption (hm : m.replyOpt = ⟨false, false, false, false⟩) :
    (if msg.replyOpt.userAck || msg.replyOpt.dak || msg.replyOpt.readAck || msg.replyOpt.report then
      [SubParameter.replyOption] else []).foldl (fun m par => par.store msg m) m =
        { m with replyOpt := msg.replyOpt } := by
  split
  · rfl
  · next h =>
      cases m
      cases hopt : msg.replyOpt
      simp_all

/-- The parameters behind the period. -/
theorem foldl_options (hpriority : m.priority = .reserved)
    (hreply : m.replyOpt = ⟨false, false, false, false⟩)
    (hcallback : m.callbackNumber = CdmaTeleserviceMsg.zero.callbackNumber) :
    (if msg.callbackNumber.szData.length > 0 then [SubParameter.callbackNumber] else []).foldl
      (fun m par => par.store msg m)
      ((if msg.replyOpt.userAck || msg.replyOpt.dak || msg.replyOpt.readAck ||
          msg.replyOpt.report then [SubParameter.replyOption] else []).foldl
        (fun m par => par.store msg m)
        ((if msg.priority ≠ .reserved then [SubParameter.priorityIndicator] else []).foldl
          (fun m par => par.store msg m) m)) =
      { m with
        priority := msg.priority
        replyOpt := msg.replyOpt
        callbackNumber := (receivedTelesvc msg).callbackNumber } := by
  rw [foldl_priority hpriority, foldl_replyOption (by exact hreply)]
  cases m
  simp only at hcallback
  subst hcallback
  by_cases hpos : msg.callbackNumber.szData.length > 0
  · rw [if_pos hpos, receivedTelesvc, if_pos hpos]
    rfl
  · rw [if_neg hpos, receivedTelesvc, if_neg hpos]
    rfl

end Stages

theorem foldl_submitParameters (msg : CdmaTeleserviceMsg) :
    (submitParameters msg).foldl (fun m par => par.store msg m) (startOf .submit .zero) =
      receivedTelesvc msg := by
  simp only [submitParameters, List.foldl_append]
  rw [foldl_options]
  · cases hperiod : msg.deferValPeriod <;>
      simp [SubParameter.store, hperiod, sentPeriod, startOf, receivedTelesvc,
        CdmaTeleserviceMsg.zero]
  all_goals cases hperiod : msg.deferValPeriod <;> rfl

theorem foldl_p2pFront (msg m : CdmaTransportMsg) (hcategory : m.serviceCtg = 0x8001)
    (hsub : m.subAddress = ⟨.nsap, false, []⟩) (hreply : m.replySeq = 0) :
    (p2pFront msg).foldl (fun m par => par.store msg m) m =
      { m with
        teleserviceId := msg.teleserviceId
        serviceCtg := if msg.serviceCtg < 0x8001 then msg.serviceCtg else 0x8001
        address := msg.address.sent
        subAddress := if msg.subAddress.szData.length > 0 then msg.subAddress
          else ⟨.nsap, false, []⟩
        replySeq := msg.replySeq } := by
  have hzero : ¬ msg.replySeq > 0 → msg.replySeq = 0 := by
    intro h
    apply UInt8.toNat_inj.mp
    have hle : ¬ 0 < msg.replySeq.toNat := h
    simpa using hle
  cases m
  simp only at hcategory hsub hreply
  subst hcategory hsub hreply
  simp only [p2pFront, List.foldl_append]
  by_cases hreplySeq : msg.replySeq > 0
  · rw [if_pos hreplySeq]
    split <;> split <;> rfl
  · rw [if_neg hreplySeq, hzero hreplySeq]
    split <;> split <;> rfl

/-- `msg'` has what `msg` says of itself in its octets. The type and the plan of
a number belong to it only in the modes that have them, a number that is not
there has no mode, and a time has no zone. -/
structure Restores (msg msg' : CdmaTransportMsg) : Prop where
  type : msg'.type = msg.type
  teleserviceId : msg'.teleserviceId = msg.teleserviceId
  digits : msg'.address.szData = msg.address.szData
  digitMode : msg'.address.digitMode = msg.address.digitMode
  numberMode : msg'.address.numberMode = msg.address.numberMode
  numberType : msg.address.digitMode = true → msg'.address.numberType = msg.address.numberType
  numberPlan : (msg.address.digitMode && !msg.address.numberMode) = true →
    msg'.address.numberPlan = msg.address.numberPlan
  subAddress : msg.subAddress.szData ≠ [] → msg'.subAddress = msg.subAddress
  replySeq : msg'.replySeq = msg.replySeq
  telesvcType : msg'.telesvcMsg.type = msg.telesvcMsg.type
  msgId : msg'.telesvcMsg.msgId = msg.telesvcMsg.msgId
  priority : msg'.telesvcMsg.priority = msg.telesvcMsg.priority
  replyOpt : msg'.telesvcMsg.replyOpt = msg.telesvcMsg.replyOpt
  deferValPeriod : msg'.telesvcMsg.deferValPeriod = sentPeriod msg.telesvcMsg.deferValPeriod
  callback : msg'.telesvcMsg.callbackNumber.szData = msg.telesvcMsg.callbackNumber.szData
  callbackMode : msg.telesvcMsg.callbackNumber.szData ≠ [] →
    msg'.telesvcMsg.callbackNumber.digitMode = msg.telesvcMsg.callbackNumber.digitMode
  callbackType : msg.telesvcMsg.callbackNumber.szData ≠ [] →
    msg.telesvcMsg.callbackNumber.digitMode = true →
    msg'.telesvcMsg.callbackNumber.numberType = msg.telesvcMsg.callbackNumber.numberType ∧
      msg'.telesvcMsg.callbackNumber.numberPlan = msg.telesvcMsg.callbackNumber.numberPlan
  encodeType : msg'.telesvcMsg.userData.encodeType = msg.telesvcMsg.userData.encodeType
  userData : msg'.telesvcMsg.userData.userData = msg.telesvcMsg.userData.userData

/-- What the receiver has of `msg`. -/
def received (msg : CdmaTransportMsg) : CdmaTransportMsg :=
  { CdmaTransportMsg.zero with
    type := .p2p
    teleserviceId := msg.teleserviceId
    serviceCtg := if msg.serviceCtg < 0x8001 then msg.serviceCtg else 0x8001
    address := msg.address.sent
    subAddress := if msg.subAddress.szData.length > 0 then msg.subAddress else ⟨.nsap, false, []⟩
    replySeq := msg.replySeq
    telesvcMsg := receivedTelesvc msg.telesvcMsg }

theorem restores_received {msg : CdmaTransportMsg} (h : IsSubmit msg) :
    Restores msg (received msg) where
  type := h.p2p.symm
  teleserviceId := rfl
  digits := rfl
  digitMode := rfl
  numberMode := rfl
  numberType := fun hmode => if_pos hmode
  numberPlan := fun hmode => if_pos hmode
  subAddress := fun hne => if_pos (List.length_pos_of_ne_nil hne)
  replySeq := rfl
  telesvcType := h.submit.symm
  msgId := rfl
  priority := rfl
  replyOpt := rfl
  deferValPeriod := rfl
  callback := by
    simp only [received, receivedTelesvc]
    split
    · rfl
    · next hnil => exact (List.eq_nil_of_length_eq_zero (by omega)).symm
  callbackMode := by
    intro hne
    simp only [received, receivedTelesvc, if_pos (List.length_pos_of_ne_nil hne)]
  callbackType := by
    intro hne hmode
    simp only [received, receivedTelesvc, if_pos (List.length_pos_of_ne_nil hne), if_pos hmode,
      and_self]
  encodeType := rfl
  userData := rfl

theorem submitParameter_id (msg : CdmaTeleserviceMsg) :
    ∀ par ∈ submitParameters msg, submitParameter (par.record msg).id = par :=
  forall_submitParameters rfl rfl (fun _ _ => rfl) (fun _ _ => rfl) (fun _ => rfl) rfl rfl

theorem notedParameter_id (msg : CdmaTransportMsg) :
    ∀ par ∈ p2pFront msg,
      notedParameter (par.record msg).id = par ∧ (par.record msg).id ∈ p2pNoted :=
  forall_p2pFront ⟨rfl, show 0x00 ∈ p2pNoted by decide⟩ ⟨rfl, show 0x01 ∈ p2pNoted by decide⟩
    ⟨rfl, show 0x04 ∈ p2pNoted by decide⟩ ⟨rfl, show 0x05 ∈ p2pNoted by decide⟩
    ⟨rfl, show 0x06 ∈ p2pNoted by decide⟩

theorem length_p2pFront_le (msg : CdmaTransportMsg) : (p2pFront msg).length ≤ 8 := by
  unfold p2pFront
  split <;> split <;> split <;> simp

theorem length_submitParameters_le (msg : CdmaTeleserviceMsg) :
    (submitParameters msg).length ≤ 24 := by
  unfold submitParameters
  split <;> split <;> split <;> split <;> simp

/-- The sub-parameters of a message that was written have been accepted. -/
theorem exists_encode_of_encodeBearerData {msg : CdmaTeleserviceMsg} (hsubmit : msg.type = .submit)
    {b c : SmsPduBuffer} (hb : encodeBearerData msg b = some c) :
    ∃ b' c', encodeParameters msg (submitParameters msg) b' = some c' := by
  simp only [encodeBearerData, teleserviceParameters, hsubmit, Option.bind_eq_bind,
    Option.bind_some, Option.bind_eq_some_iff] at hb
  obtain ⟨b₁, -, b₂, hpars, -⟩ := hb
  exact ⟨_, b₂, hpars⟩

/-- The message as the scan leaves it. -/
def scannedSubmit : CdmaTransportMsg :=
  { CdmaTransportMsg.zero with
    type := .p2p
    serviceCtg := 0x8001
    telesvcMsg := startOf .submit .zero }

/-- The records of the sub-parameters of a message to submit. -/
def subRecords (msg : CdmaTeleserviceMsg) : List RawRecord :=
  (submitParameters msg).map fun par => par.record msg

/-- Both scans find the parameters in front and the sub-parameters, whatever the contents of the
records behind the identifier of the message. -/
theorem createTransportMessage_records {msg : CdmaTransportMsg}
    (hsubmit : msg.telesvcMsg.type = .submit) {record : SubParameter → RawRecord}
    (hfirst : record .messageId = SubParameter.record .messageId msg.telesvcMsg)
    (hids : ∀ par ∈ submitParameters msg.telesvcMsg, (record par).id = par.id)
    {bits : List Bool} (hbits : bits = field 8 0 ++ (((p2pFront msg).map fun par =>
      par.record msg).flatMap RawRecord.bits ++ recordBits 0x08
        (((submitParameters msg.telesvcMsg).map record).flatMap RawRecord.bits)))
    (hlen : bits.length ≤ 2048) :
    ∃ pars subs start len,
      createTransportMessage .zero (bitCursor [] bits) =
        some (scannedSubmit, pars ++ [⟨start, len, .bearerData (some subs)⟩]) ∧
      pars.map Scanned.parameter = p2pFront msg ∧
      subs.map Scanned.parameter = submitParameters msg.telesvcMsg := by
  have htype : msg.telesvcMsg.type.value.toNat < 2 ^ 4 := by rw [hsubmit]; decide
  have hkind : messageKind false msg.telesvcMsg.type.value = some (.submit, submitParameter) := by
    rw [hsubmit]
    rfl
  have hnoted : ∀ r ∈ (p2pFront msg).map fun par => par.record msg, r.id ∈ p2pNoted := by
    intro r hr
    obtain ⟨par, hpar, rfl⟩ := List.mem_map.mp hr
    exact (notedParameter_id msg par hpar).2
  have hfront : ((p2pFront msg).map fun par => par.record msg).length ≤ 8 := by
    rw [List.length_map]
    exact length_p2pFront_le msg
  have hcount : ((submitParameters msg.telesvcMsg).map record).length ≤ 24 := by
    rw [List.length_map]
    exact length_submitParameters_le _
  obtain ⟨after, hafter⟩ : ∃ after, (submitParameters msg.telesvcMsg).map record =
      [] ++ SubParameter.record .messageId msg.telesvcMsg :: after := by
    obtain ⟨pars, hpars⟩ : ∃ pars, submitParameters msg.telesvcMsg = .messageId :: pars := ⟨_, rfl⟩
    rw [hpars, List.map_cons, hfirst]
    exact ⟨_, rfl⟩
  have hread : Reads decodeMessageId (SubParameter.record .messageId msg.telesvcMsg).bits
      (msg.telesvcMsg.type.value, msg.telesvcMsg.msgId) := reads_messageId htype _
  have hid : (SubParameter.record .messageId msg.telesvcMsg).id = 0x00 := rfl
  have hbefore : ∀ r ∈ ([] : List RawRecord), r.id ≠ 0x00 := by simp
  rw [hbits, hafter] at hlen
  rw [hafter] at hcount
  obtain ⟨pars, subs, start, len, hcreate, hpars, hsubs⟩ := createTransportMessage_p2p hnoted
    hfront hread hid hkind hbefore hcount hlen
  refine ⟨pars, subs, start, len, ?_, ?_, ?_⟩
  · rw [hbits, hafter]
    exact hcreate
  · rw [hpars, List.map_map]
    conv_rhs => rw [← List.map_id (p2pFront msg)]
    exact List.map_congr_left fun par hpar => (notedParameter_id msg par hpar).1
  · rw [hsubs, ← hafter, List.map_map]
    conv_rhs => rw [← List.map_id (submitParameters msg.telesvcMsg)]
    refine List.map_congr_left fun par hpar => ?_
    rw [Function.comp_apply, hids par hpar]
    exact submitParameter_id msg.telesvcMsg par hpar

/-- Both scans find the parameters that were written. -/
theorem createTransportMessage_submit {msg : CdmaTransportMsg} (h : IsSubmit msg)
    (hlen : (transportBits msg).length ≤ 2048) :
    ∃ pars subs start len,
      createTransportMessage .zero (bitCursor [] (transportBits msg)) =
        some (scannedSubmit, pars ++ [⟨start, len, .bearerData (some subs)⟩]) ∧
      pars.map Scanned.parameter = p2pFront msg ∧
      subs.map Scanned.parameter = submitParameters msg.telesvcMsg := by
  have hbits : transportBits msg = field 8 0 ++ (((p2pFront msg).map fun par =>
      par.record msg).flatMap RawRecord.bits ++ recordBits 0x08
        ((subRecords msg.telesvcMsg).flatMap RawRecord.bits)) := rfl
  exact createTransportMessage_records h.submit rfl (fun _ _ => rfl) hbits hlen

/-- The second part of two to an eight-bit number, with a callback number and a
deferred delivery. -/
def secondPart : CdmaTransportMsg :=
  { CdmaTransportMsg.zero with
    teleserviceId := 0x1002
    address := ⟨true, false, 1, 1, [0x2B, 0x34, 0x39, 0x31]⟩
    replySeq := 5
    telesvcMsg :=
      { CdmaTeleserviceMsg.zero with
        type := .submit
        msgId := ⟨0x1234, true⟩
        userData := ⟨.ascii7Bit, 0, ⟨[.concat8Bit 7 2 2], [0x48, 0x69, 0x21]⟩⟩
        deferValPeriod := .absolute ⟨24, 12, 31, 23, 59, 0, 0⟩
        priority := .urgent
        replyOpt := ⟨false, true, false, false⟩
        callbackNumber := ⟨false, 0, 0, [0x2A, 0x31, 0x23]⟩ } }

theorem isSubmit_secondPart : IsSubmit secondPart where
  p2p := rfl
  submit := rfl
  address := ⟨fun _ => by decide, fun _ => by decide, nofun⟩
  replySeq_lt := by decide
  headerInd := by decide
  userData := .septets (.inl rfl) (by simp [secondPart]) rfl (by decide)
  deferred := by
    intro time h
    cases h
    exact ⟨by decide, by decide, by decide, by decide, by decide, by decide⟩
  callback := ⟨nofun, nofun, fun _ => by simp [secondPart, dtmfDigits]⟩

end TelephonySms.Cdma
