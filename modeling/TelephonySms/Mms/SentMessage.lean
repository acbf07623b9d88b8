import TelephonySms.Mms.Attachments
import TelephonySms.Mms.SentBody
import TelephonySms.Mms.SentHeader

/-! # Messages through the encoder and back

A message is made by calls of its setters and of `AddAttachment`. What these let in can be
encoded, and where all of it fits the decoder makes of the octets the message that is received:
the fields of the message type and no others, and the parts in their order.
-/

namespace TelephonySms.Mms

open Action OctetReader Reader MmsFieldCode

/-! ## The message that is received -/

namespace MmsMsg

variable (platform : Platform) (msg : MmsMsg)

/-- The header that is encoded. -/
def filledHeader : MmsHeader :=
  HeaderWrite.fillDefaults platform ((msg.mmsHeader.octetValueMap MMS_MESSAGE_TYPE).getD 0)
    msg.mmsHeader

/-- The parts are only looked for behind a multipart content type. -/
def received : MmsMsg :=
  let header := msg.filledHeader platform
  let messageType := (msg.mmsHeader.octetValueMap MMS_MESSAGE_TYPE).getD 0
  { mmsHeader := { header.received platform (messageSlots messageType) with
      mmsContentType :=
        if header.isHaveBody then msg.mmsBody.receivedContentType header.mmsContentType else {} }
    mmsBody :=
      if header.isHaveBody ∧ MmsBody.isMultipart header.mmsContentType.contentType then
        { mmsBodyParts := MmsBody.receivedParts platform msg.mmsBody.mmsBodyParts }
      else
        {} }

/-- What the setters see to. -/
structure Composed (msg : MmsMsg) : Prop where
  header : Sendable msg.mmsHeader
  contentType : msg.mmsHeader.mmsContentType.contentType = [] ∨
    IsPrintableText msg.mmsHeader.mmsContentType.contentType
  param : msg.mmsHeader.mmsContentType.msgContentParm.Encodable
  parts : ∀ part ∈ msg.mmsBody.mmsBodyParts, part.Encodable

end MmsMsg

/-! ## The octets of a message -/

section Octets

variable {platform : Platform} {msg : MmsMsg}

/-- The fields in front of the content type. -/
def sentFields (platform : Platform) (messageType : UInt8) (h : MmsHeader) : List HeaderField :=
  (messageSlots messageType).flatMap (Slot.fields platform h)

theorem messageType_mem (messageType : UInt8) :
    Slot.octet MMS_MESSAGE_TYPE ∈ messageSlots messageType :=
  List.mem_append_left _ List.mem_cons_self

theorem length_le_fieldsWire {f : HeaderField} {fs : List HeaderField} (hf : f ∈ fs) :
    f.wire.length ≤ (fieldsWire fs).length := by
  induction fs with
  | nil => cases hf
  | cons g fs ih =>
      rw [fieldsWire, List.flatMap_cons, List.length_append, ← fieldsWire]
      rcases List.mem_cons.1 hf with rfl | hmem
      · omega
      · have hrest := ih hmem
        omega

theorem sentFields_isTaken {h : MmsHeader} (hs : Sendable h) (messageType : UInt8)
    (hlt : (fieldsWire (sentFields platform messageType h)).length < 2 ^ 31) :
    ∀ f ∈ sentFields platform messageType h, IsTaken f := by
  intro f hf
  rcases List.mem_flatMap.1 hf with ⟨slot, hslot, hfield⟩
  have hle := length_le_fieldsWire hf
  exact Slot.fields_isTaken platform hs ((messageSlots_wellPlaced messageType).known slot hslot)
    hfield (by omega)

theorem sentFields_areFields {h : MmsHeader} (hs : Sendable h) (messageType : UInt8)
    (hlt : (fieldsWire (sentFields platform messageType h)).length < 2 ^ 31) :
    AreFields (sentFields platform messageType h) where
  valid f hf := (sentFields_isTaken hs messageType hlt f hf).valid
  noContentType f hf := (sentFields_isTaken hs messageType hlt f hf).noContentType

/-- The content type of a message with a body. -/
def sentContent (platform : Platform) (header : MmsHeader) (body : MmsBody) :
    Option ContentTypeValue :=
  if header.isHaveBody then some (body.contentTypeValue platform header.mmsContentType) else none

def sentBody (platform : Platform) (header : MmsHeader) (body : MmsBody) : Octets :=
  if header.isHaveBody then (body.value platform).wire else []

theorem sentBody_isBody (header : MmsHeader) (body : MmsBody) :
    IsBody (sentContent platform header body) (sentBody platform header body) := by
  intro hnone
  unfold sentContent sentBody at *
  split at hnone
  · cases hnone
  · rename_i hbody
    exact if_neg hbody

/-! ## The octets are decoded -/

/-- What the decoder makes of the fields and of the content type. -/
theorem storeAll_sent {header : MmsHeader} {body : MmsBody} (hs : Sendable header)
    (hversion : KnownVersion header)
    (hparam : header.isHaveBody = true → header.mmsContentType.msgContentParm.Encodable)
    (messageType : UInt8) :
    storeAll platform (sentFields platform messageType header ++
      contentField (sentContent platform header body)) {} =
        { header.received platform (messageSlots messageType) with
          mmsContentType :=
            if header.isHaveBody then body.receivedContentType header.mmsContentType else {} } := by
  have hplaced := messageSlots_wellPlaced messageType
  have hfields : (sentFields platform messageType header).foldl (HeaderField.store platform) {} =
      header.received platform (messageSlots messageType) :=
    storeAll_slots hs hversion hplaced.known hplaced.nodup
  rw [storeAll, List.foldl_append, hfields, sentContent]
  cases hbody : header.isHaveBody with
  | false => rfl
  | true =>
      have happly : (body.contentTypeValue platform header.mmsContentType).apply {} =
          body.receivedContentType header.mmsContentType :=
        MmsBody.contentTypeValue_apply (hparam hbody)
      rw [if_pos rfl, if_pos rfl, ← happly]
      rfl

theorem isHaveBody_iff {header : MmsHeader} {messageType : UInt8}
    (htype : header.octetValueMap MMS_MESSAGE_TYPE = some messageType) :
    header.isHaveBody = true ↔
      messageType = MMS_MSGTYPE_SEND_REQ ∨ messageType = MMS_MSGTYPE_RETRIEVE_CONF := by
  rw [MmsHeader.isHaveBody, htype]
  simp

theorem receivedContentType_name (body : MmsBody) (c : MmsContentType) :
    (body.receivedContentType c).contentType = c.contentType := by
  rw [MmsBody.receivedContentType]
  split
  · rfl
  · rfl

theorem length_le_partsWire_of_mem {value : PartValue} {values : List PartValue}
    (hmem : value ∈ values) : value.wire.length ≤ (partsWire values).length := by
  rcases List.append_of_mem hmem with ⟨front, back, rfl⟩
  simp only [partsWire, List.flatMap_append, List.flatMap_cons, List.length_append]
  omega

theorem bodyValue_valid {body : MmsBody} (hparts : ∀ part ∈ body.mmsBodyParts, part.Encodable)
    (hmax : (body.value platform).wire.length ≤ MMS_PDU_MAX_SIZE) :
    (body.value platform).Valid := by
  have hsum : (body.value platform).wire.length =
      (uintvarOctets body.mmsBodyParts.length).length +
        (partsWire (body.mmsBodyParts.map (MmsBodyPart.value platform))).length :=
    List.length_append
  have hvalid : ∀ value ∈ body.mmsBodyParts.map (MmsBodyPart.value platform), value.Valid := by
    intro value hmem
    rcases List.mem_map.1 hmem with ⟨part, hpart, rfl⟩
    have hle := length_le_partsWire_of_mem hmem
    apply MmsBodyPart.value_valid (hparts part hpart)
    simp only [MMS_PDU_MAX_SIZE] at hmax
    omega
  have hcount := length_le_partsWire hvalid
  rw [List.length_map] at hcount
  refine ⟨?_, hvalid⟩
  rw [MmsBody.value, List.length_map]
  apply uintvarOctets_isUintvar
  simp only [MMS_PDU_MAX_SIZE] at hmax
  omega

theorem bodyValue_reads (hshrinks : ShrinksBase64 platform) {body : MmsBody}
    (hparts : ∀ part ∈ body.mmsBodyParts, part.Encodable)
    (hdata : ∀ part ∈ body.mmsBodyParts, part.pbodyPartBuffer ≠ [])
    (hmax : (body.value platform).wire.length ≤ MMS_PDU_MAX_SIZE) :
    ReadsBefore (MmsBody.decodeMultipart platform {}) (body.value platform).wire []
      { mmsBodyParts := MmsBody.receivedParts platform body.mmsBodyParts } := by
  have hread : ∀ value ∈ (body.value platform).parts, value.IsRead := by
    intro value hmem
    rcases List.mem_map.1 hmem with ⟨part, hpart, rfl⟩
    exact MmsBodyPart.value_isRead (hparts part hpart)
  have haligned : ∀ value ∈ (body.value platform).parts, value.Aligned := by
    intro value hmem
    rcases List.mem_map.1 hmem with ⟨part, hpart, rfl⟩
    exact MmsBodyPart.value_aligned (hdata part hpart)
  have hreads := decodeMultipart_reads hshrinks (bodyValue_valid hparts hmax) hread haligned hmax
    {} []
  rw [MmsBody.value, MmsBody.receivedParts_eq hparts] at hreads
  exact hreads

/-- A header that is decoded, and the body behind it. -/
theorem decodeMmsBody_reads (hshrinks : ShrinksBase64 platform) {header g : MmsHeader}
    {messageType : UInt8} {body : MmsBody}
    (htype : header.octetValueMap MMS_MESSAGE_TYPE = some messageType)
    (hgtype : g.octetValueMap MMS_MESSAGE_TYPE = some messageType)
    (hcontent : header.isHaveBody = true →
      g.mmsContentType.contentType = header.mmsContentType.contentType)
    (hparts : header.isHaveBody = true → ∀ part ∈ body.mmsBodyParts, part.Encodable)
    (hdata : header.isHaveBody = true → ∀ part ∈ body.mmsBodyParts, part.pbodyPartBuffer ≠ [])
    (hmax : (sentBody platform header body).length ≤ MMS_PDU_MAX_SIZE) :
    ∃ taken rest, sentBody platform header body = taken ++ rest ∧
      ReadsBefore (MmsBody.decodeMmsBody platform {} g) taken rest
        (if header.isHaveBody ∧ MmsBody.isMultipart header.mmsContentType.contentType then
          { mmsBodyParts := MmsBody.receivedParts platform body.mmsBodyParts }
        else
          {}) := by
  have htypes := isHaveBody_iff htype
  rw [MmsBody.decodeMmsBody, hgtype]
  dsimp only
  by_cases hbody : header.isHaveBody = true
  · have hin : ¬ (messageType ≠ MMS_MSGTYPE_SEND_REQ ∧ messageType ≠ MMS_MSGTYPE_RETRIEVE_CONF) :=
      fun hout => (htypes.1 hbody).elim hout.1 hout.2
    rw [if_neg hin, hcontent hbody]
    by_cases hmultipart : MmsBody.isMultipart header.mmsContentType.contentType = true
    · rw [if_pos hmultipart, if_pos ⟨hbody, hmultipart⟩]
      rw [sentBody, if_pos hbody] at hmax ⊢
      refine ⟨(body.value platform).wire, [], (List.append_nil _).symm, ?_⟩
      exact bodyValue_reads hshrinks (hparts hbody) (hdata hbody) hmax
    · rw [if_neg hmultipart, if_neg fun hboth => hmultipart hboth.2]
      exact ⟨[], _, rfl, ReadsBefore.pure _ _⟩
  · have hout : messageType ≠ MMS_MSGTYPE_SEND_REQ ∧ messageType ≠ MMS_MSGTYPE_RETRIEVE_CONF :=
      not_or.1 fun hin => hbody (htypes.2 hin)
    rw [if_pos hout, if_neg fun hboth => hbody hboth.1]
    exact ⟨[], _, rfl, ReadsBefore.pure _ _⟩

end Octets

/-! ## Encoding and decoding -/

namespace MmsMsg

variable {platform : Platform} {msg : MmsMsg}

theorem script_of_type {messageType : UInt8}
    (htype : msg.mmsHeader.octetValueMap MMS_MESSAGE_TYPE = some messageType) :
    msg.script platform = (msg.filledHeader platform).headerScript platform messageType ++
      bodyScript platform (msg.filledHeader platform) msg.mmsBody := by
  rw [script, htype, filledHeader, htype]
  rfl

theorem encodeUnlimited_run {octets : Octets} (h : msg.encodeUnlimited platform = some octets) :
    Script.run none (msg.script platform) [] = (some (), octets) := by
  unfold encodeUnlimited at h
  split at h
  · rename_i heq
    cases h
    exact heq
  · cases h

/-- A message that is encoded has a type. -/
theorem type_of_encoded {octets : Octets} (h : msg.encodeUnlimited platform = some octets) :
    ∃ messageType, msg.mmsHeader.octetValueMap MMS_MESSAGE_TYPE = some messageType := by
  cases htype : msg.mmsHeader.octetValueMap MMS_MESSAGE_TYPE with
  | some messageType => exact ⟨messageType, rfl⟩
  | none =>
      have hrun := encodeUnlimited_run h
      rw [script, htype] at hrun
      exact absurd rfl (Script.must_wire_of_run hrun List.mem_cons_self)

/-- The plans of the body that have to succeed have octets. -/
theorem bodyPlans {octets : Octets} {messageType : UInt8}
    (htype : msg.mmsHeader.octetValueMap MMS_MESSAGE_TYPE = some messageType)
    (h : msg.encodeUnlimited platform = some octets)
    (hbody : (msg.filledHeader platform).isHaveBody = true) :
    (msg.filledHeader platform).mmsContentType.contentType ≠ [] ∧
      ∀ part ∈ msg.mmsBody.mmsBodyParts, (part.plan platform).wire ≠ none := by
  have hrun := encodeUnlimited_run h
  rw [script_of_type htype] at hrun
  have hplan {p : Plan} (hp : Step.must p ∈ msg.mmsBody.script platform (msg.filledHeader platform)) :
      p.wire ≠ none := by
    apply Script.must_wire_of_run hrun
    rw [bodyScript, if_pos hbody]
    exact List.mem_append_right _ hp
  constructor
  · intro hempty
    have hrefused : (msg.mmsBody.contentTypeValuePlan platform (msg.filledHeader platform)).wire =
        none := by
      rw [MmsBody.contentTypeValuePlan, if_pos hempty]
      rfl
    exact hplan (by simp [MmsBody.script]) hrefused
  · intro part hpart
    apply hplan
    exact List.mem_append_right _ (List.mem_flatMap.2 ⟨part, hpart, List.mem_singleton_self _⟩)

/-- The parts of a message with a body have data. -/
theorem parts_have_data (hc : msg.Composed) {octets : Octets}
    (h : msg.encodeUnlimited platform = some octets)
    (hbody : (msg.filledHeader platform).isHaveBody = true) :
    ∀ part ∈ msg.mmsBody.mmsBodyParts, part.pbodyPartBuffer ≠ [] := by
  rcases type_of_encoded h with ⟨messageType, htype⟩
  intro part hpart
  exact (MmsBodyPart.plan_wire (hc.parts part hpart) ((bodyPlans htype h hbody).2 part hpart)).2

theorem filledHeader_filled (hc : msg.Composed) (hid : MakesIds platform) :
    Filled msg.mmsHeader (msg.filledHeader platform) :=
  fillDefaults_filled hc.header hid _

theorem filledHeader_type (hc : msg.Composed) (hid : MakesIds platform) {messageType : UInt8}
    (htype : msg.mmsHeader.octetValueMap MMS_MESSAGE_TYPE = some messageType) :
    (msg.filledHeader platform).octetValueMap MMS_MESSAGE_TYPE = some messageType := by
  rw [(filledHeader_filled hc hid).octets]
  exact htype

theorem received_messageType (hc : msg.Composed) (hid : MakesIds platform) {messageType : UInt8}
    (htype : msg.mmsHeader.octetValueMap MMS_MESSAGE_TYPE = some messageType) :
    (msg.received platform).mmsHeader.octetValueMap MMS_MESSAGE_TYPE = some messageType := by
  have hkept := MmsHeader.received_octet platform (msg.filledHeader platform)
    (messageType_mem ((msg.mmsHeader.octetValueMap MMS_MESSAGE_TYPE).getD 0))
  exact hkept.trans (filledHeader_type hc hid htype)

theorem filledHeader_param (hc : msg.Composed) (hid : MakesIds platform) :
    (msg.filledHeader platform).mmsContentType.msgContentParm.Encodable := by
  rw [(filledHeader_filled hc hid).contentType]
  exact hc.param

section Encoded

variable {octets : Octets} {messageType : UInt8}

theorem isMessageType (hc : msg.Composed) (hid : MakesIds platform)
    (htype : msg.mmsHeader.octetValueMap MMS_MESSAGE_TYPE = some messageType)
    (h : msg.encodeUnlimited platform = some octets)
    (hbody : (msg.filledHeader platform).isHaveBody = true) :
    MmsBody.IsMessageType (msg.filledHeader platform).mmsContentType := by
  refine ⟨?_, filledHeader_param hc hid⟩
  have hne := (bodyPlans htype h hbody).1
  rw [(filledHeader_filled hc hid).contentType] at hne ⊢
  exact hc.contentType.resolve_left hne

/-- The octets of a message are its fields, its content type and its body. -/
theorem encoded_octets (hc : msg.Composed) (hid : MakesIds platform)
    (htype : msg.mmsHeader.octetValueMap MMS_MESSAGE_TYPE = some messageType)
    (h : msg.encodeUnlimited platform = some octets) :
    octets = fieldsWire (sentFields platform messageType (msg.filledHeader platform)) ++
      fieldsWire (contentField (sentContent platform (msg.filledHeader platform) msg.mmsBody)) ++
        sentBody platform (msg.filledHeader platform) msg.mmsBody := by
  have hfilled := filledHeader_filled hc hid
  have hwritten := Script.run_none_wire (msg.script_tidy platform) (encodeUnlimited_run h)
  have hheader : Script.wire ((msg.filledHeader platform).headerScript platform messageType) =
      fieldsWire (sentFields platform messageType (msg.filledHeader platform)) :=
    headerScript_writes hfilled.sendable (filledHeader_type hc hid htype) hfilled.version
  rw [List.nil_append, script_of_type htype, Script.wire_append, hheader] at hwritten
  rw [hwritten, List.append_assoc, bodyScript, sentContent, sentBody]
  cases hbody : (msg.filledHeader platform).isHaveBody with
  | false => rfl
  | true =>
      rw [if_pos rfl, if_pos rfl, if_pos rfl,
        MmsBody.script_wire (isMessageType hc hid htype h hbody) hbody hc.parts
          (bodyPlans htype h hbody).2]
      simp [contentField, fieldsWire, HeaderField.wire, FieldValue.wire]

theorem sentContent_valid (hc : msg.Composed) (hid : MakesIds platform)
    (htype : msg.mmsHeader.octetValueMap MMS_MESSAGE_TYPE = some messageType)
    (h : msg.encodeUnlimited platform = some octets)
    (hlt : (fieldsWire (contentField
      (sentContent platform (msg.filledHeader platform) msg.mmsBody))).length < 2 ^ 31) :
    ∀ value ∈ sentContent platform (msg.filledHeader platform) msg.mmsBody,
      value.Valid ∧ value.IsRead := by
  intro value hvalue
  rw [Option.mem_def, sentContent] at hvalue
  split at hvalue
  · rename_i hbody
    cases hvalue
    apply MmsBody.contentTypeValue_valid (isMessageType hc hid htype h hbody)
    rw [sentContent, if_pos hbody] at hlt
    simp only [contentField, fieldsWire, Option.map_some, Option.toList_some,
      List.flatMap_singleton, HeaderField.wire, FieldValue.wire, List.length_cons] at hlt
    omega
  · cases hvalue

/-- With one octet to spare the buffer takes all of the message. -/
theorem encodeMsg_of_room (h : msg.encodeUnlimited platform = some octets)
    (hroom : octets.length < MMS_PDU_MAX_SIZE) : (encodeMsg platform msg).1 = some octets := by
  have hrun := encodeUnlimited_run h
  have hwritten := Script.run_none_wire (msg.script_tidy platform) hrun
  rw [List.nil_append] at hwritten
  subst hwritten
  exact (msg.encodeMsg_eq_some_iff platform _).2
    (Script.run_of_room (msg.script_tidy platform) (fun _ => Script.must_wire_of_run hrun) hroom)

/-- Where all of it fits, the decoder makes of the octets the message that is received. -/
theorem decodeMsg_of_encoded (hc : msg.Composed) (hid : MakesIds platform)
    (hshrinks : ShrinksBase64 platform) (hencode : (encodeMsg platform msg).1 = some octets)
    (h : msg.encodeUnlimited platform = some octets) :
    decodeMsg platform {} octets = .done (msg.received platform) := by
  rcases type_of_encoded h with ⟨messageType, htype⟩
  have hfilled := filledHeader_filled hc hid
  have hmax : octets.length ≤ MMS_PDU_MAX_SIZE :=
    Script.length_le_of_run (msg.script_tidy platform) (Nat.zero_le _)
      ((msg.encodeMsg_eq_some_iff platform octets).1 hencode)
  have hsplit := encoded_octets hc hid htype h
  have hlengths := congrArg List.length hsplit
  simp only [List.length_append] at hlengths
  have hshort : octets.length < 2 ^ 31 := Nat.lt_of_le_of_lt hmax (by decide)
  -- the fields, the content type and the body are each taken
  have hfields : AreFields (sentFields platform messageType (msg.filledHeader platform)) :=
    sentFields_areFields hfilled.sendable messageType (by omega)
  have hread : ∀ f ∈ sentFields platform messageType (msg.filledHeader platform), f.value.IsRead :=
    fun f hf => (sentFields_isTaken hfilled.sendable messageType (by omega) f hf).read
  have hcontent := sentContent_valid hc hid htype h (by omega)
  have hheader := @decodeMmsHeader_reads platform _ _ _ hfields hread hcontent
    (sentBody_isBody (msg.filledHeader platform) msg.mmsBody) {}
  rw [storeAll_sent hfilled.sendable hfilled.version fun _ => filledHeader_param hc hid] at hheader
  have hdata := parts_have_data hc h
  have hgtype := received_messageType hc hid htype
  have hgcontent (hbody : (msg.filledHeader platform).isHaveBody = true) :
      (msg.received platform).mmsHeader.mmsContentType.contentType =
        (msg.filledHeader platform).mmsContentType.contentType := by
    simp only [received, if_pos hbody]
    exact receivedContentType_name _ _
  rcases decodeMmsBody_reads hshrinks (filledHeader_type hc hid htype) hgtype hgcontent
    (fun _ => hc.parts) hdata (by omega) with ⟨taken, rest, hbodySplit, hbody⟩
  rw [hbodySplit] at hheader hsplit
  have hg : { (msg.filledHeader platform).received platform (messageSlots messageType) with
      mmsContentType := if (msg.filledHeader platform).isHaveBody then
        msg.mmsBody.receivedContentType (msg.filledHeader platform).mmsContentType else {} } =
          (msg.received platform).mmsHeader := by
    rw [received, htype]
    rfl
  rw [hg] at hheader
  have hall : ReadsBefore (decodeBuffer platform {}) _ rest (msg.received platform) :=
    ReadsBefore.bind hheader (ReadsBefore.bind_last hbody (ReadsBefore.pure _ _))
  rw [← List.append_assoc] at hsplit
  rcases hall [] [] (by rw [List.nil_append, ← hsplit]; exact hshort) with ⟨trace, hrun⟩
  rw [List.nil_append, ← hsplit] at hrun
  have hpos : octets.length ≠ 0 := by
    have hfirst : (⟨MMS_MESSAGE_TYPE, .octet messageType⟩ : HeaderField) ∈
        sentFields platform messageType (msg.filledHeader platform) := by
      refine List.mem_flatMap.2 ⟨_, messageType_mem messageType, ?_⟩
      rw [Slot.fields, filledHeader_type hc hid htype]
      exact List.mem_singleton_self _
    have hle := length_le_fieldsWire hfirst
    have hlength : (HeaderField.wire ⟨MMS_MESSAGE_TYPE, .octet messageType⟩).length = 2 := rfl
    omega
  rw [decodeMsg, if_neg (by omega), startOf]
  exact congrArg Prod.fst hrun

end Encoded

end MmsMsg

end TelephonySms.Mms
