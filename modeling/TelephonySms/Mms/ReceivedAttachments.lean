import TelephonySms.Mms.ComposedMessage
import Mathlib.Data.List.Nodup

/-! # Attachments through a message

`MmsMsg::GetAllAttachment` makes an attachment of every part. The attachments that were added
to a message come out of the decoded one in the order in which the parts stand, the SMIL
attachment first, whatever refused calls there were between them.
-/

namespace TelephonySms.Mms

open MmsFieldCode ContentParam

/-! ## Reading the attachments -/

namespace MmsAttachment

/-- An id that does not start with a bracket gets two. The last octet is not compared. -/
def setContentId (attachment : MmsAttachment) (contentId : Octets) : MmsAttachment :=
  if contentId = [] then
    attachment
  else if contentId.length > 1 ∧ contentId.head? = some 0x3c ∧ contentId.getLast? ≠ some 0 then
    { attachment with contentId := contentId }
  else
    { attachment with contentId := 0x3c :: contentId ++ [0x3e] }

def setDataBuffer (attachment : MmsAttachment) (inBuff : Octets) : MmsAttachment :=
  if inBuff.length > MAX_MMS_ATTACHMENT_LEN then attachment
  else { attachment with pAttachmentBuffer := inBuff }

/-- The copy constructor leaves the path out, and everything where a copy is refused. -/
def copy (attachment : MmsAttachment) : MmsAttachment :=
  if attachment.pAttachmentBuffer.length > MAX_MMS_ATTACHMENT_LEN then
    {}
  else if attachment.pAttachmentBuffer = [] then
    {}
  else
    { attachment with strPathName := [] }

end MmsAttachment

def MmsHeader.getSmilFileName (header : MmsHeader) : Octets :=
  let param := header.mmsContentType.msgContentParm
  ((param.textMap CT_P_START_VALUE).or (param.textMap CT_P_START)).getD []

namespace MmsMsg

/-- One round of `GetAllAttachment`, none where it fails. Every setter but the one of the flag
leaves an attachment alone that is to be set to nothing. -/
def attachmentOf (smilFileName : Octets) (part : MmsBodyPart) : Option MmsAttachment :=
  let named : MmsAttachment :=
    if part.contentId = [] then {}
    else { MmsAttachment.setContentId {} part.contentId with
      isSmilFile := smilFileName == part.contentId }
  if part.strFileName = [] then
    none
  else
    -- nothing is written while the data are read
    match (part.readBodyPartBuffer []).1 with
    | none => none
    | some partBodyBuffer =>
        some (MmsAttachment.setDataBuffer { named with
          strFileName := part.strFileName
          contentType := part.bodyPartContentType.contentType
          charset := part.bodyPartContentType.msgContentParm.charset
          contentLocation := part.contentLocation
          contentDispositon := part.mmsBodyPartHeader.strDisposition
          contenTransferEncoding := part.mmsBodyPartHeader.strContentTransferEncoding }
            partBodyBuffer)

/-- The rounds: the attachments of the parts before the one that fails are kept. -/
def attachmentsOf (smilFileName : Octets) : List MmsBodyPart → Bool × List MmsAttachment
  | [] => (true, [])
  | part :: parts =>
      -- the parts are copied to a list, and each of them once more
      match attachmentOf smilFileName part.copy.copy with
      | none => (false, [])
      | some attachment =>
          let rest := attachmentsOf smilFileName parts
          (rest.1, attachment.copy :: rest.2)

def getAllAttachment (msg : MmsMsg) : Bool × List MmsAttachment :=
  if msg.mmsBody.mmsBodyParts = [] then (false, [])
  else attachmentsOf msg.mmsHeader.getSmilFileName msg.mmsBody.mmsBodyParts

end MmsMsg

/-! ## The attachments of a run -/

/-- The order of the parts: the SMIL attachment is in front. -/
def smilFirst (calls : List AttachmentCall) : List AttachmentCall :=
  calls.filter (·.attachment.isSmilFile) ++ calls.filter (!·.attachment.isSmilFile)

theorem mem_smilFirst {calls : List AttachmentCall} {call : AttachmentCall} :
    call ∈ smilFirst calls ↔ call ∈ calls := by
  rw [smilFirst, List.mem_append, List.mem_filter, List.mem_filter]
  cases call.attachment.isSmilFile <;> simp

theorem smilFirst_concat_smil {calls : List AttachmentCall} {call : AttachmentCall}
    (hsmil : call.attachment.isSmilFile = true)
    (hnone : ∀ c ∈ calls, c.attachment.isSmilFile = false) :
    smilFirst (calls ++ [call]) = call :: smilFirst calls := by
  have hempty : calls.filter (·.attachment.isSmilFile) = [] :=
    List.filter_eq_nil_iff.2 fun c hc => Bool.eq_false_iff.1 (hnone c hc)
  simp [smilFirst, List.filter_append, hempty, hsmil]

theorem smilFirst_concat_other {calls : List AttachmentCall} {call : AttachmentCall}
    (hother : call.attachment.isSmilFile = false) :
    smilFirst (calls ++ [call]) = smilFirst calls ++ [call] := by
  simp [smilFirst, List.filter_append, hother]

/-- The parts of the calls. -/
def partsOf (calls : List AttachmentCall) : List MmsBodyPart :=
  calls.filterMap fun call => call.part.map MmsBodyPart.copy

namespace MmsMsg

/-- A setting, and the call when it is one of `AddAttachment` that is not refused. -/
def compose (msg : MmsMsg) (setting : Setting) : MmsMsg × List AttachmentCall :=
  (msg.set setting, match setting with
    | .addAttachment call =>
        if (msg.addAttachment call.files call.attachment).1 then [call] else []
    | _ => [])

/-- The calls of `AddAttachment` in a run that are not refused. -/
def accepted (settings : List Setting) : List AttachmentCall :=
  Machine.outputs compose {} settings

theorem composed_eq (settings : List Setting) :
    composed settings = settings.foldl (Machine.next compose) {} := rfl

end MmsMsg

/-- What the receiver has of an attachment: a flag only with an id, an id with brackets, one
of the three dispositions, a transfer encoding, and the data without it. -/
def AttachmentCall.handedOver (platform : Platform) (call : AttachmentCall) :
    Option MmsAttachment :=
  call.part.map fun part =>
    let header := part.mmsBodyPartHeader.received
    { isSmilFile := call.attachment.isSmilFile && call.attachment.contentId ≠ []
      contentId := (MmsAttachment.setContentId {} call.attachment.contentId).contentId
      contentLocation := call.attachment.contentLocation
      contentDispositon := header.strDisposition
      contenTransferEncoding := header.strContentTransferEncoding
      contentType := call.attachment.contentType
      strFileName := part.strFileName
      charset := call.attachment.charset
      pAttachmentBuffer := transferred platform header part.pbodyPartBuffer }

/-! ## What a call fills a part with -/

/-- A part has the fields of its attachment, a name, and the name as its only text parameter. -/
structure AttachmentCall.Fills (call : AttachmentCall) (part : MmsBodyPart) : Prop where
  smil : part.isSmilFile = call.attachment.isSmilFile
  contentId : part.contentId = call.attachment.contentId
  contentLocation : part.contentLocation = call.attachment.contentLocation
  contentType : part.bodyPartContentType.contentType = call.attachment.contentType
  charset : part.bodyPartContentType.msgContentParm.charset = call.attachment.charset
  name : part.bodyPartContentType.msgContentParm.getFileName = part.strFileName
  named : part.strFileName ≠ []
  small : part.pbodyPartBuffer.length ≤ MMS_PDU_MAX_SIZE

theorem AttachmentCall.part_fills {call : AttachmentCall} {part : MmsBodyPart}
    (h : call.part = some part) : call.Fills part := by
  have hsmall := (MmsBodyPart.setAttachment_spec h).2
  rw [AttachmentCall.part, MmsBodyPart.setAttachment] at h
  cases hbody : MmsBodyPart.setBody {} call.files call.attachment with
  | none =>
      rw [hbody] at h
      cases h
  | some filled =>
      rw [hbody] at h
      rcases Option.ite_none_left_eq_some.1 h with ⟨hnamed, hfields⟩
      have hparam := MmsBodyPart.setBody_contentType hbody
      cases hfields
      refine ⟨rfl, rfl, rfl, rfl, rfl, ?_, hnamed, hsmall⟩
      simp only [MmsBodyPart.setFields, hparam, MmsContentParam.setFileName, if_neg hnamed,
        MmsContentParam.insert, MmsContentParam.getFileName, Function.update_self]
      rfl

/-! ## What a run keeps -/

namespace MmsMsg

/-- The parts stand in the order of their calls behind the SMIL part, whose id is the start,
and no two of them have the same id. -/
structure Arranged (calls : List AttachmentCall) (msg : MmsMsg) : Prop where
  filled : ∀ call ∈ calls, ∃ part, call.part = some part
  parts : msg.mmsBody.mmsBodyParts = partsOf (smilFirst calls)
  haveSmil : msg.mmsBody.bHaveSmilPart = false →
    ∀ call ∈ calls, call.attachment.isSmilFile = false
  startValue : msg.contentParam.textMap CT_P_START_VALUE = none
  startUnset : (∀ call ∈ calls, call.attachment.isSmilFile = false) →
    msg.contentParam.textMap CT_P_START = none
  start : ∀ call ∈ calls, call.attachment.isSmilFile = true →
    (msg.contentParam.textMap CT_P_START).getD [] = call.attachment.contentId
  ids : (calls.map (·.attachment.contentId)).Nodup

variable {calls : List AttachmentCall} {msg : MmsMsg}

theorem Arranged.ids_of_parts (h : Arranged calls msg) (contentId : Octets) :
    contentId ∈ msg.mmsBody.contentIds ↔ ∃ call ∈ calls, call.attachment.contentId = contentId := by
  rw [MmsBody.contentIds, h.parts, partsOf, List.mem_map]
  constructor
  · rintro ⟨copied, hmem, rfl⟩
    rcases List.mem_filterMap.1 hmem with ⟨call, hcall, hpart⟩
    rcases Option.map_eq_some_iff.1 hpart with ⟨part, hsome, rfl⟩
    have hfills := AttachmentCall.part_fills hsome
    refine ⟨call, mem_smilFirst.1 hcall, ?_⟩
    rw [MmsBodyPart.copy_eq hfills.small]
    exact hfills.contentId.symm
  · rintro ⟨call, hcall, rfl⟩
    rcases h.filled call hcall with ⟨part, hsome⟩
    have hfills := AttachmentCall.part_fills hsome
    refine ⟨part.copy, ?_, ?_⟩
    · refine List.mem_filterMap.2 ⟨call, mem_smilFirst.2 hcall, ?_⟩
      rw [hsome]
      rfl
    · rw [MmsBodyPart.copy_eq hfills.small]
      exact hfills.contentId

theorem Arranged.stored (h : Arranged calls msg) : msg.mmsBody.Stored := by
  intro item hitem
  rw [h.parts] at hitem
  rcases List.mem_filterMap.1 hitem with ⟨call, -, hpart⟩
  rcases Option.map_eq_some_iff.1 hpart with ⟨part, -, rfl⟩
  exact part.copy_copy

theorem Arranged.of_same (h : Arranged calls msg) {msg' : MmsMsg} (hbody : msg'.mmsBody = msg.mmsBody)
    (hparam : msg'.contentParam = msg.contentParam) : Arranged calls msg' := by
  constructor
  · exact h.filled
  · rw [hbody]
    exact h.parts
  · rw [hbody]
    exact h.haveSmil
  · rw [hparam]
    exact h.startValue
  · rw [hparam]
    exact h.startUnset
  · rw [hparam]
    exact h.start
  · exact h.ids

theorem contentParam_withSmil {part : MmsBodyPart} (hsmil : part.isSmilFile = true) :
    (msg.withPart part).contentParam =
      (msg.contentParam.setStart part.contentId).setType
        part.bodyPartContentType.contentType := by
  rw [withPart_of_smil msg hsmil]
  rfl

theorem startValue_setStart (param : MmsContentParam) (start type : Octets) :
    ((param.setStart start).setType type).textMap CT_P_START_VALUE =
      param.textMap CT_P_START_VALUE := by
  rw [MmsContentParam.setType, MmsContentParam.setStart]
  split
  · rfl
  · rw [MmsContentParam.insert]
    split
    · rfl
    · have hne : CT_P_START_VALUE ≠ CT_P_START := by decide
      exact Function.update_of_ne hne (some start) param.textMap

theorem start_setStart {param : MmsContentParam} (h : param.textMap CT_P_START = none)
    (start type : Octets) :
    (((param.setStart start).setType type).textMap CT_P_START).getD [] = start := by
  rw [MmsContentParam.setType, MmsContentParam.setStart]
  split
  · rename_i hempty
    rw [hempty]
    simp only [h, Option.getD_none]
  · simp only [MmsContentParam.insert, h, Function.update_self, Option.getD_some]

theorem Arranged.ids_concat (h : Arranged calls msg) {call : AttachmentCall} {part : MmsBodyPart}
    (hpart : call.part = some part) (hnew : msg.mmsBody.isBodyPartExist part = false) :
    ((calls ++ [call]).map (·.attachment.contentId)).Nodup := by
  have hfresh : part.contentId ∉ msg.mmsBody.contentIds := by
    intro hmem
    have hexist := (MmsBody.isBodyPartExist_iff h.stored part).2 (.inl hmem)
    rw [hnew] at hexist
    cases hexist
  rw [List.map_append, List.map_cons, List.map_nil, List.nodup_append]
  refine ⟨h.ids, List.pairwise_singleton _ _, ?_⟩
  intro contentId hmem other hother heq
  rw [List.mem_singleton.1 hother, ← (AttachmentCall.part_fills hpart).contentId] at heq
  rw [heq] at hmem
  rcases List.mem_map.1 hmem with ⟨c, hc, hid⟩
  exact hfresh ((h.ids_of_parts part.contentId).2 ⟨c, hc, hid⟩)

theorem partsOf_cons {call : AttachmentCall} {part : MmsBodyPart} (hpart : call.part = some part)
    (calls : List AttachmentCall) : partsOf (call :: calls) = part.copy :: partsOf calls := by
  rw [partsOf, List.filterMap_cons, hpart]
  rfl

theorem partsOf_concat {call : AttachmentCall} {part : MmsBodyPart} (hpart : call.part = some part)
    (calls : List AttachmentCall) : partsOf (calls ++ [call]) = partsOf calls ++ [part.copy] := by
  rw [partsOf, List.filterMap_append, ← partsOf, ← partsOf, partsOf_cons hpart]
  rfl

theorem Arranged.withSmil (h : Arranged calls msg) {call : AttachmentCall} {part : MmsBodyPart}
    (hpart : call.part = some part) (hnew : msg.mmsBody.isBodyPartExist part = false)
    (hsmil : part.isSmilFile = true) (hflag : msg.mmsBody.bHaveSmilPart = false) :
    Arranged (calls ++ [call]) (msg.withPart part) := by
  have hfills := AttachmentCall.part_fills hpart
  have hmarked : call.attachment.isSmilFile = true := hfills.smil.symm.trans hsmil
  have hnone := h.haveSmil hflag
  have hbody := withPart_of_smil msg hsmil
  have hhave : (msg.withPart part).mmsBody.bHaveSmilPart = true := by rw [hbody]
  constructor
  · intro c hc
    rcases List.mem_append.1 hc with hold | hlast
    · exact h.filled c hold
    · exact ⟨part, List.mem_singleton.1 hlast ▸ hpart⟩
  · rw [smilFirst_concat_smil hmarked hnone, partsOf_cons hpart, ← h.parts, hbody]
  · intro hunset
    rw [hhave] at hunset
    cases hunset
  · rw [contentParam_withSmil hsmil, startValue_setStart]
    exact h.startValue
  · intro hother
    have hunmarked := hother call (by simp)
    rw [hmarked] at hunmarked
    cases hunmarked
  · intro c hc hcsmil
    rcases List.mem_append.1 hc with hold | hlast
    · rw [hnone c hold] at hcsmil
      cases hcsmil
    · rw [List.mem_singleton.1 hlast, contentParam_withSmil hsmil, ← hfills.contentId]
      exact start_setStart (h.startUnset hnone) _ _
  · exact h.ids_concat hpart hnew

theorem Arranged.withOther (h : Arranged calls msg) {call : AttachmentCall} {part : MmsBodyPart}
    (hpart : call.part = some part) (hnew : msg.mmsBody.isBodyPartExist part = false)
    (hsmil : ¬ part.isSmilFile = true) : Arranged (calls ++ [call]) (msg.withPart part) := by
  have hunmarked : call.attachment.isSmilFile = false := by
    rw [← (AttachmentCall.part_fills hpart).smil]
    exact Bool.eq_false_iff.2 hsmil
  rw [withPart_of_not_smil msg hsmil]
  constructor
  · intro c hc
    rcases List.mem_append.1 hc with hold | hlast
    · exact h.filled c hold
    · exact ⟨part, List.mem_singleton.1 hlast ▸ hpart⟩
  · rw [smilFirst_concat_other hunmarked, partsOf_concat hpart, ← h.parts]
  · intro hflag c hc
    rcases List.mem_append.1 hc with hold | hlast
    · exact h.haveSmil hflag c hold
    · rw [List.mem_singleton.1 hlast]
      exact hunmarked
  · exact h.startValue
  · intro hother
    exact h.startUnset fun c hc => hother c (List.mem_append_left _ hc)
  · intro c hc hcsmil
    rcases List.mem_append.1 hc with hold | hlast
    · exact h.start c hold hcsmil
    · rw [List.mem_singleton.1 hlast, hunmarked] at hcsmil
      cases hcsmil
  · exact h.ids_concat hpart hnew

theorem withHeader_contentParam {header : Option MmsHeader}
    (h : (header.getD msg.mmsHeader).mmsContentType = msg.mmsHeader.mmsContentType) :
    (msg.withHeader header).contentParam = msg.contentParam :=
  congrArg (·.msgContentParm) h

/-- What every setting keeps, clean or not. -/
theorem Arranged.compose (h : Arranged calls msg) (setting : Setting) :
    Arranged (calls ++ (msg.compose setting).2) (msg.compose setting).1 := by
  cases setting with
  | addAttachment call =>
      simp only [MmsMsg.compose, MmsMsg.set]
      cases hpart : call.part with
      | none =>
          rw [addAttachment_of_none hpart, if_neg Bool.false_ne_true, List.append_nil]
          exact h
      | some part =>
          rcases addAttachment_of_some msg hpart with ⟨-, hcall⟩ | ⟨⟨hnew, hsecond⟩, hcall⟩
          · rw [hcall, if_neg Bool.false_ne_true, List.append_nil]
            exact h
          · rw [hcall, if_pos rfl]
            by_cases hsmil : part.isSmilFile = true
            · exact h.withSmil hpart hnew hsmil
                (Bool.eq_false_iff.2 fun hflag => hsecond ⟨hsmil, hflag⟩)
            · exact h.withOther hpart hnew hsmil
  | setHeaderOctetValue fieldId value =>
      simp only [MmsMsg.compose, List.append_nil]
      exact h.of_same rfl (withHeader_contentParam (setOctetValue_contentType _ fieldId value))
  | setHeaderLongValue fieldId value =>
      simp only [MmsMsg.compose, List.append_nil]
      exact h.of_same rfl (withHeader_contentParam (setLongValue_contentType _ fieldId value))
  | setHeaderStringValue fieldId value =>
      simp only [MmsMsg.compose, List.append_nil]
      exact h.of_same rfl (withHeader_contentParam (setTextValue_contentType _ fieldId value))
  | setHeaderEncodedStringValue fieldId value charset =>
      simp only [MmsMsg.compose, List.append_nil]
      exact h.of_same rfl
        (withHeader_contentParam (setEncodeStringValue_contentType _ fieldId charset value))
  | addHeaderAddressValue fieldId address =>
      simp only [MmsMsg.compose, List.append_nil, MmsMsg.set]
      cases addressFieldOf fieldId with
      | none => exact h.of_same rfl rfl
      | some field =>
          exact h.of_same rfl
            (withHeader_contentParam (addHeaderAddressValue_contentType _ field address))
  | setHeaderContentType strType =>
      simp only [MmsMsg.compose, List.append_nil]
      exact h.of_same rfl rfl

/-- The start is the id of the SMIL attachment and of no other. -/
theorem Arranged.flag (h : Arranged calls msg) {call : AttachmentCall} (hcall : call ∈ calls)
    (hid : call.attachment.contentId ≠ []) :
    (msg.mmsHeader.getSmilFileName == call.attachment.contentId) = call.attachment.isSmilFile := by
  have hstart : msg.mmsHeader.getSmilFileName = (msg.contentParam.textMap CT_P_START).getD [] := by
    have hunset : msg.mmsHeader.mmsContentType.msgContentParm.textMap CT_P_START_VALUE = none :=
      h.startValue
    rw [MmsHeader.getSmilFileName, hunset, Option.none_or]
    rfl
  rw [hstart]
  cases hsmil : call.attachment.isSmilFile with
  | true => exact beq_iff_eq.2 (h.start call hcall hsmil)
  | false =>
      rw [beq_eq_false_iff_ne]
      intro heq
      by_cases hmarked : ∃ c ∈ calls, c.attachment.isSmilFile = true
      · rcases hmarked with ⟨c, hc, hcsmil⟩
        have hsame : c = call :=
          List.inj_on_of_nodup_map h.ids hc hcall ((h.start c hc hcsmil).symm.trans heq)
        rw [hsame, hsmil] at hcsmil
        cases hcsmil
      · have hnone := h.startUnset fun c hc => Bool.eq_false_iff.2 fun hcsmil =>
          hmarked ⟨c, hc, hcsmil⟩
        rw [hnone] at heq
        exact hid heq.symm

theorem Arranged.new : Arranged [] {} := by
  refine ⟨?_, rfl, ?_, rfl, fun _ => rfl, ?_, List.nodup_nil⟩
  · exact fun _ hc => absurd hc List.not_mem_nil
  · exact fun _ _ hc => absurd hc List.not_mem_nil
  · exact fun _ hc => absurd hc List.not_mem_nil

theorem composed_arranged (settings : List Setting) :
    Arranged (accepted settings) (composed settings) :=
  Machine.outputs_invariant (fun _ _ setting h => h.compose setting) settings Arranged.new

end MmsMsg

/-! ## Attachments of the received message -/

section Handed

variable {platform : Platform} {call : AttachmentCall} {part : MmsBodyPart}

theorem transferred_ne_nil (ph : MmsBodyPartHeader) {data : Octets} (h : data ≠ []) :
    transferred platform ph data ≠ [] := by
  rw [transferred]
  split
  · exact h
  · rename_i hne
    exact hne

theorem filter_quotes {text : Octets} (h : 0x22 ∉ text) : text.filter (· != 0x22) = text := by
  apply List.filter_eq_self.2
  intro b hb
  rw [bne_iff_ne]
  rintro rfl
  exact h hb

/-- What the decoder makes of the copy that is in the message. -/
theorem copy_received (hfills : call.Fills part) (n : Nat) :
    part.copy.received platform n =
      { strFileName := part.strFileName
        headerLen := (part.copy.value platform).head.length
        bodyPartContentType := part.bodyPartContentType
        mmsBodyPartHeader := part.mmsBodyPartHeader.received
        pbodyPartBuffer :=
          transferred platform part.mmsBodyPartHeader.received part.pbodyPartBuffer } := by
  have hlength : part.strFileName.length > 0 := List.length_pos_iff.2 hfills.named
  rw [MmsBodyPart.copy_eq hfills.small, MmsBodyPart.received, MmsBodyPart.decodeSetFileName]
  simp only [hfills.name, if_pos hlength]

theorem readBodyPartBuffer_of (hne : part.pbodyPartBuffer ≠ [])
    (hsmall : part.pbodyPartBuffer.length ≤ MMS_PDU_MAX_SIZE) :
    (part.readBodyPartBuffer []).1 = some part.pbodyPartBuffer := by
  rw [MmsBodyPart.readBodyPartBuffer, Action.guard_of hsmall, Action.guard_of hne]
  rfl

theorem setContentId_new (contentId : Octets) :
    MmsAttachment.setContentId {} contentId =
      { contentId := (MmsAttachment.setContentId {} contentId).contentId } := by
  unfold MmsAttachment.setContentId
  split
  · rfl
  · split
    · rfl
    · rfl

/-- The attachment of a part with a name and with data within the limit. -/
theorem attachmentOf_eq (smilFileName : Octets) (hnamed : part.strFileName ≠ [])
    (hne : part.pbodyPartBuffer ≠ []) (hsmall : part.pbodyPartBuffer.length ≤ MMS_PDU_MAX_SIZE) :
    (MmsMsg.attachmentOf smilFileName part).map MmsAttachment.copy =
      some {
        isSmilFile := smilFileName == part.contentId && part.contentId ≠ []
        contentId := (MmsAttachment.setContentId {} part.contentId).contentId
        strFileName := part.strFileName
        contentType := part.bodyPartContentType.contentType
        charset := part.bodyPartContentType.msgContentParm.charset
        contentLocation := part.contentLocation
        contentDispositon := part.mmsBodyPartHeader.strDisposition
        contenTransferEncoding := part.mmsBodyPartHeader.strContentTransferEncoding
        pAttachmentBuffer := part.pbodyPartBuffer } := by
  have hlimit : ¬ part.pbodyPartBuffer.length > MAX_MMS_ATTACHMENT_LEN := Nat.not_lt.2 hsmall
  rw [MmsMsg.attachmentOf, if_neg hnamed, readBodyPartBuffer_of hne hsmall]
  by_cases hempty : part.contentId = []
  · simp [hempty, MmsAttachment.setDataBuffer, MmsAttachment.copy, MmsAttachment.setContentId,
      hlimit, hne]
  · rw [if_neg hempty, setContentId_new]
    simp [MmsAttachment.setDataBuffer, MmsAttachment.copy, hempty, hlimit, hne]

/-- The part of a call that is decoded gives what is handed over of its attachment. -/
theorem attachmentOf_received (hpart : call.part = some part) (hshrinks : ShrinksBase64 platform)
    (hquotes : 0x22 ∉ call.attachment.contentId) (hdata : part.pbodyPartBuffer ≠ [])
    {start : Octets} (hflag : call.attachment.contentId ≠ [] →
      (start == call.attachment.contentId) = call.attachment.isSmilFile) (n : Nat) :
    (MmsMsg.attachmentOf start (part.copy.received platform n).copy.copy).map MmsAttachment.copy =
      call.handedOver platform := by
  have hfills := AttachmentCall.part_fills hpart
  have hne : transferred platform part.mmsBodyPartHeader.received part.pbodyPartBuffer ≠ [] :=
    transferred_ne_nil _ hdata
  have hsmall : (transferred platform part.mmsBodyPartHeader.received
      part.pbodyPartBuffer).length ≤ MMS_PDU_MAX_SIZE :=
    Nat.le_trans (transferred_length hshrinks _ _) hfills.small
  have hid : part.mmsBodyPartHeader.received.strContentID = call.attachment.contentId := by
    rw [← hfills.contentId] at hquotes ⊢
    exact filter_quotes hquotes
  have hlocation : part.mmsBodyPartHeader.received.strContentLocation =
      call.attachment.contentLocation := hfills.contentLocation
  rw [MmsBodyPart.copy_copy, copy_received hfills, MmsBodyPart.copy_eq hsmall]
  rw [attachmentOf_eq]
  · rw [AttachmentCall.handedOver, hpart]
    simp only [MmsBodyPart.contentId, MmsBodyPart.contentLocation, hid, hlocation,
      hfills.contentType, hfills.charset, Option.map_some]
    by_cases hempty : call.attachment.contentId = []
    · simp [hempty]
    · rw [hflag hempty]
  · exact hfills.named
  · exact hne
  · exact hsmall

/-- A call whose part gives what is handed over, whichever part it is. -/
structure AttachmentCall.Given (start : Octets) (call : AttachmentCall) : Prop where
  quotes : 0x22 ∉ call.attachment.contentId
  filled : ∃ part, call.part = some part ∧ part.pbodyPartBuffer ≠ []
  flag : call.attachment.contentId ≠ [] →
    (start == call.attachment.contentId) = call.attachment.isSmilFile

theorem attachmentsOf_received (hshrinks : ShrinksBase64 platform) {start : Octets}
    {calls : List AttachmentCall} (h : ∀ call ∈ calls, call.Given start) :
    MmsMsg.attachmentsOf start (MmsBody.receivedParts platform (partsOf calls)) =
      (true, calls.filterMap fun call => call.handedOver platform) := by
  induction calls with
  | nil => rfl
  | cons call calls ih =>
      have hcall := h call List.mem_cons_self
      rcases hcall.filled with ⟨part, hpart, hdata⟩
      have hone := attachmentOf_received hpart hshrinks hcall.quotes hdata hcall.flag
        ((partsOf calls).length + 1)
      have hgiven : ∃ attachment, call.handedOver platform = some attachment :=
        ⟨_, by rw [AttachmentCall.handedOver, hpart, Option.map_some]⟩
      rcases hgiven with ⟨attachment, hgiven⟩
      rw [hgiven] at hone
      rcases Option.map_eq_some_iff.1 hone with ⟨made, hmade, rfl⟩
      rw [MmsMsg.partsOf_cons hpart, MmsBody.receivedParts, MmsMsg.attachmentsOf, hmade,
        List.filterMap_cons, hgiven, ih fun c hc => h c (List.mem_cons_of_mem _ hc)]

end Handed

namespace MmsMsg

variable {platform : Platform} {settings : List Setting} {octets : Octets}

/-- The calls that are not refused are calls of the run. -/
theorem of_mem_accepted {p : AttachmentCall → Prop}
    (h : ∀ call, .addAttachment call ∈ settings → p call) :
    ∀ call ∈ accepted settings, p call := by
  have hsettings (setting : Setting) (hmem : setting ∈ settings) (call : AttachmentCall)
      (heq : setting = .addAttachment call) : p call := h call (heq ▸ hmem)
  have hguarded : Machine.Guarded (Machine.next compose)
      (fun _ setting => ∀ call, setting = .addAttachment call → p call) ({} : MmsMsg) settings :=
    Machine.Guarded.of_mem hsettings _
  have hstep (calls : List AttachmentCall) (msg : MmsMsg) (setting : Setting)
      (hsetting : ∀ call, setting = .addAttachment call → p call) (hcalls : ∀ call ∈ calls, p call) :
      ∀ call ∈ calls ++ (msg.compose setting).2, p call := by
    intro call hmem
    rcases List.mem_append.1 hmem with hold | hnew
    · exact hcalls call hold
    · cases setting with
      | addAttachment c =>
          simp only [compose] at hnew
          split at hnew
          · rw [List.mem_singleton.1 hnew]
            exact hsetting c rfl
          · cases hnew
      | _ => cases hnew
  have hrun := hguarded.outputs_invariant hstep fun _ hmem => absurd hmem List.not_mem_nil
  exact hrun

theorem partsOf_eq_nil_iff {calls : List AttachmentCall} {msg : MmsMsg} (h : Arranged calls msg) :
    partsOf (smilFirst calls) = [] ↔ calls = [] := by
  constructor
  · intro hnil
    cases calls with
    | nil => rfl
    | cons call rest =>
        rcases h.filled call List.mem_cons_self with ⟨part, hpart⟩
        have hmem : part.copy ∈ partsOf (smilFirst (call :: rest)) :=
          List.mem_filterMap.2 ⟨call, mem_smilFirst.2 List.mem_cons_self, by rw [hpart]; rfl⟩
        rw [hnil] at hmem
        cases hmem
  · rintro rfl
    rfl

theorem receivedParts_eq_nil_iff {parts : List MmsBodyPart} :
    MmsBody.receivedParts platform parts = [] ↔ parts = [] := by
  cases parts with
  | nil => exact Iff.rfl
  | cons part parts => simp [MmsBody.receivedParts]

end MmsMsg

end TelephonySms.Mms
