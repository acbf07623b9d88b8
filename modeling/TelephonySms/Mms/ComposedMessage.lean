import TelephonySms.Mms.SentMessage

/-! # Messages that are composed

The setters of `MmsMsg` and `AddAttachment` refuse the fields and the values that are not
theirs. Whatever a run of them makes of a new message can be sent: where all of it fits,
`DecodeMsg` makes of the octets of `EncodeMsg` the message that is received.
-/

namespace TelephonySms.Mms

open MmsFieldCode ContentParam

/-! ## Calls -/

/-- `MmsHeader::AddHeaderAddressValue` takes the codes of the four fields with addresses. -/
def addressFieldOf (fieldId : UInt8) : Option AddressField :=
  [AddressField.bcc, .cc, .sender, .recipient].find? fun field => field.code == fieldId

/-- A call that composes a message. -/
inductive Setting where
  | setHeaderOctetValue (fieldId value : UInt8)
  | setHeaderLongValue (fieldId : UInt8) (value : Int64)
  | setHeaderStringValue (fieldId : UInt8) (value : Octets)
  | setHeaderEncodedStringValue (fieldId : UInt8) (value : Octets) (charset : Nat)
  | addHeaderAddressValue (fieldId : UInt8) (address : MmsAddress)
  | setHeaderContentType (strType : Octets)
  | addAttachment (call : AttachmentCall)

/-- The header after a setter of a header value, the same when the setter refuses. -/
def MmsMsg.withHeader (msg : MmsMsg) (header : Option MmsHeader) : MmsMsg :=
  { msg with mmsHeader := header.getD msg.mmsHeader }

def MmsMsg.set (msg : MmsMsg) : Setting → MmsMsg
  | .setHeaderOctetValue fieldId value =>
      msg.withHeader (msg.mmsHeader.setOctetValue fieldId value)
  | .setHeaderLongValue fieldId value => msg.withHeader (msg.mmsHeader.setLongValue fieldId value)
  | .setHeaderStringValue fieldId value =>
      msg.withHeader (msg.mmsHeader.setTextValue fieldId value)
  | .setHeaderEncodedStringValue fieldId value charset =>
      msg.withHeader (msg.mmsHeader.setEncodeStringValue fieldId charset value)
  | .addHeaderAddressValue fieldId address =>
      msg.withHeader ((addressFieldOf fieldId).bind fun field =>
        msg.mmsHeader.addHeaderAddressValue field address)
  | .setHeaderContentType strType =>
      { msg with mmsHeader := { msg.mmsHeader with
          mmsContentType := { msg.mmsHeader.mmsContentType with contentType := strType } } }
  | .addAttachment call => (msg.addAttachment call.files call.attachment).2

/-- No text, or one that ends only where it ends and starts with no quote. -/
def IsCleanText (text : Octets) : Prop := text = [] ∨ IsTextValue text

/-- An attachment with a content type that can be printed and with clean names. -/
structure AttachmentCall.Clean (call : AttachmentCall) : Prop where
  contentType : IsPrintableText call.attachment.contentType
  charset : call.attachment.charset < 2 ^ 32
  contentId : IsCleanText call.attachment.contentId
  contentLocation : IsCleanText call.attachment.contentLocation
  transferEncoding : IsCleanText call.attachment.contenTransferEncoding
  fileName : IsCleanText call.attachment.strFileName
  pathName : IsCleanText (lastComponent call.attachment.strPathName)

/-- A charset is an `uint32_t`. -/
def Setting.Clean : Setting → Prop
  | .setHeaderOctetValue _ _ => True
  | .setHeaderLongValue _ _ => True
  | .setHeaderStringValue _ value => IsCleanText value
  | .setHeaderEncodedStringValue _ value charset => IsCleanText value ∧ charset < 2 ^ 32
  | .addHeaderAddressValue _ address =>
      IsCleanText address.addressString ∧ address.charset < 2 ^ 32
  | .setHeaderContentType strType => strType = [] ∨ IsPrintableText strType
  | .addAttachment call => call.Clean

theorem IsCleanText.noNul {text : Octets} (h : IsCleanText text) : 0 ∉ text := by
  rcases h with rfl | htext
  · exact List.not_mem_nil
  · exact htext.noNul

/-! ## Header fields -/

section Fields

theorem le_of_inRange {value low high : UInt8} (h : inRange value low high = true) :
    low ≤ value ∧ value ≤ high :=
  of_decide_eq_true h

theorem checkResponseStatus_le {value : UInt8} (h : checkResponseStatus value = true) :
    0x80 ≤ value := by
  rw [checkResponseStatus, Bool.or_eq_true, Bool.or_eq_true] at h
  rcases h with (hlow | hmiddle) | hhigh
  · exact (le_of_inRange hlow).1
  · exact UInt8.le_trans (by decide) (le_of_inRange hmiddle).1
  · exact UInt8.le_trans (by decide) (le_of_inRange hhigh).1

theorem checkRetrieveStatus_le {value : UInt8} (h : checkRetrieveStatus value = true) :
    0x80 ≤ value := by
  rw [checkRetrieveStatus, Bool.or_eq_true, Bool.or_eq_true, beq_iff_eq] at h
  rcases h with (rfl | hmiddle) | hhigh
  · exact UInt8.le_refl _
  · exact UInt8.le_trans (by decide) (le_of_inRange hmiddle).1
  · exact UInt8.le_trans (by decide) (le_of_inRange hhigh).1

/-- The values of the fields that are a match have their high bit. -/
theorem portionData_range {fieldId value : UInt8}
    (h : setOctetValuePortionData fieldId value = (true, true)) :
    0x80 ≤ value ∧ (fieldId = MMS_MESSAGE_TYPE → value ≤ 138) := by
  unfold setOctetValuePortionData at h
  split at h
  · have hrange := le_of_inRange (Prod.mk.inj h).1
    exact ⟨hrange.1, fun _ => hrange.2⟩
  · rename_i htype
    refine ⟨?_, fun heq => absurd heq htype⟩
    split at h
    · exact (le_of_inRange (Prod.mk.inj h).1).1
    split at h
    · exact checkResponseStatus_le (Prod.mk.inj h).1
    split at h
    · exact (le_of_inRange (Prod.mk.inj h).1).1
    split at h
    · exact (le_of_inRange (Prod.mk.inj h).1).1
    split at h
    · exact checkRetrieveStatus_le (Prod.mk.inj h).1
    · cases h

/-- A match in the second check is one of the first. -/
theorem portionData_of_partData {fieldId value : UInt8}
    (h : setOctetValuePartData fieldId value = (true, true)) :
    setOctetValuePortionData fieldId value = (true, true) := by
  unfold setOctetValuePartData at h
  cases hportion : setOctetValuePortionData fieldId value with
  | mk valid isMatch =>
      rw [hportion] at h
      dsimp only at h
      split at h
      · exact h
      · rename_i hout
        have hmatch : isMatch = false := by
          cases valid <;> cases isMatch <;> simp_all
        rw [hmatch] at h
        repeat' (split at h)
        all_goals cases (Prod.mk.inj h).2

theorem setOctetValue_spec {h g : MmsHeader} {fieldId value : UInt8}
    (hset : h.setOctetValue fieldId value = some g) :
    g = h.putOctet fieldId value ∧ 0x80 ≤ value ∧ (fieldId = MMS_MESSAGE_TYPE → value ≤ 138) := by
  unfold MmsHeader.setOctetValue at hset
  rcases Option.ite_none_left_eq_some.1 hset with ⟨-, hset⟩
  split at hset
  · rename_i hboolean
    refine ⟨(Option.some.inj hset).symm, (le_of_inRange hboolean.2).1, ?_⟩
    intro htype
    exact absurd (htype ▸ hboolean.1) (by decide)
  · have hother {field : UInt8} (hne : field ≠ MMS_MESSAGE_TYPE) (heq : fieldId = field) :
        fieldId = MMS_MESSAGE_TYPE → value ≤ 138 :=
      fun htype => absurd (heq.symm.trans htype) hne
    cases hpart : setOctetValuePartData fieldId value with
    | mk valid isMatch =>
        rw [hpart] at hset
        rcases Option.ite_none_right_eq_some.1 hset with ⟨haccepted, hput⟩
        refine ⟨(Option.some.inj hput).symm, ?_⟩
        rw [Bool.and_eq_true] at haccepted
        rcases haccepted with ⟨hvalid, haccepted⟩
        split at haccepted
        · rename_i hclass
          exact ⟨(le_of_inRange haccepted).1, hother (by decide) hclass⟩
        split at haccepted
        · rename_i hcancel
          exact ⟨(le_of_inRange haccepted).1, hother (by decide) hcancel⟩
        split at haccepted
        · rename_i hclass
          exact ⟨(le_of_inRange haccepted).1, hother (by decide) hclass⟩
        · rw [hvalid, haccepted] at hpart
          exact portionData_range (portionData_of_partData hpart)

namespace Sendable

variable {h : MmsHeader}

theorem putOctet (hs : Sendable h) {fieldId value : UInt8} (hvalue : 0x80 ≤ value)
    (htype : fieldId = MMS_MESSAGE_TYPE → value ≤ 138) : Sendable (h.putOctet fieldId value) where
  texts := hs.texts
  textClass := hs.textClass
  strings := hs.strings
  addresses := hs.addresses
  octets code octet hcode := by
    by_cases heq : code = fieldId
    · subst heq
      have hsame : (h.putOctet code value).octetValueMap code = some value :=
        Function.update_self _ _ _
      cases hsame.symm.trans hcode
      exact hvalue
    · have hold : (h.putOctet fieldId value).octetValueMap code = h.octetValueMap code :=
        Function.update_of_ne heq _ _
      exact hs.octets code octet (hold.symm.trans hcode)
  messageType octet hoctet := by
    by_cases heq : fieldId = MMS_MESSAGE_TYPE
    · have hsame : (h.putOctet fieldId value).octetValueMap MMS_MESSAGE_TYPE = some value := by
        rw [← heq]
        exact Function.update_self _ _ _
      cases hsame.symm.trans hoctet
      exact UInt8.le_trans (htype heq) (by decide)
    · have hold : (h.putOctet fieldId value).octetValueMap MMS_MESSAGE_TYPE =
          h.octetValueMap MMS_MESSAGE_TYPE := Function.update_of_ne (Ne.symm heq) _ _
      exact hs.messageType octet (hold.symm.trans hoctet)

theorem putEncodeString (hs : Sendable h) (fieldId : UInt8) {value : MmsEncodeString}
    (hvalue : IsTextValue value.strEncodeString ∧ value.charset ≠ 0 ∧ value.charset < 2 ^ 32) :
    Sendable (h.putEncodeString fieldId value) where
  octets := hs.octets
  messageType := hs.messageType
  texts := hs.texts
  textClass := hs.textClass
  addresses := hs.addresses
  strings code string hcode := by
    by_cases heq : code = fieldId
    · subst heq
      have hsame : (h.putEncodeString code value).encodeStringsMap code = some value :=
        Function.update_self _ _ _
      cases hsame.symm.trans hcode
      exact hvalue
    · have hold : (h.putEncodeString fieldId value).encodeStringsMap code =
          h.encodeStringsMap code := Function.update_of_ne heq _ _
      exact hs.strings code string (hold.symm.trans hcode)

theorem pushAddress (hs : Sendable h) {field : AddressField} {address : MmsAddress}
    (haddress : address.charset < 2 ^ 32 ∧
      (address.addressString = [] ∧ field = .sender ∨ IsTextValue address.addressString)) :
    Sendable (h.pushAddress field address) where
  octets := hs.octets
  messageType := hs.messageType
  texts := hs.texts
  textClass := hs.textClass
  strings := hs.strings
  addresses f addrs hf := by
    by_cases heq : f = field
    · subst heq
      have hsame : (h.pushAddress f address).addressMap f =
          some ((h.addressMap f).getD [] ++ [address]) := Function.update_self _ _ _
      cases hsame.symm.trans hf
      refine ⟨List.append_ne_nil_of_right_ne_nil _ (List.cons_ne_nil _ _), ?_⟩
      intro a ha
      rcases List.mem_append.1 ha with hold | hnew
      · cases haddrs : h.addressMap f with
        | none =>
            rw [haddrs] at hold
            cases hold
        | some addrs =>
            rw [haddrs] at hold
            exact (hs.addresses f addrs haddrs).2 a hold
      · rw [List.mem_singleton.1 hnew]
        exact haddress
    · have hold : (h.pushAddress field address).addressMap f = h.addressMap f :=
        Function.update_of_ne heq _ _
      exact hs.addresses f addrs (hold.symm.trans hf)

/-- What a setter of an octet preserves, whatever it is given. -/
theorem setOctetValue (hs : Sendable h) (fieldId value : UInt8) :
    Sendable ((h.setOctetValue fieldId value).getD h) := by
  cases hset : h.setOctetValue fieldId value with
  | none => exact hs
  | some g =>
      rcases setOctetValue_spec hset with ⟨rfl, hvalue, htype⟩
      exact hs.putOctet hvalue htype

theorem setLongValue (hs : Sendable h) (fieldId : UInt8) (value : Int64) :
    Sendable ((h.setLongValue fieldId value).getD h) := by
  rw [MmsHeader.setLongValue]
  split
  · exact hs
  · exact hs.putLong fieldId value

theorem setTextValue (hs : Sendable h) (fieldId : UInt8) {value : Octets}
    (hvalue : IsCleanText value) : Sendable ((h.setTextValue fieldId value).getD h) := by
  rw [MmsHeader.setTextValue]
  split
  · exact hs
  · rename_i hne
    split
    · exact hs
    · rename_i hfield
      refine hs.putText (hvalue.resolve_left hne) ?_
      rintro rfl
      exact hfield (by decide)

theorem setEncodeStringValue (hs : Sendable h) (fieldId : UInt8) {charset : Nat} {value : Octets}
    (hvalue : IsCleanText value) (hcharset : charset < 2 ^ 32) :
    Sendable ((h.setEncodeStringValue fieldId charset value).getD h) := by
  rw [MmsHeader.setEncodeStringValue]
  split
  · exact hs
  · rename_i hne
    split
    · exact hs
    · refine hs.putEncodeString fieldId ⟨hvalue.resolve_left hne, ?_⟩
      rw [setEncodeString]
      dsimp only
      split <;> omega

theorem addHeaderAddressValue (hs : Sendable h) (field : AddressField) {address : MmsAddress}
    (haddress : IsCleanText address.addressString) (hcharset : address.charset < 2 ^ 32) :
    Sendable ((h.addHeaderAddressValue field address).getD h) := by
  rw [MmsHeader.addHeaderAddressValue]
  split
  · exact hs
  · rename_i htaken
    refine hs.pushAddress ⟨hcharset, ?_⟩
    rcases haddress with hempty | htext
    · exact .inl ⟨hempty, not_not.1 fun hfield => htaken ⟨hempty, hfield⟩⟩
    · exact .inr htext

end Sendable

end Fields

/-! ## Content types and parts -/

section Attached

theorem MmsContentParam.insert_encodable {param : MmsContentParam} (h : param.Encodable)
    {field : UInt8} (hfield : field ∈ textParams) {text : Octets} (htext : IsTextValue text) :
    (param.insert field text).Encodable := by
  rw [MmsContentParam.insert]
  cases hold : param.textMap field with
  | some old => exact h
  | none =>
      refine ⟨?_, h.charset, h.type⟩
      intro f value hf
      by_cases heq : f = field
      · subst heq
        have hsame : Function.update param.textMap f (some text) f = some text :=
          Function.update_self _ _ _
        cases hsame.symm.trans hf
        exact ⟨hfield, htext⟩
      · have hother : Function.update param.textMap field (some text) f = param.textMap f :=
          Function.update_of_ne heq _ _
        exact h.texts f value (hother.symm.trans hf)

theorem MmsContentParam.setStart_encodable {param : MmsContentParam} (h : param.Encodable)
    {start : Octets} (hstart : IsCleanText start) : (param.setStart start).Encodable := by
  rw [MmsContentParam.setStart]
  split
  · exact h
  · rename_i hne
    exact MmsContentParam.insert_encodable h (by decide) (hstart.resolve_left hne)

theorem MmsContentParam.setFileName_encodable {param : MmsContentParam} (h : param.Encodable)
    {fileName : Octets} (hname : IsCleanText fileName) :
    (param.setFileName fileName).Encodable := by
  rw [MmsContentParam.setFileName]
  split
  · exact h
  · rename_i hne
    exact MmsContentParam.insert_encodable h (by decide) (hname.resolve_left hne)

theorem MmsContentParam.empty_encodable : ({} : MmsContentParam).Encodable := by
  refine ⟨?_, by decide, .inl rfl⟩
  intro field text htext
  cases htext

/-- The name of a part is the one of the attachment, or the last component of its path. -/
theorem MmsBodyPart.setBody_fileName {part filled : MmsBodyPart} {files : FileSystem}
    {attachment : MmsAttachment} (h : part.setBody files attachment = some filled)
    (hname : IsCleanText attachment.strFileName)
    (hpath : IsCleanText (lastComponent attachment.strPathName)) :
    IsCleanText filled.strFileName := by
  unfold MmsBodyPart.setBody at h
  split at h
  · rw [← Option.some.inj h]
    dsimp only
    split
    · exact hpath
    · exact hname
  · split at h
    · rw [← Option.some.inj h]
      exact hname
    · cases h

theorem MmsBodyPart.writeBodyFromFile_contentType {part filled : MmsBodyPart} {files : FileSystem}
    {path : Octets} (h : part.writeBodyFromFile files path = some filled) :
    filled.bodyPartContentType = part.bodyPartContentType := by
  unfold MmsBodyPart.writeBodyFromFile at h
  rcases Option.ite_none_left_eq_some.1 h with ⟨-, h⟩
  split at h
  · cases h
  rcases Option.ite_none_left_eq_some.1 h with ⟨-, h⟩
  split at h
  · cases h
  rcases Option.ite_none_left_eq_some.1 h with ⟨-, h⟩
  cases h
  rfl

theorem MmsBodyPart.writeBodyFromAttachmentBuffer_contentType {part filled : MmsBodyPart}
    {attachment : MmsAttachment} (h : part.writeBodyFromAttachmentBuffer attachment = some filled) :
    filled.bodyPartContentType = part.bodyPartContentType := by
  unfold MmsBodyPart.writeBodyFromAttachmentBuffer at h
  rcases Option.ite_none_left_eq_some.1 h with ⟨-, h⟩
  split at h
  · cases h
  rcases Option.ite_none_left_eq_some.1 h with ⟨-, h⟩
  cases h
  rfl

theorem MmsBodyPart.setBody_contentType {part filled : MmsBodyPart} {files : FileSystem}
    {attachment : MmsAttachment} (h : part.setBody files attachment = some filled) :
    filled.bodyPartContentType = part.bodyPartContentType := by
  unfold MmsBodyPart.setBody at h
  split at h
  · rename_i hfile
    have hkept := MmsBodyPart.writeBodyFromFile_contentType hfile
    rw [← Option.some.inj h]
    exact hkept
  · split at h
    · rename_i hbuffer
      have hkept := MmsBodyPart.writeBodyFromAttachmentBuffer_contentType hbuffer
      rw [← Option.some.inj h]
      exact hkept
    · cases h

/-- A part that is filled with a clean attachment can be encoded. -/
theorem AttachmentCall.Clean.part_encodable {call : AttachmentCall} (h : call.Clean)
    {part : MmsBodyPart} (hpart : call.part = some part) :
    part.Encodable ∧ IsPrintableText part.bodyPartContentType.contentType := by
  rw [AttachmentCall.part, MmsBodyPart.setAttachment] at hpart
  cases hbody : MmsBodyPart.setBody {} call.files call.attachment with
  | none =>
      rw [hbody] at hpart
      cases hpart
  | some filled =>
      rw [hbody] at hpart
      rcases Option.ite_none_left_eq_some.1 hpart with ⟨-, hfields⟩
      have hname := MmsBodyPart.setBody_fileName hbody h.fileName h.pathName
      have hparam : filled.bodyPartContentType.msgContentParm.Encodable := by
        rw [MmsBodyPart.setBody_contentType hbody]
        exact MmsContentParam.empty_encodable
      have hnamed := MmsContentParam.setFileName_encodable hparam hname
      rw [← Option.some.inj hfields]
      exact ⟨⟨⟨.inr h.contentType, ⟨hnamed.texts, h.charset, hnamed.type⟩⟩,
        ⟨h.contentId.noNul, h.contentLocation, h.transferEncoding⟩⟩, h.contentType⟩

theorem MmsBodyPart.copy_encodable {part : MmsBodyPart} (h : part.Encodable)
    (hsmall : part.pbodyPartBuffer.length ≤ MMS_PDU_MAX_SIZE) : part.copy.Encodable := by
  rw [MmsBodyPart.copy_eq hsmall]
  exact ⟨h.contentType, h.header⟩

end Attached

/-! ## Runs -/

namespace MmsMsg

variable {msg : MmsMsg}

theorem Composed.withHeader (h : msg.Composed) {header : Option MmsHeader}
    (hs : Sendable (header.getD msg.mmsHeader))
    (hcontent : (header.getD msg.mmsHeader).mmsContentType = msg.mmsHeader.mmsContentType) :
    (msg.withHeader header).Composed := by
  refine ⟨hs, ?_, ?_, h.parts⟩
  · rw [MmsMsg.withHeader, hcontent]
    exact h.contentType
  · rw [MmsMsg.withHeader, hcontent]
    exact h.param

/-- A part that is added names itself in the header when it is the SMIL part. -/
theorem Composed.withPart (h : msg.Composed) {call : AttachmentCall} (hclean : call.Clean)
    {part : MmsBodyPart} (hpart : call.part = some part) : (msg.withPart part).Composed := by
  rcases hclean.part_encodable hpart with ⟨hencodable, htype⟩
  have hspec := MmsBodyPart.setAttachment_spec hpart
  have hcopy := MmsBodyPart.copy_encodable hencodable hspec.2
  rw [MmsMsg.withPart]
  split
  · have hstart : IsCleanText part.contentId := by
      rw [hspec.1.1]
      exact hclean.contentId
    have hparam := MmsContentParam.setStart_encodable h.param hstart
    refine ⟨⟨h.header.octets, h.header.messageType, h.header.texts, h.header.textClass,
      h.header.strings, h.header.addresses⟩, h.contentType,
      ⟨hparam.texts, hparam.charset, .inr htype⟩, ?_⟩
    intro p hp
    rcases List.mem_cons.1 hp with rfl | hold
    · exact hcopy
    · exact h.parts p hold
  · refine ⟨h.header, h.contentType, h.param, ?_⟩
    intro p hp
    rcases List.mem_append.1 hp with hold | hnew
    · exact h.parts p hold
    · rw [List.mem_singleton.1 hnew]
      exact hcopy

theorem setOctetValue_contentType (h : MmsHeader) (fieldId value : UInt8) :
    ((h.setOctetValue fieldId value).getD h).mmsContentType = h.mmsContentType := by
  cases hset : h.setOctetValue fieldId value with
  | none => rfl
  | some g =>
      rw [(setOctetValue_spec hset).1]
      rfl

theorem setLongValue_contentType (h : MmsHeader) (fieldId : UInt8) (value : Int64) :
    ((h.setLongValue fieldId value).getD h).mmsContentType = h.mmsContentType := by
  rw [MmsHeader.setLongValue]
  split
  · rfl
  · rfl

theorem setTextValue_contentType (h : MmsHeader) (fieldId : UInt8) (value : Octets) :
    ((h.setTextValue fieldId value).getD h).mmsContentType = h.mmsContentType := by
  rw [MmsHeader.setTextValue]
  split
  · rfl
  · split
    · rfl
    · rfl

theorem setEncodeStringValue_contentType (h : MmsHeader) (fieldId : UInt8) (charset : Nat)
    (value : Octets) :
    ((h.setEncodeStringValue fieldId charset value).getD h).mmsContentType = h.mmsContentType := by
  rw [MmsHeader.setEncodeStringValue]
  split
  · rfl
  · split
    · rfl
    · rfl

theorem addHeaderAddressValue_contentType (h : MmsHeader) (field : AddressField)
    (address : MmsAddress) :
    ((h.addHeaderAddressValue field address).getD h).mmsContentType = h.mmsContentType := by
  rw [MmsHeader.addHeaderAddressValue]
  split
  · rfl
  · rfl

/-- What every clean call preserves. -/
theorem Composed.set (h : msg.Composed) {setting : Setting} (hclean : setting.Clean) :
    (msg.set setting).Composed := by
  cases setting with
  | setHeaderOctetValue fieldId value =>
      exact h.withHeader (h.header.setOctetValue fieldId value)
        (setOctetValue_contentType _ fieldId value)
  | setHeaderLongValue fieldId value =>
      exact h.withHeader (h.header.setLongValue fieldId value)
        (setLongValue_contentType _ fieldId value)
  | setHeaderStringValue fieldId value =>
      exact h.withHeader (h.header.setTextValue fieldId hclean)
        (setTextValue_contentType _ fieldId value)
  | setHeaderEncodedStringValue fieldId value charset =>
      exact h.withHeader (h.header.setEncodeStringValue fieldId hclean.1 hclean.2)
        (setEncodeStringValue_contentType _ fieldId charset value)
  | addHeaderAddressValue fieldId address =>
      rw [MmsMsg.set]
      cases addressFieldOf fieldId with
      | none => exact h.withHeader h.header rfl
      | some field =>
          exact h.withHeader (h.header.addHeaderAddressValue field hclean.1 hclean.2)
            (addHeaderAddressValue_contentType _ field address)
  | setHeaderContentType strType =>
      exact ⟨⟨h.header.octets, h.header.messageType, h.header.texts, h.header.textClass,
        h.header.strings, h.header.addresses⟩, hclean, h.param, h.parts⟩
  | addAttachment call =>
      rw [MmsMsg.set]
      cases hpart : call.part with
      | none =>
          rw [addAttachment_of_none hpart]
          exact h
      | some part =>
          rcases addAttachment_of_some msg hpart with ⟨-, hcall⟩ | ⟨-, hcall⟩
          · rw [hcall]
            exact h
          · rw [hcall]
            exact h.withPart hclean hpart

theorem Composed.new : ({} : MmsMsg).Composed where
  header := by
    refine ⟨?_, ?_, ?_, rfl, ?_, ?_⟩
    all_goals
      intros
      rename_i hfield
      cases hfield
  contentType := .inl rfl
  param := MmsContentParam.empty_encodable
  parts _ hpart := absurd hpart List.not_mem_nil

/-- The message that a run of calls makes of a new one. -/
def composed (settings : List Setting) : MmsMsg := settings.foldl MmsMsg.set {}

theorem composed_composed {settings : List Setting} (h : ∀ setting ∈ settings, setting.Clean) :
    (composed settings).Composed := by
  have hguarded : Machine.Guarded MmsMsg.set (fun _ setting => setting.Clean) {} settings :=
    Machine.Guarded.of_mem h _
  have hpreserves (msg : MmsMsg) (setting : Setting) (hclean : setting.Clean)
      (hmsg : msg.Composed) : (msg.set setting).Composed := hmsg.set hclean
  exact hguarded.invariant hpreserves Composed.new

/-- No files, and a transaction id for every message. -/
def numberedPlatform : Platform := { plainPlatform with makeTransactionId := fun _ => ascii "T1" }

def buffered (attachment : MmsAttachment) : AttachmentCall :=
  ⟨⟨fun _ => none, fun _ => none, fun _ _ => []⟩, attachment⟩

def textCall : AttachmentCall := buffered {
  contentId := ascii "<a>"
  contentType := ascii "text/plain"
  strFileName := ascii "a.txt"
  pAttachmentBuffer := ascii "hi" }

def smilCall : AttachmentCall := buffered {
  isSmilFile := true
  contentId := ascii "<s>"
  contentLocation := ascii "s"
  contentType := ascii "application/smil"
  strFileName := ascii "s"
  pAttachmentBuffer := ascii "<smil/>" }

/-- A message with a text and a SMIL part, which goes to the front. -/
def textAndSmil : List Setting := [
  .setHeaderOctetValue MMS_MESSAGE_TYPE MMS_MSGTYPE_SEND_REQ,
  .addHeaderAddressValue MMS_TO { addressString := ascii "10" },
  .setHeaderContentType (ascii "application/vnd.wap.multipart.related"),
  .addAttachment textCall,
  .addAttachment smilCall]

theorem numberedPlatform_makesIds : MakesIds numberedPlatform :=
  ⟨by decide, by decide, by decide⟩

theorem numberedPlatform_shrinks : ShrinksBase64 numberedPlatform :=
  fun data => Nat.zero_le data.length

theorem isPrintableText_of {text : Octets} (h : 0 ∉ text ∧ text.head?.any
    (fun b => 0x20 ≤ b ∧ b ≤ 0x7e) = true) : IsPrintableText text := by
  refine ⟨h.1, ?_⟩
  cases text with
  | nil => cases h.2
  | cons b rest => exact ⟨b, rfl, of_decide_eq_true h.2⟩

theorem isCleanText_of {text : Octets} (h : 0 ∉ text ∧ text.head? ≠ some 0x7f) :
    IsCleanText text := by
  by_cases hempty : text = []
  · exact .inl hempty
  · exact .inr ⟨hempty, h.1, h.2⟩

theorem textAndSmil_clean : ∀ setting ∈ textAndSmil, setting.Clean := by
  have htext : textCall.Clean := by
    refine ⟨isPrintableText_of (by decide), by decide, ?_, ?_, ?_, ?_, ?_⟩
    all_goals exact isCleanText_of (by decide)
  have hsmil : smilCall.Clean := by
    refine ⟨isPrintableText_of (by decide), by decide, ?_, ?_, ?_, ?_, ?_⟩
    all_goals exact isCleanText_of (by decide)
  simp only [textAndSmil, List.forall_mem_cons]
  exact ⟨trivial, ⟨isCleanText_of (by decide), by decide⟩,
    .inr (isPrintableText_of (by decide)), htext, hsmil, fun _ h => absurd h List.not_mem_nil⟩

theorem textAndSmil_short :
    ((composed textAndSmil).encodeUnlimited numberedPlatform).any
      (fun octets => octets.length < MMS_PDU_MAX_SIZE) = true := by decide +kernel

end MmsMsg

end TelephonySms.Mms
