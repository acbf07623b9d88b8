import TelephonySms.Mms.ContentTypeRoundTrip
import TelephonySms.Mms.PartFraming
import TelephonySms.Mms.SizeLimit

/-! # Bodies through the encoder and back

The content type of a message and its parts as they are on the wire, and the parts that the
decoder makes of them. A part has two lengths in front of its content type, its headers and
its data.
-/

namespace TelephonySms.Mms

open Action OctetReader Reader ContentParam MmsHeaderParam

/-! ## Content types -/

namespace MmsContentParam

variable {platform : Platform} {param : MmsContentParam}

theorem textFieldWire_eq (h : param.Encodable) (field : UInt8) :
    param.textFieldWire platform field = optionWire (param.textValue platform field) := by
  rw [textFieldWire, textValue]
  cases htext : param.textMap field with
  | none => rfl
  | some text =>
      rw [Option.map_some, optionWire_some]
      dsimp only
      rw [textWire_eq platform (h.texts field text htext).2.ne_nil]
      rfl

theorem charsetFieldWire_eq : param.charsetFieldWire = optionWire param.charsetValue := by
  rw [charsetFieldWire, charsetValue]
  split
  · rfl
  · rename_i hcharset
    rw [optionWire_some, longIntegerWire_of_ne_zero hcharset]
    rfl

theorem typeFieldWire_eq : param.typeFieldWire platform = optionWire (param.typeValue platform) := by
  rw [typeFieldWire, typeValue]
  split
  · rfl
  · rename_i htype
    rw [optionWire_some, textWire_eq platform htype]
    rfl

theorem textFieldsWire_eq (h : param.Encodable) :
    textParams.flatMap (param.textFieldWire platform) =
      textParams.flatMap fun field => optionWire (param.textValue platform field) := by
  congr 1
  funext field
  exact textFieldWire_eq h field

/-- The parameters of a message in the order in which they are encoded. -/
def messageValues (platform : Platform) (param : MmsContentParam) : List ContentParameter :=
  textParams.flatMap (fun field => (param.textValue platform field).toList) ++
    ((param.typeValue platform).toList ++ param.charsetValue.toList)

theorem messageValues_perm (platform : Platform) (param : MmsContentParam) :
    ∀ p, p ∈ param.messageValues platform ↔ p ∈ param.values platform := by
  intro p
  rw [messageValues, values, List.mem_append, List.mem_append, List.mem_append, List.mem_append,
    or_comm (a := p ∈ (param.typeValue platform).toList)]

/-- The order of the charset and the type is of no account. -/
theorem messageValues_apply (h : param.Encodable) :
    (param.messageValues platform).foldl ContentParameter.apply {} = param := by
  have hswap (start : MmsContentParam) :
      ((param.typeValue platform).toList ++ param.charsetValue.toList).foldl
          ContentParameter.apply start =
        (param.charsetValue.toList ++ (param.typeValue platform).toList).foldl
          ContentParameter.apply start := by
    rw [charsetValue, typeValue]
    split <;> split <;> rfl
  have hvalues : (param.values platform).foldl ContentParameter.apply {} = param := values_apply h
  rw [values, List.foldl_append] at hvalues
  rw [messageValues, List.foldl_append, hswap, hvalues]

end MmsContentParam

namespace MmsContentType

variable (platform : Platform) (c : MmsContentType)

/-- The content type of a message with parts. -/
def messageValue : ContentTypeValue :=
  let body := ContentTypeValue.body (.text (textString platform c.contentType))
    (c.msgContentParm.messageValues platform) []
  .general (valueLengthWire body.length) (.text (textString platform c.contentType))
    (c.msgContentParm.messageValues platform) []

/-- The content type of a message without parts. -/
def bareValue : ContentTypeValue := .constrained (.text (textString platform c.contentType))

variable {platform c}

theorem bareValue_valid (h : IsPrintableText c.contentType) : (c.bareValue platform).Valid := by
  have hfirst := textString_first platform h
  refine ⟨⟨textString_valid platform h.isTextValue, hfirst.2⟩, hfirst.1, ?_⟩
  intro octets hlong
  cases hlong

theorem bareValue_wire (h : IsPrintableText c.contentType) :
    (c.bareValue platform).wire = textWire platform c.contentType := by
  rw [textWire_eq platform h.isTextValue.ne_nil]
  rfl

theorem messageValue_wire (h : IsPrintableText c.contentType) (hparam : c.msgContentParm.Encodable) :
    (c.messageValue platform).wire = lengthWire (MmsBody.headerContentTypeWire platform c) := by
  have hbody : ContentTypeValue.body (.text (textString platform c.contentType))
      (c.msgContentParm.messageValues platform) [] = MmsBody.headerContentTypeWire platform c := by
    rw [ContentTypeValue.body, List.append_nil, MmsBody.headerContentTypeWire,
      textWire_eq platform h.isTextValue.ne_nil, MmsContentParam.textFieldsWire_eq hparam,
      MmsContentParam.typeFieldWire_eq, MmsContentParam.charsetFieldWire_eq,
      MmsContentParam.messageValues, List.flatMap_append, List.flatMap_append, List.flatMap_assoc]
    rfl
  rw [← hbody]
  rfl

theorem messageValue_valid (h : IsPrintableText c.contentType)
    (hparam : c.msgContentParm.Encodable)
    (hlt : (c.messageValue platform).wire.length < 2 ^ 31) :
    (c.messageValue platform).Valid ∧ (c.messageValue platform).IsRead := by
  have hfirst := textString_first platform h
  have hvalues (p : ContentParameter) (hp : p ∈ c.msgContentParm.messageValues platform) :
      p.Valid ∧ p.IsRead :=
    MmsContentParam.values_valid hparam p ((MmsContentParam.messageValues_perm _ _ p).1 hp)
  refine ⟨⟨⟨textString_valid platform h.isTextValue, hfirst.2⟩, hfirst.1,
    fun p hp => (hvalues p hp).1, ?_, ?_⟩, trivial, fun p hp => (hvalues p hp).2⟩
  · intro b hb
    cases hb
  · apply valueLengthWire_isValueLength
    rw [messageValue, ContentTypeValue.wire, List.length_append] at hlt
    omega

theorem messageValue_apply (hparam : c.msgContentParm.Encodable) :
    (c.messageValue platform).apply {} = c := by
  rw [messageValue, ContentTypeValue.apply, MmsContentParam.messageValues_apply hparam]
  rfl

theorem value_wire_ne_nil (platform : Platform) (c : MmsContentType) :
    (c.value platform).wire ≠ [] := by
  have hmedia := MediaType.wire_ne_nil (c.media platform)
  simp [value_wire, lengthWire, ContentTypeValue.body, hmedia]

end MmsContentType

/-! ## Part headers -/

def dispositionOf (disposition : Octets) : Option Disposition :=
  if disposition = DISPOSITION_FROM_DATA then some .fromData
  else if disposition = DISPOSITION_ATTACHMENT then some .attachment
  else if disposition = DISPOSITION_INLINE then some .inline
  else none

namespace MmsBodyPartHeader

variable (platform : Platform) (ph : MmsBodyPartHeader)

def contentIdValue : List PartHeader :=
  if ph.strContentID = [] then [] else [.contentId ph.strContentID]

def contentLocationValue : List PartHeader :=
  if ph.strContentLocation = [] then []
  else [.contentLocation (P_CONTENT_LOCATION_V2 ||| 0x80) (textString platform ph.strContentLocation)]

def contentDispositionValue : List PartHeader :=
  (dispositionOf ph.strDisposition).toList.map fun disposition =>
    .contentDisposition (P_CONTENT_DISPOSITION_V1 ||| 0x80) (uintvarOctets 1) disposition .none

def contentTransferEncodingValue : List PartHeader :=
  if ph.strContentTransferEncoding = [] then []
  else [.application (ascii "Content-Transfer-Encoding")
    (textString platform ph.strContentTransferEncoding)]

/-- The headers in the order in which they are encoded. -/
def values : List PartHeader :=
  ph.contentIdValue ++ (ph.contentLocationValue platform ++
    (ph.contentDispositionValue ++ ph.contentTransferEncodingValue platform))

/-- Texts that end where they end. -/
structure Encodable (ph : MmsBodyPartHeader) : Prop where
  contentId : 0 ∉ ph.strContentID
  contentLocation : ph.strContentLocation = [] ∨ IsTextValue ph.strContentLocation
  transferEncoding : ph.strContentTransferEncoding = [] ∨
    IsTextValue ph.strContentTransferEncoding

/-- The quotes of a content id are dropped, and a part without a transfer encoding has one. -/
def received : MmsBodyPartHeader where
  strContentTransferEncoding :=
    if ph.strContentTransferEncoding = [] then ascii "binary" else ph.strContentTransferEncoding
  strDisposition := if (dispositionOf ph.strDisposition).isSome then ph.strDisposition else []
  strContentID := ph.strContentID.filter (· != 0x22)
  strContentLocation := ph.strContentLocation

theorem dispositionCode_eq (disposition : Octets) :
    dispositionCode disposition = none ∧ dispositionOf disposition = none ∨
      ∃ code d, dispositionCode disposition = some code ∧ dispositionOf disposition = some d ∧
        d.wire = [code] ∧ d.text = disposition ∧ d.Valid := by
  unfold dispositionCode dispositionOf
  split_ifs with hdata hattachment hinline
  · exact .inr ⟨_, _, rfl, rfl, rfl, hdata.symm, trivial⟩
  · exact .inr ⟨_, _, rfl, rfl, rfl, hattachment.symm, trivial⟩
  · exact .inr ⟨_, _, rfl, rfl, rfl, hinline.symm, trivial⟩
  · exact .inl ⟨rfl, rfl⟩

theorem textWire_of_low (platform : Platform) {b : UInt8} (h : b ≤ 0x7f) (rest : Octets) :
    textWire platform (b :: rest) = b :: rest ++ [0] := by
  have hnot : ¬ (platform.charIsUnsigned = true ∧ b > 0x7f) :=
    fun hhigh => absurd hhigh.2 (UInt8.not_lt.2 h)
  rw [textWire.eq_def]
  dsimp only
  rw [if_neg hnot, List.nil_append]

theorem headersWire_append (headers headers' : List PartHeader) :
    headersWire (headers ++ headers') = headersWire headers ++ headersWire headers' :=
  List.flatMap_append

theorem values_wire : headersWire (ph.values platform) = ph.wire platform := by
  have hid : headersWire ph.contentIdValue = ph.contentIdWire := by
    rw [contentIdValue, contentIdWire]
    split
    · rfl
    · rename_i hne
      rw [quotedTextWire, if_neg hne]
      simp [headersWire, PartHeader.wire]
  have hlocation : headersWire (ph.contentLocationValue platform) =
      ph.contentLocationWire platform := by
    rw [contentLocationValue, contentLocationWire]
    split
    · rfl
    · rename_i hne
      rw [textWire_eq platform hne]
      simp [headersWire, PartHeader.wire]
  have hdisposition : headersWire ph.contentDispositionValue = ph.contentDispositionWire := by
    rw [contentDispositionValue, contentDispositionWire]
    rcases dispositionCode_eq ph.strDisposition with ⟨hnone, hnone'⟩ | ⟨code, d, hsome, hsome', hwire, -⟩
    · rw [hnone, hnone']
      rfl
    · rw [hsome, hsome']
      simp [headersWire, PartHeader.wire, DispositionParameters.wire, hwire]
  have hencoding : headersWire (ph.contentTransferEncodingValue platform) =
      ph.contentTransferEncodingWire platform := by
    have hname : textWire platform (ascii "Content-Transfer-Encoding") =
        ascii "Content-Transfer-Encoding" ++ [0] :=
      textWire_of_low platform (b := 0x43) (show (0x43 : UInt8) ≤ 0x7f by decide) _
    rw [contentTransferEncodingValue, contentTransferEncodingWire]
    split
    · rfl
    · rename_i hne
      rw [textWire_eq platform hne, hname]
      simp [headersWire, PartHeader.wire]
  rw [values, headersWire_append, headersWire_append, headersWire_append, hid, hlocation,
    hdisposition, hencoding, wire]

theorem values_valid (h : ph.Encodable) :
    ∀ header ∈ ph.values platform, header.Valid ∧ header.IsRead := by
  intro header hmem
  rw [values, List.mem_append, List.mem_append, List.mem_append] at hmem
  rcases hmem with hid | hlocation | hdisposition | hencoding
  · rw [contentIdValue] at hid
    split at hid
    · cases hid
    · rw [List.mem_singleton.1 hid]
      exact ⟨h.contentId, trivial⟩
  · rw [contentLocationValue] at hlocation
    split at hlocation
    · cases hlocation
    · rename_i hne
      rw [List.mem_singleton.1 hlocation]
      exact ⟨⟨.inr rfl, textString_valid platform (h.contentLocation.resolve_left hne)⟩, trivial⟩
  · rcases List.mem_map.1 hdisposition with ⟨disposition, hsome, rfl⟩
    have hof := Option.mem_toList.1 hsome
    rcases dispositionCode_eq ph.strDisposition with ⟨-, hnone⟩ | ⟨code, d, -, hd, hwire, -, hvalid⟩
    · rw [hnone] at hof
      cases hof
    · cases hd.symm.trans hof
      refine ⟨⟨.inl rfl, hvalid, trivial, ?_⟩, rfl⟩
      rw [hwire]
      exact IsValueLength.short (n := 1) (by decide)
  · rw [contentTransferEncodingValue] at hencoding
    split at hencoding
    · cases hencoding
    · rename_i hne
      rw [List.mem_singleton.1 hencoding]
      exact ⟨⟨by decide, by decide, textString_valid platform (h.transferEncoding.resolve_left hne)⟩,
        trivial⟩

theorem counted_cons {header : PartHeader} {headers : List PartHeader}
    (h : header.isApplication = false) (hrest : Counted header.excess headers) :
    Counted 0 (header :: headers) := by
  refine ⟨?_, ?_, ?_⟩
  · have hpos := List.length_pos_iff.2 header.wire_ne_nil
    rw [headersWire, List.flatMap_cons, List.length_append]
    omega
  · intro happlication
    rw [h] at happlication
    cases happlication
  · rw [Nat.zero_add]
    exact hrest

/-- The one octet that is taken off too much is made up for by what stands behind it. -/
theorem values_counted : Counted 0 (ph.values platform) := by
  have hencoding (excess : Nat) (hle : excess ≤ 1) :
      Counted excess (ph.contentTransferEncodingValue platform) := by
    rw [contentTransferEncodingValue]
    split
    · trivial
    · refine ⟨?_, fun _ => rfl, trivial⟩
      have hlong : 25 < (headersWire [PartHeader.application (ascii "Content-Transfer-Encoding")
          (textString platform ph.strContentTransferEncoding)]).length := by
        simp only [headersWire, List.flatMap_singleton, PartHeader.wire, List.length_append,
          List.length_singleton]
        have hname : (ascii "Content-Transfer-Encoding").length = 25 := by decide
        omega
      omega
  have hdisposition : Counted 0
      (ph.contentDispositionValue ++ ph.contentTransferEncodingValue platform) := by
    rw [contentDispositionValue]
    cases dispositionOf ph.strDisposition with
    | none => exact hencoding 0 (by decide)
    | some d => exact counted_cons rfl (hencoding 1 (by decide))
  have hlocation : Counted 0 (ph.contentLocationValue platform ++
      (ph.contentDispositionValue ++ ph.contentTransferEncodingValue platform)) := by
    rw [contentLocationValue]
    split
    · exact hdisposition
    · exact counted_cons rfl hdisposition
  rw [values, contentIdValue]
  split
  · exact hlocation
  · exact counted_cons rfl hlocation

theorem storeHeaders_append (headers headers' : List PartHeader) (g : MmsBodyPartHeader) :
    storeHeaders (headers ++ headers') g = storeHeaders headers' (storeHeaders headers g) :=
  List.foldl_append

theorem values_store : storeHeaders (ph.values platform) {} = ph.received := by
  have hid : storeHeaders ph.contentIdValue {} =
      { strContentID := ph.strContentID.filter (· != 0x22) } := by
    rw [contentIdValue]
    split
    · rename_i hnil
      rw [hnil]
      rfl
    · rfl
  have hlocation (g : MmsBodyPartHeader) (hg : g.strContentLocation = []) :
      storeHeaders (ph.contentLocationValue platform) g =
        { g with strContentLocation := ph.strContentLocation } := by
    rw [contentLocationValue]
    split
    · rename_i hnil
      rw [hnil, ← hg]
      rfl
    · rfl
  have hdisposition (g : MmsBodyPartHeader) (hg : g.strDisposition = []) :
      storeHeaders ph.contentDispositionValue g = { g with
        strDisposition :=
          if (dispositionOf ph.strDisposition).isSome then ph.strDisposition else [] } := by
    rw [contentDispositionValue]
    rcases dispositionCode_eq ph.strDisposition with ⟨-, hnone⟩ | ⟨code, d, -, hd, -, htext, -⟩
    · rw [hnone, if_neg (by decide), ← hg]
      rfl
    · rw [hd, if_pos (show (some d).isSome = true from rfl), ← htext]
      rfl
  have hencoding (g : MmsBodyPartHeader) (hg : g.strContentTransferEncoding = ascii "binary") :
      storeHeaders (ph.contentTransferEncodingValue platform) g = { g with
        strContentTransferEncoding := if ph.strContentTransferEncoding = [] then ascii "binary"
          else ph.strContentTransferEncoding } := by
    rw [contentTransferEncodingValue]
    split
    · rw [← hg]
      rfl
    · simp [storeHeaders, PartHeader.store, textString]
  rw [values, storeHeaders_append, storeHeaders_append, storeHeaders_append, hid, hlocation _ rfl,
    hdisposition _ rfl, hencoding _ rfl]
  rfl

end MmsBodyPartHeader

/-! ## Parts -/

namespace MmsBodyPart

variable (platform : Platform) (part : MmsBodyPart)

/-- What the encoder writes for the part. -/
def value : PartValue :=
  let headers := part.mmsBodyPartHeader.values platform
  let contentType := part.bodyPartContentType.value platform
  { headersLength := uintvarOctets (contentType.wire ++ headersWire headers).length
    dataLength := uintvarOctets part.pbodyPartBuffer.length
    contentType := contentType
    headers := headers
    data := part.pbodyPartBuffer }

structure Encodable (part : MmsBodyPart) : Prop where
  contentType : part.bodyPartContentType.Encodable
  header : part.mmsBodyPartHeader.Encodable

/-- The part that is decoded when there are `n` parts left. It has its data without the
transfer encoding, and a name from its headers or from the clock. -/
def received (n : Nat) : MmsBodyPart :=
  decodeSetFileName platform n
    { headerLen := (part.value platform).head.length
      bodyPartContentType := part.bodyPartContentType
      mmsBodyPartHeader := part.mmsBodyPartHeader.received
      pbodyPartBuffer := transferred platform part.mmsBodyPartHeader.received part.pbodyPartBuffer }

variable {platform part}

theorem partContentTypePlan_wire (h : part.bodyPartContentType.Encodable) :
    (partContentTypePlan platform part.bodyPartContentType).wire =
      some (part.bodyPartContentType.value platform).wire := by
  have hbody : ContentTypeValue.body (part.bodyPartContentType.media platform)
      (part.bodyPartContentType.msgContentParm.values platform) [] =
        partContentTypeWire platform part.bodyPartContentType := by
    have hmedia : (part.bodyPartContentType.media platform).wire =
        mediaWire platform part.bodyPartContentType.contentType := by
      rw [MmsContentType.media, mediaWire]
      cases hindex : getContentTypeFromString part.bodyPartContentType.contentType with
      | some index => rfl
      | none =>
          dsimp only
          rw [textWire_eq platform (h.isPrintableText hindex).isTextValue.ne_nil]
          rfl
    rw [ContentTypeValue.body, List.append_nil, partContentTypeWire, hmedia,
      MmsContentParam.textFieldsWire_eq h.param, MmsContentParam.charsetFieldWire_eq,
      MmsContentParam.typeFieldWire_eq, MmsContentParam.values_wire]
  have hne : partContentTypeWire platform part.bodyPartContentType ≠ [] := by
    rw [← hbody]
    exact List.append_ne_nil_of_left_ne_nil (MediaType.wire_ne_nil _) _
  rw [partContentTypePlan, Plan.wire, Plan.wire, Option.bind_some, if_neg hne,
    MmsContentType.value_wire, hbody]
  rfl

/-- Where its data can be written, the part is on the wire as it is. -/
theorem plan_wire (h : part.Encodable) (hplan : (part.plan platform).wire ≠ none) :
    (part.plan platform).wire = some (part.value platform).wire ∧ part.pbodyPartBuffer ≠ [] := by
  have hhead : (Plan.seq (partContentTypePlan platform part.bodyPartContentType)
      (.octets (part.mmsBodyPartHeader.wire platform))).wire =
        some (part.value platform).head := by
    rw [Plan.wire, partContentTypePlan_wire h.contentType, ← MmsBodyPartHeader.values_wire]
    rfl
  have hne : (part.value platform).head ≠ [] :=
    List.append_ne_nil_of_left_ne_nil (MmsContentType.value_wire_ne_nil platform _) _
  have hlengths : (part.plan platform).wire = Option.map₂ (· ++ ·)
      (some (part.lengthsHead (part.value platform).head ++ (part.value platform).head))
        (part.dataPlan).wire := by
    rw [plan, Plan.wire, Plan.wire, hhead, Option.bind_some, if_neg hne]
  rw [hlengths] at hplan ⊢
  unfold dataPlan at hplan ⊢
  by_cases hdata : part.pbodyPartBuffer.length ≤ MMS_PDU_MAX_SIZE ∧ part.pbodyPartBuffer ≠ []
  · refine ⟨?_, hdata.2⟩
    rw [if_pos hdata, Plan.wire, if_neg hdata.2]
    simp [PartValue.wire, lengthsHead, value, PartValue.head]
  · rw [if_neg hdata] at hplan
    exact absurd rfl hplan

theorem value_valid (h : part.Encodable)
    (hlt : (part.value platform).wire.length < 2 ^ 31) : (part.value platform).Valid := by
  rw [PartValue.wire, List.length_append, List.length_append, List.length_append] at hlt
  have hcontent : (part.bodyPartContentType.value platform).wire.length < 2 ^ 31 := by
    have hhead : (part.value platform).head.length =
        (part.bodyPartContentType.value platform).wire.length +
          (headersWire (part.mmsBodyPartHeader.values platform)).length := List.length_append
    omega
  refine ⟨uintvarOctets_isUintvar ?_, uintvarOctets_isUintvar ?_, ?_, ?_⟩
  · exact Nat.lt_trans (show (part.value platform).head.length < 2 ^ 31 by omega) (by decide)
  · exact Nat.lt_trans (show (part.value platform).data.length < 2 ^ 31 by omega) (by decide)
  · exact MmsContentType.value_valid h.contentType hcontent
  · exact fun header hmem =>
      (MmsBodyPartHeader.values_valid platform part.mmsBodyPartHeader h.header header hmem).1

theorem value_isRead (h : part.Encodable) : (part.value platform).IsRead where
  contentType := ⟨(MmsContentType.media_valid platform h.contentType).2.2.1,
    fun p hp => (MmsContentParam.values_valid h.contentType.param p hp).2⟩
  headers := fun header hmem =>
    (MmsBodyPartHeader.values_valid platform part.mmsBodyPartHeader h.header header hmem).2

theorem value_aligned (hdata : part.pbodyPartBuffer ≠ []) : (part.value platform).Aligned :=
  ⟨MmsBodyPartHeader.values_counted platform part.mmsBodyPartHeader, hdata⟩

theorem value_decoded (h : part.Encodable) (n : Nat) :
    decodeSetFileName platform n ((part.value platform).decoded platform) =
      part.received platform n := by
  have hcontent : (part.bodyPartContentType.value platform).apply {} = part.bodyPartContentType := by
    rw [MmsContentType.value, ContentTypeValue.apply,
      (MmsContentType.media_valid platform h.contentType).2.2.2,
      MmsContentParam.values_apply h.contentType.param]
  have hheaders := MmsBodyPartHeader.values_store platform part.mmsBodyPartHeader
  simp only [received, PartValue.decoded, value, hcontent, hheaders]

end MmsBodyPart

/-! ## Bodies -/

namespace MmsBody

variable (platform : Platform) (body : MmsBody)

def value : MultipartValue where
  count := uintvarOctets body.mmsBodyParts.length
  parts := body.mmsBodyParts.map (MmsBodyPart.value platform)

/-- The decoder counts the parts down. -/
def receivedParts (platform : Platform) : List MmsBodyPart → List MmsBodyPart
  | [] => []
  | part :: parts => part.received platform (parts.length + 1) :: receivedParts platform parts

/-- What the content type of a message is on the wire. -/
def contentTypeValue (c : MmsContentType) : ContentTypeValue :=
  if body.mmsBodyParts = [] then c.bareValue platform else c.messageValue platform

/-- Without parts the parameters are left out. -/
def receivedContentType (c : MmsContentType) : MmsContentType :=
  if body.mmsBodyParts = [] then { contentType := c.contentType } else c

variable {platform body}

theorem receivedParts_eq {parts : List MmsBodyPart} (h : ∀ part ∈ parts, part.Encodable) :
    decodedParts platform (parts.map (MmsBodyPart.value platform)) =
      receivedParts platform parts := by
  induction parts with
  | nil => rfl
  | cons part parts ih =>
      rw [List.map_cons, decodedParts, receivedParts, List.length_map,
        MmsBodyPart.value_decoded (h part List.mem_cons_self),
        ih fun other hother => h other (List.mem_cons_of_mem _ hother)]

theorem contentTypeValue_apply {c : MmsContentType} (h : c.msgContentParm.Encodable) :
    (body.contentTypeValue platform c).apply {} = body.receivedContentType c := by
  rw [contentTypeValue, receivedContentType]
  split
  · rfl
  · exact MmsContentType.messageValue_apply h

/-- The content type of a message that is encoded with its body. -/
structure IsMessageType (c : MmsContentType) : Prop where
  contentType : IsPrintableText c.contentType
  param : c.msgContentParm.Encodable

theorem contentTypeValue_valid {c : MmsContentType} (h : IsMessageType c)
    (hlt : (body.contentTypeValue platform c).wire.length < 2 ^ 31) :
    (body.contentTypeValue platform c).Valid ∧ (body.contentTypeValue platform c).IsRead := by
  unfold contentTypeValue at hlt ⊢
  split
  · exact ⟨MmsContentType.bareValue_valid h.contentType, trivial⟩
  · rename_i hparts
    rw [if_neg hparts] at hlt
    exact MmsContentType.messageValue_valid h.contentType h.param hlt

theorem contentTypeValuePlan_wire {header : MmsHeader} (h : IsMessageType header.mmsContentType)
    (hbody : header.isHaveBody = true) :
    (body.contentTypeValuePlan platform header).wire =
      some (body.contentTypeValue platform header.mmsContentType).wire := by
  have hne := h.contentType.isTextValue.ne_nil
  rw [contentTypeValuePlan, contentTypeValue, if_neg hne]
  by_cases hparts : body.mmsBodyParts = []
  · rw [if_pos hparts, MmsContentType.bareValue_wire h.contentType, if_pos (by simp [hparts])]
    rfl
  · have hwire : headerContentTypeWire platform header.mmsContentType ≠ [] := by
      rw [headerContentTypeWire, textWire_eq platform hne]
      exact List.append_ne_nil_of_left_ne_nil (TextString.wire_ne_nil _) _
    rw [if_neg hparts, MmsContentType.messageValue_wire h.contentType h.param,
      if_neg (by simp [hbody, hparts]), Plan.wire, Plan.wire, Option.bind_some, if_neg hwire]
    rfl

/-- The body on the wire. -/
theorem script_wire {header : MmsHeader} (h : IsMessageType header.mmsContentType)
    (hbody : header.isHaveBody = true) (hparts : ∀ part ∈ body.mmsBodyParts, part.Encodable)
    (hplans : ∀ part ∈ body.mmsBodyParts, (part.plan platform).wire ≠ none) :
    Script.wire (body.script platform header) =
      MmsFieldCode.MMS_CONTENT_TYPE ::
        (body.contentTypeValue platform header.mmsContentType).wire ++
          (body.value platform).wire := by
  have hpartsWire (parts : List MmsBodyPart) (hmem : ∀ part ∈ parts, part ∈ body.mmsBodyParts) :
      Script.wire (parts.flatMap fun part => [.must (part.plan platform)]) =
        partsWire (parts.map (MmsBodyPart.value platform)) := by
    induction parts with
    | nil => rfl
    | cons part parts ih =>
        have hpart := hmem part List.mem_cons_self
        have hwire := (MmsBodyPart.plan_wire (hparts part hpart) (hplans part hpart)).1
        have hrest := ih fun other hother => hmem other (List.mem_cons_of_mem _ hother)
        have hone : Script.wire [.must (part.plan platform)] = (part.value platform).wire := by
          rw [Script.wire_cons, Step.plan, hwire]
          exact List.append_nil _
        rw [List.flatMap_cons, Script.wire_append, hrest, hone]
        rfl
  rw [script, Script.wire_append, hpartsWire _ fun _ hmem => hmem, Script.wire_cons,
    Script.wire_cons, Script.wire_cons, Step.plan, Step.plan, Step.plan,
    contentTypeValuePlan_wire h hbody]
  simp [Script.wire, Plan.wire, MultipartValue.wire, value]

end MmsBody

end TelephonySms.Mms
