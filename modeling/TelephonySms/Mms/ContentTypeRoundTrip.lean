import TelephonySms.Mms.ContentTypeReading
import TelephonySms.Mms.ValueRoundTrip

/-! # Content types through the encoder and back

The encoder of a part's content type writes the general form: a code where the table has
the name, the texts in their order, the charset as a long integer and the type as a text.
The decoder makes the same content type of it, whatever follows.
-/

namespace TelephonySms.Mms

open OctetReader Reader ContentParam

/-! ## The table -/

theorem mmsContentNames_key :
    ∀ i, ∀ h : i < mmsContentNames.length, (mmsContentNames[i]).1 = UInt8.ofNat i := by
  decide

/-- The index of a name is its key. -/
theorem getContentTypeFromInt_index {str : Octets} {index : Nat}
    (h : getContentTypeFromString str = some index) :
    index < 85 ∧ getContentTypeFromInt (UInt8.ofNat index) = str := by
  rcases List.findIdx?_eq_some_iff_getElem.1 h with ⟨hlt, hname, -⟩
  have hlength : mmsContentNames.length = 85 := rfl
  have hfind : mmsContentNames.find? (fun entry => entry.1 == UInt8.ofNat index) =
      some mmsContentNames[index] := by
    rw [List.find?_eq_some_iff_getElem]
    refine ⟨by rw [mmsContentNames_key index hlt]; simp, index, hlt, rfl, ?_⟩
    intro j hj
    rw [mmsContentNames_key j (by omega)]
    have hne : UInt8.ofNat j ≠ UInt8.ofNat index := by
      intro heq
      have hnat := congrArg UInt8.toNat heq
      rw [UInt8.toNat_ofNat', UInt8.toNat_ofNat'] at hnat
      omega
    simpa using hne
  refine ⟨hlength ▸ hlt, ?_⟩
  rw [getContentTypeFromInt, hfind]
  exact eq_of_beq hname

/-! ## Texts that start a value -/

/-- A text that starts with a printable octet of ASCII. -/
structure IsPrintableText (text : Octets) : Prop where
  noNul : 0 ∉ text
  first : ∃ b ∈ text.head?, 0x20 ≤ b ∧ b ≤ 0x7e

theorem IsPrintableText.exists_cons {text : Octets} (h : IsPrintableText text) :
    ∃ b rest, text = b :: rest ∧ 0x20 ≤ b ∧ b ≤ 0x7e := by
  rcases h.first with ⟨b, hb, hrange⟩
  cases text with
  | nil => cases hb
  | cons c rest =>
      cases hb
      exact ⟨_, rest, rfl, hrange⟩

theorem IsPrintableText.isTextValue {text : Octets} (h : IsPrintableText text) : IsTextValue text := by
  rcases h.exists_cons with ⟨b, rest, rfl, -, hle⟩
  refine ⟨List.cons_ne_nil _ _, h.noNul, ?_⟩
  intro hquote
  cases hquote
  exact absurd hle (by decide)

theorem textString_first (platform : Platform) {text : Octets} (h : IsPrintableText text) :
    0x20 ≤ (textString platform text).first ∧ (textString platform text).first ≤ 0x7f := by
  rcases h.exists_cons with ⟨b, rest, rfl, hge, hle⟩
  have hlow : b ≤ 0x7f := UInt8.le_trans hle (by decide)
  have hfirst : (textString platform (b :: rest)).first = b := by
    have hnot : ¬ b > 0x7f := UInt8.not_lt.mpr hlow
    simp [TextString.first, TextString.wire, textString, hnot]
  rw [hfirst]
  exact ⟨hge, hlow⟩

/-! ## Parameters -/

namespace MmsContentParam

/-- Texts for some of the eight text parameters, a charset of 32 bits, and a type or none. -/
structure Encodable (param : MmsContentParam) : Prop where
  texts : ∀ field text, param.textMap field = some text → field ∈ textParams ∧ IsTextValue text
  charset : param.charset < 2 ^ 32
  type : param.type = [] ∨ IsPrintableText param.type

variable (platform : Platform) (param : MmsContentParam)

def textValue (field : UInt8) : Option ContentParameter :=
  (param.textMap field).map fun text => .text field (textString platform text)

def charsetValue : Option ContentParameter :=
  if param.charset = 0 then none else some (.charset (.long (longIntegerOctets param.charset)))

def typeValue : Option ContentParameter :=
  if param.type = [] then none
  else some (.type CT_P_TYPE_STRING (.text (textString platform param.type)))

/-- The parameters in the order in which they are encoded. -/
def values : List ContentParameter :=
  textParams.flatMap (fun field => (param.textValue platform field).toList) ++
    (param.charsetValue.toList ++ (param.typeValue platform).toList)

/-- The octets of a parameter that may be missing. -/
def optionWire (value : Option ContentParameter) : Octets :=
  value.toList.flatMap ContentParameter.wire

theorem optionWire_some (p : ContentParameter) : optionWire (some p) = p.wire := by
  simp [optionWire]

theorem values_wire :
    (param.values platform).flatMap ContentParameter.wire =
      textParams.flatMap (fun field => optionWire (param.textValue platform field)) ++
        (optionWire param.charsetValue ++ optionWire (param.typeValue platform)) := by
  rw [values, List.flatMap_append, List.flatMap_append, List.flatMap_assoc]
  rfl

variable {platform param}

theorem encodeTextField_produces (h : param.Encodable) :
    Produces MMS_PDU_MAX_SIZE (param.encodeTextField platform)
      (some (textParams.flatMap fun field => optionWire (param.textValue platform field))) := by
  apply Produces.forEach
  intro field _
  rw [textValue]
  cases htext : param.textMap field with
  | none => exact Produces.pure
  | some text =>
      rw [Option.map_some, optionWire_some]
      exact Produces.bind (writeByte_produces field)
        (encodeText_produces platform (h.texts field text htext).2.ne_nil)

theorem encodeCharsetField_produces :
    Produces MMS_PDU_MAX_SIZE param.encodeCharsetField (some (optionWire param.charsetValue)) := by
  unfold encodeCharsetField charsetValue
  split
  · exact Produces.pure
  · next hcharset =>
      have hlong : Produces MMS_PDU_MAX_SIZE (encodeLongInteger param.charset)
          (some (longIntegerWire param.charset)) :=
        ⟨encodeLongInteger_appends _, encodeLongInteger_emits _⟩
      rw [optionWire_some, ContentParameter.wire, ← longIntegerWire_of_ne_zero hcharset]
      exact Produces.bind (writeByte_produces CT_P_CHARSET) hlong

theorem encodeTypeField_produces :
    Produces MMS_PDU_MAX_SIZE (param.encodeTypeField platform)
      (some (optionWire (param.typeValue platform))) := by
  unfold encodeTypeField typeValue
  split
  · exact Produces.pure
  · next htype =>
      rw [optionWire_some]
      exact Produces.bind (writeByte_produces CT_P_TYPE_STRING) (encodeText_produces platform htype)

theorem values_valid (h : param.Encodable) : ∀ p ∈ param.values platform, p.Valid ∧ p.IsRead := by
  intro p hp
  rw [values, List.mem_append, List.mem_append, List.mem_flatMap] at hp
  rcases hp with ⟨field, -, htext⟩ | hcharset | htype
  · rw [Option.mem_toList, textValue, Option.map_eq_some_iff] at htext
    rcases htext with ⟨text, hfield, rfl⟩
    have hmem := h.texts field text hfield
    exact ⟨⟨hmem.1, textString_valid platform hmem.2⟩, trivial⟩
  · rw [Option.mem_toList, charsetValue] at hcharset
    split at hcharset
    · cases hcharset
    · next hne =>
        cases hcharset
        have hle := longIntegerOctets_length_le param.charset
        exact ⟨⟨longIntegerOctets_ne_nil hne, by omega⟩, hle⟩
  · rw [Option.mem_toList, typeValue] at htype
    split at htype
    · cases htype
    · next hne =>
        cases htype
        have hprintable := h.type.resolve_left hne
        exact ⟨⟨Or.inr rfl, textString_valid platform hprintable.isTextValue,
          (textString_first platform hprintable).2⟩, trivial⟩

/-- A map without these fields takes them over one after the other. -/
theorem foldl_textValue (fields : List UInt8) (hnodup : fields.Nodup) (start : MmsContentParam)
    (hstart : ∀ field ∈ fields, start.textMap field = none) :
    (fields.flatMap fun field => (param.textValue platform field).toList).foldl
        ContentParameter.apply start =
      { start with textMap := fun field =>
          if field ∈ fields then param.textMap field else start.textMap field } := by
  induction fields generalizing start with
  | nil => simp
  | cons first fields ih =>
      rcases List.nodup_cons.1 hnodup with ⟨hnot, hrest⟩
      have hempty := hstart first List.mem_cons_self
      rw [List.flatMap_cons, List.foldl_append, textValue]
      cases htext : param.textMap first with
      | none =>
          rw [Option.map_none, Option.toList_none, List.foldl_nil,
            ih hrest start fun field hfield => hstart field (List.mem_cons_of_mem _ hfield)]
          congr 1
          funext field
          by_cases heq : field = first
          · rw [heq, if_neg hnot, if_pos List.mem_cons_self, hempty, htext]
          · simp [heq]
      | some text =>
          have hinsert : start.insert first text =
              { start with textMap := Function.update start.textMap first (some text) } := by
            rw [insert, hempty]
          rw [Option.map_some, Option.toList_some, List.foldl_cons, List.foldl_nil]
          simp only [ContentParameter.apply, textString]
          rw [hinsert, ih hrest]
          · congr 1
            funext field
            by_cases heq : field = first
            · rw [heq, if_neg hnot, if_pos List.mem_cons_self, htext]
              simp
            · simp [heq]
          · intro field hfield
            have hne : field ≠ first := fun heq => hnot (heq ▸ hfield)
            simpa [hne] using hstart field (List.mem_cons_of_mem _ hfield)

/-- The decoder starts with no parameters. -/
theorem values_apply (h : param.Encodable) :
    (param.values platform).foldl ContentParameter.apply {} = param := by
  have hnodup : textParams.Nodup := by decide
  rw [values, List.foldl_append, List.foldl_append,
    foldl_textValue textParams hnodup {} fun _ _ => rfl]
  have htexts : (fun field => if field ∈ textParams then param.textMap field else none) =
      param.textMap := by
    funext field
    split
    · rfl
    · next hnot =>
        cases htext : param.textMap field with
        | none => rfl
        | some text => exact absurd (h.texts field text htext).1 hnot
  have hcharset : param.charset = u32 (octetsFrom 0 (longIntegerOctets param.charset)) := by
    have hlt := h.charset
    rw [octetsFrom_longIntegerOctets (by omega), u32_of_lt hlt]
  cases param with
  | mk charset type textMap =>
      simp only at htexts hcharset
      simp only [htexts, charsetValue, typeValue]
      by_cases hzero : charset = 0 <;> by_cases hnil : type = [] <;>
        simp [hzero, hnil, ContentParameter.apply, IntegerValue.value, ← hcharset,
          MediaType.name, textString]

end MmsContentParam

/-! ## Content types -/

namespace MmsContentType

/-- A name of the table or a printable text, with parameters that can be encoded. -/
structure Encodable (c : MmsContentType) : Prop where
  contentType : (∃ entry ∈ mmsContentNames, ascii entry.2 = c.contentType) ∨
    IsPrintableText c.contentType
  param : c.msgContentParm.Encodable

variable (platform : Platform) (c : MmsContentType)

def media : MediaType :=
  match getContentTypeFromString c.contentType with
  | some index => .code (UInt8.ofNat index)
  | none => .text (textString platform c.contentType)

/-- What the encoder writes. -/
def value : ContentTypeValue :=
  let body := ContentTypeValue.body (c.media platform) (c.msgContentParm.values platform) []
  .general (valueLengthWire body.length) (c.media platform) (c.msgContentParm.values platform) []

theorem value_wire :
    (c.value platform).wire =
      lengthWire (ContentTypeValue.body (c.media platform) (c.msgContentParm.values platform) []) :=
  rfl

def encodeMedia : Write Unit :=
  match getContentTypeFromString c.contentType with
  | none => encodeText platform c.contentType
  | some index => writeByte (UInt8.ofNat index ||| 0x80)

def encodeBody : Write Unit := do
  c.encodeMedia platform
  c.msgContentParm.encodeTextField platform
  c.msgContentParm.encodeCharsetField
  c.msgContentParm.encodeTypeField platform

theorem encodeMmsBodyPartContentType_eq :
    encodeMmsBodyPartContentType platform c = (do
      let temp ← inTempBuffer (c.encodeBody platform)
      encodeValueLength temp.length
      writeBuffer temp) := by
  unfold encodeMmsBodyPartContentType encodeBody encodeMedia
  cases getContentTypeFromString c.contentType <;> rfl

variable {platform c}

/-- A name that the table does not have is a text. -/
theorem Encodable.isPrintableText (h : c.Encodable)
    (hnone : getContentTypeFromString c.contentType = none) : IsPrintableText c.contentType := by
  rcases h.contentType with ⟨entry, hentry, hname⟩ | htext
  · have hmiss := List.findIdx?_eq_none_iff.1 hnone entry hentry
    simp [hname] at hmiss
  · exact htext

theorem media_valid (platform : Platform) (h : c.Encodable) :
    (c.media platform).Valid ∧ ContentTypeValue.IsMedia (c.media platform) ∧
      (c.media platform).IsRead ∧ (c.media platform).name = c.contentType := by
  unfold media
  cases hindex : getContentTypeFromString c.contentType with
  | some index =>
      rcases getContentTypeFromInt_index hindex with ⟨hlt, hname⟩
      have hsize : index < UInt8.size := Nat.lt_trans hlt (by decide)
      have hcode : UInt8.ofNat index < 0x80 :=
        (UInt8.ofNat_lt_iff_lt hsize (by decide)).2 (Nat.lt_trans hlt (by decide))
      exact ⟨hcode, trivial, trivial, hname⟩
  | none =>
      have hprintable := h.isPrintableText hindex
      have hfirst := textString_first platform hprintable
      exact ⟨⟨textString_valid platform hprintable.isTextValue, hfirst.2⟩, hfirst.1, trivial, rfl⟩

theorem encodeMedia_produces (h : c.Encodable) :
    Produces MMS_PDU_MAX_SIZE (c.encodeMedia platform) (some (c.media platform).wire) := by
  unfold encodeMedia media
  cases hindex : getContentTypeFromString c.contentType with
  | some index => exact writeByte_produces _
  | none => exact encodeText_produces platform (h.isPrintableText hindex).isTextValue.ne_nil

theorem encodeBody_produces (platform : Platform) (h : c.Encodable) :
    Produces MMS_PDU_MAX_SIZE (c.encodeBody platform)
      (some (ContentTypeValue.body (c.media platform) (c.msgContentParm.values platform) [])) := by
  rw [ContentTypeValue.body, List.append_nil, MmsContentParam.values_wire]
  exact Produces.bind (encodeMedia_produces h)
    (Produces.bind (MmsContentParam.encodeTextField_produces h.param)
      (Produces.bind MmsContentParam.encodeCharsetField_produces
        MmsContentParam.encodeTypeField_produces))

theorem encodeMmsBodyPartContentType_produces (h : c.Encodable) :
    Produces MMS_PDU_MAX_SIZE (encodeMmsBodyPartContentType platform c)
      (some (c.value platform).wire) := by
  have hbody := encodeBody_produces platform h
  have hne : ContentTypeValue.body (c.media platform) (c.msgContentParm.values platform) [] ≠ [] :=
    List.append_ne_nil_of_left_ne_nil (c.media platform).wire_ne_nil _
  rw [encodeMmsBodyPartContentType_eq, value_wire]
  constructor
  · exact lengthWire_appends hbody.1 hne
  · apply lengthWire_emits
    intro temp htemp
    simpa using hbody.2 [] temp htemp

theorem value_valid (h : c.Encodable) (hlt : (c.value platform).wire.length < 2 ^ 31) :
    (c.value platform).Valid := by
  rcases media_valid platform h with ⟨hvalid, hmedia, -, -⟩
  refine ⟨hvalid, hmedia, fun p hp => (MmsContentParam.values_valid h.param p hp).1, ?_, ?_⟩
  · intro b hb
    cases hb
  · apply valueLengthWire_isValueLength
    rw [value_wire, lengthWire, List.length_append] at hlt
    omega

theorem decodeMmsContentType_value_reads (h : c.Encodable) :
    Reads (decodeMmsContentType {}) (c.value platform).wire
      (c, (c.value platform).wire.length) := by
  rcases media_valid platform h with ⟨-, -, hread, hname⟩
  have happly : (c.value platform).apply {} = c := by
    rw [value, ContentTypeValue.apply, hname, MmsContentParam.values_apply h.param]
  intro rest front trace hshort
  have hlt : (c.value platform).wire.length < 2 ^ 31 := by
    simp only [List.length_append] at hshort
    omega
  have hreads := decodeMmsContentType_reads {} (value_valid h hlt)
    ⟨hread, fun p hp => (MmsContentParam.values_valid h.param p hp).2⟩
  rw [happly] at hreads
  exact hreads rest front trace hshort

/-- Below the size of a PDU the encoder succeeds, and where it succeeds it has written a
content type that the decoder makes equal to the first and takes exactly. -/
theorem encodeMmsBodyPartContentType_decodes (platform : Platform) (c : MmsContentType)
    (h : c.Encodable) : ∃ wire,
      Appends MMS_PDU_MAX_SIZE (encodeMmsBodyPartContentType platform c) wire ∧
      Emits (encodeMmsBodyPartContentType platform c) wire ∧
      Reads (decodeMmsContentType {}) wire (c, wire.length) :=
  ⟨(c.value platform).wire, (encodeMmsBodyPartContentType_produces h).1,
    (encodeMmsBodyPartContentType_produces h).2, decodeMmsContentType_value_reads h⟩

/-- The type of a caption, with a name, a charset and a type behind it. -/
def captionType : MmsContentType where
  contentType := ascii "text/plain"
  msgContentParm :=
    { charset := 0x6a
      type := ascii "text/html"
      textMap := fun field => if field = CT_P_NAME then some (ascii "caption.txt") else none }

theorem captionType_encodable : captionType.Encodable where
  contentType := Or.inl ⟨(0x03, "text/plain"), by simp [mmsContentNames], rfl⟩
  param := by
    refine ⟨?_, by decide, Or.inr ⟨by decide, 0x74, rfl, by decide⟩⟩
    intro field text htext
    simp only [captionType] at htext
    split at htext
    · next hfield =>
        cases htext
        rw [hfield]
        exact ⟨by decide, by decide, by decide, by decide⟩
    · cases htext

theorem captionType_decodes : captionType.Encodable ∧ ∃ wire,
    Appends MMS_PDU_MAX_SIZE (encodeMmsBodyPartContentType plainPlatform captionType) wire ∧
    Emits (encodeMmsBodyPartContentType plainPlatform captionType) wire ∧
    Reads (decodeMmsContentType {}) wire (captionType, wire.length) :=
  ⟨captionType_encodable,
    encodeMmsBodyPartContentType_decodes plainPlatform captionType captionType_encodable⟩

end MmsContentType

end TelephonySms.Mms
