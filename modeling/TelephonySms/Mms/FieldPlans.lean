import TelephonySms.Script
import TelephonySms.Mms.Frame

/-! # The plans of fields and parts

Every encoder of a value, of a field and of a part runs a plan on the encode buffer, whose
limit is `MMS_PDU_MAX_SIZE`. The temporary buffers have the same limit.
-/

namespace TelephonySms.Mms

open Action MmsFieldCode ContentParam MmsHeaderParam

/-- Run on the encode buffer. -/
def encodePlan (p : Plan) : Write Unit := p.run (some MMS_PDU_MAX_SIZE)

/-! ## Octets and values -/

theorem writeByte_eq_put (value : UInt8) :
    writeByte value = put (some MMS_PDU_MAX_SIZE) value := by
  funext buffer
  rw [writeByte, put, get_bind, get_bind]
  by_cases hroom : buffer.length < MMS_PDU_MAX_SIZE
  · rw [guard_of hroom, guard_of (within_some.2 hroom)]
  · rw [guard_of_not hroom, guard_of_not fun hw => hroom (within_some.1 hw)]

theorem writeBytes_eq (w : Octets) : writeBytes w = encodePlan (.octets w) := by
  have hput : writeByte = put (some MMS_PDU_MAX_SIZE) := funext writeByte_eq_put
  rw [writeBytes, hput]
  rfl

theorem writeBuffer_eq (w : Octets) : writeBuffer w = putBlock (some MMS_PDU_MAX_SIZE) w := by
  funext buffer
  rw [writeBuffer, putBlock, get_bind, get_bind]
  by_cases hroom : buffer.length + w.length < MMS_PDU_MAX_SIZE
  · rw [guard_of hroom, guard_of (within_some.2 hroom)]
  · rw [guard_of_not hroom, guard_of_not fun hw => hroom (within_some.1 hw)]

theorem writeBytes_append (u v : Octets) :
    writeBytes (u ++ v) = (writeBytes u >>= fun _ => writeBytes v) := by
  rw [writeBytes_eq, writeBytes_eq, writeBytes_eq]
  exact putAll_append _ u v

theorem writeByte_eq (value : UInt8) : writeByte value = writeBytes [value] :=
  (bind_pure_unit (writeByte value)).symm

theorem writeBytes_cons (value : UInt8) (w : Octets) :
    writeBytes (value :: w) = (writeByte value >>= fun _ => writeBytes w) := rfl

theorem encodeValueLength_eq (value : Nat) :
    encodeValueLength value = writeBytes (valueLengthWire value) := by
  unfold encodeValueLength valueLengthWire
  split
  · rename_i h
    have hsize : value < UInt8.size := Nat.lt_of_le_of_lt h (by decide)
    have hshort : UInt8.ofNat value ≤ 30 := (UInt8.ofNat_le_iff_le hsize (by decide)).2 h
    rw [encodeShortLength, guard_of hshort, writeByte_eq]
    rfl
  · rfl

theorem encodeText_eq (platform : Platform) (value : Octets) :
    encodeText platform value = writeBytes (textWire platform value) := by
  cases value with
  | nil => rfl
  | cons first rest =>
      simp only [encodeText, textWire]
      split
      · rw [writeBytes_append, writeBytes_append, Action.bind_assoc, ← writeByte_eq,
          ← writeByte_eq]
      · rw [List.nil_append, writeBytes_append, ← writeByte_eq]

theorem encodeQuotedText_eq (value : Octets) :
    encodeQuotedText value = writeBytes (quotedTextWire value) := by
  unfold encodeQuotedText quotedTextWire
  split
  · rfl
  · rw [List.cons_append, writeBytes_cons, writeBytes_append, ← writeByte_eq]

/-! ## Temporary buffers -/

/-- The head of a value that goes behind its length. -/
def valueLengthHead (temp : Octets) : Octets := valueLengthWire temp.length

/-- Where a plan leaves the same octets in a temporary buffer, the value behind its head is a
plan. -/
theorem inTempBuffer_eq {m : Write Unit} {p : Plan} {f : Octets → Write Unit}
    {head : Octets → Octets}
    (hm : ∀ temp, m [] = (some (), temp) ↔ encodePlan p [] = (some (), temp))
    (hf : ∀ temp, f temp = (writeBytes (head temp) >>= fun _ => writeBuffer temp)) :
    (inTempBuffer m >>= f) = encodePlan (.behind head p) := by
  funext buffer
  rw [encodePlan, Plan.run, bind_run, inTempBuffer]
  cases hrun : m [] with
  | mk r temp =>
      cases r with
      | some _ =>
          have hplan := (hm temp).1 hrun
          rw [encodePlan] at hplan
          rw [hplan]
          dsimp only
          rw [hf, writeBytes_eq, writeBuffer_eq]
          rfl
      | none =>
          cases hplan : p.run (some MMS_PDU_MAX_SIZE) [] with
          | mk r' temp' =>
              cases r' with
              | none => rfl
              | some _ =>
                  have hsame := (hm temp').2 hplan
                  rw [hrun] at hsame
                  cases hsame

theorem lengthField_eq {m : Write Unit} {p : Plan}
    (hm : ∀ temp, m [] = (some (), temp) ↔ encodePlan p [] = (some (), temp)) :
    (do
      let temp ← inTempBuffer m
      encodeValueLength temp.length
      writeBuffer temp) = encodePlan (.behind valueLengthHead p) := by
  apply inTempBuffer_eq hm
  intro temp
  rw [encodeValueLength_eq]
  rfl

theorem seq_encode (p q : Plan) :
    encodePlan (.seq p q) = (encodePlan p >>= fun _ => encodePlan q) := rfl

theorem encodes_iff_of_eq {m : Write Unit} {p : Plan} (h : m = encodePlan p)
    (temp : Octets) : m [] = (some (), temp) ↔ encodePlan p [] = (some (), temp) := by
  rw [h]

/-- Octets that are there, or a refusal. -/
def ofWire : Option Octets → Plan
  | some w => .octets w
  | none => .refuse

@[simp] theorem ofWire_wire (o : Option Octets) : (ofWire o).wire = o := by
  cases o <;> rfl

/-- A plan that refuses at once unless it can write its octets. -/
def TidyPlan (p : Plan) : Prop := p.wire = none → p = .refuse

theorem ofWire_tidy (o : Option Octets) : TidyPlan (ofWire o) := by
  cases o with
  | none => exact fun _ => rfl
  | some w => exact fun h => nomatch h

theorem tidy_of_wire {p : Plan} {w : Octets} (h : p.wire = some w) : TidyPlan p := by
  intro hnone
  rw [h] at hnone
  cases hnone

/-! ## Strings and addresses -/

def encodeStringPlan (platform : Platform) (value : MmsEncodeString) : Plan :=
  if value.charset ≠ 0 then
    .behind valueLengthHead
      (.octets (charsetWire value.charset ++ textWire platform value.strEncodeString))
  else
    .octets (textWire platform value.strEncodeString)

theorem encodeStringPlan_wire (platform : Platform) (value : MmsEncodeString) :
    (encodeStringPlan platform value).wire = some (encodeStringWire platform value) := by
  unfold encodeStringPlan encodeStringWire
  split
  · exact if_neg (encodeStringBody_ne_nil platform value)
  · rfl

theorem charset_encode (charset : Nat) :
    (if charset &&& 0xff00 = 0 then attempt (encodeShortInteger (UInt8.ofNat charset))
      else attempt (encodeInteger charset)) = attempt (writeBytes (charsetWire charset)) := by
  unfold charsetWire encodeInteger integerWire
  split
  · rw [encodeShortInteger, writeByte_eq]
    rfl
  · split
    · rw [encodeShortInteger, writeByte_eq]
      rfl
    · rfl

/-- In a fresh buffer the charset fits. -/
theorem encodeStringBody_nil (platform : Platform) (value : MmsEncodeString) :
    encodeStringBody platform value [] =
      writeBytes (charsetWire value.charset ++ textWire platform value.strEncodeString) [] := by
  have hlength := (charsetWire_length value.charset).2
  have hfits : ([] : Octets).length + (charsetWire value.charset).length < MMS_PDU_MAX_SIZE := by
    rw [List.length_nil, MMS_PDU_MAX_SIZE]
    omega
  have hbody : encodeStringBody platform value =
      (attempt (writeBytes (charsetWire value.charset)) >>= fun _ =>
        encodeText platform value.strEncodeString) := by
    rw [← charset_encode]
    unfold encodeStringBody
    split <;> rfl
  rw [hbody, writeBytes_append,
    bind_of_some (Appends.attempt (writeBytes_appends _) [] hfits),
    bind_of_some (writeBytes_appends _ [] hfits), encodeText_eq]

theorem encodeEncodeString_eq (platform : Platform) (value : MmsEncodeString) :
    encodeEncodeString platform value = encodePlan (encodeStringPlan platform value) := by
  unfold encodeEncodeString encodeStringPlan
  split
  · apply lengthField_eq
    intro temp
    have hbody := encodeStringBody_nil platform value
    rw [encodeStringBody] at hbody
    rw [hbody, writeBytes_eq]
  · rw [encodeText_eq, writeBytes_eq]

/-- A plan for every element of a list. -/
def planAll (plans : List Plan) : Plan := plans.foldr .seq (.octets [])

theorem forEach_eq {β : Type} {f : β → Write Unit} {plan : β → Plan}
    (h : ∀ b, f b = encodePlan (plan b)) (bs : List β) :
    forEach f bs = encodePlan (planAll (bs.map plan)) := by
  induction bs with
  | nil => rfl
  | cons b bs ih =>
      rw [forEach, h, ih]
      rfl

def addressPlan (platform : Platform) (fieldId : UInt8) (addr : MmsAddress) : Plan :=
  .seq (.octets [fieldId]) (encodeStringPlan platform (setAddressString addr))

def addressListPlan (platform : Platform) (fieldId : UInt8) (addrs : List MmsAddress) : Plan :=
  if addrs = [] then .refuse else planAll (addrs.map (addressPlan platform fieldId))

theorem planAll_wire {β : Type} {plan : β → Plan} {wire : β → Octets}
    (h : ∀ b, (plan b).wire = some (wire b)) (bs : List β) :
    (planAll (bs.map plan)).wire = some (bs.flatMap wire) := by
  induction bs with
  | nil => rfl
  | cons b bs ih =>
      have hcons : planAll ((b :: bs).map plan) = .seq (plan b) (planAll (bs.map plan)) := rfl
      rw [hcons, Plan.wire, h, ih, List.flatMap_cons]
      rfl

theorem addressListPlan_wire (platform : Platform) (fieldId : UInt8) (addrs : List MmsAddress) :
    (addressListPlan platform fieldId addrs).wire =
      MmsHeader.addressListWire platform fieldId addrs := by
  unfold addressListPlan MmsHeader.addressListWire
  split
  · rfl
  · apply planAll_wire
    intro addr
    rw [addressPlan, Plan.wire, encodeStringPlan_wire]
    rfl

theorem encodeMultipleAddressValue_eq (platform : Platform) (fieldId : UInt8)
    (addrs : List MmsAddress) : MmsHeader.encodeMultipleAddressValue platform fieldId addrs =
      encodePlan (addressListPlan platform fieldId addrs) := by
  unfold MmsHeader.encodeMultipleAddressValue addressListPlan
  split
  · rename_i h
    rw [guard_of_not (not_not_intro h)]
    rfl
  · rename_i h
    rw [guard_of h]
    apply forEach_eq
    intro addr
    rw [writeByte_eq, writeBytes_eq, encodeEncodeString_eq]
    rfl

/-! ## The sender -/

def senderAddressPlan (platform : Platform) : List MmsAddress → Plan
  | [] => .octets [129]
  | address :: _ =>
      if address.addressString = [] then
        .octets [129]
      else
        .seq (.octets [128]) (encodeStringPlan platform (setAddressString address))

def senderPlan (platform : Platform) (addr : List MmsAddress) : Plan :=
  .seq (.octets [MMS_FROM]) (.behind valueLengthHead (senderAddressPlan platform addr))

theorem senderAddressPlan_wire (platform : Platform) (addr : List MmsAddress) :
    (senderAddressPlan platform addr).wire = some (senderAddressWire platform addr) := by
  cases addr with
  | nil => rfl
  | cons address rest =>
      rw [senderAddressPlan, senderAddressWire]
      split
      · rfl
      · rw [Plan.wire, encodeStringPlan_wire]
        rfl

theorem senderPlan_wire (platform : Platform) (addr : List MmsAddress) :
    (senderPlan platform addr).wire = some (senderWire platform addr) := by
  rw [senderPlan, Plan.wire, Plan.wire, Plan.wire, senderAddressPlan_wire, Option.bind_some,
    if_neg (MmsHeader.senderAddressWire_ne_nil platform addr)]
  rfl

theorem encodeFromAddress_eq (platform : Platform) (addr : List MmsAddress) :
    MmsHeader.encodeFromAddress platform addr = encodePlan (senderAddressPlan platform addr) := by
  cases addr with
  | nil => rw [MmsHeader.encodeFromAddress, writeByte_eq, writeBytes_eq]; rfl
  | cons address rest =>
      rw [MmsHeader.encodeFromAddress, senderAddressPlan]
      split
      · rw [writeByte_eq, writeBytes_eq]
      · rw [writeByte_eq, writeBytes_eq, encodeEncodeString_eq]
        rfl

theorem senderField_eq (platform : Platform) (addr : List MmsAddress) :
    HeaderWrite.senderField platform addr = encodePlan (senderPlan platform addr) := by
  have hvalue := lengthField_eq (encodes_iff_of_eq (encodeFromAddress_eq platform addr))
  rw [HeaderWrite.senderField, hvalue, writeByte_eq, writeBytes_eq]
  rfl

/-! ## Header fields -/

namespace MmsHeader

variable (platform : Platform) (h : MmsHeader) (fieldId : UInt8)

theorem encodeOctetValue_eq (value : UInt8) :
    encodeOctetValue fieldId value = encodePlan (.octets [fieldId, value]) := by
  rw [encodeOctetValue, ← writeBytes_eq, writeBytes_cons, ← writeByte_eq]

theorem encodeOctetValueFromMap_eq :
    h.encodeOctetValueFromMap fieldId = encodePlan (ofWire (h.octetFieldWire fieldId)) := by
  unfold encodeOctetValueFromMap octetFieldWire
  cases h.octetValueMap fieldId with
  | none => rfl
  | some value => exact encodeOctetValue_eq fieldId value

theorem encodeTextStringValue_eq (value : Octets) :
    encodeTextStringValue platform fieldId value =
      encodePlan (ofWire (textWireOf platform fieldId value)) := by
  unfold encodeTextStringValue textWireOf
  split
  · rename_i hempty
    rw [guard_of_not (not_not_intro hempty)]
    rfl
  · rename_i hvalue
    rw [guard_of hvalue, encodeText_eq, ofWire, ← writeBytes_eq]
    rfl

theorem encodeTextStringValueFromMap_eq :
    h.encodeTextStringValueFromMap platform fieldId =
      encodePlan (ofWire (h.textFieldWire platform fieldId)) := by
  unfold encodeTextStringValueFromMap textFieldWire
  cases h.textValueMap fieldId with
  | none => rfl
  | some value => exact encodeTextStringValue_eq platform fieldId value

theorem encodeLongIntergerValueFromMap_eq :
    h.encodeLongIntergerValueFromMap fieldId = encodePlan (ofWire (h.longFieldWire fieldId)) := by
  unfold encodeLongIntergerValueFromMap longFieldWire
  cases h.longValueMap fieldId with
  | none => rfl
  | some value =>
      rw [Option.map_some, ofWire, ← writeBytes_eq]
      rfl

def encodeStringValuePlan (value : MmsEncodeString) : Plan :=
  if (value.getEncodeString platform).1 = true ∧ (value.getEncodeString platform).2 ≠ [] then
    .seq (.octets [fieldId]) (encodeStringPlan platform value)
  else
    .refuse

def encodeStringFieldPlan : Plan :=
  match h.encodeStringsMap fieldId with
  | none => .refuse
  | some value => encodeStringValuePlan platform fieldId value

theorem encodeStringFieldPlan_wire :
    (h.encodeStringFieldPlan platform fieldId).wire = h.encodeStringFieldWire platform fieldId := by
  unfold encodeStringFieldPlan encodeStringFieldWire
  cases h.encodeStringsMap fieldId with
  | none => rfl
  | some value =>
      rw [Option.bind_some, encodeStringWireOf]
      dsimp only
      rw [encodeStringValuePlan]
      split
      · rw [Plan.wire, encodeStringPlan_wire]
        rfl
      · rfl

theorem encodeStringFieldPlan_tidy : TidyPlan (h.encodeStringFieldPlan platform fieldId) := by
  unfold encodeStringFieldPlan
  cases h.encodeStringsMap fieldId with
  | none => exact fun _ => rfl
  | some value =>
      dsimp only
      rw [encodeStringValuePlan]
      split
      · apply tidy_of_wire
        rw [Plan.wire, encodeStringPlan_wire]
        rfl
      · exact fun _ => rfl

theorem encodeEncodeStringValue_eq (value : MmsEncodeString) :
    encodeEncodeStringValue platform fieldId value =
      encodePlan (encodeStringValuePlan platform fieldId value) := by
  unfold encodeEncodeStringValue encodeStringValuePlan
  rcases value.getEncodeString platform with ⟨ok, valueUtf8⟩
  dsimp only
  split
  · rename_i hgood
    rw [guard_of hgood.1, guard_of hgood.2, writeByte_eq, writeBytes_eq, encodeEncodeString_eq]
    rfl
  · rename_i hbad
    by_cases hok : ok = true
    · rw [guard_of hok, guard_of_not fun hne => hbad ⟨hok, hne⟩]
      rfl
    · rw [guard_of_not hok]
      rfl

theorem enocdeEncodeStringValueFromMap_eq :
    h.enocdeEncodeStringValueFromMap platform fieldId =
      encodePlan (h.encodeStringFieldPlan platform fieldId) := by
  unfold enocdeEncodeStringValueFromMap encodeStringFieldPlan
  cases h.encodeStringsMap fieldId with
  | none => rfl
  | some value => exact encodeEncodeStringValue_eq platform fieldId value

def expiryPlan (value : Int64) : Plan :=
  .seq (.octets [MMS_EXPIRY])
    (.behind valueLengthHead (.octets (129 :: longIntegerWire (toUInt64 value))))

theorem expiryPlan_wire (value : Int64) : (expiryPlan value).wire = some (expiryWire value) := rfl

theorem encodeFieldExpriyValue_eq (value : Int64) :
    encodeFieldExpriyValue value = encodePlan (expiryPlan value) := by
  have htoken : (do
      encodeOctet 129
      encodeLongInteger (toUInt64 value)) =
        encodePlan (.octets (129 :: longIntegerWire (toUInt64 value))) := by
    rw [← writeBytes_eq]
    rfl
  rw [encodeFieldExpriyValue, lengthField_eq (encodes_iff_of_eq htoken), writeByte_eq,
    writeBytes_eq]
  rfl

theorem econdeFieldMessageClassValue_eq :
    h.econdeFieldMessageClassValue platform =
      encodePlan (ofWire (h.messageClassWire platform)) := by
  unfold econdeFieldMessageClassValue messageClassWire
  cases h.octetValueMap MMS_MESSAGE_CLASS with
  | some valueOctet => exact encodeOctetValue_eq _ _
  | none =>
      cases h.textValueMap MMS_MESSAGE_CLASS with
      | none => rfl
      | some strValue =>
          simp only [Option.bind_some, messageClassOf]
          split_ifs
          · exact encodeOctetValue_eq _ _
          · exact encodeOctetValue_eq _ _
          · exact encodeOctetValue_eq _ _
          · exact encodeOctetValue_eq _ _
          · exact encodeTextStringValue_eq platform _ _

end MmsHeader

/-! ## Content types -/

namespace MmsContentParam

variable (platform : Platform) (param : MmsContentParam)

def textFieldWire (field : UInt8) : Octets :=
  match param.textMap field with
  | none => []
  | some value => field :: textWire platform value

def charsetFieldWire : Octets :=
  if param.charset = 0 then [] else CT_P_CHARSET :: longIntegerWire param.charset

def typeFieldWire : Octets :=
  if param.type = [] then [] else CT_P_TYPE_STRING :: textWire platform param.type

theorem encodeTextField_eq :
    param.encodeTextField platform =
      writeBytes (textParams.flatMap (param.textFieldWire platform)) := by
  unfold encodeTextField
  induction textParams with
  | nil => rfl
  | cons field fields ih =>
      rw [forEach, ih, List.flatMap_cons, writeBytes_append]
      congr 1
      unfold textFieldWire
      cases param.textMap field with
      | none => rfl
      | some value =>
          dsimp only
          rw [encodeText_eq]
          rfl

theorem encodeCharsetField_eq : param.encodeCharsetField = writeBytes param.charsetFieldWire := by
  unfold encodeCharsetField charsetFieldWire
  split <;> rfl

theorem encodeTypeField_eq :
    param.encodeTypeField platform = writeBytes (param.typeFieldWire platform) := by
  unfold encodeTypeField typeFieldWire
  split
  · rfl
  · rw [encodeText_eq]
    rfl

end MmsContentParam

/-! ## Parts -/

/-- The media type of a part, its code in the table where it has one. -/
def mediaWire (platform : Platform) (contentType : Octets) : Octets :=
  match getContentTypeFromString contentType with
  | none => textWire platform contentType
  | some index => [UInt8.ofNat index ||| 0x80]

def partContentTypeWire (platform : Platform) (contentType : MmsContentType) : Octets :=
  mediaWire platform contentType.contentType ++
    (textParams.flatMap (contentType.msgContentParm.textFieldWire platform) ++
      (contentType.msgContentParm.charsetFieldWire ++
        contentType.msgContentParm.typeFieldWire platform))

def partContentTypePlan (platform : Platform) (contentType : MmsContentType) : Plan :=
  .behind valueLengthHead (.octets (partContentTypeWire platform contentType))

theorem encodeMmsBodyPartContentType_eq (platform : Platform) (contentType : MmsContentType) :
    encodeMmsBodyPartContentType platform contentType =
      encodePlan (partContentTypePlan platform contentType) := by
  apply lengthField_eq
  intro temp
  rw [← writeBytes_eq, partContentTypeWire, mediaWire]
  cases getContentTypeFromString contentType.contentType with
  | none =>
      dsimp only
      rw [encodeText_eq, MmsContentParam.encodeTextField_eq,
        MmsContentParam.encodeCharsetField_eq, MmsContentParam.encodeTypeField_eq,
        writeBytes_append, writeBytes_append, writeBytes_append]
  | some index =>
      dsimp only
      rw [writeByte_eq, MmsContentParam.encodeTextField_eq,
        MmsContentParam.encodeCharsetField_eq, MmsContentParam.encodeTypeField_eq,
        writeBytes_append, writeBytes_append, writeBytes_append]

namespace MmsBodyPartHeader

variable (platform : Platform) (ph : MmsBodyPartHeader)

def contentIdWire : Octets :=
  if ph.strContentID = [] then [] else (P_CONTENT_ID ||| 0x80) :: quotedTextWire ph.strContentID

def contentLocationWire : Octets :=
  if ph.strContentLocation = [] then
    []
  else
    (P_CONTENT_LOCATION_V2 ||| 0x80) :: textWire platform ph.strContentLocation

def contentDispositionWire : Octets :=
  match dispositionCode ph.strDisposition with
  | none => []
  | some code => (P_CONTENT_DISPOSITION_V1 ||| 0x80) :: (uintvarOctets 1 ++ [code])

def contentTransferEncodingWire : Octets :=
  if ph.strContentTransferEncoding = [] then
    []
  else
    textWire platform (ascii "Content-Transfer-Encoding") ++
      textWire platform ph.strContentTransferEncoding

def wire : Octets :=
  ph.contentIdWire ++ (ph.contentLocationWire platform ++
    (ph.contentDispositionWire ++ ph.contentTransferEncodingWire platform))

theorem encodeContentId_eq : ph.encodeContentId = writeBytes ph.contentIdWire := by
  unfold encodeContentId contentIdWire
  split
  · rfl
  · rw [encodeQuotedText_eq]
    rfl

theorem encodeContentLocation_eq :
    ph.encodeContentLocation platform = writeBytes (ph.contentLocationWire platform) := by
  unfold encodeContentLocation contentLocationWire
  split
  · rfl
  · rw [encodeText_eq]
    rfl

theorem encodeContentDisposition_eq :
    ph.encodeContentDisposition = writeBytes ph.contentDispositionWire := by
  unfold encodeContentDisposition contentDispositionWire
  cases dispositionCode ph.strDisposition with
  | none => rfl
  | some code =>
      dsimp only
      rw [writeBytes_cons, writeBytes_append, ← writeByte_eq]
      rfl

theorem encodeContentTransferEncoding_eq :
    ph.encodeContentTransferEncoding platform =
      writeBytes (ph.contentTransferEncodingWire platform) := by
  unfold encodeContentTransferEncoding contentTransferEncodingWire
  split
  · rfl
  · rw [encodeText_eq, encodeText_eq, writeBytes_append]

theorem encodeMmsBodyPartHeader_eq :
    ph.encodeMmsBodyPartHeader platform = writeBytes (ph.wire platform) := by
  rw [encodeMmsBodyPartHeader, wire, writeBytes_append, writeBytes_append, writeBytes_append,
    encodeContentId_eq, encodeContentLocation_eq, encodeContentDisposition_eq,
    encodeContentTransferEncoding_eq]

end MmsBodyPartHeader

namespace MmsBodyPart

variable (platform : Platform) (part : MmsBodyPart)

/-- The lengths of the headers and of the data. -/
def lengthsHead (headers : Octets) : Octets :=
  uintvarOctets headers.length ++ uintvarOctets part.pbodyPartBuffer.length

def dataPlan : Plan :=
  if part.pbodyPartBuffer.length ≤ MMS_PDU_MAX_SIZE ∧ part.pbodyPartBuffer ≠ [] then
    .block part.pbodyPartBuffer
  else
    .refuse

def plan : Plan :=
  .seq (.behind part.lengthsHead (.seq (partContentTypePlan platform part.bodyPartContentType)
    (.octets (part.mmsBodyPartHeader.wire platform)))) part.dataPlan

theorem encodeData_eq : (do
    let bodyBuff ← part.readBodyPartBuffer
    writeBuffer bodyBuff) = encodePlan part.dataPlan := by
  unfold readBodyPartBuffer dataPlan
  by_cases hsize : part.pbodyPartBuffer.length ≤ MMS_PDU_MAX_SIZE
  · by_cases hne : part.pbodyPartBuffer ≠ []
    · rw [guard_of hsize, guard_of hne, if_pos ⟨hsize, hne⟩]
      exact writeBuffer_eq _
    · rw [guard_of hsize, guard_of_not hne, if_neg fun hboth => hne hboth.2]
      rfl
  · rw [guard_of_not hsize, if_neg fun hboth => hsize hboth.1]
    rfl

theorem encodeMmsBodyPart_eq :
    part.encodeMmsBodyPart platform = encodePlan (part.plan platform) := by
  have hheaders : (do
      encodeMmsBodyPartContentType platform part.bodyPartContentType
      part.mmsBodyPartHeader.encodeMmsBodyPartHeader platform) =
        encodePlan (.seq (partContentTypePlan platform part.bodyPartContentType)
          (.octets (part.mmsBodyPartHeader.wire platform))) := by
    rw [encodeMmsBodyPartContentType_eq, MmsBodyPartHeader.encodeMmsBodyPartHeader_eq,
      writeBytes_eq]
    rfl
  have hlengths : ∀ temp : Octets, (do
      encodeUintvar temp.length
      encodeUintvar part.pbodyPartBuffer.length
      writeBuffer temp) = (writeBytes (part.lengthsHead temp) >>= fun _ => writeBuffer temp) := by
    intro temp
    rw [lengthsHead, writeBytes_append, Action.bind_assoc]
    rfl
  have hbehind := inTempBuffer_eq (encodes_iff_of_eq hheaders) hlengths
  rw [plan, seq_encode, ← hbehind, ← encodeData_eq, encodeMmsBodyPart]
  simp only [Action.bind_assoc]

end MmsBodyPart

end TelephonySms.Mms
