import TelephonySms.Mms.HeaderReading

/-! # Fields in sequence

A header is a sequence of fields, which the content type ends if there is one. Where the
decoder takes each field to its end, what it makes of one does not depend on the others.
-/

namespace TelephonySms.Mms

open OctetReader Reader MmsFieldCode

def fieldsWire (fs : List HeaderField) : Octets := fs.flatMap HeaderField.wire

def storeAll (platform : Platform) (fs : List HeaderField) (h : MmsHeader) : MmsHeader :=
  fs.foldl (HeaderField.store platform) h

/-- The content type, if there is one, as the last field. -/
def contentField (content : Option ContentTypeValue) : List HeaderField :=
  (content.map fun value => ⟨MMS_CONTENT_TYPE, .contentType value⟩).toList

/-- The fields in front of the content type. They are well formed, and none of them is
decoded as a content type. -/
structure AreFields (fs : List HeaderField) : Prop where
  valid : ∀ f ∈ fs, f.Valid
  noContentType : ∀ f ∈ fs, memberFuncMap f.code ≠ some .decodeMmsContentType

/-- The octets behind the content type. Without one there are none. -/
def IsBody (content : Option ContentTypeValue) (body : Octets) : Prop :=
  content = none → body = []

section Sequences

variable {platform : Platform} {fs : List HeaderField} {content : Option ContentTypeValue}
variable {body : Octets}

theorem HeaderField.Valid.startsField {f : HeaderField} (h : f.Valid) (rest : Octets) :
    StartsField (f.wire ++ rest) := by
  intro b hb
  obtain rfl : f.code = b := by simpa [HeaderField.wire] using hb
  exact h.code

theorem startsField_content (hbody : IsBody content body) :
    StartsField (fieldsWire (contentField content) ++ body) := by
  cases content with
  | none =>
      rw [hbody rfl]
      intro b hb
      simp [contentField, fieldsWire] at hb
  | some value =>
      intro b hb
      obtain rfl : MMS_CONTENT_TYPE = b := by
        simpa [contentField, fieldsWire, HeaderField.wire] using hb
      decide

theorem startsField_fields (hvalid : ∀ f ∈ fs, f.Valid) (hbody : IsBody content body) :
    StartsField (fieldsWire fs ++ (fieldsWire (contentField content) ++ body)) := by
  cases fs with
  | nil => exact startsField_content hbody
  | cons f fs =>
      rw [fieldsWire, List.flatMap_cons, List.append_assoc]
      exact (hvalid f List.mem_cons_self).startsField _

theorem AreFields.tail {f : HeaderField} (h : AreFields (f :: fs)) : AreFields fs where
  valid g hg := h.valid g (List.mem_cons_of_mem f hg)
  noContentType g hg := h.noContentType g (List.mem_cons_of_mem f hg)

theorem AreFields.ne_contentType {f : HeaderField} (h : AreFields fs) (hf : f ∈ fs) :
    f.code ≠ MMS_CONTENT_TYPE := by
  intro heq
  exact h.noContentType f hf (by rw [heq]; decide)

/-- The decoder takes fields that are read, and the content type behind them. -/
theorem decodeMmsHeader_rounds (h : AreFields fs) (hread : ∀ f ∈ fs, f.value.IsRead)
    (hcontent : ∀ value ∈ content, value.Valid ∧ value.IsRead) (hbody : IsBody content body)
    (header : MmsHeader) :
    Rounds (MmsHeader.decodeOneField platform) body
      (storeAll platform (fs ++ contentField content) header) header
      (fieldsWire fs ++ fieldsWire (contentField content)) := by
  induction fs generalizing header with
  | nil =>
      apply Rounds.last
      cases content with
      | none =>
          rw [hbody rfl]
          have hend : FailsBefore getOneByte [] [] := by
            intro front trace _
            exact ⟨trace, getOneByte_of_ge (by simp)⟩
          exact ReadsBefore.bind_nil hend.attempt (ReadsBefore.pure _ _)
      | some value =>
          obtain ⟨hvalue, hvalueRead⟩ := hcontent value rfl
          have hfield : HeaderField.Valid ⟨MMS_CONTENT_TYPE, .contentType value⟩ :=
            ⟨show 0x80 ≤ MMS_CONTENT_TYPE by decide, FieldValue.Fits.contentType hvalue⟩
          have hround := decodeOneField_reads platform header hfield
            hvalueRead (Or.inr rfl : StartsField body ∨ _)
          rw [if_pos rfl] at hround
          simpa [fieldsWire, contentField, storeAll] using hround
  | cons f fs ih =>
      have hf := h.valid f List.mem_cons_self
      have hrest := startsField_fields h.tail.valid hbody
      have hround := decodeOneField_reads platform header hf
        (hread f List.mem_cons_self) (Or.inl hrest)
      rw [if_neg (h.ne_contentType List.mem_cons_self)] at hround
      rw [fieldsWire, List.flatMap_cons, List.append_assoc]
      refine Rounds.next (by simpa [fieldsWire] using hround) (by simp [HeaderField.wire]) ?_
      exact ih h.tail (fun g hg => hread g (List.mem_cons_of_mem f hg)) _

theorem decodeMmsHeader_reads (h : AreFields fs) (hread : ∀ f ∈ fs, f.value.IsRead)
    (hcontent : ∀ value ∈ content, value.Valid ∧ value.IsRead) (hbody : IsBody content body)
    (header : MmsHeader) :
    ReadsBefore (header.decodeMmsHeader platform)
      (fieldsWire fs ++ fieldsWire (contentField content)) body
      (storeAll platform (fs ++ contentField content) header) :=
  (decodeMmsHeader_rounds h hread hcontent hbody header).loop

end Sequences

/-! ## Fields do not depend on each other -/

/-- The two headers have the same values for every code but that of the field `f`. If `f` has
an address, all other addresses of its code are the same. -/
structure SameBut (f : HeaderField) (h h' : MmsHeader) : Prop where
  octets : ∀ code ≠ f.code, h.octetValueMap code = h'.octetValueMap code
  longs : ∀ code ≠ f.code, h.longValueMap code = h'.longValueMap code
  texts : ∀ code ≠ f.code, h.textValueMap code = h'.textValueMap code
  strings : ∀ code ≠ f.code, h.encodeStringsMap code = h'.encodeStringsMap code
  addresses : ∀ field : AddressField, field.code ≠ f.code → h.addressMap field = h'.addressMap field
  others : ∀ field, memberFuncMap f.code = some (.decodeFieldAddressModelValue field) →
    ∃ before address after, (h.addressMap field).getD [] = before ++ address :: after ∧
      (h'.addressMap field).getD [] = before ++ after
  contentType : h.mmsContentType = h'.mmsContentType

theorem update_eq_of_eq {κ β : Type} [DecidableEq κ] {m m' : κ → β} {p : κ → Prop}
    (h : ∀ c, p c → m c = m' c) (k : κ) (v : β) :
    ∀ c, p c → Function.update m k v c = Function.update m' k v c := by
  intro c hc
  by_cases heq : c = k
  · rw [heq, Function.update_self, Function.update_self]
  · rw [Function.update_of_ne heq, Function.update_of_ne heq, h c hc]

theorem code_of_addressHandler {code : UInt8} {field : AddressField}
    (h : memberFuncMap code = some (.decodeFieldAddressModelValue field)) :
    code = field.code ∧ field ≠ .sender := by
  simp only [memberFuncMap, ite_eq_iff, Option.some.injEq, reduceCtorEq, and_false, false_or,
    FieldHandler.decodeFieldAddressModelValue.injEq, or_false] at h
  rcases h with ⟨-, -, -, -, -, -, -, -, -, -, h⟩
  rcases h with ⟨rfl, rfl⟩ | ⟨-, ⟨rfl, rfl⟩ | ⟨-, rfl, rfl⟩⟩ <;> exact ⟨rfl, by decide⟩

theorem code_of_fromHandler {code : UInt8} (h : memberFuncMap code = some .decodeFromValue) :
    code = MMS_FROM := by
  simp only [memberFuncMap, ite_eq_iff, Option.some.injEq, reduceCtorEq, and_false, false_or,
    and_true, or_false] at h
  rcases h with ⟨-, -, -, -, -, -, -, -, -, -, -, -, -, h⟩
  exact h

theorem MmsHeader.emplaceAddress_self (h : MmsHeader) (field : AddressField)
    (addresses : List MmsAddress) : (h.emplaceAddress field addresses).addressMap field =
      some ((h.addressMap field).getD addresses) := by
  unfold emplaceAddress
  cases hmapped : h.addressMap field with
  | none => simp
  | some _ => simpa using hmapped

theorem MmsHeader.emplaceAddress_of_ne (h : MmsHeader) {field field' : AddressField}
    (hne : field' ≠ field) (addresses : List MmsAddress) :
    (h.emplaceAddress field addresses).addressMap field' = h.addressMap field' := by
  unfold emplaceAddress
  split
  · rfl
  · exact Function.update_of_ne hne _ _

theorem MmsHeader.emplaceAddress_eq (h : MmsHeader) (field : AddressField)
    (addresses : List MmsAddress) :
    ∃ map, h.emplaceAddress field addresses = { h with addressMap := map } := by
  unfold emplaceAddress
  split
  · exact ⟨h.addressMap, rfl⟩
  · exact ⟨_, rfl⟩

namespace SameBut

variable {f : HeaderField} {h h' : MmsHeader}

theorem putOctet (hs : SameBut f h h') (code value : UInt8) :
    SameBut f (h.putOctet code value) (h'.putOctet code value) :=
  { hs with octets := update_eq_of_eq hs.octets code _ }

theorem putLong (hs : SameBut f h h') (code : UInt8) (value : Int64) :
    SameBut f (h.putLong code value) (h'.putLong code value) :=
  { hs with longs := update_eq_of_eq hs.longs code _ }

theorem putText (hs : SameBut f h h') (code : UInt8) (value : Octets) :
    SameBut f (h.putText code value) (h'.putText code value) :=
  { hs with texts := update_eq_of_eq hs.texts code _ }

theorem putEncodeString (hs : SameBut f h h') (code : UInt8) (value : MmsEncodeString) :
    SameBut f (h.putEncodeString code value) (h'.putEncodeString code value) :=
  { hs with strings := update_eq_of_eq hs.strings code _ }

theorem pushAddress (hs : SameBut f h h') (field : AddressField) (address : MmsAddress) :
    SameBut f (h.pushAddress field address) (h'.pushAddress field address) where
  octets := hs.octets
  longs := hs.longs
  texts := hs.texts
  strings := hs.strings
  contentType := hs.contentType
  addresses field' hne := by
    unfold MmsHeader.pushAddress
    dsimp only
    by_cases heq : field' = field
    · subst heq
      rw [Function.update_self, Function.update_self, hs.addresses field' hne]
    · rw [Function.update_of_ne heq, Function.update_of_ne heq, hs.addresses field' hne]
  others field' hfield := by
    obtain ⟨before, other, after, hwith, hwithout⟩ := hs.others field' hfield
    unfold MmsHeader.pushAddress
    dsimp only
    by_cases heq : field' = field
    · subst heq
      refine ⟨before, other, after ++ [address], ?_, ?_⟩
      · simp [hwith]
      · simp [hwithout]
    · rw [Function.update_of_ne heq, Function.update_of_ne heq]
      exact ⟨before, other, after, hwith, hwithout⟩

theorem emplaceAddress (hs : SameBut f h h') (addresses : List MmsAddress) :
    SameBut f (h.emplaceAddress .sender addresses) (h'.emplaceAddress .sender addresses) := by
  obtain ⟨map, hmap⟩ := h.emplaceAddress_eq .sender addresses
  obtain ⟨map', hmap'⟩ := h'.emplaceAddress_eq .sender addresses
  refine ⟨?_, ?_, ?_, ?_, ?_, ?_, ?_⟩
  · rw [hmap, hmap']
    exact hs.octets
  · rw [hmap, hmap']
    exact hs.longs
  · rw [hmap, hmap']
    exact hs.texts
  · rw [hmap, hmap']
    exact hs.strings
  · intro field hne
    by_cases heq : field = .sender
    · have hsame := hs.addresses field hne
      subst heq
      rw [MmsHeader.emplaceAddress_self, MmsHeader.emplaceAddress_self, hsame]
    · rw [h.emplaceAddress_of_ne heq, h'.emplaceAddress_of_ne heq, hs.addresses field hne]
  · intro field hfield
    have hne := (code_of_addressHandler hfield).2
    rw [h.emplaceAddress_of_ne hne, h'.emplaceAddress_of_ne hne]
    exact hs.others field hfield
  · rw [hmap, hmap']
    exact hs.contentType

/-- What another field leaves in the two headers is the same. -/
theorem store (hs : SameBut f h h') (platform : Platform) (g : HeaderField) :
    SameBut f (g.store platform h) (g.store platform h') := by
  obtain ⟨code, value⟩ := g
  cases value with
  | octet value => exact hs.putOctet code value
  | tokenText name => exact hs
  | integer value => exact hs.putLong code _
  | text value => exact hs.putText code _
  | encoded value =>
      simp only [HeaderField.store]
      split
      · exact hs.pushAddress _ _
      · exact hs.putEncodeString code _
  | block length value trailing =>
      cases value with
      | sender address => exact hs.emplaceAddress _
      | date token octets => exact hs.putLong code _
      | sentDate count octets => exact hs.putLong code _
      | mBox token size => exact hs
      | mmFlag token text => exact hs
  | contentType value =>
      exact { hs with contentType := by simp only [HeaderField.store, hs.contentType] }
  | unknown octets => exact hs

theorem storeAll (hs : SameBut f h h') (platform : Platform) (fs : List HeaderField) :
    SameBut f (Mms.storeAll platform fs h) (Mms.storeAll platform fs h') := by
  induction fs generalizing h h' with
  | nil => exact hs
  | cons g fs ih => exact ih (hs.store platform g)

end SameBut

theorem update_ne {κ β : Type} [DecidableEq κ] (m : κ → β) (k : κ) (v : β) :
    ∀ c ≠ k, Function.update m k v c = m c := fun _ hne => Function.update_of_ne hne v m

/-- Nothing is left behind by a field that is read and dropped. -/
theorem SameBut.refl {f : HeaderField}
    (h : ∀ field, memberFuncMap f.code ≠ some (.decodeFieldAddressModelValue field))
    (header : MmsHeader) : SameBut f header header :=
  ⟨fun _ _ => rfl, fun _ _ => rfl, fun _ _ => rfl, fun _ _ => rfl, fun _ _ => rfl,
    fun field hfield => absurd hfield (h field), rfl⟩

/-- A field leaves the values of all other codes. -/
theorem sameBut_store {f : HeaderField} (h : f.Valid)
    (hcontent : memberFuncMap f.code ≠ some .decodeMmsContentType) (platform : Platform)
    (header : MmsHeader) : SameBut f (f.store platform header) header := by
  obtain ⟨code, value⟩ := f
  obtain ⟨-, hfits⟩ := h
  simp only at hfits hcontent
  have hrefl := fun h => SameBut.refl (f := ⟨code, value⟩) h header
  generalize hhandler : memberFuncMap code = handler at hfits
  simp only [hhandler] at hrefl hcontent
  cases hfits with
  | octet h => exact { hrefl (by simp) with octets := update_ne _ code _ }
  | tokenText => exact hrefl (by simp)
  | msgType h => exact { hrefl (by simp) with octets := update_ne _ code _ }
  | long h => exact { hrefl (by simp) with longs := update_ne _ code _ }
  | integer h => exact { hrefl (by simp) with longs := update_ne _ code _ }
  | text h => exact { hrefl (by simp) with texts := update_ne _ code _ }
  | encoded h =>
      simp only [HeaderField.store, hhandler]
      exact { hrefl (by simp) with strings := update_ne _ code _ }
  | @address field value h =>
      obtain ⟨hcode, -⟩ := code_of_addressHandler hhandler
      simp only [HeaderField.store, hhandler]
      refine ⟨fun _ _ => rfl, fun _ _ => rfl, fun _ _ => rfl, fun _ _ => rfl, ?_, ?_, rfl⟩
      · intro field' hne
        refine Function.update_of_ne ?_ _ _
        rintro rfl
        exact hne hcode.symm
      · intro field' hfield
        rw [hhandler] at hfield
        obtain rfl : field = field' := by simpa using hfield
        refine ⟨(header.addressMap field).getD [],
          { addressString := (value.value.getEncodeString platform).2 }, [], ?_, by simp⟩
        simp [MmsHeader.pushAddress]
  | @block length trailing value h hlength =>
      cases value with
      | sender address =>
          obtain rfl : code = MMS_FROM := code_of_fromHandler hhandler
          obtain ⟨map, hmap⟩ :=
            header.emplaceAddress_eq .sender [BlockValue.senderOf platform address]
          have hfields : ∀ field : AddressField, field.code ≠ MMS_FROM →
              (header.emplaceAddress .sender [BlockValue.senderOf platform address]).addressMap
                field = header.addressMap field :=
            fun field hne => header.emplaceAddress_of_ne (fun heq => hne (by rw [heq]; rfl)) _
          simp only [HeaderField.store, BlockValue.store]
          have hsame := hrefl (by simp [BlockValue.handler])
          rw [hmap] at hfields ⊢
          exact { hsame with
            addresses := hfields
            others := fun field hfield => absurd hfield (by rw [hhandler]; simp [BlockValue.handler]) }
      | date token octets => exact { hrefl (by simp [BlockValue.handler]) with longs := update_ne _ code _ }
      | sentDate count octets => exact { hrefl (by simp [BlockValue.handler]) with longs := update_ne _ code _ }
      | mBox token size => exact hrefl (by simp [BlockValue.handler])
      | mmFlag token text => exact hrefl (by simp [BlockValue.handler])
  | contentType h => exact absurd rfl hcontent
  | unknown h => exact hrefl (by simp)

/-! ## Framing -/

/-- The decoder takes every field to its end and no further, and what it decodes for the
others is what it decodes without the field. -/
structure Framed (platform : Platform) (fs : List HeaderField) (content : Option ContentTypeValue)
    (body : Octets) : Prop where
  takes : ∀ front f back, fs = front ++ f :: back → ∀ header : MmsHeader, ∃ header',
    ReadsBefore (header.decodeOneField platform) f.wire
      (fieldsWire back ++ (fieldsWire (contentField content) ++ body)) (.inl header')
  independent : ∀ front f back, fs = front ++ f :: back → ∀ header : MmsHeader, ∃ h₁ h₂,
    ReadsBefore (header.decodeMmsHeader platform)
      (fieldsWire fs ++ fieldsWire (contentField content)) body h₁ ∧
    ReadsBefore (header.decodeMmsHeader platform)
      (fieldsWire (front ++ back) ++ fieldsWire (contentField content)) body h₂ ∧
    SameBut f h₁ h₂

theorem AreFields.without {front back : List HeaderField} {f : HeaderField}
    (h : AreFields (front ++ f :: back)) : AreFields (front ++ back) where
  valid g hg := h.valid g (by simp only [List.mem_append, List.mem_cons] at hg ⊢; tauto)
  noContentType g hg :=
    h.noContentType g (by simp only [List.mem_append, List.mem_cons] at hg ⊢; tauto)

/-- A header is framed exactly where each field in front of the content type is read. -/
theorem decodeMmsHeader_framed_iff (platform : Platform) {fs : List HeaderField}
    {content : Option ContentTypeValue} {body : Octets} (h : AreFields fs)
    (hcontent : ∀ value ∈ content, value.Valid ∧ value.IsRead) (hbody : IsBody content body)
    (hsize : (fieldsWire fs ++ (fieldsWire (contentField content) ++ body)).length ≤
      MMS_PDU_MAX_SIZE) :
    Framed platform fs content body ↔ ∀ f ∈ fs, f.value.IsRead := by
  constructor
  · intro hframed f hf
    by_contra hread
    obtain ⟨front, back, hsplit⟩ := List.append_of_mem hf
    obtain ⟨header', htakes⟩ := hframed.takes front f back hsplit {}
    refine (decodeOneField_short (h.valid f hf) hread (h.noContentType f hf) _).not_reads ?_ _ htakes
    rw [hsplit] at hsize
    simp only [fieldsWire, List.flatMap_append, List.flatMap_cons, List.length_append,
      MMS_PDU_MAX_SIZE] at hsize ⊢
    omega
  · intro hread
    constructor
    · rintro front f back rfl header
      have hf : f ∈ front ++ f :: back := by simp
      have hback : ∀ g ∈ back, g.Valid := fun g hg => h.valid g (by simp [hg])
      have hround := decodeOneField_reads platform header (h.valid f hf) (hread f hf)
        (Or.inl (startsField_fields hback hbody))
      rw [if_neg (h.ne_contentType hf)] at hround
      exact ⟨_, hround⟩
    · rintro front f back rfl header
      have hf : f ∈ front ++ f :: back := by simp
      have hread' : ∀ g ∈ front ++ back, g.value.IsRead := by
        intro g hg
        exact hread g (by simp only [List.mem_append, List.mem_cons] at hg ⊢; tauto)
      refine ⟨_, _, decodeMmsHeader_reads h hread hcontent hbody header,
        decodeMmsHeader_reads h.without hread' hcontent hbody header, ?_⟩
      have hstore := sameBut_store (h.valid f hf) (h.noContentType f hf) platform
        (storeAll platform front header)
      have hall := hstore.storeAll platform (back ++ contentField content)
      simpa [storeAll, List.append_assoc] using hall

/-- A notification of a message, with two fields that are not known. -/
def notificationFields : List HeaderField :=
  [⟨MMS_MESSAGE_TYPE, .octet 130⟩, ⟨MMS_TRANSACTION_ID, .text ⟨false, [0x41, 0x31]⟩⟩,
    ⟨MMS_MMS_VERSION, .integer (.short 0x12)⟩, ⟨0xc0, .unknown [0x61, 0x62, 0]⟩,
    ⟨MMS_FROM, .block [4] (.sender (some (.plain ⟨false, [0x2b, 0x34]⟩))) []⟩,
    ⟨MMS_MESSAGE_SIZE, .integer (.long [0x04, 0x00])⟩, ⟨0xc1, .unknown [2, 0x10, 0x20]⟩]

theorem notificationFields_areFields : AreFields notificationFields where
  valid := by
    intro f hf
    simp only [notificationFields, List.mem_cons, List.not_mem_nil, or_false] at hf
    rcases hf with rfl | rfl | rfl | rfl | rfl | rfl | rfl
    · exact ⟨by decide, .msgType (by decide)⟩
    · exact ⟨by decide, .text ⟨by decide, fun _ => by decide⟩⟩
    · exact ⟨by decide, .integer (show (0x12 : UInt8) < 0x80 by decide)⟩
    · exact ⟨by decide, .unknown (.text (t := ⟨false, [0x61, 0x62]⟩) ⟨by decide, fun _ => by decide⟩)⟩
    · have hsender : (BlockValue.sender (some (.plain ⟨false, [0x2b, 0x34]⟩))).Valid := by
        intro s hs
        obtain rfl := Option.mem_some_iff.mp hs
        exact ⟨⟨by decide, fun _ => by decide⟩, Or.inr (by decide)⟩
      exact ⟨by decide, .block hsender (.short (by decide))⟩
    · exact ⟨by decide, .long ⟨by decide, by decide⟩⟩
    · have hlength : IsValueLength ([0x10, 0x20] : Octets).length [2] := .short (by decide)
      exact ⟨by decide, .unknown (.block hlength)⟩
  noContentType := by decide

theorem notificationFields_framed : Framed plainPlatform notificationFields none [] := by
  refine (decodeMmsHeader_framed_iff plainPlatform notificationFields_areFields (by simp)
    (fun _ => rfl) (by decide)).mpr ?_
  intro f hf
  simp only [notificationFields, List.mem_cons, List.not_mem_nil, or_false] at hf
  rcases hf with rfl | rfl | rfl | rfl | rfl | rfl | rfl
  · trivial
  · trivial
  · trivial
  · exact by simp [FieldValue.IsRead]
  · refine ⟨?_, rfl⟩
    intro s hs
    obtain rfl := Option.mem_some_iff.mp hs
    trivial
  · exact show ([0x04, 0x00] : Octets).length ≤ 8 by decide
  · exact by simp [FieldValue.IsRead]

/-- A field that is not known, with a short integer, in front of a priority. -/
def shortUnknown : List HeaderField := [⟨0xc0, .unknown [0x97]⟩, ⟨MMS_PRIORITY, .octet 128⟩]

/-- The short integer is taken for the code of an address, and the priority for the address. -/
theorem shortUnknown_not_framed :
    AreFields shortUnknown ∧ ¬ Framed plainPlatform shortUnknown none [] := by
  have hfields : AreFields shortUnknown := by
    refine ⟨?_, by decide⟩
    intro f hf
    simp only [shortUnknown, List.mem_cons, List.not_mem_nil, or_false] at hf
    rcases hf with rfl | rfl
    · exact ⟨by decide, .unknown (.short (by decide))⟩
    · exact ⟨by decide, .octet (by decide)⟩
  refine ⟨hfields, fun hframed => ?_⟩
  obtain ⟨header', htakes⟩ := hframed.takes [] _ _ rfl {}
  obtain ⟨trace, hrun⟩ := htakes [] [] (by decide)
  have hposition : ((MmsHeader.decodeOneField plainPlatform {}
      ⟨[0xc0, 0x97, 0x8f, 0x80], 0, []⟩).2).position = 1 := by decide
  have hend : ((MmsHeader.decodeOneField plainPlatform {}
      ⟨[0xc0, 0x97, 0x8f, 0x80], 0, []⟩).2).position = 2 := congrArg (fun r => r.2.position) hrun
  omega

end TelephonySms.Mms
