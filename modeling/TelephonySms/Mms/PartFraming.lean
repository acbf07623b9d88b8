import TelephonySms.Mms.PartReading

/-! # Parts in sequence

A part has two lengths in front: that of its headers and that of its data. The decoder uses
the first for nothing but a count, so where it takes the data from depends on the headers.
-/

namespace TelephonySms.Mms

open OctetReader Reader

/-! ## Data -/

/-- What becomes of data that is read. -/
def transferred (platform : Platform) (ph : MmsBodyPartHeader) (data : Octets) : Octets :=
  if transferDecode platform ph.strContentTransferEncoding data = [] then data
  else transferDecode platform ph.strContentTransferEncoding data

/-- The service makes no data longer. -/
def ShrinksBase64 (platform : Platform) : Prop :=
  ∀ data, (platform.getBase64Decode data).length ≤ data.length

theorem quotedPrintableLoop_length (platform : Platform) (fuel : Nat) (src : Octets) :
    (quotedPrintableLoop platform fuel src).length ≤ src.length := by
  induction fuel generalizing src with
  | zero => simp [quotedPrintableLoop]
  | succ fuel ih =>
      cases src with
      | nil => simp [quotedPrintableLoop]
      | cons oneByte rest =>
          have hdrop := ih ((oneByte :: rest).drop 3)
          have hrest := ih rest
          rw [List.length_drop, List.length_cons] at hdrop
          rw [quotedPrintableLoop]
          split
          · rw [List.length_cons]
            omega
          · split
            · rw [List.length_cons, List.length_cons]
              omega
            · rw [List.length_cons, List.length_cons]
              omega

theorem transferred_length {platform : Platform} (hshrinks : ShrinksBase64 platform)
    (ph : MmsBodyPartHeader) (data : Octets) :
    (transferred platform ph data).length ≤ data.length := by
  unfold transferred
  split
  · exact Nat.le_refl _
  · unfold transferDecode quotedPrintableDecode
    split
    · exact hshrinks data
    · split
      · split
        · simp
        · exact quotedPrintableLoop_length platform _ data
      · simp

section Data

variable {platform : Platform} {ph : MmsBodyPartHeader} {data rest : Octets}

theorem transferBody_eq (h : (transferred platform ph data).length ≤ MMS_PDU_MAX_SIZE) :
    MmsBodyPart.transferBody platform ph data = pure (transferred platform ph data) := by
  unfold MmsBodyPart.transferBody
  unfold transferred at h ⊢
  by_cases hnil : transferDecode platform ph.strContentTransferEncoding data = []
  · simp [hnil]
  · rw [if_neg hnil] at h ⊢
    have hlen : (transferDecode platform ph.strContentTransferEncoding data).length ≠ 0 := by
      simpa using hnil
    simp only [if_pos hlen, guard_of h]
    rfl

/-- The data is there, and the length of it is what the decoder asks for. -/
theorem decodePartBody_guard (hmax : data.length ≤ MMS_PDU_MAX_SIZE) {n : Nat}
    (hsize : n + (data.length + rest.length) < 2 ^ 31) :
    ¬ (u32 (n + data.length) > n + (data ++ rest).length ∨ data.length > MMS_PDU_MAX_SIZE) := by
  rw [u32_of_lt (by omega), List.length_append]
  omega

theorem decodePartBody_reads (ph : MmsBodyPartHeader) (hshrinks : ShrinksBase64 platform) (hne : data ≠ [])
    (hmax : data.length ≤ MMS_PDU_MAX_SIZE) (rest : Octets) :
    ReadsBefore (MmsBodyPart.decodePartBody platform ph data.length) data rest
      (transferred platform ph data) := by
  intro front trace hshort
  have hsize : front.length + (data.length + rest.length) < 2 ^ 31 := by
    simp only [List.length_append] at hshort
    omega
  have hfrom : ReadsFrom (MmsBodyPart.decodePartBody platform ph data.length) front.length data rest
      (transferred platform ph data) := by
    refine ReadsFrom.bind_nil (getCurPosition_reads _ _) ?_
    refine ReadsFrom.bind_nil (getSize_reads _ _) ?_
    refine ReadsFrom.bind_nil
      ((ReadsBefore.guard (decodePartBody_guard hmax hsize) _).readsFrom _) ?_
    refine ReadsFrom.bind_nil (readDataBuffer_reads _ hne hmax rest) ?_
    rw [transferBody_eq (Nat.le_trans (transferred_length hshrinks ph data) hmax)]
    refine ReadsFrom.bind_nil ((ReadsBefore.pure _ _).readsFrom _) ?_
    exact ReadsFrom.bind_last ((increasePointer_reads data rest).readsFrom _)
      ((ReadsBefore.pure _ _).readsFrom _)
  exact hfrom front trace rfl hshort

/-- Empty data is refused. -/
theorem decodePartBody_fails (rest : Octets) :
    FailsBefore (MmsBodyPart.decodePartBody platform ph 0) [] rest := by
  intro front trace hshort
  simp only [List.append_nil] at hshort ⊢
  have hsize : front.length + rest.length < 2 ^ 31 := by simpa using hshort
  have hguard : ¬ (u32 (front.length + ([] : Octets).length) > front.length + ([] ++ rest).length ∨
      ([] : Octets).length > MMS_PDU_MAX_SIZE) :=
    decodePartBody_guard (by simp) (by simpa using hsize)
  have hposition : getCurPosition ⟨front ++ rest, front.length, trace⟩ =
      (.done front.length, ⟨front ++ rest, front.length, trace⟩) := rfl
  have hoctets : getSize ⟨front ++ rest, front.length, trace⟩ =
      (.done (front.length + ([] ++ rest).length), ⟨front ++ rest, front.length, trace⟩) := by
    rw [List.nil_append, ← List.length_append]
    rfl
  rw [List.length_nil] at hguard
  rw [MmsBodyPart.decodePartBody, bind_of_done hposition, bind_of_done hoctets, guard_of hguard,
    pure_bind_run, List.length_nil, Nat.add_zero]
  refine ⟨trace, bind_of_failed ?_ _⟩
  have hsum : ¬ u32 (front.length + 0) > (front ++ rest).length := by
    rw [u32_of_lt (by omega), List.length_append]
    omega
  simp only [readDataBuffer, cursor_bind, Nat.not_lt_zero, gt_iff_lt, if_false]
  rw [if_neg hsum, if_pos trivial]
  rfl

end Data

/-! ## Parts -/

structure PartValue where
  headersLength : Octets
  dataLength : Octets
  contentType : ContentTypeValue
  headers : List PartHeader
  data : Octets
  deriving DecidableEq, Repr

namespace PartValue

/-- What the length of the headers counts. -/
def head (part : PartValue) : Octets := part.contentType.wire ++ headersWire part.headers

def wire (part : PartValue) : Octets :=
  part.headersLength ++ (part.dataLength ++ (part.head ++ part.data))

structure Valid (part : PartValue) : Prop where
  headersLength : IsUintvar part.head.length part.headersLength
  dataLength : IsUintvar part.data.length part.dataLength
  contentType : part.contentType.Valid
  headers : ∀ header ∈ part.headers, header.Valid

structure IsRead (part : PartValue) : Prop where
  contentType : part.contentType.IsRead
  headers : ∀ header ∈ part.headers, header.IsRead

/-- The headers count up, and there is data. -/
structure Aligned (part : PartValue) : Prop where
  counted : Counted 0 part.headers
  data : part.data ≠ []

/-- The part that the decoder makes of it, without a name. -/
def decoded (platform : Platform) (part : PartValue) : MmsBodyPart where
  headerLen := part.head.length
  bodyPartContentType := part.contentType.apply {}
  mmsBodyPartHeader := storeHeaders part.headers {}
  pbodyPartBuffer := Mms.transferred platform (storeHeaders part.headers {}) part.data

end PartValue

theorem decodeSetFileName_eq (platform : Platform) (n : Nat) (part : MmsBodyPart) :
    ∃ name, MmsBodyPart.decodeSetFileName platform n part = { part with strFileName := name } := by
  unfold MmsBodyPart.decodeSetFileName
  dsimp only
  split
  · exact ⟨_, rfl⟩
  · split
    · exact ⟨_, rfl⟩
    · split
      · exact ⟨_, rfl⟩
      · exact ⟨_, rfl⟩

theorem decodeSetFileName_header (platform : Platform) (n : Nat) (part : MmsBodyPart) :
    (MmsBodyPart.decodeSetFileName platform n part).mmsBodyPartHeader = part.mmsBodyPartHeader := by
  obtain ⟨name, h⟩ := decodeSetFileName_eq platform n part
  rw [h]

theorem decodeSetFileName_buffer (platform : Platform) (n : Nat) (part : MmsBodyPart) :
    (MmsBodyPart.decodeSetFileName platform n part).pbodyPartBuffer = part.pbodyPartBuffer := by
  obtain ⟨name, h⟩ := decodeSetFileName_eq platform n part
  rw [h]

section Parts

variable {platform : Platform} {part : PartValue} {rest : Octets} {n : Nat}

theorem IsUintvar.ne_nil {k : Nat} {w : Octets} (h : IsUintvar k w) : w ≠ [] := by
  rintro rfl
  exact absurd h.digits (by simp [uintvarFrom])

theorem PartValue.wire_eq (part : PartValue) :
    part.wire = (part.headersLength ++ (part.dataLength ++ part.contentType.wire)) ++
      (headersWire part.headers ++ part.data) := by
  simp [wire, head]

theorem PartValue.wire_ne_nil (hvalid : part.Valid) : part.wire ≠ [] := by
  simp [wire_eq, hvalid.headersLength.ne_nil]

/-- The decoder behind the content type, with the length of the headers and of the data. -/
def PartValue.decodeTail (platform : Platform) (n : Nat) (part : PartValue) : Reader MmsBodyPart := do
  let ph ← MmsBodyPart.decodePartHeader {} (headersWire part.headers).length
  let body ← MmsBodyPart.decodePartBody platform ph part.data.length
  pure (MmsBodyPart.decodeSetFileName platform n {
    headerLen := part.head.length
    bodyPartContentType := part.contentType.apply {}
    mmsBodyPartHeader := ph
    pbodyPartBuffer := body })

theorem decodePart_goesOn (hvalid : part.Valid) (hread : part.IsRead) (rest : Octets) :
    GoesOn (MmsBodyPart.decodePart platform n)
      (part.headersLength ++ (part.dataLength ++ part.contentType.wire)) rest
      (part.decodeTail platform n) := by
  have hhead : part.head.length = part.contentType.wire.length + (headersWire part.headers).length :=
    List.length_append
  refine GoesOn.bind (decodeUintvar_reads hvalid.headersLength _) ?_
  refine GoesOn.bind (decodeUintvar_reads hvalid.dataLength _) ?_
  refine GoesOn.bind_last (decodeMmsContentType_reads {} hvalid.contentType hread.contentType _) ?_
  refine GoesOn.bind_nil (ReadsBefore.guard (by omega) _) ?_
  simp only [PartValue.decodeTail, hhead, Nat.add_sub_cancel_left]
  exact GoesOn.refl _ _

theorem decodePart_reads (hshrinks : ShrinksBase64 platform) (hvalid : part.Valid)
    (hread : part.IsRead) (haligned : part.Aligned) (hmax : part.wire.length ≤ MMS_PDU_MAX_SIZE)
    (rest : Octets) :
    ReadsBefore (MmsBodyPart.decodePart platform n) part.wire rest
      (MmsBodyPart.decodeSetFileName platform n (part.decoded platform)) := by
  rw [part.wire_eq] at hmax ⊢
  simp only [List.length_append] at hmax
  have hrounds := decodePartHeader_rounds {} hvalid.headers hread.headers
    (by simp only [MMS_PDU_MAX_SIZE] at hmax; omega) haligned.counted (part.data ++ rest)
  refine (decodePart_goesOn hvalid hread _).reads (ReadsBefore.bind hrounds.loop ?_)
  exact ReadsBefore.bind_last
    (decodePartBody_reads _ hshrinks haligned.data (by omega) rest) (ReadsBefore.pure _ _)

/-- Where the headers do not count up, the decoder takes the end of them for data. -/
theorem decodePart_short (hshrinks : ShrinksBase64 platform) (hvalid : part.Valid)
    (hread : part.IsRead) (hcounted : ¬ Counted 0 part.headers)
    (hmax : part.wire.length ≤ MMS_PDU_MAX_SIZE) (rest : Octets) :
    FallsShort (MmsBodyPart.decodePart platform n) rest part.wire := by
  rw [part.wire_eq] at hmax ⊢
  simp only [List.length_append] at hmax
  obtain ⟨u, v, ph, hheaders, hv, hrounds⟩ := decodePartHeader_rounds_short {}
    hvalid.headers hread.headers (by simp only [MMS_PDU_MAX_SIZE] at hmax; omega) hcounted
    (part.data ++ rest)
  have hpos := List.length_pos_iff.mpr hv
  refine (decodePart_goesOn hvalid hread _).fallsShort ?_
  by_cases hdata : part.data = []
  case pos =>
    have hfails : FailsBefore (MmsBodyPart.decodePartBody platform ph part.data.length) []
        (v ++ (part.data ++ rest)) := by
      rw [hdata]
      exact decodePartBody_fails _
    rw [hheaders, hdata, List.append_nil]
    have htail : FailsBefore (part.decodeTail platform n) (u ++ []) (v ++ (part.data ++ rest)) :=
      FailsBefore.bind hrounds.loop (FailsBefore.bind_left _ hfails)
    exact .fails (by simpa [hdata] using htail) hv
  case neg =>
    -- The data that is taken, and what of the part is left behind it.
    obtain ⟨taken, left, hsplit, htaken⟩ : ∃ taken left, v ++ part.data = taken ++ left ∧
        taken.length = part.data.length :=
      ⟨(v ++ part.data).take part.data.length, (v ++ part.data).drop part.data.length,
        (List.take_append_drop _ _).symm, by simp⟩
    have hleft : left ≠ [] := by
      rintro rfl
      have hlengths := congrArg List.length hsplit
      simp only [List.length_append, List.length_nil] at hlengths
      omega
    have hne : taken ≠ [] := by
      rintro rfl
      exact hdata (List.eq_nil_of_length_eq_zero htaken.symm)
    have hloop : ReadsBefore (MmsBodyPart.decodePartHeader {} (headersWire part.headers).length) u
        (taken ++ (left ++ rest)) ph := by
      rw [← List.append_assoc, ← hsplit, List.append_assoc]
      exact hrounds.loop
    have hbody := decodePartBody_reads ph hshrinks hne (by omega) (left ++ rest)
    rw [htaken] at hbody
    rw [hheaders, List.append_assoc, hsplit, ← List.append_assoc]
    exact .reads (ReadsBefore.bind hloop (ReadsBefore.bind_last hbody (ReadsBefore.pure _ _))) hleft

theorem decodePart_empty_fails (hvalid : part.Valid) (hread : part.IsRead)
    (hcounted : Counted 0 part.headers) (hdata : part.data = [])
    (hmax : part.wire.length ≤ MMS_PDU_MAX_SIZE) (rest : Octets) :
    FailsBefore (MmsBodyPart.decodePart platform n) part.wire rest := by
  rw [part.wire_eq] at hmax ⊢
  simp only [List.length_append] at hmax
  have hrounds := decodePartHeader_rounds {} hvalid.headers hread.headers
    (by simp only [MMS_PDU_MAX_SIZE] at hmax; omega) hcounted rest
  have hfails : FailsBefore (MmsBodyPart.decodePartBody platform (storeHeaders part.headers {})
      part.data.length) [] rest := by
    rw [hdata]
    exact decodePartBody_fails _
  refine (decodePart_goesOn hvalid hread _).fails ?_
  rw [hdata]
  exact FailsBefore.bind hrounds.loop (FailsBefore.bind_left _ hfails)

/-- What stands where the data of the part stands, without the transfer encoding of the part. -/
def HasData (platform : Platform) (part : PartValue) (part' : MmsBodyPart) : Prop :=
  part'.pbodyPartBuffer = transferred platform part'.mmsBodyPartHeader part.data

/-- The decoder takes the part to its end, and its data from the place it stands at. -/
def PartFramed (platform : Platform) (n : Nat) (part : PartValue) (rest : Octets) : Prop :=
  ∃ part', ReadsBefore (MmsBodyPart.decodePart platform n) part.wire rest part' ∧
    HasData platform part part'

theorem hasData_decoded (platform : Platform) (n : Nat) (part : PartValue) :
    HasData platform part (MmsBodyPart.decodeSetFileName platform n (part.decoded platform)) := by
  rw [HasData, decodeSetFileName_header, decodeSetFileName_buffer]
  rfl

theorem partFramed_iff (hshrinks : ShrinksBase64 platform) (hvalid : part.Valid)
    (hread : part.IsRead) (hmax : (part.wire ++ rest).length ≤ MMS_PDU_MAX_SIZE) :
    PartFramed platform n part rest ↔ part.Aligned := by
  have hpart : part.wire.length ≤ MMS_PDU_MAX_SIZE := by
    rw [List.length_append] at hmax
    omega
  have hsize : (part.wire ++ rest).length < 2 ^ 31 := by
    simp only [MMS_PDU_MAX_SIZE] at hmax
    omega
  constructor
  · rintro ⟨part', hreads, -⟩
    have hcounted : Counted 0 part.headers := by
      by_contra hcounted
      exact (decodePart_short hshrinks hvalid hread hcounted hpart rest).not_reads hsize _ hreads
    refine ⟨hcounted, fun hdata => ?_⟩
    exact (decodePart_empty_fails hvalid hread hcounted hdata hpart rest).not_reads hsize _ hreads
  · intro haligned
    exact ⟨_, decodePart_reads hshrinks hvalid hread haligned hpart rest,
      hasData_decoded platform n part⟩

end Parts

/-! ## Bodies -/

def partsWire (parts : List PartValue) : Octets := parts.flatMap PartValue.wire

/-- The parts that the decoder makes of them. It counts down for their names. -/
def decodedParts (platform : Platform) : List PartValue → List MmsBodyPart
  | [] => []
  | part :: parts =>
      MmsBodyPart.decodeSetFileName platform (parts.length + 1) (part.decoded platform) ::
        decodedParts platform parts

structure MultipartValue where
  count : Octets
  parts : List PartValue
  deriving DecidableEq, Repr

namespace MultipartValue

def wire (value : MultipartValue) : Octets := value.count ++ partsWire value.parts

structure Valid (value : MultipartValue) : Prop where
  count : IsUintvar value.parts.length value.count
  parts : ∀ part ∈ value.parts, part.Valid

end MultipartValue

section Bodies

variable {platform : Platform} {parts : List PartValue} {rest : Octets}

theorem length_le_partsWire (hvalid : ∀ part ∈ parts, part.Valid) :
    parts.length ≤ (partsWire parts).length := by
  induction parts with
  | nil => simp
  | cons part parts ih =>
      have hrest := ih fun other hother => hvalid other (List.mem_cons_of_mem part hother)
      have hpos := List.length_pos_iff.mpr (part.wire_ne_nil (hvalid part List.mem_cons_self))
      have hsplit : partsWire (part :: parts) = part.wire ++ partsWire parts := rfl
      rw [hsplit, List.length_append, List.length_cons]
      omega

theorem decodeParts_reads (hshrinks : ShrinksBase64 platform)
    (hvalid : ∀ part ∈ parts, part.Valid) (hread : ∀ part ∈ parts, part.IsRead)
    (haligned : ∀ part ∈ parts, part.Aligned) (hmax : (partsWire parts).length ≤ MMS_PDU_MAX_SIZE)
    (rest : Octets) :
    ReadsBefore (MmsBody.decodeParts platform parts.length) (partsWire parts) rest
      (decodedParts platform parts) := by
  induction parts with
  | nil => exact ReadsBefore.pure _ _
  | cons part parts ih =>
      have hsplit : partsWire (part :: parts) = part.wire ++ partsWire parts := rfl
      rw [hsplit, List.length_append] at hmax
      rw [hsplit]
      have hpart := decodePart_reads (n := parts.length + 1) hshrinks
        (hvalid part List.mem_cons_self) (hread part List.mem_cons_self)
        (haligned part List.mem_cons_self) (by omega) (partsWire parts ++ rest)
      have hrest := ih (fun other hother => hvalid other (List.mem_cons_of_mem part hother))
        (fun other hother => hread other (List.mem_cons_of_mem part hother))
        (fun other hother => haligned other (List.mem_cons_of_mem part hother)) (by omega)
      exact ReadsBefore.bind hpart (ReadsBefore.bind_last hrest (ReadsBefore.pure _ _))

theorem hasData_decodedParts (platform : Platform) (parts : List PartValue) :
    List.Forall₂ (HasData platform) parts (decodedParts platform parts) := by
  induction parts with
  | nil => exact .nil
  | cons part parts ih => exact .cons (hasData_decoded platform _ part) ih

variable {value : MultipartValue}

theorem decodeMultipart_reads (hshrinks : ShrinksBase64 platform) (hvalid : value.Valid)
    (hread : ∀ part ∈ value.parts, part.IsRead) (haligned : ∀ part ∈ value.parts, part.Aligned)
    (hmax : value.wire.length ≤ MMS_PDU_MAX_SIZE) (body : MmsBody) (rest : Octets) :
    ReadsBefore (MmsBody.decodeMultipart platform body) value.wire rest
      { body with mmsBodyParts := body.mmsBodyParts ++ decodedParts platform value.parts } := by
  rw [MultipartValue.wire, List.length_append] at hmax
  have hcount := length_le_partsWire hvalid.parts
  apply ReadsBefore.of_readsFrom
  intro n
  refine ReadsFrom.bind ((decodeUintvar_reads hvalid.count _).readsFrom _) ?_
  refine ReadsFrom.bind_nil (getSize_reads _ _) ?_
  refine ReadsFrom.bind_nil (getCurPosition_reads _ _) ?_
  refine ReadsFrom.bind_nil ((ReadsBefore.guard ?_ _).readsFrom _) ?_
  · rw [List.length_append]
    omega
  exact ReadsFrom.bind_last
    ((decodeParts_reads hshrinks hvalid.parts hread haligned (by omega) rest).readsFrom _)
    ((ReadsBefore.pure _ _).readsFrom _)

/-- The body is decoded, every part of it is taken to its end and no further, and all data
is in the parts. -/
structure MultipartFramed (platform : Platform) (value : MultipartValue) (rest : Octets) : Prop where
  takes : ∀ front part back, value.parts = front ++ part :: back →
    PartFramed platform (back.length + 1) part (partsWire back ++ rest)
  decodes : ∀ body : MmsBody, ∃ parts',
    ReadsBefore (MmsBody.decodeMultipart platform body) value.wire rest
      { body with mmsBodyParts := body.mmsBodyParts ++ parts' } ∧
    List.Forall₂ (HasData platform) value.parts parts'

theorem partsWire_length_le {front back : List PartValue} {part : PartValue}
    (hsplit : value.parts = front ++ part :: back) :
    (part.wire ++ partsWire back).length ≤ value.wire.length := by
  simp only [MultipartValue.wire, hsplit, partsWire, List.flatMap_append, List.flatMap_cons,
    List.length_append]
  omega

/-- A body is framed exactly where the headers of each part count up and there is data. -/
theorem decodeMultipart_framed_iff (hshrinks : ShrinksBase64 platform) (hvalid : value.Valid)
    (hread : ∀ part ∈ value.parts, part.IsRead)
    (hmax : (value.wire ++ rest).length ≤ MMS_PDU_MAX_SIZE) :
    MultipartFramed platform value rest ↔ ∀ part ∈ value.parts, part.Aligned := by
  rw [List.length_append] at hmax
  have hpart {front back : List PartValue} {part : PartValue}
      (hsplit : value.parts = front ++ part :: back) :
      (part.wire ++ (partsWire back ++ rest)).length ≤ MMS_PDU_MAX_SIZE := by
    have hlength := partsWire_length_le hsplit
    rw [← List.append_assoc, List.length_append]
    omega
  constructor
  · intro hframed part hmem
    obtain ⟨front, back, hsplit⟩ := List.append_of_mem hmem
    exact (partFramed_iff hshrinks (hvalid.parts part hmem) (hread part hmem) (hpart hsplit)).mp
      (hframed.takes front part back hsplit)
  · intro haligned
    constructor
    · intro front part back hsplit
      have hmem : part ∈ value.parts := by simp [hsplit]
      exact (partFramed_iff hshrinks (hvalid.parts part hmem) (hread part hmem)
        (hpart hsplit)).mpr (haligned part hmem)
    · intro body
      exact ⟨_, decodeMultipart_reads hshrinks hvalid hread haligned (by omega) body rest,
        hasData_decodedParts platform value.parts⟩

end Bodies

/-- A text whose disposition is the last header, and a picture with an application header. -/
def postcardBody : MultipartValue where
  count := [2]
  parts := [
    { headersLength := [11]
      dataLength := [2]
      contentType := .constrained (.code 0x03)
      headers := [.contentLocation 0x8e ⟨false, [0x61]⟩, .contentId [0x69],
        .contentDisposition 0xae [1] .inline .none]
      data := [0x68, 0x69] },
    { headersLength := [5]
      dataLength := [1]
      contentType := .constrained (.code 0x1e)
      headers := [.application [0x58] ⟨false, [0x79]⟩]
      data := [0x00] }]

theorem postcardBody_valid : postcardBody.Valid := by
  refine ⟨⟨by decide, by decide⟩, ?_⟩
  intro part hpart
  simp only [postcardBody, List.mem_cons, List.not_mem_nil, or_false] at hpart
  rcases hpart with rfl | rfl
  · refine ⟨⟨by decide, by decide⟩, ⟨by decide, by decide⟩,
      ⟨show (0x03 : UInt8) < 0x80 by decide, trivial, by simp⟩, ?_⟩
    intro header hheader
    simp only [List.mem_cons, List.not_mem_nil, or_false] at hheader
    rcases hheader with rfl | rfl | rfl
    · exact ⟨Or.inr (by decide), by decide, fun _ => by decide⟩
    · exact show (0 : UInt8) ∉ [0x69] by decide
    · exact ⟨Or.inl (by decide), trivial, trivial, .short (by decide)⟩
  · refine ⟨⟨by decide, by decide⟩, ⟨by decide, by decide⟩,
      ⟨show (0x1e : UInt8) < 0x80 by decide, trivial, by simp⟩, ?_⟩
    intro header hheader
    obtain rfl := List.mem_singleton.mp hheader
    exact ⟨by decide, by decide, by decide, fun _ => by decide⟩

theorem postcardBody_framed : MultipartFramed plainPlatform postcardBody [] := by
  refine (decodeMultipart_framed_iff (fun _ => Nat.zero_le _) postcardBody_valid ?_
    (by decide)).mpr ?_
  · intro part hpart
    simp only [postcardBody, List.mem_cons, List.not_mem_nil, or_false] at hpart
    rcases hpart with rfl | rfl
    · refine ⟨trivial, ?_⟩
      intro header hheader
      simp only [List.mem_cons, List.not_mem_nil, or_false] at hheader
      rcases hheader with rfl | rfl | rfl
      · trivial
      · trivial
      · rfl
    · refine ⟨trivial, ?_⟩
      intro header hheader
      obtain rfl := List.mem_singleton.mp hheader
      trivial
  · intro part hpart
    simp only [postcardBody, List.mem_cons, List.not_mem_nil, or_false] at hpart
    rcases hpart with rfl | rfl
    · exact ⟨⟨by decide, by simp [PartHeader.isApplication], by decide,
        by simp [PartHeader.isApplication], by decide, by simp [PartHeader.isApplication], trivial⟩,
        by simp⟩
    · exact ⟨⟨by decide, fun _ => rfl, trivial⟩, by simp⟩

/-- An application header in front of a location. -/
def shiftedBody : MultipartValue where
  count := [1]
  parts := [
    { headersLength := [8]
      dataLength := [2]
      contentType := .constrained (.code 0x03)
      headers := [.application [0x58] ⟨false, [0x79]⟩, .contentLocation 0x8e ⟨false, [0x61]⟩]
      data := [0x68, 0x69] }]

theorem shiftedBody_valid : shiftedBody.Valid := by
  refine ⟨⟨by decide, by decide⟩, ?_⟩
  intro part hpart
  obtain rfl := List.mem_singleton.mp hpart
  refine ⟨⟨by decide, by decide⟩, ⟨by decide, by decide⟩,
    ⟨show (0x03 : UInt8) < 0x80 by decide, trivial, by simp⟩, ?_⟩
  intro header hheader
  simp only [List.mem_cons, List.not_mem_nil, or_false] at hheader
  rcases hheader with rfl | rfl
  · exact ⟨by decide, by decide, by decide, fun _ => by decide⟩
  · exact ⟨Or.inr (by decide), by decide, fun _ => by decide⟩

/-- The location is taken for the data. -/
theorem shiftedBody_not_framed :
    shiftedBody.Valid ∧ ¬ MultipartFramed plainPlatform shiftedBody [] := by
  refine ⟨shiftedBody_valid, fun hframed => ?_⟩
  have hpart := hframed.takes [] _ [] rfl
  have haligned := (partFramed_iff (fun _ => Nat.zero_le _)
    (shiftedBody_valid.parts _ List.mem_cons_self) ⟨trivial, ?_⟩ (by decide)).mp hpart
  · obtain ⟨-, hlast, -⟩ := haligned.counted
    exact absurd (hlast rfl) (by simp)
  · intro header hheader
    simp only [List.mem_cons, List.not_mem_nil, or_false] at hheader
    rcases hheader with rfl | rfl
    · trivial
    · trivial

end TelephonySms.Mms
