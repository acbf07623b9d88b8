import TelephonySms.Machine
import TelephonySms.Mms.Body
import Mathlib.Data.List.Perm.Basic

/-! # Attachments of a message

`MmsMsg::AddAttachment` fills a part with an attachment, looks for its content id and its
content location among the parts that are there, and puts it in front of them when it is the
SMIL part and behind them otherwise. A part that is stored is a copy without the SMIL flag.
-/

namespace TelephonySms.Mms

/-! ## Labels

A label names the element that carries it, unless it is the one that stands for no label. -/

section Labels

variable {α κ : Type*} [DecidableEq κ] (label : α → κ) (blank : κ)

/-- The labels that name an element. -/
def givenLabels (xs : List α) : List κ := (xs.map label).filter (· ≠ blank)

variable {label} {blank}

theorem givenLabels_perm {xs ys : List α} (h : xs.Perm ys) :
    (givenLabels label blank xs).Perm (givenLabels label blank ys) :=
  (h.map label).filter _

theorem givenLabels_nodup_of_perm_cons {x : α} {xs ys : List α} (h : ys.Perm (x :: xs))
    (hfresh : label x ∉ xs.map label) (hxs : (givenLabels label blank xs).Nodup) :
    (givenLabels label blank ys).Nodup := by
  have hcons : (givenLabels label blank (x :: xs)).Nodup := by
    by_cases hx : label x = blank
    · have hskip : givenLabels label blank (x :: xs) = givenLabels label blank xs := by
        rw [givenLabels, List.map_cons, List.filter_cons_of_neg (by simpa using hx)]
        rfl
      rw [hskip]
      exact hxs
    · have htake : givenLabels label blank (x :: xs) =
          label x :: givenLabels label blank xs := by
        rw [givenLabels, List.map_cons, List.filter_cons_of_pos (by simpa using hx)]
        rfl
      rw [htake, List.nodup_cons]
      exact ⟨fun hmem => hfresh (List.mem_filter.1 hmem).1, hxs⟩
  exact (givenLabels_perm h).nodup_iff.2 hcons

end Labels

/-! ## Attachments -/

structure MmsAttachment where
  isSmilFile : Bool := false
  strPathName : Octets := []
  contentId : Octets := []
  contentLocation : Octets := []
  contentDispositon : Octets := []
  contenTransferEncoding : Octets := []
  contentType : Octets := []
  strFileName : Octets := []
  charset : Nat := 0
  /-- the first `dataLength_` octets of `pAttachmentBuffer_` -/
  pAttachmentBuffer : Octets := []

/-- `GetDataBuffer`, none for `nullptr`: a copy of no octets is refused. -/
def MmsAttachment.getDataBuffer (attachment : MmsAttachment) : Option Octets :=
  if attachment.pAttachmentBuffer.length > MAX_MMS_ATTACHMENT_LEN then
    none
  else if attachment.pAttachmentBuffer.length = 0 then
    none
  else
    some attachment.pAttachmentBuffer

/-- What the system answers while the file of an attachment is read. -/
structure FileSystem where
  /-- none for `NULL` -/
  realpath : Octets → Option Octets
  /-- where `ftell` finds the end, none for a file that `fopen` does not open -/
  fileLen : Octets → Option Int
  /-- the octets that `fread` reads of so many -/
  fread : Octets → Nat → Octets

def APP_SAND_ABSOLUTE_DIR : Octets := ascii "/data/app/"
def APP_SAND_RELATIVE_DIR : Octets := ascii "/data/storage/"

/-- `filePathName.substr(filePathName.find_last_of('/') + 1)`, empty without a slash. -/
def lastComponent (filePathName : Octets) : Octets :=
  if (0x2f : UInt8) ∈ filePathName then
    (filePathName.reverse.takeWhile (· ≠ 0x2f)).reverse
  else
    []

/-! ## Parts -/

namespace MmsBodyPart

variable (part : MmsBodyPart)

/-- The copy constructor: `AssignBodyPart` leaves the SMIL flag out. -/
def copy : MmsBodyPart :=
  if part.pbodyPartBuffer.length > MMS_PDU_MAX_SIZE then
    {}
  else
    { part with isSmilFile := false }

def contentId : Octets := part.mmsBodyPartHeader.strContentID

def contentLocation : Octets := part.mmsBodyPartHeader.strContentLocation

def writeBodyFromFile (files : FileSystem) (path : Octets) : Option MmsBodyPart :=
  if path = [] then
    none
  else
    -- `path.c_str()` ends at the first zero
    match files.realpath (path.takeWhile (· ≠ 0)) with
    | none => none
    | some filePath =>
        if filePath.take APP_SAND_ABSOLUTE_DIR.length ≠ APP_SAND_ABSOLUTE_DIR ∧
            filePath.take APP_SAND_RELATIVE_DIR.length ≠ APP_SAND_RELATIVE_DIR then
          none
        else
          match files.fileLen filePath with
          | none => none
          | some fileLen =>
              if fileLen ≤ 0 ∨ fileLen > MMS_PDU_MAX_SIZE then
                none
              else
                some { part with pbodyPartBuffer :=
                  (files.fread filePath fileLen.toNat).take fileLen.toNat }

def writeBodyFromAttachmentBuffer (attachment : MmsAttachment) : Option MmsBodyPart :=
  if attachment.strFileName = [] then
    none
  else
    match attachment.getDataBuffer with
    | none => none
    | some tempBuffer =>
        if tempBuffer.length = 0 ∨ tempBuffer.length > MMS_PDU_MAX_SIZE then
          none
        else
          some { part with pbodyPartBuffer := tempBuffer }

/-- The data and the name of the part: of the file, and of the buffer when the file cannot
be read. -/
def setBody (files : FileSystem) (attachment : MmsAttachment) : Option MmsBodyPart :=
  match part.writeBodyFromFile files attachment.strPathName with
  | some part =>
      some { part with strFileName :=
        if attachment.strFileName = [] then lastComponent attachment.strPathName
        else attachment.strFileName }
  | none =>
      match part.writeBodyFromAttachmentBuffer attachment with
      | some part => some { part with strFileName := attachment.strFileName }
      | none => none

/-- The setters of the content type and of the part header refuse nothing. -/
def setFields (attachment : MmsAttachment) : MmsBodyPart :=
  { part with
    isSmilFile := attachment.isSmilFile
    bodyPartContentType := {
      contentType := attachment.contentType
      msgContentParm :=
        { part.bodyPartContentType.msgContentParm.setFileName part.strFileName with
          charset := attachment.charset } }
    mmsBodyPartHeader := { part.mmsBodyPartHeader with
      strContentID := attachment.contentId
      strContentLocation := attachment.contentLocation
      strContentTransferEncoding := attachment.contenTransferEncoding
      strDisposition := attachment.contentDispositon } }

def setAttachment (files : FileSystem) (attachment : MmsAttachment) : Option MmsBodyPart :=
  match part.setBody files attachment with
  | none => none
  | some part => if part.strFileName = [] then none else some (part.setFields attachment)

end MmsBodyPart

/-! ## Bodies and messages -/

namespace MmsBody

variable (body : MmsBody)

/-- The parts are copied one after the other while they are looked through. -/
def isContentLocationPartExist (contentLocation : Octets) : Bool :=
  body.mmsBodyParts.any fun item => contentLocation == item.copy.contentLocation

def isContentIdPartExist (contentId : Octets) : Bool :=
  body.mmsBodyParts.any fun item => contentId == item.copy.contentId

def isBodyPartExist (bodyPart : MmsBodyPart) : Bool :=
  if body.isContentIdPartExist bodyPart.contentId then true
  else if body.isContentLocationPartExist bodyPart.contentLocation then true
  else false

def addMmsBodyPart (bodyPart : MmsBodyPart) : Bool × MmsBody :=
  if bodyPart.isSmilFile ∧ body.bHaveSmilPart then
    (false, body)
  else if bodyPart.isSmilFile then
    (true, ⟨true, bodyPart.copy :: body.mmsBodyParts⟩)
  else
    (true, { body with mmsBodyParts := body.mmsBodyParts ++ [bodyPart.copy] })

end MmsBody

def MmsContentParam.setType (param : MmsContentParam) (type : Octets) : MmsContentParam :=
  { param with type := type }

/-- The parameters of the header's content type name the SMIL part. -/
def MmsHeader.setSmil (header : MmsHeader) (bodyPart : MmsBodyPart) : MmsHeader :=
  let param := header.mmsContentType.msgContentParm
  { header with mmsContentType := { header.mmsContentType with
    msgContentParm := (param.setStart bodyPart.contentId).setType
      bodyPart.bodyPartContentType.contentType } }

namespace MmsMsg

variable (msg : MmsMsg)

def addAttachment (files : FileSystem) (attachment : MmsAttachment) : Bool × MmsMsg :=
  match MmsBodyPart.setAttachment {} files attachment with
  | none => (false, msg)
  | some bodyPart =>
      if msg.mmsBody.isBodyPartExist bodyPart then
        (false, msg)
      else
        let added := msg.mmsBody.addMmsBodyPart bodyPart
        let msg := { msg with mmsBody := added.2 }
        if added.1 = false then
          (false, msg)
        else if bodyPart.isSmilFile then
          (true, { msg with mmsHeader := msg.mmsHeader.setSmil bodyPart })
        else
          (true, msg)

end MmsMsg

/-! ## What a part is filled with -/

namespace MmsBodyPart

theorem copy_eq {part : MmsBodyPart} (h : part.pbodyPartBuffer.length ≤ MMS_PDU_MAX_SIZE) :
    part.copy = { part with isSmilFile := false } :=
  if_neg (Nat.not_lt.2 h)

/-- A copy of a copy is the copy. -/
theorem copy_copy (part : MmsBodyPart) : part.copy.copy = part.copy := by
  by_cases h : part.pbodyPartBuffer.length ≤ MMS_PDU_MAX_SIZE
  · rw [copy_eq h]
    exact copy_eq h
  · have hempty : part.copy = {} := if_pos (Nat.not_le.1 h)
    rw [hempty]
    exact copy_eq (Nat.zero_le _)

theorem writeBodyFromFile_length {part filled : MmsBodyPart} {files : FileSystem}
    {path : Octets} (h : part.writeBodyFromFile files path = some filled) :
    filled.pbodyPartBuffer.length ≤ MMS_PDU_MAX_SIZE := by
  unfold writeBodyFromFile at h
  split at h
  · cases h
  · split at h
    · cases h
    · split at h
      · cases h
      · split at h
        · cases h
        · rename_i fileLen _
          split at h
          · cases h
          · rename_i hlen
            have hmax : fileLen.toNat ≤ MMS_PDU_MAX_SIZE := by omega
            obtain rfl := Option.some.inj h
            exact Nat.le_trans (List.length_take_le _ _) hmax

theorem writeBodyFromAttachmentBuffer_length {part filled : MmsBodyPart}
    {attachment : MmsAttachment} (h : part.writeBodyFromAttachmentBuffer attachment = some filled) :
    filled.pbodyPartBuffer.length ≤ MMS_PDU_MAX_SIZE := by
  unfold writeBodyFromAttachmentBuffer at h
  split at h
  · cases h
  · split at h
    · cases h
    · split at h
      · cases h
      · rename_i hlen
        obtain rfl := Option.some.inj h
        exact Nat.not_lt.1 fun hlt => hlen (.inr hlt)

theorem setBody_length {part filled : MmsBodyPart} {files : FileSystem}
    {attachment : MmsAttachment} (h : part.setBody files attachment = some filled) :
    filled.pbodyPartBuffer.length ≤ MMS_PDU_MAX_SIZE := by
  unfold setBody at h
  split at h
  · rename_i hread
    have hlen := writeBodyFromFile_length hread
    obtain rfl := Option.some.inj h
    exact hlen
  · split at h
    · rename_i hread
      have hlen := writeBodyFromAttachmentBuffer_length hread
      obtain rfl := Option.some.inj h
      exact hlen
    · cases h

/-- A part that is filled has the fields of the attachment and data within the limit. -/
theorem setAttachment_spec {part filled : MmsBodyPart} {files : FileSystem}
    {attachment : MmsAttachment} (h : part.setAttachment files attachment = some filled) :
    (filled.contentId = attachment.contentId ∧
      filled.contentLocation = attachment.contentLocation) ∧
      filled.pbodyPartBuffer.length ≤ MMS_PDU_MAX_SIZE := by
  unfold setAttachment at h
  split at h
  · cases h
  · rename_i body hbody
    split at h
    · cases h
    · have hlen := setBody_length hbody
      obtain rfl := Option.some.inj h
      exact ⟨⟨rfl, rfl⟩, hlen⟩

end MmsBodyPart

/-! ## What a call does -/

namespace MmsBody

variable (body : MmsBody)

def contentIds : List Octets := body.mmsBodyParts.map (·.contentId)

def contentLocations : List Octets := body.mmsBodyParts.map (·.contentLocation)

/-- Every part is what its own copy is. -/
def Stored : Prop := ∀ item ∈ body.mmsBodyParts, item.copy = item

variable {body}

/-- Looking through the copies finds the labels of the parts. -/
theorem any_copy_iff (hstored : body.Stored) (label : MmsBodyPart → Octets) (value : Octets) :
    (body.mmsBodyParts.any fun item => value == label item.copy) = true ↔
      value ∈ body.mmsBodyParts.map label := by
  rw [List.any_eq_true, List.mem_map]
  constructor
  · intro h
    rcases h with ⟨item, hitem, heq⟩
    rw [hstored item hitem, beq_iff_eq] at heq
    exact ⟨item, hitem, heq.symm⟩
  · intro h
    rcases h with ⟨item, hitem, heq⟩
    refine ⟨item, hitem, ?_⟩
    rw [hstored item hitem, beq_iff_eq]
    exact heq.symm

theorem isBodyPartExist_iff (hstored : body.Stored) (bodyPart : MmsBodyPart) :
    body.isBodyPartExist bodyPart = true ↔
      bodyPart.contentId ∈ body.contentIds ∨
        bodyPart.contentLocation ∈ body.contentLocations := by
  have hids : body.isContentIdPartExist bodyPart.contentId = true ↔
      bodyPart.contentId ∈ body.contentIds :=
    any_copy_iff hstored MmsBodyPart.contentId _
  have hlocations : body.isContentLocationPartExist bodyPart.contentLocation = true ↔
      bodyPart.contentLocation ∈ body.contentLocations :=
    any_copy_iff hstored MmsBodyPart.contentLocation _
  rw [← hids, ← hlocations, isBodyPartExist]
  cases body.isContentIdPartExist bodyPart.contentId <;> simp

end MmsBody

/-- A call of `AddAttachment`: the attachment, and the files there are at that time. -/
structure AttachmentCall where
  files : FileSystem
  attachment : MmsAttachment

/-- The part that the call fills, none where the attachment has no valid data. -/
def AttachmentCall.part (call : AttachmentCall) : Option MmsBodyPart :=
  MmsBodyPart.setAttachment {} call.files call.attachment

namespace MmsMsg

variable (msg : MmsMsg)

def contentParam : MmsContentParam := msg.mmsHeader.mmsContentType.msgContentParm

/-- A SMIL part where there is one already. -/
def SecondSmil (part : MmsBodyPart) : Prop :=
  part.isSmilFile = true ∧ msg.mmsBody.bHaveSmilPart = true

/-- The message with one more part. -/
def withPart (part : MmsBodyPart) : MmsMsg :=
  if part.isSmilFile then
    ⟨msg.mmsHeader.setSmil part, true, part.copy :: msg.mmsBody.mmsBodyParts⟩
  else
    ⟨msg.mmsHeader, msg.mmsBody.bHaveSmilPart, msg.mmsBody.mmsBodyParts ++ [part.copy]⟩

/-- One call, and the part it adds. -/
def attach (call : AttachmentCall) : MmsMsg × List MmsBodyPart :=
  let result := msg.addAttachment call.files call.attachment
  (result.2, if result.1 then call.part.toList else [])

variable {msg}

theorem addAttachment_of_none {call : AttachmentCall} (h : call.part = none) :
    msg.addAttachment call.files call.attachment = (false, msg) := by
  rw [AttachmentCall.part] at h
  rw [addAttachment, h]

/-- A part that exists or is a second SMIL part is refused, and every other is added. -/
theorem addAttachment_of_some (msg : MmsMsg) {call : AttachmentCall} {part : MmsBodyPart}
    (h : call.part = some part) :
    ((msg.mmsBody.isBodyPartExist part = true ∨ msg.SecondSmil part) ∧
      msg.addAttachment call.files call.attachment = (false, msg)) ∨
    ((msg.mmsBody.isBodyPartExist part = false ∧ ¬ msg.SecondSmil part) ∧
      msg.addAttachment call.files call.attachment = (true, msg.withPart part)) := by
  rw [AttachmentCall.part] at h
  simp only [addAttachment, h, SecondSmil, MmsBody.addMmsBodyPart, withPart]
  by_cases hexist : msg.mmsBody.isBodyPartExist part = true
  · exact .inl ⟨.inl hexist, if_pos hexist⟩
  · by_cases hsmil : part.isSmilFile = true
    · by_cases hhave : msg.mmsBody.bHaveSmilPart = true <;> simp [hexist, hsmil, hhave]
    · simp [hexist, hsmil]

/-- What a call does: it changes nothing, or adds a part that is there only once. -/
theorem attach_cases (msg : MmsMsg) (call : AttachmentCall) :
    msg.attach call = (msg, []) ∨
      ∃ part, call.part = some part ∧ msg.mmsBody.isBodyPartExist part = false ∧
        ¬ msg.SecondSmil part ∧ msg.attach call = (msg.withPart part, [part]) := by
  cases hpart : call.part with
  | none => exact .inl (by rw [attach, addAttachment_of_none hpart]; rfl)
  | some part =>
      rcases addAttachment_of_some msg hpart with ⟨_, hcall⟩ | ⟨⟨hnew, hsmil⟩, hcall⟩
      · exact .inl (by rw [attach, hcall]; rfl)
      · exact .inr ⟨part, rfl, hnew, hsmil, by rw [attach, hcall, hpart]; rfl⟩

/-! ## Runs -/

/-- The parts of the message are those that have been added, and no two of them share the
content id or the content location that they have. -/
structure PartsKept (added : List MmsBodyPart) (msg : MmsMsg) : Prop where
  stored : msg.mmsBody.mmsBodyParts.Perm (added.map MmsBodyPart.copy)
  contentIds_nodup : (givenLabels MmsBodyPart.contentId [] msg.mmsBody.mmsBodyParts).Nodup
  contentLocations_nodup :
    (givenLabels MmsBodyPart.contentLocation [] msg.mmsBody.mmsBodyParts).Nodup

/-- At most one part that has been added is the SMIL part, it is the first one, and the start
parameter names it. -/
structure SmilKept (added : List MmsBodyPart) (msg : MmsMsg) : Prop where
  haveSmil : msg.mmsBody.bHaveSmilPart = true ↔ ∃ part ∈ added, part.isSmilFile = true
  smil_unique : (added.filter (·.isSmilFile)).length ≤ 1
  smil_first : ∀ part ∈ added, part.isSmilFile = true →
    msg.mmsBody.mmsBodyParts.head? = some part.copy
  start_names : ∀ part ∈ added, part.isSmilFile = true → part.contentId ≠ [] →
    msg.contentParam.textMap ContentParam.CT_P_START = some part.contentId

/-- What holds of a message to which these parts have been added. -/
structure AttachmentsKept (added : List MmsBodyPart) (msg : MmsMsg) : Prop
    extends PartsKept added msg, SmilKept added msg

/-- The parts added have data within the limit, and no start is named before a SMIL part. -/
structure AttachmentsInvariant (added : List MmsBodyPart) (msg : MmsMsg) : Prop
    extends AttachmentsKept added msg where
  small : ∀ part ∈ added, part.pbodyPartBuffer.length ≤ MMS_PDU_MAX_SIZE
  start_unset : msg.mmsBody.bHaveSmilPart = false →
    msg.contentParam.textMap ContentParam.CT_P_START = none

theorem AttachmentsInvariant.storedParts {added : List MmsBodyPart}
    (h : AttachmentsInvariant added msg) : msg.mmsBody.Stored := by
  intro item hitem
  rcases List.mem_map.1 (h.stored.mem_iff.1 hitem) with ⟨part, _, rfl⟩
  exact part.copy_copy

theorem withPart_of_smil (msg : MmsMsg) {part : MmsBodyPart} (h : part.isSmilFile = true) :
    msg.withPart part =
      ⟨msg.mmsHeader.setSmil part, true, part.copy :: msg.mmsBody.mmsBodyParts⟩ :=
  if_pos h

theorem withPart_of_not_smil (msg : MmsMsg) {part : MmsBodyPart} (h : ¬ part.isSmilFile = true) :
    msg.withPart part =
      ⟨msg.mmsHeader, msg.mmsBody.bHaveSmilPart, msg.mmsBody.mmsBodyParts ++ [part.copy]⟩ :=
  if_neg h

theorem withPart_perm (msg : MmsMsg) (part : MmsBodyPart) :
    (msg.withPart part).mmsBody.mmsBodyParts.Perm (part.copy :: msg.mmsBody.mmsBodyParts) := by
  by_cases h : part.isSmilFile = true
  · rw [withPart_of_smil msg h]
  · rw [withPart_of_not_smil msg h]
    exact List.perm_append_singleton _ _

/-- The first start that is named stays. -/
theorem setSmil_start {header : MmsHeader} {part : MmsBodyPart}
    (hunset : header.mmsContentType.msgContentParm.textMap ContentParam.CT_P_START = none)
    (hid : part.contentId ≠ []) :
    (header.setSmil part).mmsContentType.msgContentParm.textMap ContentParam.CT_P_START =
      some part.contentId := by
  simp only [MmsHeader.setSmil, MmsContentParam.setType, MmsContentParam.setStart, if_neg hid,
    MmsContentParam.insert, hunset, Function.update_self]

/-- The parts stay apart by every label that the new part does not share. -/
theorem givenLabels_withPart (label : MmsBodyPart → Octets) {part : MmsBodyPart}
    (hlabel : label part.copy = label part)
    (hfresh : label part ∉ msg.mmsBody.mmsBodyParts.map label)
    (h : (givenLabels label [] msg.mmsBody.mmsBodyParts).Nodup) :
    (givenLabels label [] (msg.withPart part).mmsBody.mmsBodyParts).Nodup := by
  rw [← hlabel] at hfresh
  exact givenLabels_nodup_of_perm_cons (withPart_perm msg part) hfresh h

/-- The first SMIL part goes to the front, and the start parameter names it. -/
theorem SmilKept.withSmil {added : List MmsBodyPart} {part : MmsBodyPart}
    (h : SmilKept added msg) (hsmil : part.isSmilFile = true)
    (hflag : msg.mmsBody.bHaveSmilPart = false)
    (hunset : msg.contentParam.textMap ContentParam.CT_P_START = none) :
    SmilKept (added ++ [part]) (msg.withPart part) := by
  have hnone : ∀ q ∈ added, ¬ q.isSmilFile = true := by
    intro q hq hqsmil
    have hhave := h.haveSmil.2 ⟨q, hq, hqsmil⟩
    rw [hflag] at hhave
    exact Bool.false_ne_true hhave
  have honly : ∀ q ∈ added ++ [part], q.isSmilFile = true → q = part := by
    intro q hq hqsmil
    rcases List.mem_append.1 hq with hq | hq
    · exact absurd hqsmil (hnone q hq)
    · exact List.mem_singleton.1 hq
  rw [withPart_of_smil msg hsmil]
  constructor
  · exact iff_of_true rfl ⟨part, by simp, hsmil⟩
  · rw [List.filter_append, List.filter_eq_nil_iff.2 hnone]
    exact List.length_filter_le _ _
  · intro q hq hqsmil
    rw [honly q hq hqsmil]
    rfl
  · intro q hq hqsmil hid
    rw [honly q hq hqsmil] at hid ⊢
    exact setSmil_start hunset hid

/-- A part that is no SMIL part goes to the end. -/
theorem SmilKept.withOther {added : List MmsBodyPart} {part : MmsBodyPart}
    (h : SmilKept added msg) (hsmil : ¬ part.isSmilFile = true) :
    SmilKept (added ++ [part]) (msg.withPart part) := by
  have holder : ∀ q ∈ added ++ [part], q.isSmilFile = true → q ∈ added := by
    intro q hq hqsmil
    rcases List.mem_append.1 hq with hq | hq
    · exact hq
    · rw [List.mem_singleton.1 hq] at hqsmil
      exact absurd hqsmil hsmil
  rw [withPart_of_not_smil msg hsmil]
  constructor
  · constructor
    · intro hhave
      rcases h.haveSmil.1 hhave with ⟨q, hq, hqsmil⟩
      exact ⟨q, List.mem_append_left _ hq, hqsmil⟩
    · intro hsome
      rcases hsome with ⟨q, hq, hqsmil⟩
      exact h.haveSmil.2 ⟨q, holder q hq hqsmil, hqsmil⟩
  · have hlast : [part].filter (·.isSmilFile) = [] := by simp [hsmil]
    rw [List.filter_append, hlast, List.append_nil]
    exact h.smil_unique
  · intro q hq hqsmil
    rw [List.head?_append, h.smil_first q (holder q hq hqsmil) hqsmil]
    rfl
  · intro q hq hqsmil hid
    exact h.start_names q (holder q hq hqsmil) hqsmil hid

theorem AttachmentsInvariant.partsKept_withPart {added : List MmsBodyPart} {part : MmsBodyPart}
    (h : AttachmentsInvariant added msg)
    (hsmall : part.pbodyPartBuffer.length ≤ MMS_PDU_MAX_SIZE)
    (hnew : msg.mmsBody.isBodyPartExist part = false) :
    PartsKept (added ++ [part]) (msg.withPart part) := by
  have hcopy := MmsBodyPart.copy_eq hsmall
  have hfresh : ¬ (part.contentId ∈ msg.mmsBody.contentIds ∨
      part.contentLocation ∈ msg.mmsBody.contentLocations) := by
    rw [← MmsBody.isBodyPartExist_iff h.storedParts, hnew]
    exact Bool.false_ne_true
  constructor
  · rw [List.map_append]
    exact ((withPart_perm msg part).trans (h.stored.cons _)).trans
      (List.perm_append_singleton _ _).symm
  · apply givenLabels_withPart MmsBodyPart.contentId
    · rw [hcopy]
      rfl
    · exact fun hmem => hfresh (.inl hmem)
    · exact h.contentIds_nodup
  · apply givenLabels_withPart MmsBodyPart.contentLocation
    · rw [hcopy]
      rfl
    · exact fun hmem => hfresh (.inr hmem)
    · exact h.contentLocations_nodup

/-- What an accepted call preserves. -/
theorem AttachmentsInvariant.withPart {added : List MmsBodyPart} {part : MmsBodyPart}
    (h : AttachmentsInvariant added msg)
    (hsmall : part.pbodyPartBuffer.length ≤ MMS_PDU_MAX_SIZE)
    (hnew : msg.mmsBody.isBodyPartExist part = false) (hsecond : ¬ msg.SecondSmil part) :
    AttachmentsInvariant (added ++ [part]) (msg.withPart part) := by
  have hparts := h.partsKept_withPart hsmall hnew
  have hsmall' : ∀ q ∈ added ++ [part], q.pbodyPartBuffer.length ≤ MMS_PDU_MAX_SIZE := by
    intro q hq
    rcases List.mem_append.1 hq with hq | hq
    · exact h.small q hq
    · rw [List.mem_singleton.1 hq]
      exact hsmall
  by_cases hsmil : part.isSmilFile = true
  · have hflag : msg.mmsBody.bHaveSmilPart = false :=
      Bool.eq_false_iff.2 fun hhave => hsecond ⟨hsmil, hhave⟩
    have hkept := h.toSmilKept.withSmil hsmil hflag (h.start_unset hflag)
    refine ⟨⟨hparts, hkept⟩, hsmall', ?_⟩
    intro hflag'
    rw [withPart_of_smil msg hsmil] at hflag'
    cases hflag'
  · have hkept := h.toSmilKept.withOther hsmil
    refine ⟨⟨hparts, hkept⟩, hsmall', ?_⟩
    intro hflag
    rw [withPart_of_not_smil msg hsmil] at hflag ⊢
    exact h.start_unset hflag

/-- What every call preserves, whatever it is given. -/
theorem AttachmentsInvariant.attach {added : List MmsBodyPart} (h : AttachmentsInvariant added msg)
    (call : AttachmentCall) :
    AttachmentsInvariant (added ++ (msg.attach call).2) (msg.attach call).1 := by
  rcases attach_cases msg call with hsame | ⟨part, hpart, hnew, hsecond, hadd⟩
  · rw [hsame, List.append_nil]
    exact h
  · rw [hadd]
    exact h.withPart (MmsBodyPart.setAttachment_spec hpart).2 hnew hsecond

/-- A message without parts, whatever its header fields and its content type are. -/
def withoutParts (header : MmsHeader) : MmsMsg :=
  { mmsHeader := { header with
      mmsContentType := { contentType := header.mmsContentType.contentType } } }

theorem withoutParts_invariant (header : MmsHeader) :
    AttachmentsInvariant [] (withoutParts header) := by
  refine ⟨⟨⟨List.Perm.refl _, List.nodup_nil, List.nodup_nil⟩, ?_, ?_, ?_, ?_⟩, ?_, ?_⟩
  · simp [withoutParts]
  · exact Nat.zero_le _
  all_goals simp [withoutParts, contentParam]

theorem attachments_invariant (header : MmsHeader) (calls : List AttachmentCall) :
    AttachmentsInvariant (Machine.outputs attach (withoutParts header) calls)
      (calls.foldl (Machine.next attach) (withoutParts header)) :=
  Machine.outputs_invariant (fun _ _ call h => h.attach call) calls
    (withoutParts_invariant header)

/-! ## What is refused -/

/-- The part shares the content id or the content location that it has with a part of the
message. -/
def SharesLabel (msg : MmsMsg) (part : MmsBodyPart) : Prop :=
  (part.contentId ≠ [] ∧ part.contentId ∈ msg.mmsBody.contentIds) ∨
    (part.contentLocation ≠ [] ∧ part.contentLocation ∈ msg.mmsBody.contentLocations)

/-- A call that is refused changes nothing, and with valid data it is refused for a label
that is shared or for a second SMIL part only. -/
structure Judged (msg : MmsMsg) (call : AttachmentCall) : Prop where
  unchanged : (msg.addAttachment call.files call.attachment).1 = false →
    (msg.addAttachment call.files call.attachment).2 = msg
  refused : (msg.addAttachment call.files call.attachment).1 = false →
    ∀ part ∈ call.part, msg.SharesLabel part ∨ msg.SecondSmil part

/-- The attachment lacks a label that a part of the message lacks too. -/
def LacksSame (msg : MmsMsg) (attachment : MmsAttachment) : Prop :=
  (attachment.contentId = [] ∧ [] ∈ msg.mmsBody.contentIds) ∨
    (attachment.contentLocation = [] ∧ [] ∈ msg.mmsBody.contentLocations)

/-- Where a label is lacking twice, the call is to be refused for another reason. -/
def RefusedAnyway (msg : MmsMsg) (call : AttachmentCall) : Prop :=
  msg.LacksSame call.attachment → ∀ part ∈ call.part, msg.SharesLabel part ∨ msg.SecondSmil part

instance (msg : MmsMsg) (part : MmsBodyPart) : Decidable (msg.SharesLabel part) :=
  inferInstanceAs (Decidable (_ ∨ _))

instance (msg : MmsMsg) (part : MmsBodyPart) : Decidable (msg.SecondSmil part) :=
  inferInstanceAs (Decidable (_ ∧ _))

/-- What is found in a list is found as what it is, or as the blank. -/
theorem mem_iff_given_or_blank (value : Octets) (values : List Octets) :
    value ∈ values ↔ (value ≠ [] ∧ value ∈ values) ∨ (value = [] ∧ [] ∈ values) := by
  by_cases h : value = []
  · simp [h]
  · simp [h]

/-- A label that is found among the parts is shared, or it is lacking on both sides. -/
theorem isBodyPartExist_iff_shares_or_lacks (hstored : msg.mmsBody.Stored)
    {call : AttachmentCall} {part : MmsBodyPart} (hpart : call.part = some part) :
    msg.mmsBody.isBodyPartExist part = true ↔
      msg.SharesLabel part ∨ msg.LacksSame call.attachment := by
  have hlabels := (MmsBodyPart.setAttachment_spec hpart).1
  rw [MmsBody.isBodyPartExist_iff hstored, mem_iff_given_or_blank part.contentId,
    mem_iff_given_or_blank part.contentLocation, SharesLabel, LacksSame, ← hlabels.1,
    ← hlabels.2]
  exact or_or_or_comm

/-- With valid data a call is refused for a shared label, for a second SMIL part or for a
label that is lacking twice. -/
theorem refused_iff (hstored : msg.mmsBody.Stored) {call : AttachmentCall} {part : MmsBodyPart}
    (hpart : call.part = some part) :
    (msg.addAttachment call.files call.attachment).1 = false ↔
      (msg.SharesLabel part ∨ msg.SecondSmil part) ∨ msg.LacksSame call.attachment := by
  have hexist := isBodyPartExist_iff_shares_or_lacks hstored hpart
  rcases addAttachment_of_some msg hpart with ⟨hwhy, hcall⟩ | ⟨⟨hnew, hsecond⟩, hcall⟩
  · rw [hcall, or_right_comm, ← hexist]
    exact iff_of_true rfl hwhy
  · rw [hcall, or_right_comm, ← hexist, hnew]
    exact iff_of_false Bool.false_ne_true.symm (not_or.2 ⟨Bool.false_ne_true, hsecond⟩)

theorem refused_unchanged (msg : MmsMsg) (call : AttachmentCall)
    (h : (msg.addAttachment call.files call.attachment).1 = false) :
    (msg.addAttachment call.files call.attachment).2 = msg := by
  cases hpart : call.part with
  | none => rw [addAttachment_of_none hpart]
  | some part =>
      rcases addAttachment_of_some msg hpart with ⟨_, hcall⟩ | ⟨_, hcall⟩
      · rw [hcall]
      · rw [hcall] at h
        cases h

theorem judged_iff (hstored : msg.mmsBody.Stored) (call : AttachmentCall) :
    msg.Judged call ↔ msg.RefusedAnyway call := by
  constructor
  · intro h hlacks part hpart
    exact h.refused ((refused_iff hstored hpart).2 (.inr hlacks)) part hpart
  · intro h
    constructor
    · exact refused_unchanged msg call
    · intro hrefused part hpart
      rcases (refused_iff hstored hpart).1 hrefused with hwhy | hlacks
      · exact hwhy
      · exact h hlacks part hpart

/-- What a run of calls has to keep: the message after every call, and why a call is
refused. -/
structure AttachmentsProperty (msg : MmsMsg) (calls : List AttachmentCall) : Prop where
  kept : ∀ earlier, earlier <+: calls →
    AttachmentsKept (Machine.outputs attach msg earlier)
      (earlier.foldl (Machine.next attach) msg)
  judged : Machine.Guarded (Machine.next attach) Judged msg calls

/-- In every run the parts stay apart and the SMIL part stays first. A call is refused for a
wrong reason exactly when the attachment lacks a label that a part lacks too. -/
theorem attachmentsProperty_iff (header : MmsHeader) (calls : List AttachmentCall) :
    AttachmentsProperty (withoutParts header) calls ↔
      Machine.Guarded (Machine.next attach) RefusedAnyway (withoutParts header) calls := by
  have hpreserves : ∀ (msg : MmsMsg) (call : AttachmentCall),
      (∃ added, AttachmentsInvariant added msg) →
        ∃ added, AttachmentsInvariant added (Machine.next attach msg call) := by
    intro msg call h
    rcases h with ⟨added, h⟩
    exact ⟨_, h.attach call⟩
  have hagree : ∀ (msg : MmsMsg) (call : AttachmentCall),
      (∃ added, AttachmentsInvariant added msg) → (msg.Judged call ↔ msg.RefusedAnyway call) := by
    intro msg call h
    rcases h with ⟨added, h⟩
    exact judged_iff h.storedParts call
  have hjudged := Machine.guarded_iff_of_invariant hpreserves hagree calls
    ⟨[], withoutParts_invariant header⟩
  rw [← hjudged]
  constructor
  · exact fun h => h.judged
  · intro h
    exact ⟨fun earlier _ => (attachments_invariant header earlier).toAttachmentsKept, h⟩

/-- An attachment without a content id, with its data in the buffer. -/
def unnamed (fileName : Octets) : AttachmentCall where
  files := ⟨fun _ => none, fun _ => none, fun _ _ => []⟩
  attachment := {
    contentLocation := fileName
    contentType := ascii "text/plain"
    strFileName := fileName
    pAttachmentBuffer := ascii "x" }

/-- The second attachment without a content id is refused, although it shares nothing. -/
theorem unnamed_twice_refused :
    ¬ AttachmentsProperty (withoutParts {}) [unnamed (ascii "a.txt"), unnamed (ascii "b.txt")] := by
  intro h
  have hsecond := h.judged.2.1.refused (by decide) _ rfl
  exact absurd hsecond (by decide)

end MmsMsg

end TelephonySms.Mms
