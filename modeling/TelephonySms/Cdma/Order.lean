import TelephonySms.Cdma.RoundTrip
import Mathlib.Data.List.Nodup
import Mathlib.Data.List.Perm.Subperm

/-! # The order of records

Records in another order. A record sets one field of the message, so that records of different
fields can be read in any order. What the readers of two of them take from elsewhere decides the
rest: user data is read with the indicator of the message identifier, and bearer data is scanned up
to the end of the buffer.
-/

namespace TelephonySms.Cdma

open TelephonySms.Pdu
open SmsPduBuffer

/-! ## Fields of a teleservice message -/

/-- The field that a sub-parameter sets; a reserved one sets none. -/
inductive TeleserviceField where
  | msgId
  | userData
  | cmasData
  | timeStamp
  | valPeriod
  | deferValPeriod
  | priority
  | privacy
  | replyOpt
  | numMsg
  | alertPriority
  | language
  | callbackNumber
  | displayMode
  | depositId
  | vmn
  | vmnAck
  | respCode
  | msgStatus
  | tpFailCause
  | none (id : UInt8)
deriving DecidableEq

def SubParameter.field : SubParameter → TeleserviceField
  | .messageId => .msgId
  | .userData => .userData
  | .cmasData => .cmasData
  | .userResponseCode => .respCode
  | .messageCenterTimeStamp => .timeStamp
  | .validityPeriodAbsolute => .valPeriod
  | .validityPeriodRelative => .valPeriod
  | .deferredDeliveryTimeAbsolute => .deferValPeriod
  | .deferredDeliveryTimeRelative => .deferValPeriod
  | .priorityIndicator => .priority
  | .privacyIndicator => .privacy
  | .replyOption => .replyOpt
  | .numberOfMessages => .numMsg
  | .alertOnMsgDelivery => .alertPriority
  | .languageIndicator => .language
  | .callbackNumber => .callbackNumber
  | .messageDisplayMode => .displayMode
  | .messageDepositIndex => .depositId
  | .messageStatus => .msgStatus
  | .tpFailureCause => .tpFailCause
  | .enhancedVmn => .vmn
  | .enhancedVmnAck => .vmnAck
  | .reserved id => .none id

namespace TeleserviceField

/-- A message with one field of another. -/
def copy (field : TeleserviceField) (src dst : CdmaTeleserviceMsg) : CdmaTeleserviceMsg :=
  match field with
  | .msgId => { dst with msgId := src.msgId }
  | .userData => { dst with userData := src.userData }
  | .cmasData => { dst with cmasData := src.cmasData }
  | .timeStamp => { dst with timeStamp := src.timeStamp }
  | .valPeriod => { dst with valPeriod := src.valPeriod }
  | .deferValPeriod => { dst with deferValPeriod := src.deferValPeriod }
  | .priority => { dst with priority := src.priority }
  | .privacy => { dst with privacy := src.privacy }
  | .replyOpt => { dst with replyOpt := src.replyOpt }
  | .numMsg => { dst with numMsg := src.numMsg }
  | .alertPriority => { dst with alertPriority := src.alertPriority }
  | .language => { dst with language := src.language }
  | .callbackNumber => { dst with callbackNumber := src.callbackNumber }
  | .displayMode => { dst with displayMode := src.displayMode }
  | .depositId => { dst with depositId := src.depositId }
  | .vmn => { dst with vmn := src.vmn }
  | .vmnAck => { dst with vmnAck := src.vmnAck }
  | .respCode => { dst with respCode := src.respCode }
  | .msgStatus => { dst with msgStatus := src.msgStatus }
  | .tpFailCause => { dst with tpFailCause := src.tpFailCause }
  | .none _ => dst

theorem copy_comm {f g : TeleserviceField} (h : f ≠ g) (src src' dst : CdmaTeleserviceMsg) :
    f.copy src (g.copy src' dst) = g.copy src' (f.copy src dst) := by
  cases f <;> cases g <;> first | rfl | exact absurd rfl h

theorem msgId_copy {f : TeleserviceField} (h : f ≠ .msgId) (src dst : CdmaTeleserviceMsg) :
    (f.copy src dst).msgId = dst.msgId := by
  cases f <;> first | rfl | exact absurd rfl h

theorem callbackNumber_copy {f : TeleserviceField} (h : f ≠ .callbackNumber)
    (src dst : CdmaTeleserviceMsg) : (f.copy src dst).callbackNumber = dst.callbackNumber := by
  cases f <;> first | rfl | exact absurd rfl h

end TeleserviceField

theorem SubParameter.field_ne_msgId {par : SubParameter} (h : par ≠ .messageId) :
    par.field ≠ .msgId := by
  cases par with
  | messageId => exact absurd rfl h
  | _ => nofun

/-- What a reader makes of a message: one field of it, for which two readers look elsewhere. -/
theorem SubParameter.decode_copy (coder : TextCoder) (par : SubParameter)
    {msg other : CdmaTeleserviceMsg}
    (hheader : par = .userData → other.msgId.headerInd = msg.msgId.headerInd)
    (hcallback : par = .callbackNumber → other.callbackNumber = msg.callbackNumber)
    (b : SmsPduBuffer) :
    par.decode coder other b =
      (par.decode coder msg b).map fun r => (par.field.copy r.1 other, r.2) := by
  symm
  cases par with
  | userData =>
      refine Option.map_bind.trans ?_
      rw [← hheader rfl]
      rfl
  | callbackNumber =>
      refine Option.map_bind.trans ?_
      rw [← hcallback rfl]
      rfl
  | _ => exact Option.map_bind.trans rfl

/-! ## Sub-parameters -/

/-- A message that announces headers, or none. -/
def announced (headerInd : Bool) : CdmaTeleserviceMsg :=
  { CdmaTeleserviceMsg.zero with msgId := ⟨0, headerInd⟩ }

/-- User data comes behind the message identifier. -/
def IdFirst (parameter : UInt8 → SubParameter) (subs : List RawRecord) : Prop :=
  ∀ before r after, subs = before ++ r :: after → parameter r.id = .userData →
    ∃ s ∈ before, parameter s.id = .messageId

section SubRecords

variable {coder : TextCoder} {parameter : UInt8 → SubParameter} {headerInd : Bool}
variable {value : RawRecord → CdmaTeleserviceMsg} {subs : List RawRecord}

theorem IdFirst.tail {r : RawRecord} (h : IdFirst parameter (r :: subs))
    (hne : parameter r.id ≠ .messageId) : IdFirst parameter subs := by
  intro before s after hsubs hdata
  obtain ⟨m, hm, hid⟩ := h (r :: before) s after (by rw [hsubs, List.cons_append]) hdata
  cases hm with
  | head => exact absurd hid hne
  | tail _ hm => exact ⟨m, hm, hid⟩

theorem IdFirst.head_ne {r : RawRecord} (h : IdFirst parameter (r :: subs)) :
    parameter r.id ≠ .userData := by
  intro hdata
  obtain ⟨m, hm, -⟩ := h [] r subs rfl hdata
  cases hm

/-- A record is read as it is into a message that announces the same. -/
theorem reads_copy {par : SubParameter} {old msg : CdmaTeleserviceMsg} {w : List Bool}
    (h : Reads (par.decode coder (announced headerInd)) w msg)
    (hheader : par = .userData → old.msgId.headerInd = headerInd)
    (hcallback : par = .callbackNumber →
      old.callbackNumber = CdmaTeleserviceMsg.zero.callbackNumber) :
    Reads (par.decode coder old) w (par.field.copy msg old) := by
  intro passed rest hpassed
  have hdecode : par.decode coder old (bitCursor passed (w ++ rest)) =
      (par.decode coder (announced headerInd) (bitCursor passed (w ++ rest))).map
        fun r => (par.field.copy r.1 old, r.2) :=
    @SubParameter.decode_copy coder par (announced headerInd) old hheader hcallback _
  rw [hdecode, h passed rest hpassed, Option.map_some]

/-- The records of bearer data, each into its own field. -/
theorem reads_subRecords
    (hvalue : ∀ r ∈ subs, Reads ((parameter r.id).decode coder (announced headerInd)) r.bits
      (value r))
    (hid : ∀ r ∈ subs, parameter r.id = .messageId → (value r).msgId.headerInd = headerInd)
    (hfields : (subs.map fun r => (parameter r.id).field).Nodup) {old : CdmaTeleserviceMsg}
    (hheader : old.msgId.headerInd = headerInd ∨ IdFirst parameter subs)
    (hcallback : ∀ r ∈ subs, parameter r.id = .callbackNumber →
      old.callbackNumber = CdmaTeleserviceMsg.zero.callbackNumber) :
    Reads (decodeSubParameters coder (subs.map fun r => parameter r.id) old)
      (subs.flatMap RawRecord.bits)
      (subs.foldl (fun msg r => (parameter r.id).field.copy (value r) msg) old) := by
  induction subs generalizing old with
  | nil =>
      intro passed rest _
      simp [decodeSubParameters]
  | cons r subs ih =>
      intro passed rest hpassed
      obtain ⟨hother, hfields⟩ := List.nodup_cons.mp hfields
      have hlen := r.length_bits_mod
      have hread := reads_copy (hvalue r List.mem_cons_self)
        (fun hdata => hheader.resolve_right fun hfirst => hfirst.head_ne hdata)
        (hcallback r List.mem_cons_self) passed (subs.flatMap RawRecord.bits ++ rest) hpassed
      -- The identifier of the message announces its headers; the others leave what is announced.
      have hheader' : ((parameter r.id).field.copy (value r) old).msgId.headerInd = headerInd ∨
          IdFirst parameter subs := by
        by_cases hmessage : parameter r.id = .messageId
        · left
          rw [hmessage]
          exact hid r List.mem_cons_self hmessage
        · rw [TeleserviceField.msgId_copy (SubParameter.field_ne_msgId hmessage)]
          exact hheader.imp_right fun hfirst => hfirst.tail hmessage
      have hcallback' : ∀ s ∈ subs, parameter s.id = .callbackNumber →
          ((parameter r.id).field.copy (value r) old).callbackNumber =
            CdmaTeleserviceMsg.zero.callbackNumber := by
        intro s hs hnumber
        have hfield : (parameter r.id).field ≠ .callbackNumber := by
          intro hsame
          have hboth : (parameter s.id).field = (parameter r.id).field := by
            rw [hsame, hnumber]
            rfl
          exact hother (List.mem_map.mpr ⟨s, hs, hboth⟩)
        rw [TeleserviceField.callbackNumber_copy hfield]
        exact hcallback s (List.mem_cons_of_mem r hs) hnumber
      have hrest := ih (fun s hs => hvalue s (List.mem_cons_of_mem r hs))
        (fun s hs => hid s (List.mem_cons_of_mem r hs)) hfields hheader' hcallback'
        (passed ++ r.bits) rest (by rw [List.length_append]; omega)
      simp only [List.map_cons, List.flatMap_cons, List.append_assoc, decodeSubParameters, hread,
        Option.bind_eq_bind, Option.bind_some, List.foldl_cons] at hrest ⊢
      exact hrest

/-- Records of different fields in any order. -/
theorem foldl_copy_perm {subs' : List RawRecord} (h : subs.Perm subs')
    (hfields : (subs.map fun r => (parameter r.id).field).Nodup) (old : CdmaTeleserviceMsg) :
    subs.foldl (fun msg r => (parameter r.id).field.copy (value r) msg) old =
      subs'.foldl (fun msg r => (parameter r.id).field.copy (value r) msg) old := by
  refine h.foldl_eq' (fun r hr s hs msg => ?_) old
  by_cases hsame : r = s
  · rw [hsame]
  · refine TeleserviceField.copy_comm (fun hfield => hsame ?_) _ _ _
    exact (List.inj_on_of_nodup_map hfields hs hr hfield).symm

end SubRecords

/-! ## Transport parameters -/

/-- The field that a transport parameter sets. -/
inductive TransportField where
  | teleserviceId
  | serviceCtg
  | address
  | subAddress
  | replySeq
  | causeCode
  | telesvcMsg
deriving DecidableEq

def ParameterRecord.field : ParameterRecord → TransportField
  | .teleserviceId => .teleserviceId
  | .serviceCategory => .serviceCtg
  | .address _ => .address
  | .subaddress _ => .subAddress
  | .bearerReply => .replySeq
  | .causeCodes => .causeCode
  | .bearerData _ => .telesvcMsg

namespace TransportField

def copy (field : TransportField) (src dst : CdmaTransportMsg) : CdmaTransportMsg :=
  match field with
  | .teleserviceId => { dst with teleserviceId := src.teleserviceId }
  | .serviceCtg => { dst with serviceCtg := src.serviceCtg }
  | .address => { dst with address := src.address }
  | .subAddress => { dst with subAddress := src.subAddress }
  | .replySeq => { dst with replySeq := src.replySeq }
  | .causeCode => { dst with causeCode := src.causeCode }
  | .telesvcMsg => { dst with telesvcMsg := src.telesvcMsg }

theorem copy_comm {f g : TransportField} (h : f ≠ g) (src src' dst : CdmaTransportMsg) :
    f.copy src (g.copy src' dst) = g.copy src' (f.copy src dst) := by
  cases f <;> cases g <;> first | rfl | exact absurd rfl h

theorem telesvcMsg_copy {f : TransportField} (h : f ≠ .telesvcMsg) (src dst : CdmaTransportMsg) :
    (f.copy src dst).telesvcMsg = dst.telesvcMsg := by
  cases f <;> first | rfl | exact absurd rfl h

end TransportField

/-- What the reader of a parameter makes of a message; cause codes keep a class without a name. -/
theorem ParameterRecord.decode_copy (coder : TextCoder) {par : ParameterRecord}
    (hcause : par ≠ .causeCodes) (hbearer : par.field ≠ .telesvcMsg)
    (msg other : CdmaTransportMsg) (b : SmsPduBuffer) :
    par.decode coder other b =
      (par.decode coder msg b).map fun r => (par.field.copy r.1 other, r.2) := by
  symm
  cases par with
  | causeCodes => exact absurd rfl hcause
  | bearerData message => exact absurd rfl hbearer
  | _ => exact Option.map_bind.trans rfl

theorem notedParameter_field_ne (id : UInt8) : (notedParameter id).field ≠ .telesvcMsg := by
  unfold notedParameter
  split_ifs <;> simp [ParameterRecord.field]

theorem notedParameter_ne_causeCodes : ∀ id ∈ p2pNoted, notedParameter id ≠ .causeCodes := by
  decide +kernel

section Front

variable {coder : TextCoder} {value : RawRecord → CdmaTransportMsg} {front : List RawRecord}

/-- The parameters in front of bearer data, each into its own field. -/
theorem reads_front_copy (hnoted : ∀ r ∈ front, r.id ∈ p2pNoted)
    (hvalue : ∀ r ∈ front, Reads ((notedParameter r.id).decode coder .zero) r.bits (value r))
    (old : CdmaTransportMsg) :
    Reads (decodeRecords coder (front.map fun r => notedParameter r.id) old)
      (front.flatMap RawRecord.bits)
      (front.foldl (fun msg r => (notedParameter r.id).field.copy (value r) msg) old) := by
  have hread : ∀ r ∈ front, ∀ msg, Reads ((notedParameter r.id).decode coder msg) (id r).bits
      ((notedParameter r.id).field.copy (value r) msg) := by
    intro r hr msg passed rest hpassed
    rw [ParameterRecord.decode_copy coder (notedParameter_ne_causeCodes r.id (hnoted r hr))
      (notedParameter_field_ne r.id) .zero msg, id, hvalue r hr passed rest hpassed,
      Option.map_some]
  have hreads := reads_records (fun r : RawRecord => notedParameter r.id) id
    (fun r msg => (notedParameter r.id).field.copy (value r) msg) hread old
  rwa [List.map_id] at hreads

theorem foldl_front_perm {front' : List RawRecord} (h : front.Perm front')
    (hfields : (front.map fun r => (notedParameter r.id).field).Nodup) (old : CdmaTransportMsg) :
    front.foldl (fun msg r => (notedParameter r.id).field.copy (value r) msg) old =
      front'.foldl (fun msg r => (notedParameter r.id).field.copy (value r) msg) old := by
  refine h.foldl_eq' (fun r hr s hs msg => ?_) old
  by_cases hsame : r = s
  · rw [hsame]
  · refine TransportField.copy_comm (fun hfield => hsame ?_) _ _ _
    exact (List.inj_on_of_nodup_map hfields hs hr hfield).symm

theorem telesvcMsg_foldl (old : CdmaTransportMsg) :
    (front.foldl (fun msg r => (notedParameter r.id).field.copy (value r) msg) old).telesvcMsg =
      old.telesvcMsg := by
  induction front generalizing old with
  | nil => rfl
  | cons r front ih =>
      rw [List.foldl_cons, ih, TransportField.telesvcMsg_copy (notedParameter_field_ne r.id)]

end Front

/-! ## Messages -/

/-- The records of a message with bearer data. -/
structure TransportRecords where
  broadcast : Bool
  before : List RawRecord
  subs : List RawRecord
  after : List RawRecord

/-- What the scan of a message finds out for the second pass: the category, the kind of its
bearer data with the parameters that it supports, and whether headers are announced. -/
structure Heading where
  category : UInt16
  kind : TeleserviceMsgType
  parameter : UInt8 → SubParameter
  headerInd : Bool

/-- A message identifier of this kind. -/
def Heading.Identifies (heading : Heading) (r : RawRecord) : Prop :=
  r.id = 0x00 ∧ ∃ type msgId, Reads decodeMessageId r.bits (type, msgId) ∧
    messageKind (isCMAS heading.category) type = some (heading.kind, heading.parameter) ∧
    msgId.headerInd = heading.headerInd

namespace TransportRecords

/-- The parameters apart from bearer data. -/
def front (m : TransportRecords) : List RawRecord := m.before ++ m.after

def bits (m : TransportRecords) : List Bool :=
  field 8 (if m.broadcast then 1 else 0) ++ (m.before.flatMap RawRecord.bits ++
    (recordBits 0x08 (m.subs.flatMap RawRecord.bits) ++ m.after.flatMap RawRecord.bits))

def octets (m : TransportRecords) : List UInt8 := BitStream.octets m.bits

/-- The parameters that are known in front of bearer data. -/
def noted (m : TransportRecords) : List UInt8 := if m.broadcast then [0x01] else p2pNoted

/-- The category under which bearer data is scanned: that of a broadcast message. -/
inductive Category (m : TransportRecords) : UInt16 → Prop where
  | p2p (h : m.broadcast = false) : Category m 0x8001
  | uncategorised (h : m.broadcast = true) (hfront : m.front = []) : Category m 0x8001
  | category {r : RawRecord} {v : UInt16} (h : m.broadcast = true) (hfront : m.front = [r])
      (hread : Reads (decodeWord 0x01) r.bits v) : Category m v

/-- A message of distinct records, each of which its reader takes as it is. -/
structure WellFormed (coder : TextCoder) (heading : Heading) (m : TransportRecords) : Prop where
  known : ∀ r ∈ m.front, r.id ∈ m.noted
  distinct : (m.front.map RawRecord.id).Nodup
  readable : ∀ r ∈ m.front, ∃ msg, Reads ((notedParameter r.id).decode coder .zero) r.bits msg
  category : m.Category heading.category
  identified : ∃ r ∈ m.subs, heading.Identifies r
  subs_distinct : (m.subs.map RawRecord.id).Nodup
  subs_readable : ∀ r ∈ m.subs, ∃ msg,
    Reads ((heading.parameter r.id).decode coder (announced heading.headerInd)) r.bits msg

/-- The same message with its parameters and its sub-parameters in another order. -/
structure Reordered (m m' : TransportRecords) : Prop where
  broadcast : m'.broadcast = m.broadcast
  front : m.front.Perm m'.front
  subs : m.subs.Perm m'.subs

/-- The order in which a message is read as it was scanned: bearer data is the last parameter,
with as many records as are scanned, user data with headers comes behind the message
identifier, and no two records are of one field. -/
structure InOrder (heading : Heading) (m : TransportRecords) : Prop where
  after : m.after = []
  count : m.subs.length ≤ 24
  id_first : heading.headerInd = true → IdFirst heading.parameter m.subs
  fields : (m.front.map fun r => (notedParameter r.id).field).Nodup
  subs_fields : (m.subs.map fun r => (heading.parameter r.id).field).Nodup

end TransportRecords

theorem Reads.unique {α : Type} {f : SmsPduBuffer → Option (α × SmsPduBuffer)} {w : List Bool}
    {x y : α} (h : Reads f w x) (h' : Reads f w y) : x = y := by
  have hx := h [] [] rfl
  rw [h' [] [] rfl] at hx
  exact (congrArg Prod.fst (Option.some.inj hx)).symm

/-- Every kind of message has its identifier under zero. -/
theorem parameter_zero {isCMAS : Bool} {type : UInt8} {kind : TeleserviceMsgType}
    {parameter : UInt8 → SubParameter} (h : messageKind isCMAS type = some (kind, parameter)) :
    parameter 0x00 = .messageId := by
  unfold messageKind at h
  split_ifs at h <;> cases h <;> first | rfl | (cases isCMAS <;> rfl)

namespace TransportRecords

variable {coder : TextCoder} {heading : Heading} {m m' : TransportRecords}

/-! ### Scanning -/

/-- The message as the scan leaves it. -/
def scanned (m : TransportRecords) (heading : Heading) : CdmaTransportMsg :=
  { CdmaTransportMsg.zero with
    type := if m.broadcast then .broadcast else .p2p
    serviceCtg := heading.category
    telesvcMsg := startOf heading.kind .zero }

/-- The category of a broadcast message, read as soon as it is scanned. -/
theorem scanRecords_category {r : RawRecord} {v : UInt16} (hid : r.id = 0x01)
    (hread : Reads (decodeWord 0x01) r.bits v) (hfit : r.Fits) (n : Nat) (msg : CdmaTransportMsg)
    {passed : List Bool} (rest : List Bool) (h : passed.length % 8 = 0) :
    ∃ start len, scanRecords scanBroadcastParameter (n + 1) msg
        (bitCursor passed (r.bits ++ rest)) =
      ((scanRecords scanBroadcastParameter n { msg with serviceCtg := v }
          (bitCursor (passed ++ r.bits) rest)).1,
        ⟨start, len, .serviceCategory⟩ ::
          (scanRecords scanBroadcastParameter n { msg with serviceCtg := v }
            (bitCursor (passed ++ r.bits) rest)).2) := by
  obtain ⟨len, b, hfirst, hlen, ⟨-, hback, hset⟩, hmove⟩ := scan_record hfit rest h
  have hstep : scanBroadcastParameter r.id msg b =
      some (({ msg with serviceCtg := v }, .serviceCategory), b) := by
    simp only [scanBroadcastParameter, hid, if_true, hback, hread passed rest h, hset]
  refine ⟨passed.length / 8, len, ?_⟩
  rw [scanRecords, hfirst]
  simp only [hlen, hstep, hmove, bitCursor_index]

theorem bits_of_after (h : m.after = []) :
    m.bits = field 8 (if m.broadcast then 1 else 0) ++ (m.front.flatMap RawRecord.bits ++
      recordBits 0x08 (m.subs.flatMap RawRecord.bits)) := by
  simp [bits, front, h]

/-- No more parameters in front of bearer data than there are identifiers. -/
theorem length_front_le (h : m.WellFormed coder heading) : m.front.length ≤ 7 := by
  have hsub : (m.front.map RawRecord.id).Subperm m.noted := by
    refine List.subperm_of_subset h.distinct fun id hid => ?_
    obtain ⟨r, hr, rfl⟩ := List.mem_map.mp hid
    exact h.known r hr
  have hle := hsub.length_le
  have hnoted : m.noted.length ≤ 7 := by
    unfold noted
    split <;> decide
  rw [List.length_map] at hle
  omega

theorem ne_zero_of_before {r₀ : RawRecord} {before after : List RawRecord}
    (hdistinct : (m.subs.map RawRecord.id).Nodup) (hsubs : m.subs = before ++ r₀ :: after)
    (hid : r₀.id = 0x00) : ∀ r ∈ before, r.id ≠ 0x00 := by
  intro r hr hzero
  rw [hsubs, List.map_append, List.map_cons] at hdistinct
  have hdisjoint := (List.nodup_append.mp hdistinct).2.2
  exact hdisjoint r.id (List.mem_map_of_mem hr) r₀.id List.mem_cons_self (hzero.trans hid.symm)

/-- The scan of a message in order. -/
theorem createTransportMessage_inOrder (hwell : m.WellFormed coder heading)
    (hin : m.InOrder heading) (hlen : m.bits.length ≤ 2048) :
    ∃ pars subs start len,
      createTransportMessage .zero (bitCursor [] m.bits) =
        some (m.scanned heading, pars ++ [⟨start, len, .bearerData (some subs)⟩]) ∧
      pars.map Scanned.parameter = m.front.map (fun r => notedParameter r.id) ∧
      subs.map Scanned.parameter = m.subs.map fun r => heading.parameter r.id := by
  obtain ⟨r₀, hr₀, hid, type, msgId, hread, hkind, -⟩ := hwell.identified
  obtain ⟨before, after, hsubs⟩ := List.append_of_mem hr₀
  have hbefore := ne_zero_of_before hwell.subs_distinct hsubs hid
  have hn : (before ++ r₀ :: after).length ≤ 24 := hsubs ▸ hin.count
  have hknown := hwell.known
  have hfront := length_front_le hwell
  have hcategory := hwell.category
  rw [bits_of_after hin.after] at hlen ⊢
  rw [hsubs] at hlen ⊢
  unfold scanned
  unfold noted at hknown
  generalize heading.category = category at hcategory hkind ⊢
  cases hcategory with
  | p2p hp2p =>
      simp only [hp2p, Bool.false_eq_true, if_false] at hlen hknown ⊢
      exact createTransportMessage_p2p hknown (by omega) hread hid hkind hbefore hn hlen
  | uncategorised hbroadcast hnil =>
      simp only [hbroadcast, if_true, hnil, List.flatMap_nil, List.nil_append] at hlen ⊢
      obtain ⟨start, len, subs, hscan, hpars⟩ := scanRecords_bearerData scanBroadcastParameter
        (isCMAS 0x8001)
        { CdmaTransportMsg.zero with type := .broadcast, serviceCtg := 0x8001 } 8
        (field 8 1) (fun b => rfl) hread hid hkind before after hbefore hn (by rw [length_field])
        (by
          simp only [List.length_append, length_field, length_recordBits] at hlen ⊢
          omega)
      refine ⟨[], subs, start, len, ?_, rfl, hpars⟩
      have hone : ¬ (1 : UInt8) = 0 := by decide
      simp only [createTransportMessage, readByte_bitCursor, List.nil_append,
        Option.bind_eq_bind, Option.bind_some, if_neg hone, if_true, hscan]
      rfl
  | @category r _ hbroadcast hsingle hcategory =>
      have hr : r ∈ m.front := by rw [hsingle]; exact List.mem_singleton_self r
      have hrid : r.id = 0x01 := by simpa [hbroadcast] using hknown r hr
      have hmod := r.length_bits_mod
      simp only [hbroadcast, if_true, hsingle, List.flatMap_cons, List.flatMap_nil,
        List.append_nil] at hlen ⊢
      have hfit : r.Fits := by
        refine RawRecord.fits_of_mem (List.mem_singleton_self r) ?_
        simp only [List.length_append, List.flatMap_cons, List.flatMap_nil, List.append_nil] at hlen ⊢
        omega
      obtain ⟨start, len, hfirst⟩ := scanRecords_category hrid hcategory hfit 8
        { CdmaTransportMsg.zero with type := .broadcast, serviceCtg := 0x8001 }
        (recordBits 0x08 ((before ++ r₀ :: after).flatMap RawRecord.bits))
        (show (field 8 1).length % 8 = 0 by rw [length_field])
      obtain ⟨start', len', subs, hscan, hpars⟩ := scanRecords_bearerData scanBroadcastParameter
        (isCMAS category)
        { CdmaTransportMsg.zero with type := .broadcast, serviceCtg := category } 7
        (field 8 1 ++ r.bits) (fun b => rfl) hread hid hkind before after hbefore hn
        (by rw [List.length_append, length_field]; omega)
        (by
          simp only [List.length_append, length_field, length_recordBits] at hlen ⊢
          omega)
      refine ⟨[⟨start, len, .serviceCategory⟩], subs, start', len', ?_, ?_, hpars⟩
      · have hone : ¬ (1 : UInt8) = 0 := by decide
        simp only [createTransportMessage, readByte_bitCursor, List.nil_append,
          Option.bind_eq_bind, Option.bind_some, if_neg hone, if_true, hfirst, hscan]
        rfl
      · simp [hrid, notedParameter]

/-! ### Both passes -/

/-- The message that the records make, each in its field. -/
def gathered (m : TransportRecords) (heading : Heading) (value : RawRecord → CdmaTransportMsg)
    (subValue : RawRecord → CdmaTeleserviceMsg) : CdmaTransportMsg :=
  { m.front.foldl (fun msg r => (notedParameter r.id).field.copy (value r) msg)
      (m.scanned heading) with
    telesvcMsg := m.subs.foldl
      (fun msg r => (heading.parameter r.id).field.copy (subValue r) msg)
      (startOf heading.kind .zero) }

theorem mem_p2pNoted (h : m.WellFormed coder heading) : ∀ r ∈ m.front, r.id ∈ p2pNoted := by
  intro r hr
  have hmem := h.known r hr
  unfold noted at hmem
  split at hmem
  · rw [List.mem_singleton.mp hmem]
    decide
  · exact hmem

/-- The only message identifier says whether headers are announced. -/
theorem headerInd_of_messageId (hwell : m.WellFormed coder heading) (hin : m.InOrder heading)
    {subValue : RawRecord → CdmaTeleserviceMsg}
    (hvalue : ∀ r ∈ m.subs, Reads ((heading.parameter r.id).decode coder
      (announced heading.headerInd)) r.bits (subValue r)) :
    ∀ r ∈ m.subs, heading.parameter r.id = .messageId →
      (subValue r).msgId.headerInd = heading.headerInd := by
  obtain ⟨r₀, hr₀, hid, type, msgId, hread, hkind, hheader⟩ := hwell.identified
  intro r hr hmessage
  have hzero : heading.parameter r₀.id = .messageId := by
    rw [hid]
    exact parameter_zero hkind
  have hsame : r = r₀ := by
    refine List.inj_on_of_nodup_map hin.subs_fields hr hr₀ ?_
    rw [hmessage, hzero]
  have hreads := hvalue r₀ hr₀
  rw [hzero] at hreads
  have hstore : Reads (SubParameter.messageId.decode coder (announced heading.headerInd)) r₀.bits
      { announced heading.headerInd with msgId := msgId } := by
    intro passed rest hpassed
    simp only [SubParameter.decode, hread passed rest hpassed, Option.bind_eq_bind,
      Option.bind_some]
  rw [hsame, hreads.unique hstore]
  exact hheader

theorem decodeTransport_inOrder (hwell : m.WellFormed coder heading) (hin : m.InOrder heading)
    (hlen : m.bits.length ≤ 2048) {value : RawRecord → CdmaTransportMsg}
    {subValue : RawRecord → CdmaTeleserviceMsg}
    (hvalue : ∀ r ∈ m.front, Reads ((notedParameter r.id).decode coder .zero) r.bits (value r))
    (hsubValue : ∀ r ∈ m.subs, Reads ((heading.parameter r.id).decode coder
      (announced heading.headerInd)) r.bits (subValue r)) :
    decodeTransport coder m.octets = some (m.gathered heading value subValue) := by
  obtain ⟨pars, subs, start, len, hcreate, hpars, hsubs⟩ :=
    createTransportMessage_inOrder hwell hin hlen
  obtain ⟨r₀, hr₀, -⟩ := hwell.identified
  have hne : subs ≠ [] := by
    rintro rfl
    have hempty : m.subs.length = 0 := by simpa using (congrArg List.length hsubs).symm
    rw [List.length_eq_zero_iff.mp hempty] at hr₀
    cases hr₀
  have hfirst := reads_front_copy (mem_p2pNoted hwell) hvalue (m.scanned heading)
  have htelesvc := @telesvcMsg_foldl value m.front (m.scanned heading)
  -- Before the message identifier is read, no headers are announced.
  have hstart : (startOf heading.kind .zero).msgId.headerInd = heading.headerInd ∨
      IdFirst heading.parameter m.subs := by
    cases hheader : heading.headerInd with
    | false =>
        left
        unfold startOf
        split <;> rfl
    | true => exact .inr (hin.id_first hheader)
  have hcallback : ∀ r ∈ m.subs, heading.parameter r.id = .callbackNumber →
      (startOf heading.kind .zero).callbackNumber = CdmaTeleserviceMsg.zero.callbackNumber := by
    intro r _ _
    unfold startOf
    split <;> rfl
  have hsecond := reads_subRecords hsubValue (headerInd_of_messageId hwell hin hsubValue)
    hin.subs_fields hstart hcallback
  rw [← hpars] at hfirst
  rw [← hsubs] at hsecond
  unfold octets
  rw [bits_of_after hin.after] at hcreate hlen ⊢
  exact decodeTransport_records hlen hcreate hne hfirst (by rw [htelesvc]; exact hsecond)

/-! ### Order -/

theorem Category.reordered {category : UInt16} (hcategory : m.Category category)
    (h : m.Reordered m') : m'.Category category := by
  cases hcategory with
  | p2p hp2p => exact .p2p (h.broadcast.trans hp2p)
  | uncategorised hbroadcast hnil =>
      refine .uncategorised (h.broadcast.trans hbroadcast) ?_
      exact List.nil_perm.mp (hnil ▸ h.front)
  | category hbroadcast hsingle hread =>
      refine .category (h.broadcast.trans hbroadcast) ?_ hread
      exact (List.singleton_perm.mp (hsingle ▸ h.front)).symm

theorem WellFormed.reordered (hwell : m.WellFormed coder heading) (h : m.Reordered m') :
    m'.WellFormed coder heading where
  known := by
    intro r hr
    have hmem := hwell.known r (h.front.mem_iff.mpr hr)
    rwa [noted, ← h.broadcast] at hmem
  distinct := ((h.front.map RawRecord.id).nodup_iff).mp hwell.distinct
  readable := fun r hr => hwell.readable r (h.front.mem_iff.mpr hr)
  category := hwell.category.reordered h
  identified := by
    obtain ⟨r, hr, hid⟩ := hwell.identified
    exact ⟨r, h.subs.mem_iff.mp hr, hid⟩
  subs_distinct := ((h.subs.map RawRecord.id).nodup_iff).mp hwell.subs_distinct
  subs_readable := fun r hr => hwell.subs_readable r (h.subs.mem_iff.mpr hr)

theorem length_bits_reordered (h : m.Reordered m') : m'.bits.length = m.bits.length := by
  have hfront := (h.front.flatMap_right RawRecord.bits).length_eq
  have hsubs := (h.subs.flatMap_right RawRecord.bits).length_eq
  simp only [front, List.flatMap_append, List.length_append] at hfront
  simp only [bits, List.length_append, length_field, length_recordBits]
  omega

/-- More octets than a buffer takes. -/
theorem decodeTransport_of_length {hex : List UInt8} (h : 256 < hex.length) :
    decodeTransport coder hex = none := by
  have hempty : ofHex hex = ⟨[], 0, 0⟩ := if_pos (Or.inr h)
  rw [decodeTransport, hempty]
  rfl

def deliverHeading : Heading := ⟨0x8001, .deliver, deliverParameter false, false⟩

/-- A teleservice, a reply that is asked for, a message identifier and a priority. -/
def deliverRecords : TransportRecords :=
  ⟨false, [⟨0x00, wordBits 0x1002⟩, ⟨0x06, field 6 1⟩],
    [⟨0x00, messageIdBits 1 ⟨5, false⟩⟩, ⟨0x08, field 2 1⟩], []⟩

theorem wellFormed_deliverRecords (coder : TextCoder) :
    deliverRecords.WellFormed coder deliverHeading where
  known := by decide
  distinct := by decide
  readable := by
    intro r hr
    simp only [front, deliverRecords, List.append_nil, List.mem_cons, List.not_mem_nil,
      or_false] at hr
    obtain rfl | rfl := hr
    · refine ⟨{ CdmaTransportMsg.zero with teleserviceId := 0x1002 }, ?_⟩
      exact (reads_word 0x00 0x1002).store
        fun v => ({ CdmaTransportMsg.zero with teleserviceId := v } : CdmaTransportMsg)
    · refine ⟨{ CdmaTransportMsg.zero with replySeq := 1 }, ?_⟩
      exact (reads_bearerReply (by decide : (1 : UInt8).toNat < 2 ^ 6)).store
        fun v => ({ CdmaTransportMsg.zero with replySeq := v } : CdmaTransportMsg)
  category := .p2p rfl
  identified := ⟨_, List.mem_cons_self, rfl, 1, ⟨5, false⟩,
    reads_messageId (by decide) ⟨5, false⟩, rfl, rfl⟩
  subs_distinct := by decide
  subs_readable := by
    intro r hr
    simp only [deliverRecords, List.mem_cons, List.not_mem_nil, or_false] at hr
    obtain rfl | rfl := hr
    · refine ⟨{ announced false with msgId := ⟨5, false⟩ }, ?_⟩
      exact (reads_messageId (by decide : (1 : UInt8).toNat < 2 ^ 4) ⟨5, false⟩).store
        fun x => ({ announced false with msgId := x.2 } : CdmaTeleserviceMsg)
    · refine ⟨{ announced false with priority := .ofValue 1 }, ?_⟩
      exact (reads_priorityInd (by decide : SmsPriorityIndicator.ofValue 1 ≠ .reserved)).store
        fun v => ({ announced false with priority := v } : CdmaTeleserviceMsg)

end TransportRecords

end TelephonySms.Cdma
