import TelephonySms.Cdma.Transport
import TelephonySms.Send.Sender

/-! # Delivery reports of the CDMA sender

A cell that was sent with a delivery callback waits in `reportList_` for the
acknowledgement of its message. The network names the message by the 16-bit
identifier that its PDU carries; the sender remembers the cell by its reply
sequence number.
-/

namespace TelephonySms.Send

open TelephonySms.Machine TelephonySms.Cdma

/-- A delivery call that was accepted: the identifier in its PDUs, if they are those
of the CDMA encoder, and whether there is a delivery callback. -/
structure Submission where
  msgId : Option UInt16
  deliveryCallback : Bool
deriving DecidableEq, Repr

structure ReportWorld where
  world : SendWorld
  msgSubmitId : SenderId → UInt8
  /-- By the number of the delivery call. -/
  submissions : Nat → Option Submission
  reportList : SenderId → List SmsSendIndexer

inductive ReportEvent where
  /-- `deliveryCallback` counts for the two delivery calls. -/
  | sending (e : SendEvent) (deliveryCallback : Bool)
  /-- The receive handler of the slot got a message and passes a status report on. -/
  | received (slotId : Nat) (pdu : List UInt8)
deriving DecidableEq, Repr

inductive ReportEffect where
  | sending (effect : SendEffect)
  /-- `OnSmsDeliveryResult` of the callback of a delivery call. -/
  | deliveryResult (message : Nat)
deriving DecidableEq, Repr

def maxReportListLimit : Nat := 25

namespace ReportWorld

def init : ReportWorld := ⟨.init, fun _ => 0, fun _ => none, fun _ => []⟩

/-! ## Submissions -/

/-- `GetSubmitMsgId`: the counter and the result have eight bits. -/
def getSubmitMsgId (w : ReportWorld) (sender : SenderId) : ReportWorld × UInt8 :=
  let msgId := w.msgSubmitId sender + 1
  ({ w with msgSubmitId := Function.update w.msgSubmitId sender msgId }, msgId)

/-- The delivery call that the world counts next. -/
def submit (w : ReportWorld) (msgId : Option UInt16) (deliveryCallback : Bool) : ReportWorld :=
  { w with
    submissions := Function.update w.submissions w.world.nextMessage
      (some ⟨msgId, deliveryCallback⟩) }

/-- A text or data message that a sender accepts. Only the CDMA sender without IMS
numbers its messages. -/
def submitDelivery (w : ReportWorld) (sender : SenderId) (deliveryCallback : Bool) : ReportWorld :=
  let s := w.world.senders sender
  if sender.kind = .gsm ∨ s.isImsNetDomain && s.imsSmsCfg then w.submit none deliveryCallback
  else
    let (w, msgId) := w.getSubmitMsgId sender
    w.submit (some msgId.toUInt16) deliveryCallback

/-- `EncodeMsgData` takes an identifier of its own once the PDU is encoded. -/
def encodeMsgData (w : ReportWorld) (message : Nat) : ReportWorld :=
  match w.world.splits.find? (·.message = message) with
  | none => w
  | some l =>
      match l.cells with
      | [] => w
      | cell :: _ =>
          if l.kind = .cdmaData ∧ SendWorld.cellStep l.kind cell = .send then
            (w.getSubmitMsgId l.sender).1
          else w

/-! ## The list -/

/-- `HandleMessageResponse` of a cell that was sent. -/
def expectReport (w : ReportWorld) (sender : SenderId) (i : SmsSendIndexer) : ReportWorld :=
  match w.submissions i.message with
  | some ⟨_, true⟩ =>
      let list := w.reportList sender
      let list := if list.length > maxReportListLimit then list.tail else list
      { w with reportList := Function.update w.reportList sender (list ++ [i]) }
  | _ => w

def handleResponse (w : ReportWorld) (sender : SenderId) (flag : Nat) (res : RilResponse) :
    ReportWorld :=
  match w.world.cached flag with
  | none => w
  | some i =>
      let i := SendWorld.updateUnSentCellCount i.msgRefId (SendWorld.setResponse flag i res)
      if i.isFailure then w else w.expectReport sender i

/-! ## Status reports -/

/-- `GetMsgRef` of a point-to-point message that `CreateMessage` has read. The field
is zero to begin with, and `AnalsisDeliverAck` does not set it. -/
def msgRef (msg : CdmaTransportMsg) : Nat :=
  if msg.teleserviceId = 0xFFFF then 0
  else
    match msg.telesvcMsg.type with
    | .deliver | .submit => msg.telesvcMsg.msgId.msgId.toNat
    | _ => 0

/-- The loop of `StatusReportAnalysis`: the entries that stay, and the call whose
callback was found last. -/
def reportLoop (ref : Nat) : List SmsSendIndexer → Option Nat → List SmsSendIndexer × Option Nat
  | [], callback => ([], callback)
  | i :: is, callback =>
      if ref = i.msgRefId then reportLoop ref is (some i.message)
      else
        let (rest, callback) := reportLoop ref is callback
        (i :: rest, callback)

def statusReportAnalysis (w : ReportWorld) (sender : SenderId) (msg : CdmaTransportMsg) :
    ReportWorld × List ReportEffect :=
  let (list, callback) := reportLoop (msgRef msg) (w.reportList sender) none
  ({ w with reportList := Function.update w.reportList sender list },
    match callback with
    | some message => [.deliveryResult message]
    | none => [])

/-- `IsStatusReport`. -/
def isStatusReport (msg : CdmaTransportMsg) : Bool :=
  msg.type = .p2p && msg.telesvcMsg.type = .deliveryAck

def step (p : Platform) (coder : Pdu.TextCoder) (w : ReportWorld) :
    ReportEvent → ReportWorld × List ReportEffect
  | .sending e deliveryCallback =>
      let booked :=
        match e with
        | .textDelivery sender tpduOk cells =>
            if !tpduOk || cells.length > maxSegmentNum then w
            else w.submitDelivery sender deliveryCallback
        | .dataDelivery sender tpduOk cells =>
            if !tpduOk || cells = [] then w else w.submitDelivery sender deliveryCallback
        | .splitStep message _ => w.encodeMsgData message
        | .response sender flag res _ => w.handleResponse sender flag res
        | _ => w
      let (world, effects) := w.world.step p e
      ({ booked with world := world }, effects.map .sending)
  | .received slotId pdu =>
      match decodeTransport coder pdu with
      | some msg =>
          if isStatusReport msg then w.statusReportAnalysis ⟨slotId, .cdma⟩ msg else (w, [])
      | none => (w, [])

/-- The state behind a list of events. -/
def run (p : Platform) (coder : Pdu.TextCoder) (events : List ReportEvent) : ReportWorld :=
  events.foldl (next (step p coder)) .init

/-! ## What the loop does -/

/-- The entries with the reference leave the list, and the last of them is called. -/
theorem reportLoop_eq (ref : Nat) (list : List SmsSendIndexer) (callback : Option Nat) :
    reportLoop ref list callback =
      (list.filter (fun i => i.msgRefId ≠ ref),
        ((list.filter fun i => i.msgRefId = ref).getLast?.map (·.message)).or callback) := by
  induction list generalizing callback with
  | nil => simp [reportLoop]
  | cons i list ih =>
      by_cases h : ref = i.msgRefId
      · have hlast : (((i :: list.filter fun j => j.msgRefId = ref).getLast?).map
            (·.message)).or callback =
            ((list.filter fun j => j.msgRefId = ref).getLast?.map (·.message)).or
              (some i.message) := by
          cases hrest : list.filter fun j => j.msgRefId = ref with
          | nil => simp
          | cons j rest =>
              rw [List.getLast?_cons_cons, List.getLast?_eq_some_getLast (List.cons_ne_nil j rest)]
              simp
        rw [reportLoop, if_pos h, ih]
        simp only [List.filter_cons, h.symm, ne_eq, not_true_eq_false, decide_false,
          decide_true, if_true, Bool.false_eq_true, if_false]
        rw [hlast]
      · have hne : ¬ i.msgRefId = ref := fun heq => h heq.symm
        simp only [reportLoop, if_neg h, ih, List.filter_cons, hne, ne_eq, not_false_eq_true,
          decide_true, decide_false, if_true, Bool.false_eq_true, if_false]

/-- An acknowledgement has the reference zero. -/
theorem msgRef_of_isStatusReport {msg : CdmaTransportMsg} (h : isStatusReport msg = true) :
    msgRef msg = 0 := by
  have htype : msg.telesvcMsg.type = .deliveryAck := by
    simp only [isStatusReport, Bool.and_eq_true, decide_eq_true_eq] at h
    exact h.2
  simp [msgRef, htype]

/-! ## Acknowledgements -/

/-- The identifier that the PDU of a listed cell carries. -/
def sentMsgId (w : ReportWorld) (i : SmsSendIndexer) : Option UInt16 :=
  (w.submissions i.message).bind (·.msgId)

/-- An acknowledgement of the message `msgId` reaches the callback of one listed cell
of that message and takes exactly this cell off the list; if no listed cell has the
identifier, nothing happens. -/
def Acknowledges (w : ReportWorld) (sender : SenderId) (msgId : UInt16)
    (r : ReportWorld × List ReportEffect) : Prop :=
  (∃ before i after, w.reportList sender = before ++ i :: after ∧ w.sentMsgId i = some msgId ∧
    r.1 = { w with reportList := Function.update w.reportList sender (before ++ after) } ∧
    r.2 = [.deliveryResult i.message]) ∨
  ((∀ i ∈ w.reportList sender, w.sentMsgId i ≠ some msgId) ∧ r.1 = w ∧ r.2 = [])

/-- Of the listed cells, the acknowledged one and no other has the reply sequence
number zero. -/
def OnlyAcknowledgedIsZero (w : ReportWorld) (sender : SenderId) (msgId : UInt16) : Prop :=
  ((w.reportList sender).filter fun i => i.msgRefId = 0).map w.sentMsgId =
    if ∃ i ∈ w.reportList sender, w.sentMsgId i = some msgId then [some msgId] else []

theorem statusReportAnalysis_eq (w : ReportWorld) (sender : SenderId) {msg : CdmaTransportMsg}
    (h : isStatusReport msg = true) :
    w.statusReportAnalysis sender msg =
      ({ w with
          reportList := Function.update w.reportList sender
            ((w.reportList sender).filter fun i => i.msgRefId ≠ 0) },
        (((w.reportList sender).filter fun i => i.msgRefId = 0).getLast?.map
          fun i => .deliveryResult i.message).toList) := by
  rw [statusReportAnalysis, msgRef_of_isStatusReport h, reportLoop_eq]
  cases ((w.reportList sender).filter fun i => i.msgRefId = 0).getLast? <;> rfl

theorem filter_ne_zero_append {before after : List SmsSendIndexer} {i : SmsSendIndexer}
    (hi : i.msgRefId = 0)
    (hothers : ∀ j ∈ before ++ after, j.msgRefId ≠ 0) :
    (before ++ i :: after).filter (fun j => j.msgRefId ≠ 0) = before ++ after ∧
      (before ++ i :: after).filter (fun j => j.msgRefId = 0) = [i] := by
  have hbefore : ∀ j ∈ before, j.msgRefId ≠ 0 := fun j hj => hothers j (List.mem_append_left _ hj)
  have hafter : ∀ j ∈ after, j.msgRefId ≠ 0 := fun j hj => hothers j (List.mem_append_right _ hj)
  refine ⟨?_, ?_⟩
  · rw [List.filter_append, List.filter_cons_of_neg (by simp [hi]),
      List.filter_eq_self.mpr (by simpa using hbefore),
      List.filter_eq_self.mpr (by simpa using hafter)]
  · rw [List.filter_append, List.filter_cons_of_pos (by simp [hi]),
      List.filter_eq_nil_iff.mpr (by simpa using hbefore),
      List.filter_eq_nil_iff.mpr (by simpa using hafter), List.nil_append]

theorem reportList_of_eq {w : ReportWorld} {sender : SenderId} {list list' : List SmsSendIndexer}
    (h : { w with reportList := Function.update w.reportList sender list } =
      { w with reportList := Function.update w.reportList sender list' }) : list = list' := by
  have hlists := congrFun (congrArg ReportWorld.reportList h) sender
  simpa using hlists

theorem acknowledges_statusReportAnalysis_iff (w : ReportWorld) (sender : SenderId)
    (msgId : UInt16) {msg : CdmaTransportMsg} (hreport : isStatusReport msg = true) :
    w.Acknowledges sender msgId (w.statusReportAnalysis sender msg) ↔
      w.OnlyAcknowledgedIsZero sender msgId := by
  rw [statusReportAnalysis_eq w sender hreport]
  constructor
  · rintro (⟨before, i, after, hlist, hid, hstate, heffect⟩ | ⟨hnone, hstate, heffect⟩)
    · have hkept := reportList_of_eq hstate
      have hothers : ∀ j ∈ before ++ after, j.msgRefId ≠ 0 := by
        intro j hj
        rw [← hkept] at hj
        simpa using (List.mem_filter.mp hj).2
      -- A callback was found, and no other entry can have been its.
      have hi : i.msgRefId = 0 := by
        by_contra hne
        have hnil : ((w.reportList sender).filter fun j => j.msgRefId = 0) = [] := by
          rw [hlist, List.filter_eq_nil_iff]
          intro j hj
          have hj' : j = i ∨ j ∈ before ++ after := by
            simp only [List.mem_append, List.mem_cons] at hj ⊢
            tauto
          rcases hj' with rfl | hj'
          · simpa using hne
          · simpa using hothers j hj'
        simp [hnil] at heffect
      have hzero := (filter_ne_zero_append hi hothers).2
      rw [OnlyAcknowledgedIsZero, if_pos ⟨i, by simp [hlist], hid⟩, hlist, hzero]
      simp [hid]
    · have hkept : ((w.reportList sender).filter fun i => i.msgRefId = 0) = [] := by
        cases hlast : ((w.reportList sender).filter fun i => i.msgRefId = 0).getLast? with
        | none => exact List.getLast?_eq_none_iff.mp hlast
        | some i => simp [hlast] at heffect
      rw [OnlyAcknowledgedIsZero, if_neg (by simpa using hnone), hkept]
      rfl
  · intro honly
    unfold OnlyAcknowledgedIsZero at honly
    split at honly
    case isTrue hlisted =>
      left
      obtain ⟨i, hzero, hid⟩ := List.map_eq_singleton_iff.mp honly
      obtain ⟨before, after, hlist, hbefore, hi, hafter⟩ := List.filter_eq_cons_iff.mp hzero
      have hothers : ∀ j ∈ before ++ after, j.msgRefId ≠ 0 := by
        intro j hj
        rcases List.mem_append.mp hj with hj | hj
        · simpa using hbefore j hj
        · simpa using List.filter_eq_nil_iff.mp hafter j hj
      have hkept := (filter_ne_zero_append (by simpa using hi) hothers).1
      refine ⟨before, i, after, hlist, hid, ?_, by simp [hzero]⟩
      rw [hlist, hkept]
    case isFalse hnone =>
      right
      have hnil : ((w.reportList sender).filter fun i => i.msgRefId = 0) = [] := by
        simpa using honly
      have hkept : ((w.reportList sender).filter fun i => i.msgRefId ≠ 0) =
          w.reportList sender := by
        apply List.filter_eq_self.mpr
        intro i hi
        simpa using List.filter_eq_nil_iff.mp hnil i hi
      refine ⟨by simpa using hnone, ?_, by simp [hnil]⟩
      rw [hkept, Function.update_eq_self]

instance (w : ReportWorld) (sender : SenderId) (msgId : UInt16) :
    Decidable (w.OnlyAcknowledgedIsZero sender msgId) :=
  inferInstanceAs (Decidable (_ = _))

/-- The text with number `message`, with a delivery callback, is sent. -/
def sentText (message : Nat) : List ReportEvent :=
  [.sending (.textDelivery ⟨0, .cdma⟩ true [⟨2, true⟩]) true,
    .sending (.splitStep message ⟨0, false⟩) false,
    .sending (.response ⟨0, .cdma⟩ (message + 1) (.sendSmsResult 0) 1) false]

/-- A sender in service sends `n` texts. -/
def sentTexts (n : Nat) : List ReportEvent :=
  .sending (.networkState ⟨0, .cdma⟩ false true) false :: (List.range n).flatMap sentText

/-- The acknowledgement of a message below 256. -/
def ackOf (msgId : UInt8) : List UInt8 :=
  [0x00, 0x00, 0x02, 0x10, 0x02, 0x08, 0x05, 0x00, 0x03, 0x40, msgId >>> 4, msgId <<< 4]

def plainCoder : Pdu.TextCoder := ⟨id, id⟩

theorem exists_ackOf (msgId : UInt8)
    (hread : (decodeTransport plainCoder (ackOf msgId)).any (fun msg =>
      isStatusReport msg && msg.telesvcMsg.msgId.msgId = msgId.toUInt16) = true) :
    ∃ msg, decodeTransport plainCoder (ackOf msgId) = some msg ∧ isStatusReport msg = true ∧
      msg.telesvcMsg.msgId.msgId = msgId.toUInt16 := by
  cases hmsg : decodeTransport plainCoder (ackOf msgId) with
  | none => simp [hmsg] at hread
  | some msg =>
      simp only [hmsg, Option.any_some, Bool.and_eq_true, decide_eq_true_eq] at hread
      exact ⟨msg, rfl, hread⟩

end ReportWorld

end TelephonySms.Send
