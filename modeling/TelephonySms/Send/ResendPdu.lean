import TelephonySms.Send.Build
import TelephonySms.Send.Track

/-! # What a cell is sent as again

A retry over CS should hand over the PDU of the first attempt with TP-RD set.
`SendSmsToRil` copies the PDU before `SendCsSms` puts TP-RD into it, so the flag
comes one attempt late, and a change of the network in between builds the PDU
anew.
-/

namespace TelephonySms.Send

open TelephonySms.Machine TelephonySms.Pdu

/-- What a step that builds a PDU finds: the cell, the octet in memory where
`is8Bits` is, and the PDU the CDMA codec makes. -/
structure BuildInput where
  page : Page
  is8Bits : Bool
  cdmaPdu : List UInt8
deriving DecidableEq, Repr

/-- The PDU of a cell, with its history: as it was first handed over, as it was
last built, as the indexer has it, and whether `UpdatePduForResend` was called on
it since. -/
structure CellPdu where
  content : CellContent
  first : List UInt8
  built : List UInt8
  encodePdu : List UInt8
  updated : Bool
deriving DecidableEq, Repr

def CellPdu.rebuild (c : CellPdu) (pdu : List UInt8) : CellPdu :=
  { c with built := pdu, encodePdu := pdu, updated := false }

@[simp] theorem CellPdu.rebuild_encodePdu (c : CellPdu) (pdu : List UInt8) :
    (c.rebuild pdu).encodePdu = pdu := rfl

section Tracker

variable (utf8ToGsm7bit : List UInt8 → List UInt8)

/-- `ResendTextDelivery` and `ResendDataDelivery` build the PDU for another network. -/
def CellPdu.retry (x : BuildInput) (net : NetWorkType) (i : SmsSendIndexer) (c : CellPdu) :
    CellPdu :=
  if i.netWorkType = net then c
  else
    match net with
    | .gsm =>
        c.rebuild <| getSubmitEncodeInfo <|
          if i.isText then c.content.resendTextSubmit (UInt8.ofNat i.msgRefId)
          else c.content.resendDataSubmit (UInt8.ofNat i.msgRefId) utf8ToGsm7bit
    | .cdma => c.rebuild x.cdmaPdu
    | .unknown => c

/-- `SendCsSms` and `SendSatelliteSms` of the GSM sender, behind the copy that is
handed over. -/
def CellPdu.sent (sender : SenderId) (domain : SmsDomain) (i : SmsSendIndexer) (c : CellPdu) :
    CellPdu :=
  if sender.kind = .gsm ∧ domain = .cs ∧ i.csResendCount > 0 then
    { c with
      encodePdu := updatePduForResend c.encodePdu (UInt8.ofNat i.msgRefId)
      updated := true }
  else c

def cellPdus : Tracker BuildInput CellPdu where
  split x l :=
    let msgRef := UInt8.ofNat l.msgRefId
    let pdu := x.page.pdu msgRef x.cdmaPdu l.kind
    ⟨x.page.content msgRef x.is8Bits l.kind, pdu, pdu, pdu, false⟩
  again c := c
  retry x net i c := c.retry utf8ToGsm7bit x net i
  sent sender domain i c := c.sent sender domain i

/-! ## What the stored PDU is -/

/-- The stored PDU is the last one built, updated or not, and on a GSM network that
one accepts duplicates. -/
structure Stored (i : SmsSendIndexer) (c : CellPdu) : Prop where
  encodePdu : c.encodePdu =
    if c.updated then updatePduForResend c.built (UInt8.ofNat i.msgRefId) else c.built
  built : i.netWorkType = .gsm → AcceptsDup (UInt8.ofNat i.msgRefId) c.built

theorem Stored.of_eq {i j : SmsSendIndexer} {c : CellPdu} (h : Stored i c)
    (href : j.msgRefId = i.msgRefId) (hnet : j.netWorkType = i.netWorkType) : Stored j c := by
  refine ⟨?_, ?_⟩
  · rw [href]
    exact h.encodePdu
  · rw [href, hnet]
    exact h.built

theorem Stored.split (x : BuildInput) (l : SplitLoop) (flag : CellFlag) (env : Env) :
    Stored (l.indexer flag env) ((cellPdus utf8ToGsm7bit).split x l) := by
  refine ⟨rfl, fun hnet => ?_⟩
  change l.kind.netWorkType = .gsm at hnet
  show AcceptsDup (UInt8.ofNat l.msgRefId) (x.page.pdu (UInt8.ofNat l.msgRefId) x.cdmaPdu l.kind)
  cases hkind : l.kind with
  | gsmText => exact getSubmitEncodeInfo_acceptsDup (x.page.textSubmit _) rfl
  | data => exact getSubmitEncodeInfo_acceptsDup (x.page.dataSubmit _) rfl
  | cdmaImsText => simp [hkind, SplitKind.netWorkType] at hnet
  | cdmaText => simp [hkind, SplitKind.netWorkType] at hnet
  | cdmaData => simp [hkind, SplitKind.netWorkType] at hnet

theorem Stored.sent {i : SmsSendIndexer} {c : CellPdu} (h : Stored i c) (sender : SenderId)
    (domain : SmsDomain) : Stored i (c.sent sender domain i) := by
  unfold CellPdu.sent
  split
  · refine ⟨?_, h.built⟩
    simp only [if_true]
    rw [h.encodePdu]
    split
    · exact updatePduForResend_idem _ _
    · rfl
  · exact h

theorem acceptsDup_rebuilt (i : SmsSendIndexer) (c : CellPdu) :
    AcceptsDup (UInt8.ofNat i.msgRefId) (getSubmitEncodeInfo
      (if i.isText then c.content.resendTextSubmit (UInt8.ofNat i.msgRefId)
        else c.content.resendDataSubmit (UInt8.ofNat i.msgRefId) utf8ToGsm7bit)) := by
  split
  · exact getSubmitEncodeInfo_acceptsDup (c.content.resendTextSubmit _) rfl
  · exact getSubmitEncodeInfo_acceptsDup (c.content.resendDataSubmit _ utf8ToGsm7bit) rfl

theorem Stored.rebuild {j : SmsSendIndexer} (c : CellPdu) {pdu : List UInt8}
    (hpdu : j.netWorkType = .gsm → AcceptsDup (UInt8.ofNat j.msgRefId) pdu) :
    Stored j (c.rebuild pdu) :=
  ⟨by simp [CellPdu.rebuild], hpdu⟩

theorem Stored.retry {i : SmsSendIndexer} {c : CellPdu} (h : Stored i c) (x : BuildInput)
    (net : NetWorkType) {j : SmsSendIndexer} (href : j.msgRefId = i.msgRefId)
    (hnet : j.netWorkType = net) : Stored j (c.retry utf8ToGsm7bit x net i) := by
  unfold CellPdu.retry
  split
  case isTrue heq => exact h.of_eq href (hnet.trans heq.symm)
  case isFalse hne =>
    cases net with
    | gsm =>
        refine .rebuild c fun _ => ?_
        rw [href]
        exact acceptsDup_rebuilt utf8ToGsm7bit i c
    | cdma => exact .rebuild c fun hgsm => by simp [hgsm] at hnet
    | unknown =>
        refine ⟨?_, fun hgsm => by simp [hgsm] at hnet⟩
        rw [href]
        exact h.encodePdu

theorem cellPdus_follows (p : Platform) : Follows p (cellPdus utf8ToGsm7bit) Stored where
  split x l flag env := Stored.split utf8ToGsm7bit x l flag env
  sent sender domain _ _ h := h.sent sender domain
  counted refId i c h := by
    apply h.of_eq (updateUnSentCellCount_msgRefId refId i)
    unfold SendWorld.updateUnSentCellCount
    split <;> rfl
  answered flag res i c h := by
    apply h.of_eq (setResponse_msgRefId flag i res)
    cases res <;> rfl
  again w sender i c _ h := by
    apply h.of_eq (countResend_fields w sender i).2.1
    unfold SendWorld.countResend
    split <;> rfl
  retry x net _ _ _ _ _ h := h.retry utf8ToGsm7bit x net rfl rfl

/-! ## The PDU that is handed over -/

/-- The PDU that a retry hands over, if it hands over one. -/
def handedPdu (p : Platform) (s : SendWorld × Track CellPdu) (index : Nat) (net : NetWorkType)
    (reencoded : Reencoded) (env : Env) (x : BuildInput) :
    Option (SenderId × SmsDomain × List UInt8) :=
  match (s.1.step p (.retry index net reencoded env)).2, s.1.retries[index]?,
    s.2.queued[index]? with
  | [.toRil sender _ domain], some r, some c =>
      some (sender, domain, (c.retry utf8ToGsm7bit x net r.2).encodePdu)
  | _, _, _ => none

end Tracker

/-- `handed` is the PDU `first` with only TP-RD set. -/
def IsResendOf (first handed : List UInt8) : Prop :=
  ∃ flags rest, first = flags :: rest ∧ handed = (flags ||| 0x04) :: rest

/-- The two PDUs differ in TP-RD at most. -/
def SameButRejectDup (built first : List UInt8) : Prop :=
  ∃ flags flags' rest, built = flags :: rest ∧ first = flags' :: rest ∧
    flags ||| 0x04 = flags' ||| 0x04

/-- A PDU that accepts duplicates is no resend. -/
theorem not_isResendOf_of_acceptsDup {msgRef : UInt8} {first handed : List UInt8}
    (h : AcceptsDup msgRef handed) : ¬ IsResendOf first handed := by
  rintro ⟨flags, rest, -, rfl⟩
  obtain hempty | ⟨flags', rest', heq, -, hclear⟩ := h
  · simp at hempty
  · rw [List.cons.injEq] at heq
    rw [← heq.1] at hclear
    have hall : ∀ f : UInt8, (f ||| 0x04) &&& 0x04 ≠ 0 := by
      rintro ⟨f⟩
      revert f
      decide
    exact hall flags hclear

/-- An updated PDU is a resend of what it differs from in TP-RD at most. -/
theorem isResendOf_update_iff {msgRef : UInt8} {first built : List UInt8}
    (h : AcceptsDup msgRef built) :
    IsResendOf first (updatePduForResend built msgRef) ↔ SameButRejectDup built first := by
  obtain rfl | ⟨flags, rest, rfl, hsubmit, -⟩ := h
  · simp [IsResendOf, SameButRejectDup, updatePduForResend]
  · simp only [updatePduForResend, hsubmit, if_true]
    constructor
    · rintro ⟨flags', rest', rfl, heq⟩
      rw [List.cons.injEq] at heq
      exact ⟨flags, flags', rest', by rw [heq.2], rfl, heq.1⟩
    · rintro ⟨flags₀, flags', rest', hbuilt, rfl, hflags⟩
      rw [List.cons.injEq] at hbuilt
      exact ⟨flags', rest', rfl, by rw [hbuilt.1, hbuilt.2, hflags]⟩

/-- A stored PDU is a resend of `first` exactly when it was updated and differs from
it in TP-RD at most as it was built. -/
theorem Stored.isResendOf_iff {i : SmsSendIndexer} {c : CellPdu} (h : Stored i c)
    (hnet : i.netWorkType = .gsm) (first : List UInt8) :
    IsResendOf first c.encodePdu ↔ c.updated = true ∧ SameButRejectDup c.built first := by
  rw [h.encodePdu]
  cases c.updated with
  | true =>
      simp only [if_true, true_and]
      exact isResendOf_update_iff (h.built hnet)
  | false =>
      simp only [Bool.false_eq_true, if_false, false_and, iff_false]
      exact not_isResendOf_of_acceptsDup (h.built hnet)

/-- The sender that hands over a retry is the one of the network. -/
theorem WellFormed.toRil_sendSmsToRil {w : SendWorld} (hwf : WellFormed w) {p : Platform}
    {sender sender' : SenderId} {env : Env} {i : SmsSendIndexer} {refId : Nat}
    {domain : SmsDomain}
    (h : (w.sendSmsToRil p sender env i).2 = [.toRil sender' refId domain]) :
    sender' = sender := by
  rw [hwf.sendSmsToRil_eq] at h
  split at h
  · simp at h
  · simp only [List.cons.injEq, SendEffect.toRil.injEq] at h
    exact h.1.1.symm

theorem WellFormed.toRil_resendDelivery {w : SendWorld} (hwf : WellFormed w) {p : Platform}
    {sender sender' : SenderId} {reencoded : Reencoded} {env : Env} {i : SmsSendIndexer}
    {refId : Nat} {domain : SmsDomain}
    (h : (w.resendDelivery p sender reencoded env i).2 = [.toRil sender' refId domain]) :
    sender' = sender := by
  unfold SendWorld.resendDelivery at h
  cases reencoded with
  | dropped => simp at h
  | failed => simp at h
  | encoded =>
      dsimp only at h
      split at h
      · exact (hwf.newCellFlag _).toRil_sendSmsToRil h
      · exact hwf.toRil_sendSmsToRil h

theorem WellFormed.net_of_toRil_gsm {w : SendWorld} (hwf : WellFormed w) {p : Platform}
    {index : Nat} {net : NetWorkType} {reencoded : Reencoded} {env : Env} {sender : SenderId}
    {refId : Nat} {domain : SmsDomain}
    (h : (w.step p (.retry index net reencoded env)).2 = [.toRil sender refId domain])
    (hkind : sender.kind = .gsm) : net = .gsm := by
  simp only [SendWorld.step, SendWorld.deliverRetry] at h
  cases hr : w.retries[index]? with
  | none => simp [hr] at h
  | some r =>
      simp only [hr, SendWorld.retriedSmsDelivery] at h
      have hwf' := hwf.eraseRetry index
      cases net with
      | gsm => rfl
      | unknown =>
          split at h <;> simp at h
      | cdma =>
          have hsender : sender = ⟨r.1.slotId, .cdma⟩ := by
            split at h
            · exact hwf'.toRil_resendDelivery h
            · exact hwf'.toRil_sendSmsToRil h
          simp [hsender] at hkind

/-! ## Resends over CS -/

/-- In every run, a retry that the GSM sender hands over via CS is the first PDU of
the cell with only TP-RD set exactly when the PDU is not built anew for it, an
earlier attempt already updated the stored PDU, and that one was built as the first
was. -/
theorem csResend_isResendOf_iff (utf8ToGsm7bit : List UInt8 → List UInt8) (p : Platform)
    (events : List (SendEvent × BuildInput)) (index : Nat) (net : NetWorkType)
    (reencoded : Reencoded) (env : Env) (x : BuildInput) (r : SenderId × SmsSendIndexer)
    (c : CellPdu) (sender : SenderId) (handed : List UInt8)
    (hr : (trackedRun p (cellPdus utf8ToGsm7bit) events).1.retries[index]? = some r)
    (hc : (trackedRun p (cellPdus utf8ToGsm7bit) events).2.queued[index]? = some c)
    (hgsm : sender.kind = .gsm)
    (hhanded : handedPdu utf8ToGsm7bit p (trackedRun p (cellPdus utf8ToGsm7bit) events) index net
      reencoded env x = some (sender, .cs, handed)) :
    IsResendOf c.first handed ↔
      r.2.netWorkType = .gsm ∧ c.updated = true ∧ SameButRejectDup c.built c.first := by
  have h := tracked_of_run (cellPdus_follows utf8ToGsm7bit p) events
  have hstored := h.queued index r c hr hc
  generalize trackedRun p (cellPdus utf8ToGsm7bit) events = s at h hr hc hhanded
  obtain ⟨w, t⟩ := s
  simp only [handedPdu, hr, hc] at hhanded
  split at hhanded
  case h_2 => simp at hhanded
  case h_1 sender' refId domain r' c' heffects hr' hc' =>
    obtain rfl : r = r' := Option.some.inj hr'
    obtain rfl : c = c' := Option.some.inj hc'
    simp only [Option.some.injEq, Prod.mk.injEq] at hhanded
    obtain ⟨rfl, rfl, rfl⟩ := hhanded
    obtain rfl := h.wellFormed.net_of_toRil_gsm heffects hgsm
    unfold CellPdu.retry
    split
    case isTrue heq =>
      rw [hstored.isResendOf_iff heq]
      simp [heq]
    case isFalse hne =>
      have hrebuilt := acceptsDup_rebuilt utf8ToGsm7bit r.2 c
      simp only [hne, false_and, iff_false, CellPdu.rebuild_encodePdu]
      exact not_isResendOf_of_acceptsDup hrebuilt

/-- A text of two characters to `123`. -/
def greeting : BuildInput where
  page := ⟨[0x31, 0x32, 0x33], ⟨[0x48, 0x69], [0x48, 0x69], .dataCoding7Bit, 0⟩,
    .dataCoding7Bit, 1, 0, 0, false⟩
  is8Bits := false
  cdmaPdu := []

def failedOnce : List (SendEvent × BuildInput) :=
  [(.textDelivery ⟨0, .gsm⟩ true [⟨2, true⟩], greeting), (.splitStep 0 ⟨0, false⟩, greeting),
    (.response ⟨0, .gsm⟩ 1 (.sendSmsResult 4) 1, greeting)]

def failedTwice : List (SendEvent × BuildInput) :=
  failedOnce ++ [(.retry 0 .gsm .encoded ⟨1, false⟩, greeting),
    (.response ⟨0, .gsm⟩ 2 (.sendSmsResult 4) 2, greeting)]

def greetingOctets : List UInt8 := [0x01, 0x01, 0x03, 0x81, 0x21, 0xF3, 0x00, 0x00, 0x02, 0xC8, 0x34]

def greetingResent : List UInt8 := [0x05, 0x01, 0x03, 0x81, 0x21, 0xF3, 0x00, 0x00, 0x02, 0xC8, 0x34]

/-- The cell behind its second failure. -/
def greetingCell : CellPdu where
  content := greeting.page.textContent 1 false
  first := greetingOctets
  built := greetingOctets
  encodePdu := greetingResent
  updated := true

def greetingIndexer : SmsSendIndexer :=
  ⟨1, 0, ⟨0, 0⟩, true, false, .gsm, 0, 0, 2, 4, true, 2⟩

/-- The second retry has TP-RD. -/
theorem csResend_isResendOf_second :
    handedPdu id ⟨false, 4⟩ (trackedRun ⟨false, 4⟩ (cellPdus id) failedTwice) 0 .gsm .encoded
        ⟨2, false⟩ greeting = some (⟨0, .gsm⟩, .cs, greetingResent) ∧
      IsResendOf greetingOctets greetingResent := by
  have hhanded : handedPdu id ⟨false, 4⟩ (trackedRun ⟨false, 4⟩ (cellPdus id) failedTwice) 0 .gsm
      .encoded ⟨2, false⟩ greeting = some (⟨0, .gsm⟩, .cs, greetingResent) := by
    decide +kernel
  refine ⟨hhanded, ?_⟩
  apply (csResend_isResendOf_iff id ⟨false, 4⟩ failedTwice 0 .gsm .encoded ⟨2, false⟩ greeting
    (⟨0, .gsm⟩, greetingIndexer) greetingCell ⟨0, .gsm⟩ greetingResent (by decide +kernel)
    (by decide +kernel) rfl hhanded).mpr
  exact ⟨rfl, rfl, 0x01, 0x01, _, rfl, rfl, rfl⟩

/-- The first retry is handed over as the first attempt was, without TP-RD. -/
theorem csResend_first_without_rejectDup :
    ∃ c handed, (trackedRun ⟨false, 4⟩ (cellPdus id) failedOnce).2.queued[0]? = some c ∧
      handedPdu id ⟨false, 4⟩ (trackedRun ⟨false, 4⟩ (cellPdus id) failedOnce) 0 .gsm .encoded
        ⟨1, false⟩ greeting = some (⟨0, .gsm⟩, .cs, handed) ∧ ¬ IsResendOf c.first handed := by
  refine ⟨{ greetingCell with encodePdu := greetingOctets, updated := false }, greetingOctets,
    by decide +kernel, by decide +kernel, ?_⟩
  rintro ⟨flags, rest, hfirst, hhanded⟩
  have hflags := List.head_eq_of_cons_eq hfirst
  have hset := List.head_eq_of_cons_eq hhanded
  rw [← hflags] at hset
  exact absurd hset (by decide)

end TelephonySms.Send
