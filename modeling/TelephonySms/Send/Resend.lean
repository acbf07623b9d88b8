import TelephonySms.Send.Track

/-! # How often one cell is sent again

`HandleResend` counts the attempts of a cell over each domain and stops at a
bound of each. The tally counts the attempts of a cell from outside, whatever its
counters say.
-/

namespace TelephonySms.Send

open TelephonySms.Machine

/-- How often a cell was queued to be sent again. -/
def tally : Tracker Unit Nat where
  split _ _ := 0
  again n := n + 1
  retry _ _ _ n := n
  sent _ _ _ n := n

def talliedRun (p : Platform) (events : List SendEvent) : SendWorld × Track Nat :=
  trackedRun p tally (events.map (·, ()))

theorem talliedRun_fst (p : Platform) (events : List SendEvent) :
    (talliedRun p events).1 = events.foldl (next (SendWorld.step p)) .init := by
  rw [talliedRun, trackedRun_fst, List.map_map]
  simp [Function.comp_def]

/-! ## The counters of one cell -/

/-- What `HandleResend` lets the two counters of a cell reach. -/
structure ResendBounded (i : SmsSendIndexer) : Prop where
  cs : i.csResendCount ≤ maxSendRetries
  ps : i.psResendCount ≤ maxSendRetries + 1

def SmsSendIndexer.resendCount (i : SmsSendIndexer) : Nat := i.csResendCount + i.psResendCount

theorem ResendBounded.resendCount_le {i : SmsSendIndexer} (h : ResendBounded i) :
    i.resendCount ≤ 2 * maxSendRetries + 1 := by
  have hcs := h.cs
  have hps := h.ps
  rw [SmsSendIndexer.resendCount]
  omega

/-- One more attempt is counted, and the guard of its domain keeps the bound. -/
theorem countResend_of_resends {p : Platform} {w : SendWorld} {sender : SenderId}
    {i : SmsSendIndexer} (h : w.resends p sender i) (hi : ResendBounded i) :
    ResendBounded (w.countResend sender i) ∧
      (w.countResend sender i).resendCount = i.resendCount + 1 := by
  simp only [SendWorld.resends, Bool.and_eq_true, Bool.or_eq_true] at h
  unfold SendWorld.countResend
  split
  case isTrue hps =>
    simp only [SendWorld.psResend, Bool.and_eq_true, decide_eq_true_eq] at hps
    refine ⟨⟨hi.cs, Nat.succ_le_succ hps.2⟩, ?_⟩
    show i.csResendCount + (i.psResendCount + 1) = _
    rw [SmsSendIndexer.resendCount]
    omega
  case isFalse hps =>
    have hcs := h.2.resolve_right hps
    simp only [SendWorld.csResend, Bool.and_eq_true, decide_eq_true_eq] at hcs
    refine ⟨⟨Nat.succ_le_of_lt hcs.2, hi.ps⟩, ?_⟩
    show i.csResendCount + 1 + i.psResendCount = _
    rw [SmsSendIndexer.resendCount]
    omega

/-- The counters of a cell are within their bounds and add up to its tally. -/
def Tallied (i : SmsSendIndexer) (n : Nat) : Prop := ResendBounded i ∧ n = i.resendCount

theorem tallied_updateUnSentCellCount (refId : Nat) {i : SmsSendIndexer} {n : Nat}
    (h : Tallied i n) : Tallied (SendWorld.updateUnSentCellCount refId i) n := by
  unfold SendWorld.updateUnSentCellCount
  split
  · exact ⟨⟨h.1.cs, h.1.ps⟩, h.2⟩
  · exact h

theorem tallied_setResponse (flag : Nat) (res : RilResponse) {i : SmsSendIndexer} {n : Nat}
    (h : Tallied i n) : Tallied (SendWorld.setResponse flag i res) n := by
  cases res with
  | radioResponse => exact ⟨⟨h.1.cs, h.1.ps⟩, h.2⟩
  | sendSmsResult errCode => exact ⟨⟨h.1.cs, h.1.ps⟩, h.2⟩

theorem tally_follows (p : Platform) : Follows p tally Tallied where
  split _ _ _ _ := ⟨⟨Nat.zero_le _, Nat.zero_le _⟩, rfl⟩
  sent _ _ _ _ h := h
  counted refId _ _ h := tallied_updateUnSentCellCount refId h
  answered flag res _ _ h := tallied_setResponse flag res h
  again w sender i n hresend h := by
    obtain ⟨hbounded, hcount⟩ := countResend_of_resends hresend h.1
    refine ⟨hbounded, ?_⟩
    rw [hcount, ← h.2]
    rfl
  retry _ _ _ _ _ _ _ h := ⟨⟨h.1.cs, h.1.ps⟩, h.2⟩

/-! ## Bounded retries -/

end TelephonySms.Send
