import Mathlib.Data.List.Nodup
import TelephonySms.Send.Message

/-! # Whose counters a response touches

`UpdateUnSentCellCount` finds the cells of a message by an 8-bit reference that
each sender counts on its own, in a cache all senders share.
-/

namespace TelephonySms.Send

open TelephonySms.Machine

/-- Every entry that stays in the cache and is not of message `a` has the counter
and the flag it had. -/
def KeepsOthers (a : Nat) (w w' : SendWorld) : Prop :=
  ∀ e ∈ w.sendCacheMap, ∀ e' ∈ w'.sendCacheMap, e'.1 = e.1 → e.2.message ≠ a →
    e'.2.unSentCellCount = e.2.unSentCellCount ∧
      w'.cellFailed e'.2.hasCellFailed = w.cellFailed e.2.hasCellFailed

/-- No cell of another message that stays in the cache shares the reference of the
answered cell `i` and still counts cells. -/
def NoSharedReference (w : SendWorld) (i : SmsSendIndexer) (now : Int) : Prop :=
  ∀ e ∈ w.sendCacheMap, e.2.message ≠ i.message → SendWorld.isExpired now e.2 = false →
    e.2.msgRefId = i.msgRefId → e.2.unSentCellCount = 0

theorem isExpired_updateUnSentCellCount (now : Int) (refId : Nat) (i : SmsSendIndexer) :
    SendWorld.isExpired now (SendWorld.updateUnSentCellCount refId i) =
      SendWorld.isExpired now i := by
  unfold SendWorld.updateUnSentCellCount
  split <;> rfl

theorem unSentCellCount_updateUnSentCellCount_iff (refId : Nat) (i : SmsSendIndexer) :
    (SendWorld.updateUnSentCellCount refId i).unSentCellCount = i.unSentCellCount ↔
      (i.msgRefId = refId → i.unSentCellCount = 0) := by
  unfold SendWorld.updateUnSentCellCount
  split
  · simp only
    omega
  · simp only [true_iff]
    omega

theorem mem_cacheAfterResponse {cache : List (Nat × SmsSendIndexer)} {flag refId : Nat}
    {now : Int} {e' : Nat × SmsSendIndexer} :
    e' ∈ SendWorld.cacheAfterResponse cache flag refId now ↔
      ∃ e ∈ cache, e.1 ≠ flag ∧ SendWorld.isExpired now e.2 = false ∧
        e' = (e.1, SendWorld.updateUnSentCellCount refId e.2) := by
  simp only [SendWorld.cacheAfterResponse, List.mem_filter, List.mem_map, decide_eq_true_eq,
    Bool.not_eq_true']
  constructor
  · rintro ⟨⟨⟨e, he, rfl⟩, hflag⟩, hexp⟩
    rw [isExpired_updateUnSentCellCount] at hexp
    exact ⟨e, he, hflag, hexp, rfl⟩
  · rintro ⟨e, he, hflag, hexp, rfl⟩
    refine ⟨⟨⟨e, he, rfl⟩, hflag⟩, ?_⟩
    rw [isExpired_updateUnSentCellCount]
    exact hexp

theorem mem_of_cached {w : SendWorld} {flag : Nat} {i : SmsSendIndexer}
    (h : w.cached flag = some i) : (flag, i) ∈ w.sendCacheMap := by
  obtain ⟨e, he, rfl⟩ := Option.map_eq_some_iff.mp h
  have hflag : e.1 = flag := by simpa using List.find?_some he
  rw [← hflag]
  exact List.mem_of_find?_eq_some he

/-- The cache and the flags behind a response: the former is counted through, and
at most the flag of the answered cell is raised. -/
theorem handleMessageResponse_fields (p : Platform) {w : SendWorld} (sender : SenderId)
    {flag : Nat} (res : RilResponse) (now : Int) {i : SmsSendIndexer}
    (hi : w.cached flag = some i) :
    (w.handleMessageResponse p sender flag res now).1.sendCacheMap =
        SendWorld.cacheAfterResponse w.sendCacheMap flag i.msgRefId now ∧
      ∀ f, f ≠ i.hasCellFailed →
        (w.handleMessageResponse p sender flag res now).1.cellFailed f = w.cellFailed f := by
  simp only [SendWorld.handleMessageResponse, hi, updateUnSentCellCount_msgRefId,
    setResponse_msgRefId]
  split
  · unfold SendWorld.handleResend
    split
    · exact ⟨rfl, fun _ _ => rfl⟩
    · refine ⟨rfl, fun f hf => ?_⟩
      simp [SendWorld.sendMessageFailed, Function.update_of_ne hf]
  · exact ⟨rfl, fun _ _ => rfl⟩

/-- In every reachable world a response leaves the counters and flags of all other
messages alone exactly when none of them shares the reference. -/
theorem response_keepsOthers_iff (p : Platform) (events : List SendEvent) (sender : SenderId)
    (flag : Nat) (res : RilResponse) (now : Int) (i : SmsSendIndexer)
    (hi : (events.foldl (next (SendWorld.step p)) .init).cached flag = some i) :
    KeepsOthers i.message (events.foldl (next (SendWorld.step p)) .init)
        (SendWorld.step p (events.foldl (next (SendWorld.step p)) .init)
          (.response sender flag res now)).1 ↔
      NoSharedReference (events.foldl (next (SendWorld.step p)) .init) i now := by
  have hwf := wellFormed_of_run p events
  generalize events.foldl (next (SendWorld.step p)) .init = w at hi hwf
  obtain ⟨hcache, hflags⟩ := handleMessageResponse_fields p sender res now hi
  have hkey : ∀ e ∈ w.sendCacheMap, ∀ e₀ ∈ w.sendCacheMap, e.1 = e₀.1 → e = e₀ :=
    fun e he e₀ he₀ heq => List.inj_on_of_nodup_map hwf.keys he he₀ heq
  simp only [KeepsOthers, SendWorld.step, hcache, mem_cacheAfterResponse]
  constructor
  · intro h e he hother hexp href
    have hne : e.1 ≠ flag := by
      intro heq
      have := hkey e he (flag, i) (mem_of_cached hi) heq
      simp [this] at hother
    have hkeep := h e he _ ⟨e, he, hne, hexp, rfl⟩ rfl hother
    exact (unSentCellCount_updateUnSentCellCount_iff _ _).mp hkeep.1 href
  · rintro h e he _ ⟨e₀, he₀, -, hexp, rfl⟩ heq hother
    obtain rfl := hkey e₀ he₀ e he heq
    refine ⟨(unSentCellCount_updateUnSentCellCount_iff _ _).mpr (h e₀ he hother hexp), ?_⟩
    rw [updateUnSentCellCount_hasCellFailed]
    apply hflags
    intro hflag
    exact hother (congrArg CellFlag.message hflag)

instance (a : Nat) (w w' : SendWorld) : Decidable (KeepsOthers a w w') :=
  inferInstanceAs (Decidable (∀ e ∈ w.sendCacheMap, ∀ e' ∈ w'.sendCacheMap, _ → _ → _ ∧ _))

instance (w : SendWorld) (i : SmsSendIndexer) (now : Int) :
    Decidable (NoSharedReference w i now) :=
  inferInstanceAs (Decidable (∀ e ∈ w.sendCacheMap, _ → _ → _ → _))

/-- A text of one cell, split and handed over as message `message`. -/
def singleText (slotId message : Nat) : List SendEvent :=
  [.textDelivery ⟨slotId, .gsm⟩ true [⟨10, true⟩], .splitStep message ⟨0, false⟩]

/-- Two texts of one sender: their references are one and two. -/
theorem response_keepsOthers_one_slot :
    ∃ i, ((singleText 0 0 ++ singleText 0 1).foldl (next (SendWorld.step ⟨false, 4⟩))
        .init).cached 1 = some i ∧
      KeepsOthers i.message
        ((singleText 0 0 ++ singleText 0 1).foldl (next (SendWorld.step ⟨false, 4⟩)) .init)
        (SendWorld.step ⟨false, 4⟩
          ((singleText 0 0 ++ singleText 0 1).foldl (next (SendWorld.step ⟨false, 4⟩)) .init)
          (.response ⟨0, .gsm⟩ 1 (.sendSmsResult 0) 1)).1 := by
  refine ⟨_, rfl, ?_⟩
  apply (response_keepsOthers_iff ⟨false, 4⟩ (singleText 0 0 ++ singleText 0 1) ⟨0, .gsm⟩ 1
    (.sendSmsResult 0) 1 _ rfl).mpr
  decide

/-- The first texts of two slots both have reference one: the response to the first
counts down the second. -/
theorem response_touches_other_slot :
    ¬ KeepsOthers 0
      ((singleText 0 0 ++ singleText 1 1).foldl (next (SendWorld.step ⟨false, 4⟩)) .init)
      (SendWorld.step ⟨false, 4⟩
        ((singleText 0 0 ++ singleText 1 1).foldl (next (SendWorld.step ⟨false, 4⟩)) .init)
        (.response ⟨0, .gsm⟩ 1 (.sendSmsResult 0) 1)).1 := by
  decide

end TelephonySms.Send
