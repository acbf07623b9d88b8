import TelephonySms.Send.Sender

/-! # One message among all

What the world holds of one message, and which operations leave that alone. The
well-formedness of a reachable world is proved here too: references are fresh,
and a split loop, a cached cell and a retry all belong to a message that was
started.
-/

namespace TelephonySms.Send

open TelephonySms.Machine

/-- The world after a cell was handed to the radio. -/
def SendWorld.handedOver (w : SendWorld) (sender : SenderId) (domain : SmsDomain)
    (i : SmsSendIndexer) : SendWorld :=
  ({ w with
      msgRef64bit := w.msgRef64bit + 1
      sendCacheMap := w.sendCacheMap ++ [(w.msgRef64bit + 1, i)] } : SendWorld).updateSender
        sender fun s => { s with lastSmsDomain := domain }

@[simp] theorem updateUnSentCellCount_hasCellFailed (refId : Nat) (i : SmsSendIndexer) :
    (SendWorld.updateUnSentCellCount refId i).hasCellFailed = i.hasCellFailed := by
  unfold SendWorld.updateUnSentCellCount
  split <;> rfl

@[simp] theorem updateUnSentCellCount_message (refId : Nat) (i : SmsSendIndexer) :
    (SendWorld.updateUnSentCellCount refId i).message = i.message := by
  simp [SmsSendIndexer.message]

@[simp] theorem updateUnSentCellCount_msgRefId (refId : Nat) (i : SmsSendIndexer) :
    (SendWorld.updateUnSentCellCount refId i).msgRefId = i.msgRefId := by
  unfold SendWorld.updateUnSentCellCount
  split <;> rfl

@[simp] theorem setResponse_hasCellFailed (flag : Nat) (i : SmsSendIndexer) (res : RilResponse) :
    (SendWorld.setResponse flag i res).hasCellFailed = i.hasCellFailed := by
  cases res <;> rfl

@[simp] theorem setResponse_message (flag : Nat) (i : SmsSendIndexer) (res : RilResponse) :
    (SendWorld.setResponse flag i res).message = i.message := by
  cases res <;> rfl

@[simp] theorem setResponse_msgRefId (flag : Nat) (i : SmsSendIndexer) (res : RilResponse) :
    (SendWorld.setResponse flag i res).msgRefId = i.msgRefId := by
  cases res <;> rfl

section CountResend

variable (w : SendWorld) (sender : SenderId) (i : SmsSendIndexer)

/-- Counting an attempt changes the two resend counters only. -/
theorem countResend_fields :
    (w.countResend sender i).hasCellFailed = i.hasCellFailed ∧
      (w.countResend sender i).msgRefId = i.msgRefId ∧
      (w.countResend sender i).unSentCellCount = i.unSentCellCount ∧
      (w.countResend sender i).isText = i.isText := by
  unfold SendWorld.countResend
  split <;> exact ⟨rfl, rfl, rfl, rfl⟩

@[simp] theorem countResend_message : (w.countResend sender i).message = i.message :=
  congrArg CellFlag.message (countResend_fields w sender i).1

end CountResend

/-! ## How a message starts -/

namespace SendWorld

theorem updateSender_id (w : SendWorld) (sender : SenderId) : w.updateSender sender id = w := by
  simp [updateSender]

theorem textBasedSmsDelivery_cases (w : SendWorld) (sender : SenderId) (tpduOk : Bool)
    (cells : List Cell) :
    w.textBasedSmsDelivery sender tpduOk cells = w.refuse ∨
      ∃ f kind ref, kind.isText = true ∧ (sender.kind = .gsm → kind = .gsmText) ∧
        w.textBasedSmsDelivery sender tpduOk cells =
          ((w.updateSender sender f).newCellFlag w.nextMessage).1.startSplit sender kind ref
            (some ⟨w.nextMessage, w.nextFlag⟩) cells := by
  unfold textBasedSmsDelivery
  split
  · exact .inl rfl
  · right
    cases hkind : sender.kind with
    | gsm => exact ⟨_, _, _, rfl, fun _ => rfl, rfl⟩
    | cdma =>
        dsimp only
        split
        · exact ⟨_, .cdmaImsText, _, rfl, by simp, rfl⟩
        · exact ⟨_, .cdmaText, _, rfl, by simp, rfl⟩

theorem dataBasedSmsDelivery_cases (w : SendWorld) (sender : SenderId) (tpduOk : Bool)
    (cells : List Cell) :
    ∃ f, w.dataBasedSmsDelivery sender tpduOk cells = (w.updateSender sender f).refuse ∨
      ∃ kind ref pages, kind.isText = false ∧
        w.dataBasedSmsDelivery sender tpduOk cells =
          (w.updateSender sender f).startSplit sender kind ref none pages := by
  unfold dataBasedSmsDelivery
  cases sender.kind with
  | gsm =>
      dsimp only
      split
      · exact ⟨_, .inl rfl⟩
      · exact ⟨_, .inr ⟨.data, _, cells, rfl, rfl⟩⟩
  | cdma =>
      dsimp only
      split
      · split
        · exact ⟨_, .inl rfl⟩
        · exact ⟨_, .inr ⟨.data, _, cells, rfl, rfl⟩⟩
      · split
        · exact ⟨id, .inr ⟨.cdmaData, 0, [], rfl, by rw [updateSender_id]⟩⟩
        · split
          · exact ⟨id, .inl (by rw [updateSender_id])⟩
          · exact ⟨_, .inr ⟨.cdmaData, _, cells.take 1, rfl, rfl⟩⟩

end SendWorld

/-! ## Reachable worlds -/

structure WellFormed (w : SendWorld) : Prop where
  keys : (w.sendCacheMap.map (·.1)).Nodup
  keysLe : ∀ e ∈ w.sendCacheMap, e.1 ≤ w.msgRef64bit
  cacheMessages : ∀ e ∈ w.sendCacheMap, e.2.message < w.nextMessage
  retryMessages : ∀ e ∈ w.retries, e.2.message < w.nextMessage
  splitMessages : ∀ l ∈ w.splits, l.message < w.nextMessage
  splitFlags : ∀ l ∈ w.splits, ∀ flag ∈ l.hasCellFailed, flag.message = l.message
  splitNodup : (w.splits.map (·.message)).Nodup

namespace WellFormed

theorem init : WellFormed .init := by
  constructor <;> simp [SendWorld.init]

variable {w : SendWorld} (h : WellFormed w)
include h

theorem refId_fresh : w.sendCacheMap.any (·.1 = w.msgRef64bit + 1) = false := by
  rw [List.any_eq_false]
  intro e he
  have := h.keysLe e he
  simp only [decide_eq_true_eq]
  omega

theorem updateSender (sender : SenderId) (f : SmsSender → SmsSender) :
    WellFormed (w.updateSender sender f) :=
  ⟨h.keys, h.keysLe, h.cacheMessages, h.retryMessages, h.splitMessages, h.splitFlags,
    h.splitNodup⟩

theorem newCellFlag (message : Nat) : WellFormed (w.newCellFlag message).1 :=
  ⟨h.keys, h.keysLe, h.cacheMessages, h.retryMessages, h.splitMessages, h.splitFlags,
    h.splitNodup⟩

theorem eraseRetry (index : Nat) :
    WellFormed { w with retries := w.retries.eraseIdx index } :=
  ⟨h.keys, h.keysLe, h.cacheMessages,
    fun e he => h.retryMessages e (List.mem_of_mem_eraseIdx he),
    h.splitMessages, h.splitFlags, h.splitNodup⟩

theorem refuse : WellFormed w.refuse.1 where
  keys := h.keys
  keysLe := h.keysLe
  cacheMessages e he := Nat.lt_succ_of_lt (h.cacheMessages e he)
  retryMessages e he := Nat.lt_succ_of_lt (h.retryMessages e he)
  splitMessages l hl := Nat.lt_succ_of_lt (h.splitMessages l hl)
  splitFlags := h.splitFlags
  splitNodup := h.splitNodup

theorem startSplit (sender : SenderId) (kind : SplitKind) (ref : Nat) (flag : Option CellFlag)
    (cells : List Cell) (hflag : ∀ f ∈ flag, f.message = w.nextMessage) :
    WellFormed (w.startSplit sender kind ref flag cells).1 where
  keys := h.keys
  keysLe := h.keysLe
  cacheMessages e he := Nat.lt_succ_of_lt (h.cacheMessages e he)
  retryMessages e he := Nat.lt_succ_of_lt (h.retryMessages e he)
  splitMessages l hl := by
    simp only [SendWorld.startSplit] at hl ⊢
    split at hl
    · exact Nat.lt_succ_of_lt (h.splitMessages l hl)
    · rcases List.mem_append.mp hl with hl | hl
      · exact Nat.lt_succ_of_lt (h.splitMessages l hl)
      · simp [List.mem_singleton.mp hl]
  splitFlags l hl := by
    simp only [SendWorld.startSplit] at hl
    split at hl
    · exact h.splitFlags l hl
    · rcases List.mem_append.mp hl with hl | hl
      · exact h.splitFlags l hl
      · simpa [List.mem_singleton.mp hl] using hflag
  splitNodup := by
    simp only [SendWorld.startSplit]
    split
    · exact h.splitNodup
    · rw [List.map_append, List.nodup_append]
      refine ⟨h.splitNodup, by simp, ?_⟩
      intro a ha b hb hab
      obtain ⟨l, hl, rfl⟩ := List.mem_map.mp ha
      have := h.splitMessages l hl
      simp_all

theorem setCells (message : Nat) (cells : List Cell) :
    WellFormed (w.setCells message cells) := by
  have hkept : ∀ l ∈ (w.setCells message cells).splits, ∃ l₀ ∈ w.splits,
      l.message = l₀.message ∧ l.hasCellFailed = l₀.hasCellFailed := by
    intro l hl
    simp only [SendWorld.setCells] at hl
    split at hl
    · exact ⟨l, List.mem_of_mem_filter hl, rfl, rfl⟩
    · obtain ⟨l₀, hl₀, rfl⟩ := List.mem_map.mp hl
      refine ⟨l₀, hl₀, ?_⟩
      split <;> exact ⟨rfl, rfl⟩
  refine ⟨h.keys, h.keysLe, h.cacheMessages, h.retryMessages, ?_, ?_, ?_⟩
  · intro l hl
    obtain ⟨l₀, hl₀, hmsg, -⟩ := hkept l hl
    rw [hmsg]
    exact h.splitMessages l₀ hl₀
  · intro l hl
    obtain ⟨l₀, hl₀, hmsg, hflag⟩ := hkept l hl
    rw [hmsg, hflag]
    exact h.splitFlags l₀ hl₀
  · simp only [SendWorld.setCells]
    split
    · exact h.splitNodup.sublist (List.filter_sublist.map _)
    · have hmap : (w.splits.map fun l => if l.message = message then { l with cells := cells }
          else l).map (·.message) = w.splits.map (·.message) := by
        rw [List.map_map]
        apply List.map_congr_left
        intro l _
        simp only [Function.comp]
        split <;> rfl
      rw [hmap]
      exact h.splitNodup

theorem handedOver (sender : SenderId) (domain : SmsDomain) {i : SmsSendIndexer}
    (hi : i.message < w.nextMessage) : WellFormed (w.handedOver sender domain i) := by
  apply WellFormed.updateSender
  refine ⟨?_, ?_, ?_, h.retryMessages, h.splitMessages, h.splitFlags, h.splitNodup⟩
  · rw [List.map_append, List.nodup_append]
    refine ⟨h.keys, by simp, ?_⟩
    intro a ha b hb hab
    obtain ⟨e, he, rfl⟩ := List.mem_map.mp ha
    have hle := h.keysLe e he
    have hb : b = w.msgRef64bit + 1 := by simpa using hb
    omega
  · intro e he
    rcases List.mem_append.mp he with he | he
    · exact Nat.le_succ_of_le (h.keysLe e he)
    · simp [List.mem_singleton.mp he]
  · intro e he
    rcases List.mem_append.mp he with he | he
    · exact h.cacheMessages e he
    · simpa [List.mem_singleton.mp he] using hi

/-- The emplace of `SendCacheMapAddItem` never meets its own reference. -/
theorem sendSmsToRil_eq (p : Platform) (sender : SenderId) (env : Env) (i : SmsSendIndexer) :
    w.sendSmsToRil p sender env i =
      if w.notInService p sender env then
        (w, [.callback i.message .failureServiceUnavailable])
      else
        (w.handedOver sender (w.sendDomain p sender env i) i,
          [.toRil sender (w.msgRef64bit + 1) (w.sendDomain p sender env i)]) := by
  simp only [SendWorld.sendSmsToRil, h.refId_fresh, Bool.false_eq_true, if_false]
  rfl

theorem sendSmsToRil (p : Platform) (sender : SenderId) (env : Env) {i : SmsSendIndexer}
    (hi : i.message < w.nextMessage) : WellFormed (w.sendSmsToRil p sender env i).1 := by
  rw [h.sendSmsToRil_eq]
  split
  · exact h
  · exact h.handedOver sender _ hi

theorem resendDelivery (p : Platform) (sender : SenderId) (reencoded : Reencoded) (env : Env)
    {i : SmsSendIndexer} (hi : i.message < w.nextMessage) :
    WellFormed (w.resendDelivery p sender reencoded env i).1 := by
  unfold SendWorld.resendDelivery
  cases reencoded with
  | dropped => exact h
  | failed => exact h
  | encoded =>
      dsimp only
      split
      · exact (h.newCellFlag i.message).sendSmsToRil p sender env hi
      · exact h.sendSmsToRil p sender env hi

theorem retriedSmsDelivery (p : Platform) (slotId : Nat) (net : NetWorkType)
    (reencoded : Reencoded) (env : Env) {i : SmsSendIndexer} (hi : i.message < w.nextMessage) :
    WellFormed (w.retriedSmsDelivery p slotId net reencoded env i).1 := by
  unfold SendWorld.retriedSmsDelivery
  split
  · cases net with
    | gsm => exact h.resendDelivery p _ reencoded env hi
    | cdma => exact h.resendDelivery p _ reencoded env hi
    | unknown => exact h
  · cases net with
    | gsm => exact h.sendSmsToRil p _ env hi
    | cdma => exact h.sendSmsToRil p _ env hi
    | unknown => exact h

theorem splitStep (p : Platform) (message : Nat) (env : Env) :
    WellFormed (w.splitStep p message env).1 := by
  unfold SendWorld.splitStep
  cases hfind : w.splits.find? (·.message = message) with
  | none => exact h
  | some l =>
      have hl := List.mem_of_find?_eq_some hfind
      have hmsg : l.message = message := by simpa using List.find?_some hfind
      have hlt := h.splitMessages l hl
      dsimp only
      cases hcells : l.cells with
      | nil => exact h.setCells message []
      | cons cell cells =>
          dsimp only
          cases SendWorld.cellStep l.kind cell with
          | stop => exact h.setCells message []
          | skip => exact h.setCells message cells
          | failAndStop => exact h.setCells message []
          | failAndGoOn => exact h.setCells message cells
          | send =>
              dsimp only
              cases hflag : l.hasCellFailed with
              | none =>
                  apply ((h.newCellFlag message).setCells message cells).sendSmsToRil
                  show message < w.nextMessage
                  rwa [← hmsg]
              | some flag =>
                  apply (h.setCells message cells).sendSmsToRil
                  show flag.message < w.nextMessage
                  rwa [h.splitFlags l hl flag (by simp [hflag])]

theorem cacheAfterResponse (flag refId : Nat) (now : Int) :
    WellFormed { w with
      sendCacheMap := SendWorld.cacheAfterResponse w.sendCacheMap flag refId now } := by
  have hsub : (SendWorld.cacheAfterResponse w.sendCacheMap flag refId now).Sublist
      (w.sendCacheMap.map fun e => (e.1, SendWorld.updateUnSentCellCount refId e.2)) :=
    List.filter_sublist.trans List.filter_sublist
  refine ⟨?_, ?_, ?_, h.retryMessages, h.splitMessages, h.splitFlags, h.splitNodup⟩
  · have hkeys := h.keys
    refine List.Nodup.sublist (hsub.map (·.1)) ?_
    rw [List.map_map]
    exact hkeys
  · intro e he
    obtain ⟨e₀, he₀, rfl⟩ := List.mem_map.mp (hsub.subset he)
    exact h.keysLe e₀ he₀
  · intro e he
    obtain ⟨e₀, he₀, rfl⟩ := List.mem_map.mp (hsub.subset he)
    simpa using h.cacheMessages e₀ he₀

theorem handleResend (p : Platform) (sender : SenderId) {i : SmsSendIndexer}
    (hi : i.message < w.nextMessage) : WellFormed (w.handleResend p sender i).1 := by
  unfold SendWorld.handleResend
  split
  · refine ⟨h.keys, h.keysLe, h.cacheMessages, ?_, h.splitMessages, h.splitFlags, h.splitNodup⟩
    intro e he
    rcases List.mem_append.mp he with he | he
    · exact h.retryMessages e he
    · rw [List.mem_singleton.mp he]
      simpa using hi
  · exact ⟨h.keys, h.keysLe, h.cacheMessages, h.retryMessages, h.splitMessages, h.splitFlags,
      h.splitNodup⟩

theorem response (p : Platform) (sender : SenderId) (flag : Nat) (res : RilResponse)
    (now : Int) : WellFormed (w.handleMessageResponse p sender flag res now).1 := by
  unfold SendWorld.handleMessageResponse
  cases hfind : w.cached flag with
  | none => exact h
  | some i =>
      obtain ⟨e, he, rfl⟩ := Option.map_eq_some_iff.mp hfind
      have hi := h.cacheMessages e (List.mem_of_find?_eq_some he)
      dsimp only
      split
      · apply (h.cacheAfterResponse flag _ now).handleResend
        simpa using hi
      · exact h.cacheAfterResponse flag _ now

theorem step (p : Platform) (e : SendEvent) : WellFormed (w.step p e).1 := by
  cases e with
  | networkState sender ims inService =>
      simp only [SendWorld.step]
      exact h.updateSender sender _
  | imsSmsCfg sender enable =>
      simp only [SendWorld.step]
      exact h.updateSender sender _
  | textDelivery sender tpduOk cells =>
      rcases w.textBasedSmsDelivery_cases sender tpduOk cells with
        hcase | ⟨f, kind, ref, -, -, hcase⟩ <;>
          rw [SendWorld.step, hcase]
      · exact h.refuse
      · exact ((h.updateSender sender f).newCellFlag _).startSplit _ _ _ _ _ (by rintro _ ⟨⟩; rfl)
  | dataDelivery sender tpduOk cells =>
      obtain ⟨f, hcase | ⟨kind, ref, pages, -, hcase⟩⟩ :=
        w.dataBasedSmsDelivery_cases sender tpduOk cells <;>
          rw [SendWorld.step, hcase]
      · exact (h.updateSender sender f).refuse
      · exact (h.updateSender sender f).startSplit _ _ _ _ _ (by rintro _ ⟨⟩)
  | splitStep message env => exact h.splitStep p message env
  | response sender flag res now => exact h.response p sender flag res now
  | retry index net reencoded env =>
      show WellFormed (w.deliverRetry p index net reencoded env).1
      unfold SendWorld.deliverRetry
      cases hretry : w.retries[index]? with
      | none => exact h
      | some r =>
          have hr := h.retryMessages r (List.mem_of_getElem? hretry)
          exact (h.eraseRetry index).retriedSmsDelivery p _ net reencoded env hr

end WellFormed

theorem wellFormed_of_run (p : Platform) (events : List SendEvent) :
    WellFormed (events.foldl (next (SendWorld.step p)) .init) :=
  foldl_invariant (fun _ e h => h.step p e) events .init

end TelephonySms.Send
