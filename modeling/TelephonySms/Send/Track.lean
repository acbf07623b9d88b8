import TelephonySms.Send.Counters

/-! # Following a cell

A cell that is sent again leaves the cache, waits in the retry queue and comes
back into the cache under another reference. A tracker follows every cell on this
way with data of its own, beside a world that does not see it: what holds of a
cell and its data when the cell is split off, and is kept by every operation on
the two, holds in every run.
-/

namespace TelephonySms.Send

open TelephonySms.Machine

/-- The data of cells in the cache by reference, of those in the retry queue by
position. -/
structure Track (α : Type*) where
  inFlight : Nat → Option α
  queued : List α

/-- How the data of a cell changes: when it is split off, when `HandleResend`
queues it again, when the retry is prepared for a network, and when it is handed
over. `ε` is what the outside adds to an event. -/
structure Tracker (ε α : Type*) where
  split : ε → SplitLoop → α
  again : α → α
  retry : ε → NetWorkType → SmsSendIndexer → α → α
  sent : SenderId → SmsDomain → SmsSendIndexer → α → α

variable {ε α : Type*}

namespace Track

def init : Track α := ⟨fun _ => none, []⟩

/-- The cell with data `a` was handed over if `effects`, with which the world came
to `w`, say so. -/
def handOver (tr : Tracker ε α) (t : Track α) (w : SendWorld) (effects : List SendEffect)
    (a : α) : Track α :=
  match effects with
  | [.toRil sender refId domain] =>
      match w.cached refId with
      | some i =>
          { t with inFlight := Function.update t.inFlight refId (some (tr.sent sender domain i a)) }
      | none => t
  | _ => t

/-- The cell of reference `flag` enters the queue if `retries`, behind its response,
is longer than it was. -/
def requeue (tr : Tracker ε α) (t : Track α) (flag before retries : Nat) : Track α :=
  match t.inFlight flag with
  | some a => if retries = before + 1 then { t with queued := t.queued ++ [tr.again a] } else t
  | none => t

theorem requeue_same (tr : Tracker ε α) (t : Track α) (flag n : Nat) :
    t.requeue tr flag n n = t := by
  unfold requeue
  split
  · rw [if_neg (by omega)]
  · rfl

theorem requeue_grown (tr : Tracker ε α) {t : Track α} {flag : Nat} {a : α}
    (h : t.inFlight flag = some a) (n : Nat) :
    t.requeue tr flag n (n + 1) = { t with queued := t.queued ++ [tr.again a] } := by
  simp only [requeue, h, if_true]

def step (p : Platform) (tr : Tracker ε α) (w : SendWorld) (t : Track α) (x : ε)
    (e : SendEvent) : Track α :=
  let (w', effects) := w.step p e
  match e with
  | .splitStep message _ =>
      match w.splits.find? (·.message = message) with
      | some l => t.handOver tr w' effects (tr.split x l)
      | none => t
  | .response _ flag _ _ =>
      t.requeue tr flag w.retries.length w'.retries.length
  | .retry index net _ _ =>
      match w.retries[index]?, t.queued[index]? with
      | some r, some a =>
          ({ t with queued := t.queued.eraseIdx index } : Track α).handOver tr w' effects
            (tr.retry x net r.2 a)
      | _, _ => t
  | _ => t

end Track

/-- The world with its track, which the world does not see. -/
def trackedStep (p : Platform) (tr : Tracker ε α) (s : SendWorld × Track α)
    (e : SendEvent × ε) : SendWorld × Track α :=
  ((s.1.step p e.1).1, s.2.step p tr s.1 e.2 e.1)

def trackedRun (p : Platform) (tr : Tracker ε α) (events : List (SendEvent × ε)) :
    SendWorld × Track α :=
  events.foldl (trackedStep p tr) (.init, .init)

theorem foldl_trackedStep_fst (p : Platform) (tr : Tracker ε α) (events : List (SendEvent × ε))
    (s : SendWorld × Track α) :
    (events.foldl (trackedStep p tr) s).1 =
      (events.map (·.1)).foldl (next (SendWorld.step p)) s.1 := by
  induction events generalizing s with
  | nil => rfl
  | cons e events ih => exact ih _

theorem trackedRun_fst (p : Platform) (tr : Tracker ε α) (events : List (SendEvent × ε)) :
    (trackedRun p tr events).1 =
      (events.map (·.1)).foldl (next (SendWorld.step p)) .init :=
  foldl_trackedStep_fst p tr events _

theorem trackedRun_concat (p : Platform) (tr : Tracker ε α) (events : List (SendEvent × ε))
    (e : SendEvent × ε) :
    trackedRun p tr (events ++ [e]) = trackedStep p tr (trackedRun p tr events) e := by
  simp only [trackedRun, List.foldl_append, List.foldl_cons, List.foldl_nil]

/-! ## What the operations keep -/

/-- `R` holds of a cell and its data when the cell is split off, and every operation
on the two keeps it. The last is `RetriedSmsDelivery`, which may give the cell
another network, time, count and flag. -/
structure Follows (p : Platform) (tr : Tracker ε α) (R : SmsSendIndexer → α → Prop) : Prop where
  split : ∀ x l flag env, R (l.indexer flag env) (tr.split x l)
  sent : ∀ sender domain i a, R i a → R i (tr.sent sender domain i a)
  counted : ∀ refId i a, R i a → R (SendWorld.updateUnSentCellCount refId i) a
  answered : ∀ flag res i a, R i a → R (SendWorld.setResponse flag i res) a
  again : ∀ (w : SendWorld) sender i a, w.resends p sender i → R i a →
    R (w.countResend sender i) (tr.again a)
  retry : ∀ x net i a timeStamp unSentCellCount hasCellFailed, R i a →
    R { i with
        netWorkType := net
        timeStamp := timeStamp
        unSentCellCount := unSentCellCount
        hasCellFailed := hasCellFailed } (tr.retry x net i a)

/-- Every cell in the cache and in the queue has its data, and the two are in `R`. -/
structure Tracked (R : SmsSendIndexer → α → Prop) (w : SendWorld) (t : Track α) : Prop where
  wellFormed : WellFormed w
  inFlight : ∀ e ∈ w.sendCacheMap, ∃ a, t.inFlight e.1 = some a ∧ R e.2 a
  length : t.queued.length = w.retries.length
  queued : ∀ (k : Nat) r a, w.retries[k]? = some r → t.queued[k]? = some a → R r.2 a

/-- A response to a cell in the cache queues the cell once more, or it is the last
the cell gets. -/
theorem handleMessageResponse_cases (p : Platform) {w : SendWorld} (sender : SenderId)
    {flag : Nat} (res : RilResponse) (now : Int) {i : SmsSendIndexer}
    (hi : w.cached flag = some i) :
    ∃ w₁ : SendWorld, (∃ f, w₁ = { w with
        sendCacheMap := SendWorld.cacheAfterResponse w.sendCacheMap flag i.msgRefId now
        cellFailed := f }) ∧
      (w₁.resends p sender
          (SendWorld.updateUnSentCellCount i.msgRefId (SendWorld.setResponse flag i res)) ∧
        w.handleMessageResponse p sender flag res now =
          ({ w₁ with retries := w.retries ++ [(sender, w₁.countResend sender
            (SendWorld.updateUnSentCellCount i.msgRefId
              (SendWorld.setResponse flag i res)))] }, []) ∨
        (w.handleMessageResponse p sender flag res now).1 = w₁ ∧
          ∃ sent, .outcome i.message sent ∈ (w.handleMessageResponse p sender flag res now).2) := by
  simp only [SendWorld.handleMessageResponse, hi, updateUnSentCellCount_msgRefId,
    setResponse_msgRefId]
  split
  · unfold SendWorld.handleResend
    split
    case isTrue hresend => exact ⟨_, ⟨_, rfl⟩, .inl ⟨hresend, rfl⟩⟩
    case isFalse hfailed =>
      refine ⟨_, ⟨_, rfl⟩, .inr ⟨rfl, false, ?_⟩⟩
      simp [SendWorld.sendMessageFailed]
  · refine ⟨_, ⟨_, rfl⟩, .inr ⟨rfl, true, ?_⟩⟩
    simp [SendWorld.sendMessageSucceed]

theorem WellFormed.cached_handedOver {w : SendWorld} (h : WellFormed w) (sender : SenderId)
    (domain : SmsDomain) (i : SmsSendIndexer) :
    (w.handedOver sender domain i).cached (w.msgRef64bit + 1) = some i := by
  have hfresh : w.sendCacheMap.find? (·.1 = w.msgRef64bit + 1) = none := by
    rw [List.find?_eq_none]
    intro e he
    have hle := h.keysLe e he
    simp only [decide_eq_true_eq]
    omega
  show ((w.sendCacheMap ++ [(w.msgRef64bit + 1, i)]).find? _).map _ = some i
  rw [List.find?_append, hfresh]
  simp

namespace Tracked

variable {p : Platform} {tr : Tracker ε α} {R : SmsSendIndexer → α → Prop} {w : SendWorld}
  {t : Track α}

theorem init : Tracked R .init .init := by
  refine ⟨.init, ?_, rfl, ?_⟩ <;> simp [SendWorld.init]

/-- Only the cache and the retry queue matter. -/
theorem of_eq (h : Tracked R w t) {w' : SendWorld} (hwf : WellFormed w')
    (hcache : w'.sendCacheMap = w.sendCacheMap) (hretries : w'.retries = w.retries) :
    Tracked R w' t := by
  refine ⟨hwf, ?_, ?_, ?_⟩
  · rw [hcache]
    exact h.inFlight
  · rw [hretries]
    exact h.length
  · rw [hretries]
    exact h.queued

theorem exists_queued (h : Tracked R w t) {index : Nat} {r : SenderId × SmsSendIndexer}
    (hr : w.retries[index]? = some r) : ∃ a, t.queued[index]? = some a ∧ R r.2 a := by
  have hlt := (List.getElem?_eq_some_iff.mp hr).1
  have hlen := h.length
  have hsome : t.queued[index]? = some t.queued[index] := List.getElem?_eq_getElem (by omega)
  exact ⟨_, hsome, h.queued index r _ hr hsome⟩

section Follow

variable (hf : Follows p tr R) (h : Tracked R w t)
include hf h

theorem sendSmsToRil (sender : SenderId) (env : Env) {i : SmsSendIndexer} {a : α}
    (hmsg : i.message < w.nextMessage) (hi : R i a) :
    Tracked R (w.sendSmsToRil p sender env i).1
      (t.handOver tr (w.sendSmsToRil p sender env i).1 (w.sendSmsToRil p sender env i).2 a) := by
  rw [h.wellFormed.sendSmsToRil_eq]
  split
  · exact h
  · have hcached := h.wellFormed.cached_handedOver sender (w.sendDomain p sender env i) i
    simp only [Track.handOver, hcached]
    refine ⟨h.wellFormed.handedOver sender _ hmsg, ?_, h.length, h.queued⟩
    intro e he
    rcases List.mem_append.mp he with he | he
    · have hle := h.wellFormed.keysLe e he
      have hne : e.1 ≠ w.msgRef64bit + 1 := by omega
      obtain ⟨b, hb, hR⟩ := h.inFlight e he
      exact ⟨b, by simp [Function.update_of_ne hne, hb], hR⟩
    · rw [List.mem_singleton.mp he]
      exact ⟨_, Function.update_self _ _ _, hf.sent sender _ i a hi⟩

theorem resendDelivery (x : ε) (net : NetWorkType) (sender : SenderId) (reencoded : Reencoded)
    (env : Env) {i : SmsSendIndexer} {a : α} (hmsg : i.message < w.nextMessage) (hi : R i a) :
    Tracked R (w.resendDelivery p sender reencoded env { i with netWorkType := net }).1
      (t.handOver tr (w.resendDelivery p sender reencoded env { i with netWorkType := net }).1
        (w.resendDelivery p sender reencoded env { i with netWorkType := net }).2
        (tr.retry x net i a)) := by
  have hretry := hf.retry x net i a
  unfold SendWorld.resendDelivery
  cases reencoded with
  | dropped => exact h
  | failed => exact h
  | encoded =>
      dsimp only
      split
      · have hflag := h.of_eq (h.wellFormed.newCellFlag i.message) rfl rfl
        exact hflag.sendSmsToRil hf sender env hmsg (hretry env.now 1 _ hi)
      · exact h.sendSmsToRil hf sender env hmsg (hretry env.now _ _ hi)

theorem retriedSmsDelivery (x : ε) (net : NetWorkType) (slotId : Nat) (reencoded : Reencoded)
    (env : Env) {i : SmsSendIndexer} {a : α} (hmsg : i.message < w.nextMessage) (hi : R i a) :
    Tracked R (w.retriedSmsDelivery p slotId net reencoded env i).1
      (t.handOver tr (w.retriedSmsDelivery p slotId net reencoded env i).1
        (w.retriedSmsDelivery p slotId net reencoded env i).2 (tr.retry x net i a)) := by
  unfold SendWorld.retriedSmsDelivery
  split
  case isTrue hne =>
    cases net with
    | gsm => exact h.resendDelivery hf x .gsm _ reencoded env hmsg hi
    | cdma => exact h.resendDelivery hf x .cdma _ reencoded env hmsg hi
    | unknown => exact h
  case isFalse heq =>
    have hsame : i.netWorkType = net := not_not.mp heq
    have hretry : R i (tr.retry x net i a) := by
      have hkept := hf.retry x net i a i.timeStamp i.unSentCellCount i.hasCellFailed hi
      rwa [← hsame] at hkept ⊢
    cases net with
    | gsm => exact h.sendSmsToRil hf _ env hmsg hretry
    | cdma => exact h.sendSmsToRil hf _ env hmsg hretry
    | unknown => exact h

end Follow

theorem eraseRetry (h : Tracked R w t) (index : Nat) :
    Tracked R { w with retries := w.retries.eraseIdx index }
      { t with queued := t.queued.eraseIdx index } := by
  refine ⟨h.wellFormed.eraseRetry index, h.inFlight, ?_, ?_⟩
  · simp only [List.length_eraseIdx, h.length]
  · intro k r a hr ha
    rw [List.getElem?_eraseIdx] at hr ha
    split at hr
    case isTrue hlt =>
      rw [if_pos hlt] at ha
      exact h.queued k r a hr ha
    case isFalse hle =>
      rw [if_neg hle] at ha
      exact h.queued (k + 1) r a hr ha

section Step

variable (hf : Follows p tr R) (h : Tracked R w t)
include hf h

theorem deliverRetry (x : ε) (index : Nat) (net : NetWorkType) (reencoded : Reencoded)
    (env : Env) :
    Tracked R (w.deliverRetry p index net reencoded env).1
      (t.step p tr w x (.retry index net reencoded env)) := by
  simp only [Track.step, SendWorld.step]
  unfold SendWorld.deliverRetry
  cases hr : w.retries[index]? with
  | none => exact h
  | some r =>
      obtain ⟨a, ha, hR⟩ := h.exists_queued hr
      rw [ha]
      have hmsg := h.wellFormed.retryMessages r (List.mem_of_getElem? hr)
      exact (h.eraseRetry index).retriedSmsDelivery hf x net _ reencoded env hmsg hR

theorem splitStep (x : ε) (message : Nat) (env : Env) :
    Tracked R (w.splitStep p message env).1 (t.step p tr w x (.splitStep message env)) := by
  simp only [Track.step, SendWorld.step]
  unfold SendWorld.splitStep
  cases hfind : w.splits.find? (·.message = message) with
  | none => exact h
  | some l =>
      have hl := List.mem_of_find?_eq_some hfind
      have hmsg : l.message = message := by simpa using List.find?_some hfind
      have hlt := h.wellFormed.splitMessages l hl
      have hcells : ∀ cells, Tracked R (w.setCells message cells) t :=
        fun cells => h.of_eq (h.wellFormed.setCells message cells) rfl rfl
      dsimp only
      cases l.cells with
      | nil => exact hcells []
      | cons cell cells =>
          dsimp only
          cases SendWorld.cellStep l.kind cell with
          | stop => exact hcells []
          | skip => exact hcells cells
          | failAndStop => exact hcells []
          | failAndGoOn => exact hcells cells
          | send =>
              dsimp only
              cases hflag : l.hasCellFailed with
              | none =>
                  have hnew := h.of_eq
                    ((h.wellFormed.newCellFlag message).setCells message cells) rfl rfl
                  refine hnew.sendSmsToRil hf l.sender env ?_ (hf.split x l _ env)
                  show message < w.nextMessage
                  rwa [← hmsg]
              | some flag =>
                  refine (hcells cells).sendSmsToRil hf l.sender env ?_ (hf.split x l flag env)
                  show flag.message < w.nextMessage
                  rwa [h.wellFormed.splitFlags l hl flag (by simp [hflag])]

theorem cacheAfterResponse (flag refId : Nat) (now : Int) :
    Tracked R { w with
      sendCacheMap := SendWorld.cacheAfterResponse w.sendCacheMap flag refId now } t := by
  refine ⟨h.wellFormed.cacheAfterResponse flag refId now, ?_, h.length, h.queued⟩
  intro e he
  obtain ⟨e₀, he₀, -, -, rfl⟩ := mem_cacheAfterResponse.mp he
  obtain ⟨a, ha, hR⟩ := h.inFlight e₀ he₀
  exact ⟨a, ha, hf.counted refId e₀.2 a hR⟩

theorem response (x : ε) (sender : SenderId) (flag : Nat) (res : RilResponse) (now : Int) :
    Tracked R (w.handleMessageResponse p sender flag res now).1
      (t.step p tr w x (.response sender flag res now)) := by
  have hwf := h.wellFormed.response p sender flag res now
  simp only [Track.step, SendWorld.step]
  cases hfind : w.cached flag with
  | none =>
      have heq : w.handleMessageResponse p sender flag res now = (w, []) := by
        simp only [SendWorld.handleMessageResponse, hfind]
      rw [heq, Track.requeue_same]
      exact h
  | some i =>
      obtain ⟨a, ha, hR⟩ := h.inFlight _ (mem_of_cached hfind)
      obtain ⟨w₁, ⟨f, hw₁⟩, hcase⟩ := handleMessageResponse_cases p sender res now hfind
      have hcache := h.cacheAfterResponse hf flag i.msgRefId now
      have hretries : w₁.retries = w.retries := by rw [hw₁]
      have hinFlight : ∀ e ∈ w₁.sendCacheMap, ∃ a, t.inFlight e.1 = some a ∧ R e.2 a := by
        rw [hw₁]
        exact hcache.inFlight
      rcases hcase with ⟨hresend, heq⟩ | ⟨heq, -⟩
      · have hqueued := hf.again w₁ sender _ a hresend
          (hf.counted i.msgRefId _ a (hf.answered flag res i a hR))
        rw [heq] at hwf ⊢
        rw [List.length_append, List.length_singleton, Track.requeue_grown tr ha]
        refine ⟨hwf, hinFlight, by simp [h.length], ?_⟩
        intro k r b hr hb
        rw [List.getElem?_append] at hr hb
        rw [h.length] at hb
        split at hr
        case isTrue hlt =>
          rw [if_pos hlt] at hb
          exact h.queued k r b hr hb
        case isFalse hle =>
          rw [if_neg hle] at hb
          have hr := List.eq_of_mem_singleton (List.mem_of_getElem? hr)
          have hb := List.eq_of_mem_singleton (List.mem_of_getElem? hb)
          rw [hr, hb]
          exact hqueued
      · rw [heq] at hwf ⊢
        rw [hretries, Track.requeue_same]
        refine ⟨hwf, hinFlight, ?_, ?_⟩
        · rw [hretries]
          exact h.length
        · rw [hretries]
          exact h.queued

theorem step (x : ε) (e : SendEvent) : Tracked R (w.step p e).1 (t.step p tr w x e) := by
  have hwf := h.wellFormed.step p e
  cases e with
  | networkState sender ims inService => exact h.of_eq hwf rfl rfl
  | imsSmsCfg sender enable => exact h.of_eq hwf rfl rfl
  | textDelivery sender tpduOk cells =>
      show Tracked R (w.textBasedSmsDelivery sender tpduOk cells).1 t
      rw [SendWorld.step] at hwf
      rcases w.textBasedSmsDelivery_cases sender tpduOk cells with
        hcase | ⟨f, kind, ref, -, -, hcase⟩ <;> rw [hcase] at hwf ⊢ <;> exact h.of_eq hwf rfl rfl
  | dataDelivery sender tpduOk cells =>
      show Tracked R (w.dataBasedSmsDelivery sender tpduOk cells).1 t
      rw [SendWorld.step] at hwf
      obtain ⟨f, hcase | ⟨kind, ref, pages, -, hcase⟩⟩ :=
        w.dataBasedSmsDelivery_cases sender tpduOk cells <;>
          rw [hcase] at hwf ⊢ <;> exact h.of_eq hwf rfl rfl
  | splitStep message env => exact h.splitStep hf x message env
  | response sender flag res now => exact h.response hf x sender flag res now
  | retry index net reencoded env => exact h.deliverRetry hf x index net reencoded env

end Step

end Tracked

theorem tracked_of_run {p : Platform} {tr : Tracker ε α} {R : SmsSendIndexer → α → Prop}
    (hf : Follows p tr R) (events : List (SendEvent × ε)) :
    Tracked R (trackedRun p tr events).1 (trackedRun p tr events).2 := by
  have hstep : ∀ s e, Tracked R s.1 s.2 →
      Tracked R (trackedStep p tr s e).1 (trackedStep p tr s e).2 :=
    fun _ e h => h.step hf e.2 e.1
  exact foldl_invariant hstep events .init

end TelephonySms.Send
