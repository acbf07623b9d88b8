import TelephonySms.Send.Message

/-! # The radio process dies

`OnRilAdapterHostDied` is to fail every pending message. It holds the mutex of the cache
and calls `SendCacheMapEraseItem`, which locks it again, for a cell that was not answered
yet; it erases by the reference the last response wrote, which such a cell does not have;
and it passes over a cell whose earlier attempt failed.
-/

namespace TelephonySms.Send

open TelephonySms.Machine

/-- What becomes of a thread that locks a `std::mutex` it holds, which is undefined: it
waits for ever, or goes on as if the mutex were free. -/
inductive Relock where
  | blocks
  | goesOn
deriving DecidableEq, Repr

def initialCount : Nat := 0

namespace SendWorld

/-- The loop body for one entry of the cache; `none` is a thread that is blocked. The
indexer of the entry is shared with the cache. -/
def hostDiedEntry (relock : Relock) (w : SendWorld) (e : Nat × SmsSendIndexer) :
    Option (SendWorld × List SendEffect) :=
  if e.2.isFailure then some (w, [])
  else
    match relock with
    | .blocks => none
    | .goesOn =>
        let erased := w.sendCacheMap.filter (·.1 ≠ e.2.msgRefId64Bit)
        let failed := erased.map fun f =>
          if f.1 = e.1 then
            (f.1, { f.2 with
              isFailure := true, psResendCount := initialCount, csResendCount := initialCount })
          else f
        some ({ w with sendCacheMap := failed }, [.callback e.2.message .failureUnknown])

/-- The loop over the entries that are left. -/
def hostDiedLoop (relock : Relock) :
    SendWorld → List (Nat × SmsSendIndexer) → Option (SendWorld × List SendEffect)
  | w, [] => some (w, [])
  | w, e :: entries =>
      match w.hostDiedEntry relock e with
      | none => none
      | some (w, effects) =>
          (hostDiedLoop relock w entries).map fun rest => (rest.1, effects ++ rest.2)

/-- `SmsSender::OnRilAdapterHostDied`. -/
def hostDied (relock : Relock) (w : SendWorld) : Option (SendWorld × List SendEffect) :=
  w.hostDiedLoop relock w.sendCacheMap

/-- `SmsSendManager::OnRilAdapterHostDied`: the GSM sender and then the CDMA sender, which
share the cache. -/
def onRilAdapterHostDied (relock : Relock) (w : SendWorld) :
    Option (SendWorld × List SendEffect) :=
  match w.hostDied relock with
  | none => none
  | some (w, effects) => (w.hostDied relock).map fun rest => (rest.1, effects ++ rest.2)

end SendWorld

/-- What a sender goes through when the radio process may die. -/
inductive HostEvent where
  | send (event : SendEvent)
  | hostDied
deriving DecidableEq, Repr

section Runs

variable (p : Platform) (relock : Relock)

/-- A world with a blocked thread stays as it is. -/
def hostStep : Option SendWorld → HostEvent → Option SendWorld
  | none, _ => none
  | some w, .send event => some (w.step p event).1
  | some w, .hostDied => (w.onRilAdapterHostDied relock).map (·.1)

/-- The handler returns; of every pending message it has reported the failure and erased
the cells, and no response reports on it later. -/
def HostDeathReported (w : SendWorld) : Prop :=
  ∃ w' effects, w.onRilAdapterHostDied relock = some (w', effects) ∧
    ∀ e ∈ w.sendCacheMap,
      SendEffect.callback e.2.message .failureUnknown ∈ effects ∧
        (∀ f ∈ w'.sendCacheMap, f.2.message ≠ e.2.message) ∧
        ∀ (events : List HostEvent) (later : SendWorld),
          events.foldl (hostStep p relock) (some w') = some later →
            ∀ sender flag res now result,
              SendEffect.callback e.2.message result ∉
                (later.handleMessageResponse p sender flag res now).2

end Runs

/-! ## Cells that were not answered -/

/-- A cached cell that has not failed has no reference of its own yet, and no cell is
cached under zero. -/
structure Unanswered (w : SendWorld) : Prop where
  keys : ∀ e ∈ w.sendCacheMap, 0 < e.1
  cached : ∀ e ∈ w.sendCacheMap, e.2.isFailure = false → e.2.msgRefId64Bit = 0
  retried : ∀ e ∈ w.retries, e.2.isFailure = true

namespace Unanswered

theorem init : Unanswered .init := by
  constructor <;> simp [SendWorld.init]

variable {w : SendWorld}

theorem of_eq {w' : SendWorld} (h : Unanswered w) (hcache : w'.sendCacheMap = w.sendCacheMap)
    (hretries : w'.retries = w.retries) : Unanswered w' where
  keys := by rw [hcache]; exact h.keys
  cached := by rw [hcache]; exact h.cached
  retried := by rw [hretries]; exact h.retried

variable (h : Unanswered w)
include h

theorem sendSmsToRil (p : Platform) (sender : SenderId) (env : Env) {i : SmsSendIndexer}
    (hi : i.isFailure = false → i.msgRefId64Bit = 0) :
    Unanswered (w.sendSmsToRil p sender env i).1 := by
  unfold SendWorld.sendSmsToRil
  split
  · exact h
  · dsimp only
    split
    · cases sender.kind with
      | gsm => exact h.of_eq rfl rfl
      | cdma => exact h.of_eq rfl rfl
    · constructor
      · intro e he
        cases List.mem_append.1 he with
        | inl hold => exact h.keys e hold
        | inr hnew =>
            rw [List.mem_singleton.1 hnew]
            exact Nat.succ_pos _
      · intro e he
        cases List.mem_append.1 he with
        | inl hold => exact h.cached e hold
        | inr hnew =>
            rw [List.mem_singleton.1 hnew]
            exact hi
      · exact h.retried

theorem splitStep (p : Platform) (message : Nat) (env : Env) :
    Unanswered (w.splitStep p message env).1 := by
  unfold SendWorld.splitStep
  cases w.splits.find? (·.message = message) with
  | none => exact h
  | some l =>
      dsimp only
      cases l.cells with
      | nil => exact h.of_eq rfl rfl
      | cons cell cells =>
          dsimp only
          cases SendWorld.cellStep l.kind cell with
          | stop => exact h.of_eq rfl rfl
          | skip => exact h.of_eq rfl rfl
          | failAndStop => exact h.of_eq rfl rfl
          | failAndGoOn => exact h.of_eq rfl rfl
          | send =>
              cases l.hasCellFailed with
              | some flag =>
                  have hset : Unanswered (w.setCells message cells) := h.of_eq rfl rfl
                  exact hset.sendSmsToRil p l.sender env fun _ => rfl
              | none =>
                  have hset : Unanswered ((w.newCellFlag message).1.setCells message cells) :=
                    h.of_eq rfl rfl
                  exact hset.sendSmsToRil p l.sender env fun _ => rfl

theorem cacheAfterResponse (flag refId : Nat) (now : Int) :
    Unanswered
      { w with sendCacheMap := SendWorld.cacheAfterResponse w.sendCacheMap flag refId now } := by
  have hmem : ∀ e ∈ SendWorld.cacheAfterResponse w.sendCacheMap flag refId now,
      ∃ f ∈ w.sendCacheMap, e.1 = f.1 ∧ e.2.isFailure = f.2.isFailure ∧
        e.2.msgRefId64Bit = f.2.msgRefId64Bit := by
    intro e he
    have hin := List.mem_of_mem_filter (List.mem_of_mem_filter he)
    obtain ⟨f, hf, rfl⟩ := List.mem_map.1 hin
    refine ⟨f, hf, rfl, ?_⟩
    simp only [SendWorld.updateUnSentCellCount]
    split <;> exact ⟨rfl, rfl⟩
  constructor
  · intro e he
    obtain ⟨f, hf, hkey, -⟩ := hmem e he
    rw [hkey]
    exact h.keys f hf
  · intro e he hfailure
    obtain ⟨f, hf, -, hfail, href⟩ := hmem e he
    rw [href]
    exact h.cached f hf (by rw [← hfail]; exact hfailure)
  · exact h.retried

theorem response (p : Platform) (sender : SenderId) (flag : Nat) (res : RilResponse)
    (now : Int) : Unanswered (w.handleMessageResponse p sender flag res now).1 := by
  unfold SendWorld.handleMessageResponse
  cases w.cached flag with
  | none => exact h
  | some i =>
      dsimp only
      split
      · rename_i hfailure
        have hcache := h.cacheAfterResponse flag
          (SendWorld.updateUnSentCellCount i.msgRefId (SendWorld.setResponse flag i res)).msgRefId
          now
        unfold SendWorld.handleResend
        split
        · refine ⟨hcache.keys, hcache.cached, ?_⟩
          intro e he
          cases List.mem_append.1 he with
          | inl hold => exact h.retried e hold
          | inr hnew =>
              rw [List.mem_singleton.1 hnew]
              dsimp only [SendWorld.countResend]
              split <;> exact hfailure
        · exact hcache.of_eq rfl rfl
      · exact h.cacheAfterResponse flag _ now

theorem retry (p : Platform) (index : Nat) (net : NetWorkType) (reencoded : Reencoded)
    (env : Env) : Unanswered (w.deliverRetry p index net reencoded env).1 := by
  unfold SendWorld.deliverRetry
  cases hretry : w.retries[index]? with
  | none => exact h
  | some r =>
      obtain ⟨sender, i⟩ := r
      have hi : i.isFailure = true := h.retried _ (List.mem_of_getElem? hretry)
      have herased : Unanswered { w with retries := w.retries.eraseIdx index } :=
        ⟨h.keys, h.cached, fun e he => h.retried e (List.mem_of_mem_eraseIdx he)⟩
      have hsend : ∀ {v : SendWorld}, Unanswered v → ∀ (target : SenderId) (j : SmsSendIndexer),
          j.isFailure = true → Unanswered (v.sendSmsToRil p target env j).1 := by
        intro v hv target j hj
        exact hv.sendSmsToRil p target env fun hfalse => by simp [hj] at hfalse
      have hresend : ∀ (target : SenderId) (j : SmsSendIndexer), j.isFailure = true →
          Unanswered (({ w with retries := w.retries.eraseIdx index } : SendWorld).resendDelivery
            p target reencoded env j).1 := by
        intro target j hj
        unfold SendWorld.resendDelivery
        cases reencoded with
        | dropped => exact herased
        | failed => exact herased
        | encoded =>
            dsimp only
            split
            · have hflag : Unanswered (SendWorld.newCellFlag
                  { w with retries := w.retries.eraseIdx index } j.message).1 :=
                herased.of_eq rfl rfl
              exact hsend hflag target _ hj
            · exact hsend herased target _ hj
      dsimp only
      unfold SendWorld.retriedSmsDelivery
      split
      · cases net with
        | gsm => exact hresend _ _ hi
        | cdma => exact hresend _ _ hi
        | unknown => exact herased
      · cases net with
        | gsm => exact hsend herased _ _ hi
        | cdma => exact hsend herased _ _ hi
        | unknown => exact herased

theorem step (p : Platform) (e : SendEvent) : Unanswered (w.step p e).1 := by
  cases e with
  | networkState sender ims inService => exact h.of_eq rfl rfl
  | imsSmsCfg sender enable => exact h.of_eq rfl rfl
  | textDelivery sender tpduOk cells =>
      rcases w.textBasedSmsDelivery_cases sender tpduOk cells with
        hcase | ⟨f, kind, ref, -, -, hcase⟩ <;>
          rw [SendWorld.step, hcase] <;> exact h.of_eq rfl rfl
  | dataDelivery sender tpduOk cells =>
      obtain ⟨f, hcase | ⟨kind, ref, pages, -, hcase⟩⟩ :=
        w.dataBasedSmsDelivery_cases sender tpduOk cells <;>
          rw [SendWorld.step, hcase] <;> exact h.of_eq rfl rfl
  | splitStep message env => exact h.splitStep p message env
  | response sender flag res now => exact h.response p sender flag res now
  | retry index net reencoded env => exact h.retry p index net reencoded env

end Unanswered

/-! ## What the handler leaves -/

section Handler

variable {relock : Relock} {w w' : SendWorld} {effects : List SendEffect}

/-- An entry that goes through leaves every cell in the cache. -/
theorem hostDiedEntry_spec {e : Nat × SmsSendIndexer} (h : Unanswered w)
    (he : e.2.isFailure = false → e.2.msgRefId64Bit = 0)
    (hentry : w.hostDiedEntry relock e = some (w', effects)) :
    Unanswered w' ∧ w'.sendCacheMap.map (fun f => f.2.message) =
      w.sendCacheMap.map fun f => f.2.message := by
  unfold SendWorld.hostDiedEntry at hentry
  cases hfailure : e.2.isFailure with
  | true =>
      simp only [hfailure, if_true, Option.some.injEq, Prod.mk.injEq] at hentry
      rw [← hentry.1]
      exact ⟨h, rfl⟩
  | false =>
      cases relock with
      | blocks => simp [hfailure] at hentry
      | goesOn =>
          have hkeep : w.sendCacheMap.filter (·.1 ≠ e.2.msgRefId64Bit) = w.sendCacheMap := by
            rw [he hfailure, List.filter_eq_self]
            intro f hf
            simpa using Nat.ne_of_gt (h.keys f hf)
          simp only [hfailure, Bool.false_eq_true, if_false, hkeep, Option.some.injEq,
            Prod.mk.injEq] at hentry
          rw [← hentry.1]
          refine ⟨⟨?_, ?_, h.retried⟩, ?_⟩
          · rw [List.forall_mem_map]
            intro f hf
            split <;> exact h.keys f hf
          · rw [List.forall_mem_map]
            intro f hf
            split
            · simp
            · exact h.cached f hf
          · rw [List.map_map]
            refine List.map_congr_left fun f _ => ?_
            simp only [Function.comp_apply]
            split <;> rfl

theorem hostDiedLoop_spec {entries : List (Nat × SmsSendIndexer)} (h : Unanswered w)
    (he : ∀ e ∈ entries, e.2.isFailure = false → e.2.msgRefId64Bit = 0)
    (hloop : w.hostDiedLoop relock entries = some (w', effects)) :
    Unanswered w' ∧ w'.sendCacheMap.map (fun f => f.2.message) =
      w.sendCacheMap.map fun f => f.2.message := by
  induction entries generalizing w w' effects with
  | nil =>
      cases hloop
      exact ⟨h, rfl⟩
  | cons e entries ih =>
      obtain ⟨hfirst, hrest⟩ := List.forall_mem_cons.1 he
      rw [SendWorld.hostDiedLoop] at hloop
      cases hentry : w.hostDiedEntry relock e with
      | none => simp [hentry] at hloop
      | some r =>
          obtain ⟨v, first⟩ := r
          obtain ⟨hv, hmessages⟩ := hostDiedEntry_spec h hfirst hentry
          simp only [hentry, Option.map_eq_some_iff] at hloop
          obtain ⟨rest, hloop, hresult⟩ := hloop
          obtain ⟨hlast, hmore⟩ := ih hv hrest hloop
          cases hresult
          exact ⟨hlast, hmore.trans hmessages⟩

theorem onRilAdapterHostDied_spec (h : Unanswered w)
    (hdied : w.onRilAdapterHostDied relock = some (w', effects)) :
    Unanswered w' ∧ w'.sendCacheMap.map (fun f => f.2.message) =
      w.sendCacheMap.map fun f => f.2.message := by
  unfold SendWorld.onRilAdapterHostDied at hdied
  cases hgsm : w.hostDied relock with
  | none => simp [hgsm] at hdied
  | some r =>
      obtain ⟨v, first⟩ := r
      obtain ⟨hv, hfirst⟩ := hostDiedLoop_spec h h.cached hgsm
      simp only [hgsm, Option.map_eq_some_iff] at hdied
      obtain ⟨rest, hcdma, hresult⟩ := hdied
      obtain ⟨hlast, hmore⟩ := hostDiedLoop_spec hv hv.cached hcdma
      cases hresult
      exact ⟨hlast, hmore.trans hfirst⟩

theorem unanswered_hostStep (p : Platform) (event : HostEvent) (h : Unanswered w)
    (hstep : hostStep p relock (some w) event = some w') : Unanswered w' := by
  cases event with
  | send event =>
      cases hstep
      exact h.step p event
  | hostDied =>
      obtain ⟨r, hdied, rfl⟩ := Option.map_eq_some_iff.1 hstep
      exact (onRilAdapterHostDied_spec h hdied).1

theorem unanswered_of_run (p : Platform) (relock : Relock) (events : List HostEvent) :
    ∀ w ∈ events.foldl (hostStep p relock) (some .init), Unanswered w := by
  have hstep : ∀ (s : Option SendWorld) (event : HostEvent), (∀ w ∈ s, Unanswered w) →
      ∀ w ∈ hostStep p relock s event, Unanswered w := by
    intro s event hs w hw
    cases s with
    | none => cases hw
    | some v => exact unanswered_hostStep p event (hs v rfl) hw
  have hinit : ∀ w ∈ some SendWorld.init, Unanswered w := by
    intro w hw
    cases hw
    exact .init
  exact foldl_invariant hstep events hinit

end Handler

/-- The death of the radio process is reported as it should be only when no cell is
waiting for an answer. -/
theorem hostDeathReported_iff (p : Platform) (relock : Relock) (events : List HostEvent)
    (w : SendWorld) (hrun : events.foldl (hostStep p relock) (some .init) = some w) :
    HostDeathReported p relock w ↔ w.sendCacheMap = [] := by
  have h := unanswered_of_run p relock events w hrun
  constructor
  · rintro ⟨w', effects, hdied, hreported⟩
    by_contra hne
    obtain ⟨e, he⟩ := List.exists_mem_of_ne_nil _ hne
    obtain ⟨-, hgone, -⟩ := hreported e he
    have hmem : e.2.message ∈ w'.sendCacheMap.map fun f => f.2.message := by
      rw [(onRilAdapterHostDied_spec h hdied).2]
      exact List.mem_map.2 ⟨e, he, rfl⟩
    obtain ⟨f, hf, hmessage⟩ := List.mem_map.1 hmem
    exact hgone f hf hmessage
  · intro hnil
    refine ⟨w, [], ?_, by simp [hnil]⟩
    simp [SendWorld.onRilAdapterHostDied, SendWorld.hostDied, SendWorld.hostDiedLoop, hnil]

/-- Before anything is sent there is nothing to report. -/
theorem hostDeathReported_init :
    HostDeathReported ⟨false, 0⟩ .blocks .init ↔ SendWorld.init.sendCacheMap = [] :=
  hostDeathReported_iff ⟨false, 0⟩ .blocks [] .init rfl

/-- One cell is on its way when the radio process dies: the thread blocks. -/
theorem hostDeath_one_cell :
    ∃ (events : List HostEvent) (w : SendWorld),
      events.foldl (hostStep ⟨false, 0⟩ .blocks) (some .init) = some w ∧
        w.sendCacheMap.length = 1 ∧ ¬ HostDeathReported ⟨false, 0⟩ .blocks w := by
  refine ⟨[.send (.textDelivery ⟨0, .gsm⟩ true [⟨10, true⟩]), .send (.splitStep 0 ⟨0, false⟩)],
    _, rfl, rfl, ?_⟩
  rintro ⟨w', effects, hdied, -⟩
  have hblocked : (none : Option (SendWorld × List SendEffect)) = some (w', effects) := hdied
  cases hblocked

end TelephonySms.Send
