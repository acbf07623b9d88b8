import TelephonySms.Machine
import TelephonySms.Receive.Handler

/-! # The queue behind a data share that is down

`SmsReceiveHandler` reacts to two events here: an incoming message, and the
`RETRY_CONNECT_DATASHARE` timer it sent to itself. The runner delivers one
event at a time; whether the data share is ready is asked anew in each of them.
-/

namespace TelephonySms.Receive

open TelephonySms.Machine

structure HandlerState (μ : Type*) where
  table : SmsTable
  smsBaseMessageQueue : List μ
  alreadySendEvent : Bool
  reconnectDataShareCount : Nat
  /-- Retry events sent and not yet delivered. -/
  pendingRetry : Nat

namespace HandlerState

def init {μ : Type*} (t : SmsTable) : HandlerState μ := ⟨t, [], false, 0, 0⟩

end HandlerState

inductive HandlerEvent (μ : Type*) where
  /-- `message` is `none` when `TransformMessageInfo` fails. -/
  | sms (policyDisabled dataShareReady : Bool) (ds : DataShare) (message : Option μ)
  /-- The runner delivers a retry event; `ds` answers the drained messages in turn. -/
  | retryConnect (dataShareReady : Bool) (ds : Nat → DataShare)

inductive TimerChange where
  | armed
  | retryFailed
  | gaveUp
  | drained
deriving DecidableEq, Repr

inductive HandlerOutput (μ : Type*) where
  | policyReply
  | direct (m : μ) (reply : AckIncomeCause) (out : List Effect)
  | deferred (m : μ) (reply : AckIncomeCause) (out : List Effect)
  | drained (m : μ) (out : List Effect)
  | timer (c : TimerChange)

def reconnectMaxCount : Nat := 20

section Step

variable {μ : Type*} (h : SmsReceiveHandler μ)

/-- `HandleReceivedSms`. -/
def handleReceivedSms (s : HandlerState μ) (ds : DataShare) :
    Option μ → HandlerState μ × List (HandlerOutput μ)
  | none => (s, [])
  | some m =>
      let (reply, t, out) := h.handleSmsByType ds s.table m
      ({ s with table := t }, [.direct m reply out])

/-- `HandleReceivedSmsWithoutDataShare`. -/
def handleReceivedSmsWithoutDataShare (s : HandlerState μ) (ds : DataShare) :
    Option μ → HandlerState μ × List (HandlerOutput μ)
  | none => (s, [])
  | some m =>
      let (reply, out) := h.handleAck ds m
      if reply.isOk then
        ({ s with smsBaseMessageQueue := s.smsBaseMessageQueue ++ [m] },
          [.deferred m reply out])
      else (s, [.deferred m reply out])

def handleSmsEvent (s : HandlerState μ) (policyDisabled ready : Bool) (ds : DataShare)
    (message : Option μ) : HandlerState μ × List (HandlerOutput μ) :=
  if policyDisabled then (s, [.policyReply])
  else if !s.alreadySendEvent then
    if ready then handleReceivedSms h s ds message
    else
      let (s, out) := handleReceivedSmsWithoutDataShare h s ds message
      ({ s with alreadySendEvent := true, pendingRetry := s.pendingRetry + 1 },
        out ++ [.timer .armed])
  else handleReceivedSmsWithoutDataShare h s ds message

/-- The loop of `HandleMessageQueue`: `i` counts the messages popped before. -/
def drainQueue (ds : Nat → DataShare) (i : Nat) (t : SmsTable) :
    List μ → SmsTable × List (HandlerOutput μ)
  | [] => (t, [])
  | m :: queue =>
      let (t, out) := h.handleRemainDataShare (ds i) t m
      let (t, outs) := drainQueue ds (i + 1) t queue
      (t, .drained m out :: outs)

def handleMessageQueue (s : HandlerState μ) (ds : Nat → DataShare) :
    HandlerState μ × List (HandlerOutput μ) :=
  let (t, outs) := drainQueue h ds 0 s.table s.smsBaseMessageQueue
  ({ s with
      table := t
      smsBaseMessageQueue := []
      reconnectDataShareCount := 0
      alreadySendEvent := false },
    outs ++ [.timer .drained])

def handleReconnectEvent (s : HandlerState μ) (ready : Bool) (ds : Nat → DataShare) :
    HandlerState μ × List (HandlerOutput μ) :=
  if ready then handleMessageQueue h s ds
  else
    let count := s.reconnectDataShareCount + 1
    if count ≥ reconnectMaxCount then
      ({ s with reconnectDataShareCount := 0, alreadySendEvent := false }, [.timer .gaveUp])
    else
      ({ s with reconnectDataShareCount := count, pendingRetry := s.pendingRetry + 1 },
        [.timer .retryFailed])

/-- `ProcessEvent`; a retry event can only be delivered when one was sent. -/
def HandlerState.step (s : HandlerState μ) : HandlerEvent μ →
    HandlerState μ × List (HandlerOutput μ)
  | .sms policyDisabled ready ds message => handleSmsEvent h s policyDisabled ready ds message
  | .retryConnect ready ds =>
      if s.pendingRetry = 0 then (s, [])
      else handleReconnectEvent h { s with pendingRetry := s.pendingRetry - 1 } ready ds

end Step

/-! ## Reading a run -/

namespace HandlerOutput

variable {μ : Type*}

/-- The message, when the network got a positive answer for it in this step. -/
def acknowledged? : HandlerOutput μ → Option μ
  | .direct m reply _ => if reply.isOk then some m else none
  | .deferred m reply _ => if reply.isOk then some m else none
  | _ => none

/-- The acknowledged message, when it was processed in this step. -/
def processed? : HandlerOutput μ → Option μ
  | .direct m reply _ => if reply.isOk then some m else none
  | .drained m _ => some m
  | _ => none

def deferred? : HandlerOutput μ → Option μ
  | .deferred m reply _ => if reply.isOk then some m else none
  | _ => none

def drained? : HandlerOutput μ → Option μ
  | .drained m _ => some m
  | _ => none

def timer? : HandlerOutput μ → Option TimerChange
  | .timer c => some c
  | _ => none

end HandlerOutput

open HandlerOutput

/-! ## The run invariant -/

section Invariant

variable {μ : Type*} (h : SmsReceiveHandler μ)

/-- Whatever reads a drained message by `g` reads the queue out of a drain. -/
theorem filterMap_drainQueue {α : Type*} {f : HandlerOutput μ → Option α} {g : μ → Option α}
    (hf : ∀ m out, f (.drained m out) = g m) (ds : Nat → DataShare) (i : Nat) (t : SmsTable)
    (queue : List μ) : (drainQueue h ds i t queue).2.filterMap f = queue.filterMap g := by
  induction queue generalizing i t with
  | nil => rfl
  | cons m queue ih => simp [drainQueue, List.filterMap_cons, hf, ih]

/-- What ties the queue, the flag, the counter and the timer to the outputs so far. -/
structure QueueInvariant (outs : List (HandlerOutput μ)) (s : HandlerState μ) : Prop where
  pending : s.pendingRetry = if s.alreadySendEvent then 1 else 0
  idle : s.alreadySendEvent = false → s.reconnectDataShareCount = 0
  retrying : s.alreadySendEvent = true → s.reconnectDataShareCount < reconnectMaxCount ∧
    ∃ pre, outs.filterMap timer? =
      pre ++ TimerChange.armed :: List.replicate s.reconnectDataShareCount .retryFailed
  stranded : s.alreadySendEvent = false → s.smsBaseMessageQueue ≠ [] →
    ∃ pre, outs.filterMap timer? =
      pre ++ TimerChange.armed ::
        (List.replicate (reconnectMaxCount - 1) .retryFailed ++ [.gaveUp])
  fifo : outs.filterMap deferred? = outs.filterMap drained? ++ s.smsBaseMessageQueue
  order : .gaveUp ∉ outs.filterMap timer? →
    outs.filterMap acknowledged? = outs.filterMap processed? ++ s.smsBaseMessageQueue

theorem QueueInvariant.init (t : SmsTable) : 
    QueueInvariant [] (HandlerState.init t : HandlerState μ) where
  pending := rfl
  idle _ := rfl
  retrying hs := by simp [HandlerState.init] at hs
  stranded _ hq := absurd rfl hq
  fifo := rfl
  order _ := rfl

/-- A message received without the data share joins the queue when it is acknowledged. -/
theorem handleReceivedSmsWithoutDataShare_spec (s : HandlerState μ) (ds : DataShare)
    (message : Option μ) :
    ∃ accepted : List μ, ∃ outs,
      handleReceivedSmsWithoutDataShare h s ds message =
        ({ s with smsBaseMessageQueue := s.smsBaseMessageQueue ++ accepted }, outs) ∧
      outs.filterMap timer? = [] ∧ outs.filterMap deferred? = accepted ∧
      outs.filterMap acknowledged? = accepted ∧ outs.filterMap drained? = [] ∧
      outs.filterMap processed? = [] := by
  cases message with
  | none => exact ⟨[], [], by simp [handleReceivedSmsWithoutDataShare], rfl, rfl, rfl, rfl, rfl⟩
  | some m =>
      rcases hack : h.handleAck ds m with ⟨reply, out⟩
      by_cases hok : reply.isOk = true
      · refine ⟨[m], [.deferred m reply out], ?_, rfl, ?_, ?_, rfl, rfl⟩
        · simp [handleReceivedSmsWithoutDataShare, hack, hok]
        · simp [deferred?, hok]
        · simp [acknowledged?, hok]
      · refine ⟨[], [.deferred m reply out], ?_, rfl, ?_, ?_, rfl, rfl⟩
        · simp [handleReceivedSmsWithoutDataShare, hack, hok]
        · simp [deferred?, hok]
        · simp [acknowledged?, hok]

namespace QueueInvariant

variable {h} {outs : List (HandlerOutput μ)} {s : HandlerState μ}

/-- Before any give-up an idle handler has an empty queue. -/
theorem queue_nil (inv : QueueInvariant outs s) (hflag : s.alreadySendEvent = false)
    (hgave : .gaveUp ∉ outs.filterMap timer?) : s.smsBaseMessageQueue = [] := by
  by_contra hq
  obtain ⟨pre, htimers⟩ := inv.stranded hflag hq
  exact hgave (by simp [htimers])

theorem policyReply (inv : QueueInvariant outs s) :
    QueueInvariant (outs ++ [HandlerOutput.policyReply]) s where
  pending := inv.pending
  idle := inv.idle
  retrying := by simpa [List.filterMap_cons, timer?] using inv.retrying
  stranded := by simpa [List.filterMap_cons, timer?] using inv.stranded
  fifo := by simpa [List.filterMap_cons, deferred?, drained?] using inv.fifo
  order := by simpa [List.filterMap_cons, timer?, acknowledged?, processed?] using inv.order

theorem direct (inv : QueueInvariant outs s) (hflag : s.alreadySendEvent = false)
    (ds : DataShare) (message : Option μ) :
    QueueInvariant (outs ++ (handleReceivedSms h s ds message).2)
      (handleReceivedSms h s ds message).1 := by
  cases message with
  | none => simpa [handleReceivedSms] using inv
  | some m =>
      rcases hby : h.handleSmsByType ds s.table m with ⟨reply, t, out⟩
      have hres : handleReceivedSms h s ds (some m) =
          ({ s with table := t }, [.direct m reply out]) := by
        simp [handleReceivedSms, hby]
      have htimer : (outs ++ [HandlerOutput.direct m reply out]).filterMap timer? =
          outs.filterMap timer? := by
        simp [List.filterMap_cons, timer?]
      rw [hres]
      refine ⟨inv.pending, inv.idle, ?_, ?_, ?_, ?_⟩
      · simpa only [htimer] using inv.retrying
      · simpa only [htimer] using inv.stranded
      · simpa [List.filterMap_cons, deferred?, drained?] using inv.fifo
      · intro hgave
        rw [htimer] at hgave
        -- the queue is empty, so the message is both acknowledged and processed last
        have hqueue := inv.queue_nil hflag hgave
        have horder := inv.order hgave
        by_cases hok : reply.isOk = true <;>
          simp_all [List.filterMap_cons, acknowledged?, processed?]

theorem arm (inv : QueueInvariant outs s) (hflag : s.alreadySendEvent = false)
    (ds : DataShare) (message : Option μ) :
    QueueInvariant
      (outs ++ ((handleReceivedSmsWithoutDataShare h s ds message).2 ++
        [HandlerOutput.timer .armed]))
      { (handleReceivedSmsWithoutDataShare h s ds message).1 with
        alreadySendEvent := true
        pendingRetry := (handleReceivedSmsWithoutDataShare h s ds message).1.pendingRetry + 1 } := by
  obtain ⟨accepted, new, hres, htimer, hdef, hack, hdrain, hproc⟩ :=
    handleReceivedSmsWithoutDataShare_spec h s ds message
  rw [hres]
  have hcount := inv.idle hflag
  refine ⟨?_, by simp, ?_, by simp, ?_, ?_⟩
  · simp [inv.pending, hflag]
  · intro _
    refine ⟨by simp [hcount, reconnectMaxCount], outs.filterMap timer?, ?_⟩
    simp [htimer, hcount, timer?]
  · simp [List.filterMap_cons, hdef, hdrain, inv.fifo, deferred?, drained?]
  · intro hgave
    have hbefore : TimerChange.gaveUp ∉ outs.filterMap timer? := by
      intro hmem
      exact hgave (by simp only [List.filterMap_append, List.mem_append]; exact .inl hmem)
    simp [List.filterMap_cons, hack, hproc, inv.order hbefore, acknowledged?, processed?]

theorem defer (inv : QueueInvariant outs s) (hflag : s.alreadySendEvent = true)
    (ds : DataShare) (message : Option μ) :
    QueueInvariant (outs ++ (handleReceivedSmsWithoutDataShare h s ds message).2)
      (handleReceivedSmsWithoutDataShare h s ds message).1 := by
  obtain ⟨accepted, new, hres, htimer, hdef, hack, hdrain, hproc⟩ :=
    handleReceivedSmsWithoutDataShare_spec h s ds message
  rw [hres]
  have htimers : (outs ++ new).filterMap timer? = outs.filterMap timer? := by
    simp [htimer]
  refine ⟨inv.pending, inv.idle, ?_, by simp [hflag], ?_, ?_⟩
  · simpa only [htimers] using inv.retrying
  · simp [hdef, hdrain, inv.fifo]
  · intro hgave
    rw [htimers] at hgave
    simp [hack, hproc, inv.order hgave]

theorem drain (inv : QueueInvariant outs s) (hflag : s.alreadySendEvent = true)
    (ds : Nat → DataShare) :
    QueueInvariant
      (outs ++ (handleMessageQueue h { s with pendingRetry := s.pendingRetry - 1 } ds).2)
      (handleMessageQueue h { s with pendingRetry := s.pendingRetry - 1 } ds).1 := by
  have hnone {f : HandlerOutput μ → Option μ} (hf : ∀ m out, f (.drained m out) = none) :
      (drainQueue h ds 0 s.table s.smsBaseMessageQueue).2.filterMap f = [] := by
    simpa using filterMap_drainQueue h hf ds 0 s.table s.smsBaseMessageQueue
  have hsome {f : HandlerOutput μ → Option μ} (hf : ∀ m out, f (.drained m out) = some m) :
      (drainQueue h ds 0 s.table s.smsBaseMessageQueue).2.filterMap f =
        s.smsBaseMessageQueue := by
    simpa using filterMap_drainQueue h hf ds 0 s.table s.smsBaseMessageQueue
  have hdef := hnone (f := deferred?) fun _ _ => rfl
  have hack := hnone (f := acknowledged?) fun _ _ => rfl
  have hdrain := hsome (f := drained?) fun _ _ => rfl
  have hproc := hsome (f := processed?) fun _ _ => rfl
  refine ⟨?_, fun _ => rfl, by simp [handleMessageQueue], by simp [handleMessageQueue], ?_, ?_⟩
  · simp [handleMessageQueue, inv.pending, hflag]
  · simp [handleMessageQueue, hdef, hdrain, inv.fifo, List.filterMap_cons, deferred?, drained?]
  · intro hgave
    have hbefore : TimerChange.gaveUp ∉ outs.filterMap timer? := by
      intro hmem
      exact hgave (by simp only [List.filterMap_append, List.mem_append]; exact .inl hmem)
    simp [handleMessageQueue, hack, hproc, inv.order hbefore, List.filterMap_cons,
      acknowledged?, processed?]

theorem retry (inv : QueueInvariant outs s) (hflag : s.alreadySendEvent = true)
    (ds : Nat → DataShare) :
    QueueInvariant
      (outs ++ (handleReconnectEvent h { s with pendingRetry := s.pendingRetry - 1 } false ds).2)
      (handleReconnectEvent h { s with pendingRetry := s.pendingRetry - 1 } false ds).1 := by
  obtain ⟨hlt, pre, htimers⟩ := inv.retrying hflag
  have hpending : s.pendingRetry = 1 := by simp [inv.pending, hflag]
  by_cases hmax : s.reconnectDataShareCount + 1 ≥ reconnectMaxCount
  · have hcount : s.reconnectDataShareCount = reconnectMaxCount - 1 := by omega
    simp only [handleReconnectEvent, Bool.false_eq_true, if_false, if_pos hmax]
    refine ⟨by simp [hpending], fun _ => rfl, by simp, ?_, ?_, ?_⟩
    · intro _ _
      exact ⟨pre, by simp [htimers, hcount, timer?]⟩
    · simpa [List.filterMap_cons, deferred?, drained?] using inv.fifo
    · intro hgave
      simp [timer?] at hgave
  · simp only [handleReconnectEvent, Bool.false_eq_true, if_false, if_neg hmax]
    refine ⟨by simp [hpending, hflag], by simp [hflag], ?_, by simp [hflag], ?_, ?_⟩
    · intro _
      refine ⟨by simp only; omega, pre, ?_⟩
      simp [htimers, timer?, List.replicate_succ']
    · simpa [List.filterMap_cons, deferred?, drained?] using inv.fifo
    · intro hgave
      have hbefore : TimerChange.gaveUp ∉ outs.filterMap timer? := by
        simpa [timer?] using hgave
      simpa [List.filterMap_cons, acknowledged?, processed?] using inv.order hbefore

theorem step (inv : QueueInvariant outs s) (e : HandlerEvent μ) :
    QueueInvariant (outs ++ (s.step h e).2) (s.step h e).1 := by
  cases e with
  | sms policyDisabled ready ds message =>
      simp only [HandlerState.step, handleSmsEvent]
      cases policyDisabled with
      | true => exact inv.policyReply
      | false =>
          cases hflag : s.alreadySendEvent with
          | true => simpa [hflag] using inv.defer hflag ds message
          | false =>
              cases ready with
              | true => simpa [hflag] using inv.direct hflag ds message
              | false => simpa [hflag] using inv.arm hflag ds message
  | retryConnect ready ds =>
      simp only [HandlerState.step]
      split
      · simpa using inv
      · rename_i hpending
        have hflag : s.alreadySendEvent = true := by
          by_contra hflag
          simp [inv.pending, hflag] at hpending
        cases ready with
        | true => simpa [handleReconnectEvent] using inv.drain hflag ds
        | false => exact inv.retry hflag ds

end QueueInvariant

/-- Every reachable state, with the outputs that led to it. -/
theorem queueInvariant_run (t : SmsTable) (es : List (HandlerEvent μ)) :
    QueueInvariant (outputs (HandlerState.step h) (.init t) es)
      (es.foldl (next (HandlerState.step h)) (.init t)) := by
  have hstep : ∀ outs s e, QueueInvariant outs s →
      QueueInvariant (outs ++ (HandlerState.step h s e).2) (HandlerState.step h s e).1 :=
    fun _ _ e inv => inv.step e
  simpa using outputs_invariant hstep es (QueueInvariant.init t)

/-- A delivered retry event empties the queue in order when the data share is ready. -/
theorem step_retryConnect_ready {s : HandlerState μ} (hpending : s.pendingRetry ≠ 0)
    (ds : Nat → DataShare) :
    (s.step h (.retryConnect true ds)).1.smsBaseMessageQueue = [] ∧
      (s.step h (.retryConnect true ds)).2.filterMap drained? = s.smsBaseMessageQueue := by
  have hdrain := filterMap_drainQueue h (f := drained?) (g := some) (fun _ _ => rfl) ds 0
    s.table s.smsBaseMessageQueue
  simp [HandlerState.step, hpending, handleReconnectEvent, handleMessageQueue, hdrain,
    List.filterMap_cons, drained?]

end Invariant

end TelephonySms.Receive
