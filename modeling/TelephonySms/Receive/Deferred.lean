import TelephonySms.Receive.Queue

/-! # The deferred path beside the direct one

A sequence of messages is handled twice from the same table: once with the data
share up, and once with the data share down at every arrival and ready when the
retry event is delivered. Both runs see the same answers from the data share.
-/

namespace TelephonySms.Receive

open TelephonySms.Machine

/-! ## The two runs -/

section Runs

variable {μ : Type*} (h : SmsReceiveHandler μ)

def directEvents (ms : List (DataShare × μ)) : List (HandlerEvent μ) :=
  ms.map fun p => .sms false true p.1 (some p.2)

/-- The messages that join the queue. -/
def queued (ms : List (DataShare × μ)) : List (DataShare × μ) :=
  ms.filter fun p => (h.handleAck p.1 p.2).1.isOk

/-- The answers for the drained messages, in the order of the queue. -/
def drainAnswers (ms : List (DataShare × μ)) (i : Nat) : DataShare :=
  ((queued h ms).map Prod.fst).getD i ⟨true, true, true, 1⟩

def deferredEvents (ms : List (DataShare × μ)) : List (HandlerEvent μ) :=
  (ms.map fun p => .sms false false p.1 (some p.2)) ++ [.retryConnect true (drainAnswers h ms)]

def HandlerOutput.reply? : HandlerOutput μ → Option AckIncomeCause
  | .direct _ reply _ => some reply
  | .deferred _ reply _ => some reply
  | _ => none

def HandlerOutput.effects : HandlerOutput μ → List Effect
  | .direct _ _ out => out
  | .deferred _ _ out => out
  | .drained _ out => out
  | _ => []

/-- Acknowledgements, stored rows and everything emitted are the same, and the
deferred run ends with an empty queue. -/
def SameResults (t : SmsTable) (ms : List (DataShare × μ)) : Prop :=
  let step := HandlerState.step h
  let direct := outputs step (.init t) (directEvents ms)
  let deferred := outputs step (.init t) (deferredEvents h ms)
  let final := (deferredEvents h ms).foldl (next step) (.init t)
  direct.filterMap HandlerOutput.reply? = deferred.filterMap HandlerOutput.reply? ∧
  ((directEvents ms).foldl (next step) (.init t)).table = final.table ∧
  direct.flatMap HandlerOutput.effects = deferred.flatMap HandlerOutput.effects ∧
  final.smsBaseMessageQueue = []

/-! ## When one message is handled alike -/

/-- What the direct path does is the acknowledgement of the deferred path followed,
for a message that joins the queue, by its processing. -/
structure Agrees (ds : DataShare) (m : μ) : Prop where
  silent : (h.handleAck ds m).2 = []
  direct : ∀ t, h.handleSmsByType ds t m =
    ((h.handleAck ds m).1,
      if (h.handleAck ds m).1.isOk then h.handleRemainDataShare ds t m else (t, []))

/-- `HandleRemainDataShare` for one message after the other. -/
def remainAll : SmsTable → List (DataShare × μ) → SmsTable × List Effect
  | t, [] => (t, [])
  | t, p :: ps =>
      let (t, out) := h.handleRemainDataShare p.1 t p.2
      let (t, outs) := remainAll t ps
      (t, out ++ outs)

/-- The replies, the table and the effects of a run, read off its outputs and final state. -/
def RunGives (s : HandlerState μ) (es : List (HandlerEvent μ)) (replies : List AckIncomeCause)
    (result : SmsTable × List Effect) : Prop :=
  (outputs (HandlerState.step h) s es).filterMap HandlerOutput.reply? = replies ∧
  (es.foldl (next (HandlerState.step h)) s).table = result.1 ∧
  (outputs (HandlerState.step h) s es).flatMap HandlerOutput.effects = result.2

variable {h}

theorem directRun {s : HandlerState μ} (hflag : s.alreadySendEvent = false)
    {ms : List (DataShare × μ)} (hms : ∀ p ∈ ms, Agrees h p.1 p.2) :
    RunGives h s (directEvents ms) (ms.map fun p => (h.handleAck p.1 p.2).1)
      (remainAll h s.table (queued h ms)) := by
  induction ms generalizing s with
  | nil => exact ⟨rfl, rfl, rfl⟩
  | cons p ms ih =>
      have hp := (hms p (by simp)).direct s.table
      obtain ⟨hreply, htable, heff⟩ :=
        ih (s := { s with table := (h.handleSmsByType p.1 s.table p.2).2.1 }) hflag
          fun q hq => hms q (by simp [hq])
      have hstep : s.step h (.sms false true p.1 (some p.2)) =
          ({ s with table := (h.handleSmsByType p.1 s.table p.2).2.1 },
            [.direct p.2 (h.handleSmsByType p.1 s.table p.2).1
              (h.handleSmsByType p.1 s.table p.2).2.2]) := by
        simp [HandlerState.step, handleSmsEvent, hflag, handleReceivedSms]
      have hcons : directEvents (p :: ms) =
          .sms false true p.1 (some p.2) :: directEvents ms := rfl
      by_cases hok : (h.handleAck p.1 p.2).1.isOk = true
      · have hqueued : queued h (p :: ms) = p :: queued h ms := by simp [queued, hok]
        simp only [hok, if_true] at hp
        rw [hp] at hreply htable heff hstep
        refine ⟨?_, ?_, ?_⟩
        · simp [hcons, outputs, hstep, hreply, HandlerOutput.reply?]
        · simp [hcons, next, hstep, htable, hqueued, remainAll]
        · simp [hcons, outputs, hstep, heff, hqueued, remainAll, HandlerOutput.effects]
      · have hqueued : queued h (p :: ms) = queued h ms := by simp [queued, hok]
        simp only [hok, if_false, Bool.false_eq_true] at hp
        rw [hp] at hreply htable heff hstep
        refine ⟨?_, ?_, ?_⟩
        · simp [hcons, outputs, hstep, hreply, HandlerOutput.reply?]
        · simp [hcons, next, hstep, htable, hqueued]
        · simp [hcons, outputs, hstep, heff, hqueued, HandlerOutput.effects]

theorem queued_cons (p : DataShare × μ) (ms : List (DataShare × μ)) :
    queued h (p :: ms) = queued h [p] ++ queued h ms := by
  by_cases hok : (h.handleAck p.1 p.2).1.isOk = true <;> simp [queued, hok]

theorem handleReceivedSmsWithoutDataShare_eq (s : HandlerState μ) (p : DataShare × μ) :
    handleReceivedSmsWithoutDataShare h s p.1 (some p.2) =
      ({ s with smsBaseMessageQueue :=
          s.smsBaseMessageQueue ++ (queued h [p]).map Prod.snd },
        [.deferred p.2 (h.handleAck p.1 p.2).1 (h.handleAck p.1 p.2).2]) := by
  by_cases hok : (h.handleAck p.1 p.2).1.isOk = true <;>
    simp [handleReceivedSmsWithoutDataShare, queued, hok]

/-- Messages received while the retry event is pending wait in the queue. -/
theorem deferRun {s : HandlerState μ} (hflag : s.alreadySendEvent = true)
    (ms : List (DataShare × μ)) (hms : ∀ p ∈ ms, Agrees h p.1 p.2) :
    let es := ms.map fun p => HandlerEvent.sms false false p.1 (some p.2)
    RunGives h s es (ms.map fun p => (h.handleAck p.1 p.2).1) (s.table, []) ∧
      es.foldl (next (HandlerState.step h)) s =
        { s with smsBaseMessageQueue :=
            s.smsBaseMessageQueue ++ (queued h ms).map Prod.snd } := by
  induction ms generalizing s with
  | nil => exact ⟨⟨rfl, rfl, rfl⟩, by simp [queued]⟩
  | cons p ms ih =>
      let s' : HandlerState μ := { s with
        smsBaseMessageQueue := s.smsBaseMessageQueue ++ (queued h [p]).map Prod.snd }
      have hstep : s.step h (.sms false false p.1 (some p.2)) =
          (s', [.deferred p.2 (h.handleAck p.1 p.2).1 []]) := by
        simp [HandlerState.step, handleSmsEvent, hflag, handleReceivedSmsWithoutDataShare_eq,
          (hms p (by simp)).silent, s']
      obtain ⟨⟨hreply, htable, heff⟩, hstate⟩ :=
        ih (s := s') hflag fun q hq => hms q (by simp [hq])
      refine ⟨⟨?_, ?_, ?_⟩, ?_⟩
      · simpa [outputs, hstep, HandlerOutput.reply?] using hreply
      · simpa [next, hstep] using htable
      · simpa [outputs, hstep, HandlerOutput.effects] using heff
      · simpa [next, hstep, queued_cons p ms, s'] using hstate

/-- A drain does to the queue what `remainAll` does. -/
theorem drainQueue_eq_remainAll (ds : Nat → DataShare) (i : Nat) (ps : List (DataShare × μ))
    (hds : ∀ k (hk : k < ps.length), ds (i + k) = (ps.get ⟨k, hk⟩).1) (t : SmsTable) :
    (drainQueue h ds i t (ps.map Prod.snd)).1 = (remainAll h t ps).1 ∧
      (drainQueue h ds i t (ps.map Prod.snd)).2.flatMap HandlerOutput.effects =
        (remainAll h t ps).2 := by
  induction ps generalizing i t with
  | nil => exact ⟨rfl, rfl⟩
  | cons p ps ih =>
      have hhead : ds i = p.1 := hds 0 (by simp)
      obtain ⟨htable, heff⟩ := ih (i + 1)
        (fun k hk => by
          have := hds (k + 1) (by simpa using hk)
          simpa [Nat.add_assoc, Nat.add_comm 1 k] using this)
        (h.handleRemainDataShare p.1 t p.2).1
      simp [drainQueue, remainAll, hhead, htable, heff, HandlerOutput.effects]

/-- A sequence of messages against a data share that is down: all are answered, those
answered positively wait in the queue, and one retry event is pending. -/
theorem deferRun_init (t : SmsTable) (p : DataShare × μ) (ms : List (DataShare × μ))
    (hms : ∀ q ∈ p :: ms, Agrees h q.1 q.2) :
    let es := (p :: ms).map fun q => HandlerEvent.sms false false q.1 (some q.2)
    RunGives h (.init t) es ((p :: ms).map fun q => (h.handleAck q.1 q.2).1) (t, []) ∧
      es.foldl (next (HandlerState.step h)) (.init t) =
        ⟨t, (queued h (p :: ms)).map Prod.snd, true, 0, 1⟩ := by
  -- the first message arms the timer, the others find it armed
  let s₁ : HandlerState μ := ⟨t, (queued h [p]).map Prod.snd, true, 0, 1⟩
  have hfirst : (HandlerState.init t).step h (.sms false false p.1 (some p.2)) =
      (s₁, [.deferred p.2 (h.handleAck p.1 p.2).1 [], .timer .armed]) := by
    simp [HandlerState.step, handleSmsEvent, HandlerState.init, s₁,
      handleReceivedSmsWithoutDataShare_eq, (hms p (by simp)).silent]
  obtain ⟨⟨hreply, htable, heff⟩, hstate⟩ := deferRun (h := h) (s := s₁) rfl ms
    fun q hq => hms q (by simp [hq])
  refine ⟨⟨?_, ?_, ?_⟩, ?_⟩
  · simp [outputs, hfirst, hreply, HandlerOutput.reply?, List.filterMap_cons]
  · simpa [next, hfirst] using htable
  · simpa [outputs, hfirst, HandlerOutput.effects] using heff
  · simpa [next, hfirst, s₁, queued_cons p ms] using hstate

/-- Messages that are each handled alike are handled alike in sequence. -/
theorem sameResults_of_agrees (t : SmsTable) {ms : List (DataShare × μ)}
    (hms : ∀ p ∈ ms, Agrees h p.1 p.2) : SameResults h t ms := by
  cases ms with
  | nil => exact ⟨rfl, rfl, rfl, rfl⟩
  | cons p ms =>
      obtain ⟨hdreply, hdtable, hdeff⟩ := directRun (h := h) (s := .init t) rfl hms
      obtain ⟨⟨hreply, -, heff⟩, hstate⟩ := deferRun_init t p ms hms
      let answers := drainAnswers h (p :: ms)
      let queue := (queued h (p :: ms)).map Prod.snd
      have hanswers : ∀ k (hk : k < (queued h (p :: ms)).length),
          answers (0 + k) = ((queued h (p :: ms)).get ⟨k, hk⟩).1 := by
        intro k hk
        simp [answers, drainAnswers, hk]
      obtain ⟨htable, hdrain⟩ := drainQueue_eq_remainAll (h := h) answers 0 _ hanswers t
      have hsilent : (drainQueue h answers 0 t queue).2.filterMap HandlerOutput.reply? = [] := by
        simpa using filterMap_drainQueue h (f := HandlerOutput.reply?) (g := fun _ => none)
          (fun _ _ => rfl) answers 0 t queue
      have hretry : HandlerState.step h ⟨t, queue, true, 0, 1⟩ (.retryConnect true answers) =
          (⟨(drainQueue h answers 0 t queue).1, [], false, 0, 0⟩,
            (drainQueue h answers 0 t queue).2 ++ [HandlerOutput.timer .drained]) := by
        simp [HandlerState.step, handleReconnectEvent, handleMessageQueue]
      simp only [SameResults, deferredEvents, outputs_concat, List.foldl_append, List.foldl_cons,
        List.foldl_nil, hstate]
      rw [next, hretry]
      refine ⟨?_, ?_, ?_, rfl⟩
      · rw [List.filterMap_append, List.filterMap_append, hdreply, hreply, hsilent]
        simp [List.filterMap_cons, HandlerOutput.reply?]
      · rw [hdtable]
        exact htable.symm
      · rw [List.flatMap_append, List.flatMap_append, hdeff, heff, hdrain]
        simp [HandlerOutput.effects, HandlerState.init]

end Runs

/-! ## Which messages are handled alike -/

section Handlers

variable (createMessage : Pdu → Option SmsBaseMessage) (slotId : Nat)

/-- A GSM message that both paths treat alike: `HandleRemainDataShare` looks neither
for a special message nor at the invalid port. -/
structure GsmSmsMessage.Deferrable (ds : DataShare) (m : GsmSmsMessage) : Prop where
  notSpecial : m.isSpecialMessage = false
  port : ds.smsCapable = true → m.destPort ≠ invalidSmsPort

theorem GsmSmsMessage.Deferrable.agrees {ds : DataShare} {m : GsmSmsMessage}
    (h : m.Deferrable ds) (hins : ds.insertOk = true) :
    Agrees (gsmSmsReceiveHandler createMessage slotId) ds m := by
  have hspecial := h.notSpecial
  by_cases hcap : ds.smsCapable = true
  · have hport : m.indexer.destPort ≠ invalidSmsPort := h.port hcap
    refine ⟨?_, fun t => ?_⟩
    · simp [gsmSmsReceiveHandler, GsmSmsReceiveHandler.handleAck, hspecial, hcap]
    · simp only [gsmSmsReceiveHandler, GsmSmsReceiveHandler.handleAck,
        GsmSmsReceiveHandler.handleSmsByType, GsmSmsReceiveHandler.checkSmsSupport,
        GsmSmsReceiveHandler.handleNormalSmsByType, GsmSmsReceiveHandler.handleRemainDataShare,
        addMsgToDB, hspecial, hcap, hport, hins, Bool.not_true, Bool.false_eq_true, if_false,
        if_true, ne_eq, not_true_eq_false, AckIncomeCause.isOk, decide_true]
      by_cases hrep : GsmSmsReceiveHandler.isRepeated
          (deleteExpireSmsFromDB ds slotId t).2.1 m = true <;> simp [hrep]
  · refine ⟨?_, fun t => ?_⟩
    · simp [gsmSmsReceiveHandler, GsmSmsReceiveHandler.handleAck, hspecial, hcap]
    · simp [gsmSmsReceiveHandler, GsmSmsReceiveHandler.handleAck,
        GsmSmsReceiveHandler.handleSmsByType, GsmSmsReceiveHandler.checkSmsSupport, hspecial,
        hcap, AckIncomeCause.isOk]

/-- A CDMA message that both paths treat alike: one that goes to storage, where the
deletion of expired rows succeeds. -/
structure CdmaSmsMessage.Deferrable (senderAlive : Bool) (ds : DataShare) (m : CdmaSmsMessage) :
    Prop where
  notBroadcast : m.isBroadcastMsg = false
  teleService : m.transTeleService = CdmaSmsReceiveHandler.wemt ∨
    m.transTeleService = CdmaSmsReceiveHandler.cmt95
  notReport : (m.isStatusReport && senderAlive) = false
  expiry : 0 < ds.deadlineTime ∧ ds.deleteOk = true

theorem CdmaSmsMessage.Deferrable.agrees {senderAlive : Bool} {ds : DataShare}
    {m : CdmaSmsMessage} (h : m.Deferrable senderAlive ds) (hins : ds.insertOk = true) :
    Agrees (cdmaSmsReceiveHandler createMessage slotId senderAlive) ds m := by
  have hstore : CdmaSmsReceiveHandler.answeredAtOnce slotId senderAlive m = none := by
    have htele : ¬ (CdmaSmsReceiveHandler.wemt ≠ m.transTeleService ∧
        CdmaSmsReceiveHandler.cmt95 ≠ m.transTeleService) := by
      rintro ⟨hwemt, hcmt⟩
      rcases h.teleService with heq | heq
      · exact hwemt heq.symm
      · exact hcmt heq.symm
    simp [CdmaSmsReceiveHandler.answeredAtOnce, h.notBroadcast, htele, h.notReport]
  have hexp (t : SmsTable) : (deleteExpireSmsFromDB ds slotId t).1 = true := by
    have hfail : ¬ (ds.deadlineTime ≤ 0 ∨ ds.deleteOk = false) := by
      have := h.expiry
      simp [this.2]
      omega
    simp [deleteExpireSmsFromDB, hfail]
  refine ⟨?_, fun t => ?_⟩
  · simp [cdmaSmsReceiveHandler, CdmaSmsReceiveHandler.handleAck, hstore]
  · simp only [cdmaSmsReceiveHandler, CdmaSmsReceiveHandler.handleAck,
      CdmaSmsReceiveHandler.handleSmsByType, CdmaSmsReceiveHandler.handleSmsOtherSvcid,
      CdmaSmsReceiveHandler.handleRemainDataShare, hstore, addMsgToDB, hins, if_true,
      AckIncomeCause.isOk, decide_true]
    by_cases hrep : CdmaSmsReceiveHandler.isRepeated t m = true
    · simp [hrep]
    · simp only [hrep, if_false, Bool.false_eq_true]
      have hok := hexp (t.insert slotId (m.toIndexer true))
      generalize deleteExpireSmsFromDB ds slotId (t.insert slotId (m.toIndexer true)) = r at hok ⊢
      obtain ⟨ok, t', out⟩ := r
      obtain rfl : ok = true := hok
      rfl

/-- For messages that go to storage the deferred path yields the acknowledgements,
the rows and all the effects of the direct one, in the same order. -/
theorem deferred_eq_direct (t : SmsTable) :
    (∀ ms : List (DataShare × GsmSmsMessage),
      (∀ p ∈ ms, p.1.insertOk = true ∧ p.2.Deferrable p.1) →
      SameResults (gsmSmsReceiveHandler createMessage slotId) t ms) ∧
    (∀ (senderAlive : Bool) (ms : List (DataShare × CdmaSmsMessage)),
      (∀ p ∈ ms, p.1.insertOk = true ∧ p.2.Deferrable senderAlive p.1) →
      SameResults (cdmaSmsReceiveHandler createMessage slotId senderAlive) t ms) := by
  constructor
  · intro ms hms
    exact sameResults_of_agrees t fun p hp =>
      (hms p hp).2.agrees createMessage slotId (hms p hp).1
  · intro senderAlive ms hms
    exact sameResults_of_agrees t fun p hp =>
      (hms p hp).2.agrees createMessage slotId (hms p hp).1

end Handlers

/-- A single text, plain or with the protocol identifier of a type 0 message. -/
def singleText (protocolId : Nat) : GsmSmsMessage :=
  ⟨⟨[0x41], 1, -1, "1", "1", "", [], [], none⟩, protocolId, .classUnknown, false, false⟩

def singleCdmaText : CdmaSmsMessage :=
  ⟨⟨[0x41], 1, -1, "1", "1", "", [], [], none⟩, false, 0x1002, false, 0⟩

theorem deferred_eq_direct_single_texts :
    SameResults (gsmSmsReceiveHandler (fun _ => none) 0) .empty
      [(⟨true, true, true, 1⟩, singleText 0)] ∧
    SameResults (cdmaSmsReceiveHandler (fun _ => none) 0 true) .empty
      [(⟨true, true, true, 1⟩, singleCdmaText)] := by
  have hboth := deferred_eq_direct (fun _ => none) 0 .empty
  refine ⟨hboth.1 _ ?_, hboth.2 true _ ?_⟩
  · intro p hp
    obtain rfl := List.mem_singleton.mp hp
    exact ⟨rfl, rfl, by decide⟩
  · intro p hp
    obtain rfl := List.mem_singleton.mp hp
    exact ⟨rfl, rfl, .inr rfl, rfl, by decide⟩

/-- A type 0 message is answered and dropped by the direct path; the deferred path
answers it, queues it, and later stores and broadcasts it. -/
theorem deferred_stores_special_message :
    ¬ SameResults (gsmSmsReceiveHandler (fun _ => none) 0) .empty
      [(⟨true, true, true, 1⟩, singleText 0x40)] := by
  intro hsame
  have htable := hsame.2.1
  revert htable
  decide

end TelephonySms.Receive
