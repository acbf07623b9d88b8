import TelephonySms.Receive.RunningLock

/-! # The running lock is not given up early

A timeout or a give-up of the retries clears the count while releases may still
be pending, and such a release would then take the lock of a later message.
The delays rule that out as long as the runner is not too late: a timeout comes
a minute after the last application, everything that needs the lock sooner.
-/

namespace TelephonySms.Receive

open TelephonySms.Machine

/-! ## The retry state of the handler -/

namespace HandlerState

variable {μ : Type*} (h : SmsReceiveHandler μ) (s : HandlerState μ)

/-- The fields the lock reads. -/
def retryState : Bool × Nat × Nat :=
  (s.alreadySendEvent, s.reconnectDataShareCount, s.pendingRetry)

theorem handleReceivedSms_retryState (ds : DataShare) (message : Option μ) :
    (handleReceivedSms h s ds message).1.retryState = s.retryState := by
  cases message <;> rfl

theorem handleReceivedSmsWithoutDataShare_retryState (ds : DataShare) (message : Option μ) :
    (handleReceivedSmsWithoutDataShare h s ds message).1.retryState = s.retryState := by
  rcases handleReceivedSmsWithoutDataShare_spec h s ds message with ⟨accepted, outs, hres, -⟩
  rw [hres]
  rfl

/-- The first message without the data share arms the retry. -/
theorem step_sms_retryState (ready : Bool) (ds : DataShare) (message : Option μ) :
    (s.step h (.sms false ready ds message)).1.retryState =
      if s.alreadySendEvent || ready then s.retryState
      else (true, s.reconnectDataShareCount, s.pendingRetry + 1) := by
  have hdirect := handleReceivedSms_retryState h s ds message
  have hdefer := handleReceivedSmsWithoutDataShare_retryState h s ds message
  simp only [HandlerState.step, handleSmsEvent, Bool.false_eq_true, if_false]
  cases halready : s.alreadySendEvent with
  | true => simpa using hdefer
  | false =>
      cases ready with
      | true => simpa using hdirect
      | false =>
          simp only [retryState, Prod.mk.injEq] at hdefer ⊢
          simp [hdefer.2.1, hdefer.2.2]

theorem step_retryConnect_retryState (hpending : s.pendingRetry = 1) (ready : Bool)
    (ds : Nat → DataShare) :
    (s.step h (.retryConnect ready ds)).1.retryState =
      if ready then (false, 0, 0)
      else if s.reconnectDataShareCount + 1 ≥ reconnectMaxCount then (false, 0, 0)
      else (s.alreadySendEvent, s.reconnectDataShareCount + 1, 1) := by
  simp only [HandlerState.step, hpending, handleReconnectEvent, retryState]
  cases ready with
  | true => simp [handleMessageQueue]
  | false =>
      simp only [Nat.one_ne_zero, Bool.false_eq_true, if_false]
      split <;> simp

end HandlerState

/-- A message was handled, acknowledged for later, or taken from the queue. -/
def HandlerOutput.isMessage {μ : Type*} : HandlerOutput μ → Bool
  | .direct .. | .deferred .. | .drained .. => true
  | _ => false

namespace LockedHandler

variable {μ : Type*} {s : LockedHandler μ}

/-! ## The lock does not look at the handler -/

section Frame

variable (s) (handler : HandlerState μ) (retries : List Nat) (power : PowerService)

theorem releaseRunningLock_frame :
    ({ s with handler, retries }).releaseRunningLock power =
      { s.releaseRunningLock power with handler, retries } := by
  unfold releaseRunningLock
  split_ifs <;> simp_all

theorem reduceRunningLock_frame :
    ({ s with handler, retries }).reduceRunningLock power =
      { s.reduceRunningLock power with handler, retries } := by
  have hrelease := releaseRunningLock_frame { s with smsRunningLockCount := 0 } handler retries
    power
  unfold reduceRunningLock
  simp only
  split_ifs
  · rfl
  · exact hrelease
  · rfl

theorem applyRunningLock_frame :
    ({ s with handler, retries }).applyRunningLock power =
      { s.applyRunningLock power with handler, retries } := by
  unfold applyRunningLock createRunningLockInner
  cases hlock : s.smsRunningLock <;> cases power.created <;> simp [hlock]

end Frame

theorem reduceRunningLock_releases (s : LockedHandler μ) (power : PowerService) :
    (s.reduceRunningLock power).releases = s.releases ∧
      (s.reduceRunningLock power).now = s.now := by
  simp only [reduceRunningLock, releaseRunningLock]
  split_ifs <;> exact ⟨rfl, rfl⟩

theorem applyRunningLock_now (s : LockedHandler μ) (power : PowerService) :
    (s.applyRunningLock power).now = s.now := by
  simp only [applyRunningLock, createRunningLockInner]
  split_ifs <;> rfl

theorem applyRunningLock_releases (s : LockedHandler μ) (power : PowerService) :
    (s.applyRunningLock power).releases = s.releases := by
  simp only [applyRunningLock, createRunningLockInner]
  split_ifs <;> rfl

theorem applyRunningLock_of_created (hlock : s.smsRunningLock = true) (power : PowerService) :
    s.applyRunningLock power =
      { s with
        smsRunningLockCount := (s.smsRunningLockCount + 1) % 2 ^ 32
        smsLockSerialNum := s.smsLockSerialNum + 1
        locked := true
        timeouts := s.timeouts ++
          [(s.smsLockSerialNum + 1, s.now + runningLockDefaultTimeoutMs)] } := by
  simp [applyRunningLock, hlock]

/-- Messages were worked on under the lock. -/
def MessagesLocked (outs : List (Output μ)) : Prop :=
  ∀ x ∈ outs, x.2.isMessage = true → x.1 = true

theorem messagesLocked_map {locked : Bool} (hlocked : locked = true)
    (outs : List (HandlerOutput μ)) : MessagesLocked (outs.map ((locked, ·))) := by
  intro x hx _
  rcases List.mem_map.mp hx with ⟨o, -, rfl⟩
  exact hlocked

/-! ## What the delays guarantee -/

/-- The state after `k` applications of the lock, the last of them at time `a`;
`spare` of the applications counted are not spoken for. -/
structure Awake (lateness k a spare : Nat) (s : LockedHandler μ) : Prop where
  created : s.smsRunningLock = true
  counted : s.smsRunningLockCount ≠ 0 → s.locked = true
  serial : s.smsLockSerialNum = BitVec.ofNat 32 k
  applied : s.smsRunningLockCount ≤ k
  past : a ≤ s.now
  /-- Every pending release, and the retry, has an application of its own. -/
  covered : s.releases.length + (if s.handler.alreadySendEvent then 1 else 0) + spare ≤
    s.smsRunningLockCount
  stamped : ∀ x ∈ s.timeouts, ∃ j ≤ k, x.1 = BitVec.ofNat 32 j ∧
    (j = k → s.smsRunningLockCount ≠ 0 → a + 60000 ≤ x.2)
  releases : ∀ due ∈ s.releases,
    due ≤ a + 25000 + lateness ∧ due ≤ s.now + 20000 ∧ s.now ≤ due + lateness
  waiting : s.handler.alreadySendEvent = true → s.handler.pendingRetry = 1 ∧
    ∃ due, s.retries = [due] ∧ due ≤ a + 5000 ∧ s.now ≤ due + lateness ∧
      ∀ d ∈ s.releases, d + 5000 * (s.handler.reconnectDataShareCount + 1) ≤ due + 20000
  idle : s.handler.alreadySendEvent = false →
    s.retries = [] ∧ s.handler.reconnectDataShareCount = 0 ∧ s.handler.pendingRetry = 0

namespace Awake

variable {lateness k a spare : Nat}

theorem init (lateness : Nat) (t : SmsTable) {power : PowerService}
    (hpower : power.created = true) :
    Awake lateness 0 0 0 (LockedHandler.init t power : LockedHandler μ) where
  created := hpower
  counted hcount := by simp [LockedHandler.init] at hcount
  serial := rfl
  applied := Nat.le_refl _
  past := Nat.le_refl _
  covered := Nat.le_refl _
  stamped x hx := by simp [LockedHandler.init] at hx
  releases d hd := by simp [LockedHandler.init] at hd
  waiting hs := by simp [LockedHandler.init, HandlerState.init] at hs
  idle _ := ⟨rfl, rfl, rfl⟩

theorem elapse (inv : Awake lateness k a spare s) {ms : Nat}
    (htimely : Timely lateness s (.elapse ms)) :
    Awake lateness k a spare { s with now := s.now + ms } where
  created := inv.created
  counted := inv.counted
  serial := inv.serial
  applied := inv.applied
  past := by
    have := inv.past
    simp only
    omega
  covered := inv.covered
  stamped := inv.stamped
  releases d hd := by
    have := inv.releases d hd
    have := htimely.2.1 d hd
    simp only
    omega
  waiting hs := by
    rcases inv.waiting hs with ⟨hpending, due, hretries, hdue, -, hpatience⟩
    have hlate := htimely.2.2 due (by simp [hretries])
    exact ⟨hpending, due, hretries, hdue, hlate, hpatience⟩
  idle := inv.idle

/-- A handler with the same retry state may take the place of the old one. -/
theorem frame (inv : Awake lateness k a spare s) {handler : HandlerState μ}
    (hsame : handler.retryState = s.handler.retryState) :
    Awake lateness k a spare { s with handler } := by
  simp only [HandlerState.retryState, Prod.mk.injEq] at hsame
  rcases hsame with ⟨hflag, hcount, hpending⟩
  refine ⟨inv.created, inv.counted, inv.serial, inv.applied, inv.past, ?_, inv.stamped,
    inv.releases, ?_, ?_⟩
  · simpa only [hflag] using inv.covered
  · simpa only [hflag, hcount, hpending] using inv.waiting
  · simpa only [hflag, hcount, hpending] using inv.idle

/-- A spare application may be forgotten. -/
theorem weaken (inv : Awake lateness k a (spare + 1) s) : Awake lateness k a spare s := by
  have hcovered : s.releases.length + (if s.handler.alreadySendEvent then 1 else 0) + spare ≤
      s.smsRunningLockCount := by
    have := inv.covered
    omega
  exact { inv with covered := hcovered }

/-- With nothing left that needs the lock the count may be cleared. -/
theorem releaseRunningLock (inv : Awake lateness k a spare s) (power : PowerService)
    (hreleases : s.releases = []) (hidle : s.handler.alreadySendEvent = false) :
    Awake lateness k a 0 (s.releaseRunningLock power) := by
  have hcovered : s.releases.length + (if s.handler.alreadySendEvent then 1 else 0) + 0 ≤ 0 := by
    simp [hreleases, hidle]
  have hlock := inv.created
  unfold LockedHandler.releaseRunningLock
  simp only [hlock, Bool.not_true, Bool.false_eq_true, if_false]
  split
  · exact ⟨rfl, by simp, inv.serial, Nat.zero_le _, inv.past, hcovered, by simp,
      inv.releases, inv.waiting, inv.idle⟩
  · refine ⟨rfl, by simp, inv.serial, Nat.zero_le _, inv.past, hcovered, ?_,
      inv.releases, inv.waiting, inv.idle⟩
    intro x hx
    rcases List.mem_append.mp hx with hold | hnew
    · rcases inv.stamped x hold with ⟨j, hj, hserial, -⟩
      exact ⟨j, hj, hserial, fun _ hcount => absurd rfl hcount⟩
    · rw [List.mem_singleton.mp hnew]
      exact ⟨k, Nat.le_refl k, inv.serial, fun _ hcount => absurd rfl hcount⟩

/-- An application is spare until an event is sent for it. -/
theorem applyRunningLock (inv : Awake lateness k a spare s) (hk : k + 1 < 2 ^ 32)
    (power : PowerService) :
    Awake lateness (k + 1) s.now (spare + 1) (s.applyRunningLock power) := by
  rw [applyRunningLock_of_created inv.created]
  have hcount : (s.smsRunningLockCount + 1) % 2 ^ 32 = s.smsRunningLockCount + 1 := by
    have := inv.applied
    exact Nat.mod_eq_of_lt (by omega)
  have hserial : s.smsLockSerialNum + 1 = BitVec.ofNat 32 (k + 1) := by
    rw [inv.serial, BitVec.ofNat_add]
    rfl
  have hpast := inv.past
  simp only [hcount]
  refine ⟨inv.created, fun _ => rfl, hserial, Nat.succ_le_succ inv.applied, Nat.le_refl _,
    ?_, ?_, ?_, ?_, inv.idle⟩
  · have := inv.covered
    simp only
    omega
  · intro x hx
    rcases List.mem_append.mp hx with hold | hnew
    · rcases inv.stamped x hold with ⟨j, hj, hstamp, -⟩
      exact ⟨j, by omega, hstamp, fun heq => by omega⟩
    · rw [List.mem_singleton.mp hnew]
      exact ⟨k + 1, Nat.le_refl _, hserial, fun _ _ => Nat.le_refl _⟩
  · intro d hd
    have := inv.releases d hd
    simp only
    omega
  · intro hs
    rcases inv.waiting hs with ⟨hpending, due, hretries, hdue, hlate, hpatience⟩
    exact ⟨hpending, due, hretries, by omega, hlate, hpatience⟩

/-- A reduction takes one spare application; the last one unlocks. -/
theorem reduceRunningLock (inv : Awake lateness k a (spare + 1) s) (power : PowerService) :
    Awake lateness k a spare (s.reduceRunningLock power) := by
  have hcovered := inv.covered
  unfold LockedHandler.reduceRunningLock
  rw [if_pos inv.created]
  split
  · rename_i hcount
    have happlied := inv.applied
    refine ⟨inv.created, fun _ => inv.counted (by omega), inv.serial, by simp only; omega,
      inv.past, by simp only; omega, ?_, inv.releases, inv.waiting, inv.idle⟩
    intro x hx
    rcases inv.stamped x hx with ⟨j, hj, hserial, hdue⟩
    exact ⟨j, hj, hserial, fun heq _ => hdue heq (by omega)⟩
  · rename_i hcount
    have hreleases : s.releases = [] := List.length_eq_zero_iff.mp (by omega)
    have hidle : s.handler.alreadySendEvent = false := by
      by_contra hflag
      simp only [Bool.not_eq_false] at hflag
      simp only [hflag, if_true] at hcovered
      omega
    have hspare : spare = 0 := by omega
    have hzero : Awake lateness k a 0 { s with smsRunningLockCount := 0 } := by
      refine ⟨inv.created, by simp, inv.serial, Nat.zero_le _, inv.past,
        by simp [hreleases, hidle], ?_, inv.releases, inv.waiting, inv.idle⟩
      intro x hx
      rcases inv.stamped x hx with ⟨j, hj, hserial, -⟩
      exact ⟨j, hj, hserial, fun _ hne => absurd rfl hne⟩
    rw [hspare]
    exact hzero.releaseRunningLock power hreleases hidle

/-- A release is sent for a spare application. -/
theorem sendRelease (inv : Awake lateness k a (spare + 1) s) (delay : Nat)
    (hidle : s.handler.alreadySendEvent = false) (hdelay : delay ≤ 20000)
    (hdue : s.now + delay ≤ a + 25000 + lateness) :
    Awake lateness k a spare { s with releases := s.releases ++ [s.now + delay] } := by
  refine ⟨inv.created, inv.counted, inv.serial, inv.applied, inv.past, ?_, inv.stamped, ?_, ?_,
    inv.idle⟩
  · have := inv.covered
    simp only [List.length_append, List.length_singleton]
    omega
  · intro d hd
    rcases List.mem_append.mp hd with hold | hnew
    · exact inv.releases d hold
    · rw [List.mem_singleton.mp hnew]
      simp only
      omega
  · intro hflag
    simp [hidle] at hflag

/-- A delivered release gives its application back. -/
theorem deliverRelease (inv : Awake lateness k a spare s) {due : Nat} (hmem : due ∈ s.releases) :
    Awake lateness k a (spare + 1) { s with releases := s.releases.erase due } := by
  have hsub : ∀ d ∈ s.releases.erase due, d ∈ s.releases := fun d => List.mem_of_mem_erase
  refine ⟨inv.created, inv.counted, inv.serial, inv.applied, inv.past, ?_, inv.stamped,
    fun d hd => inv.releases d (hsub d hd), ?_, inv.idle⟩
  · have hcovered := inv.covered
    have hlength := List.length_erase_of_mem hmem
    have hpos : 0 < s.releases.length := List.length_pos_of_mem hmem
    simp only
    omega
  · intro hs
    rcases inv.waiting hs with ⟨hpending, r, hretries, hr, hlate, hpatience⟩
    exact ⟨hpending, r, hretries, hr, hlate, fun d hd => hpatience d (hsub d hd)⟩

/-- The retry is sent for a spare application made at the same moment. -/
theorem sendRetry (inv : Awake lateness k s.now (spare + 1) s)
    (hidle : s.handler.alreadySendEvent = false) {handler : HandlerState μ} {attempts : Nat}
    (hhandler : handler.retryState = (true, attempts, 1))
    (hpatience : ∀ d ∈ s.releases, d + 5000 * attempts ≤ s.now + 20000) :
    Awake lateness k s.now spare
      { s with handler, retries := s.retries ++ [s.now + delayRetryConnectDatashareMs] } := by
  simp only [HandlerState.retryState, Prod.mk.injEq] at hhandler
  rcases hhandler with ⟨hflag, hcount, hpending⟩
  refine ⟨inv.created, inv.counted, inv.serial, inv.applied, inv.past, ?_, inv.stamped,
    inv.releases, ?_, ?_⟩
  · have := inv.covered
    simp only [hflag, if_true]
    omega
  · intro _
    refine ⟨hpending, s.now + 5000, ?_, Nat.le_refl _, by simp only; omega, ?_⟩
    · simp [(inv.idle hidle).1, delayRetryConnectDatashareMs]
    · intro d hd
      have := hpatience d hd
      simp only [hcount]
      omega
  · intro hoff
    simp [hflag] at hoff

/-- A delivered retry leaves a handler that waits no longer, and a spare application. -/
theorem deliverRetry (inv : Awake lateness k a spare s)
    (hflag : s.handler.alreadySendEvent = true) {due : Nat} (hmem : due ∈ s.retries)
    (handler : HandlerState μ) (hhandler : handler.retryState = (false, 0, 0)) :
    Awake lateness k a (spare + 1) { s with handler, retries := s.retries.erase due } := by
  simp only [HandlerState.retryState, Prod.mk.injEq] at hhandler
  rcases hhandler with ⟨hoff, hcount, hpending⟩
  rcases inv.waiting hflag with ⟨-, r, hretries, -⟩
  have hdue : due = r := by simpa [hretries] using hmem
  refine ⟨inv.created, inv.counted, inv.serial, inv.applied, inv.past, ?_, inv.stamped,
    inv.releases, ?_, ?_⟩
  · have hcovered := inv.covered
    simp only [hflag, if_true] at hcovered
    simp only [hoff, Bool.false_eq_true, if_false]
    omega
  · intro hs
    simp [hoff] at hs
  · intro _
    exact ⟨by simp [hretries, hdue], hcount, hpending⟩

/-- Nothing that needs the lock can be pending when the current timeout comes. -/
theorem deliverTimeout (inv : Awake lateness k a 0 s) (hk : k < 2 ^ 32)
    (hlateness : 2 * lateness < 35000) {serial : BitVec 32} {due : Nat}
    (hmem : (serial, due) ∈ s.timeouts) (hdue : due ≤ s.now) (power : PowerService) :
    Awake lateness k a 0
      ({ s with timeouts := s.timeouts.erase (serial, due) }.handleRunningLockTimeoutEvent
        serial power) := by
  have hrest : Awake lateness k a 0 { s with timeouts := s.timeouts.erase (serial, due) } :=
    ⟨inv.created, inv.counted, inv.serial, inv.applied, inv.past, inv.covered,
      fun x hx => inv.stamped x (List.mem_of_mem_erase hx), inv.releases, inv.waiting, inv.idle⟩
  unfold handleRunningLockTimeoutEvent
  split
  · rename_i hcurrent
    have hcovered := inv.covered
    rcases inv.stamped _ hmem with ⟨j, hj, hserial, hstamp⟩
    -- the serial is read modulo 2 ^ 32, and fewer applications were made
    have hjk : j = k := by
      have hmod : BitVec.ofNat 32 j = BitVec.ofNat 32 k := by
        rw [← hserial, ← inv.serial]
        exact hcurrent
      have hval := congrArg BitVec.toNat hmod
      rw [BitVec.toNat_ofNat, BitVec.toNat_ofNat, Nat.mod_eq_of_lt (Nat.lt_of_le_of_lt hj hk),
        Nat.mod_eq_of_lt hk] at hval
      exact hval
    have hminute : s.smsRunningLockCount ≠ 0 → a + 60000 ≤ s.now :=
      fun hcount => (hstamp hjk hcount).trans hdue
    have hreleases : s.releases = [] := by
      rcases List.eq_nil_or_concat s.releases with hnil | ⟨front, d, hlast⟩
      · exact hnil
      · have hd := inv.releases d (by simp [hlast])
        have hlength : s.releases.length = front.length + 1 := by simp [hlast]
        have := hminute (by omega)
        omega
    have hidle : s.handler.alreadySendEvent = false := by
      by_contra hflag
      simp only [Bool.not_eq_false] at hflag
      rcases inv.waiting hflag with ⟨-, r, -, hr, hlate, -⟩
      simp only [hflag, if_true] at hcovered
      have := hminute (by omega)
      omega
    exact hrest.releaseRunningLock power hreleases hidle
  · exact hrest

/-! ## Steps and runs -/

theorem handleSmsEvent (inv : Awake lateness k a 0 s) (hk : k + 1 < 2 ^ 32)
    (h : SmsReceiveHandler μ) (policyDisabled ready : Bool) (ds : DataShare) (message : Option μ)
    (power : PowerService) :
    (∃ k' ≤ k + 1, ∃ a', Awake lateness k' a' 0
      (s.handleSmsEvent h policyDisabled ready ds message power).1) ∧
    MessagesLocked (s.handleSmsEvent h policyDisabled ready ds message power).2 := by
  have hheld := inv.applyRunningLock hk power
  have hframe := applyRunningLock_of_created inv.created power
  cases policyDisabled with
  | true =>
      refine ⟨⟨k, by omega, a, inv.frame rfl⟩, ?_⟩
      intro x hx hmessage
      have hx' : x = (s.locked, HandlerOutput.policyReply) := by
        simpa [LockedHandler.handleSmsEvent, HandlerState.step, Receive.handleSmsEvent] using hx
      simp [hx', HandlerOutput.isMessage] at hmessage
  | false =>
      have hstate := HandlerState.step_sms_retryState h s.handler ready ds message
      have hhandler : (s.applyRunningLock power).handler = s.handler := by rw [hframe]
      have hnow : (s.applyRunningLock power).now = s.now := by rw [hframe]
      have hreleases : (s.applyRunningLock power).releases = s.releases := by rw [hframe]
      have hlocked : (s.applyRunningLock power).locked = true := by rw [hframe]
      rw [← hnow] at hheld
      cases hflag : s.handler.alreadySendEvent with
      | true =>
          have hsame : (s.handler.step h (.sms false ready ds message)).1.retryState =
              (s.applyRunningLock power).handler.retryState := by
            rw [hstate, hhandler]
            simp [hflag]
          have hend := hheld.frame hsame
          simp only [LockedHandler.handleSmsEvent, hflag, Bool.false_eq_true, if_false,
            Bool.not_true]
          exact ⟨⟨k + 1, Nat.le_refl _, _, hend.weaken⟩, messagesLocked_map hlocked _⟩
      | false =>
          have hidle := inv.idle hflag
          cases ready with
          | true =>
              have hsame : (s.handler.step h (.sms false true ds message)).1.retryState =
                  (s.applyRunningLock power).handler.retryState := by
                rw [hstate, hhandler]
                simp
              have hoff :
                  (s.handler.step h (.sms false true ds message)).1.alreadySendEvent = false := by
                have hpair := congrArg Prod.fst hsame
                simpa [HandlerState.retryState, hhandler, hflag] using hpair
              have hend := (hheld.frame hsame).sendRelease delayReduceRunningLockTimeoutMs hoff
                (by decide) (by simp only [delayReduceRunningLockTimeoutMs]; omega)
              simp only [LockedHandler.handleSmsEvent, hflag, Bool.false_eq_true, if_false,
                Bool.not_false, if_true]
              exact ⟨⟨k + 1, Nat.le_refl _, _, hend⟩, messagesLocked_map hlocked _⟩
          | false =>
              have harmed : (s.handler.step h (.sms false false ds message)).1.retryState =
                  (true, 0, 1) := by
                rw [hstate]
                simp [hflag, hidle.2.1, hidle.2.2]
              have hpatience : ∀ d ∈ (s.applyRunningLock power).releases,
                  d + 5000 * 0 ≤ (s.applyRunningLock power).now + 20000 := by
                rw [hreleases, hnow]
                intro d hd
                have := inv.releases d hd
                omega
              have hend := hheld.sendRetry (by rw [hhandler, hflag]) harmed hpatience
              simp only [LockedHandler.handleSmsEvent, hflag, Bool.false_eq_true, if_false,
                Bool.not_false, if_true]
              exact ⟨⟨k + 1, Nat.le_refl _, _, hend⟩, messagesLocked_map hlocked _⟩

theorem handleReconnectEvent (inv : Awake lateness k a 0 s) (hk : k + 1 < 2 ^ 32)
    (hlateness : 2 * lateness < 35000) {due : Nat} (hmem : due ∈ s.retries) (hdue : due ≤ s.now)
    (h : SmsReceiveHandler μ) (ready : Bool) (ds : Nat → DataShare) (power : PowerService) :
    (∃ k' ≤ k + 1, ∃ a', Awake lateness k' a' 0
      ({ s with retries := s.retries.erase due }.handleReconnectEvent h ready ds power).1) ∧
    MessagesLocked
      ({ s with retries := s.retries.erase due }.handleReconnectEvent h ready ds power).2 := by
  have hflag : s.handler.alreadySendEvent = true := by
    by_contra hoff
    simp only [Bool.not_eq_true] at hoff
    simp [(inv.idle hoff).1] at hmem
  rcases inv.waiting hflag with ⟨hpending, r, hretries, hr, hlate, hpatience⟩
  have hdr : due = r := by simpa [hretries] using hmem
  have hlocked : s.locked = true := by
    have hcovered := inv.covered
    simp only [hflag, if_true] at hcovered
    exact inv.counted (by omega)
  have hstate := HandlerState.step_retryConnect_retryState h s.handler hpending ready ds
  cases ready with
  | true =>
      have hfree := inv.deliverRetry hflag hmem _ hstate
      have hoff : (s.handler.step h (.retryConnect true ds)).1.alreadySendEvent = false :=
        congrArg Prod.fst hstate
      have hend := hfree.sendRelease delayReduceRunningLockSmsQueueTimeoutMs hoff
        (by decide) (by simp only [delayReduceRunningLockSmsQueueTimeoutMs]; omega)
      simp only [LockedHandler.handleReconnectEvent, if_true]
      exact ⟨⟨k, by omega, a, hend⟩, messagesLocked_map hlocked _⟩
  | false =>
      simp only [Bool.false_eq_true, if_false] at hstate
      simp only [LockedHandler.handleReconnectEvent, Bool.false_eq_true, if_false]
      by_cases hmax : s.handler.reconnectDataShareCount + 1 ≥ reconnectMaxCount
      · rw [if_pos hmax] at hstate ⊢
        have hoff : (s.handler.step h (.retryConnect false ds)).1.alreadySendEvent = false :=
          congrArg Prod.fst hstate
        have hreleases : s.releases = [] := by
          rcases List.eq_nil_or_concat s.releases with hnil | ⟨front, d, hlast⟩
          · exact hnil
          · have hd : d ∈ s.releases := by simp [hlast]
            have := inv.releases d hd
            have := hpatience d hd
            have : 20 ≤ s.handler.reconnectDataShareCount + 1 := hmax
            omega
        have hend := (inv.deliverRetry hflag hmem _ hstate).releaseRunningLock power hreleases hoff
        rw [releaseRunningLock_frame] at hend
        rw [releaseRunningLock_frame s s.handler]
        exact ⟨⟨k, by omega, a, hend⟩, messagesLocked_map hlocked _⟩
      · rw [if_neg hmax] at hstate ⊢
        -- the handler that waits no longer is there only while the event is worked on
        have hfree := inv.deliverRetry hflag hmem (HandlerState.init s.handler.table) rfl
        have hheld := (hfree.reduceRunningLock power).applyRunningLock hk power
        rw [reduceRunningLock_frame, applyRunningLock_frame] at hheld
        have hnow : ((s.reduceRunningLock power).applyRunningLock power).now =
            (s.reduceRunningLock power).now := applyRunningLock_now ..
        have hreleases : ((s.reduceRunningLock power).applyRunningLock power).releases =
            s.releases := by
          rw [applyRunningLock_releases, (reduceRunningLock_releases s power).1]
        have harmed : (s.handler.step h (.retryConnect false ds)).1.retryState =
            (true, s.handler.reconnectDataShareCount + 1, 1) := by
          rw [hstate, hflag]
        have hwait : ∀ d ∈ ((s.reduceRunningLock power).applyRunningLock power).releases,
            d + 5000 * (s.handler.reconnectDataShareCount + 1) ≤
              ((s.reduceRunningLock power).applyRunningLock power).now + 20000 := by
          rw [hreleases, hnow, (reduceRunningLock_releases s power).2]
          intro d hd
          have := hpatience d hd
          omega
        simp only at hheld
        rw [← hnow] at hheld
        have hend := sendRetry
          (s := { (s.reduceRunningLock power).applyRunningLock power with
            handler := .init s.handler.table, retries := s.retries.erase due })
          hheld rfl harmed hwait
        rw [reduceRunningLock_frame s s.handler, applyRunningLock_frame]
        exact ⟨⟨k + 1, Nat.le_refl _, _, hend⟩, messagesLocked_map hlocked _⟩

theorem step (inv : Awake lateness k a 0 s) (hk : k + 1 < 2 ^ 32)
    (hlateness : 2 * lateness < 35000) (h : SmsReceiveHandler μ) {e : LockEvent μ}
    (htimely : Timely lateness s e) :
    (∃ k' ≤ k + 1, ∃ a', Awake lateness k' a' 0 (s.step h e).1) ∧
      MessagesLocked (s.step h e).2 := by
  have hnone : MessagesLocked ([] : List (Output μ)) := fun x hx => by cases hx
  have hsame : (∃ k' ≤ k + 1, ∃ a', Awake lateness k' a' 0 s) ∧
      MessagesLocked ([] : List (Output μ)) := ⟨⟨k, by omega, a, inv⟩, hnone⟩
  cases e with
  | elapse ms => exact ⟨⟨k, by omega, a, inv.elapse htimely⟩, hnone⟩
  | sms policyDisabled ready ds message power => exact inv.handleSmsEvent hk h ..
  | delayRelease due power =>
      simp only [LockedHandler.step]
      split
      · rename_i hdelivered
        exact ⟨⟨k, by omega, a, (inv.deliverRelease hdelivered.1).reduceRunningLock power⟩, hnone⟩
      · exact hsame
  | runningLockTimeout serial due power =>
      simp only [LockedHandler.step]
      split
      · rename_i hdelivered
        exact ⟨⟨k, by omega, a, inv.deliverTimeout (by omega) hlateness hdelivered.1 hdelivered.2
          power⟩, hnone⟩
      · exact hsame
  | retryConnect due ready ds power =>
      simp only [LockedHandler.step]
      split
      · rename_i hdelivered
        exact inv.handleReconnectEvent hk hlateness hdelivered.1 hdelivered.2 h ready ds power
      · exact hsame

end Awake

/-- What `n` timely steps lead to, with the outputs they made. -/
def AwakeAfter (lateness n : Nat) (outs : List (Output μ)) (s : LockedHandler μ) : Prop :=
  n < 2 ^ 32 → (∃ k ≤ n, ∃ a, Awake lateness k a 0 s) ∧ MessagesLocked outs

theorem awakeAfter_run (h : SmsReceiveHandler μ) (t : SmsTable) {power : PowerService}
    (hpower : power.created = true) {lateness : Nat} (hlateness : 2 * lateness < 35000)
    {es : List (LockEvent μ)}
    (htimely : Guarded (next (step h)) (Timely lateness) (.init t power) es) :
    AwakeAfter lateness es.length (outputs (step h) (.init t power) es)
      (es.foldl (next (step h)) (.init t power)) := by
  have hinit : AwakeAfter lateness 0 [] (.init t power : LockedHandler μ) := fun _ =>
    ⟨⟨0, Nat.le_refl _, 0, Awake.init lateness t hpower⟩, fun x hx => by cases hx⟩
  have hstep : ∀ n outs s e, Timely lateness s e → AwakeAfter lateness n outs s →
      AwakeAfter lateness (n + 1) (outs ++ (step h s e).2) (step h s e).1 := by
    intro n outs s e hok inv hn
    rcases inv (by omega) with ⟨⟨k, hk, a, hawake⟩, houts⟩
    rcases hawake.step (by omega) hlateness h hok with ⟨⟨k', hk', a', hnext⟩, hnew⟩
    refine ⟨⟨k', by omega, a', hnext⟩, ?_⟩
    intro x hx
    rcases List.mem_append.mp hx with hold | hlast
    · exact houts x hold
    · exact hnew x hlast
  simpa using htimely.counted_invariant hstep hinit

/-- With a lock that was created and a runner that is never more than `lateness`
late, in every run every message is handled, acknowledged for later or taken
from the queue under the lock, and the lock is held as long as a release or a
retry is pending: no timeout and no give-up takes it away before. -/
theorem lock_held_while_needed (h : SmsReceiveHandler μ) (t : SmsTable) (power : PowerService)
    (hpower : power.created = true) (lateness : Nat) (hlateness : 2 * lateness < 35000)
    (es : List (LockEvent μ)) (hlength : es.length < 2 ^ 32)
    (htimely : Guarded (next (step h)) (Timely lateness) (.init t power) es) :
    let s := es.foldl (next (step h)) (.init t power)
    (∀ x ∈ outputs (step h) (.init t power) es, x.2.isMessage = true → x.1 = true) ∧
    (s.releases ≠ [] ∨ s.handler.alreadySendEvent = true → s.locked = true) ∧
    s.releases.length + (if s.handler.alreadySendEvent then 1 else 0) ≤
      s.smsRunningLockCount := by
  intro s
  rcases awakeAfter_run h t hpower hlateness htimely hlength with
    ⟨⟨k, -, a, (hawake : Awake lateness k a 0 s)⟩, houts⟩
  have hcovered := hawake.covered
  refine ⟨houts, ?_, hcovered⟩
  intro hneeded
  apply hawake.counted
  rcases hneeded with hreleases | hflag
  · have := List.length_pos_iff.mpr hreleases
    omega
  · simp only [hflag, if_true] at hcovered
    omega

/-- A text arrives while the data share is down and is drained five seconds later:
the lock is held with its release twenty seconds ahead. -/
theorem lock_held_after_a_drain :
    let ds : DataShare := ⟨true, true, true, 1⟩
    let m : GsmSmsMessage :=
      ⟨⟨[0x01], 0, -1, "1", "1", "", [], [], none⟩, 0, .classUnknown, false, false⟩
    let es := [.sms false false ds (some m) ⟨true, true⟩, .elapse 5000,
      .retryConnect 5000 true (fun _ => ds) ⟨true, true⟩]
    let s := es.foldl (next (step (gsmSmsReceiveHandler (fun _ => none) 0)))
      (.init .empty ⟨true, true⟩)
    s.releases = [25000] ∧ s.locked = true := by
  intro ds m es s
  have htimely : Guarded (next (step (gsmSmsReceiveHandler (fun _ => none) 0))) (Timely 1000)
      (.init .empty ⟨true, true⟩) es :=
    ⟨trivial, ⟨by decide, by decide, by decide⟩, trivial, trivial⟩
  have hreleases : s.releases = [25000] := by decide
  have hlength : es.length < 2 ^ 32 := by
    have hthree : es.length = 3 := rfl
    omega
  have hne : s.releases ≠ [] := by simp [hreleases]
  exact ⟨hreleases, (lock_held_while_needed _ .empty ⟨true, true⟩ rfl 1000 (by decide) es
    hlength htimely).2.1 (.inl hne)⟩

end LockedHandler

end TelephonySms.Receive
