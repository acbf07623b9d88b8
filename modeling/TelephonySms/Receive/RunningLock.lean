import Mathlib.Algebra.Group.Nat.Defs
import TelephonySms.Receive.Queue

/-! # The running lock of a receive handler

While a message is worked on the handler keeps the device awake. It counts
its applications, and three kinds of delayed events take them back: a release
some seconds after a message was handled, the retry that finds the data share
down, and a timeout that carries the serial number of the application it was
sent for. Time is explicit here, and the runner may deliver a due event late.
-/

namespace TelephonySms.Receive

open TelephonySms.Machine

/-- What the power service answers within one event: whether `CreateRunningLock`
gave a lock, and whether `UnLock` reached the service. -/
structure PowerService where
  created : Bool
  reached : Bool

structure LockedHandler (μ : Type*) where
  handler : HandlerState μ
  now : Nat
  /-- `smsRunningLock_` is not null. -/
  smsRunningLock : Bool
  smsRunningLockCount : Nat
  smsLockSerialNum : BitVec 32
  /-- `Lock` was called, and no `UnLock` has reached the service since. -/
  locked : Bool
  /-- Pending `RUNNING_LOCK_TIMEOUT` events: the serial they carry and when they are due. -/
  timeouts : List (BitVec 32 × Nat)
  /-- Pending `DELAY_RELEASE_RUNNING_LOCK` events. -/
  releases : List Nat
  /-- Pending `RETRY_CONNECT_DATASHARE` events. -/
  retries : List Nat

inductive LockEvent (μ : Type*) where
  | elapse (ms : Nat)
  | sms (policyDisabled dataShareReady : Bool) (ds : DataShare) (message : Option μ)
      (power : PowerService)
  /-- The runner delivers the event due at `due`; nothing happens when there is none. -/
  | delayRelease (due : Nat) (power : PowerService)
  | runningLockTimeout (serial : BitVec 32) (due : Nat) (power : PowerService)
  | retryConnect (due : Nat) (dataShareReady : Bool) (ds : Nat → DataShare)
      (power : PowerService)

def runningLockDefaultTimeoutMs : Nat := 60 * 1000
def delayReleaseRunningLockTimeoutMs : Nat := 5 * 1000
def delayReduceRunningLockTimeoutMs : Nat := 4 * 1000
def delayReduceRunningLockSmsQueueTimeoutMs : Nat := 20 * 1000
def delayRetryConnectDatashareMs : Nat := 5 * 1000

namespace LockedHandler

variable {μ : Type*}

def createRunningLockInner (s : LockedHandler μ) (power : PowerService) : LockedHandler μ :=
  { s with smsRunningLock := power.created, smsRunningLockCount := 0, smsLockSerialNum := 0 }

/-- The handler as its constructor leaves it. -/
def init (t : SmsTable) (power : PowerService) : LockedHandler μ :=
  ⟨.init t, 0, power.created, 0, 0, false, [], [], []⟩

/-- `ReleaseRunningLock`: an `UnLock` that reaches the service removes every timeout. -/
def releaseRunningLock (s : LockedHandler μ) (power : PowerService) : LockedHandler μ :=
  if !s.smsRunningLock then s
  else if power.reached then { s with smsRunningLockCount := 0, locked := false, timeouts := [] }
  else
    { s with
      smsRunningLockCount := 0
      timeouts := s.timeouts ++
        [(s.smsLockSerialNum, s.now + delayReleaseRunningLockTimeoutMs)] }

def applyRunningLock (s : LockedHandler μ) (power : PowerService) : LockedHandler μ :=
  let s := if s.smsRunningLock then s else s.createRunningLockInner power
  if s.smsRunningLock then
    { s with
      smsRunningLockCount := (s.smsRunningLockCount + 1) % 2 ^ 32
      smsLockSerialNum := s.smsLockSerialNum + 1
      locked := true
      timeouts := s.timeouts ++ [(s.smsLockSerialNum + 1, s.now + runningLockDefaultTimeoutMs)] }
  else s

def reduceRunningLock (s : LockedHandler μ) (power : PowerService) : LockedHandler μ :=
  if s.smsRunningLock then
    if s.smsRunningLockCount > 1 then
      { s with smsRunningLockCount := s.smsRunningLockCount - 1 }
    else releaseRunningLock { s with smsRunningLockCount := 0 } power
  else s

def handleRunningLockTimeoutEvent (s : LockedHandler μ) (serial : BitVec 32)
    (power : PowerService) : LockedHandler μ :=
  if serial = s.smsLockSerialNum then s.releaseRunningLock power else s

section Step

variable (h : SmsReceiveHandler μ)

/-- Outputs carry whether the lock was held when they were made. -/
abbrev Output (μ : Type*) := Bool × HandlerOutput μ

/-- `HandleSmsEvent`: the flag is read before the message can set it. -/
def handleSmsEvent (s : LockedHandler μ) (policyDisabled ready : Bool) (ds : DataShare)
    (message : Option μ) (power : PowerService) : LockedHandler μ × List (Output μ) :=
  let (handler, outs) := s.handler.step h (.sms policyDisabled ready ds message)
  if policyDisabled then ({ s with handler }, outs.map ((s.locked, ·)))
  else
    let held := s.applyRunningLock power
    let outs := outs.map ((held.locked, ·))
    if !s.handler.alreadySendEvent then
      if ready then
        ({ held with
            handler
            releases := held.releases ++ [held.now + delayReduceRunningLockTimeoutMs] }, outs)
      else
        ({ held with
            handler
            retries := held.retries ++ [held.now + delayRetryConnectDatashareMs] }, outs)
    else ({ held with handler }, outs)

def handleReconnectEvent (s : LockedHandler μ) (ready : Bool) (ds : Nat → DataShare)
    (power : PowerService) : LockedHandler μ × List (Output μ) :=
  let (handler, outs) := s.handler.step h (.retryConnect ready ds)
  let outs := outs.map ((s.locked, ·))
  if ready then
    ({ s with
        handler
        releases := s.releases ++ [s.now + delayReduceRunningLockSmsQueueTimeoutMs] }, outs)
  else if s.handler.reconnectDataShareCount + 1 ≥ reconnectMaxCount then
    ({ s.releaseRunningLock power with handler }, outs)
  else
    let held := (s.reduceRunningLock power).applyRunningLock power
    ({ held with
        handler
        retries := held.retries ++ [held.now + delayRetryConnectDatashareMs] }, outs)

/-- `ProcessEvent`; an event is delivered when it was sent and its delay has passed. -/
def step (s : LockedHandler μ) : LockEvent μ → LockedHandler μ × List (Output μ)
  | .elapse ms => ({ s with now := s.now + ms }, [])
  | .sms policyDisabled ready ds message power =>
      s.handleSmsEvent h policyDisabled ready ds message power
  | .delayRelease due power =>
      if due ∈ s.releases ∧ due ≤ s.now then
        ({ s with releases := s.releases.erase due }.reduceRunningLock power, [])
      else (s, [])
  | .runningLockTimeout serial due power =>
      if (serial, due) ∈ s.timeouts ∧ due ≤ s.now then
        ({ s with timeouts := s.timeouts.erase (serial, due) }.handleRunningLockTimeoutEvent
          serial power, [])
      else (s, [])
  | .retryConnect due ready ds power =>
      if due ∈ s.retries ∧ due ≤ s.now then
        { s with retries := s.retries.erase due }.handleReconnectEvent h ready ds power
      else (s, [])

end Step

/-! ## The lock does not leak -/

/-- The part of the state that only the lock's own functions touch. -/
structure Watched (s : LockedHandler μ) : Prop where
  created : s.locked = true → s.smsRunningLock = true
  counted : s.smsRunningLockCount ≠ 0 → s.locked = true
  watched : s.locked = true →
    ∃ due ≤ s.now + runningLockDefaultTimeoutMs, (s.smsLockSerialNum, due) ∈ s.timeouts

namespace Watched

variable {s : LockedHandler μ}

theorem init (t : SmsTable) (power : PowerService) :
    Watched (LockedHandler.init t power : LockedHandler μ) where
  created hs := by simp [LockedHandler.init] at hs
  counted hs := by simp [LockedHandler.init] at hs
  watched hs := by simp [LockedHandler.init] at hs

theorem elapse (inv : Watched s) (ms : Nat) : Watched { s with now := s.now + ms } where
  created := inv.created
  counted := inv.counted
  watched hs := by
    rcases inv.watched hs with ⟨due, hdue, hmem⟩
    exact ⟨due, by simp only; omega, hmem⟩

/-- The handler's own fields and the events that are no timeouts do not matter. -/
theorem frame (inv : Watched s) (handler : HandlerState μ) (releases retries : List Nat) :
    Watched { s with handler, releases, retries } where
  created := inv.created
  counted := inv.counted
  watched := inv.watched

/-- Whatever was pending before, a release ends the watch or starts it anew. -/
theorem of_release (created : s.locked = true → s.smsRunningLock = true)
    (counted : s.smsRunningLockCount ≠ 0 → s.locked = true) (power : PowerService) :
    Watched (s.releaseRunningLock power) := by
  unfold LockedHandler.releaseRunningLock
  cases hlock : s.smsRunningLock with
  | false =>
      have hunlocked : s.locked ≠ true := fun hheld => by simp [created hheld] at hlock
      exact ⟨created, counted, fun hheld => absurd hheld hunlocked⟩
  | true =>
      simp only [Bool.not_true, Bool.false_eq_true, if_false]
      split
      · exact ⟨by simp, by simp, by simp⟩
      · have hdue : s.now + delayReleaseRunningLockTimeoutMs ≤
            s.now + runningLockDefaultTimeoutMs := by
          simp [delayReleaseRunningLockTimeoutMs, runningLockDefaultTimeoutMs]
        exact ⟨fun _ => rfl, by simp, fun _ => ⟨_, hdue, List.mem_append_right _ (by simp)⟩⟩

theorem releaseRunningLock (inv : Watched s) (power : PowerService) :
    Watched (s.releaseRunningLock power) :=
  of_release inv.created inv.counted power

theorem applyRunningLock (inv : Watched s) (power : PowerService) :
    Watched (s.applyRunningLock power) := by
  have hunlocked : s.smsRunningLock = false → s.locked = false := by
    intro hlock
    by_contra hheld
    simp [inv.created (by simpa using hheld)] at hlock
  unfold LockedHandler.applyRunningLock
  cases hlock : s.smsRunningLock with
  | true =>
      simp only [hlock, if_true]
      exact ⟨fun _ => rfl, fun _ => rfl,
        fun _ => ⟨_, Nat.le_refl _, List.mem_append_right _ (by simp)⟩⟩
  | false =>
      simp only [createRunningLockInner, Bool.false_eq_true, if_false]
      split
      · rename_i hcreated
        exact ⟨fun _ => hcreated, fun _ => rfl,
          fun _ => ⟨_, Nat.le_refl _, List.mem_append_right _ (by simp)⟩⟩
      · exact ⟨by simp [hunlocked hlock], by simp, by simp [hunlocked hlock]⟩

theorem reduceRunningLock (inv : Watched s) (power : PowerService) :
    Watched (s.reduceRunningLock power) := by
  unfold LockedHandler.reduceRunningLock
  split
  · split
    · rename_i hcount
      exact ⟨inv.created, fun _ => inv.counted (by omega), inv.watched⟩
    · have hzero : Watched { s with smsRunningLockCount := 0 } :=
        ⟨inv.created, by simp, inv.watched⟩
      exact hzero.releaseRunningLock power
  · exact inv

/-- Only the delivery of the current timeout ends the watch, and it releases the lock
or sends the next one. -/
theorem handleRunningLockTimeoutEvent (inv : Watched s) (serial : BitVec 32) (due : Nat)
    (power : PowerService) :
    Watched ({ s with timeouts := s.timeouts.erase (serial, due) }.handleRunningLockTimeoutEvent
      serial power) := by
  unfold LockedHandler.handleRunningLockTimeoutEvent
  split
  · exact of_release (s := { s with timeouts := s.timeouts.erase (serial, due) })
      inv.created inv.counted power
  · rename_i hstale
    refine ⟨inv.created, inv.counted, fun hheld => ?_⟩
    rcases inv.watched hheld with ⟨d, hd, hmem⟩
    have hne : (s.smsLockSerialNum, d) ≠ (serial, due) := by
      intro heq
      exact hstale (Prod.mk.inj heq).1.symm
    exact ⟨d, hd, (List.mem_erase_of_ne hne).mpr hmem⟩

theorem handleSmsEvent (inv : Watched s) (h : SmsReceiveHandler μ) (policyDisabled ready : Bool)
    (ds : DataShare) (message : Option μ) (power : PowerService) :
    Watched (s.handleSmsEvent h policyDisabled ready ds message power).1 := by
  unfold LockedHandler.handleSmsEvent
  have happly := inv.applyRunningLock power
  simp only
  split
  · exact inv.frame ..
  · split
    · split
      · exact happly.frame ..
      · exact happly.frame ..
    · exact happly.frame ..

theorem handleReconnectEvent (inv : Watched s) (h : SmsReceiveHandler μ) (ready : Bool)
    (ds : Nat → DataShare) (power : PowerService) :
    Watched (s.handleReconnectEvent h ready ds power).1 := by
  unfold LockedHandler.handleReconnectEvent
  simp only
  split
  · exact inv.frame ..
  · split
    · exact (inv.releaseRunningLock power).frame ..
    · exact ((inv.reduceRunningLock power).applyRunningLock power).frame ..

theorem step (inv : Watched s) (h : SmsReceiveHandler μ) (e : LockEvent μ) :
    Watched (s.step h e).1 := by
  cases e with
  | elapse ms => exact inv.elapse ms
  | sms policyDisabled ready ds message power => exact inv.handleSmsEvent h ..
  | delayRelease due power =>
      simp only [LockedHandler.step]
      split
      · exact (inv.frame ..).reduceRunningLock power
      · exact inv
  | runningLockTimeout serial due power =>
      simp only [LockedHandler.step]
      split
      · exact inv.handleRunningLockTimeoutEvent serial due power
      · exact inv
  | retryConnect due ready ds power =>
      simp only [LockedHandler.step]
      split
      · exact (inv.frame ..).handleReconnectEvent h ready ds power
      · exact inv

end Watched

theorem watched_run (h : SmsReceiveHandler μ) (t : SmsTable) (power : PowerService)
    (es : List (LockEvent μ)) :
    Watched (es.foldl (next (LockedHandler.step h)) (.init t power)) :=
  foldl_invariant (fun _ e inv => inv.step h e) es (Watched.init t power)

/-! ## How long the lock can be held -/

/-- Time passes only as far as no pending event gets later than `lateness`. -/
def Timely (lateness : Nat) (s : LockedHandler μ) : LockEvent μ → Prop
  | .elapse ms =>
      (∀ x ∈ s.timeouts, s.now + ms ≤ x.2 + lateness) ∧
      (∀ due ∈ s.releases, s.now + ms ≤ due + lateness) ∧
      ∀ due ∈ s.retries, s.now + ms ≤ due + lateness
  | _ => True

/-- Nothing applies the lock, and the power service can be reached. -/
def Quiet : LockEvent μ → Prop
  | .elapse _ => True
  | .delayRelease _ power => power.reached = true
  | .runningLockTimeout _ _ power => power.reached = true
  | _ => False

def elapsed : List (LockEvent μ) → Nat
  | [] => 0
  | .elapse ms :: es => ms + elapsed es
  | _ :: es => elapsed es

section Quiet

variable {s : LockedHandler μ} {power : PowerService}

theorem releaseRunningLock_locked (hreached : power.reached = true)
    (hcreated : s.locked = true → s.smsRunningLock = true) :
    (s.releaseRunningLock power).locked = false := by
  unfold releaseRunningLock
  cases hlock : s.smsRunningLock with
  | false =>
      by_contra hheld
      simp [hcreated (by simpa using hheld)] at hlock
  | true => simp [hreached]

/-- A reduction keeps the serial and the timeouts unless it unlocks. -/
theorem reduceRunningLock_quiet (inv : Watched s) (hreached : power.reached = true) :
    (s.reduceRunningLock power).locked = false ∨
      ((s.reduceRunningLock power).smsLockSerialNum = s.smsLockSerialNum ∧
        (s.reduceRunningLock power).timeouts = s.timeouts ∧
        (s.reduceRunningLock power).now = s.now) := by
  unfold reduceRunningLock
  split
  · split
    · exact .inr ⟨rfl, rfl, rfl⟩
    · exact .inl (releaseRunningLock_locked hreached inv.created)
  · exact .inr ⟨rfl, rfl, rfl⟩

theorem step_quiet_unlocked (h : SmsReceiveHandler μ) {e : LockEvent μ} (hquiet : Quiet e)
    (hs : s.locked = false) : (s.step h e).1.locked = false := by
  cases e with
  | elapse ms => exact hs
  | sms => exact hquiet.elim
  | retryConnect => exact hquiet.elim
  | delayRelease due power =>
      have hreached : power.reached = true := hquiet
      simp only [step, reduceRunningLock, releaseRunningLock]
      split_ifs <;> simp_all
  | runningLockTimeout serial due power =>
      have hreached : power.reached = true := hquiet
      simp only [step, handleRunningLockTimeoutEvent, releaseRunningLock]
      split_ifs <;> simp_all

/-- A quiet step unlocks, or leaves the current timeout pending. -/
theorem step_quiet (h : SmsReceiveHandler μ) (inv : Watched s) {e : LockEvent μ}
    (hquiet : Quiet e) {due : Nat} (hpending : (s.smsLockSerialNum, due) ∈ s.timeouts) :
    (s.step h e).1.locked = false ∨
      (((s.step h e).1.smsLockSerialNum, due) ∈ (s.step h e).1.timeouts ∧
        (s.step h e).1.now = s.now + elapsed [e]) := by
  cases e with
  | elapse ms => exact .inr ⟨hpending, rfl⟩
  | sms => exact hquiet.elim
  | retryConnect => exact hquiet.elim
  | delayRelease d power =>
      simp only [step]
      split
      · have hframe : Watched { s with releases := s.releases.erase d } := inv.frame ..
        rcases reduceRunningLock_quiet hframe hquiet with hfree | ⟨hserial, hsame, hnow⟩
        · exact .inl hfree
        · exact .inr ⟨by rw [hserial, hsame]; exact hpending, hnow⟩
      · exact .inr ⟨hpending, rfl⟩
  | runningLockTimeout serial d power =>
      simp only [step]
      split
      · unfold handleRunningLockTimeoutEvent
        split
        · exact .inl (releaseRunningLock_locked
            (s := { s with timeouts := s.timeouts.erase (serial, d) }) hquiet inv.created)
        · rename_i hstale
          have hne : (s.smsLockSerialNum, due) ≠ (serial, d) := by
            intro heq
            exact hstale (Prod.mk.inj heq).1.symm
          exact .inr ⟨(List.mem_erase_of_ne hne).mpr hpending, rfl⟩
      · exact .inr ⟨hpending, rfl⟩

theorem run_quiet_unlocked (h : SmsReceiveHandler μ) (es : List (LockEvent μ))
    (hquiet : ∀ e ∈ es, Quiet e) (hs : s.locked = false) :
    (es.foldl (next (step h)) s).locked = false := by
  induction es generalizing s with
  | nil => exact hs
  | cons e es ih =>
      exact ih (fun e' he' => hquiet e' (List.mem_cons_of_mem _ he'))
        (step_quiet_unlocked h (hquiet e List.mem_cons_self) hs)

/-- While the lock is held the current timeout bounds the time that has passed. -/
theorem run_quiet (h : SmsReceiveHandler μ) (lateness : Nat) (inv : Watched s)
    (es : List (LockEvent μ)) (hquiet : ∀ e ∈ es, Quiet e)
    (htimely : Guarded (next (step h)) (Timely lateness) s es) {due : Nat}
    (hpending : (s.smsLockSerialNum, due) ∈ s.timeouts) :
    (es.foldl (next (step h)) s).locked = false ∨ elapsed es = 0 ∨
      s.now + elapsed es ≤ due + lateness := by
  induction es generalizing s with
  | nil => exact .inr (.inl rfl)
  | cons e es ih =>
      have hrest : ∀ e' ∈ es, Quiet e' := fun e' he' => hquiet e' (List.mem_cons_of_mem _ he')
      rcases step_quiet h inv (hquiet e List.mem_cons_self) hpending with hfree | ⟨hnext, hnow⟩
      · exact .inl (run_quiet_unlocked h es hrest hfree)
      · rcases ih (inv.step h e) hrest htimely.2 hnext with hfree | hzero | hle
        · exact .inl hfree
        · cases e with
          | elapse ms =>
              have hlate := htimely.1.1 _ hpending
              simp only [elapsed, hzero] at hlate ⊢
              exact .inr (.inr (by simpa using hlate))
          | _ => exact .inr (.inl hzero)
        · have hsplit : elapsed (e :: es) = elapsed [e] + elapsed es := by
            cases e <;> simp [elapsed]
          exact .inr (.inr (by omega))

end Quiet

/-- In every reachable state, whatever the order and the delay of the events and
whatever the power service answered, a lock that is held has a timeout with the
current serial on its way, due within a minute. Once nothing applies the lock
any more and the service can be reached, it is free, with the count at zero,
after that minute and the runner's lateness. -/
theorem lock_never_leaks (h : SmsReceiveHandler μ) (t : SmsTable) (power : PowerService)
    (es : List (LockEvent μ)) :
    let s := es.foldl (next (step h)) (.init t power)
    ((s.locked = true ∨ s.smsRunningLockCount ≠ 0) →
      ∃ due ≤ s.now + runningLockDefaultTimeoutMs, (s.smsLockSerialNum, due) ∈ s.timeouts) ∧
    ∀ (lateness : Nat) (quiet : List (LockEvent μ)), (∀ e ∈ quiet, Quiet e) →
      Guarded (next (step h)) (Timely lateness) s quiet →
      runningLockDefaultTimeoutMs + lateness < elapsed quiet →
      (quiet.foldl (next (step h)) s).locked = false ∧
        (quiet.foldl (next (step h)) s).smsRunningLockCount = 0 := by
  intro s
  have inv : Watched s := watched_run h t power es
  refine ⟨fun hheld => inv.watched (hheld.elim id inv.counted), ?_⟩
  intro lateness quiet hquiet htimely hlong
  have hend : Watched (quiet.foldl (next (step h)) s) :=
    foldl_invariant (fun _ e inv => inv.step h e) quiet inv
  have hfree : (quiet.foldl (next (step h)) s).locked = false := by
    cases hheld : s.locked with
    | false => exact run_quiet_unlocked h quiet hquiet hheld
    | true =>
        rcases inv.watched hheld with ⟨due, hdue, hpending⟩
        rcases run_quiet h lateness inv quiet hquiet htimely hpending with hfree | hzero | hle
        · exact hfree
        · omega
        · omega
  refine ⟨hfree, ?_⟩
  by_contra hcount
  simp [hend.counted hcount] at hfree

/-- A text is handled at once; its release comes after four seconds. -/
theorem lock_free_after_a_minute :
    let ds : DataShare := ⟨true, true, true, 1⟩
    let m : GsmSmsMessage :=
      ⟨⟨[0x01], 0, -1, "1", "1", "", [], [], none⟩, 0, .classUnknown, false, false⟩
    let quiet : List (LockEvent GsmSmsMessage) :=
      [.elapse 4000, .delayRelease 4000 ⟨true, true⟩, .elapse 60000]
    let s := [LockEvent.sms false true ds (some m) ⟨true, true⟩].foldl
      (next (step (gsmSmsReceiveHandler (fun _ => none) 0))) (.init .empty ⟨true, true⟩)
    s.locked = true ∧ (quiet.foldl
      (next (step (gsmSmsReceiveHandler (fun _ => none) 0))) s).locked = false := by
  intro ds m quiet s
  have hquiet : ∀ e ∈ quiet, Quiet e := by simp [quiet, Quiet]
  have htimely : Guarded (next (step (gsmSmsReceiveHandler (fun _ => none) 0))) (Timely 0) s
      quiet :=
    ⟨⟨by decide, by decide, by decide⟩, trivial, ⟨by decide, by decide, by decide⟩, trivial⟩
  exact ⟨rfl, ((lock_never_leaks _ .empty ⟨true, true⟩ _).2 0 quiet hquiet htimely
    (by decide)).1⟩

end LockedHandler

end TelephonySms.Receive
