import TelephonySms.Machine

/-! # Requests to the modem

`SmsMiscManager` has four operations that ask the modem something and wait. The callers share
one mutex, one condition variable and the members that say how it went, so an answer is for
whoever waits. A caller that is woken looks at its flag and waits on while it is down; one
whose wait is over leaves with the flag as it is.
-/

namespace TelephonySms.Modem

open TelephonySms.Machine

inductive Operation where
  | setCBConfig
  | getCBConfig
  | setSmscAddr
  | getSmscAddr
  deriving DecidableEq, Repr

/-- What an event carries: nothing, a `RadioResponseInfo`, a `ServiceCenterAddress` or a
`CBConfigInfo`. -/
inductive Answer where
  | nullptr
  | response (noError : Bool)
  | address (text : List Char)
  | config
  deriving DecidableEq, Repr

structure SmsMiscManager where
  fairList : List Int32
  fairVar : Int32
  conditonVar : Int32
  isSuccess : Bool
  isCbConfigFinish : Bool
  smscAddr : List Char
  /-- How many calls there have been; a call goes by its number. -/
  calls : Nat
  /-- The calls that wait on `condVar_`. -/
  waiting : List (Nat × Operation)
  /-- The calls whose request the modem has not answered. -/
  unanswered : List (Nat × Operation)

def SmsMiscManager.init : SmsMiscManager := ⟨[], -1, 0, false, false, [], 0, [], []⟩

inductive Event where
  | begin (operation : Operation)
  /-- `ProcessEvent` with the answer to the request of a call. -/
  | finish (call : Nat) (operation : Operation) (answer : Answer)
  /-- A call is woken, also when nobody has notified it. -/
  | wake (call : Nat) (operation : Operation)
  | timeout (call : Nat) (operation : Operation)
  deriving DecidableEq, Repr

inductive Output where
  /-- Whether `NotifyHasResponse` gets to `notify_all`. -/
  | notified (all : Bool)
  | returned (call : Nat) (operation : Operation) (success : Bool) (smscAddr : List Char)
  deriving DecidableEq, Repr

namespace SmsMiscManager

/-- The flag that the loop of an operation looks at. -/
def flag (m : SmsMiscManager) : Operation → Bool
  | .getCBConfig => m.isCbConfigFinish
  | _ => m.isSuccess

/-- An operation up to its loop. -/
def sendRequest (m : SmsMiscManager) (operation : Operation) : SmsMiscManager :=
  let m := match operation with
    | .getCBConfig => { m with isCbConfigFinish := false }
    | .getSmscAddr => { m with smscAddr := [], isSuccess := false }
    | _ => { m with isSuccess := false }
  { m with
    conditonVar := m.conditonVar + 1
    fairList := m.fairList ++ [m.conditonVar]
    calls := m.calls + 1
    waiting := m.waiting ++ [(m.calls, operation)]
    unanswered := m.unanswered ++ [(m.calls, operation)] }

/-- `NotifyHasResponse` takes a ticket, and notifies nobody when there is none. -/
def notifyHasResponse (m : SmsMiscManager) : SmsMiscManager × Bool :=
  match m.fairList with
  | [] => (m, false)
  | front :: fairList => ({ m with fairVar := front, fairList := fairList }, true)

/-- Whether an answer to a request is taken as a success. -/
def succeeded : Operation → Answer → Bool
  | .setCBConfig, .response noError => noError
  | .setSmscAddr, .response noError => noError
  | .getCBConfig, .nullptr => false
  | _, _ => true

/-- What an answer says to whoever waits. -/
def answered (m : SmsMiscManager) (operation : Operation) (answer : Answer) : SmsMiscManager :=
  match operation, answer with
  | .getCBConfig, answer => { m with isCbConfigFinish := succeeded .getCBConfig answer }
  | .getSmscAddr, .address text => { m with isSuccess := true, smscAddr := text }
  | operation, answer => { m with isSuccess := succeeded operation answer }

def processEvent (m : SmsMiscManager) (operation : Operation) (answer : Answer) :
    SmsMiscManager × Bool :=
  (m.answered operation answer).notifyHasResponse

/-- A call leaves its loop. -/
def leave (m : SmsMiscManager) (call : Nat) (operation : Operation) :
    SmsMiscManager × List Output :=
  ({ m with waiting := m.waiting.erase (call, operation) },
    [.returned call operation (m.flag operation) m.smscAddr])

def step (m : SmsMiscManager) : Event → SmsMiscManager × List Output
  | .begin operation => (m.sendRequest operation, [])
  | .finish call operation answer =>
      let (m, all) := { m with unanswered := m.unanswered.erase (call, operation) }.processEvent
        operation answer
      (m, [.notified all])
  | .wake call operation =>
      if m.flag operation then m.leave call operation else (m, [])
  | .timeout call operation => m.leave call operation

/-- The modem answers a request once, and only calls that wait are woken. -/
def Admits (m : SmsMiscManager) : Event → Prop
  | .begin _ => True
  | .finish call operation _ => (call, operation) ∈ m.unanswered
  | .wake call operation => (call, operation) ∈ m.waiting
  | .timeout call operation => (call, operation) ∈ m.waiting

instance (m : SmsMiscManager) : (event : Event) → Decidable (m.Admits event)
  | .begin _ => inferInstanceAs (Decidable True)
  | .finish call operation _ => inferInstanceAs (Decidable ((call, operation) ∈ m.unanswered))
  | .wake call operation => inferInstanceAs (Decidable ((call, operation) ∈ m.waiting))
  | .timeout call operation => inferInstanceAs (Decidable ((call, operation) ∈ m.waiting))

section Fields

variable (m : SmsMiscManager) (operation : Operation) (answer : Answer)

@[simp] theorem notifyHasResponse_waiting : m.notifyHasResponse.1.waiting = m.waiting := by
  rw [notifyHasResponse]
  split <;> rfl

@[simp] theorem notifyHasResponse_unanswered :
    m.notifyHasResponse.1.unanswered = m.unanswered := by
  rw [notifyHasResponse]
  split <;> rfl

@[simp] theorem notifyHasResponse_calls : m.notifyHasResponse.1.calls = m.calls := by
  rw [notifyHasResponse]
  split <;> rfl

@[simp] theorem notifyHasResponse_isSuccess : m.notifyHasResponse.1.isSuccess = m.isSuccess := by
  rw [notifyHasResponse]
  split <;> rfl

@[simp] theorem notifyHasResponse_isCbConfigFinish :
    m.notifyHasResponse.1.isCbConfigFinish = m.isCbConfigFinish := by
  rw [notifyHasResponse]
  split <;> rfl

@[simp] theorem notifyHasResponse_smscAddr : m.notifyHasResponse.1.smscAddr = m.smscAddr := by
  rw [notifyHasResponse]
  split <;> rfl

@[simp] theorem answered_waiting : (m.answered operation answer).waiting = m.waiting := by
  cases operation <;> cases answer <;> rfl

@[simp] theorem answered_unanswered :
    (m.answered operation answer).unanswered = m.unanswered := by
  cases operation <;> cases answer <;> rfl

@[simp] theorem answered_calls : (m.answered operation answer).calls = m.calls := by
  cases operation <;> cases answer <;> rfl

@[simp] theorem answered_fairList : (m.answered operation answer).fairList = m.fairList := by
  cases operation <;> cases answer <;> rfl

end Fields

/-! ## Tickets -/

/-- There is a ticket for each unanswered request, and no answer has found none. -/
structure Ticketed (outs : List Output) (m : SmsMiscManager) : Prop where
  tickets : m.fairList.length = m.unanswered.length
  notified : .notified false ∉ outs

theorem ticketed_step {outs : List Output} {m : SmsMiscManager} {event : Event}
    (hok : m.Admits event) (h : Ticketed outs m) :
    Ticketed (outs ++ (m.step event).2) (m.step event).1 := by
  have htickets := h.tickets
  cases event with
  | begin operation =>
      constructor
      · cases operation <;> simp [step, sendRequest, htickets]
      · simp [step, h.notified]
  | finish call operation answer =>
      have hpos : 0 < m.unanswered.length := List.length_pos_of_mem hok
      have herase := List.length_erase_of_mem hok
      cases hfair : m.fairList with
      | nil => simp [hfair, ← htickets] at hpos
      | cons front fairList =>
          rw [hfair, List.length_cons] at htickets
          constructor
          · simp [step, processEvent, notifyHasResponse, hfair]
            omega
          · simp [step, processEvent, notifyHasResponse, hfair, h.notified]
  | wake call operation =>
      rw [step]
      split
      · exact ⟨htickets, by simp [leave, h.notified]⟩
      · exact ⟨htickets, by simp [h.notified]⟩
  | timeout call operation => exact ⟨htickets, by simp [step, leave, h.notified]⟩

/-- A setter and `GetSmscAddr` at a time, with the answers the other way round. -/
def crossedAnswers : List Event := [
  .begin .setSmscAddr, .begin .getSmscAddr,
  .finish 1 .getSmscAddr (.address ['1']), .finish 0 .setSmscAddr (.response true)]

/-- `GetModemCBRange` has a flag of its own. -/
def sameFlag (operation other : Operation) : Bool :=
  (operation = .getCBConfig) = (other = .getCBConfig)

/-- What an event writes into the flag of an operation. -/
def writesFlag (operation : Operation) : Event → Option Bool
  | .begin other => if sameFlag operation other then some false else none
  | .finish _ other answer =>
      if sameFlag operation other then some (succeeded other answer) else none
  | _ => none

def writesAddress : Event → Option (List Char)
  | .begin .getSmscAddr => some []
  | .finish _ .getSmscAddr (.address text) => some text
  | _ => none

theorem flag_step (operation : Operation) (m : SmsMiscManager) (event : Event) :
    (next step m event).flag operation = (writesFlag operation event).getD (m.flag operation) := by
  cases event with
  | begin other => cases operation <;> cases other <;> rfl
  | finish call other answer =>
      cases operation <;> cases other <;> cases answer <;>
        simp [next, step, processEvent, answered, flag, writesFlag, sameFlag, succeeded]
  | wake call other =>
      rw [next, step]
      split <;> cases operation <;> rfl
  | timeout call other => cases operation <;> rfl

theorem smscAddr_step (m : SmsMiscManager) (event : Event) :
    (next step m event).smscAddr = (writesAddress event).getD m.smscAddr := by
  cases event with
  | begin other => cases other <;> rfl
  | finish call other answer =>
      cases other <;> cases answer <;> simp [next, step, processEvent, answered, writesAddress]
  | wake call other =>
      rw [next, step]
      split <;> rfl
  | timeout call other => rfl

/-- A call that waits has been waiting since its own beginning. -/
theorem waiting_of_step {m : SmsMiscManager} {event : Event} {call : Nat} {operation : Operation}
    (hbegin : event ≠ .begin operation)
    (h : (call, operation) ∈ (next step m event).waiting) : (call, operation) ∈ m.waiting := by
  cases event with
  | begin other =>
      have hother : operation ≠ other := fun heq => hbegin (congrArg Event.begin heq.symm)
      cases other <;> simpa [next, step, sendRequest, hother] using h
  | finish other answer => simpa [next, step, processEvent] using h
  | wake other =>
      rw [next, step] at h
      split at h
      · exact List.mem_of_mem_erase h
      · exact h
  | timeout other => exact List.mem_of_mem_erase h

theorem waiting_of_run {m : SmsMiscManager} {events : List Event} {call : Nat}
    {operation : Operation} (hbegin : ∀ event ∈ events, event ≠ .begin operation)
    (h : (call, operation) ∈ (events.foldl (next step) m).waiting) :
    (call, operation) ∈ m.waiting := by
  induction events generalizing m with
  | nil => exact h
  | cons event events ih =>
      have hrest := ih (fun e he => hbegin e (List.mem_cons_of_mem _ he)) h
      exact waiting_of_step (hbegin event List.mem_cons_self) hrest

/-- What is returned is what the members hold, and the call has waited until then. -/
theorem returned_step {m : SmsMiscManager} {event : Event} {call : Nat} {operation : Operation}
    {success : Bool} {smscAddr : List Char} (hok : m.Admits event)
    (hout : .returned call operation success smscAddr ∈ (m.step event).2) :
    (call, operation) ∈ m.waiting ∧ success = m.flag operation ∧ smscAddr = m.smscAddr := by
  cases event with
  | begin other => simp [step] at hout
  | finish other answer => simp [step] at hout
  | wake call other =>
      rw [step] at hout
      split at hout
      · simp only [leave, List.mem_singleton, Output.returned.injEq] at hout
        rcases hout with ⟨rfl, rfl, rfl, rfl⟩
        exact ⟨hok, rfl, rfl⟩
      · simp at hout
  | timeout call other =>
      simp only [step, leave, List.mem_singleton, Output.returned.injEq] at hout
      rcases hout with ⟨rfl, rfl, rfl, rfl⟩
      exact ⟨hok, rfl, rfl⟩

/-- The last event that wrote a part that every beginning of the operation writes is not
before the beginning of a call that still waits. -/
theorem last_write_while_waiting {α : Type} (reg : SmsMiscManager → α)
    {effect : Event → Option α} {events : List Event} {call : Nat} {operation : Operation}
    (heffect : ∀ m event, reg (next step m event) = (effect event).getD (reg m))
    (hbegin : effect (.begin operation) ≠ none)
    (h : Guarded (next step) Admits init events)
    (hwaiting : (call, operation) ∈ (events.foldl (next step) init).waiting) :
    ∃ before event after, events = before ++ event :: after ∧
      (call, operation) ∈ ((before ++ [event]).foldl (next step) init).waiting ∧
      effect event = some (reg (events.foldl (next step) init)) ∧
      ∀ later ∈ after, effect later = none := by
  have hnot : ∀ {after : List Event}, (∀ later ∈ after, effect later = none) →
      ∀ later ∈ after, later ≠ .begin operation := by
    intro after hnone later hlater heq
    rw [heq] at hlater
    exact hbegin (hnone _ hlater)
  rcases h.last_write (fun m event _ => heffect m event) with
    ⟨before, event, after, rfl, hevent, hafter⟩ | ⟨_, hnone⟩
  · refine ⟨before, event, after, rfl, ?_, hevent, hafter⟩
    rw [List.append_cons, List.foldl_append] at hwaiting
    exact waiting_of_run (hnot hafter) hwaiting
  · have hstart := waiting_of_run (hnot hnone) hwaiting
    cases hstart

/-- The address that an answer brings. -/
def addressOf : Answer → List Char
  | .address text => text
  | _ => []

/-- Where a call is that nobody else interferes with, after the events since its beginning. -/
inductive Alone (call : Nat) (operation : Operation) (events : List Event) (m : SmsMiscManager) :
    Prop
  | unanswered (hunanswered : m.unanswered = [(call, operation)])
      (hfinish : ∀ c o a, .finish c o a ∉ events) (hflag : m.flag operation = false)
      (haddress : operation = .getSmscAddr → m.smscAddr = [])
  | answered (answer : Answer) (hunanswered : m.unanswered = [])
      (hfinish : ∀ c o a, .finish c o a ∈ events ↔ c = call ∧ o = operation ∧ a = answer)
      (hflag : m.flag operation = succeeded operation answer)
      (haddress : operation = .getSmscAddr → m.smscAddr = addressOf answer)

theorem alone_begin {m : SmsMiscManager} (operation : Operation) (h : m.unanswered = []) :
    Alone m.calls operation [] (m.sendRequest operation) := by
  apply Alone.unanswered
  · cases operation <;> simp [sendRequest, h]
  · simp
  · cases operation <;> rfl
  · rintro rfl
    rfl

/-- The members that a call looks at are the same. -/
theorem Alone.of_eq {call : Nat} {operation : Operation} {events : List Event} {event : Event}
    {m m' : SmsMiscManager} (h : Alone call operation events m)
    (hevent : ∀ c o a, event ≠ .finish c o a) (hunanswered : m'.unanswered = m.unanswered)
    (hflag : m'.flag operation = m.flag operation) (haddress : m'.smscAddr = m.smscAddr) :
    Alone call operation (events ++ [event]) m' := by
  have hmem : ∀ c o a, Event.finish c o a ∈ events ++ [event] ↔ Event.finish c o a ∈ events := by
    intro c o a
    simp [(hevent c o a).symm]
  cases h with
  | unanswered h1 h2 h3 h4 =>
      refine .unanswered (hunanswered.trans h1) ?_ (hflag.trans h3) fun ho => haddress.trans (h4 ho)
      intro c o a
      rw [hmem]
      exact h2 c o a
  | answered answer h1 h2 h3 h4 =>
      refine .answered answer (hunanswered.trans h1) ?_ (hflag.trans h3)
        fun ho => haddress.trans (h4 ho)
      intro c o a
      rw [hmem]
      exact h2 c o a

theorem alone_step {call : Nat} {operation : Operation} {events : List Event} {event : Event}
    {m : SmsMiscManager} (hok : m.Admits event) (hbegin : ∀ other, event ≠ .begin other)
    (h : Alone call operation events m) :
    Alone call operation (events ++ [event]) (next step m event) := by
  cases event with
  | begin other => exact absurd rfl (hbegin other)
  | wake other =>
      rw [next, step]
      split <;> exact h.of_eq (by simp) rfl rfl rfl
  | timeout other => exact h.of_eq (by simp) rfl rfl rfl
  | finish c o answer =>
      cases h with
      | answered other hunanswered =>
          have hmem : (c, o) ∈ m.unanswered := hok
          rw [hunanswered] at hmem
          cases hmem
      | unanswered hunanswered hfinish hflag haddress =>
          have hmem : (c, o) ∈ m.unanswered := hok
          rw [hunanswered, List.mem_singleton, Prod.mk.injEq] at hmem
          rcases hmem with ⟨rfl, rfl⟩
          refine .answered answer ?_ ?_ ?_ ?_
          · simp [next, step, processEvent, hunanswered]
          · intro c' o' a'
            simp [hfinish c' o' a']
          · rw [flag_step]
            simp [writesFlag, sameFlag]
          · intro ho
            rw [smscAddr_step]
            cases ho
            cases answer <;> simp [writesAddress, addressOf, haddress rfl]

theorem alone_run {call : Nat} {operation : Operation} {earlier during : List Event}
    {m : SmsMiscManager} (hok : Guarded (next step) Admits m during)
    (hbegin : ∀ e ∈ during, ∀ other, e ≠ .begin other) (h : Alone call operation earlier m) :
    Alone call operation (earlier ++ during) (during.foldl (next step) m) := by
  induction during generalizing earlier m with
  | nil =>
      rw [List.append_nil]
      exact h
  | cons event during ih =>
      have hstep := alone_step hok.1 (hbegin event List.mem_cons_self) h
      rw [List.append_cons]
      exact ih hok.2 (fun e he => hbegin e (List.mem_cons_of_mem _ he)) hstep

end SmsMiscManager

end TelephonySms.Modem
