import Mathlib.Data.List.Perm.Basic
import TelephonySms.Machine

/-! # Data requests

`ExecuteMms` of the senders and receivers of all slots share one lock, one condition variable
and one flag. A call registers a callback for its network, waits until the flag is up, and
holds the lock while its HTTP request runs. A callback needs the lock to set the flag, so it
may come late, even after its call has released the network.
-/

namespace TelephonySms.Mms

open TelephonySms.Machine

inductive DataResult where
  | success
  | localPtrNull
  | dataNetworkError
  | httpResult (code : Int)
  deriving DecidableEq, Repr

structure DataRequests where
  networkReady : Bool := false
  /-- How many calls there have been; a call goes by its number. -/
  calls : Nat := 0
  /-- The calls whose callback is registered. -/
  registered : List Nat := []
  /-- The calls that wait on `cv_`. -/
  waiting : List Nat := []
  /-- The call that runs its HTTP request, with the lock. -/
  http : Option Nat := none
  /-- The callbacks that wait for the lock: whose they are, and whether the network is there. -/
  blocked : List (Nat × Bool) := []

namespace DataRequests

inductive Event where
  /-- `ExecuteMms`, and whether `AcquireNetwork` succeeds. -/
  | execute (acquired : Bool)
  /-- `NetAvailable` or `NetUnavailable` up to the lock. -/
  | callback (call : Nat) (netGot : Bool)
  | syncNetworkResponse (call : Nat) (netGot : Bool)
  /-- A call is woken, by `NetConnectionPropertiesChange` or for no reason. -/
  | wake (call : Nat)
  | timeout (call : Nat)
  | httpDone (call : Nat) (code : Int)
  deriving DecidableEq, Repr

inductive Output where
  | acquired (call : Nat)
  | httpRequest (call : Nat)
  | released (call : Nat)
  | returned (call : Nat) (result : DataResult)
  deriving DecidableEq, Repr

/-- The loop is left with the flag up. -/
def startHttp (s : DataRequests) (call : Nat) : DataRequests × List Output :=
  ({ s with waiting := s.waiting.erase call, http := some call }, [.httpRequest call])

def step (s : DataRequests) : Event → DataRequests × List Output
  | .execute acquired =>
      if acquired then
        ({ s with
            networkReady := false
            calls := s.calls + 1
            registered := s.registered ++ [s.calls]
            waiting := s.waiting ++ [s.calls] }, [.acquired s.calls])
      else ({ s with calls := s.calls + 1 }, [.returned s.calls .dataNetworkError])
  | .callback call netGot => ({ s with blocked := s.blocked ++ [(call, netGot)] }, [])
  | .syncNetworkResponse call netGot =>
      ({ s with networkReady := netGot, blocked := s.blocked.erase (call, netGot) }, [])
  | .wake call => if s.networkReady then s.startHttp call else (s, [])
  | .timeout call =>
      if s.networkReady then s.startHttp call
      else
        ({ s with waiting := s.waiting.erase call, registered := s.registered.erase call },
          [.released call, .returned call .localPtrNull])
  | .httpDone call code =>
      ({ s with http := none, registered := s.registered.erase call },
        [.released call, .returned call (.httpResult code)])

/-- Whoever needs the lock has it, and only a registered callback is called. -/
def Admits (s : DataRequests) : Event → Prop
  | .execute _ => s.http = none
  | .callback call _ => call ∈ s.registered
  | .syncNetworkResponse call netGot => s.http = none ∧ (call, netGot) ∈ s.blocked
  | .wake call => s.http = none ∧ call ∈ s.waiting
  | .timeout call => s.http = none ∧ call ∈ s.waiting
  | .httpDone call _ => s.http = some call

instance (s : DataRequests) : (event : Event) → Decidable (s.Admits event)
  | .execute _ => inferInstanceAs (Decidable (s.http = none))
  | .callback call _ => inferInstanceAs (Decidable (call ∈ s.registered))
  | .syncNetworkResponse call netGot =>
      inferInstanceAs (Decidable (s.http = none ∧ (call, netGot) ∈ s.blocked))
  | .wake call => inferInstanceAs (Decidable (s.http = none ∧ call ∈ s.waiting))
  | .timeout call => inferInstanceAs (Decidable (s.http = none ∧ call ∈ s.waiting))
  | .httpDone call _ => inferInstanceAs (Decidable (s.http = some call))

/-! ## Networks are released -/

/-- The calls that have acquired a network, in order. -/
def acquiredCalls : List Output → List Nat
  | [] => []
  | .acquired call :: outs => call :: acquiredCalls outs
  | _ :: outs => acquiredCalls outs

def releasedCalls : List Output → List Nat
  | [] => []
  | .released call :: outs => call :: releasedCalls outs
  | _ :: outs => releasedCalls outs

@[simp] theorem acquiredCalls_append (outs outs' : List Output) :
    acquiredCalls (outs ++ outs') = acquiredCalls outs ++ acquiredCalls outs' := by
  induction outs with
  | nil => rfl
  | cons out outs ih => cases out <;> simp [acquiredCalls, ih]

@[simp] theorem releasedCalls_append (outs outs' : List Output) :
    releasedCalls (outs ++ outs') = releasedCalls outs ++ releasedCalls outs' := by
  induction outs with
  | nil => rfl
  | cons out outs ih => cases out <;> simp [releasedCalls, ih]

/-- The networks of the calls in progress are what has been acquired and not released. -/
structure Balanced (outs : List Output) (s : DataRequests) : Prop where
  inProgress : s.registered.Perm (s.waiting ++ s.http.toList)
  fresh : ∀ call ∈ acquiredCalls outs, call < s.calls
  once : (acquiredCalls outs).Nodup
  acquired : (acquiredCalls outs).Perm
    (releasedCalls outs ++ s.registered)

theorem perm_released {acquired released registered : List Nat} {call : Nat}
    (h : acquired.Perm (released ++ registered)) (hmem : call ∈ registered) :
    acquired.Perm (released ++ [call] ++ registered.erase call) := by
  rw [List.append_assoc, List.singleton_append]
  exact h.trans ((List.perm_cons_erase hmem).append_left released)

theorem Balanced.startHttp {outs : List Output} {s : DataRequests} {call : Nat}
    (h : Balanced outs s) (hhttp : s.http = none) (hmem : call ∈ s.waiting) :
    Balanced (outs ++ (s.startHttp call).2) (s.startHttp call).1 := by
  have hinProgress := h.inProgress
  rw [hhttp, Option.toList_none, List.append_nil] at hinProgress
  constructor
  · have hcons : s.waiting.Perm (s.waiting.erase call ++ [call]) :=
      (List.perm_cons_erase hmem).trans (List.perm_append_singleton call _).symm
    exact hinProgress.trans hcons
  · simpa [DataRequests.startHttp, acquiredCalls] using h.fresh
  · simpa [DataRequests.startHttp, acquiredCalls] using h.once
  · simpa [DataRequests.startHttp, acquiredCalls, releasedCalls] using h.acquired

theorem balanced_step {outs : List Output} {s : DataRequests} {event : Event}
    (hok : s.Admits event) (h : Balanced outs s) :
    Balanced (outs ++ (s.step event).2) (s.step event).1 := by
  have hinProgress := h.inProgress
  have hacquired := h.acquired
  cases event with
  | execute acquired =>
      have hhttp : s.http = none := hok
      rw [hhttp, Option.toList_none, List.append_nil] at hinProgress
      cases acquired with
      | false =>
          constructor
          · simpa [step] using h.inProgress
          · intro call hcall
            have hlt := h.fresh call (by simpa [step, acquiredCalls] using hcall)
            exact Nat.lt_succ_of_lt hlt
          · simpa [step, acquiredCalls] using h.once
          · simpa [step, acquiredCalls, releasedCalls] using hacquired
      | true =>
          have hnew : s.calls ∉ acquiredCalls outs := fun hmem =>
            absurd (h.fresh _ hmem) (Nat.lt_irrefl _)
          constructor
          · simpa [step, hhttp] using hinProgress.append_right [s.calls]
          · intro call hcall
            simp only [step, if_true, acquiredCalls_append, acquiredCalls, List.mem_append,
              List.mem_singleton] at hcall
            rcases hcall with hcall | rfl
            · exact Nat.lt_succ_of_lt (h.fresh call hcall)
            · exact Nat.lt_succ_self _
          · have happend : (acquiredCalls outs ++ [s.calls]).Nodup := by
              apply List.nodup_append.mpr
              refine ⟨h.once, by simp, ?_⟩
              rintro call hcall _ hlast rfl
              exact hnew (List.mem_singleton.mp hlast ▸ hcall)
            simpa [step, acquiredCalls] using happend
          · simpa [step, acquiredCalls, releasedCalls] using
              hacquired.append_right [s.calls]
  | callback call netGot => exact ⟨hinProgress, by simpa [step] using h.fresh,
      by simpa [step] using h.once, by simpa [step] using hacquired⟩
  | syncNetworkResponse call netGot => exact ⟨hinProgress, by simpa [step] using h.fresh,
      by simpa [step] using h.once, by simpa [step] using hacquired⟩
  | wake call =>
      rw [step]
      split
      · exact h.startHttp hok.1 hok.2
      · simpa using h
  | timeout call =>
      rw [step]
      split
      · exact h.startHttp hok.1 hok.2
      · have hmem : call ∈ s.registered := hinProgress.symm.subset (List.mem_append_left _ hok.2)
        rw [hok.1, Option.toList_none, List.append_nil] at hinProgress
        constructor
        · simpa [hok.1] using hinProgress.erase call
        · simpa [acquiredCalls] using h.fresh
        · simpa [acquiredCalls] using h.once
        · simpa [acquiredCalls, releasedCalls] using perm_released hacquired hmem
  | httpDone call code =>
      have hhttp : s.http = some call := hok
      rw [hhttp, Option.toList_some] at hinProgress
      have hmem : call ∈ s.registered := hinProgress.symm.subset (by simp)
      constructor
      · have herase := (hinProgress.trans (List.perm_append_singleton call _)).erase call
        rw [List.erase_cons_head] at herase
        simpa [step] using herase
      · simpa [step, acquiredCalls] using h.fresh
      · simpa [step, acquiredCalls] using h.once
      · simpa [step, acquiredCalls, releasedCalls] using
          perm_released hacquired hmem

theorem balanced_run {events : List Event} (h : Guarded (next step) Admits {} events) :
    Balanced (outputs step {} events) (events.foldl (next step) {}) := by
  have hinit : Balanced [] {} :=
    ⟨List.Perm.refl _, List.forall_mem_nil _, List.nodup_nil, List.Perm.refl _⟩
  have hrun : Balanced ([] ++ outputs step {} events) (events.foldl (next step) {}) :=
    h.outputs_invariant (fun _ _ _ hok => balanced_step hok) hinit
  exact hrun

/-- In every run a network that is acquired is released exactly once, or its call is still in
progress. -/
theorem networks_released {events : List Event}
    (h : Guarded (next step) Admits {} events) :
    (acquiredCalls (outputs step {} events)).Nodup ∧
      (acquiredCalls (outputs step {} events)).Perm
        (releasedCalls (outputs step {} events) ++
          ((events.foldl (next step) {}).waiting ++
            (events.foldl (next step) {}).http.toList)) := by
  have hbalanced := balanced_run h
  exact ⟨hbalanced.once, hbalanced.acquired.trans (hbalanced.inProgress.append_left _)⟩

/-- A call whose network comes, and one whose wait ends without. -/
def twoCalls : List Event := [
  .execute true, .callback 0 true, .syncNetworkResponse 0 true, .wake 0, .httpDone 0 200,
  .execute true, .timeout 1]

theorem networks_released_twoCalls :
    (acquiredCalls (outputs step {} twoCalls)).Nodup ∧
      (acquiredCalls (outputs step {} twoCalls)).Perm
        (releasedCalls (outputs step {} twoCalls) ++
          ((twoCalls.foldl (next step) {}).waiting ++
            (twoCalls.foldl (next step) {}).http.toList)) :=
  networks_released ⟨by decide, by decide, by decide, by decide, by decide, by decide, by decide,
    trivial⟩

/-! ## Requests wait for a network -/

def writesReady : Event → Option Bool
  | .execute true => some false
  | .syncNetworkResponse _ netGot => some netGot
  | _ => none

theorem networkReady_step (s : DataRequests) (event : Event) :
    (next step s event).networkReady = (writesReady event).getD s.networkReady := by
  cases event with
  | execute acquired => cases acquired <;> rfl
  | callback call netGot => rfl
  | syncNetworkResponse call netGot => rfl
  | wake call =>
      rw [next, step]
      split <;> rfl
  | timeout call =>
      rw [next, step]
      split <;> rfl
  | httpDone call code => rfl

/-- A call that waits has been waiting since it acquired its network. -/
theorem waiting_of_step {s : DataRequests} {event : Event} {call : Nat}
    (hexecute : event ≠ .execute true) (h : call ∈ (next step s event).waiting) :
    call ∈ s.waiting := by
  cases event with
  | execute acquired =>
      cases acquired with
      | false => exact h
      | true => exact absurd rfl hexecute
  | callback other netGot => exact h
  | syncNetworkResponse other netGot => exact h
  | wake other =>
      rw [next, step] at h
      split at h
      · exact List.mem_of_mem_erase h
      · exact h
  | timeout other =>
      rw [next, step] at h
      split at h <;> exact List.mem_of_mem_erase h
  | httpDone other code => exact h

theorem waiting_of_run {s : DataRequests} {events : List Event} {call : Nat}
    (hexecute : ∀ event ∈ events, event ≠ .execute true)
    (h : call ∈ (events.foldl (next step) s).waiting) : call ∈ s.waiting := by
  induction events generalizing s with
  | nil => exact h
  | cons event events ih =>
      have hrest := ih (fun e he => hexecute e (List.mem_cons_of_mem _ he)) h
      exact waiting_of_step (hexecute event List.mem_cons_self) hrest

theorem httpRequest_step {s : DataRequests} {event : Event} {call : Nat} (hok : s.Admits event)
    (hout : .httpRequest call ∈ (s.step event).2) :
    call ∈ s.waiting ∧ s.networkReady = true := by
  cases event with
  | execute acquired => cases acquired <;> simp [step] at hout
  | callback other netGot => simp [step] at hout
  | syncNetworkResponse other netGot => simp [step] at hout
  | wake other =>
      rw [step] at hout
      split at hout
      · rename_i hready
        simp only [startHttp, List.mem_singleton, Output.httpRequest.injEq] at hout
        rw [hout]
        exact ⟨hok.2, hready⟩
      · simp at hout
  | timeout other =>
      rw [step] at hout
      split at hout
      · rename_i hready
        simp only [startHttp, List.mem_singleton, Output.httpRequest.injEq] at hout
        rw [hout]
        exact ⟨hok.2, hready⟩
      · simp at hout
  | httpDone other code => simp [step] at hout

/-- In every run an HTTP request goes out only when, while its call waited, a network came
and nothing has taken the flag down since. -/
theorem request_after_network {events : List Event} {event : Event} {call : Nat}
    (h : Guarded (next step) Admits {} (events ++ [event]))
    (hout : .httpRequest call ∈ ((events.foldl (next step) {}).step event).2) :
    ∃ before whose after, events = before ++ .syncNetworkResponse whose true :: after ∧
      call ∈ (before.foldl (next step) {}).waiting ∧
      ∀ later ∈ after, writesReady later = none := by
  rcases httpRequest_step h.of_append_right.1 hout with ⟨hwaiting, hready⟩
  rcases h.of_append_left.last_write (fun s e _ => networkReady_step s e) with
    ⟨before, writer, after, rfl, hwriter, hafter⟩ | ⟨hsame, _⟩
  · rw [hready] at hwriter
    have hexecute : ∀ later ∈ after, later ≠ .execute true := by
      rintro later hlater rfl
      simpa [writesReady] using hafter _ hlater
    cases writer with
    | syncNetworkResponse whose netGot =>
        cases hwriter
        refine ⟨before, whose, after, rfl, ?_, hafter⟩
        rw [List.append_cons, List.foldl_append] at hwaiting
        have hthen := waiting_of_run hexecute hwaiting
        rw [List.foldl_append] at hthen
        exact waiting_of_step (by simp) hthen
    | execute acquired => cases acquired <;> cases hwriter
    | callback => cases hwriter
    | wake => cases hwriter
    | timeout => cases hwriter
    | httpDone => cases hwriter
  · rw [hready] at hsame
    cases hsame

theorem request_after_network_wake :
    ∃ before whose after, twoCalls.take 3 = before ++ .syncNetworkResponse whose true :: after ∧
      0 ∈ (before.foldl (next step) {}).waiting ∧ ∀ later ∈ after, writesReady later = none :=
  @request_after_network (twoCalls.take 3) (.wake 0) 0
    ⟨by decide, by decide, by decide, by decide, trivial⟩ (by decide)

/-! ## A call on its own -/

/-- A call after these events since it acquired its network, when nobody else has. -/
structure Lone (call : Nat) (events : List Event) (s : DataRequests) : Prop where
  registered : ∀ other ∈ s.registered, other = call
  waiting : ∀ other ∈ s.waiting, other = call
  blocked : ∀ entry ∈ s.blocked, entry.1 = call ∧ .callback call entry.2 ∈ events
  ready : s.networkReady = true → .callback call true ∈ events

theorem Lone.startHttp {call other : Nat} {events : List Event} {s : DataRequests}
    (h : Lone call events s) : Lone call events (s.startHttp other).1 :=
  ⟨h.registered, fun _ hmem => h.waiting _ (List.mem_of_mem_erase hmem), h.blocked, h.ready⟩

theorem Lone.more {call : Nat} {events : List Event} {s : DataRequests}
    (h : Lone call events s) (event : Event) : Lone call (events ++ [event]) s where
  registered := h.registered
  waiting := h.waiting
  blocked := fun entry hmem =>
    ⟨(h.blocked entry hmem).1, List.mem_append_left _ (h.blocked entry hmem).2⟩
  ready := fun hready => List.mem_append_left _ (h.ready hready)

theorem lone_step {call : Nat} {events : List Event} {s : DataRequests} {event : Event}
    (hok : s.Admits event) (hexecute : event ≠ .execute true) (h : Lone call events s) :
    Lone call (events ++ [event]) (next step s event) := by
  cases event with
  | execute acquired =>
      cases acquired with
      | false => exact ⟨h.registered, h.waiting, (h.more _).blocked, (h.more _).ready⟩
      | true => exact absurd rfl hexecute
  | callback other netGot =>
      have hother : other = call := h.registered other hok
      refine ⟨h.registered, h.waiting, ?_, (h.more _).ready⟩
      intro entry hmem
      rcases List.mem_append.mp hmem with hmem | hmem
      · exact (h.more _).blocked entry hmem
      · rw [List.mem_singleton.mp hmem, hother]
        exact ⟨rfl, by simp⟩
  | syncNetworkResponse other netGot =>
      have hentry := (h.more (.syncNetworkResponse other netGot)).blocked _ hok.2
      refine ⟨h.registered, h.waiting, ?_, ?_⟩
      · intro entry hmem
        exact (h.more _).blocked entry (List.mem_of_mem_erase hmem)
      · intro hready
        cases show netGot = true from hready
        exact hentry.2
  | wake other =>
      rw [next, step]
      split
      · exact (h.more _).startHttp
      · exact h.more _
  | timeout other =>
      rw [next, step]
      split
      · exact (h.more _).startHttp
      · exact ⟨fun c hmem => h.registered c (List.mem_of_mem_erase hmem),
          fun c hmem => h.waiting c (List.mem_of_mem_erase hmem), (h.more _).blocked,
          (h.more _).ready⟩
  | httpDone other code =>
      exact ⟨fun c hmem => h.registered c (List.mem_of_mem_erase hmem), h.waiting,
        (h.more _).blocked, (h.more _).ready⟩

theorem lone_run {call : Nat} {earlier during : List Event} {s : DataRequests}
    (hok : Guarded (next step) Admits s during) (hexecute : ∀ e ∈ during, e ≠ .execute true)
    (h : Lone call earlier s) : Lone call (earlier ++ during) (during.foldl (next step) s) := by
  induction during generalizing earlier s with
  | nil =>
      rw [List.append_nil]
      exact h
  | cons event during ih =>
      have hstep := lone_step hok.1 (hexecute event List.mem_cons_self) h
      rw [List.append_cons]
      exact ih hok.2 (fun e he => hexecute e (List.mem_cons_of_mem _ he)) hstep

/-- When a call acquires its network while no other waits and no callback is on its way, and
no other call acquires one, the HTTP request that follows is its own and comes after its own
network was there. -/
theorem request_after_own_network {before during : List Event} {event : Event} {call : Nat}
    (h : Guarded (next step) Admits {} (before ++ .execute true :: during ++ [event]))
    (hwaiting : (before.foldl (next step) {}).waiting = [])
    (hblocked : (before.foldl (next step) {}).blocked = [])
    (hexecute : ∀ e ∈ during, e ≠ .execute true)
    (hout : .httpRequest call ∈
      (((before ++ .execute true :: during).foldl (next step) {}).step event).2) :
    call = (before.foldl (next step) {}).calls ∧ .callback call true ∈ during := by
  have hbefore : Guarded (next step) Admits (before.foldl (next step) {})
      (.execute true :: during) := h.of_append_left.of_append_right
  have hhttp : (before.foldl (next step) {}).http = none := hbefore.1
  have hregistered := (balanced_run h.of_append_left.of_append_left).inProgress
  rw [hwaiting, hhttp] at hregistered
  have hlone : Lone (before.foldl (next step) {}).calls []
      (next step (before.foldl (next step) {}) (.execute true)) := by
    constructor
    · intro other hmem
      simpa [next, step, hregistered.eq_nil] using hmem
    · intro other hmem
      simpa [next, step, hwaiting] using hmem
    · intro entry hmem
      simp [next, step, hblocked] at hmem
    · intro hready
      cases hready
  have hrun := lone_run hbefore.2 hexecute hlone
  rcases httpRequest_step h.of_append_right.1 hout with ⟨hcall, hready⟩
  rw [List.foldl_append] at hcall hready
  have heq := hrun.waiting call hcall
  rw [heq]
  exact ⟨rfl, hrun.ready hready⟩

theorem request_after_own_network_wake :
    0 = 0 ∧ Event.callback 0 true ∈ [.callback 0 true, .syncNetworkResponse 0 true] :=
  @request_after_own_network [] [.callback 0 true, .syncNetworkResponse 0 true] (.wake 0) 0
    ⟨by decide, by decide, by decide, by decide, trivial⟩ rfl rfl (by decide) (by decide)

end DataRequests

end TelephonySms.Mms
