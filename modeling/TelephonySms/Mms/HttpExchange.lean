import TelephonySms.Machine
import TelephonySms.Mms.Header

/-! # The HTTP exchange

`MmsNetworkClient`: one thread runs `PostUrl` or `GetUrl`, and the tasks of its requests run
their callbacks on threads of their own, without the lock. The flags and the data are members
of a client that serves one call after the other, and no callback looks at whose request it
belongs to. Every step of the thread and every callback is atomic here, in any order.
-/

namespace TelephonySms.Mms

open OctetReader Reader

namespace HttpExchange

def MAX_RETRY_TIMES : Nat := 3

def SEND_CONF_MAX_SIZE : Nat := 500

def SEND_CONF_RESPONSE_STATUS_OK : UInt8 := 0x80

def VALID_RESPONSECODE_FIRST_NUM : Int := 2

variable (platform : Platform)

/-! ## The members of the client -/

structure MmsNetworkClient where
  httpFinish : Bool := false
  httpSuccess : Bool := false
  responseCode : Int := 0
  retryTimes : Nat := 0
  responseData : Octets := []
  mmsHeader : MmsHeader := {}

/-- `DecodeMmsHeader` on a header that lives on: the fields before a failure stay in it. -/
def keepMmsHeader (h : MmsHeader) : Reader (Bool × MmsHeader) :=
  loop (fun (h : MmsHeader) => do
    match ← attempt (h.decodeOneField platform) with
    | none => pure (.inr (false, h))
    | some (.inl h) => pure (.inl h)
    | some (.inr h) => pure (.inr (true, h))) h

/-- It reads what the decoder of a fresh header reads, where that one succeeds. -/
theorem keepMmsHeader_of_done {h h' : MmsHeader} {c c' : Cursor}
    (hdone : h.decodeMmsHeader platform c = (.done h', c')) :
    keepMmsHeader platform h c = (.done (true, h'), c') := by
  unfold keepMmsHeader loop
  unfold MmsHeader.decodeMmsHeader loop at hdone
  revert hdone
  generalize c.octets.length + 1 = fuel
  induction fuel generalizing h c with
  | zero => intro hdone; simp [iterate] at hdone
  | succ fuel ih =>
      intro hdone
      simp only [iterate, attempt, bind_run] at hdone ⊢
      rcases hrun : h.decodeOneField platform c with ⟨r, c₁⟩
      rw [hrun] at hdone
      cases r with
      | done next =>
          cases next with
          | inl h₁ => exact ih hdone
          | inr h₁ =>
              simp only [pure_run, Prod.mk.injEq, Outcome.done.injEq] at hdone ⊢
              exact ⟨⟨trivial, hdone.1⟩, hdone.2⟩
      | failed => simp at hdone
      | running => simp at hdone

/-- Only a response status that is read and is not OK is refused. -/
def checkSendConf (h : MmsHeader) (responseData : Octets) : Bool × MmsHeader :=
  let length := u32 responseData.length
  if length > SEND_CONF_MAX_SIZE ∨ length = 0 then
    (true, h)
  else
    match (keepMmsHeader platform h ⟨responseData.take length, 0, []⟩).1 with
    | .done (true, h) =>
        match h.octetValueMap MmsFieldCode.MMS_RESPONSE_STATUS with
        | none => (true, h)
        | some value => (value == SEND_CONF_RESPONSE_STATUS_OK, h)
    | .done (false, h) => (true, h)
    | _ => (true, h)

/-- `stored` is the answer of the database. -/
def updateMmsPduToStorage (stored : Bool) (responseData : Octets) : Bool :=
  let len := u32 responseData.length
  if len = 0 then true
  else if len > MMS_PDU_MAX_SIZE then false
  else stored

/-- How a task ends. -/
inductive Completion where
  | success (responseCode : Int)
  | failure
  | cancel
  deriving DecidableEq, Repr

def Completion.isSuccess : Completion → Bool
  | .success _ => true
  | _ => false

namespace MmsNetworkClient

def onCompletion (client : MmsNetworkClient) : Completion → MmsNetworkClient
  | .success code =>
      { client with httpFinish := true, httpSuccess := true, responseCode := code }
  | .failure => { client with httpFinish := true }
  | .cancel => { client with httpFinish := true }

def onDataReceive (client : MmsNetworkClient) (data : Octets) : MmsNetworkClient :=
  if data.length = 0 ∨ data.length > MMS_PDU_MAX_SIZE then client
  else { client with responseData := client.responseData ++ data }

def resetFlags (client : MmsNetworkClient) : MmsNetworkClient :=
  { client with httpFinish := false, httpSuccess := false }

/-- The branch for a task without success: the loop goes on with the next attempt. -/
def retry (client : MmsNetworkClient) : MmsNetworkClient :=
  { client with responseData := [], responseCode := 0, retryTimes := client.retryTimes + 1 }

/-- The branch for a refused send-conf, which leaves the response code. -/
def retryRefused (client : MmsNetworkClient) (h : MmsHeader) : MmsNetworkClient :=
  { client with responseData := [], retryTimes := client.retryTimes + 1, mmsHeader := h }

end MmsNetworkClient

/-! ## The client thread and the tasks -/

inductive Method where
  | post
  | get
  deriving DecidableEq, Repr

/-- A request, the call that started it and what its task has reported so far. -/
structure Request where
  call : Nat
  response : Octets := []
  completion : Option Completion := none
  deriving DecidableEq, Repr

/-- How the client thread left an attempt, with the members it judged the request by. -/
inductive Ending where
  | timedOut
  | observed (httpSuccess : Bool) (responseCode : Int) (mmsHeader : MmsHeader)

/-- Where the client thread is. From `started` to `deciding` it has a request of its own. -/
inductive Phase where
  | idle
  | beginning
  | started (request : Request)
  | checking (request : Request)
  | waiting (request : Request)
  | deciding (request : Request)
  | accepted
  | returned (success : Bool)

namespace Phase

def current : Phase → Option Request
  | .started r | .checking r | .waiting r | .deciding r => some r
  | _ => none

def modify (f : Request → Request) : Phase → Phase
  | .started r => .started (f r)
  | .checking r => .checking (f r)
  | .waiting r => .waiting (f r)
  | .deciding r => .deciding (f r)
  | phase => phase

end Phase

/-- The client, its thread, and the requests left behind. Tasks are numbered in the order
of their requests. -/
structure Exchange where
  client : MmsNetworkClient := {}
  phase : Phase := .idle
  method : Method := .get
  calls : Nat := 0
  past : List (Request × Ending) := []

inductive Input where
  /-- `ready`: the message centre and the message to post are there -/
  | execute (method : Method) (ready : Bool)
  | startRequest (started : Bool)
  | resetFlags
  | check
  | wake
  | timeOut
  | decide
  | finish (stored : Bool)
  | leave
  | receive (task : Nat) (data : Octets)
  | complete (task : Nat) (completion : Completion)

namespace Exchange

def request (s : Exchange) (task : Nat) : Option Request :=
  if task < s.past.length then s.past[task]?.map Prod.fst
  else if task = s.past.length then s.phase.current
  else none

/-- A task reports until it has completed. -/
def isRunning (s : Exchange) (task : Nat) : Bool :=
  match s.request task with
  | some r => r.completion.isNone
  | none => false

def modifyRequest (s : Exchange) (task : Nat) (f : Request → Request) : Exchange :=
  if task < s.past.length then { s with past := s.past.modify task (Prod.map f id) }
  else { s with phase := s.phase.modify f }

/-- The end of the wait: the flags and the send-conf are looked at. -/
def decideAttempt (s : Exchange) (r : Request) : Exchange :=
  let client := s.client
  let past := s.past ++ [(r, .observed client.httpSuccess client.responseCode client.mmsHeader)]
  if ¬ client.httpSuccess ∨ client.responseCode.tdiv 100 ≠ VALID_RESPONSECODE_FIRST_NUM then
    { s with past := past, client := client.retry, phase := .beginning }
  else
    match s.method with
    | .get => { s with past := past, phase := .accepted }
    | .post =>
        match checkSendConf platform client.mmsHeader client.responseData with
        | (true, h) => { s with past := past, client.mmsHeader := h, phase := .accepted }
        | (false, h) =>
            { s with past := past, client := client.retryRefused h, phase := .beginning }

def step (s : Exchange) : Input → Exchange
  | .execute method ready =>
      match s.phase with
      | .idle =>
          if method = .post ∧ ready = false then
            { s with method := method, calls := s.calls + 1, phase := .returned false }
          else
            { s with method := method, calls := s.calls + 1, client.retryTimes := 0,
                     phase := .beginning }
      | _ => s
  | .startRequest started =>
      match s.phase with
      | .beginning =>
          if s.client.retryTimes ≤ MAX_RETRY_TIMES ∧ started then
            { s with phase := .started { call := s.calls } }
          else
            { s with phase := .returned false }
      | _ => s
  | .resetFlags =>
      match s.phase with
      | .started r => { s with client := s.client.resetFlags, phase := .checking r }
      | _ => s
  | .check =>
      match s.phase with
      | .checking r =>
          if s.client.httpFinish then { s with phase := .deciding r }
          else { s with phase := .waiting r }
      | _ => s
  | .wake =>
      match s.phase with
      | .waiting r => { s with phase := .checking r }
      | _ => s
  | .timeOut =>
      match s.phase with
      | .waiting r => { s with past := s.past ++ [(r, .timedOut)], phase := .returned false }
      | _ => s
  | .decide =>
      match s.phase with
      | .deciding r => s.decideAttempt platform r
      | _ => s
  | .finish stored =>
      match s.phase with
      | .accepted =>
          match s.method with
          | .post => { s with phase := .returned true }
          | .get =>
              { s with phase := .returned (updateMmsPduToStorage stored s.client.responseData) }
      | _ => s
  | .leave =>
      match s.phase with
      | .returned _ => { s with client.responseData := [], phase := .idle }
      | _ => s
  | .receive task data =>
      if s.isRunning task then
        { s.modifyRequest task (fun r => { r with response := r.response ++ data }) with
          client := s.client.onDataReceive data }
      else s
  | .complete task completion =>
      if s.isRunning task then
        { s.modifyRequest task (fun r => { r with completion := some completion }) with
          client := s.client.onCompletion completion }
      else s

/-- The requests that a call has started. -/
def requests (s : Exchange) (call : Nat) : Nat :=
  (s.past.map Prod.fst ++ s.phase.current.toList).countP fun r => r.call = call

end Exchange

/-! ## What the exchange is for -/

/-- The attempt that started a request has ended with what the request came to. It gives up
on a request that has not completed, and on no other. -/
def Observes (r : Request) : Ending → Prop
  | .timedOut => r.completion = none
  | .observed success code _ =>
      ∃ completion, r.completion = some completion ∧ success = completion.isSuccess ∧
        ∀ n, completion = .success n → code = n

/-- The last request is one of this call, completed with a code 2xx and, for a message that
was posted, with a send-conf that is accepted. The data are its data. -/
def Succeeded (s : Exchange) : Prop :=
  ∃ r code h, s.past.getLast? = some (r, .observed true code h) ∧ r.call = s.calls ∧
    r.completion = some (.success code) ∧ 200 ≤ code ∧ code < 300 ∧
    s.client.responseData = r.response ∧
    (s.method = .post → (checkSendConf platform h r.response).1 = true)

structure Honest (s : Exchange) : Prop where
  observed : ∀ p ∈ s.past, Observes p.1 p.2
  succeeded : s.phase = .returned true → Succeeded platform s
  bounded : ∀ call, s.requests call ≤ MAX_RETRY_TIMES + 1

/-- No callback runs for a request that was given up on, none ends a request before the flags
are cleared for it, no piece of data is longer than a callback takes, and the wait does not
time out on a request that has ended. -/
def Undisturbed (s : Exchange) : Input → Prop
  | .receive task data =>
      s.isRunning task = true → s.past.length ≤ task ∧ data.length ≤ MMS_PDU_MAX_SIZE
  | .complete task _ =>
      s.isRunning task = true → s.past.length ≤ task ∧ ∀ r, s.phase ≠ .started r
  | .timeOut => ∀ r, s.phase = .waiting r → s.client.httpFinish = false
  | _ => True

/-! ## What undisturbed steps keep -/

namespace Exchange

/-- All requests, in the order of their tasks. -/
def requested (s : Exchange) : List Request := s.past.map Prod.fst ++ s.phase.current.toList

theorem requests_eq (s : Exchange) (call : Nat) :
    s.requests call = s.requested.countP fun r => r.call = call := rfl

end Exchange

/-- The flags are those of the request: up as far as it has completed. -/
structure Tracks (client : MmsNetworkClient) (r : Request) : Prop where
  finish : client.httpFinish = r.completion.isSome
  success : client.httpSuccess = r.completion.any Completion.isSuccess
  code : ∀ n, r.completion = some (.success n) → client.responseCode = n

/-- The request of the attempt that is being made. -/
structure Owns (s : Exchange) (r : Request) : Prop where
  call : r.call = s.calls
  data : s.client.responseData = r.response
  count : s.requests s.calls = s.client.retryTimes + 1

def Fits (s : Exchange) : Prop :=
  match s.phase with
  | .idle => s.client.responseData = []
  | .beginning => s.client.responseData = [] ∧ s.requests s.calls = s.client.retryTimes
  | .started r => Owns s r ∧ r.completion = none
  | .checking r => Owns s r ∧ Tracks s.client r
  | .waiting r => Owns s r ∧ Tracks s.client r
  | .deciding r => Owns s r ∧ Tracks s.client r ∧ s.client.httpFinish = true
  | .accepted => Succeeded platform s
  | .returned success => success = true → Succeeded platform s

structure Invariant (s : Exchange) : Prop where
  observed : ∀ p ∈ s.past, Observes p.1 p.2
  earlier : ∀ r ∈ s.requested, r.call ≤ s.calls
  bounded : ∀ call, s.requests call ≤ MAX_RETRY_TIMES + 1
  fits : Fits platform s

variable {platform}

theorem Invariant.honest {s : Exchange} (h : Invariant platform s) : Honest platform s where
  observed := h.observed
  bounded := h.bounded
  succeeded := by
    intro hphase
    have hfits := h.fits
    rw [Fits, hphase] at hfits
    exact hfits rfl

/-- A step that leaves the requests and the attempts alone. -/
theorem Invariant.of_same {s s' : Exchange} (h : Invariant platform s) (hpast : s'.past = s.past)
    (hrequested : s'.requested = s.requested) (hcalls : s.calls ≤ s'.calls)
    (hfits : Fits platform s') : Invariant platform s' where
  observed := by rw [hpast]; exact h.observed
  earlier := by
    intro r hr
    rw [hrequested] at hr
    exact Nat.le_trans (h.earlier r hr) hcalls
  bounded := by
    intro call
    rw [Exchange.requests_eq, hrequested]
    exact h.bounded call
  fits := hfits

/-- A step that ends the attempt of the request `r`. -/
theorem Invariant.of_ended {s s' : Exchange} {r : Request} {ending : Ending}
    (h : Invariant platform s) (hcurrent : s.phase.current = some r)
    (hpast : s'.past = s.past ++ [(r, ending)]) (hnext : s'.phase.current = none)
    (hcalls : s'.calls = s.calls) (hobserved : Observes r ending)
    (hfits : s'.requested = s.requested → Fits platform s') : Invariant platform s' := by
  have hrequested : s'.requested = s.requested := by
    simp [Exchange.requested, hpast, hcurrent, hnext]
  refine ⟨?_, ?_, ?_, hfits hrequested⟩
  · intro p hp
    rw [hpast, List.mem_append, List.mem_singleton] at hp
    rcases hp with hp | rfl
    · exact h.observed p hp
    · exact hobserved
  · rw [hrequested, hcalls]
    exact h.earlier
  · intro call
    rw [Exchange.requests_eq, hrequested]
    exact h.bounded call

/-- The flags a request is judged by, once one of them is up, are its completion. -/
theorem Tracks.observes {client : MmsNetworkClient} {r : Request} (h : Tracks client r)
    (hfinish : client.httpFinish = true) (header : MmsHeader) :
    Observes r (.observed client.httpSuccess client.responseCode header) := by
  rw [h.finish] at hfinish
  obtain ⟨completion, hcompletion⟩ := Option.isSome_iff_exists.mp hfinish
  refine ⟨completion, hcompletion, ?_, ?_⟩
  · rw [h.success, hcompletion]
    rfl
  · rintro n rfl
    exact h.code n hcompletion

theorem code_of_tdiv {code : Int} (h : code.tdiv 100 = VALID_RESPONSECODE_FIRST_NUM) :
    200 ≤ code ∧ code < 300 := by
  unfold VALID_RESPONSECODE_FIRST_NUM at h
  have hnonneg : 0 ≤ code := by
    by_contra hneg
    have hflip : (-code).tdiv 100 = -(code.tdiv 100) := Int.neg_tdiv code 100
    rw [h, Int.tdiv_eq_ediv_of_nonneg (by omega)] at hflip
    omega
  rw [Int.tdiv_eq_ediv_of_nonneg hnonneg] at h
  omega

/-- The client thread goes on after the wait: with success only for a request that has it. -/
theorem Invariant.decideAttempt {s : Exchange} {r : Request} (h : Invariant platform s)
    (hphase : s.phase = .deciding r) : Invariant platform (s.decideAttempt platform r) := by
  have hfits := h.fits
  rw [Fits, hphase] at hfits
  obtain ⟨howns, htracks, hfinish⟩ := hfits
  have hcurrent : s.phase.current = some r := by rw [hphase]; rfl
  have hobserved := htracks.observes hfinish s.client.mmsHeader
  have hagain {s' : Exchange} (hrequested : s'.requested = s.requested)
      (hcalls : s'.calls = s.calls)
      (htimes : s'.client.retryTimes = s.client.retryTimes + 1) :
      s'.requests s'.calls = s'.client.retryTimes := by
    rw [Exchange.requests_eq, hrequested, hcalls, htimes]
    exact howns.count
  unfold Exchange.decideAttempt
  dsimp only
  split_ifs with hretry
  · exact h.of_ended hcurrent rfl rfl rfl hobserved fun hrequested =>
      ⟨rfl, hagain hrequested rfl rfl⟩
  · push Not at hretry
    obtain ⟨hsuccess, hcode⟩ := hretry
    obtain ⟨hlow, hhigh⟩ := code_of_tdiv hcode
    obtain ⟨completion, hcompletion, hflag, hnumber⟩ := hobserved
    obtain ⟨n, rfl⟩ : ∃ n, completion = .success n := by
      rw [hsuccess] at hflag
      cases completion with
      | success n => exact ⟨n, rfl⟩
      | failure => simp [Completion.isSuccess] at hflag
      | cancel => simp [Completion.isSuccess] at hflag
    have hn := hnumber n rfl
    have hobserved := htracks.observes hfinish s.client.mmsHeader
    cases hmethod : s.method with
    | get =>
        refine h.of_ended hcurrent rfl rfl rfl hobserved fun _ => ?_
        refine ⟨r, s.client.responseCode, s.client.mmsHeader, by simp [hsuccess], howns.call, ?_,
          hlow, hhigh, howns.data, by simp⟩
        rw [hcompletion, hn]
    | post =>
        simp only
        split
        · rename_i header hcheck
          refine h.of_ended hcurrent rfl rfl rfl hobserved fun _ => ?_
          refine ⟨r, s.client.responseCode, s.client.mmsHeader, by simp [hsuccess], howns.call,
            ?_, hlow, hhigh, howns.data, fun _ => ?_⟩
          · rw [hcompletion, hn]
          · rw [← howns.data, hcheck]
        · exact h.of_ended hcurrent rfl rfl rfl hobserved fun hrequested =>
            ⟨rfl, hagain hrequested rfl rfl⟩

/-- A running task that is not one of an earlier attempt reports to the attempt being made. -/
theorem current_of_isRunning {s : Exchange} {task : Nat} (hrunning : s.isRunning task = true)
    (htask : s.past.length ≤ task) :
    ∃ r, s.phase.current = some r ∧ r.completion = none ∧
      ∀ f, s.modifyRequest task f = { s with phase := s.phase.modify f } := by
  unfold Exchange.isRunning at hrunning
  cases hrequest : s.request task with
  | none => simp [hrequest] at hrunning
  | some r =>
      rw [hrequest] at hrunning
      unfold Exchange.request at hrequest
      rw [if_neg (Nat.not_lt.mpr htask)] at hrequest
      split_ifs at hrequest with hlast
      refine ⟨r, hrequest, Option.isNone_iff_eq_none.mp hrunning, fun f => ?_⟩
      rw [Exchange.modifyRequest, if_neg (Nat.not_lt.mpr htask)]

theorem Phase.current_modify (phase : Phase) (f : Request → Request) :
    (phase.modify f).current = phase.current.map f := by
  cases phase <;> rfl

/-- A callback of the attempt being made, which keeps the call of its request. -/
theorem Invariant.of_callback {s : Exchange} {r : Request} {f : Request → Request}
    {client : MmsNetworkClient} (h : Invariant platform s) (hcurrent : s.phase.current = some r)
    (hcall : (f r).call = r.call)
    (hfits : Fits platform { s with phase := s.phase.modify f, client := client }) :
    Invariant platform { s with phase := s.phase.modify f, client := client } where
  observed := h.observed
  earlier := by
    have hearlier := h.earlier
    simp only [Exchange.requested, Phase.current_modify, hcurrent, Option.map_some,
      Option.toList_some, List.mem_append, List.mem_singleton] at hearlier ⊢
    intro r' hr'
    rcases hr' with hr' | rfl
    · exact hearlier r' (Or.inl hr')
    · rw [hcall]
      exact hearlier r (Or.inr rfl)
  bounded := by
    intro call
    have hbounded := h.bounded call
    simpa [Exchange.requests, Phase.current_modify, hcurrent, hcall] using hbounded
  fits := hfits

theorem Owns.of_callback {s : Exchange} {r : Request} {f : Request → Request}
    {client : MmsNetworkClient} (h : Owns s r) (hcurrent : s.phase.current = some r)
    (hcall : (f r).call = r.call) (hdata : client.responseData = (f r).response)
    (htimes : client.retryTimes = s.client.retryTimes) :
    Owns { s with phase := s.phase.modify f, client := client } (f r) where
  call := by rw [hcall]; exact h.call
  data := hdata
  count := by
    have hcount := h.count
    simpa [Exchange.requests, Phase.current_modify, hcurrent, hcall, htimes] using hcount

/-- Another phase of the same attempt. -/
theorem Owns.of_requested {s s' : Exchange} {r : Request} (h : Owns s r)
    (hrequested : s'.requested = s.requested) (hcalls : s'.calls = s.calls)
    (hdata : s'.client.responseData = s.client.responseData)
    (htimes : s'.client.retryTimes = s.client.retryTimes) : Owns s' r where
  call := h.call.trans hcalls.symm
  data := hdata.trans h.data
  count := by
    rw [Exchange.requests_eq, hrequested, hcalls, htimes]
    exact h.count

/-- The attempt being made, wherever its thread is. -/
theorem Fits.owns {s : Exchange} {r : Request} (h : Fits platform s)
    (hcurrent : s.phase.current = some r) : Owns s r := by
  unfold Fits at h
  cases hphase : s.phase with
  | started r' | checking r' | waiting r' | deciding r' =>
      rw [hphase] at h hcurrent
      obtain rfl : r' = r := by simpa [Phase.current] using hcurrent
      exact h.1
  | idle | beginning | accepted | returned => simp [hphase, Phase.current] at hcurrent

theorem Tracks.onDataReceive {client : MmsNetworkClient} {r : Request} (h : Tracks client r)
    (data : Octets) :
    Tracks (client.onDataReceive data) { r with response := r.response ++ data } := by
  unfold MmsNetworkClient.onDataReceive
  split_ifs <;> exact ⟨h.finish, h.success, h.code⟩

/-- A request that has not completed is tracked by flags that are down. -/
theorem Tracks.onCompletion {client : MmsNetworkClient} {r : Request} (h : Tracks client r)
    (hrunning : r.completion = none) (completion : Completion) :
    Tracks (client.onCompletion completion) { r with completion := some completion } := by
  have hsuccess := h.success
  rw [hrunning] at hsuccess
  cases completion with
  | success n =>
      refine ⟨rfl, rfl, ?_⟩
      intro m hm
      simp only [Option.some.injEq, Completion.success.injEq] at hm
      exact hm
  | failure => exact ⟨rfl, hsuccess, by simp⟩
  | cancel => exact ⟨rfl, hsuccess, by simp⟩

theorem responseData_onDataReceive {client : MmsNetworkClient} {data : Octets}
    (h : data.length ≤ MMS_PDU_MAX_SIZE) :
    (client.onDataReceive data).responseData = client.responseData ++ data := by
  unfold MmsNetworkClient.onDataReceive
  split_ifs with hnot
  · have hempty : data = [] := List.length_eq_zero_iff.mp (by omega)
    rw [hempty, List.append_nil]
  · rfl

theorem Invariant.receive {s : Exchange} {task : Nat} {data : Octets} (h : Invariant platform s)
    (hok : Undisturbed s (.receive task data)) :
    Invariant platform (s.step platform (.receive task data)) := by
  simp only [Exchange.step]
  split_ifs with hrunning
  · obtain ⟨htask, hdata⟩ := hok hrunning
    obtain ⟨r, hcurrent, -, hmodify⟩ := current_of_isRunning hrunning htask
    rw [hmodify]
    have howns := h.fits.owns hcurrent
    have hfits := h.fits
    have howns' : Owns { s with
        phase := s.phase.modify fun r => { r with response := r.response ++ data }
        client := s.client.onDataReceive data } { r with response := r.response ++ data } :=
      howns.of_callback hcurrent rfl
      (by rw [responseData_onDataReceive hdata, howns.data])
      (by unfold MmsNetworkClient.onDataReceive; split_ifs <;> rfl)
    refine h.of_callback hcurrent rfl ?_
    unfold Fits at hfits ⊢
    cases hphase : s.phase with
    | started r' =>
        rw [hphase] at hfits hcurrent howns'
        obtain rfl : r' = r := by simpa [Phase.current] using hcurrent
        exact ⟨howns', hfits.2⟩
    | checking r' | waiting r' =>
        rw [hphase] at hfits hcurrent howns'
        obtain rfl : r' = r := by simpa [Phase.current] using hcurrent
        exact ⟨howns', hfits.2.onDataReceive data⟩
    | deciding r' =>
        rw [hphase] at hfits hcurrent howns'
        obtain rfl : r' = r := by simpa [Phase.current] using hcurrent
        refine ⟨howns', hfits.2.1.onDataReceive data, ?_⟩
        rw [← hfits.2.2]
        unfold MmsNetworkClient.onDataReceive
        split_ifs <;> rfl
    | idle | beginning | accepted | returned => simp [hphase, Phase.current] at hcurrent
  · exact h

theorem Invariant.complete {s : Exchange} {task : Nat} {completion : Completion}
    (h : Invariant platform s) (hok : Undisturbed s (.complete task completion)) :
    Invariant platform (s.step platform (.complete task completion)) := by
  simp only [Exchange.step]
  split_ifs with hrunning
  · obtain ⟨htask, hcleared⟩ := hok hrunning
    obtain ⟨r, hcurrent, hnone, hmodify⟩ := current_of_isRunning hrunning htask
    rw [hmodify]
    have howns := h.fits.owns hcurrent
    have hfits := h.fits
    have howns' : Owns { s with
        phase := s.phase.modify fun r => { r with completion := some completion }
        client := s.client.onCompletion completion } { r with completion := some completion } :=
      howns.of_callback hcurrent rfl
      (by cases completion <;> exact howns.data) (by cases completion <;> rfl)
    refine h.of_callback hcurrent rfl ?_
    unfold Fits at hfits ⊢
    cases hphase : s.phase with
    | started r' => exact absurd hphase (hcleared r')
    | checking r' | waiting r' =>
        rw [hphase] at hfits hcurrent howns'
        obtain rfl : r' = r := by simpa [Phase.current] using hcurrent
        exact ⟨howns', hfits.2.onCompletion hnone completion⟩
    | deciding r' =>
        rw [hphase] at hfits hcurrent
        obtain rfl : r' = r := by simpa [Phase.current] using hcurrent
        have hfinish := hfits.2.1.finish
        simp [hnone, hfits.2.2] at hfinish
    | idle | beginning | accepted | returned => simp [hphase, Phase.current] at hcurrent
  · exact h

/-- A call begins with no requests of its own. -/
theorem Invariant.requests_next {s : Exchange} (h : Invariant platform s) :
    s.requests (s.calls + 1) = 0 := by
  rw [Exchange.requests_eq, List.countP_eq_zero]
  intro r hr
  have hle := h.earlier r hr
  simp only [decide_eq_true_eq]
  omega

theorem Invariant.execute {s : Exchange} {method : Method} {ready : Bool}
    (h : Invariant platform s) : Invariant platform (s.step platform (.execute method ready)) := by
  simp only [Exchange.step]
  cases hphase : s.phase with
  | idle =>
      have hfits := h.fits
      rw [Fits, hphase] at hfits
      have hcurrent : s.phase.current = none := by rw [hphase]; rfl
      have hrequested {phase : Phase} (hnone : phase.current = none) :
          s.past.map Prod.fst ++ phase.current.toList = s.requested := by
        simp [Exchange.requested, hcurrent, hnone]
      split_ifs with hready
      · exact h.of_same rfl (hrequested rfl) (Nat.le_succ _) (by simp [Fits])
      · refine h.of_same rfl (hrequested rfl) (Nat.le_succ _) ⟨hfits, ?_⟩
        have hzero := h.requests_next
        rw [Exchange.requests_eq] at hzero ⊢
        have hbeginning : s.past.map Prod.fst ++ Phase.beginning.current.toList = s.requested :=
          hrequested rfl
        rw [← hzero, ← hbeginning]
        rfl
  | _ => exact h

/-- A request more is within the bound, since the loop has looked at the count of retries. -/
theorem Invariant.startRequest {s : Exchange} {started : Bool} (h : Invariant platform s) :
    Invariant platform (s.step platform (.startRequest started)) := by
  simp only [Exchange.step]
  cases hphase : s.phase with
  | beginning =>
      have hfits := h.fits
      rw [Fits, hphase] at hfits
      obtain ⟨hempty, hcount⟩ := hfits
      have hrequested : s.requested = s.past.map Prod.fst := by
        simp [Exchange.requested, hphase, Phase.current]
      split_ifs with hstart
      · have hcounts (call : Nat) : ({ s with phase := .started { call := s.calls } } :
            Exchange).requests call = s.requests call + if s.calls = call then 1 else 0 := by
          rw [Exchange.requests_eq, Exchange.requests_eq, hrequested]
          simp [Exchange.requested, Phase.current, List.countP_append, List.countP_cons]
        refine ⟨h.observed, ?_, ?_, ?_⟩
        · intro r hr
          have hearlier := h.earlier
          rw [hrequested] at hearlier
          simp only [Exchange.requested, Phase.current, Option.toList_some, List.mem_append,
            List.mem_singleton] at hr
          rcases hr with hr | rfl
          · exact hearlier r hr
          · exact Nat.le_refl _
        · intro call
          rw [hcounts]
          split_ifs with hcall
          · rw [← hcall, hcount]
            exact Nat.succ_le_succ hstart.1
          · exact h.bounded call
        · refine ⟨⟨rfl, hempty, ?_⟩, rfl⟩
          simp [hcounts, hcount]
      · refine h.of_same rfl ?_ (Nat.le_refl _) (by simp [Fits])
        simp [Exchange.requested, hphase, Phase.current]
  | _ => exact h

/-- Every undisturbed step keeps the invariant. -/
theorem Invariant.step {s : Exchange} {i : Input} (hok : Undisturbed s i)
    (h : Invariant platform s) : Invariant platform (s.step platform i) := by
  have hfits := h.fits
  have hsame {phase : Phase} (hnext : phase.current = s.phase.current) :
      s.past.map Prod.fst ++ phase.current.toList = s.requested := by
    rw [hnext, Exchange.requested]
  cases i with
  | execute method ready => exact h.execute
  | startRequest started => exact h.startRequest
  | receive task data => exact h.receive hok
  | complete task completion => exact h.complete hok
  | resetFlags =>
      simp only [Exchange.step]
      cases hphase : s.phase with
      | started r =>
          rw [Fits, hphase] at hfits
          obtain ⟨howns, hnone⟩ := hfits
          have hrequested : s.past.map Prod.fst ++ (Phase.checking r).current.toList = s.requested :=
            hsame (by rw [hphase]; rfl)
          exact h.of_same rfl hrequested (Nat.le_refl _) ⟨howns.of_requested hrequested rfl rfl rfl,
            by rw [hnone]; rfl, by rw [hnone]; rfl, by simp [hnone]⟩
      | _ => exact h
  | check =>
      simp only [Exchange.step]
      cases hphase : s.phase with
      | checking r =>
          rw [Fits, hphase] at hfits
          obtain ⟨howns, htracks⟩ := hfits
          have howns' {phase : Phase} (hnext : phase.current = s.phase.current) :
              Owns { s with phase := phase } r :=
            howns.of_requested (hsame hnext) rfl rfl rfl
          split_ifs with hfinish
          · exact h.of_same rfl (hsame (by rw [hphase]; rfl)) (Nat.le_refl _)
              ⟨howns' (by rw [hphase]; rfl), htracks, hfinish⟩
          · exact h.of_same rfl (hsame (by rw [hphase]; rfl)) (Nat.le_refl _)
              ⟨howns' (by rw [hphase]; rfl), htracks⟩
      | _ => exact h
  | wake =>
      simp only [Exchange.step]
      cases hphase : s.phase with
      | waiting r =>
          rw [Fits, hphase] at hfits
          obtain ⟨howns, htracks⟩ := hfits
          have hrequested : s.past.map Prod.fst ++ (Phase.checking r).current.toList = s.requested :=
            hsame (by rw [hphase]; rfl)
          exact h.of_same rfl hrequested (Nat.le_refl _)
            ⟨howns.of_requested hrequested rfl rfl rfl, htracks⟩
      | _ => exact h
  | timeOut =>
      simp only [Exchange.step]
      cases hphase : s.phase with
      | waiting r =>
          rw [Fits, hphase] at hfits
          have hdown := hok r hphase
          rw [hfits.2.finish, Option.isSome_eq_false_iff, Option.isNone_iff_eq_none] at hdown
          exact h.of_ended (by rw [hphase]; rfl) rfl rfl rfl hdown fun _ => by simp [Fits]
      | _ => exact h
  | decide =>
      simp only [Exchange.step]
      cases hphase : s.phase with
      | deciding r => exact h.decideAttempt hphase
      | _ => exact h
  | finish stored =>
      simp only [Exchange.step]
      cases hphase : s.phase with
      | accepted =>
          rw [Fits, hphase] at hfits
          have hreturned (success : Bool) :
              Invariant platform { s with phase := .returned success } :=
            h.of_same rfl (hsame (by rw [hphase]; rfl)) (Nat.le_refl _) fun _ => hfits
          dsimp only
          split
          · exact hreturned true
          · exact hreturned (updateMmsPduToStorage stored s.client.responseData)
      | _ => exact h
  | leave =>
      simp only [Exchange.step]
      cases hphase : s.phase with
      | returned success =>
          exact h.of_same rfl (hsame (by rw [hphase]; rfl)) (Nat.le_refl _) rfl
      | _ => exact h

theorem invariant_init : Invariant platform {} where
  observed := by simp
  earlier := by simp [Exchange.requested, Phase.current]
  bounded := by simp [Exchange.requests, Phase.current]
  fits := rfl

/-- In every run whose steps are undisturbed, every completed request is observed by the
attempt that started it, success is returned only with the data of a request of this call
that succeeded, and no call starts more than four requests. -/
theorem exchange_honest (platform : Platform) (is : List Input)
    (h : Machine.Guarded (Exchange.step platform) Undisturbed {} is) :
    Honest platform (is.foldl (Exchange.step platform) {}) :=
  (h.invariant (fun _ _ hok hs => Invariant.step hok hs) invariant_init).honest

/-- A download whose first request fails and whose second one brings three octets. -/
theorem exchange_honest_retried :
    Honest plainPlatform (List.foldl (Exchange.step plainPlatform) {}
      [.execute .get true, .startRequest true, .resetFlags, .check, .complete 0 .failure, .wake,
        .check, .decide, .startRequest true, .receive 1 [0x8c, 0x84], .resetFlags,
        .receive 1 [0x98], .complete 1 (.success 200), .check, .decide, .finish true]) := by
  refine exchange_honest plainPlatform _ ?_
  simp [Machine.Guarded, Undisturbed, Exchange.step, Exchange.isRunning, Exchange.request,
    Exchange.modifyRequest, Exchange.decideAttempt, Phase.current, Phase.modify,
    MmsNetworkClient.onCompletion, MmsNetworkClient.onDataReceive, MmsNetworkClient.resetFlags,
    MmsNetworkClient.retry, MAX_RETRY_TIMES, MMS_PDU_MAX_SIZE, VALID_RESPONSECODE_FIRST_NUM]

/-- The request completes before the flags are cleared, and the wait times out. -/
theorem not_exchange_honest_early :
    ¬ ∀ (platform : Platform) (is : List Input),
      Honest platform (is.foldl (Exchange.step platform) {}) := by
  intro h
  have hlost := (h plainPlatform [.execute .get true, .startRequest true,
    .complete 0 (.success 200), .resetFlags, .check, .timeOut]).observed
    ({ call := 1, completion := some (.success 200) }, .timedOut)
    (List.mem_singleton.mpr rfl)
  simp [Observes] at hlost

end HttpExchange

end TelephonySms.Mms
