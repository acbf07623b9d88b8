import Mathlib.Algebra.Group.Nat.Defs
import TelephonySms.Machine
import TelephonySms.Sim.Records

/-! # The card behind the service

A request to add, change or delete a message either is refused or ends with one call to the card,
whose code is the answer. What the card does with the call is not in this code: the card is a
parameter, first any card at all, then one that keeps records.
-/

namespace TelephonySms.Sim

open TelephonySms.Ipc

/-! ## The card -/

inductive IccCall where
  | addSmsToIcc (status : UInt32) (pdu smsc : Octets)
  | delSmsIcc (msgIndex : UInt32)
  | updateSmsIcc (msgIndex newStatus : UInt32) (pdu smsc : Octets)
  deriving DecidableEq, Repr

/-- What `CoreManagerInner` tells about the card of a slot, and what it has the card do. -/
structure Icc (κ : Type) where
  hasSimCard : κ → Bool
  getPhoneType : κ → PhoneType
  obtainAllSmsOfIcc : κ → List Octets
  run : κ → IccCall → κ × Int32

inductive SimError where
  | TELEPHONY_ERR_ILLEGAL_USE_OF_SYSTEM_API
  | TELEPHONY_ERR_PERMISSION_ERR
  | TELEPHONY_ERR_SLOTID_INVALID
  | TELEPHONY_ERR_LOCAL_PTR_NULL
  | TELEPHONY_ERR_ARGUMENT_INVALID
  | TELEPHONY_ERR_FAIL
  | TELEPHONY_ERR_UNKNOWN_NETWORK_TYPE
  deriving DecidableEq, Repr

inductive SimResult where
  | success
  | error (error : SimError)
  /-- A code of the card, other than success. -/
  | icc (code : Int32)
  deriving DecidableEq, Repr

def SimResult.ofIcc (code : Int32) : SimResult :=
  if code = TELEPHONY_ERR_SUCCESS then success else icc code

/-- A request is answered, or the card is called. -/
inductive Outcome where
  | answer (result : SimResult) (message : List ShortMessage)
  | call (call : IccCall)
  deriving DecidableEq, Repr

def MIN_SMSC_LEN : Nat := 2

/-- A service centre that is too short becomes `00`. -/
def smscAddr (smsc : Octets) : Octets :=
  if smsc.length ≤ MIN_SMSC_LEN then [0x30, 0x30] else smsc

section Service

variable {κ : Type} (env : Env) (analysis : PduAnalysis) (icc : Icc κ)

namespace SmsMiscManager

def getAllSimMessages (card : κ) : SimResult × List ShortMessage :=
  if !icc.hasSimCard card then (.error .TELEPHONY_ERR_SLOTID_INVALID, [])
  else
    match (icc.getPhoneType card).specification with
    | none => (.error .TELEPHONY_ERR_UNKNOWN_NETWORK_TYPE, [])
    | some specification =>
        (.success, listRecords env analysis specification 1 (icc.obtainAllSmsOfIcc card))

/-- The capacity is the number of records at the listing before. -/
def addSimMessage (card : κ) (smsc pdu : Octets) (status : UInt32) : Outcome :=
  match getAllSimMessages env analysis icc card with
  | (.success, message) =>
      if message.length ≥ (icc.obtainAllSmsOfIcc card).length then
        .answer (.error .TELEPHONY_ERR_FAIL) []
      else .call (.addSmsToIcc status pdu (smscAddr smsc))
  | (result, _) => .answer result []

def delSimMessage (card : κ) (msgIndex : UInt32) : Outcome :=
  if !icc.hasSimCard card then .answer (.error .TELEPHONY_ERR_SLOTID_INVALID) []
  else .call (.delSmsIcc msgIndex)

def updateSimMessage (msgIndex newStatus : UInt32) (pdu smsc : Octets) : Outcome :=
  .call (.updateSmsIcc msgIndex newStatus pdu (smscAddr smsc))

end SmsMiscManager

/-- What the service finds out about a call and the slot it is for. -/
structure Caller where
  isSystemApp : Bool
  receiveMessages : Bool
  sendMessages : Bool
  interfaceManager : Bool
  miscManager : Bool
  deriving DecidableEq, Repr

inductive SimRequest where
  | addSimMessage (smsc pdu : String16) (status : UInt32)
  | delSimMessage (msgIndex : UInt32)
  | updateSimMessage (msgIndex newStatus : UInt32) (pdu smsc : String16)
  | getAllSimMessages
  deriving DecidableEq, Repr

namespace SmsService

/-- The checks in front of a request; listing needs no permission to send. -/
def checkCaller (caller : Caller) (sends : Bool) : Option SimError :=
  if !caller.isSystemApp then some .TELEPHONY_ERR_ILLEGAL_USE_OF_SYSTEM_API
  else if !caller.receiveMessages then some .TELEPHONY_ERR_PERMISSION_ERR
  else if sends && !caller.sendMessages then some .TELEPHONY_ERR_PERMISSION_ERR
  else if !caller.interfaceManager then some .TELEPHONY_ERR_SLOTID_INVALID
  else none

def getAllSimMessages (caller : Caller) (card : κ) : SimResult × List ShortMessage :=
  match checkCaller caller false with
  | some error => (.error error, [])
  | none =>
      if !caller.miscManager then (.error .TELEPHONY_ERR_LOCAL_PTR_NULL, [])
      else SmsMiscManager.getAllSimMessages env analysis icc card

def checkSimMessageIndexValid (caller : Caller) (card : κ) (msgIndex : UInt32) : Bool :=
  match getAllSimMessages env analysis icc caller card with
  | (.success, totalMessages) => totalMessages.any (·.indexOnSim = msgIndex.toInt32)
  | _ => false

def handle (caller : Caller) (card : κ) : SimRequest → Outcome
  | .addSimMessage smsc pdu status =>
      match checkCaller caller true with
      | some error => .answer (.error error) []
      | none =>
          if pdu = [] ∨ env.toUtf8 pdu = [] then
            .answer (.error .TELEPHONY_ERR_ARGUMENT_INVALID) []
          else if !caller.miscManager then .answer (.error .TELEPHONY_ERR_LOCAL_PTR_NULL) []
          else
            SmsMiscManager.addSimMessage env analysis icc card (env.toUtf8 smsc) (env.toUtf8 pdu)
              status
  | .delSimMessage msgIndex =>
      match checkCaller caller true with
      | some error => .answer (.error error) []
      | none =>
          if !checkSimMessageIndexValid env analysis icc caller card msgIndex then
            .answer (.error .TELEPHONY_ERR_ARGUMENT_INVALID) []
          else if !caller.miscManager then .answer (.error .TELEPHONY_ERR_LOCAL_PTR_NULL) []
          else SmsMiscManager.delSimMessage icc card msgIndex
  | .updateSimMessage msgIndex newStatus pdu smsc =>
      match checkCaller caller true with
      | some error => .answer (.error error) []
      | none =>
          if !checkSimMessageIndexValid env analysis icc caller card msgIndex then
            .answer (.error .TELEPHONY_ERR_ARGUMENT_INVALID) []
          else if pdu = [] ∨ env.toUtf8 pdu = [] then
            .answer (.error .TELEPHONY_ERR_ARGUMENT_INVALID) []
          else if !caller.miscManager then .answer (.error .TELEPHONY_ERR_LOCAL_PTR_NULL) []
          else
            SmsMiscManager.updateSimMessage msgIndex newStatus (env.toUtf8 pdu) (env.toUtf8 smsc)
  | .getAllSimMessages =>
      let (result, message) := getAllSimMessages env analysis icc caller card
      .answer result message

/-- A request with what the card makes of the call. -/
def serve (card : κ) (next : Caller × SimRequest) : κ × SimResult × List ShortMessage :=
  match handle env analysis icc next.1 card next.2 with
  | .answer result message => (card, result, message)
  | .call call =>
      let (card, code) := icc.run card call
      (card, .ofIcc code, [])

end SmsService

end Service

/-! ## What the card is asked -/

theorem ofNat_succ (n : Nat) : Int32.ofNat n + 1 = Int32.ofNat (n + 1) := by
  apply Int32.toBitVec.inj
  rw [Int32.toBitVec_add]
  exact (BitVec.ofNat_add n 1).symm

theorem toInt32_eq_ofNat (msgIndex : UInt32) : msgIndex.toInt32 = Int32.ofNat msgIndex.toNat := by
  apply Int32.toBitVec.inj
  show msgIndex.toBitVec = BitVec.ofNat 32 msgIndex.toBitVec.toNat
  rw [BitVec.ofNat_toNat, BitVec.setWidth_eq]

theorem ofNat_inj {m n : Nat} (hm : m < 2 ^ 31) (hn : n < 2 ^ 31)
    (h : Int32.ofNat m = Int32.ofNat n) : m = n := by
  have htoInt := congrArg Int32.toInt h
  rw [Int32.toInt_ofNat_of_lt hm, Int32.toInt_ofNat_of_lt hn] at htoInt
  exact Int.ofNat.inj htoInt

section Gate

variable {κ : Type} {env : Env} {analysis : PduAnalysis} {icc : Icc κ}

theorem listRecords_cons (specification : Octets) (index : Int32) (v : Octets)
    (records : List Octets) :
    listRecords env analysis specification index (v :: records) =
      listRecords env analysis specification index [v] ++
        listRecords env analysis specification (index + 1) records := by
  simp only [listRecords]
  split
  · rfl
  · split
    · rfl
    · rfl

/-- A message is listed from one record. -/
theorem mem_listRecords {specification : Octets} {n : Nat} {records : List Octets}
    {message : ShortMessage}
    (h : message ∈ listRecords env analysis specification (Int32.ofNat n) records) :
    ∃ (i : Nat) (v : Octets), records[i]? = some v ∧
      message ∈ listRecords env analysis specification (Int32.ofNat (n + i)) [v] := by
  induction records generalizing n with
  | nil => cases h
  | cons v records ih =>
      rw [listRecords_cons, List.mem_append, ofNat_succ] at h
      rcases h with hfirst | hlater
      · exact ⟨0, v, rfl, hfirst⟩
      · rcases ih hlater with ⟨i, w, hw, hmessage⟩
        refine ⟨i + 1, w, hw, ?_⟩
        rwa [Nat.add_right_comm] at hmessage

/-- If every record is listed, there are as many messages as records. -/
theorem length_le_listRecords (specification : Octets) (n : Nat) (records : List Octets)
    (h : ∀ i v, records[i]? = some v →
      listRecords env analysis specification (Int32.ofNat (n + i)) [v] ≠ []) :
    records.length ≤ (listRecords env analysis specification (Int32.ofNat n) records).length := by
  induction records generalizing n with
  | nil => exact Nat.zero_le _
  | cons v records ih =>
      have hfirst := List.length_pos_iff.2 (h 0 v rfl)
      have hlater := ih (n + 1) fun i w hw => by
        rw [Nat.add_right_comm]
        exact h (i + 1) w hw
      rw [listRecords_cons, List.length_append, ofNat_succ, List.length_cons]
      have hfirst : 0 < (listRecords env analysis specification (Int32.ofNat n) [v]).length :=
        hfirst
      omega

/-- The message of a single record is under its number; one that cannot be parsed is under
zero. -/
theorem listRecords_place {specification v : Octets} {index : Int32} {message : ShortMessage}
    (h : message ∈ listRecords env analysis specification index [v]) :
    message.indexOnSim = index ∨ message.indexOnSim = 0 := by
  simp only [listRecords] at h
  split at h
  · cases h
  · split at h
    · rename_i hstatus
      rw [List.mem_singleton.1 h]
      cases hpdu : hexToByteVector (untilPadding v) with
      | nil => exact .inr rfl
      | cons simStatus octets =>
          rw [createIccMessage_record specification index ⟨simStatus, octets⟩]
          cases hlisted : Record.listed env analysis specification index ⟨simStatus, octets⟩ with
          | none => exact .inr rfl
          | some message => exact (Record.listed_place hlisted).2
    · cases h

/-- The message listed under `msgIndex` is that of the record with this number, or `msgIndex` is
zero. -/
def ListedAt (env : Env) (analysis : PduAnalysis) (specification : Octets)
    (records : List Octets) (msgIndex : UInt32) : Prop :=
  ∃ (i : Nat) (v : Octets) (message : ShortMessage), records[i]? = some v ∧
    message ∈ listRecords env analysis specification (Int32.ofNat (1 + i)) [v] ∧
    message.indexOnSim = msgIndex.toInt32 ∧
    (msgIndex.toInt32 = Int32.ofNat (1 + i) ∨ msgIndex = 0)

/-- What the records say for a call: one is left for a message to add, and a message to change or
to delete is there. -/
def Justified (env : Env) (analysis : PduAnalysis) (specification : Octets)
    (records : List Octets) : IccCall → Prop
  | .addSmsToIcc _ _ _ => ∃ (i : Nat) (v : Octets), records[i]? = some v ∧
      listRecords env analysis specification (Int32.ofNat (1 + i)) [v] = []
  | .delSmsIcc msgIndex => ListedAt env analysis specification records msgIndex
  | .updateSmsIcc msgIndex _ _ _ => ListedAt env analysis specification records msgIndex

theorem checkCaller_eq_none {caller : Caller} (h : SmsService.checkCaller caller true = none) :
    caller.isSystemApp = true ∧ caller.receiveMessages = true ∧ caller.sendMessages = true := by
  rcases caller with ⟨app, receive, send, interface, misc⟩
  cases app <;> cases receive <;> cases send <;> first | exact ⟨rfl, rfl, rfl⟩ | cases h

theorem getAllSimMessages_success {card : κ} {message : List ShortMessage}
    (h : SmsMiscManager.getAllSimMessages env analysis icc card = (.success, message)) :
    icc.hasSimCard card = true ∧
      ∃ specification, (icc.getPhoneType card).specification = some specification ∧
        message = listRecords env analysis specification (Int32.ofNat 1)
          (icc.obtainAllSmsOfIcc card) := by
  rw [SmsMiscManager.getAllSimMessages] at h
  split at h
  · cases h
  · rename_i hcard
    split at h
    · cases h
    · rename_i specification hphone
      cases h
      exact ⟨by simpa using hcard, specification, hphone, rfl⟩

theorem service_getAllSimMessages_success {caller : Caller} {card : κ}
    {message : List ShortMessage}
    (h : SmsService.getAllSimMessages env analysis icc caller card = (.success, message)) :
    SmsMiscManager.getAllSimMessages env analysis icc card = (.success, message) := by
  rw [SmsService.getAllSimMessages] at h
  split at h
  · cases h
  · split at h
    · cases h
    · exact h

theorem checkSimMessageIndexValid_listed {caller : Caller} {card : κ} {msgIndex : UInt32}
    (h : SmsService.checkSimMessageIndexValid env analysis icc caller card msgIndex = true) :
    icc.hasSimCard card = true ∧
      ∃ specification, (icc.getPhoneType card).specification = some specification ∧
        ListedAt env analysis specification (icc.obtainAllSmsOfIcc card) msgIndex := by
  rw [SmsService.checkSimMessageIndexValid] at h
  split at h
  · rename_i totalMessages hall
    rcases getAllSimMessages_success (service_getAllSimMessages_success hall) with
      ⟨hcard, specification, hphone, rfl⟩
    refine ⟨hcard, specification, hphone, ?_⟩
    rcases List.any_eq_true.1 h with ⟨message, hmessage, hindex⟩
    have hindex := of_decide_eq_true hindex
    rcases mem_listRecords hmessage with ⟨i, v, hv, hlisted⟩
    refine ⟨i, v, message, hv, hlisted, hindex, ?_⟩
    rcases listRecords_place hlisted with hplace | hplace
    · exact .inl (hindex.symm.trans hplace)
    · refine .inr ?_
      have hzero : msgIndex.toInt32.toUInt32 = (0 : Int32).toUInt32 := by
        rw [← hindex, hplace]
      exact hzero
  · cases h

/-- The call a request is for. -/
def SimRequest.call (env : Env) : SimRequest → Option IccCall
  | addSimMessage smsc pdu status =>
      some (.addSmsToIcc status (env.toUtf8 pdu) (smscAddr (env.toUtf8 smsc)))
  | delSimMessage msgIndex => some (.delSmsIcc msgIndex)
  | updateSimMessage msgIndex newStatus pdu smsc =>
      some (.updateSmsIcc msgIndex newStatus (env.toUtf8 pdu) (smscAddr (env.toUtf8 smsc)))
  | getAllSimMessages => none

/-- What the service has made sure of before it calls the card. -/
def Admitted (env : Env) (analysis : PduAnalysis) (icc : Icc κ) (caller : Caller) (card : κ)
    (call : IccCall) : Prop :=
  (caller.isSystemApp = true ∧ caller.receiveMessages = true ∧ caller.sendMessages = true) ∧
    icc.hasSimCard card = true ∧
    ∃ specification, (icc.getPhoneType card).specification = some specification ∧
      Justified env analysis specification (icc.obtainAllSmsOfIcc card) call

/-- A request is refused, lists the records, or calls the card. -/
inductive Handled (env : Env) (analysis : PduAnalysis) (icc : Icc κ) (caller : Caller)
    (card : κ) : SimRequest → Outcome → Prop
  | refused (request : SimRequest) (result : SimResult) (h : result ≠ .success) :
      Handled env analysis icc caller card request (.answer result [])
  | listed (specification : Octets)
      (phone : (icc.getPhoneType card).specification = some specification) :
      Handled env analysis icc caller card .getAllSimMessages (.answer .success
        (listRecords env analysis specification (Int32.ofNat 1) (icc.obtainAllSmsOfIcc card)))
  | called (request : SimRequest) (call : IccCall) (asked : request.call env = some call)
      (admitted : Admitted env analysis icc caller card call) :
      Handled env analysis icc caller card request (.call call)

theorem Handled.error {caller : Caller} {card : κ} (request : SimRequest) (error : SimError) :
    Handled env analysis icc caller card request (.answer (.error error) []) :=
  .refused request _ (by simp)

theorem handled_add {caller : Caller} {card : κ} (smsc pdu : String16) (status : UInt32)
    (hcaller : SmsService.checkCaller caller true = none) :
    Handled env analysis icc caller card (.addSimMessage smsc pdu status)
      (SmsMiscManager.addSimMessage env analysis icc card (env.toUtf8 smsc) (env.toUtf8 pdu)
        status) := by
  rw [SmsMiscManager.addSimMessage]
  split
  · rename_i message hall
    rcases getAllSimMessages_success hall with ⟨hcard, specification, hphone, rfl⟩
    split
    · exact .error _ _
    · rename_i hroom
      refine .called _ _ rfl ⟨checkCaller_eq_none hcaller, hcard, specification, hphone, ?_⟩
      by_contra hfull
      apply hroom
      apply length_le_listRecords
      intro i v hv hempty
      exact hfull ⟨i, v, hv, hempty⟩
  · rename_i hfailed _
    exact .refused _ _ hfailed

theorem handle_handled (caller : Caller) (card : κ) (request : SimRequest) :
    Handled env analysis icc caller card request
      (SmsService.handle env analysis icc caller card request) := by
  cases request with
  | addSimMessage smsc pdu status =>
      rw [SmsService.handle]
      split
      · exact .error _ _
      · rename_i hcaller
        split
        · exact .error _ _
        · split
          · exact .error _ _
          · exact handled_add smsc pdu status hcaller
  | delSimMessage msgIndex =>
      rw [SmsService.handle]
      split
      · exact .error _ _
      · rename_i hcaller
        split
        · exact .error _ _
        · rename_i hindex
          have hlisted := checkSimMessageIndexValid_listed (by simpa using hindex)
          split
          · exact .error _ _
          · rw [SmsMiscManager.delSimMessage]
            split
            · exact .error _ _
            · exact .called _ _ rfl ⟨checkCaller_eq_none hcaller, hlisted⟩
  | updateSimMessage msgIndex newStatus pdu smsc =>
      rw [SmsService.handle]
      split
      · exact .error _ _
      · rename_i hcaller
        split
        · exact .error _ _
        · rename_i hindex
          have hlisted := checkSimMessageIndexValid_listed (by simpa using hindex)
          split
          · exact .error _ _
          · split
            · exact .error _ _
            · exact .called _ _ rfl ⟨checkCaller_eq_none hcaller, hlisted⟩
  | getAllSimMessages =>
      show Handled env analysis icc caller card _
        (.answer (SmsService.getAllSimMessages env analysis icc caller card).1
          (SmsService.getAllSimMessages env analysis icc caller card).2)
      rw [SmsService.getAllSimMessages]
      split
      · exact .error _ _
      · split
        · exact .error _ _
        · rw [SmsMiscManager.getAllSimMessages]
          split
          · exact .error _ _
          · split
            · exact .error _ _
            · rename_i specification hphone
              exact .listed specification hphone

/-- Whatever the card: it is called only for a system application with both permissions, to add
when a record is not listed, to change or to delete what is listed. -/
theorem call_admitted {caller : Caller} {card : κ} {request : SimRequest} {call : IccCall}
    (h : SmsService.handle env analysis icc caller card request = .call call) :
    Admitted env analysis icc caller card call := by
  have hhandled := @handle_handled κ env analysis icc caller card request
  rw [h] at hhandled
  cases hhandled with
  | called _ _ asked admitted => exact admitted

/-- A card in a GSM phone with one free record and one message, which is not parsed. -/
theorem call_admitted_twoRecords :
    Admitted
      ⟨0, 2, 1, 2, 3, 4, 0, [], fun s => s.map (·.toUInt8), fun s => s.map (·.toUInt16)⟩
      ⟨fun _ => none, fun _ => none⟩
      ⟨fun _ => true, fun _ => .PHONE_TYPE_IS_GSM,
        fun _ : Unit => [[0x30, 0x30], [0x30, 0x31, 0x30, 0x32]], fun _ _ => ((), 0)⟩
      ⟨true, true, true, true, true⟩ () (.addSmsToIcc 3 [0x30, 0x31] [0x30, 0x30]) := by
  have hcall : SmsService.handle
      ⟨0, 2, 1, 2, 3, 4, 0, [], fun s => s.map (·.toUInt8), fun s => s.map (·.toUInt16)⟩
      ⟨fun _ => none, fun _ => none⟩
      ⟨fun _ => true, fun _ => .PHONE_TYPE_IS_GSM,
        fun _ : Unit => [[0x30, 0x30], [0x30, 0x31, 0x30, 0x32]], fun _ _ => ((), 0)⟩
      ⟨true, true, true, true, true⟩ () (.addSimMessage [] [0x30, 0x31] 3) =
      .call (.addSmsToIcc 3 [0x30, 0x31] [0x30, 0x30]) := by
    decide
  exact call_admitted hcall

end Gate

/-! ## A card that keeps records -/

section Store

variable {κ : Type}

/-- What a card is relied on for: its records are `contents`, as text of the same length each; a
message that is added takes a free record; a record is changed or deleted by its number; and a
call that fails changes nothing. The octet of the status is the card's. -/
structure Icc.KeepsRecords (icc : Icc κ) (contents : κ → List (Option Record))
    (statusOctet : UInt32 → UInt8) (length : Nat) : Prop where
  length_ge : 4 ≤ length
  count_lt : ∀ card, (contents card).length < 2 ^ 31
  obtained : ∀ card, icc.obtainAllSmsOfIcc card = (contents card).map (recordText length)
  failed : ∀ card call, (icc.run card call).2 ≠ TELEPHONY_ERR_SUCCESS →
    contents (icc.run card call).1 = contents card
  added : ∀ card status pdu smsc,
    (icc.run card (.addSmsToIcc status pdu smsc)).2 = TELEPHONY_ERR_SUCCESS →
      ∃ i, (contents card)[i]? = some none ∧
        contents (icc.run card (.addSmsToIcc status pdu smsc)).1 = (contents card).set i
          (some ⟨statusOctet status, hexToByteVector (smsc ++ pdu)⟩)
  deleted : ∀ card msgIndex,
    (icc.run card (.delSmsIcc msgIndex)).2 = TELEPHONY_ERR_SUCCESS →
      ∃ i < (contents card).length, msgIndex.toNat = 1 + i ∧
        contents (icc.run card (.delSmsIcc msgIndex)).1 = (contents card).set i none
  updated : ∀ card msgIndex newStatus pdu smsc,
    (icc.run card (.updateSmsIcc msgIndex newStatus pdu smsc)).2 = TELEPHONY_ERR_SUCCESS →
      ∃ i < (contents card).length, msgIndex.toNat = 1 + i ∧
        contents (icc.run card (.updateSmsIcc msgIndex newStatus pdu smsc)).1 =
          (contents card).set i (some ⟨statusOctet newStatus, hexToByteVector (smsc ++ pdu)⟩)

/-- The record a request writes. -/
def SimRequest.record (env : Env) (statusOctet : UInt32 → UInt8) : SimRequest → Option Record
  | addSimMessage smsc pdu status =>
      some ⟨statusOctet status, hexToByteVector (smscAddr (env.toUtf8 smsc) ++ env.toUtf8 pdu)⟩
  | updateSimMessage _ newStatus pdu smsc =>
      some ⟨statusOctet newStatus, hexToByteVector (smscAddr (env.toUtf8 smsc) ++ env.toUtf8 pdu)⟩
  | _ => none

/-- A store of messages under numbers: what a request may do to it and answer. -/
inductive StoreStep (env : Env) (analysis : PduAnalysis) (statusOctet : UInt32 → UInt8)
    (store : List (Option Record)) :
    SimRequest → SimResult → List ShortMessage → List (Option Record) → Prop
  | refused (request : SimRequest) (result : SimResult) (h : result ≠ .success) :
      StoreStep env analysis statusOctet store request result [] store
  | listed (specification : Octets) :
      StoreStep env analysis statusOctet store .getAllSimMessages .success
        (listing env analysis specification 1 store) store
  | added (smsc pdu : String16) (status : UInt32) (i : Nat) (free : store[i]? = some none) :
      StoreStep env analysis statusOctet store (.addSimMessage smsc pdu status) .success []
        (store.set i ((SimRequest.addSimMessage smsc pdu status).record env statusOctet))
  | deleted (msgIndex : UInt32) (i : Nat) (record : Record) (index : msgIndex.toNat = 1 + i)
      (held : store[i]? = some (some record)) :
      StoreStep env analysis statusOctet store (.delSimMessage msgIndex) .success []
        (store.set i none)
  | updated (msgIndex newStatus : UInt32) (pdu smsc : String16) (i : Nat) (record : Record)
      (index : msgIndex.toNat = 1 + i) (held : store[i]? = some (some record)) :
      StoreStep env analysis statusOctet store (.updateSimMessage msgIndex newStatus pdu smsc)
        .success [] (store.set i
          ((SimRequest.updateSimMessage msgIndex newStatus pdu smsc).record env statusOctet))

variable {env : Env} {analysis : PduAnalysis} {icc : Icc κ}
  {contents : κ → List (Option Record)} {statusOctet : UInt32 → UInt8} {length : Nat}

/-- A number that is listed and that the card knows is that of a message. -/
theorem ListedAt.held (hlength : 4 ≤ length) {store : List (Option Record)}
    (hcount : store.length < 2 ^ 31) {specification : Octets} {msgIndex : UInt32} {i : Nat}
    (hindex : msgIndex.toNat = 1 + i) (hi : i < store.length)
    (h : ListedAt env analysis specification (store.map (recordText length)) msgIndex) :
    ∃ record, store[i]? = some (some record) := by
  rcases h with ⟨j, v, message, hv, hmessage, -, hplace⟩
  rw [List.getElem?_map, Option.map_eq_some_iff] at hv
  rcases hv with ⟨content, hcontent, rfl⟩
  have hj : j < store.length := (List.getElem?_eq_some_iff.1 hcontent).1
  have hij : i = j := by
    rcases hplace with hplace | hplace
    · rw [toInt32_eq_ofNat, hindex] at hplace
      have hsame := ofNat_inj (by omega) (by omega) hplace
      omega
    · rw [hplace] at hindex
      simp at hindex
      omega
  rw [hij, hcontent]
  cases content with
  | some record => exact ⟨record, rfl⟩
  | none =>
      rw [listRecords, untilPadding_free hlength] at hmessage
      cases hmessage

theorem call_storeStep (hicc : icc.KeepsRecords contents statusOctet length) {caller : Caller}
    {card : κ} {request : SimRequest} {call : IccCall} (hasked : request.call env = some call)
    (hadmitted : Admitted env analysis icc caller card call)
    (hcode : (icc.run card call).2 = TELEPHONY_ERR_SUCCESS) :
    StoreStep env analysis statusOctet (contents card) request .success []
      (contents (icc.run card call).1) := by
  rcases hadmitted with ⟨-, -, specification, -, hjustified⟩
  rw [hicc.obtained] at hjustified
  cases request with
  | addSimMessage smsc pdu status =>
      cases hasked
      rcases hicc.added card _ _ _ hcode with ⟨i, hfree, hset⟩
      rw [hset]
      exact .added smsc pdu status i hfree
  | delSimMessage msgIndex =>
      cases hasked
      rcases hicc.deleted card _ hcode with ⟨i, hi, hindex, hset⟩
      rcases ListedAt.held hicc.length_ge (hicc.count_lt card) hindex hi hjustified with
        ⟨record, hheld⟩
      rw [hset]
      exact .deleted msgIndex i record hindex hheld
  | updateSimMessage msgIndex newStatus pdu smsc =>
      cases hasked
      rcases hicc.updated card _ _ _ _ hcode with ⟨i, hi, hindex, hset⟩
      rcases ListedAt.held hicc.length_ge (hicc.count_lt card) hindex hi hjustified with
        ⟨record, hheld⟩
      rw [hset]
      exact .updated msgIndex newStatus pdu smsc i record hindex hheld
  | getAllSimMessages => cases hasked

theorem serve_storeStep (hicc : icc.KeepsRecords contents statusOctet length) (card : κ)
    (hread : ∀ record, some record ∈ contents card → record.Readable length)
    (next : Caller × SimRequest) :
    StoreStep env analysis statusOctet (contents card) next.2
      (SmsService.serve env analysis icc card next).2.1
      (SmsService.serve env analysis icc card next).2.2
      (contents (SmsService.serve env analysis icc card next).1) := by
  rcases next with ⟨caller, request⟩
  have hhandled := @handle_handled κ env analysis icc caller card request
  rw [SmsService.serve]
  generalize SmsService.handle env analysis icc caller card request = outcome at hhandled
  cases hhandled with
  | refused _ result hfailed => exact .refused request result hfailed
  | listed specification hphone =>
      dsimp only
      rw [hicc.obtained, listRecords_eq hicc.length_ge specification _ _ hread]
      exact .listed specification
  | called _ call hasked hadmitted =>
      dsimp only [SimResult.ofIcc]
      split
      · rename_i hcode
        exact call_storeStep hicc hasked hadmitted hcode
      · rename_i hcode
        rw [hicc.failed card call hcode]
        exact .refused request _ (by simp)

/-- A store whose messages can be read is left with messages that can. -/
theorem StoreStep.readable {store store' : List (Option Record)} {request : SimRequest}
    {result : SimResult} {message : List ShortMessage}
    (h : StoreStep env analysis statusOctet store request result message store')
    (hread : ∀ record, some record ∈ store → record.Readable length)
    (hwritten : ∀ record, request.record env statusOctet = some record →
      record.Readable length) :
    ∀ record, some record ∈ store' → record.Readable length := by
  intro record hrecord
  cases h with
  | refused _ _ _ => exact hread record hrecord
  | listed _ => exact hread record hrecord
  | added _ _ _ i _ =>
      rcases List.mem_or_eq_of_mem_set hrecord with hrecord | hrecord
      · exact hread record hrecord
      · exact hwritten record hrecord.symm
  | deleted _ i _ _ _ =>
      rcases List.mem_or_eq_of_mem_set hrecord with hrecord | hrecord
      · exact hread record hrecord
      · cases hrecord
  | updated _ _ _ _ i _ _ _ =>
      rcases List.mem_or_eq_of_mem_set hrecord with hrecord | hrecord
      · exact hread record hrecord
      · exact hwritten record hrecord.symm

/-- The cards of a run of requests. -/
def cardAfter (env : Env) (analysis : PduAnalysis) (icc : Icc κ) (card : κ)
    (requests : List (Caller × SimRequest)) : κ :=
  requests.foldl (fun card next => (SmsService.serve env analysis icc card next).1) card

theorem cardAfter_readable (hicc : icc.KeepsRecords contents statusOctet length) {card : κ}
    (hread : ∀ record, some record ∈ contents card → record.Readable length)
    (requests : List (Caller × SimRequest))
    (hwritten : ∀ next ∈ requests, ∀ record, next.2.record env statusOctet = some record →
      record.Readable length) :
    ∀ record, some record ∈ contents (cardAfter env analysis icc card requests) →
      record.Readable length := by
  induction requests generalizing card with
  | nil => exact hread
  | cons next requests ih =>
      apply ih
      · exact (serve_storeStep hicc card hread next).readable hread
          (hwritten next List.mem_cons_self)
      · exact fun later hlater => hwritten later (List.mem_cons_of_mem _ hlater)

/-- The octet of the status on the card. -/
def iccStatus (status : UInt32) : UInt8 :=
  if status = 0 then 3 else if status = 1 then 1 else if status = 2 then 7 else 5

/-- A card with two records of 176 octets. -/
def twoRecords : Icc (Option Record × Option Record) where
  hasSimCard _ := true
  getPhoneType _ := .PHONE_TYPE_IS_GSM
  obtainAllSmsOfIcc card := [card.1, card.2].map (recordText 176)
  run card
    | .addSmsToIcc status pdu smsc =>
        let record : Record := ⟨iccStatus status, hexToByteVector (smsc ++ pdu)⟩
        if card.1 = none then ((some record, card.2), 0)
        else if card.2 = none then ((card.1, some record), 0)
        else (card, 1)
    | .delSmsIcc msgIndex =>
        if msgIndex = 1 then ((none, card.2), 0)
        else if msgIndex = 2 then ((card.1, none), 0)
        else (card, 1)
    | .updateSmsIcc msgIndex newStatus pdu smsc =>
        let record : Record := ⟨iccStatus newStatus, hexToByteVector (smsc ++ pdu)⟩
        if msgIndex = 1 then ((some record, card.2), 0)
        else if msgIndex = 2 then ((card.1, some record), 0)
        else (card, 1)

theorem twoRecords_keepsRecords :
    twoRecords.KeepsRecords (fun card => [card.1, card.2]) iccStatus 176 where
  length_ge := by decide
  count_lt _ := show 2 < 2 ^ 31 by decide
  obtained _ := rfl
  failed := by
    rintro ⟨first, second⟩ call hcode
    cases call <;> (simp only [twoRecords] at hcode ⊢; split_ifs at hcode ⊢ <;>
      first | rfl | exact absurd rfl hcode)
  added := by
    rintro ⟨first, second⟩ status pdu smsc hcode
    simp only [twoRecords] at hcode ⊢
    split_ifs at hcode ⊢ with hfirst hsecond
    · exact ⟨0, by rw [hfirst]; rfl, rfl⟩
    · exact ⟨1, by rw [hsecond]; rfl, rfl⟩
    · exact absurd hcode (show ¬(1 : Int32) = 0 by decide)
  deleted := by
    rintro ⟨first, second⟩ msgIndex hcode
    simp only [twoRecords] at hcode ⊢
    split_ifs at hcode ⊢ with hone htwo
    · exact ⟨0, by simp, by rw [hone]; rfl, rfl⟩
    · exact ⟨1, by simp, by rw [htwo]; rfl, rfl⟩
    · exact absurd hcode (show ¬(1 : Int32) = 0 by decide)
  updated := by
    rintro ⟨first, second⟩ msgIndex newStatus pdu smsc hcode
    simp only [twoRecords] at hcode ⊢
    split_ifs at hcode ⊢ with hone htwo
    · exact ⟨0, by simp, by rw [hone]; rfl, rfl⟩
    · exact ⟨1, by simp, by rw [htwo]; rfl, rfl⟩
    · exact absurd hcode (show ¬(1 : Int32) = 0 by decide)

end Store

end TelephonySms.Sim
