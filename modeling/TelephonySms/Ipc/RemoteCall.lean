import TelephonySms.Ipc.Proxy

/-! # Remote calls

What a call of the service through the proxy, the parcels and the stub amounts to. The proxy
may answer by itself. Else the service is asked for what arrives of the request, and the
client is told what the report keeps of the answer.
-/

namespace TelephonySms.Ipc

open Exchange

variable {ρ α : Type}

/-! ## The abstract call -/

/-- What is left of a list whose size goes through an `int32_t`. -/
def counted {β : Type} (items : List β) : List β :=
  items.take (int32Size items.length).toNatClampNeg

/-- A client takes no list of `MAX_LEN` elements. -/
def overMax {β : Type} (items : List β) : Bool := int32Size items.length ≥ MAX_LEN

/-- A failure leaves what the client has. -/
def setOnSuccess {β : Type} (old : β) (answer : Int32 × β) : Int32 × β :=
  if answer.1 = TELEPHONY_ERR_SUCCESS then answer else (answer.1, old)

def appendOnSuccess {β : Type} (env : Env) (old : List β) (answer : Int32 × List β) :
    Int32 × List β :=
  if answer.1 ≠ TELEPHONY_ERR_SUCCESS then (answer.1, old)
  else if overMax answer.2 then (env.SMS_MMS_MESSAGE_LENGTH_OUT_OF_RANGE, old)
  else (answer.1, old ++ counted answer.2)

/-- Octets go to UTF-16 and back on their way. -/
def convertOnSuccess (env : Env) (old : Octets) (answer : Bool × Octets) : Bool × Octets :=
  if answer.1 then (answer.1, env.toUtf8 (env.toUtf16 answer.2)) else (answer.1, old)

namespace Request

/-- What the proxy answers without sending. -/
def refused (env : Env) : Request ρ α → Option α
  | sendData _ _ _ _ _ _ sendCallback deliverCallback =>
      if sendCallback.isSome && deliverCallback.isSome then none
      else some env.TELEPHONY_ERR_LOCAL_PTR_NULL
  | createMessage pdu specification message =>
      if pdu = [] ∨ specification = [] then some (env.TELEPHONY_ERR_ARGUMENT_INVALID, message)
      else none
  | getBase64Encode src dest => if src = [] then some (false, dest) else none
  | getBase64Decode src dest => if src = [] then some (false, dest) else none
  | getEncodeStringFunc encodeString _ _ strEncodeString =>
      if strEncodeString = [] then some (false, encodeString) else none
  | _ => none

/-- What the proxy answers when there is no remote object. -/
def unconnected (env : Env) : Request ρ α → α
  | sendMessage .. | sendMessageWithoutSave .. | sendData .. | setSmscAddr .. | addSimMessage ..
  | delSimMessage .. | updateSimMessage .. | setCBConfig .. | setCBConfigList ..
  | setDefaultSmsSlotId .. | sendMms .. => env.TELEPHONY_ERR_IPC_CONNECT_STUB_FAIL
  | getDefaultSmsSlotId => -1
  | getSmscAddr _ address => (env.TELEPHONY_ERR_IPC_CONNECT_STUB_FAIL, address)
  | getAllSimMessages _ message => (env.TELEPHONY_ERR_IPC_CONNECT_STUB_FAIL, message)
  | getDefaultSmsSimId simId => (env.TELEPHONY_ERR_IPC_CONNECT_STUB_FAIL, simId)
  | splitMessage _ messages => (env.TELEPHONY_ERR_IPC_CONNECT_STUB_FAIL, messages)
  | getSmsSegmentsInfo _ _ _ segInfo => (env.TELEPHONY_ERR_IPC_CONNECT_STUB_FAIL, segInfo)
  | getSmsShortCodeType _ _ codeType => (env.TELEPHONY_ERR_IPC_CONNECT_STUB_FAIL, codeType)
  | isImsSmsSupported _ isSupported => (env.TELEPHONY_ERR_IPC_CONNECT_STUB_FAIL, isSupported)
  | getImsShortMessageFormat format => (env.TELEPHONY_ERR_IPC_CONNECT_STUB_FAIL, format)
  | downloadMms _ _ data _ _ => (env.TELEPHONY_ERR_IPC_CONNECT_STUB_FAIL, data)
  | createMessage _ _ message => (env.TELEPHONY_ERR_IPC_CONNECT_STUB_FAIL, message)
  | setImsSmsConfig .. | hasSmsCapability => false
  | getBase64Encode _ dest | getBase64Decode _ dest => (false, dest)
  | getEncodeStringFunc encodeString _ _ _ => (false, encodeString)

/-- What the client reads in an empty reply. Five methods look at the code of the failure,
the others tell of a success. -/
def unanswered (env : Env) (errCode : Int32) : Request ρ α → α
  | sendMessage .. | sendMessageWithoutSave .. | sendData .. | sendMms .. => errCode
  | getSmscAddr _ address =>
      if errCode = TELEPHONY_ERR_SUCCESS then (TELEPHONY_ERR_SUCCESS, [])
      else (env.TELEPHONY_ERR_IPC_CONNECT_STUB_FAIL, address)
  | setSmscAddr .. | addSimMessage .. | delSimMessage .. | updateSimMessage .. | setCBConfig ..
  | setCBConfigList .. | setDefaultSmsSlotId .. | getDefaultSmsSlotId => TELEPHONY_ERR_SUCCESS
  | getAllSimMessages _ message => (TELEPHONY_ERR_SUCCESS, message)
  | getDefaultSmsSimId _ => (TELEPHONY_ERR_SUCCESS, 0)
  | splitMessage _ messages => (TELEPHONY_ERR_SUCCESS, messages)
  | getSmsSegmentsInfo .. => (TELEPHONY_ERR_SUCCESS,
      { msgSegCount := 0, msgEncodingCount := 0, msgRemainCount := 0, msgCodeScheme := 0 })
  | getSmsShortCodeType .. => (TELEPHONY_ERR_SUCCESS, 0)
  | isImsSmsSupported .. => (TELEPHONY_ERR_SUCCESS, false)
  | getImsShortMessageFormat _ => (TELEPHONY_ERR_SUCCESS, [])
  | downloadMms .. => (TELEPHONY_ERR_SUCCESS, [])
  | createMessage _ _ message => (env.TELEPHONY_ERR_LOCAL_PTR_NULL, message)
  | setImsSmsConfig .. | hasSmsCapability => false
  | getBase64Encode _ dest | getBase64Decode _ dest => (false, dest)
  | getEncodeStringFunc encodeString _ _ _ => (false, encodeString)

/-- What the service is asked for, none where the stub turns the request down. A delivery
callback without a send callback arrives as the send callback. -/
def arrives (env : Env) (bundleName : Octets) : Request ρ α → Option (Request ρ α)
  | sendMessage slotId desAddr scAddr text sendCallback deliverCallback _ =>
      if env.isValidSlotId slotId then
        some (sendMessage slotId (removeSpacesInDesAddr desAddr) scAddr text
          (sendCallback.or deliverCallback) (sendCallback.bind fun _ => deliverCallback)
          (bundleName == MMS_APP))
      else none
  | sendMessageWithoutSave slotId desAddr scAddr text sendCallback deliverCallback =>
      if env.isValidSlotId slotId then
        some (sendMessageWithoutSave slotId (removeSpacesInDesAddr desAddr) scAddr text
          (sendCallback.or deliverCallback) (sendCallback.bind fun _ => deliverCallback))
      else none
  | sendData slotId desAddr scAddr port data dataLen sendCallback deliverCallback =>
      if env.isValidSlotId slotId ∧ ¬ dataLen.toInt16 < 1 then
        some (sendData slotId (removeSpacesInDesAddr desAddr) scAddr port
          (data.take dataLen.toNat) dataLen sendCallback deliverCallback)
      else none
  | getSmscAddr slotId _ => some (getSmscAddr slotId [])
  | addSimMessage slotId smsc pdu status =>
      if status > SIM_MESSAGE_STATUS_SENT then none
      else some (addSimMessage slotId smsc pdu status)
  | updateSimMessage slotId msgIndex newStatus pdu smsc =>
      if newStatus > SIM_MESSAGE_STATUS_SENT then none
      else some (updateSimMessage slotId msgIndex newStatus pdu smsc)
  | getAllSimMessages slotId _ => some (getAllSimMessages slotId [])
  | setCBConfigList slotId messageIds ranType =>
      if int32Size messageIds.length > CB_RANGE_LIST_MAX_SIZE then none
      else
        some (setCBConfigList slotId (counted messageIds)
          ((messageIds.drop (counted messageIds).length ++ [ranType]).headD 0))
  | getDefaultSmsSimId _ => some (getDefaultSmsSimId 0)
  | splitMessage message _ => some (splitMessage message [])
  | getSmsSegmentsInfo slotId message force7BitCode _ =>
      some (getSmsSegmentsInfo slotId message force7BitCode {})
  | getSmsShortCodeType slotId desAddr _ =>
      some (getSmsShortCodeType slotId desAddr SMS_SHORT_CODE_TYPE_UNKNOWN)
  | isImsSmsSupported slotId _ => some (isImsSmsSupported slotId false)
  | getImsShortMessageFormat _ => some (getImsShortMessageFormat [])
  | sendMms slotId mmsc data ua uaprof time _ =>
      some (sendMms slotId mmsc data ua uaprof time (bundleName == MMS_APP))
  | createMessage pdu specification _ => some (createMessage pdu specification {})
  | getBase64Encode src _ => some (getBase64Encode (env.toUtf8 (env.toUtf16 src)) [])
  | getBase64Decode src _ => some (getBase64Decode (env.toUtf8 (env.toUtf16 src)) [])
  | getEncodeStringFunc _ charset valLength strEncodeString =>
      let str := env.toUtf8 (env.toUtf16 strEncodeString)
      if valLength.toNat = str.length then some (getEncodeStringFunc [] charset valLength str)
      else none
  | request => some request

/-- What the client is told of what the service answers. -/
def report (env : Env) : Request ρ α → α → α
  | getSmscAddr _ old, answer => setOnSuccess old answer
  | getAllSimMessages _ old, answer => appendOnSuccess env old answer
  | getDefaultSmsSimId old, answer => setOnSuccess old answer
  | splitMessage _ old, answer => appendOnSuccess env old answer
  | getSmsSegmentsInfo _ _ _ old, answer => setOnSuccess old answer
  | getSmsShortCodeType .., (result, codeType) =>
      (TELEPHONY_ERR_SUCCESS,
        if result = TELEPHONY_ERR_SUCCESS then codeType else SMS_SHORT_CODE_TYPE_UNKNOWN)
  | isImsSmsSupported _ old, answer => setOnSuccess old answer
  | getImsShortMessageFormat old, answer => setOnSuccess old answer
  | downloadMms _ _ old _ _, answer => setOnSuccess old answer
  | createMessage _ _ old, answer => setOnSuccess old answer
  | getBase64Encode _ old, answer => convertOnSuccess env old answer
  | getBase64Decode _ old, answer => convertOnSuccess env old answer
  | getEncodeStringFunc old _ _ _, answer => convertOnSuccess env old answer
  | _, answer => answer

end Request

/-! ## The methods -/

/-- A request that is sent, in the terms of the abstract call: what is read in an empty reply,
and what the handler does with the arguments. -/
structure Sends (env : Env) (bundleName : Octets) (request : Request ρ α)
    (code : SmsServiceInterfaceCode) (arguments : List (Item ρ))
    (receive : Int32 → Exchange ρ NoCall α) : Prop where
  unanswered (errCode : Int32) : (receive errCode).onItems Client.noService [] [] () =
    some (request.unanswered env errCode, [], ())
  turnedDown {σ : Type} (service : Service (Request ρ) σ) (s : σ) :
    request.arrives env bundleName = none →
      (SmsInterfaceStub.memberFunc env code).onItems service arguments [] s = some ((), [], s)
  served {σ : Type} (service : Service (Request ρ) σ) (s : σ) (arrived : Request ρ α) :
    request.arrives env bundleName = some arrived →
      ∃ reply, (SmsInterfaceStub.memberFunc env code).onItems service arguments [] s =
          some ((), reply, (service α arrived s).2) ∧
        (receive TELEPHONY_ERR_SUCCESS).onItems Client.noService reply [] () =
          some (request.report env (service α arrived s).1, [], ())

/-- A method does what the abstract call says. -/
inductive Agrees (env : Env) (bundleName : Octets) (request : Request ρ α) : Client ρ α → Prop
  | refused {a : α} (h : request.refused env = some a) : Agrees env bundleName request (.answer a)
  | sends {code : SmsServiceInterfaceCode} {arguments : List (Item ρ)}
      {receive : Int32 → Exchange ρ NoCall α} (h : request.refused env = none)
      (sends : Sends env bundleName request code arguments receive) :
      Agrees env bundleName request
        (SmsServiceProxy.request env code arguments (request.unconnected env) receive)

variable {env : Env} {bundleName : Octets}

section Methods

-- the three matches over all the requests, unfolded alike for each method
attribute [local simp] Request.arrives Request.report SmsInterfaceStub.memberFunc

/-- A request that is never turned down. -/
theorem Sends.of_arrives {request arrived : Request ρ α} {code : SmsServiceInterfaceCode}
    {arguments : List (Item ρ)} {receive : Int32 → Exchange ρ NoCall α}
    (harrives : request.arrives env bundleName = some arrived)
    (hempty : ∀ errCode, (receive errCode).onItems Client.noService [] [] () =
      some (request.unanswered env errCode, [], ()))
    (hserved : ∀ {σ : Type} (service : Service (Request ρ) σ) (s : σ),
      ∃ reply, (SmsInterfaceStub.memberFunc env code).onItems service arguments [] s =
          some ((), reply, (service α arrived s).2) ∧
        (receive TELEPHONY_ERR_SUCCESS).onItems Client.noService reply [] () =
          some (request.report env (service α arrived s).1, [], ())) :
    Sends env bundleName request code arguments receive := by
  constructor
  · exact hempty
  · intro σ service s hnone
    rw [harrives] at hnone
    cases hnone
  · intro σ service s other hother
    rw [harrives] at hother
    cases hother
    exact hserved service s

theorem readResult_empty (errCode : Int32) :
    (SmsServiceProxy.readResult errCode : Exchange ρ NoCall Int32).onItems Client.noService [] []
      () = some (errCode, [], ()) := by
  by_cases herr : errCode = TELEPHONY_ERR_SUCCESS
  · rw [herr]
    rfl
  · rw [SmsServiceProxy.readResult, if_pos herr]
    rfl

theorem readResult_result (result : Int32) :
    (SmsServiceProxy.readResult TELEPHONY_ERR_SUCCESS : Exchange ρ NoCall Int32).onItems
      Client.noService [⟨.int32, result⟩] [] () = some (result, [], ()) := rfl

@[simp] theorem readInt32_result (result : Int32) :
    (readInt32 : Exchange ρ NoCall Int32).onItems Client.noService [⟨.int32, result⟩] [] () =
      some (result, [], ()) := rfl

theorem sendMessage_agrees (slotId : Int32) (desAddr scAddr text : String16)
    (sendCallback deliverCallback : Option ρ) (isMmsApp : Bool) :
    Agrees env bundleName
      (.sendMessage slotId desAddr scAddr text sendCallback deliverCallback isMmsApp)
      (SmsServiceProxy.sendMessage env bundleName slotId desAddr scAddr text sendCallback
        deliverCallback) := by
  apply Agrees.sends rfl
  constructor
  · exact readResult_empty
  · intro σ service s harrives
    have hslot : env.isValidSlotId slotId = false := by simpa using harrives
    simp [SmsInterfaceStub.onSendSmsTextRequest, hslot]
  · intro σ service s arrived harrives
    simp only [Request.arrives, Option.ite_none_right_eq_some] at harrives
    rcases harrives with ⟨hslot, hsome⟩
    cases hsome
    refine ⟨_, ?_, readResult_result _⟩
    cases sendCallback <;> cases deliverCallback <;>
      simp [SmsInterfaceStub.onSendSmsTextRequest, hslot, SmsServiceProxy.callback]

theorem sendMessageWithoutSave_agrees (slotId : Int32) (desAddr scAddr text : String16)
    (sendCallback deliverCallback : Option ρ) :
    Agrees env bundleName
      (.sendMessageWithoutSave slotId desAddr scAddr text sendCallback deliverCallback)
      (SmsServiceProxy.sendMessageWithoutSave env bundleName slotId desAddr scAddr text
        sendCallback deliverCallback) := by
  apply Agrees.sends rfl
  constructor
  · exact readResult_empty
  · intro σ service s harrives
    have hslot : env.isValidSlotId slotId = false := by simpa using harrives
    simp [SmsInterfaceStub.onSendSmsTextWithoutSaveRequest, hslot]
  · intro σ service s arrived harrives
    simp only [Request.arrives, Option.ite_none_right_eq_some] at harrives
    rcases harrives with ⟨hslot, hsome⟩
    cases hsome
    refine ⟨_, ?_, readResult_result _⟩
    cases sendCallback <;> cases deliverCallback <;>
      simp [SmsInterfaceStub.onSendSmsTextWithoutSaveRequest, hslot, SmsServiceProxy.callback]

theorem sendData_agrees (slotId : Int32) (desAddr scAddr : String16) (port : UInt16)
    (data : Octets) (dataLen : UInt16) (sendCallback deliverCallback : Option ρ) :
    Agrees env bundleName
      (.sendData slotId desAddr scAddr port data dataLen sendCallback deliverCallback)
      (SmsServiceProxy.sendData env slotId desAddr scAddr port data dataLen sendCallback
        deliverCallback) := by
  cases sendCallback with
  | none => exact .refused rfl
  | some sendCallback =>
      cases deliverCallback with
      | none => exact .refused rfl
      | some deliverCallback =>
          apply Agrees.sends rfl
          constructor
          · exact readResult_empty
          · intro σ service s harrives
            simp only [Request.arrives, ite_eq_right_iff, reduceCtorEq, imp_false] at harrives
            by_cases hslot : env.isValidSlotId slotId = true
            · have hlen : dataLen.toInt16 < 1 := by simpa [hslot] using harrives
              simp [SmsInterfaceStub.onSendSmsDataRequest, hslot, hlen]
            · simp [SmsInterfaceStub.onSendSmsDataRequest, hslot]
          · intro σ service s arrived harrives
            simp only [Request.arrives, Option.ite_none_right_eq_some] at harrives
            rcases harrives with ⟨⟨hslot, hlen⟩, hsome⟩
            cases hsome
            refine ⟨_, ?_, readResult_result _⟩
            simp [SmsInterfaceStub.onSendSmsDataRequest, hslot, hlen]

theorem addSimMessage_agrees (slotId : Int32) (smsc pdu : String16) (status : UInt32) :
    Agrees env bundleName (.addSimMessage slotId smsc pdu status : Request ρ _)
      (SmsServiceProxy.addSimMessage env slotId smsc pdu status) := by
  apply Agrees.sends rfl
  constructor
  · intro errCode
    rfl
  · intro σ service s harrives
    have hstatus : status > SIM_MESSAGE_STATUS_SENT := by simpa using harrives
    simp [SmsInterfaceStub.onAddSimMessage, hstatus]
  · intro σ service s arrived harrives
    simp only [Request.arrives, Option.ite_none_left_eq_some] at harrives
    rcases harrives with ⟨hstatus, hsome⟩
    cases hsome
    have hfree : ¬ status < SIM_MESSAGE_STATUS_UNREAD := UInt32.not_lt_zero
    simp [SmsInterfaceStub.onAddSimMessage, hstatus, hfree]

theorem updateSimMessage_agrees (slotId : Int32) (msgIndex newStatus : UInt32)
    (pdu smsc : String16) :
    Agrees env bundleName (.updateSimMessage slotId msgIndex newStatus pdu smsc : Request ρ _)
      (SmsServiceProxy.updateSimMessage env slotId msgIndex newStatus pdu smsc) := by
  apply Agrees.sends rfl
  constructor
  · intro errCode
    rfl
  · intro σ service s harrives
    have hstatus : newStatus > SIM_MESSAGE_STATUS_SENT := by simpa using harrives
    simp [SmsInterfaceStub.onUpdateSimMessage, hstatus]
  · intro σ service s arrived harrives
    simp only [Request.arrives, Option.ite_none_left_eq_some] at harrives
    rcases harrives with ⟨hstatus, hsome⟩
    cases hsome
    have hfree : ¬ newStatus < SIM_MESSAGE_STATUS_UNREAD := UInt32.not_lt_zero
    simp [SmsInterfaceStub.onUpdateSimMessage, hstatus, hfree]

/-! ## Lists -/

theorem toNatClampNeg_int32Size_le (n : Nat) : (int32Size n).toNatClampNeg ≤ n := by
  have hsize : (int32Size n).toInt = (n : Int).bmod Int32.size := Int32.toInt_ofNat'
  rw [Int.bmod_def, ← Int.natCast_emod] at hsize
  have hle : n % Int32.size ≤ n := Nat.mod_le n Int32.size
  rw [Int32.toNatClampNeg, hsize]
  split <;> omega

theorem counted_length {β : Type} (items : List β) :
    (counted items).length = (int32Size items.length).toNatClampNeg := by
  rw [counted, List.length_take, Nat.min_eq_left (toNatClampNeg_int32Size_le _)]

/-- As many elements are read as the size says, whatever stands behind them. -/
theorem times_counted {β γ σ : Type} {C : Type → Type} {p : Exchange ρ C β}
    {items : β → List (Item ρ)} (h : ∀ b, p.Takes (items b) b) (service : Service C σ)
    (bs : List β) (f : List β → Exchange ρ C γ) (data reply : List (Item ρ)) (s : σ) :
    (times p (int32Size bs.length).toNatClampNeg >>= f).onItems service
        (bs.flatMap items ++ data) reply s =
      (f (counted bs)).onItems service
        ((bs.drop (counted bs).length).flatMap items ++ data) reply s := by
  have htakes := times_takes h (counted bs)
  rw [counted_length] at htakes ⊢
  rw [← htakes.run, ← List.append_assoc, ← List.flatMap_append, counted, List.take_append_drop]

theorem setCBConfigList_agrees (slotId : Int32) (messageIds : List Int32) (ranType : Int32) :
    Agrees env bundleName (.setCBConfigList slotId messageIds ranType : Request ρ _)
      (SmsServiceProxy.setCBConfigList env slotId messageIds ranType) := by
  apply Agrees.sends rfl
  constructor
  · intro errCode
    rfl
  · intro σ service s harrives
    have hsize : int32Size messageIds.length > CB_RANGE_LIST_MAX_SIZE := by simpa using harrives
    simp [SmsInterfaceStub.onSetCBConfigList, hsize]
  · intro σ service s arrived harrives
    simp only [Request.arrives, Option.ite_none_left_eq_some] at harrives
    rcases harrives with ⟨hsize, hsome⟩
    cases hsome
    have hitems : messageIds.map (fun messageId => (⟨.int32, messageId⟩ : Item ρ)) =
        messageIds.flatMap fun messageId => [⟨.int32, messageId⟩] := List.map_eq_flatMap
    simp only [SmsInterfaceStub.memberFunc, SmsInterfaceStub.onSetCBConfigList, List.cons_append,
      List.nil_append, onItems_readInt32, if_neg hsize, hitems]
    rw [times_counted readInt32_takes]
    cases messageIds.drop (counted messageIds).length with
    | nil => simp
    | cons messageId rest => simp

/-! ## Answers -/

/-- What the stub writes and the proxy reads, whatever the service has answered. -/
theorem answer_served {β σ : Type} {C : Type → Type} {write : β → Exchange ρ C Unit}
    {read : Exchange ρ NoCall β} {items : β → List (Item ρ)} (service : Service C σ)
    (hwrite : ∀ b data reply s, (write b).onItems service data reply s =
      some ((), reply ++ items b, s))
    (hread : ∀ b, read.Takes (items b) b) (old : β) (answer : Int32 × β)
    (data : List (Item ρ)) (s : σ) :
    ∃ reply, (SmsInterfaceStub.writeAnswer write answer).onItems service data [] s =
        some ((), reply, s) ∧
      (SmsServiceProxy.readAnswer old read).onItems Client.noService reply [] () =
        some (setOnSuccess old answer, [], ()) := by
  rcases answer with ⟨result, b⟩
  by_cases hresult : result = TELEPHONY_ERR_SUCCESS
  · refine ⟨⟨.int32, result⟩ :: items b, ?_, ?_⟩
    · simp [SmsInterfaceStub.writeAnswer, hresult, hwrite]
    · have hitems := (hread b).run Client.noService
        (fun b => (pure (TELEPHONY_ERR_SUCCESS, b) : Exchange ρ NoCall _)) [] [] ()
      rw [List.append_nil] at hitems
      simp [SmsServiceProxy.readAnswer, hresult, hitems, setOnSuccess]
  · refine ⟨[⟨.int32, result⟩], ?_, ?_⟩
    · simp [SmsInterfaceStub.writeAnswer, hresult]
    · simp [SmsServiceProxy.readAnswer, hresult, setOnSuccess]

theorem listAnswer_served {β σ : Type} {C : Type → Type} {read : Exchange ρ NoCall β}
    {items : β → List (Item ρ)} (service : Service C σ) (hread : ∀ b, read.Takes (items b) b)
    (old : List β) (answer : Int32 × List β) (data : List (Item ρ)) (s : σ) :
    ∃ reply, (SmsInterfaceStub.writeAnswer (SmsInterfaceStub.writeList items) answer).onItems
        service data [] s = some ((), reply, s) ∧
      (SmsServiceProxy.readListAnswer env old read).onItems Client.noService reply [] () =
        some (appendOnSuccess env old answer, [], ()) := by
  rcases answer with ⟨result, list⟩
  by_cases hresult : result = TELEPHONY_ERR_SUCCESS
  · refine ⟨⟨.int32, result⟩ :: ⟨.int32, int32Size list.length⟩ :: list.flatMap items, ?_, ?_⟩
    · simp [SmsInterfaceStub.writeAnswer, SmsInterfaceStub.writeList, hresult]
    · by_cases hmax : int32Size list.length ≥ MAX_LEN
      · simp [SmsServiceProxy.readListAnswer, hresult, hmax, appendOnSuccess, overMax]
      · rw [← List.append_nil (list.flatMap items)]
        simp only [SmsServiceProxy.readListAnswer, hresult, onItems_readInt32, ne_eq,
          not_true_eq_false, if_false, if_neg hmax, times_counted hread, onItems_pure,
          appendOnSuccess, overMax, decide_eq_true_eq]
  · refine ⟨[⟨.int32, result⟩], ?_, ?_⟩
    · simp [SmsInterfaceStub.writeAnswer, hresult]
    · simp [SmsServiceProxy.readListAnswer, hresult, appendOnSuccess]

theorem listAnswer_empty {β : Type} {read : Exchange ρ NoCall β} (old : List β) :
    (SmsServiceProxy.readListAnswer env old read).onItems Client.noService [] [] () =
      some ((TELEPHONY_ERR_SUCCESS, old), [], ()) := by
  have happend : (SmsServiceProxy.readListAnswer env old read).onItems Client.noService [] [] () =
      some ((TELEPHONY_ERR_SUCCESS, old ++ []), [], ()) := rfl
  rw [happend, List.append_nil]

theorem octets_served {σ : Type} {C : Type → Type} (service : Service C σ) (old : Octets)
    (answer : Bool × Octets) (data : List (Item ρ)) (s : σ) :
    ∃ reply, (SmsInterfaceStub.writeOctets env answer).onItems service data [] s =
        some ((), reply, s) ∧
      (SmsServiceProxy.readOctets env old : Exchange ρ NoCall _).onItems Client.noService reply []
        () = some (convertOnSuccess env old answer, [], ()) := by
  rcases answer with ⟨result, octets⟩
  cases result with
  | false => exact ⟨_, rfl, rfl⟩
  | true => exact ⟨_, rfl, rfl⟩

theorem readSegmentsInfo_takes (segInfo : SmsSegmentsInfo) :
    (SmsServiceProxy.readSegmentsInfo : Exchange ρ NoCall _).Takes segInfo.items segInfo := by
  rw [SmsServiceProxy.readSegmentsInfo, SmsSegmentsInfo.items]
  iterate 4
    apply Takes.cons (readInt32_takes _)
  exact .pure segInfo

theorem getEncodeStringFunc_agrees (encodeString : Octets) (charset valLength : UInt32)
    (strEncodeString : Octets) :
    Agrees env bundleName
      (.getEncodeStringFunc encodeString charset valLength strEncodeString : Request ρ _)
      (SmsServiceProxy.getEncodeStringFunc env encodeString charset valLength
        strEncodeString) := by
  rw [SmsServiceProxy.getEncodeStringFunc]
  by_cases hempty : strEncodeString = []
  · rw [if_pos hempty]
    exact .refused (if_pos hempty)
  · rw [if_neg hempty]
    have hsent : (Request.getEncodeStringFunc encodeString charset valLength strEncodeString :
        Request ρ _).refused env = none := if_neg hempty
    apply Agrees.sends hsent
    constructor
    · intro errCode
      rfl
    · intro σ service s harrives
      have hlen : valLength.toNat ≠ (env.toUtf8 (env.toUtf16 strEncodeString)).length := by
        simpa using harrives
      simp [SmsInterfaceStub.onGetEncodeStringFunc, hlen]
    · intro σ service s arrived harrives
      simp only [Request.arrives, Option.ite_none_right_eq_some] at harrives
      rcases harrives with ⟨hlen, hsome⟩
      cases hsome
      simp [SmsInterfaceStub.onGetEncodeStringFunc, hlen, octets_served]

theorem createMessage_agrees (pdu specification : Octets) (message : ShortMessage) :
    Agrees env bundleName (.createMessage pdu specification message : Request ρ _)
      (SmsServiceProxy.createMessage env pdu specification message) := by
  rw [SmsServiceProxy.createMessage]
  by_cases hempty : pdu = [] ∨ specification = []
  · rw [if_pos hempty]
    exact .refused (if_pos hempty)
  · rw [if_neg hempty]
    have hsent : (Request.createMessage pdu specification message : Request ρ _).refused env =
        none := if_neg hempty
    apply Agrees.sends hsent (.of_arrives rfl (fun _ => rfl) _)
    intro σ service s
    simp only [SmsInterfaceStub.memberFunc, SmsInterfaceStub.onCreateMessage, onItems_readString,
      onItems_callService, Request.report]
    generalize (service _ (Request.createMessage pdu specification {}) s).1 = answer
    rcases answer with ⟨result, created⟩
    by_cases hresult : result = TELEPHONY_ERR_SUCCESS
    · refine ⟨⟨.int32, result⟩ :: created.marshalling, ?_, ?_⟩
      · simp [SmsInterfaceStub.writeAnswer, hresult]
      · rw [← List.append_nil created.marshalling]
        simp only [hresult, onItems_readInt32, ne_eq, not_true_eq_false, if_false]
        rw [(ShortMessage.readFromParcel_takes message created).run]
        simp [setOnSuccess]
    · refine ⟨[⟨.int32, result⟩], ?_, ?_⟩
      · simp [SmsInterfaceStub.writeAnswer, hresult]
      · simp [hresult, setOnSuccess]

theorem getSmsShortCodeType_agrees (slotId : Int32) (desAddr : Octets) (codeType : Int32) :
    Agrees env bundleName (.getSmsShortCodeType slotId desAddr codeType : Request ρ _)
      (SmsServiceProxy.getSmsShortCodeType env slotId desAddr codeType) := by
  apply Agrees.sends rfl (.of_arrives rfl (fun _ => rfl) _)
  intro σ service s
  by_cases hresult : (service _ (Request.getSmsShortCodeType slotId desAddr
      SMS_SHORT_CODE_TYPE_UNKNOWN) s).1.1 = TELEPHONY_ERR_SUCCESS
  all_goals
    simp [SmsInterfaceStub.onGetSmsShortCodeType, hresult]

theorem downloadMms_agrees (slotId : Int32) (mmsc data ua uaprof : String16) :
    Agrees env bundleName (.downloadMms slotId mmsc data ua uaprof : Request ρ _)
      (SmsServiceProxy.downloadMms env slotId mmsc data ua uaprof) := by
  apply Agrees.sends rfl (.of_arrives rfl (fun _ => rfl) _)
  intro σ service s
  simp only [SmsInterfaceStub.memberFunc, SmsInterfaceStub.onDownloadMms, onItems_readInt32,
    onItems_readString16, onItems_callService, Request.report]
  generalize (service _ (Request.downloadMms slotId mmsc data ua uaprof) s).1 = answer
  rcases answer with ⟨result, downloaded⟩
  -- the data stands behind a failure too, where the proxy does not read it
  refine ⟨[⟨.int32, result⟩, ⟨.string16, downloaded⟩], rfl, ?_⟩
  by_cases hresult : result = TELEPHONY_ERR_SUCCESS
  · simp [SmsServiceProxy.readAnswer, setOnSuccess, hresult]
  · simp [SmsServiceProxy.readAnswer, setOnSuccess, hresult]

theorem getSmscAddr_agrees (slotId : Int32) (smscAddress : String16) :
    Agrees env bundleName (.getSmscAddr slotId smscAddress : Request ρ _)
      (SmsServiceProxy.getSmscAddr env slotId smscAddress) := by
  apply Agrees.sends rfl (.of_arrives rfl _ _)
  · intro errCode
    by_cases herr : errCode = TELEPHONY_ERR_SUCCESS
    · rw [herr]
      rfl
    · simp [Request.unanswered, herr]
  · intro σ service s
    exact answer_served service (fun _ _ _ _ => rfl) readString16_takes smscAddress _ _ _

/-- What is written in the two methods of Base64 is one thing. -/
theorem base64_agrees {request arrived : Request ρ (Bool × Octets)}
    {code : SmsServiceInterfaceCode} {src dest : Octets}
    (hrefused : request.refused env = if src = [] then some (false, dest) else none)
    (hunconnected : request.unconnected env = (false, dest))
    (hempty : ∀ errCode, request.unanswered env errCode = (false, dest))
    (harrives : request.arrives env bundleName = some arrived)
    (hreport : ∀ answer, request.report env answer = convertOnSuccess env dest answer)
    (hstub : ∀ {σ : Type} (service : Service (Request ρ) σ) (s : σ),
      (SmsInterfaceStub.memberFunc env code).onItems service
          [⟨.string16, env.toUtf16 src⟩] [] s =
        (SmsInterfaceStub.writeOctets env (service _ arrived s).1).onItems service [] []
          (service _ arrived s).2) :
    Agrees env bundleName request
      (if src = [] then .answer (false, dest)
      else SmsServiceProxy.request env code [⟨.string16, env.toUtf16 src⟩] (false, dest)
        fun _ => SmsServiceProxy.readOctets env dest) := by
  by_cases hsrc : src = []
  · rw [if_pos hsrc] at hrefused ⊢
    exact .refused hrefused
  · rw [if_neg hsrc] at hrefused ⊢
    rw [← hunconnected]
    apply Agrees.sends hrefused (.of_arrives harrives _ _)
    · intro errCode
      rw [hempty]
      rfl
    · intro σ service s
      rw [hstub, hreport]
      exact octets_served service dest _ [] _

theorem method_agrees (request : Request ρ α) :
    Agrees env bundleName request (SmsServiceProxy.method env bundleName request) := by
  cases request with
  | sendMessage slotId desAddr scAddr text sendCallback deliverCallback isMmsApp =>
      exact sendMessage_agrees slotId desAddr scAddr text sendCallback deliverCallback isMmsApp
  | sendMessageWithoutSave slotId desAddr scAddr text sendCallback deliverCallback =>
      exact sendMessageWithoutSave_agrees slotId desAddr scAddr text sendCallback deliverCallback
  | sendData slotId desAddr scAddr port data dataLen sendCallback deliverCallback =>
      exact sendData_agrees slotId desAddr scAddr port data dataLen sendCallback deliverCallback
  | getSmscAddr slotId smscAddress => exact getSmscAddr_agrees slotId smscAddress
  | addSimMessage slotId smsc pdu status => exact addSimMessage_agrees slotId smsc pdu status
  | updateSimMessage slotId msgIndex newStatus pdu smsc =>
      exact updateSimMessage_agrees slotId msgIndex newStatus pdu smsc
  | setCBConfigList slotId messageIds ranType =>
      exact setCBConfigList_agrees slotId messageIds ranType
  | getSmsShortCodeType slotId desAddr codeType =>
      exact getSmsShortCodeType_agrees slotId desAddr codeType
  | downloadMms slotId mmsc data ua uaprof => exact downloadMms_agrees slotId mmsc data ua uaprof
  | createMessage pdu specification message =>
      exact createMessage_agrees pdu specification message
  | getEncodeStringFunc encodeString charset valLength strEncodeString =>
      exact getEncodeStringFunc_agrees encodeString charset valLength strEncodeString
  | getBase64Encode src dest =>
      exact base64_agrees rfl rfl (fun _ => rfl) rfl (fun _ => rfl) fun _ _ => rfl
  | getBase64Decode src dest =>
      exact base64_agrees rfl rfl (fun _ => rfl) rfl (fun _ => rfl) fun _ _ => rfl
  | getAllSimMessages slotId message =>
      exact .sends rfl (.of_arrives rfl (fun _ => listAnswer_empty message) fun service _ =>
        listAnswer_served service ShortMessage.unMarshalling_takes message _ _ _)
  | splitMessage message messages =>
      exact .sends rfl (.of_arrives rfl (fun _ => listAnswer_empty messages) fun service _ =>
        listAnswer_served service readString16_takes messages _ _ _)
  | getSmsSegmentsInfo slotId message force7BitCode segInfo =>
      exact .sends rfl (.of_arrives rfl (fun _ => rfl) fun service _ =>
        answer_served service (fun _ _ _ _ => onItems_writeAll _) readSegmentsInfo_takes segInfo
          _ _ _)
  | getDefaultSmsSimId simId =>
      exact .sends rfl (.of_arrives rfl (fun _ => rfl) fun service _ =>
        answer_served service (fun _ _ _ _ => rfl) readInt32_takes simId _ _ _)
  | isImsSmsSupported slotId isSupported =>
      exact .sends rfl (.of_arrives rfl (fun _ => rfl) fun service _ =>
        answer_served service (fun _ _ _ _ => rfl) (readValue_takes .bool false) isSupported _ _ _)
  | getImsShortMessageFormat format =>
      exact .sends rfl (.of_arrives rfl (fun _ => rfl) fun service _ =>
        answer_served service (fun _ _ _ _ => rfl) readString16_takes format _ _ _)
  | sendMms =>
      exact .sends rfl (.of_arrives rfl readResult_empty fun _ _ =>
        ⟨_, rfl, readResult_result _⟩)
  | setSmscAddr | delSimMessage | setCBConfig | setImsSmsConfig | setDefaultSmsSlotId
  | getDefaultSmsSlotId | hasSmsCapability =>
      exact .sends rfl (.of_arrives rfl (fun _ => rfl) fun _ _ => ⟨_, rfl, rfl⟩)

end Methods

/-! ## Runs -/

/-- What the service does for a request, and what the client is told of it. -/
def serve {σ : Type} (env : Env) (service : Service (Request ρ) σ) (bundleName : Octets)
    (request : Request ρ α) (s : σ) : α × σ :=
  match request.arrives env bundleName with
  | none => (request.unanswered env TELEPHONY_ERR_SUCCESS, s)
  | some arrived => (request.report env (service α arrived s).1, (service α arrived s).2)

/-- What a call over a link amounts to. -/
def remotely {σ : Type} (env : Env) (service : Service (Request ρ) σ) (bundleName : Octets)
    (link : Link) (request : Request ρ α) (s : σ) : α × σ :=
  match request.refused env, link with
  | some a, _ => (a, s)
  | none, .unconnected => (request.unconnected env, s)
  | none, .requestLost errCode => (request.unanswered env errCode, s)
  | none, .replyLost errCode =>
      (request.unanswered env errCode, (serve env service bundleName request s).2)
  | none, .connected => serve env service bundleName request s

theorem Sends.handled {request : Request ρ α} {code : SmsServiceInterfaceCode}
    {arguments : List (Item ρ)} {receive : Int32 → Exchange ρ NoCall α}
    (h : Sends env bundleName request code arguments receive) {σ : Type}
    (service : Service (Request ρ) σ) (s : σ) :
    ∃ reply, (SmsInterfaceStub.onRemoteRequest env code).onItems service
          (⟨.interfaceToken, env.descriptor⟩ :: arguments) [] s =
        some (TELEPHONY_ERR_SUCCESS, reply, (serve env service bundleName request s).2) ∧
      (receive TELEPHONY_ERR_SUCCESS).onItems Client.noService reply [] () =
        some ((serve env service bundleName request s).1, [], ()) := by
  have hmember : ∃ reply, (SmsInterfaceStub.memberFunc env code).onItems service arguments [] s =
        some ((), reply, (serve env service bundleName request s).2) ∧
      (receive TELEPHONY_ERR_SUCCESS).onItems Client.noService reply [] () =
        some ((serve env service bundleName request s).1, [], ()) := by
    cases harrives : request.arrives env bundleName with
    | none =>
        simp only [serve, harrives]
        exact ⟨[], h.turnedDown service s harrives, h.unanswered TELEPHONY_ERR_SUCCESS⟩
    | some arrived =>
        simp only [serve, harrives]
        exact h.served service s arrived harrives
  rcases hmember with ⟨reply, hstub, hproxy⟩
  refine ⟨reply, ?_, hproxy⟩
  rw [SmsInterfaceStub.onRemoteRequest, onItems_readValue .interfaceToken,
    if_neg (not_not_intro rfl), onItems_then_pure, hstub]
  rfl

/-- The proxy, the parcels and the stub do what the abstract call says. -/
theorem run_method {ops : ParcelOps ρ} (lawful : ops.Lawful) {σ : Type}
    (service : Service (Request ρ) σ) (link : Link) (request : Request ρ α) (s : σ) :
    (SmsServiceProxy.method env bundleName request).run ops env service link s =
      remotely env service bundleName link request s := by
  have hagrees : Agrees env bundleName request (SmsServiceProxy.method env bundleName request) :=
    method_agrees request
  generalize SmsServiceProxy.method env bundleName request = client at hagrees
  cases hagrees with
  | refused hrefused => simp only [Client.run, remotely, hrefused]
  | sends hsent hsends =>
      rename_i code arguments receive
      have hreceived : ∀ {errCode a parcel items}, lawful.Holds parcel items →
          (receive errCode).onItems Client.noService items [] () = some (a, [], ()) →
            ((receive errCode).onParcels ops Client.noService parcel ops.new ()).1 = a := by
        intro errCode a parcel items hholds hrun
        rcases onParcels_of_onItems lawful hholds lawful.new hrun with ⟨_, heq, _⟩
        rw [heq]
      rcases hsends.handled service s with ⟨reply, hstub, hproxy⟩
      rcases onParcels_of_onItems lawful (lawful.filled _) lawful.new hstub with
        ⟨parcel, hhandled, hholds⟩
      cases link with
      | unconnected => simp only [SmsServiceProxy.request, Client.run, remotely, hsent]
      | requestLost errCode =>
          simp only [SmsServiceProxy.request, Client.run, remotely, hsent]
          rw [hreceived lawful.new (hsends.unanswered errCode)]
      | replyLost errCode =>
          simp only [SmsServiceProxy.request, Client.run, remotely, hsent, hhandled]
          rw [hreceived lawful.new (hsends.unanswered errCode)]
      | connected =>
          simp only [SmsServiceProxy.request, Client.run, remotely, hsent, hhandled]
          rw [hreceived hholds hproxy]

/-- A call that a client makes. -/
structure Call (ρ : Type) : Type 1 where
  {α : Type}
  request : Request ρ α
  bundleName : Octets
  link : Link

/-- The calls of all clients, in the order in which the service meets them. -/
def session {σ : Type} (answer : (c : Call ρ) → σ → c.α × σ) :
    List (Call ρ) → σ → List (Sigma fun α : Type => α) × σ
  | [], s => ([], s)
  | c :: calls, s =>
      let rest := session answer calls (answer c s).2
      (⟨c.α, (answer c s).1⟩ :: rest.1, rest.2)

/-- The calls through proxies. -/
def proxySession (ops : ParcelOps ρ) (env : Env) {σ : Type} (service : Service (Request ρ) σ) :
    List (Call ρ) → σ → List (Sigma fun α : Type => α) × σ :=
  session fun c =>
    (SmsServiceProxy.method env c.bundleName c.request).run ops env service c.link

/-- The calls as the abstract call has them. -/
def remoteSession (env : Env) {σ : Type} (service : Service (Request ρ) σ) :
    List (Call ρ) → σ → List (Sigma fun α : Type => α) × σ :=
  session fun c => remotely env service c.bundleName c.link c.request

theorem run_call {ops : ParcelOps ρ} (lawful : ops.Lawful) {σ : Type}
    (service : Service (Request ρ) σ) :
    (fun (c : Call ρ) =>
      (SmsServiceProxy.method env c.bundleName c.request).run ops env service c.link) =
        fun c => remotely env service c.bundleName c.link c.request := by
  funext c s
  exact run_method lawful service c.link c.request s

/-- Every client is told what the abstract call says, and the service ends where it says,
whatever keeps the parcels. -/
theorem proxySession_transparent {ops : ParcelOps ρ} (lawful : ops.Lawful) (env : Env) {σ : Type}
    (service : Service (Request ρ) σ) (calls : List (Call ρ)) (s : σ) :
    proxySession ops env service calls s = remoteSession env service calls s := by
  rw [proxySession, run_call lawful service, remoteSession]

/-- A text with a delivery callback only: the service gets it as the send callback. -/
example : (Request.sendMessage 0 [0x31, 0x20] [] [0x68] none (some ()) true).arrives
    { defaultSimSlotId := 0, simSlotCount := 2, TELEPHONY_ERR_LOCAL_PTR_NULL := 1,
      TELEPHONY_ERR_IPC_CONNECT_STUB_FAIL := 2, TELEPHONY_ERR_ARGUMENT_INVALID := 3,
      TELEPHONY_ERR_DESCRIPTOR_MISMATCH := 4, SMS_MMS_ERR_OFFSET := 8, descriptor := [],
      toUtf8 := fun _ => [], toUtf16 := fun _ => [] } [] =
      some (.sendMessage 0 [0x31] [] [0x68] (some ()) none false) := rfl

/-- What a call brings to the service. -/
def Call.delivered (env : Env) (c : Call ρ) : Option (Sigma fun α : Type => Request ρ α) :=
  match c.request.refused env, c.link with
  | some _, _ => none
  | none, .unconnected => none
  | none, .requestLost _ => none
  | none, .replyLost _ => (c.request.arrives env c.bundleName).map fun r => ⟨c.α, r⟩
  | none, .connected => (c.request.arrives env c.bundleName).map fun r => ⟨c.α, r⟩

/-- The requests, one after the other. -/
def serveAll {σ : Type} (service : Service (Request ρ) σ) :
    List (Sigma fun α : Type => Request ρ α) → σ → σ
  | [], s => s
  | r :: requests, s => serveAll service requests (service r.1 r.2 s).2

theorem remotely_serves {σ : Type} (service : Service (Request ρ) σ) (c : Call ρ) (s : σ) :
    (remotely env service c.bundleName c.link c.request s).2 =
      serveAll service (c.delivered env).toList s := by
  cases hrefused : c.request.refused env with
  | some a => simp [remotely, Call.delivered, hrefused, serveAll]
  | none =>
      cases harrives : c.request.arrives env c.bundleName with
      | none => cases hlink : c.link <;> simp [remotely, Call.delivered, serve, serveAll, *]
      | some arrived =>
          cases hlink : c.link <;> simp [remotely, Call.delivered, serve, serveAll, *]

theorem serveAll_append {σ : Type} (service : Service (Request ρ) σ)
    (requests rest : List (Sigma fun α : Type => Request ρ α)) (s : σ) :
    serveAll service (requests ++ rest) s =
      serveAll service rest (serveAll service requests s) := by
  induction requests generalizing s with
  | nil => rfl
  | cons r requests ih => exact ih (service r.1 r.2 s).2

theorem session_serves {σ : Type} (service : Service (Request ρ) σ) (calls : List (Call ρ))
    (s : σ) :
    (session (fun c => remotely env service c.bundleName c.link c.request) calls s).2 =
      serveAll service (calls.filterMap (Call.delivered env)) s := by
  induction calls generalizing s with
  | nil => rfl
  | cons c calls ih =>
      have hcons : (c :: calls).filterMap (Call.delivered env) =
          (c.delivered env).toList ++ calls.filterMap (Call.delivered env) := by
        rw [List.filterMap_cons]
        cases c.delivered env <;> rfl
      rw [hcons, serveAll_append, ← remotely_serves service c s]
      exact ih _

/-- The service has done what has been delivered to it, each request once and in order. -/
theorem proxySession_serves {ops : ParcelOps ρ} (lawful : ops.Lawful) (env : Env) {σ : Type}
    (service : Service (Request ρ) σ) (calls : List (Call ρ)) (s : σ) :
    (proxySession ops env service calls s).2 =
      serveAll service (calls.filterMap (Call.delivered env)) s := by
  rw [proxySession, run_call lawful service]
  exact session_serves service calls s

end TelephonySms.Ipc
