import Mathlib.Algebra.Group.Nat.Defs
import TelephonySms.Ipc.RemoteCall

/-! # What passes the stub

A client need not be a proxy: it may send any parcel with any code. Whatever it sends, the
service is asked at most once, and only for what the stub has checked.
-/

namespace TelephonySms.Ipc

open Exchange

variable {ρ α σ : Type}

/-- What the stub has made sure of before the service is called. -/
def Request.Admissible (env : Env) : Request ρ α → Prop
  | sendMessage slotId desAddr _ _ _ _ _ =>
      env.isValidSlotId slotId = true ∧ (desAddr.length < MAX_ADDRESS_LEN → 0x20 ∉ desAddr)
  | sendMessageWithoutSave slotId desAddr _ _ _ _ =>
      env.isValidSlotId slotId = true ∧ (desAddr.length < MAX_ADDRESS_LEN → 0x20 ∉ desAddr)
  | sendData slotId desAddr _ _ _ dataLen _ _ =>
      env.isValidSlotId slotId = true ∧ (desAddr.length < MAX_ADDRESS_LEN → 0x20 ∉ desAddr) ∧
        0 < dataLen.toNat ∧ dataLen.toNat < 2 ^ 15
  | addSimMessage _ _ _ status => status ≤ SIM_MESSAGE_STATUS_SENT
  | updateSimMessage _ _ newStatus _ _ => newStatus ≤ SIM_MESSAGE_STATUS_SENT
  | setCBConfigList _ messageIds _ => messageIds.length ≤ 256
  | getEncodeStringFunc _ _ valLength strEncodeString => valLength.toNat = strEncodeString.length
  | _ => True

/-! ## The arguments -/

theorem space_not_mem_removeSpaces (desAddr : String16)
    (h : (removeSpacesInDesAddr desAddr).length < MAX_ADDRESS_LEN) :
    0x20 ∉ removeSpacesInDesAddr desAddr := by
  rw [removeSpacesInDesAddr] at h ⊢
  split
  · rename_i hkept
    rw [if_pos hkept] at h
    rcases hkept with hempty | hlong
    · rw [hempty]
      exact List.not_mem_nil
    · omega
  · simp

theorem toUInt16_of_not_lt {dataLen : Int16} (h : ¬ dataLen < 1) :
    0 < dataLen.toUInt16.toNat ∧ dataLen.toUInt16.toNat < 2 ^ 15 := by
  rw [Int16.lt_iff_toInt_lt, Int16.toInt_one] at h
  have hint : dataLen.toInt = dataLen.toUInt16.toBitVec.toInt := rfl
  have hnat : dataLen.toUInt16.toBitVec.toNat = dataLen.toUInt16.toNat := rfl
  have hlt := dataLen.toUInt16.toNat_lt
  rw [hint, BitVec.toInt_eq_toNat_cond, hnat] at h
  split at h <;> omega

theorem toNatClampNeg_le_of_not_gt {size : Int32} (h : ¬ size > CB_RANGE_LIST_MAX_SIZE) :
    size.toNatClampNeg ≤ 256 := by
  have hmax : CB_RANGE_LIST_MAX_SIZE.toInt = 256 := rfl
  have hle := mt Int32.lt_iff_toInt_lt.mpr h
  rw [Int32.toNatClampNeg]
  omega

/-! ## The handlers -/

section Rules

variable {C : Type → Type} {P : ∀ {β : Type}, C β → Prop}

theorem readValue_once {kind : ItemKind} {start : kind.Value ρ}
    {f : kind.Value ρ → Exchange ρ C α} (h : ∀ value, (f value).CallsOnce P) :
    (readValue kind start >>= f).CallsOnce P :=
  fun value => h (value.getD start)

theorem readRemoteObject_once {f : Option ρ → Exchange ρ C α}
    (h : ∀ object, (f object).CallsOnce P) : (readRemoteObject >>= f).CallsOnce P :=
  h

theorem writeAnswer_silent {β : Type} {write : β → Exchange ρ C Unit}
    (hwrite : ∀ b, (write b).Silent fun _ => True) (answer : Int32 × β) :
    (SmsInterfaceStub.writeAnswer write answer).Silent fun _ => True := by
  show Silent _ (ite _ _ _)
  split
  · exact trivial
  · exact hwrite answer.2

theorem writeOctets_silent {env : Env} (answer : Bool × Octets) :
    (SmsInterfaceStub.writeOctets env answer : Exchange ρ C Unit).Silent fun _ => True := by
  show Silent _ (ite _ _ _)
  split
  · exact trivial
  · exact trivial

end Rules

/-- Every call of a handler is one that has been checked. -/
theorem memberFunc_once (env : Env) (code : SmsServiceInterfaceCode) :
    (SmsInterfaceStub.memberFunc env code : Exchange ρ (Request ρ) Unit).CallsOnce
      fun request => request.Admissible env := by
  cases code with
  | TEXT_BASED_SMS_DELIVERY =>
      refine readValue_once fun slotId => readValue_once fun desAddr => readValue_once fun scAddr =>
        readValue_once fun text => ?_
      split
      · exact trivial
      · rename_i hslot
        refine readRemoteObject_once fun sendCallback => readRemoteObject_once fun deliver =>
          readValue_once fun bundleName => CallsOnce.call ⟨?_, ?_⟩ fun _ => trivial
        · simpa using hslot
        · exact space_not_mem_removeSpaces desAddr
  | SEND_SMS_TEXT_WITHOUT_SAVE =>
      refine readValue_once fun slotId => readValue_once fun desAddr => readValue_once fun scAddr =>
        readValue_once fun text => ?_
      split
      · exact trivial
      · rename_i hslot
        refine readRemoteObject_once fun sendCallback => readRemoteObject_once fun deliver =>
          readValue_once fun bundleName => CallsOnce.call ⟨?_, ?_⟩ fun _ => trivial
        · simpa using hslot
        · exact space_not_mem_removeSpaces desAddr
  | DATA_BASED_SMS_DELIVERY =>
      refine readValue_once fun slotId => readValue_once fun desAddr => readValue_once fun scAddr =>
        readValue_once fun port => ?_
      split
      · exact trivial
      · rename_i hslot
        refine readRemoteObject_once fun sendCallback => readRemoteObject_once fun deliver =>
          readValue_once fun dataLen => ?_
        split
        · exact trivial
        · rename_i hlen
          intro buffer
          cases buffer with
          | none => exact trivial
          | some buffer =>
              refine CallsOnce.call ⟨?_, ?_, toUInt16_of_not_lt hlen⟩ fun _ => trivial
              · simpa using hslot
              · exact space_not_mem_removeSpaces desAddr
  | ADD_SIM_MESSAGE =>
      refine readValue_once fun slotId => readValue_once fun smsc => readValue_once fun pdu =>
        readValue_once fun status => ?_
      split
      · exact trivial
      · rename_i hstatus
        exact CallsOnce.call (UInt32.not_lt.mp fun h => hstatus (.inl h)) fun _ => trivial
  | UPDATE_SIM_MESSAGE =>
      refine readValue_once fun slotId => readValue_once fun msgIndex =>
        readValue_once fun newStatus => readValue_once fun pdu => readValue_once fun smsc => ?_
      split
      · exact trivial
      · rename_i hstatus
        exact CallsOnce.call (UInt32.not_lt.mp fun h => hstatus (.inl h)) fun _ => trivial
  | SET_CB_CONFIG_LIST =>
      refine readValue_once fun slotId => readValue_once fun messageIdsSize => ?_
      split
      · exact trivial
      · rename_i hsize
        apply CallsOnce.bind (times_silent (readValue_silent .int32 0) _)
        intro messageIds hlength
        refine readValue_once fun ranType => CallsOnce.call ?_ fun _ => trivial
        show messageIds.length ≤ 256
        rw [hlength]
        exact toNatClampNeg_le_of_not_gt hsize
  | GET_ENCODE_STRING =>
      refine readValue_once fun charset => readValue_once fun valLength =>
        readValue_once fun strEncodeString => ?_
      show CallsOnce _ (ite _ _ _)
      split
      · exact trivial
      · rename_i hlength
        have hadmissible : valLength.toNat = (env.toUtf8 strEncodeString).length :=
          Decidable.not_not.mp hlength
        exact CallsOnce.call hadmissible writeOctets_silent
  | MMS_BASE64_ENCODE | MMS_BASE64_DECODE =>
      exact readValue_once fun src => CallsOnce.call trivial writeOctets_silent
  | GET_ALL_SIM_MESSAGE =>
      exact readValue_once fun slotId => CallsOnce.call trivial
        (writeAnswer_silent fun message => writeAll_silent (message.flatMap _))
  | SPLIT_MESSAGE =>
      exact readValue_once fun message => CallsOnce.call trivial
        (writeAnswer_silent fun splitMessage => writeAll_silent (splitMessage.flatMap _))
  | CREATE_MESSAGE =>
      exact readValue_once fun pdu => readValue_once fun specification => CallsOnce.call trivial
        (writeAnswer_silent fun message => writeAll_silent message.marshalling)
  | GET_SMS_SEGMENTS_INFO =>
      exact readValue_once fun slotId => readValue_once fun message =>
        readValue_once fun force7BitCode => CallsOnce.call trivial
          (writeAnswer_silent fun segInfo => writeAll_silent segInfo.items)
  | GET_SMSC_ADDRESS | IS_IMS_SMS_SUPPORTED =>
      exact readValue_once fun slotId => CallsOnce.call trivial
        (writeAnswer_silent fun _ => trivial)
  | GET_DEFAULT_SMS_SIM_ID | GET_IMS_SHORT_MESSAGE_FORMAT =>
      exact CallsOnce.call trivial (writeAnswer_silent fun _ => trivial)
  | GET_SMS_SHORT_CODE_TYPE =>
      refine readValue_once fun slotId => readValue_once fun desAddr => CallsOnce.call trivial ?_
      intro answer
      show Silent _ (ite _ _ _)
      split
      · exact trivial
      · exact trivial
  | GET_DEFAULT_SMS_SLOT_ID | HAS_SMS_CAPABILITY =>
      exact CallsOnce.call trivial fun _ => trivial
  | SET_DEFAULT_SMS_SLOT_ID =>
      exact readValue_once fun _ => CallsOnce.call trivial fun _ => trivial
  | SET_SMSC_ADDRESS | DEL_SIM_MESSAGE | SET_IMS_SMS_CONFIG =>
      exact readValue_once fun _ => readValue_once fun _ => CallsOnce.call trivial fun _ => trivial
  | SET_CB_CONFIG | DOWNLOAD_MMS =>
      exact readValue_once fun _ => readValue_once fun _ => readValue_once fun _ =>
        readValue_once fun _ => readValue_once fun _ => CallsOnce.call trivial fun _ => trivial
  | SEND_MMS =>
      exact readValue_once fun _ => readValue_once fun _ => readValue_once fun _ =>
        readValue_once fun _ => readValue_once fun _ => readValue_once fun _ =>
          readValue_once fun _ => CallsOnce.call trivial fun _ => trivial

/-! ## Runs -/

/-- Whether a parcel starts with the descriptor of the interface. -/
def hasDescriptor (ops : ParcelOps ρ) (env : Env) (data : ops.Parcel) : Bool :=
  env.descriptor == (ops.read .interfaceToken data).1.getD []

/-- The service after such parcels have come in. -/
def handleAll (ops : ParcelOps ρ) (env : Env) (service : Service (Request ρ) σ) :
    List (SmsServiceInterfaceCode × ops.Parcel) → σ → σ
  | [], s => s
  | (code, data) :: incoming, s =>
      handleAll ops env service incoming
        ((SmsInterfaceStub.onRemoteRequest env code).onParcels ops service data ops.new s).2.2

/-- What one parcel does to the service. -/
theorem onRemoteRequest_serves (ops : ParcelOps ρ) (env : Env) (service : Service (Request ρ) σ)
    (code : SmsServiceInterfaceCode) (data : ops.Parcel) (s : σ) :
    ∃ requests : List (Sigma fun α : Type => Request ρ α),
      (∀ r ∈ requests, r.2.Admissible env) ∧
      requests.length ≤ (hasDescriptor ops env data).toNat ∧
      ((SmsInterfaceStub.onRemoteRequest env code).onParcels ops service data ops.new s).2.2 =
        serveAll service requests s := by
  have hread : (SmsInterfaceStub.onRemoteRequest env code).onParcels ops service data ops.new s =
      (if env.descriptor ≠ (ops.read .interfaceToken data).1.getD [] then
        pure env.TELEPHONY_ERR_DESCRIPTOR_MISMATCH
      else do
        SmsInterfaceStub.memberFunc env code
        pure TELEPHONY_ERR_SUCCESS).onParcels ops service
          (ops.read .interfaceToken data).2 ops.new s := rfl
  rw [hread]
  by_cases hdescriptor : env.descriptor = (ops.read .interfaceToken data).1.getD []
  · rw [if_neg (not_not_intro hdescriptor)]
    have hone : (hasDescriptor ops env data).toNat = 1 := by
      rw [hasDescriptor, ← hdescriptor, beq_self_eq_true]
      rfl
    have honce := (@memberFunc_once ρ env code).bind_silent
      (f := fun _ => pure TELEPHONY_ERR_SUCCESS) fun _ => trivial
    rcases honce.onParcels ops service (ops.read .interfaceToken data).2 ops.new s with
      hsame | ⟨β, request, hadmissible, hserved⟩
    · exact ⟨[], List.forall_mem_nil _, Nat.zero_le _, hsame⟩
    · refine ⟨[⟨β, request⟩], ?_, Nat.le_of_eq hone.symm, hserved⟩
      intro r hr
      rw [List.mem_singleton.mp hr]
      exact hadmissible
  · rw [if_pos hdescriptor]
    exact ⟨[], List.forall_mem_nil _, Nat.zero_le _, rfl⟩

end TelephonySms.Ipc
