import TelephonySms.Parcel

/-! # The interface of the SMS service

The methods of `ISmsServiceInterface`, which the proxy of a client and the service have in
common, and the form in which a short message goes through a parcel. A method with a parameter
that it may change takes the value that is there and answers with the value that it leaves.
-/

namespace TelephonySms.Ipc

abbrev String16 := List UInt16
abbrev Octets := List UInt8

/-- What the code has from elsewhere: the slots of the device, the error codes of the
subsystem, and the conversions of the base library. -/
structure Env where
  defaultSimSlotId : Int32
  simSlotCount : Int32
  TELEPHONY_ERR_LOCAL_PTR_NULL : Int32
  TELEPHONY_ERR_IPC_CONNECT_STUB_FAIL : Int32
  TELEPHONY_ERR_ARGUMENT_INVALID : Int32
  TELEPHONY_ERR_DESCRIPTOR_MISMATCH : Int32
  SMS_MMS_ERR_OFFSET : Int32
  descriptor : String16
  toUtf8 : String16 → Octets
  toUtf16 : Octets → String16

def TELEPHONY_ERR_SUCCESS : Int32 := 0

def Env.SMS_MMS_MESSAGE_LENGTH_OUT_OF_RANGE (env : Env) : Int32 := env.SMS_MMS_ERR_OFFSET + 2

/-! ## Reads -/

section Read

open Exchange

variable {ρ : Type} {C : Type → Type}

def readBool : Exchange ρ C Bool := readValue .bool false
def readUint8 : Exchange ρ C UInt8 := readValue .uint8 0
def readInt16 : Exchange ρ C Int16 := readValue .int16 0
def readInt32 : Exchange ρ C Int32 := readValue .int32 0
def readUint32 : Exchange ρ C UInt32 := readValue .uint32 0
def readInt64 : Exchange ρ C Int64 := readValue .int64 0
def readString : Exchange ρ C Octets := readValue .string []
def readString16 : Exchange ρ C String16 := readValue .string16 []
def readRemoteObject : Exchange ρ C (Option ρ) := .read .remoteObject .done

variable {α σ : Type} {service : Service C σ} {data reply : List (Item ρ)} {s : σ}

@[simp] theorem onItems_readBool (value : Bool) (f : Bool → Exchange ρ C α) :
    (readBool >>= f).onItems service (⟨.bool, value⟩ :: data) reply s =
      (f value).onItems service data reply s :=
  onItems_readValue .bool value false f

@[simp] theorem onItems_readUint8 (value : UInt8) (f : UInt8 → Exchange ρ C α) :
    (readUint8 >>= f).onItems service (⟨.uint8, value⟩ :: data) reply s =
      (f value).onItems service data reply s :=
  onItems_readValue .uint8 value 0 f

@[simp] theorem onItems_readInt16 (value : Int16) (f : Int16 → Exchange ρ C α) :
    (readInt16 >>= f).onItems service (⟨.int16, value⟩ :: data) reply s =
      (f value).onItems service data reply s :=
  onItems_readValue .int16 value 0 f

@[simp] theorem onItems_readInt32 (value : Int32) (f : Int32 → Exchange ρ C α) :
    (readInt32 >>= f).onItems service (⟨.int32, value⟩ :: data) reply s =
      (f value).onItems service data reply s :=
  onItems_readValue .int32 value 0 f

@[simp] theorem onItems_readUint32 (value : UInt32) (f : UInt32 → Exchange ρ C α) :
    (readUint32 >>= f).onItems service (⟨.uint32, value⟩ :: data) reply s =
      (f value).onItems service data reply s :=
  onItems_readValue .uint32 value 0 f

@[simp] theorem onItems_readInt64 (value : Int64) (f : Int64 → Exchange ρ C α) :
    (readInt64 >>= f).onItems service (⟨.int64, value⟩ :: data) reply s =
      (f value).onItems service data reply s :=
  onItems_readValue .int64 value 0 f

@[simp] theorem onItems_readString (value : Octets) (f : Octets → Exchange ρ C α) :
    (readString >>= f).onItems service (⟨.string, value⟩ :: data) reply s =
      (f value).onItems service data reply s :=
  onItems_readValue .string value [] f

@[simp] theorem onItems_readString16 (value : String16) (f : String16 → Exchange ρ C α) :
    (readString16 >>= f).onItems service (⟨.string16, value⟩ :: data) reply s =
      (f value).onItems service data reply s :=
  onItems_readValue .string16 value [] f

@[simp] theorem onItems_readRemoteObject (object : ρ) (f : Option ρ → Exchange ρ C α) :
    (readRemoteObject >>= f).onItems service (⟨.remoteObject, object⟩ :: data) reply s =
      (f (some object)).onItems service data reply s :=
  onItems_read .remoteObject object f

/-- A string stays where it is when a callback is to be read. -/
@[simp] theorem onItems_readRemoteObject_string (value : Octets)
    (f : Option ρ → Exchange ρ C α) :
    (readRemoteObject >>= f).onItems service (⟨.string, value⟩ :: data) reply s =
      (f none).onItems service (⟨.string, value⟩ :: data) reply s := rfl

theorem readInt32_takes (value : Int32) :
    (readInt32 : Exchange ρ C Int32).Takes [⟨.int32, value⟩] value :=
  readValue_takes .int32 0 value

theorem readString16_takes (value : String16) :
    (readString16 : Exchange ρ C String16).Takes [⟨.string16, value⟩] value :=
  readValue_takes .string16 [] value

end Read

/-! ## Short messages -/

inductive SmsMessageClass where
  | SMS_INSTANT_MESSAGE
  | SMS_OPTIONAL_MESSAGE
  | SMS_SIM_MESSAGE
  | SMS_FORWARD_MESSAGE
  | SMS_CLASS_UNKNOWN
  deriving DecidableEq, Repr

namespace SmsMessageClass

def code : SmsMessageClass → Int8
  | SMS_INSTANT_MESSAGE => 0
  | SMS_OPTIONAL_MESSAGE => 1
  | SMS_SIM_MESSAGE => 2
  | SMS_FORWARD_MESSAGE => 3
  | SMS_CLASS_UNKNOWN => 4

/-- `static_cast` of a code. -/
def ofCode (code : Int8) : SmsMessageClass :=
  if code = 0 then SMS_INSTANT_MESSAGE
  else if code = 1 then SMS_OPTIONAL_MESSAGE
  else if code = 2 then SMS_SIM_MESSAGE
  else if code = 3 then SMS_FORWARD_MESSAGE
  else SMS_CLASS_UNKNOWN

theorem ofCode_code (messageClass : SmsMessageClass) : ofCode messageClass.code = messageClass := by
  cases messageClass <;> rfl

end SmsMessageClass

inductive SmsSimMessageStatus where
  | SMS_SIM_MESSAGE_STATUS_FREE
  | SMS_SIM_MESSAGE_STATUS_READ
  | SMS_SIM_MESSAGE_STATUS_UNREAD
  | SMS_SIM_MESSAGE_STATUS_SENT
  | SMS_SIM_MESSAGE_STATUS_UNSENT
  deriving DecidableEq, Repr

namespace SmsSimMessageStatus

def code : SmsSimMessageStatus → Int8
  | SMS_SIM_MESSAGE_STATUS_FREE => 0
  | SMS_SIM_MESSAGE_STATUS_READ => 1
  | SMS_SIM_MESSAGE_STATUS_UNREAD => 3
  | SMS_SIM_MESSAGE_STATUS_SENT => 5
  | SMS_SIM_MESSAGE_STATUS_UNSENT => 7

/-- `static_cast` of a code. -/
def ofCode (code : Int8) : SmsSimMessageStatus :=
  if code = 1 then SMS_SIM_MESSAGE_STATUS_READ
  else if code = 3 then SMS_SIM_MESSAGE_STATUS_UNREAD
  else if code = 5 then SMS_SIM_MESSAGE_STATUS_SENT
  else if code = 7 then SMS_SIM_MESSAGE_STATUS_UNSENT
  else SMS_SIM_MESSAGE_STATUS_FREE

theorem ofCode_code (status : SmsSimMessageStatus) : ofCode status.code = status := by
  cases status <;> rfl

end SmsSimMessageStatus

structure ShortMessage where
  visibleMessageBody : String16 := []
  visibleRawAddress : String16 := []
  messageClass : SmsMessageClass := .SMS_CLASS_UNKNOWN
  simMessageStatus : SmsSimMessageStatus := .SMS_SIM_MESSAGE_STATUS_FREE
  scAddress : String16 := []
  scTimestamp : Int64 := 0
  isReplaceMessage : Bool := false
  status : Int32 := -1
  isSmsStatusReportMessage : Bool := false
  hasReplyPath : Bool := false
  protocolId : Int32 := -1
  pdu : Octets := []
  rawUserData : Octets := []
  indexOnSim : Int32 := 0
  deriving DecidableEq, Repr

namespace ShortMessage

variable {ρ : Type} {C : Type → Type}

/-- What `Marshalling` writes. -/
def marshalling (message : ShortMessage) : List (Item ρ) := [
  ⟨.string16, message.visibleMessageBody⟩,
  ⟨.string16, message.visibleRawAddress⟩,
  ⟨.int8, message.messageClass.code⟩,
  ⟨.int8, message.simMessageStatus.code⟩,
  ⟨.string16, message.scAddress⟩,
  ⟨.int64, message.scTimestamp⟩,
  ⟨.bool, message.isReplaceMessage⟩,
  ⟨.int32, message.status⟩,
  ⟨.bool, message.isSmsStatusReportMessage⟩,
  ⟨.bool, message.hasReplyPath⟩,
  ⟨.int32, message.protocolId⟩,
  ⟨.uint8Vector, message.pdu⟩,
  ⟨.string, message.rawUserData⟩,
  ⟨.int32, message.indexOnSim⟩]

/-- A field of `ReadFromParcel`: the fields behind one that is not found are not read. -/
def readField (kind : ItemKind) (set : ShortMessage → kind.Value ρ → ShortMessage) :
    Bool × ShortMessage → Exchange ρ C (Bool × ShortMessage)
  | (false, message) => pure (false, message)
  | (true, message) => .read kind fun found =>
      match found with
      | none => pure (false, message)
      | some value => pure (true, set message value)

def readFromParcel (message : ShortMessage) : Exchange ρ C (Bool × ShortMessage) := do
  let m ← readField .string16 (fun m v => { m with visibleMessageBody := v }) (true, message)
  let m ← readField .string16 (fun m v => { m with visibleRawAddress := v }) m
  let m ← readField .int8 (fun m v => { m with messageClass := .ofCode v }) m
  let m ← readField .int8 (fun m v => { m with simMessageStatus := .ofCode v }) m
  let m ← readField .string16 (fun m v => { m with scAddress := v }) m
  let m ← readField .int64 (fun m v => { m with scTimestamp := v }) m
  let m ← readField .bool (fun m v => { m with isReplaceMessage := v }) m
  let m ← readField .int32 (fun m v => { m with status := v }) m
  let m ← readField .bool (fun m v => { m with isSmsStatusReportMessage := v }) m
  let m ← readField .bool (fun m v => { m with hasReplyPath := v }) m
  let m ← readField .int32 (fun m v => { m with protocolId := v }) m
  let m ← readField .uint8Vector (fun m v => { m with pdu := v }) m
  let m ← readField .string (fun m v => { m with rawUserData := v }) m
  readField .int32 (fun m v => { m with indexOnSim := v }) m

def unMarshalling : Exchange ρ C ShortMessage := do
  let (_, message) ← readFromParcel {}
  pure message

theorem readField_takes (kind : ItemKind) (set : ShortMessage → kind.Value ρ → ShortMessage)
    (message : ShortMessage) (value : kind.Value ρ) :
    (readField kind set (true, message) : Exchange ρ C _).Takes [⟨kind, value⟩]
      (true, set message value) :=
  ⟨fun _ _ _ _ _ => dif_pos rfl⟩

/-- A message that is marshalled is read, whatever was there before. -/
theorem readFromParcel_takes (old message : ShortMessage) :
    (readFromParcel old : Exchange ρ C _).Takes message.marshalling (true, message) := by
  have hlast : (readField .int32 (fun m v => { m with indexOnSim := v })
      (true, { message with
        messageClass := .ofCode message.messageClass.code
        simMessageStatus := .ofCode message.simMessageStatus.code
        indexOnSim := old.indexOnSim }) : Exchange ρ C _).Takes
          [⟨.int32, message.indexOnSim⟩] (true, message) := by
    rw [SmsMessageClass.ofCode_code, SmsSimMessageStatus.ofCode_code]
    exact readField_takes .int32 _ _ _
  rw [readFromParcel, marshalling]
  iterate 13
    apply Exchange.Takes.cons (readField_takes _ _ _ _)
  exact hlast

theorem unMarshalling_takes (message : ShortMessage) :
    (unMarshalling : Exchange ρ C _).Takes message.marshalling message := by
  rw [← List.append_nil message.marshalling]
  exact (readFromParcel_takes {} message).bind (.pure message)

end ShortMessage

/-! ## Methods -/

structure SmsSegmentsInfo where
  msgSegCount : Int32 := 0
  msgEncodingCount : Int32 := 0
  msgRemainCount : Int32 := 0
  /-- the code of the scheme, which is only cast -/
  msgCodeScheme : Int32 := 0
  deriving DecidableEq, Repr

/-- The form of a parcel. -/
def SmsSegmentsInfo.items {ρ : Type} (segInfo : SmsSegmentsInfo) : List (Item ρ) :=
  [⟨.int32, segInfo.msgSegCount⟩, ⟨.int32, segInfo.msgEncodingCount⟩,
    ⟨.int32, segInfo.msgRemainCount⟩, ⟨.int32, segInfo.msgCodeScheme⟩]

/-- A method of `ISmsServiceInterface` with its arguments, by what it answers. Callbacks are
remote objects or `nullptr`. -/
inductive Request (ρ : Type) : Type → Type where
  | sendMessage (slotId : Int32) (desAddr scAddr text : String16) (sendCallback : Option ρ)
      (deliverCallback : Option ρ) (isMmsApp : Bool) : Request ρ Int32
  | sendMessageWithoutSave (slotId : Int32) (desAddr scAddr text : String16)
      (sendCallback : Option ρ) (deliverCallback : Option ρ) : Request ρ Int32
  | sendData (slotId : Int32) (desAddr scAddr : String16) (port : UInt16) (data : Octets)
      (dataLen : UInt16) (sendCallback : Option ρ) (deliverCallback : Option ρ) : Request ρ Int32
  | setSmscAddr (slotId : Int32) (scAddr : String16) : Request ρ Int32
  | getSmscAddr (slotId : Int32) (smscAddress : String16) : Request ρ (Int32 × String16)
  | addSimMessage (slotId : Int32) (smsc pdu : String16) (status : UInt32) : Request ρ Int32
  | delSimMessage (slotId : Int32) (msgIndex : UInt32) : Request ρ Int32
  | updateSimMessage (slotId : Int32) (msgIndex newStatus : UInt32) (pdu smsc : String16) :
      Request ρ Int32
  | getAllSimMessages (slotId : Int32) (message : List ShortMessage) :
      Request ρ (Int32 × List ShortMessage)
  | setCBConfig (slotId : Int32) (enable : Bool) (fromMsgId toMsgId : UInt32)
      (netType : UInt8) : Request ρ Int32
  | setCBConfigList (slotId : Int32) (messageIds : List Int32) (ranType : Int32) : Request ρ Int32
  | setImsSmsConfig (slotId enable : Int32) : Request ρ Bool
  | setDefaultSmsSlotId (slotId : Int32) : Request ρ Int32
  | getDefaultSmsSlotId : Request ρ Int32
  | getDefaultSmsSimId (simId : Int32) : Request ρ (Int32 × Int32)
  | splitMessage (message : String16) (splitMessage : List String16) :
      Request ρ (Int32 × List String16)
  | getSmsSegmentsInfo (slotId : Int32) (message : String16) (force7BitCode : Bool)
      (segInfo : SmsSegmentsInfo) : Request ρ (Int32 × SmsSegmentsInfo)
  | getSmsShortCodeType (slotId : Int32) (desAddr : Octets) (smsShortCodeType : Int32) :
      Request ρ (Int32 × Int32)
  | isImsSmsSupported (slotId : Int32) (isSupported : Bool) : Request ρ (Int32 × Bool)
  | getImsShortMessageFormat (format : String16) : Request ρ (Int32 × String16)
  | hasSmsCapability : Request ρ Bool
  | sendMms (slotId : Int32) (mmsc data ua uaprof : String16) (time : Int64) (isMmsApp : Bool) :
      Request ρ Int32
  | downloadMms (slotId : Int32) (mmsc data ua uaprof : String16) : Request ρ (Int32 × String16)
  | createMessage (pdu specification : Octets) (message : ShortMessage) :
      Request ρ (Int32 × ShortMessage)
  | getBase64Encode (src dest : Octets) : Request ρ (Bool × Octets)
  | getBase64Decode (src dest : Octets) : Request ρ (Bool × Octets)
  | getEncodeStringFunc (encodeString : Octets) (charset valLength : UInt32)
      (strEncodeString : Octets) : Request ρ (Bool × Octets)

inductive SmsServiceInterfaceCode where
  | TEXT_BASED_SMS_DELIVERY
  | SEND_SMS_TEXT_WITHOUT_SAVE
  | DATA_BASED_SMS_DELIVERY
  | SET_SMSC_ADDRESS
  | GET_SMSC_ADDRESS
  | ADD_SIM_MESSAGE
  | DEL_SIM_MESSAGE
  | UPDATE_SIM_MESSAGE
  | GET_ALL_SIM_MESSAGE
  | SET_CB_CONFIG
  | SET_CB_CONFIG_LIST
  | SET_IMS_SMS_CONFIG
  | SET_DEFAULT_SMS_SLOT_ID
  | GET_DEFAULT_SMS_SLOT_ID
  | GET_DEFAULT_SMS_SIM_ID
  | SPLIT_MESSAGE
  | GET_SMS_SEGMENTS_INFO
  | GET_IMS_SHORT_MESSAGE_FORMAT
  | IS_IMS_SMS_SUPPORTED
  | HAS_SMS_CAPABILITY
  | SEND_MMS
  | DOWNLOAD_MMS
  | CREATE_MESSAGE
  | MMS_BASE64_ENCODE
  | MMS_BASE64_DECODE
  | GET_ENCODE_STRING
  | GET_SMS_SHORT_CODE_TYPE
  deriving DecidableEq, Repr

end TelephonySms.Ipc
