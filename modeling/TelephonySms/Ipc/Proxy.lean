import TelephonySms.Ipc.Stub

/-! # The proxy of a client

`SmsServiceProxy` writes the arguments of a method to one parcel, sends it, and reads the
answer from another. Most methods do not look at what sending answers.
-/

namespace TelephonySms.Ipc

open Exchange

/-- Nothing is called while a reply is read. -/
inductive NoCall : Type → Type

/-- A method answers at once, or sends a request. It has an answer for a proxy that is not
connected, and reads the reply when sending has answered with a code. -/
inductive Client (ρ : Type) (α : Type) : Type 1 where
  | answer (a : α)
  | send (code : SmsServiceInterfaceCode) (data : List (Item ρ)) (unconnected : α)
      (receive : Int32 → Exchange ρ NoCall α)

/-! ## Sending -/

/-- How sending goes: there may be no remote object, and a failure has lost the request or,
when the handler has run, only its reply. -/
inductive Link where
  | unconnected
  | requestLost (errCode : Int32)
  | replyLost (errCode : Int32)
  | connected
  deriving DecidableEq, Repr

namespace Client

variable {ρ α σ : Type}

def noService : Service NoCall Unit := fun _ call _ => nomatch call

/-- A method of a proxy over such a link. -/
def run (ops : ParcelOps ρ) (env : Env) (service : Service (Request ρ) σ) (link : Link) :
    Client ρ α → σ → α × σ
  | answer a, s => (a, s)
  | send code data unconnected receive, s =>
      let handled := (SmsInterfaceStub.onRemoteRequest env code).onParcels ops service
        (ops.filled data) ops.new s
      let received := fun errCode reply =>
        ((receive errCode).onParcels ops noService reply ops.new ()).1
      match link with
      | .unconnected => (unconnected, s)
      | .requestLost errCode => (received errCode ops.new, s)
      | .replyLost errCode => (received errCode ops.new, handled.2.2)
      | .connected => (received handled.1 handled.2.1, handled.2.2)

end Client

/-! ## Methods -/

def MAX_LEN : Int32 := 10000

namespace SmsServiceProxy

variable {ρ : Type} (env : Env) (bundleName : Octets)

/-- A request starts with the descriptor of the interface. -/
def request {α : Type} (code : SmsServiceInterfaceCode) (arguments : List (Item ρ))
    (unconnected : α) (receive : Int32 → Exchange ρ NoCall α) : Client ρ α :=
  .send code (⟨.interfaceToken, env.descriptor⟩ :: arguments) unconnected receive

/-- A callback that is `nullptr` is not written. -/
def callback (object : Option ρ) : List (Item ρ) :=
  object.toList.map fun object => ⟨.remoteObject, object⟩

/-- A failure of sending is answered, and else the number that is read. -/
def readResult (errCode : Int32) : Exchange ρ NoCall Int32 :=
  if errCode ≠ TELEPHONY_ERR_SUCCESS then pure errCode else readInt32

/-- The result, and behind a success what the method has set. -/
def readAnswer {β : Type} (old : β) (read : Exchange ρ NoCall β) :
    Exchange ρ NoCall (Int32 × β) := do
  let result ← readInt32
  if result = TELEPHONY_ERR_SUCCESS then do
    let value ← read
    pure (result, value)
  else
    pure (result, old)

/-- The same for a list, which is put behind the one that is there. -/
def readListAnswer {β : Type} (old : List β) (read : Exchange ρ NoCall β) :
    Exchange ρ NoCall (Int32 × List β) := do
  let result ← readInt32
  if result ≠ TELEPHONY_ERR_SUCCESS then
    pure (result, old)
  else do
    let resultLen ← readInt32
    if resultLen ≥ MAX_LEN then
      pure (env.SMS_MMS_MESSAGE_LENGTH_OUT_OF_RANGE, old)
    else do
      let list ← times read resultLen.toNatClampNeg
      pure (result, old ++ list)

/-- Whether octets have been converted, and behind a success the octets. -/
def readOctets (dest : Octets) : Exchange ρ NoCall (Bool × Octets) := do
  let result ← readBool
  if !result then
    pure (result, dest)
  else do
    let converted ← readString16
    pure (result, env.toUtf8 converted)

def readSegmentsInfo : Exchange ρ NoCall SmsSegmentsInfo := do
  let msgSegCount ← readInt32
  let msgEncodingCount ← readInt32
  let msgRemainCount ← readInt32
  let msgCodeScheme ← readInt32
  pure { msgSegCount, msgEncodingCount, msgRemainCount, msgCodeScheme }

def sendMessage (slotId : Int32) (desAddr scAddr text : String16)
    (sendCallback deliverCallback : Option ρ) : Client ρ Int32 :=
  request env .TEXT_BASED_SMS_DELIVERY
    ([⟨.int32, slotId⟩, ⟨.string16, desAddr⟩, ⟨.string16, scAddr⟩, ⟨.string16, text⟩] ++
      callback sendCallback ++ callback deliverCallback ++ [⟨.string, bundleName⟩])
    env.TELEPHONY_ERR_IPC_CONNECT_STUB_FAIL readResult

def sendMessageWithoutSave (slotId : Int32) (desAddr scAddr text : String16)
    (sendCallback deliverCallback : Option ρ) : Client ρ Int32 :=
  request env .SEND_SMS_TEXT_WITHOUT_SAVE
    ([⟨.int32, slotId⟩, ⟨.string16, desAddr⟩, ⟨.string16, scAddr⟩, ⟨.string16, text⟩] ++
      callback sendCallback ++ callback deliverCallback ++ [⟨.string, bundleName⟩])
    env.TELEPHONY_ERR_IPC_CONNECT_STUB_FAIL readResult

/-- Here neither callback may be `nullptr`. Behind `data` there are at least `dataLen` octets. -/
def sendData (slotId : Int32) (desAddr scAddr : String16) (port : UInt16) (data : Octets)
    (dataLen : UInt16) : Option ρ → Option ρ → Client ρ Int32
  | some sendCallback, some deliverCallback =>
      request env .DATA_BASED_SMS_DELIVERY
        [⟨.int32, slotId⟩, ⟨.string16, desAddr⟩, ⟨.string16, scAddr⟩, ⟨.int16, port.toInt16⟩,
          ⟨.remoteObject, sendCallback⟩, ⟨.remoteObject, deliverCallback⟩,
          ⟨.int16, dataLen.toInt16⟩, ⟨.rawData, data.take dataLen.toNat⟩]
        env.TELEPHONY_ERR_IPC_CONNECT_STUB_FAIL readResult
  | _, _ => .answer env.TELEPHONY_ERR_LOCAL_PTR_NULL

def setSmscAddr (slotId : Int32) (scAddr : String16) : Client ρ Int32 :=
  request env .SET_SMSC_ADDRESS [⟨.int32, slotId⟩, ⟨.string16, scAddr⟩]
    env.TELEPHONY_ERR_IPC_CONNECT_STUB_FAIL fun _ => readInt32

def getSmscAddr (slotId : Int32) (smscAddress : String16) : Client ρ (Int32 × String16) :=
  request env .GET_SMSC_ADDRESS [⟨.int32, slotId⟩]
    (env.TELEPHONY_ERR_IPC_CONNECT_STUB_FAIL, smscAddress) fun error =>
      if error ≠ TELEPHONY_ERR_SUCCESS then
        pure (env.TELEPHONY_ERR_IPC_CONNECT_STUB_FAIL, smscAddress)
      else
        readAnswer smscAddress readString16

def addSimMessage (slotId : Int32) (smsc pdu : String16) (status : UInt32) : Client ρ Int32 :=
  request env .ADD_SIM_MESSAGE
    [⟨.int32, slotId⟩, ⟨.string16, smsc⟩, ⟨.string16, pdu⟩, ⟨.uint32, status⟩]
    env.TELEPHONY_ERR_IPC_CONNECT_STUB_FAIL fun _ => readInt32

def delSimMessage (slotId : Int32) (msgIndex : UInt32) : Client ρ Int32 :=
  request env .DEL_SIM_MESSAGE [⟨.int32, slotId⟩, ⟨.uint32, msgIndex⟩]
    env.TELEPHONY_ERR_IPC_CONNECT_STUB_FAIL fun _ => readInt32

def updateSimMessage (slotId : Int32) (msgIndex newStatus : UInt32) (pdu smsc : String16) :
    Client ρ Int32 :=
  request env .UPDATE_SIM_MESSAGE
    [⟨.int32, slotId⟩, ⟨.uint32, msgIndex⟩, ⟨.uint32, newStatus⟩, ⟨.string16, pdu⟩,
      ⟨.string16, smsc⟩]
    env.TELEPHONY_ERR_IPC_CONNECT_STUB_FAIL fun _ => readInt32

def getAllSimMessages (slotId : Int32) (message : List ShortMessage) :
    Client ρ (Int32 × List ShortMessage) :=
  request env .GET_ALL_SIM_MESSAGE [⟨.int32, slotId⟩]
    (env.TELEPHONY_ERR_IPC_CONNECT_STUB_FAIL, message)
    fun _ => readListAnswer env message ShortMessage.unMarshalling

def setCBConfig (slotId : Int32) (enable : Bool) (fromMsgId toMsgId : UInt32) (netType : UInt8) :
    Client ρ Int32 :=
  request env .SET_CB_CONFIG
    [⟨.int32, slotId⟩, ⟨.bool, enable⟩, ⟨.uint32, fromMsgId⟩, ⟨.uint32, toMsgId⟩,
      ⟨.uint8, netType⟩]
    env.TELEPHONY_ERR_IPC_CONNECT_STUB_FAIL fun _ => readInt32

def setCBConfigList (slotId : Int32) (messageIds : List Int32) (ranType : Int32) :
    Client ρ Int32 :=
  request env .SET_CB_CONFIG_LIST
    ([⟨.int32, slotId⟩, ⟨.int32, int32Size messageIds.length⟩] ++
      messageIds.map (fun messageId => ⟨.int32, messageId⟩) ++ [⟨.int32, ranType⟩])
    env.TELEPHONY_ERR_IPC_CONNECT_STUB_FAIL fun _ => readInt32

def setImsSmsConfig (slotId enable : Int32) : Client ρ Bool :=
  request env .SET_IMS_SMS_CONFIG [⟨.int32, slotId⟩, ⟨.int32, enable⟩] false fun _ => readBool

def setDefaultSmsSlotId (slotId : Int32) : Client ρ Int32 :=
  request env .SET_DEFAULT_SMS_SLOT_ID [⟨.int32, slotId⟩]
    env.TELEPHONY_ERR_IPC_CONNECT_STUB_FAIL fun _ => readInt32

def getDefaultSmsSlotId : Client ρ Int32 :=
  request env .GET_DEFAULT_SMS_SLOT_ID [] (-1) fun _ => readInt32

def getDefaultSmsSimId (simId : Int32) : Client ρ (Int32 × Int32) :=
  request env .GET_DEFAULT_SMS_SIM_ID [] (env.TELEPHONY_ERR_IPC_CONNECT_STUB_FAIL, simId)
    fun _ => readAnswer simId readInt32

def splitMessage (message : String16) (splitMessage : List String16) :
    Client ρ (Int32 × List String16) :=
  request env .SPLIT_MESSAGE [⟨.string16, message⟩]
    (env.TELEPHONY_ERR_IPC_CONNECT_STUB_FAIL, splitMessage)
    fun _ => readListAnswer env splitMessage readString16

def getSmsSegmentsInfo (slotId : Int32) (message : String16) (force7BitCode : Bool)
    (segInfo : SmsSegmentsInfo) : Client ρ (Int32 × SmsSegmentsInfo) :=
  request env .GET_SMS_SEGMENTS_INFO
    [⟨.int32, slotId⟩, ⟨.string16, message⟩, ⟨.bool, force7BitCode⟩]
    (env.TELEPHONY_ERR_IPC_CONNECT_STUB_FAIL, segInfo) fun _ => readAnswer segInfo readSegmentsInfo

/-- Whatever the service answers, this is a success. -/
def getSmsShortCodeType (slotId : Int32) (desAddr : Octets) (smsShortCodeType : Int32) :
    Client ρ (Int32 × Int32) :=
  request env .GET_SMS_SHORT_CODE_TYPE [⟨.int32, slotId⟩, ⟨.string, desAddr⟩]
    (env.TELEPHONY_ERR_IPC_CONNECT_STUB_FAIL, smsShortCodeType) fun _ => do
      let smsShortCodeType ← readInt32
      pure (TELEPHONY_ERR_SUCCESS, smsShortCodeType)

def isImsSmsSupported (slotId : Int32) (isSupported : Bool) : Client ρ (Int32 × Bool) :=
  request env .IS_IMS_SMS_SUPPORTED [⟨.int32, slotId⟩]
    (env.TELEPHONY_ERR_IPC_CONNECT_STUB_FAIL, isSupported)
    fun _ => readAnswer isSupported readBool

def getImsShortMessageFormat (format : String16) : Client ρ (Int32 × String16) :=
  request env .GET_IMS_SHORT_MESSAGE_FORMAT []
    (env.TELEPHONY_ERR_IPC_CONNECT_STUB_FAIL, format) fun _ => readAnswer format readString16

def hasSmsCapability : Client ρ Bool :=
  request env .HAS_SMS_CAPABILITY [] false fun _ => readBool

def sendMms (slotId : Int32) (mmsc data ua uaprof : String16) (time : Int64) : Client ρ Int32 :=
  request env .SEND_MMS
    [⟨.int32, slotId⟩, ⟨.string16, mmsc⟩, ⟨.string16, data⟩, ⟨.string16, ua⟩,
      ⟨.string16, uaprof⟩, ⟨.int64, time⟩, ⟨.string, bundleName⟩]
    env.TELEPHONY_ERR_IPC_CONNECT_STUB_FAIL readResult

def downloadMms (slotId : Int32) (mmsc data ua uaprof : String16) :
    Client ρ (Int32 × String16) :=
  request env .DOWNLOAD_MMS
    [⟨.int32, slotId⟩, ⟨.string16, mmsc⟩, ⟨.string16, data⟩, ⟨.string16, ua⟩,
      ⟨.string16, uaprof⟩]
    (env.TELEPHONY_ERR_IPC_CONNECT_STUB_FAIL, data) fun _ => readAnswer data readString16

def createMessage (pdu specification : Octets) (message : ShortMessage) :
    Client ρ (Int32 × ShortMessage) :=
  if pdu = [] ∨ specification = [] then .answer (env.TELEPHONY_ERR_ARGUMENT_INVALID, message)
  else
    request env .CREATE_MESSAGE [⟨.string, pdu⟩, ⟨.string, specification⟩]
      (env.TELEPHONY_ERR_IPC_CONNECT_STUB_FAIL, message) fun _ => do
        let result ← readInt32
        if result ≠ TELEPHONY_ERR_SUCCESS then
          pure (result, message)
        else do
          let (found, message) ← message.readFromParcel
          if !found then
            pure (env.TELEPHONY_ERR_LOCAL_PTR_NULL, message)
          else
            pure (result, message)

def getBase64Encode (src dest : Octets) : Client ρ (Bool × Octets) :=
  if src = [] then .answer (false, dest)
  else
    request env .MMS_BASE64_ENCODE [⟨.string16, env.toUtf16 src⟩] (false, dest)
      fun _ => readOctets env dest

def getBase64Decode (src dest : Octets) : Client ρ (Bool × Octets) :=
  if src = [] then .answer (false, dest)
  else
    request env .MMS_BASE64_DECODE [⟨.string16, env.toUtf16 src⟩] (false, dest)
      fun _ => readOctets env dest

def getEncodeStringFunc (encodeString : Octets) (charset valLength : UInt32)
    (strEncodeString : Octets) : Client ρ (Bool × Octets) :=
  if strEncodeString = [] then .answer (false, encodeString)
  else
    request env .GET_ENCODE_STRING
      [⟨.uint32, charset⟩, ⟨.uint32, valLength⟩, ⟨.string16, env.toUtf16 strEncodeString⟩]
      (false, encodeString) fun _ => readOctets env encodeString

/-- The methods that the proxy overrides. `isMmsApp` is not looked at: the service finds out
from the name of the bundle. -/
def method {α : Type} : Request ρ α → Client ρ α
  | .sendMessage slotId desAddr scAddr text sendCallback deliverCallback _ =>
      sendMessage env bundleName slotId desAddr scAddr text sendCallback deliverCallback
  | .sendMessageWithoutSave slotId desAddr scAddr text sendCallback deliverCallback =>
      sendMessageWithoutSave env bundleName slotId desAddr scAddr text sendCallback
        deliverCallback
  | .sendData slotId desAddr scAddr port data dataLen sendCallback deliverCallback =>
      sendData env slotId desAddr scAddr port data dataLen sendCallback deliverCallback
  | .setSmscAddr slotId scAddr => setSmscAddr env slotId scAddr
  | .getSmscAddr slotId smscAddress => getSmscAddr env slotId smscAddress
  | .addSimMessage slotId smsc pdu status => addSimMessage env slotId smsc pdu status
  | .delSimMessage slotId msgIndex => delSimMessage env slotId msgIndex
  | .updateSimMessage slotId msgIndex newStatus pdu smsc =>
      updateSimMessage env slotId msgIndex newStatus pdu smsc
  | .getAllSimMessages slotId message => getAllSimMessages env slotId message
  | .setCBConfig slotId enable fromMsgId toMsgId netType =>
      setCBConfig env slotId enable fromMsgId toMsgId netType
  | .setCBConfigList slotId messageIds ranType => setCBConfigList env slotId messageIds ranType
  | .setImsSmsConfig slotId enable => setImsSmsConfig env slotId enable
  | .setDefaultSmsSlotId slotId => setDefaultSmsSlotId env slotId
  | .getDefaultSmsSlotId => getDefaultSmsSlotId env
  | .getDefaultSmsSimId simId => getDefaultSmsSimId env simId
  | .splitMessage message messages => splitMessage env message messages
  | .getSmsSegmentsInfo slotId message force7BitCode segInfo =>
      getSmsSegmentsInfo env slotId message force7BitCode segInfo
  | .getSmsShortCodeType slotId desAddr smsShortCodeType =>
      getSmsShortCodeType env slotId desAddr smsShortCodeType
  | .isImsSmsSupported slotId isSupported => isImsSmsSupported env slotId isSupported
  | .getImsShortMessageFormat format => getImsShortMessageFormat env format
  | .hasSmsCapability => hasSmsCapability env
  | .sendMms slotId mmsc data ua uaprof time _ =>
      sendMms env bundleName slotId mmsc data ua uaprof time
  | .downloadMms slotId mmsc data ua uaprof => downloadMms env slotId mmsc data ua uaprof
  | .createMessage pdu specification message => createMessage env pdu specification message
  | .getBase64Encode src dest => getBase64Encode env src dest
  | .getBase64Decode src dest => getBase64Decode env src dest
  | .getEncodeStringFunc encodeString charset valLength strEncodeString =>
      getEncodeStringFunc env encodeString charset valLength strEncodeString

end SmsServiceProxy

end TelephonySms.Ipc
