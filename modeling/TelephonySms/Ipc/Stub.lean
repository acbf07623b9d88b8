import TelephonySms.Ipc.Interface

/-! # The stub of the service

`SmsInterfaceStub` takes the arguments of a request from one parcel, calls the service and
writes what it answers to another. A handler that finds its arguments wrong returns without
writing anything.
-/

namespace TelephonySms.Ipc

open Exchange

def MAX_ADDRESS_LEN : Nat := 21
def CB_RANGE_LIST_MAX_SIZE : Int32 := 256
def SMS_SHORT_CODE_TYPE_UNKNOWN : Int32 := -1
def SIM_MESSAGE_STATUS_UNREAD : UInt32 := 0
def SIM_MESSAGE_STATUS_SENT : UInt32 := 3

/-- `com.ohos.mms` -/
def MMS_APP : Octets := "com.ohos.mms".toList.map fun c => c.toNat.toUInt8

def Env.isValidSlotId (env : Env) (slotId : Int32) : Bool :=
  slotId ≥ env.defaultSimSlotId && slotId < env.simSlotCount

/-- The loop keeps what is not a space. An address that is too long keeps its spaces. -/
def removeSpacesInDesAddr (desAddr : String16) : String16 :=
  if desAddr = [] ∨ desAddr.length ≥ MAX_ADDRESS_LEN then desAddr
  else desAddr.filter (· ≠ 0x20)

/-- `static_cast<int32_t>` of a size. -/
def int32Size (n : Nat) : Int32 := Int32.ofNat n

namespace SmsInterfaceStub

variable {ρ : Type} {C : Type → Type} (env : Env)

/-- The result, and behind a success what the method has set. -/
def writeAnswer {β : Type} (write : β → Exchange ρ C Unit) (answer : Int32 × β) :
    Exchange ρ C Unit := do
  writeItem .int32 answer.1
  if answer.1 ≠ TELEPHONY_ERR_SUCCESS then
    pure ()
  else
    write answer.2

/-- A list goes behind its size. -/
def writeList {β : Type} (items : β → List (Item ρ)) (list : List β) : Exchange ρ C Unit := do
  writeItem .int32 (int32Size list.length)
  writeAll (list.flatMap items)

/-- Whether octets have been converted, and behind a success the octets. -/
def writeOctets (answer : Bool × Octets) : Exchange ρ C Unit := do
  writeItem .bool answer.1
  if !answer.1 then
    pure ()
  else
    writeItem .string16 (env.toUtf16 answer.2)

def onSendSmsTextRequest : Exchange ρ (Request ρ) Unit := do
  let slotId ← readInt32
  let desAddr ← readString16
  let scAddr ← readString16
  let text ← readString16
  if !env.isValidSlotId slotId then
    pure ()
  else do
    let sendCallback ← readRemoteObject
    let deliveryCallback ← readRemoteObject
    let bundleName ← readString
    let result ← callService (.sendMessage slotId (removeSpacesInDesAddr desAddr) scAddr text
      sendCallback deliveryCallback (bundleName == MMS_APP))
    writeItem .int32 result

def onSendSmsTextWithoutSaveRequest : Exchange ρ (Request ρ) Unit := do
  let slotId ← readInt32
  let desAddr ← readString16
  let scAddr ← readString16
  let text ← readString16
  if !env.isValidSlotId slotId then
    pure ()
  else do
    let sendCallback ← readRemoteObject
    let deliveryCallback ← readRemoteObject
    let _ ← readString
    let result ← callService (.sendMessageWithoutSave slotId (removeSpacesInDesAddr desAddr)
      scAddr text sendCallback deliveryCallback)
    writeItem .int32 result

def onSendSmsDataRequest : Exchange ρ (Request ρ) Unit := do
  let slotId ← readInt32
  let desAddr ← readString16
  let scAddr ← readString16
  let port ← readInt16
  if !env.isValidSlotId slotId then
    pure ()
  else do
    let sendCallback ← readRemoteObject
    let deliveryCallback ← readRemoteObject
    let dataLen ← readInt16
    if dataLen < 1 then
      pure ()
    else
      .read .rawData fun buffer =>
        match buffer with
        | none => pure ()
        | some buffer => do
            let result ← callService (.sendData slotId (removeSpacesInDesAddr desAddr) scAddr
              port.toUInt16 buffer dataLen.toUInt16 sendCallback deliveryCallback)
            writeItem .int32 result

def onSetSmscAddr : Exchange ρ (Request ρ) Unit := do
  let slotId ← readInt32
  let scAddr ← readString16
  let result ← callService (.setSmscAddr slotId scAddr)
  writeItem .int32 result

def onGetSmscAddr : Exchange ρ (Request ρ) Unit := do
  let slotId ← readInt32
  let answer ← callService (.getSmscAddr slotId [])
  writeAnswer (writeItem .string16) answer

def onAddSimMessage : Exchange ρ (Request ρ) Unit := do
  let slotId ← readInt32
  let smsc ← readString16
  let pdu ← readString16
  let status ← readUint32
  if status > SIM_MESSAGE_STATUS_SENT ∨ status < SIM_MESSAGE_STATUS_UNREAD then
    pure ()
  else do
    let result ← callService (.addSimMessage slotId smsc pdu status)
    writeItem .int32 result

def onDelSimMessage : Exchange ρ (Request ρ) Unit := do
  let slotId ← readInt32
  let msgIndex ← readUint32
  let result ← callService (.delSimMessage slotId msgIndex)
  writeItem .int32 result

def onUpdateSimMessage : Exchange ρ (Request ρ) Unit := do
  let slotId ← readInt32
  let msgIndex ← readUint32
  let newStatus ← readUint32
  let pdu ← readString16
  let smsc ← readString16
  if newStatus > SIM_MESSAGE_STATUS_SENT ∨ newStatus < SIM_MESSAGE_STATUS_UNREAD then
    pure ()
  else do
    let result ← callService (.updateSimMessage slotId msgIndex newStatus pdu smsc)
    writeItem .int32 result

def onGetAllSimMessages : Exchange ρ (Request ρ) Unit := do
  let slotId ← readInt32
  let answer ← callService (.getAllSimMessages slotId [])
  writeAnswer (writeList ShortMessage.marshalling) answer

def onSetCBConfig : Exchange ρ (Request ρ) Unit := do
  let slotId ← readInt32
  let enable ← readBool
  let fromMsgId ← readUint32
  let toMsgId ← readUint32
  let ranType ← readUint8
  let result ← callService (.setCBConfig slotId enable fromMsgId toMsgId ranType)
  writeItem .int32 result

def onSetCBConfigList : Exchange ρ (Request ρ) Unit := do
  let slotId ← readInt32
  let messageIdsSize ← readInt32
  if messageIdsSize > CB_RANGE_LIST_MAX_SIZE then
    pure ()
  else do
    let messageIds ← times readInt32 messageIdsSize.toNatClampNeg
    let ranType ← readInt32
    let result ← callService (.setCBConfigList slotId messageIds ranType)
    writeItem .int32 result

def onSetImsSmsConfig : Exchange ρ (Request ρ) Unit := do
  let slotId ← readInt32
  let enable ← readInt32
  let result ← callService (.setImsSmsConfig slotId enable)
  writeItem .bool result

def onSetDefaultSmsSlotId : Exchange ρ (Request ρ) Unit := do
  let slotId ← readInt32
  let result ← callService (.setDefaultSmsSlotId slotId)
  writeItem .int32 result

def onGetDefaultSmsSlotId : Exchange ρ (Request ρ) Unit := do
  let result ← callService .getDefaultSmsSlotId
  writeItem .int32 result

def onGetDefaultSmsSimId : Exchange ρ (Request ρ) Unit := do
  let answer ← callService (.getDefaultSmsSimId 0)
  writeAnswer (writeItem .int32) answer

def onSplitMessage : Exchange ρ (Request ρ) Unit := do
  let message ← readString16
  let answer ← callService (.splitMessage message [])
  writeAnswer (writeList fun item => [⟨.string16, item⟩]) answer

def onGetSmsSegmentsInfo : Exchange ρ (Request ρ) Unit := do
  let slotId ← readInt32
  let message ← readString16
  let force7BitCode ← readBool
  let answer ← callService (.getSmsSegmentsInfo slotId message force7BitCode {})
  writeAnswer (fun segInfo => writeAll segInfo.items) answer

def onIsImsSmsSupported : Exchange ρ (Request ρ) Unit := do
  let slotId ← readInt32
  let answer ← callService (.isImsSmsSupported slotId false)
  writeAnswer (writeItem .bool) answer

def onGetImsShortMessageFormat : Exchange ρ (Request ρ) Unit := do
  let answer ← callService (.getImsShortMessageFormat [])
  writeAnswer (writeItem .string16) answer

/-- The result is not written, only the type. -/
def onGetSmsShortCodeType : Exchange ρ (Request ρ) Unit := do
  let slotId ← readInt32
  let desAddr ← readString
  let (result, smsShortCodeType) ←
    callService (.getSmsShortCodeType slotId desAddr SMS_SHORT_CODE_TYPE_UNKNOWN)
  if result ≠ TELEPHONY_ERR_SUCCESS then
    writeItem .int32 SMS_SHORT_CODE_TYPE_UNKNOWN
  else
    writeItem .int32 smsShortCodeType

def onHasSmsCapability : Exchange ρ (Request ρ) Unit := do
  let result ← callService .hasSmsCapability
  writeItem .bool result

def onCreateMessage : Exchange ρ (Request ρ) Unit := do
  let pdu ← readString
  let specification ← readString
  let answer ← callService (.createMessage pdu specification {})
  writeAnswer (fun message => writeAll message.marshalling) answer

def onGetBase64Encode : Exchange ρ (Request ρ) Unit := do
  let src ← readString16
  let answer ← callService (.getBase64Encode (env.toUtf8 src) [])
  writeOctets env answer

def onGetBase64Decode : Exchange ρ (Request ρ) Unit := do
  let src ← readString16
  let answer ← callService (.getBase64Decode (env.toUtf8 src) [])
  writeOctets env answer

def onGetEncodeStringFunc : Exchange ρ (Request ρ) Unit := do
  let charset ← readUint32
  let valLength ← readUint32
  let strEncodeString ← readString16
  let str := env.toUtf8 strEncodeString
  if valLength.toNat ≠ str.length then
    pure ()
  else do
    let answer ← callService (.getEncodeStringFunc [] charset valLength str)
    writeOctets env answer

def onSendMms : Exchange ρ (Request ρ) Unit := do
  let slotId ← readInt32
  let mmsc ← readString16
  let mmsData ← readString16
  let ua ← readString16
  let uaprof ← readString16
  let time ← readInt64
  let bundleName ← readString
  let result ← callService (.sendMms slotId mmsc mmsData ua uaprof time (bundleName == MMS_APP))
  writeItem .int32 result

def onDownloadMms : Exchange ρ (Request ρ) Unit := do
  let slotId ← readInt32
  let mmsc ← readString16
  let mmsData ← readString16
  let ua ← readString16
  let uaprof ← readString16
  let (result, mmsData) ← callService (.downloadMms slotId mmsc mmsData ua uaprof)
  writeItem .int32 result
  writeItem .string16 mmsData

/-- `memberFuncMap_` -/
def memberFunc : SmsServiceInterfaceCode → Exchange ρ (Request ρ) Unit
  | .TEXT_BASED_SMS_DELIVERY => onSendSmsTextRequest env
  | .SEND_SMS_TEXT_WITHOUT_SAVE => onSendSmsTextWithoutSaveRequest env
  | .DATA_BASED_SMS_DELIVERY => onSendSmsDataRequest env
  | .SET_SMSC_ADDRESS => onSetSmscAddr
  | .GET_SMSC_ADDRESS => onGetSmscAddr
  | .ADD_SIM_MESSAGE => onAddSimMessage
  | .DEL_SIM_MESSAGE => onDelSimMessage
  | .UPDATE_SIM_MESSAGE => onUpdateSimMessage
  | .GET_ALL_SIM_MESSAGE => onGetAllSimMessages
  | .SET_CB_CONFIG => onSetCBConfig
  | .SET_CB_CONFIG_LIST => onSetCBConfigList
  | .SET_IMS_SMS_CONFIG => onSetImsSmsConfig
  | .SET_DEFAULT_SMS_SLOT_ID => onSetDefaultSmsSlotId
  | .GET_DEFAULT_SMS_SLOT_ID => onGetDefaultSmsSlotId
  | .GET_DEFAULT_SMS_SIM_ID => onGetDefaultSmsSimId
  | .SPLIT_MESSAGE => onSplitMessage
  | .GET_SMS_SEGMENTS_INFO => onGetSmsSegmentsInfo
  | .GET_IMS_SHORT_MESSAGE_FORMAT => onGetImsShortMessageFormat
  | .IS_IMS_SMS_SUPPORTED => onIsImsSmsSupported
  | .HAS_SMS_CAPABILITY => onHasSmsCapability
  | .SEND_MMS => onSendMms
  | .DOWNLOAD_MMS => onDownloadMms
  | .CREATE_MESSAGE => onCreateMessage
  | .MMS_BASE64_ENCODE => onGetBase64Encode env
  | .MMS_BASE64_DECODE => onGetBase64Decode env
  | .GET_ENCODE_STRING => onGetEncodeStringFunc env
  | .GET_SMS_SHORT_CODE_TYPE => onGetSmsShortCodeType

def onRemoteRequest (code : SmsServiceInterfaceCode) : Exchange ρ (Request ρ) Int32 := do
  let remoteDescripter ← readValue .interfaceToken []
  if env.descriptor ≠ remoteDescripter then
    pure env.TELEPHONY_ERR_DESCRIPTOR_MISMATCH
  else do
    memberFunc env code
    pure TELEPHONY_ERR_SUCCESS

end SmsInterfaceStub

end TelephonySms.Ipc
