import Mathlib.Logic.Function.Basic
import TelephonySms.Machine

/-! # Sending

`SmsSender` with its GSM and CDMA variants: a message is split into cells, each
cell is wrapped in a `SmsSendIndexer` and handed to the radio under a 64-bit
reference, and the response that comes back decides whether it is sent again.
The cache of unanswered cells and the 64-bit counter are static, so the world
below holds all senders of all slots. One event is what one thread does between
two points at which another may act on the cache: one round of a split loop, one
response, one retry.
-/

namespace TelephonySms.Send

inductive NetWorkType where
  | gsm
  | cdma
  | unknown
deriving DecidableEq, Repr

inductive SenderKind where
  | gsm
  | cdma
deriving DecidableEq, Repr

/-- Each slot has a GSM and a CDMA sender. -/
structure SenderId where
  slotId : Nat
  kind : SenderKind
deriving DecidableEq, Repr

inductive SmsDomain where
  | cs
  | ims
deriving DecidableEq, Repr

inductive SmsSendResult where
  | success
  | failureUnknown
  | failureServiceUnavailable
deriving DecidableEq, Repr

/-- What is fixed when the service is built: whether `SMS_MMS_SATELLITE` is
defined, and the number of `ErrType::ERR_CMD_SEND_FAILURE`. -/
structure Platform where
  smsMmsSatellite : Bool
  errCmdSendFailure : Nat
deriving DecidableEq, Repr

/-- What is asked when a cell is handed over. -/
structure Env where
  now : Int
  satelliteEnabled : Bool
deriving DecidableEq, Repr

/-- The `bool` one `make_shared<bool>(false)` call made while sending a message. -/
structure CellFlag where
  message : Nat
  serial : Nat
deriving DecidableEq, Repr

/-- The fields of `SmsSendIndexer` that sending reads after the PDU is encoded. -/
structure SmsSendIndexer where
  msgRefId : Nat
  unSentCellCount : Nat
  hasCellFailed : CellFlag
  isText : Bool
  isImsSmsForCdma : Bool
  netWorkType : NetWorkType
  timeStamp : Int
  psResendCount : Nat
  csResendCount : Nat
  errorCode : Nat
  isFailure : Bool
  msgRefId64Bit : Nat
deriving DecidableEq, Repr

/-- The delivery call the cell belongs to. -/
def SmsSendIndexer.message (i : SmsSendIndexer) : Nat := i.hasCellFailed.message

structure SmsSender where
  msgRef8bit : Nat
  /-- The reply sequence number of the CDMA sender. -/
  msgSeqNum : Nat
  isImsNetDomain : Bool
  /-- `voiceServiceState_` is `REG_STATE_IN_SERVICE`. -/
  inService : Bool
  imsSmsCfg : Bool
  lastSmsDomain : SmsDomain
deriving DecidableEq, Repr

def SmsSender.init : SmsSender := ⟨0, 0, false, false, true, .cs⟩

/-- One entry of `cellsInfos`: the size of its encoded data, and whether the PDU
built around it can be encoded. -/
structure Cell where
  size : Nat
  encodes : Bool
deriving DecidableEq, Repr

inductive SplitKind where
  | gsmText
  | cdmaImsText
  | cdmaText
  /-- `DataBasedSmsDeliverySplitPage`, of the GSM sender or over IMS. -/
  | data
  /-- The one page `EncodeMsgData` sends. -/
  | cdmaData
deriving DecidableEq, Repr

def SplitKind.isText : SplitKind → Bool
  | .gsmText | .cdmaImsText | .cdmaText => true
  | .data | .cdmaData => false

/-- Data pages are marked GSM whichever sender splits them. -/
def SplitKind.netWorkType : SplitKind → NetWorkType
  | .gsmText | .data => .gsm
  | .cdmaImsText | .cdmaText | .cdmaData => .cdma

/-- A split loop between two rounds; `cells` are those not yet handed over. Text
cells share one flag, each data page makes its own. -/
structure SplitLoop where
  sender : SenderId
  kind : SplitKind
  message : Nat
  msgRefId : Nat
  cellCount : Nat
  hasCellFailed : Option CellFlag
  cells : List Cell
deriving DecidableEq, Repr

/-- The indexer of the next cell; the count is a `uint8_t`. -/
def SplitLoop.indexer (l : SplitLoop) (flag : CellFlag) (env : Env) : SmsSendIndexer where
  msgRefId := l.msgRefId
  unSentCellCount := l.cellCount % 256
  hasCellFailed := flag
  isText := l.kind.isText
  isImsSmsForCdma := l.kind = .cdmaImsText
  netWorkType := l.kind.netWorkType
  timeStamp := env.now
  psResendCount := 0
  csResendCount := 0
  errorCode := 0
  isFailure := false
  msgRefId64Bit := 0

structure SendWorld where
  senders : SenderId → SmsSender
  msgRef64bit : Nat
  sendCacheMap : List (Nat × SmsSendIndexer)
  cellFailed : CellFlag → Bool
  nextFlag : Nat
  nextMessage : Nat
  splits : List SplitLoop
  /-- `MSG_SMS_RETRY_DELIVERY` events sent and not yet delivered. -/
  retries : List (SenderId × SmsSendIndexer)

def SendWorld.init : SendWorld := ⟨fun _ => .init, 0, [], fun _ => false, 0, 0, [], []⟩

inductive SendEffect where
  | callback (message : Nat) (result : SmsSendResult)
  | toRil (sender : SenderId) (refId : Nat) (domain : SmsDomain)
  /-- A cell was sent, or failed with no retry left. -/
  | outcome (message : Nat) (sent : Bool)
deriving DecidableEq, Repr

inductive RilResponse where
  /-- A `RadioResponseInfo`, which only reports errors. -/
  | radioResponse
  | sendSmsResult (errCode : Int)
deriving DecidableEq, Repr

/-- What `ResendTextDelivery` and `ResendDataDelivery` make of a cell on another
network: a new PDU, a failure they report, or a return without a word. -/
inductive Reencoded where
  | encoded
  | failed
  | dropped
deriving DecidableEq, Repr

inductive SendEvent where
  | networkState (sender : SenderId) (isImsNetDomain inService : Bool)
  | imsSmsCfg (sender : SenderId) (enable : Bool)
  /-- `cells` is the result of `SplitMessage`, `tpduOk` that of building the PDU. -/
  | textDelivery (sender : SenderId) (tpduOk : Bool) (cells : List Cell)
  | dataDelivery (sender : SenderId) (tpduOk : Bool) (cells : List Cell)
  | splitStep (message : Nat) (env : Env)
  | response (sender : SenderId) (flag : Nat) (res : RilResponse) (now : Int)
  | retry (index : Nat) (net : NetWorkType) (reencoded : Reencoded) (env : Env)
deriving DecidableEq, Repr

def maxSegmentNum : Nat := 15
def maxUserDataLen : Nat := 160
def maxSendRetries : Nat := 3
def expiredTime : Int := 180

namespace SendWorld

/-! ## References -/

def updateSender (w : SendWorld) (sender : SenderId) (f : SmsSender → SmsSender) : SendWorld :=
  { w with senders := Function.update w.senders sender (f (w.senders sender)) }

def getMsgRef8Bit (w : SendWorld) (sender : SenderId) : SendWorld × Nat :=
  let ref := ((w.senders sender).msgRef8bit + 1) % 256
  (w.updateSender sender fun s => { s with msgRef8bit := ref }, ref)

/-- `CdmaSmsSender::GetSeqNum`. -/
def getSeqNum (w : SendWorld) (sender : SenderId) : SendWorld × Nat :=
  let seq := ((w.senders sender).msgSeqNum + 1) % 64
  (w.updateSender sender fun s => { s with msgSeqNum := seq }, seq)

/-- `make_shared<bool>(false)`. -/
def newCellFlag (w : SendWorld) (message : Nat) : SendWorld × CellFlag :=
  let flag := ⟨message, w.nextFlag⟩
  ({ w with
      nextFlag := w.nextFlag + 1
      cellFailed := Function.update w.cellFailed flag false }, flag)

/-! ## Handing a cell to the radio -/

section Platform

variable (p : Platform)

/-- The checks at the top of `SendSmsToRil`; the GSM one is compiled in with the
satellite support only. -/
def notInService (w : SendWorld) (sender : SenderId) (env : Env) : Bool :=
  let s := w.senders sender
  match sender.kind with
  | .gsm =>
      p.smsMmsSatellite && !env.satelliteEnabled && (!s.isImsNetDomain && !s.inService)
  | .cdma => !s.isImsNetDomain && !s.inService

def sendDomain (w : SendWorld) (sender : SenderId) (env : Env) (i : SmsSendIndexer) :
    SmsDomain :=
  let s := w.senders sender
  match sender.kind with
  | .gsm =>
      if p.smsMmsSatellite && env.satelliteEnabled then .cs
      else if (!s.isImsNetDomain || !s.imsSmsCfg) || i.psResendCount = maxSendRetries then .cs
      else .ims
  | .cdma => if i.isImsSmsForCdma || i.psResendCount < maxSendRetries then .ims else .cs

def sendSmsToRil (w : SendWorld) (sender : SenderId) (env : Env) (i : SmsSendIndexer) :
    SendWorld × List SendEffect :=
  if w.notInService p sender env then
    (w, [.callback i.message .failureServiceUnavailable])
  else
    let domain := w.sendDomain p sender env i
    let refId := w.msgRef64bit + 1
    if w.sendCacheMap.any (·.1 = refId) then
      -- emplace fails: the GSM sender returns, the CDMA sender sends all the same
      match sender.kind with
      | .gsm => ({ w with msgRef64bit := refId }, [])
      | .cdma =>
          (({ w with msgRef64bit := refId } : SendWorld).updateSender sender fun s =>
            { s with lastSmsDomain := domain }, [.toRil sender refId domain])
    else
      (({ w with
          msgRef64bit := refId
          sendCacheMap := w.sendCacheMap ++ [(refId, i)] } : SendWorld).updateSender sender
            fun s => { s with lastSmsDomain := domain }, [.toRil sender refId domain])

/-! ## Splitting -/

/-- The delivery call is refused: the callback is the whole of it. -/
def refuse (w : SendWorld) : SendWorld × List SendEffect :=
  ({ w with nextMessage := w.nextMessage + 1 }, [.callback w.nextMessage .failureUnknown])

def startSplit (w : SendWorld) (sender : SenderId) (kind : SplitKind) (msgRefId : Nat)
    (hasCellFailed : Option CellFlag) (cells : List Cell) : SendWorld × List SendEffect :=
  ({ w with
      nextMessage := w.nextMessage + 1
      splits := if cells = [] then w.splits else
        w.splits ++ [⟨sender, kind, w.nextMessage, msgRefId, cells.length, hasCellFailed,
          cells⟩] }, [])

/-- `TextBasedSmsDelivery` of the GSM sender, and of the CDMA sender over IMS or
not, up to the start of the loop. -/
def textBasedSmsDelivery (w : SendWorld) (sender : SenderId) (tpduOk : Bool)
    (cells : List Cell) : SendWorld × List SendEffect :=
  if !tpduOk || cells.length > maxSegmentNum then w.refuse
  else
    let s := w.senders sender
    let (w, kind, ref) :=
      match sender.kind with
      | .gsm => let (w, ref) := w.getMsgRef8Bit sender; (w, SplitKind.gsmText, ref)
      | .cdma =>
          if s.isImsNetDomain && s.imsSmsCfg then
            let (w, ref) := w.getMsgRef8Bit sender; (w, .cdmaImsText, ref)
          else let (w, seq) := w.getSeqNum sender; (w, .cdmaText, seq)
    let (w, flag) := w.newCellFlag w.nextMessage
    w.startSplit sender kind ref (some flag) cells

/-- `DataBasedSmsDelivery`; the CDMA sender without IMS sends one page only. -/
def dataBasedSmsDelivery (w : SendWorld) (sender : SenderId) (tpduOk : Bool)
    (cells : List Cell) : SendWorld × List SendEffect :=
  let s := w.senders sender
  match sender.kind with
  | .gsm =>
      let (w, ref) := w.getMsgRef8Bit sender
      if !tpduOk then w.refuse else w.startSplit sender .data ref none cells
  | .cdma =>
      if s.isImsNetDomain && s.imsSmsCfg then
        let (w, ref) := w.getMsgRef8Bit sender
        if !tpduOk then w.refuse else w.startSplit sender .data ref none cells
      else if cells = [] then w.startSplit sender .cdmaData 0 none []
      else if !tpduOk then w.refuse
      else
        let (w, seq) := w.getSeqNum sender
        w.startSplit sender .cdmaData seq none (cells.take 1)

/-- What one round does with its cell. -/
inductive CellStep where
  | send
  | skip
  | stop
  | failAndGoOn
  | failAndStop
deriving DecidableEq, Repr

def cellStep (kind : SplitKind) (cell : Cell) : CellStep :=
  match kind with
  | .gsmText =>
      if cell.size > maxUserDataLen || cell.size = 0 then .stop
      else if cell.encodes then .send else .failAndGoOn
  | .cdmaImsText =>
      if cell.size > maxUserDataLen then .skip
      else if cell.encodes then .send else .failAndGoOn
  | .cdmaText | .cdmaData =>
      if cell.size > maxUserDataLen + 1 then .stop
      else if cell.encodes then .send else .failAndStop
  | .data =>
      if cell.size > maxUserDataLen then .stop
      else if cell.encodes then .send else .failAndGoOn

/-- The loop of a message goes on with `cells`, or ends. -/
def setCells (w : SendWorld) (message : Nat) (cells : List Cell) : SendWorld :=
  { w with
    splits :=
      if cells = [] then w.splits.filter (·.message ≠ message)
      else w.splits.map fun l => if l.message = message then { l with cells := cells } else l }

/-- One round of the split loop of a message. -/
def splitStep (w : SendWorld) (message : Nat) (env : Env) : SendWorld × List SendEffect :=
  match w.splits.find? (·.message = message) with
  | none => (w, [])
  | some l =>
      match l.cells with
      | [] => (w.setCells message [], [])
      | cell :: cells =>
          match cellStep l.kind cell with
          | .stop => (w.setCells message [], [])
          | .skip => (w.setCells message cells, [])
          | .failAndStop => (w.setCells message [], [.callback message .failureUnknown])
          | .failAndGoOn => (w.setCells message cells, [.callback message .failureUnknown])
          | .send =>
              let (w, flag) :=
                match l.hasCellFailed with
                | some flag => (w, flag)
                | none => w.newCellFlag message
              (w.setCells message cells).sendSmsToRil p l.sender env
                (l.indexer flag env)

/-! ## Responses -/

/-- The loop body of `UpdateUnSentCellCount`. -/
def updateUnSentCellCount (refId : Nat) (i : SmsSendIndexer) : SmsSendIndexer :=
  if i.msgRefId = refId ∧ i.unSentCellCount > 0 then
    { i with unSentCellCount := i.unSentCellCount - 1 }
  else i

/-- What `FindCacheMapAndTransform` writes into the indexer it finds; the error
code is a `uint8_t`. -/
def setResponse (flag : Nat) (i : SmsSendIndexer) : RilResponse → SmsSendIndexer
  | .radioResponse => { i with errorCode := 1, msgRefId64Bit := flag, isFailure := true }
  | .sendSmsResult errCode =>
      { i with
        isFailure := errCode ≠ 0
        errorCode := (errCode % 256).toNat
        msgRefId64Bit := flag }

def isExpired (now : Int) (i : SmsSendIndexer) : Bool := now - i.timeStamp > expiredTime

/-- The cache behind a response: every entry is counted, the answered one is
erased, and so are those that timed out. -/
def cacheAfterResponse (cache : List (Nat × SmsSendIndexer)) (flag refId : Nat) (now : Int) :
    List (Nat × SmsSendIndexer) :=
  ((cache.map fun e => (e.1, updateUnSentCellCount refId e.2)).filter (·.1 ≠ flag)).filter
    fun e => !isExpired now e.2

def sendMessageSucceed (w : SendWorld) (i : SmsSendIndexer) : SendWorld × List SendEffect :=
  (w, .outcome i.message true ::
    if i.unSentCellCount = 0 then
      [.callback i.message (if w.cellFailed i.hasCellFailed then .failureUnknown else .success)]
    else [])

def sendMessageFailed (w : SendWorld) (i : SmsSendIndexer) : SendWorld × List SendEffect :=
  ({ w with cellFailed := Function.update w.cellFailed i.hasCellFailed true },
    .outcome i.message false ::
      if i.unSentCellCount = 0 then [.callback i.message .failureUnknown] else [])

def csResend (w : SendWorld) (sender : SenderId) (i : SmsSendIndexer) : Bool :=
  (w.senders sender).lastSmsDomain = .cs && i.csResendCount < maxSendRetries

def psResend (w : SendWorld) (sender : SenderId) (i : SmsSendIndexer) : Bool :=
  (w.senders sender).lastSmsDomain = .ims && i.psResendCount ≤ maxSendRetries

def resends (w : SendWorld) (sender : SenderId) (i : SmsSendIndexer) : Bool :=
  i.errorCode = p.errCmdSendFailure && (w.csResend sender i || w.psResend sender i)

def countResend (w : SendWorld) (sender : SenderId) (i : SmsSendIndexer) : SmsSendIndexer :=
  if w.psResend sender i then { i with psResendCount := i.psResendCount + 1 }
  else { i with csResendCount := i.csResendCount + 1 }

def handleResend (w : SendWorld) (sender : SenderId) (i : SmsSendIndexer) :
    SendWorld × List SendEffect :=
  if w.resends p sender i then
    ({ w with retries := w.retries ++ [(sender, w.countResend sender i)] }, [])
  else w.sendMessageFailed i

def cached (w : SendWorld) (flag : Nat) : Option SmsSendIndexer :=
  (w.sendCacheMap.find? (·.1 = flag)).map (·.2)

/-- `FindCacheMapAndTransform` and `HandleMessageResponse`; a response that is not
in the cache is ignored. -/
def handleMessageResponse (w : SendWorld) (sender : SenderId) (flag : Nat) (res : RilResponse)
    (now : Int) : SendWorld × List SendEffect :=
  match w.cached flag with
  | none => (w, [])
  | some i =>
      let i := updateUnSentCellCount i.msgRefId (setResponse flag i res)
      let w := { w with sendCacheMap := cacheAfterResponse w.sendCacheMap flag i.msgRefId now }
      if i.isFailure then w.handleResend p sender i else w.sendMessageSucceed i

/-! ## Retries -/

/-- `ResendTextDelivery` and `ResendDataDelivery` on the network the device is on
now; the GSM sender starts a data page anew. -/
def resendDelivery (w : SendWorld) (sender : SenderId) (reencoded : Reencoded) (env : Env)
    (i : SmsSendIndexer) : SendWorld × List SendEffect :=
  match reencoded with
  | .dropped => (w, [])
  | .failed => (w, [.callback i.message .failureUnknown])
  | .encoded =>
      let i := { i with timeStamp := env.now }
      if sender.kind = .gsm && !i.isText then
        let (w, flag) := w.newCellFlag i.message
        w.sendSmsToRil p sender env { i with unSentCellCount := 1, hasCellFailed := flag }
      else w.sendSmsToRil p sender env i

/-- `SmsSendManager::RetriedSmsDelivery`. -/
def retriedSmsDelivery (w : SendWorld) (slotId : Nat) (net : NetWorkType)
    (reencoded : Reencoded) (env : Env) (i : SmsSendIndexer) : SendWorld × List SendEffect :=
  if i.netWorkType ≠ net then
    let i := { i with netWorkType := net }
    match net with
    | .cdma => w.resendDelivery p ⟨slotId, .cdma⟩ reencoded env i
    | .gsm => w.resendDelivery p ⟨slotId, .gsm⟩ reencoded env i
    | .unknown => (w, [.callback i.message .failureServiceUnavailable])
  else
    match net with
    | .gsm => w.sendSmsToRil p ⟨slotId, .gsm⟩ env i
    | .cdma => w.sendSmsToRil p ⟨slotId, .cdma⟩ env i
    | .unknown => (w, [.callback i.message .failureServiceUnavailable])

def deliverRetry (w : SendWorld) (index : Nat) (net : NetWorkType) (reencoded : Reencoded)
    (env : Env) : SendWorld × List SendEffect :=
  match w.retries[index]? with
  | none => (w, [])
  | some (sender, i) =>
      ({ w with retries := w.retries.eraseIdx index }).retriedSmsDelivery p sender.slotId net
        reencoded env i

def step (w : SendWorld) : SendEvent → SendWorld × List SendEffect
  | .networkState sender ims inService =>
      (w.updateSender sender fun s => { s with isImsNetDomain := ims, inService := inService },
        [])
  | .imsSmsCfg sender enable =>
      (w.updateSender sender fun s => { s with imsSmsCfg := enable }, [])
  | .textDelivery sender tpduOk cells => w.textBasedSmsDelivery sender tpduOk cells
  | .dataDelivery sender tpduOk cells => w.dataBasedSmsDelivery sender tpduOk cells
  | .splitStep message env => w.splitStep p message env
  | .response sender flag res now => w.handleMessageResponse p sender flag res now
  | .retry index net reencoded env => w.deliverRetry p index net reencoded env

end Platform

end SendWorld

end TelephonySms.Send
