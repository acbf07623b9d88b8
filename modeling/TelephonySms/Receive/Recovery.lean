import TelephonySms.Regroup
import TelephonySms.Receive.Combine

/-! # Recovery after a restart

`SmsReceiveReliabilityHandler::SmsReceiveReliabilityProcessing` hands on what a
restart left in the table. It reads all rows of the slot into a vector, erases
those it may not use, and regroups the rest in place: first the WAP push rows,
then all others. A part is recognised by its reference alone.
-/

namespace TelephonySms.Receive

open TelephonySms.Pages TelephonySms.Regroup

def hexTable : List Char := "0123456789ABCDEF".toList

def stringToHex (data : Pdu) : String :=
  String.ofList (data.flatMap fun b =>
    [hexTable.getD (b.toNat / 16) '0', hexTable.getD (b.toNat % 16) '0'])

def maxTpduDataLen : Nat := 255
def maxSegmentNum : Nat := 15

/-- `SmsPersistHelper::QueryBlockPhoneNumber` answers no for every number. -/
def queryBlockPhoneNumber (_phoneNum : String) : Bool := false

def removeBlockedSms (slotId : Nat) (t : SmsTable) : List SmsReceiveIndexer :=
  ((t.rows.filter (·.slotId = slotId)).map (·.toIndexer)).filter fun i =>
    !(queryBlockPhoneNumber i.originatingAddress ||
      (i.pdu.length = 0 || i.pdu.length > maxTpduDataLen))

/-- The indexer handed on for a stored row: the body is the hex text of the PDU. -/
def recoveredIndexer (i : SmsReceiveIndexer) : SmsReceiveIndexer :=
  { i with
    visibleMessageBody := stringToHex i.pdu
    rawUserData := []
    rawWapPushUserData := [] }

/-! ## WAP push rows -/

section CreateMessage

variable (createMessage : Pdu → Option SmsBaseMessage)

/-- The loop of `GetWapPushUserDataMultipage` over the rows behind the first
page: the pages counted, the texts filled in and the rows left in the vector. A
row that cannot be used is erased and counted, and ends the loop. -/
def wapPageLoop (refId : Nat) : Nat → List Pdu → List SmsReceiveIndexer →
    Nat × List Pdu × List SmsReceiveIndexer
  | count, raws, [] => (count, raws, [])
  | count, raws, locate :: rest =>
      if refId ≠ locate.msgRefId then
        let (count, raws, rest) := wapPageLoop refId count raws rest
        (count, raws, locate :: rest)
      else
        let count := if locate.pdu.length > 0 then count + 1 else count
        match createMessage locate.pdu with
        | none => (count, raws, rest)
        | some baseMessage =>
            if locate.msgSeqId < 1 ∨ locate.msgSeqId > maxSegmentNum then (count, raws, rest)
            else
              wapPageLoop refId count (raws.set (locate.msgSeqId - 1) baseMessage.rawUserData)
                rest

def getWapPushUserDataMultipage (place : SmsReceiveIndexer) (raws : List Pdu)
    (rest : List SmsReceiveIndexer) : Nat × List Pdu × List SmsReceiveIndexer :=
  match createMessage place.pdu with
  | none => (1, raws, rest)
  | some baseMessage =>
      if place.msgSeqId < 1 ∨ place.msgSeqId > maxSegmentNum then (1, raws, rest)
      else
        wapPageLoop createMessage place.msgRefId 1
          (raws.set (place.msgSeqId - 1) baseMessage.rawUserData) rest

def getWapPushUserDataSinglePage (indexer : SmsReceiveIndexer) (raws : List Pdu) : List Pdu :=
  match createMessage indexer.pdu with
  | none => raws
  | some baseMessage => raws.set 0 baseMessage.rawWapPushUserData

/-- `ReadyDecodeWapPushUserData`, called when the first text is not empty. -/
def readyDecodeWapPushUserData (slotId : Nat) (i : SmsReceiveIndexer) (raws : List Pdu) :
    Option Effect :=
  if raws.getD 0 [] = [] then none
  else some (.wapPush slotId (recoveredIndexer i) raws.flatten)

/-- `CheckUnReceiveWapPush` on the rows from `place` on, with a bound on the
rounds; every round takes the row at `place` out or passes it. -/
def checkUnReceiveWapPush (slotId : Nat) : Nat → List SmsReceiveIndexer →
    List SmsReceiveIndexer × List Effect
  | 0, rows => (rows, [])
  | _ + 1, [] => ([], [])
  | n + 1, place :: rest =>
      let userDataRaws := List.replicate maxSegmentNum []
      if place.destPort ≠ wapPushPort then
        let (kept, out) := checkUnReceiveWapPush slotId n rest
        (place :: kept, out)
      else if place.msgCount = 1 then
        let raws := getWapPushUserDataSinglePage createMessage place userDataRaws
        let (kept, out) := checkUnReceiveWapPush slotId n rest
        (kept, (readyDecodeWapPushUserData slotId place raws).toList ++ out)
      else
        let (smsPagesCount, raws, rest) :=
          getWapPushUserDataMultipage createMessage place userDataRaws rest
        let (kept, out) := checkUnReceiveWapPush slotId n rest
        if place.msgCount ≠ smsPagesCount then (kept, out)
        else (kept, (readyDecodeWapPushUserData slotId place raws).toList ++ out)

end CreateMessage

/-! ## Text and data rows -/

/-- The loop of `GetSmsUserDataMultipage`; here the row that ends it is not counted. -/
def smsPageLoop (refId msgCount : Nat) : Nat → List Pdu → List SmsReceiveIndexer →
    Nat × List Pdu × List SmsReceiveIndexer
  | count, pdus, [] => (count, pdus, [])
  | count, pdus, locate :: rest =>
      if refId ≠ locate.msgRefId then
        let (count, pdus, rest) := smsPageLoop refId msgCount count pdus rest
        (count, pdus, locate :: rest)
      else if locate.msgSeqId < 1 ∨ locate.msgSeqId > msgCount then (count, pdus, rest)
      else
        smsPageLoop refId msgCount (count + 1) (pdus.set (locate.msgSeqId - 1) locate.pdu) rest

def getSmsUserDataMultipage (msgCount : Nat) (position : SmsReceiveIndexer)
    (rest : List SmsReceiveIndexer) : Nat × List Pdu × List SmsReceiveIndexer :=
  let pdus := List.replicate msgCount []
  if position.msgSeqId < 1 ∨ position.msgSeqId > msgCount then (1, pdus, rest)
  else
    smsPageLoop position.msgRefId msgCount 1 (pdus.set (position.msgSeqId - 1) position.pdu) rest

/-- `ReadySendSmsBroadcast`, called when the first PDU is not empty. -/
def readySendSmsBroadcast (ds : DataShare) (slotId : Nat) (t : SmsTable)
    (i : SmsReceiveIndexer) (pdus : List Pdu) : SmsTable × List Effect :=
  if pdus.getD 0 [] = [] then (t, [])
  else sendBroadcast ds slotId t (recoveredIndexer i) pdus

/-- The loop of `SmsReceiveReliabilityProcessing`, bounded like the one before. -/
def recoverSms (ds : DataShare) (slotId : Nat) : Nat → SmsTable → List SmsReceiveIndexer →
    SmsTable × List Effect
  | 0, t, _ => (t, [])
  | _ + 1, t, [] => (t, [])
  | n + 1, t, position :: rest =>
      let msgCount := position.msgCount
      if msgCount = 0 then recoverSms ds slotId n t rest
      else if msgCount = 1 then
        let (t, sent) := readySendSmsBroadcast ds slotId t position [position.pdu]
        let (t, out) := recoverSms ds slotId n t rest
        (t, sent ++ out)
      else
        let (smsPagesCount, pdus, rest) := getSmsUserDataMultipage msgCount position rest
        if msgCount ≠ smsPagesCount then recoverSms ds slotId n t rest
        else
          let (t, sent) := readySendSmsBroadcast ds slotId t position pdus
          let (t, out) := recoverSms ds slotId n t rest
          (t, sent ++ out)

def smsReceiveReliabilityProcessing (createMessage : Pdu → Option SmsBaseMessage)
    (ds : DataShare) (slotId : Nat) (t : SmsTable) : SmsTable × List Effect :=
  let dbIndexers := removeBlockedSms slotId t
  let (dbIndexers, wapOut) :=
    checkUnReceiveWapPush createMessage slotId dbIndexers.length dbIndexers
  let (t, out) := recoverSms ds slotId dbIndexers.length t dbIndexers
  (t, wapOut ++ out)

end TelephonySms.Receive
