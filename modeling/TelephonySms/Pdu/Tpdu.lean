import TelephonySms.Pdu.UserData

/-! # TPDUs

`GsmSmsTpduEncode`, `GsmSmsTpduDecode` and `GsmSmsTpduCodec`: the four kinds of
TPDU that are written and the three that are read.
-/

namespace TelephonySms.Pdu

open SmsPduBuffer

/-! ## Writing -/

/-- The flag of the octet at the index, which the index stays before. -/
def insertFlag (flag : Bool) (mask : UInt8) (b : SmsPduBuffer) : Option SmsPduBuffer :=
  if flag then do
    let oneByte ← b.getTopValue
    b.insertByte (oneByte ||| mask) b.index
  else some b

theorem insertFlag_cursor (passed rest : List UInt8) (flag : Bool) (mask w : UInt8) :
    insertFlag flag mask (cursor passed (w :: rest)) =
      some (cursor passed ((w ||| if flag then mask else 0) :: rest)) := by
  cases flag with
  | false => simp [insertFlag]
  | true => simp [insertFlag]

/-- Octets copied to the index, which moves behind them. -/
def copyOctets (octets : List UInt8) (b : SmsPduBuffer) : Option SmsPduBuffer := do
  let b ← b.copyHere octets
  some (b.moveForward octets.length)

theorem copyOctets_cursor (passed rest octets : List UInt8) (hne : octets ≠ [])
    (hroom : octets.length ≤ rest.length) :
    copyOctets octets (cursor passed rest) =
      some (cursor (passed ++ octets) (rest.drop octets.length)) := by
  have hpos := List.length_pos_iff.mpr hne
  have hfit : ¬ (cursor passed rest).index + octets.length > (cursor passed rest).getSize := by
    simp only [cursor_index, cursor_getSize]
    omega
  rw [copyOctets, copyHere, if_neg hfit, memcpy_cursor _ _ _ _ hpos (Nat.le_refl _)]
  simp only [Option.bind_eq_bind, Option.bind_some]
  rw [moveForward_cursor _ _ _ (by simp)]
  simp

theorem copyOctets_eq_some {octets : List UInt8} {b b' : SmsPduBuffer}
    (h : copyOctets octets b = some b') :
    octets ≠ [] ∧ b.index + octets.length ≤ b.getSize := by
  obtain ⟨c, hc, -⟩ := Option.bind_eq_some_iff.mp h
  unfold copyHere memcpy at hc
  split at hc
  · simp at hc
  split at hc
  · simp at hc
  · next hfit hdest =>
      refine ⟨?_, by omega⟩
      rintro rfl
      simp at hdest

/-- One octet of the string that `EncodeDCS` makes: of an empty one, the
terminator. -/
def copyDCS (dcs : SmsDcs) (b : SmsPduBuffer) : Option SmsPduBuffer := do
  let value ← encodeDCS dcs
  if b.index + 1 > b.getSize then none
  else
    let b ← b.memcpy (b.getSize - b.index - 1) [value.headD 0]
    some (b.moveForward 1)

def insertVpf (vpf : SmsVpf) (b : SmsPduBuffer) : Option SmsPduBuffer :=
  match vpf with
  | .enhanced => insertFlag true 0x08 b
  | .relative => insertFlag true 0x10 b
  | .absolute => insertFlag true 0x18 b
  | .notPresent | .other _ => some b

def encodeSubmitTpduType (b : SmsPduBuffer) (pSubmit : SmsSubmit) : SmsPduBuffer :=
  b.steps [fun b => b.insertByte 0x01 b.index,
    insertFlag pSubmit.bRejectDup 0x04,
    insertVpf pSubmit.vpf,
    insertFlag pSubmit.bStatusReport 0x20,
    insertFlag (pSubmit.bHeaderInd && ctSmsc ≠ pSubmit.destAddress.address) 0x40,
    insertFlag pSubmit.bReplyPath 0x80,
    fun b => some (b.moveForward 1)]

def encodeSubmitPduPartData (b : SmsPduBuffer) (pSubmit : SmsSubmit) : Option SmsPduBuffer := do
  let b ← copyDCS pSubmit.dcs b
  let vpTime := if pSubmit.vpf ≠ .notPresent then encodeTimePdu pSubmit.validityPeriod else []
  let b ← if vpTime = [] then some b else copyOctets vpTime b
  encodeUserDataPdu b pSubmit.userData pSubmit.dcs.codingScheme pSubmit.destAddress.address

def encodeSubmitPdu (b : SmsPduBuffer) (pSubmit : SmsSubmit) : Option SmsPduBuffer := do
  let b := encodeSubmitTpduType b pSubmit
  let b ← b.writeByte pSubmit.msgRef
  let address ← encodeAddressPdu pSubmit.destAddress
  let b ← copyOctets address b
  let b ← b.writeByte pSubmit.pid
  encodeSubmitPduPartData b pSubmit

/-- The index moves behind the first octet only with the reply-path flag. -/
def encodeDeliverReplyPath (b : SmsPduBuffer) (bReplyPath : Bool) : Option SmsPduBuffer :=
  if bReplyPath then do
    let oneByte ← b.getTopValue
    b.writeByte (oneByte ||| 0x80)
  else some b

def encodeDeliverData (b : SmsPduBuffer) (pDeliver : SmsDeliver) : Option SmsPduBuffer := do
  let b ← copyDCS pDeliver.dcs b
  let b ← copyOctets (encodeTimePdu pDeliver.timeStamp) b
  encodeUserDataPdu b pDeliver.userData pDeliver.dcs.codingScheme []

def encodeDeliverPartData (b : SmsPduBuffer) (pDeliver : SmsDeliver) : Option SmsPduBuffer := do
  let b ← encodeDeliverReplyPath b pDeliver.bReplyPath
  let address ← encodeAddressPdu pDeliver.originAddress
  let b ← copyOctets address b
  let b ← b.writeByte pDeliver.pid
  encodeDeliverData b pDeliver

def encodeDeliverPdu (b : SmsPduBuffer) (pDeliver : SmsDeliver) : Option SmsPduBuffer := do
  let b ← b.insertByte 0x00 b.index
  let b ← insertFlag (!pDeliver.bMoreMsg) 0x04 b
  let b ← insertFlag pDeliver.bStatusReport 0x20 b
  let b ← insertFlag pDeliver.bHeaderInd 0x40 b
  encodeDeliverPartData b pDeliver

def encodeDeliverReportPdu (b : SmsPduBuffer) (pDeliverRep : SmsDeliverReport) :
    Option SmsPduBuffer := do
  let b ← b.insertByte 0x00 b.index
  let b ← insertFlag pDeliverRep.bHeaderInd 0x40 b
  let b := b.moveForward 1
  let b ← if pDeliverRep.reportType = .negative then b.writeByte pDeliverRep.failCause else some b
  let b ← b.writeByte pDeliverRep.paramInd
  let b ← if pDeliverRep.paramInd &&& 0x01 ≠ 0 then b.writeByte pDeliverRep.pid else some b
  let b ← if pDeliverRep.paramInd &&& 0x02 ≠ 0 then copyDCS pDeliverRep.dcs b else some b
  if pDeliverRep.paramInd &&& 0x04 ≠ 0 then
    encodeUserDataPdu b pDeliverRep.userData pDeliverRep.dcs.codingScheme []
  else none

/-- Octets from the front of a string in its inline buffer: behind the
terminator the buffer is zero. -/
def stringOctets (value : List UInt8) (length : Nat) : List UInt8 :=
  (value ++ List.replicate length 0).take length

/-- The index moves behind the first octet only with the header flag. The
discharge time and the coding scheme are copied with the length of the service
centre time stamp. -/
def encodeStatusReportPdu (b : SmsPduBuffer) (pStatusRep : SmsStatusReport) :
    Option SmsPduBuffer := do
  let b ← b.insertByte 0x02 b.index
  let b ← insertFlag pStatusRep.bMoreMsg 0x04 b
  let b ← insertFlag pStatusRep.bStatusReport 0x20 b
  let b ←
    if pStatusRep.bHeaderInd then do
      let oneByte ← b.getTopValue
      b.writeByte (oneByte ||| 0x40)
    else some b
  let b ← b.writeByte pStatusRep.msgRef
  let address ← encodeAddressPdu pStatusRep.recipAddress
  let b ← copyOctets address b
  let scts := encodeTimePdu pStatusRep.timeStamp
  let b ← copyOctets scts b
  let b ← copyOctets (stringOctets (encodeTimePdu pStatusRep.dischargeTime) scts.length) b
  let b ← b.writeByte pStatusRep.status
  let b ← b.writeByte pStatusRep.paramInd
  let b ← if pStatusRep.paramInd &&& 0x01 ≠ 0 then b.writeByte pStatusRep.pid else some b
  let b ←
    if pStatusRep.paramInd &&& 0x02 ≠ 0 then do
      let dcs ← encodeDCS pStatusRep.dcs
      copyOctets (stringOctets dcs scts.length) b
    else some b
  if pStatusRep.paramInd &&& 0x04 ≠ 0 then
    encodeUserDataPdu b pStatusRep.userData pStatusRep.dcs.codingScheme []
  else none

/-- The `switch` of `EncodeSmsPdu` over the type of TPDU. -/
def encodeTpdu (b : SmsPduBuffer) : SmsTpdu → Option SmsPduBuffer
  | .submit submit => encodeSubmitPdu b submit
  | .deliver deliver => encodeDeliverPdu b deliver
  | .deliverRep deliverRep => encodeDeliverReportPdu b deliverRep
  | .statusRep statusRep => encodeStatusReportPdu b statusRep

/-- The octets `EncodeSmsPdu` puts into an array of `pduLen`. -/
def encodeSmsPdu (sourceData : SmsTpdu) (pduLen : Nat) : Option (List UInt8) :=
  if pduLen = 0 ∨ pduLen > 255 then none
  else do
    let pduBuffer ← encodeTpdu new sourceData
    if pduBuffer.index > pduLen then none else pduBuffer.getPduBuffer

theorem encodeSmsPdu_eq_some {sourceData : SmsTpdu} {pduLen : Nat} {octets : List UInt8}
    (h : encodeSmsPdu sourceData pduLen = some octets) :
    ∃ b, encodeTpdu new sourceData = some b ∧ 0 < b.index ∧ b.index < b.getSize ∧
      b.index ≤ pduLen ∧ pduLen ≤ 255 ∧ octets = b.data.take b.index := by
  unfold encodeSmsPdu at h
  split at h
  · simp at h
  · next hlen =>
      obtain ⟨b, hb, h⟩ := Option.bind_eq_some_iff.mp h
      split at h
      · simp at h
      · obtain ⟨hpos, hlt, hoctets⟩ := getPduBuffer_eq_some h
        exact ⟨b, hb, hpos, hlt, by omega, by omega, hoctets⟩

/-! ## Reading -/

/-- The flag `TP-RD` is read the other way round than it is written. -/
def decodeSubmit (coder : TextCoder) (b : SmsPduBuffer) : Option (SmsSubmit × SmsPduBuffer) := do
  let oneByte ← b.pickOneByte
  let b := b.moveForward 1
  let (msgRef, b) ← b.readByte
  let (destAddress, b) ← decodeAddressPdu coder b
  let (pid, b) ← b.readByte
  let (dcs, b) ← decodeDcsPdu b
  -- the validity period is not decoded
  let bHeaderInd := oneByte &&& 0x40 ≠ 0
  let (userData, _, b) ← decodeUserDataPdu coder b bHeaderInd dcs.codingScheme none
  let submit : SmsSubmit :=
    { bRejectDup := oneByte &&& 0x04 = 0
      bStatusReport := oneByte &&& 0x20 ≠ 0
      bHeaderInd := bHeaderInd
      bReplyPath := oneByte &&& 0x80 ≠ 0
      msgRef := msgRef
      vpf := SmsVpf.ofValue (oneByte &&& 0x18)
      destAddress := destAddress
      pid := pid
      dcs := dcs
      validityPeriod := .empty
      userData := userData }
  some (submit, b)

/-- The set and indicator bits of a voice mail, when it is one, and where the
buffer is left in either case. -/
def checkVoicemail (b : SmsPduBuffer) : Option (UInt8 × UInt8) × SmsPduBuffer :=
  match b.readByte with
  | none => (none, b)
  | some (oneByte, b) =>
      if oneByte ≠ 0x04 then (none, b.moveBack 1)
      else
        match b.readByte with
        | none => (none, b)
        | some (oneByte, b) =>
            if oneByte ≠ 0xD0 then (none, b.moveBack 1)
            else
              match b.pickOneByte with
              | none => (none, b)
              | some oneByte =>
                  if oneByte = 0x11 ∨ oneByte = 0x10 then
                    match b.readByte with
                    | none => (none, b)
                    | some (setByte, b) =>
                        match b.pickOneByte with
                        | none => (none, b.moveBack 1)
                        | some indByte => (some (setByte &&& 0x01, indByte &&& 0x01), b)
                  else (none, b)

def voicemailDcs (dcs : SmsDcs) (setType indType : UInt8) : SmsDcs :=
  { dcs with
    bMWI := true
    bIndActive := setType ≠ 0
    indType := if indType = 0 then .voiceIndicator else .voice2Indicator }

/-- The data coding scheme octet `0x84` stands for KSC5601. -/
def decodeDeliverDcs (b : SmsPduBuffer) : Option (SmsDcs × SmsPduBuffer) := do
  let (dcs, b) ← decodeDcsPdu b
  let oneByte ← b.pickOneByteFromIndex b.previousIndex
  some (if oneByte = 0x84 then { dcs with codingScheme := .dataCodingEuckr } else dcs, b)

def decodeDeliver (coder : TextCoder) (b : SmsPduBuffer) :
    Option (SmsDeliver × SmsPduBuffer) := do
  let (oneByte, b) ← b.readByte
  let (originAddress, b) ← decodeAddressPdu coder b
  let (pid, b) ← b.readByte
  let (dcs, b) ← decodeDeliverDcs b
  let (dcs, b) :=
    if pid = 0x20 ∧ originAddress.ton = 5 then
      match checkVoicemail b with
      | (some (setType, indType), b) => (voicemailDcs dcs setType indType, b)
      | (none, b) => (dcs, b)
    else (dcs, b)
  let (timeStamp, b) ← decodeTimePdu b
  let bHeaderInd := oneByte &&& 0x40 ≠ 0
  let (userData, udData, b) ←
    decodeUserDataPdu coder b bHeaderInd dcs.codingScheme (some SmsTpud.zero)
  let deliver : SmsDeliver :=
    { bMoreMsg := oneByte &&& 0x04 = 0
      bStatusReport := oneByte &&& 0x20 ≠ 0
      bHeaderInd := bHeaderInd
      bReplyPath := oneByte &&& 0x80 ≠ 0
      originAddress := originAddress
      pid := pid
      dcs := dcs
      timeStamp := timeStamp
      userData := userData
      udData := udData.getD SmsTpud.zero }
  some (deliver, b)

/-- The parameters after `TP-PI`, on the record as it is without them. -/
def decodeStatusReportData (coder : TextCoder) (b : SmsPduBuffer) (statusRep : SmsStatusReport) :
    Option (SmsStatusReport × SmsPduBuffer) := do
  let (pid, b) ← if statusRep.paramInd &&& 0x01 ≠ 0 then b.readByte else some (statusRep.pid, b)
  let (dcs, b) ← if statusRep.paramInd &&& 0x02 ≠ 0 then decodeDcsPdu b else some (statusRep.dcs, b)
  let (userData, b) ←
    if statusRep.paramInd &&& 0x04 ≠ 0 then do
      let (userData, _, b) ←
        decodeUserDataPdu coder b statusRep.bHeaderInd dcs.codingScheme none
      some (userData, b)
    else some (statusRep.userData, b)
  some ({ statusRep with pid := pid, dcs := dcs, userData := userData }, b)

/-- Without parameters the scheme is the default one. -/
def defaultDcs : SmsDcs :=
  { SmsDcs.zero with msgClass := .classUnknown, indType := .otherIndicator }

def decodeStatusReport (coder : TextCoder) (b : SmsPduBuffer) :
    Option (SmsStatusReport × SmsPduBuffer) := do
  let (oneByte, b) ← b.readByte
  let (msgRef, b) ← b.readByte
  let (recipAddress, b) ← decodeAddressPdu coder b
  let (timeStamp, b) ← decodeTimePdu b
  let (dischargeTime, b) ← decodeTimePdu b
  let (status, b) ← b.readByte
  let statusRep : SmsStatusReport :=
    { bMoreMsg := oneByte &&& 0x04 = 0
      bStatusReport := oneByte &&& 0x20 ≠ 0
      bHeaderInd := oneByte &&& 0x40 ≠ 0
      msgRef := msgRef
      recipAddress := recipAddress
      timeStamp := timeStamp
      dischargeTime := dischargeTime
      status := status
      paramInd := 0
      pid := 0
      dcs := SmsDcs.zero
      userData := SmsUDPackage.zero }
  match b.readByte with
  | none => some (statusRep, b)
  | some (paramInd, b) =>
      let dcs := if paramInd = 0 then defaultDcs else SmsDcs.zero
      decodeStatusReportData coder b { statusRep with paramInd := paramInd, dcs := dcs }

/-- The `switch` of `DecodeSmsPdu` over the message type indicator. -/
def decodeTpdu (coder : TextCoder) (mti : UInt8) (buffer : SmsPduBuffer) :
    Option (SmsTpdu × SmsPduBuffer) :=
  if mti = 1 then do
    let (submit, buffer) ← decodeSubmit coder buffer
    some (.submit submit, buffer)
  else if mti = 2 then do
    let (statusRep, buffer) ← decodeStatusReport coder buffer
    some (.statusRep statusRep, buffer)
  else do
    let (deliver, buffer) ← decodeDeliver coder buffer
    some (.deliver deliver, buffer)

theorem decodeTpdu_submit {coder : TextCoder} {mti : UInt8} {b b' : SmsPduBuffer}
    {submit : SmsSubmit} (h : decodeTpdu coder mti b = some (.submit submit, b')) :
    decodeSubmit coder b = some (submit, b') := by
  unfold decodeTpdu at h
  split at h
  · obtain ⟨⟨submit', b''⟩, hsubmit, h⟩ := Option.bind_eq_some_iff.mp h
    cases h
    exact hsubmit
  split at h
  · obtain ⟨_, -, h⟩ := Option.bind_eq_some_iff.mp h
    cases h
  · obtain ⟨_, -, h⟩ := Option.bind_eq_some_iff.mp h
    cases h

/-- What `DecodeSmsPdu` leaves in a zero-initialised record, when it succeeds. -/
def decodeSmsPdu (coder : TextCoder) (pTpdu : List UInt8) : Option SmsTpdu :=
  if pTpdu.length = 0 ∨ pTpdu.length > 520 then none
  else do
    let (smsTpdu, buffer) ← decodeTpdu coder (pTpdu.headD 0 &&& 0x03) (ofHex pTpdu)
    if buffer.index ≤ pTpdu.length + 1 then some smsTpdu else none

theorem decodeSmsPdu_eq_some {coder : TextCoder} {pTpdu : List UInt8} {smsTpdu : SmsTpdu}
    (h : decodeSmsPdu coder pTpdu = some smsTpdu) :
    ∃ b, decodeTpdu coder (pTpdu.headD 0 &&& 0x03) (ofHex pTpdu) = some (smsTpdu, b) := by
  unfold decodeSmsPdu at h
  split at h
  · simp at h
  · obtain ⟨⟨tpdu, b⟩, hb, h⟩ := Option.bind_eq_some_iff.mp h
    simp only at h
    split at h
    · cases h
      exact ⟨b, hb⟩
    · simp at h

end TelephonySms.Pdu
