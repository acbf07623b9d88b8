import TelephonySms.Pdu.Deliver
import TelephonySms.Receive.Recovered
import TelephonySms.Text.Shift

/-! # The payload of a WAP push in several parts

Every part carries octets behind its user data header. The live path reads them from the
copy the decoder makes for WAP push and cuts off what looks like a concatenation element;
recovery reads the decoded user data instead. Both are followed here from the octets of
the parts to the argument of `DecodeWapPushPdu`.
-/

namespace TelephonySms.Receive

open TelephonySms.Pages TelephonySms.Pdu TelephonySms.Text

/-! ## Parsing a stored part -/

/-- Octets that `DecodeSmscPdu` takes for the address of the service centre; none when
the length octet cannot be one. -/
def decodeSmscPdu (pTpdu : Pdu) : Nat :=
  match pTpdu with
  | [] => 0
  | addrLen :: _ =>
      if addrLen = 0 then 1
      else if addrLen.toNat ≥ pTpdu.length ∨ 1 ≥ pTpdu.length then 0
      else if addrLen > 21 ∨ 2 + addrLen.toNat ≥ pTpdu.length then 0
      else 2 + (addrLen.toNat - 1)

section CreateMessage

variable (order : ByteOrder) (iconv : Iconv) (euckrToUtf8 : List UInt8 → List UInt8)
  (coder : TextCoder)

/-- `ConvertUserData`; only a delivered message has octets for WAP push. -/
def convertUserData : SmsTpdu → Option UserPart
  | .deliver deliver =>
      some (convertUserPartData order iconv euckrToUtf8 deliver.dcs.codingScheme
        deliver.userData deliver.udData)
  | .statusRep statusRep =>
      some (convertUserPartData order iconv euckrToUtf8 statusRep.dcs.codingScheme
        statusRep.userData .zero)
  | .submit submit =>
      some (convertUserPartData order iconv euckrToUtf8 submit.dcs.codingScheme
        submit.userData .zero)
  | .deliverRep _ => none

/-- `CreateMessage` and `PduAnalysis`. The fields that no payload is made of are `others`. -/
def createMessage (others : Pdu → SmsTpdu → SmsBaseMessage) (pdu : Pdu) :
    Option SmsBaseMessage :=
  if pdu = [] ∨ pdu.length > maxTpduDataLen then none
  else if decodeSmscPdu pdu ≥ pdu.length then none
  else do
    let smsTpdu ← decodeSmsPdu coder (pdu.drop (decodeSmscPdu pdu))
    let part ← convertUserData order iconv euckrToUtf8 smsTpdu
    some { others pdu smsTpdu with
      rawPdu := pdu
      rawUserData := part.rawUserData
      rawWapPushUserData := part.rawWapPushUserData }

end CreateMessage

/-! ## Parts -/

def isConcat : SmsUDH → Bool
  | .concat8Bit .. => true
  | .concat16Bit .. => true
  | _ => false

/-- The parameters of a delivered message up to its user data, which has headers and is
in the 8-bit scheme. -/
def DeliversOctets (coder : TextCoder) (front : List UInt8) : Prop :=
  (∃ first more, front = first :: more ∧ first &&& 0x03 = 0) ∧
    ∃ deliver : SmsDeliver, deliver.dcs.codingScheme = .dataCoding8Bit ∧
      ∀ rest, decodeDeliver coder (SmsPduBuffer.cursor [] (front ++ rest)) =
        (decode8bitPdu coder (SmsPduBuffer.cursor front rest) true (some SmsTpud.zero)).bind
          fun u => some ({ deliver with userData := u.1, udData := u.2.1.getD SmsTpud.zero },
            u.2.2)

theorem deliversOctets_of_kept (coder : TextCoder) {num : AddressNumber} (hnum : num.Encodable)
    (hlen : num.address.length ≤ 20) (hkept : num.Kept) {oneByte v : UInt8} (pid : UInt8)
    (hmti : oneByte &&& 0x03 = 0) (hudhi : oneByte &&& 0x40 ≠ 0) (hv : v ≠ 0x84)
    (hscheme : (decodeDcs v).codingScheme = .dataCoding8Bit)
    (year month day hour minute second zone : UInt8) :
    DeliversOctets coder (oneByte :: (num.octets ++
      [pid, v, year, month, day, hour, minute, second, zone])) := by
  refine ⟨⟨_, _, rfl, hmti⟩, ⟨oneByte &&& 0x04 = 0, oneByte &&& 0x20 ≠ 0, true,
    oneByte &&& 0x80 ≠ 0, num, pid, decodeDcs v, .absolute ⟨timeFieldValue year,
      timeFieldValue month, timeFieldValue day, timeFieldValue hour, timeFieldValue minute,
      timeFieldValue second, decodeTimeZone zone⟩, .zero, .zero⟩, hscheme, ?_⟩
  intro rest
  have hsplit : oneByte :: (num.octets ++
      [pid, v, year, month, day, hour, minute, second, zone]) ++ rest =
      oneByte :: (num.octets ++ pid :: v ::
        (year :: month :: day :: hour :: minute :: second :: zone :: rest)) := by
    simp
  rw [hsplit, decodeDeliver_cursor coder hnum hlen hkept oneByte pid hv, decodeTimePdu_cursor]
  simp [hudhi, hscheme, decodeUserDataPdu]

/-- A part of a WAP push: the service centre, the parameters before the user data, the
elements of the user data header and the octets that follow them. -/
structure WapPart (coder : TextCoder) where
  smsc : List UInt8
  front : List UInt8
  header : List SmsUDH
  payload : List UInt8
  concat : header.any isConcat = true
  plain : header.all SmsUDH.isPlain = true
  headers : header.length ≤ 7
  delivers : DeliversOctets coder front
  udl_le : (header.flatMap headerOctets).length + 1 + payload.length ≤ 140
  pdu_le : smsc.length + front.length + 2 + (header.flatMap headerOctets).length +
    payload.length ≤ 255
  smsc_read : ∀ rest, rest ≠ [] → decodeSmscPdu (smsc ++ (front ++ rest)) = smsc.length

namespace WapPart

variable {coder : TextCoder} (part : WapPart coder)

def udh : List UInt8 := part.header.flatMap headerOctets

/-- `TP-UDL`, `UDHL`, the header and what follows it. -/
def ud : List UInt8 :=
  UInt8.ofNat (part.udh.length + 1 + part.payload.length) ::
    UInt8.ofNat part.udh.length :: (part.udh ++ part.payload)

def pdu : Pdu := part.smsc ++ (part.front ++ part.ud)

end WapPart

/-- The octets read one further on, with a zero for the octet that is missing. -/
def lateOctets : List UInt8 → List UInt8
  | [] => []
  | _ :: rest => rest ++ [0]

@[simp] theorem length_lateOctets (octets : List UInt8) :
    (lateOctets octets).length = octets.length := by
  cases octets <;> simp [lateOctets]

theorem getD_lateOctets (octets : List UInt8) {i : Nat} (h : i < octets.length) :
    (lateOctets octets).getD i 0 = octets.getD (1 + i) 0 := by
  cases octets with
  | nil => simp at h
  | cons first rest =>
      simp only [lateOctets, Nat.add_comm 1 i, List.getD_cons_succ]
      simp only [List.length_cons] at h
      by_cases hlt : i < rest.length
      · rw [List.getD_append _ _ _ _ hlt]
      · rw [List.getD_append_right _ _ _ _ (by omega), List.getD_eq_default rest 0 (by omega)]
        have hzero : i - rest.length = 0 := by omega
        rw [hzero]
        rfl

/-- Only zeros stay as they are. -/
theorem lateOctets_eq_self_iff (octets : List UInt8) :
    lateOctets octets = octets ↔ ∀ octet ∈ octets, octet = 0 := by
  induction octets with
  | nil => simp [lateOctets]
  | cons first rest ih =>
      simp only [lateOctets, List.forall_mem_cons]
      cases rest with
      | nil => simp [eq_comm]
      | cons second rest =>
          simp only [lateOctets] at ih
          simp only [List.cons_append, List.cons.injEq]
          rw [ih]
          simp only [List.forall_mem_cons]
          constructor
          · intro h
            exact ⟨by rw [← h.1, h.2.1], h.2⟩
          · intro h
            exact ⟨by rw [h.1, h.2.1], h.2⟩

/-! ## What is read of a part -/

/-- A part is read with the octets of its payload for the live path and late ones for
recovery. -/
def ReadsPart (createMessage : Pdu → Option SmsBaseMessage) {coder : TextCoder}
    (part : WapPart coder) : Prop :=
  part.pdu ≠ [] ∧ ∃ m, createMessage part.pdu = some m ∧
    m.rawUserData = lateOctets part.payload ∧ m.rawWapPushUserData = part.payload

theorem wapPushOctets_of_lt {octets : List UInt8} (h : octets.length < 256) :
    wapPushOctets ⟨UInt8.ofNat octets.length, octets⟩ = octets := by
  have hoctet : (UInt8.ofNat octets.length).toNat = octets.length := by
    rw [UInt8.toNat_ofNat', Nat.mod_eq_of_lt h]
  simp only [wapPushOctets, hoctet, Nat.sub_self, List.replicate_zero, List.append_nil,
    List.take_length]

namespace WapPart

variable {coder : TextCoder} (part : WapPart coder)

theorem udh_length_pos : 0 < part.udh.length := by
  obtain ⟨element, hmem, -⟩ := List.any_eq_true.mp part.concat
  have hplain := List.all_eq_true.mp part.plain element hmem
  have hthree := three_le_length_headerOctets hplain
  have hle : (headerOctets element).length ≤ part.udh.length :=
    (List.sublist_flatten_of_mem (List.mem_map_of_mem hmem)).length_le
  omega

/-- The user data read for a part, and the octets kept for WAP push. -/
theorem decode8bitPdu_ud :
    ∃ b, decode8bitPdu coder (SmsPduBuffer.cursor part.front part.ud) true (some SmsTpud.zero) =
        some (⟨part.header, lateOctets part.payload⟩,
          some (if part.payload = [] then SmsTpud.zero
            else ⟨UInt8.ofNat part.payload.length, part.payload⟩), b) ∧
      b.index ≤ part.front.length + part.ud.length := by
  have hpos := part.udh_length_pos
  have hudl : part.udh.length + 1 + part.payload.length ≤ 140 := part.udl_le
  have hpdu := part.pdu_le
  obtain ⟨udl, hsum⟩ : ∃ udl, part.udh.length + 1 + part.payload.length = udl := ⟨_, rfl⟩
  have hlen : (lateOctets part.payload).length = bodyLength udl part.udh.length := by
    rw [length_lateOctets, bodyLength, if_pos (by omega)]
    omega
  have hdata : ∀ i < (lateOctets part.payload).length, (lateOctets part.payload).getD i 0 =
      part.payload.getD (bodySkip .dataCoding8Bit udl part.udh.length + i) 0 := by
    intro i hi
    rw [bodySkip, if_pos ⟨rfl, by omega⟩]
    exact getD_lateOctets _ (by simpa using hi)
  have hroom : (part.front ++ [UInt8.ofNat udl]).length + 1 + part.udh.length +
      part.payload.length < 256 := by
    have hudh : part.udh.length = (part.header.flatMap headerOctets).length := rfl
    simp only [List.length_append, List.length_singleton]
    omega
  obtain ⟨b, hpart, hindex⟩ := decode8bitPduPartData_append coder
    (part.front ++ [UInt8.ofNat udl]) part.plain part.headers hroom hlen hdata
  change decode8bitPduPartData coder (SmsPduBuffer.cursor (part.front ++ [UInt8.ofNat udl])
    (UInt8.ofNat part.udh.length :: (part.udh ++ part.payload))) true udl = _ at hpart
  change b.index ≤ (part.front ++ [UInt8.ofNat udl]).length + 1 + part.udh.length +
    part.payload.length at hindex
  have hudlOctet : (UInt8.ofNat udl).toNat = udl := by
    rw [UInt8.toNat_ofNat', Nat.mod_eq_of_lt (by omega)]
  have hudhlOctet : (UInt8.ofNat part.udh.length).toNat = part.udh.length := by
    rw [UInt8.toNat_ofNat', Nat.mod_eq_of_lt (by omega)]
  have hsmall : ¬ UInt8.ofNat udl > 140 := by
    rw [gt_iff_lt, UInt8.lt_iff_toNat_lt, hudlOctet]
    simpa using hsum ▸ hudl
  refine ⟨b, ?_, ?_⟩
  · rw [ud, hsum]
    simp only [decode8bitPdu, SmsPduBuffer.readByte_cursor_cons, Option.bind_eq_bind,
      Option.bind_some, if_neg hsmall, hudlOctet, SmsPduBuffer.pickOneByte_cursor_cons,
      Option.getD_some, hudhlOctet, hpart, Option.isSome_some, true_and]
    by_cases hempty : part.payload = []
    · have hnone : ¬ udl > part.udh.length + 1 := by
        rw [hempty] at hsum
        simp only [List.length_nil] at hsum
        omega
      simp [if_neg hnone, hempty]
    · have hsome : udl > part.udh.length + 1 := by
        have := List.length_pos_of_ne_nil hempty
        omega
      have hkept : udl - (part.udh.length + 1) = part.payload.length := by omega
      have hdrop : (part.front ++ UInt8.ofNat udl :: UInt8.ofNat part.udh.length ::
          (part.udh ++ part.payload)).drop (part.front.length + 1 + (part.udh.length + 1)) =
          part.payload := by
        have hsplit : part.front ++ UInt8.ofNat udl :: UInt8.ofNat part.udh.length ::
            (part.udh ++ part.payload) = (part.front ++ UInt8.ofNat udl ::
              UInt8.ofNat part.udh.length :: part.udh) ++ part.payload := by
          simp
        rw [hsplit, List.drop_left' (by simp; omega)]
      rw [if_pos hsome, if_neg (by simp; omega), if_neg hempty, hkept]
      simp [SmsPduBuffer.octets, SmsPduBuffer.cursor, hdrop]
  · simp only [ud, List.length_cons, List.length_append, List.length_nil] at hindex ⊢
    omega

theorem decodeSmsPdu_eq :
    ∃ deliver : SmsDeliver, deliver.dcs.codingScheme = .dataCoding8Bit ∧
      decodeSmsPdu coder (part.front ++ part.ud) = some (.deliver { deliver with
        userData := ⟨part.header, lateOctets part.payload⟩
        udData := if part.payload = [] then SmsTpud.zero
          else ⟨UInt8.ofNat part.payload.length, part.payload⟩ }) := by
  obtain ⟨⟨first, more, hfront, hmti⟩, deliver, hscheme, hdecode⟩ := part.delivers
  obtain ⟨b, hud, hindex⟩ := part.decode8bitPdu_ud
  refine ⟨deliver, hscheme, ?_⟩
  have hdeliver := hdecode part.ud
  rw [hud, Option.bind_some] at hdeliver
  have hpdu := part.pdu_le
  have hudh : part.udh.length = (part.header.flatMap headerOctets).length := rfl
  have hlen : (part.front ++ part.ud).length =
      part.front.length + 2 + part.udh.length + part.payload.length := by
    simp only [ud, List.length_append, List.length_cons]
    omega
  have hhead : (part.front ++ part.ud).headD 0 &&& 0x03 = 0 := by
    rw [hfront]
    exact hmti
  rw [decodeSmsPdu, if_neg (by omega), hhead, SmsPduBuffer.ofHex_eq_cursor (by omega) (by omega)]
  simp only [decodeTpdu, show ¬ (0 : UInt8) = 1 by decide, show ¬ (0 : UInt8) = 2 by decide,
    if_false, hdeliver, Option.bind_eq_bind, Option.bind_some, Option.getD_some]
  rw [if_pos]
  rw [List.length_append]
  omega

theorem reads (order : ByteOrder) (iconv : Iconv) (euckrToUtf8 : List UInt8 → List UInt8)
    (others : Pdu → SmsTpdu → SmsBaseMessage) :
    ReadsPart (createMessage order iconv euckrToUtf8 coder others) part := by
  refine ⟨by simp [pdu, ud], ?_⟩
  obtain ⟨deliver, hscheme, hdecode⟩ := part.decodeSmsPdu_eq
  have hpdu := part.pdu_le
  have hudh : part.udh.length = (part.header.flatMap headerOctets).length := rfl
  have hlen : part.pdu.length =
      part.smsc.length + part.front.length + 2 + part.udh.length + part.payload.length := by
    simp only [pdu, ud, List.length_append, List.length_cons]
    omega
  have hsmsc : decodeSmscPdu part.pdu = part.smsc.length :=
    part.smsc_read part.ud (by simp [ud])
  have hlong : ¬ (part.pdu = [] ∨ part.pdu.length > maxTpduDataLen) := by
    rw [← List.length_eq_zero_iff, maxTpduDataLen]
    omega
  have hrest : part.pdu.drop part.smsc.length = part.front ++ part.ud := by
    simp [pdu]
  rw [createMessage, if_neg hlong, hsmsc, if_neg (by omega), hrest, hdecode]
  refine ⟨_, rfl, ?_, ?_⟩
  · cases part.payload <;> simp [convertUserPartData, lateOctets]
  · by_cases hempty : part.payload = []
    · simp [hempty, convertUserPartData, lateOctets]
    · have hshort : part.payload.length < 256 := by omega
      simp [convertUserPartData, hempty, wapPushOctets_of_lt hshort]

end WapPart

/-! ## The two paths -/

/-- A WAP push in several parts, in sequence order. -/
structure WapPush (coder : TextCoder) where
  parts : List (WapPart coder)
  several : 2 ≤ parts.length

namespace WapPush

variable {coder : TextCoder} (push : WapPush coder)

def pdus : List Pdu := push.parts.map (·.pdu)

/-- What the sender split up. -/
def payload : Pdu := push.parts.flatMap (·.payload)

/-- The rows from `place` on hold every part of the push and nothing else under its
reference, in any order. -/
structure Stored (place : SmsReceiveIndexer) (rest : List SmsReceiveIndexer) : Prop where
  port : place.getIsWapPushMsg = true
  msgCount : place.msgCount = push.parts.length
  group : (((place :: rest).filter (place.msgRefId = ·.msgRefId)).map
    fun r => (r.msgSeqId, r.pdu)).Perm ((push.parts.zipIdx 1).map fun e => (e.2, e.1.pdu))

end WapPush

/-- What a round of `CheckUnReceiveWapPush` at a row of several parts hands on. -/
def wapRound (createMessage : Pdu → Option SmsBaseMessage) (slotId : Nat)
    (row : SmsReceiveIndexer) (rest : List SmsReceiveIndexer) : Option Effect :=
  let round := getWapPushUserDataMultipage createMessage row (List.replicate maxSegmentNum [])
    rest
  if row.msgCount ≠ round.1 then none else readyDecodeWapPushUserData slotId row round.2.1

theorem checkUnReceiveWapPush_round (createMessage : Pdu → Option SmsBaseMessage)
    (slotId n : Nat) {row : SmsReceiveIndexer} (hport : row.getIsWapPushMsg = true)
    (hmulti : row.msgCount ≠ 1) (rest : List SmsReceiveIndexer) :
    ∃ rows, checkUnReceiveWapPush createMessage slotId (n + 1) (row :: rest) =
      ((checkUnReceiveWapPush createMessage slotId n rows).1,
        (wapRound createMessage slotId row rest).toList ++
          (checkUnReceiveWapPush createMessage slotId n rows).2) := by
  have hdest : row.destPort = wapPushPort := by
    simpa [SmsReceiveIndexer.getIsWapPushMsg] using hport
  refine ⟨(getWapPushUserDataMultipage createMessage row (List.replicate maxSegmentNum [])
    rest).2.2, ?_⟩
  simp only [checkUnReceiveWapPush, hdest, ne_eq, not_true_eq_false, if_false, hmulti, wapRound]
  split <;> simp

/-- The payload `DecodeWapPushPdu` is called with. -/
def Effect.wapPayload : Effect → Option Pdu
  | .wapPush _ _ wapPdu => some wapPdu
  | _ => none

/-- Both paths hand on exactly what the sender split up, recovery wherever the parts are
stored. -/
structure HandsOnPayload (createMessage : Pdu → Option SmsBaseMessage) {coder : TextCoder}
    (push : WapPush coder) : Prop where
  live : ∀ (ds : DataShare) (slotId : Nat) (t : SmsTable) (indexer : SmsReceiveIndexer),
    indexer.getIsWapPushMsg = true →
      (updateMultiPageMessage createMessage indexer push.pdus).map
          (fun i => (deliverMessage ds slotId t i push.pdus).2.filterMap Effect.wapPayload) =
        some [push.payload]
  recovered : ∀ (slotId : Nat) (row : SmsReceiveIndexer) (rest : List SmsReceiveIndexer),
    push.Stored row rest →
      (wapRound createMessage slotId row rest).bind Effect.wapPayload = some push.payload

/-! ## The live path -/

theorem stripWapSeqNumber_of_not_tag {wapData : Pdu} (h : wapData.take 2 ≠ wapSeqNumberTag) :
    stripWapSeqNumber wapData = some wapData :=
  if_neg h

/-- Five octets are gone for every text that starts with the tag. -/
theorem length_mapM_stripWapSeqNumber {texts data : List Pdu}
    (h : texts.mapM stripWapSeqNumber = some data) :
    data.flatten.length + wapSeqNumberLen * texts.countP (·.take 2 = wapSeqNumberTag) =
      texts.flatten.length := by
  induction texts generalizing data with
  | nil =>
      simp only [List.mapM_nil, Option.pure_def, Option.some.injEq] at h
      subst h
      rfl
  | cons text texts ih =>
      rw [List.mapM_cons] at h
      obtain ⟨stripped, hstrip, h⟩ := Option.bind_eq_some_iff.mp h
      obtain ⟨rest, hrest, h⟩ := Option.bind_eq_some_iff.mp h
      cases h
      have hlen := ih hrest
      rw [List.countP_cons, List.flatten_cons, List.flatten_cons, List.length_append,
        List.length_append]
      unfold stripWapSeqNumber at hstrip
      split at hstrip
      · rename_i htag
        split at hstrip
        · cases hstrip
        · rename_i hlong
          cases hstrip
          rw [if_pos (by simpa using htag), List.length_drop, Nat.mul_add]
          omega
      · rename_i htag
        cases hstrip
        rw [if_neg (by simpa using htag), Nat.add_zero]
        omega

theorem mapM_stripWapSeqNumber_iff (texts : List Pdu) :
    (texts.mapM stripWapSeqNumber).map List.flatten = some texts.flatten ↔
      ∀ text ∈ texts, text.take 2 ≠ wapSeqNumberTag := by
  constructor
  · intro h
    obtain ⟨data, hdata, heq⟩ := Option.map_eq_some_iff.mp h
    have hlen := length_mapM_stripWapSeqNumber hdata
    have hzero : texts.countP (·.take 2 = wapSeqNumberTag) = 0 := by
      rw [heq, wapSeqNumberLen] at hlen
      omega
    intro text htext htag
    exact List.countP_eq_zero.mp hzero text htext (by simpa using htag)
  · intro h
    have hall : texts.mapM stripWapSeqNumber = some texts := by
      induction texts with
      | nil => rfl
      | cons text texts ih =>
          rw [List.mapM_cons, stripWapSeqNumber_of_not_tag (h text (by simp)),
            ih fun other hother => h other (by simp [hother])]
          rfl
    rw [hall]
    rfl

section Live

variable {createMessage : Pdu → Option SmsBaseMessage} {coder : TextCoder}

theorem mapM_pageMessages {parts : List (WapPart coder)}
    (hreads : ∀ part ∈ parts, ReadsPart createMessage part) :
    (pageMessages createMessage (parts.map (·.pdu))).mapM
        (fun m => stripWapSeqNumber m.rawWapPushUserData) =
      (parts.map (·.payload)).mapM stripWapSeqNumber := by
  induction parts with
  | nil => rfl
  | cons part parts ih =>
      obtain ⟨hne, m, hm, -, hpayload⟩ := hreads part (by simp)
      have hpages : pageMessages createMessage ((part :: parts).map (·.pdu)) =
          m :: pageMessages createMessage (parts.map (·.pdu)) := by
        simp [pageMessages, hne, hm]
      rw [hpages, List.mapM_cons, List.map_cons, List.mapM_cons, hpayload,
        ih fun other hother => hreads other (by simp [hother])]

theorem livePayload_iff (push : WapPush coder)
    (hreads : ∀ part ∈ push.parts, ReadsPart createMessage part) (ds : DataShare) (slotId : Nat)
    (t : SmsTable) (indexer : SmsReceiveIndexer) (hport : indexer.getIsWapPushMsg = true) :
    (updateMultiPageMessage createMessage indexer push.pdus).map
        (fun i => (deliverMessage ds slotId t i push.pdus).2.filterMap Effect.wapPayload) =
        some [push.payload] ↔
      ∀ part ∈ push.parts, part.payload.take 2 ≠ wapSeqNumberTag := by
  have hdest : indexer.destPort = wapPushPort := by
    simpa [SmsReceiveIndexer.getIsWapPushMsg] using hport
  have hupdate : (updateMultiPageMessage createMessage indexer push.pdus).map
      (fun i => (deliverMessage ds slotId t i push.pdus).2.filterMap Effect.wapPayload) =
      (((push.parts.map (·.payload)).mapM stripWapSeqNumber).map List.flatten).map
        fun data => [data] := by
    rw [← mapM_pageMessages hreads]
    simp only [updateMultiPageMessage, SmsReceiveIndexer.getIsWapPushMsg, hdest, decide_true,
      if_true, combinedWapUserData, WapPush.pdus]
    cases (pageMessages createMessage (push.parts.map (·.pdu))).mapM
        (fun m => stripWapSeqNumber m.rawWapPushUserData) with
    | none => rfl
    | some data =>
        simp [deliverMessage, SmsReceiveIndexer.getIsWapPushMsg, Effect.wapPayload]
  have hiff := mapM_stripWapSeqNumber_iff (push.parts.map (·.payload))
  rw [hupdate, WapPush.payload, List.flatMap_def]
  rw [List.forall_mem_map] at hiff
  rw [← hiff]
  constructor
  · intro h
    obtain ⟨data, hdata, heq⟩ := Option.map_eq_some_iff.mp h
    rw [hdata]
    simpa using heq
  · intro h
    rw [h]
    rfl

end Live

/-! ## Recovery -/

section Recovery

variable {createMessage : Pdu → Option SmsBaseMessage} {coder : TextCoder} {push : WapPush coder}
  {row : SmsReceiveIndexer} {rest : List SmsReceiveIndexer}

namespace WapPush.Stored

/-- Every row of the group is the row of a part. -/
theorem part_of_mem (h : push.Stored row rest) {r : SmsReceiveIndexer}
    (hr : r ∈ (row :: rest).filter (row.msgRefId = ·.msgRefId)) :
    ∃ k part, push.parts[k]? = some part ∧ r.msgSeqId = k + 1 ∧ r.pdu = part.pdu := by
  have hmem := h.group.mem_iff.mp (List.mem_map_of_mem (f := fun r => (r.msgSeqId, r.pdu)) hr)
  obtain ⟨⟨part, i⟩, he, heq⟩ := List.mem_map.mp hmem
  obtain ⟨hle, hget⟩ := List.mem_zipIdx_iff_le_and_getElem?_sub.mp he
  simp only [Prod.mk.injEq] at heq hle
  exact ⟨i - 1, part, hget, by omega, heq.2.symm⟩

/-- Every part has a row in the group. -/
theorem row_of_part (h : push.Stored row rest) {k : Nat} {part : WapPart coder}
    (hpart : push.parts[k]? = some part) :
    ∃ r ∈ (row :: rest).filter (row.msgRefId = ·.msgRefId),
      r.msgSeqId = k + 1 ∧ r.pdu = part.pdu := by
  have hmem : (k + 1, part.pdu) ∈ (push.parts.zipIdx 1).map fun e => (e.2, e.1.pdu) := by
    apply List.mem_map.mpr
    refine ⟨(part, k + 1), ?_, rfl⟩
    exact List.mem_zipIdx_iff_le_and_getElem?_sub.mpr ⟨by simp, by simpa using hpart⟩
  obtain ⟨r, hr, heq⟩ := List.mem_map.mp (h.group.mem_iff.mpr hmem)
  simp only [Prod.mk.injEq] at heq
  exact ⟨r, hr, heq⟩

theorem positions_nodup (h : push.Stored row rest) :
    (((row :: rest).filter (row.msgRefId = ·.msgRefId)).map fun r => r.msgSeqId - 1).Nodup := by
  have hperm := h.group.map fun e : Nat × Pdu => e.1 - 1
  rw [List.map_map, List.map_map] at hperm
  have hrange : (push.parts.zipIdx 1).map
      ((fun e : Nat × Pdu => e.1 - 1) ∘ fun e => (e.2, e.1.pdu)) =
      List.range push.parts.length := by
    apply List.ext_getElem
    · simp
    · intro k hk hk'
      simp
  rw [hrange] at hperm
  exact hperm.nodup_iff.mpr List.nodup_range

theorem length_group (h : push.Stored row rest) :
    ((row :: rest).filter (row.msgRefId = ·.msgRefId)).length = push.parts.length := by
  have hlen := h.group.length_eq
  simpa using hlen

theorem wapPage (h : push.Stored row rest)
    (hreads : ∀ part ∈ push.parts, ReadsPart createMessage part)
    (hle : push.parts.length ≤ maxSegmentNum) {r : SmsReceiveIndexer}
    (hr : r ∈ (row :: rest).filter (row.msgRefId = ·.msgRefId)) :
    WapPage createMessage r := by
  obtain ⟨k, part, hpart, hseq, hpdu⟩ := h.part_of_mem hr
  obtain ⟨hne, m, hm, -⟩ := hreads part (List.mem_of_getElem? hpart)
  obtain ⟨hk, -⟩ := List.getElem?_eq_some_iff.mp hpart
  refine ⟨?_, ?_, ?_⟩
  · rw [hpdu]
    exact List.length_pos_of_ne_nil hne
  · rw [hpdu, hm]
    rfl
  · omega

/-- The fifteen texts are those of the parts, read late, and empty ones. -/
theorem texts_eq (h : push.Stored row rest)
    (hreads : ∀ part ∈ push.parts, ReadsPart createMessage part)
    (hle : push.parts.length ≤ maxSegmentNum) :
    place (fun r => r.msgSeqId - 1) (rowText createMessage) (List.replicate maxSegmentNum [])
        ((row :: rest).filter (row.msgRefId = ·.msgRefId)) =
      push.parts.map (fun part => lateOctets part.payload) ++
        List.replicate (maxSegmentNum - push.parts.length) [] := by
  have hsplit : List.replicate maxSegmentNum ([] : Pdu) = List.replicate push.parts.length [] ++
      List.replicate (maxSegmentNum - push.parts.length) [] := by
    rw [List.replicate_append_replicate, Nat.add_sub_cancel' hle]
  obtain ⟨page, hpage⟩ : ∃ page : Nat → Pdu, page = fun k =>
      ((push.parts[k]?).map fun part => lateOctets part.payload).getD [] := ⟨_, rfl⟩
  have hrows : ∀ k < push.parts.length,
      ∃ r ∈ (row :: rest).filter (row.msgRefId = ·.msgRefId),
        r.msgSeqId - 1 = k ∧ rowText createMessage r = page k := by
    intro k hk
    have hpart : push.parts[k]? = some push.parts[k] := List.getElem?_eq_getElem hk
    obtain ⟨r, hr, hseq, hpdu⟩ := h.row_of_part hpart
    obtain ⟨-, m, hm, hraw, -⟩ := hreads _ (List.mem_of_getElem? hpart)
    refine ⟨r, hr, by omega, ?_⟩
    simp [rowText, hpdu, hm, hraw, hpart, hpage]
  have hpages : (List.range push.parts.length).map page =
      push.parts.map fun part => lateOctets part.payload := by
    apply List.ext_getElem
    · simp
    · intro k hk hk'
      simp only [List.length_map] at hk'
      simp [hk', hpage]
  rw [hsplit, place_append_of_lt, place_eq_map_range [] h.positions_nodup hrows, hpages]
  intro r hr
  obtain ⟨k, part, hpart, hseq, -⟩ := h.part_of_mem hr
  obtain ⟨hk, -⟩ := List.getElem?_eq_some_iff.mp hpart
  rw [List.length_replicate]
  omega

/-- What recovery hands on of a push with at most fifteen parts. -/
theorem wapRound_eq (h : push.Stored row rest)
    (hreads : ∀ part ∈ push.parts, ReadsPart createMessage part)
    (hle : push.parts.length ≤ maxSegmentNum) (slotId : Nat) :
    (wapRound createMessage slotId row rest).bind Effect.wapPayload =
      if (push.parts.head?.map (·.payload)) = some [] then none
      else some (push.parts.flatMap fun part => lateOctets part.payload) := by
  have hfilter : (row :: rest).filter (row.msgRefId = ·.msgRefId) =
      row :: rest.filter (row.msgRefId = ·.msgRefId) := by
    simp
  have hrow : WapPage createMessage row := h.wapPage hreads hle (by simp)
  have hmates : ∀ q ∈ rest, row.msgRefId = q.msgRefId → WapPage createMessage q := by
    intro q hq href
    exact h.wapPage hreads hle (by simp [hq, href])
  have hround := getWapPushUserDataMultipage_place hrow hmates (List.replicate maxSegmentNum [])
  rw [← hfilter, h.length_group, h.texts_eq hreads hle] at hround
  rw [wapRound, hround, if_neg (by simp [h.msgCount]), readyDecodeWapPushUserData]
  have hsome := push.several
  cases hparts : push.parts with
  | nil => simp [hparts] at hsome
  | cons first parts =>
      cases hfirst : first.payload with
      | nil => simp [hfirst, lateOctets]
      | cons octet octets =>
          simp [hfirst, lateOctets, Effect.wapPayload, List.flatMap_def]

end WapPush.Stored

/-- The row of a part that was stored with reference 1. -/
def WapPart.storedRow (msgCount : Nat) (entry : WapPart coder × Nat) : SmsReceiveIndexer where
  pdu := entry.1.pdu
  timestamp := 0
  destPort := wapPushPort
  isCdma := false
  visibleMessageBody := ""
  originatingAddress := ""
  visibleAddress := ""
  msgRefId := 1
  msgSeqId := entry.2
  msgCount := msgCount
  dataBaseId := 0
  rawUserData := []
  rawWapPushUserData := []

/-- A push can be stored with its last part first. -/
theorem WapPush.exists_stored (push : WapPush coder) :
    ∃ row rest, push.Stored row rest ∧ row.msgSeqId = push.parts.length := by
  obtain ⟨init, last, hparts⟩ : ∃ init last, push.parts = init ++ [last] := by
    obtain hnil | h := List.eq_nil_or_concat push.parts
    · have := push.several
      simp [hnil] at this
    · simpa using h
  obtain ⟨n, hn⟩ : ∃ n, push.parts.length = n := ⟨_, rfl⟩
  have hentries : (push.parts.zipIdx 1).reverse =
      (last, n) :: (init.zipIdx 1).reverse := by
    rw [← hn, hparts, List.zipIdx_append, List.reverse_append]
    simp [Nat.add_comm]
  refine ⟨WapPart.storedRow n (last, n), (init.zipIdx 1).reverse.map (WapPart.storedRow n),
    ⟨rfl, hn.symm, ?_⟩, hn.symm⟩
  rw [← List.map_cons, ← hentries, List.filter_map, List.map_map]
  have hall : (push.parts.zipIdx 1).reverse.filter ((fun x =>
      decide ((WapPart.storedRow n (last, n)).msgRefId = x.msgRefId)) ∘ WapPart.storedRow n) =
      (push.parts.zipIdx 1).reverse := by
    apply List.filter_eq_self.mpr
    intro entry _
    rfl
  rw [hall]
  exact (List.reverse_perm _).map _

theorem flatMap_lateOctets_iff (parts : List (WapPart coder)) :
    (parts.flatMap fun part => lateOctets part.payload) = parts.flatMap (·.payload) ↔
      ∀ part ∈ parts, ∀ octet ∈ part.payload, octet = 0 := by
  induction parts with
  | nil => simp
  | cons part parts ih =>
      rw [List.flatMap_cons, List.flatMap_cons, List.forall_mem_cons, ← ih,
        ← lateOctets_eq_self_iff]
      constructor
      · intro h
        exact List.append_inj h (length_lateOctets _)
      · intro h
        rw [h.1, h.2]

theorem recoveredPayload_iff (push : WapPush coder)
    (hreads : ∀ part ∈ push.parts, ReadsPart createMessage part) :
    (∀ (slotId : Nat) (row : SmsReceiveIndexer) (rest : List SmsReceiveIndexer),
      push.Stored row rest →
        (wapRound createMessage slotId row rest).bind Effect.wapPayload = some push.payload) ↔
      push.parts.length ≤ maxSegmentNum ∧ (push.parts.head?.map (·.payload)) ≠ some [] ∧
        ∀ part ∈ push.parts, ∀ octet ∈ part.payload, octet = 0 := by
  constructor
  · intro h
    obtain ⟨row, rest, hstored, hseq⟩ := push.exists_stored
    have hround := h 0 row rest hstored
    have hle : push.parts.length ≤ maxSegmentNum := by
      by_contra hmany
      obtain ⟨m, hm⟩ : ∃ m, createMessage row.pdu = some m := by
        obtain ⟨k, part, hpart, -, hpdu⟩ := hstored.part_of_mem (r := row) (by simp)
        obtain ⟨-, m, hm, -⟩ := hreads part (List.mem_of_getElem? hpart)
        exact ⟨m, hpdu ▸ hm⟩
      have hout : row.msgSeqId < 1 ∨ row.msgSeqId > maxSegmentNum := by omega
      have hcount : row.msgCount ≠ 1 := by
        have := push.several
        have := hstored.msgCount
        omega
      have hrefused : getWapPushUserDataMultipage createMessage row
          (List.replicate maxSegmentNum []) rest = (1, List.replicate maxSegmentNum [], rest) := by
        simp only [getWapPushUserDataMultipage, hm, if_pos hout]
      rw [wapRound, hrefused, if_pos hcount] at hround
      cases hround
    rw [hstored.wapRound_eq hreads hle] at hround
    split at hround
    · cases hround
    · rename_i hfirst
      exact ⟨hle, hfirst, (flatMap_lateOctets_iff push.parts).mp (Option.some.inj hround)⟩
  · rintro ⟨hle, hfirst, hzero⟩ slotId row rest hstored
    rw [hstored.wapRound_eq hreads hle, if_neg hfirst, (flatMap_lateOctets_iff _).mpr hzero]
    rfl

end Recovery

/-- The live path needs parts that do not start with the tag, and recovery parts of zeros
only, of which there are fifteen at most and the first is not empty. -/
theorem handsOnPayload_iff (order : ByteOrder) (iconv : Iconv)
    (euckrToUtf8 : List UInt8 → List UInt8) (coder : TextCoder)
    (others : Pdu → SmsTpdu → SmsBaseMessage) (push : WapPush coder) :
    HandsOnPayload (createMessage order iconv euckrToUtf8 coder others) push ↔
      (∀ part ∈ push.parts, part.payload.take 2 ≠ wapSeqNumberTag) ∧
        push.parts.length ≤ maxSegmentNum ∧ (push.parts.head?.map (·.payload)) ≠ some [] ∧
          ∀ part ∈ push.parts, ∀ octet ∈ part.payload, octet = 0 := by
  have hreads : ∀ part ∈ push.parts,
      ReadsPart (createMessage order iconv euckrToUtf8 coder others) part :=
    fun part _ => part.reads order iconv euckrToUtf8 others
  rw [← recoveredPayload_iff push hreads]
  constructor
  · intro h
    have hrow : (WapPart.storedRow 0 (push.parts.head (by
        have := push.several
        exact List.ne_nil_of_length_pos (by omega)), 0)).getIsWapPushMsg = true := rfl
    exact ⟨(livePayload_iff push hreads ⟨true, true, true, 0⟩ 0 ⟨[], 0⟩ _ hrow).mp
      (h.live ⟨true, true, true, 0⟩ 0 ⟨[], 0⟩ _ hrow), h.recovered⟩
  · rintro ⟨htag, hrecovered⟩
    exact ⟨fun ds slotId t indexer hport =>
      (livePayload_iff push hreads ds slotId t indexer hport).mpr htag, hrecovered⟩

/-- The number `+123`. -/
def wapSender : AddressNumber := ⟨1, 0, [0x2B, 0x31, 0x32, 0x33]⟩

def wapFront : List UInt8 :=
  0x44 :: (wapSender.octets ++ [0x00, 0x04, 0x52, 0x10, 0x20, 0x30, 0x40, 0x50, 0x2D])

theorem wapFront_delivers (coder : TextCoder) : DeliversOctets coder wapFront := by
  have hnum : wapSender.Encodable := ⟨by decide +kernel, by decide, by decide⟩
  have hkept : wapSender.Kept := ⟨by decide, rfl, by decide, by decide, fun _ => by decide⟩
  exact deliversOctets_of_kept coder hnum (by decide) hkept 0x00 (by decide) (by decide)
    (by decide) (by decide) 0x52 0x10 0x20 0x30 0x40 0x50 0x2D

theorem length_wapPartHeader (seqNum : UInt8) :
    ([.appPort16Bit 2948 9200, .concat8Bit 7 2 seqNum].flatMap headerOctets).length = 11 := rfl

theorem wapPart_headers_le (seqNum : UInt8) :
    [.appPort16Bit 2948 9200, SmsUDH.concat8Bit 7 2 seqNum].length ≤ 7 := by
  simp

section WapPart

variable (seqNum : UInt8) {payload : List UInt8} (h : payload.length ≤ 100)
include h

theorem wapPart_udl_le :
    ([.appPort16Bit 2948 9200, .concat8Bit 7 2 seqNum].flatMap headerOctets).length + 1 +
      payload.length ≤ 140 := by
  rw [length_wapPartHeader]
  omega

theorem wapPart_pdu_le :
    [(0x00 : UInt8)].length + wapFront.length + 2 +
      ([.appPort16Bit 2948 9200, .concat8Bit 7 2 seqNum].flatMap headerOctets).length +
        payload.length ≤ 255 := by
  have hfront : wapFront.length = 14 := by decide
  rw [hfront, length_wapPartHeader, List.length_singleton]
  omega

end WapPart

/-- Part `seqNum` of two to the WAP push port, without a service centre. -/
def wapPart (seqNum : UInt8) (payload : List UInt8) (h : payload.length ≤ 100) :
    WapPart ⟨id, id⟩ where
  smsc := [0x00]
  front := wapFront
  header := [.appPort16Bit 2948 9200, .concat8Bit 7 2 seqNum]
  payload := payload
  concat := rfl
  plain := rfl
  headers := wapPart_headers_le seqNum
  delivers := wapFront_delivers _
  udl_le := wapPart_udl_le seqNum h
  pdu_le := wapPart_pdu_le seqNum h
  smsc_read _ _ := rfl

def wapPushOfTwo : WapPush ⟨id, id⟩ where
  parts := [wapPart 1 [0x25, 0x06] (by decide), wapPart 2 [0x61] (by decide)]
  several := by simp

/-- Recovery loses the first octet of each of two parts. -/
theorem not_handsOnPayload_two_parts :
    ¬ HandsOnPayload (createMessage .little utf8Iconv id ⟨id, id⟩
      fun pdu _ => ⟨pdu, 0, wapPushPort, "", "", "", [], [], none⟩) wapPushOfTwo := by
  intro h
  obtain ⟨-, -, hzero⟩ := (recoveredPayload_iff wapPushOfTwo fun part _ => part.reads _ _ _ _).mp
    h.recovered
  have hoctet : (0x25 : UInt8) = 0 :=
    hzero (wapPart 1 [0x25, 0x06] (by decide)) (by simp [wapPushOfTwo]) 0x25
      (by simp [wapPart])
  exact absurd hoctet (by decide)

end TelephonySms.Receive
