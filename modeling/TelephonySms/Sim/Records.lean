import Mathlib.Data.List.Infix
import TelephonySms.Ipc.Interface

/-! # Messages on the SIM card

The card gives its records as hexadecimal text, filled up with `F` behind the message. The
service cuts a record where five `F` stand for the first time, reads the octets of what is left
and parses them behind the octet of the status.
-/

namespace TelephonySms.Sim

open TelephonySms.Ipc

/-! ## `StringUtils` -/

/-- The characters `0` to `9` and `A` to `F`. -/
def HEX_TABLE : Octets :=
  [0x30, 0x31, 0x32, 0x33, 0x34, 0x35, 0x36, 0x37, 0x38, 0x39, 0x41, 0x42, 0x43, 0x44, 0x45, 0x46]

def hexCharToInt (c : UInt8) : UInt8 :=
  if 0x30 ≤ c ∧ c ≤ 0x39 then c - 0x30
  else if 0x41 ≤ c ∧ c ≤ 0x46 then c - 0x41 + 10
  else if 0x61 ≤ c ∧ c ≤ 0x66 then c - 0x61 + 10
  else 0

def hexDigits (b : UInt8) : Octets :=
  [HEX_TABLE.getD (b >>> 4).toNat 0, HEX_TABLE.getD (b &&& 0xf).toNat 0]

def stringToHex (data : Octets) : Octets := data.flatMap hexDigits

def hexToByteVector : Octets → Octets
  | hi :: lo :: rest => ((hexCharToInt hi <<< 4) ||| hexCharToInt lo) :: hexToByteVector rest
  | _ => []

def isSpace (c : UInt8) : Bool := c = 0x20 || (0x09 ≤ c && c ≤ 0x0D)

def isHexDigit (c : UInt8) : Bool :=
  (0x30 ≤ c && c ≤ 0x39) || (0x41 ≤ c && c ≤ 0x46) || (0x61 ≤ c && c ≤ 0x66)

/-- `strtol` to the base 16. The prefix `0x` makes no difference to two characters. -/
def strtol (s : Octets) : Int :=
  let value (digits : Octets) : Int :=
    (digits.takeWhile isHexDigit).foldl (fun n c => 16 * n + (hexCharToInt c).toNat) 0
  match s.dropWhile isSpace with
  | 0x2D :: digits => -value digits
  | 0x2B :: digits => value digits
  | digits => value digits

def hexToString : Octets → Octets
  | hi :: lo :: rest => UInt8.ofNat (strtol [hi, lo]).toNat :: hexToString rest
  | _ => []

/-- The two characters of an octet: what is read from them, and when the second is an `F`. -/
def HexPair (b hi lo : UInt8) : Prop :=
  (hexCharToInt hi <<< 4) ||| hexCharToInt lo = b ∧
    UInt8.ofNat (strtol [hi, lo]).toNat = b ∧ (lo = 0x46 ↔ b &&& 0xf = 0xf)

instance (b hi lo : UInt8) : Decidable (HexPair b hi lo) :=
  inferInstanceAs (Decidable (_ ∧ _ ∧ _))

theorem hexDigits_pair (b : UInt8) : ∃ hi lo, hexDigits b = [hi, lo] ∧ HexPair b hi lo := by
  refine ⟨_, _, rfl, ?_⟩
  have hall : ∀ n : Fin 256, HexPair (UInt8.ofNat n)
      (HEX_TABLE.getD (UInt8.ofNat n >>> 4).toNat 0)
      (HEX_TABLE.getD (UInt8.ofNat n &&& 0xf).toNat 0) := by
    decide +kernel
  have hb := hall ⟨b.toNat, b.toNat_lt⟩
  rwa [UInt8.ofNat_toNat] at hb

@[simp] theorem stringToHex_cons (b : UInt8) (data : Octets) :
    stringToHex (b :: data) = hexDigits b ++ stringToHex data := rfl

theorem stringToHex_append (data more : Octets) :
    stringToHex (data ++ more) = stringToHex data ++ stringToHex more :=
  List.flatMap_append

theorem length_stringToHex (data : Octets) : (stringToHex data).length = 2 * data.length := by
  induction data with
  | nil => rfl
  | cons b data ih =>
      rw [stringToHex_cons, List.length_append, ih]
      show 2 + 2 * data.length = 2 * (data.length + 1)
      omega

theorem hexToByteVector_append (data : Octets) (rest : Octets) :
    hexToByteVector (stringToHex data ++ rest) = data ++ hexToByteVector rest := by
  induction data with
  | nil => rfl
  | cons b data ih =>
      rcases hexDigits_pair b with ⟨hi, lo, hdigits, hread, -⟩
      rw [stringToHex_cons, hdigits, List.append_assoc]
      show (hexCharToInt hi <<< 4 ||| hexCharToInt lo) ::
        hexToByteVector (stringToHex data ++ rest) = _
      rw [hread, ih]
      rfl

@[simp] theorem hexToByteVector_stringToHex (data : Octets) :
    hexToByteVector (stringToHex data) = data := by
  have h := hexToByteVector_append data []
  rwa [List.append_nil, show hexToByteVector [] = [] from rfl, List.append_nil] at h

@[simp] theorem hexToString_stringToHex (data : Octets) : hexToString (stringToHex data) = data := by
  induction data with
  | nil => rfl
  | cons b data ih =>
      rcases hexDigits_pair b with ⟨hi, lo, hdigits, -, hread, -⟩
      rw [stringToHex_cons, hdigits]
      show UInt8.ofNat (strtol [hi, lo]).toNat :: hexToString (stringToHex data) = _
      rw [hread, ih]

/-- Two characters make an octet; one that is left over makes none. -/
theorem length_hexToByteVector (s : Octets) : (hexToByteVector s).length = s.length / 2 := by
  induction s using hexToByteVector.induct with
  | case1 hi lo rest ih =>
      rw [hexToByteVector, List.length_cons, List.length_cons, List.length_cons, ih]
      omega
  | case2 s hshort =>
      rcases s with _ | ⟨c, _ | ⟨d, rest⟩⟩
      · rfl
      · simp [hexToByteVector]
      · exact absurd rfl (hshort c d rest)

/-! ## Padding -/

/-- `FFFFF`. -/
def paddingMark : Octets := [0x46, 0x46, 0x46, 0x46, 0x46]

/-- `v.substr(0, v.find("FFFFF"))`: all of it when there is none. -/
def untilPadding : Octets → Octets
  | [] => []
  | c :: cs => if paddingMark <+: c :: cs then [] else c :: untilPadding cs

theorem untilPadding_isFront (s : Octets) : untilPadding s <+: s := by
  induction s with
  | nil => exact List.prefix_rfl
  | cons c cs ih =>
      rw [untilPadding]
      split
      · exact List.nil_prefix
      · exact (List.prefix_cons_inj c).2 ih

/-- Nothing is cut, or the mark stands behind what is left. -/
theorem untilPadding_cut (s : Octets) :
    untilPadding s = s ∨ untilPadding s ++ paddingMark <+: s := by
  induction s with
  | nil => exact .inl rfl
  | cons c cs ih =>
      rw [untilPadding]
      split
      · rename_i hmark
        exact .inr hmark
      · rcases ih with hall | hcut
        · exact .inl (by rw [hall])
        · exact .inr ((List.prefix_cons_inj c).2 hcut)

/-- The first mark is the one that counts. -/
theorem length_untilPadding_le (p s : Octets) (h : p ++ paddingMark <+: s) :
    (untilPadding s).length ≤ p.length := by
  induction p generalizing s with
  | nil =>
      cases s with
      | nil => exact Nat.le_refl 0
      | cons c cs =>
          rw [untilPadding, if_pos (show paddingMark <+: c :: cs from h)]
  | cons d p ih =>
      cases s with
      | nil => exact Nat.zero_le _
      | cons c cs =>
          rw [untilPadding]
          split
          · exact Nat.zero_le _
          · exact Nat.succ_le_succ (ih cs (List.cons_prefix_cons.1 h).2)

theorem not_mark_infix_untilPadding (s : Octets) : ¬ paddingMark <:+: untilPadding s := by
  rintro ⟨front, rest, h⟩
  have hinside : front ++ paddingMark <+: s :=
    (List.prefix_append _ rest).trans (by rw [h]; exact untilPadding_isFront s)
  have hle := length_untilPadding_le front s hinside
  rw [← h, List.length_append, List.length_append, show paddingMark.length = 5 from rfl] at hle
  omega

/-! ## Records -/

/-- The octets can be told from the `m` octets of padding behind them. -/
def Readable (data : Octets) (m : Nat) : Prop :=
  ¬ paddingMark <:+: stringToHex data ∧
    (m = 0 ∨ 3 ≤ m ∧ ¬ [0x46] <:+ stringToHex data)

instance (data : Octets) (m : Nat) : Decidable (Readable data m) :=
  inferInstanceAs (Decidable (_ ∧ _))

theorem stringToHex_padding (m : Nat) :
    stringToHex (List.replicate m 0xFF) = List.replicate (2 * m) 0x46 := by
  induction m with
  | zero => rfl
  | succ m ih =>
      rw [List.replicate_succ, stringToHex_cons, ih]
      rfl

theorem mark_prefix_padding {m : Nat} (hm : 3 ≤ m) :
    paddingMark <+: List.replicate (2 * m) (0x46 : UInt8) := by
  refine ⟨List.replicate (2 * m - 5) 0x46, ?_⟩
  rw [show paddingMark = List.replicate 5 (0x46 : UInt8) from rfl, List.replicate_append_replicate]
  congr 1
  omega

/-- A mark that begins in front of the padding is inside the text, or the text ends with an
`F`. -/
theorem mark_before_padding {text front : Octets} {m : Nat} (hshort : front.length < text.length)
    (h : front ++ paddingMark <+: text ++ List.replicate m 0x46) :
    paddingMark <:+: text ∨ [0x46] <:+ text := by
  have hfront : front <+: text :=
    List.prefix_of_prefix_length_le ((List.prefix_append _ _).trans h)
      (List.prefix_append _ _) (Nat.le_of_lt hshort)
  rcases hfront with ⟨rest, rfl⟩
  rw [List.append_assoc, List.prefix_append_right_inj] at h
  have hne : rest ≠ [] := by
    rintro rfl
    simp at hshort
  rcases Nat.le_total 5 rest.length with hlong | hends
  · have hmark : paddingMark <+: rest :=
      List.prefix_of_prefix_length_le h (List.prefix_append _ _) hlong
    exact .inl (hmark.isInfix.trans (List.suffix_append front rest).isInfix)
  · have hrest : rest <+: paddingMark :=
      List.prefix_of_prefix_length_le (List.prefix_append _ _) h hends
    refine .inr ?_
    have hlast : rest.getLast hne = 0x46 := by
      have hmem := hrest.subset (List.getLast_mem hne)
      simpa [paddingMark] using hmem
    rw [← List.dropLast_append_getLast hne, hlast, ← List.append_assoc]
    exact List.suffix_append _ _

theorem untilPadding_record {data : Octets} {m : Nat} (h : Readable data m) :
    untilPadding (stringToHex (data ++ List.replicate m 0xFF)) = stringToHex data := by
  rw [stringToHex_append, stringToHex_padding]
  have hcut := untilPadding_cut (stringToHex data ++ List.replicate (2 * m) 0x46)
  have hfront := untilPadding_isFront (stringToHex data ++ List.replicate (2 * m) 0x46)
  rcases h with ⟨hinside, rfl | ⟨hm, hend⟩⟩
  · rw [Nat.mul_zero, List.replicate_zero, List.append_nil] at hcut ⊢
    rcases hcut with hall | ⟨rest, hcut⟩
    · exact hall
    · exact absurd ⟨_, rest, hcut⟩ hinside
  · have hle : (untilPadding (stringToHex data ++ List.replicate (2 * m) 0x46)).length ≤
        (stringToHex data).length :=
      length_untilPadding_le _ _ ((List.prefix_append_right_inj _).2 (mark_prefix_padding hm))
    have htext := List.prefix_of_prefix_length_le hfront (List.prefix_append _ _) hle
    apply htext.eq_of_length
    apply Nat.le_antisymm hle
    by_contra hlt
    have hlt := Nat.lt_of_not_le hlt
    rcases hcut with hall | hcut
    · have hlen := congrArg List.length hall
      rw [List.length_append, List.length_replicate] at hlen
      omega
    · rcases mark_before_padding hlt hcut with hmark | hmark
      · exact hinside hmark
      · exact hend hmark

/-- A record is read as it was written if and only if no five `F` stand in it and an `F` does not
come before the padding, of which there is none or at least three octets. -/
theorem record_read_iff (data : Octets) (m : Nat) :
    hexToByteVector (untilPadding (stringToHex (data ++ List.replicate m 0xFF))) = data ↔
      Readable data m := by
  constructor
  · intro h
    rw [stringToHex_append, stringToHex_padding] at h
    have hlen := congrArg List.length h
    rw [length_hexToByteVector] at hlen
    have hhex := length_stringToHex data
    have htext : stringToHex data <+:
        untilPadding (stringToHex data ++ List.replicate (2 * m) 0x46) :=
      List.prefix_of_prefix_length_le (List.prefix_append _ _) (untilPadding_isFront _)
        (by omega)
    refine ⟨fun hmark => not_mark_infix_untilPadding _ (hmark.trans htext.isInfix), ?_⟩
    rcases Nat.eq_zero_or_pos m with hm | hm
    · exact .inl hm
    · rcases untilPadding_cut (stringToHex data ++ List.replicate (2 * m) 0x46) with hall | hcut
      · have hall := congrArg List.length hall
        rw [List.length_append, List.length_replicate] at hall
        omega
      · have hroom := hcut.length_le
        rw [List.length_append, List.length_append, List.length_replicate,
          show paddingMark.length = 5 from rfl] at hroom
        have hm : 3 ≤ m := by omega
        refine .inr ⟨hm, ?_⟩
        rintro ⟨front, hfront⟩
        have hearly : front ++ paddingMark <+:
            stringToHex data ++ List.replicate (2 * m) 0x46 := by
          rcases mark_prefix_padding hm with ⟨rest, hrest⟩
          refine ⟨0x46 :: rest, ?_⟩
          rw [← hfront, ← hrest]
          simp [paddingMark]
        have hle := length_untilPadding_le front _ hearly
        have hfront := congrArg List.length hfront
        rw [List.length_append, List.length_singleton] at hfront
        omega
  · intro h
    rw [untilPadding_record h, hexToByteVector_stringToHex]

/-! ## Parsing -/

/-- What the getters of `SmsBaseMessage` answer. -/
structure SmsBaseMessage where
  visibleMessageBody : Octets
  visibleOriginatingAddress : Octets
  messageClass : SmsMessageClass
  smscAddr : Octets
  scTimestamp : Int64
  isReplaceMessage : Bool
  status : Int32
  isSmsStatusReportMessage : Bool
  hasReplyPath : Bool
  protocolId : Int32
  rawPdu : Octets
  rawUserData : Octets
  deriving DecidableEq, Repr

/-- `3gpp`. -/
def SPECIFICATION_3GPP : Octets := [0x33, 0x67, 0x70, 0x70]

/-- `3gpp2`. -/
def SPECIFICATION_3GPP2 : Octets := [0x33, 0x67, 0x70, 0x70, 0x32]

/-- `PduAnalysis` of the two kinds of messages, on the octets of the PDU. -/
structure PduAnalysis where
  gsm : Octets → Option SmsBaseMessage
  cdma : Octets → Option SmsBaseMessage

section CreateMessage

variable (env : Env) (analysis : PduAnalysis)

def GsmSmsMessage.createMessage (pdu : Octets) : Option SmsBaseMessage :=
  (analysis.gsm (hexToString pdu)).map fun message =>
    { message with rawPdu := hexToByteVector pdu }

/-- The PDU of a CDMA message is not kept. -/
def CdmaSmsMessage.createMessage (pdu : Octets) : Option SmsBaseMessage :=
  if pdu = [] then none
  else (analysis.cdma (hexToString pdu)).map fun message => { message with rawPdu := [] }

/-- `SmsService::CreateMessage`, which the client in the service itself calls directly. The
place on the card is left as it is. -/
def createMessage (pdu specification : Octets) (message : ShortMessage) : Int32 × ShortMessage :=
  let baseMessage :=
    if specification = SPECIFICATION_3GPP then GsmSmsMessage.createMessage analysis pdu
    else if specification = SPECIFICATION_3GPP2 then CdmaSmsMessage.createMessage analysis pdu
    else none
  match baseMessage with
  | none => (env.TELEPHONY_ERR_LOCAL_PTR_NULL, message)
  | some baseMessage =>
      (TELEPHONY_ERR_SUCCESS, { message with
        visibleMessageBody := env.toUtf16 baseMessage.visibleMessageBody
        visibleRawAddress := env.toUtf16 baseMessage.visibleOriginatingAddress
        messageClass := baseMessage.messageClass
        scAddress := env.toUtf16 baseMessage.smscAddr
        scTimestamp := baseMessage.scTimestamp
        isReplaceMessage := baseMessage.isReplaceMessage
        status := baseMessage.status
        isSmsStatusReportMessage := baseMessage.isSmsStatusReportMessage
        hasReplyPath := baseMessage.hasReplyPath
        protocolId := baseMessage.protocolId
        pdu := baseMessage.rawPdu
        rawUserData := baseMessage.rawUserData })

/-- The octet of the status that `CreateIccMessage` knows. -/
def simMessageStatus (simStatus : UInt8) : Option SmsSimMessageStatus :=
  if simStatus = 1 then some .SMS_SIM_MESSAGE_STATUS_READ
  else if simStatus = 3 then some .SMS_SIM_MESSAGE_STATUS_UNREAD
  else if simStatus = 5 then some .SMS_SIM_MESSAGE_STATUS_SENT
  else if simStatus = 7 then some .SMS_SIM_MESSAGE_STATUS_UNSENT
  else none

def createIccMessage (pdu specification : Octets) (index : Int32) : ShortMessage :=
  match pdu with
  | simStatus :: octet :: octets =>
      match simMessageStatus simStatus with
      | some status =>
          let (errorCode, message) := createMessage env analysis (stringToHex (octet :: octets))
            specification { simMessageStatus := status }
          if errorCode ≠ TELEPHONY_ERR_SUCCESS then message
          else { message with indexOnSim := index }
      | none => {}
  | _ => {}

/-! ## Listing -/

inductive PhoneType where
  | PHONE_TYPE_IS_GSM
  | PHONE_TYPE_IS_CDMA
  | other
  deriving DecidableEq, Repr

def PhoneType.specification : PhoneType → Option Octets
  | PHONE_TYPE_IS_GSM => some SPECIFICATION_3GPP
  | PHONE_TYPE_IS_CDMA => some SPECIFICATION_3GPP2
  | other => none

/-- The loop of `GetAllSimMessages`, with the number of the first record. -/
def listRecords (specification : Octets) (index : Int32) : List Octets → List ShortMessage
  | [] => []
  | v :: pdus =>
      let v := untilPadding v
      -- `00` is a free record
      if v = [0x30, 0x30] then listRecords specification (index + 1) pdus
      else
        let item := createIccMessage env analysis (hexToByteVector v) specification index
        if item.simMessageStatus ≠ .SMS_SIM_MESSAGE_STATUS_FREE then
          item :: listRecords specification (index + 1) pdus
        else listRecords specification (index + 1) pdus

end CreateMessage

/-- What a record holds: the octet of the status, and the octets of the service centre and of
the message. -/
structure Record where
  status : UInt8
  pdu : Octets
  deriving DecidableEq, Repr

/-- The text of a record of `length` octets. -/
def recordText (length : Nat) : Option Record → Octets
  | none => stringToHex (0 :: List.replicate (length - 1) 0xFF)
  | some record =>
      stringToHex (record.status :: record.pdu ++
        List.replicate (length - (record.pdu.length + 1)) 0xFF)

def Record.Readable (length : Nat) (record : Record) : Prop :=
  Sim.Readable (record.status :: record.pdu) (length - (record.pdu.length + 1))

/-- The message that a record is listed as. -/
def Record.listed (env : Env) (analysis : PduAnalysis) (specification : Octets) (index : Int32)
    (record : Record) : Option ShortMessage :=
  if record.pdu = [] then none
  else (simMessageStatus record.status).map fun status =>
    let (errorCode, message) := createMessage env analysis (stringToHex record.pdu)
      specification { simMessageStatus := status }
    if errorCode ≠ TELEPHONY_ERR_SUCCESS then message else { message with indexOnSim := index }

/-- The messages of the records of a card. -/
def listing (env : Env) (analysis : PduAnalysis) (specification : Octets) (index : Int32) :
    List (Option Record) → List ShortMessage
  | [] => []
  | content :: contents =>
      ((content.bind (Record.listed env analysis specification index)).toList ++
        listing env analysis specification (index + 1) contents)

section Listing

variable {env : Env} {analysis : PduAnalysis}

theorem createMessage_place (pdu specification : Octets) (message : ShortMessage) :
    (createMessage env analysis pdu specification message).2.simMessageStatus =
        message.simMessageStatus ∧
      (createMessage env analysis pdu specification message).2.indexOnSim =
        message.indexOnSim := by
  rw [createMessage]
  split
  · exact ⟨rfl, rfl⟩
  · exact ⟨rfl, rfl⟩

theorem simMessageStatus_ne_free {simStatus : UInt8} {status : SmsSimMessageStatus}
    (h : simMessageStatus simStatus = some status) : status ≠ .SMS_SIM_MESSAGE_STATUS_FREE := by
  rintro rfl
  rw [simMessageStatus] at h
  split_ifs at h <;> cases h

theorem Record.listed_place {specification : Octets} {index : Int32} {record : Record}
    {message : ShortMessage} (h : record.listed env analysis specification index = some message) :
    message.simMessageStatus ≠ .SMS_SIM_MESSAGE_STATUS_FREE ∧
      (message.indexOnSim = index ∨ message.indexOnSim = 0) := by
  rw [listed] at h
  split at h
  · cases h
  · rcases Option.map_eq_some_iff.1 h with ⟨status, hstatus, hmessage⟩
    rcases @createMessage_place env analysis (stringToHex record.pdu) specification
      { simMessageStatus := status } with ⟨hkept, hzero⟩
    have hfree := simMessageStatus_ne_free hstatus
    dsimp only at hmessage
    split at hmessage
    · rw [← hmessage, hkept, hzero]
      exact ⟨hfree, .inr rfl⟩
    · rw [← hmessage]
      exact ⟨hkept ▸ hfree, .inl rfl⟩

theorem createIccMessage_record (specification : Octets) (index : Int32) (record : Record) :
    createIccMessage env analysis (record.status :: record.pdu) specification index =
      (record.listed env analysis specification index).getD {} := by
  rcases record with ⟨simStatus, _ | ⟨octet, octets⟩⟩
  · rfl
  · rw [createIccMessage, Record.listed, if_neg (List.cons_ne_nil octet octets)]
    cases simMessageStatus simStatus with
    | none => rfl
    | some status => rfl

theorem untilPadding_free {length : Nat} (hlength : 4 ≤ length) :
    untilPadding (recordText length none) = [0x30, 0x30] := by
  have hmark : ¬ paddingMark <:+: stringToHex [0] ∧ ¬ [0x46] <:+ stringToHex [0] := by decide
  exact @untilPadding_record [0] _ ⟨hmark.1, .inr ⟨by omega, hmark.2⟩⟩

/-- A card whose records can be read is listed as what they hold, each message under the number
of its record. -/
theorem listRecords_eq {length : Nat} (hlength : 4 ≤ length) (specification : Octets)
    (index : Int32) (contents : List (Option Record))
    (hread : ∀ record, some record ∈ contents → record.Readable length) :
    listRecords env analysis specification index (contents.map (recordText length)) =
      listing env analysis specification index contents := by
  induction contents generalizing index with
  | nil => rfl
  | cons content contents ih =>
      have ih := ih (index + 1) fun record hrecord => hread record (List.mem_cons_of_mem _ hrecord)
      rw [List.map_cons, listRecords, listing]
      cases content with
      | none =>
          rw [untilPadding_free hlength, if_pos rfl, ih]
          rfl
      | some record =>
          have htext : untilPadding (recordText length (some record)) =
              stringToHex (record.status :: record.pdu) :=
            untilPadding_record (hread record List.mem_cons_self)
          simp only [htext, hexToByteVector_stringToHex, createIccMessage_record, ih,
            Option.bind_some]
          split
          · rename_i hfree
            have hpdu : record.pdu = [] := by
              have hlen := congrArg List.length hfree
              rw [length_stringToHex, List.length_cons] at hlen
              have hlen : 2 * (record.pdu.length + 1) = 2 := hlen
              exact List.eq_nil_of_length_eq_zero (by omega)
            rw [Record.listed, if_pos hpdu]
            rfl
          · cases hlisted : record.listed env analysis specification index with
            | none => exact if_neg (not_not_intro rfl)
            | some message => exact if_pos (Record.listed_place hlisted).1

end Listing

end TelephonySms.Sim
