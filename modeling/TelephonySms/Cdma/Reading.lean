import TelephonySms.Cdma.Layout

/-! # Records read back

The readers of the records over the bits that the writers leave: each returns
what was written and stops behind its record.
-/

namespace TelephonySms.Cdma

open TelephonySms.Pdu
open SmsPduBuffer

/-- A reader that takes `w` at the start of an octet, whatever follows it, and
returns `x`. -/
def Reads {α : Type} (f : SmsPduBuffer → Option (α × SmsPduBuffer)) (w : List Bool) (x : α) :
    Prop :=
  ∀ passed rest, passed.length % 8 = 0 →
    f (bitCursor passed (w ++ rest)) = some (x, bitCursor (passed ++ w) rest)

/-! ## Parts of a record -/

section Parts

variable (passed rest : List Bool)

theorem readIdLen_record (id : UInt8) (content : List Bool) :
    readIdLen id (bitCursor passed (recordBits id content ++ rest)) =
      some (UInt8.ofNat ((content.length + 7) / 8),
        bitCursor (passed ++ (field 8 id ++ field 8 (UInt8.ofNat ((content.length + 7) / 8))))
          (content ++ (pad content.length ++ rest))) := by
  simp [readIdLen, recordBits]

/-- The zeros behind the contents of a record. -/
theorem skipBits_record (id : UInt8) {content : List Bool} (h : passed.length % 8 = 0) :
    (bitCursor (passed ++ (field 8 id ++ field 8 (UInt8.ofNat ((content.length + 7) / 8))) ++
      content) (pad content.length ++ rest)).skipBits =
        bitCursor (passed ++ recordBits id content) rest := by
  rw [skipBits_bitCursor _ _ (by simp; omega)]
  simp [recordBits]

@[simp] theorem readBool_bitCursor (v : Bool) :
    readBool (bitCursor passed (flag v ++ rest)) = some (v, bitCursor (passed ++ flag v) rest) := by
  have hv : (if v then 0b1 else 0b0 : UInt8).toNat < 2 ^ 1 := by
    cases v <;> decide
  rw [readBool, flag, readBits_bitCursor _ _ (by omega) (by omega) hv]
  cases v <;> rfl

theorem readIf_bitCursor {c : Bool} {v : UInt8} {l : Nat} (u : UInt8) (hl : 0 < l) (hle : l ≤ 8)
    (hv : c = true → v.toNat < 2 ^ l) :
    readIf c u l (bitCursor passed (fieldIf c l v ++ rest)) =
      some (if c then v else u, bitCursor (passed ++ fieldIf c l v) rest) := by
  cases c with
  | true =>
      rw [readIf, fieldIf, if_pos rfl, if_pos rfl, readBits_bitCursor _ _ hl hle (hv rfl)]
      rfl
  | false => simp [readIf, fieldIf]

theorem readEach_bitCursor {l : Nat} (hl : 0 < l) (hle : l ≤ 8) {vs : List UInt8}
    (hvs : ∀ v ∈ vs, v.toNat < 2 ^ l) :
    readEach l vs.length (bitCursor passed (each l vs ++ rest)) =
      some (vs, bitCursor (passed ++ each l vs) rest) := by
  induction vs generalizing passed with
  | nil => simp [readEach]
  | cons v vs ih =>
      have hrest := ih (passed ++ field l v) fun u hu => hvs u (List.mem_cons_of_mem v hu)
      have hread := readBits_bitCursor passed (each l vs ++ rest) hl hle
        (hvs v List.mem_cons_self)
      simp [readEach, hread, hrest]

theorem readEach_octets (vs : List UInt8) :
    readEach 8 vs.length (bitCursor passed (each 8 vs ++ rest)) =
      some (vs, bitCursor (passed ++ each 8 vs) rest) :=
  readEach_bitCursor passed rest (by omega) (by omega) fun v _ => v.toNat_lt

theorem readNumber_bitCursor {digitMode : Bool} {szData : List UInt8}
    (h : IsNumber digitMode szData) :
    readNumber digitMode szData.length (bitCursor passed (numberBits digitMode szData ++ rest)) =
      some (szData, bitCursor (passed ++ numberBits digitMode szData) rest) := by
  cases digitMode with
  | true => exact readEach_octets passed rest szData
  | false =>
      have hlt : ∀ v ∈ szData.map digitToDtmfChar, v.toNat < 2 ^ 4 := by
        intro v hv
        obtain ⟨c, hc, rfl⟩ := List.mem_map.mp hv
        exact digitToDtmfChar_lt c (h rfl c hc)
      have hread := readEach_bitCursor passed rest (by omega) (by omega) hlt
      rw [List.length_map] at hread
      have hback : (szData.map digitToDtmfChar).map dtmfCharToDigit = szData := by
        rw [List.map_map]
        conv_rhs => rw [← List.map_id szData]
        exact List.map_congr_left fun c hc => dtmfCharToDigit_digitToDtmfChar c (h rfl c hc)
      simp [readNumber, numberBits, hread, hback]

end Parts

/-! ## Sub-parameters -/

theorem ofNat_toNat_of_le {n : Nat} (h : n ≤ 255) : (UInt8.ofNat n).toNat = n :=
  UInt8.toNat_ofNat_of_lt' (Nat.lt_succ_of_le h)

/-- A record whose body takes its contents. -/
theorem reads_record {α : Type} {id : UInt8} {content : List Bool} {x : α}
    {body : UInt8 → SmsPduBuffer → Option (α × SmsPduBuffer)}
    (h : ∀ passed rest, body (UInt8.ofNat ((content.length + 7) / 8))
      (bitCursor passed (content ++ rest)) = some (x, bitCursor (passed ++ content) rest)) :
    Reads (readRecord id body) (recordBits id content) x := by
  intro passed rest hpassed
  simp only [readRecord, readIdLen_record, h, Option.bind_eq_bind, Option.bind_some,
    skipBits_record passed rest id hpassed]

theorem joinPair_octets (v : UInt16) :
    ((v >>> 8).toUInt8.toUInt16 <<< 8 ||| v.toUInt8.toUInt16) = v := by
  have hlow : (v &&& 0x00FF).toUInt8 = v.toUInt8 := by
    apply UInt8.toNat_inj.mp
    rw [toNat_lowOctet, UInt16.toNat_toUInt8]
  rw [UInt16.or_comm, ← hlow, joinPair_splitPair]

theorem reads_messageId {type : UInt8} (htype : type.toNat < 2 ^ 4) (msgId : SmsTeleSvcMsgId) :
    Reads decodeMessageId (recordBits 0x00 (messageIdBits type msgId)) (type, msgId) := by
  refine reads_record fun passed rest => ?_
  simp only [messageIdBits, List.append_assoc,
    readBits_bitCursor _ _ (by omega : 0 < 4) (by omega) htype, readBitsPair, readBits_bitCursor_octet, readBool_bitCursor,
    Option.bind_eq_bind, Option.bind_some, joinPair_octets]

theorem reads_base (id data : UInt8) :
    Reads (decodeBaseParameter id) (recordBits id (field 8 data)) data := by
  intro passed rest _
  simp [decodeBaseParameter, readIdLen, recordBits, pad]

theorem reads_twoBits {v : UInt8} (id : UInt8) (hv : v.toNat < 2 ^ 2) :
    Reads (decodeTwoBits id) (recordBits id (field 2 v)) v :=
  reads_record fun passed rest => readBits_bitCursor passed rest (by omega) (by omega) hv

theorem reads_priorityInd {priority : SmsPriorityIndicator} (h : priority ≠ .reserved) :
    Reads decodePriorityInd (recordBits 0x08 (field 2 priority.value)) priority := by
  intro passed rest hpassed
  have hv : priority.value.toNat < 2 ^ 2 := by
    cases priority <;> first | decide | exact absurd rfl h
  have hback : SmsPriorityIndicator.ofValue priority.value = priority := by
    cases priority <;> rfl
  simp [decodePriorityInd, reads_twoBits 0x08 hv passed rest hpassed, hback]

theorem reads_replyOption (replyOpt : SmsReplyOption) :
    Reads decodeReplyOption (recordBits 0x0A (replyOptionBits replyOpt)) replyOpt := by
  refine reads_record fun passed rest => ?_
  simp only [replyOptionBits, List.append_assoc, readBool_bitCursor, Option.bind_eq_bind,
    Option.bind_some]

theorem decodeBCD_encodeBCD {v : UInt8} (h : v.toNat < 100) : decodeBCD (encodeBCD v) = v := by
  have hall : ∀ n ∈ List.range 100,
      decodeBCD (encodeBCD (UInt8.ofNat n)) = UInt8.ofNat n := by decide
  simpa using hall v.toNat (List.mem_range.mpr h)

/-- A time in two decimal digits each, without a time zone. -/
structure IsDecimal (time : SmsTimeAbs) : Prop where
  year_lt : time.year.toNat < 100
  month_lt : time.month.toNat < 100
  day_lt : time.day.toNat < 100
  hour_lt : time.hour.toNat < 100
  minute_lt : time.minute.toNat < 100
  second_lt : time.second.toNat < 100

theorem reads_absoluteTime (id : UInt8) {time : SmsTimeAbs} (h : IsDecimal time) :
    Reads (decodeAbsoluteTime id) (recordBits id (absoluteTimeBits time))
      { time with timeZone := 0 } := by
  intro passed rest _
  simp [decodeAbsoluteTime, readIdLen, absoluteTimeBits, recordBits, pad,
    decodeBCD_encodeBCD h.year_lt, decodeBCD_encodeBCD h.month_lt, decodeBCD_encodeBCD h.day_lt,
    decodeBCD_encodeBCD h.hour_lt, decodeBCD_encodeBCD h.minute_lt,
    decodeBCD_encodeBCD h.second_lt]

/-- The type and plan that are not sent keep what was there. -/
theorem reads_callback {address old : SmsTeleSvcAddr} (h : address.Valid)
    (hlen : address.szData.length ≤ 255) :
    Reads (decodeCallbackNumber old) (recordBits 0x0E (callbackBits address))
      { address with
        numberType := if address.digitMode then address.numberType else old.numberType
        numberPlan := if address.digitMode then address.numberPlan else old.numberPlan } := by
  refine reads_record fun passed rest => ?_
  simp only [callbackBits, List.append_assoc, readBool_bitCursor, Option.bind_eq_bind,
    Option.bind_some, readIf_bitCursor _ _ _ (by omega : 0 < 3) (by omega) h.numberType_lt,
    readIf_bitCursor _ _ _ (by omega : 0 < 4) (by omega) h.numberPlan_lt,
    readBits_bitCursor_octet, ofNat_toNat_of_le hlen, readNumber_bitCursor _ _ h.isNumber]

/-! ## Parameter records -/

theorem highOctet_eq (v : UInt16) : ((0xFF00 &&& v) >>> 8).toUInt8 = (v >>> 8).toUInt8 := by
  apply UInt8.toNat_inj.mp
  rw [toNat_highOctet, toNat_highOctet, UInt16.toNat_and]
  have hmask : (0xFF00 &&& v.toNat) / 2 ^ 8 = 0xFF &&& v.toNat / 2 ^ 8 := by
    rw [← Nat.shiftRight_eq_div_pow, Nat.shiftRight_and_distrib, Nat.shiftRight_eq_div_pow,
      Nat.shiftRight_eq_div_pow]
  have hlow : 0xFF &&& v.toNat / 2 ^ 8 = v.toNat / 2 ^ 8 := by
    rw [Nat.and_comm, Nat.and_two_pow_sub_one_eq_mod _ 8, Nat.mod_eq_of_lt]
    have hlt := v.toNat_lt
    omega
  exact hmask.trans hlow

theorem joinPair_wordBits (v : UInt16) :
    ((0xFF00 &&& v) >>> 8).toUInt8.toUInt16 <<< 8 ||| (0x00FF &&& v).toUInt8.toUInt16 = v := by
  rw [highOctet_eq, UInt16.and_comm, UInt16.or_comm, joinPair_splitPair]

theorem readWord_bitCursor {passed : List Bool} (rest : List Bool) (v : UInt16)
    (h : passed.length % 8 = 0) :
    (bitCursor passed (wordBits v ++ rest)).readWord =
      some (v, bitCursor (passed ++ wordBits v) rest) := by
  have hbits : (bitCursor passed (wordBits v ++ rest)).bitIndex = 0 := h
  rw [readWord_eq_readByte hbits]
  simp only [wordBits, List.append_assoc, readByte_bitCursor, Option.bind_some, Option.map_some,
    joinPair_wordBits]

theorem reads_word (id : UInt8) (v : UInt16) :
    Reads (decodeWord id) (recordBits id (wordBits v)) v := by
  intro passed rest h
  have hfront : (passed ++ (field 8 id ++ field 8 (UInt8.ofNat (((wordBits v).length + 7) / 8)))).length %
      8 = 0 := by
    simp
    omega
  simp only [decodeWord, readIdLen_record, Option.bind_eq_bind, Option.bind_some,
    readWord_bitCursor _ v hfront]
  simp [recordBits, pad]

theorem reads_bearerReply {replySeq : UInt8} (h : replySeq.toNat < 2 ^ 6) :
    Reads decodeBearerReply (recordBits 0x06 (field 6 replySeq)) replySeq :=
  reads_record fun passed rest => readBits_bitCursor passed rest (by omega) (by omega) h

/-- What the octets of an address carry: a type and a plan that are not sent are zero. -/
def TransportAddr.sent (address : TransportAddr) : TransportAddr :=
  { address with
    numberType := if address.digitMode then address.numberType else 0
    numberPlan := if address.digitMode && !address.numberMode then address.numberPlan else 0 }

theorem reads_address (id : UInt8) {address : TransportAddr} (h : address.Valid)
    (hlen : address.szData.length ≤ 255) :
    Reads (decodeAddressParameter id) (recordBits id (addressBits address)) address.sent := by
  refine reads_record fun passed rest => ?_
  simp only [addressBits, List.append_assoc, readBool_bitCursor, Option.bind_eq_bind,
    Option.bind_some, readIf_bitCursor _ _ _ (by omega : 0 < 3) (by omega) h.numberType_lt,
    readIf_bitCursor _ _ _ (by omega : 0 < 4) (by omega) h.numberPlan_lt,
    readBits_bitCursor_octet, ofNat_toNat_of_le hlen, readNumber_bitCursor _ _ h.isNumber,
    TransportAddr.sent]

theorem reads_subaddress (id : UInt8) {address : TransportSubAddr}
    (hlen : address.szData.length ≤ 255) :
    Reads (decodeSubaddress id) (recordBits id (subaddressBits address)) address := by
  have htype : address.type.value.toNat < 2 ^ 3 := by
    cases address.type <;> decide
  have hback : TransportSubAddrType.ofValue address.type.value = address.type := by
    cases address.type <;> rfl
  have hnumber : IsNumber true address.szData := by simp [IsNumber]
  refine reads_record fun passed rest => ?_
  simp only [subaddressBits, List.append_assoc, readBool_bitCursor, Option.bind_eq_bind,
    Option.bind_some, readBits_bitCursor _ _ (by omega : 0 < 3) (by omega) htype,
    readBits_bitCursor_octet, ofNat_toNat_of_le hlen, readNumber_bitCursor _ _ hnumber, hback]

end TelephonySms.Cdma
