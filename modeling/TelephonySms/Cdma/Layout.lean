import TelephonySms.Cdma.Transport
import TelephonySms.Pdu.BitCursor
import TelephonySms.Pdu.UserDataLayout

/-! # Records as bits

What the writers of the records put into a buffer: identifier, number of octets,
contents, and zeros up to the end of the octet.
-/

namespace TelephonySms.Cdma

open TelephonySms.Pdu
open SmsPduBuffer

/-! ## Contents -/

def flag (v : Bool) : List Bool := field 1 (if v then 0b1 else 0b0)

@[simp] theorem length_flag (v : Bool) : (flag v).length = 1 := length_field 1 _

def fieldIf (c : Bool) (l : Nat) (v : UInt8) : List Bool := if c then field l v else []

@[simp] theorem length_fieldIf (c : Bool) (l : Nat) (v : UInt8) :
    (fieldIf c l v).length = if c then l else 0 := by
  unfold fieldIf
  split <;> simp

/-- `l` bits of each octet. -/
def each (l : Nat) (vs : List UInt8) : List Bool := vs.flatMap (field l)

@[simp] theorem each_nil (l : Nat) : each l [] = [] := rfl

@[simp] theorem each_cons (l : Nat) (v : UInt8) (vs : List UInt8) :
    each l (v :: vs) = field l v ++ each l vs := rfl

theorem each_append (l : Nat) (us vs : List UInt8) : each l (us ++ vs) = each l us ++ each l vs :=
  List.flatMap_append

@[simp] theorem length_each (l : Nat) (vs : List UInt8) : (each l vs).length = l * vs.length := by
  induction vs with
  | nil => rfl
  | cons v vs ih => simp [ih, Nat.mul_add, Nat.add_comm]

/-- A record with its contents. -/
def recordBits (id : UInt8) (content : List Bool) : List Bool :=
  field 8 id ++ (field 8 (UInt8.ofNat ((content.length + 7) / 8)) ++ (content ++ pad content.length))

theorem length_recordBits (id : UInt8) (content : List Bool) :
    (recordBits id content).length = 16 + 8 * ((content.length + 7) / 8) := by
  simp [recordBits]
  omega

/-! ## Writers -/

section Writers

variable {k : Nat}

theorem writes_bool (v : Bool) : Writes k (writeBool v) (flag v) := by
  unfold writeBool flag
  apply Writes.bits (by omega) (by omega)
  cases v <;> decide

theorem writes_if {c : Bool} {v : UInt8} {l : Nat} (hl : 0 < l) (hle : l ≤ 8)
    (hv : c = true → v.toNat < 2 ^ l) : Writes k (writeIf c v l) (fieldIf c l v) := by
  unfold writeIf fieldIf
  cases c with
  | true => exact Writes.bits hl hle (hv rfl)
  | false => exact Writes.pure

theorem writes_each {l : Nat} (hl : 0 < l) (hle : l ≤ 8) {vs : List UInt8}
    (hvs : ∀ v ∈ vs, v.toNat < 2 ^ l) : Writes k (writeEach l vs) (each l vs) := by
  induction vs generalizing k with
  | nil => exact Writes.pure
  | cons v vs ih =>
      exact Writes.bind (Writes.bits hl hle (hvs v List.mem_cons_self))
        (ih fun u hu => hvs u (List.mem_cons_of_mem v hu))

theorem writes_octets (vs : List UInt8) : Writes k (writeEach 8 vs) (each 8 vs) :=
  writes_each (by omega) (by omega) fun v _ => v.toNat_lt

theorem writes_idLen (id len : UInt8) : Writes k (writeIdLen id len) (field 8 id ++ field 8 len) :=
  Writes.bind (Writes.byte id) (Writes.byte len)

/-- A record of a length that the writer knows, from its contents. -/
theorem writes_fixed {id len : UInt8} {body : SmsPduBuffer → Option SmsPduBuffer}
    {content : List Bool} (hk : k % 8 = 0) (h : Writes 0 body (content ++ pad content.length))
    (hlen : UInt8.ofNat ((content.length + 7) / 8) = len) :
    Writes k (fun b => writeIdLen id len b >>= body) (recordBits id content) := by
  have hbody : Writes (k + (field 8 id ++ field 8 len).length) body
      (content ++ pad content.length) := h.mono (by simp; omega) rfl
  exact (Writes.bind (writes_idLen id len) hbody).mono rfl (by simp [recordBits, hlen])

theorem writes_record {id : UInt8} {body : SmsPduBuffer → Option SmsPduBuffer}
    {content : List Bool} (hk : k % 8 = 0) (h : Writes 0 body content) :
    Writes k (writeRecord id body) (recordBits id content) := by
  intro passed n b hpassed hsize hb
  obtain ⟨b₁, hid, hb⟩ := Option.bind_eq_some_iff.mp hb
  obtain ⟨hroom, rfl⟩ := Writes.byte id passed n b₁ hpassed hsize hid
  obtain ⟨front, hfront⟩ : ∃ front, passed ++ field 8 id = front := ⟨_, rfl⟩
  have hlen : front.length = passed.length + 8 := by
    rw [← hfront]
    simp
  simp only [hfront, length_field] at hroom hb
  obtain ⟨b₂, hbody, hb⟩ := Option.bind_eq_some_iff.mp hb
  by_cases hmore : 16 ≤ n
  · rw [moveForward_blank (by omega) (by omega)] at hbody
    obtain ⟨hcontent, rfl⟩ := h _ _ _ (by simp; omega) (by simp; omega) hbody
    obtain ⟨hpad, hskip⟩ := Writes.skip (k := content.length) (n := content.length) rfl
      (front ++ List.replicate 8 false ++ content) (n - 8 - 8 - content.length) _
      (by simp; omega) (by simp; omega) rfl
    rw [length_pad] at hpad
    have hoctets : (front ++ List.replicate 8 false ++ content ++ pad content.length).length / 8 -
        front.length / 8 - 1 = (content.length + 7) / 8 := by
      simp
      omega
    simp only [insertLen, hskip, blank_index, hoctets] at hb
    rw [show front ++ List.replicate 8 false ++ content ++ pad content.length =
      front ++ (List.replicate 8 false ++ (content ++ pad content.length)) by simp,
      insertByte_blank (by omega) (by simp; omega)] at hb
    cases hb
    refine ⟨by rw [length_recordBits]; omega, ?_⟩
    rw [length_recordBits, ← hfront, length_pad, recordBits, List.append_assoc]
    congr 1
    omega
  · -- There is no octet for the length, so it cannot be inserted.
    exfalso
    have hsame : (blank front (n - 8)).moveForward 1 = blank front (n - 8) := by
      have hbits : ¬ (blank front (n - 8)).bitIndex ≠ 0 := by
        simp
        omega
      have hend : (blank front (n - 8)).index + 1 > (blank front (n - 8)).getSize := by
        rw [blank_index, blank_getSize]
        omega
      rw [moveForward, if_neg hbits, if_pos hend]
    rw [hsame] at hbody
    obtain ⟨hcontent, rfl⟩ := h _ _ _ (by omega) (by omega) hbody
    have hnil : content = [] := List.eq_nil_of_length_eq_zero (by omega)
    have hskip : (blank (front ++ content) (n - 8 - content.length)).skipBits =
        blank front (n - 8) := by
      have hbits : ¬ (blank front (n - 8)).bitIndex > 0 := by
        simp
        omega
      rw [hnil, List.append_nil, skipBits, List.length_nil, Nat.sub_zero, if_neg hbits]
    simp only [insertLen, hskip, blank_index] at hb
    rw [insertByte_blank_of_le (by omega)] at hb
    cases hb

end Writers

/-! ## Sub-parameters -/

def messageIdBits (type : UInt8) (msgId : SmsTeleSvcMsgId) : List Bool :=
  field 4 type ++ (field 8 (msgId.msgId >>> 8).toUInt8 ++
    (field 8 msgId.msgId.toUInt8 ++ flag msgId.headerInd))

theorem writes_messageId {type : UInt8} (htype : type.toNat < 2 ^ 4) (msgId : SmsTeleSvcMsgId) :
    Writes 0 (encodeMessageId type msgId) (recordBits 0x00 (messageIdBits type msgId)) := by
  refine writes_fixed rfl ?_ (by simp [messageIdBits])
  have hbits : Writes 0 _ (field 4 type ++ (field 8 (msgId.msgId >>> 8).toUInt8 ++
      (field 8 msgId.msgId.toUInt8 ++ (flag msgId.headerInd ++
        pad (messageIdBits type msgId).length)))) :=
    Writes.bind (Writes.bits (by omega) (by omega) htype) <| Writes.bind (Writes.octet _) <|
      Writes.bind (Writes.octet _) <| Writes.bind (writes_bool _) <|
        Writes.skip (by simp [messageIdBits])
  exact hbits.mono rfl (by simp [messageIdBits])

theorem writes_base (id data : UInt8) :
    Writes 0 (encodeBaseParameter id data) (recordBits id (field 8 data)) := by
  refine writes_fixed rfl ?_ (by simp)
  exact (Writes.byte data).mono rfl (by simp [pad])

theorem writes_twoBits {v : UInt8} (id : UInt8) (hv : v.toNat < 2 ^ 2) :
    Writes 0 (encodeTwoBits id v) (recordBits id (field 2 v)) :=
  writes_fixed rfl (Writes.bind (Writes.bits (by omega) (by omega) hv) (Writes.skip (by simp)))
    (by simp)

def replyOptionBits (replyOpt : SmsReplyOption) : List Bool :=
  flag replyOpt.userAck ++ (flag replyOpt.dak ++ (flag replyOpt.readAck ++ flag replyOpt.report))

theorem writes_replyOption (replyOpt : SmsReplyOption) :
    Writes 0 (encodeReplyOption replyOpt) (recordBits 0x0A (replyOptionBits replyOpt)) := by
  refine writes_fixed rfl ?_ (by simp [replyOptionBits])
  have hbits : Writes 0 _ (flag replyOpt.userAck ++ (flag replyOpt.dak ++ (flag replyOpt.readAck ++
      (flag replyOpt.report ++ pad (replyOptionBits replyOpt).length)))) :=
    Writes.bind (writes_bool _) <| Writes.bind (writes_bool _) <| Writes.bind (writes_bool _) <|
      Writes.bind (writes_bool _) <| Writes.skip (by simp [replyOptionBits])
  exact hbits.mono rfl (by simp [replyOptionBits])

def absoluteTimeBits (time : SmsTimeAbs) : List Bool :=
  each 8 [encodeBCD time.year, encodeBCD time.month, encodeBCD time.day, encodeBCD time.hour,
    encodeBCD time.minute, encodeBCD time.second]

theorem writes_absoluteTime (id : UInt8) (time : SmsTimeAbs) :
    Writes 0 (encodeAbsoluteTime id time) (recordBits id (absoluteTimeBits time)) := by
  refine writes_fixed rfl ?_ (by simp [absoluteTimeBits])
  have hbits : Writes 0 _ (field 8 (encodeBCD time.year) ++ (field 8 (encodeBCD time.month) ++
      (field 8 (encodeBCD time.day) ++ (field 8 (encodeBCD time.hour) ++
        (field 8 (encodeBCD time.minute) ++ field 8 (encodeBCD time.second)))))) :=
    Writes.bind (Writes.byte _) <| Writes.bind (Writes.byte _) <| Writes.bind (Writes.byte _) <|
      Writes.bind (Writes.byte _) <| Writes.bind (Writes.byte _) (Writes.byte _)
  exact hbits.mono rfl (by simp [absoluteTimeBits, pad])

/-! ## Numbers -/

/-- `0` to `9`, `*` and `#`. -/
def dtmfDigits : List UInt8 :=
  [0x30, 0x31, 0x32, 0x33, 0x34, 0x35, 0x36, 0x37, 0x38, 0x39, 0x2A, 0x23]

theorem digitToDtmfChar_lt : ∀ c ∈ dtmfDigits, (digitToDtmfChar c).toNat < 2 ^ 4 := by
  simp [dtmfDigits, digitToDtmfChar]

theorem dtmfCharToDigit_digitToDtmfChar :
    ∀ c ∈ dtmfDigits, dtmfCharToDigit (digitToDtmfChar c) = c := by
  simp [dtmfDigits, digitToDtmfChar, dtmfCharToDigit]

/-- A number whose characters fit the mode. -/
def IsNumber (digitMode : Bool) (szData : List UInt8) : Prop :=
  digitMode = false → ∀ c ∈ szData, c ∈ dtmfDigits

def numberBits (digitMode : Bool) (szData : List UInt8) : List Bool :=
  if digitMode then each 8 szData else each 4 (szData.map digitToDtmfChar)

theorem writes_number {k : Nat} {digitMode : Bool} {szData : List UInt8}
    (h : IsNumber digitMode szData) :
    Writes k (writeNumber digitMode szData) (numberBits digitMode szData) := by
  refine Writes.guarded fun _ => ?_
  cases digitMode with
  | true => exact writes_octets szData
  | false =>
      refine writes_each (by omega) (by omega) fun v hv => ?_
      obtain ⟨c, hc, rfl⟩ := List.mem_map.mp hv
      exact digitToDtmfChar_lt c (h rfl c hc)

def callbackBits (address : SmsTeleSvcAddr) : List Bool :=
  flag address.digitMode ++
    (fieldIf address.digitMode 3 address.numberType ++
      (fieldIf address.digitMode 4 address.numberPlan ++
        (field 8 (UInt8.ofNat address.szData.length) ++
          numberBits address.digitMode address.szData)))

/-- A number whose type and plan fit their bits. -/
structure SmsTeleSvcAddr.Valid (address : SmsTeleSvcAddr) : Prop where
  numberType_lt : address.digitMode = true → address.numberType.toNat < 2 ^ 3
  numberPlan_lt : address.digitMode = true → address.numberPlan.toNat < 2 ^ 4
  isNumber : IsNumber address.digitMode address.szData

theorem writes_callback {address : SmsTeleSvcAddr} (h : address.Valid) :
    Writes 0 (encodeCallbackNumber address) (recordBits 0x0E (callbackBits address)) := by
  refine writes_record rfl (Writes.bind (writes_bool _) (Writes.guarded fun _ => ?_))
  exact Writes.bind (writes_if (by omega) (by omega) h.numberType_lt) <|
    Writes.bind (writes_if (by omega) (by omega) h.numberPlan_lt) <|
      Writes.bind (Writes.octet _) (writes_number h.isNumber)

/-! ## User data -/

/-- The octets of the headers in septets, rounded up. -/
def udhSeptets (udhBytes : Nat) : Nat := ((udhBytes + 1) * 8 + 6) / 7

/-- What `EncodeHeader7Bit` writes for `udh`: the bits behind it go to the next
septet, or are a whole octet for the alphabet of GSM. -/
def header7Bits (gsm7Bit : Bool) (udh : List UInt8) (length : Nat) : List Bool :=
  if udh.length > 0 then
    field 8 (UInt8.ofNat (udhSeptets udh.length + gsm7Bit.toNat + length)) ++
      (field 8 (UInt8.ofNat udh.length) ++ (each 8 udh ++
        if gsm7Bit then field 8 0 else List.replicate ((7 - (udh.length + 1) * 8 % 7) % 7) false))
  else field 8 (UInt8.ofNat length)

def headerUnicodeBits (udh : List UInt8) (length : Nat) : List Bool :=
  if udh.length > 0 then
    field 8 (UInt8.ofNat ((udh.length + length) / 2 + 1)) ++
      (field 8 (UInt8.ofNat udh.length) ++ each 8 udh)
  else field 8 (UInt8.ofNat (length / 2))

/-- User data behind its coding. -/
def fieldsBits (data : SmsTeleSvcUserData) : List Bool :=
  let udh := headerPdu data.userData.header
  let octets := data.userData.data
  match data.encodeType with
  | .ascii7Bit | .ia5 => header7Bits false udh octets.length ++ each 7 octets
  | .gsm7Bit => header7Bits true udh octets.length ++ each 8 (pack7bitChar octets 161)
  | .unicode => headerUnicodeBits udh octets.length ++ each 8 octets
  | _ => field 8 (UInt8.ofNat octets.length) ++ each 8 octets

def userDataBits (data : SmsTeleSvcUserData) : List Bool :=
  field 5 data.encodeType.value ++ fieldsBits data

/-- The codings that are written in full: not those with a message type, and
septets that are septets. -/
structure SmsTeleSvcUserData.Plain (data : SmsTeleSvcUserData) : Prop where
  ne_epm : data.encodeType ≠ .epm
  ne_gsmDcs : data.encodeType ≠ .gsmDcs
  lt_of_ascii : data.encodeType = .ascii7Bit ∨ data.encodeType = .ia5 →
    ∀ c ∈ data.userData.data, c.toNat < 2 ^ 7

theorem field_zero (l : Nat) : field l 0 = List.replicate l false := BitStream.toBits_ofNat_zero l

theorem writes_header7Bit (k : Nat) (data : SmsTeleSvcUserData) :
    Writes k (encodeHeader7Bit data) (header7Bits (data.encodeType = .gsm7Bit)
      (headerPdu data.userData.header) data.userData.data.length) := by
  unfold encodeHeader7Bit
  refine Writes.guarded fun _ => ?_
  generalize headerPdu data.userData.header = udh
  generalize data.userData.data.length = length
  unfold header7Bits
  by_cases hpos : udh.length > 0
  · simp only [if_pos hpos]
    have hseptets : ((udh.length + 1) * 8 / 7 + if (udh.length + 1) * 8 % 7 ≠ 0 then 1 else 0) =
        udhSeptets udh.length := by
      unfold udhSeptets
      split <;> omega
    rw [hseptets]
    by_cases hgsm : data.encodeType = .gsm7Bit
    · have hfill (j : Nat) : Writes j (writeIf (decide (8 ≠ 7)) 0 8) (field 8 0) :=
        writes_if (by omega) (by omega) fun _ => by decide
      simp only [hgsm, if_true, decide_true, Bool.toNat_true]
      exact Writes.bind (Writes.octet _) <| Writes.bind (Writes.octet _) <|
        Writes.bind (writes_octets udh) (hfill _)
    · have hfill (j : Nat) : Writes j (writeIf (decide (7 - (udh.length + 1) * 8 % 7 ≠ 7)) 0
          (7 - (udh.length + 1) * 8 % 7))
          (List.replicate ((7 - (udh.length + 1) * 8 % 7) % 7) false) := by
        refine (writes_if (by omega) (by omega) fun _ => Nat.two_pow_pos _).mono rfl ?_
        by_cases hzero : (udh.length + 1) * 8 % 7 = 0
        · simp [fieldIf, hzero]
        · rw [fieldIf, decide_eq_true (by omega), if_pos rfl, field_zero,
            Nat.mod_eq_of_lt (show 7 - (udh.length + 1) * 8 % 7 < 7 by omega)]
      simp only [hgsm, if_false, decide_false, Bool.toNat_false, Nat.add_zero,
        Bool.false_eq_true]
      exact Writes.bind (Writes.octet _) <| Writes.bind (Writes.octet _) <|
        Writes.bind (writes_octets udh) (hfill _)
  · simp only [if_neg hpos]
    exact Writes.octet _

theorem writes_headerUnicode (k : Nat) (data : SmsTeleSvcUserData) :
    Writes k (encodeHeaderUnicode data) (headerUnicodeBits (headerPdu data.userData.header)
      data.userData.data.length) := by
  unfold encodeHeaderUnicode headerUnicodeBits
  refine Writes.guarded fun _ => ?_
  by_cases hpos : (headerPdu data.userData.header).length > 0
  · simp only [if_pos hpos]
    exact Writes.bind (Writes.octet _) <| Writes.bind (Writes.octet _) (writes_octets _)
  · simp only [if_neg hpos]
    exact Writes.octet _

theorem writes_8BitData (k : Nat) (data : SmsTeleSvcUserData) :
    Writes k (encode8BitData data) (field 8 (UInt8.ofNat data.userData.data.length) ++
      each 8 data.userData.data) :=
  Writes.guarded fun _ => Writes.bind (Writes.octet _) (writes_octets _)

theorem writes_ascii7Bit (k : Nat) {data : SmsTeleSvcUserData} (h : data.encodeType ≠ .gsm7Bit)
    (hdata : ∀ c ∈ data.userData.data, c.toNat < 2 ^ 7) :
    Writes k (encodeAscii7Bit data) (header7Bits false (headerPdu data.userData.header)
      data.userData.data.length ++ each 7 data.userData.data) := by
  have hheader := writes_header7Bit k data
  rw [decide_eq_false h] at hheader
  exact hheader.bind (Writes.guarded fun _ => writes_each (by omega) (by omega) hdata)

theorem writes_gsm7Bit (k : Nat) {data : SmsTeleSvcUserData} (h : data.encodeType = .gsm7Bit) :
    Writes k (encodeGsm7Bit data) (header7Bits true (headerPdu data.userData.header)
      data.userData.data.length ++ each 8 (pack7bitChar data.userData.data 161)) := by
  have hheader := writes_header7Bit k data
  rw [decide_eq_true h] at hheader
  exact hheader.bind (writes_octets _)

theorem writes_unicode (k : Nat) (data : SmsTeleSvcUserData) :
    Writes k (encodeUnicode data) (headerUnicodeBits (headerPdu data.userData.header)
      data.userData.data.length ++ each 8 data.userData.data) :=
  (writes_headerUnicode k data).bind (Writes.guarded fun _ => writes_octets _)

theorem writes_userData {data : SmsTeleSvcUserData} (h : data.Plain) :
    Writes 0 (encodeUserData data) (recordBits 0x01 (userDataBits data)) := by
  have htype : data.encodeType.value.toNat < 2 ^ 5 := by
    cases data.encodeType <;> decide
  have hno : decide (data.encodeType = .epm ∨ data.encodeType = .gsmDcs) = false :=
    decide_eq_false (not_or.mpr ⟨h.ne_epm, h.ne_gsmDcs⟩)
  refine writes_record rfl (Writes.bind (Writes.bits (by omega) (by omega) htype) ?_)
  have hmsgType (j : Nat) : Writes j (writeIf (decide (data.encodeType = .epm ∨
      data.encodeType = .gsmDcs)) data.msgType 8) [] := by
    rw [hno]
    exact Writes.pure
  refine Writes.bind (w := []) (hmsgType _) ?_
  cases hcoding : data.encodeType with
  | ascii7Bit => exact writes_ascii7Bit _ (by simp [hcoding]) (h.lt_of_ascii (.inl hcoding))
  | ia5 => exact writes_ascii7Bit _ (by simp [hcoding]) (h.lt_of_ascii (.inr hcoding))
  | gsm7Bit => exact writes_gsm7Bit _ hcoding
  | unicode => exact writes_unicode _ data
  | _ => exact writes_8BitData _ data

/-! ## Parameter records -/

theorem writes_word (id : UInt8) (v : UInt16) :
    Writes 0 (encodeWord id v) (recordBits id (wordBits v)) := by
  refine writes_fixed rfl ?_ (by simp)
  exact (Writes.word v rfl).mono rfl (by simp [pad])

theorem writes_bearerReply {replySeq : UInt8} (h : replySeq.toNat < 2 ^ 6) :
    Writes 0 (encodeBearerReply replySeq) (recordBits 0x06 (field 6 replySeq)) :=
  writes_fixed rfl (Writes.bind (Writes.bits (by omega) (by omega) h) (Writes.skip (by simp)))
    (by simp)

structure TransportAddr.Valid (address : TransportAddr) : Prop where
  numberType_lt : address.digitMode = true → address.numberType.toNat < 2 ^ 3
  numberPlan_lt : (address.digitMode && !address.numberMode) = true →
    address.numberPlan.toNat < 2 ^ 4
  isNumber : IsNumber address.digitMode address.szData

def addressBits (address : TransportAddr) : List Bool :=
  flag address.digitMode ++ (flag address.numberMode ++
    (fieldIf address.digitMode 3 address.numberType ++
      (fieldIf (address.digitMode && !address.numberMode) 4 address.numberPlan ++
        (field 8 (UInt8.ofNat address.szData.length) ++
          numberBits address.digitMode address.szData))))

theorem writes_address (id : UInt8) {address : TransportAddr} (h : address.Valid) :
    Writes 0 (encodeAddressParameter id address) (recordBits id (addressBits address)) :=
  writes_record rfl <| Writes.bind (writes_bool _) <| Writes.bind (writes_bool _) <|
    Writes.bind (writes_if (by omega) (by omega) h.numberType_lt) <|
      Writes.bind (writes_if (by omega) (by omega) h.numberPlan_lt) <|
        Writes.bind (Writes.octet _) (Writes.guarded fun _ => writes_number h.isNumber)

def subaddressBits (address : TransportSubAddr) : List Bool :=
  field 3 address.type.value ++ (flag address.odd ++
    (field 8 (UInt8.ofNat address.szData.length) ++ numberBits true address.szData))

theorem writes_subaddress (id : UInt8) (address : TransportSubAddr) :
    Writes 0 (encodeSubaddress id address) (recordBits id (subaddressBits address)) := by
  have htype : address.type.value.toNat < 2 ^ 3 := by
    cases address.type <;> decide
  exact writes_record rfl <| Writes.bind (Writes.bits (by omega) (by omega) htype) <|
    Writes.bind (writes_bool _) <| Writes.bind (Writes.octet _) <|
      Writes.guarded fun _ => writes_number (by simp [IsNumber])

end TelephonySms.Cdma
