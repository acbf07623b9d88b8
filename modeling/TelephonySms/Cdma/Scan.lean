import TelephonySms.Cdma.UserDataReading

/-! # Scanning records

The scans over records that follow each other: every record is found at its
place, with the parameter its identifier stands for.
-/

namespace TelephonySms.Cdma

open TelephonySms.Pdu
open SmsPduBuffer

/-- An identifier and the contents of a record. -/
structure RawRecord where
  id : UInt8
  content : List Bool

namespace RawRecord

def bits (r : RawRecord) : List Bool := recordBits r.id r.content

/-- Contents that the length octet can count. -/
def Fits (r : RawRecord) : Prop := (r.content.length + 7) / 8 ≤ 255

theorem length_bits_mod (r : RawRecord) : r.bits.length % 8 = 0 := by
  rw [bits, length_recordBits]
  omega

theorem length_flatMap_bits_mod (records : List RawRecord) :
    (records.flatMap bits).length % 8 = 0 := by
  induction records with
  | nil => rfl
  | cons r records ih =>
      have := r.length_bits_mod
      simp only [List.flatMap_cons, List.length_append]
      omega

theorem length_le_flatMap_bits (records : List RawRecord) :
    8 * records.length ≤ (records.flatMap bits).length := by
  induction records with
  | nil => simp
  | cons r records ih =>
      have hlen : 16 ≤ r.bits.length := by
        rw [bits, length_recordBits]
        omega
      simp only [List.flatMap_cons, List.length_append, List.length_cons]
      omega

theorem fits_of_mem {records : List RawRecord} {r : RawRecord} (hr : r ∈ records)
    (h : (records.flatMap bits).length ≤ 2048) : r.Fits := by
  obtain ⟨before, after, rfl⟩ := List.append_of_mem hr
  have hlen : r.bits.length = 16 + 8 * ((r.content.length + 7) / 8) := length_recordBits _ _
  simp only [List.flatMap_append, List.flatMap_cons, List.length_append] at h
  unfold Fits
  omega

end RawRecord

theorem readByte_bitCursor_nil {passed : List Bool} (h : passed.length % 8 = 0) :
    (bitCursor passed []).readByte = none := by
  have hbits : ¬ (bitCursor passed []).bitIndex ≠ 0 := by simp [h]
  have hdata : (bitCursor passed []).data[(bitCursor passed []).index]? = none := by
    simp only [bitCursor_data, bitCursor_index, List.append_nil]
    rw [BitStream.octets_getElem?, if_neg (by omega)]
  rw [readByte, if_neg hbits, hdata]

/-- A record under a scan: its identifier, its length, and the way over it. -/
theorem scan_record {r : RawRecord} (hfit : r.Fits) {passed : List Bool} (rest : List Bool)
    (h : passed.length % 8 = 0) :
    ∃ len b, (bitCursor passed (r.bits ++ rest)).readByte =
        some (r.id, bitCursor (passed ++ field 8 r.id) (field 8 len ++
          (r.content ++ (pad r.content.length ++ rest)))) ∧
      (bitCursor (passed ++ field 8 r.id) (field 8 len ++
        (r.content ++ (pad r.content.length ++ rest)))).readByte = some (len, b) ∧
      (b = bitCursor (passed ++ (field 8 r.id ++ field 8 len))
          (r.content ++ (pad r.content.length ++ rest)) ∧
        b.moveBack 2 = bitCursor passed (r.bits ++ rest) ∧
        (bitCursor (passed ++ r.bits) rest).setIndex b.index = b) ∧
      b.moveForward len.toNat = bitCursor (passed ++ r.bits) rest := by
  refine ⟨UInt8.ofNat ((r.content.length + 7) / 8), _, ?_, readByte_bitCursor _ _ _,
    ⟨?_, ?_, ?_⟩, ?_⟩
  · simp [RawRecord.bits, recordBits]
  · simp
  · rw [List.append_assoc, moveBack_bitCursor h (by simp)]
    simp [RawRecord.bits, recordBits]
  · have hlen := r.length_bits_mod
    refine setIndex_bitCursor (by rw [List.length_append]; omega) ?_ ?_ ?_
    · simp
      omega
    · simp [RawRecord.bits, recordBits]
    · simp
  · rw [ofNat_toNat_of_le hfit, ← List.append_assoc r.content,
      moveForward_bitCursor (by simp; omega) (by simp; omega)]
    simp [RawRecord.bits, recordBits]

/-- The scan of the sub-parameters ends with the buffer. -/
theorem scanParameters_records (parameter : UInt8 → SubParameter) (records : List RawRecord)
    {n : Nat} {passed : List Bool} (hn : records.length ≤ n) (hfit : ∀ r ∈ records, r.Fits)
    (h : passed.length % 8 = 0) :
    ∃ pars, scanParameters parameter n (bitCursor passed (records.flatMap RawRecord.bits)) =
        (pars, bitCursor (passed ++ records.flatMap RawRecord.bits) []) ∧
      pars.map Scanned.parameter = records.map fun r => parameter r.id := by
  induction records generalizing n passed with
  | nil =>
      refine ⟨[], ?_, rfl⟩
      cases n with
      | zero => simp [scanParameters]
      | succ n => simp [scanParameters, readByte_bitCursor_nil h]
  | cons r records ih =>
      cases n with
      | zero => simp at hn
      | succ n =>
          have hlen := r.length_bits_mod
          obtain ⟨len, b, hid, hlenRead, -, hmove⟩ := scan_record (hfit r List.mem_cons_self)
            (records.flatMap RawRecord.bits) h
          have hpassed : (passed ++ r.bits).length % 8 = 0 := by
            rw [List.length_append]
            omega
          obtain ⟨pars, hscan, hpars⟩ := ih (n := n) (by simpa using hn)
            (fun s hs => hfit s (List.mem_cons_of_mem r hs)) hpassed
          refine ⟨⟨passed.length / 8, len, parameter r.id⟩ :: pars, ?_, ?_⟩
          · rw [List.flatMap_cons, scanParameters, hid]
            simp only [hlenRead, hmove, hscan, bitCursor_index, List.append_assoc]
          · simp [hpars]

/-- The identifier of the message is found behind records of other kinds. -/
theorem getMessageTypeLoop_records {r₀ : RawRecord} {type : UInt8} {msgId : SmsTeleSvcMsgId}
    (hread : Reads decodeMessageId r₀.bits (type, msgId)) (hid : r₀.id = 0x00)
    (before after : List RawRecord) {n : Nat} {passed : List Bool} (hn : before.length < n)
    (hbefore : ∀ r ∈ before, r.id ≠ 0x00 ∧ r.Fits) (h : passed.length % 8 = 0) :
    getMessageTypeLoop n (bitCursor passed ((before ++ r₀ :: after).flatMap RawRecord.bits)) =
      (type, bitCursor (passed ++ (before ++ [r₀]).flatMap RawRecord.bits)
        (after.flatMap RawRecord.bits)) := by
  induction before generalizing n passed with
  | nil =>
      cases n with
      | zero => simp at hn
      | succ n =>
          have hfirst : (bitCursor passed (r₀.bits ++ after.flatMap RawRecord.bits)).readByte =
              some (0x00, bitCursor (passed ++ field 8 0x00) (field 8
                (UInt8.ofNat ((r₀.content.length + 7) / 8)) ++ (r₀.content ++
                  (pad r₀.content.length ++ after.flatMap RawRecord.bits)))) := by
            simp [RawRecord.bits, recordBits, hid]
          have hback : (bitCursor (passed ++ field 8 0x00) (field 8
              (UInt8.ofNat ((r₀.content.length + 7) / 8)) ++ (r₀.content ++
                (pad r₀.content.length ++ after.flatMap RawRecord.bits)))).moveBack 1 =
              bitCursor passed (r₀.bits ++ after.flatMap RawRecord.bits) := by
            rw [moveBack_bitCursor h (by simp)]
            simp [RawRecord.bits, recordBits, hid]
          simp only [List.nil_append, List.flatMap_cons, List.flatMap_nil, List.append_nil,
            getMessageTypeLoop, hfirst, hback, if_true, hread passed _ h]
  | cons r before ih =>
      cases n with
      | zero => simp at hn
      | succ n =>
          have hlen := r.length_bits_mod
          obtain ⟨hne, hfit⟩ := hbefore r List.mem_cons_self
          obtain ⟨len, b, hfirst, hlenRead, -, hmove⟩ := scan_record hfit
            ((before ++ r₀ :: after).flatMap RawRecord.bits) h
          have hpassed : (passed ++ r.bits).length % 8 = 0 := by
            rw [List.length_append]
            omega
          have hrest := ih (n := n) (by simpa using hn)
            (fun s hs => hbefore s (List.mem_cons_of_mem r hs)) hpassed
          rw [List.cons_append, List.flatMap_cons, getMessageTypeLoop, hfirst]
          simp only [hne, if_false, hlenRead, hmove, hrest, List.cons_append, List.flatMap_cons,
            List.append_assoc]

/-- Bearer data that ends with the buffer. -/
theorem scanBearerData_records {isCMAS : Bool} (msg : CdmaTeleserviceMsg) {r₀ : RawRecord}
    {type : UInt8} {msgId : SmsTeleSvcMsgId} {kind : TeleserviceMsgType}
    {parameter : UInt8 → SubParameter} (hread : Reads decodeMessageId r₀.bits (type, msgId))
    (hid : r₀.id = 0x00) (hkind : messageKind isCMAS type = some (kind, parameter))
    (before after : List RawRecord) {passed : List Bool}
    (hbefore : ∀ r ∈ before, r.id ≠ 0x00) (hfit : ∀ r ∈ before ++ r₀ :: after, r.Fits)
    (hn : (before ++ r₀ :: after).length ≤ 24) (h : passed.length % 8 = 0)
    (hindex : passed.length < 2048) :
    ∃ pars, scanBearerData isCMAS msg
        (bitCursor passed ((before ++ r₀ :: after).flatMap RawRecord.bits)) =
      ((if kind = .submit then { msg with type := kind, priority := .reserved }
          else { msg with type := kind }, some pars),
        bitCursor (passed ++ (before ++ r₀ :: after).flatMap RawRecord.bits) []) ∧
      pars.map Scanned.parameter = (before ++ r₀ :: after).map fun r => parameter r.id := by
  obtain ⟨pars, hscan, hpars⟩ := scanParameters_records parameter (before ++ r₀ :: after) hn hfit h
  refine ⟨pars, ?_, hpars⟩
  have hsize : before.length < (bitCursor passed
      ((before ++ r₀ :: after).flatMap RawRecord.bits)).getSize := by
    have hle := RawRecord.length_le_flatMap_bits (before ++ r₀ :: after)
    rw [List.length_append, List.length_cons] at hle
    simp only [getSize, bitCursor_data, BitStream.length_octets]
    rw [List.length_append]
    omega
  have htype := getMessageTypeLoop_records hread hid before after hsize
    (fun r hr => ⟨hbefore r hr, hfit r (List.mem_append_left _ hr)⟩) h
  have hmod := RawRecord.length_flatMap_bits_mod (before ++ [r₀])
  have hset : (bitCursor (passed ++ (before ++ [r₀]).flatMap RawRecord.bits)
      (after.flatMap RawRecord.bits)).setIndex (passed.length / 8 % 256) =
        bitCursor passed ((before ++ r₀ :: after).flatMap RawRecord.bits) := by
    refine setIndex_bitCursor (by rw [List.length_append]; omega) h ?_ (by omega)
    simp
  simp only [scanBearerData, getMessageType, htype, bitCursor_index, hset, hkind, hscan]

/-! ## Transport messages -/

/-- Parameters of which a scan only takes note. -/
theorem scanRecords_noted (step : UInt8 → ScanStep) (par : UInt8 → ParameterRecord)
    (front : List RawRecord) (n : Nat) (msg : CdmaTransportMsg) (passed rest : List Bool)
    (hstep : ∀ r ∈ front, ∀ msg b, step r.id msg b = some ((msg, par r.id), b))
    (hfit : ∀ r ∈ front, r.Fits) (h : passed.length % 8 = 0) :
    ∃ pars, scanRecords step (front.length + n) msg
        (bitCursor passed (front.flatMap RawRecord.bits ++ rest)) =
      ((scanRecords step n msg (bitCursor (passed ++ front.flatMap RawRecord.bits) rest)).1,
        pars ++ (scanRecords step n msg
          (bitCursor (passed ++ front.flatMap RawRecord.bits) rest)).2) ∧
      pars.map Scanned.parameter = front.map fun r => par r.id := by
  induction front generalizing passed with
  | nil => exact ⟨[], by simp, rfl⟩
  | cons r front ih =>
      have hlen := r.length_bits_mod
      have hpassed : (passed ++ r.bits).length % 8 = 0 := by
        rw [List.length_append]
        omega
      obtain ⟨len, b, hid, hlenRead, -, hmove⟩ := scan_record (hfit r List.mem_cons_self)
        (front.flatMap RawRecord.bits ++ rest) h
      obtain ⟨pars, hscan, hpars⟩ := ih (passed ++ r.bits)
        (fun s hs => hstep s (List.mem_cons_of_mem r hs))
        (fun s hs => hfit s (List.mem_cons_of_mem r hs)) hpassed
      refine ⟨⟨passed.length / 8, len, par r.id⟩ :: pars, ?_, by simp [hpars]⟩
      rw [List.flatMap_cons, List.append_assoc, List.length_cons, Nat.add_right_comm, scanRecords,
        hid]
      simp only [hlenRead, hstep r List.mem_cons_self, hmove, hscan, bitCursor_index,
        List.append_assoc, List.cons_append]

theorem scanRecords_nil (step : UInt8 → ScanStep) (msg : CdmaTransportMsg) {n : Nat}
    {passed : List Bool} (h : passed.length % 8 = 0) :
    scanRecords step n msg (bitCursor passed []) = (msg, []) := by
  cases n with
  | zero => rfl
  | succ n => simp [scanRecords, readByte_bitCursor_nil h]

/-- Bearer data at the end of a message. -/
theorem scanRecords_bearerData (step : UInt8 → ScanStep) (isCMAS : Bool)
    (msg : CdmaTransportMsg) (n : Nat) (passed : List Bool) {r₀ : RawRecord} {type : UInt8} {msgId : SmsTeleSvcMsgId}
    {kind : TeleserviceMsgType} {parameter : UInt8 → SubParameter}
    (hstep : ∀ b, step 0x08 msg b =
      some (({ msg with telesvcMsg := (scanBearerData isCMAS msg.telesvcMsg b).1.1 },
        .bearerData (scanBearerData isCMAS msg.telesvcMsg b).1.2),
        (scanBearerData isCMAS msg.telesvcMsg b).2.setIndex b.index))
    (hread : Reads decodeMessageId r₀.bits (type, msgId))
    (hid : r₀.id = 0x00) (hkind : messageKind isCMAS type = some (kind, parameter))
    (before after : List RawRecord) (hbefore : ∀ r ∈ before, r.id ≠ 0x00)
    (hn : (before ++ r₀ :: after).length ≤ 24) (h : passed.length % 8 = 0)
    (hindex : (passed ++ (before ++ r₀ :: after).flatMap RawRecord.bits).length + 16 ≤ 2048) :
    ∃ start len pars, scanRecords step (n + 1) msg (bitCursor passed
        (recordBits 0x08 ((before ++ r₀ :: after).flatMap RawRecord.bits))) =
      ({ msg with telesvcMsg := if kind = .submit then
          { msg.telesvcMsg with type := kind, priority := .reserved }
          else { msg.telesvcMsg with type := kind } },
        [⟨start, len, .bearerData (some pars)⟩]) ∧
      pars.map Scanned.parameter = (before ++ r₀ :: after).map fun r => parameter r.id := by
  have hmod := RawRecord.length_flatMap_bits_mod (before ++ r₀ :: after)
  have hpad : pad ((before ++ r₀ :: after).flatMap RawRecord.bits).length = [] := by
    rw [pad, hmod]
    rfl
  have hfits : ∀ r ∈ before ++ r₀ :: after, r.Fits := by
    rw [List.length_append] at hindex
    exact fun r hr => RawRecord.fits_of_mem hr (by omega)
  rw [List.length_append] at hindex
  obtain ⟨len, b, hid₁, hlen, ⟨hb, -⟩, hmove⟩ := scan_record
    (r := ⟨0x08, (before ++ r₀ :: after).flatMap RawRecord.bits⟩)
    (by simp only [RawRecord.Fits]; omega) [] h
  simp only [List.append_nil, hpad] at hid₁ hlen hb
  subst hb
  have hcontent := RawRecord.length_le_flatMap_bits (before ++ r₀ :: after)
  rw [List.length_append, List.length_cons] at hcontent
  have hfront : (passed ++ (field 8 0x08 ++ field 8 len)).length = passed.length + 16 := by simp
  obtain ⟨pars, hscan, hpars⟩ := scanBearerData_records msg.telesvcMsg hread hid hkind
    before after hbefore hfits hn
    (show (passed ++ (field 8 0x08 ++ field 8 len)).length % 8 = 0 by omega) (by omega)
  have hback : (bitCursor (passed ++ (field 8 0x08 ++ field 8 len) ++
      (before ++ r₀ :: after).flatMap RawRecord.bits) []).setIndex
        ((passed ++ (field 8 0x08 ++ field 8 len)).length / 8) =
          bitCursor (passed ++ (field 8 0x08 ++ field 8 len))
            ((before ++ r₀ :: after).flatMap RawRecord.bits) := by
    exact setIndex_bitCursor (by rw [List.length_append]; omega) (by omega) (by simp) rfl
  have hend : (passed ++ RawRecord.bits
      ⟨0x08, (before ++ r₀ :: after).flatMap RawRecord.bits⟩).length % 8 = 0 := by
    have := RawRecord.length_bits_mod ⟨0x08, (before ++ r₀ :: after).flatMap RawRecord.bits⟩
    rw [List.length_append]
    omega
  refine ⟨passed.length / 8, len, pars, ?_, hpars⟩
  have hid₂ : (bitCursor passed (recordBits 0x08
      ((before ++ r₀ :: after).flatMap RawRecord.bits))).readByte = _ := hid₁
  have hstep' := hstep (bitCursor (passed ++ (field 8 0x08 ++ field 8 len))
    ((before ++ r₀ :: after).flatMap RawRecord.bits))
  simp only [hscan, bitCursor_index, hback] at hstep'
  rw [scanRecords, hid₂]
  simp only [hlen, hstep', hmove, scanRecords_nil _ _ hend, bitCursor_index]

/-! ## The second pass -/

/-- A record into its field. -/
theorem Reads.store {α β : Type} {f : SmsPduBuffer → Option (α × SmsPduBuffer)} {w : List Bool}
    {x : α} (h : Reads f w x) (g : α → β) :
    Reads (fun b => do
      let (y, b) ← f b
      some (g y, b)) w (g x) := by
  intro passed rest hpassed
  simp only [h passed rest hpassed, Option.bind_eq_bind, Option.bind_some]

/-- Sub-parameters that are read one after the other. -/
theorem reads_parameters {ι : Type} {coder : TextCoder} (par : ι → SubParameter)
    (record : ι → RawRecord) (store : ι → CdmaTeleserviceMsg → CdmaTeleserviceMsg)
    {Good : CdmaTeleserviceMsg → Prop} {items : List ι}
    (h : ∀ i ∈ items, ∀ old, Good old →
      Reads ((par i).decode coder old) (record i).bits (store i old) ∧ Good (store i old)) :
    ∀ old, Good old → Reads (decodeSubParameters coder (items.map par) old)
      ((items.map record).flatMap RawRecord.bits) (items.foldl (fun m i => store i m) old) := by
  induction items with
  | nil =>
      intro old _ passed rest _
      simp [decodeSubParameters]
  | cons i items ih =>
      intro old hold passed rest hpassed
      obtain ⟨hread, hgood⟩ := h i List.mem_cons_self old hold
      have hlen := (record i).length_bits_mod
      have hrest := ih (fun j hj => h j (List.mem_cons_of_mem i hj)) _ hgood
        (passed ++ (record i).bits) rest (by rw [List.length_append]; omega)
      simp only [List.map_cons, List.flatMap_cons, List.append_assoc, decodeSubParameters,
        hread passed _ hpassed, Option.bind_eq_bind, Option.bind_some, List.foldl_cons] at hrest ⊢
      exact hrest

theorem reads_records {ι : Type} {coder : TextCoder} (par : ι → ParameterRecord)
    (record : ι → RawRecord) (store : ι → CdmaTransportMsg → CdmaTransportMsg) {items : List ι}
    (h : ∀ i ∈ items, ∀ old,
      Reads ((par i).decode coder old) (record i).bits (store i old)) :
    ∀ old, Reads (decodeRecords coder (items.map par) old)
      ((items.map record).flatMap RawRecord.bits) (items.foldl (fun m i => store i m) old) := by
  induction items with
  | nil =>
      intro old passed rest _
      simp [decodeRecords]
  | cons i items ih =>
      intro old passed rest hpassed
      have hread := h i List.mem_cons_self old
      have hlen := (record i).length_bits_mod
      have hrest := ih (fun j hj => h j (List.mem_cons_of_mem i hj)) (store i old)
        (passed ++ (record i).bits) rest (by rw [List.length_append]; omega)
      simp only [List.map_cons, List.flatMap_cons, List.append_assoc, decodeRecords,
        hread passed _ hpassed, Option.bind_eq_bind, Option.bind_some, List.foldl_cons] at hrest ⊢
      exact hrest

theorem decodeRecords_append (coder : TextCoder) (pars : List ParameterRecord)
    (par : ParameterRecord) (msg : CdmaTransportMsg) (b : SmsPduBuffer) :
    decodeRecords coder (pars ++ [par]) msg b =
      (decodeRecords coder pars msg b).bind fun r => par.decode coder r.1 r.2 := by
  induction pars generalizing msg b with
  | nil =>
      cases hlast : par.decode coder msg b <;> simp [decodeRecords, hlast]
  | cons first pars ih =>
      simp only [List.cons_append, decodeRecords, Option.bind_eq_bind]
      cases first.decode coder msg b with
      | none => rfl
      | some r => exact ih r.1 r.2

/-- Bearer data whose sub-parameters are read one after the other. -/
theorem reads_bearerData {coder : TextCoder} {scanned : List (Scanned SubParameter)}
    {records : List RawRecord} {old : CdmaTransportMsg} {telesvcMsg : CdmaTeleserviceMsg}
    (hne : scanned ≠ [])
    (h : Reads (decodeSubParameters coder (scanned.map Scanned.parameter) old.telesvcMsg)
      (records.flatMap RawRecord.bits) telesvcMsg) :
    Reads (ParameterRecord.decode coder (.bearerData (some scanned)) old)
      (recordBits 0x08 (records.flatMap RawRecord.bits)) { old with telesvcMsg := telesvcMsg } := by
  intro passed rest hpassed
  have hmod := RawRecord.length_flatMap_bits_mod records
  have hpad : pad (records.flatMap RawRecord.bits).length = [] := by
    rw [pad, hmod]
    rfl
  have hread := h (passed ++ (field 8 0x08 ++
    field 8 (UInt8.ofNat (((records.flatMap RawRecord.bits).length + 7) / 8)))) rest
    (by simp; omega)
  have hpars : ¬ scanned.map Scanned.parameter = [] := by simpa using hne
  simp only [ParameterRecord.decode, readIdLen_record, decodeTeleservice, if_neg hpars, hpad,
    List.nil_append, hread, Option.bind_eq_bind, Option.bind_some]
  simp only [recordBits, hpad, List.append_nil, List.append_assoc]

/-! ## Both passes -/

/-- What a scan makes of the identifier of a parameter that it only takes note of. -/
def notedParameter (id : UInt8) : ParameterRecord :=
  if id = 0x00 then .teleserviceId
  else if id = 0x01 then .serviceCategory
  else if id = 0x02 ∨ id = 0x04 then .address id
  else if id = 0x03 ∨ id = 0x05 then .subaddress id
  else if id = 0x06 then .bearerReply
  else .causeCodes

/-- The identifiers that the scan of a point-to-point message takes note of. -/
def p2pNoted : List UInt8 := [0x00, 0x01, 0x02, 0x03, 0x04, 0x05, 0x06]

theorem scanP2pParameter_noted : ∀ id ∈ p2pNoted, ∀ msg b,
    scanP2pParameter id msg b = some ((msg, notedParameter id), b) := by
  intro id hid msg b
  simp only [p2pNoted, List.mem_cons, List.not_mem_nil, or_false] at hid
  rcases hid with rfl | rfl | rfl | rfl | rfl | rfl | rfl <;> rfl

/-- A teleservice message as the scan of bearer data leaves it. -/
def startOf (kind : TeleserviceMsgType) (msg : CdmaTeleserviceMsg) : CdmaTeleserviceMsg :=
  if kind = .submit then { msg with type := kind, priority := .reserved }
  else { msg with type := kind }

/-- The second pass comes to bearer data at the end of a message. -/
theorem decodeTransport_scanned {coder : TextCoder} {v : UInt8} {front : List RawRecord}
    {content : List Bool} {scanned middle : CdmaTransportMsg}
    {pars : List (Scanned ParameterRecord)} {subs : List (Scanned SubParameter)} {start : Nat}
    {len : UInt8}
    (hlen : (field 8 v ++ (front.flatMap RawRecord.bits ++ recordBits 0x08 content)).length ≤ 2048)
    (hcreate : createTransportMessage .zero (bitCursor [] (field 8 v ++
      (front.flatMap RawRecord.bits ++ recordBits 0x08 content))) =
        some (scanned, pars ++ [⟨start, len, .bearerData (some subs)⟩]))
    (hfirst : Reads (decodeRecords coder (pars.map Scanned.parameter) scanned)
      (front.flatMap RawRecord.bits) middle) :
    decodeTransport coder (BitStream.octets (field 8 v ++ (front.flatMap RawRecord.bits ++
      recordBits 0x08 content))) =
        (ParameterRecord.decode coder (.bearerData (some subs)) middle
          (bitCursor (field 8 v ++ front.flatMap RawRecord.bits) (recordBits 0x08 content))).map
            Prod.fst := by
  have hhex := ofHex_octets (w := field 8 v ++ (front.flatMap RawRecord.bits ++
    recordBits 0x08 content))
    (by simp only [List.length_append, length_field, length_recordBits]; omega) hlen
  have hne : ¬ pars ++ [⟨start, len, .bearerData (some subs)⟩] = [] := by simp
  have hset : (bitCursor [] (field 8 v ++ (front.flatMap RawRecord.bits ++
      recordBits 0x08 content))).setIndex 0 = bitCursor [] (field 8 v ++
        (front.flatMap RawRecord.bits ++ recordBits 0x08 content)) :=
    setIndex_bitCursor rfl rfl rfl rfl
  have hfront := hfirst (field 8 v) (recordBits 0x08 content) (by rw [length_field])
  simp only [decodeTransport, hhex, hcreate, Option.bind_eq_bind, Option.bind_some, if_neg hne,
    hset, readByte_bitCursor, List.nil_append, List.map_append, List.map_cons, List.map_nil,
    decodeRecords_append, hfront, Option.map_eq_bind]
  rfl

/-- The second pass over a message with bearer data at its end. -/
theorem decodeTransport_records {coder : TextCoder} {v : UInt8} {front records : List RawRecord}
    {scanned middle : CdmaTransportMsg} {telesvcMsg : CdmaTeleserviceMsg}
    {pars : List (Scanned ParameterRecord)} {subs : List (Scanned SubParameter)} {start : Nat}
    {len : UInt8}
    (hlen : (field 8 v ++ (front.flatMap RawRecord.bits ++
      recordBits 0x08 (records.flatMap RawRecord.bits))).length ≤ 2048)
    (hcreate : createTransportMessage .zero (bitCursor [] (field 8 v ++
      (front.flatMap RawRecord.bits ++ recordBits 0x08 (records.flatMap RawRecord.bits)))) =
        some (scanned, pars ++ [⟨start, len, .bearerData (some subs)⟩]))
    (hsubs : subs ≠ [])
    (hfirst : Reads (decodeRecords coder (pars.map Scanned.parameter) scanned)
      (front.flatMap RawRecord.bits) middle)
    (hsecond : Reads (decodeSubParameters coder (subs.map Scanned.parameter) middle.telesvcMsg)
      (records.flatMap RawRecord.bits) telesvcMsg) :
    decodeTransport coder (BitStream.octets (field 8 v ++ (front.flatMap RawRecord.bits ++
      recordBits 0x08 (records.flatMap RawRecord.bits)))) =
        some { middle with telesvcMsg := telesvcMsg } := by
  have hmod := RawRecord.length_flatMap_bits_mod front
  have hbearer := reads_bearerData hsubs hsecond (field 8 v ++ front.flatMap RawRecord.bits) []
    (by rw [List.length_append, length_field]; omega)
  rw [List.append_nil] at hbearer
  rw [decodeTransport_scanned hlen hcreate hfirst, hbearer]
  rfl

/-- A point-to-point message with bearer data at its end, scanned. -/
theorem createTransportMessage_p2p {front : List RawRecord}
    (hnoted : ∀ r ∈ front, r.id ∈ p2pNoted) (hfront : front.length ≤ 8)
    {r₀ : RawRecord} {type : UInt8} {msgId : SmsTeleSvcMsgId} {kind : TeleserviceMsgType}
    {parameter : UInt8 → SubParameter} (hread : Reads decodeMessageId r₀.bits (type, msgId))
    (hid : r₀.id = 0x00) (hkind : messageKind false type = some (kind, parameter))
    {before after : List RawRecord} (hbefore : ∀ r ∈ before, r.id ≠ 0x00)
    (hn : (before ++ r₀ :: after).length ≤ 24)
    (hlen : (field 8 0 ++ (front.flatMap RawRecord.bits ++
      recordBits 0x08 ((before ++ r₀ :: after).flatMap RawRecord.bits))).length ≤ 2048) :
    ∃ pars subs start len,
      createTransportMessage .zero (bitCursor [] (field 8 0 ++ (front.flatMap RawRecord.bits ++
        recordBits 0x08 ((before ++ r₀ :: after).flatMap RawRecord.bits)))) =
        some ({ CdmaTransportMsg.zero with
            type := .p2p
            serviceCtg := 0x8001
            telesvcMsg := startOf kind .zero },
          pars ++ [⟨start, len, .bearerData (some subs)⟩]) ∧
      pars.map Scanned.parameter = front.map (fun r => notedParameter r.id) ∧
      subs.map Scanned.parameter = (before ++ r₀ :: after).map fun r => parameter r.id := by
  obtain ⟨n, hn'⟩ : ∃ n, 9 = front.length + (n + 1) := ⟨8 - front.length, by omega⟩
  have hmod := RawRecord.length_flatMap_bits_mod front
  have hfits : ∀ r ∈ front, r.Fits := by
    refine fun r hr => RawRecord.fits_of_mem hr ?_
    simp only [List.length_append] at hlen
    omega
  obtain ⟨pars, hscan, hpars⟩ := scanRecords_noted scanP2pParameter notedParameter front (n + 1)
    { CdmaTransportMsg.zero with type := .p2p, serviceCtg := 0x8001 } (field 8 0)
    (recordBits 0x08 ((before ++ r₀ :: after).flatMap RawRecord.bits))
    (fun r hr => scanP2pParameter_noted r.id (hnoted r hr)) hfits (by rw [length_field])
  obtain ⟨start, len, subs, hbearer, hsubs⟩ := scanRecords_bearerData scanP2pParameter false
    { CdmaTransportMsg.zero with type := .p2p, serviceCtg := 0x8001 } n
    (field 8 0 ++ front.flatMap RawRecord.bits) (fun b => rfl) hread hid hkind before after hbefore hn
    (by rw [List.length_append, length_field]; omega)
    (by
      simp only [List.length_append, length_field, length_recordBits] at hlen ⊢
      omega)
  refine ⟨pars, subs, start, len, ?_, hpars, hsubs⟩
  simp only [createTransportMessage, readByte_bitCursor, List.nil_append, Option.bind_eq_bind,
    Option.bind_some, if_true]
  rw [hn', hscan, hbearer]
  rfl

end TelephonySms.Cdma
