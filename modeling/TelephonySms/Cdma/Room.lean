import TelephonySms.Cdma.Transport

/-! # Room for what is written

How far a writer goes on does not depend on what is in the buffer. A writer of records
succeeds exactly when the buffer has the bits for it.
-/

namespace TelephonySms.Cdma

open TelephonySms.Pdu
open SmsPduBuffer

/-- The bits in front of the position. -/
def bitPosition (b : SmsPduBuffer) : Nat := 8 * b.index + b.bitIndex

/-- A writer that, started `k` bits into an octet, goes on by `n` bits when the buffer has
them, and fails when it has not. -/
def Spends (k n : Nat) (f : SmsPduBuffer → Option SmsPduBuffer) : Prop :=
  ∀ b : SmsPduBuffer, b.bitIndex = k % 8 → bitPosition b ≤ 8 * b.getSize →
    if bitPosition b + n ≤ 8 * b.getSize then
      ∃ b', f b = some b' ∧ bitPosition b' = bitPosition b + n ∧
        b'.bitIndex = (k + n) % 8 ∧ b'.getSize = b.getSize
    else f b = none

/-- The end of the octet that the position is in. -/
theorem skipBits_spec {b : SmsPduBuffer} (h : b.bitIndex < 8) :
    bitPosition b.skipBits = 8 * ((bitPosition b + 7) / 8) ∧ b.skipBits.bitIndex = 0 ∧
      b.skipBits.data = b.data := by
  unfold skipBits bitPosition
  split_ifs with hmore
  · exact ⟨by dsimp only; omega, rfl, rfl⟩
  · exact ⟨by omega, by omega, rfl⟩

namespace Spends

variable {k m n : Nat} {f g : SmsPduBuffer → Option SmsPduBuffer}

theorem run (h : Spends k n f) {b : SmsPduBuffer} (hb : b.bitIndex = k % 8)
    (hle : bitPosition b ≤ 8 * b.getSize) (hroom : bitPosition b + n ≤ 8 * b.getSize) :
    ∃ b', f b = some b' ∧ bitPosition b' = bitPosition b + n ∧ b'.bitIndex = (k + n) % 8 ∧
      b'.getSize = b.getSize := by
  have hf := h b hb hle
  rwa [if_pos hroom] at hf

theorem refused (h : Spends k n f) {b : SmsPduBuffer} (hb : b.bitIndex = k % 8)
    (hle : bitPosition b ≤ 8 * b.getSize) (hroom : 8 * b.getSize < bitPosition b + n) :
    f b = none := by
  have hf := h b hb hle
  rwa [if_neg (by omega)] at hf

theorem pure : Spends k 0 (fun b => some b) := by
  intro b hk hle
  rw [if_pos (by omega)]
  exact ⟨b, rfl, rfl, by simpa using hk, rfl⟩

theorem mono (h : Spends k n f) {k' n' : Nat} (hk : k' % 8 = k % 8) (hn : n' = n) :
    Spends k' n' f := by
  subst hn
  intro b hb hle
  have hf := h b (by omega) hle
  split_ifs at hf ⊢ with hroom
  · obtain ⟨b', hrun, hposition, hbits, hsize⟩ := hf
    exact ⟨b', hrun, hposition, by omega, hsize⟩
  · exact hf

theorem bind (hf : Spends k m f) (hg : Spends (k + m) n g) :
    Spends k (m + n) (fun b => f b >>= g) := by
  intro b hb hle
  dsimp only
  by_cases hm : bitPosition b + m ≤ 8 * b.getSize
  · obtain ⟨c, hc, hposition, hbits, hsize⟩ := hf.run hb hle hm
    have hrun : (f b >>= g) = g c := by
      rw [hc]
      rfl
    by_cases hn : bitPosition b + (m + n) ≤ 8 * b.getSize
    · obtain ⟨d, hd, hposition', hbits', hsize'⟩ := hg.run hbits (by omega) (by omega)
      rw [if_pos hn]
      exact ⟨d, by rw [hrun, hd], by omega, by omega, by omega⟩
    · rw [if_neg hn, hrun, hg.refused hbits (by omega) (by omega)]
  · rw [if_neg (by omega), hf.refused hb hle (by omega)]
    rfl

theorem bits {v : UInt8} {l : Nat} (hl : 0 < l) (hle : l ≤ 8) :
    Spends k l (fun b => b.writeBits v l) := by
  intro b hb hroom
  have hrange : ¬ (l = 0 ∨ l > 8) := by omega
  have hmod := Nat.mod_lt k (show 0 < 8 by omega)
  unfold bitPosition getSize at hroom
  simp only [writeBits, if_neg hrange, bitPosition, getSize]
  by_cases hfit : b.bitIndex + l ≤ 8
  · rw [if_pos hfit]
    by_cases hspace : 8 * b.index + b.bitIndex + l ≤ 8 * b.data.length
    · have hindex : b.index < b.data.length := by omega
      rw [if_pos hspace, List.getElem?_eq_getElem hindex]
      dsimp only
      by_cases hend : b.bitIndex + l = 8
      · rw [if_pos hend]
        exact ⟨_, rfl, by dsimp only; omega, by dsimp only; omega, by simp⟩
      · rw [if_neg hend]
        exact ⟨_, rfl, by dsimp only; omega, by dsimp only; omega, by simp⟩
    · rw [if_neg hspace, List.getElem?_eq_none (by omega)]
  · rw [if_neg hfit]
    by_cases hspace : 8 * b.index + b.bitIndex + l ≤ 8 * b.data.length
    · have hindex : b.index < b.data.length := by omega
      have hnext : b.index + 1 < b.data.length := by omega
      rw [if_pos hspace, List.getElem?_eq_getElem hindex, List.getElem?_eq_getElem hnext]
      exact ⟨_, rfl, by dsimp only; omega, by dsimp only; omega, by simp⟩
    · rw [if_neg hspace, List.getElem?_eq_none (show b.data.length ≤ b.index + 1 by omega)]
      split
      · next heq => cases heq
      · rfl

theorem octet (v : UInt8) : Spends k 8 (fun b => b.writeBits v 8) := bits (by omega) (by omega)

theorem byte (v : UInt8) : Spends k 8 (fun b => b.writeByte v) := by
  intro b hb hle
  by_cases hbits : b.bitIndex = 0
  · have hmod : k % 8 = 0 := by omega
    simp only [writeByte, hbits, ne_eq, not_true_eq_false, if_false, bitPosition, getSize]
    by_cases hindex : b.index < b.data.length
    · rw [if_pos (by omega), if_pos hindex]
      exact ⟨_, rfl, by dsimp only; omega, by dsimp only; omega, by simp⟩
    · rw [if_neg (by omega), if_neg hindex]
  · simp only [writeByte, if_pos hbits]
    exact octet v b hb hle

theorem skip {p : Nat} (h : p % 8 = k % 8) :
    Spends k ((8 - p % 8) % 8) (fun b => some b.skipBits) := by
  intro b hb hle
  obtain ⟨hposition, hbits, hdata⟩ := skipBits_spec (b := b) (by omega)
  unfold bitPosition at hle hposition
  rw [if_pos (by unfold bitPosition; omega)]
  refine ⟨b.skipBits, rfl, ?_, by omega, by rw [getSize, hdata, getSize]⟩
  unfold bitPosition
  omega

theorem word (v : UInt16) (hk : k % 8 = 0) : Spends k 16 (fun b => b.writeWord v) := by
  intro b hb hle
  have hbits : b.bitIndex = 0 := by omega
  simp only [writeWord, hbits, bitPosition, getSize]
  by_cases hindex : b.index + 1 < b.data.length
  · rw [if_pos (by omega), if_pos ⟨hindex, trivial⟩]
    exact ⟨_, rfl, by dsimp only; omega, by dsimp only; omega, by simp⟩
  · rw [if_neg (by omega), if_neg (by omega)]

theorem bool (v : Bool) : Spends k 1 (writeBool v) := bits (by omega) (by omega)

theorem ifField {c : Bool} {v : UInt8} {l : Nat} (hl : 0 < l) (hle : l ≤ 8) :
    Spends k (if c then l else 0) (writeIf c v l) := by
  unfold writeIf
  cases c with
  | true => exact bits hl hle
  | false => exact pure

theorem each {l : Nat} (hl : 0 < l) (hle : l ≤ 8) (vs : List UInt8) :
    Spends k (l * vs.length) (writeEach l vs) := by
  induction vs generalizing k with
  | nil => exact pure
  | cons v vs ih =>
      exact ((bits hl hle).bind ih).mono rfl (by simp [Nat.mul_add, Nat.add_comm])

theorem idLen (id len : UInt8) : Spends k 16 (writeIdLen id len) := (byte id).bind (byte len)

/-- A record that inserts its length: a body that writes something does not get round a
missing length octet. -/
theorem record {id : UInt8} {body : SmsPduBuffer → Option SmsPduBuffer} (hk : k % 8 = 0)
    (hn : 0 < n) (h : Spends 0 n body) :
    Spends k (16 + 8 * ((n + 7) / 8)) (writeRecord id body) := by
  intro b hb hle
  unfold writeRecord
  by_cases hfirst : bitPosition b + 8 ≤ 8 * b.getSize
  · obtain ⟨c, hc, hposition, hbits, hsize⟩ := (byte id).run hb hle hfirst
    rw [hc, Option.bind_eq_bind, Option.bind_some]
    have hindex : bitPosition c = 8 * c.index := by
      unfold bitPosition
      omega
    by_cases hlength : c.index + 1 ≤ c.getSize
    · obtain ⟨moved, hmoved⟩ : ∃ moved, c.moveForward 1 = moved := ⟨_, rfl⟩
      have hmove : bitPosition moved = bitPosition c + 8 ∧ moved.bitIndex = 0 ∧
          moved.getSize = c.getSize := by
        rw [← hmoved, moveForward, if_neg (by omega), if_neg (by omega)]
        refine ⟨?_, by dsimp only; omega, rfl⟩
        unfold bitPosition
        dsimp only
        omega
      obtain ⟨hmovedPosition, hmovedBits, hmovedSize⟩ := hmove
      rw [hmoved]
      by_cases hroom : bitPosition moved + n ≤ 8 * moved.getSize
      · obtain ⟨d, hd, hposition', hbits', hsize'⟩ := h.run hmovedBits (by omega) hroom
        obtain ⟨hskipPosition, hskipBits, hskipData⟩ := skipBits_spec (b := d) (by omega)
        have hskipSize : d.skipBits.getSize = d.getSize := by rw [getSize, hskipData, getSize]
        have hinsert : c.index < d.skipBits.getSize ∧ d.skipBits.bitIndex = 0 :=
          ⟨by omega, hskipBits⟩
        rw [hd, Option.bind_some, if_pos (by omega)]
        simp only [insertLen, insertByte, if_pos hinsert]
        refine ⟨_, rfl, ?_, ?_, ?_⟩
        · unfold bitPosition at hskipPosition ⊢
          dsimp only
          unfold bitPosition at *
          omega
        · dsimp only
          omega
        · rw [getSize, List.length_set, ← getSize]
          omega
      · rw [if_neg (by omega), h.refused hmovedBits (by omega) (by omega)]
        rfl
    · have hstay : c.moveForward 1 = c := by
        rw [moveForward, if_neg (by omega), if_pos (by omega)]
      rw [if_neg (by omega), hstay, h.refused (by omega) (by omega) (by omega)]
      rfl
  · rw [if_neg (by omega), (byte id).refused hb hle (by omega)]
    rfl

/-- A record of a length that the writer knows. -/
theorem fixed {id len : UInt8} {body : SmsPduBuffer → Option SmsPduBuffer} (hk : k % 8 = 0)
    (h : Spends 0 n body) : Spends k (16 + n) (fun b => writeIdLen id len b >>= body) :=
  (idLen id len).bind (h.mono (by omega) rfl)

theorem number {digitMode : Bool} {szData : List UInt8} (h : szData.length ≤ 255) :
    Spends k ((if digitMode then 8 else 4) * szData.length) (writeNumber digitMode szData) := by
  unfold writeNumber
  simp only [if_neg (Nat.not_lt.mpr h)]
  cases digitMode with
  | true => exact each (l := 8) (by omega) (by omega) szData
  | false => exact (each (l := 4) (by omega) (by omega) _).mono rfl (by simp)

/-! ## Sub-parameters -/

theorem messageId (type : UInt8) (msgId : SmsTeleSvcMsgId) :
    Spends 0 40 (encodeMessageId type msgId) :=
  (fixed rfl <| (bits (by omega) (by omega)).bind <| (octet _).bind <| (octet _).bind <|
    (bool _).bind (skip (p := 21) rfl)).mono rfl rfl

theorem twoBits (id v : UInt8) : Spends 0 24 (encodeTwoBits id v) :=
  (fixed rfl <| (bits (by omega) (by omega)).bind (skip (p := 2) rfl)).mono rfl rfl

theorem replyOption (replyOpt : SmsReplyOption) : Spends 0 24 (encodeReplyOption replyOpt) :=
  (fixed rfl <| (bool _).bind <| (bool _).bind <| (bool _).bind <| (bool _).bind
    (skip (p := 4) rfl)).mono rfl rfl

/-- Octets as user data, without a header. -/
theorem octetData {data : SmsTeleSvcUserData} (hcoding : data.encodeType = .octet)
    (hlength : data.userData.data.length ≤ 161) :
    Spends 0 (8 * (data.userData.data.length + 4)) (encodeUserData data) := by
  unfold encodeUserData
  refine (record (n := 5 + (0 + (8 + 8 * data.userData.data.length))) rfl (by omega) ?_).mono rfl
    (by omega)
  simp only [hcoding]
  refine (bits (by omega) (by omega)).bind (bind (m := 0) ?_ ?_)
  · exact pure
  · simp only [encode8BitData, if_neg (Nat.not_lt.mpr hlength)]
    exact (octet _).bind (each (by omega) (by omega) _)

theorem encodeParameters {msg : CdmaTeleserviceMsg} {size : SubParameter → Nat}
    {pars : List SubParameter}
    (h : ∀ par ∈ pars, size par % 8 = 0 ∧ Spends 0 (size par) (par.encode msg)) :
    Spends 0 (pars.map size).sum (Cdma.encodeParameters msg pars) := by
  induction pars with
  | nil => exact pure
  | cons par pars ih =>
      obtain ⟨haligned, hpar⟩ := h par List.mem_cons_self
      have hrest := ih fun q hq => h q (List.mem_cons_of_mem par hq)
      rw [List.map_cons, List.sum_cons]
      exact hpar.bind (hrest.mono (by omega) rfl)

/-! ## Parameter records -/

theorem wordRecord (id : UInt8) (v : UInt16) : Spends 0 32 (encodeWord id v) :=
  (fixed rfl (word v rfl)).mono rfl rfl

theorem bearerReply (replySeq : UInt8) : Spends 0 24 (encodeBearerReply replySeq) :=
  (fixed rfl <| (bits (by omega) (by omega)).bind (skip (p := 6) rfl)).mono rfl rfl

/-- The bits of an address behind its length octet. -/
def addressRoom (digitMode numberMode : Bool) (addrLen : Nat) : Nat :=
  10 + (if digitMode then 3 else 0) + (if digitMode && !numberMode then 4 else 0) +
    (if digitMode then 8 else 4) * addrLen

theorem address (id : UInt8) {addr : TransportAddr} (h : addr.szData.length ≤ 255) :
    Spends 0 (16 + 8 * ((addressRoom addr.digitMode addr.numberMode addr.szData.length + 7) / 8))
      (encodeAddressParameter id addr) := by
  unfold encodeAddressParameter
  refine record rfl (by unfold addressRoom; omega) ?_
  have hchars {k : Nat} : Spends k
      (8 + (if addr.digitMode then 8 else 4) * addr.szData.length) (encodeAddress addr) := by
    unfold encodeAddress
    refine (octet _).bind ?_
    simp only [if_neg (show ¬ addr.szData.length > 257 by omega)]
    exact number h
  refine ((bool addr.digitMode).bind <| (bool addr.numberMode).bind <|
    (ifField (by omega) (by omega)).bind <|
      (ifField (c := addr.digitMode && !addr.numberMode) (by omega) (by omega)).bind
        hchars).mono rfl ?_
  unfold addressRoom
  omega

/-- Bearer data that ends with an octet inserts its length as a record does. -/
theorem bearerData {msg : CdmaTeleserviceMsg} {pars : List SubParameter}
    (hpars : teleserviceParameters msg = some pars) (hn : 0 < n) (haligned : n % 8 = 0)
    (h : Spends 0 n (Cdma.encodeParameters msg pars)) :
    Spends 0 (16 + n) (encodeBearerData msg) := by
  intro b hb hle
  have hrecord : encodeBearerData msg b = writeRecord 0x08 (Cdma.encodeParameters msg pars) b := by
    unfold encodeBearerData writeRecord
    rw [hpars, Option.bind_eq_bind, Option.bind_some]
    refine Option.bind_congr fun c hc => ?_
    obtain ⟨hbits, hsize, hposition⟩ : c.bitIndex = 0 ∧ c.getSize = b.getSize ∧
        bitPosition c ≤ 8 * b.getSize := by
      by_cases hroom : bitPosition b + 8 ≤ 8 * b.getSize
      · obtain ⟨c', hc', hposition, hbits, hsize⟩ := (byte 0x08).run hb hle hroom
        obtain rfl : c' = c := Option.some.inj (hc'.symm.trans hc)
        exact ⟨hbits, hsize, by omega⟩
      · rw [(byte 0x08).refused hb hle (by omega)] at hc
        cases hc
    dsimp only
    refine Option.bind_congr fun d hd => ?_
    have hmoved : (c.moveForward 1).bitIndex = 0 ∧
        bitPosition (c.moveForward 1) ≤ 8 * (c.moveForward 1).getSize := by
      unfold bitPosition at hposition ⊢
      unfold moveForward
      rw [if_neg (by omega)]
      split
      · exact ⟨hbits, by omega⟩
      · exact ⟨hbits, by unfold getSize at *; dsimp only; omega⟩
    by_cases hroom : bitPosition (c.moveForward 1) + n ≤ 8 * (c.moveForward 1).getSize
    · obtain ⟨d', hd', -, hbits', -⟩ := h.run hmoved.1 hmoved.2 hroom
      obtain rfl : d' = d := Option.some.inj (hd'.symm.trans hd)
      rw [insertLen, skipBits, if_neg (by omega)]
    · rw [h.refused hmoved.1 hmoved.2 (by omega)] at hd
      cases hd
  have hspends : Spends 0 (16 + n) (writeRecord 0x08 (Cdma.encodeParameters msg pars)) :=
    (record rfl hn h).mono rfl (by omega)
  rw [hrecord]
  exact hspends b hb hle

theorem encodeRecords {msg : CdmaTransportMsg} {size : ParameterRecord → Nat}
    {pars : List ParameterRecord}
    (h : ∀ par ∈ pars, size par % 8 = 0 ∧ Spends 0 (size par) (par.encode msg)) :
    Spends 0 (pars.map size).sum (Cdma.encodeRecords msg pars) := by
  induction pars with
  | nil => exact pure
  | cons par pars ih =>
      obtain ⟨haligned, hpar⟩ := h par List.mem_cons_self
      have hrest := ih fun q hq => h q (List.mem_cons_of_mem par hq)
      rw [List.map_cons, List.sum_cons]
      exact hpar.bind (hrest.mono (by omega) rfl)

end Spends

/-- A message whose writer spends octets is encoded when they are fewer than the buffer has. -/
theorem getPduBuffer_eq_none_iff {f : SmsPduBuffer → Option SmsPduBuffer} {octets : Nat}
    (h : Spends 0 (8 * octets) f) (hpos : 0 < octets) :
    (f new).bind getPduBuffer = none ↔ 255 < octets := by
  have hnew : new.bitIndex = 0 ∧ bitPosition new = 0 ∧ new.getSize = 256 :=
    ⟨rfl, rfl, List.length_replicate⟩
  obtain ⟨hbits, hposition, hsize⟩ := hnew
  by_cases hroom : octets ≤ 256
  · obtain ⟨b, hb, hposition', hbits', hsize'⟩ := h.run hbits (by omega) (by omega)
    unfold bitPosition at hposition' hposition
    rw [hb, Option.bind_some, getPduBuffer]
    have hdata : b.data ≠ [] := by
      intro hnil
      rw [getSize, hnil, hsize] at hsize'
      cases hsize'
    rw [if_neg (by simp [hdata]; omega), if_neg (by omega)]
    split
    · simp; omega
    · simp; omega
  · rw [h.refused hbits (by omega) (by omega)]
    simp
    omega

end TelephonySms.Cdma
