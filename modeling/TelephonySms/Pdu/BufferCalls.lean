import TelephonySms.Action
import TelephonySms.Pdu.BitCursor

/-! # Calls on a PDU buffer

The methods of `SmsPduBuffer`, `SmsReadBuffer` and `SmsWriteBuffer` statement by statement,
with what they check before they change the buffer. On a buffer whose position is in place
they are the operations of the buffer, keep the position in place, and change nothing when
they fail.
-/

namespace TelephonySms.Pdu

open Action

abbrev PduCall := Action SmsPduBuffer

namespace PduCall

def setIndex (index : Nat) : PduCall Unit := do
  let b ← get
  guard (b.bitIndex = 0)
  guard (index ≤ b.getSize)
  modify fun b => { b with index := index }

/-- `MoveForward` returns the index it had, also when it cannot move. -/
def moveForward (len : Nat) : PduCall Nat := do
  let b ← get
  guard (b.bitIndex = 0)
  guard (b.index + len ≤ b.getSize)
  modify fun b => { b with index := b.index + len }
  pure b.index

def moveBack (len : Nat) : PduCall Nat := do
  let b ← get
  guard (b.bitIndex = 0)
  guard (len ≤ b.index)
  modify fun b => { b with index := b.index - len }
  pure b.index

def skipBits : PduCall Nat := do
  let b ← get
  if b.bitIndex > 0 then do
    modify fun b => { b with index := b.index + 1 }
    modify fun b => { b with bitIndex := 0 }
    pure (b.index + 1)
  else
    pure b.index

def getPduBuffer : PduCall (List UInt8) := do
  let b ← get
  guard (b.data ≠ [] ∧ b.index ≠ 0)
  guard (b.bitIndex = 0)
  guard (b.index < b.getSize)
  pure (b.data.take b.index)

/-! ## Reading -/

def readBits (l : Nat) : PduCall UInt8 := do
  let b ← get
  guard (b.data ≠ [])
  guard (0 < l ∧ l ≤ 8)
  if b.bitIndex + l ≤ 8 then do
    guard (b.index ≠ b.getSize)
    let v := b.data.getD b.index 0 <<< UInt8.ofNat b.bitIndex
    modify fun b => { b with bitIndex := b.bitIndex + l }
    modify fun b => if b.bitIndex = 8 then { b with bitIndex := 0, index := b.index + 1 } else b
    pure (v >>> UInt8.ofNat (8 - l))
  else do
    guard (b.index ≠ b.getSize - 1)
    let v := b.data.getD b.index 0 <<< UInt8.ofNat b.bitIndex
    modify fun b => { b with index := b.index + 1 }
    modify fun b => { b with bitIndex := l + b.bitIndex - 8 }
    let b ← get
    pure (v >>> UInt8.ofNat (8 - l) ||| b.data.getD b.index 0 >>> UInt8.ofNat (8 - b.bitIndex))

def readByte : PduCall UInt8 := do
  let b ← get
  guard (b.data ≠ [])
  if b.bitIndex ≠ 0 then
    readBits 8
  else do
    guard (b.index ≠ b.getSize)
    modify fun b => { b with index := b.index + 1 }
    pure (b.data.getD b.index 0)

def readWord : PduCall UInt16 := do
  let b ← get
  guard (b.data ≠ [] ∧ b.index < b.getSize - 1 ∧ b.bitIndex = 0)
  modify fun b => { b with index := b.index + 1 }
  let high := (b.data.getD b.index 0).toUInt16
  modify fun b => { b with index := b.index + 1 }
  pure (high <<< 8 ||| (b.data.getD (b.index + 1) 0).toUInt16)

def pickOneByteFromIndex (index : Nat) : PduCall UInt8 := do
  let b ← get
  guard (b.data ≠ [] ∧ index < b.getSize)
  pure (b.data.getD index 0)

def pickOneByte : PduCall UInt8 := do
  let b ← get
  pickOneByteFromIndex b.index

/-! ## Writing -/

/-- `data_[index] |= v` -/
def orAt (index : Nat) (v : UInt8) : PduCall Unit :=
  modify fun b => { b with data := b.data.set index (b.data.getD index 0 ||| v) }

def writeBits (v : UInt8) (l : Nat) : PduCall Unit := do
  let b ← get
  guard (b.data ≠ [])
  guard (0 < l ∧ l ≤ 8)
  if b.bitIndex + l ≤ 8 then do
    guard (b.index ≠ b.getSize)
    orAt b.index (v <<< UInt8.ofNat (8 - b.bitIndex - l))
    modify fun b => { b with bitIndex := b.bitIndex + l }
    modify fun b => if b.bitIndex = 8 then { b with bitIndex := 0, index := b.index + 1 } else b
  else do
    guard (b.index ≠ b.getSize - 1)
    orAt b.index (v >>> UInt8.ofNat (l + b.bitIndex - 8))
    modify fun b => { b with index := b.index + 1 }
    modify fun b => { b with bitIndex := l + b.bitIndex - 8 }
    orAt (b.index + 1) (v <<< UInt8.ofNat (8 - (l + b.bitIndex - 8)))

def writeByte (v : UInt8) : PduCall Unit := do
  let b ← get
  if b.bitIndex ≠ 0 then
    writeBits v 8
  else do
    guard (b.data ≠ [] ∧ b.index < b.getSize)
    modify fun b => { b with data := b.data.set b.index v, index := b.index + 1 }

def writeWord (v : UInt16) : PduCall Unit := do
  let b ← get
  guard (b.data ≠ [] ∧ b.index < b.getSize - 1 ∧ b.bitIndex = 0)
  modify fun b =>
    { b with data := b.data.set b.index ((0xFF00 &&& v) >>> 8).toUInt8, index := b.index + 1 }
  modify fun b =>
    { b with data := b.data.set b.index (0x00FF &&& v).toUInt8, index := b.index + 1 }

def insertByte (v : UInt8) (index : Nat) : PduCall Unit := do
  let b ← get
  guard (b.data ≠ [] ∧ index < b.getSize ∧ b.bitIndex = 0)
  modify fun b => { b with data := b.data.set index v }

def getValueFromIndex (index : Nat) : PduCall UInt8 := do
  let b ← get
  guard (b.data ≠ [] ∧ b.getSize ≠ 0 ∧ index < b.getSize)
  pure (b.data.getD index 0)

def getTopValue : PduCall UInt8 := do
  let b ← get
  getValueFromIndex b.index

end PduCall

namespace SmsPduBuffer

/-- The position is in the buffer. Inside an octet there is an octet. -/
structure Placed (b : SmsPduBuffer) : Prop where
  index_le : b.index ≤ b.getSize
  bitIndex_lt : b.bitIndex < 8
  inside : 0 < b.bitIndex → b.index < b.getSize

def bitPosition (b : SmsPduBuffer) : Nat := 8 * b.index + b.bitIndex

theorem placed_iff (b : SmsPduBuffer) :
    b.Placed ↔ b.bitIndex < 8 ∧ b.bitPosition ≤ 8 * b.getSize := by
  unfold bitPosition
  constructor
  · intro h
    have hindex := h.index_le
    have hbits := h.bitIndex_lt
    have hinside := h.inside
    exact ⟨hbits, by omega⟩
  · intro h
    exact ⟨by omega, h.1, by omega⟩

theorem lt_getSize {b : SmsPduBuffer} {i : Nat} {o : UInt8} (h : b.data[i]? = some o) :
    i < b.getSize := (List.getElem?_eq_some_iff.1 h).1

/-- Reading moves on by the bits that it returns. -/
theorem readBits_eq_some {b b' : SmsPduBuffer} {l : Nat} {v : UInt8} (hb : b.Placed)
    (h : b.readBits l = some (v, b')) :
    b'.data = b.data ∧ b'.bitPosition = b.bitPosition + l ∧ b'.bitIndex < 8 ∧
      b'.bitPosition ≤ 8 * b.getSize := by
  have hbits := hb.bitIndex_lt
  unfold readBits at h
  unfold bitPosition
  split at h
  · cases h
  · split at h
    · split at h
      · cases h
      · next octet hoctet =>
          have hlt := lt_getSize hoctet
          split at h
          · cases h
            refine ⟨rfl, ?_, ?_, ?_⟩ <;> dsimp only <;> omega
          · cases h
            refine ⟨rfl, ?_, ?_, ?_⟩ <;> dsimp only <;> omega
    · split at h
      · next octet next hoctet hnext =>
          have hlt := lt_getSize hnext
          cases h
          refine ⟨rfl, ?_, ?_, ?_⟩ <;> dsimp only <;> omega
      · cases h

theorem writeBits_eq_some {b b' : SmsPduBuffer} {l : Nat} {v : UInt8} (hb : b.Placed)
    (h : b.writeBits v l = some b') :
    b'.getSize = b.getSize ∧ b'.bitPosition = b.bitPosition + l ∧ b'.bitIndex < 8 ∧
      b'.bitPosition ≤ 8 * b.getSize := by
  have hbits := hb.bitIndex_lt
  unfold writeBits at h
  unfold bitPosition
  split at h
  · cases h
  · split at h
    · split at h
      · cases h
      · next octet hoctet =>
          have hlt := lt_getSize hoctet
          split at h
          · cases h
            refine ⟨by simp [getSize], ?_, ?_, ?_⟩ <;> dsimp only <;> omega
          · cases h
            refine ⟨by simp [getSize], ?_, ?_, ?_⟩ <;> dsimp only <;> omega
    · split at h
      · next octet next hoctet hnext =>
          have hlt := lt_getSize hnext
          cases h
          refine ⟨by simp [getSize], ?_, ?_, ?_⟩ <;> dsimp only <;> omega
      · cases h

end SmsPduBuffer

open SmsPduBuffer

namespace PduCall

variable {α : Type}

theorem guard_bind (p : Prop) [Decidable p] (f : Unit → PduCall α) (b : SmsPduBuffer) :
    (guard p >>= f) b = if p then f () b else (none, b) := by
  split
  · next h => rw [guard_of h, pure_bind_run]
  · next h => rw [guard_of_not h, fail_bind_run]

theorem modify_bind (g : SmsPduBuffer → SmsPduBuffer) (f : Unit → PduCall α) (b : SmsPduBuffer) :
    (modify g >>= f) b = f () (g b) := rfl

/-- On a buffer whose position is in place the call is an operation of the buffer, and it
changes nothing when the operation fails. -/
def Performs (call : PduCall α) (f : SmsPduBuffer → Option (α × SmsPduBuffer)) : Prop :=
  ∀ b, b.Placed → call b = (f b).elim (none, b) fun r => (some r.1, r.2)

theorem getElem?_eq_some {b : SmsPduBuffer} {i : Nat} (h : i < b.getSize) :
    b.data[i]? = some (b.data.getD i 0) := by
  rw [List.getD_eq_getElem?_getD, List.getElem?_eq_getElem h]
  rfl

theorem getElem?_eq_none {b : SmsPduBuffer} {i : Nat} (h : b.getSize ≤ i) : b.data[i]? = none :=
  List.getElem?_eq_none h

theorem ne_nil_of_lt {b : SmsPduBuffer} {i : Nat} (h : i < b.getSize) : b.data ≠ [] :=
  List.length_pos_iff.1 (Nat.lt_of_le_of_lt (Nat.zero_le i) h)

theorem readBits_performs (l : Nat) : Performs (readBits l) fun b => b.readBits l := by
  intro b hb
  have hindex := hb.index_le
  have hinside := hb.inside
  by_cases hl : 0 < l ∧ l ≤ 8
  · have hrange : ¬ (l = 0 ∨ l > 8) := by omega
    by_cases hfit : b.bitIndex + l ≤ 8
    · by_cases hlt : b.index < b.getSize
      · simp only [SmsPduBuffer.readBits, if_neg hrange, if_pos hfit, getElem?_eq_some hlt]
        simp [readBits, guard_bind, modify_bind, hl, hfit, ne_nil_of_lt hlt, Nat.ne_of_lt hlt]
        split <;> simp
      · have heq : b.index = b.getSize := by omega
        simp only [SmsPduBuffer.readBits, if_neg hrange, if_pos hfit, getElem?_eq_none heq.ge]
        simp [readBits, guard_bind, hl, hfit, heq]
    · have hlt : b.index < b.getSize := hinside (by omega)
      by_cases hnext : b.index + 1 < b.getSize
      · have hne : b.index ≠ b.getSize - 1 := by omega
        simp only [SmsPduBuffer.readBits, if_neg hrange, if_neg hfit, getElem?_eq_some hlt,
          getElem?_eq_some hnext]
        simp [readBits, guard_bind, modify_bind, hl, hfit, ne_nil_of_lt hlt, hne]
      · have heq : b.index = b.getSize - 1 := by omega
        simp only [SmsPduBuffer.readBits, if_neg hrange, if_neg hfit, getElem?_eq_some hlt,
          getElem?_eq_none (Nat.le_of_not_lt hnext)]
        simp [readBits, guard_bind, hl, hfit, ne_nil_of_lt hlt, heq]
  · have hrange : l = 0 ∨ l > 8 := by omega
    simp [readBits, SmsPduBuffer.readBits, guard_bind, hl, hrange]

theorem readByte_performs : Performs readByte fun b => b.readByte := by
  intro b hb
  have hindex := hb.index_le
  by_cases hbits : b.bitIndex = 0
  · by_cases hlt : b.index < b.getSize
    · simp only [SmsPduBuffer.readByte, hbits, getElem?_eq_some hlt]
      simp [readByte, guard_bind, modify_bind, hbits, ne_nil_of_lt hlt, Nat.ne_of_lt hlt]
    · have heq : b.index = b.getSize := by omega
      simp only [SmsPduBuffer.readByte, hbits, getElem?_eq_none heq.ge]
      simp [readByte, guard_bind, hbits, heq]
  · have hne : b.data ≠ [] := ne_nil_of_lt (hb.inside (Nat.pos_of_ne_zero hbits))
    have hrun := readBits_performs 8 b hb
    simp only [SmsPduBuffer.readByte, if_pos hbits, ← hrun]
    simp [readByte, guard_bind, hbits, hne]

theorem readWord_performs : Performs readWord fun b => b.readWord := by
  intro b hb
  by_cases hroom : b.index + 1 < b.getSize ∧ b.bitIndex = 0
  · have hlt : b.index < b.getSize := Nat.lt_of_succ_lt hroom.1
    have hless : b.index < b.getSize - 1 := by omega
    simp only [SmsPduBuffer.readWord, if_pos hroom, getElem?_eq_some hlt,
      getElem?_eq_some hroom.1]
    simp [readWord, guard_bind, modify_bind, hroom.2, ne_nil_of_lt hlt, hless]
  · have hnot : ¬ (b.data ≠ [] ∧ b.index < b.getSize - 1 ∧ b.bitIndex = 0) := by
      intro hall
      exact hroom ⟨by omega, hall.2.2⟩
    simp only [SmsPduBuffer.readWord, if_neg hroom]
    simp only [readWord, get_bind, guard_bind, if_neg hnot]
    rfl

theorem pickOneByteFromIndex_performs (index : Nat) :
    Performs (pickOneByteFromIndex index) fun b => (b.pickOneByteFromIndex index).map (·, b) := by
  intro b hb
  by_cases hlt : index < b.getSize
  · simp only [SmsPduBuffer.pickOneByteFromIndex, getElem?_eq_some hlt]
    simp [pickOneByteFromIndex, guard_bind, hlt, ne_nil_of_lt hlt]
  · simp only [SmsPduBuffer.pickOneByteFromIndex, getElem?_eq_none (Nat.le_of_not_lt hlt)]
    simp [pickOneByteFromIndex, guard_bind, hlt]

theorem pickOneByte_performs : Performs pickOneByte fun b => b.pickOneByte.map (·, b) :=
  fun b hb => pickOneByteFromIndex_performs b.index b hb

theorem getValueFromIndex_performs (index : Nat) :
    Performs (getValueFromIndex index) fun b => (b.getValueFromIndex index).map (·, b) := by
  intro b hb
  by_cases hlt : index < b.getSize
  · have hpos : b.getSize ≠ 0 := Nat.ne_of_gt (Nat.lt_of_le_of_lt (Nat.zero_le _) hlt)
    simp only [SmsPduBuffer.getValueFromIndex, getElem?_eq_some hlt]
    simp [getValueFromIndex, guard_bind, hlt, hpos, ne_nil_of_lt hlt]
  · simp only [SmsPduBuffer.getValueFromIndex, getElem?_eq_none (Nat.le_of_not_lt hlt)]
    simp [getValueFromIndex, guard_bind, hlt]

theorem getTopValue_performs : Performs getTopValue fun b => b.getTopValue.map (·, b) :=
  fun b hb => getValueFromIndex_performs b.index b hb

theorem setIndex_performs (index : Nat) :
    Performs (setIndex index) fun b =>
      if b.bitIndex = 0 ∧ index ≤ b.getSize then some ((), b.setIndex index) else none := by
  intro b hb
  by_cases hbits : b.bitIndex = 0 <;> by_cases hle : index ≤ b.getSize <;>
    simp [setIndex, SmsPduBuffer.setIndex, guard_bind, hbits, hle]

theorem moveForward_performs (len : Nat) :
    Performs (moveForward len) fun b =>
      if b.bitIndex = 0 ∧ b.index + len ≤ b.getSize then some (b.index, b.moveForward len)
      else none := by
  intro b hb
  by_cases hbits : b.bitIndex = 0 <;> by_cases hle : b.index + len ≤ b.getSize <;>
    simp [moveForward, SmsPduBuffer.moveForward, guard_bind, modify_bind, hbits, hle]

theorem moveBack_performs (len : Nat) :
    Performs (moveBack len) fun b =>
      if b.bitIndex = 0 ∧ len ≤ b.index then some (b.index, b.moveBack len) else none := by
  intro b hb
  by_cases hbits : b.bitIndex = 0 <;> by_cases hle : len ≤ b.index <;>
    simp [moveBack, SmsPduBuffer.moveBack, guard_bind, modify_bind, hbits, hle]

theorem skipBits_performs :
    Performs skipBits fun b => some (b.skipBits.index, b.skipBits) := by
  intro b hb
  by_cases hbits : b.bitIndex = 0 <;>
    simp [skipBits, SmsPduBuffer.skipBits, modify_bind, hbits, Nat.pos_iff_ne_zero]

theorem getPduBuffer_performs : Performs getPduBuffer fun b => b.getPduBuffer.map (·, b) := by
  intro b hb
  simp only [getPduBuffer, SmsPduBuffer.getPduBuffer, get_bind, guard_bind]
  by_cases hempty : b.data = [] ∨ b.index = 0
  · have hnot : ¬ (b.data ≠ [] ∧ b.index ≠ 0) := by
      rw [not_and_or, not_not, not_not]
      exact hempty
    rw [if_pos hempty, if_neg hnot]
    rfl
  · rw [if_neg hempty, if_pos (not_or.1 hempty)]
    by_cases hbits : b.bitIndex = 0
    · by_cases hlt : b.index < b.getSize
      · simp [hbits, hlt, Nat.not_le_of_lt hlt]
      · simp [hbits, hlt, Nat.le_of_not_lt hlt]
    · simp [hbits]

theorem writeBits_performs (v : UInt8) (l : Nat) :
    Performs (writeBits v l) fun b => (b.writeBits v l).map ((), ·) := by
  intro b hb
  have hindex := hb.index_le
  have hinside := hb.inside
  by_cases hl : 0 < l ∧ l ≤ 8
  · have hrange : ¬ (l = 0 ∨ l > 8) := by omega
    by_cases hfit : b.bitIndex + l ≤ 8
    · by_cases hlt : b.index < b.getSize
      · simp only [SmsPduBuffer.writeBits, if_neg hrange, if_pos hfit, getElem?_eq_some hlt]
        simp [writeBits, orAt, guard_bind, modify_bind, hl, hfit, ne_nil_of_lt hlt,
          Nat.ne_of_lt hlt]
        split <;> simp
      · have heq : b.index = b.getSize := by omega
        simp only [SmsPduBuffer.writeBits, if_neg hrange, if_pos hfit, getElem?_eq_none heq.ge]
        simp [writeBits, guard_bind, hl, hfit, heq]
    · have hlt : b.index < b.getSize := hinside (by omega)
      by_cases hnext : b.index + 1 < b.getSize
      · have hne : b.index ≠ b.getSize - 1 := by omega
        simp only [SmsPduBuffer.writeBits, if_neg hrange, if_neg hfit, getElem?_eq_some hlt,
          getElem?_eq_some hnext]
        simp [writeBits, orAt, guard_bind, modify_bind, hl, hfit, ne_nil_of_lt hlt, hne]
      · have heq : b.index = b.getSize - 1 := by omega
        simp only [SmsPduBuffer.writeBits, if_neg hrange, if_neg hfit, getElem?_eq_some hlt,
          getElem?_eq_none (Nat.le_of_not_lt hnext)]
        simp [writeBits, guard_bind, hl, hfit, ne_nil_of_lt hlt, heq]
  · have hrange : l = 0 ∨ l > 8 := by omega
    simp [writeBits, SmsPduBuffer.writeBits, guard_bind, hl, hrange]

theorem writeByte_performs (v : UInt8) :
    Performs (writeByte v) fun b => (b.writeByte v).map ((), ·) := by
  intro b hb
  by_cases hbits : b.bitIndex = 0
  · by_cases hlt : b.index < b.getSize
    · simp [writeByte, SmsPduBuffer.writeByte, guard_bind, hbits, hlt, ne_nil_of_lt hlt]
    · simp [writeByte, SmsPduBuffer.writeByte, guard_bind, hbits, hlt]
  · have hrun := writeBits_performs v 8 b hb
    simp only [SmsPduBuffer.writeByte, if_pos hbits, ← hrun]
    simp [writeByte, hbits]

theorem writeWord_performs (v : UInt16) :
    Performs (writeWord v) fun b => (b.writeWord v).map ((), ·) := by
  intro b hb
  by_cases hroom : b.index + 1 < b.getSize ∧ b.bitIndex = 0
  · have hlt : b.index < b.getSize := Nat.lt_of_succ_lt hroom.1
    have hless : b.index < b.getSize - 1 := by omega
    simp only [SmsPduBuffer.writeWord, if_pos hroom]
    simp [writeWord, guard_bind, modify_bind, hroom.2, ne_nil_of_lt hlt, hless]
  · have hnot : ¬ (b.data ≠ [] ∧ b.index < b.getSize - 1 ∧ b.bitIndex = 0) := by
      intro hall
      exact hroom ⟨by omega, hall.2.2⟩
    simp only [SmsPduBuffer.writeWord, if_neg hroom]
    simp only [writeWord, get_bind, guard_bind, if_neg hnot]
    rfl

theorem insertByte_performs (v : UInt8) (index : Nat) :
    Performs (insertByte v index) fun b => (b.insertByte v index).map ((), ·) := by
  intro b hb
  by_cases hroom : index < b.getSize ∧ b.bitIndex = 0
  · simp [insertByte, SmsPduBuffer.insertByte, guard_bind, hroom, ne_nil_of_lt hroom.1]
  · have hnot : ¬ (b.data ≠ [] ∧ index < b.getSize ∧ b.bitIndex = 0) := fun hall => hroom hall.2
    simp only [SmsPduBuffer.insertByte, if_neg hroom]
    simp only [insertByte, get_bind, guard_bind, if_neg hnot]
    rfl

/-! ## The position stays in place -/

/-- The call keeps a position that is in place, and changes nothing when it fails. -/
structure Keeps (call : PduCall α) : Prop where
  placed : ∀ b, b.Placed → (call b).2.Placed
  unchanged : ∀ b, b.Placed → (call b).1 = none → (call b).2 = b

theorem Performs.keeps {call : PduCall α} {f : SmsPduBuffer → Option (α × SmsPduBuffer)}
    (h : Performs call f) (hf : ∀ b a b', b.Placed → f b = some (a, b') → b'.Placed) :
    Keeps call := by
  constructor
  · intro b hb
    rw [h b hb]
    cases hrun : f b with
    | none => exact hb
    | some r => exact hf b r.1 r.2 hb hrun
  · intro b hb
    rw [h b hb]
    cases hrun : f b with
    | none => exact fun _ => rfl
    | some r => exact fun hnone => by simp at hnone

/-- A call that only looks. -/
theorem Performs.keeps_of_map {call : PduCall α} {f : SmsPduBuffer → Option α}
    (h : Performs call fun b => (f b).map (·, b)) : Keeps call := by
  apply h.keeps
  intro b a b' hb hrun
  rcases Option.map_eq_some_iff.1 hrun with ⟨o, -, heq⟩
  cases heq
  exact hb

/-- A call that returns nothing. -/
theorem Performs.keeps_of_unit {call : PduCall Unit} {f : SmsPduBuffer → Option SmsPduBuffer}
    (h : Performs call fun b => (f b).map ((), ·))
    (hf : ∀ b b', b.Placed → f b = some b' → b'.Placed) : Keeps call := by
  apply h.keeps
  intro b a b' hb hrun
  rcases Option.map_eq_some_iff.1 hrun with ⟨c, hc, heq⟩
  cases heq
  exact hf b _ hb hc

theorem readBits_placed {b b' : SmsPduBuffer} {l : Nat} {v : UInt8} (hb : b.Placed)
    (h : b.readBits l = some (v, b')) : b'.Placed := by
  rcases readBits_eq_some hb h with ⟨hdata, -, hbits, hroom⟩
  rw [placed_iff, getSize, hdata]
  exact ⟨hbits, hroom⟩

theorem writeBits_placed {b b' : SmsPduBuffer} {l : Nat} {v : UInt8} (hb : b.Placed)
    (h : b.writeBits v l = some b') : b'.Placed := by
  rcases writeBits_eq_some hb h with ⟨hsize, -, hbits, hroom⟩
  rw [placed_iff, hsize]
  exact ⟨hbits, hroom⟩

theorem readBits_keeps (l : Nat) : Keeps (readBits l) := by
  apply (readBits_performs l).keeps
  intro b v b' hb hrun
  exact readBits_placed hb hrun

theorem writeBits_keeps (v : UInt8) (l : Nat) : Keeps (writeBits v l) := by
  apply (writeBits_performs v l).keeps_of_unit
  intro b b' hb hrun
  exact writeBits_placed hb hrun

/-- An index in a buffer that is in byte mode. -/
theorem placed_of_byteMode {b : SmsPduBuffer} (hbits : b.bitIndex = 0)
    (hindex : b.index ≤ b.getSize) : b.Placed :=
  ⟨hindex, by omega, by omega⟩

theorem readByte_keeps : Keeps readByte := by
  apply readByte_performs.keeps
  intro b v b' hb hrun
  rw [readByte_eq_readBits] at hrun
  exact readBits_placed hb hrun

theorem writeByte_keeps (v : UInt8) : Keeps (writeByte v) := by
  apply (writeByte_performs v).keeps_of_unit
  intro b b' hb hrun
  rw [SmsPduBuffer.writeByte] at hrun
  split at hrun
  · exact writeBits_placed hb hrun
  · next hbits =>
      split at hrun
      · next hlt =>
          cases hrun
          refine placed_of_byteMode (not_not.1 hbits) ?_
          simpa [getSize] using Nat.succ_le_of_lt hlt
      · cases hrun

theorem readWord_keeps : Keeps readWord := by
  apply readWord_performs.keeps
  intro b v b' hb hrun
  rw [SmsPduBuffer.readWord] at hrun
  split at hrun
  · next hroom =>
      split at hrun
      · cases hrun
        exact placed_of_byteMode hroom.2 hroom.1
      · cases hrun
  · cases hrun

theorem writeWord_keeps (v : UInt16) : Keeps (writeWord v) := by
  apply (writeWord_performs v).keeps_of_unit
  intro b b' hb hrun
  rw [SmsPduBuffer.writeWord] at hrun
  split at hrun
  · next hroom =>
      cases hrun
      refine placed_of_byteMode hroom.2 ?_
      have hlen : ((b.data.set b.index ((0xFF00 &&& v) >>> 8).toUInt8).set (b.index + 1)
          (0x00FF &&& v).toUInt8).length = b.data.length := by
        rw [List.length_set, List.length_set]
      rw [getSize, hlen]
      exact Nat.succ_le_of_lt hroom.1
  · cases hrun

theorem insertByte_keeps (v : UInt8) (index : Nat) : Keeps (insertByte v index) := by
  apply (insertByte_performs v index).keeps_of_unit
  intro b b' hb hrun
  rw [SmsPduBuffer.insertByte] at hrun
  split at hrun
  · next hroom =>
      cases hrun
      refine placed_of_byteMode hroom.2 ?_
      simpa [getSize] using hb.index_le
  · cases hrun

theorem setIndex_keeps (index : Nat) : Keeps (setIndex index) := by
  apply (setIndex_performs index).keeps
  intro b _ b' hb hrun
  split at hrun
  · next hset =>
      cases hrun
      have hle : ¬ index > b.getSize := Nat.not_lt.2 hset.2
      rw [SmsPduBuffer.setIndex, if_neg (not_not_intro hset.1), if_neg hle]
      exact placed_of_byteMode hset.1 hset.2
  · cases hrun

theorem moveForward_keeps (len : Nat) : Keeps (moveForward len) := by
  apply (moveForward_performs len).keeps
  intro b _ b' hb hrun
  split at hrun
  · next hmove =>
      cases hrun
      have hle : ¬ b.index + len > b.getSize := Nat.not_lt.2 hmove.2
      rw [SmsPduBuffer.moveForward, if_neg (not_not_intro hmove.1), if_neg hle]
      exact placed_of_byteMode hmove.1 hmove.2
  · cases hrun

theorem moveBack_keeps (len : Nat) : Keeps (moveBack len) := by
  apply (moveBack_performs len).keeps
  intro b _ b' hb hrun
  split at hrun
  · next hmove =>
      cases hrun
      have hle : ¬ b.index < len := Nat.not_lt.2 hmove.2
      rw [SmsPduBuffer.moveBack, if_neg (not_not_intro hmove.1), if_neg hle]
      exact placed_of_byteMode hmove.1 (Nat.le_trans (Nat.sub_le _ _) hb.index_le)
  · cases hrun

theorem skipBits_keeps : Keeps skipBits := by
  apply skipBits_performs.keeps
  intro b _ b' hb hrun
  cases hrun
  unfold SmsPduBuffer.skipBits
  split
  · next hbits => exact placed_of_byteMode rfl (hb.inside hbits)
  · exact hb

/-! ## All methods -/

/-- The methods of the two classes. -/
inductive Method where
  | setIndex (index : Nat)
  | moveForward (len : Nat)
  | moveBack (len : Nat)
  | skipBits
  | getPduBuffer
  | readBits (l : Nat)
  | readByte
  | readWord
  | pickOneByte
  | pickOneByteFromIndex (index : Nat)
  | writeBits (v : UInt8) (l : Nat)
  | writeByte (v : UInt8)
  | writeWord (v : UInt16)
  | insertByte (v : UInt8) (index : Nat)
  | getTopValue
  | getValueFromIndex (index : Nat)
  deriving DecidableEq, Repr

/-- The call without its result. -/
def ignore (call : PduCall α) : PduCall Unit := do
  let _ ← call

theorem ignore_run (call : PduCall α) (b : SmsPduBuffer) :
    ignore call b = ((call b).1.map fun _ => (), (call b).2) := by
  rw [ignore, bind_run]
  cases call b with
  | mk r b' => cases r <;> rfl

theorem Keeps.ignore {call : PduCall α} (h : Keeps call) : Keeps (PduCall.ignore call) := by
  constructor
  · intro b hb
    rw [ignore_run]
    exact h.placed b hb
  · intro b hb
    rw [ignore_run]
    exact fun hnone => h.unchanged b hb (Option.map_eq_none_iff.1 hnone)

def perform : Method → PduCall Unit
  | .setIndex index => setIndex index
  | .moveForward len => ignore (moveForward len)
  | .moveBack len => ignore (moveBack len)
  | .skipBits => ignore skipBits
  | .getPduBuffer => ignore getPduBuffer
  | .readBits l => ignore (readBits l)
  | .readByte => ignore readByte
  | .readWord => ignore readWord
  | .pickOneByte => ignore pickOneByte
  | .pickOneByteFromIndex index => ignore (pickOneByteFromIndex index)
  | .writeBits v l => writeBits v l
  | .writeByte v => writeByte v
  | .writeWord v => writeWord v
  | .insertByte v index => insertByte v index
  | .getTopValue => ignore getTopValue
  | .getValueFromIndex index => ignore (getValueFromIndex index)

theorem perform_keeps (method : Method) : Keeps (perform method) := by
  cases method with
  | setIndex index => exact setIndex_keeps index
  | moveForward len => exact (moveForward_keeps len).ignore
  | moveBack len => exact (moveBack_keeps len).ignore
  | skipBits => exact skipBits_keeps.ignore
  | getPduBuffer => exact getPduBuffer_performs.keeps_of_map.ignore
  | readBits l => exact (readBits_keeps l).ignore
  | readByte => exact readByte_keeps.ignore
  | readWord => exact readWord_keeps.ignore
  | pickOneByte => exact pickOneByte_performs.keeps_of_map.ignore
  | pickOneByteFromIndex index => exact (pickOneByteFromIndex_performs index).keeps_of_map.ignore
  | writeBits v l => exact writeBits_keeps v l
  | writeByte v => exact writeByte_keeps v
  | writeWord v => exact writeWord_keeps v
  | insertByte v index => exact insertByte_keeps v index
  | getTopValue => exact getTopValue_performs.keeps_of_map.ignore
  | getValueFromIndex index => exact (getValueFromIndex_performs index).keeps_of_map.ignore

/-- Whatever is called on a buffer, and whatever fails, its position stays in place. -/
theorem forEach_perform_placed (methods : List Method) {b : SmsPduBuffer} (hb : b.Placed) :
    (forEach (fun method => attempt (perform method)) methods b).2.Placed := by
  induction methods generalizing b with
  | nil => exact hb
  | cons method methods ih =>
      rw [forEach, bind_of_some (attempt_run _ b)]
      exact ih ((perform_keeps method).placed b hb)

end PduCall

end TelephonySms.Pdu
