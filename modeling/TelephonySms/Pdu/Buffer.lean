import Mathlib.Data.List.Basic
import Mathlib.Data.List.TakeDrop

/-! # PDU buffers

`SmsPduBuffer` with the operations of `SmsReadBuffer` and `SmsWriteBuffer`,
which add operations to it and no fields. An operation that returns `false`
is `none`. Proofs read a buffer through `cursor`: the octets before the index
and the octets from it on.
-/

namespace TelephonySms.Pdu

/-- `data` is `data_` with its `length_`; a null `data_` has length zero. -/
structure SmsPduBuffer where
  data : List UInt8
  index : Nat
  bitIndex : Nat
deriving DecidableEq, Repr

namespace SmsPduBuffer

variable (b : SmsPduBuffer)

def getSize : Nat := b.data.length

/-- `GetIndex() - 1` as the `uint16_t` it is passed as. -/
def previousIndex : Nat := (b.index + 0xFFFF) % 0x10000

def moveForward (len : Nat) : SmsPduBuffer :=
  if b.bitIndex ≠ 0 then b
  else if b.index + len > b.getSize then b
  else { b with index := b.index + len }

def moveBack (len : Nat) : SmsPduBuffer :=
  if b.bitIndex ≠ 0 then b
  else if b.index < len then b
  else { b with index := b.index - len }

/-- `SetIndex`, which leaves the index where it is when it cannot be set. -/
def setIndex (index : Nat) : SmsPduBuffer :=
  if b.bitIndex ≠ 0 then b
  else if index > b.getSize then b
  else { b with index := index }

def skipBits : SmsPduBuffer :=
  if b.bitIndex > 0 then { b with index := b.index + 1, bitIndex := 0 } else b

def getPduBuffer : Option (List UInt8) :=
  if b.data = [] ∨ b.index = 0 then none
  else if b.bitIndex ≠ 0 then none
  else if b.index ≥ b.getSize then none
  else some (b.data.take b.index)

theorem getPduBuffer_eq_some {b : SmsPduBuffer} {octets : List UInt8}
    (h : b.getPduBuffer = some octets) :
    0 < b.index ∧ b.index < b.getSize ∧ octets = b.data.take b.index := by
  unfold getPduBuffer at h
  split at h
  · simp at h
  split at h
  · simp at h
  split at h
  · simp at h
  · next hne _ hlt =>
      cases h
      exact ⟨Nat.pos_of_ne_zero fun h0 => hne (.inr h0), Nat.not_le.mp hlt, rfl⟩

/-! ## Reading -/

/-- `SmsReadBuffer(hex)`: a length outside `2..256` leaves `data_` null. -/
def ofHex (hex : List UInt8) : SmsPduBuffer :=
  if hex.length < 2 ∨ hex.length > 256 then ⟨[], 0, 0⟩ else ⟨hex, 0, 0⟩

def readBits (l : Nat) : Option (UInt8 × SmsPduBuffer) :=
  if l = 0 ∨ l > 8 then none
  else if b.bitIndex + l ≤ 8 then
    match b.data[b.index]? with
    | none => none
    | some octet =>
        let v := (octet <<< UInt8.ofNat b.bitIndex) >>> UInt8.ofNat (8 - l)
        if b.bitIndex + l = 8 then some (v, { b with bitIndex := 0, index := b.index + 1 })
        else some (v, { b with bitIndex := b.bitIndex + l })
  else
    match b.data[b.index]?, b.data[b.index + 1]? with
    | some octet, some next =>
        let bitIndex := l + b.bitIndex - 8
        let v := (octet <<< UInt8.ofNat b.bitIndex) >>> UInt8.ofNat (8 - l)
        some (v ||| next >>> UInt8.ofNat (8 - bitIndex),
          { b with index := b.index + 1, bitIndex := bitIndex })
    | _, _ => none

def readByte : Option (UInt8 × SmsPduBuffer) :=
  if b.bitIndex ≠ 0 then b.readBits 8
  else
    match b.data[b.index]? with
    | none => none
    | some v => some (v, { b with index := b.index + 1 })

def readWord : Option (UInt16 × SmsPduBuffer) :=
  if b.index + 1 < b.getSize ∧ b.bitIndex = 0 then
    match b.data[b.index]?, b.data[b.index + 1]? with
    | some high, some low =>
        some (high.toUInt16 <<< 8 ||| low.toUInt16, { b with index := b.index + 2 })
    | _, _ => none
  else none

def pickOneByte : Option UInt8 := b.data[b.index]?

def pickOneByteFromIndex (index : Nat) : Option UInt8 := b.data[index]?

theorem head?_of_pickOneByte_ofHex {hex : List UInt8} {v : UInt8}
    (h : (ofHex hex).pickOneByte = some v) : hex.head? = some v := by
  unfold ofHex pickOneByte at h
  split at h
  · simp at h
  · simpa [List.head?_eq_getElem?] using h

/-! ## Writing -/

/-- `SmsWriteBuffer()`: 256 octets, value-initialised by `make_unique`. -/
def new : SmsPduBuffer := ⟨List.replicate 256 0, 0, 0⟩

def writeBits (v : UInt8) (l : Nat) : Option SmsPduBuffer :=
  if l = 0 ∨ l > 8 then none
  else if b.bitIndex + l ≤ 8 then
    match b.data[b.index]? with
    | none => none
    | some octet =>
        let data := b.data.set b.index (octet ||| v <<< UInt8.ofNat (8 - b.bitIndex - l))
        if b.bitIndex + l = 8 then some ⟨data, b.index + 1, 0⟩
        else some ⟨data, b.index, b.bitIndex + l⟩
  else
    match b.data[b.index]?, b.data[b.index + 1]? with
    | some octet, some next =>
        let bitIndex := l + b.bitIndex - 8
        let data := b.data.set b.index (octet ||| v >>> UInt8.ofNat bitIndex)
        some ⟨data.set (b.index + 1) (next ||| v <<< UInt8.ofNat (8 - bitIndex)),
          b.index + 1, bitIndex⟩
    | _, _ => none

def writeByte (v : UInt8) : Option SmsPduBuffer :=
  if b.bitIndex ≠ 0 then b.writeBits v 8
  else if b.index < b.getSize then
    some { b with data := b.data.set b.index v, index := b.index + 1 }
  else none

def writeWord (v : UInt16) : Option SmsPduBuffer :=
  if b.index + 1 < b.getSize ∧ b.bitIndex = 0 then
    some { b with
      data := (b.data.set b.index ((0xFF00 &&& v) >>> 8).toUInt8).set (b.index + 1)
        (0x00FF &&& v).toUInt8
      index := b.index + 2 }
  else none

def insertByte (v : UInt8) (index : Nat) : Option SmsPduBuffer :=
  if index < b.getSize ∧ b.bitIndex = 0 then some { b with data := b.data.set index v }
  else none

def getTopValue : Option UInt8 := b.data[b.index]?

def getValueFromIndex (index : Nat) : Option UInt8 := b.data[index]?

/-- `memcpy_s(data_.get() + GetIndex(), destMax, octets, octets.size())`. -/
def memcpy (destMax : Nat) (octets : List UInt8) : Option SmsPduBuffer :=
  if destMax = 0 ∨ octets.length > destMax then none
  else
    some { b with
      data := b.data.take b.index ++ octets ++ b.data.drop (b.index + octets.length) }

/-- Octets copied to the index when they fit, which the index stays before. -/
def copyHere (octets : List UInt8) : Option SmsPduBuffer :=
  if b.index + octets.length > b.getSize then none else b.memcpy octets.length octets

/-- The steps of a function without a result: the first failure ends it and
keeps what was done. -/
def steps (b : SmsPduBuffer) : List (SmsPduBuffer → Option SmsPduBuffer) → SmsPduBuffer
  | [] => b
  | step :: rest =>
      match step b with
      | none => b
      | some b => b.steps rest

def writeBytes (octets : List UInt8) : SmsPduBuffer :=
  b.steps (octets.map fun v b => b.writeByte v)

/-! ## Cursors -/

/-- A buffer in byte mode that has `passed` before its index and `rest` from it on. -/
def cursor (passed rest : List UInt8) : SmsPduBuffer := ⟨passed ++ rest, passed.length, 0⟩

variable (passed rest : List UInt8) (v w : UInt8)

@[simp] theorem cursor_index : (cursor passed rest).index = passed.length := rfl

@[simp] theorem cursor_data : (cursor passed rest).data = passed ++ rest := rfl

@[simp] theorem cursor_bitIndex : (cursor passed rest).bitIndex = 0 := rfl

@[simp] theorem cursor_getSize :
    (cursor passed rest).getSize = passed.length + rest.length := by
  simp [getSize]

theorem ofHex_eq_cursor {hex : List UInt8} (h : 2 ≤ hex.length) (h' : hex.length ≤ 256) :
    ofHex hex = cursor [] hex := by
  simp [ofHex, cursor, Nat.not_lt.mpr h, Nat.not_lt.mpr h']

theorem new_eq_cursor : new = cursor [] (List.replicate 256 0) := rfl

@[simp] theorem readByte_cursor_cons :
    (cursor passed (v :: rest)).readByte = some (v, cursor (passed ++ [v]) rest) := by
  simp [readByte, cursor]

@[simp] theorem readByte_cursor_nil : (cursor passed []).readByte = none := by
  simp [readByte, cursor]

@[simp] theorem pickOneByte_cursor_cons : (cursor passed (v :: rest)).pickOneByte = some v := by
  simp [pickOneByte, cursor]

@[simp] theorem pickOneByte_cursor_nil : (cursor passed []).pickOneByte = none := by
  simp [pickOneByte, cursor]

theorem moveForward_cursor (len : Nat) (h : len ≤ rest.length) :
    (cursor passed rest).moveForward len =
      cursor (passed ++ rest.take len) (rest.drop len) := by
  simp [moveForward, cursor, getSize, Nat.not_lt.mpr h, h]

theorem moveForward_cursor_of_gt (len : Nat) (h : rest.length < len) :
    (cursor passed rest).moveForward len = cursor passed rest := by
  simp [moveForward, h]

@[simp] theorem moveForward_cursor_cons :
    (cursor passed (v :: rest)).moveForward 1 = cursor (passed ++ [v]) rest := by
  simpa using moveForward_cursor passed (v :: rest) 1 (by simp)

@[simp] theorem moveForward_cursor_nil : (cursor passed []).moveForward 1 = cursor passed [] :=
  moveForward_cursor_of_gt passed [] 1 (by simp)

theorem previousIndex_cursor_concat (h : passed.length < 0x10000) :
    (cursor (passed ++ [v]) rest).previousIndex = passed.length := by
  simp [previousIndex]
  omega

@[simp] theorem writeByte_cursor_cons :
    (cursor passed (w :: rest)).writeByte v = some (cursor (passed ++ [v]) rest) := by
  simp [writeByte, cursor, getSize]

@[simp] theorem writeByte_cursor_nil : (cursor passed []).writeByte v = none := by
  simp [writeByte]

@[simp] theorem getTopValue_cursor_cons : (cursor passed (v :: rest)).getTopValue = some v := by
  simp [getTopValue, cursor]

@[simp] theorem insertByte_cursor_index :
    (cursor passed (w :: rest)).insertByte v passed.length = some (cursor passed (v :: rest)) := by
  simp [insertByte, cursor, getSize]

theorem insertByte_cursor_of_lt (i : Nat) (h : i < passed.length) :
    (cursor passed rest).insertByte v i = some (cursor (passed.set i v) rest) := by
  have hlt : i < passed.length + rest.length := by omega
  simp [insertByte, cursor, getSize, hlt, List.set_append_left _ _ h]

theorem memcpy_cursor (destMax : Nat) (octets : List UInt8) (hpos : 0 < destMax)
    (hle : octets.length ≤ destMax) :
    (cursor passed rest).memcpy destMax octets =
      some (cursor passed (octets ++ rest.drop octets.length)) := by
  have hdest : ¬ (destMax = 0 ∨ octets.length > destMax) := by omega
  simp [memcpy, hdest, cursor]

theorem writeBytes_cursor (vs zs : List UInt8) (h : vs.length = zs.length) :
    (cursor passed (zs ++ rest)).writeBytes vs = cursor (passed ++ vs) rest := by
  induction vs generalizing passed zs with
  | nil => simp_all [writeBytes, steps, eq_comm]
  | cons v vs ih =>
      cases zs with
      | nil => simp at h
      | cons z zs => simpa [writeBytes, steps] using ih (passed ++ [v]) zs (by simpa using h)

end SmsPduBuffer

end TelephonySms.Pdu
