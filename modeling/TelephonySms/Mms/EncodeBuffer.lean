import TelephonySms.Action
import TelephonySms.Mms.DecodeBuffer

/-! # The encode buffer

`MmsEncodeBuffer`: octets are written one by one or a buffer at a time until the PDU is
full, and the basic WSP values are written with them.
-/

namespace TelephonySms.Mms

open Action

/-- The octets written so far are the first `curPosition_` of the buffer. -/
abbrev Write := Action Octets

def writeByte (value : UInt8) : Write Unit := do
  let buffer ← get
  guard (buffer.length < MMS_PDU_MAX_SIZE)
  modify (· ++ [value])

def writeBytes (values : Octets) : Write Unit := forEach writeByte values

/-- Both `WriteBuffer`s. The two lengths are at most `MMS_PDU_MAX_SIZE`, so their sum has 32
bits. `memcpy_s` refuses an empty destination. -/
def writeBuffer (input : Octets) : Write Unit := do
  let buffer ← get
  guard (buffer.length + input.length < MMS_PDU_MAX_SIZE)
  guard (input ≠ [])
  modify (· ++ input)

/-- Writes to a buffer of its own and returns what it holds. -/
def inTempBuffer (m : Write Unit) : Write Octets := fun buffer =>
  match m [] with
  | (some (), tempBuffer) => (some tempBuffer, buffer)
  | (none, _) => (none, buffer)

/-- The digits of `value` in base `2 ^ bits`, the lowest first. -/
def lowDigits (bits : Nat) : Nat → Nat → List Nat
  | 0, _ => []
  | fuel + 1, value =>
      if value = 0 then [] else value % 2 ^ bits :: lowDigits bits fuel (value / 2 ^ bits)

def uintvarOctets (value : Nat) : Octets :=
  ((UInt8.ofNat (value % 128)) ::
    (lowDigits 7 4 (value / 128)).map (fun d => UInt8.ofNat (0x80 + d))).reverse

def encodeUintvar (value : Nat) : Write Unit := writeBytes (uintvarOctets value)

def encodeShortLength (value : UInt8) : Write Unit := do
  guard (value ≤ 30)
  writeByte value

def encodeShortInteger (value : UInt8) : Write Unit := writeByte (value ||| 0x80)

def encodeOctet (value : UInt8) : Write Unit := writeByte value

def encodeValueLength (value : Nat) : Write Unit :=
  if value ≤ 30 then
    encodeShortLength (UInt8.ofNat value)
  else do
    writeByte 0x1f
    encodeUintvar value

def longIntegerOctets (value : Nat) : Octets :=
  ((lowDigits 8 8 value).map UInt8.ofNat).reverse

def encodeLongInteger (value : Nat) : Write Unit :=
  let octets := if value = 0 then [0] else longIntegerOctets value
  do
    writeByte (UInt8.ofNat octets.length)
    writeBytes octets

def encodeInteger (value : Nat) : Write Unit :=
  if value ≤ 127 then encodeShortInteger (UInt8.ofNat value) else encodeLongInteger value

def encodeText (platform : Platform) (value : Octets) : Write Unit :=
  match value with
  | [] => pure ()
  | first :: _ => do
      -- A plain `char` that is signed is never above `0x7f`.
      if platform.charIsUnsigned ∧ first > 0x7f then
        writeByte 0x7f
      writeBytes value
      writeByte 0

def encodeQuotedText (value : Octets) : Write Unit :=
  if value = [] then
    pure ()
  else do
    writeByte 0x22
    writeBytes value
    writeByte 0

/-! ## What each value is on the wire -/

def shortIntegerWire (value : UInt8) : Octets := [value ||| 0x80]

def valueLengthWire (value : Nat) : Octets :=
  if value ≤ 30 then [UInt8.ofNat value] else 0x1f :: uintvarOctets value

def longIntegerWire (value : Nat) : Octets :=
  let octets := if value = 0 then [0] else longIntegerOctets value
  UInt8.ofNat octets.length :: octets

def integerWire (value : Nat) : Octets :=
  if value ≤ 127 then shortIntegerWire (UInt8.ofNat value) else longIntegerWire value

def textWire (platform : Platform) (value : Octets) : Octets :=
  match value with
  | [] => []
  | first :: _ =>
      (if platform.charIsUnsigned ∧ first > 0x7f then [0x7f] else []) ++ value ++ [0]

def quotedTextWire (value : Octets) : Octets := if value = [] then [] else 0x22 :: value ++ [0]

theorem writeByte_appends (value : UInt8) :
    Appends MMS_PDU_MAX_SIZE (writeByte value) [value] := by
  intro buffer hfits
  rw [List.length_singleton] at hfits
  simp only [writeByte, get_bind]
  rw [guard_of (by omega)]
  rfl

theorem writeBytes_appends (values : Octets) :
    Appends MMS_PDU_MAX_SIZE (writeBytes values) values := by
  have hall : Appends MMS_PDU_MAX_SIZE (writeBytes values) (values.flatMap fun b => [b]) :=
    Appends.forEach values fun b _ => writeByte_appends b
  rwa [List.flatMap_singleton'] at hall

theorem writeBuffer_appends (input : Octets) (h : input ≠ []) :
    Appends MMS_PDU_MAX_SIZE (writeBuffer input) input := by
  intro buffer hfits
  simp only [writeBuffer, get_bind]
  rw [guard_of hfits, guard_of h]
  rfl

/-- What a temporary buffer holds goes on to the buffer behind what is written first. -/
theorem inTempBuffer_appends {m : Write Unit} {f : Octets → Write Unit} {u w : Octets}
    (hm : Appends MMS_PDU_MAX_SIZE m u) (hf : Appends MMS_PDU_MAX_SIZE (f u) w)
    (hle : u.length ≤ w.length) : Appends MMS_PDU_MAX_SIZE (inTempBuffer m >>= f) w := by
  intro buffer hfits
  have htemp : m [] = (some (), u) := by
    simpa using hm [] (by simp; omega)
  have hrun : inTempBuffer m buffer = (some u, buffer) := by
    rw [inTempBuffer, htemp]
  rw [bind_of_some hrun]
  exact hf buffer hfits

theorem encodeUintvar_appends (value : Nat) :
    Appends MMS_PDU_MAX_SIZE (encodeUintvar value) (uintvarOctets value) :=
  writeBytes_appends _

theorem encodeShortInteger_appends (value : UInt8) :
    Appends MMS_PDU_MAX_SIZE (encodeShortInteger value) (shortIntegerWire value) :=
  writeByte_appends _

theorem encodeValueLength_appends (value : Nat) :
    Appends MMS_PDU_MAX_SIZE (encodeValueLength value) (valueLengthWire value) := by
  unfold encodeValueLength valueLengthWire
  split
  · next h =>
      have hsize : value < UInt8.size := Nat.lt_of_le_of_lt h (by decide)
      have hshort : UInt8.ofNat value ≤ 30 := (UInt8.ofNat_le_iff_le hsize (by decide)).2 h
      exact Appends.bind (Appends.guard hshort) (writeByte_appends _)
  · exact Appends.bind (writeByte_appends 0x1f) (encodeUintvar_appends value)

theorem encodeLongInteger_appends (value : Nat) :
    Appends MMS_PDU_MAX_SIZE (encodeLongInteger value) (longIntegerWire value) :=
  Appends.bind (writeByte_appends _) (writeBytes_appends _)

theorem encodeInteger_appends (value : Nat) :
    Appends MMS_PDU_MAX_SIZE (encodeInteger value) (integerWire value) := by
  unfold encodeInteger integerWire
  split
  · exact encodeShortInteger_appends _
  · exact encodeLongInteger_appends value

theorem encodeText_appends (platform : Platform) (value : Octets) :
    Appends MMS_PDU_MAX_SIZE (encodeText platform value) (textWire platform value) := by
  cases value with
  | nil => exact Appends.pure
  | cons first rest =>
      simp only [encodeText, textWire]
      split
      · have hall := Appends.bind (writeByte_appends 0x7f)
          (Appends.bind (writeBytes_appends (first :: rest)) (writeByte_appends 0))
        simpa using hall
      · have hall := Appends.bind (writeBytes_appends (first :: rest)) (writeByte_appends 0)
        simpa using hall

/-! ## Where a call succeeds it has written its value -/

theorem writeByte_emits (value : UInt8) : Emits (writeByte value) [value] := by
  intro buffer buffer' h
  simp only [writeByte, get_bind] at h
  by_cases hfull : buffer.length < MMS_PDU_MAX_SIZE
  · rw [guard_of hfull] at h
    simpa using h.symm
  · rw [guard_of_not hfull] at h
    simp at h

theorem writeBytes_emits (values : Octets) : Emits (writeBytes values) values := by
  have hall : Emits (writeBytes values) (values.flatMap fun b => [b]) :=
    Emits.forEach values fun b _ => writeByte_emits b
  rwa [List.flatMap_singleton'] at hall

/-- A buffer that is written has room left behind it. -/
theorem writeBuffer_eq_some {input buffer buffer' : Octets}
    (h : writeBuffer input buffer = (some (), buffer')) :
    buffer' = buffer ++ input ∧ buffer.length + input.length < MMS_PDU_MAX_SIZE := by
  simp only [writeBuffer, get_bind] at h
  by_cases hfull : buffer.length + input.length < MMS_PDU_MAX_SIZE
  · rw [guard_of hfull] at h
    by_cases hempty : input ≠ []
    · rw [guard_of hempty] at h
      exact ⟨by simpa using h.symm, hfull⟩
    · rw [guard_of_not hempty] at h
      simp at h
  · rw [guard_of_not hfull] at h
    simp at h

theorem writeBuffer_emits (input : Octets) : Emits (writeBuffer input) input :=
  fun _ _ h => (writeBuffer_eq_some h).1

theorem inTempBuffer_emits {m : Write Unit} {f : Octets → Write Unit} {u w : Octets}
    (hm : ∀ temp, m [] = (some (), temp) → temp = u) (hf : Emits (f u) w) :
    Emits (inTempBuffer m >>= f) w := by
  intro buffer buffer' h
  cases hrun : m [] with
  | mk r temp =>
      cases r with
      | none =>
          have hnone : inTempBuffer m buffer = (none, buffer) := by rw [inTempBuffer, hrun]
          rw [bind_of_none hnone] at h
          simp at h
      | some _ =>
          have htemp : temp = u := hm temp hrun
          subst htemp
          have hsome : inTempBuffer m buffer = (some temp, buffer) := by rw [inTempBuffer, hrun]
          rw [bind_of_some hsome] at h
          exact hf buffer buffer' h

theorem encodeValueLength_emits (value : Nat) :
    Emits (encodeValueLength value) (valueLengthWire value) := by
  unfold encodeValueLength valueLengthWire
  split
  · exact Emits.bind (Emits.guard _) (writeByte_emits _)
  · exact Emits.bind (writeByte_emits 0x1f) (writeBytes_emits _)

theorem encodeLongInteger_emits (value : Nat) :
    Emits (encodeLongInteger value) (longIntegerWire value) :=
  Emits.bind (writeByte_emits _) (writeBytes_emits _)

theorem encodeText_emits (platform : Platform) (value : Octets) :
    Emits (encodeText platform value) (textWire platform value) := by
  cases value with
  | nil => exact Emits.pure
  | cons first rest =>
      simp only [encodeText, textWire]
      split
      · have hall := Emits.bind (writeByte_emits 0x7f)
          (Emits.bind (writeBytes_emits (first :: rest)) (writeByte_emits 0))
        simpa using hall
      · have hall := Emits.bind (writeBytes_emits (first :: rest)) (writeByte_emits 0)
        simpa using hall

/-! ## Single octets fail only in a full buffer -/

theorem writeByte_failsFull (value : UInt8) : FailsFull MMS_PDU_MAX_SIZE (writeByte value) := by
  intro buffer buffer' h
  simp only [writeByte, get_bind] at h
  by_cases hfull : buffer.length < MMS_PDU_MAX_SIZE
  · rw [guard_of hfull] at h
    simp at h
  · rw [guard_of_not hfull] at h
    obtain rfl : buffer = buffer' := by simpa using h
    exact Nat.not_lt.mp hfull

theorem encodeText_failsFull (platform : Platform) (value : Octets) :
    FailsFull MMS_PDU_MAX_SIZE (encodeText platform value) := by
  have htext : FailsFull MMS_PDU_MAX_SIZE (do
      writeBytes value
      writeByte 0) :=
    FailsFull.bind (FailsFull.forEach value fun b _ => writeByte_failsFull b)
      (writeByte_failsFull 0)
  cases value with
  | nil => exact FailsFull.pure
  | cons first rest =>
      simp only [encodeText]
      split
      · exact FailsFull.bind (writeByte_failsFull 0x7f) htext
      · exact htext

end TelephonySms.Mms
