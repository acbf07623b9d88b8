import TelephonySms.OctetReader

/-! # The decode buffer

`MmsBuffer` and `MmsDecodeBuffer`: the position operations over the PDU, and the basic
WSP values read with them. Positions and lengths are 32-bit in the code, so they are
reduced modulo `2 ^ 32` wherever the code adds or shifts them.
-/

namespace TelephonySms.Mms

open OctetReader Reader

abbrev Octets := List UInt8

def MMS_PDU_MAX_SIZE : Nat := 10 * 1024 * 1024

def u32 (n : Nat) : Nat := n % 2 ^ 32

def u64 (n : Nat) : Nat := n % 2 ^ 64

/-- What the codec takes from the platform and from other services. -/
structure Platform where
  /-- whether a plain `char` is unsigned -/
  charIsUnsigned : Bool
  /-- seconds since the epoch -/
  systemClock : Nat
  /-- the current time as `strftime` prints it -/
  currentTime : Octets
  /-- `SmsServiceManagerClient::GetEncodeStringFunc`: the result and the converted string -/
  getEncodeStringFunc : Nat → Nat → Octets → Bool × Octets
  /-- `SmsServiceManagerClient::GetBase64Decode` -/
  getBase64Decode : Octets → Octets
  /-- the random letters and digits of `MakeTransactionId` -/
  makeTransactionId : Nat → Octets
  /-- `sscanf_s` with the format `=%02X` -/
  scanHexOctet : Octets → Option Nat

/-- A platform whose service finds nothing to convert. -/
def plainPlatform : Platform where
  charIsUnsigned := true
  systemClock := 1700000000
  currentTime := []
  getEncodeStringFunc _ _ str := (true, str)
  getBase64Decode _ := []
  makeTransactionId _ := []
  scanHexOctet _ := none

def ascii (s : String) : Octets := s.toList.map fun c => c.toNat.toUInt8

theorem u32_of_lt {n : Nat} (h : n < 2 ^ 32) : u32 n = n := Nat.mod_eq_of_lt h

/-! ## Position operations -/

def peekOneByte : Reader UInt8 := do
  let c ← cursor
  if c.position ≥ c.octets.length then
    fail
  else
    touch c.position c.position 1
    pure (c.octets.getD c.position 0)

def getOneByte : Reader UInt8 := do
  let c ← cursor
  if c.position ≥ c.octets.length then
    fail
  else
    touch (u32 (c.position + 1)) c.position 1
    pure (c.octets.getD c.position 0)

def increasePointer (offset : Nat) : Reader Unit := do
  let c ← cursor
  if offset > c.octets.length ∨ u32 (c.position + offset) > c.octets.length then
    fail
  else
    touch (u32 (c.position + offset)) c.position 0

def decreasePointer (offset : Nat) : Reader Unit := do
  let c ← cursor
  if offset > c.position then
    fail
  else
    touch (c.position - offset) c.position 0

def getCurPosition : Reader Nat := do
  let c ← cursor
  pure c.position

def getSize : Reader Nat := do
  let c ← cursor
  pure c.octets.length

def readDataBuffer (offset desLen : Nat) : Reader Octets := do
  let c ← cursor
  if desLen > MMS_PDU_MAX_SIZE then
    fail
  else if u32 (offset + desLen) > c.octets.length then
    fail
  else if desLen = 0 then
    fail -- `memcpy_s` refuses an empty destination
  else
    touch c.position offset desLen
    pure ((c.octets.drop offset).take desLen)

/-! ## Basic values -/

def decodeUintvar : Reader (Nat × Nat) := do
  let first ← getOneByte
  loop (fun (oneByte, uintVar, count) =>
    let shifted := u32 (uintVar <<< 7) ||| (oneByte &&& 0x7f).toNat
    if oneByte &&& 0x80 ≠ 0 then do
      let next ← getOneByte
      pure (.inl (next, shifted, count + 1))
    else
      pure (.inr (shifted, count))) (first, 0, 1)

def decodeValueLengthReturnLen : Reader (Nat × Nat) := do
  match ← attempt getOneByte with
  | none => do
      let _ ← attempt (decreasePointer 1)
      fail
  | some oneByte =>
      if oneByte ≤ 30 then
        pure (oneByte.toNat, 1)
      else if oneByte = 0x1f then do
        let (uintvar, count) ← decodeUintvar
        pure (uintvar, u32 (count + 1))
      else
        fail

def decodeValueLength : Reader Nat := do
  let (valueLength, _) ← decodeValueLengthReturnLen
  pure valueLength

def charIsToken (oneByte : UInt8) : Bool :=
  if oneByte < 33 ∨ oneByte > 126 then
    false
  else
    !([0x22, 0x28, 0x29, 0x2c, 0x2f, 0x3a, 0x3b, 0x3c, 0x3d, 0x3e, 0x3f, 0x40, 0x5b, 0x5c,
      0x5d, 0x7b, 0x7d] : List UInt8).contains oneByte

/-- One round of `while (GetOneByte(oneByte))`, which ends at the octet 0. -/
def untilNulRound (keep counts : UInt8 → Bool) (s : Octets × Nat) :
    Reader ((Octets × Nat) ⊕ (Octets × Nat)) := do
  match ← attempt getOneByte with
  | none => pure (.inr s)
  | some oneByte =>
      if oneByte ≠ 0 then
        pure (.inl (if keep oneByte then s.1 ++ [oneByte] else s.1,
          if counts oneByte then s.2 + 1 else s.2))
      else
        pure (.inr s)

/-- The octets up to the octet 0 that are kept, and the number of those that are counted. -/
def untilNul (keep counts : UInt8 → Bool) (str : Octets) (len : Nat) : Reader (Octets × Nat) :=
  loop (untilNulRound keep counts) (str, len)

def decodeTokenText : Reader (Octets × Nat) := do
  let oneByte ← peekOneByte
  guard (33 ≤ oneByte ∧ oneByte ≤ 126)
  let (str, len) ← untilNul charIsToken charIsToken [] 0
  guard (0 < len)
  pure (str, len)

def decodeText : Reader (Octets × Nat) := do
  let oneByte ← getOneByte
  if oneByte ≠ 127 then do
    let _ ← attempt (decreasePointer 1)
    untilNul (fun _ => true) (fun _ => true) [] 0
  else
    untilNul (fun _ => true) (fun _ => true) [] 1

def decodeQuotedText : Reader (Octets × Nat) := do
  let (str, len) ← untilNul (fun oneByte => oneByte != 0x22) (fun _ => true) [] 0
  guard (0 < len)
  pure (str, len)

def decodeShortInteger : Reader UInt8 := do
  let oneByte ← getOneByte
  guard (oneByte > 0x7f)
  pure (oneByte &&& 0x7f)

def longIntegerLoop : Nat → Nat → Reader Nat
  | 0, result => pure result
  | i + 1, result => do
      let oneByte ← getOneByte
      longIntegerLoop i (u64 (result <<< 8) ||| oneByte.toNat)

def decodeLongInteger : Reader Nat := do
  let oneByte ← getOneByte
  guard (oneByte ≤ 8)
  longIntegerLoop oneByte.toNat 0

/-- The octet ahead, 0 at the end. -/
def peekOrZero : Reader UInt8 := do
  let oneByte ← attempt peekOneByte
  pure (oneByte.getD 0)

def decodeIsShortInt : Reader Bool := do
  let oneByte ← peekOrZero
  pure (oneByte > 0x7f)

def decodeIsString : Reader Bool := do
  let oneByte ← peekOrZero
  pure (0x20 ≤ oneByte ∧ oneByte ≤ 0x7f)

def decodeIsValueLength : Reader Bool := do
  let oneByte ← peekOrZero
  pure (oneByte ≤ 0x1f)

def decodeInteger : Reader Nat := do
  if ← decodeIsShortInt then do
    let sInteger ← decodeShortInteger
    pure sInteger.toNat
  else
    decodeLongInteger

/-! ## Every operation stays inside the buffer -/

theorem peekOneByte_of_lt {c : Cursor} (h : c.position < c.octets.length) :
    peekOneByte c = (.done (c.octets.getD c.position 0),
      ⟨c.octets, c.position, ⟨c.position, c.position, 1⟩ :: c.trace⟩) := by
  simp only [peekOneByte, cursor_bind, if_neg (Nat.not_le.mpr h)]
  rfl

theorem peekOneByte_of_ge {c : Cursor} (h : c.octets.length ≤ c.position) :
    peekOneByte c = (.failed, c) := by
  simp only [peekOneByte, cursor_bind, if_pos h]
  rfl

theorem getOneByte_of_lt {c : Cursor} (hc : c.octets.length < 2 ^ 31)
    (h : c.position < c.octets.length) :
    getOneByte c = (.done (c.octets.getD c.position 0),
      ⟨c.octets, c.position + 1, ⟨c.position + 1, c.position, 1⟩ :: c.trace⟩) := by
  have hwrap : u32 (c.position + 1) = c.position + 1 := u32_of_lt (by omega)
  simp only [getOneByte, cursor_bind, if_neg (Nat.not_le.mpr h), hwrap]
  rfl

theorem getOneByte_of_ge {c : Cursor} (h : c.octets.length ≤ c.position) :
    getOneByte c = (.failed, c) := by
  simp only [getOneByte, cursor_bind, if_pos h]
  rfl

theorem peekOneByte_moves : Moves peekOneByte (fun _ => 0) 0 := by
  intro c hc
  by_cases h : c.position < c.octets.length
  · exact MovesAt.of_touch hc (peekOneByte_of_lt h) hc.inside h (by simp)
  · exact MovesAt.of_failed hc (peekOneByte_of_ge (Nat.not_lt.mp h)) (le_refl 0)

theorem getOneByte_moves : Moves getOneByte (fun _ => 1) 0 := by
  intro c hc
  by_cases h : c.position < c.octets.length
  · exact MovesAt.of_touch hc (getOneByte_of_lt hc.short h) h h (by simp)
  · exact MovesAt.of_failed hc (getOneByte_of_ge (Nat.not_lt.mp h)) (le_refl 0)

theorem increasePointer_moves (offset : Nat) :
    Moves (increasePointer offset) (fun _ => 0) 0 := by
  intro c hc
  have hshort := hc.short
  have hinside := hc.inside
  by_cases h : offset > c.octets.length ∨ u32 (c.position + offset) > c.octets.length
  · exact MovesAt.of_failed hc (by simp only [increasePointer, cursor_bind, if_pos h]; rfl)
      (le_refl 0)
  · have hrun : increasePointer offset c = (.done (), ⟨c.octets, u32 (c.position + offset),
        ⟨u32 (c.position + offset), c.position, 0⟩ :: c.trace⟩) := by
      simp only [increasePointer, cursor_bind, if_neg h]
      rfl
    refine MovesAt.of_touch hc hrun (by omega) hinside ?_
    -- An offset within the buffer does not wrap the sum.
    simp only [u32] at h ⊢
    omega

theorem decreasePointer_moves (offset : Nat) :
    Moves (decreasePointer offset) (fun _ => -offset) 0 := by
  intro c hc
  have hinside := hc.inside
  by_cases h : offset > c.position
  · exact MovesAt.of_failed hc (by simp only [decreasePointer, cursor_bind, if_pos h]; rfl)
      (le_refl 0)
  · have hrun : decreasePointer offset c = (.done (), ⟨c.octets, c.position - offset,
        ⟨c.position - offset, c.position, 0⟩ :: c.trace⟩) := by
      simp only [decreasePointer, cursor_bind, if_neg h]
      rfl
    have hback : c.position - offset ≤ c.octets.length := by omega
    exact MovesAt.of_touch hc hrun hback hinside (by omega)

theorem getCurPosition_moves : Moves getCurPosition (fun _ => 0) 0 :=
  Moves.bind Moves.cursor (le_refl 0) fun _ => Moves.pure _ (by simp)

theorem getSize_moves : Moves getSize (fun _ => 0) 0 :=
  Moves.bind Moves.cursor (le_refl 0) fun _ => Moves.pure _ (by simp)

/-- The range is copied from where the position is. Without that the sum of offset and
length could wrap. -/
theorem readDataBuffer_movesAt {c : Cursor} (hc : c.Sound) (desLen : Nat) :
    MovesAt (readDataBuffer c.position desLen) c (fun _ => 0) 0 := by
  have hshort := hc.short
  have hinside := hc.inside
  by_cases hmax : desLen > MMS_PDU_MAX_SIZE
  · exact MovesAt.of_failed hc (by simp only [readDataBuffer, cursor_bind, if_pos hmax]; rfl)
      (le_refl 0)
  · by_cases hsize : u32 (c.position + desLen) > c.octets.length
    · exact MovesAt.of_failed hc
        (by simp only [readDataBuffer, cursor_bind, if_neg hmax, if_pos hsize]; rfl) (le_refl 0)
    · by_cases hzero : desLen = 0
      · exact MovesAt.of_failed hc (by
          simp only [readDataBuffer, cursor_bind, if_neg hmax, if_neg hsize, if_pos hzero]
          rfl) (le_refl 0)
      · have hrun : readDataBuffer c.position desLen c =
            (.done ((c.octets.drop c.position).take desLen), ⟨c.octets, c.position,
              ⟨c.position, c.position, desLen⟩ :: c.trace⟩) := by
          simp only [readDataBuffer, cursor_bind, if_neg hmax, if_neg hsize, if_neg hzero]
          rfl
        have hrange : c.position + desLen ≤ c.octets.length := by
          simp only [u32, MMS_PDU_MAX_SIZE] at hmax hsize
          omega
        exact MovesAt.of_touch hc hrun hinside hrange (by simp)

theorem decodeUintvar_moves : Moves decodeUintvar (fun _ => 1) 0 := by
  refine Moves.bind getOneByte_moves (le_refl 0) fun first => ?_
  refine (Moves.loop (k := 0) (l := 0) ?_ _).mono (by simp) (by simp)
  rintro ⟨oneByte, uintVar, count⟩
  refine Moves.ite _ ?_ (Moves.pure _ (by simp))
  exact Moves.bind getOneByte_moves (le_refl 0) fun next => Moves.pure _ (by simp)

theorem decodeValueLengthReturnLen_moves :
    Moves decodeValueLengthReturnLen (fun _ => 1) (-1) := by
  refine Moves.bind (Moves.attempt getOneByte_moves) (le_refl _) fun r => ?_
  cases r with
  | none =>
      refine Moves.bind (Moves.attempt (decreasePointer_moves 1)) (le_refl _) fun r => ?_
      exact Moves.fail (by cases r <;> simp)
  | some oneByte =>
      refine Moves.ite _ (Moves.pure _ (by simp)) (Moves.ite _ ?_ (Moves.fail (by simp)))
      exact Moves.bind decodeUintvar_moves (by simp) fun r => Moves.pure _ (by simp)

theorem decodeValueLength_moves : Moves decodeValueLength (fun _ => 1) (-1) :=
  Moves.bind decodeValueLengthReturnLen_moves (le_refl _) fun _ => Moves.pure _ (by simp)

/-- Before an octet the value length does not move back. -/
theorem decodeValueLength_movesAt {c : Cursor} (hc : c.Sound)
    (h : c.position < c.octets.length) : MovesAt decodeValueLength c (fun _ => 1) 0 := by
  have hfirst : attempt getOneByte c = (.done (some (c.octets.getD c.position 0)),
      ⟨c.octets, c.position + 1, ⟨c.position + 1, c.position, 1⟩ :: c.trace⟩) := by
    rw [attempt, getOneByte_of_lt hc.short h]
  refine MovesAt.bind (k := fun _ => 1) ?_ fun _ _ _ hc' => MovesAt.pure hc' _ (by simp)
  refine MovesAt.bind (MovesAt.attempt (getOneByte_moves c hc)) fun r c' hrun hc' => ?_
  rw [hfirst, Prod.mk.injEq, Outcome.done.injEq] at hrun
  obtain ⟨rfl, -⟩ := hrun
  refine Moves.ite _ (Moves.pure _ (by simp)) (Moves.ite _ ?_ (Moves.fail (by simp))) c' hc'
  exact Moves.bind decodeUintvar_moves (by simp) fun r => Moves.pure _ (by simp)

/-- One round of the text loops moves ahead unless it is at the end. -/
theorem untilNul_round_moves (keep counts : UInt8 → Bool) (s : Octets × Nat) :
    Moves (untilNulRound keep counts s) (Sum.elim (fun _ => 1) (fun _ => 0)) 0 := by
  refine Moves.bind (Moves.attempt getOneByte_moves) (le_refl 0) fun r => ?_
  cases r with
  | none => exact Moves.pure _ (by simp)
  | some oneByte => exact Moves.ite _ (Moves.pure _ (by simp)) (Moves.pure _ (by simp))

theorem untilNul_moves (keep counts : UInt8 → Bool) (str : Octets) (len : Nat) :
    Moves (untilNul keep counts str len) (fun _ => 0) 0 :=
  Moves.loop (untilNul_round_moves keep counts) _

theorem untilNul_movesAt (keep counts : UInt8 → Bool) (str : Octets) (len : Nat) {c : Cursor}
    (hc : c.Sound) (h : c.position < c.octets.length) :
    MovesAt (untilNul keep counts str len) c (fun _ => 1) 0 := by
  have hfirst : attempt getOneByte c = (.done (some (c.octets.getD c.position 0)),
      ⟨c.octets, c.position + 1, ⟨c.position + 1, c.position, 1⟩ :: c.trace⟩) := by
    rw [attempt, getOneByte_of_lt hc.short h]
  refine Moves.loop_of_first (untilNul_round_moves keep counts) ?_
  refine MovesAt.bind (MovesAt.attempt (getOneByte_moves c hc)) fun r c' hrun hc' => ?_
  rw [hfirst, Prod.mk.injEq, Outcome.done.injEq] at hrun
  obtain ⟨rfl, -⟩ := hrun
  exact Moves.ite _ (Moves.pure _ (by simp)) (Moves.pure _ (by simp)) c' hc'

/-- A token text has an octet. -/
theorem decodeTokenText_moves : Moves decodeTokenText (fun _ => 1) 0 := by
  intro c hc
  by_cases h : c.position < c.octets.length
  · refine MovesAt.bind (peekOneByte_moves c hc) fun oneByte c' hrun hc' => ?_
    rw [peekOneByte_of_lt h, Prod.mk.injEq] at hrun
    obtain ⟨-, rfl⟩ := hrun
    by_cases htoken : 33 ≤ oneByte ∧ oneByte ≤ 126
    · rw [guard_of htoken]
      refine MovesAt.bind (k := fun _ => 0) (MovesAt.pure hc' () (le_refl 0))
        fun _ c'' hrun' _ => ?_
      rw [pure_run, Prod.mk.injEq] at hrun'
      obtain ⟨-, rfl⟩ := hrun'
      refine MovesAt.bind ((untilNul_movesAt _ _ _ _ hc' h).mono (fun _ => le_refl _) (by simp))
        fun r c'' _ hc'' => ?_
      exact Moves.bind (Moves.guard _ (le_refl 0)) (by simp)
        (fun _ => Moves.pure _ (by simp)) c'' hc''
    · rw [guard_of_not htoken]
      exact MovesAt.of_failed hc' (bind_of_failed rfl _) (by simp)
  · refine MovesAt.of_failed hc ?_ (le_refl 0)
    exact bind_of_failed (peekOneByte_of_ge (Nat.not_lt.mp h)) _

theorem decodeText_moves : Moves decodeText (fun _ => 0) 0 := by
  refine Moves.bind getOneByte_moves (le_refl 0) fun oneByte => Moves.ite _ ?_ ?_
  · refine Moves.bind (Moves.attempt (decreasePointer_moves 1)) (le_refl _) fun r => ?_
    exact (untilNul_moves _ _ _ _).mono (by cases r <;> simp) (by cases r <;> simp)
  · exact (untilNul_moves _ _ _ _).mono (by simp) (by simp)

theorem decodeQuotedText_moves : Moves decodeQuotedText (fun _ => 0) 0 := by
  refine Moves.bind (untilNul_moves _ _ _ _) (le_refl 0) fun r => ?_
  exact Moves.bind (Moves.guard _ (le_refl 0)) (by simp) fun _ => Moves.pure _ (by simp)

theorem decodeShortInteger_moves : Moves decodeShortInteger (fun _ => 1) 0 := by
  refine Moves.bind getOneByte_moves (le_refl 0) fun oneByte => ?_
  exact Moves.bind (Moves.guard _ (le_refl 0)) (by simp) fun _ => Moves.pure _ (by simp)

theorem longIntegerLoop_moves (n result : Nat) :
    Moves (longIntegerLoop n result) (fun _ => 0) 0 := by
  induction n generalizing result with
  | zero => exact Moves.pure _ (le_refl 0)
  | succ n ih =>
      refine Moves.bind getOneByte_moves (le_refl 0) fun oneByte => ?_
      exact (ih _).mono (by simp) (by simp)

theorem decodeLongInteger_moves : Moves decodeLongInteger (fun _ => 1) 0 := by
  refine Moves.bind getOneByte_moves (le_refl 0) fun oneByte => ?_
  refine Moves.bind (Moves.guard _ (le_refl 0)) (by simp) fun _ => ?_
  exact (longIntegerLoop_moves _ _).mono (by simp) (by simp)

theorem peekOrZero_moves : Moves peekOrZero (fun _ => 0) 0 := by
  refine Moves.bind (Moves.attempt peekOneByte_moves) (le_refl 0) fun r => ?_
  exact Moves.pure _ (by cases r <;> simp)

theorem decodeIsShortInt_moves : Moves decodeIsShortInt (fun _ => 0) 0 :=
  Moves.bind peekOrZero_moves (le_refl 0) fun _ => Moves.pure _ (by simp)

theorem decodeIsString_moves : Moves decodeIsString (fun _ => 0) 0 :=
  Moves.bind peekOrZero_moves (le_refl 0) fun _ => Moves.pure _ (by simp)

theorem decodeIsValueLength_moves : Moves decodeIsValueLength (fun _ => 0) 0 :=
  Moves.bind peekOrZero_moves (le_refl 0) fun _ => Moves.pure _ (by simp)

theorem decodeInteger_moves : Moves decodeInteger (fun _ => 1) 0 := by
  refine Moves.bind decodeIsShortInt_moves (le_refl 0) fun r => Moves.ite _ ?_ ?_
  · exact Moves.bind decodeShortInteger_moves (by simp) fun _ => Moves.pure _ (by simp)
  · exact decodeLongInteger_moves.mono (by simp) (by simp)

end TelephonySms.Mms
