import TelephonySms.Mms.Values

/-! # The WAP push buffer

`SmsWapPushBuffer` has the operations of `MmsDecodeBuffer`, but for a text without octets, which
it refuses. The lengths that are read with both are base-128 numbers of which the code keeps 32
bits.
-/

namespace TelephonySms.Wap

open OctetReader Reader Mms

/-! ## Operations -/

def decodeUintvar : Reader (Nat × Nat) := Mms.decodeUintvar

def decodeText : Reader (Octets × Nat) := do
  let (str, len) ← Mms.decodeText
  guard (len > 0)
  pure (str, len)

/-- `ReadDataBuffer`, which leaves the position alone. -/
def readDataBuffer (octets : Octets) (offset desLen : Nat) : Option Octets :=
  if desLen > MMS_PDU_MAX_SIZE then none
  else if desLen > octets.length ∨ offset + desLen > octets.length then none
  else if desLen = 0 then none -- `memcpy_s` refuses an empty destination
  else some ((octets.drop offset).take desLen)

/-! ## Base-128 numbers -/

/-- The number is returned with exactly its octets read if it has 32 bits, and refused else. -/
def UintvarExact (m : Reader (Nat × Nat)) (c : Cursor) : Prop :=
  (∀ value count, uintvarAhead 0 0 c.ahead = some (value, count) →
      value < 2 ^ 32 →
        (m c).1 = .done (value, count) ∧ (m c).2.position = c.position + count) ∧
    ((∀ value count, uintvarAhead 0 0 c.ahead = some (value, count) →
      2 ^ 32 ≤ value) → (m c).1 = .failed)

/-- A number of more than 32 bits is cut down. -/
theorem uintvarExact_iff (c : Cursor) (hshort : c.octets.length < 2 ^ 31) :
    UintvarExact Mms.decodeUintvar c ∧ UintvarExact decodeUintvar c ↔
      ∀ value count, uintvarAhead 0 0 c.ahead = some (value, count) →
        value < 2 ^ 32 := by
  change UintvarExact decodeUintvar c ∧ UintvarExact decodeUintvar c ↔ _
  rw [and_self]
  cases hahead : uintvarAhead 0 0 c.ahead with
  | none =>
      have hfailed : (decodeUintvar c).1 = .failed := decodeUintvar_of_none hshort hahead
      refine iff_of_true ⟨fun _ _ h => ?_, fun _ => hfailed⟩ fun _ _ h => nomatch h
      rw [hahead] at h
      cases h
  | some result =>
      rcases result with ⟨value, count⟩
      rcases decodeUintvar_of_some hshort hahead with ⟨c', htook, hrun⟩
      change Wap.decodeUintvar c = _ at hrun
      unfold UintvarExact
      rw [hahead, hrun, htook.moved]
      constructor
      · rintro ⟨-, hrefuses⟩ _ _ h
        cases h
        by_contra hlarge
        cases hrefuses fun _ _ h => by
          cases h
          omega
      · intro hfits
        refine ⟨fun _ _ h hlt => ?_, fun hlarge => ?_⟩
        · cases h
          rw [u32_of_lt hlt]
          exact ⟨rfl, rfl⟩
        · have hlt := hfits _ _ rfl
          have hge := hlarge _ _ rfl
          omega

/-- Two octets, of which the first says that there is another one. -/
theorem uintvarExact_two :
    UintvarExact Mms.decodeUintvar ⟨[0x81, 0x00], 0, []⟩ ∧
      UintvarExact decodeUintvar ⟨[0x81, 0x00], 0, []⟩ :=
  (uintvarExact_iff ⟨[0x81, 0x00], 0, []⟩ (by decide)).2 fun value count h => by
    have hvalue : uintvarAhead 0 0 (Cursor.ahead ⟨[0x81, 0x00], 0, []⟩) = some (128, 2) := by
      decide
    rw [hvalue] at h
    cases h
    decide

/-- Thirty-three bits are read as the low 32. -/
theorem not_uintvarExact :
    ¬ UintvarExact Mms.decodeUintvar ⟨[0x90, 0x80, 0x80, 0x80, 0x02], 0, []⟩ ∧
      ¬ UintvarExact decodeUintvar ⟨[0x90, 0x80, 0x80, 0x80, 0x02], 0, []⟩ := by
  have hahead : uintvarAhead 0 0 (Cursor.ahead ⟨[0x90, 0x80, 0x80, 0x80, 0x02], 0, []⟩) =
      some (2 ^ 32 + 2, 5) := by decide
  have hrun : (decodeUintvar ⟨[0x90, 0x80, 0x80, 0x80, 0x02], 0, []⟩).1 = .done (2, 5) := by decide
  have hwrapped : ¬ UintvarExact decodeUintvar ⟨[0x90, 0x80, 0x80, 0x80, 0x02], 0, []⟩ := by
    rintro ⟨-, hrefuses⟩
    rw [hahead, hrun] at hrefuses
    cases hrefuses fun _ _ h => by
      cases h
      omega
  exact ⟨hwrapped, hwrapped⟩

end TelephonySms.Wap
