import TelephonySms.Mms.DecodeBuffer

/-! # What the readers take

How many octets each reader takes is seen from the octets ahead. A text ends at the octet 0 or
where the buffer ends, and only in the first case has it taken one octet more than it counts.
-/

namespace TelephonySms.Mms

open OctetReader Reader

/-! ## Octets -/

section Octets

variable {c c' : Cursor} {b : UInt8} {os : Octets}

theorem getOneByte_of_ahead (hshort : c.octets.length < 2 ^ 31) (h : c.ahead = b :: os) :
    ∃ c', getOneByte c = (.done b, c') ∧ Took c 1 c' := by
  rcases Cursor.ahead_eq_cons h with ⟨hlt, hget⟩
  have hrun := getOneByte_of_lt hshort hlt
  rw [hget] at hrun
  refine ⟨_, hrun, rfl, rfl, ?_⟩
  rw [h, List.length_cons]
  omega

theorem getOneByte_of_nil (h : c.ahead = []) : getOneByte c = (.failed, c) :=
  getOneByte_of_ge (c.ahead_eq_nil_iff.1 h)

theorem took_of_getOneByte (hshort : c.octets.length < 2 ^ 31)
    (h : getOneByte c = (.done b, c')) : Took c 1 c' ∧ c.ahead = b :: c'.ahead := by
  cases hahead : c.ahead with
  | nil =>
      rw [getOneByte_of_nil hahead] at h
      cases h
  | cons o os =>
      rcases getOneByte_of_ahead hshort hahead with ⟨c₁, hrun, htook⟩
      rw [hrun, Prod.mk.injEq, Outcome.done.injEq] at h
      rcases h with ⟨rfl, rfl⟩
      have hrest := htook.ahead_eq
      rw [hahead, List.drop_one, List.tail_cons] at hrest
      exact ⟨htook, by rw [hrest]⟩

theorem took_of_peekOneByte (h : peekOneByte c = (.done b, c')) :
    Took c 0 c' ∧ ∃ os, c.ahead = b :: os := by
  cases hahead : c.ahead with
  | nil =>
      rw [peekOneByte_of_ge (c.ahead_eq_nil_iff.1 hahead)] at h
      cases h
  | cons o os =>
      rcases Cursor.ahead_eq_cons hahead with ⟨hlt, hget⟩
      rw [peekOneByte_of_lt hlt, Prod.mk.injEq, Outcome.done.injEq, hget] at h
      rcases h with ⟨rfl, rfl⟩
      exact ⟨⟨rfl, rfl, Nat.zero_le _⟩, os, rfl⟩

/-- The octet ahead, 0 at the end. -/
theorem took_of_peekOrZero (h : peekOrZero c = (.done b, c')) :
    Took c 0 c' ∧ b = c.ahead.headD 0 := by
  cases hahead : c.ahead with
  | nil =>
      have hpeek := peekOneByte_of_ge (c.ahead_eq_nil_iff.1 hahead)
      rw [peekOrZero, bind_run, attempt, hpeek] at h
      cases h
      exact ⟨Took.refl c, rfl⟩
  | cons o os =>
      rcases Cursor.ahead_eq_cons hahead with ⟨hlt, hget⟩
      rw [peekOrZero, bind_run, attempt, peekOneByte_of_lt hlt, hget] at h
      cases h
      exact ⟨⟨rfl, rfl, Nat.zero_le _⟩, rfl⟩

theorem took_of_increasePointer {n : Nat} (hshort : c.octets.length < 2 ^ 31)
    (hc : c.position ≤ c.octets.length) (h : increasePointer n c = (.done (), c')) :
    Took c n c' := by
  have hlen := c.length_ahead
  rw [increasePointer, cursor_bind] at h
  split at h
  · cases h
  · next hin =>
      cases h
      rw [u32] at hin
      exact ⟨rfl, u32_of_lt (by omega), by omega⟩

/-- A pointer that is moved back over what was taken. -/
theorem decreasePointer_back (h : Took c 1 c') :
    ∃ c'', decreasePointer 1 c' = (.done (), c'') ∧ Took c 0 c'' := by
  refine ⟨⟨c'.octets, c.position, ⟨c.position, c'.position, 0⟩ :: c'.trace⟩, ?_, h.same, rfl,
    Nat.zero_le _⟩
  have hback : ¬ 1 > c'.position := by
    rw [h.moved]
    omega
  rw [decreasePointer, cursor_bind, if_neg hback, h.moved]
  rfl

end Octets

/-! ## Lengths -/

/-- The number that follows the digits of `value`, up to the first octet without a continuation
bit, and how many octets there are then. -/
def uintvarAhead (value count : Nat) : Octets → Option (Nat × Nat)
  | [] => none
  | b :: os =>
      if b.toNat < 128 then some (value * 128 + b.toNat, count + 1)
      else uintvarAhead (value * 128 + (b.toNat - 128)) (count + 1) os

theorem count_lt_of_uintvarAhead {os : Octets} {value count n k : Nat}
    (h : uintvarAhead value count os = some (n, k)) : count < k := by
  induction os generalizing value count with
  | nil => cases h
  | cons b os ih =>
      rw [uintvarAhead] at h
      split at h
      · cases h
        omega
      · have hrest := ih h
        omega

theorem toNat_and_0x7f (b : UInt8) : (b &&& 0x7f).toNat = b.toNat % 128 := by
  rw [UInt8.toNat_and]
  exact Nat.and_two_pow_sub_one_eq_mod b.toNat 7

theorem and_0x80_eq_zero_iff (b : UInt8) : b &&& 0x80 = 0 ↔ b.toNat < 128 := by
  obtain ⟨f⟩ := b
  revert f
  decide

theorem shift_or_digit {v d : Nat} (hd : d < 128) : v <<< 7 ||| d = v * 128 + d := by
  rw [Nat.shiftLeft_eq, Nat.mul_comm v, ← Nat.two_pow_add_eq_or_of_lt hd]

/-- The body of the loop of `DecodeUintvar`. -/
def uintvarRound (s : UInt8 × Nat × Nat) : Reader ((UInt8 × Nat × Nat) ⊕ (Nat × Nat)) :=
  let shifted := u32 (s.2.1 <<< 7) ||| (s.1 &&& 0x7f).toNat
  if s.1 &&& 0x80 ≠ 0 then do
    let next ← getOneByte
    pure (.inl (next, shifted, s.2.2 + 1))
  else
    pure (.inr (shifted, s.2.2))

theorem decodeUintvar_eq : decodeUintvar = (do
    let first ← getOneByte
    loop uintvarRound (first, 0, 1)) := rfl

/-- A digit behind the low 32 bits of a number. -/
theorem shifted_eq (value : Nat) (b : UInt8) :
    u32 (u32 value <<< 7) ||| (b &&& 0x7f).toNat = u32 (value * 128 + b.toNat % 128) := by
  have hlt := Nat.mod_lt b.toNat (show 128 > 0 by decide)
  have hshift : u32 (u32 value <<< 7) = (value % 2 ^ 25) <<< 7 := by
    rw [u32, u32, Nat.shiftLeft_eq, Nat.shiftLeft_eq]
    omega
  rw [hshift, toNat_and_0x7f, shift_or_digit hlt, u32]
  omega

section Rounds

variable {b : UInt8} {value count fuel : Nat} {c : Cursor}

theorem uintvarRound_last (hb : b.toNat < 128) (value count : Nat) (c : Cursor) :
    uintvarRound (b, u32 value, count) c =
      (.done (.inr (u32 (value * 128 + b.toNat), count)), c) := by
  have hdigit := shifted_eq value b
  rw [Nat.mod_eq_of_lt hb] at hdigit
  rw [uintvarRound]
  simp only [(and_0x80_eq_zero_iff b).2 hb, ne_eq, not_true_eq_false, if_false, hdigit]
  rfl

theorem uintvarRound_next (hb : ¬ b.toNat < 128) (value count : Nat) :
    uintvarRound (b, u32 value, count) = (do
      let next ← getOneByte
      pure (.inl (next, u32 (value * 128 + (b.toNat - 128)), count + 1))) := by
  have hdigit := shifted_eq value b
  have hlow : b.toNat % 128 = b.toNat - 128 := by
    have hlt := b.toNat_lt
    omega
  have hhigh : b &&& 0x80 ≠ 0 := fun hzero => hb ((and_0x80_eq_zero_iff b).1 hzero)
  rw [hlow] at hdigit
  rw [uintvarRound]
  simp only [hhigh, ne_eq, not_false_eq_true, if_true, hdigit]

theorem not_lt_of_uintvarAhead {os : Octets} (h : uintvarAhead value count (b :: os) = none) :
    ¬ b.toNat < 128 := by
  intro hb
  rw [uintvarAhead, if_pos hb] at h
  cases h

theorem iterate_uintvarRound_some {n k : Nat} (hshort : c.octets.length < 2 ^ 31)
    (h : uintvarAhead value count (b :: c.ahead) = some (n, k)) (hfuel : c.ahead.length < fuel) :
    ∃ c', Took c (k - (count + 1)) c' ∧
      iterate uintvarRound fuel (b, u32 value, count + 1) c = (.done (u32 n, k), c') := by
  induction fuel generalizing b value count c with
  | zero => cases hfuel
  | succ fuel ih =>
      rw [uintvarAhead] at h
      by_cases hb : b.toNat < 128
      · rw [if_pos hb] at h
        cases h
        rw [iterate, bind_of_done (uintvarRound_last hb _ _ _), Nat.sub_self]
        exact ⟨c, Took.refl c, rfl⟩
      · rw [if_neg hb] at h
        cases hahead : c.ahead with
        | nil =>
            rw [hahead] at h
            cases h
        | cons o os =>
            rcases getOneByte_of_ahead hshort hahead with ⟨c₁, hget, htook⟩
            have hrest : c₁.ahead = os := by rw [htook.ahead_eq, hahead]; rfl
            rw [hahead] at h hfuel
            have hcount := count_lt_of_uintvarAhead h
            rcases ih (by rwa [htook.same]) (by rwa [hrest]) (by rw [hrest]; simpa using hfuel)
              with ⟨c₂, htook₂, hrun⟩
            have hall := htook.trans htook₂
            rw [show 1 + (k - (count + 1 + 1)) = k - (count + 1) by omega] at hall
            have hround : uintvarRound (b, u32 value, count + 1) c = (.done (.inl
                (o, u32 (value * 128 + (b.toNat - 128)), count + 1 + 1)), c₁) := by
              rw [uintvarRound_next hb, bind_of_done hget]
              rfl
            rw [iterate, bind_of_done hround]
            exact ⟨c₂, hall, hrun⟩

theorem iterate_uintvarRound_none (hshort : c.octets.length < 2 ^ 31)
    (h : uintvarAhead value count (b :: c.ahead) = none) (hfuel : c.ahead.length < fuel) :
    (iterate uintvarRound fuel (b, u32 value, count + 1) c).1 = .failed := by
  induction fuel generalizing b value count c with
  | zero => cases hfuel
  | succ fuel ih =>
      have hb := not_lt_of_uintvarAhead h
      rw [uintvarAhead, if_neg hb] at h
      cases hahead : c.ahead with
      | nil =>
          have hround : uintvarRound (b, u32 value, count + 1) c = (.failed, c) := by
            rw [uintvarRound_next hb, bind_of_failed (getOneByte_of_nil hahead)]
          rw [iterate, bind_of_failed hround]
      | cons o os =>
          rcases getOneByte_of_ahead hshort hahead with ⟨c₁, hget, htook⟩
          have hrest : c₁.ahead = os := by rw [htook.ahead_eq, hahead]; rfl
          rw [hahead] at h hfuel
          have hround : uintvarRound (b, u32 value, count + 1) c = (.done (.inl
              (o, u32 (value * 128 + (b.toNat - 128)), count + 1 + 1)), c₁) := by
            rw [uintvarRound_next hb, bind_of_done hget]
            rfl
          rw [iterate, bind_of_done hround]
          exact ih (by rwa [htook.same]) (by rwa [hrest]) (by rw [hrest]; simpa using hfuel)

theorem decodeUintvar_of_some {n k : Nat} (hshort : c.octets.length < 2 ^ 31)
    (h : uintvarAhead 0 0 c.ahead = some (n, k)) :
    ∃ c', Took c k c' ∧ decodeUintvar c = (.done (u32 n, k), c') := by
  cases hahead : c.ahead with
  | nil =>
      rw [hahead] at h
      cases h
  | cons b os =>
      rcases getOneByte_of_ahead hshort hahead with ⟨c₁, hget, htook⟩
      have hrest : c₁.ahead = os := by rw [htook.ahead_eq, hahead]; rfl
      rw [hahead, ← hrest] at h
      have hcount := count_lt_of_uintvarAhead h
      rcases iterate_uintvarRound_some (by rwa [htook.same]) h
        (by rw [c₁.length_ahead]; exact Nat.lt_succ_of_le (Nat.sub_le _ _)) with
        ⟨c₂, htook₂, hrun⟩
      have hall := htook.trans htook₂
      rw [show 1 + (k - (0 + 1)) = k by omega] at hall
      rw [decodeUintvar_eq, bind_of_done hget]
      exact ⟨c₂, hall, hrun⟩

theorem decodeUintvar_of_none (hshort : c.octets.length < 2 ^ 31)
    (h : uintvarAhead 0 0 c.ahead = none) : (decodeUintvar c).1 = .failed := by
  cases hahead : c.ahead with
  | nil => rw [decodeUintvar_eq, bind_of_failed (getOneByte_of_nil hahead)]
  | cons b os =>
      rcases getOneByte_of_ahead hshort hahead with ⟨c₁, hget, htook⟩
      have hrest : c₁.ahead = os := by rw [htook.ahead_eq, hahead]; rfl
      rw [hahead, ← hrest] at h
      rw [decodeUintvar_eq, bind_of_done hget]
      exact iterate_uintvarRound_none (by rwa [htook.same]) h
        (by rw [c₁.length_ahead]; exact Nat.lt_succ_of_le (Nat.sub_le _ _))

/-- A value length as it is encoded, and how many octets it has. -/
def lengthAhead : Octets → Option (Nat × Nat)
  | [] => none
  | b :: os =>
      if b ≤ 30 then some (b.toNat, 1)
      else if b = 0x1f then (uintvarAhead 0 0 os).map fun r => (r.1, r.2 + 1)
      else none

/-- The code keeps 32 bits of the length. -/
theorem took_of_decodeValueLengthReturnLen {c' : Cursor} {valueLength returnLength : Nat}
    (hshort : c.octets.length < 2 ^ 31)
    (h : decodeValueLengthReturnLen c = (.done (valueLength, returnLength), c')) :
    Took c returnLength c' ∧
      ∃ n, lengthAhead c.ahead = some (n, returnLength) ∧ valueLength = u32 n := by
  rcases bind_eq_done.1 h with ⟨r, c₁, hattempt, hrest⟩
  cases hahead : c.ahead with
  | nil =>
      rw [attempt, getOneByte_of_nil hahead] at hattempt
      cases hattempt
      rcases bind_eq_done.1 hrest with ⟨_, c₂, -, hfail⟩
      cases hfail
  | cons b os =>
      rcases getOneByte_of_ahead hshort hahead with ⟨c₂, hget, htook⟩
      rw [attempt, hget] at hattempt
      cases hattempt
      have hos : c₁.ahead = os := by rw [htook.ahead_eq, hahead]; rfl
      rw [lengthAhead]
      simp only at hrest
      by_cases hle : b ≤ 30
      · rw [if_pos hle] at hrest ⊢
        cases hrest
        have hlt : b.toNat < 2 ^ 32 := Nat.lt_trans b.toNat_lt (by decide)
        exact ⟨htook, b.toNat, rfl, (u32_of_lt hlt).symm⟩
      rw [if_neg hle] at hrest ⊢
      by_cases hquote : b = 0x1f
      · rw [if_pos hquote] at hrest ⊢
        rcases bind_eq_done.1 hrest with ⟨⟨uintvar, count⟩, c₃, huintvar, hpure⟩
        cases hdigits : uintvarAhead 0 0 os with
        | none =>
            have hfailed := decodeUintvar_of_none (c := c₁) (by rwa [htook.same]) (by rwa [hos])
            rw [huintvar] at hfailed
            cases hfailed
        | some result =>
            rcases result with ⟨n, k⟩
            rcases decodeUintvar_of_some (c := c₁) (by rwa [htook.same]) (by rwa [hos]) with
              ⟨c₄, htook₄, hrun⟩
            rw [hrun, Prod.mk.injEq, Outcome.done.injEq, Prod.mk.injEq] at huintvar
            rcases huintvar with ⟨⟨rfl, rfl⟩, rfl⟩
            have hall := htook.trans htook₄
            have hinside := hall.inside
            rw [c.length_ahead] at hinside
            have hwrap : u32 (k + 1) = 1 + k := by
              rw [u32_of_lt (by omega), Nat.add_comm]
            cases hpure
            rw [hwrap]
            exact ⟨hall, n, by rw [Option.map_some, Nat.add_comm], rfl⟩
      · rw [if_neg hquote] at hrest
        cases hrest

end Rounds

/-! ## Texts -/

/-- The octets up to the octet 0, or up to the end. -/
def textAhead (os : Octets) : Octets := os.takeWhile (· ≠ 0)

/-- The octets of a text with its octet 0, if there is one. -/
def textExtent (os : Octets) : Nat := min ((textAhead os).length + 1) os.length

theorem textExtent_le (os : Octets) : textExtent os ≤ os.length := Nat.min_le_right _ _

theorem textAhead_cons_of_ne {b : UInt8} (hb : b ≠ 0) (os : Octets) :
    textAhead (b :: os) = b :: textAhead os := List.takeWhile_cons_of_pos (by simpa using hb)

theorem textExtent_cons_of_ne {b : UInt8} (hb : b ≠ 0) (os : Octets) :
    textExtent (b :: os) = 1 + textExtent os := by
  rw [textExtent, textExtent, textAhead_cons_of_ne hb, List.length_cons, List.length_cons]
  omega

theorem length_textAhead_le (os : Octets) : (textAhead os).length ≤ os.length :=
  (List.takeWhile_sublist _).length_le

/-- A text counts the octets that it takes, but for its end. -/
theorem textExtent_cases (os : Octets) :
    textExtent os = (textAhead os).length + 1 ∨
      textExtent os = (textAhead os).length ∧ textExtent os = os.length := by
  have hle := length_textAhead_le os
  rw [textExtent]
  omega

theorem textExtent_eq_succ_iff (os : Octets) :
    textExtent os = (textAhead os).length + 1 ↔ 0 ∈ os := by
  induction os with
  | nil => simp [textExtent, textAhead]
  | cons b os ih =>
      by_cases hb : b = 0
      · subst hb
        simp [textExtent, textAhead]
      · rw [textExtent_cons_of_ne hb, textAhead_cons_of_ne hb, List.length_cons, List.mem_cons]
        have hne : (0 : UInt8) ≠ b := fun heq => hb heq.symm
        rw [← ih]
        simp only [hne, false_or]
        omega

section Texts

variable {c c' : Cursor} {keep counts : UInt8 → Bool} {str : Octets} {len : Nat}

theorem untilNulRound_of_nil (h : c.ahead = []) :
    untilNulRound keep counts (str, len) c = (.done (.inr (str, len)), c) := by
  rw [untilNulRound, bind_run, attempt, getOneByte_of_nil h]
  rfl

theorem untilNulRound_of_cons {b : UInt8} {os : Octets} (hshort : c.octets.length < 2 ^ 31)
    (h : c.ahead = b :: os) :
    ∃ c', Took c 1 c' ∧ untilNulRound keep counts (str, len) c =
      (.done (if b ≠ 0 then .inl (if keep b then str ++ [b] else str,
        if counts b then len + 1 else len) else .inr (str, len)), c') := by
  rcases getOneByte_of_ahead hshort h with ⟨c', hrun, htook⟩
  refine ⟨c', htook, ?_⟩
  rw [untilNulRound, bind_run, attempt, hrun]
  dsimp only
  split
  · rfl
  · rfl

theorem iterate_untilNulRound (hshort : c.octets.length < 2 ^ 31) {fuel : Nat}
    (hfuel : c.ahead.length < fuel) :
    ∃ c', Took c (textExtent c.ahead) c' ∧
      iterate (untilNulRound keep counts) fuel (str, len) c =
        (.done (str ++ (textAhead c.ahead).filter keep,
          len + (textAhead c.ahead).countP counts), c') := by
  induction fuel generalizing c str len with
  | zero => cases hfuel
  | succ fuel ih =>
      cases hahead : c.ahead with
      | nil =>
          rw [iterate, bind_of_done (untilNulRound_of_nil hahead)]
          exact ⟨c, Took.refl c, by simp [textAhead]⟩
      | cons b os =>
          rcases untilNulRound_of_cons hshort hahead with ⟨c₁, htook, hround⟩
          rw [iterate, bind_of_done hround]
          by_cases hb : b = 0
          · subst hb
            refine ⟨c₁, ?_, by simp [textAhead]⟩
            simpa [textExtent, textAhead] using htook
          · have hrest : c₁.ahead = os := by rw [htook.ahead_eq, hahead]; rfl
            have hlength : c₁.ahead.length < fuel := by
              rw [hahead, List.length_cons] at hfuel
              rw [hrest]
              omega
            rcases ih (by rwa [htook.same]) hlength with ⟨c₂, htook₂, hrun⟩
            rw [hrest] at htook₂ hrun
            refine ⟨c₂, ?_, ?_⟩
            · rw [textExtent_cons_of_ne hb]
              exact htook.trans htook₂
            · rw [if_pos hb]
              dsimp only
              rw [hrun, textAhead_cons_of_ne hb, List.filter_cons, List.countP_cons]
              by_cases hkeep : keep b = true <;> by_cases hcounts : counts b = true <;>
                simp [hkeep, hcounts, Nat.add_assoc, Nat.add_comm 1]

theorem untilNul_run (keep counts : UInt8 → Bool) (str : Octets) (len : Nat)
    (hshort : c.octets.length < 2 ^ 31) :
    ∃ c', Took c (textExtent c.ahead) c' ∧ untilNul keep counts str len c =
      (.done (str ++ (textAhead c.ahead).filter keep,
        len + (textAhead c.ahead).countP counts), c') :=
  iterate_untilNulRound hshort (by rw [Cursor.length_ahead]; omega)

/-- A quote in front of the text. -/
def unquoted : Octets → Octets
  | [] => []
  | b :: os => if b = 127 then os else b :: os

/-- The text without its quote is returned, and the quote is counted. -/
theorem decodeText_run (hshort : c.octets.length < 2 ^ 31) (hne : c.ahead ≠ []) :
    ∃ c', Took c (textExtent c.ahead) c' ∧
      decodeText c = (.done (textAhead (unquoted c.ahead), (textAhead c.ahead).length), c') := by
  cases hahead : c.ahead with
  | nil => exact absurd hahead hne
  | cons b os =>
      rcases getOneByte_of_ahead hshort hahead with ⟨c₁, hget, htook⟩
      rw [decodeText, bind_of_done hget, unquoted]
      by_cases hb : b = 127
      · have hrest : c₁.ahead = os := by rw [htook.ahead_eq, hahead]; rfl
        have hquote : b ≠ 0 := by rw [hb]; decide
        rcases untilNul_run (c := c₁) (fun _ => true) (fun _ => true) [] 1 (by rwa [htook.same])
          with ⟨c₂, htook₂, hrun⟩
        rw [hrest] at htook₂ hrun
        refine ⟨c₂, by rw [textExtent_cons_of_ne hquote]; exact htook.trans htook₂, ?_⟩
        rw [if_neg (not_not.2 hb), if_pos hb, hrun, textAhead_cons_of_ne hquote, List.length_cons]
        simp [Nat.add_comm]
      · rcases decreasePointer_back htook with ⟨c₂, hback, htook₂⟩
        rcases untilNul_run (c := c₂) (fun _ => true) (fun _ => true) [] 0 (by rwa [htook₂.same])
          with ⟨c₃, htook₃, hrun⟩
        have hrest : c₂.ahead = b :: os := by rw [htook₂.ahead_eq, hahead]; rfl
        rw [hrest] at htook₃ hrun
        refine ⟨c₃, by simpa using htook₂.trans htook₃, ?_⟩
        have hattempt : attempt (decreasePointer 1) c₁ = (.done (some ()), c₂) := by
          rw [attempt, hback]
        rw [if_pos hb, if_neg hb, bind_of_done hattempt, hrun]
        simp

/-- What a reader of texts takes and counts, and that it does not refuse a text with octets. -/
structure ReadsText (text : Reader (Octets × Nat)) : Prop where
  takes : ∀ c c' str len, c.octets.length < 2 ^ 31 → text c = (.done (str, len), c') →
    Took c (textExtent c.ahead) c' ∧ len = (textAhead c.ahead).length
  returns : ∀ c b os, c.octets.length < 2 ^ 31 → c.ahead = b :: os → b ≠ 0 →
    ∃ str len c', text c = (.done (str, len), c')

theorem decodeText_readsText : ReadsText decodeText where
  takes := by
    intro c c' str len hshort h
    have hne : c.ahead ≠ [] := by
      intro hnil
      rw [decodeText, bind_of_failed (getOneByte_of_nil hnil)] at h
      cases h
    rcases decodeText_run hshort hne with ⟨c₁, htook, hrun⟩
    rw [hrun] at h
    cases h
    exact ⟨htook, rfl⟩
  returns := by
    intro c b os hshort hahead _
    rcases decodeText_run hshort (by rw [hahead]; exact List.cons_ne_nil b os) with
      ⟨c₁, -, hrun⟩
    exact ⟨_, _, c₁, hrun⟩

end Texts

/-! ## Integers -/

/-- The octets of an integer. -/
def integerExtent : Octets → Nat
  | [] => 0
  | b :: _ => if b > 0x7f then 1 else 1 + b.toNat

section Integers

variable {c c' : Cursor}

theorem took_of_longIntegerLoop {n result value : Nat} (hshort : c.octets.length < 2 ^ 31)
    (h : longIntegerLoop n result c = (.done value, c')) : Took c n c' := by
  induction n generalizing result c with
  | zero =>
      cases h
      exact Took.refl _
  | succ n ih =>
      rcases bind_eq_done.1 h with ⟨b, c₁, hget, hrest⟩
      have htook := (took_of_getOneByte hshort hget).1
      rw [Nat.add_comm]
      exact htook.trans (ih (by rwa [htook.same]) hrest)

theorem took_of_decodeInteger {value : Nat} (hshort : c.octets.length < 2 ^ 31)
    (h : decodeInteger c = (.done value, c')) : Took c (integerExtent c.ahead) c' := by
  rcases bind_eq_done.1 h with ⟨_, c₁, hpeek, hread⟩
  rcases bind_eq_done.1 hpeek with ⟨b, c₂, hzero, hpure⟩
  cases hpure
  rcases took_of_peekOrZero hzero with ⟨htook, hb⟩
  have hshort₁ : c₁.octets.length < 2 ^ 31 := by rwa [htook.same]
  have hahead : c₁.ahead = c.ahead := by simpa using htook.ahead_eq
  split at hread
  · next hhigh =>
      rcases bind_eq_done.1 hread with ⟨_, c₃, hshortInteger, hpure⟩
      cases hpure
      rcases bind_eq_done.1 hshortInteger with ⟨o, c₄, hget, hrest⟩
      rcases bind_eq_done.1 hrest with ⟨_, c₅, hguard, hpure⟩
      cases hpure
      rcases guard_eq_done.1 hguard with ⟨ho, rfl⟩
      rcases took_of_getOneByte hshort₁ hget with ⟨htook₁, hcons⟩
      rw [← hahead, hcons, integerExtent, if_pos ho]
      simpa using htook.trans htook₁
  · next hlow =>
      rcases bind_eq_done.1 hread with ⟨o, c₃, hget, hrest⟩
      rcases bind_eq_done.1 hrest with ⟨_, c₄, hguard, hloop⟩
      rcases guard_eq_done.1 hguard with ⟨ho, rfl⟩
      rcases took_of_getOneByte hshort₁ hget with ⟨htook₁, hcons⟩
      have htook₂ := took_of_longIntegerLoop (by rwa [htook₁.same]) hloop
      have hnot : ¬ o > 0x7f := by
        rw [UInt8.le_iff_toNat_le] at ho
        rw [gt_iff_lt, UInt8.lt_iff_toNat_lt]
        have h8 : (8 : UInt8).toNat = 8 := rfl
        have h7f : (0x7f : UInt8).toNat = 127 := rfl
        omega
      rw [← hahead, hcons, integerExtent, if_neg hnot]
      simpa using htook.trans (htook₁.trans htook₂)

end Integers

end TelephonySms.Mms
