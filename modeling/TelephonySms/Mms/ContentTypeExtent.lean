import TelephonySms.Mms.ContentTypeReading
import TelephonySms.Mms.Extent

/-! # The octets of a content type

In its general form a content type says how many octets it has, and the parameters are read until
that many are counted. The octets that are read are as many if the parameters fill the declared
length, and else they are more or less.

The parameters of a WAP push are read by the same code, with another reader of texts.
-/

namespace TelephonySms.Mms

open OctetReader Reader ContentParam

/-! ## Parameters with any reader of texts -/

section Readers

variable (text : Reader (Octets × Nat)) (param : MmsContentParam) (valueLength : Int)

def textFieldWith (field : UInt8) : Reader (MmsContentParam × Int) := do
  let (str, len) ← text
  pure (param.insert field str, i32 (i32 (valueLength - i32 len) - 1))

def charsetFieldWith : Reader (MmsContentParam × Int) := do
  let oneByte ← peekOneByte
  if (oneByte > 32 ∧ oneByte < 127) ∨ oneByte = 0 then do
    let (sCharset, len) ← text
    match getCharSetIntFromString sCharset with
    | none => fail
    | some charset =>
        pure ({ param with charset := charset }, i32 (valueLength - i32 (u32 (len + 1))))
  else do
    let startPosition ← getCurPosition
    let tmp ← decodeInteger
    let endPosition ← getCurPosition
    pure ({ param with charset := u32 tmp },
      if endPosition ≥ startPosition then i32 (valueLength - i32 ↑(endPosition - startPosition))
      else valueLength)

def typeFieldWith : Reader (MmsContentParam × Int) := do
  let oneByte ← getOneByte
  if oneByte > 0x7f then
    pure ({ param with type := getContentTypeFromInt (oneByte &&& 0x7f) }, i32 (valueLength - 1))
  else do
    decreasePointer 1
    let (sType, len) ← text
    pure ({ param with type := sType }, i32 (i32 (valueLength - i32 len) - 1))

/-- One round of `DecodeParameter`. -/
def oneParameterWith (state : MmsContentParam × Int) :
    Reader ((MmsContentParam × Int) ⊕ MmsContentParam) :=
  if state.2 > 0 then do
    let paramCode ← getOneByte
    let valueLength := i32 (state.2 - 1)
    if paramCode = CT_P_CHARSET then do
      let next ← charsetFieldWith text state.1 valueLength
      pure (.inl next)
    else if paramCode ∈ textParams then do
      let next ← textFieldWith text state.1 valueLength paramCode
      pure (.inl next)
    else if paramCode = CT_P_TYPE ∨ paramCode = CT_P_TYPE_STRING then do
      let next ← typeFieldWith text state.1 valueLength
      pure (.inl next)
    else do
      increasePointer (valueLength % 2 ^ 32).toNat
      pure (.inl (state.1, 0))
  else
    pure (.inr state.1)

def parameterWith : Reader MmsContentParam := loop (oneParameterWith text) (param, valueLength)

/-- `Media-type = (Well-known-media | Extension-Media) *(Parameter)`, behind a value length. -/
def mediaTypeWith {γ : Type} (contentType : MmsContentType) (valueLength : Nat)
    (contentLength : γ) : Reader (MmsContentType × γ) := do
  let oneByte ← peekOneByte
  if ← decodeIsShortInt then do
    increasePointer 1
    guard (valueLength ≠ 0)
    let param ← parameterWith text contentType.msgContentParm (i32 ↑(valueLength - 1))
    pure (⟨getContentTypeFromInt (oneByte &&& 0x7f), param⟩, contentLength)
  else if ← decodeIsString then do
    let text' ← attempt text
    let (sType, len) := text'.getD ([], 0)
    let rest := if valueLength < u32 (len + 1) then 0 else valueLength - len - 1
    let param ← parameterWith text contentType.msgContentParm (i32 rest)
    pure (⟨sType, param⟩, contentLength)
  else
    fail

end Readers

/-- `Content-general-form = Value-length Media-type` -/
def valueLengthThen {α : Type} (f : Nat → Nat → Reader α) : Reader α := do
  guard (← decodeIsValueLength)
  let (valueLength, returnLength) ← decodeValueLengthReturnLen
  f valueLength returnLength

theorem decodeMmsCTGeneralForm_eq (contentType : MmsContentType) :
    decodeMmsCTGeneralForm contentType = valueLengthThen (fun valueLength returnLength => do
      let totalLength := u64 (valueLength + returnLength)
      guard (totalLength < 2 ^ 31)
      mediaTypeWith decodeText contentType valueLength totalLength) := rfl

/-! ## Extents -/

def charsetExtent : Octets → Nat
  | [] => 0
  | b :: os => if (b > 32 ∧ b < 127) ∨ b = 0 then textExtent (b :: os) else integerExtent (b :: os)

def typeExtent : Octets → Nat
  | [] => 0
  | b :: os => if b > 0x7f then 1 else textExtent (b :: os)

/-- The octets of the value behind a parameter's code, none if the code is not known. -/
def valueExtent (code : UInt8) (os : Octets) : Option Nat :=
  if code = CT_P_CHARSET then some (charsetExtent os)
  else if code ∈ textParams then some (textExtent os)
  else if code = CT_P_TYPE ∨ code = CT_P_TYPE_STRING then some (typeExtent os)
  else none

/-- The next `n` octets are complete parameters. A parameter that is not known takes them all. -/
inductive FilledBy : Nat → Octets → Prop
  | nil (os : Octets) : FilledBy 0 os
  | known {code : UInt8} {os : Octets} {k n : Nat} (h : valueExtent code os = some k)
      (hk : k ≤ os.length) (hrest : FilledBy n (os.drop k)) : FilledBy (1 + k + n) (code :: os)
  | unknown {code : UInt8} {os : Octets} {n : Nat} (h : valueExtent code os = none)
      (hn : n ≤ os.length) : FilledBy (1 + n) (code :: os)

/-- The next `n` octets are a type and complete parameters. -/
def MediaFilledBy (n : Nat) (os : Octets) : Prop :=
  ∃ k, n = typeExtent os + k ∧ FilledBy k (os.drop (typeExtent os))

theorem FilledBy.le {n : Nat} {os : Octets} (h : FilledBy n os) : n ≤ os.length := by
  induction h with
  | nil os => exact Nat.zero_le _
  | known h hk hrest ih =>
      rw [List.length_drop] at ih
      rw [List.length_cons]
      omega
  | unknown h hn =>
      rw [List.length_cons]
      omega

theorem filledBy_cons_of_known {code : UInt8} {os : Octets} {k n : Nat}
    (h : valueExtent code os = some k) (hk : k ≤ os.length) :
    FilledBy (n + 1) (code :: os) ↔ ∃ m, n = k + m ∧ FilledBy m (os.drop k) := by
  constructor
  · intro hfilled
    generalize hlength : n + 1 = length at hfilled
    cases hfilled with
    | nil => omega
    | @known _ _ k' m h' hk' hrest =>
        rw [h] at h'
        cases h'
        exact ⟨m, by omega, hrest⟩
    | unknown h' hn =>
        rw [h] at h'
        cases h'
  · rintro ⟨m, rfl, hrest⟩
    have hfilled := FilledBy.known h hk hrest
    rwa [show k + m + 1 = 1 + k + m by omega]

theorem filledBy_cons_of_unknown {code : UInt8} {os : Octets} {n : Nat}
    (h : valueExtent code os = none) : FilledBy (n + 1) (code :: os) ↔ n ≤ os.length := by
  constructor
  · intro hfilled
    have hle := hfilled.le
    rw [List.length_cons] at hle
    omega
  · intro hn
    rw [Nat.add_comm]
    exact FilledBy.unknown h hn

theorem filledBy_nil_iff (n : Nat) : FilledBy n [] ↔ n = 0 := by
  constructor
  · exact fun h => Nat.le_zero.1 h.le
  · rintro rfl
    exact FilledBy.nil []

theorem typeExtent_le (os : Octets) : typeExtent os ≤ os.length := by
  cases os with
  | nil => exact Nat.zero_le _
  | cons b os =>
      rw [typeExtent]
      split
      · rw [List.length_cons]
        omega
      · exact textExtent_le _

theorem MediaFilledBy.le {n : Nat} {os : Octets} (h : MediaFilledBy n os) : n ≤ os.length := by
  rcases h with ⟨k, rfl, hrest⟩
  have hle := hrest.le
  have htype := typeExtent_le os
  rw [List.length_drop] at hle
  omega

/-! ## Values -/

/-- A value of `k` octets is read. Only a text at the end counts one octet more. -/
structure ValueTaken (v : Int) (k : Nat) (c : Cursor) (v' : Int) (c' : Cursor) : Prop where
  took : Took c k c'
  left : v' = v - k ∨ v' = v - k - 1 ∧ c'.ahead = []

section Values

variable {text : Reader (Octets × Nat)} {param param' : MmsContentParam} {v v' : Int}
variable {c c' : Cursor}

/-- What is left behind a text. -/
theorem valueTaken_of_text {len : Nat} (htook : Took c (textExtent c.ahead) c')
    (hlen : len = (textAhead c.ahead).length) (hv' : v' = v - len - 1) :
    ValueTaken v (textExtent c.ahead) c v' c' := by
  refine ⟨htook, ?_⟩
  rcases textExtent_cases c.ahead with hterminated | ⟨hend, hall⟩
  · left
    omega
  · right
    rw [htook.ahead_eq, List.drop_eq_nil_iff]
    omega

theorem length_text_lt {len : Nat} (hshort : c.octets.length < 2 ^ 31)
    (hlen : len = (textAhead c.ahead).length) : len < 2 ^ 31 := by
  have hle := length_textAhead_le c.ahead
  rw [c.length_ahead] at hle
  omega

theorem i32_sub_i32 (v n : Int) : i32 (v - i32 n) = i32 (v - n) := Int.sub_bmod_bmod

theorem textLeft_eq {len : Nat} (hv : 0 ≤ v) (hlt : v < 2 ^ 31) (hlen : len < 2 ^ 31) :
    i32 (i32 (v - i32 len) - 1) = v - len - 1 := by
  rw [i32_sub_i32, i32_of_lt (n := v - len) (by omega) (by omega), i32_of_lt (by omega) (by omega)]

theorem textFieldWith_taken {field : UInt8} (htext : ReadsText text)
    (hshort : c.octets.length < 2 ^ 31) (hv : 0 ≤ v) (hlt : v < 2 ^ 31)
    (h : textFieldWith text param v field c = (.done (param', v'), c')) :
    ValueTaken v (textExtent c.ahead) c v' c' := by
  rcases bind_eq_done.1 h with ⟨⟨str, len⟩, c₁, hread, hpure⟩
  rcases htext.takes _ _ _ _ hshort hread with ⟨htook, hlen⟩
  have hleft := textLeft_eq hv hlt (length_text_lt hshort hlen)
  cases hpure
  exact valueTaken_of_text htook hlen hleft

theorem typeFieldWith_taken (htext : ReadsText text) (hshort : c.octets.length < 2 ^ 31)
    (hv : 0 ≤ v) (hlt : v < 2 ^ 31)
    (h : typeFieldWith text param v c = (.done (param', v'), c')) :
    ValueTaken v (typeExtent c.ahead) c v' c' := by
  rcases bind_eq_done.1 h with ⟨b, c₁, hget, hread⟩
  rcases took_of_getOneByte hshort hget with ⟨htook, hcons⟩
  rw [hcons, typeExtent]
  split at hread
  · next hhigh =>
      cases hread
      rw [if_pos hhigh]
      exact ⟨htook, Or.inl (i32_of_lt (by omega) (by omega))⟩
  · next hlow =>
      rcases decreasePointer_back htook with ⟨c₂, hback, htook₂⟩
      rw [bind_of_done hback] at hread
      rcases bind_eq_done.1 hread with ⟨⟨str, len⟩, c₃, hstring, hpure⟩
      have hshort₂ : c₂.octets.length < 2 ^ 31 := by rwa [htook₂.same]
      have hahead : c₂.ahead = c.ahead := htook₂.ahead_eq
      rcases htext.takes _ _ _ _ hshort₂ hstring with ⟨htook₃, hlen⟩
      have hleft := textLeft_eq hv hlt (length_text_lt hshort₂ hlen)
      rw [hahead] at htook₃ hlen
      have hall := htook₂.trans htook₃
      rw [Nat.zero_add] at hall
      cases hpure
      rw [if_neg hlow, ← hcons]
      exact valueTaken_of_text hall hlen hleft

theorem charsetFieldWith_taken (htext : ReadsText text) (hshort : c.octets.length < 2 ^ 31)
    (hv : 0 ≤ v) (hlt : v < 2 ^ 31)
    (h : charsetFieldWith text param v c = (.done (param', v'), c')) :
    ValueTaken v (charsetExtent c.ahead) c v' c' := by
  rcases bind_eq_done.1 h with ⟨b, c₁, hpeek, hread⟩
  rcases took_of_peekOneByte hpeek with ⟨htook, os, hcons⟩
  have hshort₁ : c₁.octets.length < 2 ^ 31 := by rwa [htook.same]
  have hahead : c₁.ahead = c.ahead := htook.ahead_eq
  rw [hcons, charsetExtent, ← hcons]
  split at hread
  · next hname =>
      rcases bind_eq_done.1 hread with ⟨⟨sCharset, len⟩, c₂, hstring, hrest⟩
      rcases htext.takes _ _ _ _ hshort₁ hstring with ⟨htook₂, hlen⟩
      have hlenLt := length_text_lt hshort₁ hlen
      rw [hahead] at htook₂ hlen
      have hall := htook.trans htook₂
      rw [Nat.zero_add] at hall
      rw [if_pos hname]
      cases hcharset : getCharSetIntFromString sCharset with
      | none =>
          simp only [hcharset] at hrest
          cases hrest
      | some charset =>
          simp only [hcharset] at hrest
          cases hrest
          refine valueTaken_of_text hall hlen ?_
          rw [u32_of_lt (by omega), i32_sub_i32, i32_of_lt (by omega) (by omega)]
          omega
  · next hnumber =>
      rcases bind_eq_done.1 hread with ⟨startPosition, c₂, hstart, hrest⟩
      cases hstart
      rcases bind_eq_done.1 hrest with ⟨tmp, c₃, hinteger, hrest⟩
      rcases bind_eq_done.1 hrest with ⟨endPosition, c₄, hend, hpure⟩
      cases hend
      cases hpure
      have htook₂ := took_of_decodeInteger hshort₁ hinteger
      rw [hahead] at htook₂
      have hall := htook.trans htook₂
      rw [Nat.zero_add] at hall
      have hinside := hall.inside
      rw [c.length_ahead] at hinside
      rw [if_neg hnumber]
      refine ⟨hall, Or.inl ?_⟩
      rw [htook₂.moved, if_pos (by omega), Nat.add_sub_cancel_left, i32_sub_i32,
        i32_of_lt (by omega) (by omega)]

end Values

/-! ## The parameters -/

section Walk

variable {text : Reader (Octets × Nat)} {param result : MmsContentParam} {c c' : Cursor}

theorem oneParameterWith_of_nonpos {v : Int} (hv : v ≤ 0) :
    oneParameterWith text (param, v) c = (.done (.inr param), c) := by
  rw [oneParameterWith, if_neg (by omega)]
  rfl

theorem oneParameterWith_of_nil {v : Int} (hv : 0 < v) (h : c.ahead = []) :
    oneParameterWith text (param, v) c = (.failed, c) := by
  rw [oneParameterWith, if_pos hv, bind_of_failed (getOneByte_of_nil h)]

/-- What one round does: it reads a code and its value, or it skips what is left. -/
theorem oneParameterWith_cases (htext : ReadsText text) {n : Nat} (hn : n + 1 < 2 ^ 31)
    {r : (MmsContentParam × Int) ⊕ MmsContentParam} (hshort : c.octets.length < 2 ^ 31)
    (h : oneParameterWith text (param, ((n + 1 : Nat) : Int)) c = (.done r, c')) :
    ∃ code c₁, Took c 1 c₁ ∧ c.ahead = code :: c₁.ahead ∧
      ((∃ k param' v', valueExtent code c₁.ahead = some k ∧ r = .inl (param', v') ∧
        ValueTaken n k c₁ v' c') ∨
      valueExtent code c₁.ahead = none ∧ r = .inl (param, 0) ∧ Took c₁ n c') := by
  rw [oneParameterWith, if_pos (by simp only; omega)] at h
  rcases bind_eq_done.1 h with ⟨code, c₁, hget, hread⟩
  rcases took_of_getOneByte hshort hget with ⟨htook, hcons⟩
  have hshort₁ : c₁.octets.length < 2 ^ 31 := by rwa [htook.same]
  have hleft : i32 (((n + 1 : Nat) : Int) - 1) = n := by
    rw [i32_of_lt (by omega) (by omega)]
    omega
  refine ⟨code, c₁, htook, hcons, ?_⟩
  simp only [hleft] at hread
  unfold valueExtent
  by_cases hcharset : code = CT_P_CHARSET
  · simp only [if_pos hcharset] at hread ⊢
    rcases bind_eq_done.1 hread with ⟨⟨param', v'⟩, c₂, hvalue, hpure⟩
    cases hpure
    have htaken := charsetFieldWith_taken htext hshort₁ (by omega) (by omega) hvalue
    exact Or.inl ⟨_, param', v', rfl, rfl, htaken⟩
  simp only [if_neg hcharset] at hread ⊢
  by_cases hfield : code ∈ textParams
  · simp only [if_pos hfield] at hread ⊢
    rcases bind_eq_done.1 hread with ⟨⟨param', v'⟩, c₂, hvalue, hpure⟩
    cases hpure
    have htaken := textFieldWith_taken htext hshort₁ (by omega) (by omega) hvalue
    exact Or.inl ⟨_, param', v', rfl, rfl, htaken⟩
  simp only [if_neg hfield] at hread ⊢
  by_cases htype : code = CT_P_TYPE ∨ code = CT_P_TYPE_STRING
  · simp only [if_pos htype] at hread ⊢
    rcases bind_eq_done.1 hread with ⟨⟨param', v'⟩, c₂, hvalue, hpure⟩
    cases hpure
    have htaken := typeFieldWith_taken htext hshort₁ (by omega) (by omega) hvalue
    exact Or.inl ⟨_, param', v', rfl, rfl, htaken⟩
  · simp only [if_neg htype] at hread ⊢
    rcases bind_eq_done.1 hread with ⟨_, c₂, hskip, hpure⟩
    cases hpure
    have hinside := htook.inside
    rw [c.length_ahead] at hinside
    have hposition : c₁.position ≤ c₁.octets.length := by
      rw [htook.same, htook.moved]
      omega
    have hnat : ((n : Int) % 2 ^ 32).toNat = n := by omega
    rw [hnat] at hskip
    exact Or.inr ⟨trivial, rfl, took_of_increasePointer hshort₁ hposition hskip⟩

/-- Behind a value the octets are counted as they are read, or the loop ends, in the declared
length or not, or there are no octets for another round. -/
theorem ValueTaken.cases {n k : Nat} {v' : Int} (h : ValueTaken n k c v' c') :
    (k ≤ n ∧ v' = ((n - k : Nat) : Int)) ∨
      (v' ≤ 0 ∧ (k = n ↔ ∃ m, n = k + m ∧ FilledBy m (c.ahead.drop k))) ∨
      (0 < v' ∧ c'.ahead = []) := by
  have hahead := h.took.ahead_eq
  rcases h.left with hleft | ⟨hleft, hend⟩
  · by_cases hle : k ≤ n
    · exact Or.inl ⟨hle, by omega⟩
    · refine Or.inr (Or.inl ⟨by omega, iff_of_false (by omega) ?_⟩)
      rintro ⟨m, hm, -⟩
      omega
  · by_cases hgoes : 0 < v'
    · exact Or.inr (Or.inr ⟨hgoes, hend⟩)
    · refine Or.inr (Or.inl ⟨by omega, ?_⟩)
      rw [← hahead, hend]
      constructor
      · exact fun heq => ⟨0, by omega, FilledBy.nil []⟩
      · rintro ⟨m, hm, hfilled⟩
        rw [filledBy_nil_iff] at hfilled
        omega

/-- With nothing left the loop ends where it is. -/
theorem iterate_of_nonpos {v : Int} (hv : v ≤ 0) {fuel : Nat}
    (h : iterate (oneParameterWith text) fuel (param, v) c = (.done result, c')) : c' = c := by
  rcases fuel with _ | fuel
  · cases h
  · rw [iterate, bind_of_done (oneParameterWith_of_nonpos hv)] at h
    cases h
    rfl

theorem not_iterate_of_nil {v : Int} (hv : 0 < v) (hnil : c.ahead = []) {fuel : Nat} :
    iterate (oneParameterWith text) fuel (param, v) c ≠ (.done result, c') := by
  intro h
  rcases fuel with _ | fuel
  · cases h
  · rw [iterate, bind_of_failed (oneParameterWith_of_nil hv hnil)] at h
    cases h

/-- The rounds, while the octets that are counted are those that are read. -/
theorem iterate_oneParameterWith (htext : ReadsText text) {n fuel : Nat} (hn : n < 2 ^ 31)
    (hshort : c.octets.length < 2 ^ 31)
    (h : iterate (oneParameterWith text) fuel (param, (n : Int)) c = (.done result, c')) :
    ∃ k, Took c k c' ∧ (k = n ↔ FilledBy n c.ahead) := by
  induction fuel generalizing n param c with
  | zero => cases h
  | succ fuel ih =>
      cases n with
      | zero =>
          rw [iterate_of_nonpos (Int.le_refl 0) h]
          exact ⟨0, Took.refl c, iff_of_true rfl (FilledBy.nil _)⟩
      | succ n =>
          rw [iterate] at h
          rcases bind_eq_done.1 h with ⟨r, c₂, hround, hrest⟩
          rcases oneParameterWith_cases htext hn hshort hround with
            ⟨code, c₁, htook, hcons, ⟨k, param', v', hvalue, rfl, htaken⟩ | ⟨hvalue, rfl, hskip⟩⟩
          · have htook₂ := htook.trans htaken.took
            have hahead := htaken.took.ahead_eq
            rw [hcons, filledBy_cons_of_known hvalue htaken.took.inside]
            rcases htaken.cases with ⟨hle, rfl⟩ | ⟨hstops, hiff⟩ | ⟨hgoes, hend⟩
            · rcases ih (by omega) (by rwa [htook₂.same]) hrest with ⟨j, htook₃, hj⟩
              rw [hahead] at hj
              refine ⟨1 + k + j, htook₂.trans htook₃, ?_⟩
              rw [show 1 + k + j = n + 1 ↔ j = n - k by omega, hj]
              constructor
              · exact fun hfilled => ⟨n - k, by omega, hfilled⟩
              · rintro ⟨m, hm, hfilled⟩
                rwa [show n - k = m by omega]
            · rw [iterate_of_nonpos hstops hrest]
              refine ⟨1 + k, htook₂, ?_⟩
              rw [← hiff]
              omega
            · exact absurd hrest (not_iterate_of_nil hgoes hend)
          · have hstop := iterate_of_nonpos (Int.le_refl 0) hrest
            have hall := htook.trans hskip
            rw [hstop, hcons, filledBy_cons_of_unknown hvalue]
            exact ⟨1 + n, hall, iff_of_true (Nat.add_comm 1 n) hskip.inside⟩

/-- A length that is no positive `int32_t` leaves the parameters unread. -/
theorem parameterWith_took (htext : ReadsText text) {n : Nat} (hn : n < 2 ^ 32)
    (hshort : c.octets.length < 2 ^ 31)
    (h : parameterWith text param (i32 (n : Int)) c = (.done result, c')) :
    ∃ k, Took c k c' ∧ (k = n ↔ FilledBy n c.ahead) := by
  by_cases hlt : n < 2 ^ 31
  · rw [i32_of_lt (by omega) (by omega)] at h
    exact iterate_oneParameterWith htext hlt hshort h
  · have hneg : i32 (n : Int) ≤ 0 := by
      have hwrap : i32 (n : Int) = i32 ((n : Int) - 2 ^ 32) :=
        (Int.sub_bmod_right (n : Int) (2 ^ 32)).symm
      rw [hwrap, i32_of_lt (by omega) (by omega)]
      omega
    rw [iterate_of_nonpos hneg h]
    refine ⟨0, Took.refl c, iff_of_false (by omega) ?_⟩
    intro hfilled
    have hle := hfilled.le
    rw [c.length_ahead] at hle
    omega

theorem decodeIsShortInt_done {b : Bool} (h : decodeIsShortInt c = (.done b, c')) :
    Took c 0 c' ∧ b = decide (c.ahead.headD 0 > 0x7f) := by
  rcases bind_eq_done.1 h with ⟨o, c₁, hpeek, hpure⟩
  rcases took_of_peekOrZero hpeek with ⟨htook, rfl⟩
  cases hpure
  exact ⟨htook, rfl⟩

theorem decodeIsString_done {b : Bool} (h : decodeIsString c = (.done b, c')) :
    Took c 0 c' ∧ b = decide (0x20 ≤ c.ahead.headD 0 ∧ c.ahead.headD 0 ≤ 0x7f) := by
  rcases bind_eq_done.1 h with ⟨o, c₁, hpeek, hpure⟩
  rcases took_of_peekOrZero hpeek with ⟨htook, rfl⟩
  cases hpure
  exact ⟨htook, rfl⟩

/-- A type that is a text, with the parameters behind it. -/
theorem textType_took (htext : ReadsText text) {valueLength len : Nat} {c₁ : Cursor}
    (hlt : valueLength < 2 ^ 32) (hshort : c.octets.length < 2 ^ 31)
    (htook : Took c (textExtent c.ahead) c₁) (hlen : len = (textAhead c.ahead).length)
    (h : parameterWith text param
      (i32 ((if valueLength < u32 (len + 1) then 0 else valueLength - len - 1 : Nat) : Int)) c₁ =
        (.done result, c')) :
    ∃ k, Took c k c' ∧ (k = valueLength ↔ ∃ n, valueLength = textExtent c.ahead + n ∧
      FilledBy n (c.ahead.drop (textExtent c.ahead))) := by
  have hlenLt := length_text_lt hshort hlen
  have hahead := htook.ahead_eq
  rw [u32_of_lt (by omega)] at h
  rcases parameterWith_took htext (by split <;> omega) (by rwa [htook.same]) h with
    ⟨k, htook₁, hk⟩
  refine ⟨textExtent c.ahead + k, htook.trans htook₁, ?_⟩
  rw [← hahead]
  rcases textExtent_cases c.ahead with hterminated | ⟨hend, hall⟩
  · by_cases hover : valueLength < len + 1
    · refine iff_of_false (by omega) ?_
      rintro ⟨n, hn, -⟩
      omega
    · rw [if_neg hover] at hk
      rw [show textExtent c.ahead + k = valueLength ↔ k = valueLength - len - 1 by omega, hk]
      constructor
      · exact fun hfilled => ⟨valueLength - len - 1, by omega, hfilled⟩
      · rintro ⟨n, hn, hfilled⟩
        rwa [show valueLength - len - 1 = n by omega]
  · -- the text ends where the octets end
    have hnil : c₁.ahead = [] := by
      rw [hahead, List.drop_eq_nil_iff]
      exact Nat.le_of_eq hall.symm
    have hzero := htook₁.inside
    rw [hnil, List.length_nil] at hzero
    rw [hnil]
    constructor
    · exact fun heq => ⟨0, by omega, FilledBy.nil []⟩
    · rintro ⟨n, hn, hfilled⟩
      rw [filledBy_nil_iff] at hfilled
      omega

theorem mediaTypeWith_took (htext : ReadsText text) {γ : Type} {contentType : MmsContentType}
    {valueLength : Nat} {contentLength : γ} {r : MmsContentType × γ} (hlt : valueLength < 2 ^ 32)
    (hshort : c.octets.length < 2 ^ 31)
    (h : mediaTypeWith text contentType valueLength contentLength c = (.done r, c')) :
    r.2 = contentLength ∧
      ∃ k, Took c k c' ∧ (k = valueLength ↔ MediaFilledBy valueLength c.ahead) := by
  rcases bind_eq_done.1 h with ⟨b, c₁, hpeek, hrest⟩
  rcases took_of_peekOneByte hpeek with ⟨htook₁, os, hcons⟩
  rcases bind_eq_done.1 hrest with ⟨isShort, c₂, hisShort, hrest⟩
  rcases decodeIsShortInt_done hisShort with ⟨htook₂, rfl⟩
  have hto₂ := htook₁.trans htook₂
  have hahead₁ : c₁.ahead = b :: os := by rw [htook₁.ahead_eq, hcons]; rfl
  have hahead₂ : c₂.ahead = b :: os := by rw [hto₂.ahead_eq, hcons]; rfl
  have hshort₂ : c₂.octets.length < 2 ^ 31 := by rwa [hto₂.same]
  unfold MediaFilledBy
  rw [hahead₁, List.headD_cons] at hrest
  rw [hcons, typeExtent]
  by_cases hhigh : b > 0x7f
  · rw [if_pos (decide_eq_true hhigh)] at hrest
    rcases bind_eq_done.1 hrest with ⟨_, c₃, hskip, hbehind⟩
    rcases bind_eq_done.1 hbehind with ⟨_, c₄, hguard, hmedia⟩
    rcases guard_eq_done.1 hguard with ⟨hne, rfl⟩
    rcases bind_eq_done.1 hmedia with ⟨param', c₅, hparams, hpure⟩
    rw [pure_run, Prod.mk.injEq, Outcome.done.injEq] at hpure
    rcases hpure with ⟨rfl, rfl⟩
    have hposition := (Cursor.ahead_eq_cons hahead₂).1
    have hto₃ := hto₂.trans (took_of_increasePointer hshort₂ (Nat.le_of_lt hposition) hskip)
    rcases parameterWith_took htext (by omega) (by rwa [hto₃.same]) hparams with ⟨k, htook₄, hk⟩
    rw [hto₃.ahead_eq, hcons] at hk
    refine ⟨rfl, 1 + k, by simpa using hto₃.trans htook₄, ?_⟩
    rw [if_pos hhigh, show 1 + k = valueLength ↔ k = valueLength - 1 by omega, hk]
    constructor
    · exact fun hfilled => ⟨valueLength - 1, by omega, hfilled⟩
    · rintro ⟨n, hn, hfilled⟩
      rwa [show valueLength - 1 = n by omega]
  · rw [if_neg (by simpa using hhigh)] at hrest
    rcases bind_eq_done.1 hrest with ⟨isString, c₃, hisString, hrest⟩
    rcases decodeIsString_done hisString with ⟨htook₃, rfl⟩
    have hto₃ := hto₂.trans htook₃
    have hahead₃ : c₃.ahead = b :: os := by rw [hto₃.ahead_eq, hcons]; rfl
    have hshort₃ : c₃.octets.length < 2 ^ 31 := by rwa [hto₃.same]
    split at hrest
    · next hstring =>
        have hstring := of_decide_eq_true hstring
        rw [hahead₂, List.headD_cons] at hstring
        have hne : b ≠ 0 := by
          rintro rfl
          exact absurd hstring.1 (by decide)
        rcases htext.returns c₃ b os hshort₃ hahead₃ hne with ⟨str, len, c₄, hread⟩
        rcases htext.takes c₃ c₄ str len hshort₃ hread with ⟨htook₄, hlen⟩
        have hattempt : attempt text c₃ = (.done (some (str, len)), c₄) := by rw [attempt, hread]
        rw [bind_of_done hattempt] at hrest
        rcases bind_eq_done.1 hrest with ⟨param', c₅, hparams, hpure⟩
        rw [pure_run, Prod.mk.injEq, Outcome.done.injEq] at hpure
        rcases hpure with ⟨rfl, rfl⟩
        rcases textType_took htext hlt hshort₃ htook₄ hlen hparams with ⟨k, htook₅, hk⟩
        rw [hahead₃] at hk
        rw [if_neg hhigh]
        exact ⟨rfl, k, by simpa using hto₃.trans htook₅, hk⟩
    · cases hrest

end Walk

/-! ## Content types -/

/-- The octets ahead say how many they are: a text has its end, and in the general form the type
and the parameters fill the length that is read. -/
def EndsAsDeclared : Octets → Prop
  | [] => True
  | b :: os =>
      if b > 0x7f then True
      else if 0x20 ≤ b then 0 ∈ b :: os
      else ∀ n k, lengthAhead (b :: os) = some (n, k) →
        MediaFilledBy (u32 n) ((b :: os).drop k)

section ContentTypes

variable {contentType result : MmsContentType} {contentLength : Nat} {c c' : Cursor}

/-- What stands in front of the type. -/
theorem took_of_valueLength {α : Type} {a : α} {f : Nat → Nat → Reader α}
    (hshort : c.octets.length < 2 ^ 31) (h : valueLengthThen f c = (.done a, c')) :
    ∃ n k c₁, lengthAhead c.ahead = some (n, k) ∧ Took c k c₁ ∧ f (u32 n) k c₁ = (.done a, c') := by
  rcases bind_eq_done.1 h with ⟨isLength, c₁, hisLength, hguarded⟩
  rcases bind_eq_done.1 hisLength with ⟨b, c₂, hpeek, hpure⟩
  cases hpure
  rcases bind_eq_done.1 hguarded with ⟨_, c₃, hguard, hlength⟩
  rcases guard_eq_done.1 hguard with ⟨-, rfl⟩
  have htook := (took_of_peekOrZero hpeek).1
  have hahead : c₃.ahead = c.ahead := htook.ahead_eq
  have hshort₃ : c₃.octets.length < 2 ^ 31 := by rwa [htook.same]
  rcases bind_eq_done.1 hlength with ⟨⟨valueLength, returnLength⟩, c₄, hread, hrest⟩
  rcases took_of_decodeValueLengthReturnLen hshort₃ hread with ⟨htook₄, n, hn, rfl⟩
  have hto₄ := htook.trans htook₄
  rw [Nat.zero_add] at hto₄
  rw [hahead] at hn
  exact ⟨n, returnLength, c₄, hn, hto₄, hrest⟩

theorem decodeMmsCTGeneralForm_took (hshort : c.octets.length < 2 ^ 31)
    (h : decodeMmsCTGeneralForm contentType c = (.done (result, contentLength), c')) :
    ∃ n k j, lengthAhead c.ahead = some (n, k) ∧ contentLength = k + u32 n ∧ Took c (k + j) c' ∧
      (j = u32 n ↔ MediaFilledBy (u32 n) (c.ahead.drop k)) := by
  rw [decodeMmsCTGeneralForm_eq] at h
  rcases took_of_valueLength hshort h with ⟨n, k, c₁, hn, htook₁, htotal⟩
  rcases bind_eq_done.1 htotal with ⟨_, c₂, hguard, hmedia⟩
  rcases guard_eq_done.1 hguard with ⟨-, rfl⟩
  have hshort₂ : c₂.octets.length < 2 ^ 31 := by rwa [htook₁.same]
  have hwrap : u32 n < 2 ^ 32 := Nat.mod_lt n (by decide)
  rcases mediaTypeWith_took decodeText_readsText hwrap hshort₂ hmedia with ⟨hlen, j, htook₂, hj⟩
  have hinside := htook₁.inside
  rw [c.length_ahead] at hinside
  have hsum : u64 (u32 n + k) = k + u32 n := by
    rw [u64, Nat.mod_eq_of_lt (by omega), Nat.add_comm]
  simp only at hlen
  rw [hsum] at hlen
  rw [htook₁.ahead_eq] at hj
  exact ⟨n, k, j, hn, hlen, htook₁.trans htook₂, hj⟩

/-- The position moves by the length that is returned if the octets end as they say. -/
theorem position_decodeMmsContentType_iff (contentType : MmsContentType) (c : Cursor)
    (hshort : c.octets.length < 2 ^ 31)
    (h : decodeMmsContentType contentType c = (.done (result, contentLength), c')) :
    c'.position = c.position + contentLength ↔ EndsAsDeclared c.ahead := by
  rcases bind_eq_done.1 h with ⟨isShort, c₁, hisShort, hrest⟩
  rcases decodeIsShortInt_done hisShort with ⟨htook₁, rfl⟩
  have hahead₁ : c₁.ahead = c.ahead := htook₁.ahead_eq
  have hshort₁ : c₁.octets.length < 2 ^ 31 := by rwa [htook₁.same]
  have hposition₁ : c₁.position = c.position := htook₁.moved
  split at hrest
  · next hhigh =>
      have hhigh := of_decide_eq_true hhigh
      rcases bind_eq_done.1 hrest with ⟨b, c₂, hget, hpure⟩
      rcases took_of_getOneByte hshort₁ hget with ⟨htook₂, hcons⟩
      rw [hahead₁] at hcons
      rw [hcons, List.headD_cons] at hhigh
      rw [pure_run, Prod.mk.injEq, Outcome.done.injEq, Prod.mk.injEq] at hpure
      rcases hpure with ⟨⟨-, rfl⟩, rfl⟩
      rw [htook₂.moved, hposition₁, hcons, EndsAsDeclared, if_pos hhigh]
      exact iff_of_true rfl trivial
  · next hlow =>
      have hlow : ¬ c.ahead.headD 0 > 0x7f := by simpa using hlow
      rcases bind_eq_done.1 hrest with ⟨isString, c₂, hisString, hrest⟩
      rcases decodeIsString_done hisString with ⟨htook₂, rfl⟩
      have hahead₂ : c₂.ahead = c.ahead := by rw [← hahead₁]; exact htook₂.ahead_eq
      have hshort₂ : c₂.octets.length < 2 ^ 31 := by rwa [htook₂.same]
      have hposition₂ : c₂.position = c.position := by rw [← hposition₁]; exact htook₂.moved
      rw [hahead₁] at hrest
      split at hrest
      · next hstring =>
          have hstring := of_decide_eq_true hstring
          rcases bind_eq_done.1 hrest with ⟨text, c₃, hattempt, hrest⟩
          cases hcons : c.ahead with
          | nil =>
              rw [hcons] at hstring
              exact absurd hstring (by decide)
          | cons b os =>
              rw [hcons, List.headD_cons] at hlow hstring
              rw [hcons] at hahead₂
              rcases decodeText_run hshort₂ (by rw [hahead₂]; exact List.cons_ne_nil b os) with
                ⟨c₄, htook₄, hrun⟩
              rw [attempt, hrun] at hattempt
              cases hattempt
              rcases bind_eq_done.1 hrest with ⟨_, c₅, hguard, hpure⟩
              rcases guard_eq_done.1 hguard with ⟨-, rfl⟩
              cases hpure
              rw [htook₄.moved, hposition₂, hahead₂, EndsAsDeclared, if_neg hlow,
                if_pos hstring.1, ← textExtent_eq_succ_iff]
              exact Nat.add_left_cancel_iff
      · next hstring =>
          rcases decodeMmsCTGeneralForm_took hshort₂ hrest with ⟨n, k, j, hn, rfl, htook, hj⟩
          rw [hahead₂] at hn hj
          rw [htook.moved, hposition₂, show c.position + (k + j) = c.position + (k + u32 n) ↔
            j = u32 n by omega, hj]
          cases hcons : c.ahead with
          | nil =>
              rw [hcons] at hn
              cases hn
          | cons b os =>
              rw [hcons, List.headD_cons] at hlow hstring
              rw [hcons] at hn
              have hcontrol : ¬ 0x20 ≤ b := fun hle =>
                hstring (decide_eq_true ⟨hle, UInt8.not_lt.1 hlow⟩)
              rw [EndsAsDeclared, if_neg hlow, if_neg hcontrol, hn]
              constructor
              · rintro hfilled _ _ ⟨⟩
                exact hfilled
              · exact fun hall => hall n k rfl

end ContentTypes

/-- A type with a charset behind it. -/
theorem position_decodeMmsContentType_charset :
    ∃ result contentLength c',
      decodeMmsContentType {} ⟨[0x04, 0x61, 0x00, 0x81, 0xea], 0, []⟩ =
        (.done (result, contentLength), c') ∧ c'.position = 0 + contentLength := by
  rcases exists_of_isSome (m := decodeMmsContentType {})
    (c := ⟨[0x04, 0x61, 0x00, 0x81, 0xea], 0, []⟩) (by decide +kernel) with ⟨result, hrun⟩
  have hcharset : FilledBy 2 [0x81, 0xea] :=
    FilledBy.known (k := 1) (n := 0) (by decide) (by decide) (FilledBy.nil [])
  have hends : EndsAsDeclared [0x04, 0x61, 0x00, 0x81, 0xea] := by
    rintro n k ⟨⟩
    exact ⟨2, by decide, hcharset⟩
  exact ⟨_, _, _, hrun, (position_decodeMmsContentType_iff {}
    ⟨[0x04, 0x61, 0x00, 0x81, 0xea], 0, []⟩ (by decide) hrun).2 hends⟩

/-- A text without an end, and a name with an octet more than the length allows. -/
theorem position_decodeMmsContentType_ne :
    (∃ result contentLength c', decodeMmsContentType {} ⟨[0x61], 0, []⟩ =
        (.done (result, contentLength), c') ∧ c'.position ≠ 0 + contentLength) ∧
      ∃ result contentLength c', decodeMmsContentType {} ⟨[0x03, 0x83, 0x85, 0x61, 0x00], 0, []⟩ =
        (.done (result, contentLength), c') ∧ c'.position ≠ 0 + contentLength := by
  constructor
  · rcases exists_of_isSome (m := decodeMmsContentType {}) (c := ⟨[0x61], 0, []⟩)
      (by decide +kernel) with ⟨⟨result, contentLength⟩, hrun⟩
    have hlength : (decodeMmsContentType {} ⟨[0x61], 0, []⟩).1.toOption.map Prod.snd = some 2 := by
      decide +kernel
    rw [hrun] at hlength
    cases hlength
    exact ⟨_, _, _, hrun, by decide +kernel⟩
  · rcases exists_of_isSome (m := decodeMmsContentType {})
      (c := ⟨[0x03, 0x83, 0x85, 0x61, 0x00], 0, []⟩) (by decide +kernel) with
      ⟨⟨result, contentLength⟩, hrun⟩
    have hlength : (decodeMmsContentType {} ⟨[0x03, 0x83, 0x85, 0x61, 0x00], 0, []⟩).1.toOption.map
        Prod.snd = some 4 := by decide +kernel
    rw [hrun] at hlength
    cases hlength
    exact ⟨_, _, _, hrun, by decide +kernel⟩

end TelephonySms.Mms
