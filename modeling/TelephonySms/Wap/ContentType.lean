import TelephonySms.Mms.ContentTypeExtent
import TelephonySms.Wap.Buffer

/-! # The content type of a WAP push

`SmsWapPushContentType` holds what the content type of an MMS holds and has the same tables. It
reads the parameters alike, with texts that have octets, and takes any value length.
-/

namespace TelephonySms.Wap

open OctetReader Reader Mms

/-! ## Decoding -/

abbrev SmsWapPushContentType := MmsContentType

def decodeTextField (param : MmsContentParam) (field : UInt8) (valueLength : Int) :
    Reader (MmsContentParam × Int) :=
  textFieldWith decodeText param valueLength field

def decodeCharsetField (param : MmsContentParam) (valueLength : Int) :
    Reader (MmsContentParam × Int) :=
  charsetFieldWith decodeText param valueLength

def decodeTypeField (param : MmsContentParam) (valueLength : Int) :
    Reader (MmsContentParam × Int) :=
  typeFieldWith decodeText param valueLength

def decodeParameter (param : MmsContentParam) (valueLength : Int) : Reader MmsContentParam :=
  parameterWith decodeText param valueLength

def decodeCTGeneralForm (contentType : SmsWapPushContentType) :
    Reader (SmsWapPushContentType × Int) := do
  guard (← decodeIsValueLength)
  let (valueLength, returnLength) ← decodeValueLengthReturnLen
  let contentLength := i32 ↑(u32 (valueLength + returnLength))
  mediaTypeWith decodeText contentType valueLength contentLength

def decodeContentType (contentType : SmsWapPushContentType) :
    Reader (SmsWapPushContentType × Int) := do
  if ← decodeIsShortInt then do
    let oneByte ← getOneByte
    pure ({ contentType with contentType := getContentTypeFromInt (oneByte &&& 0x7f) }, 1)
  else if ← decodeIsString then do
    let text ← attempt decodeText
    let (sType, len) := text.getD ([], 0)
    pure ({ contentType with contentType := sType }, i32 ↑(u32 (len + 1)))
  else
    decodeCTGeneralForm contentType

theorem decodeCTGeneralForm_eq (contentType : SmsWapPushContentType) :
    decodeCTGeneralForm contentType = valueLengthThen fun valueLength returnLength =>
      mediaTypeWith decodeText contentType valueLength (i32 ↑(u32 (valueLength + returnLength))) :=
  rfl

theorem decodeText_readsText : ReadsText decodeText where
  takes := by
    intro c c' str len hshort h
    rcases bind_eq_done.1 h with ⟨⟨str', len'⟩, c₁, hread, hrest⟩
    rcases bind_eq_done.1 hrest with ⟨_, c₂, hguard, hpure⟩
    rcases guard_eq_done.1 hguard with ⟨-, rfl⟩
    cases hpure
    exact Mms.decodeText_readsText.takes _ _ _ _ hshort hread
  returns := by
    intro c b os hshort hahead hb
    rcases Mms.decodeText_readsText.returns c b os hshort hahead hb with ⟨str, len, c', hread⟩
    have hlen := (Mms.decodeText_readsText.takes _ _ _ _ hshort hread).2
    rw [hahead, textAhead_cons_of_ne hb, List.length_cons] at hlen
    refine ⟨str, len, c', ?_⟩
    rw [decodeText, bind_of_done hread]
    simp only [guard_of (show len > 0 by omega)]
    rfl

/-! ## The octets of the general form -/

/-- The declared octets, as many as the value length says and not as many as the code keeps of it,
are a type and complete parameters. -/
def DeclaredFilled (os : Octets) : Prop :=
  ∃ n k, lengthAhead os = some (n, k) ∧ MediaFilledBy n (os.drop k)

/-- From `c` to `c'`, the value length and the octets that it declares are read. -/
structure DeclaredTaken (c c' : Cursor) : Prop where
  advanced : ∃ n k, lengthAhead c.ahead = some (n, k) ∧ c'.position = c.position + (k + n)
  inside : c'.position ≤ c.octets.length

section GeneralForm

variable {contentType : SmsWapPushContentType} {result : SmsWapPushContentType × Int}
variable {c c' : Cursor}

theorem decodeCTGeneralForm_took (hshort : c.octets.length < 2 ^ 31)
    (h : decodeCTGeneralForm contentType c = (.done result, c')) :
    ∃ n k j, lengthAhead c.ahead = some (n, k) ∧ Took c (k + j) c' ∧
      (j = u32 n ↔ MediaFilledBy (u32 n) (c.ahead.drop k)) := by
  rw [decodeCTGeneralForm_eq] at h
  rcases took_of_valueLength hshort h with ⟨n, k, c₁, hn, htook₁, hmedia⟩
  have hshort₁ : c₁.octets.length < 2 ^ 31 := by rwa [htook₁.same]
  have hwrap : u32 n < 2 ^ 32 := Nat.mod_lt n (by decide)
  rcases mediaTypeWith_took decodeText_readsText hwrap hshort₁ hmedia with ⟨-, j, htook₂, hj⟩
  rw [htook₁.ahead_eq] at hj
  exact ⟨n, k, j, hn, htook₁.trans htook₂, hj⟩

/-- A length of more than 32 bits is longer than the buffer. -/
theorem eq_length_iff {n j : Nat} {os : Octets} (hshort : os.length < 2 ^ 31)
    (hj : j ≤ os.length) (h : j = u32 n ↔ MediaFilledBy (u32 n) os) :
    j = n ↔ MediaFilledBy n os := by
  by_cases hlt : n < 2 ^ 32
  · rwa [u32_of_lt hlt] at h
  · refine iff_of_false (by omega) fun hfilled => ?_
    have hle := hfilled.le
    omega

/-- The general form takes what it declares if the type and the parameters fill it. -/
theorem declaredTaken_iff (contentType : SmsWapPushContentType) (c : Cursor)
    (hshort : c.octets.length < 2 ^ 31) (hgeneral : c.ahead.headD 0 ≤ 0x1f)
    (h : decodeContentType contentType c = (.done result, c')) :
    DeclaredTaken c c' ↔ DeclaredFilled c.ahead := by
  have hlow : ¬ c.ahead.headD 0 > 0x7f := fun hgt =>
    absurd (UInt8.lt_of_lt_of_le hgt hgeneral) (by decide)
  have hcontrol : ¬ (0x20 ≤ c.ahead.headD 0 ∧ c.ahead.headD 0 ≤ 0x7f) := fun hin =>
    absurd (UInt8.le_trans hin.1 hgeneral) (by decide)
  rcases bind_eq_done.1 h with ⟨isShort, c₁, hisShort, hrest⟩
  rcases decodeIsShortInt_done hisShort with ⟨htook₁, rfl⟩
  rw [if_neg (by simpa using hlow)] at hrest
  rcases bind_eq_done.1 hrest with ⟨isString, c₂, hisString, hform⟩
  rcases decodeIsString_done hisString with ⟨htook₂, rfl⟩
  have hahead₁ : c₁.ahead = c.ahead := htook₁.ahead_eq
  have hto₂ := htook₁.trans htook₂
  have hahead₂ : c₂.ahead = c.ahead := hto₂.ahead_eq
  rw [hahead₁, if_neg (by simpa using hcontrol)] at hform
  rcases decodeCTGeneralForm_took (by rwa [hto₂.same]) hform with ⟨n, k, j, hn, htook, hj⟩
  have hall : Took c (k + j) c' := by simpa using hto₂.trans htook
  rw [hahead₂] at hn hj
  have hinside := hall.inside
  have hlength := c.length_ahead
  have hexact := eq_length_iff (by rw [List.length_drop]; omega)
    (by rw [List.length_drop]; omega) hj
  have hmoved := hall.moved
  constructor
  · rintro ⟨⟨n', k', hn', hposition⟩, -⟩
    rw [hn] at hn'
    cases hn'
    exact ⟨n, k, hn, hexact.1 (by omega)⟩
  · rintro ⟨n', k', hn', hfilled⟩
    rw [hn] at hn'
    cases hn'
    have heq := hexact.2 hfilled
    have hposition : c.position ≤ c.octets.length := by
      by_contra hbeyond
      rw [c.ahead_eq_nil_iff.2 (by omega)] at hn
      cases hn
    exact ⟨⟨n, k, hn, by omega⟩, by omega⟩

end GeneralForm

/-- A type with a charset behind it. -/
theorem declaredTaken_charset :
    DeclaredTaken ⟨[0x04, 0x61, 0x00, 0x81, 0xea], 0, []⟩
      (decodeContentType {} ⟨[0x04, 0x61, 0x00, 0x81, 0xea], 0, []⟩).2 := by
  rcases exists_of_isSome (m := decodeContentType {})
    (c := ⟨[0x04, 0x61, 0x00, 0x81, 0xea], 0, []⟩) (by decide +kernel) with ⟨result, hrun⟩
  have hcharset : FilledBy 2 [0x81, 0xea] :=
    FilledBy.known (k := 1) (n := 0) (by decide) (by decide) (FilledBy.nil [])
  exact (declaredTaken_iff {} ⟨[0x04, 0x61, 0x00, 0x81, 0xea], 0, []⟩ (by decide) (by decide)
    hrun).2 ⟨4, 1, by decide, 2, by decide, hcharset⟩

/-- A name with an octet more than the length allows. -/
theorem not_declaredTaken_name :
    (decodeContentType {} ⟨[0x03, 0x83, 0x85, 0x61, 0x00], 0, []⟩).1.toOption.isSome = true ∧
      ¬ DeclaredTaken ⟨[0x03, 0x83, 0x85, 0x61, 0x00], 0, []⟩
        (decodeContentType {} ⟨[0x03, 0x83, 0x85, 0x61, 0x00], 0, []⟩).2 := by
  refine ⟨by decide +kernel, ?_⟩
  rintro ⟨⟨n, k, hlength, hposition⟩, -⟩
  have hdeclared : lengthAhead (Cursor.ahead ⟨[0x03, 0x83, 0x85, 0x61, 0x00], 0, []⟩) =
      some (3, 1) := by decide
  have hread : (decodeContentType {} ⟨[0x03, 0x83, 0x85, 0x61, 0x00], 0, []⟩).2.position = 5 := by
    decide +kernel
  rw [hdeclared] at hlength
  cases hlength
  rw [hread] at hposition
  cases hposition

end TelephonySms.Wap
