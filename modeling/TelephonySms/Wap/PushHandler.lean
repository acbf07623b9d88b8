import TelephonySms.Wap.ContentType

/-! # The application id of a WAP push

`SmsWapPushHandler` looks through the headers of a push for X-Wap-Application-Id and takes its
value for the id. It goes over the other headers by their own octets, as the first octet of a
value tells what the value is. The headers behind the id are left with the rest of the block.
-/

namespace TelephonySms.Wap

open OctetReader Reader Mms

/-! ## The handler -/

def PARAMETER_X_WAP_APPLICATION_ID : Nat := 0x2f

def decodeXWapAbandonHeaderValue : Reader Unit := do
  let oneByte ← getOneByte
  if oneByte ≤ 30 then
    increasePointer oneByte.toNat
  else if oneByte = 31 then do
    let (length, _) ← decodeUintvar
    increasePointer length
  else if oneByte ≤ 127 then do
    let _ ← decodeText
    pure ()
  else
    pure ()

/-- What is returned, and the id then. -/
def decodeXWapApplicationValue (strWapAppId : Octets) : Reader (Bool × Octets) := do
  match ← attempt decodeInteger with
  | some _ => pure (true, strWapAppId)
  | none =>
      match ← attempt decodeText with
      | some (str, _) => pure (true, str)
      | none => pure (false, []) -- a text that is refused has no octets

/-- One round of `DecodeXWapApplicationField`. -/
def applicationFieldRound (strWapAppId : Octets) (_ : Unit) :
    Reader (Unit ⊕ (Bool × Octets)) := do
  if (← getCurPosition) < (← getSize) then do
    match ← attempt decodeInteger with
    | none => pure (.inr (false, strWapAppId))
    | some fieldValue =>
        if fieldValue = PARAMETER_X_WAP_APPLICATION_ID then do
          let value ← decodeXWapApplicationValue strWapAppId
          pure (.inr value)
        else do
          let _ ← attempt decodeXWapAbandonHeaderValue
          pure (.inl ())
  else
    pure (.inr (false, strWapAppId))

def decodeXWapApplicationField (strWapAppId : Octets) : Reader (Bool × Octets) :=
  loop (applicationFieldRound strWapAppId) ()

/-- A run on a buffer of its own. -/
def onBuffer {α : Type} (octets : Octets) (m : Reader α) : Reader α :=
  fun c => ((m ⟨octets, 0, []⟩).1, c)

def decodeXWapApplication (strAppId : Octets) (headersLen : Nat) : Reader (Bool × Octets) := do
  let c ← cursor
  match readDataBuffer c.octets c.position headersLen with
  | none => pure (false, strAppId)
  | some headers => do
      let _ ← attempt (increasePointer headersLen)
      onBuffer headers (decodeXWapApplicationField strAppId)

/-! ## Headers on the wire -/

inductive HeaderName where
  | integer (value : IntegerValue)
  | token (text : Octets)
  deriving DecidableEq, Repr

namespace HeaderName

def wire : HeaderName → Octets
  | integer value => value.wire
  | token text => text ++ [0]

def Valid : HeaderName → Prop
  | integer value => value.Valid
  | token text => text ≠ [] ∧ text.all charIsToken = true

/-- A name that is known as a number of 64 bits. -/
def IsNumber : HeaderName → Prop
  | integer value => value.IsShort
  | token _ => False

/-- The application id, as a number. -/
def IsApplicationId : HeaderName → Prop
  | integer value => value.IsShort ∧ value.value = PARAMETER_X_WAP_APPLICATION_ID
  | token _ => False

end HeaderName

/-- A text whose first octet tells that it is one. -/
def IsText (t : TextString) : Prop := t.Valid ∧ 0x20 ≤ t.first ∧ t.first ≤ 0x7f

/-- A value by its first octet: 0 to 31, 32 to 127, or from 128 on. -/
inductive HeaderValue where
  | octets (length value : Octets)
  | text (value : TextString)
  | short (value : UInt8)
  deriving DecidableEq, Repr

namespace HeaderValue

def wire : HeaderValue → Octets
  | octets length value => length ++ value
  | text value => value.wire
  | short value => [value ||| 0x80]

def Valid : HeaderValue → Prop
  | octets length value => IsValueLength value.length length
  | text value => IsText value
  | short value => value < 0x80

end HeaderValue

structure WapHeader where
  name : HeaderName
  value : HeaderValue
  deriving DecidableEq, Repr

namespace WapHeader

def wire (h : WapHeader) : Octets := h.name.wire ++ h.value.wire

structure Valid (h : WapHeader) : Prop where
  name : h.name.Valid
  value : h.value.Valid
  other : ¬ h.name.IsApplicationId

end WapHeader

def headersWire (headers : List WapHeader) : Octets := headers.flatMap WapHeader.wire

/-- `Application-id-value = Uri-value | App-assigned-code` -/
inductive ApplicationId where
  | uri (value : TextString)
  | assigned (value : IntegerValue)
  deriving DecidableEq, Repr

/-- `std::to_string` -/
def toDecimal (n : Nat) : Octets := (Nat.toDigits 10 n).map fun c => c.toNat.toUInt8

namespace ApplicationId

def wire : ApplicationId → Octets
  | uri value => value.wire
  | assigned value => value.wire

def Valid : ApplicationId → Prop
  | uri value => IsText value
  | assigned value => value.Valid

/-- The full value, a number by its digits. -/
def id : ApplicationId → Octets
  | uri value => value.text
  | assigned value => toDecimal value.value

/-- The value that is kept: a text with a quote that is the only one; a number that the id was
already; and an integer with more than 64 bits whose octets, with those behind them, are the text
of its digits. -/
def IsKept (strAppId behind : Octets) : ApplicationId → Prop
  | uri value => value.quoted = true ∧ value.text.head? ≠ some 0x7f
  | assigned (.long octets) =>
      if octets.length ≤ 8 then strAppId = toDecimal (octetsFrom 0 octets)
      else textAhead (unquoted (octets ++ behind)) = toDecimal (octetsFrom 0 octets)
  | assigned (.short value) => strAppId = toDecimal value.toNat

end ApplicationId

/-! ## Readers at the octets ahead -/

section Runs

variable {c : Cursor} {b : UInt8} {os rest : Octets}

theorem decodeIsShortInt_run (c : Cursor) :
    ∃ c', Took c 0 c' ∧ decodeIsShortInt c = (.done (decide (c.ahead.headD 0 > 0x7f)), c') := by
  cases hahead : c.ahead with
  | nil =>
      have hpeek := peekOneByte_of_ge (c.ahead_eq_nil_iff.1 hahead)
      refine ⟨c, Took.refl c, ?_⟩
      rw [decodeIsShortInt, peekOrZero, bind_run, bind_run, attempt, hpeek]
      rfl
  | cons o os =>
      rcases Cursor.ahead_eq_cons hahead with ⟨hlt, hget⟩
      have hpeek := peekOneByte_of_lt hlt
      rw [hget] at hpeek
      refine ⟨⟨c.octets, c.position, ⟨c.position, c.position, 1⟩ :: c.trace⟩,
        ⟨rfl, rfl, Nat.zero_le _⟩, ?_⟩
      rw [decodeIsShortInt, peekOrZero, bind_run, bind_run, attempt, hpeek]
      rfl

/-- An octet that is neither a short integer nor the length of a long one is taken all the same. -/
theorem decodeInteger_failed (hshort : c.octets.length < 2 ^ 31) (hahead : c.ahead = b :: os)
    (hlow : b ≤ 0x7f) (hlong : 8 < b) :
    ∃ c', Took c 1 c' ∧ decodeInteger c = (.failed, c') := by
  rcases decodeIsShortInt_run c with ⟨c₁, htook₁, hisShort⟩
  have hahead₁ : c₁.ahead = b :: os := by rw [htook₁.ahead_eq, hahead]; rfl
  rcases getOneByte_of_ahead (by rwa [htook₁.same]) hahead₁ with ⟨c₂, hget, htook₂⟩
  rw [hahead, List.headD_cons] at hisShort
  refine ⟨c₂, by simpa using htook₁.trans htook₂, ?_⟩
  rw [decodeInteger, bind_of_done hisShort, if_neg (by simpa using hlow), decodeLongInteger,
    bind_of_done hget, guard_of_not (UInt8.not_le.2 hlong)]
  rfl

/-- The text ahead, which is also what a text that is refused leaves. -/
theorem attempt_decodeText_run (hshort : c.octets.length < 2 ^ 31) :
    ∃ r c', Took c (textExtent c.ahead) c' ∧ attempt decodeText c = (.done r, c') ∧
      (r.map Prod.fst).getD [] = textAhead (unquoted c.ahead) := by
  cases hahead : c.ahead with
  | nil =>
      have hfailed : decodeText c = (.failed, c) := by
        rw [decodeText, Mms.decodeText, bind_of_failed]
        rw [bind_of_failed (getOneByte_of_nil hahead)]
      exact ⟨none, c, Took.refl c, by rw [attempt, hfailed], rfl⟩
  | cons o os =>
      rcases decodeText_run hshort (by rw [hahead]; exact List.cons_ne_nil o os) with
        ⟨c', htook, hrun⟩
      rw [hahead] at htook hrun
      by_cases ho : o = 0
      · subst ho
        have hfailed : decodeText c = (.failed, c') := by
          rw [decodeText, bind_of_done hrun]
          rfl
        exact ⟨none, c', htook, by rw [attempt, hfailed], rfl⟩
      · have hlen : (textAhead (o :: os)).length > 0 := by
          rw [textAhead_cons_of_ne ho, List.length_cons]
          omega
        have hread : decodeText c =
            (.done (textAhead (unquoted (o :: os)), (textAhead (o :: os)).length), c') := by
          rw [decodeText, bind_of_done hrun]
          simp only [guard_of hlen]
          rfl
        exact ⟨_, c', htook, by rw [attempt, hread], rfl⟩

theorem attempt_discard {α : Type} {m : Reader α} {c' : Cursor} {r : Option α}
    (h : attempt m c = (.done r, c')) :
    attempt (m >>= fun _ => pure ()) c = (.done (r.map fun _ => ()), c') := by
  rw [attempt] at h
  rcases hrun : m c with ⟨outcome, c₁⟩
  rw [hrun] at h
  cases outcome with
  | done a =>
      cases h
      rw [attempt, bind_of_done hrun]
      rfl
  | failed =>
      cases h
      rw [attempt, bind_of_failed hrun]
      rfl
  | running => cases h

theorem increasePointer_run (hshort : c.octets.length < 2 ^ 31)
    (hc : c.position ≤ c.octets.length) {n : Nat} (hn : n ≤ c.ahead.length) :
    ∃ c', Took c n c' ∧ increasePointer n c = (.done (), c') := by
  rw [c.length_ahead] at hn
  have hsum : u32 (c.position + n) = c.position + n := u32_of_lt (by omega)
  refine ⟨⟨c.octets, c.position + n, ⟨c.position + n, c.position, 0⟩ :: c.trace⟩,
    ⟨rfl, rfl, by rwa [c.length_ahead]⟩, ?_⟩
  rw [increasePointer, cursor_bind, hsum, if_neg (by omega)]
  rfl

end Runs

/-! ## Values that are gone over -/

/-- What stands behind the first octet of a text. -/
theorem IsText.wire_eq_cons {t : TextString} (h : IsText t) :
    ∃ b os, t.wire = b :: os ∧ 0x20 ≤ b ∧ b ≤ 0x7f ∧
      ∀ rest, textExtent (os ++ rest) = os.length := by
  refine ⟨t.first, t.wire.tail, t.wire_eq_cons, h.2.1, h.2.2, fun rest => ?_⟩
  have hne : t.first ≠ 0 := by
    intro heq
    have hlow := h.2.1
    rw [heq] at hlow
    exact absurd hlow (by decide)
  have hnul : 0 ∉ (if t.quoted then [0x7f] else []) ++ t.text := by
    rw [List.mem_append, not_or]
    refine ⟨?_, h.1.noNul⟩
    split <;> decide
  have hextent := textExtent_append_nul hnul rest
  rw [← TextString.wire, t.wire_eq_cons, List.cons_append, textExtent_cons_of_ne hne,
    List.length_cons] at hextent
  omega

/-- A value is gone over by its own octets, whether or not it is understood. -/
theorem decodeXWapAbandonHeaderValue_took {c : Cursor} {v : HeaderValue} {rest : Octets}
    (hshort : c.octets.length < 2 ^ 31) (h : v.Valid) (hahead : c.ahead = v.wire ++ rest) :
    ∃ r c', Took c v.wire.length c' ∧ attempt decodeXWapAbandonHeaderValue c = (.done r, c') := by
  have hplace {b : UInt8} {os : Octets} (hcons : c.ahead = b :: os) :
      ∃ c₁, getOneByte c = (.done b, c₁) ∧ Took c 1 c₁ ∧ c₁.ahead = os ∧
        c₁.octets.length < 2 ^ 31 ∧ c₁.position ≤ c₁.octets.length := by
    rcases getOneByte_of_ahead hshort hcons with ⟨c₁, hget, htook⟩
    refine ⟨c₁, hget, htook, by rw [htook.ahead_eq, hcons]; rfl, by rwa [htook.same], ?_⟩
    exact htook.position_le (Nat.le_of_lt (Cursor.ahead_eq_cons hcons).1)
  cases v with
  | octets length value =>
      cases h with
      | short hle =>
          have hsize : value.length < UInt8.size := Nat.lt_of_le_of_lt hle (by decide)
          have hnat : (UInt8.ofNat value.length).toNat = value.length :=
            UInt8.toNat_ofNat_of_lt' hsize
          have hshortLength : UInt8.ofNat value.length ≤ 30 :=
            (UInt8.ofNat_le_iff_le hsize (by decide)).2 hle
          rcases hplace hahead with ⟨c₁, hget, htook, hahead₁, hshort₁, hposition⟩
          rcases increasePointer_run hshort₁ hposition (n := value.length)
            (by rw [hahead₁]; simp) with ⟨c₂, htook₂, hskip⟩
          refine ⟨some (), c₂, ?_, ?_⟩
          · simpa [HeaderValue.wire, Nat.add_comm] using htook.trans htook₂
          · rw [attempt, decodeXWapAbandonHeaderValue, bind_of_done hget, if_pos hshortLength,
              hnat, hskip]
      | @long digits hdigits =>
          rw [HeaderValue.wire, List.cons_append, List.cons_append, List.append_assoc] at hahead
          rcases hplace hahead with ⟨c₁, hget, htook, hahead₁, hshort₁, hposition⟩
          rcases (decodeUintvar_reads hdigits _).run hshort₁ hposition hahead₁ with
            ⟨c₂, htook₂, huintvar⟩
          have hahead₂ : c₂.ahead = value ++ rest := by
            rw [htook₂.ahead_eq, hahead₁, List.drop_left]
          rcases increasePointer_run (by rwa [htook₂.same]) (htook₂.position_le hposition)
            (n := value.length) (by rw [hahead₂]; simp) with ⟨c₃, htook₃, hskip⟩
          refine ⟨some (), c₃, ?_, ?_⟩
          · have hall := htook.trans (htook₂.trans htook₃)
            rwa [show 1 + (digits.length + value.length) =
              (HeaderValue.octets (0x1f :: digits) value).wire.length by
                simp [HeaderValue.wire]; omega] at hall
          · have hread : decodeXWapAbandonHeaderValue c = (.done (), c₃) := by
              rw [decodeXWapAbandonHeaderValue, bind_of_done hget, if_neg (by decide),
                if_pos (by rfl), decodeUintvar, bind_of_done huintvar]
              exact hskip
            rw [attempt, hread]
  | text t =>
      rcases IsText.wire_eq_cons h with ⟨b, os, hwire, hlow, hhigh, hextent⟩
      rw [HeaderValue.wire, hwire] at hahead ⊢
      rcases hplace hahead with ⟨c₁, hget, htook, hahead₁, hshort₁, hposition⟩
      rcases attempt_decodeText_run hshort₁ with ⟨r, c₂, htook₂, hread, -⟩
      have hnotLength : ¬ b ≤ 30 := fun hle => absurd (UInt8.le_trans hlow hle) (by decide)
      have hnotQuote : b ≠ 31 := by
        rintro rfl
        exact absurd hlow (by decide)
      have hbehind : c₁.ahead = os ++ rest := hahead₁
      rw [hbehind, hextent] at htook₂
      refine ⟨r.map fun _ => (), c₂, ?_, ?_⟩
      · simpa [Nat.add_comm] using htook.trans htook₂
      · rw [← attempt_discard hread, attempt, decodeXWapAbandonHeaderValue, bind_of_done hget,
          if_neg hnotLength, if_neg hnotQuote, if_pos hhigh]
        rfl
  | short value =>
      have hhigh := (or_0x80_and_0x7f h).1
      rcases hplace hahead with ⟨c₁, hget, htook, -⟩
      have hnot {n : UInt8} (hn : n ≤ 0x7f) : ¬ value ||| 0x80 ≤ n := fun hle =>
        absurd (UInt8.lt_of_lt_of_le hhigh (UInt8.le_trans hle hn)) (by decide)
      refine ⟨some (), c₁, htook, ?_⟩
      rw [attempt, decodeXWapAbandonHeaderValue, bind_of_done hget, if_neg (hnot (by decide)),
        if_neg fun heq => hnot (n := 31) (by decide) (UInt8.le_of_eq heq),
        if_neg (hnot (by decide))]
      rfl

/-! ## One round -/

section Rounds

variable {strWapAppId rest : Octets} {c : Cursor}

theorem applicationFieldRound_of_lt (h : c.position < c.octets.length) :
    applicationFieldRound strWapAppId () c = (do
      match ← attempt decodeInteger with
      | none => pure (.inr (false, strWapAppId))
      | some fieldValue =>
          if fieldValue = PARAMETER_X_WAP_APPLICATION_ID then do
            let value ← decodeXWapApplicationValue strWapAppId
            pure (.inr value)
          else do
            let _ ← attempt decodeXWapAbandonHeaderValue
            pure (.inl ()) : Reader (Unit ⊕ (Bool × Octets))) c := by
  have hposition : getCurPosition c = (.done c.position, c) := rfl
  have hsize : getSize c = (.done c.octets.length, c) := rfl
  rw [applicationFieldRound, bind_of_done hposition, bind_of_done hsize, if_pos h]

theorem applicationFieldRound_of_integer {v : IntegerValue} (hshort : c.octets.length < 2 ^ 31)
    (hvalid : v.Valid) (h : v.IsShort) (hahead : c.ahead = v.wire ++ rest) :
    ∃ c₁, Took c v.wire.length c₁ ∧ c₁.ahead = rest ∧
      applicationFieldRound strWapAppId () c =
        (if v.value = PARAMETER_X_WAP_APPLICATION_ID then do
          let value ← decodeXWapApplicationValue strWapAppId
          pure (.inr value)
        else do
          let _ ← attempt decodeXWapAbandonHeaderValue
          pure (.inl ()) : Reader (Unit ⊕ (Bool × Octets))) c₁ := by
  rcases v.exists_wire_eq hvalid with ⟨b, w, hw, -⟩
  have hlt : c.position < c.octets.length :=
    (Cursor.ahead_eq_cons (show c.ahead = b :: (w ++ rest) by rw [hahead, hw]; rfl)).1
  rcases (decodeInteger_reads hvalid h rest).attempt.run hshort (Nat.le_of_lt hlt) hahead with
    ⟨c₁, htook, hread⟩
  refine ⟨c₁, htook, by rw [htook.ahead_eq, hahead, List.drop_left], ?_⟩
  rw [applicationFieldRound_of_lt hlt, bind_of_done hread]

theorem applicationFieldRound_of_header (strWapAppId : Octets) {header : WapHeader}
    (hshort : c.octets.length < 2 ^ 31) (hvalid : header.Valid) (h : header.name.IsNumber)
    (hahead : c.ahead = header.wire ++ rest) :
    ∃ c₁, Took c header.wire.length c₁ ∧
      applicationFieldRound strWapAppId () c = (.done (.inl ()), c₁) := by
  rcases header with ⟨name, value⟩
  cases name with
  | token text => exact absurd h id
  | integer v =>
      have hother : v.value ≠ PARAMETER_X_WAP_APPLICATION_ID := fun heq => hvalid.other ⟨h, heq⟩
      rw [WapHeader.wire, List.append_assoc] at hahead
      rcases applicationFieldRound_of_integer hshort hvalid.name h hahead with
        ⟨c₁, htook, hahead₁, hround⟩
      rcases decodeXWapAbandonHeaderValue_took (by rwa [htook.same]) hvalid.value hahead₁ with
        ⟨r, c₂, htook₂, hskip⟩
      refine ⟨c₂, ?_, ?_⟩
      · rw [WapHeader.wire, List.length_append]
        exact htook.trans htook₂
      · rw [hround, if_neg hother, bind_of_done hskip]
        rfl

theorem length_of_not_isShort {v : IntegerValue} (hvalid : v.Valid) (h : ¬ v.IsShort) :
    ∃ b octets, v = .long octets ∧ v.wire = b :: octets ∧ b ≤ 0x7f ∧ 8 < b := by
  cases v with
  | short value => exact absurd trivial h
  | long octets =>
      have hlong : 8 < octets.length := Nat.not_le.1 h
      have hle : octets.length ≤ 30 := hvalid.2
      have hsize : octets.length < UInt8.size := Nat.lt_of_le_of_lt hle (by decide)
      exact ⟨UInt8.ofNat octets.length, octets, rfl, rfl,
        (UInt8.ofNat_le_iff_le hsize (by decide)).2 (Nat.le_trans hle (by decide)),
        (UInt8.ofNat_lt_iff_lt (by decide) hsize).2 hlong⟩

/-- A name that is no number ends the search. -/
theorem applicationFieldRound_of_not_isNumber (strWapAppId : Octets) {name : HeaderName}
    (hshort : c.octets.length < 2 ^ 31) (hvalid : name.Valid) (h : ¬ name.IsNumber)
    (hahead : c.ahead = name.wire ++ rest) :
    ∃ c₁, applicationFieldRound strWapAppId () c = (.done (.inr (false, strWapAppId)), c₁) := by
  have hfirst : ∃ b os, c.ahead = b :: os ∧ b ≤ 0x7f ∧ 8 < b := by
    cases name with
    | integer v =>
        rcases length_of_not_isShort hvalid h with ⟨b, octets, -, hwire, hlow, hlong⟩
        exact ⟨b, octets ++ rest, by rw [hahead, HeaderName.wire, hwire]; rfl, hlow, hlong⟩
    | token text =>
        rcases List.exists_cons_of_ne_nil hvalid.1 with ⟨b, os, rfl⟩
        have hrange := charIsToken_range (List.all_eq_true.1 hvalid.2 b List.mem_cons_self)
        exact ⟨b, os ++ [0] ++ rest, by rw [hahead]; rfl,
          UInt8.le_trans hrange.2 (by decide), UInt8.lt_of_lt_of_le (by decide) hrange.1⟩
  rcases hfirst with ⟨b, os, hcons, hlow, hlong⟩
  rcases decodeInteger_failed hshort hcons hlow hlong with ⟨c₁, -, hfailed⟩
  have hattempt : attempt decodeInteger c = (.done none, c₁) := by rw [attempt, hfailed]
  rw [applicationFieldRound_of_lt (Cursor.ahead_eq_cons hcons).1, bind_of_done hattempt]
  exact ⟨c₁, rfl⟩

end Rounds

/-! ## The id -/

section Value

variable {strWapAppId rest : Octets} {c : Cursor}

/-- A value that is no integer has lost its first octet. -/
theorem decodeXWapApplicationValue_of_text {b : UInt8} {os : Octets}
    (hshort : c.octets.length < 2 ^ 31) (hahead : c.ahead = b :: os) (hlow : b ≤ 0x7f)
    (hlong : 8 < b) :
    ∃ found c', decodeXWapApplicationValue strWapAppId c =
      (.done (found, textAhead (unquoted os)), c') := by
  rcases decodeInteger_failed hshort hahead hlow hlong with ⟨c₁, htook, hfailed⟩
  have hahead₁ : c₁.ahead = os := by rw [htook.ahead_eq, hahead]; rfl
  have hattempt : attempt decodeInteger c = (.done none, c₁) := by rw [attempt, hfailed]
  rcases attempt_decodeText_run (by rwa [htook.same]) with ⟨r, c₂, -, hread, htext⟩
  rw [hahead₁] at htext
  rw [decodeXWapApplicationValue, bind_of_done hattempt]
  dsimp only
  rw [bind_of_done hread, ← htext]
  cases r with
  | none => exact ⟨false, c₂, rfl⟩
  | some r => exact ⟨true, c₂, rfl⟩

theorem textAhead_unquoted {w : Octets} (h : 0 ∉ w) (rest : Octets) :
    textAhead (unquoted (w ++ [0] ++ rest)) = if w.head? = some 0x7f then w.tail else w := by
  cases w with
  | nil => rfl
  | cons b w =>
      rw [List.mem_cons, not_or] at h
      rw [List.cons_append, List.cons_append, unquoted, List.head?_cons, List.tail_cons]
      by_cases hb : b = 127
      · rw [if_pos hb, if_pos (by rw [hb]), textAhead_append_nul h.2]
      · rw [if_neg hb, if_neg fun heq => hb (Option.some.inj heq),
          textAhead_cons_of_ne fun heq => h.1 heq.symm, textAhead_append_nul h.2]

/-- A text is kept if it has lost no more than its quote. -/
theorem uri_eq_iff {t : TextString} (h : IsText t) {b : UInt8} {os : Octets}
    (hwire : t.wire = b :: os) (rest : Octets) :
    textAhead (unquoted (os ++ rest)) = t.text ↔
      t.quoted = true ∧ t.text.head? ≠ some 0x7f := by
  have hnul := h.1.noNul
  rcases t with ⟨quoted, text⟩
  have hshorter (w : Octets) : (if w.head? = some 0x7f then w.tail else w).length ≤ w.length := by
    split
    · rw [List.length_tail]
      omega
    · exact Nat.le_refl _
  cases quoted with
  | true =>
      have hos : os = text ++ [0] := (List.cons.inj hwire).2.symm
      rw [hos, textAhead_unquoted hnul]
      by_cases hquote : text.head? = some 0x7f
      · refine iff_of_false (fun heq => ?_) fun hkept => hkept.2 hquote
        rw [if_pos hquote] at heq
        cases text with
        | nil => cases hquote
        | cons d text =>
            have hlen := congrArg List.length heq
            rw [List.tail_cons, List.length_cons] at hlen
            omega
      · rw [if_neg hquote]
        exact iff_of_true rfl ⟨rfl, hquote⟩
  | false =>
      refine iff_of_false (fun heq => ?_) fun hkept => nomatch hkept.1
      cases text with
      | nil =>
          have hlow := h.2.1
          exact absurd hlow (by decide)
      | cons d text =>
          have hos : os = text ++ [0] := (List.cons.inj hwire).2.symm
          rw [List.mem_cons, not_or] at hnul
          rw [hos, textAhead_unquoted hnul.2] at heq
          have hle := hshorter text
          rw [heq, List.length_cons] at hle
          omega

theorem decodeXWapApplicationValue_run {value : ApplicationId} (hshort : c.octets.length < 2 ^ 31)
    (hc : c.position ≤ c.octets.length) (hvalid : value.Valid)
    (hahead : c.ahead = value.wire ++ rest) :
    ∃ found str c', decodeXWapApplicationValue strWapAppId c = (.done (found, str), c') ∧
      (str = value.id ↔ value.IsKept strWapAppId rest) := by
  have hinteger {v : IntegerValue} (hv : v.Valid) (h : v.IsShort)
      (hahead : c.ahead = v.wire ++ rest) :
      ∃ c', decodeXWapApplicationValue strWapAppId c = (.done (true, strWapAppId), c') := by
    rcases (decodeInteger_reads hv h rest).attempt.run hshort hc hahead with ⟨c₁, -, hread⟩
    rw [decodeXWapApplicationValue, bind_of_done hread]
    exact ⟨c₁, rfl⟩
  cases value with
  | uri t =>
      rcases IsText.wire_eq_cons hvalid with ⟨b, os, hwire, hlow, hhigh, -⟩
      have hlong : 8 < b := UInt8.lt_of_lt_of_le (by decide) hlow
      have hcons : c.ahead = b :: (os ++ rest) := by rw [hahead, ApplicationId.wire, hwire]; rfl
      rcases decodeXWapApplicationValue_of_text hshort hcons hhigh hlong with ⟨found, c', hrun⟩
      exact ⟨found, _, c', hrun, uri_eq_iff hvalid hwire rest⟩
  | assigned v =>
      by_cases hv : v.IsShort
      · rcases hinteger hvalid hv hahead with ⟨c', hrun⟩
        refine ⟨true, strWapAppId, c', hrun, ?_⟩
        cases v with
        | short value => exact Iff.rfl
        | long octets =>
            have hle : octets.length ≤ 8 := hv
            rw [ApplicationId.IsKept, if_pos hle]
            exact Iff.rfl
      · rcases length_of_not_isShort hvalid hv with ⟨b, octets, rfl, hwire, hlow, hlong⟩
        have hcons : c.ahead = b :: (octets ++ rest) := by
          rw [hahead, ApplicationId.wire, hwire]
          rfl
        rcases decodeXWapApplicationValue_of_text hshort hcons hlow hlong with ⟨found, c', hrun⟩
        refine ⟨found, _, c', hrun, ?_⟩
        have hgt : ¬ octets.length ≤ 8 := hv
        rw [ApplicationId.IsKept, if_neg hgt]
        exact Iff.rfl

end Value

/-! ## The headers of a push -/

section Headers

variable {strAppId : Octets} {before after : List WapHeader} {name : IntegerValue}
variable {value : ApplicationId}

/-- A block of headers with an application id. -/
def headersBlock (before : List WapHeader) (name : IntegerValue) (value : ApplicationId)
    (after : List WapHeader) : Octets :=
  headersWire before ++ (name.wire ++ (value.wire ++ headersWire after))

theorem headersWire_cons (header : WapHeader) (headers : List WapHeader) :
    headersWire (header :: headers) = header.wire ++ headersWire headers := List.flatMap_cons

theorem headersWire_append (pre post : List WapHeader) :
    headersWire (pre ++ post) = headersWire pre ++ headersWire post := List.flatMap_append

theorem WapHeader.wire_ne_nil {header : WapHeader} (h : header.Valid) : header.wire ≠ [] := by
  have hname : header.name.wire ≠ [] := by
    cases hcase : header.name with
    | integer v =>
        have hvalid := h.name
        rw [hcase] at hvalid
        rcases v.exists_wire_eq hvalid with ⟨b, w, hw, -⟩
        rw [HeaderName.wire, hw]
        exact List.cons_ne_nil b w
    | token text => simp [HeaderName.wire]
  rw [WapHeader.wire]
  exact List.append_ne_nil_of_left_ne_nil hname _

theorem length_le_headersWire (h : ∀ header ∈ before, header.Valid) :
    before.length ≤ (headersWire before).length := by
  induction before with
  | nil => exact Nat.zero_le _
  | cons header before ih =>
      have hrest := ih fun other hother => h other (List.mem_cons_of_mem _ hother)
      have hpos := List.length_pos_iff.2 (WapHeader.wire_ne_nil (h header List.mem_cons_self))
      rw [headersWire_cons, List.length_append, List.length_cons]
      omega

/-- The headers in front of the id are gone over, and then its value is read. -/
theorem iterate_applicationFieldRound (behind : Octets) {c : Cursor} {fuel : Nat}
    (hshort : c.octets.length < 2 ^ 31) (hbefore : ∀ header ∈ before, header.Valid)
    (hnumber : ∀ header ∈ before, header.name.IsNumber) (hname : name.Valid ∧ name.IsShort)
    (hid : name.value = PARAMETER_X_WAP_APPLICATION_ID) (hvalue : value.Valid)
    (hahead : c.ahead = headersWire before ++ (name.wire ++ (value.wire ++ behind)))
    (hfuel : before.length < fuel) :
    ∃ found str c', iterate (applicationFieldRound strAppId) fuel () c = (.done (found, str), c') ∧
      (str = value.id ↔ value.IsKept strAppId behind) := by
  induction before generalizing c fuel with
  | nil =>
      rcases fuel with _ | fuel
      · cases hfuel
      rcases applicationFieldRound_of_integer hshort hname.1 hname.2 hahead with
        ⟨c₁, htook, hahead₁, hround⟩
      rcases name.exists_wire_eq hname.1 with ⟨b, w, hw, -⟩
      have hcons : c.ahead = b :: (w ++ (value.wire ++ behind)) := by
        rw [hahead, hw]
        rfl
      have hposition := htook.position_le (Nat.le_of_lt (Cursor.ahead_eq_cons hcons).1)
      rcases decodeXWapApplicationValue_run (by rwa [htook.same]) hposition hvalue hahead₁ with
        ⟨found, str, c₂, hread, hkept⟩
      rw [if_pos hid, bind_of_done hread] at hround
      refine ⟨found, str, c₂, ?_, hkept⟩
      rw [iterate, bind_of_done hround]
      rfl
  | cons header before ih =>
      rcases fuel with _ | fuel
      · cases hfuel
      rw [headersWire_cons, List.append_assoc] at hahead
      rcases applicationFieldRound_of_header strAppId hshort (hbefore header List.mem_cons_self)
        (hnumber header List.mem_cons_self) hahead with ⟨c₁, htook, hround⟩
      have hahead₁ := htook.ahead_eq
      rw [hahead, List.drop_left] at hahead₁
      rw [iterate, bind_of_done hround]
      exact ih (by rwa [htook.same])
        (fun other hother => hbefore other (List.mem_cons_of_mem _ hother))
        (fun other hother => hnumber other (List.mem_cons_of_mem _ hother)) hahead₁
        (Nat.lt_of_succ_lt_succ hfuel)

/-- The id is the full value, and every header is gone over by its own octets: those in front of
the id one by one, and those behind it with the block. -/
structure ApplicationIdRead (strAppId front rest : Octets) (before : List WapHeader)
    (name : IntegerValue) (value : ApplicationId) (after : List WapHeader) : Prop where
  skipped : ∀ pre header post, before = pre ++ header :: post →
    ∃ c', applicationFieldRound strAppId ()
        ⟨headersBlock before name value after, (headersWire pre).length, []⟩ =
          (.done (.inl ()), c') ∧
      c'.position = (headersWire (pre ++ [header])).length
  recorded : ∃ found c',
    decodeXWapApplication strAppId (headersBlock before name value after).length
        ⟨front ++ headersBlock before name value after ++ rest, front.length, []⟩ =
      (.done (found, value.id), c') ∧
    c'.position = (front ++ headersBlock before name value after).length

theorem ahead_headersBlock (pre post : List WapHeader) (header : WapHeader) (name : IntegerValue)
    (value : ApplicationId) (after : List WapHeader) :
    Cursor.ahead ⟨headersBlock (pre ++ header :: post) name value after,
      (headersWire pre).length, []⟩ = header.wire ++
        (headersWire post ++ (name.wire ++ (value.wire ++ headersWire after))) := by
  rw [Cursor.ahead, headersBlock, headersWire_append, headersWire_cons, List.append_assoc,
    List.drop_left, List.append_assoc]

theorem decodeXWapApplication_run {front rest block : Octets} (hne : block ≠ [])
    (hsize : (front ++ block ++ rest).length ≤ MMS_PDU_MAX_SIZE) {found : Bool} {str : Octets}
    (h : (decodeXWapApplicationField strAppId ⟨block, 0, []⟩).1 = .done (found, str)) :
    ∃ c', decodeXWapApplication strAppId block.length ⟨front ++ block ++ rest, front.length, []⟩ =
      (.done (found, str), c') ∧ c'.position = (front ++ block).length := by
  have hmax : MMS_PDU_MAX_SIZE < 2 ^ 31 := by decide
  have hpos := List.length_pos_iff.2 hne
  simp only [List.length_append] at hsize
  have hcopy : readDataBuffer (front ++ block ++ rest) front.length block.length = some block := by
    rw [readDataBuffer, if_neg (by omega), if_neg (by simp only [List.length_append]; omega),
      if_neg (by omega), List.append_assoc, List.drop_left, List.take_left]
  rcases increasePointer_run (c := ⟨front ++ block ++ rest, front.length, []⟩) (n := block.length)
    (by simp only [List.length_append]; omega) (by simp only [List.length_append]; omega)
    (by rw [Cursor.length_ahead]; simp only [List.length_append]; omega) with ⟨c₁, htook, hskip⟩
  have hattempt : attempt (increasePointer block.length)
      ⟨front ++ block ++ rest, front.length, []⟩ = (.done (some ()), c₁) := by rw [attempt, hskip]
  refine ⟨c₁, ?_, by rw [htook.moved, List.length_append]⟩
  rw [decodeXWapApplication, cursor_bind]
  simp only [hcopy]
  rw [bind_of_done hattempt, onBuffer, h]

/-- The id is read so if every header in front of it has a number for its name, and the value is
one that is kept. -/
theorem applicationIdRead_iff (strAppId front rest : Octets)
    (hbefore : ∀ header ∈ before, header.Valid) (hname : name.Valid ∧ name.IsShort)
    (hid : name.value = PARAMETER_X_WAP_APPLICATION_ID) (hvalue : value.Valid)
    (hsize : (front ++ headersBlock before name value after ++ rest).length ≤ MMS_PDU_MAX_SIZE) :
    ApplicationIdRead strAppId front rest before name value after ↔
      (∀ header ∈ before, header.name.IsNumber) ∧
        value.IsKept strAppId (headersWire after) := by
  have hmax : MMS_PDU_MAX_SIZE < 2 ^ 31 := by decide
  have hshort : (headersBlock before name value after).length < 2 ^ 31 := by
    simp only [List.length_append] at hsize
    omega
  have hne : headersBlock before name value after ≠ [] := by
    rcases name.exists_wire_eq hname.1 with ⟨b, w, hw, -⟩
    rw [headersBlock, hw]
    simp
  have hrun (hnumber : ∀ header ∈ before, header.name.IsNumber) :
      ∃ found str, (decodeXWapApplicationField strAppId
          ⟨headersBlock before name value after, 0, []⟩).1 = .done (found, str) ∧
        (str = value.id ↔ value.IsKept strAppId (headersWire after)) := by
    have hfuel : before.length < (headersBlock before name value after).length + 1 := by
      have hle := length_le_headersWire hbefore
      rw [headersBlock, List.length_append]
      omega
    rcases iterate_applicationFieldRound (headersWire after)
      (c := ⟨headersBlock before name value after, 0, []⟩) hshort hbefore hnumber hname hid hvalue
      rfl hfuel with ⟨found, str, c', hloop, hkept⟩
    refine ⟨found, str, ?_, hkept⟩
    rw [decodeXWapApplicationField, loop, hloop]
  constructor
  · intro hread
    have hnumber : ∀ header ∈ before, header.name.IsNumber := by
      intro header hmem
      by_contra hnot
      rcases List.append_of_mem hmem with ⟨pre, post, rfl⟩
      rcases hread.skipped pre header post rfl with ⟨c', hround, -⟩
      have hahead := ahead_headersBlock pre post header name value after
      rw [WapHeader.wire, List.append_assoc] at hahead
      rcases applicationFieldRound_of_not_isNumber strAppId hshort
        (hbefore header hmem).name hnot hahead with ⟨c₁, hstops⟩
      rw [hround] at hstops
      cases hstops
    rcases hrun hnumber with ⟨found, str, hfield, hkept⟩
    rcases decodeXWapApplication_run hne hsize hfield with ⟨c₁, happlication, -⟩
    rcases hread.recorded with ⟨found', c', hrecorded, -⟩
    rw [happlication] at hrecorded
    cases hrecorded
    exact ⟨hnumber, hkept.1 rfl⟩
  · rintro ⟨hnumber, hkeeps⟩
    rcases hrun hnumber with ⟨found, str, hfield, hkept⟩
    rcases decodeXWapApplication_run hne hsize hfield with ⟨c₁, happlication, hposition⟩
    rw [hkept.2 hkeeps] at happlication
    refine ⟨?_, found, c₁, happlication, hposition⟩
    rintro pre header post rfl
    have hmem : header ∈ pre ++ header :: post := List.mem_append_right _ List.mem_cons_self
    rcases applicationFieldRound_of_header strAppId hshort (hbefore header hmem)
      (hnumber header hmem) (ahead_headersBlock pre post header name value after) with
      ⟨c', htook, hround⟩
    refine ⟨c', hround, ?_⟩
    rw [htook.moved, headersWire_append, List.length_append]
    simp [headersWire]

/-- A text with a quote, behind a header with a date. -/
theorem applicationIdRead_quoted :
    ApplicationIdRead [] [] [] [⟨.integer (.short 0x12), .octets [4] [1, 2, 3, 4]⟩] (.short 0x2f)
      (.uri ⟨true, [0x61, 0x62]⟩) [] := by
  have hdate : WapHeader.Valid ⟨.integer (.short 0x12), .octets [4] [1, 2, 3, 4]⟩ := by
    refine ⟨show (0x12 : UInt8) < 0x80 by decide, IsValueLength.short (by decide), ?_⟩
    rintro ⟨-, hid⟩
    exact absurd hid (by decide)
  have hname : (IntegerValue.short 0x2f).Valid ∧ (IntegerValue.short 0x2f).IsShort :=
    ⟨show (0x2f : UInt8) < 0x80 by decide, trivial⟩
  have hquoted : TextString.Valid ⟨true, [0x61, 0x62]⟩ := ⟨by decide, nofun⟩
  have hvalue : (ApplicationId.uri ⟨true, [0x61, 0x62]⟩).Valid := ⟨hquoted, by decide, by decide⟩
  refine (applicationIdRead_iff [] [] [] (by simpa using hdate) hname rfl hvalue (by decide)).2
    ⟨?_, rfl, by decide⟩
  rintro header hmem
  rw [List.mem_singleton] at hmem
  subst hmem
  trivial

theorem ApplicationIdRead.string_eq {front rest : Octets}
    (h : ApplicationIdRead strAppId front rest before name value after) :
    (decodeXWapApplication strAppId (headersBlock before name value after).length
      ⟨front ++ headersBlock before name value after ++ rest, front.length, []⟩).1.toOption.map
        Prod.snd = some value.id := by
  rcases h.recorded with ⟨found, c', hrun, -⟩
  rw [hrun]
  rfl

/-- A text without a quote, and a number. -/
theorem not_applicationIdRead :
    ¬ ApplicationIdRead [] [] [] [] (.short 0x2f) (.uri ⟨false, [0x61, 0x62]⟩) [] ∧
      ¬ ApplicationIdRead [] [] [] [] (.short 0x2f) (.assigned (.short 4)) [] :=
  ⟨fun h => absurd h.string_eq (by decide +kernel), fun h => absurd h.string_eq (by decide +kernel)⟩

end Headers

end TelephonySms.Wap
