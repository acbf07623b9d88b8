import TelephonySms.Mms.ContentType
import TelephonySms.Mms.Values

/-! # Content types on the wire

A content type in each of its forms: a code, a text, or either with parameters behind a
value length. The decoder takes exactly its octets, save where a type is a long integer,
which it does not know.
-/

namespace TelephonySms.Mms

open OctetReader Reader ContentParam

/-! ## Media -/

/-- `Well-known-media | Extension-Media`, and the types that a parameter may have. -/
inductive MediaType where
  | code (value : UInt8)
  | long (octets : Octets)
  | text (value : TextString)
  deriving DecidableEq, Repr

/-- The octet that tells a text from a number. -/
def TextString.first (t : TextString) : UInt8 := t.wire.headD 0

theorem TextString.wire_eq_cons (t : TextString) : t.wire = t.first :: t.wire.tail := by
  obtain ⟨b, w, hw⟩ := List.exists_cons_of_ne_nil t.wire_ne_nil
  rw [first, hw]
  rfl

namespace MediaType

def wire : MediaType → Octets
  | code value => [value ||| 0x80]
  | long octets => (IntegerValue.long octets).wire
  | text value => value.wire

def name : MediaType → Octets
  | code value => getContentTypeFromInt value
  | long _ => []
  | text value => value.text

def Valid : MediaType → Prop
  | code value => value < 0x80
  | long octets => (IntegerValue.long octets).Valid
  | text value => value.Valid ∧ value.first ≤ 0x7f

/-- A type that the decoder knows. -/
def IsRead : MediaType → Prop
  | long _ => False
  | _ => True

end MediaType

/-! ## Parameters -/

inductive ContentParameter where
  | charset (value : IntegerValue)
  | text (field : UInt8) (value : TextString)
  | type (field : UInt8) (value : MediaType)
  deriving DecidableEq, Repr

namespace ContentParameter

def wire : ContentParameter → Octets
  | charset value => CT_P_CHARSET :: value.wire
  | text field value => field :: value.wire
  | type field value => field :: value.wire

def Valid : ContentParameter → Prop
  | charset value => value.Valid
  | text field value => field ∈ textParams ∧ value.Valid
  | type field value => (field = CT_P_TYPE ∨ field = CT_P_TYPE_STRING) ∧ value.Valid

def IsRead : ContentParameter → Prop
  | charset value => value.IsShort
  | text _ _ => True
  | type _ value => value.IsRead

def apply (param : MmsContentParam) : ContentParameter → MmsContentParam
  | charset value => { param with charset := u32 value.value }
  | text field value => param.insert field value.text
  | type _ value => { param with type := value.name }

theorem wire_ne_nil (p : ContentParameter) : p.wire ≠ [] := by
  cases p <;> simp [wire]

end ContentParameter

theorem i32_of_lt {n : Int} (h : -2 ^ 31 ≤ n) (hlt : n < 2 ^ 31) : i32 n = n := by
  unfold i32
  rw [Int.bmod_eq_of_le] <;> omega

theorem i32_sub {a b : Nat} (h : b ≤ a) (ha : a < 2 ^ 31) :
    i32 ((a : Int) - i32 (b : Int)) = ((a - b : Nat) : Int) := by
  rw [i32_of_lt (n := (b : Int)) (by omega) (by omega), i32_of_lt (by omega) (by omega)]
  omega

section Parameters

variable {param : MmsContentParam} {n : Nat}

theorem textField_left {t : TextString} (hn : n + t.wire.length < 2 ^ 31) :
    i32 (i32 (↑(n + t.wire.length) - i32 ↑t.count) - 1) = n := by
  have hlen := t.length_wire
  rw [i32_sub (by omega) hn, i32_of_lt (by omega) (by omega)]
  omega

theorem decodeTextField_reads {field : UInt8} {t : TextString} (h : t.Valid)
    (hn : n + t.wire.length < 2 ^ 31) :
    Reads (decodeTextField param field ↑(n + t.wire.length)) t.wire
      (param.insert field t.text, (n : Int)) := by
  intro rest
  refine ReadsBefore.bind_last (t.decodeText_reads h rest) ?_
  simp only [textField_left hn]
  exact ReadsBefore.pure _ _

/-- An integer does not look like the name of a charset. -/
theorem IntegerValue.exists_wire_eq {v : IntegerValue} (h : v.Valid) :
    ∃ b w, v.wire = b :: w ∧ (b ≤ 32 ∨ 127 ≤ b) ∧ b ≠ 0 := by
  cases v with
  | short value =>
      obtain ⟨hhigh, -⟩ := or_0x80_and_0x7f h
      refine ⟨value ||| 0x80, [], rfl, Or.inr (UInt8.le_of_lt hhigh), ?_⟩
      intro hzero
      rw [hzero] at hhigh
      exact absurd hhigh (by decide)
  | long octets =>
      obtain ⟨hne, hle⟩ := h
      have hpos := List.length_pos_iff.mpr hne
      have hnat : (UInt8.ofNat octets.length).toNat = octets.length := by
        rw [UInt8.toNat_ofNat']
        omega
      refine ⟨UInt8.ofNat octets.length, octets, rfl, Or.inl ?_, ?_⟩
      · rw [UInt8.le_iff_toNat_le, hnat]
        exact Nat.le_trans hle (by decide)
      · intro hzero
        have hlen := congrArg UInt8.toNat hzero
        rw [hnat] at hlen
        exact absurd hlen (Nat.ne_of_gt hpos)

theorem decodeCharsetField_reads {v : IntegerValue} (h : v.Valid) (hshort : v.IsShort)
    (hn : n + v.wire.length < 2 ^ 31) :
    Reads (decodeCharsetField param ↑(n + v.wire.length)) v.wire
      ({ param with charset := u32 v.value }, (n : Int)) := by
  intro rest
  have hinteger := decodeInteger_reads h hshort rest
  obtain ⟨b, w, hw, hb, hzero⟩ := v.exists_wire_eq h
  have hname : ¬ ((b > 32 ∧ b < 127) ∨ b = 0) := by
    rw [not_or, not_and_or, gt_iff_lt, UInt8.not_lt, UInt8.not_lt]
    exact ⟨hb, hzero⟩
  rw [hw] at hinteger hn ⊢
  refine ReadsBefore.bind_nil (peekOneByte_reads b _) ?_
  rw [if_neg hname]
  apply ReadsBefore.of_readsFrom
  intro position
  refine ReadsFrom.bind_nil (getCurPosition_reads _ _) ?_
  refine ReadsFrom.bind_last (hinteger.readsFrom _) ?_
  refine ReadsFrom.bind_nil (getCurPosition_reads _ _) ?_
  rw [if_pos (by omega), Nat.add_sub_cancel_left, i32_sub (by omega) hn, Nat.add_sub_cancel]
  exact (ReadsBefore.pure _ _).readsFrom _

theorem decodeTypeField_reads {t : MediaType} (h : t.Valid) (hread : t.IsRead)
    (hn : n + t.wire.length < 2 ^ 31) :
    Reads (decodeTypeField param ↑(n + t.wire.length)) t.wire
      ({ param with type := t.name }, (n : Int)) := by
  intro rest
  cases t with
  | long octets => exact absurd hread id
  | code value =>
      have hvalue : value < 0x80 := h
      obtain ⟨hhigh, hback⟩ := or_0x80_and_0x7f hvalue
      have hleft : i32 (↑(n + [value ||| 0x80].length) - 1) = n := by
        have hn' : n + 1 < 2 ^ 31 := hn
        rw [List.length_singleton, i32_of_lt (by omega) (by omega)]
        omega
      refine ReadsBefore.bind_last (getOneByte_reads _ rest) ?_
      rw [if_pos hhigh, hback, MediaType.wire, hleft]
      exact ReadsBefore.pure _ _
  | text t =>
      obtain ⟨hvalid, hfirst⟩ := h
      have hn' : n + t.wire.length < 2 ^ 31 := hn
      have hleft := textField_left hn'
      rw [MediaType.wire, t.wire_eq_cons]
      rw [t.wire_eq_cons] at hleft
      refine giveBack_reads decreasePointer_movesBack (if_neg (UInt8.not_lt.mpr hfirst)) ?_
      rw [← t.wire_eq_cons] at hleft ⊢
      refine ReadsBefore.bind_last (t.decodeText_reads hvalid rest) ?_
      simp only [hleft]
      exact ReadsBefore.pure _ _

theorem decodeOneParameter_reads (param : MmsContentParam) {p : ContentParameter} (h : p.Valid) (hread : p.IsRead)
    (hn : n + p.wire.length < 2 ^ 31) :
    Reads (decodeOneParameter (param, ↑(n + p.wire.length))) p.wire
      (.inl (p.apply param, (n : Int))) := by
  intro rest
  have hleft (w : Octets) (hlt : n + (w.length + 1) < 2 ^ 31) :
      i32 (↑(n + (w.length + 1)) - 1) = ↑(n + w.length) := by
    rw [i32_of_lt (by omega) (by omega)]
    omega
  cases p with
  | charset value =>
      have hlt : n + (value.wire.length + 1) < 2 ^ 31 := hn
      rw [decodeOneParameter, ContentParameter.wire, List.length_cons, if_pos (by simp only; omega)]
      refine ReadsBefore.bind (u := [CT_P_CHARSET]) (getOneByte_reads _ _) ?_
      simp only [if_true, hleft _ hlt]
      exact ReadsBefore.bind_last (decodeCharsetField_reads h hread (by omega) rest)
        (ReadsBefore.pure _ _)
  | text field value =>
      obtain ⟨hfield, hvalue⟩ := h
      have hlt : n + (value.wire.length + 1) < 2 ^ 31 := hn
      have hcharset : field ≠ CT_P_CHARSET := by
        rintro rfl
        exact absurd hfield (by decide)
      rw [decodeOneParameter, ContentParameter.wire, List.length_cons, if_pos (by simp only; omega)]
      refine ReadsBefore.bind (u := [field]) (getOneByte_reads _ _) ?_
      simp only [if_neg hcharset, if_pos hfield, hleft _ hlt]
      exact ReadsBefore.bind_last (decodeTextField_reads hvalue (by omega) rest)
        (ReadsBefore.pure _ _)
  | type field value =>
      obtain ⟨hfield, hvalue⟩ := h
      have hlt : n + (value.wire.length + 1) < 2 ^ 31 := hn
      have hother : field ≠ CT_P_CHARSET ∧ field ∉ textParams := by
        rcases hfield with rfl | rfl <;> decide
      rw [decodeOneParameter, ContentParameter.wire, List.length_cons, if_pos (by simp only; omega)]
      refine ReadsBefore.bind (u := [field]) (getOneByte_reads _ _) ?_
      simp only [if_neg hother.1, if_neg hother.2, if_pos hfield, hleft _ hlt]
      exact ReadsBefore.bind_last (decodeTypeField_reads hvalue hread (by omega) rest)
        (ReadsBefore.pure _ _)

/-- The parameters that the decoder does not know, from the first of them on. -/
def IsUnknown (tail : Octets) : Prop :=
  ∀ b ∈ tail.head?, b ∉ CT_P_CHARSET :: CT_P_TYPE :: CT_P_TYPE_STRING :: textParams

theorem decodeOneParameter_end (rest : Octets) :
    ReadsBefore (decodeOneParameter (param, 0)) [] rest (.inr param) := by
  rw [decodeOneParameter, if_neg (by simp)]
  exact ReadsBefore.pure _ _

/-- They are skipped together. -/
theorem unknown_rounds {tail : Octets} (h : IsUnknown tail) (hn : tail.length < 2 ^ 31)
    (rest : Octets) : Rounds decodeOneParameter rest param (param, (tail.length : Int)) tail := by
  cases tail with
  | nil => exact Rounds.last (decodeOneParameter_end rest)
  | cons b w =>
      have hb := h b rfl
      simp only [List.mem_cons, not_or] at hb
      rw [List.length_cons] at hn
      have hskip : (i32 (((w.length + 1 : Nat) : Int) - 1) % 2 ^ 32).toNat = w.length := by
        rw [i32_of_lt (by omega) (by omega)]
        omega
      have hround : ReadsBefore (decodeOneParameter (param, ((b :: w).length : Int))) (b :: w) rest
          (.inl (param, 0)) := by
        rw [decodeOneParameter, List.length_cons, if_pos (by simp only; omega)]
        refine ReadsBefore.bind (u := [b]) (getOneByte_reads _ _) ?_
        have htype : ¬ (b = CT_P_TYPE ∨ b = CT_P_TYPE_STRING) := not_or.mpr ⟨hb.2.1, hb.2.2.1⟩
        simp only [if_neg hb.1, if_neg hb.2.2.2, if_neg htype, hskip]
        exact ReadsBefore.bind_last (increasePointer_reads w rest) (ReadsBefore.pure _ _)
      have hend : Rounds decodeOneParameter rest param (param, 0) [] :=
        Rounds.last (decodeOneParameter_end rest)
      have hall := Rounds.next (v := []) (by simpa using hround) (by simp) hend
      simpa using hall

theorem decodeParameter_rounds (param : MmsContentParam) {params : List ContentParameter} {tail : Octets}
    (hvalid : ∀ p ∈ params, p.Valid) (hread : ∀ p ∈ params, p.IsRead) (htail : IsUnknown tail)
    (hn : (params.flatMap ContentParameter.wire ++ tail).length < 2 ^ 31) (rest : Octets) :
    Rounds decodeOneParameter rest (params.foldl ContentParameter.apply param)
      (param, ((params.flatMap ContentParameter.wire ++ tail).length : Int))
      (params.flatMap ContentParameter.wire ++ tail) := by
  induction params generalizing param with
  | nil => exact unknown_rounds htail hn rest
  | cons p params ih =>
      rw [List.flatMap_cons, List.append_assoc] at hn ⊢
      rw [List.length_append, Nat.add_comm] at hn ⊢
      have hround := decodeOneParameter_reads param (hvalid p List.mem_cons_self)
        (hread p List.mem_cons_self) hn
      refine Rounds.next (hround _) p.wire_ne_nil ?_
      exact ih _ (fun q hq => hvalid q (List.mem_cons_of_mem p hq))
        (fun q hq => hread q (List.mem_cons_of_mem p hq)) (by omega)

end Parameters

/-! ## Content types -/

/-- `Content-type-value = Constrained-media | Content-general-form` -/
inductive ContentTypeValue where
  | constrained (media : MediaType)
  | general (length : Octets) (media : MediaType) (params : List ContentParameter) (tail : Octets)
  deriving DecidableEq, Repr

namespace ContentTypeValue

/-- What the value length counts. -/
def body (media : MediaType) (params : List ContentParameter) (tail : Octets) : Octets :=
  media.wire ++ (params.flatMap ContentParameter.wire ++ tail)

def wire : ContentTypeValue → Octets
  | constrained media => media.wire
  | general length media params tail => length ++ body media params tail

/-- A text has an octet that is no control. -/
def IsMedia : MediaType → Prop
  | .text value => 0x20 ≤ value.first
  | _ => True

def Valid : ContentTypeValue → Prop
  | constrained media => media.Valid ∧ IsMedia media ∧ ∀ octets, media ≠ .long octets
  | general length media params tail =>
      media.Valid ∧ IsMedia media ∧ (∀ p ∈ params, p.Valid) ∧ IsUnknown tail ∧
        IsValueLength (body media params tail).length length

/-- No type in it is a long integer, and no charset has more than eight octets. -/
def IsRead : ContentTypeValue → Prop
  | constrained _ => True
  | general _ media params _ => media.IsRead ∧ ∀ p ∈ params, p.IsRead

def apply (contentType : MmsContentType) : ContentTypeValue → MmsContentType
  | constrained media => { contentType with contentType := media.name }
  | general _ media params _ =>
      ⟨media.name, params.foldl ContentParameter.apply contentType.msgContentParm⟩

end ContentTypeValue

open ContentTypeValue

theorem MediaType.wire_ne_nil (t : MediaType) : t.wire ≠ [] := by
  cases t with
  | code value => simp [MediaType.wire]
  | long octets => simp [MediaType.wire, IntegerValue.wire]
  | text value => exact value.wire_ne_nil

/-- The octet of a value length that comes first is no text and no code. -/
theorem IsValueLength.exists_wire_eq {n : Nat} {w : Octets} (h : IsValueLength n w) :
    ∃ b u, w = b :: u ∧ b ≤ 0x1f := by
  cases h with
  | short hle =>
      have hsize : n < UInt8.size := Nat.lt_of_le_of_lt hle (by decide)
      exact ⟨UInt8.ofNat n, [], rfl,
        (UInt8.ofNat_le_iff_le hsize (by decide)).2 (Nat.le_trans hle (by decide))⟩
  | @long u h => exact ⟨0x1f, u, rfl, UInt8.le_refl _⟩

/-- The content type behind its value length. -/
theorem decodeMmsCTGeneralForm_reads {length : Octets} {media : MediaType}
    {params : List ContentParameter} {tail : Octets} (contentType : MmsContentType)
    (h : (general length media params tail).Valid) (hread : (general length media params tail).IsRead)
    (hlt : (length ++ body media params tail).length < 2 ^ 31) :
    Reads (decodeMmsCTGeneralForm contentType) (length ++ body media params tail)
      ((general length media params tail).apply contentType, (length ++ body media params tail).length) := by
  intro rest
  obtain ⟨hmedia, hstring, hparams, htail, hlength⟩ := h
  obtain ⟨hmediaRead, hparamsRead⟩ := hread
  obtain ⟨b, u, hb, hlow⟩ := hlength.exists_wire_eq
  rw [List.length_append] at hlt ⊢
  have htotal : u64 ((body media params tail).length + length.length) =
      length.length + (body media params tail).length := by
    rw [u64, Nat.mod_eq_of_lt (by omega), Nat.add_comm]
  have hisLength : ReadsBefore decodeIsValueLength [] (length ++ body media params tail ++ rest) true := by
    rw [hb, List.cons_append, List.cons_append]
    simpa [hlow] using decodeIsValueLength_reads b (u ++ body media params tail ++ rest)
  refine ReadsBefore.bind_nil hisLength ?_
  refine ReadsBefore.bind_nil (ReadsBefore.guard rfl _) ?_
  refine ReadsBefore.bind (decodeValueLengthReturnLen_reads hlength _) ?_
  simp only [htotal]
  refine ReadsBefore.bind_nil (ReadsBefore.guard (by omega) _) ?_
  have hrounds := decodeParameter_rounds contentType.msgContentParm hparams hparamsRead
    htail (by simp only [body, List.length_append] at hlt ⊢; omega) rest
  have hparameter := hrounds.loop
  generalize hw : params.flatMap ContentParameter.wire ++ tail = w at hparameter htotal
  have hbody : body media params tail = media.wire ++ w := by rw [body, hw]
  rw [hbody] at hlt ⊢
  rw [List.length_append] at hlt ⊢
  cases media with
  | long octets => exact absurd hmediaRead id
  | code value =>
      have hvalue : value < 0x80 := hmedia
      obtain ⟨hhigh, hback⟩ := or_0x80_and_0x7f hvalue
      refine ReadsBefore.bind_nil (peekOneByte_reads (value ||| 0x80) _) ?_
      refine ReadsBefore.bind_nil (decodeIsShortInt_reads (value ||| 0x80) _) ?_
      rw [if_pos (decide_eq_true hhigh)]
      refine ReadsBefore.bind (u := [value ||| 0x80]) (increasePointer_reads [value ||| 0x80] _) ?_
      refine ReadsBefore.bind_nil (ReadsBefore.guard (by simp [MediaType.wire]) _) ?_
      have hleft : i32 ↑((MediaType.code value).wire.length + w.length - 1) = (w.length : Int) := by
        rw [i32_of_lt (by simp [MediaType.wire]) (by simp [MediaType.wire]; omega)]
        simp [MediaType.wire]
      rw [decodeParameter, hleft, hback]
      exact ReadsBefore.bind_last hparameter (ReadsBefore.pure _ _)
  | text t =>
      obtain ⟨hvalid, hfirst⟩ := hmedia
      have hlen := t.length_wire
      have hstring' : 0x20 ≤ t.first ∧ t.first ≤ 0x7f := ⟨hstring, hfirst⟩
      have hcons : (MediaType.text t).wire ++ w ++ rest = t.first :: (t.wire.tail ++ w ++ rest) := by
        rw [MediaType.wire, t.wire_eq_cons]
        rfl
      have hleft : i32 ↑(if (MediaType.text t).wire.length + w.length < u32 (t.count + 1) then 0
          else (MediaType.text t).wire.length + w.length - t.count - 1) = (w.length : Int) := by
        rw [MediaType.wire, hlen] at hlt ⊢
        rw [u32_of_lt (by omega), if_neg (by omega), i32_of_lt (by omega) (by omega)]
        omega
      refine ReadsBefore.bind_nil (a := t.first) ?_ ?_
      · rw [hcons]
        exact peekOneByte_reads _ _
      refine ReadsBefore.bind_nil (a := false) ?_ ?_
      · rw [hcons]
        have hlow : ¬ t.first > 0x7f := UInt8.not_lt.mpr hfirst
        simpa [hlow] using decodeIsShortInt_reads t.first (t.wire.tail ++ w ++ rest)
      rw [if_neg (by decide)]
      refine ReadsBefore.bind_nil (a := true) ?_ ?_
      · rw [hcons]
        simpa [hstring'] using decodeIsString_reads t.first (t.wire.tail ++ w ++ rest)
      rw [if_pos rfl]
      refine ReadsBefore.bind (t.decodeText_reads hvalid _).attempt ?_
      simp only [Option.getD_some, hleft]
      exact ReadsBefore.bind_last hparameter (ReadsBefore.pure _ _)

/-- The decoder takes the content type and returns its length. -/
theorem decodeMmsContentType_reads {v : ContentTypeValue} (contentType : MmsContentType)
    (h : v.Valid) (hread : v.IsRead) :
    Reads (decodeMmsContentType contentType) v.wire (v.apply contentType, v.wire.length) := by
  intro rest front trace hshort
  have hlt : v.wire.length < 2 ^ 31 := by
    simp only [List.length_append] at hshort
    omega
  revert front trace
  change ReadsBefore (decodeMmsContentType contentType) v.wire rest _
  cases v with
  | general length media params tail =>
      obtain ⟨b, u, hb, hlow⟩ := h.2.2.2.2.exists_wire_eq
      have hcons : length ++ body media params tail ++ rest =
          b :: (u ++ body media params tail ++ rest) := by rw [hb]; rfl
      have hread := decodeMmsCTGeneralForm_reads contentType h hread hlt rest
      refine ReadsBefore.bind_nil (a := false) ?_ ?_
      · rw [wire, hcons]
        have hnot : ¬ b > 0x7f := fun hgt => absurd (UInt8.lt_of_lt_of_le hgt hlow) (by decide)
        simpa [hnot] using decodeIsShortInt_reads b (u ++ body media params tail ++ rest)
      rw [if_neg (by decide)]
      refine ReadsBefore.bind_nil (a := false) ?_ ?_
      · rw [wire, hcons]
        have hnot : ¬ (0x20 ≤ b ∧ b ≤ 0x7f) :=
          fun hin => absurd (UInt8.le_trans hin.1 hlow) (by decide)
        simpa [hnot] using decodeIsString_reads b (u ++ body media params tail ++ rest)
      rw [if_neg (by decide)]
      exact hread
  | constrained media =>
      obtain ⟨hmedia, hstring, hlong⟩ := h
      cases media with
      | long octets => exact absurd rfl (hlong octets)
      | code value =>
          have hvalue : value < 0x80 := hmedia
          obtain ⟨hhigh, hback⟩ := or_0x80_and_0x7f hvalue
          refine ReadsBefore.bind_nil (decodeIsShortInt_reads (value ||| 0x80) _) ?_
          rw [if_pos (decide_eq_true hhigh)]
          refine ReadsBefore.bind_last (getOneByte_reads (value ||| 0x80) _) ?_
          rw [hback]
          exact ReadsBefore.pure _ _
      | text t =>
          obtain ⟨hvalid, hfirst⟩ := hmedia
          have hlen := t.length_wire
          have hstring' : 0x20 ≤ t.first ∧ t.first ≤ 0x7f := ⟨hstring, hfirst⟩
          have hcons : t.wire ++ rest = t.first :: (t.wire.tail ++ rest) := by
            rw [t.wire_eq_cons]
            rfl
          refine ReadsBefore.bind_nil (a := false) ?_ ?_
          · change ReadsBefore _ _ (t.wire ++ rest) _
            rw [hcons]
            have hlow : ¬ t.first > 0x7f := UInt8.not_lt.mpr hfirst
            simpa [hlow] using decodeIsShortInt_reads t.first (t.wire.tail ++ rest)
          rw [if_neg (by decide)]
          refine ReadsBefore.bind_nil (a := true) ?_ ?_
          · change ReadsBefore _ _ (t.wire ++ rest) _
            rw [hcons]
            simpa [hstring'] using decodeIsString_reads t.first (t.wire.tail ++ rest)
          rw [if_pos rfl]
          refine ReadsBefore.bind_last (t.decodeText_reads hvalid rest).attempt ?_
          have hcount : t.count < 2 ^ 31 - 1 := by
            have hlt' : t.wire.length < 2 ^ 31 := hlt
            omega
          simp only [Option.getD_some]
          refine ReadsBefore.bind_nil (ReadsBefore.guard hcount _) ?_
          change ReadsBefore _ _ _ (_, t.wire.length)
          rw [hlen]
          exact ReadsBefore.pure _ _

end TelephonySms.Mms
