import TelephonySms.Mms.Body
import TelephonySms.Mms.ContentTypeReading

/-! # Part headers on the wire

The headers of a part as their definitions allow them, what each leaves in the part, and by
how much the decoder takes off more than it reads.
-/

namespace TelephonySms.Mms

open OctetReader Reader MmsHeaderParam

/-! ## Headers -/

/-- `Disposition = Form-data | Attachment | Inline | Token-text` -/
inductive Disposition where
  | fromData
  | attachment
  | inline
  | token (name : TextString)
  deriving DecidableEq, Repr

namespace Disposition

def wire : Disposition → Octets
  | fromData => [0x80]
  | attachment => [0x81]
  | inline => [0x82]
  | token name => name.wire

def text : Disposition → Octets
  | fromData => DISPOSITION_FROM_DATA
  | attachment => DISPOSITION_ATTACHMENT
  | inline => DISPOSITION_INLINE
  | token name => name.text

def Valid : Disposition → Prop
  | token name => name.Valid ∧ name.first < 0x80
  | _ => True

end Disposition

/-- What stands behind a disposition: a file name may come first. -/
inductive DispositionParameters where
  | none
  | fileName (name : TextString) (more : Octets)
  | other (code : UInt8) (more : Octets)
  deriving DecidableEq, Repr

namespace DispositionParameters

def wire : DispositionParameters → Octets
  | none => []
  | fileName name more => 0x98 :: (name.wire ++ more)
  | other code more => code :: more

def Valid : DispositionParameters → Prop
  | none => True
  | fileName name _ => name.Valid
  | other code _ => code ≠ 0x98

def store (ph : MmsBodyPartHeader) : DispositionParameters → MmsBodyPartHeader
  | fileName name _ => { ph with strFileName := name.text }
  | _ => ph

end DispositionParameters

inductive PartHeader where
  | contentLocation (code : UInt8) (value : TextString)
  | contentId (value : Octets)
  | contentDisposition (code : UInt8) (length : Octets) (disposition : Disposition)
      (parameters : DispositionParameters)
  | wellKnown (code : UInt8) (value : Octets)
  | application (name : Octets) (value : TextString)
  deriving DecidableEq, Repr

namespace PartHeader

def wire : PartHeader → Octets
  | contentLocation code value => code :: value.wire
  | contentId value => (P_CONTENT_ID ||| 0x80) :: (0x22 :: value ++ [0])
  | contentDisposition code length disposition parameters =>
      code :: (length ++ (disposition.wire ++ parameters.wire))
  | wellKnown code value => code :: value
  | application name value => name ++ [0] ++ value.wire

/-- The codes of well-known headers. -/
def IsWellKnown (code : UInt8) : Prop := 0x80 ≤ code ∧ code ≤ 0xc7

def handled : List UInt8 :=
  [P_CONTENT_LOCATION_V1, P_CONTENT_LOCATION_V2, P_CONTENT_ID, P_CONTENT_DISPOSITION_V1,
    P_CONTENT_DISPOSITION_V2]

def Valid : PartHeader → Prop
  | contentLocation code value =>
      (code = P_CONTENT_LOCATION_V1 ||| 0x80 ∨ code = P_CONTENT_LOCATION_V2 ||| 0x80) ∧ value.Valid
  | contentId value => 0 ∉ value
  | contentDisposition code length disposition parameters =>
      (code = P_CONTENT_DISPOSITION_V1 ||| 0x80 ∨ code = P_CONTENT_DISPOSITION_V2 ||| 0x80) ∧
        disposition.Valid ∧ parameters.Valid ∧
          IsValueLength (disposition.wire ++ parameters.wire).length length
  | wellKnown code _ => IsWellKnown code ∧ code &&& 0x7f ∉ handled
  | application name value => name ≠ [] ∧ name.all charIsToken = true ∧ value.Valid

/-- A value that the decoder does not know has its one octet 0 at the end, and the length of a
disposition is short. -/
def IsRead : PartHeader → Prop
  | contentDisposition _ length _ _ => length.length = 1
  | wellKnown _ value => ∃ w, value = w ++ [0] ∧ 0 ∉ w
  | _ => True

def isApplication : PartHeader → Bool
  | application _ _ => true
  | _ => false

/-- The octets that are taken off the header length though they are not read. -/
def excess : PartHeader → Nat
  | contentDisposition _ _ _ .none => 1
  | contentDisposition _ _ _ _ => 2
  | _ => 0

def store (ph : MmsBodyPartHeader) : PartHeader → MmsBodyPartHeader
  | contentLocation _ value => { ph with strContentLocation := value.text }
  | contentId value => { ph with strContentID := value.filter (· != 0x22) }
  | contentDisposition _ _ disposition parameters =>
      parameters.store { ph with strDisposition := disposition.text }
  | wellKnown _ _ => ph
  | application name value =>
      if name = ascii "Content-Transfer-Encoding" then
        { ph with strContentTransferEncoding := value.text }
      else
        ph

end PartHeader

/-! ## Dispositions -/

theorem decodeDisposition_reads {disposition : Disposition} (h : disposition.Valid) :
    Reads MmsBodyPartHeader.decodeDisposition disposition.wire disposition.text := by
  intro rest
  cases disposition with
  | fromData => exact ReadsBefore.bind_last (getOneByte_reads 0x80 rest) (ReadsBefore.pure _ _)
  | attachment => exact ReadsBefore.bind_last (getOneByte_reads 0x81 rest) (ReadsBefore.pure _ _)
  | inline => exact ReadsBefore.bind_last (getOneByte_reads 0x82 rest) (ReadsBefore.pure _ _)
  | token name =>
      obtain ⟨hvalid, hfirst⟩ := h
      have hne (b : UInt8) (hb : 0x80 ≤ b) : name.first ≠ b := by
        rintro rfl
        exact absurd hfirst (UInt8.not_lt.mpr hb)
      rw [Disposition.wire, name.wire_eq_cons]
      refine giveBack_reads decreasePointer_movesBack ((if_neg (hne 0x80 (by decide))).trans
        ((if_neg (hne 0x81 (by decide))).trans (if_neg (hne 0x82 (by decide))))) ?_
      rw [← name.wire_eq_cons]
      exact ReadsBefore.bind_last (name.decodeText_reads hvalid rest) (ReadsBefore.pure _ _)

section Headers

variable {ph : MmsBodyPartHeader}

theorem decodeFileName_reads (ph : MmsBodyPartHeader) {parameters : DispositionParameters} (h : parameters.Valid)
    {code : UInt8} {more : Octets} (hwire : parameters.wire = code :: more) :
    ∃ w skipped, more = w ++ skipped ∧
      Reads (ph.decodeFileName code) w (parameters.store ph) := by
  cases parameters with
  | none => simp [DispositionParameters.wire] at hwire
  | fileName name rest =>
      obtain ⟨rfl, rfl⟩ := List.cons_eq_cons.mp hwire
      refine ⟨name.wire, rest, rfl, fun after => ?_⟩
      rw [MmsBodyPartHeader.decodeFileName, if_pos rfl]
      exact ReadsBefore.bind_last (name.decodeText_reads h after) (ReadsBefore.pure _ _)
  | other code' rest =>
      obtain ⟨rfl, rfl⟩ := List.cons_eq_cons.mp hwire
      have hcode : code' ≠ 0x98 := h
      refine ⟨[], rest, rfl, fun after => ?_⟩
      rw [MmsBodyPartHeader.decodeFileName, if_neg hcode]
      exact ReadsBefore.pure _ _

/-- The parameters behind a disposition of `n` octets, and the length that is returned. -/
theorem decodeDispositionParameter_reads {parameters : DispositionParameters}
    (h : parameters.Valid) {n begin : Nat} (hn : 0 < n) (rest : Octets) :
    ReadsFrom (ph.decodeDispositionParameter (n + parameters.wire.length) begin) (begin + n)
      parameters.wire rest
      (parameters.store ph, if parameters = .none then n - 1 else n + parameters.wire.length) := by
  refine ReadsFrom.bind_nil (getCurPosition_reads _ _) ?_
  rw [if_neg (by omega), Nat.add_sub_cancel_left]
  by_cases hnone : parameters = .none
  · subst hnone
    rw [if_pos ⟨by simp [DispositionParameters.wire], by omega⟩, if_pos rfl]
    exact (ReadsBefore.pure _ _).readsFrom _
  · obtain ⟨code, more, hwire⟩ : ∃ code more, parameters.wire = code :: more := by
      cases parameters with
      | none => exact absurd rfl hnone
      | fileName name more => exact ⟨0x98, name.wire ++ more, rfl⟩
      | other code more => exact ⟨code, more, rfl⟩
    obtain ⟨w, skipped, rfl, hfile⟩ := decodeFileName_reads ph h hwire
    rw [hwire, if_neg (by simp), if_neg hnone]
    refine ReadsFrom.bind (u := [code]) ((getOneByte_reads code _).readsFrom _) ?_
    refine ReadsFrom.bind ((hfile _).readsFrom _) ?_
    refine ReadsFrom.bind_nil (getCurPosition_reads _ _) ?_
    simp only [List.length_cons, List.length_nil]
    refine ReadsFrom.bind_nil ((ReadsBefore.guard ?_ _).readsFrom _) ?_
    · rw [List.length_append]
      omega
    rw [show n + ((w ++ skipped).length + 1) - (begin + n + (0 + 1) + w.length - begin) =
      skipped.length by rw [List.length_append]; omega]
    exact ReadsFrom.bind_last ((increasePointer_reads skipped rest).readsFrom _)
      ((ReadsBefore.pure _ _).readsFrom _)

/-- A short value length is read as a number in base 128. -/
theorem isUintvar_of_valueLength {n : Nat} {w : Octets} (h : IsValueLength n w)
    (hlen : w.length = 1) : IsUintvar n w := by
  cases h with
  | short hle =>
      have hnat : (UInt8.ofNat n).toNat = n := by
        rw [UInt8.toNat_ofNat']
        omega
      exact ⟨by simp [uintvarFrom, hnat]; omega, by omega⟩
  | @long u h =>
      obtain rfl : u = [] := by simpa using hlen
      exact absurd h.digits (by simp [uintvarFrom])

theorem Disposition.wire_ne_nil (disposition : Disposition) : disposition.wire ≠ [] := by
  cases disposition <;> simp [Disposition.wire, TextString.wire_ne_nil]

theorem decodeContentDisposition_reads (ph : MmsBodyPartHeader) {length : Octets} {disposition : Disposition}
    {parameters : DispositionParameters} (hdisposition : disposition.Valid)
    (hparameters : parameters.Valid)
    (hlength : IsValueLength (disposition.wire ++ parameters.wire).length length)
    (hshort : length.length = 1) (rest : Octets) :
    ReadsBefore ph.decodeContentDisposition (length ++ (disposition.wire ++ parameters.wire)) rest
      (parameters.store { ph with strDisposition := disposition.text },
        u32 ((if parameters = .none then disposition.wire.length - 1
          else disposition.wire.length + parameters.wire.length) + 1 + 1)) := by
  have hpos := List.length_pos_iff.mpr disposition.wire_ne_nil
  rw [List.length_append] at hlength
  apply ReadsBefore.of_readsFrom
  intro n
  refine ReadsFrom.bind ((decodeUintvar_reads (isUintvar_of_valueLength hlength hshort) _).readsFrom _) ?_
  refine ReadsFrom.bind_nil (getCurPosition_reads _ _) ?_
  refine ReadsFrom.bind ((decodeDisposition_reads hdisposition _).readsFrom _) ?_
  refine ReadsFrom.bind_last (decodeDispositionParameter_reads hparameters hpos rest) ?_
  rw [hshort]
  exact (ReadsBefore.pure _ _).readsFrom _

/-- A value that the decoder does not know. -/
theorem decodeUnknownValue_reads {w : Octets} (hnul : 0 ∉ w) (rest : Octets) :
    ReadsBefore (do
      let text ← attempt decodeQuotedText
      pure (ph, (text.getD ([], 0)).2)) (w ++ [0]) rest (ph, w.length) := by
  by_cases hne : w = []
  · subst hne
    have hempty : FailsBefore decodeQuotedText [0] rest := by
      have hnil := untilNul_reads (fun oneByte => oneByte != 0x22) (fun _ => true)
        (List.not_mem_nil (a := (0 : UInt8))) [] 0 rest
      exact FailsBefore.bind (v := []) hnil (FailsBefore.bind_left _ (FailsBefore.guard (by simp) _))
    exact ReadsBefore.bind_last hempty.attempt (ReadsBefore.pure _ _)
  · exact ReadsBefore.bind_last (decodeQuotedText_reads hnul hne rest).attempt (ReadsBefore.pure _ _)

/-- A header that is not an application header: what the decoder takes off is its length and
the excess. -/
theorem decodeWellKnownHeader_reads {header : PartHeader} (h : header.Valid) (hread : header.IsRead)
    (happlication : header.isApplication = false) (hlen : header.wire.length < 2 ^ 31) (left : Nat) :
    Reads (ph.decodeWellKnownHeader left) header.wire
      (header.store ph, left - (header.wire.length + header.excess)) := by
  intro rest
  -- What the caller makes of the length that a field returns.
  have hback (code : UInt8) (value : Octets) (len : Nat) (ph' : MmsBodyPartHeader)
      (hlt : len + 1 < 2 ^ 32)
      (hvalue : ReadsBefore (ph.decodeWellKnownValue (code &&& 0x7f)) value rest (ph', len)) :
      ReadsBefore (ph.decodeWellKnownHeader left) (code :: value) rest (ph', left - (len + 2)) := by
    have hleft : (if left - 1 > u32 (len + 1) then left - 1 - u32 (len + 1) else 0) =
        left - (len + 2) := by
      rw [u32_of_lt hlt]
      split <;> omega
    refine ReadsBefore.bind (u := [code]) (getOneByte_reads code _) ?_
    refine ReadsBefore.bind_last hvalue ?_
    simp only [hleft]
    exact ReadsBefore.pure _ _
  cases header with
  | application name value => exact absurd happlication Bool.noConfusion
  | contentLocation code value =>
      obtain ⟨hcode, hvalue⟩ := h
      have hlength := value.length_wire
      have hfield : code &&& 0x7f = P_CONTENT_LOCATION_V1 ∨ code &&& 0x7f = P_CONTENT_LOCATION_V2 := by
        rcases hcode with rfl | rfl <;> decide
      simp only [PartHeader.wire, List.length_cons] at hlen
      have hreads : ReadsBefore (ph.decodeWellKnownValue (code &&& 0x7f)) value.wire rest
          ({ ph with strContentLocation := value.text }, value.count) := by
        rw [MmsBodyPartHeader.decodeWellKnownValue, if_pos hfield]
        exact ReadsBefore.bind_last (value.decodeText_reads hvalue rest) (ReadsBefore.pure _ _)
      have hall := hback code value.wire value.count _ (by omega) hreads
      simpa [PartHeader.wire, PartHeader.store, PartHeader.excess, hlength] using hall
  | contentId value =>
      have hnul : 0 ∉ 0x22 :: value := by
        rw [List.mem_cons, not_or]
        exact ⟨by decide, h⟩
      simp only [PartHeader.wire, List.length_cons] at hlen
      have hreads : ReadsBefore (ph.decodeWellKnownValue ((P_CONTENT_ID ||| 0x80) &&& 0x7f))
          (0x22 :: value ++ [0]) rest
          ({ ph with strContentID := value.filter (· != 0x22) }, value.length + 1) := by
        rw [MmsBodyPartHeader.decodeWellKnownValue, if_neg (by decide), if_pos (by decide)]
        have hquoted := decodeQuotedText_reads hnul (by simp) rest
        rw [List.filter_cons, if_neg (by simp)] at hquoted
        exact ReadsBefore.bind_last hquoted (ReadsBefore.pure _ _)
      have hall := hback (P_CONTENT_ID ||| 0x80) _ _ _ (by simp at hlen; omega) hreads
      simpa [PartHeader.wire, PartHeader.store, PartHeader.excess] using hall
  | contentDisposition code length disposition parameters =>
      obtain ⟨hcode, hdisposition, hparameters, hlength⟩ := h
      have hshort : length.length = 1 := hread
      have hpos := List.length_pos_iff.mpr disposition.wire_ne_nil
      have hfield : ¬ (code &&& 0x7f = P_CONTENT_LOCATION_V1 ∨ code &&& 0x7f = P_CONTENT_LOCATION_V2) ∧
          code &&& 0x7f ≠ P_CONTENT_ID ∧
          (code &&& 0x7f = P_CONTENT_DISPOSITION_V1 ∨ code &&& 0x7f = P_CONTENT_DISPOSITION_V2) := by
        rcases hcode with rfl | rfl <;> decide
      simp only [PartHeader.wire, List.length_cons, List.length_append] at hlen
      have hreads := decodeContentDisposition_reads ph hdisposition hparameters hlength
        hshort rest
      have hcount : u32 ((if parameters = .none then disposition.wire.length - 1
          else disposition.wire.length + parameters.wire.length) + 1 + 1) =
          disposition.wire.length + parameters.wire.length +
            (PartHeader.contentDisposition code length disposition parameters).excess := by
        rw [u32_of_lt (by split <;> omega)]
        cases parameters <;> simp [PartHeader.excess, DispositionParameters.wire]
        omega
      have hvalue : ph.decodeContentDisposition = ph.decodeWellKnownValue (code &&& 0x7f) := by
        rw [MmsBodyPartHeader.decodeWellKnownValue, if_neg hfield.1, if_neg hfield.2.1,
          if_pos hfield.2.2]
      rw [hcount, hvalue] at hreads
      have hexcess : (PartHeader.contentDisposition code length disposition parameters).excess ≤ 2 := by
        cases parameters <;> simp [PartHeader.excess]
      have hall := hback code _ _ _ (by omega) hreads
      have htotal : left - (disposition.wire.length + parameters.wire.length +
          (PartHeader.contentDisposition code length disposition parameters).excess + 2) =
          left - ((PartHeader.contentDisposition code length disposition parameters).wire.length +
            (PartHeader.contentDisposition code length disposition parameters).excess) := by
        simp only [PartHeader.wire, List.length_cons, List.length_append, hshort]
        omega
      rw [htotal] at hall
      exact hall
  | wellKnown code value =>
      obtain ⟨-, hcode⟩ := h
      obtain ⟨w, rfl, hnul⟩ := hread
      simp only [PartHeader.handled, List.mem_cons, List.not_mem_nil, or_false, not_or] at hcode
      obtain ⟨h1, h2, h3, h4, h5⟩ := hcode
      simp only [PartHeader.wire, List.length_cons, List.length_append, List.length_nil] at hlen
      have hreads : ReadsBefore (ph.decodeWellKnownValue (code &&& 0x7f)) (w ++ [0]) rest
          (ph, w.length) := by
        rw [MmsBodyPartHeader.decodeWellKnownValue, if_neg (not_or.mpr ⟨h1, h2⟩), if_neg h3,
          if_neg (not_or.mpr ⟨h4, h5⟩)]
        exact decodeUnknownValue_reads hnul rest
      have hall := hback code (w ++ [0]) _ _ (by omega) hreads
      simpa [PartHeader.wire, PartHeader.store, PartHeader.excess] using hall

theorem decodeApplicationHeader_reads {name : Octets} {value : TextString}
    (h : (PartHeader.application name value).Valid) :
    Reads ph.decodeApplicationHeader (PartHeader.application name value).wire
      ((PartHeader.application name value).store ph, 0) := by
  intro rest
  obtain ⟨hne, hname, hvalue⟩ := h
  refine ReadsBefore.bind (decodeTokenText_reads hname hne _) ?_
  refine ReadsBefore.bind_last (value.decodeText_reads hvalue rest) ?_
  simp only [gt_iff_lt, Nat.not_lt_zero, if_false]
  exact ReadsBefore.pure _ _

end Headers

/-! ## All headers of a part -/

def headersWire (headers : List PartHeader) : Octets := headers.flatMap PartHeader.wire

def storeHeaders (headers : List PartHeader) (ph : MmsBodyPartHeader) : MmsBodyPartHeader :=
  headers.foldl PartHeader.store ph

/-- With `excess` taken off so far: an application header is the last one, and no header is
lost because nothing seems to be left of the header length. -/
def Counted : Nat → List PartHeader → Prop
  | _, [] => True
  | excess, header :: headers =>
      excess < (headersWire (header :: headers)).length ∧ (header.isApplication = true → headers = []) ∧
        Counted (excess + header.excess) headers

theorem PartHeader.wire_ne_nil (header : PartHeader) : header.wire ≠ [] := by
  cases header <;> simp [PartHeader.wire]

/-- The first octet tells the two kinds of headers apart. -/
theorem PartHeader.exists_wire_eq {header : PartHeader} (h : header.Valid) :
    ∃ b w, header.wire = b :: w ∧
      if header.isApplication then ¬ (0x80 ≤ b ∧ b ≤ 0xc7) ∧ 32 ≤ b ∧ b ≤ 127
      else 0x80 ≤ b ∧ b ≤ 0xc7 := by
  cases header with
  | contentLocation code value =>
      refine ⟨code, value.wire, rfl, (?_ : 0x80 ≤ code ∧ code ≤ 0xc7)⟩
      rcases h.1 with rfl | rfl <;> decide
  | contentId value =>
      exact ⟨P_CONTENT_ID ||| 0x80, 0x22 :: value ++ [0], rfl,
        show 0x80 ≤ P_CONTENT_ID ||| 0x80 ∧ P_CONTENT_ID ||| 0x80 ≤ 0xc7 by decide⟩
  | contentDisposition code length disposition parameters =>
      refine ⟨code, length ++ (disposition.wire ++ parameters.wire), rfl,
        (?_ : 0x80 ≤ code ∧ code ≤ 0xc7)⟩
      rcases h.1 with rfl | rfl <;> decide
  | wellKnown code value => exact ⟨code, value, rfl, h.1⟩
  | application name value =>
      obtain ⟨hne, hname, -⟩ := h
      obtain ⟨b, w, rfl⟩ := List.exists_cons_of_ne_nil hne
      obtain ⟨hlow, hhigh⟩ := charIsToken_range (List.all_eq_true.mp hname b List.mem_cons_self)
      refine ⟨b, w ++ [0] ++ value.wire, by simp [wire], ?_⟩
      have hnot : ¬ 0x80 ≤ b := fun hle => absurd (UInt8.le_trans hle hhigh) (by decide)
      exact ⟨fun hin => hnot hin.1, UInt8.le_trans (by decide) hlow, UInt8.le_trans hhigh (by decide)⟩

section Rounds

variable (ph : MmsBodyPartHeader)

/-- A round of the decoder takes a header, and the length that is left shrinks by it and its
excess, to nothing behind an application header. -/
theorem decodeOnePartHeader_reads {header : PartHeader} (h : header.Valid) (hread : header.IsRead)
    (hlen : header.wire.length < 2 ^ 31) {left : Nat} (hleft : 0 < left) :
    Reads (MmsBodyPart.decodeOnePartHeader (ph, left)) header.wire
      (.inl (header.store ph,
        if header.isApplication then 0 else left - (header.wire.length + header.excess))) := by
  intro rest
  obtain ⟨b, w, hwire, hkind⟩ := header.exists_wire_eq h
  rw [MmsBodyPart.decodeOnePartHeader, if_pos hleft]
  refine ReadsBefore.bind_nil (a := b) ?_ ?_
  · rw [hwire]
    exact peekOneByte_reads _ _
  cases happlication : header.isApplication with
  | true =>
      simp only [happlication, if_true] at hkind
      rw [if_neg hkind.1, if_pos hkind.2, if_pos rfl]
      cases header with
      | application name value =>
          exact ReadsBefore.bind_last (decodeApplicationHeader_reads h rest) (ReadsBefore.pure _ _)
      | _ => exact absurd happlication Bool.noConfusion
  | false =>
      simp only [happlication, Bool.false_eq_true, if_false] at hkind
      rw [if_pos hkind, if_neg Bool.noConfusion]
      exact ReadsBefore.bind_last (decodeWellKnownHeader_reads h hread happlication hlen left rest)
        (ReadsBefore.pure _ _)

theorem decodeOnePartHeader_end (rest : Octets) :
    ReadsBefore (MmsBodyPart.decodeOnePartHeader (ph, 0)) [] rest (.inr ph) := by
  rw [MmsBodyPart.decodeOnePartHeader, if_neg (by simp)]
  exact ReadsBefore.pure _ _

variable {headers : List PartHeader} {excess : Nat}

theorem decodePartHeader_rounds (hvalid : ∀ header ∈ headers, header.Valid)
    (hread : ∀ header ∈ headers, header.IsRead) (hlen : (headersWire headers).length < 2 ^ 31)
    (hcounted : Counted excess headers) (rest : Octets) :
    Rounds MmsBodyPart.decodeOnePartHeader rest (storeHeaders headers ph)
      (ph, (headersWire headers).length - excess) (headersWire headers) := by
  induction headers generalizing ph excess with
  | nil =>
      rw [headersWire, List.flatMap_nil, List.length_nil, Nat.zero_sub]
      exact Rounds.last (decodeOnePartHeader_end ph rest)
  | cons header headers ih =>
      obtain ⟨hmore, hlast, hcounted⟩ := hcounted
      have hsplit : headersWire (header :: headers) = header.wire ++ headersWire headers := rfl
      rw [hsplit, List.length_append] at hlen hmore
      have hround := decodeOnePartHeader_reads ph (hvalid header List.mem_cons_self)
        (hread header List.mem_cons_self) (by omega)
        (show 0 < header.wire.length + (headersWire headers).length - excess by omega)
      have hrest := ih (header.store ph)
        (fun other hother => hvalid other (List.mem_cons_of_mem header hother))
        (fun other hother => hread other (List.mem_cons_of_mem header hother)) (by omega) hcounted
      rw [hsplit, List.length_append]
      refine Rounds.next (hround _) header.wire_ne_nil ?_
      cases happlication : header.isApplication with
      | true =>
          obtain rfl := hlast happlication
          simpa [headersWire, storeHeaders] using hrest
      | false =>
          rw [if_neg Bool.noConfusion, show header.wire.length + (headersWire headers).length -
            excess - (header.wire.length + header.excess) =
              (headersWire headers).length - (excess + header.excess) by omega]
          exact hrest

/-- Where the headers do not count up, the decoder stops between two of them. -/
theorem decodePartHeader_rounds_short (hvalid : ∀ header ∈ headers, header.Valid)
    (hread : ∀ header ∈ headers, header.IsRead) (hlen : (headersWire headers).length < 2 ^ 31)
    (hcounted : ¬ Counted excess headers) (rest : Octets) :
    ∃ u v ph', headersWire headers = u ++ v ∧ v ≠ [] ∧
      Rounds MmsBodyPart.decodeOnePartHeader (v ++ rest) ph'
        (ph, (headersWire headers).length - excess) u := by
  induction headers generalizing ph excess with
  | nil => exact absurd trivial hcounted
  | cons header headers ih =>
      have hsplit : headersWire (header :: headers) = header.wire ++ headersWire headers := rfl
      have hpos := List.length_pos_iff.mpr header.wire_ne_nil
      rw [hsplit, List.length_append] at hlen ⊢
      by_cases hmore : excess < header.wire.length + (headersWire headers).length
      case neg =>
        refine ⟨[], header.wire ++ headersWire headers, ph, rfl, by simp [header.wire_ne_nil], ?_⟩
        rw [Nat.sub_eq_zero_of_le (Nat.not_lt.mp hmore)]
        exact Rounds.last (decodeOnePartHeader_end ph _)
      have hround := decodeOnePartHeader_reads ph (hvalid header List.mem_cons_self)
        (hread header List.mem_cons_self) (by omega)
        (show 0 < header.wire.length + (headersWire headers).length - excess by omega)
      cases happlication : header.isApplication with
      | true =>
          have hne : headers ≠ [] := by
            rintro rfl
            refine hcounted ⟨?_, fun _ => rfl, trivial⟩
            rw [hsplit, List.length_append]
            exact hmore
          obtain ⟨next, others, rfl⟩ := List.exists_cons_of_ne_nil hne
          rw [happlication, if_pos rfl] at hround
          refine ⟨header.wire, headersWire (next :: others), header.store ph, rfl,
            by simp [headersWire, next.wire_ne_nil], ?_⟩
          have hend := Rounds.next (v := []) (by simpa using hround _) header.wire_ne_nil
            (Rounds.last (decodeOnePartHeader_end (header.store ph)
              (headersWire (next :: others) ++ rest)))
          simpa using hend
      | false =>
          have hcounted' : ¬ Counted (excess + header.excess) headers := by
            intro h
            refine hcounted ⟨?_, fun htrue => ?_, h⟩
            · rw [hsplit, List.length_append]
              exact hmore
            · rw [happlication] at htrue
              exact absurd htrue Bool.noConfusion
          obtain ⟨u, v, ph', hwire, hv, hrounds⟩ := ih (header.store ph)
            (fun other hother => hvalid other (List.mem_cons_of_mem header hother))
            (fun other hother => hread other (List.mem_cons_of_mem header hother)) (by omega)
            hcounted'
          refine ⟨header.wire ++ u, v, ph', by rw [hwire, List.append_assoc], hv, ?_⟩
          rw [happlication, if_neg Bool.noConfusion, show header.wire.length +
            (headersWire headers).length - excess - (header.wire.length + header.excess) =
              (headersWire headers).length - (excess + header.excess) by omega] at hround
          exact Rounds.next (hround _) header.wire_ne_nil hrounds

end Rounds

end TelephonySms.Mms
