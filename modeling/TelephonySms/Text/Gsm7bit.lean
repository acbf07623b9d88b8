import TelephonySms.Text.Convert

/-! # `Gsm7bitToUcs2`

The conversion as it runs: into an array of some size, under a locking shift as well, and
with tables of 128 entries whatever stands behind an escape. A character is to come from one
septet or from an escape and the septet behind it.
-/

namespace TelephonySms.Text

/-- The languages of the shifts of a message. -/
structure MsgLangInfo where
  bSingleShift : Bool
  bLockingShift : Bool
  singleLang : UInt8
  lockingLang : UInt8
deriving DecidableEq, Repr

def turkishLockingToUcs2 : List UInt16 := [
  0x0040, 0x00A3, 0x0024, 0x00A5, 0x20AC, 0x00E9, 0x00F9, 0x00EC, 0x00F2, 0x00C7, 0x000A, 0x011E,
  0x011F, 0x000D, 0x00C5, 0x00E5, 0x0394, 0x005F, 0x03A6, 0x0393, 0x039B, 0x03A9, 0x03A0, 0x03A8,
  0x03A3, 0x0398, 0x039E, 0x001B, 0x015E, 0x015F, 0x00DF, 0x00C9, 0x0020, 0x0021, 0x0022, 0x0023,
  0x00A4, 0x0025, 0x0026, 0x0027, 0x0028, 0x0029, 0x002A, 0x002B, 0x002C, 0x002D, 0x002E, 0x002F,
  0x0030, 0x0031, 0x0032, 0x0033, 0x0034, 0x0035, 0x0036, 0x0037, 0x0038, 0x0039, 0x003A, 0x003B,
  0x003C, 0x003D, 0x003E, 0x003F, 0x0130, 0x0041, 0x0042, 0x0043, 0x0044, 0x0045, 0x0046, 0x0047,
  0x0048, 0x0049, 0x004A, 0x004B, 0x004C, 0x004D, 0x004E, 0x004F, 0x0050, 0x0051, 0x0052, 0x0053,
  0x0054, 0x0055, 0x0056, 0x0057, 0x0058, 0x0059, 0x005A, 0x00C4, 0x00D6, 0x00D1, 0x00DC, 0x00A7,
  0x00E7, 0x0061, 0x0062, 0x0063, 0x0064, 0x0065, 0x0066, 0x0067, 0x0068, 0x0069, 0x006A, 0x006B,
  0x006C, 0x006D, 0x006E, 0x006F, 0x0070, 0x0071, 0x0072, 0x0073, 0x0074, 0x0075, 0x0076, 0x0077,
  0x0078, 0x0079, 0x007A, 0x00E4, 0x00F6, 0x00F1, 0x00FC, 0x00E0]

def portuLockingToUcs2 : List UInt16 := [
  0x0040, 0x00A3, 0x0024, 0x00A5, 0x00EA, 0x00E9, 0x00FA, 0x00ED, 0x00F3, 0x00E7, 0x000A, 0x00D4,
  0x00F4, 0x000D, 0x00C1, 0x00E1, 0x0394, 0x005F, 0x0020, 0x00C7, 0x00C0, 0x0020, 0x005E, 0x005C,
  0x20AC, 0x00D3, 0x007C, 0x001B, 0x00C2, 0x00E2, 0x00CA, 0x00C9, 0x0020, 0x0021, 0x0022, 0x0023,
  0x00A4, 0x0025, 0x0026, 0x0027, 0x0028, 0x0029, 0x002A, 0x002B, 0x002C, 0x002D, 0x002E, 0x002F,
  0x0030, 0x0031, 0x0032, 0x0033, 0x0034, 0x0035, 0x0036, 0x0037, 0x0038, 0x0039, 0x003A, 0x003B,
  0x003C, 0x003D, 0x003E, 0x003F, 0x00CD, 0x0041, 0x0042, 0x0043, 0x0044, 0x0045, 0x0046, 0x0047,
  0x0048, 0x0049, 0x004A, 0x004B, 0x004C, 0x004D, 0x004E, 0x004F, 0x0050, 0x0051, 0x0052, 0x0053,
  0x0054, 0x0055, 0x0056, 0x0057, 0x0058, 0x0059, 0x005A, 0x00C3, 0x00D5, 0x00DA, 0x00DC, 0x00A7,
  0x00BF, 0x0061, 0x0062, 0x0063, 0x0064, 0x0065, 0x0066, 0x0067, 0x0068, 0x0069, 0x006A, 0x006B,
  0x006C, 0x006D, 0x006E, 0x006F, 0x0070, 0x0071, 0x0072, 0x0073, 0x0074, 0x0075, 0x0076, 0x0077,
  0x0078, 0x0079, 0x007A, 0x00E3, 0x00F5, 0x0020, 0x00FC, 0x00E0]

/-- What the conversion comes to: a read behind the end of a table, an error, or a text. -/
inductive Conversion where
  | outOfBounds
  | refused
  | text (ucs2 : List UInt16)
deriving DecidableEq, Repr

/-- The text with a character in front of it. -/
def Conversion.push (c : UInt16) : Conversion → Conversion
  | .text ucs2 => .text (c :: ucs2)
  | conversion => conversion

namespace MsgLangInfo

/-- The table of the septets without an escape; other languages have none. -/
def table (langInfo : MsgLangInfo) : Option (List UInt16) :=
  if langInfo.bLockingShift then
    if langInfo.lockingLang = 1 then some turkishLockingToUcs2
    else if langInfo.lockingLang = 3 then some portuLockingToUcs2
    else none
  else some gsm7BitToUcs2

/-- `EscapeToUcs2`; what is no septet is behind the end of the table. -/
def escapeToUcs2 (langInfo : MsgLangInfo) (srcText : UInt8) : Option UInt16 :=
  if srcText ≥ 0x80 then none
  else some (Text.escapeToUcs2 (if langInfo.bSingleShift then langInfo.singleLang else 0) srcText)

/-- The loop of `Gsm7bitToUcs2` with `maxLength` octets of the array left. `result` is the
character before, which an escape at the end leaves as it is. Under a locking shift without a
table nothing is assigned, and zeros are written. -/
def gsm7bitToUcs2Loop (langInfo : MsgLangInfo) : Nat → UInt16 → List UInt8 → Conversion
  | _, _, [] => .text []
  | maxLength, result, septet :: src =>
      if maxLength ≤ 2 then .text []
      else if septet ≥ 0x80 then .refused
      else
        match langInfo.table with
        | none => (gsm7bitToUcs2Loop langInfo (maxLength - 2) result src).push 0
        | some table =>
            if table.getD septet.toNat 0 = 0x001B then
              match src with
              | [] => .text [result]
              | next :: src =>
                  match langInfo.escapeToUcs2 next with
                  | none => .outOfBounds
                  | some c => (gsm7bitToUcs2Loop langInfo (maxLength - 2) c src).push c
            else
              (gsm7bitToUcs2Loop langInfo (maxLength - 2) (table.getD septet.toNat 0) src).push
                (table.getD septet.toNat 0)

def gsm7bitToUcs2 (langInfo : MsgLangInfo) (maxLength : Nat) (src : List UInt8) : Conversion :=
  if src = [] ∨ maxLength = 0 then .refused
  else langInfo.gsm7bitToUcs2Loop maxLength 0 src

end MsgLangInfo

/-! ## Characters and what they come from -/

/-- A septet, or an escape with the septet behind it. -/
inductive SeptetUnit where
  | single (septet : UInt8)
  | escaped (next : UInt8)
deriving DecidableEq, Repr

/-- An escape at the end is part of no character. -/
def septetUnits : List UInt8 → List SeptetUnit
  | [] => []
  | septet :: src =>
      if septet = 0x1B then
        match src with
        | [] => []
        | next :: src => .escaped next :: septetUnits src
      else .single septet :: septetUnits src

theorem septetUnits_cons {septet : UInt8} (hne : septet ≠ 0x1B) (src : List UInt8) :
    septetUnits (septet :: src) = .single septet :: septetUnits src := by
  cases src with
  | nil => simp [septetUnits, hne]
  | cons next src => simp [septetUnits, hne]

theorem septetUnits_append {front : List UInt8} (hescape : 0x1B ∉ front) (src : List UInt8) :
    septetUnits (front ++ src) = front.map .single ++ septetUnits src := by
  induction front with
  | nil => rfl
  | cons septet front ih =>
      rw [List.mem_cons, not_or] at hescape
      rw [List.cons_append, septetUnits_cons (Ne.symm hescape.1), ih hescape.2, List.map_cons,
        List.cons_append]

namespace MsgLangInfo

/-- The character of a unit. A language without a locking shift has the default alphabet. -/
def character (langInfo : MsgLangInfo) : SeptetUnit → UInt16
  | .single septet => (langInfo.table.getD gsm7BitToUcs2).getD septet.toNat 0
  | .escaped next => (langInfo.escapeToUcs2 next).getD 0x0020

end MsgLangInfo

/-- A conversion to this text, unless there is an error. -/
def Conversion.Gives (expected : List UInt16) : Conversion → Prop
  | .outOfBounds => False
  | .refused => True
  | .text ucs2 => ucs2 = expected

theorem Conversion.gives_push (conversion : Conversion) (c : UInt16) (expected : List UInt16) :
    (conversion.push c).Gives (c :: expected) ↔ conversion.Gives expected := by
  cases conversion <;> simp [push, Gives]

namespace MsgLangInfo

/-- Every character comes from one unit, and the text with its terminator is not longer than
the array. -/
def OneToOne (langInfo : MsgLangInfo) (maxLength : Nat) (src : List UInt8) : Prop :=
  (langInfo.gsm7bitToUcs2 maxLength src).Gives
      (((septetUnits src).take ((maxLength - 1) / 2)).map langInfo.character) ∧
    ∀ ucs2, langInfo.gsm7bitToUcs2 maxLength src = .text ucs2 → 2 * ucs2.length + 1 ≤ maxLength

/-- Up to an octet that is refused, no more than `room` units: whole escapes, with a septet
behind them. -/
def WholeEscapes : Nat → List UInt8 → Prop
  | 0, _ => True
  | _, [] => True
  | room + 1, septet :: src =>
      septet ≥ 0x80 ∨
        if septet = 0x1B then
          match src with
          | [] => False
          | next :: src => next < 0x80 ∧ WholeEscapes room src
        else WholeEscapes room src

/-! ## The conversion -/

/-- The escape is the one entry of a table that is an escape. -/
theorem table_eq_escape_iff {langInfo : MsgLangInfo} {table : List UInt16}
    (h : langInfo.table = some table) {septet : UInt8} (hlt : septet < 0x80) :
    table.getD septet.toNat 0 = 0x001B ↔ septet = 0x1B := by
  have hall : ∀ table ∈ [turkishLockingToUcs2, portuLockingToUcs2, gsm7BitToUcs2],
      ∀ n ∈ List.range 128, table.getD n 0 = 0x001B ↔ n = 0x1B := by
    decide +kernel
  have hmem : table ∈ [turkishLockingToUcs2, portuLockingToUcs2, gsm7BitToUcs2] := by
    unfold MsgLangInfo.table at h
    split_ifs at h <;> cases h <;> simp
  have hnat : septet.toNat < 128 := UInt8.lt_iff_toNat_lt.1 hlt
  rw [hall table hmem septet.toNat (List.mem_range.2 hnat), ← UInt8.toNat_inj]
  rfl

section Loop

variable {langInfo : MsgLangInfo}

/-- Nothing is written past the end of the array, the terminator included. -/
theorem length_gsm7bitToUcs2Loop (maxLength : Nat) (result : UInt16) (src : List UInt8)
    (ucs2 : List UInt16) (hpos : 0 < maxLength)
    (h : langInfo.gsm7bitToUcs2Loop maxLength result src = .text ucs2) :
    2 * ucs2.length + 1 ≤ maxLength := by
  have hpush {conversion : Conversion} {c : UInt16} {text : List UInt16}
      (h : conversion.push c = .text text) :
      ∃ rest, conversion = .text rest ∧ text = c :: rest := by
    cases conversion <;> simp_all [Conversion.push]
  fun_induction gsm7bitToUcs2Loop langInfo maxLength result src generalizing ucs2 with
  | case1 =>
      cases h
      exact hpos
  | case2 =>
      cases h
      exact hpos
  | case3 => cases h
  | case4 maxLength result septet src hroom hlt htable ih =>
      rcases hpush h with ⟨rest, hrest, rfl⟩
      have hle := ih rest (by omega) hrest
      rw [List.length_cons]
      omega
  | case5 maxLength result septet hroom hlt table htable hesc =>
      cases h
      simp only [List.length_singleton]
      omega
  | case6 => cases h
  | case7 maxLength result septet hroom hlt table htable hesc next src c hnext ih =>
      rcases hpush h with ⟨rest, hrest, rfl⟩
      have hle := ih rest (by omega) hrest
      rw [List.length_cons]
      omega
  | case8 maxLength result septet src hroom hlt table htable hesc ih =>
      rcases hpush h with ⟨rest, hrest, rfl⟩
      have hle := ih rest (by omega) hrest
      rw [List.length_cons]
      omega

/-- With a table, the text has a character for each unit just when the escapes are whole. -/
theorem gives_gsm7bitToUcs2Loop_iff {table : List UInt16} (htable : langInfo.table = some table)
    (maxLength : Nat) (result : UInt16) (src : List UInt8) :
    (langInfo.gsm7bitToUcs2Loop maxLength result src).Gives
        (((septetUnits src).take ((maxLength - 1) / 2)).map langInfo.character) ↔
      WholeEscapes ((maxLength - 1) / 2) src := by
  have hroom {maxLength : Nat} (h : ¬ maxLength ≤ 2) :
      (maxLength - 1) / 2 = (maxLength - 2 - 1) / 2 + 1 := by omega
  fun_induction gsm7bitToUcs2Loop langInfo maxLength result src with
  | case1 maxLength =>
      cases (maxLength - 1) / 2 <;> simp [septetUnits, Conversion.Gives, WholeEscapes]
  | case2 maxLength result septet src hfull =>
      rw [show (maxLength - 1) / 2 = 0 by omega]
      simp [Conversion.Gives, WholeEscapes]
  | case3 maxLength result septet src hmore hhigh =>
      rw [hroom hmore]
      simp [Conversion.Gives, WholeEscapes, hhigh]
  | case4 maxLength result septet src hmore hlt hnone =>
      rw [hnone] at htable
      cases htable
  | case5 maxLength result septet hmore hlt table htable hesc =>
      have hescape := (table_eq_escape_iff htable (UInt8.not_le.1 hlt)).1 hesc
      rw [hroom hmore, hescape]
      simp [Conversion.Gives, WholeEscapes, septetUnits]
  | case6 maxLength result septet hmore hlt table htable hesc next src hnext =>
      have hescape := (table_eq_escape_iff htable (UInt8.not_le.1 hlt)).1 hesc
      have hhigh : ¬ next < 0x80 := by
        intro hlow
        rw [escapeToUcs2, if_neg (UInt8.not_le.2 hlow)] at hnext
        cases hnext
      rw [hroom hmore, hescape]
      simp [Conversion.Gives, WholeEscapes, hhigh]
  | case7 maxLength result septet hmore hlt table htable hesc next src c hnext ih =>
      have hescape := (table_eq_escape_iff htable (UInt8.not_le.1 hlt)).1 hesc
      have hlow : next < 0x80 := by
        refine UInt8.not_le.1 fun hhigh => ?_
        rw [escapeToUcs2, if_pos hhigh] at hnext
        cases hnext
      have hc : langInfo.character (.escaped next) = c := by
        rw [character, hnext]
        rfl
      have hunits : septetUnits (0x1B :: next :: src) = .escaped next :: septetUnits src := rfl
      have hrest : _ ↔ WholeEscapes ((maxLength - 2 - 1) / 2) src := ih
      rw [hroom hmore, hescape, hunits, List.take_succ_cons, List.map_cons, hc,
        Conversion.gives_push, hrest]
      simp [WholeEscapes, hlow]
  | case8 maxLength result septet src hmore hlt table' htable' hesc ih =>
      have hescape : septet ≠ 0x1B := fun h =>
        hesc ((table_eq_escape_iff htable' (UInt8.not_le.1 hlt)).2 h)
      have hc : langInfo.character (.single septet) = table'.getD septet.toNat 0 := by
        rw [character, htable']
        rfl
      have hrest : _ ↔ WholeEscapes ((maxLength - 2 - 1) / 2) src := ih
      rw [hroom hmore, septetUnits_cons hescape, List.take_succ_cons, List.map_cons, hc,
        Conversion.gives_push, hrest]
      simp [WholeEscapes, hescape, hlt]

/-- Without a table every septet becomes a zero. -/
theorem gsm7bitToUcs2Loop_of_none (hnone : langInfo.table = none) (maxLength : Nat)
    (result : UInt16) (src : List UInt8) :
    langInfo.gsm7bitToUcs2Loop maxLength result src =
      if (src.take ((maxLength - 1) / 2)).any (0x80 ≤ ·) then .refused
      else .text (List.replicate (src.take ((maxLength - 1) / 2)).length 0) := by
  induction src generalizing maxLength with
  | nil => simp [gsm7bitToUcs2Loop]
  | cons septet src ih =>
      rw [gsm7bitToUcs2Loop.eq_def]
      by_cases hfull : maxLength ≤ 2
      · simp [hfull, show (maxLength - 1) / 2 = 0 by omega]
      · have hroom : (maxLength - 1) / 2 = (maxLength - 2 - 1) / 2 + 1 := by omega
        rw [hroom, List.take_succ_cons, List.any_cons]
        by_cases hhigh : 0x80 ≤ septet
        · simp [hfull, hhigh]
        · simp only [hfull, hhigh, if_false, hnone, ih, decide_false, Bool.false_or]
          split <;> simp [Conversion.push, List.replicate_succ]

/-- A zero is no character of the alphabet. -/
theorem character_ne_zero (hnone : langInfo.table = none) {unit : SeptetUnit}
    (h : ∀ septet, unit = .single septet → septet < 0x80) : langInfo.character unit ≠ 0 := by
  cases unit with
  | single septet =>
      have hnat : septet.toNat < 128 := UInt8.lt_iff_toNat_lt.1 (h septet rfl)
      have hall : ∀ c ∈ gsm7BitToUcs2, c ≠ 0 := forall_of_all (by decide)
      have hlt : septet.toNat < gsm7BitToUcs2.length := hnat
      rw [character, hnone]
      change gsm7BitToUcs2.getD septet.toNat 0 ≠ 0
      rw [List.getD_eq_getElem?_getD, List.getElem?_eq_getElem hlt]
      exact hall _ (List.getElem_mem hlt)
  | escaped next =>
      have hall : ∀ entry ∈
          gsm7BitExtToUcs2 ++ turkishSingleToUcs2 ++ spanishSingleToUcs2 ++ portuSingleToUcs2,
          entry.2 ≠ 0 := forall_of_all (by decide)
      rw [character, escapeToUcs2]
      split
      · decide
      · cases escapeToUcs2_mem (if langInfo.bSingleShift then langInfo.singleLang else 0) next with
        | inl hspace =>
            rw [Option.getD_some, hspace]
            decide
        | inr hin => exact hall _ hin

/-- The first unit of octets that begin with a septet. -/
theorem head_septetUnits {septet : UInt8} {src : List UInt8} {unit : SeptetUnit}
    {units : List SeptetUnit} (h : septetUnits (septet :: src) = unit :: units) :
    ∀ single, unit = .single single → single = septet := by
  rintro single rfl
  by_cases hescape : septet = 0x1B
  · subst hescape
    cases src with
    | nil => cases h
    | cons next src => cases h
  · rw [septetUnits_cons hescape] at h
    cases h
    rfl

/-- Without a table, there is a wrong character unless there is an error or no character. -/
theorem gives_gsm7bitToUcs2Loop_iff_of_none (hnone : langInfo.table = none) (maxLength : Nat)
    (result : UInt16) (src : List UInt8) :
    (langInfo.gsm7bitToUcs2Loop maxLength result src).Gives
        (((septetUnits src).take ((maxLength - 1) / 2)).map langInfo.character) ↔
      src.take ((maxLength - 1) / 2) = [] ∨ ∃ septet ∈ src.take ((maxLength - 1) / 2),
        septet ≥ 0x80 := by
  rw [gsm7bitToUcs2Loop_of_none hnone]
  cases hroom : (maxLength - 1) / 2 with
  | zero => simp [Conversion.Gives]
  | succ room =>
      cases src with
      | nil => simp [Conversion.Gives, septetUnits]
      | cons septet src =>
          by_cases hhigh : (List.take (room + 1) (septet :: src)).any (0x80 ≤ ·)
          · rw [if_pos hhigh]
            simpa [Conversion.Gives] using hhigh
          · have hall : ¬ ∃ s ∈ List.take (room + 1) (septet :: src), s ≥ 0x80 := by
              simpa using hhigh
            have hlow : septet < 0x80 :=
              UInt8.not_le.1 fun h => hall ⟨septet, by simp, h⟩
            rw [if_neg hhigh]
            refine iff_of_false (fun htext => ?_) (by simpa using hall)
            cases hunits : septetUnits (septet :: src) with
            | nil => simp [hunits, Conversion.Gives, List.replicate_succ] at htext
            | cons unit units =>
                have hne : langInfo.character unit ≠ 0 :=
                  character_ne_zero hnone fun single h => head_septetUnits hunits single h ▸ hlow
                rw [hunits] at htext
                simp only [Conversion.Gives, List.take_succ_cons, List.length_cons,
                  List.replicate_succ, List.map_cons, List.cons.injEq] at htext
                exact hne htext.1.symm

end Loop

/-- The conversion is one to one for octets whose escapes are whole, and for those that a
locking shift without a table does not convert. -/
def Convertible (langInfo : MsgLangInfo) (maxLength : Nat) (src : List UInt8) : Prop :=
  if langInfo.table.isSome then WholeEscapes ((maxLength - 1) / 2) src
  else src.take ((maxLength - 1) / 2) = [] ∨ ∃ septet ∈ src.take ((maxLength - 1) / 2),
    septet ≥ 0x80

theorem oneToOne_iff (langInfo : MsgLangInfo) (maxLength : Nat) (src : List UInt8) :
    langInfo.OneToOne maxLength src ↔ langInfo.Convertible maxLength src := by
  unfold OneToOne gsm7bitToUcs2
  by_cases hempty : src = [] ∨ maxLength = 0
  · rw [if_pos hempty]
    refine iff_of_true ⟨trivial, fun ucs2 h => by cases h⟩ ?_
    rcases hempty with rfl | rfl
    · unfold Convertible
      split
      · cases (maxLength - 1) / 2 <;> simp [WholeEscapes]
      · simp
    · simp [Convertible, WholeEscapes]
  · have hpos : 0 < maxLength := Nat.pos_of_ne_zero fun h => hempty (.inr h)
    rw [if_neg hempty, and_iff_left fun ucs2 => length_gsm7bitToUcs2Loop _ _ _ _ hpos]
    unfold Convertible
    cases htable : langInfo.table with
    | none => exact gives_gsm7bitToUcs2Loop_iff_of_none htable _ _ _
    | some table => exact gives_gsm7bitToUcs2Loop_iff htable _ _ _

/-- An escape at the end writes the character before it once more, and what is no septet
behind an escape is looked up behind the end of the table. -/
theorem not_oneToOne_escape :
    ¬ OneToOne ⟨false, false, 0, 0⟩ 160 [0x41, 0x1B] ∧
      ¬ OneToOne ⟨false, false, 0, 0⟩ 160 [0x1B, 0x80] := by
  constructor
  · rintro ⟨hgives, -⟩
    rw [show gsm7bitToUcs2 ⟨false, false, 0, 0⟩ 160 [0x41, 0x1B] = .text [0x41, 0x41] by decide]
      at hgives
    exact absurd (congrArg List.length hgives) (by decide)
  · rintro ⟨hgives, -⟩
    rw [show gsm7bitToUcs2 ⟨false, false, 0, 0⟩ 160 [0x1B, 0x80] = .outOfBounds by decide]
      at hgives
    exact hgives

/-! ## Septets into an array with room for them -/

/-- Without a locking shift and with room, septets are converted as without an array. -/
theorem gsm7bitToUcs2Loop_eq_text {langInfo : MsgLangInfo} (hshift : langInfo.bLockingShift = false)
    {maxLength : Nat} {result : UInt16} {src : List UInt8} {ucs2 : List UInt16}
    (hroom : 2 * src.length < maxLength) (hlow : ∀ septet ∈ src, septet < 0x80)
    (h : Text.gsm7bitToUcs2Loop (if langInfo.bSingleShift then langInfo.singleLang else 0) result src =
      some ucs2) :
    langInfo.gsm7bitToUcs2Loop maxLength result src = .text ucs2 := by
  have htable : langInfo.table = some gsm7BitToUcs2 := by simp [table, hshift]
  fun_induction gsm7bitToUcs2Loop langInfo maxLength result src generalizing ucs2 with
  | case1 =>
      cases h
      rfl
  | case2 maxLength result septet src hfull =>
      rw [List.length_cons] at hroom
      omega
  | case3 maxLength result septet src hmore hhigh =>
      exact absurd (hlow septet List.mem_cons_self) (UInt8.not_lt.2 hhigh)
  | case4 maxLength result septet src hmore hlt hnone =>
      rw [hnone] at htable
      cases htable
  | case5 maxLength result septet hmore hlt table htable' hesc =>
      obtain rfl := (table_eq_escape_iff htable' (UInt8.not_le.1 hlt)).1 hesc
      cases h
      rfl
  | case6 maxLength result septet hmore hlt table htable' hesc next src hnext =>
      rw [escapeToUcs2, if_neg (UInt8.not_le.2 (hlow next (by simp)))] at hnext
      cases hnext
  | case7 maxLength result septet hmore hlt table htable' hesc next src c hnext ih =>
      obtain rfl := (table_eq_escape_iff htable' (UInt8.not_le.1 hlt)).1 hesc
      rw [escapeToUcs2, if_neg (UInt8.not_le.2 (hlow next (by simp)))] at hnext
      cases hnext
      rw [gsm7bitToUcs2Loop_escape, Option.map_eq_some_iff] at h
      rcases h with ⟨rest, hrest, rfl⟩
      rw [List.length_cons, List.length_cons] at hroom
      rw [ih (by omega) (fun septet hmem => hlow septet (by simp [hmem])) hrest]
      rfl
  | case8 maxLength result septet src hmore hlt table htable' hesc ih =>
      have hescape : septet ≠ 0x1B := fun h =>
        hesc ((table_eq_escape_iff htable' (UInt8.not_le.1 hlt)).2 h)
      rw [htable] at htable'
      cases htable'
      rw [gsm7bitToUcs2Loop_septet (UInt8.not_le.1 hlt) hescape, Option.map_eq_some_iff] at h
      rcases h with ⟨rest, hrest, rfl⟩
      rw [List.length_cons] at hroom
      rw [ih (by omega) (fun septet hmem => hlow septet (by simp [hmem])) hrest]
      rfl

/-- Without escapes the octets are characters one by one, unless one is no septet. -/
theorem gsm7bitToUcs2Loop_single {langInfo : MsgLangInfo} {table : List UInt16}
    (htable : langInfo.table = some table) {maxLength : Nat} {src : List UInt8}
    (hroom : 2 * src.length < maxLength) (hescape : 0x1B ∉ src) (result : UInt16) :
    langInfo.gsm7bitToUcs2Loop maxLength result src =
      if src.any (0x80 ≤ ·) then .refused
      else .text (src.map fun septet => table.getD septet.toNat 0) := by
  induction src generalizing maxLength result with
  | nil => simp [gsm7bitToUcs2Loop]
  | cons septet src ih =>
      rw [List.length_cons] at hroom
      rw [List.mem_cons, not_or] at hescape
      rw [gsm7bitToUcs2Loop.eq_def, List.any_cons]
      by_cases hhigh : 0x80 ≤ septet
      · simp [show ¬ maxLength ≤ 2 by omega, hhigh]
      · have hsingle : table.getD septet.toNat 0 ≠ 0x001B := fun h =>
          hescape.1 ((table_eq_escape_iff htable (UInt8.not_le.1 hhigh)).1 h).symm
        have hrest := ih (show 2 * src.length < maxLength - 2 by omega) hescape.2
        simp only [show ¬ maxLength ≤ 2 by omega, hhigh, if_false, htable, hsingle, hrest,
          decide_false, Bool.false_or]
        split <;> simp [Conversion.push]

end MsgLangInfo

/-! ## On to UTF-8 -/

/-- `iconv` into `maxLength` octets: the longest start of the first `k` characters that fits. -/
def utf8Fitting (iconv : Iconv) (maxLength : Nat) (units : List UInt16) : Nat → List UInt8
  | 0 => []
  | k + 1 =>
      if (iconv.utf16ToUtf8 (units.take (k + 1))).length ≤ maxLength then
        iconv.utf16ToUtf8 (units.take (k + 1))
      else utf8Fitting iconv maxLength units k

def ucs2ToUtf8 (iconv : Iconv) (maxLength : Nat) (units : List UInt16) : List UInt8 :=
  utf8Fitting iconv maxLength units units.length

/-- The length of an error is that of a string: of what was written before the error, up to the
first octet that is zero. -/
def MsgLangInfo.gsm7bitToUtf8 (langInfo : MsgLangInfo) (iconv : Iconv) (maxLength : Nat)
    (src : List UInt8) : List UInt8 :=
  match langInfo.gsm7bitToUcs2 (8 * src.length) src with
  | .text ucs2 => ucs2ToUtf8 iconv maxLength ucs2
  | .refused =>
      match langInfo.gsm7bitToUcs2 (8 * src.length) (src.takeWhile (· < 0x80)) with
      | .text ucs2 => ucs2ToUtf8 iconv maxLength (ucs2Units ((ucs2Octets ucs2).takeWhile (· ≠ 0)))
      | _ => []
  | .outOfBounds => []

/-- A character of one octet begins with a zero, where the string ends. -/
theorem ucs2Units_takeWhile {c : UInt16} (hc : c < 0x100) (units : List UInt16) :
    ucs2Units ((ucs2Octets (c :: units)).takeWhile (· ≠ 0)) = [] := by
  have hzero : (c >>> 8).toUInt8 = 0 := by
    have hnat : c.toNat < 256 := UInt16.lt_iff_toNat_lt.1 hc
    apply UInt8.toNat_inj.1
    rw [UInt16.toNat_toUInt8, UInt16.toNat_shiftRight, Nat.shiftRight_eq_div_pow]
    simp
    omega
  rw [ucs2Octets, List.flatMap_cons, hzero]
  rfl

/-- All characters fit, or some of them are left over. -/
theorem ucs2ToUtf8_eq {iconv : Iconv} (hf : iconv.Faithful) (maxLength : Nat)
    (units : List UInt16) :
    ∃ k, ucs2ToUtf8 iconv maxLength units = iconv.utf16ToUtf8 (units.take k) ∧
      ((iconv.utf16ToUtf8 units).length ≤ maxLength → units.take k = units) := by
  have hall : ∀ n, ∃ k, utf8Fitting iconv maxLength units n = iconv.utf16ToUtf8 (units.take k) ∧
      ((iconv.utf16ToUtf8 (units.take n)).length ≤ maxLength → k = n) := by
    intro n
    induction n with
    | zero => exact ⟨0, by rw [List.take_zero, hf.nil]; rfl, fun _ => rfl⟩
    | succ n ih =>
        rw [utf8Fitting]
        split
        · exact ⟨n + 1, rfl, fun _ => rfl⟩
        · next hlong =>
            rcases ih with ⟨k, heq, -⟩
            exact ⟨k, heq, fun hfits => absurd hfits hlong⟩
  rcases hall units.length with ⟨k, heq, hk⟩
  refine ⟨k, heq, fun hfits => ?_⟩
  rw [List.take_length] at hk
  rw [hk hfits, List.take_length]

end TelephonySms.Text
