import TelephonySms.Text.Cut

/-! # Reading coded text back

What the coder relies on `iconv` for, and how septets are read: one by one, or two
behind an escape. Septets that are cut between characters are read piece by piece.
-/

namespace TelephonySms.Text

/-! ## UTF-16 -/

def isHighSurrogate (c : UInt16) : Bool := 0xD800 ≤ c && c < 0xDC00

def isLowSurrogate (c : UInt16) : Bool := 0xDC00 ≤ c && c < 0xE000

/-- Surrogates stand in pairs. -/
inductive WellFormed : List UInt16 → Prop
  | nil : WellFormed []
  | unit {c : UInt16} {units : List UInt16} (hhigh : isHighSurrogate c = false)
      (hlow : isLowSurrogate c = false) (h : WellFormed units) : WellFormed (c :: units)
  | pair {high low : UInt16} {units : List UInt16} (hhigh : isHighSurrogate high = true)
      (hlow : isLowSurrogate low = true) (h : WellFormed units) :
      WellFormed (high :: low :: units)

theorem WellFormed.append {units more : List UInt16} (h : WellFormed units)
    (hmore : WellFormed more) : WellFormed (units ++ more) := by
  induction h with
  | nil => exact hmore
  | unit hhigh hlow _ ih => exact .unit hhigh hlow ih
  | pair hhigh hlow _ ih => exact .pair hhigh hlow ih

theorem WellFormed.of_unit {c : UInt16} {units : List UInt16} (h : WellFormed (c :: units))
    (hhigh : isHighSurrogate c = false) : WellFormed units := by
  cases h with
  | unit _ _ h => exact h
  | pair hpair _ _ => simp [hhigh] at hpair

theorem WellFormed.of_pair {high low : UInt16} {units : List UInt16}
    (h : WellFormed (high :: low :: units)) (hhigh : isHighSurrogate high = true) :
    WellFormed units := by
  cases h with
  | unit hunit _ _ => simp [hhigh] at hunit
  | pair _ _ h => exact h

theorem WellFormed.right {units more : List UInt16} (h : WellFormed units)
    (hall : WellFormed (units ++ more)) : WellFormed more := by
  induction h with
  | nil => exact hall
  | unit hhigh _ _ ih => exact ih (WellFormed.of_unit hall hhigh)
  | pair hhigh _ _ ih => exact ih (WellFormed.of_pair hall hhigh)

theorem wellFormed_of_forall {units : List UInt16}
    (h : ∀ c ∈ units, isHighSurrogate c = false ∧ isLowSurrogate c = false) :
    WellFormed units := by
  induction units with
  | nil => exact .nil
  | cons c units ih =>
      obtain ⟨hc, hunits⟩ := List.forall_mem_cons.1 h
      exact .unit hc.1 hc.2 (ih hunits)

/-- What is cut off ends between characters or behind the first half of a pair. -/
theorem WellFormed.take {units : List UInt16} (h : WellFormed units) (n : Nat) :
    WellFormed (units.take n) ∨
      ∃ front high, units.take n = front ++ [high] ∧ WellFormed front ∧
        isHighSurrogate high = true := by
  induction h generalizing n with
  | nil => exact .inl (by simpa using WellFormed.nil)
  | @unit c units hhigh hlow _ ih =>
      cases n with
      | zero => exact .inl .nil
      | succ n =>
          cases ih n with
          | inl h => exact .inl (.unit hhigh hlow h)
          | inr h =>
              obtain ⟨front, high, htake, hfront, hhalf⟩ := h
              exact .inr ⟨c :: front, high, by rw [List.take_succ_cons, htake]; rfl,
                .unit hhigh hlow hfront, hhalf⟩
  | @pair high low units hhigh hlow _ ih =>
      match n with
      | 0 => exact .inl .nil
      | 1 => exact .inr ⟨[], high, rfl, .nil, hhigh⟩
      | n + 2 =>
          cases ih n with
          | inl h => exact .inl (.pair hhigh hlow h)
          | inr h =>
              obtain ⟨front, half, htake, hfront, hhalf⟩ := h
              exact .inr ⟨high :: low :: front, half,
                by rw [List.take_succ_cons, List.take_succ_cons, htake]; rfl,
                .pair hhigh hlow hfront, hhalf⟩

/-! ## `iconv` -/

/-- The behaviour of `iconv` between UTF-8 and UTF-16: what it makes of UTF-8 is well
formed and is not longer, both directions undo each other, characters are converted one
after the other, ASCII to itself, half a pair at the end is not converted, and nothing
is behind the second half of one. -/
structure Iconv.Faithful (iconv : Iconv) : Prop where
  wellFormed : ∀ {src units}, iconv.utf8ToUtf16 src = some units → WellFormed units
  length_le : ∀ {src units}, iconv.utf8ToUtf16 src = some units → units.length ≤ src.length
  back : ∀ {src units}, iconv.utf8ToUtf16 src = some units → iconv.utf16ToUtf8 units = src
  forth : ∀ {units}, WellFormed units →
    iconv.utf8ToUtf16 (iconv.utf16ToUtf8 units) = some units
  ascii : ∀ {units}, (∀ c ∈ units, c ≤ 0x7F) →
    iconv.utf16ToUtf8 units = units.map UInt16.toUInt8
  append : ∀ {units} more, WellFormed units →
    iconv.utf16ToUtf8 (units ++ more) = iconv.utf16ToUtf8 units ++ iconv.utf16ToUtf8 more
  incomplete : ∀ {c}, isHighSurrogate c = true → iconv.utf16ToUtf8 [c] = []
  broken : ∀ {c} more, isLowSurrogate c = true → iconv.utf16ToUtf8 (c :: more) = []

namespace Iconv.Faithful

variable {iconv : Iconv} (hf : iconv.Faithful)
include hf

theorem nil : iconv.utf16ToUtf8 [] = [] := by
  have h := hf.append [] .nil
  rw [List.append_nil] at h
  have hlen := congrArg List.length h
  rw [List.length_append] at hlen
  exact List.eq_nil_of_length_eq_zero (by omega)

theorem injective {units more : List UInt16} (h : WellFormed units) (hmore : WellFormed more)
    (heq : iconv.utf16ToUtf8 units = iconv.utf16ToUtf8 more) : units = more := by
  have hforth := hf.forth h
  rw [heq, hf.forth hmore] at hforth
  exact (Option.some.inj hforth).symm

theorem flatMap {pieces : List (List UInt16)} (h : ∀ piece ∈ pieces, WellFormed piece) :
    pieces.flatMap iconv.utf16ToUtf8 = iconv.utf16ToUtf8 pieces.flatten := by
  induction pieces with
  | nil => exact hf.nil.symm
  | cons piece pieces ih =>
      obtain ⟨hpiece, hpieces⟩ := List.forall_mem_cons.1 h
      rw [List.flatMap_cons, List.flatten_cons, hf.append _ hpiece, ih hpieces]

/-- What is cut off reads as the start of the text. -/
theorem take_start {units : List UInt16} (h : WellFormed units) (n : Nat) :
    iconv.utf16ToUtf8 (units.take n) <+: iconv.utf16ToUtf8 units := by
  cases h.take n with
  | inl hfront =>
      refine ⟨iconv.utf16ToUtf8 (units.drop n), ?_⟩
      rw [← hf.append _ hfront, List.take_append_drop]
  | inr hhalf =>
      obtain ⟨front, high, htake, hfront, hhigh⟩ := hhalf
      refine ⟨iconv.utf16ToUtf8 ([high] ++ units.drop n), ?_⟩
      rw [htake, hf.append _ hfront, hf.incomplete hhigh, List.append_nil,
        ← hf.append _ hfront, ← List.append_assoc, ← htake, List.take_append_drop]

end Iconv.Faithful

/-! ## Septets -/

/-- A character and the septets it is read from. -/
inductive Reads (langId : UInt8) : UInt16 × List UInt8 → Prop
  | septet {septet : UInt8} (hlt : septet < 0x80) (hne : septet ≠ 0x1B) :
      Reads langId (gsm7BitToUcs2.getD septet.toNat 0, [septet])
  | escaped (next : UInt8) : Reads langId (escapeToUcs2 langId next, [0x1B, next])

theorem mem_of_lookup {α β : Type} [BEq α] [LawfulBEq α] {table : List (α × β)} {key : α}
    {value : β} (h : table.lookup key = some value) : (key, value) ∈ table := by
  obtain ⟨front, back, rfl, -⟩ := List.lookup_eq_some_iff.1 h
  simp

/-- A table is checked entry by entry. -/
theorem forall_of_all {α : Type} {p : α → Prop} [DecidablePred p] {table : List α}
    (h : table.all (fun entry => decide (p entry)) = true) : ∀ entry ∈ table, p entry := by
  intro entry hmem
  exact of_decide_eq_true (List.all_eq_true.1 h entry hmem)

/-- No table holds surrogates. -/
theorem gsm7BitToUcs2_not_surrogate :
    ∀ c ∈ gsm7BitToUcs2, isHighSurrogate c = false ∧ isLowSurrogate c = false :=
  forall_of_all (by decide)

theorem singleShift_not_surrogate :
    ∀ entry ∈ gsm7BitExtToUcs2 ++ turkishSingleToUcs2 ++ spanishSingleToUcs2 ++ portuSingleToUcs2,
      isHighSurrogate entry.2 = false ∧ isLowSurrogate entry.2 = false :=
  forall_of_all (by decide)

/-- A character behind an escape is the space or stands in a table. -/
theorem escapeToUcs2_mem (langId next : UInt8) : escapeToUcs2 langId next = 0x0020 ∨
    (next, escapeToUcs2 langId next) ∈
      gsm7BitExtToUcs2 ++ turkishSingleToUcs2 ++ spanishSingleToUcs2 ++ portuSingleToUcs2 := by
  simp only [escapeToUcs2]
  generalize htable : (if langId = 1 then turkishSingleToUcs2
    else if langId = 2 then spanishSingleToUcs2
    else if langId = 3 then portuSingleToUcs2 else gsm7BitExtToUcs2) = table
  cases hlook : table.lookup next with
  | none => exact .inl rfl
  | some c =>
      have hin := mem_of_lookup hlook
      rw [← htable] at hin
      refine .inr ?_
      simp only [List.mem_append, Option.getD_some]
      split at hin
      · exact .inl (.inl (.inr hin))
      · split at hin
        · exact .inl (.inr hin)
        · split at hin
          · exact .inr hin
          · exact .inl (.inl (.inl hin))

theorem escapeToUcs2_not_surrogate (langId next : UInt8) :
    isHighSurrogate (escapeToUcs2 langId next) = false ∧
      isLowSurrogate (escapeToUcs2 langId next) = false := by
  cases escapeToUcs2_mem langId next with
  | inl hspace =>
      rw [hspace]
      decide
  | inr hin => exact singleShift_not_surrogate _ hin

theorem septet_not_surrogate (septet : UInt8) :
    isHighSurrogate (gsm7BitToUcs2.getD septet.toNat 0) = false ∧
      isLowSurrogate (gsm7BitToUcs2.getD septet.toNat 0) = false := by
  rw [List.getD_eq_getElem?_getD]
  cases hget : gsm7BitToUcs2[septet.toNat]? with
  | none => exact ⟨rfl, rfl⟩
  | some c => exact gsm7BitToUcs2_not_surrogate c (List.mem_of_getElem? hget)

theorem Reads.not_surrogate {langId : UInt8} {token : UInt16 × List UInt8}
    (h : Reads langId token) :
    isHighSurrogate token.1 = false ∧ isLowSurrogate token.1 = false := by
  cases h with
  | @septet septet _ _ => exact septet_not_surrogate septet
  | escaped next => exact escapeToUcs2_not_surrogate langId next

section Septets

variable {langId : UInt8} {tokens : List (UInt16 × List UInt8)}

theorem gsm7bitToUcs2Loop_septet {septet : UInt8} (hlt : septet < 0x80) (hne : septet ≠ 0x1B)
    (result : UInt16) (src : List UInt8) :
    gsm7bitToUcs2Loop langId result (septet :: src) =
      (gsm7bitToUcs2Loop langId (gsm7BitToUcs2.getD septet.toNat 0) src).map
        (gsm7BitToUcs2.getD septet.toNat 0 :: ·) := by
  have hge : ¬ septet ≥ 0x80 := UInt8.not_le.2 hlt
  cases src with
  | nil => simp only [gsm7bitToUcs2Loop, hge, hne, if_false, Option.map_some]
  | cons next src => simp only [gsm7bitToUcs2Loop, hge, hne, if_false]

theorem gsm7bitToUcs2Loop_escape (result : UInt16) (next : UInt8) (src : List UInt8) :
    gsm7bitToUcs2Loop langId result (0x1B :: next :: src) =
      (gsm7bitToUcs2Loop langId (escapeToUcs2 langId next) src).map
        (escapeToUcs2 langId next :: ·) := by
  rw [gsm7bitToUcs2Loop, if_neg (by decide), if_pos rfl]

theorem gsm7bitToUcs2Loop_reads (h : ∀ token ∈ tokens, Reads langId token) (result : UInt16) :
    gsm7bitToUcs2Loop langId result (tokens.flatMap Prod.snd) = some (tokens.map Prod.fst) := by
  induction tokens generalizing result with
  | nil => rfl
  | cons token tokens ih =>
      obtain ⟨htoken, htokens⟩ := List.forall_mem_cons.1 h
      cases htoken with
      | septet hlt hne =>
          rw [List.flatMap_cons, List.singleton_append, gsm7bitToUcs2Loop_septet hlt hne,
            ih htokens]
          rfl
      | escaped next =>
          rw [List.flatMap_cons, List.cons_append, List.singleton_append,
            gsm7bitToUcs2Loop_escape, ih htokens]
          rfl

theorem getLast_ne_of_cons {first : UInt8} {front : List UInt8}
    (hend : (first :: front).getLast? ≠ some 0x1B) : front.getLast? ≠ some 0x1B := by
  cases front with
  | nil => simp
  | cons _ _ => exact hend

/-- Octets that do not end with an escape end with a character. -/
theorem exists_cut (h : ∀ token ∈ tokens, Reads langId token) {front back : List UInt8}
    (hdata : tokens.flatMap Prod.snd = front ++ back) (hend : front.getLast? ≠ some 0x1B) :
    ∃ j, front = (tokens.take j).flatMap Prod.snd ∧ back = (tokens.drop j).flatMap Prod.snd := by
  induction tokens generalizing front with
  | nil =>
      obtain ⟨rfl, rfl⟩ := List.append_eq_nil_iff.1 hdata.symm
      exact ⟨0, rfl, rfl⟩
  | cons token tokens ih =>
      obtain ⟨htoken, htokens⟩ := List.forall_mem_cons.1 h
      cases front with
      | nil => exact ⟨0, rfl, hdata.symm⟩
      | cons first front =>
          cases htoken with
          | septet hlt hne =>
              rw [List.flatMap_cons, List.singleton_append, List.cons_append] at hdata
              obtain ⟨rfl, hrest⟩ := List.cons.inj hdata
              obtain ⟨j, rfl, rfl⟩ := ih htokens hrest (getLast_ne_of_cons hend)
              exact ⟨j + 1, rfl, rfl⟩
          | escaped next =>
              rw [List.flatMap_cons, List.cons_append, List.singleton_append,
                List.cons_append] at hdata
              obtain ⟨rfl, hrest⟩ := List.cons.inj hdata
              cases front with
              | nil => exact absurd rfl hend
              | cons second front =>
                  obtain ⟨rfl, hmore⟩ := List.cons.inj hrest
                  obtain ⟨j, rfl, rfl⟩ := ih htokens hmore
                    (getLast_ne_of_cons (getLast_ne_of_cons hend))
                  exact ⟨j + 1, rfl, rfl⟩

/-- No segment but the last ends with an escape. -/
def EscapesWhole (pieces : List (List UInt8)) : Prop :=
  ∀ piece ∈ pieces.dropLast, piece.getLast? ≠ some 0x1B

theorem gsm7bitToUtf8_reads (iconv : Iconv) (h : ∀ token ∈ tokens, Reads langId token) :
    gsm7bitToUtf8 iconv langId (tokens.flatMap Prod.snd) =
      iconv.utf16ToUtf8 (tokens.map Prod.fst) := by
  rw [gsm7bitToUtf8, gsm7bitToUcs2, gsm7bitToUcs2Loop_reads h]

theorem eq_nil_of_flatMap_nil (h : ∀ token ∈ tokens, Reads langId token)
    (hnil : tokens.flatMap Prod.snd = []) : tokens = [] := by
  cases tokens with
  | nil => rfl
  | cons token tokens =>
      rw [List.flatMap_cons] at hnil
      have htoken := (List.append_eq_nil_iff.1 hnil).1
      cases h token List.mem_cons_self <;> cases htoken

/-- Septets that are cut between characters read as their characters. -/
theorem flatMap_gsm7bitToUtf8 {iconv : Iconv} (hf : iconv.Faithful)
    (h : ∀ token ∈ tokens, Reads langId token)
    {pieces : List (List UInt8)} (hdata : tokens.flatMap Prod.snd = pieces.flatten)
    (hwhole : EscapesWhole pieces) :
    pieces.flatMap (gsm7bitToUtf8 iconv langId) =
      iconv.utf16ToUtf8 (tokens.map Prod.fst) := by
  induction pieces generalizing tokens with
  | nil =>
      rw [eq_nil_of_flatMap_nil h hdata]
      exact hf.nil.symm
  | cons piece pieces ih =>
      cases pieces with
      | nil =>
          rw [List.flatten_singleton] at hdata
          rw [List.flatMap_singleton, ← hdata]
          exact gsm7bitToUtf8_reads iconv h
      | cons second pieces =>
          rw [EscapesWhole, List.dropLast_cons_cons, List.forall_mem_cons] at hwhole
          obtain ⟨j, hpiece, hrest⟩ := exists_cut h hdata hwhole.1
          have hfront : gsm7bitToUtf8 iconv langId piece =
              iconv.utf16ToUtf8 ((tokens.take j).map Prod.fst) := by
            rw [hpiece]
            exact gsm7bitToUtf8_reads iconv fun token hmem => h token (List.mem_of_mem_take hmem)
          have hback : (second :: pieces).flatMap (gsm7bitToUtf8 iconv langId) =
              iconv.utf16ToUtf8 ((tokens.drop j).map Prod.fst) := by
            exact ih (fun token hmem => h token (List.mem_of_mem_drop hmem)) hrest.symm hwhole.2
          rw [List.flatMap_cons, hfront, hback, ← hf.append, ← List.map_append,
            List.take_append_drop]
          refine wellFormed_of_forall fun c hc => ?_
          obtain ⟨token, hmem, rfl⟩ := List.mem_map.1 hc
          exact (h token (List.mem_of_mem_take hmem)).not_surrogate

end Septets

/-! ## Coding -/

/-- The septets of a character in the default alphabet and an extension table. -/
def autoToken (extMap : List (UInt16 × UInt8)) (c : UInt16) : UInt16 × List UInt8 :=
  (c, match gsm7bitDefMap c with
    | some septet => [septet]
    | none =>
        match extMap.lookup c with
        | some septet => [0x1B, septet]
        | none => [])

/-- The number of septets of a character. -/
def septets (c : UInt16) : Nat := if (gsm7bitDefMap c).isSome then 1 else 2

def septetCount (units : List UInt16) : Nat := (units.map septets).sum

theorem septets_pos (c : UInt16) : 0 < septets c := by
  unfold septets
  split <;> omega

theorem septetCount_cons (c : UInt16) (units : List UInt16) :
    septetCount (c :: units) = septets c + septetCount units := by
  simp [septetCount]

theorem eq_nil_of_septetCount {units : List UInt16} (h : septetCount units = 0) : units = [] := by
  cases units with
  | nil => rfl
  | cons c units =>
      have hpos := septets_pos c
      rw [septetCount_cons] at h
      omega

/-- The characters that can be coded. -/
def Known (extMap : List (UInt16 × UInt8)) (c : UInt16) : Prop :=
  (gsm7bitDefMap c).isSome = true ∨ (extMap.lookup c).isSome = true

theorem length_autoToken {extMap : List (UInt16 × UInt8)} {c : UInt16} (h : Known extMap c) :
    (autoToken extMap c).2.length = septets c := by
  unfold autoToken septets
  cases hdef : gsm7bitDefMap c with
  | some septet => rfl
  | none =>
      rw [Known, hdef] at h
      obtain ⟨septet, hext⟩ := Option.isSome_iff_exists.1 (h.resolve_left (by simp))
      simp [hext]

/-- A character is written when there is room for all of its septets. -/
theorem ucs2ToGsm7bitAutoLoop_cons {extMap : List (UInt16 × UInt8)} {maxLength : Nat}
    {c : UInt16} {src : List UInt16} {dest result : List UInt8} (hdest : dest.length < maxLength)
    (h : ucs2ToGsm7bitAutoLoop extMap maxLength dest (c :: src) = some result) :
    Known extMap c ∧
      (maxLength < dest.length + septets c ∧ result = dest ∨
        maxLength = dest.length + septets c ∧ result = dest ++ (autoToken extMap c).2 ∨
        dest.length + septets c < maxLength ∧
          ucs2ToGsm7bitAutoLoop extMap maxLength (dest ++ (autoToken extMap c).2) src =
            some result) := by
  rw [ucs2ToGsm7bitAutoLoop] at h
  unfold Known septets autoToken
  cases hdef : gsm7bitDefMap c with
  | some septet =>
      simp only [hdef] at h
      refine ⟨.inl rfl, .inr ?_⟩
      split at h
      · cases h
        exact .inl ⟨by simp only [Option.isSome_some, if_true]; omega, rfl⟩
      · exact .inr ⟨by simp only [Option.isSome_some, if_true]; omega, h⟩
  | none =>
      simp only [hdef] at h
      cases hext : extMap.lookup c with
      | none => simp [hext] at h
      | some septet =>
          simp only [hext] at h
          refine ⟨.inr rfl, ?_⟩
          split at h
          · cases h
            exact .inl ⟨by simp; omega, rfl⟩
          · split at h
            · cases h
              exact .inr (.inl ⟨by simp; omega, rfl⟩)
            · exact .inr (.inr ⟨by simp; omega, h⟩)

/-- The loop writes whole characters, all of them when there is room. -/
theorem ucs2ToGsm7bitAutoLoop_eq {extMap : List (UInt16 × UInt8)} {maxLength : Nat}
    {src : List UInt16} {dest result : List UInt8} (hdest : dest.length < maxLength)
    (h : ucs2ToGsm7bitAutoLoop extMap maxLength dest src = some result) :
    ∃ k, result = dest ++ ((src.take k).map (autoToken extMap)).flatMap Prod.snd ∧
      (∀ c ∈ src.take k, Known extMap c) ∧
      (dest.length + septetCount src ≤ maxLength → src.length ≤ k) := by
  induction src generalizing dest with
  | nil =>
      cases h
      exact ⟨0, by simp, by simp, by simp⟩
  | cons c src ih =>
      obtain ⟨hknown, ⟨hroom, rfl⟩ | ⟨hroom, rfl⟩ | ⟨hroom, hrest⟩⟩ :=
        ucs2ToGsm7bitAutoLoop_cons hdest h
      · refine ⟨0, by simp, by simp, fun hall => ?_⟩
        rw [septetCount_cons] at hall
        omega
      · refine ⟨1, by simp, by simpa using hknown, fun hall => ?_⟩
        rw [septetCount_cons] at hall
        rw [eq_nil_of_septetCount (by omega : septetCount src = 0)]
        simp
      · have hlen := length_autoToken hknown
        obtain ⟨k, rfl, hfront, hall⟩ := ih (by rw [List.length_append]; omega) hrest
        refine ⟨k + 1, by simp, ?_, fun hfits => ?_⟩
        · rw [List.take_succ_cons, List.forall_mem_cons]
          exact ⟨hknown, hfront⟩
        · rw [septetCount_cons] at hfits
          have hle := hall (by rw [List.length_append]; omega)
          simpa using hle

theorem ucs2ToGsm7bitAutoLoop_ne_none {extMap : List (UInt16 × UInt8)} {maxLength : Nat}
    {src : List UInt16} (h : ∀ c ∈ src, Known extMap c) (dest : List UInt8) :
    ucs2ToGsm7bitAutoLoop extMap maxLength dest src ≠ none := by
  induction src generalizing dest with
  | nil => simp [ucs2ToGsm7bitAutoLoop]
  | cons c src ih =>
      obtain ⟨hc, hsrc⟩ := List.forall_mem_cons.1 h
      rw [ucs2ToGsm7bitAutoLoop]
      cases hdef : gsm7bitDefMap c with
      | some septet =>
          simp only
          split
          · simp
          · exact ih hsrc _
      | none =>
          rw [Known, hdef] at hc
          obtain ⟨septet, hext⟩ := Option.isSome_iff_exists.1 (hc.resolve_left (by simp))
          simp only [hext]
          split
          · simp
          · split
            · simp
            · exact ih hsrc _

theorem ucs2ToAsciiLoop_ne_none {maxLength : Nat} {src : List UInt16}
    (h : ∀ c ∈ src, c ≤ 0x7F) (dest : List UInt8) :
    ucs2ToAsciiLoop maxLength dest src ≠ none := by
  induction src generalizing dest with
  | nil => simp [ucs2ToAsciiLoop]
  | cons c src ih =>
      obtain ⟨hc, hsrc⟩ := List.forall_mem_cons.1 h
      rw [ucs2ToAsciiLoop, if_neg (UInt16.not_lt.2 hc)]
      split
      · simp
      · exact ih hsrc _

theorem ucs2ToAsciiLoop_eq {maxLength : Nat} {src : List UInt16} {dest result : List UInt8}
    (hdest : dest.length < maxLength) (h : ucs2ToAsciiLoop maxLength dest src = some result) :
    ∃ k, result = dest ++ (src.take k).map UInt16.toUInt8 ∧ (∀ c ∈ src.take k, c ≤ 0x7F) ∧
      (dest.length + src.length ≤ maxLength → src.length ≤ k) := by
  induction src generalizing dest with
  | nil =>
      cases h
      exact ⟨0, by simp, by simp, by simp⟩
  | cons c src ih =>
      rw [ucs2ToAsciiLoop] at h
      split at h
      · simp at h
      · rename_i hascii
        have hc : c ≤ 0x7F := UInt16.not_lt.1 hascii
        split at h
        · rename_i hfull
          cases h
          refine ⟨1, by simp, by simpa using hc, fun hall => ?_⟩
          rw [List.length_cons] at hall ⊢
          omega
        · rename_i hroom
          obtain ⟨k, rfl, hfront, hall⟩ := ih (by rw [List.length_append]; simp; omega) h
          refine ⟨k + 1, by simp, ?_, fun hfits => ?_⟩
          · rw [List.take_succ_cons, List.forall_mem_cons]
            exact ⟨hc, hfront⟩
          · rw [List.length_cons] at hfits ⊢
            have hle := hall (by rw [List.length_append]; simp; omega)
            omega

theorem gsm7bitDefMap_eq_some {c : UInt16} {septet : UInt8} (h : gsm7bitDefMap c = some septet) :
    septet < 0x80 ∧ gsm7BitToUcs2.getD septet.toNat 0 = c := by
  obtain ⟨i, hidx, rfl⟩ := Option.map_eq_some_iff.1 h
  obtain ⟨hlen, hget, -⟩ := List.idxOf?_eq_some_iff.1 hidx
  have hi : i < 128 := hlen
  have hnat : (UInt8.ofNat i).toNat = i := by
    rw [UInt8.toNat_ofNat', Nat.mod_eq_of_lt (by omega)]
  constructor
  · rw [UInt8.lt_iff_toNat_lt, hnat]
    exact hi
  · rw [hnat, List.getD_eq_getElem?_getD, List.getElem?_eq_getElem hlen, hget]
    rfl

/-- The default alphabet reads back, but for the escape itself. -/
theorem reads_default {c : UInt16} {septet : UInt8} (langId : UInt8)
    (h : gsm7bitDefMap c = some septet) (hesc : c ≠ 0x1B) : Reads langId (c, [septet]) := by
  obtain ⟨hlt, hget⟩ := gsm7bitDefMap_eq_some h
  have hne : septet ≠ 0x1B := by
    intro hs
    rw [hs] at hget
    exact hesc hget.symm
  have hreads : Reads langId (_, [septet]) := .septet hlt hne
  rwa [hget] at hreads

/-- The letters whose code the single-shift table of the language reads as another. -/
def misread : SmsCodingNationalType → UInt16 → Bool
  | .turkish, c => c = 0x01E6 || c = 0x01E7
  | .portuguese, c => c = 0x00C3
  | _, _ => false

theorem escapeToUcs2_gsm7bitExtMap (langId : UInt8) :
    ∀ entry ∈ gsm7bitExtMap, escapeToUcs2 langId entry.2 = entry.1 := by
  by_cases h1 : langId = 1
  · rw [h1]
    exact forall_of_all (by decide)
  by_cases h2 : langId = 2
  · rw [h2]
    exact forall_of_all (by decide)
  by_cases h3 : langId = 3
  · rw [h3]
    exact forall_of_all (by decide)
  · simp only [escapeToUcs2, h1, h2, h3, if_false]
    exact forall_of_all (by decide)

theorem escapeToUcs2_national (national : SmsCodingNationalType) :
    ∀ entry ∈ get7BitCodingExtMap national, misread national entry.1 = false →
      escapeToUcs2 national.langId entry.2 = entry.1 := by
  cases national with
  | default => exact fun entry hmem _ => escapeToUcs2_gsm7bitExtMap _ entry hmem
  | turkish => exact forall_of_all (by decide)
  | spanish => exact forall_of_all (by decide)
  | portuguese => exact forall_of_all (by decide)
  | other value => exact fun entry hmem _ => escapeToUcs2_gsm7bitExtMap _ entry hmem

theorem reads_autoToken {national : SmsCodingNationalType} {c : UInt16}
    (hknown : Known (get7BitCodingExtMap national) c) (hesc : c ≠ 0x1B)
    (hread : misread national c = false) :
    Reads national.langId (autoToken (get7BitCodingExtMap national) c) := by
  unfold autoToken
  cases hdef : gsm7bitDefMap c with
  | some septet => exact reads_default _ hdef hesc
  | none =>
      rw [Known, hdef] at hknown
      obtain ⟨septet, hext⟩ := Option.isSome_iff_exists.1 (hknown.resolve_left (by simp))
      simp only [hext]
      have hback := escapeToUcs2_national national _ (mem_of_lookup hext) hread
      have hreads : Reads national.langId (_, [0x1B, septet]) := .escaped septet
      rwa [hback] at hreads

/-! ## Forced coding -/

/-- The septet of a character that is coded or replaced. -/
def forcedSeptet (c : UInt16) : UInt8 := (gsm7bitDefMap c).getD (findReplaceChar c)

/-- The character as forced coding keeps or replaces it. -/
def replaced (c : UInt16) : UInt16 :=
  if (gsm7bitDefMap c).isSome then c else gsm7BitToUcs2.getD (findReplaceChar c).toNat 0

/-- The extension table forced coding uses for all of a text. -/
def MsgCharType.extMap : MsgCharType → List (UInt16 × UInt8)
  | .msgDefaultChar => []
  | .msgGsm7ExtChar => gsm7bitExtMap
  | .msgTurkishChar => turkishMap
  | .msgSpanishChar => spanishMap
  | .msgPortugueseChar => portuMap

/-- A character as forced coding is to keep or to replace it. -/
def replacedIn (currType : MsgCharType) (c : UInt16) : UInt16 :=
  if (gsm7bitDefMap c).isSome ∨ (currType.extMap.lookup c).isSome then c else replaced c

/-- The septets forced coding writes for a character. -/
def forcedToken (currType : MsgCharType) (c : UInt16) : UInt16 × List UInt8 :=
  (replacedIn currType c,
    match gsm7bitDefMap c with
    | some septet => [septet]
    | none => ucs2ToGsm7bitOther currType 2 c)

theorem ucs2ToGsm7bitOther_eq {currType : MsgCharType} {maxLength : Nat} {c : UInt16}
    (h : (ucs2ToGsm7bitOther currType 2 c).length ≤ maxLength) :
    ucs2ToGsm7bitOther currType maxLength c = ucs2ToGsm7bitOther currType 2 c := by
  have hext (extMap : List (UInt16 × UInt8)) (hle : (findExt extMap 2 c).length + 1 ≤ maxLength) :
      findExt extMap maxLength c = findExt extMap 2 c := by
    unfold findExt at hle ⊢
    cases hlook : extMap.lookup c with
    | none => simp [show maxLength ≠ 0 by omega]
    | some septet =>
        have hroom : 3 ≤ maxLength := by simpa [hlook] using hle
        have hzero : maxLength ≠ 0 := by omega
        have hone : ¬ maxLength ≤ 1 := by omega
        simp [hzero, hone]
  cases currType <;> simp only [ucs2ToGsm7bitOther, List.length_append] at h ⊢ <;>
    rw [hext _ (by simpa using h)]

theorem forcedToken_ne_nil (currType : MsgCharType) (c : UInt16) :
    (forcedToken currType c).2 ≠ [] := by
  unfold forcedToken
  cases gsm7bitDefMap c with
  | some septet => simp
  | none => cases currType <;> simp [ucs2ToGsm7bitOther]

theorem ucs2ToGsm7bitLoop_fits {currType : MsgCharType} {maxLength : Nat} {src : List UInt16}
    {dest : List UInt8} {langId : UInt8} (hdest : dest.length < maxLength)
    (hfits : dest.length + ((src.map (forcedToken currType)).flatMap Prod.snd).length ≤
      maxLength) :
    (ucs2ToGsm7bitLoop currType maxLength (dest, langId) src).1 =
      dest ++ (src.map (forcedToken currType)).flatMap Prod.snd := by
  induction src generalizing dest langId with
  | nil => simp [ucs2ToGsm7bitLoop]
  | cons c src ih =>
      rw [List.map_cons, List.flatMap_cons, List.length_append] at hfits
      have hstep : ∃ langId',
          ucs2ToGsm7bitLoop currType maxLength (dest, langId) (c :: src) =
            if maxLength ≤ (dest ++ (forcedToken currType c).2).length then
              (dest ++ (forcedToken currType c).2, langId')
            else ucs2ToGsm7bitLoop currType maxLength
              (dest ++ (forcedToken currType c).2, langId') src := by
        cases hdef : gsm7bitDefMap c with
        | some septet =>
            refine ⟨langId, ?_⟩
            simp only [ucs2ToGsm7bitLoop, forcedToken, hdef]
        | none =>
            refine ⟨if currType.langId = 0 then langId else currType.langId, ?_⟩
            have hother : ucs2ToGsm7bitOther currType (maxLength - dest.length) c =
                ucs2ToGsm7bitOther currType 2 c := by
              apply ucs2ToGsm7bitOther_eq
              simp only [forcedToken, hdef] at hfits
              omega
            simp only [ucs2ToGsm7bitLoop, forcedToken, hdef, hother]
      obtain ⟨langId', hstep⟩ := hstep
      rw [hstep]
      split
      · rename_i hfull
        rw [List.length_append] at hfull
        have hrest : (src.map (forcedToken currType)).flatMap Prod.snd = [] :=
          List.eq_nil_of_length_eq_zero (by omega)
        rw [List.map_cons, List.flatMap_cons, hrest, List.append_nil]
      · rw [ih (by omega) (by rw [List.length_append]; omega), List.map_cons, List.flatMap_cons,
          List.append_assoc]

/-- A character is written as one septet: always without an extension table, and otherwise when
it stands in the default alphabet. -/
def Single (currType : MsgCharType) (c : UInt16) : Prop :=
  currType = .msgDefaultChar ∨ (gsm7bitDefMap c).isSome

theorem ucs2ToGsm7bitLoop_single {currType : MsgCharType} {maxLength : Nat} {src : List UInt16}
    {dest : List UInt8} (langId : UInt8) (hdest : dest.length < maxLength)
    (h : ∀ c ∈ src.take (maxLength - dest.length), Single currType c) :
    ucs2ToGsm7bitLoop currType maxLength (dest, langId) src =
      (dest ++ (src.take (maxLength - dest.length)).map forcedSeptet, langId) := by
  induction src generalizing dest with
  | nil => simp [ucs2ToGsm7bitLoop]
  | cons c src ih =>
      obtain ⟨room, hroom⟩ : ∃ room, maxLength - dest.length = room + 1 :=
        ⟨maxLength - dest.length - 1, by omega⟩
      rw [hroom, List.take_succ_cons, List.forall_mem_cons] at h
      have hstep : ucs2ToGsm7bitLoop currType maxLength (dest, langId) (c :: src) =
          if maxLength ≤ dest.length + 1 then (dest ++ [forcedSeptet c], langId)
          else ucs2ToGsm7bitLoop currType maxLength (dest ++ [forcedSeptet c], langId) src := by
        cases hdef : gsm7bitDefMap c with
        | some septet => simp [ucs2ToGsm7bitLoop, hdef, forcedSeptet]
        | none =>
            obtain rfl : currType = .msgDefaultChar := h.1.resolve_right (by simp [hdef])
            simp [ucs2ToGsm7bitLoop, hdef, forcedSeptet, ucs2ToGsm7bitOther, MsgCharType.langId]
      rw [hstep, hroom, List.take_succ_cons, List.map_cons]
      split
      · have hzero : room = 0 := by omega
        simp [hzero]
      · have hrest : maxLength - (dest ++ [forcedSeptet c]).length = room := by
          rw [List.length_append]
          simp
          omega
        rw [ih (by rw [List.length_append]; simp; omega) (by rw [hrest]; exact h.2), hrest]
        simp

theorem ucs2ToGsm7bitLoop_default {maxLength : Nat} (src : List UInt16) {dest : List UInt8}
    (langId : UInt8) (hdest : dest.length < maxLength) :
    ucs2ToGsm7bitLoop .msgDefaultChar maxLength (dest, langId) src =
      (dest ++ (src.take (maxLength - dest.length)).map forcedSeptet, langId) :=
  ucs2ToGsm7bitLoop_single langId hdest fun _ _ => .inl rfl

theorem getLangType_default {src : List UInt16} (h : ∀ c ∈ src, extCharMap.lookup c = none) :
    getLangType src = .msgDefaultChar := by
  have hfold : ∀ currType, src.foldl getLangTypeStep currType = currType := by
    intro currType
    induction src with
    | nil => rfl
    | cons c src ih =>
        obtain ⟨hc, hsrc⟩ := List.forall_mem_cons.1 h
        rw [List.foldl_cons, getLangTypeStep, hc]
        exact ih hsrc
  exact hfold _

/-- Replacements are letters of the default alphabet. -/
theorem findReplaceChar_septet (c : UInt16) : findReplaceChar c < 0x80 ∧ findReplaceChar c ≠ 0x1B := by
  have htable : ∀ entry ∈ replaceCharMap, entry.2 < 0x80 ∧ entry.2 ≠ 0x1B :=
    forall_of_all (by decide)
  unfold findReplaceChar
  cases hlook : replaceCharMap.lookup c with
  | none => decide
  | some septet => exact htable _ (mem_of_lookup hlook)

theorem reads_forced {c : UInt16} (langId : UInt8) (hesc : c ≠ 0x1B) :
    Reads langId (replaced c, [forcedSeptet c]) := by
  unfold replaced forcedSeptet
  cases hdef : gsm7bitDefMap c with
  | some septet => exact reads_default langId hdef hesc
  | none =>
      obtain ⟨hlt, hne⟩ := findReplaceChar_septet c
      exact .septet hlt hne

end TelephonySms.Text
