import Mathlib.Data.List.TakeWhile
import TelephonySms.Broadcast.NormalForm

/-! # Channel strings

The channels enabled in the modem come and go as a string of numbers and intervals. A list
with gaps survives being printed and read again. A string with an entry that is not
decimal is read in part, and a number that `std::stoi` cannot represent ends the process.
-/

namespace TelephonySms.Broadcast

/-! ## Numbers -/

section Numbers

variable {text : List Char}

/-- The value of a string of decimal digits. -/
def number (text : List Char) : Nat := Nat.ofDigitChars 10 text 0

theorem number_toDigits (n : Nat) : number (Nat.toDigits 10 n) = n := Nat.ofDigitChars_ten_toDigits

theorem isDigit_of_allDigits (h : allDigits text = true) : ∀ c ∈ text, c.isDigit = true := by
  rw [allDigits, Bool.and_eq_true, List.all_eq_true] at h
  exact h.2

theorem allDigits_toDigits (n : Nat) : allDigits (Nat.toDigits 10 n) = true := by
  rw [allDigits, Bool.and_eq_true, List.all_eq_true]
  constructor
  · simp [Nat.toDigits_ne_nil]
  · intro c hc
    exact Nat.isDigit_of_mem_toDigits (by decide) (by decide) hc

theorem toNat_of_isDigit {c : Char} (h : c.isDigit = true) : 48 ≤ c.toNat ∧ c.toNat ≤ 57 := by
  rw [Char.isDigit, Bool.and_eq_true, decide_eq_true_eq, decide_eq_true_eq] at h
  exact ⟨UInt32.le_iff_toNat_le.1 h.1, UInt32.le_iff_toNat_le.1 h.2⟩

theorem ne_of_isDigit {c d : Char} (h : c.isDigit = true) (hd : d.isDigit = false) : c ≠ d := by
  rintro rfl
  rw [h] at hd
  cases hd

theorem isSpace_of_isDigit {c : Char} (h : c.isDigit = true) : isSpace c = false := by
  have hbounds := toNat_of_isDigit h
  have hblank : c ≠ ' ' := ne_of_isDigit h (by decide)
  simp only [isSpace, hblank, decide_false, Bool.false_or, Bool.and_eq_false_iff,
    decide_eq_false_iff_not]
  omega

/-- `std::stoi` on a string of digits. -/
theorem stoi_of_allDigits (h : allDigits text = true) :
    stoi text = if number text < 2 ^ 31 then some (number text : Int) else none := by
  have hdigits := isDigit_of_allDigits h
  cases text with
  | nil => cases h
  | cons c cs =>
      have hc := hdigits c List.mem_cons_self
      have hspace : (c :: cs).dropWhile isSpace = c :: cs := by
        rw [List.dropWhile_cons_of_neg (by simp [isSpace_of_isDigit hc])]
      have hminus : c ≠ '-' := ne_of_isDigit hc (by decide)
      have hplus : c ≠ '+' := ne_of_isDigit hc (by decide)
      have htake : (c :: cs).takeWhile Char.isDigit = c :: cs :=
        List.takeWhile_eq_self_iff.2 hdigits
      have hvalue : (c :: cs).foldl (fun n c => 10 * n + (c.toNat - 48)) 0 = number (c :: cs) :=
        Nat.ofDigitChars_eq_foldl.symm
      unfold stoi
      simp only [hspace, List.head?_cons, Option.some.injEq, hminus, hplus, or_self, if_false,
        Bool.false_eq_true, htake, hvalue, List.isEmpty_cons, false_or]
      split <;> split <;> first | rfl | omega

end Numbers

/-! ## Printing -/

/-- One entry of a channel string. -/
def RangeInfo.text (item : RangeInfo) : List Char :=
  if item.fromMsgId = item.toMsgId then Nat.toDigits 10 item.fromMsgId.toNat
  else Nat.toDigits 10 item.fromMsgId.toNat ++ ['-'] ++ Nat.toDigits 10 item.toMsgId.toNat

/-- `RangeListToString`; the state of the loop is `ret` and `isFirst`. -/
def rangeListToString (rangeList : List RangeInfo) : List Char :=
  (rangeList.foldl (fun (ret, isFirst) item =>
    ((if isFirst then ret else ret ++ [',']) ++ item.text, false)) ([], true)).1

section Printing

theorem rangeListToString_loop (ret : List Char) (rangeList : List RangeInfo) :
    rangeList.foldl (fun (ret, isFirst) item =>
      ((if isFirst then ret else ret ++ [',']) ++ item.text, false)) (ret, false) =
        (ret ++ rangeList.flatMap fun item => ',' :: item.text, false) := by
  induction rangeList generalizing ret with
  | nil => simp
  | cons item rangeList ih =>
      rw [List.foldl_cons]
      simp only [Bool.false_eq_true, if_false]
      rw [ih]
      simp

theorem rangeListToString_eq (rangeList : List RangeInfo) :
    rangeListToString rangeList = [','].intercalate (rangeList.map RangeInfo.text) := by
  cases rangeList with
  | nil => rfl
  | cons item rangeList =>
      rw [rangeListToString, List.foldl_cons]
      simp only [if_true, List.nil_append]
      rw [rangeListToString_loop]
      induction rangeList generalizing item with
      | nil => simp [List.intercalate]
      | cons next rangeList ih =>
          have hnext := ih next
          simp only [List.map_cons, List.intercalate_cons_cons] at hnext ⊢
          rw [← hnext]
          simp

theorem comma_notMem_text (item : RangeInfo) : ',' ∉ item.text := by
  have hdigits : ∀ n : Nat, ',' ∉ Nat.toDigits 10 n := fun n hmem =>
    absurd (Nat.isDigit_of_mem_toDigits (by decide) (by decide) hmem) (by decide)
  unfold RangeInfo.text
  split
  · exact hdigits _
  · simp [hdigits]

theorem minus_notMem_toDigits (n : Nat) : ∀ c ∈ Nat.toDigits 10 n, decide (c = '-') = false := by
  intro c hc
  exact decide_eq_false
    (ne_of_isDigit (Nat.isDigit_of_mem_toDigits (by decide) (by decide) hc) (by decide))

theorem text_ne_nil (item : RangeInfo) : item.text ≠ [] := by
  unfold RangeInfo.text
  split <;> simp [Nat.toDigits_ne_nil]

/-- An entry is split where it was put together. -/
theorem splitMidValue_text (item : RangeInfo) :
    splitMidValue item.text =
      some (Nat.toDigits 10 item.fromMsgId.toNat, Nat.toDigits 10 item.toMsgId.toNat) := by
  have hfrom : Nat.toDigits 10 item.fromMsgId.toNat ≠ [] := Nat.toDigits_ne_nil
  have hto : Nat.toDigits 10 item.toMsgId.toNat ≠ [] := Nat.toDigits_ne_nil
  have hnone : (Nat.toDigits 10 item.fromMsgId.toNat).findIdx? (fun c => decide (c = '-')) = none :=
    List.findIdx?_eq_none_iff.2 (minus_notMem_toDigits _)
  rw [splitMidValue, if_neg (by simp [text_ne_nil])]
  unfold RangeInfo.text
  by_cases heq : item.fromMsgId = item.toMsgId
  · rw [if_pos heq, hnone, ← heq]
  · have hpos : (Nat.toDigits 10 item.fromMsgId.toNat ++ ['-'] ++
        Nat.toDigits 10 item.toMsgId.toNat).findIdx? (fun c => decide (c = '-')) =
          some (Nat.toDigits 10 item.fromMsgId.toNat).length := by
      rw [List.append_assoc, List.findIdx?_append, hnone, List.singleton_append,
        List.findIdx?_cons]
      simp
    have hlength := List.length_pos_of_ne_nil hfrom
    have hlength' := List.length_pos_of_ne_nil hto
    rw [if_neg heq, hpos]
    dsimp only
    rw [if_neg (by simp [hfrom, hto])]
    simp

end Printing

/-! ## Reading -/

/-- The ids of a well-formed entry. -/
def entryIds (value : List Char) : Set Nat :=
  {n | ∃ start stop, splitMidValue value = some (start, stop) ∧ allDigits start = true ∧
    allDigits stop = true ∧ number start ≤ n ∧ n ≤ number stop}

/-- What an entry with two numbers adds to the list. -/
def entryRange (value : List Char) : Option RangeInfo :=
  match splitMidValue value with
  | none => none
  | some (start, stop) =>
      if number start ≤ number stop then
        some ⟨UInt32.ofNat (number start), UInt32.ofNat (number stop)⟩
      else none

/-- An entry that is split is split into decimals. -/
def Decimal (value : List Char) : Prop :=
  ∀ start stop, splitMidValue value = some (start, stop) →
    allDigits start = true ∧ allDigits stop = true

/-- `std::stoi` has a value for both ends. -/
def Representable (value : List Char) : Prop :=
  ∀ start stop, splitMidValue value = some (start, stop) →
    number start < 2 ^ 31 ∧ number stop < 2 ^ 31

structure Readable (value : List Char) : Prop where
  decimal : Decimal value
  representable : Representable value

theorem Readable.of_skipped {value : List Char} (h : splitMidValue value = none) :
    Readable value := by
  constructor <;>
  · intro start stop hsplit
    rw [h] at hsplit
    cases hsplit

theorem Readable.of_split {value start stop : List Char}
    (h : splitMidValue value = some (start, stop)) (hstart : allDigits start = true)
    (hstop : allDigits stop = true) (hsmall : number start < 2 ^ 31)
    (hsmall' : number stop < 2 ^ 31) : Readable value := by
  constructor
  · intro start' stop' hsplit
    rw [h] at hsplit
    cases hsplit
    exact ⟨hstart, hstop⟩
  · intro start' stop' hsplit
    rw [h] at hsplit
    cases hsplit
    exact ⟨hsmall, hsmall'⟩

section Reading

variable {isValidDecValue : List Char → Bool} {value : List Char}
  {entries before dest : List (List Char)} {mdRangeList : List RangeInfo}

theorem ofInt_natCast (n : Nat) : UInt32.ofInt (n : Int) = UInt32.ofNat n := by
  apply UInt32.toNat_inj.1
  simp only [UInt32.ofInt, UInt32.toNat_ofNat']
  omega

theorem readMids_of_readable (hdec : ∀ text, isValidDecValue text = allDigits text)
    (h : Readable value) :
    readMids isValidDecValue mdRangeList (value :: dest) =
      readMids isValidDecValue (mdRangeList ++ (entryRange value).toList) dest := by
  rw [readMids, entryRange]
  cases hsplit : splitMidValue value with
  | none => simp
  | some ends =>
      obtain ⟨start, stop⟩ := ends
      obtain ⟨hstart, hstop⟩ := h.decimal start stop hsplit
      obtain ⟨hsmall, hsmall'⟩ := h.representable start stop hsplit
      simp only [hdec, hstart, hstop, Bool.not_true, Bool.or_self, Bool.false_eq_true, if_false,
        stoi_of_allDigits, hsmall, hsmall', if_true, Int.ofNat_le, ofInt_natCast]
      split
      · rfl
      · simp

theorem readMids_append (hdec : ∀ text, isValidDecValue text = allDigits text)
    (h : ∀ value ∈ before, Readable value) :
    readMids isValidDecValue mdRangeList (before ++ dest) =
      readMids isValidDecValue (mdRangeList ++ before.filterMap entryRange) dest := by
  induction before generalizing mdRangeList with
  | nil => simp
  | cons value before ih =>
      rw [List.cons_append, readMids_of_readable hdec (h value List.mem_cons_self),
        ih fun v hv => h v (List.mem_cons_of_mem value hv), List.append_assoc]
      congr 2
      cases hrange : entryRange value <;> simp [hrange]

theorem readMids_of_not_decimal (hdec : ∀ text, isValidDecValue text = allDigits text)
    (h : ¬ Decimal value) :
    readMids isValidDecValue mdRangeList (value :: dest) = .notDecimal mdRangeList := by
  unfold Decimal at h
  push Not at h
  obtain ⟨start, stop, hsplit, himp⟩ := h
  rw [readMids, hsplit]
  cases hstart : allDigits start with
  | false => simp [hdec, hstart]
  | true => simp [hdec, himp hstart]

theorem readMids_of_not_representable (hdec : ∀ text, isValidDecValue text = allDigits text)
    (h : Decimal value) (hlarge : ¬ Representable value) :
    readMids isValidDecValue mdRangeList (value :: dest) = .throws := by
  unfold Representable at hlarge
  push Not at hlarge
  obtain ⟨start, stop, hsplit, himp⟩ := hlarge
  obtain ⟨hstart, hstop⟩ := h start stop hsplit
  rw [readMids, hsplit]
  simp only [hdec, hstart, hstop, Bool.not_true, Bool.or_self, Bool.false_eq_true, if_false,
    stoi_of_allDigits]
  by_cases hsmall : number start < 2 ^ 31
  · rw [if_pos hsmall, if_neg (Nat.not_lt.2 (himp hsmall))]
  · rw [if_neg hsmall]

/-- Either all entries can be read, or there is a first one that cannot. -/
theorem readable_or_first (entries : List (List Char)) :
    (∀ value ∈ entries, Readable value) ∨ ∃ before value after,
      entries = before ++ value :: after ∧ (∀ v ∈ before, Readable v) ∧ ¬ Readable value := by
  induction entries with
  | nil => exact .inl (by simp)
  | cons value entries ih =>
      by_cases hvalue : Readable value
      · cases ih with
        | inl hall => exact .inl (List.forall_mem_cons.2 ⟨hvalue, hall⟩)
        | inr hfirst =>
            obtain ⟨before, v, after, rfl, hbefore, hv⟩ := hfirst
            exact .inr ⟨value :: before, v, after, rfl,
              List.forall_mem_cons.2 ⟨hvalue, hbefore⟩, hv⟩
      · exact .inr ⟨[], value, entries, rfl, by simp, hvalue⟩

end Reading

/-! ## The round trip -/

section RoundTrip

variable {item : RangeInfo}

theorem readable_text (h : item.InBounds) : Readable item.text := by
  obtain ⟨hle, hmax⟩ := h
  rw [UInt32.le_iff_toNat_le] at hle
  unfold rangMax at hmax
  refine .of_split (splitMidValue_text item) (allDigits_toDigits _) (allDigits_toDigits _) ?_ ?_
  · rw [number_toDigits]
    omega
  · rw [number_toDigits]
    omega

theorem entryRange_text (h : item.InBounds) : entryRange item.text = some item := by
  rw [entryRange, splitMidValue_text]
  simp only [number_toDigits]
  rw [if_pos (UInt32.le_iff_toNat_le.1 h.1)]
  simp

theorem filterMap_entryRange_text {rangeList : List RangeInfo}
    (h : ∀ r ∈ rangeList, r.InBounds) :
    (rangeList.map RangeInfo.text).filterMap entryRange = rangeList := by
  rw [List.filterMap_map]
  refine (List.filterMap_congr fun r hr => ?_).trans List.filterMap_some
  exact entryRange_text (h r hr)

theorem reported_rangeListToString {isValidDecValue : List Char → Bool}
    (hdec : ∀ text, isValidDecValue text = allDigits text) {rangeList : List RangeInfo}
    (hne : rangeList ≠ []) (h : ∀ r ∈ rangeList, r.InBounds) :
    reported isValidDecValue (rangeListToString rangeList) = .all rangeList := by
  have hsplit : (rangeListToString rangeList).splitOn ',' = rangeList.map RangeInfo.text := by
    rw [rangeListToString_eq, List.splitOn_intercalate]
    · intro text htext
      obtain ⟨r, -, rfl⟩ := List.mem_map.1 htext
      exact comma_notMem_text r
    · simpa using hne
  have hreadable : ∀ text ∈ rangeList.map RangeInfo.text, Readable text := by
    intro text htext
    obtain ⟨r, hr, rfl⟩ := List.mem_map.1 htext
    exact readable_text (h r hr)
  have hread : readMids isValidDecValue [] (rangeList.map RangeInfo.text ++ []) = _ :=
    readMids_append hdec hreadable
  rw [List.append_nil, filterMap_entryRange_text h] at hread
  rw [reported, hsplit, hread]
  rfl

theorem rangeListToString_ne_nil {rangeList : List RangeInfo} (hne : rangeList ≠ []) :
    rangeListToString rangeList ≠ [] := by
  rw [rangeListToString_eq]
  cases rangeList with
  | nil => exact absurd rfl hne
  | cons item rangeList => cases rangeList <;> simp [List.intercalate, text_ne_nil]

/-- A list with gaps that is printed and reported by the modem becomes both lists. -/
theorem updateCbRangList_rangeListToString (isValidDecValue : List Char → Bool)
    (hdec : ∀ text, isValidDecValue text = allDigits text) (m : SmsMiscManager)
    (rangeList : List RangeInfo) (hnormal : Normal rangeList) (hne : rangeList ≠ []) :
    m.updateCbRangList isValidDecValue (rangeListToString rangeList) =
      some ⟨rangeList, rangeList⟩ := by
  have hordered : Ordered rangeList := fun r hr => (hnormal.inBounds r hr).1
  have hreported := reported_rangeListToString hdec hne hnormal.inBounds
  unfold SmsMiscManager.updateCbRangList
  rw [if_neg (by simp [rangeListToString_ne_nil hne]), hreported]
  simp only [combineCBRange_of_gaps hnormal.gaps hordered]

theorem updateCbRangList_rangeListToString_ends :
    SmsMiscManager.init.updateCbRangList allDigits (rangeListToString [⟨0, 0⟩, ⟨50, 65535⟩]) =
      some ⟨[⟨0, 0⟩, ⟨50, 65535⟩], [⟨0, 0⟩, ⟨50, 65535⟩]⟩ := by
  refine updateCbRangList_rangeListToString allDigits (fun _ => rfl) _ _ ⟨?_, ?_⟩ (by decide)
  · simp [Behind]
  · simp [RangeInfo.InBounds, rangMax]

end RoundTrip

/-! ## Malformed reports -/

section Malformed

/-- There is no exception, all the ids reported are in both lists or nothing has changed,
and the ids disabled in the modem are among those enabled again. -/
def AllOrNothing (isValidDecValue : List Char → Bool) (m : SmsMiscManager)
    (mids : List Char) : Prop :=
  ∃ m', m.updateCbRangList isValidDecValue mids = some m' ∧
    ((∀ value ∈ mids.splitOn ',', entryIds value ⊆ ids m'.mdRangeList ∧
        entryIds value ⊆ ids m'.rangeList) ∨ m' = m) ∧
    ids m'.mdRangeList ⊆ ids m'.rangeList

/-- The first entry that cannot be read is not decimal, and what stands in front of it does
not get the lists apart. -/
def StopsHarmlessly (m : SmsMiscManager) (entries : List (List Char)) : Prop :=
  ∃ before value after, entries = before ++ value :: after ∧
    (∀ v ∈ before, Readable v) ∧ ¬ Decimal value ∧
    ids (before.filterMap entryRange) ⊆ ids m.rangeList ∧
    (before.filterMap entryRange = m.mdRangeList ∨
      ∀ v ∈ entries, entryIds v ⊆ ids (before.filterMap entryRange) ∧
        entryIds v ⊆ ids m.rangeList)

variable {isValidDecValue : List Char → Bool} {m : SmsMiscManager} {mids value : List Char}

/-- The ids of an entry that is read are those of its range. -/
theorem entryIds_subset_of_readable {entries : List (List Char)} (h : Readable value)
    (hmem : value ∈ entries) : entryIds value ⊆ ids (entries.filterMap entryRange) := by
  rintro n ⟨start, stop, hsplit, -, -, hge, hle⟩
  obtain ⟨hsmall, hsmall'⟩ := h.representable start stop hsplit
  refine ⟨⟨UInt32.ofNat (number start), UInt32.ofNat (number stop)⟩,
    List.mem_filterMap.2 ⟨value, hmem, ?_⟩, mem_ids_range.2 ⟨?_, ?_⟩⟩
  · simp only [entryRange, hsplit]
    rw [if_pos (Nat.le_trans hge hle)]
  · rw [UInt32.toNat_ofNat_of_lt' (by unfold UInt32.size; omega)]
    exact hge
  · rw [UInt32.toNat_ofNat_of_lt' (by unfold UInt32.size; omega)]
    exact hle

theorem allOrNothing_of_readable (hdec : ∀ text, isValidDecValue text = allDigits text)
    (h : ∀ value ∈ mids.splitOn ',', Readable value) :
    AllOrNothing isValidDecValue m mids := by
  have hread : readMids isValidDecValue [] (mids.splitOn ',' ++ []) = _ := readMids_append hdec h
  rw [List.append_nil, List.nil_append, readMids] at hread
  unfold AllOrNothing SmsMiscManager.updateCbRangList
  by_cases hempty : mids.isEmpty = true
  · rw [if_pos hempty]
    refine ⟨_, rfl, .inl fun value hvalue => ?_, by simp⟩
    rw [List.isEmpty_iff.1 hempty, List.splitOn_nil, List.mem_singleton] at hvalue
    subst hvalue
    have hnone : entryIds [] = ∅ := by
      ext n
      simp [entryIds, splitMidValue]
    rw [hnone]
    exact ⟨Set.empty_subset _, Set.empty_subset _⟩
  · rw [if_neg hempty, reported, hread]
    refine ⟨_, rfl, .inl fun value hvalue => ?_, ?_⟩
    · have hsub := entryIds_subset_of_readable (h value hvalue) hvalue
      refine ⟨hsub, ?_⟩
      rw [(combined_combineCBRange _).same]
      exact hsub
    · rw [(combined_combineCBRange _).same]

/-- Nothing is to be read in an empty string. -/
theorem isEmpty_of_not_readable {entries : List (List Char)} (h : mids.splitOn ',' = entries)
    (hmem : value ∈ entries) (hvalue : ¬ Readable value) : mids.isEmpty = false := by
  cases mids with
  | cons c mids => rfl
  | nil =>
      rw [List.splitOn_nil] at h
      rw [← h, List.mem_singleton] at hmem
      subst hmem
      exact absurd (.of_skipped rfl) hvalue

theorem updateCbRangList_of_not_decimal (hdec : ∀ text, isValidDecValue text = allDigits text)
    {before after : List (List Char)} (hentries : mids.splitOn ',' = before ++ value :: after)
    (hbefore : ∀ v ∈ before, Readable v) (hvalue : ¬ Decimal value) :
    m.updateCbRangList isValidDecValue mids =
      some { m with mdRangeList := before.filterMap entryRange } := by
  have hmem : value ∈ before ++ value :: after := by simp
  have hempty := isEmpty_of_not_readable hentries hmem fun hreadable => hvalue hreadable.decimal
  rw [SmsMiscManager.updateCbRangList, if_neg (by simp [hempty]), reported, hentries,
    readMids_append hdec hbefore, readMids_of_not_decimal hdec hvalue, List.nil_append]

theorem updateCbRangList_of_not_representable
    (hdec : ∀ text, isValidDecValue text = allDigits text)
    {before after : List (List Char)} (hentries : mids.splitOn ',' = before ++ value :: after)
    (hbefore : ∀ v ∈ before, Readable v) (hvalue : Decimal value)
    (hlarge : ¬ Representable value) :
    m.updateCbRangList isValidDecValue mids = none := by
  have hmem : value ∈ before ++ value :: after := by simp
  have hempty := isEmpty_of_not_readable hentries hmem
    fun hreadable => hlarge hreadable.representable
  rw [SmsMiscManager.updateCbRangList, if_neg (by simp [hempty]), reported, hentries,
    readMids_append hdec hbefore, readMids_of_not_representable hdec hvalue hlarge]

/-- A report changes all or nothing where every entry can be read, or where the first that
cannot stops the loop before the lists differ. -/
theorem updateCbRangList_allOrNothing_iff (isValidDecValue : List Char → Bool)
    (hdec : ∀ text, isValidDecValue text = allDigits text) (m : SmsMiscManager)
    (mids : List Char) :
    AllOrNothing isValidDecValue m mids ↔
      (∀ value ∈ mids.splitOn ',', Readable value) ∨ StopsHarmlessly m (mids.splitOn ',') := by
  constructor
  · intro h
    refine (readable_or_first (mids.splitOn ',')).imp_right ?_
    rintro ⟨before, value, after, hentries, hbefore, hvalue⟩
    obtain ⟨m', hupdate, hkept, hsub⟩ := h
    by_cases hdecimal : Decimal value
    · have hlarge : ¬ Representable value := fun hsmall => hvalue ⟨hdecimal, hsmall⟩
      rw [updateCbRangList_of_not_representable hdec hentries hbefore hdecimal hlarge] at hupdate
      cases hupdate
    · rw [updateCbRangList_of_not_decimal hdec hentries hbefore hdecimal] at hupdate
      cases hupdate
      refine ⟨before, value, after, hentries, hbefore, hdecimal, hsub, ?_⟩
      cases hkept with
      | inl hall => exact .inr hall
      | inr hsame => exact .inl (congrArg SmsMiscManager.mdRangeList hsame)
  · intro h
    cases h with
    | inl hreadable => exact allOrNothing_of_readable hdec hreadable
    | inr hstops =>
        obtain ⟨before, value, after, hentries, hbefore, hdecimal, hsub, hkept⟩ := hstops
        refine ⟨_, updateCbRangList_of_not_decimal hdec hentries hbefore hdecimal, ?_, hsub⟩
        cases hkept with
        | inl hsame =>
            right
            rw [hsame]
        | inr hall => exact .inl hall

/-- A reversed interval is skipped, and an entry without a first number too. -/
theorem updateCbRangList_allOrNothing_skips :
    AllOrNothing allDigits .init "7-5,-3,1-2".toList := by
  refine (updateCbRangList_allOrNothing_iff allDigits (fun _ => rfl) _ _).2 (.inl ?_)
  have hentries : "7-5,-3,1-2".toList.splitOn ',' = ["7-5".toList, "-3".toList, "1-2".toList] := by
    decide
  rw [hentries]
  refine List.forall_mem_cons.2 ⟨?_, List.forall_mem_cons.2 ⟨?_, List.forall_mem_singleton.2 ?_⟩⟩
  · exact .of_split (show _ = some ("7".toList, "5".toList) from rfl) rfl rfl (by decide) (by decide)
  · exact .of_skipped rfl
  · exact .of_split (show _ = some ("1".toList, "2".toList) from rfl) rfl rfl (by decide) (by decide)

/-- The first list is read in part and the second one is left as it was. -/
theorem not_allOrNothing_partial : ¬ AllOrNothing allDigits .init "1-5,x".toList := by
  rintro ⟨m', hupdate, -, hsub⟩
  have hupdated : SmsMiscManager.init.updateCbRangList allDigits "1-5,x".toList =
      some ⟨[], [⟨1, 5⟩]⟩ := by decide
  rw [hupdated] at hupdate
  cases hupdate
  have hmem : 3 ∈ ids [⟨1, 5⟩] := ⟨⟨1, 5⟩, List.mem_singleton.2 rfl, mem_ids_range.2 (by decide)⟩
  simpa using hsub hmem

end Malformed

end TelephonySms.Broadcast
