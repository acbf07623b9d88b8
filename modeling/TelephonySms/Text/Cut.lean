import TelephonySms.Text.Split
import Mathlib.Logic.Function.Iterate

/-! # Cutting coded data

What the two loops of `SplitMessage` make of the coded data: the segments put one
behind the other are the data, no segment is larger than the size asked for, and
where the last one starts. What `DecodeMessage` leaves is bounded by its array.
-/

namespace TelephonySms.Text

open TelephonySms.Pdu

theorem le_ceilDiv_mul (n : Nat) {segSize : Nat} (hs : 0 < segSize) :
    n ≤ ceilDiv n segSize * segSize := by
  have h := Nat.lt_div_mul_add (a := n + segSize - 1) hs
  unfold ceilDiv
  omega

theorem ceilDiv_mul_lt (n : Nat) {segSize : Nat} (hs : 0 < segSize) :
    ceilDiv n segSize * segSize < n + segSize := by
  have h := Nat.div_mul_le_self (n + segSize - 1) segSize
  unfold ceilDiv
  omega

theorem one_lt_ceilDiv {n segSize : Nat} (hs : 0 < segSize) (h : segSize < n) :
    1 < ceilDiv n segSize := by
  by_contra hfew
  have hle := le_ceilDiv_mul n hs
  have hmul := Nat.mul_le_mul_right segSize (Nat.le_of_not_lt hfew)
  omega

theorem ceilDiv_eq_one {n segSize : Nat} (hn : 0 < n) (h : n ≤ segSize) :
    ceilDiv n segSize = 1 := by
  unfold ceilDiv
  rw [Nat.div_eq_of_lt_le] <;> omega

/-! ## Segments of a fixed size -/

@[simp] theorem length_splitFixed (data : List UInt8) (segSize segCount : Nat) :
    (splitFixed data segSize segCount).length = segCount := by
  simp [splitFixed]

/-- All segments but the last are full; the last one is what is left. -/
theorem splitFixed_succ (data : List UInt8) (segSize k : Nat) :
    splitFixed data segSize (k + 1) =
      ((List.range k).map fun i => (data.drop (i * segSize)).take segSize) ++
        [data.drop (k * segSize)] := by
  have hfront : ∀ i ∈ List.range k,
      (data.drop (i * segSize)).take
        (if i + 1 = k + 1 then data.length - i * segSize else segSize) =
      (data.drop (i * segSize)).take segSize := by
    intro i hi
    have hlt := List.mem_range.1 hi
    rw [if_neg (by omega)]
  rw [splitFixed, List.range_succ, List.map_append, List.map_congr_left hfront]
  simp

theorem flatten_windows (data : List UInt8) (segSize k : Nat) :
    ((List.range k).map fun i => (data.drop (i * segSize)).take segSize).flatten =
      data.take (k * segSize) := by
  induction k with
  | zero => simp
  | succ k ih =>
      rw [List.range_succ, List.map_append, List.flatten_append, ih, Nat.succ_mul,
        List.take_add]
      simp

theorem flatten_splitFixed (data : List UInt8) {segSize segCount : Nat} (hc : 0 < segCount) :
    (splitFixed data segSize segCount).flatten = data := by
  obtain ⟨k, rfl⟩ : ∃ k, segCount = k + 1 := ⟨segCount - 1, by omega⟩
  rw [splitFixed_succ, List.flatten_append, flatten_windows]
  simp

theorem getLast_splitFixed (data : List UInt8) (segSize k : Nat) :
    (splitFixed data segSize (k + 1)).getLast? = some (data.drop (k * segSize)) := by
  rw [splitFixed_succ, List.getLast?_concat]

theorem length_of_mem_splitFixed {data : List UInt8} {segSize : Nat} (hs : 0 < segSize)
    {piece : List UInt8} (h : piece ∈ splitFixed data segSize (ceilDiv data.length segSize)) :
    piece.length ≤ segSize := by
  have hc : 0 < ceilDiv data.length segSize := by
    have := List.length_pos_of_mem h
    rwa [length_splitFixed] at this
  obtain ⟨k, hk⟩ : ∃ k, ceilDiv data.length segSize = k + 1 :=
    ⟨ceilDiv data.length segSize - 1, by omega⟩
  have hle := le_ceilDiv_mul data.length hs
  rw [hk, Nat.succ_mul] at hle
  rw [hk, splitFixed_succ, List.mem_append] at h
  cases h with
  | inl h =>
      obtain ⟨i, -, rfl⟩ := List.mem_map.1 h
      exact List.length_take_le _ _
  | inr h =>
      rw [List.mem_singleton.1 h, List.length_drop]
      omega

/-! ## Segments that end at a boundary -/

section Boundaries

variable (isBoundary : List UInt16 → Nat → Bool)

theorem previousBoundary_lt {fullData : List UInt16} {index breakPos : Nat}
    (h : previousBoundary isBoundary fullData index = some breakPos) : breakPos < index := by
  have hmem := List.mem_of_find?_eq_some h
  simpa using hmem

theorem findNextUnicodePosition_le (index segSizeHalf : Nat) (fullData : List UInt16) :
    findNextUnicodePosition isBoundary index segSizeHalf fullData ≤ index + segSizeHalf := by
  simp only [findNextUnicodePosition]
  split
  · exact le_rfl
  · split
    · rename_i breakPos hprev
      have hlt := previousBoundary_lt isBoundary hprev
      split <;> omega
    · exact le_rfl

theorem lt_findNextUnicodePosition (index : Nat) {segSizeHalf : Nat} (hs : 0 < segSizeHalf)
    (fullData : List UInt16) :
    index < findNextUnicodePosition isBoundary index segSizeHalf fullData := by
  simp only [findNextUnicodePosition]
  split
  · omega
  · split
    · split <;> omega
    · omega

theorem flatten_splitUnits {segSizeHalf : Nat} (hs : 0 < segSizeHalf) (fullData : List UInt16)
    (fuel index : Nat) :
    (splitUnits isBoundary segSizeHalf fullData fuel index).flatten = fullData.drop index := by
  induction fuel generalizing index with
  | zero => simp [splitUnits]
  | succ fuel ih =>
      rw [splitUnits]
      split
      · have hlt := lt_findNextUnicodePosition isBoundary index hs fullData
        rw [List.flatten_cons, ih]
        have hdrop : fullData.drop (findNextUnicodePosition isBoundary index segSizeHalf fullData) =
            (fullData.drop index).drop
              (findNextUnicodePosition isBoundary index segSizeHalf fullData - index) := by
          rw [List.drop_drop, Nat.add_sub_cancel' hlt.le]
        rw [hdrop, List.take_append_drop]
      · simp

theorem length_of_mem_splitUnits {segSizeHalf : Nat} (hs : 0 < segSizeHalf)
    (fullData : List UInt16) {fuel index : Nat} (hfuel : fullData.length - index ≤ fuel)
    {piece : List UInt16} (h : piece ∈ splitUnits isBoundary segSizeHalf fullData fuel index) :
    piece.length ≤ segSizeHalf := by
  induction fuel generalizing index with
  | zero =>
      rw [splitUnits, List.mem_singleton] at h
      rw [h, List.length_drop]
      omega
  | succ fuel ih =>
      have hlt := lt_findNextUnicodePosition isBoundary index hs fullData
      have hle := findNextUnicodePosition_le isBoundary index segSizeHalf fullData
      rw [splitUnits] at h
      split at h
      · rcases List.mem_cons.1 h with rfl | h
        · rw [List.length_take]
          omega
        · exact ih (by omega) h
      · rename_i hlast
        rw [List.mem_singleton.1 h, List.length_drop]
        omega

/-- The units `SplitMessageUcs2` cuts at, from `index` on. -/
def cuts (segSizeHalf : Nat) (fullData : List UInt16) (index k : Nat) : Nat :=
  (fun i => findNextUnicodePosition isBoundary i segSizeHalf fullData)^[k] index

@[simp] theorem cuts_zero (segSizeHalf : Nat) (fullData : List UInt16) (index : Nat) :
    cuts isBoundary segSizeHalf fullData index 0 = index := rfl

theorem cuts_succ (segSizeHalf : Nat) (fullData : List UInt16) (index k : Nat) :
    cuts isBoundary segSizeHalf fullData index (k + 1) =
      cuts isBoundary segSizeHalf fullData
        (findNextUnicodePosition isBoundary index segSizeHalf fullData) k := rfl

theorem cuts_succ' (segSizeHalf : Nat) (fullData : List UInt16) (index k : Nat) :
    cuts isBoundary segSizeHalf fullData index (k + 1) =
      findNextUnicodePosition isBoundary (cuts isBoundary segSizeHalf fullData index k)
        segSizeHalf fullData :=
  Function.iterate_succ_apply' _ k index

theorem cuts_mono {segSizeHalf : Nat} (hs : 0 < segSizeHalf) (fullData : List UInt16)
    (index : Nat) {k k' : Nat} (hle : k ≤ k') :
    cuts isBoundary segSizeHalf fullData index k ≤
      cuts isBoundary segSizeHalf fullData index k' := by
  induction hle with
  | refl => exact le_rfl
  | step hle ih =>
      rw [cuts_succ']
      exact ih.trans (lt_findNextUnicodePosition isBoundary _ hs fullData).le

/-- There are cuts as long as more than a segment is left; the last segment starts at
the last of them. -/
theorem splitUnits_cuts {segSizeHalf : Nat} (hs : 0 < segSizeHalf) (fullData : List UInt16)
    {fuel index : Nat} (hfuel : fullData.length - index ≤ fuel) :
    let pieces := splitUnits isBoundary segSizeHalf fullData fuel index
    ∃ k, pieces.length = k + 1 ∧
      pieces.getLast? = some (fullData.drop (cuts isBoundary segSizeHalf fullData index k)) ∧
      (∀ j < k, segSizeHalf < fullData.length - cuts isBoundary segSizeHalf fullData index j) ∧
      fullData.length - cuts isBoundary segSizeHalf fullData index k ≤ segSizeHalf := by
  intro pieces
  induction fuel generalizing index with
  | zero =>
      refine ⟨0, ?_, ?_, ?_, ?_⟩
      · simp [pieces, splitUnits]
      · simp [pieces, splitUnits]
      · simp
      · rw [cuts_zero]
        omega
  | succ fuel ih =>
      have hlt := lt_findNextUnicodePosition isBoundary index hs fullData
      by_cases hmore : fullData.length - index > segSizeHalf
      · obtain ⟨k, hlen, hlast, hbefore, hstop⟩ := ih
          (by omega : fullData.length -
            findNextUnicodePosition isBoundary index segSizeHalf fullData ≤ fuel)
        refine ⟨k + 1, ?_, ?_, ?_, ?_⟩
        · simp only [pieces, splitUnits, hmore, if_true, List.length_cons] at hlen ⊢
          omega
        · simp only [pieces, splitUnits, hmore, if_true, cuts_succ]
          rw [List.getLast?_cons, hlast]
          rfl
        · intro j hj
          cases j with
          | zero => exact hmore
          | succ j => exact hbefore j (by omega)
        · exact hstop
      · refine ⟨0, ?_, ?_, ?_, ?_⟩
        · simp [pieces, splitUnits, hmore]
        · simp [pieces, splitUnits, hmore]
        · simp
        · rw [cuts_zero]
          omega

theorem one_lt_length_splitUnits {segSizeHalf : Nat} (hs : 0 < segSizeHalf)
    {fullData : List UInt16} (h : segSizeHalf < fullData.length) :
    1 < (splitUnits isBoundary segSizeHalf fullData fullData.length 0).length := by
  obtain ⟨k, hlen, -, -, hstop⟩ := splitUnits_cuts isBoundary hs fullData
    (by omega : fullData.length - 0 ≤ fullData.length)
  cases k with
  | zero =>
      rw [cuts_zero] at hstop
      omega
  | succ k => omega

end Boundaries

/-! ## UCS2 octets -/

@[simp] theorem length_ucs2Octets (units : List UInt16) :
    (ucs2Octets units).length = 2 * units.length := by
  induction units with
  | nil => rfl
  | cons c units ih =>
      simp only [ucs2Octets, List.flatMap_cons, List.length_append] at ih ⊢
      rw [ih]
      simp
      omega

theorem length_ucs2Units (octets : List UInt8) : (ucs2Units octets).length = octets.length / 2 := by
  induction octets using ucs2Units.induct with
  | case1 high low rest ih =>
      simp only [ucs2Units, List.length_cons, ih]
      omega
  | case2 octets h =>
      rw [ucs2Units.eq_2 octets h]
      cases octets with
      | nil => rfl
      | cons high rest =>
          cases rest with
          | nil => simp
          | cons low rest => exact absurd rfl (h high low rest)

/-! ## What is coded -/

theorem length_ucs2ToGsm7bitAutoLoop {extMap : List (UInt16 × UInt8)} {maxLength : Nat}
    {src : List UInt16} {dest result : List UInt8} (hdest : dest.length < maxLength)
    (h : ucs2ToGsm7bitAutoLoop extMap maxLength dest src = some result) :
    result.length ≤ maxLength := by
  induction src generalizing dest with
  | nil =>
      cases h
      exact hdest.le
  | cons inText src ih =>
      rw [ucs2ToGsm7bitAutoLoop] at h
      split at h
      · split at h
        · cases h
          rw [List.length_append]
          exact hdest
        · exact ih (by rw [List.length_append]; simp; omega) h
      · split at h
        · cases h
        · split at h
          · cases h
            exact hdest.le
          · split at h
            · cases h
              simp
              omega
            · exact ih (by simp; omega) h

theorem length_ucs2ToAsciiLoop {maxLength : Nat} {src : List UInt16} {dest result : List UInt8}
    (hdest : dest.length < maxLength) (h : ucs2ToAsciiLoop maxLength dest src = some result) :
    result.length = min maxLength (dest.length + src.length) := by
  induction src generalizing dest with
  | nil =>
      cases h
      simp
      omega
  | cons inText src ih =>
      rw [ucs2ToAsciiLoop] at h
      split at h
      · cases h
      · split at h
        · cases h
          simp
          omega
        · rw [ih (by rw [List.length_append]; simp; omega) h]
          simp
          omega

theorem length_findExt_le (extMap : List (UInt16 × UInt8)) (maxLength : Nat) (inText : UInt16) :
    (findExt extMap maxLength inText).length ≤ 2 := by
  unfold findExt
  split
  · simp
  · split
    · simp
    · split <;> simp

theorem length_ucs2ToGsm7bitOther_le (currType : MsgCharType) (maxLength : Nat)
    (inText : UInt16) : (ucs2ToGsm7bitOther currType maxLength inText).length ≤ 3 := by
  have hext := fun extMap => length_findExt_le extMap maxLength inText
  cases currType <;>
    simp only [ucs2ToGsm7bitOther, List.length_append, List.length_singleton] <;>
    grind

theorem length_ucs2ToGsm7bitLoop (currType : MsgCharType) {maxLength : Nat} (src : List UInt16)
    {dest : List UInt8} (langId : UInt8) (hdest : dest.length < maxLength) :
    (ucs2ToGsm7bitLoop currType maxLength (dest, langId) src).1.length ≤ maxLength + 2 := by
  induction src generalizing dest langId with
  | nil =>
      rw [ucs2ToGsm7bitLoop]
      simp only
      omega
  | cons inText src ih =>
      have hother := length_ucs2ToGsm7bitOther_le currType (maxLength - dest.length) inText
      cases hchar : gsm7bitDefMap inText with
      | none =>
          simp only [ucs2ToGsm7bitLoop, hchar, List.length_append]
          split
          · simp only [List.length_append]
            omega
          · exact ih _ (by rw [List.length_append]; omega)
      | some septet =>
          simp only [ucs2ToGsm7bitLoop, hchar, List.length_append, List.length_singleton]
          split
          · simp only [List.length_append, List.length_singleton]
            omega
          · exact ih _ (by rw [List.length_append, List.length_singleton]; omega)

theorem requestedScheme_cases (force7BitCode : Bool) (desAddr : List UInt8) :
    requestedScheme force7BitCode desAddr = .dataCoding8Bit ∨
      requestedScheme force7BitCode desAddr = .dataCoding7Bit ∨
      requestedScheme force7BitCode desAddr = .dataCodingAuto := by
  unfold requestedScheme
  split
  · exact .inl rfl
  · split
    · exact .inr (.inl rfl)
    · exact .inr (.inr rfl)

/-- What `DecodeMessage` leaves behind. -/
structure Decoded.Coded (d : Decoded) : Prop where
  length_le : d.data.length ≤ maxDecodeLen + 2
  scheme : d.data ≠ [] → is7Bit d.codingType ∨ isOctet d.codingType
  octet_lang : isOctet d.codingType → d.langId = 0
  ucs2_pairs : d.codingType = .dataCodingUcs2 → d.data.length < maxDecodeLen →
    d.data.length % 2 = 0

theorem Coded.nil (codingType : DataCodingScheme) : Decoded.Coded ⟨codingType, 0, []⟩ :=
  ⟨by simp, by simp, by simp, by simp⟩

theorem Coded.ucs2 {octets : List UInt8} (hlen : octets.length ≤ maxDecodeLen)
    (hpairs : octets.length < maxDecodeLen → octets.length % 2 = 0) :
    Decoded.Coded ⟨.dataCodingUcs2, 0, octets⟩ :=
  ⟨by simp only; omega, fun _ => .inr rfl, fun _ => rfl, fun _ => hpairs⟩

theorem Coded.octets {octets : List UInt8} (hlen : octets.length ≤ maxDecodeLen) :
    Decoded.Coded ⟨.dataCoding8Bit, 0, octets⟩ :=
  ⟨by simp only; omega, fun _ => .inr rfl, fun _ => rfl, by simp⟩

theorem Coded.septets {langId : UInt8} {septets : List UInt8}
    (hlen : septets.length ≤ maxDecodeLen + 2) :
    Decoded.Coded ⟨.dataCoding7Bit, langId, septets⟩ :=
  ⟨hlen, fun _ => .inl rfl, by simp [isOctet], by simp⟩

theorem Coded.ascii {septets : List UInt8} (hlen : septets.length ≤ maxDecodeLen) :
    Decoded.Coded ⟨.dataCodingAscii7Bit, 0, septets⟩ :=
  ⟨by simp only; omega, fun _ => .inl rfl, fun _ => rfl, by simp⟩

theorem length_take_ucs2Octets_mod (units : List UInt16)
    (h : ((ucs2Octets units).take maxDecodeLen).length < maxDecodeLen) :
    ((ucs2Octets units).take maxDecodeLen).length % 2 = 0 := by
  rw [List.length_take, length_ucs2Octets] at h ⊢
  omega

theorem gsmUtf8ToAuto_coded (iconv : Iconv) (national : SmsCodingNationalType)
    (src : List UInt8) : (gsmUtf8ToAuto iconv national src).Coded := by
  unfold gsmUtf8ToAuto
  split
  · exact Coded.nil _
  · split
    · exact Coded.octets (by simp)
    · split
      · exact Coded.ucs2 (by simp) (length_take_ucs2Octets_mod _)
      · rename_i dest hdest
        have hle := length_ucs2ToGsm7bitAutoLoop (by decide) hdest
        exact Coded.septets (by omega)

theorem cdmaUtf8ToAuto_coded (iconv : Iconv) (src : List UInt8) :
    (cdmaUtf8ToAuto iconv src).Coded := by
  unfold cdmaUtf8ToAuto
  split
  · exact Coded.nil _
  · split
    · exact Coded.octets (by simp)
    · split
      · exact Coded.ucs2 (by simp) (length_take_ucs2Octets_mod _)
      · rename_i dest hdest
        exact Coded.ascii ((length_ucs2ToAsciiLoop (by decide) hdest).trans_le (Nat.min_le_left _ _))

theorem length_utf8ToGsm7bit_le (iconv : Iconv) (src : List UInt8) :
    (utf8ToGsm7bit iconv src).1.length ≤ maxDecodeLen + 2 := by
  unfold utf8ToGsm7bit
  split
  · simp
  · split
    · simp
    · exact length_ucs2ToGsm7bitLoop _ _ _ (by decide)

theorem length_utf8ToUcs2 (iconv : Iconv) (src : List UInt8) :
    (utf8ToUcs2 iconv src).length ≤ maxDecodeLen ∧ (utf8ToUcs2 iconv src).length % 2 = 0 := by
  unfold utf8ToUcs2
  split
  · simp
  · split
    · refine ⟨by assumption, ?_⟩
      rw [length_ucs2Octets]
      omega
    · simp

theorem length_copied_le (src : List UInt8) : (copied src).length ≤ maxDecodeLen := by
  unfold copied
  split
  · simp
  · omega

theorem decodeMessage_coded (iconv : Iconv) (splitter : Splitter)
    (codingType : DataCodingScheme) (msgText : List UInt8) :
    (decodeMessage iconv splitter codingType msgText).Coded := by
  have hucs2 := length_utf8ToUcs2 iconv msgText
  unfold decodeMessage
  split
  · exact Coded.nil _
  · split
    · exact Coded.septets (length_utf8ToGsm7bit_le iconv msgText)
    · split
      · exact Coded.nil _
      · exact Coded.ascii (by omega)
    · exact Coded.octets (length_copied_le msgText)
    · exact Coded.ucs2 hucs2.1 fun _ => hucs2.2
    · exact gsmUtf8ToAuto_coded iconv _ msgText
    · exact cdmaUtf8ToAuto_coded iconv msgText

/-! ## The segments of coded data -/

section Segments

variable {isBoundary : List UInt16 → Nat → Bool} {d : Decoded} {bPortNum : Bool}

/-- The octets `SplitMessage` leaves for the port and the language. -/
def headerSize (bPortNum : Bool) (langId : UInt8) : Nat :=
  (if bPortNum then 6 else 0) + (if langId ≠ 0 then 3 else 0)

/-- What a message of one segment holds, its header included. -/
def singleSize (codingType : DataCodingScheme) : Nat :=
  if is7Bit codingType then maxGsm7BitDataLen else maxUcs2DataLen

theorem getSegmentSize_eq (codingScheme : DataCodingScheme) (dataLen : Nat) (langId : UInt8) :
    getSegmentSize codingScheme dataLen bPortNum langId =
      if is7Bit codingScheme then
        if maxGsm7BitDataLen < dataLen + headerSize bPortNum langId then 153 else dataLen
      else if isOctet codingScheme then
        if maxUcs2DataLen < dataLen + headerSize bPortNum langId then 134 else dataLen
      else 0 := rfl

theorem not_is7Bit_of_isOctet {codingType : DataCodingScheme} (h : isOctet codingType) :
    ¬ is7Bit codingType := by
  cases codingType <;> simp [is7Bit, isOctet] at *

theorem getSegmentSize_single (hc : d.Coded) (hne : d.data ≠ [])
    (h : d.data.length + headerSize bPortNum d.langId ≤ singleSize d.codingType) :
    getSegmentSize d.codingType d.data.length bPortNum d.langId = d.data.length := by
  rw [getSegmentSize_eq]
  unfold singleSize at h
  cases hc.scheme hne with
  | inl h7Bit =>
      rw [if_pos h7Bit] at h ⊢
      exact if_neg (by omega)
  | inr hoctet =>
      rw [if_neg (not_is7Bit_of_isOctet hoctet)] at h ⊢
      rw [if_pos hoctet]
      exact if_neg (by omega)

theorem getSegmentSize_7Bit (h7Bit : is7Bit d.codingType)
    (h : maxGsm7BitDataLen < d.data.length + headerSize bPortNum d.langId) :
    getSegmentSize d.codingType d.data.length bPortNum d.langId = 153 := by
  rw [getSegmentSize_eq, if_pos h7Bit, if_pos h]

theorem getSegmentSize_octet (hoctet : isOctet d.codingType)
    (h : maxUcs2DataLen < d.data.length + headerSize bPortNum d.langId) :
    getSegmentSize d.codingType d.data.length bPortNum d.langId = 134 := by
  rw [getSegmentSize_eq, if_neg (not_is7Bit_of_isOctet hoctet), if_pos hoctet, if_pos h]

theorem splitFixed_one (data : List UInt8) (segSize : Nat) :
    splitFixed data segSize 1 = [data] := by
  simpa using splitFixed_succ data segSize 0

theorem segments_nil (h : d.data = []) : d.segments isBoundary bPortNum = [] := by
  simp [Decoded.segments, h]

/-- Data that leave room for the header are one segment. -/
theorem segments_single (hc : d.Coded) (hne : d.data ≠ [])
    (h : d.data.length + headerSize bPortNum d.langId ≤ singleSize d.codingType) :
    d.segments isBoundary bPortNum = [d.data] := by
  have hpos := List.length_pos_iff.2 hne
  have hsize := getSegmentSize_single hc hne h
  have hat : d.atBoundaries bPortNum = false := by
    simp [Decoded.atBoundaries, hsize, ceilDiv_eq_one hpos le_rfl]
  simp only [Decoded.segments, hne, hat, hsize, hpos, if_true, if_false, ceilDiv_eq_one hpos le_rfl]
  simp [splitFixed_one]

theorem segments_7Bit (h7Bit : is7Bit d.codingType)
    (h : maxGsm7BitDataLen < d.data.length + headerSize bPortNum d.langId)
    (hne : d.data ≠ []) :
    d.segments isBoundary bPortNum = splitFixed d.data 153 (ceilDiv d.data.length 153) := by
  have hucs2 : d.codingType ≠ .dataCodingUcs2 := by
    intro hu
    rw [hu] at h7Bit
    simp [is7Bit] at h7Bit
  simp [Decoded.segments, Decoded.atBoundaries, hne, hucs2, getSegmentSize_7Bit h7Bit h]

theorem segments_8Bit (h8Bit : d.codingType = .dataCoding8Bit)
    (h : maxUcs2DataLen < d.data.length + headerSize bPortNum d.langId)
    (hne : d.data ≠ []) :
    d.segments isBoundary bPortNum = splitFixed d.data 134 (ceilDiv d.data.length 134) := by
  have hsize := getSegmentSize_octet (by rw [h8Bit]; rfl) h
  have hat : d.atBoundaries bPortNum = false := by
    simp [Decoded.atBoundaries, h8Bit]
  simp [Decoded.segments, hne, hat, hsize]

theorem segments_ucs2 (hucs2 : d.codingType = .dataCodingUcs2)
    (h : maxUcs2DataLen < d.data.length + headerSize bPortNum d.langId)
    (hmany : 134 < d.data.length) :
    d.segments isBoundary bPortNum =
      (splitUnits isBoundary 67 (ucs2Units d.data) (ucs2Units d.data).length 0).map
        ucs2Octets := by
  have hne : d.data ≠ [] := by
    intro hnil
    simp [hnil] at hmany
  have hsize := getSegmentSize_octet (by rw [hucs2]; rfl) h
  have hcount := one_lt_ceilDiv (by decide) hmany
  have hat : d.atBoundaries bPortNum = true := by
    rw [Decoded.atBoundaries, hsize]
    simp [hucs2, hcount]
  simp [Decoded.segments, hne, hat, hsize, splitMessageUcs2]

theorem segment_langId (hc : d.Coded) (bPortNum : Bool) :
    (if d.atBoundaries bPortNum then 0 else d.langId) = d.langId := by
  split
  · rename_i hat
    simp only [Decoded.atBoundaries, decide_eq_true_eq] at hat
    exact (hc.octet_lang (by rw [hat.1]; rfl)).symm
  · rfl

end Segments

end TelephonySms.Text
