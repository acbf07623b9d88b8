import TelephonySms.Text.Cut

/-! # Counting against cutting

`GetSmsSegmentsInfo` divides the coded length by the size that would be left if a
reply address stood in the header as well, while `SplitMessage` cuts without one.
-/

namespace TelephonySms.Text

open TelephonySms.Pdu

/-! ## What is counted -/

/-- The characters of a segment: units of UCS2, septets or octets. -/
def characters (segment : SplitInfo) : Nat :=
  if segment.encodeType = .dataCodingUcs2 then segment.encodeData.length / 2
  else segment.encodeData.length

/-- The characters `SplitMessage` puts at most into a segment of a message. -/
def segmentCapacity (codingType : DataCodingScheme) (langId : UInt8) (segCount : Nat) : Nat :=
  if is7Bit codingType then
    if segCount > 1 then 153 else maxGsm7BitDataLen - headerSize false langId
  else if codingType = .dataCodingUcs2 then
    if segCount > 1 then 67 else maxUcs2DataLen / 2
  else
    if segCount > 1 then 134 else maxUcs2DataLen - headerSize false langId

/-- What is still free in the last segment. -/
def freeCapacity (segments : List SplitInfo) : Nat :=
  match segments.getLast? with
  | none => 0
  | some last => segmentCapacity last.encodeType last.langId segments.length - characters last

/-- The counts of `GetSmsSegmentsInfo` are those of the segments of `SplitMessage`. -/
structure CountsAgree (isBoundary : List UInt16 → Nat → Bool) (iconv : Iconv)
    (splitter : Splitter) (text : List UInt8) (force7BitCode : Bool) : Prop where
  segments : (getSmsSegmentsInfo iconv splitter text force7BitCode).msgSegCount.toNat =
    (splitMessage isBoundary iconv splitter text force7BitCode false []).2.length
  remaining : (getSmsSegmentsInfo iconv splitter text force7BitCode).msgRemainCount.toNat =
    freeCapacity (splitMessage isBoundary iconv splitter text force7BitCode false []).2

/-- The unit the last of `segCount` segments starts at. -/
def lastCut (isBoundary : List UInt16 → Nat → Bool) (fullData : List UInt16)
    (segCount : Nat) : Nat :=
  cuts isBoundary 67 fullData 0 (segCount - 1)

/-- UCS2 of more than one segment, the counted segments of 60 units each, where the
boundaries put the last cut seven units before the last counted segment. -/
structure CutAsCounted (isBoundary : List UInt16 → Nat → Bool) (d : Decoded) : Prop where
  ucs2 : d.codingType = .dataCodingUcs2
  several : maxUcs2DataLen < d.data.length
  last : lastCut isBoundary (ucs2Units d.data) (ceilDiv (d.data.length / 2) 60) + 7 =
    60 * (ceilDiv (d.data.length / 2) 60 - 1)
  before : lastCut isBoundary (ucs2Units d.data) (ceilDiv (d.data.length / 2) 60 - 1) + 67 <
    d.data.length / 2

/-! ## The counts of coded data -/

section Counts

variable {isBoundary : List UInt16 → Nat → Bool} {d : Decoded}

theorem not_ucs2_of_is7Bit {codingType : DataCodingScheme} (h : is7Bit codingType) :
    codingType ≠ .dataCodingUcs2 := by
  intro hucs2
  rw [hucs2] at h
  simp [is7Bit] at h

/-- The length `GetSmsSegmentsInfo` divides. -/
def Decoded.countedLength (d : Decoded) : Nat :=
  if d.codingType = .dataCodingUcs2 then d.data.length / 2 else d.data.length

/-- The size it divides by. -/
def Decoded.countedSize (d : Decoded) : Nat :=
  let size := getMaxSegmentSize d.codingType d.data.length false d.langId maxAddParamLen
  if d.codingType = .dataCodingUcs2 then size / 2 else size

theorem headerSize_false (langId : UInt8) :
    headerSize false langId = 0 ∧ langId = 0 ∨ headerSize false langId = 3 ∧ langId ≠ 0 := by
  by_cases h : langId = 0 <;> simp [headerSize, h]

theorem countedSize_7Bit (h7Bit : is7Bit d.codingType) :
    d.countedSize =
      if 146 < d.data.length + headerSize false d.langId then
        if d.langId = 0 then 137 else 133
      else 146 - headerSize false d.langId := by
  have hucs2 : d.codingType ≠ .dataCodingUcs2 := by
    intro hu
    rw [hu] at h7Bit
    simp [is7Bit] at h7Bit
  by_cases hlang : d.langId = 0 <;>
    simp [Decoded.countedSize, getMaxSegmentSize, hucs2, h7Bit, headerSize, hlang,
      maxGsm7BitDataLen, maxAddParamLen, gsmBearDataLen] <;>
    split <;> split <;> omega

theorem countedSize_8Bit (h8Bit : d.codingType = .dataCoding8Bit) (hlang : d.langId = 0) :
    d.countedSize = if 126 < d.data.length then 120 else 126 := by
  simp [Decoded.countedSize, getMaxSegmentSize, h8Bit, hlang, is7Bit, isOctet,
    maxUcs2DataLen, maxAddParamLen, gsmBearDataLen]
  split <;> split <;> omega

theorem countedSize_ucs2 (hucs2 : d.codingType = .dataCodingUcs2) (hlang : d.langId = 0) :
    d.countedSize = if 126 < d.data.length then 60 else 63 := by
  simp [Decoded.countedSize, getMaxSegmentSize, hucs2, hlang, is7Bit, isOctet,
    maxUcs2DataLen, maxAddParamLen, gsmBearDataLen]
  split <;> split <;> omega

theorem lengthInfo_eq (hc : d.Coded) (hsize : d.countedSize ≠ 0) :
    d.lengthInfo.msgSegCount = UInt8.ofNat (ceilDiv d.countedLength d.countedSize) ∧
      d.lengthInfo.msgRemainCount =
        UInt8.ofNat ((d.countedSize - d.countedLength % d.countedSize) % d.countedSize) := by
  have hlen : d.data.length % 65536 = d.data.length :=
    Nat.mod_eq_of_lt (Nat.lt_of_le_of_lt hc.length_le (by decide))
  by_cases hucs2 : d.codingType = .dataCodingUcs2
  · simp only [Decoded.countedSize, Decoded.countedLength, hucs2, if_true] at hsize ⊢
    simp [Decoded.lengthInfo, hucs2, is7Bit, hlen, hsize]
  · simp only [Decoded.countedSize, Decoded.countedLength, hucs2, if_false] at hsize ⊢
    have hdcs : (if is7Bit d.codingType then (1 : UInt8)
        else if d.codingType = .dataCoding8Bit then 2 else 0) ≠ 3 := by
      split
      · decide
      · split <;> decide
    simp only [Decoded.lengthInfo, hucs2, if_false, hlen, hdcs, hsize]
    exact ⟨trivial, trivial⟩

theorem countedSize_bounds (hc : d.Coded) (hne : d.data ≠ []) :
    60 ≤ d.countedSize ∧ d.countedSize ≤ 146 := by
  cases hc.scheme hne with
  | inl h7Bit =>
      rw [countedSize_7Bit h7Bit]
      obtain ⟨hheader, -⟩ | ⟨hheader, -⟩ := headerSize_false d.langId <;> rw [hheader]
      · split
        · split <;> omega
        · omega
      · split
        · split <;> omega
        · omega
  | inr hoctet =>
      have hlang := hc.octet_lang hoctet
      simp only [isOctet, Bool.or_eq_true, decide_eq_true_eq] at hoctet
      cases hoctet with
      | inl h8Bit =>
          rw [countedSize_8Bit h8Bit hlang]
          split <;> omega
      | inr hucs2 =>
          rw [countedSize_ucs2 hucs2 hlang]
          split <;> omega

theorem lengthInfo_toNat (hc : d.Coded) (hne : d.data ≠ []) :
    d.lengthInfo.msgSegCount.toNat = ceilDiv d.countedLength d.countedSize ∧
      d.lengthInfo.msgRemainCount.toNat =
        (d.countedSize - d.countedLength % d.countedSize) % d.countedSize := by
  obtain ⟨hlow, hhigh⟩ := countedSize_bounds hc hne
  obtain ⟨hseg, hremain⟩ := lengthInfo_eq hc (by omega)
  have hlen : d.countedLength ≤ 2403 := by
    have hle := hc.length_le
    simp only [maxDecodeLen] at hle
    unfold Decoded.countedLength
    split <;> omega
  have hcount : ceilDiv d.countedLength d.countedSize < 256 := by
    apply Nat.div_lt_of_lt_mul
    omega
  have hrest : (d.countedSize - d.countedLength % d.countedSize) % d.countedSize < 256 :=
    Nat.lt_of_lt_of_le (Nat.mod_lt _ (by omega)) (by omega)
  rw [hseg, hremain, UInt8.toNat_ofNat', UInt8.toNat_ofNat', Nat.mod_eq_of_lt hcount,
    Nat.mod_eq_of_lt hrest]
  exact ⟨rfl, rfl⟩

/-- The characters of a segment of these data. -/
def Decoded.charactersOf (d : Decoded) (encodeData : List UInt8) : Nat :=
  if d.codingType = .dataCodingUcs2 then encodeData.length / 2 else encodeData.length

/-- What is left of the last of the counted segments. -/
theorem remain_eq (n : Nat) {segSize : Nat} (hs : 0 < segSize) :
    (segSize - n % segSize) % segSize = ceilDiv n segSize * segSize - n := by
  have hdiv := Nat.div_add_mod' n segSize
  have hmod := Nat.mod_lt n hs
  by_cases hz : n % segSize = 0
  · have hceil : ceilDiv n segSize = n / segSize := by
      unfold ceilDiv
      apply Nat.div_eq_of_lt_le
      · omega
      · rw [Nat.succ_mul]
        omega
    rw [hceil, hz, Nat.sub_zero, Nat.mod_self]
    omega
  · have hceil : ceilDiv n segSize = n / segSize + 1 := by
      unfold ceilDiv
      apply Nat.div_eq_of_lt_le
      · rw [Nat.succ_mul]
        omega
      · rw [Nat.succ_mul, Nat.succ_mul]
        omega
    rw [hceil, Nat.mod_eq_of_lt (by omega), Nat.succ_mul]
    omega

/-- Segments of two sizes do not agree in their number and in what is free. -/
theorem counts_differ {n counted segSize : Nat} (hcounted : 0 < counted)
    (hlt : counted < segSize) (hn : 0 < n) :
    ¬ (ceilDiv n counted = ceilDiv n segSize ∧
      (counted - n % counted) % counted =
        segSize - (n - (ceilDiv n segSize - 1) * segSize)) := by
  rintro ⟨hcount, hremain⟩
  have hle := le_ceilDiv_mul n hcounted
  have hlast := ceilDiv_mul_lt n (by omega : 0 < segSize)
  rw [remain_eq n hcounted] at hremain
  rw [hcount] at hle hremain
  obtain ⟨k, hk⟩ : ∃ k, ceilDiv n segSize = k + 1 := by
    apply Nat.exists_eq_succ_of_ne_zero
    intro hzero
    rw [hzero, Nat.zero_mul] at hle
    omega
  have hless : (k + 1) * counted < (k + 1) * segSize :=
    Nat.mul_lt_mul_of_pos_left hlt (by omega)
  rw [hk, Nat.add_sub_cancel] at hremain
  rw [hk] at hle hlast
  rw [Nat.succ_mul] at hlast hless hle hremain
  rw [Nat.succ_mul] at hless
  omega
/-- The segments have a fixed size, and it is not the counted one. -/
structure Decoded.CutFixed (d : Decoded) (isBoundary : List UInt16 → Nat → Bool)
    (segSize : Nat) (last : List UInt8) : Prop where
  counted_lt : d.countedSize < segSize
  length : (d.segments isBoundary false).length = ceilDiv d.countedLength segSize
  last_eq : (d.segments isBoundary false).getLast? = some last
  characters_eq : d.charactersOf last =
    d.countedLength - (ceilDiv d.countedLength segSize - 1) * segSize
  capacity : segmentCapacity d.codingType d.langId (ceilDiv d.countedLength segSize) = segSize

theorem cutFixed_single (hc : d.Coded) (hne : d.data ≠ []) {segSize : Nat}
    (hpos : 0 < d.countedLength)
    (h : d.data.length + headerSize false d.langId ≤ singleSize d.codingType)
    (hsize : segmentCapacity d.codingType d.langId 1 = segSize)
    (hle : d.countedLength ≤ segSize) (hlt : d.countedSize < segSize) :
    d.CutFixed isBoundary segSize d.data := by
  have hone := ceilDiv_eq_one hpos hle
  have hseg : d.segments isBoundary false = [d.data] := segments_single hc hne h
  refine ⟨hlt, ?_, ?_, ?_, ?_⟩
  · rw [hseg, hone, List.length_singleton]
  · rw [hseg, List.getLast?_singleton]
  · rw [hone]
    simp [Decoded.charactersOf, Decoded.countedLength]
  · rw [hone, hsize]

theorem cutFixed_several {segSize : Nat} (hs : 0 < segSize)
    (hucs2 : d.codingType ≠ .dataCodingUcs2) (hlarge : segSize < d.data.length)
    (hseg : d.segments isBoundary false =
      splitFixed d.data segSize (ceilDiv d.data.length segSize))
    (hsize : ∀ segCount, 1 < segCount →
      segmentCapacity d.codingType d.langId segCount = segSize)
    (hlt : d.countedSize < segSize) :
    d.CutFixed isBoundary segSize
      (d.data.drop ((ceilDiv d.data.length segSize - 1) * segSize)) := by
  have hmany := one_lt_ceilDiv hs hlarge
  obtain ⟨k, hk⟩ : ∃ k, ceilDiv d.data.length segSize = k + 1 :=
    ⟨ceilDiv d.data.length segSize - 1, by omega⟩
  have hlen : d.countedLength = d.data.length := by
    simp [Decoded.countedLength, hucs2]
  refine ⟨hlt, ?_, ?_, ?_, ?_⟩
  · rw [hseg, hlen, length_splitFixed]
  · rw [hseg, hk, getLast_splitFixed, Nat.add_sub_cancel]
  · simp [Decoded.charactersOf, hucs2, hlen]
  · rw [hlen, hsize _ hmany]

theorem countedSize_7Bit_le (h7Bit : is7Bit d.codingType) :
    d.countedSize + headerSize false d.langId ≤ 146 := by
  rw [countedSize_7Bit h7Bit]
  obtain ⟨hheader, hlang⟩ | ⟨hheader, hlang⟩ := headerSize_false d.langId
  · rw [hheader, if_pos hlang]
    split <;> omega
  · rw [hheader, if_neg hlang]
    split <;> omega

theorem exists_cutFixed_7Bit (hc : d.Coded) (hne : d.data ≠ []) (h7Bit : is7Bit d.codingType) :
    ∃ segSize last, d.CutFixed isBoundary segSize last := by
  have hpos := List.length_pos_iff.2 hne
  have hucs2 := not_ucs2_of_is7Bit h7Bit
  have hcounted := countedSize_7Bit_le h7Bit
  have hlen : d.countedLength = d.data.length := if_neg hucs2
  have hheader : headerSize false d.langId ≤ 3 := by
    have := headerSize_false d.langId
    omega
  by_cases h : d.data.length + headerSize false d.langId ≤ maxGsm7BitDataLen
  · have hsize : segmentCapacity d.codingType d.langId 1 =
        maxGsm7BitDataLen - headerSize false d.langId := by
      rw [segmentCapacity, if_pos h7Bit, if_neg (by omega)]
    have hsingle : singleSize d.codingType = maxGsm7BitDataLen := if_pos h7Bit
    refine ⟨_, _, cutFixed_single hc hne (by omega) (by omega) hsize (by omega) ?_⟩
    simp only [maxGsm7BitDataLen]
    omega
  · have hlarge : 153 < d.data.length := by
      simp only [maxGsm7BitDataLen] at h
      omega
    refine ⟨153, _, cutFixed_several (by decide) hucs2 hlarge
      (segments_7Bit h7Bit (by omega) hne) ?_ (by omega)⟩
    intro segCount hmany
    rw [segmentCapacity, if_pos h7Bit, if_pos hmany]

theorem exists_cutFixed_8Bit (hc : d.Coded) (hne : d.data ≠ [])
    (h8Bit : d.codingType = .dataCoding8Bit) :
    ∃ segSize last, d.CutFixed isBoundary segSize last := by
  have hpos := List.length_pos_iff.2 hne
  have hlang := hc.octet_lang (by rw [h8Bit]; rfl)
  have hucs2 : d.codingType ≠ .dataCodingUcs2 := by simp [h8Bit]
  have h7Bit : ¬ is7Bit d.codingType := by simp [h8Bit, is7Bit]
  have hlen : d.countedLength = d.data.length := if_neg hucs2
  have hheader : headerSize false d.langId = 0 := by simp [headerSize, hlang]
  have hcounted : d.countedSize ≤ 126 := by
    rw [countedSize_8Bit h8Bit hlang]
    split <;> omega
  by_cases h : d.data.length ≤ maxUcs2DataLen
  · have hsize : segmentCapacity d.codingType d.langId 1 = maxUcs2DataLen := by
      rw [segmentCapacity, if_neg h7Bit, if_neg hucs2, if_neg (by omega), hheader]
      rfl
    have hsingle : singleSize d.codingType = maxUcs2DataLen := if_neg h7Bit
    refine ⟨_, _, cutFixed_single hc hne (by omega) (by omega) hsize (by omega) ?_⟩
    simp only [maxUcs2DataLen]
    omega
  · have hlarge : 134 < d.data.length := by
      simp only [maxUcs2DataLen] at h
      omega
    refine ⟨134, _, cutFixed_several (by decide) hucs2 hlarge
      (segments_8Bit h8Bit (by omega) hne) ?_ (by omega)⟩
    intro segCount hmany
    rw [segmentCapacity, if_neg h7Bit, if_neg hucs2, if_pos hmany]

theorem cutFixed_ucs2 (hc : d.Coded) (hne : d.data ≠ [])
    (hucs2 : d.codingType = .dataCodingUcs2) (h : d.data.length ≤ maxUcs2DataLen) :
    d.CutFixed isBoundary 70 d.data := by
  have hpos := List.length_pos_iff.2 hne
  have hpairs := hc.ucs2_pairs hucs2 (Nat.lt_of_le_of_lt h (by decide))
  have hlang := hc.octet_lang (by rw [hucs2]; rfl)
  have h7Bit : ¬ is7Bit d.codingType := by simp [hucs2, is7Bit]
  have hlen : d.countedLength = d.data.length / 2 := if_pos hucs2
  have hheader : headerSize false d.langId = 0 := by simp [headerSize, hlang]
  have hcounted : d.countedSize ≤ 63 := by
    rw [countedSize_ucs2 hucs2 hlang]
    split <;> omega
  have hsize : segmentCapacity d.codingType d.langId 1 = 70 := by
    rw [segmentCapacity, if_neg h7Bit, if_pos hucs2, if_neg (by omega)]
    rfl
  have hsingle : singleSize d.codingType = maxUcs2DataLen := if_neg h7Bit
  simp only [maxUcs2DataLen] at h hsingle
  exact cutFixed_single hc hne (by omega) (by omega) hsize (by omega) (by omega)

theorem exists_cutFixed (isBoundary : List UInt16 → Nat → Bool) (hc : d.Coded) (hne : d.data ≠ [])
    (hucs2 : d.codingType = .dataCodingUcs2 → d.data.length ≤ maxUcs2DataLen) :
    ∃ segSize last, d.CutFixed isBoundary segSize last := by
  cases hc.scheme hne with
  | inl h7Bit => exact exists_cutFixed_7Bit hc hne h7Bit
  | inr hoctet =>
      simp only [isOctet, Bool.or_eq_true, decide_eq_true_eq] at hoctet
      cases hoctet with
      | inl h8Bit => exact exists_cutFixed_8Bit hc hne h8Bit
      | inr hu => exact ⟨70, _, cutFixed_ucs2 hc hne hu (hucs2 hu)⟩

/-! ### Cuts at boundaries -/

/-- The number of segments cut at boundaries, where the last one starts, and how much
is left before it and behind. -/
theorem segments_ucs2_cuts (isBoundary : List UInt16 → Nat → Bool)
    (hucs2 : d.codingType = .dataCodingUcs2) (h : maxUcs2DataLen < d.data.length) :
    ∃ segCount, 1 < segCount ∧ (d.segments isBoundary false).length = segCount ∧
      (d.segments isBoundary false).getLast? =
        some (ucs2Octets ((ucs2Units d.data).drop
          (lastCut isBoundary (ucs2Units d.data) segCount))) ∧
      lastCut isBoundary (ucs2Units d.data) (segCount - 1) + 67 < d.data.length / 2 ∧
      d.data.length / 2 ≤ lastCut isBoundary (ucs2Units d.data) segCount + 67 := by
  simp only [maxUcs2DataLen] at h
  have hseg : d.segments isBoundary false = _ :=
    segments_ucs2 hucs2 (Nat.lt_of_lt_of_le h (Nat.le_add_right _ _)) (by omega)
  have hunits := length_ucs2Units d.data
  obtain ⟨k, hlen, hlast, hbefore, hstop⟩ := splitUnits_cuts isBoundary (by decide : 0 < 67)
    (ucs2Units d.data) (by omega : (ucs2Units d.data).length - 0 ≤ (ucs2Units d.data).length)
  have hk : 0 < k := by
    apply Nat.pos_of_ne_zero
    intro hzero
    rw [hzero, cuts_zero] at hstop
    omega
  have hprev := hbefore (k - 1) (by omega)
  refine ⟨k + 1, by omega, ?_, ?_, ?_, ?_⟩
  · rw [hseg, List.length_map, hlen]
  · rw [hseg, List.getLast?_map, hlast]
    rfl
  · change lastCut isBoundary (ucs2Units d.data) k + 67 < _
    simp only [lastCut]
    omega
  · simp only [lastCut, Nat.add_sub_cancel]
    omega

/-! ### The counts and the segments -/

/-- The counts are those of segments of which the last one is `last`. -/
def Decoded.Agrees (d : Decoded) (segCount : Nat) (last : List UInt8) : Prop :=
  ceilDiv d.countedLength d.countedSize = segCount ∧
    (d.countedSize - d.countedLength % d.countedSize) % d.countedSize =
      segmentCapacity d.codingType d.langId segCount - d.charactersOf last

theorem not_agrees_of_cutFixed (hc : d.Coded) (hne : d.data ≠ []) {segSize : Nat}
    {last : List UInt8} (h : d.CutFixed isBoundary segSize last) :
    ¬ d.Agrees (d.segments isBoundary false).length last := by
  have hbounds := countedSize_bounds hc hne
  have hpos : 0 < d.countedLength := by
    have hlen := List.length_pos_iff.2 hne
    by_cases hucs2 : d.codingType = .dataCodingUcs2
    · have hpairs := hc.ucs2_pairs hucs2
      rw [Decoded.countedLength, if_pos hucs2]
      simp only [maxDecodeLen] at hpairs
      omega
    · rwa [Decoded.countedLength, if_neg hucs2]
  rw [Decoded.Agrees, h.length, h.capacity, h.characters_eq]
  exact counts_differ (by omega) h.counted_lt hpos

theorem agrees_ucs2_eq (hlang : d.langId = 0) (hucs2 : d.codingType = .dataCodingUcs2)
    (h : maxUcs2DataLen < d.data.length) {segCount cut : Nat} (hmany : 1 < segCount) :
    d.Agrees segCount (ucs2Octets ((ucs2Units d.data).drop cut)) ↔
      ceilDiv (d.data.length / 2) 60 = segCount ∧
        segCount * 60 - d.data.length / 2 = 67 - (d.data.length / 2 - cut) := by
  simp only [maxUcs2DataLen] at h
  have hsize : d.countedSize = 60 := by
    rw [countedSize_ucs2 hucs2 hlang, if_pos (by omega)]
  have hcap : segmentCapacity d.codingType d.langId segCount = 67 := by
    rw [segmentCapacity, if_neg (by simp [hucs2, is7Bit]), if_pos hucs2, if_pos hmany]
  have hlast : d.charactersOf (ucs2Octets ((ucs2Units d.data).drop cut)) =
      d.data.length / 2 - cut := by
    rw [Decoded.charactersOf, if_pos hucs2, length_ucs2Octets, List.length_drop,
      length_ucs2Units]
    omega
  have hcounted : d.countedLength = d.data.length / 2 := if_pos hucs2
  rw [Decoded.Agrees, hcap, hlast, remain_eq _ (by omega), hsize, hcounted]
  constructor
  · rintro ⟨hcount, hremain⟩
    exact ⟨hcount, by rwa [hcount] at hremain⟩
  · rintro ⟨hcount, hremain⟩
    exact ⟨hcount, by rwa [hcount]⟩

theorem agrees_ucs2_iff (hlang : d.langId = 0) (hucs2 : d.codingType = .dataCodingUcs2)
    (h : maxUcs2DataLen < d.data.length) {last : List UInt8}
    (hlast : (d.segments isBoundary false).getLast? = some last) :
    d.Agrees (d.segments isBoundary false).length last ↔ CutAsCounted isBoundary d := by
  obtain ⟨segCount, hmany, hlen, hcut, hbefore, hstop⟩ := segments_ucs2_cuts isBoundary hucs2 h
  rw [hcut] at hlast
  cases hlast
  rw [hlen, agrees_ucs2_eq hlang hucs2 h hmany]
  have hle := le_ceilDiv_mul (d.data.length / 2) (by decide : 0 < 60)
  -- The next cut is at most 67 units on, so it is still inside the text.
  have hstep : lastCut isBoundary (ucs2Units d.data) segCount ≤
      lastCut isBoundary (ucs2Units d.data) (segCount - 1) + 67 := by
    obtain ⟨k, rfl⟩ : ∃ k, segCount = k + 2 := ⟨segCount - 2, by omega⟩
    simp only [lastCut, Nat.add_sub_cancel, Nat.add_succ_sub_one, cuts_succ']
    exact findNextUnicodePosition_le isBoundary _ 67 _
  constructor
  · rintro ⟨rfl, hremain⟩
    exact ⟨hucs2, h, by omega, hbefore⟩
  · rintro ⟨-, -, hsame, hprev⟩
    -- Fewer segments would leave too much behind the last cut, more than these too little.
    have hcount : ceilDiv (d.data.length / 2) 60 = segCount := by
      rcases Nat.lt_trichotomy (ceilDiv (d.data.length / 2) 60) segCount with hlt | heq | hgt
      · have hmono := cuts_mono isBoundary (by decide : 0 < 67) (ucs2Units d.data) 0
          (by omega : ceilDiv (d.data.length / 2) 60 - 1 ≤ segCount - 1 - 1)
        simp only [lastCut] at hsame hbefore
        omega
      · exact heq
      · have hmono := cuts_mono isBoundary (by decide : 0 < 67) (ucs2Units d.data) 0
          (by omega : segCount - 1 ≤ ceilDiv (d.data.length / 2) 60 - 1 - 1)
        simp only [lastCut] at hprev hstop
        omega
    rw [hcount] at hsame hle
    exact ⟨hcount, by omega⟩

end Counts

/-! ## Agreement -/

theorem decoded_nil_addr (iconv : Iconv) (splitter : Splitter) (text : List UInt8)
    (force7BitCode : Bool) :
    decoded iconv splitter text force7BitCode [] =
      decodeMessage iconv splitter
        (if force7BitCode then .dataCoding7Bit else .dataCodingAuto) text := by
  rw [decoded, requestedScheme, if_neg (by decide)]

theorem countsAgree_iff_agrees {isBoundary : List UInt16 → Nat → Bool} {iconv : Iconv}
    {splitter : Splitter} {text : List UInt8} {force7BitCode : Bool} {d : Decoded}
    (hd : decoded iconv splitter text force7BitCode [] = d) (hc : d.Coded)
    (hne : d.data ≠ []) {last : List UInt8}
    (hlast : (d.segments isBoundary false).getLast? = some last) :
    CountsAgree isBoundary iconv splitter text force7BitCode ↔
      d.Agrees (d.segments isBoundary false).length last := by
  obtain ⟨hseg, hremain⟩ := lengthInfo_toNat hc hne
  have hinfo : getSmsSegmentsInfo iconv splitter text force7BitCode = d.lengthInfo := by
    rw [decoded_nil_addr] at hd
    simp only [getSmsSegmentsInfo, hd, hne, if_false]
  have hlen : (splitMessage isBoundary iconv splitter text force7BitCode false []).2.length =
      (d.segments isBoundary false).length := by
    simp only [splitMessage, hd, List.length_map]
  have hfree : freeCapacity
      (splitMessage isBoundary iconv splitter text force7BitCode false []).2 =
      segmentCapacity d.codingType d.langId (d.segments isBoundary false).length -
        d.charactersOf last := by
    simp only [freeCapacity, splitMessage, hd, List.getLast?_map, hlast, Option.map_some,
      List.length_map, segment_langId hc]
    rfl
  constructor
  · rintro ⟨hs, hr⟩
    rw [hinfo, hseg, hlen] at hs
    rw [hinfo, hremain, hfree] at hr
    exact ⟨hs, hr⟩
  · rintro ⟨hs, hr⟩
    exact ⟨by rw [hinfo, hseg, hlen, hs], by rw [hinfo, hremain, hfree, hr]⟩

/-- The counts are those of the segments when nothing is coded, and else only where
the boundaries cut UCS2 shorter by what the counts leave for a reply address. -/
theorem countsAgree_iff (isBoundary : List UInt16 → Nat → Bool) (iconv : Iconv)
    (splitter : Splitter) (text : List UInt8) (force7BitCode : Bool) :
    CountsAgree isBoundary iconv splitter text force7BitCode ↔
      (decoded iconv splitter text force7BitCode []).data = [] ∨
        CutAsCounted isBoundary (decoded iconv splitter text force7BitCode []) := by
  have hc : (decoded iconv splitter text force7BitCode []).Coded :=
    decodeMessage_coded iconv splitter _ text
  generalize hd : decoded iconv splitter text force7BitCode [] = d at hc ⊢
  by_cases hne : d.data = []
  · have hsplit : (splitMessage isBoundary iconv splitter text force7BitCode false []).2 = [] := by
      simp only [splitMessage, hd, segments_nil hne, List.map_nil]
    have hinfo : getSmsSegmentsInfo iconv splitter text force7BitCode = .zero := by
      rw [decoded_nil_addr] at hd
      simp only [getSmsSegmentsInfo, hd, hne, if_true]
    refine iff_of_true ⟨?_, ?_⟩ (.inl hne)
    · rw [hinfo, hsplit]
      rfl
    · rw [hinfo, hsplit]
      rfl
  · by_cases hseveral : d.codingType = .dataCodingUcs2 ∧ maxUcs2DataLen < d.data.length
    · obtain ⟨hucs2, h⟩ := hseveral
      obtain ⟨_, -, -, hcut, -⟩ := segments_ucs2_cuts isBoundary hucs2 h
      rw [countsAgree_iff_agrees hd hc hne hcut,
        agrees_ucs2_iff (hc.octet_lang (by rw [hucs2]; rfl)) hucs2 h hcut]
      simp [hne]
    · obtain ⟨segSize, last, hfixed⟩ := exists_cutFixed isBoundary hc hne
        (fun hucs2 => Nat.le_of_not_lt fun h => hseveral ⟨hucs2, h⟩)
      rw [countsAgree_iff_agrees hd hc hne hfixed.last_eq]
      refine iff_of_false (not_agrees_of_cutFixed hc hne hfixed) ?_
      rintro (hnil | hcut)
      · exact hne hnil
      · exact hseveral ⟨hcut.ucs2, hcut.several⟩

/-- Of one letter, 145 septets are counted as left and 159 are. -/
theorem countsAgree_letter :
    ¬ CountsAgree (fun _ _ => true) asciiIconv (.gsm .default) [0x61] false := by
  intro h
  have hremain := h.remaining
  revert hremain
  decide

end TelephonySms.Text
