import TelephonySms.Text.Misread
import TelephonySms.Text.Pairs
import TelephonySms.Text.Unicode

/-! # What is read of the segments

Each segment is read on its own, in the coding and the language it carries. The
segments together read as the text where no segment ends inside a character and no
character is coded as something else.
-/

namespace TelephonySms.Text

open TelephonySms.Pdu

/-! ## Reading segments -/

/-- A segment as it is read. -/
def readBack (iconv : Iconv) (segment : SplitInfo) : List UInt8 :=
  match segment.encodeType with
  | .dataCoding7Bit => gsm7bitToUtf8 iconv segment.langId segment.encodeData
  | .dataCodingUcs2 => iconv.utf16ToUtf8 (ucs2Units segment.encodeData)
  | _ => segment.encodeData

/-- What the segments are to read as: the text, with its replacements when a GSM
message is forced into 7 bits. -/
def expectedText (iconv : Iconv) (splitter : Splitter) (text : List UInt8) (force7BitCode : Bool)
    (desAddr : List UInt8) : List UInt8 :=
  match splitter, requestedScheme force7BitCode desAddr, iconv.utf8ToUtf16 text with
  | .gsm _, .dataCoding7Bit, some units =>
      iconv.utf16ToUtf8 (units.map (replacedIn (getLangType units)))
  | _, _, _ => text

def maxMsgTextLen : Nat := 1530

/-- The segments read as the text, if there are any: as its start, and as all of it up
to `MAX_MSG_TEXT_LEN`. -/
def Lossless (isBoundary : List UInt16 → Nat → Bool) (iconv : Iconv) (splitter : Splitter)
    (text : List UInt8) (force7BitCode bPortNum : Bool) (desAddr : List UInt8) : Prop :=
  let segments := (splitMessage isBoundary iconv splitter text force7BitCode bPortNum desAddr).2
  let expected := expectedText iconv splitter text force7BitCode desAddr
  segments ≠ [] →
    segments.flatMap (readBack iconv) <+: expected ∧
      (text.length ≤ maxMsgTextLen → segments.flatMap (readBack iconv) = expected)

/-! ## Where nothing is lost -/

/-- No cut of septets is behind an escape. -/
def NoEscapeCut (d : Decoded) (bPortNum : Bool) : Prop :=
  maxGsm7BitDataLen < d.data.length + headerSize bPortNum d.langId →
    ∀ k, (k + 1) * 153 < d.data.length → d.data[k * 153 + 152]? ≠ some 0x1B

/-- No cut of UCS2 is inside a surrogate pair. -/
def NoPairCut (isBoundary : List UInt16 → Nat → Bool) (d : Decoded) (bPortNum : Bool) : Prop :=
  d.atBoundaries bPortNum = true →
    ∀ k, 67 < (ucs2Units d.data).length - cuts isBoundary 67 (ucs2Units d.data) 0 k →
      WellFormed ((ucs2Units d.data).take (cuts isBoundary 67 (ucs2Units d.data) 0 (k + 1)))

/-- The septets of a text. -/
def codedSeptets (requested : DataCodingScheme) (units : List UInt16) : Nat :=
  if requested = .dataCoding7Bit then
    ((units.map (forcedToken (getLangType units))).flatMap Prod.snd).length
  else septetCount units

/-- The texts that are coded without loss and cut between characters. -/
structure Separable (isBoundary : List UInt16 → Nat → Bool) (splitter : Splitter)
    (text : List UInt8) (units : List UInt16) (requested : DataCodingScheme) (d : Decoded)
    (bPortNum : Bool) : Prop where
  /-- U+001B is coded as the escape. -/
  noEscape : d.codingType = .dataCoding7Bit → 0x1B ∉ units
  noEscapeCut : d.codingType = .dataCoding7Bit → NoEscapeCut d bPortNum
  /-- Forced coding writes an octet more behind characters outside the default alphabet
  when one of them is in an extension table. -/
  noExtension : d.codingType = .dataCoding7Bit → requested = .dataCoding7Bit →
    ∀ c ∈ units, extCharMap.lookup c = none
  noMisread : d.codingType = .dataCoding7Bit → requested = .dataCodingAuto →
    ∀ national, splitter = .gsm national → ∀ c ∈ units, misread national c = false
  room7Bit : d.codingType = .dataCoding7Bit → text.length ≤ maxMsgTextLen →
    codedSeptets requested units ≤ maxDecodeLen
  noPairCut : NoPairCut isBoundary d bPortNum
  roomUcs2 : d.codingType = .dataCodingUcs2 → text.length ≤ maxMsgTextLen →
    2 * units.length ≤ maxDecodeLen

/-! ## Segments -/

theorem atBoundaries_of_ne {d : Decoded} (h : d.codingType ≠ .dataCodingUcs2)
    (bPortNum : Bool) : d.atBoundaries bPortNum = false := by
  simp [Decoded.atBoundaries, h]

theorem flatten_segments {isBoundary : List UInt16 → Nat → Bool} {d : Decoded}
    {bPortNum : Bool} (hc : d.Coded) (hat : d.atBoundaries bPortNum = false) :
    (d.segments isBoundary bPortNum).flatten = d.data := by
  by_cases hne : d.data = []
  · rw [segments_nil hne, hne]
    rfl
  · have hpos := List.length_pos_iff.2 hne
    have hsize : 0 < getSegmentSize d.codingType d.data.length bPortNum d.langId := by
      rw [getSegmentSize_eq]
      cases hc.scheme hne with
      | inl h7Bit =>
          rw [if_pos h7Bit]
          split <;> omega
      | inr hoctet =>
          rw [if_neg (not_is7Bit_of_isOctet hoctet), if_pos hoctet]
          split <;> omega
    have hcount : 0 < ceilDiv d.data.length
        (getSegmentSize d.codingType d.data.length bPortNum d.langId) := by
      have hle := le_ceilDiv_mul d.data.length hsize
      apply Nat.pos_of_ne_zero
      intro hzero
      rw [hzero, Nat.zero_mul] at hle
      omega
    simp only [Decoded.segments, hne, hat, hsize, if_true, if_false]
    exact flatten_splitFixed d.data hcount

theorem getLast_window {data : List UInt8} {i segSize : Nat} (hs : 0 < segSize)
    (h : (i + 1) * segSize ≤ data.length) :
    ((data.drop (i * segSize)).take segSize).getLast? = data[i * segSize + (segSize - 1)]? := by
  rw [Nat.succ_mul] at h
  have hlen : ((data.drop (i * segSize)).take segSize).length = segSize := by
    rw [List.length_take, List.length_drop]
    omega
  rw [List.getLast?_eq_getElem?, hlen, List.getElem?_take_of_lt (by omega), List.getElem?_drop]

theorem escapesWhole_segments {isBoundary : List UInt16 → Nat → Bool} {d : Decoded}
    {bPortNum : Bool} (hc : d.Coded) (h7Bit : is7Bit d.codingType)
    (h : NoEscapeCut d bPortNum) : EscapesWhole (d.segments isBoundary bPortNum) := by
  by_cases hne : d.data = []
  · rw [segments_nil hne]
    simp [EscapesWhole]
  by_cases hone : d.data.length + headerSize bPortNum d.langId ≤ maxGsm7BitDataLen
  · rw [segments_single hc hne (by rwa [singleSize, if_pos h7Bit])]
    simp [EscapesWhole]
  · have hseveral := Nat.lt_of_not_le hone
    have hlt := ceilDiv_mul_lt d.data.length (by decide : 0 < 153)
    rw [segments_7Bit h7Bit hseveral hne]
    cases hcount : ceilDiv d.data.length 153 with
    | zero => simp [EscapesWhole, splitFixed]
    | succ k =>
        rw [hcount, Nat.succ_mul] at hlt
        rw [splitFixed_succ, EscapesWhole, List.dropLast_concat, List.forall_mem_map]
        intro i hi
        have hik := List.mem_range.1 hi
        have hfull : (i + 1) * 153 ≤ k * 153 := Nat.mul_le_mul_right _ (by omega)
        rw [getLast_window (by decide) (by omega)]
        exact h hseveral i (by omega)

/-! ## Coded text -/

/-- How UTF-8 text is coded, if it is. -/
inductive CodedText (splitter : Splitter) (requested : DataCodingScheme) (text : List UInt8)
    (units : List UInt16) : Decoded → Prop
  | octets (h : requested = .dataCoding8Bit) :
      CodedText splitter requested text units ⟨.dataCoding8Bit, 0, text⟩
  | forcedAscii (hs : splitter = .cdma) (h : requested = .dataCoding7Bit) :
      CodedText splitter requested text units ⟨.dataCodingAscii7Bit, 0, text⟩
  | forced {national : SmsCodingNationalType} (hs : splitter = .gsm national)
      (h : requested = .dataCoding7Bit) :
      CodedText splitter requested text units
        ⟨.dataCoding7Bit, (ucs2ToGsm7bit maxDecodeLen units).2,
          (ucs2ToGsm7bit maxDecodeLen units).1⟩
  | septets {national : SmsCodingNationalType} {dest : List UInt8} (hs : splitter = .gsm national)
      (h : requested = .dataCodingAuto)
      (hdest : ucs2ToGsm7bitAuto maxDecodeLen units national = some dest) :
      CodedText splitter requested text units ⟨.dataCoding7Bit, national.langId, dest⟩
  | ascii {dest : List UInt8} (hs : splitter = .cdma) (h : requested = .dataCodingAuto)
      (hdest : ucs2ToAscii maxDecodeLen units = some dest) :
      CodedText splitter requested text units ⟨.dataCodingAscii7Bit, 0, dest⟩
  | ucs2 (h : requested = .dataCodingAuto)
      (h7Bit : ∀ national, splitter = .gsm national →
        ucs2ToGsm7bitAuto maxDecodeLen units national = none)
      (hascii : splitter = .cdma → ucs2ToAscii maxDecodeLen units = none) :
      CodedText splitter requested text units
        ⟨.dataCodingUcs2, 0, (ucs2Octets units).take maxDecodeLen⟩

theorem decoded_codedText {iconv : Iconv} {splitter : Splitter} {text : List UInt8}
    {units : List UInt16} {force7BitCode : Bool} {desAddr : List UInt8}
    (hutf8 : iconv.utf8ToUtf16 text = some units) (hnil : text ≠ [])
    (h : (decoded iconv splitter text force7BitCode desAddr).data ≠ [] ∨
      text.length ≤ maxDecodeLen) :
    CodedText splitter (requestedScheme force7BitCode desAddr) text units
      (decoded iconv splitter text force7BitCode desAddr) := by
  have hbound : maxDecodeLen < ucs2LenMax := by decide
  unfold decoded at h ⊢
  unfold decodeMessage at h ⊢
  rw [if_neg hnil] at h ⊢
  obtain hrequested | hrequested | hrequested := requestedScheme_cases force7BitCode desAddr
  · rw [hrequested] at h ⊢
    have hcopied : copied text = text := by
      unfold copied at h ⊢
      split
      · rename_i hlong
        have hle := h.resolve_left (by simp [hlong])
        omega
      · rfl
    simp only [hcopied]
    exact .octets rfl
  · rw [hrequested] at h ⊢
    cases splitter with
    | cdma =>
        simp only at h ⊢
        split
        · rename_i hlong
          have hle := h.resolve_left (by simp [hlong])
          omega
        · exact .forcedAscii rfl rfl
    | gsm national =>
        simp only [utf8ToGsm7bit, hutf8] at h ⊢
        split
        · rename_i hlong
          have hle := h.resolve_left (by simp [hlong])
          omega
        · exact .forced rfl rfl
  · rw [hrequested] at h ⊢
    cases splitter with
    | cdma =>
        simp only [cdmaUtf8ToAuto, hutf8] at h ⊢
        split
        · rename_i hlong
          have hle := h.resolve_left (by simp [hlong])
          omega
        · cases hdest : ucs2ToAscii maxDecodeLen units with
          | none => exact .ucs2 rfl (by simp) fun _ => hdest
          | some dest => exact .ascii rfl rfl hdest
    | gsm national =>
        simp only [gsmUtf8ToAuto, hutf8] at h ⊢
        split
        · rename_i hlong
          have hle := h.resolve_left (by simp [hlong])
          omega
        · cases hdest : ucs2ToGsm7bitAuto maxDecodeLen units national with
          | none => exact .ucs2 rfl (fun _ hs => by cases hs; exact hdest) (by simp)
          | some dest => exact .septets rfl rfl hdest

theorem decoded_nil {iconv : Iconv} {splitter : Splitter} {force7BitCode : Bool}
    {desAddr : List UInt8} : (decoded iconv splitter [] force7BitCode desAddr).data = [] := rfl

/-! ## What is read of coded text -/

/-- A segment of coded data as it is read. -/
def Decoded.read (iconv : Iconv) (d : Decoded) (encodeData : List UInt8) : List UInt8 :=
  match d.codingType with
  | .dataCoding7Bit => gsm7bitToUtf8 iconv d.langId encodeData
  | .dataCodingUcs2 => iconv.utf16ToUtf8 (ucs2Units encodeData)
  | _ => encodeData

/-- All that is read. -/
def Decoded.reading (isBoundary : List UInt16 → Nat → Bool) (iconv : Iconv) (d : Decoded)
    (bPortNum : Bool) : List UInt8 :=
  (d.segments isBoundary bPortNum).flatMap (d.read iconv)

section Reading

variable {isBoundary : List UInt16 → Nat → Bool} {iconv : Iconv} {bPortNum : Bool}

theorem segments_ne_nil {d : Decoded} (hc : d.Coded) (hne : d.data ≠ []) :
    d.segments isBoundary bPortNum ≠ [] := by
  cases hat : d.atBoundaries bPortNum with
  | false =>
      intro hnil
      have hflat : (d.segments isBoundary bPortNum).flatten = d.data := flatten_segments hc hat
      rw [hnil] at hflat
      exact hne hflat.symm
  | true =>
      simp only [Decoded.segments, hne, hat, if_true, if_false, splitMessageUcs2]
      rw [ne_eq, List.map_eq_nil_iff]
      generalize (ucs2Units d.data).length = fuel
      cases fuel with
      | zero => simp [splitUnits]
      | succ fuel =>
          rw [splitUnits]
          split <;> simp

theorem lossless_iff {splitter : Splitter} {text : List UInt8} {force7BitCode : Bool}
    {desAddr : List UInt8} {d : Decoded}
    (hd : decoded iconv splitter text force7BitCode desAddr = d) :
    Lossless isBoundary iconv splitter text force7BitCode bPortNum desAddr ↔
      (d.data ≠ [] →
        d.reading isBoundary iconv bPortNum <+:
            expectedText iconv splitter text force7BitCode desAddr ∧
          (text.length ≤ maxMsgTextLen → d.reading isBoundary iconv bPortNum =
            expectedText iconv splitter text force7BitCode desAddr)) := by
  have hc : d.Coded := by
    rw [← hd]
    exact decodeMessage_coded iconv splitter _ text
  have hread : (splitMessage isBoundary iconv splitter text force7BitCode bPortNum desAddr).2.flatMap
      (readBack iconv) = d.reading isBoundary iconv bPortNum := by
    have hlang := segment_langId hc bPortNum
    simp only [splitMessage, hd, List.flatMap_map, Decoded.reading]
    refine List.flatMap_congr fun encodeData _ => ?_
    simp only [readBack, Decoded.read]
    rw [hlang]
  have hnil : (splitMessage isBoundary iconv splitter text force7BitCode bPortNum desAddr).2 ≠ [] ↔
      d.data ≠ [] := by
    constructor
    · intro h hdata
      exact h (by simp only [splitMessage, hd]; rw [segments_nil hdata]; rfl)
    · intro h hsegments
      simp only [splitMessage, hd, List.map_eq_nil_iff] at hsegments
      exact segments_ne_nil hc h hsegments
  simp only [Lossless]
  rw [hread, hnil]

/-- Octets are read as they are. -/
theorem reading_octets {d : Decoded} (hc : d.Coded) (h7Bit : d.codingType ≠ .dataCoding7Bit)
    (hucs2 : d.codingType ≠ .dataCodingUcs2) :
    d.reading isBoundary iconv bPortNum = d.data := by
  have hread : d.read iconv = id := by
    funext encodeData
    unfold Decoded.read
    split
    · contradiction
    · contradiction
    · rfl
  rw [Decoded.reading, hread, List.flatMap_id, flatten_segments hc (atBoundaries_of_ne hucs2 _)]

theorem reading_septets (hf : iconv.Faithful) {d : Decoded} (hc : d.Coded)
    (h7Bit : d.codingType = .dataCoding7Bit) {tokens : List (UInt16 × List UInt8)}
    (hdata : d.data = tokens.flatMap Prod.snd) (h : ∀ token ∈ tokens, Reads d.langId token)
    (hcut : NoEscapeCut d bPortNum) :
    d.reading isBoundary iconv bPortNum = iconv.utf16ToUtf8 (tokens.map Prod.fst) := by
  have hread : d.read iconv = gsm7bitToUtf8 iconv d.langId := by
    funext encodeData
    simp [Decoded.read, h7Bit]
  have hflat : (d.segments isBoundary bPortNum).flatten = d.data :=
    flatten_segments hc (atBoundaries_of_ne (by simp [h7Bit]) _)
  rw [Decoded.reading, hread]
  exact flatMap_gsm7bitToUtf8 hf h (by rw [hflat, hdata])
    (escapesWhole_segments hc (by simp [is7Bit, h7Bit]) hcut)

theorem noEscapeCut_of_segments {d : Decoded} (h7Bit : is7Bit d.codingType)
    (h : ∀ piece ∈ d.segments isBoundary bPortNum, piece.getLast? ≠ some 0x1B) :
    NoEscapeCut d bPortNum := by
  intro hseveral k hk
  have hne : d.data ≠ [] := by
    intro hnil
    simp [hnil] at hk
  have hle := le_ceilDiv_mul d.data.length (by decide : 0 < 153)
  have hcount : k + 1 < ceilDiv d.data.length 153 := by
    by_contra hge
    have hmul := Nat.mul_le_mul_right 153 (Nat.le_of_not_lt hge)
    omega
  rw [← getLast_window (by decide : 0 < 153) hk.le]
  apply h
  rw [segments_7Bit h7Bit hseveral hne, splitFixed, List.mem_map]
  exact ⟨k, List.mem_range.2 (by omega), by rw [if_neg (by omega)]⟩

theorem reads_of_reading (hf : iconv.Faithful) {d : Decoded} (hc : d.Coded)
    (h7Bit : d.codingType = .dataCoding7Bit) {tokens : List (UInt16 × List UInt8)}
    (hdata : d.data = tokens.flatMap Prod.snd) (h : ∀ token ∈ tokens, Coding token)
    (hwell : WellFormed (tokens.map Prod.fst))
    (heq : d.reading isBoundary iconv bPortNum = iconv.utf16ToUtf8 (tokens.map Prod.fst)) :
    (∀ token ∈ tokens, Reads d.langId token) ∧ NoEscapeCut d bPortNum := by
  have hread : d.read iconv = gsm7bitToUtf8 iconv d.langId := by
    funext encodeData
    simp [Decoded.read, h7Bit]
  have hflat : (d.segments isBoundary bPortNum).flatten = d.data :=
    flatten_segments hc (atBoundaries_of_ne (by simp [h7Bit]) _)
  rw [Decoded.reading, hread] at heq
  obtain ⟨hreads, hwhole⟩ := reads_of_flatMap_eq hf h hwell (by rw [hflat, hdata]) heq
  exact ⟨hreads, noEscapeCut_of_segments (by simp [is7Bit, h7Bit]) hwhole⟩

theorem atBoundaries_iff {d : Decoded} (hc : d.Coded) (hucs2 : d.codingType = .dataCodingUcs2)
    (hne : d.data ≠ []) :
    d.atBoundaries bPortNum = true ↔
      maxUcs2DataLen < d.data.length + headerSize bPortNum d.langId ∧ 134 < d.data.length := by
  have hpos := List.length_pos_iff.2 hne
  by_cases hone : d.data.length + headerSize bPortNum d.langId ≤ maxUcs2DataLen
  · have hsize : getSegmentSize d.codingType d.data.length bPortNum d.langId = d.data.length :=
      getSegmentSize_single hc hne (by simpa [singleSize, hucs2, is7Bit] using hone)
    simp only [Decoded.atBoundaries, hsize, ceilDiv_eq_one hpos le_rfl]
    simp
    omega
  · have hseveral := Nat.lt_of_not_le hone
    have hsize := getSegmentSize_octet (by rw [hucs2]; rfl) hseveral
    simp only [Decoded.atBoundaries, hsize]
    simp only [hucs2, hseveral, true_and, decide_eq_true_eq]
    constructor
    · intro hmany
      by_contra hfew
      rw [ceilDiv_eq_one hpos (by omega)] at hmany
      omega
    · exact one_lt_ceilDiv (by decide)

theorem segments_of_not_atBoundaries {d : Decoded} (hc : d.Coded)
    (hucs2 : d.codingType = .dataCodingUcs2) (hne : d.data ≠ [])
    (hat : d.atBoundaries bPortNum = false) : d.segments isBoundary bPortNum = [d.data] := by
  have hpos := List.length_pos_iff.2 hne
  have hfew : ¬ d.atBoundaries bPortNum = true := by simp [hat]
  rw [atBoundaries_iff hc hucs2 hne, not_and, Nat.not_lt] at hfew
  by_cases hone : d.data.length + headerSize bPortNum d.langId ≤ maxUcs2DataLen
  · exact segments_single hc hne (by simpa [singleSize, hucs2, is7Bit] using hone)
  · have hsize := getSegmentSize_octet (by rw [hucs2]; rfl) (Nat.lt_of_not_le hone)
    have hcount := ceilDiv_eq_one hpos (hfew (Nat.lt_of_not_le hone))
    simp only [Decoded.segments, hne, hat, hsize, hcount, if_false]
    simp [splitFixed_one]

/-- UCS2 is one segment, or is cut at boundaries. -/
theorem reading_ucs2 {d : Decoded} (hc : d.Coded) (hucs2 : d.codingType = .dataCodingUcs2)
    (hne : d.data ≠ []) :
    ∃ pieces : List (List UInt16), pieces.flatten = ucs2Units d.data ∧
      d.reading isBoundary iconv bPortNum = pieces.flatMap iconv.utf16ToUtf8 ∧
      (CutsWhole pieces ↔ NoPairCut isBoundary d bPortNum) := by
  have hread : d.read iconv = fun encodeData => iconv.utf16ToUtf8 (ucs2Units encodeData) := by
    funext encodeData
    simp [Decoded.read, hucs2]
  cases hat : d.atBoundaries bPortNum with
  | false =>
      have hsegments : d.segments isBoundary bPortNum = [d.data] :=
        segments_of_not_atBoundaries hc hucs2 hne hat
      refine ⟨[ucs2Units d.data], by simp, ?_, ?_⟩
      · rw [Decoded.reading, hread, hsegments]
        rfl
      · simp [NoPairCut, hat, CutsWhole, WellFormed.nil]
  | true =>
      have hmany := (atBoundaries_iff hc hucs2 hne).1 hat
      have hsegments : d.segments isBoundary bPortNum = _ := segments_ucs2 hucs2 hmany.1 hmany.2
      refine ⟨_, ?_, ?_, (cutsWhole_splitUnits_iff isBoundary (ucs2Units d.data)).trans ?_⟩
      · rw [flatten_splitUnits isBoundary (by decide)]
        rfl
      · simp only [Decoded.reading, hread, hsegments, List.flatMap_map, ucs2Units_ucs2Octets]
      · simp [NoPairCut, hat]

end Reading

/-! ## Where the text is read -/

theorem reads_singleton {langId : UInt8} {c : UInt16} {octet : UInt8}
    (h : Reads langId (c, [octet])) : octet ≠ 0x1B := by
  cases h with
  | septet _ hne => exact hne

theorem reads_escaped {langId : UInt8} {c : UInt16} {first code : UInt8} {rest : List UInt8}
    (h : Reads langId (c, first :: code :: rest)) :
    first = 0x1B ∧ rest = [] ∧ escapeToUcs2 langId code = c := by
  cases h with
  | escaped => exact ⟨rfl, rfl, rfl⟩

theorem gsm7bitDefMap_escape : gsm7bitDefMap 0x1B = some 0x1B := by decide

theorem not_misread_of_reads {national : SmsCodingNationalType} {c : UInt16}
    (h : Reads national.langId (autoToken (get7BitCodingExtMap national) c)) :
    misread national c = false := by
  have hwrong : ∀ (code : UInt8) {c : UInt16},
      autoToken (get7BitCodingExtMap national) c = (c, [0x1B, code]) →
        escapeToUcs2 national.langId code ≠ c →
          ¬ Reads national.langId (autoToken (get7BitCodingExtMap national) c) := by
    intro code c htoken hcode hreads
    rw [htoken] at hreads
    exact hcode (reads_escaped hreads).2.2
  rw [← Bool.not_eq_true]
  intro hmis
  revert h
  cases national with
  | turkish =>
      simp only [misread, Bool.or_eq_true, decide_eq_true_eq] at hmis
      obtain rfl | rfl := hmis
      · exact hwrong 0x47 (by decide) (by decide)
      · exact hwrong 0x67 (by decide) (by decide)
  | portuguese =>
      simp only [misread, decide_eq_true_eq] at hmis
      obtain rfl := hmis
      exact hwrong 0x61 (by decide) (by decide)
  | default => simp [misread] at hmis
  | spanish => simp [misread] at hmis
  | other value => simp [misread] at hmis

theorem replacedIn_default (c : UInt16) : replacedIn .msgDefaultChar c = replaced c := by
  unfold replacedIn replaced
  split <;> simp_all [MsgCharType.extMap]

theorem getLangTypeStep_ne {currType : MsgCharType} {c : UInt16}
    (h : currType ≠ .msgDefaultChar ∨ extCharMap.lookup c ≠ none) :
    getLangTypeStep currType c ≠ .msgDefaultChar := by
  have htable : ∀ entry ∈ extCharMap, entry.2 ≠ .msgDefaultChar :=
    forall_of_all (by decide)
  unfold getLangTypeStep
  cases hlook : extCharMap.lookup c with
  | none =>
      rw [hlook] at h
      exact h.resolve_right (by simp)
  | some newType =>
      have hnew := htable _ (mem_of_lookup hlook)
      simp only
      split
      · split
        · decide
        · exact hnew
      · rename_i hlt
        intro hdefault
        rw [hdefault] at hlt
        exact hlt (Nat.zero_le _)

theorem getLangType_of_mem {units : List UInt16} {c : UInt16} (hmem : c ∈ units)
    (hext : extCharMap.lookup c ≠ none) : getLangType units ≠ .msgDefaultChar := by
  have hkeep : ∀ (rest : List UInt16) (currType : MsgCharType), currType ≠ .msgDefaultChar →
      rest.foldl getLangTypeStep currType ≠ .msgDefaultChar := by
    intro rest
    induction rest with
    | nil => exact fun _ h => h
    | cons next rest ih => exact fun currType h => ih _ (getLangTypeStep_ne (.inl h))
  obtain ⟨front, back, rfl⟩ := List.append_of_mem hmem
  rw [getLangType, List.foldl_append, List.foldl_cons]
  exact hkeep back _ (getLangTypeStep_ne (.inr hext))

theorem extCharMap_not_default : ∀ entry ∈ extCharMap, gsm7bitDefMap entry.1 = none :=
  forall_of_all (by decide)

/-- The octet behind a character of an extension table is read too. -/
theorem not_reads_extended {langId : UInt8} {currType : MsgCharType} {c : UInt16}
    (htype : currType ≠ .msgDefaultChar) (hext : extCharMap.lookup c ≠ none) :
    ¬ Reads langId (forcedToken currType c) := by
  obtain ⟨extType, hlook⟩ := Option.ne_none_iff_exists'.1 hext
  have hdef : gsm7bitDefMap c = none := extCharMap_not_default _ (mem_of_lookup hlook)
  intro h
  simp only [forcedToken, hdef, ucs2ToGsm7bitOther_of_ne htype] at h
  cases hin : currType.extMap.lookup c with
  | none =>
      rw [hin] at h
      exact (findReplaceChar_septet c).2 (reads_escaped h).1
  | some septet =>
      rw [hin] at h
      exact List.cons_ne_nil _ _ (reads_escaped h).2.1

/-- Forced coding keeps or makes no surrogates. -/
theorem replacedIn_not_surrogate (currType : MsgCharType) (c : UInt16) :
    isHighSurrogate (replacedIn currType c) = false ∧
      isLowSurrogate (replacedIn currType c) = false := by
  have hdefault : ∀ {c}, (gsm7bitDefMap c).isSome →
      isHighSurrogate c = false ∧ isLowSurrogate c = false := by
    intro c h
    obtain ⟨septet, hseptet⟩ := Option.isSome_iff_exists.1 h
    obtain ⟨-, rfl⟩ := gsm7bitDefMap_eq_some hseptet
    exact septet_not_surrogate septet
  have htable : ∀ table ∈ [gsm7bitExtMap, turkishMap, spanishMap, portuMap],
      ∀ entry ∈ table, isHighSurrogate entry.1 = false ∧ isLowSurrogate entry.1 = false := by
    simp only [List.forall_mem_cons]
    exact ⟨forall_of_all (by decide), forall_of_all (by decide),
      forall_of_all (by decide), forall_of_all (by decide), by simp⟩
  unfold replacedIn
  split
  · rename_i hkept
    rcases hkept with hdef | hext
    · exact hdefault hdef
    · obtain ⟨septet, hlook⟩ := Option.isSome_iff_exists.1 hext
      refine htable currType.extMap ?_ _ (mem_of_lookup hlook)
      cases currType <;> simp [MsgCharType.extMap] at hlook ⊢
  · unfold replaced
    split
    · rename_i hdef
      exact hdefault hdef
    · exact septet_not_surrogate _

section Coders

variable {isBoundary : List UInt16 → Nat → Bool} {iconv : Iconv} (hf : iconv.Faithful)
  {units : List UInt16} {bPortNum : Bool}
include hf

theorem reading_auto {national : SmsCodingNationalType} {dest : List UInt8}
    (hdest : ucs2ToGsm7bitAuto maxDecodeLen units national = some dest)
    (hc : Decoded.Coded ⟨.dataCoding7Bit, national.langId, dest⟩)
    (hesc : 0x1B ∉ units) (hread : ∀ c ∈ units, misread national c = false)
    (hcut : NoEscapeCut ⟨.dataCoding7Bit, national.langId, dest⟩ bPortNum) :
    ∃ k, Decoded.reading isBoundary iconv ⟨.dataCoding7Bit, national.langId, dest⟩ bPortNum =
        iconv.utf16ToUtf8 (units.take k) ∧
      (septetCount units ≤ maxDecodeLen → units.length ≤ k) := by
  obtain ⟨k, rfl, hknown, hall⟩ := ucs2ToGsm7bitAutoLoop_eq (by decide) hdest
  rw [List.nil_append] at hc hcut ⊢
  refine ⟨k, ?_, fun hfits => hall (by simpa using hfits)⟩
  have hreads : ∀ token ∈ (units.take k).map (autoToken (get7BitCodingExtMap national)),
      Reads national.langId token := by
    rw [List.forall_mem_map]
    intro c hmem
    have hin := List.mem_of_mem_take hmem
    exact reads_autoToken (hknown c hmem) (fun h => hesc (h ▸ hin)) (hread c hin)
  rw [reading_septets hf hc rfl rfl hreads hcut, List.map_map]
  congr 1
  exact List.map_id _

theorem of_reading_auto {national : SmsCodingNationalType} {dest : List UInt8}
    (hdest : ucs2ToGsm7bitAuto maxDecodeLen units national = some dest)
    (hc : Decoded.Coded ⟨.dataCoding7Bit, national.langId, dest⟩)
    (hfits : septetCount units ≤ maxDecodeLen) (hwell : WellFormed units)
    (heq : Decoded.reading isBoundary iconv ⟨.dataCoding7Bit, national.langId, dest⟩ bPortNum =
      iconv.utf16ToUtf8 units) :
    0x1B ∉ units ∧ (∀ c ∈ units, misread national c = false) ∧
      NoEscapeCut ⟨.dataCoding7Bit, national.langId, dest⟩ bPortNum := by
  obtain ⟨k, rfl, hknown, hall⟩ := ucs2ToGsm7bitAutoLoop_eq (by decide) hdest
  rw [List.take_of_length_le (hall (by simpa using hfits))] at hknown hc heq ⊢
  rw [List.nil_append] at hc heq ⊢
  have hmap : (units.map (autoToken (get7BitCodingExtMap national))).map Prod.fst = units := by
    rw [List.map_map]
    exact List.map_id _
  obtain ⟨hreads, hcut⟩ := reads_of_reading hf hc rfl rfl
    (List.forall_mem_map.2 fun c hmem => coding_autoToken (hknown c hmem)) (by rwa [hmap])
    (by rw [heq, hmap])
  rw [List.forall_mem_map] at hreads
  refine ⟨?_, fun c hmem => not_misread_of_reads (hreads c hmem), hcut⟩
  intro hmem
  have hescape := hreads 0x1B hmem
  rw [autoToken, gsm7bitDefMap_escape] at hescape
  exact reads_singleton hescape rfl

theorem reading_forced (hc : Decoded.Coded ⟨.dataCoding7Bit, (ucs2ToGsm7bit maxDecodeLen units).2,
      (ucs2ToGsm7bit maxDecodeLen units).1⟩)
    (hesc : 0x1B ∉ units) (hext : ∀ c ∈ units, extCharMap.lookup c = none)
    (hcut : NoEscapeCut ⟨.dataCoding7Bit, (ucs2ToGsm7bit maxDecodeLen units).2,
      (ucs2ToGsm7bit maxDecodeLen units).1⟩ bPortNum) :
    Decoded.reading isBoundary iconv ⟨.dataCoding7Bit, (ucs2ToGsm7bit maxDecodeLen units).2,
        (ucs2ToGsm7bit maxDecodeLen units).1⟩ bPortNum =
      iconv.utf16ToUtf8 ((units.map (replacedIn (getLangType units))).take maxDecodeLen) := by
  have htype := getLangType_default hext
  have hreplaced : replacedIn .msgDefaultChar = replaced := funext replacedIn_default
  have hcoded : ucs2ToGsm7bit maxDecodeLen units =
      ((units.take maxDecodeLen).map forcedSeptet, 0) := by
    rw [ucs2ToGsm7bit, htype, ucs2ToGsm7bitLoop_default units 0 (by decide)]
    rfl
  rw [hcoded] at hc hcut ⊢
  have hdata : (units.take maxDecodeLen).map forcedSeptet =
      ((units.take maxDecodeLen).map fun c => (replaced c, [forcedSeptet c])).flatMap
        Prod.snd := by
    rw [List.flatMap_map, List.map_eq_flatMap]
  have hreads : ∀ token ∈ (units.take maxDecodeLen).map fun c => (replaced c, [forcedSeptet c]),
      Reads 0 token := by
    rw [List.forall_mem_map]
    intro c hmem
    exact reads_forced 0 fun h => hesc (h ▸ List.mem_of_mem_take hmem)
  rw [reading_septets hf hc rfl hdata hreads hcut, List.map_map, htype, hreplaced, ← List.map_take]
  rfl

theorem of_reading_forced
    (hc : Decoded.Coded ⟨.dataCoding7Bit, (ucs2ToGsm7bit maxDecodeLen units).2,
      (ucs2ToGsm7bit maxDecodeLen units).1⟩)
    (hfits : codedSeptets .dataCoding7Bit units ≤ maxDecodeLen)
    (heq : Decoded.reading isBoundary iconv ⟨.dataCoding7Bit, (ucs2ToGsm7bit maxDecodeLen units).2,
        (ucs2ToGsm7bit maxDecodeLen units).1⟩ bPortNum =
      iconv.utf16ToUtf8 (units.map (replacedIn (getLangType units)))) :
    0x1B ∉ units ∧ (∀ c ∈ units, extCharMap.lookup c = none) ∧
      NoEscapeCut ⟨.dataCoding7Bit, (ucs2ToGsm7bit maxDecodeLen units).2,
        (ucs2ToGsm7bit maxDecodeLen units).1⟩ bPortNum := by
  have hdata : (ucs2ToGsm7bit maxDecodeLen units).1 =
      (units.map (forcedToken (getLangType units))).flatMap Prod.snd := by
    rw [codedSeptets, if_pos rfl] at hfits
    rw [ucs2ToGsm7bit, ucs2ToGsm7bitLoop_fits (by decide) (by simpa using hfits)]
    rfl
  have hmap : (units.map (forcedToken (getLangType units))).map Prod.fst =
      units.map (replacedIn (getLangType units)) := by
    rw [List.map_map]
    rfl
  have hwell : WellFormed (units.map (replacedIn (getLangType units))) :=
    wellFormed_of_forall (List.forall_mem_map.2 fun c _ => replacedIn_not_surrogate _ c)
  obtain ⟨hreads, hcut⟩ := reads_of_reading hf hc rfl hdata
    (List.forall_mem_map.2 fun c _ => coding_forcedToken _ c) (by rwa [hmap]) (by rw [heq, hmap])
  rw [List.forall_mem_map] at hreads
  refine ⟨?_, ?_, hcut⟩
  · intro hmem
    have hescape := hreads 0x1B hmem
    rw [forcedToken, gsm7bitDefMap_escape] at hescape
    exact reads_singleton hescape rfl
  · intro c hmem
    by_contra hext
    exact not_reads_extended (getLangType_of_mem hmem hext) hext (hreads c hmem)

end Coders

/-! ## Splitting without loss -/

section Lossless

variable {isBoundary : List UInt16 → Nat → Bool} {iconv : Iconv} {splitter : Splitter}
  {text : List UInt8} {units : List UInt16} {force7BitCode bPortNum : Bool}
  {desAddr : List UInt8}

theorem expectedText_text
    (h : requestedScheme force7BitCode desAddr ≠ .dataCoding7Bit ∨ splitter = .cdma) :
    expectedText iconv splitter text force7BitCode desAddr = text := by
  unfold expectedText
  split
  · rename_i hrequested _
    exact absurd hrequested (h.resolve_right (by simp))
  · rfl

theorem expectedText_forced {national : SmsCodingNationalType}
    (h : requestedScheme force7BitCode desAddr = .dataCoding7Bit)
    (hutf8 : iconv.utf8ToUtf16 text = some units) :
    expectedText iconv (.gsm national) text force7BitCode desAddr =
      iconv.utf16ToUtf8 (units.map (replacedIn (getLangType units))) := by
  simp [expectedText, h, hutf8]

theorem take_units_start (hf : iconv.Faithful) (hutf8 : iconv.utf8ToUtf16 text = some units)
    (k : Nat) :
    iconv.utf16ToUtf8 (units.take k) <+: text ∧
      (units.length ≤ k → iconv.utf16ToUtf8 (units.take k) = text) := by
  constructor
  · have hstart := hf.take_start (hf.wellFormed hutf8) k
    rwa [hf.back hutf8] at hstart
  · intro hk
    rw [List.take_of_length_le hk, hf.back hutf8]

theorem lossless_of_separable (hf : iconv.Faithful) (hutf8 : iconv.utf8ToUtf16 text = some units)
    (h : Separable isBoundary splitter text units (requestedScheme force7BitCode desAddr)
      (decoded iconv splitter text force7BitCode desAddr) bPortNum) :
    Lossless isBoundary iconv splitter text force7BitCode bPortNum desAddr := by
  have hc : (decoded iconv splitter text force7BitCode desAddr).Coded :=
    decodeMessage_coded iconv splitter _ text
  have hlength := hf.length_le hutf8
  rw [lossless_iff rfl]
  intro hne
  have hnil : text ≠ [] := by
    rintro rfl
    exact hne decoded_nil
  have hcoded := decoded_codedText hutf8 hnil (.inl hne)
  generalize decoded iconv splitter text force7BitCode desAddr = d at h hc hne hcoded ⊢
  cases hcoded with
  | octets hrequested =>
      rw [expectedText_text (.inl (by simp [hrequested])),
        reading_octets hc (by simp) (by simp)]
      exact ⟨List.prefix_rfl, fun _ => rfl⟩
  | forcedAscii hs hrequested =>
      rw [expectedText_text (.inr hs), reading_octets hc (by simp) (by simp)]
      exact ⟨List.prefix_rfl, fun _ => rfl⟩
  | forced hs hrequested =>
      subst hs
      rw [expectedText_forced hrequested hutf8,
        reading_forced hf hc (h.noEscape rfl) (h.noExtension rfl hrequested) (h.noEscapeCut rfl)]
      constructor
      · exact hf.take_start
          (wellFormed_of_forall (List.forall_mem_map.2 fun c _ => replacedIn_not_surrogate _ c)) _
      · intro hshort
        rw [List.take_of_length_le]
        rw [List.length_map]
        unfold maxMsgTextLen at hshort
        unfold maxDecodeLen
        omega
  | septets hs hrequested hdest =>
      obtain ⟨k, hread, hall⟩ := reading_auto hf hdest hc (h.noEscape rfl)
        (h.noMisread rfl hrequested _ hs) (h.noEscapeCut rfl)
      obtain ⟨hstart, hwhole⟩ := take_units_start hf hutf8 k
      rw [expectedText_text (.inl (by simp [hrequested])), hread]
      refine ⟨hstart, fun hshort => hwhole (hall ?_)⟩
      have hroom := h.room7Bit rfl hshort
      rwa [codedSeptets, if_neg (by simp [hrequested])] at hroom
  | ascii hs hrequested hdest =>
      obtain ⟨k, rfl, hascii, hall⟩ := ucs2ToAsciiLoop_eq (by decide) hdest
      obtain ⟨hstart, hwhole⟩ := take_units_start hf hutf8 k
      rw [hf.ascii hascii] at hstart hwhole
      rw [expectedText_text (.inr hs), reading_octets hc (by simp) (by simp)]
      refine ⟨hstart, fun hshort => hwhole (hall ?_)⟩
      unfold maxMsgTextLen at hshort
      unfold maxDecodeLen
      rw [List.length_nil]
      omega
  | ucs2 hrequested _ _ =>
      obtain ⟨pieces, hflat, hread, hcuts⟩ := reading_ucs2 hc rfl hne
      obtain ⟨hstart, hwhole⟩ := take_units_start hf hutf8 (maxDecodeLen / 2)
      rw [expectedText_text (.inl (by simp [hrequested])), hread,
        flatMap_of_cutsWhole hf (hcuts.2 h.noPairCut), hflat, ucs2Units_take]
      refine ⟨hstart, fun hshort => hwhole ?_⟩
      have hroom := h.roomUcs2 rfl hshort
      omega

/-- Octets and ASCII are cut anywhere. -/
theorem separable_octets {requested : DataCodingScheme} {d : Decoded}
    (h7Bit : d.codingType ≠ .dataCoding7Bit) (hucs2 : d.codingType ≠ .dataCodingUcs2) :
    Separable isBoundary splitter text units requested d bPortNum where
  noEscape h := absurd h h7Bit
  noEscapeCut h := absurd h h7Bit
  noExtension h := absurd h h7Bit
  noMisread h := absurd h h7Bit
  room7Bit h := absurd h h7Bit
  noPairCut h := by simp [atBoundaries_of_ne hucs2] at h
  roomUcs2 h := absurd h hucs2

theorem separable_nil {requested : DataCodingScheme} {d : Decoded} (hd : d.data = []) :
    Separable isBoundary splitter [] [] requested d bPortNum where
  noEscape _ := by simp
  noEscapeCut _ := by
    intro _ k hk
    simp [hd] at hk
  noExtension _ _ := by simp
  noMisread _ _ := by simp
  room7Bit _ _ := by
    unfold codedSeptets
    split <;> simp [septetCount]
  noPairCut := by
    intro _ k hk
    simp [hd, ucs2Units] at hk
  roomUcs2 _ _ := by simp

/-- There is data of every character. -/
theorem CodedText.data_ne_nil {requested : DataCodingScheme} {d : Decoded}
    (h : CodedText splitter requested text units d) (hnil : text ≠ []) (hunits : units ≠ [])
    (hfits : codedSeptets requested units ≤ maxDecodeLen)
    (hlength : units.length ≤ maxDecodeLen) : d.data ≠ [] := by
  have hpos := List.length_pos_iff.2 hunits
  obtain ⟨c, hmem⟩ := List.exists_mem_of_ne_nil units hunits
  have htokens : ∀ (token : UInt16 → UInt16 × List UInt8), (token c).2 ≠ [] →
      (units.map token).flatMap Prod.snd ≠ [] := by
    intro token htoken hnil
    rw [List.flatMap_map, List.flatMap_eq_nil_iff] at hnil
    exact htoken (hnil c hmem)
  cases h with
  | octets _ => exact hnil
  | forcedAscii _ _ => exact hnil
  | forced _ hrequested =>
      rw [codedSeptets, if_pos hrequested] at hfits
      simp only [ucs2ToGsm7bit]
      rw [ucs2ToGsm7bitLoop_fits (by decide) (by simpa using hfits), List.nil_append]
      exact htokens _ (forcedToken_ne_nil _ c)
  | septets _ hrequested hdest =>
      rw [codedSeptets, if_neg (by simp [hrequested])] at hfits
      obtain ⟨k, rfl, hknown, hall⟩ := ucs2ToGsm7bitAutoLoop_eq (by decide) hdest
      rw [List.take_of_length_le (hall (by simpa using hfits))] at hknown ⊢
      rw [List.nil_append]
      apply htokens
      have hlen := length_autoToken (hknown c hmem)
      have hseptets := septets_pos c
      exact List.ne_nil_of_length_pos (by omega)
  | ascii _ _ hdest =>
      obtain ⟨k, rfl, -, hall⟩ := ucs2ToAsciiLoop_eq (by decide) hdest
      rw [List.take_of_length_le (hall (by simpa using hlength))]
      simpa using hunits
  | ucs2 _ _ _ =>
      apply List.ne_nil_of_length_pos
      rw [List.length_take, length_ucs2Octets]
      unfold maxDecodeLen
      omega

theorem separable_of_lossless (hf : iconv.Faithful) (hutf8 : iconv.utf8ToUtf16 text = some units)
    (hshort : text.length ≤ maxMsgTextLen)
    (hfits : codedSeptets (requestedScheme force7BitCode desAddr) units ≤ maxDecodeLen)
    (h : Lossless isBoundary iconv splitter text force7BitCode bPortNum desAddr) :
    Separable isBoundary splitter text units (requestedScheme force7BitCode desAddr)
      (decoded iconv splitter text force7BitCode desAddr) bPortNum := by
  have hc : (decoded iconv splitter text force7BitCode desAddr).Coded :=
    decodeMessage_coded iconv splitter _ text
  have hwell := hf.wellFormed hutf8
  have hback := hf.back hutf8
  have hlength := hf.length_le hutf8
  have hbound : maxMsgTextLen ≤ maxDecodeLen := by decide
  rw [lossless_iff rfl] at h
  by_cases hnil : text = []
  · subst hnil
    obtain rfl : units = [] := List.eq_nil_of_length_eq_zero (by simpa using hlength)
    exact separable_nil decoded_nil
  · have hunits : units ≠ [] := by
      intro hunits
      rw [hunits, hf.nil] at hback
      exact hnil hback.symm
    have hcoded : CodedText splitter (requestedScheme force7BitCode desAddr) text units
        (decoded iconv splitter text force7BitCode desAddr) :=
      decoded_codedText hutf8 hnil (.inr (by omega))
    have hne := hcoded.data_ne_nil hnil hunits hfits (by omega)
    have heq := (h hne).2 hshort
    generalize decoded iconv splitter text force7BitCode desAddr = d at h hc hne hcoded heq ⊢
    cases hcoded with
    | octets hrequested => exact separable_octets (by simp) (by simp)
    | forcedAscii hs hrequested => exact separable_octets (by simp) (by simp)
    | ascii hs hrequested hdest => exact separable_octets (by simp) (by simp)
    | forced hs hrequested =>
        subst hs
        rw [expectedText_forced hrequested hutf8] at heq
        rw [hrequested] at hfits
        obtain ⟨hesc, hext, hcut⟩ := of_reading_forced hf hc hfits heq
        rw [hrequested]
        exact
          { noEscape := fun _ => hesc
            noEscapeCut := fun _ => hcut
            noExtension := fun _ _ => hext
            noMisread := by simp
            room7Bit := fun _ _ => hfits
            noPairCut := by simp [NoPairCut, Decoded.atBoundaries]
            roomUcs2 := by simp }
    | septets hs hrequested hdest =>
        rw [expectedText_text (.inl (by simp [hrequested])), ← hback] at heq
        rw [hrequested] at hfits ⊢
        obtain ⟨hesc, hread, hcut⟩ := of_reading_auto hf hdest hc hfits hwell heq
        exact
          { noEscape := fun _ => hesc
            noEscapeCut := fun _ => hcut
            noExtension := by simp
            noMisread := fun _ _ national hnational => by
              cases hs.symm.trans hnational
              exact hread
            room7Bit := fun _ _ => hfits
            noPairCut := by simp [NoPairCut, Decoded.atBoundaries]
            roomUcs2 := by simp }
    | ucs2 hrequested _ _ =>
        obtain ⟨pieces, hflat, hread, hcuts⟩ := reading_ucs2 hc rfl hne
        rw [expectedText_text (.inl (by simp [hrequested])), ← hback, hread] at heq
        rw [ucs2Units_take] at hflat
        obtain ⟨hwhole, hrest⟩ := whole_of_flatMap_eq hf
          (by rw [hflat, List.take_append_drop]) hwell heq
        rw [List.drop_eq_nil_iff] at hrest
        exact
          { noEscape := by simp
            noEscapeCut := by simp
            noExtension := by simp
            noMisread := by simp
            room7Bit := by simp
            noPairCut := hcuts.1 hwhole
            roomUcs2 := fun _ _ => by omega }

theorem utf8ToUtf16_letter : utf8Iconv.utf8ToUtf16 [0x61] = some [0x61] :=
  utf8ToUtf16_encode ['a']

end Lossless

end TelephonySms.Text
