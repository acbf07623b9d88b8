import Mathlib.Data.List.TakeWhile
import TelephonySms.Send.Sender
import TelephonySms.Text.Lossless

/-! # The split that is shown and the split that is sent

`SmsSendManager` splits a text for its caller and, on sending, the sender of the network
splits it again. The manager takes the CDMA splitter on a GSM network and the GSM
splitter on a CDMA network.
-/

namespace TelephonySms.Send

open TelephonySms.Pdu TelephonySms.Text

/-- What both sides read: the network, the configuration of the slot and the IMS flags
of the CDMA sender. -/
structure SmsSendManager where
  netWorkType : NetWorkType
  smsCodingNationalType : SmsCodingNationalType
  force7BitEncodeType : Bool
  isImsNetDomain : Bool
  imsSmsCfg : Bool
deriving DecidableEq, Repr

section Split

variable (isBoundary : List UInt16 → Nat → Bool) (iconv : Iconv)

/-- `SmsSendManager::SplitMessage`. -/
def SmsSendManager.splitMessage (m : SmsSendManager) (message : List UInt8) : List (List UInt8) :=
  match m.netWorkType with
  | .cdma =>
      (Text.splitMessage isBoundary iconv (.gsm m.smsCodingNationalType) message false false []).2.map
        SplitInfo.text
  | .gsm => (Text.splitMessage isBoundary iconv .cdma message false false []).2.map SplitInfo.text
  | .unknown => []

/-- The cells a sender goes through: none of a message with too many. -/
def limited (cells : List SplitInfo) : List SplitInfo :=
  if cells.length > maxSegmentNum then [] else cells

/-- `GsmSmsSender::TextBasedSmsDelivery`, which stops at a cell it cannot send. -/
def SmsSendManager.gsmTextDelivery (m : SmsSendManager) (text : List UInt8) : List SplitInfo :=
  (limited (Text.splitMessage isBoundary iconv (.gsm m.smsCodingNationalType) text
    m.force7BitEncodeType false []).2).takeWhile
      fun cell => cell.encodeData.length ≤ 160 && cell.encodeData.length ≠ 0

/-- `CdmaSmsSender::TextBasedSmsDeliveryViaIms`, which leaves such a cell out. -/
def SmsSendManager.imsTextDelivery (m : SmsSendManager) (text : List UInt8) : List SplitInfo :=
  (limited (Text.splitMessage isBoundary iconv (.gsm m.smsCodingNationalType) text
    m.force7BitEncodeType false []).2).filter fun cell => cell.encodeData.length ≤ 160

def SmsSendManager.cdmaTextDelivery (m : SmsSendManager) (text : List UInt8) : List SplitInfo :=
  if m.isImsNetDomain && m.imsSmsCfg then m.imsTextDelivery isBoundary iconv text
  else
    (limited (Text.splitMessage isBoundary iconv .cdma text m.force7BitEncodeType false []).2).takeWhile
      fun cell => cell.encodeData.length ≤ 161

/-- The texts of the cells `TextBasedSmsDelivery` transmits. -/
def SmsSendManager.textBasedSmsDelivery (m : SmsSendManager) (desAddr text : List UInt8) :
    List (List UInt8) :=
  if desAddr = [] ∨ text = [] then []
  else
    match m.netWorkType with
    | .gsm => (m.gsmTextDelivery isBoundary iconv text).map SplitInfo.text
    | .cdma => (m.cdmaTextDelivery isBoundary iconv text).map SplitInfo.text
    | .unknown => []

end Split

/-! ## Where they coincide -/

/-- The splitter that is shown. -/
def SmsSendManager.shownSplitter (m : SmsSendManager) : Splitter :=
  match m.netWorkType with
  | .cdma => .gsm m.smsCodingNationalType
  | _ => .cdma

/-- The splitter that is sent with. -/
def SmsSendManager.sentSplitter (m : SmsSendManager) : Splitter :=
  match m.netWorkType with
  | .gsm => .gsm m.smsCodingNationalType
  | _ => if m.isImsNetDomain && m.imsSmsCfg then .gsm m.smsCodingNationalType else .cdma

/-- The coded text and the header for its language are one segment. -/
def IsSingle (d : Decoded) : Prop :=
  d.data.length + headerSize false d.langId ≤ singleSize d.codingType

/-- The whole coded text is converted back. -/
def Legible (iconv : Iconv) (d : Decoded) (text : List UInt8) : Prop :=
  convertSpiltToUtf8 iconv d.codingType d.data = text

/-- ASCII that the default alphabet has, but for the escape. -/
def Plain (iconv : Iconv) (text : List UInt8) : Prop :=
  ∃ units, iconv.utf8ToUtf16 text = some units ∧
    ∀ c ∈ units, c ≤ 0x7F ∧ c ≠ 0x1B ∧ (gsm7bitDefMap c).isSome = true

/-- Texts that are coded alike, or are one segment for both, or are cut at the same
characters. -/
def Coincide (isBoundary : List UInt16 → Nat → Bool) (iconv : Iconv) (m : SmsSendManager)
    (text : List UInt8) : Prop :=
  let shown := decoded iconv m.shownSplitter text false []
  let sent := decoded iconv m.sentSplitter text m.force7BitEncodeType []
  m.netWorkType = .unknown ∨
    (shown = sent ∧ (sent.segments isBoundary false).length ≤ maxSegmentNum) ∨
    (IsSingle shown ∧ IsSingle sent ∧ Legible iconv shown text ∧ Legible iconv sent text) ∨
    (Plain iconv text ∧ text.length ≤ maxSegmentNum * 153 ∧ (IsSingle shown ↔ IsSingle sent))

section Texts

variable {isBoundary : List UInt16 → Nat → Bool} {iconv : Iconv} {d : Decoded}

theorem pos_of_mem_splitFixed {data : List UInt8} {segSize : Nat} (hs : 0 < segSize)
    {piece : List UInt8} (h : piece ∈ splitFixed data segSize (ceilDiv data.length segSize)) :
    0 < piece.length := by
  have hlt := ceilDiv_mul_lt data.length hs
  cases hcount : ceilDiv data.length segSize with
  | zero => simp [hcount, splitFixed] at h
  | succ k =>
      rw [hcount, Nat.succ_mul] at hlt
      rw [hcount, splitFixed_succ, List.mem_append, List.mem_map, List.mem_singleton] at h
      obtain ⟨i, hi, rfl⟩ | rfl := h
      · have hik : (i + 1) * segSize ≤ k * segSize :=
          Nat.mul_le_mul_right _ (List.mem_range.1 hi)
        rw [Nat.succ_mul] at hik
        rw [List.length_take, List.length_drop]
        omega
      · rw [List.length_drop]
        omega

theorem pos_of_mem_splitUnits {fullData : List UInt16} {fuel index : Nat}
    (hlt : index < fullData.length) {piece : List UInt16}
    (h : piece ∈ splitUnits isBoundary 67 fullData fuel index) : 0 < piece.length := by
  induction fuel generalizing index with
  | zero =>
      rw [splitUnits, List.mem_singleton] at h
      rw [h, List.length_drop]
      omega
  | succ fuel ih =>
      have hnext := lt_findNextUnicodePosition isBoundary index (by decide : 0 < 67) fullData
      have hle := findNextUnicodePosition_le isBoundary index 67 fullData
      rw [splitUnits] at h
      split at h
      · obtain rfl | h := List.mem_cons.1 h
        · rw [List.length_take, List.length_drop]
          omega
        · exact ih (by omega) h
      · rw [List.mem_singleton.1 h, List.length_drop]
        omega

theorem length_of_mem_segments (hc : d.Coded) {piece : List UInt8}
    (h : piece ∈ d.segments isBoundary false) : 0 < piece.length ∧ piece.length ≤ 160 := by
  by_cases hne : d.data = []
  · simp [segments_nil hne] at h
  have hpos := List.length_pos_iff.2 hne
  by_cases hone : d.data.length + headerSize false d.langId ≤ singleSize d.codingType
  · rw [segments_single hc hne hone, List.mem_singleton] at h
    have hsingle : singleSize d.codingType ≤ 160 := by
      unfold singleSize
      split <;> decide
    subst h
    omega
  have hseveral := Nat.lt_of_not_le hone
  by_cases h7Bit : is7Bit d.codingType = true
  · rw [singleSize, if_pos h7Bit] at hseveral
    rw [segments_7Bit h7Bit hseveral hne] at h
    have hle := length_of_mem_splitFixed (by decide) h
    exact ⟨pos_of_mem_splitFixed (by decide) h, by omega⟩
  · have hoctet := (hc.scheme hne).resolve_left h7Bit
    rw [singleSize, if_neg h7Bit] at hseveral
    simp only [isOctet, Bool.or_eq_true, decide_eq_true_eq] at hoctet
    cases hoctet with
    | inl h8Bit =>
        rw [segments_8Bit h8Bit hseveral hne] at h
        have hle := length_of_mem_splitFixed (by decide) h
        exact ⟨pos_of_mem_splitFixed (by decide) h, by omega⟩
    | inr hucs2 =>
        have hlang := hc.octet_lang (by rw [hucs2]; rfl)
        have hheader : headerSize false d.langId = 0 := by simp [headerSize, hlang]
        rw [hheader] at hseveral
        have hmany : 134 < d.data.length := by
          unfold maxUcs2DataLen at hseveral
          omega
        have hhalf := length_ucs2Units d.data
        rw [segments_ucs2 hucs2 (by rw [hheader]; exact hseveral) hmany, List.mem_map] at h
        obtain ⟨units, hmem, rfl⟩ := h
        have hunits := pos_of_mem_splitUnits (by omega) hmem
        have hle := length_of_mem_splitUnits isBoundary (by decide) _ (by omega) hmem
        rw [length_ucs2Octets]
        omega

/-- The texts of the segments. -/
def texts (isBoundary : List UInt16 → Nat → Bool) (iconv : Iconv) (d : Decoded) :
    List (List UInt8) :=
  (d.segments isBoundary false).map (convertSpiltToUtf8 iconv d.codingType)

theorem map_text_splitMessage (splitter : Splitter) (text : List UInt8) (force7BitCode : Bool) :
    (Text.splitMessage isBoundary iconv splitter text force7BitCode false []).2.map SplitInfo.text =
      texts isBoundary iconv (decoded iconv splitter text force7BitCode []) := by
  simp only [Text.splitMessage, List.map_map, texts]
  rfl

theorem length_of_mem_cells {splitter : Splitter} {text : List UInt8} {force7BitCode : Bool}
    {cell : SplitInfo}
    (h : cell ∈ (Text.splitMessage isBoundary iconv splitter text force7BitCode false []).2) :
    0 < cell.encodeData.length ∧ cell.encodeData.length ≤ 160 := by
  simp only [Text.splitMessage, List.mem_map] at h
  obtain ⟨piece, hmem, rfl⟩ := h
  exact length_of_mem_segments (decodeMessage_coded iconv splitter _ text) hmem

theorem mem_of_mem_limited {cells : List SplitInfo} {cell : SplitInfo} (h : cell ∈ limited cells) :
    cell ∈ cells := by
  unfold limited at h
  split at h
  · simp at h
  · exact h

/-- No cell is too long to be sent. -/
theorem textBasedSmsDelivery_eq {m : SmsSendManager} (hnet : m.netWorkType ≠ .unknown)
    {desAddr : List UInt8} (hdes : desAddr ≠ []) (text : List UInt8) :
    m.textBasedSmsDelivery isBoundary iconv desAddr text =
      (limited (Text.splitMessage isBoundary iconv m.sentSplitter text m.force7BitEncodeType
        false []).2).map SplitInfo.text := by
  have hall : ∀ (splitter : Splitter), ∀ cell ∈ limited (Text.splitMessage isBoundary iconv splitter
      text m.force7BitEncodeType false []).2,
      0 < cell.encodeData.length ∧ cell.encodeData.length ≤ 160 :=
    fun splitter cell hmem => length_of_mem_cells (mem_of_mem_limited hmem)
  unfold SmsSendManager.textBasedSmsDelivery
  split
  · rename_i hnil
    obtain rfl := hnil.resolve_left hdes
    have hsplit : (Text.splitMessage isBoundary iconv m.sentSplitter [] m.force7BitEncodeType
        false []).2 = [] := by
      simp only [Text.splitMessage]
      rw [segments_nil decoded_nil]
      rfl
    rw [hsplit]
    rfl
  · unfold SmsSendManager.sentSplitter
    cases hm : m.netWorkType with
    | unknown => exact absurd hm hnet
    | gsm =>
        simp only [SmsSendManager.gsmTextDelivery]
        congr 1
        rw [List.takeWhile_eq_self_iff]
        intro cell hmem
        have hlen := hall _ cell hmem
        rw [Bool.and_eq_true, decide_eq_true_eq, decide_eq_true_eq]
        omega
    | cdma =>
        simp only [SmsSendManager.cdmaTextDelivery]
        congr 1
        split
        · rw [SmsSendManager.imsTextDelivery, List.filter_eq_self]
          intro cell hmem
          simpa using (hall _ cell hmem).2
        · rw [List.takeWhile_eq_self_iff]
          intro cell hmem
          have hlen := hall _ cell hmem
          simp
          omega

theorem splitMessage_eq {m : SmsSendManager} (hnet : m.netWorkType ≠ .unknown)
    (text : List UInt8) :
    m.splitMessage isBoundary iconv text =
      texts isBoundary iconv (decoded iconv m.shownSplitter text false []) := by
  unfold SmsSendManager.splitMessage SmsSendManager.shownSplitter
  cases hm : m.netWorkType with
  | gsm => exact map_text_splitMessage _ _ _
  | cdma => exact map_text_splitMessage _ _ _
  | unknown => exact absurd hm hnet

/-- Each octet of the coded text is converted on its own. -/
def Letterwise (iconv : Iconv) (d : Decoded) (text : List UInt8) : Prop :=
  is7Bit d.codingType = true ∧ ∃ f : UInt8 → UInt8, d.data.map f = text ∧
    ∀ piece : List UInt8, (∀ octet ∈ piece, octet ∈ d.data) →
      convertSpiltToUtf8 iconv d.codingType piece = piece.map f

theorem mem_of_mem_splitFixed {data : List UInt8} {segSize segCount : Nat} {piece : List UInt8}
    (h : piece ∈ splitFixed data segSize segCount) : ∀ octet ∈ piece, octet ∈ data := by
  obtain ⟨i, -, rfl⟩ := List.mem_map.1 h
  exact fun octet hmem => List.mem_of_mem_drop (List.mem_of_mem_take hmem)

theorem map_splitFixed (f : UInt8 → UInt8) (data : List UInt8) (segSize segCount : Nat) :
    (splitFixed data segSize segCount).map (List.map f) =
      splitFixed (data.map f) segSize segCount := by
  simp only [splitFixed, List.map_map, List.length_map]
  refine List.map_congr_left fun i _ => ?_
  simp only [Function.comp_apply, List.map_take, List.map_drop]

open Classical in
theorem texts_letterwise {text : List UInt8} (hc : d.Coded) (hne : text ≠ [])
    (h : Letterwise iconv d text) :
    texts isBoundary iconv d =
      if IsSingle d then [text] else splitFixed text 153 (ceilDiv text.length 153) := by
  obtain ⟨h7Bit, f, rfl, hconvert⟩ := h
  have hdata : d.data ≠ [] := by simpa using hne
  unfold texts
  split
  · rename_i hone
    rw [segments_single hc hdata hone, List.map_singleton, hconvert d.data fun _ hmem => hmem]
  · rename_i hone
    rw [IsSingle, singleSize, if_pos h7Bit, Nat.not_le] at hone
    rw [segments_7Bit h7Bit hone hdata, List.length_map, ← map_splitFixed]
    exact List.map_congr_left fun piece hmem => hconvert piece (mem_of_mem_splitFixed hmem)

theorem letterwise_ascii (text : List UInt8) {langId : UInt8} :
    Letterwise iconv ⟨.dataCodingAscii7Bit, langId, text⟩ text :=
  ⟨rfl, id, List.map_id _, fun piece _ => (List.map_id piece).symm⟩

end Texts

section Plain

variable {iconv : Iconv} (hf : iconv.Faithful) {text : List UInt8} {units : List UInt16}
  (hutf8 : iconv.utf8ToUtf16 text = some units)
  (hplain : ∀ c ∈ units, c ≤ 0x7F ∧ c ≠ 0x1B ∧ (gsm7bitDefMap c).isSome = true)
include hf hutf8 hplain

theorem text_of_plain : units.map UInt16.toUInt8 = text := by
  rw [← hf.back hutf8, hf.ascii fun c hmem => (hplain c hmem).1]

theorem letterwise_septets {langId : UInt8} :
    Letterwise iconv ⟨.dataCoding7Bit, langId, units.map forcedSeptet⟩ text := by
  have hletter : ∀ c ∈ units, IsLetter (forcedSeptet c) ∧ letter (forcedSeptet c) = c := by
    intro c hmem
    obtain ⟨-, hesc, hsome⟩ := hplain c hmem
    obtain ⟨septet, hdef⟩ := Option.isSome_iff_exists.1 hsome
    obtain ⟨hlt, hget⟩ := gsm7bitDefMap_eq_some hdef
    rw [forcedSeptet, hdef, Option.getD_some]
    refine ⟨⟨hlt, ?_⟩, hget⟩
    rintro rfl
    exact hesc hget.symm
  refine ⟨rfl, fun septet => (letter septet).toUInt8, ?_, ?_⟩
  · rw [← text_of_plain hf hutf8 hplain, List.map_map]
    refine List.map_congr_left fun c hmem => ?_
    simp only [Function.comp_apply]
    rw [(hletter c hmem).2]
  · intro piece hpiece
    have hoctets : ∀ septet ∈ piece, IsLetter septet ∧ letter septet ≤ 0x7F := by
      intro septet hmem
      obtain ⟨c, hc, rfl⟩ := List.mem_map.1 (hpiece septet hmem)
      rw [(hletter c hc).2]
      exact ⟨(hletter c hc).1, (hplain c hc).1⟩
    have hreads : ∀ token ∈ piece.map fun septet => (letter septet, [septet]), Reads 0 token := by
      rw [List.forall_mem_map]
      exact fun septet hmem => .septet (hoctets septet hmem).1.1 (hoctets septet hmem).1.2
    have hread := gsm7bitToUtf8_reads iconv hreads
    rw [List.flatMap_map, List.flatMap_singleton', List.map_map] at hread
    rw [convertSpiltToUtf8, hread, hf.ascii, List.map_map]
    · rfl
    · rw [List.forall_mem_map]
      exact fun septet hmem => (hoctets septet hmem).2

theorem letterwise_decoded (hne : text ≠ []) (hlen : text.length ≤ maxSegmentNum * 153)
    (splitter : Splitter) (force7BitCode : Bool) :
    Letterwise iconv (decoded iconv splitter text force7BitCode []) text := by
  have hroom : text.length ≤ maxDecodeLen := by
    have hbound : maxSegmentNum * 153 ≤ maxDecodeLen := by decide
    omega
  have hunits := hf.length_le hutf8
  have htext := text_of_plain hf hutf8 hplain
  have hextra : ∀ c ∈ units, extCharMap.lookup c = none := by
    intro c hmem
    cases hlook : extCharMap.lookup c with
    | none => rfl
    | some extType =>
        have hdef := (hplain c hmem).2.2
        rw [extCharMap_not_default _ (mem_of_lookup hlook)] at hdef
        simp at hdef
  have hdefault (national : SmsCodingNationalType) :
      units.map (autoToken (get7BitCodingExtMap national)) =
        units.map fun c => (c, [forcedSeptet c]) := by
    refine List.map_congr_left fun c hmem => ?_
    obtain ⟨septet, hdef⟩ := Option.isSome_iff_exists.1 (hplain c hmem).2.2
    simp [autoToken, forcedSeptet, hdef]
  have hcount : Text.septetCount units = units.length := by
    have hone : units.map septets = units.map fun _ => 1 :=
      List.map_congr_left fun c hmem => if_pos (hplain c hmem).2.2
    rw [Text.septetCount, hone]
    simp
  have hcoded : CodedText splitter (requestedScheme force7BitCode []) text units
      (decoded iconv splitter text force7BitCode []) :=
    decoded_codedText hutf8 hne (.inr hroom)
  generalize decoded iconv splitter text force7BitCode [] = d at hcoded ⊢
  cases hcoded with
  | octets hrequested =>
      cases force7BitCode <;> simp [requestedScheme, ctSmsc] at hrequested
  | forcedAscii _ _ => exact letterwise_ascii text
  | forced _ _ =>
      have hdata : ucs2ToGsm7bit maxDecodeLen units = (units.map forcedSeptet, 0) := by
        rw [ucs2ToGsm7bit, getLangType_default hextra,
          ucs2ToGsm7bitLoop_default units 0 (by decide), List.take_of_length_le (by simp; omega)]
        rfl
      rw [hdata]
      exact letterwise_septets hf hutf8 hplain
  | septets _ _ hdest =>
      obtain ⟨k, rfl, -, hall⟩ := ucs2ToGsm7bitAutoLoop_eq (by decide) hdest
      rw [List.take_of_length_le (hall (by simp; omega)), List.nil_append, hdefault,
        List.flatMap_map, ← List.map_eq_flatMap]
      exact letterwise_septets hf hutf8 hplain
  | ascii _ _ hdest =>
      obtain ⟨k, rfl, -, hall⟩ := ucs2ToAsciiLoop_eq (by decide) hdest
      rw [List.take_of_length_le (hall (by simp; omega)), List.nil_append, htext]
      exact letterwise_ascii text
  | ucs2 _ h7Bit hascii =>
      exfalso
      cases splitter with
      | gsm national =>
          exact ucs2ToGsm7bitAutoLoop_ne_none (fun c hmem => .inl (hplain c hmem).2.2) []
            (h7Bit national rfl)
      | cdma =>
          exact ucs2ToAsciiLoop_ne_none (fun c hmem => (hplain c hmem).1) [] (hascii rfl)

end Plain

/-! ## What is shown is sent -/

section Agree

variable {isBoundary : List UInt16 → Nat → Bool} {iconv : Iconv} {m : SmsSendManager}
  {text : List UInt8}

theorem limited_texts {splitter : Splitter} {force7BitCode : Bool}
    (h : ((decoded iconv splitter text force7BitCode []).segments isBoundary false).length ≤
      maxSegmentNum) :
    (limited (Text.splitMessage isBoundary iconv splitter text force7BitCode false []).2).map
        SplitInfo.text =
      texts isBoundary iconv (decoded iconv splitter text force7BitCode []) := by
  have hcells : (Text.splitMessage isBoundary iconv splitter text force7BitCode false []).2.length =
      ((decoded iconv splitter text force7BitCode []).segments isBoundary false).length := by
    simp only [Text.splitMessage, List.length_map]
  rw [limited, if_neg (by omega), map_text_splitMessage]

theorem texts_single {d : Decoded} (hc : d.Coded) (hne : d.data ≠ []) (hone : IsSingle d)
    (hlegible : Legible iconv d text) : texts isBoundary iconv d = [text] := by
  rw [texts, segments_single hc hne hone, List.map_singleton, hlegible]

theorem data_ne_nil_of_legible (hf : iconv.Faithful) {d : Decoded} (hne : text ≠ [])
    (h : Legible iconv d text) : d.data ≠ [] := by
  intro hnil
  rw [Legible, hnil] at h
  apply hne
  rw [← h]
  unfold convertSpiltToUtf8
  split
  · exact hf.nil
  · exact hf.nil
  · rfl

theorem length_segments_of_letterwise {d : Decoded} (hc : d.Coded) (hne : text ≠ [])
    (hlen : text.length ≤ maxSegmentNum * 153) (h : Letterwise iconv d text) :
    (d.segments isBoundary false).length ≤ maxSegmentNum := by
  classical
  have htexts : (texts isBoundary iconv d).length = (d.segments isBoundary false).length := by
    rw [texts, List.length_map]
  have hlt := ceilDiv_mul_lt text.length (by decide : 0 < 153)
  unfold maxSegmentNum at hlen ⊢
  rw [← htexts, texts_letterwise hc hne h]
  split
  · simp
  · rw [length_splitFixed]
    omega

/-- The texts that are shown are those that are sent, where both splitters split alike. -/
theorem splitMessage_eq_sent (hf : iconv.Faithful) {desAddr : List UInt8} (hdes : desAddr ≠ [])
    (h : Coincide isBoundary iconv m text) :
    m.splitMessage isBoundary iconv text =
      m.textBasedSmsDelivery isBoundary iconv desAddr text := by
  classical
  by_cases hnet : m.netWorkType = .unknown
  · simp [SmsSendManager.splitMessage, SmsSendManager.textBasedSmsDelivery, hnet]
  rw [textBasedSmsDelivery_eq hnet hdes, splitMessage_eq hnet]
  by_cases hne : text = []
  · subst hne
    have hnone (splitter : Splitter) (force7BitCode : Bool) :
        (decoded iconv splitter [] force7BitCode []).segments isBoundary false = [] :=
      segments_nil decoded_nil
    rw [limited_texts (by rw [hnone]; exact Nat.zero_le _), texts, texts, hnone, hnone]
    rfl
  have hshown : (decoded iconv m.shownSplitter text false []).Coded :=
    decodeMessage_coded iconv _ _ text
  have hsent : (decoded iconv m.sentSplitter text m.force7BitEncodeType []).Coded :=
    decodeMessage_coded iconv _ _ text
  obtain hunknown | ⟨halike, hcount⟩ | ⟨honeShown, honeSent, hreadShown, hreadSent⟩ |
      ⟨⟨units, hutf8, hplain⟩, hlen, hsame⟩ := h
  · exact absurd hunknown hnet
  · rw [limited_texts hcount, halike]
  · have hdataShown := data_ne_nil_of_legible hf hne hreadShown
    have hdataSent := data_ne_nil_of_legible hf hne hreadSent
    have hcount : ((decoded iconv m.sentSplitter text m.force7BitEncodeType []).segments
        isBoundary false).length ≤ maxSegmentNum := by
      rw [segments_single hsent hdataSent honeSent, List.length_singleton]
      decide
    rw [limited_texts hcount, texts_single hshown hdataShown honeShown hreadShown,
      texts_single hsent hdataSent honeSent hreadSent]
  · have hletterShown := letterwise_decoded hf hutf8 hplain hne hlen m.shownSplitter false
    have hletterSent := letterwise_decoded hf hutf8 hplain hne hlen m.sentSplitter
      m.force7BitEncodeType
    rw [limited_texts (length_segments_of_letterwise hsent hne hlen hletterSent),
      texts_letterwise hshown hne hletterShown, texts_letterwise hsent hne hletterSent]
    simp only [hsame]

/-- On a GSM network a letter is shown and sent. -/
theorem splitMessage_eq_sent_letter :
    (SmsSendManager.mk .gsm .default false false false).splitMessage (fun _ _ => true) utf8Iconv
        [0x61] =
      (SmsSendManager.mk .gsm .default false false false).textBasedSmsDelivery (fun _ _ => true)
        utf8Iconv [0x31] [0x61] := by
  have hshown : decoded utf8Iconv .cdma [0x61] false [] = ⟨.dataCodingAscii7Bit, 0, [0x61]⟩ := by
    simp only [decoded, decodeMessage, cdmaUtf8ToAuto, utf8ToUtf16_letter]
    decide +kernel
  have hsent : decoded utf8Iconv (.gsm .default) [0x61] false [] =
      ⟨.dataCoding7Bit, 0, [0x61]⟩ := by
    simp only [decoded, decodeMessage, gsmUtf8ToAuto, utf8ToUtf16_letter]
    decide +kernel
  refine splitMessage_eq_sent utf8Iconv_faithful (by decide) (.inr (.inr (.inr ?_)))
  refine ⟨⟨[0x61], utf8ToUtf16_letter, forall_of_all (by decide +kernel)⟩, by decide, ?_⟩
  simp only [SmsSendManager.shownSplitter, SmsSendManager.sentSplitter, hshown, hsent]
  unfold IsSingle
  decide

/-- On a GSM network 81 brackets are shown as one segment and sent as two. -/
theorem splitMessage_ne_sent_brackets :
    (SmsSendManager.mk .gsm .default false false false).splitMessage (fun _ _ => true) asciiIconv
        (List.replicate 81 0x7B) ≠
      (SmsSendManager.mk .gsm .default false false false).textBasedSmsDelivery (fun _ _ => true)
        asciiIconv [0x31] (List.replicate 81 0x7B) := by
  decide +kernel

end Agree

end TelephonySms.Send
