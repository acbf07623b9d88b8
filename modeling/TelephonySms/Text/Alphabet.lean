import TelephonySms.Text.Gsm7bit

/-! # Coding and reading back

A text as the coders write it is read back by `Gsm7bitToUcs2` just when every character is
read from the octets written for it. `Ucs2ToGsm7bitAuto` so loses the escape character and
letters of the national tables that read as other letters, and `Ucs2ToGsm7bit` adds an octet
to every character it does not take from the default alphabet.
-/

namespace TelephonySms.Text

/-! ## Characters and the octets written for them -/

/-- A character and the octets a coder writes for it: a septet of the default alphabet, or an
escape and a septet. -/
inductive Coded : UInt16 × List UInt8 → Prop
  | septet {septet : UInt8} (hlt : septet < 0x80) :
      Coded (gsm7BitToUcs2.getD septet.toNat 0, [septet])
  | escaped {c : UInt16} {next : UInt8} (hdef : gsm7bitDefMap c = none) (hlt : next < 0x80)
      (hne : next ≠ 0x1B) : Coded (c, [0x1B, next])

theorem getD_mem_gsm7BitToUcs2 {septet : UInt8} (hlt : septet < 0x80) :
    gsm7BitToUcs2.getD septet.toNat 0 ∈ gsm7BitToUcs2 := by
  have hlen : septet.toNat < gsm7BitToUcs2.length := UInt8.lt_iff_toNat_lt.1 hlt
  rw [List.getD_eq_getElem?_getD, List.getElem?_eq_getElem hlen, Option.getD_some]
  exact List.getElem_mem hlen

/-- What is read from a septet stands in the default alphabet. -/
theorem isSome_gsm7bitDefMap {septet : UInt8} (hlt : septet < 0x80) :
    (gsm7bitDefMap (gsm7BitToUcs2.getD septet.toNat 0)).isSome := by
  rw [gsm7bitDefMap, Option.isSome_map, List.isSome_idxOf?]
  exact getD_mem_gsm7BitToUcs2 hlt

section Tokens

variable {tokens : List (UInt16 × List UInt8)}

theorem Coded.septet_lt (h : ∀ token ∈ tokens, Coded token) :
    ∀ septet ∈ tokens.flatMap Prod.snd, septet < 0x80 := by
  intro septet hmem
  rcases List.mem_flatMap.1 hmem with ⟨token, htoken, hin⟩
  cases h token htoken with
  | septet hlt => exact List.mem_singleton.1 hin ▸ hlt
  | escaped hdef hlt hne =>
      rcases List.mem_cons.1 hin with rfl | hnext
      · decide
      · exact List.mem_singleton.1 hnext ▸ hlt

theorem exists_gsm7bitToUcs2Loop (langId : UInt8) {src : List UInt8}
    (h : ∀ septet ∈ src, septet < 0x80) (result : UInt16) :
    ∃ ucs2, gsm7bitToUcs2Loop langId result src = some ucs2 := by
  fun_induction gsm7bitToUcs2Loop langId result src with
  | case1 => exact ⟨_, rfl⟩
  | case2 result septet hhigh => exact absurd (h septet (by simp)) (UInt8.not_lt.2 hhigh)
  | case3 => exact ⟨_, rfl⟩
  | case4 => exact ⟨_, rfl⟩
  | case5 result septet next src hhigh =>
      exact absurd (h septet (by simp)) (UInt8.not_lt.2 hhigh)
  | case6 result next src hlow ih =>
      rcases ih fun septet hmem => h septet (by simp [hmem]) with ⟨ucs2, hrest⟩
      exact ⟨_, by rw [hrest]; rfl⟩
  | case7 result septet next src hlow hne ih =>
      rcases ih fun septet hmem => h septet (List.mem_cons_of_mem _ hmem) with ⟨ucs2, hrest⟩
      exact ⟨_, by rw [hrest]; rfl⟩

variable (langId : UInt8)

/-- No more characters are read than are written. An escape of its own reads into the octets
behind it, of which one may then be left over. -/
theorem length_reads_le (h : ∀ token ∈ tokens, Coded token) :
    (∀ result ucs2, gsm7bitToUcs2Loop langId result (tokens.flatMap Prod.snd) = some ucs2 →
      ucs2.length ≤ tokens.length) ∧
    (∀ result septet ucs2, septet < 0x80 →
      gsm7bitToUcs2Loop langId result (septet :: tokens.flatMap Prod.snd) = some ucs2 →
      ucs2.length ≤ tokens.length + 1) := by
  induction tokens with
  | nil =>
      refine ⟨fun result ucs2 h => ?_, fun result septet ucs2 hlt h => ?_⟩
      · cases h
        exact Nat.le_refl 0
      · by_cases hescape : septet = 0x1B
        · subst hescape
          cases h
          exact Nat.le_refl 1
        · rw [gsm7bitToUcs2Loop.eq_def] at h
          simp only [List.flatMap_nil, UInt8.not_le.2 hlt, hescape, if_false] at h
          cases h
          exact Nat.le_refl 1
  | cons token tokens ih =>
      rcases List.forall_mem_cons.1 h with ⟨htoken, htokens⟩
      rcases ih htokens with ⟨hwhole, hleft⟩
      have hfirst : ∀ result ucs2,
          gsm7bitToUcs2Loop langId result ((token :: tokens).flatMap Prod.snd) = some ucs2 →
            ucs2.length ≤ tokens.length + 1 := by
        intro result ucs2 h
        rw [List.flatMap_cons] at h
        cases htoken with
        | septet hlt => exact hleft result _ ucs2 hlt h
        | escaped hdef hlt hne =>
            rw [List.cons_append, List.singleton_append, gsm7bitToUcs2Loop_escape,
              Option.map_eq_some_iff] at h
            rcases h with ⟨text, htext, rfl⟩
            exact Nat.succ_le_succ (hwhole _ _ htext)
      refine ⟨hfirst, fun result septet ucs2 hlt h => ?_⟩
      by_cases hescape : septet = 0x1B
      · subst hescape
        rw [List.flatMap_cons] at h
        cases htoken with
        | septet =>
            rw [List.singleton_append, gsm7bitToUcs2Loop_escape, Option.map_eq_some_iff] at h
            rcases h with ⟨text, htext, rfl⟩
            have hle := hwhole _ _ htext
            simp only [List.length_cons]
            omega
        | escaped hdef hnext hne =>
            rw [List.cons_append, List.singleton_append, gsm7bitToUcs2Loop_escape,
              Option.map_eq_some_iff] at h
            rcases h with ⟨text, htext, rfl⟩
            exact Nat.succ_le_succ (hleft _ _ _ hnext htext)
      · rw [gsm7bitToUcs2Loop_septet hlt hescape, Option.map_eq_some_iff] at h
        rcases h with ⟨text, htext, rfl⟩
        exact Nat.succ_le_succ (hfirst _ _ htext)

/-- An escape character in front of others reads into the octets of the one behind it, and
that one is missing then or is another. -/
theorem eq_nil_of_reads_escape (h : ∀ token ∈ tokens, Coded token) {result : UInt16}
    (hback : gsm7bitToUcs2Loop langId result (0x1B :: tokens.flatMap Prod.snd) =
      some (0x1B :: tokens.map Prod.fst)) : tokens = [] := by
  cases tokens with
  | nil => rfl
  | cons token tokens =>
      exfalso
      rcases List.forall_mem_cons.1 h with ⟨htoken, htokens⟩
      rcases length_reads_le langId htokens with ⟨hwhole, -⟩
      rw [List.flatMap_cons, List.map_cons] at hback
      cases htoken with
      | septet hlt =>
          rw [List.singleton_append, gsm7bitToUcs2Loop_escape, Option.map_eq_some_iff] at hback
          rcases hback with ⟨text, htext, heq⟩
          have hle := hwhole _ _ htext
          rw [(List.cons.inj heq).2, List.length_cons, List.length_map] at hle
          omega
      | escaped hdef hlt hne =>
          rw [List.cons_append, List.singleton_append, gsm7bitToUcs2Loop_escape,
            gsm7bitToUcs2Loop_septet hlt hne, Option.map_map, Option.map_eq_some_iff] at hback
          rcases hback with ⟨text, -, heq⟩
          have hsome := isSome_gsm7bitDefMap hlt
          rw [(List.cons.inj (List.cons.inj heq).2).1, hdef] at hsome
          cases hsome

/-- A text that is read back is read character by character from what is written for it. -/
theorem reads_of_reads_back (h : ∀ token ∈ tokens, Coded token) {result : UInt16}
    (hresult : result ≠ 0x1B)
    (hback : gsm7bitToUcs2Loop langId result (tokens.flatMap Prod.snd) =
      some (tokens.map Prod.fst)) : ∀ token ∈ tokens, Reads langId token := by
  induction tokens generalizing result with
  | nil => simp
  | cons token tokens ih =>
      rcases List.forall_mem_cons.1 h with ⟨htoken, htokens⟩
      rw [List.flatMap_cons, List.map_cons] at hback
      cases htoken with
      | @septet septet hlt =>
          rw [List.singleton_append] at hback
          by_cases hescape : septet = 0x1B
          · subst hescape
            obtain rfl := eq_nil_of_reads_escape langId htokens hback
            exact absurd (List.cons.inj (Option.some.inj hback)).1 hresult
          · rw [gsm7bitToUcs2Loop_septet hlt hescape, Option.map_eq_some_iff] at hback
            rcases hback with ⟨text, hmore, htext⟩
            rcases List.cons.inj htext with ⟨-, rfl⟩
            have htable : MsgLangInfo.table ⟨false, false, 0, 0⟩ = some gsm7BitToUcs2 := rfl
            have hne : gsm7BitToUcs2.getD septet.toNat 0 ≠ 0x1B := fun hget =>
              hescape ((MsgLangInfo.table_eq_escape_iff htable hlt).1 hget)
            exact List.forall_mem_cons.2 ⟨.septet hlt hescape, ih htokens hne hmore⟩
      | @escaped c next hdef hlt hescape =>
          rw [List.cons_append, List.singleton_append, gsm7bitToUcs2Loop_escape,
            Option.map_eq_some_iff] at hback
          rcases hback with ⟨text, hmore, htext⟩
          rcases List.cons.inj htext with ⟨hc, rfl⟩
          have hne : c ≠ 0x1B := by
            rintro rfl
            rw [show gsm7bitDefMap 0x1B = some 0x1B by decide] at hdef
            cases hdef
          have hreads : Reads langId (_, [0x1B, next]) := .escaped next
          rw [hc] at hmore hreads
          exact List.forall_mem_cons.2 ⟨hreads, ih htokens hne hmore⟩

theorem reads_back_iff (h : ∀ token ∈ tokens, Coded token) {result : UInt16}
    (hresult : result ≠ 0x1B) :
    gsm7bitToUcs2Loop langId result (tokens.flatMap Prod.snd) = some (tokens.map Prod.fst) ↔
      ∀ token ∈ tokens, Reads langId token :=
  ⟨reads_of_reads_back langId h hresult, fun hreads => gsm7bitToUcs2Loop_reads hreads result⟩

/-- The same for octets that are read from an array, behind a single-shift header. -/
theorem gsm7bitToUcs2_eq_text_iff (h : ∀ token ∈ tokens, Coded token) {capacity : Nat}
    (hne : tokens.flatMap Prod.snd ≠ [])
    (hcapacity : 2 * (tokens.flatMap Prod.snd).length < capacity) :
    MsgLangInfo.gsm7bitToUcs2 ⟨true, false, langId, 0⟩ capacity (tokens.flatMap Prod.snd) =
        .text (tokens.map Prod.fst) ↔ ∀ token ∈ tokens, Reads langId token := by
  rcases exists_gsm7bitToUcs2Loop langId (Coded.septet_lt h) 0 with ⟨ucs2, hucs2⟩
  have htext : MsgLangInfo.gsm7bitToUcs2Loop ⟨true, false, langId, 0⟩ capacity 0
      (tokens.flatMap Prod.snd) = .text ucs2 :=
    MsgLangInfo.gsm7bitToUcs2Loop_eq_text rfl hcapacity (Coded.septet_lt h) hucs2
  rw [← reads_back_iff langId h (show (0 : UInt16) ≠ 0x1B by decide), hucs2,
    MsgLangInfo.gsm7bitToUcs2, if_neg (by simp only [hne, false_or]; omega), htext,
    Conversion.text.injEq, Option.some.injEq]

end Tokens

/-! ## `Ucs2ToGsm7bitAuto` -/

/-- The shift a reader finds in the header of a text of this type. -/
def SmsCodingNationalType.langInfo (national : SmsCodingNationalType) : MsgLangInfo :=
  ⟨true, false, national.langId, 0⟩

section National

variable {national : SmsCodingNationalType}

/-- The octets behind an escape are septets and no escapes. -/
theorem septet_of_lookup {c : UInt16} {septet : UInt8}
    (h : (get7BitCodingExtMap national).lookup c = some septet) :
    septet < 0x80 ∧ septet ≠ 0x1B := by
  have hall : ∀ entry ∈ gsm7bitExtMap ++ turkishMap ++ spanishMap ++ portuMap,
      entry.2 < 0x80 ∧ entry.2 ≠ 0x1B := forall_of_all (by decide)
  have hmem := mem_of_lookup h
  refine hall (c, septet) ?_
  cases national <;> simp only [get7BitCodingExtMap] at hmem <;> simp [hmem]

/-- The character of a code that is misread is another one. -/
theorem misread_of_escapeToUcs2 {c : UInt16} {septet : UInt8}
    (h : (get7BitCodingExtMap national).lookup c = some septet)
    (hback : escapeToUcs2 national.langId septet = c) : misread national c = false := by
  have hall : ∀ entry ∈ get7BitCodingExtMap national,
      escapeToUcs2 national.langId entry.2 = entry.1 → misread national entry.1 = false := by
    cases national with
    | turkish => exact forall_of_all (by decide)
    | portuguese => exact forall_of_all (by decide)
    | _ => exact fun _ _ _ => rfl
  exact hall (c, septet) (mem_of_lookup h) hback

theorem misread_default {c : UInt16} {septet : UInt8} (h : gsm7bitDefMap c = some septet) :
    misread national c = false := by
  have hall : ∀ c ∈ gsm7BitToUcs2, misread .turkish c = false ∧ misread .portuguese c = false :=
    forall_of_all (by decide)
  rcases gsm7bitDefMap_eq_some h with ⟨hlt, rfl⟩
  have hmem := getD_mem_gsm7BitToUcs2 hlt
  cases national with
  | turkish => exact (hall _ hmem).1
  | portuguese => exact (hall _ hmem).2
  | _ => rfl

theorem coded_autoToken {c : UInt16} (h : Known (get7BitCodingExtMap national) c) :
    Coded (autoToken (get7BitCodingExtMap national) c) := by
  unfold autoToken
  cases hdef : gsm7bitDefMap c with
  | some septet =>
      rcases gsm7bitDefMap_eq_some hdef with ⟨hlt, hget⟩
      have hcoded : Coded (_, [septet]) := .septet hlt
      rwa [hget] at hcoded
  | none =>
      rw [Known, hdef] at h
      rcases Option.isSome_iff_exists.1 (h.resolve_left (by simp)) with ⟨septet, hext⟩
      rcases septet_of_lookup hext with ⟨hlt, hne⟩
      rw [hext]
      exact .escaped hdef hlt hne

theorem reads_autoToken_iff {c : UInt16} (h : Known (get7BitCodingExtMap national) c) :
    Reads national.langId (autoToken (get7BitCodingExtMap national) c) ↔
      c ≠ 0x1B ∧ misread national c = false := by
  refine ⟨fun hreads => ?_, fun hc => reads_autoToken h hc.1 hc.2⟩
  unfold autoToken at hreads
  cases hdef : gsm7bitDefMap c with
  | some septet =>
      refine ⟨?_, misread_default hdef⟩
      rintro rfl
      obtain rfl : 0x1B = septet :=
        Option.some.inj (hdef ▸ show some 0x1B = gsm7bitDefMap 0x1B by decide)
      rw [hdef] at hreads
      generalize hc : (0x1B : UInt16) = c at hreads
      cases hreads with
      | septet hlt hne => exact hne rfl
  | none =>
      rw [Known, hdef] at h
      rcases Option.isSome_iff_exists.1 (h.resolve_left (by simp)) with ⟨septet, hext⟩
      refine ⟨?_, misread_of_escapeToUcs2 hext ?_⟩
      · rintro rfl
        rw [show gsm7bitDefMap 0x1B = some 0x1B by decide] at hdef
        cases hdef
      · simp only [hdef, hext] at hreads
        generalize hc : c = c' at hreads
        cases hreads with
        | escaped next => rfl

/-- A text that `Ucs2ToGsm7bitAuto` writes in full reads back just when it has no escape
character and no letter that is misread. -/
theorem gsm7bitToUcs2_ucs2ToGsm7bitAuto_iff {maxLength capacity : Nat} {src : List UInt16}
    {dest : List UInt8} (hsrc : src ≠ [])
    (hauto : ucs2ToGsm7bitAuto maxLength src national = some dest)
    (hfits : septetCount src ≤ maxLength) (hcapacity : 2 * dest.length < capacity) :
    national.langInfo.gsm7bitToUcs2 capacity dest = .text src ↔
      ∀ c ∈ src, c ≠ 0x1B ∧ misread national c = false := by
  rcases List.exists_cons_of_ne_nil hsrc with ⟨c, rest, hcons⟩
  have hpos : 0 < septetCount src := by
    have hseptets := septets_pos c
    rw [hcons, septetCount_cons]
    omega
  obtain ⟨k, hdest, hknown, hall⟩ :=
    ucs2ToGsm7bitAutoLoop_eq (by simpa using Nat.lt_of_lt_of_le hpos hfits) hauto
  have htake : src.take k = src := List.take_of_length_le (hall (by simpa using hfits))
  rw [htake] at hdest hknown
  rw [List.nil_append] at hdest
  subst hdest
  have hcoded : ∀ token ∈ src.map (autoToken (get7BitCodingExtMap national)), Coded token := by
    intro token hmem
    rcases List.mem_map.1 hmem with ⟨c, hc, rfl⟩
    exact coded_autoToken (hknown c hc)
  have hne : (src.map (autoToken (get7BitCodingExtMap national))).flatMap Prod.snd ≠ [] := by
    intro hnil
    have hlen := length_autoToken (hknown c (hcons ▸ List.mem_cons_self))
    have hseptets := septets_pos c
    rw [hcons, List.map_cons, List.flatMap_cons] at hnil
    rw [(List.append_eq_nil_iff.1 hnil).1, List.length_nil] at hlen
    omega
  have hback := gsm7bitToUcs2_eq_text_iff national.langId hcoded hne hcapacity
  rw [List.map_map, show Prod.fst ∘ autoToken (get7BitCodingExtMap national) = id from rfl,
    List.map_id, List.forall_mem_map] at hback
  rw [SmsCodingNationalType.langInfo, hback]
  exact forall₂_congr fun c hc => reads_autoToken_iff (hknown c hc)

/-- A text with letters of both alphabets. -/
theorem gsm7bitToUcs2_ucs2ToGsm7bitAuto_turkish :
    (SmsCodingNationalType.langInfo .turkish).gsm7bitToUcs2 160 [0x47, 0x1B, 0x67] =
        .text [0x0047, 0x011F] ↔
      ∀ c ∈ ([0x0047, 0x011F] : List UInt16), c ≠ 0x1B ∧ misread .turkish c = false :=
  gsm7bitToUcs2_ucs2ToGsm7bitAuto_iff (by decide)
    (show ucs2ToGsm7bitAuto 160 [0x0047, 0x011F] .turkish = some [0x47, 0x1B, 0x67] by decide)
    (by decide) (by decide)

/-- In Portuguese `Ã` is written as `Â` is. -/
theorem not_reads_back_portuguese :
    ucs2ToGsm7bitAuto 160 [0x00C3] .portuguese = some [0x1B, 0x61] ∧ septetCount [0x00C3] ≤ 160 ∧
      (SmsCodingNationalType.langInfo .portuguese).gsm7bitToUcs2 160 [0x1B, 0x61] ≠
        .text [0x00C3] := by
  decide

end National

/-! ## `Ucs2ToGsm7bit` -/

/-- The octets of a character with `maxLength` octets of the array left. -/
def ucs2ToGsm7bitOctets (currType : MsgCharType) (maxLength : Nat) (inText : UInt16) :
    List UInt8 :=
  match gsm7bitDefMap inText with
  | some septet => [septet]
  | none => ucs2ToGsm7bitOther currType maxLength inText

/-- The characters `Ucs2ToGsm7bit` comes to behind `written` octets, each with the octets that
are written for it. -/
def ucs2ToGsm7bitWrites (currType : MsgCharType) (maxLength : Nat) :
    Nat → List UInt16 → List (UInt16 × List UInt8)
  | _, [] => []
  | written, inText :: src =>
      let octets := ucs2ToGsm7bitOctets currType (maxLength - written) inText
      (inText, octets) ::
        if maxLength ≤ written + octets.length then []
        else ucs2ToGsm7bitWrites currType maxLength (written + octets.length) src

/-- What is written is written character by character. -/
theorem ucs2ToGsm7bitLoop_eq_writes (currType : MsgCharType) (maxLength : Nat) (src : List UInt16)
    (dest : List UInt8) (langId : UInt8) :
    (ucs2ToGsm7bitLoop currType maxLength (dest, langId) src).1 =
      dest ++ (ucs2ToGsm7bitWrites currType maxLength dest.length src).flatMap Prod.snd := by
  induction src generalizing dest langId with
  | nil => simp [ucs2ToGsm7bitLoop, ucs2ToGsm7bitWrites]
  | cons c src ih =>
      rw [ucs2ToGsm7bitLoop, ucs2ToGsm7bitWrites]
      cases hdef : gsm7bitDefMap c with
      | some septet =>
          simp only [List.length_append, ucs2ToGsm7bitOctets, hdef]
          split
          · simp
          · rw [ih]
            simp
      | none =>
          simp only [List.length_append, ucs2ToGsm7bitOctets, hdef]
          split
          · simp
          · rw [ih]
            simp

/-- One septet for a character of the default alphabet or its replacement, two for one of the
extension table. -/
def exactOctets (currType : MsgCharType) (inText : UInt16) : List UInt8 :=
  match gsm7bitDefMap inText with
  | some septet => [septet]
  | none =>
      match currType.extMap.lookup inText with
      | some septet => [0x1B, septet]
      | none => [findReplaceChar inText]

/-- Every character has its octets, they fit, and they read back as the text with its
replacements. -/
structure ForcedExactly (maxLength : Nat) (src : List UInt16) : Prop where
  content : ∀ write ∈ ucs2ToGsm7bitWrites (getLangType src) maxLength 0 src,
    write.2 = exactOctets (getLangType src) write.1
  length_le : (ucs2ToGsm7bit maxLength src).1.length ≤ maxLength
  back : ∀ capacity, 2 * (ucs2ToGsm7bit maxLength src).1.length < capacity →
    MsgLangInfo.gsm7bitToUcs2 ⟨true, false, (ucs2ToGsm7bit maxLength src).2, 0⟩ capacity
        (ucs2ToGsm7bit maxLength src).1 =
      .text ((ucs2ToGsm7bitWrites (getLangType src) maxLength 0 src).map fun write =>
        replacedIn (getLangType src) write.1)

section Forced

variable {currType : MsgCharType} {maxLength written : Nat} {src : List UInt16}

theorem ucs2ToGsm7bitOctets_single {c : UInt16} (h : Single currType c) (room : Nat) :
    ucs2ToGsm7bitOctets currType room c = [forcedSeptet c] ∧
      exactOctets currType c = [forcedSeptet c] ∧ replacedIn currType c = replaced c := by
  unfold ucs2ToGsm7bitOctets exactOctets forcedSeptet replacedIn replaced
  cases hdef : gsm7bitDefMap c with
  | some septet => simp
  | none =>
      obtain rfl : currType = .msgDefaultChar := h.resolve_right (by simp [hdef])
      simp [MsgCharType.extMap, ucs2ToGsm7bitOther]

/-- Other characters have an octet too many, or too few at the end of the array. -/
theorem ucs2ToGsm7bitOctets_ne {c : UInt16} (h : ¬ Single currType c) {room : Nat}
    (hroom : 0 < room) : ucs2ToGsm7bitOctets currType room c ≠ exactOctets currType c := by
  have hnone : gsm7bitDefMap c = none := by
    cases hdef : gsm7bitDefMap c with
    | none => rfl
    | some septet => exact absurd (.inr (by rw [hdef]; rfl)) h
  have hzero : room ≠ 0 := by omega
  have hext (extMap : List (UInt16 × UInt8)) (exact : List UInt8)
      (hexact : exact.length = if (extMap.lookup c).isSome then 2 else 1) :
      findExt extMap room c ++ [0x00] ≠ exact := by
    intro heq
    rw [← heq, findExt, if_neg hzero] at hexact
    cases hlook : extMap.lookup c with
    | none => simp [hlook] at hexact
    | some septet =>
        by_cases hone : room ≤ 1 <;> simp [hlook, hone] at hexact
  have hlen : (exactOctets currType c).length =
      if (currType.extMap.lookup c).isSome then 2 else 1 := by
    simp only [exactOctets, hnone]
    cases currType.extMap.lookup c <;> rfl
  simp only [ucs2ToGsm7bitOctets, hnone]
  cases currType with
  | msgDefaultChar => exact absurd (.inl rfl) h
  | msgGsm7ExtChar => exact hext _ _ hlen
  | msgTurkishChar => exact hext _ _ hlen
  | msgSpanishChar => exact hext _ _ hlen
  | msgPortugueseChar => exact hext _ _ hlen

theorem ucs2ToGsm7bitWrites_single (hwritten : written < maxLength)
    (h : ∀ c ∈ src.take (maxLength - written), Single currType c) :
    ucs2ToGsm7bitWrites currType maxLength written src =
      (src.take (maxLength - written)).map fun c => (c, [forcedSeptet c]) := by
  induction src generalizing written with
  | nil => simp [ucs2ToGsm7bitWrites]
  | cons c src ih =>
      obtain ⟨room, hroom⟩ : ∃ room, maxLength - written = room + 1 :=
        ⟨maxLength - written - 1, by omega⟩
      rw [hroom, List.take_succ_cons, List.forall_mem_cons] at h
      rw [ucs2ToGsm7bitWrites, (ucs2ToGsm7bitOctets_single h.1 _).1, hroom, List.take_succ_cons,
        List.map_cons, List.length_singleton]
      by_cases hfull : maxLength ≤ written + 1
      · have hzero : room = 0 := by omega
        simp [hfull, hzero]
      · have hrest : maxLength - (written + 1) = room := by omega
        rw [if_neg hfull, ih (by omega) (by rw [hrest]; exact h.2), hrest]

/-- A character that is not written as one septet is not written exactly. -/
theorem single_of_content (hwritten : written < maxLength)
    (h : ∀ write ∈ ucs2ToGsm7bitWrites currType maxLength written src,
      write.2 = exactOctets currType write.1) :
    ∀ c ∈ src.take (maxLength - written), Single currType c := by
  induction src generalizing written with
  | nil => simp
  | cons c src ih =>
      obtain ⟨room, hroom⟩ : ∃ room, maxLength - written = room + 1 :=
        ⟨maxLength - written - 1, by omega⟩
      rw [ucs2ToGsm7bitWrites, List.forall_mem_cons] at h
      have hc : Single currType c := by
        by_contra hc
        exact ucs2ToGsm7bitOctets_ne hc (by omega) h.1
      rw [hroom, List.take_succ_cons, List.forall_mem_cons]
      refine ⟨hc, ?_⟩
      rw [(ucs2ToGsm7bitOctets_single hc _).1, List.length_singleton] at h
      by_cases hfull : maxLength ≤ written + 1
      · have hzero : room = 0 := by omega
        simp [hzero]
      · rw [if_neg hfull] at h
        have hrest := ih (by omega) h.2
        rwa [show maxLength - (written + 1) = room by omega] at hrest

theorem coded_forced (c : UInt16) : Coded (replaced c, [forcedSeptet c]) := by
  unfold replaced forcedSeptet
  cases hdef : gsm7bitDefMap c with
  | some septet =>
      rcases gsm7bitDefMap_eq_some hdef with ⟨hlt, hget⟩
      have hcoded : Coded (_, [septet]) := .septet hlt
      rwa [hget] at hcoded
  | none => exact .septet (findReplaceChar_septet c).1

theorem reads_forced_iff (langId : UInt8) (c : UInt16) :
    Reads langId (replaced c, [forcedSeptet c]) ↔ c ≠ 0x1B := by
  refine ⟨?_, reads_forced langId⟩
  rintro hreads rfl
  rw [show forcedSeptet 0x1B = 0x1B by decide] at hreads
  generalize replaced 0x1B = c at hreads
  cases hreads with
  | septet hlt hne => exact hne rfl

/-- Septets of single characters read back unless an escape is among them. -/
theorem back_single_iff (hpos : 0 < maxLength) (hsrc : src ≠ [])
    (h : ∀ c ∈ src.take maxLength, Single (getLangType src) c) {capacity : Nat}
    (hcapacity : 2 * (ucs2ToGsm7bit maxLength src).1.length < capacity) :
    MsgLangInfo.gsm7bitToUcs2 ⟨true, false, (ucs2ToGsm7bit maxLength src).2, 0⟩ capacity
          (ucs2ToGsm7bit maxLength src).1 =
        .text ((ucs2ToGsm7bitWrites (getLangType src) maxLength 0 src).map fun write =>
          replacedIn (getLangType src) write.1) ↔
      ∀ c ∈ src.take maxLength, c ≠ 0x1B := by
  have hdest : ucs2ToGsm7bit maxLength src = ((src.take maxLength).map forcedSeptet, 0) :=
    ucs2ToGsm7bitLoop_single 0 hpos h
  have hwrites : ucs2ToGsm7bitWrites (getLangType src) maxLength 0 src =
      (src.take maxLength).map fun c => (c, [forcedSeptet c]) := ucs2ToGsm7bitWrites_single hpos h
  have htext : (src.take maxLength).map (replacedIn (getLangType src)) =
      (src.take maxLength).map replaced :=
    List.map_congr_left fun c hc => (ucs2ToGsm7bitOctets_single (h c hc) 0).2.2
  have hoctets : ((src.take maxLength).map fun c => (replaced c, [forcedSeptet c])).flatMap
      Prod.snd = (src.take maxLength).map forcedSeptet := by
    rw [List.flatMap_map]
    exact List.map_eq_flatMap.symm
  have hne : (src.take maxLength).map forcedSeptet ≠ [] := by
    simp [hsrc, Nat.ne_of_gt hpos]
  have hcoded : ∀ token ∈ (src.take maxLength).map fun c => (replaced c, [forcedSeptet c]),
      Coded token := by
    intro token hmem
    rcases List.mem_map.1 hmem with ⟨c, -, rfl⟩
    exact coded_forced c
  rw [hdest] at hcapacity ⊢
  have hback := gsm7bitToUcs2_eq_text_iff 0 hcoded (by rwa [hoctets])
    (by rwa [hoctets])
  rw [hoctets, List.map_map, List.forall_mem_map] at hback
  rw [hwrites, List.map_map]
  refine Iff.trans ?_ (hback.trans (forall₂_congr fun c _ => reads_forced_iff 0 c))
  rw [show (fun write : UInt16 × List UInt8 => replacedIn (getLangType src) write.1) ∘
    (fun c => (c, [forcedSeptet c])) = replacedIn (getLangType src) from rfl, htext]
  rfl

/-- Once a character has a type, the text has one. -/
theorem getLangTypeStep_ne_default {type : MsgCharType} {c : UInt16}
    (h : type ≠ .msgDefaultChar ∨ extCharMap.lookup c ≠ none) :
    getLangTypeStep type c ≠ .msgDefaultChar := by
  have hall : ∀ entry ∈ extCharMap, entry.2 ≠ .msgDefaultChar := forall_of_all (by decide)
  unfold getLangTypeStep
  cases hlook : extCharMap.lookup c with
  | none => exact h.resolve_right (by simp [hlook])
  | some newType =>
      have hnew := hall (c, newType) (mem_of_lookup hlook)
      simp only
      split_ifs with hge hturkish
      · decide
      · exact hnew
      · rintro rfl
        exact hge (Nat.zero_le _)

theorem getLangType_eq_default_iff :
    getLangType src = .msgDefaultChar ↔ ∀ c ∈ src, extCharMap.lookup c = none := by
  refine ⟨fun h => ?_, getLangType_default⟩
  have hfold : ∀ type, type ≠ .msgDefaultChar ∨ (∃ c ∈ src, extCharMap.lookup c ≠ none) →
      src.foldl getLangTypeStep type ≠ .msgDefaultChar := by
    clear h
    induction src with
    | nil => simp
    | cons c src ih =>
        intro type hany
        rw [List.foldl_cons]
        refine ih _ ?_
        rcases hany with htype | ⟨d, hd, hlook⟩
        · exact .inl (getLangTypeStep_ne_default (.inl htype))
        · rcases List.mem_cons.1 hd with rfl | hd
          · exact .inl (getLangTypeStep_ne_default (.inr hlook))
          · exact .inr ⟨d, hd, hlook⟩
  by_contra hsome
  simp only [not_forall] at hsome
  rcases hsome with ⟨c, hc, hlook⟩
  exact hfold _ (.inr ⟨c, hc, hlook⟩) h

/-- Forced coding is exact for a text without the escape character of which all characters that
are written stand in the default alphabet, or none has a type of its own. -/
theorem forcedExactly_iff (hpos : 0 < maxLength) (hsrc : src ≠ []) :
    ForcedExactly maxLength src ↔
      (∀ c ∈ src.take maxLength, c ≠ 0x1B) ∧
        ((∀ c ∈ src, extCharMap.lookup c = none) ∨
          ∀ c ∈ src.take maxLength, (gsm7bitDefMap c).isSome) := by
  rw [← getLangType_eq_default_iff]
  constructor
  · intro h
    have hsingle : ∀ c ∈ src.take maxLength, Single (getLangType src) c :=
      single_of_content hpos h.content
    refine ⟨(back_single_iff hpos hsrc hsingle (Nat.lt_succ_self _)).1
      (h.back _ (Nat.lt_succ_self _)), ?_⟩
    by_cases htype : getLangType src = .msgDefaultChar
    · exact .inl htype
    · exact .inr fun c hc => (hsingle c hc).resolve_left htype
  · rintro ⟨hescape, htype⟩
    have hsingle : ∀ c ∈ src.take maxLength, Single (getLangType src) c := by
      intro c hc
      rcases htype with htype | hall
      · exact .inl htype
      · exact .inr (hall c hc)
    have hwrites : ucs2ToGsm7bitWrites (getLangType src) maxLength 0 src =
        (src.take maxLength).map fun c => (c, [forcedSeptet c]) :=
      ucs2ToGsm7bitWrites_single hpos hsingle
    have hdest : ucs2ToGsm7bit maxLength src = ((src.take maxLength).map forcedSeptet, 0) :=
      ucs2ToGsm7bitLoop_single 0 hpos hsingle
    refine ⟨?_, ?_, fun capacity hcapacity =>
      (back_single_iff hpos hsrc hsingle hcapacity).2 hescape⟩
    · rw [hwrites, List.forall_mem_map]
      exact fun c hc => (ucs2ToGsm7bitOctets_single (hsingle c hc) 0).2.1.symm
    · rw [hdest, List.length_map]
      exact List.length_take_le maxLength src

/-- A text of the default alphabet and a letter that is replaced. -/
theorem forcedExactly_replaced :
    ForcedExactly 160 [0x0047, 0x4E2D] ↔
      (∀ c ∈ ([0x0047, 0x4E2D] : List UInt16).take 160, c ≠ 0x1B) ∧
        ((∀ c ∈ ([0x0047, 0x4E2D] : List UInt16), extCharMap.lookup c = none) ∨
          ∀ c ∈ ([0x0047, 0x4E2D] : List UInt16).take 160, (gsm7bitDefMap c).isSome) :=
  forcedExactly_iff (by decide) (by decide)

/-- The brackets of `[]` have three octets each, one more than there are. -/
theorem not_forcedExactly_brackets :
    (ucs2ToGsm7bit 160 [0x005B, 0x005D]).1 = [0x1B, 0x3C, 0x00, 0x1B, 0x3E, 0x00] ∧
      ¬ ForcedExactly 160 [0x005B, 0x005D] := by
  refine ⟨by decide, fun h => ?_⟩
  exact absurd (h.content (0x005B, [0x1B, 0x3C, 0x00]) (by decide)) (by decide)

end Forced

end TelephonySms.Text
