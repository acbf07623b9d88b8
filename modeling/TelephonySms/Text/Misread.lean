import TelephonySms.Text.Convert

/-! # Septets that are misread

Septets are read segment by segment. An escape at the end of a segment repeats the
character before it and leaves its code to be read as a letter, and U+001B is read as an
escape. From there on the characters that are read lag behind the text or run ahead of
it, and never catch up.
-/

namespace TelephonySms.Text

/-! ## Reading on across segments -/

/-- The character of a septet of the default alphabet. -/
abbrev letter (septet : UInt8) : UInt16 := gsm7BitToUcs2.getD septet.toNat 0

/-- The octets of a segment, the last of them marked. -/
def marked : List UInt8 → List (UInt8 × Bool)
  | [] => []
  | [octet] => [(octet, true)]
  | octet :: next :: rest => (octet, false) :: marked (next :: rest)

/-- The loop of `Gsm7bitToUcs2` over the octets of all segments: behind the last one of
a segment it starts again. -/
def readMarked (langId : UInt8) : Bool → UInt16 → List (UInt8 × Bool) → List UInt16
  | true, result, [] => [result]
  | false, _, [] => []
  | true, _, (next, last) :: src =>
      escapeToUcs2 langId next ::
        readMarked langId false (if last then 0 else escapeToUcs2 langId next) src
  | false, result, (septet, last) :: src =>
      if septet = 0x1B then
        if last then result :: readMarked langId false 0 src
        else readMarked langId true result src
      else letter septet :: readMarked langId false (if last then 0 else letter septet) src

section Segments

variable {langId : UInt8}

theorem readMarked_septet {septet : UInt8} (hne : septet ≠ 0x1B) (last : Bool) (result : UInt16)
    (src : List (UInt8 × Bool)) :
    readMarked langId false result ((septet, last) :: src) =
      letter septet :: readMarked langId false (if last then 0 else letter septet) src := by
  rw [readMarked, if_neg hne]

theorem readMarked_cut (result : UInt16) (src : List (UInt8 × Bool)) :
    readMarked langId false result ((0x1B, true) :: src) =
      result :: readMarked langId false 0 src := by
  rw [readMarked, if_pos rfl, if_pos rfl]

theorem readMarked_end (result : UInt16) :
    readMarked langId false result [(0x1B, false)] = [result] := rfl

theorem readMarked_escape (next : UInt8) (last : Bool) (result : UInt16)
    (src : List (UInt8 × Bool)) :
    readMarked langId false result ((0x1B, false) :: (next, last) :: src) =
      escapeToUcs2 langId next ::
        readMarked langId false (if last then 0 else escapeToUcs2 langId next) src := by
  rw [readMarked, if_pos rfl, if_neg Bool.false_ne_true, readMarked]

@[simp] theorem map_fst_marked (piece : List UInt8) : (marked piece).map Prod.fst = piece := by
  fun_induction marked piece with
  | case1 => rfl
  | case2 => rfl
  | case3 octet next rest ih => rw [List.map_cons, ih]

theorem readMarked_piece {piece : List UInt8} (hne : piece ≠ [])
    (hseptets : ∀ octet ∈ piece, octet < 0x80) (result : UInt16) (src : List (UInt8 × Bool)) :
    ∃ units, gsm7bitToUcs2Loop langId result piece = some units ∧
      readMarked langId false result (marked piece ++ src) =
        units ++ readMarked langId false 0 src := by
  match piece with
  | [] => exact absurd rfl hne
  | [septet] =>
      have hlt : ¬ septet ≥ 0x80 := UInt8.not_le.2 (hseptets septet (by simp))
      by_cases hesc : septet = 0x1B
      · subst hesc
        exact ⟨[result], rfl, readMarked_cut result src⟩
      · refine ⟨[letter septet], ?_, readMarked_septet hesc true result src⟩
        rw [gsm7bitToUcs2Loop, if_neg hlt, if_neg hesc]
  | septet :: next :: rest =>
      have hlt : septet < 0x80 := hseptets septet (by simp)
      by_cases hesc : septet = 0x1B
      · subst hesc
        cases rest with
        | nil =>
            refine ⟨[escapeToUcs2 langId next], ?_, readMarked_escape next true result src⟩
            rw [gsm7bitToUcs2Loop_escape]
            rfl
        | cons third rest =>
            obtain ⟨units, hloop, hread⟩ := readMarked_piece
              (List.cons_ne_nil third rest)
              (fun octet hmem => hseptets octet (by simp at hmem ⊢; tauto))
              (escapeToUcs2 langId next) src
            refine ⟨escapeToUcs2 langId next :: units, ?_, ?_⟩
            · rw [gsm7bitToUcs2Loop_escape, hloop]
              rfl
            · simp only [marked, List.cons_append]
              rw [readMarked_escape, if_neg Bool.false_ne_true, hread]
      · obtain ⟨units, hloop, hread⟩ := readMarked_piece
          (List.cons_ne_nil next rest)
          (fun octet hmem => hseptets octet (List.mem_cons_of_mem _ hmem)) (letter septet) src
        refine ⟨letter septet :: units, ?_, ?_⟩
        · rw [gsm7bitToUcs2Loop_septet hlt hesc, hloop]
          rfl
        · simp only [marked, List.cons_append]
          rw [readMarked_septet hesc, if_neg Bool.false_ne_true, hread]

/-- The characters read of the segments, one segment after the other. -/
theorem readMarked_pieces (langId : UInt8) {pieces : List (List UInt8)}
    (hseptets : ∀ octet ∈ pieces.flatten, octet < 0x80) :
    readMarked langId false 0 (pieces.flatMap marked) =
        pieces.flatMap (fun piece => (gsm7bitToUcs2 langId piece).getD []) ∧
      ∀ piece ∈ pieces, (gsm7bitToUcs2 langId piece).isSome := by
  induction pieces with
  | nil => exact ⟨rfl, by simp⟩
  | cons piece pieces ih =>
      rw [List.flatten_cons] at hseptets
      obtain ⟨hrest, hsome⟩ := ih fun octet hmem => hseptets octet (List.mem_append_right _ hmem)
      have hpiece : ∃ units, gsm7bitToUcs2 langId piece = some units ∧
          readMarked langId false 0 (marked piece ++ pieces.flatMap marked) =
            units ++ readMarked langId false 0 (pieces.flatMap marked) := by
        cases piece with
        | nil => exact ⟨[], rfl, rfl⟩
        | cons octet piece =>
            exact readMarked_piece (List.cons_ne_nil _ _)
              (fun octet hmem => hseptets octet (List.mem_append_left _ hmem)) 0 _
      obtain ⟨units, hloop, hread⟩ := hpiece
      constructor
      · rw [List.flatMap_cons, List.flatMap_cons, hread, hrest, hloop]
        rfl
      · rw [List.forall_mem_cons]
        exact ⟨by rw [hloop]; rfl, hsome⟩

end Segments

/-! ## Characters and their septets -/

/-- A septet that is read as it stands. -/
def IsLetter (septet : UInt8) : Prop := septet < 0x80 ∧ septet ≠ 0x1B

/-- A character and the septets that are written for it: its letter or its escape and
code, with letters behind them, or the escape itself. -/
inductive Coding : UInt16 × List UInt8 → Prop
  | septet {septet : UInt8} {tail : List UInt8} (hletter : IsLetter septet)
      (htail : ∀ octet ∈ tail, IsLetter octet) : Coding (letter septet, septet :: tail)
  | escape : Coding (0x1B, [0x1B])
  | extended {c : UInt16} {code : UInt8} {tail : List UInt8} (hc : gsm7bitDefMap c = none)
      (hletter : IsLetter code) (htail : ∀ octet ∈ tail, IsLetter octet) :
      Coding (c, 0x1B :: code :: tail)

theorem letter_ne_escape {septet : UInt8} (h : IsLetter septet) : letter septet ≠ 0x1B := by
  have htable : ∀ i < 128, i ≠ 27 → gsm7BitToUcs2.getD i 0 ≠ 0x1B := by decide
  refine htable septet.toNat (UInt8.lt_iff_toNat_lt.1 h.1) ?_
  intro hesc
  exact h.2 (UInt8.toNat.inj hesc)

theorem gsm7bitDefMap_letter {septet : UInt8} (h : IsLetter septet) :
    gsm7bitDefMap (letter septet) ≠ none := by
  have hlen : septet.toNat < gsm7BitToUcs2.length := UInt8.lt_iff_toNat_lt.1 h.1
  have hmem : letter septet ∈ gsm7BitToUcs2 := by
    rw [letter, List.getD_eq_getElem?_getD, List.getElem?_eq_getElem hlen]
    exact List.getElem_mem hlen
  simpa [gsm7bitDefMap, List.idxOf?_eq_none_iff] using hmem

theorem escapeToUcs2_ne_escape (langId : UInt8) {code : UInt8} (h : code ≠ 0x1B) :
    escapeToUcs2 langId code ≠ 0x1B := by
  have htable : ∀ table ∈ [turkishSingleToUcs2, spanishSingleToUcs2, portuSingleToUcs2,
      gsm7BitExtToUcs2], ∀ entry ∈ table, entry.1 ≠ 0x1B → entry.2 ≠ 0x1B := by
    simp only [List.forall_mem_cons]
    exact ⟨forall_of_all (by decide), forall_of_all (by decide),
      forall_of_all (by decide), forall_of_all (by decide), by simp⟩
  have hlook : ∀ table ∈ [turkishSingleToUcs2, spanishSingleToUcs2, portuSingleToUcs2,
      gsm7BitExtToUcs2], (table.lookup code).getD 0x0020 ≠ 0x1B := by
    intro table hmem
    cases hcode : table.lookup code with
    | none => decide
    | some c => exact htable table hmem _ (mem_of_lookup hcode) h
  unfold escapeToUcs2
  apply hlook
  split
  · simp
  · split
    · simp
    · split <;> simp

theorem escapeToUcs2_escape (langId : UInt8) : escapeToUcs2 langId 0x1B = 0x1B := by
  unfold escapeToUcs2
  split
  · decide
  · split
    · decide
    · split <;> decide

section Tokens

variable {langId : UInt8} {tokens : List (UInt16 × List UInt8)}

theorem readMarked_letters {tail : List UInt8} (htail : ∀ octet ∈ tail, IsLetter octet)
    {front : List (UInt8 × Bool)} (hfront : front.map Prod.fst = tail) (result : UInt16)
    (src : List (UInt8 × Bool)) :
    ∃ result', (result ≠ 0x1B → result' ≠ 0x1B) ∧
      readMarked langId false result (front ++ src) =
        tail.map letter ++ readMarked langId false result' src := by
  induction front generalizing tail result with
  | nil =>
      subst hfront
      exact ⟨result, id, rfl⟩
  | cons entry front ih =>
      obtain ⟨septet, last⟩ := entry
      subst hfront
      obtain ⟨hletter, hrest⟩ := List.forall_mem_cons.1 htail
      have hnext : (if last then 0 else letter septet) ≠ 0x1B := by
        cases last with
        | true => exact (by decide : (0 : UInt16) ≠ 0x1B)
        | false => exact letter_ne_escape hletter
      obtain ⟨result', hresult', hread⟩ := ih hrest rfl (if last then 0 else letter septet)
      exact ⟨result', fun _ => hresult' hnext, by
        rw [List.cons_append, readMarked_septet hletter.2, hread]
        rfl⟩

/-- Letters that run ahead of the text stay ahead: every character behind them must be
the next of them, and is written once more. -/
theorem readMarked_ahead (h : ∀ token ∈ tokens, Coding token) {ahead : List UInt8}
    (hne : ahead ≠ []) (hahead : ∀ octet ∈ ahead, IsLetter octet) {src : List (UInt8 × Bool)}
    (hsrc : src.map Prod.fst = tokens.flatMap Prod.snd) (result : UInt16) :
    ahead.map letter ++ readMarked langId false result src ≠ tokens.map Prod.fst := by
  induction tokens generalizing ahead src result with
  | nil => simp [hne]
  | cons token tokens ih =>
      intro heq
      obtain ⟨htoken, htokens⟩ := List.forall_mem_cons.1 h
      obtain ⟨front, back, rfl, hfront, hback⟩ := List.map_eq_append_iff.1 hsrc
      cases ahead with
      | nil => exact hne rfl
      | cons first ahead =>
          obtain ⟨hfirst, hrest⟩ := List.forall_mem_cons.1 hahead
          rw [List.map_cons, List.cons_append, List.map_cons] at heq
          obtain ⟨hhead, htail⟩ := List.cons.inj heq
          cases htoken with
          | @septet septet tail hletter hletters =>
              obtain ⟨result', -, hread⟩ := readMarked_letters
                (List.forall_mem_cons.2 ⟨hletter, hletters⟩) hfront result back
              rw [hread, ← List.append_assoc, ← List.map_append] at htail
              refine ih htokens (by simp) ?_ hback result' htail
              intro octet hmem
              rcases List.mem_append.1 hmem with hmem | hmem
              · exact hrest octet hmem
              · exact List.forall_mem_cons.2 ⟨hletter, hletters⟩ octet hmem
          | escape => exact letter_ne_escape hfirst hhead
          | extended hc _ _ =>
              refine gsm7bitDefMap_letter hfirst ?_
              rw [hhead]
              exact hc

theorem not_mem_of_letters {tail : List UInt8} (htail : ∀ octet ∈ tail, IsLetter octet)
    {front : List (UInt8 × Bool)} (hfront : front.map Prod.fst = tail) :
    (0x1B, true) ∉ front := by
  intro hmem
  have hescape : (0x1B : UInt8) ∈ front.map Prod.fst := List.mem_map.2 ⟨_, hmem, rfl⟩
  rw [hfront] at hescape
  exact (htail _ hescape).2 rfl

/-- An escape is read with its code, or is cut off from it and the code is a letter. -/
theorem readMarked_extended {code : UInt8} {tail : List UInt8} (hletter : IsLetter code)
    (htail : ∀ octet ∈ tail, IsLetter octet) {front : List (UInt8 × Bool)}
    (hfront : front.map Prod.fst = 0x1B :: code :: tail) (result : UInt16)
    (back : List (UInt8 × Bool)) :
    (∃ result', readMarked langId false result (front ++ back) =
        result :: ((code :: tail).map letter ++ readMarked langId false result' back)) ∨
      ((0x1B, true) ∉ front ∧ ∃ result' ≠ 0x1B, readMarked langId false result (front ++ back) =
        escapeToUcs2 langId code ::
          (tail.map letter ++ readMarked langId false result' back)) := by
  obtain ⟨⟨_, cut⟩, front, rfl, rfl, hrest⟩ := List.map_eq_cons_iff.1 hfront
  cases cut with
  | true =>
      obtain ⟨result', -, hread⟩ := readMarked_letters
        (List.forall_mem_cons.2 ⟨hletter, htail⟩) hrest 0 back
      exact .inl ⟨result', by rw [List.cons_append, readMarked_cut, hread]⟩
  | false =>
      have hwhole := not_mem_of_letters (List.forall_mem_cons.2 ⟨hletter, htail⟩) hrest
      obtain ⟨⟨octet, last⟩, front, rfl, hoctet, hmore⟩ := List.map_eq_cons_iff.1 hrest
      obtain rfl : code = octet := hoctet.symm
      have hcode := escapeToUcs2_ne_escape langId hletter.2
      have hnext : (if last then 0 else escapeToUcs2 langId code) ≠ 0x1B := by
        cases last with
        | true => exact (by decide : (0 : UInt16) ≠ 0x1B)
        | false => exact hcode
      obtain ⟨result', hresult', hread⟩ := readMarked_letters htail hmore
        (if last then 0 else escapeToUcs2 langId code) back
      refine .inr ⟨?_, result', hresult' hnext, ?_⟩
      · simpa using hwhole
      · rw [List.cons_append, List.cons_append, readMarked_escape, hread]

/-- What is read where U+001B was written: the character before it at the end of a
segment, or what the next octet is the code of. -/
theorem readMarked_escapeToken (h : ∀ token ∈ tokens, Coding token) (last : Bool)
    {back : List (UInt8 × Bool)} (hback : back.map Prod.fst = tokens.flatMap Prod.snd)
    (result : UInt16) :
    let units := readMarked langId false result ((0x1B, last) :: back)
    units = result :: readMarked langId false 0 back ∨
      (∃ c more, units = c :: more ∧ c ≠ 0x1B) ∨
      (∃ rest src result', tokens = (0x1B, [0x1B]) :: rest ∧
        src.map Prod.fst = rest.flatMap Prod.snd ∧
        units = 0x1B :: readMarked langId false result' src) ∨
      ∃ c code rest more, tokens.map Prod.fst = c :: rest ∧ gsm7bitDefMap c = none ∧
        IsLetter code ∧ units = 0x1B :: letter code :: more := by
  intro units
  cases last with
  | true => exact .inl (readMarked_cut result back)
  | false =>
      cases back with
      | nil => exact .inl (readMarked_end result)
      | cons entry back =>
          obtain ⟨next, last⟩ := entry
          have hread : units = _ := readMarked_escape next last result back
          cases tokens with
          | nil => simp at hback
          | cons token rest =>
              rw [List.map_cons, List.flatMap_cons] at hback
              cases h token List.mem_cons_self with
              | septet hletter _ =>
                  obtain ⟨rfl, -⟩ := List.cons.inj hback
                  exact .inr (.inl ⟨_, _, hread, escapeToUcs2_ne_escape langId hletter.2⟩)
              | escape =>
                  obtain ⟨rfl, hrest⟩ := List.cons.inj hback
                  rw [escapeToUcs2_escape] at hread
                  exact .inr (.inr (.inl ⟨rest, back, _, rfl, hrest, hread⟩))
              | @extended c code tail hc hletter _ =>
                  obtain ⟨rfl, hrest⟩ := List.cons.inj hback
                  rw [escapeToUcs2_escape] at hread
                  cases back with
                  | nil => simp at hrest
                  | cons entry back =>
                      obtain ⟨octet, last'⟩ := entry
                      obtain ⟨rfl, -⟩ := List.cons.inj hrest
                      rw [readMarked_septet hletter.2] at hread
                      exact .inr (.inr (.inr ⟨c, octet, _, _, rfl, hc, hletter, hread⟩))

theorem replicate_append_cons (n : Nat) (c : UInt16) (units : List UInt16) :
    List.replicate n c ++ c :: units = List.replicate (n + 1) c ++ units := by
  rw [List.replicate_succ', List.append_assoc]
  rfl

/-- What is read lags behind U+001B for good: only U+001B is read as U+001B, and takes
another with it. -/
theorem readMarked_behind (tokens : List (UInt16 × List UInt8))
    (h : ∀ token ∈ tokens, Coding token) (n : Nat) {src : List (UInt8 × Bool)}
    (hsrc : src.map Prod.fst = tokens.flatMap Prod.snd) (result : UInt16) :
    readMarked langId false result src ≠ List.replicate (n + 1) 0x1B ++ tokens.map Prod.fst := by
  match tokens with
  | [] =>
      have hnil : src = [] := by simpa using hsrc
      simp [hnil, readMarked, List.replicate_succ]
  | token :: tokens =>
      intro heq
      obtain ⟨htoken, htokens⟩ := List.forall_mem_cons.1 h
      obtain ⟨front, back, rfl, hfront, hback⟩ := List.map_eq_append_iff.1 hsrc
      rw [List.replicate_succ, List.cons_append] at heq
      cases htoken with
      | septet hletter htail =>
          obtain ⟨result', -, hread⟩ := readMarked_letters
            (List.forall_mem_cons.2 ⟨hletter, htail⟩) hfront result back
          rw [hread] at heq
          exact letter_ne_escape hletter (List.cons.inj heq).1
      | @extended c code tail hc hletter htail =>
          have hsecond : ∀ {more},
              letter code :: more ≠ List.replicate n 0x1B ++ c :: tokens.map Prod.fst := by
            intro more hmore
            cases n with
            | zero => exact gsm7bitDefMap_letter hletter ((List.cons.inj hmore).1 ▸ hc)
            | succ n => exact letter_ne_escape hletter (List.cons.inj hmore).1
          cases readMarked_extended hletter htail hfront result back with
          | inl hcut =>
              obtain ⟨result', hread⟩ := hcut
              rw [hread] at heq
              exact hsecond (List.cons.inj heq).2
          | inr hwhole =>
              obtain ⟨-, result', -, hread⟩ := hwhole
              rw [hread] at heq
              exact escapeToUcs2_ne_escape langId hletter.2 (List.cons.inj heq).1
      | escape =>
          obtain ⟨⟨_, last⟩, front, rfl, rfl, hnil⟩ := List.map_eq_cons_iff.1 hfront
          obtain rfl := List.map_eq_nil_iff.1 hnil
          obtain hread | ⟨c, more, hread, hne⟩ | ⟨rest, src, result', rfl, hrest, hread⟩ |
              ⟨c, code, rest, more, hmap, hc, hletter, hread⟩ :=
            readMarked_escapeToken htokens last hback result
          · rw [List.cons_append, List.nil_append, hread] at heq
            have hbehind := (List.cons.inj heq).2
            rw [List.map_cons, replicate_append_cons] at hbehind
            exact readMarked_behind tokens htokens n hback 0 hbehind
          · rw [List.cons_append, List.nil_append, hread] at heq
            exact hne (List.cons.inj heq).1
          · rw [List.cons_append, List.nil_append, hread] at heq
            have hbehind := (List.cons.inj heq).2
            rw [List.map_cons, List.map_cons, replicate_append_cons, replicate_append_cons]
              at hbehind
            exact readMarked_behind rest (List.forall_mem_cons.1 htokens).2 (n + 1) hrest result'
              hbehind
          · rw [List.cons_append, List.nil_append, hread] at heq
            have hbehind := (List.cons.inj heq).2
            rw [List.map_cons, replicate_append_cons, List.replicate_succ] at hbehind
            exact letter_ne_escape hletter (List.cons.inj hbehind).1
termination_by tokens.length

/-- Segments that are read as their text hold no U+001B, and none ends with an escape:
every character is read from its own septets. -/
theorem readMarked_exact (h : ∀ token ∈ tokens, Coding token) {src : List (UInt8 × Bool)}
    (hsrc : src.map Prod.fst = tokens.flatMap Prod.snd) {result : UInt16}
    (hresult : result ≠ 0x1B)
    (heq : readMarked langId false result src = tokens.map Prod.fst) :
    (∀ token ∈ tokens, Reads langId token) ∧ (0x1B, true) ∉ src := by
  induction tokens generalizing src result with
  | nil =>
      have hnil : src = [] := by simpa using hsrc
      simp [hnil]
  | cons token tokens ih =>
      obtain ⟨htoken, htokens⟩ := List.forall_mem_cons.1 h
      obtain ⟨front, back, rfl, hfront, hback⟩ := List.map_eq_append_iff.1 hsrc
      rw [List.map_cons] at heq
      -- Letters behind the character would run ahead of the text.
      have hnoTail : ∀ {tail result'}, (∀ octet ∈ tail, IsLetter octet) →
          tail.map letter ++ readMarked langId false result' back = tokens.map Prod.fst →
            tail = [] := by
        intro tail result' htail hrest
        by_contra hne
        exact readMarked_ahead htokens hne htail hback result' hrest
      cases htoken with
      | @septet septet tail hletter htail =>
          have hletters := List.forall_mem_cons.2 ⟨hletter, htail⟩
          obtain ⟨result', hnext, hread⟩ := readMarked_letters hletters hfront result back
          rw [hread] at heq
          have hrest := (List.cons.inj heq).2
          obtain rfl := hnoTail htail hrest
          obtain ⟨hreads, hwhole⟩ := ih htokens hback (hnext hresult) hrest
          refine ⟨List.forall_mem_cons.2 ⟨.septet hletter.1 hletter.2, hreads⟩, ?_⟩
          rw [List.mem_append, not_or]
          exact ⟨not_mem_of_letters hletters hfront, hwhole⟩
      | @extended c code tail hc hletter htail =>
          cases readMarked_extended hletter htail hfront result back with
          | inl hcut =>
              obtain ⟨result', hread⟩ := hcut
              rw [hread] at heq
              have hnone := hnoTail (List.forall_mem_cons.2 ⟨hletter, htail⟩)
                (List.cons.inj heq).2
              simp at hnone
          | inr hwhole =>
              obtain ⟨hfrontWhole, result', hnext, hread⟩ := hwhole
              rw [hread] at heq
              obtain ⟨hcode, hrest⟩ := List.cons.inj heq
              obtain rfl := hnoTail htail hrest
              obtain ⟨hreads, hbackWhole⟩ := ih htokens hback hnext hrest
              have hread : Reads langId (_, [0x1B, code]) := .escaped code
              rw [hcode] at hread
              refine ⟨List.forall_mem_cons.2 ⟨hread, hreads⟩, ?_⟩
              rw [List.mem_append, not_or]
              exact ⟨hfrontWhole, hbackWhole⟩
      | escape =>
          obtain ⟨⟨_, last⟩, front, rfl, rfl, hnil⟩ := List.map_eq_cons_iff.1 hfront
          obtain rfl := List.map_eq_nil_iff.1 hnil
          obtain hread | ⟨c, more, hread, hne⟩ | ⟨rest, src, result', rfl, hrest, hread⟩ |
              ⟨c, code, rest, more, hmap, hc, hletter, hread⟩ :=
            readMarked_escapeToken htokens last hback result
          · rw [List.cons_append, List.nil_append, hread] at heq
            exact absurd (List.cons.inj heq).1 hresult
          · rw [List.cons_append, List.nil_append, hread] at heq
            exact absurd (List.cons.inj heq).1 hne
          · rw [List.cons_append, List.nil_append, hread] at heq
            exact absurd (List.cons.inj heq).2
              (readMarked_behind rest (List.forall_mem_cons.1 htokens).2 0 hrest result')
          · rw [List.cons_append, List.nil_append, hread, hmap] at heq
            have hsame := (List.cons.inj (List.cons.inj heq).2).1
            exact absurd (hsame ▸ hc) (gsm7bitDefMap_letter hletter)

end Tokens

/-! ## Segments that read as their text -/

theorem readMarked_not_surrogate (langId : UInt8) (escaped : Bool) {result : UInt16}
    (hresult : isHighSurrogate result = false ∧ isLowSurrogate result = false)
    (src : List (UInt8 × Bool)) :
    ∀ c ∈ readMarked langId escaped result src,
      isHighSurrogate c = false ∧ isLowSurrogate c = false := by
  have hzero : isHighSurrogate 0 = false ∧ isLowSurrogate 0 = false := by decide
  induction src generalizing escaped result with
  | nil =>
      cases escaped with
      | true => simpa [readMarked] using hresult
      | false => simp [readMarked]
  | cons entry src ih =>
      obtain ⟨octet, last⟩ := entry
      cases escaped with
      | true =>
          have hcode := escapeToUcs2_not_surrogate langId octet
          rw [readMarked, List.forall_mem_cons]
          refine ⟨hcode, ih false ?_⟩
          split
          · exact hzero
          · exact hcode
      | false =>
          have hletter := septet_not_surrogate octet
          rw [readMarked]
          split
          · split
            · exact List.forall_mem_cons.2 ⟨hresult, ih false hzero⟩
            · exact ih true hresult
          · refine List.forall_mem_cons.2 ⟨hletter, ih false ?_⟩
            split
            · exact hzero
            · exact hletter

theorem Coding.septets {token : UInt16 × List UInt8} (h : Coding token) :
    ∀ octet ∈ token.2, octet < 0x80 := by
  cases h with
  | septet hletter htail =>
      exact List.forall_mem_cons.2 ⟨hletter.1, fun octet hmem => (htail octet hmem).1⟩
  | escape => exact List.forall_mem_singleton.2 (by decide)
  | extended _ hletter htail =>
      exact List.forall_mem_cons.2 ⟨by decide,
        List.forall_mem_cons.2 ⟨hletter.1, fun octet hmem => (htail octet hmem).1⟩⟩

theorem mem_marked_of_getLast {piece : List UInt8} {octet : UInt8}
    (h : piece.getLast? = some octet) : (octet, true) ∈ marked piece := by
  fun_induction marked piece with
  | case1 => simp at h
  | case2 => simpa using h.symm
  | case3 first next rest ih =>
      exact List.mem_cons_of_mem _ (ih (by simpa using h))

/-- Segments read as the characters whose septets they hold only if none of them is cut
or misread. -/
theorem reads_of_flatMap_eq {iconv : Iconv} (hf : iconv.Faithful) {langId : UInt8}
    {tokens : List (UInt16 × List UInt8)} (h : ∀ token ∈ tokens, Coding token)
    (hwell : WellFormed (tokens.map Prod.fst)) {pieces : List (List UInt8)}
    (hdata : tokens.flatMap Prod.snd = pieces.flatten)
    (heq : pieces.flatMap (gsm7bitToUtf8 iconv langId) =
      iconv.utf16ToUtf8 (tokens.map Prod.fst)) :
    (∀ token ∈ tokens, Reads langId token) ∧
      ∀ piece ∈ pieces, piece.getLast? ≠ some 0x1B := by
  have hseptets : ∀ octet ∈ pieces.flatten, octet < 0x80 := by
    intro octet hmem
    rw [← hdata] at hmem
    obtain ⟨token, htoken, hoctet⟩ := List.mem_flatMap.1 hmem
    exact (h token htoken).septets octet hoctet
  obtain ⟨hread, hsome⟩ := readMarked_pieces langId hseptets
  have hnot : ∀ c ∈ readMarked langId false 0 (pieces.flatMap marked),
      isHighSurrogate c = false ∧ isLowSurrogate c = false :=
    readMarked_not_surrogate langId false (by decide) _
  have hpieces : pieces.flatMap (gsm7bitToUtf8 iconv langId) =
      iconv.utf16ToUtf8 (readMarked langId false 0 (pieces.flatMap marked)) := by
    have hmap : pieces.flatMap (gsm7bitToUtf8 iconv langId) =
        (pieces.map fun piece => (gsm7bitToUcs2 langId piece).getD []).flatMap
          iconv.utf16ToUtf8 := by
      rw [List.flatMap_map]
      refine List.flatMap_congr fun piece hmem => ?_
      obtain ⟨units, hunits⟩ := Option.isSome_iff_exists.1 (hsome piece hmem)
      rw [gsm7bitToUtf8, hunits]
      rfl
    rw [hmap, hf.flatMap, hread, List.flatMap_def]
    intro piece hmem
    refine wellFormed_of_forall fun c hc => hnot c ?_
    obtain ⟨octets, hoctets, rfl⟩ := List.mem_map.1 hmem
    rw [hread]
    exact List.mem_flatMap.2 ⟨octets, hoctets, hc⟩
  rw [hpieces] at heq
  have hunits := hf.injective (wellFormed_of_forall hnot) hwell heq
  have hsrc : (pieces.flatMap marked).map Prod.fst = tokens.flatMap Prod.snd := by
    rw [hdata, List.map_flatMap]
    simp only [map_fst_marked, List.flatMap_id']
  obtain ⟨hreads, hwhole⟩ := readMarked_exact h hsrc (by decide) hunits
  refine ⟨hreads, fun piece hmem hlast => hwhole ?_⟩
  exact List.mem_flatMap.2 ⟨piece, hmem, mem_marked_of_getLast hlast⟩

/-! ## The coders -/

theorem coding_default {c : UInt16} {septet : UInt8} (h : gsm7bitDefMap c = some septet) :
    Coding (c, [septet]) := by
  obtain ⟨hlt, rfl⟩ := gsm7bitDefMap_eq_some h
  by_cases hesc : septet = 0x1B
  · subst hesc
    exact .escape
  · exact .septet ⟨hlt, hesc⟩ (by simp)

theorem extMap_letters : ∀ table ∈ [gsm7bitExtMap, turkishMap, spanishMap, portuMap],
    ∀ entry ∈ table, entry.2 < 0x80 ∧ entry.2 ≠ 0x1B := by
  simp only [List.forall_mem_cons]
  exact ⟨forall_of_all (by decide), forall_of_all (by decide),
    forall_of_all (by decide), forall_of_all (by decide), by simp⟩

theorem coding_autoToken {national : SmsCodingNationalType} {c : UInt16}
    (h : Known (get7BitCodingExtMap national) c) :
    Coding (autoToken (get7BitCodingExtMap national) c) := by
  unfold autoToken
  cases hdef : gsm7bitDefMap c with
  | some septet => exact coding_default hdef
  | none =>
      rw [Known, hdef] at h
      obtain ⟨septet, hext⟩ := Option.isSome_iff_exists.1 (h.resolve_left (by simp))
      simp only [hext]
      refine .extended hdef (extMap_letters _ ?_ _ (mem_of_lookup hext)) (by simp)
      cases national <;> simp [get7BitCodingExtMap]

/-- Forced coding writes a letter more, unless there is no extension table. -/
theorem ucs2ToGsm7bitOther_of_ne {currType : MsgCharType} (h : currType ≠ .msgDefaultChar)
    (c : UInt16) :
    ucs2ToGsm7bitOther currType 2 c =
      (match currType.extMap.lookup c with
        | none => [findReplaceChar c]
        | some septet => [0x1B, septet]) ++ [0x00] := by
  cases currType with
  | msgDefaultChar => exact absurd rfl h
  | _ => rfl

theorem coding_forcedToken (currType : MsgCharType) (c : UInt16) :
    Coding (forcedToken currType c) := by
  have hreplace := findReplaceChar_septet c
  unfold forcedToken replacedIn
  cases hdef : gsm7bitDefMap c with
  | some septet =>
      simp only [Option.isSome_some, true_or, if_true]
      exact coding_default hdef
  | none =>
      have hreplaced : replaced c = letter (findReplaceChar c) := by simp [replaced, hdef]
      by_cases htype : currType = .msgDefaultChar
      · subst htype
        simp only [MsgCharType.extMap, List.lookup_nil, Option.isSome_none, or_false,
          Bool.false_eq_true, if_false, hreplaced]
        exact .septet hreplace (by simp)
      · have hzero : ∀ octet ∈ [(0x00 : UInt8)], IsLetter octet := by
          simp [IsLetter]
        simp only [ucs2ToGsm7bitOther_of_ne htype]
        cases hext : currType.extMap.lookup c with
        | none =>
            simp only [Option.isSome_none, Bool.false_eq_true, or_false, if_false, hreplaced]
            exact .septet hreplace hzero
        | some septet =>
            simp only [Option.isSome_some, or_true, if_true]
            refine .extended hdef (extMap_letters _ ?_ _ (mem_of_lookup hext)) hzero
            cases currType <;> simp [MsgCharType.extMap] at hext ⊢

end TelephonySms.Text
