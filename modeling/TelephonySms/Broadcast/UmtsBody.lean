import Mathlib.Data.List.TakeDrop
import TelephonySms.Broadcast.LanguagePrefix

/-! # The pages of a UMTS message

A message in the UMTS format is a sequence of pages of 82 octets, each with the number of octets
that are used behind it. `Decode3g7Bit` and `Decode3gUCS2` go through the pages, and differ in
where they look for that number and in what they do about a language.
-/

namespace TelephonySms.Broadcast

/-- A page, and how many of its octets are used. -/
structure UmtsPage where
  octets : List UInt8
  used : UInt8
  length_octets : octets.length = maxPagePduLen
  used_le : used.toNat ≤ maxPagePduLen

namespace UmtsPage

def wire (page : UmtsPage) : List UInt8 := page.octets ++ [page.used]

def body (page : UmtsPage) : List UInt8 := page.octets.take page.used.toNat

theorem length_body (page : UmtsPage) : page.body.length = page.used.toNat := by
  have hlen := page.length_octets
  have hle := page.used_le
  rw [body, List.length_take]
  omega

end UmtsPage

/-- The text of the page numbered `i` from zero on: its octets, without the two of a language on
the first page, and as septets where these are what is coded. -/
def pageText (dcs : UInt8) (i : Nat) (page : UmtsPage) : List UInt8 :=
  let text := if NamesLanguage dcs ∧ i = 0 then page.body.drop 2 else page.body
  if (decodeCbMsgDCS dcs 0).codingScheme = dataCoding7Bit then pageSeptets text else text

/-! ## Where a page is -/

def wires (pages : List UmtsPage) : List UInt8 := pages.flatMap UmtsPage.wire

theorem length_wires (pages : List UmtsPage) : (wires pages).length = 83 * pages.length := by
  induction pages with
  | nil => rfl
  | cons page pages ih =>
      have hlen : page.octets.length = 82 := page.length_octets
      rw [wires, List.flatMap_cons, List.length_append, ← wires, ih, UmtsPage.wire,
        List.length_append, hlen, List.length_cons, List.length_cons, List.length_nil]
      omega

theorem drop_wires (pages : List UmtsPage) (rest : List UInt8) {i : Nat} (hi : i < pages.length) :
    (wires pages ++ rest).drop (83 * i) =
      pages[i].octets ++ pages[i].used :: (wires (pages.drop (i + 1)) ++ rest) := by
  induction pages generalizing i with
  | nil => cases hi
  | cons page pages ih =>
      have hwire : wires (page :: pages) ++ rest = page.wire ++ (wires pages ++ rest) := by
        rw [wires, List.flatMap_cons, ← wires, List.append_assoc]
      cases i with
      | zero => simp [hwire, UmtsPage.wire]
      | succ i =>
          have hlen : page.wire.length = 83 := by
            have hoctets : page.octets.length = 82 := page.length_octets
            rw [UmtsPage.wire, List.length_append, hoctets, List.length_singleton]
          rw [hwire, show 83 * (i + 1) = page.wire.length + 83 * i by omega, List.drop_append,
            List.drop_of_length_le (by omega), List.nil_append, Nat.add_sub_cancel_left,
            ih (Nat.lt_of_succ_lt_succ hi)]
          rfl

section Page

variable {pages : List UmtsPage} {rest : List UInt8} {i : Nat}

theorem take_drop_wires (hi : i < pages.length) {n : Nat} (hn : n ≤ maxPagePduLen) :
    ((wires pages ++ rest).drop (83 * i)).take n = pages[i].octets.take n := by
  rw [drop_wires pages rest hi, List.take_append_of_le_length]
  rw [pages[i].length_octets]
  exact hn

theorem getD_used (hi : i < pages.length) :
    (wires pages ++ rest).getD (83 * i + 82) 0 = pages[i].used := by
  have hdrop := drop_wires pages rest hi
  have hlen : pages[i].octets.length = 82 := pages[i].length_octets
  rw [List.getD_eq_getElem?_getD, ← List.getElem?_drop, hdrop,
    List.getElem?_append_right (by omega), hlen]
  rfl

end Page

/-! ## Pages of septets -/

theorem decode3g7BitPage_eq {pages : List UmtsPage} {rest : List UInt8} {i : Nat}
    (hi : i < pages.length) (hmax : (wires pages ++ rest).length ≤ maxCbMsgLen) :
    decode3g7BitPage (wires pages ++ rest) i = some (decode3gPage pages[i].body 93) := by
  have hle : (wires pages ++ rest).length = 83 * pages.length + rest.length := by
    rw [List.length_append, length_wires]
  have hused := pages[i].used_le
  rw [maxCbMsgLen] at hmax
  have hoffset : ((i + 1) * maxPagePduLen + i) % 2 ^ 16 = 83 * i + 82 := by
    rw [maxPagePduLen]
    omega
  have hstart : (i * maxPagePduLen + i) % 2 ^ 16 = 83 * i := by
    rw [maxPagePduLen]
    omega
  rw [decode3g7BitPage]
  simp only [hoffset, hstart]
  rw [if_neg (by omega), getD_used hi, if_neg (by omega), take_drop_wires hi hused]
  rfl

theorem octetsValue_inj {os os' : List UInt8} (hlen : os.length = os'.length)
    (h : Septet.octetsValue os = Septet.octetsValue os') : os = os' := by
  induction os generalizing os' with
  | nil => exact (List.length_eq_zero_iff.1 hlen.symm).symm
  | cons o os ih =>
      cases os' with
      | nil => cases hlen
      | cons o' os' =>
          have ho := o.toNat_lt
          have ho' := o'.toNat_lt
          rw [Septet.octetsValue, Septet.octetsValue] at h
          have heq : o = o' := UInt8.toNat_inj.1 (by omega)
          rw [ih (Nat.succ.inj hlen) (by omega), heq]

theorem mod_pow_eq_of_digits {a b n : Nat}
    (h : ∀ j < n, a / 128 ^ j % 128 = b / 128 ^ j % 128) : a % 128 ^ n = b % 128 ^ n := by
  induction n with
  | zero => simp [Nat.mod_one]
  | succ n ih =>
      rw [Nat.mod_pow_succ, Nat.mod_pow_succ, ih fun j hj => h j (by omega), h n (by omega)]

/-- Septets that fill their octets are the octets. -/
theorem unpack_eq_iff_take_eq {os os' : List UInt8} {q : Nat} (h : 7 * q ≤ os.length)
    (h' : 7 * q ≤ os'.length) :
    Septet.unpack 0 (8 * q) os = Septet.unpack 0 (8 * q) os' ↔
      os.take (7 * q) = os'.take (7 * q) := by
  have hpow : (128 : Nat) ^ (8 * q) = 256 ^ (7 * q) := by
    rw [Nat.pow_mul, Nat.pow_mul]
  rw [Septet.unpack_eq_digits os (by omega), Septet.unpack_eq_digits os' (by omega)]
  constructor
  · intro heq
    apply octetsValue_inj
    · rw [List.length_take, List.length_take]
      omega
    · rw [Cdma.octetsValue_take, Cdma.octetsValue_take, ← hpow]
      apply mod_pow_eq_of_digits
      intro j hj
      have hdigit := List.map_inj_left.1 heq j (List.mem_range.2 hj)
      have hlt := Nat.mod_lt (Septet.octetsValue os / 128 ^ j) (show 128 > 0 by decide)
      have hlt' := Nat.mod_lt (Septet.octetsValue os' / 128 ^ j) (show 128 > 0 by decide)
      rw [← UInt8.toNat_inj, UInt8.toNat_ofNat', UInt8.toNat_ofNat'] at hdigit
      omega
  · intro heq
    have hvalue := congrArg Septet.octetsValue heq
    rw [Cdma.octetsValue_take, Cdma.octetsValue_take, ← hpow] at hvalue
    apply List.map_congr_left
    intro j hj
    have hj := List.mem_range.1 hj
    have hsplit (v : Nat) : v / 128 ^ j % 128 = v % 128 ^ (8 * q) / 128 ^ j % 128 := by
      rw [show 8 * q = j + (8 * q - j) by omega, Nat.pow_add, Nat.mod_mul_right_div_self,
        Nat.mod_mod_of_dvd]
      exact dvd_pow_self 128 (by omega)
    rw [hsplit, hvalue, ← hsplit]

/-- The septets of a page are also those behind its first two octets. -/
def RepeatsLanguage (body : List UInt8) : Prop :=
  body.length < 2 ∨ (body.length % 7 = 2 ∧ 9 ≤ body.length ∧ body.length ≤ 58 ∧
    body.take (body.length - 2) = body.drop 2)

theorem decode3gPage_eq_drop_iff {body : List UInt8} (hbody : body.length ≤ 82) :
    decode3gPage body 93 = pageSeptets (body.drop 2) ↔ RepeatsLanguage body := by
  have hroom : 8 * body.length / 7 ≤ 93 := by omega
  rw [decode3gPage_eq, pageSeptets_eq, RepeatsLanguage, List.length_drop]
  by_cases hshort : body.length < 2
  · have hnone : returned body.length 93 = 0 := by
      by_cases hzero : body.length = 0
      · rw [hzero]
        rfl
      · rw [show body.length = 1 by omega]
        rfl
    have hnone' : 8 * (body.length - 2) / 7 = 0 := by omega
    simp [hshort, hnone, hnone', Septet.unpack]
  have hreturned := returned_eq hroom (show 0 < body.length by omega)
  have hle := returned_le hroom
  simp only [hshort, false_or]
  by_cases hcount : returned body.length 93 = 8 * (body.length - 2) / 7
  · have hgroups : ∃ q, body.length = 7 * q + 2 ∧ 1 ≤ q ∧ q ≤ 8 := by
      refine ⟨(body.length + 6) / 8, ?_⟩
      rw [hcount] at hreturned
      split at hreturned <;> omega
    rcases hgroups with ⟨q, hq, hpos, hmost⟩
    have hseptets : 8 * (7 * q + 2 - 2) / 7 = 8 * q := by omega
    have hdrop : (body.drop 2).length = 7 * q := by
      rw [List.length_drop]
      omega
    rw [hcount, hq, hseptets, unpack_eq_iff_take_eq (by omega) (by omega), ← hdrop,
      List.take_length, hdrop, Nat.add_sub_cancel]
    constructor
    · exact fun heq => ⟨by omega, by omega, by omega, heq⟩
    · exact fun h => h.2.2.2
  · constructor
    · intro heq
      have hlen := congrArg List.length heq
      rw [Septet.length_unpack body (by decide) (by omega),
        Septet.length_unpack _ (by decide) (by rw [List.length_drop]; omega)] at hlen
      exact absurd hlen hcount
    · rintro ⟨hmod, hnine, hmost, -⟩
      apply absurd _ hcount
      rw [hreturned, if_pos (by omega)]
      omega

/-! ## Pages of characters -/

/-- What `Decode3gUCS2` takes for the number of octets of a page. -/
def toldOctets (tpdu : List UInt8) (i : Nat) : Nat := (tpdu.getD ((83 * i + 82) % 2 ^ 8) 0).toNat

def copiedOctets (tpdu : List UInt8) (i : Nat) : Nat :=
  if toldOctets tpdu i ≤ maxPagePduLen then toldOctets tpdu i else 0

/-- The same behind two octets of a language. -/
def copiedOctetsBehind (tpdu : List UInt8) (i : Nat) : Nat :=
  if toldOctets tpdu i ≤ maxPagePduLen + 2 ∧ 83 * i + toldOctets tpdu i ≤ tpdu.length then
    toldOctets tpdu i - 2
  else 0

theorem decode3gUCS2Page_eq (iso639 : Bool) {pages : List UmtsPage} {rest : List UInt8} {i : Nat}
    (hi : i < pages.length) (hmax : (wires pages ++ rest).length ≤ maxCbMsgLen) :
    decode3gUCS2Page iso639 (wires pages ++ rest) i =
      some (if iso639 then ((wires pages ++ rest).drop (83 * i + 2)).take
          (copiedOctetsBehind (wires pages ++ rest) i)
        else pages[i].octets.take (copiedOctets (wires pages ++ rest) i)) := by
  have hle : (wires pages ++ rest).length = 83 * pages.length + rest.length := by
    rw [List.length_append, length_wires]
  have htake := fun n hn => @take_drop_wires pages rest i hi n hn
  generalize wires pages ++ rest = tpdu at hmax hle htake
  rw [maxCbMsgLen] at hmax
  have hoffset : ((i + 1) * maxPagePduLen + i) % 2 ^ 8 = (83 * i + 82) % 2 ^ 8 := by
    rw [maxPagePduLen]
    omega
  have hguard : ¬ tpdu.length % 2 ^ 16 ≤ (83 * i + 82) % 2 ^ 8 := by omega
  have hfits : tpdu.length % 2 ^ 16 = tpdu.length := by omega
  rw [decode3gUCS2Page]
  simp only [hoffset]
  rw [if_neg hguard, hfits, ← toldOctets]
  cases iso639 with
  | false =>
      have hstart : (i * maxPagePduLen + i + 0) % 2 ^ 16 = 83 * i := by
        rw [maxPagePduLen]
        omega
      simp only [Bool.false_eq_true, if_false, hstart]
      rw [copiedOctets]
      by_cases htold : toldOctets tpdu i ≤ maxPagePduLen
      · rw [if_pos htold, ← htake _ htold]
        by_cases hsome : toldOctets tpdu i > 0
        · have hinside : 83 * i + toldOctets tpdu i ≤ tpdu.length := by
            rw [maxPagePduLen] at htold
            omega
          rw [if_pos ⟨hsome, htold, hinside⟩]
        · rw [if_neg (fun h => hsome h.1), Nat.eq_zero_of_not_pos hsome, List.take_zero]
      · rw [if_neg htold, if_neg (fun h => htold h.2.1), List.take_zero]
  | true =>
      have hstart : (i * maxPagePduLen + i + 2) % 2 ^ 16 = 83 * i + 2 := by
        rw [maxPagePduLen]
        omega
      simp only [if_true, hstart]
      rw [copiedOctetsBehind]
      by_cases hsome : toldOctets tpdu i - 2 > 0
      · by_cases htold : toldOctets tpdu i ≤ maxPagePduLen + 2 ∧
            83 * i + toldOctets tpdu i ≤ tpdu.length
        · rw [if_pos htold, if_pos ⟨hsome, by omega, by omega⟩]
        · rw [if_neg htold, List.take_zero, if_neg (fun h => htold ⟨by omega, by omega⟩)]
      · rw [if_neg (fun h => hsome h.1)]
        split
        · rw [Nat.eq_zero_of_not_pos hsome, List.take_zero]
        · rw [List.take_zero]

/-! ## One page of the text -/

/-- Where the text of a page is decoded: its septets if their groups fit its octets, and its
octets if the octet that is taken for their number has that number. A language on the first page
of septets is not skipped; one of octets is, unless its second octet has no character, and then
so are two octets of each page. -/
def PageIsCopied (dcs : UInt8) (tpdu : List UInt8) (i : Nat) (page : UmtsPage) : Prop :=
  if (decodeCbMsgDCS dcs 0).codingScheme = dataCoding7Bit then
    if NamesLanguage dcs ∧ i = 0 then RepeatsLanguage page.body
    else GroupsFit page.used.toNat
  else if NamesLanguage dcs ∧ ¬ (tpdu.getD 1 0 = 0x80 ∧ tpdu.getD 0 0 ≠ 0) then
    i = 0 ∨ copiedOctetsBehind tpdu i = page.used.toNat ∧
      (tpdu.drop (83 * i + 2)).take page.used.toNat = page.body
  else if NamesLanguage dcs ∧ i = 0 then page.used = 0
  else copiedOctets tpdu i = page.used.toNat

theorem decode3gPage_eq_pageText_iff {dcs : UInt8} (i : Nat) (page : UmtsPage)
    (tpdu : List UInt8) (hcoding : (decodeCbMsgDCS dcs 0).codingScheme = dataCoding7Bit) :
    decode3gPage page.body 93 = pageText dcs i page ↔ PageIsCopied dcs tpdu i page := by
  have hle : page.used.toNat ≤ 82 := page.used_le
  have hlen := page.length_body
  rw [PageIsCopied, if_pos hcoding, pageText]
  simp only [if_pos hcoding]
  by_cases hfirst : NamesLanguage dcs ∧ i = 0
  · rw [if_pos hfirst, if_pos hfirst, decode3gPage_eq_drop_iff (by omega)]
  · rw [if_neg hfirst, if_neg hfirst, decode3gPage_eq_iff _ (by omega), hlen]

theorem take_eq_body_iff (page : UmtsPage) {n : Nat} (hn : n ≤ maxPagePduLen) :
    page.octets.take n = page.body ↔ n = page.used.toNat := by
  constructor
  · intro heq
    have hlen := congrArg List.length heq
    have hoctets := page.length_octets
    rw [page.length_body, List.length_take] at hlen
    omega
  · rintro rfl
    rfl

theorem copiedOctets_le (tpdu : List UInt8) (i : Nat) : copiedOctets tpdu i ≤ maxPagePduLen := by
  rw [copiedOctets]
  split
  · assumption
  · exact Nat.zero_le _

theorem copiedOctetsBehind_le (tpdu : List UInt8) (i : Nat) :
    copiedOctetsBehind tpdu i ≤ tpdu.length - (83 * i + 2) := by
  rw [copiedOctetsBehind]
  split <;> omega

theorem copiedOctets_eq_pageText_iff {pages : List UmtsPage} {rest : List UInt8} {i : Nat}
    {dcs : UInt8} (hi : i < pages.length)
    (hcoding : (decodeCbMsgDCS dcs 0).codingScheme ≠ dataCoding7Bit) (iso639 : Bool)
    (hiso : iso639 = true ↔ NamesLanguage dcs ∧
      ¬ ((wires pages ++ rest).getD 1 0 = 0x80 ∧ (wires pages ++ rest).getD 0 0 ≠ 0)) :
    (if iso639 then ((wires pages ++ rest).drop (83 * i + 2)).take
        (copiedOctetsBehind (wires pages ++ rest) i)
      else pages[i].octets.take (copiedOctets (wires pages ++ rest) i)) =
        pageText dcs i pages[i] ↔ PageIsCopied dcs (wires pages ++ rest) i pages[i] := by
  have hoctets : pages[i].octets.length = 82 := pages[i].length_octets
  have hle : pages[i].used.toNat ≤ 82 := pages[i].used_le
  have hbody := pages[i].length_body
  have hdrop := drop_wires pages rest hi
  have hlength : (wires pages ++ rest).length = 83 * pages.length + rest.length := by
    rw [List.length_append, length_wires]
  have htold (h : i = 0) : toldOctets (wires pages ++ rest) i = pages[i].used.toNat := by
    subst h
    exact congrArg UInt8.toNat (getD_used hi)
  rw [PageIsCopied, if_neg hcoding, pageText]
  simp only [if_neg hcoding, ← hiso]
  cases iso639 with
  | true =>
      rw [if_pos rfl, if_pos rfl]
      have hnames := (hiso.1 rfl).1
      by_cases hfirst : i = 0
      · have hcopied : copiedOctetsBehind (wires pages ++ rest) i = pages[i].used.toNat - 2 := by
          rw [copiedOctetsBehind, htold hfirst, if_pos (by rw [maxPagePduLen]; omega)]
        rw [if_pos ⟨hnames, hfirst⟩, hcopied]
        refine iff_of_true ?_ (Or.inl hfirst)
        rw [← List.drop_drop, hdrop, UmtsPage.body, List.drop_take,
          List.drop_append_of_le_length (by omega),
          List.take_append_of_le_length (by rw [List.length_drop]; omega)]
      · rw [if_neg (fun h => hfirst h.2)]
        simp only [hfirst, false_or]
        constructor
        · intro heq
          have hlen := congrArg List.length heq
          have hcount : copiedOctetsBehind (wires pages ++ rest) i = pages[i].used.toNat := by
            have hinside := copiedOctetsBehind_le (wires pages ++ rest) i
            rw [hbody, List.length_take, List.length_drop] at hlen
            omega
          rw [hcount] at heq
          exact ⟨hcount, heq⟩
        · rintro ⟨hcount, heq⟩
          rw [hcount, heq]
  | false =>
      simp only [Bool.false_eq_true, if_false]
      by_cases hfirst : NamesLanguage dcs ∧ i = 0
      · have hcopied : copiedOctets (wires pages ++ rest) i = pages[i].used.toNat := by
          rw [copiedOctets, htold hfirst.2, if_pos (by rw [maxPagePduLen]; omega)]
        rw [if_pos hfirst, if_pos hfirst, hcopied, ← UmtsPage.body]
        constructor
        · intro heq
          have hlen := congrArg List.length heq
          rw [List.length_drop, hbody] at hlen
          exact UInt8.toNat_inj.1 (show pages[i].used.toNat = 0 by omega)
        · intro hzero
          rw [UmtsPage.body, hzero]
          rfl
      · rw [if_neg hfirst, if_neg hfirst, take_eq_body_iff _ (copiedOctets_le _ _)]

/-! ## All pages -/

/-- A round of the function that the data coding scheme selects. -/
def decode3gPageAt (dcs : GsmCbMsgDcs) (tpdu : List UInt8) (i : Nat) : Option (List UInt8) :=
  if dcs.codingScheme = dataCoding7Bit then decode3g7BitPage tpdu i
  else decode3gUCS2Page (dcs.iso639Lang.1 ≠ 0) tpdu i

theorem decode3gCbMsg_eq {header : GsmCbMessageHeader} {buffer : GsmCbPduDecodeBuffer}
    (hdata : buffer.pduData ≠ [])
    (hcoding : header.dcs.codingScheme = dataCoding7Bit ∨
      header.dcs.codingScheme = dataCoding8Bit ∨ header.dcs.codingScheme = dataCodingUcs2) :
    decode3gCbMsg header buffer =
      ((List.range header.totalPages.toNat).mapM
        (decode3gPageAt header.dcs buffer.pduData)).map List.flatten := by
  by_cases hseptets : header.dcs.codingScheme = dataCoding7Bit
  · have hpage : decode3gPageAt header.dcs buffer.pduData = decode3g7BitPage buffer.pduData := by
      funext i
      rw [decode3gPageAt, if_pos hseptets]
    rw [decode3gCbMsg, if_pos hseptets, decode3g7Bit, if_neg hdata, hpage]
    cases (List.range header.totalPages.toNat).mapM (decode3g7BitPage buffer.pduData) <;> rfl
  · have hpage : decode3gPageAt header.dcs buffer.pduData =
        decode3gUCS2Page (header.dcs.iso639Lang.1 ≠ 0) buffer.pduData := by
      funext i
      rw [decode3gPageAt, if_neg hseptets]
    rw [decode3gCbMsg, if_neg hseptets, if_pos (hcoding.resolve_left hseptets), decode3gUCS2,
      if_neg hdata, hpage]
    cases (List.range header.totalPages.toNat).mapM
      (decode3gUCS2Page (header.dcs.iso639Lang.1 ≠ 0) buffer.pduData) <;> rfl

theorem mapM_eq_some_map {α β : Type*} {f : α → Option β} {g : α → β} {xs : List α}
    (h : ∀ x ∈ xs, f x = some (g x)) : xs.mapM f = some (xs.map g) := by
  induction xs with
  | nil => rfl
  | cons x xs ih =>
      rw [List.mapM_cons, h x (by simp), ih fun y hy => h y (by simp [hy])]
      rfl

/-- What is joined is the same for each number of pages if each page is. -/
theorem flatten_map_range_eq_iff {α β : Type*} {g : Nat → List β} {t : Nat → α → List β}
    (pages : List α) :
    (∀ k ≤ pages.length, ((List.range k).map g).flatten = ((pages.take k).mapIdx t).flatten) ↔
      ∀ i (hi : i < pages.length), g i = t i pages[i] := by
  have hstep (k : Nat) (hk : k < pages.length) :
      ((List.range (k + 1)).map g).flatten = ((List.range k).map g).flatten ++ g k ∧
        ((pages.take (k + 1)).mapIdx t).flatten =
          ((pages.take k).mapIdx t).flatten ++ t k pages[k] := by
    have hlen : (pages.take k).length = k := by
      rw [List.length_take]
      omega
    constructor
    · rw [List.range_succ, List.map_append, List.flatten_append]
      simp
    · rw [List.take_succ_eq_append_getElem hk, List.mapIdx_append, List.flatten_append, hlen]
      simp
  constructor
  · intro hall i hi
    have hnext := hall (i + 1) hi
    rw [(hstep i hi).1, (hstep i hi).2, hall i (by omega)] at hnext
    exact List.append_cancel_left hnext
  · intro heach k
    induction k with
    | zero => exact fun _ => rfl
    | succ k ih =>
        intro hk
        rw [(hstep k hk).1, (hstep k hk).2, ih (by omega), heach k hk]

/-- A message of these pages. -/
def umtsPdu (type m m' s s' dcs totalPages : UInt8) (tpdu : List UInt8) : List UInt8 :=
  type :: m :: m' :: s :: s' :: dcs :: totalPages :: tpdu

section Message

variable {type m m' s s' dcs : UInt8} {pages : List UmtsPage} {rest : List UInt8}

theorem createCbMessage_umts_eq (ext : TelephonyExtWrapper) (now : Int) {tpdu : List UInt8}
    (hlen : maxPagePduLen + 6 < 7 + tpdu.length) (hmax : 7 + tpdu.length ≤ maxCbMsgLen)
    (hcoding : (decodeCbMsgDCS dcs 0).codingScheme = dataCoding7Bit ∨
      (decodeCbMsgDCS dcs 0).codingScheme = dataCoding8Bit ∨
        (decodeCbMsgDCS dcs 0).codingScheme = dataCodingUcs2) (totalPages : UInt8) :
    (createCbMessage ext now (umtsPdu type m m' s s' dcs totalPages tpdu)).map (·.messageRaw) =
      ((List.range totalPages.toNat).mapM (decode3gPageAt
        (decodeCbMsgDCS dcs (languageOctets (tpdu.getD 0 0) (tpdu.getD 1 0))) tpdu)).map
          List.flatten := by
  rw [maxPagePduLen] at hlen
  rcases tpdu with _ | ⟨o, _ | ⟨o', tpdu⟩⟩
  · simp at hlen
  · simp at hlen
  have hcount : (umtsPdu type m m' s s' dcs totalPages (o :: o' :: tpdu)).length =
      7 + (o :: o' :: tpdu).length := by
    simp only [umtsPdu, List.length_cons]
    omega
  have hpdu : umtsPdu type m m' s s' dcs totalPages (o :: o' :: tpdu) =
      type :: m :: m' :: s :: s' :: dcs :: totalPages :: o :: o' :: tpdu := rfl
  rcases createCbMessage_umts ext now hpdu (by rw [hcount, maxPagePduLen]; omega)
    (by rw [hcount]; exact hmax) with ⟨header, hdcs, hpages, hmessage⟩
  have hdata : (⟨umtsPdu type m m' s s' dcs totalPages (o :: o' :: tpdu), 7,
      (umtsPdu type m m' s s' dcs totalPages (o :: o' :: tpdu)).length⟩ :
        GsmCbPduDecodeBuffer).pduData = o :: o' :: tpdu := by
    rw [GsmCbPduDecodeBuffer.pduData, List.take_length]
    rfl
  rw [hmessage, decode3gCbMsg_eq (by rw [hdata]; exact List.cons_ne_nil _ _)
    (by rwa [hdcs, codingScheme_decodeCbMsgDCS]), hdata, hdcs, hpages]
  rfl

/-- A message in the UMTS format, with each number of its pages: when the text is that of the
pages. -/
theorem messageRaw_eq_pageTexts_iff (ext : TelephonyExtWrapper) (now : Int)
    (hlen : maxPagePduLen + 6 < 7 + (wires pages ++ rest).length)
    (hmax : 7 + (wires pages ++ rest).length ≤ maxCbMsgLen)
    (hcoding : (decodeCbMsgDCS dcs 0).codingScheme = dataCoding7Bit ∨
      (decodeCbMsgDCS dcs 0).codingScheme = dataCoding8Bit ∨
        (decodeCbMsgDCS dcs 0).codingScheme = dataCodingUcs2) :
    (∀ k ≤ pages.length,
        (createCbMessage ext now
          (umtsPdu type m m' s s' dcs (UInt8.ofNat k) (wires pages ++ rest))).map (·.messageRaw) =
            some ((pages.take k).mapIdx (pageText dcs)).flatten) ↔
      ∀ i (hi : i < pages.length), PageIsCopied dcs (wires pages ++ rest) i pages[i] := by
  have hlength : (wires pages ++ rest).length = 83 * pages.length + rest.length := by
    rw [List.length_append, length_wires]
  have hmax' : (wires pages ++ rest).length ≤ maxCbMsgLen := by omega
  generalize hlanguage : languageOctets ((wires pages ++ rest).getD 0 0)
    ((wires pages ++ rest).getD 1 0) = language
  have hlang := iso639Lang_decodeCbMsgDCS dcs ((wires pages ++ rest).getD 0 0)
    ((wires pages ++ rest).getD 1 0)
  rw [hlanguage] at hlang
  have hcode (i : Nat) (hi : i < pages.length) :
      ∃ text, decode3gPageAt (decodeCbMsgDCS dcs language) (wires pages ++ rest) i = some text ∧
        (text = pageText dcs i pages[i] ↔ PageIsCopied dcs (wires pages ++ rest) i pages[i]) := by
    rw [decode3gPageAt, codingScheme_decodeCbMsgDCS]
    by_cases hseptets : (decodeCbMsgDCS dcs 0).codingScheme = dataCoding7Bit
    · rw [if_pos hseptets, decode3g7BitPage_eq hi hmax']
      exact ⟨_, rfl, decode3gPage_eq_pageText_iff i _ _ hseptets⟩
    · rw [if_neg hseptets, decode3gUCS2Page_eq _ hi hmax']
      exact ⟨_, rfl, copiedOctets_eq_pageText_iff hi hseptets _ (by rw [decide_eq_true_iff, hlang])⟩
  have hrun (k : Nat) (hk : k ≤ pages.length) :
      (createCbMessage ext now
        (umtsPdu type m m' s s' dcs (UInt8.ofNat k) (wires pages ++ rest))).map (·.messageRaw) =
          some ((List.range k).map fun i => (decode3gPageAt (decodeCbMsgDCS dcs language)
            (wires pages ++ rest) i).getD []).flatten := by
    have hcount : (UInt8.ofNat k).toNat = k := by
      rw [maxCbMsgLen] at hmax
      rw [UInt8.toNat_ofNat']
      omega
    rw [createCbMessage_umts_eq ext now hlen hmax hcoding, hlanguage, hcount, mapM_eq_some_map]
    · rfl
    · intro i hi
      rcases hcode i (by have := List.mem_range.1 hi; omega) with ⟨text, htext, -⟩
      rw [htext]
      rfl
  have hjoined := @flatten_map_range_eq_iff _ _ (fun i =>
    (decode3gPageAt (decodeCbMsgDCS dcs language) (wires pages ++ rest) i).getD [])
      (pageText dcs) pages
  constructor
  · intro hall i hi
    rcases hcode i hi with ⟨text, htext, hiff⟩
    have heach := hjoined.1 (fun k hk => Option.some.inj ((hrun k hk).symm.trans (hall k hk))) i hi
    rw [htext] at heach
    exact hiff.1 heach
  · intro hcopied k hk
    rw [hrun k hk, hjoined.2 ?_ k hk]
    intro i hi
    rcases hcode i hi with ⟨text, htext, hiff⟩
    rw [htext]
    exact hiff.2 (hcopied i hi)

/-- A page of which all octets are the same, and are used. -/
def fullPage (o : UInt8) : UmtsPage where
  octets := List.replicate 82 o
  used := 82
  length_octets := List.length_replicate
  used_le := Nat.le_refl 82

theorem messageRaw_eq_pageTexts_two :
    (createCbMessage .absent 0
      (umtsPdu 1 0 50 0 0 0x48 2 (wires [fullPage 65, fullPage 66] ++ []))).map (·.messageRaw) =
        some ([fullPage 65, fullPage 66].mapIdx (pageText 0x48)).flatten := by
  have hlen : maxPagePduLen + 6 < 7 + (wires [fullPage 65, fullPage 66] ++ []).length := by
    decide +kernel
  have hmax : 7 + (wires [fullPage 65, fullPage 66] ++ []).length ≤ maxCbMsgLen := by
    decide +kernel
  refine (messageRaw_eq_pageTexts_iff .absent 0 hlen hmax (by decide)).2 ?_ 2 (Nat.le_refl 2)
  intro i hi
  have hcopied : copiedOctets (wires [fullPage 65, fullPage 66] ++ []) 0 = 82 ∧
      copiedOctets (wires [fullPage 65, fullPage 66] ++ []) 1 = 82 := by decide +kernel
  match i, hi with
  | 0, _ => exact hcopied.1
  | 1, _ => exact hcopied.2

/-- The end of a full page of septets is lost, the length of a fourth page of characters is looked
for in the first, and a language is skipped on the second page, too. -/
theorem messageRaw_ne_pageTexts :
    (createCbMessage .absent 0 (umtsPdu 1 0 50 0 0 0x01 1 (wires [fullPage 65]))).map
        (·.messageRaw) ≠ some ([fullPage 65].mapIdx (pageText 0x01)).flatten ∧
      (createCbMessage .absent 0
        (umtsPdu 1 0 50 0 0 0x48 4 (wires (List.replicate 4 (fullPage 65))))).map (·.messageRaw) ≠
          some ((List.replicate 4 (fullPage 65)).mapIdx (pageText 0x48)).flatten ∧
      (createCbMessage .absent 0
        (umtsPdu 1 0 50 0 0 0x11 2 (wires [fullPage 65, fullPage 66]))).map (·.messageRaw) ≠
          some ([fullPage 65, fullPage 66].mapIdx (pageText 0x11)).flatten := by
  decide +kernel

end Message

end TelephonySms.Broadcast
