import TelephonySms.Broadcast.Codec
import TelephonySms.Pdu.Headers

/-! # The language of a page

A page in the default alphabet whose data coding scheme says that a language precedes the text
begins with two letters and a carriage return. `Decode2gCbMsg7bit` takes three septets off the
count, but copies from the first septet on, so what it drops is the end of the text.
-/

namespace TelephonySms.Broadcast

/-- The data coding schemes in the ISO 639 group that name a language in the message. -/
def NamesLanguage (dcs : UInt8) : Prop := dcs = 0x10 ∨ dcs = 0x11

instance (dcs : UInt8) : Decidable (NamesLanguage dcs) := inferInstanceAs (Decidable (_ ∨ _))

/-- The text of a page: its septets without the language. -/
def textSeptets (dcs : UInt8) (page : List UInt8) : List UInt8 :=
  if NamesLanguage dcs then (pageSeptets page).drop 3 else pageSeptets page

/-! ## The language in the header -/

/-- The two octets read ahead. -/
def languageOctets (o o' : UInt8) : UInt16 := o.toUInt16 ||| o'.toUInt16 <<< 8

theorem languageOctets_high (o o' : UInt8) : (languageOctets o o' >>> 8).toUInt8 = o' := by
  have hjoin := Pdu.toNat_joinPair o' o
  have hlow := o.toNat_lt
  apply UInt8.toNat_inj.mp
  rw [Pdu.toNat_highOctet, languageOctets, hjoin]
  omega

theorem languageOctets_low (o o' : UInt8) : (languageOctets o o').toUInt8 = o := by
  have hjoin := Pdu.toNat_joinPair o' o
  have hlow := o.toNat_lt
  apply UInt8.toNat_inj.mp
  rw [UInt16.toNat_toUInt8, languageOctets, hjoin]
  omega

/-- The octets of a language do not change how the text is coded. -/
theorem codingScheme_decodeCbMsgDCS (dcs : UInt8) (iosData : UInt16) :
    (decodeCbMsgDCS dcs iosData).codingScheme = (decodeCbMsgDCS dcs 0).codingScheme := by
  unfold decodeCbMsgDCS decodeIos639Dcs
  simp only
  split
  · rfl
  split
  · split <;> rfl
  · rfl

theorem namesLanguage_iff (dcs : UInt8) :
    NamesLanguage dcs ↔
      (dcs &&& 0xF0) >>> 4 = 1 ∧ (dcs &&& 0x0F = 0 ∨ dcs &&& 0x0F = 1) := by
  have hlt := dcs.toNat_lt
  have hlow : (dcs &&& 0x0F).toNat = dcs.toNat % 16 := Nat.and_two_pow_sub_one_eq_mod dcs.toNat 4
  have hhigh : ((dcs &&& 0xF0) >>> 4).toNat = dcs.toNat / 16 := by
    have hshift : ((dcs &&& 0xF0) >>> 4).toNat = dcs.toNat >>> 4 &&& 0x0F :=
      Nat.shiftRight_and_distrib
    rw [hshift, Nat.shiftRight_eq_div_pow, show 0x0F = 2 ^ 4 - 1 from rfl,
      Nat.and_two_pow_sub_one_eq_mod]
    omega
  simp only [NamesLanguage, ← UInt8.toNat_inj, hlow, hhigh, UInt8.reduceToNat]
  omega

/-- The codec takes the language for one if the second octet has a character in it. -/
theorem iso639Lang_decodeCbMsgDCS (dcs o o' : UInt8) :
    (decodeCbMsgDCS dcs (languageOctets o o')).iso639Lang.1 ≠ 0 ↔
      NamesLanguage dcs ∧ ¬ (o' = 0x80 ∧ o ≠ 0) := by
  have hcr : o' ≠ 0 → (o' &&& 0x7F ≠ 0 ↔ o' ≠ 0x80) := by
    have hlt := o'.toNat_lt
    have hand : (o' &&& 0x7F).toNat = o'.toNat % 128 := Septet.toNat_and_7F o'
    simp only [ne_eq, ← UInt8.toNat_inj, hand, UInt8.reduceToNat]
    omega
  rw [namesLanguage_iff, decodeCbMsgDCS]
  by_cases hgroup : (dcs &&& 0xF0) >>> 4 = 1
  · rw [if_neg (by simp [hgroup]), if_pos hgroup, decodeIos639Dcs]
    by_cases hlow : dcs &&& 0x0F = 0 ∨ dcs &&& 0x0F = 1
    · rw [if_pos hlow]
      simp only [languageOctets_high, languageOctets_low, hgroup, hlow, and_self, true_and]
      by_cases hfirst : o' ≠ 0 ∧ o ≠ 0
      · simp only [hfirst, ne_eq, not_false_eq_true, and_self, if_true]
        simpa [hfirst] using hcr hfirst.1
      · rw [if_neg hfirst]
        refine iff_of_true (by decide) ?_
        rintro ⟨rfl, ho⟩
        exact hfirst ⟨by decide, ho⟩
    · simp [hlow]
  · simp only [hgroup, false_and, iff_false, not_not, if_false]
    split
    · rfl
    split
    · rfl
    split
    · rfl
    split
    · rfl
    split <;> rfl

/-! ## One page -/

/-- What is copied of the septets that are read. -/
def copiedSeptets (skips : Bool) (septets : List UInt8) : List UInt8 :=
  septets.take (septets.length - if skips ∧ septets.length ≥ 3 then 3 else 0)

theorem length_copiedSeptets (skips : Bool) (septets : List UInt8) :
    (copiedSeptets skips septets).length =
      septets.length - if skips ∧ septets.length ≥ 3 then 3 else 0 := by
  rw [copiedSeptets, List.length_take]
  omega

theorem decode2gCbMsg7bit_eq {dcs : GsmCbMsgDcs} {buffer : GsmCbPduDecodeBuffer}
    {page : List UInt8} (hdata : buffer.pduData = page) (hne : page ≠ [])
    (hpage : page.length ≤ 82) :
    decode2gCbMsg7bit dcs buffer page.length =
      some (copiedSeptets (dcs.iso639Lang.1 ≠ 0) (unpack7bitCharForCBPdu page 94)) := by
  have hroom := length_unpack7bitCharForCBPdu_lt hpage
  rw [decode2gCbMsg7bit, hdata, if_neg hne, List.take_length]
  simp only [copiedSeptets, decide_eq_true_eq]
  rw [if_neg (by split <;> omega)]

/-- A septet is lost or too many only in pages of six octets or more. -/
theorem lastIsTold_of_short {page : List UInt8} (hne : page ≠ []) (hshort : page.length < 6) :
    LastIsTold page := by
  have hpos := List.length_pos_iff.2 hne
  constructor
  · intro hmod
    omega
  · intro hmod
    omega

theorem copiedSeptets_eq_iff {page : List UInt8} (hne : page ≠ []) (hpage : page.length ≤ 82)
    (skips : Bool) :
    copiedSeptets skips (unpack7bitCharForCBPdu page 94) = (pageSeptets page).drop 3 ↔
      LastIsTold page ∧ skips = true ∧ 3 ≤ page.length ∧
        (pageSeptets page).take ((pageSeptets page).length - 3) = (pageSeptets page).drop 3 := by
  have hroom : 8 * page.length / 7 < 94 := by omega
  have hpos := List.length_pos_iff.2 hne
  have hcount : (pageSeptets page).length = 8 * page.length / 7 := by simp [pageSeptets]
  by_cases htold : LastIsTold page
  · rw [(unpack7bitCharForCBPdu_eq_iff page hroom).2 htold]
    simp only [htold, true_and]
    by_cases hskips : skips = true ∧ (pageSeptets page).length ≥ 3
    · rw [copiedSeptets, if_pos hskips]
      exact ⟨fun heq => ⟨hskips.1, by omega, heq⟩, fun h => h.2.2⟩
    · constructor
      · intro heq
        have hlen := congrArg List.length heq
        rw [length_copiedSeptets, if_neg hskips, List.length_drop] at hlen
        omega
      · rintro ⟨hskip, hlong, -⟩
        exact absurd ⟨hskip, by omega⟩ hskips
  · have hlong : 6 ≤ page.length := by
      by_contra hshort
      exact htold (lastIsTold_of_short hne (by omega))
    have hne : (unpack7bitCharForCBPdu page 94).length ≠ (pageSeptets page).length :=
      fun hlen => htold ((unpack7bitCharForCBPdu_length_eq_iff page hroom).1 hlen)
    have hle := length_pageSeptets_le page hroom
    simp only [htold, false_and, iff_false]
    intro heq
    have hlen := congrArg List.length heq
    rw [length_copiedSeptets, List.length_drop] at hlen
    split at hlen <;> omega

/-! ## One message -/

/-- The text of a page is decoded where its last septet is told, and a language is skipped
where the septets repeat with the period of the language. -/
def TextIsCopied (dcs o o' : UInt8) (page : List UInt8) : Prop :=
  LastIsTold page ∧ (NamesLanguage dcs → ¬ (o' = 0x80 ∧ o ≠ 0) ∧ 3 ≤ page.length ∧
    (pageSeptets page).take ((pageSeptets page).length - 3) = (pageSeptets page).drop 3)

theorem copiedSeptets_eq_textSeptets_iff {page : List UInt8} (hne : page ≠ [])
    (hpage : page.length ≤ 82) (dcs o o' : UInt8) :
    copiedSeptets ((decodeCbMsgDCS dcs (languageOctets o o')).iso639Lang.1 ≠ 0)
        (unpack7bitCharForCBPdu page 94) = textSeptets dcs page ↔ TextIsCopied dcs o o' page := by
  have hlang := iso639Lang_decodeCbMsgDCS dcs o o'
  rw [textSeptets, TextIsCopied]
  by_cases hnames : NamesLanguage dcs
  · rw [if_pos hnames, copiedSeptets_eq_iff hne hpage, decide_eq_true_iff, hlang]
    simp only [hnames, true_and, true_implies]
  · have hnone : ¬ (decodeCbMsgDCS dcs (languageOctets o o')).iso639Lang.1 ≠ 0 := by
      rw [hlang]
      exact fun h => hnames h.1
    have hcopied : copiedSeptets false (unpack7bitCharForCBPdu page 94) =
        unpack7bitCharForCBPdu page 94 := by
      simp [copiedSeptets]
    rw [if_neg hnames, decide_eq_false hnone, hcopied,
      unpack7bitCharForCBPdu_eq_iff page (by omega)]
    simp only [hnames, false_implies, and_true]

section Message

variable {s s' m m' dcs pages : UInt8} {page nulls pdu : List UInt8}

/-- A header in the GSM format reads two octets of the page. -/
theorem createCbMessage_short (ext : TelephonyExtWrapper) (now : Int)
    (hpdu : pdu = s :: s' :: m :: m' :: dcs :: pages :: page) (hshort : page.length < 2)
    (hcommon : ¬ (ext.isEtwsMessage (m.toUInt16 <<< 8 ||| m'.toUInt16) = true ∧
      pdu.length ≤ maxEtwsPduLen)) : createCbMessage ext now pdu = none := by
  have hlen : pdu.length = 6 + page.length := by
    simp only [hpdu, List.length_cons]
    omega
  have hheader : (decode2gHeader ext now (.init .gsm 1)).run ⟨pdu, 0, pdu.length⟩ = none := by
    unfold decode2gHeader
    rw [run_getOneByte_bind (by omega) (by rw [hpdu]; rfl),
      run_getOneByte_bind (by omega) (by rw [hpdu]; rfl),
      run_getOneByte_bind (by omega) (by rw [hpdu]; rfl),
      run_getOneByte_bind (by omega) (by rw [hpdu]; rfl)]
    simp only [StateT.run_bind, StateT.run_get, Option.pure_def, Option.bind_eq_bind,
      Option.bind_some, if_neg hcommon]
    unfold decode2gHeaderCommonCb
    rw [run_getOneByte_bind (by omega) (by rw [hpdu]; rfl),
      run_getOneByte_bind (by omega) (by rw [hpdu]; rfl)]
    cases page with
    | nil => exact run_getOneByte_bind_end (Nat.le_of_eq hlen) _
    | cons o page =>
        rw [List.length_cons] at hlen hshort
        rw [run_getOneByte_bind (by omega) (by rw [hpdu]; rfl)]
        exact run_getOneByte_bind_end (by omega) _
  have hsmall : pdu.length ≤ maxPagePduLen + 6 := by
    rw [maxPagePduLen]
    omega
  have hsize : ¬ (pdu.length = 0 ∨ pdu.length > maxCbMsgLen) := by
    rw [maxCbMsgLen]
    omega
  rw [createCbMessage, if_neg hsize]
  simp [hsmall, hheader]

/-- A page in the default alphabet, with what an extension library says is discarded behind it:
when the text is decoded. -/
theorem messageRaw_eq_textSeptets_iff (ext : TelephonyExtWrapper) (now : Int)
    (hpdu : pdu = s :: s' :: m :: m' :: dcs :: pages :: (page ++ nulls))
    (hlen : pdu.length ≤ maxPagePduLen + 6)
    (hcommon : ¬ (ext.isEtwsMessage (m.toUInt16 <<< 8 ||| m'.toUInt16) = true ∧
      pdu.length ≤ maxEtwsPduLen))
    (hcut : (ext.discardNullBlock pdu ⟨pdu, 6, pdu.length⟩).totolLength = 6 + page.length)
    (hcoding : (decodeCbMsgDCS dcs 0).codingScheme = dataCoding7Bit) :
    (createCbMessage ext now pdu).map (·.messageRaw) = some (textSeptets dcs page) ↔
      page ≠ [] ∧ 2 ≤ (page ++ nulls).length ∧
        TextIsCopied dcs ((page ++ nulls).getD 0 0) ((page ++ nulls).getD 1 0) page := by
  by_cases hahead : 2 ≤ (page ++ nulls).length
  case neg =>
    rw [createCbMessage_short ext now hpdu (by omega) hcommon]
    simp only [hahead, false_and, and_false, iff_false]
    exact fun h => nomatch h
  rcases hfront : page ++ nulls with _ | ⟨o, _ | ⟨o', rest⟩⟩
  · simp [hfront] at hahead
  · simp [hfront] at hahead
  have hbuffer : (ext.discardNullBlock pdu ⟨pdu, 6, pdu.length⟩) = ⟨pdu, 6, 6 + page.length⟩ := by
    rw [← hcut]
    unfold TelephonyExtWrapper.discardNullBlock
    cases ext.getCbsPduLength <;> rfl
  have hdata : (⟨pdu, 6, 6 + page.length⟩ : GsmCbPduDecodeBuffer).pduData = page := by
    rw [GsmCbPduDecodeBuffer.pduData, hpdu]
    simp [Nat.add_comm 6]
  have hpage : page.length ≤ 82 := by
    rw [hpdu] at hlen
    simp only [List.length_cons, List.length_append, maxPagePduLen] at hlen
    omega
  rw [hfront] at hpdu
  rw [createCbMessage_gsm ext now hpdu hlen hcommon, hbuffer, ← languageOctets, decode2gCbMsg,
    codingScheme_decodeCbMsgDCS, hcoding, if_pos rfl]
  by_cases hempty : page = []
  · simp [hempty]
  have hpos := List.length_pos_iff.2 hempty
  rw [if_neg (show ¬ 6 ≥ 6 + page.length by omega),
    show (6 + page.length - 6) % 2 ^ 16 = page.length by omega,
    decode2gCbMsg7bit_eq hdata hempty hpage, Option.some_inj,
    copiedSeptets_eq_textSeptets_iff hempty hpage]
  simp [hempty]

/-- No extension library is there. -/
def TelephonyExtWrapper.absent : TelephonyExtWrapper := ⟨none, none, none⟩

/-- The language "en" and the text "A". -/
def englishPage : List UInt8 := [0x65, 0x77, 0x23, 0x08]

theorem messageRaw_eq_textSeptets_english :
    (createCbMessage .absent 0 ([0, 0, 0, 50, 0x01, 0x11] ++ englishPage)).map (·.messageRaw) =
      some (textSeptets 0x01 englishPage) := by
  have hpdu : [0, 0, 0, 50, 0x01, 0x11] ++ englishPage =
      0 :: 0 :: 0 :: 50 :: 0x01 :: 0x11 :: (englishPage ++ []) := rfl
  exact (messageRaw_eq_textSeptets_iff .absent 0 hpdu (by decide) (by decide) rfl rfl).2
    ⟨by decide, by decide, by simp [LastIsTold, englishPage], by decide⟩

/-- With the language said to precede the text, the language is left and the text is gone. -/
theorem messageRaw_ne_textSeptets_english :
    (createCbMessage .absent 0 ([0, 0, 0, 50, 0x10, 0x11] ++ englishPage)).map (·.messageRaw) ≠
      some (textSeptets 0x10 englishPage) := by
  decide

end Message

end TelephonySms.Broadcast
