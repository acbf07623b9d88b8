import TelephonySms.Mms.HttpExchange
import TelephonySms.ReaderRelation

/-! # Send confirmations one after the other

`CheckSendConf` decodes every response into the one header of the client. What it reads of
a response does not depend on the header, but a response status that an earlier response
has left there counts for a later response that has none.
-/

namespace TelephonySms.Mms

open OctetReader Reader MmsFieldCode

/-! ## Content types -/

theorem decodeTextField_alike (param param' : MmsContentParam) (field : UInt8) (length : Int) :
    Alike (fun s s' => s.2 = s'.2) (decodeTextField param field length)
      (decodeTextField param' field length) :=
  Alike.bind_same _ fun _ => Alike.pure rfl

theorem decodeCharsetField_alike (param param' : MmsContentParam) (length : Int) :
    Alike (fun s s' => s.2 = s'.2) (decodeCharsetField param length)
      (decodeCharsetField param' length) := by
  apply Alike.bind_same
  intro oneByte
  apply Alike.ite
  · apply Alike.bind_same
    intro r
    rcases r with ⟨sCharset, len⟩
    dsimp only
    cases getCharSetIntFromString sCharset with
    | none => exact Alike.fail
    | some charset => exact Alike.pure rfl
  · exact Alike.bind_same _ fun _ => Alike.bind_same _ fun _ => Alike.bind_same _ fun _ =>
      Alike.pure rfl

theorem decodeTypeField_alike (param param' : MmsContentParam) (length : Int) :
    Alike (fun s s' => s.2 = s'.2) (decodeTypeField param length)
      (decodeTypeField param' length) := by
  apply Alike.bind_same
  intro oneByte
  apply Alike.ite
  · exact Alike.pure rfl
  · exact Alike.bind_same _ fun _ => Alike.bind_same _ fun _ => Alike.pure rfl

/-- The parameters so far do not matter to how the next are read. -/
theorem decodeParameter_alike (param param' : MmsContentParam) (length : Int) :
    Alike (fun _ _ => True) (decodeParameter param length) (decodeParameter param' length) := by
  apply Alike.loop (T := fun s s' => s.2 = s'.2)
  · intro s s' hs
    rcases s with ⟨p, valueLength⟩
    rcases s' with ⟨p', valueLength'⟩
    obtain rfl : valueLength = valueLength' := hs
    unfold decodeOneParameter
    apply Alike.ite
    · apply Alike.bind_same
      intro paramCode
      apply Alike.ite
      · exact Alike.bind (decodeCharsetField_alike p p' _) fun _ _ h => Alike.pure (.inl h)
      apply Alike.ite
      · exact Alike.bind (decodeTextField_alike p p' paramCode _) fun _ _ h => Alike.pure (.inl h)
      apply Alike.ite
      · exact Alike.bind (decodeTypeField_alike p p' _) fun _ _ h => Alike.pure (.inl h)
      · exact Alike.bind_same _ fun _ => Alike.pure (.inl rfl)
    · exact Alike.pure (.inr trivial)
  · rfl

theorem decodeMmsCTGeneralForm_alike (contentType contentType' : MmsContentType) :
    Alike (fun _ _ => True) (decodeMmsCTGeneralForm contentType)
      (decodeMmsCTGeneralForm contentType') := by
  unfold decodeMmsCTGeneralForm
  refine Alike.bind_same _ fun _ => Alike.bind_same _ fun _ => Alike.bind_same _ fun r => ?_
  rcases r with ⟨valueLength, returnLength⟩
  refine Alike.bind_same _ fun _ => Alike.bind_same _ fun _ => Alike.bind_same _ fun _ => ?_
  apply Alike.ite
  · refine Alike.bind_same _ fun _ => Alike.bind_same _ fun _ => ?_
    exact Alike.bind (decodeParameter_alike _ _ _) fun _ _ _ => Alike.pure trivial
  · apply Alike.bind_same
    intro isString
    apply Alike.ite
    · apply Alike.bind_same
      intro text
      exact Alike.bind (decodeParameter_alike _ _ _) fun _ _ _ => Alike.pure trivial
    · exact Alike.fail

theorem decodeMmsContentType_alike (contentType contentType' : MmsContentType) :
    Alike (fun _ _ => True) (decodeMmsContentType contentType)
      (decodeMmsContentType contentType') := by
  unfold decodeMmsContentType
  apply Alike.bind_same
  intro isShort
  apply Alike.ite
  · exact Alike.bind_same _ fun _ => Alike.pure trivial
  · apply Alike.bind_same
    intro isString
    apply Alike.ite
    · apply Alike.bind_same
      intro text
      exact Alike.bind_same _ fun _ => Alike.pure trivial
    · exact decodeMmsCTGeneralForm_alike contentType contentType'

/-! ## Headers -/

/-- A header that has, beside what the other has, at most the response status `old`. -/
def Leaves (old : Option UInt8) (h fresh : MmsHeader) : Prop :=
  h.octetValueMap MMS_RESPONSE_STATUS = (fresh.octetValueMap MMS_RESPONSE_STATUS).or old

theorem Leaves.putOctet {old : Option UInt8} {h fresh : MmsHeader} (hleaves : Leaves old h fresh)
    (fieldId value : UInt8) :
    Leaves old (h.putOctet fieldId value) (fresh.putOctet fieldId value) := by
  unfold Leaves at hleaves ⊢
  unfold MmsHeader.putOctet
  by_cases hfield : MMS_RESPONSE_STATUS = fieldId
  · simp [hfield]
  · simpa [Function.update_of_ne hfield] using hleaves

theorem octetValueMap_emplaceAddress (h : MmsHeader) (field : AddressField)
    (addresses : List MmsAddress) :
    (h.emplaceAddress field addresses).octetValueMap = h.octetValueMap := by
  unfold MmsHeader.emplaceAddress
  split <;> rfl

theorem Leaves.emplaceAddress {old : Option UInt8} {h fresh : MmsHeader}
    (hleaves : Leaves old h fresh) (field : AddressField) (addresses : List MmsAddress) :
    Leaves old (h.emplaceAddress field addresses) (fresh.emplaceAddress field addresses) := by
  unfold Leaves
  rw [octetValueMap_emplaceAddress, octetValueMap_emplaceAddress]
  exact hleaves

namespace MmsHeader

variable (platform : Platform) {old : Option UInt8} {h fresh : MmsHeader}

theorem handle_alike (hleaves : Leaves old h fresh) (fieldId : UInt8) (handler : FieldHandler) :
    Alike (Leaves old) (handle platform fieldId h handler)
      (handle platform fieldId fresh handler) := by
  cases handler with
  | decodeFieldOctetValue =>
      refine Alike.bind_same _ fun _ => Alike.bind_same _ fun oneByte => ?_
      exact Alike.pure (hleaves.putOctet fieldId oneByte)
  | decodeMmsMsgType =>
      refine Alike.bind_same _ fun _ => Alike.bind_same _ fun oneByte => Alike.bind_same _ fun _ => ?_
      exact Alike.pure (hleaves.putOctet fieldId oneByte)
  | decodeMmsContentType =>
      apply Alike.bind_same
      intro _
      exact Alike.bind (decodeMmsContentType_alike _ _) fun _ _ _ => Alike.pure hleaves
  | decodeFieldLongValue =>
      exact Alike.bind_same _ fun _ => Alike.bind_same _ fun _ => Alike.pure hleaves
  | decodeFieldIntegerValue =>
      exact Alike.bind_same _ fun _ => Alike.bind_same _ fun _ => Alike.pure hleaves
  | decodeFieldTextStringValue =>
      exact Alike.bind_same _ fun _ => Alike.bind_same _ fun _ => Alike.pure hleaves
  | decodeFieldEncodedStringValue =>
      exact Alike.bind_same _ fun _ => Alike.bind_same _ fun _ => Alike.pure hleaves
  | decodeFieldAddressModelValue field =>
      exact Alike.bind_same _ fun _ => Alike.bind_same _ fun _ => Alike.pure hleaves
  | decodeFieldDate =>
      exact Alike.bind_same _ fun _ => Alike.bind_same _ fun _ => Alike.bind_same _ fun _ =>
        Alike.bind_same _ fun _ => Alike.pure hleaves
  | decodeFieldPreviouslySentDate =>
      exact Alike.bind_same _ fun _ => Alike.bind_same _ fun _ => Alike.bind_same _ fun _ =>
        Alike.bind_same _ fun _ => Alike.pure hleaves
  | decodeFieldMBox =>
      exact Alike.bind_same _ fun _ => Alike.bind_same _ fun _ => Alike.bind_same _ fun _ =>
        Alike.bind_same _ fun _ => Alike.pure hleaves
  | decodeFieldMMFlag =>
      exact Alike.bind_same _ fun _ => Alike.bind_same _ fun _ => Alike.bind_same _ fun _ =>
        Alike.bind_same _ fun _ => Alike.pure hleaves
  | decodeFromValue =>
      refine Alike.bind_same _ fun _ => Alike.bind_same _ fun _ => Alike.bind_same _ fun _ => ?_
      apply Alike.ite
      · exact Alike.bind_same _ fun _ => Alike.pure (hleaves.emplaceAddress .sender _)
      · apply Alike.ite
        · exact Alike.pure (hleaves.emplaceAddress .sender _)
        · exact Alike.fail

theorem decodeOneField_alike (hleaves : Leaves old h fresh) :
    Alike (Sum.LiftRel (Leaves old) (Leaves old)) (decodeOneField platform h)
      (decodeOneField platform fresh) := by
  apply Alike.bind_same
  intro r
  cases r with
  | none => exact Alike.pure (.inr hleaves)
  | some oneByte =>
      dsimp only
      cases memberFuncMap (oneByte ||| 0x80) with
      | none => exact Alike.bind_same _ fun _ => Alike.pure (.inl hleaves)
      | some handler =>
          apply Alike.bind (handle_alike platform hleaves _ handler)
          intro h' fresh' hleaves'
          exact Alike.ite (Alike.pure (.inr hleaves')) (Alike.pure (.inl hleaves'))

end MmsHeader

namespace HttpExchange

variable (platform : Platform)

theorem keepMmsHeader_alike {old : Option UInt8} {h fresh : MmsHeader}
    (hleaves : Leaves old h fresh) :
    Alike (fun r r' => r.1 = r'.1 ∧ Leaves old r.2 r'.2) (keepMmsHeader platform h)
      (keepMmsHeader platform fresh) := by
  unfold keepMmsHeader
  refine Alike.loop (T := Leaves old) ?_ hleaves
  intro h fresh hleaves
  apply Alike.bind (Alike.attempt (MmsHeader.decodeOneField_alike platform hleaves))
  intro r r' hr
  cases hr with
  | none => exact Alike.pure (.inr ⟨rfl, hleaves⟩)
  | some hnext =>
      cases hnext with
      | inl hleaves' => exact Alike.pure (.inl hleaves')
      | inr hleaves' => exact Alike.pure (.inr ⟨rfl, hleaves'⟩)

/-! ## Verdicts -/

/-- The verdict of a client that has seen no other response. -/
def judgeAlone (response : Octets) : Bool := (checkSendConf platform {} response).1

/-- The response status that is read of a response, before its header ends or fails. -/
def readStatus (response : Octets) : Option UInt8 :=
  (checkSendConf platform {} response).2.octetValueMap MMS_RESPONSE_STATUS

/-- The response is short enough, and all of its header can be decoded. -/
def Decodes (response : Octets) : Prop :=
  let length := u32 response.length
  ¬ (length > SEND_CONF_MAX_SIZE ∨ length = 0) ∧
    (keepMmsHeader platform {} ⟨response.take length, 0, []⟩).1.toOption.map Prod.fst = some true

/-- What a client does that has read the status `old` before. -/
theorem checkSendConf_of_status {old : Option UInt8} {h : MmsHeader}
    (hold : h.octetValueMap MMS_RESPONSE_STATUS = old) (response : Octets) :
    (checkSendConf platform h response).2.octetValueMap MMS_RESPONSE_STATUS =
        (readStatus platform response).or old ∧
      ((checkSendConf platform h response).1 = true ↔
        (Decodes platform response →
          ∀ value ∈ (readStatus platform response).or old,
            value = SEND_CONF_RESPONSE_STATUS_OK)) := by
  have hleaves : Leaves old h {} := by
    rw [Leaves, hold]
    rfl
  have halike := (keepMmsHeader_alike platform hleaves
    ⟨response.take (u32 response.length), 0, []⟩).1
  simp only [readStatus, Decodes, checkSendConf]
  by_cases hlength : u32 response.length > SEND_CONF_MAX_SIZE ∨ u32 response.length = 0
  · simp [hlength, hold]
  · simp only [if_neg hlength]
    revert halike
    generalize (keepMmsHeader platform h ⟨response.take (u32 response.length), 0, []⟩).1 = r
    generalize (keepMmsHeader platform {} ⟨response.take (u32 response.length), 0, []⟩).1 = r'
    intro halike
    cases halike with
    | failed => simp [Outcome.toOption, hold]
    | running => simp [Outcome.toOption, hold]
    | @done a a' hrel =>
        rcases a with ⟨ended, kept⟩
        rcases a' with ⟨ended', fresh⟩
        rcases hrel with ⟨hended, hkept⟩
        obtain rfl : ended = ended' := hended
        have hstatus : kept.octetValueMap MMS_RESPONSE_STATUS =
            (fresh.octetValueMap MMS_RESPONSE_STATUS).or old := hkept
        cases ended with
        | false => simp [Outcome.toOption, hstatus]
        | true =>
            cases hread : fresh.octetValueMap MMS_RESPONSE_STATUS with
            | none =>
                rw [hread, Option.none_or] at hstatus
                subst hstatus
                cases hkept : kept.octetValueMap MMS_RESPONSE_STATUS with
                | none => simp [hkept, hread]
                | some value => simp [Outcome.toOption, hkept, hread, hlength]
            | some own =>
                rw [hread, Option.some_or] at hstatus
                simp [Outcome.toOption, hstatus, hread, hlength]

/-- One response is judged as if it were alone, or it is judged by the status before it. -/
theorem checkSendConf_eq_judgeAlone_iff {old : Option UInt8} {h : MmsHeader}
    (hold : h.octetValueMap MMS_RESPONSE_STATUS = old) (response : Octets) :
    (checkSendConf platform h response).1 = judgeAlone platform response ↔
      (Decodes platform response → readStatus platform response = none →
        ∀ value ∈ old, value = SEND_CONF_RESPONSE_STATUS_OK) := by
  have hverdict := (checkSendConf_of_status platform hold response).2
  have hfresh : ({} : MmsHeader).octetValueMap MMS_RESPONSE_STATUS = none := rfl
  have halone := (checkSendConf_of_status platform hfresh response).2
  rw [judgeAlone, Bool.eq_iff_iff, hverdict, halone]
  cases readStatus platform response with
  | none => simp
  | some own => simp

/-- The verdicts on responses that come one after the other, from a header on. -/
def verdicts (h : MmsHeader) : List Octets → List Bool
  | [] => []
  | response :: later =>
      (checkSendConf platform h response).1 ::
        verdicts (checkSendConf platform h response).2 later

/-- The last response status that is read of the responses. -/
def lastStatus (old : Option UInt8) (earlier : List Octets) : Option UInt8 :=
  earlier.foldl (fun status response => (readStatus platform response).or status) old

/-- Where a response has no status of its own, the last one before it is OK. -/
def NothingLeft (old : Option UInt8) (responses : List Octets) : Prop :=
  ∀ earlier response later, responses = earlier ++ response :: later →
    Decodes platform response → readStatus platform response = none →
      ∀ value ∈ lastStatus platform old earlier, value = SEND_CONF_RESPONSE_STATUS_OK

theorem nothingLeft_cons_iff (old : Option UInt8) (response : Octets) (later : List Octets) :
    NothingLeft platform old (response :: later) ↔
      (Decodes platform response → readStatus platform response = none →
        ∀ value ∈ old, value = SEND_CONF_RESPONSE_STATUS_OK) ∧
      NothingLeft platform ((readStatus platform response).or old) later := by
  constructor
  · intro h
    constructor
    · exact h [] response later rfl
    · intro earlier next rest heq
      exact h (response :: earlier) next rest (by rw [heq]; rfl)
  · intro ⟨hfirst, hrest⟩ earlier next rest heq
    cases earlier with
    | nil =>
        cases heq
        exact hfirst
    | cons first earlier =>
        cases heq
        exact hrest earlier next rest rfl

theorem verdicts_eq_iff_of_status {old : Option UInt8} {h : MmsHeader}
    (hold : h.octetValueMap MMS_RESPONSE_STATUS = old) (responses : List Octets) :
    verdicts platform h responses = responses.map (judgeAlone platform) ↔
      NothingLeft platform old responses := by
  induction responses generalizing h old with
  | nil =>
      refine iff_of_true rfl ?_
      intro earlier response later heq
      simp at heq
  | cons response later ih =>
      rw [verdicts, List.map_cons, List.cons.injEq, checkSendConf_eq_judgeAlone_iff platform hold,
        ih (checkSendConf_of_status platform hold response).1, nothingLeft_cons_iff]

/-- A client judges every response of a run on its own exactly when no response without a
status comes behind one that has left another status than OK. -/
theorem verdicts_eq_iff (responses : List Octets) :
    verdicts platform {} responses = responses.map (judgeAlone platform) ↔
      NothingLeft platform none responses :=
  verdicts_eq_iff_of_status platform rfl responses

/-- A message type and no status, behind a refused message. -/
theorem status_leaks :
    verdicts plainPlatform {} [[0x92, 0x81], [0x8c, 0x81]] = [false, false] ∧
      judgeAlone plainPlatform [0x8c, 0x81] = true :=
  ⟨by decide, by decide⟩

end HttpExchange

end TelephonySms.Mms
