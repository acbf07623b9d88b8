import TelephonySms.Mms.Body

/-! # Decoding any octets is safe

Whatever the octets are, decoding ends, its position never leaves the buffer, and every
octet it looks at and every range it copies lies in the buffer.
-/

namespace TelephonySms.Mms

open OctetReader Reader

namespace MmsBodyPartHeader

variable (ph : MmsBodyPartHeader)

theorem decodeDisposition_moves : Moves decodeDisposition (fun _ => 0) 0 := by
  refine Moves.bind getOneByte_moves (le_refl 0) fun oneByte => ?_
  refine Moves.ite _ (Moves.pure _ (by simp)) (Moves.ite _ (Moves.pure _ (by simp))
    (Moves.ite _ (Moves.pure _ (by simp)) ?_))
  refine Moves.bind (decreasePointer_moves 1) (by simp) fun _ => ?_
  exact Moves.bind decodeText_moves (by simp) fun _ => Moves.pure _ (by simp)

theorem decodeDispositionParameter_moves (dispLen beginPos : Nat) :
    Moves (decodeDispositionParameter ph dispLen beginPos) (fun _ => 0) 0 := by
  refine Moves.bind getCurPosition_moves (le_refl 0) fun endPostion => ?_
  refine Moves.ite _ (Moves.pure _ (by simp)) (Moves.ite _ (Moves.pure _ (by simp)) ?_)
  refine Moves.bind getOneByte_moves (by simp) fun oneByte => ?_
  have hname : Moves (decodeFileName ph oneByte) (fun _ => 0) 0 :=
    Moves.ite _ (Moves.bind decodeText_moves (le_refl 0) fun _ => Moves.pure _ (by simp))
      (Moves.pure _ (le_refl 0))
  refine Moves.bind hname (by simp) fun ph => ?_
  refine Moves.bind getCurPosition_moves (by simp) fun endPostion => ?_
  refine Moves.bind (Moves.guard _ (le_refl 0)) (by simp) fun _ => ?_
  exact Moves.bind (increasePointer_moves _) (by simp) fun _ => Moves.pure _ (by simp)

theorem decodeContentDisposition_moves :
    Moves (decodeContentDisposition ph) (fun _ => 0) 0 := by
  refine Moves.bind decodeUintvar_moves (le_refl 0) fun r => ?_
  refine Moves.bind getCurPosition_moves (by simp) fun beginPostion => ?_
  refine Moves.bind decodeDisposition_moves (by simp) fun disposition => ?_
  exact Moves.bind (decodeDispositionParameter_moves _ _ _) (by simp) fun r =>
    Moves.pure _ (by simp)

theorem decodeWellKnownValue_moves (fieldCode : UInt8) :
    Moves (decodeWellKnownValue ph fieldCode) (fun _ => 0) 0 := by
  refine Moves.ite _ ?_ (Moves.ite _ ?_ (Moves.ite _ (decodeContentDisposition_moves ph) ?_))
  · exact Moves.bind decodeText_moves (le_refl 0) fun _ => Moves.pure _ (by simp)
  · exact Moves.bind decodeQuotedText_moves (le_refl 0) fun _ => Moves.pure _ (by simp)
  · refine Moves.bind (Moves.attempt decodeQuotedText_moves) (le_refl _) fun r => ?_
    exact Moves.pure _ (by cases r <;> simp)

theorem decodeWellKnownHeader_moves (headerLen : Nat) :
    Moves (decodeWellKnownHeader ph headerLen) (fun _ => 1) 0 := by
  refine Moves.bind getOneByte_moves (le_refl 0) fun oneByte => ?_
  exact Moves.bind (decodeWellKnownValue_moves ph _) (by simp) fun _ => Moves.pure _ (by simp)

theorem decodeApplicationHeader_moves : Moves (decodeApplicationHeader ph) (fun _ => 1) 0 := by
  refine Moves.bind decodeTokenText_moves (le_refl 0) fun _ => ?_
  exact Moves.bind decodeText_moves (by simp) fun _ => Moves.pure _ (by simp)

end MmsBodyPartHeader

namespace MmsBodyPart

variable (platform : Platform)

theorem decodeOnePartHeader_moves (state : MmsBodyPartHeader × Nat) :
    Moves (decodeOnePartHeader state) (Sum.elim (fun _ => 1) (fun _ => 0)) 0 := by
  refine Moves.ite _ ?_ (Moves.pure _ (by simp))
  refine Moves.bind peekOneByte_moves (le_refl 0) fun oneByte => ?_
  refine Moves.ite _ ?_ (Moves.ite _ ?_ (Moves.fail (by simp)))
  · exact Moves.bind (MmsBodyPartHeader.decodeWellKnownHeader_moves _ _) (by simp) fun _ =>
      Moves.pure _ (by simp)
  · exact Moves.bind (MmsBodyPartHeader.decodeApplicationHeader_moves _) (by simp) fun _ =>
      Moves.pure _ (by simp)

theorem decodePartHeader_moves (ph : MmsBodyPartHeader) (headerLen : Nat) :
    Moves (decodePartHeader ph headerLen) (fun _ => 0) 0 :=
  Moves.loop decodeOnePartHeader_moves _

theorem decodePartBody_moves (ph : MmsBodyPartHeader) (bodyLength : Nat) :
    Moves (decodePartBody platform ph bodyLength) (fun _ => 0) 0 := by
  intro c hc
  -- The offset is the position, and the checks before the copy do not move it.
  refine MovesAt.bind (getCurPosition_moves c hc) fun offset c' hrun _ => ?_
  obtain ⟨rfl, rfl⟩ : c.position = offset ∧ c = c' := by
    simpa [getCurPosition] using hrun
  refine MovesAt.bind ((getSize_moves c hc).mono (fun _ => le_refl _) (by simp))
    fun size c' hrun _ => ?_
  obtain ⟨-, rfl⟩ : c.octets.length = size ∧ c = c' := by
    simpa [getSize] using hrun
  by_cases hfits : ¬ (u32 (c.position + bodyLength) > size ∨ bodyLength > MMS_PDU_MAX_SIZE)
  · rw [guard_of hfits]
    refine MovesAt.bind (k := fun _ => 0) (MovesAt.pure hc () (le_refl 0)) fun _ c' hrun' _ => ?_
    obtain ⟨-, rfl⟩ : () = () ∧ c = c' := by simpa using hrun'
    refine MovesAt.bind ((readDataBuffer_movesAt hc bodyLength).mono (fun _ => le_refl _)
      (by simp)) fun bodyPartBuffer c' _ hc' => ?_
    have htransfer : Moves (transferBody platform ph bodyPartBuffer) (fun _ => 0) 0 :=
      Moves.ite _ (Moves.bind (Moves.guard _ (le_refl 0)) (le_refl 0) fun _ =>
        Moves.pure _ (by simp)) (Moves.pure _ (le_refl 0))
    refine Moves.bind htransfer (by simp) (fun body => ?_) c' hc'
    exact Moves.bind (increasePointer_moves _) (by simp) fun _ => Moves.pure _ (by simp)
  · rw [guard_of_not hfits]
    exact MovesAt.of_failed hc (bind_of_failed rfl _) (by simp)

theorem decodePart_moves (nEntries : Nat) :
    Moves (decodePart platform nEntries) (fun _ => 0) (-1) := by
  refine Moves.bind decodeUintvar_moves (by simp) fun _ => ?_
  refine Moves.bind decodeUintvar_moves (by simp) fun _ => ?_
  refine Moves.bind (decodeMmsContentType_moves _) (by simp) fun _ => ?_
  refine Moves.bind (Moves.guard _ (le_refl 0)) (by simp) fun _ => ?_
  refine Moves.bind (decodePartHeader_moves _ _) (by simp) fun _ => ?_
  exact Moves.bind (decodePartBody_moves platform _ _) (by simp) fun _ => Moves.pure _ (by simp)

end MmsBodyPart

namespace MmsBody

variable (platform : Platform)

theorem decodeParts_moves (nEntries : Nat) :
    Moves (decodeParts platform nEntries) (fun _ => 0) (-1) := by
  induction nEntries with
  | zero => exact Moves.pure _ (le_refl 0)
  | succ nEntries ih =>
      refine Moves.bind (MmsBodyPart.decodePart_moves platform _) (by simp) fun _ => ?_
      exact Moves.bind ih (by simp) fun _ => Moves.pure _ (by simp)

theorem decodeMultipart_moves (body : MmsBody) :
    Moves (decodeMultipart platform body) (fun _ => 0) (-1) := by
  refine Moves.bind decodeUintvar_moves (by simp) fun _ => ?_
  refine Moves.bind getSize_moves (by simp) fun _ => ?_
  refine Moves.bind getCurPosition_moves (by simp) fun _ => ?_
  refine Moves.bind (Moves.guard _ (le_refl 0)) (by simp) fun _ => ?_
  exact Moves.bind (decodeParts_moves platform _) (by simp) fun _ => Moves.pure _ (by simp)

theorem decodeMmsBody_moves (body : MmsBody) (header : MmsHeader) :
    Moves (decodeMmsBody platform body header) (fun _ => 0) (-1) := by
  unfold decodeMmsBody
  cases header.octetValueMap MmsFieldCode.MMS_MESSAGE_TYPE with
  | none => exact Moves.fail (by simp)
  | some msgType =>
      exact Moves.ite _ (Moves.pure _ (le_refl 0)) (Moves.ite _ (decodeMultipart_moves platform _)
        (Moves.pure _ (le_refl 0)))

end MmsBody

namespace MmsMsg

theorem decodeBuffer_moves (platform : Platform) (msg : MmsMsg) :
    Moves (decodeBuffer platform msg) (fun _ => 0) (-1) := by
  refine Moves.bind (MmsHeader.decodeMmsHeader_moves platform _) (by simp) fun _ => ?_
  exact Moves.bind (MmsBody.decodeMmsBody_moves platform _ _) (by simp) fun _ =>
    Moves.pure _ (by simp)

theorem startOf_sound {inBuff : Octets} (h : inBuff.length ≤ MMS_PDU_MAX_SIZE) :
    (startOf inBuff).Sound := by
  refine ⟨?_, Nat.zero_le _, by simp [startOf]⟩
  exact Nat.lt_of_le_of_lt h (by decide)

/-- A round of one of the three loops over headers that goes on has moved ahead, from every
position the run can be at. -/
structure RoundsProgress (platform : Platform) (c : Cursor) : Prop where
  decodeMmsHeader : ∀ h h', (MmsHeader.decodeOneField platform h c).1 = .done (.inl h') →
    c.position < (MmsHeader.decodeOneField platform h c).2.position
  decodeParameter : ∀ s s', (decodeOneParameter s c).1 = .done (.inl s') →
    c.position < (decodeOneParameter s c).2.position
  decodePartHeader : ∀ s s', (MmsBodyPart.decodeOnePartHeader s c).1 = .done (.inl s') →
    c.position < (MmsBodyPart.decodeOnePartHeader s c).2.position

theorem roundsProgress_of_sound (platform : Platform) {c : Cursor} (hc : c.Sound) :
    RoundsProgress platform c := by
  constructor
  · intro h h' hrun
    have hmoved := (MmsHeader.decodeOneField_moves platform h c hc).done _ hrun
    simp only [Sum.elim_inl] at hmoved
    omega
  · intro s s' hrun
    have hmoved := (decodeOneParameter_moves s c hc).done _ hrun
    simp only [Sum.elim_inl] at hmoved
    omega
  · intro s s' hrun
    have hmoved := (MmsBodyPart.decodeOnePartHeader_moves s c hc).done _ hrun
    simp only [Sum.elim_inl] at hmoved
    omega

/-- Decoding octets of any size the buffer takes ends. After every operation the position
is inside the octets, so is every octet looked at and every range copied, and the loops
over headers move ahead with every round. -/
theorem decodeMsg_safe (platform : Platform) (msg : MmsMsg) (inBuff : Octets)
    (hpos : 1 ≤ inBuff.length) (hmax : inBuff.length ≤ MMS_PDU_MAX_SIZE) :
    decodeMsg platform msg inBuff ≠ .running ∧
      (∀ t ∈ (msg.decodeBuffer platform (startOf inBuff)).2.trace,
        t.position ≤ inBuff.length ∧ t.offset + t.count ≤ inBuff.length) ∧
      (∀ c : Cursor, c.octets = inBuff → c.Sound → RoundsProgress platform c) := by
  have hsafe := decodeBuffer_moves platform msg (startOf inBuff) (startOf_sound hmax)
  refine ⟨?_, ?_, fun c _ hc => roundsProgress_of_sound platform hc⟩
  · unfold decodeMsg
    rw [if_neg (by omega)]
    exact hsafe.returns
  · intro t ht
    have htouched := hsafe.sound.touched t ht
    rwa [hsafe.same] at htouched

/-- The type of an acknowledgement, and a second field without its value. -/
theorem decodeMsg_safe_truncated :
    decodeMsg plainPlatform {} [0x8c, 0x85, 0x8d] ≠ .running ∧
      (∀ t ∈ (decodeBuffer plainPlatform {} (startOf [0x8c, 0x85, 0x8d])).2.trace,
        t.position ≤ 3 ∧ t.offset + t.count ≤ 3) :=
  have h := decodeMsg_safe plainPlatform {} [0x8c, 0x85, 0x8d] (by decide) (by decide)
  ⟨h.1, h.2.1⟩

end MmsMsg

end TelephonySms.Mms
