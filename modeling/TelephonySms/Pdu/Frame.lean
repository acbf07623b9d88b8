import TelephonySms.Pdu.Tpdu

/-! # What a writer leaves alone

Every octet of a parameter is written behind the octets that stand before the
index, whatever the user data does.
-/

namespace TelephonySms.Pdu

open SmsPduBuffer

/-! ## What was written stays -/

/-- The writer is past `front` and one more octet, and `front` is there. -/
structure Keeps (front : List UInt8) (b : SmsPduBuffer) : Prop where
  kept : front <+: b.data
  lt : front.length < b.index
  index_le : b.index ≤ b.data.length
  size : b.data.length = 256

section Keeps

variable {front : List UInt8} {w : UInt8} {b b' : SmsPduBuffer}

theorem prefix_set {front xs : List UInt8} (h : front <+: xs) {i : Nat} (hi : front.length ≤ i)
    (w : UInt8) : front <+: xs.set i w := by
  obtain ⟨more, rfl⟩ := h
  rw [List.set_append_right _ _ hi]
  exact List.prefix_append front _

theorem Keeps.moveForward (h : Keeps front b) (len : Nat) : Keeps front (b.moveForward len) := by
  have hlt := h.lt
  unfold SmsPduBuffer.moveForward getSize
  split
  · exact h
  · split
    · exact h
    · exact ⟨h.kept, by simp; omega, by simp; omega, h.size⟩

theorem Keeps.writeBits {l : Nat} (h : Keeps front b) (hw : b.writeBits w l = some b') :
    Keeps front b' := by
  have hlt := h.lt
  unfold SmsPduBuffer.writeBits at hw
  split at hw
  · simp at hw
  split at hw
  · split at hw
    · simp at hw
    · next octet ho =>
        have hindex := (List.getElem?_eq_some_iff.mp ho).1
        have hkept := prefix_set h.kept (Nat.le_of_lt hlt)
        split at hw <;> cases hw <;>
          exact ⟨hkept _, by simp; omega, by simp; omega, by simpa using h.size⟩
  · split at hw
    · next octet next _ hn =>
        have hindex := (List.getElem?_eq_some_iff.mp hn).1
        have hkept := prefix_set h.kept (Nat.le_of_lt hlt)
        cases hw
        exact ⟨prefix_set (hkept _) (by omega) _, by simp; omega, by simp; omega,
          by simpa using h.size⟩
    · simp at hw

theorem Keeps.writeByte (h : Keeps front b) (hw : b.writeByte w = some b') : Keeps front b' := by
  have hlt := h.lt
  unfold SmsPduBuffer.writeByte getSize at hw
  split at hw
  · exact h.writeBits hw
  split at hw
  · cases hw
    exact ⟨prefix_set h.kept (Nat.le_of_lt hlt) _, by simp; omega, by simp; omega,
      by simpa using h.size⟩
  · simp at hw

theorem Keeps.insertByte {i : Nat} (h : Keeps front b) (hi : front.length ≤ i)
    (hw : b.insertByte w i = some b') : Keeps front b' := by
  unfold SmsPduBuffer.insertByte at hw
  split at hw
  · cases hw
    exact ⟨prefix_set h.kept hi _, h.lt, by simpa using h.index_le, by simpa using h.size⟩
  · simp at hw

theorem Keeps.memcpy {destMax : Nat} {octets : List UInt8} (h : Keeps front b)
    (hfit : b.index + octets.length ≤ 256) (hw : b.memcpy destMax octets = some b') :
    Keeps front b' := by
  unfold SmsPduBuffer.memcpy at hw
  split at hw
  · simp at hw
  · cases hw
    have hlt := h.lt
    have hle := h.index_le
    have hsize := h.size
    refine ⟨?_, hlt, by simp; omega, by simp; omega⟩
    have htake : front <+: b.data.take b.index :=
      List.prefix_take_iff.mpr ⟨h.kept, Nat.le_of_lt hlt⟩
    rw [List.append_assoc]
    exact htake.trans (List.prefix_append _ _)

theorem Keeps.steps {fs : List (SmsPduBuffer → Option SmsPduBuffer)} (h : Keeps front b)
    (hfs : ∀ f ∈ fs, ∀ c c', Keeps front c → f c = some c' → Keeps front c') :
    Keeps front (b.steps fs) := by
  induction fs generalizing b with
  | nil => exact h
  | cons f fs ih =>
      unfold SmsPduBuffer.steps
      split
      · exact h
      · next c hc =>
          exact ih (hfs f (by simp) b c h hc) fun g hg => hfs g (by simp [hg])

theorem Keeps.writeBytes (h : Keeps front b) (octets : List UInt8) :
    Keeps front (b.writeBytes octets) := by
  apply h.steps
  intro f hf c c' hc hw
  obtain ⟨w, -, rfl⟩ := List.mem_map.mp hf
  exact hc.writeByte hw

theorem Keeps.copyHere {octets : List UInt8} (h : Keeps front b)
    (hw : b.copyHere octets = some b') : Keeps front b' := by
  unfold SmsPduBuffer.copyHere getSize at hw
  have hsize := h.size
  split at hw
  · simp at hw
  · exact h.memcpy (by omega) hw

theorem Keeps.encodeHeaderReplyAddress (h : Keeps front b) (address : AddressNumber) :
    Keeps front (encodeHeaderReplyAddress b address) := by
  unfold Pdu.encodeHeaderReplyAddress
  split
  · exact h
  · next c _ hc _ => exact h.writeByte hc
  · next c octets hc _ =>
      apply (h.writeByte hc).steps
      simp only [List.mem_cons, List.not_mem_nil, or_false, forall_eq_or_imp, forall_eq]
      exact ⟨fun _ _ hd hw => hd.writeByte hw, fun _ _ hd hw => hd.copyHere hw⟩

theorem Keeps.encodeHeader (h : Keeps front b) (header : SmsUDH) :
    Keeps front (encodeHeader b header) := by
  cases header with
  | alternateReplyAddress alternateAddress => exact h.encodeHeaderReplyAddress alternateAddress
  | concat8Bit _ _ _ => exact h.writeBytes _
  | concat16Bit _ _ _ => exact h.writeBytes _
  | appPort8Bit _ _ => exact h.writeBytes _
  | appPort16Bit _ _ => exact h.writeBytes _
  | singleShift _ => exact h.writeBytes _
  | lockingShift _ => exact h.writeBytes _
  | specialSms _ _ _ => exact h
  | other _ => exact h

theorem Keeps.encodeHeaders (h : Keeps front b) (header : List SmsUDH) :
    Keeps front (encodeHeaders b header).1 := by
  have hfold (hs : List SmsUDH) (c : SmsPduBuffer) (hc : Keeps front c) :
      Keeps front (hs.foldl Pdu.encodeHeader c) := by
    induction hs generalizing c with
    | nil => exact hc
    | cons x hs ih => exact ih _ (hc.encodeHeader x)
  exact hfold header _ (h.moveForward _)

theorem Keeps.encodeGsmHeadPdu {userData : SmsUDPackage} {fillBits : Nat}
    (h : Keeps front b) (hw : encodeGsmHeadPdu b userData = some (b', fillBits)) :
    Keeps front b' := by
  have hpos := h.lt
  have hheaders := h.encodeHeaders userData.header
  simp only [Pdu.encodeGsmHeadPdu] at hw
  split at hw
  · simp only [Option.bind_eq_bind, Option.bind_eq_some_iff, Option.some.injEq,
      Prod.mk.injEq] at hw
    obtain ⟨c, hc, d, hd, rfl, -⟩ := hw
    exact (hheaders.insertByte (by omega) hc).insertByte (by omega) hd
  · simp only [Option.bind_eq_bind, Option.bind_eq_some_iff, Option.some.injEq,
      Prod.mk.injEq] at hw
    obtain ⟨c, hc, rfl, -⟩ := hw
    exact hheaders.insertByte (by omega) hc

theorem Keeps.le_previousIndex (h : Keeps front b) : front.length ≤ b.previousIndex := by
  have hpos := h.lt
  have hle := h.index_le
  have hsize := h.size
  unfold SmsPduBuffer.previousIndex
  omega

theorem Keeps.pack7bitCharLoop {cs : List UInt8} {shift : Nat} (h : Keeps front b)
    (hw : pack7bitCharLoop b shift cs = some b') : Keeps front b' := by
  fun_induction Pdu.pack7bitCharLoop b shift cs with
  | case1 b shift =>
      cases hw
      exact h
  | case2 b c cs ih =>
      obtain ⟨d, hd, hrest⟩ := Option.bind_eq_some_iff.mp hw
      exact ih d (h.writeByte hd) hrest
  | case3 b shift c cs h0 h1 ih =>
      obtain ⟨d, hd, hrest⟩ := Option.bind_eq_some_iff.mp hw
      apply ih d _ hrest
      simp only [pack7bitCharPartData, Option.bind_eq_bind, Option.bind_eq_some_iff] at hd
      obtain ⟨_, -, e, he, _, -, hd⟩ := hd
      exact (h.insertByte h.le_previousIndex he).writeByte hd
  | case4 b shift c cs h0 h1 ih =>
      simp only [Option.bind_eq_bind, Option.bind_eq_some_iff] at hw
      obtain ⟨_, -, d, hd, hrest⟩ := hw
      exact ih d (h.insertByte h.le_previousIndex hd) hrest

theorem Keeps.encodeGsmPdu {userData : SmsUDPackage} (h : Keeps front b)
    (hw : encodeGsmPdu b userData = some b') : Keeps front b' := by
  simp only [Pdu.encodeGsmPdu, Option.bind_eq_bind, Option.bind_eq_some_iff, Prod.exists] at hw
  obtain ⟨c, fillBits, hc, hpack⟩ := hw
  have hhead := h.encodeGsmHeadPdu hc
  unfold pack7bitChar at hpack
  split at hpack
  · simp at hpack
  · apply Keeps.pack7bitCharLoop _ hpack
    split
    · exact hhead.moveForward 1
    · exact hhead

theorem Keeps.encodeOctetHeadPdu {header : List SmsUDH} {length : Nat} (h : Keeps front b)
    (hw : encodeOctetHeadPdu b header length = some b') : Keeps front b' := by
  have hpos := h.lt
  have hheaders := h.encodeHeaders header
  simp only [Pdu.encodeOctetHeadPdu] at hw
  split at hw
  · obtain ⟨c, hc, hd⟩ := Option.bind_eq_some_iff.mp hw
    exact (hheaders.insertByte (by omega) hc).insertByte (by omega) hd
  · exact hheaders.insertByte (by omega) hw

theorem Keeps.encode8bitBodyPdu {data : List UInt8} (h : Keeps front b)
    (hw : encode8bitBodyPdu b data = some b') : Keeps front b' := by
  unfold Pdu.encode8bitBodyPdu at hw
  split at hw
  · simp at hw
  split at hw
  · simp at hw
  · obtain ⟨c, hc, hd⟩ := Option.bind_eq_some_iff.mp hw
    cases hd
    exact (h.memcpy (by omega) hc).moveForward _

theorem Keeps.encodeUcs2BodyPdu {data : List UInt8} (h : Keeps front b)
    (hw : encodeUcs2BodyPdu b data = some b') : Keeps front b' := by
  unfold Pdu.encodeUcs2BodyPdu at hw
  split at hw
  · simp at hw
  split at hw
  · simp at hw
  · obtain ⟨c, hc, hd⟩ := Option.bind_eq_some_iff.mp hw
    cases hd
    exact (h.memcpy (by omega) hc).moveForward _

theorem Keeps.encodeUserDataPdu {userData : SmsUDPackage} {scheme : DataCodingScheme}
    {destAddr : List UInt8} (h : Keeps front b)
    (hw : encodeUserDataPdu b userData scheme destAddr = some b') : Keeps front b' := by
  cases scheme with
  | dataCoding7Bit => exact h.encodeGsmPdu hw
  | dataCoding8Bit =>
      obtain ⟨c, hc, hd⟩ := Option.bind_eq_some_iff.mp hw
      exact (h.encodeOctetHeadPdu hc).encode8bitBodyPdu hd
  | dataCodingUcs2 =>
      obtain ⟨c, hc, hd⟩ := Option.bind_eq_some_iff.mp hw
      exact (h.encodeOctetHeadPdu hc).encodeUcs2BodyPdu hd
  | dataCodingAuto => simp [Pdu.encodeUserDataPdu] at hw
  | dataCodingEuckr => simp [Pdu.encodeUserDataPdu] at hw
  | dataCodingAscii7Bit => simp [Pdu.encodeUserDataPdu] at hw

theorem Keeps.copyOctets {octets : List UInt8} (h : Keeps front b)
    (hw : copyOctets octets b = some b') : Keeps front b' := by
  obtain ⟨c, hc, hd⟩ := Option.bind_eq_some_iff.mp hw
  cases hd
  exact (h.copyHere hc).moveForward _

/-- Octets are never copied from an empty string, so the writer is past `front`
behind them. -/
theorem Keeps.of_copyOctets {rest octets : List UInt8} (hsize : front.length + rest.length = 256)
    (hw : Pdu.copyOctets octets (cursor front rest) = some b') : Keeps front b' := by
  obtain ⟨hne, hroom⟩ := copyOctets_eq_some hw
  have hpos := List.length_pos_iff.mpr hne
  rw [cursor_index, cursor_getSize] at hroom
  rw [copyOctets_cursor _ _ _ hne (by omega), Option.some.injEq] at hw
  subst hw
  exact ⟨by simp, by simp; omega, by simp, by simp; omega⟩

theorem Keeps.copyDCS {dcs : SmsDcs} (h : Keeps front b) (hw : copyDCS dcs b = some b') :
    Keeps front b' := by
  obtain ⟨value, -, hw⟩ := Option.bind_eq_some_iff.mp hw
  have hsize := h.size
  unfold getSize at hw
  split at hw
  · simp at hw
  · obtain ⟨c, hc, hd⟩ := Option.bind_eq_some_iff.mp hw
    cases hd
    exact (h.memcpy (by simp; omega) hc).moveForward _

end Keeps

end TelephonySms.Pdu
