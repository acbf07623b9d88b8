import TelephonySms.Mms.Wire

/-! # What encoding leaves of the message

The encoders read the header and write octets, with one exception: the addresses of the
sender are erased once their field is written. So a message is as it was after `EncodeMsg`
exactly when the encoder does not get behind that field.
-/

namespace TelephonySms.Mms

open Action MmsFieldCode

def MmsHeader.eraseSender (h : MmsHeader) : MmsHeader :=
  { h with addressMap := Function.update h.addressMap .sender none }

/-- The octets that are given fit behind those in the buffer. -/
def Fits (buffer : Octets) (o : Option Octets) : Prop :=
  ∃ w, o = some w ∧ buffer.length + w.length < MMS_PDU_MAX_SIZE

theorem not_fits_none (buffer : Octets) : ¬ Fits buffer none := by
  rintro ⟨w, hw, -⟩
  cases hw

namespace HeaderWrite

variable {α β : Type}

theorem header_bind_run (f : MmsHeader → HeaderWrite β) (h : MmsHeader) (buffer : Octets) :
    (header >>= f) (h, buffer) = f h (h, buffer) := rfl

def KeepsHeader (m : HeaderWrite α) : Prop := ∀ s, (m s).2.1 = s.1

/-- On the header `h` the action erases the sender if the octets fit, and else nothing. -/
def ErasesIf (m : HeaderWrite Unit) (h : MmsHeader) (o : Option Octets) : Prop :=
  ∀ buffer, (Fits buffer o → (m (h, buffer)).2.1 = h.eraseSender) ∧
    (¬ Fits buffer o → (m (h, buffer)).2.1 = h)

namespace KeepsHeader

theorem onSnd (m : Write α) : KeepsHeader (Action.onSnd m) := fun _ => rfl

theorem pure (a : α) : KeepsHeader (Pure.pure a) := fun _ => rfl

theorem attempt {m : HeaderWrite α} (hm : KeepsHeader m) : KeepsHeader (Action.attempt m) := hm

theorem bind {m : HeaderWrite α} {f : α → HeaderWrite β} (hm : KeepsHeader m)
    (hf : ∀ a, KeepsHeader (f a)) : KeepsHeader (m >>= f) := by
  intro s
  have hfirst := hm s
  rw [bind_run]
  split
  · next a s' hrun =>
      rw [hrun] at hfirst
      rw [hf a s', hfirst]
  · next s' hrun =>
      rw [hrun] at hfirst
      exact hfirst

theorem header_bind {f : MmsHeader → HeaderWrite β} (hf : ∀ h, KeepsHeader (f h)) :
    KeepsHeader (header >>= f) := fun s => hf s.1 s

end KeepsHeader

namespace ErasesIf

variable {m : HeaderWrite Unit} {h : MmsHeader} {u v : Option Octets}

theorem of_keeps (hm : KeepsHeader m) : ErasesIf m h none :=
  fun buffer => ⟨fun hfits => absurd hfits (not_fits_none buffer), fun _ => hm _⟩

theorem attempt (hm : ErasesIf m h v) : ErasesIf (Action.attempt m) h v := hm

theorem header_bind {f : MmsHeader → HeaderWrite Unit} (hf : ErasesIf (f h) h v) :
    ErasesIf (header >>= f) h v := hf

theorem bind_keeps {f : Unit → HeaderWrite Unit} (hm : ErasesIf m h v)
    (hf : ∀ a, KeepsHeader (f a)) : ErasesIf (m >>= f) h v := by
  have hsame : ∀ s, ((m >>= f) s).2.1 = (m s).2.1 := by
    intro s
    rw [bind_run]
    split
    · next a s' hrun => rw [hf a s', hrun]
    · next s' hrun => rw [hrun]
  intro buffer
  rw [hsame]
  exact hm buffer

/-- What is written first has to fit as well. The buffer is full where the first action
goes on without having written its octets. -/
theorem onSnd_bind_of {p : Write Unit} {w : Octets} (happ : Appends MMS_PDU_MAX_SIZE p w)
    (hsome : ∀ b b', p b = (some (), b') → b' = b ++ w ∨ MMS_PDU_MAX_SIZE ≤ b'.length)
    (hm : ErasesIf m h v) :
    ErasesIf (Action.onSnd p >>= fun _ => m) h (Option.map₂ (· ++ ·) (some w) v) := by
  intro buffer
  have hsplit : Fits buffer (Option.map₂ (· ++ ·) (some w) v) ↔ Fits (buffer ++ w) v := by
    cases v with
    | none => exact iff_of_false (not_fits_none _) (not_fits_none _)
    | some v => simp [Fits, Nat.add_assoc]
  constructor
  · intro hfits
    have hroom : buffer.length + w.length < MMS_PDU_MAX_SIZE := by
      obtain ⟨x, -, hx⟩ := hsplit.mp hfits
      rw [List.length_append] at hx
      omega
    have hrun : Action.onSnd p (h, buffer) = (some (), (h, buffer ++ w)) := by
      rw [onSnd_run, happ buffer hroom]
    rw [bind_of_some hrun]
    exact (hm (buffer ++ w)).1 (hsplit.mp hfits)
  · intro hfits
    cases hrun : p buffer with
    | mk r b' =>
        cases r with
        | none =>
            have hstep : Action.onSnd p (h, buffer) = (none, (h, b')) := by
              rw [onSnd_run, hrun]
            rw [bind_of_none hstep]
        | some _ =>
            have hstep : Action.onSnd p (h, buffer) = (some (), (h, b')) := by
              rw [onSnd_run, hrun]
            rw [bind_of_some hstep]
            refine (hm b').2 fun hlater => ?_
            rcases hsome buffer b' hrun with rfl | hfull
            · exact hfits (hsplit.mpr hlater)
            · obtain ⟨x, -, hx⟩ := hlater
              omega

theorem onSnd_bind {p : Write Unit} (hp : Produces MMS_PDU_MAX_SIZE p u)
    (hm : ErasesIf m h v) :
    ErasesIf (Action.onSnd p >>= fun _ => m) h (Option.map₂ (· ++ ·) u v) := by
  cases u with
  | some w => exact onSnd_bind_of hp.1 (fun b b' hrun => Or.inl (hp.2 b b' hrun)) hm
  | none =>
      intro buffer
      refine ⟨fun hfits => absurd hfits (not_fits_none buffer), fun _ => ?_⟩
      have hstep : Action.onSnd p (h, buffer) = (none, (h, (p buffer).2)) := by
        rw [onSnd_run, hp buffer]
      rw [bind_of_none hstep]

/-- A field that may be missing, and that fails only where the buffer is full. -/
theorem onSnd_attempt_bind {p : Write Unit} (hp : Renders MMS_PDU_MAX_SIZE p u)
    (hfull : u ≠ none → FailsFull MMS_PDU_MAX_SIZE p) (hm : ErasesIf m h v) :
    ErasesIf (Action.onSnd (Action.attempt p) >>= fun _ => m) h
      (Option.map₂ (· ++ ·) (some (u.getD [])) v) := by
  refine onSnd_bind_of hp.attempt ?_ hm
  intro b b' hrun
  rw [attempt_run, Prod.mk.injEq] at hrun
  cases hstep : p b with
  | mk r b₁ =>
      rw [hstep] at hrun
      obtain ⟨-, rfl⟩ := hrun
      cases u with
      | none =>
          have hsame := hp b
          rw [hstep, Prod.mk.injEq] at hsame
          left
          simp [hsame.2]
      | some w =>
          cases r with
          | none => exact Or.inr (hfull (by simp) b b₁ hstep)
          | some _ => exact Or.inl (hp.2 b b₁ hstep)

end ErasesIf

/-! ## The sender -/

/-- The writes of `EncodeFieldFromValue`. -/
def senderField (platform : Platform) (addr : List MmsAddress) : Write Unit := do
  writeByte MMS_FROM
  let tempBuff ← inTempBuffer (MmsHeader.encodeFromAddress platform addr)
  encodeValueLength tempBuff.length
  writeBuffer tempBuff

theorem senderField_appends (platform : Platform) (addr : List MmsAddress) :
    Appends MMS_PDU_MAX_SIZE (senderField platform addr) (senderWire platform addr) :=
  Appends.bind (writeByte_appends MMS_FROM)
    (lengthWire_appends (MmsHeader.encodeFromAddress_appends platform addr)
      (MmsHeader.senderAddressWire_ne_nil platform addr))

theorem senderField_emits (platform : Platform) (addr : List MmsAddress) :
    Emits (senderField platform addr) (senderWire platform addr) := by
  refine Emits.bind (writeByte_emits MMS_FROM) (lengthWire_emits fun temp htemp => ?_)
  simpa using MmsHeader.encodeFromAddress_emits platform addr [] temp htemp

/-- The value is written a buffer at a time, which leaves room behind it. -/
theorem length_lt_of_senderField {platform : Platform} {addr : List MmsAddress}
    {buffer buffer' : Octets} (hrun : senderField platform addr buffer = (some (), buffer')) :
    buffer.length + (senderWire platform addr).length < MMS_PDU_MAX_SIZE := by
  have hwritten := senderField_emits platform addr buffer buffer' hrun
  obtain ⟨-, b₁, -, hrun⟩ := bind_eq_some hrun
  obtain ⟨temp, b₂, -, hrun⟩ := bind_eq_some hrun
  obtain ⟨-, b₃, -, hrun⟩ := bind_eq_some hrun
  obtain ⟨hlast, hroom⟩ := writeBuffer_eq_some hrun
  rw [← List.length_append, ← hwritten, hlast, List.length_append]
  exact hroom

theorem encodeFieldFromValue_run (platform : Platform) (addr : List MmsAddress) (h : MmsHeader)
    (buffer : Octets) {addrs : List MmsAddress} (hsender : h.addressMap .sender = some addrs) :
    encodeFieldFromValue platform addr (h, buffer) =
      (Action.onSnd (senderField platform addr) >>= fun _ =>
        modify fun s => (s.1.eraseSender, s.2)) (h, buffer) := by
  rw [encodeFieldFromValue, header_bind_run, hsender]
  simp only [senderField, Action.onSnd_bind, Action.bind_assoc]
  rfl

theorem encodeFieldFromValue_erases (platform : Platform) (addr : List MmsAddress)
    (h : MmsHeader) {addrs : List MmsAddress} (hsender : h.addressMap .sender = some addrs) :
    ErasesIf (encodeFieldFromValue platform addr) h (some (senderWire platform addr)) := by
  intro buffer
  rw [encodeFieldFromValue_run platform addr h buffer hsender]
  constructor
  · rintro ⟨w, hw, hfits⟩
    cases hw
    have hstep : Action.onSnd (senderField platform addr) (h, buffer) =
        (some (), (h, buffer ++ senderWire platform addr)) := by
      rw [onSnd_run, senderField_appends platform addr buffer hfits]
    rw [bind_of_some hstep]
    rfl
  · intro hfits
    cases hrun : senderField platform addr buffer with
    | mk r b' =>
        cases r with
        | none =>
            have hstep : Action.onSnd (senderField platform addr) (h, buffer) =
                (none, (h, b')) := by
              rw [onSnd_run, hrun]
            rw [bind_of_none hstep]
        | some _ => exact absurd ⟨_, rfl, length_lt_of_senderField hrun⟩ hfits

theorem encodeFieldFromValue_keeps (platform : Platform) (addr : List MmsAddress)
    (h : MmsHeader) (buffer : Octets) (hsender : h.addressMap .sender = none) :
    encodeFieldFromValue platform addr (h, buffer) = (some (), (h, buffer)) := by
  rw [encodeFieldFromValue, header_bind_run, hsender]
  rfl

theorem encodeSender_erases (platform : Platform) (h : MmsHeader) :
    ErasesIf (encodeFieldFromValue platform ((h.addressMap .sender).getD [])) h
      (h.senderFieldWire platform) := by
  unfold MmsHeader.senderFieldWire
  cases hsender : h.addressMap .sender with
  | some addrs => exact encodeFieldFromValue_erases platform addrs h hsender
  | none =>
      intro buffer
      refine ⟨fun hfits => absurd hfits (not_fits_none buffer), fun _ => ?_⟩
      rw [encodeFieldFromValue_keeps platform _ h buffer hsender]

end HeaderWrite

/-! ## Message types -/

namespace MmsHeader

variable (platform : Platform) (h : MmsHeader)

/-- The fields of a message type up to the sender. There are none where the type has no
sender, and where the encoder fails before it. -/
def typeThroughSender (messageType : UInt8) : Option Octets :=
  if messageType = MMS_MSGTYPE_SEND_REQ then
    h.senderFieldWire platform
  else if messageType = MMS_MSGTYPE_NOTIFICATION_IND then
    Option.map₂ (· ++ ·)
      (Option.map₂ (· ++ ·) (h.textFieldWire platform MMS_CONTENT_LOCATION)
        (Option.map₂ (· ++ ·) (h.longFieldWire MMS_MESSAGE_SIZE)
          (Option.map₂ (· ++ ·) h.expiryFieldWire (h.messageClassWire platform))))
      (h.senderFieldWire platform)
  else if messageType = MMS_MSGTYPE_RETRIEVE_CONF then
    Option.map₂ (· ++ ·) (h.longFieldWire MMS_DATE)
      (Option.map₂ (· ++ ·) (some ((h.textFieldWire platform MMS_MESSAGE_ID).getD []))
        (h.senderFieldWire platform))
  else if messageType = MMS_MSGTYPE_READ_REC_IND ∨ messageType = MMS_MSGTYPE_READ_ORIG_IND then
    Option.map₂ (· ++ ·)
      (Option.map₂ (· ++ ·) (h.textFieldWire platform MMS_MESSAGE_ID)
        (h.addressFieldWire platform .recipient))
      (h.senderFieldWire platform)
  else
    none

def throughSender (messageType : UInt8) : Option Octets :=
  Option.map₂ (· ++ ·) (h.commonWire platform) (h.typeThroughSender platform messageType)

end MmsHeader

namespace HeaderWrite

variable (platform : Platform) (h : MmsHeader)

theorem encodeMmsSendReq_erases :
    ErasesIf (encodeMmsSendReq platform) h (h.senderFieldWire platform) :=
  ErasesIf.header_bind (ErasesIf.bind_keeps (encodeSender_erases platform h) fun _ =>
    KeepsHeader.header_bind fun _ => KeepsHeader.onSnd _)

/-- An attempt to write the sender where there is one. -/
theorem attemptSender_erases {f : HeaderWrite Unit} (hf : KeepsHeader f) :
    ErasesIf (match h.addressMap .sender with
      | some fromAddress => do
          attempt (encodeFieldFromValue platform fromAddress)
          f
      | none => f) h (h.senderFieldWire platform) := by
  unfold MmsHeader.senderFieldWire
  cases hsender : h.addressMap .sender with
  | none => exact ErasesIf.of_keeps hf
  | some addrs =>
      exact ErasesIf.bind_keeps
        (ErasesIf.attempt (encodeFieldFromValue_erases platform addrs h hsender)) fun _ => hf

theorem encodeMmsNotificationInd_erases :
    ErasesIf (encodeMmsNotificationInd platform) h
      (h.typeThroughSender platform MMS_MSGTYPE_NOTIFICATION_IND) := by
  refine ErasesIf.header_bind (ErasesIf.onSnd_bind ?_ ?_)
  · refine Produces.bind (h.encodeTextStringValueFromMap_renders platform _).produces
      (Produces.bind (h.encodeLongIntergerValueFromMap_renders _).produces ?_)
    unfold MmsHeader.expiryFieldWire
    have hclass := (h.econdeFieldMessageClassValue_renders platform).produces
    cases h.longValueMap MMS_EXPIRY with
    | none => exact Produces.bind Renders.fail.produces hclass
    | some value =>
        exact Produces.bind (MmsHeader.encodeFieldExpriyValue_renders value).produces hclass
  · have hrest := KeepsHeader.onSnd (do
      attempt (h.encodeOctetValueFromMap MMS_CONTENT_CLASS)
      attempt (h.enocdeEncodeStringValueFromMap platform MMS_SUBJECT)
      attempt (h.encodeOctetValueFromMap MMS_DELIVERY_REPORT))
    have herases := attemptSender_erases platform h hrest
    cases hsender : h.addressMap .sender with
    | none => simpa [hsender] using herases
    | some addrs => simpa [hsender] using herases

/-- A text that is there fails only in a full buffer. -/
theorem encodeTextStringValueFromMap_failsFull (fieldId : UInt8)
    (hwire : h.textFieldWire platform fieldId ≠ none) :
    FailsFull MMS_PDU_MAX_SIZE (h.encodeTextStringValueFromMap platform fieldId) := by
  unfold MmsHeader.textFieldWire at hwire
  unfold MmsHeader.encodeTextStringValueFromMap
  cases htext : h.textValueMap fieldId with
  | none => simp [htext] at hwire
  | some value =>
      have hvalue : value ≠ [] := by
        rintro rfl
        simp [htext, MmsHeader.textWireOf] at hwire
      simp only [MmsHeader.encodeTextStringValue, guard_of hvalue]
      exact FailsFull.bind FailsFull.pure
        (FailsFull.bind (writeByte_failsFull fieldId) (encodeText_failsFull platform value))

theorem enocdeMmsRetrieveConf_erases :
    ErasesIf (enocdeMmsRetrieveConf platform) h
      (h.typeThroughSender platform MMS_MSGTYPE_RETRIEVE_CONF) := by
  refine ErasesIf.header_bind ?_
  rw [Action.onSnd_bind, Action.bind_assoc]
  refine ErasesIf.onSnd_bind (h.encodeLongIntergerValueFromMap_renders _).produces ?_
  refine ErasesIf.onSnd_attempt_bind (h.encodeTextStringValueFromMap_renders platform _)
    (encodeTextStringValueFromMap_failsFull platform h _) ?_
  exact attemptSender_erases platform h (KeepsHeader.onSnd _)

theorem encodeToAddress_renders :
    Renders MMS_PDU_MAX_SIZE (encodeToAddress platform h)
      (h.addressFieldWire platform .recipient) := by
  unfold encodeToAddress MmsHeader.addressFieldWire
  cases h.addressMap .recipient with
  | none => exact Renders.fail
  | some toAddress => exact MmsHeader.encodeMultipleAddressValue_renders platform _ toAddress

theorem encodeReadReport_erases :
    ErasesIf (encodeReadReport platform) h
      (h.typeThroughSender platform MMS_MSGTYPE_READ_REC_IND) := by
  refine ErasesIf.header_bind (ErasesIf.onSnd_bind ?_ ?_)
  · exact Produces.bind (h.encodeTextStringValueFromMap_renders platform _).produces
      (encodeToAddress_renders platform h).produces
  · exact ErasesIf.bind_keeps (encodeSender_erases platform h) fun _ => KeepsHeader.onSnd _

/-- Every type has its sender erased where it is written. -/
theorem encodeMessageType_erases (messageType : UInt8) :
    ErasesIf (encodeMessageType platform messageType) h
      (h.typeThroughSender platform messageType) := by
  have hkeeps (m : MmsHeader → Write Unit) : ErasesIf (header >>= fun h => onSnd (m h)) h none :=
    ErasesIf.of_keeps (KeepsHeader.header_bind fun _ => KeepsHeader.onSnd _)
  unfold encodeMessageType
  split_ifs with h₁ h₂ h₃ h₄ h₅ h₆ h₇ h₈ h₉
  · subst h₁
    exact encodeMmsSendReq_erases platform h
  · subst h₂
    exact hkeeps _
  · subst h₃
    exact encodeMmsNotificationInd_erases platform h
  · subst h₄
    exact hkeeps _
  · subst h₅
    exact enocdeMmsRetrieveConf_erases platform h
  · subst h₆
    exact hkeeps _
  · subst h₇
    exact hkeeps _
  · subst h₈
    exact ErasesIf.bind_keeps (encodeReadReport_erases platform h) fun _ =>
      KeepsHeader.header_bind fun _ => KeepsHeader.onSnd _
  · subst h₉
    exact ErasesIf.bind_keeps (encodeReadReport_erases platform h) fun _ =>
      KeepsHeader.header_bind fun _ => KeepsHeader.onSnd _
  · simp only [MmsHeader.typeThroughSender, if_neg h₁, if_neg h₃, if_neg h₅, h₈, h₉, or_self,
      if_false]
    exact ErasesIf.of_keeps fun _ => rfl

/-- A transaction id and a valid version stay. -/
theorem fillDefaults_eq (messageType : UInt8) {version : Int64}
    (hid : h.hasStringValue MMS_TRANSACTION_ID = true)
    (hversion : h.longValueMap MMS_MMS_VERSION = some version)
    (hvalid : 0x10 ≤ version ∧ version ≤ 0x13) : fillDefaults platform messageType h = h := by
  have hrange : ¬ (version < 0x10 ∨ version > 0x13) := by
    rintro (hlow | hhigh)
    · exact absurd hvalid.1 (Int64.not_le.mpr hlow)
    · exact absurd hvalid.2 (Int64.not_le.mpr hhigh)
  simp [fillDefaults, hid, hversion, hrange]

theorem encodeMmsHeader_erases {messageType : UInt8}
    (htype : h.octetValueMap MMS_MESSAGE_TYPE = some messageType)
    (hdefaults : fillDefaults platform messageType h = h) :
    ErasesIf (encodeMmsHeader platform) h (h.throughSender platform messageType) := by
  have hall : ErasesIf (do
      onSnd (h.encodeCommontFieldValue platform)
      encodeMessageType platform messageType) h (h.throughSender platform messageType) :=
    ErasesIf.onSnd_bind (h.encodeCommontFieldValue_produces platform)
      (encodeMessageType_erases platform h messageType)
  intro buffer
  have hrun : encodeMmsHeader platform (h, buffer) = (do
      onSnd (h.encodeCommontFieldValue platform)
      encodeMessageType platform messageType : HeaderWrite Unit) (h, buffer) := by
    rw [encodeMmsHeader, header_bind_run, htype]
    simp only [bind_run, modify_run, hdefaults]
    rfl
  rw [hrun]
  exact hall buffer

end HeaderWrite

theorem MmsHeader.throughSender_eq_none {platform : Platform} {h : MmsHeader}
    (hsender : h.addressMap .sender = none) (messageType : UInt8) :
    h.throughSender platform messageType = none := by
  have hfield : h.senderFieldWire platform = none := by rw [senderFieldWire, hsender]; rfl
  simp [throughSender, typeThroughSender, hfield]

namespace MmsMsg

variable (platform : Platform)

theorem encodeMsg_snd (msg : MmsMsg) : (encodeMsg platform msg).2 =
    { msg with mmsHeader := (HeaderWrite.encodeMmsHeader platform (msg.mmsHeader, [])).2.1 } := by
  unfold encodeMsg
  split
  · next hrun => rw [hrun]
  · next hrun =>
      rw [hrun]
      split <;> rfl

/-- Encoding leaves the message as it was, and then also yields the same octets again,
exactly when the octets up to the sender do not all fit or there is no sender to write. -/
theorem encodeMsg_keeps_iff (msg : MmsMsg) (messageType : UInt8) (version : Int64)
    (htype : msg.mmsHeader.octetValueMap MMS_MESSAGE_TYPE = some messageType)
    (hid : msg.mmsHeader.hasStringValue MMS_TRANSACTION_ID = true)
    (hversion : msg.mmsHeader.longValueMap MMS_MMS_VERSION = some version)
    (hvalid : 0x10 ≤ version ∧ version ≤ 0x13) :
    ((encodeMsg platform msg).2 = msg ∧
      (encodeMsg platform (encodeMsg platform msg).2).1 = (encodeMsg platform msg).1) ↔
        ¬ Fits [] (msg.mmsHeader.throughSender platform messageType) := by
  have herases := HeaderWrite.encodeMmsHeader_erases platform msg.mmsHeader htype
    (HeaderWrite.fillDefaults_eq platform _ messageType hid hversion hvalid) []
  constructor
  · rintro ⟨hsame, -⟩ hfits
    have herased := herases.1 hfits
    rw [encodeMsg_snd, herased] at hsame
    have hsender : msg.mmsHeader.addressMap .sender = none := by
      rw [← hsame]
      simp [MmsHeader.eraseSender]
    rw [MmsHeader.throughSender_eq_none hsender] at hfits
    exact not_fits_none [] hfits
  · intro hfits
    have hsame : (encodeMsg platform msg).2 = msg := by
      rw [encodeMsg_snd, herases.2 hfits]
    exact ⟨hsame, by rw [hsame]⟩

/-- A message to be sent, with the setters of its type, transaction id and version. -/
def sendRequest (header : MmsHeader) : MmsMsg where
  mmsHeader := { ((header.putOctet MMS_MESSAGE_TYPE MMS_MSGTYPE_SEND_REQ).putText
    MMS_TRANSACTION_ID (ascii "T1")).putLong MMS_MMS_VERSION 0x13 with
      mmsContentType := { contentType := ascii "application/vnd.wap.multipart.mixed" } }

/-- A sender is gone after the first call, and the second call does not write it. -/
theorem encodeMsg_erases_sender :
    let msg := sendRequest (MmsHeader.pushAddress {} .sender { addressString := ascii "+1" })
    msg.mmsHeader.octetValueMap MMS_MESSAGE_TYPE = some MMS_MSGTYPE_SEND_REQ ∧
      msg.mmsHeader.hasStringValue MMS_TRANSACTION_ID = true ∧
      msg.mmsHeader.longValueMap MMS_MMS_VERSION = some 0x13 ∧
      (encodeMsg plainPlatform msg).1.isSome = true ∧
      (encodeMsg plainPlatform msg).2.mmsHeader.addressMap .sender ≠
        msg.mmsHeader.addressMap .sender ∧
      (encodeMsg plainPlatform (encodeMsg plainPlatform msg).2).1 ≠
        (encodeMsg plainPlatform msg).1 := by
  decide +kernel

/-- Without a sender nothing is lost. -/
theorem encodeMsg_keeps_recipients :
    let msg := sendRequest (MmsHeader.pushAddress {} .recipient { addressString := ascii "+1" })
    (encodeMsg plainPlatform msg).2 = msg ∧
      (encodeMsg plainPlatform (encodeMsg plainPlatform msg).2).1 =
        (encodeMsg plainPlatform msg).1 :=
  (encodeMsg_keeps_iff plainPlatform _ MMS_MSGTYPE_SEND_REQ 0x13 rfl rfl rfl (by decide)).mpr
    (by
      rw [MmsHeader.throughSender_eq_none rfl]
      exact not_fits_none [])

end MmsMsg

end TelephonySms.Mms
