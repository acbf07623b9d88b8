import TelephonySms.Mms.FieldPlans

/-! # The size limit

`EncodeMsg` runs a script: the fields of the message type in their order, and the content
type and the parts behind them. Most fields are optional, and the result of writing them is
not looked at. So a field that does not fit may be left in part, and the encoding goes on.
-/

namespace TelephonySms.Mms

open Action MmsFieldCode ContentParam MmsHeaderParam

/-- Run on the encode buffer. -/
def runScript (steps : List Step) : Write Unit := Script.run (some MMS_PDU_MAX_SIZE) steps

theorem runScript_must (p : Plan) (steps : List Step) :
    runScript (.must p :: steps) = (encodePlan p >>= fun _ => runScript steps) := rfl

theorem runScript_may (p : Plan) (steps : List Step) :
    runScript (.may p :: steps) = (attempt (encodePlan p) >>= fun _ => runScript steps) := rfl

theorem runScript_append (steps steps' : List Step) :
    runScript (steps ++ steps') = (runScript steps >>= fun _ => runScript steps') :=
  Script.run_append _ steps steps'

theorem runScript_must_one (p : Plan) : runScript [.must p] = encodePlan p :=
  bind_pure_unit _

theorem runScript_may_one (p : Plan) : runScript [.may p] = attempt (encodePlan p) :=
  bind_pure_unit _

section Present

variable {α : Type}

/-- A field that has to be written where it is present. -/
def mustOf (o : Option α) (plan : α → Plan) : List Step :=
  o.toList.map fun a => .must (plan a)

/-- A field that may be written where it is present. -/
def mayOf (o : Option α) (plan : α → Plan) : List Step :=
  o.toList.map fun a => .may (plan a)

theorem runScript_mustOf_some (a : α) (plan : α → Plan) :
    runScript (mustOf (some a) plan) = encodePlan (plan a) :=
  runScript_must_one _

theorem runScript_mayOf_some (a : α) (plan : α → Plan) :
    runScript (mayOf (some a) plan) = attempt (encodePlan (plan a)) :=
  runScript_may_one _

end Present

/-! ## Writing along a script -/

theorem runScript_must_then {m n : Write Unit} {p : Plan} {steps : List Step}
    (hm : m = encodePlan p) (hn : n = runScript steps) :
    (m >>= fun _ => n) = runScript (.must p :: steps) := by
  rw [hm, hn, runScript_must]

theorem runScript_may_then {m n : Write Unit} {p : Plan} {steps : List Step}
    (hm : m = encodePlan p) (hn : n = runScript steps) :
    (attempt m >>= fun _ => n) = runScript (.may p :: steps) := by
  rw [hm, hn, runScript_may]

theorem runScript_must_last {m : Write Unit} {p : Plan} (hm : m = encodePlan p) :
    m = runScript [.must p] := by
  rw [hm, runScript_must_one]

theorem runScript_may_last {m : Write Unit} {p : Plan} (hm : m = encodePlan p) :
    attempt m = runScript [.may p] := by
  rw [hm, runScript_may_one]

theorem runScript_then {m n : Write Unit} {steps steps' : List Step} (hm : m = runScript steps)
    (hn : n = runScript steps') : (m >>= fun _ => n) = runScript (steps ++ steps') := by
  rw [hm, hn, runScript_append]

/-- A field that may be written where it is present, and what comes behind it. -/
theorem mayOf_then {α : Type} {o : Option α} {plan : α → Plan} {m rest : Write Unit}
    {steps : List Step} (hnone : o = none → m = rest)
    (hsome : ∀ a, o = some a → m = (attempt (encodePlan (plan a)) >>= fun _ => rest))
    (hrest : rest = runScript steps) : m = runScript (mayOf o plan ++ steps) := by
  rw [runScript_append, ← hrest]
  cases ho : o with
  | none => exact hnone ho
  | some a =>
      rw [runScript_mayOf_some]
      exact hsome a ho

/-- A field that has to be written where it is present, and what comes behind it. -/
theorem mustOf_then {α : Type} {o : Option α} {plan : α → Plan} {m rest : Write Unit}
    {steps : List Step} (hnone : o = none → m = rest)
    (hsome : ∀ a, o = some a → m = (encodePlan (plan a) >>= fun _ => rest))
    (hrest : rest = runScript steps) : m = runScript (mustOf o plan ++ steps) := by
  rw [runScript_append, ← hrest]
  cases ho : o with
  | none => exact hnone ho
  | some a =>
      rw [runScript_mustOf_some]
      exact hsome a ho

theorem forEach_runScript {β : Type} {f : β → Write Unit} {steps : β → List Step}
    (h : ∀ b, f b = runScript (steps b)) (bs : List β) :
    forEach f bs = runScript (bs.flatMap steps) := by
  induction bs with
  | nil => rfl
  | cons b bs ih =>
      rw [forEach, List.flatMap_cons]
      exact runScript_then (h b) ih

/-! ## Tidy scripts -/

theorem tidy_nil : Script.Tidy [] := by
  intro p hp
  cases hp

theorem tidy_append {steps steps' : List Step} (h : Script.Tidy steps)
    (h' : Script.Tidy steps') : Script.Tidy (steps ++ steps') := by
  intro p hp
  rcases List.mem_append.1 hp with hp | hp
  · exact h p hp
  · exact h' p hp

theorem tidy_must {p : Plan} {steps : List Step} (h : Script.Tidy steps) :
    Script.Tidy (.must p :: steps) := by
  intro q hq
  rcases List.mem_cons.1 hq with heq | hq
  · cases heq
  · exact h q hq

theorem tidy_may {p : Plan} {steps : List Step} (hp : TidyPlan p) (h : Script.Tidy steps) :
    Script.Tidy (.may p :: steps) := by
  intro q hq
  rcases List.mem_cons.1 hq with heq | hq
  · cases heq
    exact hp
  · exact h q hq

theorem tidy_mustOf {α : Type} (o : Option α) (plan : α → Plan) :
    Script.Tidy (mustOf o plan) := by
  cases o with
  | none => exact tidy_nil
  | some a => exact tidy_must tidy_nil

theorem tidy_mayOf {α : Type} (o : Option α) {plan : α → Plan} (h : ∀ a, TidyPlan (plan a)) :
    Script.Tidy (mayOf o plan) := by
  cases o with
  | none => exact tidy_nil
  | some a => exact tidy_may (h a) tidy_nil

theorem tidy_ite {c : Prop} [Decidable c] {steps steps' : List Step} (h : Script.Tidy steps)
    (h' : Script.Tidy steps') : Script.Tidy (if c then steps else steps') := by
  by_cases hc : c
  · rw [if_pos hc]
    exact h
  · rw [if_neg hc]
    exact h'

/-! ## The scripts of the message types -/

namespace MmsHeader

variable (platform : Platform) (h : MmsHeader)

def octetPlan (fieldId : UInt8) : Plan := ofWire (h.octetFieldWire fieldId)

def textPlan (fieldId : UInt8) : Plan := ofWire (h.textFieldWire platform fieldId)

def longPlan (fieldId : UInt8) : Plan := ofWire (h.longFieldWire fieldId)

def messageClassPlan : Plan := ofWire (h.messageClassWire platform)

def toAddressPlan : Plan :=
  match h.addressMap .recipient with
  | some toAddress => addressListPlan platform MMS_TO toAddress
  | none => .refuse

def expiryFieldPlan : Plan :=
  match h.longValueMap MMS_EXPIRY with
  | some mmsExpriy => expiryPlan mmsExpriy
  | none => .refuse

def commonScript : List Step :=
  .must (.octets [MMS_MESSAGE_TYPE, (h.octetValueMap MMS_MESSAGE_TYPE).getD 0]) ::
    (mustOf (h.textValueMap MMS_TRANSACTION_ID)
      (fun transactionId => ofWire (textWireOf platform MMS_TRANSACTION_ID transactionId)) ++
    [.must (.octets (MMS_MMS_VERSION :: shortIntegerWire
      (UInt8.ofNat (toUInt64 ((h.longValueMap MMS_MMS_VERSION).getD 0)))))])

def optionalAddress (field : AddressField) : List Step :=
  mayOf (h.addressMap field) (addressListPlan platform field.code)

/-- The fields of a message to be sent, behind the sender. -/
def sendReqFields : List Step :=
  mayOf (h.longValueMap MMS_EXPIRY) expiryPlan ++
    ((h.optionalAddress platform .bcc ++ (h.optionalAddress platform .cc ++
      h.optionalAddress platform .recipient)) ++
    [.may (h.messageClassPlan platform), .may (h.longPlan MMS_DATE),
      .may (h.encodeStringFieldPlan platform MMS_SUBJECT),
      .may (h.textPlan platform MMS_MESSAGE_CLASS), .may (h.octetPlan MMS_PRIORITY),
      .may (h.octetPlan MMS_SENDER_VISIBILITY), .may (h.octetPlan MMS_DELIVERY_REPORT),
      .may (h.octetPlan MMS_READ_REPORT)])

def sendReqScript : List Step :=
  mustOf (h.addressMap .sender) (senderPlan platform) ++ h.sendReqFields platform

def sendConfScript : List Step :=
  [.must (h.octetPlan MMS_RESPONSE_STATUS), .may (h.textPlan platform MMS_MESSAGE_ID)]

def notificationIndScript : List Step :=
  [.must (h.textPlan platform MMS_CONTENT_LOCATION), .must (h.longPlan MMS_MESSAGE_SIZE),
    .must h.expiryFieldPlan, .must (h.messageClassPlan platform)] ++
  (mayOf (h.addressMap .sender) (senderPlan platform) ++
  [.may (h.octetPlan MMS_CONTENT_CLASS), .may (h.encodeStringFieldPlan platform MMS_SUBJECT),
    .may (h.octetPlan MMS_DELIVERY_REPORT)])

def notifyRespIndScript : List Step :=
  [.must (h.octetPlan MMS_STATUS), .may (h.octetPlan MMS_REPORT_ALLOWED)]

/-- The fields of a retrieved message, behind the sender. -/
def retrieveConfFields : List Step :=
  mustOf (h.addressMap .recipient) (addressListPlan platform MMS_TO) ++
    (mustOf (h.addressMap .cc) (addressListPlan platform MMS_CC) ++
    [.may (h.messageClassPlan platform), .may (h.encodeStringFieldPlan platform MMS_SUBJECT),
      .may (h.octetPlan MMS_PRIORITY), .may (h.octetPlan MMS_DELIVERY_REPORT),
      .may (h.octetPlan MMS_READ_REPORT), .may (h.octetPlan MMS_RETRIEVE_STATUS),
      .may (h.encodeStringFieldPlan platform MMS_RETRIEVE_TEXT)])

def retrieveConfScript : List Step :=
  [.must (h.longPlan MMS_DATE), .may (h.textPlan platform MMS_MESSAGE_ID)] ++
  (mayOf (h.addressMap .sender) (senderPlan platform) ++ h.retrieveConfFields platform)

def acknowledgeIndScript : List Step := [.may (h.octetPlan MMS_REPORT_ALLOWED)]

def deliveryIndScript : List Step :=
  [.must (h.toAddressPlan platform), .must (h.textPlan platform MMS_MESSAGE_ID),
    .must (h.longPlan MMS_DATE), .must (h.octetPlan MMS_STATUS)]

def readReportScript : List Step :=
  [.must (h.textPlan platform MMS_MESSAGE_ID), .must (h.toAddressPlan platform)] ++
  (mustOf (h.addressMap .sender) (senderPlan platform) ++ [.must (h.octetPlan MMS_READ_STATUS)])

def readRecIndScript : List Step :=
  h.readReportScript platform ++ [.may (h.longPlan MMS_DATE)]

def readOrigIndScript : List Step :=
  h.readReportScript platform ++ [.must (h.longPlan MMS_DATE)]

def messageTypeScript (messageType : UInt8) : List Step :=
  if messageType = MMS_MSGTYPE_SEND_REQ then h.sendReqScript platform
  else if messageType = MMS_MSGTYPE_SEND_CONF then h.sendConfScript platform
  else if messageType = MMS_MSGTYPE_NOTIFICATION_IND then h.notificationIndScript platform
  else if messageType = MMS_MSGTYPE_NOTIFYRESP_IND then h.notifyRespIndScript
  else if messageType = MMS_MSGTYPE_RETRIEVE_CONF then h.retrieveConfScript platform
  else if messageType = MMS_MSGTYPE_ACKNOWLEDGE_IND then h.acknowledgeIndScript
  else if messageType = MMS_MSGTYPE_DELIVERY_IND then h.deliveryIndScript platform
  else if messageType = MMS_MSGTYPE_READ_REC_IND then h.readRecIndScript platform
  else if messageType = MMS_MSGTYPE_READ_ORIG_IND then h.readOrigIndScript platform
  else [.must .refuse]

def headerScript (messageType : UInt8) : List Step :=
  h.commonScript platform ++ h.messageTypeScript platform messageType

end MmsHeader

/-! ## The scripts are tidy -/

theorem planAll_addresses_tidy (platform : Platform) (fieldId : UInt8)
    (addrs : List MmsAddress) : TidyPlan (addressListPlan platform fieldId addrs) := by
  intro hnone
  rw [addressListPlan_wire, MmsHeader.addressListWire] at hnone
  by_cases hempty : addrs = []
  · exact if_pos hempty
  · rw [if_neg hempty] at hnone
    cases hnone

theorem senderPlan_tidy (platform : Platform) (addrs : List MmsAddress) :
    TidyPlan (senderPlan platform addrs) :=
  tidy_of_wire (senderPlan_wire platform addrs)

namespace MmsHeader

variable (platform : Platform) (h : MmsHeader)

theorem optionalAddress_tidy (field : AddressField) :
    Script.Tidy (h.optionalAddress platform field) :=
  tidy_mayOf _ (planAll_addresses_tidy platform field.code)

theorem sendReqScript_tidy : Script.Tidy (h.sendReqScript platform) := by
  apply tidy_append (tidy_mustOf _ _)
  apply tidy_append (tidy_mayOf _ fun value => tidy_of_wire (expiryPlan_wire value))
  apply tidy_append
  · apply tidy_append (h.optionalAddress_tidy platform _)
    exact tidy_append (h.optionalAddress_tidy platform _) (h.optionalAddress_tidy platform _)
  · apply tidy_may (ofWire_tidy _)
    apply tidy_may (ofWire_tidy _)
    apply tidy_may (h.encodeStringFieldPlan_tidy platform _)
    apply tidy_may (ofWire_tidy _)
    apply tidy_may (ofWire_tidy _)
    apply tidy_may (ofWire_tidy _)
    apply tidy_may (ofWire_tidy _)
    exact tidy_may (ofWire_tidy _) tidy_nil

theorem notificationIndScript_tidy : Script.Tidy (h.notificationIndScript platform) := by
  apply tidy_append
  · exact tidy_must (tidy_must (tidy_must (tidy_must tidy_nil)))
  · apply tidy_append (tidy_mayOf _ (senderPlan_tidy platform))
    apply tidy_may (ofWire_tidy _)
    apply tidy_may (h.encodeStringFieldPlan_tidy platform _)
    exact tidy_may (ofWire_tidy _) tidy_nil

theorem retrieveConfScript_tidy : Script.Tidy (h.retrieveConfScript platform) := by
  apply tidy_append
  · exact tidy_must (tidy_may (ofWire_tidy _) tidy_nil)
  · apply tidy_append (tidy_mayOf _ (senderPlan_tidy platform))
    apply tidy_append (tidy_mustOf _ _)
    apply tidy_append (tidy_mustOf _ _)
    apply tidy_may (ofWire_tidy _)
    apply tidy_may (h.encodeStringFieldPlan_tidy platform _)
    apply tidy_may (ofWire_tidy _)
    apply tidy_may (ofWire_tidy _)
    apply tidy_may (ofWire_tidy _)
    apply tidy_may (ofWire_tidy _)
    exact tidy_may (h.encodeStringFieldPlan_tidy platform _) tidy_nil

theorem readReportScript_tidy : Script.Tidy (h.readReportScript platform) := by
  apply tidy_append
  · exact tidy_must (tidy_must tidy_nil)
  · exact tidy_append (tidy_mustOf _ _) (tidy_must tidy_nil)

theorem messageTypeScript_tidy (messageType : UInt8) :
    Script.Tidy (h.messageTypeScript platform messageType) := by
  have hone : ∀ fieldId, Script.Tidy [.may (h.octetPlan fieldId)] :=
    fun _ => tidy_may (ofWire_tidy _) tidy_nil
  apply tidy_ite (h.sendReqScript_tidy platform)
  apply tidy_ite (tidy_must (tidy_may (ofWire_tidy _) tidy_nil))
  apply tidy_ite (h.notificationIndScript_tidy platform)
  apply tidy_ite (tidy_must (hone _))
  apply tidy_ite (h.retrieveConfScript_tidy platform)
  apply tidy_ite (hone _)
  apply tidy_ite (tidy_must (tidy_must (tidy_must (tidy_must tidy_nil))))
  apply tidy_ite
  · exact tidy_append (h.readReportScript_tidy platform) (tidy_may (ofWire_tidy _) tidy_nil)
  · apply tidy_ite
    · exact tidy_append (h.readReportScript_tidy platform) (tidy_must tidy_nil)
    · exact tidy_must tidy_nil

theorem headerScript_tidy (messageType : UInt8) :
    Script.Tidy (h.headerScript platform messageType) := by
  apply tidy_append
  · exact tidy_must (tidy_append (tidy_mustOf _ _) (tidy_must tidy_nil))
  · exact h.messageTypeScript_tidy platform messageType

end MmsHeader

/-! ## The header encoders follow their scripts -/

namespace HeaderWrite

/-- On the header `h` the action writes what the script writes, and at most erases the
sender. -/
def Follows (m : HeaderWrite Unit) (h : MmsHeader) (steps : List Step) : Prop :=
  ∀ buffer, ∃ g, (g = h ∨ g = h.eraseSender) ∧
    m (h, buffer) = ((runScript steps buffer).1, (g, (runScript steps buffer).2))

namespace Follows

variable {m : HeaderWrite Unit} {h : MmsHeader} {steps steps' : List Step}

theorem onSnd {p : Write Unit} (hp : p = runScript steps) : Follows (Action.onSnd p) h steps := by
  intro buffer
  rw [hp]
  exact ⟨h, .inl rfl, rfl⟩

theorem header_bind {f : MmsHeader → HeaderWrite Unit} (hf : Follows (f h) h steps) :
    Follows (header >>= f) h steps := hf

theorem bind {f : Unit → HeaderWrite Unit} (hm : Follows m h steps)
    (hf : ∀ g, g = h ∨ g = h.eraseSender → Follows (f ()) g steps') :
    Follows (m >>= f) h (steps ++ steps') := by
  intro buffer
  rcases hm buffer with ⟨g, hg, hrun⟩
  rw [runScript_append, bind_run, bind_run, hrun]
  cases hfirst : runScript steps buffer with
  | mk r buffer' =>
      cases r with
      | none => exact ⟨g, hg, rfl⟩
      | some _ =>
          rcases hf g hg buffer' with ⟨g', hg', hrest⟩
          refine ⟨g', ?_, hrest⟩
          rcases hg with rfl | rfl
          · exact hg'
          · rcases hg' with rfl | rfl
            · exact .inr rfl
            · right
              simp [MmsHeader.eraseSender]

theorem onSnd_bind {p : Write Unit} {f : Unit → HeaderWrite Unit} (hp : p = runScript steps)
    (hf : Follows (f ()) h steps') :
    Follows (Action.onSnd p >>= f) h (steps ++ steps') := by
  intro buffer
  rw [hp, runScript_append, bind_run, bind_run, onSnd_run]
  cases hfirst : runScript steps buffer with
  | mk r buffer' =>
      cases r with
      | none => exact ⟨h, .inl rfl, rfl⟩
      | some _ => exact hf buffer'

theorem ite {c : Prop} [Decidable c] {m' : HeaderWrite Unit} (hm : Follows m h steps)
    (hm' : Follows m' h steps') :
    Follows (if c then m else m') h (if c then steps else steps') := by
  by_cases hc : c
  · rw [if_pos hc, if_pos hc]
    exact hm
  · rw [if_neg hc, if_neg hc]
    exact hm'

end Follows

variable (platform : Platform) (h : MmsHeader)

theorem encodeFieldFromValue_follows (addr : List MmsAddress) {addrs : List MmsAddress}
    (hsender : h.addressMap .sender = some addrs) :
    Follows (encodeFieldFromValue platform addr) h [.must (senderPlan platform addr)] := by
  intro buffer
  rw [encodeFieldFromValue_run platform addr h buffer hsender, runScript_must_one,
    ← senderField_eq, bind_run, onSnd_run]
  cases senderField platform addr buffer with
  | mk r buffer' =>
      cases r with
      | none => exact ⟨h, .inl rfl, rfl⟩
      | some _ => exact ⟨h.eraseSender, .inr rfl, rfl⟩

theorem attemptSender_follows (addr : List MmsAddress) {addrs : List MmsAddress}
    (hsender : h.addressMap .sender = some addrs) :
    Follows (attempt (encodeFieldFromValue platform addr)) h
      [.may (senderPlan platform addr)] := by
  intro buffer
  rcases encodeFieldFromValue_follows platform h addr hsender buffer with ⟨g, hg, hrun⟩
  rw [runScript_must_one] at hrun
  rw [runScript_may_one, attempt_run, attempt_run, hrun]
  exact ⟨g, hg, rfl⟩

theorem encodeSender_follows :
    Follows (encodeFieldFromValue platform ((h.addressMap .sender).getD [])) h
      (mustOf (h.addressMap .sender) (senderPlan platform)) := by
  cases hsender : h.addressMap .sender with
  | none =>
      intro buffer
      exact ⟨h, .inl rfl, encodeFieldFromValue_keeps platform _ h buffer hsender⟩
  | some addrs => exact encodeFieldFromValue_follows platform h addrs hsender

/-- What is written behind the sender is written of a header without one. -/
theorem encodeSender_bind {f : MmsHeader → Write Unit} {steps : List Step}
    (hf : f h.eraseSender = runScript steps) :
    Follows (do
      encodeFieldFromValue platform ((h.addressMap .sender).getD [])
      let g ← header
      onSnd (f g)) h (mustOf (h.addressMap .sender) (senderPlan platform) ++ steps) := by
  intro buffer
  cases hsender : h.addressMap .sender with
  | none =>
      have hsame : h.eraseSender = h := by
        rw [MmsHeader.eraseSender, ← hsender, Function.update_eq_self]
      rw [hsame] at hf
      rw [bind_of_some (encodeFieldFromValue_keeps platform _ h buffer hsender)]
      refine ⟨h, .inl rfl, ?_⟩
      rw [header_bind_run, onSnd_run, hf]
      rfl
  | some addrs =>
      have hrun := encodeFieldFromValue_run platform addrs h buffer hsender
      have hscript : runScript (mustOf (some addrs) (senderPlan platform) ++ steps) =
          (senderField platform addrs >>= fun _ => runScript steps) := by
        rw [senderField_eq]
        rfl
      rw [hscript, Option.getD_some, bind_run, hrun, bind_run, bind_run, onSnd_run]
      cases senderField platform addrs buffer with
      | mk r buffer' =>
          cases r with
          | none => exact ⟨h, .inl rfl, rfl⟩
          | some _ =>
              refine ⟨h.eraseSender, .inr rfl, ?_⟩
              dsimp only [modify_run]
              rw [header_bind_run, onSnd_run, hf]

theorem encodeShortIntegerValue_eq (fieldId : UInt8) (value : Int64) :
    MmsHeader.encodeShortIntegerValue fieldId value =
      encodePlan (.octets (fieldId :: shortIntegerWire (UInt8.ofNat (toUInt64 value)))) := by
  rw [← writeBytes_eq, writeBytes_cons, shortIntegerWire, ← writeByte_eq]
  rfl

theorem encodeCommontFieldValue_eq :
    h.encodeCommontFieldValue platform = runScript (h.commonScript platform) := by
  apply runScript_must_then (MmsHeader.encodeOctetValue_eq _ _)
  apply mustOf_then
  · intro hnone
    rw [hnone]
  · intro transactionId hsome
    rw [hsome, ← MmsHeader.encodeTextStringValue_eq]
  · exact runScript_must_last (encodeShortIntegerValue_eq _ _)

theorem encodeToAddress_eq :
    encodeToAddress platform h = encodePlan (h.toAddressPlan platform) := by
  unfold encodeToAddress MmsHeader.toAddressPlan
  cases h.addressMap .recipient with
  | none => rfl
  | some toAddress => exact encodeMultipleAddressValue_eq platform MMS_TO toAddress

/-- The addresses that are left are those of the other three fields. -/
theorem addressFields_eraseSender :
    [.bcc, .cc, .sender, .recipient].flatMap (h.eraseSender.optionalAddress platform) =
      h.optionalAddress platform .bcc ++ (h.optionalAddress platform .cc ++
        h.optionalAddress platform .recipient) := by
  simp [MmsHeader.optionalAddress, MmsHeader.eraseSender, mayOf]

theorem encodeMmsSendReq_follows :
    Follows (encodeMmsSendReq platform) h (h.sendReqScript platform) := by
  apply Follows.header_bind
  apply encodeSender_bind
  apply mayOf_then
  · intro hnone
    have hexpiry : h.eraseSender.longValueMap MMS_EXPIRY = none := hnone
    rw [hexpiry]
  · intro mmsExpriy hsome
    have hexpiry : h.eraseSender.longValueMap MMS_EXPIRY = some mmsExpriy := hsome
    rw [hexpiry, ← MmsHeader.encodeFieldExpriyValue_eq]
  · apply runScript_then
    · rw [← addressFields_eraseSender]
      apply forEach_runScript
      intro field
      unfold MmsHeader.optionalAddress
      cases h.eraseSender.addressMap field with
      | none => rfl
      | some addrs => rw [runScript_mayOf_some, ← encodeMultipleAddressValue_eq]
    · apply runScript_may_then (h.econdeFieldMessageClassValue_eq platform)
      apply runScript_may_then (h.encodeLongIntergerValueFromMap_eq MMS_DATE)
      apply runScript_may_then (h.enocdeEncodeStringValueFromMap_eq platform MMS_SUBJECT)
      apply runScript_may_then (h.encodeTextStringValueFromMap_eq platform MMS_MESSAGE_CLASS)
      apply runScript_may_then (h.encodeOctetValueFromMap_eq MMS_PRIORITY)
      apply runScript_may_then (h.encodeOctetValueFromMap_eq MMS_SENDER_VISIBILITY)
      apply runScript_may_then (h.encodeOctetValueFromMap_eq MMS_DELIVERY_REPORT)
      exact runScript_may_last (h.encodeOctetValueFromMap_eq MMS_READ_REPORT)

theorem encodeMmsSendConf_follows :
    Follows (encodeMmsSendConf platform) h (h.sendConfScript platform) := by
  apply Follows.header_bind
  apply Follows.onSnd
  apply runScript_must_then (h.encodeOctetValueFromMap_eq MMS_RESPONSE_STATUS)
  exact runScript_may_last (h.encodeTextStringValueFromMap_eq platform MMS_MESSAGE_ID)

/-- An attempt to write the sender where there is one, and what comes behind it. -/
theorem attemptSender_then {m rest : HeaderWrite Unit} {steps : List Step}
    (hnone : h.addressMap .sender = none → m = rest)
    (hsome : ∀ addrs, h.addressMap .sender = some addrs →
      m = (attempt (encodeFieldFromValue platform addrs) >>= fun _ => rest))
    (hrest : ∀ g, Follows rest g steps) :
    Follows m h (mayOf (h.addressMap .sender) (senderPlan platform) ++ steps) := by
  cases hsender : h.addressMap .sender with
  | none =>
      rw [hnone hsender]
      exact hrest h
  | some addrs =>
      rw [hsome addrs hsender]
      exact (attemptSender_follows platform h addrs hsender).bind fun g _ => hrest g

theorem encodeMmsNotificationInd_follows :
    Follows (encodeMmsNotificationInd platform) h (h.notificationIndScript platform) := by
  apply Follows.header_bind
  apply Follows.onSnd_bind
  · apply runScript_must_then (h.encodeTextStringValueFromMap_eq platform MMS_CONTENT_LOCATION)
    apply runScript_must_then (h.encodeLongIntergerValueFromMap_eq MMS_MESSAGE_SIZE)
    have hclass := runScript_must_last (h.econdeFieldMessageClassValue_eq platform)
    unfold MmsHeader.expiryFieldPlan
    cases h.longValueMap MMS_EXPIRY with
    | none => exact runScript_must_then rfl hclass
    | some mmsExpriy =>
        exact runScript_must_then (MmsHeader.encodeFieldExpriyValue_eq mmsExpriy) hclass
  · apply attemptSender_then
    · intro hnone
      rw [hnone]
    · intro addrs hsome
      rw [hsome]
    · intro g
      apply Follows.onSnd
      apply runScript_may_then (h.encodeOctetValueFromMap_eq MMS_CONTENT_CLASS)
      apply runScript_may_then (h.enocdeEncodeStringValueFromMap_eq platform MMS_SUBJECT)
      exact runScript_may_last (h.encodeOctetValueFromMap_eq MMS_DELIVERY_REPORT)

theorem enocdeMmsNotifyRespInd_follows :
    Follows enocdeMmsNotifyRespInd h h.notifyRespIndScript := by
  apply Follows.header_bind
  apply Follows.onSnd
  apply runScript_must_then (h.encodeOctetValueFromMap_eq MMS_STATUS)
  exact runScript_may_last (h.encodeOctetValueFromMap_eq MMS_REPORT_ALLOWED)

theorem enocdeMmsRetrieveConf_follows :
    Follows (enocdeMmsRetrieveConf platform) h (h.retrieveConfScript platform) := by
  apply Follows.header_bind
  apply Follows.onSnd_bind
  · apply runScript_must_then (h.encodeLongIntergerValueFromMap_eq MMS_DATE)
    exact runScript_may_last (h.encodeTextStringValueFromMap_eq platform MMS_MESSAGE_ID)
  · apply attemptSender_then
    · intro hnone
      rw [hnone]
    · intro addrs hsome
      rw [hsome]
    · intro g
      apply Follows.onSnd
      apply mustOf_then
      · intro hnone
        rw [hnone]
      · intro toAddress hsome
        rw [hsome, ← encodeMultipleAddressValue_eq]
      · apply mustOf_then
        · intro hnone
          rw [hnone]
        · intro ccAddress hsome
          rw [hsome, ← encodeMultipleAddressValue_eq]
        · apply runScript_may_then (h.econdeFieldMessageClassValue_eq platform)
          apply runScript_may_then (h.enocdeEncodeStringValueFromMap_eq platform MMS_SUBJECT)
          apply runScript_may_then (h.encodeOctetValueFromMap_eq MMS_PRIORITY)
          apply runScript_may_then (h.encodeOctetValueFromMap_eq MMS_DELIVERY_REPORT)
          apply runScript_may_then (h.encodeOctetValueFromMap_eq MMS_READ_REPORT)
          apply runScript_may_then (h.encodeOctetValueFromMap_eq MMS_RETRIEVE_STATUS)
          exact runScript_may_last (h.enocdeEncodeStringValueFromMap_eq platform MMS_RETRIEVE_TEXT)

theorem enocdeMmsAcknowledgeInd_follows :
    Follows enocdeMmsAcknowledgeInd h h.acknowledgeIndScript := by
  apply Follows.header_bind
  apply Follows.onSnd
  exact runScript_may_last (h.encodeOctetValueFromMap_eq MMS_REPORT_ALLOWED)

theorem enocdeMmsDeliveryInd_follows :
    Follows (enocdeMmsDeliveryInd platform) h (h.deliveryIndScript platform) := by
  apply Follows.header_bind
  apply Follows.onSnd
  apply runScript_must_then (encodeToAddress_eq platform h)
  apply runScript_must_then (h.encodeTextStringValueFromMap_eq platform MMS_MESSAGE_ID)
  apply runScript_must_then (h.encodeLongIntergerValueFromMap_eq MMS_DATE)
  exact runScript_must_last (h.encodeOctetValueFromMap_eq MMS_STATUS)

theorem encodeReadReport_follows :
    Follows (encodeReadReport platform) h (h.readReportScript platform) := by
  apply Follows.header_bind
  apply Follows.onSnd_bind
  · apply runScript_must_then (h.encodeTextStringValueFromMap_eq platform MMS_MESSAGE_ID)
    exact runScript_must_last (encodeToAddress_eq platform h)
  · apply (encodeSender_follows platform h).bind
    intro g _
    apply Follows.onSnd
    exact runScript_must_last (h.encodeOctetValueFromMap_eq MMS_READ_STATUS)

theorem encodeMmsReadRecInd_follows :
    Follows (encodeMmsReadRecInd platform) h (h.readRecIndScript platform) := by
  apply (encodeReadReport_follows platform h).bind
  intro g hg
  apply Follows.header_bind
  apply Follows.onSnd
  have hdate : g.longPlan MMS_DATE = h.longPlan MMS_DATE := by
    rcases hg with rfl | rfl <;> rfl
  rw [← hdate]
  exact runScript_may_last (g.encodeLongIntergerValueFromMap_eq MMS_DATE)

theorem encodeMmsReadOrigInd_follows :
    Follows (encodeMmsReadOrigInd platform) h (h.readOrigIndScript platform) := by
  apply (encodeReadReport_follows platform h).bind
  intro g hg
  apply Follows.header_bind
  apply Follows.onSnd
  have hdate : g.longPlan MMS_DATE = h.longPlan MMS_DATE := by
    rcases hg with rfl | rfl <;> rfl
  rw [← hdate]
  exact runScript_must_last (g.encodeLongIntergerValueFromMap_eq MMS_DATE)

theorem encodeMessageType_follows (messageType : UInt8) :
    Follows (encodeMessageType platform messageType) h
      (h.messageTypeScript platform messageType) := by
  apply (encodeMmsSendReq_follows platform h).ite
  apply (encodeMmsSendConf_follows platform h).ite
  apply (encodeMmsNotificationInd_follows platform h).ite
  apply (enocdeMmsNotifyRespInd_follows h).ite
  apply (enocdeMmsRetrieveConf_follows platform h).ite
  apply (enocdeMmsAcknowledgeInd_follows h).ite
  apply (enocdeMmsDeliveryInd_follows platform h).ite
  apply (encodeMmsReadRecInd_follows platform h).ite
  apply (encodeMmsReadOrigInd_follows platform h).ite
  exact fun buffer => ⟨h, .inl rfl, rfl⟩

theorem encodeMmsHeader_run {messageType : UInt8}
    (htype : h.octetValueMap MMS_MESSAGE_TYPE = some messageType) (buffer : Octets) :
    encodeMmsHeader platform (h, buffer) = (do
      onSnd ((fillDefaults platform messageType h).encodeCommontFieldValue platform)
      encodeMessageType platform messageType : HeaderWrite Unit)
        (fillDefaults platform messageType h, buffer) := by
  rw [encodeMmsHeader, header_bind_run, htype]
  simp only [bind_run, modify_run]
  rfl

theorem headerFields_follows (messageType : UInt8) :
    Follows (do
      onSnd (h.encodeCommontFieldValue platform)
      encodeMessageType platform messageType) h (h.headerScript platform messageType) :=
  Follows.onSnd_bind (encodeCommontFieldValue_eq platform h)
    (encodeMessageType_follows platform h messageType)

end HeaderWrite

/-! ## The content type and the parts -/

/-- Two writers that succeed alike. -/
def Agrees (m n : Write Unit) : Prop :=
  ∀ buffer buffer', m buffer = (some (), buffer') ↔ n buffer = (some (), buffer')

theorem Agrees.of_eq {m n : Write Unit} (h : m = n) : Agrees m n := by
  intro buffer buffer'
  rw [h]

theorem Agrees.bind {m m' n n' : Write Unit} (hm : Agrees m m') (hn : Agrees n n') :
    Agrees (m >>= fun _ => n) (m' >>= fun _ => n') := by
  intro buffer buffer'
  constructor
  · intro h
    rcases bind_eq_some h with ⟨_, b, hfirst, hrest⟩
    rw [bind_of_some ((hm buffer b).1 hfirst)]
    exact (hn b buffer').1 hrest
  · intro h
    rcases bind_eq_some h with ⟨_, b, hfirst, hrest⟩
    rw [bind_of_some ((hm buffer b).2 hfirst)]
    exact (hn b buffer').2 hrest

/-- An attempt to write octets writes as many as fit. -/
theorem attempt_writeBytes {buffer : Octets} (h : buffer.length ≤ MMS_PDU_MAX_SIZE)
    (w : Octets) :
    attempt (writeBytes w) buffer = (some (), (buffer ++ w).take MMS_PDU_MAX_SIZE) := by
  rw [attempt_run, writeBytes_eq, encodePlan, Plan.run, putAll_some w h, List.take_append,
    List.take_of_length_le h]

theorem attempt_writeBytes_take (u w : Octets) :
    attempt (writeBytes w) (u.take MMS_PDU_MAX_SIZE) =
      (some (), (u ++ w).take MMS_PDU_MAX_SIZE) := by
  rw [attempt_writeBytes (List.length_take_le _ _), List.take_append, List.take_append,
    List.take_take, Nat.min_self, List.length_take]
  congr 3
  omega

/-- The octets of a temporary buffer to which some are written by attempts. -/
def attempted (a b c d : Octets) : Write Unit := do
  writeBytes a
  attempt (writeBytes b)
  attempt (writeBytes c)
  attempt (writeBytes d)

theorem attempted_nil {a : Octets} (h : a.length ≤ MMS_PDU_MAX_SIZE) (b c d : Octets) :
    attempted a b c d [] = (some (), (a ++ (b ++ (c ++ d))).take MMS_PDU_MAX_SIZE) := by
  have hfirst : writeBytes a [] = (some (), a.take MMS_PDU_MAX_SIZE) := by
    rw [writeBytes_eq, encodePlan, Plan.run, putAll_some a (Nat.zero_le _), List.length_nil,
      Nat.zero_add, if_pos h]
    rfl
  rw [attempted, bind_of_some hfirst, bind_of_some (attempt_writeBytes_take _ _),
    bind_of_some (attempt_writeBytes_take _ _), attempt_writeBytes_take, List.append_assoc,
    List.append_assoc]

/-- A temporary buffer that an attempt has filled is not copied. -/
theorem attempted_agrees (a b c d : Octets) :
    Agrees (do
      let temp ← inTempBuffer (attempted a b c d)
      encodeValueLength temp.length
      writeBuffer temp)
      (encodePlan (.behind valueLengthHead (.octets (a ++ (b ++ (c ++ d)))))) := by
  by_cases hfits : (a ++ (b ++ (c ++ d))).length ≤ MMS_PDU_MAX_SIZE
  · have ha : a.length ≤ MMS_PDU_MAX_SIZE := by
      rw [List.length_append] at hfits
      omega
    apply Agrees.of_eq
    apply lengthField_eq
    intro temp
    rw [attempted_nil ha, List.take_of_length_le hfits, encodePlan, Plan.run,
      putAll_some _ (Nat.zero_le _), List.length_nil, Nat.zero_add, if_pos hfits, Nat.sub_zero,
      List.take_of_length_le hfits, List.nil_append]
  · intro buffer buffer'
    have hplan : encodePlan (.behind valueLengthHead (.octets (a ++ (b ++ (c ++ d))))) buffer =
        (none, buffer) := by
      rw [encodePlan, Plan.run, Plan.run, putAll_some _ (Nat.zero_le _), List.length_nil,
        Nat.zero_add, if_neg hfits]
    rw [hplan]
    refine iff_of_false ?_ fun h => by cases h
    intro h
    rcases bind_eq_some h with ⟨temp, b₁, htemp, hrest⟩
    rcases bind_eq_some hrest with ⟨_, b₂, _, hwrite⟩
    have hroom := (writeBuffer_eq_some hwrite).2
    by_cases ha : a.length ≤ MMS_PDU_MAX_SIZE
    · rw [inTempBuffer, attempted_nil ha] at htemp
      have hsame := Option.some.inj (Prod.mk.inj htemp).1
      rw [← hsame, List.length_take] at hroom
      omega
    · have hnone : writeBytes a [] = (none, a.take MMS_PDU_MAX_SIZE) := by
        rw [writeBytes_eq, encodePlan, Plan.run, putAll_some a (Nat.zero_le _), List.length_nil,
          Nat.zero_add, if_neg ha]
        rfl
      rw [inTempBuffer, attempted, bind_of_none hnone] at htemp
      cases (Prod.mk.inj htemp).1

namespace MmsBody

variable (platform : Platform) (body : MmsBody) (header : MmsHeader)

def headerContentTypeWire (contentType : MmsContentType) : Octets :=
  textWire platform contentType.contentType ++
    (textParams.flatMap (contentType.msgContentParm.textFieldWire platform) ++
      (contentType.msgContentParm.typeFieldWire platform ++
        contentType.msgContentParm.charsetFieldWire))

def contentTypeValuePlan : Plan :=
  if header.mmsContentType.contentType = [] then
    .refuse
  else if !header.isHaveBody || body.mmsBodyParts.isEmpty then
    .octets (textWire platform header.mmsContentType.contentType)
  else
    .behind valueLengthHead (.octets (headerContentTypeWire platform header.mmsContentType))

def script : List Step :=
  [.must (.octets [MMS_CONTENT_TYPE]), .must (body.contentTypeValuePlan platform header),
    .must (.octets (uintvarOctets body.mmsBodyParts.length))] ++
  body.mmsBodyParts.flatMap fun part => [.must (part.plan platform)]

/-- The content type, and nothing else, is written by attempts that are made in vain when
there is no room. -/
theorem encodeMmsHeaderContentType_agrees :
    Agrees (body.encodeMmsHeaderContentType platform header)
      (runScript [.must (.octets [MMS_CONTENT_TYPE]),
        .must (body.contentTypeValuePlan platform header)]) := by
  rw [runScript_must, runScript_must_one, ← writeBytes_eq, ← writeByte_eq]
  apply (Agrees.of_eq rfl).bind
  unfold contentTypeValuePlan
  by_cases hempty : header.mmsContentType.contentType = []
  · rw [guard_of_not (not_not_intro hempty), if_pos hempty]
    exact Agrees.of_eq rfl
  · rw [guard_of hempty, if_neg hempty]
    by_cases hnone : (!header.isHaveBody || body.mmsBodyParts.isEmpty) = true
    · rw [if_pos hnone, if_pos hnone, encodeText_eq, writeBytes_eq]
      exact Agrees.of_eq rfl
    · rw [if_neg hnone, if_neg hnone, encodeText_eq, MmsContentParam.encodeTextField_eq,
        MmsContentParam.encodeTypeField_eq, MmsContentParam.encodeCharsetField_eq]
      exact attempted_agrees _ _ _ _

theorem encodeMmsBody_eq :
    body.encodeMmsBody platform =
      runScript (.must (.octets (uintvarOctets body.mmsBodyParts.length)) ::
        body.mmsBodyParts.flatMap fun part => [.must (part.plan platform)]) := by
  apply runScript_must_then (writeBytes_eq _)
  apply forEach_runScript
  intro part
  exact runScript_must_last (part.encodeMmsBodyPart_eq platform)

end MmsBody

namespace MmsMsg

variable (platform : Platform)

def bodyScript (header : MmsHeader) (body : MmsBody) : List Step :=
  if header.isHaveBody then body.script platform header else []

theorem encodeBody_agrees (header : MmsHeader) (body : MmsBody) :
    Agrees (encodeBody platform header body) (runScript (bodyScript platform header body)) := by
  unfold encodeBody bodyScript
  split
  · have hboth := (body.encodeMmsHeaderContentType_agrees platform header).bind
      (Agrees.of_eq (body.encodeMmsBody_eq platform))
    rw [← runScript_append] at hboth
    exact hboth
  · exact Agrees.of_eq rfl

/-- The fields, the content type and the parts of a message in the order in which they are
written, with the defaults filled in. -/
def script (msg : MmsMsg) : List Step :=
  match msg.mmsHeader.octetValueMap MMS_MESSAGE_TYPE with
  | none => [.must .refuse]
  | some messageType =>
      let header := HeaderWrite.fillDefaults platform messageType msg.mmsHeader
      header.headerScript platform messageType ++ bodyScript platform header msg.mmsBody

/-- `EncodeMsg` succeeds with what its script leaves in the encode buffer. -/
theorem encodeMsg_eq_some_iff (msg : MmsMsg) (octets : Octets) :
    (encodeMsg platform msg).1 = some octets ↔
      runScript (msg.script platform) [] = (some (), octets) := by
  unfold script
  cases htype : msg.mmsHeader.octetValueMap MMS_MESSAGE_TYPE with
  | none =>
      have hrun : HeaderWrite.encodeMmsHeader platform (msg.mmsHeader, []) =
          (none, (msg.mmsHeader, [])) := by
        rw [HeaderWrite.encodeMmsHeader, HeaderWrite.header_bind_run, htype]
        rfl
      rw [encodeMsg, hrun]
      exact iff_of_false (fun h => by cases h) (fun h => by cases h)
  | some messageType =>
      dsimp only
      generalize hfilled : HeaderWrite.fillDefaults platform messageType msg.mmsHeader = header
      have hrun := HeaderWrite.encodeMmsHeader_run platform msg.mmsHeader htype []
      rcases HeaderWrite.headerFields_follows platform header messageType [] with ⟨g, hg, hwrites⟩
      rw [hfilled, hwrites] at hrun
      have hbody : bodyScript platform g msg.mmsBody = bodyScript platform header msg.mmsBody := by
        rcases hg with rfl | rfl <;> rfl
      rw [encodeMsg, hrun, ← hbody, runScript_append, bind_run]
      cases runScript (header.headerScript platform messageType) [] with
      | mk r buffer =>
          cases r with
          | none => exact iff_of_false (fun h => by cases h) (fun h => by cases h)
          | some _ =>
              dsimp only
              rw [← encodeBody_agrees platform g msg.mmsBody buffer octets]
              cases encodeBody platform g msg.mmsBody buffer with
              | mk r' octets' =>
                  cases r' with
                  | none => exact iff_of_false (fun h => by cases h) (fun h => by cases h)
                  | some _ => simp

theorem bodyScript_tidy (header : MmsHeader) (body : MmsBody) :
    Script.Tidy (bodyScript platform header body) := by
  have hparts : Script.Tidy
      (body.mmsBodyParts.flatMap fun part => [.must (part.plan platform)]) := by
    intro p hp
    rcases List.mem_flatMap.1 hp with ⟨part, _, hmem⟩
    cases List.mem_singleton.1 hmem
  unfold bodyScript
  split
  · exact tidy_must (tidy_must (tidy_must hparts))
  · exact tidy_nil

theorem script_tidy (msg : MmsMsg) : Script.Tidy (msg.script platform) := by
  unfold script
  split
  · exact tidy_must tidy_nil
  · exact tidy_append (MmsHeader.headerScript_tidy platform _ _) (bodyScript_tidy platform _ _)

/-! ## All or nothing -/

/-- What `EncodeMsg` would return if its buffers had no limit. -/
def encodeUnlimited (msg : MmsMsg) : Option Octets :=
  match Script.run none (msg.script platform) [] with
  | (some _, octets) => some octets
  | (none, _) => none

/-- `EncodeMsg` returns null, or what it would return without a limit. -/
def AllOrNothing (msg : MmsMsg) : Prop :=
  ∀ octets, (encodeMsg platform msg).1 = some octets → msg.encodeUnlimited platform = some octets

theorem allOrNothing_iff_script (msg : MmsMsg) :
    msg.AllOrNothing platform ↔
      Script.AllOrNothing MMS_PDU_MAX_SIZE (msg.script platform) [] := by
  have hunlimited : ∀ octets, msg.encodeUnlimited platform = some octets ↔
      Script.run none (msg.script platform) [] = (some (), octets) := by
    intro octets
    unfold encodeUnlimited
    cases Script.run none (msg.script platform) [] with
    | mk r octets' => cases r <;> simp
  unfold AllOrNothing Script.AllOrNothing
  apply forall_congr'
  intro octets
  rw [encodeMsg_eq_some_iff, hunlimited]
  rfl

/-- Encoding is all or nothing exactly for the messages in which the first optional field that
does not fit, if there is one, is followed by a field or part that has to be written and does
not fit behind what is then in the buffer. -/
theorem encodeMsg_allOrNothing_iff (msg : MmsMsg) :
    msg.AllOrNothing platform ↔
      Script.Settled MMS_PDU_MAX_SIZE 0 (msg.script platform) :=
  (msg.allOrNothing_iff_script platform).trans
    (Script.allOrNothing_iff (msg.script_tidy platform) (Nat.zero_le _))

/-- A message to be sent with a subject in UTF-8, and no parts. -/
def withSubject (first : UInt8) (rest : Octets) : MmsMsg :=
  sendRequest (({} : MmsHeader).putEncodeString MMS_SUBJECT (setEncodeString 0x6a (first :: rest)))

/-- What is written behind the subject. -/
def behindSubject : List Step :=
  [.may .refuse, .may .refuse, .may .refuse, .may .refuse, .may .refuse,
    .must (.octets [MMS_CONTENT_TYPE]),
    .must (.octets (textWire plainPlatform (ascii "application/vnd.wap.multipart.mixed"))),
    .must (.octets (uintvarOctets 0))]

theorem withSubject_script (first : UInt8) (rest : Octets) :
    (withSubject first rest).script plainPlatform =
      .must (.octets [MMS_MESSAGE_TYPE, MMS_MSGTYPE_SEND_REQ]) ::
        .must (.octets (MMS_TRANSACTION_ID :: textWire plainPlatform (ascii "T1"))) ::
        .must (.octets (MMS_MMS_VERSION :: shortIntegerWire (UInt8.ofNat (toUInt64 0x13)))) ::
        .may .refuse :: .may .refuse ::
        .may (.seq (.octets [MMS_SUBJECT])
          (encodeStringPlan plainPlatform (setEncodeString 0x6a (first :: rest)))) ::
        behindSubject := rfl

theorem behindSubject_passes : Script.Passes MMS_PDU_MAX_SIZE 9 behindSubject := by
  decide

/-- A string too long for a buffer is not begun. -/
theorem encodeStringPlan_left {value : MmsEncodeString} (hcharset : value.charset ≠ 0)
    (platform : Platform) (h : MMS_PDU_MAX_SIZE < (textWire platform value.strEncodeString).length)
    (n : Nat) : (encodeStringPlan platform value).left MMS_PDU_MAX_SIZE n = n := by
  rw [encodeStringPlan, if_pos hcharset, Plan.left]
  apply if_neg
  rw [Plan.need, List.length_append]
  omega

theorem encodeStringPlan_need {value : MmsEncodeString} (hcharset : value.charset ≠ 0)
    (platform : Platform) :
    (textWire platform value.strEncodeString).length < (encodeStringPlan platform value).need := by
  have hsize : (Plan.octets (charsetWire value.charset ++
      textWire platform value.strEncodeString)).size =
        (charsetWire value.charset ++ textWire platform value.strEncodeString).length := rfl
  rw [encodeStringPlan, if_pos hcharset, Plan.need, hsize, List.length_append]
  omega

/-- The code of a subject that is too long is left in the buffer, and the content type and the
number of parts still fit behind it. -/
theorem withSubject_not_settled (first : UInt8) {rest : Octets}
    (h : MMS_PDU_MAX_SIZE ≤ rest.length) :
    ¬ Script.Settled MMS_PDU_MAX_SIZE 0 ((withSubject first rest).script plainPlatform) := by
  have htext : MMS_PDU_MAX_SIZE < (textWire plainPlatform (first :: rest)).length := by
    rw [textWire, List.length_append, List.length_append, List.length_cons]
    omega
  have hcharset : (setEncodeString 0x6a (first :: rest)).charset ≠ 0 := Nat.succ_ne_zero _
  rw [withSubject_script]
  generalize hvalue : setEncodeString 0x6a (first :: rest) = value at hcharset
  have hvalueText : value.strEncodeString = first :: rest := by
    rw [← hvalue]
    rfl
  rw [← hvalueText] at htext
  have hneed := encodeStringPlan_need hcharset plainPlatform
  have hleft := encodeStringPlan_left hcharset plainPlatform htext 9
  generalize encodeStringPlan plainPlatform value = p at hneed hleft
  have hfull : ¬ 8 + (Plan.seq (.octets [MMS_SUBJECT]) p).need ≤ MMS_PDU_MAX_SIZE := by
    rw [Plan.need]
    omega
  have hstray : (Plan.seq (.octets [MMS_SUBJECT]) p).left MMS_PDU_MAX_SIZE 8 = 9 := hleft
  rw [Script.settled_must_octets (by decide), Script.settled_must_octets (by decide),
    Script.settled_must_octets (by decide), Script.settled_may_of (by decide),
    Script.settled_may_of (by decide)]
  intro hsettled
  have hsubject := (Script.settled_may_of_not hfull).1 hsettled
  rw [hstray] at hsubject
  exact hsubject behindSubject_passes

/-- A subject that does not fit leaves its code in a message without it. -/
theorem long_subject_left_in_part :
    ¬ (withSubject 0x61 (List.replicate MMS_PDU_MAX_SIZE 0x61)).AllOrNothing plainPlatform := by
  have hlong : MMS_PDU_MAX_SIZE ≤ (List.replicate MMS_PDU_MAX_SIZE (0x61 : UInt8)).length :=
    Nat.le_of_eq List.length_replicate.symm
  generalize List.replicate MMS_PDU_MAX_SIZE (0x61 : UInt8) = rest at hlong
  intro hall
  rw [allOrNothing_iff_script, Script.allOrNothing_iff (script_tidy _ _) (Nat.zero_le _)] at hall
  exact withSubject_not_settled 0x61 hlong hall

end MmsMsg

end TelephonySms.Mms
