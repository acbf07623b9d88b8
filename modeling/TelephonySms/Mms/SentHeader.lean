import TelephonySms.Mms.ReceivedFields
import TelephonySms.Mms.SizeLimit

/-! # Headers through the encoder and back

The places of every message type in the order in which its encoder writes them. The octets of
the header are the fields of these places, and the decoder makes of them the header that is
received.
-/

namespace TelephonySms.Mms

open Action OctetReader Reader MmsFieldCode

/-! ## The places of the message types -/

def commonSlots : List Slot := [.octet MMS_MESSAGE_TYPE, .text MMS_TRANSACTION_ID, .version]

def sendReqSlots : List Slot :=
  [.sender, .expiry, .addresses .bcc, .addresses .cc, .addresses .recipient,
    .octet MMS_MESSAGE_CLASS, .long MMS_DATE, .encoded MMS_SUBJECT, .octet MMS_PRIORITY,
    .octet MMS_SENDER_VISIBILITY, .octet MMS_DELIVERY_REPORT, .octet MMS_READ_REPORT]

def sendConfSlots : List Slot := [.octet MMS_RESPONSE_STATUS, .text MMS_MESSAGE_ID]

def notificationIndSlots : List Slot :=
  [.text MMS_CONTENT_LOCATION, .long MMS_MESSAGE_SIZE, .expiry, .octet MMS_MESSAGE_CLASS,
    .sender, .octet MMS_CONTENT_CLASS, .encoded MMS_SUBJECT, .octet MMS_DELIVERY_REPORT]

def notifyRespIndSlots : List Slot := [.octet MMS_STATUS, .octet MMS_REPORT_ALLOWED]

def retrieveConfSlots : List Slot :=
  [.long MMS_DATE, .text MMS_MESSAGE_ID, .sender, .addresses .recipient, .addresses .cc,
    .octet MMS_MESSAGE_CLASS, .encoded MMS_SUBJECT, .octet MMS_PRIORITY,
    .octet MMS_DELIVERY_REPORT, .octet MMS_READ_REPORT, .octet MMS_RETRIEVE_STATUS,
    .encoded MMS_RETRIEVE_TEXT]

def acknowledgeIndSlots : List Slot := [.octet MMS_REPORT_ALLOWED]

def deliveryIndSlots : List Slot :=
  [.addresses .recipient, .text MMS_MESSAGE_ID, .long MMS_DATE, .octet MMS_STATUS]

/-- The two read reports. -/
def readReportSlots : List Slot :=
  [.text MMS_MESSAGE_ID, .addresses .recipient, .sender, .octet MMS_READ_STATUS, .long MMS_DATE]

def typeSlots (messageType : UInt8) : List Slot :=
  if messageType = MMS_MSGTYPE_SEND_REQ then sendReqSlots
  else if messageType = MMS_MSGTYPE_SEND_CONF then sendConfSlots
  else if messageType = MMS_MSGTYPE_NOTIFICATION_IND then notificationIndSlots
  else if messageType = MMS_MSGTYPE_NOTIFYRESP_IND then notifyRespIndSlots
  else if messageType = MMS_MSGTYPE_RETRIEVE_CONF then retrieveConfSlots
  else if messageType = MMS_MSGTYPE_ACKNOWLEDGE_IND then acknowledgeIndSlots
  else if messageType = MMS_MSGTYPE_DELIVERY_IND then deliveryIndSlots
  else if messageType = MMS_MSGTYPE_READ_REC_IND then readReportSlots
  else if messageType = MMS_MSGTYPE_READ_ORIG_IND then readReportSlots
  else []

def messageSlots (messageType : UInt8) : List Slot := commonSlots ++ typeSlots messageType

/-- No place is there twice, and the decoder has a handler for each. -/
structure WellPlaced (slots : List Slot) : Prop where
  known : ∀ slot ∈ slots, slot.Known
  nodup : slots.Nodup

instance (slots : List Slot) : Decidable (WellPlaced slots) :=
  decidable_of_iff ((∀ slot ∈ slots, slot.Known) ∧ slots.Nodup)
    ⟨fun h => ⟨h.1, h.2⟩, fun h => ⟨h.known, h.nodup⟩⟩

theorem messageSlots_wellPlaced (messageType : UInt8) : WellPlaced (messageSlots messageType) := by
  unfold messageSlots typeSlots
  split_ifs <;> decide

/-! ## Scripts and places -/

section Writes

variable {platform : Platform} {h : MmsHeader}

/-- The script writes the fields of the places. -/
def Writes (platform : Platform) (h : MmsHeader) (steps : List Step) (slots : List Slot) : Prop :=
  Script.wire steps = fieldsWire (slots.flatMap (Slot.fields platform h))

namespace Writes

variable {steps steps' : List Step} {slots slots' : List Slot} {slot : Slot} {p : Plan}

theorem nil : Writes platform h [] [] := rfl

theorem append (hw : Writes platform h steps slots) (hw' : Writes platform h steps' slots') :
    Writes platform h (steps ++ steps') (slots ++ slots') := by
  rw [Writes, Script.wire_append, hw, hw', List.flatMap_append, fieldsWire, fieldsWire, fieldsWire,
    List.flatMap_append]

/-- The plan writes the fields of the place. -/
def One (platform : Platform) (h : MmsHeader) (p : Plan) (slot : Slot) : Prop :=
  p.wire.getD [] = fieldsWire (slot.fields platform h)

theorem must (hp : One platform h p slot) (hw : Writes platform h steps slots) :
    Writes platform h (.must p :: steps) (slot :: slots) := by
  rw [Writes, Script.wire_cons, hw, Step.plan, hp, List.flatMap_cons, fieldsWire, fieldsWire,
    fieldsWire, List.flatMap_append]

theorem may (hp : One platform h p slot) (hw : Writes platform h steps slots) :
    Writes platform h (.may p :: steps) (slot :: slots) :=
  must hp hw

/-- A field that is never there in a message that is sent. -/
theorem mayNothing (hp : p.wire = none) (hw : Writes platform h steps slots) :
    Writes platform h (.may p :: steps) slots := by
  rw [Writes, Script.wire_cons, hw, Step.plan, hp]
  rfl

theorem present {α : Type} {o : Option α} {plan : α → Plan}
    (hp : (o.elim [] fun a => (plan a).wire.getD []) = fieldsWire (slot.fields platform h)) :
    Writes platform h (mustOf o plan) [slot] ∧ Writes platform h (mayOf o plan) [slot] := by
  unfold Writes
  rw [List.flatMap_singleton, ← hp]
  cases o with
  | none => exact ⟨rfl, rfl⟩
  | some a =>
      have hone : ∀ w : Octets, w ++ [] = w := List.append_nil
      exact ⟨hone _, hone _⟩

end Writes

theorem fieldsWire_toList {α : Type} (o : Option α) (field : α → HeaderField) :
    fieldsWire (o.toList.map field) = o.elim [] fun a => (field a).wire := by
  cases o with
  | none => rfl
  | some a => exact List.append_nil _

theorem getD_map {α : Type} (o : Option α) (f : α → Octets) : (o.map f).getD [] = o.elim [] f := by
  cases o <;> rfl

theorem octetPlan_writes (code : UInt8) :
    Writes.One platform h (h.octetPlan code) (.octet code) := by
  rw [Writes.One, MmsHeader.octetPlan, ofWire_wire, MmsHeader.octetFieldWire, getD_map, Slot.fields,
    fieldsWire_toList]
  rfl

theorem longPlan_writes (code : UInt8) :
    Writes.One platform h (h.longPlan code) (.long code) := by
  rw [Writes.One, MmsHeader.longPlan, ofWire_wire, MmsHeader.longFieldWire, getD_map, Slot.fields,
    fieldsWire_toList]
  rfl

theorem textWireOf_getD (hs : Sendable h) {code : UInt8} {value : Octets}
    (hvalue : h.textValueMap code = some value) :
    (MmsHeader.textWireOf platform code value).getD [] =
      HeaderField.wire ⟨code, .text (textString platform value)⟩ := by
  have hne := (hs.texts code value hvalue).ne_nil
  rw [MmsHeader.textWireOf, if_neg hne, textWire_eq platform hne]
  rfl

theorem textPlan_writes (hs : Sendable h) (code : UInt8) :
    Writes.One platform h (h.textPlan platform code) (.text code) := by
  rw [Writes.One, MmsHeader.textPlan, ofWire_wire, MmsHeader.textFieldWire, Slot.fields,
    fieldsWire_toList]
  cases hvalue : h.textValueMap code with
  | none => rfl
  | some value => exact textWireOf_getD hs hvalue

theorem transactionId_writes (hs : Sendable h) :
    Writes platform h (mustOf (h.textValueMap MMS_TRANSACTION_ID) fun transactionId =>
      ofWire (MmsHeader.textWireOf platform MMS_TRANSACTION_ID transactionId))
        [.text MMS_TRANSACTION_ID] := by
  refine (Writes.present ?_).1
  rw [Slot.fields, fieldsWire_toList]
  cases hvalue : h.textValueMap MMS_TRANSACTION_ID with
  | none => rfl
  | some value =>
      rw [Option.elim_some, ofWire_wire, textWireOf_getD hs hvalue]
      rfl

theorem messageClassPlan_writes (hs : Sendable h) :
    Writes.One platform h (h.messageClassPlan platform) (.octet MMS_MESSAGE_CLASS) := by
  rw [Writes.One, MmsHeader.messageClassPlan, ofWire_wire, MmsHeader.messageClassWire, Slot.fields,
    fieldsWire_toList, hs.textClass]
  cases h.octetValueMap MMS_MESSAGE_CLASS <;> rfl

theorem expiryPlan_getD (value : Int64) :
    (MmsHeader.expiryPlan value).wire.getD [] = (expiryField value).wire := by
  rw [MmsHeader.expiryPlan_wire, Option.getD_some, expiryWire_eq]

theorem expiryFieldPlan_writes : Writes.One platform h h.expiryFieldPlan .expiry := by
  rw [Writes.One, MmsHeader.expiryFieldPlan, Slot.fields, fieldsWire_toList]
  cases h.longValueMap MMS_EXPIRY with
  | none => rfl
  | some value => exact expiryPlan_getD value

theorem expiry_writes :
    Writes platform h (mayOf (h.longValueMap MMS_EXPIRY) MmsHeader.expiryPlan) [.expiry] := by
  refine (Writes.present ?_).2
  rw [Slot.fields, fieldsWire_toList]
  cases h.longValueMap MMS_EXPIRY with
  | none => rfl
  | some value => exact expiryPlan_getD value

theorem sender_writes :
    Writes platform h (mustOf (h.addressMap .sender) (senderPlan platform)) [.sender] ∧
      Writes platform h (mayOf (h.addressMap .sender) (senderPlan platform)) [.sender] := by
  apply Writes.present
  rw [Slot.fields, fieldsWire_toList]
  cases h.addressMap .sender with
  | none => rfl
  | some addrs => rw [Option.elim_some, senderPlan_wire, Option.getD_some, senderWire_eq]; rfl

theorem encodeStringFieldPlan_writes (hs : Sendable h) (code : UInt8) :
    Writes.One platform h (h.encodeStringFieldPlan platform code) (.encoded code) := by
  rw [Writes.One, MmsHeader.encodeStringFieldPlan_wire, MmsHeader.encodeStringFieldWire, Slot.fields,
    fieldsWire_toList]
  cases hvalue : h.encodeStringsMap code with
  | none => rfl
  | some value =>
      rcases hs.strings code value hvalue with ⟨htext, hcharset, -⟩
      have hconverted : (value.getEncodeString platform).2 ≠ [] := by
        rw [MmsEncodeString.getEncodeString]
        dsimp only
        split
        · exact htext.ne_nil
        · assumption
      rw [Option.bind_some, MmsHeader.encodeStringWireOf, Option.filter_some]
      cases (value.getEncodeString platform).1 with
      | false => rfl
      | true =>
          rw [if_pos ⟨rfl, hconverted⟩, encodeStringWire_of_text platform hcharset htext.ne_nil]
          rfl

theorem addressesWire_eq {field : AddressField} {addrs : List MmsAddress}
    (hne : ∀ address ∈ addrs, address.addressString ≠ []) :
    addressesWire platform field.code addrs = fieldsWire (addrs.map fun address =>
      ⟨field.code, .encoded (addressString platform address)⟩) := by
  induction addrs with
  | nil => rfl
  | cons address addrs ih =>
      have hrest := ih fun other hother => hne other (List.mem_cons_of_mem _ hother)
      rw [addressesWire, fieldsWire] at hrest
      rw [addressesWire, fieldsWire, List.flatMap_cons, List.map_cons, List.flatMap_cons, hrest,
        addressString_wire platform (hne address List.mem_cons_self)]
      rfl

theorem addressListPlan_getD (hs : Sendable h) {field : AddressField} (hfield : field ≠ .sender)
    {addrs : List MmsAddress} (haddrs : h.addressMap field = some addrs) :
    (addressListPlan platform field.code addrs).wire.getD [] =
      fieldsWire ((Slot.addresses field).fields platform h) := by
  rcases hs.addresses field addrs haddrs with ⟨hsome, hall⟩
  rw [addressListPlan_wire, MmsHeader.addressListWire, if_neg hsome, Option.getD_some, Slot.fields,
    haddrs, Option.getD_some]
  apply addressesWire_eq
  intro address hmem
  rcases (hall address hmem).2 with ⟨-, hsender⟩ | htext
  · exact absurd hsender hfield
  · exact htext.ne_nil

theorem addresses_writes (hs : Sendable h) {field : AddressField} (hfield : field ≠ .sender) :
    Writes platform h (mustOf (h.addressMap field) (addressListPlan platform field.code))
        [.addresses field] ∧
      Writes platform h (h.optionalAddress platform field) [.addresses field] := by
  apply Writes.present
  cases haddrs : h.addressMap field with
  | none => rw [Slot.fields, haddrs]; rfl
  | some addrs => exact addressListPlan_getD hs hfield haddrs

theorem toAddressPlan_writes (hs : Sendable h) :
    Writes.One platform h (h.toAddressPlan platform) (.addresses .recipient) := by
  rw [Writes.One, MmsHeader.toAddressPlan]
  cases haddrs : h.addressMap .recipient with
  | none => rw [Slot.fields, haddrs]; rfl
  | some addrs => exact addressListPlan_getD hs (by decide) haddrs

theorem commonScript_writes (hs : Sendable h) {messageType : UInt8}
    (htype : h.octetValueMap MMS_MESSAGE_TYPE = some messageType) (hversion : KnownVersion h) :
    Writes platform h (h.commonScript platform) commonSlots := by
  have hfirst : Writes.One platform h
      (.octets [MMS_MESSAGE_TYPE, (h.octetValueMap MMS_MESSAGE_TYPE).getD 0])
      (.octet MMS_MESSAGE_TYPE) := by
    rw [Writes.One, Slot.fields, fieldsWire_toList, htype]
    rfl
  have hlast : Writes.One platform h (.octets (MMS_MMS_VERSION :: shortIntegerWire
      (UInt8.ofNat (toUInt64 ((h.longValueMap MMS_MMS_VERSION).getD 0))))) .version := by
    rcases hversion with ⟨value, hvalue, -⟩
    rw [Writes.One, Slot.fields, fieldsWire_toList, hvalue, Option.getD_some, shortIntegerWire_eq]
    rfl
  apply Writes.must hfirst
  exact (transactionId_writes hs).append (Writes.must hlast Writes.nil)

theorem sendReqScript_writes (hs : Sendable h) :
    Writes platform h (h.sendReqScript platform) sendReqSlots := by
  have hclass : (h.textPlan platform MMS_MESSAGE_CLASS).wire = none := by
    rw [MmsHeader.textPlan, ofWire_wire, MmsHeader.textFieldWire, hs.textClass]
    rfl
  apply sender_writes.1.append
  apply expiry_writes.append
  apply @Writes.append _ _ _ _ [.addresses .bcc, .addresses .cc, .addresses .recipient]
  · apply (addresses_writes hs (by decide)).2.append
    exact (addresses_writes hs (by decide)).2.append (addresses_writes hs (by decide)).2
  · apply Writes.may (messageClassPlan_writes hs)
    apply Writes.may (longPlan_writes _)
    apply Writes.may (encodeStringFieldPlan_writes hs _)
    apply Writes.mayNothing hclass
    apply Writes.may (octetPlan_writes _)
    apply Writes.may (octetPlan_writes _)
    apply Writes.may (octetPlan_writes _)
    exact Writes.may (octetPlan_writes _) Writes.nil

theorem notificationIndScript_writes (hs : Sendable h) :
    Writes platform h (h.notificationIndScript platform) notificationIndSlots := by
  apply Writes.must (textPlan_writes hs _)
  apply Writes.must (longPlan_writes _)
  apply Writes.must expiryFieldPlan_writes
  apply Writes.must (messageClassPlan_writes hs)
  apply sender_writes.2.append
  apply Writes.may (octetPlan_writes _)
  apply Writes.may (encodeStringFieldPlan_writes hs _)
  exact Writes.may (octetPlan_writes _) Writes.nil

theorem retrieveConfScript_writes (hs : Sendable h) :
    Writes platform h (h.retrieveConfScript platform) retrieveConfSlots := by
  apply Writes.must (longPlan_writes _)
  apply Writes.may (textPlan_writes hs _)
  apply sender_writes.2.append
  apply (addresses_writes hs (show AddressField.recipient ≠ .sender by decide)).1.append
  apply (addresses_writes hs (show AddressField.cc ≠ .sender by decide)).1.append
  apply Writes.may (messageClassPlan_writes hs)
  apply Writes.may (encodeStringFieldPlan_writes hs _)
  apply Writes.may (octetPlan_writes _)
  apply Writes.may (octetPlan_writes _)
  apply Writes.may (octetPlan_writes _)
  apply Writes.may (octetPlan_writes _)
  exact Writes.may (encodeStringFieldPlan_writes hs _) Writes.nil

theorem readReport_writes (hs : Sendable h) {last : Step} (hlast : last.plan = h.longPlan MMS_DATE) :
    Writes platform h (h.readReportScript platform ++ [last]) readReportSlots := by
  have hdate : Writes platform h [last] [.long MMS_DATE] := by
    have hone : Writes platform h [.must last.plan] [.long MMS_DATE] :=
      Writes.must (by rw [hlast]; exact longPlan_writes _) Writes.nil
    exact hone
  rw [MmsHeader.readReportScript, List.append_assoc, List.append_assoc]
  apply Writes.must (textPlan_writes hs _)
  apply Writes.must (toAddressPlan_writes hs)
  apply sender_writes.1.append
  exact Writes.must (octetPlan_writes _) hdate

theorem messageTypeScript_writes (hs : Sendable h) (messageType : UInt8) :
    Writes platform h (h.messageTypeScript platform messageType) (typeSlots messageType) := by
  unfold MmsHeader.messageTypeScript typeSlots
  split_ifs
  · exact sendReqScript_writes hs
  · exact Writes.must (octetPlan_writes _) (Writes.may (textPlan_writes hs _) Writes.nil)
  · exact notificationIndScript_writes hs
  · exact Writes.must (octetPlan_writes _) (Writes.may (octetPlan_writes _) Writes.nil)
  · exact retrieveConfScript_writes hs
  · exact Writes.may (octetPlan_writes _) Writes.nil
  · apply Writes.must (toAddressPlan_writes hs)
    apply Writes.must (textPlan_writes hs _)
    apply Writes.must (longPlan_writes _)
    exact Writes.must (octetPlan_writes _) Writes.nil
  · exact readReport_writes hs rfl
  · exact readReport_writes hs rfl
  · rfl

/-- The fields of a header on the wire. -/
theorem headerScript_writes (hs : Sendable h) {messageType : UInt8}
    (htype : h.octetValueMap MMS_MESSAGE_TYPE = some messageType) (hversion : KnownVersion h) :
    Writes platform h (h.headerScript platform messageType) (messageSlots messageType) :=
  (commonScript_writes hs htype hversion).append (messageTypeScript_writes hs messageType)

end Writes

/-! ## The defaults -/

section Defaults

variable {platform : Platform} {h : MmsHeader}

/-- Letters and digits. -/
def MakesIds (platform : Platform) : Prop := IsTextValue (platform.makeTransactionId 24)

theorem Sendable.putText (hs : Sendable h) {value : Octets} (hvalue : IsTextValue value)
    {code : UInt8} (hcode : code ≠ MMS_MESSAGE_CLASS) : Sendable (h.putText code value) where
  octets := hs.octets
  messageType := hs.messageType
  strings := hs.strings
  addresses := hs.addresses
  texts c v hv := by
    by_cases heq : c = code
    · subst heq
      have hsame : (h.putText c value).textValueMap c = some value := Function.update_self _ _ _
      cases hsame.symm.trans hv
      exact hvalue
    · have hold : (h.putText code value).textValueMap c = h.textValueMap c :=
        Function.update_of_ne heq _ _
      exact hs.texts c v (hold.symm.trans hv)
  textClass := (Function.update_of_ne hcode.symm _ _).trans hs.textClass

theorem Sendable.putLong (hs : Sendable h) (code : UInt8) (value : Int64) :
    Sendable (h.putLong code value) :=
  ⟨hs.octets, hs.messageType, hs.texts, hs.textClass, hs.strings, hs.addresses⟩

theorem toUInt64_of_range {value : Int64} (hlow : 0x10 ≤ value) (hhigh : value ≤ 0x13) :
    0x10 ≤ toUInt64 value ∧ toUInt64 value ≤ 0x13 := by
  have hlowInt : (16 : Int) ≤ value.toInt := Int64.le_iff_toInt_le.1 hlow
  have hhighInt : value.toInt ≤ 19 := Int64.le_iff_toInt_le.1 hhigh
  have hnonneg : (0 : Int64) ≤ value := Int64.le_iff_toInt_le.2 (show (0 : Int) ≤ _ by omega)
  have hnat : toUInt64 value = value.toInt.toNat := by
    rw [toUInt64, Int64.toNat_toUInt64_of_le hnonneg, Int64.toNat_toInt]
  omega

/-- A header with its defaults. -/
structure Filled (h g : MmsHeader) : Prop where
  sendable : Sendable g
  version : KnownVersion g
  octets : g.octetValueMap = h.octetValueMap
  contentType : g.mmsContentType = h.mmsContentType

theorem fillDefaults_filled (hs : Sendable h) (hid : MakesIds platform) (messageType : UInt8) :
    Filled h (HeaderWrite.fillDefaults platform messageType h) := by
  have hput : h.setTextValue MMS_TRANSACTION_ID (platform.makeTransactionId 24) =
      some (h.putText MMS_TRANSACTION_ID (platform.makeTransactionId 24)) := by
    rw [MmsHeader.setTextValue, if_neg hid.ne_nil, if_neg (by decide)]
  have hnamed : ∃ g, Sendable g ∧ g.octetValueMap = h.octetValueMap ∧
      g.mmsContentType = h.mmsContentType ∧
      (if !h.hasStringValue MMS_TRANSACTION_ID && isHaveTransactionId messageType then
        (h.setTextValue MMS_TRANSACTION_ID (platform.makeTransactionId 24)).getD h else h) = g := by
    split
    · rw [hput]
      exact ⟨_, hs.putText hid (by decide), rfl, rfl, rfl⟩
    · exact ⟨h, hs, rfl, rfl, rfl⟩
  rcases hnamed with ⟨g, hg, hoctets, hcontent, heq⟩
  have hset : g.setLongValue MMS_MMS_VERSION 0x13 = some (g.putLong MMS_MMS_VERSION 0x13) := by
    rw [MmsHeader.setLongValue, if_neg (by decide)]
  have hnew : (g.putLong MMS_MMS_VERSION 0x13).longValueMap MMS_MMS_VERSION = some 0x13 := by
    simp [MmsHeader.putLong]
  have hdefault : Filled h (g.putLong MMS_MMS_VERSION 0x13) :=
    ⟨hg.putLong _ _, ⟨0x13, hnew, by decide, by decide⟩, hoctets, hcontent⟩
  rw [HeaderWrite.fillDefaults, heq, hset]
  cases hversion : g.longValueMap MMS_MMS_VERSION with
  | none => exact hdefault
  | some version =>
      dsimp only
      split
      · exact hdefault
      · rename_i hrange
        rw [not_or, Int64.not_lt, gt_iff_lt, Int64.not_lt] at hrange
        exact ⟨hg, ⟨version, hversion, toUInt64_of_range hrange.1 hrange.2⟩, hoctets, hcontent⟩

end Defaults

end TelephonySms.Mms
