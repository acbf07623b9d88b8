import TelephonySms.Mms.SentFields

/-! # The fields that are received

What the fields of a place leave in the header of the receiver, said for each of its maps: the
fields of the places and no others.
-/

namespace TelephonySms.Mms

open OctetReader Reader MmsFieldCode

/-! ## What the receiver has -/

/-- A charset that is written as one octet keeps seven bits, and a quote is counted. -/
def MmsEncodeString.received (platform : Platform) (value : MmsEncodeString) : MmsEncodeString where
  charset := if value.charset &&& 0xff00 = 0 then value.charset % 128 else value.charset
  valLength := (textString platform value.strEncodeString).count
  strEncodeString := value.strEncodeString

/-- An address is converted from its charset. -/
def MmsAddress.received (platform : Platform) (address : MmsAddress) : MmsAddress where
  addressString := (((setAddressString address).received platform).getEncodeString platform).2

/-- Only the first address is sent, and none if it is empty. -/
def receivedSender (platform : Platform) : List MmsAddress → MmsAddress
  | [] => { addressString := ascii "Insert-address-token" }
  | address :: _ =>
      if address.addressString = [] then { addressString := ascii "Insert-address-token" }
      else address.received platform

/-- An expiry is sent as a number of seconds from now on. -/
def receivedExpiry (platform : Platform) (value : Int64) : Int64 :=
  toInt64 (u64 (toUInt64 value + platform.systemClock))

namespace MmsHeader

/-- The header of the receiver has the fields of the places and no others. -/
def received (platform : Platform) (slots : List Slot) (h : MmsHeader) : MmsHeader where
  octetValueMap code := if .octet code ∈ slots then h.octetValueMap code else none
  longValueMap code :=
    if code = MMS_EXPIRY then
      if .expiry ∈ slots then (h.longValueMap code).map (receivedExpiry platform) else none
    else if .long code ∈ slots ∨ code = MMS_MMS_VERSION ∧ .version ∈ slots then
      h.longValueMap code
    else
      none
  textValueMap code := if .text code ∈ slots then h.textValueMap code else none
  encodeStringsMap code :=
    if .encoded code ∈ slots then
      ((h.encodeStringsMap code).filter fun value => (value.getEncodeString platform).1).map
        (MmsEncodeString.received platform)
    else
      none
  addressMap field :=
    if field = .sender then
      if .sender ∈ slots then
        (h.addressMap field).map fun addrs => [receivedSender platform addrs]
      else
        none
    else if .addresses field ∈ slots then
      (h.addressMap field).map (List.map (MmsAddress.received platform))
    else
      none

theorem received_octet (platform : Platform) {slots : List Slot} (h : MmsHeader) {code : UInt8}
    (hmem : .octet code ∈ slots) :
    (h.received platform slots).octetValueMap code = h.octetValueMap code := by
  simp [received, hmem]

end MmsHeader

/-! ## What the fields of a place leave -/

theorem setAddressString_charset_lt {address : MmsAddress} (h : address.charset < 2 ^ 32) :
    (setAddressString address).charset < 2 ^ 32 := by
  rw [setAddressString, setEncodeString]
  dsimp only
  split
  · decide
  · exact h

theorem codedString_value (platform : Platform) {value : MmsEncodeString}
    (h : value.charset < 2 ^ 32) :
    (codedString platform value.charset value.strEncodeString).value =
      value.received platform := by
  have hcharset := charsetValue_value h
  have hkept : u32 (charsetValue value.charset).value =
      if value.charset &&& 0xff00 = 0 then value.charset % 128 else value.charset := by
    rw [hcharset]
    split
    · exact u32_of_lt (by omega)
    · exact u32_of_lt h
  rw [MmsEncodeString.received, ← hkept]
  rfl

theorem addressString_value (platform : Platform) {address : MmsAddress}
    (h : address.charset < 2 ^ 32) :
    (addressString platform address).value = (setAddressString address).received platform :=
  codedString_value platform (setAddressString_charset_lt h)

theorem senderOf_senderAddress {h : MmsHeader} (hs : Sendable h) (platform : Platform)
    {addrs : List MmsAddress} (haddrs : h.addressMap .sender = some addrs) :
    BlockValue.senderOf platform (senderAddress platform addrs) =
      receivedSender platform addrs := by
  rcases addrs with _ | ⟨address, rest⟩
  · rfl
  · have hcharset := ((hs.addresses .sender _ haddrs).2 address List.mem_cons_self).1
    rw [senderAddress, receivedSender]
    split
    · rfl
    · rw [BlockValue.senderOf, addressString_value platform hcharset]
      rfl

/-- A version has a short integer. -/
theorem version_value {value : Int64} (hlow : 0x10 ≤ toUInt64 value)
    (hhigh : toUInt64 value ≤ 0x13) :
    toInt64 (IntegerValue.short (UInt8.ofNat (toUInt64 value) &&& 0x7f)).value = value := by
  have hbits := (short_bits (UInt8.ofNat (toUInt64 value))).2.2
  rw [IntegerValue.value, hbits, UInt8.toNat_ofNat', Nat.mod_eq_of_lt (by omega),
    Nat.mod_eq_of_lt (by omega), toInt64_toUInt64]

section Store

variable {platform : Platform} {h : MmsHeader}

/-- The fields of a place copied to a header. -/
def Slot.copy (platform : Platform) (h g : MmsHeader) : Slot → MmsHeader
  | octet code => (h.octetValueMap code).elim g (g.putOctet code)
  | long code => (h.longValueMap code).elim g (g.putLong code)
  | version => (h.longValueMap MMS_MMS_VERSION).elim g (g.putLong MMS_MMS_VERSION)
  | expiry => (h.longValueMap MMS_EXPIRY).elim g fun value =>
      g.putLong MMS_EXPIRY (receivedExpiry platform value)
  | text code => (h.textValueMap code).elim g (g.putText code)
  | encoded code =>
      ((h.encodeStringsMap code).filter fun value => (value.getEncodeString platform).1).elim g
        fun value => g.putEncodeString code (value.received platform)
  | sender => (h.addressMap .sender).elim g fun addrs =>
      g.emplaceAddress .sender [receivedSender platform addrs]
  | addresses field => ((h.addressMap field).getD []).foldl (fun g address =>
      g.pushAddress field (address.received platform)) g

theorem storeAll_toList {α : Type} (o : Option α) (field : α → HeaderField) (g : MmsHeader) :
    storeAll platform (o.toList.map field) g = o.elim g fun a => (field a).store platform g := by
  cases o <;> rfl

theorem storeAll_addresses {field : AddressField} (hfield : field ≠ .sender)
    {addrs : List MmsAddress} (hcharsets : ∀ address ∈ addrs, address.charset < 2 ^ 32)
    (g : MmsHeader) :
    storeAll platform (addrs.map fun address =>
      ⟨field.code, .encoded (addressString platform address)⟩) g =
        addrs.foldl (fun g address => g.pushAddress field (address.received platform)) g := by
  induction addrs generalizing g with
  | nil => rfl
  | cons address addrs ih =>
      have hstore : HeaderField.store platform g
          ⟨field.code, .encoded (addressString platform address)⟩ =
            g.pushAddress field (address.received platform) := by
        simp only [HeaderField.store, AddressField.handler hfield]
        rw [addressString_value platform (hcharsets address List.mem_cons_self)]
        rfl
      have hrest := ih (fun other hother => hcharsets other (List.mem_cons_of_mem _ hother))
        (g.pushAddress field (address.received platform))
      rw [List.map_cons, List.foldl_cons, ← hrest, ← hstore]
      rfl

/-- The decoder makes of the fields of a place what was put there. -/
theorem storeAll_fields (hs : Sendable h) (hversion : KnownVersion h) {slot : Slot}
    (hknown : slot.Known) (g : MmsHeader) :
    storeAll platform (slot.fields platform h) g = slot.copy platform h g := by
  cases slot with
  | octet code => exact storeAll_toList _ _ g
  | long code =>
      refine (storeAll_toList _ _ g).trans ?_
      rw [Slot.copy]
      cases h.longValueMap code with
      | none => rfl
      | some value =>
          simp only [Option.elim_some, HeaderField.store, IntegerValue.value]
          rw [octetsFrom_longOctets (toUInt64_lt value), toInt64_toUInt64]
  | version =>
      refine (storeAll_toList _ _ g).trans ?_
      rcases hversion with ⟨value, hvalue, hlow, hhigh⟩
      rw [Slot.copy, hvalue]
      simp only [Option.elim_some, HeaderField.store]
      rw [version_value hlow hhigh]
  | expiry =>
      refine (storeAll_toList _ _ g).trans ?_
      rw [Slot.copy]
      cases h.longValueMap MMS_EXPIRY with
      | none => rfl
      | some value =>
          simp only [Option.elim_some, HeaderField.store, expiryField, BlockValue.store,
            BlockValue.timeOf]
          rw [if_pos (by decide), octetsFrom_longOctets (toUInt64_lt value)]
          rfl
  | text code => exact storeAll_toList _ _ g
  | encoded code =>
      refine (storeAll_toList _ _ g).trans ?_
      rw [Slot.copy]
      cases hvalue : (h.encodeStringsMap code).filter fun value =>
          (value.getEncodeString platform).1 with
      | none => rfl
      | some value =>
          have hsome := (Option.filter_eq_some_iff.1 hvalue).1
          simp only [Option.elim_some, HeaderField.store, hknown.2]
          rw [codedString_value platform (hs.strings code value hsome).2.2]
  | sender =>
      refine (storeAll_toList _ _ g).trans ?_
      rw [Slot.copy]
      cases haddrs : h.addressMap .sender with
      | none => rfl
      | some addrs =>
          simp only [Option.elim_some, HeaderField.store, senderField, BlockValue.store]
          rw [senderOf_senderAddress hs platform haddrs]
  | addresses field =>
      apply storeAll_addresses hknown
      intro address hmem
      cases haddrs : h.addressMap field with
      | none =>
          rw [haddrs] at hmem
          cases hmem
      | some addrs =>
          rw [haddrs] at hmem
          exact ((hs.addresses field addrs haddrs).2 address hmem).1

/-! ## The places of a message type -/

theorem foldl_pushAddress (field : AddressField) (addrs : List MmsAddress) (g : MmsHeader) :
    addrs.foldl (fun g address => g.pushAddress field (address.received platform)) g =
      { g with
        addressMap := if addrs = [] then g.addressMap else Function.update g.addressMap field
          (some ((g.addressMap field).getD [] ++ addrs.map (MmsAddress.received platform))) } := by
  induction addrs generalizing g with
  | nil => rfl
  | cons address addrs ih =>
      rw [List.foldl_cons, ih, if_neg (List.cons_ne_nil _ _)]
      by_cases hnil : addrs = []
      · rw [if_pos hnil, hnil]
        rfl
      · rw [if_neg hnil]
        simp [MmsHeader.pushAddress]

theorem MmsHeader.eq_of_maps {g g' : MmsHeader}
    (octets : ∀ code, g.octetValueMap code = g'.octetValueMap code)
    (longs : ∀ code, g.longValueMap code = g'.longValueMap code)
    (texts : ∀ code, g.textValueMap code = g'.textValueMap code)
    (strings : ∀ code, g.encodeStringsMap code = g'.encodeStringsMap code)
    (addresses : ∀ field, g.addressMap field = g'.addressMap field)
    (contentType : g.mmsContentType = g'.mmsContentType) : g = g' := by
  cases g
  cases g'
  rw [MmsHeader.mk.injEq]
  exact ⟨funext octets, funext longs, funext texts, funext strings, funext addresses, contentType⟩

/-- A map with one more key if there is a value for it. -/
def extend {κ β : Type} [DecidableEq κ] (m : κ → Option β) (k : κ) (o : Option β) : κ → Option β :=
  o.elim m fun v => Function.update m k (some v)

theorem extend_self {κ β : Type} [DecidableEq κ] (m : κ → Option β) (k : κ) (o : Option β) :
    extend m k o k = o.or (m k) := by
  cases o <;> simp [extend]

theorem extend_of_ne {κ β : Type} [DecidableEq κ] (m : κ → Option β) {k c : κ} (h : c ≠ k)
    (o : Option β) : extend m k o c = m c := by
  cases o <;> simp [extend, h]

theorem elim_putOctet (g : MmsHeader) (code : UInt8) (o : Option UInt8) :
    o.elim g (g.putOctet code) = { g with octetValueMap := extend g.octetValueMap code o } := by
  cases o <;> rfl

theorem elim_putLong (g : MmsHeader) (code : UInt8) (o : Option Int64) :
    o.elim g (g.putLong code) = { g with longValueMap := extend g.longValueMap code o } := by
  cases o <;> rfl

theorem elim_putText (g : MmsHeader) (code : UInt8) (o : Option Octets) :
    o.elim g (g.putText code) = { g with textValueMap := extend g.textValueMap code o } := by
  cases o <;> rfl

theorem elim_putEncodeString (g : MmsHeader) (code : UInt8) (o : Option MmsEncodeString) :
    o.elim g (g.putEncodeString code) =
      { g with encodeStringsMap := extend g.encodeStringsMap code o } := by
  cases o <;> rfl

theorem elim_map {α β γ : Type} (o : Option α) (f : α → β) (none' : γ) (some' : β → γ) :
    (o.elim none' fun a => some' (f a)) = (o.map f).elim none' some' := by
  cases o <;> rfl

theorem elim_emplaceAddress {g : MmsHeader} {field : AddressField}
    (hnone : g.addressMap field = none) (o : Option (List MmsAddress))
    (f : List MmsAddress → MmsAddress) :
    (o.elim g fun addrs => g.emplaceAddress field [f addrs]) =
      { g with addressMap := extend g.addressMap field (o.map fun addrs => [f addrs]) } := by
  cases o with
  | none => rfl
  | some addrs =>
      rw [Option.elim_some, MmsHeader.emplaceAddress, hnone]
      rfl

/-- Where there are addresses for a field there is one at least. -/
theorem pushed_eq (hs : Sendable h) {g : MmsHeader} {field : AddressField}
    (hnone : g.addressMap field = none) :
    (if (h.addressMap field).getD [] = [] then g.addressMap else Function.update g.addressMap field
      (some ((g.addressMap field).getD [] ++
        ((h.addressMap field).getD []).map (MmsAddress.received platform)))) =
      extend g.addressMap field
        ((h.addressMap field).map (List.map (MmsAddress.received platform))) := by
  cases haddrs : h.addressMap field with
  | none => rfl
  | some addrs =>
      rw [Option.getD_some, if_neg (hs.addresses field addrs haddrs).1, hnone]
      rfl

/-- One more place, which is not among those before it. -/
theorem Slot.copy_received (hs : Sendable h) {slot : Slot} (hknown : slot.Known)
    {slots : List Slot} (hnew : slot ∉ slots) :
    slot.copy platform h (h.received platform slots) = h.received platform (slots ++ [slot]) := by
  cases slot with
  | octet code =>
      rw [copy, elim_putOctet]
      apply MmsHeader.eq_of_maps
      case octets =>
        intro c
        by_cases heq : c = code
        · subst heq
          simp [extend_self, MmsHeader.received, hnew]
        · simp [extend_of_ne, MmsHeader.received, heq]
      all_goals simp [MmsHeader.received]
  | long code =>
      have hdate : code ≠ MMS_EXPIRY := by
        rintro rfl
        exact absurd hknown.2 (by decide)
      have hversion : code ≠ MMS_MMS_VERSION := by
        rintro rfl
        exact absurd hknown.2 (by decide)
      rw [copy, elim_putLong]
      apply MmsHeader.eq_of_maps
      case longs =>
        intro c
        by_cases heq : c = code
        · subst heq
          simp [extend_self, MmsHeader.received, hnew, hdate, hversion]
        · simp [extend_of_ne, MmsHeader.received, heq]
      all_goals simp [MmsHeader.received]
  | version =>
      have hdate : MMS_MMS_VERSION ≠ MMS_EXPIRY := by decide
      rw [copy, elim_putLong]
      apply MmsHeader.eq_of_maps
      case longs =>
        intro c
        by_cases heq : c = MMS_MMS_VERSION
        · subst heq
          by_cases hlong : Slot.long MMS_MMS_VERSION ∈ slots
          · simp [extend_self, MmsHeader.received, hdate, hlong]
          · simp [extend_self, MmsHeader.received, hdate, hlong, hnew]
        · simp [extend_of_ne, MmsHeader.received, heq]
      all_goals simp [MmsHeader.received]
  | expiry =>
      rw [copy, elim_map, elim_putLong]
      apply MmsHeader.eq_of_maps
      case longs =>
        intro c
        by_cases heq : c = MMS_EXPIRY
        · subst heq
          simp [extend_self, MmsHeader.received, hnew]
        · simp [extend_of_ne, MmsHeader.received, heq]
      all_goals simp [MmsHeader.received]
  | text code =>
      rw [copy, elim_putText]
      apply MmsHeader.eq_of_maps
      case texts =>
        intro c
        by_cases heq : c = code
        · subst heq
          simp [extend_self, MmsHeader.received, hnew]
        · simp [extend_of_ne, MmsHeader.received, heq]
      all_goals simp [MmsHeader.received]
  | encoded code =>
      rw [copy, elim_map, elim_putEncodeString]
      apply MmsHeader.eq_of_maps
      case strings =>
        intro c
        by_cases heq : c = code
        · subst heq
          simp [extend_self, MmsHeader.received, hnew]
        · simp [extend_of_ne, MmsHeader.received, heq]
      all_goals simp [MmsHeader.received]
  | sender =>
      have hnone : (h.received platform slots).addressMap .sender = none := by
        simp [MmsHeader.received, hnew]
      rw [copy, elim_emplaceAddress hnone]
      apply MmsHeader.eq_of_maps
      case addresses =>
        intro field
        by_cases heq : field = .sender
        · subst heq
          simp [extend_self, MmsHeader.received, hnew]
        · simp [extend_of_ne, MmsHeader.received, heq]
      all_goals simp [MmsHeader.received]
  | addresses field =>
      have hnone : (h.received platform slots).addressMap field = none := by
        simp [MmsHeader.received, hnew, show field ≠ .sender from hknown]
      rw [copy, foldl_pushAddress, pushed_eq hs hnone]
      apply MmsHeader.eq_of_maps
      case addresses =>
        intro other
        by_cases heq : other = field
        · subst heq
          simp [extend_self, MmsHeader.received, hnew, show other ≠ .sender from hknown]
        · simp [extend_of_ne, MmsHeader.received, heq]
      all_goals simp [MmsHeader.received]

/-- The places behind those of a header that is received already. -/
theorem storeAll_behind (hs : Sendable h) (hversion : KnownVersion h) {front slots : List Slot}
    (hknown : ∀ slot ∈ slots, slot.Known) (hnodup : (front ++ slots).Nodup) :
    storeAll platform (slots.flatMap (Slot.fields platform h)) (h.received platform front) =
      h.received platform (front ++ slots) := by
  induction slots generalizing front with
  | nil =>
      rw [List.append_nil]
      rfl
  | cons slot slots ih =>
      have hslot := hknown slot List.mem_cons_self
      have hnew : slot ∉ front := by
        intro hmem
        exact (List.nodup_append.1 hnodup).2.2 slot hmem slot List.mem_cons_self rfl
      have hsplit : front ++ slot :: slots = front ++ [slot] ++ slots := by simp
      rw [hsplit] at hnodup ⊢
      have hfirst : (slot.fields platform h).foldl (HeaderField.store platform)
          (h.received platform front) = slot.copy platform h (h.received platform front) :=
        storeAll_fields hs hversion hslot _
      rw [List.flatMap_cons, storeAll, List.foldl_append, hfirst,
        Slot.copy_received hs hslot hnew]
      exact ih (fun other hother => hknown other (List.mem_cons_of_mem _ hother)) hnodup

theorem storeAll_slots (hs : Sendable h) (hversion : KnownVersion h) {slots : List Slot}
    (hknown : ∀ slot ∈ slots, slot.Known) (hnodup : slots.Nodup) :
    storeAll platform (slots.flatMap (Slot.fields platform h)) {} = h.received platform slots := by
  have hempty : h.received platform [] = {} := by
    simp [MmsHeader.received]
  have hbehind : (([] : List Slot) ++ slots).Nodup := hnodup
  rw [← hempty]
  exact storeAll_behind hs hversion hknown hbehind

end Store

end TelephonySms.Mms
