import TelephonySms.Pdu.Submit
import TelephonySms.Pdu.UserDataRoundTrip

/-! # Delivered messages

The octets of a delivered message, parameter by parameter, and exactly which
messages the decoder gives back. Without the reply-path flag the address is
written over the first octet, and a time zone that is not negative costs an
octet of the time stamp.
-/

namespace TelephonySms.Pdu

open SmsPduBuffer

/-! ## Layout -/

theorem copyDCS_cursor {passed rest : List UInt8} {dcs : SmsDcs} {w : UInt8} {b : SmsPduBuffer}
    (h : copyDCS dcs (cursor passed (w :: rest)) = some b) :
    ∃ value, encodeDCS dcs = some value ∧ b = cursor (passed ++ [value.headD 0]) rest := by
  obtain ⟨value, hvalue, h⟩ := Option.bind_eq_some_iff.mp h
  refine ⟨value, hvalue, ?_⟩
  split at h
  · simp at h
  · obtain ⟨c, hc, h⟩ := Option.bind_eq_some_iff.mp h
    cases h
    rw [memcpy_eq_some_cursor hc]
    simp

/-- The octet `EncodeDeliverPdu` makes of the flags. -/
def deliverTpduType (pDeliver : SmsDeliver) : UInt8 :=
  0x00 ||| (if !pDeliver.bMoreMsg then 0x04 else 0) |||
    (if pDeliver.bStatusReport then 0x20 else 0) ||| (if pDeliver.bHeaderInd then 0x40 else 0)

/-- What stands before the address: the index moves with the reply-path flag only. -/
def deliverLead (pDeliver : SmsDeliver) : List UInt8 :=
  if pDeliver.bReplyPath then [deliverTpduType pDeliver ||| 0x80] else []

theorem encodeDeliverPdu_lead {pDeliver : SmsDeliver} {b : SmsPduBuffer} (rest : List UInt8)
    (h : encodeDeliverPdu (cursor [] (0 :: rest)) pDeliver = some b) :
    ∃ address c d, encodeAddressPdu pDeliver.originAddress = some address ∧
      copyOctets address (if pDeliver.bReplyPath then cursor (deliverLead pDeliver) rest
        else cursor [] (deliverTpduType pDeliver :: rest)) = some c ∧
      c.writeByte pDeliver.pid = some d ∧ encodeDeliverData d pDeliver = some b := by
  have hfirst : (cursor [] (0 :: rest)).insertByte 0x00 0 = some (cursor [] (0 :: rest)) :=
    insertByte_cursor_index [] rest 0x00 0
  simp only [encodeDeliverPdu, cursor_index, List.length_nil, hfirst, Option.bind_eq_bind,
    Option.bind_some, insertFlag_cursor] at h
  change encodeDeliverPartData (cursor [] (deliverTpduType pDeliver :: rest)) pDeliver = some b at h
  simp only [encodeDeliverPartData, encodeDeliverReplyPath, Option.bind_eq_bind] at h
  cases hreply : pDeliver.bReplyPath with
  | true =>
      simp only [hreply, if_true, getTopValue_cursor_cons, Option.bind_some,
        writeByte_cursor_cons, List.nil_append, Option.bind_eq_some_iff] at h
      obtain ⟨address, haddress, c, hc, d, hd, h⟩ := h
      exact ⟨address, c, d, haddress, by simpa [deliverLead, hreply] using hc, hd, h⟩
  | false =>
      simp only [hreply, Bool.false_eq_true, if_false, Option.bind_some,
        Option.bind_eq_some_iff] at h
      obtain ⟨address, haddress, c, hc, d, hd, h⟩ := h
      exact ⟨address, c, d, haddress, by simpa using hc, hd, h⟩

theorem length_octets_le {num : AddressNumber} (h : num.address.length ≤ 20) :
    2 ≤ num.octets.length ∧ num.octets.length ≤ 12 := by
  have hle := num.length_dialled_le
  simp only [AddressNumber.octets, List.length_cons, length_bcdOctets]
  omega

theorem length_encodeTimePdu_absolute (time : SmsTimeAbs) :
    (encodeTimePdu (.absolute time)).length = if time.timeZone < 0 then 7 else 6 := by
  rw [encodeTimePdu_absolute]
  split <;> rfl

/-- The octets of a delivered message. -/
theorem encodeDeliverPdu_layout {pDeliver : SmsDeliver} {time : SmsTimeAbs} {b : SmsPduBuffer}
    (haddress : pDeliver.originAddress.Encodable) (htime : pDeliver.timeStamp = .absolute time)
    (hfits : pDeliver.userData.Fits pDeliver.dcs.codingScheme)
    (h : encodeDeliverPdu new pDeliver = some b) :
    pDeliver.originAddress.address.length ≤ 20 ∧ pDeliver.dcs.codingScheme.isWritten = true ∧
      ∃ value body rest, encodeDCS pDeliver.dcs = some value ∧
        BodyOf pDeliver.userData pDeliver.dcs.codingScheme body ∧
        b = cursor (deliverLead pDeliver ++ (pDeliver.originAddress.octets ++
          pDeliver.pid :: value.headD 0 :: (encodeTimePdu (.absolute time) ++
            (pDeliver.userData.front pDeliver.dcs.codingScheme ++ body)))) rest := by
  rw [new_eq_cursor, List.replicate_succ] at h
  obtain ⟨address, c, d, henc, hc, hd, h⟩ := encodeDeliverPdu_lead _ h
  obtain ⟨hlen, rfl⟩ := encodeAddressPdu_eq_some haddress henc
  obtain ⟨htwo, htwelve⟩ := length_octets_le hlen
  have hlead : (deliverLead pDeliver).length ≤ 1 := by
    unfold deliverLead
    split <;> simp
  have htimeLen := length_encodeTimePdu_absolute time
  -- the address takes the place of the first octet, or follows it
  obtain ⟨m, hm, rfl⟩ : ∃ m, m + (deliverLead pDeliver).length +
      pDeliver.originAddress.octets.length = 256 ∧
      c = cursor (deliverLead pDeliver ++ pDeliver.originAddress.octets) (List.replicate m 0) := by
    cases hreply : pDeliver.bReplyPath with
    | true =>
        rw [if_pos hreply, copyOctets_cursor _ _ _ (List.ne_nil_of_length_pos (by omega))
          (by rw [List.length_replicate]; omega), Option.some.injEq] at hc
        refine ⟨255 - pDeliver.originAddress.octets.length, ?_, ?_⟩
        · simp [deliverLead, hreply]
          omega
        · rw [← hc, List.drop_replicate]
    | false =>
        rw [if_neg (by simp [hreply]), copyOctets_cursor _ _ _
          (List.ne_nil_of_length_pos (by omega))
          (by rw [List.length_cons, List.length_replicate]; omega), Option.some.injEq] at hc
        refine ⟨256 - pDeliver.originAddress.octets.length, ?_, ?_⟩
        · simp [deliverLead, hreply]
          omega
        · obtain ⟨k, hk⟩ : ∃ k, pDeliver.originAddress.octets.length = k + 1 :=
            ⟨pDeliver.originAddress.octets.length - 1, by omega⟩
          rw [← hc, hk, List.drop_succ_cons, List.drop_replicate]
          simp [deliverLead, hreply]
  obtain ⟨m, rfl⟩ : ∃ m', m = m' + 2 := ⟨m - 2, by omega⟩
  rw [List.replicate_succ, writeByte_cursor_cons, Option.some.injEq] at hd
  subst hd
  simp only [encodeDeliverData, Option.bind_eq_bind, Option.bind_eq_some_iff] at h
  obtain ⟨e, he, f, hf, h⟩ := h
  rw [List.replicate_succ] at he
  obtain ⟨value, hvalue, rfl⟩ := copyDCS_cursor he
  rw [htime, copyOctets_cursor _ _ _ (List.ne_nil_of_length_pos (by rw [htimeLen]; split <;> omega))
    (by rw [htimeLen, List.length_replicate]; split <;> omega), List.drop_replicate,
    Option.some.injEq] at hf
  subst hf
  have htimeLe : (encodeTimePdu (.absolute time)).length ≤ 7 := by
    rw [htimeLen]
    split <;> omega
  obtain ⟨hscheme, body, rest, hbody, rfl⟩ := encodeUserDataPdu_layout hfits (by omega)
    (by simp only [List.length_append, List.length_singleton]; omega) h
  exact ⟨hlen, hscheme, value, body, rest, hvalue, hbody, by simp⟩

/-! ## Reading -/

theorem decodeTpdu_deliver {coder : TextCoder} {mti : UInt8} {b b' : SmsPduBuffer}
    {deliver : SmsDeliver} (h : decodeTpdu coder mti b = some (.deliver deliver, b')) :
    decodeDeliver coder b = some (deliver, b') := by
  unfold decodeTpdu at h
  split at h
  · obtain ⟨_, -, h⟩ := Option.bind_eq_some_iff.mp h
    cases h
  split at h
  · obtain ⟨_, -, h⟩ := Option.bind_eq_some_iff.mp h
    cases h
  · obtain ⟨⟨deliver', b''⟩, hdeliver, h⟩ := Option.bind_eq_some_iff.mp h
    cases h
    exact hdeliver

/-- The flags of the first octet. -/
theorem deliverTpduType_flags (pDeliver : SmsDeliver) :
    (deliverTpduType pDeliver ||| 0x80) &&& 0x03 = 0 ∧
      decide ((deliverTpduType pDeliver ||| 0x80) &&& 0x04 = 0) = pDeliver.bMoreMsg ∧
      decide ((deliverTpduType pDeliver ||| 0x80) &&& 0x20 ≠ 0) = pDeliver.bStatusReport ∧
      decide ((deliverTpduType pDeliver ||| 0x80) &&& 0x40 ≠ 0) = pDeliver.bHeaderInd ∧
      decide ((deliverTpduType pDeliver ||| 0x80) &&& 0x80 ≠ 0) = true := by
  unfold deliverTpduType
  cases pDeliver.bMoreMsg <;> cases pDeliver.bStatusReport <;> cases pDeliver.bHeaderInd <;> decide

theorem decodeDeliverDcs_cursor (passed rest : List UInt8) {v : UInt8} (hne : v ≠ 0x84)
    (hlen : passed.length < 0x10000) :
    decodeDeliverDcs (cursor passed (v :: rest)) =
      some (decodeDcs v, cursor (passed ++ [v]) rest) := by
  have hpick : (cursor (passed ++ [v]) rest).pickOneByteFromIndex
      (cursor (passed ++ [v]) rest).previousIndex = some v :=
    getValueFromIndex_previousIndex passed rest v hlen
  simp only [decodeDeliverDcs, decodeDcsPdu, readByte_cursor_cons, Option.bind_eq_bind,
    Option.bind_some, hpick, if_neg hne]

/-- Behind an address that is kept, the protocol identifier and the coding
scheme, the decoder goes on with the time stamp. -/
theorem decodeDeliver_cursor (coder : TextCoder) {num : AddressNumber} (hnum : num.Encodable)
    (hlen : num.address.length ≤ 20) (hkept : num.Kept) (oneByte pid : UInt8) {v : UInt8}
    (hv : v ≠ 0x84) (rest : List UInt8) :
    decodeDeliver coder (cursor [] (oneByte :: (num.octets ++ pid :: v :: rest))) =
      (decodeTimePdu (cursor (oneByte :: (num.octets ++ [pid, v])) rest)).bind fun t =>
        (decodeUserDataPdu coder t.2 (oneByte &&& 0x40 ≠ 0) (decodeDcs v).codingScheme
          (some SmsTpud.zero)).bind fun u =>
          some (⟨oneByte &&& 0x04 = 0, oneByte &&& 0x20 ≠ 0, oneByte &&& 0x40 ≠ 0,
            oneByte &&& 0x80 ≠ 0, num, pid, decodeDcs v, t.1, u.1, u.2.1.getD SmsTpud.zero⟩,
            u.2.2) := by
  have haddr := decodeAddressPdu_of_kept coder hnum hlen hkept [oneByte] (pid :: v :: rest)
  obtain ⟨-, htwelve⟩ := length_octets_le hlen
  have hdcs := decodeDeliverDcs_cursor ([oneByte] ++ num.octets ++ [pid]) rest hv
    (by simp; omega)
  have hnumeric : ¬ (pid = 0x20 ∧ num.ton = 5) := fun h => hkept.numeric h.2
  have hpassed : [oneByte] ++ num.octets ++ [pid] ++ [v] = oneByte :: (num.octets ++ [pid, v]) := by
    simp
  simp only [decodeDeliver, readByte_cursor_cons, List.nil_append, Option.bind_eq_bind,
    Option.bind_some, haddr, hdcs, if_neg hnumeric, hpassed]

/-! ## Round trip -/

/-- The parameters of a delivered message that a round trip should keep. -/
structure SameDeliver (pDeliver deliver : SmsDeliver) : Prop where
  bMoreMsg : deliver.bMoreMsg = pDeliver.bMoreMsg
  bReplyPath : deliver.bReplyPath = pDeliver.bReplyPath
  bStatusReport : deliver.bStatusReport = pDeliver.bStatusReport
  bHeaderInd : deliver.bHeaderInd = pDeliver.bHeaderInd
  originAddress : deliver.originAddress = pDeliver.originAddress
  pid : deliver.pid = pDeliver.pid
  dcs : deliver.dcs = pDeliver.dcs
  timeStamp : deliver.timeStamp = pDeliver.timeStamp
  userData : deliver.userData = pDeliver.userData

/-- The octets decode to a delivered message with the same parameters. -/
def DeliverRoundTrip (coder : TextCoder) (pDeliver : SmsDeliver) (octets : List UInt8) : Prop :=
  ∃ deliver, decodeSmsPdu coder octets = some (.deliver deliver) ∧ SameDeliver pDeliver deliver

/-- The delivered messages that come back as they were. -/
structure SmsDeliver.Kept (pDeliver : SmsDeliver) (time : SmsTimeAbs) : Prop where
  replyPath : pDeliver.bReplyPath = true
  originAddress : pDeliver.originAddress.Kept
  dcs : pDeliver.dcs.Kept
  timeStamp : time.Kept
  userData : pDeliver.userData.Kept pDeliver.dcs.codingScheme pDeliver.bHeaderInd

/-- Where the address stands in place of the first octet, its type is read as
its length and refused. -/
theorem decodeDeliver_overwritten (coder : TextCoder) {num : AddressNumber} (hnum : num.Encodable)
    (xs : List UInt8) : decodeDeliver coder (cursor [] (num.octets ++ xs)) = none := by
  simp only [decodeDeliver, AddressNumber.octets, List.cons_append, readByte_cursor_cons,
    Option.bind_eq_bind, Option.bind_some, decodeAddressPdu, if_pos (AddressNumber.typeOctet_ge hnum.encodedTon_lt hnum.npi_lt),
    Option.bind_none]

/-- East of Greenwich the reader takes `UDL` for the time zone. -/
theorem decodeTimePdu_late {time : SmsTimeAbs} (heast : ¬ time.timeZone < 0)
    (passed rest : List UInt8) (v : UInt8) :
    ∃ timeStamp, decodeTimePdu (cursor passed (encodeTimePdu (.absolute time) ++ v :: rest)) =
      some (timeStamp, cursor (passed ++ encodeTimePdu (.absolute time) ++ [v]) rest) := by
  rw [encodeTimePdu_absolute, if_neg heast]
  simp [SmsTimeAbs.fields, decodeTimePdu_cursor]

section RoundTrip

variable {coder : TextCoder} {pDeliver deliver : SmsDeliver} {time : SmsTimeAbs}
  {value body : List UInt8} {b : SmsPduBuffer}

/-- What stands behind the coding scheme of a delivered message. -/
def deliverTail (pDeliver : SmsDeliver) (time : SmsTimeAbs) (body : List UInt8) : List UInt8 :=
  encodeTimePdu (.absolute time) ++ (pDeliver.userData.front pDeliver.dcs.codingScheme ++ body)

/-- Read from its first octet on, a message that comes back is kept. -/
theorem decodeDeliver_kept (hcoder : coder.AsciiBounded)
    (haddress : pDeliver.originAddress.Encodable)
    (hlen : pDeliver.originAddress.address.length ≤ 20)
    (htime : pDeliver.timeStamp = .absolute time)
    (hscheme : pDeliver.dcs.codingScheme.isWritten = true)
    (hfits : pDeliver.userData.Fits pDeliver.dcs.codingScheme)
    (hvalue : encodeDCS pDeliver.dcs = some value)
    (hbody : BodyOf pDeliver.userData pDeliver.dcs.codingScheme body)
    (hsize : 3 + pDeliver.originAddress.octets.length + (deliverTail pDeliver time body).length < 256)
    (hreply : pDeliver.bReplyPath = true)
    (h : decodeDeliver coder (cursor [] ((deliverTpduType pDeliver ||| 0x80) ::
      (pDeliver.originAddress.octets ++ pDeliver.pid :: value.headD 0 ::
        deliverTail pDeliver time body))) = some (deliver, b))
    (hsame : SameDeliver pDeliver deliver) : pDeliver.Kept time := by
  have hnum : pDeliver.originAddress.Kept := by
    simp only [decodeDeliver, readByte_cursor_cons, Option.bind_eq_bind, Option.bind_some,
      Option.bind_eq_some_iff, Prod.exists, Option.some.injEq, Prod.mk.injEq] at h
    obtain ⟨num, c, hc, _, _, -, _, _, -, _, _, -, _, _, _, -, rfl, -⟩ := h
    have hnum : num = pDeliver.originAddress := hsame.originAddress
    rw [hnum] at hc
    exact decodeAddressPdu_kept hcoder haddress hlen hc
  obtain ⟨-, -, -, hind, -⟩ := deliverTpduType_flags pDeliver
  rw [decodeDeliver_cursor coder haddress hlen hnum _ _ (dcsOctet_ne hscheme hvalue)] at h
  obtain ⟨⟨timeStamp, c⟩, hc, h⟩ := Option.bind_eq_some_iff.mp h
  obtain ⟨⟨userData, pTPUD, d⟩, hd, h⟩ := Option.bind_eq_some_iff.mp h
  simp only [Option.some.injEq, Prod.mk.injEq] at h
  obtain ⟨rfl, rfl⟩ := h
  have hdcs : decodeDcs (value.headD 0) = pDeliver.dcs := hsame.dcs
  have hstamp : timeStamp = pDeliver.timeStamp := hsame.timeStamp
  have hdata : userData = pDeliver.userData := hsame.userData
  simp only at hd
  rw [hdcs, hdata, hind] at hd
  unfold deliverTail at hc hsize
  rw [List.length_append] at hsize
  by_cases hwest : time.timeZone < 0
  · obtain ⟨timeStamp', hread, hiff⟩ := decodeTimePdu_encodeTimePdu hwest
      ((deliverTpduType pDeliver ||| 0x80) :: (pDeliver.originAddress.octets ++
        [pDeliver.pid, value.headD 0]))
      (pDeliver.userData.front pDeliver.dcs.codingScheme ++ body)
    rw [hc, Option.some.injEq, Prod.mk.injEq] at hread
    obtain ⟨rfl, rfl⟩ := hread
    refine ⟨hreply, hnum, (decodeDcs_eq_iff hscheme hvalue).mp hdcs,
      hiff.mp (hstamp.trans htime), decodeUserDataPdu_kept hscheme hfits hbody ?_ hd⟩
    simp only [List.length_append, List.length_cons, List.length_nil] at hsize ⊢
    omega
  · exfalso
    obtain ⟨u, xs, hfront⟩ : ∃ u xs,
        pDeliver.userData.front pDeliver.dcs.codingScheme ++ body = u :: xs := by
      apply List.exists_cons_of_ne_nil
      apply List.ne_nil_of_length_pos
      rw [List.length_append, length_front]
      unfold headLength
      split <;> omega
    obtain ⟨timeStamp', hread⟩ := decodeTimePdu_late hwest
      ((deliverTpduType pDeliver ||| 0x80) :: (pDeliver.originAddress.octets ++
        [pDeliver.pid, value.headD 0])) xs u
    rw [hfront] at hc
    rw [hc, Option.some.injEq, Prod.mk.injEq] at hread
    obtain ⟨-, rfl⟩ := hread
    apply decodeUserDataPdu_late hscheme hbody _ (by rw [hfront]; exact hd)
    rw [hfront] at hsize ⊢
    simp only [List.length_append, List.length_cons, List.length_nil] at hsize ⊢
    omega

/-- Read from its first octet on, a message that is kept comes back. -/
theorem decodeDeliver_of_kept (coder : TextCoder)
    (haddress : pDeliver.originAddress.Encodable)
    (hlen : pDeliver.originAddress.address.length ≤ 20)
    (htime : pDeliver.timeStamp = .absolute time)
    (hscheme : pDeliver.dcs.codingScheme.isWritten = true)
    (hfits : pDeliver.userData.Fits pDeliver.dcs.codingScheme)
    (hvalue : encodeDCS pDeliver.dcs = some value)
    (hbody : BodyOf pDeliver.userData pDeliver.dcs.codingScheme body)
    (hsize : 3 + pDeliver.originAddress.octets.length + (deliverTail pDeliver time body).length < 256)
    (hkept : pDeliver.Kept time) :
    ∃ deliver b, decodeDeliver coder (cursor [] ((deliverTpduType pDeliver ||| 0x80) ::
        (pDeliver.originAddress.octets ++ pDeliver.pid :: value.headD 0 ::
          deliverTail pDeliver time body))) = some (deliver, b) ∧ SameDeliver pDeliver deliver ∧
      b.index ≤ 3 + pDeliver.originAddress.octets.length +
        (deliverTail pDeliver time body).length := by
  obtain ⟨-, hmore, hstatus, hind, hreply⟩ := deliverTpduType_flags pDeliver
  have hdcs : decodeDcs (value.headD 0) = pDeliver.dcs :=
    (decodeDcs_eq_iff hscheme hvalue).mpr hkept.dcs
  obtain ⟨timeStamp, hread, hiff⟩ := decodeTimePdu_encodeTimePdu hkept.timeStamp.west
    ((deliverTpduType pDeliver ||| 0x80) :: (pDeliver.originAddress.octets ++
      [pDeliver.pid, value.headD 0]))
    (pDeliver.userData.front pDeliver.dcs.codingScheme ++ body)
  obtain rfl := hiff.mpr hkept.timeStamp
  unfold deliverTail at hsize ⊢
  rw [List.length_append] at hsize ⊢
  obtain ⟨pTPUD, b, hdecode, hindex⟩ := decodeUserDataPdu_of_kept coder
    (((deliverTpduType pDeliver ||| 0x80) :: (pDeliver.originAddress.octets ++
      [pDeliver.pid, value.headD 0])) ++ encodeTimePdu (.absolute time))
    (some SmsTpud.zero) hscheme hfits hbody
    (by simp only [List.length_append, List.length_cons, List.length_nil] at hsize ⊢; omega)
    hkept.userData
  rw [decodeDeliver_cursor coder haddress hlen hkept.originAddress _ _
    (dcsOctet_ne hscheme hvalue), hread]
  simp only [Option.bind_some, hdcs, hind, hdecode]
  refine ⟨_, b, rfl, ⟨hmore, hreply.trans hkept.replyPath.symm, hstatus, rfl, rfl, rfl, rfl,
    htime.symm, rfl⟩, ?_⟩
  simp only [List.length_append, List.length_cons, List.length_nil] at hindex ⊢
  omega

end RoundTrip

/-- Exactly the messages that are kept come back from the octets they are
encoded to. -/
theorem deliver_roundTrip_iff (coder : TextCoder) (hcoder : coder.AsciiBounded)
    (pDeliver : SmsDeliver) (time : SmsTimeAbs) (pduLen : Nat) (octets : List UInt8)
    (haddress : pDeliver.originAddress.Encodable) (htime : pDeliver.timeStamp = .absolute time)
    (hfits : pDeliver.userData.Fits pDeliver.dcs.codingScheme)
    (h : encodeSmsPdu (.deliver pDeliver) pduLen = some octets) :
    DeliverRoundTrip coder pDeliver octets ↔ pDeliver.Kept time := by
  obtain ⟨b, hb, -, -, hle, hmax, rfl⟩ := encodeSmsPdu_eq_some h
  obtain ⟨hlen, hscheme, value, body, rest, hvalue, hbody, rfl⟩ :=
    encodeDeliverPdu_layout haddress htime hfits hb
  obtain ⟨htwo, -⟩ := length_octets_le hlen
  rw [cursor_index] at hle
  rw [cursor_index, cursor_data, List.take_left]
  change (deliverLead pDeliver ++ (pDeliver.originAddress.octets ++ pDeliver.pid ::
    value.headD 0 :: deliverTail pDeliver time body)).length ≤ pduLen at hle
  change DeliverRoundTrip coder pDeliver (deliverLead pDeliver ++
    (pDeliver.originAddress.octets ++ pDeliver.pid :: value.headD 0 ::
      deliverTail pDeliver time body)) ↔ _
  simp only [List.length_append, List.length_cons] at hle
  cases hreply : pDeliver.bReplyPath with
  | false =>
      have hlead : deliverLead pDeliver = [] := by simp [deliverLead, hreply]
      rw [hlead] at hle ⊢
      constructor
      · rintro ⟨deliver, hdecode, -⟩
        exfalso
        obtain ⟨c, hc⟩ := decodeSmsPdu_eq_some hdecode
        rw [List.nil_append, ofHex_eq_cursor (by simp; omega) (by simp at hle ⊢; omega)] at hc
        simpa [decodeDeliver_overwritten coder haddress] using decodeTpdu_deliver hc
      · intro hkept
        simp [hkept.replyPath] at hreply
  | true =>
      have hlead : deliverLead pDeliver = [deliverTpduType pDeliver ||| 0x80] := by
        simp [deliverLead, hreply]
      rw [hlead] at hle ⊢
      simp only [List.length_singleton] at hle
      have hhex : ofHex ((deliverTpduType pDeliver ||| 0x80) ::
          (pDeliver.originAddress.octets ++ pDeliver.pid :: value.headD 0 ::
            deliverTail pDeliver time body)) = cursor [] _ :=
        ofHex_eq_cursor (by simp; omega) (by simp; omega)
      have hsize : 3 + pDeliver.originAddress.octets.length +
          (deliverTail pDeliver time body).length < 256 := by omega
      rw [List.singleton_append]
      constructor
      · rintro ⟨deliver, hdecode, hsame⟩
        obtain ⟨c, hc⟩ := decodeSmsPdu_eq_some hdecode
        rw [hhex] at hc
        exact decodeDeliver_kept hcoder haddress hlen htime hscheme hfits hvalue hbody hsize hreply
          (decodeTpdu_deliver hc) hsame
      · intro hkept
        obtain ⟨deliver, c, hdecode, hsame, hindex⟩ := decodeDeliver_of_kept coder haddress hlen
          htime hscheme hfits hvalue hbody hsize hkept
        refine ⟨deliver, ?_, hsame⟩
        have hmti := (deliverTpduType_flags pDeliver).1
        have hshort : ¬ (((deliverTpduType pDeliver ||| 0x80) :: (pDeliver.originAddress.octets ++
            pDeliver.pid :: value.headD 0 :: deliverTail pDeliver time body)).length = 0 ∨
          ((deliverTpduType pDeliver ||| 0x80) :: (pDeliver.originAddress.octets ++
            pDeliver.pid :: value.headD 0 :: deliverTail pDeliver time body)).length > 520) := by
          simp only [List.length_cons, List.length_append]
          omega
        rw [decodeSmsPdu, if_neg hshort, hhex, List.headD_cons, hmti]
        simp only [decodeTpdu, show ¬ (0 : UInt8) = 1 by decide, show ¬ (0 : UInt8) = 2 by decide,
          if_false, hdecode, Option.bind_eq_bind, Option.bind_some]
        rw [if_pos]
        simp only [List.length_cons, List.length_append]
        omega

/-- A text of two characters from `+123`, behind a concatenation header. -/
def plainDeliver : SmsDeliver where
  bMoreMsg := true
  bStatusReport := false
  bHeaderInd := true
  bReplyPath := true
  originAddress := ⟨1, 0, [0x2B, 0x31, 0x32, 0x33]⟩
  pid := 0
  dcs := defaultDcs
  timeStamp := .absolute ⟨25, 1, 2, 3, 4, 5, -52⟩
  userData := ⟨[.concat8Bit 7 2 1], [0x48, 0x69]⟩
  udData := SmsTpud.zero

def plainDeliverOctets : List UInt8 :=
  [0xC0, 0x03, 0x90, 0x21, 0xF3, 0x00, 0x00, 0x52, 0x10, 0x20, 0x30, 0x40, 0x50, 0x2D, 0x09, 0x05,
    0x00, 0x03, 0x07, 0x02, 0x01, 0x90, 0x69]

theorem plainDeliver_encoded :
    encodeSmsPdu (.deliver plainDeliver) 255 = some plainDeliverOctets := by
  decide +kernel

theorem plainDeliver_kept : plainDeliver.Kept ⟨25, 1, 2, 3, 4, 5, -52⟩ where
  replyPath := rfl
  originAddress := ⟨by decide, rfl, by decide, by decide, fun _ => by decide⟩
  dcs := by decide
  timeStamp := ⟨by decide, by decide, by decide⟩
  userData := ⟨rfl, fun _ => rfl, by decide, by decide⟩

theorem deliver_roundTrip_plain :
    DeliverRoundTrip ⟨id, id⟩ plainDeliver plainDeliverOctets :=
  (deliver_roundTrip_iff ⟨id, id⟩ (fun _ => List.countP_le_length) plainDeliver
    ⟨25, 1, 2, 3, 4, 5, -52⟩ 255 plainDeliverOctets
    ⟨by decide +kernel, by decide +kernel, by decide +kernel⟩ rfl
    ⟨by decide +kernel, by decide +kernel, by decide +kernel⟩
    plainDeliver_encoded).mpr plainDeliver_kept

/-- Without the reply-path flag the same message is not decoded. -/
theorem plainDeliver_not_returned :
    ¬ ∀ octets, encodeSmsPdu (.deliver { plainDeliver with bReplyPath := false }) 255 =
        some octets → DeliverRoundTrip ⟨id, id⟩ { plainDeliver with bReplyPath := false } octets := by
  intro h
  have hencoded : encodeSmsPdu (.deliver { plainDeliver with bReplyPath := false }) 255 =
      some plainDeliverOctets.tail := by
    decide +kernel
  have hdecoded : decodeSmsPdu ⟨id, id⟩ plainDeliverOctets.tail = none := by
    decide +kernel
  obtain ⟨deliver, hdecode, -⟩ := h _ hencoded
  simp [hdecoded] at hdecode

end TelephonySms.Pdu
