import TelephonySms.Receive.Recovery

/-! # What recovery hands on

The stored messages of a slot are its single rows and its complete groups. As
long as no row of a multi-part message meets a later row of another group with
its reference, regrouping by the reference hands on exactly these.
-/

namespace TelephonySms.Receive

open TelephonySms.Pages TelephonySms.Regroup

def slotRows (slotId : Nat) (t : SmsTable) : List SmsReceiveIndexer :=
  (t.rows.filter (·.slotId = slotId)).map (·.toIndexer)

def Effect.isHandedOn : Effect → Bool
  | .broadcast _ => true
  | .wapPush .. => true
  | _ => false

/-! ## The stored messages -/

/-- Every sequence number of the message is there. -/
def holdsAll (msgCount : Nat) (rows : List SmsReceiveIndexer) : Bool :=
  (List.range msgCount).all fun n => rows.any (·.msgSeqId = n + 1)

def handOver (slotId : Nat) (r : SmsReceiveIndexer) (pages : List Pdu) : Effect :=
  if r.getIsWapPushMsg then .wapPush slotId (recoveredIndexer r) pages.flatten
  else .broadcast (packetSmsData slotId (recoveredIndexer r) pages)

section CreateMessage

variable (createMessage : Pdu → Option SmsBaseMessage)

/-- What a row adds to its message: its PDU, or for a WAP push the user data in it. -/
def pageData (r : SmsReceiveIndexer) : Pdu :=
  if r.getIsWapPushMsg then
    ((createMessage r.pdu).map fun m =>
      if r.isSingleMsg then m.rawWapPushUserData else m.rawUserData).getD []
  else r.pdu

def pageAt (rows : List SmsReceiveIndexer) (n : Nat) : Pdu :=
  ((rows.find? (·.msgSeqId = n + 1)).map (pageData createMessage)).getD []

/-- The message a group makes, if it is complete; its first row names it. -/
def storedGroup (slotId : Nat) : List SmsReceiveIndexer → Option Effect
  | [] => none
  | r :: mates =>
      if holdsAll r.msgCount (r :: mates) then
        some (handOver slotId r ((List.range r.msgCount).map (pageAt createMessage (r :: mates))))
      else none

/-- One message for each single row and one for each complete group. -/
def storedMessages (slotId : Nat) (rows : List SmsReceiveIndexer) : List Effect :=
  (rows.filter (·.isSingleMsg)).map (fun r => handOver slotId r [pageData createMessage r]) ++
    ((rows.filter (!·.isSingleMsg)).map (·.groupKey)).dedup.filterMap fun key =>
      storedGroup createMessage slotId (rows.filter (·.groupKey = key))

/-- A WAP push row whose user data can be read back into the fifteen texts. -/
structure WapReadable (r : SmsReceiveIndexer) : Prop where
  parses : (createMessage r.pdu).isSome
  seqId : r.msgCount ≠ 1 → r.msgSeqId ≤ maxSegmentNum
  started : r.msgCount = 1 ∨ r.msgSeqId = 1 → pageData createMessage r ≠ []

/-- The row `q`, stored after the multi-part row `p` and still in the vector when
`p` is regrouped, is another part of the message of `p` or has another reference. -/
def Undisturbed (p q : SmsReceiveIndexer) : Prop :=
  p.msgCount ≠ 1 → p.msgRefId = q.msgRefId →
    (p.getIsWapPushMsg ∨ q.getIsWapPushMsg = false) →
      p.groupKey = q.groupKey ∧ p.getIsWapPushMsg = q.getIsWapPushMsg ∧
        p.msgSeqId ≠ q.msgSeqId

instance (p q : SmsReceiveIndexer) : Decidable (Undisturbed p q) :=
  inferInstanceAs (Decidable (_ → _ → _ → _))

/-- No row is one that recovery drops or miscounts. -/
structure Recoverable (rows : List SmsReceiveIndexer) : Prop where
  pdu : ∀ r ∈ rows, 1 ≤ r.pdu.length ∧ r.pdu.length ≤ maxTpduDataLen
  count : ∀ r ∈ rows, 1 ≤ r.msgCount
  seqId : ∀ r ∈ rows, r.msgCount ≠ 1 → 1 ≤ r.msgSeqId ∧ r.msgSeqId ≤ r.msgCount
  wap : ∀ r ∈ rows, r.getIsWapPushMsg → WapReadable createMessage r
  undisturbed : rows.Pairwise Undisturbed

/-- No group has rows for the WAP push port and rows for another port. -/
def OnePort (rows : List SmsReceiveIndexer) : Prop :=
  ∀ p ∈ rows, ∀ q ∈ rows, p.msgCount ≠ 1 → p.groupKey = q.groupKey →
    p.getIsWapPushMsg = q.getIsWapPushMsg

end CreateMessage

variable {createMessage : Pdu → Option SmsBaseMessage}

theorem Recoverable.sublist {rows rows' : List SmsReceiveIndexer}
    (h : Recoverable createMessage rows) (hsub : rows'.Sublist rows) :
    Recoverable createMessage rows' where
  pdu r hr := h.pdu r (hsub.subset hr)
  count r hr := h.count r (hsub.subset hr)
  seqId r hr := h.seqId r (hsub.subset hr)
  wap r hr := h.wap r (hsub.subset hr)
  undisturbed := h.undisturbed.sublist hsub

theorem Recoverable.tail {r : SmsReceiveIndexer} {rows : List SmsReceiveIndexer}
    (h : Recoverable createMessage (r :: rows)) : Recoverable createMessage rows :=
  h.sublist (List.sublist_cons_self r rows)

/-! ## A group of distinct parts -/

section Group

variable {msgCount : Nat} {group : List SmsReceiveIndexer}

/-- The rows of one round: parts of one message, no two of them the same. -/
structure DistinctPages (msgCount : Nat) (group : List SmsReceiveIndexer) : Prop where
  inRange : ∀ r ∈ group, 1 ≤ r.msgSeqId ∧ r.msgSeqId ≤ msgCount
  distinct : group.Pairwise fun p q => p.msgSeqId ≠ q.msgSeqId

theorem DistinctPages.positions (h : DistinctPages msgCount group) :
    (group.map fun r => r.msgSeqId - 1).Nodup ∧
      ∀ k ∈ group.map (fun r => r.msgSeqId - 1), k < msgCount := by
  constructor
  · rw [List.Nodup, List.pairwise_map]
    apply h.distinct.imp_of_mem
    intro p q hp hq hne
    have := h.inRange p hp
    have := h.inRange q hq
    omega
  · intro k hk
    obtain ⟨r, hr, rfl⟩ := List.mem_map.mp hk
    have := h.inRange r hr
    omega

theorem holdsAll_iff_length (h : DistinctPages msgCount group) :
    holdsAll msgCount group = true ↔ group.length = msgCount := by
  have hlen := length_eq_iff_forall_mem h.positions.1 h.positions.2
  rw [List.length_map] at hlen
  rw [hlen, holdsAll, List.all_eq_true]
  simp only [List.mem_range, List.any_eq_true, decide_eq_true_eq, List.mem_map]
  refine forall₂_congr fun k _ => exists_congr fun r => and_congr_right fun hr => ?_
  have := h.inRange r hr
  omega

theorem place_pages_eq (val : SmsReceiveIndexer → Pdu) (h : DistinctPages msgCount group)
    (hall : holdsAll msgCount group = true) :
    place (fun r => r.msgSeqId - 1) val (List.replicate msgCount []) group =
      (List.range msgCount).map fun n =>
        ((group.find? (·.msgSeqId = n + 1)).map val).getD [] := by
  apply place_eq_map_range [] h.positions.1
  intro k hk
  have hany : (group.find? (·.msgSeqId = k + 1)).isSome := by
    simpa [holdsAll] using List.all_eq_true.mp hall k (List.mem_range.mpr hk)
  obtain ⟨r, hfind⟩ := Option.isSome_iff_exists.mp hany
  have hseq : r.msgSeqId = k + 1 := by simpa using List.find?_some hfind
  exact ⟨r, List.mem_of_find?_eq_some hfind, by omega, by simp [hfind]⟩

end Group

theorem multi_of_groupKey {p q : SmsReceiveIndexer} (h : q.groupKey = p.groupKey) :
    q.msgRefId = p.msgRefId ∧ q.msgCount = p.msgCount :=
  ⟨congrArg GroupKey.refId h, congrArg GroupKey.msgCount h⟩

/-- What a round meets behind its first row. -/
structure RoundMates (p : SmsReceiveIndexer) (rest : List SmsReceiveIndexer) : Prop where
  sameRef : ∀ q ∈ rest, p.msgRefId = q.msgRefId ↔ q.groupKey = p.groupKey
  sameKind : ∀ q ∈ rest, q.groupKey = p.groupKey → q.getIsWapPushMsg = p.getIsWapPushMsg
  distinct : DistinctPages p.msgCount (p :: rest.filter (·.groupKey = p.groupKey))

theorem Recoverable.roundMates {p : SmsReceiveIndexer} {rest : List SmsReceiveIndexer}
    (h : Recoverable createMessage (p :: rest)) (hmulti : p.msgCount ≠ 1)
    (hwap : p.getIsWapPushMsg = true ∨ ∀ q ∈ rest, q.getIsWapPushMsg = false) :
    RoundMates p rest := by
  obtain ⟨hfirst, hpairs⟩ := List.pairwise_cons.mp h.undisturbed
  have hmate (q) (hq : q ∈ rest) (href : p.msgRefId = q.msgRefId) :=
    hfirst q hq hmulti href (hwap.imp_right fun hall => hall q hq)
  have hkind : ∀ q ∈ rest, q.groupKey = p.groupKey →
      q.getIsWapPushMsg = p.getIsWapPushMsg := fun q hq hkey =>
    (hmate q hq (multi_of_groupKey hkey).1.symm).2.1.symm
  refine ⟨fun q hq => ⟨fun href => (hmate q hq href).1.symm,
    fun hkey => (multi_of_groupKey hkey).1.symm⟩, hkind, ?_, ?_⟩
  · intro r hr
    have hkey : r.groupKey = p.groupKey ∧ r ∈ p :: rest := by
      rcases List.mem_cons.mp hr with rfl | hr
      · exact ⟨rfl, by simp⟩
      · obtain ⟨hr, hkey⟩ := List.mem_filter.mp hr
        exact ⟨by simpa using hkey, by simp [hr]⟩
    have hcount := (multi_of_groupKey hkey.1).2
    simpa [hcount] using h.seqId r hkey.2 (by simpa [hcount] using hmulti)
  · rw [List.pairwise_cons]
    constructor
    · intro q hq
      obtain ⟨hq, hkey⟩ := List.mem_filter.mp hq
      exact (hmate q hq (multi_of_groupKey (by simpa using hkey)).1.symm).2.2
    · apply (hpairs.sublist List.filter_sublist).imp_of_mem
      intro q q' hq hq' hund
      obtain ⟨hq, hkey⟩ := List.mem_filter.mp hq
      obtain ⟨hq', hkey'⟩ := List.mem_filter.mp hq'
      have hkey : q.groupKey = p.groupKey := by simpa using hkey
      have hkey' : q'.groupKey = p.groupKey := by simpa using hkey'
      have hport : q.getIsWapPushMsg = true ∨ q'.getIsWapPushMsg = false := by
        rcases hwap with hp | hall
        · exact .inl (by rw [hkind q hq hkey, hp])
        · exact .inr (hall q' hq')
      refine (hund ?_ ?_ hport).2.2
      · rwa [(multi_of_groupKey hkey).2]
      · rw [(multi_of_groupKey hkey).1, (multi_of_groupKey hkey').1]

theorem RoundMates.filter_eq {p : SmsReceiveIndexer} {rest : List SmsReceiveIndexer}
    (h : RoundMates p rest) :
    rest.filter (p.msgRefId = ·.msgRefId) = rest.filter (·.groupKey = p.groupKey) ∧
      rest.filter (p.msgRefId ≠ ·.msgRefId) = rest.filter (·.groupKey ≠ p.groupKey) := by
  constructor <;>
    exact List.filter_congr fun q hq => by simp [h.sameRef q hq]

/-! ## Text and data rows -/

theorem smsPageLoop_eq {refId msgCount : Nat} {rows : List SmsReceiveIndexer}
    (h : ∀ q ∈ rows, refId = q.msgRefId → 1 ≤ q.msgSeqId ∧ q.msgSeqId ≤ msgCount) (count : Nat)
    (pdus : List Pdu) :
    smsPageLoop refId msgCount count pdus rows =
      (count + (rows.filter (refId = ·.msgRefId)).length,
        place (fun r => r.msgSeqId - 1) (·.pdu) pdus (rows.filter (refId = ·.msgRefId)),
        rows.filter (refId ≠ ·.msgRefId)) := by
  induction rows generalizing count pdus with
  | nil => rfl
  | cons q rows ih =>
      have hrest := fun r hr => h r (List.mem_cons_of_mem q hr)
      by_cases href : refId = q.msgRefId
      · have hseq := h q (by simp) href
        have hin : ¬ (q.msgSeqId < 1 ∨ q.msgSeqId > msgCount) := by omega
        simp only [smsPageLoop, href, ne_eq, not_true_eq_false, if_false, hin]
        rw [← href, ih hrest]
        simp [href, place_cons, Nat.add_assoc, Nat.add_comm]
      · simp only [smsPageLoop, href, ne_eq, not_false_eq_true, if_true]
        rw [ih hrest]
        simp [href]

theorem sendBroadcast_handedOn (ds : DataShare) (slotId : Nat) (t : SmsTable)
    (i : SmsReceiveIndexer) (pdus : List Pdu) :
    (sendBroadcast ds slotId t i pdus).2.filter Effect.isHandedOn =
      [.broadcast (packetSmsData slotId i (pdus.filter (· ≠ [])))] := by
  unfold sendBroadcast
  split
  · rcases deleteMessageFormDb_spec ds t i.msgRefId i.dataBaseId i.msgCount
      i.originatingAddress with h | h <;> simp [h, Effect.isHandedOn, List.filter_cons]
  · simp [Effect.isHandedOn]

/-- What one round of either loop is to hand on. -/
def roundMessage (createMessage : Pdu → Option SmsBaseMessage) (slotId : Nat)
    (r : SmsReceiveIndexer) (mates : List SmsReceiveIndexer) : Option Effect :=
  if r.isSingleMsg then some (handOver slotId r [pageData createMessage r])
  else storedGroup createMessage slotId (r :: mates)

theorem getSmsUserDataMultipage_eq {p : SmsReceiveIndexer} {rest : List SmsReceiveIndexer}
    (h : RoundMates p rest) :
    getSmsUserDataMultipage p.msgCount p rest =
      ((p :: rest.filter (·.groupKey = p.groupKey)).length,
        place (fun r => r.msgSeqId - 1) (·.pdu) (List.replicate p.msgCount [])
          (p :: rest.filter (·.groupKey = p.groupKey)),
        rest.filter (·.groupKey ≠ p.groupKey)) := by
  have hp := h.distinct.inRange p (by simp)
  have hin : ¬ (p.msgSeqId < 1 ∨ p.msgSeqId > p.msgCount) := by omega
  have hmates : ∀ q ∈ rest, p.msgRefId = q.msgRefId →
      1 ≤ q.msgSeqId ∧ q.msgSeqId ≤ p.msgCount := fun q hq href =>
    h.distinct.inRange q (by simp [hq, (h.sameRef q hq).mp href])
  simp only [getSmsUserDataMultipage, hin, if_false]
  rw [smsPageLoop_eq hmates, h.filter_eq.1, h.filter_eq.2, place_cons, List.length_cons,
    Nat.add_comm]

/-- The pages of a complete message that is not a WAP push are its PDUs. -/
theorem place_pdus_eq (createMessage : Pdu → Option SmsBaseMessage)
    {group : List SmsReceiveIndexer} {msgCount : Nat}
    (hport : ∀ r ∈ group, r.getIsWapPushMsg = false) (h : DistinctPages msgCount group)
    (hall : holdsAll msgCount group = true) :
    place (fun r => r.msgSeqId - 1) (·.pdu) (List.replicate msgCount []) group =
      (List.range msgCount).map (pageAt createMessage group) := by
  rw [place_pages_eq _ h hall]
  apply List.map_congr_left
  intro n _
  cases hfind : group.find? (·.msgSeqId = n + 1) with
  | none => simp [pageAt, hfind]
  | some r => simp [pageAt, hfind, pageData, hport r (List.mem_of_find?_eq_some hfind)]

theorem pageAt_ne_nil {group : List SmsReceiveIndexer} {msgCount n : Nat}
    (hport : ∀ r ∈ group, r.getIsWapPushMsg = false) (hpdu : ∀ r ∈ group, r.pdu ≠ [])
    (hall : holdsAll msgCount group = true) (hn : n < msgCount) :
    pageAt createMessage group n ≠ [] := by
  have hany : (group.find? (·.msgSeqId = n + 1)).isSome := by
    simpa [holdsAll] using List.all_eq_true.mp hall n (List.mem_range.mpr hn)
  obtain ⟨r, hfind⟩ := Option.isSome_iff_exists.mp hany
  have hr := List.mem_of_find?_eq_some hfind
  simp [pageAt, hfind, pageData, hport r hr, hpdu r hr]

theorem readySendSmsBroadcast_handedOn (ds : DataShare) (slotId : Nat) (t : SmsTable)
    {i : SmsReceiveIndexer} {pdus : List Pdu} (hport : i.getIsWapPushMsg = false)
    (hne : pdus ≠ []) (hpdus : ∀ pdu ∈ pdus, pdu ≠ []) :
    (readySendSmsBroadcast ds slotId t i pdus).2.filter Effect.isHandedOn =
      [handOver slotId i pdus] := by
  have hfirst : pdus.getD 0 [] ≠ [] := by
    cases pdus with
    | nil => exact absurd rfl hne
    | cons pdu pdus => simpa using hpdus pdu (by simp)
  have hfilter : pdus.filter (· ≠ []) = pdus :=
    List.filter_eq_self.mpr fun pdu hpdu => by simpa using hpdus pdu hpdu
  simp only [readySendSmsBroadcast, hfirst, if_false]
  rw [sendBroadcast_handedOn, hfilter]
  simp [handOver, hport]

/-- The loop over the rows that are no WAP push regroups them by message. -/
theorem recoverSms_handedOn (ds : DataShare) (slotId : Nat) {n : Nat}
    {rows : List SmsReceiveIndexer} (hn : rows.length ≤ n) (h : Recoverable createMessage rows)
    (hport : ∀ r ∈ rows, r.getIsWapPushMsg = false) (t : SmsTable) :
    (recoverSms ds slotId n t rows).2.filter Effect.isHandedOn =
      peelAll (·.isSingleMsg) (·.groupKey) (roundMessage createMessage slotId) rows := by
  induction n generalizing rows t with
  | zero =>
      obtain rfl : rows = [] := List.length_eq_zero_iff.mp (by omega)
      rfl
  | succ n ih =>
      cases rows with
      | nil => rfl
      | cons p rest =>
          have hlen : rest.length ≤ n := by simpa using hn
          have hzero : p.msgCount ≠ 0 := by
            have := h.count p (by simp)
            omega
          have hp : p.getIsWapPushMsg = false := hport p (by simp)
          have hrestPort : ∀ r ∈ rest, r.getIsWapPushMsg = false :=
            fun r hr => hport r (by simp [hr])
          rw [peelAll_cons]
          by_cases hone : p.msgCount = 1
          · have hsingle : p.isSingleMsg = true := by simp [SmsReceiveIndexer.isSingleMsg, hone]
            have hpdu : p.pdu ≠ [] := by
              have := h.pdu p (by simp)
              exact List.ne_nil_of_length_pos (by omega)
            simp only [recoverSms, hone, Nat.one_ne_zero, if_false, if_true, hsingle]
            rw [List.filter_append, ih hlen h.tail hrestPort,
              readySendSmsBroadcast_handedOn ds slotId t hp (by simp) (by simpa using hpdu)]
            simp [roundMessage, hsingle, pageData, hp]
          · have hsingle : p.isSingleMsg = false := by simp [SmsReceiveIndexer.isSingleMsg, hone]
            have hmates := h.roundMates hone (.inr hrestPort)
            have hsub : (rest.filter (·.groupKey ≠ p.groupKey)).Sublist rest :=
              List.filter_sublist
            have hrest := fun t => ih (Nat.le_trans hsub.length_le hlen) (h.tail.sublist hsub)
              (fun r hr => hrestPort r (hsub.subset hr)) t
            simp only [recoverSms, hzero, hone, if_false, hsingle, Bool.false_eq_true,
              getSmsUserDataMultipage_eq hmates]
            by_cases hall : holdsAll p.msgCount (p :: rest.filter (·.groupKey = p.groupKey)) = true
            · have hcount := (holdsAll_iff_length hmates.distinct).mp hall
              have hgroup : ∀ r ∈ p :: rest.filter (·.groupKey = p.groupKey), r ∈ p :: rest :=
                fun r hr => (List.filter_sublist.cons_cons p).subset hr
              have hgroupPort := fun r hr => hport r (hgroup r hr)
              have hgroupPdu : ∀ r ∈ p :: rest.filter (·.groupKey = p.groupKey), r.pdu ≠ [] :=
                fun r hr => List.ne_nil_of_length_pos (h.pdu r (hgroup r hr)).1
              rw [if_neg (by simp [hcount]), List.filter_append, hrest,
                place_pdus_eq createMessage hgroupPort hmates.distinct hall,
                readySendSmsBroadcast_handedOn ds slotId t hp (by simpa using hzero)]
              · simp [roundMessage, hsingle, storedGroup, hall]
              · intro pdu hpdu
                obtain ⟨k, hk, rfl⟩ := List.mem_map.mp hpdu
                exact pageAt_ne_nil hgroupPort hgroupPdu hall (List.mem_range.mp hk)
            · have hcount := mt (holdsAll_iff_length hmates.distinct).mpr hall
              rw [if_pos (Ne.symm hcount), hrest]
              simp [roundMessage, hsingle, storedGroup, hall]

/-! ## WAP push rows -/

/-- The user data in a row, empty when its PDU cannot be parsed. -/
def rowText (createMessage : Pdu → Option SmsBaseMessage) (r : SmsReceiveIndexer) : Pdu :=
  ((createMessage r.pdu).map (·.rawUserData)).getD []

/-- A row that does not end the loop over the pages. -/
structure WapPage (createMessage : Pdu → Option SmsBaseMessage) (r : SmsReceiveIndexer) :
    Prop where
  pdu : 1 ≤ r.pdu.length
  parses : (createMessage r.pdu).isSome
  inRange : 1 ≤ r.msgSeqId ∧ r.msgSeqId ≤ maxSegmentNum

theorem wapPageLoop_place {refId : Nat} {rows : List SmsReceiveIndexer}
    (h : ∀ q ∈ rows, refId = q.msgRefId → WapPage createMessage q) (count : Nat)
    (raws : List Pdu) :
    wapPageLoop createMessage refId count raws rows =
      (count + (rows.filter (refId = ·.msgRefId)).length,
        place (fun r => r.msgSeqId - 1) (rowText createMessage) raws
          (rows.filter (refId = ·.msgRefId)),
        rows.filter (refId ≠ ·.msgRefId)) := by
  induction rows generalizing count raws with
  | nil => rfl
  | cons q rows ih =>
      have hrest := fun r hr => h r (List.mem_cons_of_mem q hr)
      by_cases href : refId = q.msgRefId
      · have hpage := h q (by simp) href
        have hin : ¬ (q.msgSeqId < 1 ∨ q.msgSeqId > maxSegmentNum) := by
          have := hpage.inRange
          omega
        obtain ⟨m, hm⟩ := Option.isSome_iff_exists.mp hpage.parses
        have hdata : rowText createMessage q = m.rawUserData := by
          simp [rowText, hm]
        have hpos : q.pdu.length > 0 := hpage.pdu
        simp only [wapPageLoop, href, ne_eq, not_true_eq_false, if_false, hm, hin, hpos, if_true]
        rw [← href, ih hrest]
        simp [href, place_cons, hdata, Nat.add_assoc, Nat.add_comm]
      · simp only [wapPageLoop, href, ne_eq, not_false_eq_true, if_true]
        rw [ih hrest]
        simp [href]

/-- A round over rows that can all be used writes their texts in place. -/
theorem getWapPushUserDataMultipage_place {p : SmsReceiveIndexer} {rest : List SmsReceiveIndexer}
    (hp : WapPage createMessage p)
    (h : ∀ q ∈ rest, p.msgRefId = q.msgRefId → WapPage createMessage q) (raws : List Pdu) :
    getWapPushUserDataMultipage createMessage p raws rest =
      ((p :: rest.filter (p.msgRefId = ·.msgRefId)).length,
        place (fun r => r.msgSeqId - 1) (rowText createMessage) raws
          (p :: rest.filter (p.msgRefId = ·.msgRefId)),
        rest.filter (p.msgRefId ≠ ·.msgRefId)) := by
  obtain ⟨m, hm⟩ := Option.isSome_iff_exists.mp hp.parses
  have hin : ¬ (p.msgSeqId < 1 ∨ p.msgSeqId > maxSegmentNum) := by
    have := hp.inRange
    omega
  have hdata : rowText createMessage p = m.rawUserData := by
    simp [rowText, hm]
  simp only [getWapPushUserDataMultipage, hm, hin, if_false]
  rw [wapPageLoop_place h, place_cons, hdata, List.length_cons, Nat.add_comm]

/-- The rows of a multi-part WAP push are read through `GetRawUserData`. -/
theorem rowText_eq_pageData {r : SmsReceiveIndexer} (hmulti : r.msgCount ≠ 1)
    (hwap : r.getIsWapPushMsg = true) : rowText createMessage r = pageData createMessage r := by
  simp [rowText, pageData, hwap, SmsReceiveIndexer.isSingleMsg, hmulti]

theorem getWapPushUserDataMultipage_eq {p : SmsReceiveIndexer} {rest : List SmsReceiveIndexer}
    (hrec : Recoverable createMessage (p :: rest)) (hmulti : p.msgCount ≠ 1)
    (hwap : p.getIsWapPushMsg = true) (h : RoundMates p rest) (raws : List Pdu) :
    getWapPushUserDataMultipage createMessage p raws rest =
      ((p :: rest.filter (·.groupKey = p.groupKey)).length,
        place (fun r => r.msgSeqId - 1) (pageData createMessage) raws
          (p :: rest.filter (·.groupKey = p.groupKey)),
        rest.filter (·.groupKey ≠ p.groupKey)) := by
  have hmate : ∀ q ∈ rest, q.groupKey = p.groupKey →
      q.msgCount ≠ 1 ∧ q.getIsWapPushMsg = true := by
    intro q hq hkey
    exact ⟨by rwa [(multi_of_groupKey hkey).2], by rw [h.sameKind q hq hkey, hwap]⟩
  have hpage : ∀ r ∈ p :: rest, r.msgCount ≠ 1 → r.getIsWapPushMsg = true →
      WapPage createMessage r := by
    intro r hr hone hport
    have hread := hrec.wap r hr hport
    exact ⟨(hrec.pdu r hr).1, hread.parses, (hrec.seqId r hr hone).1, hread.seqId hone⟩
  have hrest : ∀ q ∈ rest, p.msgRefId = q.msgRefId → WapPage createMessage q := by
    intro q hq href
    obtain ⟨hone, hport⟩ := hmate q hq ((h.sameRef q hq).mp href)
    exact hpage q (by simp [hq]) hone hport
  rw [getWapPushUserDataMultipage_place (hpage p (by simp) hmulti hwap) hrest, h.filter_eq.1,
    h.filter_eq.2]
  rw [place_congr]
  intro r hr
  obtain rfl | hr := List.mem_cons.mp hr
  · exact rowText_eq_pageData hmulti hwap
  · obtain ⟨hq, hkey⟩ := List.mem_filter.mp hr
    obtain ⟨hone, hport⟩ := hmate r hq (by simpa using hkey)
    exact rowText_eq_pageData hone hport

/-- The fifteen texts of a complete WAP push are its pages and empty texts. -/
theorem place_wapPages_eq {group : List SmsReceiveIndexer} {msgCount : Nat}
    (h : DistinctPages msgCount group) (hall : holdsAll msgCount group = true)
    (hmax : ∀ r ∈ group, r.msgSeqId ≤ maxSegmentNum) :
    place (fun r => r.msgSeqId - 1) (pageData createMessage)
        (List.replicate maxSegmentNum []) group =
      (List.range msgCount).map (pageAt createMessage group) ++
        List.replicate (maxSegmentNum - msgCount) [] := by
  have hle : msgCount ≤ maxSegmentNum := by
    have hlt : ∀ k ∈ group.map (fun r => r.msgSeqId - 1), k < maxSegmentNum := by
      intro k hk
      obtain ⟨r, hr, rfl⟩ := List.mem_map.mp hk
      have := hmax r hr
      have := h.inRange r hr
      omega
    have hlen := length_le_of_nodup h.positions.1 hlt
    rwa [List.length_map, (holdsAll_iff_length h).mp hall] at hlen
  have hsplit : List.replicate maxSegmentNum ([] : Pdu) =
      List.replicate msgCount [] ++ List.replicate (maxSegmentNum - msgCount) [] := by
    rw [List.replicate_append_replicate, Nat.add_sub_cancel' hle]
  rw [hsplit, place_append_of_lt, place_pages_eq _ h hall]
  · rfl
  · intro r hr
    have := h.inRange r hr
    simp only [List.length_replicate]
    omega

theorem readyDecodeWapPushUserData_eq (slotId : Nat) {i : SmsReceiveIndexer} (n : Nat)
    {pages : List Pdu} (hwap : i.getIsWapPushMsg = true) (hfirst : pages.getD 0 [] ≠ []) :
    readyDecodeWapPushUserData slotId i (pages ++ List.replicate n []) =
      some (handOver slotId i pages) := by
  have hne : (pages ++ List.replicate n []).getD 0 [] ≠ [] := by
    cases pages with
    | nil => exact absurd rfl hfirst
    | cons page pages => simpa using hfirst
  have hflat : (pages ++ List.replicate n []).flatten = pages.flatten := by simp
  simp only [readyDecodeWapPushUserData, hne, if_false, hflat, handOver, hwap, if_true]

/-- The rows a round takes out are WAP pushes, so the other rows keep their order. -/
theorem RoundMates.filter_wap {p : SmsReceiveIndexer} {rest : List SmsReceiveIndexer}
    (h : RoundMates p rest) (hwap : p.getIsWapPushMsg = true) :
    (rest.filter (·.groupKey ≠ p.groupKey)).filter (!·.getIsWapPushMsg) =
        rest.filter (!·.getIsWapPushMsg) ∧
      (rest.filter (·.getIsWapPushMsg)).filter (·.groupKey = p.groupKey) =
        rest.filter (·.groupKey = p.groupKey) ∧
      (rest.filter (·.groupKey ≠ p.groupKey)).filter (·.getIsWapPushMsg) =
        (rest.filter (·.getIsWapPushMsg)).filter (·.groupKey ≠ p.groupKey) := by
  refine ⟨?_, ?_, ?_⟩
  · rw [List.filter_filter]
    apply List.filter_congr
    intro q hq
    by_cases hkey : q.groupKey = p.groupKey
    · simp [h.sameKind q hq hkey, hwap]
    · simp [hkey]
  · rw [List.filter_filter]
    apply List.filter_congr
    intro q hq
    by_cases hkey : q.groupKey = p.groupKey
    · simp [hkey, h.sameKind q hq hkey, hwap]
    · simp [hkey]
  · simp only [List.filter_filter, Bool.and_comm]

theorem Recoverable.wapMates {p : SmsReceiveIndexer} {rest : List SmsReceiveIndexer}
    (h : Recoverable createMessage (p :: rest)) (hmates : RoundMates p rest)
    (hmulti : p.msgCount ≠ 1) (hwap : p.getIsWapPushMsg = true) :
    ∀ r ∈ p :: rest.filter (·.groupKey = p.groupKey),
      r.msgCount ≠ 1 ∧ WapReadable createMessage r := by
  intro r hr
  rcases List.mem_cons.mp hr with rfl | hr
  · exact ⟨hmulti, h.wap r (by simp) hwap⟩
  · obtain ⟨hr, hkey⟩ := List.mem_filter.mp hr
    have hkey : r.groupKey = p.groupKey := by simpa using hkey
    refine ⟨by rwa [(multi_of_groupKey hkey).2], h.wap r (by simp [hr]) ?_⟩
    rw [hmates.sameKind r hr hkey, hwap]

/-- One round over a multi-part WAP push. -/
theorem wapRound_eq (slotId : Nat) {p : SmsReceiveIndexer} {mates : List SmsReceiveIndexer}
    (h : DistinctPages p.msgCount (p :: mates)) (hmulti : p.msgCount ≠ 1)
    (hzero : p.msgCount ≠ 0) (hwap : p.getIsWapPushMsg = true)
    (hread : ∀ r ∈ p :: mates, r.msgCount ≠ 1 ∧ WapReadable createMessage r) :
    (if p.msgCount ≠ (p :: mates).length then none
      else readyDecodeWapPushUserData slotId p (place (fun r => r.msgSeqId - 1)
        (pageData createMessage) (List.replicate maxSegmentNum []) (p :: mates))) =
      roundMessage createMessage slotId p mates := by
  have hsingle : p.isSingleMsg = false := by simp [SmsReceiveIndexer.isSingleMsg, hmulti]
  by_cases hall : holdsAll p.msgCount (p :: mates) = true
  · have hcount := (holdsAll_iff_length h).mp hall
    have hmax : ∀ r ∈ p :: mates, r.msgSeqId ≤ maxSegmentNum :=
      fun r hr => (hread r hr).2.seqId (hread r hr).1
    have hfirst : ((List.range p.msgCount).map (pageAt createMessage (p :: mates))).getD 0 [] ≠
        [] := by
      have hpos : 0 < p.msgCount := by omega
      have hany : ((p :: mates).find? (·.msgSeqId = 0 + 1)).isSome := by
        simpa [holdsAll] using List.all_eq_true.mp hall 0 (List.mem_range.mpr hpos)
      obtain ⟨r, hfind⟩ := Option.isSome_iff_exists.mp hany
      have hseq : r.msgSeqId = 1 := by simpa using List.find?_some hfind
      have hdata := (hread r (List.mem_of_find?_eq_some hfind)).2.started (.inr hseq)
      simp only [List.getD_eq_getElem?_getD, List.getElem?_map, List.getElem?_range hpos,
        Option.map_some, Option.getD_some, pageAt, hfind]
      exact hdata
    rw [if_neg (by simp [hcount]), place_wapPages_eq h hall hmax,
      readyDecodeWapPushUserData_eq slotId _ hwap hfirst]
    simp [roundMessage, hsingle, storedGroup, hall]
  · have hcount := mt (holdsAll_iff_length h).mpr hall
    rw [if_pos (Ne.symm hcount)]
    simp [roundMessage, hsingle, storedGroup, hall]

/-- The loop over the WAP push rows takes them all out, message by message. -/
theorem checkUnReceiveWapPush_eq (slotId : Nat) {n : Nat} {rows : List SmsReceiveIndexer}
    (hn : rows.length ≤ n) (h : Recoverable createMessage rows) :
    checkUnReceiveWapPush createMessage slotId n rows =
      (rows.filter (!·.getIsWapPushMsg),
        peelAll (·.isSingleMsg) (·.groupKey) (roundMessage createMessage slotId)
          (rows.filter (·.getIsWapPushMsg))) := by
  induction n generalizing rows with
  | zero =>
      obtain rfl : rows = [] := List.length_eq_zero_iff.mp (by omega)
      rfl
  | succ n ih =>
      cases rows with
      | nil => rfl
      | cons p rest =>
          have hlen : rest.length ≤ n := by simpa using hn
          cases hwap : p.getIsWapPushMsg with
          | false =>
              have hport : p.destPort ≠ wapPushPort := by
                simpa [SmsReceiveIndexer.getIsWapPushMsg] using hwap
              simp only [checkUnReceiveWapPush, hport, ne_eq, not_false_eq_true, if_true]
              rw [ih hlen h.tail]
              simp [hwap]
          | true =>
              have hport : p.destPort = wapPushPort := by
                simpa [SmsReceiveIndexer.getIsWapPushMsg] using hwap
              have hread := h.wap p (by simp) hwap
              rw [List.filter_cons_of_neg (by simp [hwap]), List.filter_cons_of_pos hwap,
                peelAll_cons]
              by_cases hone : p.msgCount = 1
              · have hsingle : p.isSingleMsg = true := by
                  simp [SmsReceiveIndexer.isSingleMsg, hone]
                obtain ⟨m, hm⟩ := Option.isSome_iff_exists.mp hread.parses
                have hdata : pageData createMessage p = m.rawWapPushUserData := by
                  simp [pageData, hwap, hm, hsingle]
                have hraws : getWapPushUserDataSinglePage createMessage p
                    (List.replicate maxSegmentNum []) =
                      [pageData createMessage p] ++ List.replicate 14 [] := by
                  simp [getWapPushUserDataSinglePage, hm, hdata, maxSegmentNum,
                    List.replicate_succ]
                have hfirst : [pageData createMessage p].getD 0 [] ≠ [] :=
                  hread.started (.inl hone)
                simp only [checkUnReceiveWapPush, hport, ne_eq, not_true_eq_false, if_false,
                  hone, if_true, hsingle]
                rw [hraws, readyDecodeWapPushUserData_eq slotId _ hwap hfirst, ih hlen h.tail]
                simp [roundMessage, hsingle]
              · have hsingle : p.isSingleMsg = false := by
                  simp [SmsReceiveIndexer.isSingleMsg, hone]
                have hmates := h.roundMates hone (.inl hwap)
                have hsub : (rest.filter (·.groupKey ≠ p.groupKey)).Sublist rest :=
                  List.filter_sublist
                obtain ⟨hkept, hgroup, hleft⟩ := hmates.filter_wap hwap
                have hround := wapRound_eq slotId hmates.distinct hone
                  (by have := h.count p (by simp); omega) hwap (h.wapMates hmates hone hwap)
                simp only [checkUnReceiveWapPush, hport, ne_eq, not_true_eq_false, if_false,
                  hone, hsingle, Bool.false_eq_true,
                  getWapPushUserDataMultipage_eq h hone hwap hmates]
                rw [ih (Nat.le_trans hsub.length_le hlen) (h.tail.sublist hsub), hkept, hleft,
                  hgroup, ← hround]
                split <;> simp_all

/-! ## Both loops together -/

theorem roundMessage_isHandedOn {slotId : Nat} {r : SmsReceiveIndexer}
    {mates : List SmsReceiveIndexer} {e : Effect}
    (h : roundMessage createMessage slotId r mates = some e) : e.isHandedOn = true := by
  have hover (pages : List Pdu) : (handOver slotId r pages).isHandedOn = true := by
    unfold handOver
    split <;> rfl
  unfold roundMessage storedGroup at h
  split at h
  · cases h
    exact hover _
  · dsimp only at h
    split at h
    · cases h
      exact hover _
    · cases h

theorem storedMessages_eq (slotId : Nat) (rows : List SmsReceiveIndexer) :
    storedMessages createMessage slotId rows =
      emitAlone (·.isSingleMsg) (roundMessage createMessage slotId) rows ++
        emitGroups (·.isSingleMsg) (·.groupKey) (roundMessage createMessage slotId) rows := by
  rw [storedMessages, emitAlone, emitGroups]
  congr 1
  · rw [← List.filterMap_eq_map]
    apply List.filterMap_congr
    intro r hr
    have hsingle : r.isSingleMsg = true := (List.mem_filter.mp hr).2
    simp [roundMessage, hsingle]
  · apply List.filterMap_congr
    intro key hkey
    obtain ⟨r, -, hmulti, rfl⟩ := mem_groupKeys.mp hkey
    rw [emitGroup]
    cases hgroup : rows.filter (·.groupKey = r.groupKey) with
    | nil => rfl
    | cons q mates =>
        have hq : q ∈ rows.filter (·.groupKey = r.groupKey) := by simp [hgroup]
        have hcount := (multi_of_groupKey (by simpa using (List.mem_filter.mp hq).2)).2
        have hsingle : q.isSingleMsg = false := by
          simpa [SmsReceiveIndexer.isSingleMsg, hcount] using hmulti
        simp [roundMessage, hsingle]

/-- A text part stored for slot 0, for the two tables below. -/
def storedPart (id : Nat) (sender : String) (refId size index : Nat) : SmsSubsection :=
  ⟨id, 0, sender, sender, 1, 1, [0x40 + id.toUInt8], false, -1, refId, size, index⟩

end TelephonySms.Receive
