import TelephonySms.Pages
import TelephonySms.Receive.Database

/-! # Combining stored parts

`SmsReceiveHandler::CombineMessagePart` with what it calls: the completeness
check over the stored rows, the deletion of a group, and the broadcast or WAP
push that hands a message on. Every function passes the table explicitly and
lists what it emits; `GsmSmsMessage::CreateMessage`, which parses a stored PDU
again, is an argument.
-/

namespace TelephonySms.Receive

/-! ## Messages -/

/-- `SmsConcat`; only its counters are read here. -/
structure SmsConcat where
  msgRef : Nat
  seqNum : Nat
  totalSeg : Nat
deriving DecidableEq, Repr

/-- The getters of `SmsBaseMessage` the receive path calls. A message is
concatenated when `concatMsg` is present, which is also how `IsConcatMsg`
decides it. -/
structure SmsBaseMessage where
  rawPdu : Pdu
  scTimestamp : Int
  destPort : Int
  originatingAddress : String
  visibleOriginatingAddress : String
  visibleMessageBody : String
  rawUserData : Pdu
  rawWapPushUserData : Pdu
  concatMsg : Option SmsConcat
deriving DecidableEq, Repr

def SmsBaseMessage.isConcatMsg (m : SmsBaseMessage) : Bool := m.concatMsg.isSome

/-- The two constructors of `SmsReceiveIndexer` with a false `isCdmaWapPdu`. -/
def SmsBaseMessage.toIndexer (m : SmsBaseMessage) (isCdma : Bool) : SmsReceiveIndexer where
  pdu := m.rawPdu
  timestamp := m.scTimestamp
  destPort := m.destPort
  isCdma := isCdma
  visibleMessageBody := m.visibleMessageBody
  originatingAddress := m.originatingAddress
  visibleAddress := m.visibleOriginatingAddress
  msgRefId := (m.concatMsg.map (·.msgRef)).getD 0
  msgSeqId := (m.concatMsg.map (·.seqNum)).getD 1
  msgCount := (m.concatMsg.map (·.totalSeg)).getD 1
  dataBaseId := 0
  rawUserData := []
  rawWapPushUserData := []

/-- The CDMA getters read before a message is stored. -/
structure CdmaSmsMessage extends SmsBaseMessage where
  isBroadcastMsg : Bool
  transTeleService : Nat
  isStatusReport : Bool
  msgRef : Nat
deriving DecidableEq, Repr

/-! ## What the receive path emits -/

inductive SmsAction where
  | smsReceiveCompleted
  | ctAutoRegSmsReceiveCompleted
deriving DecidableEq, Repr

/-- `SMS_BROADCAST_SMS_TEXT_TYPE_KEY` with code 0, or
`SMS_BROADCAST_SMS_DATA_TYPE_KEY` with code 1 and the port. -/
inductive ReceiveCode where
  | text
  | data (port : Int)
deriving DecidableEq, Repr

/-- The common event built by `PacketSmsData` and `SendBroadcast`. -/
structure SmsBroadcast where
  action : SmsAction
  slotId : Nat
  isCdma : Bool
  code : ReceiveCode
  pdus : List Pdu
  dataBaseId : Nat
  msgRefId : Nat
  address : String
  msgCount : Nat
deriving DecidableEq, Repr

def SmsBroadcast.groupKey (b : SmsBroadcast) : GroupKey := ⟨b.address, b.msgRefId, b.msgCount⟩

inductive Effect where
  | broadcast (b : SmsBroadcast)
  /-- `DecodeWapPushPdu` is called with these arguments. -/
  | wapPush (slotId : Nat) (indexer : SmsReceiveIndexer) (wapPdu : Pdu)
  /-- A delete statement removed exactly these rows. -/
  | deleted (rows : List SmsSubsection)
  | cbBroadcast (slotId : Nat) (m : CdmaSmsMessage)
  | statusReport (msgRefId : Nat) (pdu : Pdu)
  /-- `substr` threw past the end of a WAP user data text. -/
  | outOfRange
deriving DecidableEq, Repr

/-- What the data share service and the device answer during one event. -/
structure DataShare where
  insertOk : Bool
  deleteOk : Bool
  smsCapable : Bool
  deadlineTime : Int
deriving DecidableEq, Repr

/-! ## The completeness check -/

/-- The locals of the loop in `CombineMultiPageMessage`; `count` is an `int8_t`. -/
structure CombineState where
  count : Int
  pdus : List Pdu
  notNullPart : Int
deriving DecidableEq, Repr

/-- One iteration; `none` is the exit on a sequence number outside the message. -/
def combineRow (msgSeg : Nat) (st : CombineState) (v : SmsReceiveIndexer) :
    Option CombineState :=
  let count := (st.count + 1).bmod 256
  let pos : Int := (v.msgSeqId : Int) - 1
  if pos ≥ msgSeg ∨ pos < 0 then none
  else
    some {
      count := count
      pdus := st.pdus.set pos.toNat v.pdu
      notNullPart := if v.pdu.length = 0 then st.notNullPart - 1 else st.notNullPart }

def combineRows (msgSeg : Nat) (rows : List SmsReceiveIndexer) : Option CombineState :=
  rows.foldlM (combineRow msgSeg) ⟨0, List.replicate msgSeg [], msgSeg⟩

def wapSeqNumberTag : Pdu := [0x00, 0x03]
def wapSeqNumberLen : Nat := 5

/-- The WAP user data of one page without a leading sequence header; a text that
starts like the header and ends inside it makes `substr` throw. -/
def stripWapSeqNumber (wapData : Pdu) : Option Pdu :=
  if wapData.take 2 = wapSeqNumberTag then
    if wapData.length < wapSeqNumberLen then none else some (wapData.drop wapSeqNumberLen)
  else some wapData

def combinedWapUserData (pages : List SmsBaseMessage) : Option Pdu := do
  let data ← pages.mapM fun m => stripWapSeqNumber m.rawWapPushUserData
  return data.flatten

section CreateMessage

variable (createMessage : Pdu → Option SmsBaseMessage)

/-- The messages `UpdateMultiPageMessage` reads: empty and unparsable texts are
skipped. -/
def pageMessages (pdus : List Pdu) : List SmsBaseMessage :=
  (pdus.filter (· ≠ [])).filterMap createMessage

def updateMultiPageMessage (indexer : SmsReceiveIndexer) (pdus : List Pdu) :
    Option SmsReceiveIndexer :=
  let pages := pageMessages createMessage pdus
  let indexer := { indexer with
    visibleMessageBody := String.join (pages.map SmsBaseMessage.visibleMessageBody)
    rawUserData := pages.flatMap SmsBaseMessage.rawUserData }
  if indexer.getIsWapPushMsg then
    (combinedWapUserData pages).map fun data => { indexer with rawWapPushUserData := data }
  else some indexer

/-- `SmsReceiveReliabilityHandler::DeleteMessageFormDb`. -/
def deleteMessageFormDb (ds : DataShare) (t : SmsTable) (refId dataBaseId msgCount : Nat)
    (address : String) : SmsTable × List Effect :=
  if refId = 0 ∧ dataBaseId = 0 then (t, [])
  else if ds.deleteOk then
    (t.delete ⟨address, refId, msgCount⟩, [.deleted (t.query ⟨address, refId, msgCount⟩)])
  else (t, [])

inductive CombineResult where
  | incomplete
  | complete (indexer : SmsReceiveIndexer) (pdus : List Pdu)
  | thrown
deriving DecidableEq, Repr

def combineMultiPageMessage (ds : DataShare) (t : SmsTable) (indexer : SmsReceiveIndexer) :
    CombineResult × SmsTable × List Effect :=
  let msgSeg := indexer.msgCount
  match combineRows msgSeg ((t.query indexer.groupKey).map (·.toIndexer)) with
  | none =>
      (.incomplete, deleteMessageFormDb ds t indexer.msgRefId indexer.dataBaseId
        indexer.msgCount indexer.originatingAddress)
  | some st =>
      if st.count ≠ msgSeg ∨ st.pdus = [] ∨ st.notNullPart ≠ msgSeg then (.incomplete, t, [])
      else
        match updateMultiPageMessage createMessage indexer st.pdus with
        | some indexer => (.complete indexer st.pdus, t, [])
        | none => (.thrown, t, [])

/-! ## Handing a message on -/

def isCtSmsc (address : String) : Bool :=
  address = "10659401" || address = "8610659401" || address = "+8610659401"

def packetSmsData (slotId : Nat) (indexer : SmsReceiveIndexer) (pdus : List Pdu) :
    SmsBroadcast where
  action :=
    if isCtSmsc indexer.originatingAddress then .ctAutoRegSmsReceiveCompleted
    else .smsReceiveCompleted
  slotId := slotId
  isCdma := indexer.isCdma
  code := if indexer.getIsText then .text else .data indexer.destPort
  pdus := pdus
  dataBaseId := indexer.dataBaseId
  msgRefId := indexer.msgRefId
  address := indexer.originatingAddress
  msgCount := indexer.msgCount

/-- `SendBroadcast`; the rows of an automatic registration are deleted at once. -/
def sendBroadcast (ds : DataShare) (slotId : Nat) (t : SmsTable) (indexer : SmsReceiveIndexer)
    (pdus : List Pdu) : SmsTable × List Effect :=
  let newPdus := pdus.filter (· ≠ [])
  let out := [Effect.broadcast (packetSmsData slotId indexer newPdus)]
  if isCtSmsc indexer.originatingAddress then
    let (t, del) := deleteMessageFormDb ds t indexer.msgRefId indexer.dataBaseId
      indexer.msgCount indexer.originatingAddress
    (t, out ++ del)
  else (t, out)

/-- The tail of `CombineMessagePart`, once all pages are there. -/
def deliverMessage (ds : DataShare) (slotId : Nat) (t : SmsTable) (indexer : SmsReceiveIndexer)
    (pdus : List Pdu) : SmsTable × List Effect :=
  if indexer.getIsWapPushMsg then
    (t, [.wapPush slotId indexer indexer.rawWapPushUserData])
  else sendBroadcast ds slotId t indexer pdus

def combineMessagePart (ds : DataShare) (slotId : Nat) (t : SmsTable)
    (indexer : SmsReceiveIndexer) : SmsTable × List Effect :=
  if indexer.isSingleMsg then deliverMessage ds slotId t indexer [indexer.pdu]
  else
    match combineMultiPageMessage createMessage ds t indexer with
    | (.incomplete, t, out) => (t, out)
    | (.thrown, t, out) => (t, out ++ [.outOfRange])
    | (.complete indexer pdus, t, out) =>
        let (t, sent) := deliverMessage ds slotId t indexer pdus
        (t, out ++ sent)

end CreateMessage

/-! ## Before a part is combined -/

def isRepeatedMessagePart (t : SmsTable) (indexer : SmsReceiveIndexer) : Bool :=
  (t.query indexer.groupKey).any fun r => r.toIndexer.msgSeqId = indexer.msgSeqId

/-- `AddMsgToDB`: the indexer leaves with the key of its row. -/
def addMsgToDB (ds : DataShare) (slotId : Nat) (t : SmsTable) (indexer : SmsReceiveIndexer) :
    Option (SmsTable × SmsReceiveIndexer) :=
  if ds.insertOk then
    some (t.insert slotId indexer, indexer.setDataBaseId t.nextId)
  else none

/-- `DeleteExpireSmsFromDB` with its result. -/
def deleteExpireSmsFromDB (ds : DataShare) (slotId : Nat) (t : SmsTable) :
    Bool × SmsTable × List Effect :=
  if ds.deadlineTime ≤ 0 ∨ ds.deleteOk = false then (false, t, [])
  else
    (true, t.deleteExpired slotId ds.deadlineTime,
      [.deleted (t.expired slotId ds.deadlineTime)])

/-! ## What the completeness check decides -/

open TelephonySms.Pages

/-- Every row is a part of the message, and no two rows are the same part. -/
structure DistinctParts (msgSeg : Nat) (rows : List SmsSubsection) : Prop where
  inRange : ∀ r ∈ rows, 1 ≤ r.subsectionIndex ∧ r.subsectionIndex ≤ msgSeg
  nodup : (rows.map (·.subsectionIndex)).Nodup

/-- Each sequence number of the message is stored with a PDU that is not empty. -/
def Covered (msgSeg : Nat) (rows : List SmsSubsection) : Prop :=
  ∀ n, 1 ≤ n → n ≤ msgSeg → ∃ r ∈ rows, r.subsectionIndex = n ∧ r.rewPdu ≠ []

def pagesOf (msgSeg : Nat) (rows : List SmsSubsection) : List Pdu :=
  place (fun r : SmsSubsection => r.subsectionIndex - 1) (·.rewPdu)
    (List.replicate msgSeg []) rows

theorem DistinctParts.sublist {msgSeg : Nat} {rows rows' : List SmsSubsection}
    (h : DistinctParts msgSeg rows) (hsub : rows'.Sublist rows) : DistinctParts msgSeg rows' where
  inRange r hr := h.inRange r (hsub.subset hr)
  nodup := h.nodup.sublist (hsub.map _)

theorem DistinctParts.append {msgSeg : Nat} {rows : List SmsSubsection} {r : SmsSubsection}
    (h : DistinctParts msgSeg rows) (hr : 1 ≤ r.subsectionIndex ∧ r.subsectionIndex ≤ msgSeg)
    (hnew : ∀ q ∈ rows, q.subsectionIndex ≠ r.subsectionIndex) :
    DistinctParts msgSeg (rows ++ [r]) where
  inRange q hq := by
    rcases List.mem_append.mp hq with hq | hq
    · exact h.inRange q hq
    · simpa [List.mem_singleton.mp hq] using hr
  nodup := by
    rw [List.map_append, List.nodup_append]
    refine ⟨h.nodup, by simp, ?_⟩
    intro n hn k hk
    obtain ⟨q, hq, rfl⟩ := List.mem_map.mp hn
    simpa [List.mem_singleton.mp hk] using hnew q hq

/-- The positions the rows are written to. -/
theorem DistinctParts.positions {msgSeg : Nat} {rows : List SmsSubsection}
    (h : DistinctParts msgSeg rows) :
    (rows.map fun r => r.subsectionIndex - 1).Nodup ∧
      ∀ k ∈ rows.map (fun r => r.subsectionIndex - 1), k < msgSeg := by
  have hmap : (rows.map fun r => r.subsectionIndex - 1) =
      (rows.map (·.subsectionIndex)).map (· - 1) := by simp
  constructor
  · rw [hmap]
    apply List.Nodup.map_on _ h.nodup
    intro a ha b hb hab
    obtain ⟨r, hr, rfl⟩ := List.mem_map.mp ha
    obtain ⟨q, hq, rfl⟩ := List.mem_map.mp hb
    have := h.inRange r hr
    have := h.inRange q hq
    omega
  · intro k hk
    obtain ⟨r, hr, rfl⟩ := List.mem_map.mp hk
    have := h.inRange r hr
    omega

theorem covered_iff_length {msgSeg : Nat} {rows : List SmsSubsection}
    (h : DistinctParts msgSeg rows) :
    Covered msgSeg rows ↔ rows.length = msgSeg ∧ ∀ r ∈ rows, r.rewPdu ≠ [] := by
  obtain ⟨hnodup, hlt⟩ := h.positions
  have hlen := length_eq_iff_forall_mem hnodup hlt
  rw [List.length_map] at hlen
  rw [hlen]
  constructor
  · intro hcov
    refine ⟨fun k hk => ?_, fun r hr => ?_⟩
    · obtain ⟨r, hr, hseq, _⟩ := hcov (k + 1) (by omega) (by omega)
      exact List.mem_map.mpr ⟨r, hr, by omega⟩
    · -- the row that covers this sequence number is the row itself
      have hrange := h.inRange r hr
      obtain ⟨q, hq, hseq, hne⟩ := hcov r.subsectionIndex hrange.1 hrange.2
      rwa [← List.inj_on_of_nodup_map h.nodup hq hr hseq]
  · rintro ⟨hall, hne⟩ n h1 hn
    obtain ⟨r, hr, hk⟩ := List.mem_map.mp (hall (n - 1) (by omega))
    have := h.inRange r hr
    exact ⟨r, hr, by omega, hne r hr⟩

theorem foldlM_combineRow {msgSeg : Nat} {rows : List SmsSubsection}
    (h : ∀ r ∈ rows, 1 ≤ r.subsectionIndex ∧ r.subsectionIndex ≤ msgSeg) (count : Int)
    (pdus : List Pdu) (notNullPart : Int) :
    (rows.map (·.toIndexer)).foldlM (combineRow msgSeg) ⟨count.bmod 256, pdus, notNullPart⟩ =
      some ⟨(count + rows.length).bmod 256,
        place (fun r : SmsSubsection => r.subsectionIndex - 1) (·.rewPdu) pdus rows,
        notNullPart - rows.countP (·.rewPdu = [])⟩ := by
  induction rows generalizing count pdus notNullPart with
  | nil => simp
  | cons r rows ih =>
      have hr := h r (by simp)
      have hpos : ((r.subsectionIndex : Int) - 1).toNat = r.subsectionIndex - 1 := by omega
      have hrow : combineRow msgSeg ⟨count.bmod 256, pdus, notNullPart⟩ r.toIndexer =
          some ⟨(count + 1).bmod 256, pdus.set (r.subsectionIndex - 1) r.rewPdu,
            if r.rewPdu = [] then notNullPart - 1 else notNullPart⟩ := by
        have hin : ¬ ((r.subsectionIndex : Int) - 1 ≥ msgSeg ∨
            (r.subsectionIndex : Int) - 1 < 0) := by omega
        unfold combineRow
        dsimp only [SmsSubsection.toIndexer]
        rw [if_neg hin, hpos]
        simp
      rw [List.map_cons, List.foldlM_cons, hrow]
      simp only [Option.bind_eq_bind, Option.bind_some]
      have hcount : count + 1 + (rows.length : Int) = count + ((r :: rows).length : Int) := by
        simp only [List.length_cons]
        omega
      rw [ih fun q hq => h q (by simp [hq]), hcount]
      by_cases hnil : r.rewPdu = []
      · have hcountP : (r :: rows).countP (·.rewPdu = []) = rows.countP (·.rewPdu = []) + 1 :=
          List.countP_cons_of_pos (by simp [hnil])
        simp only [place_cons, hnil, if_true, hcountP]
        congr 2
        omega
      · simp [place_cons, hnil]

theorem combineRows_of_distinctParts {msgSeg : Nat} {rows : List SmsSubsection}
    (h : DistinctParts msgSeg rows) (hmax : msgSeg ≤ 127) :
    combineRows msgSeg (rows.map (·.toIndexer)) =
      some ⟨rows.length, pagesOf msgSeg rows, msgSeg - rows.countP (·.rewPdu = [])⟩ := by
  have hlen : rows.length ≤ msgSeg := by
    simpa using length_le_of_nodup h.positions.1 h.positions.2
  have hbmod : ((rows.length : Int)).bmod 256 = rows.length :=
    Int.bmod_eq_of_le (by omega) (by omega)
  have hfold := foldlM_combineRow h.inRange 0 (List.replicate msgSeg []) msgSeg
  rw [Int.zero_add, hbmod] at hfold
  exact hfold

section CreateMessage

variable (createMessage : Pdu → Option SmsBaseMessage)

/-- With distinct parts and at most 127 of them, counting decides coverage. -/
theorem combineMultiPageMessage_of_distinctParts (ds : DataShare) (t : SmsTable)
    (indexer : SmsReceiveIndexer)
    (h : DistinctParts indexer.msgCount (t.query indexer.groupKey))
    (hpos : 1 ≤ indexer.msgCount) (hmax : indexer.msgCount ≤ 127) :
    (Covered indexer.msgCount (t.query indexer.groupKey) →
      combineMultiPageMessage createMessage ds t indexer =
        (match updateMultiPageMessage createMessage indexer
            (pagesOf indexer.msgCount (t.query indexer.groupKey)) with
          | some indexer' =>
              .complete indexer' (pagesOf indexer.msgCount (t.query indexer.groupKey))
          | none => .thrown, t, [])) ∧
    (¬ Covered indexer.msgCount (t.query indexer.groupKey) →
      combineMultiPageMessage createMessage ds t indexer = (.incomplete, t, [])) := by
  have hrows := combineRows_of_distinctParts h hmax
  have hcov := covered_iff_length h
  have hpages : pagesOf indexer.msgCount (t.query indexer.groupKey) ≠ [] := by
    apply List.ne_nil_of_length_pos
    simp only [pagesOf, length_place, List.length_replicate]
    omega
  have hnull : (t.query indexer.groupKey).countP (·.rewPdu = []) = 0 ↔
      ∀ r ∈ t.query indexer.groupKey, r.rewPdu ≠ [] := by
    simp [List.countP_eq_zero]
  constructor
  · intro hc
    obtain ⟨hlen, hne⟩ := hcov.mp hc
    have hzero := hnull.mpr hne
    simp only [combineMultiPageMessage, hrows]
    rw [if_neg (by simp [hlen, hzero, hpages])]
    cases updateMultiPageMessage createMessage indexer
      (pagesOf indexer.msgCount (t.query indexer.groupKey)) <;> rfl
  · intro hc
    simp only [combineMultiPageMessage, hrows]
    rw [if_pos ?_]
    by_cases hlen : (t.query indexer.groupKey).length = indexer.msgCount
    · have hzero : (t.query indexer.groupKey).countP (·.rewPdu = []) ≠ 0 :=
        fun hzero => hc (hcov.mpr ⟨hlen, hnull.mp hzero⟩)
      omega
    · omega

end CreateMessage

/-! ## What combining leaves of the table -/

theorem deleteMessageFormDb_spec (ds : DataShare) (t : SmsTable)
    (refId dataBaseId msgCount : Nat) (address : String) :
    (deleteMessageFormDb ds t refId dataBaseId msgCount address = (t, [])) ∨
      deleteMessageFormDb ds t refId dataBaseId msgCount address =
        (t.delete ⟨address, refId, msgCount⟩,
          [.deleted (t.query ⟨address, refId, msgCount⟩)]) := by
  unfold deleteMessageFormDb
  split
  · exact .inl rfl
  · split
    · exact .inr rfl
    · exact .inl rfl

/-- The table `t'` is `t`, possibly without one group. -/
def GroupDeleted (key : GroupKey) (t t' : SmsTable) : Prop := t' = t ∨ t' = t.delete key

theorem GroupDeleted.rows {key : GroupKey} {t t' : SmsTable} (h : GroupDeleted key t t') :
    t'.rows.Sublist t.rows := by
  rcases h with rfl | rfl
  · exact List.Sublist.refl _
  · exact List.filter_sublist

theorem GroupDeleted.nextId {key : GroupKey} {t t' : SmsTable} (h : GroupDeleted key t t') :
    t'.nextId = t.nextId := by
  rcases h with rfl | rfl <;> rfl

theorem GroupDeleted.trans {key : GroupKey} {t t' t'' : SmsTable} (h : GroupDeleted key t t')
    (h' : GroupDeleted key t' t'') : GroupDeleted key t t'' := by
  rcases h with rfl | rfl
  · exact h'
  · rcases h' with rfl | rfl
    · exact .inr rfl
    · exact .inr (by simp)

theorem deleteMessageFormDb_table (ds : DataShare) (t : SmsTable)
    (refId dataBaseId msgCount : Nat) (address : String) :
    GroupDeleted ⟨address, refId, msgCount⟩ t
      (deleteMessageFormDb ds t refId dataBaseId msgCount address).1 := by
  rcases deleteMessageFormDb_spec ds t refId dataBaseId msgCount address with h | h <;> rw [h]
  · exact .inl rfl
  · exact .inr rfl

theorem deliverMessage_table (ds : DataShare) (slotId : Nat) (t : SmsTable)
    (indexer : SmsReceiveIndexer) (pdus : List Pdu) :
    GroupDeleted indexer.groupKey t (deliverMessage ds slotId t indexer pdus).1 := by
  unfold deliverMessage sendBroadcast
  split
  · exact .inl rfl
  · split
    · exact deleteMessageFormDb_table ds t indexer.msgRefId indexer.dataBaseId indexer.msgCount
        indexer.originatingAddress
    · exact .inl rfl

section CreateMessage

variable (createMessage : Pdu → Option SmsBaseMessage)

/-- The update changes texts only. -/
theorem updateMultiPageMessage_keys {i j : SmsReceiveIndexer} {pdus : List Pdu}
    (h : updateMultiPageMessage createMessage i pdus = some j) :
    j.groupKey = i.groupKey ∧ j.dataBaseId = i.dataBaseId := by
  simp only [updateMultiPageMessage] at h
  split at h
  · obtain ⟨data, _, rfl⟩ := Option.map_eq_some_iff.mp h
    exact ⟨rfl, rfl⟩
  · cases h
    exact ⟨rfl, rfl⟩

theorem combineMultiPageMessage_table (ds : DataShare) (t : SmsTable)
    (indexer : SmsReceiveIndexer) :
    GroupDeleted indexer.groupKey t
        (combineMultiPageMessage createMessage ds t indexer).2.1 ∧
      ∀ indexer' pdus, (combineMultiPageMessage createMessage ds t indexer).1 =
        .complete indexer' pdus →
          indexer'.groupKey = indexer.groupKey ∧ indexer'.dataBaseId = indexer.dataBaseId := by
  simp only [combineMultiPageMessage]
  split
  · exact ⟨deleteMessageFormDb_table .., by simp⟩
  · split
    · exact ⟨.inl rfl, by simp⟩
    · split
      · rename_i updated hupdate
        refine ⟨.inl rfl, fun indexer' pdus hres => ?_⟩
        cases hres
        exact updateMultiPageMessage_keys createMessage hupdate
      · exact ⟨.inl rfl, by simp⟩

theorem combineMessagePart_table (ds : DataShare) (slotId : Nat) (t : SmsTable)
    (indexer : SmsReceiveIndexer) :
    GroupDeleted indexer.groupKey t
      (combineMessagePart createMessage ds slotId t indexer).1 := by
  unfold combineMessagePart
  split
  · exact deliverMessage_table ..
  · obtain ⟨hmulti, hkey⟩ := combineMultiPageMessage_table createMessage ds t indexer
    generalize combineMultiPageMessage createMessage ds t indexer = res at hmulti hkey ⊢
    obtain ⟨result, t', out⟩ := res
    cases result with
    | incomplete => exact hmulti
    | thrown => exact hmulti
    | complete indexer' pdus =>
        have hdel := deliverMessage_table ds slotId t' indexer' pdus
        rw [(hkey indexer' pdus rfl).1] at hdel
        exact hmulti.trans hdel

end CreateMessage

end TelephonySms.Receive
