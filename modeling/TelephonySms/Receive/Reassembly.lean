import TelephonySms.Receive.Handler
import TelephonySms.Machine

/-! # Reassembly of text messages

The parts of concatenated text messages arrive at one GSM handler in any order
and any number of times. Between arrivals rows may be deleted, by the subscriber
of a published message or because they expired. A message is broadcast by the
arrival of its last missing part and by no other.
-/

namespace TelephonySms.Receive

open TelephonySms.Machine TelephonySms.Pages

/-- The broadcast among the effects. -/
def Effect.broadcast? : Effect → Option SmsBroadcast
  | .broadcast b => some b
  | _ => none

/-- The rows removed by the effect. -/
def Effect.deletedRows : Effect → List SmsSubsection
  | .deleted rows => rows
  | _ => []

inductive PartEvent where
  /-- `HandleNormalSmsByType` is called. -/
  | arrive (ds : DataShare) (m : GsmSmsMessage)
  /-- `DeleteMessageFormDb` is called by the subscriber. -/
  | deleteMessage (ds : DataShare) (refId dataBaseId msgCount : Nat) (address : String)
  | deleteExpired (ds : DataShare)
deriving DecidableEq, Repr

section Run

variable (createMessage : Pdu → Option SmsBaseMessage) (slotId : Nat)

def partStep (t : SmsTable) : PartEvent → SmsTable × List Effect
  | .arrive ds m =>
      (GsmSmsReceiveHandler.handleNormalSmsByType createMessage slotId ds t m).2
  | .deleteMessage ds refId dataBaseId msgCount address =>
      deleteMessageFormDb ds t refId dataBaseId msgCount address
  | .deleteExpired ds => (deleteExpireSmsFromDB ds slotId t).2

end Run

/-! ## What has arrived -/

/-- The parts of one message in the order they arrived, repetitions included. -/
def arrivedParts (es : List PartEvent) (key : GroupKey) : List (Nat × Pdu) :=
  es.filterMap fun
    | .arrive _ m =>
        if m.indexer.groupKey = key then some (m.indexer.msgSeqId, m.indexer.pdu) else none
    | _ => none

def Arrived (es : List PartEvent) (key : GroupKey) (n : Nat) : Prop :=
  n ∈ (arrivedParts es key).map Prod.fst

instance (es : List PartEvent) (key : GroupKey) (n : Nat) : Decidable (Arrived es key n) :=
  inferInstanceAs (Decidable (n ∈ (arrivedParts es key).map Prod.fst))

def MessageArrived (es : List PartEvent) (key : GroupKey) : Prop :=
  ∀ n, 1 ≤ n → n ≤ key.msgCount → Arrived es key n

/-- The PDU with which part `n` arrived first. -/
def firstPdu (es : List PartEvent) (key : GroupKey) (n : Nat) : Pdu :=
  (((arrivedParts es key).find? (·.1 = n)).map Prod.snd).getD []

/-- A part of a concatenated text message, as the network delivers it. -/
structure GsmSmsMessage.IsTextPart (m : GsmSmsMessage) : Prop where
  text : m.destPort = textPortNum
  concat : m.isConcatMsg = true
  total : 2 ≤ m.indexer.msgCount ∧ m.indexer.msgCount ≤ 127
  seq : 1 ≤ m.indexer.msgSeqId ∧ m.indexer.msgSeqId ≤ m.indexer.msgCount
  pdu : m.rawPdu ≠ []

/-- The deliveries of a run: parts of text messages, each stored successfully and
none after rows of its message were deleted, over a table that starts without
them. -/
structure Deliveries (createMessage : Pdu → Option SmsBaseMessage) (slotId : Nat)
    (t₀ : SmsTable) (es : List PartEvent) : Prop where
  part : ∀ ds m, .arrive ds m ∈ es → m.IsTextPart ∧ ds.insertOk = true
  fresh : ∀ ds m, .arrive ds m ∈ es → t₀.query m.indexer.groupKey = []
  live : ∀ es₁ es₂ ds m, es = es₁ ++ .arrive ds m :: es₂ →
    ∀ e ∈ outputs (partStep createMessage slotId) t₀ es₁,
      ∀ r ∈ e.deletedRows, r.groupKey ≠ m.indexer.groupKey

variable {createMessage : Pdu → Option SmsBaseMessage} {slotId : Nat}

theorem Deliveries.of_append {t₀ : SmsTable} {es es' : List PartEvent}
    (h : Deliveries createMessage slotId t₀ (es ++ es')) :
    Deliveries createMessage slotId t₀ es where
  part ds m hm := h.part ds m (by simp [hm])
  fresh ds m hm := h.fresh ds m (by simp [hm])
  live es₁ es₂ ds m hes := h.live es₁ (es₂ ++ es') ds m (by simp [hes])

theorem arrivedParts_arrive (es : List PartEvent) (ds : DataShare) (m : GsmSmsMessage)
    (key : GroupKey) :
    arrivedParts (es ++ [PartEvent.arrive ds m]) key =
      arrivedParts es key ++
        if m.indexer.groupKey = key then [(m.indexer.msgSeqId, m.indexer.pdu)] else [] := by
  by_cases h : m.indexer.groupKey = key <;> simp [arrivedParts, h]

theorem arrived_arrive {es : List PartEvent} {ds : DataShare} {m : GsmSmsMessage} {n : Nat} :
    Arrived (es ++ [PartEvent.arrive ds m]) m.indexer.groupKey n ↔
      Arrived es m.indexer.groupKey n ∨ n = m.indexer.msgSeqId := by
  simp [Arrived, arrivedParts_arrive]

/-- Later deliveries do not change the PDU a part arrived with first. -/
theorem firstPdu_append {es es' : List PartEvent} {key : GroupKey} {n : Nat}
    (h : Arrived es key n) : firstPdu (es ++ es') key n = firstPdu es key n := by
  obtain ⟨p, hp, rfl⟩ := List.mem_map.mp h
  obtain ⟨q, hq⟩ := Option.isSome_iff_exists.mp
    (List.find?_isSome.mpr ⟨p, hp, by simp⟩ : ((arrivedParts es key).find? (·.1 = p.1)).isSome)
  have happ : arrivedParts (es ++ es') key = arrivedParts es key ++ arrivedParts es' key := by
    simp [arrivedParts]
  simp [firstPdu, happ, hq]

theorem firstPdu_arrive {es : List PartEvent} {ds : DataShare} {m : GsmSmsMessage}
    (h : ¬ Arrived es m.indexer.groupKey m.indexer.msgSeqId) :
    firstPdu (es ++ [PartEvent.arrive ds m]) m.indexer.groupKey m.indexer.msgSeqId =
      m.indexer.pdu := by
  have hnone : (arrivedParts es m.indexer.groupKey).find? (·.1 = m.indexer.msgSeqId) = none := by
    rw [List.find?_eq_none]
    intro p hp heq
    exact h (List.mem_map.mpr ⟨p, hp, by simpa using heq⟩)
  simp [firstPdu, arrivedParts_arrive, hnone]

/-! ## What is stored of a message -/

/-- The rows of a message are its parts as they arrived first. -/
structure StoredAsArrived (es : List PartEvent) (key : GroupKey) (rows : List SmsSubsection) :
    Prop where
  distinct : DistinctParts key.msgCount rows
  stored : ∀ n, Arrived es key n ↔ ∃ r ∈ rows, r.subsectionIndex = n
  pdu : ∀ r ∈ rows, r.rewPdu = firstPdu es key r.subsectionIndex ∧ r.rewPdu ≠ []

theorem StoredAsArrived.covered_iff {es : List PartEvent} {key : GroupKey}
    {rows : List SmsSubsection} (h : StoredAsArrived es key rows) :
    Covered key.msgCount rows ↔ MessageArrived es key := by
  constructor
  · intro hcov n h1 hn
    obtain ⟨r, hr, hseq, _⟩ := hcov n h1 hn
    exact (h.stored n).mpr ⟨r, hr, hseq⟩
  · intro hall n h1 hn
    obtain ⟨r, hr, hseq⟩ := (h.stored n).mp (hall n h1 hn)
    exact ⟨r, hr, hseq, (h.pdu r hr).2⟩

theorem StoredAsArrived.pagesOf_eq {es : List PartEvent} {key : GroupKey}
    {rows : List SmsSubsection} (h : StoredAsArrived es key rows)
    (hall : MessageArrived es key) :
    pagesOf key.msgCount rows =
      (List.range key.msgCount).map fun k => firstPdu es key (k + 1) := by
  apply place_eq_map_range [] h.distinct.positions.1
  intro k hk
  obtain ⟨r, hr, hseq⟩ := (h.stored (k + 1)).mp (hall (k + 1) (by omega) (by omega))
  exact ⟨r, hr, by omega, by rw [(h.pdu r hr).1, hseq]⟩

/-- Storing a part that has not arrived before. -/
theorem StoredAsArrived.arrive {es : List PartEvent} {m : GsmSmsMessage}
    {rows : List SmsSubsection} (h : StoredAsArrived es m.indexer.groupKey rows)
    (hm : m.IsTextPart) (hnew : ¬ Arrived es m.indexer.groupKey m.indexer.msgSeqId)
    (ds : DataShare) (id slotId : Nat) :
    StoredAsArrived (es ++ [PartEvent.arrive ds m]) m.indexer.groupKey
      (rows ++ [.ofIndexer id slotId m.indexer]) where
  distinct := by
    apply h.distinct.append hm.seq
    intro r hr hseq
    exact hnew ((h.stored _).mpr ⟨r, hr, hseq⟩)
  stored n := by
    rw [arrived_arrive, h.stored n]
    constructor
    · rintro (⟨r, hr, hseq⟩ | rfl)
      · exact ⟨r, by simp [hr], hseq⟩
      · exact ⟨.ofIndexer id slotId m.indexer, by simp, rfl⟩
    · rintro ⟨r, hr, hseq⟩
      rcases List.mem_append.mp hr with hr | hr
      · exact .inl ⟨r, hr, hseq⟩
      · rw [List.mem_singleton.mp hr] at hseq
        exact .inr hseq.symm
  pdu r hr := by
    rcases List.mem_append.mp hr with hr | hr
    · have harrived := (h.stored r.subsectionIndex).mpr ⟨r, hr, rfl⟩
      rw [firstPdu_append harrived]
      exact h.pdu r hr
    · rw [List.mem_singleton.mp hr]
      exact ⟨(firstPdu_arrive hnew).symm, hm.pdu⟩

/-- A repeated delivery changes nothing. -/
theorem StoredAsArrived.repeat {es : List PartEvent} {ds : DataShare} {m : GsmSmsMessage}
    {rows : List SmsSubsection} (h : StoredAsArrived es m.indexer.groupKey rows)
    (hold : Arrived es m.indexer.groupKey m.indexer.msgSeqId) :
    StoredAsArrived (es ++ [PartEvent.arrive ds m]) m.indexer.groupKey rows where
  distinct := h.distinct
  stored n := by
    rw [arrived_arrive, ← h.stored n]
    constructor
    · rintro (hn | rfl)
      · exact hn
      · exact hold
    · exact .inl
  pdu r hr := by
    have harrived := (h.stored r.subsectionIndex).mpr ⟨r, hr, rfl⟩
    rw [firstPdu_append harrived]
    exact h.pdu r hr

/-- Events that bring no part of the message leave what has arrived of it. -/
theorem StoredAsArrived.of_arrivedParts_eq {es es' : List PartEvent} {key : GroupKey}
    {rows : List SmsSubsection} (h : StoredAsArrived es key rows)
    (heq : arrivedParts es' key = arrivedParts es key) : StoredAsArrived es' key rows where
  distinct := h.distinct
  stored n := by simpa [Arrived, heq] using h.stored n
  pdu r hr := by simpa [firstPdu, heq] using h.pdu r hr

/-! ## One arrival -/

theorem isRepeated_iff_arrived {es : List PartEvent} {t : SmsTable} {m : GsmSmsMessage}
    (hm : m.IsTextPart) (h : StoredAsArrived es m.indexer.groupKey (t.query m.indexer.groupKey)) :
    GsmSmsReceiveHandler.isRepeated t m = true ↔
      Arrived es m.indexer.groupKey m.indexer.msgSeqId := by
  have htext : m.indexer.getIsText = true := decide_eq_true hm.text
  rw [h.stored]
  simp only [GsmSmsReceiveHandler.isRepeated, htext, hm.concat, Bool.true_and,
    isRepeatedMessagePart, List.any_eq_true]
  constructor
  · rintro ⟨r, hr, hseq⟩
    exact ⟨r, hr, of_decide_eq_true hseq⟩
  · rintro ⟨r, hr, hseq⟩
    exact ⟨r, hr, decide_eq_true hseq⟩

theorem updateMultiPageMessage_text (createMessage : Pdu → Option SmsBaseMessage)
    {indexer : SmsReceiveIndexer} (h : indexer.getIsWapPushMsg = false) (pdus : List Pdu) :
    ∃ body raw, updateMultiPageMessage createMessage indexer pdus =
      some { indexer with visibleMessageBody := body, rawUserData := raw } := by
  simp only [updateMultiPageMessage]
  rw [if_neg (by simpa [SmsReceiveIndexer.getIsWapPushMsg] using h)]
  exact ⟨_, _, rfl⟩

/-- A message that is no WAP push is broadcast; its rows go at once when it comes
from an automatic registration. -/
theorem deliverMessage_broadcast (ds : DataShare) (slotId : Nat) (t : SmsTable)
    (indexer : SmsReceiveIndexer) {pdus : List Pdu} (hwap : indexer.getIsWapPushMsg = false)
    (hne : ∀ p ∈ pdus, p ≠ []) :
    deliverMessage ds slotId t indexer pdus =
        (t, [.broadcast (packetSmsData slotId indexer pdus)]) ∨
      deliverMessage ds slotId t indexer pdus =
        (t.delete indexer.groupKey, [.broadcast (packetSmsData slotId indexer pdus),
          .deleted (t.query indexer.groupKey)]) := by
  have hfilter : pdus.filter (· ≠ []) = pdus := by
    rw [List.filter_eq_self]
    intro p hp
    simpa using hne p hp
  simp only [deliverMessage, hwap, Bool.false_eq_true, if_false, sendBroadcast, hfilter]
  split
  · rcases deleteMessageFormDb_spec ds t indexer.msgRefId indexer.dataBaseId indexer.msgCount
      indexer.originatingAddress with h | h
    · exact .inl (by simp [h])
    · exact .inr (by simp [h, SmsReceiveIndexer.groupKey])
  · exact .inl rfl

/-- The text message a completing arrival hands on. -/
def reassembled (slotId : Nat) (t : SmsTable) (es : List PartEvent) (m : GsmSmsMessage) :
    SmsBroadcast :=
  packetSmsData slotId (m.indexer.setDataBaseId t.nextId)
    ((List.range m.indexer.msgCount).map fun k => firstPdu es m.indexer.groupKey (k + 1))

/-- The four ways an arrival of a text part ends. -/
inductive ArrivalOutcome (slotId : Nat) (es : List PartEvent) (t : SmsTable) (ds : DataShare)
    (m : GsmSmsMessage) : SmsTable × List Effect → Prop where
  | repeated (old : Arrived es m.indexer.groupKey m.indexer.msgSeqId) :
      ArrivalOutcome slotId es t ds m (t, [])
  | stored (new : ¬ Arrived es m.indexer.groupKey m.indexer.msgSeqId)
      (missing : ¬ MessageArrived (es ++ [.arrive ds m]) m.indexer.groupKey) :
      ArrivalOutcome slotId es t ds m (t.insert slotId m.indexer, [])
  | completed (new : ¬ Arrived es m.indexer.groupKey m.indexer.msgSeqId)
      (all : MessageArrived (es ++ [.arrive ds m]) m.indexer.groupKey) :
      ArrivalOutcome slotId es t ds m (t.insert slotId m.indexer,
        [.broadcast (reassembled slotId t (es ++ [.arrive ds m]) m)])
  | completedAndDeleted (new : ¬ Arrived es m.indexer.groupKey m.indexer.msgSeqId)
      (all : MessageArrived (es ++ [.arrive ds m]) m.indexer.groupKey) :
      ArrivalOutcome slotId es t ds m
        ((t.insert slotId m.indexer).delete m.indexer.groupKey,
        [.broadcast (reassembled slotId t (es ++ [.arrive ds m]) m),
          .deleted ((t.insert slotId m.indexer).query m.indexer.groupKey)])

theorem partStep_arrive_outcome (createMessage : Pdu → Option SmsBaseMessage) (slotId : Nat)
    {es : List PartEvent} {t : SmsTable} {ds : DataShare} {m : GsmSmsMessage}
    (hm : m.IsTextPart) (hins : ds.insertOk = true)
    (h : StoredAsArrived es m.indexer.groupKey (t.query m.indexer.groupKey)) :
    ArrivalOutcome slotId es t ds m (partStep createMessage slotId t (.arrive ds m)) := by
  have hrep := isRepeated_iff_arrived hm h
  simp only [partStep, GsmSmsReceiveHandler.handleNormalSmsByType]
  by_cases hold : Arrived es m.indexer.groupKey m.indexer.msgSeqId
  · rw [if_pos (hrep.mpr hold)]
    exact .repeated hold
  have hport : m.indexer.destPort ≠ invalidSmsPort := by
    simp [GsmSmsMessage.indexer, SmsBaseMessage.toIndexer, hm.text, textPortNum, invalidSmsPort]
  rw [if_neg (by rwa [hrep]), if_neg hport]
  simp only [addMsgToDB, hins, if_true]
  -- the part is stored; what follows depends on the group as it now stands
  let indexer := m.indexer.setDataBaseId t.nextId
  have hgroup : StoredAsArrived (es ++ [PartEvent.arrive ds m]) indexer.groupKey
      ((t.insert slotId m.indexer).query indexer.groupKey) := by
    have harrive := h.arrive hm hold ds t.nextId slotId
    rwa [← SmsTable.query_insert_self] at harrive
  have htotal : 2 ≤ indexer.msgCount ∧ indexer.msgCount ≤ 127 := hm.total
  obtain ⟨hcov, hncov⟩ := combineMultiPageMessage_of_distinctParts createMessage ds
    (t.insert slotId m.indexer) indexer hgroup.distinct (by omega) htotal.2
  have hmulti : indexer.isSingleMsg = false := by
    simp only [SmsReceiveIndexer.isSingleMsg, decide_eq_false_iff_not]
    omega
  rw [show m.indexer.setDataBaseId t.nextId = indexer from rfl]
  by_cases hall : MessageArrived (es ++ [PartEvent.arrive ds m]) m.indexer.groupKey
  · have hcombine := hcov (hgroup.covered_iff.mpr hall)
    have hpages : pagesOf indexer.msgCount
        ((t.insert slotId m.indexer).query indexer.groupKey) =
          (List.range m.indexer.msgCount).map fun k =>
            firstPdu (es ++ [PartEvent.arrive ds m]) m.indexer.groupKey (k + 1) :=
      hgroup.pagesOf_eq hall
    have hwap : indexer.getIsWapPushMsg = false := by
      have hdest : indexer.destPort = textPortNum := hm.text
      simp [SmsReceiveIndexer.getIsWapPushMsg, hdest, textPortNum, wapPushPort]
    obtain ⟨body, raw, hupdate⟩ := updateMultiPageMessage_text createMessage hwap
      (pagesOf indexer.msgCount ((t.insert slotId m.indexer).query indexer.groupKey))
    rw [hupdate, hpages] at hcombine
    simp only [combineMessagePart, hmulti, hcombine, Bool.false_eq_true, if_false,
      List.nil_append]
    have hne : ∀ p ∈ (List.range m.indexer.msgCount).map fun k =>
        firstPdu (es ++ [PartEvent.arrive ds m]) m.indexer.groupKey (k + 1), p ≠ [] := by
      intro p hp
      obtain ⟨k, hk, rfl⟩ := List.mem_map.mp hp
      have hlt := List.mem_range.mp hk
      obtain ⟨r, hr, hseq⟩ := (hgroup.stored (k + 1)).mp (hall (k + 1) (by omega) hlt)
      have hpdu := hgroup.pdu r hr
      rw [hseq] at hpdu
      exact hpdu.1 ▸ hpdu.2
    rcases deliverMessage_broadcast ds slotId (t.insert slotId m.indexer)
      { indexer with visibleMessageBody := body, rawUserData := raw } hwap hne with
      hdeliver | hdeliver
    · rw [hdeliver]
      exact .completed hold hall
    · rw [hdeliver]
      exact .completedAndDeleted hold hall
  · have hnot := hncov fun hc => hall (hgroup.covered_iff.mp hc)
    simp only [combineMessagePart, hmulti, hnot, Bool.false_eq_true, if_false]
    exact .stored hold hall

/-! ## Whole runs -/

/-- One event, when it deletes no row of the message. -/
theorem StoredAsArrived.step {es : List PartEvent} {t : SmsTable} {key : GroupKey}
    (h : StoredAsArrived es key (t.query key)) (e : PartEvent)
    (hpart : ∀ ds m, e = .arrive ds m → m.IsTextPart ∧ ds.insertOk = true ∧
      StoredAsArrived es m.indexer.groupKey (t.query m.indexer.groupKey))
    (hlive : ∀ e' ∈ (partStep createMessage slotId t e).2,
      ∀ r ∈ e'.deletedRows, r.groupKey ≠ key) :
    StoredAsArrived (es ++ [e]) key ((partStep createMessage slotId t e).1.query key) := by
  cases e with
  | arrive ds m =>
      obtain ⟨hm, hins, hgroup⟩ := hpart ds m rfl
      have hout := partStep_arrive_outcome createMessage slotId hm hins hgroup
      generalize partStep createMessage slotId t (.arrive ds m) = res at hout hlive ⊢
      by_cases hsame : m.indexer.groupKey = key
      · subst hsame
        cases hout with
        | repeated old => exact h.repeat old
        | stored new missing =>
            rw [SmsTable.query_insert_self]
            exact h.arrive hm new ds t.nextId slotId
        | completed new all =>
            rw [SmsTable.query_insert_self]
            exact h.arrive hm new ds t.nextId slotId
        | completedAndDeleted new all =>
            -- the row just stored is among those deleted
            refine absurd rfl (hlive (.deleted ((t.insert slotId m.indexer).query
              m.indexer.groupKey)) (by simp) (.ofIndexer t.nextId slotId m.indexer) ?_)
            simp [Effect.deletedRows, SmsTable.query_insert_self]
      · have hparts : arrivedParts (es ++ [PartEvent.arrive ds m]) key = arrivedParts es key := by
          simp [arrivedParts_arrive, hsame]
        apply StoredAsArrived.of_arrivedParts_eq _ hparts
        cases hout with
        | repeated old => exact h
        | stored new missing => rwa [SmsTable.query_insert_of_ne _ _ _ hsame]
        | completed new all => rwa [SmsTable.query_insert_of_ne _ _ _ hsame]
        | completedAndDeleted new all =>
            rwa [SmsTable.query_delete_of_ne _ (Ne.symm hsame),
              SmsTable.query_insert_of_ne _ _ _ hsame]
  | deleteMessage ds refId dataBaseId msgCount address =>
      have hparts : arrivedParts (es ++ [.deleteMessage ds refId dataBaseId msgCount address]) key =
          arrivedParts es key := by simp [arrivedParts]
      apply StoredAsArrived.of_arrivedParts_eq _ hparts
      rcases deleteMessageFormDb_spec ds t refId dataBaseId msgCount address with hres | hres
      · simpa [partStep, hres] using h
      · simp only [partStep, hres] at hlive ⊢
        rwa [SmsTable.query_of_deleted (t := t)
          (p := fun r => r.groupKey = ⟨address, refId, msgCount⟩) (by simp [SmsTable.delete]) (by simpa [Effect.deletedRows, SmsTable.query] using hlive)]
  | deleteExpired ds =>
      have hparts : arrivedParts (es ++ [.deleteExpired ds]) key = arrivedParts es key := by
        simp [arrivedParts]
      apply StoredAsArrived.of_arrivedParts_eq _ hparts
      simp only [partStep, deleteExpireSmsFromDB] at hlive ⊢
      split at hlive
      · rename_i hfail
        rwa [if_pos hfail]
      · rename_i hok
        rw [if_neg hok]
        rwa [SmsTable.query_of_deleted (p := SmsTable.isExpired slotId ds.deadlineTime) rfl
          (by simpa [Effect.deletedRows, SmsTable.expired] using hlive)]

/-- A message none of whose rows was deleted is stored as it arrived. -/
theorem storedAsArrived_run {t₀ : SmsTable} {es : List PartEvent}
    (h : Deliveries createMessage slotId t₀ es) {key : GroupKey} (hkey : t₀.query key = [])
    (hlive : ∀ e ∈ outputs (partStep createMessage slotId) t₀ es,
      ∀ r ∈ e.deletedRows, r.groupKey ≠ key) :
    StoredAsArrived es key
      ((es.foldl (next (partStep createMessage slotId)) t₀).query key) := by
  induction es using List.reverseRecOn generalizing key with
  | nil => refine ⟨⟨?_, ?_⟩, ?_, ?_⟩ <;> simp [hkey, Arrived, arrivedParts]
  | append_singleton es e ih =>
      rw [outputs_concat] at hlive
      rw [List.foldl_append]
      have hold := ih h.of_append hkey fun e he => hlive e (List.mem_append_left _ he)
      refine hold.step e ?_ fun e' he' => hlive e' (List.mem_append_right _ he')
      rintro ds m rfl
      have hpart := h.part ds m (by simp)
      exact ⟨hpart.1, hpart.2,
        ih h.of_append (h.fresh ds m (by simp)) (h.live es [] ds m rfl)⟩

theorem MessageArrived.arrive {es : List PartEvent} {key : GroupKey} (h : MessageArrived es key)
    (e : PartEvent) : MessageArrived (es ++ [e]) key := by
  intro n h1 hn
  have := h n h1 hn
  simp only [Arrived, arrivedParts, List.filterMap_append, List.map_append,
    List.mem_append] at this ⊢
  exact .inl this

/-- What an arrival broadcasts: the whole message, exactly when it completes it. -/
theorem ArrivalOutcome.broadcasts {es : List PartEvent} {t : SmsTable} {ds : DataShare}
    {m : GsmSmsMessage} {res : SmsTable × List Effect} (hm : m.IsTextPart)
    (h : ArrivalOutcome slotId es t ds m res) :
    (¬ MessageArrived es m.indexer.groupKey ∧
        MessageArrived (es ++ [PartEvent.arrive ds m]) m.indexer.groupKey →
      res.2.filterMap Effect.broadcast? =
        [reassembled slotId t (es ++ [PartEvent.arrive ds m]) m]) ∧
    (¬ (¬ MessageArrived es m.indexer.groupKey ∧
        MessageArrived (es ++ [PartEvent.arrive ds m]) m.indexer.groupKey) →
      res.2.filterMap Effect.broadcast? = []) := by
  have hincomplete (hnew : ¬ Arrived es m.indexer.groupKey m.indexer.msgSeqId) :
      ¬ MessageArrived es m.indexer.groupKey :=
    fun hall => hnew (hall _ hm.seq.1 hm.seq.2)
  cases h with
  | repeated old =>
      refine ⟨fun ⟨hno, hall⟩ => absurd ?_ hno, fun _ => rfl⟩
      intro n h1 hn
      rcases arrived_arrive.mp (hall n h1 hn) with harrived | rfl
      · exact harrived
      · exact old
  | stored new missing => exact ⟨fun hboth => absurd hboth.2 missing, fun _ => rfl⟩
  | completed new all =>
      exact ⟨fun _ => rfl, fun hnot => absurd ⟨hincomplete new, all⟩ hnot⟩
  | completedAndDeleted new all =>
      exact ⟨fun _ => rfl, fun hnot => absurd ⟨hincomplete new, all⟩ hnot⟩

/-- The broadcasts of one message in a run. -/
def broadcastsOf (key : GroupKey) (out : List Effect) : List SmsBroadcast :=
  (out.filterMap Effect.broadcast?).filter (·.groupKey = key)

theorem ArrivalOutcome.broadcastsOf_other {es : List PartEvent} {t : SmsTable} {ds : DataShare}
    {m : GsmSmsMessage} {res : SmsTable × List Effect}
    (h : ArrivalOutcome slotId es t ds m res) {key : GroupKey}
    (hne : m.indexer.groupKey ≠ key) : broadcastsOf key res.2 = [] := by
  have hgroup : (reassembled slotId t (es ++ [PartEvent.arrive ds m]) m).groupKey ≠ key := hne
  cases h with
  | repeated old => rfl
  | stored new missing => rfl
  | completed new all => simp [broadcastsOf, Effect.broadcast?, hgroup]
  | completedAndDeleted new all => simp [broadcastsOf, Effect.broadcast?, hgroup]

theorem broadcastsOf_deletion (t : SmsTable) {e : PartEvent} (h : ∀ ds m, e ≠ .arrive ds m)
    (key : GroupKey) : broadcastsOf key (partStep createMessage slotId t e).2 = [] := by
  cases e with
  | arrive ds m => exact absurd rfl (h ds m)
  | deleteMessage ds refId dataBaseId msgCount address =>
      rcases deleteMessageFormDb_spec ds t refId dataBaseId msgCount address with hres | hres <;>
        simp [partStep, hres, broadcastsOf, Effect.broadcast?]
  | deleteExpired ds =>
      simp only [partStep, deleteExpireSmsFromDB]
      split <;> simp [broadcastsOf, Effect.broadcast?]

theorem Deliveries.outcome {t₀ : SmsTable} {es₁ es₂ : List PartEvent} {ds : DataShare}
    {m : GsmSmsMessage}
    (h : Deliveries createMessage slotId t₀ (es₁ ++ .arrive ds m :: es₂)) :
    m.IsTextPart ∧
      ArrivalOutcome slotId es₁ (es₁.foldl (next (partStep createMessage slotId)) t₀) ds m
        (partStep createMessage slotId
          (es₁.foldl (next (partStep createMessage slotId)) t₀) (.arrive ds m)) := by
  have hpart := h.part ds m (by simp)
  have hstored := storedAsArrived_run h.of_append (h.fresh ds m (by simp))
    (h.live es₁ es₂ ds m rfl)
  exact ⟨hpart.1, partStep_arrive_outcome createMessage slotId hpart.1 hpart.2 hstored⟩

theorem broadcastsOf_run {t₀ : SmsTable} {es : List PartEvent}
    (h : Deliveries createMessage slotId t₀ es) {key : GroupKey} (hkey : 1 ≤ key.msgCount) :
    (MessageArrived es key →
      (broadcastsOf key (outputs (partStep createMessage slotId) t₀ es)).length = 1) ∧
    (¬ MessageArrived es key →
      broadcastsOf key (outputs (partStep createMessage slotId) t₀ es) = []) := by
  induction es using List.reverseRecOn with
  | nil =>
      refine ⟨fun hall => ?_, fun _ => rfl⟩
      simpa [Arrived, arrivedParts] using hall 1 (Nat.le_refl 1) hkey
  | append_singleton es e ih =>
      obtain ⟨hone, hnone⟩ := ih h.of_append
      have hsplit : broadcastsOf key (outputs (partStep createMessage slotId) t₀ (es ++ [e])) =
          broadcastsOf key (outputs (partStep createMessage slotId) t₀ es) ++
          broadcastsOf key (partStep createMessage slotId
            (es.foldl (next (partStep createMessage slotId)) t₀) e).2 := by
        simp [outputs_concat, broadcastsOf]
      rw [hsplit]
      by_cases harrive : ∃ ds m, e = .arrive ds m ∧ m.indexer.groupKey = key
      · obtain ⟨ds, m, rfl, rfl⟩ := harrive
        obtain ⟨hm, hout⟩ := h.outcome
        obtain ⟨hcompletes, hsilent⟩ := hout.broadcasts hm
        by_cases hbefore : MessageArrived es m.indexer.groupKey
        · have hquiet := hsilent fun hc => hc.1 hbefore
          refine ⟨fun _ => ?_, fun hno => absurd (hbefore.arrive _) hno⟩
          rw [List.length_append, hone hbefore]
          simp [broadcastsOf, hquiet]
        · rw [hnone hbefore, List.nil_append]
          constructor
          · intro hall
            have hgroup : (reassembled slotId
                (es.foldl (next (partStep createMessage slotId)) t₀)
                (es ++ [PartEvent.arrive ds m]) m).groupKey = m.indexer.groupKey := rfl
            simp [broadcastsOf, hcompletes ⟨hbefore, hall⟩, hgroup]
          · intro hno
            simp [broadcastsOf, hsilent fun hc => hno hc.2]
      · -- an event of another message, or a deletion
        have hparts : arrivedParts (es ++ [e]) key = arrivedParts es key := by
          cases e with
          | arrive ds m =>
              have hne : m.indexer.groupKey ≠ key := fun heq => harrive ⟨ds, m, rfl, heq⟩
              simp [arrivedParts_arrive, hne]
          | deleteMessage ds refId dataBaseId msgCount address => simp [arrivedParts]
          | deleteExpired ds => simp [arrivedParts]
        have hall : MessageArrived (es ++ [e]) key ↔ MessageArrived es key := by
          simp [MessageArrived, Arrived, hparts]
        have hquiet : broadcastsOf key (partStep createMessage slotId
            (es.foldl (next (partStep createMessage slotId)) t₀) e).2 = [] := by
          cases e with
          | arrive ds m =>
              exact h.outcome.2.broadcastsOf_other fun heq => harrive ⟨ds, m, rfl, heq⟩
          | deleteMessage ds refId dataBaseId msgCount address =>
              exact broadcastsOf_deletion _ (by simp) key
          | deleteExpired ds => exact broadcastsOf_deletion _ (by simp) key
        rw [hall, hquiet, List.append_nil]
        exact ⟨hone, hnone⟩

/-- Reassembly of concatenated text messages over every run of deliveries: an
arrival broadcasts its message exactly when it brings the last missing part, with
the PDUs in sequence order, and so each message is broadcast once when all of it
has arrived and never before. -/
theorem reassembly_in_any_order (t₀ : SmsTable) (es : List PartEvent)
    (h : Deliveries createMessage slotId t₀ es) :
    (∀ es₁ es₂ ds m, es = es₁ ++ .arrive ds m :: es₂ →
      let t := es₁.foldl (next (partStep createMessage slotId)) t₀
      let sent := (partStep createMessage slotId t (.arrive ds m)).2.filterMap Effect.broadcast?
      (¬ MessageArrived es₁ m.indexer.groupKey ∧
          MessageArrived (es₁ ++ [.arrive ds m]) m.indexer.groupKey →
        sent = [reassembled slotId t (es₁ ++ [.arrive ds m]) m]) ∧
      (¬ (¬ MessageArrived es₁ m.indexer.groupKey ∧
          MessageArrived (es₁ ++ [.arrive ds m]) m.indexer.groupKey) → sent = [])) ∧
    (∀ ds m, .arrive ds m ∈ es →
      let sent := broadcastsOf m.indexer.groupKey
        (outputs (partStep createMessage slotId) t₀ es)
      (MessageArrived es m.indexer.groupKey → sent.length = 1) ∧
      (¬ MessageArrived es m.indexer.groupKey → sent = [])) := by
  constructor
  · rintro es₁ es₂ ds m rfl
    obtain ⟨hm, hout⟩ := h.outcome
    exact hout.broadcasts hm
  · intro ds m hmem
    have htotal := (h.part ds m hmem).1.total
    have hpos : 1 ≤ m.indexer.groupKey.msgCount := Nat.le_trans (by omega) htotal.1
    exact broadcastsOf_run h hpos

/-- Part `seqNum` of a two-part text. -/
def twoPartText (seqNum : Nat) : PartEvent :=
  .arrive ⟨true, true, true, 1⟩ ⟨⟨[seqNum.toUInt8], 1, -1, "1", "1", "", [], [],
    some ⟨7, seqNum, 2⟩⟩, 0, .classUnknown, false, false⟩

/-- The second part twice, then the first. -/
theorem reassembly_second_part_first :
    let es := [twoPartText 2, twoPartText 2, twoPartText 1]
    MessageArrived es ⟨"1", 7, 2⟩ ∧
    (broadcastsOf ⟨"1", 7, 2⟩ (outputs (partStep (fun _ => none) 0) .empty es)).length = 1 := by
  intro es
  have hquiet : ∀ e ∈ outputs (partStep (fun _ => none) 0) .empty es, e.deletedRows = [] := by
    decide
  have hes : Deliveries (fun _ => none) 0 .empty es := by
    refine ⟨?_, ?_, ?_⟩
    · intro ds m hm
      have hcases : PartEvent.arrive ds m = twoPartText 2 ∨
          PartEvent.arrive ds m = twoPartText 1 := by simpa [es] using hm
      rcases hcases with heq | heq <;> cases heq <;>
        exact ⟨⟨by decide, by decide, by decide, by decide, by decide⟩, rfl⟩
    · intro ds m _
      rfl
    · intro es₁ es₂ ds m hsplit e he r hr
      rw [hsplit, outputs_append] at hquiet
      simp [hquiet e (List.mem_append_left _ he)] at hr
  have hall : MessageArrived es ⟨"1", 7, 2⟩ := by
    intro n h1 hn
    obtain rfl | rfl : n = 1 ∨ n = 2 := by
      have : n ≤ 2 := hn
      omega
    · decide
    · decide
  exact ⟨hall, ((reassembly_in_any_order .empty es hes).2 _ _
    (List.mem_cons_of_mem _ (List.mem_cons_of_mem _ (List.mem_singleton.mpr rfl)))).1 hall⟩

end TelephonySms.Receive
