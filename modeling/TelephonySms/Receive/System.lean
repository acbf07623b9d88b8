import TelephonySms.Machine
import TelephonySms.Receive.Handler

/-! # All receivers over one table

The handlers of every slot share one `sms_subsection` table. Two things happen
to it: a handler processes a message, at arrival or out of its queue, and the
subscriber `SmsBroadcastSubscriberReceiver` deletes the rows of a message whose
published event was consumed.
-/

namespace TelephonySms.Receive

open TelephonySms.Machine

/-- A message with the handler it is for. -/
inductive ReceivedSms where
  | gsm (m : GsmSmsMessage)
  | cdma (senderAlive : Bool) (m : CdmaSmsMessage)
deriving DecidableEq, Repr

def ReceivedSms.indexer : ReceivedSms → SmsReceiveIndexer
  | .gsm m => m.indexer
  | .cdma _ m => m.toIndexer true

structure Arrival where
  slotId : Nat
  ds : DataShare
  /-- Processed by `HandleRemainDataShare` out of the queue. -/
  deferred : Bool
  message : ReceivedSms
deriving DecidableEq, Repr

def Arrival.groupKey (a : Arrival) : GroupKey := a.message.indexer.groupKey

section CreateMessage

variable (createMessage : Pdu → Option SmsBaseMessage)

/-- What one handler call does to the table and emits. -/
def Arrival.process (t : SmsTable) (a : Arrival) : SmsTable × List Effect :=
  match a.message, a.deferred with
  | .gsm m, false => ((gsmSmsReceiveHandler createMessage a.slotId).handleSmsByType a.ds t m).2
  | .gsm m, true => (gsmSmsReceiveHandler createMessage a.slotId).handleRemainDataShare a.ds t m
  | .cdma alive m, false =>
      ((cdmaSmsReceiveHandler createMessage a.slotId alive).handleSmsByType a.ds t m).2
  | .cdma alive m, true =>
      (cdmaSmsReceiveHandler createMessage a.slotId alive).handleRemainDataShare a.ds t m

/-! ## Storing, then combining

Each handler call first decides whether to store the part, and calls
`CombineMessagePart` last. `storePart` is the first half for all four.
-/

/-- The table and effects before `CombineMessagePart`, and the indexer it is called with. -/
abbrev Stored := SmsTable × List Effect × Option SmsReceiveIndexer

def storeIndexer (ds : DataShare) (slotId : Nat) (t : SmsTable) (out : List Effect)
    (indexer : SmsReceiveIndexer) : Stored :=
  match addMsgToDB ds slotId t indexer with
  | none => (t, out, none)
  | some (t, indexer) => (t, out, some indexer)

def storeThenExpire (ds : DataShare) (slotId : Nat) (t : SmsTable)
    (indexer : SmsReceiveIndexer) : Stored :=
  match addMsgToDB ds slotId t indexer with
  | none => (t, [], none)
  | some (t, indexer) =>
      match deleteExpireSmsFromDB ds slotId t with
      | (false, t, out) => (t, out, none)
      | (true, t, out) => (t, out, some indexer)

/-- The part is stored already and its handler filters it. -/
def ReceivedSms.isRepeated (t : SmsTable) : ReceivedSms → Bool
  | .gsm m => GsmSmsReceiveHandler.isRepeated t m
  | .cdma _ m => CdmaSmsReceiveHandler.isRepeated t m

def ReceivedSms.isConcatMsg : ReceivedSms → Bool
  | .gsm m => m.isConcatMsg
  | .cdma _ m => m.isConcatMsg

/-- Both handlers filter the same way. -/
theorem ReceivedSms.isRepeated_eq (t : SmsTable) (m : ReceivedSms) :
    m.isRepeated t =
      (m.indexer.getIsText && m.isConcatMsg && isRepeatedMessagePart t m.indexer) := by
  cases m <;> rfl

theorem ReceivedSms.isConcatMsg_of_msgCount {m : ReceivedSms} (h : m.indexer.msgCount ≠ 1) :
    m.isConcatMsg = true := by
  cases m with
  | gsm m =>
      cases hc : m.concatMsg with
      | none => simp [indexer, GsmSmsMessage.indexer, SmsBaseMessage.toIndexer, hc] at h
      | some c => simp [isConcatMsg, SmsBaseMessage.isConcatMsg, hc]
  | cdma alive m =>
      cases hc : m.concatMsg with
      | none => simp [indexer, SmsBaseMessage.toIndexer, hc] at h
      | some c => simp [isConcatMsg, SmsBaseMessage.isConcatMsg, hc]

def Arrival.storePart (a : Arrival) (t : SmsTable) : Stored :=
  match a.message, a.deferred with
  | .gsm m, false =>
      if m.isSpecialMessage || !a.ds.smsCapable then (t, [], none)
      else
        let (_, t, out) := deleteExpireSmsFromDB a.ds a.slotId t
        if a.message.isRepeated t || m.indexer.destPort = invalidSmsPort then (t, out, none)
        else storeIndexer a.ds a.slotId t out m.indexer
  | .gsm m, true =>
      let (_, t, out) := deleteExpireSmsFromDB a.ds a.slotId t
      if a.message.isRepeated t then (t, out, none)
      else storeIndexer a.ds a.slotId t out m.indexer
  | .cdma alive m, false =>
      match CdmaSmsReceiveHandler.answeredAtOnce a.slotId alive m with
      | some (_, out) => (t, out, none)
      | none =>
          if a.message.isRepeated t then (t, [], none)
          else storeThenExpire a.ds a.slotId t (m.toIndexer true)
  | .cdma _ m, true =>
      if a.message.isRepeated t then (t, [], none)
      else storeThenExpire a.ds a.slotId t (m.toIndexer true)

/-- `CombineMessagePart` for a part that was stored. -/
def combineStored (ds : DataShare) (slotId : Nat) : Stored → SmsTable × List Effect
  | (t, out, none) => (t, out)
  | (t, out, some indexer) =>
      let (t, sent) := combineMessagePart createMessage ds slotId t indexer
      (t, out ++ sent)

theorem combineStored_storeIndexer (ds : DataShare) (slotId : Nat) (t : SmsTable)
    (out : List Effect) (indexer : SmsReceiveIndexer) :
    combineStored createMessage ds slotId (storeIndexer ds slotId t out indexer) =
      match addMsgToDB ds slotId t indexer with
      | none => (t, out)
      | some (t, indexer) =>
          let (t, sent) := combineMessagePart createMessage ds slotId t indexer
          (t, out ++ sent) := by
  unfold storeIndexer
  cases addMsgToDB ds slotId t indexer <;> rfl

theorem combineStored_storeThenExpire (ds : DataShare) (slotId : Nat) (t : SmsTable)
    (indexer : SmsReceiveIndexer) :
    combineStored createMessage ds slotId (storeThenExpire ds slotId t indexer) =
      match addMsgToDB ds slotId t indexer with
      | none => (t, [])
      | some (t, indexer) =>
          match deleteExpireSmsFromDB ds slotId t with
          | (false, t, out) => (t, out)
          | (true, t, out) =>
              let (t, sent) := combineMessagePart createMessage ds slotId t indexer
              (t, out ++ sent) := by
  unfold storeThenExpire
  cases addMsgToDB ds slotId t indexer with
  | none => rfl
  | some stored =>
      obtain ⟨t, indexer⟩ := stored
      rcases hexp : deleteExpireSmsFromDB ds slotId t with ⟨_ | _, t', out⟩ <;> simp [hexp] <;> rfl

private theorem process_gsm_eq (slotId : Nat) (ds : DataShare) (deferred : Bool)
    (m : GsmSmsMessage) (t : SmsTable) :
    Arrival.process createMessage t ⟨slotId, ds, deferred, .gsm m⟩ =
      combineStored createMessage ds slotId
        (Arrival.storePart ⟨slotId, ds, deferred, .gsm m⟩ t) := by
  cases deferred with
  | false =>
      simp only [Arrival.process, Arrival.storePart, gsmSmsReceiveHandler,
        GsmSmsReceiveHandler.handleSmsByType, GsmSmsReceiveHandler.checkSmsSupport]
      by_cases hspecial : m.isSpecialMessage = true
      · simp [hspecial, combineStored]
      · by_cases hcap : ds.smsCapable = true
        · simp only [hspecial, hcap, Bool.not_true, Bool.false_eq_true, if_false,
            Bool.or_self, ne_eq, not_true_eq_false, GsmSmsReceiveHandler.handleNormalSmsByType,
            ReceivedSms.isRepeated]
          by_cases hrep : GsmSmsReceiveHandler.isRepeated
              (deleteExpireSmsFromDB ds slotId t).2.1 m = true
          · simp [hrep, combineStored]
          · by_cases hport : m.indexer.destPort = invalidSmsPort
            · simp [hrep, hport, combineStored]
            · simp only [hrep, hport, combineStored_storeIndexer, if_false, decide_false,
                Bool.or_self, Bool.false_eq_true]
              cases addMsgToDB ds slotId (deleteExpireSmsFromDB ds slotId t).2.1 m.indexer <;>
                simp
        · simp [hspecial, hcap, combineStored]
  | true =>
      simp only [Arrival.process, Arrival.storePart, gsmSmsReceiveHandler,
        GsmSmsReceiveHandler.handleRemainDataShare, ReceivedSms.isRepeated]
      by_cases hrep : GsmSmsReceiveHandler.isRepeated
          (deleteExpireSmsFromDB ds slotId t).2.1 m = true
      · simp [hrep, combineStored]
      · simp only [hrep, if_false, Bool.false_eq_true]
        exact (combineStored_storeIndexer createMessage ds slotId _ _ m.indexer).symm

private theorem process_cdma_eq (slotId : Nat) (ds : DataShare) (deferred alive : Bool)
    (m : CdmaSmsMessage) (t : SmsTable) :
    Arrival.process createMessage t ⟨slotId, ds, deferred, .cdma alive m⟩ =
      combineStored createMessage ds slotId
        (Arrival.storePart ⟨slotId, ds, deferred, .cdma alive m⟩ t) := by
  cases deferred with
  | false =>
      simp only [Arrival.process, Arrival.storePart, cdmaSmsReceiveHandler,
        CdmaSmsReceiveHandler.handleSmsByType, CdmaSmsReceiveHandler.handleSmsOtherSvcid,
        ReceivedSms.isRepeated]
      cases CdmaSmsReceiveHandler.answeredAtOnce slotId alive m with
      | some answer => rfl
      | none =>
          by_cases hrep : CdmaSmsReceiveHandler.isRepeated t m = true
          · simp [hrep, combineStored]
          · simp only [hrep, combineStored_storeThenExpire, if_false, Bool.false_eq_true]
            cases addMsgToDB ds slotId t (m.toIndexer true) with
            | none => rfl
            | some stored =>
                obtain ⟨t, indexer⟩ := stored
                rcases hexp : deleteExpireSmsFromDB ds slotId t with ⟨_ | _, t', out⟩ <;>
                  simp [hexp]
  | true =>
      simp only [Arrival.process, Arrival.storePart, cdmaSmsReceiveHandler,
        CdmaSmsReceiveHandler.handleRemainDataShare, ReceivedSms.isRepeated]
      by_cases hrep : CdmaSmsReceiveHandler.isRepeated t m = true
      · simp [hrep, combineStored]
      · simp only [hrep, if_false, Bool.false_eq_true]
        exact (combineStored_storeThenExpire createMessage ds slotId t _).symm

theorem Arrival.process_eq (t : SmsTable) (a : Arrival) :
    a.process createMessage t = combineStored createMessage a.ds a.slotId (a.storePart t) := by
  obtain ⟨slotId, ds, deferred, message⟩ := a
  cases message with
  | gsm m => exact process_gsm_eq createMessage slotId ds deferred m t
  | cdma alive m => exact process_cdma_eq createMessage slotId ds deferred alive m t

theorem combineStored_table (ds : DataShare) (slotId : Nat) (stored : Stored) :
    (combineStored createMessage ds slotId stored).1.rows.Sublist stored.1.rows := by
  obtain ⟨t, out, _ | indexer⟩ := stored
  · exact List.Sublist.refl _
  · exact (combineMessagePart_table createMessage ds slotId t indexer).rows

/-! ## The machine -/

/-- The parameters of a published event that `OnReceiveEvent` reads. -/
structure Publication where
  refId : Nat
  dataBaseId : Nat
  msgCount : Nat
  address : String
deriving DecidableEq, Repr

/-- The automatic registration event is published without a subscriber. A WAP push
counts as published here even when its PDU turns out not to decode. -/
def Effect.publication? : Effect → Option Publication
  | .broadcast b =>
      if b.action = .smsReceiveCompleted then
        some ⟨b.msgRefId, b.dataBaseId, b.msgCount, b.address⟩
      else none
  | .wapPush _ i _ => some ⟨i.msgRefId, i.dataBaseId, i.msgCount, i.originatingAddress⟩
  | _ => none

structure World where
  table : SmsTable
  /-- Per slot, the events published by its handler and not consumed yet. -/
  published : Nat → List Publication

def World.init : World := ⟨.empty, fun _ => []⟩

inductive WorldEvent where
  | arrival (a : Arrival)
  /-- The `n`-th outstanding event of the slot is consumed. -/
  | completed (slotId : Nat) (ds : DataShare) (n : Nat)
deriving DecidableEq, Repr

def WorldEvent.slotId : WorldEvent → Nat
  | .arrival a => a.slotId
  | .completed slotId _ _ => slotId

def World.step (w : World) : WorldEvent → World × List Effect
  | .arrival a =>
      let (t, out) := a.process createMessage w.table
      (⟨t, Function.update w.published a.slotId
        (w.published a.slotId ++ out.filterMap Effect.publication?)⟩, out)
  | .completed slotId ds n =>
      match (w.published slotId)[n]? with
      | none => (w, [])
      | some p =>
          let (t, out) :=
            deleteMessageFormDb ds w.table p.refId p.dataBaseId p.msgCount p.address
          (⟨t, Function.update w.published slotId ((w.published slotId).eraseIdx n)⟩, out)

end CreateMessage

/-! ## What a handler call stores -/

theorem deleteExpireSmsFromDB_table (ds : DataShare) (slotId : Nat) (t : SmsTable) :
    (deleteExpireSmsFromDB ds slotId t).2.1.rows.Sublist t.rows ∧
      (deleteExpireSmsFromDB ds slotId t).2.1.nextId = t.nextId := by
  unfold deleteExpireSmsFromDB
  split
  · exact ⟨List.Sublist.refl _, rfl⟩
  · exact ⟨List.filter_sublist, rfl⟩

/-- How `storePart` changes the table: some rows are deleted, and then possibly
one row is added, for a part that its handler does not filter. -/
inductive StoreOutcome (a : Arrival) (t : SmsTable) : Stored → Prop where
  | kept {t' : SmsTable} {out : List Effect} (rows : t'.rows.Sublist t.rows)
      (nextId : t'.nextId = t.nextId) : StoreOutcome a t (t', out, none)
  | added {t₁ t' : SmsTable} {out : List Effect} {called : Option SmsReceiveIndexer}
      (rows₁ : t₁.rows.Sublist t.rows) (fresh : a.message.isRepeated t₁ = false)
      (rows : t'.rows.Sublist (t₁.rows ++ [.ofIndexer t.nextId a.slotId a.message.indexer]))
      (nextId : t'.nextId = t.nextId + 1)
      (indexer : ∀ i, called = some i →
        i = a.message.indexer.setDataBaseId t.nextId) :
      StoreOutcome a t (t', out, called)

theorem storeIndexer_outcome {a : Arrival} {t t₁ : SmsTable} (out : List Effect)
    (rows₁ : t₁.rows.Sublist t.rows) (nextId₁ : t₁.nextId = t.nextId)
    (fresh : a.message.isRepeated t₁ = false) :
    StoreOutcome a t (storeIndexer a.ds a.slotId t₁ out a.message.indexer) := by
  unfold storeIndexer addMsgToDB
  by_cases hins : a.ds.insertOk = true
  · simp only [hins, if_true]
    refine .added rows₁ fresh ?_ ?_ ?_
    · simp [SmsTable.insert, nextId₁]
    · simp [nextId₁]
    · simp [nextId₁]
  · simp only [hins, if_false, Bool.false_eq_true]
    exact .kept rows₁ nextId₁

theorem storeThenExpire_outcome {a : Arrival} {t : SmsTable}
    (fresh : a.message.isRepeated t = false) :
    StoreOutcome a t (storeThenExpire a.ds a.slotId t a.message.indexer) := by
  unfold storeThenExpire addMsgToDB
  by_cases hins : a.ds.insertOk = true
  · simp only [hins, if_true]
    have hexp := deleteExpireSmsFromDB_table a.ds a.slotId
      (t.insert a.slotId a.message.indexer)
    rcases hres : deleteExpireSmsFromDB a.ds a.slotId
      (t.insert a.slotId a.message.indexer) with ⟨_ | _, t', out⟩ <;> rw [hres] at hexp
    · exact .added (List.Sublist.refl _) fresh hexp.1 hexp.2 (by simp)
    · exact .added (List.Sublist.refl _) fresh hexp.1 hexp.2 (by simp)
  · simp only [hins, if_false, Bool.false_eq_true]
    exact .kept (List.Sublist.refl _) rfl

theorem Arrival.storePart_outcome (a : Arrival) (t : SmsTable) :
    StoreOutcome a t (a.storePart t) := by
  obtain ⟨slotId, ds, deferred, message⟩ := a
  have hexp := deleteExpireSmsFromDB_table ds slotId t
  cases message with
  | gsm m =>
      cases deferred with
      | false =>
          simp only [storePart]
          split
          · exact .kept (List.Sublist.refl _) rfl
          · split
            · exact .kept hexp.1 hexp.2
            · rename_i hrep
              simp only [Bool.or_eq_true, not_or, Bool.not_eq_true] at hrep
              exact storeIndexer_outcome _ hexp.1 hexp.2 hrep.1
      | true =>
          simp only [storePart]
          split
          · exact .kept hexp.1 hexp.2
          · rename_i hrep
            exact storeIndexer_outcome _ hexp.1 hexp.2 (by simpa using hrep)
  | cdma alive m =>
      have hstore : StoreOutcome ⟨slotId, ds, deferred, .cdma alive m⟩ t
          (if (ReceivedSms.cdma alive m).isRepeated t then (t, [], none)
            else storeThenExpire ds slotId t (m.toIndexer true)) := by
        split
        · exact .kept (List.Sublist.refl _) rfl
        · rename_i hrep
          exact storeThenExpire_outcome (by simpa using hrep)
      cases deferred with
      | false =>
          simp only [storePart]
          split
          · exact .kept (List.Sublist.refl _) rfl
          · exact hstore
      | true => exact hstore

/-! ## What a handler call publishes -/

def SmsReceiveIndexer.publication (i : SmsReceiveIndexer) : Publication :=
  ⟨i.msgRefId, i.dataBaseId, i.msgCount, i.originatingAddress⟩

theorem SmsReceiveIndexer.publication_congr {i j : SmsReceiveIndexer}
    (hkey : i.groupKey = j.groupKey) (hid : i.dataBaseId = j.dataBaseId) :
    i.publication = j.publication := by
  simp_all [publication, groupKey]

theorem deleteMessageFormDb_publications (ds : DataShare) (t : SmsTable)
    (refId dataBaseId msgCount : Nat) (address : String) :
    (deleteMessageFormDb ds t refId dataBaseId msgCount address).2.filterMap
      Effect.publication? = [] := by
  rcases deleteMessageFormDb_spec ds t refId dataBaseId msgCount address with h | h <;>
    simp [h, Effect.publication?]

theorem deleteExpireSmsFromDB_publications (ds : DataShare) (slotId : Nat) (t : SmsTable) :
    (deleteExpireSmsFromDB ds slotId t).2.2.filterMap Effect.publication? = [] := by
  unfold deleteExpireSmsFromDB
  split <;> simp [Effect.publication?]

theorem deliverMessage_publications (ds : DataShare) (slotId : Nat) (t : SmsTable)
    (i : SmsReceiveIndexer) (pdus : List Pdu) :
    ∀ p ∈ (deliverMessage ds slotId t i pdus).2.filterMap Effect.publication?,
      p = i.publication := by
  intro p hp
  unfold deliverMessage sendBroadcast at hp
  split at hp
  · simpa [Effect.publication?, SmsReceiveIndexer.publication] using hp
  · split at hp
    · rename_i hct
      have hnone := deleteMessageFormDb_publications ds t i.msgRefId i.dataBaseId i.msgCount
        i.originatingAddress
      simp [hnone, Effect.publication?, packetSmsData, hct] at hp
    · rename_i hct
      simpa [Effect.publication?, packetSmsData, hct, SmsReceiveIndexer.publication] using hp

theorem combineMessagePart_publications (createMessage : Pdu → Option SmsBaseMessage)
    (ds : DataShare) (slotId : Nat) (t : SmsTable) (i : SmsReceiveIndexer) :
    ∀ p ∈ (combineMessagePart createMessage ds slotId t i).2.filterMap Effect.publication?,
      p = i.publication := by
  unfold combineMessagePart
  split
  · exact deliverMessage_publications ds slotId t i [i.pdu]
  · have hsilent : (combineMultiPageMessage createMessage ds t i).2.2.filterMap
        Effect.publication? = [] := by
      simp only [combineMultiPageMessage]
      split
      · exact deleteMessageFormDb_publications ..
      · split
        · rfl
        · split <;> rfl
    have hkeys := (combineMultiPageMessage_table createMessage ds t i).2
    generalize combineMultiPageMessage createMessage ds t i = res at hsilent hkeys ⊢
    obtain ⟨result, t', out⟩ := res
    simp only at hsilent hkeys
    cases result with
    | incomplete => simp [hsilent]
    | thrown => simp [hsilent, List.filterMap_append, Effect.publication?]
    | complete j pdus =>
        obtain ⟨hkey, hid⟩ := hkeys j pdus rfl
        have hdel := deliverMessage_publications ds slotId t' j pdus
        rw [SmsReceiveIndexer.publication_congr hkey hid] at hdel
        simpa [List.filterMap_append, hsilent] using hdel

theorem storePart_publications (a : Arrival) (t : SmsTable) :
    (a.storePart t).2.1.filterMap Effect.publication? = [] := by
  obtain ⟨slotId, ds, deferred, message⟩ := a
  have hexp := deleteExpireSmsFromDB_publications ds slotId t
  cases message with
  | gsm m =>
      have hstore {t : SmsTable} {out : List Effect}
          (h : out.filterMap Effect.publication? = []) :
          (storeIndexer ds slotId t out m.indexer).2.1.filterMap Effect.publication? = [] := by
        unfold storeIndexer
        split <;> exact h
      cases deferred with
      | false =>
          simp only [Arrival.storePart]
          split
          · rfl
          · split
            · exact hexp
            · exact hstore hexp
      | true =>
          simp only [Arrival.storePart]
          split
          · exact hexp
          · exact hstore hexp
  | cdma alive m =>
      have hstore : (if (ReceivedSms.cdma alive m).isRepeated t then (t, [], none)
          else storeThenExpire ds slotId t (m.toIndexer true) : Stored).2.1.filterMap
            Effect.publication? = [] := by
        split
        · rfl
        · unfold storeThenExpire
          split
          · rfl
          · rename_i t' indexer _
            have hexp' := deleteExpireSmsFromDB_publications ds slotId t'
            generalize deleteExpireSmsFromDB ds slotId t' = r at hexp' ⊢
            obtain ⟨_ | _, u, out⟩ := r <;> exact hexp'
      cases deferred with
      | false =>
          simp only [Arrival.storePart]
          split
          · rename_i answer hanswer
            simp only [CdmaSmsReceiveHandler.answeredAtOnce] at hanswer
            split_ifs at hanswer <;> cases hanswer <;> rfl
          · exact hstore
      | true => exact hstore

/-- A handler call publishes its own message under the key its row got. -/
theorem process_publications (createMessage : Pdu → Option SmsBaseMessage) (a : Arrival)
    (t : SmsTable) :
    ∀ p ∈ (a.process createMessage t).2.filterMap Effect.publication?,
      p = (a.message.indexer.setDataBaseId t.nextId).publication := by
  rw [Arrival.process_eq]
  have hsilent := storePart_publications a t
  have hout := a.storePart_outcome t
  generalize a.storePart t = stored at hsilent hout ⊢
  cases hout with
  | kept rows nextId =>
      simp only [combineStored, hsilent]
      simp
  | @added t₁ t' out called rows₁ fresh rows nextId hindexer =>
      cases called with
      | none =>
          simp only [combineStored, hsilent]
          simp
      | some indexer =>
          obtain rfl := hindexer indexer rfl
          have hcomb := combineMessagePart_publications createMessage a.ds a.slotId t'
            (a.message.indexer.setDataBaseId t.nextId)
          simpa [combineStored, List.filterMap_append, hsilent] using hcomb

/-! ## What a handler call preserves -/

section Preserves

variable {P : SmsTable → Prop} {a : Arrival}

theorem storePart_preserves
    (hexp : ∀ t, P t → P (deleteExpireSmsFromDB a.ds a.slotId t).2.1)
    (hins : ∀ t, P t → P (t.insert a.slotId a.message.indexer)) {t : SmsTable} (h : P t) :
    P (a.storePart t).1 := by
  have hstore {t : SmsTable} (out : List Effect) (h : P t) :
      P (storeIndexer a.ds a.slotId t out a.message.indexer).1 := by
    unfold storeIndexer addMsgToDB
    by_cases hok : a.ds.insertOk = true
    · simpa only [hok, if_true] using hins t h
    · simpa only [hok, if_false, Bool.false_eq_true] using h
  have hstoreExpire {t : SmsTable} (h : P t) :
      P (storeThenExpire a.ds a.slotId t a.message.indexer).1 := by
    unfold storeThenExpire addMsgToDB
    by_cases hok : a.ds.insertOk = true
    · simp only [hok, if_true]
      have hafter := hexp _ (hins t h)
      generalize deleteExpireSmsFromDB a.ds a.slotId _ = r at hafter ⊢
      obtain ⟨_ | _, t', out⟩ := r <;> exact hafter
    · simpa only [hok, if_false, Bool.false_eq_true] using h
  obtain ⟨slotId, ds, deferred, message⟩ := a
  cases message with
  | gsm m =>
      cases deferred with
      | false =>
          simp only [Arrival.storePart]
          split
          · exact h
          · split
            · exact hexp t h
            · exact hstore _ (hexp t h)
      | true =>
          simp only [Arrival.storePart]
          split
          · exact hexp t h
          · exact hstore _ (hexp t h)
  | cdma alive m =>
      have hcdma : P (if (ReceivedSms.cdma alive m).isRepeated t then (t, [], none)
          else storeThenExpire ds slotId t (m.toIndexer true) : Stored).1 := by
        split
        · exact h
        · exact hstoreExpire h
      cases deferred with
      | false =>
          simp only [Arrival.storePart]
          split
          · exact h
          · exact hcdma
      | true => exact hcdma

/-- A handler call expires rows of its slot, inserts one row and deletes its group. -/
theorem process_preserves (createMessage : Pdu → Option SmsBaseMessage)
    (hexp : ∀ t, P t → P (deleteExpireSmsFromDB a.ds a.slotId t).2.1)
    (hins : ∀ t, P t → P (t.insert a.slotId a.message.indexer))
    (hdel : ∀ t, P t → P (t.delete a.groupKey)) {t : SmsTable} (h : P t) :
    P (a.process createMessage t).1 := by
  rw [Arrival.process_eq]
  have hstored := storePart_preserves hexp hins h
  have hout := a.storePart_outcome t
  generalize a.storePart t = stored at hstored hout ⊢
  cases hout with
  | kept rows nextId => exact hstored
  | @added t₁ t' out called rows₁ fresh rows nextId hindexer =>
      cases called with
      | none => exact hstored
      | some indexer =>
          obtain rfl := hindexer indexer rfl
          have htable := combineMessagePart_table createMessage a.ds a.slotId t'
            (a.message.indexer.setDataBaseId t.nextId)
          simp only [combineStored]
          rcases htable with htable | htable
          · rw [htable]
            exact hstored
          · rw [htable]
            exact hdel t' hstored

end Preserves

end TelephonySms.Receive
