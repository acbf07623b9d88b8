import TelephonySms.Receive.System

/-! # Slot isolation

One table serves every slot, and of the statements on it only the deletion of
expired rows names the slot. The two runs compared here are the run with all
slots and the run that slot 0 would have alone. They agree, up to the keys the
shared table hands out, as long as no other slot receives a message with the
group columns of a message of slot 0.
-/

namespace TelephonySms.Receive

open TelephonySms.Machine

/-! ## Looking past the row keys -/

def Effect.eraseIds : Effect → Effect
  | .broadcast b => .broadcast { b with dataBaseId := 0 }
  | .wapPush slotId i wapPdu => .wapPush slotId (i.setDataBaseId 0) wapPdu
  | .deleted rows => .deleted (rows.map (·.eraseId))
  | e => e

def Publication.eraseId (p : Publication) : Publication := { p with dataBaseId := 0 }

def Publication.groupKey (p : Publication) : GroupKey := ⟨p.address, p.refId, p.msgCount⟩

/-! ## The tables of the two runs -/

section Table

variable (foreign : GroupKey → Prop)

/-- The table `t` of all slots beside the table `u` of slot 0 alone; `foreign`
holds of the groups of the other slots. -/
structure TableRelated (t u : SmsTable) : Prop where
  rows : (t.rows.filter (·.slotId = 0)).map (·.eraseId) = u.rows.map (·.eraseId)
  own : ∀ r ∈ t.rows, r.slotId = 0 → ¬ foreign r.groupKey
  other : ∀ r ∈ t.rows, r.slotId ≠ 0 → foreign r.groupKey
  ids : t.nextId ≠ 0 ∧ u.nextId ≠ 0

variable {foreign} {t u : SmsTable}

/-- Filters that do not read the row key act alike on rows that are alike. -/
theorem map_eraseId_filter {p : SmsSubsection → Bool} (hp : ∀ r, p r.eraseId = p r)
    {rows rows' : List SmsSubsection}
    (h : rows.map (·.eraseId) = rows'.map (·.eraseId)) :
    (rows.filter p).map (·.eraseId) = (rows'.filter p).map (·.eraseId) := by
  have hmap (l : List SmsSubsection) :
      (l.filter p).map (·.eraseId) = (l.map (·.eraseId)).filter p := by
    simp only [List.filter_map, Function.comp_def, hp]
  rw [hmap, hmap, h]

theorem TableRelated.query (h : TableRelated foreign t u) {key : GroupKey}
    (hkey : ¬ foreign key) :
    (t.query key).map (·.eraseId) = (u.query key).map (·.eraseId) := by
  have hown : t.query key = (t.rows.filter (·.slotId = 0)).filter (·.groupKey = key) := by
    rw [SmsTable.query, List.filter_filter]
    apply List.filter_congr
    intro r hr
    by_cases hslot : r.slotId = 0
    · simp [hslot]
    · have hne : r.groupKey ≠ key := fun heq => hkey (heq ▸ h.other r hr hslot)
      simp [hne]
  rw [hown, SmsTable.query]
  exact map_eraseId_filter (fun _ => rfl) h.rows

/-- A deletion that hits alike rows of slot 0 and no foreign row. -/
theorem TableRelated.filter (h : TableRelated foreign t u) {p q : SmsSubsection → Bool}
    (hp : ∀ r, p r.eraseId = p r) {t' u' : SmsTable} (ht : t'.rows = t.rows.filter q)
    (hq : ∀ r ∈ t.rows, r.slotId = 0 → q r = p r) (hu : u'.rows = u.rows.filter p)
    (hids : t'.nextId = t.nextId ∧ u'.nextId = u.nextId) : TableRelated foreign t' u' where
  rows := by
    have hslot : (t.rows.filter q).filter (·.slotId = 0) =
        (t.rows.filter (·.slotId = 0)).filter p := by
      rw [List.filter_filter, List.filter_filter]
      apply List.filter_congr
      intro r hr
      by_cases hs : r.slotId = 0
      · simp [hs, hq r hr hs]
      · simp [hs]
    rw [ht, hu, hslot]
    exact map_eraseId_filter hp h.rows
  own r hr := h.own r (List.mem_of_mem_filter (ht ▸ hr))
  other r hr := h.other r (List.mem_of_mem_filter (ht ▸ hr))
  ids := by simpa [hids] using h.ids

/-- A change to foreign rows only. -/
theorem TableRelated.filter_foreign (h : TableRelated foreign t u) {q : SmsSubsection → Bool}
    {t' : SmsTable} (ht : t'.rows = t.rows.filter q)
    (hq : ∀ r ∈ t.rows, r.slotId = 0 → q r = true) (hids : t'.nextId = t.nextId) :
    TableRelated foreign t' u := by
  refine h.filter (p := fun _ => true) (fun _ => rfl) ht hq ?_ ⟨hids, rfl⟩
  simp

theorem TableRelated.delete (h : TableRelated foreign t u) (key : GroupKey) :
    TableRelated foreign (t.delete key) (u.delete key) :=
  h.filter (fun _ => rfl) rfl (fun _ _ _ => rfl) rfl ⟨rfl, rfl⟩

theorem TableRelated.delete_foreign (h : TableRelated foreign t u) {key : GroupKey}
    (hkey : foreign key) : TableRelated foreign (t.delete key) u := by
  refine h.filter_foreign rfl ?_ rfl
  intro r hr hslot
  have hne : r.groupKey ≠ key := fun heq => h.own r hr hslot (heq ▸ hkey)
  simp [hne]

theorem TableRelated.insert (h : TableRelated foreign t u) {i : SmsReceiveIndexer}
    (hkey : ¬ foreign i.groupKey) : TableRelated foreign (t.insert 0 i) (u.insert 0 i) where
  rows := by
    have heq : (SmsSubsection.ofIndexer t.nextId 0 i).eraseId =
        (SmsSubsection.ofIndexer u.nextId 0 i).eraseId := rfl
    have hslot : (SmsSubsection.ofIndexer t.nextId 0 i).slotId = 0 := rfl
    simp [SmsTable.insert, h.rows, heq, hslot]
  own r hr hslot := by
    rcases List.mem_append.mp hr with hr | hr
    · exact h.own r hr hslot
    · rw [List.mem_singleton.mp hr]
      exact hkey
  other r hr hslot := by
    rcases List.mem_append.mp hr with hr | hr
    · exact h.other r hr hslot
    · rw [List.mem_singleton.mp hr] at hslot
      exact absurd rfl hslot
  ids := ⟨by simp, by simp⟩

theorem TableRelated.insert_foreign (h : TableRelated foreign t u) {slotId : Nat}
    (hslot : slotId ≠ 0) {i : SmsReceiveIndexer} (hkey : foreign i.groupKey) :
    TableRelated foreign (t.insert slotId i) u where
  rows := by
    have hrow : (SmsSubsection.ofIndexer t.nextId slotId i).slotId ≠ 0 := hslot
    simp [SmsTable.insert, h.rows, hrow]
  own r hr hzero := by
    rcases List.mem_append.mp hr with hr | hr
    · exact h.own r hr hzero
    · rw [List.mem_singleton.mp hr] at hzero
      exact absurd hzero hslot
  other r hr hne := by
    rcases List.mem_append.mp hr with hr | hr
    · exact h.other r hr hne
    · rw [List.mem_singleton.mp hr]
      exact hkey
  ids := ⟨by simp, h.ids.2⟩

/-! ## Slot 0 in both runs -/

/-- Results of one call in the two runs: related tables, effects that look alike. -/
def ResultRelated (foreign : GroupKey → Prop) (r r' : SmsTable × List Effect) : Prop :=
  TableRelated foreign r.1 r'.1 ∧ r.2.map Effect.eraseIds = r'.2.map Effect.eraseIds

theorem TableRelated.expire (h : TableRelated foreign t u) (ds : DataShare) :
    (deleteExpireSmsFromDB ds 0 t).1 = (deleteExpireSmsFromDB ds 0 u).1 ∧
      ResultRelated foreign (deleteExpireSmsFromDB ds 0 t).2 (deleteExpireSmsFromDB ds 0 u).2 := by
  unfold deleteExpireSmsFromDB
  split
  · exact ⟨rfl, h, rfl⟩
  · have hexp : (t.expired 0 ds.deadlineTime).map (·.eraseId) =
        (u.expired 0 ds.deadlineTime).map (·.eraseId) := by
      have hown : t.expired 0 ds.deadlineTime =
          (t.rows.filter (·.slotId = 0)).filter (SmsTable.isExpired 0 ds.deadlineTime) := by
        rw [SmsTable.expired, List.filter_filter]
        apply List.filter_congr
        intro r _
        by_cases hslot : r.slotId = 0 <;> simp [SmsTable.isExpired, hslot]
      rw [hown, SmsTable.expired]
      exact map_eraseId_filter (fun _ => rfl) h.rows
    refine ⟨rfl, ?_, by simp [Effect.eraseIds, hexp]⟩
    exact h.filter (fun _ => rfl) rfl (fun _ _ _ => rfl) rfl ⟨rfl, rfl⟩

theorem TableRelated.expire_foreign (h : TableRelated foreign t u) (ds : DataShare) {slotId : Nat}
    (hslot : slotId ≠ 0) : TableRelated foreign (deleteExpireSmsFromDB ds slotId t).2.1 u := by
  unfold deleteExpireSmsFromDB
  split
  · exact h
  · refine h.filter_foreign rfl ?_ rfl
    intro r _ hzero
    simp [SmsTable.isExpired, hzero, Ne.symm hslot]

theorem TableRelated.isRepeatedMessagePart (h : TableRelated foreign t u)
    {i : SmsReceiveIndexer} (hkey : ¬ foreign i.groupKey) :
    isRepeatedMessagePart t i = isRepeatedMessagePart u i := by
  have hany (rows : List SmsSubsection) :
      (rows.any fun r => decide (r.toIndexer.msgSeqId = i.msgSeqId)) =
        (rows.map (·.eraseId)).any fun r => decide (r.toIndexer.msgSeqId = i.msgSeqId) := by
    rw [List.any_map]
    rfl
  unfold Receive.isRepeatedMessagePart
  rw [hany (t.query i.groupKey), h.query hkey, ← hany]

theorem combineRows_eraseId (msgSeg : Nat) (rows : List SmsSubsection) :
    combineRows msgSeg (rows.map (·.toIndexer)) =
      combineRows msgSeg ((rows.map (·.eraseId)).map (·.toIndexer)) := by
  simp only [combineRows, List.foldlM_map]
  rfl

theorem TableRelated.deleteMessageFormDb (h : TableRelated foreign t u) (ds : DataShare)
    {refId d d' msgCount : Nat} {address : String} (hd : d ≠ 0) (hd' : d' ≠ 0)
    (hkey : ¬ foreign ⟨address, refId, msgCount⟩) :
    ResultRelated foreign (deleteMessageFormDb ds t refId d msgCount address)
      (deleteMessageFormDb ds u refId d' msgCount address) := by
  unfold Receive.deleteMessageFormDb
  simp only [hd, hd', and_false, if_false]
  split
  · exact ⟨h.delete _, by simp [Effect.eraseIds, h.query hkey]⟩
  · exact ⟨h, rfl⟩

end Table

section CreateMessage

variable (createMessage : Pdu → Option SmsBaseMessage)

theorem updateMultiPageMessage_setDataBaseId (i : SmsReceiveIndexer) (pdus : List Pdu) (d : Nat) :
    updateMultiPageMessage createMessage (i.setDataBaseId d) pdus =
      (updateMultiPageMessage createMessage i pdus).map (·.setDataBaseId d) := by
  by_cases hport : i.destPort = wapPushPort
  · simp [updateMultiPageMessage, SmsReceiveIndexer.getIsWapPushMsg,
      SmsReceiveIndexer.setDataBaseId, hport, Function.comp_def]
  · simp [updateMultiPageMessage, SmsReceiveIndexer.getIsWapPushMsg,
      SmsReceiveIndexer.setDataBaseId, hport]

/-- Results of `CombineMultiPageMessage` for indexers that differ in the row key. -/
inductive CombineRelated (key : GroupKey) (d d' : Nat) : CombineResult → CombineResult → Prop where
  | incomplete : CombineRelated key d d' .incomplete .incomplete
  | thrown : CombineRelated key d d' .thrown .thrown
  | complete (j : SmsReceiveIndexer) (pdus : List Pdu) (hkey : j.groupKey = key) :
      CombineRelated key d d' (.complete (j.setDataBaseId d) pdus)
        (.complete (j.setDataBaseId d') pdus)

variable {foreign : GroupKey → Prop} {t u : SmsTable}

theorem TableRelated.combineMultiPageMessage (h : TableRelated foreign t u) (ds : DataShare)
    {i : SmsReceiveIndexer} {d d' : Nat} (hd : d ≠ 0) (hd' : d' ≠ 0)
    (hkey : ¬ foreign i.groupKey) :
    CombineRelated i.groupKey d d'
        (combineMultiPageMessage createMessage ds t (i.setDataBaseId d)).1
        (combineMultiPageMessage createMessage ds u (i.setDataBaseId d')).1 ∧
      ResultRelated foreign (combineMultiPageMessage createMessage ds t (i.setDataBaseId d)).2
        (combineMultiPageMessage createMessage ds u (i.setDataBaseId d')).2 := by
  have hrows : combineRows i.msgCount ((t.query i.groupKey).map (·.toIndexer)) =
      combineRows i.msgCount ((u.query i.groupKey).map (·.toIndexer)) := by
    rw [combineRows_eraseId, h.query hkey, ← combineRows_eraseId]
  simp only [Receive.combineMultiPageMessage, SmsReceiveIndexer.setDataBaseId_groupKey,
    SmsReceiveIndexer.setDataBaseId_msgCount, SmsReceiveIndexer.setDataBaseId_msgRefId,
    SmsReceiveIndexer.setDataBaseId_dataBaseId,
    SmsReceiveIndexer.setDataBaseId_originatingAddress, updateMultiPageMessage_setDataBaseId,
    hrows]
  cases combineRows i.msgCount ((u.query i.groupKey).map (·.toIndexer)) with
  | none => exact ⟨.incomplete, h.deleteMessageFormDb ds hd hd' hkey⟩
  | some st =>
      simp only
      split
      · exact ⟨.incomplete, h, rfl⟩
      · cases hupdate : updateMultiPageMessage createMessage i st.pdus with
        | none => exact ⟨.thrown, h, rfl⟩
        | some j =>
            exact ⟨.complete j st.pdus (updateMultiPageMessage_keys createMessage hupdate).1,
              h, rfl⟩

theorem TableRelated.deliverMessage (h : TableRelated foreign t u) (ds : DataShare)
    {i : SmsReceiveIndexer} {d d' : Nat} (hd : d ≠ 0) (hd' : d' ≠ 0)
    (hkey : ¬ foreign i.groupKey) (pdus : List Pdu) :
    ResultRelated foreign (deliverMessage ds 0 t (i.setDataBaseId d) pdus)
      (deliverMessage ds 0 u (i.setDataBaseId d') pdus) := by
  simp only [Receive.deliverMessage, sendBroadcast,
    SmsReceiveIndexer.setDataBaseId_getIsWapPushMsg,
    SmsReceiveIndexer.setDataBaseId_originatingAddress]
  by_cases hwap : i.getIsWapPushMsg = true
  · simp only [hwap, if_true]
    exact ⟨h, rfl⟩
  · simp only [hwap, if_false, Bool.false_eq_true]
    by_cases hct : isCtSmsc i.originatingAddress = true
    · have hdel := h.deleteMessageFormDb ds hd hd' hkey
      simp only [hct, if_true]
      refine ⟨hdel.1, ?_⟩
      rw [List.map_append, List.map_append]
      exact congrArg₂ _ rfl hdel.2
    · simp only [hct, if_false, Bool.false_eq_true]
      exact ⟨h, rfl⟩

theorem TableRelated.combineMessagePart (h : TableRelated foreign t u) (ds : DataShare)
    {i : SmsReceiveIndexer} {d d' : Nat} (hd : d ≠ 0) (hd' : d' ≠ 0)
    (hkey : ¬ foreign i.groupKey) :
    ResultRelated foreign (combineMessagePart createMessage ds 0 t (i.setDataBaseId d))
      (combineMessagePart createMessage ds 0 u (i.setDataBaseId d')) := by
  simp only [Receive.combineMessagePart, SmsReceiveIndexer.setDataBaseId_isSingleMsg]
  by_cases hsingle : i.isSingleMsg = true
  · simp only [hsingle, if_true]
    exact h.deliverMessage ds hd hd' hkey [i.pdu]
  · simp only [hsingle, if_false, Bool.false_eq_true]
    obtain ⟨hres, htab⟩ := h.combineMultiPageMessage createMessage ds hd hd' hkey
    generalize Receive.combineMultiPageMessage createMessage ds t (i.setDataBaseId d) = r
      at hres htab ⊢
    generalize Receive.combineMultiPageMessage createMessage ds u (i.setDataBaseId d') = r'
      at hres htab ⊢
    obtain ⟨res, t', out⟩ := r
    obtain ⟨res', u', out'⟩ := r'
    cases hres with
    | incomplete => exact htab
    | thrown => exact ⟨htab.1, by simpa using htab.2⟩
    | complete j pdus hj =>
        have hdel := htab.1.deliverMessage ds hd hd' (i := j) (hj ▸ hkey) pdus
        exact ⟨hdel.1, by simpa [hdel.2] using htab.2⟩

/-! ## One arrival -/

/-- What `storePart` leaves for `CombineMessagePart` in the two runs. -/
inductive StoredRelated (foreign : GroupKey → Prop) (i : SmsReceiveIndexer) :
    Stored → Stored → Prop where
  | ended {t u : SmsTable} {out out' : List Effect}
      (h : ResultRelated foreign (t, out) (u, out')) :
      StoredRelated foreign i (t, out, none) (u, out', none)
  | stored {t u : SmsTable} {out out' : List Effect} {d d' : Nat} (hd : d ≠ 0) (hd' : d' ≠ 0)
      (h : ResultRelated foreign (t, out) (u, out')) :
      StoredRelated foreign i (t, out, some (i.setDataBaseId d)) (u, out', some (i.setDataBaseId d'))

theorem ResultRelated.storeIndexer {out out' : List Effect} {i : SmsReceiveIndexer}
    (h : ResultRelated foreign (t, out) (u, out')) (ds : DataShare) (hkey : ¬ foreign i.groupKey) :
    StoredRelated foreign i (storeIndexer ds 0 t out i) (storeIndexer ds 0 u out' i) := by
  unfold Receive.storeIndexer addMsgToDB
  by_cases hins : ds.insertOk = true
  · simp only [hins, if_true]
    exact .stored h.1.ids.1 h.1.ids.2 ⟨h.1.insert hkey, h.2⟩
  · simp only [hins, if_false, Bool.false_eq_true]
    exact .ended h

theorem TableRelated.storeThenExpire (h : TableRelated foreign t u) (ds : DataShare)
    {i : SmsReceiveIndexer} (hkey : ¬ foreign i.groupKey) :
    StoredRelated foreign i (storeThenExpire ds 0 t i) (storeThenExpire ds 0 u i) := by
  unfold Receive.storeThenExpire addMsgToDB
  by_cases hins : ds.insertOk = true
  · simp only [hins, if_true]
    obtain ⟨hok, hexp⟩ := (h.insert hkey).expire ds
    generalize deleteExpireSmsFromDB ds 0 (t.insert 0 i) = r at hok hexp ⊢
    generalize deleteExpireSmsFromDB ds 0 (u.insert 0 i) = r' at hok hexp ⊢
    obtain ⟨ok, t', out⟩ := r
    obtain ⟨ok', u', out'⟩ := r'
    obtain rfl : ok = ok' := hok
    cases ok with
    | false => exact .ended hexp
    | true => exact .stored h.ids.1 h.ids.2 hexp
  · simp only [hins, if_false, Bool.false_eq_true]
    exact .ended ⟨h, rfl⟩

theorem TableRelated.isRepeated (h : TableRelated foreign t u) {m : ReceivedSms}
    (hkey : ¬ foreign m.indexer.groupKey) : m.isRepeated t = m.isRepeated u := by
  rw [ReceivedSms.isRepeated_eq, ReceivedSms.isRepeated_eq, h.isRepeatedMessagePart hkey]

theorem TableRelated.storePart (h : TableRelated foreign t u) {a : Arrival} (hslot : a.slotId = 0)
    (hkey : ¬ foreign a.groupKey) :
    StoredRelated foreign a.message.indexer (a.storePart t) (a.storePart u) := by
  obtain ⟨slotId, ds, deferred, message⟩ := a
  obtain rfl : slotId = 0 := hslot
  obtain ⟨-, hexp⟩ := h.expire ds
  cases message with
  | gsm m =>
      have hrep := hexp.1.isRepeated (m := .gsm m) hkey
      cases deferred with
      | false =>
          simp only [Arrival.storePart, hrep]
          split
          · exact .ended ⟨h, rfl⟩
          · split
            · exact .ended hexp
            · exact hexp.storeIndexer ds hkey
      | true =>
          simp only [Arrival.storePart, hrep]
          split
          · exact .ended hexp
          · exact hexp.storeIndexer ds hkey
  | cdma alive m =>
      have hrep := h.isRepeated (m := .cdma alive m) hkey
      have hstore : StoredRelated foreign (m.toIndexer true)
          (if (ReceivedSms.cdma alive m).isRepeated u then (t, [], none)
            else Receive.storeThenExpire ds 0 t (m.toIndexer true))
          (if (ReceivedSms.cdma alive m).isRepeated u then (u, [], none)
            else Receive.storeThenExpire ds 0 u (m.toIndexer true)) := by
        split
        · exact .ended ⟨h, rfl⟩
        · exact h.storeThenExpire ds hkey
      cases deferred with
      | false =>
          simp only [Arrival.storePart, hrep]
          cases CdmaSmsReceiveHandler.answeredAtOnce 0 alive m with
          | some answer => exact .ended ⟨h, rfl⟩
          | none => exact hstore
      | true =>
          simp only [Arrival.storePart, hrep]
          exact hstore

/-- An arrival on slot 0 does the same in the two runs. -/
theorem TableRelated.process (h : TableRelated foreign t u) {a : Arrival} (hslot : a.slotId = 0)
    (hkey : ¬ foreign a.groupKey) :
    ResultRelated foreign (a.process createMessage t) (a.process createMessage u) := by
  rw [Arrival.process_eq, Arrival.process_eq, hslot]
  have hstored := h.storePart hslot hkey
  generalize a.storePart t = stored at hstored ⊢
  generalize a.storePart u = stored' at hstored ⊢
  cases hstored with
  | ended hres => exact hres
  | stored hd hd' hres =>
      have hcomb := hres.1.combineMessagePart createMessage a.ds hd hd' hkey
      exact ⟨hcomb.1, by simpa [combineStored, hcomb.2] using hres.2⟩

/-- An arrival on another slot touches none of slot 0's rows. -/
theorem TableRelated.process_foreign (h : TableRelated foreign t u) {a : Arrival}
    (hslot : a.slotId ≠ 0) (hkey : foreign a.groupKey) :
    TableRelated foreign (a.process createMessage t).1 u :=
  process_preserves (P := fun t => TableRelated foreign t u) createMessage
    (fun _ h => h.expire_foreign a.ds hslot) (fun _ h => h.insert_foreign hslot hkey)
    (fun _ h => h.delete_foreign hkey) h

/-! ## Whole runs -/

/-- The world of all slots beside the world of slot 0 alone. -/
structure WorldRelated (foreign : GroupKey → Prop) (w v : World) : Prop where
  table : TableRelated foreign w.table v.table
  published : (w.published 0).map (·.eraseId) = (v.published 0).map (·.eraseId)
  own : ∀ p ∈ w.published 0, ¬ foreign p.groupKey ∧ p.dataBaseId ≠ 0
  ownAlone : ∀ p ∈ v.published 0, p.dataBaseId ≠ 0
  other : ∀ slotId, slotId ≠ 0 → ∀ p ∈ w.published slotId, foreign p.groupKey

theorem Effect.publication?_eraseIds (e : Effect) :
    e.eraseIds.publication? = e.publication?.map (·.eraseId) := by
  cases e with
  | broadcast b =>
      simp only [eraseIds, publication?]
      split <;> rfl
  | _ => rfl

theorem filterMap_publication_eq {out out' : List Effect}
    (h : out.map Effect.eraseIds = out'.map Effect.eraseIds) :
    (out.filterMap Effect.publication?).map (·.eraseId) =
      (out'.filterMap Effect.publication?).map (·.eraseId) := by
  have hmap (l : List Effect) : (l.filterMap Effect.publication?).map (·.eraseId) =
      (l.map Effect.eraseIds).filterMap Effect.publication? := by
    rw [List.map_filterMap, List.filterMap_map]
    congr 1
    funext e
    exact (e.publication?_eraseIds).symm
  rw [hmap, hmap, h]

variable {w v : World}

theorem WorldRelated.arrival (h : WorldRelated foreign w v) {a : Arrival} (hslot : a.slotId = 0)
    (hkey : ¬ foreign a.groupKey) :
    WorldRelated foreign (w.step createMessage (.arrival a)).1
        (v.step createMessage (.arrival a)).1 ∧
      (w.step createMessage (.arrival a)).2.map Effect.eraseIds =
        (v.step createMessage (.arrival a)).2.map Effect.eraseIds := by
  obtain ⟨htable, hout⟩ := h.table.process createMessage hslot hkey
  have hpub := process_publications createMessage a w.table
  have hpub' := process_publications createMessage a v.table
  refine ⟨⟨htable, ?_, ?_, ?_, ?_⟩, hout⟩
  · simp [World.step, hslot, h.published, filterMap_publication_eq hout]
  · intro p hp
    simp only [World.step, hslot, Function.update_self, List.mem_append] at hp
    rcases hp with hp | hp
    · exact h.own p hp
    · obtain rfl := hpub p hp
      exact ⟨hkey, h.table.ids.1⟩
  · intro p hp
    simp only [World.step, hslot, Function.update_self, List.mem_append] at hp
    rcases hp with hp | hp
    · exact h.ownAlone p hp
    · obtain rfl := hpub' p hp
      exact h.table.ids.2
  · intro slotId hne p hp
    simp only [World.step, hslot, Function.update_of_ne hne] at hp
    exact h.other slotId hne p hp

theorem WorldRelated.arrival_foreign (h : WorldRelated foreign w v) {a : Arrival}
    (hslot : a.slotId ≠ 0) (hkey : foreign a.groupKey) :
    WorldRelated foreign (w.step createMessage (.arrival a)).1 v := by
  have hpub := process_publications createMessage a w.table
  have hzero : (w.step createMessage (.arrival a)).1.published 0 = w.published 0 := by
    simp [World.step, Function.update_of_ne (Ne.symm hslot)]
  refine ⟨h.table.process_foreign createMessage hslot hkey, by rw [hzero]; exact h.published,
    by rw [hzero]; exact h.own, h.ownAlone, ?_⟩
  intro slotId hne p hp
  by_cases hsame : slotId = a.slotId
  · subst hsame
    simp only [World.step, Function.update_self, List.mem_append] at hp
    rcases hp with hp | hp
    · exact h.other a.slotId hslot p hp
    · obtain rfl := hpub p hp
      exact hkey
  · simp only [World.step, Function.update_of_ne hsame] at hp
    exact h.other slotId hne p hp

theorem WorldRelated.completed (h : WorldRelated foreign w v) (ds : DataShare) (n : Nat) :
    WorldRelated foreign (w.step createMessage (.completed 0 ds n)).1
        (v.step createMessage (.completed 0 ds n)).1 ∧
      (w.step createMessage (.completed 0 ds n)).2.map Effect.eraseIds =
        (v.step createMessage (.completed 0 ds n)).2.map Effect.eraseIds := by
  have hget : ((w.published 0)[n]?).map (·.eraseId) = ((v.published 0)[n]?).map (·.eraseId) := by
    rw [← List.getElem?_map, h.published, List.getElem?_map]
  simp only [World.step]
  cases hp : (w.published 0)[n]? with
  | none =>
      cases hq : (v.published 0)[n]? with
      | none => exact ⟨h, rfl⟩
      | some q => simp [hp, hq] at hget
  | some p =>
      cases hq : (v.published 0)[n]? with
      | none => simp [hp, hq] at hget
      | some q =>
          obtain ⟨refId, d, msgCount, address⟩ := p
          obtain ⟨refId', d', msgCount', address'⟩ := q
          obtain ⟨rfl, rfl, rfl⟩ : refId = refId' ∧ msgCount = msgCount' ∧ address = address' := by
            simpa [hp, hq, Publication.eraseId] using hget
          obtain ⟨hkey, hd⟩ := h.own _ (List.mem_of_getElem? hp)
          have hd' := h.ownAlone _ (List.mem_of_getElem? hq)
          obtain ⟨htable, hout⟩ := h.table.deleteMessageFormDb ds hd hd' hkey
          refine ⟨⟨htable, ?_, ?_, ?_, ?_⟩, hout⟩
          · simp [← List.eraseIdx_map, h.published]
          · intro p hp
            simp only [Function.update_self] at hp
            exact h.own p (List.mem_of_mem_eraseIdx hp)
          · intro p hp
            simp only [Function.update_self] at hp
            exact h.ownAlone p (List.mem_of_mem_eraseIdx hp)
          · intro slotId hne p hp
            simp only [Function.update_of_ne hne] at hp
            exact h.other slotId hne p hp

theorem WorldRelated.completed_foreign (h : WorldRelated foreign w v) {slotId : Nat}
    (hslot : slotId ≠ 0) (ds : DataShare) (n : Nat) :
    WorldRelated foreign (w.step createMessage (.completed slotId ds n)).1 v := by
  simp only [World.step]
  cases hp : (w.published slotId)[n]? with
  | none => exact h
  | some p =>
      have hkey := h.other slotId hslot p (List.mem_of_getElem? hp)
      have hzero : Function.update w.published slotId ((w.published slotId).eraseIdx n) 0 =
          w.published 0 := Function.update_of_ne (Ne.symm hslot) _ _
      have htable : TableRelated foreign (deleteMessageFormDb ds w.table p.refId p.dataBaseId
          p.msgCount p.address).1 v.table := by
        rcases deleteMessageFormDb_table ds w.table p.refId p.dataBaseId p.msgCount p.address with
          hdel | hdel
        · rw [hdel]
          exact h.table
        · rw [hdel]
          exact h.table.delete_foreign hkey
      refine ⟨htable, ?_, ?_, h.ownAlone, ?_⟩
      · simp only [hzero, h.published]
      · simp only [hzero]
        exact h.own
      · intro slot hne q hq
        by_cases hsame : slot = slotId
        · subst hsame
          simp only [Function.update_self] at hq
          exact h.other slot hne q (List.mem_of_mem_eraseIdx hq)
        · simp only [Function.update_of_ne hsame] at hq
          exact h.other slot hne q hq

/-- Slot isolation: as long as no other slot receives a message with the sender,
reference and count of a message of slot 0, what slot 0's events emit is what they
would emit if the other slots received nothing. -/
theorem slot_isolation (es : List WorldEvent)
    (h : ∀ a b, .arrival a ∈ es → .arrival b ∈ es → a.slotId = 0 → b.slotId ≠ 0 →
      a.groupKey ≠ b.groupKey) :
    (outputsOf (fun e => e.slotId = 0) (World.step createMessage) .init es).map
        Effect.eraseIds =
      (outputs (World.step createMessage) .init
        (es.filter fun e => e.slotId = 0)).map Effect.eraseIds := by
  let foreign : GroupKey → Prop := fun key =>
    ∃ b, .arrival b ∈ es ∧ b.slotId ≠ 0 ∧ b.groupKey = key
  have hinit : WorldRelated foreign .init .init := by
    refine ⟨⟨rfl, ?_, ?_, ?_⟩, rfl, ?_, ?_, ?_⟩ <;> simp [World.init, SmsTable.empty]
  refine outputsOf_eq_of_unwinding Effect.eraseIds (WorldRelated foreign) es ?_ ?_ hinit
  · intro e he hp w v hrel
    have hslot : e.slotId = 0 := of_decide_eq_true hp
    cases e with
    | arrival a =>
        refine hrel.arrival createMessage hslot ?_
        rintro ⟨b, hb, hne, hkey⟩
        exact h a b he hb hslot hne hkey.symm
    | completed slotId ds n =>
        obtain rfl : slotId = 0 := hslot
        exact hrel.completed createMessage ds n
  · intro e he hp w v hrel
    have hslot : e.slotId ≠ 0 := of_decide_eq_false hp
    cases e with
    | arrival a => exact hrel.arrival_foreign createMessage hslot ⟨a, he, hslot, rfl⟩
    | completed slotId ds n => exact hrel.completed_foreign createMessage hslot ds n

end CreateMessage

/-- Part `seqNum` of a two-part text from `address`, received on `slotId`. -/
def textPartOn (slotId : Nat) (address : String) (seqNum : Nat) : Arrival where
  slotId := slotId
  ds := ⟨true, true, true, 1⟩
  deferred := false
  message := .gsm ⟨⟨[seqNum.toUInt8], 1, -1, address, address, "", [], [],
    some ⟨7, seqNum, 2⟩⟩, 0, .classUnknown, false, false⟩

/-- Texts of two senders, one on each slot. -/
theorem slot_isolation_two_senders :
    let es : List WorldEvent := [.arrival (textPartOn 0 "1" 1), .arrival (textPartOn 1 "2" 1),
      .arrival (textPartOn 0 "1" 2)]
    (outputsOf (fun e => e.slotId = 0) (World.step fun _ => none) .init es).map
        Effect.eraseIds =
      (outputs (World.step fun _ => none) .init
        (es.filter fun e => e.slotId = 0)).map Effect.eraseIds := by
  apply slot_isolation
  intro a b ha hb hzero hne
  simp only [List.mem_cons, WorldEvent.arrival.injEq, List.not_mem_nil, or_false] at ha hb
  rcases ha with rfl | rfl | rfl <;> rcases hb with rfl | rfl | rfl <;> revert hzero hne <;>
    decide

/-- The second part on slot 1, the first on slot 0: the table holds both, so slot 0
broadcasts a message of which it received one part. -/
theorem slot_isolation_fails_for_shared_key :
    let es : List WorldEvent := [.arrival (textPartOn 1 "1" 2), .arrival (textPartOn 0 "1" 1)]
    (outputsOf (fun e => e.slotId = 0) (World.step fun _ => none) .init es).map
        Effect.eraseIds ≠
      (outputs (World.step fun _ => none) .init
        (es.filter fun e => e.slotId = 0)).map Effect.eraseIds := by
  decide

end TelephonySms.Receive
