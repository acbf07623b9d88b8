import TelephonySms.Receive.System

/-! # When counting rows decides completeness

`CombineMultiPageMessage` compares the number of stored rows, held in an
`int8_t`, with the total. The count says that every part is there as long as a
group never holds the same part twice and has at most 127 parts; the filter in
front of the insert keeps the first of these for text messages only.
-/

namespace TelephonySms.Receive

open TelephonySms.Machine

/-- `CombineMultiPageMessage` returned true. -/
def CombineResult.returnsTrue : CombineResult → Bool
  | .complete _ _ => true
  | _ => false

section CreateMessage

variable (createMessage : Pdu → Option SmsBaseMessage)

/-- The WAP user data of the page does not end inside a sequence header. -/
def WapHeaderWhole (pdu : Pdu) : Prop :=
  ∀ m, createMessage pdu = some m → stripWapSeqNumber m.rawWapPushUserData ≠ none

/-- What a part of a concatenated message must meet in the table it arrives at. -/
structure Arrival.Countable (t : SmsTable) (a : Arrival) : Prop where
  total : a.message.indexer.msgCount ≤ 127
  inRange : 1 ≤ a.message.indexer.msgSeqId ∧
    a.message.indexer.msgSeqId ≤ a.message.indexer.msgCount
  notStored : a.message.indexer.getIsText = false →
    ∀ r ∈ t.query a.groupKey, r.subsectionIndex ≠ a.message.indexer.msgSeqId
  header : a.message.indexer.getIsWapPushMsg = true →
    WapHeaderWhole createMessage a.message.indexer.pdu ∧
    ∀ r ∈ t.query a.groupKey, WapHeaderWhole createMessage r.rewPdu

/-- The condition on a step; messages in one part are not concerned. -/
def CountableStep (w : World) : WorldEvent → Prop
  | .arrival a => 2 ≤ a.message.indexer.msgCount → a.Countable createMessage w.table
  | .completed _ _ _ => True

/-- No group of a concatenated message holds a foreign or a repeated part. -/
def PartsDistinct (t : SmsTable) : Prop :=
  ∀ key : GroupKey, 2 ≤ key.msgCount → DistinctParts key.msgCount (t.query key)

variable {createMessage}

theorem PartsDistinct.sublist {t t' : SmsTable} (h : PartsDistinct t)
    (hsub : t'.rows.Sublist t.rows) : PartsDistinct t' := by
  intro key hkey
  exact (h key hkey).sublist (hsub.filter _)

/-- What the handlers' filter says of a text part it lets through. -/
theorem ReceivedSms.not_stored_of_isRepeated {m : ReceivedSms} {t : SmsTable}
    (h : m.isRepeated t = false) (hcount : 2 ≤ m.indexer.msgCount)
    (htext : m.indexer.getIsText = true) :
    ∀ r ∈ t.query m.indexer.groupKey, r.subsectionIndex ≠ m.indexer.msgSeqId := by
  have hconcat := isConcatMsg_of_msgCount (m := m) (by omega)
  have hrep : isRepeatedMessagePart t m.indexer = false := by
    simpa [isRepeated_eq, htext, hconcat] using h
  intro r hr hseq
  simp only [isRepeatedMessagePart, List.any_eq_false] at hrep
  exact hrep r hr (decide_eq_true hseq)

/-- Storing a part keeps the groups free of repetitions. -/
theorem PartsDistinct.storePart {t : SmsTable} {a : Arrival} (h : PartsDistinct t)
    (hok : 2 ≤ a.message.indexer.msgCount → a.Countable createMessage t) :
    PartsDistinct (a.storePart t).1 := by
  have hout := a.storePart_outcome t
  generalize a.storePart t = stored at hout ⊢
  cases hout with
  | kept rows nextId => exact h.sublist rows
  | @added t₁ t' out called rows₁ fresh rows nextId indexer =>
      have h₁ := h.sublist rows₁
      suffices hins : PartsDistinct
          ⟨t₁.rows ++ [.ofIndexer t.nextId a.slotId a.message.indexer], 0⟩ from hins.sublist rows
      intro key hkey
      by_cases hgroup : a.message.indexer.groupKey = key
      · subst hgroup
        have hcountable := hok hkey
        -- the filter vouches for a text part, the condition for any other
        have hnew : ∀ r ∈ t₁.query a.message.indexer.groupKey,
            r.subsectionIndex ≠ a.message.indexer.msgSeqId := by
          cases htext : a.message.indexer.getIsText with
          | true => exact ReceivedSms.not_stored_of_isRepeated fresh hkey htext
          | false =>
              intro r hr
              exact hcountable.notStored htext r ((rows₁.filter _).subset hr)
        have hdistinct := (h₁ _ hkey).append
          (r := .ofIndexer t.nextId a.slotId a.message.indexer) hcountable.inRange hnew
        simpa [SmsTable.query] using hdistinct
      · simpa [SmsTable.query, hgroup] using h₁ key hkey

theorem PartsDistinct.step {w : World} {e : WorldEvent} (hok : CountableStep createMessage w e)
    (h : PartsDistinct w.table) : PartsDistinct (w.step createMessage e).1.table := by
  cases e with
  | arrival a =>
      have hstored := h.storePart hok
      simp only [World.step, Arrival.process_eq]
      exact hstored.sublist (combineStored_table ..)
  | completed slotId ds n =>
      simp only [World.step]
      split
      · exact h
      · exact h.sublist (deleteMessageFormDb_table ..).rows

theorem partsDistinct_run {es : List WorldEvent}
    (h : Guarded (next (World.step createMessage)) (CountableStep createMessage) .init es) :
    PartsDistinct (es.foldl (next (World.step createMessage)) .init).table := by
  have hinit : PartsDistinct World.init.table := by
    intro key _
    exact ⟨by simp [World.init, SmsTable.empty, SmsTable.query],
      by simp [World.init, SmsTable.empty, SmsTable.query]⟩
  have hstep : ∀ w e, CountableStep createMessage w e → PartsDistinct w.table →
      PartsDistinct (next (World.step createMessage) w e).table := fun _ _ hok hw => hw.step hok
  exact Guarded.invariant hstep h hinit

/-- The arguments `CombineMultiPageMessage` is called with, when the arrival reaches it. -/
theorem Arrival.Countable.called {t t' : SmsTable} {a : Arrival} {out : List Effect}
    {indexer : SmsReceiveIndexer} (h : PartsDistinct t)
    (hok : 2 ≤ a.message.indexer.msgCount → a.Countable createMessage t)
    (hcall : a.storePart t = (t', out, some indexer)) (hcount : 2 ≤ indexer.msgCount) :
    DistinctParts indexer.msgCount (t'.query indexer.groupKey) ∧ indexer.msgCount ≤ 127 ∧
      (indexer.getIsWapPushMsg = true →
        ∀ r ∈ t'.query indexer.groupKey, WapHeaderWhole createMessage r.rewPdu) := by
  have hstored := h.storePart hok
  have hout := a.storePart_outcome t
  rw [hcall] at hstored hout
  cases hout with
  | @added t₁ _ _ _ rows₁ fresh rows nextId hindexer =>
      obtain rfl := hindexer indexer rfl
      have hcountable := hok hcount
      refine ⟨hstored a.groupKey hcount, hcountable.total, fun hwap r hr => ?_⟩
      have hheader := hcountable.header hwap
      obtain ⟨hmem, hkey⟩ := SmsTable.mem_query.mp hr
      rcases List.mem_append.mp (rows.subset hmem) with hold | hnew
      · exact hheader.2 r (SmsTable.mem_query.mpr ⟨rows₁.subset hold, hkey⟩)
      · rw [List.mem_singleton.mp hnew]
        exact hheader.1

theorem combinedWapUserData_ne_none {pages : List SmsBaseMessage}
    (h : ∀ m ∈ pages, stripWapSeqNumber m.rawWapPushUserData ≠ none) :
    combinedWapUserData pages ≠ none := by
  suffices hmap : ∃ data, pages.mapM (fun m => stripWapSeqNumber m.rawWapPushUserData) =
      some data by
    obtain ⟨data, hdata⟩ := hmap
    simp [combinedWapUserData, hdata]
  induction pages with
  | nil => exact ⟨[], rfl⟩
  | cons m pages ih =>
      obtain ⟨data, hdata⟩ := ih fun q hq => h q (by simp [hq])
      obtain ⟨page, hpage⟩ := Option.ne_none_iff_exists'.mp (h m (by simp))
      exact ⟨page :: data, by simp [List.mapM_cons, hpage, hdata]⟩

/-- Pages whose headers are whole are combined without an exception. -/
theorem updateMultiPageMessage_ne_none {indexer : SmsReceiveIndexer} {pdus : List Pdu}
    (h : indexer.getIsWapPushMsg = true →
      ∀ pdu ∈ pdus, pdu ≠ [] → WapHeaderWhole createMessage pdu) :
    updateMultiPageMessage createMessage indexer pdus ≠ none := by
  simp only [updateMultiPageMessage]
  split
  · rename_i hwap
    have hpages : ∀ m ∈ pageMessages createMessage pdus,
        stripWapSeqNumber m.rawWapPushUserData ≠ none := by
      intro m hm
      obtain ⟨pdu, hpdu, hcreate⟩ := List.mem_filterMap.mp hm
      obtain ⟨hmem, hne⟩ := List.mem_filter.mp hpdu
      exact h hwap pdu hmem (by simpa using hne) m hcreate
    simpa using combinedWapUserData_ne_none hpages
  · simp

variable (createMessage)

/-- In a run whose parts can be counted, `CombineMultiPageMessage` returns true
exactly when the group covers the message, and otherwise nothing is handed on. -/
theorem combineMultiPageMessage_returnsTrue_iff (es : List WorldEvent) (a : Arrival)
    (h : Guarded (next (World.step createMessage)) (CountableStep createMessage) .init
      (es ++ [.arrival a])) :
    ∀ t out indexer,
      a.storePart (es.foldl (next (World.step createMessage)) .init).table =
        (t, out, some indexer) →
      2 ≤ indexer.msgCount →
      ((combineMultiPageMessage createMessage a.ds t indexer).1.returnsTrue = true ↔
        Covered indexer.msgCount (t.query indexer.groupKey)) ∧
      (¬ Covered indexer.msgCount (t.query indexer.groupKey) →
        combineMessagePart createMessage a.ds a.slotId t indexer = (t, [])) := by
  intro t out indexer hcall hcount
  have hdistinct := partsDistinct_run h.of_append_left
  have hok : 2 ≤ a.message.indexer.msgCount → a.Countable createMessage _ := h.of_append_right.1
  obtain ⟨hparts, hmax, hheader⟩ := Arrival.Countable.called hdistinct hok hcall hcount
  obtain ⟨hcov, hncov⟩ := combineMultiPageMessage_of_distinctParts createMessage a.ds t indexer
    hparts (by omega) hmax
  have hupdate : updateMultiPageMessage createMessage indexer
      (pagesOf indexer.msgCount (t.query indexer.groupKey)) ≠ none := by
    apply updateMultiPageMessage_ne_none
    intro hwap pdu hpdu hne
    rcases TelephonySms.Pages.mem_of_mem_place hpdu with hrep | ⟨r, hr, rfl⟩
    · exact absurd (List.eq_of_mem_replicate hrep) hne
    · exact hheader hwap r hr
  constructor
  · by_cases hc : Covered indexer.msgCount (t.query indexer.groupKey)
    · obtain ⟨indexer', hsome⟩ := Option.ne_none_iff_exists'.mp hupdate
      simp [hcov hc, hsome, hc, CombineResult.returnsTrue]
    · simp [hncov hc, hc, CombineResult.returnsTrue]
  · intro hc
    have hmulti : indexer.isSingleMsg = false := by
      simp only [SmsReceiveIndexer.isSingleMsg, decide_eq_false_iff_not]
      omega
    simp [combineMessagePart, hmulti, hncov hc]

end CreateMessage

/-- A GSM part from one sender, for the witnesses below. -/
def partFrom (slotId : Nat) (destPort : Int) (seqNum totalSeg : Nat) : Arrival where
  slotId := slotId
  ds := ⟨true, true, true, 0⟩
  deferred := false
  message := .gsm ⟨⟨[0x40 + seqNum.toUInt8], 1, destPort, "1", "1", "", [], [],
    some ⟨7, seqNum, totalSeg⟩⟩, 0, .classUnknown, false, false⟩

/-- Two text parts of two: the second arrival completes the message. -/
theorem combineMultiPageMessage_returnsTrue_two_parts :
    ∃ t out indexer,
      (partFrom 0 (-1) 2 2).storePart ([WorldEvent.arrival (partFrom 0 (-1) 1 2)].foldl
        (next (World.step fun _ => none)) .init).table = (t, out, some indexer) ∧
      (combineMultiPageMessage (fun _ => none) ⟨true, true, true, 0⟩ t indexer).1.returnsTrue =
        true ∧
      Covered 2 (t.query indexer.groupKey) := by
  have hguard : Guarded (next (World.step fun _ => none)) (CountableStep fun _ => none) .init
      ([.arrival (partFrom 0 (-1) 1 2)] ++ [.arrival (partFrom 0 (-1) 2 2)]) := by
    have hnotWap (seqNum : Nat) :
        (partFrom 0 (-1) seqNum 2).message.indexer.getIsWapPushMsg ≠ true := by
      simp [partFrom, ReceivedSms.indexer, GsmSmsMessage.indexer, SmsBaseMessage.toIndexer,
        SmsReceiveIndexer.getIsWapPushMsg, wapPushPort]
    refine ⟨fun _ => ⟨?_, ?_, ?_, fun hwap => absurd hwap (hnotWap 1)⟩,
      fun _ => ⟨?_, ?_, ?_, fun hwap => absurd hwap (hnotWap 2)⟩, trivial⟩ <;> decide
  have hspec := combineMultiPageMessage_returnsTrue_iff (fun _ => none)
    [.arrival (partFrom 0 (-1) 1 2)] (partFrom 0 (-1) 2 2) hguard _ _ _ rfl (by decide)
  refine ⟨_, _, _, rfl, rfl, hspec.1.mp rfl⟩

/-- Part one of two for port 5000, delivered twice: no filter looks at the second
copy, two rows make two parts, and the message is handed on without its second
part. -/
theorem combineMultiPageMessage_returnsTrue_repeated_data :
    ∃ t out indexer,
      (partFrom 0 5000 1 2).storePart ([WorldEvent.arrival (partFrom 0 5000 1 2)].foldl
        (next (World.step fun _ => none)) .init).table = (t, out, some indexer) ∧
      (combineMultiPageMessage (fun _ => none) ⟨true, true, true, 0⟩ t indexer).1.returnsTrue =
        true ∧
      ¬ Covered indexer.msgCount (t.query indexer.groupKey) := by
  refine ⟨_, _, _, rfl, rfl, fun hcov => ?_⟩
  obtain ⟨r, hr, hseq, _⟩ := hcov 2 (by decide) (by decide)
  revert hseq
  revert r
  decide

end TelephonySms.Receive
