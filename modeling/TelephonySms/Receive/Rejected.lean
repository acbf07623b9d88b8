import TelephonySms.Receive.Handler

/-! # CDMA messages that are refused

`HandleSmsOtherSvcid` inserts the message, deletes expired rows and combines the
parts, and answers with an error when one of the first two steps fails. The network
then delivers the message once more.
-/

namespace TelephonySms.Receive

namespace CdmaSmsReceiveHandler

variable (createMessage : Pdu → Option SmsBaseMessage) (slotId : Nat)

/-- A refused message leaves the table as it was, so that its next delivery, under
whatever the data share answers then, goes as if it were the first. -/
def LeavesNoTrace (ds : DataShare) (t : SmsTable) (m : CdmaSmsMessage) : Prop :=
  (handleSmsOtherSvcid createMessage slotId ds t m).1 ≠ .resultOk →
    (handleSmsOtherSvcid createMessage slotId ds t m).2.1 = t ∧
    ∀ ds', handleSmsOtherSvcid createMessage slotId ds'
        (handleSmsOtherSvcid createMessage slotId ds t m).2.1 m =
      handleSmsOtherSvcid createMessage slotId ds' t m

theorem handleSmsOtherSvcid_of_repeated (ds : DataShare) {t : SmsTable} {m : CdmaSmsMessage}
    (h : isRepeated t m = true) :
    handleSmsOtherSvcid createMessage slotId ds t m = (.resultOk, t, []) := by
  rw [handleSmsOtherSvcid, if_pos h]

theorem handleSmsOtherSvcid_of_not_insertOk {ds : DataShare} {t : SmsTable} {m : CdmaSmsMessage}
    (h : isRepeated t m = false) (hinsert : ds.insertOk = false) :
    handleSmsOtherSvcid createMessage slotId ds t m = (.unknownError, t, []) := by
  simp [handleSmsOtherSvcid, h, addMsgToDB, hinsert]

/-- The row stays when the deletion behind it fails. -/
theorem handleSmsOtherSvcid_of_not_deleted {ds : DataShare} {t : SmsTable} {m : CdmaSmsMessage}
    (h : isRepeated t m = false) (hinsert : ds.insertOk = true)
    (hdelete : ds.deadlineTime ≤ 0 ∨ ds.deleteOk = false) :
    handleSmsOtherSvcid createMessage slotId ds t m =
      (.unknownError, t.insert slotId (m.toIndexer true), []) := by
  simp [handleSmsOtherSvcid, h, addMsgToDB, hinsert, deleteExpireSmsFromDB, hdelete]

theorem handleSmsOtherSvcid_of_deleted {ds : DataShare} {t : SmsTable} {m : CdmaSmsMessage}
    (h : isRepeated t m = false) (hinsert : ds.insertOk = true)
    (hdelete : ¬ (ds.deadlineTime ≤ 0 ∨ ds.deleteOk = false)) :
    (handleSmsOtherSvcid createMessage slotId ds t m).1 = .resultOk := by
  simp [handleSmsOtherSvcid, h, addMsgToDB, hinsert, deleteExpireSmsFromDB, hdelete]

theorem insert_ne_self (t : SmsTable) (i : SmsReceiveIndexer) : t.insert slotId i ≠ t := by
  intro heq
  have hnext := congrArg SmsTable.nextId heq
  simp at hnext

/-- A message leaves no trace unless it is new, is inserted, and the deletion of the
expired rows behind it fails. -/
theorem leavesNoTrace_iff (ds : DataShare) (t : SmsTable) (m : CdmaSmsMessage) :
    LeavesNoTrace createMessage slotId ds t m ↔
      isRepeated t m = true ∨ ds.insertOk = false ∨ 0 < ds.deadlineTime ∧ ds.deleteOk = true := by
  unfold LeavesNoTrace
  cases hrepeated : isRepeated t m with
  | true => simp [handleSmsOtherSvcid_of_repeated createMessage slotId ds hrepeated]
  | false =>
      cases hinsert : ds.insertOk with
      | false => simp [handleSmsOtherSvcid_of_not_insertOk createMessage slotId hrepeated hinsert]
      | true =>
          by_cases hdelete : ds.deadlineTime ≤ 0 ∨ ds.deleteOk = false
          · rw [handleSmsOtherSvcid_of_not_deleted createMessage slotId hrepeated hinsert hdelete]
            have hne := insert_ne_self slotId t (m.toIndexer true)
            simp only [ne_eq, reduceCtorEq, not_false_eq_true, hne, false_and, forall_true_left,
              Bool.false_eq_true, Bool.true_eq_false, false_or, false_iff, not_and]
            intro hdeadline hok
            rcases hdelete with hle | hfailed
            · omega
            · rw [hok] at hfailed
              cases hfailed
          · have hok := handleSmsOtherSvcid_of_deleted createMessage slotId hrepeated hinsert hdelete
            push Not at hdelete
            simp [hok, hdelete.1, hdelete.2]

end CdmaSmsReceiveHandler

/-- The first of two parts of a text. -/
def firstOfTwo : CdmaSmsMessage :=
  ⟨⟨[0x41], 5, -1, "1", "1", "", [], [], some ⟨7, 1, 2⟩⟩, false, 0x1005, false, 0⟩

def secondOfTwo : CdmaSmsMessage :=
  ⟨⟨[0x42], 5, -1, "1", "1", "", [], [], some ⟨7, 2, 2⟩⟩, false, 0x1005, false, 0⟩

def firstStored : SmsTable := SmsTable.empty.insert 0 (firstOfTwo.toIndexer true)

/-- The data share with its deletions failing, or as it should be. -/
def dataShare (deleteOk : Bool) : DataShare := ⟨true, deleteOk, true, 1⟩

/-- The deletion fails behind the second part. Its next delivery finds the row, is
answered as a repetition and ends there, where it would have completed the text. -/
theorem secondOfTwo_leaves_trace :
    ¬ CdmaSmsReceiveHandler.LeavesNoTrace (fun _ => none) 0 (dataShare false) firstStored
        secondOfTwo ∧
      (CdmaSmsReceiveHandler.handleSmsOtherSvcid (fun _ => none) 0 (dataShare false) firstStored
        secondOfTwo).1 = .unknownError ∧
      CdmaSmsReceiveHandler.handleSmsOtherSvcid (fun _ => none) 0 (dataShare true)
          (firstStored.insert 0 (secondOfTwo.toIndexer true)) secondOfTwo =
        (.resultOk, firstStored.insert 0 (secondOfTwo.toIndexer true), []) ∧
      ∃ b, .broadcast b ∈ (CdmaSmsReceiveHandler.handleSmsOtherSvcid (fun _ => none) 0
        (dataShare true) firstStored secondOfTwo).2.2 ∧ b.pdus = [[0x41], [0x42]] := by
  refine ⟨?_, by decide, by decide, ?_⟩
  · intro hnone
    have htable := (hnone (by decide)).1
    revert htable
    decide
  · refine ⟨⟨.smsReceiveCompleted, 0, true, .text, [[0x41], [0x42]], 2, 7, "1", 2⟩, ?_, rfl⟩
    decide

end TelephonySms.Receive
