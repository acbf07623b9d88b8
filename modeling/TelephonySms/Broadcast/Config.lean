import Mathlib.Data.Set.Insert
import TelephonySms.Broadcast.Ranges

/-! # Cell broadcast configuration

`SmsMiscManager` of each slot keeps the enabled channels in `rangeList_` and tells the
modem about them. The first `SetCBConfig` of all slots asks its modem for the channels
enabled there. A run below is a sequence of service calls and of modem reports, and the
answer of the modem to each command is an input.
-/

namespace TelephonySms.Broadcast

def gsmType : Nat := 1

inductive CbResult where
  | success
  | argumentInvalid
  | rilCmdFail
deriving DecidableEq, Repr

structure SmsMiscManager where
  rangeList : List RangeInfo
  mdRangeList : List RangeInfo
deriving DecidableEq, Repr

def SmsMiscManager.init : SmsMiscManager := ⟨[], []⟩

/-! ## Modem reports -/

def isSpace (c : Char) : Bool := c = ' ' || 9 ≤ c.toNat && c.toNat ≤ 13

/-- `std::stoi`; `none` when it throws. -/
def stoi (text : List Char) : Option Int :=
  let text := text.dropWhile isSpace
  let negative := text.head? = some '-'
  let text := if text.head? = some '-' ∨ text.head? = some '+' then text.tail else text
  let digits := text.takeWhile Char.isDigit
  let magnitude : Nat := digits.foldl (fun n c => 10 * n + (c.toNat - 48)) 0
  let value : Int := if negative then -magnitude else magnitude
  if digits.isEmpty ∨ value < -2 ^ 31 ∨ 2 ^ 31 ≤ value then none else some value

/-- `SplitMidValue`; `none` is the return value `false`. -/
def splitMidValue (value : List Char) : Option (List Char × List Char) :=
  if value.isEmpty then none
  else
    match value.findIdx? (· = '-') with
    | none => some (value, value)
    | some pos =>
        if pos = 0 ∨ pos = value.length - 1 then none
        else some (value.take pos, value.drop (pos + 1))

/-- How the loop over the entries of a report ends, with the ranges read so far. -/
inductive MidsRead where
  | all (mdRangeList : List RangeInfo)
  | notDecimal (mdRangeList : List RangeInfo)
  | throws
deriving DecidableEq, Repr

section Manager

variable (isValidDecValue : List Char → Bool)

def readMids : List RangeInfo → List (List Char) → MidsRead
  | mdRangeList, [] => .all mdRangeList
  | mdRangeList, value :: dest =>
      match splitMidValue value with
      | none => readMids mdRangeList dest
      | some (start, stop) =>
          if !isValidDecValue start || !isValidDecValue stop then .notDecimal mdRangeList
          else
            match stoi start, stoi stop with
            | some startPos, some endPos =>
                if startPos ≤ endPos then
                  readMids (mdRangeList ++ [⟨UInt32.ofInt startPos, UInt32.ofInt endPos⟩]) dest
                else readMids mdRangeList dest
            | _, _ => .throws

/-- The entries of a report are separated by commas. -/
def reported (mids : List Char) : MidsRead := readMids isValidDecValue [] (mids.splitOn ',')

/-- `UpdateCbRangList`; `none` when the exception of `stoi` ends the process. -/
def SmsMiscManager.updateCbRangList (m : SmsMiscManager) (mids : List Char) :
    Option SmsMiscManager :=
  if mids.isEmpty then some { m with mdRangeList := [] }
  else
    match reported isValidDecValue mids with
    | .all mdRangeList => some ⟨combineCBRange mdRangeList, mdRangeList⟩
    | .notDecimal mdRangeList => some { m with mdRangeList := mdRangeList }
    | .throws => none

/-- `GetModemCBRange`; without a report the wait times out. -/
def SmsMiscManager.getModemCBRange (m : SmsMiscManager) (report : Option (List Char)) :
    Option SmsMiscManager :=
  match report with
  | none => some m
  | some mids => m.updateCbRangList isValidDecValue mids

/-! ## Calls -/

/-- A command the modem was sent, and whether it carried it out. -/
structure RilCommand where
  enable : Bool
  list : List RangeInfo
  succeeded : Bool
deriving DecidableEq, Repr

/-- `SendDataToRil`; for an empty list there is no command. -/
def sendDataToRil (answer enable : Bool) (list : List RangeInfo) : Bool × List RilCommand :=
  if list.isEmpty then (true, []) else (answer, [⟨enable, list, answer⟩])

/-- What the modem answers during one `SetCBConfig`: the report, and whether it carries
out the commands, in the order they are sent in. -/
structure RilAnswers where
  report : Option (List Char)
  disableModem : Bool
  disableOld : Bool
  enableNew : Bool
deriving DecidableEq, Repr

structure CbOutcome where
  manager : SmsMiscManager
  result : CbResult
  commands : List RilCommand
deriving DecidableEq, Repr

/-- `SetCBConfig` from where the old list is saved. -/
def SmsMiscManager.changeCBRange (m : SmsMiscManager) (enable : Bool)
    (fromMsgId toMsgId : UInt32) (answers : RilAnswers) : CbOutcome :=
  match if enable then some (openCBRange fromMsgId toMsgId m.rangeList)
    else closeCBRange fromMsgId toMsgId m.rangeList with
  | none => ⟨m, .success, []⟩
  | some rangeList =>
      let (disabled, first) := sendDataToRil answers.disableOld false m.rangeList
      if !disabled then ⟨m, .rilCmdFail, first⟩
      else
        let (enabled, second) := sendDataToRil answers.enableNew true rangeList
        if !enabled then ⟨m, .rilCmdFail, first ++ second⟩
        else ⟨{ m with rangeList := rangeList }, .success, first ++ second⟩

def cbChannelInvalid (fromMsgId toMsgId : UInt32) (netType : UInt8) : Bool :=
  toMsgId.toNat > rangMax || fromMsgId > toMsgId || netType.toNat != gsmType

/-- `hasGotCbRange` is the value of the static flag before the call. -/
def SmsMiscManager.setCBConfig (hasGotCbRange : Bool) (m : SmsMiscManager) (enable : Bool)
    (fromMsgId toMsgId : UInt32) (netType : UInt8) (answers : RilAnswers) : Option CbOutcome :=
  if cbChannelInvalid fromMsgId toMsgId netType then some ⟨m, .argumentInvalid, []⟩
  else if hasGotCbRange then some (m.changeCBRange enable fromMsgId toMsgId answers)
  else
    match m.getModemCBRange isValidDecValue answers.report with
    | none => none
    | some m =>
        let (disabled, commands) := sendDataToRil answers.disableModem false m.mdRangeList
        if !disabled then some ⟨m, .rilCmdFail, commands⟩
        else
          let rest := SmsMiscManager.changeCBRange { m with mdRangeList := [] } enable
            fromMsgId toMsgId answers
          some { rest with commands := commands ++ rest.commands }

/-- The pairs of a list of even length, as `uint32_t`. -/
def idPairs : List Int32 → List RangeInfo
  | first :: last :: messageIds => ⟨first.toUInt32, last.toUInt32⟩ :: idPairs messageIds
  | _ => []

def convertToRangeList (messageIds : List Int32) : List RangeInfo :=
  if messageIds.length % 2 ≠ 0 then [] else idPairs messageIds

def SmsMiscManager.setCBConfigList (m : SmsMiscManager) (messageIds : List Int32)
    (ranType : Int32) (answer : Bool) : CbOutcome :=
  if ranType.toInt ≠ gsmType then ⟨m, .argumentInvalid, []⟩
  else
    let newRanges := convertToRangeList messageIds
    if newRanges.isEmpty then ⟨m, .success, []⟩
    else
      let mergedRanges := combineCBRange (m.rangeList ++ newRanges)
      let (enabled, commands) := sendDataToRil answer true mergedRanges
      if !enabled then ⟨m, .rilCmdFail, commands⟩
      else ⟨{ m with rangeList := mergedRanges }, .success, commands⟩

/-- No pair has its second id below its first. -/
def pairsOrdered : List Int32 → Bool
  | first :: last :: messageIds => !(last < first) && pairsOrdered messageIds
  | _ => true

def isValidCBRangeList (messageIds : List Int32) : Bool :=
  !messageIds.isEmpty && messageIds.length % 2 = 0 && pairsOrdered messageIds

/-! ## The service -/

structure CbWorld where
  hasGotCbRange : Bool
  managers : Nat → SmsMiscManager

def CbWorld.init : CbWorld := ⟨false, fun _ => .init⟩

/-- A report that is late comes by itself. -/
inductive CbEvent where
  | setCBConfig (slotId : Nat) (enable : Bool) (fromMsgId toMsgId : UInt32) (netType : UInt8)
      (answers : RilAnswers)
  | setCBConfigList (slotId : Nat) (messageIds : List Int32) (ranType : Int32) (answer : Bool)
  | report (slotId : Nat) (mids : List Char)
deriving DecidableEq, Repr

def CbEvent.slotId : CbEvent → Nat
  | .setCBConfig slotId .. => slotId
  | .setCBConfigList slotId .. => slotId
  | .report slotId .. => slotId

/-- What happens to the manager of the slot. -/
def CbWorld.outcome (w : CbWorld) : CbEvent → Option CbOutcome
  | .setCBConfig slotId enable fromMsgId toMsgId netType answers =>
      (w.managers slotId).setCBConfig isValidDecValue w.hasGotCbRange enable fromMsgId toMsgId
        netType answers
  | .setCBConfigList slotId messageIds ranType answer =>
      if isValidCBRangeList messageIds then
        some ((w.managers slotId).setCBConfigList messageIds ranType answer)
      else some ⟨w.managers slotId, .argumentInvalid, []⟩
  | .report slotId mids =>
      ((w.managers slotId).updateCbRangList isValidDecValue mids).map fun m => ⟨m, .success, []⟩

/-- The flag is static; `GetModemCBRange` sets it, with or without a report. -/
def CbWorld.flagAfter (w : CbWorld) : CbEvent → Bool
  | .setCBConfig _ _ fromMsgId toMsgId netType _ =>
      w.hasGotCbRange || !cbChannelInvalid fromMsgId toMsgId netType
  | _ => w.hasGotCbRange

def CbWorld.after (w : CbWorld) (event : CbEvent) (out : CbOutcome) : CbWorld where
  hasGotCbRange := w.flagAfter event
  managers := Function.update w.managers event.slotId out.manager

@[simp] theorem CbWorld.after_managers_self (w : CbWorld) (event : CbEvent) (out : CbOutcome) :
    (w.after event out).managers event.slotId = out.manager :=
  Function.update_self ..

theorem CbWorld.after_managers_of_ne {w : CbWorld} {event : CbEvent} {out : CbOutcome}
    {slotId : Nat} (h : slotId ≠ event.slotId) :
    (w.after event out).managers slotId = w.managers slotId :=
  Function.update_of_ne h ..

/-! ## What the accepted operations come to -/

inductive CbOperation where
  | union (ids : Set Nat)
  | difference (ids : Set Nat)
  | replacement (ids : Set Nat)

def CbOperation.apply : Set Nat → CbOperation → Set Nat
  | s, .union ids => s ∪ ids
  | s, .difference ids => s \ ids
  | _, .replacement ids => ids

/-- The operation a `SetCBConfig` call asks for. -/
def cbOperation (enable : Bool) (fromMsgId toMsgId : UInt32) : CbOperation :=
  if enable then .union (Set.Icc fromMsgId.toNat toMsgId.toNat)
  else .difference (Set.Icc fromMsgId.toNat toMsgId.toNat)

/-- The ids a list call names. -/
def listed : List Int32 → Set Nat
  | first :: last :: messageIds =>
      {n : Nat | first.toInt ≤ n ∧ n ≤ last.toInt} ∪ listed messageIds
  | _ => ∅

/-- A report whose entries can all be read replaces what was enabled. -/
def reportOperations (mids : List Char) : List CbOperation :=
  match reported isValidDecValue mids with
  | .all mdRangeList => [.replacement (ids mdRangeList)]
  | _ => []

/-- The operations of one event that were accepted: the report `SetCBConfig` asked for, and
what a call that returned success was to do. -/
def CbWorld.operations (w : CbWorld) (result : CbResult) : CbEvent → List CbOperation
  | .setCBConfig _ enable fromMsgId toMsgId netType answers =>
      if cbChannelInvalid fromMsgId toMsgId netType then []
      else
        (if w.hasGotCbRange then []
          else answers.report.elim [] (reportOperations isValidDecValue)) ++
        if result = .success then [cbOperation enable fromMsgId toMsgId] else []
  | .setCBConfigList _ messageIds _ _ =>
      if result = .success then [.union (listed messageIds)] else []
  | .report _ mids => reportOperations isValidDecValue mids

/-- The worlds reached by events that meet `ok`, each with what the operations accepted on
every slot come to. -/
inductive CbRun (ok : CbWorld → CbEvent → Prop) : CbWorld → (Nat → Set Nat) → Prop where
  | init : CbRun ok .init fun _ => ∅
  | step {w : CbWorld} {enabled : Nat → Set Nat} {event : CbEvent} {out : CbOutcome} :
      CbRun ok w enabled → ok w event → w.outcome isValidDecValue event = some out →
        CbRun ok (w.after event out) (Function.update enabled event.slotId
          ((w.operations isValidDecValue out.result event).foldl CbOperation.apply
            (enabled event.slotId)))

/-- A report that says nothing is enabled comes while the list is empty, and the ids of the
others exist. -/
def ReportInBounds (m : SmsMiscManager) (mids : List Char) : Prop :=
  (mids = [] → m.rangeList = []) ∧
    ∀ mdRangeList, reported isValidDecValue mids = .all mdRangeList →
      ∀ r ∈ mdRangeList, r.InBounds

/-- The ids of a list call exist. -/
def IdsExist (messageIds : List Int32) : Prop :=
  ∀ id ∈ messageIds, 0 ≤ id.toInt ∧ id.toInt ≤ rangMax

/-- No range that is closed starts at id zero, and a list call that goes through names ids
that exist. -/
def InBounds (w : CbWorld) : CbEvent → Prop
  | .setCBConfig slotId enable fromMsgId toMsgId netType answers =>
      cbChannelInvalid fromMsgId toMsgId netType = false →
        (enable = true ∨ fromMsgId ≠ 0) ∧
          (w.hasGotCbRange = false → ∀ mids ∈ answers.report,
            ReportInBounds isValidDecValue (w.managers slotId) mids)
  | .setCBConfigList _ messageIds ranType answer =>
      ranType.toInt = gsmType → answer = true → IdsExist messageIds
  | .report slotId mids => ReportInBounds isValidDecValue (w.managers slotId) mids

/-! ## The list after every run -/

/-- The list of a manager is normal and denotes these ids. -/
structure Denotes (m : SmsMiscManager) (enabled : Set Nat) : Prop where
  normal : Normal m.rangeList
  same : ids m.rangeList = enabled

variable {isValidDecValue}

theorem denotes_updateCbRangList {m m' : SmsMiscManager} {enabled : Set Nat}
    {mids : List Char} (h : Denotes m enabled)
    (hreport : ReportInBounds isValidDecValue m mids)
    (hupdate : m.updateCbRangList isValidDecValue mids = some m') :
    Denotes m' ((reportOperations isValidDecValue mids).foldl CbOperation.apply enabled) := by
  unfold SmsMiscManager.updateCbRangList at hupdate
  split at hupdate
  · rename_i hempty
    have hmids := List.isEmpty_iff.1 hempty
    cases hupdate
    have hlist := hreport.1 hmids
    have hread : reported isValidDecValue mids = .all [] := by
      rw [hmids]
      rfl
    simp only [reportOperations, hread, List.foldl_cons, List.foldl_nil, CbOperation.apply]
    exact ⟨h.normal, by simp [hlist]⟩
  · unfold reportOperations
    cases hread : reported isValidDecValue mids with
    | all mdRangeList =>
        simp only [hread, Option.some.injEq] at hupdate
        rw [← hupdate]
        exact ⟨normal_combineCBRange (hreport.2 _ hread),
          (combined_combineCBRange mdRangeList).same⟩
    | notDecimal mdRangeList =>
        simp only [hread, Option.some.injEq] at hupdate
        rw [← hupdate]
        exact ⟨h.normal, h.same⟩
    | throws => simp [hread] at hupdate

theorem denotes_getModemCBRange {m m' : SmsMiscManager} {enabled : Set Nat}
    {report : Option (List Char)} (h : Denotes m enabled)
    (hreport : ∀ mids ∈ report, ReportInBounds isValidDecValue m mids)
    (hget : m.getModemCBRange isValidDecValue report = some m') :
    Denotes m' ((report.elim [] (reportOperations isValidDecValue)).foldl CbOperation.apply
      enabled) := by
  cases report with
  | none =>
      cases hget
      exact h
  | some mids => exact denotes_updateCbRangList h (hreport mids rfl) hget

section Change

variable {fromMsgId toMsgId : UInt32}

theorem cbChannelInvalid_eq_false {netType : UInt8}
    (h : cbChannelInvalid fromMsgId toMsgId netType = false) :
    fromMsgId ≤ toMsgId ∧ toMsgId.toNat ≤ rangMax := by
  simp only [cbChannelInvalid, Bool.or_eq_false_iff, decide_eq_false_iff_not, gt_iff_lt,
    Nat.not_lt, UInt32.not_lt] at h
  exact ⟨h.1.2, h.1.1⟩

theorem closeCBRange_isSome (hmax : toMsgId.toNat ≤ rangMax) (hle : fromMsgId ≤ toMsgId)
    (hf : fromMsgId ≠ 0) (rangeList : List RangeInfo) :
    ∃ result, closeCBRange fromMsgId toMsgId rangeList = some result := by
  unfold closeCBRange
  rw [if_neg]
  · exact ⟨_, rfl⟩
  · rw [UInt32.lt_iff_toNat_lt, ← UInt32.toNat_inj]
    have hne : fromMsgId.toNat ≠ 0 := fun h0 => hf (UInt32.toNat_inj.1 h0)
    rw [UInt32.le_iff_toNat_le] at hle
    unfold rangMax at hmax
    simp
    omega

theorem denotes_changeCBRange {m : SmsMiscManager} {enabled : Set Nat} {enable : Bool}
    (answers : RilAnswers) (h : Denotes m enabled) (hle : fromMsgId ≤ toMsgId)
    (hmax : toMsgId.toNat ≤ rangMax) (hf : enable = true ∨ fromMsgId ≠ 0) :
    Denotes (m.changeCBRange enable fromMsgId toMsgId answers).manager
      ((if (m.changeCBRange enable fromMsgId toMsgId answers).result = .success then
        [cbOperation enable fromMsgId toMsgId] else []).foldl CbOperation.apply enabled) := by
  have hchanged : ∃ rangeList,
      (if enable then some (openCBRange fromMsgId toMsgId m.rangeList)
        else closeCBRange fromMsgId toMsgId m.rangeList) = some rangeList ∧
      Denotes { m with rangeList := rangeList }
        ((cbOperation enable fromMsgId toMsgId).apply enabled) := by
    cases enable with
    | true => exact ⟨_, rfl, normal_openCBRange hle hmax h.normal, by
        rw [ids_openCBRange, h.same]
        rfl⟩
    | false =>
        obtain ⟨rangeList, hclose⟩ := closeCBRange_isSome hmax hle (by simpa using hf) m.rangeList
        exact ⟨rangeList, hclose, normal_closeCBRange hle h.normal hclose, by
          rw [ids_closeCBRange hle hclose, h.same]
          rfl⟩
  obtain ⟨rangeList, heq, hnew⟩ := hchanged
  unfold SmsMiscManager.changeCBRange
  simp only [heq]
  cases (sendDataToRil answers.disableOld false m.rangeList).1 with
  | false => exact h
  | true =>
      cases (sendDataToRil answers.enableNew true rangeList).1 with
      | false => exact h
      | true => exact hnew

theorem denotes_setCBConfig {hasGotCbRange : Bool} {m : SmsMiscManager} {enabled : Set Nat}
    {enable : Bool} {netType : UInt8} {answers : RilAnswers} {out : CbOutcome}
    (h : Denotes m enabled) (hvalid : cbChannelInvalid fromMsgId toMsgId netType = false)
    (hf : enable = true ∨ fromMsgId ≠ 0)
    (hreport : hasGotCbRange = false → ∀ mids ∈ answers.report,
      ReportInBounds isValidDecValue m mids)
    (hout : m.setCBConfig isValidDecValue hasGotCbRange enable fromMsgId toMsgId netType
      answers = some out) :
    Denotes out.manager
      (((if hasGotCbRange then []
          else answers.report.elim [] (reportOperations isValidDecValue)) ++
        if out.result = .success then [cbOperation enable fromMsgId toMsgId] else []).foldl
          CbOperation.apply enabled) := by
  obtain ⟨hle, hmax⟩ := cbChannelInvalid_eq_false hvalid
  rw [SmsMiscManager.setCBConfig, hvalid] at hout
  cases hasGotCbRange with
  | true =>
      cases hout
      exact denotes_changeCBRange answers h hle hmax hf
  | false =>
      simp only [Bool.false_eq_true, if_false] at hout ⊢
      rw [List.foldl_append]
      cases hget : m.getModemCBRange isValidDecValue answers.report with
      | none => simp [hget] at hout
      | some synced =>
          have hsynced := denotes_getModemCBRange h (hreport rfl) hget
          simp only [hget] at hout
          cases hsent : (sendDataToRil answers.disableModem false synced.mdRangeList).1 with
          | false =>
              simp only [hsent, Bool.not_false, if_true, Option.some.injEq] at hout
              rw [← hout]
              exact hsynced
          | true =>
              simp only [hsent, Bool.not_true, Bool.false_eq_true, if_false,
                Option.some.injEq] at hout
              rw [← hout]
              have hcleared : Denotes { synced with mdRangeList := [] } _ :=
                ⟨hsynced.normal, hsynced.same⟩
              exact denotes_changeCBRange answers hcleared hle hmax hf

end Change

/-! ## List calls -/

theorem toNat_toUInt32_of_nonneg {id : Int32} (h : 0 ≤ id.toInt) :
    (id.toUInt32.toNat : Int) = id.toInt := by
  have hid : 0 ≤ id := Int32.le_iff_toInt_le.2 (by simpa using h)
  rw [Int32.toNat_toUInt32_of_le hid, ← Int32.toInt_eq_toNatClampNeg hid]

theorem ids_idPairs {messageIds : List Int32} (h : IdsExist messageIds) :
    ids (idPairs messageIds) = listed messageIds := by
  fun_induction idPairs messageIds with
  | case1 first last messageIds ih =>
      have hfirst := toNat_toUInt32_of_nonneg (h first (by simp)).1
      have hlast := toNat_toUInt32_of_nonneg (h last (by simp)).1
      rw [ids_cons, ih fun id hid => h id (by simp [hid]), listed]
      congr 1
      ext n
      rw [mem_ids_range]
      change _ ↔ first.toInt ≤ n ∧ n ≤ last.toInt
      rw [← hfirst, ← hlast]
      exact and_congr Int.ofNat_le.symm Int.ofNat_le.symm
  | case2 messageIds hshort =>
      rw [ids_nil]
      unfold listed
      split
      · exact absurd rfl (hshort _ _ _)
      · rfl

theorem inBounds_of_mem_idPairs {messageIds : List Int32} (h : IdsExist messageIds)
    (hordered : pairsOrdered messageIds = true) :
    ∀ r ∈ idPairs messageIds, r.InBounds := by
  fun_induction idPairs messageIds with
  | case1 first last messageIds ih =>
      simp only [pairsOrdered, Bool.and_eq_true, Bool.not_eq_true', decide_eq_false_iff_not,
        Int32.not_lt] at hordered
      rw [List.forall_mem_cons]
      refine ⟨⟨?_, ?_⟩, ih (fun id hid => h id (by simp [hid])) hordered.2⟩
      · have hfirst : 0 ≤ first := Int32.le_iff_toInt_le.2 (by simpa using (h first (by simp)).1)
        exact Int32.toUInt32_le hfirst hordered.1
      · have hlast := h last (by simp)
        have := toNat_toUInt32_of_nonneg hlast.1
        dsimp only
        omega
  | case2 messageIds hshort => simp

theorem denotes_setCBConfigList {m : SmsMiscManager} {enabled : Set Nat}
    {messageIds : List Int32} {ranType : Int32} {answer : Bool} (h : Denotes m enabled)
    (hvalid : isValidCBRangeList messageIds = true)
    (hids : ranType.toInt = gsmType → answer = true → IdsExist messageIds) :
    Denotes (m.setCBConfigList messageIds ranType answer).manager
      ((if (m.setCBConfigList messageIds ranType answer).result = .success then
        [.union (listed messageIds)] else []).foldl CbOperation.apply enabled) := by
  simp only [isValidCBRangeList, Bool.and_eq_true, Bool.not_eq_true', decide_eq_true_eq] at hvalid
  obtain ⟨⟨hne, heven⟩, hordered⟩ := hvalid
  have hconvert : convertToRangeList messageIds = idPairs messageIds := by
    simp [convertToRangeList, heven]
  have hmore : idPairs messageIds ≠ [] := by
    cases messageIds with
    | nil => simp at hne
    | cons first rest =>
        cases rest with
        | nil => simp at heven
        | cons last rest => simp [idPairs]
  have hmerged : combineCBRange (m.rangeList ++ idPairs messageIds) ≠ [] :=
    combineCBRange_ne_nil (by simp [hmore])
  unfold SmsMiscManager.setCBConfigList
  split
  · exact h
  · rename_i hgsm
    simp only [hconvert, List.isEmpty_iff, hmore, if_false, sendDataToRil, hmerged]
    cases answer with
    | false => exact h
    | true =>
        have hexist := hids (by simpa using hgsm) rfl
        refine ⟨normal_combineCBRange fun r hr => ?_, ?_⟩
        · cases List.mem_append.1 hr with
          | inl hold => exact h.normal.inBounds r hold
          | inr hnew => exact inBounds_of_mem_idPairs hexist hordered r hnew
        · exact (combined_combineCBRange _).same.trans (by
            rw [ids_append, h.same, ids_idPairs hexist]
            rfl)

/-! ## Runs -/

/-- One event keeps the list of its slot normal and does to the ids what was accepted. -/
theorem denotes_outcome {w : CbWorld} {enabled : Set Nat} {event : CbEvent} {out : CbOutcome}
    (h : Denotes (w.managers event.slotId) enabled) (hok : InBounds isValidDecValue w event)
    (hout : w.outcome isValidDecValue event = some out) :
    Denotes out.manager
      ((w.operations isValidDecValue out.result event).foldl CbOperation.apply enabled) := by
  cases event with
  | setCBConfig slotId enable fromMsgId toMsgId netType answers =>
      rw [CbWorld.outcome] at hout
      rw [CbWorld.operations]
      cases hinvalid : cbChannelInvalid fromMsgId toMsgId netType with
      | true =>
          rw [SmsMiscManager.setCBConfig, hinvalid] at hout
          cases hout
          exact h
      | false =>
          obtain ⟨hf, hreport⟩ := hok hinvalid
          exact denotes_setCBConfig h hinvalid hf hreport hout
  | setCBConfigList slotId messageIds ranType answer =>
      rw [CbWorld.outcome] at hout
      rw [CbWorld.operations]
      split at hout
      · rename_i hvalid
        cases hout
        exact denotes_setCBConfigList h hvalid hok
      · cases hout
        exact h
  | report slotId mids =>
      obtain ⟨m, hupdate, rfl⟩ := Option.map_eq_some_iff.1 hout
      exact denotes_updateCbRangList h hok hupdate

/-- Along every run within bounds the list of every slot is normal, and its ids are what
the accepted operations come to. -/
theorem rangeList_of_run (isValidDecValue : List Char → Bool) {w : CbWorld}
    {enabled : Nat → Set Nat} (hrun : CbRun isValidDecValue (InBounds isValidDecValue) w enabled)
    (slotId : Nat) :
    Normal (w.managers slotId).rangeList ∧ ids (w.managers slotId).rangeList = enabled slotId := by
  have h : Denotes (w.managers slotId) (enabled slotId) := by
    induction hrun with
    | init => exact ⟨.nil, by simp [CbWorld.init, SmsMiscManager.init]⟩
    | @step w enabled event out _ hok hout ih =>
        by_cases hslot : slotId = event.slotId
        · subst hslot
          rw [CbWorld.after_managers_self, Function.update_self]
          exact denotes_outcome ih hok hout
        · rw [CbWorld.after_managers_of_ne hslot, Function.update_of_ne hslot]
          exact ih
  exact ⟨h.normal, h.same⟩

end Manager

/-- A test of the digits that `IsValidDecValue` agrees with on what follows. -/
def allDigits (text : List Char) : Bool := !text.isEmpty && text.all Char.isDigit

/-- Channels 4370 to 4372 are enabled by the first call, with nothing enabled before. -/
theorem rangeList_of_run_first :
    let event := CbEvent.setCBConfig 0 true 4370 4372 1 ⟨some [], true, true, true⟩
    let out : CbOutcome := ⟨⟨[⟨4370, 4372⟩], []⟩, .success, [⟨true, [⟨4370, 4372⟩], true⟩]⟩
    CbWorld.init.outcome allDigits event = some out ∧
      Normal ((CbWorld.init.after event out).managers 0).rangeList := by
  have hout : CbWorld.init.outcome allDigits
      (.setCBConfig 0 true 4370 4372 1 ⟨some [], true, true, true⟩) =
        some ⟨⟨[⟨4370, 4372⟩], []⟩, .success, [⟨true, [⟨4370, 4372⟩], true⟩]⟩ := by
    decide
  have hok : InBounds allDigits .init
      (.setCBConfig 0 true 4370 4372 1 ⟨some [], true, true, true⟩) := by
    intro _
    refine ⟨.inl rfl, fun _ mids hmids => ?_⟩
    cases hmids
    refine ⟨fun _ => rfl, fun mdRangeList hread => ?_⟩
    cases hread
    simp
  exact ⟨hout, (rangeList_of_run allDigits (.step .init hok hout) 0).1⟩

/-- A list call names channels that do not exist. -/
theorem rangeList_not_normal :
    ¬ ∀ (w : CbWorld) (enabled : Nat → Set Nat), CbRun allDigits (fun _ _ => True) w enabled →
      ∀ slotId, Normal (w.managers slotId).rangeList ∧
        ids (w.managers slotId).rangeList = enabled slotId := by
  intro h
  have hout : CbWorld.init.outcome allDigits (.setCBConfigList 0 [70000, 80000] 1 true) =
      some ⟨⟨[⟨70000, 80000⟩], []⟩, .success, [⟨true, [⟨70000, 80000⟩], true⟩]⟩ := by
    decide
  have hnormal := (h _ _ (.step .init trivial hout) 0).1
  have hbound := (hnormal.inBounds ⟨70000, 80000⟩ (List.mem_singleton.2 rfl)).2
  exact absurd hbound (by decide)

end TelephonySms.Broadcast
