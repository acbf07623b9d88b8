import TelephonySms.Broadcast.Config

/-! # The cache and the modem

Each slot's modem is a set of enabled ids. A command it carries out adds or removes the
ids of its list, one it does not carry out changes nothing. `SetCBConfig` sends up to
three commands and takes back what it did to the cache when one fails, but not what the
earlier commands did to the modem; and the flag that says the modem was asked is shared
by the slots.
-/

namespace TelephonySms.Broadcast

/-- What a command does to the ids the modem has enabled. -/
def RilCommand.apply (modem : Set Nat) (c : RilCommand) : Set Nat :=
  if c.succeeded then (if c.enable then modem ∪ ids c.list else modem \ ids c.list) else modem

def carriedOut (commands : List RilCommand) (modem : Set Nat) : Set Nat :=
  commands.foldl RilCommand.apply modem

@[simp] theorem carriedOut_nil (modem : Set Nat) : carriedOut [] modem = modem := rfl

@[simp] theorem carriedOut_append (first second : List RilCommand) (modem : Set Nat) :
    carriedOut (first ++ second) modem = carriedOut second (carriedOut first modem) :=
  List.foldl_append ..

section Runs

variable (isValidDecValue : List Char → Bool)

/-- A call, and if it comes with a report, the report says what the modem has enabled. -/
def TruthfulCall (modem : Set Nat) : CbEvent → Prop
  | .setCBConfig _ _ _ _ _ answers =>
      ∀ mids ∈ answers.report, ∃ mdRangeList,
        reported isValidDecValue mids = .all mdRangeList ∧ ids mdRangeList = modem
  | .setCBConfigList .. => True
  | .report .. => False

def CbEvent.isSetCBConfig : CbEvent → Bool
  | .setCBConfig .. => true
  | _ => false

/-- The service, the modems, and the slots on which `SetCBConfig` was called. -/
structure CbSystem where
  world : CbWorld
  modems : Nat → Set Nat
  configured : Nat → Bool

def CbSystem.after (s : CbSystem) (event : CbEvent) (out : CbOutcome) : CbSystem where
  world := s.world.after event out
  modems := Function.update s.modems event.slotId
    (carriedOut out.commands (s.modems event.slotId))
  configured := Function.update s.configured event.slotId
    (s.configured event.slotId || event.isSetCBConfig)

/-- The systems reached by calls that meet `ok`, from modems with any ids enabled. -/
inductive CbSystemRun (ok : CbSystem → CbEvent → Prop) : CbSystem → Prop where
  | init (modems : Nat → Set Nat) : CbSystemRun ok ⟨.init, modems, fun _ => false⟩
  | step {s : CbSystem} {event : CbEvent} {out : CbOutcome} :
      CbSystemRun ok s → ok s event → TruthfulCall isValidDecValue (s.modems event.slotId) event →
        s.world.outcome isValidDecValue event = some out → CbSystemRun ok (s.after event out)

/-- The cache of the slot says what its modem has enabled. -/
def CbSystem.Agrees (s : CbSystem) (slotId : Nat) : Prop :=
  ids (s.world.managers slotId).rangeList = s.modems slotId

/-- Every slot agrees from its first `SetCBConfig` on, and a call that meets `ok` and
returns that a command failed leaves the cache and the modem as they were. -/
def CacheIsModem (ok : CbSystem → CbEvent → Prop) (s : CbSystem) : Prop :=
  (∀ slotId, s.configured slotId = true → s.Agrees slotId) ∧
    ∀ event out, ok s event → TruthfulCall isValidDecValue (s.modems event.slotId) event →
      s.world.outcome isValidDecValue event = some out → out.result = .rilCmdFail →
        ids out.manager.rangeList = ids (s.world.managers event.slotId).rangeList ∧
          carriedOut out.commands (s.modems event.slotId) = s.modems event.slotId

/-- A call that closes all of these ranges. -/
def ClosesAll (enable : Bool) (fromMsgId toMsgId : UInt32) (ranges : List RangeInfo) : Prop :=
  enable = false ∧ ∀ r ∈ ranges, fromMsgId ≤ r.fromMsgId ∧ r.toMsgId ≤ toMsgId

/-- The new list is not refused after the old one was disabled. -/
def NotHalfDone (rangeList : List RangeInfo) (enable : Bool) (fromMsgId toMsgId : UInt32)
    (answers : RilAnswers) : Prop :=
  answers.enableNew = true ∨ answers.disableOld = false ∨ rangeList = [] ∨
    enable = false ∧ fromMsgId = 0 ∨ ClosesAll enable fromMsgId toMsgId rangeList

/-- A call that reads the modem and finds these ranges carries out all its commands. -/
def GoesThrough (mdRangeList : List RangeInfo) (enable : Bool) (fromMsgId toMsgId : UInt32)
    (answers : RilAnswers) : Prop :=
  answers.disableModem = true ∧ answers.disableOld = true ∧ (enable = true ∨ fromMsgId ≠ 0) ∧
    (answers.enableNew = true ∨ ClosesAll enable fromMsgId toMsgId mdRangeList)

/-- Where `SetCBConfig` keeps the cache and the modem together: it is called on a slot
where they agree, or it is the first call of all and gets the report; and no command fails
after one that changed the modem. -/
def KeepsTogether (s : CbSystem) : CbEvent → Prop
  | .setCBConfig slotId enable fromMsgId toMsgId netType answers =>
      let rangeList := (s.world.managers slotId).rangeList
      if cbChannelInvalid fromMsgId toMsgId netType then s.Agrees slotId
      else if s.world.hasGotCbRange ∨ answers.report = none then
        s.Agrees slotId ∧ NotHalfDone rangeList enable fromMsgId toMsgId answers
      else
        ∀ mids ∈ answers.report, ∀ mdRangeList,
          reported isValidDecValue mids = .all mdRangeList →
            if mdRangeList = [] then NotHalfDone rangeList enable fromMsgId toMsgId answers
            else
              answers.disableModem = false ∧ s.Agrees slotId ∨
                GoesThrough mdRangeList enable fromMsgId toMsgId answers
  | _ => True

variable {isValidDecValue}

/-! ## One call -/

theorem carriedOut_sendDataToRil (answer enable : Bool) (list : List RangeInfo)
    (modem : Set Nat) :
    carriedOut (sendDataToRil answer enable list).2 modem =
      if (sendDataToRil answer enable list).1 then
        (if enable then modem ∪ ids list else modem \ ids list)
      else modem := by
  unfold sendDataToRil
  cases list with
  | nil => cases enable <;> simp
  | cons r list => rfl

/-- A call after which cache and modem agree, and which leaves both alone when it fails. -/
structure Together (m : SmsMiscManager) (modem : Set Nat) (out : CbOutcome) : Prop where
  agrees : ids out.manager.rangeList = carriedOut out.commands modem
  unchanged : out.result = .rilCmdFail →
    ids out.manager.rangeList = ids m.rangeList ∧ carriedOut out.commands modem = modem

section Change

variable {m : SmsMiscManager} {modem : Set Nat} {enable : Bool} {fromMsgId toMsgId : UInt32}
  {answers : RilAnswers}

theorem closed_eq_nil {r : RangeInfo} (hfrom : fromMsgId ≤ r.fromMsgId)
    (hto : r.toMsgId ≤ toMsgId) : closed fromMsgId toMsgId r = [] := by
  have hmeets : ¬ Apart fromMsgId toMsgId r := by
    rintro (⟨hlt, -⟩ | ⟨-, hlt⟩)
    · exact UInt32.not_le.2 hlt hfrom
    · exact UInt32.not_le.2 hlt hto
  rw [closed, if_neg hmeets, around, if_neg (UInt32.not_lt.2 hfrom),
    if_neg (UInt32.not_lt.2 hto)]
  rfl

theorem closeCBRange_of_closesAll {rangeList result : List RangeInfo}
    (hle : fromMsgId ≤ toMsgId)
    (hall : ∀ r ∈ rangeList, fromMsgId ≤ r.fromMsgId ∧ r.toMsgId ≤ toMsgId)
    (hclose : closeCBRange fromMsgId toMsgId rangeList = some result) : result = [] := by
  obtain ⟨left, rfl, hperm⟩ := closeCBRange_spec hle hclose
  have hnil : rangeList.flatMap (closed fromMsgId toMsgId) = [] := by
    rw [List.flatMap_eq_nil_iff]
    intro r hr
    exact closed_eq_nil (hall r hr).1 (hall r hr).2
  rw [hnil] at hperm
  rw [hperm.eq_nil]
  rfl

/-- The list `SetCBConfig` changes to; `none` when it refuses to close. -/
def changedRange (enable : Bool) (fromMsgId toMsgId : UInt32) (rangeList : List RangeInfo) :
    Option (List RangeInfo) :=
  if enable then some (openCBRange fromMsgId toMsgId rangeList)
  else closeCBRange fromMsgId toMsgId rangeList

/-- The second command fails only for a list that is not empty. -/
theorem sendDataToRil_eq_false {answer enabled : Bool} {list : List RangeInfo}
    (h : (sendDataToRil answer enabled list).1 = false) : list ≠ [] ∧ answer = false := by
  unfold sendDataToRil at h
  cases list with
  | nil => simp at h
  | cons r list => exact ⟨by simp, h⟩

theorem changedRange_of_closesAll {rangeList result : List RangeInfo}
    (hle : fromMsgId ≤ toMsgId) (hall : ClosesAll enable fromMsgId toMsgId rangeList)
    (hchange : changedRange enable fromMsgId toMsgId rangeList = some result) : result = [] := by
  rw [changedRange, hall.1] at hchange
  exact closeCBRange_of_closesAll hle hall.2 hchange

theorem together_changeCBRange (hle : fromMsgId ≤ toMsgId) (hagrees : ids m.rangeList = modem)
    (h : NotHalfDone m.rangeList enable fromMsgId toMsgId answers) :
    Together m modem (m.changeCBRange enable fromMsgId toMsgId answers) := by
  unfold SmsMiscManager.changeCBRange
  rw [← changedRange]
  cases hchange : changedRange enable fromMsgId toMsgId m.rangeList with
  | none => exact ⟨hagrees, fun hfail => by cases hfail⟩
  | some rangeList =>
      have hfirst := carriedOut_sendDataToRil answers.disableOld false m.rangeList modem
      have hsecond := carriedOut_sendDataToRil answers.enableNew true rangeList ∅
      dsimp only
      cases hdisabled : (sendDataToRil answers.disableOld false m.rangeList).1 with
      | false =>
          rw [hdisabled] at hfirst
          exact ⟨hagrees.trans hfirst.symm, fun _ => ⟨rfl, hfirst⟩⟩
      | true =>
          have hcleared : carriedOut (sendDataToRil answers.disableOld false m.rangeList).2 modem =
              ∅ := by
            rw [hfirst, hdisabled, ← hagrees]
            simp
          have hcommands : carriedOut ((sendDataToRil answers.disableOld false m.rangeList).2 ++
              (sendDataToRil answers.enableNew true rangeList).2) modem =
                carriedOut (sendDataToRil answers.enableNew true rangeList).2 ∅ := by
            rw [carriedOut_append, hcleared]
          cases henabled : (sendDataToRil answers.enableNew true rangeList).1 with
          | true =>
              refine ⟨?_, fun hfail => by cases hfail⟩
              rw [henabled] at hsecond
              exact (hcommands.trans (hsecond.trans (by simp))).symm
          | false =>
              obtain ⟨hne, hanswer⟩ := sendDataToRil_eq_false henabled
              have hempty : m.rangeList = [] := by
                rcases h with hnew | hold | hempty | ⟨henable, hzero⟩ | hall
                · rw [hanswer] at hnew
                  cases hnew
                · by_contra hlist
                  simp [sendDataToRil, hlist, hold] at hdisabled
                · exact hempty
                · rw [henable, hzero] at hchange
                  cases hchange
                · exact absurd (changedRange_of_closesAll hle hall hchange) hne
              have hmodem : modem = ∅ := by
                rw [← hagrees, hempty, ids_nil]
              rw [henabled] at hsecond
              have hsame := hcommands.trans (hsecond.trans hmodem.symm)
              exact ⟨hagrees.trans hsame.symm, fun _ => ⟨rfl, hsame⟩⟩

/-- After the modem was cleared, a call all of whose commands are carried out. -/
theorem changeCBRange_of_cleared (hle : fromMsgId ≤ toMsgId) (hmax : toMsgId.toNat ≤ rangMax)
    (hf : enable = true ∨ fromMsgId ≠ 0) (hold : answers.disableOld = true)
    (hnew : answers.enableNew = true ∨ ClosesAll enable fromMsgId toMsgId m.rangeList) :
    (m.changeCBRange enable fromMsgId toMsgId answers).result = .success ∧
      ids (m.changeCBRange enable fromMsgId toMsgId answers).manager.rangeList =
        carriedOut (m.changeCBRange enable fromMsgId toMsgId answers).commands ∅ := by
  have hchanged : ∃ rangeList,
      changedRange enable fromMsgId toMsgId m.rangeList = some rangeList := by
    cases enable with
    | true => exact ⟨_, rfl⟩
    | false => exact closeCBRange_isSome hmax hle (by simpa using hf) m.rangeList
  obtain ⟨rangeList, hchange⟩ := hchanged
  have hfirst := carriedOut_sendDataToRil answers.disableOld false m.rangeList ∅
  have hsecond := carriedOut_sendDataToRil answers.enableNew true rangeList ∅
  have hdisabled : (sendDataToRil answers.disableOld false m.rangeList).1 = true := by
    by_contra hfalse
    have := (sendDataToRil_eq_false (Bool.eq_false_iff.2 hfalse)).2
    simp [hold] at this
  have henabled : (sendDataToRil answers.enableNew true rangeList).1 = true := by
    by_contra hfalse
    obtain ⟨hne, hanswer⟩ := sendDataToRil_eq_false (Bool.eq_false_iff.2 hfalse)
    cases hnew with
    | inl hnew => simp [hnew] at hanswer
    | inr hall => exact hne (changedRange_of_closesAll hle hall hchange)
  unfold SmsMiscManager.changeCBRange
  rw [← changedRange, hchange]
  simp only [hdisabled, henabled, Bool.not_true, Bool.false_eq_true, if_false, true_and,
    carriedOut_append]
  rw [hdisabled] at hfirst
  rw [henabled] at hsecond
  simp only [if_true, Bool.false_eq_true, if_false, Set.empty_sdiff] at hfirst
  rw [hfirst, hsecond]
  simp

end Change

/-! ## Every call -/

theorem together_setCBConfigList {m : SmsMiscManager} {modem : Set Nat}
    {messageIds : List Int32} {ranType : Int32} {answer : Bool}
    (hsub : ids m.rangeList ⊆ modem) :
    ids (m.setCBConfigList messageIds ranType answer).manager.rangeList ⊆
        carriedOut (m.setCBConfigList messageIds ranType answer).commands modem ∧
      (ids m.rangeList = modem →
        ids (m.setCBConfigList messageIds ranType answer).manager.rangeList =
          carriedOut (m.setCBConfigList messageIds ranType answer).commands modem) ∧
      ((m.setCBConfigList messageIds ranType answer).result = .rilCmdFail →
        ids (m.setCBConfigList messageIds ranType answer).manager.rangeList = ids m.rangeList ∧
          carriedOut (m.setCBConfigList messageIds ranType answer).commands modem = modem) := by
  unfold SmsMiscManager.setCBConfigList
  split
  · exact ⟨hsub, id, fun hfail => by cases hfail⟩
  · dsimp only
    split
    · exact ⟨hsub, id, fun hfail => by cases hfail⟩
    · have hsent := carriedOut_sendDataToRil answer true
        (combineCBRange (m.rangeList ++ convertToRangeList messageIds)) modem
      cases henabled : (sendDataToRil answer true
          (combineCBRange (m.rangeList ++ convertToRangeList messageIds))).1 with
      | false =>
          rw [henabled] at hsent
          refine ⟨?_, ?_, fun _ => ⟨rfl, hsent⟩⟩
          · exact hsub.trans hsent.ge
          · exact fun hagrees => hagrees.trans hsent.symm
      | true =>
          rw [henabled] at hsent
          simp only [if_true] at hsent
          refine ⟨?_, fun hagrees => ?_, fun hfail => by cases hfail⟩
          · exact Set.subset_union_right.trans hsent.ge
          · refine Eq.trans ?_ hsent.symm
            have hmore : modem ⊆
                ids (combineCBRange (m.rangeList ++ convertToRangeList messageIds)) := by
              rw [(combined_combineCBRange _).same, ids_append, hagrees]
              exact Set.subset_union_left
            exact (Set.union_eq_self_of_subset_left hmore).symm

/-- What the modem has enabled when the cache of a slot was never read from it. -/
theorem updateCbRangList_of_truthful {m : SmsMiscManager} {mids : List Char}
    {mdRangeList : List RangeInfo} (hsub : ids m.rangeList ⊆ ids mdRangeList)
    (hread : reported isValidDecValue mids = .all mdRangeList) :
    ∃ synced, m.updateCbRangList isValidDecValue mids = some synced ∧
      synced.mdRangeList = mdRangeList ∧ ids synced.rangeList = ids mdRangeList ∧
        (mdRangeList ≠ [] → synced.rangeList = combineCBRange mdRangeList) ∧
          (synced.rangeList = m.rangeList ∨ synced.rangeList = combineCBRange mdRangeList) := by
  unfold SmsMiscManager.updateCbRangList
  cases mids with
  | nil =>
      have hnil : mdRangeList = [] := by
        cases hread
        rfl
      subst hnil
      exact ⟨_, rfl, rfl, Set.Subset.antisymm hsub (by simp), fun h => absurd rfl h, .inl rfl⟩
  | cons c mids =>
      simp only [List.isEmpty_cons, Bool.false_eq_true, if_false, hread]
      exact ⟨_, rfl, rfl, (combined_combineCBRange mdRangeList).same, fun _ => rfl, .inr rfl⟩

theorem closesAll_combineCBRange {enable : Bool} {fromMsgId toMsgId : UInt32}
    {ranges : List RangeInfo} (h : ClosesAll enable fromMsgId toMsgId ranges) :
    ClosesAll enable fromMsgId toMsgId (combineCBRange ranges) := by
  refine ⟨h.1, fun r hr => ?_⟩
  obtain ⟨a, ha, b, hb, hfrom, hto, -⟩ := (combined_combineCBRange ranges).bounds r hr
  rw [hfrom, hto]
  exact ⟨(h.2 a ha).1, (h.2 b hb).2⟩

/-- The call that reads the modem, when the modem has ids enabled. -/
theorem together_of_read {m synced : SmsMiscManager} {enable : Bool}
    {fromMsgId toMsgId : UInt32} {answers : RilAnswers} (hle : fromMsgId ≤ toMsgId)
    (hmax : toMsgId.toNat ≤ rangMax) (hne : synced.mdRangeList ≠ [])
    (hrange : synced.rangeList = combineCBRange synced.mdRangeList)
    (hok : answers.disableModem = false ∧ ids m.rangeList = ids synced.mdRangeList ∨
      GoesThrough synced.mdRangeList enable fromMsgId toMsgId answers) :
    Together m (ids synced.mdRangeList)
      (let (disabled, commands) := sendDataToRil answers.disableModem false synced.mdRangeList
      if !disabled then ⟨synced, .rilCmdFail, commands⟩
      else
        let rest := SmsMiscManager.changeCBRange { synced with mdRangeList := [] } enable
          fromMsgId toMsgId answers
        { rest with commands := commands ++ rest.commands }) := by
  have hsent := carriedOut_sendDataToRil answers.disableModem false synced.mdRangeList
    (ids synced.mdRangeList)
  have hsame : ids synced.rangeList = ids synced.mdRangeList := by
    rw [hrange, (combined_combineCBRange _).same]
  have hanswer : (sendDataToRil answers.disableModem false synced.mdRangeList).1 =
      answers.disableModem := by
    simp [sendDataToRil, hne]
  rw [hanswer] at hsent
  dsimp only
  rw [hanswer]
  rcases hok with ⟨hfail, hagrees⟩ | ⟨hmodem, hold, hf, hnew⟩
  · rw [hfail] at hsent ⊢
    exact ⟨hsame.trans hsent.symm, fun _ => ⟨hsame.trans hagrees.symm, hsent⟩⟩
  · rw [hmodem] at hsent ⊢
    simp only [if_true, Bool.false_eq_true, if_false, sdiff_self, Set.bot_eq_empty] at hsent
    have hcleared : answers.enableNew = true ∨ ClosesAll enable fromMsgId toMsgId
        ({ synced with mdRangeList := [] } : SmsMiscManager).rangeList := by
      refine hnew.imp_right fun hall => ?_
      rw [hrange]
      exact closesAll_combineCBRange hall
    obtain ⟨hsuccess, hids⟩ := changeCBRange_of_cleared hle hmax hf hold hcleared
    simp only [Bool.not_true, Bool.false_eq_true, if_false]
    refine ⟨?_, fun hfail => ?_⟩
    · rw [carriedOut_append, hsent]
      exact hids
    · rw [hsuccess] at hfail
      cases hfail

/-- What holds between the calls of a run: the cache of a slot is never ahead of its modem,
and before the flag is set no modem was read. -/
structure CbSystem.Tracked (s : CbSystem) : Prop where
  sub : ∀ slotId, ids (s.world.managers slotId).rangeList ⊆ s.modems slotId
  agrees : ∀ slotId, s.configured slotId = true → s.Agrees slotId
  unread : s.world.hasGotCbRange = false → ∀ slotId, (s.world.managers slotId).mdRangeList = []

theorem together_setCBConfig {s : CbSystem} {slotId : Nat} {enable : Bool}
    {fromMsgId toMsgId : UInt32} {netType : UInt8} {answers : RilAnswers} {out : CbOutcome}
    (h : s.Tracked)
    (hok : KeepsTogether isValidDecValue s
      (.setCBConfig slotId enable fromMsgId toMsgId netType answers))
    (htruthful : TruthfulCall isValidDecValue (s.modems slotId)
      (.setCBConfig slotId enable fromMsgId toMsgId netType answers))
    (hout : (s.world.managers slotId).setCBConfig isValidDecValue s.world.hasGotCbRange enable
      fromMsgId toMsgId netType answers = some out) :
    Together (s.world.managers slotId) (s.modems slotId) out := by
  unfold SmsMiscManager.setCBConfig at hout
  dsimp only [KeepsTogether] at hok
  cases hinvalid : cbChannelInvalid fromMsgId toMsgId netType with
  | true =>
      rw [hinvalid] at hout hok
      cases hout
      exact ⟨hok, fun hfail => by cases hfail⟩
  | false =>
      obtain ⟨hle, hmax⟩ := cbChannelInvalid_eq_false hinvalid
      rw [hinvalid] at hout hok
      simp only [Bool.false_eq_true, if_false] at hout hok
      cases hgot : s.world.hasGotCbRange with
      | true =>
          simp only [hgot, true_or, if_true] at hout hok
          cases hout
          exact together_changeCBRange hle hok.1 hok.2
      | false =>
          simp only [hgot, Bool.false_eq_true, if_false, false_or] at hout hok
          cases hreport : answers.report with
          | none =>
              have hmd := h.unread hgot slotId
              simp only [hreport, if_true] at hok
              simp only [hreport, SmsMiscManager.getModemCBRange, hmd, sendDataToRil,
                List.isEmpty_nil, if_true, Bool.not_true, Bool.false_eq_true, if_false,
                List.nil_append, Option.some.injEq] at hout
              have htogether : Together { s.world.managers slotId with mdRangeList := [] }
                  (s.modems slotId) _ := together_changeCBRange hle hok.1 hok.2
              rw [← hout]
              exact ⟨htogether.agrees, htogether.unchanged⟩
          | some mids =>
              obtain ⟨mdRangeList, hread, hids⟩ := htruthful mids hreport
              have hkeeps := hok
              simp only [hreport, reduceCtorEq, if_false] at hkeeps
              have hmd := hkeeps mids rfl mdRangeList hread
              have hsub := h.sub slotId
              rw [← hids] at hsub ⊢
              obtain ⟨synced, hupdate, rfl, hsame, hcombine, hrange⟩ :=
                updateCbRangList_of_truthful hsub hread
              simp only [hreport, SmsMiscManager.getModemCBRange, hupdate] at hout
              by_cases hnil : synced.mdRangeList = []
              · rw [if_pos hnil] at hmd
                simp only [hnil, sendDataToRil, List.isEmpty_nil, if_true, Bool.not_true,
                  Bool.false_eq_true, if_false, List.nil_append, Option.some.injEq] at hout
                have hdone : NotHalfDone synced.rangeList enable fromMsgId toMsgId answers := by
                  cases hrange with
                  | inl hkept =>
                      rw [hkept]
                      exact hmd
                  | inr hcombined =>
                      refine .inr (.inr (.inl ?_))
                      rw [hcombined, hnil]
                      rfl
                have htogether : Together { synced with mdRangeList := [] }
                    (ids synced.mdRangeList) _ := together_changeCBRange hle hsame hdone
                have hempty : ids (s.world.managers slotId).rangeList = ids synced.rangeList := by
                  rw [hsame, hnil, ids_nil]
                  rw [hnil, ids_nil] at hsub
                  exact Set.subset_empty_iff.1 hsub
                rw [← hout]
                refine ⟨htogether.agrees, fun hfail => ?_⟩
                rw [hempty]
                exact htogether.unchanged hfail
              · rw [if_neg hnil] at hmd
                have hread : answers.disableModem = false ∧
                      ids (s.world.managers slotId).rangeList = ids synced.mdRangeList ∨
                    GoesThrough synced.mdRangeList enable fromMsgId toMsgId answers := by
                  rw [hids]
                  exact hmd
                have htogether := together_of_read hle hmax hnil (hcombine hnil) hread
                cases hsent : (sendDataToRil answers.disableModem false synced.mdRangeList).1 with
                | true =>
                    simp only [hsent, Bool.not_true, Bool.false_eq_true, if_false,
                      Option.some.injEq] at hout htogether
                    rw [← hout]
                    exact htogether
                | false =>
                    simp only [hsent, Bool.not_false, if_true, Option.some.injEq]
                      at hout htogether
                    rw [← hout]
                    exact htogether

theorem unread_setCBConfig {hasGotCbRange : Bool} {m : SmsMiscManager} {enable : Bool}
    {fromMsgId toMsgId : UInt32} {netType : UInt8} {answers : RilAnswers} {out : CbOutcome}
    (hinvalid : cbChannelInvalid fromMsgId toMsgId netType = true)
    (hout : m.setCBConfig isValidDecValue hasGotCbRange enable fromMsgId toMsgId netType
      answers = some out) : out.manager = m := by
  rw [SmsMiscManager.setCBConfig, hinvalid] at hout
  cases hout
  rfl

theorem setCBConfigList_mdRangeList (m : SmsMiscManager) (messageIds : List Int32)
    (ranType : Int32) (answer : Bool) :
    (m.setCBConfigList messageIds ranType answer).manager.mdRangeList = m.mdRangeList := by
  unfold SmsMiscManager.setCBConfigList
  split
  · rfl
  · dsimp only
    split
    · rfl
    · split <;> rfl

/-- What one call does on its slot. -/
structure CallKeeps (s : CbSystem) (event : CbEvent) (out : CbOutcome) : Prop where
  sub : ids out.manager.rangeList ⊆ carriedOut out.commands (s.modems event.slotId)
  agrees : s.configured event.slotId = true ∨ event.isSetCBConfig = true →
    ids out.manager.rangeList = carriedOut out.commands (s.modems event.slotId)
  unchanged : out.result = .rilCmdFail →
    ids out.manager.rangeList = ids (s.world.managers event.slotId).rangeList ∧
      carriedOut out.commands (s.modems event.slotId) = s.modems event.slotId
  unread : s.world.flagAfter event = false → out.manager.mdRangeList = []

theorem callKeeps_outcome {s : CbSystem} {event : CbEvent} {out : CbOutcome} (h : s.Tracked)
    (hok : KeepsTogether isValidDecValue s event)
    (htruthful : TruthfulCall isValidDecValue (s.modems event.slotId) event)
    (hout : s.world.outcome isValidDecValue event = some out) : CallKeeps s event out := by
  cases event with
  | setCBConfig slotId enable fromMsgId toMsgId netType answers =>
      rw [CbWorld.outcome] at hout
      have htogether := together_setCBConfig h hok htruthful hout
      refine ⟨htogether.agrees.le, fun _ => htogether.agrees, htogether.unchanged, ?_⟩
      intro hflag
      simp only [CbWorld.flagAfter, Bool.or_eq_false_iff, Bool.not_eq_false'] at hflag
      rw [unread_setCBConfig hflag.2 hout]
      exact h.unread hflag.1 slotId
  | setCBConfigList slotId messageIds ranType answer =>
      rw [CbWorld.outcome] at hout
      split at hout
      · cases hout
        obtain ⟨hsub, hagrees, hunchanged⟩ := together_setCBConfigList (h.sub slotId)
        refine ⟨hsub, fun hconfigured => hagrees ?_, hunchanged, fun hflag => ?_⟩
        · cases hconfigured with
          | inl hconfigured => exact h.agrees slotId hconfigured
          | inr hcall => cases hcall
        · rw [setCBConfigList_mdRangeList]
          exact h.unread hflag slotId
      · cases hout
        refine ⟨h.sub slotId, fun hconfigured => ?_, fun hfail => (by cases hfail),
          fun hflag => h.unread hflag slotId⟩
        cases hconfigured with
        | inl hconfigured => exact h.agrees slotId hconfigured
        | inr hcall => cases hcall
  | report slotId mids => cases htruthful

theorem tracked_after {s : CbSystem} {event : CbEvent} {out : CbOutcome} (h : s.Tracked)
    (hcall : CallKeeps s event out) : (s.after event out).Tracked := by
  have hother : ∀ slotId, slotId ≠ event.slotId →
      ((s.after event out).world.managers slotId = s.world.managers slotId ∧
        (s.after event out).modems slotId = s.modems slotId ∧
          (s.after event out).configured slotId = s.configured slotId) := by
    intro slotId hne
    exact ⟨CbWorld.after_managers_of_ne hne, Function.update_of_ne hne ..,
      Function.update_of_ne hne ..⟩
  have hself : (s.after event out).world.managers event.slotId = out.manager ∧
      (s.after event out).modems event.slotId =
        carriedOut out.commands (s.modems event.slotId) ∧
      (s.after event out).configured event.slotId =
        (s.configured event.slotId || event.isSetCBConfig) :=
    ⟨CbWorld.after_managers_self .., Function.update_self .., Function.update_self ..⟩
  constructor
  · intro slotId
    by_cases hslot : slotId = event.slotId
    · subst hslot
      rw [hself.1, hself.2.1]
      exact hcall.sub
    · rw [(hother slotId hslot).1, (hother slotId hslot).2.1]
      exact h.sub slotId
  · intro slotId hconfigured
    unfold CbSystem.Agrees
    by_cases hslot : slotId = event.slotId
    · subst hslot
      rw [hself.2.2, Bool.or_eq_true] at hconfigured
      rw [hself.1, hself.2.1]
      exact hcall.agrees hconfigured
    · rw [(hother slotId hslot).2.2] at hconfigured
      rw [(hother slotId hslot).1, (hother slotId hslot).2.1]
      exact h.agrees slotId hconfigured
  · intro hflag slotId
    by_cases hslot : slotId = event.slotId
    · subst hslot
      rw [hself.1]
      exact hcall.unread hflag
    · rw [(hother slotId hslot).1]
      refine h.unread ?_ slotId
      cases hgot : s.world.hasGotCbRange with
      | false => rfl
      | true =>
          have hset : s.world.flagAfter event = true := by
            cases event <;> simp [CbWorld.flagAfter, hgot]
          have hunset : s.world.flagAfter event = false := hflag
          rw [hset] at hunset
          cases hunset

theorem tracked_of_run {s : CbSystem}
    (hrun : CbSystemRun isValidDecValue (KeepsTogether isValidDecValue) s) : s.Tracked := by
  induction hrun with
  | init modems =>
      exact ⟨fun slotId => by simp [CbWorld.init, SmsMiscManager.init],
        fun slotId hconfigured => (by cases hconfigured), fun _ slotId => rfl⟩
  | step _ hok htruthful hout ih =>
      exact tracked_after ih (callKeeps_outcome ih hok htruthful hout)

/-- Along every run whose calls keep them together, the cache of a slot says what its modem
has enabled, and a call that fails leaves both as they were. -/
theorem cacheIsModem_of_run (isValidDecValue : List Char → Bool) {s : CbSystem}
    (hrun : CbSystemRun isValidDecValue (KeepsTogether isValidDecValue) s) :
    CacheIsModem isValidDecValue (KeepsTogether isValidDecValue) s := by
  have h := tracked_of_run hrun
  refine ⟨h.agrees, fun event out hok htruthful hout hfail => ?_⟩
  exact (callKeeps_outcome h hok htruthful hout).unchanged hfail

end Runs

section Fixed

/-- The first call, on a modem with nothing enabled. -/
def firstCall : CbEvent := .setCBConfig 0 true 4370 4370 1 ⟨some [], true, true, true⟩

def firstOutcome : CbOutcome :=
  ⟨⟨[⟨4370, 4370⟩], []⟩, .success, [⟨true, [⟨4370, 4370⟩], true⟩]⟩

def startSystem : CbSystem := ⟨.init, fun _ => ∅, fun _ => false⟩

theorem firstCall_truthful : TruthfulCall allDigits ∅ firstCall := by
  intro mids hmids
  cases hmids
  exact ⟨[], rfl, ids_nil⟩

theorem firstCall_outcome : CbWorld.init.outcome allDigits firstCall = some firstOutcome := by
  decide

theorem cacheIsModem_firstCall :
    CacheIsModem allDigits (KeepsTogether allDigits)
      (startSystem.after firstCall firstOutcome) := by
  have hok : KeepsTogether allDigits startSystem firstCall := by
    intro mids hmids mdRangeList hread
    cases hmids
    cases hread
    exact .inl rfl
  exact cacheIsModem_of_run allDigits
    (.step (.init fun _ => ∅) hok firstCall_truthful firstCall_outcome)

def secondCall : CbEvent := .setCBConfig 0 true 4371 4371 1 ⟨none, true, true, false⟩

def secondOutcome : CbOutcome :=
  ⟨⟨[⟨4370, 4370⟩], []⟩, .rilCmdFail,
    [⟨false, [⟨4370, 4370⟩], true⟩, ⟨true, [⟨4370, 4371⟩], false⟩]⟩

/-- The second call disables the old list, and the modem refuses the new one. -/
theorem cache_ne_modem :
    ¬ ∀ s, CbSystemRun allDigits (fun _ _ => True) s →
      CacheIsModem allDigits (fun _ _ => True) s := by
  intro h
  have hfirst : CbSystemRun allDigits (fun _ _ => True)
      (startSystem.after firstCall firstOutcome) :=
    .step (.init fun _ => ∅) trivial firstCall_truthful firstCall_outcome
  have hout : (startSystem.after firstCall firstOutcome).world.outcome allDigits secondCall =
      some secondOutcome := by
    decide
  have htruthful : TruthfulCall allDigits
      ((startSystem.after firstCall firstOutcome).modems secondCall.slotId) secondCall := by
    intro mids hmids
    cases hmids
  have hsecond : CbSystemRun allDigits (fun _ _ => True)
      ((startSystem.after firstCall firstOutcome).after secondCall secondOutcome) :=
    .step hfirst trivial htruthful hout
  have hagrees : ids [⟨4370, 4370⟩] =
      (∅ ∪ ids [⟨4370, 4370⟩]) \ ids [(⟨4370, 4370⟩ : RangeInfo)] := (h _ hsecond).1 0 rfl
  have hmem : 4370 ∈ ids [⟨4370, 4370⟩] :=
    ⟨⟨4370, 4370⟩, List.mem_singleton.2 rfl, mem_ids_range.2 (by decide)⟩
  have hmodem := hmem
  rw [hagrees] at hmodem
  exact hmodem.2 hmem

end Fixed

end TelephonySms.Broadcast
