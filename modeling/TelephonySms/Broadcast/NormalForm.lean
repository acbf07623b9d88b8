import Mathlib.Logic.Relation
import TelephonySms.Broadcast.Config

/-! # One list for each set of ids

Where the bounds of the ranges are the right way round, the list that `CombineCBRange`
leaves is the only one with gaps between its ranges that denotes the same ids. So the
order in which ranges are added does not matter, and a list is combined only once.
-/

namespace TelephonySms.Broadcast

/-- The bounds are the right way round. -/
def Ordered (ranges : List RangeInfo) : Prop := ∀ r ∈ ranges, r.fromMsgId ≤ r.toMsgId

section Gaps

variable {r s : RangeInfo} {ranges more : List RangeInfo} {n : Nat}

theorem fromMsgId_mem_ids (hr : r.fromMsgId ≤ r.toMsgId) :
    r.fromMsgId.toNat ∈ ids (r :: ranges) := by
  rw [ids_cons]
  exact .inl (mem_ids_range.2 ⟨Nat.le_refl _, UInt32.le_iff_toNat_le.1 hr⟩)

/-- The ids behind a range leave a gap. -/
theorem lt_of_mem_behind (h : ∀ s ∈ ranges, Behind r s) (hn : n ∈ ids ranges) :
    r.toMsgId.toNat + 1 < n := by
  obtain ⟨s, hs, hmem⟩ := hn
  have hgap := h s hs
  unfold Behind at hgap
  rw [mem_ids_range] at hmem
  omega

/-- The first id of a list with gaps is the first bound. -/
theorem le_of_mem_ids (hgaps : (r :: ranges).Pairwise Behind) (hr : r.fromMsgId ≤ r.toMsgId)
    (hn : n ∈ ids (r :: ranges)) : r.fromMsgId.toNat ≤ n := by
  rw [ids_cons] at hn
  rw [UInt32.le_iff_toNat_le] at hr
  cases hn with
  | inl hn => exact (mem_ids_range.1 hn).1
  | inr hn =>
      have := lt_of_mem_behind (List.pairwise_cons.1 hgaps).1 hn
      omega

/-- The first range ends in front of the first gap. -/
theorem toMsgId_le_of_ids_eq (hgaps : (r :: ranges).Pairwise Behind)
    (hr : r.fromMsgId ≤ r.toMsgId) (hfrom : r.fromMsgId = s.fromMsgId)
    (hids : ids (r :: ranges) = ids (s :: more)) :
    s.toMsgId ≤ r.toMsgId := by
  rw [UInt32.le_iff_toNat_le] at hr ⊢
  by_contra hlt
  have hmem : r.toMsgId.toNat + 1 ∈ ids (r :: ranges) := by
    rw [hids, ids_cons]
    refine .inl (mem_ids_range.2 ⟨?_, by omega⟩)
    rw [← hfrom]
    omega
  rw [ids_cons] at hmem
  cases hmem with
  | inl hmem =>
      have := (mem_ids_range.1 hmem).2
      omega
  | inr hmem =>
      have := lt_of_mem_behind (List.pairwise_cons.1 hgaps).1 hmem
      omega

/-- Behind the first range there are the other ids. -/
theorem ids_tail (hgaps : (r :: ranges).Pairwise Behind) : ids ranges = ids (r :: ranges) \ r.ids := by
  rw [ids_cons, Set.union_sdiff_left]
  refine (sdiff_eq_left.2 (Set.disjoint_left.2 fun n hn hmem => ?_)).symm
  have hlt := lt_of_mem_behind (List.pairwise_cons.1 hgaps).1 hn
  have hle := (mem_ids_range.1 hmem).2
  omega

theorem eq_nil_of_ids_eq_empty (hordered : Ordered ranges) (hids : ids ranges = ∅) : ranges = [] := by
  cases ranges with
  | nil => rfl
  | cons r ranges =>
      have hmem : r.fromMsgId.toNat ∈ ids (r :: ranges) :=
        fromMsgId_mem_ids (hordered r List.mem_cons_self)
      rw [hids] at hmem
      exact absurd hmem (Set.notMem_empty _)

/-- Two lists with gaps that denote the same ids are the same. -/
theorem eq_of_ids_eq (hgaps : ranges.Pairwise Behind) (hordered : Ordered ranges)
    (hgaps' : more.Pairwise Behind) (hordered' : Ordered more) (hids : ids ranges = ids more) :
    ranges = more := by
  induction ranges generalizing more with
  | nil =>
      rw [ids_nil] at hids
      exact (eq_nil_of_ids_eq_empty hordered' hids.symm).symm
  | cons r ranges ih =>
      cases more with
      | nil =>
          rw [ids_nil] at hids
          exact eq_nil_of_ids_eq_empty hordered hids
      | cons s more =>
          have hr := hordered r List.mem_cons_self
          have hs := hordered' s List.mem_cons_self
          have hfrom : r.fromMsgId = s.fromMsgId := by
            refine UInt32.toNat_inj.1 (Nat.le_antisymm ?_ ?_)
            · exact le_of_mem_ids hgaps hr (by rw [hids]; exact fromMsgId_mem_ids hs)
            · exact le_of_mem_ids hgaps' hs (by rw [← hids]; exact fromMsgId_mem_ids hr)
          have hto : r.toMsgId = s.toMsgId := UInt32.le_antisymm
            (toMsgId_le_of_ids_eq hgaps' hs hfrom.symm hids.symm)
            (toMsgId_le_of_ids_eq hgaps hr hfrom hids)
          obtain rfl : r = s := by
            cases r
            cases s
            simp_all
          have htail : ids ranges = ids more := by
            rw [ids_tail hgaps, ids_tail hgaps', hids]
          rw [ih (List.pairwise_cons.1 hgaps).2 (fun t ht => hordered t (List.mem_cons_of_mem r ht))
            (List.pairwise_cons.1 hgaps').2 (fun t ht => hordered' t (List.mem_cons_of_mem r ht)) htail]

end Gaps

/-! ## Combining -/

section Combining

variable {ranges more : List RangeInfo}

theorem ordered_combineCBRange (h : Ordered ranges) : Ordered (combineCBRange ranges) := by
  intro r hr
  obtain ⟨a, ha, b, hb, hfrom, hto, hgrows⟩ := (combined_combineCBRange ranges).bounds r hr
  rw [hfrom]
  exact UInt32.le_trans (h a ha) hgrows

theorem combineCBRange_congr (h : Ordered ranges) (h' : Ordered more)
    (hids : ids ranges = ids more) : combineCBRange ranges = combineCBRange more := by
  have hcombined := combined_combineCBRange ranges
  have hcombined' := combined_combineCBRange more
  refine eq_of_ids_eq hcombined.gaps (ordered_combineCBRange h) hcombined'.gaps
    (ordered_combineCBRange h') ?_
  rw [hcombined.same, hids, hcombined'.same]

/-- A list with gaps is left as it is. -/
theorem combineCBRange_of_gaps (hgaps : ranges.Pairwise Behind) (h : Ordered ranges) :
    combineCBRange ranges = ranges := by
  have hcombined := combined_combineCBRange ranges
  exact eq_of_ids_eq hcombined.gaps (ordered_combineCBRange h) hgaps h hcombined.same

/-- One range is in front of the other, they have no id in common, and they do not touch. -/
structure Separate (r s : RangeInfo) : Prop where
  increasing : r.lt s
  disjoint : Disjoint r.ids s.ids
  nonadjacent : r.toMsgId.toNat + 1 ≠ s.fromMsgId.toNat

theorem Separate.of_behind {r s : RangeInfo} (hr : r.fromMsgId ≤ r.toMsgId) (h : Behind r s) :
    Separate r s := by
  unfold Behind at h
  rw [UInt32.le_iff_toNat_le] at hr
  refine ⟨.inl (UInt32.lt_iff_toNat_lt.2 (by omega)), ?_, by omega⟩
  rw [Set.disjoint_left]
  intro n hn hmem
  rw [mem_ids_range] at hn hmem
  omega

/-- `CombineCBRange` computes a normal form. -/
theorem combineCBRange_normal_form (ranges : List RangeInfo) (h : Ordered ranges) :
    (combineCBRange ranges).Pairwise Separate ∧ Ordered (combineCBRange ranges) ∧
      ids (combineCBRange ranges) = ids ranges ∧
      (∀ more, Ordered more → ids more = ids ranges →
        combineCBRange more = combineCBRange ranges) ∧
      combineCBRange (combineCBRange ranges) = combineCBRange ranges := by
  have hcombined := combined_combineCBRange ranges
  have hordered := ordered_combineCBRange h
  refine ⟨?_, hordered, hcombined.same, ?_, combineCBRange_of_gaps hcombined.gaps hordered⟩
  · exact hcombined.gaps.imp_of_mem fun hr _ hbehind => .of_behind (hordered _ hr) hbehind
  · intro more hmore hids
    exact combineCBRange_congr hmore h hids

/-- Ranges that touch only through a third one. -/
theorem combineCBRange_normal_form_chain :
    (combineCBRange [⟨4, 6⟩, ⟨1, 2⟩, ⟨9, 9⟩, ⟨3, 3⟩]).Pairwise Separate :=
  (combineCBRange_normal_form [⟨4, 6⟩, ⟨1, 2⟩, ⟨9, 9⟩, ⟨3, 3⟩] (by unfold Ordered; decide)).1

end Combining

/-! ## Closing -/

section Closing

variable {fromMsgId toMsgId : UInt32}

/-- One round of the loop of `CloseCBRange`, on what it has passed and what is left. -/
inductive CloseStep (fromMsgId toMsgId : UInt32) :
    List RangeInfo × List RangeInfo → List RangeInfo × List RangeInfo → Prop where
  | keeps {passed left : List RangeInfo} {info : RangeInfo}
      (h : closeRange fromMsgId toMsgId info = none) :
      CloseStep fromMsgId toMsgId (passed, info :: left) (passed ++ [info], left)
  | last {passed pieces : List RangeInfo} {info : RangeInfo}
      (h : closeRange fromMsgId toMsgId info = some pieces) :
      CloseStep fromMsgId toMsgId (passed, [info]) (passed ++ pieces, [])
  | replaces {passed left pieces : List RangeInfo} {info : RangeInfo}
      (h : closeRange fromMsgId toMsgId info = some pieces) (hleft : left ≠ []) :
      CloseStep fromMsgId toMsgId (passed, info :: left) (passed, left ++ pieces)

/-- The loop comes to the end of the list. -/
theorem closeLoop_run (hle : fromMsgId ≤ toMsgId)
    (hf : ¬ (fromMsgId = UInt32.ofNat (2 ^ 32 - 1) ∨ fromMsgId < 1)) {n : Nat}
    {passed left : List RangeInfo} (hn : rounds fromMsgId toMsgId left ≤ n) :
    Relation.ReflTransGen (CloseStep fromMsgId toMsgId) (passed, left)
      (closeLoop fromMsgId toMsgId n passed left, []) := by
  induction n generalizing passed left with
  | zero =>
      cases left with
      | nil => simp [closeLoop, Relation.ReflTransGen.refl]
      | cons info left =>
          rw [rounds, List.map_cons, List.sum_cons] at hn
          split at hn <;> omega
  | succ n ih =>
      cases left with
      | nil => exact Relation.ReflTransGen.refl
      | cons info left =>
          have hround := closeRange_eq hle hf info
          rw [rounds, List.map_cons, List.sum_cons, ← rounds] at hn
          rw [closeLoop]
          by_cases hapart : Apart fromMsgId toMsgId info
          · rw [if_pos hapart] at hround hn
            rw [hround]
            exact (ih (by omega)).head (.keeps hround)
          · rw [if_neg hapart] at hround hn
            rw [hround]
            cases left with
            | nil => exact Relation.ReflTransGen.single (.last hround)
            | cons next left =>
                have hnew : rounds fromMsgId toMsgId (around fromMsgId toMsgId info) =
                    (around fromMsgId toMsgId info).length :=
                  rounds_of_apart fun p hp => apart_of_mem_around hp
                have hmore : rounds fromMsgId toMsgId
                    (next :: left ++ around fromMsgId toMsgId info) ≤ n := by
                  rw [rounds, List.map_append, List.sum_append, ← rounds, ← rounds, hnew]
                  omega
                exact (ih hmore).head (.replaces hround (by simp))

/-- The list that `SetCBConfig` saves before it changes it. -/
def SmsMiscManager.oldRangeList (isValidDecValue : List Char → Bool) (hasGotCbRange : Bool)
    (m : SmsMiscManager) (answers : RilAnswers) : Option (List RangeInfo) :=
  if hasGotCbRange then some m.rangeList
  else (m.getModemCBRange isValidDecValue answers.report).map SmsMiscManager.rangeList

/-- After `CloseCBRange` the ids are gone and no others, and where `SetCBConfig` returns
success for such a list none of them remains. -/
structure ClosesExactly (isValidDecValue : List Char → Bool) (fromMsgId toMsgId : UInt32)
    (rangeList : List RangeInfo) : Prop where
  difference : ids ((closeCBRange fromMsgId toMsgId rangeList).getD rangeList) =
    ids rangeList \ Set.Icc fromMsgId.toNat toMsgId.toNat
  success : ∀ (hasGotCbRange : Bool) (m : SmsMiscManager) (netType : UInt8)
    (answers : RilAnswers) (out : CbOutcome),
    m.oldRangeList isValidDecValue hasGotCbRange answers = some rangeList →
      m.setCBConfig isValidDecValue hasGotCbRange false fromMsgId toMsgId netType answers =
        some out →
      out.result = .success →
        Disjoint (ids out.manager.rangeList) (Set.Icc fromMsgId.toNat toMsgId.toNat)

theorem closeCBRange_zero (rangeList : List RangeInfo) : closeCBRange 0 toMsgId rangeList = none :=
  if_pos (.inr (by decide))

theorem not_refused (hle : fromMsgId ≤ toMsgId) (hmax : toMsgId.toNat ≤ rangMax)
    (hf : fromMsgId ≠ 0) : ¬ (fromMsgId = UInt32.ofNat (2 ^ 32 - 1) ∨ fromMsgId < 1) := by
  have hne : fromMsgId.toNat ≠ 0 := fun hzero => hf (UInt32.toNat_inj.1 hzero)
  rw [UInt32.le_iff_toNat_le] at hle
  rw [UInt32.lt_iff_toNat_lt, ← UInt32.toNat_inj]
  unfold rangMax at hmax
  simp
  omega

theorem ids_getD_closeCBRange (hle : fromMsgId ≤ toMsgId) (hmax : toMsgId.toNat ≤ rangMax)
    {rangeList : List RangeInfo}
    (h : fromMsgId ≠ 0 ∨ Disjoint (ids rangeList) (Set.Icc fromMsgId.toNat toMsgId.toNat)) :
    ids ((closeCBRange fromMsgId toMsgId rangeList).getD rangeList) =
      ids rangeList \ Set.Icc fromMsgId.toNat toMsgId.toNat := by
  by_cases hf : fromMsgId = 0
  · have hdisjoint := h.resolve_left (not_not_intro hf)
    rw [hf, closeCBRange_zero, ← hf]
    exact (sdiff_eq_left.2 hdisjoint).symm
  · obtain ⟨result, hclose⟩ := closeCBRange_isSome hmax hle hf rangeList
    rw [hclose]
    exact ids_closeCBRange hle hclose

/-- Where the change goes through, the list is what `CloseCBRange` leaves. -/
theorem rangeList_changeCBRange {m : SmsMiscManager} {answers : RilAnswers}
    (h : (m.changeCBRange false fromMsgId toMsgId answers).result = .success) :
    (m.changeCBRange false fromMsgId toMsgId answers).manager.rangeList =
      (closeCBRange fromMsgId toMsgId m.rangeList).getD m.rangeList := by
  unfold SmsMiscManager.changeCBRange at h ⊢
  cases hclose : closeCBRange fromMsgId toMsgId m.rangeList with
  | none => rfl
  | some rangeList =>
      simp only [hclose, Bool.false_eq_true, if_false] at h ⊢
      cases hold : (sendDataToRil answers.disableOld false m.rangeList).1 with
      | false => simp [hold] at h
      | true =>
          cases hnew : (sendDataToRil answers.enableNew true rangeList).1 with
          | false => simp [hold, hnew] at h
          | true => rfl

theorem rangeList_setCBConfig {isValidDecValue : List Char → Bool} {hasGotCbRange : Bool}
    {m : SmsMiscManager} {netType : UInt8} {answers : RilAnswers} {out : CbOutcome}
    {rangeList : List RangeInfo}
    (hold : m.oldRangeList isValidDecValue hasGotCbRange answers = some rangeList)
    (hout : m.setCBConfig isValidDecValue hasGotCbRange false fromMsgId toMsgId netType answers =
      some out) (h : out.result = .success) :
    out.manager.rangeList = (closeCBRange fromMsgId toMsgId rangeList).getD rangeList := by
  unfold SmsMiscManager.setCBConfig at hout
  unfold SmsMiscManager.oldRangeList at hold
  split at hout
  · cases hout
    cases h
  · cases hasGotCbRange with
    | true =>
        cases hout
        cases hold
        exact rangeList_changeCBRange h
    | false =>
        simp only [Bool.false_eq_true, if_false] at hold hout
        obtain ⟨synced, hget, rfl⟩ := Option.map_eq_some_iff.1 hold
        rw [hget] at hout
        dsimp only at hout
        split at hout
        · cases hout
          cases h
        · cases hout
          exact rangeList_changeCBRange (m := { synced with mdRangeList := [] }) h

/-- The loop of `CloseCBRange` ends, and it takes away exactly the ids it is to take away
unless it refuses to start at an id zero that it would have to take away. -/
theorem closeCBRange_difference_iff (isValidDecValue : List Char → Bool)
    (hle : fromMsgId ≤ toMsgId) (hmax : toMsgId.toNat ≤ rangMax) (rangeList : List RangeInfo) :
    (fromMsgId ≠ 0 → ∃ left,
      Relation.ReflTransGen (CloseStep fromMsgId toMsgId) ([], rangeList) (left, []) ∧
        closeCBRange fromMsgId toMsgId rangeList = some (combineCBRange left)) ∧
    (ClosesExactly isValidDecValue fromMsgId toMsgId rangeList ↔
      fromMsgId ≠ 0 ∨ Disjoint (ids rangeList) (Set.Icc fromMsgId.toNat toMsgId.toNat)) := by
  refine ⟨fun hf => ?_, fun h => ?_, fun h => ?_⟩
  · have hstarts := not_refused hle hmax hf
    refine ⟨_, closeLoop_run hle hstarts (rounds_le rangeList), ?_⟩
    rw [closeCBRange, if_neg hstarts]
  · by_contra hcondition
    rw [not_or, not_not] at hcondition
    have hdifference := h.difference
    rw [hcondition.1, closeCBRange_zero, ← hcondition.1] at hdifference
    exact hcondition.2 (sdiff_eq_left.1 hdifference.symm)
  · have hids := ids_getD_closeCBRange hle hmax h
    refine ⟨hids, fun hasGotCbRange m netType answers out hold hout hsuccess => ?_⟩
    rw [rangeList_setCBConfig hold hout hsuccess, hids]
    exact Set.disjoint_sdiff_left

/-- The middle of a range is closed, and the piece behind it is visited again. -/
theorem closesExactly_middle :
    ClosesExactly allDigits 5 6 [⟨1, 3⟩, ⟨4, 10⟩, ⟨20, 21⟩] :=
  (closeCBRange_difference_iff allDigits (by decide) (by decide) _).2.2 (.inl (by decide))

/-- Ids from zero on are refused with success. -/
theorem not_closesExactly_zero : ¬ ClosesExactly allDigits 0 5 [⟨3, 10⟩] := by
  intro h
  have hout : SmsMiscManager.setCBConfig allDigits true ⟨[⟨3, 10⟩], []⟩ false 0 5 1
      ⟨none, true, true, true⟩ = some ⟨⟨[⟨3, 10⟩], []⟩, .success, []⟩ := by
    decide
  have hdisjoint := h.success true _ 1 _ _ rfl hout rfl
  have hmem : 3 ∈ ids [⟨3, 10⟩] := ⟨⟨3, 10⟩, List.mem_singleton.2 rfl, mem_ids_range.2 (by decide)⟩
  exact Set.disjoint_left.1 hdisjoint hmem (by decide)

end Closing

/-! ## List calls -/

section ListCalls

/-- The ids of the pairs, one behind the other. -/
def flattened (pairs : List (Int32 × Int32)) : List Int32 := pairs.flatMap fun p => [p.1, p.2]

/-- A pair names ids from the first to the second. -/
def IsIdPair (p : Int32 × Int32) : Prop := 0 ≤ p.1 ∧ p.1 ≤ p.2

def rangeOf (p : Int32 × Int32) : RangeInfo := ⟨p.1.toUInt32, p.2.toUInt32⟩

theorem convertToRangeList_flattened (pairs : List (Int32 × Int32)) :
    convertToRangeList (flattened pairs) = pairs.map rangeOf := by
  have heven : (flattened pairs).length % 2 = 0 := by
    simp [flattened, List.length_flatMap, List.map_const', Nat.mul_mod_left]
  have hpairs : idPairs (flattened pairs) = pairs.map rangeOf := by
    induction pairs with
    | nil => rfl
    | cons p pairs ih =>
        have hrest : (flattened pairs).length % 2 = 0 := by
          simp [flattened, List.length_flatMap, List.map_const', Nat.mul_mod_left]
        change rangeOf p :: idPairs (flattened pairs) = _
        rw [ih hrest, List.map_cons]
  rw [convertToRangeList, if_neg (not_not_intro heven), hpairs]

theorem ordered_append {ranges more : List RangeInfo} (h : Ordered ranges) (h' : Ordered more) :
    Ordered (ranges ++ more) := by
  intro r hr
  cases List.mem_append.1 hr with
  | inl hr => exact h r hr
  | inr hr => exact h' r hr

theorem ordered_rangeOf {pairs : List (Int32 × Int32)} (h : ∀ p ∈ pairs, IsIdPair p) :
    Ordered (pairs.map rangeOf) := by
  intro r hr
  obtain ⟨p, hp, rfl⟩ := List.mem_map.1 hr
  exact Int32.toUInt32_le (h p hp).1 (h p hp).2

/-- Opening the pairs one by one. -/
def openAll (pairs : List (Int32 × Int32)) (rangeList : List RangeInfo) : List RangeInfo :=
  pairs.foldl (fun rangeList p => openCBRange p.1.toUInt32 p.2.toUInt32 rangeList) rangeList

theorem openAll_spec {pairs : List (Int32 × Int32)} (h : ∀ p ∈ pairs, IsIdPair p)
    {rangeList : List RangeInfo} (hordered : Ordered rangeList) (hne : pairs ≠ []) :
    openAll pairs rangeList = combineCBRange (rangeList ++ pairs.map rangeOf) := by
  induction pairs generalizing rangeList with
  | nil => exact absurd rfl hne
  | cons p pairs ih =>
      have hrest : ∀ q ∈ pairs, IsIdPair q := fun q hq => h q (List.mem_cons_of_mem p hq)
      have hpair : ∀ q ∈ [p], IsIdPair q := by simpa using h p List.mem_cons_self
      have hfirst : Ordered (rangeList ++ [rangeOf p]) :=
        ordered_append hordered (ordered_rangeOf hpair)
      have hopened : Ordered (openCBRange p.1.toUInt32 p.2.toUInt32 rangeList) :=
        ordered_combineCBRange hfirst
      change openAll pairs (openCBRange p.1.toUInt32 p.2.toUInt32 rangeList) = _
      by_cases hnil : pairs = []
      · rw [hnil]
        rfl
      · rw [ih hrest hopened hnil]
        refine combineCBRange_congr (ordered_append hopened (ordered_rangeOf hrest))
          (ordered_append hordered (ordered_rangeOf h)) ?_
        rw [ids_append, openCBRange, (combined_combineCBRange _).same, List.map_cons, ids_append,
          ids_append, ids_cons, ids_cons, ids_nil, Set.union_empty, Set.union_assoc]
        rfl

/-- The list after a call that the modem carries out. -/
theorem rangeList_setCBConfigList (m : SmsMiscManager) (pairs : List (Int32 × Int32)) :
    (m.setCBConfigList (flattened pairs) 1 true).manager.rangeList =
      if pairs = [] then m.rangeList else combineCBRange (m.rangeList ++ pairs.map rangeOf) := by
  have hgsm : (1 : Int32).toInt = gsmType := by decide
  unfold SmsMiscManager.setCBConfigList
  rw [if_neg (not_not_intro hgsm), convertToRangeList_flattened]
  cases pairs with
  | nil => rfl
  | cons p pairs =>
      rw [if_neg (by simp)]
      unfold sendDataToRil
      dsimp only
      split
      · next hempty =>
          rw [if_neg (by simp)]
          rfl
      · rw [if_neg (by simp)]
        rfl

/-- A list call leaves the same list for every order of its pairs, and the list that opening
them one by one leaves. -/
theorem setCBConfigList_eq_openAll (m : SmsMiscManager) (hordered : Ordered m.rangeList)
    (pairs : List (Int32 × Int32)) (h : ∀ p ∈ pairs, IsIdPair p) :
    (∀ pairs', pairs'.Perm pairs →
      (m.setCBConfigList (flattened pairs') 1 true).manager.rangeList =
        (m.setCBConfigList (flattened pairs) 1 true).manager.rangeList) ∧
    (m.setCBConfigList (flattened pairs) 1 true).manager.rangeList =
      openAll pairs m.rangeList := by
  constructor
  · intro pairs' hperm
    have h' : ∀ p ∈ pairs', IsIdPair p := fun p hp => h p (hperm.mem_iff.1 hp)
    rw [rangeList_setCBConfigList, rangeList_setCBConfigList]
    by_cases hnil : pairs = []
    · rw [if_pos hnil, if_pos (by rw [hnil] at hperm; exact hperm.eq_nil)]
    · rw [if_neg hnil, if_neg fun hnil' => hnil (by rw [hnil'] at hperm; exact hperm.nil_eq.symm)]
      refine combineCBRange_congr (ordered_append hordered (ordered_rangeOf h'))
        (ordered_append hordered (ordered_rangeOf h)) ?_
      rw [ids_append, ids_append, ids_congr fun r => (hperm.map rangeOf).mem_iff]
  · rw [rangeList_setCBConfigList]
    by_cases hnil : pairs = []
    · rw [if_pos hnil, hnil]
      rfl
    · rw [if_neg hnil, openAll_spec h hordered hnil]

theorem setCBConfigList_eq_openAll_chain :
    (SmsMiscManager.setCBConfigList ⟨[⟨1, 2⟩, ⟨9, 9⟩], []⟩
      (flattened [(7, 8), (3, 5), (4, 6)]) 1 true).manager.rangeList =
        openAll [(7, 8), (3, 5), (4, 6)] [⟨1, 2⟩, ⟨9, 9⟩] := by
  have hordered : Ordered [⟨1, 2⟩, ⟨9, 9⟩] := by
    rw [Ordered, List.forall_mem_cons, List.forall_mem_singleton]
    decide
  have hpairs : ∀ p ∈ [((7 : Int32), (8 : Int32)), (3, 5), (4, 6)], IsIdPair p := by
    rw [List.forall_mem_cons, List.forall_mem_cons, List.forall_mem_singleton]
    exact ⟨⟨by decide, by decide⟩, ⟨by decide, by decide⟩, by decide, by decide⟩
  exact (setCBConfigList_eq_openAll ⟨[⟨1, 2⟩, ⟨9, 9⟩], []⟩ hordered _ hpairs).2

end ListCalls

end TelephonySms.Broadcast
