import Mathlib.Algebra.Group.Int.Defs
import Mathlib.Algebra.GroupWithZero.Nat
import Mathlib.Data.List.Sort
import Mathlib.Data.Set.BooleanAlgebra
import Mathlib.Order.CompletePartialOrder
import Mathlib.Order.Interval.Set.Basic

/-! # Lists of cell broadcast channels

`SmsMiscManager` keeps the enabled message ids as a list of ranges. `CombineCBRange`
sorts it and merges what overlaps or touches, `OpenCBRange` adds a range and
`CloseCBRange` takes one out. A list call may bring in a range whose bounds are the
wrong way round; it holds no id, and the lemmas on the ids hold for such lists too.
-/

namespace TelephonySms.Broadcast

structure RangeInfo where
  fromMsgId : UInt32
  toMsgId : UInt32
deriving DecidableEq, Repr

namespace RangeInfo

/-- `operator<`. -/
def lt (r s : RangeInfo) : Prop :=
  r.fromMsgId < s.fromMsgId ∨ r.fromMsgId = s.fromMsgId ∧ r.toMsgId < s.toMsgId

instance (r s : RangeInfo) : Decidable (r.lt s) :=
  inferInstanceAs (Decidable (_ ∨ _ ∧ _))

/-- The order `std::list::sort` sorts by. -/
def le (r s : RangeInfo) : Prop := ¬ s.lt r

instance : DecidableRel RangeInfo.le := fun r s => inferInstanceAs (Decidable (¬ s.lt r))

theorem le_iff {r s : RangeInfo} :
    r.le s ↔ r.fromMsgId.toNat < s.fromMsgId.toNat ∨
      r.fromMsgId.toNat = s.fromMsgId.toNat ∧ r.toMsgId.toNat ≤ s.toMsgId.toNat := by
  simp only [le, lt, UInt32.lt_iff_toNat_lt, ← UInt32.toNat_inj]
  omega

instance : Std.Total RangeInfo.le where
  total r s := by
    simp only [le_iff]
    omega

instance : IsTrans RangeInfo RangeInfo.le where
  trans r s t := by
    simp only [le_iff]
    omega

/-- The message ids of a range. -/
def ids (r : RangeInfo) : Set Nat := Set.Icc r.fromMsgId.toNat r.toMsgId.toNat

end RangeInfo

/-- The message ids a list of ranges denotes. -/
def ids (ranges : List RangeInfo) : Set Nat := {n | ∃ r ∈ ranges, n ∈ r.ids}

/-! ## The operations -/

/-- `std::list::unique`. -/
def unique : List RangeInfo → List RangeInfo
  | [] => []
  | [r] => [r]
  | r :: s :: ranges => if r = s then unique (s :: ranges) else r :: unique (s :: ranges)

/-- The inner loop of `CombineCBRange`: whether `iter` is to be erased, `iter` with what
it took in, and what is left behind it. -/
def absorb : RangeInfo → List RangeInfo → Bool × RangeInfo × List RangeInfo
  | iter, [] => (false, iter, [])
  | iter, other :: others =>
      if other.fromMsgId = iter.fromMsgId then (true, iter, other :: others)
      else if other.toMsgId ≤ iter.toMsgId then absorb iter others
      else if other.fromMsgId ≤ iter.toMsgId + 1 then
        absorb { iter with toMsgId := other.toMsgId } others
      else
        let (eraseFlag, iter, rest) := absorb iter others
        (eraseFlag, iter, other :: rest)

/-- The outer loop; each round drops at least one element, so the length is fuel enough. -/
def combineLoop : Nat → List RangeInfo → List RangeInfo
  | 0, ranges => ranges
  | _ + 1, [] => []
  | n + 1, iter :: others =>
      let (eraseFlag, iter, rest) := absorb iter others
      if eraseFlag then combineLoop n rest else iter :: combineLoop n rest

def combineCBRange (ranges : List RangeInfo) : List RangeInfo :=
  let sorted := unique (ranges.insertionSort RangeInfo.le)
  combineLoop sorted.length sorted

def openCBRange (fromMsgId toMsgId : UInt32) (rangeList : List RangeInfo) : List RangeInfo :=
  combineCBRange (rangeList ++ [⟨fromMsgId, toMsgId⟩])

/-- What the loop of `CloseCBRange` puts in the place of one range, at the end of the
list; `none` when it leaves the range where it is. -/
def closeRange (fromMsgId toMsgId : UInt32) (info : RangeInfo) : Option (List RangeInfo) :=
  if fromMsgId = info.fromMsgId ∧ toMsgId = info.toMsgId then some []
  else if fromMsgId = info.fromMsgId ∧ toMsgId > info.toMsgId then some []
  else if fromMsgId = info.fromMsgId ∧ toMsgId < info.toMsgId then
    some [⟨toMsgId + 1, info.toMsgId⟩]
  else if fromMsgId < info.fromMsgId ∧ toMsgId = info.toMsgId then some []
  else if fromMsgId > info.fromMsgId ∧ toMsgId = info.toMsgId then
    some [⟨info.fromMsgId, fromMsgId - 1⟩]
  else if fromMsgId > info.fromMsgId ∧ toMsgId < info.toMsgId then
    -- `SplitMsgId`
    if fromMsgId = UInt32.ofNat (2 ^ 32 - 1) ∨ fromMsgId < 1 then none
    else some [⟨info.fromMsgId, fromMsgId - 1⟩, ⟨toMsgId + 1, info.toMsgId⟩]
  else if fromMsgId > info.fromMsgId ∧ fromMsgId ≤ info.toMsgId then
    some [⟨info.fromMsgId, fromMsgId - 1⟩]
  else if fromMsgId < info.fromMsgId ∧ toMsgId > info.toMsgId then some []
  else if toMsgId < info.toMsgId ∧ toMsgId ≥ info.fromMsgId then
    some [⟨toMsgId + 1, info.toMsgId⟩]
  else none

/-- The loop of `CloseCBRange` over `left`, with `passed` behind it. What is put at the
end of the list is visited too, but not when the last range is being replaced: the
iterator is at the end by then. -/
def closeLoop (fromMsgId toMsgId : UInt32) :
    Nat → List RangeInfo → List RangeInfo → List RangeInfo
  | 0, passed, left => passed ++ left
  | _ + 1, passed, [] => passed
  | n + 1, passed, info :: left =>
      match closeRange fromMsgId toMsgId info with
      | none => closeLoop fromMsgId toMsgId n (passed ++ [info]) left
      | some pieces =>
          if left.isEmpty then passed ++ pieces
          else closeLoop fromMsgId toMsgId n passed (left ++ pieces)

/-- `none` is the return value `false`. A range leaves two pieces at most, and these are
passed over, so three rounds for each range are enough. -/
def closeCBRange (fromMsgId toMsgId : UInt32) (rangeList : List RangeInfo) :
    Option (List RangeInfo) :=
  if fromMsgId = UInt32.ofNat (2 ^ 32 - 1) ∨ fromMsgId < 1 then none
  else
    some (combineCBRange
      (closeLoop fromMsgId toMsgId (3 * rangeList.length) [] rangeList))

/-! ## The ids of a list -/

@[simp] theorem ids_nil : ids [] = ∅ := by
  simp [ids]

@[simp] theorem ids_cons (r : RangeInfo) (ranges : List RangeInfo) :
    ids (r :: ranges) = r.ids ∪ ids ranges := by
  ext n
  simp [ids]

@[simp] theorem ids_append (ranges more : List RangeInfo) :
    ids (ranges ++ more) = ids ranges ∪ ids more := by
  ext n
  simp [ids, or_and_right, exists_or]

theorem ids_congr {ranges more : List RangeInfo} (h : ∀ r, r ∈ ranges ↔ r ∈ more) :
    ids ranges = ids more := by
  simp only [ids, h]

theorem mem_ids_range {r : RangeInfo} {n : Nat} :
    n ∈ r.ids ↔ r.fromMsgId.toNat ≤ n ∧ n ≤ r.toMsgId.toNat := Iff.rfl

/-! ## Combining -/

theorem mem_unique {r : RangeInfo} {ranges : List RangeInfo} :
    r ∈ unique ranges ↔ r ∈ ranges := by
  fun_induction unique ranges with
  | case1 => rfl
  | case2 s => rfl
  | case3 s ranges ih =>
      rw [ih]
      simp
  | case4 s t ranges hne ih =>
      rw [List.mem_cons, ih, ← List.mem_cons]

theorem unique_sublist (ranges : List RangeInfo) : (unique ranges).Sublist ranges := by
  fun_induction unique ranges with
  | case1 => exact List.Sublist.refl _
  | case2 s => exact List.Sublist.refl _
  | case3 s ranges ih => exact ih.cons _
  | case4 s t ranges hne ih => exact ih.cons_cons _

/-- What the rest of a list that `iter` was sorted before becomes: ranges that start
after the end of `iter`, with a gap. -/
def Behind (r s : RangeInfo) : Prop := r.toMsgId.toNat + 1 < s.fromMsgId.toNat

theorem absorb_sublist (iter : RangeInfo) (others : List RangeInfo) :
    (absorb iter others).2.2.Sublist others := by
  fun_induction absorb iter others with
  | case1 iter => exact List.Sublist.refl _
  | case2 iter other others hfrom => exact List.Sublist.refl _
  | case3 iter other others hfrom hto ih => exact ih.cons _
  | case4 iter other others hfrom hto hmeet ih => exact ih.cons _
  | case5 iter other others hfrom hto hmeet eraseFlag iter' rest habsorb ih =>
      rw [habsorb] at ih
      exact ih.cons_cons _

theorem toNat_add_one_of_lt {a b : UInt32} (h : a < b) : (a + 1).toNat = a.toNat + 1 := by
  have hlt := UInt32.lt_iff_toNat_lt.1 h
  have hb := b.toNat_lt
  rw [UInt32.toNat_add]
  exact Nat.mod_eq_of_lt (by simp; omega)

theorem toNat_sub_one_of_lt {a b : UInt32} (h : a < b) : (b - 1).toNat = b.toNat - 1 := by
  have hlt := UInt32.lt_iff_toNat_lt.1 h
  exact UInt32.toNat_sub_of_le _ _ (UInt32.le_iff_toNat_le.2 (by simp; omega))

/-- Ranges behind `iter` leave it as it is. -/
theorem absorb_of_behind {iter : RangeInfo} {others : List RangeInfo}
    (hfrom : ∀ o ∈ others, iter.fromMsgId.toNat < o.fromMsgId.toNat)
    (hbehind : ∀ o ∈ others, Behind iter o) :
    (absorb iter others).1 = false ∧ (absorb iter others).2.1 = iter := by
  induction others with
  | nil => exact ⟨rfl, rfl⟩
  | cons other others ih =>
      have hrest := ih (fun o ho => hfrom o (by simp [ho])) fun o ho => hbehind o (by simp [ho])
      have hne : other.fromMsgId ≠ iter.fromMsgId := by
        intro heq
        have hlt := hfrom other (by simp)
        rw [heq] at hlt
        omega
      rw [absorb, if_neg hne]
      split
      · exact hrest
      · rename_i hto
        have hmeet : ¬ other.fromMsgId ≤ iter.toMsgId + 1 := by
          have hgap := hbehind other (by simp)
          unfold Behind at hgap
          rw [UInt32.le_iff_toNat_le, toNat_add_one_of_lt (UInt32.not_le.1 hto)]
          omega
        rw [if_neg hmeet]
        exact hrest

/-- What one pass of the inner loop makes of a sorted list. -/
structure Absorbed (iter : RangeInfo) (others : List RangeInfo)
    (result : Bool × RangeInfo × List RangeInfo) : Prop where
  start : result.2.1.fromMsgId = iter.fromMsgId
  stop : ∃ b ∈ iter :: others, result.2.1.toMsgId = b.toMsgId
  grows : iter.toMsgId ≤ result.2.1.toMsgId
  erased : result.1 = true → ids result.2.2 = ids (iter :: others)
  kept : result.1 = false → ids (result.2.1 :: result.2.2) = ids (iter :: others)
  behind : result.1 = false → ∀ o ∈ result.2.2, Behind result.2.1 o

theorem absorbed_absorb {iter : RangeInfo} {others : List RangeInfo}
    (hsorted : (iter :: others).Pairwise RangeInfo.le) :
    Absorbed iter others (absorb iter others) := by
  fun_induction absorb iter others with
  | case1 iter => constructor <;> simp
  | case2 iter other others hfrom =>
      have hle := RangeInfo.le_iff.1 (List.rel_of_pairwise_cons hsorted (List.mem_cons_self ..))
      have hids : iter.ids ∪ other.ids = other.ids := by
        refine Set.union_eq_self_of_subset_left fun n hn => ?_
        rw [mem_ids_range] at hn ⊢
        rw [hfrom] at hle ⊢
        omega
      refine ⟨rfl, ⟨iter, by simp⟩, UInt32.le_refl _, fun _ => ?_, by simp, by simp⟩
      rw [ids_cons, ids_cons, ids_cons, ← Set.union_assoc, hids]
  | case3 iter other others hfrom hto ih =>
      have hle := RangeInfo.le_iff.1 (List.rel_of_pairwise_cons hsorted (List.mem_cons_self ..))
      have hids : iter.ids ∪ other.ids = iter.ids := by
        refine Set.union_eq_self_of_subset_right fun n hn => ?_
        rw [mem_ids_range] at hn ⊢
        rw [UInt32.le_iff_toNat_le] at hto
        omega
      have hall : ids (iter :: other :: others) = ids (iter :: others) := by
        rw [ids_cons, ids_cons, ids_cons, ← Set.union_assoc, hids]
      have hrest := ih (hsorted.sublist ((List.sublist_cons_self ..).cons_cons _))
      obtain ⟨b, hb, hstop⟩ := hrest.stop
      refine ⟨hrest.start, ⟨b, by simp at hb ⊢; tauto, hstop⟩, hrest.grows, ?_, ?_, hrest.behind⟩
      · rw [hall]
        exact hrest.erased
      · rw [hall]
        exact hrest.kept
  | case4 iter other others hfrom hto hmeet ih =>
      have hlt := UInt32.not_le.1 hto
      have hle := RangeInfo.le_iff.1 (List.rel_of_pairwise_cons hsorted (List.mem_cons_self ..))
      rw [UInt32.le_iff_toNat_le, toNat_add_one_of_lt hlt] at hmeet
      rw [← UInt32.toNat_inj] at hfrom
      have hids : ({ iter with toMsgId := other.toMsgId } : RangeInfo).ids =
          iter.ids ∪ other.ids := by
        ext n
        rw [Set.mem_union, mem_ids_range, mem_ids_range, mem_ids_range]
        have := UInt32.lt_iff_toNat_lt.1 hlt
        dsimp only
        omega
      have hall : ids (iter :: other :: others) =
          ids ({ iter with toMsgId := other.toMsgId } :: others) := by
        rw [ids_cons, ids_cons, ids_cons, hids, Set.union_assoc]
      have hlater : ({ iter with toMsgId := other.toMsgId } :: others).Pairwise
          RangeInfo.le := by
        obtain ⟨hiter, hothers⟩ := List.pairwise_cons.1 hsorted
        obtain ⟨hother, hrest⟩ := List.pairwise_cons.1 hothers
        refine List.pairwise_cons.2 ⟨fun o ho => ?_, hrest⟩
        have := RangeInfo.le_iff.1 (hother o ho)
        rw [RangeInfo.le_iff]
        dsimp only
        omega
      have hrest := ih hlater
      obtain ⟨b, hb, hstop⟩ := hrest.stop
      refine ⟨hrest.start, ?_, UInt32.le_trans (UInt32.le_of_lt hlt) hrest.grows, ?_, ?_,
        hrest.behind⟩
      · cases List.mem_cons.1 hb with
        | inl hb => exact ⟨other, by simp, by rw [hstop, hb]⟩
        | inr hb => exact ⟨b, by simp [hb], hstop⟩
      · rw [hall]
        exact hrest.erased
      · rw [hall]
        exact hrest.kept
  | case5 iter other others hfrom hto hmeet eraseFlag iter' rest habsorb ih =>
      obtain ⟨hiter, hothers⟩ := List.pairwise_cons.1 hsorted
      have hgap : Behind iter other := by
        rw [UInt32.le_iff_toNat_le, toNat_add_one_of_lt (UInt32.not_le.1 hto)] at hmeet
        unfold Behind
        omega
      -- Everything later starts at `other` or after it, so `iter` grows no more.
      have hlater : ∀ o ∈ others, other.fromMsgId.toNat ≤ o.fromMsgId.toNat := by
        intro o ho
        have := RangeInfo.le_iff.1 (List.rel_of_pairwise_cons hothers ho)
        omega
      have hstart : iter.fromMsgId.toNat < other.fromMsgId.toNat := by
        have := RangeInfo.le_iff.1 (hiter other (by simp))
        rw [← UInt32.toNat_inj] at hfrom
        omega
      have hsame := absorb_of_behind (fun o ho => Nat.lt_of_lt_of_le hstart (hlater o ho))
        fun o ho => Nat.lt_of_lt_of_le hgap (hlater o ho)
      rw [habsorb] at hsame
      obtain ⟨rfl, rfl⟩ := hsame
      have hrest := ih (hsorted.sublist ((List.sublist_cons_self ..).cons_cons _))
      rw [habsorb] at hrest
      refine ⟨rfl, ⟨iter', by simp⟩, UInt32.le_refl _, by simp, fun _ => ?_, fun _ => ?_⟩
      · have hkept := hrest.kept rfl
        simp only [ids_cons] at hkept ⊢
        rw [Set.union_left_comm, hkept, Set.union_left_comm]
      · rw [List.forall_mem_cons]
        exact ⟨hgap, hrest.behind rfl⟩

/-- What merging a sorted list yields: the same ids in ranges with gaps between them,
whose bounds are bounds of the list. -/
structure Combined (ranges result : List RangeInfo) : Prop where
  gaps : result.Pairwise Behind
  same : ids result = ids ranges
  bounds : ∀ r ∈ result, ∃ a ∈ ranges, ∃ b ∈ ranges,
    r.fromMsgId = a.fromMsgId ∧ r.toMsgId = b.toMsgId ∧ a.toMsgId ≤ r.toMsgId

theorem combined_combineLoop {n : Nat} {ranges : List RangeInfo}
    (hsorted : ranges.Pairwise RangeInfo.le) (hn : ranges.length ≤ n) :
    Combined ranges (combineLoop n ranges) := by
  induction n generalizing ranges with
  | zero =>
      rw [List.length_eq_zero_iff.1 (Nat.le_zero.1 hn)]
      constructor <;> simp [combineLoop]
  | succ n ih =>
      cases ranges with
      | nil => constructor <;> simp [combineLoop]
      | cons iter others =>
          have habsorbed := absorbed_absorb hsorted
          have hsub := absorb_sublist iter others
          have hlength : (absorb iter others).2.2.length ≤ n :=
            Nat.le_trans hsub.length_le (Nat.le_of_succ_le_succ hn)
          have hrest := ih ((List.pairwise_cons.1 hsorted).2.sublist hsub) hlength
          have hbounds : ∀ r ∈ combineLoop n (absorb iter others).2.2,
              ∃ a ∈ (absorb iter others).2.2, ∃ b ∈ iter :: others,
                r.fromMsgId = a.fromMsgId ∧ r.toMsgId = b.toMsgId ∧ a.toMsgId ≤ r.toMsgId := by
            intro r hr
            obtain ⟨a, ha, b, hb, hr⟩ := hrest.bounds r hr
            exact ⟨a, ha, b, List.mem_cons_of_mem _ (hsub.subset hb), hr⟩
          have hmore : ∀ r ∈ combineLoop n (absorb iter others).2.2,
              ∃ a ∈ iter :: others, ∃ b ∈ iter :: others,
                r.fromMsgId = a.fromMsgId ∧ r.toMsgId = b.toMsgId ∧ a.toMsgId ≤ r.toMsgId := by
            intro r hr
            obtain ⟨a, ha, hr⟩ := hbounds r hr
            exact ⟨a, List.mem_cons_of_mem _ (hsub.subset ha), hr⟩
          rw [combineLoop]
          cases herase : (absorb iter others).1 with
          | true =>
              simp only [herase, if_true]
              exact ⟨hrest.gaps, hrest.same.trans (habsorbed.erased herase), hmore⟩
          | false =>
              simp only [herase, Bool.false_eq_true, if_false]
              refine ⟨List.pairwise_cons.2 ⟨?_, hrest.gaps⟩, ?_, ?_⟩
              · intro r hr
                obtain ⟨a, ha, -, -, hfrom, -⟩ := hbounds r hr
                have := habsorbed.behind herase a ha
                unfold Behind at this ⊢
                rw [hfrom]
                exact this
              · rw [← habsorbed.kept herase, ids_cons, ids_cons, hrest.same]
              · rw [List.forall_mem_cons]
                obtain ⟨b, hb, hstop⟩ := habsorbed.stop
                exact ⟨⟨iter, by simp, b, hb, habsorbed.start, hstop, habsorbed.grows⟩, hmore⟩

theorem combined_combineCBRange (ranges : List RangeInfo) :
    Combined ranges (combineCBRange ranges) := by
  have hmem : ∀ r, r ∈ unique (ranges.insertionSort RangeInfo.le) ↔ r ∈ ranges := by
    intro r
    rw [mem_unique, List.mem_insertionSort]
  have hsorted := (List.pairwise_insertionSort RangeInfo.le ranges).sublist (unique_sublist _)
  have h := combined_combineLoop hsorted (Nat.le_refl _)
  refine ⟨h.gaps, h.same.trans (ids_congr hmem), ?_⟩
  intro r hr
  obtain ⟨a, ha, b, hb, hr⟩ := h.bounds r hr
  exact ⟨a, (hmem a).1 ha, b, (hmem b).1 hb, hr⟩

theorem absorb_erase_ne_nil {iter : RangeInfo} {others : List RangeInfo}
    (h : (absorb iter others).1 = true) : (absorb iter others).2.2 ≠ [] := by
  fun_induction absorb iter others with
  | case1 iter => simp at h
  | case2 iter other others hfrom => simp
  | case3 iter other others hfrom hto ih => exact ih h
  | case4 iter other others hfrom hto hmeet ih => exact ih h
  | case5 iter other others hfrom hto hmeet eraseFlag iter' rest habsorb ih => simp

theorem combineLoop_ne_nil {n : Nat} {ranges : List RangeInfo} (h : ranges ≠ []) :
    combineLoop n ranges ≠ [] := by
  induction n generalizing ranges with
  | zero => exact h
  | succ n ih =>
      cases ranges with
      | nil => exact absurd rfl h
      | cons iter others =>
          rw [combineLoop]
          cases herase : (absorb iter others).1 with
          | true =>
              simp only [herase, if_true]
              exact ih (absorb_erase_ne_nil herase)
          | false => simp [herase]

theorem combineCBRange_ne_nil {ranges : List RangeInfo} (h : ranges ≠ []) :
    combineCBRange ranges ≠ [] := by
  obtain ⟨r, hr⟩ := List.exists_mem_of_ne_nil _ h
  have hmem : r ∈ unique (ranges.insertionSort RangeInfo.le) :=
    mem_unique.2 ((List.mem_insertionSort RangeInfo.le).2 hr)
  exact combineLoop_ne_nil (List.ne_nil_of_mem hmem)

/-! ## Closing -/

section Closing

variable {fromMsgId toMsgId : UInt32}

/-- The range lies on one side of the closed ids. -/
def Apart (fromMsgId toMsgId : UInt32) (info : RangeInfo) : Prop :=
  info.fromMsgId < fromMsgId ∧ info.toMsgId < fromMsgId ∨
    toMsgId < info.fromMsgId ∧ toMsgId < info.toMsgId

instance (info : RangeInfo) : Decidable (Apart fromMsgId toMsgId info) :=
  inferInstanceAs (Decidable (_ ∧ _ ∨ _ ∧ _))

/-- What is left of a range on the two sides of the closed ids. -/
def around (fromMsgId toMsgId : UInt32) (info : RangeInfo) : List RangeInfo :=
  (if info.fromMsgId < fromMsgId then [⟨info.fromMsgId, fromMsgId - 1⟩] else []) ++
    if toMsgId < info.toMsgId then [⟨toMsgId + 1, info.toMsgId⟩] else []

/-- What stands for a range after the loop. -/
def closed (fromMsgId toMsgId : UInt32) (info : RangeInfo) : List RangeInfo :=
  if Apart fromMsgId toMsgId info then [info] else around fromMsgId toMsgId info

theorem closeRange_eq (hle : fromMsgId ≤ toMsgId)
    (hf : ¬ (fromMsgId = UInt32.ofNat (2 ^ 32 - 1) ∨ fromMsgId < 1)) (info : RangeInfo) :
    closeRange fromMsgId toMsgId info =
      if Apart fromMsgId toMsgId info then none
      else some (around fromMsgId toMsgId info) := by
  rcases info with ⟨a, b⟩
  by_cases hapart : Apart fromMsgId toMsgId ⟨a, b⟩
  · rw [if_pos hapart]
    simp only [closeRange, Apart, GT.gt, GE.ge, UInt32.le_iff_toNat_le, UInt32.lt_iff_toNat_lt,
      ← UInt32.toNat_inj] at hle hapart ⊢
    iterate 9 rw [if_neg (by omega)]
  rw [if_neg hapart]
  simp only [closeRange, around, Apart, GT.gt, GE.ge, UInt32.le_iff_toNat_le,
    UInt32.lt_iff_toNat_lt, ← UInt32.toNat_inj] at hle hf hapart ⊢
  by_cases hlow : a.toNat < fromMsgId.toNat
  · rw [if_pos hlow]
    by_cases hhigh : toMsgId.toNat < b.toNat
    · iterate 5 rw [if_neg (by omega)]
      rw [if_pos (by omega), if_neg hf, if_pos hhigh]
      rfl
    · rw [if_neg hhigh]
      by_cases hend : toMsgId.toNat = b.toNat
      · iterate 4 rw [if_neg (by omega)]
        rw [if_pos (by omega)]
        rfl
      · iterate 6 rw [if_neg (by omega)]
        rw [if_pos (by omega)]
        rfl
  · rw [if_neg hlow]
    by_cases hhigh : toMsgId.toNat < b.toNat
    · rw [if_pos hhigh]
      by_cases hstart : fromMsgId.toNat = a.toNat
      · iterate 2 rw [if_neg (by omega)]
        rw [if_pos (by omega)]
        rfl
      · iterate 8 rw [if_neg (by omega)]
        rw [if_pos (by omega)]
        rfl
    · rw [if_neg hhigh]
      by_cases hstart : fromMsgId.toNat = a.toNat
      · by_cases hend : toMsgId.toNat = b.toNat
        · rw [if_pos ⟨hstart, hend⟩]
          rfl
        · rw [if_neg (by omega), if_pos (by omega)]
          rfl
      · by_cases hend : toMsgId.toNat = b.toNat
        · iterate 3 rw [if_neg (by omega)]
          rw [if_pos (by omega)]
          rfl
        · iterate 7 rw [if_neg (by omega)]
          rw [if_pos (by omega)]
          rfl
theorem mem_around {info p : RangeInfo} :
    p ∈ around fromMsgId toMsgId info ↔
      info.fromMsgId < fromMsgId ∧ p = ⟨info.fromMsgId, fromMsgId - 1⟩ ∨
        toMsgId < info.toMsgId ∧ p = ⟨toMsgId + 1, info.toMsgId⟩ := by
  simp [around, List.mem_ite_nil_right]

theorem length_around_le (info : RangeInfo) :
    (around fromMsgId toMsgId info).length ≤ 2 := by
  unfold around
  split <;> split <;> simp

theorem apart_of_mem_around {info p : RangeInfo} (hp : p ∈ around fromMsgId toMsgId info) :
    Apart fromMsgId toMsgId p := by
  unfold Apart
  simp only [UInt32.lt_iff_toNat_lt]
  cases mem_around.1 hp with
  | inl h =>
      obtain ⟨hlt, rfl⟩ := h
      rw [toNat_sub_one_of_lt hlt]
      have := UInt32.lt_iff_toNat_lt.1 hlt
      dsimp only
      omega
  | inr h =>
      obtain ⟨hlt, rfl⟩ := h
      rw [toNat_add_one_of_lt hlt]
      have := UInt32.lt_iff_toNat_lt.1 hlt
      dsimp only
      omega

theorem mem_ids_around {info : RangeInfo} {n : Nat} :
    n ∈ ids (around fromMsgId toMsgId info) ↔
      info.fromMsgId.toNat ≤ n ∧ n < fromMsgId.toNat ∨
        toMsgId.toNat < n ∧ n ≤ info.toMsgId.toNat := by
  constructor
  · rintro ⟨p, hp, hn⟩
    rw [mem_ids_range] at hn
    cases mem_around.1 hp with
    | inl h =>
        obtain ⟨hlt, rfl⟩ := h
        rw [toNat_sub_one_of_lt hlt] at hn
        have := UInt32.lt_iff_toNat_lt.1 hlt
        dsimp only at hn
        omega
    | inr h =>
        obtain ⟨hlt, rfl⟩ := h
        rw [toNat_add_one_of_lt hlt] at hn
        dsimp only at hn
        omega
  · intro h
    cases h with
    | inl h =>
        have hlt : info.fromMsgId < fromMsgId := UInt32.lt_iff_toNat_lt.2 (by omega)
        refine ⟨_, mem_around.2 (.inl ⟨hlt, rfl⟩), h.1, ?_⟩
        rw [toNat_sub_one_of_lt hlt]
        omega
    | inr h =>
        have hlt : toMsgId < info.toMsgId := UInt32.lt_iff_toNat_lt.2 (by omega)
        refine ⟨_, mem_around.2 (.inr ⟨hlt, rfl⟩), ?_, h.2⟩
        rw [toNat_add_one_of_lt hlt]
        omega

theorem ids_closed (info : RangeInfo) :
    ids (closed fromMsgId toMsgId info) =
      info.ids \ Set.Icc fromMsgId.toNat toMsgId.toNat := by
  ext n
  unfold closed
  split
  · rename_i hapart
    simp only [Apart, UInt32.lt_iff_toNat_lt] at hapart
    simp only [ids_cons, ids_nil, Set.union_empty, Set.mem_sdiff, mem_ids_range, Set.mem_Icc]
    omega
  · rename_i hmeets
    simp only [Apart, UInt32.lt_iff_toNat_lt] at hmeets
    rw [mem_ids_around, Set.mem_sdiff, mem_ids_range, Set.mem_Icc]
    omega

theorem ids_flatMap_closed (ranges : List RangeInfo) :
    ids (ranges.flatMap (closed fromMsgId toMsgId)) =
      ids ranges \ Set.Icc fromMsgId.toNat toMsgId.toNat := by
  induction ranges with
  | nil => simp
  | cons info ranges ih =>
      rw [List.flatMap_cons, ids_append, ids_closed, ih, ids_cons, Set.union_sdiff_distrib]

/-- The rounds the loop needs for what is left. -/
def rounds (fromMsgId toMsgId : UInt32) (left : List RangeInfo) : Nat :=
  (left.map fun info =>
    if Apart fromMsgId toMsgId info then 1
    else 1 + (around fromMsgId toMsgId info).length).sum

theorem rounds_of_apart {left : List RangeInfo} (h : ∀ p ∈ left, Apart fromMsgId toMsgId p) :
    rounds fromMsgId toMsgId left = left.length := by
  induction left with
  | nil => rfl
  | cons info left ih =>
      have hrest := ih fun p hp => h p (by simp [hp])
      unfold rounds at hrest ⊢
      rw [List.map_cons, List.sum_cons, if_pos (h info (by simp)), hrest, List.length_cons]
      omega

theorem rounds_le (left : List RangeInfo) :
    rounds fromMsgId toMsgId left ≤ 3 * left.length := by
  induction left with
  | nil => exact Nat.le_refl _
  | cons info left ih =>
      have hlength : (around fromMsgId toMsgId info).length ≤ 2 := length_around_le info
      unfold rounds at ih ⊢
      rw [List.map_cons, List.sum_cons, List.length_cons]
      split <;> omega

theorem flatMap_closed_of_apart {ranges : List RangeInfo}
    (h : ∀ p ∈ ranges, Apart fromMsgId toMsgId p) :
    ranges.flatMap (closed fromMsgId toMsgId) = ranges := by
  induction ranges with
  | nil => rfl
  | cons info ranges ih =>
      rw [List.flatMap_cons, ih fun p hp => h p (by simp [hp]), closed, if_pos (h info (by simp))]
      rfl

/-- The loop replaces every range that meets the closed ids by what is left of it, and
what it puts at the end of the list it passes over. -/
theorem closeLoop_perm (hle : fromMsgId ≤ toMsgId)
    (hf : ¬ (fromMsgId = UInt32.ofNat (2 ^ 32 - 1) ∨ fromMsgId < 1)) {n : Nat}
    {passed left : List RangeInfo} (hn : rounds fromMsgId toMsgId left ≤ n) :
    (closeLoop fromMsgId toMsgId n passed left).Perm
      (passed ++ left.flatMap (closed fromMsgId toMsgId)) := by
  induction n generalizing passed left with
  | zero =>
      cases left with
      | nil => simp [closeLoop]
      | cons info left =>
          rw [rounds, List.map_cons, List.sum_cons] at hn
          split at hn <;> omega
  | succ n ih =>
      cases left with
      | nil => simp [closeLoop]
      | cons info left =>
          rw [closeLoop, closeRange_eq hle hf, List.flatMap_cons, closed]
          rw [rounds, List.map_cons, List.sum_cons, ← rounds] at hn
          by_cases hapart : Apart fromMsgId toMsgId info
          · rw [if_pos hapart] at hn
            simp only [if_pos hapart]
            have hrest := @ih (passed ++ [info]) left (by omega)
            rwa [List.append_assoc] at hrest
          · rw [if_neg hapart] at hn
            simp only [if_neg hapart]
            cases left with
            | nil => simp
            | cons next left =>
                have hnew : rounds fromMsgId toMsgId (around fromMsgId toMsgId info) =
                    (around fromMsgId toMsgId info).length :=
                  rounds_of_apart fun p hp => apart_of_mem_around hp
                have hmore : rounds fromMsgId toMsgId
                    (next :: left ++ around fromMsgId toMsgId info) ≤ n := by
                  rw [rounds, List.map_append, List.sum_append, ← rounds, ← rounds, hnew]
                  omega
                refine (ih hmore).trans (List.Perm.append_left passed ?_)
                rw [List.flatMap_append,
                  flatMap_closed_of_apart fun p hp => apart_of_mem_around hp]
                exact List.perm_append_comm

end Closing

/-! ## Normal lists -/

def rangMax : Nat := 65535

/-- The bounds are the right way round and the ids exist. -/
def RangeInfo.InBounds (r : RangeInfo) : Prop :=
  r.fromMsgId ≤ r.toMsgId ∧ r.toMsgId.toNat ≤ rangMax

/-- Sorted, with a gap between neighbours, and every range in bounds. -/
structure Normal (rangeList : List RangeInfo) : Prop where
  gaps : rangeList.Pairwise Behind
  inBounds : ∀ r ∈ rangeList, r.InBounds

theorem Normal.nil : Normal [] := by
  constructor <;> simp

theorem normal_combineCBRange {ranges : List RangeInfo} (h : ∀ r ∈ ranges, r.InBounds) :
    Normal (combineCBRange ranges) := by
  have hcombined := combined_combineCBRange ranges
  refine ⟨hcombined.gaps, fun r hr => ?_⟩
  obtain ⟨a, ha, b, hb, hfrom, hto, hgrows⟩ := hcombined.bounds r hr
  constructor
  · rw [hfrom]
    exact UInt32.le_trans (h a ha).1 hgrows
  · rw [hto]
    exact (h b hb).2

section OpenClose

variable {fromMsgId toMsgId : UInt32} {rangeList : List RangeInfo}

theorem ids_openCBRange :
    ids (openCBRange fromMsgId toMsgId rangeList) =
      ids rangeList ∪ Set.Icc fromMsgId.toNat toMsgId.toNat := by
  rw [openCBRange, (combined_combineCBRange _).same, ids_append, ids_cons, ids_nil,
    Set.union_empty]
  rfl

theorem normal_openCBRange (hle : fromMsgId ≤ toMsgId) (hmax : toMsgId.toNat ≤ rangMax)
    (h : Normal rangeList) : Normal (openCBRange fromMsgId toMsgId rangeList) := by
  refine normal_combineCBRange fun r hr => ?_
  cases List.mem_append.1 hr with
  | inl hold => exact h.inBounds r hold
  | inr hnew =>
      rw [List.mem_singleton.1 hnew]
      exact ⟨hle, hmax⟩

theorem inBounds_of_mem_closed {info p : RangeInfo} (hinfo : info.InBounds)
    (hp : p ∈ closed fromMsgId toMsgId info) : p.InBounds := by
  unfold closed at hp
  split at hp
  · rw [List.mem_singleton.1 hp]
    exact hinfo
  · rename_i hmeets
    unfold RangeInfo.InBounds at hinfo ⊢
    simp only [Apart, UInt32.lt_iff_toNat_lt] at hmeets
    simp only [UInt32.le_iff_toNat_le] at hinfo ⊢
    cases mem_around.1 hp with
    | inl h =>
        obtain ⟨hlt, rfl⟩ := h
        rw [toNat_sub_one_of_lt hlt]
        have := UInt32.lt_iff_toNat_lt.1 hlt
        dsimp only
        omega
    | inr h =>
        obtain ⟨hlt, rfl⟩ := h
        rw [toNat_add_one_of_lt hlt]
        have := UInt32.lt_iff_toNat_lt.1 hlt
        dsimp only
        omega

variable {result : List RangeInfo}

/-- `CloseCBRange` combines a list with the members of the ranges as the loop leaves them. -/
theorem closeCBRange_spec (hle : fromMsgId ≤ toMsgId)
    (hclose : closeCBRange fromMsgId toMsgId rangeList = some result) :
    ∃ left, result = combineCBRange left ∧
      left.Perm (rangeList.flatMap (closed fromMsgId toMsgId)) := by
  unfold closeCBRange at hclose
  split at hclose
  · cases hclose
  · rename_i hf
    cases hclose
    exact ⟨_, rfl, closeLoop_perm hle hf (rounds_le rangeList)⟩

theorem ids_closeCBRange (hle : fromMsgId ≤ toMsgId)
    (hclose : closeCBRange fromMsgId toMsgId rangeList = some result) :
    ids result = ids rangeList \ Set.Icc fromMsgId.toNat toMsgId.toNat := by
  obtain ⟨left, rfl, hperm⟩ := closeCBRange_spec hle hclose
  rw [(combined_combineCBRange left).same, ids_congr fun r => hperm.mem_iff, ids_flatMap_closed]

theorem normal_closeCBRange (hle : fromMsgId ≤ toMsgId) (h : Normal rangeList)
    (hclose : closeCBRange fromMsgId toMsgId rangeList = some result) : Normal result := by
  obtain ⟨left, rfl, hperm⟩ := closeCBRange_spec hle hclose
  refine normal_combineCBRange fun r hr => ?_
  obtain ⟨info, hinfo, hr⟩ := List.mem_flatMap.1 (hperm.mem_iff.1 hr)
  exact inBounds_of_mem_closed (h.inBounds info hinfo) hr

end OpenClose

end TelephonySms.Broadcast
