import Mathlib.Data.List.Dedup
import Mathlib.Data.List.Perm.Basic

/-! # Regrouping a list in place

A loop takes the first element of a list, either on its own or together with the
later elements of the same key, which it removes, and goes on with the rest. Its
output is one entry for each element taken on its own and one for each key.
-/

namespace TelephonySms.Regroup

variable {α β κ : Type*}

/-- No key is shared by an element taken alone and one taken in a group. -/
def Separated (alone : α → Bool) (key : α → κ) (xs : List α) : Prop :=
  ∀ x ∈ xs, ∀ y ∈ xs, key x = key y → alone x = alone y

theorem Separated.sublist {alone : α → Bool} {key : α → κ} {xs ys : List α}
    (h : Separated alone key xs) (hsub : ys.Sublist xs) : Separated alone key ys :=
  fun x hx y hy => h x (hsub.subset hx) y (hsub.subset hy)

variable [DecidableEq κ]

section Peel

variable (alone : α → Bool) (key : α → κ) (emit : α → List α → Option β)

/-- The loop, with a bound on its rounds. -/
def peel : Nat → List α → List β
  | 0, _ => []
  | _ + 1, [] => []
  | n + 1, x :: xs =>
      if alone x then (emit x []).toList ++ peel n xs
      else
        (emit x (xs.filter (key · = key x))).toList ++ peel n (xs.filter (key · ≠ key x))

/-- The loop run to its end. -/
def peelAll (xs : List α) : List β := peel alone key emit xs.length xs

/-- What is emitted for all elements of one key. -/
def emitGroup (xs : List α) (k : κ) : Option β :=
  match xs.filter (key · = k) with
  | [] => none
  | x :: mates => emit x mates

def emitAlone (xs : List α) : List β := (xs.filter alone).filterMap (emit · [])

/-- The keys of the elements that are taken in groups, each once. -/
def groupKeys (xs : List α) : List κ := ((xs.filter (!alone ·)).map key).dedup

def emitGroups (xs : List α) : List β :=
  (groupKeys alone key xs).filterMap (emitGroup key emit xs)

end Peel

variable {alone : α → Bool} {key : α → κ} {emit : α → List α → Option β}

theorem mem_groupKeys {xs : List α} {k : κ} :
    k ∈ groupKeys alone key xs ↔ ∃ x ∈ xs, alone x = false ∧ key x = k := by
  simp [groupKeys, and_assoc]

theorem emitGroup_congr {xs ys : List α} {k : κ}
    (h : xs.filter (key · = k) = ys.filter (key · = k)) :
    emitGroup key emit xs k = emitGroup key emit ys k := by
  simp only [emitGroup, h]

theorem emitGroups_cons_alone {x : α} {xs : List α} (h : Separated alone key (x :: xs))
    (hx : alone x = true) :
    emitGroups alone key emit (x :: xs) = emitGroups alone key emit xs := by
  have hkeys : groupKeys alone key (x :: xs) = groupKeys alone key xs := by
    simp [groupKeys, hx]
  rw [emitGroups, emitGroups, hkeys]
  apply List.filterMap_congr
  intro k hk
  obtain ⟨y, hy, hgroup, rfl⟩ := mem_groupKeys.mp hk
  have hne : key x ≠ key y := by
    intro heq
    have := h x (by simp) y (by simp [hy]) heq
    simp [hx, hgroup] at this
  exact emitGroup_congr (by simp [hne])

theorem groupKeys_cons_perm (key : α → κ) {x : α} (xs : List α) (hx : alone x = false) :
    (groupKeys alone key (x :: xs)).Perm
      (key x :: groupKeys alone key (xs.filter (key · ≠ key x))) := by
  have hnot : key x ∉ groupKeys alone key (xs.filter (key · ≠ key x)) := by
    intro hmem
    obtain ⟨y, hy, -, heq⟩ := mem_groupKeys.mp hmem
    have := (List.mem_filter.mp hy).2
    simp [heq] at this
  apply (List.perm_ext_iff_of_nodup (List.nodup_dedup _)
    (List.nodup_cons.mpr ⟨hnot, List.nodup_dedup _⟩)).mpr
  intro k
  show k ∈ groupKeys alone key (x :: xs) ↔ _
  rw [mem_groupKeys, List.mem_cons, mem_groupKeys]
  constructor
  · rintro ⟨y, hy, hgroup, rfl⟩
    rcases List.mem_cons.mp hy with rfl | hy
    · exact .inl rfl
    · by_cases heq : key y = key x
      · exact .inl heq
      · exact .inr ⟨y, List.mem_filter.mpr ⟨hy, by simpa using heq⟩, hgroup, rfl⟩
  · rintro (rfl | ⟨y, hy, hgroup, rfl⟩)
    · exact ⟨x, by simp, hx, rfl⟩
    · exact ⟨y, by simp [List.mem_of_mem_filter hy], hgroup, rfl⟩

theorem emitGroups_cons_perm {x : α} {xs : List α} (hx : alone x = false) :
    (emitGroups alone key emit (x :: xs)).Perm
      ((emit x (xs.filter (key · = key x))).toList ++
        emitGroups alone key emit (xs.filter (key · ≠ key x))) := by
  have hhead : emitGroup key emit (x :: xs) (key x) = emit x (xs.filter (key · = key x)) := by
    simp [emitGroup]
  have htail : (groupKeys alone key (xs.filter (key · ≠ key x))).filterMap
      (emitGroup key emit (x :: xs)) =
        emitGroups alone key emit (xs.filter (key · ≠ key x)) := by
    apply List.filterMap_congr
    intro k hk
    obtain ⟨y, hy, -, rfl⟩ := mem_groupKeys.mp hk
    have hne : key y ≠ key x := by simpa using (List.mem_filter.mp hy).2
    apply emitGroup_congr
    rw [List.filter_cons_of_neg (by simpa using Ne.symm hne), List.filter_filter]
    apply List.filter_congr
    intro z _
    by_cases hz : key z = key y
    · simp [hz, hne]
    · simp [hz]
  have hperm := (groupKeys_cons_perm key xs hx).filterMap
    (emitGroup key emit (x :: xs))
  rw [List.filterMap_cons, hhead, htail] at hperm
  cases hemit : emit x (xs.filter (key · = key x)) with
  | none => simpa [emitGroups, hemit] using hperm
  | some b => simpa [emitGroups, hemit] using hperm

/-- The loop emits one entry for each element on its own and one for each key. -/
theorem peel_perm {n : Nat} {xs : List α} (hn : xs.length ≤ n) (h : Separated alone key xs) :
    (peel alone key emit n xs).Perm
      (emitAlone alone emit xs ++ emitGroups alone key emit xs) := by
  induction n generalizing xs with
  | zero =>
      obtain rfl : xs = [] := List.length_eq_zero_iff.mp (by omega)
      simp [peel, emitAlone, emitGroups, groupKeys]
  | succ n ih =>
      cases xs with
      | nil => simp [peel, emitAlone, emitGroups, groupKeys]
      | cons x xs =>
          have hlen : xs.length ≤ n := by simpa using hn
          cases hx : alone x with
          | true =>
              have hrest := ih hlen (h.sublist (List.sublist_cons_self x xs))
              have halone : emitAlone alone emit (x :: xs) =
                  (emit x []).toList ++ emitAlone alone emit xs := by
                cases hemit : emit x [] <;> simp [emitAlone, hx, hemit]
              simp only [peel, hx, if_true]
              rw [halone, emitGroups_cons_alone h hx, List.append_assoc]
              exact hrest.append_left _
          | false =>
              have hsub : (xs.filter (key · ≠ key x)).Sublist (x :: xs) :=
                List.filter_sublist.trans (List.sublist_cons_self x xs)
              have hrest := ih (Nat.le_trans List.filter_sublist.length_le hlen) (h.sublist hsub)
              have halone : emitAlone alone emit (x :: xs) =
                  emitAlone alone emit (xs.filter (key · ≠ key x)) := by
                simp only [emitAlone, List.filter_cons_of_neg (by simp [hx] : ¬ alone x = true),
                  List.filter_filter]
                congr 1
                apply List.filter_congr
                intro y hy
                cases hy' : alone y with
                | false => simp
                | true =>
                    have hne : key y ≠ key x := by
                      intro heq
                      have := h y (by simp [hy]) x (by simp) heq
                      simp [hx, hy'] at this
                    simp [hne]
              simp only [peel, hx, if_false, Bool.false_eq_true]
              rw [halone]
              refine (hrest.append_left _).trans ?_
              refine List.Perm.trans ?_ ((emitGroups_cons_perm hx).symm.append_left _)
              rw [← List.append_assoc, ← List.append_assoc]
              exact List.perm_append_comm.append_right _

theorem peelAll_perm {xs : List α} (h : Separated alone key xs) :
    (peelAll alone key emit xs).Perm
      (emitAlone alone emit xs ++ emitGroups alone key emit xs) :=
  peel_perm (Nat.le_refl _) h

/-- Rounds beyond the length of the list change nothing. -/
theorem peel_eq_of_length_le {n m : Nat} {xs : List α} (hn : xs.length ≤ n)
    (hm : xs.length ≤ m) : peel alone key emit n xs = peel alone key emit m xs := by
  induction n generalizing m xs with
  | zero =>
      obtain rfl : xs = [] := List.length_eq_zero_iff.mp (by omega)
      cases m <;> rfl
  | succ n ih =>
      cases xs with
      | nil => cases m <;> rfl
      | cons x xs =>
          obtain ⟨m, rfl⟩ : ∃ k, m = k + 1 := ⟨m - 1, by simp at hm; omega⟩
          have hn' : xs.length ≤ n := by simpa using hn
          have hm' : xs.length ≤ m := by simpa using hm
          have hfilter : (xs.filter (key · ≠ key x)).length ≤ xs.length :=
            List.filter_sublist.length_le
          simp only [peel]
          rw [ih hn' hm', ih (Nat.le_trans hfilter hn') (Nat.le_trans hfilter hm')]

theorem peelAll_cons (x : α) (xs : List α) :
    peelAll alone key emit (x :: xs) =
      if alone x then (emit x []).toList ++ peelAll alone key emit xs
      else
        (emit x (xs.filter (key · = key x))).toList ++
          peelAll alone key emit (xs.filter (key · ≠ key x)) := by
  have hfilter : peel alone key emit xs.length (xs.filter (key · ≠ key x)) =
      peel alone key emit (xs.filter (key · ≠ key x)).length (xs.filter (key · ≠ key x)) :=
    peel_eq_of_length_le List.filter_sublist.length_le (Nat.le_refl _)
  simp only [peelAll, List.length_cons, peel, hfilter]

theorem exists_of_mem_peel {n : Nat} {xs : List α} {b : β} (hb : b ∈ peel alone key emit n xs) :
    ∃ x mates, emit x mates = some b := by
  induction n generalizing xs with
  | zero => simp [peel] at hb
  | succ n ih =>
      cases xs with
      | nil => simp [peel] at hb
      | cons x xs =>
          simp only [peel] at hb
          split at hb
          all_goals
            rcases List.mem_append.mp hb with hb | hb
            · exact ⟨x, _, Option.mem_toList.mp hb⟩
            · exact ih hb

/-! ## Two kinds of elements -/

theorem emitAlone_partition_perm (p : α → Bool) (xs : List α) :
    (emitAlone alone emit (xs.filter p) ++ emitAlone alone emit (xs.filter (!p ·))).Perm
      (emitAlone alone emit xs) := by
  rw [emitAlone, emitAlone, ← List.filterMap_append, ← List.filter_append]
  exact ((List.filter_append_perm p xs).filter alone).filterMap _

/-- When no group has elements of both kinds, the kinds can be regrouped apart. -/
theorem emitGroups_partition_perm {p : α → Bool} {xs : List α}
    (h : ∀ x ∈ xs, ∀ y ∈ xs, alone x = false → key x = key y → p x = p y) :
    (emitGroups alone key emit (xs.filter p) ++ emitGroups alone key emit (xs.filter (!p ·))).Perm
      (emitGroups alone key emit xs) := by
  -- all elements of a group are of the kind of any one of them
  have hsame (b : Bool) (k : κ) (hk : k ∈ groupKeys alone key (xs.filter (p · == b))) :
      emitGroup key emit (xs.filter (p · == b)) k = emitGroup key emit xs k := by
    obtain ⟨x, hx, hgroup, rfl⟩ := mem_groupKeys.mp hk
    obtain ⟨hx, hpx⟩ := List.mem_filter.mp hx
    apply emitGroup_congr
    rw [List.filter_filter]
    apply List.filter_congr
    intro y hy
    by_cases hkey : key y = key x
    · have := h x hx y hy hgroup hkey.symm
      simp_all
    · simp [hkey]
  have hkeys : (groupKeys alone key (xs.filter (p · == true)) ++
      groupKeys alone key (xs.filter (p · == false))).Perm (groupKeys alone key xs) := by
    apply (List.perm_ext_iff_of_nodup _ (List.nodup_dedup _)).mpr
    · intro k
      show k ∈ _ ↔ k ∈ groupKeys alone key xs
      rw [List.mem_append, mem_groupKeys, mem_groupKeys, mem_groupKeys]
      constructor
      · rintro (⟨x, hx, hgroup, rfl⟩ | ⟨x, hx, hgroup, rfl⟩) <;>
          exact ⟨x, List.mem_of_mem_filter hx, hgroup, rfl⟩
      · rintro ⟨x, hx, hgroup, rfl⟩
        cases hp : p x with
        | true => exact .inl ⟨x, List.mem_filter.mpr ⟨hx, by simp [hp]⟩, hgroup, rfl⟩
        | false => exact .inr ⟨x, List.mem_filter.mpr ⟨hx, by simp [hp]⟩, hgroup, rfl⟩
    · rw [List.nodup_append]
      refine ⟨List.nodup_dedup _, List.nodup_dedup _, ?_⟩
      rintro k hk _ hk' rfl
      obtain ⟨x, hx, hgroup, rfl⟩ := mem_groupKeys.mp hk
      obtain ⟨y, hy, -, hkey⟩ := mem_groupKeys.mp hk'
      obtain ⟨hx, hpx⟩ := List.mem_filter.mp hx
      obtain ⟨hy, hpy⟩ := List.mem_filter.mp hy
      have := h x hx y hy hgroup hkey.symm
      simp_all
  have hperm := hkeys.filterMap (emitGroup key emit xs)
  rw [List.filterMap_append, ← List.filterMap_congr (hsame true),
    ← List.filterMap_congr (hsame false)] at hperm
  simpa [emitGroups] using hperm

end TelephonySms.Regroup
