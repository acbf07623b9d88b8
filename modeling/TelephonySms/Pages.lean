import Mathlib.Data.Fintype.Card
import Mathlib.Data.Finset.Dedup
import Mathlib.Data.List.Range

/-! # Numbered parts

Parts carry a position and are written into a list of slots one after the other.
When the positions are distinct the order of the writes does not matter, and
counting the parts decides whether every slot was written.
-/

namespace TelephonySms.Pages

variable {α β : Type*}

/-- Write the value of each part at its position; a later part overwrites. -/
def place (pos : α → Nat) (val : α → β) (slots : List β) (parts : List α) : List β :=
  parts.foldl (fun slots x => slots.set (pos x) (val x)) slots

section Place

variable {pos : α → Nat} {val : α → β}

@[simp] theorem place_nil (slots : List β) : place pos val slots [] = slots := rfl

theorem place_cons (slots : List β) (x : α) (parts : List α) :
    place pos val slots (x :: parts) = place pos val (slots.set (pos x) (val x)) parts := rfl

@[simp] theorem length_place (slots : List β) (parts : List α) :
    (place pos val slots parts).length = slots.length := by
  induction parts generalizing slots with
  | nil => rfl
  | cons x parts ih => simp [place_cons, ih]

theorem place_congr {val' : α → β} {parts : List α} (h : ∀ x ∈ parts, val x = val' x)
    (slots : List β) : place pos val slots parts = place pos val' slots parts := by
  induction parts generalizing slots with
  | nil => rfl
  | cons x parts ih =>
      rw [place_cons, place_cons, h x (by simp)]
      exact ih (fun y hy => h y (by simp [hy])) _

theorem getElem?_place_of_forall_ne (slots : List β) {parts : List α} {k : Nat}
    (h : ∀ x ∈ parts, pos x ≠ k) : (place pos val slots parts)[k]? = slots[k]? := by
  induction parts generalizing slots with
  | nil => rfl
  | cons x parts ih =>
      have hx : pos x ≠ k := h x (by simp)
      rw [place_cons, ih _ fun y hy => h y (by simp [hy]), List.getElem?_set_ne hx]

theorem getElem?_place_of_mem (slots : List β) {parts : List α} {x : α}
    (hnodup : (parts.map pos).Nodup) (hx : x ∈ parts) (hlt : pos x < slots.length) :
    (place pos val slots parts)[pos x]? = some (val x) := by
  induction parts generalizing slots with
  | nil => simp at hx
  | cons y parts ih =>
      rw [List.map_cons, List.nodup_cons] at hnodup
      rw [place_cons]
      rcases List.mem_cons.mp hx with rfl | hx
      · have hne : ∀ z ∈ parts, pos z ≠ pos x := by
          intro z hz heq
          exact hnodup.1 (List.mem_map.mpr ⟨z, hz, heq⟩)
        rw [getElem?_place_of_forall_ne _ hne, List.getElem?_set_self hlt]
      · exact ih _ hnodup.2 hx (by simpa using hlt)

theorem place_append_of_lt {slots more : List β} {parts : List α}
    (h : ∀ x ∈ parts, pos x < slots.length) :
    place pos val (slots ++ more) parts = place pos val slots parts ++ more := by
  induction parts generalizing slots with
  | nil => rfl
  | cons x parts ih =>
      rw [place_cons, place_cons, List.set_append_left _ _ (h x (by simp))]
      exact ih fun y hy => by simpa using h y (by simp [hy])

theorem mem_of_mem_place {slots : List β} {parts : List α} {y : β}
    (hy : y ∈ place pos val slots parts) : y ∈ slots ∨ ∃ x ∈ parts, val x = y := by
  induction parts generalizing slots with
  | nil => exact .inl hy
  | cons x parts ih =>
      rcases ih hy with hset | ⟨z, hz, hval⟩
      · rcases List.mem_or_eq_of_mem_set hset with hmem | heq
        · exact .inl hmem
        · exact .inr ⟨x, by simp, heq.symm⟩
      · exact .inr ⟨z, by simp [hz], hval⟩

/-- When every position is taken, the slots read in order are the values by position. -/
theorem place_eq_map_range {n : Nat} (d : β) {parts : List α} {page : Nat → β}
    (hnodup : (parts.map pos).Nodup)
    (h : ∀ k < n, ∃ x ∈ parts, pos x = k ∧ val x = page k) :
    place pos val (List.replicate n d) parts = (List.range n).map page := by
  apply List.ext_getElem?
  intro k
  by_cases hk : k < n
  · obtain ⟨x, hx, rfl, hval⟩ := h k hk
    rw [getElem?_place_of_mem _ hnodup hx (by simpa using hk), hval]
    simp [hk]
  · rw [List.getElem?_eq_none (by simpa using hk), List.getElem?_eq_none (by simpa using hk)]

end Place

/-! ## Counting instead of checking coverage -/

theorem length_le_of_nodup {l : List Nat} {n : Nat} (hnodup : l.Nodup) (hlt : ∀ k ∈ l, k < n) :
    l.length ≤ n := by
  have hsub : l.toFinset ⊆ Finset.range n := by
    intro k hk
    exact Finset.mem_range.mpr (hlt k (List.mem_toFinset.mp hk))
  simpa [List.toFinset_card_of_nodup hnodup] using Finset.card_le_card hsub

/-- Distinct positions below `n` are all of them exactly when there are `n`. -/
theorem length_eq_iff_forall_mem {l : List Nat} {n : Nat} (hnodup : l.Nodup)
    (hlt : ∀ k ∈ l, k < n) : l.length = n ↔ ∀ k < n, k ∈ l := by
  have hsub : l.toFinset ⊆ Finset.range n := by
    intro k hk
    exact Finset.mem_range.mpr (hlt k (List.mem_toFinset.mp hk))
  have hcard : l.toFinset.card = l.length := List.toFinset_card_of_nodup hnodup
  constructor
  · intro hlen k hk
    have heq : l.toFinset = Finset.range n :=
      Finset.eq_of_subset_of_card_le hsub (by simp [hcard, hlen])
    exact List.mem_toFinset.mp (heq ▸ Finset.mem_range.mpr hk)
  · intro hall
    have heq : l.toFinset = Finset.range n := by
      apply Finset.Subset.antisymm hsub
      intro k hk
      exact List.mem_toFinset.mpr (hall k (Finset.mem_range.mp hk))
    rw [← hcard, heq, Finset.card_range]

end TelephonySms.Pages
