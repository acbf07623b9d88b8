import Mathlib.Data.List.Basic

/-! # Searching a string from a position

The first position from a given one on whose character has a property, and the first
position where a word stands. What is searched for and not found has no position.
-/

namespace TelephonySms.Find

variable {α : Type}

def findFrom (p : α → Bool) (s : List α) (start : Nat) : Option Nat :=
  ((s.drop start).findIdx? p).map (· + start)

def findWord [DecidableEq α] (w : List α) : List α → Option Nat
  | [] => if w = [] then some 0 else none
  | a :: s => if w <+: a :: s then some 0 else (findWord w s).map (· + 1)

/-- The smaller of two positions, where there are any. -/
def least (i j : Option Nat) : Option Nat := Option.merge min i j

variable {p q : α → Bool}

theorem findFrom_front (p : α → Bool) (front s : List α) :
    findFrom p (front ++ s) front.length = (s.findIdx? p).map (· + front.length) := by
  rw [findFrom, List.drop_left]

theorem findFrom_eq_none {front s : List α} (h : ∀ a ∈ s, p a = false) :
    findFrom p (front ++ s) front.length = none := by
  rw [findFrom_front, List.findIdx?_eq_none_iff.2 h]
  rfl

theorem findFrom_eq_some {front u s : List α} {a : α} (h : ∀ b ∈ u, p b = false)
    (ha : p a = true) :
    findFrom p (front ++ (u ++ a :: s)) front.length = some (front.length + u.length) := by
  rw [findFrom_front, List.findIdx?_append, List.findIdx?_eq_none_iff.2 h, List.findIdx?_cons,
    if_pos ha]
  simp [Nat.add_comm]

/-- Looking for either of two things. -/
theorem least_findIdx? (p q : α → Bool) (s : List α) :
    least (s.findIdx? p) (s.findIdx? q) = s.findIdx? fun a => p a || q a := by
  induction s with
  | nil => rfl
  | cons a s ih =>
      rw [List.findIdx?_cons, List.findIdx?_cons, List.findIdx?_cons, ← ih]
      cases p a with
      | true =>
          cases hq : (if q a then some 0 else (s.findIdx? q).map fun i => i + 1) with
          | none => rfl
          | some i => simp [least, Option.merge]
      | false =>
          cases q a with
          | true =>
              cases s.findIdx? p with
              | none => rfl
              | some i => simp [least, Option.merge]
          | false =>
              cases s.findIdx? p <;> cases s.findIdx? q <;>
                simp [least, Option.merge, Nat.add_min_add_right]

theorem least_findFrom (p q : α → Bool) (s : List α) (start : Nat) :
    least (findFrom p s start) (findFrom q s start) = findFrom (fun a => p a || q a) s start := by
  unfold findFrom
  rw [← least_findIdx?]
  cases (s.drop start).findIdx? p <;> cases (s.drop start).findIdx? q <;>
    simp [least, Option.merge, Nat.add_min_add_right]

/-- A word whose first character does not stand before it. -/
theorem findWord_append [DecidableEq α] {a : α} {w u s : List α} (h : a ∉ u) :
    findWord (a :: w) (u ++ (a :: w ++ s)) = some u.length := by
  induction u with
  | nil =>
      have hfirst : a :: w <+: a :: (w ++ s) := ⟨s, rfl⟩
      simp [findWord, hfirst]
  | cons b u ih =>
      rcases List.ne_and_not_mem_of_not_mem_cons h with ⟨hne, hrest⟩
      have hnot : ¬ a :: w <+: b :: (u ++ (a :: w ++ s)) := by
        intro hprefix
        exact hne (List.cons_prefix_cons.1 hprefix).1
      rw [List.cons_append, findWord, if_neg hnot, ih hrest]
      rfl

end TelephonySms.Find
