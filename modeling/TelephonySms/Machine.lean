import Mathlib.Data.List.Basic

/-! # Runs of event-driven machines

A machine is a total step function: an input that the machine ignores leaves
its state alone. Runs are folds over input lists, so a fact about every run is
an induction over the list, done once here. `Guarded` restricts a run to steps
that meet a condition judged in the state before the step. The last section
relates two runs of one machine, the second with some inputs removed.
-/

namespace TelephonySms.Machine

variable {σ ι ω : Type*}

/-! ## Guarded runs -/

/-- Every step of the run from `s` meets `ok`, judged in the state before it. -/
def Guarded (step : σ → ι → σ) (ok : σ → ι → Prop) : σ → List ι → Prop
  | _, [] => True
  | s, i :: is => ok s i ∧ Guarded step ok (step s i) is

theorem Guarded.of_append_left {step : σ → ι → σ} {ok : σ → ι → Prop} {s : σ} {is js : List ι}
    (h : Guarded step ok s (is ++ js)) : Guarded step ok s is := by
  induction is generalizing s with
  | nil => trivial
  | cons i is ih => exact ⟨h.1, ih h.2⟩

theorem Guarded.of_append_right {step : σ → ι → σ} {ok : σ → ι → Prop} {s : σ} {is js : List ι}
    (h : Guarded step ok s (is ++ js)) : Guarded step ok (is.foldl step s) js := by
  induction is generalizing s with
  | nil => exact h
  | cons i is ih => exact ih h.2

/-- What one admitted step preserves, a guarded run preserves. -/
theorem Guarded.invariant {step : σ → ι → σ} {ok : σ → ι → Prop} {inv : σ → Prop}
    (preserves : ∀ s i, ok s i → inv s → inv (step s i)) {s : σ} {is : List ι}
    (h : Guarded step ok s is) (hs : inv s) : inv (is.foldl step s) := by
  induction is generalizing s with
  | nil => exact hs
  | cons i is ih => exact ih h.2 (preserves s i h.1 hs)

theorem foldl_invariant {step : σ → ι → σ} {inv : σ → Prop}
    (preserves : ∀ s i, inv s → inv (step s i)) {s : σ} (is : List ι) (hs : inv s) :
    inv (is.foldl step s) := by
  induction is generalizing s with
  | nil => exact hs
  | cons i is ih => exact ih (preserves s i hs)

/-- Conditions that agree wherever an invariant holds admit the same runs. -/
theorem guarded_iff_of_invariant {step : σ → ι → σ} {ok ok' : σ → ι → Prop} {inv : σ → Prop}
    (preserves : ∀ s i, inv s → inv (step s i)) (agree : ∀ s i, inv s → (ok s i ↔ ok' s i))
    {s : σ} (is : List ι) (hs : inv s) : Guarded step ok s is ↔ Guarded step ok' s is := by
  induction is generalizing s with
  | nil => exact Iff.rfl
  | cons i is ih => exact and_congr (agree s i hs) (ih (preserves s i hs))

/-- What a part of the state holds after a run was written by the last input that writes it. -/
theorem Guarded.last_write {α : Type*} {reg : σ → α} {effect : ι → Option α} {step : σ → ι → σ}
    {ok : σ → ι → Prop} (heffect : ∀ s i, ok s i → reg (step s i) = (effect i).getD (reg s)) {s : σ}
    {is : List ι} (h : Guarded step ok s is) :
    (∃ before i after, is = before ++ i :: after ∧
        effect i = some (reg (is.foldl step s)) ∧ ∀ j ∈ after, effect j = none) ∨
      (reg (is.foldl step s) = reg s ∧ ∀ j ∈ is, effect j = none) := by
  induction is generalizing s with
  | nil => exact .inr ⟨rfl, by simp⟩
  | cons i is ih =>
      rcases ih h.2 with ⟨before, j, after, hsplit, hj, hafter⟩ | ⟨hsame, hnone⟩
      · exact .inl ⟨i :: before, j, after, by rw [hsplit]; rfl, hj, hafter⟩
      · have hwritten := heffect s i h.1
        cases heff : effect i with
        | none =>
            rw [heff] at hwritten
            refine .inr ⟨hsame.trans hwritten, ?_⟩
            intro j hj
            rcases List.mem_cons.mp hj with rfl | hj
            · exact heff
            · exact hnone j hj
        | some a =>
            rw [heff] at hwritten
            refine .inl ⟨[], i, is, rfl, ?_, hnone⟩
            rw [heff, List.foldl_cons, hsame, hwritten]
            rfl

/-! ## Machines with outputs -/

/-- The state component of a step that also emits outputs. -/
def next (step : σ → ι → σ × List ω) (s : σ) (i : ι) : σ := (step s i).1

/-- Outputs emitted by the steps whose input satisfies `p`, in order. -/
def outputsOf (p : ι → Bool) (step : σ → ι → σ × List ω) : σ → List ι → List ω
  | _, [] => []
  | s, i :: is =>
      (if p i then (step s i).2 else []) ++ outputsOf p step (step s i).1 is

/-- All outputs of a run. -/
def outputs (step : σ → ι → σ × List ω) : σ → List ι → List ω
  | _, [] => []
  | s, i :: is => (step s i).2 ++ outputs step (step s i).1 is

theorem outputs_append (step : σ → ι → σ × List ω) (s : σ) (is js : List ι) :
    outputs step s (is ++ js) =
      outputs step s is ++ outputs step (is.foldl (next step) s) js := by
  induction is generalizing s with
  | nil => rfl
  | cons i is ih => simp [outputs, next, ih]

theorem outputs_concat (step : σ → ι → σ × List ω) (s : σ) (is : List ι) (i : ι) :
    outputs step s (is ++ [i]) =
      outputs step s is ++ (step (is.foldl (next step) s) i).2 := by
  simp [outputs_append, outputs]

/-- An invariant that also reads the outputs emitted so far. -/
theorem Guarded.outputs_invariant {step : σ → ι → σ × List ω} {ok : σ → ι → Prop}
    {inv : List ω → σ → Prop}
    (preserves : ∀ outs s i, ok s i → inv outs s → inv (outs ++ (step s i).2) (step s i).1)
    {outs : List ω} {s : σ} {is : List ι} (h : Guarded (next step) ok s is) (hs : inv outs s) :
    inv (outs ++ outputs step s is) (is.foldl (next step) s) := by
  induction is generalizing outs s with
  | nil => simpa [outputs] using hs
  | cons i is ih =>
      have hstep := preserves outs s i h.1 hs
      simpa [outputs, next, List.append_assoc] using ih h.2 hstep

theorem Guarded.of_forall {step : σ → ι → σ} {ok : σ → ι → Prop} (h : ∀ s i, ok s i) (s : σ)
    (is : List ι) : Guarded step ok s is := by
  induction is generalizing s with
  | nil => trivial
  | cons i is ih => exact ⟨h s i, ih _⟩

/-- A condition on the inputs alone. -/
theorem Guarded.of_mem {step : σ → ι → σ} {ok : ι → Prop} {is : List ι} (h : ∀ i ∈ is, ok i)
    (s : σ) : Guarded step (fun _ i => ok i) s is := by
  induction is generalizing s with
  | nil => trivial
  | cons i is ih =>
      exact ⟨h i List.mem_cons_self, ih (fun j hj => h j (List.mem_cons_of_mem _ hj)) _⟩

/-- An invariant that also reads how many steps were taken. -/
theorem Guarded.counted_invariant {step : σ → ι → σ × List ω} {ok : σ → ι → Prop}
    {inv : Nat → List ω → σ → Prop}
    (preserves : ∀ n outs s i, ok s i → inv n outs s →
      inv (n + 1) (outs ++ (step s i).2) (step s i).1)
    {n : Nat} {outs : List ω} {s : σ} {is : List ι} (h : Guarded (next step) ok s is)
    (hs : inv n outs s) :
    inv (n + is.length) (outs ++ outputs step s is) (is.foldl (next step) s) := by
  induction is generalizing n outs s with
  | nil => simpa [outputs] using hs
  | cons i is ih =>
      have hstep := preserves n outs s i h.1 hs
      have hlength : n + (i :: is).length = n + 1 + is.length := by
        simp only [List.length_cons]
        omega
      rw [hlength]
      simpa [outputs, next, List.append_assoc] using ih h.2 hstep

theorem outputs_invariant {step : σ → ι → σ × List ω} {inv : List ω → σ → Prop}
    (preserves : ∀ outs s i, inv outs s → inv (outs ++ (step s i).2) (step s i).1)
    {outs : List ω} {s : σ} (is : List ι) (hs : inv outs s) :
    inv (outs ++ outputs step s is) (is.foldl (next step) s) :=
  (Guarded.of_forall (fun _ _ => trivial) s is).outputs_invariant
    (fun outs s i _ => preserves outs s i) hs

/-! ## Removing inputs from a run -/

/-- Two runs in lock step: inputs in `p` are seen by both machines and emit
outputs that look alike, inputs outside `p` are seen by the first machine only. -/
theorem outputsOf_eq_of_unwinding {p : ι → Bool} {step : σ → ι → σ × List ω} {α : Type*}
    (view : ω → α) (rel : σ → σ → Prop) {s t : σ} (is : List ι)
    (seen : ∀ i ∈ is, p i = true → ∀ s t, rel s t →
      rel (step s i).1 (step t i).1 ∧ (step s i).2.map view = (step t i).2.map view)
    (unseen : ∀ i ∈ is, p i = false → ∀ s t, rel s t → rel (step s i).1 t) (h : rel s t) :
    (outputsOf p step s is).map view = (outputs step t (is.filter p)).map view := by
  induction is generalizing s t with
  | nil => rfl
  | cons i is ih =>
      have hrest {s t : σ} (hrel : rel s t) :=
        ih (fun j hj => seen j (by simp [hj])) (fun j hj => unseen j (by simp [hj])) hrel
      cases hp : p i with
      | true =>
          obtain ⟨hrel, hout⟩ := seen i (by simp) hp s t h
          simp [outputsOf, outputs, hp, hout, hrest hrel]
      | false =>
          have hrel := unseen i (by simp) hp s t h
          simp [outputsOf, hp, hrest hrel]

end TelephonySms.Machine
