import Mathlib.Algebra.Group.Int.Defs
import Mathlib.Algebra.Group.Nat.Defs
import Mathlib.Data.Int.Order.Basic

/-! # Readers of an octet string

A reader moves a position over a fixed octet string. It returns a value or fails, and it
keeps its position when it fails. What its operations touched is recorded, so that a
statement about a whole run can speak of every position it was at and of every octet it
looked at. A loop is run with a bound on its iterations, and a loop that uses the bound
up is still running.
-/

namespace TelephonySms.OctetReader

/-- What one operation did: the position it left, and the octets it looked at. -/
structure Touch where
  position : Nat
  offset : Nat
  count : Nat
  deriving DecidableEq, Repr

structure Cursor where
  octets : List UInt8
  position : Nat
  trace : List Touch
  deriving DecidableEq, Repr

inductive Outcome (α : Type) where
  | done (value : α)
  | failed
  | running
  deriving DecidableEq, Repr

def Reader (α : Type) := Cursor → Outcome α × Cursor

variable {α β σ : Type}

namespace Reader

protected def pure (a : α) : Reader α := fun c => (.done a, c)

protected def bind (m : Reader α) (f : α → Reader β) : Reader β := fun c =>
  match m c with
  | (.done a, c') => f a c'
  | (.failed, c') => (.failed, c')
  | (.running, c') => (.running, c')

instance : Monad Reader where
  pure := Reader.pure
  bind := Reader.bind

def fail : Reader α := fun c => (.failed, c)

def guard (p : Prop) [Decidable p] : Reader Unit := if p then pure () else fail

/-- A call whose result is not looked at. -/
def attempt (m : Reader α) : Reader (Option α) := fun c =>
  match m c with
  | (.done a, c') => (.done (some a), c')
  | (.failed, c') => (.done none, c')
  | (.running, c') => (.running, c')

def cursor : Reader Cursor := fun c => (.done c, c)

/-- Leaves the position at `position`, having looked at `count` octets from `offset`. -/
def touch (position offset count : Nat) : Reader Unit := fun c =>
  (.done (), ⟨c.octets, position, ⟨position, offset, count⟩ :: c.trace⟩)

/-- Runs a loop body until it returns on the right, at most `fuel` times. -/
def iterate (body : σ → Reader (σ ⊕ α)) : Nat → σ → Reader α
  | 0, _ => fun c => (.running, c)
  | fuel + 1, s => do
      match ← body s with
      | .inl s' => iterate body fuel s'
      | .inr a => pure a

def loop (body : σ → Reader (σ ⊕ α)) (s : σ) : Reader α := fun c =>
  iterate body (c.octets.length + 1) s c

@[simp] theorem pure_run (a : α) (c : Cursor) : (pure a : Reader α) c = (.done a, c) := rfl

theorem bind_run (m : Reader α) (f : α → Reader β) (c : Cursor) :
    (m >>= f) c = match m c with
      | (.done a, c') => f a c'
      | (.failed, c') => (.failed, c')
      | (.running, c') => (.running, c') := rfl

theorem bind_of_done {m : Reader α} {c c' : Cursor} {a : α} (h : m c = (.done a, c'))
    (f : α → Reader β) : (m >>= f) c = f a c' := by
  rw [bind_run, h]

theorem bind_of_failed {m : Reader α} {c c' : Cursor} (h : m c = (.failed, c'))
    (f : α → Reader β) : (m >>= f) c = (.failed, c') := by
  rw [bind_run, h]

@[simp] theorem pure_bind_run (a : α) (f : α → Reader β) (c : Cursor) :
    ((pure a : Reader α) >>= f) c = f a c := rfl

@[simp] theorem cursor_bind (f : Cursor → Reader β) (c : Cursor) :
    (cursor >>= f) c = f c c := rfl

theorem guard_of {p : Prop} [Decidable p] (h : p) : guard p = pure () := if_pos h

theorem guard_of_not {p : Prop} [Decidable p] (h : ¬ p) : guard p = fail := if_neg h

end Reader

open Reader

/-! ## Runs that stay inside the octets -/

/-- The position and everything looked at so far lie inside the octets. The octets are few
enough that the sum of two positions has 32 bits. -/
structure Cursor.Sound (c : Cursor) : Prop where
  short : c.octets.length < 2 ^ 31
  inside : c.position ≤ c.octets.length
  touched : ∀ t ∈ c.trace, t.position ≤ c.octets.length ∧
    t.offset + t.count ≤ c.octets.length

/-- From the cursor `c` the reader ends with a sound cursor over the same octets. It has
moved by at least `k a` when it returns `a`, and by at least `l` when it fails. -/
structure MovesAt (m : Reader α) (c : Cursor) (k : α → Int) (l : Int) : Prop where
  sound : (m c).2.Sound
  same : (m c).2.octets = c.octets
  returns : (m c).1 ≠ .running
  done : ∀ a, (m c).1 = .done a → (c.position : Int) + k a ≤ (m c).2.position
  failed : (m c).1 = .failed → (c.position : Int) + l ≤ (m c).2.position

/-- The reader moves so from every sound cursor. -/
def Moves (m : Reader α) (k : α → Int) (l : Int) : Prop := ∀ c, c.Sound → MovesAt m c k l

namespace MovesAt

variable {m : Reader α} {f : α → Reader β} {k k' : α → Int} {j : β → Int} {l l' : Int}
variable {c : Cursor}

theorem mono (h : MovesAt m c k l) (hk : ∀ a, k' a ≤ k a) (hl : l' ≤ l) :
    MovesAt m c k' l' where
  sound := h.sound
  same := h.same
  returns := h.returns
  done a ha := by
    have hmoved := h.done a ha
    have hless := hk a
    omega
  failed hf := by
    have hmoved := h.failed hf
    omega

theorem pure (hc : c.Sound) (a : α) (hk : k a ≤ 0) :
    MovesAt (Pure.pure a : Reader α) c k l where
  sound := hc
  same := rfl
  returns := by simp
  done b hb := by
    simp only [pure_run, Outcome.done.injEq] at hb
    subst hb
    simp only [pure_run]
    omega
  failed hf := by simp at hf

theorem of_failed (hc : c.Sound) (h : m c = (.failed, c)) (hl : l ≤ 0) :
    MovesAt m c k l where
  sound := by rw [h]; exact hc
  same := by rw [h]
  returns := by simp [h]
  done b hb := by simp [h] at hb
  failed _ := by simp only [h]; omega

/-- An operation that touches the octets once. -/
theorem of_touch {a : α} {position offset count : Nat} (hc : c.Sound)
    (h : m c = (.done a, ⟨c.octets, position, ⟨position, offset, count⟩ :: c.trace⟩))
    (hposition : position ≤ c.octets.length) (hrange : offset + count ≤ c.octets.length)
    (hmoved : (c.position : Int) + k a ≤ position) : MovesAt m c k l where
  sound := by
    rw [h]
    refine ⟨hc.short, hposition, ?_⟩
    intro t' ht'
    rcases List.mem_cons.mp ht' with rfl | hold
    · exact ⟨hposition, hrange⟩
    · exact hc.touched t' hold
  same := by rw [h]
  returns := by simp [h]
  done b hb := by
    simp only [h, Outcome.done.injEq] at hb ⊢
    subst hb
    exact hmoved
  failed hf := by simp [h] at hf

theorem bind (hm : MovesAt m c k l) (hf : ∀ a c', m c = (.done a, c') → c'.Sound →
    MovesAt (f a) c' (fun b => j b - k a) (l - k a)) : MovesAt (m >>= f) c j l := by
  cases hrun : m c with
  | mk outcome c' =>
      have hsound := hm.sound
      have hsame := hm.same
      simp only [hrun] at hsound hsame
      cases outcome with
      | running =>
          have hreturns := hm.returns
          simp [hrun] at hreturns
      | failed =>
          have hmoved := hm.failed (by simp [hrun])
          rw [hrun] at hmoved
          have heq : (m >>= f) c = (.failed, c') := bind_of_failed hrun f
          exact ⟨by rw [heq]; exact hsound, by rw [heq]; exact hsame, by simp [heq],
            by simp [heq], fun _ => by rw [heq]; exact hmoved⟩
      | done a =>
          have hmoved := hm.done a (by simp [hrun])
          rw [hrun] at hmoved
          have heq : (m >>= f) c = f a c' := bind_of_done hrun f
          have hnext := hf a c' hrun hsound
          refine ⟨by rw [heq]; exact hnext.sound, by rw [heq, hnext.same, hsame],
            by rw [heq]; exact hnext.returns, ?_, ?_⟩
          · intro b hb
            rw [heq] at hb ⊢
            have hlater := hnext.done b hb
            simp only at hmoved
            omega
          · intro hfailed
            rw [heq] at hfailed ⊢
            have hlater := hnext.failed hfailed
            simp only at hmoved
            omega

theorem attempt (hm : MovesAt m c k l) :
    MovesAt (Reader.attempt m) c (fun r => r.elim l k) l' := by
  cases hrun : m c with
  | mk outcome c' =>
      have hsound := hm.sound
      have hsame := hm.same
      have hdone := hm.done
      have hfailed := hm.failed
      simp only [hrun] at hsound hsame hdone hfailed
      cases outcome with
      | running =>
          have hreturns := hm.returns
          simp [hrun] at hreturns
      | done a =>
          have heq : Reader.attempt m c = (.done (some a), c') := by rw [Reader.attempt, hrun]
          refine ⟨by rw [heq]; exact hsound, by rw [heq]; exact hsame, by simp [heq], ?_,
            by simp [heq]⟩
          intro r hr
          simp only [heq, Outcome.done.injEq] at hr ⊢
          subst hr
          exact hdone a rfl
      | failed =>
          have heq : Reader.attempt m c = (.done none, c') := by rw [Reader.attempt, hrun]
          refine ⟨by rw [heq]; exact hsound, by rw [heq]; exact hsame, by simp [heq], ?_,
            by simp [heq]⟩
          intro r hr
          simp only [heq, Outcome.done.injEq] at hr ⊢
          subst hr
          exact hfailed rfl

end MovesAt

namespace Moves

variable {m : Reader α} {f : α → Reader β} {k k' : α → Int} {j : β → Int} {l l' : Int}

theorem mono (h : Moves m k l) (hk : ∀ a, k' a ≤ k a) (hl : l' ≤ l) : Moves m k' l' :=
  fun c hc => (h c hc).mono hk hl

theorem pure (a : α) (hk : k a ≤ 0) : Moves (Pure.pure a : Reader α) k l :=
  fun _ hc => MovesAt.pure hc a hk

theorem fail (hl : l ≤ 0) : Moves (Reader.fail : Reader α) k l :=
  fun _ hc => MovesAt.of_failed hc rfl hl

theorem bind (hm : Moves m k l) (hl : l' ≤ l)
    (hf : ∀ a, Moves (f a) (fun b => j b - k a) (l' - k a)) : Moves (m >>= f) j l' :=
  fun c hc => MovesAt.bind ((hm c hc).mono (fun _ => le_refl _) hl) fun a c' _ hc' =>
    hf a c' hc'

theorem attempt (hm : Moves m k l) : Moves (Reader.attempt m) (fun r => r.elim l k) l' :=
  fun c hc => (hm c hc).attempt

theorem guard (p : Prop) [Decidable p] (hl : l ≤ 0) :
    Moves (Reader.guard p) (fun _ => 0) l := by
  unfold Reader.guard
  split
  · exact pure () (le_refl 0)
  · exact fail hl

theorem cursor : Moves Reader.cursor (fun _ => 0) 0 := by
  intro c hc
  exact ⟨hc, rfl, by simp [Reader.cursor], by simp [Reader.cursor], by simp [Reader.cursor]⟩

theorem ite {m' : Reader α} (p : Prop) [Decidable p] (hm : Moves m k l) (hm' : Moves m' k l) :
    Moves (if p then m else m') k l := by
  split
  · exact hm
  · exact hm'

/-- Every round of the loop that goes on moves ahead, so the loop ends. -/
theorem iterate {body : σ → Reader (σ ⊕ α)} {k l : Int}
    (hbody : ∀ s, Moves (body s) (Sum.elim (fun _ => 1) (fun _ => k)) l)
    (fuel : Nat) (s : σ) (c : Cursor) (hc : c.Sound)
    (hfuel : c.octets.length < c.position + fuel) :
    MovesAt (Reader.iterate body fuel s) c (fun _ => k) l := by
  induction fuel generalizing s c with
  | zero =>
      have hinside := hc.inside
      omega
  | succ fuel ih =>
      have hround := hbody s c hc
      rw [Reader.iterate]
      refine MovesAt.bind hround ?_
      intro r c' hrun hc'
      cases r with
      | inr a => exact MovesAt.pure hc' a (by simp)
      | inl s' =>
          have hmoved := hround.done (.inl s') (by simp [hrun])
          have hsame := hround.same
          simp only [hrun, Sum.elim_inl] at hmoved hsame
          refine (ih s' c' hc' (by rw [hsame]; omega)).mono ?_ ?_
          · intro _
            simp only [Sum.elim_inl]
            omega
          · simp only [Sum.elim_inl]
            omega

theorem loop {body : σ → Reader (σ ⊕ α)} {k l : Int}
    (hbody : ∀ s, Moves (body s) (Sum.elim (fun _ => 1) (fun _ => k)) l) (s : σ) :
    Moves (Reader.loop body s) (fun _ => k) l := by
  intro c hc
  have hrun := iterate hbody (c.octets.length + 1) s c hc (by omega)
  exact ⟨hrun.sound, hrun.same, hrun.returns, hrun.done, hrun.failed⟩

/-- Where the first round moves ahead, so does the loop. -/
theorem loop_of_first {body : σ → Reader (σ ⊕ α)} {l : Int}
    (hbody : ∀ s, Moves (body s) (Sum.elim (fun _ => 1) (fun _ => 0)) l) {s : σ} {c : Cursor}
    (hfirst : MovesAt (body s) c (fun _ => 1) l) :
    MovesAt (Reader.loop body s) c (fun _ => 1) l := by
  have hrun : MovesAt (Reader.iterate body (c.octets.length + 1) s) c (fun _ => 1) l := by
    rw [Reader.iterate]
    refine MovesAt.bind hfirst ?_
    intro r c' hr hc'
    have hmoved := hfirst.done r (by simp [hr])
    have hsame := hfirst.same
    simp only [hr] at hmoved hsame
    cases r with
    | inr a => exact MovesAt.pure hc' a (by simp)
    | inl s' =>
        refine (iterate hbody c.octets.length s' c' hc' (by rw [hsame]; omega)).mono ?_ ?_
        · intro _
          omega
        · omega
  exact ⟨hrun.sound, hrun.same, hrun.returns, hrun.done, hrun.failed⟩

end Moves

/-! ## Readers that take given octets -/

/-- After any octets and before `rest`, the reader takes exactly `w` and returns `a`. -/
def ReadsBefore (m : Reader α) (w rest : List UInt8) (a : α) : Prop :=
  ∀ (front : List UInt8) (trace : List Touch), (front ++ w ++ rest).length < 2 ^ 31 →
    ∃ trace', m ⟨front ++ w ++ rest, front.length, trace⟩ =
      (.done a, ⟨front ++ w ++ rest, front.length + w.length, trace'⟩)

/-- The reader takes exactly `w` and returns `a`, whatever follows. -/
def Reads (m : Reader α) (w : List UInt8) (a : α) : Prop := ∀ rest, ReadsBefore m w rest a

namespace ReadsBefore

variable {m : Reader α} {f : α → Reader β} {u v w rest : List UInt8} {a : α} {b : β}

theorem pure (a : α) (rest : List UInt8) : ReadsBefore (Pure.pure a : Reader α) [] rest a := by
  intro front trace _
  exact ⟨trace, by simp⟩

theorem bind (hm : ReadsBefore m u (v ++ rest) a) (hf : ReadsBefore (f a) v rest b) :
    ReadsBefore (m >>= f) (u ++ v) rest b := by
  intro front trace hlength
  have hjoin : front ++ (u ++ v) ++ rest = front ++ u ++ (v ++ rest) := by simp
  have hjoin' : front ++ u ++ (v ++ rest) = front ++ u ++ v ++ rest := by simp
  rw [hjoin] at hlength ⊢
  obtain ⟨trace₁, hfirst⟩ := hm front trace hlength
  rw [bind_of_done hfirst]
  rw [hjoin'] at hlength ⊢
  obtain ⟨trace₂, hsecond⟩ := hf (front ++ u) trace₁ hlength
  refine ⟨trace₂, ?_⟩
  rw [List.length_append] at hsecond
  rw [hsecond, List.length_append, Nat.add_assoc]

/-- A reader that takes nothing before one that takes `w`. -/
theorem bind_nil (hm : ReadsBefore m [] (w ++ rest) a) (hf : ReadsBefore (f a) w rest b) :
    ReadsBefore (m >>= f) w rest b := bind hm hf

theorem bind_last (hm : ReadsBefore m w rest a) (hf : ReadsBefore (f a) [] rest b) :
    ReadsBefore (m >>= f) w rest b := by
  have hboth : ReadsBefore (m >>= f) (w ++ []) rest b := bind (by simpa using hm) hf
  simpa using hboth

theorem attempt (hm : ReadsBefore m w rest a) :
    ReadsBefore (Reader.attempt m) w rest (some a) := by
  intro front trace hlength
  obtain ⟨trace', hrun⟩ := hm front trace hlength
  exact ⟨trace', by rw [Reader.attempt, hrun]⟩

theorem guard {p : Prop} [Decidable p] (h : p) (rest : List UInt8) :
    ReadsBefore (Reader.guard p) [] rest () := by
  rw [guard_of h]
  exact pure () rest

end ReadsBefore

theorem Reads.bind {m : Reader α} {f : α → Reader β} {u v : List UInt8} {a : α} {b : β}
    (hm : Reads m u a) (hf : Reads (f a) v b) : Reads (m >>= f) (u ++ v) b :=
  fun rest => ReadsBefore.bind (hm (v ++ rest)) (hf rest)

/-! ### Falling short -/

/-- After any octets and before `rest`, the reader takes `w` and fails. -/
def FailsBefore (m : Reader α) (w rest : List UInt8) : Prop :=
  ∀ (front : List UInt8) (trace : List Touch), (front ++ w ++ rest).length < 2 ^ 31 →
    ∃ trace', m ⟨front ++ w ++ rest, front.length, trace⟩ =
      (.failed, ⟨front ++ w ++ rest, front.length + w.length, trace'⟩)

/-- The reader stops, or fails, before it has taken all of `w`. -/
inductive FallsShort (m : Reader α) (rest : List UInt8) : List UInt8 → Prop
  | reads {u v : List UInt8} {a : α} (h : ReadsBefore m u (v ++ rest) a) (hv : v ≠ []) :
      FallsShort m rest (u ++ v)
  | fails {u v : List UInt8} (h : FailsBefore m u (v ++ rest)) (hv : v ≠ []) :
      FallsShort m rest (u ++ v)

theorem FailsBefore.fail (rest : List UInt8) : FailsBefore (Reader.fail : Reader α) [] rest := by
  intro front trace _
  exact ⟨trace, by simp [Reader.fail]⟩

theorem FailsBefore.guard {p : Prop} [Decidable p] (h : ¬ p) (rest : List UInt8) :
    FailsBefore (Reader.guard p) [] rest := by
  rw [guard_of_not h]
  exact FailsBefore.fail rest

theorem FailsBefore.bind {m : Reader α} {f : α → Reader β} {u v rest : List UInt8} {a : α}
    (hm : ReadsBefore m u (v ++ rest) a) (hf : FailsBefore (f a) v rest) :
    FailsBefore (m >>= f) (u ++ v) rest := by
  intro front trace hlength
  have hjoin : front ++ (u ++ v) ++ rest = front ++ u ++ (v ++ rest) := by simp
  have hjoin' : front ++ u ++ (v ++ rest) = front ++ u ++ v ++ rest := by simp
  rw [hjoin] at hlength ⊢
  obtain ⟨trace₁, hfirst⟩ := hm front trace hlength
  rw [bind_of_done hfirst]
  rw [hjoin'] at hlength ⊢
  obtain ⟨trace₂, hsecond⟩ := hf (front ++ u) trace₁ hlength
  refine ⟨trace₂, ?_⟩
  rw [List.length_append] at hsecond
  rw [hsecond, List.length_append, Nat.add_assoc]

theorem FailsBefore.bind_left {m : Reader α} (f : α → Reader β) {w rest : List UInt8}
    (hm : FailsBefore m w rest) : FailsBefore (m >>= f) w rest := by
  intro front trace hlength
  obtain ⟨trace', hrun⟩ := hm front trace hlength
  exact ⟨trace', bind_of_failed hrun f⟩

theorem FailsBefore.attempt {m : Reader α} {w rest : List UInt8} (hm : FailsBefore m w rest) :
    ReadsBefore (Reader.attempt m) w rest none := by
  intro front trace hlength
  obtain ⟨trace', hrun⟩ := hm front trace hlength
  exact ⟨trace', by rw [Reader.attempt, hrun]⟩

theorem FailsBefore.not_reads {m : Reader α} {w rest : List UInt8} (h : FailsBefore m w rest)
    (hsize : (w ++ rest).length < 2 ^ 31) (a : α) : ¬ ReadsBefore m w rest a := by
  intro hreads
  obtain ⟨trace, hrun⟩ := hreads [] [] (by simpa using hsize)
  obtain ⟨trace', hfailed⟩ := h [] [] (by simpa using hsize)
  rw [hrun, Prod.mk.injEq] at hfailed
  exact absurd hfailed.1 (by simp)

theorem ReadsBefore.unique {m : Reader α} {w rest : List UInt8} {a b : α}
    (ha : ReadsBefore m w rest a) (hb : ReadsBefore m w rest b)
    (hsize : (w ++ rest).length < 2 ^ 31) : a = b := by
  obtain ⟨trace, hrun⟩ := ha [] [] (by simpa using hsize)
  obtain ⟨trace', hrun'⟩ := hb [] [] (by simpa using hsize)
  rw [hrun, Prod.mk.injEq, Outcome.done.injEq] at hrun'
  exact hrun'.1

namespace FallsShort

variable {m : Reader α} {f : α → Reader β} {u v w rest : List UInt8} {a : α} {b : β}

theorem bind (hm : ReadsBefore m u (v ++ rest) a) (hf : FallsShort (f a) rest v) :
    FallsShort (m >>= f) rest (u ++ v) := by
  cases hf with
  | @reads u' v' _ h hv =>
      rw [← List.append_assoc]
      exact .reads (ReadsBefore.bind (by simpa using hm) h) hv
  | @fails u' v' h hv =>
      rw [← List.append_assoc]
      exact .fails (FailsBefore.bind (by simpa using hm) h) hv

theorem bind_nil (hm : ReadsBefore m [] (w ++ rest) a) (hf : FallsShort (f a) rest w) :
    FallsShort (m >>= f) rest w := bind hm hf

/-- What follows takes nothing. -/
theorem bind_left {g : α → β} (hm : FallsShort m rest w)
    (hf : ∀ a rest, ReadsBefore (f a) [] rest (g a)) : FallsShort (m >>= f) rest w := by
  cases hm with
  | reads h hv => exact .reads (ReadsBefore.bind_last h (hf _ _)) hv
  | fails h hv => exact .fails (h.bind_left f) hv

theorem attempt (hm : FallsShort m rest w) : FallsShort (Reader.attempt m) rest w := by
  cases hm with
  | reads h hv => exact .reads h.attempt hv
  | fails h hv => exact .reads h.attempt hv

/-- What stands behind is not reached either. -/
theorem extend {t : List UInt8} (h : FallsShort m (t ++ rest) w) : FallsShort m rest (w ++ t) := by
  cases h with
  | @reads u v _ h hv =>
      rw [List.append_assoc]
      exact .reads (by simpa using h) (by simp [hv])
  | @fails u v h hv =>
      rw [List.append_assoc]
      exact .fails (by simpa using h) (by simp [hv])

theorem not_reads (h : FallsShort m rest w) (hsize : (w ++ rest).length < 2 ^ 31) (a : α) :
    ¬ ReadsBefore m w rest a := by
  intro hreads
  obtain ⟨trace, hrun⟩ := hreads [] [] (by simpa using hsize)
  cases h with
  | @reads u v a' h hv =>
      obtain ⟨trace', hshort⟩ := h [] [] (by simpa using hsize)
      have hpos := List.length_pos_iff.mpr hv
      simp only [List.nil_append, List.append_assoc, List.length_nil, Nat.zero_add] at hrun hshort
      rw [hrun, Prod.mk.injEq, Cursor.mk.injEq, List.length_append] at hshort
      omega
  | @fails u v h hv =>
      obtain ⟨trace', hshort⟩ := h [] [] (by simpa using hsize)
      simp only [List.nil_append, List.append_assoc, List.length_nil, Nat.zero_add] at hrun hshort
      rw [hrun, Prod.mk.injEq] at hshort
      exact absurd hshort.1 (by simp)

end FallsShort

/-! ### Going on -/

/-- After any octets and before `rest`, the reader takes `w` and then does what `m'` does. -/
def GoesOn (m : Reader α) (w rest : List UInt8) (m' : Reader α) : Prop :=
  ∀ (front : List UInt8) (trace : List Touch), (front ++ w ++ rest).length < 2 ^ 31 →
    ∃ trace', m ⟨front ++ w ++ rest, front.length, trace⟩ =
      m' ⟨front ++ w ++ rest, front.length + w.length, trace'⟩

namespace GoesOn

variable {m m' : Reader β} {f : α → Reader β} {u v rest : List UInt8} {a : α} {b : β}

theorem refl (m : Reader β) (rest : List UInt8) : GoesOn m [] rest m :=
  fun _ trace _ => ⟨trace, rfl⟩

theorem bind {m : Reader α} (hm : ReadsBefore m u (v ++ rest) a) (hf : GoesOn (f a) v rest m') :
    GoesOn (m >>= f) (u ++ v) rest m' := by
  intro front trace hlength
  have hjoin : front ++ (u ++ v) ++ rest = front ++ u ++ (v ++ rest) := by simp
  have hjoin' : front ++ u ++ (v ++ rest) = front ++ u ++ v ++ rest := by simp
  rw [hjoin] at hlength ⊢
  obtain ⟨trace₁, hfirst⟩ := hm front trace hlength
  rw [bind_of_done hfirst]
  rw [hjoin'] at hlength ⊢
  obtain ⟨trace₂, hsecond⟩ := hf (front ++ u) trace₁ hlength
  refine ⟨trace₂, ?_⟩
  rw [List.length_append] at hsecond
  rw [hsecond, List.length_append, Nat.add_assoc]

theorem bind_nil {m : Reader α} (hm : ReadsBefore m [] (v ++ rest) a)
    (hf : GoesOn (f a) v rest m') : GoesOn (m >>= f) v rest m' := bind hm hf

theorem bind_last {m : Reader α} (hm : ReadsBefore m v rest a) (hf : GoesOn (f a) [] rest m') :
    GoesOn (m >>= f) v rest m' := by
  have hboth : GoesOn (m >>= f) (v ++ []) rest m' := bind (by simpa using hm) hf
  simpa using hboth

theorem reads (h : GoesOn m u (v ++ rest) m') (hm : ReadsBefore m' v rest b) :
    ReadsBefore m (u ++ v) rest b := by
  intro front trace hlength
  have hjoin : front ++ (u ++ v) ++ rest = front ++ u ++ (v ++ rest) := by simp
  have hjoin' : front ++ u ++ (v ++ rest) = front ++ u ++ v ++ rest := by simp
  rw [hjoin] at hlength ⊢
  obtain ⟨trace₁, hfirst⟩ := h front trace hlength
  rw [hfirst]
  rw [hjoin'] at hlength ⊢
  obtain ⟨trace₂, hsecond⟩ := hm (front ++ u) trace₁ hlength
  refine ⟨trace₂, ?_⟩
  rw [List.length_append] at hsecond
  rw [hsecond, List.length_append, Nat.add_assoc]

theorem fails (h : GoesOn m u (v ++ rest) m') (hm : FailsBefore m' v rest) :
    FailsBefore m (u ++ v) rest := by
  intro front trace hlength
  have hjoin : front ++ (u ++ v) ++ rest = front ++ u ++ (v ++ rest) := by simp
  have hjoin' : front ++ u ++ (v ++ rest) = front ++ u ++ v ++ rest := by simp
  rw [hjoin] at hlength ⊢
  obtain ⟨trace₁, hfirst⟩ := h front trace hlength
  rw [hfirst]
  rw [hjoin'] at hlength ⊢
  obtain ⟨trace₂, hsecond⟩ := hm (front ++ u) trace₁ hlength
  refine ⟨trace₂, ?_⟩
  rw [List.length_append] at hsecond
  rw [hsecond, List.length_append, Nat.add_assoc]

theorem fallsShort (h : GoesOn m u (v ++ rest) m') (hm : FallsShort m' rest v) :
    FallsShort m rest (u ++ v) := by
  cases hm with
  | @reads u' v' _ hm hv =>
      rw [← List.append_assoc]
      exact .reads (reads (by simpa using h) hm) hv
  | @fails u' v' hm hv =>
      rw [← List.append_assoc]
      exact .fails (fails (by simpa using h) hm) hv

end GoesOn

/-! ### From a known position -/

/-- `ReadsBefore` behind exactly `n` octets. -/
def ReadsFrom (m : Reader α) (n : Nat) (w rest : List UInt8) (a : α) : Prop :=
  ∀ (front : List UInt8) (trace : List Touch), front.length = n →
    (front ++ w ++ rest).length < 2 ^ 31 →
      ∃ trace', m ⟨front ++ w ++ rest, front.length, trace⟩ =
        (.done a, ⟨front ++ w ++ rest, front.length + w.length, trace'⟩)

theorem ReadsBefore.readsFrom {m : Reader α} {w rest : List UInt8} {a : α}
    (h : ReadsBefore m w rest a) (n : Nat) : ReadsFrom m n w rest a :=
  fun front trace _ => h front trace

theorem ReadsBefore.of_readsFrom {m : Reader α} {w rest : List UInt8} {a : α}
    (h : ∀ n, ReadsFrom m n w rest a) : ReadsBefore m w rest a :=
  fun front trace => h front.length front trace rfl

namespace ReadsFrom

variable {m : Reader α} {f : α → Reader β} {u v w rest : List UInt8} {a : α} {b : β} {n : Nat}

theorem bind (hm : ReadsFrom m n u (v ++ rest) a) (hf : ReadsFrom (f a) (n + u.length) v rest b) :
    ReadsFrom (m >>= f) n (u ++ v) rest b := by
  intro front trace hn hlength
  have hjoin : front ++ (u ++ v) ++ rest = front ++ u ++ (v ++ rest) := by simp
  have hjoin' : front ++ u ++ (v ++ rest) = front ++ u ++ v ++ rest := by simp
  rw [hjoin] at hlength ⊢
  obtain ⟨trace₁, hfirst⟩ := hm front trace hn hlength
  rw [bind_of_done hfirst]
  rw [hjoin'] at hlength ⊢
  obtain ⟨trace₂, hsecond⟩ := hf (front ++ u) trace₁ (by rw [List.length_append, hn]) hlength
  refine ⟨trace₂, ?_⟩
  rw [List.length_append] at hsecond
  rw [hsecond, List.length_append, Nat.add_assoc]

theorem bind_nil (hm : ReadsFrom m n [] (w ++ rest) a) (hf : ReadsFrom (f a) n w rest b) :
    ReadsFrom (m >>= f) n w rest b := bind hm hf

theorem bind_last (hm : ReadsFrom m n w rest a)
    (hf : ReadsFrom (f a) (n + w.length) [] rest b) : ReadsFrom (m >>= f) n w rest b := by
  have hboth : ReadsFrom (m >>= f) n (w ++ []) rest b := bind (by simpa using hm) hf
  simpa using hboth

end ReadsFrom

/-- The rounds of a loop that takes `w` before `rest`. Every round but the last takes an
octet or more. -/
inductive Rounds (body : σ → Reader (σ ⊕ α)) (rest : List UInt8) (a : α) :
    σ → List UInt8 → Prop
  | last {s : σ} {w : List UInt8} (h : ReadsBefore (body s) w rest (.inr a)) :
      Rounds body rest a s w
  | next {s s' : σ} {u v : List UInt8} (h : ReadsBefore (body s) u (v ++ rest) (.inl s'))
      (hu : u ≠ []) (hv : Rounds body rest a s' v) : Rounds body rest a s (u ++ v)

theorem Rounds.iterate {body : σ → Reader (σ ⊕ α)} {rest w : List UInt8} {a : α} {s : σ}
    (h : Rounds body rest a s w) (fuel : Nat) (hfuel : w.length < fuel) :
    ReadsBefore (Reader.iterate body fuel s) w rest a := by
  induction h generalizing fuel with
  | last h =>
      obtain ⟨n, rfl⟩ : ∃ n, fuel = n + 1 := ⟨fuel - 1, by omega⟩
      exact ReadsBefore.bind_last h (ReadsBefore.pure a rest)
  | @next s s' u v h hu hv ih =>
      obtain ⟨n, rfl⟩ : ∃ n, fuel = n + 1 := ⟨fuel - 1, by omega⟩
      have hlength : 0 < u.length := List.length_pos_iff.mpr hu
      rw [List.length_append] at hfuel
      exact ReadsBefore.bind h (ih n (by omega))

theorem Rounds.loop {body : σ → Reader (σ ⊕ α)} {rest w : List UInt8} {a : α} {s : σ}
    (h : Rounds body rest a s w) : ReadsBefore (Reader.loop body s) w rest a := by
  intro front trace hlength
  refine h.iterate _ ?_ front trace hlength
  simp only [List.length_append]
  omega

/-! ### What a run took -/

theorem Reader.bind_eq_done {m : Reader α} {f : α → Reader β} {c c'' : Cursor} {b : β} :
    (m >>= f) c = (.done b, c'') ↔
      ∃ a c', m c = (.done a, c') ∧ f a c' = (.done b, c'') := by
  rw [bind_run]
  rcases hm : m c with ⟨outcome, c'⟩
  cases outcome with
  | done a =>
      constructor
      · exact fun hrest => ⟨a, c', rfl, hrest⟩
      · rintro ⟨_, _, hfirst, hrest⟩
        cases hfirst
        exact hrest
  | failed => simp
  | running => simp

theorem Reader.guard_eq_done {p : Prop} [Decidable p] {c c' : Cursor} :
    guard p c = (.done (), c') ↔ p ∧ c' = c := by
  by_cases hp : p
  · rw [guard_of hp, pure_run, Prod.mk.injEq]
    simp [hp, eq_comm]
  · rw [guard_of_not hp]
    simp [hp, Reader.fail]

def Outcome.toOption : Outcome α → Option α
  | .done a => some a
  | _ => none

theorem exists_of_isSome {m : Reader α} {c : Cursor} (h : (m c).1.toOption.isSome = true) :
    ∃ a, m c = (.done a, (m c).2) := by
  rcases hrun : m c with ⟨outcome, c'⟩
  rw [hrun] at h
  cases outcome with
  | done a => exact ⟨a, rfl⟩
  | failed => cases h
  | running => cases h

/-- The octets that are not read yet. -/
def Cursor.ahead (c : Cursor) : List UInt8 := c.octets.drop c.position

theorem Cursor.length_ahead (c : Cursor) : c.ahead.length = c.octets.length - c.position :=
  List.length_drop

theorem Cursor.ahead_eq_nil_iff (c : Cursor) : c.ahead = [] ↔ c.octets.length ≤ c.position :=
  List.drop_eq_nil_iff

theorem Cursor.ahead_eq_cons {c : Cursor} {b : UInt8} {os : List UInt8} (h : c.ahead = b :: os) :
    c.position < c.octets.length ∧ c.octets.getD c.position 0 = b := by
  have hlen := c.length_ahead
  have hget := congrArg (fun os => os[0]?) h
  rw [h, List.length_cons] at hlen
  simp only [Cursor.ahead, List.getElem?_drop, Nat.add_zero, List.getElem?_cons_zero] at hget
  refine ⟨by omega, ?_⟩
  rw [List.getD_eq_getElem?_getD, hget]
  rfl

/-- From `c` to `c'`, the next `k` octets are read. -/
structure Took (c : Cursor) (k : Nat) (c' : Cursor) : Prop where
  same : c'.octets = c.octets
  moved : c'.position = c.position + k
  inside : k ≤ c.ahead.length

namespace Took

variable {c c' c'' : Cursor} {k n : Nat}

theorem refl (c : Cursor) : Took c 0 c := ⟨rfl, rfl, Nat.zero_le _⟩

theorem ahead_eq (h : Took c k c') : c'.ahead = c.ahead.drop k := by
  rw [Cursor.ahead, Cursor.ahead, h.same, h.moved, List.drop_drop]

theorem trans (h : Took c k c') (h' : Took c' n c'') : Took c (k + n) c'' := by
  have hinside := h'.inside
  have hfirst := h.inside
  rw [h.ahead_eq, List.length_drop] at hinside
  refine ⟨by rw [h'.same, h.same], ?_, by omega⟩
  rw [h'.moved, h.moved, Nat.add_assoc]

/-- A position inside the octets stays there. -/
theorem position_le (h : Took c k c') (hc : c.position ≤ c.octets.length) :
    c'.position ≤ c'.octets.length := by
  have hinside := h.inside
  rw [Cursor.length_ahead] at hinside
  rw [h.same, h.moved]
  omega

end Took

/-- A reader that takes `w` wherever it is ahead. -/
theorem ReadsBefore.of_ahead {m : Reader α} {w rest : List UInt8} {a : α}
    (h : ∀ c : Cursor, c.octets.length < 2 ^ 31 → c.ahead = w ++ rest →
      ∃ c', Took c w.length c' ∧ m c = (.done a, c')) : ReadsBefore m w rest a := by
  intro front trace hlength
  have hahead : Cursor.ahead ⟨front ++ w ++ rest, front.length, trace⟩ = w ++ rest := by
    rw [Cursor.ahead, List.append_assoc, List.drop_left]
  rcases h ⟨front ++ w ++ rest, front.length, trace⟩ hlength hahead with
    ⟨⟨octets, position, trace'⟩, htook, hrun⟩
  have hsame : octets = front ++ w ++ rest := htook.same
  have hmoved : position = front.length + w.length := htook.moved
  rw [hsame, hmoved] at hrun
  exact ⟨trace', hrun⟩

theorem ReadsBefore.run {m : Reader α} {w rest : List UInt8} {a : α} (h : ReadsBefore m w rest a)
    {c : Cursor} (hshort : c.octets.length < 2 ^ 31) (hc : c.position ≤ c.octets.length)
    (hahead : c.ahead = w ++ rest) : ∃ c', Took c w.length c' ∧ m c = (.done a, c') := by
  rcases c with ⟨octets, position, trace⟩
  simp only [Cursor.ahead] at hahead hc hshort
  have hsplit : octets.take position ++ w ++ rest = octets := by
    rw [List.append_assoc, ← hahead, List.take_append_drop]
  have hfront : (octets.take position).length = position := by
    rw [List.length_take]
    omega
  rcases h (octets.take position) trace (by rwa [hsplit]) with ⟨trace', hrun⟩
  rw [hsplit, hfront] at hrun
  have hinside : w.length ≤ (octets.drop position).length := by
    rw [hahead, List.length_append]
    omega
  exact ⟨⟨octets, position + w.length, trace'⟩, ⟨rfl, rfl, hinside⟩, hrun⟩

end TelephonySms.OctetReader
