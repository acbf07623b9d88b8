import Mathlib.Data.List.Basic
import Mathlib.Data.Option.NAry

/-! # Actions that can fail

An action changes a state and returns a value or fails. What it changed before it failed
stays changed. An action on a growing octet string appends octets as long as they fit
below a limit.
-/

namespace TelephonySms

def Action (σ α : Type) := σ → Option α × σ

namespace Action

variable {σ τ α β : Type}

protected def pure (a : α) : Action σ α := fun s => (some a, s)

protected def bind (m : Action σ α) (f : α → Action σ β) : Action σ β := fun s =>
  match m s with
  | (some a, s') => f a s'
  | (none, s') => (none, s')

instance : Monad (Action σ) where
  pure := Action.pure
  bind := Action.bind

def fail : Action σ α := fun s => (none, s)

def guard (p : Prop) [Decidable p] : Action σ Unit := if p then pure () else fail

/-- A call whose result is not looked at. -/
def attempt (m : Action σ α) : Action σ Unit := fun s => (some (), (m s).2)

def get : Action σ σ := fun s => (some s, s)

def modify (f : σ → σ) : Action σ Unit := fun s => (some (), f s)

/-- An action on the second component. -/
def onSnd (m : Action τ α) : Action (σ × τ) α := fun s => ((m s.2).1, (s.1, (m s.2).2))

def forEach (f : β → Action σ Unit) : List β → Action σ Unit
  | [] => pure ()
  | b :: bs => do
      f b
      forEach f bs

@[simp] theorem pure_run (a : α) (s : σ) : (pure a : Action σ α) s = (some a, s) := rfl

theorem bind_run (m : Action σ α) (f : α → Action σ β) (s : σ) :
    (m >>= f) s = match m s with
      | (some a, s') => f a s'
      | (none, s') => (none, s') := rfl

theorem bind_of_some {m : Action σ α} {s s' : σ} {a : α} (h : m s = (some a, s'))
    (f : α → Action σ β) : (m >>= f) s = f a s' := by
  rw [bind_run, h]

theorem bind_of_none {m : Action σ α} {s s' : σ} (h : m s = (none, s'))
    (f : α → Action σ β) : (m >>= f) s = (none, s') := by
  rw [bind_run, h]

theorem bind_eq_some {m : Action σ α} {f : α → Action σ β} {s s' : σ} {b : β}
    (h : (m >>= f) s = (some b, s')) :
    ∃ a s₁, m s = (some a, s₁) ∧ f a s₁ = (some b, s') := by
  rw [bind_run] at h
  split at h
  · next a s₁ hrun => exact ⟨a, s₁, hrun, h⟩
  · simp at h

theorem bind_assoc {γ : Type} (m : Action σ α) (f : α → Action σ β) (g : β → Action σ γ) :
    m >>= f >>= g = m >>= fun a => f a >>= g := by
  funext s
  simp only [bind_run]
  cases hrun : m s with
  | mk r s' => cases r <;> rfl

theorem bind_pure_unit (m : Action σ Unit) : (m >>= fun _ => pure ()) = m := by
  funext s
  rw [bind_run]
  cases hrun : m s with
  | mk r s' => cases r <;> rfl

@[simp] theorem pure_bind_run (a : α) (f : α → Action σ β) (s : σ) :
    ((pure a : Action σ α) >>= f) s = f a s := rfl

@[simp] theorem fail_run (s : σ) : (fail : Action σ α) s = (none, s) := rfl

@[simp] theorem fail_bind_run (f : α → Action σ β) (s : σ) :
    ((fail : Action σ α) >>= f) s = (none, s) := rfl

@[simp] theorem modify_run (f : σ → σ) (s : σ) : modify f s = (some (), f s) := rfl

@[simp] theorem attempt_run (m : Action σ α) (s : σ) : attempt m s = (some (), (m s).2) := rfl

@[simp] theorem onSnd_run (m : Action τ α) (s : σ × τ) :
    onSnd m s = ((m s.2).1, (s.1, (m s.2).2)) := rfl

theorem onSnd_bind (m : Action τ α) (f : α → Action τ β) :
    (onSnd (m >>= f) : Action (σ × τ) β) = onSnd m >>= fun a => onSnd (f a) := by
  funext s
  simp only [onSnd_run, bind_run]
  cases hrun : m s.2 with
  | mk r s' => cases r <;> rfl

@[simp] theorem get_bind (f : σ → Action σ β) (s : σ) : (get >>= f) s = f s s := rfl

theorem guard_of {p : Prop} [Decidable p] (h : p) : (guard p : Action σ Unit) = pure () :=
  if_pos h

theorem guard_of_not {p : Prop} [Decidable p] (h : ¬ p) : (guard p : Action σ Unit) = fail :=
  if_neg h

end Action

/-- Below the limit, the action appends exactly `w`. -/
def Appends (limit : Nat) (m : Action (List UInt8) Unit) (w : List UInt8) : Prop :=
  ∀ buffer, buffer.length + w.length < limit → m buffer = (some (), buffer ++ w)

namespace Appends

variable {limit : Nat} {m n : Action (List UInt8) Unit} {u v w : List UInt8}

theorem pure : Appends limit (Pure.pure ()) [] := by
  intro buffer _
  simp

theorem bind (hm : Appends limit m u) (hn : Appends limit n v) :
    Appends limit (m >>= fun _ => n) (u ++ v) := by
  intro buffer hfits
  rw [List.length_append] at hfits
  rw [Action.bind_of_some (hm buffer (by omega))]
  rw [hn (buffer ++ u) (by rw [List.length_append]; omega), List.append_assoc]

theorem attempt (hm : Appends limit m w) : Appends limit (Action.attempt m) w := by
  intro buffer hfits
  rw [Action.attempt, hm buffer hfits]

theorem guard {p : Prop} [Decidable p] (h : p) : Appends limit (Action.guard p) [] := by
  rw [Action.guard_of h]
  exact pure

theorem forEach {β : Type} {f : β → Action (List UInt8) Unit} {wire : β → List UInt8}
    (bs : List β) (h : ∀ b ∈ bs, Appends limit (f b) (wire b)) :
    Appends limit (Action.forEach f bs) (bs.flatMap wire) := by
  induction bs with
  | nil => exact pure
  | cons b bs ih =>
      rw [List.flatMap_cons]
      exact bind (h b (by simp)) (ih fun b' hb' => h b' (by simp [hb']))

end Appends

/-- Where the action succeeds it has appended exactly `w`. -/
def Emits (m : Action (List UInt8) Unit) (w : List UInt8) : Prop :=
  ∀ buffer buffer', m buffer = (some (), buffer') → buffer' = buffer ++ w

namespace Emits

variable {m n : Action (List UInt8) Unit} {u v w : List UInt8}

theorem pure : Emits (Pure.pure ()) [] := by
  intro buffer buffer' h
  simpa using h.symm

theorem fail : Emits Action.fail w := by
  intro buffer buffer' h
  simp at h

theorem guard (p : Prop) [Decidable p] : Emits (Action.guard p) [] := by
  unfold Action.guard
  split
  · exact pure
  · exact fail

theorem bind (hm : Emits m u) (hn : Emits n v) : Emits (m >>= fun _ => n) (u ++ v) := by
  intro buffer buffer' h
  rw [Action.bind_run] at h
  split at h
  · next _ b hrun =>
      rw [hn b buffer' h, hm buffer b hrun, List.append_assoc]
  · simp at h

theorem forEach {β : Type} {f : β → Action (List UInt8) Unit} {wire : β → List UInt8}
    (bs : List β) (h : ∀ b ∈ bs, Emits (f b) (wire b)) :
    Emits (Action.forEach f bs) (bs.flatMap wire) := by
  induction bs with
  | nil => exact pure
  | cons b bs ih =>
      rw [List.flatMap_cons]
      exact bind (h b (by simp)) (ih fun b' hb' => h b' (by simp [hb']))

end Emits

/-- Where the action fails, the octets have reached the limit. -/
def FailsFull (limit : Nat) (m : Action (List UInt8) Unit) : Prop :=
  ∀ buffer buffer', m buffer = (none, buffer') → limit ≤ buffer'.length

namespace FailsFull

variable {limit : Nat} {m n : Action (List UInt8) Unit}

theorem pure : FailsFull limit (Pure.pure ()) := by
  intro buffer buffer' h
  simp at h

theorem bind (hm : FailsFull limit m) (hn : FailsFull limit n) :
    FailsFull limit (m >>= fun _ => n) := by
  intro buffer buffer' h
  rw [Action.bind_run] at h
  split at h
  · next _ b hrun => exact hn b buffer' h
  · next b hrun =>
      simp only [Prod.mk.injEq, true_and] at h
      subst h
      exact hm buffer b hrun

theorem forEach {β : Type} {f : β → Action (List UInt8) Unit} (bs : List β)
    (h : ∀ b ∈ bs, FailsFull limit (f b)) : FailsFull limit (Action.forEach f bs) := by
  induction bs with
  | nil => exact pure
  | cons b bs ih => exact bind (h b (by simp)) (ih fun b' hb' => h b' (by simp [hb']))

end FailsFull

/-- The action writes exactly the octets that are given, or it always fails. -/
def Produces (limit : Nat) (m : Action (List UInt8) Unit) : Option (List UInt8) → Prop
  | some w => Appends limit m w ∧ Emits m w
  | none => ∀ buffer, (m buffer).1 = none

theorem Produces.bind {limit : Nat} {m n : Action (List UInt8) Unit} {u v : Option (List UInt8)}
    (hm : Produces limit m u) (hn : Produces limit n v) :
    Produces limit (m >>= fun _ => n) (Option.map₂ (· ++ ·) u v) := by
  cases u with
  | none =>
      intro buffer
      have hfails := hm buffer
      rw [Action.bind_run]
      split
      · next _ b hrun => simp [hrun] at hfails
      · rfl
  | some u =>
      cases v with
      | none =>
          intro buffer
          rw [Action.bind_run]
          split
          · exact hn _
          · rfl
      | some v => exact ⟨Appends.bind hm.1 hn.1, Emits.bind hm.2 hn.2⟩

theorem Produces.pure {limit : Nat} : Produces limit (Pure.pure ()) (some []) :=
  ⟨Appends.pure, Emits.pure⟩

theorem Produces.forEach {limit : Nat} {β : Type} {f : β → Action (List UInt8) Unit}
    {wire : β → List UInt8} (bs : List β) (h : ∀ b ∈ bs, Produces limit (f b) (some (wire b))) :
    Produces limit (Action.forEach f bs) (some (bs.flatMap wire)) :=
  ⟨Appends.forEach bs fun b hb => (h b hb).1, Emits.forEach bs fun b hb => (h b hb).2⟩

/-- As `Produces`, and where the action fails it has written nothing. -/
def Renders (limit : Nat) (m : Action (List UInt8) Unit) : Option (List UInt8) → Prop
  | some w => Appends limit m w ∧ Emits m w
  | none => ∀ buffer, m buffer = (none, buffer)

namespace Renders

variable {limit : Nat} {m : Action (List UInt8) Unit} {o : Option (List UInt8)}

theorem fail : Renders limit Action.fail none := fun _ => rfl

theorem produces (h : Renders limit m o) : Produces limit m o := by
  cases o with
  | some w => exact h
  | none =>
      intro buffer
      rw [h buffer]

theorem attempt (h : Renders limit m o) : Appends limit (Action.attempt m) (o.getD []) := by
  cases o with
  | some w => exact Appends.attempt h.1
  | none =>
      intro buffer _
      rw [Action.attempt, h buffer]
      simp

end Renders

end TelephonySms
