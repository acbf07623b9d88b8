import TelephonySms.OctetReader

/-! # Readers that read alike

Two readers are alike in a relation of their values when they end in the same way at the
same cursor, with related values where they return. What a reader reads does not depend on
a state that it only adds to.
-/

namespace TelephonySms.OctetReader

open Reader

variable {α α' β β' σ σ' : Type}

inductive Outcome.Rel (R : α → α' → Prop) : Outcome α → Outcome α' → Prop
  | done {a : α} {a' : α'} (h : R a a') : Rel R (.done a) (.done a')
  | failed : Rel R .failed .failed
  | running : Rel R .running .running

theorem Outcome.Rel.mono {R R' : α → α' → Prop} {r : Outcome α} {r' : Outcome α'}
    (h : Outcome.Rel R r r') (hR : ∀ a a', R a a' → R' a a') : Outcome.Rel R' r r' := by
  cases h with
  | done ha => exact .done (hR _ _ ha)
  | failed => exact .failed
  | running => exact .running

def Alike (R : α → α' → Prop) (m : Reader α) (m' : Reader α') : Prop :=
  ∀ c, Outcome.Rel R (m c).1 (m' c).1 ∧ (m c).2 = (m' c).2

namespace Alike

variable {R : α → α' → Prop} {S : β → β' → Prop} {m : Reader α} {m' : Reader α'}
variable {f : α → Reader β} {f' : α' → Reader β'}

theorem pure {a : α} {a' : α'} (h : R a a') :
    Alike R (Pure.pure a : Reader α) (Pure.pure a' : Reader α') :=
  fun _ => ⟨.done h, rfl⟩

/-- A reader is like itself. -/
theorem refl (m : Reader α) : Alike Eq m m := by
  intro c
  refine ⟨?_, rfl⟩
  cases (m c).1 with
  | done a => exact .done rfl
  | failed => exact .failed
  | running => exact .running

theorem fail : Alike R (Reader.fail : Reader α) (Reader.fail : Reader α') :=
  fun _ => ⟨.failed, rfl⟩

theorem mono {R' : α → α' → Prop} (h : Alike R m m') (hR : ∀ a a', R a a' → R' a a') :
    Alike R' m m' := by
  intro c
  exact ⟨(h c).1.mono hR, (h c).2⟩

theorem bind (hm : Alike R m m') (hf : ∀ a a', R a a' → Alike S (f a) (f' a')) :
    Alike S (m >>= f) (m' >>= f') := by
  intro c
  rcases hm c with ⟨hrel, hcursor⟩
  rw [bind_run, bind_run]
  rcases hrun : m c with ⟨r, c₁⟩
  rcases hrun' : m' c with ⟨r', c₁'⟩
  rw [hrun, hrun'] at hrel hcursor
  obtain rfl : c₁ = c₁' := hcursor
  cases hrel with
  | done ha => exact hf _ _ ha c₁
  | failed => exact ⟨.failed, rfl⟩
  | running => exact ⟨.running, rfl⟩

/-- What stands before is the same reader. -/
theorem bind_same {γ : Type} (m : Reader γ) {f : γ → Reader β} {f' : γ → Reader β'}
    (hf : ∀ a, Alike S (f a) (f' a)) : Alike S (m >>= f) (m >>= f') := by
  apply bind (refl m)
  rintro a _ rfl
  exact hf a

theorem ite {p : Prop} [Decidable p] {n : Reader α} {n' : Reader α'} (hm : Alike R m m')
    (hn : Alike R n n') : Alike R (if p then m else n) (if p then m' else n') := by
  split
  · exact hm
  · exact hn

theorem attempt (hm : Alike R m m') :
    Alike (Option.Rel R) (Reader.attempt m) (Reader.attempt m') := by
  intro c
  rcases hm c with ⟨hrel, hcursor⟩
  rw [Reader.attempt, Reader.attempt]
  rcases hrun : m c with ⟨r, c₁⟩
  rcases hrun' : m' c with ⟨r', c₁'⟩
  rw [hrun, hrun'] at hrel hcursor
  cases hrel with
  | done ha => exact ⟨.done (.some ha), hcursor⟩
  | failed => exact ⟨.done .none, hcursor⟩
  | running => exact ⟨.running, hcursor⟩

theorem iterate {T : σ → σ' → Prop} {body : σ → Reader (σ ⊕ α)} {body' : σ' → Reader (σ' ⊕ α')}
    (hbody : ∀ s s', T s s' → Alike (Sum.LiftRel T R) (body s) (body' s')) (fuel : Nat)
    {s : σ} {s' : σ'} (hs : T s s') :
    Alike R (Reader.iterate body fuel s) (Reader.iterate body' fuel s') := by
  induction fuel generalizing s s' with
  | zero => exact fun _ => ⟨.running, rfl⟩
  | succ fuel ih =>
      apply bind (hbody s s' hs)
      intro r r' hr
      cases hr with
      | inl hnext => exact ih hnext
      | inr ha => exact pure ha

theorem loop {T : σ → σ' → Prop} {body : σ → Reader (σ ⊕ α)} {body' : σ' → Reader (σ' ⊕ α')}
    (hbody : ∀ s s', T s s' → Alike (Sum.LiftRel T R) (body s) (body' s'))
    {s : σ} {s' : σ'} (hs : T s s') : Alike R (Reader.loop body s) (Reader.loop body' s') :=
  fun c => iterate hbody (c.octets.length + 1) hs c

end Alike

end TelephonySms.OctetReader
