import TelephonySms.Plan

/-! # Scripts

A script is a list of plans that must succeed or may fail. A run of a script on a limited
buffer is all or nothing when it fails or leaves what a buffer without a limit would hold.
Whether it is depends on the lengths of what the plans write, and on nothing else.
-/

namespace TelephonySms

open Action

inductive Step where
  /-- a plan that has to succeed -/
  | must (p : Plan)
  /-- a plan whose result is not looked at -/
  | may (p : Plan)

def Step.run (limit : Option Nat) : Step → Action (List UInt8) Unit
  | .must p => p.run limit
  | .may p => attempt (p.run limit)

def Step.plan : Step → Plan
  | .must p => p
  | .may p => p

namespace Script

def run (limit : Option Nat) (steps : List Step) : Action (List UInt8) Unit :=
  forEach (Step.run limit) steps

theorem run_cons (limit : Option Nat) (step : Step) (steps : List Step) :
    run limit (step :: steps) = (step.run limit >>= fun _ => run limit steps) := rfl

theorem run_append (limit : Option Nat) (steps steps' : List Step) :
    run limit (steps ++ steps') = (run limit steps >>= fun _ => run limit steps') := by
  induction steps with
  | nil => rfl
  | cons step steps ih => rw [List.cons_append, run_cons, run_cons, ih, Action.bind_assoc]

/-- A plan that may fail either refuses at once or can write its octets. -/
def Tidy (steps : List Step) : Prop :=
  ∀ p, Step.may p ∈ steps → p.wire = none → p = .refuse

theorem Tidy.tail {step : Step} {steps : List Step} (h : Tidy (step :: steps)) : Tidy steps :=
  fun p hp => h p (List.mem_cons_of_mem _ hp)

/-- The script gets to its end on a buffer with the limit in which there are `n` octets. -/
def Passes (l : Nat) : Nat → List Step → Prop
  | _, [] => True
  | n, .must p :: steps => (p.wire.isSome = true ∧ n + p.need ≤ l) ∧ Passes l (n + p.size) steps
  | n, .may p :: steps =>
      Passes l (if n + p.need ≤ l then n + p.size else p.left l n) steps

def decidePasses (l : Nat) : (n : Nat) → (steps : List Step) → Decidable (Passes l n steps)
  | _, [] => isTrue trivial
  | n, .must p :: steps =>
      have := decidePasses l (n + p.size) steps
      inferInstanceAs (Decidable ((p.wire.isSome = true ∧ n + p.need ≤ l) ∧
        Passes l (n + p.size) steps))
  | n, .may p :: steps =>
      decidePasses l (if n + p.need ≤ l then n + p.size else p.left l n) steps

instance (l n : Nat) (steps : List Step) : Decidable (Passes l n steps) := decidePasses l n steps

/-- The first plan that may fail and does not fit is followed by one that must succeed and
does not, if the script gets so far. -/
def Settled (l : Nat) : Nat → List Step → Prop
  | _, [] => True
  | n, .must p :: steps => p.wire.isSome = true → n + p.need ≤ l → Settled l (n + p.size) steps
  | n, .may p :: steps =>
      if n + p.need ≤ l then Settled l (n + p.size) steps else ¬ Passes l (p.left l n) steps

/-- Where the script succeeds on a buffer with the limit, it has written what it writes on a
buffer without one. -/
def AllOrNothing (l : Nat) (steps : List Step) (buffer : List UInt8) : Prop :=
  ∀ buffer', run (some l) steps buffer = (some (), buffer') →
    run none steps buffer = (some (), buffer')

theorem settled_must_octets {l n : Nat} {w : List UInt8} {steps : List Step}
    (h : n + w.length ≤ l) :
    Settled l n (.must (.octets w) :: steps) ↔ Settled l (n + w.length) steps := by
  rw [Settled]
  constructor
  · intro hsettled
    exact hsettled rfl h
  · intro hrest _ _
    exact hrest

theorem settled_may_of {l n : Nat} {p : Plan} {steps : List Step} (h : n + p.need ≤ l) :
    Settled l n (.may p :: steps) ↔ Settled l (n + p.size) steps := by
  rw [Settled, if_pos h]

theorem settled_may_of_not {l n : Nat} {p : Plan} {steps : List Step} (h : ¬ n + p.need ≤ l) :
    Settled l n (.may p :: steps) ↔ ¬ Passes l (p.left l n) steps := by
  rw [Settled, if_neg h]

/-- What a plan that may fail makes of a buffer with the limit. -/
theorem may_run {l : Nat} {p : Plan} (htidy : p.wire = none → p = .refuse)
    {buffer : List UInt8} (h : buffer.length ≤ l) :
    ∃ v, Step.run (some l) (.may p) buffer = (some (), buffer ++ v) ∧
      (buffer ++ v).length ≤ l ∧
      (buffer.length + p.need ≤ l → v = p.wire.getD []) ∧
      (¬ buffer.length + p.need ≤ l → v.length < p.size ∧
        buffer.length + v.length = p.left l buffer.length) := by
  cases hwire : p.wire with
  | none =>
      rw [htidy hwire]
      refine ⟨[], ?_⟩
      rw [List.append_nil]
      exact ⟨rfl, h, fun _ => rfl, fun hfull => absurd h hfull⟩
  | some w =>
      have hsettles := p.run_settles l hwire buffer h
      by_cases hfits : buffer.length + p.need ≤ l
      · have hle := p.length_le_need hwire
        refine ⟨w, ?_, ?_, fun _ => rfl, fun hfull => absurd hfits hfull⟩
        · rw [Step.run, attempt_run, hsettles.1 hfits]
        · rw [List.length_append]
          omega
      · rcases hsettles.2 hfits with ⟨v, hv, hshort, hleft⟩
        refine ⟨v, ?_, ?_, fun hroom => absurd hroom hfits, fun _ => ⟨?_, hleft⟩⟩
        · rw [Step.run, attempt_run, hv]
        · rw [List.length_append, hleft]
          exact p.left_le hwire h
        · rw [Plan.size_of_wire hwire]
          exact hshort

theorem may_run_none {p : Plan} (htidy : p.wire = none → p = .refuse) (buffer : List UInt8) :
    Step.run none (.may p) buffer = (some (), buffer ++ p.wire.getD []) := by
  cases hwire : p.wire with
  | none =>
      rw [htidy hwire, Option.getD_none, List.append_nil]
      rfl
  | some w =>
      rw [Step.run, attempt_run, p.run_none hwire]
      rfl

theorem must_run_none {p : Plan} {w : List UInt8} (hwire : p.wire = some w)
    (buffer : List UInt8) : Step.run none (.must p) buffer = (some (), buffer ++ w) :=
  p.run_none hwire buffer

/-- A plan that must succeed fits, or it ends the script. -/
theorem must_run {l : Nat} (p : Plan) {buffer : List UInt8} (h : buffer.length ≤ l) :
    ((p.wire.isSome = true ∧ buffer.length + p.need ≤ l) ∧
      ∃ w, p.wire = some w ∧
        Step.run (some l) (.must p) buffer = (some (), buffer ++ w)) ∨
    (¬ (p.wire.isSome = true ∧ buffer.length + p.need ≤ l) ∧
      (Step.run (some l) (.must p) buffer).1 = none) := by
  cases hwire : p.wire with
  | none => exact .inr ⟨by simp, p.run_of_wire_none (some l) hwire buffer⟩
  | some w =>
      have hsettles := p.run_settles l hwire buffer h
      by_cases hfits : buffer.length + p.need ≤ l
      · exact .inl ⟨⟨rfl, hfits⟩, w, rfl, hsettles.1 hfits⟩
      · rcases hsettles.2 hfits with ⟨v, hv, _, _⟩
        refine .inr ⟨fun hboth => hfits hboth.2, ?_⟩
        rw [Step.run, hv]

theorem passes_iff {l : Nat} {steps : List Step} (htidy : Tidy steps) {buffer : List UInt8}
    (h : buffer.length ≤ l) :
    (run (some l) steps buffer).1 = some () ↔ Passes l buffer.length steps := by
  induction steps generalizing buffer with
  | nil => exact iff_of_true rfl trivial
  | cons step steps ih =>
      rw [run_cons]
      cases step with
      | must p =>
          rcases must_run p h with ⟨hgood, w, hwire, hrun⟩ | ⟨hbad, hrun⟩
          · have hle := p.length_le_need hwire
            have hlen : (buffer ++ w).length = buffer.length + p.size := by
              rw [List.length_append, Plan.size_of_wire hwire]
            have hroom : (buffer ++ w).length ≤ l := by
              rw [List.length_append]
              omega
            rw [bind_of_some hrun, ih htidy.tail hroom, hlen, Passes]
            exact (and_iff_right hgood).symm
          · rw [bind_run]
            refine iff_of_false ?_ fun hpasses => hbad hpasses.1
            split
            · rename_i heq
              rw [heq] at hrun
              cases hrun
            · intro hnone
              cases hnone
      | may p =>
          rcases may_run (htidy p (by simp)) h with ⟨v, hrun, hle, hfits, hfull⟩
          have hlen : (buffer ++ v).length =
              if buffer.length + p.need ≤ l then buffer.length + p.size
              else p.left l buffer.length := by
            rw [List.length_append]
            split
            · rename_i hroom
              rw [hfits hroom, Plan.size]
            · rename_i hroom
              exact (hfull hroom).2
          rw [bind_of_some hrun, ih htidy.tail hle, hlen, Passes]

/-- What is missing in a limited buffer is not made up for later. -/
theorem length_lt_of_length_lt {l : Nat} {steps : List Step} (htidy : Tidy steps)
    {buffer buffer' x y : List UInt8} (h : buffer.length ≤ l) (hlt : buffer.length < buffer'.length)
    (hlimited : run (some l) steps buffer = (some (), x))
    (hunlimited : run none steps buffer' = (some (), y)) : x.length < y.length := by
  induction steps generalizing buffer buffer' with
  | nil =>
      rw [← (Prod.mk.inj hlimited).2, ← (Prod.mk.inj hunlimited).2]
      exact hlt
  | cons step steps ih =>
      rw [run_cons] at hlimited hunlimited
      cases step with
      | must p =>
          rcases must_run p h with ⟨hgood, w, hwire, hrun⟩ | ⟨_, hrun⟩
          · have hle := p.length_le_need hwire
            have hroom : (buffer ++ w).length ≤ l := by
              rw [List.length_append]
              omega
            have hboth : (buffer ++ w).length < (buffer' ++ w).length := by
              rw [List.length_append, List.length_append]
              omega
            rw [bind_of_some hrun] at hlimited
            rw [bind_of_some (must_run_none hwire buffer')] at hunlimited
            exact ih htidy.tail hroom hboth hlimited hunlimited
          · rcases bind_eq_some hlimited with ⟨_, b, hfirst, _⟩
            rw [hfirst] at hrun
            cases hrun
      | may p =>
          have hp := htidy p (by simp)
          rcases may_run hp h with ⟨v, hrun, hroom, hfits, hfull⟩
          have hshort : v.length ≤ (p.wire.getD []).length := by
            by_cases hneed : buffer.length + p.need ≤ l
            · exact Nat.le_of_eq (congrArg List.length (hfits hneed))
            · exact Nat.le_of_lt (hfull hneed).1
          have hboth : (buffer ++ v).length < (buffer' ++ p.wire.getD []).length := by
            rw [List.length_append, List.length_append]
            omega
          rw [bind_of_some hrun] at hlimited
          rw [bind_of_some (may_run_none hp buffer')] at hunlimited
          exact ih htidy.tail hroom hboth hlimited hunlimited

/-- Behind a buffer that falls short only a script that fails is all or nothing. -/
theorem allOrNothing_behind_short {l : Nat} {steps : List Step} (htidy : Tidy steps)
    {buffer buffer' : List UInt8} (h : buffer.length ≤ l)
    (hlt : buffer.length < buffer'.length) :
    (∀ x, run (some l) steps buffer = (some (), x) → run none steps buffer' = (some (), x)) ↔
      ¬ Passes l buffer.length steps := by
  rw [← passes_iff htidy h]
  constructor
  · intro hall hsome
    have hlimited : run (some l) steps buffer =
        (some (), (run (some l) steps buffer).2) := by
      rw [← hsome]
    have hless := length_lt_of_length_lt htidy h hlt hlimited (hall _ hlimited)
    exact Nat.lt_irrefl _ hless
  · intro hfails x hlimited
    rw [hlimited] at hfails
    exact absurd rfl hfails

/-- A script is all or nothing exactly when it settles. -/
theorem allOrNothing_iff {l : Nat} {steps : List Step} (htidy : Tidy steps)
    {buffer : List UInt8} (h : buffer.length ≤ l) :
    AllOrNothing l steps buffer ↔ Settled l buffer.length steps := by
  induction steps generalizing buffer with
  | nil => exact iff_of_true (fun _ hrun => hrun) trivial
  | cons step steps ih =>
      rw [AllOrNothing, run_cons, run_cons]
      cases step with
      | must p =>
          rcases must_run p h with ⟨hgood, w, hwire, hrun⟩ | ⟨hbad, hrun⟩
          · have hle := p.length_le_need hwire
            have hlen : (buffer ++ w).length = buffer.length + p.size := by
              rw [List.length_append, Plan.size_of_wire hwire]
            have hroom : (buffer ++ w).length ≤ l := by
              rw [List.length_append]
              omega
            have hrest := ih htidy.tail hroom
            rw [hlen] at hrest
            rw [bind_of_some hrun, bind_of_some (must_run_none hwire buffer), Settled,
              imp_iff_right hgood.1, imp_iff_right hgood.2]
            exact hrest
          · refine iff_of_true ?_ fun hwire hfits => absurd ⟨hwire, hfits⟩ hbad
            intro buffer' hall
            rcases bind_eq_some hall with ⟨_, b, hfirst, _⟩
            rw [hfirst] at hrun
            cases hrun
      | may p =>
          have hp := htidy p (by simp)
          rcases may_run hp h with ⟨v, hrun, hroom, hfits, hfull⟩
          rw [bind_of_some hrun, bind_of_some (may_run_none hp buffer), Settled]
          by_cases hneed : buffer.length + p.need ≤ l
          · have hlen : (buffer ++ v).length = buffer.length + p.size := by
              rw [List.length_append, hfits hneed, Plan.size]
            have hrest := ih htidy.tail hroom
            rw [hlen, hfits hneed] at hrest
            rw [if_pos hneed, hfits hneed]
            exact hrest
          · rcases hfull hneed with ⟨hshort, hleft⟩
            have hlen : (buffer ++ v).length = p.left l buffer.length := by
              rw [List.length_append, hleft]
            have hlt : (buffer ++ v).length < (buffer ++ p.wire.getD []).length := by
              rw [List.length_append, List.length_append]
              exact Nat.add_lt_add_left hshort _
            rw [if_neg hneed, ← hlen]
            exact allOrNothing_behind_short htidy.tail hroom hlt

/-! ## The octets of a script -/

/-- What the plans write where there is room for all of them. -/
def wire (steps : List Step) : List UInt8 := steps.flatMap fun step => step.plan.wire.getD []

theorem wire_cons (step : Step) (steps : List Step) :
    wire (step :: steps) = step.plan.wire.getD [] ++ wire steps := rfl

theorem wire_append (steps steps' : List Step) :
    wire (steps ++ steps') = wire steps ++ wire steps' :=
  List.flatMap_append

/-- A script that gets to its end without a limit has written its octets. -/
theorem run_none_wire {steps : List Step} (htidy : Tidy steps) {buffer buffer' : List UInt8}
    (h : run none steps buffer = (some (), buffer')) : buffer' = buffer ++ wire steps := by
  induction steps generalizing buffer with
  | nil =>
      cases h
      exact (List.append_nil _).symm
  | cons step steps ih =>
      rw [run_cons] at h
      cases step with
      | must p =>
          cases hwire : p.wire with
          | none =>
              have hfails : (Step.run none (.must p) buffer).1 = none :=
                p.run_of_wire_none none hwire buffer
              rcases bind_eq_some h with ⟨_, b, hfirst, _⟩
              rw [hfirst] at hfails
              cases hfails
          | some w =>
              rw [bind_of_some (must_run_none hwire buffer)] at h
              rw [ih htidy.tail h, wire_cons, Step.plan, hwire, List.append_assoc]
              rfl
      | may p =>
          rw [bind_of_some (may_run_none (htidy p (by simp)) buffer)] at h
          rw [ih htidy.tail h, wire_cons, Step.plan, List.append_assoc]

/-- Where a script gets to its end, every plan that has to succeed has octets. -/
theorem must_wire_of_run {limit : Option Nat} {steps : List Step} {buffer buffer' : List UInt8}
    (h : run limit steps buffer = (some (), buffer')) {p : Plan} (hp : Step.must p ∈ steps) :
    p.wire ≠ none := by
  intro hwire
  induction steps generalizing buffer with
  | nil => cases hp
  | cons step steps ih =>
      rw [run_cons] at h
      rcases bind_eq_some h with ⟨_, b, hfirst, hrest⟩
      rcases List.mem_cons.1 hp with heq | hmem
      · subst heq
        have hfails : (Step.run limit (.must p) buffer).1 = none :=
          p.run_of_wire_none limit hwire buffer
        rw [hfirst] at hfails
        cases hfails
      · exact ih hrest hmem

/-- With one octet to spare the limit is of no account. -/
theorem run_of_room {l : Nat} {steps : List Step} (htidy : Tidy steps) {buffer : List UInt8}
    (hmust : ∀ p, Step.must p ∈ steps → p.wire ≠ none)
    (hroom : (buffer ++ wire steps).length < l) :
    run (some l) steps buffer = (some (), buffer ++ wire steps) := by
  induction steps generalizing buffer with
  | nil => rw [wire, List.flatMap_nil, List.append_nil]; rfl
  | cons step steps ih =>
      rw [wire_cons, List.length_append, List.length_append] at hroom
      have hshort : buffer.length ≤ l := by omega
      have hfirst : Step.run (some l) step buffer =
          (some (), buffer ++ step.plan.wire.getD []) := by
        cases step with
        | must p =>
            cases hwire : p.wire with
            | none => exact absurd hwire (hmust p List.mem_cons_self)
            | some w =>
                have hneed := p.need_le hwire
                simp only [Step.plan, hwire, Option.getD_some] at hroom ⊢
                exact (p.run_settles l hwire buffer hshort).1 (by omega)
        | may p =>
            rcases may_run (htidy p List.mem_cons_self) hshort with ⟨v, hrun, -, hfits, -⟩
            have hneed : p.need ≤ (p.wire.getD []).length + 1 := by
              cases hwire : p.wire with
              | none =>
                  rw [htidy p List.mem_cons_self hwire]
                  exact Nat.zero_le _
              | some w => exact p.need_le hwire
            simp only [Step.plan] at hroom ⊢
            rw [hrun, hfits (by omega)]
      rw [run_cons, bind_of_some hfirst, ih htidy.tail, wire_cons, List.append_assoc]
      · exact fun p hp => hmust p (List.mem_cons_of_mem _ hp)
      · rw [List.length_append, List.length_append]
        omega

/-- A script never writes past the limit. -/
theorem length_le_of_run {l : Nat} {steps : List Step} (htidy : Tidy steps)
    {buffer buffer' : List UInt8} (h : buffer.length ≤ l)
    (hrun : run (some l) steps buffer = (some (), buffer')) : buffer'.length ≤ l := by
  induction steps generalizing buffer with
  | nil =>
      cases hrun
      exact h
  | cons step steps ih =>
      rw [run_cons] at hrun
      cases step with
      | must p =>
          rcases must_run p h with ⟨hgood, w, hwire, hfirst⟩ | ⟨_, hfirst⟩
          · have hle := p.length_le_need hwire
            have hroom : (buffer ++ w).length ≤ l := by
              rw [List.length_append]
              omega
            rw [bind_of_some hfirst] at hrun
            exact ih htidy.tail hroom hrun
          · rcases bind_eq_some hrun with ⟨_, b, hfails, _⟩
            rw [hfails] at hfirst
            cases hfirst
      | may p =>
          rcases may_run (htidy p (by simp)) h with ⟨v, hfirst, hroom, -, -⟩
          rw [bind_of_some hfirst] at hrun
          exact ih htidy.tail hroom hrun

end Script

end TelephonySms
