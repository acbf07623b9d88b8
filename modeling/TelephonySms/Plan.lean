import TelephonySms.Action

/-! # Plans of what is written

A plan says what is written to a buffer: single octets, a block that is copied at once, a
part that is first written to a buffer of its own and then copied behind a head that
depends on it. It runs on buffers with a limit and on buffers without one. The room that a
plan needs, and how far it gets where there is not enough, depend on lengths only.
-/

namespace TelephonySms

open Action

/-- Below the limit, where there is one. -/
def Within (limit : Option Nat) (n : Nat) : Prop := ∀ l ∈ limit, n < l

instance (limit : Option Nat) (n : Nat) : Decidable (Within limit n) :=
  inferInstanceAs (Decidable (∀ l ∈ limit, n < l))

theorem within_none (n : Nat) : Within none n := by
  intro l hl
  cases hl

theorem within_some {l n : Nat} : Within (some l) n ↔ n < l := by
  constructor
  · exact fun h => h l rfl
  · intro h l' hl'
    rw [← Option.some.inj hl']
    exact h

def put (limit : Option Nat) (b : UInt8) : Action (List UInt8) Unit := do
  let buffer ← get
  guard (Within limit buffer.length)
  modify (· ++ [b])

def putAll (limit : Option Nat) (w : List UInt8) : Action (List UInt8) Unit :=
  forEach (put limit) w

/-- All of the octets or none of them. A block has octets, and room behind it. -/
def putBlock (limit : Option Nat) (w : List UInt8) : Action (List UInt8) Unit := do
  let buffer ← get
  guard (Within limit (buffer.length + w.length))
  guard (w ≠ [])
  modify (· ++ w)

inductive Plan where
  | octets (w : List UInt8)
  | block (w : List UInt8)
  | refuse
  | behind (head : List UInt8 → List UInt8) (inner : Plan)
  | seq (first rest : Plan)

namespace Plan

def run (limit : Option Nat) : Plan → Action (List UInt8) Unit
  | octets w => putAll limit w
  | block w => putBlock limit w
  | refuse => fail
  | behind head inner => fun buffer =>
      match inner.run limit [] with
      | (some _, temp) => (do
          putAll limit (head temp)
          putBlock limit temp : Action (List UInt8) Unit) buffer
      | (none, _) => (none, buffer)
  | seq first rest => do
      first.run limit
      rest.run limit

/-- What is written where there is room for all of it, none for a plan that always fails. -/
def wire : Plan → Option (List UInt8)
  | octets w => some w
  | block w => if w = [] then none else some w
  | refuse => none
  | behind head inner => inner.wire.bind fun temp =>
      if temp = [] then none else some (head temp ++ temp)
  | seq first rest => Option.map₂ (· ++ ·) first.wire rest.wire

def size (p : Plan) : Nat := (p.wire.getD []).length

/-- The room that has to be left in the buffer. -/
def need : Plan → Nat
  | octets w => w.length
  | block w => w.length + 1
  | refuse => 0
  | behind head inner =>
      (head (inner.wire.getD [])).length + inner.size + 1
  | seq first rest => max first.need (first.size + rest.need)

/-- How many octets the buffer has when the plan fails in a buffer of `n` octets. -/
def left (l : Nat) : Plan → Nat → Nat
  | octets _, _ => l
  | block _, n => n
  | refuse, n => n
  | behind head inner, n =>
      if inner.need ≤ l then min l (n + (head (inner.wire.getD [])).length) else n
  | seq first rest, n =>
      if n + first.need ≤ l then rest.left l (n + first.size) else first.left l n

end Plan

/-! ## Octets and blocks -/

theorem put_of {limit : Option Nat} {buffer : List UInt8} (h : Within limit buffer.length)
    (b : UInt8) : put limit b buffer = (some (), buffer ++ [b]) := by
  rw [put, get_bind, guard_of h]
  rfl

theorem put_of_not {limit : Option Nat} {buffer : List UInt8} (h : ¬ Within limit buffer.length)
    (b : UInt8) : put limit b buffer = (none, buffer) := by
  rw [put, get_bind, guard_of_not h]
  rfl

theorem putAll_append (limit : Option Nat) (u v : List UInt8) :
    putAll limit (u ++ v) = (putAll limit u >>= fun _ => putAll limit v) := by
  induction u with
  | nil => rfl
  | cons b u ih =>
      have hrest : forEach (put limit) (u ++ v) =
          (forEach (put limit) u >>= fun _ => forEach (put limit) v) := ih
      rw [putAll, List.cons_append, forEach, hrest, putAll, forEach, Action.bind_assoc]
      rfl

theorem putAll_none (w buffer : List UInt8) : putAll none w buffer = (some (), buffer ++ w) := by
  induction w generalizing buffer with
  | nil => simp [putAll, forEach]
  | cons b w ih =>
      rw [putAll, forEach, bind_of_some (put_of (within_none _) b)]
      have hrest := ih (buffer ++ [b])
      rw [List.append_assoc] at hrest
      exact hrest

/-- Octets are written until the limit is reached. -/
theorem putAll_some {l : Nat} (w : List UInt8) {buffer : List UInt8} (h : buffer.length ≤ l) :
    putAll (some l) w buffer =
      (if buffer.length + w.length ≤ l then some () else none,
        buffer ++ w.take (l - buffer.length)) := by
  induction w generalizing buffer with
  | nil => simp [putAll, forEach, h]
  | cons b w ih =>
      rw [putAll, forEach]
      by_cases hroom : buffer.length < l
      · rw [bind_of_some (put_of (within_some.2 hroom) b)]
        have hlen : (buffer ++ [b]).length = buffer.length + 1 := by simp
        have hle : (buffer ++ [b]).length ≤ l := by omega
        have hrest := ih hle
        rw [hlen] at hrest
        have htake : (b :: w).take (l - buffer.length) =
            b :: w.take (l - (buffer.length + 1)) := by
          rw [show l - buffer.length = (l - (buffer.length + 1)) + 1 by omega, List.take_succ_cons]
        have hfits : buffer.length + 1 + w.length = buffer.length + (b :: w).length := by
          rw [List.length_cons]
          omega
        rw [htake, ← hfits]
        rw [List.append_assoc] at hrest
        exact hrest
      · have hfull : ¬ buffer.length + (b :: w).length ≤ l := by
          rw [List.length_cons]
          omega
        rw [bind_of_none (put_of_not (fun hw => hroom (within_some.1 hw)) b), if_neg hfull,
          show l - buffer.length = 0 by omega]
        simp

theorem put_emits (limit : Option Nat) (b : UInt8) : Emits (put limit b) [b] := by
  intro buffer buffer' h
  by_cases hroom : Within limit buffer.length
  · rw [put_of hroom] at h
    exact (Prod.mk.inj h).2.symm
  · rw [put_of_not hroom] at h
    cases h

theorem putAll_emits (limit : Option Nat) (w : List UInt8) : Emits (putAll limit w) w := by
  have hall : Emits (putAll limit w) (w.flatMap fun b => [b]) :=
    Emits.forEach w fun b _ => put_emits limit b
  rw [List.flatMap_singleton'] at hall
  exact hall

theorem putBlock_emits (limit : Option Nat) (w : List UInt8) :
    Emits (putBlock limit w) w := by
  intro buffer buffer' h
  rw [putBlock, get_bind] at h
  by_cases hroom : Within limit (buffer.length + w.length)
  · rw [guard_of hroom] at h
    by_cases hne : w ≠ []
    · rw [guard_of hne] at h
      exact (Prod.mk.inj h).2.symm
    · rw [guard_of_not hne] at h
      cases h
  · rw [guard_of_not hroom] at h
    cases h

theorem putBlock_none {w : List UInt8} (h : w ≠ []) (buffer : List UInt8) :
    putBlock none w buffer = (some (), buffer ++ w) := by
  rw [putBlock, get_bind, guard_of (within_none _), guard_of h]
  rfl

theorem putBlock_some {l : Nat} {w : List UInt8} (h : w ≠ []) (buffer : List UInt8) :
    putBlock (some l) w buffer =
      if buffer.length + w.length < l then (some (), buffer ++ w) else (none, buffer) := by
  rw [putBlock, get_bind]
  by_cases hroom : buffer.length + w.length < l
  · rw [guard_of (within_some.2 hroom), guard_of h, if_pos hroom]
    rfl
  · rw [guard_of_not fun hw => hroom (within_some.1 hw), if_neg hroom]
    rfl

theorem putBlock_nil (limit : Option Nat) (buffer : List UInt8) :
    putBlock limit [] buffer = (none, buffer) := by
  rw [putBlock, get_bind]
  by_cases hroom : Within limit (buffer.length + ([] : List UInt8).length)
  · rw [guard_of hroom, guard_of_not (by simp)]
    rfl
  · rw [guard_of_not hroom]
    rfl

namespace Plan

/-! ## A plan alone -/

@[simp] theorem size_of_wire {p : Plan} {w : List UInt8} (h : p.wire = some w) :
    p.size = w.length := by
  rw [size, h]
  rfl

theorem wire_seq_eq_some {first rest : Plan} {w : List UInt8}
    (h : (seq first rest).wire = some w) :
    ∃ u v, first.wire = some u ∧ rest.wire = some v ∧ w = u ++ v := by
  rw [wire, Option.map₂_eq_some_iff] at h
  rcases h with ⟨u, v, hu, hv, rfl⟩
  exact ⟨u, v, hu, hv, rfl⟩

theorem wire_behind_eq_some {head : List UInt8 → List UInt8} {inner : Plan} {w : List UInt8}
    (h : (behind head inner).wire = some w) :
    ∃ temp, inner.wire = some temp ∧ temp ≠ [] ∧ w = head temp ++ temp := by
  rw [wire, Option.bind_eq_some_iff] at h
  rcases h with ⟨temp, hinner, hw⟩
  split at hw
  · cases hw
  · rename_i hne
    exact ⟨temp, hinner, hne, (Option.some.inj hw).symm⟩

theorem length_le_need (p : Plan) {w : List UInt8} (h : p.wire = some w) :
    w.length ≤ p.need := by
  induction p generalizing w with
  | octets u =>
      rw [← Option.some.inj h]
      exact Nat.le_refl _
  | block u =>
      rw [wire] at h
      split at h
      · cases h
      · rw [← Option.some.inj h]
        exact Nat.le_succ _
  | refuse => cases h
  | behind head inner ih =>
      rcases wire_behind_eq_some h with ⟨temp, hinner, _, rfl⟩
      rw [need, hinner, size_of_wire hinner, List.length_append, Option.getD_some]
      exact Nat.le_succ _
  | seq first rest ihf ihr =>
      rcases wire_seq_eq_some h with ⟨u, v, hu, hv, rfl⟩
      have hrest := ihr hv
      rw [need, size_of_wire hu, List.length_append]
      omega

/-- On a buffer without a limit a plan writes what it is for. -/
theorem run_none (p : Plan) {w : List UInt8} (h : p.wire = some w) (buffer : List UInt8) :
    p.run none buffer = (some (), buffer ++ w) := by
  induction p generalizing w buffer with
  | octets u =>
      rw [← Option.some.inj h]
      exact putAll_none u buffer
  | block u =>
      rw [wire] at h
      split at h
      · cases h
      · rename_i hne
        rw [← Option.some.inj h]
        exact putBlock_none hne buffer
  | refuse => cases h
  | behind head inner ih =>
      rcases wire_behind_eq_some h with ⟨temp, hinner, hne, rfl⟩
      have htemp := ih hinner []
      rw [List.nil_append] at htemp
      rw [run, htemp]
      dsimp only
      rw [bind_of_some (putAll_none _ _), putBlock_none hne, List.append_assoc]
  | seq first rest ihf ihr =>
      rcases wire_seq_eq_some h with ⟨u, v, hu, hv, rfl⟩
      rw [run, bind_of_some (ihf hu buffer), ihr hv, List.append_assoc]

theorem left_le {l : Nat} (p : Plan) {w : List UInt8} (h : p.wire = some w) {n : Nat}
    (hn : n ≤ l) : p.left l n ≤ l := by
  induction p generalizing w n with
  | octets u => exact Nat.le_refl l
  | block u => exact hn
  | refuse => exact hn
  | behind head inner ih =>
      rw [left]
      split
      · exact Nat.min_le_left _ _
      · exact hn
  | seq first rest ihf ihr =>
      rcases wire_seq_eq_some h with ⟨u, v, hu, hv, rfl⟩
      have hle := first.length_le_need hu
      rw [left, size_of_wire hu]
      split
      · exact ihr hv (by omega)
      · exact ihf hu hn

/-- What becomes of a plan on a buffer with a limit: it writes all of its octets where there
is the room that it needs, and fails with fewer octets otherwise. -/
def Settles (l : Nat) (m : Action (List UInt8) Unit) (w : List UInt8) (need : Nat)
    (left : Nat → Nat) : Prop :=
  ∀ buffer, buffer.length ≤ l →
    (buffer.length + need ≤ l → m buffer = (some (), buffer ++ w)) ∧
    (¬ buffer.length + need ≤ l → ∃ v, m buffer = (none, buffer ++ v) ∧
      v.length < w.length ∧ buffer.length + v.length = left buffer.length)

theorem octets_settles (l : Nat) (w : List UInt8) :
    Settles l (putAll (some l) w) w w.length fun _ => l := by
  intro buffer hle
  rw [putAll_some w hle]
  constructor
  · intro hfits
    rw [if_pos hfits, List.take_of_length_le (by omega)]
  · intro hfull
    refine ⟨w.take (l - buffer.length), by rw [if_neg hfull], ?_, ?_⟩
    · rw [List.length_take]
      omega
    · rw [List.length_take]
      dsimp only
      omega

theorem block_settles (l : Nat) {w : List UInt8} (h : w ≠ []) :
    Settles l (putBlock (some l) w) w (w.length + 1) fun n => n := by
  intro buffer _
  rw [putBlock_some h]
  constructor
  · intro hfits
    exact if_pos (by omega)
  · intro hfull
    have hpos := List.length_pos_iff.2 h
    exact ⟨[], by rw [if_neg (by omega), List.append_nil], hpos, rfl⟩

theorem Settles.seq {l : Nat} {m n : Action (List UInt8) Unit} {u v : List UInt8}
    {need need' : Nat} {left left' : Nat → Nat} (hm : Settles l m u need left)
    (hn : Settles l n v need' left') (hle : u.length ≤ need) :
    Settles l (m >>= fun _ => n) (u ++ v) (max need (u.length + need'))
      fun k => if k + need ≤ l then left' (k + u.length) else left k := by
  intro buffer hbuffer
  have hfirst := hm buffer hbuffer
  by_cases hroom : buffer.length + need ≤ l
  · have hlen : (buffer ++ u).length = buffer.length + u.length := List.length_append
    have hrest := hn (buffer ++ u) (by omega)
    rw [bind_of_some (hfirst.1 hroom)]
    constructor
    · intro hfits
      rw [hrest.1 (by omega), List.append_assoc]
    · intro hfull
      rcases hrest.2 (by omega) with ⟨x, hx, hshort, hleft⟩
      refine ⟨u ++ x, by rw [hx, List.append_assoc], ?_, ?_⟩
      · rw [List.length_append, List.length_append]
        omega
      · dsimp only
        rw [if_pos hroom, ← hlen, ← hleft, hlen, List.length_append]
        omega
  · rcases hfirst.2 hroom with ⟨x, hx, hshort, hleft⟩
    rw [bind_of_none hx]
    constructor
    · intro hfits
      omega
    · intro _
      refine ⟨x, rfl, ?_, ?_⟩
      · rw [List.length_append]
        omega
      · dsimp only
        rw [if_neg hroom]
        exact hleft

theorem need_le (p : Plan) {w : List UInt8} (h : p.wire = some w) : p.need ≤ w.length + 1 := by
  induction p generalizing w with
  | octets u =>
      rw [← Option.some.inj h]
      exact Nat.le_succ _
  | block u =>
      rw [wire] at h
      split at h
      · cases h
      · rw [← Option.some.inj h]
        exact Nat.le_refl _
  | refuse => cases h
  | behind head inner ih =>
      rcases wire_behind_eq_some h with ⟨temp, hinner, _, rfl⟩
      have hneed : (behind head inner).need = (head temp ++ temp).length + 1 := by
        rw [need, hinner, size_of_wire hinner, List.length_append, Option.getD_some]
      exact Nat.le_of_eq hneed
  | seq first rest ihf ihr =>
      rcases wire_seq_eq_some h with ⟨u, v, hu, hv, rfl⟩
      have hfirst := ihf hu
      have hrest := ihr hv
      rw [need, size_of_wire hu, List.length_append]
      omega

/-- The octets of a temporary buffer go behind their head, or nothing is written when they
do not fit into the temporary buffer. -/
theorem behind_settles {l : Nat} {head : List UInt8 → List UInt8} {inner : Plan}
    {temp : List UInt8} (hinner : inner.wire = some temp) (hne : temp ≠ [])
    (h : Settles l (inner.run (some l)) temp inner.need (inner.left l)) :
    Settles l ((behind head inner).run (some l)) (head temp ++ temp)
      (behind head inner).need ((behind head inner).left l) := by
  have hneed : (behind head inner).need = (head temp).length + temp.length + 1 := by
    rw [need, hinner, size_of_wire hinner, Option.getD_some]
  intro buffer hbuffer
  have halone := h [] (Nat.zero_le l)
  rw [List.length_nil, Nat.zero_add] at halone
  by_cases hroom : inner.need ≤ l
  · have hboth := Settles.seq (octets_settles l (head temp)) (block_settles l hne)
      (Nat.le_refl _) buffer hbuffer
    have hrun : (behind head inner).run (some l) buffer =
        (putAll (some l) (head temp) >>= fun _ => putBlock (some l) temp) buffer := by
      rw [run, halone.1 hroom]
      rfl
    rw [hrun, hneed]
    constructor
    · intro hfits
      exact hboth.1 (by omega)
    · intro hfull
      rcases hboth.2 (by omega) with ⟨x, hx, hshort, hleft⟩
      refine ⟨x, hx, hshort, ?_⟩
      rw [hleft, left, if_pos hroom, hinner, Option.getD_some]
      dsimp only
      split <;> omega
  · rcases halone.2 hroom with ⟨x, hx, _, _⟩
    have hsmall := need_le inner hinner
    have hpos := List.length_pos_iff.2 hne
    constructor
    · intro hfits
      omega
    · intro _
      refine ⟨[], ?_, ?_, ?_⟩
      · rw [run, hx, List.append_nil]
      · rw [List.length_append, List.length_nil]
        omega
      · rw [left, if_neg hroom]
        rfl

theorem run_settles (l : Nat) (p : Plan) {w : List UInt8} (h : p.wire = some w) :
    Settles l (p.run (some l)) w p.need (p.left l) := by
  induction p generalizing w with
  | octets u =>
      rw [← Option.some.inj h]
      exact octets_settles l u
  | block u =>
      rw [wire] at h
      split at h
      · cases h
      · rename_i hne
        rw [← Option.some.inj h]
        exact block_settles l hne
  | refuse => cases h
  | behind head inner ih =>
      rcases wire_behind_eq_some h with ⟨temp, hinner, hne, rfl⟩
      exact behind_settles hinner hne (ih hinner)
  | seq first rest ihf ihr =>
      rcases wire_seq_eq_some h with ⟨u, v, hu, hv, rfl⟩
      have hall := Settles.seq (ihf hu) (ihr hv) (first.length_le_need hu)
      rw [← size_of_wire hu] at hall
      exact hall

/-- A plan that succeeds has written what it is for, with a limit and without one. -/
theorem run_eq_some (limit : Option Nat) (p : Plan) {buffer buffer' : List UInt8}
    (h : p.run limit buffer = (some (), buffer')) :
    ∃ w, p.wire = some w ∧ buffer' = buffer ++ w := by
  induction p generalizing buffer buffer' with
  | octets u => exact ⟨u, rfl, putAll_emits limit u buffer buffer' h⟩
  | block u =>
      by_cases hne : u = []
      · rw [hne, run, putBlock_nil] at h
        cases h
      · exact ⟨u, if_neg hne, putBlock_emits limit u buffer buffer' h⟩
  | refuse => cases h
  | behind head inner ih =>
      rw [run] at h
      cases hinner : inner.run limit [] with
      | mk r temp =>
          cases r with
          | none =>
              rw [hinner] at h
              cases h
          | some _ =>
              rcases ih hinner with ⟨u, hu, htemp⟩
              rw [List.nil_append] at htemp
              rw [hinner] at h
              dsimp only at h
              by_cases hne : temp = []
              · rw [hne] at h
                rcases bind_eq_some h with ⟨_, b, _, hblock⟩
                rw [putBlock_nil] at hblock
                cases hblock
              · have hall := Emits.bind (putAll_emits limit (head temp))
                  (putBlock_emits limit temp) buffer buffer' h
                refine ⟨head temp ++ temp, ?_, hall⟩
                rw [wire, hu, ← htemp]
                exact if_neg hne
  | seq first rest ihf ihr =>
      rcases bind_eq_some h with ⟨_, b, hfirst, hrest⟩
      rcases ihf hfirst with ⟨u, hu, rfl⟩
      rcases ihr hrest with ⟨v, hv, rfl⟩
      refine ⟨u ++ v, ?_, List.append_assoc _ _ _⟩
      rw [wire, hu, hv]
      rfl

theorem run_of_wire_none (limit : Option Nat) {p : Plan} (h : p.wire = none)
    (buffer : List UInt8) : (p.run limit buffer).1 = none := by
  cases hrun : p.run limit buffer with
  | mk r buffer' =>
      cases r with
      | none => rfl
      | some _ =>
          rcases run_eq_some limit p hrun with ⟨w, hw, _⟩
          rw [h] at hw
          cases hw

end Plan

end TelephonySms
