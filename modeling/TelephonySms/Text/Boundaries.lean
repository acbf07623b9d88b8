import Mathlib.Logic.Relation
import TelephonySms.Text.Pairs

/-! # Segments of whole characters

`SplitMessageUcs2` ends, its segments make up the octets, and it cuts inside a character
only where no segment could hold that character.
-/

namespace TelephonySms.Text

/-! ## Octets of units -/

theorem toNat_unit (high low : UInt8) :
    (high.toUInt16 <<< 8 ||| low.toUInt16).toNat = 256 * high.toNat + low.toNat := by
  have hhigh := high.toNat_lt
  have hlow := low.toNat_lt
  have hshift : (high.toUInt16 <<< 8).toNat = high.toNat <<< 8 := by
    simp only [UInt16.toNat_shiftLeft, UInt8.toNat_toUInt16, Nat.shiftLeft_eq, UInt16.reduceToNat,
      Nat.reduceMod, Nat.reducePow]
    omega
  rw [UInt16.toNat_or, hshift, UInt8.toNat_toUInt16, ← Nat.shiftLeft_add_eq_or_of_lt hlow,
    Nat.shiftLeft_eq]
  omega

theorem high_of_unit (high low : UInt8) :
    ((high.toUInt16 <<< 8 ||| low.toUInt16) >>> 8).toUInt8 = high := by
  have hhigh := high.toNat_lt
  have hlow := low.toNat_lt
  apply UInt8.toNat.inj
  rw [UInt16.toNat_toUInt8, UInt16.toNat_shiftRight, toNat_unit]
  simp only [UInt16.reduceToNat, Nat.shiftRight_eq_div_pow, Nat.reduceMod, Nat.reducePow]
  omega

theorem low_of_unit (high low : UInt8) :
    ((high.toUInt16 <<< 8 ||| low.toUInt16) &&& 0x00FF).toUInt8 = low := by
  have hlow := low.toNat_lt
  have hmask : ∀ n : Nat, n &&& 255 = n % 256 := fun n => Nat.and_two_pow_sub_one_eq_mod n 8
  apply UInt8.toNat.inj
  simp only [UInt16.toNat_toUInt8, UInt16.toNat_and, toNat_unit, UInt16.reduceToNat, hmask]
  omega

theorem ucs2Octets_ucs2Units {octets : List UInt8} (heven : octets.length % 2 = 0) :
    ucs2Octets (ucs2Units octets) = octets := by
  induction octets using ucs2Units.induct with
  | case1 high low rest ih =>
      have hrest : rest.length % 2 = 0 := by
        simp only [List.length_cons] at heven
        omega
      have hoctets := ih hrest
      unfold ucs2Octets at hoctets ⊢
      rw [ucs2Units, List.flatMap_cons, hoctets, high_of_unit, low_of_unit]
      rfl
  | case2 octets h =>
      cases octets with
      | nil => rfl
      | cons high rest =>
          cases rest with
          | nil => simp at heven
          | cons low rest => exact absurd rfl (h high low rest)

theorem ucs2Octets_flatten (pieces : List (List UInt16)) :
    (pieces.map ucs2Octets).flatten = ucs2Octets pieces.flatten := by
  induction pieces with
  | nil => rfl
  | cons piece pieces ih =>
      rw [List.map_cons, List.flatten_cons, ih, List.flatten_cons]
      exact List.flatMap_append.symm

/-! ## Cuts -/

section Cuts

variable (isBoundary : List UInt16 → Nat → Bool) {segSizeHalf : Nat} {fullData : List UInt16}

/-- A unit inside a character that is longer than a segment. -/
def InLongCharacter (segSizeHalf : Nat) (fullData : List UInt16) (cut : Nat) : Prop :=
  ∃ start stop, isBoundary fullData start = true ∧ isBoundary fullData stop = true ∧
    (∀ n, start < n → n < stop → isBoundary fullData n = false) ∧
    start < cut ∧ cut < stop ∧ segSizeHalf < stop - start

/-- One round of the loop of `SplitMessageUcs2`, on `index` and the units of `splitResult`. -/
inductive SplitRound (segSizeHalf : Nat) (fullData : List UInt16) :
    Nat × List (List UInt16) → Nat × List (List UInt16) → Prop where
  | more {index nextIndex : Nat} {splitResult : List (List UInt16)}
      (hmore : segSizeHalf < fullData.length - index)
      (hnext : findNextUnicodePosition isBoundary index segSizeHalf fullData = nextIndex) :
      SplitRound segSizeHalf fullData (index, splitResult)
        (nextIndex, splitResult ++ [(fullData.drop index).take (nextIndex - index)])

variable {isBoundary}

theorem previousBoundary_spec {index breakPos : Nat}
    (h : previousBoundary isBoundary fullData index = some breakPos) :
    isBoundary fullData breakPos = true ∧
      ∀ n, breakPos < n → n < index → isBoundary fullData n = false := by
  unfold previousBoundary at h
  refine ⟨List.find?_some h, ?_⟩
  induction index with
  | zero => cases h
  | succ index ih =>
      rw [List.range_succ, List.reverse_append, List.reverse_singleton, List.singleton_append,
        List.find?_cons] at h
      intro n hlt hle
      cases hindex : isBoundary fullData index with
      | true =>
          rw [hindex] at h
          cases h
          omega
      | false =>
          rw [hindex] at h
          by_cases hn : n = index
          · rw [hn, hindex]
          · exact ih h n hlt (by omega)

theorem previousBoundary_isSome {index n : Nat} (hn : n < index)
    (h : isBoundary fullData n = true) : ∃ breakPos,
      previousBoundary isBoundary fullData index = some breakPos := by
  rw [← Option.isSome_iff_exists]
  unfold previousBoundary
  rw [List.find?_isSome]
  exact ⟨n, by simpa using hn, h⟩

theorem nextBoundary (hlast : isBoundary fullData fullData.length = true) {index : Nat}
    (h : index < fullData.length) : ∃ stop, isBoundary fullData stop = true ∧ index < stop ∧
      ∀ n, index < n → n < stop → isBoundary fullData n = false := by
  have hex : ∃ n, isBoundary fullData n = true ∧ index < n := ⟨_, hlast, h⟩
  refine ⟨Nat.find hex, (Nat.find_spec hex).1, (Nat.find_spec hex).2, fun n hlt hfind => ?_⟩
  have hmin := Nat.find_min hex hfind
  rw [not_and] at hmin
  exact Bool.eq_false_iff.2 fun hboundary => hmin hboundary hlt

/-- A round ends at a boundary, or no segment holds the character it ends in. -/
theorem boundary_or_inLongCharacter (hs : 0 < segSizeHalf)
    (hfirst : isBoundary fullData 0 = true)
    (hlast : isBoundary fullData fullData.length = true) {index : Nat}
    (hmore : segSizeHalf < fullData.length - index) :
    isBoundary fullData (findNextUnicodePosition isBoundary index segSizeHalf fullData) = true ∨
      InLongCharacter isBoundary segSizeHalf fullData
        (findNextUnicodePosition isBoundary index segSizeHalf fullData) := by
  simp only [findNextUnicodePosition]
  cases hend : isBoundary fullData (index + segSizeHalf) with
  | true => exact .inl (by simpa using hend)
  | false =>
      have hpos : 0 < index + segSizeHalf := by omega
      obtain ⟨breakPos, hprev⟩ := previousBoundary_isSome hpos hfirst
      obtain ⟨hbreak, hbetween⟩ := previousBoundary_spec hprev
      have hlt := previousBoundary_lt isBoundary hprev
      simp only [hprev, Bool.false_eq_true, if_false]
      by_cases hforward : breakPos > index
      · rw [if_pos hforward]
        exact .inl hbreak
      · rw [if_neg hforward]
        obtain ⟨stop, hstop, hbehind, hfree⟩ :=
          nextBoundary hlast (by omega : index + segSizeHalf < fullData.length)
        refine .inr ⟨breakPos, stop, hbreak, hstop, fun n hstart hn => ?_, hlt, hbehind, by omega⟩
        rcases Nat.lt_trichotomy n (index + segSizeHalf) with hbefore | heq | hafter
        · exact hbetween n hstart hbefore
        · rw [heq, hend]
        · exact hfree n hafter hn

theorem length_slice {index nextIndex : Nat} (h : nextIndex ≤ fullData.length) :
    ((fullData.drop index).take (nextIndex - index)).length = nextIndex - index := by
  rw [List.length_take, List.length_drop]
  omega

/-- Every place where the segments from `index` on are put together again. -/
theorem cut_of_splitUnits (hs : 0 < segSizeHalf) (hfirst : isBoundary fullData 0 = true)
    (hlast : isBoundary fullData fullData.length = true) {fuel index : Nat}
    {front back : List (List UInt16)}
    (h : splitUnits isBoundary segSizeHalf fullData fuel index = front ++ back)
    (hfront : front ≠ []) (hback : back ≠ []) :
    isBoundary fullData (index + front.flatten.length) = true ∨
      InLongCharacter isBoundary segSizeHalf fullData (index + front.flatten.length) := by
  induction fuel generalizing index front with
  | zero =>
      have hlen := congrArg List.length h
      rw [splitUnits, List.length_append, List.length_singleton] at hlen
      have := List.length_pos_of_ne_nil hfront
      have := List.length_pos_of_ne_nil hback
      omega
  | succ fuel ih =>
      rw [splitUnits] at h
      split at h
      · rename_i hmore
        have hlt := lt_findNextUnicodePosition isBoundary index hs fullData
        have hle := findNextUnicodePosition_le isBoundary index segSizeHalf fullData
        have hround := boundary_or_inLongCharacter hs hfirst hlast hmore
        cases front with
        | nil => exact absurd rfl hfront
        | cons piece front =>
            obtain ⟨hpiece, hrest⟩ := List.cons.inj h
            have hlength : ((fullData.drop index).take
                (findNextUnicodePosition isBoundary index segSizeHalf fullData - index)).length = _ :=
              length_slice (by omega)
            rw [hpiece] at hlength
            have hindex : index + (piece :: front).flatten.length =
                findNextUnicodePosition isBoundary index segSizeHalf fullData +
                  front.flatten.length := by
              rw [List.flatten_cons, List.length_append, hlength]
              omega
            rw [hindex]
            by_cases hnil : front = []
            · rw [hnil]
              exact hround
            · exact ih hrest hnil
      · have hlen := congrArg List.length h
        rw [List.length_append, List.length_singleton] at hlen
        have := List.length_pos_of_ne_nil hfront
        have := List.length_pos_of_ne_nil hback
        omega

/-- The loop comes to its end, and the rest is the last segment. -/
theorem splitUnits_run (hs : 0 < segSizeHalf) {fuel index : Nat}
    (hfuel : fullData.length - index ≤ fuel) (splitResult : List (List UInt16)) :
    ∃ stop segments, Relation.ReflTransGen (SplitRound isBoundary segSizeHalf fullData)
        (index, splitResult) (stop, segments) ∧
      ¬ segSizeHalf < fullData.length - stop ∧
      segments ++ [fullData.drop stop] =
        splitResult ++ splitUnits isBoundary segSizeHalf fullData fuel index := by
  induction fuel generalizing index splitResult with
  | zero =>
      refine ⟨index, splitResult, .refl, by omega, ?_⟩
      rw [splitUnits]
  | succ fuel ih =>
      have hlt := lt_findNextUnicodePosition isBoundary index hs fullData
      rw [splitUnits]
      by_cases hmore : segSizeHalf < fullData.length - index
      · rw [if_pos hmore]
        obtain ⟨stop, segments, hrun, hstop, heq⟩ := ih (by omega :
          fullData.length - findNextUnicodePosition isBoundary index segSizeHalf fullData ≤ fuel)
          (splitResult ++ [(fullData.drop index).take
            (findNextUnicodePosition isBoundary index segSizeHalf fullData - index)])
        refine ⟨stop, segments, hrun.head (.more hmore rfl), hstop, ?_⟩
        rw [heq, List.append_assoc]
        rfl
      · rw [if_neg hmore]
        exact ⟨index, splitResult, .refl, hmore, rfl⟩

theorem ne_nil_of_mem_splitUnits (hs : 0 < segSizeHalf) {fuel index : Nat}
    (hindex : index < fullData.length) {piece : List UInt16}
    (h : piece ∈ splitUnits isBoundary segSizeHalf fullData fuel index) : piece ≠ [] := by
  have hrest : ∀ i, i < fullData.length → fullData.drop i ≠ [] := fun i hi =>
    List.ne_nil_of_length_pos (by rw [List.length_drop]; omega)
  induction fuel generalizing index with
  | zero =>
      rw [splitUnits, List.mem_singleton] at h
      rw [h]
      exact hrest index hindex
  | succ fuel ih =>
      have hlt := lt_findNextUnicodePosition isBoundary index hs fullData
      have hle := findNextUnicodePosition_le isBoundary index segSizeHalf fullData
      rw [splitUnits] at h
      split at h
      · rcases List.mem_cons.1 h with rfl | h
        · refine List.ne_nil_of_length_pos ?_
          rw [length_slice (by omega)]
          omega
        · exact ih (by omega) h
      · rw [List.mem_singleton.1 h]
        exact hrest index hindex

end Cuts

/-! ## The segments of a message -/

section Segments

variable (isBoundary : List UInt16 → Nat → Bool)

/-- The loop ends, and the segments, none of which is too long or needlessly empty, make up
the octets. A cut inside a character is inside one that no segment could hold. -/
theorem splitMessageUcs2_partition (decodeData : List UInt8)
    (heven : decodeData.length % 2 = 0) (segSize : Nat) (hs : 2 ≤ segSize)
    (hfirst : isBoundary (ucs2Units decodeData) 0 = true)
    (hlast : isBoundary (ucs2Units decodeData) (ucs2Units decodeData).length = true) :
    let fullData := ucs2Units decodeData
    let segments := splitMessageUcs2 isBoundary decodeData segSize
    (∃ index splitResult,
      Relation.ReflTransGen (SplitRound isBoundary (segSize / 2) fullData) (0, [])
        (index, splitResult) ∧
      ¬ segSize / 2 < fullData.length - index ∧
      segments = (splitResult ++ [fullData.drop index]).map ucs2Octets) ∧
    (∀ segment ∈ segments, segment.length ≤ segSize) ∧
    (if decodeData = [] then segments = [[]] else ∀ segment ∈ segments, segment ≠ []) ∧
    segments.flatten = decodeData ∧
    ∀ front back, segments = front ++ back → front ≠ [] → back ≠ [] →
      isBoundary fullData (front.flatten.length / 2) = true ∨
        InLongCharacter isBoundary (segSize / 2) fullData (front.flatten.length / 2) := by
  intro fullData segments
  have hhalf : 0 < segSize / 2 := by omega
  refine ⟨?_, ?_, ?_, ?_, ?_⟩
  · obtain ⟨index, splitResult, hrun, hstop, heq⟩ := @splitUnits_run isBoundary _ _ hhalf _ 0
      (by omega : fullData.length - 0 ≤ fullData.length) []
    refine ⟨index, splitResult, hrun, hstop, ?_⟩
    rw [heq, List.nil_append]
    rfl
  · intro segment hsegment
    obtain ⟨piece, hpiece, rfl⟩ := List.mem_map.1 hsegment
    have hlen := length_of_mem_splitUnits isBoundary hhalf fullData (Nat.sub_le _ _) hpiece
    rw [length_ucs2Octets]
    omega
  · split
    · rename_i hempty
      subst hempty
      rfl
    · rename_i hdata
      intro segment hsegment
      obtain ⟨piece, hpiece, rfl⟩ := List.mem_map.1 hsegment
      have hunits : 0 < fullData.length := by
        have hpos := List.length_pos_of_ne_nil hdata
        change 0 < (ucs2Units decodeData).length
        rw [length_ucs2Units]
        omega
      have hne := ne_nil_of_mem_splitUnits hhalf hunits hpiece
      refine List.ne_nil_of_length_pos ?_
      have hpos := List.length_pos_of_ne_nil hne
      rw [length_ucs2Octets]
      omega
  · change (List.map ucs2Octets _).flatten = _
    rw [ucs2Octets_flatten, flatten_splitUnits isBoundary hhalf, List.drop_zero,
      ucs2Octets_ucs2Units heven]
  · intro front back hsegments hfront hback
    obtain ⟨first, second, heq, rfl, rfl⟩ := List.map_eq_append_iff.1 hsegments
    have hcut := cut_of_splitUnits hhalf hfirst hlast heq (by simpa using hfront)
      (by simpa using hback)
    rw [ucs2Octets_flatten, length_ucs2Octets, Nat.mul_div_cancel_left _ (by decide)]
    rwa [Nat.zero_add] at hcut

/-- Boundaries in front of every unit but the second: a pair of surrogates, and a letter. -/
def pairFirst : List UInt16 → Nat → Bool := fun fullData n => n ≠ 1 && n ≤ fullData.length

theorem splitMessageUcs2_partition_pair :
    (splitMessageUcs2 pairFirst [0xD8, 0x3D, 0xDE, 0x00, 0x00, 0x41] 4).flatten =
      [0xD8, 0x3D, 0xDE, 0x00, 0x00, 0x41] :=
  (splitMessageUcs2_partition pairFirst [0xD8, 0x3D, 0xDE, 0x00, 0x00, 0x41] (by decide) 4
    (by decide) (by decide) (by decide)).2.2.2.1

/-- Of no octets there is one segment, and it is empty. -/
theorem splitMessageUcs2_empty :
    ¬ ∀ (isBoundary : List UInt16 → Nat → Bool) (decodeData : List UInt8) (segSize : Nat),
      decodeData.length % 2 = 0 → 2 ≤ segSize → isBoundary (ucs2Units decodeData) 0 = true →
        isBoundary (ucs2Units decodeData) (ucs2Units decodeData).length = true →
          ∀ segment ∈ splitMessageUcs2 isBoundary decodeData segSize, segment ≠ [] := by
  intro h
  exact h pairFirst [] 2 rfl (Nat.le_refl 2) (by decide) (by decide) []
    (List.mem_singleton.2 rfl) rfl

end Segments

end TelephonySms.Text
