import TelephonySms.Text.Convert

/-! # Pieces of UTF-16

Pieces that are cut between characters are converted one by one. A cut inside a
surrogate pair loses the pair, and what stands behind it up to the next cut.
-/

namespace TelephonySms.Text

/-! ## Pieces -/

/-- No cut between the pieces is inside a surrogate pair. -/
def CutsWhole (pieces : List (List UInt16)) : Prop :=
  ∀ j < pieces.length, WellFormed (pieces.take j).flatten

theorem CutsWhole.tail {piece : List UInt16} {pieces : List (List UInt16)}
    (h : CutsWhole (piece :: pieces)) (hpiece : WellFormed piece) : CutsWhole pieces := by
  intro j hj
  have hall := h (j + 1) (by rw [List.length_cons]; omega)
  rw [List.take_succ_cons, List.flatten_cons] at hall
  exact hpiece.right hall

theorem flatMap_of_cutsWhole {iconv : Iconv} (hf : iconv.Faithful)
    {pieces : List (List UInt16)} (h : CutsWhole pieces) :
    pieces.flatMap iconv.utf16ToUtf8 = iconv.utf16ToUtf8 pieces.flatten := by
  induction pieces with
  | nil => exact hf.nil.symm
  | cons piece pieces ih =>
      cases pieces with
      | nil => simp
      | cons second pieces =>
          have hpiece : WellFormed piece := by simpa using h 1 (by simp)
          rw [List.flatMap_cons, ih (h.tail hpiece), ← hf.append _ hpiece, ← List.flatten_cons]

/-! ## Half pairs -/

theorem WellFormed.second {high : UInt16} {units : List UInt16} (h : WellFormed (high :: units))
    (hhigh : isHighSurrogate high = true) :
    ∃ low rest, units = low :: rest ∧ isLowSurrogate low = true ∧ WellFormed rest := by
  cases h with
  | unit hunit _ _ => simp [hhigh] at hunit
  | pair _ hlow h => exact ⟨_, _, rfl, hlow, h⟩

/-- What stands before a cut of well-formed text: characters, or characters and half a
pair whose other half is behind the cut. -/
theorem WellFormed.cut {front back : List UInt16} (h : WellFormed (front ++ back)) :
    (WellFormed front ∧ WellFormed back) ∨
      ∃ chars high low rest, front = chars ++ [high] ∧ back = low :: rest ∧ WellFormed chars ∧
        isHighSurrogate high = true ∧ isLowSurrogate low = true ∧ WellFormed rest := by
  have htake := h.take front.length
  rw [List.take_left] at htake
  cases htake with
  | inl hfront => exact .inl ⟨hfront, hfront.right h⟩
  | inr hhalf =>
      obtain ⟨chars, high, rfl, hchars, hhigh⟩ := hhalf
      rw [List.append_assoc] at h
      obtain ⟨low, rest, rfl, hlow, hrest⟩ := (hchars.right h).second hhigh
      exact .inr ⟨chars, high, low, rest, rfl, rfl, hchars, hhigh, hlow, hrest⟩

/-! ## Text that is lost -/

section Lengths

variable {iconv : Iconv} (hf : iconv.Faithful)
include hf

theorem length_pair_pos {high low : UInt16} (hhigh : isHighSurrogate high = true)
    (hlow : isLowSurrogate low = true) : 0 < (iconv.utf16ToUtf8 [high, low]).length := by
  rw [List.length_pos_iff]
  intro hnil
  have hsame := hf.injective (.pair hhigh hlow .nil) .nil (hnil.trans hf.nil.symm)
  simp at hsame

theorem length_utf16ToUtf8_append {units : List UInt16} (h : WellFormed units) (more : List UInt16) :
    (iconv.utf16ToUtf8 (units ++ more)).length =
      (iconv.utf16ToUtf8 units).length + (iconv.utf16ToUtf8 more).length := by
  rw [hf.append more h, List.length_append]

/-- Pieces of a text read as no more than the text, behind half a pair too. -/
theorem length_pieces_le (pieces : List (List UInt16)) :
    (WellFormed pieces.flatten →
        (pieces.flatMap iconv.utf16ToUtf8).length ≤
          (iconv.utf16ToUtf8 pieces.flatten).length) ∧
      ∀ {low rest}, pieces.flatten = low :: rest → isLowSurrogate low = true → WellFormed rest →
        (pieces.flatMap iconv.utf16ToUtf8).length ≤ (iconv.utf16ToUtf8 rest).length := by
  induction pieces with
  | nil => exact ⟨fun _ => by simp, by simp⟩
  | cons piece pieces ih =>
      obtain ⟨ihWhole, ihHalf⟩ := ih
      -- A piece of text, and the pieces behind it.
      have hwhole : ∀ {front}, WellFormed (front ++ pieces.flatten) →
          (iconv.utf16ToUtf8 front).length + (pieces.flatMap iconv.utf16ToUtf8).length ≤
            (iconv.utf16ToUtf8 (front ++ pieces.flatten)).length := by
        intro front h
        obtain ⟨hfront, hback⟩ | ⟨chars, high, low, rest, rfl, hback, hchars, hhigh, hlow, hrest⟩ :=
          h.cut
        · have hle := ihWhole hback
          rw [length_utf16ToUtf8_append hf hfront]
          omega
        · have hle := ihHalf hback hlow hrest
          have hpair : WellFormed [high, low] := .pair hhigh hlow .nil
          have hmore := length_utf16ToUtf8_append hf hpair rest
          rw [List.cons_append, List.singleton_append] at hmore
          rw [hback, List.append_assoc, List.singleton_append, length_utf16ToUtf8_append hf hchars,
            length_utf16ToUtf8_append hf hchars, hf.incomplete hhigh, hmore, List.length_nil]
          omega
      constructor
      · intro h
        rw [List.flatMap_cons, List.length_append]
        exact hwhole h
      · intro low rest hflat hlow hrest
        rw [List.flatMap_cons, List.length_append]
        cases piece with
        | nil =>
            rw [hf.nil]
            simpa using ihHalf hflat hlow hrest
        | cons first piece =>
            rw [List.flatten_cons, List.cons_append] at hflat
            obtain ⟨rfl, hpiece⟩ := List.cons.inj hflat
            subst hpiece
            have hle := hwhole hrest
            rw [hf.broken piece hlow, List.length_nil]
            omega

theorem cutsWhole_of_length {pieces : List (List UInt16)} (h : WellFormed pieces.flatten)
    (hlen : (iconv.utf16ToUtf8 pieces.flatten).length ≤
      (pieces.flatMap iconv.utf16ToUtf8).length) : CutsWhole pieces := by
  induction pieces with
  | nil => simp [CutsWhole]
  | cons piece pieces ih =>
      rw [List.flatMap_cons, List.length_append, List.flatten_cons] at hlen
      obtain ⟨hpiece, hback⟩ | ⟨chars, high, low, rest, rfl, hback, hchars, hhigh, hlow, hrest⟩ :=
        h.cut
      · rw [length_utf16ToUtf8_append hf hpiece] at hlen
        have hcuts := ih hback (by omega)
        intro j hj
        cases j with
        | zero => simpa using WellFormed.nil
        | succ j =>
            rw [List.take_succ_cons, List.flatten_cons]
            exact hpiece.append (hcuts j (by simpa using hj))
      · exfalso
        have hle := (length_pieces_le hf pieces).2 hback hlow hrest
        have hpair : WellFormed [high, low] := .pair hhigh hlow .nil
        have hpos := length_pair_pos hf hhigh hlow
        have hmore := length_utf16ToUtf8_append hf hpair rest
        rw [List.cons_append, List.singleton_append] at hmore
        rw [hback, List.append_assoc, List.singleton_append, length_utf16ToUtf8_append hf hchars,
          length_utf16ToUtf8_append hf hchars, hf.incomplete hhigh, hmore, List.length_nil] at hlen
        omega

/-- Pieces of the start of a text that read as all of it are all of it. -/
theorem whole_of_flatMap_eq {pieces : List (List UInt16)} {units rest : List UInt16}
    (hunits : pieces.flatten ++ rest = units) (h : WellFormed units)
    (heq : pieces.flatMap iconv.utf16ToUtf8 = iconv.utf16ToUtf8 units) :
    CutsWhole pieces ∧ rest = [] := by
  have hflat : (pieces ++ [rest]).flatten = units := by simpa using hunits
  have hcuts : CutsWhole (pieces ++ [rest]) := by
    refine cutsWhole_of_length hf (by rwa [hflat]) ?_
    rw [hflat, ← heq, List.flatMap_append, List.length_append]
    omega
  have hfront : WellFormed pieces.flatten := by
    have hall := hcuts pieces.length (by simp)
    rwa [List.take_left] at hall
  constructor
  · intro j hj
    have hall := hcuts j (by simp; omega)
    rwa [List.take_append_of_le_length hj.le] at hall
  · have hback : WellFormed rest := hfront.right (by rwa [hunits])
    have hlen := congrArg List.length heq
    have hle := (length_pieces_le hf pieces).1 hfront
    rw [← hunits, length_utf16ToUtf8_append hf hfront] at hlen
    have hnil : iconv.utf16ToUtf8 rest = [] := List.eq_nil_of_length_eq_zero (by omega)
    exact hf.injective hback .nil (hnil.trans hf.nil.symm)

end Lengths

/-! ## The pieces of `SplitMessageUcs2` -/

/-- The pieces before a cut. -/
theorem flatten_take_splitUnits (isBoundary : List UInt16 → Nat → Bool) {segSizeHalf : Nat}
    (hs : 0 < segSizeHalf) (fullData : List UInt16) {fuel index j : Nat}
    (hj : j < (splitUnits isBoundary segSizeHalf fullData fuel index).length) :
    fullData.take index ++
        ((splitUnits isBoundary segSizeHalf fullData fuel index).take j).flatten =
      fullData.take (cuts isBoundary segSizeHalf fullData index j) := by
  induction fuel generalizing index j with
  | zero =>
      have hzero : j = 0 := by simpa [splitUnits] using hj
      simp [hzero]
  | succ fuel ih =>
      cases j with
      | zero => simp
      | succ j =>
          rw [splitUnits] at hj ⊢
          split at hj
          · rename_i hmore
            have hlt := lt_findNextUnicodePosition isBoundary index hs fullData
            rw [if_pos hmore, List.take_succ_cons, List.flatten_cons, cuts_succ,
              ← ih (by simpa using hj), ← List.append_assoc]
            congr 1
            rw [← List.take_add, Nat.add_sub_cancel' hlt.le]
          · simp at hj

theorem cutsWhole_splitUnits_iff (isBoundary : List UInt16 → Nat → Bool)
    (fullData : List UInt16) :
    CutsWhole (splitUnits isBoundary 67 fullData fullData.length 0) ↔
      ∀ k, 67 < fullData.length - cuts isBoundary 67 fullData 0 k →
        WellFormed (fullData.take (cuts isBoundary 67 fullData 0 (k + 1))) := by
  obtain ⟨last, hlen, -, hbefore, hstop⟩ := splitUnits_cuts isBoundary (by decide : 0 < 67) fullData
    (by omega : fullData.length - 0 ≤ fullData.length)
  have hstart : ∀ {j}, j < (splitUnits isBoundary 67 fullData fullData.length 0).length →
      ((splitUnits isBoundary 67 fullData fullData.length 0).take j).flatten =
        fullData.take (cuts isBoundary 67 fullData 0 j) := by
    intro j hj
    simpa using flatten_take_splitUnits isBoundary (by decide : 0 < 67) fullData hj
  constructor
  · intro h k hk
    have hlast : k < last := by
      by_contra hge
      have hmono := cuts_mono isBoundary (by decide : 0 < 67) fullData 0 (Nat.le_of_not_lt hge)
      omega
    have hj : k + 1 < (splitUnits isBoundary 67 fullData fullData.length 0).length := by omega
    rw [← hstart hj]
    exact h (k + 1) hj
  · intro h j hj
    rw [hstart hj]
    cases j with
    | zero => simpa using WellFormed.nil
    | succ j => exact h j (hbefore j (by omega))

/-! ## Octets -/

theorem unit_of_octets (c : UInt16) :
    (c >>> 8).toUInt8.toUInt16 <<< 8 ||| (c &&& 0x00FF).toUInt8.toUInt16 = c := by
  have hc := c.toNat_lt
  have hmod : c.toNat % 256 < 2 ^ 8 := Nat.mod_lt _ (by decide)
  have hhigh : ((c >>> 8).toUInt8.toUInt16 <<< 8).toNat = (c.toNat / 256) <<< 8 := by
    simp only [UInt16.toNat_shiftLeft, UInt8.toNat_toUInt16, UInt16.toNat_toUInt8,
      UInt16.toNat_shiftRight, Nat.shiftLeft_eq, Nat.shiftRight_eq_div_pow]
    simp
    omega
  have hlow : (c &&& 0x00FF).toUInt8.toUInt16.toNat = c.toNat % 256 := by
    have hmask : c.toNat &&& 255 = c.toNat % 256 := Nat.and_two_pow_sub_one_eq_mod c.toNat 8
    simp only [UInt8.toNat_toUInt16, UInt16.toNat_toUInt8, UInt16.toNat_and, UInt16.reduceToNat,
      hmask]
    omega
  apply UInt16.toNat.inj
  rw [UInt16.toNat_or, hhigh, hlow, ← Nat.shiftLeft_add_eq_or_of_lt hmod, Nat.shiftLeft_eq]
  omega

theorem ucs2Units_take (units : List UInt16) (n : Nat) :
    ucs2Units ((ucs2Octets units).take n) = units.take (n / 2) := by
  induction units generalizing n with
  | nil => simp [ucs2Octets, ucs2Units]
  | cons c units ih =>
      obtain rfl | rfl | ⟨n, rfl⟩ : n = 0 ∨ n = 1 ∨ ∃ m, n = m + 2 := by
        rcases n with _ | _ | n <;> simp
      · simp [ucs2Units]
      · simp [ucs2Octets, ucs2Units]
      · have hhalf : (n + 2) / 2 = n / 2 + 1 := by omega
        have hcons : ucs2Octets (c :: units) =
            (c >>> 8).toUInt8 :: (c &&& 0x00FF).toUInt8 :: ucs2Octets units := rfl
        rw [hcons, List.take_succ_cons, List.take_succ_cons, ucs2Units, unit_of_octets, ih,
          hhalf, List.take_succ_cons]

theorem ucs2Units_ucs2Octets (units : List UInt16) : ucs2Units (ucs2Octets units) = units := by
  have h := ucs2Units_take units (ucs2Octets units).length
  rwa [List.take_length, length_ucs2Octets, Nat.mul_div_cancel_left _ (by decide),
    List.take_length] at h

end TelephonySms.Text
