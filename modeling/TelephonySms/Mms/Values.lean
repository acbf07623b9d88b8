import TelephonySms.Mms.EncodeBuffer
import TelephonySms.Mms.Extent

/-! # Values on the wire

The octets of the basic values as their definitions allow them, and that the decoders
take exactly these octets, whatever follows.
-/

namespace TelephonySms.Mms

open OctetReader Reader

/-! ## Single octets -/

section Octets

variable {α : Type} {m : Reader α} {f : UInt8 → Reader α} {b : UInt8} {w rest : Octets} {a : α}

theorem getD_append_cons (front rest : Octets) (b : UInt8) :
    (front ++ b :: rest).getD front.length 0 = b := by
  rw [List.getD_eq_getElem?_getD, List.getElem?_append_right (Nat.le_refl _), Nat.sub_self]
  rfl

theorem getOneByte_reads (b : UInt8) : Reads getOneByte [b] b := by
  intro rest front trace hshort
  rw [List.append_assoc, List.singleton_append] at hshort ⊢
  have hinside : front.length < (front ++ b :: rest).length := by simp
  rw [getOneByte_of_lt hshort hinside]
  simp only [getD_append_cons, List.length_singleton]
  exact ⟨_, rfl⟩

theorem peekOneByte_reads (b : UInt8) (rest : Octets) : ReadsBefore peekOneByte [] (b :: rest) b := by
  intro front trace hshort
  rw [List.append_nil] at hshort ⊢
  have hinside : front.length < (front ++ b :: rest).length := by simp
  rw [peekOneByte_of_lt hinside]
  simp only [getD_append_cons, List.length_nil, Nat.add_zero]
  exact ⟨_, rfl⟩

theorem peekOrZero_reads (b : UInt8) (rest : Octets) : ReadsBefore peekOrZero [] (b :: rest) b :=
  ReadsBefore.bind_nil (peekOneByte_reads b rest).attempt (ReadsBefore.pure _ _)

/-- A reader that moves the position one octet back. -/
def MovesBack {β : Type} (back : Reader β) : Prop :=
  ∀ octets position trace, ∃ x trace',
    back ⟨octets, position + 1, trace⟩ = (.done x, ⟨octets, position, trace'⟩)

theorem decreasePointer_movesBack : MovesBack (decreasePointer 1) := by
  intro octets position trace
  simp only [decreasePointer, cursor_bind]
  rw [if_neg (by omega)]
  exact ⟨(), _, rfl⟩

theorem attempt_movesBack : MovesBack (attempt (decreasePointer 1)) := by
  intro octets position trace
  obtain ⟨x, trace', hback⟩ := decreasePointer_movesBack octets position trace
  exact ⟨some x, trace', by rw [attempt, hback]⟩

/-- An octet that is read and given back. -/
theorem giveBack_reads {β : Type} {back : Reader β} (hback : MovesBack back)
    (hf : f b = back >>= fun _ => m) (hm : ReadsBefore m (b :: w) rest a) :
    ReadsBefore (getOneByte >>= f) (b :: w) rest a := by
  intro front trace hshort
  have hjoin : front ++ b :: w ++ rest = front ++ [b] ++ (w ++ rest) := by simp
  rw [hjoin] at hshort
  obtain ⟨trace₁, hfirst⟩ := getOneByte_reads b (w ++ rest) front trace hshort
  rw [← hjoin] at hshort hfirst
  obtain ⟨x, trace₂, hmoved⟩ := hback (front ++ b :: w ++ rest) front.length trace₁
  rw [bind_of_done hfirst, hf]
  exact (bind_of_done hmoved _).symm ▸ hm front trace₂ hshort

theorem increasePointer_reads (w : Octets) : Reads (increasePointer w.length) w () := by
  intro rest front trace hshort
  simp only [List.length_append] at hshort
  have hwrap : u32 (front.length + w.length) = front.length + w.length := u32_of_lt (by omega)
  refine ⟨⟨front.length + w.length, front.length, 0⟩ :: trace, ?_⟩
  simp only [increasePointer, cursor_bind, List.length_append]
  rw [hwrap, if_neg (by omega)]
  rfl

theorem getCurPosition_reads (n : Nat) (rest : Octets) : ReadsFrom getCurPosition n [] rest n := by
  intro front trace hn _
  exact ⟨trace, by rw [← hn]; rfl⟩

theorem getSize_reads (n : Nat) (rest : Octets) :
    ReadsFrom getSize n [] rest (n + rest.length) := by
  intro front trace hn _
  refine ⟨trace, ?_⟩
  rw [← hn, List.append_nil, ← List.length_append]
  rfl

theorem readDataBuffer_reads (n : Nat) {w : Octets} (hne : w ≠ [])
    (hmax : w.length ≤ MMS_PDU_MAX_SIZE) (rest : Octets) :
    ReadsFrom (readDataBuffer n w.length) n [] (w ++ rest) w := by
  intro front trace hn hshort
  simp only [List.length_append] at hshort
  have hwrap : u32 (n + w.length) = n + w.length := u32_of_lt (by omega)
  have hlen : w.length ≠ 0 := fun h => hne (List.length_eq_zero_iff.mp h)
  have hcopy : ((front ++ [] ++ (w ++ rest)).drop n).take w.length = w := by
    rw [List.append_nil, List.drop_left' hn, List.take_left]
  refine ⟨⟨front.length, n, w.length⟩ :: trace, ?_⟩
  simp only [readDataBuffer, cursor_bind, hwrap, if_neg (Nat.not_lt.mpr hmax)]
  rw [if_neg (by simp; omega), if_neg hlen, hcopy]
  rfl

theorem decodeIsShortInt_reads (b : UInt8) (rest : Octets) :
    ReadsBefore decodeIsShortInt [] (b :: rest) (decide (b > 0x7f)) :=
  ReadsBefore.bind_nil (peekOrZero_reads b rest) (ReadsBefore.pure _ _)

theorem decodeIsString_reads (b : UInt8) (rest : Octets) :
    ReadsBefore decodeIsString [] (b :: rest) (decide (0x20 ≤ b ∧ b ≤ 0x7f)) :=
  ReadsBefore.bind_nil (peekOrZero_reads b rest) (ReadsBefore.pure _ _)

theorem decodeIsValueLength_reads (b : UInt8) (rest : Octets) :
    ReadsBefore decodeIsValueLength [] (b :: rest) (decide (b ≤ 0x1f)) :=
  ReadsBefore.bind_nil (peekOrZero_reads b rest) (ReadsBefore.pure _ _)

end Octets

/-! ## Lengths -/

/-- The number in base 128 that follows the digits of `value`. Every octet but the last has
its high bit set. -/
def uintvarFrom (value : Nat) : Octets → Option Nat
  | [] => none
  | b :: w =>
      if b.toNat < 128 then
        if w = [] then some (value * 128 + b.toNat) else none
      else
        uintvarFrom (value * 128 + (b.toNat - 128)) w

/-- `Uintvar-integer` -/
structure IsUintvar (n : Nat) (w : Octets) : Prop where
  digits : uintvarFrom 0 w = some n
  lt : n < 2 ^ 32

/-- `Value-length = Short-length | (Length-quote Uintvar-integer)` -/
inductive IsValueLength (n : Nat) : Octets → Prop
  | short (h : n ≤ 30) : IsValueLength n [UInt8.ofNat n]
  | long {w : Octets} (h : IsUintvar n w) : IsValueLength n (0x1f :: w)

theorem uintvarAhead_of_uintvarFrom {value n : Nat} {w : Octets} (h : uintvarFrom value w = some n)
    (count : Nat) (rest : Octets) :
    uintvarAhead value count (w ++ rest) = some (n, count + w.length) := by
  induction w generalizing value count with
  | nil => cases h
  | cons b w ih =>
      rw [uintvarFrom] at h
      rw [List.cons_append, uintvarAhead]
      by_cases hb : b.toNat < 128
      · rw [if_pos hb] at h ⊢
        split at h
        · next hw =>
            rw [hw]
            cases h
            rfl
        · cases h
      · rw [if_neg hb] at h ⊢
        rw [ih h, List.length_cons, Nat.add_right_comm, Nat.add_assoc]

theorem decodeUintvar_reads {n : Nat} {w : Octets} (h : IsUintvar n w) :
    Reads decodeUintvar w (n, w.length) := by
  intro rest
  apply ReadsBefore.of_ahead
  intro c hshort hahead
  have hdigits := uintvarAhead_of_uintvarFrom h.digits 0 rest
  rw [Nat.zero_add] at hdigits
  rcases decodeUintvar_of_some hshort (by rw [hahead, hdigits]) with ⟨c', htook, hrun⟩
  rw [u32_of_lt h.lt] at hrun
  exact ⟨c', htook, hrun⟩

theorem decodeValueLengthReturnLen_reads {n : Nat} {w : Octets} (h : IsValueLength n w) :
    Reads decodeValueLengthReturnLen w (n, w.length) := by
  intro rest front trace hshort
  have hlen : w.length < 2 ^ 32 := by
    simp only [List.length_append] at hshort
    omega
  revert front trace
  change ReadsBefore decodeValueLengthReturnLen w rest (n, w.length)
  cases h with
  | short hle =>
      have hsize : n < UInt8.size := Nat.lt_of_le_of_lt hle (by decide)
      have hnat : (UInt8.ofNat n).toNat = n := UInt8.toNat_ofNat_of_lt' hsize
      have hshort : UInt8.ofNat n ≤ 30 := (UInt8.ofNat_le_iff_le hsize (by decide)).2 hle
      refine ReadsBefore.bind_last (getOneByte_reads _ rest).attempt ?_
      simp only [if_pos hshort, hnat]
      exact ReadsBefore.pure _ _
  | @long w h =>
      have hlong : ¬ (0x1f : UInt8) ≤ 30 := by decide
      have hcount : u32 (w.length + 1) = (0x1f :: w).length := by
        rw [List.length_cons] at hlen ⊢
        exact u32_of_lt hlen
      refine ReadsBefore.bind (u := [0x1f]) (getOneByte_reads _ _).attempt ?_
      simp only [if_neg hlong, if_true, ← hcount]
      exact ReadsBefore.bind_last (decodeUintvar_reads h rest) (ReadsBefore.pure _ _)

theorem decodeValueLength_reads {n : Nat} {w : Octets} (h : IsValueLength n w) :
    Reads decodeValueLength w n :=
  fun rest => ReadsBefore.bind_last (decodeValueLengthReturnLen_reads h rest)
    (ReadsBefore.pure _ _)

/-! ## Texts -/

theorem textAhead_append_nul {w : Octets} (h : 0 ∉ w) (rest : Octets) :
    textAhead (w ++ [0] ++ rest) = w := by
  have hall : ∀ b ∈ w, decide (b ≠ 0) = true := fun b hb =>
    decide_eq_true fun heq => h (heq ▸ hb)
  rw [textAhead, List.append_assoc, List.takeWhile_append_of_pos hall]
  simp

theorem textExtent_append_nul {w : Octets} (h : 0 ∉ w) (rest : Octets) :
    textExtent (w ++ [0] ++ rest) = (w ++ [0]).length := by
  rw [(textExtent_eq_succ_iff _).2 (by simp), textAhead_append_nul h, List.length_append]
  rfl

theorem untilNul_reads (keep counts : UInt8 → Bool) {w : Octets} (h : 0 ∉ w) (str : Octets)
    (len : Nat) :
    Reads (untilNul keep counts str len) (w ++ [0])
      (str ++ w.filter keep, len + w.countP counts) := by
  intro rest
  apply ReadsBefore.of_ahead
  intro c hshort hahead
  rcases untilNul_run keep counts str len hshort with ⟨c', htook, hrun⟩
  rw [hahead, textAhead_append_nul h] at hrun
  rw [hahead, textExtent_append_nul h] at htook
  exact ⟨c', htook, hrun⟩

theorem untilNul_all_reads {w : Octets} (h : 0 ∉ w) (len : Nat) :
    Reads (untilNul (fun _ => true) (fun _ => true) [] len) (w ++ [0]) (w, len + w.length) := by
  simpa using untilNul_reads (fun _ => true) (fun _ => true) h [] len

/-- `Text-string = [Quote] *TEXT End-of-string` -/
structure TextString where
  quoted : Bool
  text : Octets
  deriving DecidableEq, Repr

namespace TextString

def wire (t : TextString) : Octets := (if t.quoted then [0x7f] else []) ++ t.text ++ [0]

/-- The octets that a text counts, without its end. -/
def count (t : TextString) : Nat := t.text.length + t.quoted.toNat

/-- The text ends where it ends, and a quote is one. -/
structure Valid (t : TextString) : Prop where
  noNul : 0 ∉ t.text
  quote : t.quoted = false → t.text.head? ≠ some 0x7f

theorem length_wire (t : TextString) : t.wire.length = t.count + 1 := by
  unfold wire count
  cases t.quoted <;> simp

theorem wire_ne_nil (t : TextString) : t.wire ≠ [] := by
  simp [wire]

theorem decodeText_reads {t : TextString} (h : t.Valid) : Reads decodeText t.wire (t.text, t.count) := by
  intro rest
  obtain ⟨quoted, text⟩ := t
  obtain ⟨hnul, hquote⟩ := h
  simp only at hnul hquote
  cases quoted with
  | true =>
      have hread := untilNul_all_reads hnul 1 rest
      rw [Nat.add_comm] at hread
      exact ReadsBefore.bind (u := [0x7f]) (getOneByte_reads _ _) hread
  | false =>
      have hread := untilNul_all_reads hnul 0 rest
      rw [Nat.zero_add] at hread
      cases text with
      | nil => exact giveBack_reads attempt_movesBack rfl hread
      | cons b text =>
          have hb : b ≠ 127 := fun heq => hquote rfl (by rw [heq]; rfl)
          exact giveBack_reads attempt_movesBack (if_pos hb) hread

end TextString

theorem decodeQuotedText_reads {w : Octets} (h : 0 ∉ w) (hne : w ≠ []) :
    Reads decodeQuotedText (w ++ [0]) (w.filter (· != 0x22), w.length) := by
  intro rest
  have hread := untilNul_reads (fun oneByte => oneByte != 0x22) (fun _ => true) h [] 0 rest
  have hcount : 0 + w.countP (fun _ => true) = w.length := by simp
  rw [hcount, List.nil_append] at hread
  refine ReadsBefore.bind_last hread ?_
  have hlen : 0 < w.length := List.length_pos_iff.mpr hne
  exact ReadsBefore.bind_nil (ReadsBefore.guard hlen _) (ReadsBefore.pure _ _)

theorem charIsToken_range {b : UInt8} (h : charIsToken b = true) : 33 ≤ b ∧ b ≤ 126 := by
  unfold charIsToken at h
  split at h
  · simp at h
  · next hin =>
      rw [not_or, UInt8.not_lt, gt_iff_lt, UInt8.not_lt] at hin
      exact hin

theorem decodeTokenText_reads {w : Octets} (h : w.all charIsToken = true) (hne : w ≠ []) :
    Reads decodeTokenText (w ++ [0]) (w, w.length) := by
  intro rest
  obtain ⟨b, w', rfl⟩ := List.exists_cons_of_ne_nil hne
  have htoken : ∀ c ∈ b :: w', charIsToken c = true := List.all_eq_true.mp h
  have hnul : 0 ∉ b :: w' := fun hmem => absurd (htoken 0 hmem) (by decide)
  have hrange := charIsToken_range (htoken b List.mem_cons_self)
  have hread := untilNul_reads charIsToken charIsToken hnul [] 0 rest
  rw [List.nil_append, List.filter_eq_self.mpr htoken, List.countP_eq_length.mpr htoken,
    Nat.zero_add] at hread
  refine ReadsBefore.bind_nil (peekOneByte_reads b _) ?_
  refine ReadsBefore.bind_nil (ReadsBefore.guard hrange _) ?_
  refine ReadsBefore.bind_last hread ?_
  exact ReadsBefore.bind_nil (ReadsBefore.guard (by simp) _) (ReadsBefore.pure _ _)

/-! ## Integers -/

/-- The number in base 256 that follows the digits of `value`. -/
def octetsFrom (value : Nat) (w : Octets) : Nat := w.foldl (fun v b => v * 256 + b.toNat) value

theorem longIntegerLoop_reads {w : Octets} {value k : Nat} (hvalue : value < 256 ^ k)
    (hk : k + w.length ≤ 8) : Reads (longIntegerLoop w.length value) w (octetsFrom value w) := by
  intro rest
  induction w generalizing value k with
  | nil => exact ReadsBefore.pure _ _
  | cons b w ih =>
      rw [List.length_cons] at hk
      have hb := b.toNat_lt
      have hle : (256 : Nat) ^ k * 256 ≤ 2 ^ 64 := by
        rw [show 256 = 2 ^ 8 from rfl, ← Nat.pow_mul, ← Nat.pow_add]
        exact Nat.pow_le_pow_right (by omega) (by omega)
      have hnext : u64 (value <<< 8) ||| b.toNat = value * 256 + b.toNat := by
        rw [u64, Nat.shiftLeft_eq, Nat.mod_eq_of_lt (by omega), Nat.mul_comm value,
          ← Nat.two_pow_add_eq_or_of_lt hb]
      refine ReadsBefore.bind (u := [b]) (getOneByte_reads b _) ?_
      rw [hnext]
      refine ih (k := k + 1) ?_ (by omega)
      rw [Nat.pow_succ]
      omega

/-- `Integer-value = Short-integer | Long-integer` -/
inductive IntegerValue where
  | short (value : UInt8)
  | long (octets : Octets)
  deriving DecidableEq, Repr

namespace IntegerValue

def wire : IntegerValue → Octets
  | short value => [value ||| 0x80]
  | long octets => UInt8.ofNat octets.length :: octets

def value : IntegerValue → Nat
  | short value => value.toNat
  | long octets => octetsFrom 0 octets

/-- A short integer has seven bits, and a long one at most thirty octets. -/
def Valid : IntegerValue → Prop
  | short value => value < 0x80
  | long octets => octets ≠ [] ∧ octets.length ≤ 30

/-- A long integer that has 64 bits. -/
def IsShort : IntegerValue → Prop
  | short _ => True
  | long octets => octets.length ≤ 8

end IntegerValue

theorem decodeLongInteger_reads {octets : Octets} (h : octets.length ≤ 8) :
    Reads decodeLongInteger (UInt8.ofNat octets.length :: octets) (octetsFrom 0 octets) := by
  intro rest
  have hsize : octets.length < UInt8.size := Nat.lt_of_le_of_lt h (by decide)
  have hnat : (UInt8.ofNat octets.length).toNat = octets.length := UInt8.toNat_ofNat_of_lt' hsize
  have hle : UInt8.ofNat octets.length ≤ 8 := (UInt8.ofNat_le_iff_le hsize (by decide)).2 h
  refine ReadsBefore.bind (u := [UInt8.ofNat octets.length]) (getOneByte_reads _ _) ?_
  refine ReadsBefore.bind_nil (ReadsBefore.guard hle _) ?_
  rw [hnat]
  exact longIntegerLoop_reads (k := 0) (by simp) (by omega) rest

theorem or_0x80_and_0x7f {v : UInt8} (h : v < 0x80) : v ||| 0x80 > 0x7f ∧ (v ||| 0x80) &&& 0x7f = v := by
  obtain ⟨f⟩ := v
  revert f
  decide

theorem decodeInteger_reads {v : IntegerValue} (h : v.Valid) (hshort : v.IsShort) :
    Reads decodeInteger v.wire v.value := by
  intro rest
  cases v with
  | short value =>
      obtain ⟨hhigh, hback⟩ := or_0x80_and_0x7f h
      refine ReadsBefore.bind_nil (decodeIsShortInt_reads _ _) ?_
      rw [if_pos (decide_eq_true hhigh)]
      have hread : Reads decodeShortInteger [value ||| 0x80] value := by
        intro rest
        refine ReadsBefore.bind_last (getOneByte_reads _ _) ?_
        refine ReadsBefore.bind_nil (ReadsBefore.guard hhigh _) ?_
        rw [hback]
        exact ReadsBefore.pure _ _
      exact ReadsBefore.bind_last (hread rest) (ReadsBefore.pure _ _)
  | long octets =>
      have hle : octets.length ≤ 8 := hshort
      have hsize : octets.length < UInt8.size := Nat.lt_of_le_of_lt hle (by decide)
      have hlow : ¬ UInt8.ofNat octets.length > 0x7f :=
        UInt8.not_lt.2 ((UInt8.ofNat_le_iff_le hsize (by decide)).2 (Nat.le_trans hle (by decide)))
      refine ReadsBefore.bind_nil (decodeIsShortInt_reads _ _) ?_
      rw [if_neg (by simpa using hlow)]
      exact decodeLongInteger_reads hle rest

end TelephonySms.Mms
