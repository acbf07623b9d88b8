import TelephonySms.Mms.Body

/-! # Quoted-printable texts

`MmsQuotedPrintable`. The decoder looks for `=/r/n` where a soft line break is an equals
sign before a carriage return and a line feed, so that it takes no break for one: each
leaves octets in the text.
-/

namespace TelephonySms.Mms

namespace MmsQuotedPrintable

def hex : Octets := ascii "0123456789ABCDEF"

def hexDigit (value : UInt8) : UInt8 := hex.getD value.toNat 0

/-- What one octet is encoded as. -/
def encodeOne (oneByte : UInt8) : Octets :=
  if (33 ≤ oneByte ∧ oneByte < 61) ∨ (61 < oneByte ∧ oneByte ≤ 126) then
    [oneByte]
  else
    [0x3d, hexDigit ((oneByte >>> 4) &&& 0x0f), hexDigit (oneByte &&& 0x0f)]

/-- The encoded units of an input, one for each octet. -/
def units (input : Octets) : List Octets :=
  if input.length > MMS_PDU_MAX_SIZE then [] else input.map encodeOne

def encode (input : Octets) : Octets := (units input).flatten

def decode (platform : Platform) (src : Octets) : Option Octets :=
  if src.length = 0 ∨ src.length > MAX_MMS_ATTACHMENT_LEN then
    none
  else
    some (quotedPrintableLoop platform src.length src)

theorem quotedPrintableDecode_eq (platform : Platform) (src : Octets) :
    quotedPrintableDecode platform src = (decode platform src).getD [] := by
  unfold quotedPrintableDecode decode
  split <;> rfl

/-- An equals sign, a carriage return and a line feed. -/
def softBreak : Octets := [0x3d, 0x0d, 0x0a]

def softBreaks (count : Nat) : Octets := (List.replicate count softBreak).flatten

/-- `breaks i` soft line breaks between the unit `i` and the next one. -/
def insertBreaks (breaks : Nat → Nat) : List Octets → Octets
  | [] => []
  | [unit] => unit
  | unit :: next :: rest =>
      unit ++ (softBreaks (breaks 0) ++ insertBreaks (fun i => breaks (i + 1)) (next :: rest))

/-- `%02X` finds the two digits that the encoder writes. -/
def ScansHex (platform : Platform) : Prop :=
  ∀ high low : UInt8, high < 16 → low < 16 → ∀ rest,
    platform.scanHexOctet (0x3d :: hexDigit high :: hexDigit low :: rest) =
      some (16 * high.toNat + low.toNat)

/-! ## The loop -/

variable (platform : Platform)

/-- The loop with as many rounds as there are octets. -/
def decodeLoop (src : Octets) : Octets := quotedPrintableLoop platform src.length src

/-- Rounds beyond the octets change nothing. -/
theorem quotedPrintableLoop_congr {fuel fuel' : Nat} {src : Octets} (h : src.length ≤ fuel)
    (h' : src.length ≤ fuel') :
    quotedPrintableLoop platform fuel src = quotedPrintableLoop platform fuel' src := by
  induction fuel generalizing fuel' src with
  | zero =>
      have hnil : src = [] := List.length_eq_zero_iff.1 (Nat.le_zero.1 h)
      subst hnil
      cases fuel' <;> rfl
  | succ fuel ih =>
      cases src with
      | nil => cases fuel' <;> rfl
      | cons oneByte rest =>
          cases fuel' with
          | zero => simp at h'
          | succ fuel' =>
              rw [List.length_cons] at h h'
              have hrest : quotedPrintableLoop platform fuel rest =
                  quotedPrintableLoop platform fuel' rest :=
                ih (by omega) (by omega)
              have hdrop : ((oneByte :: rest).drop 3).length ≤ rest.length := by
                rw [List.length_drop, List.length_cons]
                omega
              have hlater : quotedPrintableLoop platform fuel ((oneByte :: rest).drop 3) =
                  quotedPrintableLoop platform fuel' ((oneByte :: rest).drop 3) :=
                ih (by omega) (by omega)
              simp only [quotedPrintableLoop, hrest, hlater]

theorem decodeLoop_cons (oneByte : UInt8) (rest : Octets) :
    decodeLoop platform (oneByte :: rest) =
      if (oneByte :: rest).take 3 = ascii "=/r" then
        decodeLoop platform ((oneByte :: rest).drop 3)
      else
        (if oneByte = 0x3d then platform.scanHexOctet (oneByte :: rest) else none).elim
          (oneByte :: decodeLoop platform rest)
          fun hexChar =>
            UInt8.ofNat hexChar :: decodeLoop platform ((oneByte :: rest).drop 3) := by
  have hlater : quotedPrintableLoop platform rest.length ((oneByte :: rest).drop 3) =
      decodeLoop platform ((oneByte :: rest).drop 3) := by
    apply quotedPrintableLoop_congr
    · rw [List.length_drop, List.length_cons]
      omega
    · exact Nat.le_refl _
  rw [decodeLoop, List.length_cons, quotedPrintableLoop, hlater]
  split
  · rfl
  · cases (if oneByte = 0x3d then platform.scanHexOctet (oneByte :: rest) else none) <;> rfl

/-- An octet that is no equals sign stands for itself. -/
theorem decodeLoop_literal {oneByte : UInt8} (h : oneByte ≠ 0x3d) (rest : Octets) :
    decodeLoop platform (oneByte :: rest) = oneByte :: decodeLoop platform rest := by
  have hbreak : (oneByte :: rest).take 3 ≠ ascii "=/r" := by
    intro heq
    exact h (List.cons.inj heq).1
  rw [decodeLoop_cons, if_neg hbreak, if_neg h]
  rfl

theorem hexDigit_ne_slash (value : UInt8) (h : value < 16) : hexDigit value ≠ 0x2f := by
  have hmem : hexDigit value ∈ hex := by
    have hlt : value.toNat < hex.length := UInt8.lt_iff_toNat_lt.1 h
    rw [hexDigit, List.getD_eq_getElem?_getD, List.getElem?_eq_getElem hlt]
    exact List.getElem_mem hlt
  intro heq
  rw [heq] at hmem
  exact absurd hmem (by decide)

theorem byte_halves (b : UInt8) :
    (b >>> 4) &&& 0x0f < 16 ∧ b &&& 0x0f < 16 ∧
      UInt8.ofNat (16 * ((b >>> 4) &&& 0x0f).toNat + (b &&& 0x0f).toNat) = b := by
  obtain ⟨f⟩ := b
  revert f
  decide

/-- A unit is decoded to its octet. -/
theorem decodeLoop_unit {platform : Platform} (hscan : ScansHex platform) (oneByte : UInt8)
    (rest : Octets) :
    decodeLoop platform (encodeOne oneByte ++ rest) = oneByte :: decodeLoop platform rest := by
  unfold encodeOne
  split
  · next hliteral =>
      apply decodeLoop_literal
      rintro rfl
      exact absurd hliteral (by decide)
  · rcases byte_halves oneByte with ⟨hhigh, hlow, hjoin⟩
    have hbreak : (0x3d :: hexDigit ((oneByte >>> 4) &&& 0x0f) :: hexDigit (oneByte &&& 0x0f) ::
        rest).take 3 ≠ ascii "=/r" := by
      intro heq
      exact hexDigit_ne_slash _ hhigh (List.cons.inj (List.cons.inj heq).2).1
    simp only [List.cons_append, List.nil_append]
    rw [decodeLoop_cons, if_neg hbreak, if_pos rfl, hscan _ _ hhigh hlow, Option.elim_some, hjoin]
    rfl

/-- A soft line break leaves one octet or all three. -/
theorem decodeLoop_softBreak (rest : Octets) :
    (decodeLoop platform rest).length < (decodeLoop platform (softBreak ++ rest)).length := by
  have hbreak : (softBreak ++ rest).take 3 ≠ ascii "=/r" := by
    intro heq
    exact absurd (List.cons.inj (List.cons.inj heq).2).1 (by decide)
  simp only [softBreak, List.cons_append, List.nil_append] at hbreak ⊢
  rw [decodeLoop_cons, if_neg hbreak, if_pos rfl]
  cases platform.scanHexOctet (0x3d :: 0x0d :: 0x0a :: rest) with
  | none =>
      rw [Option.elim_none, decodeLoop_literal platform (by decide),
        decodeLoop_literal platform (by decide)]
      simp only [List.length_cons]
      omega
  | some hexChar => exact Nat.lt_succ_self _

theorem decodeLoop_softBreaks (count : Nat) (rest : Octets) :
    (decodeLoop platform rest).length + count ≤
      (decodeLoop platform (softBreaks count ++ rest)).length := by
  induction count with
  | zero => exact Nat.le_refl _
  | succ count ih =>
      have hmore := decodeLoop_softBreak platform (softBreaks count ++ rest)
      rw [softBreaks, List.replicate_succ, List.flatten_cons, List.append_assoc]
      rw [softBreaks] at ih hmore
      omega

/-! ## Whole texts -/

variable {platform}

/-- Every octet is in the text again, and every soft line break adds to it. -/
theorem decodeLoop_insertBreaks (hscan : ScansHex platform) (input : Octets) (breaks : Nat → Nat) :
    input.length ≤ (decodeLoop platform (insertBreaks breaks (input.map encodeOne))).length ∧
      ∀ i, i + 1 < input.length → breaks i ≠ 0 →
        input.length < (decodeLoop platform (insertBreaks breaks (input.map encodeOne))).length := by
  induction input generalizing breaks with
  | nil => simp
  | cons oneByte rest ih =>
      cases rest with
      | nil =>
          have hunit := decodeLoop_unit hscan oneByte []
          rw [List.append_nil] at hunit
          simp [insertBreaks, hunit]
      | cons next rest =>
          rcases ih fun i => breaks (i + 1) with ⟨hle, hlt⟩
          simp only [List.map_cons, insertBreaks] at hle hlt ⊢
          have hbreaks := decodeLoop_softBreaks platform (breaks 0)
            (insertBreaks (fun i => breaks (i + 1)) (encodeOne next :: rest.map encodeOne))
          rw [decodeLoop_unit hscan, List.length_cons, List.length_cons (a := oneByte)]
          refine ⟨by omega, ?_⟩
          intro i hi hne
          cases i with
          | zero => omega
          | succ i =>
              have hlater := hlt i (by simpa using hi) hne
              omega

/-- Without breaks the units stand one behind the other. -/
theorem insertBreaks_none {breaks : Nat → Nat} {all : List Octets}
    (h : ∀ i, i + 1 < all.length → breaks i = 0) : insertBreaks breaks all = all.flatten := by
  induction all generalizing breaks with
  | nil => rfl
  | cons unit rest ih =>
      cases rest with
      | nil => simp [insertBreaks]
      | cons next rest =>
          have hfirst : breaks 0 = 0 := h 0 (by simp)
          have hrest : ∀ i, i + 1 < (next :: rest).length → breaks (i + 1) = 0 :=
            fun i hi => h (i + 1) (by simpa using hi)
          rw [insertBreaks, hfirst, ih hrest]
          rfl

theorem decodeLoop_units (hscan : ScansHex platform) (input : Octets) :
    decodeLoop platform (input.map encodeOne).flatten = input := by
  induction input with
  | nil => rfl
  | cons oneByte rest ih => rw [List.map_cons, List.flatten_cons, decodeLoop_unit hscan, ih]

theorem encodeOne_ne_nil (oneByte : UInt8) : encodeOne oneByte ≠ [] := by
  unfold encodeOne
  split <;> simp

theorem flatten_units_ne_nil {input : Octets} (h : input ≠ []) :
    (input.map encodeOne).flatten ≠ [] := by
  rcases List.exists_cons_of_ne_nil h with ⟨oneByte, rest, rfl⟩
  exact List.append_ne_nil_of_left_ne_nil (encodeOne_ne_nil oneByte) _

theorem decode_eq_some {src text : Octets} (h : decode platform src = some text) :
    decodeLoop platform src = text := by
  unfold decode at h
  split at h
  · cases h
  · exact Option.some.inj h

/-- Decoding undoes encoding where no soft line break is inserted, for every input that is
encoded at all. -/
theorem decode_insertBreaks_iff (platform : Platform) (hscan : ScansHex platform)
    (input : Octets) (hne : input ≠ []) (hlen : (encode input).length ≤ MAX_MMS_ATTACHMENT_LEN)
    (breaks : Nat → Nat) :
    decode platform (insertBreaks breaks (units input)) = some input ↔
      input.length ≤ MMS_PDU_MAX_SIZE ∧ ∀ i, i + 1 < input.length → breaks i = 0 := by
  by_cases hmax : input.length ≤ MMS_PDU_MAX_SIZE
  · have hunits : units input = input.map encodeOne := if_neg (Nat.not_lt.2 hmax)
    rw [encode, hunits] at hlen
    rw [hunits]
    constructor
    · intro hdecode
      refine ⟨hmax, ?_⟩
      intro i hi
      by_contra hbreak
      have hmore := (decodeLoop_insertBreaks hscan input breaks).2 i hi hbreak
      rw [decode_eq_some hdecode] at hmore
      exact Nat.lt_irrefl _ hmore
    · intro ⟨_, hnone⟩
      have hfirst : (input.map encodeOne).flatten ≠ [] := flatten_units_ne_nil hne
      have hpos : (input.map encodeOne).flatten.length ≠ 0 :=
        fun hzero => hfirst (List.length_eq_zero_iff.1 hzero)
      have hgood : ¬ ((input.map encodeOne).flatten.length = 0 ∨
          (input.map encodeOne).flatten.length > MAX_MMS_ATTACHMENT_LEN) := by omega
      rw [insertBreaks_none (by simpa using hnone), decode, if_neg hgood]
      exact congrArg some (decodeLoop_units hscan input)
  · have hunits : units input = [] := if_pos (Nat.lt_of_not_le hmax)
    rw [hunits]
    exact iff_of_false (by simp [decode, insertBreaks]) fun hboth => hmax hboth.1

/-! ## A scanner as in C -/

def isSpace (c : UInt8) : Bool := c == 0x20 || (0x09 ≤ c && c ≤ 0x0d)

def hexValue (c : UInt8) : Option Nat :=
  if 0x30 ≤ c ∧ c ≤ 0x39 then some (c.toNat - 0x30)
  else if 0x41 ≤ c ∧ c ≤ 0x46 then some (c.toNat - 0x37)
  else if 0x61 ≤ c ∧ c ≤ 0x66 then some (c.toNat - 0x57)
  else none

/-- A field of at most two characters: two digits, one, or one behind a sign. A zero before
an `x` starts a number that has no digits. -/
def scanField : Octets → Option Nat
  | [] => none
  | [c] => hexValue c
  | c :: d :: _ =>
      if c = 0x2b then hexValue d
      else if c = 0x2d then (hexValue d).map fun value => (2 ^ 32 - value) % 2 ^ 32
      else if c = 0x30 ∧ (d = 0x78 ∨ d = 0x58) then none
      else (hexValue c).map fun high => (hexValue d).elim high fun low => 16 * high + low

/-- `sscanf(input, "=%02X", &value)`, which skips white space before the digits. -/
def sscanfHex : Octets → Option Nat
  | [] => none
  | c :: rest => if c = 0x3d then scanField (rest.dropWhile isSpace) else none

def cPlatform : Platform := { plainPlatform with scanHexOctet := sscanfHex }

theorem hexDigit_scans (value : UInt8) (h : value < 16) :
    isSpace (hexDigit value) = false ∧ hexValue (hexDigit value) = some value.toNat ∧
      hexDigit value ≠ 0x2b ∧ hexDigit value ≠ 0x2d ∧ hexDigit value ≠ 0x78 ∧
      hexDigit value ≠ 0x58 := by
  obtain ⟨f⟩ := value
  revert f
  decide

theorem cPlatform_scansHex : ScansHex cPlatform := by
  intro high low hhigh hlow rest
  rcases hexDigit_scans high hhigh with ⟨hspace, hvalue, hplus, hminus, -, -⟩
  rcases hexDigit_scans low hlow with ⟨-, hvalue', -, -, hx, hX⟩
  have hskip : (hexDigit high :: hexDigit low :: rest).dropWhile isSpace =
      hexDigit high :: hexDigit low :: rest := List.dropWhile_cons_of_neg (by simp [hspace])
  have hprefix : ¬ (hexDigit high = 0x30 ∧ (hexDigit low = 0x78 ∨ hexDigit low = 0x58)) :=
    fun hboth => hboth.2.elim hx hX
  change sscanfHex (0x3d :: hexDigit high :: hexDigit low :: rest) = _
  rw [sscanfHex, if_pos rfl, hskip, scanField, if_neg hplus, if_neg hminus, if_neg hprefix,
    hvalue, hvalue']
  rfl

/-- The break before `b` reads it as a digit and leaves it behind too. -/
theorem softBreak_decoded_as_octet :
    encode (ascii "ab") = ascii "ab" ∧
      decode cPlatform (insertBreaks (fun _ => 1) (units (ascii "ab"))) =
        some [0x61, 0x0b, 0x62] := by
  decide

theorem unbroken_decoded : ScansHex cPlatform ∧ ascii "a b" ≠ [] ∧
    (encode (ascii "a b")).length ≤ MAX_MMS_ATTACHMENT_LEN ∧
    (decode cPlatform (insertBreaks (fun _ => 0) (units (ascii "a b"))) = some (ascii "a b") ↔
      (ascii "a b").length ≤ MMS_PDU_MAX_SIZE ∧ ∀ i, i + 1 < (ascii "a b").length → 0 = 0) :=
  ⟨cPlatform_scansHex, by decide, by decide,
    decode_insertBreaks_iff cPlatform cPlatform_scansHex (ascii "a b") (by decide) (by decide)
      fun _ => 0⟩

end MmsQuotedPrintable

end TelephonySms.Mms
