import TelephonySms.Pdu.Buffer
import TelephonySms.Septet

/-! # `GsmSmsCommonUtils`

The septet packer and reader, and the conversions between telephone digits and
BCD octets.
-/

namespace TelephonySms.Pdu

open SmsPduBuffer

/-! ## Septets -/

def pack7bitCharPartData (b : SmsPduBuffer) (c : UInt8) (shift : Nat) : Option SmsPduBuffer := do
  let oneByte ← b.getValueFromIndex b.previousIndex
  let b ← b.insertByte (oneByte ||| c <<< UInt8.ofNat shift) b.previousIndex
  let oneByte ← b.getTopValue
  b.writeByte (oneByte ||| c >>> UInt8.ofNat (8 - shift))

/-- The loop of `Pack7bitChar` over the characters left. A round that starts
with `shift` zero goes on with the next character, as another round would. -/
def pack7bitCharLoop : SmsPduBuffer → Nat → List UInt8 → Option SmsPduBuffer
  | b, _, [] => some b
  | b, shift, c :: cs =>
      if shift = 0 then do
        let b ← b.writeByte c
        pack7bitCharLoop b 7 cs
      else if shift > 1 then do
        let b ← pack7bitCharPartData b c shift
        pack7bitCharLoop b (shift - 1) cs
      else do
        let oneByte ← b.getValueFromIndex b.previousIndex
        let b ← b.insertByte (oneByte ||| c <<< UInt8.ofNat shift) b.previousIndex
        pack7bitCharLoop b (shift - 1) cs

def pack7bitChar (b : SmsPduBuffer) (userData : List UInt8) (fillBits : Nat) :
    Option SmsPduBuffer :=
  if userData.length > 160 then none
  else pack7bitCharLoop (if fillBits > 0 then b.moveForward 1 else b) fillBits userData

/-- The loop of `Unpack7bitChar` for `n` more characters: an octet that cannot
be read ends it with what there is. -/
def unpack7bitCharLoop : SmsPduBuffer → Nat → Nat → List UInt8 × SmsPduBuffer
  | b, _, 0 => ([], b)
  | b, shift, n + 1 =>
      if shift = 0 then
        match b.readByte with
        | none => ([], b)
        | some (oneByte, b) =>
            let (cs, b) := unpack7bitCharLoop b 7 n
            ((oneByte &&& 0x7F) :: cs, b)
      else
        match b.pickOneByteFromIndex b.previousIndex with
        | none => ([], b)
        | some oneByte =>
            if shift = 1 then
              let (cs, b) := unpack7bitCharLoop b 0 n
              (((oneByte >>> UInt8.ofNat shift) &&& 0x7F) :: cs, b)
            else
              match b.pickOneByte with
              | none => ([], b)
              | some nextByte =>
                  let (cs, b) := unpack7bitCharLoop (b.moveForward 1) (shift - 1) n
                  ((((oneByte >>> UInt8.ofNat shift) + (nextByte <<< UInt8.ofNat (8 - shift)))
                    &&& 0x7F) :: cs, b)

def unpack7bitChar (b : SmsPduBuffer) (dataLen fillBits unpackDataLen : Nat) :
    Option (List UInt8 × SmsPduBuffer) :=
  if dataLen ≥ unpackDataLen ∨ fillBits > 7 then none
  else
    some (unpack7bitCharLoop (if fillBits > 0 then b.moveForward 1 else b) fillBits dataLen)

theorem insertByte_previousIndex (passed rest : List UInt8) (p v : UInt8)
    (hlen : passed.length < 0x10000) :
    (cursor (passed ++ [p]) rest).insertByte v (cursor (passed ++ [p]) rest).previousIndex =
      some (cursor (passed ++ [v]) rest) := by
  rw [previousIndex_cursor_concat _ _ _ hlen, insertByte_cursor_of_lt _ _ _ _ (by simp)]
  simp

theorem getValueFromIndex_previousIndex (passed rest : List UInt8) (p : UInt8)
    (hlen : passed.length < 0x10000) :
    (cursor (passed ++ [p]) rest).getValueFromIndex (cursor (passed ++ [p]) rest).previousIndex =
      some p := by
  rw [previousIndex_cursor_concat _ _ _ hlen]
  simp [getValueFromIndex, cursor]

theorem pack7bitCharPartData_cursor (passed rest : List UInt8) (p w c : UInt8) (shift : Nat)
    (hlen : passed.length < 0x10000) :
    pack7bitCharPartData (cursor (passed ++ [p]) (w :: rest)) c shift =
      some (cursor (passed ++ [p ||| c <<< UInt8.ofNat shift, w ||| c >>> UInt8.ofNat (8 - shift)])
        rest) := by
  simp [pack7bitCharPartData, getValueFromIndex_previousIndex _ _ _ hlen,
    insertByte_previousIndex _ _ _ _ hlen]

/-- Over blank octets the loop of the packer lays out `Septet.pack`. The octet
in progress, if there is one, is the last before the cursor. -/
theorem pack7bitCharLoop_cursor (cs passed : List UInt8) {k m n : Nat} {p : UInt8} (hk : k < 8)
    (hm : m + (k + 7) / 8 = (k + 7 * cs.length + 7) / 8 + n)
    (hlen : passed.length + (k + 7) / 8 + m < 0x10000) :
    pack7bitCharLoop (cursor (passed ++ Septet.pack k p []) (List.replicate m 0)) k cs =
      some (cursor (passed ++ Septet.pack k p cs) (List.replicate n 0)) := by
  induction cs generalizing passed k m p with
  | nil =>
      have hmn : m = n := by
        simp only [List.length_nil] at hm
        omega
      rw [pack7bitCharLoop, hmn]
  | cons c cs ih =>
      rw [List.length_cons] at hm
      match k with
      | 0 =>
          obtain ⟨m, rfl⟩ : ∃ m', m = m' + 1 := ⟨m - 1, by omega⟩
          have hrest := ih passed (k := 7) (m := m) (p := c) (by omega) (by omega) (by omega)
          simpa [pack7bitCharLoop, Septet.pack, List.replicate_succ] using hrest
      | 1 =>
          have hrest := ih (passed ++ [p ||| c <<< 1]) (k := 0) (m := m) (p := 0) (by omega)
            (by omega) (by simp; omega)
          simpa [pack7bitCharLoop, Septet.pack,
            getValueFromIndex_previousIndex passed _ p (by omega),
            insertByte_previousIndex passed _ p _ (by omega)] using hrest
      | k + 2 =>
          obtain ⟨m, rfl⟩ : ∃ m', m = m' + 1 := ⟨m - 1, by omega⟩
          have hrest := ih (passed ++ [p ||| c <<< UInt8.ofNat (k + 2)]) (k := k + 1) (m := m)
            (p := c >>> UInt8.ofNat (6 - k)) (by omega) (by omega) (by simp; omega)
          have hsub : 8 - (k + 2) = 6 - k := by omega
          simpa [pack7bitCharLoop, Septet.pack, List.replicate_succ, hsub,
            pack7bitCharPartData_cursor passed _ p 0 c (k + 2) (by omega)] using hrest

/-- `Pack7bitChar` lays the septets after the fill bits. -/
theorem pack7bitChar_cursor (cs passed : List UInt8) {fillBits m n : Nat} (hk : fillBits < 8)
    (hcs : cs.length ≤ 160) (hm : m = (fillBits + 7 * cs.length + 7) / 8 + n)
    (hlen : passed.length + m < 0x10000) :
    pack7bitChar (cursor passed (List.replicate m 0)) cs fillBits =
      some (cursor (passed ++ Septet.pack fillBits 0 cs) (List.replicate n 0)) := by
  rw [pack7bitChar, if_neg (by omega)]
  match fillBits with
  | 0 =>
      have hloop := pack7bitCharLoop_cursor cs passed (k := 0) (m := m) (n := n) (p := 0) (by omega)
        (by omega) (by omega)
      simpa [Septet.pack] using hloop
  | k + 1 =>
      obtain ⟨m, rfl⟩ : ∃ m', m = m' + 1 := ⟨m - 1, by omega⟩
      have hloop := pack7bitCharLoop_cursor cs passed (k := k + 1) (m := m) (n := n) (p := 0) hk
        (by omega) (by omega)
      simpa [Septet.pack, List.replicate_succ] using hloop

/-- Over octets of any kind the loop of the packer takes as many of them. -/
theorem pack7bitCharLoop_length (cs passed current rest : List UInt8) {k : Nat} {b : SmsPduBuffer}
    (hk : k < 8) (hcurrent : current.length = (k + 7) / 8)
    (hlen : passed.length + current.length + rest.length < 0x10000)
    (h : pack7bitCharLoop (cursor (passed ++ current) rest) k cs = some b) :
    ∃ body rest', b = cursor (passed ++ body) rest' ∧
      body.length = (k + 7 * cs.length + 7) / 8 ∧
      body.length + rest'.length = current.length + rest.length := by
  induction cs generalizing passed current rest k with
  | nil =>
      rw [pack7bitCharLoop] at h
      cases h
      exact ⟨current, rest, rfl, by simpa using hcurrent, rfl⟩
  | cons c cs ih =>
      rw [List.length_cons]
      match k with
      | 0 =>
          obtain rfl : current = [] := List.eq_nil_of_length_eq_zero (by omega)
          cases rest with
          | nil => simp [pack7bitCharLoop] at h
          | cons w rest =>
              simp only [List.length_cons, List.length_nil] at hlen
              obtain ⟨body, rest', rfl, hbody, htotal⟩ := ih passed [c] rest (k := 7) (by omega) rfl
                (by simp; omega) (by simpa [pack7bitCharLoop] using h)
              exact ⟨body, rest', rfl, by omega, by simp at htotal ⊢; omega⟩
      | 1 =>
          obtain ⟨p, rfl⟩ := List.length_eq_one_iff.mp (show current.length = 1 by omega)
          simp only [List.length_cons, List.length_nil] at hlen
          obtain ⟨body, rest', rfl, hbody, htotal⟩ := ih (passed ++ [p ||| c <<< 1]) [] rest (k := 0)
            (by omega) rfl (by simp; omega)
            (by simpa [pack7bitCharLoop, getValueFromIndex_previousIndex passed _ p (by omega),
              insertByte_previousIndex passed _ p _ (by omega)] using h)
          exact ⟨(p ||| c <<< 1) :: body, rest', by simp, by simp; omega,
            by simp at htotal ⊢; omega⟩
      | k + 2 =>
          obtain ⟨p, rfl⟩ := List.length_eq_one_iff.mp (show current.length = 1 by omega)
          simp only [List.length_cons, List.length_nil] at hlen
          cases rest with
          | nil =>
              simp [pack7bitCharLoop, pack7bitCharPartData,
                getValueFromIndex_previousIndex passed _ p (by omega),
                insertByte_previousIndex passed _ p _ (by omega), getTopValue] at h
          | cons w rest =>
              simp only [List.length_cons] at hlen
              obtain ⟨body, rest', rfl, hbody, htotal⟩ := ih
                (passed ++ [p ||| c <<< UInt8.ofNat (k + 2)])
                [w ||| c >>> UInt8.ofNat (8 - (k + 2))] rest (k := k + 1) (by omega)
                (by simp; omega) (by simp; omega)
                (by simpa [pack7bitCharLoop,
                  pack7bitCharPartData_cursor passed _ p w c (k + 2) (by omega)] using h)
              exact ⟨(p ||| c <<< UInt8.ofNat (k + 2)) :: body, rest', by simp, by simp; omega,
                by simp at htotal ⊢; omega⟩

theorem pack7bitChar_length {cs passed rest : List UInt8} {fillBits : Nat} {b : SmsPduBuffer}
    (hk : fillBits < 8) (hrest : rest ≠ []) (hlen : passed.length + rest.length < 0x10000)
    (h : pack7bitChar (cursor passed rest) cs fillBits = some b) :
    ∃ body rest', b = cursor (passed ++ body) rest' ∧
      body.length = (fillBits + 7 * cs.length + 7) / 8 ∧
      body.length + rest'.length = rest.length := by
  unfold pack7bitChar at h
  split at h
  · simp at h
  · match fillBits, rest with
    | 0, rest =>
        obtain ⟨body, rest', hb, hbody, htotal⟩ := pack7bitCharLoop_length cs passed [] rest hk rfl
          (by simp; omega) (by simpa using h)
        exact ⟨body, rest', hb, hbody, by simpa using htotal⟩
    | k + 1, [] => exact absurd rfl hrest
    | k + 1, w :: rest =>
        simp only [List.length_cons] at hlen
        obtain ⟨body, rest', hb, hbody, htotal⟩ := pack7bitCharLoop_length cs passed [w] rest hk
          (by simp; omega) (by simp; omega) (by simpa using h)
        exact ⟨body, rest', hb, hbody, by simp at htotal ⊢; omega⟩

/-- The reader's loop is `Septet.unpack` on the octets from the current one on,
and stays inside the buffer. -/
theorem unpack7bitCharLoop_cursor (n : Nat) (passed os : List UInt8) :
    (passed.length + os.length < 0x10000 →
      ∃ passed' rest, unpack7bitCharLoop (cursor passed os) 0 n =
        (Septet.unpack 0 n os, cursor passed' rest) ∧ passed' ++ rest = passed ++ os) ∧
    (passed.length + os.length + 1 < 0x10000 → ∀ o k, 0 < k →
      ∃ passed' rest, unpack7bitCharLoop (cursor (passed ++ [o]) os) k n =
        (Septet.unpack k n (o :: os), cursor passed' rest) ∧
          passed' ++ rest = passed ++ o :: os) := by
  induction n generalizing passed os with
  | zero =>
      refine ⟨fun _ => ⟨passed, os, by simp [unpack7bitCharLoop, Septet.unpack], rfl⟩, ?_⟩
      intro _ o k hk
      exact ⟨passed ++ [o], os, by simp [unpack7bitCharLoop, Septet.unpack], by simp⟩
  | succ n ih =>
      constructor
      · intro hlen
        cases os with
        | nil => exact ⟨passed, [], by simp [unpack7bitCharLoop, Septet.unpack], rfl⟩
        | cons o os =>
            obtain ⟨passed', rest, hloop, hdata⟩ := (ih passed os).2 hlen o 7 (by omega)
            exact ⟨passed', rest, by simp [unpack7bitCharLoop, Septet.unpack, hloop], hdata⟩
      · intro hlen o k hk
        have hprev : (cursor (passed ++ [o]) os).pickOneByteFromIndex
            (cursor (passed ++ [o]) os).previousIndex = some o :=
          getValueFromIndex_previousIndex passed os o (by omega)
        obtain rfl | ⟨k, rfl⟩ : k = 1 ∨ ∃ j, k = j + 2 := by
          rcases k with _ | _ | k
          · cases hk
          · exact .inl rfl
          · exact .inr ⟨k, rfl⟩
        · obtain ⟨passed', rest, hloop, hdata⟩ :=
            (ih (passed ++ [o]) os).1 (by simp; omega)
          exact ⟨passed', rest, by simp [unpack7bitCharLoop, Septet.unpack, hprev, hloop],
            by simpa using hdata⟩
        · cases os with
          | nil =>
              exact ⟨passed ++ [o], [], by simp [unpack7bitCharLoop, Septet.unpack, hprev], by simp⟩
          | cons o' os =>
              simp only [List.length_cons] at hlen
              obtain ⟨passed', rest, hloop, hdata⟩ :=
                (ih (passed ++ [o]) os).2 (by simp; omega) o' (k + 1) (by omega)
              have hsub : 8 - (k + 2) = 6 - k := by omega
              rw [List.append_assoc, List.singleton_append] at hloop
              exact ⟨passed', rest,
                by simp [unpack7bitCharLoop, Septet.unpack, hprev, hsub, hloop],
                by simpa using hdata⟩

/-- The reader over all octets left: with fill bits the first of them is the
octet that holds these. -/
theorem unpack7bitChar_cursor (passed os : List UInt8) {dataLen fillBits unpackDataLen : Nat}
    (hdata : dataLen < unpackDataLen) (hfill : fillBits < 8) (hos : fillBits = 0 ∨ os ≠ [])
    (hlen : passed.length + os.length < 0x10000) :
    ∃ passed' rest, unpack7bitChar (cursor passed os) dataLen fillBits unpackDataLen =
      some (Septet.unpack fillBits dataLen os, cursor passed' rest) ∧
        passed' ++ rest = passed ++ os := by
  have hguard : ¬ (dataLen ≥ unpackDataLen ∨ fillBits > 7) := by omega
  simp only [unpack7bitChar, if_neg hguard]
  match fillBits, os with
  | 0, os =>
      obtain ⟨passed', rest, hloop, hdata⟩ := (unpack7bitCharLoop_cursor dataLen passed os).1 hlen
      exact ⟨passed', rest, by simp [hloop], hdata⟩
  | k + 1, [] => simp at hos
  | k + 1, o :: os =>
      obtain ⟨passed', rest, hloop, hdata⟩ :=
        (unpack7bitCharLoop_cursor dataLen passed os).2 hlen o (k + 1) (by omega)
      exact ⟨passed', rest, by simp [hloop], hdata⟩

/-- The two conversions of `TextCoder` that a decoded alphanumeric address goes
through: one septet to a character, and septets to text. -/
structure TextCoder where
  getUCS2Value : UInt8 → UInt8
  gsm7bitToUtf8 : List UInt8 → List UInt8

/-- The characters from position `i` on; `flag` is set after an escape. -/
def unpack7bitCharForMiddlePartLoop (coder : TextCoder) (buffer : List UInt8) :
    Nat → Bool → Nat → Option (List UInt8)
  | _, _, 0 => some []
  | i, flag, n + 1 =>
      let shiftNumber := 7 * i % 8
      let byteOffsetNumber := 7 * i / 8
      let octet := buffer.getD byteOffsetNumber 0
      let next := buffer.getD (byteOffsetNumber + 1) 0
      let value := 0x7F &&& (octet >>> UInt8.ofNat shiftNumber)
      let currentValue :=
        if shiftNumber > 1 then
          (value &&& (0x7F >>> UInt8.ofNat (shiftNumber - 1))) |||
            (0x7F &&& (next <<< UInt8.ofNat (8 - shiftNumber)))
        else value
      if i > 19 then none
      else
        let (c, flag) :=
          if flag then
            (if currentValue = 0x1B then 0x20 else coder.getUCS2Value currentValue, false)
          else if currentValue = 0x1B then (0, true)
          else (coder.getUCS2Value currentValue, false)
        do
          let cs ← unpack7bitCharForMiddlePartLoop coder buffer (i + 1) flag n
          some (c :: cs)

def unpack7bitCharForMiddlePart (coder : TextCoder) (buffer : List UInt8) (dataLen : Nat) :
    Option (List UInt8) :=
  if dataLen = 0 then none
  else unpack7bitCharForMiddlePartLoop coder buffer 0 false dataLen

/-! ## Digits -/

def charToBcd (c : UInt8) : UInt8 :=
  if c = 0x2A then 0x0A
  else if c = 0x23 then 0x0B
  else if c = 0x2B then 0xFE
  else c - 0x30

def bcdToChar (b : UInt8) : UInt8 :=
  if b = 0x0A then 0x2A else if b = 0x0B then 0x23 else 0x30 + b

/-- The characters a semi-octet stands for: `0` to `9`, `*` and `#`. -/
def isDigitChar (c : UInt8) : Bool :=
  c = 0x2A ∨ c = 0x23 ∨ (0x30 ≤ c ∧ c ≤ 0x39)

theorem charToBcd_of_isDigitChar {c : UInt8} (h : isDigitChar c = true) :
    charToBcd c ≠ 0xFE ∧ charToBcd c &&& 0x0F = charToBcd c ∧ charToBcd c < 16 ∧
      charToBcd c ≠ 0x0F ∧ bcdToChar (charToBcd c) = c := by
  cases c with
  | ofBitVec c =>
      cases c with
      | ofFin c =>
          revert c
          decide +kernel

theorem highNibble (o : UInt8) : (o &&& 0xF0) >>> 4 = o >>> 4 := by
  cases o with
  | ofBitVec o =>
      cases o with
      | ofFin o =>
          revert o
          decide +kernel

/-- The two semi-octets of an octet. -/
theorem nibbles_or_shiftLeft {x y : UInt8} (hx : x < 16) (hy : y < 16) :
    (x ||| y <<< 4) &&& 0x0F = x ∧ ((x ||| y <<< 4) &&& 0xF0) >>> 4 = y := by
  have hx' : x.toNat < 16 := by simpa using UInt8.lt_iff_toNat_lt.mp hx
  have hy' : y.toNat < 16 := by simpa using UInt8.lt_iff_toNat_lt.mp hy
  have hor : (x ||| y <<< 4).toNat = x.toNat + 16 * (y.toNat % 16) :=
    Septet.toNat_or_shiftLeft x y (k := 4) (by omega) hx'
  constructor
  · apply UInt8.toNat_inj.mp
    have hand : ((x ||| y <<< 4) &&& 0x0F).toNat = (x ||| y <<< 4).toNat % 16 :=
      Nat.and_two_pow_sub_one_eq_mod _ 4
    omega
  · apply UInt8.toNat_inj.mp
    have hshift : ((x ||| y <<< 4) >>> 4).toNat = (x ||| y <<< 4).toNat / 16 :=
      Septet.toNat_shiftRight_ofNat _ (k := 4) (by omega)
    rw [highNibble, hshift]
    omega

/-- The loop of `DigitToBcd` from position `i` on, over the array and `len`. -/
def digitToBcdLoop : Nat → List UInt8 → List UInt8 → Nat → Option (List UInt8 × Nat)
  | _, [], bcd, len => some (bcd, len)
  | i, c :: cs, bcd, len =>
      let temp := charToBcd c
      if temp ≠ 0xFE then
        if len ≥ bcd.length then none
        else if i % 2 = 0 then digitToBcdLoop (i + 1) cs (bcd.set len (temp &&& 0x0F)) len
        else
          digitToBcdLoop (i + 1) cs
            (bcd.set len (bcd.getD len 0 ||| (temp &&& 0x0F) <<< 4)) (len + 1)
      else digitToBcdLoop (i + 1) cs bcd len

/-- The octet of an odd last digit is filled up with `F`; the result is the
first `len` octets of the array. -/
def digitToBcdEnd (digitLen : Nat) (bcd : List UInt8) (len : Nat) : Option (List UInt8) :=
  if len + 1 ≥ bcd.length then none
  else if digitLen % 2 = 1 then
    some ((bcd.set len (bcd.getD len 0 ||| 0xF0)).take (len + 1))
  else some (bcd.take len)

def digitToBcd (digit bcd : List UInt8) : Option (List UInt8) := do
  let (bcd, len) ← digitToBcdLoop 0 digit bcd 0
  digitToBcdEnd digit.length bcd len

def bcdToDigitLoop (maxDigitLen : Nat) : List UInt8 → List UInt8 → Option (List UInt8)
  | digit, [] => some digit
  | digit, octet :: octets =>
      if digit.length + 2 ≥ maxDigitLen then none
      else
        let digit := digit ++ [bcdToChar (octet &&& 0x0F)]
        let temp := (octet &&& 0xF0) >>> 4
        if temp = 0x0F then some digit
        else bcdToDigitLoop maxDigitLen (digit ++ [bcdToChar temp]) octets

def bcdToDigit (bcd : List UInt8) (maxDigitLen : Nat) : Option (List UInt8) :=
  if bcd = [] ∨ maxDigitLen = 0 then none else bcdToDigitLoop maxDigitLen [] bcd

/-! ### Round trip of digits -/

/-- Digit characters as semi-octets, the last octet filled up with `F`. -/
def bcdOctets : List UInt8 → List UInt8
  | [] => []
  | [c] => [charToBcd c ||| 0xF0]
  | c :: d :: cs => (charToBcd c ||| charToBcd d <<< 4) :: bcdOctets cs

theorem length_bcdOctets (cs : List UInt8) : (bcdOctets cs).length = (cs.length + 1) / 2 := by
  fun_induction bcdOctets cs with
  | case1 => rfl
  | case2 => simp
  | case3 c d cs ih => simp [ih]; omega

/-- From an even position with `done` octets full, the rest of the digits fill
the blank octets after them. -/
theorem digitToBcdLoop_blank (cs done : List UInt8) (i m : Nat) (hi : i % 2 = 0)
    (hcs : ∀ c ∈ cs, isDigitChar c = true) (hm : cs.length / 2 + 1 < m) :
    ((digitToBcdLoop i cs (done ++ List.replicate m 0) done.length).bind fun r =>
      digitToBcdEnd cs.length r.1 r.2) = some (done ++ bcdOctets cs) := by
  fun_induction bcdOctets cs generalizing done i m with
  | case1 =>
      have hroom : 1 < m := by simpa using hm
      simp [digitToBcdLoop, digitToBcdEnd, hroom]
  | case2 c =>
      obtain ⟨hplus, hmask, -⟩ := charToBcd_of_isDigitChar (hcs c (by simp))
      obtain ⟨m, rfl⟩ : ∃ m', m = m' + 2 := ⟨m - 2, by simp at hm; omega⟩
      simp [digitToBcdLoop, digitToBcdEnd, hplus, hmask, hi, List.replicate_succ,
        List.take_append]
  | case3 c d cs ih =>
      obtain ⟨hplus, hmask, -⟩ := charToBcd_of_isDigitChar (hcs c (by simp))
      obtain ⟨hplus', hmask', -⟩ := charToBcd_of_isDigitChar (hcs d (by simp))
      simp only [List.length_cons] at hm
      obtain ⟨m, rfl⟩ : ∃ m', m = m' + 1 := ⟨m - 1, by omega⟩
      have hrest := ih (done ++ [charToBcd c ||| charToBcd d <<< 4]) (i + 2) m (by omega)
        (fun e he => hcs e (by simp [he])) (by omega)
      have hodd : (i + 1) % 2 ≠ 0 := by omega
      have hparity : (cs.length + 1 + 1) % 2 = cs.length % 2 := by omega
      simpa [digitToBcdLoop, digitToBcdEnd, hplus, hmask, hplus', hmask', hi, hodd, hparity,
        List.replicate_succ] using hrest

theorem digitToBcd_blank (cs : List UInt8) (m : Nat) (hcs : ∀ c ∈ cs, isDigitChar c = true)
    (hm : cs.length / 2 + 1 < m) :
    digitToBcd cs (List.replicate m 0) = some (bcdOctets cs) := by
  simpa [digitToBcd, Option.bind_eq_bind] using digitToBcdLoop_blank cs [] 0 m rfl hcs hm

theorem bcdToDigitLoop_bcdOctets (cs digit : List UInt8) (maxDigitLen : Nat)
    (hcs : ∀ c ∈ cs, isDigitChar c = true) (heven : digit.length % 2 = 0)
    (hlen : digit.length + 2 * ((cs.length + 1) / 2) < maxDigitLen) :
    bcdToDigitLoop maxDigitLen digit (bcdOctets cs) = some (digit ++ cs) := by
  fun_induction bcdOctets cs generalizing digit with
  | case1 => simp [bcdToDigitLoop]
  | case2 c =>
      obtain ⟨-, -, hlt, -, hchar⟩ := charToBcd_of_isDigitChar (hcs c (by simp))
      obtain ⟨hlow, hhigh⟩ := nibbles_or_shiftLeft (y := 0x0F) hlt (by decide)
      rw [show (0x0F : UInt8) <<< 4 = 0xF0 from rfl] at hlow hhigh
      have hroom : ¬ digit.length + 2 ≥ maxDigitLen := by simp at hlen; omega
      simp only [bcdToDigitLoop, if_neg hroom, hlow, hhigh, hchar, if_true]
  | case3 c d cs ih =>
      obtain ⟨-, -, hlt, -, hchar⟩ := charToBcd_of_isDigitChar (hcs c (by simp))
      obtain ⟨-, -, hlt', hne, hchar'⟩ := charToBcd_of_isDigitChar (hcs d (by simp))
      obtain ⟨hlow, hhigh⟩ := nibbles_or_shiftLeft hlt hlt'
      simp only [List.length_cons] at hlen
      have hroom : ¬ digit.length + 2 ≥ maxDigitLen := by omega
      have hrest := ih (digit ++ [c, d]) (fun e he => hcs e (by simp [he])) (by simp; omega)
        (by simp; omega)
      simp only [bcdToDigitLoop, if_neg hroom, hlow, hhigh, if_neg hne, hchar, hchar']
      simpa using hrest

theorem bcdToDigit_bcdOctets {cs : List UInt8} {maxDigitLen : Nat} (hne : cs ≠ [])
    (hcs : ∀ c ∈ cs, isDigitChar c = true) (hlen : 2 * ((cs.length + 1) / 2) < maxDigitLen) :
    bcdToDigit (bcdOctets cs) maxDigitLen = some cs := by
  have hpos : 0 < cs.length := List.length_pos_iff.mpr hne
  have hoctets : bcdOctets cs ≠ [] := by
    apply List.ne_nil_of_length_pos
    rw [length_bcdOctets]
    omega
  have hguard : ¬ (bcdOctets cs = [] ∨ maxDigitLen = 0) := by
    rintro (h | h)
    · exact hoctets h
    · omega
  rw [bcdToDigit, if_neg hguard, bcdToDigitLoop_bcdOctets cs [] _ hcs rfl (by simpa using hlen)]
  rfl

end TelephonySms.Pdu
