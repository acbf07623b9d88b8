import TelephonySms.Text.Tables

/-! # Text coder

`TextCoder` between UTF-8, UCS2 and the 7-bit alphabet. UCS2 text is the list of its
16-bit units. The conversions between UTF-8 and UTF-16 are those of `iconv`.
-/

namespace TelephonySms.Text

/-- `iconv` as the coder calls it: from UTF-8 to UTF-16BE, which fails on what is not
UTF-8, and back, which converts what stands before the first error. -/
structure Iconv where
  utf8ToUtf16 : List UInt8 → Option (List UInt16)
  utf16ToUtf8 : List UInt16 → List UInt8

/-- What `iconv` does with ASCII; it knows nothing else. -/
def asciiIconv : Iconv where
  utf8ToUtf16 src :=
    if src.all (· < 0x80) then some (src.map fun c : UInt8 => c.toUInt16) else none
  utf16ToUtf8 src := (src.filter (· < 0x80)).map fun c : UInt16 => c.toUInt8

/-- The operator configuration is cast to this type, so other numbers occur. -/
inductive SmsCodingNationalType where
  | default
  | turkish
  | spanish
  | portuguese
  | other (value : Int)
deriving DecidableEq, Repr

/-- The cast to `MSG_LANGUAGE_ID_T`. -/
def SmsCodingNationalType.langId : SmsCodingNationalType → UInt8
  | .default => 0
  | .turkish => 1
  | .spanish => 2
  | .portuguese => 3
  | .other value => UInt8.ofNat (value % 256).toNat

/-! ## Encoding -/

def gsm7bitDefMap (inText : UInt16) : Option UInt8 :=
  (gsm7BitToUcs2.idxOf? inText).map UInt8.ofNat

def get7BitCodingExtMap : SmsCodingNationalType → List (UInt16 × UInt8)
  | .turkish => turkishMap
  | .spanish => spanishMap
  | .portuguese => portuMap
  | .default | .other _ => gsm7bitExtMap

/-- The loop of `Ucs2ToGsm7bitAuto` behind `dest`; `none` is an unknown character. -/
def ucs2ToGsm7bitAutoLoop (extMap : List (UInt16 × UInt8)) (maxLength : Nat) :
    List UInt8 → List UInt16 → Option (List UInt8)
  | dest, [] => some dest
  | dest, inText :: src =>
      match gsm7bitDefMap inText with
      | some septet =>
          if maxLength ≤ dest.length + 1 then some (dest ++ [septet])
          else ucs2ToGsm7bitAutoLoop extMap maxLength (dest ++ [septet]) src
      | none =>
          match extMap.lookup inText with
          | none => none
          | some septet =>
              if maxLength ≤ dest.length + 1 then some dest
              else if maxLength ≤ dest.length + 2 then some (dest ++ [0x1B, septet])
              else ucs2ToGsm7bitAutoLoop extMap maxLength (dest ++ [0x1B, septet]) src

def ucs2ToGsm7bitAuto (maxLength : Nat) (src : List UInt16)
    (codingNationalType : SmsCodingNationalType) : Option (List UInt8) :=
  ucs2ToGsm7bitAutoLoop (get7BitCodingExtMap codingNationalType) maxLength [] src

/-- The loop of `Ucs2ToAscii` behind `dest`. -/
def ucs2ToAsciiLoop (maxLength : Nat) : List UInt8 → List UInt16 → Option (List UInt8)
  | dest, [] => some dest
  | dest, inText :: src =>
      if inText > 0x007F then none
      else if maxLength ≤ dest.length + 1 then some (dest ++ [inText.toUInt8])
      else ucs2ToAsciiLoop maxLength (dest ++ [inText.toUInt8]) src

def ucs2ToAscii (maxLength : Nat) (src : List UInt16) : Option (List UInt8) :=
  ucs2ToAsciiLoop maxLength [] src

/-! ## Forced 7-bit coding -/

def getLangTypeStep (currType : MsgCharType) (inText : UInt16) : MsgCharType :=
  match extCharMap.lookup inText with
  | none => currType
  | some newType =>
      if newType.value ≥ currType.value then
        if inText = 0x00E7 ∧ currType.value ≤ MsgCharType.msgTurkishChar.value then .msgTurkishChar
        else newType
      else currType

def getLangType (src : List UInt16) : MsgCharType := src.foldl getLangTypeStep .msgDefaultChar

def findReplaceChar (inText : UInt16) : UInt8 := (replaceCharMap.lookup inText).getD 0x3F

/-- `FindGsm7bitExt`, `FindTurkish`, `FindSpanish` and `FindPortu`. -/
def findExt (extMap : List (UInt16 × UInt8)) (maxLength : Nat) (inText : UInt16) : List UInt8 :=
  if maxLength = 0 then []
  else
    match extMap.lookup inText with
    | none => [findReplaceChar inText]
    | some septet => if maxLength ≤ 1 then [] else [0x1B, septet]

/-- The octets of a character outside the default alphabet. Behind those of an
extension table the index moves once more, over an octet that is still zero. -/
def ucs2ToGsm7bitOther (currType : MsgCharType) (maxLength : Nat) (inText : UInt16) :
    List UInt8 :=
  match currType with
  | .msgDefaultChar => [findReplaceChar inText]
  | .msgGsm7ExtChar => findExt gsm7bitExtMap maxLength inText ++ [0x00]
  | .msgTurkishChar => findExt turkishMap maxLength inText ++ [0x00]
  | .msgSpanishChar => findExt spanishMap maxLength inText ++ [0x00]
  | .msgPortugueseChar => findExt portuMap maxLength inText ++ [0x00]

/-- The language `Ucs2ToGsm7bit` writes with a character of an extension table. -/
def MsgCharType.langId : MsgCharType → UInt8
  | .msgDefaultChar | .msgGsm7ExtChar => 0
  | .msgTurkishChar => 1
  | .msgSpanishChar => 2
  | .msgPortugueseChar => 3

/-- The loop of `Ucs2ToGsm7bit` behind `dest`. -/
def ucs2ToGsm7bitLoop (currType : MsgCharType) (maxLength : Nat) :
    List UInt8 × UInt8 → List UInt16 → List UInt8 × UInt8
  | (dest, langId), [] => (dest, langId)
  | (dest, langId), inText :: src =>
      let (dest, langId) :=
        match gsm7bitDefMap inText with
        | some septet => (dest ++ [septet], langId)
        | none =>
            (dest ++ ucs2ToGsm7bitOther currType (maxLength - dest.length) inText,
              if currType.langId = 0 then langId else currType.langId)
      if maxLength ≤ dest.length then (dest, langId)
      else ucs2ToGsm7bitLoop currType maxLength (dest, langId) src

def ucs2ToGsm7bit (maxLength : Nat) (src : List UInt16) : List UInt8 × UInt8 :=
  ucs2ToGsm7bitLoop (getLangType src) maxLength ([], 0) src

/-! ## Decoding -/

/-- `EscapeToUcs2`; the language is that of a single-shift header, or zero. -/
def escapeToUcs2 (langId srcText : UInt8) : UInt16 :=
  let table :=
    if langId = 1 then turkishSingleToUcs2
    else if langId = 2 then spanishSingleToUcs2
    else if langId = 3 then portuSingleToUcs2
    else gsm7BitExtToUcs2
  (table.lookup srcText).getD 0x0020

/-- The loop of `Gsm7bitToUcs2`. `result` is the character before: an escape at the
end leaves it as it is, and it is written once more. -/
def gsm7bitToUcs2Loop (langId : UInt8) : UInt16 → List UInt8 → Option (List UInt16)
  | _, [] => some []
  | result, [septet] =>
      if septet ≥ 0x80 then none
      else if septet = 0x1B then some [result]
      else some [gsm7BitToUcs2.getD septet.toNat 0]
  | _, septet :: next :: src =>
      if septet ≥ 0x80 then none
      else if septet = 0x1B then
        (gsm7bitToUcs2Loop langId (escapeToUcs2 langId next) src).map (escapeToUcs2 langId next :: ·)
      else
        (gsm7bitToUcs2Loop langId (gsm7BitToUcs2.getD septet.toNat 0) (next :: src)).map
          (gsm7BitToUcs2.getD septet.toNat 0 :: ·)

def gsm7bitToUcs2 (langId : UInt8) (src : List UInt8) : Option (List UInt16) :=
  gsm7bitToUcs2Loop langId 0 src

/-- What is no septet is not decoded. -/
def gsm7bitToUtf8 (iconv : Iconv) (langId : UInt8) (src : List UInt8) : List UInt8 :=
  match gsm7bitToUcs2 langId src with
  | none => []
  | some ucs2 => iconv.utf16ToUtf8 ucs2

/-! ## UCS2 octets -/

def ucs2Octets (src : List UInt16) : List UInt8 :=
  src.flatMap fun c : UInt16 => [(c >>> 8).toUInt8, (c &&& 0x00FF).toUInt8]

/-- The units of the octets; a last octet without its pair is left. -/
def ucs2Units : List UInt8 → List UInt16
  | high :: low :: rest => (high.toUInt16 <<< 8 ||| low.toUInt16) :: ucs2Units rest
  | _ => []

end TelephonySms.Text
