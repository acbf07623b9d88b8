import TelephonySms.Mms.EncodeBuffer

/-! # Content types

`MmsContentType` and `MmsContentParam`: a content type is a code of the WSP table or a
text, and in its general form it has parameters behind it. A decoder changes the object
it is called on, so it takes the content type so far and returns the changed one.
-/

namespace TelephonySms.Mms

open OctetReader Reader

/-- `static_cast<int32_t>` -/
def i32 (n : Int) : Int := Int.bmod n (2 ^ 32)

structure MmsContentParam where
  charset : Nat := 0
  type : Octets := []
  textMap : UInt8 → Option Octets := fun _ => none

structure MmsContentType where
  contentType : Octets := []
  msgContentParm : MmsContentParam := {}

namespace ContentParam

def CT_P_CHARSET : UInt8 := 0x81
def CT_P_TYPE : UInt8 := 0x83
def CT_P_NAME : UInt8 := 0x85
def CT_P_FILENAME : UInt8 := 0x86
def CT_P_TYPE_STRING : UInt8 := 0x89
def CT_P_START : UInt8 := 0x8a
def CT_P_START_INFO : UInt8 := 0x8b
def CT_P_NAME_VALUE : UInt8 := 0x97
def CT_P_FILENAME_VALUE : UInt8 := 0x98
def CT_P_START_VALUE : UInt8 := 0x99
def CT_P_START_INFO_VALUE : UInt8 := 0x9a

end ContentParam

open ContentParam

/-- The parameters with a text, in the order in which they are encoded. -/
def textParams : List UInt8 :=
  [CT_P_FILENAME, CT_P_FILENAME_VALUE, CT_P_START_VALUE, CT_P_START, CT_P_NAME,
    CT_P_NAME_VALUE, CT_P_START_INFO, CT_P_START_INFO_VALUE]

/-- `std::map::insert`: a key that is there keeps its value. -/
def MmsContentParam.insert (param : MmsContentParam) (field : UInt8) (value : Octets) :
    MmsContentParam :=
  match param.textMap field with
  | some _ => param
  | none => { param with textMap := Function.update param.textMap field (some value) }

def MmsContentParam.setFileName (param : MmsContentParam) (fileName : Octets) :
    MmsContentParam :=
  if fileName = [] then param else param.insert CT_P_NAME fileName

def MmsContentParam.setStart (param : MmsContentParam) (start : Octets) : MmsContentParam :=
  if start = [] then param else param.insert CT_P_START start

def MmsContentParam.getFileName (param : MmsContentParam) : Octets :=
  ((param.textMap CT_P_NAME).or ((param.textMap CT_P_NAME_VALUE).or
    ((param.textMap CT_P_FILENAME).or (param.textMap CT_P_FILENAME_VALUE)))).getD []

/-- `mmsContentNames` -/
def mmsContentNames : List (UInt8 × String) :=
  [(0x00, "*/*"), (0x01, "text/*"), (0x02, "text/html"), (0x03, "text/plain"),
   (0x04, "text/x-hdml"), (0x05, "text/x-ttml"), (0x06, "text/x-vCalendar"),
   (0x07, "text/x-vCard"), (0x08, "text/vnd.wap.wml"), (0x09, "text/vnd.wap.wmlscript"),
   (0x0a, "text/vnd.wap.wta-event"), (0x0b, "multipart/*"), (0x0c, "multipart/mixed"),
   (0x0d, "multipart/form-data"), (0x0e, "multipart/byterantes"), (0x0f, "multipart/alternative"),
   (0x10, "application/*"), (0x11, "application/java-vm"),
   (0x12, "application/x-www-form-urlencoded"), (0x13, "application/x-hdmlc"),
   (0x14, "application/vnd.wap.wmlc"), (0x15, "application/vnd.wap.wmlscriptc"),
   (0x16, "application/vnd.wap.wta-eventc"), (0x17, "application/vnd.wap.uaprof"),
   (0x18, "application/vnd.wap.wtls-ca-certificate"),
   (0x19, "application/vnd.wap.wtls-user-certificate"), (0x1a, "application/x-x509-ca-cert"),
   (0x1b, "application/x-x509-user-cert"), (0x1c, "image/*"), (0x1d, "image/gif"),
   (0x1e, "image/jpeg"), (0x1f, "image/tiff"), (0x20, "image/png"), (0x21, "image/vnd.wap.wbmp"),
   (0x22, "application/vnd.wap.multipart.*"), (0x23, "application/vnd.wap.multipart.mixed"),
   (0x24, "application/vnd.wap.multipart.form-data"),
   (0x25, "application/vnd.wap.multipart.byteranges"),
   (0x26, "application/vnd.wap.multipart.alternative"), (0x27, "application/xml"),
   (0x28, "text/xml"), (0x29, "application/vnd.wap.wbxml"),
   (0x2a, "application/x-x968-cross-cert"), (0x2b, "application/x-x968-ca-cert"),
   (0x2c, "application/x-x968-user-cert"), (0x2d, "text/vnd.wap.si"),
   (0x2e, "application/vnd.wap.sic"), (0x2f, "text/vnd.wap.sl"),
   (0x30, "application/vnd.wap.slc"), (0x31, "text/vnd.wap.co"),
   (0x32, "application/vnd.wap.coc"), (0x33, "application/vnd.wap.multipart.related"),
   (0x34, "application/vnd.wap.sia"), (0x35, "text/vnd.wap.connectivity-xml"),
   (0x36, "application/vnd.wap.connectivity-wbxml"), (0x37, "application/pkcs7-mime"),
   (0x38, "application/vnd.wap.hashed-certificate"),
   (0x39, "application/vnd.wap.signed-certificate"), (0x3a, "application/vnd.wap.cert-response"),
   (0x3b, "application/xhtml+xml"), (0x3c, "application/wml+xml"), (0x3d, "text/css"),
   (0x3e, "application/vnd.wap.mms-message"), (0x3f, "application/vnd.wap.rollover-certificate"),
   (0x40, "application/vnd.wap.locc+wbxml"), (0x41, "application/vnd.wap.loc+xml"),
   (0x42, "application/vnd.syncml.dm+wbxml"), (0x43, "application/vnd.syncml.dm+xml"),
   (0x44, "application/vnd.syncml.notification"), (0x45, "application/vnd.wap.xhtml+xml"),
   (0x46, "application/vnd.wv.csp.cir"), (0x47, "application/vnd.oma.dd+xml"),
   (0x48, "application/vnd.oma.drm.message"), (0x49, "application/vnd.oma.drm.content"),
   (0x4a, "application/vnd.oma.drm.rights+xml"), (0x4b, "application/vnd.oma.drm.rights+wbxml"),
   (0x4c, "application/vnd.wv.csp+xml"), (0x4d, "application/vnd.wv.csp+wbxml"),
   (0x4e, "application/vnd.syncml.ds.notification"), (0x4f, "audio/*"), (0x50, "video/*"),
   (0x51, "application/vnd.oma.dd2+xml"), (0x52, "application/mikey"),
   (0x53, "application/vnd.oma.dcd"), (0x54, "application/vnd.oma.dcdc")]

def getContentTypeFromInt (type : UInt8) : Octets :=
  match mmsContentNames.find? (fun entry => entry.1 == type) with
  | some entry => ascii entry.2
  | none => ascii "*/*"

/-- The index in the table, none for `-1`. -/
def getContentTypeFromString (str : Octets) : Option Nat :=
  mmsContentNames.findIdx? (fun entry => ascii entry.2 == str)

/-- `MmsCharSet` -/
def mapCharSet : List (String × Nat) :=
  [("US-ASCII", 0x03), ("UTF-16", 0x03f7), ("CSUNICODE", 0x03e8), ("UTF-8", 0x6a),
   ("ISO-2022-KR", 0x25), ("KS_C_5601-1987", 0x24), ("EUC-KR", 0x26), ("ISO-2022-JP", 0x27),
   ("ISO-2022-JP-2", 0x28), ("ISO_8859-1", 0x04), ("ISO_8859-2", 0x05), ("ISO-8859-3", 0x06),
   ("ISO-8859-4", 0x07), ("ISO-8859-5", 0x08), ("ISO-8859-6", 0x09), ("ISO-8859-7", 0x0a),
   ("ISO-8859-8", 0x0b), ("ISO-8859-9", 0x0c), ("ISO-8859-10", 0x0d), ("ISO-8859-15", 0x6f),
   ("SHIFT_JIS", 0x11), ("EUC-JP", 0x13), ("GB2312", 0x07e9), ("BIG5", 0x0d),
   ("WINDOWS-1251", 0x08cb), ("KOI8-R", 0x0824), ("KOI8-U", 0x0828)]

def getCharSetIntFromString (strCharSet : Octets) : Option Nat :=
  (mapCharSet.find? (fun entry => ascii entry.1 == strCharSet)).map (·.2)

/-! ## Decoding -/

def decodeTextField (param : MmsContentParam) (field : UInt8) (valueLength : Int) :
    Reader (MmsContentParam × Int) := do
  let (str, len) ← decodeText
  pure (param.insert field str, i32 (i32 (valueLength - i32 len) - 1))

def decodeCharsetField (param : MmsContentParam) (valueLength : Int) :
    Reader (MmsContentParam × Int) := do
  let oneByte ← peekOneByte
  if (oneByte > 32 ∧ oneByte < 127) ∨ oneByte = 0 then do
    let (sCharset, len) ← decodeText
    match getCharSetIntFromString sCharset with
    | none => fail
    | some charset =>
        pure ({ param with charset := charset }, i32 (valueLength - i32 (u32 (len + 1))))
  else do
    let startPosition ← getCurPosition
    let tmp ← decodeInteger
    let endPosition ← getCurPosition
    pure ({ param with charset := u32 tmp },
      if endPosition ≥ startPosition then i32 (valueLength - i32 ↑(endPosition - startPosition))
      else valueLength)

def decodeTypeField (param : MmsContentParam) (valueLength : Int) :
    Reader (MmsContentParam × Int) := do
  let oneByte ← getOneByte
  if oneByte > 0x7f then
    pure ({ param with type := getContentTypeFromInt (oneByte &&& 0x7f) }, i32 (valueLength - 1))
  else do
    decreasePointer 1
    let (sType, len) ← decodeText
    pure ({ param with type := sType }, i32 (i32 (valueLength - i32 len) - 1))

/-- One round of `DecodeParameter`. -/
def decodeOneParameter (state : MmsContentParam × Int) :
    Reader ((MmsContentParam × Int) ⊕ MmsContentParam) :=
  if state.2 > 0 then do
    let paramCode ← getOneByte
    let valueLength := i32 (state.2 - 1)
    if paramCode = CT_P_CHARSET then do
      let next ← decodeCharsetField state.1 valueLength
      pure (.inl next)
    else if paramCode ∈ textParams then do
      let next ← decodeTextField state.1 paramCode valueLength
      pure (.inl next)
    else if paramCode = CT_P_TYPE ∨ paramCode = CT_P_TYPE_STRING then do
      let next ← decodeTypeField state.1 valueLength
      pure (.inl next)
    else do
      increasePointer (valueLength % 2 ^ 32).toNat
      pure (.inl (state.1, 0))
  else
    pure (.inr state.1)

def decodeParameter (param : MmsContentParam) (valueLength : Int) : Reader MmsContentParam :=
  loop decodeOneParameter (param, valueLength)

def decodeMmsCTGeneralForm (contentType : MmsContentType) : Reader (MmsContentType × Nat) := do
  guard (← decodeIsValueLength)
  let (valueLength, returnLength) ← decodeValueLengthReturnLen
  let totalLength := u64 (valueLength + returnLength)
  guard (totalLength < 2 ^ 31)
  let oneByte ← peekOneByte
  if ← decodeIsShortInt then do
    increasePointer 1
    guard (valueLength ≠ 0)
    let param ← decodeParameter contentType.msgContentParm (i32 ↑(valueLength - 1))
    pure (⟨getContentTypeFromInt (oneByte &&& 0x7f), param⟩, totalLength)
  else if ← decodeIsString then do
    let text ← attempt decodeText
    let (sType, len) := text.getD ([], 0)
    let rest := if valueLength < u32 (len + 1) then 0 else valueLength - len - 1
    let param ← decodeParameter contentType.msgContentParm (i32 rest)
    pure (⟨sType, param⟩, totalLength)
  else
    fail

def decodeMmsContentType (contentType : MmsContentType) : Reader (MmsContentType × Nat) := do
  if ← decodeIsShortInt then do
    let oneByte ← getOneByte
    pure ({ contentType with contentType := getContentTypeFromInt (oneByte &&& 0x7f) }, 1)
  else if ← decodeIsString then do
    let text ← attempt decodeText
    let (sType, len) := text.getD ([], 0)
    guard (len < 2 ^ 31 - 1)
    pure ({ contentType with contentType := sType }, len + 1)
  else
    decodeMmsCTGeneralForm contentType

theorem decodeTextField_moves (param : MmsContentParam) (field : UInt8) (valueLength : Int) :
    Moves (decodeTextField param field valueLength) (fun _ => 0) 0 :=
  Moves.bind decodeText_moves (le_refl 0) fun _ => Moves.pure _ (by simp)

theorem decodeCharsetField_moves (param : MmsContentParam) (valueLength : Int) :
    Moves (decodeCharsetField param valueLength) (fun _ => 0) 0 := by
  refine Moves.bind peekOneByte_moves (le_refl 0) fun oneByte => Moves.ite _ ?_ ?_
  · refine Moves.bind decodeText_moves (by simp) fun r => ?_
    obtain ⟨sCharset, len⟩ := r
    dsimp only
    cases getCharSetIntFromString sCharset with
    | none => exact Moves.fail (by simp)
    | some charset => exact Moves.pure _ (by simp)
  · refine Moves.bind getCurPosition_moves (by simp) fun startPosition => ?_
    refine Moves.bind decodeInteger_moves (by simp) fun tmp => ?_
    exact Moves.bind getCurPosition_moves (by simp) fun endPosition => Moves.pure _ (by simp)

theorem decodeTypeField_moves (param : MmsContentParam) (valueLength : Int) :
    Moves (decodeTypeField param valueLength) (fun _ => 0) 0 := by
  refine Moves.bind getOneByte_moves (le_refl 0) fun oneByte => Moves.ite _ ?_ ?_
  · exact Moves.pure _ (by simp)
  · refine Moves.bind (decreasePointer_moves 1) (by simp) fun _ => ?_
    exact Moves.bind decodeText_moves (by simp) fun r => Moves.pure _ (by simp)

theorem decodeOneParameter_moves (state : MmsContentParam × Int) :
    Moves (decodeOneParameter state) (Sum.elim (fun _ => 1) (fun _ => 0)) 0 := by
  refine Moves.ite _ ?_ (Moves.pure _ (by simp))
  refine Moves.bind getOneByte_moves (le_refl 0) fun paramCode => ?_
  refine Moves.ite _ ?_ (Moves.ite _ ?_ (Moves.ite _ ?_ ?_))
  · exact Moves.bind (decodeCharsetField_moves _ _) (by simp) fun next => Moves.pure _ (by simp)
  · exact Moves.bind (decodeTextField_moves _ _ _) (by simp) fun next => Moves.pure _ (by simp)
  · exact Moves.bind (decodeTypeField_moves _ _) (by simp) fun next => Moves.pure _ (by simp)
  · exact Moves.bind (increasePointer_moves _) (by simp) fun _ => Moves.pure _ (by simp)

theorem decodeParameter_moves (param : MmsContentParam) (valueLength : Int) :
    Moves (decodeParameter param valueLength) (fun _ => 0) 0 :=
  Moves.loop decodeOneParameter_moves _

theorem decodeMmsCTGeneralForm_moves (contentType : MmsContentType) :
    Moves (decodeMmsCTGeneralForm contentType) (fun _ => 1) (-1) := by
  refine Moves.bind decodeIsValueLength_moves (by simp) fun r => ?_
  refine Moves.bind (Moves.guard _ (le_refl 0)) (by simp) fun _ => ?_
  refine Moves.bind decodeValueLengthReturnLen_moves (by simp) fun r => ?_
  refine Moves.bind (Moves.guard _ (le_refl 0)) (by simp) fun _ => ?_
  refine Moves.bind peekOneByte_moves (by simp) fun oneByte => ?_
  refine Moves.bind decodeIsShortInt_moves (by simp) fun short => Moves.ite _ ?_ ?_
  · refine Moves.bind (increasePointer_moves 1) (by simp) fun _ => ?_
    refine Moves.bind (Moves.guard _ (le_refl 0)) (by simp) fun _ => ?_
    exact Moves.bind (decodeParameter_moves _ _) (by simp) fun param => Moves.pure _ (by simp)
  · refine Moves.bind decodeIsString_moves (by simp) fun text => Moves.ite _ ?_ ?_
    · refine Moves.bind (Moves.attempt decodeText_moves) (le_refl _) fun r => ?_
      exact Moves.bind (decodeParameter_moves _ _) (by cases r <;> simp) fun param =>
        Moves.pure _ (by cases r <;> simp)
    · exact Moves.fail (by simp)

theorem decodeMmsContentType_moves (contentType : MmsContentType) :
    Moves (decodeMmsContentType contentType) (fun _ => 0) (-1) := by
  refine Moves.bind decodeIsShortInt_moves (by simp) fun short => Moves.ite _ ?_ ?_
  · exact Moves.bind getOneByte_moves (by simp) fun oneByte => Moves.pure _ (by simp)
  · refine Moves.bind decodeIsString_moves (by simp) fun text => Moves.ite _ ?_ ?_
    · refine Moves.bind (Moves.attempt decodeText_moves) (le_refl _) fun r => ?_
      refine Moves.bind (Moves.guard _ (le_refl 0)) (by cases r <;> simp) fun _ => ?_
      exact Moves.pure _ (by cases r <;> simp)
    · exact (decodeMmsCTGeneralForm_moves contentType).mono (by simp) (by simp)

end TelephonySms.Mms
