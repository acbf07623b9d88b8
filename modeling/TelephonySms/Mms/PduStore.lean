import Mathlib.Data.List.TakeWhile
import TelephonySms.Mms.DecodeBuffer

/-! # The table of MMS PDUs

The service and the application's framework hand a PDU to each other through a table of the
data share. A row holds text, so every octet is stored as two that are not zero; a PDU too long
for one row is cut into several, and the numbers of its rows are the url it is passed by.
-/

namespace TelephonySms.Mms

namespace PduStore

/-! ## The rows of a PDU -/

def SPLIT_PDU_LENGTH : Nat := 195 * 1024

def targetMmsPdu (mmsPdu : Octets) : Octets :=
  mmsPdu.flatMap fun b => [(b &&& 0x0f) ||| 0xf0, (b &&& 0xf0) ||| 0x0f]

/-- The loop of `SplitPdu` from page `locate` on, at most `fuel` pages. -/
def splitFrom (target : Octets) : Nat → Nat → List Octets
  | 0, _ => []
  | fuel + 1, locate =>
      if u32 (locate * SPLIT_PDU_LENGTH) < target.length then
        if u32 (u32 (locate + 1) * SPLIT_PDU_LENGTH) < target.length then
          (target.drop (u32 (locate * SPLIT_PDU_LENGTH))).take SPLIT_PDU_LENGTH ::
            splitFrom target fuel (u32 (locate + 1))
        else [target.drop (u32 (locate * SPLIT_PDU_LENGTH))]
      else []

def splitPdu (mmsPdu : Octets) : List Octets :=
  splitFrom (targetMmsPdu mmsPdu) ((targetMmsPdu mmsPdu).length + 1) 0

/-- The loop of `QueryMmsPdu` over the octets of a row. -/
def mergePdu : Octets → Octets
  | a :: b :: blob => ((a &&& 0x0f) ||| (b &&& 0xf0)) :: mergePdu blob
  | _ => []

theorem mergePdu_append {a : Octets} (h : a.length % 2 = 0) (b : Octets) :
    mergePdu (a ++ b) = mergePdu a ++ mergePdu b := by
  induction a using mergePdu.induct with
  | case1 x y blob ih =>
      have heven : blob.length % 2 = 0 := by
        simp only [List.length_cons] at h
        omega
      simp [mergePdu, ih heven]
  | case2 a hshort =>
      have hnil : a = [] := by
        rcases a with _ | ⟨x, _ | ⟨y, blob⟩⟩
        · rfl
        · simp at h
        · exact absurd rfl (hshort x y blob)
      subst hnil
      rfl

theorem length_targetMmsPdu (mmsPdu : Octets) :
    (targetMmsPdu mmsPdu).length = 2 * mmsPdu.length := by
  induction mmsPdu with
  | nil => rfl
  | cons b mmsPdu ih =>
      simp only [targetMmsPdu, List.flatMap_cons, List.length_append, List.length_cons] at ih ⊢
      simp only [ih, List.length_nil]
      omega

theorem merge_halves (b : UInt8) :
    (((b &&& 0x0f) ||| 0xf0) &&& 0x0f) ||| (((b &&& 0xf0) ||| 0x0f) &&& 0xf0) = b := by
  rcases b with ⟨⟨n⟩⟩
  revert n
  decide +kernel

theorem halves_ne_zero (b : UInt8) : (b &&& 0x0f) ||| 0xf0 ≠ 0 ∧ (b &&& 0xf0) ||| 0x0f ≠ 0 := by
  rcases b with ⟨⟨n⟩⟩
  revert n
  decide +kernel

theorem mergePdu_targetMmsPdu (mmsPdu : Octets) : mergePdu (targetMmsPdu mmsPdu) = mmsPdu := by
  induction mmsPdu with
  | nil => rfl
  | cons b mmsPdu ih =>
      simp only [targetMmsPdu, List.flatMap_cons, List.cons_append, List.nil_append, mergePdu]
        at ih ⊢
      rw [ih, merge_halves]

/-- The octets that end a text are not among those that are stored. -/
theorem ne_zero_of_mem_targetMmsPdu {mmsPdu : Octets} {a : UInt8}
    (h : a ∈ targetMmsPdu mmsPdu) : a ≠ 0 := by
  rcases List.mem_flatMap.mp h with ⟨b, -, hb⟩
  rcases List.mem_cons.mp hb with rfl | hb
  · exact (halves_ne_zero b).1
  · rw [List.mem_singleton.mp hb]
    exact (halves_ne_zero b).2

/-- What a page is: whole pairs of a target, at least one. -/
structure IsPage (target page : Octets) : Prop where
  pos : 2 ≤ page.length
  even : page.length % 2 = 0
  mem : ∀ a ∈ page, a ∈ target

theorem SPLIT_PDU_LENGTH_even (locate : Nat) : (locate * SPLIT_PDU_LENGTH) % 2 = 0 := by
  simp only [SPLIT_PDU_LENGTH]
  omega

theorem isPage_drop {target : Octets} (heven : target.length % 2 = 0) {n : Nat}
    (hn : n % 2 = 0) (hlt : n < target.length) : IsPage target (target.drop n) where
  pos := by
    rw [List.length_drop]
    omega
  even := by
    rw [List.length_drop]
    omega
  mem _ ha := List.mem_of_mem_drop ha

theorem isPage_take {target : Octets} {n : Nat} (hlt : n + SPLIT_PDU_LENGTH < target.length) :
    IsPage target ((target.drop n).take SPLIT_PDU_LENGTH) := by
  have hlength : ((target.drop n).take SPLIT_PDU_LENGTH).length = SPLIT_PDU_LENGTH := by
    rw [List.length_take, List.length_drop]
    omega
  refine ⟨?_, ?_, fun a ha => List.mem_of_mem_drop (List.mem_of_mem_take ha)⟩
  · rw [hlength]
    decide
  · rw [hlength]
    rfl

/-- As long as no product overflows, the pages are the target cut. -/
theorem splitFrom_spec {target : Octets} (heven : target.length % 2 = 0)
    (hsize : target.length + SPLIT_PDU_LENGTH < 2 ^ 32) (fuel locate : Nat)
    (hfuel : target.length < locate * SPLIT_PDU_LENGTH + fuel)
    (hlocate : locate * SPLIT_PDU_LENGTH ≤ target.length + SPLIT_PDU_LENGTH) :
    (splitFrom target fuel locate).flatten = target.drop (locate * SPLIT_PDU_LENGTH) ∧
      ∀ page ∈ splitFrom target fuel locate, IsPage target page := by
  have hpast {n : Nat} (hn : target.length ≤ n) {pages : List Octets} (hnil : pages = []) :
      pages.flatten = target.drop n ∧ ∀ page ∈ pages, IsPage target page := by
    subst hnil
    exact ⟨(List.drop_eq_nil_of_le hn).symm, fun page hpage => by cases hpage⟩
  induction fuel generalizing locate with
  | zero => exact hpast (by omega) rfl
  | succ fuel ih =>
      have hfits : u32 (locate * SPLIT_PDU_LENGTH) = locate * SPLIT_PDU_LENGTH :=
        Nat.mod_eq_of_lt (by omega)
      have hnext : (locate + 1) * SPLIT_PDU_LENGTH =
          locate * SPLIT_PDU_LENGTH + SPLIT_PDU_LENGTH := Nat.succ_mul ..
      have hlength : SPLIT_PDU_LENGTH = 199680 := rfl
      have hle : locate ≤ locate * SPLIT_PDU_LENGTH := Nat.le_mul_of_pos_right _ (by decide)
      by_cases hmore : locate * SPLIT_PDU_LENGTH < target.length
      · have hsucc : u32 (locate + 1) = locate + 1 := Nat.mod_eq_of_lt (by omega)
        have hfits' : u32 ((locate + 1) * SPLIT_PDU_LENGTH) =
            (locate + 1) * SPLIT_PDU_LENGTH := Nat.mod_eq_of_lt (by omega)
        simp only [splitFrom, hfits, hsucc, hfits', if_pos hmore]
        split
        · rename_i hfull
          rcases ih (locate + 1) (by omega) (by omega) with ⟨hrest, hpages⟩
          constructor
          · rw [List.flatten_cons, hrest, hnext, ← List.drop_drop, List.take_append_drop]
          · intro page hpage
            rcases List.mem_cons.mp hpage with rfl | hpage
            · exact isPage_take (by omega)
            · exact hpages page hpage
        · constructor
          · simp
          · intro page hpage
            rw [List.mem_singleton.mp hpage]
            exact isPage_drop heven (SPLIT_PDU_LENGTH_even locate) hmore
      · simp only [splitFrom, hfits, if_neg hmore]
        exact hpast (by omega) rfl

theorem splitPdu_spec {mmsPdu : Octets} (hsize : mmsPdu.length ≤ MMS_PDU_MAX_SIZE) :
    (splitPdu mmsPdu).flatten = targetMmsPdu mmsPdu ∧
      ∀ page ∈ splitPdu mmsPdu, IsPage (targetMmsPdu mmsPdu) page := by
  have hlength := length_targetMmsPdu mmsPdu
  have hmax : MMS_PDU_MAX_SIZE = 10485760 := rfl
  have hpage : SPLIT_PDU_LENGTH = 199680 := rfl
  have heven : (targetMmsPdu mmsPdu).length % 2 = 0 := by omega
  have hspec := splitFrom_spec heven (by omega) ((targetMmsPdu mmsPdu).length + 1) 0
    (by omega) (by omega)
  simpa [splitPdu] using hspec

theorem mergePdu_flatten {target : Octets} {pages : List Octets}
    (h : ∀ page ∈ pages, IsPage target page) :
    mergePdu pages.flatten = (pages.map mergePdu).flatten := by
  induction pages with
  | nil => rfl
  | cons page pages ih =>
      have hpage := h page List.mem_cons_self
      rw [List.flatten_cons, mergePdu_append hpage.even, ih fun q hq => h q (by simp [hq])]
      rfl

/-- The pages of a PDU, read one after the other, are the PDU. -/
theorem flatten_map_mergePdu {mmsPdu : Octets} (hsize : mmsPdu.length ≤ MMS_PDU_MAX_SIZE) :
    ((splitPdu mmsPdu).map mergePdu).flatten = mmsPdu := by
  rcases splitPdu_spec hsize with ⟨hflatten, hpages⟩
  rw [← mergePdu_flatten hpages, hflatten, mergePdu_targetMmsPdu]

/-! ## Urls -/

abbrev Url := List Char

/-- `std::to_string` of a row number. -/
def rowName (id : Nat) : Url := Nat.toDigits 10 id

/-- The loop of `SplitUrl`, at most `fuel` names. -/
def splitUrlFrom : Nat → Url → List Url
  | 0, _ => []
  | fuel + 1, url =>
      match url.findIdx? (· = ',') with
      | none => []
      | some 0 => []
      | some (locate + 1) =>
          url.take (locate + 1) :: splitUrlFrom fuel (url.drop (locate + 2))

def splitUrl (url : Url) : List Url := splitUrlFrom url.length url

/-- The url that `InsertMmsPdu` writes for its rows. -/
def urlOf (ids : List Nat) : Url := ids.flatMap fun id => rowName id ++ [',']

theorem rowName_spec (id : Nat) : rowName id ≠ [] ∧ ',' ∉ rowName id := by
  constructor
  · exact Nat.toDigits_ne_nil
  · intro hmem
    have hdigit := Nat.isDigit_of_mem_toDigits (by decide) (by decide) hmem
    exact absurd hdigit (by decide)

theorem rowName_injective : Function.Injective rowName := by
  intro a b hab
  have := congrArg (fun l => Nat.ofDigitChars 10 l 0) hab
  simpa [rowName] using this

theorem splitUrlFrom_cons (fuel : Nat) {name rest : Url} (hname : name ≠ []) (hcomma : ',' ∉ name) :
    splitUrlFrom (fuel + 1) (name ++ ',' :: rest) = name :: splitUrlFrom fuel rest := by
  have hnone : name.findIdx? (· = ',') = none := by
    rw [List.findIdx?_eq_none_iff]
    intro c hc
    have hne : c ≠ ',' := fun heq => hcomma (heq ▸ hc)
    simp [hne]
  have hfind : (name ++ ',' :: rest).findIdx? (· = ',') = some name.length := by
    rw [List.findIdx?_append, hnone]
    simp [List.findIdx?_cons]
  rcases name with _ | ⟨c, name⟩
  · exact absurd rfl hname
  · simp only [splitUrlFrom, hfind, List.length_cons]
    congr 1
    · simp
    · simp

theorem splitUrlFrom_urlOf (ids : List Nat) (fuel : Nat) (hfuel : ids.length ≤ fuel) :
    splitUrlFrom fuel (urlOf ids) = ids.map rowName := by
  induction ids generalizing fuel with
  | nil => cases fuel <;> rfl
  | cons id ids ih =>
      cases fuel with
      | zero => simp at hfuel
      | succ fuel =>
          have hrest := ih fuel (by simpa using hfuel)
          have hsplit : urlOf (id :: ids) = rowName id ++ ',' :: urlOf ids := by
            simp [urlOf]
          rw [hsplit, splitUrlFrom_cons fuel (rowName_spec id).1 (rowName_spec id).2, hrest]
          rfl

theorem splitUrl_urlOf (ids : List Nat) : splitUrl (urlOf ids) = ids.map rowName := by
  apply splitUrlFrom_urlOf
  induction ids with
  | nil => exact Nat.zero_le _
  | cons id ids ih =>
      simp only [urlOf, List.flatMap_cons, List.length_append, List.length_cons] at ih ⊢
      omega

theorem urlOf_ne_nil {ids : List Nat} : urlOf ids ≠ [] ↔ ids ≠ [] := by
  cases ids with
  | nil => simp [urlOf]
  | cons id ids => simp [urlOf]

/-! ## The table -/

structure Row where
  id : Nat
  pduContent : Octets
deriving DecidableEq, Repr

/-- Conditions put on one object are joined by AND; each one names a row. -/
abbrev Predicates := List Url

def Predicates.holds (predicates : Predicates) (row : Row) : Bool :=
  predicates.all fun url => url = rowName row.id

/-- `GetBlob` of a text: what stands before the terminator, and the terminator. -/
def getBlob (content : Octets) : Octets := content.takeWhile (· ≠ 0) ++ [0]

theorem getBlob_of_page {mmsPdu page : Octets} (h : IsPage (targetMmsPdu mmsPdu) page) :
    getBlob page = page ++ [0] := by
  have hall : page.takeWhile (· ≠ 0) = page := by
    rw [List.takeWhile_eq_self_iff]
    intro a ha
    simpa using ne_zero_of_mem_targetMmsPdu (h.mem a ha)
  rw [getBlob, hall]

/-- The loop of `InsertMmsPdu`: `answer i` is the number that the data share gives the row of
page `i`, or none when it refuses it. The rows before a refusal stay. -/
def insertPages (answer : Nat → Option Nat) (i : Nat) (url : Url) (table : List Row) :
    List Octets → Option Url × List Row
  | [] => (some url, table)
  | page :: pages =>
      match answer i with
      | none => (none, table)
      | some id =>
          insertPages answer (i + 1) (url ++ rowName id ++ [',']) (table ++ [⟨id, page⟩]) pages

/-- `InsertMmsPdu`, the same in the service and in the framework; no url when it fails. -/
def insertMmsPdu (answer : Nat → Option Nat) (table : List Row) (mmsPdu : Octets) :
    Option Url × List Row :=
  match insertPages answer 0 [] table (splitPdu mmsPdu) with
  | (some url, table) => (if url.isEmpty then none else some url, table)
  | (none, table) => (none, table)

/-- The loop of `DeleteMmsPdu`: every url is added to the conditions of those before it. -/
def deletePages (answer : Nat → Bool) (i : Nat) (predicates : Predicates) (table : List Row) :
    List Url → List Row
  | [] => table
  | url :: urls =>
      if answer i then
        deletePages answer (i + 1) (predicates ++ [url])
          (table.filter fun row => !Predicates.holds (predicates ++ [url]) row) urls
      else table

section Read

-- whether the data share answers the query for a url
variable (queried : Url → Bool)

namespace MmsPersistHelper

/-- One round of the loop of `QueryMmsPdu`. -/
def readPage (table : List Row) (url : Url) : Option Octets :=
  if !queried url then none
  else
    match table.find? (Predicates.holds [url]) with
    | none => none
    | some row =>
        let blob := (getBlob row.pduContent).dropLast
        if blob.length < 2 then none else some (mergePdu blob)

/-- `GetMmsPdu`: nothing when a query fails. -/
def getMmsPdu (table : List Row) (dbUrl : Url) : Octets :=
  ((splitUrl dbUrl).mapM (readPage queried table)).elim [] List.flatten

def deleteMmsPdu (answer : Nat → Bool) (table : List Row) (dbUrl : Url) : List Row :=
  deletePages answer 0 [] table (splitUrl dbUrl)

end MmsPersistHelper

namespace NAPIMmsPdu

/-- The last of the rows is read here, and its size is not looked at. -/
def readPage (table : List Row) (url : Url) : Option Octets :=
  if !queried url then none
  else
    match (table.filter (Predicates.holds [url])).getLast? with
    | none => none
    | some row => some (mergePdu (getBlob row.pduContent).dropLast)

def getMmsPdu (table : List Row) (dbUrl : Url) : Octets :=
  ((splitUrl dbUrl).mapM (readPage queried table)).elim [] List.flatten

/-- Nothing is deleted when nothing is read. -/
def deleteMmsPdu (answer : Nat → Bool) (table : List Row) (dbUrl : Url) : List Row :=
  if (getMmsPdu queried table dbUrl).isEmpty then table
  else deletePages answer 0 [] table (splitUrl dbUrl)

end NAPIMmsPdu

end Read

end PduStore

end TelephonySms.Mms
