import Mathlib.Algebra.GroupWithZero.Nat
import TelephonySms.Machine
import TelephonySms.Mms.PduStore

/-! # Handing PDUs through the table

For a message that is sent the framework writes the PDU, the service reads and deletes it; for
one that is downloaded it is the other way round. Both sides work on one table, for many
messages at a time, and know a PDU by the url it was written under.
-/

namespace TelephonySms.Mms

open Machine

namespace PduStore

/-! ## One operation -/

/-- The numbers of the rows that are written before the data share refuses one. -/
def givenIds (answer : Nat → Option Nat) (i : Nat) : List Octets → List Nat
  | [] => []
  | _ :: pages =>
      match answer i with
      | none => []
      | some id => id :: givenIds answer (i + 1) pages

def rowsOf (ids : List Nat) (pages : List Octets) : List Row :=
  (ids.zip pages).map fun p => ⟨p.1, p.2⟩

theorem length_givenIds_le (answer : Nat → Option Nat) (i : Nat) (pages : List Octets) :
    (givenIds answer i pages).length ≤ pages.length := by
  induction pages generalizing i with
  | nil => exact Nat.le_refl _
  | cons page pages ih =>
      cases hanswer : answer i with
      | none => simp [givenIds, hanswer]
      | some id => simpa [givenIds, hanswer] using ih (i + 1)

theorem insertPages_eq (answer : Nat → Option Nat) (i : Nat) (url : Url) (table : List Row)
    (pages : List Octets) :
    insertPages answer i url table pages =
      (if (givenIds answer i pages).length = pages.length then
          some (url ++ urlOf (givenIds answer i pages)) else none,
        table ++ rowsOf (givenIds answer i pages) pages) := by
  induction pages generalizing i url table with
  | nil => simp [insertPages, givenIds, urlOf, rowsOf]
  | cons page pages ih =>
      cases hanswer : answer i with
      | none => simp [insertPages, givenIds, hanswer, rowsOf]
      | some id =>
          simp only [insertPages, givenIds, hanswer, ih, List.length_cons,
            Nat.add_right_cancel_iff, rowsOf, List.zip_cons_cons, List.map_cons, List.append_assoc,
            List.singleton_append]
          simp [urlOf]

theorem insertMmsPdu_eq (answer : Nat → Option Nat) (table : List Row) (mmsPdu : Octets) :
    insertMmsPdu answer table mmsPdu =
      (if (givenIds answer 0 (splitPdu mmsPdu)).length = (splitPdu mmsPdu).length ∧
          givenIds answer 0 (splitPdu mmsPdu) ≠ [] then
          some (urlOf (givenIds answer 0 (splitPdu mmsPdu))) else none,
        table ++ rowsOf (givenIds answer 0 (splitPdu mmsPdu)) (splitPdu mmsPdu)) := by
  have hempty : (urlOf (givenIds answer 0 (splitPdu mmsPdu))).isEmpty = true ↔
      givenIds answer 0 (splitPdu mmsPdu) = [] := by
    rw [List.isEmpty_iff]
    exact not_iff_not.mp urlOf_ne_nil
  unfold insertMmsPdu
  rw [insertPages_eq]
  by_cases hall : (givenIds answer 0 (splitPdu mmsPdu)).length = (splitPdu mmsPdu).length
  · rw [if_pos hall]
    by_cases hnil : givenIds answer 0 (splitPdu mmsPdu) = []
    · simp [hnil, urlOf]
    · simp [hall, hnil, mt hempty.mp hnil]
  · simp [hall]

theorem holds_rowName (id : Nat) (row : Row) :
    Predicates.holds [rowName id] row = decide (row.id = id) := by
  simp only [Predicates.holds, List.all_cons, List.all_nil, Bool.and_true, decide_eq_decide]
  exact ⟨fun h => (rowName_injective h).symm, fun h => by rw [h]⟩

/-- Conditions that name two rows are met by none. -/
theorem deletePages_of_two (answer : Nat → Bool) {a b : Url} (hab : a ≠ b) (i : Nat)
    {predicates : Predicates} (ha : a ∈ predicates) (table : List Row) (urls : List Url)
    (hb : b ∈ predicates ∨ ∃ rest, urls = b :: rest) :
    deletePages answer i predicates table urls = table := by
  induction urls generalizing i predicates with
  | nil => rfl
  | cons url urls ih =>
      have hmem : b ∈ predicates ++ [url] := by
        rcases hb with hb | ⟨rest, hrest⟩
        · exact List.mem_append_left _ hb
        · simp [(List.cons.inj hrest).1]
      have hnone : ∀ row, Predicates.holds (predicates ++ [url]) row = false := by
        intro row
        by_contra hholds
        simp only [Bool.not_eq_false, Predicates.holds, List.all_eq_true, decide_eq_true_eq]
          at hholds
        exact hab ((hholds a (List.mem_append_left _ ha)).trans (hholds b hmem).symm)
      simp only [deletePages]
      split
      · simp only [hnone, Bool.not_false, List.filter_true]
        exact ih (i + 1) (List.mem_append_left _ ha) (.inl hmem)
      · rfl

/-- Only the row of the first page is deleted. -/
theorem deletePages_eq (answer : Nat → Bool) (table : List Row) {id : Nat} {ids : List Nat}
    (hnodup : (id :: ids).Nodup) :
    deletePages answer 0 [] table ((id :: ids).map rowName) =
      if answer 0 then table.filter (·.id ≠ id) else table := by
  simp only [List.map_cons, deletePages, List.nil_append, holds_rowName]
  split
  · cases ids with
    | nil => simp [deletePages]
    | cons id' ids =>
        have hne : rowName id ≠ rowName id' := by
          intro heq
          simp [rowName_injective heq] at hnodup
        rw [List.map_cons, deletePages_of_two answer hne 1 (by simp) _ _ (.inr ⟨_, rfl⟩)]
        simp
  · rfl

/-! ## Reading a url -/

theorem filter_of_mem {table : List Row} (hnodup : (table.map Row.id).Nodup) {row : Row}
    (hmem : row ∈ table) : table.filter (Predicates.holds [rowName row.id]) = [row] := by
  induction table with
  | nil => cases hmem
  | cons first table ih =>
      rw [List.map_cons, List.nodup_cons] at hnodup
      rcases List.mem_cons.mp hmem with rfl | hmem
      · have hrest : table.filter (Predicates.holds [rowName row.id]) = [] := by
          rw [List.filter_eq_nil_iff]
          intro other hother
          have hne : other.id ≠ row.id := fun heq =>
            hnodup.1 (List.mem_map.mpr ⟨other, hother, heq⟩)
          simp [holds_rowName, hne]
        rw [List.filter_cons_of_pos (by simp [holds_rowName]), hrest]
      · have hne : first.id ≠ row.id := fun heq =>
          hnodup.1 (List.mem_map.mpr ⟨row, hmem, heq.symm⟩)
        rw [List.filter_cons_of_neg (by simp [holds_rowName, hne]), ih hnodup.2 hmem]

theorem filter_of_notMem {table : List Row} {id : Nat} (h : id ∉ table.map Row.id) :
    table.filter (Predicates.holds [rowName id]) = [] := by
  rw [List.filter_eq_nil_iff]
  intro row hrow
  have hne : row.id ≠ id := fun heq => h (List.mem_map.mpr ⟨row, hrow, heq⟩)
  simp [holds_rowName, hne]

/-- Both sides read a page the same way: the row that has its number, when there is one. -/
theorem readPage_of_mem {table : List Row} (hnodup : (table.map Row.id).Nodup) {row : Row}
    (hmem : row ∈ table) {mmsPdu : Octets} (hpage : IsPage (targetMmsPdu mmsPdu) row.pduContent) :
    MmsPersistHelper.readPage (fun _ => true) table (rowName row.id) =
        some (mergePdu row.pduContent) ∧
      NAPIMmsPdu.readPage (fun _ => true) table (rowName row.id) =
        some (mergePdu row.pduContent) := by
  have hfilter := filter_of_mem hnodup hmem
  have hfind : table.find? (Predicates.holds [rowName row.id]) = some row := by
    rw [← List.head?_filter, hfilter]
    rfl
  have hblob : (getBlob row.pduContent).dropLast = row.pduContent := by
    rw [getBlob_of_page hpage, List.dropLast_concat]
  have hsize : ¬ row.pduContent.length < 2 := Nat.not_lt.mpr hpage.pos
  constructor
  · simp [MmsPersistHelper.readPage, hfind, hblob, hsize]
  · simp [NAPIMmsPdu.readPage, hfilter, hblob]

theorem readPage_of_notMem {table : List Row} {id : Nat} (h : id ∉ table.map Row.id) :
    MmsPersistHelper.readPage (fun _ => true) table (rowName id) = none ∧
      NAPIMmsPdu.readPage (fun _ => true) table (rowName id) = none := by
  have hfilter := filter_of_notMem h
  have hfind : table.find? (Predicates.holds [rowName id]) = none := by
    rw [← List.head?_filter, hfilter]
    rfl
  constructor
  · simp [MmsPersistHelper.readPage, hfind]
  · simp [NAPIMmsPdu.readPage, hfilter]

theorem mapM_readPage {read : Url → Option Octets} {ids : List Nat} {pages : List Octets}
    (hlength : ids.length = pages.length)
    (h : ∀ row ∈ rowsOf ids pages, read (rowName row.id) = some (mergePdu row.pduContent)) :
    (ids.map rowName).mapM read = some (pages.map mergePdu) := by
  induction ids generalizing pages with
  | nil =>
      have hnil : pages = [] := List.length_eq_zero_iff.mp hlength.symm
      subst hnil
      rfl
  | cons id ids ih =>
      rcases pages with _ | ⟨page, pages⟩
      · simp at hlength
      · have hfirst : read (rowName id) = some (mergePdu page) := h ⟨id, page⟩ (by simp [rowsOf])
        have hrest := ih (by simpa using hlength) fun row hrow => h row (by simp_all [rowsOf])
        rw [List.map_cons, List.mapM_cons, hfirst]
        simp [hrest]

/-- What both sides read for a url. -/
def Reads (table : List Row) (url : Url) (mmsPdu : Octets) : Prop :=
  MmsPersistHelper.getMmsPdu (fun _ => true) table url = mmsPdu ∧
    NAPIMmsPdu.getMmsPdu (fun _ => true) table url = mmsPdu

theorem reads_of_rows {table : List Row} (hnodup : (table.map Row.id).Nodup) {ids : List Nat}
    {mmsPdu : Octets} (hsize : mmsPdu.length ≤ MMS_PDU_MAX_SIZE)
    (hlength : ids.length = (splitPdu mmsPdu).length)
    (hrows : ∀ row ∈ rowsOf ids (splitPdu mmsPdu), row ∈ table) :
    Reads table (urlOf ids) mmsPdu := by
  have hpage : ∀ row ∈ rowsOf ids (splitPdu mmsPdu),
      IsPage (targetMmsPdu mmsPdu) row.pduContent := by
    intro row hrow
    rcases List.mem_map.mp hrow with ⟨p, hp, rfl⟩
    exact (splitPdu_spec hsize).2 _ (List.of_mem_zip hp).2
  unfold Reads MmsPersistHelper.getMmsPdu NAPIMmsPdu.getMmsPdu
  rw [splitUrl_urlOf,
    mapM_readPage hlength fun row hrow => (readPage_of_mem hnodup (hrows row hrow) (hpage row hrow)).1,
    mapM_readPage hlength fun row hrow => (readPage_of_mem hnodup (hrows row hrow) (hpage row hrow)).2]
  exact ⟨flatten_map_mergePdu hsize, flatten_map_mergePdu hsize⟩

theorem reads_nil {table : List Row} {id : Nat} (h : id ∉ table.map Row.id) (ids : List Nat) :
    Reads table (urlOf (id :: ids)) [] := by
  rcases readPage_of_notMem h with ⟨hservice, hframework⟩
  unfold Reads MmsPersistHelper.getMmsPdu NAPIMmsPdu.getMmsPdu
  rw [splitUrl_urlOf, List.map_cons, List.mapM_cons, List.mapM_cons, hservice, hframework]
  exact ⟨rfl, rfl⟩

/-! ## Runs of both sides -/

inductive Party where
  | service
  | framework

/-- A PDU whose url was given to the other side. -/
structure Handed where
  ids : List Nat
  url : Url
  mmsPdu : Octets
  /-- A delete has been answered for its first row. -/
  released : Bool

structure Exchange where
  table : List Row := []
  handed : List Handed := []
  /-- Every row number that was ever given. -/
  issued : List Nat := []
  /-- Rows of PDUs that the data share refused to take whole. -/
  abandoned : Nat := 0

inductive Operation where
  | insert (mmsPdu : Octets) (answer : Nat → Option Nat)
  /-- The url that was handed out as the `k`-th is deleted. -/
  | delete (party : Party) (k : Nat) (queried : Url → Bool) (answer : Nat → Bool)

namespace Party

def deleteMmsPdu (queried : Url → Bool) (answer : Nat → Bool) (table : List Row) (dbUrl : Url) :
    Party → List Row
  | service => MmsPersistHelper.deleteMmsPdu answer table dbUrl
  | framework => NAPIMmsPdu.deleteMmsPdu queried answer table dbUrl

/-- Whether a delete gets as far as the data share. -/
def attempts (queried : Url → Bool) (table : List Row) (dbUrl : Url) : Party → Bool
  | service => true
  | framework => !(NAPIMmsPdu.getMmsPdu queried table dbUrl).isEmpty

theorem deleteMmsPdu_eq (queried : Url → Bool) (answer : Nat → Bool) (table : List Row) {id : Nat}
    {ids : List Nat} (hnodup : (id :: ids).Nodup) (party : Party) :
    party.deleteMmsPdu queried answer table (urlOf (id :: ids)) =
      if party.attempts queried table (urlOf (id :: ids)) && answer 0 then
        table.filter (·.id ≠ id)
      else table := by
  have hpages := deletePages_eq answer table hnodup
  cases party with
  | service =>
      simpa [deleteMmsPdu, attempts, MmsPersistHelper.deleteMmsPdu, splitUrl_urlOf] using hpages
  | framework =>
      cases hread : (NAPIMmsPdu.getMmsPdu queried table (urlOf (id :: ids))).isEmpty with
      | true => simp [deleteMmsPdu, attempts, NAPIMmsPdu.deleteMmsPdu, hread]
      | false =>
          simpa [deleteMmsPdu, attempts, NAPIMmsPdu.deleteMmsPdu, splitUrl_urlOf, hread] using
            hpages

end Party

namespace Exchange

def step (s : Exchange) : Operation → Exchange
  | .insert mmsPdu answer =>
      let ids := givenIds answer 0 (splitPdu mmsPdu)
      let (url, table) := insertMmsPdu answer s.table mmsPdu
      match url with
      | some url =>
          { s with
            table
            handed := s.handed ++ [⟨ids, url, mmsPdu, false⟩]
            issued := s.issued ++ ids }
      | none =>
          { s with
            table
            issued := s.issued ++ ids
            abandoned := s.abandoned + ids.length }
  | .delete party k queried answer =>
      match s.handed[k]? with
      | none => s
      | some h =>
          let released := h.released || (party.attempts queried s.table h.url && answer 0)
          { s with
            table := party.deleteMmsPdu queried answer s.table h.url
            handed := s.handed.set k { h with released } }

/-- The data share gives every row a number of its own. -/
def Fresh (s : Exchange) : Operation → Prop
  | .insert mmsPdu answer =>
      mmsPdu.length ≤ MMS_PDU_MAX_SIZE ∧
        (s.issued ++ givenIds answer 0 (splitPdu mmsPdu)).Nodup
  | .delete .. => True

end Exchange

namespace Handed

/-- The rows of a PDU that are in the table. -/
def rows (h : Handed) : List Row :=
  if h.released then (rowsOf h.ids (splitPdu h.mmsPdu)).tail
  else rowsOf h.ids (splitPdu h.mmsPdu)

structure Written (h : Handed) : Prop where
  url : h.url = urlOf h.ids
  ids : h.ids ≠ []
  pages : h.ids.length = (splitPdu h.mmsPdu).length
  size : h.mmsPdu.length ≤ MMS_PDU_MAX_SIZE

theorem map_id_rowsOf {ids : List Nat} {pages : List Octets} (h : ids.length ≤ pages.length) :
    (rowsOf ids pages).map Row.id = ids := by
  simp only [rowsOf, List.map_map]
  exact List.map_fst_zip h

theorem Written.map_id_rows {h : Handed} (written : h.Written) :
    h.rows.map Row.id = if h.released then h.ids.tail else h.ids := by
  have hids := map_id_rowsOf (Nat.le_of_eq written.pages)
  unfold rows
  split
  · rw [List.map_tail, hids]
  · exact hids

theorem Written.length_rows {h : Handed} (written : h.Written) :
    h.rows.length = (splitPdu h.mmsPdu).length - if h.released then 1 else 0 := by
  have hlength := congrArg List.length written.map_id_rows
  rw [List.length_map] at hlength
  rw [hlength, ← written.pages]
  split <;> simp

end Handed

theorem exists_set {α : Type} {l : List α} {k : Nat} {a : α} (h : l[k]? = some a) :
    ∃ front back, l = front ++ a :: back ∧ ∀ b, l.set k b = front ++ b :: back := by
  induction l generalizing k with
  | nil => simp at h
  | cons x l ih =>
      cases k with
      | zero =>
          have hx : x = a := by simpa using h
          exact ⟨[], l, by rw [hx]; rfl, fun b => rfl⟩
      | succ k =>
          rcases ih (by simpa using h) with ⟨front, back, hl, hset⟩
          exact ⟨x :: front, back, by rw [hl]; rfl, fun b => by simp [hset]⟩

theorem perm_swap_last {α : Type} (a b c : List α) : (a ++ b ++ c).Perm (a ++ c ++ b) := by
  rw [List.append_assoc, List.append_assoc]
  exact List.perm_append_comm.append_left a

/-- What is in the table: the rows of the PDUs handed out, and those without an owner. -/
structure Kept (s : Exchange) (orphans : List Row) : Prop where
  issued : s.issued.Nodup
  numbered : s.issued.Perm (s.handed.flatMap Handed.ids ++ orphans.map Row.id)
  stored : s.table.Perm (s.handed.flatMap Handed.rows ++ orphans)
  abandoned : orphans.length = s.abandoned
  written : ∀ h ∈ s.handed, h.Written

namespace Kept

variable {s : Exchange} {orphans : List Row}

theorem insert (inv : Kept s orphans) {mmsPdu : Octets} {answer : Nat → Option Nat}
    (hsize : mmsPdu.length ≤ MMS_PDU_MAX_SIZE)
    (hfresh : (s.issued ++ givenIds answer 0 (splitPdu mmsPdu)).Nodup) :
    ∃ orphans, Kept (s.step (.insert mmsPdu answer)) orphans := by
  have hids := Handed.map_id_rowsOf (length_givenIds_le answer 0 (splitPdu mmsPdu))
  have hnumbered := inv.numbered.append_right (givenIds answer 0 (splitPdu mmsPdu))
  have hstored := inv.stored.append_right
    (rowsOf (givenIds answer 0 (splitPdu mmsPdu)) (splitPdu mmsPdu))
  simp only [Exchange.step, insertMmsPdu_eq]
  split
  · rename_i url hurl
    split at hurl
    · rename_i hwhole
      refine ⟨orphans, hfresh, ?_, ?_, inv.abandoned, ?_⟩
      · simp only [List.flatMap_append, List.flatMap_singleton]
        exact hnumbered.trans (perm_swap_last ..)
      · simp only [List.flatMap_append, List.flatMap_singleton]
        exact hstored.trans (perm_swap_last ..)
      · intro h hmem
        rcases List.mem_append.mp hmem with hold | hnew
        · exact inv.written h hold
        · rw [List.mem_singleton.mp hnew]
          exact ⟨(Option.some.inj hurl).symm, hwhole.2, hwhole.1, hsize⟩
    · cases hurl
  · refine ⟨orphans ++ rowsOf (givenIds answer 0 (splitPdu mmsPdu)) (splitPdu mmsPdu), hfresh,
      ?_, ?_, ?_, inv.written⟩
    · simpa only [List.map_append, hids, List.append_assoc] using hnumbered
    · simpa only [List.append_assoc] using hstored
    · have hlength := congrArg List.length hids
      rw [List.length_map] at hlength
      rw [List.length_append, inv.abandoned, hlength]

theorem issued_nodup (inv : Kept s orphans) :
    (s.handed.flatMap Handed.ids ++ orphans.map Row.id).Nodup :=
  inv.numbered.nodup_iff.mp inv.issued

theorem map_id_sublist {handed : List Handed} (h : ∀ h ∈ handed, h.Written) :
    ((handed.flatMap Handed.rows).map Row.id).Sublist (handed.flatMap Handed.ids) := by
  induction handed with
  | nil => exact List.Sublist.refl _
  | cons first handed ih =>
      have hrest := ih fun x hx => h x (List.mem_cons_of_mem _ hx)
      have hfirst : (first.rows.map Row.id).Sublist first.ids := by
        rw [(h first List.mem_cons_self).map_id_rows]
        split
        · exact List.tail_sublist _
        · exact List.Sublist.refl _
      rw [List.flatMap_cons, List.flatMap_cons, List.map_append]
      exact hfirst.append hrest

/-- No two rows of the table have one number. -/
theorem table_nodup (inv : Kept s orphans) : (s.table.map Row.id).Nodup := by
  rw [(inv.stored.map Row.id).nodup_iff, List.map_append]
  exact inv.issued_nodup.sublist ((map_id_sublist inv.written).append (List.Sublist.refl _))

theorem filter_other {rows : List Row} {id : Nat} (h : id ∉ rows.map Row.id) :
    rows.filter (·.id ≠ id) = rows := by
  rw [List.filter_eq_self]
  intro row hrow
  have hne : row.id ≠ id := fun heq => h (List.mem_map.mpr ⟨row, hrow, heq⟩)
  simp [hne]

/-- A PDU loses its first row, or has lost it before. -/
theorem filter_rows {h : Handed} (written : h.Written) {id : Nat} {ids : List Nat}
    (hids : h.ids = id :: ids) (hown : id ∉ ids) :
    h.rows.filter (·.id ≠ id) = Handed.rows { h with released := true } := by
  have hall := Handed.map_id_rowsOf (Nat.le_of_eq written.pages)
  rw [hids] at hall
  rcases hrows : rowsOf (id :: ids) (splitPdu h.mmsPdu) with _ | ⟨first, rest⟩
  · simp [hrows] at hall
  · rw [hrows, List.map_cons, List.cons.injEq] at hall
    have hrest : rest.filter (·.id ≠ id) = rest := filter_other (hall.2 ▸ hown)
    unfold Handed.rows
    rw [hids, hrows]
    simp only [List.tail_cons, if_true]
    split
    · exact hrest
    · rw [List.filter_cons_of_neg (by simp [hall.1]), hrest]

/-- No other row has the number of a PDU's first row. -/
theorem first_row (inv : Kept s orphans) {front back : List Handed} {h : Handed}
    (hhanded : s.handed = front ++ h :: back) {id : Nat} {ids : List Nat}
    (hids : h.ids = id :: ids) :
    (id :: ids).Nodup ∧ id ∉ front.flatMap Handed.ids ∧ id ∉ back.flatMap Handed.ids ∧
      id ∉ orphans.map Row.id := by
  have hnodup : (id :: ids ++ (front.flatMap Handed.ids ++
      (back.flatMap Handed.ids ++ orphans.map Row.id))).Nodup := by
    have hperm := inv.issued_nodup
    rw [hhanded] at hperm
    simp only [List.flatMap_append, List.flatMap_cons, hids, List.append_assoc] at hperm
    exact (List.perm_append_comm_assoc _ _ _).nodup_iff.mp hperm
  rw [List.nodup_append] at hnodup
  rcases hnodup with ⟨hown, -, hother⟩
  have hnot : id ∉ front.flatMap Handed.ids ++ (back.flatMap Handed.ids ++ orphans.map Row.id) :=
    fun hmem => hother id List.mem_cons_self id hmem rfl
  simp only [List.mem_append, not_or] at hnot
  exact ⟨hown, hnot⟩

theorem delete (inv : Kept s orphans) (party : Party) (k : Nat) (queried : Url → Bool)
    (answer : Nat → Bool) : Kept (s.step (.delete party k queried answer)) orphans := by
  simp only [Exchange.step]
  cases hk : s.handed[k]? with
  | none => exact inv
  | some h =>
      rcases exists_set hk with ⟨front, back, hhanded, hset⟩
      have hwritten : h.Written := inv.written h (by simp [hhanded])
      rcases hids : h.ids with _ | ⟨id, ids⟩
      · exact absurd hids hwritten.ids
      rcases inv.first_row hhanded hids with ⟨hown, hnot⟩
      have hurl : h.url = urlOf (id :: ids) := by rw [hwritten.url, hids]
      have hall := inv.written
      rw [hhanded] at hall
      have hdelete := Party.deleteMmsPdu_eq queried answer s.table hown party
      rw [← hurl] at hdelete
      simp only [hset, hdelete]
      cases hdone : party.attempts queried s.table h.url && answer 0 with
      | false =>
          simp only [Bool.or_false, Bool.false_eq_true, if_false]
          rw [← hhanded]
          exact inv
      | true =>
          have hfront : (front.flatMap Handed.rows).filter (·.id ≠ id) =
              front.flatMap Handed.rows := filter_other fun hmem =>
            hnot.1 ((map_id_sublist fun x hx => hall x (by simp [hx])).subset hmem)
          have hback : (back.flatMap Handed.rows).filter (·.id ≠ id) =
              back.flatMap Handed.rows := filter_other fun hmem =>
            hnot.2.1 ((map_id_sublist fun x hx => hall x (by simp [hx])).subset hmem)
          have horphans : orphans.filter (·.id ≠ id) = orphans := filter_other hnot.2.2
          have hrows := filter_rows hwritten hids (List.nodup_cons.mp hown).1
          have hstored := inv.stored.filter (·.id ≠ id)
          rw [hhanded] at hstored
          simp only [List.flatMap_append, List.flatMap_cons, List.filter_append, hfront, hback,
            horphans, hrows] at hstored
          simp only [Bool.or_true, if_true]
          refine ⟨inv.issued, ?_, ?_, inv.abandoned, ?_⟩
          · have hnumbered := inv.numbered
            rw [hhanded] at hnumbered
            simpa only [List.flatMap_append, List.flatMap_cons] using hnumbered
          · simpa only [List.flatMap_append, List.flatMap_cons] using hstored
          · intro x hx
            rcases List.mem_append.mp hx with hx | hx
            · exact hall x (by simp [hx])
            · rcases List.mem_cons.mp hx with rfl | hx
              · exact ⟨hwritten.url, hwritten.ids, hwritten.pages, hwritten.size⟩
              · exact hall x (by simp [hx])

theorem step (inv : Kept s orphans) {op : Operation} (hfresh : s.Fresh op) :
    ∃ orphans, Kept (s.step op) orphans := by
  cases op with
  | insert mmsPdu answer => exact inv.insert hfresh.1 hfresh.2
  | delete party k queried answer => exact ⟨orphans, inv.delete party k queried answer⟩

/-- A PDU that was not deleted is read back, one that was is gone for both sides. -/
theorem reads (inv : Kept s orphans) {h : Handed} (hmem : h ∈ s.handed) :
    Reads s.table h.url (if h.released then [] else h.mmsPdu) := by
  have hwritten := inv.written h hmem
  have hrows : ∀ row ∈ h.rows, row ∈ s.table := by
    intro row hrow
    apply inv.stored.mem_iff.mpr
    exact List.mem_append_left _ (List.mem_flatMap.mpr ⟨h, hmem, hrow⟩)
  rw [hwritten.url]
  cases hreleased : h.released with
  | false =>
      simp only [Handed.rows, hreleased, Bool.false_eq_true, if_false] at hrows
      exact reads_of_rows inv.table_nodup hwritten.size hwritten.pages hrows
  | true =>
      rcases hids : h.ids with _ | ⟨id, ids⟩
      · exact absurd hids hwritten.ids
      · apply reads_nil
        rcases List.append_of_mem hmem with ⟨front, back, hhanded⟩
        rcases inv.first_row hhanded hids with ⟨hown, hfront, hback, horphans⟩
        have hall := inv.written
        rw [hhanded] at hall
        have hrest : id ∉ h.rows.map Row.id := by
          rw [hwritten.map_id_rows, hreleased, hids]
          exact (List.nodup_cons.mp hown).1
        rw [(inv.stored.map Row.id).mem_iff, hhanded]
        simp only [List.flatMap_append, List.flatMap_cons, List.map_append, List.mem_append, not_or]
        refine ⟨⟨fun hin => hfront ?_, hrest, fun hin => hback ?_⟩, horphans⟩
        · exact (map_id_sublist fun x hx => hall x (by simp [hx])).subset hin
        · exact (map_id_sublist fun x hx => hall x (by simp [hx])).subset hin

end Kept

theorem kept_run {ops : List Operation} (hfresh : Guarded Exchange.step Exchange.Fresh {} ops) :
    ∃ orphans, Kept (ops.foldl Exchange.step {}) orphans := by
  have hinit : Kept {} [] :=
    ⟨List.nodup_nil, List.Perm.refl _, List.Perm.refl _, rfl, fun h hh => by cases hh⟩
  have hstep : ∀ (s : Exchange) op, s.Fresh op → (∃ orphans, Kept s orphans) →
      ∃ orphans, Kept (s.step op) orphans := by
    rintro s op hok ⟨orphans, inv⟩
    exact inv.step hok
  exact hfresh.invariant hstep ⟨[], hinit⟩

/-- In every run of inserts and deletes of the service and the framework, with row numbers
that are given once: as long as no delete was answered for a url both sides read from it, octet
for octet, the PDU it was handed out for, and afterwards both read nothing. -/
theorem handed_pdu_reads_back (ops : List Operation)
    (hfresh : Guarded Exchange.step Exchange.Fresh {} ops) (h : Handed)
    (hmem : h ∈ (ops.foldl Exchange.step {}).handed) :
    let table := (ops.foldl Exchange.step {}).table
    let mmsPdu := if h.released then [] else h.mmsPdu
    MmsPersistHelper.getMmsPdu (fun _ => true) table h.url = mmsPdu ∧
      NAPIMmsPdu.getMmsPdu (fun _ => true) table h.url = mmsPdu := by
  rcases kept_run hfresh with ⟨orphans, inv⟩
  exact inv.reads hmem

/-- The framework writes a PDU for the service to send. -/
theorem sent_pdu_is_read :
    let s := [Operation.insert [0x8c, 0x80] fun _ => some 7].foldl Exchange.step {}
    MmsPersistHelper.getMmsPdu (fun _ => true) s.table ['7', ','] = [0x8c, 0x80] := by
  have hfresh : Guarded Exchange.step Exchange.Fresh {}
      [.insert [0x8c, 0x80] fun _ => some 7] := ⟨⟨by decide, by decide⟩, trivial⟩
  exact (handed_pdu_reads_back _ hfresh ⟨[7], ['7', ','], [0x8c, 0x80], false⟩
    (List.Mem.head _)).1

end PduStore

end TelephonySms.Mms
