import Mathlib.Data.List.Sort
import Mathlib.Logic.Function.Basic
import TelephonySms.Machine

/-! # Cell broadcast pages

`GsmSmsCbHandler` keeps the pages of broadcasts that are not complete yet, and publishes
a broadcast when its pages have been counted. The list is looked up without the update
number, which is compared apart; and what is removed with a complete broadcast is also
what does not match the location the handler noted last.
-/

namespace TelephonySms.Broadcast

open TelephonySms.Machine

structure BroadcastId where
  geoScope : UInt8
  msgCode : UInt16
  msgId : UInt16
  updateNum : UInt8
deriving DecidableEq, Repr

/-- The fields of `GsmCbMessageHeader` that the handler reads. -/
structure CbHeader where
  broadcast : BroadcastId
  page : UInt8
  totalPages : UInt8
  recvTime : Int
deriving DecidableEq, Repr

/-- `operator==`, without the update number. -/
def CbHeader.same (header other : CbHeader) : Bool :=
  header.broadcast.geoScope = other.broadcast.geoScope &&
    header.broadcast.msgCode = other.broadcast.msgCode &&
      header.broadcast.msgId = other.broadcast.msgId

/-- A decoded page: its header and what `GetCbMessageRaw` returns. -/
structure CbPage where
  header : CbHeader
  raw : List UInt8
deriving DecidableEq, Repr

/-- The cell of the phone, if it is known to be a GSM cell. -/
structure Location where
  plmn : List Char
  gsm : Option (Int × Int)
deriving DecidableEq, Repr

/-- `cbMsgs` is a map, so its pages are in order. -/
structure SmsCbInfo where
  header : CbHeader
  cbMsgs : List (UInt8 × CbPage)
  plmn : List Char
  lac : Int
  cid : Int
deriving DecidableEq, Repr

def SmsCbInfo.matchLocation (info : SmsCbInfo) (plmn : List Char) (lac cid : Int) : Bool :=
  plmn = info.plmn && (info.lac = -1 || info.lac = lac) && (info.cid = -1 || info.cid = cid)

structure CbHandler where
  cbMsgList : List SmsCbInfo
  plmn : List Char
  lac : Int
  cid : Int
deriving DecidableEq, Repr

def CbHandler.init : CbHandler := ⟨[], [], -1, -1⟩

def maxCbMsgListSize : Nat := 10000

def defaultExpiredTime : Int := 3 * 60 * 60

/-- `std::map::insert`. -/
def insertPage (page : UInt8) (m : CbPage) : List (UInt8 × CbPage) → List (UInt8 × CbPage)
  | [] => [(page, m)]
  | entry :: cbMsgs =>
      if page < entry.1 then (page, m) :: entry :: cbMsgs
      else if page = entry.1 then entry :: cbMsgs
      else entry :: insertPage page m cbMsgs

/-- The location area and the cell that an entry of a geographical scope is bound to. -/
def scopeLocation (geoScope : UInt8) (lac cid : Int) : Int × Int :=
  if geoScope = 2 then (lac, -1)
  else if geoScope = 3 ∨ geoScope = 0 then (lac, cid)
  else (-1, -1)

namespace CbHandler

/-- `InitLocation`; the handler notes the location of the entry, too. -/
def initLocation (h : CbHandler) (location : Location) (info : SmsCbInfo) :
    CbHandler × SmsCbInfo :=
  let info := { info with plmn := location.plmn }
  match location.gsm with
  | none => (h, info)
  | some (lac, cid) =>
      let (lac, cid) := scopeLocation info.header.broadcast.geoScope lac cid
      let info := { info with lac := lac, cid := cid }
      ({ h with plmn := info.plmn, lac := info.lac, cid := info.cid }, info)

/-- The last entry with the header of the page. -/
def findCbMessage (h : CbHandler) (m : CbPage) : Option SmsCbInfo :=
  (h.cbMsgList.filter fun info => info.header.same m.header).getLast?

def addCbMessageToList (h : CbHandler) (location : Location) (m : CbPage) : CbHandler :=
  match h.findCbMessage m with
  | some _ => h
  | none =>
      let (h, info) := h.initLocation location
        ⟨m.header, insertPage m.header.page m [], [], -1, -1⟩
      let size := h.cbMsgList.length
      let kept := if size > maxCbMsgListSize then h.cbMsgList.drop (size / 2) else h.cbMsgList
      { h with cbMsgList := kept ++ [info] }

/-- From the end of the list, except for its first entry. -/
def clearExpiredMessage (h : CbHandler) (now : Int) : CbHandler :=
  match (List.range h.cbMsgList.length).reverse.find? fun i =>
      0 < i && (h.cbMsgList[i]?.any fun info => now - info.header.recvTime > defaultExpiredTime) with
  | none => h
  | some i => { h with cbMsgList := h.cbMsgList.drop (i + 1) }

/-- Write an entry in the place of the first one with the same header. -/
def setFirst (info : SmsCbInfo) : List SmsCbInfo → List SmsCbInfo
  | [] => []
  | other :: cbMsgList =>
      if other.header.same info.header then info :: cbMsgList
      else other :: setFirst info cbMsgList

/-- `CheckCbMessage` with the page count it returns. -/
def checkCbMessage (h : CbHandler) (location : Location) (m : CbPage) : CbHandler × UInt8 :=
  match h.cbMsgList.find? fun info => info.header.same m.header with
  | none => (h.addCbMessageToList location m, 1)
  | some info =>
      if info.header.broadcast.updateNum ≠ m.header.broadcast.updateNum then
        (h.addCbMessageToList location m, 1)
      else if info.cbMsgs.any (·.1 = m.header.page) then (h, 1)
      else
        let cbMsgs := insertPage m.header.page m info.cbMsgs
        let h := { h with cbMsgList := setFirst { info with cbMsgs := cbMsgs } h.cbMsgList }
        if m.header.totalPages = 1 then (h.addCbMessageToList location m, 1)
        else (h, UInt8.ofNat cbMsgs.length)

def removeCbMessageFromList (h : CbHandler) (m : CbPage) : CbHandler :=
  { h with
    cbMsgList := h.cbMsgList.filter fun info =>
      !(info.header.same m.header || !info.matchLocation h.plmn h.lac h.cid) }

end CbHandler

/-- What is published: for which broadcast, and the text before it is converted. -/
structure Publication where
  broadcast : BroadcastId
  rawMsgBody : List UInt8
deriving DecidableEq, Repr

/-- A page, and the time at which it is handled. -/
structure CbArrival where
  page : CbPage
  now : Int
deriving DecidableEq, Repr

namespace CbHandler

/-- `SendCbMessageBroadcast`, up to the event it publishes. -/
def sendCbMessageBroadcast (h : CbHandler) (m : CbPage) : List Publication :=
  match h.findCbMessage m with
  | none => []
  | some info => [⟨m.header.broadcast, info.cbMsgs.flatMap (·.2.raw)⟩]

/-- `HandleCbMessage` after the page was decoded. -/
def handleCbMessage (location : Location) (h : CbHandler) (arrival : CbArrival) :
    CbHandler × List Publication :=
  let m := arrival.page
  let (h, pageCnt) := (h.clearExpiredMessage arrival.now).checkCbMessage location m
  if m.header.totalPages = pageCnt then
    (h.removeCbMessageFromList m, h.sendCbMessageBroadcast m)
  else (h, [])

end CbHandler

/-! ## What a reception is -/

/-- The pages of each broadcast that have arrived since it was last complete. -/
abbrev Collected : Type := BroadcastId → UInt8 → Option (List UInt8)

def Collected.init : Collected := fun _ _ => none

def pageNumbers (totalPages : UInt8) : List UInt8 :=
  (List.range' 1 totalPages.toNat).map UInt8.ofNat

/-- A page that is there already is passed over. When the last page of a broadcast arrives
its pages are published in order, and the next page starts a new reception. -/
def Collected.collect (c : Collected) (arrival : CbArrival) : Collected × List Publication :=
  let header := arrival.page.header
  if (c header.broadcast header.page).isSome then (c, [])
  else
    let got := Function.update (c header.broadcast) header.page (some arrival.page.raw)
    if (pageNumbers header.totalPages).all fun page => (got page).isSome then
      (Function.update c header.broadcast fun _ => none,
        [⟨header.broadcast, (pageNumbers header.totalPages).flatMap fun page =>
          (got page).getD []⟩])
    else (Function.update c header.broadcast got, [])

/-- Pages are numbered from one to the number of pages of their broadcast. -/
def WellNumbered (total : BroadcastId → UInt8) (header : CbHeader) : Prop :=
  header.totalPages = total header.broadcast ∧ 1 ≤ header.page ∧
    header.page ≤ header.totalPages

/-- All is handled before anything expires. -/
def WithinExpiry (arrivals : List CbArrival) : Prop :=
  ∀ a ∈ arrivals, ∀ b ∈ arrivals, a.now - b.page.header.recvTime ≤ defaultExpiredTime

/-- The page is the last one its broadcast waits for. -/
def CbHandler.Completes (h : CbHandler) (m : CbPage) : Prop :=
  m.header.totalPages = 1 ∨
    ∃ info ∈ h.cbMsgList, info.header.same m.header = true ∧
      info.cbMsgs.length + 1 = m.header.totalPages.toNat ∧
        ∀ entry ∈ info.cbMsgs, entry.1 ≠ m.header.page

/-- The location the handler has noted when a page that completes a broadcast has been
added. -/
def CbHandler.noted (h : CbHandler) (location : Location) (m : CbPage) : CbHandler :=
  if h.cbMsgList.any fun info => info.header.same m.header then h
  else (h.initLocation location ⟨m.header, [], [], -1, -1⟩).1

/-- Where broadcasts do not get into each other's way: no other update of the broadcast is
waiting for pages, there is room for a new entry, and when the page completes its broadcast
the others that wait match the location that was noted last. -/
def KeepsApart (location : Location) (h : CbHandler) (arrival : CbArrival) : Prop :=
  (∀ info ∈ h.cbMsgList, info.header.same arrival.page.header = true →
      info.header.broadcast.updateNum = arrival.page.header.broadcast.updateNum) ∧
    ((∃ info ∈ h.cbMsgList, info.header.same arrival.page.header = true) ∨
      h.cbMsgList.length ≤ maxCbMsgListSize) ∧
    (h.Completes arrival.page → ∀ info ∈ h.cbMsgList,
      info.header.same arrival.page.header = false →
        info.matchLocation (h.noted location arrival.page).plmn
          (h.noted location arrival.page).lac (h.noted location arrival.page).cid = true)

/-! ## Headers -/

namespace CbHeader

theorem same_iff {a b : CbHeader} :
    a.same b = true ↔ a.broadcast.geoScope = b.broadcast.geoScope ∧
      a.broadcast.msgCode = b.broadcast.msgCode ∧ a.broadcast.msgId = b.broadcast.msgId := by
  simp [same, and_assoc]

theorem same_comm (a b : CbHeader) : a.same b = b.same a := by
  rw [Bool.eq_iff_iff, same_iff, same_iff]
  simp only [eq_comm]

theorem same_trans {a b c : CbHeader} (hab : a.same b = true) (hbc : b.same c = true) :
    a.same c = true := by
  rw [same_iff] at hab hbc ⊢
  exact ⟨hab.1.trans hbc.1, hab.2.1.trans hbc.2.1, hab.2.2.trans hbc.2.2⟩

theorem same_of_broadcast_eq {a b : CbHeader} (h : a.broadcast = b.broadcast) :
    a.same b = true := by
  rw [same_iff, h]
  exact ⟨rfl, rfl, rfl⟩

theorem broadcast_eq_of_same {a b : CbHeader} (h : a.same b = true)
    (hupdate : a.broadcast.updateNum = b.broadcast.updateNum) : a.broadcast = b.broadcast := by
  rw [same_iff] at h
  cases ha : a.broadcast
  cases hb : b.broadcast
  simp_all

end CbHeader

/-! ## The pages of one entry -/

section Pages

variable {cbMsgs : List (UInt8 × CbPage)} {page : UInt8} {m : CbPage}

theorem mem_insertPage (hnew : ∀ entry ∈ cbMsgs, entry.1 ≠ page) {entry : UInt8 × CbPage} :
    entry ∈ insertPage page m cbMsgs ↔ entry = (page, m) ∨ entry ∈ cbMsgs := by
  induction cbMsgs with
  | nil => simp [insertPage]
  | cons first cbMsgs ih =>
      have hne : page ≠ first.1 := fun heq => hnew first (by simp) heq.symm
      rw [insertPage]
      split
      · simp
      · rw [List.mem_cons, ih fun e he => hnew e (by simp [he]), List.mem_cons]
        tauto

theorem length_insertPage (hnew : ∀ entry ∈ cbMsgs, entry.1 ≠ page) :
    (insertPage page m cbMsgs).length = cbMsgs.length + 1 := by
  induction cbMsgs with
  | nil => rfl
  | cons first cbMsgs ih =>
      have hne : page ≠ first.1 := fun heq => hnew first (by simp) heq.symm
      rw [insertPage]
      split
      · rfl
      · rw [List.length_cons, ih fun e he => hnew e (by simp [he]), List.length_cons]

/-- The pages are in order, each once. -/
def InOrder (cbMsgs : List (UInt8 × CbPage)) : Prop :=
  cbMsgs.Pairwise fun a b => a.1.toNat < b.1.toNat

theorem inOrder_insertPage (h : InOrder cbMsgs) (hnew : ∀ entry ∈ cbMsgs, entry.1 ≠ page) :
    InOrder (insertPage page m cbMsgs) := by
  induction cbMsgs with
  | nil => exact List.pairwise_singleton ..
  | cons first cbMsgs ih =>
      have hne : page ≠ first.1 := fun heq => hnew first (by simp) heq.symm
      have hlater : ∀ e ∈ cbMsgs, e.1 ≠ page := fun e he => hnew e (by simp [he])
      obtain ⟨hfirst, hrest⟩ := List.pairwise_cons.1 h
      rw [insertPage]
      split
      · rename_i hlt
        rw [UInt8.lt_iff_toNat_lt] at hlt
        refine List.pairwise_cons.2 ⟨fun e he => ?_, h⟩
        cases List.mem_cons.1 he with
        | inl heq => rw [heq]; exact hlt
        | inr hmem => exact Nat.lt_trans hlt (hfirst e hmem)
      · rename_i hlt
        refine List.pairwise_cons.2 ⟨fun e he => ?_, ih hrest hlater⟩
        cases (mem_insertPage hlater).1 he with
        | inl heq =>
            rw [heq]
            rw [UInt8.lt_iff_toNat_lt] at hlt
            have : page.toNat ≠ first.1.toNat := fun heq => hne (UInt8.toNat_inj.1 heq)
            dsimp only
            omega
        | inr hmem => exact hfirst e hmem

/-- What has been collected of a broadcast is what the pages hold. -/
def Holds (cbMsgs : List (UInt8 × CbPage)) (got : UInt8 → Option (List UInt8)) : Prop :=
  ∀ page raw, got page = some raw ↔ ∃ m, (page, m) ∈ cbMsgs ∧ m.raw = raw

theorem Holds.insertPage {got : UInt8 → Option (List UInt8)} (h : Holds cbMsgs got)
    (hnew : ∀ entry ∈ cbMsgs, entry.1 ≠ page) :
    Holds (insertPage page m cbMsgs) (Function.update got page (some m.raw)) := by
  intro p raw
  by_cases hp : p = page
  · subst hp
    rw [Function.update_self]
    constructor
    · intro heq
      exact ⟨m, (mem_insertPage hnew).2 (.inl rfl), Option.some.inj heq⟩
    · rintro ⟨other, hmem, hraw⟩
      cases (mem_insertPage hnew).1 hmem with
      | inl heq => cases heq; rw [hraw]
      | inr hold => exact absurd rfl (hnew _ hold)
  · rw [Function.update_of_ne hp, h p raw]
    refine exists_congr fun other => and_congr_left fun _ => ?_
    rw [mem_insertPage hnew]
    simp [hp]

/-- The page numbers of an entry are among those of its broadcast. -/
def Numbered (totalPages : UInt8) (cbMsgs : List (UInt8 × CbPage)) : Prop :=
  ∀ entry ∈ cbMsgs, 1 ≤ entry.1.toNat ∧ entry.1.toNat ≤ totalPages.toNat

section Complete

variable {totalPages : UInt8} {got : UInt8 → Option (List UInt8)}

theorem toNat_pageNumbers (totalPages : UInt8) :
    (pageNumbers totalPages).map UInt8.toNat = List.range' 1 totalPages.toNat := by
  unfold pageNumbers
  rw [List.map_map]
  refine List.map_congr_left (fun n hn => ?_) |>.trans (List.map_id _)
  have hlt := totalPages.toNat_lt
  have := List.mem_range'_1.1 hn
  have hsize : n < 2 ^ 8 := by omega
  exact UInt8.toNat_ofNat_of_lt' hsize

theorem pages_sublist (horder : InOrder cbMsgs) (hnum : Numbered totalPages cbMsgs) :
    (cbMsgs.map fun e => e.1.toNat).Sublist (List.range' 1 totalPages.toNat) := by
  have hsorted : (cbMsgs.map fun e => e.1.toNat).Pairwise (· < ·) := List.pairwise_map.2 horder
  have hsubset : cbMsgs.map (fun e => e.1.toNat) ⊆ List.range' 1 totalPages.toNat := by
    intro n hn
    obtain ⟨e, he, rfl⟩ := List.mem_map.1 hn
    have := hnum e he
    exact List.mem_range'_1.2 (by omega)
  exact List.sublist_of_subperm_of_pairwise
    (List.subperm_of_subset (hsorted.imp Nat.ne_of_lt) hsubset) (hsorted.imp Nat.le_of_lt)
    ((List.pairwise_lt_range' ..).imp Nat.le_of_lt)

/-- As many pages as the broadcast has are all of them, in order. -/
theorem pages_eq_pageNumbers (horder : InOrder cbMsgs) (hnum : Numbered totalPages cbMsgs)
    (hlength : cbMsgs.length = totalPages.toNat) :
    cbMsgs.map (·.1) = pageNumbers totalPages := by
  have heq := (pages_sublist horder hnum).eq_of_length (by simp [hlength])
  have hinj : Function.Injective UInt8.toNat := fun a b hab => UInt8.toNat_inj.1 hab
  refine hinj.list_map ?_
  rw [toNat_pageNumbers, ← heq, List.map_map]
  rfl

theorem Holds.isSome_iff (h : Holds cbMsgs got) {page : UInt8} :
    (got page).isSome = true ↔ page ∈ cbMsgs.map (·.1) := by
  rw [Option.isSome_iff_exists, List.mem_map]
  constructor
  · rintro ⟨raw, hraw⟩
    obtain ⟨m, hm, -⟩ := (h page raw).1 hraw
    exact ⟨_, hm, rfl⟩
  · rintro ⟨⟨p, m⟩, hm, rfl⟩
    exact ⟨m.raw, (h p m.raw).2 ⟨m, hm, rfl⟩⟩

theorem complete_iff (h : Holds cbMsgs got) (horder : InOrder cbMsgs)
    (hnum : Numbered totalPages cbMsgs) :
    ((pageNumbers totalPages).all fun page => (got page).isSome) = true ↔
      cbMsgs.length = totalPages.toNat := by
  rw [List.all_eq_true]
  constructor
  · intro hall
    have hsub := pages_sublist horder hnum
    have hback : List.range' 1 totalPages.toNat ⊆ cbMsgs.map fun e => e.1.toNat := by
      intro n hn
      rw [← toNat_pageNumbers] at hn
      obtain ⟨page, hpage, rfl⟩ := List.mem_map.1 hn
      obtain ⟨e, he, rfl⟩ := List.mem_map.1 (h.isSome_iff.1 (hall page hpage))
      exact List.mem_map.2 ⟨e, he, rfl⟩
    have hle := (List.subperm_of_subset List.nodup_range' hback).length_le
    have hge := hsub.length_le
    simp only [List.length_map, List.length_range'] at hle hge
    omega
  · intro hlength page hpage
    rw [← pages_eq_pageNumbers horder hnum hlength] at hpage
    exact h.isSome_iff.2 hpage

/-- The pages of a complete entry, put together, are its broadcast. -/
theorem body_eq (h : Holds cbMsgs got) (horder : InOrder cbMsgs)
    (hnum : Numbered totalPages cbMsgs) (hlength : cbMsgs.length = totalPages.toNat) :
    cbMsgs.flatMap (·.2.raw) =
      (pageNumbers totalPages).flatMap fun page => (got page).getD [] := by
  rw [← pages_eq_pageNumbers horder hnum hlength, List.flatMap_map]
  refine List.flatMap_congr fun e he => ?_
  rw [(h e.1 e.2.raw).2 ⟨e.2, he, rfl⟩]
  rfl

end Complete

end Pages

/-! ## The list of entries -/

section Entries

variable {cbMsgList : List SmsCbInfo} {info other : SmsCbInfo} {m : CbPage}

/-- No two entries have the same header. -/
def DistinctHeaders (cbMsgList : List SmsCbInfo) : Prop :=
  cbMsgList.Pairwise fun a b => a.header.same b.header = false

theorem same_eq_false_of_ne {a b c : CbHeader} (hab : a.same b = false) (hbc : b.same c = true) :
    a.same c = false := by
  cases hac : a.same c with
  | false => rfl
  | true =>
      rw [CbHeader.same_comm] at hbc
      rw [CbHeader.same_trans hac hbc] at hab
      cases hab

theorem same_congr (a : CbHeader) {b c : CbHeader} (hbc : b.same c = true) :
    a.same b = a.same c := by
  cases hab : a.same b with
  | true => exact (CbHeader.same_trans hab hbc).symm
  | false => exact (same_eq_false_of_ne hab hbc).symm

theorem filter_same (hapart : DistinctHeaders cbMsgList) (hmem : info ∈ cbMsgList)
    (hsame : info.header.same m.header = true) :
    cbMsgList.filter (fun other => other.header.same m.header) = [info] := by
  induction cbMsgList with
  | nil => cases hmem
  | cons first cbMsgList ih =>
      obtain ⟨hfirst, hrest⟩ := List.pairwise_cons.1 hapart
      cases List.mem_cons.1 hmem with
      | inl heq =>
          subst heq
          have hnone : cbMsgList.filter (fun other => other.header.same m.header) = [] := by
            rw [List.filter_eq_nil_iff]
            intro other hother
            have hne := hfirst other hother
            rw [CbHeader.same_comm] at hne
            simp [same_eq_false_of_ne hne hsame]
          rw [List.filter_cons_of_pos (by simpa using hsame), hnone]
      | inr hmem =>
          have hne : first.header.same m.header = false :=
            same_eq_false_of_ne (hfirst info hmem) hsame
          rw [List.filter_cons_of_neg (by simp [hne]), ih hrest hmem]

theorem find?_same (hapart : DistinctHeaders cbMsgList) (hmem : info ∈ cbMsgList)
    (hsame : info.header.same m.header = true) :
    cbMsgList.find? (fun other => other.header.same m.header) = some info := by
  rw [← List.head?_filter, filter_same hapart hmem hsame]
  rfl

theorem mem_setFirst (hapart : DistinctHeaders cbMsgList) (hmem : info ∈ cbMsgList)
    {new : SmsCbInfo} (hnew : new.header = info.header) :
    other ∈ CbHandler.setFirst new cbMsgList ↔
      other = new ∨ other ∈ cbMsgList ∧ other.header.same info.header = false := by
  induction cbMsgList with
  | nil => cases hmem
  | cons first cbMsgList ih =>
      obtain ⟨hfirst, hrest⟩ := List.pairwise_cons.1 hapart
      have hself : info.header.same info.header = true := CbHeader.same_of_broadcast_eq rfl
      rw [CbHandler.setFirst, hnew]
      cases List.mem_cons.1 hmem with
      | inl heq =>
          subst heq
          rw [if_pos hself, List.mem_cons, List.mem_cons]
          refine or_congr_right ⟨fun h => ⟨.inr h, ?_⟩, ?_⟩
          · rw [CbHeader.same_comm]
            exact hfirst other h
          · rintro ⟨rfl | h, hne⟩
            · rw [hself] at hne
              cases hne
            · exact h
      | inr hmem =>
          have hne := hfirst info hmem
          rw [if_neg (by simp [hne]), List.mem_cons, ih hrest hmem, List.mem_cons]
          constructor
          · rintro (rfl | rfl | h)
            · exact .inr ⟨.inl rfl, hne⟩
            · exact .inl rfl
            · exact .inr ⟨.inr h.1, h.2⟩
          · rintro (rfl | ⟨rfl | h, hother⟩)
            · exact .inr (.inl rfl)
            · exact .inl rfl
            · exact .inr (.inr ⟨h, hother⟩)

theorem apart_setFirst (hapart : DistinctHeaders cbMsgList) (hmem : info ∈ cbMsgList)
    {new : SmsCbInfo} (hnew : new.header = info.header) :
    DistinctHeaders (CbHandler.setFirst new cbMsgList) := by
  induction cbMsgList with
  | nil => cases hmem
  | cons first cbMsgList ih =>
      obtain ⟨hfirst, hrest⟩ := List.pairwise_cons.1 hapart
      rw [CbHandler.setFirst, hnew]
      cases List.mem_cons.1 hmem with
      | inl heq =>
          subst heq
          rw [if_pos (CbHeader.same_of_broadcast_eq rfl)]
          refine List.pairwise_cons.2 ⟨?_, hrest⟩
          rw [hnew]
          exact hfirst
      | inr hmem =>
          have hne := hfirst info hmem
          rw [if_neg (by simp [hne])]
          refine List.pairwise_cons.2 ⟨fun other hother => ?_, ih hrest hmem⟩
          cases (mem_setFirst hrest hmem hnew).1 hother with
          | inl heq =>
              rw [heq, hnew]
              exact hne
          | inr hold => exact hfirst other hold.1

end Entries

/-! ## One page -/

/-- What an entry of the list is. -/
structure Waiting (total : BroadcastId → UInt8) (arrivals : List CbArrival) (info : SmsCbInfo) :
    Prop where
  order : InOrder info.cbMsgs
  numbered : Numbered (total info.header.broadcast) info.cbMsgs
  started : info.cbMsgs ≠ []
  fewer : info.cbMsgs.length < (total info.header.broadcast).toNat
  time : ∃ a ∈ arrivals, info.header.recvTime = a.page.header.recvTime

/-- The handler holds what has been collected. -/
structure Tracks (total : BroadcastId → UInt8) (arrivals : List CbArrival) (h : CbHandler)
    (c : Collected) : Prop where
  distinct : DistinctHeaders h.cbMsgList
  waiting : ∀ info ∈ h.cbMsgList, Waiting total arrivals info
  holds : ∀ info ∈ h.cbMsgList, Holds info.cbMsgs (c info.header.broadcast)
  nothing : ∀ broadcast, (∀ info ∈ h.cbMsgList, info.header.broadcast ≠ broadcast) →
    c broadcast = fun _ => none

theorem Tracks.init (total : BroadcastId → UInt8) (arrivals : List CbArrival) :
    Tracks total arrivals .init .init where
  distinct := List.Pairwise.nil
  waiting := by simp [CbHandler.init]
  holds := by simp [CbHandler.init]
  nothing _ _ := rfl

theorem clearExpiredMessage_eq {h : CbHandler} {now : Int}
    (htime : ∀ info ∈ h.cbMsgList, now - info.header.recvTime ≤ defaultExpiredTime) :
    h.clearExpiredMessage now = h := by
  unfold CbHandler.clearExpiredMessage
  have hnone : (List.range h.cbMsgList.length).reverse.find? (fun i => 0 < i &&
      (h.cbMsgList[i]?.any fun info => now - info.header.recvTime > defaultExpiredTime)) =
        none := by
    rw [List.find?_eq_none]
    intro i hi
    have hlt : i < h.cbMsgList.length := List.mem_range.1 (List.mem_reverse.1 hi)
    have := htime _ (List.getElem_mem hlt)
    simp [List.getElem?_eq_getElem hlt]
    intro _
    omega
  rw [hnone]

section Step

variable {total : BroadcastId → UInt8} {arrivals : List CbArrival} {h : CbHandler}
  {c : Collected} {m : CbPage}

/-- The list after a page of a broadcast that is still waiting. -/
theorem tracks_extended (htracks : Tracks total arrivals h c) {h' : CbHandler}
    {new : SmsCbInfo} {got : UInt8 → Option (List UInt8)}
    (hupdate : ∀ info ∈ h.cbMsgList, info.header.same m.header = true →
      info.header.broadcast = m.header.broadcast)
    (hmem : ∀ info, info ∈ h'.cbMsgList ↔
      info = new ∨ info ∈ h.cbMsgList ∧ info.header.same m.header = false)
    (hdistinct : DistinctHeaders h'.cbMsgList)
    (hbroadcast : new.header.broadcast = m.header.broadcast)
    (hwaiting : Waiting total arrivals new) (hholds : Holds new.cbMsgs got) :
    Tracks total arrivals h' (Function.update c m.header.broadcast got) := by
  have hother : ∀ info ∈ h.cbMsgList, info.header.same m.header = false →
      info.header.broadcast ≠ m.header.broadcast := by
    intro info _ hne heq
    rw [CbHeader.same_of_broadcast_eq heq] at hne
    cases hne
  refine ⟨hdistinct, fun info hinfo => ?_, fun info hinfo => ?_, fun broadcast hnone => ?_⟩
  · cases (hmem info).1 hinfo with
    | inl heq => rw [heq]; exact hwaiting
    | inr hold => exact htracks.waiting info hold.1
  · cases (hmem info).1 hinfo with
    | inl heq =>
        rw [heq, hbroadcast, Function.update_self]
        exact hholds
    | inr hold =>
        rw [Function.update_of_ne (hother info hold.1 hold.2)]
        exact htracks.holds info hold.1
  · have hne : broadcast ≠ m.header.broadcast := by
      rw [← hbroadcast]
      exact (hnone new ((hmem new).2 (.inl rfl))).symm
    rw [Function.update_of_ne hne]
    refine htracks.nothing broadcast fun info hinfo heq => ?_
    cases hsame : info.header.same m.header with
    | true => exact hne (heq ▸ hupdate info hinfo hsame)
    | false => exact hnone info ((hmem info).2 (.inr ⟨hinfo, hsame⟩)) heq

/-- The list after a page that completed its broadcast. -/
theorem tracks_completed (htracks : Tracks total arrivals h c) {h' : CbHandler}
    (hupdate : ∀ info ∈ h.cbMsgList, info.header.same m.header = true →
      info.header.broadcast = m.header.broadcast)
    (hmem : ∀ info, info ∈ h'.cbMsgList ↔
      info ∈ h.cbMsgList ∧ info.header.same m.header = false)
    (hdistinct : DistinctHeaders h'.cbMsgList) :
    Tracks total arrivals h' (Function.update c m.header.broadcast fun _ => none) := by
  refine ⟨hdistinct, fun info hinfo => htracks.waiting info ((hmem info).1 hinfo).1,
    fun info hinfo => ?_, fun broadcast hnone => ?_⟩
  · obtain ⟨hold, hne⟩ := (hmem info).1 hinfo
    have hother : info.header.broadcast ≠ m.header.broadcast := by
      intro heq
      rw [CbHeader.same_of_broadcast_eq heq] at hne
      cases hne
    rw [Function.update_of_ne hother]
    exact htracks.holds info hold
  · by_cases hbroadcast : broadcast = m.header.broadcast
    · rw [hbroadcast, Function.update_self]
    · rw [Function.update_of_ne hbroadcast]
      refine htracks.nothing broadcast fun info hinfo heq => ?_
      cases hsame : info.header.same m.header with
      | true => exact hbroadcast (heq ▸ hupdate info hinfo hsame)
      | false => exact hnone info ((hmem info).2 ⟨hinfo, hsame⟩) heq

theorem mem_removeCbMessageFromList
    (hmatch : ∀ info ∈ h.cbMsgList, info.header.same m.header = false →
      info.matchLocation h.plmn h.lac h.cid = true) {info : SmsCbInfo} :
    info ∈ (h.removeCbMessageFromList m).cbMsgList ↔
      info ∈ h.cbMsgList ∧ info.header.same m.header = false := by
  unfold CbHandler.removeCbMessageFromList
  rw [List.mem_filter]
  refine and_congr_right fun hinfo => ?_
  cases hsame : info.header.same m.header with
  | true => simp
  | false => simp [hmatch info hinfo hsame]

theorem distinct_removeCbMessageFromList (hdistinct : DistinctHeaders h.cbMsgList) :
    DistinctHeaders (h.removeCbMessageFromList m).cbMsgList :=
  hdistinct.sublist List.filter_sublist

/-- A page of a broadcast that is not in the list. -/
theorem checkCbMessage_new (location : Location)
    (hnone : ∀ info ∈ h.cbMsgList, info.header.same m.header = false)
    (hroom : h.cbMsgList.length ≤ maxCbMsgListSize) :
    ∃ info : SmsCbInfo, info.header = m.header ∧ info.cbMsgs = [(m.header.page, m)] ∧
      h.checkCbMessage location m =
        ({ h.noted location m with cbMsgList := h.cbMsgList ++ [info] }, 1) := by
  have hfilter : h.cbMsgList.filter (fun info => info.header.same m.header) = [] := by
    rw [List.filter_eq_nil_iff]
    intro info hinfo
    simp [hnone info hinfo]
  have hfind : h.cbMsgList.find? (fun info => info.header.same m.header) = none := by
    rw [← List.head?_filter, hfilter]
    rfl
  have hany : (h.cbMsgList.any fun info => info.header.same m.header) = false := by
    rw [List.any_eq_false]
    intro info hinfo
    simp [hnone info hinfo]
  have hlist : ∀ info, (h.initLocation location info).1.cbMsgList = h.cbMsgList := by
    intro info
    unfold CbHandler.initLocation
    cases location.gsm <;> rfl
  unfold CbHandler.checkCbMessage
  rw [hfind]
  simp only [CbHandler.addCbMessageToList, CbHandler.findCbMessage, hfilter, List.getLast?_nil,
    hlist, if_neg (Nat.not_lt.2 hroom), gt_iff_lt, CbHandler.noted, hany, Bool.false_eq_true,
    if_false, insertPage]
  unfold CbHandler.initLocation
  cases location.gsm with
  | none => exact ⟨_, rfl, rfl, rfl⟩
  | some cell => exact ⟨_, rfl, rfl, rfl⟩

/-- A page of a broadcast that is in the list. -/
theorem checkCbMessage_found (location : Location) (hdistinct : DistinctHeaders h.cbMsgList)
    {info : SmsCbInfo} (hinfo : info ∈ h.cbMsgList) (hsame : info.header.same m.header = true)
    (hupdate : info.header.broadcast.updateNum = m.header.broadcast.updateNum)
    (htotal : m.header.totalPages ≠ 1) :
    h.checkCbMessage location m =
      if info.cbMsgs.any (·.1 = m.header.page) then (h, 1)
      else
        ({ h with
            cbMsgList := CbHandler.setFirst
              { info with cbMsgs := insertPage m.header.page m info.cbMsgs } h.cbMsgList },
          UInt8.ofNat (insertPage m.header.page m info.cbMsgs).length) := by
  unfold CbHandler.checkCbMessage
  rw [find?_same hdistinct hinfo hsame]
  simp only [hupdate, ne_eq, not_true_eq_false, if_false, if_neg htotal]

section Page

variable {location : Location} {a : CbArrival} {got : UInt8 → Option (List UInt8)}
  {cbMsgs : List (UInt8 × CbPage)}

/-- What is collected with a page that is not there yet. -/
theorem collect_new (hnew : c a.page.header.broadcast a.page.header.page = none)
    (hholds : Holds cbMsgs (Function.update (c a.page.header.broadcast) a.page.header.page
      (some a.page.raw)))
    (horder : InOrder cbMsgs) (hnum : Numbered a.page.header.totalPages cbMsgs) :
    c.collect a =
      if cbMsgs.length = a.page.header.totalPages.toNat then
        (Function.update c a.page.header.broadcast fun _ => none,
          [⟨a.page.header.broadcast, cbMsgs.flatMap (·.2.raw)⟩])
      else
        (Function.update c a.page.header.broadcast (Function.update (c a.page.header.broadcast)
          a.page.header.page (some a.page.raw)), []) := by
  have hcomplete := complete_iff hholds horder hnum
  unfold Collected.collect
  simp only [hnew, Option.isSome_none, Bool.false_eq_true, if_false]
  by_cases hlength : cbMsgs.length = a.page.header.totalPages.toNat
  · rw [if_pos (hcomplete.2 hlength), if_pos hlength, body_eq hholds horder hnum hlength]
  · rw [if_neg (fun hall => hlength (hcomplete.1 hall)), if_neg hlength]

end Page

section Handle

variable {location : Location} {a : CbArrival}

theorem tracks_handle_new (htracks : Tracks total arrivals h c) (ha : a ∈ arrivals)
    (hnum : WellNumbered total a.page.header) (hkeeps : KeepsApart location h a)
    (hclear : h.clearExpiredMessage a.now = h)
    (hnone : ∀ info ∈ h.cbMsgList, info.header.same a.page.header = false)
    (hroom : h.cbMsgList.length ≤ maxCbMsgListSize) :
    (h.handleCbMessage location a).2 = (c.collect a).2 ∧
      Tracks total arrivals (h.handleCbMessage location a).1 (c.collect a).1 := by
  obtain ⟨htotal, hone, hle⟩ := hnum
  rw [UInt8.le_iff_toNat_le] at hone hle
  obtain ⟨new, hheader, hpages, hcheck⟩ := checkCbMessage_new location hnone hroom
  have hupdate : ∀ info ∈ h.cbMsgList, info.header.same a.page.header = true →
      info.header.broadcast = a.page.header.broadcast := by
    intro info hinfo hsame
    rw [hnone info hinfo] at hsame
    cases hsame
  have hempty : c a.page.header.broadcast = fun _ => none := by
    refine htracks.nothing _ fun info hinfo heq => ?_
    have hsame := hnone info hinfo
    rw [CbHeader.same_of_broadcast_eq heq] at hsame
    cases hsame
  have horder : InOrder new.cbMsgs := by
    rw [hpages]
    exact List.pairwise_singleton ..
  have hnumbered : Numbered a.page.header.totalPages new.cbMsgs := by
    intro entry hentry
    rw [hpages, List.mem_singleton] at hentry
    rw [hentry]
    exact ⟨hone, hle⟩
  have hholds : Holds new.cbMsgs (Function.update (c a.page.header.broadcast)
      a.page.header.page (some a.page.raw)) := by
    rw [hpages, hempty]
    have hnil : Holds [] fun _ => none := by
      intro page raw
      simp
    exact hnil.insertPage (by simp)
  have hdistinct : DistinctHeaders (h.cbMsgList ++ [new]) := by
    refine List.pairwise_append.2 ⟨htracks.distinct, List.pairwise_singleton .., ?_⟩
    intro info hinfo other hother
    rw [List.mem_singleton.1 hother, hheader]
    exact hnone info hinfo
  have hcollect := collect_new (by rw [hempty]) hholds horder hnumbered
  rw [hcollect, hpages]
  unfold CbHandler.handleCbMessage
  simp only [hclear, hcheck]
  by_cases hsingle : a.page.header.totalPages = 1
  · have hlength : [(a.page.header.page, a.page)].length = a.page.header.totalPages.toNat := by
      rw [hsingle]
      rfl
    rw [if_pos hsingle, if_pos hlength]
    constructor
    · have hmem : new ∈ h.cbMsgList ++ [new] := by simp
      have hfind : CbHandler.findCbMessage
          { h.noted location a.page with cbMsgList := h.cbMsgList ++ [new] } a.page =
            some new := by
        unfold CbHandler.findCbMessage
        rw [filter_same hdistinct hmem (CbHeader.same_of_broadcast_eq (by rw [hheader]))]
        rfl
      simp only [CbHandler.sendCbMessageBroadcast, hfind, hpages]
    · have hplace := hkeeps.2.2 (.inl hsingle)
      have hmatch : ∀ info ∈ h.cbMsgList ++ [new], info.header.same a.page.header = false →
          info.matchLocation (h.noted location a.page).plmn (h.noted location a.page).lac
            (h.noted location a.page).cid = true := by
        intro info hinfo hne
        cases List.mem_append.1 hinfo with
        | inl hold => exact hplace info hold hne
        | inr hnew =>
            rw [List.mem_singleton.1 hnew, hheader,
              CbHeader.same_of_broadcast_eq (rfl : a.page.header.broadcast = _)] at hne
            cases hne
      refine tracks_completed htracks hupdate (fun info => ?_)
        (distinct_removeCbMessageFromList hdistinct)
      rw [mem_removeCbMessageFromList hmatch, List.mem_append, List.mem_singleton]
      constructor
      · rintro ⟨hold | rfl, hne⟩
        · exact ⟨hold, hne⟩
        · rw [hheader, CbHeader.same_of_broadcast_eq
            (rfl : a.page.header.broadcast = _)] at hne
          cases hne
      · exact fun hold => ⟨.inl hold.1, hold.2⟩
  · have hlength : [(a.page.header.page, a.page)].length ≠ a.page.header.totalPages.toNat := by
      intro heq
      exact hsingle (UInt8.toNat_inj.1 heq.symm)
    rw [if_neg hsingle, if_neg hlength]
    refine ⟨rfl, tracks_extended htracks hupdate (fun info => ?_) hdistinct ?_ ?_ hholds⟩
    · rw [List.mem_append, List.mem_singleton, or_comm]
      exact or_congr_right ⟨fun hold => ⟨hold, hnone info hold⟩, fun hold => hold.1⟩
    · rw [hheader]
    · refine ⟨horder, ?_, by simp [hpages], ?_, a, ha, by rw [hheader]⟩
      · rw [hheader, ← htotal]
        exact hnumbered
      · rw [hheader, ← htotal, hpages]
        have hlt : 1 ≤ a.page.header.totalPages.toNat := Nat.le_trans hone hle
        have hne : a.page.header.totalPages.toNat ≠ 1 := fun heq => hlength heq.symm
        simp only [List.length_singleton]
        omega

/-- Where there is an entry for the broadcast of the page. -/
theorem tracks_handle_found (htracks : Tracks total arrivals h c)
    (hnum : WellNumbered total a.page.header) (hkeeps : KeepsApart location h a)
    (hclear : h.clearExpiredMessage a.now = h) {info : SmsCbInfo} (hinfo : info ∈ h.cbMsgList)
    (hsame : info.header.same a.page.header = true) :
    (h.handleCbMessage location a).2 = (c.collect a).2 ∧
      Tracks total arrivals (h.handleCbMessage location a).1 (c.collect a).1 := by
  obtain ⟨htotal, hone, hle⟩ := hnum
  rw [UInt8.le_iff_toNat_le] at hone hle
  have hupdate : ∀ info ∈ h.cbMsgList, info.header.same a.page.header = true →
      info.header.broadcast = a.page.header.broadcast := fun info hinfo hsame =>
    CbHeader.broadcast_eq_of_same hsame (hkeeps.1 info hinfo hsame)
  have hbroadcast := hupdate info hinfo hsame
  have hwaiting := htracks.waiting info hinfo
  have hholds := htracks.holds info hinfo
  have hfewer := hwaiting.fewer
  have hnumbered := hwaiting.numbered
  rw [hbroadcast, ← htotal] at hfewer hnumbered
  rw [hbroadcast] at hholds
  have hmany : a.page.header.totalPages ≠ 1 := by
    intro hsingle
    have hpos := List.length_pos_iff.2 hwaiting.started
    rw [hsingle] at hfewer
    have : info.cbMsgs.length < 1 := hfewer
    omega
  have hcheck := checkCbMessage_found location htracks.distinct hinfo hsame
    (hkeeps.1 info hinfo hsame) hmany
  unfold CbHandler.handleCbMessage
  simp only [hclear]
  by_cases hthere : info.cbMsgs.any (·.1 = a.page.header.page) = true
  · -- The page is there already.
    obtain ⟨entry, hentry, hpage⟩ := List.any_eq_true.1 hthere
    have hsome : (c a.page.header.broadcast a.page.header.page).isSome = true := by
      rw [hholds.isSome_iff, List.mem_map]
      exact ⟨entry, hentry, by simpa using hpage⟩
    rw [if_pos hthere] at hcheck
    simp only [hcheck, if_neg hmany, Collected.collect, if_pos hsome]
    exact ⟨trivial, htracks⟩
  · have hnew : ∀ entry ∈ info.cbMsgs, entry.1 ≠ a.page.header.page := by
      intro entry hentry hpage
      exact hthere (List.any_eq_true.2 ⟨entry, hentry, by simpa using hpage⟩)
    have hunseen : c a.page.header.broadcast a.page.header.page = none := by
      rw [← Option.not_isSome_iff_eq_none, hholds.isSome_iff, List.mem_map]
      rintro ⟨entry, hentry, hpage⟩
      exact hnew entry hentry hpage
    rw [if_neg hthere] at hcheck
    generalize hgrown : insertPage a.page.header.page a.page info.cbMsgs = cbMsgs at hcheck
    have hlength : cbMsgs.length = info.cbMsgs.length + 1 := by
      rw [← hgrown, length_insertPage hnew]
    have horder : InOrder cbMsgs := by
      rw [← hgrown]
      exact inOrder_insertPage hwaiting.order hnew
    have hmore : Numbered a.page.header.totalPages cbMsgs := by
      intro entry hentry
      rw [← hgrown, mem_insertPage hnew] at hentry
      cases hentry with
      | inl heq => rw [heq]; exact ⟨hone, hle⟩
      | inr hold => exact hnumbered entry hold
    have hgot : Holds cbMsgs (Function.update (c a.page.header.broadcast)
        a.page.header.page (some a.page.raw)) := by
      rw [← hgrown]
      exact hholds.insertPage hnew
    have hmem : ∀ other, other ∈ CbHandler.setFirst { info with cbMsgs := cbMsgs } h.cbMsgList ↔
        other = { info with cbMsgs := cbMsgs } ∨
          other ∈ h.cbMsgList ∧ other.header.same a.page.header = false := by
      intro other
      rw [← same_congr other.header hsame]
      exact mem_setFirst htracks.distinct hinfo rfl
    have hdistinct : DistinctHeaders
        (CbHandler.setFirst { info with cbMsgs := cbMsgs } h.cbMsgList) :=
      apart_setFirst htracks.distinct hinfo rfl
    rw [collect_new hunseen hgot horder hmore]
    simp only [hcheck]
    have hcount : a.page.header.totalPages = UInt8.ofNat cbMsgs.length ↔
        cbMsgs.length = a.page.header.totalPages.toNat := by
      have hlt := a.page.header.totalPages.toNat_lt
      rw [← UInt8.toNat_inj, UInt8.toNat_ofNat_of_lt' (show cbMsgs.length < 2 ^ 8 by omega),
        eq_comm]
    by_cases hlast : cbMsgs.length = a.page.header.totalPages.toNat
    · rw [if_pos (hcount.2 hlast), if_pos hlast]
      have hgrownMem := (hmem { info with cbMsgs := cbMsgs }).2 (.inl rfl)
      have hnoted : h.noted location a.page = h := by
        unfold CbHandler.noted
        rw [if_pos (List.any_eq_true.2 ⟨info, hinfo, hsame⟩)]
      have hplace := hkeeps.2.2 (.inr ⟨info, hinfo, hsame, by omega, hnew⟩)
      rw [hnoted] at hplace
      constructor
      · simp only [CbHandler.sendCbMessageBroadcast, CbHandler.findCbMessage,
          filter_same hdistinct hgrownMem hsame, List.getLast?_singleton]
      · refine tracks_completed htracks hupdate (fun other => ?_)
          (distinct_removeCbMessageFromList hdistinct)
        have hmatch : ∀ other ∈ CbHandler.setFirst { info with cbMsgs := cbMsgs } h.cbMsgList,
            other.header.same a.page.header = false →
              other.matchLocation h.plmn h.lac h.cid = true := by
          intro other hother hne
          cases (hmem other).1 hother with
          | inl heq =>
              rw [heq, hsame] at hne
              cases hne
          | inr hold => exact hplace other hold.1 hne
        rw [mem_removeCbMessageFromList hmatch]
        constructor
        · rintro ⟨hother, hne⟩
          cases (hmem other).1 hother with
          | inl heq =>
              rw [heq, hsame] at hne
              cases hne
          | inr hold => exact hold
        · exact fun hold => ⟨(hmem other).2 (.inr hold), hold.2⟩
    · rw [if_neg fun heq => hlast (hcount.1 heq), if_neg hlast]
      refine ⟨rfl, tracks_extended htracks hupdate hmem hdistinct hbroadcast ?_ hgot⟩
      refine ⟨horder, ?_, ?_, ?_, hwaiting.time⟩
      · rw [hbroadcast, ← htotal]
        exact hmore
      · exact List.ne_nil_of_length_pos (show 0 < cbMsgs.length by omega)
      · rw [hbroadcast, ← htotal]
        dsimp only
        omega

/-- Where the handler keeps broadcasts apart it does what collecting pages does. -/
theorem tracks_handleCbMessage (htracks : Tracks total arrivals h c) (ha : a ∈ arrivals)
    (hnum : WellNumbered total a.page.header) (hwithin : WithinExpiry arrivals)
    (hkeeps : KeepsApart location h a) :
    (h.handleCbMessage location a).2 = (c.collect a).2 ∧
      Tracks total arrivals (h.handleCbMessage location a).1 (c.collect a).1 := by
  have hclear : h.clearExpiredMessage a.now = h := by
    refine clearExpiredMessage_eq fun info hinfo => ?_
    obtain ⟨b, hb, htime⟩ := (htracks.waiting info hinfo).time
    rw [htime]
    exact hwithin a ha b hb
  by_cases hexists : ∃ info ∈ h.cbMsgList, info.header.same a.page.header = true
  · obtain ⟨info, hinfo, hsame⟩ := hexists
    exact tracks_handle_found htracks hnum hkeeps hclear hinfo hsame
  · have hnone : ∀ info ∈ h.cbMsgList, info.header.same a.page.header = false := by
      intro info hinfo
      cases hsame : info.header.same a.page.header with
      | true => exact absurd ⟨info, hinfo, hsame⟩ hexists
      | false => rfl
    exact tracks_handle_new htracks ha hnum hkeeps hclear hnone
      (hkeeps.2.1.resolve_left hexists)

end Handle

end Step

/-! ## Runs -/

/-- In a run that keeps broadcasts apart, what is published after any number of pages is
what collecting these pages completes. -/
theorem published_eq_collected (total : BroadcastId → UInt8) (location : Location)
    (arrivals : List CbArrival) (hnum : ∀ a ∈ arrivals, WellNumbered total a.page.header)
    (hwithin : WithinExpiry arrivals)
    (hkeeps : Guarded (next (CbHandler.handleCbMessage location)) (KeepsApart location) .init
      arrivals) :
    outputs (CbHandler.handleCbMessage location) .init arrivals =
      outputs Collected.collect .init arrivals := by
  have hrun : ∀ (rest : List CbArrival) (h : CbHandler) (c : Collected),
      (∀ a ∈ rest, a ∈ arrivals) → Tracks total arrivals h c →
      Guarded (next (CbHandler.handleCbMessage location)) (KeepsApart location) h rest →
        outputs (CbHandler.handleCbMessage location) h rest =
          outputs Collected.collect c rest := by
    intro rest
    induction rest with
    | nil => exact fun _ _ _ _ _ => rfl
    | cons a rest ih =>
        intro h c hsub htracks hguard
        have ha := hsub a (by simp)
        obtain ⟨houtput, hnext⟩ :=
          tracks_handleCbMessage htracks ha (hnum a ha) hwithin hguard.1
        rw [outputs, outputs, houtput,
          ih _ _ (fun b hb => hsub b (by simp [hb])) hnext hguard.2]
  exact hrun arrivals .init .init (fun _ ha => ha) (.init total arrivals) hkeeps

section Fixed

/-- A page of message 4370, handled when it is received. -/
def alertPage (updateNum page totalPages : UInt8) (raw : List UInt8) : CbArrival :=
  ⟨⟨⟨⟨1, 7, 4370, updateNum⟩, page, totalPages, 0⟩, raw⟩, 0⟩

/-- Two pages, the second one first. -/
theorem published_two_pages :
    outputs (CbHandler.handleCbMessage ⟨['4', '6'], some (1, 2)⟩) .init
        [alertPage 0 2 2 [66], alertPage 0 1 2 [65]] =
      outputs Collected.collect .init [alertPage 0 2 2 [66], alertPage 0 1 2 [65]] := by
  refine published_eq_collected (fun _ => 2) ⟨['4', '6'], some (1, 2)⟩ _ ?_ ?_ ⟨?_, ?_, trivial⟩
  · simp [WellNumbered, alertPage]
  · simp [WithinExpiry, alertPage, defaultExpiredTime]
  · unfold KeepsApart CbHandler.Completes
    decide
  · unfold KeepsApart CbHandler.Completes
    decide

/-- While the first of two pages waits, a newer update in one page arrives: what is
published for it is the page of the old one. -/
theorem published_old_page :
    ¬ ∀ (total : BroadcastId → UInt8) (location : Location) (arrivals : List CbArrival),
      (∀ a ∈ arrivals, WellNumbered total a.page.header) → WithinExpiry arrivals →
        outputs (CbHandler.handleCbMessage location) .init arrivals =
          outputs Collected.collect .init arrivals := by
  intro h
  have hsame := h (fun broadcast => if broadcast.updateNum = 0 then 2 else 1)
    ⟨['4', '6'], some (1, 2)⟩ [alertPage 0 1 2 [65], alertPage 1 1 1 [66]]
    (by simp [WellNumbered, alertPage]) (by simp [WithinExpiry, alertPage, defaultExpiredTime])
  have hcode : outputs (CbHandler.handleCbMessage ⟨['4', '6'], some (1, 2)⟩) .init
      [alertPage 0 1 2 [65], alertPage 1 1 1 [66]] = [⟨⟨1, 7, 4370, 1⟩, [65]⟩] := by
    decide
  have hspec : outputs Collected.collect .init
      [alertPage 0 1 2 [65], alertPage 1 1 1 [66]] = [⟨⟨1, 7, 4370, 1⟩, [66]⟩] := by
    decide
  rw [hcode, hspec] at hsame
  exact absurd hsame (by decide)

end Fixed

end TelephonySms.Broadcast
