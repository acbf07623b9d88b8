import TelephonySms.Broadcast.Assembly

/-! # Expired broadcasts

The list of the handler is in the order of the receive times, so the entries that have expired
come first. `ClearExpiredMessage` looks for the last of them from the end of the list on, but
not at the first entry.
-/

namespace TelephonySms.Broadcast

open TelephonySms.Machine

/-- The test of `ClearExpiredMessage` on one entry. -/
def SmsCbInfo.expired (info : SmsCbInfo) (now : Int) : Bool :=
  now - info.header.recvTime > defaultExpiredTime

/-- In the order of the receive times. -/
def InReceiveOrder (cbMsgList : List SmsCbInfo) : Prop :=
  cbMsgList.Pairwise fun info other => info.header.recvTime ≤ other.header.recvTime

/-! ## One list -/

section List

variable {cbMsgList : List SmsCbInfo} {info : SmsCbInfo} {now : Int}

theorem expired_of_le {other : SmsCbInfo} (hle : info.header.recvTime ≤ other.header.recvTime)
    (hexpired : other.expired now = true) : info.expired now = true := by
  simp only [SmsCbInfo.expired, decide_eq_true_eq] at hexpired ⊢
  omega

/-- All up to an expired entry are expired. -/
theorem expired_of_getElem (horder : InReceiveOrder cbMsgList) {i : Nat}
    (hi : cbMsgList[i]?.any (·.expired now) = true) {j : Nat} (hj : j ≤ i) :
    cbMsgList[j]?.any (·.expired now) = true := by
  rcases Option.any_eq_true_iff_get _ _ |>.1 hi with ⟨hsome, hexpired⟩
  have hlt : i < cbMsgList.length := by simpa using hsome
  rw [List.getElem?_eq_getElem (by omega)]
  rcases Nat.lt_or_eq_of_le hj with hlt' | rfl
  · have hle := List.pairwise_iff_getElem.1 horder j i (by omega) hlt hlt'
    exact expired_of_le hle (by simpa [List.getElem?_eq_getElem hlt] using hexpired)
  · simpa [List.getElem?_eq_getElem hlt] using hexpired

/-- The entries that are not expired, when the last expired one is known. -/
theorem filter_expired_eq_drop (horder : InReceiveOrder cbMsgList) {i : Nat}
    (hlast : cbMsgList[i]?.any (·.expired now) = true)
    (hrest : ∀ j, i < j → cbMsgList[j]?.any (·.expired now) = false) :
    cbMsgList.filter (fun info => !info.expired now) = cbMsgList.drop (i + 1) := by
  have hfront : (cbMsgList.take (i + 1)).filter (fun info => !info.expired now) = [] := by
    rw [List.filter_eq_nil_iff]
    intro info hinfo
    rcases List.mem_take_iff_getElem.1 hinfo with ⟨j, hj, rfl⟩
    have hexpired := expired_of_getElem horder hlast (show j ≤ i by omega)
    rw [List.getElem?_eq_getElem (by omega)] at hexpired
    simpa using hexpired
  have hback : (cbMsgList.drop (i + 1)).filter (fun info => !info.expired now) =
      cbMsgList.drop (i + 1) := by
    rw [List.filter_eq_self]
    intro info hinfo
    rcases List.mem_drop_iff_getElem.1 hinfo with ⟨j, hj, rfl⟩
    have hfresh := hrest (i + 1 + j) (by omega)
    rw [List.getElem?_eq_getElem (by omega)] at hfresh
    simpa using hfresh
  calc cbMsgList.filter (fun info => !info.expired now)
      = (cbMsgList.take (i + 1) ++ cbMsgList.drop (i + 1)).filter
          fun info => !info.expired now := by
        rw [List.take_append_drop]
    _ = cbMsgList.drop (i + 1) := by rw [List.filter_append, hfront, hback, List.nil_append]

end List

namespace CbHandler

/-- The last entry that has expired, but for the first one. -/
def lastExpired (h : CbHandler) (now : Int) : Option Nat :=
  (List.range h.cbMsgList.length).reverse.find? fun i =>
    0 < i && h.cbMsgList[i]?.any (·.expired now)

theorem clearExpiredMessage_eq (h : CbHandler) (now : Int) :
    h.clearExpiredMessage now =
      (h.lastExpired now).elim h fun i => { h with cbMsgList := h.cbMsgList.drop (i + 1) } := by
  unfold clearExpiredMessage
  split
  · next hnone =>
      have hlast : h.lastExpired now = none := hnone
      rw [hlast]
      rfl
  · next i hsome =>
      have hlast : h.lastExpired now = some i := hsome
      rw [hlast]
      rfl

/-- The last expired entry goes with all before it, unless it is the first one. -/
theorem clearExpiredMessage_cases (h : CbHandler) (now : Int) :
    (∃ i, 0 < i ∧ h.cbMsgList[i]?.any (·.expired now) = true ∧
        (∀ j, i < j → h.cbMsgList[j]?.any (·.expired now) = false) ∧
          h.clearExpiredMessage now = { h with cbMsgList := h.cbMsgList.drop (i + 1) }) ∨
      ((∀ j, 0 < j → h.cbMsgList[j]?.any (·.expired now) = false) ∧
        h.clearExpiredMessage now = h) := by
  have hbeyond : ∀ j, h.cbMsgList.length ≤ j →
      h.cbMsgList[j]?.any (·.expired now) = false := by
    intro j hj
    rw [List.getElem?_eq_none hj]
    rfl
  have hlook := h.clearExpiredMessage_eq now
  cases hfind : h.lastExpired now with
  | none =>
      right
      rw [hlook, hfind]
      refine ⟨fun j hj => ?_, rfl⟩
      rcases Nat.lt_or_ge j h.cbMsgList.length with hlt | hge
      · have hnone := List.find?_eq_none.1 hfind j (by simpa using hlt)
        simpa [hj] using hnone
      · exact hbeyond j hge
  | some i =>
      left
      rcases List.find?_eq_some_iff_append.1 hfind with ⟨hi, before, after, hrange, hnone⟩
      simp only [Bool.and_eq_true, decide_eq_true_eq] at hi
      refine ⟨i, hi.1, hi.2, fun j hj => ?_, by rw [hlook, hfind]; rfl⟩
      rcases Nat.lt_or_ge j h.cbMsgList.length with hlt | hge
      · have hmem : j ∈ before := by
          have hin : j ∈ before ++ i :: after := by
            rw [← hrange]
            simpa using hlt
          have hdesc : (before ++ i :: after).Pairwise (· > ·) := by
            rw [← hrange, List.pairwise_reverse]
            exact List.pairwise_lt_range
          rcases List.mem_append.1 hin with hbefore | hafter
          · exact hbefore
          · rcases List.mem_cons.1 hafter with rfl | hafter
            · omega
            · have := (List.pairwise_cons.1 (List.pairwise_append.1 hdesc).2.1).1 j hafter
              omega
        have hfalse := hnone j hmem
        simpa [show 0 < j by omega] using hfalse
      · exact hbeyond j hge

/-! ## The order of the list -/

/-- The entries are in order, and none is newer than `time`. -/
structure InOrderUpTo (h : CbHandler) (time : Int) : Prop where
  order : InReceiveOrder h.cbMsgList
  upTo : ∀ info ∈ h.cbMsgList, info.header.recvTime ≤ time

theorem InOrderUpTo.sublist {h : CbHandler} {time : Int} (hin : h.InOrderUpTo time)
    {h' : CbHandler} (hsub : h'.cbMsgList.Sublist h.cbMsgList) : h'.InOrderUpTo time where
  order := List.Pairwise.sublist hsub hin.order
  upTo info hinfo := hin.upTo info (hsub.subset hinfo)

theorem clearExpiredMessage_sublist (h : CbHandler) (now : Int) :
    (h.clearExpiredMessage now).cbMsgList.Sublist h.cbMsgList := by
  rcases h.clearExpiredMessage_cases now with ⟨i, _, _, _, hclear⟩ | ⟨_, hclear⟩
  · rw [hclear]
    exact List.drop_sublist _ _
  · rw [hclear]

/-- A new entry has the receive time of its page. -/
theorem InOrderUpTo.addCbMessageToList {h : CbHandler} {m : CbPage}
    (hin : h.InOrderUpTo m.header.recvTime) (location : Location) :
    (h.addCbMessageToList location m).InOrderUpTo m.header.recvTime := by
  unfold CbHandler.addCbMessageToList
  cases h.findCbMessage m with
  | some _ => exact hin
  | none =>
      have hinit : (h.initLocation location ⟨m.header, insertPage m.header.page m [], [], -1, -1⟩
          ).1.cbMsgList = h.cbMsgList ∧ (h.initLocation location
          ⟨m.header, insertPage m.header.page m [], [], -1, -1⟩).2.header = m.header := by
        unfold CbHandler.initLocation
        cases location.gsm <;> exact ⟨rfl, rfl⟩
      generalize h.initLocation location ⟨m.header, insertPage m.header.page m [], [], -1, -1⟩ =
        noted at hinit
      rcases noted with ⟨noted, info⟩
      rcases hinit with ⟨hlist, hheader⟩
      simp only at hlist hheader ⊢
      have hkept : (if noted.cbMsgList.length > maxCbMsgListSize then
          noted.cbMsgList.drop (noted.cbMsgList.length / 2) else noted.cbMsgList).Sublist
            h.cbMsgList := by
        rw [← hlist]
        split
        · exact List.drop_sublist _ _
        · exact List.Sublist.refl _
      constructor
      · apply List.pairwise_append.2
        refine ⟨hin.order.sublist hkept, List.pairwise_singleton _ _, ?_⟩
        intro other hother new hnew
        rw [List.mem_singleton.1 hnew, hheader]
        exact hin.upTo other (hkept.subset hother)
      · intro other hother
        rcases List.mem_append.1 hother with hother | hother
        · exact hin.upTo other (hkept.subset hother)
        · rw [List.mem_singleton.1 hother, hheader]

/-- More pages leave the header of an entry alone. -/
theorem map_header_setFirst {info : SmsCbInfo} {header : CbHeader} {cbMsgList : List SmsCbInfo}
    (hfind : cbMsgList.find? (fun e => e.header.same header) = some info)
    (cbMsgs : List (UInt8 × CbPage)) :
    (setFirst { info with cbMsgs := cbMsgs } cbMsgList).map (·.header) =
      cbMsgList.map (·.header) := by
  have hsame : info.header.same header = true := by
    simpa using List.find?_some hfind
  induction cbMsgList with
  | nil => rfl
  | cons first cbMsgList ih =>
      have hiff : first.header.same info.header = first.header.same header := by
        rw [Bool.eq_iff_iff]
        constructor
        · exact fun h => CbHeader.same_trans h hsame
        · exact fun h => CbHeader.same_trans h (by rwa [CbHeader.same_comm])
      rw [List.find?_cons] at hfind
      rw [setFirst]
      show List.map _ (if first.header.same info.header = true then _ else _) = _
      rw [hiff]
      cases hfirst : first.header.same header with
      | true =>
          rw [hfirst] at hfind
          obtain rfl : first = info := Option.some.inj hfind
          simp
      | false =>
          rw [hfirst] at hfind
          simpa using ih hfind

theorem InOrderUpTo.of_map_header {h h' : CbHandler} {time : Int} (hin : h.InOrderUpTo time)
    (hheaders : h'.cbMsgList.map (·.header) = h.cbMsgList.map (·.header)) :
    h'.InOrderUpTo time := by
  constructor
  · have horder : (h.cbMsgList.map (·.header)).Pairwise fun a b => a.recvTime ≤ b.recvTime :=
      List.pairwise_map.2 hin.order
    rwa [← hheaders, List.pairwise_map] at horder
  · have hupTo : ∀ header ∈ h.cbMsgList.map (·.header), header.recvTime ≤ time := by
      simpa using hin.upTo
    rw [← hheaders] at hupTo
    simpa using hupTo

theorem InOrderUpTo.checkCbMessage {h : CbHandler} {m : CbPage}
    (hin : h.InOrderUpTo m.header.recvTime) (location : Location) :
    (h.checkCbMessage location m).1.InOrderUpTo m.header.recvTime := by
  unfold CbHandler.checkCbMessage
  cases hfind : h.cbMsgList.find? fun info => info.header.same m.header with
  | none => exact hin.addCbMessageToList location
  | some info =>
      simp only
      by_cases hupdate : info.header.broadcast.updateNum ≠ m.header.broadcast.updateNum
      · rw [if_pos hupdate]
        exact hin.addCbMessageToList location
      rw [if_neg hupdate]
      by_cases hagain : info.cbMsgs.any (·.1 = m.header.page) = true
      · rw [if_pos hagain]
        exact hin
      rw [if_neg hagain]
      have hset : CbHandler.InOrderUpTo { h with
          cbMsgList := setFirst { info with cbMsgs := insertPage m.header.page m info.cbMsgs }
            h.cbMsgList } m.header.recvTime :=
        hin.of_map_header (map_header_setFirst hfind _)
      by_cases hone : m.header.totalPages = 1
      · rw [if_pos hone]
        exact hset.addCbMessageToList location
      · rw [if_neg hone]
        exact hset

theorem InOrderUpTo.handleCbMessage {h : CbHandler} {arrival : CbArrival} {time : Int}
    (hin : h.InOrderUpTo time) (hlater : time ≤ arrival.page.header.recvTime)
    (location : Location) :
    (h.handleCbMessage location arrival).1.InOrderUpTo arrival.page.header.recvTime := by
  have hnow : h.InOrderUpTo arrival.page.header.recvTime :=
    ⟨hin.order, fun info hinfo => Int.le_trans (hin.upTo info hinfo) hlater⟩
  have hcheck := (hnow.sublist (h.clearExpiredMessage_sublist arrival.now)).checkCbMessage location
  unfold CbHandler.handleCbMessage
  simp only
  split
  · exact hcheck.sublist List.filter_sublist
  · exact hcheck

/-- Pages that arrive in the order of their receive times leave the list in that order. -/
theorem inReceiveOrder_run (location : Location) (arrivals : List CbArrival)
    (hclock : arrivals.Pairwise fun a b => a.page.header.recvTime ≤ b.page.header.recvTime) :
    InReceiveOrder (arrivals.foldl (next (handleCbMessage location)) .init).cbMsgList := by
  have hrun : ∀ (rest : List CbArrival) (h : CbHandler) (time : Int), h.InOrderUpTo time →
      (∀ a ∈ rest, time ≤ a.page.header.recvTime) →
      (rest.Pairwise fun a b => a.page.header.recvTime ≤ b.page.header.recvTime) →
        InReceiveOrder (rest.foldl (next (handleCbMessage location)) h).cbMsgList := by
    intro rest
    induction rest with
    | nil => exact fun h time hin _ _ => hin.order
    | cons a rest ih =>
        intro h time hin hlater hpairwise
        rw [List.pairwise_cons] at hpairwise
        exact ih _ _ (hin.handleCbMessage (hlater a (by simp)) location)
          hpairwise.1 hpairwise.2
  cases arrivals with
  | nil => exact List.Pairwise.nil
  | cons a rest =>
      have hstart : CbHandler.init.InOrderUpTo a.page.header.recvTime :=
        ⟨List.Pairwise.nil, by simp [CbHandler.init]⟩
      refine hrun (a :: rest) .init a.page.header.recvTime hstart ?_ hclock
      intro b hb
      rcases List.mem_cons.1 hb with rfl | hb
      · exact Int.le_refl _
      · exact (List.pairwise_cons.1 hclock).1 b hb

/-! ## What is cleared -/

/-- The entries that have not expired are kept, in their order, and a later page meets no
other. -/
structure Clears (h : CbHandler) (now : Int) : Prop where
  kept : (h.clearExpiredMessage now).cbMsgList = h.cbMsgList.filter fun info => !info.expired now
  met (m : CbPage) : ∀ info ∈ (h.clearExpiredMessage now).cbMsgList,
    info.header.same m.header = true → info.expired now = false

theorem Clears.of_kept {h : CbHandler} {now : Int}
    (hkept : (h.clearExpiredMessage now).cbMsgList =
      h.cbMsgList.filter fun info => !info.expired now) : h.Clears now where
  kept := hkept
  met m info hinfo _ := by
    rw [hkept] at hinfo
    simpa using (List.mem_filter.1 hinfo).2

/-- An expired first entry goes only with the second one. -/
theorem clears_iff (h : CbHandler) (now : Int) (horder : InReceiveOrder h.cbMsgList) :
    h.Clears now ↔
      (h.cbMsgList[0]?.any (·.expired now) = true →
        h.cbMsgList[1]?.any (·.expired now) = true) := by
  rcases h.clearExpiredMessage_cases now with ⟨i, hpos, hi, hrest, hclear⟩ | ⟨hrest, hclear⟩
  · constructor
    · exact fun _ _ => expired_of_getElem horder hi hpos
    · intro _
      apply Clears.of_kept
      rw [hclear, filter_expired_eq_drop horder hi hrest]
  · rw [hrest 1 (by decide)]
    cases hfirst : h.cbMsgList[0]?.any (·.expired now) with
    | false =>
        have hall : ∀ info ∈ h.cbMsgList, info.expired now = false := by
          intro info hinfo
          rcases List.getElem_of_mem hinfo with ⟨j, hj, rfl⟩
          have hfresh : h.cbMsgList[j]?.any (·.expired now) = false := by
            rcases Nat.eq_zero_or_pos j with rfl | hpos
            · exact hfirst
            · exact hrest j hpos
          simpa [List.getElem?_eq_getElem hj] using hfresh
        simp only [Bool.false_eq_true, false_implies, iff_true]
        apply Clears.of_kept
        rw [hclear, eq_comm, List.filter_eq_self]
        intro info hinfo
        simp [hall info hinfo]
    | true =>
        simp only [true_implies, Bool.false_eq_true, iff_false]
        intro hclears
        rcases (Option.any_eq_true_iff_get _ _).1 hfirst with ⟨hsome, hexpired⟩
        have hlt : 0 < h.cbMsgList.length := by simpa using hsome
        have hmem : h.cbMsgList[0] ∈ (h.clearExpiredMessage now).cbMsgList := by
          rw [hclear]
          exact List.getElem_mem hlt
        have hfresh := hclears.met ⟨h.cbMsgList[0].header, []⟩ _ hmem (by simp [CbHeader.same])
        simp [List.getElem?_eq_getElem hlt, hfresh] at hexpired

/-- An entry that waits for the second of its pages. -/
def waitingSince (msgId : UInt16) (recvTime : Int) : SmsCbInfo :=
  ⟨⟨⟨1, 7, msgId, 0⟩, 1, 2, recvTime⟩, [(1, ⟨⟨⟨1, 7, msgId, 0⟩, 1, 2, recvTime⟩, [65]⟩)], [], -1,
    -1⟩

theorem clears_two : CbHandler.Clears ⟨[waitingSince 50 0, waitingSince 51 10], [], -1, -1⟩ 20000 :=
  (clears_iff ⟨[waitingSince 50 0, waitingSince 51 10], [], -1, -1⟩ 20000 (by
    unfold InReceiveOrder
    decide)).2 fun _ => rfl

/-- A single entry stays, however old it is. -/
theorem not_clears_single :
    InReceiveOrder [waitingSince 50 0] ∧
      ¬ CbHandler.Clears ⟨[waitingSince 50 0], [], -1, -1⟩ 20000 := by
  refine ⟨List.pairwise_singleton _ _, fun hclears => ?_⟩
  have hkept := hclears.kept
  exact absurd hkept (by decide)

end CbHandler

end TelephonySms.Broadcast
