import TelephonySms.Send.Counters

/-! # When the application hears of a text

Each cell of a text carries its own copy of the number of cells, and every
response counts all copies down. The callback is made by the cell that finds its
copy at zero.
-/

namespace TelephonySms.Send

open TelephonySms.Machine

/-! ## What the world holds of a message -/

def cachedOf (m : Nat) (w : SendWorld) : List SmsSendIndexer :=
  (w.sendCacheMap.map (·.2)).filter (·.message = m)

def retriesOf (m : Nat) (w : SendWorld) : List SmsSendIndexer :=
  (w.retries.map (·.2)).filter (·.message = m)

def loopsOf (m : Nat) (w : SendWorld) : List SplitLoop :=
  w.splits.filter (·.message = m)

/-- The cached cells of a message other than the one under `flag`. -/
def othersOf (m flag : Nat) (w : SendWorld) : List SmsSendIndexer :=
  ((w.sendCacheMap.filter (·.1 ≠ flag)).map (·.2)).filter (·.message = m)

def outcomesOf (m : Nat) (outs : List SendEffect) : List Bool :=
  outs.filterMap fun
    | .outcome message sent => if message = m then some sent else none
    | _ => none

def callbacksOf (m : Nat) (outs : List SendEffect) : List SmsSendResult :=
  outs.filterMap fun
    | .callback message result => if message = m then some result else none
    | _ => none

/-- No loop, cached cell or retry of the message is left. -/
def Settled (m : Nat) (w : SendWorld) : Prop :=
  loopsOf m w = [] ∧ cachedOf m w = [] ∧ retriesOf m w = []

/-- What the callback is to report once all cells are through. -/
def verdict (outcomes : List Bool) : SmsSendResult :=
  if outcomes.all (·) then .success else .failureUnknown

section Outputs

variable (m : Nat) (outs outs' : List SendEffect)

theorem outcomesOf_append :
    outcomesOf m (outs ++ outs') = outcomesOf m outs ++ outcomesOf m outs' :=
  List.filterMap_append

theorem callbacksOf_append :
    callbacksOf m (outs ++ outs') = callbacksOf m outs ++ callbacksOf m outs' :=
  List.filterMap_append

end Outputs

/-! ## The condition on a step -/

/-- The response makes `HandleResend` schedule another attempt. -/
def ResentBy (p : Platform) (w : SendWorld) (sender : SenderId) (flag : Nat)
    (res : RilResponse) (i : SmsSendIndexer) : Prop :=
  (SendWorld.setResponse flag i res).isFailure = true ∧
    w.resends p sender (SendWorld.setResponse flag i res) = true

def NetWorkType.senderKind : NetWorkType → Option SenderKind
  | .gsm => some .gsm
  | .cdma => some .cdma
  | .unknown => none

/-- What a response to the cell `i` must find of message `m`. -/
structure OrderlyResponse (p : Platform) (m : Nat) (w : SendWorld) (sender : SenderId)
    (flag : Nat) (res : RilResponse) (now : Int) (i : SmsSendIndexer) : Prop where
  /-- No other cell of the message times out. -/
  inTime : ∀ e ∈ w.sendCacheMap, e.1 ≠ flag → e.2.message = m →
    SendWorld.isExpired now e.2 = false
  /-- A cell of the message is answered after the split loop is done. -/
  splitDone : i.message = m → ∀ l ∈ w.splits, l.message ≠ m
  /-- Only the last cell without an outcome is sent again. -/
  lastResent : i.message = m → ResentBy p w sender flag res i →
    (∀ e ∈ w.sendCacheMap, e.1 ≠ flag → e.2.message ≠ m) ∧ ∀ e ∈ w.retries, e.2.message ≠ m
  /-- Another message answered now does not share the reference. -/
  ownReference : i.message ≠ m → ∀ e ∈ w.sendCacheMap, e.2.message = m →
    e.2.msgRefId = i.msgRefId → e.2.unSentCellCount = 0

def Orderly (p : Platform) (m : Nat) (w : SendWorld) : SendEvent → Prop
  | .splitStep message env => message = m → ∀ l ∈ w.splits, l.message = m →
      (∀ cell ∈ l.cells.head?, SendWorld.cellStep l.kind cell = .send) ∧
        w.notInService p l.sender env = false
  | .response sender flag res now => ∀ i, w.cached flag = some i →
      OrderlyResponse p m w sender flag res now i
  | .retry index net reencoded env => ∀ sender i, w.retries[index]? = some (sender, i) →
      i.message = m → (i.netWorkType = net ∨ reencoded = .encoded) ∧
        ∃ kind, net.senderKind = some kind ∧ w.notInService p ⟨sender.slotId, kind⟩ env = false
  | _ => True

/-! ## The invariant -/

/-- A text of `n` cells under way. While the loop runs every copy of the count is
`n`; then the copies are the number of cells left, or the last cell is being sent
again with a count of zero. -/
structure Delivering (m : Nat) (flag : CellFlag) (ref n : Nat) (outs : List SendEffect)
    (w : SendWorld) : Prop where
  wf : WellFormed w
  started : m < w.nextMessage
  flagMessage : flag.message = m
  cells : ∀ i ∈ cachedOf m w ++ retriesOf m w,
    i.msgRefId = ref ∧ i.hasCellFailed = flag ∧ i.isText = true
  loop : loopsOf m w = [] ∨ ∃ sender cells, cells ≠ [] ∧
    loopsOf m w = [⟨sender, .gsmText, m, ref, n, some flag, cells⟩]
  total : (cachedOf m w).length + (retriesOf m w).length +
    ((loopsOf m w).flatMap (·.cells)).length + (outcomesOf m outs).length = n
  splitting : loopsOf m w ≠ [] → retriesOf m w = [] ∧ outcomesOf m outs = [] ∧
    ∀ i ∈ cachedOf m w, i.unSentCellCount = n
  counting : loopsOf m w = [] →
    (retriesOf m w = [] ∧ ∀ i ∈ cachedOf m w, i.unSentCellCount = (cachedOf m w).length) ∨
      ((cachedOf m w).length + (retriesOf m w).length = 1 ∧
        ∀ i ∈ cachedOf m w ++ retriesOf m w, i.unSentCellCount = 0)
  failed : w.cellFailed flag = (outcomesOf m outs).any (!·)
  callbacks : callbacksOf m outs =
    if (outcomesOf m outs).length = n then [verdict (outcomesOf m outs)] else []

/-! ## Steps of other messages -/

/-- The step left alone what the world holds of the message and said nothing of it. -/
structure Untouched (m : Nat) (w w' : SendWorld) (out : List SendEffect) : Prop where
  cached : cachedOf m w' = cachedOf m w
  retries : retriesOf m w' = retriesOf m w
  loops : loopsOf m w' = loopsOf m w
  flags : ∀ f, f.message = m → w'.cellFailed f = w.cellFailed f
  nextMessage : w.nextMessage ≤ w'.nextMessage
  outcomes : outcomesOf m out = []
  callbacks : callbacksOf m out = []

theorem Delivering.frame {m ref n : Nat} {flag : CellFlag} {outs out : List SendEffect}
    {w w' : SendWorld} (h : Delivering m flag ref n outs w) (hwf : WellFormed w')
    (hu : Untouched m w w' out) : Delivering m flag ref n (outs ++ out) w' := by
  have hout : outcomesOf m (outs ++ out) = outcomesOf m outs := by
    rw [outcomesOf_append, hu.outcomes, List.append_nil]
  constructor
  · exact hwf
  · exact Nat.lt_of_lt_of_le h.started hu.nextMessage
  · exact h.flagMessage
  · rw [hu.cached, hu.retries]
    exact h.cells
  · rw [hu.loops]
    exact h.loop
  · rw [hu.cached, hu.retries, hu.loops, hout]
    exact h.total
  · rw [hu.loops, hu.retries, hu.cached, hout]
    exact h.splitting
  · rw [hu.loops, hu.retries, hu.cached]
    exact h.counting
  · rw [hu.flags flag h.flagMessage, hout]
    exact h.failed
  · rw [hout, callbacksOf_append, hu.callbacks, List.append_nil]
    exact h.callbacks

namespace Untouched

variable {m : Nat} {w w' w'' : SendWorld} {out out' : List SendEffect}

theorem trans (h : Untouched m w w' out) (h' : Untouched m w' w'' out') :
    Untouched m w w'' (out ++ out') where
  cached := h'.cached.trans h.cached
  retries := h'.retries.trans h.retries
  loops := h'.loops.trans h.loops
  flags f hf := (h'.flags f hf).trans (h.flags f hf)
  nextMessage := Nat.le_trans h.nextMessage h'.nextMessage
  outcomes := by rw [outcomesOf_append, h.outcomes, h'.outcomes, List.append_nil]
  callbacks := by rw [callbacksOf_append, h.callbacks, h'.callbacks, List.append_nil]

theorem refl (m : Nat) (w : SendWorld) : Untouched m w w [] :=
  ⟨rfl, rfl, rfl, fun _ _ => rfl, Nat.le_refl _, rfl, rfl⟩

theorem callback (w : SendWorld) {message : Nat} (h : message ≠ m) (result : SmsSendResult) :
    Untouched m w w [.callback message result] :=
  ⟨rfl, rfl, rfl, fun _ _ => rfl, Nat.le_refl _, rfl, by simp [callbacksOf, h]⟩

theorem updateSender (m : Nat) (w : SendWorld) (sender : SenderId) (f : SmsSender → SmsSender) :
    Untouched m w (w.updateSender sender f) [] :=
  ⟨rfl, rfl, rfl, fun _ _ => rfl, Nat.le_refl _, rfl, rfl⟩

theorem newCellFlag (w : SendWorld) {message : Nat} (h : message ≠ m) :
    Untouched m w (w.newCellFlag message).1 [] := by
  refine ⟨rfl, rfl, rfl, ?_, Nat.le_refl _, rfl, rfl⟩
  intro f hf
  apply Function.update_of_ne
  rintro rfl
  exact h hf

theorem refuse (w : SendWorld) (h : m < w.nextMessage) :
    Untouched m w w.refuse.1 w.refuse.2 :=
  ⟨rfl, rfl, rfl, fun _ _ => rfl, Nat.le_succ _, rfl, by
    simp [SendWorld.refuse, callbacksOf, Nat.ne_of_gt h]⟩

theorem startSplit (w : SendWorld) (h : m < w.nextMessage) (sender : SenderId)
    (kind : SplitKind) (ref : Nat) (flag : Option CellFlag) (cells : List Cell) :
    Untouched m w (w.startSplit sender kind ref flag cells).1
      (w.startSplit sender kind ref flag cells).2 := by
  refine ⟨rfl, rfl, ?_, fun _ _ => rfl, Nat.le_succ _, rfl, rfl⟩
  simp only [loopsOf, SendWorld.startSplit]
  split
  · rfl
  · simp [List.filter_append, Nat.ne_of_gt h]

theorem setCells (w : SendWorld) {message : Nat} (h : message ≠ m) (cells : List Cell) :
    Untouched m w (w.setCells message cells) [] := by
  refine ⟨rfl, rfl, ?_, fun _ _ => rfl, Nat.le_refl _, rfl, rfl⟩
  simp only [loopsOf, SendWorld.setCells]
  split
  · rw [List.filter_filter]
    apply List.filter_congr
    intro l _
    by_cases hl : l.message = m
    · simp [hl, h.symm]
    · simp [hl]
  · induction w.splits with
    | nil => rfl
    | cons l ls ih =>
        rw [List.map_cons]
        by_cases hl : l.message = message
        · have hne : l.message ≠ m := by rwa [hl]
          rw [if_pos hl, List.filter_cons_of_neg (by simpa using hne),
            List.filter_cons_of_neg (by simpa using hne), ih]
        · rw [if_neg hl, List.filter_cons, List.filter_cons, ih]

theorem sendSmsToRil (hwf : WellFormed w) (p : Platform) (sender : SenderId) (env : Env)
    {i : SmsSendIndexer} (h : i.message ≠ m) :
    Untouched m w (w.sendSmsToRil p sender env i).1 (w.sendSmsToRil p sender env i).2 := by
  rw [hwf.sendSmsToRil_eq]
  split
  · exact Untouched.callback w h _
  · refine ⟨?_, rfl, rfl, fun _ _ => rfl, Nat.le_refl _, rfl, rfl⟩
    simp [cachedOf, SendWorld.handedOver, SendWorld.updateSender, h]

theorem resendDelivery (hwf : WellFormed w) (p : Platform) (sender : SenderId)
    (reencoded : Reencoded) (env : Env) {i : SmsSendIndexer} (h : i.message ≠ m) :
    Untouched m w (w.resendDelivery p sender reencoded env i).1
      (w.resendDelivery p sender reencoded env i).2 := by
  unfold SendWorld.resendDelivery
  cases reencoded with
  | dropped => exact refl m w
  | failed => exact Untouched.callback w h _
  | encoded =>
      dsimp only
      split
      · exact (newCellFlag w h).trans
          (sendSmsToRil (hwf.newCellFlag i.message) p sender env h)
      · exact sendSmsToRil hwf p sender env h

theorem retriedSmsDelivery (hwf : WellFormed w) (p : Platform) (slotId : Nat)
    (net : NetWorkType) (reencoded : Reencoded) (env : Env) {i : SmsSendIndexer}
    (h : i.message ≠ m) :
    Untouched m w (w.retriedSmsDelivery p slotId net reencoded env i).1
      (w.retriedSmsDelivery p slotId net reencoded env i).2 := by
  unfold SendWorld.retriedSmsDelivery
  split
  · cases net with
    | gsm => exact resendDelivery hwf p _ reencoded env h
    | cdma => exact resendDelivery hwf p _ reencoded env h
    | unknown => exact Untouched.callback w h _
  · cases net with
    | gsm => exact sendSmsToRil hwf p _ env h
    | cdma => exact sendSmsToRil hwf p _ env h
    | unknown => exact Untouched.callback w h _

theorem splitStep (hwf : WellFormed w) (p : Platform) {message : Nat} (env : Env)
    (h : message ≠ m) :
    Untouched m w (w.splitStep p message env).1 (w.splitStep p message env).2 := by
  unfold SendWorld.splitStep
  cases hfind : w.splits.find? (·.message = message) with
  | none => exact refl m w
  | some l =>
      have hl := List.mem_of_find?_eq_some hfind
      have hmsg : l.message = message := by simpa using List.find?_some hfind
      dsimp only
      cases hcells : l.cells with
      | nil => exact setCells w h []
      | cons cell cells =>
          dsimp only
          cases SendWorld.cellStep l.kind cell with
          | stop => exact setCells w h []
          | skip => exact setCells w h cells
          | failAndStop => exact (setCells w h []).trans (.callback _ h _)
          | failAndGoOn => exact (setCells w h cells).trans (.callback _ h _)
          | send =>
              dsimp only
              cases hflag : l.hasCellFailed with
              | none =>
                  have hnew := (newCellFlag w h).trans (setCells (w.newCellFlag message).1 h cells)
                  refine hnew.trans (sendSmsToRil ((hwf.newCellFlag message).setCells message
                    cells) p l.sender env ?_)
                  exact h
              | some flag =>
                  refine (setCells w h cells).trans (sendSmsToRil (hwf.setCells message cells) p
                    l.sender env ?_)
                  show flag.message ≠ m
                  rw [hwf.splitFlags l hl flag (by simp [hflag]), hmsg]
                  exact h

end Untouched

section EraseIdx

variable {α : Type*} {q : α → Bool} {l : List α} {k : Nat} {a : α}

theorem filter_eraseIdx_of_neg (h : l[k]? = some a) (ha : q a = false) :
    (l.eraseIdx k).filter q = l.filter q := by
  induction l generalizing k with
  | nil => simp at h
  | cons b l ih =>
      cases k with
      | zero =>
          obtain rfl : b = a := by simpa using h
          simp [ha]
      | succ k =>
          rw [List.eraseIdx_cons_succ, List.filter_cons, List.filter_cons,
            ih (by simpa using h)]

theorem length_filter_eraseIdx_of_pos (h : l[k]? = some a) (ha : q a = true) :
    ((l.eraseIdx k).filter q).length + 1 = (l.filter q).length := by
  induction l generalizing k with
  | nil => simp at h
  | cons b l ih =>
      cases k with
      | zero =>
          obtain rfl : b = a := by simpa using h
          simp [ha]
      | succ k =>
          have := ih (k := k) (by simpa using h)
          rw [List.eraseIdx_cons_succ, List.filter_cons, List.filter_cons]
          split <;> simp_all

end EraseIdx

theorem Untouched.eraseRetry {m : Nat} {w : SendWorld} {index : Nat}
    {r : SenderId × SmsSendIndexer} (hr : w.retries[index]? = some r) (h : r.2.message ≠ m) :
    Untouched m w { w with retries := w.retries.eraseIdx index } [] := by
  refine ⟨rfl, ?_, rfl, fun _ _ => rfl, Nat.le_refl _, rfl, rfl⟩
  simp only [retriesOf, List.filter_map]
  rw [filter_eraseIdx_of_neg hr (by simpa using h)]

/-! ## Handing cells over -/

theorem WellFormed.sendSmsToRil_of_service {w : SendWorld} (hwf : WellFormed w) (p : Platform)
    {sender : SenderId} {env : Env} (i : SmsSendIndexer)
    (hservice : w.notInService p sender env = false) :
    w.sendSmsToRil p sender env i =
      (w.handedOver sender (w.sendDomain p sender env i) i,
        [.toRil sender (w.msgRef64bit + 1) (w.sendDomain p sender env i)]) := by
  rw [hwf.sendSmsToRil_eq, hservice, if_neg (by simp)]

variable {m ref n : Nat} {flag : CellFlag} {outs : List SendEffect} {w : SendWorld}

/-- The cell `i` of the message is handed over: what the cache holds of it grows. -/
theorem cachedOf_handedOver (sender : SenderId) (domain : SmsDomain) {i : SmsSendIndexer}
    (hi : i.message = m) :
    cachedOf m (w.handedOver sender domain i) = cachedOf m w ++ [i] := by
  simp [cachedOf, SendWorld.handedOver, SendWorld.updateSender, hi]

theorem loopsOf_setCells {sender : SenderId} {kind : SplitKind} {cells : List Cell}
    {f : Option CellFlag} (rest : List Cell)
    (h : loopsOf m w = [⟨sender, kind, m, ref, n, f, cells⟩]) :
    loopsOf m (w.setCells m rest) =
      if rest = [] then [] else [⟨sender, kind, m, ref, n, f, rest⟩] := by
  simp only [loopsOf, SendWorld.setCells] at h ⊢
  split
  · rw [List.filter_filter]
    apply List.filter_eq_nil_iff.mpr
    simp
  · have hmap : (w.splits.map fun l => if l.message = m then { l with cells := rest } else l).filter
        (·.message = m) =
          (w.splits.filter (·.message = m)).map fun l => { l with cells := rest } := by
      induction w.splits with
      | nil => rfl
      | cons l ls ih =>
          by_cases hl : l.message = m
          · simp [hl, ih]
          · simp [hl, ih]
    rw [hmap, h]
    rfl

/-- A round that hands over its cell. -/
theorem WellFormed.splitStep_of_send (hwf : WellFormed w) (p : Platform) (env : Env)
    {l : SplitLoop} {cell : Cell} {rest : List Cell} {f : CellFlag}
    (hfind : w.splits.find? (·.message = m) = some l) (hcells : l.cells = cell :: rest)
    (hf : l.hasCellFailed = some f) (hsend : SendWorld.cellStep l.kind cell = .send)
    (hservice : w.notInService p l.sender env = false) :
    w.splitStep p m env =
      ((w.setCells m rest).handedOver l.sender ((w.setCells m rest).sendDomain p l.sender env
          (l.indexer f env)) (l.indexer f env),
        [.toRil l.sender (w.msgRef64bit + 1) ((w.setCells m rest).sendDomain p l.sender env
          (l.indexer f env))]) := by
  have hservice' : (w.setCells m rest).notInService p l.sender env = false := hservice
  simp only [SendWorld.splitStep, hfind, hcells, hsend, hf]
  exact (hwf.setCells m rest).sendSmsToRil_of_service p _ hservice'

theorem Delivering.splitStep (h : Delivering m flag ref n outs w) (hmax : n ≤ maxSegmentNum)
    (p : Platform) (env : Env) (hord : Orderly p m w (.splitStep m env)) :
    Delivering m flag ref n (outs ++ (w.splitStep p m env).2) (w.splitStep p m env).1 := by
  have hfind : w.splits.find? (·.message = m) = (loopsOf m w).head? := by
    rw [loopsOf, List.head?_filter]
  rcases h.loop with hnone | ⟨sender, cells, hcells, hloop⟩
  · rw [hnone] at hfind
    have hidle : w.splitStep p m env = (w, []) := by
      simp [SendWorld.splitStep, hfind]
    rw [hidle]
    exact h.frame h.wf (.refl m w)
  · have hmem : (⟨sender, .gsmText, m, ref, n, some flag, cells⟩ : SplitLoop) ∈ w.splits :=
      List.mem_of_mem_filter (p := fun l : SplitLoop => l.message = m)
        (by rw [show w.splits.filter (fun l => l.message = m) = _ from hloop]; simp)
    obtain ⟨hsend, hservice⟩ := hord rfl _ hmem rfl
    obtain ⟨cell, rest, rfl⟩ := List.exists_cons_of_ne_nil hcells
    have hsend : SendWorld.cellStep .gsmText cell = .send := hsend cell rfl
    have hmod : n % 256 = n := by
      apply Nat.mod_eq_of_lt
      simp only [maxSegmentNum] at hmax
      omega
    have hrun := h.wf.splitStep_of_send p env (by rw [hfind, hloop]; rfl) rfl rfl
      hsend hservice
    obtain ⟨i, hi, hrun⟩ : ∃ i, (i.msgRefId = ref ∧ i.unSentCellCount = n ∧
        i.hasCellFailed = flag ∧ i.isText = true) ∧ ∃ d, w.splitStep p m env =
          ((w.setCells m rest).handedOver sender d i, [.toRil sender (w.msgRef64bit + 1) d]) :=
      ⟨_, ⟨rfl, hmod, rfl, rfl⟩, _, hrun⟩
    obtain ⟨d, hrun⟩ := hrun
    obtain ⟨href, hcount, hflag, htext⟩ := hi
    have hmessage : i.message = m := by rw [SmsSendIndexer.message, hflag, h.flagMessage]
    obtain ⟨hretries, houtcomes, hcounts⟩ := h.splitting (by simp [hloop])
    have hcached : cachedOf m ((w.setCells m rest).handedOver sender d i) =
        cachedOf m w ++ [i] := cachedOf_handedOver sender d hmessage
    have hloops : loopsOf m ((w.setCells m rest).handedOver sender d i) =
        if rest = [] then [] else [⟨sender, .gsmText, m, ref, n, some flag, rest⟩] :=
      loopsOf_setCells rest hloop
    have hretries' : retriesOf m ((w.setCells m rest).handedOver sender d i) = [] := hretries
    have hnew : outcomesOf m (outs ++ [SendEffect.toRil sender (w.msgRef64bit + 1) d]) = [] := by
      rw [outcomesOf_append, houtcomes]
      rfl
    have hleft : (cachedOf m w).length + rest.length + 1 = n := by
      have := h.total
      simp only [hretries, hloop, houtcomes, List.flatMap_singleton, List.length_cons,
        List.length_nil] at this
      omega
    have hall : ∀ j ∈ cachedOf m w ++ [i], j.unSentCellCount = n := by
      intro j hj
      rcases List.mem_append.mp hj with hj | hj
      · exact hcounts j hj
      · rw [List.mem_singleton.mp hj, hcount]
    rw [hrun]
    constructor
    · exact (h.wf.setCells m rest).handedOver sender d (by rw [hmessage]; exact h.started)
    · exact h.started
    · exact h.flagMessage
    · rw [hcached, hretries', List.append_nil]
      intro j hj
      rcases List.mem_append.mp hj with hj | hj
      · exact h.cells j (List.mem_append_left _ hj)
      · rw [List.mem_singleton.mp hj]
        exact ⟨href, hflag, htext⟩
    · rw [hloops]
      by_cases hrest : rest = []
      · exact .inl (if_pos hrest)
      · exact .inr ⟨sender, rest, hrest, if_neg hrest⟩
    · rw [hcached, hretries', hloops, hnew]
      by_cases hrest : rest = []
      · simp only [hrest, if_true, List.length_append, List.length_cons, List.length_nil,
          List.flatMap_nil] at hleft ⊢
        omega
      · simp only [hrest, if_false, List.length_append, List.length_cons, List.length_nil,
          List.flatMap_singleton]
        omega
    · intro _
      rw [hcached]
      exact ⟨hretries', hnew, hall⟩
    · rw [hloops]
      intro hdone
      have hrest : rest = [] := by
        by_contra hrest
        simp [hrest] at hdone
      left
      refine ⟨hretries', ?_⟩
      rw [hcached]
      intro j hj
      rw [hall j hj, List.length_append, ← hleft, hrest]
      rfl
    · rw [hnew, ← show outcomesOf m outs = [] from houtcomes]
      exact h.failed
    · have hcallbacks := h.callbacks
      rw [houtcomes] at hcallbacks
      rw [hnew, callbacksOf_append, hcallbacks]
      simp [callbacksOf]

/-! ## Retries -/

/-- A text cell is sent again with its reference, count and flag. -/
theorem retriedSmsDelivery_text (w : SendWorld) (p : Platform) (slotId : Nat)
    {net : NetWorkType} {reencoded : Reencoded} (env : Env) {i : SmsSendIndexer}
    {kind : SenderKind} (htext : i.isText = true) (hkind : net.senderKind = some kind)
    (hnet : i.netWorkType = net ∨ reencoded = .encoded) :
    ∃ i', (i'.msgRefId = i.msgRefId ∧ i'.unSentCellCount = i.unSentCellCount ∧
        i'.hasCellFailed = i.hasCellFailed ∧ i'.isText = true) ∧
      w.retriedSmsDelivery p slotId net reencoded env i =
        w.sendSmsToRil p ⟨slotId, kind⟩ env i' := by
  unfold SendWorld.retriedSmsDelivery
  split
  · rename_i hne
    obtain rfl := hnet.resolve_left hne
    refine ⟨{ i with netWorkType := net, timeStamp := env.now }, ⟨rfl, rfl, rfl, htext⟩, ?_⟩
    cases net <;> cases hkind <;> simp [SendWorld.resendDelivery, htext]
  · refine ⟨i, ⟨rfl, rfl, rfl, htext⟩, ?_⟩
    cases net <;> cases hkind <;> rfl

/-- The last cell, taken from the retries, is back in the cache. -/
theorem Delivering.sentAgain (h : Delivering m flag ref n outs w) {w₁ : SendWorld}
    (hwf : WellFormed w₁) (sender : SenderId) (d : SmsDomain) {i : SmsSendIndexer}
    (hloops : loopsOf m w = []) (hcached : cachedOf m w = [])
    (hretries : retriesOf m w₁ = []) (hcache : w₁.sendCacheMap = w.sendCacheMap)
    (hsplits : w₁.splits = w.splits) (hflags : w₁.cellFailed = w.cellFailed)
    (hnext : w₁.nextMessage = w.nextMessage)
    (hsum : (cachedOf m w).length + (retriesOf m w).length = 1)
    (hi : i.msgRefId = ref ∧ i.hasCellFailed = flag ∧ i.isText = true)
    (hcount : i.unSentCellCount = 0) :
    Delivering m flag ref n (outs ++ [SendEffect.toRil sender (w₁.msgRef64bit + 1) d])
      (w₁.handedOver sender d i) := by
  have hmsg : i.message = m := by rw [SmsSendIndexer.message, hi.2.1, h.flagMessage]
  have hcached' : cachedOf m (w₁.handedOver sender d i) = [i] := by
    rw [cachedOf_handedOver sender d hmsg, cachedOf, hcache, ← cachedOf, hcached, List.nil_append]
  have hloops' : loopsOf m (w₁.handedOver sender d i) = [] := by
    rw [← hloops]
    show w₁.splits.filter _ = w.splits.filter _
    rw [hsplits]
  have hretries' : retriesOf m (w₁.handedOver sender d i) = [] := hretries
  have hout : outcomesOf m (outs ++ [SendEffect.toRil sender (w₁.msgRef64bit + 1) d]) =
      outcomesOf m outs := by
    rw [outcomesOf_append]
    exact List.append_nil _
  constructor
  · exact hwf.handedOver sender d (by rw [hmsg, hnext]; exact h.started)
  · exact Nat.lt_of_lt_of_eq h.started hnext.symm
  · exact h.flagMessage
  · rw [hcached', hretries', List.append_nil]
    intro j hj
    rwa [List.mem_singleton.mp hj]
  · exact .inl hloops'
  · have htotal := h.total
    rw [hloops] at htotal
    rw [hcached', hretries', hloops', hout]
    simp only [List.flatMap_nil, List.length_cons, List.length_nil] at htotal ⊢
    omega
  · intro hne
    exact absurd hloops' hne
  · intro _
    rw [hcached', hretries']
    right
    refine ⟨rfl, fun j hj => ?_⟩
    obtain rfl : j = i := by simpa using hj
    exact hcount
  · rw [hout, ← h.failed]
    exact congrFun hflags flag
  · rw [hout, callbacksOf_append]
    exact (List.append_nil _).trans h.callbacks

theorem Delivering.retry (h : Delivering m flag ref n outs w) (p : Platform) (index : Nat)
    (net : NetWorkType) (reencoded : Reencoded) (env : Env)
    (hord : Orderly p m w (.retry index net reencoded env)) :
    Delivering m flag ref n (outs ++ (w.deliverRetry p index net reencoded env).2)
      (w.deliverRetry p index net reencoded env).1 := by
  unfold SendWorld.deliverRetry
  cases hretry : w.retries[index]? with
  | none => exact h.frame h.wf (.refl m w)
  | some r =>
      obtain ⟨sender, i⟩ := r
      have hlt : i.message < w.nextMessage :=
        h.wf.retryMessages _ (List.mem_of_getElem? hretry)
      dsimp only
      by_cases hmsg : i.message = m
      · -- the retry is the only cell left, and its count is zero
        have hi : i ∈ retriesOf m w := by
          simp only [retriesOf, List.mem_filter, List.mem_map, decide_eq_true_eq]
          exact ⟨⟨_, List.mem_of_getElem? hretry, rfl⟩, hmsg⟩
        have hloops : loopsOf m w = [] := by
          by_contra hne
          simp [(h.splitting hne).1] at hi
        have hpos : 0 < (retriesOf m w).length := List.length_pos_of_mem hi
        obtain ⟨hsum, hzero⟩ := (h.counting hloops).resolve_left
          fun hcase => by simp [hcase.1] at hi
        have hcached : cachedOf m w = [] := List.length_eq_zero_iff.mp (by omega)
        have herased : retriesOf m { w with retries := w.retries.eraseIdx index } = [] := by
          apply List.length_eq_zero_iff.mp
          have hlen := length_filter_eraseIdx_of_pos
            (q := (fun j : SmsSendIndexer => decide (j.message = m)) ∘ (·.2)) hretry
            (by simpa using hmsg)
          simp only [retriesOf, List.filter_map, List.length_map] at hsum hpos ⊢
          omega
        obtain ⟨href, hflag, htext⟩ := h.cells i (List.mem_append_right _ hi)
        obtain ⟨hnet, kind, hkind, hservice⟩ := hord sender i hretry hmsg
        obtain ⟨i', ⟨href', hcount', hflag', htext'⟩, hsame⟩ := retriedSmsDelivery_text
          { w with retries := w.retries.eraseIdx index } p sender.slotId env htext hkind hnet
        rw [hsame, (h.wf.eraseRetry index).sendSmsToRil_of_service p i' hservice]
        exact h.sentAgain (h.wf.eraseRetry index) ⟨sender.slotId, kind⟩ _ hloops hcached herased
          rfl rfl rfl rfl hsum ⟨href'.trans href, hflag'.trans hflag, htext'⟩
          (by rw [hcount', hzero i (List.mem_append_right _ hi)])
      · have herase := Untouched.eraseRetry hretry hmsg
        exact h.frame ((h.wf.eraseRetry index).retriedSmsDelivery p sender.slotId net reencoded
          env hlt) (herase.trans (.retriedSmsDelivery (h.wf.eraseRetry index) p sender.slotId net
            reencoded env hmsg))

/-! ## Responses -/

theorem cachedOf_cacheAfterResponse (refId : Nat) {flag : Nat} {now : Int}
    (h : ∀ e ∈ w.sendCacheMap, e.1 ≠ flag → e.2.message = m →
      SendWorld.isExpired now e.2 = false) :
    ((SendWorld.cacheAfterResponse w.sendCacheMap flag refId now).map (·.2)).filter
        (·.message = m) =
      (othersOf m flag w).map (SendWorld.updateUnSentCellCount refId) := by
  unfold othersOf SendWorld.cacheAfterResponse
  generalize w.sendCacheMap = cache at h
  induction cache with
  | nil => rfl
  | cons e cache ih =>
      have hrest := ih fun e' he' => h e' (by simp [he'])
      by_cases hflag : e.1 = flag
      · simpa [hflag] using hrest
      · by_cases hmsg : e.2.message = m
        · have hexp := h e (by simp) hflag hmsg
          simpa [hflag, hmsg, isExpired_updateUnSentCellCount, hexp] using hrest
        · cases hexp : SendWorld.isExpired now e.2 <;>
            simpa [hflag, hmsg, isExpired_updateUnSentCellCount, hexp] using hrest

/-- The cached cells of a message, with the answered one at its place. -/
theorem WellFormed.cachedOf_split (hwf : WellFormed w) {flag : Nat} {i : SmsSendIndexer}
    (hi : w.cached flag = some i) :
    ∃ l₁ l₂, othersOf m flag w = l₁ ++ l₂ ∧
      cachedOf m w = l₁ ++ (if i.message = m then [i] else []) ++ l₂ := by
  obtain ⟨c₁, c₂, hcache⟩ := List.append_of_mem (mem_of_cached hi)
  have hkeys := hwf.keys
  rw [hcache, List.map_append, List.map_cons, List.nodup_append, List.nodup_cons] at hkeys
  obtain ⟨-, ⟨hnot₂, -⟩, hdisj⟩ := hkeys
  have hfirst : c₁.filter (·.1 ≠ flag) = c₁ := by
    apply List.filter_eq_self.mpr
    intro e he
    simpa using hdisj e.1 (List.mem_map_of_mem he) flag (by simp)
  have hsecond : c₂.filter (·.1 ≠ flag) = c₂ := by
    apply List.filter_eq_self.mpr
    intro e he
    have hmem : e.1 ∈ c₂.map (·.1) := List.mem_map_of_mem he
    have hne : e.1 ≠ flag := by
      rintro rfl
      exact hnot₂ hmem
    simpa using hne
  refine ⟨(c₁.map (·.2)).filter (·.message = m), (c₂.map (·.2)).filter (·.message = m), ?_, ?_⟩
  · rw [othersOf, hcache, List.filter_append, List.filter_cons_of_neg (by simp), hfirst, hsecond,
      List.map_append, List.filter_append]
  · rw [cachedOf, hcache, List.map_append, List.filter_append, List.map_cons, List.filter_cons]
    split <;> simp_all

theorem unSentCellCount_of_msgRefId {refId : Nat} {i : SmsSendIndexer} (h : i.msgRefId = refId) :
    (SendWorld.updateUnSentCellCount refId i).unSentCellCount = i.unSentCellCount - 1 := by
  unfold SendWorld.updateUnSentCellCount
  split
  · rfl
  · simp only [not_and, h, true_implies] at *
    omega

theorem updateUnSentCellCount_of_zero {refId : Nat} {i : SmsSendIndexer}
    (h : i.msgRefId = refId → i.unSentCellCount = 0) :
    SendWorld.updateUnSentCellCount refId i = i := by
  unfold SendWorld.updateUnSentCellCount
  rw [if_neg]
  rintro ⟨href, hpos⟩
  have := h href
  omega

theorem Untouched.sendMessageSucceed {w : SendWorld} {i : SmsSendIndexer} (h : i.message ≠ m) :
    Untouched m w (w.sendMessageSucceed i).1 (w.sendMessageSucceed i).2 := by
  refine ⟨rfl, rfl, rfl, fun _ _ => rfl, Nat.le_refl _, ?_, ?_⟩ <;>
    unfold SendWorld.sendMessageSucceed <;> split <;> simp [outcomesOf, callbacksOf, h]

theorem Untouched.handleResend {w : SendWorld} (p : Platform) (sender : SenderId)
    {i : SmsSendIndexer} (h : i.message ≠ m) :
    Untouched m w (w.handleResend p sender i).1 (w.handleResend p sender i).2 := by
  unfold SendWorld.handleResend
  split
  · refine ⟨rfl, ?_, rfl, fun _ _ => rfl, Nat.le_refl _, rfl, rfl⟩
    simp [retriesOf, h]
  · refine ⟨rfl, rfl, rfl, ?_, Nat.le_refl _, ?_, ?_⟩
    · intro f hf
      apply Function.update_of_ne
      rintro rfl
      exact h hf
    all_goals
      unfold SendWorld.sendMessageFailed
      split <;> simp [outcomesOf, callbacksOf, h]

/-- The response to a cell of another message. -/
theorem Untouched.response (hwf : WellFormed w) (p : Platform) (sender : SenderId) {f : Nat}
    {res : RilResponse} {now : Int} {i : SmsSendIndexer} (hi : w.cached f = some i)
    (hmsg : i.message ≠ m) (hord : OrderlyResponse p m w sender f res now i) :
    Untouched m w (w.handleMessageResponse p sender f res now).1
      (w.handleMessageResponse p sender f res now).2 := by
  have hcache : Untouched m w { w with
      sendCacheMap := SendWorld.cacheAfterResponse w.sendCacheMap f i.msgRefId now } [] := by
    refine ⟨?_, rfl, rfl, fun _ _ => rfl, Nat.le_refl _, rfl, rfl⟩
    obtain ⟨l₁, l₂, hothers, hcached⟩ := hwf.cachedOf_split (m := m) hi
    have hsame : othersOf m f w = cachedOf m w := by simp [hothers, hcached, hmsg]
    rw [cachedOf, cachedOf_cacheAfterResponse _ hord.inTime, hsame]
    conv_rhs => rw [← List.map_id (cachedOf m w)]
    apply List.map_congr_left
    intro x hx
    simp only [cachedOf, List.mem_filter, List.mem_map, decide_eq_true_eq] at hx
    obtain ⟨⟨e, he, rfl⟩, hx⟩ := hx
    exact updateUnSentCellCount_of_zero (hord.ownReference hmsg e he hx)
  simp only [SendWorld.handleMessageResponse, hi, updateUnSentCellCount_msgRefId,
    setResponse_msgRefId]
  split
  · exact hcache.trans (.handleResend p sender (by simpa using hmsg))
  · exact hcache.trans (.sendMessageSucceed (by simpa using hmsg))

theorem verdict_concat_true (outcomes : List Bool) :
    verdict (outcomes ++ [true]) =
      if outcomes.any (!·) then .failureUnknown else .success := by
  unfold verdict
  cases hany : outcomes.any (!·) with
  | true => simp_all
  | false => simp_all

theorem verdict_concat_false (outcomes : List Bool) :
    verdict (outcomes ++ [false]) = .failureUnknown := by
  simp [verdict]

/-- What the counters are when a cell of the message is answered: the cell itself
and all others end with the number of the others. -/
theorem Delivering.counts_of_answered (h : Delivering m flag ref n outs w)
    (hloops : loopsOf m w = []) {i : SmsSendIndexer} {l₁ l₂ : List SmsSendIndexer}
    (hcached : cachedOf m w = l₁ ++ [i] ++ l₂) :
    retriesOf m w = [] ∧ i.unSentCellCount - 1 = (l₁ ++ l₂).length ∧
      ∀ x ∈ l₁ ++ l₂, x.unSentCellCount - 1 = (l₁ ++ l₂).length := by
  have hlen : (cachedOf m w).length = (l₁ ++ l₂).length + 1 := by
    rw [hcached]
    simp only [List.length_append, List.length_singleton]
    omega
  have hmem : ∀ x ∈ l₁ ++ l₂, x ∈ cachedOf m w := by
    intro x hx
    rw [hcached]
    rcases List.mem_append.mp hx with hx | hx <;> simp [hx]
  have hi : i ∈ cachedOf m w := by simp [hcached]
  rcases h.counting hloops with ⟨hretries, hcounts⟩ | ⟨hsum, hzero⟩
  · refine ⟨hretries, ?_, fun x hx => ?_⟩
    · rw [hcounts i hi]
      omega
    · rw [hcounts x (hmem x hx)]
      omega
  · have hnone : l₁ ++ l₂ = [] := List.length_eq_zero_iff.mp (by omega)
    refine ⟨List.length_eq_zero_iff.mp (by omega), ?_, fun x hx => ?_⟩
    · rw [hzero i (by simp [hi]), hnone]
      rfl
    · simp [hnone] at hx

/-- The world `w₁` after the counters were updated and the answered cell, now `j`,
was taken out of the cache; `rest` are the cells left there. -/
structure TakenOut (m : Nat) (flag : CellFlag) (ref : Nat) (w w₁ : SendWorld)
    (j : SmsSendIndexer) (rest : List SmsSendIndexer) : Prop where
  wf : WellFormed w₁
  loops : loopsOf m w = []
  retries : retriesOf m w = []
  length : (cachedOf m w).length = rest.length + 1
  cached : cachedOf m w₁ = rest
  unchanged : w₁.retries = w.retries ∧ w₁.splits = w.splits ∧ w₁.cellFailed = w.cellFailed ∧
    w₁.nextMessage = w.nextMessage
  others : ∀ x ∈ rest, (x.msgRefId = ref ∧ x.hasCellFailed = flag ∧ x.isText = true) ∧
    x.unSentCellCount = rest.length
  cell : j.msgRefId = ref ∧ j.hasCellFailed = flag ∧ j.isText = true
  count : j.unSentCellCount = rest.length

namespace TakenOut

variable {w₁ : SendWorld} {j : SmsSendIndexer} {rest : List SmsSendIndexer}

theorem retries₁ (ht : TakenOut m flag ref w w₁ j rest) : retriesOf m w₁ = [] := by
  rw [retriesOf, ht.unchanged.1]
  exact ht.retries

theorem loops₁ (ht : TakenOut m flag ref w w₁ j rest) : loopsOf m w₁ = [] := by
  rw [loopsOf, ht.unchanged.2.1]
  exact ht.loops

theorem total (ht : TakenOut m flag ref w w₁ j rest) (h : Delivering m flag ref n outs w) :
    rest.length + 1 + (outcomesOf m outs).length = n := by
  have := h.total
  rw [ht.loops, ht.retries, ht.length] at this
  simpa using this

/-- The cell reached its outcome `sent`. -/
theorem settle (ht : TakenOut m flag ref w w₁ j rest) (h : Delivering m flag ref n outs w)
    (sent : Bool) {flags : CellFlag → Bool} {out : List SendEffect}
    (hfailed : flags flag = (w.cellFailed flag || !sent)) (hout : outcomesOf m out = [sent])
    (hcallback : callbacksOf m out =
      if rest.length = 0 then [verdict (outcomesOf m outs ++ [sent])] else []) :
    Delivering m flag ref n (outs ++ out) { w₁ with cellFailed := flags } := by
  have hout' : outcomesOf m (outs ++ out) = outcomesOf m outs ++ [sent] := by
    rw [outcomesOf_append, hout]
  have htotal := ht.total h
  have hcached : cachedOf m { w₁ with cellFailed := flags } = rest := ht.cached
  have hretries : retriesOf m { w₁ with cellFailed := flags } = [] := ht.retries₁
  have hloops : loopsOf m { w₁ with cellFailed := flags } = [] := ht.loops₁
  constructor
  · exact ⟨ht.wf.keys, ht.wf.keysLe, ht.wf.cacheMessages, ht.wf.retryMessages,
      ht.wf.splitMessages, ht.wf.splitFlags, ht.wf.splitNodup⟩
  · exact Nat.lt_of_lt_of_eq h.started ht.unchanged.2.2.2.symm
  · exact h.flagMessage
  · rw [hcached, hretries, List.append_nil]
    exact fun x hx => (ht.others x hx).1
  · exact .inl hloops
  · rw [hcached, hretries, hloops, hout', List.length_append]
    simp only [List.flatMap_nil, List.length_nil, List.length_singleton]
    omega
  · intro hne
    exact absurd hloops hne
  · intro _
    rw [hcached]
    exact .inl ⟨hretries, fun x hx => (ht.others x hx).2⟩
  · show flags flag = _
    rw [hfailed, hout', h.failed, List.any_append]
    simp
  · rw [callbacksOf_append, h.callbacks, hcallback, hout', if_neg (by omega), List.nil_append,
      List.length_append, List.length_singleton]
    by_cases hzero : rest.length = 0
    · rw [if_pos hzero, if_pos (by omega)]
    · rw [if_neg hzero, if_neg (by omega)]

theorem succeed (ht : TakenOut m flag ref w w₁ j rest) (h : Delivering m flag ref n outs w) :
    Delivering m flag ref n (outs ++ (w₁.sendMessageSucceed j).2)
      (w₁.sendMessageSucceed j).1 := by
  have hmsg : j.message = m := by rw [SmsSendIndexer.message, ht.cell.2.1, h.flagMessage]
  have hflags := ht.unchanged.2.2.1
  refine ht.settle h true (by simp [hflags]) ?_ ?_
  · unfold SendWorld.sendMessageSucceed
    split <;> simp [outcomesOf, hmsg]
  · rw [verdict_concat_true, ← h.failed, ← ht.count, ← hflags, ← ht.cell.2.1]
    unfold SendWorld.sendMessageSucceed
    split <;> simp_all [callbacksOf]

theorem fail (ht : TakenOut m flag ref w w₁ j rest) (h : Delivering m flag ref n outs w) :
    Delivering m flag ref n (outs ++ (w₁.sendMessageFailed j).2) (w₁.sendMessageFailed j).1 := by
  have hmsg : j.message = m := by rw [SmsSendIndexer.message, ht.cell.2.1, h.flagMessage]
  refine ht.settle h false (by simp [ht.cell.2.1]) ?_ ?_
  · unfold SendWorld.sendMessageFailed
    split <;> simp [outcomesOf, hmsg]
  · rw [verdict_concat_false, ← ht.count]
    unfold SendWorld.sendMessageFailed
    split <;> simp_all [callbacksOf]

/-- The cell is to be sent again, and no other is left. -/
theorem resend (ht : TakenOut m flag ref w w₁ j []) (h : Delivering m flag ref n outs w)
    (sender : SenderId) :
    Delivering m flag ref n (outs ++ [])
      { w₁ with retries := w₁.retries ++ [(sender, w₁.countResend sender j)] } := by
  obtain ⟨hflag, href, hcount, htext⟩ := countResend_fields w₁ sender j
  obtain ⟨hjref, hjflag, hjtext⟩ := ht.cell
  have hmsg : (w₁.countResend sender j).message = m := by
    rw [countResend_message, SmsSendIndexer.message, hjflag, h.flagMessage]
  have hcached : cachedOf m { w₁ with
      retries := w₁.retries ++ [(sender, w₁.countResend sender j)] } = [] := ht.cached
  have hretries : retriesOf m { w₁ with
      retries := w₁.retries ++ [(sender, w₁.countResend sender j)] } =
        [w₁.countResend sender j] := by
    have hnone := ht.retries₁
    simp only [retriesOf] at hnone ⊢
    rw [List.map_append, List.filter_append, hnone]
    simp [hmsg]
  have hloops : loopsOf m { w₁ with
      retries := w₁.retries ++ [(sender, w₁.countResend sender j)] } = [] := ht.loops₁
  have htotal := ht.total h
  rw [List.append_nil]
  constructor
  · refine ⟨ht.wf.keys, ht.wf.keysLe, ht.wf.cacheMessages, ?_, ht.wf.splitMessages,
      ht.wf.splitFlags, ht.wf.splitNodup⟩
    intro e he
    rcases List.mem_append.mp he with he | he
    · exact ht.wf.retryMessages e he
    · rw [List.mem_singleton.mp he, hmsg]
      exact Nat.lt_of_lt_of_eq h.started ht.unchanged.2.2.2.symm
  · exact Nat.lt_of_lt_of_eq h.started ht.unchanged.2.2.2.symm
  · exact h.flagMessage
  · rw [hcached, hretries]
    intro x hx
    obtain rfl : x = w₁.countResend sender j := by simpa using hx
    exact ⟨href.trans hjref, hflag.trans hjflag, htext.trans hjtext⟩
  · exact .inl hloops
  · rw [hcached, hretries, hloops]
    simpa using htotal
  · intro hne
    exact absurd hloops hne
  · intro _
    rw [hcached, hretries]
    right
    refine ⟨rfl, fun x hx => ?_⟩
    obtain rfl : x = w₁.countResend sender j := by simpa using hx
    exact hcount.trans ht.count
  · show w₁.cellFailed flag = _
    rw [ht.unchanged.2.2.1]
    exact h.failed
  · exact h.callbacks

end TakenOut

theorem resends_updateUnSentCellCount (p : Platform) (w : SendWorld) (sender : SenderId)
    (refId : Nat) (i : SmsSendIndexer) :
    w.resends p sender (SendWorld.updateUnSentCellCount refId i) = w.resends p sender i := by
  unfold SendWorld.updateUnSentCellCount
  split <;> rfl

theorem isFailure_updateUnSentCellCount (refId : Nat) (i : SmsSendIndexer) :
    (SendWorld.updateUnSentCellCount refId i).isFailure = i.isFailure := by
  unfold SendWorld.updateUnSentCellCount
  split <;> rfl

theorem isText_updateUnSentCellCount (refId : Nat) (i : SmsSendIndexer) :
    (SendWorld.updateUnSentCellCount refId i).isText = i.isText := by
  unfold SendWorld.updateUnSentCellCount
  split <;> rfl

theorem setResponse_fields (f : Nat) (i : SmsSendIndexer) (res : RilResponse) :
    (SendWorld.setResponse f i res).unSentCellCount = i.unSentCellCount ∧
      (SendWorld.setResponse f i res).isText = i.isText := by
  cases res <;> exact ⟨rfl, rfl⟩

/-- What a response to a cell of the message leaves before its outcome is decided. -/
theorem Delivering.takenOut (h : Delivering m flag ref n outs w) {p : Platform}
    {sender : SenderId} {f : Nat} {res : RilResponse} {now : Int} {i : SmsSendIndexer}
    (hi : w.cached f = some i) (hmsg : i.message = m)
    (hord : OrderlyResponse p m w sender f res now i) :
    TakenOut m flag ref w { w with
        sendCacheMap := SendWorld.cacheAfterResponse w.sendCacheMap f i.msgRefId now }
      (SendWorld.updateUnSentCellCount i.msgRefId (SendWorld.setResponse f i res))
      ((othersOf m f w).map (SendWorld.updateUnSentCellCount i.msgRefId)) := by
  have hloops : loopsOf m w = [] := by
    apply List.filter_eq_nil_iff.mpr
    intro l hl
    simpa using hord.splitDone hmsg l hl
  obtain ⟨l₁, l₂, hothers, hcached⟩ := h.wf.cachedOf_split (m := m) hi
  rw [if_pos hmsg] at hcached
  obtain ⟨hretries, hcount, hcounts⟩ := h.counts_of_answered hloops hcached
  rw [hothers]
  have hmem : ∀ x ∈ l₁ ++ [i] ++ l₂,
      x.msgRefId = ref ∧ x.hasCellFailed = flag ∧ x.isText = true := by
    intro x hx
    exact h.cells x (List.mem_append_left _ (by rwa [hcached]))
  obtain ⟨href, hflag, htext⟩ := hmem i (by simp)
  constructor
  · exact h.wf.cacheAfterResponse f i.msgRefId now
  · exact hloops
  · exact hretries
  · rw [hcached, List.length_map]
    simp only [List.length_append, List.length_singleton]
    omega
  · rw [cachedOf, cachedOf_cacheAfterResponse i.msgRefId hord.inTime, hothers]
  · exact ⟨rfl, rfl, rfl, rfl⟩
  · intro x hx
    obtain ⟨y, hy, rfl⟩ := List.mem_map.mp hx
    obtain ⟨hyref, hyflag, hytext⟩ := hmem y (by
      rcases List.mem_append.mp hy with hy | hy <;> simp [hy])
    rw [List.length_map, unSentCellCount_of_msgRefId (hyref.trans href.symm),
      isText_updateUnSentCellCount]
    exact ⟨⟨by simpa using hyref, by simpa using hyflag, hytext⟩, hcounts y hy⟩
  · rw [isText_updateUnSentCellCount, (setResponse_fields f i res).2]
    exact ⟨by simpa using href, by simpa using hflag, htext⟩
  · rw [unSentCellCount_of_msgRefId (by simp), (setResponse_fields f i res).1, hcount,
      List.length_map]

theorem Delivering.response (h : Delivering m flag ref n outs w) (p : Platform)
    (sender : SenderId) (f : Nat) (res : RilResponse) (now : Int)
    (hord : Orderly p m w (.response sender f res now)) :
    Delivering m flag ref n (outs ++ (w.handleMessageResponse p sender f res now).2)
      (w.handleMessageResponse p sender f res now).1 := by
  cases hi : w.cached f with
  | none =>
      rw [SendWorld.handleMessageResponse, hi]
      exact h.frame h.wf (.refl m w)
  | some i =>
      have hord := hord i hi
      by_cases hmsg : i.message = m
      · have ht := h.takenOut hi hmsg hord
        simp only [SendWorld.handleMessageResponse, hi, updateUnSentCellCount_msgRefId,
          setResponse_msgRefId, isFailure_updateUnSentCellCount]
        by_cases hfail : (SendWorld.setResponse f i res).isFailure = true
        · simp only [hfail, if_true, SendWorld.handleResend, resends_updateUnSentCellCount]
          split
          · rename_i hresend
            have hlast := (hord.lastResent hmsg ⟨hfail, hresend⟩).1
            have hnone : othersOf m f w = [] := by
              apply List.filter_eq_nil_iff.mpr
              intro x hx
              obtain ⟨e, he, rfl⟩ := List.mem_map.mp hx
              obtain ⟨he, hne⟩ := List.mem_filter.mp he
              simpa using hlast e he (by simpa using hne)
            rw [hnone] at ht
            exact ht.resend h sender
          · exact ht.fail h
        · simp only [hfail]
          exact ht.succeed h
      · exact h.frame (h.wf.response p sender f res now)
          (.response h.wf p sender hi hmsg hord)

/-! ## Whole runs -/

theorem Delivering.step (h : Delivering m flag ref n outs w) (hmax : n ≤ maxSegmentNum)
    (p : Platform) (e : SendEvent) (hord : Orderly p m w e) :
    Delivering m flag ref n (outs ++ (w.step p e).2) (w.step p e).1 := by
  cases e with
  | networkState sender ims inService =>
      simp only [SendWorld.step]
      exact h.frame (h.wf.updateSender sender _) (.updateSender m w sender _)
  | imsSmsCfg sender enable =>
      simp only [SendWorld.step]
      exact h.frame (h.wf.updateSender sender _) (.updateSender m w sender _)
  | textDelivery sender tpduOk cells =>
      refine h.frame (h.wf.step p _) ?_
      rw [SendWorld.step]
      rcases w.textBasedSmsDelivery_cases sender tpduOk cells with
        hcase | ⟨f, kind, ref', -, -, hcase⟩ <;> rw [hcase]
      · exact .refuse w h.started
      · have hne : w.nextMessage ≠ m := Nat.ne_of_gt h.started
        exact ((Untouched.updateSender m w sender f).trans (.newCellFlag _ hne)).trans
          (.startSplit ((w.updateSender sender f).newCellFlag w.nextMessage).1 h.started sender
            kind ref' _ cells)
  | dataDelivery sender tpduOk cells =>
      refine h.frame (h.wf.step p _) ?_
      rw [SendWorld.step]
      obtain ⟨f, hcase | ⟨kind, ref', pages, -, hcase⟩⟩ :=
        w.dataBasedSmsDelivery_cases sender tpduOk cells <;> rw [hcase]
      · exact (Untouched.updateSender m w sender f).trans
          (.refuse (w.updateSender sender f) h.started)
      · exact (Untouched.updateSender m w sender f).trans
          (.startSplit (w.updateSender sender f) h.started sender kind ref' none pages)
  | splitStep message env =>
      by_cases hmsg : message = m
      · subst hmsg
        exact h.splitStep hmax p env hord
      · exact h.frame (h.wf.splitStep p message env) (.splitStep h.wf p env hmsg)
  | response sender f res now => exact h.response p sender f res now hord
  | retry index net reencoded env => exact h.retry p index net reencoded env hord

theorem filter_message_eq_nil {α : Type*} {l : List α} {message : α → Nat}
    (h : ∀ x ∈ l, message x < m) : l.filter (message · = m) = [] := by
  apply List.filter_eq_nil_iff.mpr
  intro x hx
  have := h x hx
  simp only [decide_eq_true_eq]
  omega

theorem Delivering.start (hwf : WellFormed w) {sender : SenderId} (hgsm : sender.kind = .gsm)
    {cells : List Cell} (hcells : cells ≠ []) (hmax : cells.length ≤ maxSegmentNum) :
    ∃ flag ref, Delivering w.nextMessage flag ref cells.length
      (w.textBasedSmsDelivery sender true cells).2
      (w.textBasedSmsDelivery sender true cells).1 := by
  have hrun : w.textBasedSmsDelivery sender true cells =
      (((w.getMsgRef8Bit sender).1.newCellFlag w.nextMessage).1.startSplit sender .gsmText
        (w.getMsgRef8Bit sender).2 (some ⟨w.nextMessage, w.nextFlag⟩) cells) := by
    have hnot : ¬ cells.length > maxSegmentNum := by omega
    simp only [SendWorld.textBasedSmsDelivery, hnot, hgsm]
    rfl
  have hwf' := hwf.step ⟨false, 0⟩ (.textDelivery sender true cells)
  rw [SendWorld.step, hrun] at hwf'
  rw [hrun]
  have hcached : cachedOf w.nextMessage w = [] := by
    apply filter_message_eq_nil
    intro x hx
    obtain ⟨e, he, rfl⟩ := List.mem_map.mp hx
    exact hwf.cacheMessages e he
  have hretries : retriesOf w.nextMessage w = [] := by
    apply filter_message_eq_nil
    intro x hx
    obtain ⟨e, he, rfl⟩ := List.mem_map.mp hx
    exact hwf.retryMessages e he
  have hloops : w.splits.filter (·.message = w.nextMessage) = [] :=
    filter_message_eq_nil hwf.splitMessages
  obtain ⟨w₁, hw₁⟩ : ∃ w₁, w₁ =
      (((w.getMsgRef8Bit sender).1.newCellFlag w.nextMessage).1.startSplit sender .gsmText
        (w.getMsgRef8Bit sender).2 (some ⟨w.nextMessage, w.nextFlag⟩) cells).1 := ⟨_, rfl⟩
  have hcached₁ : cachedOf w.nextMessage w₁ = [] := by rw [hw₁]; exact hcached
  have hretries₁ : retriesOf w.nextMessage w₁ = [] := by rw [hw₁]; exact hretries
  have hloops₁ : loopsOf w.nextMessage w₁ = [⟨sender, .gsmText, w.nextMessage,
      (w.getMsgRef8Bit sender).2, cells.length, some ⟨w.nextMessage, w.nextFlag⟩, cells⟩] := by
    rw [hw₁]
    simp only [loopsOf, SendWorld.startSplit, hcells, if_false]
    rw [List.filter_append]
    show w.splits.filter _ ++ _ = _
    rw [hloops, List.filter_cons_of_pos]
    · rfl
    · exact decide_eq_true (show w.nextMessage = w.nextMessage from rfl)
  refine ⟨⟨w.nextMessage, w.nextFlag⟩, (w.getMsgRef8Bit sender).2, ?_⟩
  rw [← hw₁] at hwf' ⊢
  have hpos : cells.length ≠ 0 := by simpa using hcells
  constructor
  · exact hwf'
  · rw [hw₁]
    exact Nat.lt_succ_self _
  · rfl
  · simp [hcached₁, hretries₁]
  · exact .inr ⟨sender, cells, hcells, hloops₁⟩
  · rw [hcached₁, hretries₁, hloops₁]
    simp [SendWorld.startSplit, outcomesOf]
  · intro _
    exact ⟨hretries₁, rfl, by simp [hcached₁]⟩
  · intro hnone
    simp [hloops₁] at hnone
  · rw [hw₁]
    exact Function.update_self ..
  · rw [if_neg]
    · rfl
    · exact fun hzero => hpos hzero.symm

/-- For every text split by a GSM sender, in a run whose steps are orderly for it:
the callback has been made exactly when all cells have their outcome, then once,
and it reports success iff all were sent. When nothing of the text is left to do,
all cells have their outcome. -/
theorem callback_once_after_all_outcomes (p : Platform) (before after : List SendEvent)
    (sender : SenderId) (cells : List Cell) (hgsm : sender.kind = .gsm) (hcells : cells ≠ [])
    (hmax : cells.length ≤ maxSegmentNum) (m : Nat)
    (hm : m = (before.foldl (next (SendWorld.step p)) .init).nextMessage)
    (outs : List SendEffect)
    (houts : outs = outputs (SendWorld.step p)
      (before.foldl (next (SendWorld.step p)) .init) (.textDelivery sender true cells :: after))
    (hord : Guarded (next (SendWorld.step p)) (Orderly p m)
      ((before ++ [SendEvent.textDelivery sender true cells]).foldl (next (SendWorld.step p)) .init)
      after) :
    callbacksOf m outs =
        (if (outcomesOf m outs).length = cells.length then [verdict (outcomesOf m outs)] else []) ∧
      (outcomesOf m outs).length ≤ cells.length ∧
      (Settled m ((before ++ SendEvent.textDelivery sender true cells :: after).foldl
          (next (SendWorld.step p)) .init) →
        (outcomesOf m outs).length = cells.length) := by
  have hwf := wellFormed_of_run p before
  rw [List.foldl_append, List.foldl_cons] at hord ⊢
  generalize before.foldl (next (SendWorld.step p)) .init = w at hwf hm houts hord
  obtain ⟨flag, ref, hstart⟩ := Delivering.start hwf hgsm hcells hmax
  rw [← hm] at hstart
  have hend : Delivering m flag ref cells.length
      (outputs (SendWorld.step p) w (.textDelivery sender true cells :: after))
      (after.foldl (next (SendWorld.step p))
        (next (SendWorld.step p) w (.textDelivery sender true cells))) :=
    Guarded.outputs_invariant
      (fun outs w e hok (h : Delivering m flag ref cells.length outs w) => h.step hmax p e hok)
      hord hstart
  rw [← houts] at hend
  refine ⟨hend.callbacks, ?_, ?_⟩
  · have := hend.total
    omega
  · rintro ⟨hloops, hcached, hretries⟩
    have := hend.total
    rw [hloops, hcached, hretries] at this
    simpa using this

/-- Both cells handed over, then the first sent and the second refused. -/
def twoCellsInOrder : List SendEvent :=
  [.splitStep 0 ⟨0, false⟩, .splitStep 0 ⟨0, false⟩,
    .response ⟨0, .gsm⟩ 1 (.sendSmsResult 0) 1, .response ⟨0, .gsm⟩ 2 .radioResponse 1]

theorem callback_once_after_two_outcomes :
    callbacksOf 0 (outputs (SendWorld.step ⟨false, 4⟩) .init
      (.textDelivery ⟨0, .gsm⟩ true [⟨10, true⟩, ⟨10, true⟩] :: twoCellsInOrder)) =
        [.failureUnknown] := by
  have hord : Guarded (next (SendWorld.step ⟨false, 4⟩)) (Orderly ⟨false, 4⟩ 0)
      (([] ++ [SendEvent.textDelivery ⟨0, .gsm⟩ true [⟨10, true⟩, ⟨10, true⟩]]).foldl
        (next (SendWorld.step ⟨false, 4⟩)) .init) twoCellsInOrder := by
    refine ⟨fun _ => by decide, fun _ => by decide, fun i hi => ?_, fun i hi => ?_, trivial⟩
    · obtain rfl := Option.some.inj (show some _ = some i from hi)
      exact ⟨by decide, fun _ => by decide, fun _ h => absurd h.1 (by decide),
        fun h => absurd rfl h⟩
    · obtain rfl := Option.some.inj (show some _ = some i from hi)
      exact ⟨by decide, fun _ => by decide, fun _ h => absurd h.2 (by decide),
        fun h => absurd rfl h⟩
  have hspec := callback_once_after_all_outcomes ⟨false, 4⟩ [] twoCellsInOrder ⟨0, .gsm⟩
    [⟨10, true⟩, ⟨10, true⟩] rfl (by simp) (by decide) 0 rfl _ rfl hord
  exact hspec.1

/-- The response to the first of two cells comes before the second is handed over:
the copies of the count never reach zero, and the application is never told. -/
theorem callback_lost_when_answered_early :
    outcomesOf 0 (outputs (SendWorld.step ⟨false, 4⟩) .init
        [.textDelivery ⟨0, .gsm⟩ true [⟨10, true⟩, ⟨10, true⟩], .splitStep 0 ⟨0, false⟩,
          .response ⟨0, .gsm⟩ 1 (.sendSmsResult 0) 1, .splitStep 0 ⟨1, false⟩,
          .response ⟨0, .gsm⟩ 2 (.sendSmsResult 0) 2]) = [true, true] ∧
      callbacksOf 0 (outputs (SendWorld.step ⟨false, 4⟩) .init
        [.textDelivery ⟨0, .gsm⟩ true [⟨10, true⟩, ⟨10, true⟩], .splitStep 0 ⟨0, false⟩,
          .response ⟨0, .gsm⟩ 1 (.sendSmsResult 0) 1, .splitStep 0 ⟨1, false⟩,
          .response ⟨0, .gsm⟩ 2 (.sendSmsResult 0) 2]) = [] := by
  decide

end TelephonySms.Send
