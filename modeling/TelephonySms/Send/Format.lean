import TelephonySms.Send.Track

/-! # The encoder of a PDU and the domain it is sent over

The CDMA sender builds a PDU with the GSM encoder when the message comes in over
IMS and with the CDMA encoder otherwise, and a retry on another network builds it
anew. Over which domain a PDU goes is decided later, from the flag of the indexer
and its count of attempts over IMS.
-/

namespace TelephonySms.Send

open TelephonySms.Machine

/-- The encoder that made a PDU. -/
inductive PduFormat where
  | gsm
  | cdma
deriving DecidableEq, Repr

/-- The encoder of each loop. -/
def SplitKind.format : SplitKind → PduFormat
  | .gsmText | .cdmaImsText | .data => .gsm
  | .cdmaText | .cdmaData => .cdma

/-- Where the PDU of a cell comes from: the loop that split the cell off, and the
network that `RetriedSmsDelivery` last had it built anew for. -/
structure Origin where
  kind : SplitKind
  rebuilt : Option NetWorkType
deriving DecidableEq, Repr

/-- For an unknown network nothing is built or handed over. -/
def Origin.format (o : Origin) : PduFormat :=
  match o.rebuilt with
  | none => o.kind.format
  | some .gsm => .gsm
  | some _ => .cdma

/-- A retry builds the PDU anew on another network than the one it was built for. -/
def Origin.retry (net : NetWorkType) (i : SmsSendIndexer) (o : Origin) : Origin :=
  if i.netWorkType = net then o else { o with rebuilt := some net }

def origins : Tracker Unit Origin where
  split _ l := ⟨l.kind, none⟩
  again o := o
  retry _ net i o := o.retry net i
  sent _ _ _ o := o

def formatRun (p : Platform) (events : List SendEvent) : SendWorld × Track Origin :=
  trackedRun p origins (events.map (·, ()))

/-! ## What an indexer says of its PDU -/

/-- An indexer tells the loop over IMS by its flag, and the network its PDU was last
built for. -/
structure Traced (i : SmsSendIndexer) (o : Origin) : Prop where
  flag : i.isImsSmsForCdma = decide (o.kind = .cdmaImsText)
  network : i.netWorkType = o.rebuilt.getD o.kind.netWorkType

theorem Traced.of_eq {i j : SmsSendIndexer} {o : Origin} (h : Traced i o)
    (hflag : j.isImsSmsForCdma = i.isImsSmsForCdma) (hnet : j.netWorkType = i.netWorkType) :
    Traced j o :=
  ⟨hflag.trans h.flag, hnet.trans h.network⟩

theorem Traced.retry {i j : SmsSendIndexer} {o : Origin} (h : Traced i o) {net : NetWorkType}
    (hflag : j.isImsSmsForCdma = i.isImsSmsForCdma) (hnet : j.netWorkType = net) :
    Traced j (o.retry net i) := by
  unfold Origin.retry
  split
  case isTrue heq => exact h.of_eq hflag (hnet.trans heq.symm)
  case isFalse => exact ⟨hflag.trans h.flag, hnet⟩

theorem origins_follows (p : Platform) : Follows p origins Traced where
  split _ _ _ _ := ⟨rfl, rfl⟩
  sent _ _ _ _ h := h
  counted refId i o h := by
    unfold SendWorld.updateUnSentCellCount
    split
    · exact h.of_eq rfl rfl
    · exact h
  answered flag res i o h := by
    cases res <;> exact h.of_eq rfl rfl
  again w sender i o _ h := by
    unfold SendWorld.countResend
    split <;> exact h.of_eq rfl rfl
  retry _ net _ _ _ _ _ h := h.retry rfl rfl

/-! ## Hand-over -/

/-- A PDU that the CDMA sender hands over goes to IMS if the GSM encoder made it and
to `SendCdmaSms` if the CDMA encoder did. -/
def FormatFits (domain : SmsDomain) (format : PduFormat) : Prop :=
  domain = .ims ↔ format = .gsm

/-- What a hand-over of the CDMA sender finds in the state before its step. A cell
that is sent for the first time is not of a loop that builds with the CDMA encoder.
A cell that is sent again is of the loop over IMS for text and was never built anew,
or is of another loop and its attempts over IMS are used up. -/
def HandsOverFit (s : SendWorld × Track Origin) : SendEvent → Prop
  | .splitStep message _ =>
      ∃ l, s.1.splits.find? (·.message = message) = some l ∧
        l.kind ≠ .cdmaText ∧ l.kind ≠ .cdmaData
  | .retry index _ _ _ =>
      ∃ r o, s.1.retries[index]? = some r ∧ s.2.queued[index]? = some o ∧
        if r.2.isImsSmsForCdma then o.rebuilt = none else r.2.psResendCount ≥ maxSendRetries
  | _ => False

/-- A cell that was handed over and its origin, whatever it was tracked with. -/
theorem toRil_sendSmsToRil {p : Platform} {w : SendWorld} (hwf : WellFormed w)
    (t : Track Origin) (o : Origin) {sender sender' : SenderId} {env : Env} {i : SmsSendIndexer}
    {refId : Nat} {domain : SmsDomain}
    (h : .toRil sender' refId domain ∈ (w.sendSmsToRil p sender env i).2) :
    sender' = sender ∧ domain = w.sendDomain p sender env i ∧
      (t.handOver origins (w.sendSmsToRil p sender env i).1 (w.sendSmsToRil p sender env i).2
        o).inFlight refId = some o := by
  rw [hwf.sendSmsToRil_eq] at h ⊢
  split at h
  · simp at h
  · next hservice =>
      obtain ⟨rfl, rfl, rfl⟩ : sender' = sender ∧ refId = w.msgRef64bit + 1 ∧
          domain = w.sendDomain p sender env i := by
        simpa using h
      have hcached := hwf.cached_handedOver sender' (w.sendDomain p sender' env i) i
      refine ⟨rfl, rfl, ?_⟩
      rw [if_neg hservice]
      simp only [Track.handOver, hcached]
      exact Function.update_self _ _ _

theorem toRil_resendDelivery {p : Platform} {w : SendWorld} (hwf : WellFormed w)
    (t : Track Origin) (o : Origin) {sender sender' : SenderId} {reencoded : Reencoded} {env : Env}
    {i : SmsSendIndexer} {refId : Nat} {domain : SmsDomain}
    (h : .toRil sender' refId domain ∈ (w.resendDelivery p sender reencoded env i).2) :
    sender' = sender ∧
      (∃ (w₁ : SendWorld) (j : SmsSendIndexer), domain = w₁.sendDomain p sender env j ∧
        j.isImsSmsForCdma = i.isImsSmsForCdma ∧ j.psResendCount = i.psResendCount) ∧
      (t.handOver origins (w.resendDelivery p sender reencoded env i).1
        (w.resendDelivery p sender reencoded env i).2 o).inFlight refId = some o := by
  unfold SendWorld.resendDelivery at h ⊢
  cases reencoded with
  | dropped => simp at h
  | failed => simp at h
  | encoded =>
      dsimp only at h ⊢
      split at h
      · next hgsm =>
          obtain ⟨hsender, hdomain, hflight⟩ :=
            toRil_sendSmsToRil (hwf.newCellFlag i.message) t o h
          rw [if_pos hgsm]
          exact ⟨hsender, ⟨_, _, hdomain, rfl, rfl⟩, hflight⟩
      · next hgsm =>
          obtain ⟨hsender, hdomain, hflight⟩ := toRil_sendSmsToRil hwf t o h
          rw [if_neg hgsm]
          exact ⟨hsender, ⟨_, _, hdomain, rfl, rfl⟩, hflight⟩

/-- A retry is handed over by the sender of the network the device is on. -/
theorem toRil_retriedSmsDelivery {p : Platform} {w : SendWorld} (hwf : WellFormed w)
    (t : Track Origin) (o : Origin) {slotId : Nat} {net : NetWorkType} {reencoded : Reencoded}
    {env : Env} {i : SmsSendIndexer} {sender : SenderId} {refId : Nat} {domain : SmsDomain}
    (hcdma : sender.kind = .cdma)
    (h : .toRil sender refId domain ∈ (w.retriedSmsDelivery p slotId net reencoded env i).2) :
    net = .cdma ∧
      (∃ (w₁ : SendWorld) (j : SmsSendIndexer), domain = w₁.sendDomain p sender env j ∧
        j.isImsSmsForCdma = i.isImsSmsForCdma ∧ j.psResendCount = i.psResendCount) ∧
      (t.handOver origins (w.retriedSmsDelivery p slotId net reencoded env i).1
        (w.retriedSmsDelivery p slotId net reencoded env i).2 o).inFlight refId = some o := by
  unfold SendWorld.retriedSmsDelivery at h ⊢
  by_cases hne : i.netWorkType ≠ net
  · simp only [if_pos hne] at h ⊢
    cases net with
    | unknown => simp at h
    | gsm =>
        obtain ⟨rfl, -, -⟩ := toRil_resendDelivery hwf t o h
        cases hcdma
    | cdma =>
        obtain ⟨rfl, hdomain, hflight⟩ := toRil_resendDelivery hwf t o h
        exact ⟨rfl, hdomain, hflight⟩
  · simp only [if_neg hne] at h ⊢
    cases net with
    | unknown => simp at h
    | gsm =>
        obtain ⟨rfl, -, -⟩ := toRil_sendSmsToRil hwf t o h
        cases hcdma
    | cdma =>
        obtain ⟨rfl, hdomain, hflight⟩ := toRil_sendSmsToRil hwf t o h
        exact ⟨rfl, ⟨_, _, hdomain, rfl, rfl⟩, hflight⟩

theorem toRil_splitStep {p : Platform} {w : SendWorld} (hwf : WellFormed w) (t : Track Origin)
    {message : Nat} {env : Env} {sender : SenderId} {refId : Nat} {domain : SmsDomain}
    (h : .toRil sender refId domain ∈ (w.splitStep p message env).2) :
    ∃ l, w.splits.find? (·.message = message) = some l ∧
      (∃ (w₁ : SendWorld) (flag : CellFlag),
        domain = w₁.sendDomain p sender env (l.indexer flag env)) ∧
      (t.handOver origins (w.splitStep p message env).1 (w.splitStep p message env).2
        ⟨l.kind, none⟩).inFlight refId = some ⟨l.kind, none⟩ := by
  unfold SendWorld.splitStep at h ⊢
  cases hfind : w.splits.find? (·.message = message) with
  | none => simp [hfind] at h
  | some l =>
      refine ⟨l, rfl, ?_⟩
      simp only [hfind] at h ⊢
      cases hcells : l.cells with
      | nil => simp [hcells] at h
      | cons cell cells =>
          simp only [hcells] at h ⊢
          cases hstep : SendWorld.cellStep l.kind cell with
          | stop => simp [hstep] at h
          | skip => simp [hstep] at h
          | failAndStop => simp [hstep] at h
          | failAndGoOn => simp [hstep] at h
          | send =>
              simp only [hstep] at h ⊢
              cases hflag : l.hasCellFailed with
              | none =>
                  simp only [hflag] at h ⊢
                  obtain ⟨rfl, hdomain, hflight⟩ := toRil_sendSmsToRil
                    ((hwf.newCellFlag message).setCells message cells) t ⟨l.kind, none⟩ h
                  exact ⟨⟨_, _, hdomain⟩, hflight⟩
              | some flag =>
                  simp only [hflag] at h ⊢
                  obtain ⟨rfl, hdomain, hflight⟩ := toRil_sendSmsToRil
                    (hwf.setCells message cells) t ⟨l.kind, none⟩ h
                  exact ⟨⟨_, _, hdomain⟩, hflight⟩

/-! ## Domain and format -/

theorem sendDomain_cdma (p : Platform) (w : SendWorld) {sender : SenderId}
    (hcdma : sender.kind = .cdma) (env : Env) (i : SmsSendIndexer) :
    w.sendDomain p sender env i = .ims ↔
      i.isImsSmsForCdma = true ∨ i.psResendCount < maxSendRetries := by
  simp only [SendWorld.sendDomain, hcdma]
  split
  · next h => simpa using h
  · next h => simpa using h

/-- A new cell always goes to IMS. -/
theorem formatFits_split_iff {domain : SmsDomain} {p : Platform} {w : SendWorld}
    {sender : SenderId} (hcdma : sender.kind = .cdma) {env : Env} {l : SplitLoop} {flag : CellFlag}
    (hdomain : domain = w.sendDomain p sender env (l.indexer flag env)) :
    FormatFits domain (Origin.format ⟨l.kind, none⟩) ↔
      l.kind ≠ .cdmaText ∧ l.kind ≠ .cdmaData := by
  have hims : domain = .ims := by
    rw [hdomain, sendDomain_cdma p w hcdma]
    exact .inr (show 0 < maxSendRetries by decide)
  rw [FormatFits, hims]
  cases hkind : l.kind <;> simp [Origin.format, SplitKind.format]

/-- Only a PDU of the loop over IMS for text that was never built anew is one of the
GSM encoder when the CDMA sender gets it again. -/
theorem format_retry_iff {i : SmsSendIndexer} {o : Origin} (h : Traced i o) :
    (o.retry .cdma i).format = .gsm ↔ i.isImsSmsForCdma = true ∧ o.rebuilt = none := by
  obtain ⟨hflag, hnet⟩ := h
  rw [hflag, decide_eq_true_eq, Origin.retry]
  obtain ⟨kind, rebuilt⟩ := o
  cases rebuilt with
  | some net =>
      simp only [Option.getD_some] at hnet
      cases net <;> simp [hnet, Origin.format]
  | none =>
      simp only [Option.getD_none] at hnet
      cases kind <;> simp [hnet, Origin.format, SplitKind.format, SplitKind.netWorkType]

theorem formatFits_retry_iff {domain : SmsDomain} {p : Platform} {w : SendWorld}
    {sender : SenderId} (hcdma : sender.kind = .cdma) {env : Env} {i j : SmsSendIndexer}
    {o : Origin} (h : Traced i o)
    (hdomain : domain = w.sendDomain p sender env j)
    (hflag : j.isImsSmsForCdma = i.isImsSmsForCdma)
    (hcount : j.psResendCount = i.psResendCount) :
    FormatFits domain (o.retry .cdma i).format ↔
      if i.isImsSmsForCdma then o.rebuilt = none else i.psResendCount ≥ maxSendRetries := by
  have hims := sendDomain_cdma p w hcdma env j
  rw [← hdomain, hflag, hcount] at hims
  rw [FormatFits, hims, format_retry_iff h]
  cases i.isImsSmsForCdma with
  | true => simp
  | false => simp

theorem toRil_notMem_response (p : Platform) (w : SendWorld) {sender : SenderId} {flag : Nat}
    {res : RilResponse} {now : Int} {sender' : SenderId} {refId : Nat} {domain : SmsDomain} :
    .toRil sender' refId domain ∉ (w.handleMessageResponse p sender flag res now).2 := by
  unfold SendWorld.handleMessageResponse
  cases w.cached flag with
  | none => simp
  | some i =>
      dsimp only
      split
      · unfold SendWorld.handleResend
        split
        · simp
        · simp [SendWorld.sendMessageFailed]
      · simp [SendWorld.sendMessageSucceed]

/-- In every run, a PDU that the CDMA sender hands over fits its domain exactly when
the state before the step says so. -/
theorem handOver_formatFits_iff (p : Platform) (events : List SendEvent) (e : SendEvent)
    (sender : SenderId) (refId : Nat) (domain : SmsDomain) (hcdma : sender.kind = .cdma)
    (hril : .toRil sender refId domain ∈ ((formatRun p events).1.step p e).2) :
    ∃ o, (formatRun p (events ++ [e])).2.inFlight refId = some o ∧
      (FormatFits domain o.format ↔ HandsOverFit (formatRun p events) e) := by
  have h := tracked_of_run (origins_follows p) (events.map (·, ()))
  have hrun : formatRun p (events ++ [e]) = trackedStep p origins (formatRun p events) (e, ()) := by
    simp only [formatRun, List.map_append, List.map_cons, List.map_nil, trackedRun_concat]
  rw [hrun]
  change Tracked Traced (formatRun p events).1 (formatRun p events).2 at h
  generalize formatRun p events = s at h hril
  obtain ⟨w, t⟩ := s
  cases e with
  | networkState sender ims inService => simp [SendWorld.step] at hril
  | imsSmsCfg sender enable => simp [SendWorld.step] at hril
  | textDelivery sender' tpduOk cells =>
      rcases w.textBasedSmsDelivery_cases sender' tpduOk cells with
        hcase | ⟨f, kind, ref, -, -, hcase⟩ <;>
        simp [SendWorld.step, hcase, SendWorld.refuse, SendWorld.startSplit] at hril
  | dataDelivery sender' tpduOk cells =>
      obtain ⟨f, hcase | ⟨kind, ref, pages, -, hcase⟩⟩ :=
        w.dataBasedSmsDelivery_cases sender' tpduOk cells <;>
        simp [SendWorld.step, hcase, SendWorld.refuse, SendWorld.startSplit] at hril
  | response sender' flag res now => exact absurd hril (toRil_notMem_response p w)
  | splitStep message env =>
      obtain ⟨l, hfind, ⟨w₁, flag, hdomain⟩, hflight⟩ := toRil_splitStep h.wellFormed t hril
      refine ⟨⟨l.kind, none⟩, ?_, ?_⟩
      · simp only [trackedStep, Track.step, SendWorld.step, hfind]
        exact hflight
      · rw [formatFits_split_iff hcdma hdomain]
        simp only [HandsOverFit, hfind, Option.some.injEq, exists_eq_left']
  | retry index net reencoded env =>
      simp only [SendWorld.step, SendWorld.deliverRetry] at hril
      cases hr : w.retries[index]? with
      | none => simp [hr] at hril
      | some r =>
          obtain ⟨o, ho, htraced⟩ := h.exists_queued hr
          simp only [hr] at hril
          obtain ⟨rfl, ⟨w₁, j, hdomain, hflag, hcount⟩, hflight⟩ := toRil_retriedSmsDelivery
            (h.wellFormed.eraseRetry index) { t with queued := t.queued.eraseIdx index }
            (o.retry net r.2) hcdma hril
          refine ⟨o.retry .cdma r.2, ?_, ?_⟩
          · simp only [trackedStep, Track.step, SendWorld.step, SendWorld.deliverRetry, hr, ho]
            exact hflight
          · rw [formatFits_retry_iff hcdma htraced hdomain hflag hcount]
            simp only [HandsOverFit]
            constructor
            · intro hfit
              exact ⟨r, o, hr, ho, hfit⟩
            · rintro ⟨r', o', hr', ho', hfit⟩
              obtain rfl : r = r' := Option.some.inj (hr.symm.trans hr')
              obtain rfl : o = o' := Option.some.inj (ho.symm.trans ho')
              exact hfit

/-- A text of two characters on a device without IMS. -/
def textWithoutIms : List SendEvent :=
  [.networkState ⟨0, .cdma⟩ false true, .textDelivery ⟨0, .cdma⟩ true [⟨2, true⟩]]

/-- The PDU of the CDMA encoder goes to IMS. -/
theorem handOver_cdma_over_ims :
    .toRil ⟨0, .cdma⟩ 1 .ims ∈ ((formatRun ⟨false, 4⟩ textWithoutIms).1.step ⟨false, 4⟩
        (.splitStep 0 ⟨0, false⟩)).2 ∧
      (formatRun ⟨false, 4⟩ (textWithoutIms ++ [.splitStep 0 ⟨0, false⟩])).2.inFlight 1 =
        some ⟨.cdmaText, none⟩ ∧
      Origin.format ⟨.cdmaText, none⟩ = .cdma ∧ ¬ FormatFits .ims .cdma := by
  refine ⟨by decide, rfl, rfl, ?_⟩
  simp [FormatFits]

def textOverIms : List SendEvent :=
  [.networkState ⟨0, .cdma⟩ true true, .textDelivery ⟨0, .cdma⟩ true [⟨2, true⟩]]

/-- A text that came in over IMS fits. -/
theorem handOver_formatFits_ims :
    ∃ o, (formatRun ⟨false, 4⟩ (textOverIms ++ [.splitStep 0 ⟨0, false⟩])).2.inFlight 1 = some o ∧
      FormatFits .ims o.format := by
  obtain ⟨o, ho, hfit⟩ := handOver_formatFits_iff ⟨false, 4⟩ textOverIms (.splitStep 0 ⟨0, false⟩)
    ⟨0, .cdma⟩ 1 .ims rfl (by decide)
  refine ⟨o, ho, hfit.mpr ?_⟩
  exact ⟨_, rfl, by decide, by decide⟩

end TelephonySms.Send
