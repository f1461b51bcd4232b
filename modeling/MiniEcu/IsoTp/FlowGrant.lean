import MiniEcu.IsoTp.Segmentation

/-!
# Clear to send, and nothing to receive

A flow control the driver refuses stays pending until the main function offers it again. Nothing
that ends a reception takes the pending flow control back, and the main function offers it before it
looks at the receiver's timer. So a peer can be told to go on although its message has been given
up. This happens in one kind of call only, which `Stale` describes.
-/

namespace MiniEcu.IsoTp

open Memory Trace

variable {σ ε : Type}

/-- The driver takes a flow control that tells the peer to go on. -/
def Event.Grants : Event ε → Prop
  | .sendFrame _ f true => f.pciType = pciTypeFc ∧ f.pciLow = fcStatusCts
  | _ => False

instance (e : Event ε) : Decidable e.Grants := by
  unfold Event.Grants
  split <;> infer_instance

/-- A message is being received, and part of it is missing. -/
def Link.Receives (l : Link) : Prop := l.rx.rxState = .receiving ∧ l.rx.rxOffset < l.rx.rxLength

instance (l : Link) : Decidable l.Receives := inferInstanceAs (Decidable (_ ∧ _))

/-- If the call lets the peer go on, the link is receiving when it returns. -/
def GrantsLive (app : App σ ε) (depth : Nat) (s : Link × σ) (i : Env × Call) : Prop :=
  (∃ e ∈ (call app depth s i).2, e.Grants) → (call app depth s i).1.1.Receives

/-- The main function finds a pending clear-to-send that the driver takes, and no reception that it
will let live. -/
def Stale (l : Link) (i : Env × Call) : Prop :=
  i.2 = .mainFunction ∧ l.rx.rxFcPending = true ∧ l.rx.rxFcStatus = fcStatusCts ∧
    i.1.driver 0 = true ∧
    (l.rx.rxState ≠ .receiving ∨
      l.cfg.nCrTimeoutMs ≤ elapsed (i.1.clock 0 % 2 ^ 32) l.rx.rxTimerStart)

/-! ### The sender grants nothing -/

/-- `w'` is `w` after events that tell the peer nothing. -/
def World.Withholds (w w' : World σ ε) : Prop :=
  w'.link.cfg = w.link.cfg ∧ ∃ es, w'.events = w.events ++ es ∧
    (TxInv w.link.cfg w.link.tx → (∀ e ∈ es, ¬ e.Grants) ∧ TxInv w.link.cfg w'.link.tx)

namespace World.Withholds

theorem refl (w : World σ ε) : w.Withholds w := ⟨rfl, [], by simp, fun h => ⟨nofun, h⟩⟩

theorem trans {u v w : World σ ε} (h₁ : u.Withholds v) (h₂ : v.Withholds w) : u.Withholds w := by
  obtain ⟨hcfg₁, es, hes, hkeep₁⟩ := h₁
  obtain ⟨hcfg₂, fs, hfs, hkeep₂⟩ := h₂
  refine ⟨hcfg₂.trans hcfg₁, es ++ fs, by rw [hfs, hes, List.append_assoc], ?_⟩
  intro htx
  obtain ⟨hnone₁, hinv₁⟩ := hkeep₁ htx
  rw [hcfg₁] at hkeep₂
  obtain ⟨hnone₂, hinv₂⟩ := hkeep₂ hinv₁
  exact ⟨List.forall_mem_append.mpr ⟨hnone₁, hnone₂⟩, hinv₂⟩

theorem of_events {w w' : World σ ε} {es : List (Event ε)} (hcfg : w'.link.cfg = w.link.cfg)
    (htx : w'.link.tx = w.link.tx) (hes : w'.events = w.events ++ es)
    (hnone : ∀ e ∈ es, ¬ e.Grants) : w.Withholds w' :=
  ⟨hcfg, es, hes, fun h => ⟨hnone, by rw [htx]; exact h⟩⟩

end World.Withholds

/-- The receiver is left alone besides. -/
def World.Spares (w w' : World σ ε) : Prop := w.Withholds w' ∧ w'.link.rx = w.link.rx

namespace World.Spares

theorem refl (w : World σ ε) : w.Spares w := ⟨.refl w, rfl⟩

theorem trans {u v w : World σ ε} (h₁ : u.Spares v) (h₂ : v.Spares w) : u.Spares w :=
  ⟨h₁.1.trans h₂.1, h₂.2.trans h₁.2⟩

theorem of_events {w w' : World σ ε} {es : List (Event ε)} (hlink : w'.link = w.link)
    (hes : w'.events = w.events ++ es) (hnone : ∀ e ∈ es, ¬ e.Grants) : w.Spares w' :=
  ⟨.of_events (by rw [hlink]) (by rw [hlink]) hes hnone, by rw [hlink]⟩

theorem of_tx {w w' : World σ ε} {es : List (Event ε)} (hmoves : w.Moves es w')
    (hstep : TxStep w.link.cfg w.link.tx es w'.link.tx)
    (hnone : TxInv w.link.cfg w.link.tx → ∀ e ∈ es, ¬ e.Grants) : w.Spares w' :=
  ⟨⟨hmoves.cfg, es, hmoves.events, fun h => ⟨hnone h, h.step hstep⟩⟩, hmoves.rx⟩

end World.Spares

theorem TxSide.Paced.grantsNone {t : TxSide} {pace : List (Event ε)} (h : t.Paced pace) :
    ∀ e ∈ pace, ¬ e.Grants := by
  cases h <;> simp [Event.Grants]

theorem Sending.grantsNone {cfg : Config} {t t' : TxSide} {es : List (Event ε)} (hinv : TxInv cfg t)
    (h : Sending cfg t es t') : ∀ e ∈ es, ¬ e.Grants := by
  have hfirst := t.pciType_first
  cases h with
  | firstRefused | singleSent | firstSent => simp [Event.Grants, hfirst]
  | tooEarly | unfinished => simp [Event.Grants]
  | cfRefused hs hpace | lastSent hs hpace | cfSent hs hpace | cfSentInBlock hs hpace
  | blockSent hs hpace =>
      have hcf := hinv.pciType_consecutive hs
      simpa [Event.Grants, hcf, or_imp, forall_and] using hpace.grantsNone

theorem TxStep.grantsNone {cfg : Config} {t t' : TxSide} {es : List (Event ε)} (hinv : TxInv cfg t)
    (h : TxStep cfg t es t') : ∀ e ∈ es, ¬ e.Grants := by
  cases h with
  | sending hsending => exact hsending.grantsNone hinv
  | _ => simp [Event.Grants]

theorem txClosed_spares : TxClosed (World.Spares (σ := σ) (ε := ε)) where
  refl := World.Spares.refl
  trans := World.Spares.trans
  settle _ _ := .of_events rfl rfl (by simp [Event.Grants])
  tx hmoves hstep _ := .of_tx hmoves hstep fun hinv => hstep.grantsNone hinv

/-! ### The receiver grants while it receives -/

/-- `w'` is `w` after events that let the peer go on only if the receiver now receives. -/
def World.Live (w w' : World σ ε) : Prop :=
  ∃ es, w'.events = w.events ++ es ∧
    ((∃ e ∈ es, e.Grants) → w'.link.rx.rxState = .receiving)

section Live

variable {app : App σ ε} {resubmit : Bytes → World σ ε → World σ ε} {w : World σ ε}
  (hinv : TxInv w.link.cfg w.link.tx)
include hinv

theorem World.Withholds.live {w' : World σ ε} (h : w.Withholds w') : w.Live w' := by
  obtain ⟨-, es, hes, hnone⟩ := h
  refine ⟨es, hes, fun hgrants => ?_⟩
  obtain ⟨e, he, hgrants⟩ := hgrants
  exact absurd hgrants ((hnone hinv).1 e he)

theorem World.Withholds.trans_live {u v : World σ ε} (h : w.Withholds u) (hlive : u.Live v) :
    w.Live v := by
  obtain ⟨-, es, hes, hnone⟩ := h
  obtain ⟨fs, hfs, hlive⟩ := hlive
  refine ⟨es ++ fs, by rw [hfs, hes, List.append_assoc], fun hgrants => hlive ?_⟩
  obtain ⟨e, he, hgrants⟩ := hgrants
  rcases List.mem_append.mp he with hold | hnew
  · exact absurd hgrants ((hnone hinv).1 e hold)
  · exact ⟨e, hnew, hgrants⟩

omit hinv in
theorem live_rxSendFlowControl {status : Nat}
    (h : status = 2 ∨ w.link.rx.rxState = .receiving) : w.Live (rxSendFlowControl status w) := by
  rw [rxSendFlowControl_eq]
  refine ⟨_, rfl, fun hgrants => ?_⟩
  obtain ⟨e, he, hgrants⟩ := hgrants
  rw [List.mem_singleton.mp he] at hgrants
  rcases h with rfl | hs
  · have hlow : (flowControlFrame 2 w.link.cfg.blockSize w.link.cfg.stMin).pciLow = 2 :=
      Frame.pciLow_padded (by decide) (by decide) _
    cases hacc : w.accepts with
    | false => simp [Event.Grants, hacc] at hgrants
    | true => simp [Event.Grants, hacc, hlow] at hgrants
  · cases hacc : w.accepts <;> exact hs

section Handlers

variable (hspares : ∀ m v, World.Spares v (resubmit m v))
include hspares

omit hinv in
theorem withholds_rxFinish (result : Result) (w : World σ ε) :
    w.Withholds (rxFinish app resubmit result w) := by
  refine .trans ?_ (txClosed_spares.react hspares _ _).1
  exact .of_events rfl rfl rfl (by simp [Event.Grants])

omit hinv in
variable (app) in
theorem withholds_interrupted (w : World σ ε) : w.Withholds (interrupted app resubmit w) := by
  unfold interrupted
  split
  · exact withholds_rxFinish hspares _ w
  · exact .refl w

theorem live_rxOnSingleFrame (data : Frame) (dlc : Nat) :
    w.Live (rxOnSingleFrame app resubmit data dlc w) := by
  rw [rxOnSingleFrame_eq]
  split
  · exact World.Withholds.live hinv (.refl w)
  · refine World.Withholds.live hinv ((withholds_interrupted app hspares w).trans ?_)
    refine .trans ?_ (withholds_rxFinish hspares _ _)
    exact .of_events rfl rfl rfl (by simp [Event.Grants])

theorem live_rxOnFirstFrame (data : Frame) (dlc : Nat) :
    w.Live (rxOnFirstFrame app resubmit data dlc w) := by
  rw [rxOnFirstFrame_eq]
  simp only []
  split
  · exact World.Withholds.live hinv (.refl w)
  have hinterrupted := withholds_interrupted app hspares w
  split
  · exact World.Withholds.trans_live hinv hinterrupted (live_rxSendFlowControl (.inl rfl))
  · refine World.Withholds.trans_live hinv (hinterrupted.trans ?_)
      (live_rxSendFlowControl (.inr rfl))
    exact .of_events rfl rfl (List.append_assoc _ [_] [_]) (by simp [Event.Grants])

theorem live_rxOnConsecutiveFrame (data : Frame) (dlc : Nat) :
    w.Live (rxOnConsecutiveFrame app resubmit data dlc w) := by
  rw [rxOnConsecutiveFrame_eq]
  split
  · exact World.Withholds.live hinv (.refl w)
  rename_i hnot
  have hs : w.link.rx.rxState = .receiving := not_not.mp hnot
  split
  · exact World.Withholds.live hinv (withholds_rxFinish hspares _ w)
  split
  · exact World.Withholds.live hinv (.refl w)
  have hstored : w.Withholds (storedCf (slice data.bytes 1 w.link.rx.chunk) w) :=
    .of_events rfl rfl (moves_storedCf _ w).events (by simp [Event.Grants])
  rw [afterStored]
  split
  · exact World.Withholds.live hinv (hstored.trans (withholds_rxFinish hspares _ _))
  split
  · have hcounted : ∀ (v : World σ ε) (r : RxSide),
        v.Withholds ((v.log (.counted 8 (v.link.rx.rxBlockCount + 1))).setRx r) :=
      fun v r => .of_events rfl rfl rfl (by simp [Event.Grants])
    split
    · exact World.Withholds.trans_live hinv (hstored.trans (hcounted _ _))
        (live_rxSendFlowControl (.inr hs))
    · exact World.Withholds.live hinv (hstored.trans (hcounted _ _))
  · exact World.Withholds.live hinv hstored

theorem live_rxFrame (hres : Resubmits resubmit) (data : Frame) (dlc : Nat) :
    w.Live (rxFrame app resubmit data dlc w) := by
  have hclear : w.link.tx.txState = .waitFc → 3 ≤ dlc → data.pciLow = 0 →
      w.Spares (clearedBy data w) := by
    intro hs _ _
    have hstep : TxStep (ε := ε) w.link.cfg w.link.tx _ _ :=
      .clearToSend data (w.env.clock w.reads) hs
    exact .of_tx ⟨rfl, rfl, rfl, rfl, rfl⟩ hstep fun hinv => hstep.grantsNone hinv
  unfold rxFrame
  split
  · exact World.Withholds.live hinv (.refl w)
  split
  · exact live_rxOnSingleFrame hinv hspares data dlc
  split
  · exact live_rxOnFirstFrame hinv hspares data dlc
  split
  · exact live_rxOnConsecutiveFrame hinv hspares data dlc
  split
  · exact World.Withholds.live hinv (txClosed_spares.txOnFlowControl hspares hres hclear).1
  · exact World.Withholds.live hinv (.refl w)

end Handlers

end Live

/-! ### The main function -/

/-- The retry of a pending flow control. -/
def retryFlowControl (w : World σ ε) : World σ ε :=
  if w.link.rx.rxFcPending then rxSendFlowControl w.link.rx.rxFcStatus w else w

/-- What the retry leaves alone. -/
structure Retried (w v : World σ ε) : Prop where
  cfg : v.link.cfg = w.link.cfg
  tx : v.link.tx = w.link.tx
  state : v.link.rx.rxState = w.link.rx.rxState
  timer : v.link.rx.rxTimerStart = w.link.rx.rxTimerStart
  now : v.now = w.now

theorem retried_retryFlowControl (w : World σ ε) : Retried w (retryFlowControl w) := by
  unfold retryFlowControl
  split
  · rw [rxSendFlowControl_eq]
    cases hacc : w.accepts <;> exact ⟨rfl, rfl, rfl, rfl, rfl⟩
  · exact ⟨rfl, rfl, rfl, rfl, rfl⟩

theorem grants_flowControl {status : Nat} (hstatus : status ≤ 2) (canId : Nat)
    (blockSize stMin : UInt8) (accepted : Bool) :
    (Event.sendFrame (ε := ε) canId (flowControlFrame status blockSize stMin) accepted).Grants ↔
      status = fcStatusCts ∧ accepted = true := by
  have htype : (flowControlFrame status blockSize stMin).pciType = 3 :=
    Frame.pciType_padded (by decide) (by omega) _
  have hlow : (flowControlFrame status blockSize stMin).pciLow = status :=
    Frame.pciLow_padded (by decide) (by omega) _
  cases accepted <;> simp [Event.Grants, htype, hlow]

theorem grants_retryFlowControl {w : World σ ε} (hstatus : w.link.rx.rxFcStatus ≤ 2) :
    ∃ es, (retryFlowControl w).events = w.events ++ es ∧
      ((∃ e ∈ es, e.Grants) ↔ w.link.rx.rxFcPending = true ∧ w.link.rx.rxFcStatus = fcStatusCts ∧
        w.accepts = true) := by
  unfold retryFlowControl
  split
  · rename_i hpending
    rw [rxSendFlowControl_eq]
    refine ⟨_, rfl, ?_⟩
    simp only [List.mem_singleton, exists_eq_left, grants_flowControl hstatus, hpending, true_and]
  · rename_i hnot
    exact ⟨[], by simp, by simp [hnot]⟩

section Main

variable {app : App σ ε} {resubmit : Bytes → World σ ε → World σ ε}
  (hspares : ∀ m v, World.Spares v (resubmit m v)) (hres : Resubmits resubmit)
include hspares hres

variable (app) in
theorem withholds_rxMainFunction (w : World σ ε) :
    (retryFlowControl w).Withholds (rxMainFunction app resubmit w) ∧
      ((rxMainFunction app resubmit w).link.rx.rxState = .receiving ↔
        w.link.rx.rxState = .receiving ∧
          ¬ w.link.cfg.nCrTimeoutMs ≤ elapsed w.now w.link.rx.rxTimerStart) := by
  obtain ⟨hcfg, htx, hstate, htimer, hnow⟩ := retried_retryFlowControl w
  have heq : rxMainFunction app resubmit w =
      if (retryFlowControl w).link.rx.rxState = .receiving then
        if (retryFlowControl w).link.cfg.nCrTimeoutMs ≤
            elapsed (retryFlowControl w).now (retryFlowControl w).link.rx.rxTimerStart then
          rxFinish app resubmit .errTimeoutCr (retryFlowControl w).tick
        else (retryFlowControl w).tick
      else retryFlowControl w := rfl
  rw [heq, hcfg, hnow, htimer, hstate]
  have htick := (txClosed_spares.tick (retryFlowControl w)).1
  by_cases hs : w.link.rx.rxState = .receiving
  · by_cases hexpired : w.link.cfg.nCrTimeoutMs ≤ elapsed w.now w.link.rx.rxTimerStart
    · rw [if_pos hs, if_pos hexpired]
      refine ⟨htick.trans (withholds_rxFinish hspares _ _), ?_⟩
      have hidle : (rxFinish app resubmit .errTimeoutCr (retryFlowControl w).tick).link.rx.rxState
          = .idle := by
        show (react resubmit _ _).link.rx.rxState = .idle
        rw [react_rx hres]
        rfl
      simp [hidle, hexpired]
    · rw [if_pos hs, if_neg hexpired]
      refine ⟨htick, ?_⟩
      rw [World.link_tick, hstate]
      exact ⟨fun h => ⟨h, hexpired⟩, fun h => h.1⟩
  · rw [if_neg hs]
    refine ⟨.refl _, ?_⟩
    rw [hstate]
    exact ⟨fun h => absurd h hs, fun h => h.1⟩

variable (app) in
theorem grants_mainFunction {w : World σ ε} (hinv : LinkInv w.link) :
    ∃ es, (mainFunction app resubmit w).events = w.events ++ es ∧
      ((∃ e ∈ es, e.Grants) ↔ w.link.rx.rxFcPending = true ∧ w.link.rx.rxFcStatus = fcStatusCts ∧
        w.accepts = true) ∧
      ((mainFunction app resubmit w).link.rx.rxState = .receiving ↔
        w.link.rx.rxState = .receiving ∧
          ¬ w.link.cfg.nCrTimeoutMs ≤ elapsed w.now w.link.rx.rxTimerStart) := by
  obtain ⟨es, hes, hgrants⟩ := grants_retryFlowControl hinv.rx.fcStatus
  obtain ⟨hwithholds, hreceiving⟩ := withholds_rxMainFunction app hspares hres w
  obtain ⟨htx, hrx⟩ := txClosed_spares.txMainFunction hspares hres (rxMainFunction app resubmit w)
  have hretried := retried_retryFlowControl w
  have hinv' : TxInv (retryFlowControl w).link.cfg (retryFlowControl w).link.tx := by
    rw [hretried.cfg, hretried.tx]
    exact hinv.tx
  obtain ⟨-, fs, hfs, hnone⟩ := hwithholds.trans htx
  refine ⟨es ++ fs, ?_, ?_, ?_⟩
  · rw [← List.append_assoc, ← hes]
    exact hfs
  · rw [← hgrants]
    constructor
    · intro h
      obtain ⟨e, he, hgrant⟩ := h
      rcases List.mem_append.mp he with hold | hnew
      · exact ⟨e, hold, hgrant⟩
      · exact absurd hgrant ((hnone hinv').1 e hnew)
    · intro h
      obtain ⟨e, he, hgrant⟩ := h
      exact ⟨e, List.mem_append_left _ he, hgrant⟩
  · show (txMainFunction app resubmit (rxMainFunction app resubmit w)).link.rx.rxState = _ ↔ _
    rw [hrx]
    exact hreceiving

end Main

/-! ### Every run -/

theorem receives_iff {l : Link} (hinv : LinkInv l) : l.Receives ↔ l.rx.rxState = .receiving :=
  ⟨fun h => h.1, fun h => ⟨h, (hinv.rx.underway h).fits.2.2.2⟩⟩

/-- A single call: it goes wrong exactly when it is a stale one. -/
theorem grantsLive_iff (app : App σ ε) (depth : Nat) {s : Link × σ} (hinv : LinkInv s.1)
    (i : Env × Call) : GrantsLive app depth s i ↔ ¬ Stale s.1 i := by
  have hafter : LinkInv (call app depth s i).1.1 := (hinv.after app depth (.call i.1 i.2)).1
  obtain ⟨env, c⟩ := i
  let w : World σ ε := { link := s.1, app := s.2, env }
  have hspares := txClosed_spares.nested app depth
  have hres := resubmits_nested app depth
  have hlive : ∀ w' : World σ ε, w.Live w' →
      ((∃ e ∈ w'.events, e.Grants) → w'.link.rx.rxState = .receiving) := by
    intro w' h
    obtain ⟨es, hes, hreceiving⟩ := h
    rw [hes]
    exact hreceiving
  rw [GrantsLive, receives_iff hafter]
  cases c with
  | transmit m =>
      have hnever : ¬ Stale s.1 (env, .transmit m) := fun h => Call.noConfusion h.1
      refine iff_of_true (hlive _ ?_) hnever
      exact World.Withholds.live hinv.tx (txClosed_spares.transmitWith hspares m w).1
  | rxFrame data dlc =>
      have hnever : ¬ Stale s.1 (env, .rxFrame data dlc) := fun h => Call.noConfusion h.1
      exact iff_of_true (hlive _ (live_rxFrame hinv.tx hspares hres data dlc)) hnever
  | mainFunction =>
      obtain ⟨es, hes, hgrants, hreceiving⟩ := grants_mainFunction app hspares hres (w := w) hinv
      have hevents : (call app depth s (env, .mainFunction)).2 = es := hes
      have hstate : (call app depth s (env, .mainFunction)).1.1.rx.rxState = .receiving ↔ _ := hreceiving
      rw [hevents, hgrants, hstate, Stale]
      constructor
      · intro hlive hstale
        obtain ⟨-, hpending, hstatus, haccepts, hdead⟩ := hstale
        obtain ⟨hs, hrunning⟩ := hlive ⟨hpending, hstatus, haccepts⟩
        exact hdead.elim (fun hidle => hidle hs) hrunning
      · intro hfresh hgranted
        obtain ⟨hpending, hstatus, haccepts⟩ := hgranted
        by_contra hdead
        refine hfresh ⟨rfl, hpending, hstatus, haccepts, ?_⟩
        by_cases hs : s.1.rx.rxState = .receiving
        · exact .inr (not_not.mp fun hrunning => hdead ⟨hs, hrunning⟩)
        · exact .inl hs

/-- A link never lets a peer go on with a message it does not receive, exactly if no call is
stale. -/
theorem grantsLive_run_iff (app : App σ ε) (depth : Nat) (cfg : Config) (a : σ)
    (calls : List (Env × Call)) :
    Along (call app depth) (GrantsLive app depth) (init cfg, a) calls ↔
      Along (call app depth) (fun s i => ¬ Stale s.1 i) (init cfg, a) calls :=
  along_iff (fun s : Link × σ => LinkInv s.1) (fun _ i hs => (hs.after app depth (.call i.1 i.2)).1)
    (fun _ i hs => grantsLive_iff app depth hs i) (linkInv_init cfg) calls

/-- Sixteen bytes of buffer on each side. -/
def grantConfig : Config where
  txId := 0x7E8
  rxId := 0x7E0
  rxBuffer := List.replicate 16 0
  txBuffer := List.replicate 16 0
  blockSize := 0
  stMin := 0
  nBsTimeoutMs := 0
  nCrTimeoutMs := 0

/-- The driver refuses the flow control for an FF, a CF with a wrong number ends the reception, and
the main function offers the flow control again. -/
def staleCalls : List (Env × Call) :=
  [(⟨fun _ => 0, fun _ => false⟩, .rxFrame (firstFrame 10 (List.replicate 6 0)) 8),
    (⟨fun _ => 0, fun _ => true⟩, .rxFrame (consecutiveFrame 5 (List.replicate 4 0)) 8),
    (⟨fun _ => 0, fun _ => true⟩, .mainFunction)]

theorem not_grantsLive_staleCalls :
    ¬ Along (call silent 0) (GrantsLive silent 0) (init grantConfig, ()) staleCalls := by
  have hgranted : ¬ GrantsLive silent 0
      (run (call silent 0) (init grantConfig, ()) (staleCalls.take 2)).1
      (⟨fun _ => 0, fun _ => true⟩, .mainFunction) := by
    unfold GrantsLive
    decide
  exact fun h => hgranted h.2.2.1

end MiniEcu.IsoTp
