import MiniEcu.IsoTp.Segmentation

/-!
# A link whose application only takes note

With callbacks that do nothing, a call is a plain function of the link. The receiver's functions are
then the equations of `Refinement` without the callback, and the sender's part of every call is a
run of `Sending` steps that leaves the receiver alone.
-/

namespace MiniEcu.IsoTp

open Memory Trace

variable {resubmit : Bytes → World Unit Empty → World Unit Empty}

theorem react_silent (w : World Unit Empty) : react resubmit { app := () } w = w := by
  simp [react, World.settle]

theorem txFinish_silent (result : Result) (w : World Unit Empty) :
    txFinish silent resubmit result w
      = (w.setTx { w.link.tx with txState := .idle }).log (.txConfirmation result) :=
  react_silent _

theorem rxFinish_silent (result : Result) (w : World Unit Empty) :
    rxFinish silent resubmit result w
      = (w.setRx { w.link.rx with rxState := .idle }).log (.rxIndication
          (w.link.rx.rxBuffer.take
            (if result = .ok then w.link.rx.rxLength else w.link.rx.rxOffset)) result) :=
  react_silent _

/-! ### The sender -/

/-- `w'` is `w` after steps the sender takes by itself. -/
structure World.Transmits (w w' : World Unit Empty) : Prop where
  cfg : w'.link.cfg = w.link.cfg
  rx : w'.link.rx = w.link.rx
  env : w'.env = w.env
  steps : ∃ es, w'.events = w.events ++ es ∧ Steps (Sending w.link.cfg) w.link.tx es w'.link.tx

namespace World.Transmits

theorem refl (w : World Unit Empty) : w.Transmits w := ⟨rfl, rfl, rfl, [], by simp, .refl _⟩

theorem trans {u v w : World Unit Empty} (h₁ : u.Transmits v) (h₂ : v.Transmits w) :
    u.Transmits w := by
  obtain ⟨hcfg₁, hrx₁, henv₁, es, hes, hsteps₁⟩ := h₁
  obtain ⟨hcfg₂, hrx₂, henv₂, fs, hfs, hsteps₂⟩ := h₂
  refine ⟨hcfg₂.trans hcfg₁, hrx₂.trans hrx₁, henv₂.trans henv₁, es ++ fs, ?_, ?_⟩
  · rw [hfs, hes, List.append_assoc]
  · rw [hcfg₁] at hsteps₂
    exact hsteps₁.trans hsteps₂

theorem of_sends {w out : World Unit Empty} (h : Sends silent resubmit w out) :
    w.Transmits out := by
  obtain ⟨es, w', hmoves, hsending, hout⟩ := h
  have heq : out = w' := by
    rcases hout with rfl | ⟨clock, result, a, rfl, -⟩
    · rfl
    · exact react_silent w'
  subst heq
  exact ⟨hmoves.cfg, hmoves.rx, hmoves.env, es, hmoves.events, .single hsending⟩

end World.Transmits

theorem transmits_txSendConsecutiveFrames (hres : Resubmits resubmit) (w : World Unit Empty) :
    w.Transmits (txSendConsecutiveFrames silent resubmit w) := by
  refine txSendConsecutiveFrames_induction World.Transmits.refl World.Transmits.trans hres
    (fun v hs => ?_) (fun v hs hlen => ?_) w
  · exact .of_sends (txCfIteration_spec silent resubmit v hs)
  · exact ⟨rfl, rfl, rfl, _, rfl, .single (.unfinished hs hlen)⟩

/-- `IsoTp_Transmit` rejects a message without touching the link, or takes it and sends. -/
theorem transmit_silent (m : Bytes) (w : World Unit Empty) :
    (∃ result, result ≠ .ok ∧
      (transmitWith silent resubmit m w).2 = w.log (.transmit m result)) ∨
    (w.link.tx.txState = .idle ∧ m.length ≠ 0 ∧ m.length ≤ 4095 ∧
      m.length ≤ w.link.cfg.txBufferSize ∧
      (accepted m w).Transmits (transmitWith silent resubmit m w).2) := by
  rw [transmitWith_eq]
  split
  · exact .inl ⟨.errParam, by decide, rfl⟩
  rename_i hgood
  simp only [not_or, Nat.not_lt] at hgood
  split
  · exact .inl ⟨.errBusy, by decide, rfl⟩
  · rename_i hidle
    exact .inr ⟨not_not.mp hidle, hgood.1, hgood.2.1, hgood.2.2,
      .of_sends (txSendFirst_spec silent resubmit _ rfl)⟩

/-- A flow control is ignored, lets the sender go on, or tells it to wait or to give up. -/
inductive ReadsFlowControl (data : Frame) (w : World Unit Empty) : World Unit Empty → Prop
  | ignored : ReadsFlowControl data w w
  | cleared {w' : World Unit Empty} (hs : w.link.tx.txState = .waitFc) (hcts : data.pciLow = 0)
      (h : (w.setTx (w.link.tx.cleared (data.byte 1) (data.byte 2)
        (w.env.clock w.reads))).tick.Transmits w') : ReadsFlowControl data w w'
  | other {w' : World Unit Empty} (hcts : data.pciLow ≠ 0) (hs : w.link.tx.txState = .waitFc)
      (es : List (Event Empty)) (t : TxSide) (hcfg : w'.link.cfg = w.link.cfg)
      (hrx : w'.link.rx = w.link.rx) (htx : w'.link.tx = t) (hevents : w'.events = w.events ++ es)
      (hstep : TxStep w.link.cfg w.link.tx es t) : ReadsFlowControl data w w'

theorem txOnFlowControl_silent (hres : Resubmits resubmit) (data : Frame) (dlc : Nat)
    (w : World Unit Empty) :
    ReadsFlowControl data w (txOnFlowControl silent resubmit data dlc w) := by
  rw [txOnFlowControl_eq]
  by_cases hignored : w.link.tx.txState ≠ .waitFc ∨ dlc < 3
  · rw [if_pos hignored]
    exact .ignored
  have hs : w.link.tx.txState = .waitFc := by
    by_contra hne
    exact hignored (.inl hne)
  rw [if_neg hignored]
  by_cases hcts : data.pciLow = 0
  · rw [if_pos hcts]
    exact .cleared hs hcts (transmits_txSendConsecutiveFrames hres _)
  rw [if_neg hcts]
  by_cases hwait : data.pciLow = 1
  · rw [if_pos hwait]
    by_cases hover : maxWft < w.link.tx.nextWaitCount
    · rw [if_pos hover, txFinish_silent]
      exact .other hcts hs _ _ rfl rfl rfl (by simp) (.waitOverrun hs hover)
    · rw [if_neg hover]
      exact .other hcts hs _ _ rfl rfl rfl (by simp)
        (.wait (w.env.clock w.reads) hs (Nat.le_of_not_lt hover))
  rw [if_neg hwait, txFinish_silent, txFinish_silent]
  split
  · exact .other hcts hs _ _ rfl rfl rfl rfl (.flowAborted .errOverflow hs (.inl rfl))
  · exact .other hcts hs _ _ rfl rfl rfl rfl (.flowAborted .errInvalidFs hs (.inr rfl))

theorem rxFrame_flowControl {data : Frame} {dlc : Nat} (hdlc : ¬ (dlc = 0 ∨ 8 < dlc))
    (htype : data.pciType = 3) (w : World Unit Empty) :
    rxFrame silent resubmit data dlc w = txOnFlowControl silent resubmit data dlc w := by
  simp [rxFrame, hdlc, htype]

/-- The N_Bs check of a call of `IsoTp_MainFunction` that reaches the sender in the state `w` would
give the transmission up. -/
def World.TxExpired (w : World Unit Empty) : Prop :=
  (w.link.tx.txState = .sendFirst ∧ w.accepts = false ∨ w.link.tx.txState = .waitFc) ∧
    w.link.cfg.nBsTimeoutMs ≤ elapsed w.now w.link.tx.txTimerStart

instance (w : World Unit Empty) : Decidable w.TxExpired := inferInstanceAs (Decidable (_ ∧ _))

/-- The sender's part of `IsoTp_MainFunction`: it sends, and reads the clock at most once more,
unless N_Bs has expired. -/
theorem txMainFunction_silent (hres : Resubmits resubmit) (w : World Unit Empty) :
    ∃ v, w.Transmits v ∧
      (txMainFunction silent resubmit w = v ∨ txMainFunction silent resubmit w = v.tick ∨
        w.TxExpired ∧ v.link.tx = w.link.tx ∧
          txMainFunction silent resubmit w = txFinish silent resubmit .errTimeoutBs v.tick) := by
  unfold txMainFunction
  split
  · rename_i hs
    refine ⟨_, .of_sends (txSendFirst_spec silent resubmit w hs), ?_⟩
    simp only []
    split
    · exact .inl rfl
    rename_i hrefused
    rw [txSendFirst_refused silent resubmit hrefused, txCheckTimeout]
    split
    · rename_i hexpired
      have haccepts : w.accepts = false := by
        by_contra htrue
        rw [txSendFirst_eq] at hrefused
        simp [htrue] at hrefused
      exact .inr (.inr ⟨⟨.inl ⟨hs, haccepts⟩, hexpired⟩, rfl, rfl⟩)
    · exact .inr (.inl rfl)
  · rename_i hs
    refine ⟨w, .refl w, ?_⟩
    rw [txCheckTimeout]
    split
    · rename_i hexpired
      exact .inr (.inr ⟨⟨.inr hs, hexpired⟩, rfl, rfl⟩)
    · exact .inr (.inl rfl)
  · exact ⟨_, transmits_txSendConsecutiveFrames hres w, .inl rfl⟩
  · exact ⟨w, .refl w, .inl rfl⟩

/-! ### The receiver in the main function -/

/-- The N_Cr check of a call of `IsoTp_MainFunction` that starts in the state `w` gives the
reception up. -/
def World.RxExpired (w : World Unit Empty) : Prop :=
  w.link.rx.rxState = .receiving ∧ w.link.cfg.nCrTimeoutMs ≤ elapsed w.now w.link.rx.rxTimerStart

instance (w : World Unit Empty) : Decidable w.RxExpired := inferInstanceAs (Decidable (_ ∧ _))

/-- A pending flow control is offered to the driver again. -/
def retried (w : World Unit Empty) : World Unit Empty :=
  if w.link.rx.rxFcPending then rxSendFlowControl w.link.rx.rxFcStatus w else w

theorem retried_eq (w : World Unit Empty) :
    retried w = w ∧ w.link.rx.rxFcPending = false ∨
      w.link.rx.rxFcPending = true ∧ retried w =
        (w.sendFrame (flowControlFrame w.link.rx.rxFcStatus w.link.cfg.blockSize
          w.link.cfg.stMin)).setRx (w.link.rx.answered w.link.rx.rxFcStatus w.accepts) := by
  unfold retried
  split
  · rename_i hpending
    exact .inr ⟨hpending, rxSendFlowControl_eq _ _⟩
  · rename_i hpending
    exact .inl ⟨rfl, Bool.eq_false_iff.mpr hpending⟩

variable (resubmit) in
theorem rxMainFunction_retried (w : World Unit Empty) :
    rxMainFunction silent resubmit w =
      if (retried w).link.rx.rxState = .receiving then
        if (retried w).link.cfg.nCrTimeoutMs ≤
            elapsed (retried w).now (retried w).link.rx.rxTimerStart then
          rxFinish silent resubmit .errTimeoutCr (retried w).tick
        else (retried w).tick
      else retried w := rfl

variable (resubmit) in
/-- The receiver's part of `IsoTp_MainFunction`: it retries, and reads the clock at most once,
unless N_Cr has expired. -/
theorem rxMainFunction_silent (w : World Unit Empty) :
    (¬ w.RxExpired ∧ (rxMainFunction silent resubmit w = retried w ∨
      rxMainFunction silent resubmit w = (retried w).tick)) ∨
    (w.RxExpired ∧ rxMainFunction silent resubmit w
      = rxFinish silent resubmit .errTimeoutCr (retried w).tick) := by
  have hsame : (retried w).link.rx.rxState = w.link.rx.rxState ∧
      (retried w).link.rx.rxTimerStart = w.link.rx.rxTimerStart ∧
      (retried w).link.cfg = w.link.cfg ∧ (retried w).now = w.now := by
    rcases retried_eq w with ⟨heq, -⟩ | ⟨-, heq⟩
    · rw [heq]
      exact ⟨rfl, rfl, rfl, rfl⟩
    · rw [heq]
      cases hacc : w.accepts <;> exact ⟨rfl, rfl, rfl, rfl⟩
  obtain ⟨hstate, htimer, hcfg, hnow⟩ := hsame
  rw [rxMainFunction_retried, hstate, htimer, hcfg, hnow, World.RxExpired]
  by_cases hs : w.link.rx.rxState = .receiving
  · by_cases hexpired : w.link.cfg.nCrTimeoutMs ≤ elapsed w.now w.link.rx.rxTimerStart
    · rw [if_pos hs, if_pos hexpired]
      exact .inr ⟨⟨hs, hexpired⟩, rfl⟩
    · rw [if_pos hs, if_neg hexpired]
      exact .inl ⟨fun h => hexpired h.2, .inr rfl⟩
  · rw [if_neg hs]
    exact .inl ⟨fun h => hs h.1, .inl rfl⟩

end MiniEcu.IsoTp
