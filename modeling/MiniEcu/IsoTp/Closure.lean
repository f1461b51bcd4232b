import MiniEcu.IsoTp.Functions

/-!
# What every call keeps

Many facts about a call are relations between the world before it and the world after it: which
events it added, which fields it left alone. Such a relation is checked here for the elementary
steps only, and then it holds of every function, however callbacks nest. `TxClosed` asks this of the
sender's steps and `Closed` of the receiver's as well. The step that answers a clear-to-send is an
assumption of its own where a frame is read, since a relation may depend on the frame.
-/

namespace MiniEcu.IsoTp

open Memory Trace World

variable {σ ε : Type}

/-- The relation is kept by the sender's steps and by what a callback does by itself. -/
structure TxClosed (R : World σ ε → World σ ε → Prop) : Prop where
  refl : ∀ w, R w w
  trans : ∀ {u v w}, R u v → R v w → R u w
  settle : ∀ w r, R w (w.settle r)
  tx : ∀ {w w' : World σ ε} {es : List (Event ε)}, w.Moves es w' →
    TxStep w.link.cfg w.link.tx es w'.link.tx →
    (w.link.tx.txState = .waitFc → w'.link.tx.txState ≠ .sendCf) → R w w'

/-- The relation is kept by the receiver's steps too. -/
structure Closed (R : World σ ε → World σ ε → Prop) : Prop extends TxClosed R where
  rx : ∀ {w w' : World σ ε} {es : List (Event ε)}, w.RxMoves es w' →
    RxStep w.link.cfg w.link.rx es w'.link.rx → R w w'

/-- The frame is a clear-to-send that the sender waits for. -/
def Clears (t : TxSide) (data : Frame) (dlc : Nat) : Prop :=
  t.txState = .waitFc ∧ 3 ≤ dlc ∧ dlc ≤ 8 ∧ data.pciType = pciTypeFc ∧ data.pciLow = fcStatusCts

instance (t : TxSide) (data : Frame) (dlc : Nat) : Decidable (Clears t data dlc) :=
  inferInstanceAs (Decidable (_ ∧ _))

/-- The state in which the sender starts on the block that the frame allows. -/
def clearedBy (data : Frame) (w : World σ ε) : World σ ε :=
  (w.setTx (w.link.tx.cleared (data.byte 1) (data.byte 2) (w.env.clock w.reads))).tick

theorem Sending.state {cfg : Config} {t t' : TxSide} {es : List (Event ε)}
    (h : Sending cfg t es t') : t.txState = .sendFirst ∨ t.txState = .sendCf := by
  cases h <;> simp [*]

/-! ### The sender -/

section Sender

variable {app : App σ ε} {resubmit : Bytes → World σ ε → World σ ε}
  {R : World σ ε → World σ ε → Prop} (hR : TxClosed R) (hkeep : ∀ m v, R v (resubmit m v))
include hR hkeep

theorem TxClosed.react (r : Reaction σ ε) (w : World σ ε) : R w (react resubmit r w) :=
  react_induction (fun m v hv => hR.trans hv (hkeep m v)) r (hR.settle w r)

theorem TxClosed.sends {w out : World σ ε} (h : Sends app resubmit w out) : R w out := by
  obtain ⟨es, w', hmoves, hsending, hout⟩ := h
  have hstep : R w w' := hR.tx hmoves (.sending hsending) fun hwait => by
    have hstate := hsending.state
    simp [hwait] at hstate
  rcases hout with rfl | ⟨clock, result, a, rfl, -⟩
  · exact hstep
  · exact hR.trans hstep (hR.react hkeep _ _)

theorem TxClosed.txFinish {w w' : World σ ε} (es : List (Event ε)) {result : Result}
    (hmoves : w.Moves es w')
    (hstep : TxStep w.link.cfg w.link.tx (es ++ [.txConfirmation result])
      { w'.link.tx with txState := .idle }) :
    R w (txFinish app resubmit result w') := by
  obtain ⟨clock, heq⟩ := txFinish_eq app resubmit w' result
  have hconfirmed : R w ((w'.setTx { w'.link.tx with txState := .idle }).log
      (.txConfirmation result)) := by
    refine hR.tx ⟨hmoves.cfg, hmoves.rx, hmoves.app, hmoves.env, ?_⟩ hstep (fun _ => by simp)
    simp [hmoves.events]
  rw [heq]
  exact hR.trans hconfirmed (hR.react hkeep _ _)

omit hkeep in
theorem TxClosed.tick (w : World σ ε) : R w w.tick :=
  hR.tx ⟨rfl, rfl, rfl, rfl, rfl⟩ (.notYet _) fun hwait => by simp [hwait]

theorem TxClosed.transmitWith (m : Bytes) (w : World σ ε) :
    R w (transmitWith app resubmit m w).2 := by
  rw [transmitWith_eq]
  split
  · rename_i hbad
    exact hR.tx ⟨rfl, rfl, rfl, rfl, rfl⟩ (.badParam m hbad) fun hwait => by simp [hwait]
  rename_i hgood
  simp only [not_or, Nat.not_lt] at hgood
  obtain ⟨hpos, hmax, hfit⟩ := hgood
  split
  · rename_i hbusy
    exact hR.tx ⟨rfl, rfl, rfl, rfl, rfl⟩ (.busy m hbusy) fun hwait => by simp [hwait]
  · rename_i hidle
    have haccepted : R w (accepted m w) := by
      refine hR.tx ⟨rfl, rfl, rfl, rfl, ?_⟩
        (.start m (w.env.clock w.reads) (not_not.mp hidle) hpos hmax hfit) (fun _ => nofun)
      simp [accepted]
    exact hR.trans haccepted (hR.sends hkeep (txSendFirst_spec app resubmit _ rfl))

omit hkeep in
theorem TxClosed.nested (app : App σ ε) (depth : Nat) (m : Bytes) (w : World σ ε) :
    R w (nested app depth m w) := by
  induction depth generalizing m w with
  | zero => exact hR.transmitWith (fun _ v => hR.refl v) m w
  | succ depth ih => exact hR.transmitWith ih m w

theorem TxClosed.txSendConsecutiveFrames (hres : Resubmits resubmit) (w : World σ ε) :
    R w (txSendConsecutiveFrames app resubmit w) := by
  refine txSendConsecutiveFrames_induction hR.refl hR.trans hres (fun v hs => ?_)
    (fun v hs hlen => ?_) w
  · exact hR.sends hkeep (txCfIteration_spec app resubmit v hs)
  · exact hR.tx ⟨rfl, rfl, rfl, rfl, rfl⟩ (.sending (.unfinished hs hlen)) fun hwait => by
      simp [hwait] at hs

theorem TxClosed.txCheckTimeout {w : World σ ε}
    (hs : w.link.tx.txState = .sendFirst ∨ w.link.tx.txState = .waitFc) :
    R w (txCheckTimeout app resubmit w) := by
  unfold IsoTp.txCheckTimeout
  split
  · rename_i hexpired
    exact hR.txFinish hkeep [.getTimeMs (w.env.clock w.reads)] ⟨rfl, rfl, rfl, rfl, rfl⟩
      (.timedOut _ hs hexpired)
  · exact hR.tick w

theorem TxClosed.txMainFunction (hres : Resubmits resubmit) (w : World σ ε) :
    R w (txMainFunction app resubmit w) := by
  unfold IsoTp.txMainFunction
  split
  · rename_i hs
    have hfirst := hR.sends hkeep (txSendFirst_spec app resubmit w hs)
    simp only []
    split
    · exact hfirst
    · rename_i hrefused
      refine hR.trans hfirst (hR.txCheckTimeout hkeep (.inl ?_))
      rw [txSendFirst_refused app resubmit hrefused]
      exact hs
  · rename_i hs
    exact hR.txCheckTimeout hkeep (.inr hs)
  · exact hR.txSendConsecutiveFrames hkeep hres w
  · exact hR.refl w

theorem TxClosed.txOnFlowControl (hres : Resubmits resubmit) {data : Frame} {dlc : Nat}
    {w : World σ ε}
    (hclear : w.link.tx.txState = .waitFc → 3 ≤ dlc → data.pciLow = 0 → R w (clearedBy data w)) :
    R w (txOnFlowControl app resubmit data dlc w) := by
  rw [txOnFlowControl_eq]
  by_cases hignored : w.link.tx.txState ≠ .waitFc ∨ dlc < 3
  · rw [if_pos hignored]
    exact hR.refl w
  rw [if_neg hignored]
  simp only [not_or, not_not, Nat.not_lt] at hignored
  obtain ⟨hs, hdlc⟩ := hignored
  have hstay : w.Moves [] w := ⟨rfl, rfl, rfl, rfl, by simp⟩
  split
  · rename_i hcts
    exact hR.trans (hclear hs hdlc hcts) (hR.txSendConsecutiveFrames hkeep hres _)
  split
  · split
    · rename_i hover
      exact hR.txFinish hkeep [.counted 8 (w.link.tx.txWaitCount + 1)]
        ⟨rfl, rfl, rfl, rfl, rfl⟩ (.waitOverrun hs hover)
    · rename_i hle
      refine hR.tx ⟨rfl, rfl, rfl, rfl, ?_⟩
        (.wait (w.env.clock w.reads) hs (Nat.le_of_not_lt hle)) (fun _ => by simp [hs])
      simp
  split
  · exact hR.txFinish hkeep [] hstay (.flowAborted .errOverflow hs (.inl rfl))
  · exact hR.txFinish hkeep [] hstay (.flowAborted .errInvalidFs hs (.inr rfl))

end Sender

theorem rxFrame_cts (app : App σ ε) (resubmit : Bytes → World σ ε → World σ ε) {data : Frame}
    {dlc : Nat} {w : World σ ε} (h : Clears w.link.tx data dlc) :
    rxFrame app resubmit data dlc w
      = txSendConsecutiveFrames app resubmit (clearedBy data w) := by
  obtain ⟨hs, hmin, hmax, htype, hlow⟩ := h
  have hframe : rxFrame app resubmit data dlc w = txOnFlowControl app resubmit data dlc w := by
    have hdlc : ¬ (dlc = 0 ∨ canDl < dlc) := by simp only [canDl]; omega
    simp [rxFrame, hdlc, htype]
  have hread : ¬ (w.link.tx.txState ≠ .waitFc ∨ dlc < 3) := by
    rintro (hne | hlt)
    · exact hne hs
    · omega
  rw [hframe, txOnFlowControl_eq, if_neg hread, if_pos hlow]
  rfl

/-! ### The receiver -/

section Receiver

variable {app : App σ ε} {resubmit : Bytes → World σ ε → World σ ε}
  {R : World σ ε → World σ ε → Prop} (hR : Closed R) (hkeep : ∀ m v, R v (resubmit m v))
include hR hkeep

theorem Closed.rxFinish {w w' : World σ ε} (es : List (Event ε)) {result : Result}
    (hmoves : w.RxMoves es w')
    (hstep : RxStep w.link.cfg w.link.rx
      (es ++ [.rxIndication
        (w'.link.rx.rxBuffer.take (if result = .ok then w'.link.rx.rxLength else w'.link.rx.rxOffset))
        result])
      { w'.link.rx with rxState := .idle }) :
    R w (rxFinish app resubmit result w') := by
  have hindicated : R w ((w'.setRx { w'.link.rx with rxState := .idle }).log (.rxIndication
      (w'.link.rx.rxBuffer.take (if result = .ok then w'.link.rx.rxLength else w'.link.rx.rxOffset))
      result)) := by
    refine hR.rx ⟨hmoves.cfg, hmoves.tx, hmoves.app, hmoves.env, ?_⟩ hstep
    simp [hmoves.events]
  exact hR.trans hindicated (hR.react hkeep _ _)

omit hkeep in
theorem Closed.rxSendFlowControl {status : Nat} {w : World σ ε}
    (h : status ≤ 2 ∨ status = w.link.rx.rxFcStatus) : R w (rxSendFlowControl status w) := by
  rw [rxSendFlowControl_eq]
  exact hR.rx ⟨rfl, rfl, rfl, rfl, rfl⟩ (.flowControl status w.accepts h)

omit hkeep in
theorem Closed.answer {w v : World σ ε} {status : Nat} (h : R w v) (hstatus : status ≤ 2) :
    R w (IsoTp.rxSendFlowControl status v) :=
  hR.trans h (hR.rxSendFlowControl (.inl hstatus))

variable (app) in
theorem Closed.interrupted (w : World σ ε) : R w (interrupted app resubmit w) := by
  unfold IsoTp.interrupted
  split
  · rename_i hs
    exact hR.rxFinish hkeep [] ⟨rfl, rfl, rfl, rfl, by simp⟩ (.aborted .errUnexpPdu hs (.inl rfl))
  · exact hR.refl w

variable (hres : Resubmits resubmit)
include hres

theorem Closed.rxOnSingleFrame (data : Frame) (dlc : Nat) (w : World σ ε) :
    R w (rxOnSingleFrame app resubmit data dlc w) := by
  rw [rxOnSingleFrame_eq]
  split
  · exact hR.refl w
  rename_i hgood
  simp only [not_or, Nat.not_lt] at hgood
  obtain ⟨hpos, hmax, -, hfit⟩ := hgood
  have hlen := length_slice_payload (f := data) hmax
  have hcfg := interrupted_cfg app hres w
  have hrx := interrupted_rx app hres w
  have hstep : RxStep (IsoTp.interrupted app resubmit w).link.cfg
      (IsoTp.interrupted app resubmit w).link.rx _ _ :=
    .single (ε := ε) (slice data.bytes 1 data.pciLow) (by rw [hrx]) (by rwa [hlen]) (by rwa [hlen])
      (by rwa [hlen, hcfg])
  refine hR.trans (hR.interrupted app hkeep w)
    (hR.rxFinish hkeep [.rxWrite 0 data.pciLow] ⟨rfl, rfl, rfl, rfl, rfl⟩ ?_)
  simp only [RxSide.delivered, hlen, hrx] at hstep
  simpa [hrx] using hstep

theorem Closed.rxOnFirstFrame (data : Frame) (dlc : Nat) (w : World σ ε) :
    R w (rxOnFirstFrame app resubmit data dlc w) := by
  rw [rxOnFirstFrame_eq]
  simp only []
  split
  · exact hR.refl w
  rename_i hgood
  have hrx := interrupted_rx app hres w
  apply hR.trans (hR.interrupted app hkeep w)
  split
  · exact hR.rxSendFlowControl (.inl (Nat.le_refl 2))
  rename_i hfit
  have hidle : (IsoTp.interrupted app resubmit w).link.rx.rxState = .idle := by rw [hrx]
  have hlen : (slice data.bytes 2 6).length = 6 := length_slice (by simp [data.length_bytes])
  refine hR.answer (hR.rx ⟨rfl, rfl, rfl, rfl, ?_⟩ (.first _ _ _ hidle (by omega)
    data.ffLength_le (Nat.le_of_not_lt hfit) hlen)) (Nat.zero_le 2)
  simp

omit hres in
theorem Closed.afterStored {w : World σ ε} (hs : w.link.rx.rxState = .receiving) {data : Bytes}
    (hdata : data.length = w.link.rx.chunk) :
    R w (afterStored app resubmit (storedCf data w)) := by
  have hmoves := moves_storedCf data w
  rw [IsoTp.afterStored]
  split
  · rename_i hend
    exact hR.rxFinish hkeep _ hmoves (.last hs _ _ hdata hend)
  rename_i hmore
  have hmore := Nat.lt_of_not_le hmore
  split
  · rename_i hblock
    split
    · rename_i hcount
      refine hR.answer (hR.rx ⟨rfl, rfl, rfl, rfl, ?_⟩
        (.block hs _ (w.env.clock w.reads) hdata hmore hblock hcount)) (Nat.zero_le 2)
      simp [storedCf, RxSide.advance]
    · rename_i hcount
      refine hR.rx ⟨rfl, rfl, rfl, rfl, ?_⟩
        (.moreInBlock hs _ (w.env.clock w.reads) hdata hmore (Nat.lt_of_not_le hcount))
      simp [storedCf, RxSide.advance]
  · rename_i hblock
    exact hR.rx hmoves (.more hs _ _ hdata hmore (not_not.mp hblock))

omit hres in
theorem Closed.rxOnConsecutiveFrame (data : Frame) (dlc : Nat) (w : World σ ε) :
    R w (rxOnConsecutiveFrame app resubmit data dlc w) := by
  rw [rxOnConsecutiveFrame_eq]
  split
  · exact hR.refl w
  rename_i hnot
  have hs : w.link.rx.rxState = .receiving := not_not.mp hnot
  split
  · exact hR.rxFinish hkeep [] ⟨rfl, rfl, rfl, rfl, by simp⟩ (.aborted .errWrongSn hs (.inr rfl))
  split
  · exact hR.refl w
  · exact hR.afterStored hkeep hs (length_slice_payload w.link.rx.chunk_le)

theorem Closed.rxFrame {data : Frame} {dlc : Nat} {w : World σ ε}
    (hclear : Clears w.link.tx data dlc → R w (clearedBy data w)) :
    R w (rxFrame app resubmit data dlc w) := by
  unfold IsoTp.rxFrame
  split
  · exact hR.refl w
  rename_i hdlc
  simp only [canDl, not_or, Nat.not_lt] at hdlc
  split
  · exact hR.rxOnSingleFrame hkeep hres data dlc w
  split
  · exact hR.rxOnFirstFrame hkeep hres data dlc w
  split
  · exact hR.rxOnConsecutiveFrame hkeep data dlc w
  split
  · rename_i htype
    exact hR.txOnFlowControl hkeep hres fun hs hmin hlow => hclear ⟨hs, hmin, hdlc.2, htype, hlow⟩
  · exact hR.refl w

omit hres in
theorem Closed.rxMainFunction (w : World σ ε) : R w (rxMainFunction app resubmit w) := by
  have hretry : R w
      (if w.link.rx.rxFcPending then IsoTp.rxSendFlowControl w.link.rx.rxFcStatus w else w) := by
    split
    · exact hR.rxSendFlowControl (.inr rfl)
    · exact hR.refl w
  apply hR.trans hretry
  unfold IsoTp.rxMainFunction
  generalize
    (if w.link.rx.rxFcPending then IsoTp.rxSendFlowControl w.link.rx.rxFcStatus w else w) = v
  simp only []
  split
  · rename_i hs
    split
    · rename_i hexpired
      exact hR.rxFinish hkeep [.getTimeMs (v.env.clock v.reads)] ⟨rfl, rfl, rfl, rfl, rfl⟩
        (.timedOut _ hs hexpired)
    · exact hR.tick v
  · exact hR.refl v

theorem Closed.mainFunction (w : World σ ε) : R w (mainFunction app resubmit w) :=
  hR.trans (hR.rxMainFunction hkeep w) (hR.txMainFunction hkeep hres _)

end Receiver

end MiniEcu.IsoTp
