import MiniEcu.IsoTp.Assembly

/-!
# One outcome for every transfer

A message that `IsoTp_Transmit` has taken is confirmed once, and a reception is indicated once,
whatever arrives, however the driver and the clock behave, and whatever the callbacks transmit. The
sender's half is a count that every elementary step balances. The receiver's half is a monitor over
what each call says about receptions: that one starts, that one ends, or that a single frame is
delivered.
-/

namespace MiniEcu.IsoTp

open Memory Trace World

variable {σ ε : Type}

/-! ### Transmissions -/

/-- `IsoTp_Transmit` returned `ISOTP_OK`. -/
def Event.accepts : Event ε → Bool
  | .transmit _ .ok => true
  | _ => false

def Event.confirms : Event ε → Bool
  | .txConfirmation _ => true
  | _ => false

def TxSide.inProgress (t : TxSide) : Nat := if t.txState = .idle then 0 else 1

theorem counts_of_neither {es : List (Event ε)} (h : ∀ e ∈ es, e.accepts = false ∧ e.confirms = false) :
    es.countP Event.accepts = 0 ∧ es.countP Event.confirms = 0 := by
  simp only [List.countP_eq_zero]
  exact ⟨fun e he => by simp [h e he], fun e he => by simp [h e he]⟩

theorem TxSide.Paced.counts {t : TxSide} {pace : List (Event ε)} (h : t.Paced pace) :
    pace.countP Event.accepts = 0 ∧ pace.countP Event.confirms = 0 := by
  cases h <;> exact ⟨rfl, rfl⟩

/-- A step of the sender confirms what it ends and starts what it accepts. -/
theorem TxStep.balance {cfg : Config} {t t' : TxSide} {es : List (Event ε)} (h : TxStep cfg t es t') :
    es.countP Event.confirms + t'.inProgress = es.countP Event.accepts + t.inProgress := by
  cases h with
  | sending hsending =>
      cases hsending with
      | firstRefused hs | tooEarly hs | unfinished hs =>
          simp [Event.accepts, Event.confirms]
      | singleSent hs | firstSent hs =>
          simp [Event.accepts, Event.confirms, List.countP_cons, TxSide.inProgress,
            TxSide.afterFirst, hs]
      | cfRefused hs hpace | lastSent hs hpace | cfSent hs hpace | cfSentInBlock hs hpace
      | blockSent hs hpace =>
          obtain ⟨haccepts, hconfirms⟩ := hpace.counts
          simp [Event.accepts, Event.confirms, List.countP_cons, List.countP_append,
            TxSide.inProgress, TxSide.advance, haccepts, hconfirms, hs]
  | badParam m _ | busy m _ | notYet => simp [Event.accepts, Event.confirms]
  | start m time hidle =>
      simp [Event.accepts, Event.confirms, List.countP_cons, TxSide.inProgress, TxSide.started, hidle]
  | clearToSend data time hs | wait time hs | waitOverrun hs | flowAborted result hs =>
      simp [Event.accepts, Event.confirms, List.countP_cons, TxSide.inProgress, TxSide.cleared, hs]
  | timedOut time hs _ =>
      rcases hs with hs | hs <;>
        simp [Event.accepts, Event.confirms, List.countP_cons, TxSide.inProgress, hs]

theorem RxStep.counts {cfg : Config} {r r' : RxSide} {es : List (Event ε)} (h : RxStep cfg r es r') :
    es.countP Event.accepts = 0 ∧ es.countP Event.confirms = 0 := by
  cases h <;> exact ⟨rfl, rfl⟩

/-- As many confirmations as acceptances, but for the transmission in progress. -/
def Balanced (l : Link) (tr : List (Event ε)) : Prop :=
  tr.countP Event.confirms + l.tx.inProgress = tr.countP Event.accepts

theorem Balanced.step {s s' : Link × σ} {tr es : List (Event ε)} (h : Balanced s.1 tr)
    (hstep : LinkStep s es s') : Balanced s'.1 (tr ++ es) := by
  unfold Balanced at h ⊢
  rw [List.countP_append, List.countP_append]
  cases hstep with
  | tx htx =>
      have hbalance := htx.balance
      simp only at h ⊢
      omega
  | rx hrx =>
      obtain ⟨haccepts, hconfirms⟩ := hrx.counts
      simp only [haccepts, hconfirms] at h ⊢
      omega
  | app l a a' log =>
      have hneither : ∀ e ∈ log.map (Event.app (ε := ε)), e.accepts = false ∧ e.confirms = false := by
        simp [Event.accepts, Event.confirms]
      obtain ⟨haccepts, hconfirms⟩ := counts_of_neither hneither
      simp only [haccepts, hconfirms] at h ⊢
      omega

theorem balanced_run (app : App σ ε) (depth : Nat) (cfg : Config) (a : σ)
    (calls : List (Env × Call)) :
    Balanced (run (call app depth) (init cfg, a) calls).1.1
      (run (call app depth) (init cfg, a) calls).2 := by
  have hstart : Balanced (init cfg) ([] : List (Event ε)) := rfl
  refine run_invariant (fun (s : Link × σ) tr => Balanced s.1 tr) (fun s tr i h => ?_) [] hstart calls
  exact Steps.invariant (fun (s : Link × σ) tr => Balanced s.1 tr) (fun _ _ _ _ hs => hs.step) tr h
    (steps_call app depth s i)

/-! ### Receptions -/

/-- What a call says about receptions. -/
inductive RxMark
  /-- The bytes of an accepted FF are stored. -/
  | started
  /-- The message of an SF is indicated. -/
  | single
  | ended (result : Result)
deriving DecidableEq

/-- The call passes an FF that fits the buffer. -/
def AcceptsFirst (cfg : Config) : Call → Prop
  | .rxFrame f dlc =>
      dlc = 8 ∧ f.pciType = pciTypeFf ∧ 8 ≤ f.ffLength ∧ f.ffLength ≤ cfg.rxBufferSize
  | _ => False

def PassesSingle : Call → Prop
  | .rxFrame f _ => f.pciType = pciTypeSf
  | _ => False

instance (cfg : Config) (c : Call) : Decidable (AcceptsFirst cfg c) := by
  cases c <;> unfold AcceptsFirst <;> infer_instance

instance (c : Call) : Decidable (PassesSingle c) := by
  cases c <;> unfold PassesSingle <;> infer_instance

def rxMark (cfg : Config) (c : Call) : Event ε → Option RxMark
  | .rxWrite _ _ => if AcceptsFirst cfg c then some .started else none
  | .rxIndication _ result =>
      some (if PassesSingle c ∧ result = .ok then .single else .ended result)
  | _ => none

/-- A call, reduced to what it says about receptions. -/
def receptions (app : App σ ε) (depth : Nat) (s : Link × σ) (i : Env × Call) :
    (Link × σ) × List RxMark :=
  ((call app depth s i).1, (call app depth s i).2.filterMap (rxMark s.1.cfg i.2))

/-- Whether a reception is in progress after the mark. -/
def RxMark.after : Bool → RxMark → Bool
  | _, .started => true
  | _, _ => false

/-- A reception is ended only while it is in progress; nothing else happens before that. -/
def RxMark.Allowed (inProgress : Bool) : RxMark → Prop
  | .ended _ => inProgress = true
  | _ => inProgress = false

def RxSide.inProgress (r : RxSide) : Bool := r.rxState = .receiving

theorem TxStep.rxMarks {cfg : Config} {t t' : TxSide} {es : List (Event ε)} (h : TxStep cfg t es t')
    (rxCfg : Config) (c : Call) : es.filterMap (rxMark rxCfg c) = [] := by
  have hpaced : ∀ {pace : List (Event ε)}, t.Paced pace → pace.filterMap (rxMark rxCfg c) = [] := by
    intro pace hpace
    cases hpace <;> rfl
  cases h with
  | sending hsending =>
      cases hsending with
      | cfRefused hs hpace | lastSent hs hpace | cfSent hs hpace | cfSentInBlock hs hpace
      | blockSent hs hpace =>
          rw [List.filterMap_append, hpaced hpace]
          rfl
      | _ => rfl
  | _ => rfl

section Receptions

variable (cfg : Config) (c : Call)

/-- From `w` to `w'` the call says the marks. -/
def Says (w : World σ ε) (marks : List RxMark) (w' : World σ ε) : Prop :=
  ∃ es, w'.events = w.events ++ es ∧ es.filterMap (rxMark cfg c) = marks

/-- From `w` to `w'` the call ends only what is in progress, and ends it before it says anything
else. -/
def Orderly (w w' : World σ ε) : Prop :=
  ∃ marks, Says cfg c w marks w' ∧
    Monitored RxMark.after RxMark.Allowed w.link.rx.inProgress marks ∧
    marks.foldl RxMark.after w.link.rx.inProgress = w'.link.rx.inProgress

variable {cfg c}

theorem Says.trans {u v w : World σ ε} {ms ns : List RxMark} (h₁ : Says cfg c u ms v)
    (h₂ : Says cfg c v ns w) : Says cfg c u (ms ++ ns) w := by
  obtain ⟨es, hes, rfl⟩ := h₁
  obtain ⟨fs, hfs, rfl⟩ := h₂
  exact ⟨es ++ fs, by rw [hfs, hes, List.append_assoc], List.filterMap_append⟩

theorem Orderly.quiet {w w' : World σ ε} (h : Says cfg c w [] w')
    (hrx : w'.link.rx.rxState = w.link.rx.rxState) : Orderly cfg c w w' := by
  refine ⟨[], h, monitored_nil _, ?_⟩
  simp [RxSide.inProgress, hrx]

theorem Orderly.trans {u v w : World σ ε} (h₁ : Orderly cfg c u v) (h₂ : Orderly cfg c v w) :
    Orderly cfg c u w := by
  obtain ⟨ms, hms, hallowed₁, hafter₁⟩ := h₁
  obtain ⟨ns, hns, hallowed₂, hafter₂⟩ := h₂
  refine ⟨ms ++ ns, hms.trans hns, ?_, ?_⟩
  · rw [monitored_append, hafter₁]
    exact ⟨hallowed₁, hallowed₂⟩
  · rw [List.foldl_append, hafter₁, hafter₂]

theorem Orderly.of_mark {w w' : World σ ε} {m : RxMark} (h : Says cfg c w [m] w')
    (hallowed : m.Allowed w.link.rx.inProgress)
    (hafter : m.after w.link.rx.inProgress = w'.link.rx.inProgress) : Orderly cfg c w w' :=
  ⟨[m], h, by simpa using hallowed, hafter⟩

theorem txClosed_orderly : TxClosed (Orderly (σ := σ) (ε := ε) cfg c) where
  refl w := .quiet ⟨[], by simp, rfl⟩ rfl
  trans := Orderly.trans
  settle w r := by
    refine .quiet ⟨r.log.map .app, rfl, ?_⟩ rfl
    rw [List.filterMap_map]
    exact List.filterMap_eq_nil_iff.mpr fun _ _ => rfl
  tx hmoves hstep _ := .quiet ⟨_, hmoves.events, hstep.rxMarks cfg c⟩ (by rw [hmoves.rx])

end Receptions

section Handlers

variable {cfg : Config} {app : App σ ε} {resubmit : Bytes → World σ ε → World σ ε}

theorem notFirst_of_type {data : Frame} {dlc : Nat} (h : data.pciType ≠ 1) :
    ¬ AcceptsFirst cfg (.rxFrame data dlc) := fun hfirst => h hfirst.2.1

theorem notSingle_of_type {data : Frame} {dlc : Nat} (h : data.pciType ≠ 0) :
    ¬ PassesSingle (.rxFrame data dlc) := h

section Endings

variable {c : Call} (hkeep : ∀ m v, Orderly cfg c v (resubmit m v))
include hkeep

/-- An indication of anything but a single frame ends the reception in progress. -/
theorem orderly_rxFinish {result : Result} {w : World σ ε}
    (h : if PassesSingle c ∧ result = .ok then w.link.rx.rxState = .idle
      else w.link.rx.rxState = .receiving) :
    Orderly cfg c w (rxFinish app resubmit result w) := by
  have hindicated : Orderly cfg c w ((w.setRx { w.link.rx with rxState := .idle }).log
      (.rxIndication (w.link.rx.rxBuffer.take
        (if result = .ok then w.link.rx.rxLength else w.link.rx.rxOffset)) result)) := by
    refine .of_mark ⟨[_], rfl, rfl⟩ ?_ ?_
    · split at h
      · rename_i hsingle
        rw [if_pos hsingle]
        simp [RxMark.Allowed, RxSide.inProgress, h]
      · rename_i hended
        rw [if_neg hended]
        simp [RxMark.Allowed, RxSide.inProgress, h]
    · split <;> rfl
  exact hindicated.trans (txClosed_orderly.react hkeep _ _)

variable (app) in
theorem orderly_interrupted (w : World σ ε) : Orderly cfg c w (interrupted app resubmit w) := by
  unfold interrupted
  split
  · rename_i hs
    exact orderly_rxFinish hkeep (by simpa using hs)
  · exact txClosed_orderly.refl w

omit hkeep in
theorem orderly_rxSendFlowControl (status : Nat) (w : World σ ε) :
    Orderly cfg c w (rxSendFlowControl status w) := by
  rw [rxSendFlowControl_eq]
  refine .quiet ⟨[_], rfl, rfl⟩ ?_
  cases hacc : w.accepts <;> rfl

end Endings

section Frames

variable {data : Frame} {dlc : Nat}
  (hkeep : ∀ m v, Orderly cfg (.rxFrame data dlc) v (resubmit m v)) (hres : Resubmits resubmit)
  (w : World σ ε)
include hkeep hres

theorem orderly_rxOnSingleFrame (htype : data.pciType = 0) :
    Orderly cfg (.rxFrame data dlc) w (rxOnSingleFrame app resubmit data dlc w) := by
  rw [rxOnSingleFrame_eq]
  split
  · exact txClosed_orderly.refl w
  have hrx := interrupted_rx app hres w
  have hfirst : ¬ AcceptsFirst cfg (.rxFrame data dlc) := notFirst_of_type (by omega)
  refine (orderly_interrupted app hkeep w).trans (.trans (.quiet ⟨[_], rfl, ?_⟩ ?_)
    (orderly_rxFinish hkeep ?_))
  · simp [rxMark, hfirst]
  · rfl
  · rw [if_pos ⟨htype, rfl⟩]
    simp [hrx]

theorem orderly_rxOnFirstFrame (hcfg : cfg = w.link.cfg) (hdlc : dlc ≤ 8)
    (htype : data.pciType = 1) :
    Orderly cfg (.rxFrame data dlc) w (rxOnFirstFrame app resubmit data dlc w) := by
  rw [rxOnFirstFrame_eq]
  simp only []
  split
  · exact txClosed_orderly.refl w
  rename_i hgood
  have hrx := interrupted_rx app hres w
  refine (orderly_interrupted app hkeep w).trans ?_
  split
  · exact orderly_rxSendFlowControl _ _
  rename_i hfit
  rw [interrupted_cfg app hres, ← hcfg] at hfit
  have hfirst : AcceptsFirst cfg (.rxFrame data dlc) :=
    ⟨by omega, htype, Nat.lt_of_not_le fun hle => hgood (.inr hle), Nat.le_of_not_lt hfit⟩
  have hidle : (interrupted app resubmit w).link.rx.inProgress = false := by
    rw [hrx]
    rfl
  refine Orderly.trans ?_ (orderly_rxSendFlowControl _ _)
  refine .of_mark (m := .started) ⟨[_, _], List.append_assoc _ [_] [_], ?_⟩ hidle rfl
  simp [rxMark, hfirst]

omit hres in
theorem orderly_rxOnConsecutiveFrame (htype : data.pciType = 2) :
    Orderly cfg (.rxFrame data dlc) w (rxOnConsecutiveFrame app resubmit data dlc w) := by
  have hfirst : ¬ AcceptsFirst cfg (.rxFrame data dlc) := notFirst_of_type (by omega)
  have hsingle : ¬ PassesSingle (.rxFrame data dlc) := notSingle_of_type (by omega)
  rw [rxOnConsecutiveFrame_eq]
  split
  · exact txClosed_orderly.refl w
  rename_i hnot
  have hs : w.link.rx.rxState = .receiving := not_not.mp hnot
  split
  · exact orderly_rxFinish hkeep (by rwa [if_neg fun h => hsingle h.1])
  split
  · exact txClosed_orderly.refl w
  have hstored : Orderly cfg (.rxFrame data dlc) w
      (storedCf (slice data.bytes 1 w.link.rx.chunk) w) := by
    refine .quiet ⟨_, (moves_storedCf _ w).events, ?_⟩ rfl
    simp [rxMark, hfirst]
  apply hstored.trans
  rw [afterStored]
  split
  · exact orderly_rxFinish hkeep (by rwa [if_neg fun h => hsingle h.1])
  split
  · split
    · refine Orderly.trans ?_ (orderly_rxSendFlowControl _ _)
      exact .quiet ⟨[_], rfl, rfl⟩ rfl
    · exact .quiet ⟨[_], rfl, rfl⟩ rfl
  · exact txClosed_orderly.refl _

theorem orderly_rxFrame (hcfg : cfg = w.link.cfg) :
    Orderly cfg (.rxFrame data dlc) w (rxFrame app resubmit data dlc w) := by
  unfold rxFrame
  split
  · exact txClosed_orderly.refl w
  rename_i hdlc
  simp only [canDl, not_or, Nat.not_lt] at hdlc
  split
  · rename_i htype
    exact orderly_rxOnSingleFrame hkeep hres w htype
  split
  · rename_i htype
    exact orderly_rxOnFirstFrame hkeep hres w hcfg hdlc.2 htype
  split
  · rename_i htype
    exact orderly_rxOnConsecutiveFrame hkeep w htype
  split
  · exact txClosed_orderly.txOnFlowControl hkeep hres fun _ _ _ => .quiet ⟨[_], rfl, rfl⟩ rfl
  · exact txClosed_orderly.refl w

end Frames

theorem orderly_rxMainFunction (hkeep : ∀ m v, Orderly cfg .mainFunction v (resubmit m v))
    (w : World σ ε) : Orderly cfg .mainFunction w (rxMainFunction app resubmit w) := by
  have hretry : Orderly cfg .mainFunction w
      (if w.link.rx.rxFcPending then rxSendFlowControl w.link.rx.rxFcStatus w else w) := by
    split
    · exact orderly_rxSendFlowControl _ _
    · exact txClosed_orderly.refl w
  apply hretry.trans
  unfold rxMainFunction
  generalize (if w.link.rx.rxFcPending then rxSendFlowControl w.link.rx.rxFcStatus w else w) = v
  simp only []
  split
  · rename_i hs
    split
    · refine .trans (txClosed_orderly.tick v) (orderly_rxFinish hkeep ?_)
      rw [if_neg fun h => h.1]
      exact hs
    · exact txClosed_orderly.tick v
  · exact txClosed_orderly.refl v

end Handlers

theorem orderly_call (app : App σ ε) (depth : Nat) (s : Link × σ) (i : Env × Call) :
    Orderly s.1.cfg i.2 { link := s.1, app := s.2, env := i.1 }
      (invoke app depth i.2 { link := s.1, app := s.2, env := i.1 }) := by
  have hres := resubmits_nested app depth
  obtain ⟨env, c⟩ := i
  have hclosed : TxClosed (Orderly (σ := σ) (ε := ε) s.1.cfg c) := txClosed_orderly
  have hkeep := hclosed.nested app depth
  cases c with
  | transmit m => exact txClosed_orderly.transmitWith hkeep m _
  | rxFrame data dlc => exact orderly_rxFrame hkeep hres _ rfl
  | mainFunction =>
      exact (orderly_rxMainFunction hkeep _).trans (txClosed_orderly.txMainFunction hkeep hres _)

theorem started_of_acceptsFirst (app : App σ ε) (depth : Nat) (s : Link × σ) {i : Env × Call}
    (h : AcceptsFirst s.1.cfg i.2) : RxMark.started ∈ (receptions app depth s i).2 := by
  have hwrite : Event.rxWrite 0 6 ∈ (call app depth s i).2 := by
    obtain ⟨env, c⟩ := i
    cases c with
    | transmit m => exact absurd h id
    | mainFunction => exact absurd h id
    | rxFrame data dlc =>
        obtain ⟨rfl, htype, hmin, hfit⟩ := h
        have hres := resubmits_nested app depth
        let w : World σ ε := { link := s.1, app := s.2, env := env }
        have hframe : rxFrame app (nested app depth) data 8 w
            = rxOnFirstFrame app (nested app depth) data 8 w := by
          simp [rxFrame, htype]
        have hlong : ¬ (interrupted app (nested app depth) w).link.cfg.rxBufferSize
            < data.pciLow <<< 8 ||| data.byte 1 := by
          rw [interrupted_cfg app hres]
          exact Nat.not_lt.mpr hfit
        have hgood : ¬ (8 < 8 ∨ data.pciLow <<< 8 ||| data.byte 1 ≤ 7) := by
          rintro (hlt | hle)
          · omega
          · exact absurd hmin (Nat.not_le.mpr (Nat.lt_succ_of_le hle))
        show Event.rxWrite 0 6 ∈ (rxFrame app (nested app depth) data 8 w).events
        rw [hframe, rxOnFirstFrame_eq]
        simp only [if_neg hgood, if_neg hlong, rxSendFlowControl_eq]
        simp
  exact List.mem_filterMap.mpr ⟨_, hwrite, by simp [rxMark, h]⟩

theorem orderly_run (app : App σ ε) (depth : Nat) (cfg : Config) (a : σ)
    (calls : List (Env × Call)) :
    Monitored RxMark.after RxMark.Allowed false (run (receptions app depth) (init cfg, a) calls).2 ∧
      (run (receptions app depth) (init cfg, a) calls).2.foldl RxMark.after false
        = (run (call app depth) (init cfg, a) calls).1.1.rx.inProgress := by
  have hstep : ∀ s i, (receptions app depth s i).1 = (call app depth s i).1 := fun _ _ => rfl
  have hstate := fst_run_congr hstep (init cfg, a) calls
  rw [← hstate]
  let I : Link × σ → List RxMark → Prop := fun s tr =>
    Monitored RxMark.after RxMark.Allowed false tr ∧
      tr.foldl RxMark.after false = s.1.rx.inProgress
  have hstart : I (init cfg, a) [] := ⟨monitored_nil _, rfl⟩
  refine run_invariant I ?_ [] hstart calls
  rintro s tr i ⟨hallowed, hafter⟩
  obtain ⟨marks, ⟨es, hes, hmarks⟩, hcall, hend⟩ := orderly_call app depth s i
  have hsaid : (receptions app depth s i).2 = marks := by
    rw [← hmarks]
    exact congrArg _ (hes.trans (List.nil_append es))
  rw [← hafter] at hcall hend
  rw [hsaid]
  refine ⟨(monitored_append _ _ _).mpr ⟨hallowed, hcall⟩, ?_⟩
  rw [List.foldl_append]
  exact hend

/-- After every call, the confirmations are as many as the messages accepted, less the one in
progress. A reception that an FF starts is ended by one indication before another one starts or a
single frame is delivered, and no other indication ends one. -/
theorem one_outcome_per_transfer (app : App σ ε) (depth : Nat) (cfg : Config) (a : σ)
    (calls : List (Env × Call)) :
    ((run (call app depth) (init cfg, a) calls).2.countP Event.confirms
        + (if isTxBusy (run (call app depth) (init cfg, a) calls).1.1 then 1 else 0)
      = (run (call app depth) (init cfg, a) calls).2.countP Event.accepts) ∧
    Monitored RxMark.after RxMark.Allowed false (run (receptions app depth) (init cfg, a) calls).2 ∧
    ((run (receptions app depth) (init cfg, a) calls).2.foldl RxMark.after false = true ↔
      (run (call app depth) (init cfg, a) calls).1.1.rx.rxState = .receiving) ∧
    Along (call app depth)
      (fun s i => AcceptsFirst s.1.cfg i.2 → RxMark.started ∈ (receptions app depth s i).2)
      (init cfg, a) calls := by
  have hbalanced := balanced_run app depth cfg a calls
  obtain ⟨hallowed, hafter⟩ := orderly_run app depth cfg a calls
  refine ⟨?_, hallowed, ?_, along_of_invariant (fun _ => True) (fun _ _ _ => trivial)
    (fun s _ _ => started_of_acceptsFirst app depth s) trivial calls⟩
  · simpa [Balanced, TxSide.inProgress, isTxBusy] using hbalanced
  · rw [hafter]
    exact decide_eq_true_iff

end MiniEcu.IsoTp
