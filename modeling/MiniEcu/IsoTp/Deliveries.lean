import MiniEcu.IsoTp.Reassembly

/-!
# Calls as the receiver sees them

What any call does to the receiving half of a link whose application only takes note: a frame is
read as its data unit says, the main function may give a reception up, and nothing the sending half
does is seen.
-/

namespace MiniEcu.IsoTp

open Memory Trace

/-! ### The sender's events are not the receiver's -/

section Outputs

variable {cfg : Config} {t t' : TxSide} {es : List (Event Empty)}

theorem TxSide.Paced.outputs {pace : List (Event Empty)} (h : t.Paced pace) :
    outputs pace = [] := by
  cases h <;> rfl

theorem output_data {ε : Type} {f : Frame} (h : f.pciType ≠ pciTypeFc) (canId : Nat)
    (accepted : Bool) : (Event.sendFrame (ε := ε) canId f accepted).output = none :=
  if_neg h

theorem Sending.outputs (hinv : TxInv cfg t) (h : Sending cfg t es t') : outputs es = [] := by
  have hfirst := t.pciType_first
  cases h with
  | firstRefused | singleSent | firstSent => simp [IsoTp.outputs, Event.output, hfirst]
  | tooEarly | unfinished => rfl
  | cfRefused hs hpace | lastSent hs hpace | cfSent hs hpace | cfSentInBlock hs hpace
  | blockSent hs hpace =>
      have hcf := hinv.pciType_consecutive hs
      rw [outputs_append, hpace.outputs]
      simp [IsoTp.outputs, Event.output, hcf]

theorem TxStep.outputs (hinv : TxInv cfg t) (h : TxStep cfg t es t') : outputs es = [] := by
  cases h with
  | sending hsending => exact hsending.outputs hinv
  | _ => rfl

/-- What the sender does by itself keeps its invariant and shows nothing of the receiver. -/
theorem World.Transmits.keeps {w w' : World Unit Empty} (h : w.Transmits w')
    (hinv : TxInv w.link.cfg w.link.tx) :
    TxInv w'.link.cfg w'.link.tx ∧ ∃ es, w'.events = w.events ++ es ∧ outputs es = [] := by
  obtain ⟨hcfg, -, -, es, hevents, hsteps⟩ := h
  have hkeep := Steps.invariant (fun t es => TxInv w.link.cfg t ∧ outputs es = []) ?_ []
    ⟨hinv, rfl⟩ hsteps
  · exact ⟨by rw [hcfg]; exact hkeep.1, es, hevents, hkeep.2⟩
  · rintro t tr es t' ⟨ht, htr⟩ hsending
    exact ⟨ht.sending hsending, by rw [outputs_append, htr, hsending.outputs ht]; rfl⟩

end Outputs

/-! ### The receiver's events are not the sender's -/

/-- An event of a receiver. -/
def Event.Incoming {ε : Type} : Event ε → Prop
  | .txConfirmation _ => False
  | .transmit _ _ => False
  | _ => True

section Hears

variable {resubmit : Bytes → World Unit Empty → World Unit Empty} {u v w : World Unit Empty}

/-- `w'` is `w` after events of the receiver. -/
def World.Hears (w w' : World Unit Empty) : Prop :=
  ∃ es, w'.events = w.events ++ es ∧ ∀ e ∈ es, e.Incoming

theorem World.Hears.refl (w : World Unit Empty) : w.Hears w := ⟨[], by simp, by simp⟩

theorem World.Hears.trans (h₁ : u.Hears v) (h₂ : v.Hears w) : u.Hears w := by
  obtain ⟨es, hes, hin⟩ := h₁
  obtain ⟨fs, hfs, hin'⟩ := h₂
  refine ⟨es ++ fs, ?_, List.forall_mem_append.mpr ⟨hin, hin'⟩⟩
  rw [hfs, hes, List.append_assoc]

theorem hears_rxFinish (result : Result) (w : World Unit Empty) :
    w.Hears (rxFinish silent resubmit result w) := by
  rw [rxFinish_silent]
  exact ⟨_, rfl, by simp [Event.Incoming]⟩

theorem hears_rxSendFlowControl (status : Nat) (w : World Unit Empty) :
    w.Hears (rxSendFlowControl status w) := by
  rw [rxSendFlowControl_eq]
  exact ⟨_, rfl, by simp [Event.Incoming]⟩

variable (resubmit) in
theorem hears_interrupted (w : World Unit Empty) : w.Hears (interrupted silent resubmit w) := by
  unfold interrupted
  split
  · exact hears_rxFinish _ w
  · exact .refl w

theorem hears_afterStored (v : World Unit Empty) : v.Hears (afterStored silent resubmit v) := by
  unfold afterStored
  split
  · exact hears_rxFinish _ v
  split
  · have hcounted : ∀ r : RxSide,
        v.Hears ((v.log (.counted 8 (v.link.rx.rxBlockCount + 1))).setRx r) := by
      intro r
      exact ⟨_, rfl, by simp [Event.Incoming]⟩
    split
    · exact (hcounted _).trans (hears_rxSendFlowControl _ _)
    · exact hcounted _
  · exact .refl v

theorem hears_rxFrame {data : Frame} (htype : data.pciType ≠ 3) (dlc : Nat) (w : World Unit Empty) :
    w.Hears (rxFrame silent resubmit data dlc w) := by
  unfold rxFrame
  split
  · exact .refl w
  split
  · rw [rxOnSingleFrame_eq]
    split
    · exact .refl w
    apply (hears_interrupted resubmit w).trans
    refine .trans ?_ (hears_rxFinish .ok _)
    exact ⟨[.rxWrite 0 data.pciLow], rfl, by simp [Event.Incoming]⟩
  split
  · rw [rxOnFirstFrame_eq]
    simp only []
    split
    · exact .refl w
    apply (hears_interrupted resubmit w).trans
    split
    · exact hears_rxSendFlowControl _ _
    · refine .trans ?_ (hears_rxSendFlowControl _ _)
      exact ⟨[.rxWrite 0 6] ++ [.getTimeMs _], (List.append_assoc _ _ _).trans rfl,
        by simp [Event.Incoming]⟩
  split
  · rw [rxOnConsecutiveFrame_eq]
    split
    · exact .refl w
    split
    · exact hears_rxFinish _ w
    split
    · exact .refl w
    · refine .trans ?_ (hears_afterStored _)
      exact ⟨_, (moves_storedCf _ w).events, by simp [Event.Incoming]⟩
  · exact .refl w

end Hears

/-! ### What a call does to the receiver -/

def Event.delivery {ε : Type} : Event ε → Option Bytes
  | .rxIndication data .ok => some data
  | _ => none

/-- The messages a link hands to its application. -/
def deliveries {ε : Type} (es : List (Event ε)) : List Bytes := es.filterMap Event.delivery

theorem deliveries_eq {ε : Type} (es : List (Event ε)) :
    deliveries es = (outputs es).filterMap Output.message := by
  have hcompose : ∀ e : Event ε, e.output.bind Output.message = e.delivery := by
    intro e
    cases e with
    | rxIndication data result => cases result <;> rfl
    | sendFrame canId f accepted =>
        by_cases htype : f.pciType = pciTypeFc
        · simp [Event.output, htype, Output.message, Event.delivery]
        · simp [output_data htype, Event.delivery]
    | _ => rfl
  simp only [deliveries, outputs, List.filterMap_filterMap, hcompose]

theorem deliveries_append {ε : Type} (es fs : List (Event ε)) :
    deliveries (es ++ fs) = deliveries es ++ deliveries fs := List.filterMap_append

/-- The data unit a call gives the receiver. -/
def Call.pdu : Call → Pdu
  | .rxFrame data dlc => decode data dlc
  | _ => .other

/-- The receiver of `l'` is that of `l` after it has read the data unit. -/
structure Reads (l : Link) (p : Pdu) (time : Nat) (l' : Link) (es : List (Event Empty)) : Prop where
  cfg : l'.cfg = l.cfg
  timer : l'.rx.rxTimerStart =
    if takes l.cfg.rxBufferSize l.rx.assembly p then time % 2 ^ 32 else l.rx.rxTimerStart
  assembly : l'.rx.assembly
    = (receive l.cfg.rxBufferSize l.cfg.blockSize.toNat l.rx.assembly p).1
  deliveries : deliveries es
    = (receive l.cfg.rxBufferSize l.cfg.blockSize.toNat l.rx.assembly p).2.filterMap Output.message

/-- Whether a call of the main function gives the reception up. -/
def Link.rxExpired (l : Link) (env : Env) : Prop :=
  l.rx.rxState = .receiving ∧ l.cfg.nCrTimeoutMs ≤ elapsed (env.clock 0 % 2 ^ 32) l.rx.rxTimerStart

theorem reads_unchanged {l l' : Link} {p : Pdu} {time : Nat} {es : List (Event Empty)}
    (hp : p = .other) (hcfg : l'.cfg = l.cfg) (hrx : l'.rx = l.rx) (hes : outputs es = []) :
    Reads l p time l' es := by
  subst hp
  exact ⟨hcfg, by rw [hrx]; rfl, by rw [hrx]; rfl, by rw [deliveries_eq, hes]; rfl⟩

theorem Receives.reads {w w' : World Unit Empty} {p : Pdu} (h : Receives w p w') {es : List (Event Empty)}
    (hes : w'.events = w.events ++ es) : Reads w.link p (w.env.clock w.reads) w'.link es := by
  obtain ⟨hcfg, -, htimer, fs, hfs, hreceive, -⟩ := h
  obtain rfl := List.append_cancel_left (hes.symm.trans hfs)
  exact ⟨hcfg, htimer, by rw [hreceive], by rw [hreceive, deliveries_eq]⟩

section Calls

variable {l : Link} (depth : Nat) (env : Env)

theorem reads_transmit (hinv : LinkInv l) (m : Bytes) :
    Reads l .other (env.clock 0) (call silent depth (l, ()) (env, .transmit m)).1.1
      (call silent depth (l, ()) (env, .transmit m)).2 := by
  let w : World Unit Empty := { link := l, app := (), env }
  have hcall : call silent depth (l, ()) (env, .transmit m)
      = (((transmitWith silent (nested silent depth) m w).2.link, ()),
        (transmitWith silent (nested silent depth) m w).2.events) := rfl
  rw [hcall]
  rcases transmit_silent m w with ⟨result, -, heq⟩ | ⟨hidle, hpos, hmax, hfit, htransmits⟩
  · rw [heq]
    exact reads_unchanged rfl rfl rfl rfl
  · have hstep : TxStep (ε := Empty) l.cfg l.tx _ (l.tx.started m (env.clock 0)) :=
      .start m (env.clock 0) hidle hpos hmax hfit
    have hstarted : TxInv (accepted m w).link.cfg (accepted m w).link.tx := hinv.tx.step hstep
    obtain ⟨-, es, hes, hout⟩ := htransmits.keeps hstarted
    refine reads_unchanged rfl htransmits.cfg htransmits.rx ?_
    rw [hes, outputs_append, hout]
    rfl

theorem reads_rxFrame (hinv : LinkInv l) (data : Frame) (dlc : Nat) :
    Reads l (decode data dlc) (env.clock 0)
      (call silent depth (l, ()) (env, .rxFrame data dlc)).1.1
      (call silent depth (l, ()) (env, .rxFrame data dlc)).2 := by
  let w : World Unit Empty := { link := l, app := (), env }
  have hcall : call silent depth (l, ()) (env, .rxFrame data dlc)
      = (((rxFrame silent (nested silent depth) data dlc w).link, ()),
        (rxFrame silent (nested silent depth) data dlc w).events) := rfl
  rw [hcall]
  by_cases htype : data.pciType = 3
  · by_cases hdlc : dlc = 0 ∨ 8 < dlc
    · rw [rxFrame, if_pos hdlc]
      exact reads_unchanged (by rw [decode, if_pos hdlc]) rfl rfl rfl
    have hother : decode data dlc = .other := decode_other hdlc (by omega)
    rw [rxFrame_flowControl hdlc htype]
    have hreads := txOnFlowControl_silent (resubmits_nested silent depth) data dlc w
    generalize txOnFlowControl silent (nested silent depth) data dlc w = w' at hreads ⊢
    cases hreads with
    | ignored => exact reads_unchanged hother rfl rfl rfl
    | cleared hs hcts htransmits =>
        have hstep : TxStep (ε := Empty) l.cfg l.tx _ _ := .clearToSend data (env.clock 0) hs
        obtain ⟨-, es, hes, hout⟩ := htransmits.keeps (hinv.tx.step hstep)
        refine reads_unchanged hother htransmits.cfg htransmits.rx ?_
        rw [hes, outputs_append, hout]
        rfl
    | other hcts hs es t hcfg hrx htx hes hstep =>
        apply reads_unchanged hother hcfg hrx
        rw [hes]
        exact hstep.outputs hinv.tx
  · exact (receives_rxFrame hinv.rx htype).reads (w := w) rfl

/-- The sender's part of the main function leaves the receiver alone. -/
theorem txMainFunction_rx (w : World Unit Empty) (hinv : TxInv w.link.cfg w.link.tx) :
    (txMainFunction silent (nested silent depth) w).link.cfg = w.link.cfg ∧
    (txMainFunction silent (nested silent depth) w).link.rx = w.link.rx ∧
    ∃ es, (txMainFunction silent (nested silent depth) w).events = w.events ++ es ∧
      outputs es = [] := by
  obtain ⟨v, htransmits, hout⟩ := txMainFunction_silent (resubmits_nested silent depth) w
  obtain ⟨-, es, hes, hquiet⟩ := htransmits.keeps hinv
  rcases hout with heq | heq | ⟨-, -, heq⟩
  · rw [heq]
    exact ⟨htransmits.cfg, htransmits.rx, es, hes, hquiet⟩
  · rw [heq]
    refine ⟨htransmits.cfg, htransmits.rx, es ++ [.getTimeMs (v.env.clock v.reads)], ?_, ?_⟩
    · simp [hes]
    · rw [outputs_append, hquiet]
      rfl
  · rw [heq, txFinish_silent]
    refine ⟨htransmits.cfg, htransmits.rx, es ++ [.getTimeMs (v.env.clock v.reads),
      .txConfirmation .errTimeoutBs], ?_, ?_⟩
    · simp [hes]
    · rw [outputs_append, hquiet]
      rfl

theorem retried_rx (w : World Unit Empty) :
    (retried w).link.cfg = w.link.cfg ∧ (retried w).link.tx = w.link.tx ∧
    (retried w).link.rx.assembly = w.link.rx.assembly ∧
    (retried w).link.rx.rxTimerStart = w.link.rx.rxTimerStart ∧
    ∃ es, (retried w).events = w.events ++ es ∧ deliveries es = [] := by
  rcases retried_eq w with ⟨heq, -⟩ | ⟨-, heq⟩
  · rw [heq]
    exact ⟨rfl, rfl, rfl, rfl, [], by simp, rfl⟩
  · rw [heq]
    exact ⟨rfl, rfl, assembly_answered _ _ _, timer_answered _ _ _, _, rfl, rfl⟩

/-- The receiver's part of the main function delivers nothing. -/
theorem rxMainFunction_rx (resubmit : Bytes → World Unit Empty → World Unit Empty)
    (w : World Unit Empty) :
    (rxMainFunction silent resubmit w).link.cfg = w.link.cfg ∧
    (rxMainFunction silent resubmit w).link.tx = w.link.tx ∧
    (∃ es, (rxMainFunction silent resubmit w).events = w.events ++ es ∧ deliveries es = []) ∧
    (w.RxExpired → (rxMainFunction silent resubmit w).link.rx.assembly = none) ∧
    (¬ w.RxExpired →
      (rxMainFunction silent resubmit w).link.rx.assembly = w.link.rx.assembly ∧
      (rxMainFunction silent resubmit w).link.rx.rxTimerStart = w.link.rx.rxTimerStart) := by
  obtain ⟨hcfg, htx, hassembly, htimer, es, hes, hnone⟩ := retried_rx w
  rcases rxMainFunction_silent resubmit w with ⟨hrunning, heq | heq⟩ | ⟨hexpired, heq⟩
  · rw [heq]
    exact ⟨hcfg, htx, ⟨es, hes, hnone⟩, fun h => absurd h hrunning, fun _ => ⟨hassembly, htimer⟩⟩
  · rw [heq]
    refine ⟨hcfg, htx, ⟨es ++ [.getTimeMs ((retried w).env.clock (retried w).reads)], ?_, ?_⟩,
      fun h => absurd h hrunning, fun _ => ⟨hassembly, htimer⟩⟩
    · simp [hes]
    · rw [deliveries_append, hnone]
      rfl
  · rw [heq, rxFinish_silent]
    refine ⟨hcfg, htx, ⟨es ++ [.getTimeMs ((retried w).env.clock (retried w).reads),
      .rxIndication ((retried w).tick.link.rx.rxBuffer.take (retried w).tick.link.rx.rxOffset)
        .errTimeoutCr], ?_, ?_⟩, fun _ => rfl, fun h => absurd hexpired h⟩
    · simp [hes]
    · rw [deliveries_append, hnone]
      rfl

/-- The main function delivers nothing and ends a reception only when its timer has expired. -/
theorem mainFunction_rx (hinv : LinkInv l) :
    (call silent depth (l, ()) (env, .mainFunction)).1.1.cfg = l.cfg ∧
    deliveries (call silent depth (l, ()) (env, .mainFunction)).2 = [] ∧
    (l.rxExpired env →
      (call silent depth (l, ()) (env, .mainFunction)).1.1.rx.assembly = none) ∧
    (¬ l.rxExpired env →
      (call silent depth (l, ()) (env, .mainFunction)).1.1.rx.assembly = l.rx.assembly ∧
      (call silent depth (l, ()) (env, .mainFunction)).1.1.rx.rxTimerStart = l.rx.rxTimerStart) := by
  let w : World Unit Empty := { link := l, app := (), env }
  obtain ⟨hcfg, htx, ⟨es, hes, hnone⟩, hexpired, hrunning⟩ :=
    rxMainFunction_rx (nested silent depth) w
  have hinv' : TxInv (rxMainFunction silent (nested silent depth) w).link.cfg
      (rxMainFunction silent (nested silent depth) w).link.tx := by
    rw [hcfg, htx]
    exact hinv.tx
  obtain ⟨hcfg', hrx, fs, hfs, hquiet⟩ := txMainFunction_rx depth _ hinv'
  refine ⟨hcfg'.trans hcfg, ?_, fun h => ?_, fun h => ?_⟩
  · have hevents : (call silent depth (l, ()) (env, .mainFunction)).2 = es ++ fs := by
      rw [hes] at hfs
      exact hfs
    rw [hevents, deliveries_append, hnone, deliveries_eq fs, hquiet]
    rfl
  · have hnone := hexpired h
    rw [← hrx] at hnone
    exact hnone
  · have hsame := hrunning h
    rw [← hrx] at hsame
    exact hsame

/-- What a call does to the receiver, unless it is a call of the main function that finds the timer
expired. -/
theorem reads_call (hinv : LinkInv l) (c : Call) (hrunning : c = .mainFunction → ¬ l.rxExpired env) :
    Reads l c.pdu (env.clock 0) (call silent depth (l, ()) (env, c)).1.1
      (call silent depth (l, ()) (env, c)).2 := by
  cases c with
  | transmit m => exact reads_transmit depth env hinv m
  | rxFrame data dlc => exact reads_rxFrame depth env hinv data dlc
  | mainFunction =>
      obtain ⟨hcfg, hnone, -, hsame⟩ := mainFunction_rx depth env hinv
      exact ⟨hcfg, (hsame (hrunning rfl)).2, (hsame (hrunning rfl)).1, hnone⟩

end Calls

section Invariant

variable {l : Link}

theorem cfg_call (hinv : LinkInv l) (depth : Nat) (i : Env × Call) :
    (call silent depth (l, ()) i).1.1.cfg = l.cfg := by
  by_cases hrunning : i.2 = .mainFunction → ¬ l.rxExpired i.1
  · exact (reads_call depth i.1 hinv i.2 hrunning).cfg
  · obtain ⟨env, c⟩ := i
    simp only [Classical.not_imp] at hrunning
    obtain ⟨rfl, -⟩ := hrunning
    exact (mainFunction_rx depth env hinv).1

theorem linkInv_call (hinv : LinkInv l) (depth : Nat) (i : Env × Call) :
    LinkInv (call silent depth (l, ()) i).1.1 :=
  (LinkInv.after (s := (l, ())) hinv silent depth (.call i.1 i.2)).1

theorem assembly_receiving {r : RxSide} {a : Assembly} (h : r.assembly = some a) :
    r.rxState = .receiving := by
  by_contra hs
  rw [RxSide.assembly, if_neg hs] at h
  cases h

end Invariant

end MiniEcu.IsoTp
