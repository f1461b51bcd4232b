import MiniEcu.IsoTp.History
import MiniEcu.IsoTp.TwoLinks

/-!
# The flow control handshake

A sender that waits for a flow control gets one. In every state that two links reach without a timer
expiring, the flow control is on its way, pending in the peer because its driver refused it, or will
be asked for by a frame that is still on its way to the peer. A message that fits the peer's buffer
is waved through. One that does not fit is turned down, and its sender stops waiting as well. While a
block is being sent, what the peer has counted and what is on its way to it add up to what the sender
has counted.
-/

namespace MiniEcu.IsoTp

open Memory Trace

/-! ### A message that is too long -/

/-- A message that the receiver's buffer cannot hold is about to be sent, or its first frame is out and
the receiver turns it down. -/
structure Declined (d : Direction) : Prop where
  tx : TxInv d.sender d.tx
  rx : RxInv d.receiver d.rx
  expects : d.Expects fcStatusOvflw
  free : d.drained.1 = none
  long : d.receiver.rxBufferSize < d.tx.txLength
  state : d.tx.txState = .sendFirst ∧ (∃ m, Carries d.tx m []) ∨ d.tx.txState = .waitFc

/-- Sender and receiver agree, but for the messages that were turned down, or the message in flight is
one that will be. -/
def Shakes (d : Direction) : Prop := (∃ accepted, Agrees { d with accepted }) ∨ Declined d

namespace Declined

variable {d : Direction}

theorem agrees (h : d.Expects fcStatusCts) (htx : TxInv d.sender d.tx) (hrx : RxInv d.receiver d.rx)
    (hnone : d.drained.1 = none) (hidle : d.tx.txState = .idle) :
    ∃ accepted, Agrees { d with accepted } := by
  refine ⟨d.delivered ++ d.drained.2.filterMap Output.message ++ [],
    .of_expects htx hrx ⟨h.meets, h.control, h.pending, h.expected⟩ [] ?_ rfl⟩
  show InFlight d.receiver d.tx d.drained.1 []
  rw [hnone]
  exact .idle hidle

theorem sending (h : Declined d) {es : List (Event Empty)} {t : TxSide}
    (hstep : Sending d.sender d.tx es t) :
    Shakes { d with tx := t, data := d.data ++ sentFrames es } := by
  have htx := h.tx.sending hstep
  have hs : d.tx.txState = .sendFirst := by
    have hstate := h.state
    cases hstep <;> simp_all
  have hnotWaiting : d.tx.txState ≠ .waitFc := by simp [hs]
  have hmax : d.tx.txLength ≤ 4095 := Nat.le_trans h.tx.length (Nat.min_le_left _ _)
  obtain ⟨m, hcarries⟩ := (h.state.resolve_right hnotWaiting).2
  have hlong := h.long
  rw [hcarries.length] at hmax hlong
  cases hstep with
  | tooEarly hs' | cfRefused hs' | lastSent hs' | cfSent hs' | cfSentInBlock hs' | blockSent hs'
  | unfinished hs' =>
      rw [hs] at hs'
      cases hs'
  | firstRefused =>
      refine .inr ?_
      show Declined { d with data := d.data ++ [] }
      rw [List.append_nil]
      exact h
  | singleSent _ hlen =>
      rw [hcarries.length] at hlen
      have hreceive : receive d.receiver.rxBufferSize d.receiver.blockSize.toNat d.drained.1
          (decode d.tx.first 8) = (none, []) := by
        rw [h.free, hcarries.decode_first hmax, if_pos hlen]
        exact if_pos hlong
      obtain ⟨hexpects, hdrained⟩ := h.expects.sent hnotWaiting { d.tx with txState := .idle }
        hreceive (by simp) rfl
      exact .inl (agrees (hexpects.restatus nofun _) htx h.rx (congrArg Prod.fst hdrained) rfl)
  | firstSent _ hlen time =>
      rw [hcarries.length] at hlen
      have hreceive : receive d.receiver.rxBufferSize d.receiver.blockSize.toNat d.drained.1
          (decode d.tx.first 8) = (none, [.answered fcStatusOvflw]) := by
        rw [h.free, hcarries.decode_first hmax, if_neg (Nat.not_le.mpr hlen)]
        exact if_pos hlong
      obtain ⟨hexpects, hdrained⟩ := h.expects.sent hnotWaiting (d.tx.afterFirst time) hreceive
        (by simp [Output.Meets]) rfl
      exact .inr ⟨htx, h.rx, hexpects, congrArg Prod.fst hdrained, h.long, .inr rfl⟩

theorem arrived (h : Declined d) {f : Frame} {rest : List Frame} (hcontrol : d.control = f :: rest) :
    d.tx.txState = .waitFc ∧ f = d.reply fcStatusOvflw ∧
      Shakes { d with tx := { d.tx with txState := .idle }, control := rest } := by
  obtain ⟨hs, hframe, hexpects⟩ := h.expects.arrived hcontrol
  have htx : TxInv d.sender { d.tx with txState := .idle } :=
    h.tx.step (ε := Empty) (.flowAborted .errOverflow hs (.inl rfl))
  have hidle := hexpects { d.tx with txState := .idle } nofun
  exact ⟨hs, hframe, .inl (agrees (hidle.restatus nofun _) htx h.rx h.free rfl)⟩

theorem received (h : Declined d) {f : Frame} {rest : List Frame} (hdata : d.data = f :: rest)
    {r : RxSide} (hrx : RxInv d.receiver r) {es : List (Event Empty)}
    (hreceive : receive d.receiver.rxBufferSize d.receiver.blockSize.toNat d.rx.assembly (decode f 8)
      = (r.assembly, outputs es))
    (hanswers : Answers d.receiver d.rx r ((outputs es).filter Output.isAnswer) (sentFrames es)) :
    Declined { d with
      rx := r
      data := rest
      delivered := d.delivered ++ deliveries es
      control := d.control ++ sentFrames es } := by
  have hfree := h.free
  obtain ⟨hdrained, -, -, hexpects⟩ := h.expects.received hdata hreceive hanswers
  rw [hdrained] at hfree
  exact ⟨h.tx, hrx, hexpects, hfree, h.long, h.state⟩

theorem retried (h : Declined d) (hpending : d.rx.rxFcPending = true) (accepted : Bool) :
    Declined { d with
      rx := d.rx.answered d.rx.rxFcStatus accepted
      control := d.control ++ if accepted then [d.reply d.rx.rxFcStatus] else [] } := by
  have hrx : RxInv d.receiver (d.rx.answered d.rx.rxFcStatus accepted) :=
    h.rx.step (ε := Empty) (.flowControl d.rx.rxFcStatus accepted (.inr rfl))
  refine ⟨h.tx, hrx, h.expects.retried hpending accepted, ?_, h.long, h.state⟩
  rw [Direction.Expects.drained_answered]
  exact h.free

end Declined

/-! ### Every step -/

namespace Shakes

variable {d : Direction}

theorem tx (h : Shakes d) : TxInv d.sender d.tx := by
  obtain ⟨accepted, hagrees⟩ | hdeclined := h
  · exact hagrees.tx
  · exact hdeclined.tx

theorem rx (h : Shakes d) : RxInv d.receiver d.rx := by
  obtain ⟨accepted, hagrees⟩ | hdeclined := h
  · exact hagrees.rx
  · exact hdeclined.rx

theorem started (h : Shakes d) (hs : d.tx.txState = .idle) {m : Bytes} (hpos : m.length ≠ 0)
    (hmax : m.length ≤ 4095) (hfits : m.length ≤ d.sender.txBufferSize) (time : Nat) :
    Shakes { d with tx := d.tx.started m time, accepted := d.accepted ++ [m] } := by
  obtain ⟨accepted, hagrees⟩ | hdeclined := h
  · by_cases hfit : m.length ≤ d.receiver.rxBufferSize
    · exact .inl ⟨_, hagrees.started hs hpos hmax hfits hfit time⟩
    · have hnotWaiting : d.tx.txState ≠ .waitFc := by simp [hs]
      have htx : TxInv d.sender (d.tx.started m time) :=
        hagrees.tx.step (ε := Empty) (.start m time hs hpos hmax hfits)
      have hcarries : Carries (d.tx.started m time) m [] :=
        ⟨take_copy_zero _ m, rfl, hpos, .inl ⟨rfl, rfl⟩⟩
      have hexpects := hagrees.expects.restatus hnotWaiting fcStatusOvflw
      refine .inr ⟨htx, hagrees.rx, ⟨hexpects.meets, hexpects.control, hexpects.pending, ?_⟩,
        hagrees.free hs, Nat.lt_of_not_le hfit, .inl ⟨rfl, m, hcarries⟩⟩
      exact hexpects.expected_zero hnotWaiting
  · exact absurd hdeclined.state (by simp [hs])

end Shakes

/-- The handshake is kept whatever is sent. -/
theorem kept_shakes : Kept (fun _ _ => True) (fun _ => True) Shakes where
  tx h := h.tx
  rx h := h.rx
  fine _ := trivial
  sending h hstep := by
    obtain ⟨accepted, hagrees⟩ | hdeclined := h
    · exact .inl ⟨accepted, hagrees.sending hstep⟩
    · exact hdeclined.sending hstep
  started h hs hpos hmax hfits _ time := h.started hs hpos hmax hfits time
  arrived h hcontrol := by
    obtain ⟨accepted, hagrees⟩ | hdeclined := h
    · obtain ⟨hs, hframe, -⟩ := hagrees.cleared hcontrol 0
      refine ⟨hs, .inl ⟨?_, fun time => .inl ⟨accepted, (hagrees.cleared hcontrol time).2.2⟩⟩⟩
      rw [hframe]
      exact Frame.pciLow_padded (by decide) (by decide) _
    · obtain ⟨hs, hframe, hshakes⟩ := hdeclined.arrived hcontrol
      refine ⟨hs, .inr ⟨?_, trivial, hshakes⟩⟩
      rw [hframe]
      exact Frame.pciLow_padded (by decide) (by decide) _
  received h hdata hrx hreceive hanswers := by
    obtain ⟨messages, hagrees⟩ | hdeclined := h
    · obtain ⟨hkept, hframes⟩ :=
        hagrees.expects.reads (by decide) hdata hreceive hanswers
      exact ⟨hkept, hframes, .inl ⟨messages, (hagrees.received hdata hrx hreceive hanswers).2⟩⟩
    · obtain ⟨hkept, hframes⟩ :=
        hdeclined.expects.reads (by decide) hdata hreceive hanswers
      exact ⟨hkept, hframes, .inr (hdeclined.received hdata hrx hreceive hanswers)⟩
  retried h hpending accepted := by
    obtain ⟨messages, hagrees⟩ | hdeclined := h
    · exact .inl ⟨messages, hagrees.retried hpending accepted⟩
    · exact .inr (hdeclined.retried hpending accepted)

/-! ### What a link will answer -/

/-- The frame a call gives the link, with its length. -/
def Call.arrival : Call → Option (Frame × Nat)
  | .rxFrame data dlc => some (data, dlc)
  | _ => none

/-- A call in which the reception does not time out. -/
def Link.Unexpired (l : Link × Unit) (i : Env × Call) : Prop :=
  i.2 = .mainFunction → ¬ l.1.rxExpired i.1

/-- After the frames `before`, and whatever else is called in between, the link answers `f` with a
flow control of this status. -/
def Elicits (depth : Nat) (l : Link) (before : List Frame) (f : Frame) (status : Nat) : Prop :=
  ∀ (is : List (Env × Call)) (env : Env), is.filterMap (·.2.arrival) = before.map (·, canDl) →
    Along (call silent depth) Link.Unexpired (l, ()) is →
    ∃ canId g accepted, Event.sendFrame canId g accepted ∈
        (call silent depth (run (call silent depth) (l, ()) is).1 (env, .rxFrame f canDl)).2 ∧
      g.pciType = pciTypeFc ∧ g.pciLow = status

section Elicits

variable {l : Link} {depth : Nat}

/-- What is under construction depends on the frames alone. -/
theorem assembly_run (hinv : LinkInv l) {is : List (Env × Call)} {before : List Frame}
    (harrivals : is.filterMap (·.2.arrival) = before.map (·, canDl))
    (hrunning : Along (call silent depth) Link.Unexpired (l, ()) is) :
    let l' := (run (call silent depth) (l, ()) is).1.1
    LinkInv l' ∧ l'.cfg = l.cfg ∧ l'.rx.assembly
      = (run (receive l.cfg.rxBufferSize l.cfg.blockSize.toNat) l.rx.assembly
          (before.map (decode · 8))).1 := by
  induction is generalizing l before with
  | nil =>
      obtain rfl : before = [] := List.map_eq_nil_iff.mp harrivals.symm
      exact ⟨hinv, rfl, rfl⟩
  | cons i is ih =>
      obtain ⟨env, c⟩ := i
      obtain ⟨hfirst, hrest⟩ := hrunning
      have hnext := linkInv_call hinv depth (env, c)
      have hreads := reads_call depth env hinv c hfirst
      intro l'
      cases c with
      | transmit m | mainFunction =>
          obtain ⟨hinv', hcfg, hassembly⟩ := ih hnext harrivals hrest
          refine ⟨hinv', hcfg.trans hreads.cfg, hassembly.trans ?_⟩
          rw [hreads.cfg, hreads.assembly]
          rfl
      | rxFrame data dlc =>
          cases before with
          | nil => cases harrivals
          | cons f before =>
              obtain ⟨hframe, harrivals'⟩ := List.cons.inj harrivals
              obtain ⟨rfl, rfl⟩ := Prod.mk.inj hframe
              obtain ⟨hinv', hcfg, hassembly⟩ := ih hnext harrivals' hrest
              refine ⟨hinv', hcfg.trans hreads.cfg, hassembly.trans ?_⟩
              rw [hreads.cfg, hreads.assembly, List.map_cons, run_cons]
              rfl

theorem mem_outputs_answered {es : List (Event Empty)} {status : Nat}
    (h : Output.answered status ∈ outputs es) : ∃ canId g accepted,
      Event.sendFrame canId g accepted ∈ es ∧ g.pciType = pciTypeFc ∧ g.pciLow = status := by
  obtain ⟨e, he, hout⟩ := List.mem_filterMap.mp h
  cases e with
  | sendFrame canId g accepted =>
      by_cases htype : g.pciType = pciTypeFc
      · rw [Event.output, if_pos htype] at hout
        cases hout
        exact ⟨canId, g, accepted, he, htype, rfl⟩
      · rw [Event.output, if_neg htype] at hout
        cases hout
  | rxIndication data result => cases result <;> cases hout
  | _ => cases hout

theorem receive_answered_type {size blockSize : Nat} {x : Option Assembly} {f : Frame} {status : Nat}
    (h : Output.answered status ∈ (receive size blockSize x (decode f 8)).2) : f.pciType ≠ 3 := by
  intro htype
  rw [decode_other (by decide) (by omega)] at h
  cases h

theorem elicits_of_answered (hinv : LinkInv l) {before : List Frame} {f : Frame} {status : Nat}
    (h : Output.answered status ∈ (receive l.cfg.rxBufferSize l.cfg.blockSize.toNat
      (run (receive l.cfg.rxBufferSize l.cfg.blockSize.toNat) l.rx.assembly
        (before.map (decode · 8))).1 (decode f 8)).2) : Elicits depth l before f status := by
  intro is env harrivals hrunning
  obtain ⟨hinv', hcfg, hassembly⟩ := assembly_run hinv harrivals hrunning
  generalize (run (call silent depth) (l, ()) is).1 = s at hinv' hcfg hassembly ⊢
  rw [← hassembly, ← hcfg] at h
  let w : World Unit Empty := { link := s.1, app := (), env }
  have hreceives : Receives w (decode f 8) (rxFrame silent (nested silent depth) f 8 w) :=
    receives_rxFrame hinv'.rx (receive_answered_type h)
  obtain ⟨es, hes, hreceive, -⟩ := hreceives.refines
  rw [hreceive] at h
  obtain ⟨canId, g, accepted, hsent, htype, hlow⟩ := mem_outputs_answered h
  refine ⟨canId, g, accepted, ?_, htype, hlow⟩
  have hcall : (call silent depth s (env, .rxFrame f canDl)).2 = es := hes
  rwa [hcall]

end Elicits

/-! ### The place in the block -/

/-- How many of the frames are CFs. -/
def cfCount (fs : List Frame) : Nat := fs.countP (·.pciType == pciTypeCf)

theorem cfCount_cons (f : Frame) (fs : List Frame) :
    cfCount (f :: fs) = cfCount fs + if f.pciType = pciTypeCf then 1 else 0 := by
  simp [cfCount, List.countP_cons]

theorem cfCount_concat (fs : List Frame) (f : Frame) :
    cfCount (fs ++ [f]) = cfCount fs + if f.pciType = pciTypeCf then 1 else 0 := by
  simp [cfCount, List.countP_append, List.countP_cons]

section Block

variable {size blockSize : Nat} {x : Option Assembly} {b : Assembly}

theorem block_stored {a : Assembly} (hblock : blockSize ≠ 0) (h : (a.stored blockSize).1 = some b)
    (hquiet : ∀ o ∈ (a.stored blockSize).2, o.Quiet) :
    b.block = a.block + 1 ∧ b.block < blockSize := by
  unfold Assembly.stored at h hquiet
  by_cases hend : a.length ≤ a.data.length
  · rw [if_pos hend] at h
    cases h
  rw [if_neg hend, if_neg hblock] at h hquiet
  by_cases hfull : blockSize ≤ a.block + 1
  · rw [if_pos hfull] at hquiet
    exact absurd (hquiet _ List.mem_cons_self) id
  · rw [if_neg hfull] at h
    obtain rfl := Option.some.inj h
    exact ⟨rfl, Nat.lt_of_not_le hfull⟩

theorem length_slice_cf (f : Frame) : (slice f.bytes 1 7).length = 7 :=
  length_slice (by simp [f.length_bytes])

theorem block_receive (hblock : blockSize ≠ 0) {f : Frame}
    (h : (receive size blockSize x (decode f 8)).1 = some b)
    (hquiet : ∀ o ∈ (receive size blockSize x (decode f 8)).2, o.Quiet) :
    ∃ a, x = some a ∧ b.block = a.block + (if f.pciType = pciTypeCf then 1 else 0) ∧
      (a.block < blockSize → b.block < blockSize) := by
  by_cases htype : f.pciType = pciTypeCf
  · rw [decode_cf (by decide) htype] at h hquiet
    cases x with
    | none => cases h
    | some a =>
        refine ⟨a, rfl, ?_⟩
        rw [if_pos htype]
        by_cases hseq : f.pciLow = a.seq
        · have hchunk : a.chunk ≤ (slice f.bytes 1 (8 - 1)).length := by
            rw [length_slice_cf]
            exact Nat.min_le_left _ _
          rw [receive_taken _ _ hseq hchunk] at h hquiet
          obtain ⟨hnext, hlt⟩ := block_stored hblock h hquiet
          exact ⟨hnext, fun _ => hlt⟩
        · simp only [receive, if_pos hseq] at h
          cases h
  · rw [if_neg htype]
    generalize hpdu : decode f 8 = p at h hquiet
    have hnotCf : ∀ seq data, p ≠ .consecutive seq data := by
      rintro seq data rfl
      obtain ⟨g, dlc, hcall, -, hcf, -⟩ := pdu_consecutive (c := .rxFrame f 8) hpdu
      cases hcall
      exact htype hcf
    cases p with
    | single data =>
        by_cases hlong : size < data.length
        · simp only [receive, if_pos hlong] at h
          exact ⟨b, h, rfl, id⟩
        · simp only [receive, if_neg hlong] at h
          cases h
    | first length data =>
        by_cases hlong : size < length
        · simp only [receive, if_pos hlong] at h
          cases h
        · simp only [receive, if_neg hlong] at hquiet
          exact absurd (hquiet _ (List.mem_append_right _ List.mem_cons_self)) id
    | consecutive seq data => exact absurd rfl (hnotCf seq data)
    | other => exact ⟨b, h, rfl, id⟩

theorem block_run (hblock : blockSize ≠ 0) {fs : List Frame}
    (h : (run (receive size blockSize) x (fs.map (decode · 8))).1 = some b)
    (hquiet : ∀ o ∈ (run (receive size blockSize) x (fs.map (decode · 8))).2, o.Quiet) :
    ∃ a, x = some a ∧ b.block = a.block + cfCount fs ∧ (a.block < blockSize → b.block < blockSize) := by
  induction fs generalizing x with
  | nil => exact ⟨b, h, rfl, id⟩
  | cons f fs ih =>
      rw [List.map_cons, run_cons] at h hquiet
      obtain ⟨hfirst, hrest⟩ := List.forall_mem_append.mp hquiet
      obtain ⟨c, hc, hcount, hroom⟩ := ih h hrest
      obtain ⟨a, rfl, hstep, hroom'⟩ := block_receive hblock hc hfirst
      refine ⟨a, rfl, ?_, hroom ∘ hroom'⟩
      rw [hcount, hstep, cfCount_cons]
      omega

end Block

/-! ### What a waiting sender has coming -/

/-- What a link answers the first frame of a message of this length with. -/
def Config.verdict (cfg : Config) (length : Nat) : Nat :=
  if cfg.rxBufferSize < length then fcStatusOvflw else fcStatusCts

/-- `f` is the last CF of the block that the link is receiving: it comes after the frames `before`. -/
def EndsBlock (l : Link) (before : List Frame) (f : Frame) : Prop :=
  f.pciType = pciTypeCf ∧ l.rx.rxBlockCount + cfCount (before ++ [f]) = l.cfg.blockSize.toNat

/-- A flow control of this status is on its way to `x`, or pending in `y`, or `y` will answer a frame
with it that is on its way: an FF, or the last CF of a block. -/
def Coming (depth status : Nat) (x y : Node) : Prop :=
  (∃ f ∈ x.inbox, f.pciType = pciTypeFc ∧ f.pciLow = status) ∨
    (y.link.rx.rxFcPending = true ∧ y.link.rx.rxFcStatus = status) ∨
    ∃ before f after, y.inbox = before ++ f :: after ∧
      (f.pciType = pciTypeFf ∨ EndsBlock y.link before f) ∧ Elicits depth y.link before f status

/-- While `x` waits, a flow control is coming: a CTS for a message that fits, an OVFLW for one that
does not. While it sends a block, the CFs that the peer has counted and those on their way add up. -/
structure Handshakes (depth : Nat) (x y : Node) : Prop where
  waiting : x.link.tx.txState = .waitFc →
    Coming depth (y.link.cfg.verdict x.link.tx.txLength) x y
  sending : x.link.tx.txState = .sendCf → x.link.tx.txBlockSize ≠ 0 →
    y.link.rx.rxBlockCount + cfCount y.inbox = x.link.tx.txBlockCount

theorem run_dataFrames (size blockSize : Nat) (x : Option Assembly) (fs : List Frame) :
    run (receive size blockSize) x ((dataFrames fs).map (decode · 8))
      = run (receive size blockSize) x (fs.map (decode · 8)) := by
  apply run_map_filter
  intro f hf y
  have htype : f.pciType = 3 := by simpa using hf
  rw [decode_other (by decide) (by omega)]
  rfl

theorem stored_answers {a : Assembly} {blockSize status : Nat}
    (h : Output.answered status ∈ (a.stored blockSize).2) :
    blockSize ≠ 0 ∧ blockSize ≤ a.block + 1 := by
  unfold Assembly.stored at h
  split at h
  · simp at h
  split at h
  · simp at h
  rename_i hblock
  split at h
  · rename_i hfull
    exact ⟨hblock, hfull⟩
  · simp at h

/-- Nothing but an FF and a CF that fills its block is answered. -/
theorem receive_answers {size blockSize : Nat} {x : Option Assembly} {f : Frame} {status : Nat}
    (h : Output.answered status ∈ (receive size blockSize x (decode f 8)).2) :
    f.pciType = pciTypeFf ∨ f.pciType = pciTypeCf ∧ blockSize ≠ 0 ∧
      ∃ a, x = some a ∧ blockSize ≤ a.block + 1 := by
  generalize hpdu : decode f 8 = p at h
  have hinterruption : Output.answered status ∉ interruption x := by
    cases x <;> simp [interruption]
  cases p with
  | other => cases h
  | first length data =>
      obtain ⟨g, hcall, htype, -⟩ := pdu_first (c := .rxFrame f 8) hpdu
      cases hcall
      exact .inl htype
  | single data =>
      simp only [receive] at h
      split at h
      · cases h
      · simp [hinterruption] at h
  | consecutive seq data =>
      obtain ⟨g, dlc, hcall, -, htype, -⟩ := pdu_consecutive (c := .rxFrame f 8) hpdu
      cases hcall
      refine .inr ⟨htype, ?_⟩
      cases x with
      | none => cases h
      | some a =>
          simp only [receive] at h
          split at h
          · simp at h
          split at h
          · cases h
          · obtain ⟨hblock, hfull⟩ := stored_answers h
            exact ⟨hblock, a, rfl, hfull⟩

theorem Shakes.expects {d : Direction} (h : Shakes d) (hs : d.tx.txState = .waitFc) :
    d.Expects (d.receiver.verdict d.tx.txLength) := by
  unfold Config.verdict
  obtain ⟨accepted, hagrees⟩ | hdeclined := h
  · obtain ⟨hmeets, hcontrol, hpending, hexpected⟩ := hagrees.expects
    rw [if_neg (Nat.not_lt.mpr (hagrees.at_wait hs))]
    exact ⟨hmeets, hcontrol, hpending, hexpected⟩
  · rw [if_pos hdeclined.long]
    exact hdeclined.expects

theorem Shakes.at_cf {d : Direction} (h : Shakes d) (hs : d.tx.txState = .sendCf) :
    d.tx.txBlockSize = d.receiver.blockSize.toNat ∧
      (∃ m k, d.drained.1 = some (partialOf m k d.tx.txBlockCount)) ∧
      ∀ o ∈ d.drained.2, o.Quiet := by
  obtain ⟨accepted, hagrees⟩ | hdeclined := h
  · obtain ⟨m, fs, k, -, -, -, hsize, hdrained, -⟩ := hagrees.at_cf hs 0
    have hnotWaiting : d.tx.txState ≠ .waitFc := by simp [hs]
    have hzero : d.expected = 0 := hagrees.expects.expected_zero hnotWaiting
    unfold Direction.expected at hzero
    exact ⟨hsize, ⟨m, k, hdrained⟩, quiet_of_meets hagrees.expects.meets (by omega)⟩
  · exact absurd hdeclined.state (by simp [hs])

section Direction

variable {x y : Node} {ex ey : List (Event Empty)}

theorem drained_direction (x y : Node) (ex ey : List (Event Empty)) :
    (direction x y ex ey).drained =
      run (receive y.link.cfg.rxBufferSize y.link.cfg.blockSize.toNat) y.link.rx.assembly
        (y.inbox.map (decode · 8)) :=
  run_dataFrames _ _ _ _

theorem quiet_before {size blockSize status : Nat} {a : Option Assembly} {before after : List Frame}
    {f : Frame}
    (hmeets : ∀ o ∈ (run (receive size blockSize) a ((before ++ f :: after).map (decode · 8))).2,
      o.Meets status)
    (hone : (run (receive size blockSize) a ((before ++ f :: after).map (decode · 8))).2.countP
      Output.isAnswer ≤ 1)
    (hanswer : Output.answered status ∈ (receive size blockSize
      (run (receive size blockSize) a (before.map (decode · 8))).1 (decode f 8)).2) :
    ∀ o ∈ (run (receive size blockSize) a (before.map (decode · 8))).2, o.Quiet := by
  rw [List.map_append, List.map_cons, run_append, run_cons] at hmeets hone
  rw [List.countP_append, List.countP_append] at hone
  have hpos : 0 < (receive size blockSize
      (run (receive size blockSize) a (before.map (decode · 8))).1 (decode f 8)).2.countP
        Output.isAnswer := List.countP_pos_iff.mpr ⟨_, hanswer, rfl⟩
  exact quiet_of_meets (fun o ho => hmeets o (List.mem_append_left _ ho)) (by omega)

theorem RxInv.block_lt {cfg : Config} {r : RxSide} (h : RxInv cfg r) {a : Assembly}
    (ha : r.assembly = some a) (hblock : cfg.blockSize.toNat ≠ 0) :
    a.block = r.rxBlockCount ∧ a.block < cfg.blockSize.toNat := by
  have hs := assembly_receiving ha
  obtain ⟨b, hb, -, -, -, hcount, -⟩ := h.assembly_eq hs
  obtain rfl := Option.some.inj (ha.symm.trans hb)
  rw [hcount]
  exact ⟨rfl, h.blockCount hs hblock⟩

theorem elicited {l : Link} (hinv : LinkInv l) (depth : Nat) {fs : List Frame} {status : Nat}
    (hmeets : ∀ o ∈ (run (receive l.cfg.rxBufferSize l.cfg.blockSize.toNat) l.rx.assembly
      (fs.map (decode · 8))).2, o.Meets status)
    (hone : (run (receive l.cfg.rxBufferSize l.cfg.blockSize.toNat) l.rx.assembly
      (fs.map (decode · 8))).2.countP Output.isAnswer = 1) :
    ∃ before f after, fs = before ++ f :: after ∧
      (f.pciType = pciTypeFf ∨ EndsBlock l before f) ∧ Elicits depth l before f status := by
  obtain ⟨o, ho, hisAnswer⟩ := List.countP_pos_iff.mp (hone ▸ Nat.zero_lt_one)
  obtain ⟨pdus, p, pdus', hsplit, hmem⟩ := mem_run ho
  obtain ⟨before, rest, rfl, rfl, hrest⟩ := List.map_eq_append_iff.mp hsplit
  obtain ⟨f, after, rfl, rfl, rfl⟩ := List.map_eq_cons_iff.mp hrest
  have hanswer : o = .answered status := by
    have hmeet := hmeets o ho
    cases o with
    | answered s => exact congrArg Output.answered hmeet
    | delivered | lost => cases hisAnswer
  rw [hanswer] at hmem
  refine ⟨before, f, after, rfl, ?_, elicits_of_answered hinv hmem⟩
  rcases receive_answers hmem with hff | ⟨hcf, hblock, b, hb, hfull⟩
  · exact .inl hff
  · have hquiet := quiet_before hmeets (Nat.le_of_eq hone) hmem
    obtain ⟨a, ha, hcount, hroom⟩ := block_run hblock hb hquiet
    obtain ⟨hsame, hlt⟩ := hinv.rx.block_lt ha hblock
    have hb' := hroom hlt
    refine .inr ⟨hcf, ?_⟩
    rw [cfCount_concat, if_pos hcf]
    omega

theorem Shakes.waiting (h : Shakes (direction x y ex ey)) (hinv : LinkInv y.link) (depth : Nat)
    (hs : x.link.tx.txState = .waitFc) :
    Coming depth (y.link.cfg.verdict x.link.tx.txLength) x y := by
  have hexpects : (direction x y ex ey).Expects (y.link.cfg.verdict x.link.tx.txLength) := h.expects hs
  have hstatus : y.link.cfg.verdict x.link.tx.txLength < 16 := by
    unfold Config.verdict
    split <;> decide
  generalize y.link.cfg.verdict x.link.tx.txLength = status at hexpects hstatus ⊢
  have hmeets := hexpects.meets
  have hexpected : (controlFrames x.inbox).length + y.link.rx.rxFcPending.toNat +
      (direction x y ex ey).drained.2.countP Output.isAnswer = 1 := hexpects.expected.trans (if_pos hs)
  rw [drained_direction] at hmeets hexpected
  cases hcontrol : controlFrames x.inbox with
  | cons f rest =>
      have hmem : f ∈ controlFrames x.inbox := by
        rw [hcontrol]
        exact List.mem_cons_self
      refine .inl ⟨f, List.mem_of_mem_filter hmem, ?_⟩
      rw [hexpects.control f hmem]
      exact ⟨Frame.pciType_padded (by decide) hstatus _, Frame.pciLow_padded (by decide) hstatus _⟩
  | nil =>
      cases hpending : y.link.rx.rxFcPending with
      | true => exact .inr (.inl ⟨hpending, hexpects.pending hpending⟩)
      | false =>
          rw [hcontrol, hpending, List.length_nil, Bool.toNat_false, Nat.zero_add] at hexpected
          exact .inr (.inr (elicited hinv depth hmeets hexpected))

theorem Shakes.sending (h : Shakes (direction x y ex ey)) (hinv : LinkInv y.link)
    (hs : x.link.tx.txState = .sendCf) (hblock : x.link.tx.txBlockSize ≠ 0) :
    y.link.rx.rxBlockCount + cfCount y.inbox = x.link.tx.txBlockCount := by
  obtain ⟨hsize, ⟨m, k, hdrained⟩, hquiet⟩ := h.at_cf hs
  have hsize' : x.link.tx.txBlockSize = y.link.cfg.blockSize.toNat := hsize
  rw [hsize'] at hblock
  rw [drained_direction] at hdrained hquiet
  obtain ⟨a, ha, hcount, -⟩ := block_run hblock hdrained hquiet
  rw [← (hinv.rx.block_lt ha hblock).1]
  exact hcount.symm

end Direction

/-! ### Every run -/

theorem shakes_init (cfgS cfgR : Config) :
    Shakes (direction { link := init cfgS, inbox := [] } { link := init cfgR, inbox := [] } [] []) :=
  .inl ⟨[], agrees_init cfgS cfgR⟩

/-- In every run in which no timer expires, whatever is sent and whatever the drivers refuse, a waiting
sender has a flow control coming, and a sender in a block and its peer count the same CFs. -/
theorem handshakes_run (depth : Nat) (cfgA cfgB : Config) (actions : List (Side × Env × Action))
    (htimely : Along (Net.step depth) (Net.Timely depth) (Net.init cfgA cfgB) actions) :
    let n := (run (Net.step depth) (Net.init cfgA cfgB) actions).1
    Handshakes depth n.a n.b ∧ Handshakes depth n.b n.a := by
  intro n
  let I : Net → List (Side × Event Empty) → Prop := fun n tr =>
    Paired Shakes (fun _ => True) n.a n.b (eventsAt .a tr) (eventsAt .b tr)
  have hstart : I (Net.init cfgA cfgB) [] :=
    ⟨shakes_init cfgA cfgB, shakes_init cfgB cfgA, nofun, nofun⟩
  have hkeep := run_invariant_of I (Net.Timely depth) ?_ [] hstart actions htimely
  · have hforth : Shakes (direction n.a n.b _ _) := hkeep.forth
    have hback : Shakes (direction n.b n.a _ _) := hkeep.back
    have hinvA : LinkInv n.a.link := ⟨hback.rx, hforth.tx⟩
    have hinvB : LinkInv n.b.link := ⟨hforth.rx, hback.tx⟩
    exact ⟨⟨hforth.waiting hinvB depth, hforth.sending hinvB⟩,
      ⟨hback.waiting hinvA depth, hback.sending hinvA⟩⟩
  · intro n tr i hn hi
    exact Paired.step kept_shakes depth hn i hi (fun _ _ => trivial) (fun _ _ => trivial)

/-- With the first frame of ten bytes on its way, a CTS is coming. -/
theorem handshakes_run_tenByteExchange :
    let n := (run (Net.step 0) (Net.init tenByteConfig tenByteConfig) (tenByteExchange.take 1)).1
    n.a.link.tx.txState = .waitFc ∧ Coming 0 fcStatusCts n.a n.b := by
  intro n
  have htimely : Along (Net.step 0) (Net.Timely 0) (Net.init tenByteConfig tenByteConfig)
      (tenByteExchange.take 1) := ⟨trivial, trivial⟩
  have hwaiting : n.a.link.tx.txState = .waitFc := by decide
  have hfits : n.b.link.cfg.verdict n.a.link.tx.txLength = fcStatusCts := by decide
  have hcoming :=
    (handshakes_run 0 tenByteConfig tenByteConfig (tenByteExchange.take 1) htimely).1.waiting hwaiting
  exact ⟨hwaiting, hfits ▸ hcoming⟩

/-! ### Twenty bytes that do not fit -/

def longConfig : Config := { tenByteConfig with txBuffer := List.replicate 32 0 }

/-- The message is sent, and its FF arrives. -/
def declinedExchange : List (Side × Env × Action) :=
  [(.a, promptEnv, .transmit (List.range 20 |>.map UInt8.ofNat)), (.b, promptEnv, .deliver)]

/-- The peer's buffer has sixteen bytes: the sender waits, and no CTS is coming. -/
theorem no_cts_declinedExchange :
    let n := (run (Net.step 0) (Net.init longConfig tenByteConfig) declinedExchange).1
    Along (Net.step 0) (Net.Timely 0) (Net.init longConfig tenByteConfig) declinedExchange ∧
      n.a.link.tx.txState = .waitFc ∧ ¬ Coming 0 fcStatusCts n.a n.b := by
  intro n
  refine ⟨⟨trivial, trivial, trivial⟩, by decide, ?_⟩
  have hinbox : ∀ f ∈ n.a.inbox, f.pciLow ≠ fcStatusCts := by decide
  have hpending : n.b.link.rx.rxFcPending = false := by decide
  have hempty : n.b.inbox = [] := by decide
  rintro (⟨f, hf, -, hlow⟩ | ⟨hset, -⟩ | ⟨before, f, after, hsplit, -⟩)
  · exact hinbox f hf hlow
  · rw [hpending] at hset
    cases hset
  · rw [hempty] at hsplit
    simp at hsplit

end MiniEcu.IsoTp
