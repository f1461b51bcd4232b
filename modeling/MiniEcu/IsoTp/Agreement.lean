import MiniEcu.IsoTp.Deliveries

/-!
# One direction between two links

A sender and a receiver, the data frames on their way to the receiver and the flow controls on their
way back. What ties them together is the outcome of letting the receiver read all the data frames
that are still on their way: it must stand where the sender stands, with the same bytes, the next
sequence number and the same place in the block, and the flow control the sender waits for is
either on its way, pending in the receiver, or one that reading those frames will produce.
-/

namespace MiniEcu.IsoTp

open Memory Trace

/-- One direction: the sender's configuration and state, the messages its `IsoTp_Transmit` has
accepted, the data frames on their way, the receiver, the messages it has been given, and the flow
controls on their way back. -/
structure Direction where
  sender : Config
  receiver : Config
  tx : TxSide
  accepted : List Bytes
  data : List Frame
  rx : RxSide
  delivered : List Bytes
  control : List Frame

/-- An output of a reception in which nothing goes wrong. -/
def Output.Good : Output → Prop
  | .delivered _ => True
  | .lost _ _ => False
  | .answered status => status = fcStatusCts

/-- The message in flight, if there is one, and where the receiver will stand once it has read what
has been sent of it. -/
inductive InFlight (cfg : Config) (t : TxSide) : Option Assembly → List Bytes → Prop
  | idle (hs : t.txState = .idle) : InFlight cfg t none []
  | first (hs : t.txState = .sendFirst) {m : Bytes} (hcarries : Carries t m [])
      (hfit : m.length ≤ cfg.rxBufferSize) : InFlight cfg t none [m]
  | waiting (hs : t.txState = .waitFc) {m : Bytes} {fs : List Frame} (hcarries : Carries t m fs)
      (hfit : m.length ≤ cfg.rxBufferSize) (k : Nat) (hoffset : t.txOffset = 6 + 7 * k) :
      InFlight cfg t (some (partialOf m k 0)) [m]
  | sending (hs : t.txState = .sendCf) {m : Bytes} {fs : List Frame} (hcarries : Carries t m fs)
      (hfit : m.length ≤ cfg.rxBufferSize) (k : Nat) (hoffset : t.txOffset = 6 + 7 * k)
      (hblock : t.txBlockSize = cfg.blockSize.toNat) :
      InFlight cfg t (some (partialOf m k t.txBlockCount)) [m]

theorem InFlight.eq_nil {cfg : Config} {t : TxSide} {x : Option Assembly} {flight : List Bytes}
    (h : InFlight cfg t x flight) (hidle : t.txState = .idle) : flight = [] := by
  cases h with
  | idle => rfl
  | first hs | waiting hs | sending hs =>
      rw [hs] at hidle
      cases hidle

namespace Direction

variable (d : Direction)

/-- The receiver once it has read the data frames on their way, and what it puts out meanwhile. -/
def drained : Option Assembly × List Output :=
  run (receive d.receiver.rxBufferSize d.receiver.blockSize.toNat) d.rx.assembly
    (d.data.map (decode · 8))

/-- The flow controls the sender can still expect. -/
def expected : Nat :=
  d.control.length + d.rx.rxFcPending.toNat + d.drained.2.countP Output.isAnswer

/-- The flow control with a status, as the receiver sends it. -/
def reply (status : Nat) : Frame := flowControlFrame status d.receiver.blockSize d.receiver.stMin

/-- The flow control the receiver answers with when all is well. -/
def clearToSend : Frame := flowControlFrame fcStatusCts d.receiver.blockSize d.receiver.stMin

end Direction

/-! ### What the sender waits for -/

/-- An output of a reception in which no message is lost and only flow controls with this status are
asked for. -/
def Output.Meets (status : Nat) : Output → Prop
  | .delivered _ => True
  | .lost _ _ => False
  | .answered s => s = status

theorem Output.good_iff (o : Output) : o.Good ↔ o.Meets fcStatusCts := by
  cases o <;> exact Iff.rfl

/-- Neither a flow control nor a loss. -/
def Output.Quiet : Output → Prop
  | .delivered _ => True
  | _ => False

theorem quiet_of_meets {status : Nat} {outs : List Output} (hmeets : ∀ o ∈ outs, o.Meets status)
    (hnone : outs.countP Output.isAnswer = 0) : ∀ o ∈ outs, o.Quiet := by
  intro o ho
  have hsilent := List.countP_eq_zero.mp hnone o ho
  have hmeet := hmeets o ho
  cases o with
  | delivered m => trivial
  | lost data result => exact hmeet
  | answered s => exact hsilent rfl

/-- A sender that waits can expect one flow control, with this status, and any other none. -/
structure Direction.Expects (d : Direction) (status : Nat) : Prop where
  meets : ∀ o ∈ d.drained.2, o.Meets status
  control : ∀ f ∈ d.control, f = d.reply status
  pending : d.rx.rxFcPending = true → d.rx.rxFcStatus = status
  expected : d.expected = if d.tx.txState = .waitFc then 1 else 0

theorem Answers.frame_eq {cfg : Config} {r r' : RxSide} {answers : List Output}
    {frames : List Frame} (h : Answers cfg r r' answers frames) {status : Nat}
    (hmeets : ∀ o ∈ answers, o.Meets status) {f : Frame} (hf : f ∈ frames) :
    f = flowControlFrame status cfg.blockSize cfg.stMin := by
  cases h with
  | none | deferred => cases hf
  | sent s =>
      have hstatus : s = status := hmeets _ List.mem_cons_self
      rw [List.mem_singleton.mp hf, hstatus]

/-- A flow control that is asked for is on its way afterwards, or pending. -/
theorem Answers.balance {cfg : Config} {r r' : RxSide} {answers : List Output} {frames : List Frame}
    (h : Answers cfg r r' answers frames) (hone : r.rxFcPending.toNat + answers.length ≤ 1) :
    frames.length + r'.rxFcPending.toNat = r.rxFcPending.toNat + answers.length := by
  cases h with
  | none hsame =>
      rw [hsame]
      exact Nat.add_comm _ _
  | sent s hnot =>
      rw [hnot]
      simp only [List.length_cons, List.length_nil, Bool.toNat_false] at hone ⊢
      omega
  | deferred s hstill =>
      rw [hstill]
      simp only [List.length_cons, List.length_nil, Bool.toNat_true] at hone ⊢
      omega

theorem Answers.pending_status {cfg : Config} {r r' : RxSide} {answers : List Output}
    {frames : List Frame} (h : Answers cfg r r' answers frames) {status : Nat}
    (hmeets : ∀ o ∈ answers, o.Meets status)
    (hbefore : r.rxFcPending = true → r.rxFcStatus = status) (hpending : r'.rxFcPending = true) :
    r'.rxFcStatus = status := by
  cases h with
  | none hsame hstatus => exact hstatus.trans (hbefore (hsame ▸ hpending))
  | sent s hnot => exact absurd (hnot.symm.trans hpending) Bool.false_ne_true
  | deferred s _ hstatus => exact hstatus.trans (hmeets _ List.mem_cons_self)

namespace Direction.Expects

variable {d : Direction} {status : Nat}

theorem expected_zero (h : d.Expects status) (hs : d.tx.txState ≠ .waitFc) : d.expected = 0 := by
  rw [h.expected, if_neg hs]

theorem restatus (h : d.Expects status) (hs : d.tx.txState ≠ .waitFc) (other : Nat) :
    d.Expects other := by
  have hzero := h.expected_zero hs
  unfold Direction.expected at hzero
  have hcontrol : d.control = [] := List.length_eq_zero_iff.mp (by omega)
  have hpending : d.rx.rxFcPending = false := by
    cases hcase : d.rx.rxFcPending with
    | false => rfl
    | true =>
        rw [hcase, Bool.toNat_true] at hzero
        omega
  have hquiet := quiet_of_meets h.meets (by omega)
  refine ⟨?_, ?_, ?_, h.expected⟩
  · intro o ho
    have hdelivered := hquiet o ho
    cases o with
    | delivered m => trivial
    | lost | answered => exact absurd hdelivered id
  · rw [hcontrol]
    nofun
  · rw [hpending]
    nofun

/-- Another data frame on its way is read after the others. -/
theorem drained_sent (d : Direction) (t : TxSide) (f : Frame) :
    ({ d with tx := t, data := d.data ++ [f] } : Direction).drained =
      ((receive d.receiver.rxBufferSize d.receiver.blockSize.toNat d.drained.1 (decode f 8)).1,
        d.drained.2 ++
          (receive d.receiver.rxBufferSize d.receiver.blockSize.toNat d.drained.1 (decode f 8)).2) := by
  simp only [Direction.drained, List.map_append, List.map_cons, List.map_nil, run_concat]

theorem sent (h : d.Expects status) (hs : d.tx.txState ≠ .waitFc) (t : TxSide) {f : Frame}
    {x : Option Assembly} {outs : List Output}
    (hreceive : receive d.receiver.rxBufferSize d.receiver.blockSize.toNat d.drained.1 (decode f 8)
      = (x, outs))
    (hmeets : ∀ o ∈ outs, o.Meets status)
    (hexpected : outs.countP Output.isAnswer = if t.txState = .waitFc then 1 else 0) :
    ({ d with tx := t, data := d.data ++ [f] } : Direction).Expects status ∧
      ({ d with tx := t, data := d.data ++ [f] } : Direction).drained = (x, d.drained.2 ++ outs) := by
  have hdrained := drained_sent d t f
  rw [hreceive] at hdrained
  have hzero := h.expected_zero hs
  refine ⟨⟨?_, h.control, h.pending, ?_⟩, hdrained⟩
  · rw [hdrained]
    exact List.forall_mem_append.mpr ⟨h.meets, hmeets⟩
  · unfold Direction.expected at hzero ⊢
    rw [hdrained, List.countP_append, hexpected]
    show d.control.length + d.rx.rxFcPending.toNat + _ = if t.txState = .waitFc then 1 else 0
    omega

theorem arrived (h : d.Expects status) {f : Frame} {rest : List Frame}
    (hcontrol : d.control = f :: rest) : d.tx.txState = .waitFc ∧ f = d.reply status ∧
      ∀ t : TxSide, t.txState ≠ .waitFc →
        ({ d with tx := t, control := rest } : Direction).Expects status := by
  have hexpected := h.expected
  have hframe : f = d.reply status := h.control f (by rw [hcontrol]; exact List.mem_cons_self)
  have hs : d.tx.txState = .waitFc := by
    by_contra hne
    rw [if_neg hne, Direction.expected, hcontrol, List.length_cons] at hexpected
    omega
  rw [if_pos hs, Direction.expected, hcontrol, List.length_cons] at hexpected
  refine ⟨hs, hframe, fun t ht => ⟨h.meets, ?_, h.pending, ?_⟩⟩
  · intro g hg
    exact h.control g (by rw [hcontrol]; exact List.mem_cons_of_mem f hg)
  · show rest.length + d.rx.rxFcPending.toNat + d.drained.2.countP Output.isAnswer
      = if t.txState = .waitFc then 1 else 0
    rw [if_neg ht]
    omega

theorem received (h : d.Expects status) {f : Frame} {rest : List Frame}
    (hdata : d.data = f :: rest) {r : RxSide} {es : List (Event Empty)}
    (hreceive : receive d.receiver.rxBufferSize d.receiver.blockSize.toNat d.rx.assembly (decode f 8)
      = (r.assembly, outputs es))
    (hanswers : Answers d.receiver d.rx r ((outputs es).filter Output.isAnswer) (sentFrames es)) :
    let d' : Direction := { d with
      rx := r
      data := rest
      delivered := d.delivered ++ deliveries es
      control := d.control ++ sentFrames es }
    d.drained = (d'.drained.1, outputs es ++ d'.drained.2) ∧
      (∀ o ∈ outputs es, o.Meets status) ∧ (∀ g ∈ sentFrames es, g = d.reply status) ∧
      d'.Expects status := by
  intro d'
  have hdrained : d.drained = (d'.drained.1, outputs es ++ d'.drained.2) := by
    simp only [Direction.drained, hdata, List.map_cons, run_cons, hreceive]
    rfl
  have hmeets := h.meets
  have hexpected := h.expected
  rw [hdrained] at hmeets
  rw [Direction.expected, hdrained, List.countP_append, List.countP_eq_length_filter] at hexpected
  obtain ⟨hnow, hlater⟩ := List.forall_mem_append.mp hmeets
  have hanswer : ∀ o ∈ (outputs es).filter Output.isAnswer, o.Meets status :=
    fun o ho => hnow o (List.mem_of_mem_filter ho)
  have hframes : ∀ g ∈ sentFrames es, g = d.reply status := fun g hg => hanswers.frame_eq hanswer hg
  have hatMost : (if d.tx.txState = .waitFc then 1 else 0) ≤ 1 := by split <;> simp
  have hbalance := hanswers.balance (by omega)
  refine ⟨hdrained, hnow, hframes, hlater, List.forall_mem_append.mpr ⟨h.control, hframes⟩,
    hanswers.pending_status hanswer h.pending, ?_⟩
  show (d.control ++ sentFrames es).length + r.rxFcPending.toNat + d'.drained.2.countP _
    = if d.tx.txState = .waitFc then 1 else 0
  rw [List.length_append]
  omega

theorem drained_answered (d : Direction) (status : Nat) (accepted : Bool) (control : List Frame) :
    ({ d with rx := d.rx.answered status accepted, control } : Direction).drained = d.drained := by
  unfold Direction.drained
  rw [assembly_answered]

theorem retried (h : d.Expects status) (hpending : d.rx.rxFcPending = true) (accepted : Bool) :
    ({ d with
      rx := d.rx.answered d.rx.rxFcStatus accepted
      control := d.control ++ if accepted then [d.reply d.rx.rxFcStatus] else [] } :
        Direction).Expects status := by
  have hexpected := h.expected
  have hstatus := h.pending hpending
  rw [Direction.expected, hpending] at hexpected
  refine ⟨?_, ?_, ?_, ?_⟩
  · rw [drained_answered]
    exact h.meets
  · refine List.forall_mem_append.mpr ⟨h.control, ?_⟩
    intro g hg
    cases accepted with
    | false => cases hg
    | true =>
        rw [List.mem_singleton.mp hg, hstatus]
        rfl
  · cases accepted with
    | false => exact fun _ => hstatus
    | true => nofun
  · rw [Direction.expected, drained_answered]
    cases accepted with
    | false =>
        show (d.control ++ []).length + 1 + d.drained.2.countP _ = _
        rw [List.append_nil]
        exact hexpected
    | true =>
        show (d.control ++ [_]).length + 0 + d.drained.2.countP _ = _
        rw [List.length_append, List.length_singleton]
        exact hexpected

end Direction.Expects

/-! ### Agreement -/

/-- Sender and receiver agree. -/
structure Agrees (d : Direction) : Prop where
  tx : TxInv d.sender d.tx
  rx : RxInv d.receiver d.rx
  good : ∀ o ∈ d.drained.2, o.Good
  control : ∀ f ∈ d.control, f = d.clearToSend
  pending : d.rx.rxFcPending = true → d.rx.rxFcStatus = fcStatusCts
  expected : d.expected = if d.tx.txState = .waitFc then 1 else 0
  messages : ∃ flight, InFlight d.receiver d.tx d.drained.1 flight ∧
    d.delivered ++ d.drained.2.filterMap Output.message ++ flight = d.accepted

theorem TxSide.Paced.sentFrames {t : TxSide} {pace : List (Event Empty)} (h : t.Paced pace) :
    sentFrames pace = [] := by
  cases h <;> rfl

theorem sentFrames_cf {t : TxSide} {pace rest : List (Event Empty)} (hpace : t.Paced pace)
    (hrest : sentFrames rest = []) (canId : Nat) :
    sentFrames (pace ++ (.txRead t.txOffset t.chunk :: .sendFrame canId t.consecutive true :: rest))
      = [t.consecutive] := by
  rw [sentFrames_append, hpace.sentFrames]
  exact congrArg (t.consecutive :: ·) hrest

theorem Carries.decode_first {t : TxSide} {m : Bytes} {fs : List Frame} (h : Carries t m fs)
    (hmax : m.length ≤ 4095) :
    decode t.first 8 = if m.length ≤ 7 then .single m else .first m.length (m.take 6) := by
  have hfirst := h.first
  by_cases hlen : m.length ≤ 7
  · rw [segmentation, if_pos hlen] at hfirst
    have hframe : t.first = singleFrame m.length m := List.head_eq_of_cons_eq hfirst
    rw [hframe, if_pos hlen, decode_singleFrame h.nonempty hlen]
  · rw [segmentation, if_neg hlen] at hfirst
    have hframe : t.first = firstFrame m.length (m.take 6) := List.head_eq_of_cons_eq hfirst
    have hdata : (m.take 6).length = 6 := by
      rw [List.length_take]
      omega
    rw [hframe, if_neg hlen, decode_firstFrame (by omega) hmax hdata]

theorem Advances.receive {t : TxSide} {m : Bytes} {fs : List Frame} {time k : Nat}
    (h : Advances t m fs time k) (hlength : t.txLength = m.length) (size blockSize block : Nat) :
    receive size blockSize (some (partialOf m k block)) (decode t.consecutive 8) =
      if t.txLength ≤ (t.advance time).txOffset then (none, [.delivered m])
      else if blockSize = 0 then (some (partialOf m (k + 1) block), [])
      else if blockSize ≤ block + 1 then (some (partialOf m (k + 1) 0), [.answered fcStatusCts])
      else (some (partialOf m (k + 1) (block + 1)), []) := by
  have hlt := h.lt
  have hlong := h.long
  have hk : 6 + 7 * k < m.length := by
    unfold segmentCount at hlt
    omega
  have hend : t.txLength ≤ (t.advance time).txOffset ↔ m.length ≤ 6 + 7 * (k + 1) := by
    rw [hlength, h.offset]
    omega
  simp only [h.frame, receive_segment size blockSize block hk, hend]

theorem TxInv.nextBlockCount {cfg : Config} {t : TxSide} (h : TxInv cfg t) (hs : t.txState = .sendCf)
    (hblock : t.txBlockSize ≠ 0) : t.nextBlockCount = t.txBlockCount + 1 := by
  have hlt := h.blockCount hs hblock
  have hsize := h.blockSize
  exact Nat.mod_eq_of_lt (by omega)

theorem Advances.offset_more {t : TxSide} {m : Bytes} {fs : List Frame} {time k : Nat}
    (h : Advances t m fs time k) (hlength : t.txLength = m.length)
    (hmore : (t.advance time).txOffset < t.txLength) :
    (t.advance time).txOffset = 6 + 7 * (k + 1) := by
  rw [hlength, h.offset] at hmore
  rw [h.offset]
  omega

section Resumed

variable {cfg : Config} {t t' : TxSide} {m : Bytes} {fs : List Frame} {time k : Nat}
  (h : Advances t m fs time k) (hcarries : Carries t m fs)
  (hmore : (t.advance time).txOffset < t.txLength) (hfit : m.length ≤ cfg.rxBufferSize)
  (hbuffer : t'.txBuffer = t.txBuffer) (hlength : t'.txLength = t.txLength)
  (hoffset : t'.txOffset = (t.advance time).txOffset) (hseq : t'.txSeq = (t.advance time).txSeq)
include h hcarries hmore hfit hbuffer hlength hoffset hseq

theorem Advances.waiting (hs : t'.txState = .waitFc) :
    InFlight cfg t' (some (partialOf m (k + 1) 0)) [m] :=
  .waiting hs (h.carries hcarries hmore hbuffer hlength hoffset hseq (.inl hs)) hfit (k + 1)
    (hoffset.trans (h.offset_more hcarries.length hmore))

theorem Advances.sending (hs : t'.txState = .sendCf)
    (hblock : t'.txBlockSize = cfg.blockSize.toNat) :
    InFlight cfg t' (some (partialOf m (k + 1) t'.txBlockCount)) [m] :=
  .sending hs (h.carries hcarries hmore hbuffer hlength hoffset hseq (.inr hs)) hfit (k + 1)
    (hoffset.trans (h.offset_more hcarries.length hmore)) hblock

end Resumed

namespace Agrees

variable {d : Direction}

theorem expects (h : Agrees d) : d.Expects fcStatusCts :=
  ⟨fun o ho => o.good_iff.mp (h.good o ho), h.control, h.pending, h.expected⟩

theorem of_expects (htx : TxInv d.sender d.tx) (hrx : RxInv d.receiver d.rx)
    (h : d.Expects fcStatusCts) (flight : List Bytes)
    (hflight : InFlight d.receiver d.tx d.drained.1 flight)
    (hmessages : d.delivered ++ d.drained.2.filterMap Output.message ++ flight = d.accepted) :
    Agrees d :=
  ⟨htx, hrx, fun o ho => o.good_iff.mpr (h.meets o ho), h.control, h.pending, h.expected, flight,
    hflight, hmessages⟩

/-! ### What agreement means -/

theorem delivered_prefix (h : Agrees d) : d.delivered <+: d.accepted := by
  obtain ⟨flight, -, hmessages⟩ := h.messages
  rw [← hmessages, List.append_assoc]
  exact List.prefix_append _ _

theorem delivered_eq (h : Agrees d) (hidle : d.tx.txState = .idle) (hdata : d.data = []) :
    d.delivered = d.accepted := by
  obtain ⟨flight, hflight, hmessages⟩ := h.messages
  have hnone : flight = [] := hflight.eq_nil hidle
  have hdrained : d.drained.2 = [] := by rw [Direction.drained, hdata, List.map_nil, run_nil]
  rw [← hmessages, hdrained, hnone]
  simp

/-! ### The sender sends -/

theorem sent (h : Agrees d) (hs : d.tx.txState ≠ .waitFc) {t : TxSide} (htx : TxInv d.sender t)
    {f : Frame} (x : Option Assembly) (outs : List Output)
    (hreceive : receive d.receiver.rxBufferSize d.receiver.blockSize.toNat d.drained.1 (decode f 8)
      = (x, outs))
    (hgood : ∀ o ∈ outs, o.Good)
    (hexpected : outs.countP Output.isAnswer = if t.txState = .waitFc then 1 else 0)
    {flight : List Bytes} (hflight : InFlight d.receiver t x flight)
    (hmessages : d.delivered ++ d.drained.2.filterMap Output.message ++
      (outs.filterMap Output.message ++ flight) = d.accepted) :
    Agrees { d with tx := t, data := d.data ++ [f] } := by
  obtain ⟨hexpects, hdrained⟩ := h.expects.sent hs t hreceive
    (fun o ho => o.good_iff.mp (hgood o ho)) hexpected
  refine of_expects htx h.rx hexpects flight ?_ ?_
  · rw [hdrained]
    exact hflight
  · rw [hdrained, List.filterMap_append, ← hmessages]
    simp only [List.append_assoc]

theorem still (h : Agrees d) {es : List (Event Empty)} (hes : sentFrames es = []) :
    Agrees { d with data := d.data ++ sentFrames es } := by
  rw [hes, List.append_nil]
  exact h

theorem at_first (h : Agrees d) (hs : d.tx.txState = .sendFirst) :
    ∃ m, Carries d.tx m [] ∧ m.length ≤ d.receiver.rxBufferSize ∧ d.drained.1 = none ∧
      d.delivered ++ d.drained.2.filterMap Output.message ++ [m] = d.accepted := by
  obtain ⟨flight, hflight, hmessages⟩ := h.messages
  generalize d.drained.1 = x at hflight ⊢
  cases hflight with
  | idle hs' | waiting hs' | sending hs' =>
      rw [hs] at hs'
      cases hs'
  | first _ hcarries hfit => exact ⟨_, hcarries, hfit, rfl, hmessages⟩

theorem at_wait (h : Agrees d) (hs : d.tx.txState = .waitFc) :
    d.tx.txLength ≤ d.receiver.rxBufferSize := by
  obtain ⟨flight, hflight, -⟩ := h.messages
  generalize d.drained.1 = x at hflight
  cases hflight with
  | idle hs' | first hs' | sending hs' =>
      rw [hs] at hs'
      cases hs'
  | waiting _ hcarries hfit => exact Nat.le_trans (Nat.le_of_eq hcarries.length) hfit

theorem at_cf (h : Agrees d) (hs : d.tx.txState = .sendCf) (time : Nat) :
    ∃ m fs k, Carries d.tx m fs ∧ Advances d.tx m fs time k ∧
      m.length ≤ d.receiver.rxBufferSize ∧ d.tx.txBlockSize = d.receiver.blockSize.toNat ∧
      d.drained.1 = some (partialOf m k d.tx.txBlockCount) ∧
      d.delivered ++ d.drained.2.filterMap Output.message ++ [m] = d.accepted := by
  obtain ⟨flight, hflight, hmessages⟩ := h.messages
  generalize d.drained.1 = x at hflight ⊢
  cases hflight with
  | idle hs' | first hs' | waiting hs' =>
      rw [hs] at hs'
      cases hs'
  | @sending _ m fs hcarries hfit k hoffset hblock =>
      obtain ⟨j, hadvances⟩ := hcarries.advances h.tx hs time
      have hsame : j = k := by
        have hstart := hadvances.start
        omega
      subst hsame
      exact ⟨m, fs, j, hcarries, hadvances, hfit, hblock, rfl, hmessages⟩

/-- One step of the sender, with the frames it puts on their way. -/
theorem sending (h : Agrees d) {es : List (Event Empty)} {t : TxSide}
    (hstep : Sending d.sender d.tx es t) :
    Agrees { d with tx := t, data := d.data ++ sentFrames es } := by
  have hnotWaiting : d.tx.txState ≠ .waitFc := by cases hstep <;> simp_all
  have htx := h.tx.sending hstep
  cases hstep with
  | firstRefused hs => exact h.still rfl
  | tooEarly hs => exact h.still rfl
  | unfinished hs => exact h.still rfl
  | cfRefused hs hpace =>
      apply h.still
      rw [sentFrames_append, hpace.sentFrames]
      rfl
  | singleSent hs hlen =>
      obtain ⟨m, hcarries, hfit, hdrained, hmessages⟩ := h.at_first hs
      have hmax : d.tx.txLength ≤ 4095 := Nat.le_trans h.tx.length (Nat.min_le_left _ _)
      rw [hcarries.length] at hlen hmax
      have hroom : ¬ d.receiver.rxBufferSize < m.length := Nat.not_lt.mpr hfit
      refine h.sent hnotWaiting htx none [.delivered m] ?_
        (by simp [Output.Good]) rfl (.idle rfl) (by simpa [Output.message] using hmessages)
      rw [hdrained, hcarries.decode_first hmax, if_pos hlen]
      exact if_neg hroom
  | firstSent hs hlen time =>
      obtain ⟨m, hcarries, hfit, hdrained, hmessages⟩ := h.at_first hs
      have hmax : d.tx.txLength ≤ 4095 := Nat.le_trans h.tx.length (Nat.min_le_left _ _)
      rw [hcarries.length] at hlen hmax
      have hroom : ¬ d.receiver.rxBufferSize < m.length := Nat.not_lt.mpr hfit
      have hcarried : Carries (d.tx.afterFirst time) m ((segmentation m).take 1) :=
        ⟨hcarries.message, hcarries.length, hcarries.nonempty, .inr ⟨.inl rfl, hlen, 0, rfl, rfl, rfl⟩⟩
      refine h.sent hnotWaiting htx (some (partialOf m 0 0)) [.answered fcStatusCts] ?_
        (by simp [Output.Good]) rfl (.waiting rfl hcarried hfit 0 rfl) (by simpa using hmessages)
      rw [hdrained, hcarries.decode_first hmax, if_neg (Nat.not_le.mpr hlen)]
      exact if_neg hroom
  | lastSent hs hpace time hend =>
      obtain ⟨m, fs, k, hcarries, hadvances, hfit, hblock, hdrained, hmessages⟩ := h.at_cf hs time
      rw [sentFrames_cf hpace rfl]
      refine h.sent hnotWaiting htx none [.delivered m] ?_ (by simp [Output.Good]) rfl (.idle rfl)
        (by simpa [Output.message] using hmessages)
      rw [hdrained, hadvances.receive hcarries.length, if_pos hend]
  | cfSent hs hpace time hmore hnone =>
      obtain ⟨m, fs, k, hcarries, hadvances, hfit, hblock, hdrained, hmessages⟩ := h.at_cf hs time
      have hsending : (d.tx.advance time).txState = .sendCf := hs
      rw [sentFrames_cf hpace rfl]
      refine h.sent hnotWaiting htx _ [] ?_ (by simp) (by simp [hsending])
        (hadvances.sending hcarries hmore hfit rfl rfl rfl rfl hs hblock) (by simpa using hmessages)
      rw [hdrained, hadvances.receive hcarries.length, if_neg (Nat.not_le.mpr hmore), ← hblock,
        if_pos hnone]
      rfl
  | cfSentInBlock hs hpace time hmore hsome hcount =>
      obtain ⟨m, fs, k, hcarries, hadvances, hfit, hblock, hdrained, hmessages⟩ := h.at_cf hs time
      have hnext := h.tx.nextBlockCount hs hsome
      have hsending : (d.tx.advance time).txState = .sendCf := hs
      rw [sentFrames_cf hpace rfl]
      refine h.sent hnotWaiting htx _ [] ?_ (by simp) (by simp [hsending])
        (hadvances.sending hcarries hmore hfit rfl rfl rfl rfl hs hblock) (by simpa using hmessages)
      rw [hdrained, hadvances.receive hcarries.length, if_neg (Nat.not_le.mpr hmore), ← hblock,
        if_neg hsome, ← hnext, if_neg (Nat.not_le.mpr hcount)]
  | blockSent hs hpace time after hmore hsome hcount =>
      obtain ⟨m, fs, k, hcarries, hadvances, hfit, hblock, hdrained, hmessages⟩ := h.at_cf hs time
      have hnext := h.tx.nextBlockCount hs hsome
      rw [sentFrames_cf hpace rfl]
      refine h.sent hnotWaiting htx _ [.answered fcStatusCts] ?_ (by simp [Output.Good]) rfl
        (hadvances.waiting hcarries hmore hfit rfl rfl rfl rfl rfl) (by simpa using hmessages)
      rw [hdrained, hadvances.receive hcarries.length, if_neg (Nat.not_le.mpr hmore), ← hblock,
        if_neg hsome, ← hnext, if_pos hcount]

/-- With the sender idle, the receiver has nothing under construction once it has read everything. -/
theorem free (h : Agrees d) (hs : d.tx.txState = .idle) : d.drained.1 = none := by
  obtain ⟨flight, hflight, -⟩ := h.messages
  generalize d.drained.1 = x at hflight ⊢
  cases hflight with
  | idle | first => rfl
  | waiting hs' | sending hs' =>
      rw [hs] at hs'
      cases hs'

theorem started (h : Agrees d) (hs : d.tx.txState = .idle) {m : Bytes} (hpos : m.length ≠ 0)
    (hmax : m.length ≤ 4095) (hfits : m.length ≤ d.sender.txBufferSize)
    (hfit : m.length ≤ d.receiver.rxBufferSize) (time : Nat) :
    Agrees { d with tx := d.tx.started m time, accepted := d.accepted ++ [m] } := by
  have htx : TxInv d.sender (d.tx.started m time) :=
    h.tx.step (ε := Empty) (.start m time hs hpos hmax hfits)
  have hcarries : Carries (d.tx.started m time) m [] :=
    ⟨take_copy_zero _ m, rfl, hpos, .inl ⟨rfl, rfl⟩⟩
  obtain ⟨flight, hflight, hmessages⟩ := h.messages
  have hnone : d.drained.1 = none := h.free hs
  rw [hflight.eq_nil hs, List.append_nil] at hmessages
  refine ⟨htx, h.rx, h.good, h.control, h.pending, ?_, [m], ?_, ?_⟩
  · exact h.expects.expected_zero (by rw [hs]; decide)
  · show InFlight d.receiver (d.tx.started m time) d.drained.1 [m]
    rw [hnone]
    exact .first rfl hcarries hfit
  · show d.delivered ++ d.drained.2.filterMap Output.message ++ [m] = d.accepted ++ [m]
    rw [hmessages]

theorem cleared (h : Agrees d) {f : Frame} {rest : List Frame} (hcontrol : d.control = f :: rest)
    (time : Nat) :
    d.tx.txState = .waitFc ∧ f = d.clearToSend ∧
      Agrees { d with tx := d.tx.cleared (f.byte 1) (f.byte 2) time, control := rest } := by
  obtain ⟨hs, hframe, hexpects⟩ := h.expects.arrived hcontrol
  have hblock : f.byte 1 = d.receiver.blockSize.toNat := by
    rw [hframe]
    simp [Direction.reply, flowControlFrame, Frame.padded, Frame.byte]
  obtain ⟨flight, hflight, hmessages⟩ := h.messages
  have hsending : (d.tx.cleared (f.byte 1) (f.byte 2) time).txState ≠ .waitFc := by
    simp [TxSide.cleared]
  refine ⟨hs, hframe, of_expects (h.tx.step (ε := Empty) (.clearToSend f time hs)) h.rx
    (hexpects _ hsending) flight ?_ hmessages⟩
  show InFlight d.receiver (d.tx.cleared (f.byte 1) (f.byte 2) time) d.drained.1 flight
  generalize d.drained.1 = x at hflight ⊢
  cases hflight with
  | idle hs' | first hs' | sending hs' =>
      rw [hs] at hs'
      cases hs'
  | waiting hs' hcarries hfit k hoffset =>
      rcases hcarries.sent with ⟨hfirst, -⟩ | ⟨-, hlong, hsent⟩
      · rw [hs] at hfirst
        cases hfirst
      · have hcarried : Carries (d.tx.cleared (f.byte 1) (f.byte 2) time) _ _ :=
          ⟨hcarries.message, hcarries.length, hcarries.nonempty, .inr ⟨.inr rfl, hlong, hsent⟩⟩
        exact .sending rfl hcarried hfit k hoffset hblock

/-! ### The receiver reads -/

theorem received (h : Agrees d) {f : Frame} {rest : List Frame} (hdata : d.data = f :: rest)
    {r : RxSide} (hrx : RxInv d.receiver r) {es : List (Event Empty)}
    (hreceive : receive d.receiver.rxBufferSize d.receiver.blockSize.toNat d.rx.assembly (decode f 8)
      = (r.assembly, outputs es))
    (hanswers : Answers d.receiver d.rx r ((outputs es).filter Output.isAnswer) (sentFrames es)) :
    (∀ o ∈ outputs es, o.Good) ∧
      Agrees { d with
        rx := r
        data := rest
        delivered := d.delivered ++ deliveries es
        control := d.control ++ sentFrames es } := by
  let d' : Direction := { d with
    rx := r
    data := rest
    delivered := d.delivered ++ deliveries es
    control := d.control ++ sentFrames es }
  have hread := h.expects.received hdata hreceive hanswers
  have hdrained : d.drained = (d'.drained.1, outputs es ++ d'.drained.2) := hread.1
  obtain ⟨-, hmeets, -, hexpects⟩ := hread
  obtain ⟨flight, hflight, hmessages⟩ := h.messages
  rw [hdrained] at hflight hmessages
  refine ⟨fun o ho => o.good_iff.mpr (hmeets o ho),
    of_expects h.tx hrx hexpects flight hflight ?_⟩
  show d.delivered ++ deliveries es ++ d'.drained.2.filterMap Output.message ++ flight = d.accepted
  rw [deliveries_eq, ← hmessages, List.filterMap_append]
  simp only [List.append_assoc]

theorem retried (h : Agrees d) (hpending : d.rx.rxFcPending = true) (accepted : Bool) :
    Agrees { d with
      rx := d.rx.answered d.rx.rxFcStatus accepted
      control := d.control ++ if accepted then [d.reply d.rx.rxFcStatus] else [] } := by
  have hrx : RxInv d.receiver (d.rx.answered d.rx.rxFcStatus accepted) :=
    h.rx.step (ε := Empty) (.flowControl d.rx.rxFcStatus accepted (.inr rfl))
  have hexpects := h.expects.retried hpending accepted
  obtain ⟨flight, hflight, hmessages⟩ := h.messages
  refine of_expects h.tx hrx hexpects flight ?_ ?_
  · rw [Direction.Expects.drained_answered]
    exact hflight
  · rw [Direction.Expects.drained_answered]
    exact hmessages

end Agrees

/-! ### Ends that start anew -/

/-- A message under construction is not dropped without an output. -/
theorem run_receive_silent {size blockSize : Nat} {ps : List Pdu} {a : Assembly}
    (h : (run (receive size blockSize) (some a) ps).2 = []) :
    (run (receive size blockSize) (some a) ps).1 ≠ none := by
  induction ps generalizing a with
  | nil => exact Option.some_ne_none a
  | cons p ps ih =>
      rw [run_cons] at h ⊢
      obtain ⟨hfirst, hrest⟩ := List.append_eq_nil_iff.mp h
      have hkept : ∃ a', (receive size blockSize (some a) p).1 = some a' := by
        cases p with
        | single data =>
            simp only [receive] at hfirst ⊢
            split at hfirst
            · rename_i hlong
              exact ⟨a, by rw [if_pos hlong]⟩
            · simp at hfirst
        | first length data =>
            simp only [receive] at hfirst
            split at hfirst <;> simp at hfirst
        | consecutive seq data =>
            simp only [receive] at hfirst ⊢
            split at hfirst
            · simp at hfirst
            split at hfirst
            · rename_i hseq hshort
              exact ⟨a, by rw [if_neg hseq, if_pos hshort]⟩
            · rename_i hseq henough
              rw [if_neg hseq, if_neg henough]
              unfold Assembly.stored at hfirst ⊢
              split at hfirst
              · simp at hfirst
              · rename_i hmore
                rw [if_neg hmore]
                split
                · exact ⟨_, rfl⟩
                · split <;> exact ⟨_, rfl⟩
        | other => exact ⟨a, rfl⟩
      obtain ⟨a', hkept⟩ := hkept
      rw [hkept] at hrest ⊢
      exact ih hrest

namespace Agrees

variable {d : Direction}

/-- With everything delivered the sender is idle, and the receiver owes nothing. -/
theorem at_rest (h : Agrees d) (hall : d.delivered = d.accepted) :
    d.tx.txState = .idle ∧ d.rx.assembly = none ∧ d.rx.rxFcPending = false := by
  obtain ⟨flight, hflight, hmessages⟩ := h.messages
  have hlength := congrArg List.length (hmessages.trans hall.symm)
  rw [List.append_assoc, List.length_append, List.length_append] at hlength
  have hflown : flight = [] := List.length_eq_zero_iff.mp (by omega)
  have hread : d.drained.2.filterMap Output.message = [] := List.length_eq_zero_iff.mp (by omega)
  have hidle : d.tx.txState = .idle := by
    subst hflown
    generalize d.drained.1 = x at hflight
    cases hflight with
    | idle hs => exact hs
  have hzero := h.expects.expected_zero (by rw [hidle]; decide)
  unfold Direction.expected at hzero
  have hquiet := quiet_of_meets h.expects.meets (by omega)
  have hnone : d.drained.2 = [] := by
    refine List.eq_nil_iff_forall_not_mem.mpr fun o ho => ?_
    have hdelivered := hquiet o ho
    cases o with
    | delivered m =>
        have hm : m ∈ d.drained.2.filterMap Output.message := List.mem_filterMap.mpr ⟨_, ho, rfl⟩
        rw [hread] at hm
        cases hm
    | lost | answered => exact hdelivered
  refine ⟨hidle, ?_, ?_⟩
  · cases hassembly : d.rx.assembly with
    | none => rfl
    | some a =>
        have hfree := h.free hidle
        unfold Direction.drained at hnone hfree
        rw [hassembly] at hnone hfree
        exact absurd hfree (run_receive_silent hnone)
  · cases hpending : d.rx.rxFcPending with
    | false => rfl
    | true =>
        rw [hpending, Bool.toNat_true] at hzero
        omega

theorem resume (h : Agrees d) (hs : d.tx.txState = .idle) {t : TxSide} (ht : TxInv d.sender t)
    (hs' : t.txState = .idle) : Agrees { d with tx := t } := by
  obtain ⟨flight, hflight, hmessages⟩ := h.messages
  have hzero := h.expects.expected_zero (by rw [hs]; decide)
  have hflown : flight = [] := hflight.eq_nil hs
  have hfree := h.free hs
  refine ⟨ht, h.rx, h.good, h.control, h.pending, ?_, [], ?_, hflown ▸ hmessages⟩
  · show d.expected = if t.txState = .waitFc then 1 else 0
    rw [hzero, hs']
    rfl
  · show InFlight d.receiver t d.drained.1 []
    rw [hfree]
    exact .idle hs'

/-- One receiver that owes nothing is as good as another. -/
theorem relisten (h : Agrees d) (hfree : d.rx.assembly = none) (hnot : d.rx.rxFcPending = false)
    {r : RxSide} (hr : RxInv d.receiver r) (hfree' : r.assembly = none)
    (hnot' : r.rxFcPending = false) : Agrees { d with rx := r } := by
  have hdrained : ({ d with rx := r } : Direction).drained = d.drained := by
    unfold Direction.drained
    rw [hfree, hfree']
  have hexpected : ({ d with rx := r } : Direction).expected = d.expected := by
    unfold Direction.expected
    rw [hdrained, hnot, hnot']
  refine ⟨h.tx, hr, ?_, h.control, ?_, hexpected.trans h.expected, ?_⟩
  · rw [hdrained]
    exact h.good
  · rw [hnot']
    nofun
  · rw [hdrained]
    exact h.messages

end Agrees

end MiniEcu.IsoTp
