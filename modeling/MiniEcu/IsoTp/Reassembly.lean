import MiniEcu.IsoTp.Assembly
import MiniEcu.IsoTp.Silent

/-!
# The receiver refines the reference reassembler

Every frame a link is given takes its receiver from one abstract state to the next exactly as
`receive` says, with the same messages, losses and flow controls as outputs. What the abstract
reassembler does not know, the retry of a flow control the driver refused and the N_Cr timer, is
described beside it.
-/

namespace MiniEcu.IsoTp

open Memory Trace

/-! ### What a receiver stands for -/

/-- The message under construction that the receiver's fields describe. -/
def RxSide.assembly (r : RxSide) : Option Assembly :=
  if r.rxState = .receiving then
    some { length := r.rxLength, data := r.rxBuffer.take r.rxOffset, seq := r.rxSeq,
           block := r.rxBlockCount }
  else none

section Outputs

variable {ε : Type}

def Event.output : Event ε → Option Output
  | .rxIndication data .ok => some (.delivered data)
  | .rxIndication data result => some (.lost data result)
  | .sendFrame _ f _ => if f.pciType = pciTypeFc then some (.answered f.pciLow) else none
  | _ => none

/-- What a trace shows of the receiver. -/
def outputs (es : List (Event ε)) : List Output := es.filterMap Event.output

def Event.sent : Event ε → Option Frame
  | .sendFrame _ f true => some f
  | _ => none

/-- The frames the driver has taken. -/
def sentFrames (es : List (Event ε)) : List Frame := es.filterMap Event.sent

@[simp] theorem outputs_append (es fs : List (Event ε)) :
    outputs (es ++ fs) = outputs es ++ outputs fs := List.filterMap_append

@[simp] theorem sentFrames_append (es fs : List (Event ε)) :
    sentFrames (es ++ fs) = sentFrames es ++ sentFrames fs := List.filterMap_append

theorem output_flowControl {status : Nat} (h : status ≤ 2) (canId : Nat) (blockSize stMin : UInt8)
    (accepted : Bool) :
    (Event.sendFrame (ε := ε) canId (flowControlFrame status blockSize stMin) accepted).output
      = some (.answered status) := by
  have htype : (flowControlFrame status blockSize stMin).pciType = 3 :=
    Frame.pciType_padded (by decide) (by omega) _
  have hlow : (flowControlFrame status blockSize stMin).pciLow = status :=
    Frame.pciLow_padded (by decide) (by omega) _
  simp [Event.output, htype, hlow]

end Outputs

/-- How a flow control that the reassembler asks for leaves the link: the driver takes it, or it
stays pending. -/
inductive Answers (cfg : Config) (r r' : RxSide) : List Output → List Frame → Prop
  | none (hpending : r'.rxFcPending = r.rxFcPending) (hstatus : r'.rxFcStatus = r.rxFcStatus) :
      Answers cfg r r' [] []
  | sent (status : Nat) (hpending : r'.rxFcPending = false) :
      Answers cfg r r' [.answered status] [flowControlFrame status cfg.blockSize cfg.stMin]
  | deferred (status : Nat) (hpending : r'.rxFcPending = true) (hstatus : r'.rxFcStatus = status) :
      Answers cfg r r' [.answered status] []

theorem Answers.congr {cfg : Config} {r r₀ r' : RxSide} {outs : List Output} {frames : List Frame}
    (h : Answers cfg r₀ r' outs frames) (hpending : r₀.rxFcPending = r.rxFcPending)
    (hstatus : r₀.rxFcStatus = r.rxFcStatus) : Answers cfg r r' outs frames := by
  cases h with
  | none hpending' hstatus' => exact .none (hpending'.trans hpending) (hstatus'.trans hstatus)
  | sent status hsent => exact .sent status hsent
  | deferred status hpending' hstatus' => exact .deferred status hpending' hstatus'

/-- `w'` is `w` after its receiver has read the data unit `p`. -/
structure Receives (w : World Unit Empty) (p : Pdu) (w' : World Unit Empty) : Prop where
  cfg : w'.link.cfg = w.link.cfg
  tx : w'.link.tx = w.link.tx
  timer : w'.link.rx.rxTimerStart =
    if takes w.link.cfg.rxBufferSize w.link.rx.assembly p then w.now else w.link.rx.rxTimerStart
  refines : ∃ es, w'.events = w.events ++ es ∧
    receive w.link.cfg.rxBufferSize w.link.cfg.blockSize.toNat w.link.rx.assembly p
      = (w'.link.rx.assembly, outputs es) ∧
    Answers w.link.cfg w.link.rx w'.link.rx ((outputs es).filter Output.isAnswer) (sentFrames es)

/-! ### Single and first frames -/

section Handlers

variable {resubmit : Bytes → World Unit Empty → World Unit Empty} {w : World Unit Empty}

theorem receives_other (w : World Unit Empty) : Receives w .other w :=
  ⟨rfl, rfl, rfl, [], by simp, rfl, .none rfl rfl⟩

/-- The events of `interrupted`. -/
def interruptionEvents (r : RxSide) : List (Event Empty) :=
  if r.rxState = .receiving then [.rxIndication (r.rxBuffer.take r.rxOffset) .errUnexpPdu] else []

theorem interrupted_silent (w : World Unit Empty) :
    interrupted silent resubmit w = { w with
      link := { w.link with rx := { w.link.rx with rxState := .idle } }
      events := w.events ++ interruptionEvents w.link.rx } := by
  unfold interrupted interruptionEvents
  split
  · rw [rxFinish_silent]
    rfl
  · rename_i hs
    have hidle : w.link.rx.rxState = .idle := by
      cases hstate : w.link.rx.rxState with
      | idle => rfl
      | receiving => exact absurd hstate hs
    rw [List.append_nil, ← hidle]

@[simp] theorem outputs_interruptionEvents (r : RxSide) :
    outputs (interruptionEvents r) = interruption r.assembly := by
  unfold interruptionEvents RxSide.assembly
  split <;> rfl

@[simp] theorem sentFrames_interruptionEvents (r : RxSide) :
    sentFrames (interruptionEvents r) = [] := by
  unfold interruptionEvents
  split <;> rfl

@[simp] theorem filter_interruption (x : Option Assembly) :
    (interruption x).filter Output.isAnswer = [] := by
  cases x <;> rfl

variable (resubmit w) in
theorem receives_single (data : Bytes) (hfit : data.length ≤ w.link.cfg.rxBufferSize) :
    Receives w (.single data) (rxFinish silent resubmit .ok
      (((interrupted silent resubmit w).log (.rxWrite 0 data.length)).setRx
        ((interrupted silent resubmit w).link.rx.delivered data))) := by
  rw [interrupted_silent, rxFinish_silent]
  refine ⟨rfl, rfl, rfl, interruptionEvents w.link.rx ++ [.rxWrite 0 data.length,
    .rxIndication ((copy w.link.rx.rxBuffer 0 data).take data.length) .ok], ?_, ?_, ?_⟩
  · simp [RxSide.delivered]
  · rw [take_copy_zero, outputs_append, outputs_interruptionEvents]
    exact if_neg (Nat.not_lt.mpr hfit)
  · rw [outputs_append, sentFrames_append, List.filter_append, outputs_interruptionEvents,
      filter_interruption, sentFrames_interruptionEvents]
    exact .none rfl rfl

theorem receives_rxOnSingleFrame {data : Frame} {dlc : Nat} (hdlc : ¬ (dlc = 0 ∨ 8 < dlc))
    (htype : data.pciType = 0) :
    Receives w (decode data dlc) (rxOnSingleFrame silent resubmit data dlc w) := by
  rw [rxOnSingleFrame_eq, decode_sf hdlc htype]
  by_cases hbad : data.pciLow = 0 ∨ 7 < data.pciLow ∨ dlc - 1 < data.pciLow
  · rw [if_pos hbad, if_pos (by omega)]
    exact receives_other w
  rw [if_neg hbad]
  have hlen : (slice data.bytes 1 data.pciLow).length = data.pciLow :=
    length_slice_payload (by omega)
  by_cases hlong : w.link.cfg.rxBufferSize < data.pciLow
  · rw [if_pos (by omega)]
    refine ⟨rfl, rfl, rfl, [], by simp, ?_, .none rfl rfl⟩
    exact if_pos (by rwa [hlen])
  · rw [if_neg (by omega)]
    have hreceives := receives_single resubmit w (slice data.bytes 1 data.pciLow)
      (by rw [hlen]; omega)
    simpa only [RxSide.delivered, hlen] using hreceives

@[simp] theorem assembly_answered (r : RxSide) (status : Nat) (accepted : Bool) :
    (r.answered status accepted).assembly = r.assembly := by
  cases accepted <;> rfl

@[simp] theorem timer_answered (r : RxSide) (status : Nat) (accepted : Bool) :
    (r.answered status accepted).rxTimerStart = r.rxTimerStart := by
  cases accepted <;> rfl

/-- Outputs that end in a flow control: `losses` report the message that is given up for it, and
`quiet` are the events in between. -/
theorem refines_answer {cfg : Config} {r₀ r : RxSide} {status : Nat} (hstatus : status ≤ 2)
    (losses quiet : List (Event Empty)) (hquiet : outputs quiet = [])
    (hsent : sentFrames (losses ++ quiet) = [])
    (hlosses : (outputs losses).filter Output.isAnswer = []) (accepted : Bool)
    {out : Option Assembly × List Output}
    (hout : out = (r.assembly, outputs losses ++ [.answered status])) :
    out = ((r.answered status accepted).assembly, outputs (losses ++ quiet ++
      [.sendFrame cfg.txId (flowControlFrame status cfg.blockSize cfg.stMin) accepted])) ∧
    Answers cfg r₀ (r.answered status accepted)
      ((outputs (losses ++ quiet ++ [.sendFrame cfg.txId
        (flowControlFrame status cfg.blockSize cfg.stMin) accepted])).filter Output.isAnswer)
      (sentFrames (losses ++ quiet ++ [.sendFrame cfg.txId
        (flowControlFrame status cfg.blockSize cfg.stMin) accepted])) := by
  have hanswer : outputs [Event.sendFrame (ε := Empty) cfg.txId
      (flowControlFrame status cfg.blockSize cfg.stMin) accepted] = [.answered status] := by
    rw [outputs, List.filterMap_cons, output_flowControl hstatus]
    rfl
  constructor
  · rw [hout, assembly_answered, outputs_append, outputs_append, hquiet, hanswer, List.append_nil]
  · rw [outputs_append, outputs_append, sentFrames_append, hquiet, hsent, hanswer, List.append_nil,
      List.filter_append, hlosses]
    cases accepted with
    | false => exact .deferred status rfl rfl
    | true => exact .sent status rfl

theorem receives_first {length : Nat} {data : Bytes} (hfit : length ≤ w.link.cfg.rxBufferSize)
    (hdata : data.length = 6) :
    Receives w (.first length data) (rxSendFlowControl 0
      (((interrupted silent resubmit w).log (.rxWrite 0 6)).setRx
        ((interrupted silent resubmit w).link.rx.started length data
          ((interrupted silent resubmit w).env.clock (interrupted silent resubmit w).reads))).tick) := by
  have hstarted : ∀ (r : RxSide) (time : Nat), (r.started length data time).assembly
      = some { length, data, seq := 1, block := 0 } := by
    intro r time
    have htake : (copy r.rxBuffer 0 data).take 6 = data := by
      rw [← hdata, take_copy_zero]
    simp [RxSide.assembly, RxSide.started, htake]
  rw [interrupted_silent, rxSendFlowControl_eq]
  refine ⟨rfl, rfl, ?_, _, ?_, refines_answer (Nat.zero_le 2) (interruptionEvents w.link.rx)
    [.rxWrite 0 6, .getTimeMs (w.env.clock w.reads)] rfl (by simp; rfl) (by simp) w.accepts ?_⟩
  · simp [takes, hfit, RxSide.started, World.now]
  · simp [World.accepts]
  · rw [outputs_interruptionEvents]
    simp only [receive, if_neg (Nat.not_lt.mpr hfit), World.link_tick, World.rx_setRx, hstarted]

theorem receives_overflow {length : Nat} {data : Bytes}
    (hlong : w.link.cfg.rxBufferSize < length) :
    Receives w (.first length data) (rxSendFlowControl 2 (interrupted silent resubmit w)) := by
  rw [interrupted_silent, rxSendFlowControl_eq]
  refine ⟨rfl, rfl, ?_, _, ?_, refines_answer (Nat.le_refl 2) (interruptionEvents w.link.rx) []
    rfl (by simp) (by simp) w.accepts ?_⟩
  · simp [takes, Nat.not_le.mpr hlong]
  · simp [World.accepts]
  · rw [outputs_interruptionEvents]
    simp only [receive, if_pos hlong]
    rfl

theorem receives_rxOnFirstFrame {data : Frame} {dlc : Nat} (hdlc : ¬ (dlc = 0 ∨ 8 < dlc))
    (htype : data.pciType = 1) :
    Receives w (decode data dlc) (rxOnFirstFrame silent resubmit data dlc w) := by
  rw [rxOnFirstFrame_eq, decode_ff hdlc htype]
  have hlen : (slice data.bytes 2 6).length = 6 := length_slice (by simp [data.length_bytes])
  have hcfg : (interrupted silent resubmit w).link.cfg = w.link.cfg := by
    rw [interrupted_silent]
  by_cases hbad : dlc < 8 ∨ data.ffLength ≤ 7
  · simp only [← Frame.ffLength.eq_1, if_pos hbad]
    exact receives_other w
  simp only [← Frame.ffLength.eq_1, if_neg hbad, hcfg]
  by_cases hlong : w.link.cfg.rxBufferSize < data.ffLength
  · simp only [if_pos hlong]
    exact receives_overflow hlong
  · simp only [if_neg hlong]
    exact receives_first (Nat.le_of_not_lt hlong) hlen

/-! ### Consecutive frames -/

theorem RxInv.assembly_eq {cfg : Config} {r : RxSide} (h : RxInv cfg r)
    (hs : r.rxState = .receiving) : ∃ a, r.assembly = some a ∧ a.length = r.rxLength ∧
      a.data = r.rxBuffer.take r.rxOffset ∧ a.seq = r.rxSeq ∧ a.block = r.rxBlockCount ∧
      a.chunk = r.chunk := by
  refine ⟨_, if_pos hs, rfl, rfl, rfl, rfl, ?_⟩
  have hfits := (h.underway hs).fits
  have hbuffer := h.buffer
  have hoffset : r.rxOffset ≤ r.rxBuffer.length := by omega
  rw [h.chunk hs]
  simp only [Assembly.chunk, List.length_take, Nat.min_eq_left hoffset]

/-- A stored consecutive frame is one step of the message under construction. -/
theorem RxInv.assembly_advance {cfg : Config} {r : RxSide} (h : RxInv cfg r)
    (hs : r.rxState = .receiving) {a : Assembly} (ha : r.assembly = some a) {data : Bytes}
    (hdata : r.chunk ≤ data.length) (time : Nat) :
    (r.advance (data.take r.chunk) time).assembly = some (a.extend data) ∧
      (a.extend data).data.length = (r.advance (data.take r.chunk) time).rxOffset := by
  obtain ⟨a', ha', hlength, hbytes, hseq, hblock, hchunk⟩ := h.assembly_eq hs
  obtain rfl := Option.some.inj (ha.symm.trans ha')
  have hfits := (h.underway hs).fits
  have hbuffer := h.buffer
  have htaken : (data.take r.chunk).length = r.chunk := by
    rw [List.length_take]
    omega
  have hoffset := h.offset_advance hs (data.take r.chunk) time
  rw [← h.chunk hs] at hoffset
  have htake : (r.advance (data.take r.chunk) time).rxBuffer.take (r.rxOffset + r.chunk)
      = a.data ++ data.take a.chunk := by
    have hcopy := @take_copy r.rxBuffer (data.take r.chunk) r.rxOffset (by omega)
    rw [htaken] at hcopy
    rw [hbytes, hchunk]
    exact hcopy
  have hmask : (r.rxSeq + 1) &&& 0x0F = (r.rxSeq + 1) % 16 := Nat.and_two_pow_sub_one_eq_mod _ 4
  have hextend : (a.extend data).data = a.data ++ data.take a.chunk := rfl
  constructor
  · have hreceiving : (r.advance (data.take r.chunk) time).rxState = .receiving := hs
    rw [RxSide.assembly, if_pos hreceiving, hoffset, htake]
    simp [Assembly.extend, RxSide.advance, hlength, hseq, hblock, hmask]
  · rw [hoffset, hextend, ← htake, List.length_take, h.length_advance hs htaken time, Nat.min_eq_left]
    rw [h.chunk hs]
    omega

variable (resubmit) in
/-- `afterStored` does what the reassembler does with the extended message. -/
theorem stored_afterStored {v : World Unit Empty} {b : Assembly}
    (hs : v.link.rx.rxState = .receiving) (hb : v.link.rx.assembly = some b)
    (hoffset : b.data.length = v.link.rx.rxOffset) (hfit : v.link.rx.rxOffset ≤ v.link.rx.rxLength)
    (hcount : v.link.cfg.blockSize.toNat ≠ 0 →
      v.link.rx.nextBlockCount = v.link.rx.rxBlockCount + 1) :
    (afterStored silent resubmit v).link.cfg = v.link.cfg ∧
    (afterStored silent resubmit v).link.tx = v.link.tx ∧
    (afterStored silent resubmit v).link.rx.rxTimerStart = v.link.rx.rxTimerStart ∧
    ∃ es, (afterStored silent resubmit v).events = v.events ++ es ∧
      b.stored v.link.cfg.blockSize.toNat
        = ((afterStored silent resubmit v).link.rx.assembly, outputs es) ∧
      Answers v.link.cfg v.link.rx (afterStored silent resubmit v).link.rx
        ((outputs es).filter Output.isAnswer) (sentFrames es) := by
  have hfields : b = ⟨v.link.rx.rxLength, v.link.rx.rxBuffer.take v.link.rx.rxOffset,
      v.link.rx.rxSeq, v.link.rx.rxBlockCount⟩ := by
    rw [RxSide.assembly, if_pos hs] at hb
    exact (Option.some.inj hb).symm
  have hcounted : ∀ count, ({ v.link.rx with rxBlockCount := count } : RxSide).assembly
      = some ⟨v.link.rx.rxLength, b.data, b.seq, count⟩ := by
    intro count
    rw [hfields]
    exact if_pos hs
  have hlength : b.length = v.link.rx.rxLength := by rw [hfields]
  have hblock : b.block = v.link.rx.rxBlockCount := by rw [hfields]
  rw [afterStored, Assembly.stored, hlength, hoffset, hblock]
  by_cases hend : v.link.rx.rxLength ≤ v.link.rx.rxOffset
  · have hexact : v.link.rx.rxLength = v.link.rx.rxOffset := Nat.le_antisymm hend hfit
    rw [if_pos hend, if_pos hend, rxFinish_silent, if_pos rfl, hexact]
    refine ⟨rfl, rfl, rfl, _, rfl, ?_, .none rfl rfl⟩
    rw [hfields]
    rfl
  rw [if_neg hend, if_neg hend]
  by_cases hnone : v.link.cfg.blockSize.toNat = 0
  · rw [if_pos hnone, if_neg (not_not.mpr hnone)]
    refine ⟨rfl, rfl, rfl, [], by simp, ?_, .none rfl rfl⟩
    rw [← hb]
    rfl
  rw [if_neg hnone, if_pos hnone, hcount hnone]
  by_cases hfull : v.link.cfg.blockSize.toNat ≤ v.link.rx.rxBlockCount + 1
  · rw [if_pos hfull, if_pos hfull, rxSendFlowControl_eq]
    refine ⟨rfl, rfl, by simp, _, by simp [World.accepts], refines_answer (Nat.zero_le 2) []
      [.counted 8 (v.link.rx.rxBlockCount + 1)] rfl rfl rfl v.accepts ?_⟩
    rw [World.rx_setRx, hcounted]
    rfl
  · rw [if_neg hfull, if_neg hfull]
    refine ⟨rfl, rfl, rfl, _, rfl, ?_, .none rfl rfl⟩
    rw [World.rx_setRx, hcounted]
    rfl

theorem receives_afterStored (hinv : RxInv w.link.cfg w.link.rx)
    (hs : w.link.rx.rxState = .receiving) {a : Assembly} (ha : w.link.rx.assembly = some a)
    {seq : Nat} (hseq : seq = a.seq) {payload : Bytes}
    (henough : w.link.rx.chunk ≤ payload.length) :
    Receives w (.consecutive seq payload)
      (afterStored silent resubmit (storedCf (payload.take w.link.rx.chunk) w)) := by
  obtain ⟨a', ha', -, -, -, -, hchunk⟩ := hinv.assembly_eq hs
  obtain rfl := Option.some.inj (ha.symm.trans ha')
  obtain ⟨hadvance, hlen⟩ := hinv.assembly_advance hs ha henough (w.env.clock w.reads)
  have hmoves := moves_storedCf (payload.take w.link.rx.chunk) w
  have hfits := (hinv.underway hs).fits
  have hoffset := hinv.offset_advance hs (payload.take w.link.rx.chunk) (w.env.clock w.reads)
  have hfit : (storedCf (payload.take w.link.rx.chunk) w).link.rx.rxOffset ≤
      (storedCf (payload.take w.link.rx.chunk) w).link.rx.rxLength := by
    have hle : (w.link.rx.advance (payload.take w.link.rx.chunk) (w.env.clock w.reads)).rxOffset
        ≤ w.link.rx.rxLength := by omega
    exact hle
  have hcount : w.link.cfg.blockSize.toNat ≠ 0 →
      (w.link.rx.rxBlockCount + 1) % 2 ^ 8 = w.link.rx.rxBlockCount + 1 := by
    intro hpos
    have hlt := hinv.blockCount hs hpos
    have hsize := w.link.cfg.blockSize.toNat_lt
    exact Nat.mod_eq_of_lt (by omega)
  obtain ⟨hcfg, htx, htimer, es, hevents, hstep, hanswers⟩ :=
    stored_afterStored resubmit (v := storedCf (payload.take w.link.rx.chunk) w)
      hs hadvance hlen hfit hcount
  have htakes : takes w.link.cfg.rxBufferSize w.link.rx.assembly (.consecutive seq payload) = true := by
    simp [takes, ha, hseq, hchunk, henough]
  rw [hmoves.events, List.append_assoc] at hevents
  refine ⟨hcfg, htx, ?_, _, hevents, ?_, ?_⟩
  · rw [htakes, if_pos rfl, htimer]
    rfl
  · rw [ha, receive_taken _ _ hseq (by rwa [hchunk]), outputs_append]
    exact hstep
  · rw [outputs_append, sentFrames_append]
    exact hanswers.congr rfl rfl

theorem receives_rxOnConsecutiveFrame (hinv : RxInv w.link.cfg w.link.rx) {data : Frame} {dlc : Nat}
    (hdlc : ¬ (dlc = 0 ∨ 8 < dlc)) (htype : data.pciType = 2) :
    Receives w (decode data dlc) (rxOnConsecutiveFrame silent resubmit data dlc w) := by
  rw [rxOnConsecutiveFrame_eq, decode_cf hdlc htype]
  by_cases hs : w.link.rx.rxState ≠ .receiving
  · have hnone : w.link.rx.assembly = none := if_neg hs
    rw [if_pos hs]
    refine ⟨rfl, rfl, by rw [hnone]; rfl, [], by simp, by rw [hnone]; rfl, .none rfl rfl⟩
  have hs := not_not.mp hs
  obtain ⟨a, ha, hlength, hbytes, hseq, hblock, hchunk⟩ := hinv.assembly_eq hs
  rw [if_neg (not_not.mpr hs)]
  by_cases hwrong : data.pciLow ≠ w.link.rx.rxSeq
  · rw [if_pos hwrong, rxFinish_silent]
    refine ⟨rfl, rfl, ?_, [.rxIndication (w.link.rx.rxBuffer.take w.link.rx.rxOffset) .errWrongSn],
      rfl, ?_, .none rfl rfl⟩
    · simp [takes, ha, hseq, hwrong]
    · simp only [receive, ha, hseq, if_pos hwrong, hbytes]
      rfl
  have hpayload : (slice data.bytes 1 (dlc - 1)).length = dlc - 1 :=
    length_slice_payload (by omega)
  rw [if_neg hwrong]
  by_cases hshort : dlc - 1 < w.link.rx.chunk
  · rw [if_pos hshort]
    refine ⟨rfl, rfl, ?_, [], by simp, ?_, .none rfl rfl⟩
    · simp [takes, ha, hpayload, hchunk, Nat.not_le.mpr hshort]
    · simp only [receive, ha, hseq, if_neg hwrong, hpayload, hchunk, if_pos hshort]
      rfl
  have henough := Nat.le_of_not_lt hshort
  have hstored : slice data.bytes 1 w.link.rx.chunk
      = (slice data.bytes 1 (dlc - 1)).take w.link.rx.chunk := by
    rw [slice, slice, List.take_take, Nat.min_eq_left henough]
  rw [if_neg hshort, hstored]
  exact receives_afterStored hinv hs ha ((not_not.mp hwrong).trans hseq.symm) (by rwa [hpayload])

/-- Every frame but a flow control is read as the reassembler reads it. -/
theorem receives_rxFrame (hinv : RxInv w.link.cfg w.link.rx) {data : Frame} {dlc : Nat}
    (htype : data.pciType ≠ 3) :
    Receives w (decode data dlc) (rxFrame silent resubmit data dlc w) := by
  unfold rxFrame
  by_cases hdlc : dlc = 0 ∨ 8 < dlc
  · rw [if_pos hdlc, decode, if_pos hdlc]
    exact receives_other w
  rw [if_neg hdlc]
  split
  · rename_i hsf
    exact receives_rxOnSingleFrame hdlc hsf
  split
  · rename_i hff
    exact receives_rxOnFirstFrame hdlc hff
  split
  · rename_i hcf
    exact receives_rxOnConsecutiveFrame hinv hdlc hcf
  rename_i hsf hff hcf
  simp only [pciTypeSf, pciTypeFf, pciTypeCf] at hsf hff hcf
  rw [decode_other hdlc (by omega)]
  exact receives_other w

end Handlers

end MiniEcu.IsoTp
