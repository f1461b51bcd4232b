import MiniEcu.IsoTp.World

/-!
# The functions of `isotp.c`

Each C function is a function from the state before to the state after, in the order of the source.
A clock reading is `now` for its value and `tick` for the reading itself; a frame offered to the
driver is `accepts` for the answer and `sendFrame` for the offer. `resubmit` is `IsoTp_Transmit` as
a callback calls it; `transmit` ties that knot with a bound on how deep callbacks nest.
-/

namespace MiniEcu.IsoTp

open Memory

variable {σ ε : Type} (app : App σ ε) (resubmit : Bytes → World σ ε → World σ ε)

/-- A callback returns: its state and records take effect, then its messages are transmitted. -/
def react (r : Reaction σ ε) (w : World σ ε) : World σ ε :=
  r.sends.foldl (fun w m => resubmit m w) (w.settle r)

/-! ### Sender side -/

def txFinish (result : Result) (w : World σ ε) : World σ ε :=
  let w := (w.setTx { w.link.tx with txState := .idle }).log (.txConfirmation result)
  react resubmit (app.txConfirmation (fun k => w.env.clock (w.reads + k)) result w.app) w

/-- Send the SF or FF. The answer says whether the driver accepted it. -/
def txSendFirst (w : World σ ε) : Bool × World σ ε :=
  let t := w.link.tx
  if t.txLength ≤ sfMaxData then
    let sent := (w.log (.txRead 0 t.txLength)).sendFrame
      (singleFrame t.txLength (slice t.txBuffer 0 t.txLength))
    if w.accepts then (true, txFinish app resubmit .ok sent) else (false, sent)
  else
    let sent := (w.log (.txRead 0 ffData)).sendFrame
      (firstFrame t.txLength (slice t.txBuffer 0 ffData))
    if w.accepts then
      (true, (sent.setTx { t with
        txOffset := ffData
        txSeq := 1
        txWaitCount := 0
        txState := .waitFc
        txTimerStart := sent.now }).tick)
    else (false, sent)

/-- The body of the loop in `TxSendConsecutiveFrames`. The answer is `keepSending`. -/
def txCfIteration (w : World σ ε) : Bool × World σ ε :=
  let t := w.link.tx
  let remaining := wrapSub 16 t.txLength t.txOffset
  let chunk := if remaining > cfMaxData then cfMaxData else remaining
  let tooEarly := 0 < t.txStMinMs ∧ elapsed w.now t.txLastCfTime ≤ t.txStMinMs
  let w := if 0 < t.txStMinMs then w.tick else w
  if tooEarly then (false, w)
  else
    let sent := (w.log (.txRead t.txOffset chunk)).sendFrame
      (consecutiveFrame t.txSeq (slice t.txBuffer t.txOffset chunk))
    if w.accepts then
      let t := { t with
        txOffset := (t.txOffset + chunk) % 2 ^ 16
        txSeq := (t.txSeq + 1) &&& seqMask
        txLastCfTime := sent.now }
      let w := ((sent.log (.counted 16 (w.link.tx.txOffset + chunk))).setTx t).tick
      if t.txLength ≤ t.txOffset then (true, txFinish app resubmit .ok w)
      else if t.txBlockSize ≠ 0 then
        let count := (t.txBlockCount + 1) % 2 ^ 8
        let w := (w.log (.counted 8 (t.txBlockCount + 1))).setTx { t with txBlockCount := count }
        if t.txBlockSize ≤ count then
          (true, (w.setTx { t with
            txBlockCount := count
            txState := .waitFc
            txTimerStart := w.now }).tick)
        else (true, w)
      -- BS = 0: keep sending until STmin or the driver stops us
      else (true, w)
    else (false, sent)

/-- `while (keepSending && (link->txState == ISOTP_TX_SEND_CF))`. -/
def txCfLoop : Nat → World σ ε → World σ ε
  | 0, w => if w.link.tx.txState = .sendCf then w.log .unfinished else w
  | fuel + 1, w =>
      if w.link.tx.txState = .sendCf then
        let next := txCfIteration app resubmit w
        if next.1 then txCfLoop fuel next.2 else next.2
      else w

/-- Every turn of the loop that continues sends at least one byte, so one turn more than the message
has bytes is enough. -/
def txSendConsecutiveFrames (w : World σ ε) : World σ ε :=
  txCfLoop app resubmit (w.link.tx.txLength + 1) w

def txOnFlowControl (data : Frame) (dlc : Nat) (w : World σ ε) : World σ ε :=
  let t := w.link.tx
  if t.txState ≠ .waitFc ∨ dlc < 3 then w
  else
    let status := data.pciLow
    if status = fcStatusCts then
      let stMinMs := decodeStMin (data.byte 2)
      -- the first CF of a block may go out immediately
      txSendConsecutiveFrames app resubmit (w.setTx { t with
        txBlockSize := data.byte 1
        txBlockCount := 0
        txWaitCount := 0
        txStMinMs := stMinMs
        txLastCfTime := elapsed w.now (stMinMs + 1)
        txState := .sendCf }).tick
    else if status = fcStatusWait then
      let count := (t.txWaitCount + 1) % 2 ^ 8
      let w := (w.log (.counted 8 (t.txWaitCount + 1))).setTx { t with txWaitCount := count }
      if maxWft < count then txFinish app resubmit .errWftOvrn w
      else (w.setTx { t with txWaitCount := count, txTimerStart := w.now }).tick
    else if status = fcStatusOvflw then txFinish app resubmit .errOverflow w
    else txFinish app resubmit .errInvalidFs w

/-! ### Receiver side -/

def rxFinish (result : Result) (w : World σ ε) : World σ ε :=
  let r := w.link.rx
  let data := r.rxBuffer.take (if result = .ok then r.rxLength else r.rxOffset)
  let w := (w.setRx { r with rxState := .idle }).log (.rxIndication data result)
  react resubmit (app.rxIndication (fun k => w.env.clock (w.reads + k)) data result w.app) w

def rxSendFlowControl (status : Nat) (w : World σ ε) : World σ ε :=
  let sent := w.sendFrame (flowControlFrame status w.link.cfg.blockSize w.link.cfg.stMin)
  if w.accepts then sent.setRx { w.link.rx with rxFcPending := false }
  else sent.setRx { w.link.rx with rxFcPending := true, rxFcStatus := status }

def rxOnSingleFrame (data : Frame) (dlc : Nat) (w : World σ ε) : World σ ε :=
  let length := data.pciLow
  if length = 0 ∨ sfMaxData < length ∨ dlc - 1 < length ∨ w.link.cfg.rxBufferSize < length then
    w   -- malformed SF
  else
    let w := if w.link.rx.rxState = .receiving then rxFinish app resubmit .errUnexpPdu w else w
    let w := (w.log (.rxWrite 0 length)).setRx { w.link.rx with
      rxBuffer := copy w.link.rx.rxBuffer 0 (slice data.bytes 1 length)
      rxLength := length }
    rxFinish app resubmit .ok w

def rxOnFirstFrame (data : Frame) (dlc : Nat) (w : World σ ε) : World σ ε :=
  let length := (data.pciLow <<< 8) ||| data.byte 1
  if dlc < canDl ∨ length ≤ sfMaxData then w
  else
    let w := if w.link.rx.rxState = .receiving then rxFinish app resubmit .errUnexpPdu w else w
    if w.link.cfg.rxBufferSize < length then rxSendFlowControl fcStatusOvflw w
    else
      rxSendFlowControl fcStatusCts ((w.log (.rxWrite 0 ffData)).setRx { w.link.rx with
        rxBuffer := copy w.link.rx.rxBuffer 0 (slice data.bytes 2 ffData)
        rxLength := length
        rxOffset := ffData
        rxSeq := 1
        rxBlockCount := 0
        rxState := .receiving
        rxTimerStart := w.now }).tick

def rxOnConsecutiveFrame (data : Frame) (dlc : Nat) (w : World σ ε) : World σ ε :=
  let r := w.link.rx
  if r.rxState ≠ .receiving then w
  else if data.pciLow ≠ r.rxSeq then rxFinish app resubmit .errWrongSn w
  else
    let remaining := wrapSub 16 r.rxLength r.rxOffset
    let chunk := if remaining > cfMaxData then cfMaxData else remaining
    if dlc - 1 < chunk then w   -- too short for the data it should carry
    else
      let r := { r with
        rxBuffer := copy r.rxBuffer r.rxOffset (slice data.bytes 1 chunk)
        rxOffset := (r.rxOffset + chunk) % 2 ^ 16
        rxSeq := (r.rxSeq + 1) &&& seqMask
        rxTimerStart := w.now }
      let w := (((w.log (.rxWrite w.link.rx.rxOffset chunk)).log
        (.counted 16 (w.link.rx.rxOffset + chunk))).setRx r).tick
      if r.rxLength ≤ r.rxOffset then rxFinish app resubmit .ok w
      else if w.link.cfg.blockSize.toNat ≠ 0 then
        let count := (r.rxBlockCount + 1) % 2 ^ 8
        let w := w.log (.counted 8 (r.rxBlockCount + 1))
        if w.link.cfg.blockSize.toNat ≤ count then
          rxSendFlowControl fcStatusCts (w.setRx { r with rxBlockCount := 0 })
        else w.setRx { r with rxBlockCount := count }
      -- BS = 0: the sender continues without further FC
      else w

/-! ### Public API -/

/-- `IsoTp_Transmit`, given what callbacks reach when they call it. -/
def transmitWith (m : Bytes) (w : World σ ε) : Result × World σ ε :=
  if m.length = 0 ∨ maxMessageLen < m.length ∨ w.link.cfg.txBufferSize < m.length then
    (.errParam, w.log (.transmit m .errParam))
  else if w.link.tx.txState ≠ .idle then (.errBusy, w.log (.transmit m .errBusy))
  else
    let w := (((w.log (.transmit m .ok)).log (.txWrite 0 m.length)).setTx { w.link.tx with
      txBuffer := copy w.link.tx.txBuffer 0 m
      txLength := m.length
      txOffset := 0
      txState := .sendFirst
      txTimerStart := w.now }).tick
    -- if the driver is busy, MainFunction retries
    (.ok, (txSendFirst app resubmit w).2)

/-- `IsoTp_Transmit`. Callbacks that run inside it may call it again, at most `depth` deep. -/
def transmit : Nat → Bytes → World σ ε → Result × World σ ε
  | 0 => transmitWith app fun _ w => w
  | depth + 1 => transmitWith app fun m w => (transmit depth m w).2

/-- `IsoTp_Transmit` as a callback calls it. -/
def nested (depth : Nat) (m : Bytes) (w : World σ ε) : World σ ε := (transmit app depth m w).2

def rxFrame (data : Frame) (dlc : Nat) (w : World σ ε) : World σ ε :=
  if dlc = 0 ∨ canDl < dlc then w
  else if data.pciType = pciTypeSf then rxOnSingleFrame app resubmit data dlc w
  else if data.pciType = pciTypeFf then rxOnFirstFrame app resubmit data dlc w
  else if data.pciType = pciTypeCf then rxOnConsecutiveFrame app resubmit data dlc w
  else if data.pciType = pciTypeFc then txOnFlowControl app resubmit data dlc w
  else w   -- reserved PCI type

/-- The N_Bs check of `IsoTp_MainFunction`. -/
def txCheckTimeout (w : World σ ε) : World σ ε :=
  if w.link.cfg.nBsTimeoutMs ≤ elapsed w.now w.link.tx.txTimerStart then
    txFinish app resubmit .errTimeoutBs w.tick
  else w.tick

/-- The receiver's part of `IsoTp_MainFunction`. -/
def rxMainFunction (w : World σ ε) : World σ ε :=
  let w := if w.link.rx.rxFcPending then rxSendFlowControl w.link.rx.rxFcStatus w else w
  if w.link.rx.rxState = .receiving then
    if w.link.cfg.nCrTimeoutMs ≤ elapsed w.now w.link.rx.rxTimerStart then
      rxFinish app resubmit .errTimeoutCr w.tick
    else w.tick
  else w

/-- The sender's part of `IsoTp_MainFunction`. -/
def txMainFunction (w : World σ ε) : World σ ε :=
  match w.link.tx.txState with
  | .sendFirst =>
      let first := txSendFirst app resubmit w
      if first.1 then first.2 else txCheckTimeout app resubmit first.2
  | .waitFc => txCheckTimeout app resubmit w
  | .sendCf => txSendConsecutiveFrames app resubmit w
  | .idle => w

def mainFunction (w : World σ ε) : World σ ε :=
  txMainFunction app resubmit (rxMainFunction app resubmit w)

/-! ### Calls from outside -/

inductive Call
  | transmit (m : Bytes)
  | rxFrame (data : Frame) (dlc : Nat)
  | mainFunction
deriving DecidableEq

/-- An outermost call, with callbacks that call back at most `depth + 1` deep. -/
def invoke (depth : Nat) : Call → World σ ε → World σ ε
  | .transmit m, w => (transmit app (depth + 1) m w).2
  | .rxFrame data dlc, w => rxFrame app (nested app depth) data dlc w
  | .mainFunction, w => mainFunction app (nested app depth) w

/-- One call on a link and its application, and everything that happened in it. -/
def call (depth : Nat) (s : Link × σ) (i : Env × Call) : (Link × σ) × List (Event ε) :=
  let w := invoke app depth i.2 { link := s.1, app := s.2, env := i.1 }
  ((w.link, w.app), w.events)

end MiniEcu.IsoTp
