import MiniEcu.IsoTp.Code
import MiniEcu.Lib.Trace

/-!
# What a link can do

Every call on a link is a sequence of a few elementary steps: a frame is offered and taken or
refused, a reception starts, advances, ends or is given up, a timer is read. `Sending`, `TxStep` and
`RxStep` list them, each with its guard, its events and its effect on one side of the link.
`leads_invoke` proves once that the code does nothing else, however its callbacks call back into
`IsoTp_Transmit`. Invariants of a link are then proved per elementary step.
-/

namespace MiniEcu.IsoTp

open Memory Trace

/-! ### What the two sides are about to do -/

namespace TxSide

variable (t : TxSide)

/-- The bytes that go into the first frame. -/
def firstCount : Nat := if t.txLength ≤ sfMaxData then t.txLength else ffData

/-- The SF or FF of the message in the buffer. -/
def first : Frame :=
  if t.txLength ≤ sfMaxData then singleFrame t.txLength (slice t.txBuffer 0 t.txLength)
  else firstFrame t.txLength (slice t.txBuffer 0 ffData)

def chunk : Nat :=
  let remaining := wrapSub 16 t.txLength t.txOffset
  if remaining > cfMaxData then cfMaxData else remaining

theorem chunk_eq (hle : t.txOffset ≤ t.txLength) (hlen : t.txLength < 2 ^ 16) :
    t.chunk = min 7 (t.txLength - t.txOffset) := by
  simp only [chunk, wrapSub_eq hle hlen, cfMaxData]
  split <;> omega

/-- The next CF. -/
def consecutive : Frame := consecutiveFrame t.txSeq (slice t.txBuffer t.txOffset t.chunk)

/-- The state once the driver has taken the next CF. -/
def advance (time : Nat) : TxSide :=
  { t with
    txOffset := (t.txOffset + t.chunk) % 2 ^ 16
    txSeq := (t.txSeq + 1) &&& seqMask
    txLastCfTime := time % 2 ^ 32 }

def started (m : Bytes) (time : Nat) : TxSide :=
  { t with
    txBuffer := copy t.txBuffer 0 m
    txLength := m.length
    txOffset := 0
    txState := .sendFirst
    txTimerStart := time % 2 ^ 32 }

/-- The state once the driver has taken the FF. -/
def afterFirst (time : Nat) : TxSide :=
  { t with
    txOffset := ffData
    txSeq := 1
    txWaitCount := 0
    txState := .waitFc
    txTimerStart := time % 2 ^ 32 }

/-- The state after a FC.CTS with these bytes. -/
def cleared (blockSize stMin time : Nat) : TxSide :=
  { t with
    txBlockSize := blockSize
    txBlockCount := 0
    txWaitCount := 0
    txStMinMs := decodeStMin stMin
    txLastCfTime := elapsed (time % 2 ^ 32) (decodeStMin stMin + 1)
    txState := .sendCf }

def nextBlockCount : Nat := (t.txBlockCount + 1) % 2 ^ 8

def nextWaitCount : Nat := (t.txWaitCount + 1) % 2 ^ 8

/-- The reading of the clock before a CF goes out, if STmin asks for one. -/
inductive Paced {ε : Type} : List (Event ε) → Prop
  | free (h : t.txStMinMs = 0) : Paced []
  | waited (time : Nat) (hpos : 0 < t.txStMinMs)
      (h : t.txStMinMs < elapsed (time % 2 ^ 32) t.txLastCfTime) : Paced [.getTimeMs time]

end TxSide

namespace RxSide

variable (r : RxSide)

def chunk : Nat :=
  let remaining := wrapSub 16 r.rxLength r.rxOffset
  if remaining > cfMaxData then cfMaxData else remaining

theorem chunk_le : r.chunk ≤ 7 := by
  unfold chunk
  simp only [cfMaxData]
  grind

theorem chunk_eq (hle : r.rxOffset ≤ r.rxLength) (hlen : r.rxLength < 2 ^ 16) :
    r.chunk = min 7 (r.rxLength - r.rxOffset) := by
  simp only [chunk, wrapSub_eq hle hlen, cfMaxData]
  split <;> omega

/-- The state once a CF with these bytes has been taken. -/
def advance (data : Bytes) (time : Nat) : RxSide :=
  { r with
    rxBuffer := copy r.rxBuffer r.rxOffset data
    rxOffset := (r.rxOffset + r.chunk) % 2 ^ 16
    rxSeq := (r.rxSeq + 1) &&& seqMask
    rxTimerStart := time % 2 ^ 32 }

def started (length : Nat) (data : Bytes) (time : Nat) : RxSide :=
  { r with
    rxBuffer := copy r.rxBuffer 0 data
    rxLength := length
    rxOffset := ffData
    rxSeq := 1
    rxBlockCount := 0
    rxState := .receiving
    rxTimerStart := time % 2 ^ 32 }

/-- The state after an SF, whose bytes go through the same buffer. -/
def delivered (data : Bytes) : RxSide :=
  { r with
    rxBuffer := copy r.rxBuffer 0 data
    rxLength := data.length }

/-- The state after offering a flow control to the driver. -/
def answered (status : Nat) (accepted : Bool) : RxSide :=
  if accepted then { r with rxFcPending := false }
  else { r with rxFcPending := true, rxFcStatus := status }

def nextBlockCount : Nat := (r.rxBlockCount + 1) % 2 ^ 8

end RxSide

/-! ### The elementary steps -/

/-- The steps a sender takes by itself. -/
inductive Sending {ε : Type} (cfg : Config) (t : TxSide) : List (Event ε) → TxSide → Prop
  | firstRefused (hs : t.txState = .sendFirst) :
      Sending cfg t [.txRead 0 t.firstCount, .sendFrame cfg.txId t.first false] t
  | singleSent (hs : t.txState = .sendFirst) (hlen : t.txLength ≤ 7) :
      Sending cfg t
        [.txRead 0 t.firstCount, .sendFrame cfg.txId t.first true, .txConfirmation .ok]
        { t with txState := .idle }
  | firstSent (hs : t.txState = .sendFirst) (hlen : 7 < t.txLength) (time : Nat) :
      Sending cfg t
        [.txRead 0 t.firstCount, .sendFrame cfg.txId t.first true, .getTimeMs time]
        (t.afterFirst time)
  | tooEarly (hs : t.txState = .sendCf) (time : Nat) (hpos : 0 < t.txStMinMs)
      (h : elapsed (time % 2 ^ 32) t.txLastCfTime ≤ t.txStMinMs) :
      Sending cfg t [.getTimeMs time] t
  | cfRefused (hs : t.txState = .sendCf) {pace : List (Event ε)} (hpace : t.Paced pace) :
      Sending cfg t
        (pace ++ [.txRead t.txOffset t.chunk, .sendFrame cfg.txId t.consecutive false]) t
  | lastSent (hs : t.txState = .sendCf) {pace : List (Event ε)} (hpace : t.Paced pace) (time : Nat)
      (hend : t.txLength ≤ (t.advance time).txOffset) :
      Sending cfg t
        (pace ++ [.txRead t.txOffset t.chunk, .sendFrame cfg.txId t.consecutive true,
          .counted 16 (t.txOffset + t.chunk), .getTimeMs time, .txConfirmation .ok])
        { t.advance time with txState := .idle }
  | cfSent (hs : t.txState = .sendCf) {pace : List (Event ε)} (hpace : t.Paced pace) (time : Nat)
      (hmore : (t.advance time).txOffset < t.txLength) (hblock : t.txBlockSize = 0) :
      Sending cfg t
        (pace ++ [.txRead t.txOffset t.chunk, .sendFrame cfg.txId t.consecutive true,
          .counted 16 (t.txOffset + t.chunk), .getTimeMs time])
        (t.advance time)
  | cfSentInBlock (hs : t.txState = .sendCf) {pace : List (Event ε)} (hpace : t.Paced pace)
      (time : Nat) (hmore : (t.advance time).txOffset < t.txLength) (hblock : t.txBlockSize ≠ 0)
      (hcount : t.nextBlockCount < t.txBlockSize) :
      Sending cfg t
        (pace ++ [.txRead t.txOffset t.chunk, .sendFrame cfg.txId t.consecutive true,
          .counted 16 (t.txOffset + t.chunk), .getTimeMs time, .counted 8 (t.txBlockCount + 1)])
        { t.advance time with txBlockCount := t.nextBlockCount }
  | blockSent (hs : t.txState = .sendCf) {pace : List (Event ε)} (hpace : t.Paced pace)
      (time after : Nat) (hmore : (t.advance time).txOffset < t.txLength)
      (hblock : t.txBlockSize ≠ 0) (hcount : t.txBlockSize ≤ t.nextBlockCount) :
      Sending cfg t
        (pace ++ [.txRead t.txOffset t.chunk, .sendFrame cfg.txId t.consecutive true,
          .counted 16 (t.txOffset + t.chunk), .getTimeMs time, .counted 8 (t.txBlockCount + 1),
          .getTimeMs after])
        { t.advance time with
          txBlockCount := t.nextBlockCount
          txState := .waitFc
          txTimerStart := after % 2 ^ 32 }
  | unfinished (hs : t.txState = .sendCf) (h : 2 ^ 16 ≤ t.txLength) :
      Sending cfg t [.unfinished] t

/-- Everything that changes the sender's side. -/
inductive TxStep {ε : Type} (cfg : Config) (t : TxSide) : List (Event ε) → TxSide → Prop
  | sending {es : List (Event ε)} {t' : TxSide} (h : Sending cfg t es t') : TxStep cfg t es t'
  | badParam (m : Bytes)
      (h : m.length = 0 ∨ maxMessageLen < m.length ∨ cfg.txBufferSize < m.length) :
      TxStep cfg t [.transmit m .errParam] t
  | busy (m : Bytes) (h : t.txState ≠ .idle) : TxStep cfg t [.transmit m .errBusy] t
  | start (m : Bytes) (time : Nat) (hidle : t.txState = .idle) (hpos : m.length ≠ 0)
      (hmax : m.length ≤ maxMessageLen) (hfit : m.length ≤ cfg.txBufferSize) :
      TxStep cfg t [.transmit m .ok, .txWrite 0 m.length, .getTimeMs time] (t.started m time)
  | clearToSend (data : Frame) (time : Nat) (hs : t.txState = .waitFc) :
      TxStep cfg t [.getTimeMs time] (t.cleared (data.byte 1) (data.byte 2) time)
  | wait (time : Nat) (hs : t.txState = .waitFc) (h : t.nextWaitCount ≤ maxWft) :
      TxStep cfg t [.counted 8 (t.txWaitCount + 1), .getTimeMs time]
        { t with txWaitCount := t.nextWaitCount, txTimerStart := time % 2 ^ 32 }
  | waitOverrun (hs : t.txState = .waitFc) (h : maxWft < t.nextWaitCount) :
      TxStep cfg t [.counted 8 (t.txWaitCount + 1), .txConfirmation .errWftOvrn]
        { t with txWaitCount := t.nextWaitCount, txState := .idle }
  | flowAborted (result : Result) (hs : t.txState = .waitFc)
      (h : result = .errOverflow ∨ result = .errInvalidFs) :
      TxStep cfg t [.txConfirmation result] { t with txState := .idle }
  | timedOut (time : Nat) (hs : t.txState = .sendFirst ∨ t.txState = .waitFc)
      (h : cfg.nBsTimeoutMs ≤ elapsed (time % 2 ^ 32) t.txTimerStart) :
      TxStep cfg t [.getTimeMs time, .txConfirmation .errTimeoutBs] { t with txState := .idle }
  | notYet (time : Nat) : TxStep cfg t [.getTimeMs time] t

/-- Everything that changes the receiver's side. -/
inductive RxStep {ε : Type} (cfg : Config) (r : RxSide) : List (Event ε) → RxSide → Prop
  | single (data : Bytes) (hidle : r.rxState = .idle) (hpos : data.length ≠ 0)
      (hmax : data.length ≤ 7) (hfit : data.length ≤ cfg.rxBufferSize) :
      RxStep cfg r
        [.rxWrite 0 data.length,
          .rxIndication ((copy r.rxBuffer 0 data).take data.length) .ok]
        (r.delivered data)
  | first (length : Nat) (data : Bytes) (time : Nat) (hidle : r.rxState = .idle)
      (hmin : 8 ≤ length) (hmax : length ≤ maxMessageLen) (hfit : length ≤ cfg.rxBufferSize)
      (hdata : data.length = ffData) :
      RxStep cfg r [.rxWrite 0 ffData, .getTimeMs time] (r.started length data time)
  | flowControl (status : Nat) (accepted : Bool) (h : status ≤ 2 ∨ status = r.rxFcStatus) :
      RxStep cfg r
        [.sendFrame cfg.txId (flowControlFrame status cfg.blockSize cfg.stMin) accepted]
        (r.answered status accepted)
  | last (hs : r.rxState = .receiving) (data : Bytes) (time : Nat) (hdata : data.length = r.chunk)
      (hend : r.rxLength ≤ (r.advance data time).rxOffset) :
      RxStep cfg r
        [.rxWrite r.rxOffset r.chunk, .counted 16 (r.rxOffset + r.chunk), .getTimeMs time,
          .rxIndication ((r.advance data time).rxBuffer.take r.rxLength) .ok]
        { r.advance data time with rxState := .idle }
  | more (hs : r.rxState = .receiving) (data : Bytes) (time : Nat) (hdata : data.length = r.chunk)
      (hmore : (r.advance data time).rxOffset < r.rxLength) (hblock : cfg.blockSize.toNat = 0) :
      RxStep cfg r
        [.rxWrite r.rxOffset r.chunk, .counted 16 (r.rxOffset + r.chunk), .getTimeMs time]
        (r.advance data time)
  | moreInBlock (hs : r.rxState = .receiving) (data : Bytes) (time : Nat)
      (hdata : data.length = r.chunk) (hmore : (r.advance data time).rxOffset < r.rxLength)
      (hcount : r.nextBlockCount < cfg.blockSize.toNat) :
      RxStep cfg r
        [.rxWrite r.rxOffset r.chunk, .counted 16 (r.rxOffset + r.chunk), .getTimeMs time,
          .counted 8 (r.rxBlockCount + 1)]
        { r.advance data time with rxBlockCount := r.nextBlockCount }
  | block (hs : r.rxState = .receiving) (data : Bytes) (time : Nat) (hdata : data.length = r.chunk)
      (hmore : (r.advance data time).rxOffset < r.rxLength) (hblock : cfg.blockSize.toNat ≠ 0)
      (hcount : cfg.blockSize.toNat ≤ r.nextBlockCount) :
      RxStep cfg r
        [.rxWrite r.rxOffset r.chunk, .counted 16 (r.rxOffset + r.chunk), .getTimeMs time,
          .counted 8 (r.rxBlockCount + 1)]
        { r.advance data time with rxBlockCount := 0 }
  | aborted (result : Result) (hs : r.rxState = .receiving)
      (h : result = .errUnexpPdu ∨ result = .errWrongSn) :
      RxStep cfg r [.rxIndication (r.rxBuffer.take r.rxOffset) result] { r with rxState := .idle }
  | timedOut (time : Nat) (hs : r.rxState = .receiving)
      (h : cfg.nCrTimeoutMs ≤ elapsed (time % 2 ^ 32) r.rxTimerStart) :
      RxStep cfg r [.getTimeMs time, .rxIndication (r.rxBuffer.take r.rxOffset) .errTimeoutCr]
        { r with rxState := .idle }
  | notYet (time : Nat) : RxStep cfg r [.getTimeMs time] r

/-- One elementary step of a link or of the application behind it. -/
inductive LinkStep {σ ε : Type} : Link × σ → List (Event ε) → Link × σ → Prop
  | tx {l : Link} {a : σ} {es : List (Event ε)} {t : TxSide} (h : TxStep l.cfg l.tx es t) :
      LinkStep (l, a) es ({ l with tx := t }, a)
  | rx {l : Link} {a : σ} {es : List (Event ε)} {r : RxSide} (h : RxStep l.cfg l.rx es r) :
      LinkStep (l, a) es ({ l with rx := r }, a)
  | app (l : Link) (a a' : σ) (log : List ε) : LinkStep (l, a) (log.map .app) (l, a')

end MiniEcu.IsoTp
