import MiniEcu.IsoTp.Types

/-!
# What a link talks to

A link reaches its surroundings through four function pointers: the driver's `sendFrame`, the clock
`getTimeMs` and the two callbacks of the application. During one call the driver and the clock are
given by an `Env`, the answers they will give in order. A callback is a function of the
application's state that returns a `Reaction`: the new state, what it records, and the messages it
passes to `IsoTp_Transmit` on the same link before it returns. Every crossing of the module
boundary and every access to the two buffers is an `Event`.
-/

namespace MiniEcu.IsoTp

open Memory

/-- The clock and the driver as one call meets them. `clock k` is the true time in milliseconds at
the `k`-th reading, of which the code sees the low 32 bits; `driver k` is the answer to the `k`-th
`sendFrame`. -/
structure Env where
  clock : Nat → Nat
  driver : Nat → Bool

/-- One crossing of the module boundary, one buffer access or one counter update. -/
inductive Event (ε : Type)
  | getTimeMs (time : Nat)
  | sendFrame (canId : Nat) (frame : Frame) (accepted : Bool)
  | rxIndication (data : Bytes) (result : Result)
  | txConfirmation (result : Result)
  | transmit (message : Bytes) (result : Result)
  | rxWrite (offset count : Nat)
  | txWrite (offset count : Nat)
  | txRead (offset count : Nat)
  /-- A counter of the given width takes this value, before it is cut to the width. -/
  | counted (bits value : Nat)
  /-- The loop of `TxSendConsecutiveFrames` was still running when its fuel was used up. -/
  | unfinished
  | app (record : ε)
deriving DecidableEq

/-- What a callback does. -/
structure Reaction (σ ε : Type) where
  app : σ
  log : List ε := []
  reads : Nat := 0
  sends : List Bytes := []

/-- The application behind a link. A callback sees the readings the clock will give next. A callback
pointer that is `NULL` is one that does nothing. -/
structure App (σ ε : Type) where
  rxIndication : (Nat → Nat) → Bytes → Result → σ → Reaction σ ε
  txConfirmation : (Nat → Nat) → Result → σ → Reaction σ ε

/-- The application that only takes note. -/
def silent : App Unit Empty where
  rxIndication _ _ _ _ := { app := () }
  txConfirmation _ _ _ := { app := () }

/-- The state in the middle of a call. -/
structure World (σ ε : Type) where
  link : Link
  app : σ
  env : Env
  reads : Nat := 0
  sends : Nat := 0
  events : List (Event ε) := []

namespace World

variable {σ ε : Type} (w : World σ ε)

def log (e : Event ε) : World σ ε := { w with events := w.events ++ [e] }

def setTx (t : TxSide) : World σ ε := { w with link := { w.link with tx := t } }

def setRx (r : RxSide) : World σ ε := { w with link := { w.link with rx := r } }

/-- `Now(link)`: the value the next reading of the clock has. -/
def now : Nat := w.env.clock w.reads % 2 ^ 32

/-- The reading itself. -/
def tick : World σ ε :=
  { w with
    reads := w.reads + 1
    events := w.events ++ [.getTimeMs (w.env.clock w.reads)] }

/-- Whether the driver will take the next frame. -/
def accepts : Bool := w.env.driver w.sends

/-- `SendFrame(link, frame)`, always with eight bytes. -/
def sendFrame (f : Frame) : World σ ε :=
  { w with
    sends := w.sends + 1
    events := w.events ++ [.sendFrame w.link.cfg.txId f w.accepts] }

/-- A callback's new state, records and clock readings, before what it transmits. -/
def settle (r : Reaction σ ε) : World σ ε :=
  { w with
    app := r.app
    reads := w.reads + r.reads
    events := w.events ++ r.log.map .app }

@[simp] theorem link_log (e : Event ε) : (w.log e).link = w.link := rfl
@[simp] theorem app_log (e : Event ε) : (w.log e).app = w.app := rfl
@[simp] theorem env_log (e : Event ε) : (w.log e).env = w.env := rfl
@[simp] theorem reads_log (e : Event ε) : (w.log e).reads = w.reads := rfl
@[simp] theorem sends_log (e : Event ε) : (w.log e).sends = w.sends := rfl
@[simp] theorem events_log (e : Event ε) : (w.log e).events = w.events ++ [e] := rfl
@[simp] theorem now_log (e : Event ε) : (w.log e).now = w.now := rfl
@[simp] theorem accepts_log (e : Event ε) : (w.log e).accepts = w.accepts := rfl

@[simp] theorem cfg_setTx (t : TxSide) : (w.setTx t).link.cfg = w.link.cfg := rfl
@[simp] theorem tx_setTx (t : TxSide) : (w.setTx t).link.tx = t := rfl
@[simp] theorem rx_setTx (t : TxSide) : (w.setTx t).link.rx = w.link.rx := rfl
@[simp] theorem app_setTx (t : TxSide) : (w.setTx t).app = w.app := rfl
@[simp] theorem env_setTx (t : TxSide) : (w.setTx t).env = w.env := rfl
@[simp] theorem reads_setTx (t : TxSide) : (w.setTx t).reads = w.reads := rfl
@[simp] theorem sends_setTx (t : TxSide) : (w.setTx t).sends = w.sends := rfl
@[simp] theorem events_setTx (t : TxSide) : (w.setTx t).events = w.events := rfl
@[simp] theorem now_setTx (t : TxSide) : (w.setTx t).now = w.now := rfl
@[simp] theorem accepts_setTx (t : TxSide) : (w.setTx t).accepts = w.accepts := rfl

@[simp] theorem cfg_setRx (r : RxSide) : (w.setRx r).link.cfg = w.link.cfg := rfl
@[simp] theorem tx_setRx (r : RxSide) : (w.setRx r).link.tx = w.link.tx := rfl
@[simp] theorem rx_setRx (r : RxSide) : (w.setRx r).link.rx = r := rfl
@[simp] theorem app_setRx (r : RxSide) : (w.setRx r).app = w.app := rfl
@[simp] theorem env_setRx (r : RxSide) : (w.setRx r).env = w.env := rfl
@[simp] theorem reads_setRx (r : RxSide) : (w.setRx r).reads = w.reads := rfl
@[simp] theorem sends_setRx (r : RxSide) : (w.setRx r).sends = w.sends := rfl
@[simp] theorem events_setRx (r : RxSide) : (w.setRx r).events = w.events := rfl
@[simp] theorem now_setRx (r : RxSide) : (w.setRx r).now = w.now := rfl
@[simp] theorem accepts_setRx (r : RxSide) : (w.setRx r).accepts = w.accepts := rfl

@[simp] theorem link_tick : w.tick.link = w.link := rfl
@[simp] theorem app_tick : w.tick.app = w.app := rfl
@[simp] theorem env_tick : w.tick.env = w.env := rfl
@[simp] theorem reads_tick : w.tick.reads = w.reads + 1 := rfl
@[simp] theorem sends_tick : w.tick.sends = w.sends := rfl
@[simp] theorem accepts_tick : w.tick.accepts = w.accepts := rfl
@[simp] theorem events_tick :
    w.tick.events = w.events ++ [.getTimeMs (w.env.clock w.reads)] := rfl

@[simp] theorem link_sendFrame (f : Frame) : (w.sendFrame f).link = w.link := rfl
@[simp] theorem app_sendFrame (f : Frame) : (w.sendFrame f).app = w.app := rfl
@[simp] theorem env_sendFrame (f : Frame) : (w.sendFrame f).env = w.env := rfl
@[simp] theorem reads_sendFrame (f : Frame) : (w.sendFrame f).reads = w.reads := rfl
@[simp] theorem sends_sendFrame (f : Frame) : (w.sendFrame f).sends = w.sends + 1 := rfl
@[simp] theorem now_sendFrame (f : Frame) : (w.sendFrame f).now = w.now := rfl
@[simp] theorem events_sendFrame (f : Frame) :
    (w.sendFrame f).events = w.events ++ [.sendFrame w.link.cfg.txId f w.accepts] := rfl

@[simp] theorem link_settle (r : Reaction σ ε) : (w.settle r).link = w.link := rfl
@[simp] theorem app_settle (r : Reaction σ ε) : (w.settle r).app = r.app := rfl
@[simp] theorem env_settle (r : Reaction σ ε) : (w.settle r).env = w.env := rfl
@[simp] theorem sends_settle (r : Reaction σ ε) : (w.settle r).sends = w.sends := rfl
@[simp] theorem events_settle (r : Reaction σ ε) :
    (w.settle r).events = w.events ++ r.log.map .app := rfl

end World

end MiniEcu.IsoTp
