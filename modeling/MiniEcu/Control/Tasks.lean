import MiniEcu.Control.App
import MiniEcu.Lib.Mailbox
import MiniEcu.Sensor.App

/-!
# The tasks of the Control ECU

All of `control_app.c` as it runs: the receive interrupt, the queue behind it, and the tasks ComRx and
Monitor with the diagnostics they call. ComRx has the higher priority, so a turn of it, from one wait
for the queue to the next, is one step. Monitor can be preempted after every statement that touches
what others see, and its cycle is a list of such statements, each a step of its own. A hard reset
never returns: all statics start anew. The loopback self-test is switched off.
-/

namespace MiniEcu.Control

/-! ### Faults -/

/-- `Fault_t`. -/
inductive Fault
  | speedTimeout
  | speedRange
  | speedE2e
  | sensorAdc
  | outputLocal
deriving DecidableEq, Repr

def Fault.index : Fault → UInt8
  | .speedTimeout => 0
  | .speedRange => 1
  | .speedE2e => 2
  | .sensorAdc => 3
  | .outputLocal => 4

/-- `s_faults[fault]`. -/
def Faults.get (f : Faults) : Fault → Bool
  | .speedTimeout => f.speedTimeout
  | .speedRange => f.speedRange
  | .speedE2e => f.speedE2e
  | .sensorAdc => f.sensorAdc
  | .outputLocal => f.outputLocal

/-- `SetFault`. -/
def Faults.set (f : Faults) (fault : Fault) (active : Bool) : Faults :=
  match fault with
  | .speedTimeout => { f with speedTimeout := active }
  | .speedRange => { f with speedRange := active }
  | .speedE2e => { f with speedE2e := active }
  | .sensorAdc => { f with sensorAdc := active }
  | .outputLocal => { f with outputLocal := active }

theorem Fault.forall_iff {P : Fault → Prop} :
    (∀ fault, P fault) ↔ P .speedTimeout ∧ P .speedRange ∧ P .speedE2e ∧ P .sensorAdc ∧
      P .outputLocal := by
  constructor
  · intro h
    exact ⟨h _, h _, h _, h _, h _⟩
  · intro ⟨h₁, h₂, h₃, h₄, h₅⟩ fault
    cases fault <;> assumption

theorem Faults.get_set_self (f : Faults) (fault : Fault) (active : Bool) :
    (f.set fault active).get fault = active := by
  cases fault <;> rfl

theorem Faults.get_set_of_ne (f : Faults) {fault fault' : Fault} (hne : fault' ≠ fault)
    (active : Bool) : (f.set fault active).get fault' = f.get fault' := by
  cases fault <;> cases fault' <;> first | rfl | exact absurd rfl hne

theorem Faults.ext_get {f g : Faults} (h : ∀ fault, f.get fault = g.get fault) : f = g := by
  have h₁ := h .speedTimeout
  have h₂ := h .speedRange
  have h₃ := h .speedE2e
  have h₄ := h .sensorAdc
  have h₅ := h .outputLocal
  obtain ⟨_, _, _, _, _⟩ := f
  obtain ⟨_, _, _, _, _⟩ := g
  simp only [Faults.get] at h₁ h₂ h₃ h₄ h₅
  rw [h₁, h₂, h₃, h₄, h₅]

namespace Tasks

open Diag (CanFrame Record Signals)
open E2e (Status)
open IsoTp (Env Event World)

/-! ### Constants -/

def canIdSensorAlive : UInt16 := 0x101
def rxQueueLen : Nat := 32

/-! ### Statistics -/

/-- `E2eStats_t`. -/
structure E2eStats where
  ok : UInt32 := 0
  lost : UInt32 := 0
  crc : UInt32 := 0
  repeated : UInt32 := 0
  wrongSeq : UInt32 := 0
deriving DecidableEq, Repr

/-- `CountE2e`. -/
def E2eStats.count (stats : E2eStats) : Status → E2eStats
  | .ok | .initial => { stats with ok := stats.ok + 1 }
  | .okSomeLost => { stats with lost := stats.lost + 1 }
  | .errCrc | .errLength => { stats with crc := stats.crc + 1 }
  | .errRepeated => { stats with repeated := stats.repeated + 1 }
  | .errWrongSeq => { stats with wrongSeq := stats.wrongSeq + 1 }

/-- The rest of `SensorView_t`, and `s_rxQueueOverflow`. -/
structure Counters where
  e2e : E2eStats := {}
  aliveFrames : UInt32 := 0
  udsRequests : UInt32 := 0
  rxQueueOverflow : UInt32 := 0
deriving DecidableEq, Repr

/-! ### Monitor's program -/

/-- The statements of `MonitorTask` that touch what others see. -/
inductive Stmt
  | takeView
  | readClock
  | setFault (fault : Fault)
  | handleButton
  | reportFault (fault : Fault)
  | setPwm
  | sendStatus
deriving DecidableEq, Repr

/-- The body of the loop, after `osDelayUntil`. -/
def cycle : List Stmt :=
  [.takeView, .readClock,
    .setFault .speedTimeout, .setFault .speedRange, .setFault .speedE2e, .setFault .sensorAdc,
    .handleButton, .setFault .outputLocal,
    -- every monitor ran this cycle
    .reportFault .speedTimeout, .reportFault .speedRange, .reportFault .speedE2e,
    .reportFault .sensorAdc, .reportFault .outputLocal,
    .setPwm, .sendStatus]

/-- The locals of `MonitorTask` beside its copy of the view, and what is left of its cycle. -/
structure Monitor where
  now : Nat := 0
  duty : Nat := 0
  left : List Stmt := []
deriving DecidableEq, Repr

/-! ### State -/

/-- Everything behind the driver. The diagnostics and the application share one DTC manager. -/
structure State where
  queue : Mailbox CanFrame rxQueueLen := .empty
  control : Control.State
  e2eAlive : E2e.RxState := E2e.initRx
  counters : Counters := {}
  diag : Diag.State
  monitor : Monitor := {}
  shared : control.dtc = diag.ecu.dtc

/-- What can be seen from outside, and where the steps of the tasks are. -/
inductive Output
  /-- `OnCanRx` has stored the frame, or has not. -/
  | received (frame : CanFrame) (stored : Bool)
  /-- ComRx has taken the frame from the queue. -/
  | taken (frame : CanFrame)
  | control (o : Control.Output)
  | diag (e : Event Record)
  | viewed
  | clock (time : Nat)
  | button (pressed : Bool)
  | setFault (fault : Fault) (active : Bool)
  | reported (fault : Fault) (failed : Bool)
  | restarted (time : Nat)
deriving DecidableEq

/-- `ControlApp_Init`, at power-up or after a restart. -/
def boot (time : Nat) : State where
  control := Control.boot time
  diag := Diag.boot time
  shared := rfl

/-! ### The diagnostics -/

/-- `ControlApp_GetSpeedX10` and `ControlApp_GetFaultMask`. -/
def State.signals (s : State) : Signals where
  speedX10 := s.control.view.speedX10
  faultMask := faultMask s.control.faults

/-- A call leaves a state behind, or does not return. -/
structure Call where
  state : State
  outputs : List Output
  returns : Bool

/-- What `ControlApp_SoftReset` does to the receivers. -/
def State.resynchronise (s : State) : State :=
  { s with
    control := { s.control with e2eSpeed := E2e.initRx }
    e2eAlive := E2e.initRx
    shared := s.shared }

/-- What a call that returns has changed. -/
def State.absorb (s : State) (w : World Diag.Ecu Record) : State :=
  { s with
    diag := { link := w.link, ecu := w.app }
    control := { s.control with dtc := w.app.dtc }
    shared := rfl }

/-- The end of a call. -/
def conclude (w : World Diag.Ecu Record) (s : State) : Call :=
  if w.app.restart then
    { state := boot (w.env.clock w.reads)
      outputs := w.events.map .diag ++ [.restarted (w.env.clock w.reads)]
      returns := false }
  else
    { state := if .app (.ecuReset .soft) ∈ w.events then (s.absorb w).resynchronise else s.absorb w
      outputs := w.events.map .diag
      returns := true }

/-- A call into the diagnostics. -/
def callDiag (input : Diag.Input) (env : Env) (s : State) : Call :=
  conclude (Diag.perform s.diag { env := env, signals := s.signals, input := input }) s

/-! ### The receive interrupt -/

/-- `OnCanRx`. -/
def onCanRx (frame : CanFrame) (s : State) : State × List Output :=
  match s.queue.put frame with
  | some queue => ({ s with queue := queue }, [.received frame true])
  | none =>
      ({ s with counters :=
          { s.counters with rxQueueOverflow := s.counters.rxQueueOverflow + 1 } },
        [.received frame false])

/-! ### ComRx -/

/-- What a turn of ComRx meets: the time at which it looks at the clock for the view, and the clock
and the driver in its two calls into the diagnostics. -/
structure Turn where
  time : Nat
  onFrame : Env
  mainFunction : Env

def onSpeedFrame (frame : CanFrame) (time : Nat) (s : State) : State × List Output :=
  let status := (E2e.check s.control.e2eSpeed frame.data frame.dlc).1
  ({ s with
      control := (handleSpeedFrame frame time s.control).1
      counters := { s.counters with e2e := s.counters.e2e.count status }
      shared := s.shared },
    (handleSpeedFrame frame time s.control).2.map .control)

def onAliveFrame (frame : CanFrame) (s : State) : State :=
  { s with
    e2eAlive := (E2e.check s.e2eAlive frame.data frame.dlc).2
    counters := { s.counters with aliveFrames := s.counters.aliveFrames + 1 } }

def countRequest (s : State) : State :=
  { s with counters := { s.counters with udsRequests := s.counters.udsRequests + 1 } }

/-- The identifiers of the diagnostics. -/
def isDiagnostic (id : UInt16) : Bool :=
  id = Diag.canIdUdsReqControl || id = Diag.canIdUdsFunctional || id = Diag.canIdUdsRespControl

/-- The `switch` over the identifier. -/
def dispatch (t : Turn) (frame : CanFrame) (s : State) : Call :=
  if frame.id = Sensor.canIdSensorSpeed then
    { state := (onSpeedFrame frame t.time s).1
      outputs := (onSpeedFrame frame t.time s).2
      returns := true }
  else if frame.id = canIdSensorAlive then
    { state := onAliveFrame frame s, outputs := [], returns := true }
  else if isDiagnostic frame.id then
    let call := callDiag (.onFrame frame) t.onFrame s
    if call.returns then { call with state := countRequest call.state } else call
  else { state := s, outputs := [], returns := true }

/-- One turn of `ComRxTask`. ISO-TP and UDS timers run even without traffic. -/
def comRx (t : Turn) (s : State) : State × List Output :=
  match s.queue.get with
  | none =>
      let main := callDiag .mainFunction t.mainFunction s
      (main.state, main.outputs)
  | some (frame, queue) =>
      let call := dispatch t frame { s with queue := queue }
      if call.returns then
        let main := callDiag .mainFunction t.mainFunction call.state
        (main.state, .taken frame :: call.outputs ++ main.outputs)
      else (call.state, .taken frame :: call.outputs)

/-! ### Monitor -/

theorem dtc_handleButton (pressed : Bool) (s : Control.State) :
    (handleButton pressed s).dtc = s.dtc := by
  unfold handleButton
  split
  · split
    · rfl
    split <;> rfl
  · rfl

/-- Monitor's copy of the view, which has not been written before its first cycle. -/
def State.copy (s : State) : SensorView := s.control.copy.getD {}

/-- An environment in which the time stands still. The DTC manager looks at neither part of it. -/
def still (time : Nat) : Env where
  clock _ := time
  driver _ := true

/-- One statement of Monitor, with the time and the button as they are. -/
def exec (time : Nat) (pressed : Bool) (s : State) : Stmt → State × List Output
  | .takeView => ({ s with control := takeView s.control, shared := s.shared }, [.viewed])
  | .readClock =>
      ({ s with monitor := { s.monitor with now := time % 2 ^ 32 } }, [.clock time])
  | .setFault fault =>
      let active := (viewFaults s.copy s.control.startTick s.monitor.now
        s.control.localInject).get fault
      ({ s with
          control := { s.control with faults := s.control.faults.set fault active }
          shared := s.shared },
        [.setFault fault active])
  | .handleButton =>
      ({ s with
          control := handleButton pressed s.control
          shared := (dtc_handleButton pressed s.control).trans s.shared },
        [.button pressed])
  | .reportFault fault =>
      let failed := s.control.faults.get fault
      let call := callDiag (.reportFault fault.index failed) (still time) s
      (call.state, .reported fault failed :: call.outputs)
  | .setPwm =>
      let duty := dutyOf s.control.faults s.copy
      ({ s with monitor := { s.monitor with duty := duty } }, [.control (.setPwm duty)])
  | .sendStatus =>
      if s.control.tick % (controlStatusCycleMs / monitorPeriodMs) = 0 then
        ({ s with
            control := (sendStatusFrame s.monitor.duty s.control).1
            shared := s.shared },
          (sendStatusFrame s.monitor.duty s.control).2.map .control)
      else (s, [])

/-- The next statement of `MonitorTask`, or the end of its wait for the next cycle. -/
def monitor (time : Nat) (pressed : Bool) (s : State) : State × List Output :=
  match s.monitor.left with
  | [] => ({ s with monitor := { s.monitor with left := cycle } }, [])
  | stmt :: left => exec time pressed { s with monitor := { s.monitor with left := left } } stmt

/-! ### Runs -/

/-- Who moves next. -/
inductive Op
  | canRx (frame : CanFrame)
  | comRx (turn : Turn)
  | monitor (time : Nat) (pressed : Bool)

def step (s : State) : Op → State × List Output
  | .canRx frame => onCanRx frame s
  | .comRx turn => comRx turn s
  | .monitor time pressed => monitor time pressed s

end Tasks

end MiniEcu.Control
