import MiniEcu.Diag.App
import MiniEcu.E2e.Code

/-!
# The application of the Control ECU

The parts of `control_app.c` between the sensor's frames and the output. Two tasks work on them:
ComRx handles frames and resets, and Monitor runs a cycle every 10 ms. A cycle copies the view under
its mutex, looks at the button, and goes on with the copy. These are three steps, and anything may
happen between them. Times are true milliseconds; a tick is the low 32 bits of one.
-/

namespace MiniEcu.Control

open Diag (CanFrame)
open E2e (Status)
open IsoTp (Bytes Frame)
open Memory (elapsed)

/-! ### Constants -/

def canIdControlStatus : UInt16 := 0x200
def sensorSpeedMaxX10 : Nat := 2500
def sensorStatusAdcError : UInt8 := 0x02
def sensorSpeedTimeoutMs : Nat := 100
def monitorPeriodMs : Nat := 10
def startupGraceMs : Nat := 500
def e2eHealFrames : Nat := 10
def buttonDebounceTicks : Nat := 3
def controlStatusCycleMs : Nat := 100
def pwmMax : Nat := 1000

/-! ### State -/

/-- `SensorView_t` without its statistics. -/
structure SensorView where
  speedX10 : UInt16 := 0
  adcRaw : UInt16 := 0
  sensorStatus : UInt8 := 0
  lastValidTick : Nat := 0
  received : Bool := false
  e2eError : Bool := false
  goodStreak : Nat := 0
deriving DecidableEq, Repr

/-- `s_faults`, in the order of `Fault_t`. -/
structure Faults where
  speedTimeout : Bool := false
  speedRange : Bool := false
  speedE2e : Bool := false
  sensorAdc : Bool := false
  outputLocal : Bool := false
deriving DecidableEq, Repr

def Faults.toList (f : Faults) : List Bool :=
  [f.speedTimeout, f.speedRange, f.speedE2e, f.sensorAdc, f.outputLocal]

/-- The statics of `HandleButton`. -/
structure Button where
  stableTicks : Nat := 0
  latched : Bool := false
deriving DecidableEq, Repr

/-- `copy` is the view that the cycle in progress works on. -/
structure State where
  view : SensorView := {}
  e2eSpeed : E2e.RxState := E2e.initRx
  localInject : Bool := false
  faults : Faults := {}
  startTick : Nat
  dtc : Dtc.Manager
  button : Button := {}
  tick : Nat := 0
  statusCounter : UInt8 := 0
  copy : Option SensorView := none

/-- What the outside sees: the verdict on a frame, the duty of the output, a frame to be sent. -/
inductive Output
  | checked (frame : CanFrame) (status : Status) (time : Nat)
  | setPwm (duty : Nat)
  | canSend (id : UInt16) (data : Frame)
deriving DecidableEq

/-! ### ComRx -/

/-- Two bytes of a frame, big-endian. -/
def be16 (f : Frame) (i : Nat) : UInt16 :=
  (E2e.load f i).toUInt16 <<< 8 ||| (E2e.load f (i + 1)).toUInt16

/-- What `HandleSpeedFrame` does to the view. -/
def SensorView.update (v : SensorView) (frame : CanFrame) (status : Status) (time : Nat) :
    SensorView :=
  if E2e.isValid status then
    let v := { v with
      speedX10 := be16 frame.data 0
      adcRaw := be16 frame.data 2
      sensorStatus := E2e.load frame.data 4
      lastValidTick := time % 2 ^ 32
      received := true }
    if v.goodStreak < e2eHealFrames then { v with goodStreak := v.goodStreak + 1 }
    else { v with e2eError := false }
  else
    -- data discarded, output keeps last good value
    { v with e2eError := true, goodStreak := 0 }

def handleSpeedFrame (frame : CanFrame) (time : Nat) (s : State) : State × List Output :=
  let (status, e2eSpeed) := E2e.check s.e2eSpeed frame.data frame.dlc
  ({ s with e2eSpeed := e2eSpeed, view := s.view.update frame status time },
    [.checked frame status time])

/-- `ControlApp_SoftReset`. -/
def softReset (s : State) : State :=
  { s with e2eSpeed := E2e.initRx, dtc := s.dtc.startOperationCycle }

/-- `ControlApp_SetLocalFaultInjection`. -/
def setLocalFaultInjection (active : Bool) (s : State) : State := { s with localInject := active }

/-! ### Monitor -/

def handleButton (pressed : Bool) (s : State) : State :=
  if pressed then
    if s.button.stableTicks < buttonDebounceTicks then
      { s with button := { s.button with stableTicks := s.button.stableTicks + 1 } }
    else if !s.button.latched then
      { s with button := { s.button with latched := true }, localInject := !s.localInject }
    else s   -- held
  else { s with button := { stableTicks := 0, latched := false } }

/-- `ControlApp_GetFaultMask`. -/
def faultMask (f : Faults) : UInt8 :=
  (f.toList.zipIdx.filter Prod.fst).foldl (fun mask p => mask ||| 1 <<< UInt8.ofNat p.2) 0

/-- The four faults that are read off the view. -/
def viewFaults (view : SensorView) (startTick now : Nat) (outputLocal : Bool) : Faults :=
  let ageMs := if view.received then elapsed now view.lastValidTick else elapsed now startTick
  { -- before the first frame, give the Sensor ECU time to boot
    speedTimeout := sensorSpeedTimeoutMs < ageMs &&
      (view.received || startupGraceMs < elapsed now startTick)
    speedRange := view.received && sensorSpeedMaxX10 < view.speedX10.toNat
    speedE2e := view.e2eError
    sensorAdc := view.sensorStatus &&& sensorStatusAdcError ≠ 0
    outputLocal := outputLocal }

/-- `DiagApp_ReportFault` for every fault. -/
def reportFaults (f : Faults) (dtc : Dtc.Manager) : Dtc.Manager :=
  f.toList.zipIdx.foldl (fun dtc p => dtc.reportResult p.2 p.1) dtc

/-- The product is computed in 32 bits and the quotient stored in 16. -/
def scaleDuty (speedX10 : UInt16) : Nat :=
  speedX10.toNat * pwmMax % 2 ^ 32 / sensorSpeedMaxX10 % 2 ^ 16

/-- The duty of the output. Never drive it from stale or implausible data. -/
def dutyOf (f : Faults) (view : SensorView) : Nat :=
  if f.speedTimeout || f.speedRange || f.speedE2e || f.outputLocal then 0
  else scaleDuty view.speedX10

/-- `SendStatusFrame`. -/
def sendStatusFrame (duty : Nat) (s : State) : State × List Output :=
  let data := [faultMask s.faults, UInt8.ofNat (s.dtc.countByStatusMask Dtc.statusCdtc),
    UInt8.ofNat (duty >>> 8), UInt8.ofNat (duty &&& 0xFF), 0, 0, 0, 0]
  let (frame, counter) := E2e.protect ⟨data, rfl⟩ s.statusCounter
  ({ s with statusCounter := counter }, [.canSend canIdControlStatus frame])

/-- The cycle takes its copy of the view. -/
def takeView (s : State) : State := { s with tick := (s.tick + 1) % 2 ^ 32, copy := some s.view }

/-- The rest of the cycle, after `HandleButton`. -/
def monitorCycle (view : SensorView) (time : Nat) (s : State) : State × List Output :=
  let now := time % 2 ^ 32
  let faults := viewFaults view s.startTick now s.localInject
  let duty := dutyOf faults view
  let s := { s with faults := faults, dtc := reportFaults faults s.dtc, copy := none }
  if s.tick % (controlStatusCycleMs / monitorPeriodMs) = 0 then
    let (s, outs) := sendStatusFrame duty s
    (s, .setPwm duty :: outs)
  else (s, [.setPwm duty])

/-! ### Runs -/

/-- `ControlApp_Init`, if everything it creates can be created. -/
def boot (time : Nat) : State where
  startTick := time % 2 ^ 32
  dtc := Dtc.Manager.resetAll Diag.dtcTable

/-- The steps of the two tasks, and the times and the button they see. -/
inductive Op
  | speedFrame (frame : CanFrame) (time : Nat)
  | softReset
  | setLocalFaultInjection (active : Bool)
  | takeView
  | handleButton (pressed : Bool)
  | monitorCycle (time : Nat)
deriving DecidableEq

def step (s : State) : Op → State × List Output
  | .speedFrame frame time => handleSpeedFrame frame time s
  | .softReset => (softReset s, [])
  | .setLocalFaultInjection active => (setLocalFaultInjection active s, [])
  | .takeView => (takeView s, [])
  | .handleButton pressed => (handleButton pressed s, [])
  | .monitorCycle time =>
      match s.copy with
      | some view => monitorCycle view time s
      | none => (s, [])   -- no cycle is in progress

end MiniEcu.Control
