import MiniEcu.Control.App
import MiniEcu.Lib.Windows
import MiniEcu.Lib.Words

/-!
# The application of the Sensor ECU

The part of `sensor_app.c` between the ADC and the speed frame. Once every 10 ms it looks at the
button, which selects what is wrong with the frames, takes a sample, and sends a frame with the speed
that follows from the average of the last eight samples.
-/

namespace MiniEcu.Sensor

open Control (Button buttonDebounceTicks sensorSpeedMaxX10 sensorStatusAdcError)
open Diag (CanFrame)
open IsoTp (Bytes Frame)

/-! ### Constants -/

def canIdSensorSpeed : UInt16 := 0x100
def adcDrvMaxValue : Nat := 4095
def filterSize : Nat := 8
def filterShift : UInt32 := 3
def sensorStatusFaultInj : UInt8 := 0x01
def faultSpeedOutOfRange : UInt16 := 3000

/-! ### State -/

inductive FaultMode
  | none
  | silent
  | outOfRange
deriving DecidableEq, Repr

/-- `s_filterBuf`, `s_filterSum` and `s_filterIdx`. -/
structure Filter where
  buf : List UInt16
  sum : UInt32
  idx : Nat
  length_buf : buf.length = filterSize
  idx_lt : idx < filterSize
deriving DecidableEq

structure State where
  filter : Filter
  adcFiltered : UInt16
  adcError : Bool := false
  faultMode : FaultMode := .none
  button : Button := {}
  speedAlive : UInt8 := 0
deriving DecidableEq

/-! ### The filter -/

def filterReset (sample : UInt16) : Filter where
  buf := List.replicate filterSize sample
  sum := sample.toUInt32 * UInt32.ofNat filterSize
  idx := 0
  length_buf := List.length_replicate
  idx_lt := by decide

def filterUpdate (sample : UInt16) (f : Filter) : Filter where
  buf := f.buf.set f.idx sample
  sum := f.sum - (f.buf.getD f.idx 0).toUInt32 + sample.toUInt32
  idx := (f.idx + 1) &&& (filterSize - 1)
  length_buf := by rw [List.length_set, f.length_buf]
  idx_lt := Nat.and_lt_two_pow (n := 3) _ (by decide)

/-- What `FilterUpdate` returns. -/
def Filter.average (f : Filter) : UInt16 := (f.sum >>> filterShift).toUInt16

/-- 0..4095 to 0..2500, rounded. -/
def adcToSpeedX10 (adc : UInt16) : UInt16 :=
  ((adc.toUInt32 * UInt32.ofNat sensorSpeedMaxX10 + UInt32.ofNat (adcDrvMaxValue / 2)) /
    UInt32.ofNat adcDrvMaxValue).toUInt16

/-- `SampleInput`, where a read that fails gives nothing. -/
def sampleInput (reading : Option UInt16) (s : State) : State :=
  match reading with
  | some raw =>
      let filter := filterUpdate raw s.filter
      { s with adcError := false, filter := filter, adcFiltered := filter.average }
  | none => { s with adcError := true }   -- keep last good value, flag it in the frame

/-! ### The task -/

def FaultMode.next : FaultMode → FaultMode
  | .none => .silent
  | .silent => .outOfRange
  | .outOfRange => .none

def handleButton (pressed : Bool) (s : State) : State :=
  if pressed then
    if s.button.stableTicks < buttonDebounceTicks then
      { s with button := { s.button with stableTicks := s.button.stableTicks + 1 } }
    else if !s.button.latched then
      { s with button := { s.button with latched := true }, faultMode := s.faultMode.next }
    else s   -- still held
  else { s with button := { stableTicks := 0, latched := false } }

def putU16Be (value : UInt16) : Bytes := [(value >>> 8).toUInt8, (value &&& 0xFF).toUInt8]

/-- The payload of the speed frame, before it is protected. -/
def speedPayload (speed adc : UInt16) (status : UInt8) : Frame where
  bytes := putU16Be speed ++ putU16Be adc ++ [status, 0, 0, 0]
  length_bytes := rfl

def speedStatus (s : State) : UInt8 :=
  (if s.faultMode ≠ .none then sensorStatusFaultInj else 0) |||
    (if s.adcError then sensorStatusAdcError else 0)

def sendSpeedFrame (s : State) : State × List CanFrame :=
  if s.faultMode = .silent then (s, [])
  else
    let speed :=
      if s.faultMode = .outOfRange then faultSpeedOutOfRange else adcToSpeedX10 s.adcFiltered
    let (data, alive) := E2e.protect (speedPayload speed s.adcFiltered (speedStatus s)) s.speedAlive
    ({ s with speedAlive := alive }, [.full canIdSensorSpeed data])

/-- `SensorApp_Task10ms`. -/
def task10ms (pressed : Bool) (reading : Option UInt16) (s : State) : State × List CanFrame :=
  sendSpeedFrame (sampleInput reading (handleButton pressed s))

/-- `SensorApp_Init`, if the drivers can be initialised. The sample is zero if it cannot be read. -/
def init (first : Option UInt16) : State where
  filter := filterReset (first.getD 0)
  adcFiltered := first.getD 0

end MiniEcu.Sensor
