import MiniEcu.Control.Output
import MiniEcu.Sensor.App
import Mathlib.Algebra.Group.Action.Defs
import Mathlib.Algebra.Order.BigOperators.Group.List
import Mathlib.Algebra.Order.Ring.Nat
import Mathlib.Data.List.Infix
import Mathlib.Data.List.ReduceOption

/-!
# The speed signal across the two ECUs

The Sensor ECU publishes the average of a window of samples, and the Control ECU reads it off the
frames it accepts. Frames may be lost on the way. What is accepted is what was published, and the
speed in it is never out of range.
-/

namespace MiniEcu.Sensor

open Control (Check SensorView be16 checks sensorSpeedMaxX10 sensorStatusAdcError)
open Diag (CanFrame)
open E2e (load load_protect)
open History (oldestFirst oldestFirst_eq_cons oldestFirst_perm oldestFirst_replicate oldestFirst_set
  rtake_concat)
open IsoTp (Frame)
open Trace

/-! ### The signal -/

structure Signal where
  adcRaw : Nat
  speedX10 : Nat
  adcError : Bool
deriving DecidableEq

/-- The last eight samples that could be read. Before the first one, all eight are `prime`. -/
def window (prime : Nat) (readings : List (Option UInt16)) : List Nat :=
  (List.replicate filterSize prime ++ readings.reduceOption.map UInt16.toNat).rtake filterSize

/-- The signal of a cycle, given what has been read by then. -/
def signal (prime : Nat) (readings : List (Option UInt16)) : Signal :=
  let adcRaw := (window prime readings).sum / filterSize
  { adcRaw := adcRaw
    speedX10 := (adcRaw * sensorSpeedMaxX10 + adcDrvMaxValue / 2) / adcDrvMaxValue
    adcError := readings.getLast? = some none }

/-- The signals of all the cycles. -/
def signals (prime : Nat) (readings : List (Option UInt16)) : List Signal :=
  readings.inits.tail.map (signal prime)

section Readings

variable (prime : Nat) (readings : List (Option UInt16))

@[simp] theorem window_nil : window prime [] = List.replicate filterSize prime := by
  simp [window, List.rtake]

theorem window_concat_some (raw : UInt16) :
    window prime (readings ++ [some raw]) = (window prime readings).tail ++ [raw.toNat] := by
  have hlen : filterSize ≤
      (List.replicate filterSize prime ++ readings.reduceOption.map UInt16.toNat).length := by
    rw [List.length_append, List.length_replicate]
    exact Nat.le_add_right _ _
  rw [window, List.reduceOption_append, List.map_append, ← List.append_assoc]
  exact rtake_concat (by decide) hlen raw.toNat

theorem window_concat_none : window prime (readings ++ [none]) = window prime readings := by
  rw [window, List.reduceOption_append, List.reduceOption_cons_of_none, List.reduceOption_nil,
    List.append_nil]
  rfl

theorem signals_concat (reading : Option UInt16) :
    signals prime (readings ++ [reading]) =
      signals prime readings ++ [signal prime (readings ++ [reading])] := by
  have hne : readings.inits ≠ [] := by
    cases readings <;> simp
  rw [signals, List.inits_append, List.tail_append_of_ne_nil hne, List.map_append]
  rfl

end Readings

/-! ### The sensor -/

/-- The state of the sensor after it has read the samples. -/
structure Holds (s : State) (prime : Nat) (readings : List (Option UInt16)) : Prop where
  buf : (oldestFirst s.filter.buf s.filter.idx).map UInt16.toNat = window prime readings
  sum : s.filter.sum.toNat = (window prime readings).sum
  range : ∀ raw ∈ window prime readings, raw ≤ adcDrvMaxValue
  filtered : s.adcFiltered.toNat = (window prime readings).sum / filterSize
  error : s.adcError = decide (readings.getLast? = some none)

theorem toNat_average (f : Filter) (h : f.sum.toNat ≤ filterSize * 65535) :
    f.average.toNat = f.sum.toNat / filterSize := by
  rw [Filter.average, UInt32.toNat_toUInt16, UInt32.toNat_shiftRight]
  show f.sum.toNat >>> 3 % 2 ^ 16 = _
  rw [Nat.shiftRight_eq_div_pow]
  rw [filterSize] at h ⊢
  omega

theorem toNat_adcToSpeedX10 (adc : UInt16) : (adcToSpeedX10 adc).toNat =
    (adc.toNat * sensorSpeedMaxX10 + adcDrvMaxValue / 2) / adcDrvMaxValue := by
  have hadc := adc.toNat_lt
  rw [adcToSpeedX10, UInt32.toNat_toUInt16, UInt32.toNat_div, UInt32.toNat_add, UInt32.toNat_mul,
    UInt16.toNat_toUInt32]
  show (adc.toNat * 2500 % 2 ^ 32 + 2047) % 2 ^ 32 / 4095 % 2 ^ 16 = (adc.toNat * 2500 + 2047) / 4095
  generalize adc.toNat = a at *
  rw [Nat.mod_eq_of_lt (show a * 2500 < 2 ^ 32 by omega),
    Nat.mod_eq_of_lt (show a * 2500 + 2047 < 2 ^ 32 by omega)]
  omega

theorem holds_init (first : Option UInt16) (hfirst : ∀ raw ∈ first, raw.toNat ≤ adcDrvMaxValue) :
    Holds (init first) (first.getD 0).toNat [] := by
  have hrange : (first.getD 0).toNat ≤ adcDrvMaxValue := by
    cases first with
    | none => exact Nat.zero_le _
    | some raw => exact hfirst raw rfl
  have hfirst16 := (first.getD 0).toNat_lt
  constructor
  · rw [window_nil, init, filterReset, oldestFirst_replicate, List.map_replicate]
  · rw [window_nil, List.sum_replicate, init, filterReset, UInt32.toNat_mul, UInt16.toNat_toUInt32]
    show (first.getD 0).toNat * 8 % 2 ^ 32 = 8 * (first.getD 0).toNat
    omega
  · rw [window_nil]
    intro raw hraw
    rwa [List.eq_of_mem_replicate hraw]
  · rw [window_nil, List.sum_replicate, init]
    exact (Nat.mul_div_cancel_left _ (by decide)).symm
  · rfl

theorem oldestFirst_filter (f : Filter) : ∃ oldest rest, oldestFirst f.buf f.idx = oldest :: rest ∧
    f.buf.getD f.idx 0 = oldest ∧ rest.length = 7 := by
  have hidx : f.idx < f.buf.length := by
    rw [f.length_buf]
    exact f.idx_lt
  have hlen := (oldestFirst_perm f.buf f.idx).length_eq
  rw [oldestFirst_eq_cons hidx, List.length_cons, f.length_buf] at hlen
  refine ⟨_, _, oldestFirst_eq_cons hidx, ?_, Nat.succ.inj hlen⟩
  rw [List.getD_eq_getElem?_getD, List.getElem?_eq_getElem hidx]
  rfl

theorem oldestFirst_filterUpdate (raw : UInt16) (f : Filter) :
    oldestFirst (filterUpdate raw f).buf (filterUpdate raw f).idx =
      (oldestFirst f.buf f.idx).tail ++ [raw] := by
  have hidx : f.idx < f.buf.length := by
    rw [f.length_buf]
    exact f.idx_lt
  have hnext : (filterUpdate raw f).idx = (f.idx + 1) % f.buf.length := by
    rw [f.length_buf]
    exact Nat.and_two_pow_sub_one_eq_mod _ 3
  rw [hnext]
  exact oldestFirst_set hidx raw

/-- Updating the filter moves the window on, and the sum follows it without an underflow. -/
theorem Holds.filterUpdate {s : State} {prime : Nat} {readings : List (Option UInt16)}
    (h : Holds s prime readings) (raw : UInt16) :
    (filterUpdate raw s.filter).sum.toNat = (window prime (readings ++ [some raw])).sum ∧
      (window prime (readings ++ [some raw])).sum ≤ filterSize * 65535 := by
  obtain ⟨oldest, rest, hcons, hold, hlen⟩ := oldestFirst_filter s.filter
  have hsum := h.sum
  rw [window_concat_some, ← h.buf, hcons, List.map_cons, List.tail_cons, List.sum_append,
    List.sum_singleton]
  rw [← h.buf, hcons, List.map_cons, List.sum_cons] at hsum
  have hrest := List.sum_le_card_nsmul (rest.map UInt16.toNat) 65535 fun n hn => by
    obtain ⟨w, -, rfl⟩ := List.mem_map.mp hn
    exact Nat.le_of_lt_succ w.toNat_lt
  rw [List.length_map, hlen, smul_eq_mul] at hrest
  have hraw := raw.toNat_lt
  have holdest := oldest.toNat_lt
  constructor
  · rw [Sensor.filterUpdate, hold, UInt32.toNat_add, UInt32.toNat_sub, UInt16.toNat_toUInt32,
      UInt16.toNat_toUInt32, hsum]
    omega
  · rw [filterSize]
    omega

theorem holds_sampleInput {s : State} {prime : Nat} {readings : List (Option UInt16)}
    (h : Holds s prime readings) (reading : Option UInt16)
    (hreading : ∀ raw ∈ reading, raw.toNat ≤ adcDrvMaxValue) :
    Holds (sampleInput reading s) prime (readings ++ [reading]) := by
  cases reading with
  | none =>
      have hwindow := window_concat_none prime readings
      constructor
      · rw [hwindow]
        exact h.buf
      · rw [hwindow]
        exact h.sum
      · rw [hwindow]
        exact h.range
      · rw [hwindow]
        exact h.filtered
      · simp [sampleInput]
  | some raw =>
      obtain ⟨hsum, hbound⟩ := h.filterUpdate raw
      constructor
      · rw [window_concat_some, ← h.buf, ← List.map_tail, sampleInput, oldestFirst_filterUpdate,
          List.map_append]
        rfl
      · exact hsum
      · rw [window_concat_some]
        intro n hn
        rcases List.mem_append.mp hn with hold | hnew
        · exact h.range n (List.mem_of_mem_tail hold)
        · rw [List.mem_singleton.mp hnew]
          exact hreading raw rfl
      · rw [← hsum]
        exact toNat_average _ (hsum ▸ hbound)
      · simp [sampleInput]

theorem Holds.handleButton {s : State} {prime : Nat} {readings : List (Option UInt16)}
    (h : Holds s prime readings) (pressed : Bool) :
    Holds (handleButton pressed s) prime readings := by
  rw [Sensor.handleButton]
  split
  · split
    · exact ⟨h.buf, h.sum, h.range, h.filtered, h.error⟩
    split
    · exact ⟨h.buf, h.sum, h.range, h.filtered, h.error⟩
    · exact h
  · exact ⟨h.buf, h.sum, h.range, h.filtered, h.error⟩

/-! ### The frame -/

/-- The signal that a frame carries. -/
def frameSignal (f : Frame) : Signal where
  adcRaw := (be16 f 2).toNat
  speedX10 := (be16 f 0).toNat
  adcError := load f 4 &&& sensorStatusAdcError ≠ 0

theorem be16_putU16Be (value : UInt16) :
    Words.be16 (value >>> 8).toUInt8 (value &&& 0xFF).toUInt8 = value := by
  have hlow : (value &&& 0xFF).toUInt8 = value.toUInt8 := by
    apply UInt8.toNat_inj.mp
    rw [UInt16.toNat_toUInt8, UInt16.toNat_toUInt8, UInt16.toNat_and]
    show (value.toNat &&& 255) % 2 ^ 8 = value.toNat % 2 ^ 8
    rw [show value.toNat &&& 255 = value.toNat % 2 ^ 8 from Nat.and_two_pow_sub_one_eq_mod _ 8,
      Nat.mod_mod]
  rw [hlow, Words.be16_bytes]

theorem frameSignal_protect (speed adc : UInt16) (status alive : UInt8) :
    frameSignal (E2e.protect (speedPayload speed adc status) alive).1 =
      { adcRaw := adc.toNat, speedX10 := speed.toNat
        adcError := status &&& sensorStatusAdcError ≠ 0 } := by
  have hspeed : be16 (speedPayload speed adc status) 0 = speed := be16_putU16Be speed
  have hadc : be16 (speedPayload speed adc status) 2 = adc := be16_putU16Be adc
  rw [be16] at hspeed hadc
  rw [frameSignal, be16, be16, load_protect _ _ (by decide), load_protect _ _ (by decide),
    load_protect _ _ (by decide), load_protect _ _ (by decide), load_protect _ _ (by decide),
    hspeed, hadc]
  rfl

theorem sendSpeedFrame_none {s : State} (hmode : s.faultMode = .none) :
    let framed := E2e.protect
      (speedPayload (adcToSpeedX10 s.adcFiltered) s.adcFiltered (speedStatus s)) s.speedAlive
    sendSpeedFrame s =
      ({ s with speedAlive := framed.2 }, [.full canIdSensorSpeed framed.1]) := by
  rw [sendSpeedFrame, hmode]
  rfl

/-- In fault mode NONE a cycle sends a frame with the signal of the cycle. -/
theorem Holds.sendSpeedFrame {s : State} {prime : Nat} {readings : List (Option UInt16)}
    (h : Holds s prime readings) (hmode : s.faultMode = .none) :
    ∃ frame, (sendSpeedFrame s).2 = [frame] ∧ frameSignal frame.data = signal prime readings ∧
      Holds (sendSpeedFrame s).1 prime readings := by
  have herror : speedStatus s &&& sensorStatusAdcError ≠ 0 ↔ s.adcError = true := by
    rw [speedStatus, hmode]
    cases s.adcError <;> decide
  rw [sendSpeedFrame_none hmode]
  refine ⟨_, rfl, ?_, ⟨h.buf, h.sum, h.range, h.filtered, h.error⟩⟩
  rw [CanFrame.full, frameSignal_protect, signal, toNat_adcToSpeedX10, h.filtered]
  simp only [herror, h.error, decide_eq_true_eq]

/-! ### Both ECUs -/

/-- The two ECUs, and the speed frames that are on their way. -/
structure Link where
  sensor : State
  bus : List CanFrame
  control : Control.State

inductive Op
  | cycle (pressed : Bool) (reading : Option UInt16)
  | lose (i : Nat)
  | deliver (time : Nat)
  | control (op : Control.Op) (hquiet : ∀ frame time, op ≠ .speedFrame frame time)

/-- A read of the ADC, and a frame that the Control ECU has accepted, with what its view shows then. -/
inductive Event
  | read (reading : Option UInt16)
  | accepted (signal : Signal)

def viewSignal (v : SensorView) : Signal where
  adcRaw := v.adcRaw.toNat
  speedX10 := v.speedX10.toNat
  adcError := v.sensorStatus &&& sensorStatusAdcError ≠ 0

def step (n : Link) : Op → Link × List Event
  | .cycle pressed reading =>
      let (sensor, frames) := task10ms pressed reading n.sensor
      ({ n with sensor := sensor, bus := n.bus ++ frames }, [.read reading])
  | .lose i => ({ n with bus := n.bus.eraseIdx i }, [])
  | .deliver time =>
      match n.bus with
      | frame :: bus =>
          let (control, outs) := Control.handleSpeedFrame frame time n.control
          ({ n with bus := bus, control := control },
            ((checks outs).filter Check.valid).map fun _ => .accepted (viewSignal control.view))
      | [] => (n, [])
  | .control op _ => ({ n with control := (Control.step n.control op).1 }, [])

def boot (first : Option UInt16) (start : Nat) : Link where
  sensor := init first
  bus := []
  control := Control.boot start

/-- The sensor is in fault mode NONE, and a sample has twelve bits. -/
def Normal (n : Link) : Op → Prop
  | .cycle pressed reading =>
      (∀ raw ∈ reading, raw.toNat ≤ adcDrvMaxValue) ∧ (handleButton pressed n.sensor).faultMode = .none
  | _ => True

instance decidableSample : (reading : Option UInt16) →
    Decidable (∀ raw ∈ reading, raw.toNat ≤ adcDrvMaxValue)
  | none => .isTrue fun _ h => nomatch h
  | some raw => decidable_of_iff (raw.toNat ≤ adcDrvMaxValue) (by simp)

instance decidableNormal (n : Link) : (op : Op) → Decidable (Normal n op)
  | .cycle _ _ => inferInstanceAs (Decidable (_ ∧ _))
  | .lose _ => .isTrue trivial
  | .deliver _ => .isTrue trivial
  | .control _ _ => .isTrue trivial

def Event.reading : Event → Option (Option UInt16)
  | .read reading => some reading
  | .accepted _ => none

def Event.signal : Event → Option Signal
  | .read _ => none
  | .accepted signal => some signal

def readings (tr : List Event) : List (Option UInt16) := tr.filterMap Event.reading

def accepted (tr : List Event) : List Signal := tr.filterMap Event.signal

@[simp] theorem readings_append (tr tr' : List Event) :
    readings (tr ++ tr') = readings tr ++ readings tr' := List.filterMap_append

@[simp] theorem accepted_append (tr tr' : List Event) :
    accepted (tr ++ tr') = accepted tr ++ accepted tr' := List.filterMap_append

theorem concat_read (tr : List Event) (reading : Option UInt16) :
    readings (tr ++ [.read reading]) = readings tr ++ [reading] ∧
      accepted (tr ++ [.read reading]) = accepted tr := by
  rw [readings_append, accepted_append]
  exact ⟨rfl, List.append_nil _⟩

theorem concat_accepted (tr : List Event) (g : Signal) :
    readings (tr ++ [.accepted g]) = readings tr ∧
      accepted (tr ++ [.accepted g]) = accepted tr ++ [g] := by
  rw [readings_append, accepted_append]
  exact ⟨List.append_nil _, rfl⟩

/-- Nothing that the Control ECU works on is out of range. -/
structure InRange (s : Control.State) : Prop where
  view : s.view.speedX10.toNat ≤ sensorSpeedMaxX10
  copy : ∀ v ∈ s.copy, v.speedX10.toNat ≤ sensorSpeedMaxX10
  fault : s.faults.speedRange = false

/-- What holds after every run: the sensor holds its window, and the signals accepted so far and those
on the way are some of those that were sent, in their order. -/
structure Agrees (prime : Nat) (n : Link) (tr : List Event) : Prop where
  holds : Holds n.sensor prime (readings tr)
  sent : (accepted tr ++ n.bus.map fun frame => frameSignal frame.data).Sublist
    (signals prime (readings tr))
  range : ∀ g ∈ signals prime (readings tr), g.speedX10 ≤ sensorSpeedMaxX10
  control : InRange n.control

theorem Holds.speedX10_le {s : State} {prime : Nat} {readings : List (Option UInt16)}
    (h : Holds s prime readings) : (signal prime readings).speedX10 ≤ sensorSpeedMaxX10 := by
  have hlen : (window prime readings).length = filterSize := by
    rw [← h.buf, List.length_map, (oldestFirst_perm _ _).length_eq, s.filter.length_buf]
  have hsum := List.sum_le_card_nsmul (window prime readings) adcDrvMaxValue h.range
  rw [hlen, smul_eq_mul] at hsum
  show ((window prime readings).sum / 8 * 2500 + 2047) / 4095 ≤ 2500
  rw [filterSize, adcDrvMaxValue] at hsum
  omega

theorem agrees_boot (first : Option UInt16) (start : Nat)
    (hfirst : ∀ raw ∈ first, raw.toNat ≤ adcDrvMaxValue) :
    Agrees (first.getD 0).toNat (boot first start) [] where
  holds := holds_init first hfirst
  sent := List.Sublist.slnil
  range g hg := by cases hg
  control := ⟨Nat.zero_le _, fun _ hv => absurd hv (Option.some_ne_none _).symm, rfl⟩

theorem viewSignal_update (v : SensorView) (frame : CanFrame) (status : E2e.Status) (time : Nat) :
    (E2e.isValid status = true → viewSignal (v.update frame status time) = frameSignal frame.data) ∧
      (E2e.isValid status = false → (v.update frame status time).speedX10 = v.speedX10) := by
  constructor
  · intro hvalid
    rw [SensorView.update, if_pos hvalid]
    dsimp only
    split <;> rfl
  · intro hinvalid
    rw [SensorView.update, if_neg (by simp [hinvalid])]

theorem InRange.step {s : Control.State} (h : InRange s) {op : Control.Op}
    (hquiet : ∀ frame time, op ≠ .speedFrame frame time) : InRange (Control.step s op).1 := by
  cases op with
  | speedFrame frame time => exact absurd rfl (hquiet frame time)
  | softReset => exact ⟨h.view, h.copy, h.fault⟩
  | setLocalFaultInjection active => exact ⟨h.view, h.copy, h.fault⟩
  | takeView =>
      refine ⟨h.view, fun v hv => ?_, h.fault⟩
      obtain rfl := Option.some.inj hv
      exact h.view
  | handleButton pressed =>
      rw [Control.step, Control.handleButton]
      split
      · split
        · exact ⟨h.view, h.copy, h.fault⟩
        split
        · exact ⟨h.view, h.copy, h.fault⟩
        · exact h
      · exact ⟨h.view, h.copy, h.fault⟩
  | monitorCycle time =>
      rw [Control.step]
      split
      · rename_i view hcopy
        have hspeed : ¬ sensorSpeedMaxX10 < view.speedX10.toNat := Nat.not_lt.mpr (h.copy view hcopy)
        have hfault : (Control.viewFaults view s.startTick (time % 2 ^ 32) s.localInject).speedRange =
            false := by
          simp [Control.viewFaults, hspeed]
        rw [Control.monitorCycle]
        split
        · exact ⟨h.view, fun _ hv => absurd hv (Option.some_ne_none _).symm, hfault⟩
        · exact ⟨h.view, fun _ hv => absurd hv (Option.some_ne_none _).symm, hfault⟩
      · exact h

section Step

variable {prime : Nat} {n : Link} {tr : List Event} (h : Agrees prime n tr)
include h

/-- A cycle publishes the signal of what has been read by then. -/
theorem Agrees.cycle {pressed : Bool} {reading : Option UInt16}
    (hnormal : Normal n (.cycle pressed reading)) :
    Agrees prime (step n (.cycle pressed reading)).1 (tr ++ [.read reading]) := by
  obtain ⟨hreading, hmode⟩ := hnormal
  have hmode' : (sampleInput reading (handleButton pressed n.sensor)).faultMode = .none := by
    cases reading <;> exact hmode
  obtain ⟨frame, hframe, hsignal, hholds⟩ :=
    (holds_sampleInput (h.holds.handleButton pressed) reading hreading).sendSpeedFrame hmode'
  obtain ⟨hreadings, haccepted⟩ := concat_read tr reading
  constructor
  · rw [step, hreadings]
    exact hholds
  · rw [step, hreadings, haccepted, signals_concat]
    simp only [task10ms, hframe, List.map_append, List.map_singleton, hsignal]
    rw [← List.append_assoc]
    exact h.sent.append_right _
  · rw [hreadings, signals_concat]
    intro g hg
    rcases List.mem_append.mp hg with hold | hnew
    · exact h.range g hold
    · rw [List.mem_singleton.mp hnew]
      exact hholds.speedX10_le
  · exact h.control

variable {frame : CanFrame} {bus : List CanFrame} (hbus : n.bus = frame :: bus) {control : Control.State}
include hbus

theorem Agrees.sent_cons : (accepted tr ++ frameSignal frame.data ::
    bus.map fun frame => frameSignal frame.data).Sublist (signals prime (readings tr)) := by
  have hsent := h.sent
  rwa [hbus, List.map_cons] at hsent

theorem Agrees.accepted (hview : viewSignal control.view = frameSignal frame.data)
    (hcopy : control.copy = n.control.copy) (hfaults : control.faults = n.control.faults) :
    Agrees prime { n with bus := bus, control := control }
      (tr ++ [.accepted (viewSignal control.view)]) := by
  have hsent := h.sent_cons hbus
  have hframe : (frameSignal frame.data).speedX10 ≤ sensorSpeedMaxX10 :=
    h.range _ (hsent.subset (by simp))
  obtain ⟨hreadings, haccepted⟩ := concat_accepted tr (frameSignal frame.data)
  rw [hview]
  constructor
  · rw [hreadings]
    exact h.holds
  · rw [hreadings, haccepted, List.append_assoc]
    exact hsent
  · rw [hreadings]
    exact h.range
  · constructor
    · exact (congrArg Signal.speedX10 hview).trans_le hframe
    · rw [hcopy]
      exact h.control.copy
    · rw [hfaults]
      exact h.control.fault

/-- A frame that is not accepted is as good as lost. -/
theorem Agrees.refused (hspeed : control.view.speedX10 = n.control.view.speedX10)
    (hcopy : control.copy = n.control.copy) (hfaults : control.faults = n.control.faults) :
    Agrees prime { n with bus := bus, control := control } tr := by
  refine ⟨h.holds, ?_, h.range, ?_⟩
  · exact ((List.sublist_cons_self _ _).append_left _).trans (h.sent_cons hbus)
  · constructor
    · rw [hspeed]
      exact h.control.view
    · rw [hcopy]
      exact h.control.copy
    · rw [hfaults]
      exact h.control.fault

end Step

theorem agrees_step {prime : Nat} (n : Link) (tr : List Event) (op : Op) (h : Agrees prime n tr)
    (hnormal : Normal n op) : Agrees prime (step n op).1 (tr ++ (step n op).2) := by
  cases op with
  | cycle pressed reading => exact h.cycle hnormal
  | lose i =>
      rw [step, List.append_nil]
      refine ⟨h.holds, ?_, h.range, h.control⟩
      exact ((List.eraseIdx_sublist _ _).map _ |>.append_left _).trans h.sent
  | deliver time =>
      cases hbus : n.bus with
      | nil =>
          rw [step, hbus, List.append_nil]
          exact h
      | cons frame bus =>
          obtain ⟨hsignal, hspeed⟩ := viewSignal_update n.control.view frame
            (E2e.check n.control.e2eSpeed frame.data frame.dlc).1 time
          rw [step, hbus]
          simp only [Control.handleSpeedFrame, checks, Control.Output.check, List.filterMap_cons,
            List.filterMap_nil]
          generalize (E2e.check n.control.e2eSpeed frame.data frame.dlc).1 = status at *
          cases hvalid : E2e.isValid status with
          | true =>
              have hcheck : Check.valid ⟨frame, status, time⟩ = true := hvalid
              rw [List.filter_cons_of_pos hcheck, List.filter_nil, List.map_singleton]
              exact h.accepted hbus (hsignal hvalid) rfl rfl
          | false =>
              have hcheck : ¬ Check.valid ⟨frame, status, time⟩ = true := by
                simp [Check.valid, hvalid]
              rw [List.filter_cons_of_neg hcheck, List.filter_nil, List.map_nil, List.append_nil]
              exact h.refused hbus (hspeed hvalid) rfl rfl
  | control op hquiet =>
      rw [step, List.append_nil]
      exact ⟨h.holds, h.sent, h.range, h.control.step hquiet⟩

/-- **The speed signal.** In every run in fault mode NONE, whatever is read and whatever is lost, the
signals that are accepted are signals that were sent, each at most once and in their order; none is
above 250 km/h, and the range fault is never set. The running sum of the filter is that of the last
eight samples. -/
theorem speed_signal_agrees (first : Option UInt16) (start : Nat) (ops : List Op)
    (hfirst : ∀ raw ∈ first, raw.toNat ≤ adcDrvMaxValue)
    (hops : Along step Normal (boot first start) ops) :
    let (n, tr) := run step (boot first start) ops
    let prime := (first.getD 0).toNat
    (accepted tr).Sublist (signals prime (readings tr)) ∧
      (∀ g ∈ signals prime (readings tr), g.speedX10 ≤ sensorSpeedMaxX10) ∧
      n.control.faults.speedRange = false ∧
      (oldestFirst n.sensor.filter.buf n.sensor.filter.idx).map UInt16.toNat =
        window prime (readings tr) ∧
      n.sensor.filter.sum.toNat = (window prime (readings tr)).sum := by
  have h := run_invariant_of (Agrees (first.getD 0).toNat) Normal agrees_step []
    (agrees_boot first start hfirst) ops hops
  rw [List.nil_append] at h
  exact ⟨(List.sublist_append_left _ _).trans h.sent, h.range, h.control.fault, h.holds.buf,
    h.holds.sum⟩

/-- Three cycles, the second of which cannot read the ADC. The second frame is lost. -/
def threeCycles : List Op :=
  [.cycle false (some 4095), .cycle true none, .cycle true (some 800), .lose 1, .deliver 25,
    .deliver 30, .control .takeView (by simp), .control (.monitorCycle 31) (by simp)]

theorem speed_signal_agrees_threeCycles :
    let (n, tr) := run step (boot (some 400) 0) threeCycles
    (accepted tr).Sublist (signals 400 (readings tr)) ∧
      (∀ g ∈ signals 400 (readings tr), g.speedX10 ≤ sensorSpeedMaxX10) ∧
      n.control.faults.speedRange = false ∧
      (oldestFirst n.sensor.filter.buf n.sensor.filter.idx).map UInt16.toNat =
        window 400 (readings tr) ∧
      n.sensor.filter.sum.toNat = (window 400 (readings tr)).sum :=
  speed_signal_agrees (some 400) 0 threeCycles (by decide) (by decide +kernel)

-- both frames are accepted, the second one in spite of the gap
example : accepted (run step (boot (some 400) 0) threeCycles).2 =
    [⟨861, 526, false⟩, ⟨911, 556, false⟩] := by decide +kernel

end MiniEcu.Sensor
