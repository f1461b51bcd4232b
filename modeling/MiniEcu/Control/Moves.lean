import MiniEcu.Control.Tasks
import MiniEcu.Diag.Calls
import Mathlib.Data.List.Infix

/-!
# What the tasks can do

A turn of ComRx is a sequence of a few moves: it takes a frame, handles it, and calls the diagnostics.
`Move` lists them beside those of the interrupt and of Monitor, and invariants are proved per move.
The first one is about Monitor alone: whoever interrupts it, the faults it has set in a cycle are those
of the view and the time that it has looked at.
-/

namespace MiniEcu.Control.Tasks

open Diag (CanFrame Record)
open IsoTp (Env Event records)
open Trace

/-! ### Calls of the diagnostics -/

/-- A call of the diagnostics that returns. It may have reset the receivers. -/
structure Returned (input : Diag.Input) (s : State) (es : List (Event Record)) (s' : State) :
    Prop where
  queue : s'.queue = s.queue
  counters : s'.counters = s.counters
  monitor : s'.monitor = s.monitor
  control : s'.control =
    { s.control with
      e2eSpeed := if .app (.ecuReset .soft) ∈ es then E2e.initRx else s.control.e2eSpeed
      dtc := s'.diag.ecu.dtc }
  running : s'.diag.ecu.restart = false
  dtc : s'.diag.ecu.dtc =
    s.diag.ecu.dtc.replay (input.dtcOps ++ (records es).flatMap Record.dtcOps)
  reacts : input.dtcOps = [] → ∃ a, Steps (Diag.Reacts s.signals) s.diag.ecu (records es) a ∧
    s'.diag.ecu.dtc = a.dtc ∧ s'.diag.ecu.respBuf = a.respBuf

/-- A call into the diagnostics returns, or everything starts anew. -/
inductive Called (input : Diag.Input) (s : State) : Call → Prop
  | returned {es : List (Event Record)} {s' : State} (h : Returned input s es s') :
      Called input s { state := s', outputs := es.map .diag, returns := true }
  | restarted {es : List (Event Record)} (time : Nat)
      (h : input.dtcOps = [] → ∃ a, Steps (Diag.Reacts s.signals) s.diag.ecu (records es) a) :
      Called input s
        { state := boot time, outputs := es.map .diag ++ [.restarted time], returns := false }

theorem called_callDiag (input : Diag.Input) (env : Env) (s : State) :
    Called input s (callDiag input env s) := by
  have hdtc := Diag.dtc_perform s.diag { env := env, signals := s.signals, input := input }
  have hreacts := Diag.reacts_perform s.diag
    (i := { env := env, signals := s.signals, input := input })
  rw [callDiag]
  generalize Diag.perform s.diag { env := env, signals := s.signals, input := input } = w
    at hdtc hreacts ⊢
  rw [conclude]
  split
  · refine .restarted _ fun hinput => ?_
    obtain ⟨a, hsteps, -⟩ := hreacts hinput
    exact ⟨a, hsteps⟩
  · rename_i hrunning
    refine .returned ?_
    have hrunning : w.app.restart = false := Bool.not_eq_true _ ▸ hrunning
    by_cases hsoft : .app (.ecuReset .soft) ∈ w.events
    · rw [if_pos hsoft]
      exact ⟨rfl, rfl, rfl, by rw [if_pos hsoft]; rfl, hrunning, hdtc, hreacts⟩
    · rw [if_neg hsoft]
      exact ⟨rfl, rfl, rfl, by rw [if_neg hsoft]; rfl, hrunning, hdtc, hreacts⟩

theorem callDiag_reportFault {s : State} (hrunning : s.diag.ecu.restart = false) (index : UInt8)
    (failed : Bool) (env : Env) :
    (callDiag (.reportFault index failed) env s).outputs = [] ∧
      Returned (.reportFault index failed) s [] (callDiag (.reportFault index failed) env s).state := by
  have hreturns : (callDiag (.reportFault index failed) env s).returns = true ∧
      (callDiag (.reportFault index failed) env s).outputs = [] := by
    have hrestart : ¬ (Diag.perform s.diag { env := env, signals := s.signals
                                             input := .reportFault index failed }).app.restart := by
      rw [show (Diag.perform s.diag _).app.restart = s.diag.ecu.restart from rfl, hrunning]
      decide
    rw [callDiag, conclude, if_neg hrestart]
    exact ⟨rfl, rfl⟩
  have hcalled := called_callDiag (.reportFault index failed) env s
  generalize callDiag (.reportFault index failed) env s = call at *
  cases hcalled with
  | @returned es s' h =>
      obtain rfl : es = [] := List.map_eq_nil_iff.mp hreturns.2
      exact ⟨rfl, h⟩
  | restarted => cases hreturns.1

theorem respBuf_reportFault {s : State} (hrunning : s.diag.ecu.restart = false) (index : UInt8)
    (failed : Bool) (env : Env) :
    (callDiag (.reportFault index failed) env s).state.diag.ecu.respBuf = s.diag.ecu.respBuf := by
  have hrestart : ¬ (Diag.perform s.diag { env := env, signals := s.signals
                                           input := .reportFault index failed }).app.restart := by
    rw [show (Diag.perform s.diag _).app.restart = s.diag.ecu.restart from rfl, hrunning]
    decide
  rw [callDiag, conclude, if_neg hrestart]
  simp only []
  split <;> rfl

/-! ### Moves -/

/-- The pieces of which every step is made. -/
inductive Move (s : State) : List Output → State → Prop
  | received (frame : CanFrame) : Move s (onCanRx frame s).2 (onCanRx frame s).1
  | taken {frame : CanFrame} {queue : Mailbox CanFrame rxQueueLen}
      (h : s.queue.get = some (frame, queue)) : Move s [.taken frame] { s with queue := queue }
  | speedFrame (frame : CanFrame) (time : Nat) (hid : frame.id = Sensor.canIdSensorSpeed) :
      Move s (onSpeedFrame frame time s).2 (onSpeedFrame frame time s).1
  | aliveFrame (frame : CanFrame) (hid : frame.id = canIdSensorAlive) : Move s [] (onAliveFrame frame s)
  | countRequest : Move s [] (countRequest s)
  | returned {input : Diag.Input} {es : List (Event Record)} {s' : State}
      (hinput : input.dtcOps = []) (h : Returned input s es s') : Move s (es.map .diag) s'
  | restarted {es : List (Event Record)} (time : Nat)
      (h : ∃ a, Steps (Diag.Reacts s.signals) s.diag.ecu (records es) a) :
      Move s (es.map .diag ++ [.restarted time]) (boot time)
  | wait (h : s.monitor.left = []) :
      Move s [] { s with monitor := { s.monitor with left := cycle } }
  | exec (time : Nat) (pressed : Bool) {stmt : Stmt} {left : List Stmt}
      (h : s.monitor.left = stmt :: left) :
      Move s (exec time pressed { s with monitor := { s.monitor with left := left } } stmt).2
        (exec time pressed { s with monitor := { s.monitor with left := left } } stmt).1

theorem move_callDiag {input : Diag.Input} (hinput : input.dtcOps = []) (env : Env) (s : State) :
    Move s (callDiag input env s).outputs (callDiag input env s).state := by
  have hcalled := called_callDiag input env s
  generalize callDiag input env s = call at hcalled ⊢
  cases hcalled with
  | returned h => exact .returned hinput h
  | restarted time h => exact .restarted time (h hinput)

/-- The `switch` makes at most two moves. -/
theorem moves_dispatch (t : Turn) (frame : CanFrame) (s : State) :
    Steps Move s (dispatch t frame s).outputs (dispatch t frame s).state := by
  rw [dispatch]
  split
  · rename_i hid
    exact .single (.speedFrame frame t.time hid)
  split
  · rename_i hid
    exact .single (.aliveFrame frame hid)
  split
  · have hmove := Steps.single (@move_callDiag (.onFrame frame) rfl t.onFrame s)
    simp only []
    split
    · have hcounted := hmove.tail (.countRequest)
      rwa [List.append_nil] at hcounted
    · exact hmove
  · exact .refl s

/-- Every step is made of such moves. -/
theorem moves_step (s : State) (op : Op) : Steps Move s (step s op).2 (step s op).1 := by
  cases op with
  | canRx frame => exact .single (.received frame)
  | comRx turn =>
      show Steps Move s (comRx turn s).2 (comRx turn s).1
      rw [comRx]
      split
      · exact .single (move_callDiag rfl turn.mainFunction s)
      · rename_i frame queue hget
        have hdispatched := (Steps.single (Move.taken hget)).trans
          (moves_dispatch turn frame { s with queue := queue })
        simp only []
        split
        · have hmain := hdispatched.tail (@move_callDiag .mainFunction rfl
            turn.mainFunction _)
          exact hmain
        · exact hdispatched
  | monitor time pressed =>
      show Steps Move s (monitor time pressed s).2 (monitor time pressed s).1
      rw [monitor]
      split
      · rename_i hleft
        exact .single (.wait hleft)
      · rename_i stmt left hleft
        exact .single (.exec time pressed hleft)

/-- Monitor's own part of the state. -/
structure Aside (s s' : State) : Prop where
  monitor : s'.monitor = s.monitor
  copy : s'.control.copy = s.control.copy
  startTick : s'.control.startTick = s.control.startTick
  localInject : s'.control.localInject = s.control.localInject
  faults : s'.control.faults = s.control.faults
  button : s'.control.button = s.control.button
  tick : s'.control.tick = s.control.tick
  statusCounter : s'.control.statusCounter = s.control.statusCounter

theorem Returned.aside {input : Diag.Input} {s : State} {es : List (Event Record)} {s' : State}
    (h : Returned input s es s') : Aside s s' := by
  constructor
  · exact h.monitor
  all_goals rw [h.control]

theorem aside_onCanRx (frame : CanFrame) (s : State) : Aside s (onCanRx frame s).1 := by
  rw [onCanRx]
  split <;> exact ⟨rfl, rfl, rfl, rfl, rfl, rfl, rfl, rfl⟩

theorem running_onCanRx (frame : CanFrame) (s : State) :
    (onCanRx frame s).1.diag = s.diag ∧ (onCanRx frame s).1.control = s.control := by
  rw [onCanRx]
  split <;> exact ⟨rfl, rfl⟩

/-- What every move keeps holds after every run. -/
theorem moves_invariant (I : State → List Output → Prop)
    (hmove : ∀ s tr outs s', I s tr → Move s outs s' → I s' (tr ++ outs)) {s : State}
    (tr : List Output) (h : I s tr) (ops : List Op) :
    I (run step s ops).1 (tr ++ (run step s ops).2) :=
  run_invariant I (fun s tr op hI => (moves_step s op).invariant I hmove tr hI) tr h ops

/-! ### Monitor's cycle -/

/-- What Monitor finds in the view and at the time that it has looked at. -/
def State.verdicts (s : State) : Faults :=
  viewFaults s.copy s.control.startTick s.monitor.now s.control.localInject

/-- Monitor is in its cycle and has taken its copy of the view. -/
def State.InCycle (s : State) : Prop :=
  .takeView ∉ s.monitor.left ∧ .sendStatus ∈ s.monitor.left

/-- What comes after a statement in the cycle. -/
structure Ordered (stmt : Stmt) (left : List Stmt) : Prop where
  takeView : .takeView ∉ left
  once : stmt ∉ left
  looks : stmt = .takeView ∨ stmt = .readClock → ∀ fault, .setFault fault ∈ left
  button : stmt = .handleButton → .setFault .outputLocal ∈ left
  reports : ∀ fault, stmt = .reportFault fault → ∀ fault', .setFault fault' ∉ left
  early : (stmt = .takeView ∨ stmt = .readClock ∨ stmt = .handleButton ∨
    ∃ fault, stmt = .setFault fault) → .setPwm ∈ left ∧ ∀ fault, .reportFault fault ∈ left
  output : stmt = .setPwm → ∀ fault, .setFault fault ∉ left ∧ .reportFault fault ∉ left
  last : stmt = .sendStatus ∧ left = [] ∨ stmt ≠ .sendStatus ∧ .sendStatus ∈ left

theorem ordered_of_suffix {stmt : Stmt} {left : List Stmt} (h : stmt :: left <:+ cycle) :
    Ordered stmt left := by
  have hall : ∀ l ∈ cycle.tails, ∀ stmt ∈ l.head?, Ordered stmt l.tail := by
    simp only [cycle, List.tails, List.mem_cons, List.not_mem_nil, or_false, forall_eq_or_imp,
      forall_eq, List.head?_cons, List.head?_nil, Option.mem_def, Option.some.injEq, forall_eq',
      List.tail_cons]
    refine ⟨?_, ?_, ?_, ?_, ?_, ?_, ?_, ?_, ?_, ?_, ?_, ?_, ?_, ?_, ?_, by simp⟩ <;>
      constructor <;> simp [Fault.forall_iff]
  exact hall _ ((List.mem_tails _ _).mpr h) stmt rfl

/-- Once it has taken its copy, it is in its cycle until its last statement. -/
theorem inCycle_of_ne {s : State} {stmt : Stmt} {left : List Stmt}
    (hleft : s.monitor.left = stmt :: left) (h : Ordered stmt left) (hne : stmt ≠ .takeView) :
    s.InCycle := by
  rw [State.InCycle, hleft]
  refine ⟨List.not_mem_cons_of_ne_of_not_mem (Ne.symm hne) h.takeView, ?_⟩
  obtain ⟨rfl, -⟩ | ⟨-, hlast⟩ := h.last
  · exact List.mem_cons_self
  · exact List.mem_cons_of_mem stmt hlast

/-- Whoever interrupts Monitor, the faults it has set in this cycle are the ones it has found. -/
structure Cycling (s : State) : Prop where
  running : s.diag.ecu.restart = false
  suffix : s.monitor.left <:+ cycle
  found : s.InCycle → ∀ fault, .setFault fault ∉ s.monitor.left →
    s.control.faults.get fault = s.verdicts.get fault

theorem cycling_boot (time : Nat) : Cycling (boot time) where
  running := rfl
  suffix := List.nil_suffix
  found hcycle := absurd hcycle.2 List.not_mem_nil

theorem verdicts_aside {s s' : State} (h : Aside s s') : s'.verdicts = s.verdicts := by
  rw [State.verdicts, State.copy, h.copy, h.startTick, h.monitor, h.localInject]
  rfl

theorem Cycling.aside {s s' : State} (hs : Cycling s) (h : Aside s s')
    (hrunning : s'.diag.ecu.restart = false) : Cycling s' where
  running := hrunning
  suffix := h.monitor ▸ hs.suffix
  found hcycle fault hset := by
    rw [State.InCycle, h.monitor] at hcycle
    rw [h.monitor] at hset
    rw [h.faults, verdicts_aside h]
    exact hs.found hcycle fault hset

theorem Cycling.pass {s : State} (hs : Cycling s) {stmt : Stmt} {left : List Stmt}
    (hleft : s.monitor.left = stmt :: left) (htake : stmt ≠ .takeView)
    (hset : ∀ fault, stmt ≠ .setFault fault) :
    Cycling { s with monitor := { s.monitor with left := left } } where
  running := hs.running
  suffix := (List.suffix_cons stmt left).trans (hleft ▸ hs.suffix)
  found hcycle fault hunset := by
    refine hs.found ⟨?_, ?_⟩ fault ?_
    · rw [hleft]
      exact List.not_mem_cons_of_ne_of_not_mem (Ne.symm htake) hcycle.1
    · rw [hleft]
      exact List.mem_cons_of_mem stmt hcycle.2
    · rw [hleft]
      exact List.not_mem_cons_of_ne_of_not_mem (Ne.symm (hset fault)) hunset

theorem viewFaults_get_of_ne (view : SensorView) (startTick now : Nat) (injected injected' : Bool)
    {fault : Fault} (hne : fault ≠ .outputLocal) :
    (viewFaults view startTick now injected).get fault =
      (viewFaults view startTick now injected').get fault := by
  cases fault <;> first | rfl | exact absurd rfl hne

theorem aside_handleButton (pressed : Bool) (s : Control.State) :
    (handleButton pressed s).copy = s.copy ∧ (handleButton pressed s).startTick = s.startTick ∧
      (handleButton pressed s).faults = s.faults ∧ (handleButton pressed s).view = s.view ∧
      (handleButton pressed s).e2eSpeed = s.e2eSpeed ∧ (handleButton pressed s).tick = s.tick ∧
      (handleButton pressed s).statusCounter = s.statusCounter := by
  unfold handleButton
  split
  · split
    · exact ⟨rfl, rfl, rfl, rfl, rfl, rfl, rfl⟩
    split <;> exact ⟨rfl, rfl, rfl, rfl, rfl, rfl, rfl⟩
  · exact ⟨rfl, rfl, rfl, rfl, rfl, rfl, rfl⟩

/-- A statement of Monitor keeps the faults of the cycle those it has found. -/
theorem Cycling.exec {s : State} (hs : Cycling s) (time : Nat) (pressed : Bool) {stmt : Stmt}
    {left : List Stmt} (hleft : s.monitor.left = stmt :: left) :
    Cycling (exec time pressed { s with monitor := { s.monitor with left := left } } stmt).1 := by
  have hsuffix : stmt :: left <:+ cycle := hleft ▸ hs.suffix
  have hrest : left <:+ cycle := (List.suffix_cons stmt left).trans hsuffix
  have hordered := ordered_of_suffix hsuffix
  -- what has been found before this statement
  have hfound : stmt ≠ .takeView → ∀ fault, .setFault fault ∉ stmt :: left →
      s.control.faults.get fault = s.verdicts.get fault := by
    intro hne fault hset
    rw [← hleft] at hset
    exact hs.found (inCycle_of_ne hleft hordered hne) fault hset
  cases stmt with
  | takeView =>
      exact ⟨hs.running, hrest, fun _ fault hset => absurd (hordered.looks (.inl rfl) fault) hset⟩
  | readClock =>
      exact ⟨hs.running, hrest, fun _ fault hset => absurd (hordered.looks (.inr rfl) fault) hset⟩
  | setFault fault =>
      refine ⟨hs.running, hrest, fun _ fault' hset => ?_⟩
      show (s.control.faults.set fault (s.verdicts.get fault)).get fault' = s.verdicts.get fault'
      by_cases hne : fault' = fault
      · rw [hne, Faults.get_set_self]
      · rw [Faults.get_set_of_ne _ hne]
        apply hfound (by simp) fault'
        simp only [List.mem_cons, Stmt.setFault.injEq, hne, false_or]
        exact hset
  | handleButton =>
      refine ⟨hs.running, hrest, fun _ fault hset => ?_⟩
      have hne : fault ≠ .outputLocal := by
        rintro rfl
        exact hset (hordered.button rfl)
      obtain ⟨hcopy, hstart, hfaults, -⟩ := aside_handleButton pressed s.control
      show (handleButton pressed s.control).faults.get fault =
        (viewFaults ((handleButton pressed s.control).copy.getD {})
          (handleButton pressed s.control).startTick s.monitor.now
          (handleButton pressed s.control).localInject).get fault
      rw [hcopy, hstart, hfaults, hfound (by simp) fault
          (List.not_mem_cons_of_ne_of_not_mem (by simp) hset)]
      exact viewFaults_get_of_ne _ _ _ _ _ hne
  | reportFault fault =>
      have hreturned := (callDiag_reportFault
        (s := { s with monitor := { s.monitor with left := left } }) hs.running fault.index
        (s.control.faults.get fault) (still time)).2
      exact (hs.pass hleft (by simp) (by simp)).aside hreturned.aside hreturned.running
  | setPwm =>
      have hpass := hs.pass hleft (by simp) (by simp)
      exact ⟨hpass.running, hpass.suffix, hpass.found⟩
  | sendStatus =>
      obtain rfl : left = [] := (hordered.last.resolve_right (by simp)).2
      rw [Tasks.exec]
      split
      · exact ⟨hs.running, hrest, fun hcycle => absurd hcycle.2 List.not_mem_nil⟩
      · exact ⟨hs.running, hrest, fun hcycle => absurd hcycle.2 List.not_mem_nil⟩

theorem Cycling.move {s s' : State} {outs : List Output} (hs : Cycling s) (h : Move s outs s') :
    Cycling s' := by
  cases h with
  | received frame =>
      apply hs.aside (aside_onCanRx frame s)
      rw [(running_onCanRx frame s).1]
      exact hs.running
  | taken => exact ⟨hs.running, hs.suffix, hs.found⟩
  | speedFrame => exact ⟨hs.running, hs.suffix, hs.found⟩
  | aliveFrame => exact ⟨hs.running, hs.suffix, hs.found⟩
  | countRequest => exact ⟨hs.running, hs.suffix, hs.found⟩
  | returned _ hreturned => exact hs.aside hreturned.aside hreturned.running
  | restarted time => exact cycling_boot time
  | wait hleft =>
      refine ⟨hs.running, List.suffix_rfl, fun hcycle => ?_⟩
      exact absurd List.mem_cons_self hcycle.1
  | exec time pressed hleft => exact hs.exec time pressed hleft

/-- When the duty is set, every monitor has run in this cycle. -/
theorem Cycling.faults_eq {n : State} (h : Cycling n) {left : List Stmt}
    (hleft : n.monitor.left = .setPwm :: left) : n.control.faults = n.verdicts := by
  have hordered := ordered_of_suffix (hleft ▸ h.suffix)
  refine Faults.ext_get fun fault => h.found (inCycle_of_ne hleft hordered (by simp)) fault ?_
  rw [hleft]
  exact List.not_mem_cons_of_ne_of_not_mem (by simp) (hordered.output rfl fault).1

end MiniEcu.Control.Tasks
