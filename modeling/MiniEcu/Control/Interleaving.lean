import MiniEcu.Control.Moves
import MiniEcu.Control.Output
import MiniEcu.Lib.Simulation

/-!
# The tasks refine the control model

Wherever Monitor is interrupted, and whatever the diagnostics do meanwhile, it sets the duties that
it would set if each of its cycles were the three steps of the control model. Which steps these are
can be read off what the tasks do. Only a reset crosses from the diagnostics to the output.
-/

namespace MiniEcu.Control.Tasks

open Diag (CanFrame Record)
open IsoTp (Event)
open Trace

/-! ### What the tasks stand for -/

/-- The steps of the control model, given the time that Monitor has read last. -/
def read (time : Nat) : Output → Nat × List (Control.Op ⊕ Nat)
  | .control (.checked frame _ now) => (time, [.inl (.speedFrame frame now)])
  | .control (.setPwm _) => (time, [.inl (.monitorCycle time)])
  | .diag (.app (.ecuReset .soft)) => (time, [.inl .softReset])
  | .viewed => (time, [.inl .takeView])
  | .clock now => (now, [])
  | .button pressed => (time, [.inl (.handleButton pressed)])
  | .restarted now => (0, [.inr now])
  | _ => (time, [])

/-- The verdicts on the frames and the duties, without the status frames. -/
def driven : Control.Output → Option Control.Output
  | .canSend _ _ => none
  | o => some o

def Output.driven : Output → Option Control.Output
  | .control o => Tasks.driven o
  | _ => none

/-- The control model, with its restarts. -/
def model : Control.State → Control.Op ⊕ Nat → Control.State × List Control.Output :=
  restartable Control.boot Control.step

/-- A state of the tasks and one of the model that belong together. In a cycle the model holds the
copy of the view until the duty is set. -/
structure Agrees (n : State) (time : Nat) (s : Control.State) : Prop where
  cycling : Cycling n
  view : s.view = n.control.view
  e2eSpeed : s.e2eSpeed = n.control.e2eSpeed
  localInject : s.localInject = n.control.localInject
  startTick : s.startTick = n.control.startTick
  button : s.button = n.control.button
  now : n.monitor.now = time % 2 ^ 32
  copy : .takeView ∉ n.monitor.left → .setPwm ∈ n.monitor.left → s.copy = some n.copy

theorem agrees_boot (time : Nat) : Agrees (boot time) 0 (Control.boot time) where
  cycling := cycling_boot time
  view := rfl
  e2eSpeed := rfl
  localInject := rfl
  startTick := rfl
  button := rfl
  now := rfl
  copy _ hin := absurd hin List.not_mem_nil

variable {n n' : State} {time : Nat} {s : Control.State}

theorem Agrees.aside (h : Agrees n time s) (haside : Aside n n') (hcycling : Cycling n')
    {s' : Control.State} (hview : s'.view = n'.control.view)
    (he2e : s'.e2eSpeed = n'.control.e2eSpeed)
    (hs : s'.localInject = s.localInject ∧ s'.startTick = s.startTick ∧ s'.button = s.button ∧
      s'.copy = s.copy) : Agrees n' time s' where
  cycling := hcycling
  view := hview
  e2eSpeed := he2e
  localInject := by rw [hs.1, h.localInject, haside.localInject]
  startTick := by rw [hs.2.1, h.startTick, haside.startTick]
  button := by rw [hs.2.2.1, h.button, haside.button]
  now := by rw [haside.monitor, h.now]
  copy htaken hin := by
    rw [haside.monitor] at htaken hin
    rw [hs.2.2.2, h.copy htaken hin, State.copy, State.copy, haside.copy]

/-! ### Calls of the diagnostics -/

theorem read_diag (time : Nat) (es : List (Event Record)) :
    ∃ k, run read time (es.map .diag) = (time, List.replicate k (.inl .softReset)) ∧
      (k = 0 ↔ .app (.ecuReset .soft) ∉ es) := by
  induction es with
  | nil => exact ⟨0, rfl, by simp⟩
  | cons e es ih =>
      obtain ⟨k, hrun, hk⟩ := ih
      by_cases hsoft : e = .app (.ecuReset .soft)
      · subst hsoft
        refine ⟨k + 1, ?_, by simp⟩
        rw [List.map_cons, run_cons, read, hrun]
        rfl
      · have hread : read time (.diag e) = (time, []) := by
          rw [read] <;> simp [hsoft]
        refine ⟨k, ?_, by simp [Ne.symm hsoft, hk]⟩
        rw [List.map_cons, run_cons, hread, hrun]
        rfl

theorem run_softResets (k : Nat) (s : Control.State) :
    ∃ dtc, run model s (List.replicate k (.inl .softReset)) =
      ({ s with e2eSpeed := if k = 0 then s.e2eSpeed else E2e.initRx, dtc := dtc }, []) := by
  induction k generalizing s with
  | zero => exact ⟨s.dtc, rfl⟩
  | succ k ih =>
      obtain ⟨dtc, hrun⟩ := ih (softReset s)
      refine ⟨dtc, ?_⟩
      rw [List.replicate_succ, run_cons]
      show ((run model (softReset s) _).1, [] ++ (run model (softReset s) _).2) = _
      rw [hrun]
      simp [softReset]

theorem Agrees.returned (h : Agrees n time s) {input : Diag.Input} {es : List (Event Record)}
    (hreturned : Returned input n es n') :
    (run read time (es.map .diag)).1 = time ∧
      Agrees n' time (run model s (run read time (es.map .diag)).2).1 ∧
      (run model s (run read time (es.map .diag)).2).2 = [] := by
  obtain ⟨k, hread, hk⟩ := read_diag time es
  obtain ⟨dtc, hrun⟩ := run_softResets k s
  rw [hread]
  rw [hrun]
  refine ⟨rfl, ?_, rfl⟩
  refine h.aside hreturned.aside (h.cycling.aside hreturned.aside hreturned.running) ?_ ?_
    ⟨rfl, rfl, rfl, rfl⟩
  · rw [hreturned.control]
    exact h.view
  · rw [hreturned.control]
    simp only [hk, h.e2eSpeed]
    by_cases hsoft : .app (.ecuReset .soft) ∈ es <;> simp [hsoft]

/-! ### The simulation -/

theorem driven_diag (es : List (Event Record)) : (es.map Output.diag).filterMap Output.driven = [] := by
  rw [List.filterMap_map, List.filterMap_eq_nil_iff]
  exact fun _ _ => rfl

theorem handleButton_congr {s t : Control.State} (hbutton : s.button = t.button)
    (hinject : s.localInject = t.localInject) (pressed : Bool) :
    (handleButton pressed s).button = (handleButton pressed t).button ∧
      (handleButton pressed s).localInject = (handleButton pressed t).localInject := by
  simp only [handleButton, hbutton, hinject]
  split
  · split
    · exact ⟨rfl, rfl⟩
    split
    · exact ⟨rfl, rfl⟩
    · exact ⟨hbutton, hinject⟩
  · exact ⟨rfl, rfl⟩

theorem monitorCycle_spec (view : SensorView) (time : Nat) (s : Control.State) :
    let s' := (monitorCycle view time s).1
    (s'.view = s.view ∧ s'.e2eSpeed = s.e2eSpeed ∧ s'.localInject = s.localInject ∧
        s'.startTick = s.startTick ∧ s'.button = s.button) ∧
      (monitorCycle view time s).2.filterMap driven =
        [.setPwm (dutyOf (viewFaults view s.startTick (time % 2 ^ 32) s.localInject) view)] := by
  simp only [monitorCycle]
  split <;> exact ⟨⟨rfl, rfl, rfl, rfl, rfl⟩, rfl⟩

theorem Agrees.pass (h : Agrees n time s) {stmt : Stmt} {left : List Stmt}
    (hleft : n.monitor.left = stmt :: left) (htake : stmt ≠ .takeView)
    (hset : ∀ fault, stmt ≠ .setFault fault) :
    Agrees { n with monitor := { n.monitor with left := left } } time s where
  cycling := h.cycling.pass hleft htake hset
  view := h.view
  e2eSpeed := h.e2eSpeed
  localInject := h.localInject
  startTick := h.startTick
  button := h.button
  now := h.now
  copy htaken hin := by
    refine h.copy ?_ ?_
    · rw [hleft]
      exact List.not_mem_cons_of_ne_of_not_mem (Ne.symm htake) htaken
    · rw [hleft]
      exact List.mem_cons_of_mem stmt hin

/-- The three steps of the model are taken where the copy, the button and the duty are. -/
theorem Agrees.exec (h : Agrees n time s) (now : Nat) (pressed : Bool) {stmt : Stmt}
    {left : List Stmt} (hleft : n.monitor.left = stmt :: left) :
    let next := exec now pressed { n with monitor := { n.monitor with left := left } } stmt
    Agrees next.1 (run read time next.2).1 (run model s (run read time next.2).2).1 ∧
      next.2.filterMap Output.driven =
        (run model s (run read time next.2).2).2.filterMap driven := by
  have hcycling := h.cycling.exec now pressed hleft
  have hordered := ordered_of_suffix (hleft ▸ h.cycling.suffix)
  have hcopy : stmt ≠ .takeView → .setPwm ∈ left → s.copy = some n.copy := by
    intro hne hin
    refine h.copy ?_ ?_
    · rw [hleft]
      exact List.not_mem_cons_of_ne_of_not_mem (Ne.symm hne) hordered.takeView
    · rw [hleft]
      exact List.mem_cons_of_mem stmt hin
  cases stmt with
  | takeView =>
      refine ⟨⟨hcycling, h.view, h.e2eSpeed, h.localInject, h.startTick, h.button, h.now, ?_⟩, rfl⟩
      exact fun _ _ => congrArg some h.view
  | readClock =>
      exact ⟨⟨hcycling, h.view, h.e2eSpeed, h.localInject, h.startTick, h.button, rfl,
        fun _ hin => hcopy (by simp) hin⟩, rfl⟩
  | setFault fault =>
      exact ⟨⟨hcycling, h.view, h.e2eSpeed, h.localInject, h.startTick, h.button, h.now,
        fun _ hin => hcopy (by simp) hin⟩, rfl⟩
  | handleButton =>
      obtain ⟨hview, hsame⟩ := view_handleButton pressed s
      obtain ⟨hcopy', hstart, -, hview', he2e, -⟩ := aside_handleButton pressed n.control
      obtain ⟨-, hstart', -, -, he2e', -⟩ := aside_handleButton pressed s
      obtain ⟨hbutton, hinject⟩ := handleButton_congr h.button h.localInject pressed
      refine ⟨⟨hcycling, hview.trans (h.view.trans hview'.symm),
        he2e'.trans (h.e2eSpeed.trans he2e.symm), hinject,
        hstart'.trans (h.startTick.trans hstart.symm), hbutton, h.now, ?_⟩, rfl⟩
      intro _ hin
      show (handleButton pressed s).copy = some ((handleButton pressed n.control).copy.getD {})
      rw [hsame, hcopy']
      exact hcopy (by simp) hin
  | reportFault fault =>
      have hpass := h.pass hleft (by simp) (by simp)
      obtain ⟨houts, hreturned⟩ := callDiag_reportFault hpass.cycling.running fault.index
        (n.control.faults.get fault) (still now)
      obtain ⟨-, hagrees, -⟩ := hpass.returned hreturned
      rw [Tasks.exec]
      simp only [houts]
      exact ⟨hagrees, rfl⟩
  | setPwm =>
      have hfaults := h.cycling.faults_eq hleft
      have htaken : s.copy = some n.copy := by
        refine h.copy ?_ ?_
        · rw [hleft]
          exact List.not_mem_cons_of_ne_of_not_mem (by simp) hordered.takeView
        · rw [hleft]
          exact List.mem_cons_self
      obtain ⟨⟨hview, he2e, hinject, hstart, hbutton⟩, houts⟩ := monitorCycle_spec n.copy time s
      have hrun : run model s [.inl (.monitorCycle time)] = monitorCycle n.copy time s := by
        rw [run_cons]
        show ((Control.step s (.monitorCycle time)).1, (Control.step s (.monitorCycle time)).2 ++ []) = _
        rw [Control.step, htaken, List.append_nil]
      have hduty : dutyOf n.control.faults n.copy =
          dutyOf (viewFaults n.copy s.startTick (time % 2 ^ 32) s.localInject) n.copy := by
        rw [hfaults, State.verdicts, h.startTick, h.localInject, h.now]
      show Agrees _ time (run model s [.inl (.monitorCycle time)]).1 ∧
        [.setPwm (dutyOf n.control.faults n.copy)] =
          (run model s [.inl (.monitorCycle time)]).2.filterMap driven
      rw [hrun, houts, hduty]
      refine ⟨⟨hcycling, hview.trans h.view, he2e.trans h.e2eSpeed, hinject.trans h.localInject,
        hstart.trans h.startTick, hbutton.trans h.button, h.now, ?_⟩, rfl⟩
      exact fun _ hin => absurd hin hordered.once
  | sendStatus =>
      have hpass := h.pass hleft (by simp) (by simp)
      rw [Tasks.exec]
      split
      · exact ⟨⟨⟨hpass.cycling.running, hpass.cycling.suffix, hpass.cycling.found⟩, hpass.view,
          hpass.e2eSpeed, hpass.localInject, hpass.startTick, hpass.button, hpass.now, hpass.copy⟩, rfl⟩
      · exact ⟨hpass, rfl⟩

/-- Every move of the tasks is matched by the model. -/
theorem agrees_move (h : Agrees n time s) {outs : List Output} (hmove : Move n outs n') :
    Agrees n' (run read time outs).1 (run model s (run read time outs).2).1 ∧
      outs.filterMap Output.driven = (run model s (run read time outs).2).2.filterMap driven := by
  cases hmove with
  | received frame =>
      obtain ⟨hdiag, hcontrol⟩ := running_onCanRx frame n
      have haside := aside_onCanRx frame n
      have hquiet : run read time (onCanRx frame n).2 = (time, []) ∧
          (onCanRx frame n).2.filterMap Output.driven = [] := by
        rw [onCanRx]
        split <;> exact ⟨rfl, rfl⟩
      rw [hquiet.1, hquiet.2]
      refine ⟨h.aside haside (h.cycling.aside haside ?_) ?_ ?_ ⟨rfl, rfl, rfl, rfl⟩, rfl⟩
      · rw [hdiag]
        exact h.cycling.running
      · rw [hcontrol]
        exact h.view
      · rw [hcontrol]
        exact h.e2eSpeed
  | taken hget =>
      exact ⟨⟨⟨h.cycling.running, h.cycling.suffix, h.cycling.found⟩, h.view, h.e2eSpeed,
        h.localInject, h.startTick, h.button, h.now, h.copy⟩, rfl⟩
  | speedFrame frame now hid =>
      have hcheck : (handleSpeedFrame frame now s).2 = (handleSpeedFrame frame now n.control).2 ∧
          (handleSpeedFrame frame now s).1.view = (handleSpeedFrame frame now n.control).1.view ∧
          (handleSpeedFrame frame now s).1.e2eSpeed =
            (handleSpeedFrame frame now n.control).1.e2eSpeed := by
        simp only [handleSpeedFrame, h.view, h.e2eSpeed, and_self]
      exact ⟨⟨⟨h.cycling.running, h.cycling.suffix, h.cycling.found⟩, hcheck.2.1, hcheck.2.2,
        h.localInject, h.startTick, h.button, h.now, h.copy⟩, congrArg (List.filterMap driven) hcheck.1.symm⟩
  | aliveFrame frame hid =>
      exact ⟨⟨⟨h.cycling.running, h.cycling.suffix, h.cycling.found⟩, h.view, h.e2eSpeed,
        h.localInject, h.startTick, h.button, h.now, h.copy⟩, rfl⟩
  | countRequest =>
      exact ⟨⟨⟨h.cycling.running, h.cycling.suffix, h.cycling.found⟩, h.view, h.e2eSpeed,
        h.localInject, h.startTick, h.button, h.now, h.copy⟩, rfl⟩
  | returned _ hreturned =>
      obtain ⟨htime, hagrees, hnone⟩ := h.returned hreturned
      rw [driven_diag, hnone, htime]
      exact ⟨hagrees, rfl⟩
  | @restarted es now h' =>
      rw [run_append, run_append, List.filterMap_append, List.filterMap_append, driven_diag]
      obtain ⟨k, hread, -⟩ := read_diag time es
      obtain ⟨dtc, hrun⟩ := run_softResets k s
      rw [hread, hrun]
      exact ⟨agrees_boot now, rfl⟩
  | wait hleft =>
      refine ⟨⟨⟨h.cycling.running, List.suffix_rfl, ?_⟩, h.view, h.e2eSpeed, h.localInject,
        h.startTick, h.button, h.now, ?_⟩, rfl⟩
      · exact fun hcycle => absurd List.mem_cons_self hcycle.1
      · exact fun htake => absurd List.mem_cons_self htake
  | exec now pressed hleft => exact h.exec now pressed hleft

/-- Every move of the tasks is the model's. -/
theorem reads_model : Reads Move read model Agrees Output.driven driven :=
  fun _ _ _ _ _ h hmove => agrees_move h hmove

/-- **The tasks refine the control model.** In every run of the interrupt, the queue, both tasks and
the diagnostics, whatever is interrupted where, the verdicts on the frames and the duties that are set
are those of a run of the control model, whose steps can be read off what the tasks do. -/
theorem refines_model (start : Nat) (ops : List Op) :
    (run step (boot start) ops).2.filterMap Output.driven =
      (run model (Control.boot start)
        (run read 0 (run step (boot start) ops).2).2).2.filterMap driven :=
  (reads_model.run moves_step (agrees_boot start) ops).2

end MiniEcu.Control.Tasks
