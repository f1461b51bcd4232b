import MiniEcu.Control.Moves
import MiniEcu.Control.Output

/-!
# What becomes of the frames

The interrupt puts frames into a queue of bounded size and ComRx takes them out. Between two starts no
frame is lost unless the queue is full, none is taken twice or out of its turn, and the statistics say
how many there have been of each kind.
-/

namespace MiniEcu.Control.Tasks

open Diag (CanFrame Record)
open E2e (Status)
open IsoTp (Env Event)
open Trace

/-! ### The account -/

/-- What has come and gone since the last start. -/
structure Traffic where
  stored : List CanFrame := []
  refused : Nat := 0
  taken : List CanFrame := []
  checks : List Check := []

namespace Traffic

def follow (t : Traffic) : Output → Traffic
  | .received frame true => { t with stored := t.stored ++ [frame] }
  | .received _ false => { t with refused := t.refused + 1 }
  | .taken frame => { t with taken := t.taken ++ [frame] }
  | .control (.checked frame status time) =>
      { t with checks := t.checks ++ [{ frame := frame, status := status, time := time }] }
  | .restarted _ => {}
  | _ => t

def after (tr : List Output) : Traffic := tr.foldl follow {}

/-- A frame is refused if as many wait as there is room for. The one that is taken has waited
longest, and the one that is checked has been taken last. -/
def Expects (t : Traffic) : Output → Prop
  | .received _ true => t.stored.length < t.taken.length + rxQueueLen
  | .received _ false => t.stored.length = t.taken.length + rxQueueLen
  | .taken frame => t.stored[t.taken.length]? = some frame
  | .control (.checked frame _ _) => t.taken.getLast? = some frame
  | _ => True

end Traffic

/-- The statistics of some verdicts, each a count of 32 bits. -/
def tally (checks : List Check) : E2eStats :=
  let count (p : Status → Bool) := UInt32.ofNat (checks.countP fun c => p c.status)
  { ok := count fun status => status = .ok || status = .initial
    lost := count fun status => status = .okSomeLost
    crc := count fun status => status = .errCrc || status = .errLength
    repeated := count fun status => status = .errRepeated
    wrongSeq := count fun status => status = .errWrongSeq }

/-- The queue and the statistics agree with the account of the frames that have been handled. -/
structure Accounted (n : State) (t : Traffic) (handled : List CanFrame) : Prop where
  queue : t.stored = t.taken ++ n.queue.messages
  overflow : n.counters.rxQueueOverflow = UInt32.ofNat t.refused
  alive : n.counters.aliveFrames =
    UInt32.ofNat (handled.countP fun frame => frame.id = canIdSensorAlive)
  requests : n.counters.udsRequests =
    UInt32.ofNat (handled.countP fun frame => isDiagnostic frame.id)
  checked : t.checks.map Check.frame =
    handled.filter fun frame => frame.id = Sensor.canIdSensorSpeed
  e2e : n.counters.e2e = tally t.checks

theorem accounted_boot (time : Nat) : Accounted (boot time) {} [] where
  queue := rfl
  overflow := rfl
  alive := rfl
  requests := rfl
  checked := rfl
  e2e := rfl

theorem count_tally (checks : List Check) (c : Check) :
    (tally checks).count c.status = tally (checks ++ [c]) := by
  obtain ⟨frame, status, time⟩ := c
  cases status <;> simp [tally, E2eStats.count, List.countP_append, UInt32.ofNat_add]

variable {n n' : State} {t : Traffic} {handled : List CanFrame}

theorem Accounted.same (h : Accounted n t handled) (hqueue : n'.queue = n.queue)
    (hcounters : n'.counters = n.counters) : Accounted n' t handled where
  queue := by rw [hqueue, h.queue]
  overflow := by rw [hcounters, h.overflow]
  alive := by rw [hcounters, h.alive]
  requests := by rw [hcounters, h.requests]
  checked := h.checked
  e2e := by rw [hcounters, h.e2e]

/-! ### Calls of the diagnostics -/

theorem traffic_diag (t : Traffic) (es : List (Event Record)) :
    (es.map .diag).foldl Traffic.follow t = t ∧
      Monitored Traffic.follow Traffic.Expects t (es.map .diag) := by
  induction es with
  | nil => exact ⟨rfl, monitored_nil t⟩
  | cons e es ih =>
      exact ⟨ih.1, (monitored_cons t _ _).mpr ⟨trivial, ih.2⟩⟩

/-- What holds after some outputs: the account goes on, and nothing unexpected has happened. -/
def Continues (t : Traffic) (outs : List Output) (n : State) (handled : List CanFrame) : Prop :=
  Accounted n (outs.foldl Traffic.follow t) handled ∧
    Monitored Traffic.follow Traffic.Expects t outs

theorem Continues.trans {outs outs' : List Output} {handled' : List CanFrame}
    (h : Monitored Traffic.follow Traffic.Expects t outs)
    (h' : Continues (outs.foldl Traffic.follow t) outs' n handled') :
    Continues t (outs ++ outs') n handled' :=
  ⟨by rw [List.foldl_append]; exact h'.1, (monitored_append _ _ _).mpr ⟨h, h'.2⟩⟩

theorem Accounted.called (h : Accounted n t handled) {input : Diag.Input} {call : Call}
    (hcalled : Called input n call) :
    call.returns = true ∧ call.state.queue = n.queue ∧ (call.outputs.foldl Traffic.follow t = t) ∧
        Continues t call.outputs call.state handled ∨
      call.returns = false ∧ (call.outputs.foldl Traffic.follow t).taken = [] ∧
        Continues t call.outputs call.state [] := by
  cases hcalled with
  | @returned es s' hreturned =>
      obtain ⟨hsame, hmonitored⟩ := traffic_diag t es
      refine .inl ⟨rfl, hreturned.queue, hsame, ?_, hmonitored⟩
      rw [hsame]
      exact h.same hreturned.queue hreturned.counters
  | @restarted es time =>
      obtain ⟨hsame, hmonitored⟩ := traffic_diag t es
      have hrestarted :
          (es.map Output.diag ++ [Output.restarted time]).foldl Traffic.follow t = {} := by
        rw [List.foldl_append]
        rfl
      refine .inr ⟨rfl, by rw [hrestarted], ?_, ?_⟩
      · rw [hrestarted]
        exact accounted_boot time
      · exact (monitored_append _ _ _).mpr
          ⟨hmonitored, (monitored_cons _ _ _).mpr ⟨trivial, monitored_nil _⟩⟩

/-! ### Steps -/

theorem continues_onCanRx (h : Accounted n t handled) (frame : CanFrame) :
    Continues t (onCanRx frame n).2 (onCanRx frame n).1 handled ∧
      ((onCanRx frame n).2.foldl Traffic.follow t).taken = t.taken := by
  have hwaiting : t.stored.length = t.taken.length + n.queue.messages.length := by
    rw [h.queue, List.length_append]
  rw [onCanRx]
  cases hput : n.queue.put frame with
  | none =>
      have hfull := Mailbox.put_eq_none_iff.mp hput
      refine ⟨⟨⟨h.queue, ?_, h.alive, h.requests, h.checked, h.e2e⟩,
        (monitored_cons _ _ _).mpr ⟨?_, monitored_nil _⟩⟩, rfl⟩
      · show n.counters.rxQueueOverflow + 1 = UInt32.ofNat (t.refused + 1)
        rw [h.overflow, UInt32.ofNat_add]
        rfl
      · show t.stored.length = t.taken.length + rxQueueLen
        rw [hwaiting, hfull]
  | some queue =>
      have hmessages := Mailbox.messages_put hput
      have hroom : n.queue.messages.length < rxQueueLen := by
        refine Nat.lt_of_le_of_ne n.queue.length_le fun hfull => ?_
        rw [Mailbox.put_eq_none_iff.mpr hfull] at hput
        cases hput
      refine ⟨⟨⟨?_, h.overflow, h.alive, h.requests, h.checked, h.e2e⟩,
        (monitored_cons _ _ _).mpr ⟨?_, monitored_nil _⟩⟩, rfl⟩
      · show t.stored ++ [frame] = t.taken ++ queue.messages
        rw [h.queue, hmessages, List.append_assoc]
      · show t.stored.length < t.taken.length + rxQueueLen
        omega

/-- The frame that has been taken is handled, and counted as what it is. -/
theorem continues_dispatch (turn : Turn) {frame : CanFrame} (h : Accounted n t handled)
    (htaken : t.taken = handled ++ [frame]) :
    let call := dispatch turn frame n
    ∃ handled', Continues t call.outputs call.state handled' ∧
      (call.outputs.foldl Traffic.follow t).taken = handled' := by
  have hspeed : Sensor.canIdSensorSpeed ≠ canIdSensorAlive := by decide
  have hspeed' : isDiagnostic Sensor.canIdSensorSpeed = false := by decide
  have halive' : isDiagnostic canIdSensorAlive = false := by decide
  rw [dispatch]
  split
  · rename_i hid
    refine ⟨handled ++ [frame], ⟨⟨h.queue, h.overflow, ?_, ?_, ?_, ?_⟩, ?_⟩, htaken⟩
    · show n.counters.aliveFrames = _
      rw [h.alive, List.countP_append]
      simp [hid, hspeed]
    · show n.counters.udsRequests = _
      rw [h.requests, List.countP_append]
      simp [hid, hspeed']
    · show (t.checks ++ [_]).map Check.frame = _
      rw [List.map_append, h.checked, List.filter_append]
      simp [hid]
    · rw [show (onSpeedFrame frame turn.time n).1.counters.e2e = n.counters.e2e.count _ from rfl, h.e2e]
      exact count_tally t.checks ⟨frame, _, turn.time⟩
    · refine (monitored_cons _ _ _).mpr ⟨?_, monitored_nil _⟩
      show t.taken.getLast? = some frame
      rw [htaken, List.getLast?_concat]
  split
  · rename_i hother hid
    refine ⟨handled ++ [frame], ⟨⟨h.queue, h.overflow, ?_, ?_, ?_, h.e2e⟩, monitored_nil _⟩, htaken⟩
    · show n.counters.aliveFrames + 1 = _
      rw [h.alive, List.countP_append]
      simp [hid, UInt32.ofNat_add]
    · show n.counters.udsRequests = _
      rw [h.requests, List.countP_append]
      simp [hid, halive']
    · show t.checks.map Check.frame = _
      rw [h.checked, List.filter_append]
      simp [hother]
  split
  · rename_i hspeed halive hid
    simp only []
    obtain ⟨hreturns, -, hsame, hcontinues, hmonitored⟩ | ⟨hreturns, hnone, hcontinues⟩ :=
      h.called (called_callDiag (.onFrame frame) turn.onFrame n)
    · rw [if_pos hreturns]
      rw [hsame] at hcontinues
      refine ⟨handled ++ [frame], ⟨?_, hmonitored⟩, by rw [hsame, htaken]⟩
      rw [hsame]
      refine ⟨hcontinues.queue, hcontinues.overflow, ?_, ?_, ?_, hcontinues.e2e⟩
      · show (callDiag (.onFrame frame) turn.onFrame n).state.counters.aliveFrames = _
        rw [hcontinues.alive, List.countP_append]
        simp [halive]
      · show (callDiag (.onFrame frame) turn.onFrame n).state.counters.udsRequests + 1 = _
        rw [hcontinues.requests, List.countP_append]
        simp [hid, UInt32.ofNat_add]
      · rw [hcontinues.checked, List.filter_append]
        simp [hspeed]
    · rw [if_neg (by rw [hreturns]; decide)]
      exact ⟨[], hcontinues, hnone⟩
  · rename_i hspeed halive hid
    refine ⟨handled ++ [frame], ⟨⟨h.queue, h.overflow, ?_, ?_, ?_, h.e2e⟩, monitored_nil _⟩, htaken⟩
    · rw [h.alive, List.countP_append]
      simp [halive]
    · rw [h.requests, List.countP_append]
      simp [hid]
    · show t.checks.map Check.frame = _
      rw [h.checked, List.filter_append]
      simp [hspeed]

theorem continues_callDiag (h : Accounted n t t.taken) (input : Diag.Input) (env : Env) :
    let call := callDiag input env n
    Continues t call.outputs call.state (call.outputs.foldl Traffic.follow t).taken := by
  obtain ⟨-, -, hsame, hcontinues⟩ | ⟨-, hnone, hcontinues⟩ := h.called (called_callDiag input env n)
  · intro call
    rw [hsame]
    exact hcontinues
  · intro call
    rw [hnone]
    exact hcontinues

theorem continues_comRx (h : Accounted n t t.taken) (turn : Turn) :
    Continues t (comRx turn n).2 (comRx turn n).1
      ((comRx turn n).2.foldl Traffic.follow t).taken := by
  rw [comRx]
  split
  · exact continues_callDiag h .mainFunction turn.mainFunction
  rename_i frame queue hget
  have hmessages := Mailbox.messages_get hget
  have hexpected : Traffic.Expects t (.taken frame) := by
    show t.stored[t.taken.length]? = some frame
    rw [h.queue, hmessages, List.getElem?_append_right (Nat.le_refl _), Nat.sub_self]
    rfl
  have hfirst : Accounted { n with queue := queue } (t.follow (.taken frame)) t.taken := by
    refine ⟨?_, h.overflow, h.alive, h.requests, h.checked, h.e2e⟩
    show t.stored = (t.taken ++ [frame]) ++ queue.messages
    rw [h.queue, hmessages, List.append_assoc]
    rfl
  obtain ⟨handled, hcontinues, htaken⟩ := continues_dispatch turn hfirst rfl
  have hdispatched : Continues t (.taken frame :: (dispatch turn frame { n with queue := queue }).outputs)
      (dispatch turn frame { n with queue := queue }).state handled :=
    ⟨hcontinues.1, (monitored_cons _ _ _).mpr ⟨hexpected, hcontinues.2⟩⟩
  have htaken : ((.taken frame :: (dispatch turn frame { n with queue := queue }).outputs).foldl
    Traffic.follow t).taken = handled := htaken
  simp only []
  split
  · refine .trans hdispatched.2 ?_
    rw [List.foldl_append]
    refine continues_callDiag ?_ .mainFunction turn.mainFunction
    rw [htaken]
    exact hdispatched.1
  · rw [htaken]
    exact hdispatched

/-- Monitor takes no part in it. -/
theorem continues_exec (h : Accounted n t t.taken) (time : Nat) (pressed : Bool) (stmt : Stmt) :
    Continues t (exec time pressed n stmt).2 (exec time pressed n stmt).1
      ((exec time pressed n stmt).2.foldl Traffic.follow t).taken := by
  have hone : ∀ {o : Output} {n' : State}, t.follow o = t → t.Expects o → n'.queue = n.queue →
      n'.counters = n.counters → Continues t [o] n' ([o].foldl Traffic.follow t).taken := by
    intro o n' hsame hexpected hqueue hcounters
    show Accounted n' (t.follow o) (t.follow o).taken ∧ _
    rw [hsame]
    exact ⟨h.same hqueue hcounters, (monitored_cons _ _ _).mpr ⟨hexpected, monitored_nil _⟩⟩
  cases stmt with
  | takeView => exact hone rfl trivial rfl rfl
  | readClock => exact hone rfl trivial rfl rfl
  | setFault fault => exact hone rfl trivial rfl rfl
  | handleButton => exact hone rfl trivial rfl rfl
  | setPwm => exact hone rfl trivial rfl rfl
  | reportFault fault =>
      have hcall := continues_callDiag h (.reportFault fault.index (n.control.faults.get fault))
        (still time)
      exact ⟨hcall.1, (monitored_cons _ _ _).mpr ⟨trivial, hcall.2⟩⟩
  | sendStatus =>
      rw [exec]
      split
      · exact hone rfl trivial rfl rfl
      · exact ⟨h, monitored_nil _⟩

theorem continues_step (h : Accounted n t t.taken) (op : Op) :
    Continues t (step n op).2 (step n op).1 ((step n op).2.foldl Traffic.follow t).taken := by
  cases op with
  | canRx frame =>
      obtain ⟨hcontinues, htaken⟩ := continues_onCanRx h frame
      show Continues t (onCanRx frame n).2 _ ((onCanRx frame n).2.foldl Traffic.follow t).taken
      rw [htaken]
      exact hcontinues
  | comRx turn => exact continues_comRx h turn
  | monitor time pressed =>
      show Continues t (monitor time pressed n).2 (monitor time pressed n).1 _
      rw [step, monitor]
      split
      · exact ⟨h.same rfl rfl, monitored_nil _⟩
      · rename_i stmt left _
        have hnext : Accounted { n with monitor := { n.monitor with left := left } } t t.taken :=
          h.same rfl rfl
        exact continues_exec hnext time pressed stmt

/-- **Every frame is accounted for.** In every run of the interrupt and the tasks, the frames that
have been stored since the last start are those that ComRx has taken and those that wait, in the order
of their arrival; a frame is refused only if 32 wait, and is counted then. Every speed frame that is
taken is checked once, in its turn, and the statistics count the verdicts, the alive frames and the
requests, modulo 2^32. -/
theorem frames_accounted (start : Nat) (ops : List Op) :
    let t := Traffic.after (run step (boot start) ops).2
    Accounted (run step (boot start) ops).1 t t.taken ∧
      Monitored Traffic.follow Traffic.Expects {} (run step (boot start) ops).2 := by
  refine run_invariant
    (fun (n : State) tr => Accounted n (Traffic.after tr) (Traffic.after tr).taken ∧
      Monitored Traffic.follow Traffic.Expects {} tr)
    ?_ [] ⟨accounted_boot start, monitored_nil _⟩ ops
  intro n tr op h
  obtain ⟨haccounted, hmonitored⟩ := continues_step h.1 op
  refine ⟨?_, (monitored_append _ _ _).mpr ⟨h.2, hmonitored⟩⟩
  rw [Traffic.after, List.foldl_append]
  exact haccounted

end MiniEcu.Control.Tasks
