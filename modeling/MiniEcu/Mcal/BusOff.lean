import MiniEcu.Lib.Trace

/-!
# Recovery from bus-off

The part of both `can_drv.c` that brings a node back to the bus. The controller goes into
initialisation by itself when it is switched off the bus; ten calls of the main function later the
driver takes it out again. The interrupt may come between any two accesses of the main function to
what they share, also between the load and the store of the counter, which is not volatile.
-/

namespace MiniEcu.CanDrv

open Trace

def busOffRecoveryDelayTicks : Nat := 10

/-! ### State -/

/-- Where `CanDrv_MainFunction` stands, with what it has loaded. -/
inductive Point
  | idle
  | counting
  | loaded (timer : Nat)
  | stored (timer : Nat)
  | expired
  | dropping
  | clearing
  | writing
deriving DecidableEq, Repr

/-- The controller (`busOff` is `PSR.BO`, `init` is `CCCR.INIT`, `flag` is `IR.BO`) and the statics. -/
structure State where
  busOff : Bool := false
  init : Bool := false
  flag : Bool := false
  busOffPending : Bool := false
  busOffTimer : Nat := 0
  busOffCount : UInt32 := 0
  main : Point := .idle
deriving DecidableEq, Repr

inductive Output
  /-- A call of the main function has returned. -/
  | returned
  /-- The controller has been taken out of initialisation. -/
  | cleared
deriving DecidableEq, Repr

/-! ### Steps -/

/-- The controller is switched off the bus. One that is in initialisation takes no part in it. -/
def State.leaveBus (s : State) : State :=
  if s.busOff || s.init then s else { s with busOff := true, init := true, flag := true }

/-- The controller has seen enough recessive bits. The flag says that the status has changed. -/
def State.rejoinBus (s : State) : State :=
  if s.busOff && !s.init then { s with busOff := false, flag := true } else s

/-- `HAL_FDCAN_ErrorStatusCallback`. -/
def errorStatusCallback (s : State) : State :=
  if s.flag then
    { s with
      flag := false
      busOffCount := s.busOffCount + 1
      busOffTimer := 0
      busOffPending := true }
  else s

/-- The next access of `CanDrv_MainFunction`. The comparison may use the value that has just been
stored or load it again. -/
def mainFunction (reload : Bool) (s : State) : State × List Output :=
  match s.main with
  | .idle =>
      if !s.busOffPending then (s, [.returned]) else ({ s with main := .counting }, [])
  | .counting => ({ s with main := .loaded s.busOffTimer }, [])
  | .loaded timer => ({ s with busOffTimer := timer + 1, main := .stored (timer + 1) }, [])
  | .stored timer =>
      if busOffRecoveryDelayTicks ≤ if reload then s.busOffTimer else timer then
        ({ s with main := .expired }, [])
      else ({ s with main := .idle }, [.returned])
  | .expired => ({ s with busOffTimer := 0, main := .dropping }, [])
  | .dropping => ({ s with busOffPending := false, main := .clearing }, [])
  -- the register is read, and written without the bit
  | .clearing => ({ s with main := .writing }, [])
  | .writing => ({ s with init := false, main := .idle }, [.cleared, .returned])

inductive Op
  | leaveBus
  | rejoinBus
  | interrupt
  | main (reload : Bool)
deriving DecidableEq, Repr

def step (s : State) : Op → State × List Output
  | .leaveBus => (s.leaveBus, [])
  | .rejoinBus => (s.rejoinBus, [])
  | .interrupt => (errorStatusCallback s, [])
  | .main reload => mainFunction reload s

/-- What an access of the main function can do. -/
inductive Access (s : State) : List Output → State → Prop
  | nothing (hmain : s.main = .idle) (h : s.busOffPending = false) : Access s [.returned] s
  | start (hmain : s.main = .idle) : Access s [] { s with main := .counting }
  | load (hmain : s.main = .counting) : Access s [] { s with main := .loaded s.busOffTimer }
  | store {timer : Nat} (hmain : s.main = .loaded timer) :
      Access s [] { s with busOffTimer := timer + 1, main := .stored (timer + 1) }
  | expire {timer : Nat} (hmain : s.main = .stored timer)
      (h : busOffRecoveryDelayTicks ≤ s.busOffTimer ∨ busOffRecoveryDelayTicks ≤ timer) :
      Access s [] { s with main := .expired }
  | again {timer : Nat} (hmain : s.main = .stored timer)
      (h : s.busOffTimer < busOffRecoveryDelayTicks ∨ timer < busOffRecoveryDelayTicks) :
      Access s [.returned] { s with main := .idle }
  | reset (hmain : s.main = .expired) : Access s [] { s with busOffTimer := 0, main := .dropping }
  | drop (hmain : s.main = .dropping) :
      Access s [] { s with busOffPending := false, main := .clearing }
  | read (hmain : s.main = .clearing) : Access s [] { s with main := .writing }
  | write (hmain : s.main = .writing) :
      Access s [.cleared, .returned] { s with init := false, main := .idle }

theorem access_mainFunction (reload : Bool) (s : State) :
    Access s (mainFunction reload s).2 (mainFunction reload s).1 := by
  cases hmain : s.main with
  | idle =>
      simp only [mainFunction, hmain]
      by_cases hpending : s.busOffPending = true
      · rw [if_neg (by simp [hpending])]
        exact .start hmain
      · rw [if_pos (by simp [hpending])]
        exact .nothing hmain (Bool.not_eq_true _ ▸ hpending)
  | stored timer =>
      simp only [mainFunction, hmain]
      by_cases hexpired : busOffRecoveryDelayTicks ≤ if reload then s.busOffTimer else timer
      · rw [if_pos hexpired]
        refine .expire hmain ?_
        cases reload with
        | true => exact .inl hexpired
        | false => exact .inr hexpired
      · rw [if_neg hexpired]
        refine .again hmain ?_
        cases reload with
        | true => exact .inl (Nat.lt_of_not_le hexpired)
        | false => exact .inr (Nat.lt_of_not_le hexpired)
  | counting =>
      simp only [mainFunction, hmain]
      exact .load hmain
  | loaded timer =>
      simp only [mainFunction, hmain]
      exact .store hmain
  | expired =>
      simp only [mainFunction, hmain]
      exact .reset hmain
  | dropping =>
      simp only [mainFunction, hmain]
      exact .drop hmain
  | clearing =>
      simp only [mainFunction, hmain]
      exact .read hmain
  | writing =>
      simp only [mainFunction, hmain]
      exact .write hmain

/-! ### What every interleaving keeps -/

/-- How far the counter can have got, depending on where the main function stands. -/
def Bounded (busOffTimer : Nat) : Point → Prop
  | .idle | .counting => busOffTimer < busOffRecoveryDelayTicks
  | .loaded timer => timer < busOffRecoveryDelayTicks ∧ busOffTimer < busOffRecoveryDelayTicks
  | .stored timer => timer ≤ busOffRecoveryDelayTicks ∧ (busOffTimer = timer ∨ busOffTimer = 0)
  | .expired => True
  | .dropping | .clearing | .writing => busOffTimer = 0

/-- A controller in initialisation is not forgotten: its interrupt is still to come, or the main
function is counting, or it is about to clear the bit. -/
structure Sound (s : State) : Prop where
  bounded : Bounded s.busOffTimer s.main
  remembered : s.init = true →
    s.flag = true ∨ s.busOffPending = true ∨ s.main = .clearing ∨ s.main = .writing

theorem sound_initial : Sound {} where
  bounded := Nat.succ_pos 9
  remembered h := absurd h Bool.false_ne_true

theorem Bounded.reset {busOffTimer : Nat} {main : Point} (h : Bounded busOffTimer main) :
    Bounded 0 main := by
  cases main with
  | stored timer => exact ⟨h.1, .inr rfl⟩
  | loaded timer => exact ⟨h.1, Nat.succ_pos 9⟩
  | expired => trivial
  | dropping | clearing | writing => rfl
  | idle | counting => exact Nat.succ_pos 9

/-- The counter that is compared has been stored, unless an interrupt has come in between. -/
theorem Bounded.compared {busOffTimer timer : Nat} (h : Bounded busOffTimer (.stored timer))
    (hnot : busOffTimer < busOffRecoveryDelayTicks ∨ timer < busOffRecoveryDelayTicks) :
    busOffTimer < busOffRecoveryDelayTicks := by
  obtain ⟨-, rfl | rfl⟩ := h
  · exact hnot.elim id id
  · exact Nat.succ_pos 9

theorem sound_access {s s' : State} {outs : List Output} (h : Sound s) (ha : Access s outs s') :
    Sound s' := by
  obtain ⟨hbounded, hremembered⟩ := h
  -- away from the bit, what is remembered does not depend on where the main function stands
  have hkept : s.main ≠ .clearing → s.main ≠ .writing → s.init = true → ∀ main : Point,
      s.flag = true ∨ s.busOffPending = true ∨ main = .clearing ∨ main = .writing := by
    intro hclearing hwriting hinit main
    obtain hflag | hpending | hmain | hmain := hremembered hinit
    · exact .inl hflag
    · exact .inr (.inl hpending)
    · exact absurd hmain hclearing
    · exact absurd hmain hwriting
  cases ha with
  | nothing => exact ⟨hbounded, hremembered⟩
  | start hmain =>
      rw [hmain] at hbounded
      exact ⟨hbounded, fun hinit => hkept (by simp [hmain]) (by simp [hmain]) hinit _⟩
  | load hmain =>
      rw [hmain] at hbounded
      exact ⟨⟨hbounded, hbounded⟩, fun hinit => hkept (by simp [hmain]) (by simp [hmain]) hinit _⟩
  | store hmain =>
      rw [hmain] at hbounded
      exact ⟨⟨hbounded.1, .inl rfl⟩, fun hinit => hkept (by simp [hmain]) (by simp [hmain]) hinit _⟩
  | expire hmain =>
      exact ⟨trivial, fun hinit => hkept (by simp [hmain]) (by simp [hmain]) hinit _⟩
  | again hmain hnot =>
      rw [hmain] at hbounded
      exact ⟨hbounded.compared hnot, fun hinit => hkept (by simp [hmain]) (by simp [hmain]) hinit _⟩
  | reset hmain =>
      exact ⟨rfl, fun hinit => hkept (by simp [hmain]) (by simp [hmain]) hinit _⟩
  | drop hmain =>
      rw [hmain] at hbounded
      exact ⟨hbounded, fun _ => .inr (.inr (.inl rfl))⟩
  | read hmain =>
      rw [hmain] at hbounded
      exact ⟨hbounded, fun _ => .inr (.inr (.inr rfl))⟩
  | write hmain =>
      rw [hmain] at hbounded
      refine ⟨?_, fun hinit => absurd hinit Bool.false_ne_true⟩
      rw [show s.busOffTimer = 0 from hbounded]
      exact Nat.succ_pos 9

theorem sound_step {s : State} (h : Sound s) (op : Op) : Sound (step s op).1 := by
  cases op with
  | leaveBus =>
      show Sound s.leaveBus
      rw [State.leaveBus]
      split
      · exact h
      · exact ⟨h.bounded, fun _ => .inl rfl⟩
  | rejoinBus =>
      show Sound s.rejoinBus
      rw [State.rejoinBus]
      split
      · exact ⟨h.bounded, fun _ => .inl rfl⟩
      · exact h
  | interrupt =>
      show Sound (errorStatusCallback s)
      rw [errorStatusCallback]
      split
      · exact ⟨h.bounded.reset, fun _ => .inr (.inl rfl)⟩
      · exact h
  | main reload => exact sound_access h (access_mainFunction reload s)

theorem sound_run (ops : List Op) : Sound (run step {} ops).1 :=
  run_invariant (fun s _ => Sound s) (fun _ _ op h => sound_step h op) [] sound_initial ops

/-! ### How long it takes -/

/-- The calls that have returned until the controller is taken out of initialisation. -/
structure Recovery where
  calls : Nat := 0
  recovered : Bool := false

def Recovery.follow (r : Recovery) : Output → Recovery
  | .returned => if r.recovered then r else { r with calls := r.calls + 1 }
  | .cleared => { r with recovered := true }

def Recovery.after (outs : List Output) : Recovery := outs.foldl follow {}

/-- The controller is in initialisation and its interrupt has run. -/
structure Waiting (s : State) : Prop where
  sound : Sound s
  init : s.init = true
  served : s.flag = false

theorem Waiting.other {s : State} (h : Waiting s) {op : Op} (hop : ∀ reload, op ≠ .main reload) :
    step s op = (s, []) := by
  cases op with
  | leaveBus => simp [step, State.leaveBus, h.init]
  | rejoinBus => simp [step, State.rejoinBus, h.init]
  | interrupt => simp [step, errorStatusCallback, h.served]
  | main reload => exact absurd rfl (hop reload)

/-- How many more calls it takes at most, the one that clears the bit among them. -/
def State.remaining (s : State) : Nat :=
  match s.main with
  | .idle | .counting => busOffRecoveryDelayTicks - s.busOffTimer
  | .loaded timer => busOffRecoveryDelayTicks - timer
  | .stored _ => busOffRecoveryDelayTicks + 1 - s.busOffTimer
  | .expired | .dropping | .clearing | .writing => 1

theorem Waiting.remaining_pos {s : State} (h : Waiting s) : 0 < s.remaining := by
  have hbounded := h.sound.bounded
  rw [State.remaining]
  cases hmain : s.main with
  | idle | counting =>
      rw [hmain] at hbounded
      exact Nat.sub_pos_of_lt hbounded
  | loaded timer =>
      rw [hmain] at hbounded
      exact Nat.sub_pos_of_lt hbounded.1
  | stored timer =>
      rw [hmain] at hbounded
      obtain ⟨hle, hor⟩ := hbounded
      show 0 < busOffRecoveryDelayTicks + 1 - s.busOffTimer
      omega
  | expired | dropping | clearing | writing => exact Nat.one_pos

/-- A call in which the bit is not cleared leaves fewer calls to be made. -/
theorem Waiting.access {s s' : State} {outs : List Output} (h : Waiting s) (ha : Access s outs s') :
    outs = [.cleared, .returned] ∨
      Waiting s' ∧ (Recovery.after outs).recovered = false ∧
        (Recovery.after outs).calls + s'.remaining ≤ s.remaining := by
  have hsound := sound_access h.sound ha
  obtain ⟨⟨hbounded, hremembered⟩, hinit, hserved⟩ := h
  cases ha with
  | nothing hmain hpending =>
      have hremembered := hremembered hinit
      simp [hserved, hpending, hmain] at hremembered
  | start hmain =>
      refine .inr ⟨⟨hsound, hinit, hserved⟩, rfl, ?_⟩
      simp [Recovery.after, State.remaining, hmain]
  | load hmain =>
      refine .inr ⟨⟨hsound, hinit, hserved⟩, rfl, ?_⟩
      simp [Recovery.after, State.remaining, hmain]
  | store hmain =>
      refine .inr ⟨⟨hsound, hinit, hserved⟩, rfl, ?_⟩
      simp [Recovery.after, State.remaining, hmain]
  | @expire timer hmain =>
      rw [hmain] at hbounded
      obtain ⟨hle, hor⟩ := hbounded
      refine .inr ⟨⟨hsound, hinit, hserved⟩, rfl, ?_⟩
      simp only [Recovery.after, List.foldl_nil, State.remaining, hmain]
      omega
  | @again timer hmain hnot =>
      rw [hmain] at hbounded
      have hlt := hbounded.compared hnot
      refine .inr ⟨⟨hsound, hinit, hserved⟩, rfl, ?_⟩
      simp only [Recovery.after, List.foldl_cons, List.foldl_nil, Recovery.follow, State.remaining,
        hmain]
      simp only [Bool.false_eq_true, if_false]
      omega
  | reset hmain | drop hmain | read hmain =>
      refine .inr ⟨⟨hsound, hinit, hserved⟩, rfl, ?_⟩
      simp [Recovery.after, State.remaining, hmain]
  | write hmain => exact .inl rfl

/-- How many calls have returned, from where the counter stands. -/
def Counted (s : State) (calls : Nat) : Prop :=
  match s.main with
  | .idle | .counting => s.busOffTimer = calls
  | .loaded timer => timer = calls
  | .stored timer => timer = calls + 1 ∧ s.busOffTimer = calls + 1
  | .expired | .dropping | .clearing | .writing => calls + 1 = busOffRecoveryDelayTicks

theorem Counted.lt {s : State} {calls : Nat} (h : Counted s calls)
    (hbounded : Bounded s.busOffTimer s.main) : calls < busOffRecoveryDelayTicks := by
  rw [Counted] at h
  cases hmain : s.main with
  | idle | counting =>
      rw [hmain] at h hbounded
      exact h ▸ hbounded
  | loaded timer =>
      rw [hmain] at h hbounded
      exact h ▸ hbounded.1
  | stored timer =>
      rw [hmain] at h hbounded
      have htimer : timer = calls + 1 := h.1
      have hle : timer ≤ busOffRecoveryDelayTicks := hbounded.1
      omega
  | expired | dropping | clearing | writing =>
      rw [hmain] at h
      exact Nat.lt_of_succ_le (Nat.le_of_eq h)

/-- If no interrupt comes in between, the counter counts the calls. -/
theorem Waiting.counted {s s' : State} {outs : List Output} (h : Waiting s) (ha : Access s outs s')
    {calls : Nat} (hcounted : Counted s calls) :
    outs = [.cleared, .returned] ∧ calls + 1 = busOffRecoveryDelayTicks ∨
      (Recovery.after outs).recovered = false ∧ Counted s' (calls + (Recovery.after outs).calls) := by
  obtain ⟨⟨hbounded, hremembered⟩, hinit, hserved⟩ := h
  rw [Counted] at hcounted
  cases ha with
  | nothing hmain hpending =>
      have hremembered := hremembered hinit
      simp [hserved, hpending, hmain] at hremembered
  | start hmain =>
      rw [hmain] at hcounted
      exact .inr ⟨rfl, hcounted⟩
  | load hmain =>
      rw [hmain] at hcounted
      exact .inr ⟨rfl, hcounted⟩
  | store hmain =>
      rw [hmain] at hcounted
      exact .inr ⟨rfl, congrArg (· + 1) hcounted, congrArg (· + 1) hcounted⟩
  | expire hmain hexpired =>
      rw [hmain] at hcounted hbounded
      obtain ⟨htimer, hsame⟩ := hcounted
      obtain ⟨hle, -⟩ := hbounded
      refine .inr ⟨rfl, ?_⟩
      show calls + 1 = busOffRecoveryDelayTicks
      omega
  | again hmain =>
      rw [hmain] at hcounted
      exact .inr ⟨rfl, hcounted.2⟩
  | reset hmain | drop hmain | read hmain =>
      rw [hmain] at hcounted
      exact .inr ⟨rfl, hcounted⟩
  | write hmain =>
      rw [hmain] at hcounted
      exact .inl ⟨rfl, hcounted⟩

theorem foldl_recovered (calls : Nat) (outs : List Output) :
    outs.foldl Recovery.follow { calls := calls, recovered := true } =
      { calls := calls, recovered := true } := by
  induction outs with
  | nil => rfl
  | cons o outs ih => cases o <;> exact ih

theorem foldl_calls (a b : Nat) {outs : List Output}
    (h : (outs.foldl Recovery.follow { calls := b }).recovered = false) :
    outs.foldl Recovery.follow { calls := a + b } =
      { calls := a + (outs.foldl Recovery.follow { calls := b }).calls } := by
  induction outs generalizing b with
  | nil => rfl
  | cons o outs ih =>
      cases o with
      | returned => exact ih (b + 1) h
      | cleared =>
          rw [List.foldl_cons, Recovery.follow, foldl_recovered] at h
          cases h

theorem foldl_after {r : Recovery} (hr : r.recovered = false) {outs : List Output}
    (h : (Recovery.after outs).recovered = false) :
    outs.foldl Recovery.follow r = { calls := r.calls + (Recovery.after outs).calls } := by
  obtain ⟨calls, recovered⟩ := r
  obtain rfl : recovered = false := hr
  exact foldl_calls calls 0 h

/-! ### Runs -/

theorem step_waiting {s : State} (h : Waiting s) (op : Op) :
    (step s op).1 = s ∧ (step s op).2 = [] ∨
      ∃ reload, op = .main reload ∧ Access s (step s op).2 (step s op).1 := by
  by_cases hop : ∃ reload, op = .main reload
  · obtain ⟨reload, rfl⟩ := hop
    exact .inr ⟨reload, rfl, access_mainFunction reload s⟩
  · rw [h.other fun reload heq => hop ⟨reload, heq⟩]
    exact .inl ⟨rfl, rfl⟩

/-- What every access keeps holds until the bit is cleared, with the number of calls. -/
theorem until_cleared (I : State → Nat → Prop) (Q : Nat → Prop)
    (haccess : ∀ s s' outs calls, Waiting s → I s calls → Access s outs s' →
      outs = [.cleared, .returned] ∧ Q calls ∨
        Waiting s' ∧ (Recovery.after outs).recovered = false ∧
          I s' (calls + (Recovery.after outs).calls))
    {s : State} (h : Waiting s) (hI : I s 0) (ops : List Op) :
    let r := Recovery.after (run step s ops).2
    (r.recovered = false → Waiting (run step s ops).1 ∧ I (run step s ops).1 r.calls) ∧
      (r.recovered = true → Q r.calls) := by
  refine run_invariant
    (fun s' tr =>
      ((Recovery.after tr).recovered = false → Waiting s' ∧ I s' (Recovery.after tr).calls) ∧
      ((Recovery.after tr).recovered = true → Q (Recovery.after tr).calls))
    ?_ [] ⟨fun _ => ⟨h, hI⟩, fun hrecovered => absurd hrecovered Bool.false_ne_true⟩ ops
  intro s' tr op hs'
  rw [Recovery.after, List.foldl_append, ← Recovery.after]
  cases htr : (Recovery.after tr).recovered with
  | true =>
      rw [show Recovery.after tr = { calls := (Recovery.after tr).calls, recovered := true } from
        by rw [← htr], foldl_recovered]
      exact ⟨fun hrecovered => absurd hrecovered.symm Bool.false_ne_true, fun _ => hs'.2 htr⟩
  | false =>
      obtain ⟨hwaiting, hkept⟩ := hs'.1 htr
      obtain ⟨hsame, hnothing⟩ | ⟨reload, -, hstep⟩ := step_waiting hwaiting op
      · rw [hsame, hnothing, List.foldl_nil]
        exact hs'
      obtain ⟨hcleared, hQ⟩ | ⟨hnext, houts, hI'⟩ := haccess _ _ _ _ hwaiting hkept hstep
      · rw [hcleared]
        exact ⟨fun hrecovered => absurd hrecovered.symm Bool.false_ne_true, fun _ => hQ⟩
      · rw [foldl_after htr houts]
        exact ⟨fun _ => ⟨hnext, hI'⟩, fun hrecovered => absurd hrecovered Bool.false_ne_true⟩

/-- **A bus-off is never forgotten.** In every interleaving of the main function with the controller
and its interrupt: once the interrupt of a controller in initialisation has run, at most ten calls of
the main function return before one takes it out of initialisation. -/
theorem recovers (past ops : List Op) (hinit : (run step {} past).1.init = true)
    (hserved : (run step {} past).1.flag = false) :
    (Recovery.after (run step (run step {} past).1 ops).2).calls ≤ busOffRecoveryDelayTicks := by
  have hwaiting : Waiting (run step {} past).1 := ⟨sound_run past, hinit, hserved⟩
  generalize (run step {} past).1 = s at hwaiting
  have hbound : s.remaining ≤ busOffRecoveryDelayTicks + 1 := by
    rw [State.remaining]
    split <;> omega
  have hall := until_cleared
    (fun s' calls => calls + s'.remaining ≤ busOffRecoveryDelayTicks + 1)
    (fun calls => calls ≤ busOffRecoveryDelayTicks) ?_ hwaiting (by omega) ops
  · cases hrecovered : (Recovery.after (run step s ops).2).recovered with
    | true => exact hall.2 hrecovered
    | false =>
        obtain ⟨hwaiting', hle⟩ := hall.1 hrecovered
        have hpos := hwaiting'.remaining_pos
        omega
  intro s' s'' outs calls hwaiting' hle haccess
  have hpos := hwaiting'.remaining_pos
  obtain hcleared | ⟨hnext, houts, hfewer⟩ := hwaiting'.access haccess
  · exact .inl ⟨hcleared, by omega⟩
  · exact .inr ⟨hnext, houts, by omega⟩

/-- The controller leaves the bus, and the interrupt runs. -/
theorem recovers_once :
    (Recovery.after (run step (run step {} [.leaveBus, .interrupt]).1
      (List.replicate 60 (.main false))).2).calls ≤ busOffRecoveryDelayTicks :=
  recovers [.leaveBus, .interrupt] (List.replicate 60 (.main false)) rfl rfl

/-- **The delay of the recovery.** If the interrupt comes between two calls of the main function, the
controller is taken out of initialisation in the tenth call from then on, not before and not later. -/
theorem recovery_delay (past ops : List Op) (hinit : (run step {} past).1.init = true)
    (hflag : (run step {} past).1.flag = true) (hidle : (run step {} past).1.main = .idle) :
    let r := Recovery.after (run step (run step {} (past ++ [.interrupt])).1 ops).2
    (r.recovered = true → r.calls + 1 = busOffRecoveryDelayTicks) ∧
      (r.recovered = false → r.calls < busOffRecoveryDelayTicks) := by
  have hsound := sound_run (past ++ [.interrupt])
  rw [run_concat] at hsound ⊢
  generalize (run step {} past).1 = s at *
  have hnext : step s .interrupt = ({ s with
      flag := false
      busOffCount := s.busOffCount + 1
      busOffTimer := 0
      busOffPending := true }, []) := by
    simp [step, errorStatusCallback, hflag]
  rw [hnext] at hsound ⊢
  have hwaiting := Waiting.mk hsound hinit rfl
  have hcounted : Counted { s with
      flag := false
      busOffCount := s.busOffCount + 1
      busOffTimer := 0
      busOffPending := true } 0 := by
    rw [Counted, show State.main _ = .idle from hidle]
  have hall := until_cleared Counted (fun calls => calls + 1 = busOffRecoveryDelayTicks) ?_ hwaiting
    hcounted ops
  · refine ⟨hall.2, fun hrecovered => ?_⟩
    obtain ⟨hwaiting', hcounted'⟩ := hall.1 hrecovered
    exact hcounted'.lt hwaiting'.sound.bounded
  intro s' s'' outs calls hwaiting' hcounted' haccess
  obtain hdone | hgo := hwaiting'.counted haccess hcounted'
  · exact .inl hdone
  obtain hcleared | ⟨hnext', -, -⟩ := hwaiting'.access haccess
  · rw [hcleared] at hgo
    cases hgo.1
  · exact .inr ⟨hnext', hgo⟩

/-- The controller has been back on the bus, and the interrupt that says so has made the driver count
again. When it leaves the bus once more in the middle of the tenth call, that call brings it back. -/
example :
    let past := [.leaveBus, .interrupt] ++ List.replicate 44 (.main false) ++
      [.rejoinBus, .interrupt] ++ List.replicate 38 (.main false) ++ [.leaveBus, .interrupt]
    let r := Recovery.after (run step (run step {} past).1 (List.replicate 6 (.main false))).2
    r.recovered = true ∧ r.calls = 0 := by
  decide +kernel

/-- The controller leaves the bus before the first call. -/
theorem recovery_delay_once :
    let r := Recovery.after (run step (run step {} ([.leaveBus] ++ [.interrupt])).1
      (List.replicate 60 (.main false))).2
    (r.recovered = true → r.calls + 1 = busOffRecoveryDelayTicks) ∧
      (r.recovered = false → r.calls < busOffRecoveryDelayTicks) :=
  recovery_delay [.leaveBus] (List.replicate 60 (.main false)) rfl rfl rfl

end MiniEcu.CanDrv
