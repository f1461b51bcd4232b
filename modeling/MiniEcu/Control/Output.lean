import MiniEcu.Control.App
import MiniEcu.Lib.Trace
import MiniEcu.Lib.Windows

/-!
# What the view means, and what the output is driven from

The view is a summary of the frames checked so far: the last valid one, and how long the receiver
has been without an error. The error is cleared by the eleventh valid frame in a row, not the tenth.
The duty of the output is zero unless the view of the cycle is fresh and healthy.
-/

namespace MiniEcu.Control

open E2e (Status)
open History (since since_concat_closing since_concat_open since_nil)
open Memory (elapsed)
open Trace

/-! ### The frames checked so far -/

structure Check where
  frame : Diag.CanFrame
  status : Status
  time : Nat
deriving DecidableEq

def Check.valid (c : Check) : Bool := E2e.isValid c.status

def Check.speedX10 (c : Check) : Nat := (be16 c.frame.data 0).toNat

def Output.check : Output → Option Check
  | .checked frame status time => some { frame := frame, status := status, time := time }
  | _ => none

def checks (outs : List Output) : List Check := outs.filterMap Output.check

@[simp] theorem checks_append (outs outs' : List Output) :
    checks (outs ++ outs') = checks outs ++ checks outs' := List.filterMap_append

/-- Some frame has been rejected. -/
def Rejected (h : List Check) : Prop := ∃ c ∈ h, c.valid = false

/-- How many frames in a row have been valid since then. -/
def goodSince (h : List Check) : Nat := (since (fun c => !c.valid) h).length

def lastValid (h : List Check) : Option Check := (h.filter Check.valid).getLast?

section Concat

variable (h : List Check) {c : Check}

theorem rejected_valid (hc : c.valid = true) : Rejected (h ++ [c]) ↔ Rejected h := by
  simp [Rejected, or_and_right, exists_or, hc]

theorem rejected_invalid (hc : c.valid = false) : Rejected (h ++ [c]) :=
  ⟨c, by simp, hc⟩

theorem goodSince_valid (hc : c.valid = true) : goodSince (h ++ [c]) = goodSince h + 1 := by
  rw [goodSince, since_concat_open (by simp [hc]), List.length_append]
  rfl

theorem goodSince_invalid (hc : c.valid = false) : goodSince (h ++ [c]) = 0 := by
  rw [goodSince, since_concat_closing (by simp [hc])]
  rfl

theorem lastValid_valid (hc : c.valid = true) : lastValid (h ++ [c]) = some c := by
  simp [lastValid, List.filter_append, hc]

theorem lastValid_invalid (hc : c.valid = false) : lastValid (h ++ [c]) = lastValid h := by
  simp [lastValid, List.filter_append, hc]

end Concat

/-! ### The view -/

/-- The view that the frames checked so far leave. -/
structure Shows (v : SensorView) (h : List Check) : Prop where
  empty : lastValid h = none → v.received = false ∧ v.speedX10 = 0
  last : ∀ c, lastValid h = some c →
    v.received = true ∧ v.speedX10.toNat = c.speedX10 ∧ v.lastValidTick = c.time % 2 ^ 32
  streak : v.goodStreak = min e2eHealFrames (goodSince h)
  error : v.e2eError = true ↔ Rejected h ∧ goodSince h ≤ e2eHealFrames

/-- What a valid frame writes, before the streak is counted. -/
def SensorView.latest (v : SensorView) (c : Check) : SensorView :=
  { v with
    speedX10 := be16 c.frame.data 0
    adcRaw := be16 c.frame.data 2
    sensorStatus := E2e.load c.frame.data 4
    lastValidTick := c.time % 2 ^ 32
    received := true }

theorem shows_nil : Shows {} [] where
  empty _ := ⟨rfl, rfl⟩
  last c hc := by simp [lastValid] at hc
  streak := by simp [goodSince]
  error := by simp [Rejected]

theorem Shows.update_rejected {v : SensorView} {h : List Check} (hv : Shows v h) {c : Check}
    (hc : c.valid = false) : Shows (v.update c.frame c.status c.time) (h ++ [c]) := by
  have hupdate : v.update c.frame c.status c.time = { v with e2eError := true, goodStreak := 0 } :=
    if_neg (show ¬ c.valid = true by simp [hc])
  rw [hupdate]
  constructor
  · rw [lastValid_invalid h hc]
    exact hv.empty
  · rw [lastValid_invalid h hc]
    exact hv.last
  · rw [goodSince_invalid h hc, Nat.min_zero]
  · rw [goodSince_invalid h hc]
    exact iff_of_true rfl ⟨rejected_invalid h hc, Nat.zero_le _⟩

/-- A valid frame is shown. While the streak is short it is only counted, and the next one after a
full streak clears the error. -/
theorem Shows.update_valid {v : SensorView} {h : List Check} (hv : Shows v h) {c : Check}
    (hc : c.valid = true) : Shows (v.update c.frame c.status c.time) (h ++ [c]) := by
  have hstreak := hv.streak
  have hupdate : v.update c.frame c.status c.time =
      if v.goodStreak < e2eHealFrames then { v.latest c with goodStreak := v.goodStreak + 1 }
      else { v.latest c with e2eError := false } :=
    if_pos (show c.valid = true from hc)
  have hempty : lastValid (h ++ [c]) = none →
      (v.latest c).received = false ∧ (v.latest c).speedX10 = 0 := by
    rw [lastValid_valid h hc]
    exact fun hnone => absurd hnone (Option.some_ne_none c)
  have hlast : ∀ c', lastValid (h ++ [c]) = some c' → (v.latest c).received = true ∧
      (v.latest c).speedX10.toNat = c'.speedX10 ∧
        (v.latest c).lastValidTick = c'.time % 2 ^ 32 := by
    intro c' hc'
    obtain rfl := Option.some.inj ((lastValid_valid h hc).symm.trans hc')
    exact ⟨rfl, rfl, rfl⟩
  have hcount := goodSince_valid h hc
  rw [hupdate]
  by_cases hfew : v.goodStreak < e2eHealFrames
  · have hgood : goodSince h < e2eHealFrames := by omega
    rw [if_pos hfew]
    refine ⟨hempty, hlast, ?_, ?_⟩
    · rw [hcount]
      show v.goodStreak + 1 = _
      omega
    · rw [hcount, rejected_valid h hc]
      refine hv.error.trans (and_congr_right fun _ => ?_)
      omega
  · have hgood : e2eHealFrames ≤ goodSince h := by omega
    rw [if_neg hfew]
    refine ⟨hempty, hlast, ?_, ?_⟩
    · rw [hcount]
      show v.goodStreak = _
      omega
    · rw [hcount]
      exact iff_of_false (by simp) (fun herror => by omega)

theorem Shows.update {v : SensorView} {h : List Check} (hv : Shows v h) (c : Check) :
    Shows (v.update c.frame c.status c.time) (h ++ [c]) := by
  cases hc : c.valid with
  | false => exact hv.update_rejected hc
  | true => exact hv.update_valid hc

/-! ### Runs -/

theorem view_handleButton (pressed : Bool) (s : State) :
    (handleButton pressed s).view = s.view ∧ (handleButton pressed s).copy = s.copy := by
  unfold handleButton
  split
  · split
    · exact ⟨rfl, rfl⟩
    split <;> exact ⟨rfl, rfl⟩
  · exact ⟨rfl, rfl⟩

theorem monitorCycle_eq (view : SensorView) (time : Nat) (s : State) :
    ∃ outs, (monitorCycle view time s).2 =
        .setPwm (dutyOf (viewFaults view s.startTick (time % 2 ^ 32) s.localInject) view) :: outs ∧
      checks outs = [] ∧ (monitorCycle view time s).1.view = s.view := by
  simp only [monitorCycle]
  split
  · exact ⟨_, rfl, rfl, rfl⟩
  · exact ⟨_, rfl, rfl, rfl⟩

theorem shows_step (s : State) (op : Op) {h : List Check} (hv : Shows s.view h) :
    Shows (step s op).1.view (h ++ checks (step s op).2) := by
  have hsame : ∀ {s' : State} {outs : List Output}, s'.view = s.view → checks outs = [] →
      Shows s'.view (h ++ checks outs) := by
    intro s' outs hview houts
    rw [hview, houts, List.append_nil]
    exact hv
  cases op with
  | speedFrame frame time =>
      exact hv.update ⟨frame, (E2e.check s.e2eSpeed frame.data frame.dlc).1, time⟩
  | softReset => exact hsame rfl rfl
  | setLocalFaultInjection active => exact hsame rfl rfl
  | takeView => exact hsame rfl rfl
  | handleButton pressed => exact hsame (view_handleButton pressed s).1 rfl
  | monitorCycle time =>
      rw [step]
      split
      · rename_i view _
        obtain ⟨outs, houts, hnone, hview⟩ := monitorCycle_eq view time s
        exact hsame hview (by rw [houts]; exact hnone)
      · exact hsame rfl rfl

/-- After any run the view shows the frames checked in it. -/
theorem shows_run (start : Nat) (ops : List Op) :
    Shows (run step (boot start) ops).1.view (checks (run step (boot start) ops).2) := by
  refine run_invariant (fun (s : State) outs => Shows s.view (checks outs)) ?_ [] shows_nil ops
  intro s outs op hv
  rw [checks_append]
  exact shows_step s op hv

/-! ### Healing -/

/-- What the documentation says of `e2eError`: set by a rejected frame, healed after ten good ones. -/
def HealsAsDocumented (start : Nat) (ops : List Op) : Prop :=
  (run step (boot start) ops).1.view.e2eError = true ↔
    Rejected (checks (run step (boot start) ops).2) ∧
      goodSince (checks (run step (boot start) ops).2) < e2eHealFrames

/-- The last rejected frame has been followed by exactly ten good ones. -/
def JustHealed (start : Nat) (ops : List Op) : Prop :=
  Rejected (checks (run step (boot start) ops).2) ∧
    goodSince (checks (run step (boot start) ops).2) = e2eHealFrames

theorem healsAsDocumented_iff_not (start : Nat) (ops : List Op) :
    HealsAsDocumented start ops ↔ ¬ JustHealed start ops := by
  rw [HealsAsDocumented, JustHealed, (shows_run start ops).error]
  generalize goodSince _ = n
  constructor
  · intro hiff ⟨hrejected, hn⟩
    have hfew := (hiff.mp ⟨hrejected, hn.le⟩).2
    omega
  · intro hnot
    refine and_congr_right fun hrejected => ?_
    have hne : n ≠ e2eHealFrames := fun hn => hnot ⟨hrejected, hn⟩
    omega

/-- **When the error heals as documented.** In every run, the error is set and healed as documented
after every step exactly if no rejected frame is followed by ten valid ones. -/
theorem heals_as_documented_iff (start : Nat) (ops : List Op) :
    (∀ past, past <+: ops → HealsAsDocumented start past) ↔
      ∀ past, past <+: ops → ¬ JustHealed start past := by
  simp only [healsAsDocumented_iff_not]

/-- A protected frame that reports 100 km/h. -/
def speedFrame (counter : UInt8) : Diag.CanFrame :=
  .full 0x100 (E2e.protect ⟨[0x03, 0xE8, 0, 0, 0, 0, 0, 0], rfl⟩ counter).1

/-- A frame that is too short, and ten good ones after it. -/
def tenAfterError : List Op :=
  .speedFrame { speedFrame 0 with dlc := 7, dlc_le := by decide } 0 ::
    (List.range 10).map fun k => .speedFrame (speedFrame (UInt8.ofNat k)) (10 * k)

/-- Ten good frames after a rejected one, the error is still set. -/
theorem not_heals_as_documented_tenAfterError :
    ¬ ∀ past, past <+: tenAfterError → HealsAsDocumented 0 past := by
  intro hheals
  have hset : (run step (boot 0) tenAfterError).1.view.e2eError = true := by decide +kernel
  have hten : goodSince (checks (run step (boot 0) tenAfterError).2) = 10 := by decide +kernel
  have hfew := ((hheals tenAfterError List.prefix_rfl).mp hset).2
  rw [hten] at hfew
  exact absurd hfew (by decide)

/-! ### The output -/

/-- What the duty of a cycle may be, given the frames checked when the cycle took its view. -/
structure SafeDuty (h : List Check) (view : SensorView) (now : Nat) (injected : Bool) (duty : Nat) :
    Prop where
  range : duty ≤ pwmMax
  product : view.speedX10.toNat * pwmMax < 2 ^ 32
  quotient : view.speedX10.toNat * pwmMax / sensorSpeedMaxX10 < 2 ^ 16
  fresh : duty ≠ 0 → ∃ c, lastValid h = some c ∧ now ≤ c.time + sensorSpeedTimeoutMs ∧
    c.speedX10 ≤ sensorSpeedMaxX10 ∧ duty = c.speedX10 * pwmMax / sensorSpeedMaxX10
  healthy : duty ≠ 0 → injected = false ∧ (¬ Rejected h ∨ e2eHealFrames ≤ goodSince h)

/-- The last valid frame, if there is one, is less than a wrap of the tick old. -/
def Timely (h : List Check) (now : Nat) : Prop :=
  ∀ c ∈ lastValid h, c.time ≤ now ∧ now < c.time + 2 ^ 32

instance (h : List Check) (now : Nat) : Decidable (Timely h now) :=
  inferInstanceAs (Decidable (∀ c ∈ lastValid h, _))

theorem scaleDuty_eq (speed : UInt16) :
    scaleDuty speed = speed.toNat * pwmMax / sensorSpeedMaxX10 ∧
      speed.toNat * pwmMax < 2 ^ 32 ∧ speed.toNat * pwmMax / sensorSpeedMaxX10 < 2 ^ 16 := by
  have hspeed := speed.toNat_lt
  have hproduct : speed.toNat * pwmMax < 2 ^ 32 := by
    rw [pwmMax]
    omega
  have hquotient : speed.toNat * pwmMax / sensorSpeedMaxX10 < 2 ^ 16 := by
    rw [pwmMax, sensorSpeedMaxX10]
    omega
  rw [scaleDuty, Nat.mod_eq_of_lt hproduct, Nat.mod_eq_of_lt hquotient]
  exact ⟨rfl, hproduct, hquotient⟩

theorem safeDuty_dutyOf {h : List Check} {view : SensorView} (hview : Shows view h) {now : Nat}
    (htimely : Timely h now) (startTick : Nat) (injected : Bool) :
    SafeDuty h view now injected
      (dutyOf (viewFaults view startTick (now % 2 ^ 32) injected) view) := by
  obtain ⟨hscale, hproduct, hquotient⟩ := scaleDuty_eq view.speedX10
  cases hlast : lastValid h with
  | none =>
      -- nothing has been received, and the speed is still zero
      have hzero : dutyOf (viewFaults view startTick (now % 2 ^ 32) injected) view = 0 := by
        rw [dutyOf, hscale, (hview.empty hlast).2]
        exact ite_self 0
      rw [hzero]
      exact ⟨Nat.zero_le _, hproduct, hquotient, absurd rfl, absurd rfl⟩
  | some c =>
      obtain ⟨hreceived, hspeed, htick⟩ := hview.last c hlast
      obtain ⟨hle, hwrap⟩ := htimely c hlast
      have hage : elapsed (now % 2 ^ 32) view.lastValidTick = now - c.time := by
        rw [htick, Memory.elapsed_eq hle hwrap]
      have hfaults : viewFaults view startTick (now % 2 ^ 32) injected =
          { speedTimeout := decide (sensorSpeedTimeoutMs < now - c.time)
            speedRange := decide (sensorSpeedMaxX10 < c.speedX10)
            speedE2e := view.e2eError
            sensorAdc := decide (view.sensorStatus &&& sensorStatusAdcError ≠ 0)
            outputLocal := injected } := by
        rw [viewFaults]
        simp only [hreceived, if_true, hage, hspeed, Bool.true_or, Bool.and_true, Bool.true_and]
      rw [hspeed] at hscale
      rw [dutyOf, hfaults, hscale]
      split
      · exact ⟨Nat.zero_le _, hproduct, hquotient, absurd rfl, absurd rfl⟩
      rename_i hhealthy
      simp only [Bool.or_eq_true, decide_eq_true_eq, not_or, Nat.not_lt, Bool.not_eq_true]
        at hhealthy
      obtain ⟨⟨⟨hfresh, hrange⟩, herror⟩, hinjected⟩ := hhealthy
      refine ⟨?_, hproduct, hquotient, ?_, ?_⟩
      · rw [pwmMax, sensorSpeedMaxX10] at *
        omega
      · intro _
        exact ⟨c, hlast, by omega, hrange, rfl⟩
      · intro _
        refine ⟨hinjected, ?_⟩
        by_contra hunhealed
        rw [not_or, not_not, Nat.not_le] at hunhealed
        have hset := hview.error.mpr ⟨hunhealed.1, hunhealed.2.le⟩
        rw [herror] at hset
        exact Bool.false_ne_true hset

/-- The steps between taking the view and the end of the cycle. -/
def WithinCycle (ops : List Op) : Prop := ∀ op ∈ ops, op ≠ .takeView ∧ ∀ time, op ≠ .monitorCycle time

/-- The cycle keeps the view it has taken, whatever the other task does meanwhile. -/
theorem copy_run {ops : List Op} (hops : WithinCycle ops) (s : State) :
    (run step s ops).1.copy = s.copy := by
  induction ops generalizing s with
  | nil => rfl
  | cons op ops ih =>
      rw [run_cons, ih fun op' hop' => hops op' (List.mem_cons_of_mem op hop')]
      cases op with
      | speedFrame => rfl
      | softReset => rfl
      | setLocalFaultInjection => rfl
      | takeView => exact absurd rfl (hops _ List.mem_cons_self).1
      | handleButton pressed => exact (view_handleButton pressed s).2
      | monitorCycle time => exact absurd rfl ((hops _ List.mem_cons_self).2 time)

/-- **Safe output.** In every run, the duty that a cycle sets lies in its range and is computed
without overflow. It is zero unless, in the view the cycle has taken, a valid frame has been received
at most 100 ms ago whose speed is plausible and determines the duty, the healing of the last error
has seen ten valid frames in a row, and no local fault is injected when the cycle looks. -/
theorem output_safe (start : Nat) (past meanwhile : List Op) (hcycle : WithinCycle meanwhile)
    (now : Nat) (htimely : Timely (checks (run step (boot start) past).2) now) :
    let s := (run step (boot start) (past ++ .takeView :: meanwhile)).1
    ∃ duty outs, (step s (.monitorCycle now)).2 = .setPwm duty :: outs ∧
      SafeDuty (checks (run step (boot start) past).2) (run step (boot start) past).1.view now
        s.localInject duty := by
  intro s
  have hcopy : s.copy = some (run step (boot start) past).1.view := by
    show (run step (boot start) (past ++ .takeView :: meanwhile)).1.copy = _
    rw [run_append, run_cons, copy_run hcycle]
    rfl
  obtain ⟨outs, houts, -⟩ :=
    monitorCycle_eq (run step (boot start) past).1.view now s
  refine ⟨_, outs, ?_, safeDuty_dutyOf (shows_run start past) htimely s.startTick s.localInject⟩
  rw [step, hcopy]
  exact houts

/-- A good frame at 5 ms, seen by the cycle at 10 ms. -/
theorem output_safe_goodFrame :
    let s := (run step (boot 0) ([.speedFrame (speedFrame 0) 5] ++ .takeView ::
      [.handleButton false])).1
    ∃ duty outs, (step s (.monitorCycle 10)).2 = .setPwm duty :: outs ∧
      SafeDuty (checks (run step (boot 0) [.speedFrame (speedFrame 0) 5]).2)
        (run step (boot 0) [.speedFrame (speedFrame 0) 5]).1.view 10 s.localInject duty :=
  output_safe 0 [.speedFrame (speedFrame 0) 5] [.handleButton false]
    (by simp [WithinCycle]) 10 (by decide +kernel)

end MiniEcu.Control
