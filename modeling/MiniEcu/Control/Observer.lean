import MiniEcu.Control.Moves
import MiniEcu.Control.Output
import MiniEcu.Dtc.History
import MiniEcu.E2e.Sequence

/-!
# What a bystander of the Control ECU sees

A bystander who reads the trace of the tasks can say at any time what the state of the firmware is,
as far as the outputs depend on it. It keeps lists of the frames that have been checked and of the
reports, clears and soft resets, and no time wraps around for it. What it knows is enough to judge
every duty, every status frame and every response.
-/

namespace MiniEcu.Control.Tasks

open Diag (CanFrame Record Signals)
open IsoTp (Bytes Event Frame records)
open Trace

/-! ### The bystander -/

/-- What has been noted since the last start. `viewed`, `reported` and `duty` belong to the cycle. -/
structure Watch where
  seen : List Check := []
  viewed : List Check := []
  now : Nat := 0
  faults : Faults := {}
  reported : List (Fault × Bool) := []
  duty : Option Nat := none
  cycles : Nat := 0
  statuses : Nat := 0
  history : List Dtc.Manager.Op := []

namespace Watch

def follow (w : Watch) : Output → Watch
  | .control (.checked frame status time) =>
      { w with seen := w.seen ++ [{ frame := frame, status := status, time := time }] }
  | .control (.setPwm duty) => { w with duty := some duty }
  | .control (.canSend _ _) => { w with statuses := w.statuses + 1 }
  | .diag (.app r) => { w with history := w.history ++ r.dtcOps }
  | .viewed =>
      { w with viewed := w.seen, reported := [], duty := none, cycles := w.cycles + 1 }
  | .clock time => { w with now := time }
  | .setFault fault active => { w with faults := w.faults.set fault active }
  | .reported fault failed =>
      { w with
        reported := w.reported ++ [(fault, failed)]
        history := w.history ++ [.reportResult fault.index.toNat failed] }
  | .restarted _ => {}
  | _ => w

def after (tr : List Output) : Watch := tr.foldl follow {}

/-- The speed of the last valid frame, and the faults as they are. -/
def signals (w : Watch) : Signals where
  speedX10 := (lastValid w.seen).elim 0 fun c => be16 c.frame.data 0
  faultMask := faultMask w.faults

/-- The trouble codes of the history. -/
def dtc (w : Watch) : Dtc.Manager := (Dtc.Manager.resetAll Diag.dtcTable).replay w.history

/-! ### What it expects -/

/-- A duty other than zero is that of a plausible and healthy frame, and all that could have forbidden
it has been reported as passed in this cycle. The frame is fresh unless it is so old that its age has
wrapped. -/
structure Safe (w : Watch) (duty : Nat) : Prop where
  range : duty ≤ pwmMax
  fresh : duty ≠ 0 → ∃ c, lastValid w.viewed = some c ∧ c.speedX10 ≤ sensorSpeedMaxX10 ∧
    duty = c.speedX10 * pwmMax / sensorSpeedMaxX10 ∧
      (w.now < c.time + 2 ^ 32 → w.now ≤ c.time + sensorSpeedTimeoutMs)
  healed : duty ≠ 0 → ¬ Rejected w.viewed ∨ e2eHealFrames ≤ goodSince w.viewed
  passed : duty ≠ 0 → ∀ fault, fault ≠ .sensorAdc → (fault, false) ∈ w.reported

/-- A status frame before it is protected. -/
def payload (w : Watch) (duty : Nat) : Frame where
  bytes :=
    [faultMask w.faults, UInt8.ofNat (w.dtc.countByStatusMask Dtc.statusCdtc),
      UInt8.ofNat (duty >>> 8), UInt8.ofNat (duty &&& 0xFF), 0, 0, 0, 0]
  length_bytes := rfl

/-- A status frame tells the faults that have been reported in this cycle and the duty that has been
set in it, with the number of the frame. Every tenth cycle has one, until the count of the cycles
wraps. -/
structure Truthful (w : Watch) (id : UInt16) (data : Frame) : Prop where
  ident : id = canIdControlStatus
  content : ∃ duty, w.duty = some duty ∧
    data = (E2e.protect (w.payload duty) (UInt8.ofNat (w.statuses % 16))).1
  reported : ∀ fault, (fault, w.faults.get fault) ∈ w.reported
  tenth : w.cycles < 2 ^ 32 → w.cycles = 10 * (w.statuses + 1)

/-- What it expects of an output. When a cycle starts, no status frame is missing. -/
def Expects (w : Watch) : Output → Prop
  | .control (.setPwm duty) => w.Safe duty
  | .control (.canSend id data) => w.Truthful id data
  | .diag (.app r) => r.Answered w.signals w.dtc
  | .viewed => w.cycles < 2 ^ 32 → w.statuses = w.cycles / 10
  | _ => True

end Watch

/-! ### What it knows -/

/-- What the bystander has noted is so. -/
structure Observed (n : State) (w : Watch) : Prop where
  cycling : Cycling n
  shows : Shows n.control.view w.seen
  copied : n.InCycle → Shows n.copy w.viewed
  now : n.monitor.now = w.now % 2 ^ 32
  faults : n.control.faults = w.faults
  reported : n.InCycle → ∀ fault, .reportFault fault ∉ n.monitor.left →
    (fault, w.faults.get fault) ∈ w.reported
  duty : n.InCycle → .setPwm ∉ n.monitor.left → w.duty = some n.monitor.duty
  tick : n.control.tick = w.cycles % 2 ^ 32
  counter : n.control.statusCounter = UInt8.ofNat (w.statuses % 16)
  started : n.InCycle → 0 < w.cycles ∧ (w.cycles < 2 ^ 32 → w.statuses = (w.cycles - 1) / 10)
  ended : ¬ n.InCycle → w.cycles < 2 ^ 32 → w.statuses = w.cycles / 10
  dtc : n.diag.ecu.dtc = w.dtc
  sized : n.diag.ecu.respBuf.length = Diag.diagBufferSize

theorem observed_boot (time : Nat) : Observed (boot time) {} where
  cycling := cycling_boot time
  shows := shows_nil
  copied hcycle := absurd hcycle.2 List.not_mem_nil
  now := rfl
  faults := rfl
  reported hcycle := absurd hcycle.2 List.not_mem_nil
  duty hcycle := absurd hcycle.2 List.not_mem_nil
  tick := rfl
  counter := rfl
  started hcycle := absurd hcycle.2 List.not_mem_nil
  ended _ _ := rfl
  dtc := rfl
  sized := List.length_replicate

variable {n n' : State} {w : Watch}

/-- Where Monitor's part is left alone, the view and the diagnostics have to be looked at. -/
theorem Observed.aside (h : Observed n w) (hcycling : Cycling n') (haside : Aside n n')
    {seen : List Check} {history : List Dtc.Manager.Op}
    (hshows : Shows n'.control.view seen)
    (hdtc : n'.diag.ecu.dtc = ({ w with seen := seen, history := history } : Watch).dtc)
    (hsized : n'.diag.ecu.respBuf.length = Diag.diagBufferSize) :
    Observed n' { w with seen := seen, history := history } := by
  have hcycle : n'.InCycle ↔ n.InCycle := by
    rw [State.InCycle, haside.monitor]
    rfl
  refine
    { cycling := hcycling, shows := hshows, dtc := hdtc, sized := hsized
      copied := fun hin => ?_
      now := ?_
      faults := haside.faults.trans h.faults
      reported := fun hin => ?_
      duty := fun hin => ?_
      tick := haside.tick.trans h.tick
      counter := haside.statusCounter.trans h.counter
      started := fun hin => h.started (hcycle.mp hin)
      ended := fun hout => h.ended (mt hcycle.mpr hout) }
  · rw [State.copy, haside.copy]
    exact h.copied (hcycle.mp hin)
  · rw [haside.monitor]
    exact h.now
  · rw [haside.monitor]
    exact h.reported (hcycle.mp hin)
  · rw [haside.monitor]
    exact h.duty (hcycle.mp hin)

theorem Observed.signals (h : Observed n w) : n.signals = w.signals := by
  have hspeed : n.control.view.speedX10 = w.signals.speedX10 := by
    cases hlast : lastValid w.seen with
    | none =>
        rw [(h.shows.empty hlast).2, Watch.signals, hlast]
        rfl
    | some c =>
        rw [Watch.signals, hlast]
        exact UInt16.toNat_inj.mp (h.shows.last c hlast).2.1
  rw [State.signals, hspeed, h.faults]
  rfl

/-! ### Calls of the diagnostics -/

theorem follow_diag (w : Watch) (es : List (Event Record)) :
    (es.map .diag).foldl Watch.follow w =
      { w with history := w.history ++ (records es).flatMap Record.dtcOps } := by
  induction es generalizing w with
  | nil => rw [List.map_nil, List.foldl_nil, records, List.filterMap_nil, List.flatMap_nil,
      List.append_nil]
  | cons e es ih =>
      rw [List.map_cons, List.foldl_cons, ih]
      cases e with
      | app r =>
          rw [show records (.app r :: es) = r :: records es from rfl, List.flatMap_cons,
            ← List.append_assoc]
          rfl
      | _ => rfl

theorem dtc_history (w : Watch) (ops : List Dtc.Manager.Op) :
    ({ w with history := w.history ++ ops } : Watch).dtc = w.dtc.replay ops := by
  rw [Watch.dtc, Watch.dtc, Dtc.Manager.replay, Dtc.Manager.replay, Dtc.Manager.replay,
    List.foldl_append]

theorem monitored_diag (w : Watch) {es : List (Event Record)}
    (h : Monitored Record.follow (Record.Answered w.signals) w.dtc (records es)) :
    Monitored Watch.follow Watch.Expects w (es.map .diag) := by
  induction es generalizing w with
  | nil => exact monitored_nil w
  | cons e es ih =>
      rw [List.map_cons, monitored_cons]
      cases e with
      | app r =>
          rw [show records (.app r :: es) = r :: records es from rfl, monitored_cons] at h
          refine ⟨h.1, ih _ ?_⟩
          show Monitored _ _ ({ w with history := w.history ++ r.dtcOps } : Watch).dtc _
          rw [dtc_history]
          exact h.2
      | _ => exact ⟨trivial, ih w h⟩

theorem table_dtc (w : Watch) : w.dtc.table.length ≤ Dtc.maxEntries := by
  rw [Watch.dtc, Dtc.Manager.table_replay]
  decide

theorem Observed.answered (h : Observed n w) {es : List (Event Record)} {a : Diag.Ecu}
    (hsteps : Steps (Diag.Reacts n.signals) n.diag.ecu (records es) a) :
    Monitored Watch.follow Watch.Expects w (es.map .diag) ∧
      a.respBuf.length = Diag.diagBufferSize := by
  rw [h.signals] at hsteps
  have htable := table_dtc w
  rw [← h.dtc] at htable
  obtain ⟨hanswered, hsized⟩ := Diag.answered_steps h.sized htable hsteps
  rw [h.dtc] at hanswered
  exact ⟨monitored_diag w hanswered, hsized⟩

theorem Observed.returned (h : Observed n w) {input : Diag.Input} (hinput : input.dtcOps = [])
    {es : List (Event Record)} (hreturned : Returned input n es n') :
    Observed n' ((es.map .diag).foldl Watch.follow w) ∧
      Monitored Watch.follow Watch.Expects w (es.map .diag) := by
  obtain ⟨a, hsteps, -, hrespBuf⟩ := hreturned.reacts hinput
  obtain ⟨hmonitored, hsized⟩ := h.answered hsteps
  refine ⟨?_, hmonitored⟩
  rw [follow_diag]
  refine h.aside (h.cycling.aside hreturned.aside hreturned.running) hreturned.aside ?_ ?_ ?_
  · rw [hreturned.control]
    exact h.shows
  · rw [hreturned.dtc, hinput, List.nil_append, h.dtc]
    exact (dtc_history w _).symm
  · rw [hrespBuf]
    exact hsized

/-! ### Monitor -/

section Exec

variable {stmt : Stmt} {left : List Stmt}

theorem Observed.within (h : Observed n w) (hleft : n.monitor.left = stmt :: left)
    (htake : stmt ≠ .takeView) (hlast : stmt ≠ .sendStatus) {w' : Watch} (hcycling : Cycling n')
    (hleft' : n'.monitor.left = left)
    (hsame : n'.control.view = n.control.view ∧ n'.control.copy = n.control.copy ∧
      n'.control.tick = n.control.tick ∧ n'.control.statusCounter = n.control.statusCounter)
    (hnoted : w'.seen = w.seen ∧ w'.viewed = w.viewed ∧ w'.cycles = w.cycles ∧
      w'.statuses = w.statuses)
    (hnow : n'.monitor.now = w'.now % 2 ^ 32) (hfaults : n'.control.faults = w'.faults)
    (hreported : ∀ fault, .reportFault fault ∉ left → (fault, w'.faults.get fault) ∈ w'.reported)
    (hduty : .setPwm ∉ left → w'.duty = some n'.monitor.duty)
    (hdtc : n'.diag.ecu.dtc = w'.dtc)
    (hsized : n'.diag.ecu.respBuf.length = Diag.diagBufferSize) : Observed n' w' := by
  obtain ⟨hview, hcopy, htick, hcounter⟩ := hsame
  obtain ⟨hseen, hviewed, hcycles, hstatuses⟩ := hnoted
  have hordered := ordered_of_suffix (hleft ▸ h.cycling.suffix)
  have hin : n.InCycle := inCycle_of_ne hleft hordered htake
  have hin' : n'.InCycle := by
    rw [State.InCycle, hleft']
    exact ⟨hordered.takeView, (hordered.last.resolve_left fun hboth => hlast hboth.1).2⟩
  refine
    { cycling := hcycling, now := hnow, faults := hfaults, dtc := hdtc, sized := hsized
      ended := fun hout => absurd hin' hout
      shows := ?_, copied := fun _ => ?_, reported := fun _ => ?_, duty := fun _ => ?_
      tick := ?_, counter := ?_, started := fun _ => ?_ }
  · rw [hview, hseen]
    exact h.shows
  · rw [State.copy, hcopy, hviewed]
    exact h.copied hin
  · rw [hleft']
    exact hreported
  · rw [hleft']
    exact hduty
  · rw [htick, hcycles]
    exact h.tick
  · rw [hcounter, hstatuses]
    exact h.counter
  · rw [hcycles, hstatuses]
    exact h.started hin

theorem counter_succ (k : Nat) :
    (UInt8.ofNat (k % 16) + 1) &&& E2e.counterMask = UInt8.ofNat ((k + 1) % 16) := by
  apply UInt8.toNat_inj.mp
  rw [E2e.toNat_mask, UInt8.toNat_add, UInt8.toNat_ofNat', UInt8.toNat_ofNat', UInt8.toNat_one]
  omega

/-- What a duty other than zero says of the faults. -/
theorem faults_of_dutyOf {f : Faults} {view : SensorView} (h : dutyOf f view ≠ 0) :
    (∀ fault, fault ≠ .sensorAdc → f.get fault = false) ∧ dutyOf f view = scaleDuty view.speedX10 := by
  rw [dutyOf] at h ⊢
  split at h
  · exact absurd rfl h
  rename_i hhealthy
  simp only [Bool.or_eq_true, not_or, Bool.not_eq_true] at hhealthy
  obtain ⟨⟨⟨htimeout, hrange⟩, herror⟩, hinjected⟩ := hhealthy
  refine ⟨fun fault hne => ?_, ?_⟩
  · cases fault <;> first | assumption | exact absurd rfl hne
  · rw [htimeout, hrange, herror, hinjected]
    rfl

/-- A duty other than zero is scaled from a plausible speed that has been received. -/
theorem Observed.scaled (h : Observed n w) (hleft : n.monitor.left = .setPwm :: left)
    (hcopied : Shows n.copy w.viewed) (hne : dutyOf n.control.faults n.copy ≠ 0) :
    ∃ c, lastValid w.viewed = some c ∧ c.speedX10 ≤ sensorSpeedMaxX10 ∧
      dutyOf n.control.faults n.copy = c.speedX10 * pwmMax / sensorSpeedMaxX10 := by
  obtain ⟨hpassed, hduty⟩ := faults_of_dutyOf hne
  obtain ⟨hscale, -, -⟩ := scaleDuty_eq n.copy.speedX10
  rw [hduty, hscale] at hne ⊢
  cases hlast : lastValid w.viewed with
  | none =>
      rw [(hcopied.empty hlast).2] at hne
      exact absurd rfl hne
  | some c =>
      obtain ⟨hreceived, hspeed, -⟩ := hcopied.last c hlast
      have hrange := hpassed .speedRange (by simp)
      rw [h.cycling.faults_eq hleft] at hrange
      refine ⟨c, rfl, ?_, by rw [hspeed]⟩
      by_contra hlarge
      rw [Nat.not_le, ← hspeed] at hlarge
      rw [State.verdicts, viewFaults, Faults.get] at hrange
      simp [hreceived, hlarge] at hrange

/-- The duty that Monitor sets is the expected one. -/
theorem Observed.safe (h : Observed n w) (hleft : n.monitor.left = .setPwm :: left) :
    w.Safe (dutyOf n.control.faults n.copy) := by
  have hordered := ordered_of_suffix (hleft ▸ h.cycling.suffix)
  have hin : n.InCycle := inCycle_of_ne hleft hordered (by simp)
  have hcopied := h.copied hin
  have hfaults := h.cycling.faults_eq hleft
  have hnonzero := @faults_of_dutyOf n.control.faults n.copy
  have hreported : ∀ fault, (fault, w.faults.get fault) ∈ w.reported := fun fault => by
    apply h.reported hin fault
    rw [hleft]
    exact List.not_mem_cons_of_ne_of_not_mem (by simp) (hordered.output rfl fault).2
  refine ⟨?_, fun hne => ?_, fun hne => ?_, fun hne fault hfault => ?_⟩
  · by_cases hzero : dutyOf n.control.faults n.copy = 0
    · rw [hzero]
      exact Nat.zero_le _
    obtain ⟨c, -, hplausible, hscaled⟩ := h.scaled hleft hcopied hzero
    rw [hscaled]
    rw [pwmMax, sensorSpeedMaxX10] at *
    omega
  · obtain ⟨c, hlast, hplausible, hscaled⟩ := h.scaled hleft hcopied hne
    refine ⟨c, hlast, hplausible, hscaled, fun hwrap => ?_⟩
    rcases Nat.lt_or_ge w.now c.time with hahead | hle
    · omega
    · have htimely : Timely w.viewed w.now := fun c' hc' => by
        obtain rfl : c = c' := Option.some.inj (hlast.symm.trans hc')
        exact ⟨hle, hwrap⟩
      have hsafe := safeDuty_dutyOf hcopied htimely n.control.startTick n.control.localInject
      rw [← h.now, ← State.verdicts, ← hfaults] at hsafe
      obtain ⟨c', hlast', hfresh, -⟩ := hsafe.fresh hne
      obtain rfl : c = c' := Option.some.inj (hlast.symm.trans hlast')
      exact hfresh
  · have herror := (hnonzero hne).1 .speedE2e (by simp)
    rw [hfaults] at herror
    by_contra hunhealed
    rw [not_or, not_not, Nat.not_le] at hunhealed
    have hset := hcopied.error.mpr ⟨hunhealed.1, hunhealed.2.le⟩
    rw [show n.copy.e2eError = n.verdicts.get .speedE2e from rfl, herror] at hset
    exact Bool.false_ne_true hset
  · have hpassed := (hnonzero hne).1 fault hfault
    rw [h.faults] at hpassed
    rw [← hpassed]
    exact hreported fault

theorem Observed.truthful (h : Observed n w) (hleft : n.monitor.left = [.sendStatus])
    (htenth : n.control.tick % 10 = 0) :
    ∃ data, (sendStatusFrame n.monitor.duty n.control).2 = [.canSend canIdControlStatus data] ∧
      w.Truthful canIdControlStatus data := by
  have hordered := ordered_of_suffix (hleft ▸ h.cycling.suffix)
  have hin : n.InCycle := inCycle_of_ne hleft hordered (by simp)
  obtain ⟨hpos, hstatuses⟩ := h.started hin
  refine ⟨_, rfl, rfl, ⟨n.monitor.duty, h.duty hin (by simp [hleft]), ?_⟩, ?_, ?_⟩
  · simp only [Watch.payload, ← h.faults, ← h.dtc, ← n.shared, ← h.counter]
    rfl
  · exact fun fault => h.reported hin fault (by simp [hleft])
  · intro hlt
    have hcount := hstatuses hlt
    rw [h.tick, Nat.mod_eq_of_lt hlt] at htenth
    omega

theorem Observed.finish (h : Observed n w) {statuses : Nat} (hcycling : Cycling n')
    (hleft : n'.monitor = { n.monitor with left := [] })
    (hsame : n'.control.view = n.control.view ∧ n'.control.faults = n.control.faults ∧
      n'.control.tick = n.control.tick ∧ n'.diag = n.diag)
    (hcounter : n'.control.statusCounter = UInt8.ofNat (statuses % 16))
    (hstatuses : w.cycles < 2 ^ 32 → statuses = w.cycles / 10) :
    Observed n' { w with statuses := statuses } := by
  obtain ⟨hview, hfaults, htick, hdiag⟩ := hsame
  have hout : ¬ n'.InCycle := by
    rw [State.InCycle, hleft]
    exact fun hin => absurd hin.2 List.not_mem_nil
  refine
    { cycling := hcycling, counter := hcounter, ended := fun _ => hstatuses
      copied := fun hin => absurd hin hout, reported := fun hin => absurd hin hout
      duty := fun hin => absurd hin hout, started := fun hin => absurd hin hout
      faults := hfaults.trans h.faults, tick := htick.trans h.tick
      shows := ?_, now := ?_, dtc := ?_, sized := ?_ }
  · rw [hview]
    exact h.shows
  · rw [hleft]
    exact h.now
  · rw [hdiag]
    exact h.dtc
  · rw [hdiag]
    exact h.sized

/-- Every statement of Monitor does what is expected of it. -/
theorem Observed.exec (h : Observed n w) (time : Nat) (pressed : Bool)
    (hleft : n.monitor.left = stmt :: left) :
    let next := exec time pressed { n with monitor := { n.monitor with left := left } } stmt
    Observed next.1 (next.2.foldl Watch.follow w) ∧
      Monitored Watch.follow Watch.Expects w next.2 := by
  have hcycling := h.cycling.exec time pressed hleft
  have hordered := ordered_of_suffix (hleft ▸ h.cycling.suffix)
  -- what has been reported and set before this statement
  have hreported : stmt ≠ .takeView → (∀ fault, stmt ≠ .reportFault fault) →
      ∀ fault, .reportFault fault ∉ left → (fault, w.faults.get fault) ∈ w.reported := by
    intro htake hne fault hnot
    apply h.reported (inCycle_of_ne hleft hordered htake) fault
    rw [hleft]
    exact List.not_mem_cons_of_ne_of_not_mem (Ne.symm (hne fault)) hnot
  have hduty : stmt ≠ .takeView → stmt ≠ .setPwm → .setPwm ∉ left →
      w.duty = some n.monitor.duty := by
    intro htake hne hnot
    apply h.duty (inCycle_of_ne hleft hordered htake)
    rw [hleft]
    exact List.not_mem_cons_of_ne_of_not_mem (Ne.symm hne) hnot
  cases stmt with
  | takeView =>
      obtain ⟨hpwm, hall⟩ := hordered.early (.inl rfl)
      have hout : ¬ n.InCycle := fun hin => hin.1 (by rw [hleft]; exact List.mem_cons_self)
      have hstatuses := h.ended hout
      have hin : State.InCycle (Tasks.exec time pressed
          { n with monitor := { n.monitor with left := left } } .takeView).1 :=
        ⟨hordered.takeView, (hordered.last.resolve_left (by simp)).2⟩
      refine ⟨⟨hcycling, h.shows, fun _ => h.shows, h.now, h.faults,
        fun _ fault hnot => absurd (hall fault) hnot, fun _ hnot => absurd hpwm hnot, ?_, h.counter,
        fun _ => ⟨Nat.succ_pos _, fun hlt => ?_⟩, fun hnot => absurd hin hnot, h.dtc, h.sized⟩,
        (monitored_cons _ _ _).mpr ⟨hstatuses, monitored_nil _⟩⟩
      · show (n.control.tick + 1) % 2 ^ 32 = (w.cycles + 1) % 2 ^ 32
        rw [h.tick]
        omega
      · exact hstatuses (Nat.lt_of_succ_lt hlt)
  | readClock =>
      refine ⟨h.within hleft (by simp) (by simp) hcycling rfl ⟨rfl, rfl, rfl, rfl⟩
        ⟨rfl, rfl, rfl, rfl⟩ rfl h.faults (hreported (by simp) (by simp))
        (hduty (by simp) (by simp)) h.dtc h.sized,
        (monitored_cons _ _ _).mpr ⟨trivial, monitored_nil _⟩⟩
  | setFault fault =>
      obtain ⟨-, hall⟩ := hordered.early (.inr (.inr (.inr ⟨fault, rfl⟩)))
      refine ⟨h.within hleft (by simp) (by simp) hcycling rfl ⟨rfl, rfl, rfl, rfl⟩
        ⟨rfl, rfl, rfl, rfl⟩ h.now ?_ (fun fault' hnot => absurd (hall fault') hnot)
        (hduty (by simp) (by simp)) h.dtc h.sized,
        (monitored_cons _ _ _).mpr ⟨trivial, monitored_nil _⟩⟩
      show n.control.faults.set fault _ = w.faults.set fault _
      rw [h.faults]
  | handleButton =>
      obtain ⟨hcopy, -, hfaults, hview, -, htick, hcounter⟩ := aside_handleButton pressed n.control
      exact ⟨h.within hleft (by simp) (by simp) hcycling rfl ⟨hview, hcopy, htick, hcounter⟩
        ⟨rfl, rfl, rfl, rfl⟩ h.now (hfaults.trans h.faults) (hreported (by simp) (by simp))
        (hduty (by simp) (by simp)) h.dtc h.sized,
        (monitored_cons _ _ _).mpr ⟨trivial, monitored_nil _⟩⟩
  | reportFault fault =>
      obtain ⟨houts, hreturned⟩ := callDiag_reportFault
        (s := { n with monitor := { n.monitor with left := left } }) h.cycling.running fault.index
        (n.control.faults.get fault) (still time)
      have hsized := respBuf_reportFault
        (s := { n with monitor := { n.monitor with left := left } }) h.cycling.running fault.index
        (n.control.faults.get fault) (still time)
      have haside := hreturned.aside
      simp only [Tasks.exec, houts]
      refine ⟨h.within hleft (by simp) (by simp) hcycling ?_ ⟨?_, haside.copy, haside.tick,
        haside.statusCounter⟩ ⟨rfl, rfl, rfl, rfl⟩ ?_ (haside.faults.trans h.faults) ?_ ?_ ?_ ?_,
        (monitored_cons _ _ _).mpr ⟨trivial, monitored_nil _⟩⟩
      · rw [haside.monitor]
      · rw [hreturned.control]
      · rw [haside.monitor]
        exact h.now
      · intro fault' hnot
        apply List.mem_append.mpr
        by_cases hne : fault' = fault
        · rw [hne, h.faults]
          exact .inr (List.mem_singleton.mpr rfl)
        · refine .inl (h.reported (inCycle_of_ne hleft hordered (by simp)) fault' ?_)
          rw [hleft]
          exact List.not_mem_cons_of_ne_of_not_mem (by simp [hne]) hnot
      · rw [haside.monitor]
        exact hduty (by simp) (by simp)
      · rw [hreturned.dtc]
        show n.diag.ecu.dtc.replay _ = ({ w with history := w.history ++ _ } : Watch).dtc
        rw [dtc_history, h.dtc]
        rfl
      · rw [hsized]
        exact h.sized
  | setPwm =>
      exact ⟨h.within hleft (by simp) (by simp) hcycling rfl ⟨rfl, rfl, rfl, rfl⟩
        ⟨rfl, rfl, rfl, rfl⟩ h.now h.faults (hreported (by simp) (by simp)) (fun _ => rfl) h.dtc
        h.sized, (monitored_cons _ _ _).mpr ⟨h.safe hleft, monitored_nil _⟩⟩
  | sendStatus =>
      obtain rfl : left = [] := (hordered.last.resolve_right (by simp)).2
      have hin : n.InCycle := inCycle_of_ne hleft hordered (by simp)
      obtain ⟨hpos, hstatuses⟩ := h.started hin
      rw [Tasks.exec] at hcycling ⊢
      split
      · rename_i htenth
        rw [if_pos htenth] at hcycling
        have htenth : n.control.tick % 10 = 0 := htenth
        obtain ⟨data, hsent, htruthful⟩ := h.truthful hleft htenth
        rw [show (sendStatusFrame _ _).2 = _ from hsent]
        refine ⟨h.finish hcycling rfl ⟨rfl, rfl, rfl, rfl⟩ ?_ ?_,
          (monitored_cons _ _ _).mpr ⟨htruthful, monitored_nil _⟩⟩
        · rw [← counter_succ, ← h.counter]
          rfl
        · intro hlt
          have hcount := hstatuses hlt
          rw [h.tick, Nat.mod_eq_of_lt hlt] at htenth
          omega
      · rename_i hother
        rw [if_neg hother] at hcycling
        have hother : ¬ n.control.tick % 10 = 0 := hother
        refine ⟨h.finish hcycling rfl ⟨rfl, rfl, rfl, rfl⟩ h.counter ?_,
          monitored_nil _⟩
        intro hlt
        have hcount := hstatuses hlt
        rw [h.tick, Nat.mod_eq_of_lt hlt] at hother
        omega

end Exec

/-! ### Moves -/

/-- Every move does what is expected of it, and the bystander follows. -/
theorem observed_move (h : Observed n w) {outs : List Output} (hmove : Move n outs n') :
    Observed n' (outs.foldl Watch.follow w) ∧ Monitored Watch.follow Watch.Expects w outs := by
  have hcycling := h.cycling.move hmove
  cases hmove with
  | received frame =>
      obtain ⟨hdiag, hcontrol⟩ := running_onCanRx frame n
      have hquiet : (onCanRx frame n).2.foldl Watch.follow w = w ∧
          Monitored Watch.follow Watch.Expects w (onCanRx frame n).2 := by
        rw [onCanRx]
        split <;> exact ⟨rfl, (monitored_cons _ _ _).mpr ⟨trivial, monitored_nil _⟩⟩
      rw [hquiet.1]
      refine ⟨h.aside hcycling (aside_onCanRx frame n) ?_ ?_ ?_, hquiet.2⟩
      · rw [hcontrol]
        exact h.shows
      · rw [hdiag]
        exact h.dtc
      · rw [hdiag]
        exact h.sized
  | taken =>
      exact ⟨h.aside hcycling ⟨rfl, rfl, rfl, rfl, rfl, rfl, rfl, rfl⟩ h.shows h.dtc h.sized,
        (monitored_cons _ _ _).mpr ⟨trivial, monitored_nil _⟩⟩
  | speedFrame frame time =>
      exact ⟨h.aside hcycling ⟨rfl, rfl, rfl, rfl, rfl, rfl, rfl, rfl⟩
          (h.shows.update ⟨frame, (E2e.check n.control.e2eSpeed frame.data frame.dlc).1, time⟩)
          h.dtc h.sized,
        (monitored_cons _ _ _).mpr ⟨trivial, monitored_nil _⟩⟩
  | aliveFrame =>
      exact ⟨h.aside hcycling ⟨rfl, rfl, rfl, rfl, rfl, rfl, rfl, rfl⟩ h.shows h.dtc h.sized,
        monitored_nil _⟩
  | countRequest =>
      exact ⟨h.aside hcycling ⟨rfl, rfl, rfl, rfl, rfl, rfl, rfl, rfl⟩ h.shows h.dtc h.sized,
        monitored_nil _⟩
  | returned hinput hreturned => exact h.returned hinput hreturned
  | restarted time hsteps =>
      obtain ⟨a, hsteps⟩ := hsteps
      obtain ⟨hmonitored, -⟩ := h.answered hsteps
      rw [List.foldl_append]
      exact ⟨observed_boot time, (monitored_append _ _ _).mpr
        ⟨hmonitored, (monitored_cons _ _ _).mpr ⟨trivial, monitored_nil _⟩⟩⟩
  | wait hleft =>
      have hout : ¬ n.InCycle := by
        rw [State.InCycle, hleft]
        exact fun hin => absurd hin.2 List.not_mem_nil
      have hcycle : .takeView ∈ cycle := List.mem_cons_self
      exact ⟨⟨hcycling, h.shows, fun hin => absurd hcycle hin.1, h.now, h.faults,
          fun hin => absurd hcycle hin.1, fun hin => absurd hcycle hin.1, h.tick, h.counter,
          fun hin => absurd hcycle hin.1, fun _ => h.ended hout, h.dtc, h.sized⟩, monitored_nil _⟩
  | exec time pressed hleft => exact h.exec time pressed hleft

/-- What the bystander has noted is so after every run, and all its expectations have been met. -/
theorem observed_run (start : Nat) (ops : List Op) :
    Observed (run step (boot start) ops).1 (Watch.after (run step (boot start) ops).2) ∧
      Monitored Watch.follow Watch.Expects {} (run step (boot start) ops).2 := by
  refine moves_invariant
    (fun (n : State) tr => Observed n (Watch.after tr) ∧ Monitored Watch.follow Watch.Expects {} tr)
    ?_ [] ⟨observed_boot start, monitored_nil _⟩ ops
  intro n tr outs n' h hmove
  obtain ⟨hobserved, hmonitored⟩ := observed_move h.1 hmove
  refine ⟨?_, (monitored_append _ _ _).mpr ⟨h.2, hmonitored⟩⟩
  rw [Watch.after, List.foldl_append]
  exact hobserved

/-! ### What holds in every run -/

section Run

variable (start : Nat) (ops : List Op) (before : List Output)

/-- **Safe output of the whole ECU.** In every run of the tasks, wherever Monitor is interrupted, each
duty lies in its range. One other than zero is that of the last valid frame there was when Monitor
took its copy of the view, which is plausible and healed of all errors before it; and the faults that
forbid an output have all been reported as passed in the same cycle. The frame is not older than
100 ms if it is less than `2 ^ 32` ms old, where its age does not wrap. -/
theorem duty_safe (duty : Nat) (after : List Output)
    (hsplit : (run step (boot start) ops).2 = before ++ .control (.setPwm duty) :: after) :
    (Watch.after before).Safe duty :=
  (observed_run start ops).2 before _ after hsplit

/-- A good frame, a turn of ComRx, and a cycle of Monitor. -/
def goodCycle : List Op :=
  .canRx (speedFrame 0) :: .comRx { time := 5, onFrame := still 5, mainFunction := still 5 } ::
    List.replicate 16 (.monitor 10 false)

/-- The duty that is set then. -/
theorem duty_safe_goodCycle : (Watch.after ((run step (boot 0) goodCycle).2.take 16)).Safe 400 :=
  duty_safe 0 goodCycle ((run step (boot 0) goodCycle).2.take 16) 400
    ((run step (boot 0) goodCycle).2.drop 17) (by decide +kernel)

/-- **The diagnostics answer from what is the case.** In every run, the response to a request is one
that the grammar gives for the speed of the last valid frame, the faults as they are at that moment,
and the trouble codes that follow from the reports, clears and soft resets since the last start. -/
theorem request_answered (r : Diag.Request) (response : Bytes) (after : List Output)
    (hreq : r.bytes ≠ [])
    (hsplit : (run step (boot start) ops).2 = before ++ .diag (.app (.request r response)) :: after) :
    Diag.Answer (Watch.after before).signals (Watch.after before).dtc r response :=
  (observed_run start ops).2 before _ after hsplit hreq

/-- A good frame and a cycle of Monitor, a frame with a wrong checksum and another cycle, and then a
request for the speed and the faults. -/
def speedAndFaultsRead : List Op :=
  goodCycle ++
    .canRx (.full 0x100 ⟨[1, 2, 3, 4, 5, 6, 7, 8], rfl⟩) ::
      .comRx { time := 15, onFrame := still 15, mainFunction := still 15 } ::
        List.replicate 16 (.monitor 20 false) ++
    [.canRx (.full 0x7E0 ⟨[0x05, 0x22, 0x01, 0x00, 0x01, 0x01, 0, 0], rfl⟩),
      .comRx { time := 25, onFrame := still 25, mainFunction := still 25 }]

/-- The speed is that of the good frame, and the fault that of the other. -/
theorem request_answered_speedAndFaults :
    let w := Watch.after ((run step (boot 0) speedAndFaultsRead).2.take 38)
    Diag.Answer w.signals w.dtc
      { session := .default, bytes := [0x22, 0x01, 0x00, 0x01, 0x01], functional := false }
      [0x62, 0x01, 0x00, 0x03, 0xE8, 0x01, 0x01, 0x04] :=
  request_answered 0 speedAndFaultsRead ((run step (boot 0) speedAndFaultsRead).2.take 38)
    { session := .default, bytes := [0x22, 0x01, 0x00, 0x01, 0x01], functional := false }
    [0x62, 0x01, 0x00, 0x03, 0xE8, 0x01, 0x01, 0x04]
    ((run step (boot 0) speedAndFaultsRead).2.drop 39) (by decide) (by decide +kernel)

/-- **The trouble codes mean what has happened.** After every run, each bit of each status byte that
Monitor and the diagnostics share says of the reports of Monitor, the clears and the soft resets since
the last start what it stands for. -/
theorem codes_mean_history {i : Nat} {c : Dtc.Config} (hc : Diag.dtcTable[i]? = some c) :
    let n := (run step (boot start) ops).1
    Dtc.Means c i (Watch.after (run step (boot start) ops).2).history
      (Dtc.bits (n.control.dtc.getStatus i)) := by
  intro n
  obtain ⟨e, he, hsum⟩ := Dtc.summary_replay hc
    (Watch.after (run step (boot start) ops).2).history
  rw [n.shared, (observed_run start ops).1.dtc, Watch.dtc, Dtc.getStatus_eq he]
  exact hsum.means

/-- The first code after a cycle with a good frame. -/
theorem codes_mean_history_goodCycle :
    let n := (run step (boot 0) goodCycle).1
    Dtc.Means { code := 0xC10087, confirmThreshold := 1 } 0
      (Watch.after (run step (boot 0) goodCycle).2).history (Dtc.bits (n.control.dtc.getStatus 0)) :=
  codes_mean_history 0 goodCycle rfl

end Run

end MiniEcu.Control.Tasks
