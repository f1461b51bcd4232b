import MiniEcu.Dtc.Manager
import MiniEcu.Lib.Windows
import Mathlib.Tactic.Common

/-!
# What a status byte says about the history

Every bit of a status byte, and the failure counter behind it, summarises a window of the calls
made so far: the reports since the last clear, those of the current operation cycle, or those of
the last two cycles. The meaning is stated over the history alone. One call moves both sides in the
same way, so they agree after every history.
-/

namespace MiniEcu.Dtc

open History Manager

/-! ### Bits -/

/-- A status byte, bit by bit. -/
@[ext] structure Bits where
  testFailed : Bool
  testFailedThisOperationCycle : Bool
  pendingDtc : Bool
  confirmedDtc : Bool
  testNotCompletedSinceLastClear : Bool
  testFailedSinceLastClear : Bool
  testNotCompletedThisOperationCycle : Bool
  warningIndicatorRequested : Bool
deriving Repr, DecidableEq

def has (status mask : UInt8) : Bool := status &&& mask != 0

def bits (status : UInt8) : Bits where
  testFailed := has status statusTf
  testFailedThisOperationCycle := has status statusTftoc
  pendingDtc := has status statusPdtc
  confirmedDtc := has status statusCdtc
  testNotCompletedSinceLastClear := has status statusTncslc
  testFailedSinceLastClear := has status statusTfslc
  testNotCompletedThisOperationCycle := has status statusTnctoc
  warningIndicatorRequested := has status statusWir

theorem has_eq_false {status mask : UInt8} : has status mask = false ↔ status &&& mask = 0 := by
  simp [has]

theorem and_or_distrib (s t m : UInt8) : (s ||| t) &&& m = s &&& m ||| t &&& m := by
  apply UInt8.toBitVec_inj.mp
  ext k
  simp [Bool.and_or_distrib_right]

theorem or_eq_zero {s t : UInt8} : s ||| t = 0 ↔ s = 0 ∧ t = 0 := by
  rw [← UInt8.toBitVec_inj, ← UInt8.toBitVec_inj, ← UInt8.toBitVec_inj]
  exact BitVec.or_eq_zero_iff

theorem has_or (status set mask : UInt8) :
    has (status ||| set) mask = (has status mask || has set mask) := by
  have hzero : (status ||| set) &&& mask = 0 ↔ status &&& mask = 0 ∧ set &&& mask = 0 := by
    rw [and_or_distrib, or_eq_zero]
  rw [Bool.eq_iff_iff, Bool.or_eq_true, has, has, has, bne_iff_ne, bne_iff_ne, bne_iff_ne, ne_eq,
    hzero, Decidable.not_and_iff_not_or_not]

theorem has_ite (c : Prop) [Decidable c] (s t mask : UInt8) :
    has (if c then s else t) mask = if c then has s mask else has t mask := by
  split <;> rfl

theorem has_kept {kept mask : UInt8} (h : kept &&& mask = mask) (status : UInt8) :
    has (status &&& kept) mask = has status mask := by
  rw [has, UInt8.and_assoc, h, has]

theorem has_cleared {kept mask : UInt8} (h : kept &&& mask = 0) (status : UInt8) :
    has (status &&& kept) mask = false := by
  rw [has, UInt8.and_assoc, h, UInt8.and_zero, bne_self_eq_false]

theorem has_set {set mask : UInt8} (h : has set mask = true) (status : UInt8) :
    has (status ||| set) mask = true := by
  rw [has_or, h, Bool.or_true]

theorem has_spared {set mask : UInt8} (h : has set mask = false) (status : UInt8) :
    has (status ||| set) mask = has status mask := by
  rw [has_or, h, Bool.or_false]

theorem bits_reportResult_failed (e : Entry) (threshold : UInt8) :
    bits (e.reportResult threshold true).status = { bits e.status with
      testFailed := true
      testFailedThisOperationCycle := true
      pendingDtc := true
      testFailedSinceLastClear := true
      testNotCompletedSinceLastClear := false
      testNotCompletedThisOperationCycle := false
      confirmedDtc := (bits e.status).confirmedDtc || threshold ≤
          (e.reportResult threshold true).failCount } := by
  simp only [bits, Entry.reportResult, if_true, has_ite]
  simp (disch := decide) only [has_set, has_spared, has_kept, has_cleared, ite_self]
  generalize (if e.failCount < 0xFF then e.failCount + 1 else e.failCount) = failCount
  by_cases h : threshold ≤ failCount <;> simp [h]

theorem bits_reportResult_passed (e : Entry) (threshold : UInt8) :
    bits (e.reportResult threshold false).status = { bits e.status with
      testFailed := false
      testNotCompletedSinceLastClear := false
      testNotCompletedThisOperationCycle := false } := by
  simp only [bits, Entry.reportResult, Bool.false_eq_true, if_false]
  simp (disch := decide) only [has_kept, has_cleared]

theorem bits_startOperationCycle (e : Entry) :
    bits e.startOperationCycle.status = { bits e.status with
      testFailedThisOperationCycle := false
      pendingDtc := (bits e.status).pendingDtc && (bits e.status).testFailedThisOperationCycle
      testNotCompletedThisOperationCycle := true } := by
  simp only [bits, Entry.startOperationCycle, ← has_eq_false]
  simp (disch := decide) only [has_ite, has_set, has_spared, has_kept, has_cleared, ite_self]
  cases has e.status statusTftoc <;> simp

/-! ### Histories -/

/-- The result a call reports for entry `i`. -/
def resultOf (i : Nat) : Op → Option Bool
  | .reportResult j failed => if j = i then some failed else none
  | .startOperationCycle => none
  | .clearAll => none

def isClear : Op → Bool
  | .clearAll => true
  | _ => false

def endsCycle : Op → Bool
  | .reportResult _ _ => false
  | _ => true

/-- The results reported for entry `i`, the latest one last. -/
def results (i : Nat) (h : List Op) : List Bool := h.filterMap (resultOf i)

def sinceClear (i : Nat) (h : List Op) : List Bool := results i (since isClear h)

/-- A clear starts the current cycle anew. -/
def thisCycle (i : Nat) (h : List Op) : List Bool := results i (since endsCycle h)

/-- Some failure has not been cleared, and at most one operation cycle has been started after it. -/
def FailedInLastTwoCycles (i : Nat) (h : List Op) : Prop :=
  Followed (.reportResult i true)
    (fun after => Op.clearAll ∉ after ∧ after.count .startOperationCycle ≤ 1) h

/-- What the bits of entry `i` say after a history. -/
structure Means (c : Config) (i : Nat) (h : List Op) (b : Bits) : Prop where
  testFailed : b.testFailed = true ↔ (sinceClear i h).getLast? = some true
  testFailedThisOperationCycle : b.testFailedThisOperationCycle = true ↔ true ∈ thisCycle i h
  pendingDtc : b.pendingDtc = true ↔ FailedInLastTwoCycles i h
  confirmedDtc : b.confirmedDtc = true ↔
    List.replicate (max c.confirmThreshold.toNat 1) true <:+: sinceClear i h
  testNotCompletedSinceLastClear : b.testNotCompletedSinceLastClear = true ↔ sinceClear i h = []
  testFailedSinceLastClear : b.testFailedSinceLastClear = true ↔ true ∈ sinceClear i h
  testNotCompletedThisOperationCycle :
    b.testNotCompletedThisOperationCycle = true ↔ thisCycle i h = []
  warningIndicatorRequested : b.warningIndicatorRequested = false

/-- The counter behind the bits is the current streak of failures, as far as a byte counts. -/
structure Summary (c : Config) (i : Nat) (h : List Op) (e : Entry) : Prop where
  means : Means c i h (bits e.status)
  failCount : e.failCount.toNat = min 0xFF (streak true (sinceClear i h))

/-! ### One more call -/

theorem sinceClear_report_self (i : Nat) (failed : Bool) (h : List Op) :
    sinceClear i (h ++ [.reportResult i failed]) = sinceClear i h ++ [failed] := by
  rw [sinceClear, since_concat_open rfl]
  simp [sinceClear, results, resultOf]

theorem sinceClear_report_of_ne {i j : Nat} (hne : j ≠ i) (failed : Bool) (h : List Op) :
    sinceClear i (h ++ [.reportResult j failed]) = sinceClear i h := by
  rw [sinceClear, since_concat_open rfl]
  simp [sinceClear, results, resultOf, hne]

theorem sinceClear_start (i : Nat) (h : List Op) :
    sinceClear i (h ++ [.startOperationCycle]) = sinceClear i h := by
  rw [sinceClear, since_concat_open rfl]
  simp [sinceClear, results, resultOf]

theorem sinceClear_clear (i : Nat) (h : List Op) : sinceClear i (h ++ [.clearAll]) = [] := by
  rw [sinceClear, since_concat_closing rfl]
  rfl

theorem thisCycle_report_self (i : Nat) (failed : Bool) (h : List Op) :
    thisCycle i (h ++ [.reportResult i failed]) = thisCycle i h ++ [failed] := by
  rw [thisCycle, since_concat_open rfl]
  simp [thisCycle, results, resultOf]

theorem thisCycle_report_of_ne {i j : Nat} (hne : j ≠ i) (failed : Bool) (h : List Op) :
    thisCycle i (h ++ [.reportResult j failed]) = thisCycle i h := by
  rw [thisCycle, since_concat_open rfl]
  simp [thisCycle, results, resultOf, hne]

theorem thisCycle_ends {op : Op} (hop : endsCycle op = true) (i : Nat) (h : List Op) :
    thisCycle i (h ++ [op]) = [] := by
  rw [thisCycle, since_concat_closing hop]
  rfl

/-- A failure in the current cycle is one that nothing but reports follow. -/
theorem mem_thisCycle_iff {i : Nat} {h : List Op} :
    true ∈ thisCycle i h ↔
      Followed (.reportResult i true) (fun after => ∀ op ∈ after, endsCycle op = false) h := by
  rw [← mem_since_iff rfl, thisCycle, results, List.mem_filterMap]
  constructor
  · intro ⟨op, hmem, hop⟩
    cases op with
    | reportResult j failed =>
        simp only [resultOf] at hop
        split at hop
        next hji =>
          obtain rfl := hji
          obtain rfl := Option.some.inj hop
          exact hmem
        next => cases hop
    | startOperationCycle => cases hop
    | clearAll => cases hop
  · intro hmem
    exact ⟨_, hmem, by simp [resultOf]⟩

theorem endsCycle_eq_false_iff {ops : List Op} :
    (∀ op ∈ ops, endsCycle op = false) ↔ .clearAll ∉ ops ∧ .startOperationCycle ∉ ops := by
  constructor
  · intro hops
    exact ⟨fun hmem => absurd (hops _ hmem) (by decide), fun hmem => absurd (hops _ hmem) (by decide)⟩
  · intro ⟨hclear, hstart⟩ op hop
    cases op with
    | reportResult j failed => rfl
    | startOperationCycle => exact absurd hop hstart
    | clearAll => exact absurd hop hclear

theorem failedInLastTwoCycles_report (i j : Nat) (failed : Bool) (h : List Op) :
    FailedInLastTwoCycles i (h ++ [.reportResult j failed]) ↔
      (j = i ∧ failed = true) ∨ FailedInLastTwoCycles i h := by
  rw [FailedInLastTwoCycles, followed_concat]
  refine or_congr (by simp) (followed_congr ?_ h)
  intro after
  simp [List.count_append]

theorem failedInLastTwoCycles_start (i : Nat) (h : List Op) :
    FailedInLastTwoCycles i (h ++ [.startOperationCycle]) ↔ true ∈ thisCycle i h := by
  rw [FailedInLastTwoCycles, followed_concat, mem_thisCycle_iff]
  simp only [reduceCtorEq, false_and, false_or]
  apply followed_congr
  intro after
  rw [endsCycle_eq_false_iff]
  simp [List.count_append, List.count_eq_zero]

theorem not_failedInLastTwoCycles_clear (i : Nat) (h : List Op) :
    ¬ FailedInLastTwoCycles i (h ++ [.clearAll]) := by
  rw [FailedInLastTwoCycles, followed_concat]
  simp only [reduceCtorEq, false_and, false_or]
  apply not_followed_of_false
  intro after hafter
  exact hafter.1 (by simp)

theorem failedInLastTwoCycles_of_mem {i : Nat} {h : List Op} (hmem : true ∈ thisCycle i h) :
    FailedInLastTwoCycles i h := by
  obtain ⟨before, after, hsplit, hopen⟩ := mem_thisCycle_iff.mp hmem
  obtain ⟨hclear, hstart⟩ := endsCycle_eq_false_iff.mp hopen
  refine ⟨before, after, hsplit, hclear, ?_⟩
  rw [List.count_eq_zero.mpr hstart]
  exact Nat.zero_le 1

theorem toNat_threshold (c : Config) : c.threshold.toNat = max c.confirmThreshold.toNat 1 := by
  rw [Config.threshold]
  by_cases hzero : c.confirmThreshold = 0
  · simp [hzero]
  · have hpos : c.confirmThreshold.toNat ≠ 0 := fun h => hzero (UInt8.toNat_inj.mp h)
    rw [if_neg hzero]
    omega

theorem failCount_reportResult_failed (e : Entry) (threshold : UInt8) :
    (e.reportResult threshold true).failCount.toNat = min 0xFF (e.failCount.toNat + 1) := by
  have hbyte := e.failCount.toNat_lt
  simp only [Entry.reportResult, if_true]
  split
  next hlt =>
    have hlt' : e.failCount.toNat < 0xFF := UInt8.lt_iff_toNat_lt.mp hlt
    rw [UInt8.toNat_add, show (1 : UInt8).toNat = 1 from rfl]
    omega
  next hge =>
    have hge' : ¬ e.failCount.toNat < 0xFF := fun h => hge (UInt8.lt_iff_toNat_lt.mpr h)
    omega

section Step

variable {c : Config} {i : Nat} {h : List Op} {e : Entry}

/-- The counter reaches the threshold exactly when the streak does, however long the streak is. -/
theorem threshold_le_iff {n : Nat} (count : UInt8) (hcount : count.toNat = min 0xFF n) :
    c.threshold ≤ count ↔ max c.confirmThreshold.toNat 1 ≤ n := by
  have hbyte := c.threshold.toNat_lt
  have hthreshold := toNat_threshold c
  rw [UInt8.le_iff_toNat_le]
  omega

theorem summary_initial (hempty : sinceClear i h = []) (hcycle : thisCycle i h = [])
    (hpending : ¬ FailedInLastTwoCycles i h) : Summary c i h Entry.initial where
  means := {
    testFailed := by
      rw [hempty]
      decide
    testFailedThisOperationCycle := by
      rw [hcycle]
      decide
    pendingDtc := iff_of_false (by decide) hpending
    confirmedDtc := by
      apply iff_of_false (by decide)
      rw [hempty, List.infix_nil, List.replicate_eq_nil_iff]
      omega
    testNotCompletedSinceLastClear := iff_of_true (by decide) hempty
    testFailedSinceLastClear := by
      rw [hempty]
      decide
    testNotCompletedThisOperationCycle := iff_of_true (by decide) hcycle
    warningIndicatorRequested := by decide }
  failCount := by
    rw [hempty]
    rfl

theorem Summary.failed (hsum : Summary c i h e) :
    Summary c i (h ++ [.reportResult i true]) (e.reportResult c.threshold true) := by
  have hcount : (e.reportResult c.threshold true).failCount.toNat =
      min 0xFF (streak true (sinceClear i h ++ [true])) := by
    rw [failCount_reportResult_failed, hsum.failCount, streak_concat_self]
    omega
  refine ⟨?_, by rw [sinceClear_report_self, hcount]⟩
  rw [bits_reportResult_failed]
  constructor
  case confirmedDtc =>
    rw [sinceClear_report_self, replicate_infix_concat, Bool.or_eq_true, hsum.means.confirmedDtc,
      decide_eq_true_iff, threshold_le_iff _ hcount]
    exact or_comm
  case pendingDtc => simp [failedInLastTwoCycles_report]
  case warningIndicatorRequested => exact hsum.means.warningIndicatorRequested
  all_goals simp [sinceClear_report_self, thisCycle_report_self]

theorem Summary.passed (hsum : Summary c i h e) :
    Summary c i (h ++ [.reportResult i false]) (e.reportResult c.threshold false) := by
  refine ⟨?_, ?_⟩
  · rw [bits_reportResult_passed]
    constructor
    case confirmedDtc =>
      have hpos : ¬ max c.confirmThreshold.toNat 1 ≤ 0 := by omega
      rw [sinceClear_report_self, replicate_infix_concat, streak_concat_of_ne Bool.false_ne_true,
        hsum.means.confirmedDtc]
      exact (or_iff_right hpos).symm
    case pendingDtc => simp [failedInLastTwoCycles_report, hsum.means.pendingDtc]
    case warningIndicatorRequested => exact hsum.means.warningIndicatorRequested
    case testFailedThisOperationCycle =>
      simp [thisCycle_report_self, hsum.means.testFailedThisOperationCycle]
    case testFailedSinceLastClear =>
      simp [sinceClear_report_self, hsum.means.testFailedSinceLastClear]
    all_goals simp [sinceClear_report_self, thisCycle_report_self]
  · rw [sinceClear_report_self, streak_concat_of_ne Bool.false_ne_true]
    rfl

theorem Summary.other (hsum : Summary c i h e) {j : Nat} (hne : j ≠ i) (failed : Bool) :
    Summary c i (h ++ [.reportResult j failed]) e := by
  have hsince := sinceClear_report_of_ne hne failed h
  have hcycle := thisCycle_report_of_ne hne failed h
  have hpending := failedInLastTwoCycles_report i j failed h
  simp only [hne, false_and, false_or] at hpending
  refine ⟨?_, by rw [hsince, hsum.failCount]⟩
  obtain ⟨hmeans, -⟩ := hsum
  constructor
  case pendingDtc => rw [hpending, hmeans.pendingDtc]
  case testFailed => rw [hsince, hmeans.testFailed]
  case confirmedDtc => rw [hsince, hmeans.confirmedDtc]
  case testNotCompletedSinceLastClear => rw [hsince, hmeans.testNotCompletedSinceLastClear]
  case testFailedSinceLastClear => rw [hsince, hmeans.testFailedSinceLastClear]
  case testFailedThisOperationCycle => rw [hcycle, hmeans.testFailedThisOperationCycle]
  case testNotCompletedThisOperationCycle =>
    rw [hcycle, hmeans.testNotCompletedThisOperationCycle]
  case warningIndicatorRequested => exact hmeans.warningIndicatorRequested

theorem Summary.started (hsum : Summary c i h e) :
    Summary c i (h ++ [.startOperationCycle]) e.startOperationCycle := by
  refine ⟨?_, by rw [sinceClear_start]; exact hsum.failCount⟩
  rw [bits_startOperationCycle]
  have hcycle : thisCycle i (h ++ [.startOperationCycle]) = [] := thisCycle_ends rfl i h
  constructor
  case pendingDtc =>
    rw [failedInLastTwoCycles_start, Bool.and_eq_true, hsum.means.pendingDtc,
      hsum.means.testFailedThisOperationCycle]
    exact and_iff_right_of_imp failedInLastTwoCycles_of_mem
  case testFailed => rw [sinceClear_start, hsum.means.testFailed]
  case confirmedDtc => rw [sinceClear_start, hsum.means.confirmedDtc]
  case testNotCompletedSinceLastClear =>
    rw [sinceClear_start, hsum.means.testNotCompletedSinceLastClear]
  case testFailedSinceLastClear => rw [sinceClear_start, hsum.means.testFailedSinceLastClear]
  case warningIndicatorRequested => exact hsum.means.warningIndicatorRequested
  all_goals simp [hcycle]

theorem Summary.step (hsum : Summary c i h e) (op : Op) :
    Summary c i (h ++ [op]) (Entry.step e c.threshold i op) := by
  cases op with
  | reportResult j failed =>
      by_cases hji : j = i
      · subst hji
        simp only [Entry.step, if_true]
        cases failed with
        | true => exact hsum.failed
        | false => exact hsum.passed
      · simp only [Entry.step, hji, if_false]
        exact hsum.other hji failed
  | startOperationCycle => exact hsum.started
  | clearAll =>
      exact summary_initial (sinceClear_clear i h) (thisCycle_ends rfl i h)
        (not_failedInLastTwoCycles_clear i h)

end Step

/-! ### Every history -/

/-- The entry of a configured code summarises the history. -/
theorem summary_replay {table : List Config} {i : Nat} {c : Config} (hc : table[i]? = some c)
    (h : List Op) :
    ∃ e, ((resetAll table).replay h).entries[i]? = some e ∧ Summary c i h e := by
  induction h using List.reverseRecOn with
  | nil =>
      have hentry : (resetAll table).entries[i]? = some Entry.initial := by
        rw [resetAll, List.getElem?_map, hc]
        rfl
      exact ⟨Entry.initial, hentry, summary_initial rfl rfl (not_followed_nil _ _)⟩
  | append_singleton h op ih =>
      obtain ⟨e, he, hsum⟩ := ih
      refine ⟨_, ?_, hsum.step op⟩
      simp [entries_step, hc, he]

theorem getStatus_eq {m : Manager} {i : Nat} {e : Entry} (he : m.entries[i]? = some e) :
    m.getStatus i = e.status := by
  obtain ⟨hi, rfl⟩ := List.getElem?_eq_some_iff.mp he
  exact dif_pos hi

theorem eq_resetAll_of_init {table : List Config} {m : Manager} (hinit : init (some table) = some m) :
    m = resetAll table := by
  rw [init] at hinit
  split at hinit
  next => cases hinit
  next => exact (Option.some.inj hinit).symm

/-- Whatever is reported, started and cleared after the initialisation, and in whatever order, each
bit of a status byte says of the history what it stands for. -/
theorem status_means_history {table : List Config} {m : Manager} (hinit : init (some table) = some m)
    {i : Nat} {c : Config} (hc : table[i]? = some c) (h : List Op) :
    Means c i h (bits ((m.replay h).getStatus i)) := by
  obtain ⟨e, he, hsum⟩ := summary_replay hc h
  rw [eq_resetAll_of_init hinit, getStatus_eq he]
  exact hsum.means

/-- Two failures confirm the second code of this table, across the start of a cycle. -/
theorem status_means_history_acrossCycles :
    let table : List Config := [⟨0xC10000, 1⟩, ⟨0xC10100, 2⟩]
    let h : List Op := [.reportResult 1 true, .startOperationCycle, .reportResult 1 true]
    ((resetAll table).replay h).getStatus 1 = 0x2F ∧
      Means ⟨0xC10100, 2⟩ 1 h (bits (((resetAll table).replay h).getStatus 1)) := by
  intro table h
  exact ⟨by decide, @status_means_history table (resetAll table) rfl 1 _ rfl h⟩

end MiniEcu.Dtc
