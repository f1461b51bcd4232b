import MiniEcu.Dtc.History

/-!
# When a pending fault is given up

The pending bit goes out with a clear, or with the start of a cycle after one without a failure.
Whether the monitor has run at all in that cycle makes no difference.
-/

namespace MiniEcu.Dtc

open Manager

def pending (m : Manager) (i : Nat) : Bool := (bits (m.getStatus i)).pendingDtc

/-- A pending fault of entry `i` is given up by a clear, or by the end of a cycle whose results `P`
allows, and by no other call. -/
def GivenUpOnly (P : List Bool → Prop) (m : Manager) (i : Nat) : Prop :=
  ∀ (h : List Op) (op : Op), pending (m.replay h) i = true →
    pending (m.replay (h ++ [op])) i = false →
    op = .clearAll ∨ op = .startOperationCycle ∧ P (thisCycle i h)

theorem pending_replay {table : List Config} {i : Nat} {c : Config} (hc : table[i]? = some c)
    (h : List Op) : pending ((resetAll table).replay h) i = true ↔ FailedInLastTwoCycles i h := by
  obtain ⟨e, he, hsum⟩ := summary_replay hc h
  rw [pending, getStatus_eq he]
  exact hsum.means.pendingDtc

/-- A pending fault survives a report, whatever it says. -/
theorem pending_report {i : Nat} {h : List Op} (hpending : FailedInLastTwoCycles i h) (j : Nat)
    (failed : Bool) : FailedInLastTwoCycles i (h ++ [.reportResult j failed]) :=
  (failedInLastTwoCycles_report i j failed h).mpr (.inr hpending)

/-- **Pending faults.** In every run, a pending fault is given up only by a clear or by the end of a
cycle in which its test has not failed. Every such end gives it up, also that of a cycle in which
the test was not completed. -/
theorem pending_given_up {table : List Config} {m : Manager} (hinit : init (some table) = some m)
    {i : Nat} {c : Config} (hc : table[i]? = some c) :
    GivenUpOnly (true ∉ ·) m i ∧
      ∀ h, true ∉ thisCycle i h → pending (m.replay (h ++ [.startOperationCycle])) i = false := by
  obtain rfl := eq_resetAll_of_init hinit
  constructor
  · intro h op hpending hgone
    rw [pending_replay hc] at hpending
    rw [← Bool.not_eq_true, pending_replay hc] at hgone
    cases op with
    | reportResult j failed => exact absurd (pending_report hpending j failed) hgone
    | startOperationCycle => exact .inr ⟨rfl, fun hfailed => hgone
        ((failedInLastTwoCycles_start i h).mpr hfailed)⟩
    | clearAll => exact .inl rfl
  · intro h hclean
    rw [← Bool.not_eq_true, pending_replay hc, failedInLastTwoCycles_start]
    exact hclean

/-- A fault is pending through the cycle after the one it was found in, and no longer. -/
theorem pending_given_up_speedTimeout :
    let table : List Config := [⟨0xC10087, 1⟩, ⟨0x050100, 3⟩]
    GivenUpOnly (true ∉ ·) (resetAll table) 0 ∧
      pending ((resetAll table).replay
        [.reportResult 0 true, .startOperationCycle, .startOperationCycle]) 0 = false := by
  intro table
  obtain ⟨hrule, hend⟩ := @pending_given_up table (resetAll table) rfl 0 _ rfl
  exact ⟨hrule, hend [.reportResult 0 true, .startOperationCycle] (by decide)⟩

/-- Two cycles are started one right after the other, and a fault is given up that no test has shown
to be gone. -/
theorem not_givenUpOnly_tested :
    ¬ GivenUpOnly (fun results => results ≠ [] ∧ true ∉ results) (resetAll [⟨0xC10087, 1⟩]) 0 := by
  intro hrule
  have hcases := hrule [.reportResult 0 true, .startOperationCycle] .startOperationCycle (by decide)
    (by decide)
  rcases hcases with hclear | ⟨-, htested, -⟩
  · cases hclear
  · exact htested (by decide)

end MiniEcu.Dtc
