import MiniEcu.Control.Output

/-!
# The fault of the lost sensor

A silence begins with a valid frame, or with the start as long as there has been none. Monitor
recomputes its age in every cycle from a tick that has only 32 bits. So the fault it has set stays,
but for the cycles that come right after a full wrap of the tick.
-/

namespace MiniEcu.Control

open Memory Trace

/-! ### Silence -/

def Op.time : Op → Option Nat
  | .speedFrame _ time => some time
  | .monitorCycle time => some time
  | _ => none

def times (ops : List Op) : List Nat := ops.filterMap Op.time

@[simp] theorem times_append (ops ops' : List Op) : times (ops ++ ops') = times ops ++ times ops' :=
  List.filterMap_append

/-- True time does not go back. -/
def Ordered (start : Nat) (ops : List Op) : Prop := (start :: times ops).Pairwise (· ≤ ·)

instance (start : Nat) (ops : List Op) : Decidable (Ordered start ops) :=
  inferInstanceAs (Decidable (List.Pairwise _ _))

theorem Ordered.left {start : Nat} {ops ops' : List Op} (h : Ordered start (ops ++ ops')) :
    Ordered start ops := by
  rw [Ordered, times_append] at h
  exact h.sublist (List.Sublist.cons_cons _ (List.sublist_append_left _ _))

end MiniEcu.Control
