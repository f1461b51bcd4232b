import MiniEcu.Diag.App
import MiniEcu.Lib.Ring

/-!
# The tester on the Sensor ECU

The way of a response through `tester_app.c`. The receive interrupt stores it in a ring, and the main
loop hands it from there to ISO-TP. The interrupt writes the head and the main loop the tail, and
either reads the index of the other while the other may move it. An interrupt runs to its end; the
main loop can be interrupted wherever its accesses to the ring make a difference.
-/

namespace MiniEcu.Sensor.TesterApp

open Diag (CanFrame canIdUdsRespControl)

/-! ### The ring -/

/-- CAN frames buffered from the interrupt. -/
def ringLen : Nat := 32

/-- `s_ring`, `s_head`, `s_tail` and `s_ringOverflow`. -/
structure Ring where
  slots : List CanFrame
  head : UInt8
  tail : UInt8
  overflow : UInt32
  length_slots : slots.length = ringLen
  head_lt : head.toNat < ringLen
  tail_lt : tail.toNat < ringLen
deriving DecidableEq

/-- `(uint8_t)((i + 1U) % RING_LEN)`. -/
def next (i : UInt8) : UInt8 := UInt8.ofNat ((i.toNat + 1) % ringLen)

theorem toNat_next (i : UInt8) : (next i).toNat = (i.toNat + 1) % ringLen := by
  rw [next, UInt8.toNat_ofNat']
  apply Nat.mod_eq_of_lt
  exact (Nat.mod_lt _ (by decide)).trans (by decide)

theorem toNat_next_lt (i : UInt8) : (next i).toNat < ringLen := by
  rw [toNat_next]
  exact Nat.mod_lt _ (by decide)

namespace Ring

/-- A static variable without an initial value. -/
def empty : Ring where
  slots := List.replicate ringLen
    { id := 0, data := { bytes := List.replicate 8 0, length_bytes := rfl }, dlc := 0,
      dlc_le := Nat.zero_le 8 }
  head := 0
  tail := 0
  overflow := 0
  length_slots := List.length_replicate
  head_lt := by decide
  tail_lt := by decide

/-- `s_ring[s_tail]`. -/
def front (r : Ring) : CanFrame := r.slots.get ⟨r.tail.toNat, r.length_slots ▸ r.tail_lt⟩

def store (r : Ring) (frame : CanFrame) : Ring where
  slots := r.slots.set r.head.toNat frame
  head := next r.head
  tail := r.tail
  overflow := r.overflow
  length_slots := by rw [List.length_set, r.length_slots]
  head_lt := toNat_next_lt r.head
  tail_lt := r.tail_lt

def advance (r : Ring) : Ring :=
  { r with tail := next r.tail, tail_lt := toNat_next_lt r.tail }

/-! ### The ring is a ring buffer -/

def buffer (r : Ring) : RingBuffer CanFrame where
  cells := r.slots
  head := r.head.toNat
  tail := r.tail.toNat
  head_lt := r.length_slots ▸ r.head_lt
  tail_lt := r.length_slots ▸ r.tail_lt

variable (r : Ring)

theorem buffer_next (i : UInt8) : r.buffer.next i.toNat = (next i).toNat := by
  rw [RingBuffer.next, toNat_next, buffer, r.length_slots]

theorem buffer_full : r.buffer.Full ↔ next r.head = r.tail := by
  rw [← UInt8.toNat_inj, ← r.buffer_next]
  rfl

theorem buffer_empty : r.buffer.Empty ↔ r.tail = r.head := by
  rw [eq_comm, ← UInt8.toNat_inj]
  rfl

theorem buffer_store (frame : CanFrame) : (r.store frame).buffer = r.buffer.push frame := by
  ext1
  · rfl
  · exact (r.buffer_next r.head).symm
  · rfl

theorem buffer_advance : r.advance.buffer = r.buffer.pop := by
  ext1
  · rfl
  · rfl
  · exact (r.buffer_next r.tail).symm

end Ring

/-! ### The interrupt and the main loop -/

/-- What becomes of a frame. -/
inductive Event
  | stored (frame : CanFrame)
  | counted (frame : CanFrame)   -- as an overflow
  | handed (frame : CanFrame)    -- to `IsoTp_RxFrame`
  | released
deriving DecidableEq

/-- `TesterApp_OnCanFrameIsr`. -/
def onCanFrameIsr (frame : CanFrame) (r : Ring) : Ring × List Event :=
  if frame.id ≠ canIdUdsRespControl then (r, [])
  else if next r.head = r.tail then ({ r with overflow := r.overflow + 1 }, [.counted frame])
  else (r.store frame, [.stored frame])

/-- What an interrupt can do. -/
theorem onCanFrameIsr_cases (frame : CanFrame) (r : Ring) :
    (frame.id ≠ canIdUdsRespControl ∧ onCanFrameIsr frame r = (r, [])) ∨
      (frame.id = canIdUdsRespControl ∧ r.buffer.Full ∧
        onCanFrameIsr frame r = ({ r with overflow := r.overflow + 1 }, [.counted frame])) ∨
      (frame.id = canIdUdsRespControl ∧ ¬ r.buffer.Full ∧
        onCanFrameIsr frame r = (r.store frame, [.stored frame])) := by
  rw [onCanFrameIsr, Ring.buffer_full]
  by_cases hid : frame.id = canIdUdsRespControl
  · rw [if_neg (not_not.mpr hid)]
    by_cases hfull : next r.head = r.tail
    · exact .inr (.inl ⟨hid, hfull, if_pos hfull⟩)
    · exact .inr (.inr ⟨hid, hfull, if_neg hfull⟩)
  · exact .inl ⟨hid, if_pos hid⟩

/-- Where the main loop is. -/
inductive Point
  | test                      -- before it reads `s_head`
  | compare (head : UInt8)    -- it has read this
  | call                      -- in the body, before the call
  | processing                -- in `IsoTp_RxFrame`, which has the address of the slot
  | advance                   -- behind the call
  | elsewhere                 -- not in the loop over the ring
deriving DecidableEq

structure State where
  ring : Ring := .empty
  point : Point := .elsewhere
deriving DecidableEq

/-- The main loop up to its next access to the ring. The condition may read the tail before or after
the head, since nothing else writes it. -/
def mainStep (s : State) : State × List Event :=
  match s.point with
  | .test => ({ s with point := .compare s.ring.head }, [])
  | .compare head => ({ s with point := if s.ring.tail ≠ head then .call else .elsewhere }, [])
  | .call => ({ s with point := .processing }, [.handed s.ring.front])
  | .processing => ({ s with point := .advance }, [])
  | .advance => ({ ring := s.ring.advance, point := .test }, [.released])
  | .elsewhere => ({ s with point := .test }, [])

inductive Op
  | interrupt (frame : CanFrame)
  | main
deriving DecidableEq

def step (s : State) : Op → State × List Event
  | .interrupt frame =>
      ({ s with ring := (onCanFrameIsr frame s.ring).1 }, (onCanFrameIsr frame s.ring).2)
  | .main => mainStep s

end MiniEcu.Sensor.TesterApp
