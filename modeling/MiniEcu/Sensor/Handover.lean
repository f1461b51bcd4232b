import MiniEcu.Lib.Trace
import MiniEcu.Sensor.TesterApp

/-!
# From the interrupt to ISO-TP

Interrupts come between any two steps of the main loop. The frames stored so far are those the loop
has released, the one it is at work on, and those behind it in the ring, in the order of arrival. The
interrupt only ever writes to a free slot, so the frame that ISO-TP works on stays as it is; and since
the loop never waits, every stored frame gets its turn.
-/

namespace MiniEcu.Sensor.TesterApp

open Diag (CanFrame canIdUdsRespControl)
open Trace (run)

/-! ### The frames of a run -/

/-- The response that an operation brings. -/
def Op.response : Op → Option CanFrame
  | .interrupt frame => if frame.id = canIdUdsRespControl then some frame else none
  | .main => none

def Op.isMain : Op → Bool
  | .interrupt _ => false
  | .main => true

namespace Event

def stored? : Event → Option CanFrame
  | .stored frame => some frame
  | _ => none

def counted? : Event → Option CanFrame
  | .counted frame => some frame
  | _ => none

def handed? : Event → Option CanFrame
  | .handed frame => some frame
  | _ => none

/-- A response is stored or counted. -/
def received? (e : Event) : Option CanFrame := e.stored?.or e.counted?

end Event

/-- How many frames have been handed and not released yet. -/
def Point.inHand : Point → Nat
  | .processing | .advance => 1
  | _ => 0

/-- The loop is at the slot at the tail, or will go there. -/
def Point.Committed (tail : UInt8) : Point → Prop
  | .compare head => tail ≠ head
  | .call | .processing | .advance => True
  | .test | .elsewhere => False

/-- How many steps of the main loop hand the next frame, if there is one. -/
def Point.rank (tail : UInt8) : Point → Nat
  | .call => 1
  | .compare head => if tail ≠ head then 2 else 5   -- it has read the index too early
  | .test => 3
  | .advance | .elsewhere => 4
  | .processing => 5

/-- The frames in the ring that are still to be handed. -/
def State.waiting (s : State) : List CanFrame := s.ring.buffer.contents.drop s.point.inHand

/-! ### The invariant -/

/-- The ring has the frames that are stored and not released, the first of them being in hand. -/
structure Handover (s : State) (tr : List Event) : Prop where
  committed : s.point.Committed s.ring.tail → ¬ s.ring.buffer.Empty
  overflow : s.ring.overflow = UInt32.ofNat (tr.filterMap Event.counted?).length
  frames : ∃ done, done.length = tr.count .released ∧
    tr.filterMap Event.stored? = done ++ s.ring.buffer.contents ∧
    tr.filterMap Event.handed? = done ++ s.ring.buffer.contents.take s.point.inHand

variable {s : State} {tr : List Event}

theorem handover_boot : Handover {} [] where
  committed := False.elim
  overflow := rfl
  frames := ⟨[], rfl, by decide, rfl⟩

theorem Handover.inHand_le (h : Handover s tr) : s.point.inHand ≤ s.ring.buffer.contents.length := by
  obtain ⟨ring, point⟩ := s
  have hone : point.Committed ring.tail → 1 ≤ ring.buffer.contents.length := by
    intro hcommitted
    rw [Nat.one_le_iff_ne_zero, Ne, List.length_eq_zero_iff, RingBuffer.contents_eq_nil_iff]
    exact h.committed hcommitted
  cases point with
  | processing => exact hone trivial
  | advance => exact hone trivial
  | test => exact Nat.zero_le _
  | compare => exact Nat.zero_le _
  | call => exact Nat.zero_le _
  | elsewhere => exact Nat.zero_le _

theorem Handover.interrupt (h : Handover s tr) (frame : CanFrame) :
    Handover (step s (.interrupt frame)).1 (tr ++ (step s (.interrupt frame)).2) := by
  obtain ⟨done, hdone, hstored, hhanded⟩ := h.frames
  rw [step]
  rcases onCanFrameIsr_cases frame s.ring with ⟨-, heq⟩ | ⟨-, -, heq⟩ | ⟨-, hroom, heq⟩
  · rwa [heq, List.append_nil]
  · rw [heq]
    refine ⟨h.committed, ?_, done, ?_, ?_, ?_⟩
    · rw [List.filterMap_append, List.length_append, UInt32.ofNat_add, ← h.overflow]
      rfl
    · rw [List.count_append, hdone]
      rfl
    · rw [List.filterMap_append, hstored]
      exact List.append_nil _
    · rw [List.filterMap_append, hhanded]
      exact List.append_nil _
  · have hcontents : (s.ring.store frame).buffer.contents = s.ring.buffer.contents ++ [frame] := by
      rw [Ring.buffer_store, RingBuffer.contents_push _ hroom]
    rw [heq]
    refine ⟨fun _ => ?_, ?_, done, ?_, ?_, ?_⟩
    · rw [← RingBuffer.contents_eq_nil_iff, hcontents]
      simp
    · rw [List.filterMap_append, List.length_append]
      exact h.overflow
    · rw [List.count_append, hdone]
      rfl
    · rw [List.filterMap_append, hstored, hcontents, List.append_assoc]
      rfl
    · -- the frame in hand is in front, whatever is stored
      rw [List.filterMap_append, hhanded, hcontents, List.take_append_of_le_length h.inHand_le]
      exact List.append_nil _

theorem Handover.silent {ring : Ring} {point point' : Point} (h : Handover ⟨ring, point⟩ tr)
    (hinHand : point'.inHand = point.inHand)
    (hcommitted : point'.Committed ring.tail → ¬ ring.buffer.Empty) :
    Handover ⟨ring, point'⟩ (tr ++ []) := by
  obtain ⟨done, hdone, hstored, hhanded⟩ := h.frames
  rw [List.append_nil]
  refine ⟨hcommitted, h.overflow, done, hdone, hstored, ?_⟩
  rw [hinHand, hhanded]

theorem Handover.main (h : Handover s tr) :
    Handover (step s .main).1 (tr ++ (step s .main).2) := by
  obtain ⟨ring, point⟩ := s
  obtain ⟨done, hdone, hstored, hhanded⟩ := h.frames
  cases point with
  | test => exact h.silent rfl (mt ring.buffer_empty.mp)
  | compare head =>
      simp only [step, mainStep]
      split
      · exact h.silent rfl fun _ => h.committed ‹_›
      · exact h.silent rfl False.elim
  | call =>
      have hfirst : ring.buffer.contents.take 1 = [ring.front] := by
        rw [ring.buffer.contents_pop (h.committed trivial)]
        rfl
      refine ⟨fun _ => h.committed trivial, ?_, done, ?_, ?_, ?_⟩
      · rw [List.filterMap_append, List.length_append]
        exact h.overflow
      · rw [List.count_append, hdone]
        rfl
      · rw [List.filterMap_append, hstored]
        exact List.append_nil _
      · change _ = done ++ ring.buffer.contents.take 1
        rw [List.filterMap_append, hhanded, hfirst, List.append_assoc]
        rfl
  | processing => exact h.silent rfl fun _ => h.committed trivial
  | advance =>
      have hpop := ring.buffer.contents_pop (h.committed trivial)
      refine ⟨False.elim, ?_, done ++ [ring.front], ?_, ?_, ?_⟩
      · rw [List.filterMap_append, List.length_append]
        exact h.overflow
      · rw [List.length_append, List.count_append, hdone]
        rfl
      · rw [List.filterMap_append, hstored, hpop, ← Ring.buffer_advance]
        exact (List.append_nil _).trans (List.append_cons _ _ _)
      · rw [List.filterMap_append, hhanded, hpop]
        rfl
  | elsewhere => exact h.silent rfl False.elim

theorem handover_step (h : Handover s tr) (op : Op) :
    Handover (step s op).1 (tr ++ (step s op).2) := by
  cases op with
  | interrupt frame => exact h.interrupt frame
  | main => exact h.main

theorem handover_run (h : Handover s tr) (ops : List Op) :
    Handover (run step s ops).1 (tr ++ (run step s ops).2) :=
  Trace.run_invariant Handover (fun _ _ op h => handover_step h op) tr h ops

/-! ### Order -/

theorem Handover.order (h : Handover s tr) :
    tr.filterMap Event.stored? = tr.filterMap Event.handed? ++ s.waiting := by
  obtain ⟨done, -, hstored, hhanded⟩ := h.frames
  rw [hstored, hhanded, State.waiting, List.append_assoc, List.take_append_drop]

/-- Every response is stored or counted when it comes. -/
theorem received_step (s : State) (op : Op) :
    (step s op).2.filterMap Event.received? = op.response.toList := by
  cases op with
  | interrupt frame =>
      rw [step, Op.response]
      rcases onCanFrameIsr_cases frame s.ring with ⟨hid, heq⟩ | ⟨hid, -, heq⟩ | ⟨hid, -, heq⟩
      · rw [heq, if_neg hid]
        rfl
      · rw [heq, if_pos hid]
        rfl
      · rw [heq, if_pos hid]
        rfl
  | main =>
      obtain ⟨ring, point⟩ := s
      cases point <;> rfl

/-! ### The slot in hand -/

theorem Handover.not_empty (h : Handover s tr) (hpoint : s.point = .processing) :
    ¬ s.ring.buffer.Empty := by
  apply h.committed
  rw [hpoint]
  trivial

theorem Handover.front_eq (h : Handover s tr) (hpoint : s.point = .processing) :
    (tr.filterMap Event.handed?).getLast? = some s.ring.front := by
  obtain ⟨done, -, -, hhanded⟩ := h.frames
  rw [hhanded, hpoint, s.ring.buffer.contents_pop (h.not_empty hpoint)]
  exact List.getLast?_concat

/-- Only a free slot is written. -/
theorem Handover.front_interrupt (h : Handover s tr) (hpoint : s.point = .processing)
    (frame : CanFrame) : (step s (.interrupt frame)).1.ring.front = s.ring.front := by
  rw [step]
  rcases onCanFrameIsr_cases frame s.ring with ⟨-, heq⟩ | ⟨-, -, heq⟩ | ⟨-, -, heq⟩
  · rw [heq]
  · rw [heq]
    rfl
  · rw [heq]
    exact s.ring.buffer.front_push (h.not_empty hpoint) frame

/-! ### Overflow -/

theorem Handover.length_stored (h : Handover s tr) :
    (tr.filterMap Event.stored?).length =
      tr.count .released + s.ring.buffer.contents.length := by
  obtain ⟨done, hdone, hstored, -⟩ := h.frames
  rw [hstored, List.length_append, hdone]

/-- A response is counted exactly if all slots but one are taken. -/
theorem Handover.received (h : Handover s tr) {frame : CanFrame}
    (hid : frame.id = canIdUdsRespControl) :
    (step s (.interrupt frame)).2 =
      [if (tr.filterMap Event.stored?).length = tr.count .released + 31 then .counted frame
        else .stored frame] := by
  have hfull : s.ring.buffer.Full ↔
      (tr.filterMap Event.stored?).length = tr.count .released + 31 := by
    have hcells : s.ring.buffer.cells.length = ringLen := s.ring.length_slots
    rw [RingBuffer.full_iff, hcells, h.length_stored, ringLen]
    omega
  rw [step]
  rcases onCanFrameIsr_cases frame s.ring with ⟨hother, -⟩ | ⟨-, hcount, heq⟩ | ⟨-, hroom, heq⟩
  · exact absurd hid hother
  · rw [heq, if_pos (hfull.mp hcount)]
  · rw [heq, if_neg (mt hfull.mpr hroom)]

/-! ### Progress -/

theorem rank_bounds (point : Point) (tail : UInt8) :
    0 < point.rank tail ∧ point.rank tail ≤ 5 := by
  cases point with
  | compare head =>
      rw [Point.rank]
      split <;> omega
  | test | call | processing | advance | elsewhere => simp [Point.rank]

/-- An interrupt hands nothing and does not delay the loop. -/
theorem rank_interrupt (s : State) (frame : CanFrame) :
    (step s (.interrupt frame)).1.point.rank (step s (.interrupt frame)).1.ring.tail =
        s.point.rank s.ring.tail ∧
      (step s (.interrupt frame)).2.filterMap Event.handed? = [] := by
  rw [step]
  rcases onCanFrameIsr_cases frame s.ring with ⟨-, heq⟩ | ⟨-, -, heq⟩ | ⟨-, -, heq⟩
  · rw [heq]
    exact ⟨rfl, rfl⟩
  · rw [heq]
    exact ⟨rfl, rfl⟩
  · rw [heq]
    exact ⟨rfl, rfl⟩

/-- Every step of the main loop brings it nearer to the next frame. -/
theorem rank_main (s : State) (hwaiting : s.waiting ≠ []) :
    (step s .main).1.point.rank (step s .main).1.ring.tail + 1 ≤
      s.point.rank s.ring.tail + 5 * ((step s .main).2.filterMap Event.handed?).length := by
  obtain ⟨ring, point⟩ := s
  cases point with
  | test =>
      have hsome : ring.tail ≠ ring.head := by
        rw [Ne, ← Ring.buffer_empty, ← RingBuffer.contents_eq_nil_iff]
        exact hwaiting
      simp [step, mainStep, Point.rank, hsome]
  | compare head =>
      by_cases hhead : ring.tail = head
      · simp [step, mainStep, Point.rank, hhead]
      · simp [step, mainStep, Point.rank, hhead]
  | call => exact Nat.le_refl _
  | processing => exact Nat.le_refl _
  | advance => exact Nat.le_refl _
  | elsewhere => exact Nat.le_refl _

theorem Handover.handed_of_countP (h : Handover s tr) {n : Nat}
    (hn : n ≤ (tr.filterMap Event.stored?).length) {more : List Op}
    (hmore : (tr.filterMap Event.handed?).length < n →
      5 * (n - (tr.filterMap Event.handed?).length) + s.point.rank s.ring.tail ≤
        more.countP Op.isMain + 5) :
    n ≤ ((tr ++ (run step s more).2).filterMap Event.handed?).length := by
  induction more generalizing s tr with
  | nil =>
      have hpos := (rank_bounds s.point s.ring.tail).1
      rw [List.countP_nil] at hmore
      rw [Trace.run_nil, List.append_nil]
      by_contra hlt
      have hbound := hmore (by omega)
      omega
  | cons op more ih =>
      have hnext := handover_step h op
      rw [Trace.run_cons, ← List.append_assoc]
      apply ih hnext
      · rw [List.filterMap_append, List.length_append]
        omega
      · rw [List.filterMap_append, List.length_append]
        intro hlt
        have hbound := hmore (by omega)
        cases op with
        | interrupt frame =>
            obtain ⟨hrank, hnone⟩ := rank_interrupt s frame
            rw [hrank, hnone]
            exact hbound
        | main =>
            have hwaiting : s.waiting ≠ [] := by
              intro hnone
              rw [h.order, hnone, List.append_nil] at hn
              omega
            have hrank := rank_main s hwaiting
            rw [List.countP_cons] at hbound
            simp only [Op.isMain, if_true] at hbound
            omega

theorem Handover.length_waiting (h : Handover s tr) :
    (tr.filterMap Event.stored?).length ≤ (tr.filterMap Event.handed?).length + 31 := by
  have hcells : s.ring.buffer.cells.length = ringLen := s.ring.length_slots
  have hcount := s.ring.buffer.count_lt
  rw [← RingBuffer.length_contents, hcells, ringLen] at hcount
  rw [h.order, List.length_append, State.waiting, List.length_drop]
  omega

/-- What is stored now has been handed after enough steps of the main loop, however many interrupts
come between them. -/
theorem Handover.prefix_handed (h : Handover s tr) {more : List Op}
    (hmore : 5 * 31 ≤ more.countP Op.isMain) :
    tr.filterMap Event.stored? <+: (tr ++ (run step s more).2).filterMap Event.handed? := by
  have hlater : tr.filterMap Event.stored? <+:
      (tr ++ (run step s more).2).filterMap Event.stored? := by
    rw [List.filterMap_append]
    exact List.prefix_append _ _
  have hhanded : (tr ++ (run step s more).2).filterMap Event.handed? <+:
      (tr ++ (run step s more).2).filterMap Event.stored? := by
    rw [(handover_run h more).order]
    exact List.prefix_append _ _
  apply List.prefix_of_prefix_length_le hlater hhanded
  apply h.handed_of_countP (Nat.le_refl _)
  intro _
  have hwaiting := h.length_waiting
  have hrank := (rank_bounds s.point s.ring.tail).2
  omega

/-! ### The ring -/

/-- **Nothing is lost, repeated or reordered.** Every response is stored or counted when it comes. The
frames handed to ISO-TP are those stored, in the same order, up to the ones that wait in the ring, and
these are handed if the main loop takes enough steps. The frame at work is not overwritten. The counter
counts, and a response is counted exactly if 31 frames are stored and not released. -/
theorem ring_lossless (ops : List Op) :
    let s := (run step {} ops).1
    let tr := (run step {} ops).2
    tr.filterMap Event.received? = ops.filterMap Op.response ∧
      tr.filterMap Event.stored? = tr.filterMap Event.handed? ++ s.waiting ∧
      (∀ more : List Op, 5 * 31 ≤ more.countP Op.isMain →
        tr.filterMap Event.stored? <+: (run step {} (ops ++ more)).2.filterMap Event.handed?) ∧
      (s.point = .processing →
        (tr.filterMap Event.handed?).getLast? = some s.ring.front ∧
          ∀ frame, (step s (.interrupt frame)).1.ring.front = s.ring.front) ∧
      s.ring.overflow = UInt32.ofNat (tr.filterMap Event.counted?).length ∧
      ∀ frame, frame.id = canIdUdsRespControl →
        (step s (.interrupt frame)).2 =
          [if (tr.filterMap Event.stored?).length = tr.count .released + 31 then .counted frame
            else .stored frame] := by
  intro s tr
  have h : Handover s tr := handover_run handover_boot ops
  refine ⟨?_, h.order, fun more hmore => ?_, fun hpoint => ⟨h.front_eq hpoint, ?_⟩, h.overflow, ?_⟩
  · exact Trace.filterMap_run received_step {} ops
  · rw [Trace.run_append]
    exact h.prefix_handed hmore
  · exact h.front_interrupt hpoint
  · intro frame hid
    exact h.received hid

/-- `02 7E 00`. -/
def testerPresentResponse : CanFrame :=
  .full canIdUdsRespControl { bytes := [0x02, 0x7E, 0x00, 0, 0, 0, 0, 0], length_bytes := rfl }

/-- One response comes, and another one while the first is at work. -/
theorem ring_lossless_testerPresent :
    let ops := [.interrupt testerPresentResponse, .main, .main, .main, .main]
    let s := (run step {} ops).1
    s.point = .processing ∧ s.ring.front = testerPresentResponse ∧
      (step s (.interrupt testerPresentResponse)).2 = [.stored testerPresentResponse] ∧
      (step s (.interrupt testerPresentResponse)).1.ring.front = testerPresentResponse ∧
      [testerPresentResponse] <+:
        (run step {} (ops ++ List.replicate 155 .main)).2.filterMap Event.handed? := by
  intro ops s
  obtain ⟨-, -, hhanded, hfront, -, hreceived⟩ := ring_lossless ops
  have hpoint : s.point = .processing := by decide +kernel
  have hlast : s.ring.front = testerPresentResponse := by decide +kernel
  refine ⟨hpoint, hlast, ?_, ?_, ?_⟩
  · exact hreceived testerPresentResponse rfl
  · rw [(hfront hpoint).2, hlast]
  · exact hhanded (List.replicate 155 .main) (by decide +kernel)

end MiniEcu.Sensor.TesterApp
