import MiniEcu.E2e.Code
import MiniEcu.Lib.Trace

/-!
# How losses are classified

A sender protects one frame after another with one counter. A receiver sees some of them, among
whatever else. What it reports of a frame depends on the distance to the last intact frame before
it and on nothing else.
-/

namespace MiniEcu.E2e

open IsoTp (Frame)
open Memory (wrapSub)
open Trace (run)

/-! ### The sender -/

section Sender

variable (frames : Nat → Frame) (start : UInt8)

/-- The counter when frame `j` is to be protected. -/
def counterAt : Nat → UInt8
  | 0 => start
  | j + 1 => (protect (frames j) (counterAt j)).2

/-- Frame `j` as it is sent. -/
def sent (j : Nat) : Frame := (protect (frames j) (counterAt frames start j)).1

theorem toNat_mask (b : UInt8) : (b &&& counterMask).toNat = b.toNat % 16 := by
  rw [UInt8.toNat_and]
  exact Nat.and_two_pow_sub_one_eq_mod b.toNat 4

theorem toNat_counterAt (j : Nat) :
    (counterAt frames start j &&& counterMask).toNat = (start.toNat + j) % 16 := by
  induction j with
  | zero => exact toNat_mask start
  | succ j ih =>
      have hnext : counterAt frames start (j + 1) =
          (counterAt frames start j + 1) &&& counterMask := rfl
      rw [toNat_mask] at ih
      rw [toNat_mask, hnext, toNat_mask, UInt8.toNat_add]
      simp only [UInt8.toNat_one]
      omega

end Sender

/-! ### The receiver -/

/-- What reaches the receiver: a frame as it was sent, or one that is short or corrupted. -/
inductive Arrival
  | intact (j : Nat)
  | broken (f : Frame) (dlc : Nat) (h : dlc < frameLen ∨ checksum f ≠ load f crcByte)

/-- `E2e_Check` on what arrives. -/
def receive (frames : Nat → Frame) (start : UInt8) (s : RxState) : Arrival → RxState × List Status
  | .intact j => ((check s (sent frames start j) frameLen).2, [(check s (sent frames start j) frameLen).1])
  | .broken f dlc _ => ((check s f dlc).2, [(check s f dlc).1])

/-- What a frame is reported as that comes `delta` behind the intact one before it, modulo 16. -/
def verdict (delta : Nat) : Status :=
  if delta = 0 then .errRepeated
  else if delta = 1 then .ok
  else if delta = 2 ∨ delta = 3 then .okSomeLost
  else .errWrongSeq

/-- What all the frames are to be reported as, if `previous` was the last intact one. -/
def expected : Option Nat → List Arrival → List Status
  | _, [] => []
  | previous, .broken _ dlc _ :: rest =>
      (if dlc < frameLen then .errLength else .errCrc) :: expected previous rest
  | none, .intact j :: rest => .initial :: expected (some j) rest
  | some i, .intact j :: rest => verdict (wrapSub 4 j i) :: expected (some j) rest

/-- The receiver's state after the last intact frame. -/
def stateAfter (frames : Nat → Frame) (start : UInt8) : Option Nat → RxState
  | none => initRx
  | some i => { lastCounter := counterAt frames start i &&& counterMask, synced := true }

variable (frames : Nat → Frame) (start : UInt8)

theorem check_broken (s : RxState) {f : Frame} {dlc : Nat}
    (h : dlc < frameLen ∨ checksum f ≠ load f crcByte) :
    check s f dlc = (if dlc < frameLen then .errLength else .errCrc, s) := by
  rw [check]
  split
  · rfl
  · rename_i hlen
    rw [if_pos (h.resolve_left hlen)]

theorem check_sent (s : RxState) (j : Nat) :
    check s (sent frames start j) frameLen =
      if !s.synced then (.initial, stateAfter frames start (some j))
      else
        let delta := ((counterAt frames start j &&& counterMask) - s.lastCounter) &&& counterMask
        if delta = 0 then (.errRepeated, s)
        else
          let s := { s with lastCounter := counterAt frames start j &&& counterMask }
          if delta = 1 then (.ok, s)
          else if delta ≤ maxDeltaCounter then (.okSomeLost, s)
          else (.errWrongSeq, s) := by
  have hmask : counterAt frames start j &&& counterMask &&& counterMask =
      counterAt frames start j &&& counterMask := by
    rw [UInt8.and_assoc]
    rfl
  rw [check, if_neg (by decide), if_neg (by rw [sent, checksum_protect]; exact not_not.mpr rfl),
    sent, counter_protect, hmask]
  rfl

theorem check_first (j : Nat) : check initRx (sent frames start j) frameLen =
    (.initial, stateAfter frames start (some j)) := by
  rw [check_sent]
  rfl

theorem toNat_delta (i j : Nat) :
    (((counterAt frames start j &&& counterMask) - (counterAt frames start i &&& counterMask)) &&&
      counterMask).toNat = wrapSub 4 j i := by
  rw [toNat_mask, UInt8.toNat_sub, toNat_counterAt, toNat_counterAt, wrapSub]
  omega

/-- Frames that are a multiple of 16 apart carry the same counter. -/
theorem counter_eq {i j : Nat} (h : wrapSub 4 j i = 0) :
    counterAt frames start i &&& counterMask = counterAt frames start j &&& counterMask := by
  apply UInt8.toNat_inj.mp
  rw [toNat_counterAt, toNat_counterAt]
  rw [wrapSub] at h
  omega

theorem check_next (i j : Nat) :
    check (stateAfter frames start (some i)) (sent frames start j) frameLen =
      (verdict (wrapSub 4 j i), stateAfter frames start (some j)) := by
  have hdelta := toNat_delta frames start i j
  have hsame := counter_eq frames start (i := i) (j := j)
  rw [check_sent, stateAfter, stateAfter]
  generalize counterAt frames start j &&& counterMask = cj at *
  generalize counterAt frames start i &&& counterMask = ci at *
  simp only [Bool.not_true, Bool.false_eq_true, if_false]
  generalize (cj - ci) &&& counterMask = delta at *
  have hlit : ∀ n : UInt8, delta = n ↔ wrapSub 4 j i = n.toNat := by
    intro n
    rw [← hdelta, UInt8.toNat_inj]
  have hle : delta ≤ maxDeltaCounter ↔ wrapSub 4 j i ≤ 3 := by
    rw [UInt8.le_iff_toNat_le, hdelta]
    rfl
  simp only [hlit, hle, verdict]
  show (if wrapSub 4 j i = 0 then _ else if wrapSub 4 j i = 1 then _ else _ : Status × RxState) = _
  by_cases hzero : wrapSub 4 j i = 0
  · rw [if_pos hzero, if_pos hzero, hsame hzero]
  rw [if_neg hzero, if_neg hzero]
  by_cases hone : wrapSub 4 j i = 1
  · rw [if_pos hone, if_pos hone]
  rw [if_neg hone, if_neg hone]
  by_cases hlost : wrapSub 4 j i = 2 ∨ wrapSub 4 j i = 3
  · rw [if_pos hlost, if_pos (by omega)]
  · rw [if_neg hlost, if_neg (by omega)]

theorem receive_eq (previous : Option Nat) (arrival : Arrival) (rest : List Arrival) :
    ∃ previous', (receive frames start (stateAfter frames start previous) arrival).1 =
        stateAfter frames start previous' ∧
      expected previous (arrival :: rest) =
        (receive frames start (stateAfter frames start previous) arrival).2 ++
          expected previous' rest := by
  cases arrival with
  | broken f dlc h =>
      refine ⟨previous, ?_, ?_⟩
      · rw [receive, check_broken _ h]
      · rw [receive, check_broken _ h]
        cases previous <;> rfl
  | intact j =>
      refine ⟨some j, ?_⟩
      cases previous with
      | none =>
          rw [stateAfter, receive, check_first]
          exact ⟨rfl, rfl⟩
      | some i =>
          rw [receive, check_next]
          exact ⟨rfl, rfl⟩

/-- **Every loss pattern is classified.** Whatever arrives in whatever order, the first intact frame
is `E2E_INITIAL`, each later one is judged by its distance to the intact one before it, modulo 16,
and what is short or corrupted is reported as such and changes no later verdict. The payload arrives
as it was handed over. -/
theorem losses_classified (arrivals : List Arrival) :
    (run (receive frames start) initRx arrivals).2 = expected none arrivals ∧
      ∀ j, (sent frames start j).bytes.take 6 = (frames j).bytes.take 6 := by
  have hrun : ∀ previous, (run (receive frames start) (stateAfter frames start previous) arrivals).2
      = expected previous arrivals := by
    induction arrivals with
    | nil => intro previous; cases previous <;> rfl
    | cons arrival rest ih =>
        intro previous
        obtain ⟨previous', hstate, hexpected⟩ := receive_eq frames start previous arrival rest
        rw [Trace.run_cons, hstate, ih, hexpected]
  exact ⟨hrun none, fun j => take_protect _ _⟩

end MiniEcu.E2e
