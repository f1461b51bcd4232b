import MiniEcu.Control.App

/-!
# Bytes beyond the DLC

The interrupt copies a frame into a buffer that is not cleared, so what lies behind the DLC is left
over from something else. Every handler reads a byte only after it has made sure that the frame has
it. The runs on two frames that agree up to the DLC are therefore the same.
-/

namespace MiniEcu.IsoTp

open Memory

section Agree

variable {data data' : Frame} {dlc : Nat} (h : data.bytes.take dlc = data'.bytes.take dlc)
include h

theorem byte_congr {i : Nat} (hi : i < dlc) : data.byte i = data'.byte i := by
  have hget := congrArg (fun bs => bs.getD i 0) h
  simp only [List.getD_eq_getElem?_getD, List.getElem?_take, if_pos hi] at hget
  rw [Frame.byte, Frame.byte, List.getD_eq_getElem?_getD, List.getD_eq_getElem?_getD, hget]

theorem pci_congr (hpos : 0 < dlc) : data.pciType = data'.pciType ∧ data.pciLow = data'.pciLow := by
  rw [Frame.pciType, Frame.pciType, Frame.pciLow, Frame.pciLow, byte_congr h hpos]
  exact ⟨rfl, rfl⟩

theorem slice_congr {offset count : Nat} (hle : offset + count ≤ dlc) :
    slice data.bytes offset count = slice data'.bytes offset count := by
  rw [← slice_take hle, h, slice_take hle]

theorem frame_congr (hfull : 8 ≤ dlc) : data = data' := by
  rw [List.take_of_length_le (by rw [data.length_bytes]; exact hfull),
    List.take_of_length_le (by rw [data'.length_bytes]; exact hfull)] at h
  obtain ⟨bytes, hlen⟩ := data
  obtain ⟨bytes', hlen'⟩ := data'
  cases h
  rfl

variable {σ ε : Type} (app : App σ ε) (resubmit : Bytes → World σ ε → World σ ε) (w : World σ ε)

theorem rxOnSingleFrame_congr (hpos : 0 < dlc) :
    rxOnSingleFrame app resubmit data dlc w = rxOnSingleFrame app resubmit data' dlc w := by
  rw [rxOnSingleFrame_eq, rxOnSingleFrame_eq, (pci_congr h hpos).2]
  split
  · rfl
  · rename_i hform
    rw [slice_congr h (by omega)]

theorem rxOnFirstFrame_congr :
    rxOnFirstFrame app resubmit data dlc w = rxOnFirstFrame app resubmit data' dlc w := by
  by_cases hshort : dlc < 8
  · have hignored : ∀ data : Frame, rxOnFirstFrame app resubmit data dlc w = w := fun data =>
      if_pos (.inl hshort)
    rw [hignored, hignored]
  · rw [frame_congr h (Nat.le_of_not_lt hshort)]

theorem rxOnConsecutiveFrame_congr (hpos : 0 < dlc) :
    rxOnConsecutiveFrame app resubmit data dlc w = rxOnConsecutiveFrame app resubmit data' dlc w := by
  rw [rxOnConsecutiveFrame_eq, rxOnConsecutiveFrame_eq, (pci_congr h hpos).2]
  split
  · rfl
  split
  · rfl
  split
  · rfl
  · rename_i hlong
    rw [slice_congr h (by omega)]

theorem txOnFlowControl_congr :
    txOnFlowControl app resubmit data dlc w = txOnFlowControl app resubmit data' dlc w := by
  by_cases hshort : w.link.tx.txState ≠ .waitFc ∨ dlc < 3
  · have hignored : ∀ data : Frame, txOnFlowControl app resubmit data dlc w = w := fun data =>
      if_pos hshort
    rw [hignored, hignored]
  · have hlong : 3 ≤ dlc := by
      rw [not_or] at hshort
      omega
    rw [txOnFlowControl, txOnFlowControl, (pci_congr h (show 0 < dlc by omega)).2,
      byte_congr h (show 1 < dlc by omega), byte_congr h (show 2 < dlc by omega)]

theorem rxFrame_congr : rxFrame app resubmit data dlc w = rxFrame app resubmit data' dlc w := by
  unfold rxFrame
  split
  · rfl
  · have hpos : 0 < dlc := by omega
    rw [(pci_congr h hpos).1, rxOnSingleFrame_congr h app resubmit w hpos,
      rxOnFirstFrame_congr h app resubmit w, rxOnConsecutiveFrame_congr h app resubmit w hpos,
      txOnFlowControl_congr h app resubmit w]

end Agree

end MiniEcu.IsoTp

namespace MiniEcu.Diag

open IsoTp (World nested)
open Memory (slice)

variable {f f' : CanFrame} (hid : f.id = f'.id) (hdlc : f.dlc = f'.dlc)
  (h : f.data.bytes.take f.dlc = f'.data.bytes.take f.dlc)
include hdlc h

/-- The length is looked at before it is compared with the DLC, but it never passes for a DLC of
zero. -/
theorem functionalRequest_congr : functionalRequest f = functionalRequest f' := by
  rw [functionalRequest, functionalRequest, ← hdlc]
  by_cases hzero : f.dlc = 0
  · rw [if_neg (fun hform => by omega), if_neg (fun hform => by omega)]
  · obtain ⟨htype, hlow⟩ := IsoTp.pci_congr h (Nat.pos_of_ne_zero hzero)
    rw [htype, hlow]
    split
    · rename_i hform
      rw [IsoTp.slice_congr h (by omega)]
    · rfl

include hid

theorem onFrameLoopback_congr (signals : Signals) (selfTest : Bool) (w : World Ecu Record)
    (t : World Tester Empty) :
    onFrameLoopback signals selfTest f w t = onFrameLoopback signals selfTest f' w t := by
  rw [onFrameLoopback, onFrameLoopback, onFrame, onFrame, functionalRequest_congr hdlc h, ← hid,
    ← hdlc, IsoTp.rxFrame_congr h _ _ w, IsoTp.rxFrame_congr h _ _ t]

end MiniEcu.Diag

namespace MiniEcu.Control

open Diag (CanFrame Tester onFrameLoopback)
open IsoTp (App World nested)

/-- A frame with room for the protection is a full one. -/
theorem check_congr {data data' : IsoTp.Frame} {dlc : Nat}
    (h : data.bytes.take dlc = data'.bytes.take dlc) (s : E2e.RxState) :
    E2e.check s data dlc = E2e.check s data' dlc := by
  by_cases hshort : dlc < E2e.frameLen
  · rw [E2e.check, E2e.check, if_pos hshort, if_pos hshort]
  · rw [IsoTp.frame_congr h (Nat.le_of_not_lt hshort)]

theorem isValid_check_of_short {s : E2e.RxState} {data : IsoTp.Frame} {dlc : Nat}
    (hshort : dlc < E2e.frameLen) : E2e.isValid (E2e.check s data dlc).1 = false := by
  rw [E2e.check, if_pos hshort]
  rfl

theorem update_congr {f f' : CanFrame} (h : f.data.bytes.take f.dlc = f'.data.bytes.take f.dlc)
    (v : SensorView) (s : E2e.RxState) (time : Nat) :
    v.update f (E2e.check s f.data f.dlc).1 time = v.update f' (E2e.check s f.data f.dlc).1 time := by
  by_cases hshort : f.dlc < E2e.frameLen
  · have hinvalid : E2e.isValid (E2e.check s f.data f.dlc).1 = false := isValid_check_of_short hshort
    rw [SensorView.update, SensorView.update, hinvalid]
    rfl
  · rw [SensorView.update, SensorView.update, IsoTp.frame_congr h (Nat.le_of_not_lt hshort)]

/-- **Stale bytes.** Two frames with one identifier and one DLC that agree up to the DLC have the
same effect on a link, on the diagnostics with and without the self-test, on the protection and on
the view of the sensor, in whatever state they arrive. -/
theorem stale_bytes_irrelevant (f f' : CanFrame) (hid : f.id = f'.id) (hdlc : f.dlc = f'.dlc)
    (hagree : f.data.bytes.take f.dlc = f'.data.bytes.take f.dlc) :
    (∀ (σ ε : Type) (app : App σ ε) (depth : Nat) (w : World σ ε),
      IsoTp.invoke app depth (.rxFrame f.data f.dlc) w =
        IsoTp.invoke app depth (.rxFrame f'.data f'.dlc) w) ∧
    (∀ (signals : Diag.Signals) (selfTest : Bool) (w : World Diag.Ecu Diag.Record)
      (t : World Tester Empty),
      onFrameLoopback signals selfTest f w t = onFrameLoopback signals selfTest f' w t) ∧
    (∀ s : E2e.RxState, E2e.check s f.data f.dlc = E2e.check s f'.data f'.dlc) ∧
    ∀ (s : State) (time : Nat), (handleSpeedFrame f time s).1 = (handleSpeedFrame f' time s).1 ∧
      ∃ status, (handleSpeedFrame f time s).2 = [.checked f status time] ∧
        (handleSpeedFrame f' time s).2 = [.checked f' status time] := by
  have hcheck : ∀ s, E2e.check s f.data f.dlc = E2e.check s f'.data f'.dlc := fun s => by
    rw [check_congr hagree, hdlc]
  refine ⟨fun σ ε app depth w => ?_, Diag.onFrameLoopback_congr hid hdlc hagree, hcheck,
    fun s time => ⟨?_, (E2e.check s.e2eSpeed f.data f.dlc).1, rfl, ?_⟩⟩
  · show IsoTp.rxFrame app (nested app depth) f.data f.dlc w = _
    rw [IsoTp.rxFrame_congr hagree]
    show _ = IsoTp.rxFrame app (nested app depth) f'.data f'.dlc w
    rw [hdlc]
  · show { s with
      e2eSpeed := (E2e.check s.e2eSpeed f.data f.dlc).2
      view := s.view.update f (E2e.check s.e2eSpeed f.data f.dlc).1 time } = _
    rw [update_congr hagree, hcheck]
    rfl
  · rw [hcheck]
    rfl

/-- A flow control frame with three bytes, behind which other bytes are left over. -/
theorem stale_bytes_irrelevant_flowControl :
    let f : CanFrame := ⟨0x7E0, IsoTp.flowControlFrame 0 8 20, 3, by decide⟩
    let f' : CanFrame := ⟨0x7E0, ⟨[0x30, 8, 20, 1, 2, 3, 4, 5], rfl⟩, 3, by decide⟩
    ∀ (σ ε : Type) (app : App σ ε) (depth : Nat) (w : World σ ε),
      IsoTp.invoke app depth (.rxFrame f.data f.dlc) w =
        IsoTp.invoke app depth (.rxFrame f'.data f'.dlc) w :=
  (stale_bytes_irrelevant ⟨0x7E0, IsoTp.flowControlFrame 0 8 20, 3, by decide⟩
    ⟨0x7E0, ⟨[0x30, 8, 20, 1, 2, 3, 4, 5], rfl⟩, 3, by decide⟩ rfl rfl (by decide)).1

end MiniEcu.Control
