import MiniEcu.IsoTp.Segmentation

/-!
# The reference reassembler

What a receiver is for, without buffers, timers and retries: it reads one protocol data unit at a
time, holds at most one message under construction, and answers with messages, losses and flow
controls. `receive` is its step. Each frame of the segmentation of a message adds its part of it, and
the last one completes it.
-/

namespace MiniEcu.IsoTp

open Memory Trace

/-! ### Protocol data units -/

/-- The 12-bit length of a first frame. -/
def Frame.ffLength (f : Frame) : Nat := (f.pciLow <<< 8) ||| f.byte 1

/-- What a frame with so many valid bytes says to a receiver. -/
inductive Pdu
  | single (data : Bytes)
  | first (length : Nat) (data : Bytes)
  | consecutive (seq : Nat) (data : Bytes)
  | other
deriving DecidableEq

def decode (f : Frame) (dlc : Nat) : Pdu :=
  if dlc = 0 ∨ 8 < dlc then .other
  else if f.pciType = pciTypeSf then
    if f.pciLow = 0 ∨ 7 < f.pciLow ∨ dlc - 1 < f.pciLow then .other
    else .single (slice f.bytes 1 f.pciLow)
  else if f.pciType = pciTypeFf then
    if dlc < 8 ∨ f.ffLength ≤ 7 then .other else .first f.ffLength (slice f.bytes 2 6)
  else if f.pciType = pciTypeCf then .consecutive f.pciLow (slice f.bytes 1 (dlc - 1))
  else .other

theorem decode_cases (f : Frame) (dlc : Nat) :
    decode f dlc = .other ∨
      (¬ (dlc = 0 ∨ 8 < dlc) ∧ f.pciType = 0 ∧
        ¬ (f.pciLow = 0 ∨ 7 < f.pciLow ∨ dlc - 1 < f.pciLow) ∧
        decode f dlc = .single (slice f.bytes 1 f.pciLow)) ∨
      (dlc = 8 ∧ f.pciType = 1 ∧ 8 ≤ f.ffLength ∧
        decode f dlc = .first f.ffLength (slice f.bytes 2 6)) ∨
      (¬ (dlc = 0 ∨ 8 < dlc) ∧ f.pciType = 2 ∧
        decode f dlc = .consecutive f.pciLow (slice f.bytes 1 (dlc - 1))) := by
  rw [decode]
  by_cases hdlc : dlc = 0 ∨ 8 < dlc
  · exact .inl (if_pos hdlc)
  rw [if_neg hdlc]
  by_cases hsingle : f.pciType = pciTypeSf
  · rw [if_pos hsingle]
    split
    · exact .inl rfl
    · exact .inr (.inl ⟨hdlc, hsingle, ‹_›, rfl⟩)
  rw [if_neg hsingle]
  by_cases hfirst : f.pciType = pciTypeFf
  · rw [if_pos hfirst]
    split
    · exact .inl rfl
    · exact .inr (.inr (.inl ⟨by omega, hfirst, by omega, rfl⟩))
  rw [if_neg hfirst]
  split
  · exact .inr (.inr (.inr ⟨hdlc, ‹_›, rfl⟩))
  · exact .inl rfl

section Decode

variable {f : Frame} {dlc : Nat} (hdlc : ¬ (dlc = 0 ∨ 8 < dlc))
include hdlc

theorem decode_sf (htype : f.pciType = 0) :
    decode f dlc = if f.pciLow = 0 ∨ 7 < f.pciLow ∨ dlc - 1 < f.pciLow then .other
      else .single (slice f.bytes 1 f.pciLow) := by
  simp [decode, hdlc, htype]

theorem decode_ff (htype : f.pciType = 1) :
    decode f dlc = if dlc < 8 ∨ f.ffLength ≤ 7 then .other
      else .first f.ffLength (slice f.bytes 2 6) := by
  simp [decode, hdlc, htype]

theorem decode_cf (htype : f.pciType = 2) :
    decode f dlc = .consecutive f.pciLow (slice f.bytes 1 (dlc - 1)) := by
  simp [decode, hdlc, htype]

theorem decode_other (htype : 2 < f.pciType) : decode f dlc = .other := by
  have hsf : f.pciType ≠ 0 := by omega
  have hff : f.pciType ≠ 1 := by omega
  have hcf : f.pciType ≠ 2 := by omega
  simp [decode, hdlc, hsf, hff, hcf]

end Decode

/-! ### The reassembler -/

/-- A message under construction: its announced length, the bytes so far, the sequence number it
goes on with, and the frames taken since the last flow control. -/
structure Assembly where
  length : Nat
  data : Bytes
  seq : Nat
  block : Nat
deriving DecidableEq

inductive Output
  | delivered (data : Bytes)
  | lost (data : Bytes) (result : Result)
  | answered (status : Nat)
deriving DecidableEq

def Output.message : Output → Option Bytes
  | .delivered data => some data
  | _ => none

def Output.isAnswer : Output → Bool
  | .answered _ => true
  | _ => false

@[simp] theorem Output.messages_answered (status : Nat) :
    [answered status].filterMap Output.message = [] := rfl

namespace Assembly

variable (a : Assembly)

/-- How many bytes the next frame has to bring. -/
def chunk : Nat := min 7 (a.length - a.data.length)

def extend (data : Bytes) : Assembly :=
  { a with data := a.data ++ data.take a.chunk, seq := (a.seq + 1) % 16 }

/-- What follows once the bytes of a consecutive frame have been added: the message is complete, or
its frame is counted into the block. -/
def stored (blockSize : Nat) : Option Assembly × List Output :=
  if a.length ≤ a.data.length then (none, [.delivered a.data])
  else if blockSize = 0 then (some a, [])
  else if blockSize ≤ a.block + 1 then (some { a with block := 0 }, [.answered fcStatusCts])
  else (some { a with block := a.block + 1 }, [])

end Assembly

/-- What becomes of a message under construction when another one starts. -/
def interruption : Option Assembly → List Output
  | none => []
  | some a => [.lost a.data .errUnexpPdu]

/-- One step of the reassembler: buffer size, block size, message under construction, data unit. -/
def receive (size blockSize : Nat) (x : Option Assembly) : Pdu → Option Assembly × List Output
  | .single data =>
      if size < data.length then (x, []) else (none, interruption x ++ [.delivered data])
  | .first length data =>
      if size < length then (none, interruption x ++ [.answered fcStatusOvflw])
      else (some { length, data, seq := 1, block := 0 }, interruption x ++ [.answered fcStatusCts])
  | .consecutive seq data =>
      match x with
      | none => (none, [])
      | some a =>
          if seq ≠ a.seq then (none, [.lost a.data .errWrongSn])
          else if data.length < a.chunk then (some a, [])
          else (a.extend data).stored blockSize
  | .other => (x, [])

/-- Whether the reassembler stores bytes of the data unit in a message under construction. -/
def takes (size : Nat) (x : Option Assembly) : Pdu → Bool
  | .first length _ => length ≤ size
  | .consecutive seq data =>
      match x with
      | none => false
      | some a => seq = a.seq ∧ a.chunk ≤ data.length
  | _ => false

theorem receive_taken {a : Assembly} {seq : Nat} {data : Bytes} (size blockSize : Nat)
    (hseq : seq = a.seq) (henough : a.chunk ≤ data.length) :
    receive size blockSize (some a) (.consecutive seq data) = (a.extend data).stored blockSize := by
  simp only [receive, if_neg (not_not.mpr hseq), if_neg (Nat.not_lt.mpr henough)]

@[simp] theorem messages_interruption (x : Option Assembly) :
    (interruption x).filterMap Output.message = [] := by
  cases x <;> rfl

theorem messages_stored (a : Assembly) (blockSize : Nat) :
    (a.stored blockSize).2.filterMap Output.message
      = if a.length ≤ a.data.length then [a.data] else [] := by
  unfold Assembly.stored
  split
  · rfl
  · split
    · rfl
    · split <;> rfl

/-- Being a message and completing one are the two ways a data unit delivers. -/
theorem messages_receive (size blockSize : Nat) (x : Option Assembly) (p : Pdu) :
    (receive size blockSize x p).2.filterMap Output.message =
      match x, p with
      | _, .single d => if d.length ≤ size then [d] else []
      | some a, .consecutive seq data =>
          if seq = a.seq ∧ a.chunk ≤ data.length ∧ a.length ≤ (a.extend data).data.length then
            [(a.extend data).data]
          else []
      | _, _ => [] := by
  cases p with
  | single d =>
      by_cases hfit : d.length ≤ size
      · simp [receive, Nat.not_lt.mpr hfit, hfit, Output.message]
      · simp [receive, Nat.lt_of_not_le hfit, hfit]
  | first length d =>
      by_cases hfit : size < length <;>
        simp only [receive, hfit, if_true, if_false, List.filterMap_append, messages_interruption] <;> rfl
  | other => simp [receive]
  | consecutive seq data =>
      cases x with
      | none => rfl
      | some a =>
          by_cases hseq : seq = a.seq
          · by_cases henough : a.chunk ≤ data.length
            · rw [receive_taken _ _ hseq henough, messages_stored]
              simp [hseq, henough, Assembly.extend]
            · simp [receive, hseq, Nat.lt_of_not_le henough, henough]
          · simp [receive, hseq, Output.message]

theorem mem_messages_receive {size blockSize : Nat} {x : Option Assembly} {p : Pdu} {d : Bytes} :
    d ∈ (receive size blockSize x p).2.filterMap Output.message ↔
      (p = .single d ∧ d.length ≤ size) ∨
      ∃ a seq data, x = some a ∧ p = .consecutive seq data ∧ seq = a.seq ∧ a.chunk ≤ data.length ∧
        a.length ≤ (a.extend data).data.length ∧ d = (a.extend data).data := by
  rw [messages_receive]
  cases p with
  | single d' =>
      by_cases hfit : d'.length ≤ size
      · simp only [if_pos hfit, List.mem_singleton]
        constructor
        · rintro rfl
          exact .inl ⟨rfl, hfit⟩
        · rintro (⟨heq, -⟩ | ⟨_, _, _, _, heq, _⟩)
          · exact (Pdu.single.inj heq).symm
          · cases heq
      · simp only [if_neg hfit, List.not_mem_nil, false_iff]
        rintro (⟨heq, hd⟩ | ⟨_, _, _, _, heq, _⟩)
        · obtain rfl := Pdu.single.inj heq
          exact hfit hd
        · cases heq
  | first length d' => simp
  | other => simp
  | consecutive seq data =>
      cases x with
      | none => simp
      | some a =>
          by_cases htaken : seq = a.seq ∧ a.chunk ≤ data.length ∧
              a.length ≤ (a.extend data).data.length
          · simp only [if_pos htaken, List.mem_singleton]
            constructor
            · rintro rfl
              exact .inr ⟨a, seq, data, rfl, rfl, htaken.1, htaken.2.1, htaken.2.2, rfl⟩
            · rintro (⟨heq, -⟩ | ⟨_, _, _, heq, hpdu, -, -, -, hd⟩)
              · cases heq
              · obtain rfl := Option.some.inj heq
                obtain ⟨rfl, rfl⟩ := Pdu.consecutive.inj hpdu
                exact hd
          · simp only [if_neg htaken, List.not_mem_nil, false_iff]
            rintro (⟨heq, -⟩ | ⟨_, _, _, heq, hpdu, hseq, henough, hend, -⟩)
            · cases heq
            · obtain rfl := Option.some.inj heq
              obtain ⟨rfl, rfl⟩ := Pdu.consecutive.inj hpdu
              exact htaken ⟨hseq, henough, hend⟩

theorem length_messages_receive (size blockSize : Nat) (x : Option Assembly) (p : Pdu) :
    ((receive size blockSize x p).2.filterMap Output.message).length ≤ 1 := by
  rw [messages_receive]
  split
  · split <;> simp
  · split <;> simp
  · simp

theorem receive_unchanged (size blockSize : Nat) {a : Assembly} {p : Pdu}
    (h : match p with
      | .single d => size < d.length
      | .first _ _ => False
      | .consecutive seq data => seq = a.seq ∧ data.length < a.chunk
      | .other => True) :
    receive size blockSize (some a) p = (some a, []) ∧ takes size (some a) p = false := by
  cases p with
  | single d => exact ⟨if_pos h, rfl⟩
  | first length d => exact absurd h id
  | other => exact ⟨rfl, rfl⟩
  | consecutive seq data => simp [receive, takes, h.1, h.2]

/-! ### Frames of a segmentation -/

theorem bytes_singleFrame {length : Nat} {data : Bytes} (h : data.length ≤ 7) :
    (singleFrame length data).bytes
      = pci pciTypeSf length :: data ++ List.replicate (7 - data.length) paddingByte := by
  have hlen : (pci pciTypeSf length :: data).length ≤ 8 := Nat.succ_le_succ h
  rw [singleFrame, Frame.bytes_padded hlen]
  simp

theorem bytes_consecutiveFrame {seq : Nat} {data : Bytes} (h : data.length ≤ 7) :
    (consecutiveFrame seq data).bytes
      = pci pciTypeCf seq :: data ++ List.replicate (7 - data.length) paddingByte := by
  have hlen : (pci pciTypeCf seq :: data).length ≤ 8 := Nat.succ_le_succ h
  rw [consecutiveFrame, Frame.bytes_padded hlen]
  simp

theorem bytes_firstFrame {length : Nat} {data : Bytes} (h : data.length = 6) :
    (firstFrame length data).bytes
      = pci pciTypeFf ((length >>> 8) &&& 0x0F) :: UInt8.ofNat (length &&& 0xFF) :: data := by
  rw [firstFrame, Frame.bytes_padded (by simp [h])]
  simp [h]

theorem decode_singleFrame {m : Bytes} (hpos : m.length ≠ 0) (hlen : m.length ≤ 7) :
    decode (singleFrame m.length m) 8 = .single m := by
  have htype : (singleFrame m.length m).pciType = 0 := Frame.pciType_padded (by decide) (by omega) _
  have hlow : (singleFrame m.length m).pciLow = m.length :=
    Frame.pciLow_padded (by decide) (by omega) _
  have hgood : ¬ (m.length = 0 ∨ 7 < m.length ∨ 8 - 1 < m.length) := by omega
  rw [decode_sf (by decide) htype, hlow, if_neg hgood]
  simp [bytes_singleFrame hlen, slice]

theorem decode_consecutiveFrame {seq : Nat} (hseq : seq < 16) {data : Bytes} (hlen : data.length ≤ 7) :
    decode (consecutiveFrame seq data) 8
      = .consecutive seq (data ++ List.replicate (7 - data.length) paddingByte) := by
  have htype : (consecutiveFrame seq data).pciType = 2 := Frame.pciType_padded (by decide) hseq _
  have hlow : (consecutiveFrame seq data).pciLow = seq := Frame.pciLow_padded (by decide) hseq _
  rw [decode_cf (by decide) htype, hlow]
  have hfull : data.length + (7 - data.length) = 7 := by omega
  simp [bytes_consecutiveFrame hlen, slice, List.take_of_length_le, hfull]

theorem ffLength_firstFrame {length : Nat} (h : length ≤ 4095) (data : Bytes) :
    (firstFrame length data).ffLength = length := by
  have hhigh : (length >>> 8) &&& 0x0F = length / 256 % 16 := by
    rw [Nat.and_two_pow_sub_one_eq_mod _ 4, Nat.shiftRight_eq_div_pow]
  have hlowByte : length &&& 0xFF = length % 256 := Nat.and_two_pow_sub_one_eq_mod _ 8
  have hlow : (firstFrame length data).pciLow = length / 256 % 16 := by
    rw [firstFrame, hhigh]
    exact Frame.pciLow_padded (by decide) (by omega) _
  have hbyte : (firstFrame length data).byte 1 = length % 256 := by
    simp [firstFrame, Frame.padded, Frame.byte, hlowByte]
  have hor : (length / 256 % 16) <<< 8 ||| length % 256 = (length / 256 % 16) <<< 8 + length % 256 :=
    (Nat.shiftLeft_add_eq_or_of_lt (Nat.mod_lt _ (by decide)) _).symm
  rw [Frame.ffLength, hlow, hbyte, hor, Nat.shiftLeft_eq]
  omega

theorem decode_firstFrame {length : Nat} {data : Bytes} (hmin : 7 < length) (hmax : length ≤ 4095)
    (hdata : data.length = 6) : decode (firstFrame length data) 8 = .first length data := by
  have htype : (firstFrame length data).pciType = 1 := by
    refine Frame.pciType_padded (by decide) ?_ _
    rw [Nat.and_two_pow_sub_one_eq_mod _ 4]
    exact Nat.mod_lt _ (by decide)
  have hgood : ¬ (8 < 8 ∨ length ≤ 7) := by omega
  rw [decode_ff (by decide) htype, ffLength_firstFrame hmax, if_neg hgood]
  simp [bytes_firstFrame hdata, slice, hdata]

/-! ### A segmentation is reassembled -/

/-- The message `m` with its FF and `k` CFs taken. -/
def partialOf (m : Bytes) (k block : Nat) : Assembly :=
  { length := m.length, data := m.take (6 + 7 * k), seq := (k + 1) % 16, block }

section RoundTrip

variable {m : Bytes} {k : Nat}

theorem chunk_partialOf (hk : 6 + 7 * k < m.length) (block : Nat) :
    (partialOf m k block).chunk = min 7 (m.length - (6 + 7 * k)) := by
  have hdata : (m.take (6 + 7 * k)).length = 6 + 7 * k := by
    rw [List.length_take]
    omega
  rw [Assembly.chunk, partialOf, hdata]

theorem extend_partialOf (hk : 6 + 7 * k < m.length) (block : Nat) (padding : Bytes) :
    (partialOf m k block).extend (slice m (6 + 7 * k) 7 ++ padding) = partialOf m (k + 1) block := by
  have hslice : (slice m (6 + 7 * k) 7).length = min 7 (m.length - (6 + 7 * k)) := by
    rw [slice, List.length_take, List.length_drop]
  have hseq : ((k + 1) % 16 + 1) % 16 = (k + 1 + 1) % 16 := by omega
  rw [Assembly.extend, chunk_partialOf hk, ← hslice, List.take_left' rfl]
  simp only [partialOf, take_append_slice, hseq, Nat.mul_add, Nat.mul_one, Nat.add_assoc]

theorem receive_segment (size blockSize block : Nat) (hk : 6 + 7 * k < m.length) :
    receive size blockSize (some (partialOf m k block)) (decode (segment m k) 8) =
      if m.length ≤ 6 + 7 * (k + 1) then (none, [.delivered m])
      else if blockSize = 0 then (some (partialOf m (k + 1) block), [])
      else if blockSize ≤ block + 1 then (some (partialOf m (k + 1) 0), [.answered fcStatusCts])
      else (some (partialOf m (k + 1) (block + 1)), []) := by
  have hslice : (slice m (6 + 7 * k) 7).length ≤ 7 := by
    rw [slice, List.length_take]
    omega
  have hfull : (slice m (6 + 7 * k) 7
      ++ List.replicate (7 - (slice m (6 + 7 * k) 7).length) paddingByte).length = 7 := by
    rw [List.length_append, List.length_replicate]
    omega
  have hchunk := chunk_partialOf hk block
  have hend : (partialOf m (k + 1) block).length ≤ (partialOf m (k + 1) block).data.length ↔
      m.length ≤ 6 + 7 * (k + 1) := by
    simp only [partialOf, List.length_take]
    omega
  have hseq : (k + 1) % 16 = (partialOf m k block).seq := rfl
  rw [segment, decode_consecutiveFrame (by omega) hslice, receive_taken _ _ hseq (by omega),
    extend_partialOf hk, Assembly.stored]
  by_cases hlast : m.length ≤ 6 + 7 * (k + 1)
  · rw [if_pos (hend.mpr hlast), if_pos hlast, partialOf, List.take_of_length_le hlast]
  · rw [if_neg (mt hend.mp hlast), if_neg hlast]
    rfl

end RoundTrip

end MiniEcu.IsoTp
