import MiniEcu.IsoTp.Types
import Mathlib.Logic.Function.Iterate

/-!
# End-to-end protection

The functions of `crc8.c` and `e2e.c`: the checksum, what the sender writes into bytes 6 and 7 of a
cyclic frame, and what the receiver makes of them.
-/

namespace MiniEcu.E2e

open IsoTp (Bytes Frame)

/-! ### The checksum -/

def crc8Poly : UInt8 := 0x1D
def crc8Init : UInt8 := 0xFF
def crc8XorOut : UInt8 := 0xFF

/-- The body of the loop over the bits. -/
def crc8Bit (crc : UInt8) : UInt8 :=
  if crc &&& 0x80 ≠ 0 then (crc <<< 1) ^^^ crc8Poly else crc <<< 1

/-- The body of the loop over the bytes. -/
def crc8Byte (crc b : UInt8) : UInt8 := crc8Bit^[8] (crc ^^^ b)

/-- `Crc8_SaeJ1850`. -/
def crc8SaeJ1850 (data : Bytes) : UInt8 := data.foldl crc8Byte crc8Init ^^^ crc8XorOut

-- the check value that `crc8.h` gives
example : crc8SaeJ1850 [0x31, 0x32, 0x33, 0x34, 0x35, 0x36, 0x37, 0x38, 0x39] = 0x4B := by
  decide +kernel

/-! ### Frames -/

def frameLen : Nat := 8
def counterByte : Nat := 6
def crcByte : Nat := 7
def counterMask : UInt8 := 0x0F
def maxDeltaCounter : UInt8 := 3

/-- Store one byte of a frame. -/
def store (f : Frame) (i : Nat) (b : UInt8) : Frame where
  bytes := f.bytes.set i b
  length_bytes := by rw [List.length_set, f.length_bytes]

def load (f : Frame) (i : Nat) : UInt8 := f.bytes.getD i 0

/-- The checksum the frame should carry. -/
def checksum (f : Frame) : UInt8 := crc8SaeJ1850 (f.bytes.take crcByte)

/-- `E2e_Protect`: the frame to be sent and the counter of the next one. -/
def protect (f : Frame) (counter : UInt8) : Frame × UInt8 :=
  let f := store f counterByte (counter &&& counterMask)
  (store f crcByte (checksum f), (counter + 1) &&& counterMask)

/-! ### The receiver -/

inductive Status
  | ok
  | okSomeLost
  | initial
  | errCrc
  | errRepeated
  | errWrongSeq
  | errLength
deriving DecidableEq, Repr

/-- `E2e_IsValid`. -/
def isValid (status : Status) : Bool :=
  status = .ok || status = .okSomeLost || status = .initial

structure RxState where
  lastCounter : UInt8
  synced : Bool
deriving DecidableEq, Repr

/-- `E2e_InitRx`. -/
def initRx : RxState where
  lastCounter := 0
  synced := false

/-- `E2e_Check`. -/
def check (s : RxState) (f : Frame) (dlc : Nat) : Status × RxState :=
  if dlc < frameLen then (.errLength, s)
  else if checksum f ≠ load f crcByte then
    -- a corrupted frame must never touch the counter state
    (.errCrc, s)
  else
    let counter := load f counterByte &&& counterMask
    if !s.synced then (.initial, { synced := true, lastCounter := counter })
    else
      -- modulo-16 distance, so 15 -> 0 counts as +1
      let delta := (counter - s.lastCounter) &&& counterMask
      if delta = 0 then (.errRepeated, s)   -- keep lastCounter
      else
        let s := { s with lastCounter := counter }
        if delta = 1 then (.ok, s)
        else if delta ≤ maxDeltaCounter then (.okSomeLost, s)
        else (.errWrongSeq, s)   -- the next one is judged against it

/-! ### What the sender has written -/

variable (f : Frame) (counter : UInt8)

theorem take_store {i : Nat} (n : Nat) (b : UInt8) (h : n ≤ i) :
    (store f i b).bytes.take n = f.bytes.take n := by
  rw [store, List.take_set_of_le h]

theorem load_store_self {i : Nat} (b : UInt8) (h : i < 8) : load (store f i b) i = b := by
  have hlen : i < f.bytes.length := by
    rw [f.length_bytes]
    exact h
  simp [load, store, hlen]

theorem load_store_of_ne {i j : Nat} (b : UInt8) (h : i ≠ j) :
    load (store f i b) j = load f j := by
  simp [load, store, List.getD_eq_getElem?_getD, List.getElem?_set_ne h]

theorem take_protect : (protect f counter).1.bytes.take 6 = f.bytes.take 6 := by
  rw [protect, take_store _ 6 _ (by decide), take_store _ 6 _ (by decide)]

theorem load_protect {i : Nat} (h : i < 6) : load (protect f counter).1 i = load f i := by
  have hcounter : counterByte ≠ i := by
    rw [counterByte]
    omega
  have hcrc : crcByte ≠ i := by
    rw [crcByte]
    omega
  rw [protect, load_store_of_ne _ _ hcrc, load_store_of_ne _ _ hcounter]

theorem checksum_protect : checksum (protect f counter).1 = load (protect f counter).1 crcByte := by
  rw [protect, load_store_self _ _ (by decide), checksum, take_store _ _ _ (by decide)]
  rfl

theorem counter_protect : load (protect f counter).1 counterByte = counter &&& counterMask := by
  rw [protect, load_store_of_ne _ _ (by decide), load_store_self _ _ (by decide)]

end MiniEcu.E2e
