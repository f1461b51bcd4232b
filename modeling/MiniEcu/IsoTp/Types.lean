import MiniEcu.Lib.Memory

/-!
# The ISO-TP link: frames, configuration and runtime state

The data of `isotp.h`. `IsoTp_Link_t` is kept in its two halves, the sender's fields and the
receiver's, which no function of `isotp.c` mixes. The two buffers the configuration points to are
part of the state: their contents change, their sizes are fixed by `IsoTp_Init`. Counters are
natural numbers and every store into a `uint8_t` or `uint16_t` is reduced where the code stores it.
-/

namespace MiniEcu.IsoTp

abbrev Bytes := List UInt8

/-! ### Constants -/

@[simp] abbrev canDl : Nat := 8
@[simp] abbrev maxMessageLen : Nat := 4095
@[simp] abbrev maxWft : Nat := 10
@[simp] abbrev sfMaxData : Nat := 7
@[simp] abbrev ffData : Nat := 6
@[simp] abbrev cfMaxData : Nat := 7
@[simp] abbrev seqMask : Nat := 0x0F

def paddingByte : UInt8 := 0xCC

@[simp] abbrev pciTypeSf : Nat := 0
@[simp] abbrev pciTypeFf : Nat := 1
@[simp] abbrev pciTypeCf : Nat := 2
@[simp] abbrev pciTypeFc : Nat := 3

@[simp] abbrev fcStatusCts : Nat := 0
@[simp] abbrev fcStatusWait : Nat := 1
@[simp] abbrev fcStatusOvflw : Nat := 2

def defaultNBsMs : Nat := 1000
def defaultNCrMs : Nat := 1000

/-! ### Frames -/

/-- The data field of a classic CAN frame: a buffer of eight bytes. -/
structure Frame where
  bytes : Bytes
  length_bytes : bytes.length = 8
deriving DecidableEq

namespace Frame

def byte (f : Frame) (i : Nat) : Nat := (f.bytes.getD i 0).toNat

/-- The high nibble of the first byte. -/
def pciType (f : Frame) : Nat := f.byte 0 >>> 4

/-- The low nibble of the first byte. -/
def pciLow (f : Frame) : Nat := f.byte 0 &&& 0x0F

theorem byte_lt (f : Frame) (i : Nat) : f.byte i < 2 ^ 8 := (f.bytes.getD i 0).toNat_lt

/-- `InitFrame` followed by stores from the first byte on. -/
def padded (bs : Bytes) : Frame where
  bytes := (bs ++ List.replicate canDl paddingByte).take canDl
  length_bytes := by simp

end Frame

/-- `(uint8_t)((type << 4U) | low)`. -/
def pci (type low : Nat) : UInt8 := UInt8.ofNat (type <<< 4 ||| low)

def singleFrame (length : Nat) (data : Bytes) : Frame := .padded (pci pciTypeSf length :: data)

def firstFrame (length : Nat) (data : Bytes) : Frame :=
  .padded (pci pciTypeFf ((length >>> 8) &&& 0x0F) :: UInt8.ofNat (length &&& 0xFF) :: data)

def consecutiveFrame (seq : Nat) (data : Bytes) : Frame := .padded (pci pciTypeCf seq :: data)

def flowControlFrame (status : Nat) (blockSize stMin : UInt8) : Frame :=
  .padded [pci pciTypeFc status, blockSize, stMin]

/-- The raw STmin byte in milliseconds. Reserved values count as the maximum. -/
def decodeStMin (raw : Nat) : Nat :=
  if raw ≤ 0x7F then raw
  else if 0xF1 ≤ raw ∧ raw ≤ 0xF9 then 1
  else 0x7F

/-! ### State -/

inductive Result
  | ok
  | errBusy
  | errParam
  | errTimeoutBs
  | errTimeoutCr
  | errWrongSn
  | errOverflow
  | errWftOvrn
  | errUnexpPdu
  | errInvalidFs
deriving DecidableEq, Repr

/-- `IsoTp_Config_t` without its callbacks. `rxBuffer` and `txBuffer` are the memory the caller
hands over, as it is when `IsoTp_Init` is called. -/
structure Config where
  txId : Nat
  rxId : Nat
  rxBuffer : Bytes
  txBuffer : Bytes
  blockSize : UInt8
  stMin : UInt8
  nBsTimeoutMs : Nat
  nCrTimeoutMs : Nat

def Config.rxBufferSize (cfg : Config) : Nat := cfg.rxBuffer.length

def Config.txBufferSize (cfg : Config) : Nat := cfg.txBuffer.length

inductive TxState
  | idle
  | sendFirst
  | waitFc
  | sendCf
deriving DecidableEq, Repr

inductive RxState
  | idle
  | receiving
deriving DecidableEq, Repr

/-- The sender's fields of `IsoTp_Link_t`. -/
structure TxSide where
  txState : TxState := .idle
  txLength : Nat := 0
  txOffset : Nat := 0
  txSeq : Nat := 0
  txBlockSize : Nat := 0
  txBlockCount : Nat := 0
  txStMinMs : Nat := 0
  txTimerStart : Nat := 0
  txLastCfTime : Nat := 0
  txWaitCount : Nat := 0
  txBuffer : Bytes
deriving DecidableEq

/-- The receiver's fields of `IsoTp_Link_t`. -/
structure RxSide where
  rxState : RxState := .idle
  rxLength : Nat := 0
  rxOffset : Nat := 0
  rxSeq : Nat := 0
  rxBlockCount : Nat := 0
  rxTimerStart : Nat := 0
  rxFcPending : Bool := false
  rxFcStatus : Nat := 0
  rxBuffer : Bytes
deriving DecidableEq

structure Link where
  cfg : Config
  tx : TxSide
  rx : RxSide

/-- `IsoTp_Init`: everything zero, the timeouts defaulted. -/
def init (cfg : Config) : Link where
  cfg := { cfg with
    nBsTimeoutMs := if cfg.nBsTimeoutMs = 0 then defaultNBsMs else cfg.nBsTimeoutMs
    nCrTimeoutMs := if cfg.nCrTimeoutMs = 0 then defaultNCrMs else cfg.nCrTimeoutMs }
  tx := { txBuffer := cfg.txBuffer }
  rx := { rxBuffer := cfg.rxBuffer }

/-- `IsoTp_IsTxBusy`. -/
def isTxBusy (link : Link) : Bool := link.tx.txState != .idle

/-! ### Reading frames back -/

theorem pci_toNat {type low : Nat} (htype : type < 16) (hlow : low < 16) :
    (pci type low).toNat = 16 * type + low := by
  have hor : type <<< 4 ||| low = type <<< 4 + low := (Nat.shiftLeft_add_eq_or_of_lt hlow type).symm
  rw [pci, UInt8.toNat_ofNat', hor, Nat.shiftLeft_eq]
  omega

namespace Frame

theorem pciType_eq (f : Frame) : f.pciType = f.byte 0 / 16 := by
  rw [pciType, Nat.shiftRight_eq_div_pow]

theorem pciLow_eq (f : Frame) : f.pciLow = f.byte 0 % 16 :=
  Nat.and_two_pow_sub_one_eq_mod _ 4

theorem pciLow_lt (f : Frame) : f.pciLow < 16 := by
  rw [pciLow_eq]
  exact Nat.mod_lt _ (by decide)

@[simp] theorem bytes_padded {bs : Bytes} (h : bs.length ≤ 8) :
    (padded bs).bytes = bs ++ List.replicate (8 - bs.length) paddingByte := by
  simp only [padded, canDl, List.take_append, List.take_of_length_le h, List.take_replicate,
    Nat.min_eq_left (Nat.sub_le 8 bs.length)]

theorem byte_padded_zero (b : UInt8) (bs : Bytes) : (padded (b :: bs)).byte 0 = b.toNat := by
  simp [padded, byte]

theorem pciType_padded {type low : Nat} (htype : type < 16) (hlow : low < 16) (bs : Bytes) :
    (padded (pci type low :: bs)).pciType = type := by
  rw [pciType_eq, byte_padded_zero, pci_toNat htype hlow]
  omega

theorem pciLow_padded {type low : Nat} (htype : type < 16) (hlow : low < 16) (bs : Bytes) :
    (padded (pci type low :: bs)).pciLow = low := by
  rw [pciLow_eq, byte_padded_zero, pci_toNat htype hlow]
  omega

end Frame

end MiniEcu.IsoTp
