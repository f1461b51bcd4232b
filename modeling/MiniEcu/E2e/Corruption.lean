import MiniEcu.E2e.Sequence
import MiniEcu.Lib.Crc

/-!
# Corrupted frames

The checksum is the check word of a cyclic code, so whether a corrupted frame passes depends on the
error alone, not on the frame. No error of one or two bits passes, and no burst of up to eight.
-/

namespace MiniEcu.E2e

open IsoTp (Bytes Frame)

/-! ### The checksum as a register -/

def words (bs : Bytes) : List (BitVec 8) := bs.map UInt8.toBitVec

def crc8Generator : BitVec 8 := crc8Poly.toBitVec

theorem bit_words (data : Bytes) (p : Nat) :
    Crc.bit (words data) p = (data.getD (p / 8) 0).toBitVec.getMsbD (p % 8) := by
  rw [Crc.bit, words, List.getD_eq_getElem?_getD, List.getD_eq_getElem?_getD, List.getElem?_map]
  cases data[p / 8]? <;> rfl

theorem toBitVec_crc8Bit (crc : UInt8) :
    (crc8Bit crc).toBitVec = Crc.shift crc8Generator crc.toBitVec := by
  have hall : ∀ r : BitVec 8, (crc8Bit ⟨r⟩).toBitVec = Crc.shift crc8Generator r := by
    decide +kernel
  exact hall crc.toBitVec

theorem toBitVec_crc8Byte (crc b : UInt8) :
    (crc8Byte crc b).toBitVec = Crc.feed crc8Generator crc.toBitVec b.toBitVec := by
  have hbits : ∀ n (c : UInt8),
      (crc8Bit^[n] c).toBitVec = (Crc.shift crc8Generator)^[n] c.toBitVec := by
    intro n
    induction n with
    | zero => exact fun _ => rfl
    | succ n ih =>
        intro c
        rw [Function.iterate_succ_apply, Function.iterate_succ_apply, ih, toBitVec_crc8Bit]
  rw [crc8Byte, hbits, UInt8.toBitVec_xor]
  rfl

theorem toBitVec_foldl_crc8Byte (data : Bytes) (crc : UInt8) :
    (data.foldl crc8Byte crc).toBitVec =
      (words data).foldl (Crc.feed crc8Generator) crc.toBitVec := by
  induction data generalizing crc with
  | nil => rfl
  | cons b data ih =>
      rw [List.foldl_cons, ih, toBitVec_crc8Byte]
      rfl

/-! ### Errors -/

/-- The frame with an error pattern XORed onto it. -/
def corrupt (f e : Frame) : Frame where
  bytes := List.zipWith (· ^^^ ·) f.bytes e.bytes
  length_bytes := by rw [List.length_zipWith, f.length_bytes, e.length_bytes]; rfl

/-- Whether bit `p` is flipped, counted from the most significant bit of the first byte. -/
def flipped (e : Frame) (p : Nat) : Bool := (load e (p / 8)).toBitVec.getMsbD (p % 8)

def flips (e : Frame) : Finset Nat := (Finset.range 64).filter (flipped e ·)

/-- One flipped bit, two of them, or a burst of up to eight neighbouring ones. -/
def FewFlips (e : Frame) : Prop :=
  (flips e).card = 1 ∨ (flips e).card = 2 ∨
    (flips e).Nonempty ∧ ∃ first, ∀ p ∈ flips e, first ≤ p ∧ p < first + 8

variable {f e : Frame}

theorem flips_eq (e : Frame) : flips e = Crc.flips (words e.bytes) := by
  have hbit : ∀ p, flipped e p = Crc.bit (words e.bytes) p := by
    intro p
    rw [flipped, load, bit_words]
  rw [flips, Crc.flips, words, List.length_map, e.length_bytes]
  simp only [hbit]
  rfl

theorem bytes_eq (f : Frame) : f.bytes = f.bytes.take crcByte ++ [load f crcByte] := by
  have hlen : crcByte < f.bytes.length := by
    rw [f.length_bytes]
    decide
  have hlast : f.bytes.drop crcByte = [load f crcByte] := by
    rw [List.drop_eq_getElem_cons hlen, List.drop_of_length_le (by rw [f.length_bytes]; decide), load,
      List.getD_eq_getElem?_getD, List.getElem?_eq_getElem hlen]
    rfl
  rw [← hlast, List.take_append_drop]

theorem load_corrupt (f e : Frame) (i : Nat) :
    load (corrupt f e) i = load f i ^^^ load e i := by
  have hlen : f.bytes.length = e.bytes.length := f.length_bytes.trans e.length_bytes.symm
  simp only [load, corrupt, List.getD_eq_getElem?_getD, List.getElem?_zipWith]
  by_cases hi : i < f.bytes.length
  · rw [List.getElem?_eq_getElem hi, List.getElem?_eq_getElem (hlen ▸ hi)]
    rfl
  · rw [List.getElem?_eq_none (by omega), List.getElem?_eq_none (by omega)]
    rfl

theorem words_zipWith (bs es : Bytes) :
    words (List.zipWith (· ^^^ ·) bs es) = List.zipWith (· ^^^ ·) (words bs) (words es) := by
  rw [words, List.map_zipWith, words, words, List.zipWith_map]
  simp only [UInt8.toBitVec_xor]

/-- An error passes the checksum exactly if the generator divides it. -/
theorem checksum_corrupt_iff (h : checksum f = load f crcByte) (e : Frame) :
    checksum (corrupt f e) = load (corrupt f e) crcByte ↔
      Crc.generator crc8Generator ∣ Crc.ofWords (words e.bytes) := by
  have hlen : (words (f.bytes.take crcByte)).length = (words (e.bytes.take crcByte)).length := by
    rw [words, words, List.length_map, List.length_map, List.length_take, List.length_take,
      f.length_bytes, e.length_bytes]
  have hbytes : words e.bytes = words (e.bytes.take crcByte) ++ [(load e crcByte).toBitVec] := by
    conv_lhs => rw [bytes_eq e, words, List.map_append]
    rfl
  have hcancel : ∀ x y c : UInt8, x ^^^ c = y ^^^ c ^^^ load e crcByte ↔ x = y ^^^ load e crcByte := by
    intro x y c
    rw [UInt8.xor_assoc y, UInt8.xor_comm c, ← UInt8.xor_assoc, UInt8.xor_left_inj]
  rw [load_corrupt, ← h, checksum, checksum, corrupt, List.take_zipWith, crc8SaeJ1850, crc8SaeJ1850,
    hcancel, ← UInt8.toBitVec_inj, UInt8.toBitVec_xor, toBitVec_foldl_crc8Byte, toBitVec_foldl_crc8Byte,
    words_zipWith, hbytes]
  exact Crc.foldl_feed_xor_iff crc8Generator hlen _ _

/-! ### Detection -/

/-- The period of the register is longer than a frame. -/
theorem period_crc8 : ∀ n, 0 < n → n < 8 * 8 → (Crc.shift crc8Generator)^[n] 1 ≠ 1 := by
  have hall : ∀ n < 8 * 8, 0 < n → (Crc.shift crc8Generator)^[n] 1 ≠ 1 := by decide +kernel
  exact fun n hpos hlt => hall n hlt hpos

theorem not_dvd_of_fewFlips (h : FewFlips e) :
    ¬ Crc.generator crc8Generator ∣ Crc.ofWords (words e.bytes) := by
  rw [FewFlips, flips_eq] at h
  rcases h with hone | htwo | ⟨hsome, first, hburst⟩
  · obtain ⟨p, hp⟩ := Finset.card_eq_one.mp hone
    refine Crc.not_dvd_of_burst (by decide) rfl (by rw [hp]; exact Finset.singleton_nonempty p)
      p ?_
    intro q hq
    rw [hp, Finset.mem_singleton] at hq
    omega
  · obtain ⟨p, q, hne, hflips⟩ := Finset.card_eq_two.mp htwo
    have hperiod : ∀ n, 0 < n → n < 8 * (words e.bytes).length →
        (Crc.shift crc8Generator)^[n] 1 ≠ 1 := by
      rw [words, List.length_map, e.length_bytes]
      exact period_crc8
    rcases Nat.lt_or_gt_of_ne hne with hlt | hgt
    · exact Crc.not_dvd_of_pair (by decide) rfl hperiod hlt hflips
    · exact Crc.not_dvd_of_pair (by decide) rfl hperiod hgt (by rw [hflips, Finset.pair_comm])
  · exact Crc.not_dvd_of_burst (by decide) rfl hsome first hburst

/-- **Corruption is detected.** Whatever has been sent, and in whatever state the receiver is, a frame
with one or two flipped bits, or a burst of up to eight, is reported as corrupted and leaves that
state alone. -/
theorem corruption_detected (f e : Frame) (counter : UInt8) (s : RxState) (hfew : FewFlips e) :
    check s (corrupt (protect f counter).1 e) frameLen = (.errCrc, s) := by
  have hbad : checksum (corrupt (protect f counter).1 e) ≠
      load (corrupt (protect f counter).1 e) crcByte := by
    rw [ne_eq, checksum_corrupt_iff (checksum_protect f counter)]
    exact not_dvd_of_fewFlips hfew
  rw [check_broken s (.inr hbad), if_neg (Nat.lt_irrefl _)]

/-- A burst across the counter and the checksum. -/
theorem corruption_detected_counterBurst :
    let f : Frame := ⟨[0x04, 0xD2, 0x07, 0xE5, 0, 0, 0, 0], rfl⟩
    let e : Frame := ⟨[0, 0, 0, 0, 0, 0, 0x05, 0xA0], rfl⟩
    check initRx (corrupt (protect f 9).1 e) frameLen = (.errCrc, initRx) := by
  intro f e
  have hflips : flips e = {53, 55, 56, 58} := by decide +kernel
  refine corruption_detected f e 9 initRx (.inr (.inr ⟨?_, 53, ?_⟩))
  · rw [hflips]
    decide
  · rw [hflips]
    decide

end MiniEcu.E2e
