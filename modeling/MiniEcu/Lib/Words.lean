import Mathlib.Algebra.Group.Nat.Defs
import Mathlib.Data.List.Basic

/-!
# Words in byte strings

Words of sixteen bits, the high byte first, and the byte strings that consist of them.
-/

namespace MiniEcu.Words

/-- The word with the given bytes. -/
def be16 (hi lo : UInt8) : UInt16 := hi.toUInt16 <<< 8 ||| lo.toUInt16

def bytes (w : UInt16) : List UInt8 := [(w >>> 8).toUInt8, w.toUInt8]

@[simp] theorem length_bytes (w : UInt16) : (bytes w).length = 2 := rfl

theorem toNat_be16 (hi lo : UInt8) : (be16 hi lo).toNat = 256 * hi.toNat + lo.toNat := by
  have hhi := hi.toNat_lt
  have hor : hi.toNat <<< 8 ||| lo.toNat = hi.toNat <<< 8 + lo.toNat :=
    (Nat.shiftLeft_add_eq_or_of_lt lo.toNat_lt hi.toNat).symm
  have hshift : hi.toNat <<< 8 % 2 ^ 16 = hi.toNat <<< 8 := by
    apply Nat.mod_eq_of_lt
    rw [Nat.shiftLeft_eq]
    omega
  rw [be16, UInt16.toNat_or, UInt16.toNat_shiftLeft, UInt8.toNat_toUInt16, UInt8.toNat_toUInt16]
  show hi.toNat <<< 8 % 2 ^ 16 ||| lo.toNat = _
  rw [hshift, hor, Nat.shiftLeft_eq]
  omega

theorem toNat_high (w : UInt16) : (w >>> 8).toUInt8.toNat = w.toNat / 256 := by
  have hw := w.toNat_lt
  rw [UInt16.toNat_toUInt8, UInt16.toNat_shiftRight]
  show w.toNat >>> 8 % 2 ^ 8 = _
  rw [Nat.shiftRight_eq_div_pow]
  omega

theorem be16_bytes (w : UInt16) : be16 (w >>> 8).toUInt8 w.toUInt8 = w := by
  apply UInt16.toNat_inj.mp
  rw [toNat_be16, toNat_high, UInt16.toNat_toUInt8]
  omega

theorem bytes_be16 (hi lo : UInt8) : bytes (be16 hi lo) = [hi, lo] := by
  have hlo := lo.toNat_lt
  have hhigh : (be16 hi lo >>> 8).toUInt8 = hi := by
    apply UInt8.toNat_inj.mp
    rw [toNat_high, toNat_be16]
    omega
  have hlow : (be16 hi lo).toUInt8 = lo := by
    apply UInt8.toNat_inj.mp
    rw [UInt16.toNat_toUInt8, toNat_be16]
    omega
  rw [bytes, hhigh, hlow]

/-- The bytes as they are stored one by one. -/
theorem bytes_ofNat (n : Nat) :
    bytes (UInt16.ofNat n) = [UInt8.ofNat (n >>> 8), UInt8.ofNat (n &&& 0xFF)] := by
  have hhigh : (UInt16.ofNat n >>> 8).toUInt8 = UInt8.ofNat (n >>> 8) := by
    apply UInt8.toNat_inj.mp
    rw [toNat_high, UInt16.toNat_ofNat', UInt8.toNat_ofNat', Nat.shiftRight_eq_div_pow]
    omega
  have hlow : (UInt16.ofNat n).toUInt8 = UInt8.ofNat (n &&& 0xFF) := by
    apply UInt8.toNat_inj.mp
    rw [UInt16.toNat_toUInt8, UInt16.toNat_ofNat', UInt8.toNat_ofNat',
      show n &&& 0xFF = n % 256 from Nat.and_two_pow_sub_one_eq_mod n 8]
    omega
  rw [bytes, hhigh, hlow]

/-! ### Three bytes -/

/-- The number with the given three bytes. -/
def be24 (hi mid lo : UInt8) : UInt32 := hi.toUInt32 <<< 16 ||| mid.toUInt32 <<< 8 ||| lo.toUInt32

theorem toNat_be24 (hi mid lo : UInt8) :
    (be24 hi mid lo).toNat = 65536 * hi.toNat + 256 * mid.toNat + lo.toNat := by
  have hhi := hi.toNat_lt
  have hmid := mid.toNat_lt
  have hlo := lo.toNat_lt
  have hlow : mid.toNat <<< 8 ||| lo.toNat = 256 * mid.toNat + lo.toNat := by
    rw [← Nat.shiftLeft_add_eq_or_of_lt lo.toNat_lt, Nat.shiftLeft_eq]
    omega
  have hor : hi.toNat <<< 16 ||| (256 * mid.toNat + lo.toNat) =
      hi.toNat <<< 16 + (256 * mid.toNat + lo.toNat) :=
    (Nat.shiftLeft_add_eq_or_of_lt (by omega) hi.toNat).symm
  have hshift16 : hi.toNat <<< 16 % 2 ^ 32 = hi.toNat <<< 16 := by
    apply Nat.mod_eq_of_lt
    rw [Nat.shiftLeft_eq]
    omega
  have hshift8 : mid.toNat <<< 8 % 2 ^ 32 = mid.toNat <<< 8 := by
    apply Nat.mod_eq_of_lt
    rw [Nat.shiftLeft_eq]
    omega
  rw [be24, UInt32.toNat_or, UInt32.toNat_or, UInt32.toNat_shiftLeft, UInt32.toNat_shiftLeft,
    UInt8.toNat_toUInt32, UInt8.toNat_toUInt32, UInt8.toNat_toUInt32]
  show hi.toNat <<< 16 % 2 ^ 32 ||| mid.toNat <<< 8 % 2 ^ 32 ||| lo.toNat = _
  rw [hshift16, hshift8, Nat.or_assoc, hlow, hor, Nat.shiftLeft_eq]
  omega

/-- A number of three bytes is read back from them. -/
theorem be24_of_lt {w : UInt32} (hw : w.toNat < 2 ^ 24) :
    be24 (w >>> 16).toUInt8 (w >>> 8).toUInt8 w.toUInt8 = w := by
  apply UInt32.toNat_inj.mp
  rw [toNat_be24, UInt32.toNat_toUInt8, UInt32.toNat_toUInt8, UInt32.toNat_toUInt8,
    UInt32.toNat_shiftRight, UInt32.toNat_shiftRight]
  show 65536 * (w.toNat >>> 16 % 2 ^ 8) + 256 * (w.toNat >>> 8 % 2 ^ 8) + w.toNat % 2 ^ 8 = _
  rw [Nat.shiftRight_eq_div_pow, Nat.shiftRight_eq_div_pow]
  omega

/-! ### Strings of words -/

/-- The words of a byte string. A last byte without a partner is dropped. -/
def words : List UInt8 → List UInt16
  | hi :: lo :: rest => be16 hi lo :: words rest
  | _ => []

theorem words_flatMap (ws : List UInt16) : words (ws.flatMap bytes) = ws := by
  induction ws with
  | nil => rfl
  | cons w ws ih =>
      show be16 (w >>> 8).toUInt8 w.toUInt8 :: words (ws.flatMap bytes) = w :: ws
      rw [be16_bytes, ih]

theorem flatMap_words {n : Nat} {bs : List UInt8} (h : bs.length = 2 * n) :
    (words bs).flatMap bytes = bs := by
  induction n generalizing bs with
  | zero =>
      obtain rfl : bs = [] := List.length_eq_zero_iff.mp h
      rfl
  | succ n ih =>
      match bs, h with
      | hi :: lo :: rest, h =>
          simp only [List.length_cons] at h
          rw [words, List.flatMap_cons, bytes_be16, ih (by omega)]
          rfl

/-- The words by their positions. -/
theorem map_range_eq_words {n : Nat} {bs : List UInt8} (h : bs.length = 2 * n) :
    (List.range n).map (fun i => be16 (bs.getD (2 * i) 0) (bs.getD (2 * i + 1) 0)) = words bs := by
  induction n generalizing bs with
  | zero =>
      obtain rfl : bs = [] := List.length_eq_zero_iff.mp h
      rfl
  | succ n ih =>
      match bs, h with
      | hi :: lo :: rest, h =>
          simp only [List.length_cons] at h
          rw [List.range_succ_eq_map, List.map_cons, List.map_map, words, ← ih (by omega)]
          rfl

end MiniEcu.Words
