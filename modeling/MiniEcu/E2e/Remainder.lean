import MiniEcu.E2e.Corruption

/-!
# The checksum as a remainder

The two loops of the checksum are a long division. What they leave in the register is the remainder
of the byte string by the polynomial of SAE J1850, the string having eight more places at its end and
the initial register added to its front. The bits are read most significant first.
-/

namespace MiniEcu.E2e

open IsoTp (Bytes)
open Polynomial

noncomputable section

/-- Bit `p` of a byte string, from the most significant bit of the first byte on. -/
def bitAt (data : Bytes) (p : Nat) : Bool := (data.getD (p / 8) 0).toBitVec.getMsbD (p % 8)

/-- A byte string as a polynomial: its first bit is the coefficient of the highest power. -/
def polynomial (data : Bytes) : (ZMod 2)[X] :=
  ∑ p ∈ Finset.range (8 * data.length),
    if bitAt data p then X ^ (8 * data.length - 1 - p) else 0

end

theorem polynomial_eq (data : Bytes) : polynomial data = Crc.ofWords (words data) := by
  have hbit : ∀ p, bitAt data p = Crc.bit (words data) p := fun p => (bit_words data p).symm
  rw [polynomial, Crc.ofWords_eq_sum (by decide), Crc.flips, Finset.sum_filter, words,
    List.length_map]
  simp only [hbit, words]

theorem polynomial_singleton (b : UInt8) : polynomial [b] = Crc.ofWord b.toBitVec := by
  rw [polynomial_eq]
  exact Crc.ofWords_singleton b.toBitVec

theorem generator_crc8 :
    Crc.generator crc8Generator = X ^ 8 + X ^ 4 + X ^ 3 + X ^ 2 + 1 := by
  have hbits : (Finset.range 8).filter (fun i => crc8Generator.getLsbD i) = {4, 3, 2, 0} := by
    decide
  rw [Crc.generator, Crc.ofWord, ← Finset.sum_filter, hbits, Finset.sum_insert (by decide),
    Finset.sum_insert (by decide), Finset.sum_insert (by decide), Finset.sum_singleton, pow_zero]
  ring

theorem polynomial_foldl_crc8Byte (data : Bytes) (crc : UInt8) :
    polynomial [data.foldl crc8Byte crc] =
      (polynomial data * X ^ 8 + polynomial [crc] * X ^ (8 * data.length)) %ₘ
        (X ^ 8 + X ^ 4 + X ^ 3 + X ^ 2 + 1) := by
  rw [polynomial_singleton, toBitVec_foldl_crc8Byte, Crc.ofWord_foldl_feed, ← polynomial_eq,
    ← polynomial_singleton, generator_crc8, words, List.length_map]

/-- **The checksum is a remainder.** The register after a byte string is the remainder of its
polynomial, with the initial register in front and eight more places, by the polynomial of SAE J1850.
The checksum is its complement, and what follows the string is processed from that register on. -/
theorem crc8SaeJ1850_eq_remainder (data : Bytes) :
    ∃ remainder : UInt8,
      polynomial [remainder] =
        (polynomial data * X ^ 8 + polynomial [0xFF] * X ^ (8 * data.length)) %ₘ
          (X ^ 8 + X ^ 4 + X ^ 3 + X ^ 2 + 1) ∧
      crc8SaeJ1850 data = 0xFF ^^^ remainder ∧
      ∀ more : Bytes, crc8SaeJ1850 (data ++ more) = 0xFF ^^^ more.foldl crc8Byte remainder := by
  have hcomplement : ∀ r : UInt8, r ^^^ crc8XorOut = 0xFF ^^^ r := fun r => UInt8.xor_comm r _
  refine ⟨data.foldl crc8Byte crc8Init, polynomial_foldl_crc8Byte data crc8Init, ?_, fun more => ?_⟩
  · rw [crc8SaeJ1850, hcomplement]
  · rw [crc8SaeJ1850, List.foldl_append, hcomplement]

end MiniEcu.E2e
