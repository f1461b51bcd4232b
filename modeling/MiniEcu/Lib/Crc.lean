import Mathlib.Algebra.CharP.Two
import Mathlib.Algebra.Polynomial.Div
import Mathlib.Algebra.Polynomial.Degree.Lemmas
import Mathlib.Algebra.Field.ZMod
import Mathlib.RingTheory.AdjoinRoot
import Mathlib.RingTheory.Polynomial.Basic

/-!
# Cyclic redundancy checks

The register of a bitwise CRC and the polynomials over the field with two elements that it computes
with. A register of `w` bits is a polynomial of degree below `w`. A shift multiplies it by `X`, modulo
the generator; feeding a word adds it and shifts `w` times. Two messages leave the same register
exactly if the generator divides their difference, and this is all there is to the detection of
errors.
-/

namespace Crc

open Polynomial

variable {w : Nat}

/-! ### The register -/

/-- Multiply the register by `X`. The generator is `X ^ w` and the terms that `poly` gives. -/
def shift (poly r : BitVec w) : BitVec w := if r.msb then r <<< 1 ^^^ poly else r <<< 1

/-- Feed one word, the most significant bit first. -/
def feed (poly r b : BitVec w) : BitVec w := (shift poly)^[w] (r ^^^ b)

/-! ### Polynomials -/

noncomputable section

/-- The coefficients are the bits. -/
def ofWord (r : BitVec w) : (ZMod 2)[X] := ∑ i ∈ Finset.range w, if r.getLsbD i then X ^ i else 0

def generator (poly : BitVec w) : (ZMod 2)[X] := X ^ w + ofWord poly

/-- The words of a message one after another, the first one in front. -/
def ofWords (bs : List (BitVec w)) : (ZMod 2)[X] := bs.foldl (fun p b => p * X ^ w + ofWord b) 0

end

theorem coeff_ofWord (r : BitVec w) (i : Nat) :
    (ofWord r).coeff i = if r.getLsbD i then 1 else 0 := by
  rw [ofWord, finsetSum_coeff]
  by_cases hi : i < w
  · rw [Finset.sum_eq_single i]
    · split <;> simp
    · intro j _ hji
      split
      · rw [coeff_X_pow, if_neg hji.symm]
      · exact coeff_zero i
    · exact fun hmem => absurd (Finset.mem_range.mpr hi) hmem
  · rw [BitVec.getLsbD_of_ge r i (Nat.le_of_not_lt hi), Finset.sum_eq_zero]
    · simp
    · intro j hj
      rw [Finset.mem_range] at hj
      split
      · rw [coeff_X_pow, if_neg (by omega)]
      · exact coeff_zero i

theorem ofWord_injective : Function.Injective (ofWord (w := w)) := by
  intro r s h
  apply BitVec.eq_of_getLsbD_eq
  intro i _
  have hcoeff := congrArg (fun p => coeff p i) h
  simp only [coeff_ofWord] at hcoeff
  cases hr : r.getLsbD i <;> cases hs : s.getLsbD i <;> simp [hr, hs] at hcoeff ⊢

theorem ofWord_xor (r s : BitVec w) : ofWord (r ^^^ s) = ofWord r + ofWord s := by
  ext i
  rw [coeff_add, coeff_ofWord, coeff_ofWord, coeff_ofWord, BitVec.getLsbD_xor]
  cases r.getLsbD i <;> cases s.getLsbD i <;> decide

theorem degree_ofWord_lt (r : BitVec w) : (ofWord r).degree < w := by
  rw [degree_lt_iff_coeff_zero]
  intro i hi
  rw [coeff_ofWord, BitVec.getLsbD_of_ge r i hi]
  rfl

theorem monic_generator (poly : BitVec w) : (generator poly).Monic :=
  monic_X_pow_add (degree_ofWord_lt poly)

theorem degree_generator (poly : BitVec w) : (generator poly).degree = w := by
  rw [generator, degree_add_eq_left_of_degree_lt] <;> rw [degree_X_pow]
  exact degree_ofWord_lt poly

/-! ### What the register computes -/

variable (poly : BitVec w)

theorem ofWord_shiftLeft (r : BitVec w) :
    X * ofWord r = ofWord (r <<< 1) + if r.msb then X ^ w else 0 := by
  have htop : ∀ i, (if r.msb then X ^ w else 0 : (ZMod 2)[X]).coeff i =
      if r.msb ∧ i = w then 1 else 0 := by
    intro i
    split <;> simp_all [coeff_X_pow]
  ext i
  rw [coeff_add, coeff_ofWord, BitVec.getLsbD_shiftLeft, htop]
  cases i with
  | zero =>
      cases w with
      | zero => simp [BitVec.msb]
      | succ w => simp
  | succ i =>
      rw [coeff_X_mul, coeff_ofWord]
      by_cases hlt : i + 1 < w
      · simp [hlt, Nat.ne_of_lt hlt]
      · by_cases heq : i + 1 = w
        · subst heq
          simp [BitVec.msb_eq_getLsbD_last]
        · rw [BitVec.getLsbD_of_ge r i (by omega)]
          simp [hlt, heq]

/-- A shift is a multiplication by `X`, up to a multiple of the generator. -/
theorem ofWord_shift (r : BitVec w) :
    X * ofWord r = ofWord (shift poly r) + if r.msb then generator poly else 0 := by
  rw [ofWord_shiftLeft, shift]
  split
  · rw [ofWord_xor, generator, add_assoc, add_left_comm (ofWord poly), CharTwo.add_self_eq_zero,
      add_zero]
  · rfl

/-- The residue of a register modulo the generator, after some shifts. -/
theorem mk_shifts (n : Nat) (r : BitVec w) :
    AdjoinRoot.mk (generator poly) (ofWord ((shift poly)^[n] r)) =
      AdjoinRoot.mk (generator poly) (X ^ n * ofWord r) := by
  induction n generalizing r with
  | zero => simp
  | succ n ih =>
      have hone : AdjoinRoot.mk (generator poly) (X * ofWord r) =
          AdjoinRoot.mk (generator poly) (ofWord (shift poly r)) := by
        rw [ofWord_shift poly r, map_add]
        split <;> simp
      rw [Function.iterate_succ_apply, ih, map_mul, ← hone, ← map_mul, ← mul_assoc, ← pow_succ]

theorem mk_feed (r b : BitVec w) :
    AdjoinRoot.mk (generator poly) (ofWord (feed poly r b)) =
      AdjoinRoot.mk (generator poly) (X ^ w * (ofWord r + ofWord b)) := by
  rw [feed, mk_shifts, ofWord_xor]

@[simp] theorem ofWords_singleton (b : BitVec w) : ofWords [b] = ofWord b := by
  simp [ofWords]

theorem ofWords_concat (bs : List (BitVec w)) (b : BitVec w) :
    ofWords (bs ++ [b]) = ofWords bs * X ^ w + ofWord b := by
  rw [ofWords, List.foldl_append]
  rfl

/-- The register after a message is the message behind the initial register, with `w` more places,
modulo the generator. -/
theorem mk_foldl_feed (r : BitVec w) (bs : List (BitVec w)) :
    AdjoinRoot.mk (generator poly) (ofWord (bs.foldl (feed poly) r)) =
      AdjoinRoot.mk (generator poly) (ofWord r * X ^ (w * bs.length) + ofWords bs * X ^ w) := by
  induction bs using List.reverseRecOn with
  | nil => simp [ofWords]
  | append_singleton bs b ih =>
      rw [List.foldl_concat, mk_feed, map_mul, map_add, ih, ← map_add, ← map_mul, ofWords_concat,
        List.length_append, List.length_singleton, Nat.mul_succ, pow_add]
      congr 1
      ring

/-- A residue determines the register. -/
theorem mk_ofWord_inj {r s : BitVec w} :
    AdjoinRoot.mk (generator poly) (ofWord r) = AdjoinRoot.mk (generator poly) (ofWord s) ↔
      r = s := by
  constructor
  · intro h
    apply ofWord_injective
    by_contra hne
    refine (monic_generator poly).not_dvd_of_degree_lt (sub_ne_zero.mpr hne) ?_
      (AdjoinRoot.mk_eq_mk.mp h)
    rw [degree_generator]
    exact (degree_sub_le _ _).trans_lt (max_lt (degree_ofWord_lt r) (degree_ofWord_lt s))
  · rintro rfl
    rfl

/-- A word is what the generator leaves of every polynomial with the same residue. -/
theorem ofWord_eq_modByMonic {r : BitVec w} {p : (ZMod 2)[X]}
    (h : AdjoinRoot.mk (generator poly) (ofWord r) = AdjoinRoot.mk (generator poly) p) :
    ofWord r = p %ₘ generator poly := by
  have hsmall : ofWord r %ₘ generator poly = ofWord r := by
    rw [modByMonic_eq_self_iff (monic_generator poly), degree_generator]
    exact degree_ofWord_lt r
  rw [← hsmall]
  apply modByMonic_eq_of_dvd_sub (monic_generator poly)
  exact AdjoinRoot.mk_eq_mk.mp h

/-- **Long division.** The register after a message is the remainder that the generator leaves of the
message with `w` more places, the initial register being added to its front. -/
theorem ofWord_foldl_feed (r : BitVec w) (bs : List (BitVec w)) :
    ofWord (bs.foldl (feed poly) r) =
      (ofWords bs * X ^ w + ofWord r * X ^ (w * bs.length)) %ₘ generator poly := by
  apply ofWord_eq_modByMonic
  rw [mk_foldl_feed, add_comm]

/-! ### Errors -/

theorem ofWords_cons (b : BitVec w) (bs : List (BitVec w)) :
    ofWords (b :: bs) = ofWord b * X ^ (w * bs.length) + ofWords bs := by
  induction bs using List.reverseRecOn with
  | nil => simp [ofWords]
  | append_singleton bs c ih =>
      rw [← List.cons_append, ofWords_concat, ih, ofWords_concat, List.length_append,
        List.length_singleton, Nat.mul_succ, pow_add]
      ring

theorem ofWords_xor {bs es : List (BitVec w)} (h : bs.length = es.length) :
    ofWords (List.zipWith (· ^^^ ·) bs es) = ofWords bs + ofWords es := by
  induction bs generalizing es with
  | nil =>
      obtain rfl : es = [] := List.length_eq_zero_iff.mp h.symm
      simp [ofWords]
  | cons b bs ih =>
      cases es with
      | nil => cases h
      | cons e es =>
          have htail : bs.length = es.length := Nat.succ.inj h
          rw [List.zipWith_cons_cons, ofWords_cons, ih htail, ofWords_cons, ofWords_cons, ofWord_xor,
            List.length_zipWith, ← htail, Nat.min_self]
          ring

/-- A message and its check word, both with errors, still match exactly if the generator divides
the errors. -/
theorem foldl_feed_xor_iff {bs es : List (BitVec w)} (h : bs.length = es.length) (r e : BitVec w) :
    (List.zipWith (· ^^^ ·) bs es).foldl (feed poly) r = bs.foldl (feed poly) r ^^^ e ↔
      generator poly ∣ ofWords (es ++ [e]) := by
  have hlen : (List.zipWith (· ^^^ ·) bs es).length = bs.length := by
    rw [List.length_zipWith, ← h, Nat.min_self]
  rw [← mk_ofWord_inj poly, ofWord_xor, map_add, mk_foldl_feed, mk_foldl_feed, hlen, ofWords_xor h,
    ← map_add, AdjoinRoot.mk_eq_mk, ofWords_concat]
  have hdiff : ofWord r * X ^ (w * bs.length) + (ofWords bs + ofWords es) * X ^ w -
      (ofWord r * X ^ (w * bs.length) + ofWords bs * X ^ w + ofWord e) =
        ofWords es * X ^ w + ofWord e := by
    rw [← CharTwo.sub_eq_add (ofWords es * X ^ w)]
    ring
  rw [hdiff]

/-! ### Detection -/

/-- Bit `p` of a message, the most significant bit of its first word being bit 0. -/
def bit (bs : List (BitVec w)) (p : Nat) : Bool := (bs.getD (p / w) 0).getMsbD (p % w)

/-- The bits that are set. -/
def flips (bs : List (BitVec w)) : Finset Nat := (Finset.range (w * bs.length)).filter (bit bs ·)

theorem ofWord_eq_sum (r : BitVec w) :
    ofWord r = ∑ p ∈ Finset.range w, if r.getMsbD p then X ^ (w - 1 - p) else 0 := by
  rw [ofWord, ← Finset.sum_range_reflect]
  refine Finset.sum_congr rfl fun p hp => ?_
  rw [Finset.mem_range] at hp
  rw [BitVec.getMsbD_eq_getLsbD, decide_eq_true hp, Bool.true_and]

theorem bit_cons_of_lt (b : BitVec w) (bs : List (BitVec w)) {p : Nat} (hp : p < w) :
    bit (b :: bs) p = b.getMsbD p := by
  rw [bit, Nat.div_eq_of_lt hp, Nat.mod_eq_of_lt hp]
  rfl

theorem bit_cons_add (b : BitVec w) (bs : List (BitVec w)) (p : Nat) (hw : 0 < w) :
    bit (b :: bs) (w + p) = bit bs p := by
  rw [bit, Nat.add_div_left p hw, Nat.add_mod_left, List.getD_cons_succ, bit]

/-- A message is the sum of its set bits. -/
theorem ofWords_eq_sum (hw : 0 < w) (bs : List (BitVec w)) :
    ofWords bs = ∑ p ∈ flips bs, X ^ (w * bs.length - 1 - p) := by
  rw [flips, Finset.sum_filter]
  induction bs with
  | nil => simp [ofWords]
  | cons b bs ih =>
      rw [ofWords_cons, ih, ofWord_eq_sum, Finset.sum_mul, List.length_cons, Nat.mul_succ,
        Nat.add_comm, Finset.sum_range_add]
      congr 1
      · refine Finset.sum_congr rfl fun p hp => ?_
        rw [Finset.mem_range] at hp
        rw [bit_cons_of_lt b bs hp, ite_mul, zero_mul, ← pow_add,
          show w - 1 - p + w * bs.length = w + w * bs.length - 1 - p by omega]
      · refine Finset.sum_congr rfl fun p _ => ?_
        rw [bit_cons_add b bs p hw,
          show w + w * bs.length - 1 - (w + p) = w * bs.length - 1 - p by omega]

variable {poly}

/-- A sum of different powers is not zero. -/
theorem sum_X_pow_ne_zero {s : Finset Nat} (hs : s.Nonempty) {f : Nat → Nat} (hf : Set.InjOn f s) :
    ∑ p ∈ s, (X ^ f p : (ZMod 2)[X]) ≠ 0 := by
  obtain ⟨p, hp⟩ := hs
  have hcoeff : (∑ p ∈ s, (X ^ f p : (ZMod 2)[X])).coeff (f p) = 1 := by
    rw [finsetSum_coeff, Finset.sum_eq_single p]
    · rw [coeff_X_pow, if_pos rfl]
    · intro q hq hne
      rw [coeff_X_pow, if_neg fun heq => hne (hf hq hp heq.symm)]
    · exact fun hnot => absurd hp hnot
  intro hzero
  rw [hzero, coeff_zero] at hcoeff
  exact zero_ne_one hcoeff

/-- A generator with a constant term has no factor `X`. -/
theorem dvd_of_dvd_X_pow_mul (hw : 0 < w) (hodd : poly.getLsbD 0 = true) {k : Nat} {q : (ZMod 2)[X]}
    (hdvd : generator poly ∣ X ^ k * q) : generator poly ∣ q := by
  have hconstant : ¬ X ∣ generator poly := by
    rw [X_dvd_iff, generator, coeff_add, coeff_X_pow, if_neg (Nat.ne_of_lt hw), coeff_ofWord, hodd]
    decide
  have hcoprime : IsCoprime (generator poly) (X ^ k) :=
    (irreducible_X.coprime_iff_not_dvd.mpr hconstant).symm.pow_right
  exact hcoprime.dvd_of_dvd_mul_left hdvd

/-- **Bursts.** Errors that lie within `w` neighbouring bits are detected. -/
theorem not_dvd_of_burst (hw : 0 < w) (hodd : poly.getLsbD 0 = true) {es : List (BitVec w)}
    (hsome : (flips es).Nonempty) (first : Nat)
    (hburst : ∀ p ∈ flips es, first ≤ p ∧ p < first + w) :
    ¬ generator poly ∣ ofWords es := by
  have hrange : ∀ p ∈ flips es, p < w * es.length := fun p hp =>
    Finset.mem_range.mp (Finset.mem_filter.mp hp).1
  -- the burst ends `k` bits before the end, or less
  set k := w * es.length - (first + w) with hk
  have hsum : ofWords es = X ^ k * ∑ p ∈ flips es, X ^ (w * es.length - 1 - p - k) := by
    rw [ofWords_eq_sum hw, Finset.mul_sum]
    refine Finset.sum_congr rfl fun p hp => ?_
    have hburst := hburst p hp
    have hrange := hrange p hp
    rw [← pow_add]
    congr 1
    omega
  intro hdvd
  rw [hsum] at hdvd
  refine (monic_generator poly).not_dvd_of_degree_lt (sum_X_pow_ne_zero hsome ?_) ?_
    (dvd_of_dvd_X_pow_mul hw hodd hdvd)
  · intro p hp q hq heq
    have hburstp := hburst p hp
    have hburstq := hburst q hq
    have hrangep := hrange p hp
    have hrangeq := hrange q hq
    simp only [] at heq
    omega
  · rw [degree_generator, ← mem_degreeLT]
    refine Submodule.sum_mem _ fun p hp => ?_
    have hburst := hburst p hp
    have hrange := hrange p hp
    rw [mem_degreeLT, degree_X_pow]
    exact_mod_cast (show w * es.length - 1 - p - k < w by omega)

theorem ofWord_one (hw : 0 < w) : ofWord (1 : BitVec w) = 1 := by
  ext i
  rw [coeff_ofWord, coeff_one, show (1 : BitVec w) = 1#w from rfl, BitVec.getLsbD_one]
  by_cases hi : i = 0
  · simp [hi, hw]
  · simp [hi]

/-- **Pairs.** Two errors are detected unless their distance is a multiple of the period of the
register. -/
theorem not_dvd_of_pair (hw : 0 < w) (hodd : poly.getLsbD 0 = true) {es : List (BitVec w)}
    (hperiod : ∀ n, 0 < n → n < w * es.length → (shift poly)^[n] 1 ≠ 1) {p q : Nat} (hlt : p < q)
    (hflips : flips es = {p, q}) : ¬ generator poly ∣ ofWords es := by
  have hq : q < w * es.length := by
    have hmem : q ∈ flips es := by
      rw [hflips]
      simp
    exact Finset.mem_range.mp (Finset.mem_filter.mp hmem).1
  have hsum : ofWords es = X ^ (w * es.length - 1 - q) * (X ^ (q - p) + 1) := by
    rw [ofWords_eq_sum hw, hflips, Finset.sum_pair (Nat.ne_of_lt hlt), mul_add, mul_one, ← pow_add,
      show w * es.length - 1 - q + (q - p) = w * es.length - 1 - p by omega]
  intro hdvd
  rw [hsum] at hdvd
  refine hperiod (q - p) (by omega) (by omega) ((mk_ofWord_inj poly).mp ?_)
  rw [mk_shifts, ofWord_one hw, mul_one, AdjoinRoot.mk_eq_mk, CharTwo.sub_eq_add]
  exact dvd_of_dvd_X_pow_mul hw hodd hdvd

end Crc
