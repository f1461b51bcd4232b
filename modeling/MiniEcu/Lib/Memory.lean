import Mathlib.Algebra.Group.Int.Defs
import Mathlib.Algebra.Group.Nat.Defs
import Mathlib.Data.List.Basic
import Mathlib.Tactic.Common

/-!
# Buffers and machine integers

A buffer is the list of its bytes. Copying into it replaces a stretch and leaves the rest; the list
keeps its length exactly when the stretch lies inside the buffer, so a copy past the end shows up
as a longer list instead of disappearing.
-/

namespace Memory

/-- Copy `src` over `dst` from `offset` on. -/
def copy (dst : List UInt8) (offset : Nat) (src : List UInt8) : List UInt8 :=
  dst.take offset ++ src ++ dst.drop (offset + src.length)

/-- The `count` bytes of `src` from `offset` on. -/
def slice (src : List UInt8) (offset count : Nat) : List UInt8 := (src.drop offset).take count

theorem length_copy {dst src : List UInt8} {offset : Nat} (h : offset + src.length ≤ dst.length) :
    (copy dst offset src).length = dst.length := by
  simp only [copy, List.length_append, List.length_take, List.length_drop]
  omega

/-- After a copy at the end of a filled prefix the prefix is longer by what was copied. -/
theorem take_copy {dst src : List UInt8} {offset : Nat} (h : offset ≤ dst.length) :
    (copy dst offset src).take (offset + src.length) = dst.take offset ++ src := by
  have hlen : (dst.take offset ++ src).length = offset + src.length := by
    simp only [List.length_append, List.length_take]
    omega
  rw [copy, ← hlen, List.take_left']
  rfl

theorem take_copy_zero (dst src : List UInt8) : (copy dst 0 src).take src.length = src := by
  simpa using @take_copy dst src 0 (Nat.zero_le _)

theorem length_slice {src : List UInt8} {offset count : Nat} (h : offset + count ≤ src.length) :
    (slice src offset count).length = count := by
  simp only [slice, List.length_take, List.length_drop]
  omega

/-- A slice below a bound is a slice of the prefix up to that bound. -/
theorem slice_take {src : List UInt8} {offset count bound : Nat} (h : offset + count ≤ bound) :
    slice (src.take bound) offset count = slice src offset count := by
  simp only [slice, List.drop_take, List.take_take]
  rw [Nat.min_eq_left (by omega)]

/-- A slice of a prefix ends where the prefix ends. -/
theorem slice_take_min (src : List UInt8) (offset count bound : Nat) :
    slice (src.take bound) offset count = slice src offset (min count (bound - offset)) := by
  simp only [slice, List.drop_take, List.take_take]

/-- A prefix followed by the slice after it is a longer prefix. -/
theorem take_append_slice (src : List UInt8) (offset count : Nat) :
    src.take offset ++ slice src offset count = src.take (offset + count) := by
  rw [slice, List.take_add]

/-! ### Checked accesses

These answer nothing where a program in C would go wrong: outside the buffer, below zero, or with a
value that the type it is stored in cannot hold.
-/

def load (src : List UInt8) (i : Nat) : Option UInt8 := src[i]?

def loadAll (src : List UInt8) (i count : Nat) : Option (List UInt8) :=
  if i + count ≤ src.length then some (slice src i count) else none

def store (dst : List UInt8) (i : Nat) (b : UInt8) : Option (List UInt8) :=
  if i < dst.length then some (dst.set i b) else none

/-- Store bytes one after another, from `i` on. -/
def storeAll : List UInt8 → Nat → List UInt8 → Option (List UInt8)
  | dst, _, [] => some dst
  | dst, i, b :: bs => (store dst i b).bind fun dst => storeAll dst (i + 1) bs

/-- The value in an unsigned type of `bits` bits. -/
def narrow (bits n : Nat) : Option Nat := if n < 2 ^ bits then some n else none

def minus (a b : Nat) : Option Nat := if b ≤ a then some (a - b) else none

theorem load_eq {src : List UInt8} {i : Nat} (h : i < src.length) :
    load src i = some (src.getD i 0) := by
  rw [load, List.getD_eq_getElem?_getD, List.getElem?_eq_getElem h]
  rfl

theorem loadAll_eq {src : List UInt8} {i count : Nat} (h : i + count ≤ src.length) :
    loadAll src i count = some (slice src i count) := if_pos h

theorem narrow_eq {bits n : Nat} (h : n < 2 ^ bits) : narrow bits n = some n := if_pos h

theorem minus_eq {a b : Nat} (h : b ≤ a) : minus a b = some (a - b) := if_pos h

@[simp] theorem copy_nil (dst : List UInt8) (i : Nat) : copy dst i [] = dst := by
  simp [copy]

theorem copy_cons {dst : List UInt8} {i : Nat} (h : i < dst.length) (b : UInt8) (bs : List UInt8) :
    copy (dst.set i b) (i + 1) bs = copy dst i (b :: bs) := by
  have hbefore : (dst.set i b).take (i + 1) = dst.take i ++ [b] := by
    rw [List.take_succ_eq_append_getElem (by rwa [List.length_set]), List.getElem_set_self,
      List.take_set_of_le (Nat.le_refl i)]
  have hafter : (dst.set i b).drop (i + 1 + bs.length) = dst.drop (i + (bs.length + 1)) := by
    rw [List.drop_set_of_lt (by omega), Nat.add_right_comm, Nat.add_assoc]
  simp only [copy, hbefore, hafter, List.append_assoc, List.cons_append, List.nil_append,
    List.length_cons]

/-- Copies that come one right after the other are one copy. -/
theorem copy_append {dst : List UInt8} {i : Nat} {bs : List UInt8} (h : i + bs.length ≤ dst.length)
    (bs' : List UInt8) : copy (copy dst i bs) (i + bs.length) bs' = copy dst i (bs ++ bs') := by
  induction bs generalizing dst i with
  | nil => simp
  | cons b bs ih =>
      rw [List.length_cons] at h ⊢
      rw [← copy_cons (by omega), List.cons_append, ← copy_cons (by omega), ← ih, Nat.add_assoc,
        Nat.add_comm 1]
      rw [List.length_set]
      omega

/-- Inside the buffer the stores are one copy. -/
theorem storeAll_eq {dst bs : List UInt8} {i : Nat} (h : i + bs.length ≤ dst.length) :
    storeAll dst i bs = some (copy dst i bs) := by
  induction bs generalizing dst i with
  | nil => simp [storeAll]
  | cons b bs ih =>
      rw [List.length_cons] at h
      have hin : i < dst.length := by omega
      rw [storeAll, store, if_pos hin, Option.bind_some, ih, copy_cons hin]
      rw [List.length_set]
      omega

theorem store_eq {dst : List UInt8} {i : Nat} (h : i < dst.length) (b : UInt8) :
    store dst i b = some (copy dst i [b]) := by
  rw [store, if_pos h, ← copy_cons h, copy_nil]

/-! ### Unsigned arithmetic -/

/-- Subtraction in an unsigned type of `bits` bits. -/
def wrapSub (bits a b : Nat) : Nat := (((a : Int) - b) % 2 ^ bits).toNat

theorem wrapSub_eq {bits a b : Nat} (hle : b ≤ a) (hlt : a < 2 ^ bits) : wrapSub bits a b = a - b := by
  have hnonneg : (0 : Int) ≤ (a : Int) - b := by omega
  have hbound : (a : Int) - b < 2 ^ bits := by
    have : (a : Int) < 2 ^ bits := by exact_mod_cast hlt
    omega
  rw [wrapSub, Int.emod_eq_of_lt hnonneg hbound]
  omega

/-- `(uint32_t)(now - start)`: the difference of two readings of a 32-bit counter. -/
def elapsed (now start : Nat) : Nat := wrapSub 32 now start

/-- The difference of two readings is the true one, less the wraps in between. -/
theorem elapsed_mod {start now : Nat} (h : start ≤ now) :
    elapsed (now % 2 ^ 32) (start % 2 ^ 32) = (now - start) % 2 ^ 32 := by
  unfold elapsed wrapSub
  omega

/-- Two readings less than one wrap apart give the true difference. -/
theorem elapsed_eq {start now : Nat} (h : start ≤ now) (hwrap : now < start + 2 ^ 32) :
    elapsed (now % 2 ^ 32) (start % 2 ^ 32) = now - start := by
  rw [elapsed_mod h, Nat.mod_eq_of_lt (by omega)]

/-- A difference modulo the wrap is no more than the true one. -/
theorem elapsed_le {start now : Nat} (h : start ≤ now) :
    elapsed (now % 2 ^ 32) (start % 2 ^ 32) ≤ now - start := by
  rw [elapsed_mod h]
  exact Nat.mod_le _ _

end Memory
