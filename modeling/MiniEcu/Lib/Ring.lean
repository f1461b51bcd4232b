import MiniEcu.Lib.Windows

/-!
# Ring buffers between a writer and a reader

The writer owns the head and the reader the tail, so that neither index is written by both. Equal
indices mean that the buffer is empty. To tell this from a full buffer the writer leaves one cell
free: it stores nothing when the head would reach the tail. Seen through `contents` the buffer is a
queue of a bounded length.
-/

variable {α : Type}

/-- The head is the cell the writer fills next and the tail the one the reader empties next. -/
@[ext] structure RingBuffer (α : Type) where
  cells : List α
  head : Nat
  tail : Nat
  head_lt : head < cells.length
  tail_lt : tail < cells.length

namespace RingBuffer

/-! ### Operations -/

/-- The cell after `i`. -/
def next (b : RingBuffer α) (i : Nat) : Nat := (i + 1) % b.cells.length

theorem next_lt (b : RingBuffer α) (i : Nat) : b.next i < b.cells.length :=
  Nat.mod_lt _ (Nat.zero_lt_of_lt b.head_lt)

def Empty (b : RingBuffer α) : Prop := b.head = b.tail

/-- The writer would reach the reader. -/
def Full (b : RingBuffer α) : Prop := b.next b.head = b.tail

instance (b : RingBuffer α) : Decidable b.Empty := inferInstanceAs (Decidable (b.head = b.tail))

instance (b : RingBuffer α) : Decidable b.Full := inferInstanceAs (Decidable (b.next b.head = b.tail))

def push (b : RingBuffer α) (x : α) : RingBuffer α where
  cells := b.cells.set b.head x
  head := b.next b.head
  tail := b.tail
  head_lt := by rw [List.length_set]; exact b.next_lt b.head
  tail_lt := by rw [List.length_set]; exact b.tail_lt

/-- What the reader reads. -/
def front (b : RingBuffer α) : α := b.cells.get ⟨b.tail, b.tail_lt⟩

def pop (b : RingBuffer α) : RingBuffer α where
  cells := b.cells
  head := b.head
  tail := b.next b.tail
  head_lt := b.head_lt
  tail_lt := b.next_lt b.tail

/-- How many cells there are from the tail to the head. -/
def count (b : RingBuffer α) : Nat :=
  if b.tail ≤ b.head then b.head - b.tail else b.head + b.cells.length - b.tail

/-- The cells from the tail to the head, in the order in which they have been filled. -/
def contents (b : RingBuffer α) : List α := (History.oldestFirst b.cells b.tail).take b.count

/-! ### The indices -/

variable (b : RingBuffer α)

theorem next_eq {i : Nat} (hi : i < b.cells.length) :
    b.next i = if i + 1 = b.cells.length then 0 else i + 1 := by
  rw [next]
  split
  · rename_i hwrap
    rw [hwrap, Nat.mod_self]
  · rename_i hne
    exact Nat.mod_eq_of_lt (by omega)

theorem count_lt : b.count < b.cells.length := by
  have hhead := b.head_lt
  have htail := b.tail_lt
  rw [count]
  split <;> omega

theorem count_eq_zero_iff : b.count = 0 ↔ b.Empty := by
  have hhead := b.head_lt
  have htail := b.tail_lt
  rw [count, Empty]
  split <;> omega

theorem full_iff_count : b.Full ↔ b.count + 1 = b.cells.length := by
  have hhead := b.head_lt
  have htail := b.tail_lt
  rw [Full, b.next_eq hhead, count]
  split <;> split <;> omega

theorem count_push (hroom : ¬ b.Full) (x : α) : (b.push x).count = b.count + 1 := by
  have hhead := b.head_lt
  have htail := b.tail_lt
  have hnext := b.next_eq hhead
  rw [Full] at hroom
  simp only [count, push, List.length_set]
  split at hnext <;> split <;> split <;> omega

theorem count_pop (hsome : ¬ b.Empty) : b.pop.count + 1 = b.count := by
  have hhead := b.head_lt
  have htail := b.tail_lt
  have hnext := b.next_eq htail
  have hpop : b.pop.count = if b.next b.tail ≤ b.head then b.head - b.next b.tail
      else b.head + b.cells.length - b.next b.tail := rfl
  rw [Empty] at hsome
  rw [hpop, count]
  split at hnext <;> split <;> split <;> omega

/-! ### The queue -/

theorem length_oldestFirst : (History.oldestFirst b.cells b.tail).length = b.cells.length :=
  (History.oldestFirst_perm b.cells b.tail).length_eq

theorem length_contents : b.contents.length = b.count := by
  rw [contents, List.length_take, b.length_oldestFirst]
  exact Nat.min_eq_left (Nat.le_of_lt b.count_lt)

theorem contents_eq_nil_iff : b.contents = [] ↔ b.Empty := by
  rw [← List.length_eq_zero_iff, length_contents, count_eq_zero_iff]

/-- A buffer is full with one cell left. -/
theorem full_iff : b.Full ↔ b.contents.length + 1 = b.cells.length := by
  rw [full_iff_count, length_contents]

/-- Writing puts a value behind the others. -/
theorem contents_push (hroom : ¬ b.Full) (x : α) : (b.push x).contents = b.contents ++ [x] := by
  have hlt : b.count < (History.oldestFirst b.cells b.tail).length := by
    rw [b.length_oldestFirst]
    exact b.count_lt
  have hcells : History.oldestFirst (b.push x).cells (b.push x).tail =
      (History.oldestFirst b.cells b.tail).set b.count x :=
    History.oldestFirst_set_cell b.tail_lt b.head_lt x
  rw [contents, hcells, b.count_push hroom,
    List.take_succ_eq_append_getElem (by rwa [List.length_set]), List.getElem_set_self,
    List.take_set_of_le (le_refl b.count), contents]

/-- Reading takes the first one. -/
theorem contents_pop (hsome : ¬ b.Empty) : b.contents = b.front :: b.pop.contents := by
  have hcount := b.count_pop hsome
  have hlt := b.count_lt
  have hrest : b.pop.count ≤ (b.cells.drop (b.tail + 1) ++ b.cells.take b.tail).length := by
    have htail := b.tail_lt
    rw [List.length_append, List.length_drop, List.length_take]
    omega
  have hcells : History.oldestFirst b.pop.cells b.pop.tail =
      (History.oldestFirst b.cells b.tail).tail ++ [b.cells.get ⟨b.tail, b.tail_lt⟩] :=
    History.oldestFirst_next b.tail_lt
  rw [contents, contents, hcells, ← hcount, History.oldestFirst_eq_cons b.tail_lt, List.tail_cons,
    List.take_succ_cons, List.take_append_of_le_length hrest]
  rfl

/-- The writer leaves the cell alone that is being read. -/
theorem front_push (hsome : ¬ b.Empty) (x : α) : (b.push x).front = b.front :=
  List.getElem_set_ne hsome _

end RingBuffer
