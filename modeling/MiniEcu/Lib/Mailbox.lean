import Mathlib.Data.List.Basic

/-!
# Bounded mailboxes

A mailbox holds messages in the order of their arrival, and no more than it has room for. A writer
that finds it full is turned away; a reader that finds it empty gets nothing.
-/

/-- At most `room` messages, the oldest first. -/
structure Mailbox (α : Type) (room : Nat) where
  messages : List α
  length_le : messages.length ≤ room
deriving DecidableEq

namespace Mailbox

variable {α : Type} {room : Nat}

def empty : Mailbox α room where
  messages := []
  length_le := Nat.zero_le room

/-- `none` where there is no room left. -/
def put (x : α) (m : Mailbox α room) : Option (Mailbox α room) :=
  if h : m.messages.length < room then
    some { messages := m.messages ++ [x], length_le := by rw [List.length_append]; exact h }
  else none

/-- The oldest message and what is left. -/
def get (m : Mailbox α room) : Option (α × Mailbox α room) :=
  match m with
  | ⟨[], _⟩ => none
  | ⟨x :: xs, h⟩ => some (x, { messages := xs, length_le := Nat.le_of_succ_le h })

variable {m m' : Mailbox α room} {x : α}

theorem put_eq_none_iff : m.put x = none ↔ m.messages.length = room := by
  have hle := m.length_le
  rw [put]
  split
  · exact iff_of_false (Option.some_ne_none _) (by omega)
  · exact iff_of_true rfl (by omega)

/-- The message that is put in is the last to come out. -/
theorem messages_put (h : m.put x = some m') : m'.messages = m.messages ++ [x] := by
  rw [put] at h
  split at h
  · exact congrArg messages (Option.some.inj h).symm
  · cases h

theorem messages_get (h : m.get = some (x, m')) : m.messages = x :: m'.messages := by
  obtain ⟨_ | ⟨y, ys⟩, hle⟩ := m
  · cases h
  · obtain ⟨rfl, rfl⟩ := Prod.mk.inj (Option.some.inj h)
    rfl

end Mailbox
