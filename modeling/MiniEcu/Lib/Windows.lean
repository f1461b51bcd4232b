import Mathlib.Data.List.DropRight

/-!
# Windows and streaks of a history

A history is a list of events, the latest one last. A summary of it that is updated event by event
usually speaks about a window, everything since the last event of some kind, or about a streak, how
often in a row the history ends with the same event. This module says how both change when one more
event happens, and how a ring buffer keeps the window of the last few events.
-/

namespace History

variable {α : Type}

/-! ### Windows -/

/-- What happened since the last event that closes a window. -/
def since (closes : α → Bool) (h : List α) : List α := h.rtakeWhile fun e => !closes e

variable {closes : α → Bool}

@[simp] theorem since_nil : since closes [] = [] := List.rtakeWhile_nil _

theorem since_concat (h : List α) (e : α) :
    since closes (h ++ [e]) = if closes e then [] else since closes h ++ [e] := by
  rw [since, List.rtakeWhile_concat]
  cases closes e <;> rfl

theorem since_concat_closing {e : α} (he : closes e = true) (h : List α) :
    since closes (h ++ [e]) = [] := by
  rw [since_concat, if_pos he]

theorem since_concat_open {e : α} (he : closes e = false) (h : List α) :
    since closes (h ++ [e]) = since closes h ++ [e] := by
  rw [since_concat, if_neg (by simp [he])]

/-! ### Occurrences -/

/-- Some occurrence of `e` is followed by a stretch with property `P`. -/
def Followed (e : α) (P : List α → Prop) (h : List α) : Prop :=
  ∃ before after, h = before ++ e :: after ∧ P after

@[simp] theorem not_followed_nil (e : α) (P : List α → Prop) : ¬ Followed e P [] := by
  intro ⟨before, after, hsplit, _⟩
  simp at hsplit

/-- The occurrence is the latest event, or one that the latest event now follows. -/
theorem followed_concat {e last : α} {P : List α → Prop} {h : List α} :
    Followed e P (h ++ [last]) ↔
      (last = e ∧ P []) ∨ Followed e (fun after => P (after ++ [last])) h := by
  constructor
  · intro ⟨before, after, hsplit, hP⟩
    cases after using List.reverseRecOn with
    | nil =>
        obtain ⟨-, hlast⟩ := List.append_inj' hsplit rfl
        exact .inl ⟨List.singleton_inj.mp hlast, hP⟩
    | append_singleton after f =>
        rw [← List.cons_append, ← List.append_assoc] at hsplit
        obtain ⟨hinit, hlast⟩ := List.append_inj' hsplit rfl
        obtain rfl := List.singleton_inj.mp hlast
        exact .inr ⟨before, after, hinit, hP⟩
  · intro hcases
    obtain ⟨rfl, hP⟩ | ⟨before, after, rfl, hP⟩ := hcases
    · exact ⟨h, [], rfl, hP⟩
    · exact ⟨before, after ++ [last], by simp, hP⟩

theorem followed_congr {e : α} {P Q : List α → Prop} (hiff : ∀ after, P after ↔ Q after) (h : List α) :
    Followed e P h ↔ Followed e Q h := by
  simp only [Followed, hiff]

theorem not_followed_of_false {e : α} {P : List α → Prop} (hfalse : ∀ after, ¬ P after) (h : List α) :
    ¬ Followed e P h := by
  intro ⟨_, after, _, hP⟩
  exact hfalse after hP

/-- An event lies in the window exactly if it and all that follows it leave the window open. -/
theorem mem_since_iff {h : List α} {e : α} (he : closes e = false) :
    e ∈ since closes h ↔ Followed e (fun after => ∀ f ∈ after, closes f = false) h := by
  induction h using List.reverseRecOn with
  | nil => simp
  | append_singleton h last ih =>
      rw [followed_concat]
      cases hlast : closes last with
      | true =>
          rw [since_concat_closing hlast]
          have hne : last ≠ e := by
            intro heq
            rw [heq, he] at hlast
            exact Bool.false_ne_true hlast
          have hnone : ¬ Followed e (fun after => ∀ f ∈ after ++ [last], closes f = false) h := by
            refine not_followed_of_false ?_ h
            intro after hopen
            simp [hopen last (by simp)] at hlast
          simp only [List.not_mem_nil, hne, false_and, hnone, or_self]
      | false =>
          rw [since_concat_open hlast, List.mem_append, ih, List.mem_singleton, eq_comm, or_comm]
          refine or_congr (by simp) (followed_congr ?_ h)
          intro after
          simp [hlast, or_imp, forall_and]

/-! ### Ring buffers -/

/-- The window of the last `n` events moves on by one. -/
theorem rtake_concat {n : Nat} (hn : 0 < n) {h : List α} (hlen : n ≤ h.length) (e : α) :
    (h ++ [e]).rtake n = (h.rtake n).tail ++ [e] := by
  have hfirst : h.length + 1 - n = h.length - n + 1 := by omega
  have hinside : h.length - n + 1 ≤ h.length := by omega
  rw [List.rtake, List.rtake, List.length_append, List.length_singleton, hfirst,
    List.drop_append_of_le_length hinside, List.tail_drop]

/-- The events of a ring buffer: the cell that is overwritten next has the oldest one. -/
def oldestFirst (cells : List α) (next : Nat) : List α := cells.drop next ++ cells.take next

theorem oldestFirst_perm (cells : List α) (next : Nat) : (oldestFirst cells next).Perm cells :=
  List.perm_append_comm.trans (List.Perm.of_eq (List.take_append_drop next cells))

@[simp] theorem oldestFirst_replicate (n next : Nat) (e : α) :
    oldestFirst (List.replicate n e) next = List.replicate n e :=
  List.perm_replicate.mp (oldestFirst_perm _ next)

theorem oldestFirst_eq_cons {cells : List α} {next : Nat} (h : next < cells.length) :
    oldestFirst cells next = cells[next] :: (cells.drop (next + 1) ++ cells.take next) := by
  rw [oldestFirst, List.drop_eq_getElem_cons h, List.cons_append]

/-- The oldest event makes room for the latest. -/
theorem oldestFirst_set {cells : List α} {next : Nat} (h : next < cells.length) (e : α) :
    oldestFirst (cells.set next e) ((next + 1) % cells.length) =
      (oldestFirst cells next).tail ++ [e] := by
  have hafter : (cells.set next e).drop (next + 1) = cells.drop (next + 1) :=
    List.drop_set_of_lt (Nat.lt_succ_self next)
  have hbefore : (cells.set next e).take (next + 1) = cells.take next ++ [e] := by
    rw [List.take_succ_eq_append_getElem (by rwa [List.length_set]), List.getElem_set_self,
      List.take_set_of_le (le_refl next)]
  rw [oldestFirst_eq_cons h, List.tail_cons, List.append_assoc, ← hbefore]
  by_cases hwrap : next + 1 = cells.length
  · have hwhole : (cells.set next e).take (next + 1) = cells.set next e :=
      List.take_of_length_le (by rw [List.length_set, hwrap])
    rw [hwrap, Nat.mod_self, ← hwrap, hwhole, List.drop_eq_nil_of_le hwrap.ge, List.nil_append]
    exact List.append_nil _
  · rw [Nat.mod_eq_of_lt (by omega), oldestFirst, hafter]

/-- The cell after the oldest one is next, nothing being written. -/
theorem oldestFirst_next {cells : List α} {next : Nat} (h : next < cells.length) :
    oldestFirst cells ((next + 1) % cells.length) =
      (oldestFirst cells next).tail ++ [cells[next]] := by
  rw [← oldestFirst_set h, List.set_getElem_self]

/-- Writing to any cell, counted from the one that is next. -/
theorem oldestFirst_set_cell {cells : List α} {next i : Nat} (hnext : next < cells.length)
    (hi : i < cells.length) (e : α) :
    oldestFirst (cells.set i e) next =
      (oldestFirst cells next).set (if next ≤ i then i - next else i + cells.length - next) e := by
  have hlen : (cells.drop next).length = cells.length - next := List.length_drop
  rw [oldestFirst, oldestFirst]
  split
  · rename_i hle
    have hinside : i - next < (cells.drop next).length := by omega
    rw [List.drop_set, if_neg (Nat.not_lt_of_le hle), List.take_set_of_le hle,
      List.set_append_left _ _ hinside]
  · rename_i hlt
    have hbehind : (cells.drop next).length ≤ i + cells.length - next := by omega
    rw [List.drop_set_of_lt (Nat.lt_of_not_le hlt), List.set_append_right _ _ hbehind, List.take_set]
    congr 2
    omega

/-! ### Streaks -/

variable [DecidableEq α]

/-- How often in a row the history ends with `a`. -/
def streak (a : α) (h : List α) : Nat := (h.rtakeWhile fun e => e = a).length

@[simp] theorem streak_nil (a : α) : streak a [] = 0 := rfl

@[simp] theorem streak_concat_self (a : α) (h : List α) : streak a (h ++ [a]) = streak a h + 1 := by
  rw [streak, List.rtakeWhile_concat_pos _ _ _ (by simp)]
  simp [streak]

theorem streak_concat_of_ne {a b : α} (hne : b ≠ a) (h : List α) : streak a (h ++ [b]) = 0 := by
  rw [streak, List.rtakeWhile_concat_neg _ _ _ (by simpa using hne)]
  rfl

/-- A block of `n` times `a` ends the history exactly if the streak is that long. -/
theorem replicate_suffix_iff {a : α} {n : Nat} {h : List α} :
    List.replicate n a <:+ h ↔ n ≤ streak a h := by
  induction h using List.reverseRecOn generalizing n with
  | nil => simp [List.suffix_nil]
  | append_singleton h b ih =>
      cases n with
      | zero => simp
      | succ n =>
          rw [List.replicate_succ', List.suffix_concat_iff]
          by_cases hba : b = a
          · subst hba
            simp [ih]
          · have hne : ¬a = b := fun h => hba h.symm
            simp [streak_concat_of_ne hba, hne]

/-- One more event completes a block of `n` times `a` or leaves those there were. -/
theorem replicate_infix_concat {a b : α} {n : Nat} {h : List α} :
    List.replicate n a <:+: h ++ [b] ↔
      n ≤ streak a (h ++ [b]) ∨ List.replicate n a <:+: h := by
  rw [List.infix_concat_iff, replicate_suffix_iff]

end History
