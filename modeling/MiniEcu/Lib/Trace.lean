import Mathlib.Data.List.Basic

/-!
# Runs and traces of a reactive component

A reactive component reads one input at a time, changes its state and emits a list of outputs. Two
views of it are used together. `run` is the executable one: a step function folded over the inputs,
with all outputs in order. `Steps` is the relational one: finitely many elementary steps, each
labelled with what it emits, where one input may take many of them and nothing says which input a
step belongs to. An invariant may speak about the trace so far as well as the state, and is proved
once per elementary step.
-/

namespace Trace

variable {σ ι ο : Type}

/-! ### Executable runs -/

/-- Feed the inputs to the step function one after another, collecting the outputs. -/
def run (step : σ → ι → σ × List ο) : σ → List ι → σ × List ο
  | s, [] => (s, [])
  | s, i :: is =>
      let first := step s i
      let rest := run step first.1 is
      (rest.1, first.2 ++ rest.2)

variable {step : σ → ι → σ × List ο}

@[simp] theorem run_nil (s : σ) : run step s [] = (s, []) := rfl

theorem run_cons (s : σ) (i : ι) (is : List ι) :
    run step s (i :: is)
      = ((run step (step s i).1 is).1, (step s i).2 ++ (run step (step s i).1 is).2) := rfl

theorem run_append (s : σ) (is js : List ι) :
    run step s (is ++ js)
      = ((run step (run step s is).1 js).1, (run step s is).2 ++ (run step (run step s is).1 js).2) := by
  induction is generalizing s with
  | nil => simp
  | cons i is ih => simp only [List.cons_append, run_cons, ih, List.append_assoc]

theorem run_concat (s : σ) (is : List ι) (i : ι) :
    run step s (is ++ [i])
      = ((step (run step s is).1 i).1, (run step s is).2 ++ (step (run step s is).1 i).2) := by
  rw [run_append]
  simp [run_cons]

/-- A property of the state and the trace that every step keeps holds after every run. -/
theorem run_invariant (I : σ → List ο → Prop)
    (hstep : ∀ s tr i, I s tr → I (step s i).1 (tr ++ (step s i).2))
    {s : σ} (tr : List ο) (h : I s tr) (is : List ι) :
    I (run step s is).1 (tr ++ (run step s is).2) := by
  induction is generalizing s tr with
  | nil => simpa using h
  | cons i is ih =>
      have hrest := ih _ (hstep s tr i h)
      simpa only [run_cons, List.append_assoc] using hrest

/-- An output of a run comes from one of its steps. -/
theorem mem_run {o : ο} {s : σ} {is : List ι} (h : o ∈ (run step s is).2) :
    ∃ before i after, is = before ++ i :: after ∧ o ∈ (step (run step s before).1 i).2 := by
  induction is generalizing s with
  | nil => cases h
  | cons i is ih =>
      rw [run_cons] at h
      rcases List.mem_append.mp h with hfirst | hrest
      · exact ⟨[], i, is, rfl, hfirst⟩
      · obtain ⟨before, j, after, rfl, ho⟩ := ih hrest
        exact ⟨i :: before, j, after, rfl, ho⟩

/-- What a step shows of its input shows in the trace, in the order of the inputs. -/
theorem filterMap_run {κ : Type} {view : ο → Option κ} {viewed : ι → Option κ}
    (hstep : ∀ s i, (step s i).2.filterMap view = (viewed i).toList) (s : σ) (is : List ι) :
    (run step s is).2.filterMap view = is.filterMap viewed := by
  induction is generalizing s with
  | nil => rfl
  | cons i is ih =>
      rw [run_cons, List.filterMap_append, hstep, ih]
      cases hi : viewed i with
      | none => rw [List.filterMap_cons_none hi]; rfl
      | some k => rw [List.filterMap_cons_some hi]; rfl

/-- Inputs that do nothing can be left out. -/
theorem run_map_filter {κ : Type} (g : κ → ι) {p : κ → Bool}
    (hnothing : ∀ k, p k = false → ∀ s, step s (g k) = (s, [])) (s : σ) (ks : List κ) :
    run step s ((ks.filter p).map g) = run step s (ks.map g) := by
  induction ks generalizing s with
  | nil => rfl
  | cons k ks ih =>
      cases hk : p k with
      | true => simp only [List.filter_cons_of_pos hk, List.map_cons, run_cons, ih]
      | false =>
          rw [List.filter_cons_of_neg (by simp [hk]), List.map_cons, run_cons, hnothing k hk, ih]
          rfl

/-- Steps that differ in what they emit only go through the same states. -/
theorem fst_run_congr {π : Type} {step' : σ → ι → σ × List π}
    (hstep : ∀ s i, (step' s i).1 = (step s i).1) (s : σ) (is : List ι) :
    (run step' s is).1 = (run step s is).1 := by
  induction is generalizing s with
  | nil => rfl
  | cons i is ih => rw [run_cons, run_cons, ih, hstep]

/-- Two step functions that agree on the states an invariant allows have the same runs. -/
theorem run_congr {step' : σ → ι → σ × List ο} {I : σ → Prop} {is : List ι}
    (hstep : ∀ s, ∀ i ∈ is, I s → step s i = step' s i ∧ I (step s i).1) {s : σ} (h : I s) :
    run step s is = run step' s is ∧ I (run step s is).1 := by
  induction is generalizing s with
  | nil => exact ⟨rfl, h⟩
  | cons i is ih =>
      obtain ⟨hagree, hkeep⟩ := hstep s i List.mem_cons_self h
      obtain ⟨hrun, hlast⟩ := ih (fun s j hj => hstep s j (List.mem_cons_of_mem i hj)) hkeep
      rw [run_cons, run_cons, ← hagree, hrun]
      exact ⟨rfl, hrun ▸ hlast⟩

/-- Two machines that leave the same state behind, whatever they show, do so after every run. -/
theorem run_left {ο' : Type} {step' : σ → ι → σ × List ο'} (I : σ → Prop)
    (hstep : ∀ s i, I s → (step s i).1 = (step' s i).1 ∧ I (step s i).1) {s : σ} (h : I s)
    (is : List ι) : (run step s is).1 = (run step' s is).1 := by
  induction is generalizing s with
  | nil => rfl
  | cons i is ih =>
      obtain ⟨hleft, hkeep⟩ := hstep s i h
      rw [run_cons, run_cons, ← hleft]
      exact ih hkeep

/-- Every input meets the condition in the state it arrives in. -/
def Along (step : σ → ι → σ × List ο) (C : σ → ι → Prop) : σ → List ι → Prop
  | _, [] => True
  | s, i :: is => C s i ∧ Along step C (step s i).1 is

theorem along_and {C D : σ → ι → Prop} {s : σ} {is : List ι} (hC : Along step C s is)
    (hD : Along step D s is) : Along step (fun s i => C s i ∧ D s i) s is := by
  induction is generalizing s with
  | nil => trivial
  | cons i is ih => exact ⟨⟨hC.1, hD.1⟩, ih hC.2 hD.2⟩

instance decidableAlong {C : σ → ι → Prop} [∀ s i, Decidable (C s i)] (s : σ) :
    (is : List ι) → Decidable (Along step C s is)
  | [] => .isTrue trivial
  | i :: is =>
      have : Decidable (Along step C (step s i).1 is) := decidableAlong (step s i).1 is
      inferInstanceAs (Decidable (C s i ∧ Along step C (step s i).1 is))

/-- Some input meets the condition in the state it arrives in. -/
def Sometime (step : σ → ι → σ × List ο) (C : σ → ι → Prop) : σ → List ι → Prop
  | _, [] => False
  | s, i :: is => C s i ∨ Sometime step C (step s i).1 is

theorem sometime_append {C : σ → ι → Prop} (s : σ) (is js : List ι) :
    Sometime step C s (is ++ js) ↔
      Sometime step C s is ∨ Sometime step C (run step s is).1 js := by
  induction is generalizing s with
  | nil => simp [Sometime]
  | cons i is ih => simp only [List.cons_append, Sometime, run_cons, ih, or_assoc]

/-- Every step at which `C` holds has a later one at which `D` does. -/
def Followed (step : σ → ι → σ × List ο) (C D : σ → ι → Prop) : σ → List ι → Prop
  | _, [] => True
  | s, i :: is => (C s i → Sometime step D (step s i).1 is) ∧ Followed step C D (step s i).1 is

/-- Two conditions that agree on the states an invariant allows agree along every run. -/
theorem along_iff {C D : σ → ι → Prop} (I : σ → Prop) (hkeep : ∀ s i, I s → I (step s i).1)
    (hiff : ∀ s i, I s → (C s i ↔ D s i)) {s : σ} (h : I s) (is : List ι) :
    Along step C s is ↔ Along step D s is := by
  induction is generalizing s with
  | nil => exact Iff.rfl
  | cons i is ih => exact and_congr (hiff s i h) (ih (hkeep s i h))

/-- What holds of every input in the states an invariant allows holds along every run. -/
theorem along_of_invariant {C : σ → ι → Prop} (I : σ → Prop) (hkeep : ∀ s i, I s → I (step s i).1)
    (hC : ∀ s i, I s → C s i) {s : σ} (h : I s) (is : List ι) : Along step C s is := by
  induction is generalizing s with
  | nil => trivial
  | cons i is ih => exact ⟨hC s i h, ih (hkeep s i h)⟩

/-- The same for the inputs that meet a condition in the state they arrive in. -/
theorem run_invariant_of (I : σ → List ο → Prop) (C : σ → ι → Prop)
    (hstep : ∀ s tr i, I s tr → C s i → I (step s i).1 (tr ++ (step s i).2))
    {s : σ} (tr : List ο) (h : I s tr) (is : List ι) (hC : Along step C s is) :
    I (run step s is).1 (tr ++ (run step s is).2) := by
  induction is generalizing s tr with
  | nil => simpa using h
  | cons i is ih =>
      have hrest := ih _ (hstep s tr i h hC.1) hC.2
      simpa only [run_cons, List.append_assoc] using hrest

/-! ### Labelled steps -/

/-- Finitely many elementary steps, with the concatenation of what they emit. -/
inductive Steps (rel : σ → List ο → σ → Prop) : σ → List ο → σ → Prop
  | refl (s : σ) : Steps rel s [] s
  | tail {s t u : σ} {es fs : List ο} (first : Steps rel s es t) (last : rel t fs u) :
      Steps rel s (es ++ fs) u

namespace Steps

variable {rel : σ → List ο → σ → Prop}

theorem single {s t : σ} {es : List ο} (h : rel s es t) : Steps rel s es t := by
  simpa using (Steps.refl s).tail h

theorem trans {s t u : σ} {es fs : List ο} (h₁ : Steps rel s es t) (h₂ : Steps rel t fs u) :
    Steps rel s (es ++ fs) u := by
  induction h₂ with
  | refl => simpa using h₁
  | tail _ hlast ih => simpa only [List.append_assoc] using ih.tail hlast

/-- A property of the state and the trace that every elementary step keeps is kept by any number
of them. -/
theorem invariant (I : σ → List ο → Prop)
    (hstep : ∀ s tr es t, I s tr → rel s es t → I t (tr ++ es))
    {s t : σ} {es : List ο} (tr : List ο) (h : I s tr) (hsteps : Steps rel s es t) : I t (tr ++ es) := by
  induction hsteps with
  | refl => simpa using h
  | tail _ hlast ih =>
      have := hstep _ _ _ _ ih hlast
      simpa only [List.append_assoc] using this

end Steps

/-! ### Monitors

A monitor reads a trace and checks each output against what it has seen before it. -/

section Monitor

variable {μ : Type} (follow : μ → ο → μ) (check : μ → ο → Prop)

/-- Every output passes the check in the state the monitor has reached by then. -/
def Monitored (m : μ) (tr : List ο) : Prop :=
  ∀ before e after, tr = before ++ e :: after → check (before.foldl follow m) e

variable {follow check}

@[simp] theorem monitored_nil (m : μ) : Monitored follow check m [] := by
  intro before e after h
  simp at h

@[simp] theorem monitored_cons (m : μ) (e : ο) (tr : List ο) :
    Monitored follow check m (e :: tr) ↔ check m e ∧ Monitored follow check (follow m e) tr := by
  constructor
  · intro h
    refine ⟨h [] e tr rfl, fun before f after hsplit => ?_⟩
    exact h (e :: before) f after (by rw [hsplit, List.cons_append])
  · rintro ⟨hfirst, hrest⟩ before f after hsplit
    cases before with
    | nil =>
        obtain ⟨rfl, -⟩ := List.cons.inj hsplit
        exact hfirst
    | cons g before =>
        rw [List.cons_append, List.cons.injEq] at hsplit
        rw [List.foldl_cons, ← hsplit.1]
        exact hrest before f after hsplit.2

theorem monitored_append (m : μ) (tr tr' : List ο) :
    Monitored follow check m (tr ++ tr') ↔
      Monitored follow check m tr ∧ Monitored follow check (tr.foldl follow m) tr' := by
  induction tr generalizing m with
  | nil => simp
  | cons e tr ih => simp only [List.cons_append, monitored_cons, ih, List.foldl_cons, and_assoc]

end Monitor

end Trace
