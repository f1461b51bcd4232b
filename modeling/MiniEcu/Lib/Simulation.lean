import MiniEcu.Lib.Trace

/-!
# Simulations between two reactive components

One component simulates another if both keep step: related states stay related, and what an observer
sees of the outputs is the same. The inputs of the other component, which need not show in the input
alone, are read off the outputs. It is proved for one elementary step and holds for whole runs.
Components that can be started anew are made from those that cannot.
-/

namespace Trace

variable {σ τ ι κ ο π χ : Type}

variable {step : σ → ι → σ × List ο}

/-! ### Inputs read off the outputs -/

/-- A run is made of the elementary steps of its inputs. -/
theorem steps_run {rel : σ → List ο → σ → Prop}
    (hsteps : ∀ s i, Steps rel s (step s i).2 (step s i).1) (s : σ) (is : List ι) :
    Steps rel s (run step s is).2 (run step s is).1 := by
  induction is generalizing s with
  | nil => exact .refl s
  | cons i is ih => exact (hsteps s i).trans (ih _)

section Reads

variable {μ : Type} (rel : σ → List ο → σ → Prop) (read : μ → ο → μ × List κ)
  (step' : τ → κ → τ × List π) (R : σ → μ → τ → Prop) (view : ο → Option χ) (view' : π → Option χ)

/-- The other component keeps step over what a reader makes of the outputs of one elementary step. -/
def Reads : Prop :=
  ∀ s m t outs s', R s m t → rel s outs s' →
    R s' (run read m outs).1 (run step' t (run read m outs).2).1 ∧
      outs.filterMap view = (run step' t (run read m outs).2).2.filterMap view'

variable {rel read step' R view view'}

theorem Reads.steps (h : Reads rel read step' R view view') {s s' : σ} {m : μ} {t : τ}
    (hst : R s m t) {outs : List ο} (hsteps : Steps rel s outs s') :
    R s' (run read m outs).1 (run step' t (run read m outs).2).1 ∧
      outs.filterMap view = (run step' t (run read m outs).2).2.filterMap view' := by
  induction hsteps with
  | refl => exact ⟨hst, rfl⟩
  | tail _ hlast ih =>
      obtain ⟨hrelated, hseen⟩ := ih
      obtain ⟨hrelated', hseen'⟩ := h _ _ _ _ _ hrelated hlast
      rw [run_append, run_append, List.filterMap_append, List.filterMap_append, ← hseen, hseen']
      exact ⟨hrelated', rfl⟩

/-- So it does over a run whose steps are made of elementary ones. -/
theorem Reads.run (h : Reads rel read step' R view view')
    (hsteps : ∀ s i, Steps rel s (step s i).2 (step s i).1) {s : σ} {m : μ} {t : τ} (hst : R s m t)
    (is : List ι) :
    R (Trace.run step s is).1 (Trace.run read m (Trace.run step s is).2).1
        (Trace.run step' t (Trace.run read m (Trace.run step s is).2).2).1 ∧
      (Trace.run step s is).2.filterMap view =
        (Trace.run step' t (Trace.run read m (Trace.run step s is).2).2).2.filterMap view' :=
  h.steps hst (steps_run hsteps s is)

end Reads

/-! ### Components that can be started anew -/

/-- Between two inputs the component may be started anew. -/
def restartable {ρ : Type} (boot : ρ → σ) (step : σ → ι → σ × List ο) (s : σ) : ι ⊕ ρ → σ × List ο
  | .inl i => step s i
  | .inr r => (boot r, [])

end Trace
