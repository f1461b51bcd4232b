import MiniEcu.IsoTp.Closure

/-!
# The code takes elementary steps

Being reached by elementary steps is a relation that the elementary steps keep, so every function
takes elementary steps and no others. How callbacks nest is an induction on the depth.
-/

namespace MiniEcu.IsoTp

open Memory Trace World

variable {σ ε : Type}

theorem closed_leads : Closed (World.Leads (σ := σ) (ε := ε)) where
  refl := World.Leads.refl
  trans := World.Leads.trans
  settle _ _ := ⟨rfl, _, rfl, .single (.app _ _ _ _)⟩
  tx hmoves hstep _ := .of_tx hmoves hstep
  rx := .of_rx

section Leads

variable {app : App σ ε} {resubmit : Bytes → World σ ε → World σ ε}

/-- What `IsoTp_Transmit` passes on to the callbacks it runs, it also has itself. -/
theorem Resubmits.transmitWith (hres : Resubmits resubmit) :
    Resubmits fun m w => (transmitWith app resubmit m w).2 where
  leads := closed_leads.transmitWith hres.leads
  cfg m w := by
    rcases transmitWith_cases app resubmit m w with ⟨result, heq⟩ | hsends
    · rw [heq, World.link_log]
    · exact (sends_keeps hres hsends).1
  rx m w := by
    rcases transmitWith_cases app resubmit m w with ⟨result, heq⟩ | hsends
    · rw [heq, World.link_log]
    · exact (sends_keeps hres hsends).2
  notCf m w h := by
    rcases transmitWith_cases app resubmit m w with ⟨result, heq⟩ | hsends
    · rw [heq, World.link_log]
      exact h
    · exact sends_notCf hres hsends rfl

theorem resubmits_nested (app : App σ ε) (depth : Nat) : Resubmits (nested app depth) := by
  induction depth with
  | zero =>
      have hnothing : Resubmits fun (_ : Bytes) (w : World σ ε) => w :=
        ⟨fun _ w => .refl w, fun _ _ => rfl, fun _ _ => rfl, fun _ _ h => h⟩
      exact hnothing.transmitWith
  | succ depth ih => exact ih.transmitWith

/-- What the elementary steps of a call keep, every call keeps that is not a clear-to-send. -/
theorem Closed.invoke {R : World σ ε → World σ ε → Prop} (hR : Closed R) (app : App σ ε)
    (depth : Nat) {c : Call} {w : World σ ε}
    (hclear : ∀ data dlc, c = .rxFrame data dlc → Clears w.link.tx data dlc →
      R w (clearedBy data w)) :
    R w (invoke app depth c w) := by
  have hres := resubmits_nested app depth
  have hkeep := hR.nested app depth
  cases c with
  | transmit m => exact hR.transmitWith hkeep m w
  | rxFrame data dlc => exact hR.rxFrame hkeep hres (hclear data dlc rfl)
  | mainFunction => exact hR.mainFunction hkeep hres w

/-- Every call takes elementary steps, and no others. -/
theorem leads_invoke (app : App σ ε) (depth : Nat) (c : Call) (w : World σ ε) :
    w.Leads (invoke app depth c w) :=
  closed_leads.invoke app depth fun data _ _ hcts =>
    .of_tx ⟨rfl, rfl, rfl, rfl, rfl⟩ (.clearToSend data _ hcts.1)

theorem steps_call (app : App σ ε) (depth : Nat) (s : Link × σ) (i : Env × Call) :
    Steps LinkStep s (call app depth s i).2 (call app depth s i).1 := by
  obtain ⟨-, es, hes, hsteps⟩ :=
    leads_invoke app depth i.2 { link := s.1, app := s.2, env := i.1 }
  rw [List.nil_append] at hes
  rw [call, hes]
  exact hsteps

end Leads

end MiniEcu.IsoTp
