import MiniEcu.IsoTp.Reactive
import MiniEcu.Lib.Trace

/-!
# What a call makes of the application

During one call the application's state changes in its callbacks and nowhere else. What every
callback does is given as a relation between the state before, the records and the state after; then
a call does finitely many such steps, with the records among its events. This is for applications
that act on success only.
-/

namespace MiniEcu.IsoTp

open Trace

variable {σ ε : Type}

/-- What the application has recorded among the events. -/
def records (es : List (Event ε)) : List ε :=
  es.filterMap fun
    | .app record => some record
    | _ => none

@[simp] theorem records_append (es fs : List (Event ε)) :
    records (es ++ fs) = records es ++ records fs := List.filterMap_append

@[simp] theorem records_map_app (log : List ε) : records (log.map Event.app) = log := by
  rw [records, List.filterMap_map]
  exact List.filterMap_some

@[simp] theorem records_map_lift (es : List (Event Empty)) :
    records (es.map Event.lift : List (Event ε)) = [] := by
  rw [records, List.filterMap_eq_nil_iff]
  intro e he
  obtain ⟨e, -, rfl⟩ := List.mem_map.mp he
  cases e with
  | app record => exact record.elim
  | _ => rfl

/-- Every successful callback is a step of this relation. -/
structure App.Obeys (app : App σ ε) (rel : σ → List ε → σ → Prop) : Prop where
  indicated : ∀ clock data a,
    rel a (app.rxIndication clock data .ok a).log (app.rxIndication clock data .ok a).app
  confirmed : ∀ clock a,
    rel a (app.txConfirmation clock .ok a).log (app.txConfirmation clock .ok a).app

/-- From `w` to `w'` the application has taken such steps only. -/
def World.Reaches (rel : σ → List ε → σ → Prop) (w w' : World σ ε) : Prop :=
  ∃ es, w'.events = w.events ++ es ∧ Steps rel w.app (records es) w'.app

section Reaches

variable {rel : σ → List ε → σ → Prop} {u v w : World σ ε}

theorem World.Reaches.trans (h₁ : u.Reaches rel v) (h₂ : v.Reaches rel w) : u.Reaches rel w := by
  obtain ⟨es, hes, hsteps⟩ := h₁
  obtain ⟨fs, hfs, hsteps'⟩ := h₂
  refine ⟨es ++ fs, by rw [hfs, hes, List.append_assoc], ?_⟩
  rw [records_append]
  exact hsteps.trans hsteps'

theorem World.reaches_of_same {es : List (Event ε)} (hevents : w.events = u.events ++ es)
    (hrecords : records es = []) (happ : w.app = u.app) : u.Reaches rel w := by
  refine ⟨es, hevents, ?_⟩
  rw [hrecords, happ]
  exact .refl u.app

theorem World.reaches_settle {r : Reaction σ ε} (h : rel w.app r.log r.app) :
    w.Reaches rel (w.settle r) := by
  refine ⟨r.log.map .app, rfl, ?_⟩
  rw [records_map_app]
  exact .single h

variable {app : App σ ε} (hobeys : app.Obeys rel) (happ : app.Attentive)

include hobeys happ

theorem World.reaches_confirmed (result : Result) :
    w.Reaches rel (w.complete app (nested app 0) (.confirmed result)) := by
  show w.Reaches rel (w.settle _)
  by_cases hok : result = .ok
  · subst hok
    exact reaches_settle (hobeys.confirmed _ w.app)
  · rw [happ.confirmed _ result w.app hok, settle_self]
    exact reaches_of_same (List.append_nil _).symm rfl rfl

theorem World.reaches_nested (m : Bytes) : w.Reaches rel (nested app 0 m w) := by
  by_cases hok : transmitResult w.link m = .ok
  · obtain ⟨o, hsends, hperforms, hout⟩ := transmitWith_taken app (fun _ w => w) (fun _ v => v)
      happ hok
    have hout : nested app 0 m w = _ := hout
    obtain ⟨es, hes, -⟩ := hperforms.events
    have hlifted : w.Reaches rel
        ((transmitWith silent (fun _ v => v) m w.bare).2.withApp w.app w.events) :=
      reaches_of_same rfl (records_map_lift _) rfl
    rw [hout]
    obtain rfl | rfl := hsends
    · exact hlifted
    · exact hlifted.trans (reaches_confirmed hobeys happ .ok)
  · have hrejected := transmitWith_rejected app (fun _ w => w) hok
    rw [show nested app 0 m w = _ from congrArg Prod.snd hrejected]
    exact reaches_of_same rfl rfl rfl

theorem World.reaches_react {r : Reaction σ ε} (h : rel w.app r.log r.app) :
    w.Reaches rel (react (nested app 0) r w) := by
  have hsends : ∀ (ms : List Bytes) (v : World σ ε),
      v.Reaches rel (ms.foldl (fun v m => nested app 0 m v) v) := by
    intro ms
    induction ms with
    | nil => exact fun v => reaches_of_same (List.append_nil _).symm rfl rfl
    | cons m ms ih => exact fun v => (reaches_nested hobeys happ m).trans (ih _)
  exact (reaches_settle h).trans (hsends r.sends _)

theorem Mirrors.reaches {u v' : World Unit Empty} {a : σ} {o : Outcome} {w' : World σ ε}
    (h : Mirrors app (nested app 0) u a [] o v' w') : Steps rel a (records w'.events) w'.app := by
  obtain ⟨-, rfl⟩ := h
  have hlifted : ({ link := u.link, app := a, env := u.env } : World σ ε).Reaches rel
      (v'.withApp a []) :=
    World.reaches_of_same rfl (records_map_lift _) rfl
  have hreaches : (v'.withApp a []).Reaches rel
      ((v'.withApp a []).complete app (nested app 0) o) := by
    cases o with
    | none => exact World.reaches_of_same (List.append_nil _).symm rfl rfl
    | confirmed result => exact World.reaches_confirmed hobeys happ result
    | received data => exact World.reaches_react hobeys happ (hobeys.indicated _ data a)
  obtain ⟨es, hes, hsteps⟩ := hlifted.trans hreaches
  rw [show ((v'.withApp a []).complete app (nested app 0) o).events = es from hes]
  exact hsteps

end Reaches

end MiniEcu.IsoTp
