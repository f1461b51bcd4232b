import MiniEcu.IsoTp.Callbacks
import MiniEcu.IsoTp.Network

/-!
# A network with an application behind one link

What holds at both ends of a network of links holds as well where an application that acts on success
only sits behind one of them. It adds to what its link does on its own the messages that it transmits,
and those are calls like any other.
-/

namespace MiniEcu.IsoTp

open Memory Trace

variable {σ ε : Type}

/-! ### What the link itself does -/

/-- The event as the link sees it, without what the application records. -/
def Event.below : Event ε → Option (Event Empty)
  | .getTimeMs time => some (.getTimeMs time)
  | .sendFrame canId frame accepted => some (.sendFrame canId frame accepted)
  | .rxIndication data result => some (.rxIndication data result)
  | .txConfirmation result => some (.txConfirmation result)
  | .transmit message result => some (.transmit message result)
  | .rxWrite offset count => some (.rxWrite offset count)
  | .txWrite offset count => some (.txWrite offset count)
  | .txRead offset count => some (.txRead offset count)
  | .counted bits value => some (.counted bits value)
  | .unfinished => some .unfinished
  | .app _ => none

def below (es : List (Event ε)) : List (Event Empty) := es.filterMap Event.below

@[simp] theorem below_append (es fs : List (Event ε)) : below (es ++ fs) = below es ++ below fs :=
  List.filterMap_append

@[simp] theorem below_map_app (log : List ε) : below (log.map Event.app) = [] := by
  rw [below, List.filterMap_map, List.filterMap_eq_nil_iff]
  exact fun _ _ => rfl

@[simp] theorem below_map_lift (es : List (Event Empty)) :
    below (es.map Event.lift : List (Event ε)) = es := by
  have hlift : ∀ e : Event Empty, (e.lift : Event ε).below = some e := by
    intro e
    cases e with
    | app record => exact record.elim
    | _ => rfl
  rw [below, List.filterMap_map]
  exact (List.filterMap_congr fun e _ => hlift e).trans List.filterMap_some

theorem filterMap_below {κ : Type} {view : Event ε → Option κ} {view' : Event Empty → Option κ}
    (hview : ∀ e, view e = e.below.bind view') (es : List (Event ε)) :
    (below es).filterMap view' = es.filterMap view := by
  rw [below, List.filterMap_filterMap]
  exact List.filterMap_congr fun e _ => (hview e).symm

@[simp] theorem deliveries_below (es : List (Event ε)) : deliveries (below es) = deliveries es := by
  refine filterMap_below (fun e => ?_) es
  cases e with
  | rxIndication data result => cases result <;> rfl
  | _ => rfl

@[simp] theorem submissions_below (es : List (Event ε)) :
    submissions (below es) = submissions es := by
  refine filterMap_below (fun e => ?_) es
  cases e with
  | transmit m result => cases result <;> rfl
  | _ => rfl

@[simp] theorem sentFrames_below (es : List (Event ε)) : sentFrames (below es) = sentFrames es := by
  refine filterMap_below (fun e => ?_) es
  cases e with
  | sendFrame canId f accepted => cases accepted <;> rfl
  | _ => rfl

/-- The link by itself, with what has happened to it. -/
def World.below (w : World σ ε) : World Unit Empty :=
  { w.bare with events := IsoTp.below w.events }

theorem below_withApp (v : World Unit Empty) (a : σ) (past : List (Event ε)) :
    (v.withApp a past).below = { v with events := IsoTp.below past ++ v.events } := by
  simp [World.below, World.bare, World.withApp]

/-! ### What a call delivers -/

section Delivers

variable {app : App σ ε} (happ : app.Attentive)

theorem deliveries_map_app (log : List ε) : deliveries (log.map Event.app) = [] := by
  rw [deliveries, List.filterMap_map, List.filterMap_eq_nil_iff]
  exact fun _ _ => rfl

theorem deliveries_performs {v v' : World Unit Empty} {o : Outcome} (h : v.Performs o v') :
    deliveries v'.events = deliveries v.events ++ o.message.toList := by
  obtain ⟨es, hes, hneutral⟩ := h.events
  have hnone : deliveries es = [] := by
    rw [deliveries, List.filterMap_eq_nil_iff]
    intro e he
    have hneutral := hneutral e he
    cases e with
    | rxIndication data result => cases result <;> first | rfl | exact absurd rfl hneutral
    | _ => rfl
  rw [hes, deliveries_append, deliveries_append, hnone]
  cases o <;> rfl

theorem submissions_performs {v v' : World Unit Empty} {o : Outcome} (h : v.Performs o v') :
    submissions v'.events = submissions v.events := by
  obtain ⟨es, hes, hneutral⟩ := h.events
  have hnone : submissions es = [] := by
    rw [submissions, List.filterMap_eq_nil_iff]
    intro e he
    have hneutral := hneutral e he
    cases e with
    | transmit m result => exact hneutral.elim
    | _ => rfl
  rw [hes, submissions_append, submissions_append, hnone]
  cases o <;> exact List.append_nil _

theorem deliveries_withApp (v : World Unit Empty) (a : σ) (past : List (Event ε)) :
    deliveries (v.withApp a past).events = deliveries past ++ deliveries v.events := by
  rw [← deliveries_below]
  show deliveries (v.withApp a past).below.events = _
  rw [below_withApp, deliveries_append, deliveries_below]

@[simp] theorem submissions_map_lift (es : List (Event Empty)) :
    submissions (es.map Event.lift : List (Event ε)) = submissions es := by
  rw [← submissions_below, below_map_lift]

@[simp] theorem deliveries_map_lift (es : List (Event Empty)) :
    deliveries (es.map Event.lift : List (Event ε)) = deliveries es := by
  rw [← deliveries_below, below_map_lift]

theorem submissions_map_app (log : List ε) : submissions (log.map Event.app) = [] := by
  rw [submissions, List.filterMap_map, List.filterMap_eq_nil_iff]
  exact fun _ _ => rfl

theorem submissions_withApp (v : World Unit Empty) (a : σ) (past : List (Event ε)) :
    submissions (v.withApp a past).events = submissions past ++ submissions v.events := by
  rw [← submissions_below]
  show submissions (v.withApp a past).below.events = _
  rw [below_withApp, submissions_append, submissions_below]

include happ

theorem deliveries_nested (m : Bytes) (w : World σ ε) :
    deliveries (nested app 0 m w).events = deliveries w.events := by
  by_cases htaken : transmitResult w.link m = .ok
  · obtain ⟨o, hsends, hperforms, hout⟩ := transmitWith_taken app (fun _ w => w) (fun _ v => v)
      happ htaken
    have hsilent := deliveries_performs hperforms
    have hlifted := deliveries_withApp (transmitWith silent (fun _ v => v) m w.bare).2 w.app w.events
    rw [show nested app 0 m w = _ from hout]
    obtain rfl | rfl := hsends
    · exact hlifted.trans (by rw [hsilent]; exact List.append_nil _)
    · show deliveries (_ ++ _) = _
      rw [deliveries_append, deliveries_map_app, List.append_nil]
      exact hlifted.trans (by rw [hsilent]; exact List.append_nil _)
  · have hrejected := transmitWith_rejected app (fun _ w => w) htaken
    rw [show nested app 0 m w = _ from congrArg Prod.snd hrejected, World.events_log,
      deliveries_append]
    exact List.append_nil _

/-- A message that a callback transmits is taken if the link is free for it. -/
theorem submissions_nested (m : Bytes) (w : World σ ε) :
    submissions (nested app 0 m w).events =
      submissions w.events ++ if transmitResult w.link m = .ok then [m] else [] := by
  by_cases htaken : transmitResult w.link m = .ok
  · obtain ⟨o, hsends, hperforms, hout⟩ := transmitWith_taken app (fun _ w => w) (fun _ v => v)
      happ htaken
    have hsilent : submissions (transmitWith silent (fun _ v => v) m w.bare).2.events = [m] :=
      submissions_performs hperforms
    have hlifted := submissions_withApp (transmitWith silent (fun _ v => v) m w.bare).2 w.app w.events
    rw [show nested app 0 m w = _ from hout, if_pos htaken]
    obtain rfl | rfl := hsends
    · exact hlifted.trans (by rw [hsilent])
    · show submissions (_ ++ _) = _
      rw [submissions_append, submissions_map_app, List.append_nil]
      exact hlifted.trans (by rw [hsilent])
  · have hrejected := transmitWith_rejected app (fun _ w => w) htaken
    rw [show nested app 0 m w = _ from congrArg Prod.snd hrejected, World.events_log,
      submissions_append, if_neg htaken]
    generalize transmitResult w.link m = result at htaken
    cases result with
    | ok => exact absurd rfl htaken
    | _ => rfl

theorem submissions_sends (ms : List Bytes) (w : World σ ε) :
    submissions w.events <+:
      submissions (ms.foldl (fun w m => nested app 0 m w) w).events := by
  induction ms generalizing w with
  | nil => exact List.prefix_rfl
  | cons m ms ih =>
      refine List.IsPrefix.trans ?_ (ih _)
      rw [submissions_nested happ]
      exact List.prefix_append _ _

theorem deliveries_react (r : Reaction σ ε) (w : World σ ε) :
    deliveries (react (nested app 0) r w).events = deliveries w.events := by
  have hall : ∀ (ms : List Bytes) (w : World σ ε),
      deliveries (ms.foldl (fun w m => nested app 0 m w) w).events = deliveries w.events := by
    intro ms
    induction ms with
    | nil => exact fun _ => rfl
    | cons m ms ih => exact fun w => (ih _).trans (deliveries_nested happ m w)
  refine (hall r.sends _).trans ?_
  rw [World.events_settle, deliveries_append, deliveries_map_app, List.append_nil]

theorem Mirrors.deliveries {u v' : World Unit Empty} {a : σ} {o : Outcome} {w' : World σ ε}
    (h : Mirrors app (nested app 0) u a [] o v' w') (hu : u.events = []) :
    IsoTp.deliveries w'.events = o.message.toList := by
  obtain ⟨hperforms, rfl⟩ := h
  have hsilent := deliveries_performs hperforms
  rw [hu] at hsilent
  have hlifted : IsoTp.deliveries (v'.withApp a ([] : List (Event ε))).events = o.message.toList :=
    (deliveries_withApp v' a []).trans hsilent
  cases o with
  | none => exact hlifted
  | confirmed result =>
      show IsoTp.deliveries (_ ++ _) = _
      rw [deliveries_append, deliveries_map_app, List.append_nil]
      exact hlifted
  | received data => exact (deliveries_react happ _ _).trans hlifted

theorem cfg_nested (m : Bytes) (w : World σ ε) : (nested app 0 m w).link.cfg = w.link.cfg := by
  by_cases htaken : transmitResult w.link m = .ok
  · obtain ⟨o, hsends, hperforms, hout⟩ := transmitWith_taken app (fun _ w => w) (fun _ v => v)
      happ htaken
    rw [show nested app 0 m w = _ from hout]
    obtain rfl | rfl := hsends <;> exact hperforms.cfg
  · have hrejected := transmitWith_rejected app (fun _ w => w) htaken
    rw [show nested app 0 m w = _ from congrArg Prod.snd hrejected]
    rfl

theorem cfg_react (r : Reaction σ ε) (w : World σ ε) :
    (react (nested app 0) r w).link.cfg = w.link.cfg := by
  have hall : ∀ (ms : List Bytes) (w : World σ ε),
      (ms.foldl (fun w m => nested app 0 m w) w).link.cfg = w.link.cfg := by
    intro ms
    induction ms with
    | nil => exact fun _ => rfl
    | cons m ms ih => exact fun w => (ih _).trans (cfg_nested happ m w)
  exact hall r.sends _

theorem Mirrors.cfg {u v' : World Unit Empty} {a : σ} {o : Outcome} {w' : World σ ε}
    (h : Mirrors app (nested app 0) u a [] o v' w') : w'.link.cfg = u.link.cfg := by
  obtain ⟨hperforms, rfl⟩ := h
  cases o with
  | none => exact hperforms.cfg
  | confirmed result => exact hperforms.cfg
  | received data => exact (cfg_react happ _ _).trans hperforms.cfg

end Delivers

/-! ### The ends in the middle of a call -/

section Midway

variable {ok : Config → Bytes → Prop} {reports : Event Empty → Prop} {P : Direction → Prop}
  {ex ey : List (Event Empty)} {inbox : List Frame} {y : Node}

theorem Midway.congr {w w' : World Unit Empty} (h : Midway P reports ex inbox y ey w)
    (hlink : w'.link = w.link) (hevents : w'.events = w.events) :
    Midway P reports ex inbox y ey w' := by
  rw [Midway, hlink, hevents]
  exact h

theorem midway_past (past : List (Event Empty)) (w : World Unit Empty) :
    Midway P reports ex inbox y ey { w with events := past ++ w.events } ↔
      Midway P reports (ex ++ past) inbox { y with inbox := y.inbox ++ sentFrames past } ey w := by
  simp only [Midway, sentFrames_append, List.append_assoc]

variable {app : App σ ε} (happ : app.Attentive) {w : World σ ε}

theorem Midway.settle (h : Midway P reports ex inbox y ey w.below) (r : Reaction σ ε) :
    Midway P reports ex inbox y ey (w.settle r).below :=
  h.congr rfl (by simp [World.below])

theorem Midway.confirmed (h : Midway P reports ex inbox y ey w.below)
    {resubmit : Bytes → World σ ε → World σ ε} {o : Outcome} (ho : ∀ data, o ≠ .received data) :
    Midway P reports ex inbox y ey (w.complete app resubmit o).below := by
  cases o with
  | none => exact h
  | confirmed result => exact h.settle _
  | received data => exact absurd rfl (ho data)

include happ

theorem Midway.nested (hP : Kept ok reports P) (h : Midway P reports ex inbox y ey w.below)
    {m : Bytes} (hok : transmitResult w.link m = .ok → ok y.link.cfg m) :
    Midway P reports ex inbox y ey (nested app 0 m w).below := by
  by_cases htaken : transmitResult w.link m = .ok
  · obtain ⟨o, hsends, -, hout⟩ := transmitWith_taken app (fun _ w => w) (fun _ v => v) happ htaken
    have hbare : Midway P reports (ex ++ below w.events) inbox
        { y with inbox := y.inbox ++ sentFrames (below w.events) } ey w.bare := by
      refine (midway_past (below w.events) w.bare).mp (h.congr rfl ?_)
      exact List.append_nil _
    have hsent := Midway.transmit hP hbare (fun _ v => v) (m := m) fun _ => hok htaken
    have hbelow := (midway_past (below w.events) _).mpr hsent
    rw [← below_withApp _ w.app] at hbelow
    rw [show IsoTp.nested app 0 m w = _ from hout]
    apply Midway.confirmed hbelow
    obtain rfl | rfl := hsends <;> simp
  · have hrejected := transmitWith_rejected app (fun _ w => w) htaken
    rw [show IsoTp.nested app 0 m w = _ from congrArg Prod.snd hrejected]
    have hevents : below (w.events ++ [.transmit m (transmitResult w.link m)]) =
        below w.events ++ [.transmit m (transmitResult w.link m)] := below_append _ _
    refine Midway.noted hP h rfl hevents ?_ rfl
    simpa [Event.Outgoing] using htaken

theorem Midway.react (hP : Kept ok reports P) (h : Midway P reports ex inbox y ey w.below)
    {r : Reaction σ ε}
    (hok : ∀ m ∈ submissions (react (IsoTp.nested app 0) r w).events, ok y.link.cfg m) :
    Midway P reports ex inbox y ey (react (IsoTp.nested app 0) r w).below := by
  have hall : ∀ (ms : List Bytes) (w : World σ ε), Midway P reports ex inbox y ey w.below →
      (∀ m ∈ submissions (ms.foldl (fun w m => IsoTp.nested app 0 m w) w).events,
        ok y.link.cfg m) →
      Midway P reports ex inbox y ey (ms.foldl (fun w m => IsoTp.nested app 0 m w) w).below := by
    intro ms
    induction ms with
    | nil => exact fun _ h _ => h
    | cons m ms ih =>
        intro w h hok
        refine ih _ (Midway.nested happ hP h fun htaken => hok m ?_) hok
        refine (submissions_sends happ ms _).subset ?_
        rw [submissions_nested happ, if_pos htaken]
        exact List.mem_append_right _ List.mem_cons_self
  exact hall r.sends _ (h.settle r) hok

theorem Midway.mirrored (hP : Kept ok reports P)
    {u v' : World Unit Empty} {a : σ} {o : Outcome} {w' : World σ ε}
    (hok : ∀ m ∈ submissions w'.events, ok y.link.cfg m)
    (hmirrors : Mirrors app (IsoTp.nested app 0) u a [] o v' w')
    (h : Midway P reports ex inbox y ey v') : Midway P reports ex inbox y ey w'.below := by
  obtain ⟨-, rfl⟩ := hmirrors
  have hbelow : Midway P reports ex inbox y ey (v'.withApp a ([] : List (Event ε))).below := by
    rw [below_withApp]
    exact h.congr rfl rfl
  cases o with
  | none => exact hbelow
  | confirmed result => exact hbelow.settle _
  | received data => exact Midway.react happ hP hbelow hok

theorem midway_rxFrame (hP : Kept ok reports P) (env : Env) {l : Link} (a : σ)
    (h : Paired P reports { link := l, inbox := inbox } y ex ey) {f : Frame} {rest : List Frame}
    (hinbox : inbox = f :: rest)
    (hok : ∀ m ∈ submissions (rxFrame app (IsoTp.nested app 0) f canDl
      { link := l, app := a, env := env }).events, ok y.link.cfg m) :
    Midway P reports ex rest y ey
      (rxFrame app (IsoTp.nested app 0) f canDl { link := l, app := a, env := env }).below := by
  have hsilent : Midway P reports ex rest y ey (rxFrame silent (IsoTp.nested silent 0) f canDl
      { link := l, app := (), env := env }) := by
    by_cases htype : f.pciType = 3
    · exact Paired.arrive hP 0 env h hinbox htype
    · exact Paired.read hP 0 env h hinbox htype
  obtain ⟨o, -, hmirrors⟩ := mirrors_rxFrame app (IsoTp.nested app 0) (IsoTp.nested silent 0) a []
    happ f canDl { link := l, app := (), env := env }
  exact Midway.mirrored happ hP hok hmirrors hsilent

theorem midway_mainFunction (hP : Kept ok reports P) (env : Env) {l : Link} (a : σ)
    (h : Paired P reports { link := l, inbox := inbox } y ex ey) (htimely : ¬ l.Expires 0 env)
    (hok : ∀ m ∈ submissions (mainFunction app (IsoTp.nested app 0)
      { link := l, app := a, env := env }).events, ok y.link.cfg m) :
    Midway P reports ex inbox y ey
      (mainFunction app (IsoTp.nested app 0) { link := l, app := a, env := env }).below := by
  have hsilent : Midway P reports ex inbox y ey (mainFunction silent (IsoTp.nested silent 0)
      { link := l, app := (), env := env }) := Paired.mainFunction hP 0 env h htimely
  obtain ⟨o, -, hmirrors⟩ := mirrors_mainFunction app (IsoTp.nested app 0) (IsoTp.nested silent 0) a
    [] happ l env
  exact Midway.mirrored happ hP hok hmirrors hsilent

end Midway

theorem attentive_silent : silent.Attentive :=
  ⟨fun _ _ _ _ => rfl, fun _ _ _ _ _ => rfl, fun _ _ => rfl⟩

/-- A silent link takes a message in `IsoTp_Transmit` only. -/
theorem submissions_act (env : Env) (x y : Node) (action : Action) :
    (submissions (x.act 0 env y action).2).length ≤ 1 ∧
      ((∀ m, action ≠ .transmit m) → submissions (x.act 0 env y action).2 = []) := by
  have hcalls : ∀ (x : Node) (c : Call), (∀ m, c ≠ .transmit m) →
      submissions (x.call 0 env c y).2 = [] := by
    intro x c hc
    cases c with
    | transmit m => exact absurd rfl (hc m)
    | rxFrame data dlc =>
        obtain ⟨o, -, hperforms, -⟩ := mirrors_rxFrame silent (nested silent 0) (nested silent 0) ()
          [] attentive_silent data dlc { link := x.link, app := (), env := env }
        exact submissions_performs hperforms
    | mainFunction =>
        obtain ⟨o, -, hperforms, -⟩ := mirrors_mainFunction silent (nested silent 0)
          (nested silent 0) () [] attentive_silent x.link env
        exact submissions_performs hperforms
  cases action with
  | transmit m =>
      refine ⟨?_, fun hnot => absurd rfl (hnot m)⟩
      show (submissions (transmitWith silent (nested silent 0) m
        { link := x.link, app := (), env := env }).2.events).length ≤ 1
      by_cases htaken : transmitResult x.link m = .ok
      · obtain ⟨o, -, hperforms, -⟩ := mirrors_transmitWith silent (nested silent 0)
          (nested silent 0) () [] attentive_silent
          (v := { link := x.link, app := (), env := env }) htaken
        rw [submissions_performs hperforms]
        exact Nat.le_refl 1
      · rw [transmitWith_rejected silent (nested silent 0) htaken]
        generalize transmitResult x.link m = result
        cases result with
        | ok => exact Nat.le_refl 1
        | _ => exact Nat.zero_le 1
  | mainFunction =>
      have hnone := hcalls x .mainFunction (by simp)
      exact ⟨by rw [show submissions (x.act 0 env y .mainFunction).2 = [] from hnone]; simp,
        fun _ => hnone⟩
  | deliver =>
      cases hinbox : x.inbox with
      | nil =>
          rw [Node.act_nil 0 env hinbox]
          exact ⟨Nat.zero_le 1, fun _ => rfl⟩
      | cons f rest =>
          have hnone := hcalls { x with inbox := rest } (.rxFrame f canDl) (by simp)
          rw [Node.act_cons 0 env hinbox, hnone]
          exact ⟨Nat.zero_le 1, fun _ => rfl⟩

end MiniEcu.IsoTp
