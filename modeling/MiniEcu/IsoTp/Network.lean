import MiniEcu.IsoTp.Agreement

/-!
# A network of two links

Two links whose drivers feed each other through lossless channels that keep the order. Both ends are
called at any time, with any clock and any refusals of the driver, and traffic runs in both
directions at once. What is claimed of such a network is mostly claimed of each direction by itself:
`Kept` lists what a step of either end can do to a direction, and `Paired.step` proves once that a
property of directions with all of these holds at both ends after every step in which no timer
expires.
-/

namespace MiniEcu.IsoTp

open Memory Trace

/-! ### The network -/

/-- A link and the frames on their way to it. -/
structure Node where
  link : Link
  inbox : List Frame

structure Net where
  a : Node
  b : Node

inductive Side
  | a
  | b
deriving DecidableEq

/-- What can happen at one end. -/
inductive Action
  | transmit (m : Bytes)
  | deliver
  | mainFunction

/-- A call on `x`. The frames its driver takes are on their way to `y`. -/
def Node.call (depth : Nat) (env : Env) (c : Call) (x y : Node) :
    (Node × Node) × List (Event Empty) :=
  let out := IsoTp.call silent depth (x.link, ()) (env, c)
  (({ x with link := out.1.1 }, { y with inbox := y.inbox ++ sentFrames out.2 }), out.2)

/-- One end acts. A frame arrives with all its eight bytes; with none on their way, none arrives. -/
def Node.act (depth : Nat) (env : Env) (x y : Node) : Action → (Node × Node) × List (Event Empty)
  | .transmit m => x.call depth env (.transmit m) y
  | .deliver =>
      match x.inbox with
      | [] => ((x, y), [])
      | f :: rest => Node.call depth env (.rxFrame f canDl) { x with inbox := rest } y
  | .mainFunction => x.call depth env .mainFunction y

def Net.step (depth : Nat) (n : Net) : Side × Env × Action → Net × List (Side × Event Empty)
  | (.a, env, action) =>
      let out := n.a.act depth env n.b action
      ({ a := out.1.1, b := out.1.2 }, out.2.map (Side.a, ·))
  | (.b, env, action) =>
      let out := n.b.act depth env n.a action
      ({ a := out.1.2, b := out.1.1 }, out.2.map (Side.b, ·))

/-- Whether a timer expires in a call of `IsoTp_MainFunction`. -/
def Link.Expires (depth : Nat) (l : Link) (env : Env) : Prop :=
  let w : World Unit Empty := { link := l, app := (), env }
  w.RxExpired ∨ (rxMainFunction silent (nested silent depth) w).TxExpired

instance (depth : Nat) (l : Link) (env : Env) : Decidable (l.Expires depth env) :=
  inferInstanceAs (Decidable (_ ∨ _))

/-- No timer expires when the action is taken. -/
def Net.Timely (depth : Nat) (n : Net) : Side × Env × Action → Prop
  | (.a, env, .mainFunction) => ¬ n.a.link.Expires depth env
  | (.b, env, .mainFunction) => ¬ n.b.link.Expires depth env
  | _ => True

/-- What happened at one end. -/
def eventsAt (side : Side) (tr : List (Side × Event Empty)) : List (Event Empty) :=
  tr.filterMap fun e => if e.1 = side then some e.2 else none

def Event.submission {ε : Type} : Event ε → Option Bytes
  | .transmit m .ok => some m
  | _ => none

/-- The messages `IsoTp_Transmit` accepted. -/
def submissions {ε : Type} (es : List (Event ε)) : List Bytes := es.filterMap Event.submission

/-- The event reports no error. -/
def Event.Fine {ε : Type} : Event ε → Prop
  | .rxIndication _ result => result = .ok
  | .txConfirmation result => result = .ok
  | _ => True

theorem submissions_append {ε : Type} (es fs : List (Event ε)) :
    submissions (es ++ fs) = submissions es ++ submissions fs := List.filterMap_append

@[simp] theorem eventsAt_append (side : Side) (tr tr' : List (Side × Event Empty)) :
    eventsAt side (tr ++ tr') = eventsAt side tr ++ eventsAt side tr' := List.filterMap_append

theorem eventsAt_map (side : Side) (es : List (Event Empty)) :
    eventsAt side (es.map (side, ·)) = es := by
  simp [eventsAt, List.filterMap_map]

theorem eventsAt_map_ne {side side' : Side} (h : side' ≠ side) (es : List (Event Empty)) :
    eventsAt side (es.map (side', ·)) = [] := by
  simp [eventsAt, h]

/-! ### Kinds of events -/

/-- A message is lost. -/
def Output.IsLoss : Output → Prop
  | .lost _ _ => True
  | _ => False

/-- An event of a sender that goes well. -/
def Event.Outgoing {ε : Type} : Event ε → Prop
  | .sendFrame _ f _ => f.pciType ≠ pciTypeFc
  | .txConfirmation result => result = .ok
  | .rxIndication _ _ => False
  | .transmit _ result => result ≠ .ok
  | _ => True

section Kinds

variable {es : List (Event Empty)}

theorem sentFrames_outgoing (h : ∀ e ∈ es, e.Outgoing) : ∀ f ∈ sentFrames es, f.pciType ≠ pciTypeFc := by
  intro f hf
  obtain ⟨e, he, hsent⟩ := List.mem_filterMap.mp hf
  have hout := h e he
  cases e with
  | sendFrame canId g accepted =>
      cases accepted with
      | false => cases hsent
      | true =>
          obtain rfl := Option.some.inj hsent
          exact hout
  | _ => cases hsent

theorem deliveries_outgoing (h : ∀ e ∈ es, e.Outgoing) : deliveries es = [] := by
  apply List.filterMap_eq_nil_iff.mpr
  intro e he
  have hout := h e he
  cases e with
  | rxIndication data result => exact absurd hout id
  | _ => rfl

theorem submissions_outgoing (h : ∀ e ∈ es, e.Outgoing) : submissions es = [] := by
  apply List.filterMap_eq_nil_iff.mpr
  intro e he
  have hout := h e he
  cases e with
  | transmit m result => cases result <;> first | rfl | exact absurd rfl hout
  | _ => rfl

theorem fine_outgoing (h : ∀ e ∈ es, e.Outgoing) : ∀ e ∈ es, e.Fine := by
  intro e he
  have hout := h e he
  cases e with
  | txConfirmation result => exact hout
  | rxIndication data result => exact absurd hout id
  | _ => trivial

theorem submissions_incoming (h : ∀ e ∈ es, e.Incoming) : submissions es = [] := by
  apply List.filterMap_eq_nil_iff.mpr
  intro e he
  have hin := h e he
  cases e with
  | transmit m result => exact absurd hin id
  | _ => rfl

theorem fine_incoming (h : ∀ e ∈ es, e.Incoming) (hgood : ∀ o ∈ outputs es, ¬ o.IsLoss) :
    ∀ e ∈ es, e.Fine := by
  intro e he
  have hin := h e he
  cases e with
  | txConfirmation result => exact absurd hin id
  | rxIndication data result =>
      by_contra hne
      have hlost : Event.output (ε := Empty) (.rxIndication data result) = some (.lost data result) := by
        cases result <;> first | rfl | exact absurd rfl hne
      exact hgood _ (List.mem_filterMap.mpr ⟨_, he, hlost⟩) trivial
  | _ => trivial

theorem TxSide.Paced.outgoing {t : TxSide} {pace : List (Event Empty)} (h : t.Paced pace) :
    ∀ e ∈ pace, e.Outgoing := by
  cases h <;> simp [Event.Outgoing]

theorem Sending.outgoing {cfg : Config} {t t' : TxSide} (hinv : TxInv cfg t)
    (h : Sending cfg t es t') : ∀ e ∈ es, e.Outgoing := by
  have hfirst := t.pciType_first
  cases h with
  | firstRefused | singleSent | firstSent => simpa [Event.Outgoing] using hfirst
  | tooEarly => simp [Event.Outgoing]
  | unfinished => simp [Event.Outgoing]
  | cfRefused hs hpace | lastSent hs hpace | cfSent hs hpace | cfSentInBlock hs hpace
  | blockSent hs hpace =>
      have hcf := hinv.pciType_consecutive hs
      simpa [Event.Outgoing, or_imp, forall_and] using ⟨hpace.outgoing, hcf⟩

theorem Sending.outgoing_steps {cfg : Config} {t t' : TxSide} (hinv : TxInv cfg t)
    (h : Steps (Sending cfg) t es t') : ∀ e ∈ es, e.Outgoing := by
  have hkeep := Steps.invariant (fun t es => TxInv cfg t ∧ ∀ e ∈ es, e.Outgoing) ?_ []
    ⟨hinv, by simp⟩ h
  · exact hkeep.2
  · intro t tr es t' ht hstep
    exact ⟨ht.1.sending hstep, List.forall_mem_append.mpr ⟨ht.2, hstep.outgoing ht.1⟩⟩

end Kinds

/-! ### The two directions -/

/-- The frames that carry messages. -/
def dataFrames (fs : List Frame) : List Frame := fs.filter (·.pciType != pciTypeFc)

/-- The flow controls. -/
def controlFrames (fs : List Frame) : List Frame := fs.filter (·.pciType == pciTypeFc)

/-- What runs from `s` to `r`, after the events `es` at `s` and `er` at `r`. -/
def direction (s r : Node) (es er : List (Event Empty)) : Direction where
  sender := s.link.cfg
  receiver := r.link.cfg
  tx := s.link.tx
  accepted := submissions es
  data := dataFrames r.inbox
  rx := r.link.rx
  delivered := deliveries er
  control := controlFrames s.inbox

theorem frames_data {fs : List Frame} (h : ∀ f ∈ fs, f.pciType ≠ pciTypeFc) :
    dataFrames fs = fs ∧ controlFrames fs = [] := by
  constructor
  · exact List.filter_eq_self.mpr fun f hf => by simpa using h f hf
  · exact List.filter_eq_nil_iff.mpr fun f hf => by simpa using h f hf

theorem frames_control {fs : List Frame} (h : ∀ f ∈ fs, f.pciType = pciTypeFc) :
    dataFrames fs = [] ∧ controlFrames fs = fs := by
  constructor
  · exact List.filter_eq_nil_iff.mpr fun f hf => by simpa using h f hf
  · exact List.filter_eq_self.mpr fun f hf => by simpa using h f hf

@[simp] theorem dataFrames_append (fs gs : List Frame) :
    dataFrames (fs ++ gs) = dataFrames fs ++ dataFrames gs := List.filter_append fs gs

@[simp] theorem controlFrames_append (fs gs : List Frame) :
    controlFrames (fs ++ gs) = controlFrames fs ++ controlFrames gs := List.filter_append fs gs

/-! ### What a direction keeps -/

/-- What it takes for a property of directions to be kept. `ok` is asked of the messages accepted for
a receiver, `reports` is what the property promises of the events at either end. -/
structure Kept (ok : Config → Bytes → Prop) (reports : Event Empty → Prop) (P : Direction → Prop) :
    Prop where
  tx : ∀ {d}, P d → TxInv d.sender d.tx
  rx : ∀ {d}, P d → RxInv d.receiver d.rx
  fine : ∀ {e}, e.Fine → reports e
  sending : ∀ {d} {es : List (Event Empty)} {t}, P d → Sending d.sender d.tx es t →
    P { d with tx := t, data := d.data ++ sentFrames es }
  started : ∀ {d m}, P d → d.tx.txState = .idle → m.length ≠ 0 → m.length ≤ 4095 →
    m.length ≤ d.sender.txBufferSize → ok d.receiver m → ∀ time,
    P { d with tx := d.tx.started m time, accepted := d.accepted ++ [m] }
  /-- A flow control arrives. -/
  arrived : ∀ {d f rest}, P d → d.control = f :: rest → d.tx.txState = .waitFc ∧
    (f.pciLow = fcStatusCts ∧
        (∀ time, P { d with tx := d.tx.cleared (f.byte 1) (f.byte 2) time, control := rest }) ∨
      f.pciLow = fcStatusOvflw ∧ reports (.txConfirmation .errOverflow) ∧
        P { d with tx := { d.tx with txState := .idle }, control := rest })
  /-- The receiver reads a frame. -/
  received : ∀ {d f rest r} {es : List (Event Empty)}, P d → d.data = f :: rest →
    RxInv d.receiver r →
    receive d.receiver.rxBufferSize d.receiver.blockSize.toNat d.rx.assembly (decode f 8)
      = (r.assembly, outputs es) →
    Answers d.receiver d.rx r ((outputs es).filter Output.isAnswer) (sentFrames es) →
    (∀ o ∈ outputs es, ¬ o.IsLoss) ∧ (∀ g ∈ sentFrames es, g.pciType = pciTypeFc) ∧
      P { d with
        rx := r
        data := rest
        delivered := d.delivered ++ deliveries es
        control := d.control ++ sentFrames es }
  /-- The receiver offers its pending flow control again. -/
  retried : ∀ {d}, P d → d.rx.rxFcPending = true → ∀ accepted,
    P { d with
      rx := d.rx.answered d.rx.rxFcStatus accepted
      control := d.control ++ if accepted then
        [flowControlFrame d.rx.rxFcStatus d.receiver.blockSize d.receiver.stMin] else [] }

/-- Both directions between two ends, and what the events so far report. -/
structure Paired (P : Direction → Prop) (reports : Event Empty → Prop) (x y : Node)
    (ex ey : List (Event Empty)) : Prop where
  forth : P (direction x y ex ey)
  back : P (direction y x ey ex)
  here : ∀ e ∈ ex, reports e
  there : ∀ e ∈ ey, reports e

/-- The ends in the middle of a call on the first of them, whose events before the call were `ex`. -/
def Midway (P : Direction → Prop) (reports : Event Empty → Prop) (ex : List (Event Empty))
    (inbox : List Frame) (y : Node) (ey : List (Event Empty)) (w : World Unit Empty) : Prop :=
  Paired P reports { link := w.link, inbox } { y with inbox := y.inbox ++ sentFrames w.events }
    (ex ++ w.events) ey

theorem Paired.symm {P : Direction → Prop} {reports : Event Empty → Prop} {x y : Node}
    {ex ey : List (Event Empty)} (h : Paired P reports x y ex ey) : Paired P reports y x ey ex :=
  ⟨h.back, h.forth, h.there, h.here⟩

section Kept

variable {ok : Config → Bytes → Prop} {reports : Event Empty → Prop} {P : Direction → Prop}
  (hP : Kept ok reports P)
include hP

theorem Kept.sends {d : Direction} (h : P d) {es : List (Event Empty)} {t : TxSide}
    (hsteps : Steps (Sending d.sender) d.tx es t) :
    P { d with tx := t, data := d.data ++ sentFrames es } := by
  let I : TxSide → List (Event Empty) → Prop := fun t es =>
    P { d with tx := t, data := d.data ++ sentFrames es }
  have hstart : I d.tx [] := by
    show P { d with data := d.data ++ [] }
    rwa [List.append_nil]
  refine Steps.invariant I ?_ [] hstart hsteps
  intro t tr es t' ht hstep
  have hnext := hP.sending ht hstep
  show P { d with tx := t', data := d.data ++ sentFrames (tr ++ es) }
  rw [sentFrames_append, ← List.append_assoc]
  exact hnext

/-! ### One end in the middle of a call -/

section Midway

variable {ex ey : List (Event Empty)} {inbox : List Frame} {y : Node} {w w' : World Unit Empty}

theorem Midway.transmits (h : Midway P reports ex inbox y ey w) (htransmits : w.Transmits w') :
    Midway P reports ex inbox y ey w' := by
  obtain ⟨hcfg, hrx, -, es, hes, hsteps⟩ := htransmits
  have hout := Sending.outgoing_steps (hP.tx h.forth) hsteps
  obtain ⟨hdata, hcontrol⟩ := frames_data (sentFrames_outgoing hout)
  have hforth := hP.sends h.forth hsteps
  have hback := h.back
  refine ⟨?_, ?_, ?_, h.there⟩
  · convert hforth using 1
    simp [direction, hcfg, hes, hdata, submissions_append, submissions_outgoing hout]
  · convert hback using 1
    simp [direction, hcfg, hrx, hes, hcontrol, deliveries_append, deliveries_outgoing hout]
  · rw [hes, ← List.append_assoc]
    exact List.forall_mem_append.mpr ⟨h.here, fun e he => hP.fine (fine_outgoing hout e he)⟩

theorem Midway.noted (h : Midway P reports ex inbox y ey w) (hlink : w'.link = w.link)
    {es : List (Event Empty)} (hes : w'.events = w.events ++ es) (hout : ∀ e ∈ es, e.Outgoing)
    (hsent : sentFrames es = []) : Midway P reports ex inbox y ey w' := by
  have hforth := h.forth
  have hback := h.back
  refine ⟨?_, ?_, ?_, h.there⟩
  · rw [hlink, hes, sentFrames_append, hsent, List.append_nil, ← List.append_assoc]
    convert hforth using 1
    simp [direction, submissions_append, submissions_outgoing hout]
  · rw [hlink, hes, sentFrames_append, hsent, List.append_nil, ← List.append_assoc]
    convert hback using 1
    simp [direction, deliveries_append, deliveries_outgoing hout]
  · rw [hes, ← List.append_assoc]
    exact List.forall_mem_append.mpr ⟨h.here, fun e he => hP.fine (fine_outgoing hout e he)⟩

theorem Midway.tick (h : Midway P reports ex inbox y ey w) : Midway P reports ex inbox y ey w.tick :=
  Midway.noted hP h rfl rfl (by simp [Event.Outgoing]) rfl

theorem Midway.accepted (h : Midway P reports ex inbox y ey w) {m : Bytes}
    (hs : w.link.tx.txState = .idle) (hpos : m.length ≠ 0) (hmax : m.length ≤ 4095)
    (hfits : m.length ≤ w.link.cfg.txBufferSize) (hok : ok y.link.cfg m) :
    Midway P reports ex inbox y ey (accepted m w) := by
  have hforth := hP.started h.forth hs hpos hmax hfits hok (w.env.clock w.reads)
  have hback := h.back
  have hevents : (IsoTp.accepted m w).events = w.events ++
      [.transmit m .ok, .txWrite 0 m.length, .getTimeMs (w.env.clock w.reads)] := by
    simp [IsoTp.accepted]
  refine ⟨?_, ?_, ?_, h.there⟩
  · rw [hevents]
    convert hforth using 1
    simp [direction, submissions_append]
    exact ⟨rfl, rfl, rfl, rfl⟩
  · rw [hevents]
    convert hback using 1
    simp [direction, deliveries_append]
    exact ⟨rfl, rfl, rfl, rfl⟩
  · rw [hevents, ← List.append_assoc]
    refine List.forall_mem_append.mpr ⟨h.here, fun e he => hP.fine ?_⟩
    have hfine : ∀ e ∈ [Event.transmit m .ok, .txWrite 0 m.length,
        .getTimeMs (w.env.clock w.reads)], (e : Event Empty).Fine := by simp [Event.Fine]
    exact hfine e he

theorem Midway.transmit (h : Midway P reports ex inbox y ey w)
    (resubmit : Bytes → World Unit Empty → World Unit Empty) {m : Bytes}
    (hok : m ∈ submissions ((transmitWith silent resubmit m w).2.events.drop w.events.length) →
      ok y.link.cfg m) :
    Midway P reports ex inbox y ey (transmitWith silent resubmit m w).2 := by
  rcases @transmit_silent resubmit m w with
    ⟨result, hrejected, heq⟩ | ⟨hidle, hpos, hmax, hfits, htransmits⟩
  · rw [heq]
    exact Midway.noted hP h rfl rfl (by simpa [Event.Outgoing] using hrejected) rfl
  · have hsubmitted : m ∈ submissions
        ((transmitWith silent resubmit m w).2.events.drop w.events.length) := by
      obtain ⟨es, hes, -⟩ := htransmits.steps
      have hnew : (transmitWith silent resubmit m w).2.events = w.events ++
          ([.transmit m .ok, .txWrite 0 m.length, .getTimeMs (w.env.clock w.reads)] ++ es) := by
        rw [hes]
        simp [IsoTp.accepted]
      rw [hnew, List.drop_left, submissions_append]
      exact List.mem_append_left _ List.mem_cons_self
    exact Midway.transmits hP (Midway.accepted hP h hidle hpos hmax hfits (hok hsubmitted))
      htransmits

theorem Midway.txMainFunction {resubmit : Bytes → World Unit Empty → World Unit Empty}
    (h : Midway P reports ex inbox y ey w) (hres : Resubmits resubmit) (htimely : ¬ w.TxExpired) :
    Midway P reports ex inbox y ey (txMainFunction silent resubmit w) := by
  obtain ⟨v, htransmits, hout⟩ := txMainFunction_silent hres w
  rcases hout with heq | heq | ⟨hexpired, -⟩
  · rw [heq]
    exact Midway.transmits hP h htransmits
  · rw [heq]
    exact Midway.tick hP (Midway.transmits hP h htransmits)
  · exact absurd hexpired htimely

omit hP in
/-- The receiver moves: what it sends back is the other direction's business only. -/
theorem Midway.hears {es : List (Event Empty)} (hcfg : w'.link.cfg = w.link.cfg)
    (htx : w'.link.tx = w.link.tx) (hes : w'.events = w.events ++ es) (hin : ∀ e ∈ es, e.Incoming)
    (hcontrol : ∀ f ∈ sentFrames es, f.pciType = pciTypeFc)
    (hforth : P (direction { link := w.link, inbox }
      { y with inbox := y.inbox ++ sentFrames w.events } (ex ++ w.events) ey))
    (hback : P { direction { y with inbox := y.inbox ++ sentFrames w.events }
        { link := w.link, inbox } ey (ex ++ w.events) with
      rx := w'.link.rx
      delivered := deliveries (ex ++ w.events) ++ deliveries es
      control := controlFrames (y.inbox ++ sentFrames w.events) ++ sentFrames es })
    (hfine : ∀ e ∈ (ex ++ w.events) ++ es, reports e) (hthere : ∀ e ∈ ey, reports e) :
    Midway P reports ex inbox y ey w' := by
  obtain ⟨hnoData, hall⟩ := frames_control hcontrol
  refine ⟨?_, ?_, ?_, hthere⟩
  · convert hforth using 1
    simp [direction, hcfg, htx, hes, hnoData, submissions_append, submissions_incoming hin]
  · convert hback using 1
    simp [direction, hcfg, hes, hall, deliveries_append]
  · rwa [hes, ← List.append_assoc]

theorem Midway.rxMainFunction {resubmit : Bytes → World Unit Empty → World Unit Empty}
    (h : Midway P reports ex inbox y ey w) (htimely : ¬ w.RxExpired) :
    Midway P reports ex inbox y ey (rxMainFunction silent resubmit w) := by
  have hretried : Midway P reports ex inbox y ey (retried w) := by
    rcases retried_eq w with ⟨heq, -⟩ | ⟨hpending, heq⟩
    · rw [heq]
      exact h
    · have hstatus : w.link.rx.rxFcStatus ≤ 2 := (hP.rx h.back).fcStatus
      have hback := hP.retried h.back hpending w.accepts
      have hsent : sentFrames [Event.sendFrame (ε := Empty) w.link.cfg.txId (flowControlFrame
          w.link.rx.rxFcStatus w.link.cfg.blockSize w.link.cfg.stMin) w.accepts] =
          if w.accepts then
            [flowControlFrame w.link.rx.rxFcStatus w.link.cfg.blockSize w.link.cfg.stMin]
          else [] := by
        cases w.accepts <;> rfl
      rw [heq]
      refine Midway.hears (w := w) rfl rfl rfl (by simp [Event.Incoming]) ?_ h.forth ?_ ?_ h.there
      · intro f hf
        rw [hsent] at hf
        have hframe :
            f = flowControlFrame w.link.rx.rxFcStatus w.link.cfg.blockSize w.link.cfg.stMin := by
          cases hacc : w.accepts <;> simp_all
        rw [hframe]
        exact Frame.pciType_padded (by decide) (by omega) _
      · rw [hsent]
        convert hback using 1
        simp [direction, deliveries, Event.delivery]
      · refine List.forall_mem_append.mpr ⟨h.here, fun e he => hP.fine ?_⟩
        rw [List.mem_singleton.mp he]
        trivial
  rcases rxMainFunction_silent resubmit w with ⟨-, heq | heq⟩ | ⟨hexpired, -⟩
  · rw [heq]
    exact hretried
  · rw [heq]
    exact Midway.tick hP hretried
  · exact absurd hexpired htimely

end Midway

/-! ### Every action -/

section Actions

variable {x y : Node} {ex ey : List (Event Empty)} (depth : Nat) (env : Env)

omit hP in
theorem Paired.midway (h : Paired P reports x y ex ey) :
    Midway P reports ex x.inbox y ey { link := x.link, app := (), env } := by
  show Paired P reports x { y with inbox := y.inbox ++ [] } (ex ++ []) ey
  rw [List.append_nil, List.append_nil]
  exact h

theorem Paired.linkInv (h : Paired P reports x y ex ey) : LinkInv x.link :=
  ⟨hP.rx h.back, hP.tx h.forth⟩

theorem Paired.transmit (h : Paired P reports x y ex ey) (m : Bytes)
    (hok : m ∈ submissions (x.call depth env (.transmit m) y).2 → ok y.link.cfg m) :
    Paired P reports (x.call depth env (.transmit m) y).1.1 (x.call depth env (.transmit m) y).1.2
      (ex ++ (x.call depth env (.transmit m) y).2) ey := by
  exact Midway.transmit hP (h.midway env) (nested silent depth) hok

theorem Paired.mainFunction (h : Paired P reports x y ex ey)
    (htimely : ¬ x.link.Expires depth env) :
    Paired P reports (x.call depth env .mainFunction y).1.1 (x.call depth env .mainFunction y).1.2
      (ex ++ (x.call depth env .mainFunction y).2) ey := by
  let w : World Unit Empty := { link := x.link, app := (), env }
  have hrx : ¬ w.RxExpired := fun hexpired => htimely (.inl hexpired)
  have htx : ¬ (rxMainFunction silent (nested silent depth) w).TxExpired :=
    fun hexpired => htimely (.inr hexpired)
  have hreceiver : Midway P reports ex x.inbox y ey (IsoTp.rxMainFunction silent (nested silent depth) w) :=
    Midway.rxMainFunction hP (h.midway env) hrx
  exact Midway.txMainFunction hP hreceiver (resubmits_nested silent depth) htx

theorem Paired.arrive (h : Paired P reports x y ex ey) {f : Frame} {rest : List Frame}
    (hinbox : x.inbox = f :: rest) (htype : f.pciType = 3) :
    let out := Node.call depth env (.rxFrame f canDl) { x with inbox := rest } y
    Paired P reports out.1.1 out.1.2 (ex ++ out.2) ey := by
  let w : World Unit Empty := { link := x.link, app := (), env }
  show Midway P reports ex rest y ey (rxFrame silent (nested silent depth) f 8 w)
  have hcontrol : (direction x y ex ey).control = f :: controlFrames rest := by
    simp [direction, hinbox, controlFrames, htype]
  obtain ⟨hs, harrived⟩ := hP.arrived h.forth hcontrol
  have hwaiting : w.link.tx.txState = .waitFc := hs
  have hignored : ¬ (w.link.tx.txState ≠ .waitFc ∨ 8 < 3) := by simp [hwaiting]
  have hback := h.back
  rw [rxFrame_flowControl (by decide) htype, txOnFlowControl_eq, if_neg hignored]
  rcases harrived with ⟨hlow, hcleared⟩ | ⟨hlow, hreports, haborted⟩
  · rw [if_pos hlow]
    refine Midway.transmits hP ?_
      (transmits_txSendConsecutiveFrames (resubmits_nested silent depth) _)
    have hforth := hcleared (env.clock 0)
    refine ⟨?_, ?_, ?_, h.there⟩
    · convert hforth using 1
      simp [direction, w, submissions, Event.submission, sentFrames, Event.sent, dataFrames]
    · convert hback using 1
      simp [direction, w, hinbox, deliveries, Event.delivery, sentFrames, Event.sent, controlFrames,
        dataFrames, htype]
    · refine List.forall_mem_append.mpr ⟨h.here, fun e he => hP.fine ?_⟩
      rw [List.mem_singleton.mp he]
      trivial
  · rw [if_neg (by rw [hlow]; decide), if_neg (by rw [hlow]; decide), if_pos hlow, txFinish_silent]
    refine ⟨?_, ?_, ?_, h.there⟩
    · convert haborted using 1
      simp [direction, w, submissions, Event.submission, sentFrames, Event.sent, dataFrames]
    · convert hback using 1
      simp [direction, w, hinbox, deliveries, Event.delivery, sentFrames, Event.sent, controlFrames,
        dataFrames, htype]
    · refine List.forall_mem_append.mpr ⟨h.here, fun e he => ?_⟩
      rw [List.mem_singleton.mp he]
      exact hreports

theorem Paired.read (h : Paired P reports x y ex ey) {f : Frame} {rest : List Frame}
    (hinbox : x.inbox = f :: rest) (htype : f.pciType ≠ 3) :
    let out := Node.call depth env (.rxFrame f canDl) { x with inbox := rest } y
    Paired P reports out.1.1 out.1.2 (ex ++ out.2) ey := by
  let w : World Unit Empty := { link := x.link, app := (), env }
  show Midway P reports ex rest y ey (rxFrame silent (nested silent depth) f 8 w)
  have hinv := Paired.linkInv hP h
  have hreceives : Receives w (decode f 8) (rxFrame silent (nested silent depth) f 8 w) :=
    receives_rxFrame hinv.rx htype
  have hheard : w.Hears (rxFrame silent (nested silent depth) f 8 w) := hears_rxFrame htype 8 w
  have hrx := (linkInv_call hinv depth (env, .rxFrame f 8)).rx
  have hdata : (direction y x ey ex).data = f :: dataFrames rest := by
    simp [direction, hinbox, dataFrames, htype]
  obtain ⟨es, hes, hin⟩ := hheard
  obtain ⟨fs, hfs, hreceive, hanswers⟩ := hreceives.refines
  obtain rfl := List.append_cancel_left (hes.symm.trans hfs)
  rw [cfg_call hinv] at hrx
  obtain ⟨hgood, hframes, hback⟩ := hP.received h.back hdata hrx hreceive hanswers
  have hforth := h.forth
  have hfine := fine_incoming hin hgood
  refine Midway.hears (w := w) hreceives.cfg hreceives.tx hes hin hframes ?_ ?_ ?_ h.there
  · convert hforth using 1
    simp [direction, w, hinbox, sentFrames, controlFrames, htype]
  · convert hback using 1
    simp [direction, w, sentFrames]
    rfl
  · refine List.forall_mem_append.mpr ⟨?_, fun e he => hP.fine (hfine e he)⟩
    simpa [w] using h.here

omit hP in
theorem Node.act_nil (hinbox : x.inbox = []) : x.act depth env y .deliver = ((x, y), []) := by
  simp only [Node.act, hinbox]

omit hP in
theorem Node.act_cons {f : Frame} {rest : List Frame} (hinbox : x.inbox = f :: rest) :
    x.act depth env y .deliver
      = Node.call depth env (.rxFrame f canDl) { x with inbox := rest } y := by
  simp only [Node.act, hinbox]

theorem Paired.act (h : Paired P reports x y ex ey) (action : Action)
    (htimely : action = .mainFunction → ¬ x.link.Expires depth env)
    (hok : ∀ m ∈ submissions (x.act depth env y action).2, ok y.link.cfg m) :
    Paired P reports (x.act depth env y action).1.1 (x.act depth env y action).1.2
      (ex ++ (x.act depth env y action).2) ey := by
  cases action with
  | transmit m => exact Paired.transmit hP depth env h m (hok m)
  | mainFunction => exact Paired.mainFunction hP depth env h (htimely rfl)
  | deliver =>
      cases hinbox : x.inbox with
      | nil =>
          rw [Node.act_nil depth env hinbox, List.append_nil]
          exact h
      | cons f rest =>
          rw [Node.act_cons depth env hinbox]
          by_cases htype : f.pciType = 3
          · exact Paired.arrive hP depth env h hinbox htype
          · exact Paired.read hP depth env h hinbox htype

omit hP in
theorem Node.act_cfg (hinv : LinkInv x.link) (action : Action) :
    (x.act depth env y action).1.1.link.cfg = x.link.cfg ∧
      (x.act depth env y action).1.2.link.cfg = y.link.cfg := by
  cases action with
  | transmit m => exact ⟨cfg_call hinv depth _, rfl⟩
  | mainFunction => exact ⟨cfg_call hinv depth _, rfl⟩
  | deliver =>
      cases hinbox : x.inbox with
      | nil =>
          rw [Node.act_nil depth env hinbox]
          exact ⟨rfl, rfl⟩
      | cons f rest =>
          rw [Node.act_cons depth env hinbox]
          exact ⟨cfg_call hinv depth _, rfl⟩

theorem Paired.step {n : Net} {tr : List (Side × Event Empty)}
    (h : Paired P reports n.a n.b (eventsAt .a tr) (eventsAt .b tr)) (i : Side × Env × Action)
    (htimely : n.Timely depth i)
    (hokA : ∀ m ∈ submissions (eventsAt .a (n.step depth i).2), ok n.b.link.cfg m)
    (hokB : ∀ m ∈ submissions (eventsAt .b (n.step depth i).2), ok n.a.link.cfg m) :
    Paired P reports (n.step depth i).1.a (n.step depth i).1.b
      (eventsAt .a (tr ++ (n.step depth i).2)) (eventsAt .b (tr ++ (n.step depth i).2)) := by
  obtain ⟨side, env, action⟩ := i
  rw [eventsAt_append, eventsAt_append]
  cases side with
  | a =>
      have hown : eventsAt .a (n.step depth (.a, env, action)).2 = (n.a.act depth env n.b action).2 :=
        eventsAt_map _ _
      have hother : eventsAt .b (n.step depth (.a, env, action)).2 = [] :=
        eventsAt_map_ne (by decide) _
      rw [hown] at hokA ⊢
      rw [hother, List.append_nil]
      refine Paired.act hP depth env h action ?_ hokA
      rintro rfl
      exact htimely
  | b =>
      have hown : eventsAt .b (n.step depth (.b, env, action)).2 = (n.b.act depth env n.a action).2 :=
        eventsAt_map _ _
      have hother : eventsAt .a (n.step depth (.b, env, action)).2 = [] :=
        eventsAt_map_ne (by decide) _
      rw [hown] at hokB ⊢
      rw [hother, List.append_nil]
      refine (Paired.act hP depth env h.symm action ?_ hokB).symm
      rintro rfl
      exact htimely

theorem Net.step_cfg {n : Net} {tr : List (Side × Event Empty)}
    (h : Paired P reports n.a n.b (eventsAt .a tr) (eventsAt .b tr)) (i : Side × Env × Action) :
    (n.step depth i).1.a.link.cfg = n.a.link.cfg ∧ (n.step depth i).1.b.link.cfg = n.b.link.cfg := by
  obtain ⟨side, env, action⟩ := i
  cases side with
  | a => exact Node.act_cfg depth env (Paired.linkInv hP h) action
  | b => exact (Node.act_cfg depth env (Paired.linkInv hP h.symm) action).symm

end Actions

end Kept

/-- Two initialised links and nothing on its way. -/
def Net.init (cfgA cfgB : Config) : Net where
  a := { link := IsoTp.init cfgA, inbox := [] }
  b := { link := IsoTp.init cfgB, inbox := [] }

end MiniEcu.IsoTp
