import MiniEcu.Diag.Calls
import MiniEcu.Diag.Turns
import MiniEcu.IsoTp.Applications
import MiniEcu.IsoTp.TwoLinks

/-!
# The diagnostics on a bus with a tester

The link of a tester at one end and the diagnostics of the Control ECU at the other. Both are called
at any time, the ECU reports faults and gets frames on other identifiers, and the channels between the
two lose nothing and keep the order. As long as no timer expires the requests and the responses pass
through the two links as if there were none, and to a tester that waits for the bus to be at rest a
restart of the ECU makes no difference.
-/

namespace MiniEcu.Diag

open IsoTp (Action Config Coupled Env Event Frame Midway Mirrors Node Outcome World below deliveries
  nested react records sentFrames submissions)
open Trace

/-! ### The bus -/

/-- The tester's link and the ECU, with the frames on their way to each. -/
structure Bus where
  tester : Node
  diag : State
  inbox : List Frame

/-- What can happen at the ECU. -/
inductive EcuInput
  | deliver
  | other (frame : CanFrame) (hid : frame.id ≠ canIdUdsReqControl)
  | mainFunction
  | reportFault (index : UInt8) (failed : Bool)

inductive BusOp
  | tester (env : Env) (action : Action)
  | ecu (env : Env) (signals : Signals) (input : EcuInput)

abbrev BusEvent := Event Empty ⊕ Event Record

/-- The call, and the frames that are then still on their way. -/
def EcuInput.take (inbox : List Frame) : EcuInput → Option (Input × List Frame)
  | .deliver =>
      match inbox with
      | [] => none
      | frame :: rest => some (.onFrame (.full canIdUdsReqControl frame), rest)
  | .other frame _ => some (.onFrame frame, inbox)
  | .mainFunction => some (.mainFunction, inbox)
  | .reportFault index failed => some (.reportFault index failed, inbox)

namespace Bus

/-- The ECU as one end of the network. -/
def node (n : Bus) : Node := { link := n.diag.link, inbox := n.inbox }

def step (n : Bus) : BusOp → Bus × List BusEvent
  | .tester env action =>
      let out := n.tester.act 0 env n.node action
      ({ n with tester := out.1.1, inbox := out.1.2.inbox }, out.2.map .inl)
  | .ecu env signals input =>
      match input.take n.inbox with
      | none => (n, [])
      | some (i, rest) =>
          let out := Diag.step n.diag ⟨env, signals, i⟩
          ({ tester := { n.tester with inbox := n.tester.inbox ++ sentFrames out.2 }
             diag := out.1
             inbox := rest }, out.2.map .inr)

/-- No timer expires, and what a link takes fits the other. -/
def Calm (n : Bus) : BusOp → Prop
  | .tester env .mainFunction => ¬ n.tester.link.Expires 0 env
  | .tester _ (.transmit m) => m.length ≤ diagBufferSize
  | .tester _ .deliver => True
  | .ecu env signals input =>
      ∀ taken ∈ input.take n.inbox,
        (taken.1 = .mainFunction → ¬ n.diag.link.Expires 0 env) ∧
          ∀ m ∈ submissions (perform n.diag ⟨env, signals, taken.1⟩).events,
            m.length ≤ n.tester.link.cfg.rxBufferSize

instance (n : Bus) : (op : BusOp) → Decidable (n.Calm op)
  | .tester env .mainFunction => inferInstanceAs (Decidable (¬ n.tester.link.Expires 0 env))
  | .tester _ (.transmit m) => inferInstanceAs (Decidable (m.length ≤ diagBufferSize))
  | .tester _ .deliver => inferInstanceAs (Decidable True)
  | .ecu env signals input =>
      inferInstanceAs (Decidable (∀ taken ∈ input.take n.inbox,
        (taken.1 = .mainFunction → ¬ n.diag.link.Expires 0 env) ∧
          ∀ m ∈ submissions (perform n.diag ⟨env, signals, taken.1⟩).events,
            m.length ≤ n.tester.link.cfg.rxBufferSize))

/-- The ECU does not restart. -/
def Running (n : Bus) : BusOp → Prop
  | .tester _ _ => True
  | .ecu env signals input =>
      ∀ taken ∈ input.take n.inbox,
        (perform n.diag ⟨env, signals, taken.1⟩).app.restart = false

instance (n : Bus) : (op : BusOp) → Decidable (n.Running op)
  | .tester _ _ => inferInstanceAs (Decidable True)
  | .ecu env signals input =>
      inferInstanceAs (Decidable (∀ taken ∈ input.take n.inbox,
        (perform n.diag ⟨env, signals, taken.1⟩).app.restart = false))

/-- The tester is initialised, the ECU has started, and nothing is on its way. -/
def init (cfg : Config) (time : Nat) : Bus where
  tester := { link := IsoTp.init cfg, inbox := [] }
  diag := boot time
  inbox := []

/-- Both links are idle, and nothing is on its way. -/
def AtRest (n : Bus) : Prop :=
  IsoTp.isTxBusy n.tester.link = false ∧ IsoTp.isTxBusy n.diag.link = false ∧
    n.tester.inbox = [] ∧ n.inbox = []

instance (n : Bus) : Decidable n.AtRest := inferInstanceAs (Decidable (_ ∧ _))

end Bus

def testerEvents (tr : List BusEvent) : List (Event Empty) := tr.filterMap Sum.getLeft?

def ecuEvents (tr : List BusEvent) : List (Event Record) := tr.filterMap Sum.getRight?

@[simp] theorem testerEvents_append (tr tr' : List BusEvent) :
    testerEvents (tr ++ tr') = testerEvents tr ++ testerEvents tr' := List.filterMap_append

@[simp] theorem ecuEvents_append (tr tr' : List BusEvent) :
    ecuEvents (tr ++ tr') = ecuEvents tr ++ ecuEvents tr' := List.filterMap_append

theorem events_tester (es : List (Event Empty)) :
    testerEvents (es.map .inl) = es ∧ ecuEvents (es.map .inl) = [] := by
  rw [testerEvents, ecuEvents, List.filterMap_map, List.filterMap_map]
  exact ⟨List.filterMap_some, List.filterMap_eq_nil_iff.mpr fun _ _ => rfl⟩

theorem events_ecu (es : List (Event Record)) :
    testerEvents (es.map .inr) = [] ∧ ecuEvents (es.map .inr) = es := by
  rw [testerEvents, ecuEvents, List.filterMap_map, List.filterMap_map]
  exact ⟨List.filterMap_eq_nil_iff.mpr fun _ _ => rfl, List.filterMap_some⟩

/-! ### Requests and responses -/

/-- The request, if it came through the link. -/
def Request.physical (r : Request) : Option Bytes := if r.functional then none else some r.bytes

namespace Entry

def physical : Entry → Option Bytes
  | .request r _ => r.physical
  | _ => none

/-- The response that the request has, if there is one. -/
def response : Entry → Option Bytes
  | .request _ response => if response = [] then none else some response
  | _ => none

/-- The request with its response. -/
def served : Entry → Option (Request × Bytes)
  | .request r response => some (r, response)
  | _ => none

/-- What the link is given. -/
def offered : Entry → Option Bytes
  | .transmit message _ => some message
  | _ => none

/-- What the link takes. -/
def passed : Entry → Option Bytes
  | .transmit message .ok => some message
  | _ => none

end Entry

theorem submissions_eq_passed (es : List (Event Record)) :
    submissions es = (transcript es).filterMap Entry.passed := by
  rw [submissions, transcript, List.filterMap_filterMap]
  refine List.filterMap_congr fun e _ => ?_
  cases e with
  | transmit m result => cases result <;> rfl
  | app record => cases record <;> rfl
  | _ => rfl

section Turns

variable {arrival : Option Request} {givesUp : Prop} {t t' : IsoTp.TxSide}
  {p p' : Option Uds.ResetType} {es : List Entry}

theorem filterMap_resets {κ : Type} (view : Entry → Option κ)
    (hview : ∀ type, view (.reset type) = none) (p : Option Uds.ResetType) :
    (resets p).filterMap view = [] := by
  cases p with
  | none => rfl
  | some type => exact List.filterMap_cons_none (hview type)

theorem Turn.offered (h : Turn arrival givesUp t p es t' p') :
    es.filterMap Entry.offered = es.filterMap Entry.response := by
  have hoffered := filterMap_resets Entry.offered fun _ => rfl
  have hresponse := filterMap_resets Entry.response fun _ => rfl
  cases h with
  | rejected _ _ _ hne => simp [List.filterMap_cons, Entry.offered, Entry.response, hne]
  | taken _ _ _ hne => simp [List.filterMap_cons, Entry.offered, Entry.response, hne]
  | answered _ _ _ hne =>
      simp [List.filterMap_cons, Entry.offered, Entry.response, hne, hoffered, hresponse]
  | confirmed => exact (hoffered p).trans (hresponse p).symm
  | _ => rfl

theorem Turn.physical (h : Turn arrival givesUp t p es t' p') :
    es.filterMap Entry.physical = (arrival.bind Request.physical).toList := by
  have hresets := filterMap_resets Entry.physical fun _ => rfl
  have hfirst : ∀ (r : Request) (response : Bytes) (rest : List Entry),
      rest.filterMap Entry.physical = [] →
      (.request r response :: rest).filterMap Entry.physical = r.physical.toList := by
    intro r response rest hrest
    rw [List.filterMap_cons, hrest, Entry.physical]
    cases r.physical <;> rfl
  cases h with
  | quiet harrival | aborted harrival =>
      rw [harrival]
      rfl
  | confirmed harrival =>
      rw [harrival]
      exact hresets p
  | unanswered harrival | rejected harrival | taken harrival =>
      rw [harrival]
      exact hfirst _ _ _ rfl
  | answered harrival =>
      rw [harrival]
      exact hfirst _ _ _ (hresets _)

theorem Turn.served (h : Turn arrival givesUp t p es t' p') :
    (arrival = none → es.filterMap Entry.served = [] ∧ es.filterMap Entry.response = []) ∧
      ∀ r, arrival = some r → ∃ response, es.filterMap Entry.served = [(r, response)] ∧
        es.filterMap Entry.response = if response = [] then [] else [response] := by
  have hserved := filterMap_resets Entry.served fun _ => rfl
  have hresponse := filterMap_resets Entry.response fun _ => rfl
  cases h with
  | quiet harrival | aborted harrival =>
      rw [harrival]
      exact ⟨fun _ => ⟨rfl, rfl⟩, nofun⟩
  | confirmed harrival =>
      rw [harrival]
      exact ⟨fun _ => ⟨hserved p, hresponse p⟩, nofun⟩
  | @unanswered _ r harrival =>
      rw [harrival]
      refine ⟨nofun, fun r' hr' => ?_⟩
      cases hr'
      exact ⟨[], rfl, rfl⟩
  | @rejected _ r response harrival _ _ hne | @taken _ r response harrival _ _ hne =>
      rw [harrival]
      refine ⟨nofun, fun r' hr' => ?_⟩
      cases hr'
      exact ⟨response, rfl, by simp [List.filterMap_cons, Entry.response, hne]⟩
  | @answered _ r response harrival _ _ hne =>
      rw [harrival]
      refine ⟨nofun, fun r' hr' => ?_⟩
      cases hr'
      refine ⟨response, ?_, ?_⟩
      · simp [List.filterMap_cons, Entry.served, hserved]
      · simp [List.filterMap_cons, Entry.response, hne, hresponse]

theorem Turn.passed (h : Turn arrival givesUp t p es t' p')
    (hidle : arrival ≠ none → t.txState = .idle) :
    es.filterMap Entry.passed = es.filterMap Entry.response := by
  have hpassed := filterMap_resets Entry.passed fun _ => rfl
  have hresponse := filterMap_resets Entry.response fun _ => rfl
  cases h with
  | rejected harrival _ _ _ hbusy =>
      exact absurd (hidle (by rw [harrival]; simp)) hbusy
  | taken _ _ _ hne => simp [List.filterMap_cons, Entry.passed, Entry.response, hne]
  | answered _ _ _ hne =>
      simp [List.filterMap_cons, Entry.passed, Entry.response, hne, hpassed, hresponse]
  | confirmed => exact (hpassed p).trans (hresponse p).symm
  | _ => rfl

/-- Only a request makes the link busy. -/
theorem Turn.busy (h : Turn arrival givesUp t p es t' p') (harrival : arrival = none)
    (hbusy : t'.txState ≠ .idle) : t.txState ≠ .idle := by
  cases h with
  | quiet _ _ htx => exact fun hidle => hbusy (htx.1.mpr hidle)
  | aborted _ _ _ _ hidle => exact absurd hidle hbusy
  | confirmed _ _ _ hidle => exact absurd hidle hbusy
  | unanswered h | rejected h | taken h | answered h => cases harrival.symm.trans h

end Turns

/-! ### A call of the diagnostics -/

section Calls

variable (signals : Signals) (s : State) (env : Env)

/-- What a frame makes of the diagnostics. It passes a request at most. -/
inductive Receives (frame : CanFrame) : Prop
  | physical (hid : frame.id = canIdUdsReqControl)
      (hperform : perform s ⟨env, signals, .onFrame frame⟩ =
        IsoTp.rxFrame (diagApp signals) (nested (diagApp signals) 0) frame.data frame.dlc
          { link := s.link, app := s.ecu, env := env })
      (harrival : s.arrival ⟨env, signals, .onFrame frame⟩ =
        (IsoTp.completed s.link frame.data frame.dlc).map fun req =>
          { session := s.ecu.server.session, bytes := req, functional := false })
  | functional (req : Bytes) (hid : frame.id = canIdUdsFunctional)
      (hperform : perform s ⟨env, signals, .onFrame frame⟩ =
        react (nested (diagApp signals) 0)
          (respondTo signals (fun k => env.clock (0 + k)) req true s.ecu)
          { link := s.link, app := s.ecu, env := env })
      (harrival : s.arrival ⟨env, signals, .onFrame frame⟩ =
        some { session := s.ecu.server.session, bytes := req, functional := true })
  | ignored
      (hperform : perform s ⟨env, signals, .onFrame frame⟩ =
        { link := s.link, app := s.ecu, env := env })
      (harrival : s.arrival ⟨env, signals, .onFrame frame⟩ = none)

theorem receives (frame : CanFrame) : Receives signals s env frame := by
  by_cases hphysical : frame.id = canIdUdsReqControl
  · exact .physical hphysical (if_pos hphysical) (if_pos hphysical)
  by_cases hfunctional : frame.id = canIdUdsFunctional
  · have hperform : perform s ⟨env, signals, .onFrame frame⟩ = _ :=
      (if_neg hphysical).trans (if_pos hfunctional)
    have harrival : s.arrival ⟨env, signals, .onFrame frame⟩ = _ :=
      (if_neg hphysical).trans (if_pos hfunctional)
    cases hrequest : functionalRequest frame with
    | none =>
        rw [hrequest] at hperform harrival
        exact .ignored hperform harrival
    | some req =>
        rw [hrequest] at hperform harrival
        exact .functional req hfunctional hperform harrival
  · exact .ignored ((if_neg hphysical).trans (if_neg hfunctional))
      ((if_neg hphysical).trans (if_neg hfunctional))

theorem rest_udsMainFunction (w : World Ecu Record) :
    deliveries (if w.app.restart then w else udsMainFunction w).events = deliveries w.events ∧
      submissions (if w.app.restart then w else udsMainFunction w).events = submissions w.events ∧
      (if w.app.restart then w else udsMainFunction w).link = w.link ∧
      (if w.app.restart then w else udsMainFunction w).app.restart = w.app.restart := by
  rw [udsMainFunction]
  split
  · exact ⟨rfl, rfl, rfl, rfl⟩
  split
  · exact ⟨rfl, rfl, rfl, rfl⟩
  · rw [World.events_tick, IsoTp.deliveries_append, IsoTp.submissions_append]
    exact ⟨List.append_nil _, List.append_nil _, rfl, rfl⟩

/-- What the link delivers is a request that came through it. It keeps its configuration. -/
theorem link_perform (i : Stimulus) :
    deliveries (perform s i).events = ((s.arrival i).bind Request.physical).toList ∧
      (perform s i).link.cfg = s.link.cfg := by
  obtain ⟨env, signals, input⟩ := i
  cases input with
  | onFrame frame =>
      cases receives signals s env frame with
      | physical _ hperform harrival =>
          obtain ⟨o, hreports, hmirrors⟩ := IsoTp.mirrors_rxFrame (diagApp signals)
            (nested (diagApp signals) 0) (fun _ v => v) s.ecu [] (attentive_diagApp signals)
            frame.data frame.dlc { link := s.link, app := (), env := env }
          have hdelivered := hmirrors.deliveries (attentive_diagApp signals) rfl
          rw [hreports.message] at hdelivered
          rw [hperform, harrival]
          refine ⟨hdelivered.trans ?_, hmirrors.cfg (attentive_diagApp signals)⟩
          show (IsoTp.completed s.link frame.data frame.dlc).toList = _
          cases IsoTp.completed s.link frame.data frame.dlc <;> rfl
      | functional req _ hperform harrival =>
          rw [hperform, harrival]
          exact ⟨IsoTp.deliveries_react (attentive_diagApp signals) _ _,
            IsoTp.cfg_react (attentive_diagApp signals) _ _⟩
      | ignored hperform harrival =>
          rw [hperform, harrival]
          exact ⟨rfl, rfl⟩
  | mainFunction =>
      obtain ⟨o, hreports, hmirrors⟩ := IsoTp.mirrors_mainFunction (diagApp signals)
        (nested (diagApp signals) 0) (fun _ v => v) s.ecu [] (attentive_diagApp signals) s.link env
      have hdelivered := hmirrors.deliveries (attentive_diagApp signals) rfl
      rw [hreports.message] at hdelivered
      obtain ⟨hevents, -, hlink, -⟩ := rest_udsMainFunction (IsoTp.mainFunction (diagApp signals)
        (nested (diagApp signals) 0) { link := s.link, app := s.ecu, env := env })
      exact ⟨hevents.trans hdelivered,
        (congrArg IsoTp.Link.cfg hlink).trans (hmirrors.cfg (attentive_diagApp signals))⟩
  | reportFault index failed => exact ⟨rfl, rfl⟩

theorem table_perform (i : Stimulus) : (perform s i).app.dtc.table = s.ecu.dtc.table := by
  rw [dtc_perform, Dtc.Manager.table_replay]

theorem answered_perform {s : State} {i : Stimulus} (hsized : s.ecu.respBuf.length = diagBufferSize)
    (htable : s.ecu.dtc.table = dtcTable) {r : Request} {response : Bytes}
    (hr : .request r response ∈ transcript (perform s i).events) (hreq : r.bytes ≠ []) :
    ∃ dtc : Dtc.Manager, dtc.table = dtcTable ∧ Answer i.signals dtc r response := by
  have hrecord : .request r response ∈ records (perform s i).events := by
    obtain ⟨e, he, hentry⟩ := List.mem_filterMap.mp hr
    refine List.mem_filterMap.mpr ⟨e, he, ?_⟩
    cases e with
    | app record =>
        cases record with
        | request r response =>
            cases hentry
            rfl
        | ecuReset type => cases hentry
    | _ => cases hentry
  by_cases hinput : i.input.dtcOps = []
  · obtain ⟨a, hsteps, -⟩ := reacts_perform s hinput
    have hmax : s.ecu.dtc.table.length ≤ Dtc.maxEntries := by
      rw [htable]
      decide
    obtain ⟨before, after, hsplit⟩ := List.append_of_mem hrecord
    refine ⟨_, ?_, (answered_steps hsized hmax hsteps).1 before _ after hsplit hreq⟩
    rw [foldl_follow, Dtc.Manager.table_replay, htable]
  · obtain ⟨env, signals, input⟩ := i
    cases input with
    | reportFault index failed => cases hrecord
    | _ => exact absurd rfl hinput

/-! #### A restart -/

/-- The firmware restarts in a confirmation only, and then the link is idle. -/
theorem idle_nested {m : Bytes} {w : World Ecu Record} (hw : w.app.restart = false)
    (h : (nested (diagApp signals) 0 m w).app.restart = true) :
    (nested (diagApp signals) 0 m w).link.tx.txState = .idle := by
  by_cases htaken : IsoTp.transmitResult w.link m = .ok
  · obtain ⟨o, hsends, hperforms, hout⟩ := IsoTp.transmitWith_taken (diagApp signals)
      (fun _ w => w) (fun _ v => v) (attentive_diagApp signals) htaken
    rw [show nested (diagApp signals) 0 m w = _ from hout] at h ⊢
    obtain rfl | rfl := hsends
    · exact absurd (hw.symm.trans h) Bool.false_ne_true
    · exact hperforms.tx.2
  · have hrejected := IsoTp.transmitWith_rejected (diagApp signals) (fun _ w => w) htaken
    rw [show nested (diagApp signals) 0 m w = _ from congrArg Prod.snd hrejected] at h
    exact absurd h (by simp [hw])

theorem idle_react {r : IsoTp.Reaction Ecu Record} {w : World Ecu Record}
    (hr : r.app.restart = false) (hsends : r.sends.length ≤ 1)
    (h : (react (nested (diagApp signals) 0) r w).app.restart = true) :
    (react (nested (diagApp signals) 0) r w).link.tx.txState = .idle := by
  rw [react] at h ⊢
  cases hcases : r.sends with
  | nil =>
      rw [hcases] at h
      exact absurd (hr.symm.trans h) Bool.false_ne_true
  | cons m ms =>
      rw [hcases] at h hsends
      obtain rfl : ms = [] := List.length_eq_zero_iff.mp (by simpa using hsends)
      exact idle_nested signals hr h

theorem sends_respondTo (clock : Nat → Nat) (req : Bytes) (functional : Bool) (a : Ecu) :
    (respondTo signals clock req functional a).sends.length ≤ 1 := by
  rw [respondTo]
  show (if _ then [_] else []).length ≤ 1
  split <;> simp

theorem rxIndication_diagApp (clock : Nat → Nat) (data : Bytes) (a : Ecu) :
    (diagApp signals).rxIndication clock data .ok a = respondTo signals clock data false a := by
  show onEcuRequest signals clock data .ok a = _
  rw [onEcuRequest, if_pos rfl]

theorem idle_complete {a : Ecu} {u v' : World Unit Empty} {o : Outcome} {w' : World Ecu Record}
    (ha : a.restart = false)
    (hmirrors : Mirrors (diagApp signals) (nested (diagApp signals) 0) u a [] o v' w')
    (h : w'.app.restart = true) : w'.link.tx.txState = .idle := by
  obtain ⟨hperforms, rfl⟩ := hmirrors
  cases o with
  | none => exact absurd (ha.symm.trans h) Bool.false_ne_true
  | confirmed result => exact hperforms.tx.2
  | received data =>
      refine idle_react signals ?_ ?_ h
      · rw [rxIndication_diagApp]
        exact ha
      · rw [rxIndication_diagApp]
        exact sends_respondTo signals _ _ _ _

theorem busy_of_complete {a : Ecu} {u v' : World Unit Empty} {o : Outcome} {w' : World Ecu Record}
    (ha : a.restart = false)
    (hmirrors : Mirrors (diagApp signals) (nested (diagApp signals) 0) u a [] o v' w')
    (ho : o.message = none) (h : w'.app.restart = true) : u.link.tx.txState ≠ .idle := by
  obtain ⟨hperforms, rfl⟩ := hmirrors
  cases o with
  | none => exact absurd (ha.symm.trans h) Bool.false_ne_true
  | confirmed result => exact hperforms.tx.1
  | received data => cases ho

/-- A call that restarts the firmware leaves the link idle, and without a request it finds it busy. -/
theorem idle_of_restart {s : State} {i : Stimulus} (hs : s.ecu.restart = false)
    (h : (perform s i).app.restart = true) : (perform s i).link.tx.txState = .idle ∧
      (s.arrival i = none → s.link.tx.txState ≠ .idle) := by
  obtain ⟨env, signals, input⟩ := i
  cases input with
  | onFrame frame =>
      cases receives signals s env frame with
      | physical _ hperform harrival =>
          obtain ⟨o, hreports, hmirrors⟩ := IsoTp.mirrors_rxFrame (diagApp signals)
            (nested (diagApp signals) 0) (fun _ v => v) s.ecu [] (attentive_diagApp signals)
            frame.data frame.dlc { link := s.link, app := (), env := env }
          rw [hperform] at h ⊢
          rw [harrival, Option.map_eq_none_iff]
          refine ⟨idle_complete signals hs hmirrors h, fun hnone => ?_⟩
          exact busy_of_complete signals hs hmirrors (hreports.message.trans hnone) h
      | functional req _ hperform harrival =>
          rw [hperform] at h ⊢
          rw [harrival]
          exact ⟨idle_react signals hs (sends_respondTo signals _ _ _ _) h, nofun⟩
      | ignored hperform _ =>
          rw [hperform] at h
          exact absurd (hs.symm.trans h) Bool.false_ne_true
  | mainFunction =>
      obtain ⟨o, hreports, hmirrors⟩ := IsoTp.mirrors_mainFunction (diagApp signals)
        (nested (diagApp signals) 0) (fun _ v => v) s.ecu [] (attentive_diagApp signals) s.link env
      obtain ⟨-, -, hlink, hrestart⟩ := rest_udsMainFunction (IsoTp.mainFunction (diagApp signals)
        (nested (diagApp signals) 0) { link := s.link, app := s.ecu, env := env })
      have hidle := idle_complete signals hs hmirrors (hrestart.symm.trans h)
      refine ⟨(congrArg (fun l : IsoTp.Link => l.tx.txState) hlink).trans hidle, fun _ => ?_⟩
      exact busy_of_complete signals hs hmirrors hreports.message (hrestart.symm.trans h)
  | reportFault index failed => exact absurd (hs.symm.trans h) Bool.false_ne_true

/-! #### At the end of a network -/

variable {s} {tester : Node} {inbox rest : List Frame} {ex ey : List (Event Empty)}
  (h : IsoTp.Paired IsoTp.Agrees Event.Fine { link := s.link, inbox := inbox } tester ex ey)
include h

theorem midway_silent {frame : Frame} (hinbox : inbox = frame :: rest) :
    Midway IsoTp.Agrees Event.Fine ex rest tester ey
      (IsoTp.rxFrame IsoTp.silent (nested IsoTp.silent 0) frame 8
        { link := s.link, app := (), env := env }) := by
  by_cases htype : frame.pciType = 3
  · exact IsoTp.Paired.arrive IsoTp.kept_agrees 0 env h hinbox htype
  · exact IsoTp.Paired.read IsoTp.kept_agrees 0 env h hinbox htype

theorem midway_deliver {frame : Frame} (hinbox : inbox = frame :: rest)
    (hfits : ∀ m ∈ submissions
      (perform s ⟨env, signals, .onFrame (.full canIdUdsReqControl frame)⟩).events,
        m.length ≤ tester.link.cfg.rxBufferSize) :
    Midway IsoTp.Agrees Event.Fine ex rest tester ey
      (perform s ⟨env, signals, .onFrame (.full canIdUdsReqControl frame)⟩).below :=
  IsoTp.midway_rxFrame (attentive_diagApp signals) IsoTp.kept_agrees env s.ecu h hinbox hfits

theorem midway_other {frame : CanFrame} (hid : frame.id ≠ canIdUdsReqControl)
    (hfits : ∀ m ∈ submissions (perform s ⟨env, signals, .onFrame frame⟩).events,
      m.length ≤ tester.link.cfg.rxBufferSize) :
    Midway IsoTp.Agrees Event.Fine ex inbox tester ey
      (perform s ⟨env, signals, .onFrame frame⟩).below := by
  have hstart : Midway IsoTp.Agrees Event.Fine ex inbox tester ey
      ({ link := s.link, app := s.ecu, env := env } : World Ecu Record).below := h.midway env
  have hperform : perform s ⟨env, signals, .onFrame frame⟩ = _ := if_neg hid
  rw [hperform] at hfits ⊢
  split at hfits
  · rename_i hfunctional
    rw [if_pos hfunctional]
    cases hrequest : functionalRequest frame with
    | none => exact hstart
    | some req =>
        rw [hrequest] at hfits
        exact Midway.react (attentive_diagApp signals) IsoTp.kept_agrees hstart hfits
  · rename_i hforeign
    rw [if_neg hforeign]
    exact hstart

omit h in
theorem midway_udsMainFunction {w : World Ecu Record}
    (hw : Midway IsoTp.Agrees Event.Fine ex inbox tester ey w.below) :
    Midway IsoTp.Agrees Event.Fine ex inbox tester ey
      (if w.app.restart then w else udsMainFunction w).below := by
  rw [udsMainFunction]
  split
  · exact hw
  split
  · exact hw
  · refine Midway.noted IsoTp.kept_agrees hw rfl (IsoTp.below_append _ _) ?_ rfl
    simp [below, Event.below, Event.Outgoing]

theorem midway_mainFunction (htimely : ¬ s.link.Expires 0 env)
    (hfits : ∀ m ∈ submissions (perform s ⟨env, signals, .mainFunction⟩).events,
      m.length ≤ tester.link.cfg.rxBufferSize) :
    Midway IsoTp.Agrees Event.Fine ex inbox tester ey
      (perform s ⟨env, signals, .mainFunction⟩).below := by
  obtain ⟨-, hsubmissions, -⟩ := rest_udsMainFunction (IsoTp.mainFunction (diagApp signals)
    (nested (diagApp signals) 0) { link := s.link, app := s.ecu, env := env })
  refine midway_udsMainFunction (IsoTp.midway_mainFunction (attentive_diagApp signals)
    IsoTp.kept_agrees env s.ecu h htimely ?_)
  rw [← hsubmissions]
  exact hfits

/-- Every call of the ECU in which no timer expires and no response is too long. -/
theorem midway_take {input : EcuInput} {i : Input} (htake : input.take inbox = some (i, rest))
    (htimely : i = .mainFunction → ¬ s.link.Expires 0 env)
    (hfits : ∀ m ∈ submissions (perform s ⟨env, signals, i⟩).events,
      m.length ≤ tester.link.cfg.rxBufferSize) :
    Midway IsoTp.Agrees Event.Fine ex rest tester ey (perform s ⟨env, signals, i⟩).below := by
  cases input with
  | deliver =>
      cases inbox with
      | nil => cases htake
      | cons frame inbox =>
          cases htake
          exact midway_deliver signals env h rfl hfits
  | other frame hid =>
      cases htake
      exact midway_other signals env h hid hfits
  | mainFunction =>
      cases htake
      exact midway_mainFunction signals env h (htimely rfl) hfits
  | reportFault index failed =>
      cases htake
      exact h.midway env

end Calls

/-! ### Runs -/

/-- The transcript of the ECU. -/
abbrev ecuTranscript (tr : List BusEvent) : List Entry := transcript (ecuEvents tr)

/-- What holds between two steps. -/
structure Bus.Linked (cfg : Config) (n : Bus) (tr : List BusEvent) : Prop where
  coupled : Coupled n.tester n.node (testerEvents tr) (below (ecuEvents tr))
  tester : n.tester.link.cfg = (IsoTp.init cfg).cfg
  diag : n.diag.link.cfg = (IsoTp.init linkConfig).cfg
  ready : n.diag.Ready
  served : deliveries (ecuEvents tr) = (ecuTranscript tr).filterMap Entry.physical
  offered : (ecuTranscript tr).filterMap Entry.offered =
    (ecuTranscript tr).filterMap Entry.response
  table : n.diag.ecu.dtc.table = dtcTable
  answered : ∀ r response, .request r response ∈ ecuTranscript tr → r.bytes ≠ [] →
    ∃ signals, ∃ dtc : Dtc.Manager, dtc.table = dtcTable ∧ Answer signals dtc r response

namespace Bus

variable {cfg : Config} {n : Bus} {tr : List BusEvent}

theorem linked_init (cfg : Config) (time : Nat) : (init cfg time).Linked cfg [] where
  coupled := ⟨IsoTp.agrees_init cfg linkConfig, IsoTp.agrees_init linkConfig cfg, nofun, nofun⟩
  tester := rfl
  diag := rfl
  ready := ready_boot time
  served := rfl
  offered := rfl
  table := rfl
  answered := nofun

theorem act_other (env : Env) (x y : Node) (action : Action) :
    (x.act 0 env y action).1.2.link = y.link := by
  cases action with
  | transmit m => rfl
  | mainFunction => rfl
  | deliver =>
      cases hinbox : x.inbox with
      | nil => rw [IsoTp.Node.act_nil 0 env hinbox]
      | cons f rest =>
          rw [IsoTp.Node.act_cons 0 env hinbox]
          rfl

theorem Linked.tester_moved (h : n.Linked cfg tr) {x : Node} {inbox : List Frame}
    {es : List (Event Empty)}
    (hcoupled : Coupled x { link := n.diag.link, inbox := inbox } (testerEvents tr ++ es)
      (below (ecuEvents tr)))
    (hcfg : x.link.cfg = n.tester.link.cfg) :
    Bus.Linked cfg { tester := x, diag := n.diag, inbox := inbox } (tr ++ es.map .inl) := by
  obtain ⟨hown, hother⟩ := events_tester es
  have hevents : ecuEvents (tr ++ es.map .inl) = ecuEvents tr := by
    rw [ecuEvents_append, hother, List.append_nil]
  refine ⟨?_, hcfg.trans h.tester, h.diag, h.ready, ?_, ?_, h.table, ?_⟩
  · rw [hevents, testerEvents_append, hown]
    exact hcoupled
  · rw [ecuTranscript, hevents]
    exact h.served
  · rw [ecuTranscript, hevents]
    exact h.offered
  · rw [ecuTranscript, hevents]
    exact h.answered

/-- The tester acts. -/
theorem Linked.tester_step (h : n.Linked cfg tr) {env : Env} {action : Action}
    (hcalm : n.Calm (.tester env action)) :
    (n.step (.tester env action)).1.Linked cfg (tr ++ (n.step (.tester env action)).2) := by
  have hcoupled : Coupled (n.tester.act 0 env n.node action).1.1
      (n.tester.act 0 env n.node action).1.2
      (testerEvents tr ++ (n.tester.act 0 env n.node action).2) (below (ecuEvents tr)) := by
    cases action with
    | transmit m =>
        refine IsoTp.Paired.transmit IsoTp.kept_agrees 0 env h.coupled m fun _ => ?_
        have hsize : (IsoTp.init linkConfig).cfg.rxBufferSize = diagBufferSize :=
          List.length_replicate
        show m.length ≤ n.diag.link.cfg.rxBufferSize
        rw [h.diag, hsize]
        exact hcalm
    | mainFunction => exact IsoTp.Paired.mainFunction IsoTp.kept_agrees 0 env h.coupled hcalm
    | deliver =>
        cases hinbox : n.tester.inbox with
        | nil =>
            rw [IsoTp.Node.act_nil 0 env hinbox, List.append_nil]
            exact h.coupled
        | cons f rest =>
            rw [IsoTp.Node.act_cons 0 env hinbox]
            by_cases htype : f.pciType = 3
            · exact IsoTp.Paired.arrive IsoTp.kept_agrees 0 env h.coupled hinbox htype
            · exact IsoTp.Paired.read IsoTp.kept_agrees 0 env h.coupled hinbox htype
  refine h.tester_moved ?_
    (IsoTp.Node.act_cfg 0 env (IsoTp.Paired.linkInv IsoTp.kept_agrees h.coupled) action).1
  have hlink := act_other env n.tester n.node action
  rw [show n.diag.link = _ from hlink.symm]
  exact hcoupled

theorem Linked.performed (h : n.Linked cfg tr) {env : Env} {signals : Signals} {input : EcuInput}
    {i : Input} {rest : List Frame} (htake : input.take n.inbox = some (i, rest))
    (hcalm : n.Calm (.ecu env signals input)) :
    let w := perform n.diag ⟨env, signals, i⟩
    Coupled { link := w.link, inbox := rest }
      { n.tester with inbox := n.tester.inbox ++ sentFrames w.events }
      (below (ecuEvents tr ++ w.events)) (testerEvents tr) := by
  intro w
  obtain ⟨htimely, hfits⟩ := hcalm (i, rest) htake
  have hnew : Coupled { link := w.link, inbox := rest }
      { n.tester with inbox := n.tester.inbox ++ sentFrames (below w.events) }
      (below (ecuEvents tr) ++ below w.events) (testerEvents tr) :=
    midway_take signals env h.coupled.symm htake htimely hfits
  rw [IsoTp.sentFrames_below] at hnew
  rw [IsoTp.below_append]
  exact hnew

/-- After a restart the link of the ECU is as good as the one before, if no request is missing. -/
theorem coupled_boot {link : IsoTp.Link} {inbox : List Frame} {y : Node}
    {ex ey : List (Event Empty)} (h : Coupled { link, inbox } y ex ey)
    (hcfg : link.cfg = (IsoTp.init linkConfig).cfg) (hidle : link.tx.txState = .idle)
    (hall : deliveries ex = submissions ey) (time : Nat) :
    Coupled { link := (boot time).link, inbox } y ex ey := by
  obtain ⟨cfg, tx, rx⟩ := link
  obtain rfl : cfg = (IsoTp.init linkConfig).cfg := hcfg
  obtain ⟨-, hfree, hnot⟩ := h.back.at_rest hall
  have hinv := IsoTp.linkInv_init linkConfig
  refine ⟨?_, ?_, h.here, h.there⟩
  · exact h.forth.resume hidle hinv.tx rfl
  · exact h.back.relisten hfree hnot hinv.rx rfl rfl

/-- The ECU acts. It may restart once no request is missing. -/
theorem Linked.ecu_step (h : n.Linked cfg tr) {env : Env} {signals : Signals} {input : EcuInput}
    (hcalm : n.Calm (.ecu env signals input))
    (hrestart : ∀ taken ∈ input.take n.inbox,
      (perform n.diag ⟨env, signals, taken.1⟩).app.restart = true →
        deliveries (ecuEvents tr ++ (perform n.diag ⟨env, signals, taken.1⟩).events) =
          submissions (testerEvents tr)) :
    (n.step (.ecu env signals input)).1.Linked cfg
      (tr ++ (n.step (.ecu env signals input)).2) := by
  have hperformed := @Linked.performed cfg n tr h env signals input
  rw [step]
  cases htake : input.take n.inbox with
  | none =>
      rw [List.append_nil]
      exact h
  | some taken =>
      obtain ⟨i, rest⟩ := taken
      have hrestart := hrestart (i, rest) htake
      have hcoupled := hperformed htake hcalm
      obtain ⟨hother, hown⟩ := events_ecu (Diag.step n.diag ⟨env, signals, i⟩).2
      obtain ⟨hready, hturn⟩ := turn_step h.ready ⟨env, signals, i⟩
      obtain ⟨hdelivered, hcfg⟩ := link_perform n.diag ⟨env, signals, i⟩
      have hleft : Coupled { link := (Diag.step n.diag ⟨env, signals, i⟩).1.link, inbox := rest }
          { n.tester with
            inbox := n.tester.inbox ++ sentFrames (perform n.diag ⟨env, signals, i⟩).events }
          (below (ecuEvents tr ++ (perform n.diag ⟨env, signals, i⟩).events)) (testerEvents tr) ∧
          (Diag.step n.diag ⟨env, signals, i⟩).1.link.cfg = (IsoTp.init linkConfig).cfg ∧
          (Diag.step n.diag ⟨env, signals, i⟩).1.ecu.dtc.table = dtcTable := by
        rw [Diag.step, leave]
        split
        · rename_i hrestarts
          have hidle := (idle_of_restart h.ready.running hrestarts).1
          have hall := hrestart hrestarts
          rw [← IsoTp.deliveries_below] at hall
          exact ⟨coupled_boot hcoupled (hcfg.trans h.diag) hidle hall _, rfl, rfl⟩
        · exact ⟨hcoupled, hcfg.trans h.diag, (table_perform n.diag ⟨env, signals, i⟩).trans h.table⟩
      obtain ⟨hcoupled', hcfg', htable⟩ := hleft
      simp only []
      refine ⟨?_, h.tester, hcfg', hready, ?_, ?_, htable, ?_⟩
      · rw [testerEvents_append, ecuEvents_append, hown, hother, List.append_nil]
        exact hcoupled'.symm
      · rw [ecuTranscript, ecuEvents_append, hown, IsoTp.deliveries_append, transcript_append,
          List.filterMap_append, h.served, hturn.physical]
        exact congrArg _ hdelivered
      · rw [ecuTranscript, ecuEvents_append, hown, transcript_append, List.filterMap_append,
          List.filterMap_append, h.offered, hturn.offered]
      · intro r response hr hreq
        rw [ecuTranscript, ecuEvents_append, hown, transcript_append] at hr
        obtain hpast | hnow := List.mem_append.mp hr
        · exact h.answered r response hpast hreq
        · obtain ⟨dtc, hdtc, hanswer⟩ := answered_perform h.ready.respBuf h.table hnow hreq
          exact ⟨signals, dtc, hdtc, hanswer⟩

theorem linked_run (time : Nat) (ops : List BusOp)
    (hcalm : Along step Calm (init cfg time) ops)
    (hrunning : Along step Running (init cfg time) ops) :
    (run step (init cfg time) ops).1.Linked cfg (run step (init cfg time) ops).2 := by
  refine run_invariant_of (fun (n : Bus) (tr : List BusEvent) => n.Linked cfg tr)
    (fun (n : Bus) (op : BusOp) => n.Calm op ∧ n.Running op) ?_ [] (linked_init cfg time) ops
    (along_and hcalm hrunning)
  intro n tr op h hop
  cases op with
  | tester env action => exact h.tester_step hop.1
  | ecu env signals input =>
      refine h.ecu_step hop.1 fun taken htake hrestart => ?_
      exact absurd ((hop.2 taken htake).symm.trans hrestart) Bool.false_ne_true

theorem Linked.delivered (h : n.Linked cfg tr) (hrest : n.AtRest) :
    deliveries (ecuEvents tr) = submissions (testerEvents tr) ∧
      deliveries (testerEvents tr) = submissions (ecuEvents tr) := by
  obtain ⟨hidle, hidle', hempty, hempty'⟩ := hrest
  have htester : n.tester.link.tx.txState = .idle := by simpa [IsoTp.isTxBusy] using hidle
  have hdiag : n.diag.link.tx.txState = .idle := by simpa [IsoTp.isTxBusy] using hidle'
  have hforth := h.coupled.forth.delivered_eq htester
    (show IsoTp.dataFrames n.inbox = [] by rw [hempty']; rfl)
  have hback := h.coupled.back.delivered_eq hdiag
    (show IsoTp.dataFrames n.tester.inbox = [] by rw [hempty]; rfl)
  rw [← IsoTp.deliveries_below (ecuEvents tr), ← IsoTp.submissions_below (ecuEvents tr)]
  exact ⟨hforth, hback⟩

end Bus

/-- **Requests and responses over the bus.** In every run in which no timer expires, what a link takes
fits the other and the ECU does not restart, the requests that the server answers through the link are
the first of those that the tester's link has taken, in their order. Every response is given to the
ECU's link, and what the tester gets are the first of those that this has taken. Nothing else is
reported to either; and at rest no request and no response is missing. -/
theorem exchanged_over_bus (cfg : Config) (time : Nat) (ops : List BusOp)
    (hcalm : Along Bus.step Bus.Calm (.init cfg time) ops)
    (hrunning : Along Bus.step Bus.Running (.init cfg time) ops) :
    let n := (run Bus.step (.init cfg time) ops).1
    let tr := (run Bus.step (.init cfg time) ops).2
    let log := ecuTranscript tr
    log.filterMap Entry.physical <+: submissions (testerEvents tr) ∧
      deliveries (testerEvents tr) <+: log.filterMap Entry.passed ∧
      log.filterMap Entry.offered = log.filterMap Entry.response ∧
      (∀ r response, .request r response ∈ log → r.bytes ≠ [] →
        ∃ signals, ∃ dtc : Dtc.Manager, dtc.table = dtcTable ∧ Answer signals dtc r response) ∧
      (∀ e ∈ testerEvents tr, e.Fine) ∧ (∀ e ∈ below (ecuEvents tr), e.Fine) ∧
      (n.AtRest → log.filterMap Entry.physical = submissions (testerEvents tr) ∧
        deliveries (testerEvents tr) = log.filterMap Entry.passed) := by
  intro n tr log
  have h : n.Linked cfg tr := Bus.linked_run time ops hcalm hrunning
  have hforth := h.coupled.forth.delivered_prefix
  have hback := h.coupled.back.delivered_prefix
  refine ⟨?_, ?_, h.offered, h.answered, h.coupled.here, h.coupled.there, fun hrest => ?_⟩
  · rw [← h.served, ← IsoTp.deliveries_below]
    exact hforth
  · rw [← submissions_eq_passed, ← IsoTp.submissions_below]
    exact hback
  · obtain ⟨hrequests, hresponses⟩ := h.delivered hrest
    rw [← h.served, ← submissions_eq_passed]
    exact ⟨hrequests, hresponses⟩

/-- The tester's link, with buffers as large as those of the ECU. -/
def testerConfig : Config where
  txId := canIdUdsReqControl.toNat
  rxId := canIdUdsRespControl.toNat
  rxBuffer := List.replicate diagBufferSize 0
  txBuffer := List.replicate diagBufferSize 0
  blockSize := 0
  stMin := 0
  nBsTimeoutMs := 0
  nCrTimeoutMs := 0

/-- The version is read: the response takes a FF, the tester's FC and a CF. -/
def versionRead : List BusOp :=
  let env := IsoTp.promptEnv
  let signals := { speedX10 := 0, faultMask := 0 }
  [.tester env (.transmit [0x22, 0xF1, 0x95]), .ecu env signals .deliver, .tester env .deliver,
    .tester env .mainFunction, .ecu env signals .deliver, .ecu env signals .mainFunction,
    .tester env .deliver]

theorem exchanged_over_bus_versionRead :
    let tr := (run Bus.step (.init testerConfig 0) versionRead).2
    (ecuTranscript tr).filterMap Entry.physical = submissions (testerEvents tr) :=
  ((exchanged_over_bus testerConfig 0 versionRead (by decide +kernel)
    (by decide +kernel)).2.2.2.2.2.2 (by decide +kernel)).1

/-! ### A tester that waits -/

/-- The tester asks, and functional requests arrive, at rest only. -/
def Bus.Polite (n : Bus) : BusOp → Prop
  | .tester _ (.transmit _) => n.AtRest
  | .ecu _ _ (.other frame _) => frame.id = canIdUdsFunctional → n.AtRest
  | _ => True

instance (n : Bus) : (op : BusOp) → Decidable (n.Polite op)
  | .tester _ (.transmit _) => inferInstanceAs (Decidable n.AtRest)
  | .ecu _ _ (.other frame _) =>
      inferInstanceAs (Decidable (frame.id = canIdUdsFunctional → n.AtRest))
  | .tester _ .mainFunction | .tester _ .deliver => inferInstanceAs (Decidable True)
  | .ecu _ _ .deliver | .ecu _ _ .mainFunction | .ecu _ _ (.reportFault _ _) =>
      inferInstanceAs (Decidable True)

/-- At most one request is on its way, and while a response is, none. -/
structure Bus.Waiting (n : Bus) (tr : List BusEvent) : Prop where
  one : (submissions (testerEvents tr)).length ≤ (deliveries (ecuEvents tr)).length + 1
  busy : n.diag.link.tx.txState ≠ .idle →
    deliveries (ecuEvents tr) = submissions (testerEvents tr)
  passed : (ecuTranscript tr).filterMap Entry.passed = (ecuTranscript tr).filterMap Entry.response

/-- No request is on its way, and no response in the ECU. -/
structure Bus.Settled (n : Bus) (tr : List BusEvent) : Prop where
  processed : deliveries (ecuEvents tr) = submissions (testerEvents tr)
  idle : n.diag.link.tx.txState = .idle

namespace Bus

variable {cfg : Config} {n : Bus} {tr : List BusEvent}

theorem Linked.settled (h : n.Linked cfg tr) (hrest : n.AtRest) : n.Settled tr :=
  ⟨(h.delivered hrest).1, by simpa [IsoTp.isTxBusy] using hrest.2.1⟩

theorem Waiting.tester_moved (h : n.Waiting tr) {x : Node} {inbox : List Frame}
    {es : List (Event Empty)}
    (hes : submissions es = [] ∨ n.Settled tr ∧ (submissions es).length ≤ 1) :
    Bus.Waiting { tester := x, diag := n.diag, inbox := inbox } (tr ++ es.map .inl) := by
  obtain ⟨hown, hother⟩ := events_tester es
  have hecu : ecuEvents (tr ++ es.map .inl) = ecuEvents tr := by
    rw [ecuEvents_append, hother, List.append_nil]
  have htester : submissions (testerEvents (tr ++ es.map .inl)) =
      submissions (testerEvents tr) ++ submissions es := by
    rw [testerEvents_append, IsoTp.submissions_append, hown]
  obtain hnone | ⟨hsettled, hone⟩ := hes
  · refine ⟨?_, ?_, ?_⟩
    · rw [hecu, htester, hnone, List.append_nil]
      exact h.one
    · rw [hecu, htester, hnone, List.append_nil]
      exact h.busy
    · rw [ecuTranscript, hecu]
      exact h.passed
  · refine ⟨?_, fun hbusy => absurd hsettled.idle hbusy, ?_⟩
    · rw [hecu, htester, List.length_append, hsettled.processed]
      omega
    · rw [ecuTranscript, hecu]
      exact h.passed

theorem Waiting.tester_step (h : n.Waiting tr) {env : Env} {action : Action}
    (hpolite : (∃ m, action = .transmit m) → n.Settled tr) :
    (n.step (.tester env action)).1.Waiting (tr ++ (n.step (.tester env action)).2) := by
  obtain ⟨hone, hnone⟩ := IsoTp.submissions_act env n.tester n.node action
  refine h.tester_moved ?_
  by_cases htransmit : ∃ m, action = .transmit m
  · exact .inr ⟨hpolite htransmit, hone⟩
  · exact .inl (hnone fun m hm => htransmit ⟨m, hm⟩)

/-- A functional request has come in a frame of its own. -/
theorem functional_of_arrival {inbox rest : List Frame} {input : EcuInput} {i : Input}
    (htake : input.take inbox = some (i, rest)) {s : State} {env : Env} {signals : Signals}
    {r : Request} (harrival : s.arrival ⟨env, signals, i⟩ = some r) (hr : r.functional = true) :
    ∃ frame hid, input = .other frame hid ∧ frame.id = canIdUdsFunctional := by
  cases input with
  | other frame hid =>
      cases htake
      refine ⟨frame, hid, rfl, ?_⟩
      cases receives signals s env frame with
      | physical hphysical => exact absurd hphysical hid
      | functional _ hfunctional => exact hfunctional
      | ignored _ hnone => cases hnone.symm.trans harrival
  | deliver =>
      cases inbox with
      | nil => cases htake
      | cons frame inbox =>
          cases htake
          obtain ⟨m, -, rfl⟩ := Option.map_eq_some_iff.mp harrival
          cases hr
  | mainFunction =>
      cases htake
      cases harrival
  | reportFault index failed =>
      cases htake
      cases harrival

/-- A request that arrives is the next of those that the tester's link has taken. -/
theorem Linked.prefix_arrival (h : n.Linked cfg tr) {env : Env} {signals : Signals}
    {input : EcuInput} {i : Input} {rest : List Frame} (htake : input.take n.inbox = some (i, rest)) :
    deliveries (ecuEvents tr) ++
        ((n.diag.arrival ⟨env, signals, i⟩).bind Request.physical).toList <+:
      submissions (testerEvents tr) := by
  have hprefix := h.coupled.forth.delivered_prefix
  have hpast : deliveries (ecuEvents tr) ++ (none : Option Bytes).toList <+:
      submissions (testerEvents tr) := by
    rw [Option.toList_none, List.append_nil, ← IsoTp.deliveries_below]
    exact hprefix
  cases input with
  | deliver =>
      cases hinbox : n.inbox with
      | nil =>
          rw [hinbox] at htake
          cases htake
      | cons frame inbox =>
          rw [hinbox] at htake
          cases htake
          obtain ⟨o, hreports, hmirrors⟩ := IsoTp.mirrors_rxFrame IsoTp.silent
            (nested IsoTp.silent 0) (nested IsoTp.silent 0) () ([] : List (Event Empty))
            IsoTp.attentive_silent frame 8 { link := n.diag.link, app := (), env := env }
          have hread := (midway_silent env h.coupled.symm hinbox).back.delivered_prefix
          have hmessage := IsoTp.deliveries_performs hmirrors.1
          rw [hreports.message] at hmessage
          have harrival : (n.diag.arrival ⟨env, signals,
              .onFrame (.full canIdUdsReqControl frame)⟩).bind Request.physical =
                IsoTp.completed n.diag.link frame 8 := by
            show ((IsoTp.completed n.diag.link frame 8).map _).bind _ = _
            cases IsoTp.completed n.diag.link frame 8 <;> rfl
          rw [harrival, ← IsoTp.deliveries_below]
          show _ ++ (IsoTp.completed n.diag.link frame 8).toList <+: _
          have hall : deliveries (below (ecuEvents tr) ++ (IsoTp.rxFrame IsoTp.silent
              (nested IsoTp.silent 0) frame 8
              { link := n.diag.link, app := (), env := env }).events) <+:
                submissions (testerEvents tr) := hread
          rw [IsoTp.deliveries_append, hmessage] at hall
          exact hall
  | other frame hid =>
      cases htake
      have harrival : (n.diag.arrival ⟨env, signals, .onFrame frame⟩).bind Request.physical =
          none := by
        cases receives signals n.diag env frame with
        | physical hphysical => exact absurd hphysical hid
        | functional _ _ _ hsome =>
            rw [hsome]
            rfl
        | ignored _ hnone =>
            rw [hnone]
            rfl
      rw [harrival]
      exact hpast
  | mainFunction =>
      cases htake
      exact hpast
  | reportFault index failed =>
      cases htake
      exact hpast

theorem Linked.prefix_deliveries (h : n.Linked cfg tr) {env : Env} {signals : Signals}
    {input : EcuInput} {i : Input} {rest : List Frame} (hcalm : n.Calm (.ecu env signals input))
    (htake : input.take n.inbox = some (i, rest)) :
    deliveries (ecuEvents tr ++ (perform n.diag ⟨env, signals, i⟩).events) =
        deliveries (ecuEvents tr) ++
          ((n.diag.arrival ⟨env, signals, i⟩).bind Request.physical).toList ∧
      deliveries (ecuEvents tr ++ (perform n.diag ⟨env, signals, i⟩).events) <+:
        submissions (testerEvents tr) := by
  have hprefix := (h.performed htake hcalm).back.delivered_prefix
  obtain ⟨hdelivered, -⟩ := link_perform n.diag ⟨env, signals, i⟩
  refine ⟨?_, ?_⟩
  · rw [IsoTp.deliveries_append, hdelivered]
  · rw [← IsoTp.deliveries_below]
    exact hprefix

section Ecu

variable {env : Env} {signals : Signals} {input : EcuInput} {i : Input} {rest : List Frame}
  (h : n.Waiting tr) (hlinked : n.Linked cfg tr) (hcalm : n.Calm (.ecu env signals input))
  (hpolite : ∀ r, n.diag.arrival ⟨env, signals, i⟩ = some r → r.functional = true → n.Settled tr)
  (htake : input.take n.inbox = some (i, rest))
include h hlinked hcalm hpolite htake

/-- A request finds the link idle, and leaves none on its way. -/
theorem Waiting.arrived {r : Request} (harrival : n.diag.arrival ⟨env, signals, i⟩ = some r) :
    n.diag.link.tx.txState = .idle ∧
      deliveries (ecuEvents tr ++ (perform n.diag ⟨env, signals, i⟩).events) =
        submissions (testerEvents tr) := by
  obtain ⟨hdelivered, hprefix⟩ := hlinked.prefix_deliveries hcalm htake
  have hlength := hprefix.length_le
  have hone := h.one
  rw [harrival, Option.bind_some] at hdelivered
  cases hr : r.functional with
  | true =>
      have hsettled := hpolite r harrival hr
      refine ⟨hsettled.idle, ?_⟩
      rw [hdelivered, Request.physical, hr, hsettled.processed]
      exact List.append_nil _
  | false =>
      have hphysical : r.physical.toList.length = 1 := by
        rw [Request.physical, hr]
        rfl
      rw [hdelivered, List.length_append] at hlength
      refine ⟨?_, hprefix.eq_of_length ?_⟩
      · by_contra hbusy
        rw [h.busy hbusy] at hlength
        omega
      · rw [hdelivered, List.length_append]
        omega

omit hpolite in
theorem Waiting.answering (hbusy : n.diag.link.tx.txState ≠ .idle) :
    deliveries (ecuEvents tr ++ (perform n.diag ⟨env, signals, i⟩).events) =
      submissions (testerEvents tr) := by
  obtain ⟨hdelivered, hprefix⟩ := hlinked.prefix_deliveries hcalm htake
  have hlength := hprefix.length_le
  refine hprefix.eq_of_length (Nat.le_antisymm hlength ?_)
  rw [hdelivered, List.length_append, h.busy hbusy]
  omega

end Ecu

/-- The ECU acts. -/
theorem Waiting.ecu_step (h : n.Waiting tr) (hlinked : n.Linked cfg tr) {env : Env}
    {signals : Signals} {input : EcuInput} (hcalm : n.Calm (.ecu env signals input))
    (hpolite : ∀ taken ∈ input.take n.inbox, ∀ r,
      n.diag.arrival ⟨env, signals, taken.1⟩ = some r → r.functional = true → n.Settled tr) :
    (n.step (.ecu env signals input)).1.Linked cfg (tr ++ (n.step (.ecu env signals input)).2) ∧
      (n.step (.ecu env signals input)).1.Waiting (tr ++ (n.step (.ecu env signals input)).2) := by
  refine ⟨?_, ?_⟩
  · refine hlinked.ecu_step hcalm fun taken htake hrestart => ?_
    obtain ⟨i, rest⟩ := taken
    have hwasBusy := (idle_of_restart hlinked.ready.running hrestart).2
    cases harrival : n.diag.arrival ⟨env, signals, i⟩ with
    | none => exact h.answering hlinked hcalm htake (hwasBusy harrival)
    | some r => exact (h.arrived hlinked hcalm (hpolite (i, rest) htake) htake harrival).2
  have harrived := @Waiting.arrived cfg n tr env signals input
  have hanswering := @Waiting.answering cfg n tr env signals input
  rw [step]
  cases htake : input.take n.inbox with
  | none =>
      rw [List.append_nil]
      exact h
  | some taken =>
      obtain ⟨i, rest⟩ := taken
      obtain ⟨hdelivered, hprefix⟩ := hlinked.prefix_deliveries hcalm htake
      have harrived := fun r =>
        @harrived i rest h hlinked hcalm (hpolite (i, rest) htake) htake r
      have hanswering := hanswering h hlinked hcalm htake
      obtain ⟨hother, hown⟩ := events_ecu (Diag.step n.diag ⟨env, signals, i⟩).2
      obtain ⟨-, hturn⟩ := turn_step hlinked.ready ⟨env, signals, i⟩
      have hecu : ecuEvents (tr ++ (Diag.step n.diag ⟨env, signals, i⟩).2.map .inr) =
          ecuEvents tr ++ (perform n.diag ⟨env, signals, i⟩).events := by
        rw [ecuEvents_append, hown]
        rfl
      have htester : testerEvents (tr ++ (Diag.step n.diag ⟨env, signals, i⟩).2.map .inr) =
          testerEvents tr := by
        rw [testerEvents_append, hother, List.append_nil]
      have hone := h.one
      refine ⟨?_, ?_, ?_⟩
      · simp only [hecu, htester, hdelivered, List.length_append]
        omega
      · intro hbusy
        rw [hecu, htester]
        cases harrival : n.diag.arrival ⟨env, signals, i⟩ with
        | none => exact hanswering (hturn.busy harrival hbusy)
        | some r => exact (harrived r harrival).2
      · rw [ecuTranscript, hecu, transcript_append, List.filterMap_append, List.filterMap_append,
          h.passed]
        refine congrArg _ (hturn.passed fun hsome => ?_)
        obtain ⟨r, harrival⟩ := Option.ne_none_iff_exists'.mp hsome
        exact (harrived r harrival).1

end Bus

/-- **A tester that waits gets every response.** If it asks only when the bus is at rest, the ECU's
link takes every response, also those that restart it; and whenever the bus is at rest, every request
has been processed and the tester has got all the responses there are, in the order of the
requests. -/
theorem answered_over_bus (cfg : Config) (time : Nat) (ops : List BusOp)
    (hcalm : Along Bus.step Bus.Calm (.init cfg time) ops)
    (hpolite : Along Bus.step Bus.Polite (.init cfg time) ops) :
    let n := (run Bus.step (.init cfg time) ops).1
    let tr := (run Bus.step (.init cfg time) ops).2
    let log := ecuTranscript tr
    log.filterMap Entry.passed = log.filterMap Entry.response ∧
      (n.AtRest → log.filterMap Entry.physical = submissions (testerEvents tr) ∧
        deliveries (testerEvents tr) = log.filterMap Entry.response) := by
  intro n tr log
  have hboth : n.Linked cfg tr ∧ n.Waiting tr := by
    refine run_invariant_of (fun (n : Bus) (tr : List BusEvent) => n.Linked cfg tr ∧ n.Waiting tr)
      (fun (n : Bus) (op : BusOp) => n.Calm op ∧ n.Polite op) ?_ [] ⟨Bus.linked_init cfg time,
        Nat.zero_le _, fun _ => rfl, rfl⟩ ops (along_and hcalm hpolite)
    intro n tr op h hop
    obtain ⟨hcalm, hpolite⟩ := hop
    cases op with
    | tester env action =>
        refine ⟨h.1.tester_step hcalm, h.2.tester_step fun htransmit => ?_⟩
        obtain ⟨m, rfl⟩ := htransmit
        exact h.1.settled hpolite
    | ecu env signals input =>
        refine h.2.ecu_step h.1 hcalm fun taken htake r harrival hr => ?_
        obtain ⟨frame, hid, rfl, hfunctional⟩ := Bus.functional_of_arrival htake harrival hr
        exact h.1.settled (hpolite hfunctional)
  obtain ⟨hlinked, hwaiting⟩ := hboth
  refine ⟨hwaiting.passed, fun hrest => ?_⟩
  obtain ⟨hrequests, hresponses⟩ := hlinked.delivered hrest
  rw [← hwaiting.passed, ← hlinked.served, ← submissions_eq_passed]
  exact ⟨hrequests, hresponses⟩

theorem answered_over_bus_versionRead :
    let tr := (run Bus.step (.init testerConfig 0) versionRead).2
    deliveries (testerEvents tr) = (ecuTranscript tr).filterMap Entry.response :=
  ((answered_over_bus testerConfig 0 versionRead (by decide +kernel) (by decide +kernel)).2
    (by decide +kernel)).2

end MiniEcu.Diag
