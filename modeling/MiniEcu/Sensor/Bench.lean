import MiniEcu.Sensor.Sequence
import MiniEcu.Diag.Bus

/-!
# The two ECUs on one bus

The tester of the Sensor ECU at one end, with its sequences, and the diagnostics of the Control ECU at
the other. The requests go through the two links or, in frames of their own, past them. As long as the
ECU answers in time, every verdict of the tester is one on the response that the server has computed
for the request of that very step.
-/

namespace MiniEcu.Bench

open Diag (Answer Bus BusEvent CanFrame EcuInput Entry Record Request Signals Tester
  canIdUdsFunctional canIdUdsReqControl ecuEvents testerEvents)
open IsoTp (Bytes Coupled Env Event Frame Midway World below deliveries nested records sentFrames
  submissions)
open Memory (elapsed)
open Sensor.Sequence (Progress Report Statics Step linkConfig singleFrame testerApp)
open Trace

/-! ### The bench -/

/-- A frame on its way to the Control ECU. -/
inductive Wired
  | physical (frame : Frame)
  | functional (frame : CanFrame)

namespace Wired

def canFrame : Wired → CanFrame
  | physical frame => .full canIdUdsReqControl frame
  | functional frame => frame

def physical? : Wired → Option Frame
  | physical frame => some frame
  | functional _ => none

def functional? : Wired → Option CanFrame
  | physical _ => none
  | functional frame => some frame

end Wired

/-- The frames that the driver of the Sensor ECU takes. -/
def wired (es : List (Event Report)) : List Wired :=
  es.filterMap fun
    | .sendFrame _ frame true => some (.physical frame)
    | .app (.functional frame true) => some (.functional frame)
    | _ => none

/-- The tester and the diagnostics, with the frames on their way to each. -/
structure State where
  sensor : Sensor.Sequence.State
  control : Diag.State
  toSensor : List Frame
  toControl : List Wired

/-- What can happen at the Sensor ECU. -/
inductive TesterInput
  | deliver
  | handleKey (key : UInt8)
  | mainFunction
  | runSequence

inductive Op
  | sensor (env : Env) (input : TesterInput)
  | control (env : Env) (signals : Signals) (input : EcuInput)

abbrev BenchEvent := Event Report ⊕ Event Record

def TesterInput.take (inbox : List Frame) : TesterInput → Option (Sensor.Sequence.Input × List Frame)
  | .deliver =>
      match inbox with
      | [] => none
      | frame :: rest => some (.rxFrame frame IsoTp.canDl, rest)
  | .handleKey key => some (.handleKey key, inbox)
  | .mainFunction => some (.mainFunction, inbox)
  | .runSequence => some (.runSequence, inbox)

/-- The call of the Control ECU, whose frames come on both identifiers. -/
def takeWired (inbox : List Wired) : EcuInput → Option (Diag.Input × List Wired)
  | .deliver =>
      match inbox with
      | [] => none
      | frame :: rest => some (.onFrame frame.canFrame, rest)
  | .other frame _ => some (.onFrame frame, inbox)
  | .mainFunction => some (.mainFunction, inbox)
  | .reportFault index failed => some (.reportFault index failed, inbox)

namespace State

def step (n : State) : Op → State × List BenchEvent
  | .sensor env input =>
      match input.take n.toSensor with
      | none => (n, [])
      | some (i, rest) =>
          let out := Sensor.Sequence.step n.sensor (env, i)
          ({ n with
             sensor := out.1
             toSensor := rest
             toControl := n.toControl ++ wired out.2 }, out.2.map .inl)
  | .control env signals input =>
      match takeWired n.toControl input with
      | none => (n, [])
      | some (i, rest) =>
          let out := Diag.step n.control ⟨env, signals, i⟩
          ({ n with
             control := out.1
             toSensor := n.toSensor ++ sentFrames out.2
             toControl := rest }, out.2.map .inr)

/-- Both ECUs have started, and nothing is on its way. -/
def init (time : Nat) : State where
  sensor := Sensor.Sequence.init
  control := Diag.boot time
  toSensor := []
  toControl := []

/-- Both links are idle, and nothing is on its way. -/
def AtRest (n : State) : Prop :=
  IsoTp.isTxBusy n.sensor.link = false ∧ IsoTp.isTxBusy n.control.link = false ∧
    n.toSensor = [] ∧ n.toControl.isEmpty

instance (n : State) : Decidable n.AtRest := inferInstanceAs (Decidable (_ ∧ _))

/-- No timer of a link expires, the driver takes the functional requests, of which no other node sends
any, and a step is given up only when nothing is on its way any more. -/
def Fair (n : State) : Op → Prop
  | .sensor env .mainFunction => ¬ n.sensor.link.Expires 0 env
  | .sensor env .runSequence =>
      ∀ p ∈ n.sensor.statics.progress,
        (p.phase = .send → p.current.functional = true → env.driver 0 = true) ∧
          (p.phase = .wait → n.sensor.statics.answer.gotResp = false →
            p.current.waitMs ≤ elapsed (env.clock 0 % 2 ^ 32) p.timer → n.AtRest)
  | .control env _ .mainFunction => ¬ n.control.link.Expires 0 env
  | .control _ _ (.other frame _) => frame.id ≠ canIdUdsFunctional
  | _ => True

instance (n : State) : (op : Op) → Decidable (n.Fair op)
  | .sensor env .mainFunction => inferInstanceAs (Decidable (¬ n.sensor.link.Expires 0 env))
  | .sensor env .runSequence =>
      inferInstanceAs (Decidable (∀ p ∈ n.sensor.statics.progress,
        (p.phase = .send → p.current.functional = true → env.driver 0 = true) ∧
          (p.phase = .wait → n.sensor.statics.answer.gotResp = false →
            p.current.waitMs ≤ elapsed (env.clock 0 % 2 ^ 32) p.timer → n.AtRest)))
  | .control env _ .mainFunction => inferInstanceAs (Decidable (¬ n.control.link.Expires 0 env))
  | .control _ _ (.other frame _) => inferInstanceAs (Decidable (frame.id ≠ canIdUdsFunctional))
  | .sensor _ .deliver | .sensor _ (.handleKey _) => inferInstanceAs (Decidable True)
  | .control _ _ .deliver | .control _ _ (.reportFault _ _) => inferInstanceAs (Decidable True)

end State

def sensorEvents (tr : List BenchEvent) : List (Event Report) := tr.filterMap Sum.getLeft?

def controlEvents (tr : List BenchEvent) : List (Event Record) := tr.filterMap Sum.getRight?

/-! ### Exchanges -/

/-- The verdict that the response to a step deserves. None is one without bytes. -/
def deserved (st : Step) (response : Bytes) : Bool :=
  match st.expect with
  | none => response.isEmpty
  | some e => e.isPrefixOf response

/-- A step with the request that the server has got for it, and its response. -/
structure Exchange where
  step : Step
  request : Request
  response : Bytes
  bytes_eq : request.bytes = step.req
  functional_eq : request.functional = step.functional

namespace Exchange

def verdict (x : Exchange) : Step × Bool := (x.step, deserved x.step x.response)

def served (x : Exchange) : Request × Bytes := (x.request, x.response)

end Exchange

def asked? : Report → Option Step
  | .asked st => some st
  | _ => none

def verdict? : Report → Option (Step × Bool)
  | .verdict st pass => some (st, pass)
  | _ => none

def functional? : Report → Option CanFrame
  | .functional frame true => some frame
  | _ => none

/-- The steps whose requests have been sent. -/
def asked (tr : List BenchEvent) : List Step := (records (sensorEvents tr)).filterMap asked?

def verdicts (tr : List BenchEvent) : List (Step × Bool) :=
  (records (sensorEvents tr)).filterMap verdict?

/-- The requests that the server has processed, with its responses. -/
def served (tr : List BenchEvent) : List (Request × Bytes) :=
  (Diag.transcript (controlEvents tr)).filterMap Entry.served

/-! ### The bus below -/

def physicals (ws : List Wired) : List Frame := ws.filterMap Wired.physical?

def functionals (ws : List Wired) : List CanFrame := ws.filterMap Wired.functional?

/-- The links alone. -/
def State.bus (n : State) : Bus where
  tester := { link := n.sensor.link, inbox := n.toSensor }
  diag := n.control
  inbox := physicals n.toControl

/-- What has happened to them. -/
def busTrace (tr : List BenchEvent) : List BusEvent :=
  tr.filterMap fun
    | .inl e => e.below.map .inl
    | .inr e => some (.inr e)

theorem sensorEvents_append (tr tr' : List BenchEvent) :
    sensorEvents (tr ++ tr') = sensorEvents tr ++ sensorEvents tr' := List.filterMap_append

theorem controlEvents_append (tr tr' : List BenchEvent) :
    controlEvents (tr ++ tr') = controlEvents tr ++ controlEvents tr' := List.filterMap_append

theorem busTrace_append (tr tr' : List BenchEvent) :
    busTrace (tr ++ tr') = busTrace tr ++ busTrace tr' := List.filterMap_append

theorem events_sensor (es : List (Event Report)) :
    sensorEvents (es.map .inl) = es ∧ controlEvents (es.map .inl) = [] ∧
      busTrace (es.map .inl) = (below es).map .inl := by
  rw [sensorEvents, controlEvents, busTrace, List.filterMap_map, List.filterMap_map,
    List.filterMap_map, below, List.map_filterMap]
  exact ⟨List.filterMap_some, List.filterMap_eq_nil_iff.mpr fun _ _ => rfl, rfl⟩

theorem events_control (es : List (Event Record)) :
    sensorEvents (es.map .inr) = [] ∧ controlEvents (es.map .inr) = es ∧
      busTrace (es.map .inr) = es.map .inr := by
  rw [sensorEvents, controlEvents, busTrace, List.filterMap_map, List.filterMap_map,
    List.filterMap_map]
  refine ⟨List.filterMap_eq_nil_iff.mpr fun _ _ => rfl, List.filterMap_some, ?_⟩
  exact congrFun List.filterMap_eq_map es

theorem testerEvents_busTrace (tr : List BenchEvent) :
    testerEvents (busTrace tr) = below (sensorEvents tr) := by
  rw [testerEvents, busTrace, below, sensorEvents, List.filterMap_filterMap,
    List.filterMap_filterMap]
  refine List.filterMap_congr fun e _ => ?_
  cases e with
  | inl e =>
      show (e.below.map Sum.inl).bind Sum.getLeft? = e.below
      cases e.below <;> rfl
  | inr e => rfl

theorem ecuEvents_busTrace (tr : List BenchEvent) : ecuEvents (busTrace tr) = controlEvents tr := by
  rw [ecuEvents, busTrace, controlEvents, List.filterMap_filterMap]
  refine List.filterMap_congr fun e _ => ?_
  cases e with
  | inl e =>
      show (e.below.map Sum.inl).bind Sum.getRight? = none
      cases e.below <;> rfl
  | inr e => rfl

theorem physicals_append (ws ws' : List Wired) :
    physicals (ws ++ ws') = physicals ws ++ physicals ws' := List.filterMap_append

theorem functionals_append (ws ws' : List Wired) :
    functionals (ws ++ ws') = functionals ws ++ functionals ws' := List.filterMap_append

theorem physicals_wired (es : List (Event Report)) : physicals (wired es) = sentFrames es := by
  rw [physicals, wired, sentFrames, List.filterMap_filterMap]
  refine List.filterMap_congr fun e _ => ?_
  cases e with
  | sendFrame canId frame accepted => cases accepted <;> rfl
  | app r =>
      cases r with
      | functional frame accepted => cases accepted <;> rfl
      | _ => rfl
  | _ => rfl

theorem functionals_wired (es : List (Event Report)) :
    functionals (wired es) = (records es).filterMap functional? := by
  rw [functionals, wired, records, List.filterMap_filterMap, List.filterMap_filterMap]
  refine List.filterMap_congr fun e _ => ?_
  cases e with
  | sendFrame canId frame accepted => cases accepted <;> rfl
  | app r =>
      cases r with
      | functional frame accepted => cases accepted <;> rfl
      | _ => rfl
  | _ => rfl

/-! ### A call of the tester -/

/-- What a call does, as the exchanges see it. -/
structure Summary where
  asked : List Step := []
  verdicts : List (Step × Bool) := []
  functionals : List CanFrame := []
  submitted : List Bytes := []
  delivered : List Bytes := []

def summary (es : List (Event Report)) : Summary where
  asked := (records es).filterMap asked?
  verdicts := (records es).filterMap verdict?
  functionals := (records es).filterMap functional?
  submitted := submissions es
  delivered := deliveries es

theorem summary_app (rs : List Report) :
    summary (rs.map .app) =
      { asked := rs.filterMap asked?
        verdicts := rs.filterMap verdict?
        functionals := rs.filterMap functional? } := by
  rw [summary, IsoTp.records_map_app, IsoTp.submissions_map_app, IsoTp.deliveries_map_app]

theorem summary_lift (es : List (Event Empty)) :
    summary (es.map Event.lift) =
      { submitted := submissions es, delivered := deliveries es } := by
  rw [summary, IsoTp.records_map_lift, IsoTp.submissions_map_lift, IsoTp.deliveries_map_lift]
  rfl

/-- The step that waits for a response. -/
def waiting (a : Statics) : Option Progress := a.progress.filter fun p => p.phase = .wait

theorem waiting_eq_some {a : Statics} {p : Progress} :
    waiting a = some p ↔ a.progress = some p ∧ p.phase = .wait := by
  rw [waiting, Option.filter_eq_some_iff, decide_eq_true_iff]

theorem waiting_eq_none {a : Statics} {p : Progress} (hprogress : a.progress = some p)
    (hphase : p.phase ≠ .wait) : waiting a = none := by
  rw [waiting, hprogress, Option.filter_some, if_neg]
  simpa using hphase

/-- What a call at the Sensor ECU does to the exchange under way. -/
inductive Acts (s : Sensor.Sequence.State) (env : Env) (i : Sensor.Sequence.Input)
    (w : World Statics Report) : Prop
  | nothing (hwaiting : waiting w.app = waiting s.statics)
      (hanswer : w.app.answer = s.statics.answer)
      (hsummary : summary w.events = {})
  | heard (data : Bytes) (hwaiting : waiting w.app = waiting s.statics)
      (hanswer : w.app.answer = (Diag.onTesterResponse data .ok s.statics.answer).app)
      (hsummary : summary w.events = { delivered := [data] })
  | asked (hcall : i = .runSequence) (p : Progress) (hphase : p.phase = .send)
      (hprogress : s.statics.progress = some p)
      (timer : Nat) (hwaiting : waiting w.app = some { p with phase := .wait, timer := timer })
      (hanswer : w.app.answer = { s.statics.answer with respLen := 0, gotResp := false })
      (hsummary : summary w.events =
        if p.current.functional then
          { asked := [p.current]
            functionals := if env.driver 0 then [singleFrame p.current] else [] }
        else { asked := [p.current], submitted := [p.current.req] })
  | judged (hcall : i = .runSequence) (p : Progress) (pass : Bool)
      (hwaiting : waiting s.statics = some p)
      (hends : p.Ends s.statics.answer (env.clock 0 % 2 ^ 32) pass)
      (hnone : waiting w.app = none) (hanswer : w.app.answer = s.statics.answer)
      (hsummary : summary w.events = { verdicts := [(p.current, pass)] })

section Calls

variable {s : Sensor.Sequence.State} {env : Env}

theorem acts_mirrored {i : Sensor.Sequence.Input} {u v' : World Unit Empty} {o : IsoTp.Outcome}
    {w : World Statics Report} (hu : u.events = [])
    (h : IsoTp.Mirrors testerApp (nested testerApp 0) u s.statics [] o v' w) : Acts s env i w := by
  obtain ⟨-, happ, hevents⟩ := Sensor.Sequence.Mirrors.testerApp h
  have hsubmitted := IsoTp.submissions_performs h.1
  have hdelivered := IsoTp.deliveries_performs h.1
  rw [hu] at hsubmitted hdelivered
  have hsummary : summary w.events = { delivered := o.message.toList } := by
    rw [hevents, List.nil_append, summary_lift, hsubmitted, hdelivered]
    rfl
  cases o with
  | received data =>
      refine .heard data ?_ ?_ hsummary
      · rw [happ]
        rfl
      · rw [happ]
        rfl
  | none | confirmed result =>
      refine .nothing ?_ ?_ hsummary
      · rw [happ]
        rfl
      · rw [happ]
        rfl

/-- The reports of a key say nothing about a step. -/
theorem acts_handleKey (key : UInt8) (w : World Statics Report) (happ : w.app = s.statics)
    (hevents : w.events = []) : Acts s env (.handleKey key) (Sensor.Sequence.handleKey w key) := by
  have hstart : ∀ table, Acts s env (.handleKey key) (Sensor.Sequence.start w table) := by
    intro table
    rw [Sensor.Sequence.start]
    split
    · rename_i p hprogress
      refine .nothing (congrArg waiting happ) (congrArg Statics.answer happ) ?_
      show summary (w.events ++ [Report.busy].map .app) = {}
      rw [hevents, List.nil_append, summary_app]
      rfl
    · rename_i hprogress
      have hanswer : w.app.answer = s.statics.answer := congrArg Statics.answer happ
      refine .nothing ?_ hanswer ?_
      · rw [← happ]
        have hnone : waiting w.app = none := by
          rw [waiting, hprogress]
          rfl
        rw [hnone]
        exact waiting_eq_none rfl (Sensor.Sequence.Phase.noConfusion)
      · show summary (w.events ++ [Report.started table].map .app) = {}
        rw [hevents, List.nil_append, summary_app]
        rfl
  rw [Sensor.Sequence.handleKey]
  split_ifs
  iterate 6 exact hstart _
  · refine .nothing (congrArg waiting happ) (congrArg Statics.answer happ) ?_
    show summary (w.events ++ [Report.help].map .app) = {}
    rw [hevents, List.nil_append, summary_app]
    rfl
  · refine .nothing (congrArg waiting happ) (congrArg Statics.answer happ) ?_
    rw [hevents]
    rfl

theorem transmitResult_req (hcfg : s.link.cfg = (IsoTp.init linkConfig).cfg)
    (hidle : IsoTp.isTxBusy s.link = false) (st : Step) :
    IsoTp.transmitResult s.link st.req = .ok := by
  have hpos := st.req_ne
  have hfits := st.req_fits
  have hsize : s.link.cfg.txBufferSize = Sensor.Sequence.testerBufferSize := by
    rw [hcfg]
    exact List.length_replicate
  have htx : s.link.tx.txState = .idle := by simpa [IsoTp.isTxBusy] using hidle
  rw [IsoTp.transmitResult, hsize, if_neg, if_neg]
  · simpa using htx
  · simp only [IsoTp.maxMessageLen, Sensor.Sequence.testerBufferSize]
    omega

theorem acts_sendStep (hcfg : s.link.cfg = (IsoTp.init linkConfig).cfg)
    (w : World Statics Report) (hlink : w.link = s.link) (happ : w.app = s.statics)
    (hevents : w.events = []) (haccepts : w.accepts = env.driver 0) {p : Progress}
    (hprogress : s.statics.progress = some p) (hphase : p.phase = .send)
    (hidle : IsoTp.isTxBusy s.link = false) :
    Acts s env .runSequence (Sensor.Sequence.sendStep w p) := by
  obtain ⟨timer, hsent, hbeside, hthrough⟩ := Sensor.Sequence.sendStep_spec w p
  refine .asked rfl p hphase hprogress timer ?_ ?_ ?_
  · rw [waiting_eq_some, hsent]
    exact ⟨rfl, rfl⟩
  · rw [hsent, happ]
    rfl
  · cases hfunctional : p.current.functional with
    | true =>
        rw [(hbeside hfunctional).2, hevents, List.nil_append, summary_app, haccepts]
        cases env.driver 0 <;> rfl
    | false =>
        let v : World Statics Report :=
          { w with app := w.app.forget, events := w.events ++ [.app (.asked p.current)] }
        have htaken : IsoTp.transmitResult v.link p.current.req = .ok := by
          show IsoTp.transmitResult w.link p.current.req = .ok
          rw [hlink]
          exact transmitResult_req hcfg hidle p.current
        obtain ⟨-, es, hes⟩ := Sensor.Sequence.nested_testerApp p.current.req v
        have hsubmitted := IsoTp.submissions_nested Sensor.Sequence.attentive_testerApp
          p.current.req v
        have hdelivered := IsoTp.deliveries_nested Sensor.Sequence.attentive_testerApp
          p.current.req v
        have hv : v.events = [.app (.asked p.current)] := by
          show w.events ++ _ = _
          rw [hevents]
          rfl
        have hrecords : records (nested testerApp 0 p.current.req v).events =
            [.asked p.current] := by
          rw [hes, IsoTp.records_append, IsoTp.records_map_lift, hv]
          rfl
        rw [(hthrough hfunctional).2]
        show summary (nested testerApp 0 p.current.req v).events = _
        rw [summary, hrecords, hsubmitted, hdelivered, hv, if_pos htaken]
        rfl

theorem acts_finish (w : World Statics Report) (happ : w.app = s.statics) (hevents : w.events = [])
    {p : Progress} {pass : Bool} (hprogress : s.statics.progress = some p) (hphase : p.phase = .wait)
    (hends : p.Ends s.statics.answer (env.clock 0 % 2 ^ 32) pass) :
    Acts s env .runSequence (Sensor.Sequence.finish w p pass) := by
  have hwaiting : waiting s.statics = some p := waiting_eq_some.mpr ⟨hprogress, hphase⟩
  obtain ⟨rs, ⟨-, hanswer, hrs⟩, hadvances⟩ := Sensor.Sequence.finish_spec w p hphase pass
  rw [happ] at hanswer
  refine .judged rfl p pass hwaiting hends ?_ hanswer ?_
  · rw [Sensor.Sequence.finish]
    split
    · exact waiting_eq_none rfl (Sensor.Sequence.Phase.noConfusion)
    · rfl
  · rw [Sensor.Sequence.finish]
    split
    · show summary (w.events ++ [Report.verdict p.current pass].map .app) = _
      rw [hevents, List.nil_append, summary_app]
      rfl
    · show summary ((w.events ++ [Report.verdict p.current pass].map .app) ++
        [Report.done _ _].map .app) = _
      rw [hevents, List.nil_append, ← List.map_append, summary_app]
      rfl

theorem acts_runSequence (hcfg : s.link.cfg = (IsoTp.init linkConfig).cfg) :
    Acts s env .runSequence (Sensor.Sequence.perform s env .runSequence) := by
  let w : World Statics Report := { link := s.link, app := s.statics, env := env }
  show Acts s env .runSequence (Sensor.Sequence.runSequence w)
  obtain ⟨q, hq, hrun⟩ | ⟨p, hprogress, hphase, hidle, hrun⟩ |
      ⟨p, pass, hprogress, hphase, hends, hrun⟩ := Sensor.Sequence.runSequence_cases w
  · rw [hrun]
    refine .nothing ?_ rfl rfl
    obtain rfl | ⟨p, hprogress, hphase, rfl⟩ := hq
    · rfl
    · rw [waiting_eq_none hprogress (by rw [hphase]; decide)]
      exact waiting_eq_none rfl (Sensor.Sequence.Phase.noConfusion)
  · rw [hrun]
    exact acts_sendStep hcfg (Sensor.Sequence.look w) rfl rfl rfl rfl hprogress hphase hidle
  · rw [hrun]
    exact acts_finish (Sensor.Sequence.look w) rfl rfl hprogress hphase hends

theorem acts_perform (hcfg : s.link.cfg = (IsoTp.init linkConfig).cfg)
    (i : Sensor.Sequence.Input) : Acts s env i (Sensor.Sequence.perform s env i) := by
  cases i with
  | rxFrame frame dlc =>
      obtain ⟨u, v', o, hu, -, hmirrors⟩ := Sensor.Sequence.mirrors_rxFrame s env frame dlc
      exact acts_mirrored hu hmirrors
  | mainFunction =>
      obtain ⟨u, v', o, hu, -, hmirrors⟩ := Sensor.Sequence.mirrors_mainFunction s env
      exact acts_mirrored hu hmirrors
  | handleKey key => exact acts_handleKey key _ rfl rfl
  | runSequence => exact acts_runSequence hcfg

end Calls

/-! ### A call on the bus below -/

theorem midway_reports {P : IsoTp.Direction → Prop} {reports : Event Empty → Prop}
    {ex ey : List (Event Empty)} {inbox : List Frame} {y : IsoTp.Node} {w : World Unit Empty}
    {w' : World Statics Report} (rs : List Report) (h : Midway P reports ex inbox y ey w)
    (hw : w.events = []) (hlink : w'.link = w.link) (hevents : w'.events = rs.map .app) :
    Midway P reports ex inbox y ey w'.below := by
  apply IsoTp.Midway.congr h hlink
  show below w'.events = w.events
  rw [hevents, IsoTp.below_map_app, hw]

section Midway

variable {s : Sensor.Sequence.State} {env : Env} {inbox rest : List Frame} {y : IsoTp.Node}
  {ex ey : List (Event Empty)}
  (h : IsoTp.Paired IsoTp.Agrees Event.Fine { link := s.link, inbox := inbox } y ex ey)
  (hfits : ∀ st : Step, st.req.length ≤ y.link.cfg.rxBufferSize)
include h hfits

theorem midway_runSequence : Midway IsoTp.Agrees Event.Fine ex inbox y ey
    (Sensor.Sequence.perform s env .runSequence).below := by
  let w : World Statics Report := { link := s.link, app := s.statics, env := env }
  have hstart := h.midway env
  show Midway _ _ _ _ _ _ (Sensor.Sequence.runSequence w).below
  obtain ⟨q, -, hrun⟩ | ⟨p, -, -, -, hrun⟩ | ⟨p, pass, -, hphase, -, hrun⟩ :=
    Sensor.Sequence.runSequence_cases w
  · rw [hrun]
    exact midway_reports [] hstart rfl rfl rfl
  · obtain ⟨timer, -, hbeside, hthrough⟩ :=
      Sensor.Sequence.sendStep_spec (Sensor.Sequence.look w) p
    rw [hrun]
    cases hfunctional : p.current.functional with
    | true =>
        obtain ⟨hlink, hevents⟩ := hbeside hfunctional
        exact midway_reports _ hstart rfl hlink hevents
    | false =>
        obtain ⟨hlink, hevents⟩ := hthrough hfunctional
        let v : World Statics Report :=
          { Sensor.Sequence.look w with
            app := w.app.forget
            events := [.app (.asked p.current)] }
        have hv : Midway IsoTp.Agrees Event.Fine ex inbox y ey v.below :=
          midway_reports [.asked p.current] hstart rfl rfl rfl
        have hsent := IsoTp.Midway.nested Sensor.Sequence.attentive_testerApp IsoTp.kept_agrees hv
          (m := p.current.req) fun _ => hfits p.current
        apply IsoTp.Midway.congr hsent hlink
        exact congrArg below hevents
  · obtain ⟨rs, ⟨hlink, -, hevents⟩, -⟩ :=
      Sensor.Sequence.finish_spec (Sensor.Sequence.look w) p hphase pass
    rw [hrun]
    exact midway_reports _ hstart rfl hlink hevents

theorem midway_call {input : TesterInput} {i : Sensor.Sequence.Input}
    (htake : input.take inbox = some (i, rest))
    (htimely : i = .mainFunction → ¬ s.link.Expires 0 env) :
    Midway IsoTp.Agrees Event.Fine ex rest y ey (Sensor.Sequence.perform s env i).below := by
  have hsilent : ∀ {u v' : World Unit Empty} {o : IsoTp.Outcome} {w : World Statics Report},
      u.events = [] → IsoTp.Mirrors testerApp (nested testerApp 0) u s.statics [] o v' w →
        ∀ m ∈ submissions w.events, m.length ≤ y.link.cfg.rxBufferSize := by
    intro u v' o w hu hmirrors
    obtain ⟨-, -, hevents⟩ := Sensor.Sequence.Mirrors.testerApp hmirrors
    rw [hevents, List.nil_append, IsoTp.submissions_map_lift,
      IsoTp.submissions_performs hmirrors.1, hu]
    exact nofun
  cases input with
  | deliver =>
      cases inbox with
      | nil => cases htake
      | cons frame inbox =>
          cases htake
          obtain ⟨u, v', o, hu, -, hmirrors⟩ :=
            Sensor.Sequence.mirrors_rxFrame s env frame IsoTp.canDl
          exact IsoTp.midway_rxFrame Sensor.Sequence.attentive_testerApp IsoTp.kept_agrees env
            s.statics h rfl (hsilent hu hmirrors)
  | mainFunction =>
      cases htake
      obtain ⟨u, v', o, hu, -, hmirrors⟩ := Sensor.Sequence.mirrors_mainFunction s env
      exact IsoTp.midway_mainFunction Sensor.Sequence.attentive_testerApp IsoTp.kept_agrees env
        s.statics h (htimely rfl) (hsilent hu hmirrors)
  | handleKey key =>
      cases htake
      obtain ⟨rs, ⟨hlink, -, hevents⟩, -⟩ := Sensor.Sequence.handleKey_spec
        ({ link := s.link, app := s.statics, env := env } : World Statics Report) key
      exact midway_reports rs (h.midway env) rfl hlink hevents
  | runSequence =>
      cases htake
      exact midway_runSequence h hfits

end Midway

theorem cfg_perform (s : Sensor.Sequence.State) (env : Env) (i : Sensor.Sequence.Input) :
    (Sensor.Sequence.perform s env i).link.cfg = s.link.cfg := by
  cases i with
  | rxFrame frame dlc =>
      obtain ⟨u, v', o, -, hu, hmirrors⟩ := Sensor.Sequence.mirrors_rxFrame s env frame dlc
      rw [hmirrors.cfg Sensor.Sequence.attentive_testerApp, hu]
  | mainFunction =>
      obtain ⟨u, v', o, -, hu, hmirrors⟩ := Sensor.Sequence.mirrors_mainFunction s env
      rw [hmirrors.cfg Sensor.Sequence.attentive_testerApp, hu]
  | handleKey key =>
      obtain ⟨rs, ⟨hlink, -, -⟩, -⟩ := Sensor.Sequence.handleKey_spec
        ({ link := s.link, app := s.statics, env := env } : World Statics Report) key
      exact congrArg IsoTp.Link.cfg hlink
  | runSequence =>
      let w : World Statics Report := { link := s.link, app := s.statics, env := env }
      show (Sensor.Sequence.runSequence w).link.cfg = _
      obtain ⟨q, -, hrun⟩ | ⟨p, -, -, -, hrun⟩ | ⟨p, pass, -, hphase, -, hrun⟩ :=
        Sensor.Sequence.runSequence_cases w
      · rw [hrun]
        rfl
      · obtain ⟨timer, -, hbeside, hthrough⟩ :=
          Sensor.Sequence.sendStep_spec (Sensor.Sequence.look w) p
        rw [hrun]
        cases hfunctional : p.current.functional with
        | true => exact congrArg IsoTp.Link.cfg (hbeside hfunctional).1
        | false =>
            refine (congrArg IsoTp.Link.cfg (hthrough hfunctional).1).trans ?_
            exact IsoTp.cfg_nested Sensor.Sequence.attentive_testerApp p.current.req _
      · obtain ⟨rs, ⟨hlink, -, -⟩, -⟩ :=
          Sensor.Sequence.finish_spec (Sensor.Sequence.look w) p hphase pass
        rw [hrun]
        exact congrArg IsoTp.Link.cfg hlink

/-! ### What is under way -/

/-- The tester has got the response. Without bytes there is none. -/
def Heard (t : Tester) (response : Bytes) : Prop :=
  if response = [] then t.gotResp = false
  else t.gotResp = true ∧ t.respLen = response.length ∧ t.resp.take response.length = response

theorem Heard.judge {p : Progress} {t : Tester} {response : Bytes} {now : Nat} {pass : Bool}
    (h : Heard t response) (hends : p.Ends t now pass) : pass = deserved p.current response := by
  cases hends with
  | answered hgot =>
      have hne : response ≠ [] := by
        rintro rfl
        cases hgot.symm.trans h
      rw [Heard, if_neg hne] at h
      obtain ⟨-, hlength, hresp⟩ := h
      rw [Sensor.Sequence.Step.judge, deserved]
      cases p.current.expect with
      | none =>
          cases response with
          | nil => exact absurd rfl hne
          | cons b bs => rfl
      | some e =>
          show Sensor.Sequence.begins t e = e.isPrefixOf response
          rw [Bool.eq_iff_iff, Sensor.Sequence.begins, List.isPrefixOf_iff_prefix]
          simp only [Bool.and_eq_true, decide_eq_true_eq, hlength]
          constructor
          · rintro ⟨hle, htake⟩
            rw [← hresp, ← htake]
            apply List.prefix_of_prefix_length_le (List.take_prefix _ _) (List.take_prefix _ _)
            rw [hresp, List.length_take]
            omega
          · intro hfirst
            have hle := hfirst.length_le
            refine ⟨hle, ?_⟩
            rw [← hresp] at hfirst
            have htaken := List.prefix_iff_eq_take.mp hfirst
            rw [List.take_take, Nat.min_eq_left hle] at htaken
            exact htaken.symm
  | givenUp hnot _ =>
      have hnil : response = [] := by
        by_contra hne
        rw [Heard, if_neg hne] at h
        cases hnot.symm.trans h.1
      have hne := p.current.expect_ne
      rw [hnil, deserved]
      cases hexpect : p.current.expect with
      | none => rfl
      | some e =>
          cases e with
          | nil => exact absurd hexpect hne
          | cons b bs => rfl

theorem heard_onTesterResponse {t : Tester} {response : Bytes} (hne : response ≠ [])
    (hfits : response.length ≤ t.resp.length) :
    Heard (Diag.onTesterResponse response .ok t).app response ∧
      (Diag.onTesterResponse response .ok t).app.resp.length = t.resp.length := by
  have hstored : Diag.onTesterResponse response .ok t = _ := if_pos ⟨rfl, hfits⟩
  rw [hstored, Heard, if_neg hne]
  refine ⟨⟨rfl, rfl, ?_⟩, ?_⟩
  · simp [Memory.copy]
  · simp [Memory.copy]
    omega

/-- What has been seen of the exchanges at both ends. -/
structure Books where
  waiting : Option Progress
  answer : Tester
  /-- The functional requests on their way. -/
  beside : List CanFrame
  asked : List Step
  served : List (Request × Bytes)
  /-- The requests that the tester's link has taken, and those that the ECU's has delivered. -/
  taken : List Bytes
  arrived : List Bytes
  /-- The responses that the ECU's link has taken, and those that the tester's has delivered. -/
  given : List Bytes
  got : List Bytes

def books (n : State) (tr : List BenchEvent) : Books where
  waiting := waiting n.sensor.statics
  answer := n.sensor.statics.answer
  beside := functionals n.toControl
  asked := asked tr
  served := served tr
  taken := submissions (sensorEvents tr)
  arrived := deliveries (controlEvents tr)
  given := submissions (controlEvents tr)
  got := deliveries (sensorEvents tr)

/-- What a call at the Sensor ECU does is entered. -/
def entered (b : Books) (a : Statics) (S : Summary) : Books :=
  { b with
    waiting := waiting a
    answer := a.answer
    beside := b.beside ++ S.functionals
    asked := b.asked ++ S.asked
    taken := b.taken ++ S.submitted
    got := b.got ++ S.delivered }

/-- At most one exchange is under way. -/
inductive Ongoing (b : Books) (past : List Exchange) : Prop
  | quiet (hwaiting : b.waiting = none)
      (hasked : b.asked = past.map Exchange.step) (hserved : b.served = past.map Exchange.served)
      (hforth : b.arrived = b.taken) (hback : b.got = b.given) (hbeside : b.beside = [])
  | asking {p : Progress} (hwaiting : b.waiting = some p)
      (hasked : b.asked = past.map Exchange.step ++ [p.current])
      (hserved : b.served = past.map Exchange.served)
      (hforth : p.current.functional = false ∧ b.beside = [] ∧
          b.arrived ++ [p.current.req] = b.taken ∨
        p.current.functional = true ∧ b.beside = [singleFrame p.current] ∧ b.arrived = b.taken)
      (hback : b.got = b.given) (hgot : b.answer.gotResp = false)
  | serving {p : Progress} (x : Exchange) (hstep : x.step = p.current)
      (hwaiting : b.waiting = some p)
      (hasked : b.asked = past.map Exchange.step ++ [p.current])
      (hserved : b.served = past.map Exchange.served ++ [x.served])
      (hforth : b.arrived = b.taken)
      (hback : x.response ≠ [] ∧ b.answer.gotResp = false ∧ b.got ++ [x.response] = b.given ∨
        Heard b.answer x.response ∧ b.got = b.given)
      (hbeside : b.beside = [])

/-- What holds between two steps. -/
structure Kept (n : State) (tr : List BenchEvent) (past : List Exchange) : Prop where
  linked : n.bus.Linked linkConfig (busTrace tr)
  waiting : n.bus.Waiting (busTrace tr)
  buffer : n.sensor.statics.answer.resp.length = Sensor.Sequence.testerBufferSize
  verdicts : verdicts tr = past.map Exchange.verdict
  ongoing : Ongoing (books n tr) past

theorem kept_init (time : Nat) : Kept (.init time) [] [] where
  linked := Bus.linked_init linkConfig time
  waiting := ⟨Nat.zero_le _, fun _ => rfl, rfl⟩
  buffer := List.length_replicate
  verdicts := rfl
  ongoing := .quiet rfl rfl rfl rfl rfl rfl

section Linked

variable {n : State} {tr : List BenchEvent} {past : List Exchange}

theorem bus_coupled (h : n.bus.Linked linkConfig (busTrace tr)) :
    Coupled n.bus.tester n.bus.node (below (sensorEvents tr)) (below (controlEvents tr)) := by
  have hcoupled := h.coupled
  rw [testerEvents_busTrace, ecuEvents_busTrace] at hcoupled
  exact hcoupled

theorem settled (h : n.bus.Linked linkConfig (busTrace tr))
    (hforth : (books n tr).arrived = (books n tr).taken)
    (hback : (books n tr).got = (books n tr).given) : n.bus.Settled (busTrace tr) := by
  refine ⟨?_, ?_⟩
  · rw [ecuEvents_busTrace, testerEvents_busTrace, IsoTp.submissions_below]
    exact hforth
  · have hall : deliveries (below (sensorEvents tr)) = submissions (below (controlEvents tr)) := by
      rw [IsoTp.deliveries_below, IsoTp.submissions_below]
      exact hback
    exact ((bus_coupled h).back.at_rest hall).1

theorem delivered (h : n.bus.Linked linkConfig (busTrace tr)) (hrest : n.AtRest) :
    (books n tr).arrived = (books n tr).taken ∧ (books n tr).got = (books n tr).given ∧
      (books n tr).beside = [] := by
  obtain ⟨hidle, hidle', hempty, hempty'⟩ := hrest
  have hnone : n.toControl = [] := List.isEmpty_iff.mp hempty'
  have hphysicals : physicals n.toControl = [] := by
    rw [hnone]
    rfl
  have hfunctionals : functionals n.toControl = [] := by
    rw [hnone]
    rfl
  have hdelivered := h.delivered ⟨hidle, hidle', hempty, hphysicals⟩
  rw [testerEvents_busTrace, ecuEvents_busTrace, IsoTp.submissions_below,
    IsoTp.deliveries_below] at hdelivered
  exact ⟨hdelivered.1, hdelivered.2, hfunctionals⟩

theorem mem_transcript_of_mem_served {es : List Entry} {r : Request} {response : Bytes}
    (h : (r, response) ∈ es.filterMap Entry.served) : Entry.request r response ∈ es := by
  obtain ⟨e, he, hserved⟩ := List.mem_filterMap.mp h
  cases e with
  | request r' response' =>
      cases hserved
      exact he
  | _ => cases hserved

/-- The server's answer to a request of a step is short. -/
theorem length_response {signals : Signals} {dtc : Dtc.Manager} {r : Request} {response : Bytes}
    {st : Step} (htable : dtc.table = Diag.dtcTable) (hanswer : Answer signals dtc r response)
    (hbytes : r.bytes = st.req) : response.length ≤ Sensor.Sequence.testerBufferSize := by
  have hlength := hanswer.length_le htable
  have hfits := st.req_fits
  rw [hbytes] at hlength
  exact Nat.le_trans hlength (by simp only [Sensor.Sequence.testerBufferSize]; omega)

theorem req_ne_nil {r : Request} {st : Step} (hbytes : r.bytes = st.req) : r.bytes ≠ [] := by
  rw [hbytes]
  exact List.length_pos_iff.mp st.req_ne

/-- The response of an exchange is one that the server gives. -/
theorem answered (h : n.bus.Linked linkConfig (busTrace tr)) {x : Exchange}
    (hx : x.served ∈ served tr) : ∃ signals, ∃ dtc : Dtc.Manager, dtc.table = Diag.dtcTable ∧
      Answer signals dtc x.request x.response := by
  refine h.answered x.request x.response ?_ (req_ne_nil x.bytes_eq)
  rw [Diag.ecuTranscript, ecuEvents_busTrace]
  exact mem_transcript_of_mem_served hx

theorem Kept.short (h : Kept n tr past) :
    ∀ x ∈ (books n tr).served, x.2.length ≤ Sensor.Sequence.testerBufferSize := by
  intro x hx
  have hexchange : ∃ e : Exchange, e.served = x := by
    have hpast : ∀ {xs : List (Request × Bytes)}, xs = past.map Exchange.served → x ∈ xs →
        ∃ e : Exchange, e.served = x := by
      rintro xs rfl hmem
      obtain ⟨e, -, he⟩ := List.mem_map.mp hmem
      exact ⟨e, he⟩
    cases h.ongoing with
    | quiet _ _ hserved | asking _ _ hserved => exact hpast hserved hx
    | serving e _ _ _ hserved =>
        rw [hserved] at hx
        obtain hx | hx := List.mem_append.mp hx
        · exact hpast rfl hx
        · exact ⟨e, (List.mem_singleton.mp hx).symm⟩
  obtain ⟨e, rfl⟩ := hexchange
  obtain ⟨signals, dtc, htable, hanswer⟩ := answered h.linked hx
  exact length_response htable hanswer e.bytes_eq

/-! ### The tester acts -/

section Tester

variable {env : Env} {input : TesterInput} {i : Sensor.Sequence.Input} {rest : List Frame}

theorem linked_call (h : n.bus.Linked linkConfig (busTrace tr))
    (htake : input.take n.toSensor = some (i, rest))
    (htimely : i = .mainFunction → ¬ n.sensor.link.Expires 0 env) :
    let w := Sensor.Sequence.perform n.sensor env i
    let n' : State := { n with
      sensor := Sensor.Sequence.leave w
      toSensor := rest
      toControl := n.toControl ++ wired w.events }
    n'.bus.Linked linkConfig (busTrace tr ++ (below w.events).map .inl) := by
  intro w n'
  have hfits : ∀ st : Step, st.req.length ≤ n.control.link.cfg.rxBufferSize := by
    intro st
    have hsize : n.control.link.cfg.rxBufferSize = Diag.diagBufferSize := by
      rw [show n.control.link.cfg = (IsoTp.init Diag.linkConfig).cfg from h.diag]
      exact List.length_replicate
    rw [hsize]
    exact Nat.le_trans st.req_fits (by decide)
  have hcoupled : Midway IsoTp.Agrees Event.Fine (below (sensorEvents tr)) rest n.bus.node
      (below (controlEvents tr)) w.below := midway_call (bus_coupled h) hfits htake htimely
  have hcfg : w.link.cfg = n.sensor.link.cfg := cfg_perform n.sensor env i
  refine Bus.Linked.tester_moved h (x := { link := w.link, inbox := rest }) ?_ hcfg
  show Coupled _ { link := n.control.link, inbox := physicals (n.toControl ++ wired w.events) } _ _
  rw [testerEvents_busTrace, ecuEvents_busTrace, physicals_append, physicals_wired,
    ← IsoTp.sentFrames_below]
  exact hcoupled

/-- What the tester reads is the next of the responses. -/
theorem prefix_call (h : n.bus.Linked linkConfig (busTrace tr))
    (htake : input.take n.toSensor = some (i, rest))
    (htimely : i = .mainFunction → ¬ n.sensor.link.Expires 0 env) :
    (books n tr).got ++ (summary (Sensor.Sequence.perform n.sensor env i).events).delivered <+:
      (books n tr).given := by
  have hfirst := (linked_call h htake htimely).coupled.back.delivered_prefix
  obtain ⟨hown, hother⟩ := Diag.events_tester (below (Sensor.Sequence.perform n.sensor env i).events)
  have hgot : deliveries (testerEvents (busTrace tr ++
      (below (Sensor.Sequence.perform n.sensor env i).events).map .inl)) =
        (books n tr).got ++ (summary (Sensor.Sequence.perform n.sensor env i).events).delivered := by
    rw [Diag.testerEvents_append, hown, testerEvents_busTrace, IsoTp.deliveries_append,
      IsoTp.deliveries_below, IsoTp.deliveries_below]
    rfl
  have hgiven : submissions (below (ecuEvents (busTrace tr ++
      (below (Sensor.Sequence.perform n.sensor env i).events).map .inl))) =
        (books n tr).given := by
    rw [Diag.ecuEvents_append, hother, List.append_nil, ecuEvents_busTrace, IsoTp.submissions_below]
    rfl
  rw [← hgot, ← hgiven]
  exact hfirst

theorem books_call (rest : List Frame) (w : World Statics Report) :
    books { n with
        sensor := Sensor.Sequence.leave w
        toSensor := rest
        toControl := n.toControl ++ wired w.events } (tr ++ w.events.map .inl) =
      entered (books n tr) w.app (summary w.events) := by
  obtain ⟨hown, hother, -⟩ := events_sensor w.events
  rw [books, sensorEvents_append, controlEvents_append, asked, served, sensorEvents_append,
    controlEvents_append, hown, hother, List.append_nil, functionals_append, functionals_wired,
    IsoTp.records_append, List.filterMap_append, IsoTp.submissions_append, IsoTp.deliveries_append]
  rfl

/-- The tester hears the response it waits for. -/
theorem Ongoing.hears {b : Books} (h : Ongoing b past) {data : Bytes}
    (hbuffer : b.answer.resp.length = Sensor.Sequence.testerBufferSize)
    (hshort : ∀ x ∈ b.served, x.2.length ≤ Sensor.Sequence.testerBufferSize)
    (hnext : b.got ++ [data] <+: b.given) :
    (Diag.onTesterResponse data .ok b.answer).app.resp.length = Sensor.Sequence.testerBufferSize ∧
      Ongoing { b with
        answer := (Diag.onTesterResponse data .ok b.answer).app
        got := b.got ++ [data] } past := by
  have hlonger := hnext.length_le
  rw [List.length_append, List.length_singleton] at hlonger
  have hmissing : b.got ≠ b.given := by
    intro hback
    rw [hback] at hlonger
    omega
  cases h with
  | quiet _ _ _ _ hback | asking _ _ _ _ hback => exact absurd hback hmissing
  | serving x hstep hwaiting hasked hserved hforth hback hbeside =>
      obtain ⟨hne, -, hback⟩ | ⟨-, hback⟩ := hback
      · have hdata : data = x.response := by
          rw [← hback, List.prefix_append_right_inj] at hnext
          exact List.singleton_inj.mp (hnext.eq_of_length rfl)
        subst hdata
        have hfits : x.response.length ≤ b.answer.resp.length := by
          rw [hbuffer]
          apply hshort x.served
          rw [hserved]
          exact List.mem_append_right _ List.mem_cons_self
        obtain ⟨hheard, hlength⟩ := heard_onTesterResponse hne hfits
        refine ⟨hlength.trans hbuffer, ?_⟩
        exact .serving x hstep hwaiting hasked hserved hforth (.inr ⟨hheard, hback⟩) hbeside
      · exact absurd hback hmissing

theorem Ongoing.asksBeside {b : Books} (h : Ongoing b past) (hnone : b.waiting = none) {p : Progress}
    (hfunctional : p.current.functional = true) :
    Ongoing { b with
      waiting := some p
      answer := { b.answer with respLen := 0, gotResp := false }
      beside := b.beside ++ [singleFrame p.current]
      asked := b.asked ++ [p.current] } past := by
  cases h with
  | asking hp | serving _ _ hp => cases hp.symm.trans hnone
  | quiet _ hasked hserved hforth hback hbeside =>
      refine .asking rfl ?_ hserved (.inr ⟨hfunctional, ?_, hforth⟩) hback rfl
      · rw [hasked]
      · rw [hbeside]
        rfl

theorem Ongoing.asksThrough {b : Books} (h : Ongoing b past) (hnone : b.waiting = none) {p : Progress}
    (hphysical : p.current.functional = false) :
    Ongoing { b with
      waiting := some p
      answer := { b.answer with respLen := 0, gotResp := false }
      asked := b.asked ++ [p.current]
      taken := b.taken ++ [p.current.req] } past := by
  cases h with
  | asking hp | serving _ _ hp => cases hp.symm.trans hnone
  | quiet _ hasked hserved hforth hback hbeside =>
      refine .asking rfl ?_ hserved (.inl ⟨hphysical, hbeside, ?_⟩) hback rfl
      · rw [hasked]
      · rw [hforth]

theorem Ongoing.judges {b : Books} (h : Ongoing b past) {p : Progress} {now : Nat} {pass : Bool}
    (hwaiting : b.waiting = some p) (hends : p.Ends b.answer now pass)
    (hrest : b.answer.gotResp = false → b.arrived = b.taken ∧ b.got = b.given ∧ b.beside = []) :
    ∃ x : Exchange, x.verdict = (p.current, pass) ∧
      Ongoing { b with waiting := none } (past ++ [x]) := by
  have hlength : ∀ {xs : List Bytes} {y : Bytes}, xs ++ [y] ≠ xs := by
    intro xs y hsame
    have hlength := congrArg List.length hsame
    rw [List.length_append, List.length_singleton] at hlength
    omega
  cases h with
  | quiet hquiet => cases hquiet.symm.trans hwaiting
  | asking hp _ _ hforth _ hgot =>
      -- a request on its way would not be given up
      obtain rfl := Option.some.inj (hp.symm.trans hwaiting)
      obtain ⟨harrived, -, hbeside⟩ := hrest hgot
      obtain ⟨-, -, hmissing⟩ | ⟨-, hway, -⟩ := hforth
      · exact absurd (hmissing.trans harrived.symm) hlength
      · cases hway.symm.trans hbeside
  | serving x hstep hp hasked hserved hforth hback hbeside =>
      obtain rfl := Option.some.inj (hp.symm.trans hwaiting)
      obtain ⟨-, hgot, hmissing⟩ | ⟨hheard, hback⟩ := hback
      · -- nor would one whose response is
        obtain ⟨-, hall, -⟩ := hrest hgot
        exact absurd (hmissing.trans hall.symm) hlength
      · refine ⟨x, ?_, .quiet rfl ?_ ?_ hforth hback hbeside⟩
        · rw [Exchange.verdict, hstep, hheard.judge hends]
        · rw [List.map_append, List.map_singleton, hstep, ← hasked]
        · rw [List.map_append, List.map_singleton]
          exact hserved

/-- The exchange under way after a call. -/
theorem Ongoing.call {b : Books} (h : Ongoing b past) {s : Sensor.Sequence.State}
    {w : World Statics Report} (hacts : Acts s env i w) (hwaiting : b.waiting = waiting s.statics)
    (hanswer : b.answer = s.statics.answer)
    (hbuffer : b.answer.resp.length = Sensor.Sequence.testerBufferSize)
    (hshort : ∀ x ∈ b.served, x.2.length ≤ Sensor.Sequence.testerBufferSize)
    (hnext : b.got ++ (summary w.events).delivered <+: b.given)
    (hdriver : i = .runSequence → ∀ p, s.statics.progress = some p → p.phase = .send →
      p.current.functional = true → env.driver 0 = true)
    (hgiven : i = .runSequence → ∀ p, waiting s.statics = some p → b.answer.gotResp = false →
      p.current.waitMs ≤ elapsed (env.clock 0 % 2 ^ 32) p.timer →
        b.arrived = b.taken ∧ b.got = b.given ∧ b.beside = []) :
    w.app.answer.resp.length = Sensor.Sequence.testerBufferSize ∧
      ∃ finished : List Exchange,
        (summary w.events).verdicts = finished.map Exchange.verdict ∧
          Ongoing (entered b w.app (summary w.events)) (past ++ finished) := by
  cases hacts with
  | nothing hsame hstays hsummary =>
      have hafter : entered b w.app (summary w.events) = b := by
        simp [entered, hsummary, hsame, hstays, ← hwaiting, ← hanswer]
      rw [hafter, hsummary, hstays, ← hanswer]
      exact ⟨hbuffer, [], rfl, by rwa [List.append_nil]⟩
  | heard data hsame hstored hsummary =>
      rw [← hanswer] at hstored
      have hafter : entered b w.app (summary w.events) =
          { b with
            answer := (Diag.onTesterResponse data .ok b.answer).app
            got := b.got ++ [data] } := by
        simp [entered, hsummary, hsame, hstored, ← hwaiting]
      rw [hsummary] at hnext
      obtain ⟨hkept, hongoing⟩ := h.hears hbuffer hshort hnext
      rw [hafter, hsummary, hstored]
      exact ⟨hkept, [], rfl, by rwa [List.append_nil]⟩
  | asked hcall p hphase hprogress timer hasks hforgets hsummary =>
      let q : Progress := { p with phase := .wait, timer := timer }
      have hnone : b.waiting = none :=
        hwaiting.trans (waiting_eq_none hprogress (by rw [hphase]; decide))
      rw [← hanswer] at hforgets
      rw [hforgets]
      refine ⟨hbuffer, [], ?_, ?_⟩
      · rw [hsummary]
        split <;> rfl
      rw [List.append_nil]
      cases hfunctional : p.current.functional with
      | true =>
          have hafter : entered b w.app (summary w.events) =
              { b with
                waiting := some q
                answer := { b.answer with respLen := 0, gotResp := false }
                beside := b.beside ++ [singleFrame q.current]
                asked := b.asked ++ [q.current] } := by
            rw [hfunctional, hdriver hcall p hprogress hphase hfunctional] at hsummary
            simp [entered, hsummary, hasks, hforgets, q, Progress.current]
          rw [hafter]
          exact h.asksBeside hnone hfunctional
      | false =>
          have hafter : entered b w.app (summary w.events) =
              { b with
                waiting := some q
                answer := { b.answer with respLen := 0, gotResp := false }
                asked := b.asked ++ [q.current]
                taken := b.taken ++ [q.current.req] } := by
            rw [hfunctional] at hsummary
            simp [entered, hsummary, hasks, hforgets, q, Progress.current]
          rw [hafter]
          exact h.asksThrough hnone hfunctional
  | judged hcall p pass hp hends hnone hstays hsummary =>
      rw [← hanswer] at hends hstays
      have hafter : entered b w.app (summary w.events) = { b with waiting := none } := by
        simp [entered, hsummary, hnone, hstays]
      obtain ⟨x, hverdict, hongoing⟩ := h.judges (hwaiting.trans hp) hends fun hgot => by
        cases hends with
        | answered htrue => cases htrue.symm.trans hgot
        | givenUp _ hlate => exact hgiven hcall p hp hgot hlate
      rw [hafter, hsummary, hstays]
      exact ⟨hbuffer, [x], by rw [List.map_singleton, hverdict], hongoing⟩

/-- The call that is made is as fair as the step. -/
theorem fair_take (hfair : n.Fair (.sensor env input))
    (htake : input.take n.toSensor = some (i, rest)) :
    (i = .mainFunction → ¬ n.sensor.link.Expires 0 env) ∧
      (i = .runSequence → ∀ p, n.sensor.statics.progress = some p → p.phase = .send →
        p.current.functional = true → env.driver 0 = true) ∧
      (i = .runSequence → ∀ p, n.sensor.statics.progress = some p → p.phase = .wait →
        n.sensor.statics.answer.gotResp = false →
          p.current.waitMs ≤ elapsed (env.clock 0 % 2 ^ 32) p.timer → n.AtRest) := by
  cases input with
  | deliver =>
      cases hinbox : n.toSensor with
      | nil =>
          rw [hinbox] at htake
          cases htake
      | cons frame inbox =>
          rw [hinbox] at htake
          cases htake
          exact ⟨nofun, nofun, nofun⟩
  | handleKey key =>
      cases htake
      exact ⟨nofun, nofun, nofun⟩
  | mainFunction =>
      cases htake
      exact ⟨fun _ => hfair, nofun, nofun⟩
  | runSequence =>
      cases htake
      exact ⟨nofun, fun _ p hp => (hfair p hp).1, fun _ p hp => (hfair p hp).2⟩

theorem Kept.call (h : Kept n tr past) (hfair : n.Fair (.sensor env input)) :
    ∃ past', Kept (n.step (.sensor env input)).1 (tr ++ (n.step (.sensor env input)).2) past' := by
  rw [State.step]
  cases htake : input.take n.toSensor with
  | none =>
      rw [List.append_nil]
      exact ⟨past, h⟩
  | some taken =>
      obtain ⟨i, rest⟩ := taken
      let w := Sensor.Sequence.perform n.sensor env i
      let n' : State := { n with
        sensor := Sensor.Sequence.leave w
        toSensor := rest
        toControl := n.toControl ++ wired w.events }
      show ∃ past', Kept n' (tr ++ w.events.map .inl) past'
      obtain ⟨htimely, hdriver, hrest⟩ := fair_take hfair htake
      have hacts : Acts n.sensor env i w := acts_perform h.linked.tester i
      have hlinked := linked_call h.linked htake htimely
      obtain ⟨hbuffer, finished, hverdicts, hongoing⟩ := h.ongoing.call hacts rfl rfl h.buffer
        h.short
        (prefix_call h.linked htake htimely) hdriver fun hcall p hp hgot hlate =>
          delivered h.linked (hrest hcall p (waiting_eq_some.mp hp).1 (waiting_eq_some.mp hp).2
            hgot hlate)
      obtain ⟨hown, -, hbus⟩ := events_sensor w.events
      refine ⟨past ++ finished, ?_, ?_, hbuffer, ?_, ?_⟩
      · rw [busTrace_append, hbus]
        exact hlinked
      · rw [busTrace_append, hbus]
        apply h.waiting.tester_moved
        rw [IsoTp.submissions_below]
        have hsubmitted : submissions w.events = (summary w.events).submitted := rfl
        cases hacts with
        | nothing _ _ hsummary | heard _ _ _ hsummary | judged _ _ _ _ _ _ _ hsummary =>
            rw [hsubmitted, hsummary]
            exact .inl rfl
        | asked _ p hphase hprogress _ _ _ hsummary =>
            rw [hsubmitted, hsummary]
            refine .inr ⟨?_, ?_⟩
            · have hnone := waiting_eq_none hprogress (by rw [hphase]; decide)
              cases h.ongoing with
              | quiet _ _ _ hforth hback => exact settled h.linked hforth hback
              | asking hp => cases hp.symm.trans hnone
              | serving _ _ hp => cases hp.symm.trans hnone
            · split
              · exact Nat.zero_le 1
              · exact Nat.le_refl 1
      · show (records (sensorEvents (tr ++ w.events.map .inl))).filterMap verdict? = _
        rw [sensorEvents_append, hown, IsoTp.records_append, List.filterMap_append,
          List.map_append, ← hverdicts]
        exact congrArg (· ++ _) h.verdicts
      · rw [books_call]
        exact hongoing

end Tester

/-! ### The Control ECU acts -/

section Control

variable {env : Env} {signals : Signals} {input : EcuInput} {i : Diag.Input} {rest : List Wired}

/-- A functional request arrives as it was sent. -/
theorem arrival_singleFrame (s : Diag.State) (st : Step) :
    s.arrival ⟨env, signals, .onFrame (singleFrame st)⟩ =
      some { session := s.ecu.server.session, bytes := st.req, functional := true } := by
  have hpos := st.req_ne
  have hlen := st.req_fits
  have hframe : singleFrame st =
      .full canIdUdsFunctional (IsoTp.singleFrame st.req.length st.req) := by
    have hpci : IsoTp.pci IsoTp.pciTypeSf st.req.length = UInt8.ofNat st.req.length := by
      simp [IsoTp.pci, IsoTp.pciTypeSf]
    rw [singleFrame, IsoTp.singleFrame, hpci]
  have htype : (IsoTp.singleFrame st.req.length st.req).pciType = 0 :=
    Frame.pciType_padded (by decide) (by omega) _
  have hlow : (IsoTp.singleFrame st.req.length st.req).pciLow = st.req.length :=
    Frame.pciLow_padded (by decide) (by omega) _
  have hrequest : Diag.functionalRequest (singleFrame st) = some st.req := by
    have hgood : 0 < st.req.length ∧ st.req.length < 8 := by omega
    rw [hframe, Diag.functionalRequest]
    simp only [CanFrame.full, htype, hlow, true_and]
    rw [if_pos hgood, IsoTp.bytes_singleFrame hlen]
    simp [Memory.slice]
  have harrival : ∀ frame : CanFrame, frame.id = canIdUdsFunctional →
      s.arrival ⟨env, signals, .onFrame frame⟩ = (Diag.functionalRequest frame).map fun req =>
        { session := s.ecu.server.session, bytes := req, functional := true } := by
    intro frame hid
    have hother : frame.id ≠ canIdUdsReqControl := by
      rw [hid]
      decide
    exact (if_neg hother).trans (if_pos hid)
  rw [harrival _ rfl, hrequest]
  rfl

/-- No other frame brings a functional request. -/
theorem physical_of_arrival {s : Diag.State} {frame : CanFrame} {r : Request}
    (hid : frame.id ≠ canIdUdsFunctional)
    (harrival : s.arrival ⟨env, signals, .onFrame frame⟩ = some r) : r.functional = false := by
  cases Diag.receives signals s env frame with
  | physical _ _ hsome =>
      obtain ⟨m, -, rfl⟩ := Option.map_eq_some_iff.mp (hsome.symm.trans harrival)
      rfl
  | functional _ hfunctional => exact absurd hfunctional hid
  | ignored _ hnone => cases hnone.symm.trans harrival

theorem bus_take (hfair : n.Fair (.control env signals input))
    (htake : takeWired n.toControl input = some (i, rest))
    (hids : ∀ frame ∈ functionals n.toControl, frame.id = canIdUdsFunctional) :
    (i = .mainFunction → ¬ n.control.link.Expires 0 env) ∧
      ∃ input' : EcuInput, input'.take (physicals n.toControl) = some (i, physicals rest) ∧
        (functionals n.toControl = functionals rest ∧
            (∀ r, n.control.arrival ⟨env, signals, i⟩ = some r → r.functional = false) ∨
          ∃ frame, functionals n.toControl = frame :: functionals rest ∧ i = .onFrame frame) := by
  cases input with
  | deliver =>
      cases hinbox : n.toControl with
      | nil =>
          rw [hinbox] at htake
          cases htake
      | cons frame inbox =>
          rw [hinbox] at htake hids
          cases htake
          refine ⟨nofun, ?_⟩
          cases frame with
          | physical frame =>
              have hid : (Wired.physical frame).canFrame.id ≠ canIdUdsFunctional :=
                show canIdUdsReqControl ≠ canIdUdsFunctional by decide
              exact ⟨.deliver, rfl, .inl ⟨rfl, fun r hr => physical_of_arrival hid hr⟩⟩
          | functional frame =>
              have hid : frame.id = canIdUdsFunctional := hids frame List.mem_cons_self
              refine ⟨.other frame ?_, rfl, .inr ⟨frame, rfl, rfl⟩⟩
              rw [hid]
              decide
  | other frame hid =>
      cases htake
      exact ⟨nofun, .other frame hid, rfl, .inl ⟨rfl, fun r hr => physical_of_arrival hfair hr⟩⟩
  | mainFunction =>
      cases htake
      exact ⟨fun _ => hfair, .mainFunction, rfl, .inl ⟨rfl, nofun⟩⟩
  | reportFault index failed =>
      cases htake
      exact ⟨nofun, .reportFault index failed, rfl, .inl ⟨rfl, nofun⟩⟩

theorem Ongoing.ids {b : Books} (h : Ongoing b past) :
    ∀ frame ∈ b.beside, frame.id = canIdUdsFunctional := by
  cases h with
  | quiet _ _ _ _ _ hbeside | serving _ _ _ _ _ _ _ hbeside =>
      rw [hbeside]
      exact nofun
  | asking _ _ _ hforth =>
      obtain ⟨-, hbeside, -⟩ | ⟨-, hbeside, -⟩ := hforth
      · rw [hbeside]
        exact nofun
      · rw [hbeside]
        intro frame hframe
        rw [List.mem_singleton.mp hframe]
        rfl

/-- A request that arrives is the one that is asked. -/
theorem Ongoing.arrival {b : Books} (h : Ongoing b past) {arrival : Option Request}
    {beside : List CanFrame} {s : Diag.State}
    (harrival : s.arrival ⟨env, signals, i⟩ = arrival)
    (hfirst : b.arrived ++ (arrival.bind Request.physical).toList <+: b.taken)
    (hway : b.beside = beside ∧ (∀ r, arrival = some r → r.functional = false) ∨
      ∃ frame, b.beside = frame :: beside ∧ i = .onFrame frame) :
    (arrival = none ∧ b.beside = beside) ∨
      ∃ p r, arrival = some r ∧ r.bytes = p.current.req ∧ r.functional = p.current.functional ∧
        b.waiting = some p ∧ b.asked = past.map Exchange.step ++ [p.current] ∧
        b.served = past.map Exchange.served ∧ b.answer.gotResp = false ∧ b.got = b.given ∧
        beside = [] ∧ b.arrived ++ r.physical.toList = b.taken := by
  have hphysical : ∀ r, arrival = some r → r.functional = false →
      (arrival.bind Request.physical).toList = [r.bytes] := by
    intro r hr hfunctional
    rw [hr, Option.bind_some, Request.physical, hfunctional]
    rfl
  have hlonger : ∀ r, arrival = some r → r.functional = false → b.arrived ≠ b.taken := by
    intro r hr hfunctional hall
    rw [hphysical r hr hfunctional] at hfirst
    have hlength := hfirst.length_le
    rw [hall, List.length_append, List.length_singleton] at hlength
    omega
  cases h with
  | quiet _ _ _ hforth _ hbeside | serving _ _ _ _ _ hforth _ hbeside =>
      obtain ⟨hsame, hnot⟩ | ⟨frame, hframe, -⟩ := hway
      · cases harrives : arrival with
        | none => exact .inl ⟨rfl, hsame⟩
        | some r => exact absurd hforth (hlonger r harrives (hnot r harrives))
      · cases hbeside.symm.trans hframe
  | @asking p hp hasked hserved hforth hback hgot =>
      obtain ⟨hfunctional, hbeside, htaken⟩ | ⟨hfunctional, hbeside, htaken⟩ := hforth
      · obtain ⟨hsame, hnot⟩ | ⟨frame, hframe, -⟩ := hway
        · cases harrives : arrival with
          | none => exact .inl ⟨rfl, hsame⟩
          | some r =>
              have hr := hnot r harrives
              rw [hphysical r harrives hr, ← htaken, List.prefix_append_right_inj] at hfirst
              have hbytes := List.singleton_inj.mp (hfirst.eq_of_length rfl)
              refine .inr ⟨p, r, rfl, hbytes, hr.trans hfunctional.symm, hp, hasked, hserved, hgot,
                hback, hsame.symm.trans hbeside, ?_⟩
              rw [← htaken, ← hbytes, Request.physical, hr]
              rfl
        · cases hbeside.symm.trans hframe
      · obtain ⟨hsame, hnot⟩ | ⟨frame, hframe, hcall⟩ := hway
        · cases harrives : arrival with
          | none => exact .inl ⟨rfl, hsame⟩
          | some r => exact absurd htaken (hlonger r harrives (hnot r harrives))
        · obtain ⟨rfl, hbeside⟩ := List.cons.inj (hbeside.symm.trans hframe)
          rw [hcall, arrival_singleFrame] at harrival
          refine .inr ⟨p, _, harrival.symm, rfl, hfunctional.symm, hp, hasked, hserved, hgot, hback,
            hbeside.symm, ?_⟩
          exact (List.append_nil _).trans htaken

theorem books_serve (c : Diag.State) (toSensor : List Frame) (rest : List Wired)
    (es : List (Event Record)) :
    books { n with control := c, toSensor := toSensor, toControl := rest } (tr ++ es.map .inr) =
      { books n tr with
        beside := functionals rest
        served := (books n tr).served ++ (Diag.transcript es).filterMap Entry.served
        arrived := (books n tr).arrived ++ deliveries es
        given := (books n tr).given ++ submissions es } := by
  obtain ⟨hother, hown, -⟩ := events_control es
  rw [books, sensorEvents_append, controlEvents_append, asked, served, sensorEvents_append,
    controlEvents_append, hown, hother, List.append_nil, Diag.transcript_append,
    List.filterMap_append, IsoTp.submissions_append, IsoTp.deliveries_append]
  rfl

theorem mem_offered_of_mem_passed {es : List Entry} {m : Bytes}
    (hm : m ∈ es.filterMap Entry.passed) : m ∈ es.filterMap Entry.offered := by
  obtain ⟨e, he, hpassed⟩ := List.mem_filterMap.mp hm
  refine List.mem_filterMap.mpr ⟨e, he, ?_⟩
  cases e with
  | transmit message result => cases result <;> first | exact hpassed | cases hpassed
  | _ => cases hpassed

variable (env signals i) in
/-- What the server gets and gives in a call. -/
theorem serves {c : Diag.State} (hready : c.Ready) :
    let log := Diag.transcript (Diag.perform c ⟨env, signals, i⟩).events
    log.filterMap Entry.offered = log.filterMap Entry.response ∧
      (c.arrival ⟨env, signals, i⟩ = none →
        log.filterMap Entry.served = [] ∧ log.filterMap Entry.response = []) ∧
      ∀ r, c.arrival ⟨env, signals, i⟩ = some r → ∃ response,
        log.filterMap Entry.served = [(r, response)] ∧
          log.filterMap Entry.response = if response = [] then [] else [response] := by
  obtain ⟨-, hturn⟩ := Diag.turn_step hready ⟨env, signals, i⟩
  exact ⟨hturn.offered, hturn.served⟩

section Serve

variable (h : Kept n tr past)
  (hcases : (n.control.arrival ⟨env, signals, i⟩ = none ∧ (books n tr).beside = functionals rest) ∨
    ∃ p r, n.control.arrival ⟨env, signals, i⟩ = some r ∧ r.bytes = p.current.req ∧
      r.functional = p.current.functional ∧ (books n tr).waiting = some p ∧
      (books n tr).asked = past.map Exchange.step ++ [p.current] ∧
      (books n tr).served = past.map Exchange.served ∧ (books n tr).answer.gotResp = false ∧
      (books n tr).got = (books n tr).given ∧ functionals rest = [] ∧
      (books n tr).arrived ++ r.physical.toList = (books n tr).taken)
include h hcases

theorem fits_serve : ∀ m ∈ submissions (Diag.perform n.control ⟨env, signals, i⟩).events,
    m.length ≤ n.sensor.link.cfg.rxBufferSize := by
  obtain ⟨hoffers, hnothing, hanswers⟩ := serves env signals i
    (c := n.control) h.linked.ready
  have hsize : n.sensor.link.cfg.rxBufferSize = Sensor.Sequence.testerBufferSize := by
    rw [show n.sensor.link.cfg = (IsoTp.init linkConfig).cfg from h.linked.tester]
    exact List.length_replicate
  intro m hm
  rw [Diag.submissions_eq_passed] at hm
  have hoffered := mem_offered_of_mem_passed hm
  rw [hoffers] at hoffered
  rw [hsize]
  obtain ⟨hnone, -⟩ | ⟨p, r, hr, hbytes, -⟩ := hcases
  · rw [(hnothing hnone).2] at hoffered
    cases hoffered
  · obtain ⟨response, hserved, hresponse⟩ := hanswers r hr
    rw [hresponse] at hoffered
    split at hoffered
    · cases hoffered
    obtain rfl := List.mem_singleton.mp hoffered
    have hmem : Entry.request r m ∈
        Diag.transcript (Diag.perform n.control ⟨env, signals, i⟩).events := by
      apply mem_transcript_of_mem_served
      rw [hserved]
      exact List.mem_singleton_self _
    obtain ⟨dtc, htable, hanswer⟩ := Diag.answered_perform h.linked.ready.respBuf h.linked.table
      hmem (req_ne_nil hbytes)
    exact length_response htable hanswer hbytes

theorem ongoing_serve (hpassed : submissions (Diag.perform n.control ⟨env, signals, i⟩).events =
      (Diag.transcript (Diag.perform n.control ⟨env, signals, i⟩).events).filterMap Entry.response) :
    Ongoing { books n tr with
      beside := functionals rest
      served := (books n tr).served ++
        (Diag.transcript (Diag.perform n.control ⟨env, signals, i⟩).events).filterMap Entry.served
      arrived := (books n tr).arrived ++
        deliveries (Diag.perform n.control ⟨env, signals, i⟩).events
      given := (books n tr).given ++
        submissions (Diag.perform n.control ⟨env, signals, i⟩).events } past := by
  obtain ⟨-, hnothing, hanswers⟩ := serves env signals i
    (c := n.control) h.linked.ready
  obtain ⟨hdelivered, -⟩ := Diag.link_perform n.control ⟨env, signals, i⟩
  rw [hpassed, hdelivered]
  obtain ⟨hnone, hbeside⟩ | ⟨p, r, hr, hbytes, hfunctional, hp, hasked, hserved, hgot, hback,
      hrest, htaken⟩ := hcases
  · obtain ⟨hunserved, hsilent⟩ := hnothing hnone
    rw [hnone, hunserved, hsilent, ← hbeside]
    simpa using h.ongoing
  · obtain ⟨response, hnow, hresponse⟩ := hanswers r hr
    rw [hr, hnow, hresponse, hrest, Option.bind_some, htaken, hserved]
    let x : Exchange :=
      { step := p.current
        request := r
        response := response
        bytes_eq := hbytes
        functional_eq := hfunctional }
    refine .serving x rfl hp hasked rfl rfl ?_ rfl
    by_cases hempty : response = []
    · refine .inr ⟨?_, ?_⟩
      · show Heard (books n tr).answer response
        rw [Heard, if_pos hempty]
        exact hgot
      · rw [if_pos hempty]
        exact hback.trans (List.append_nil _).symm
    · refine .inl ⟨hempty, hgot, ?_⟩
      rw [if_neg hempty]
      exact congrArg (· ++ [response]) hback

end Serve

theorem Kept.serve (h : Kept n tr past) (hfair : n.Fair (.control env signals input)) :
    Kept (n.step (.control env signals input)).1
      (tr ++ (n.step (.control env signals input)).2) past := by
  rw [State.step]
  cases htake : takeWired n.toControl input with
  | none =>
      rw [List.append_nil]
      exact h
  | some taken =>
      obtain ⟨i, rest⟩ := taken
      let w := Diag.perform n.control ⟨env, signals, i⟩
      let n' : State := { n with
        control := Diag.leave w
        toSensor := n.toSensor ++ sentFrames w.events
        toControl := rest }
      show Kept n' (tr ++ w.events.map .inr) past
      obtain ⟨htimely, input', htake', hway⟩ := bus_take hfair htake h.ongoing.ids
      have hfirst : (books n tr).arrived ++
          ((n.control.arrival ⟨env, signals, i⟩).bind Request.physical).toList <+:
            (books n tr).taken := by
        have hread : deliveries (ecuEvents (busTrace tr)) ++
            ((n.control.arrival ⟨env, signals, i⟩).bind Request.physical).toList <+:
              submissions (testerEvents (busTrace tr)) := h.linked.prefix_arrival htake'
        rw [ecuEvents_busTrace, testerEvents_busTrace, IsoTp.submissions_below] at hread
        exact hread
      have hcases := h.ongoing.arrival rfl hfirst hway
      have hcalm : n.bus.Calm (.ecu env signals input') := by
        intro taken htaken
        obtain rfl := Option.some.inj (htake'.symm.trans htaken)
        exact ⟨htimely, fits_serve h hcases⟩
      obtain ⟨hlinked, hwaiting⟩ := h.waiting.ecu_step h.linked hcalm
        fun taken htaken r hr hbeside => by
        obtain rfl := Option.some.inj (htake'.symm.trans htaken)
        obtain ⟨hnone, -⟩ | ⟨p, r', hr', -, -, -, -, -, -, hback, -, harrived⟩ := hcases
        · cases hnone.symm.trans hr
        · obtain rfl := Option.some.inj (hr'.symm.trans hr)
          rw [Request.physical, hbeside] at harrived
          exact settled h.linked ((List.append_nil _).symm.trans harrived) hback
      have hbus : n.bus.step (.ecu env signals input') = (n'.bus, busTrace (w.events.map .inr)) := by
        rw [Bus.step, show input'.take n.bus.inbox = _ from htake', (events_control w.events).2.2]
        rfl
      rw [hbus, ← busTrace_append] at hlinked hwaiting
      obtain ⟨hother, hown, -⟩ := events_control w.events
      refine ⟨hlinked, hwaiting, h.buffer, ?_, ?_⟩
      · show (records (sensorEvents (tr ++ w.events.map .inr))).filterMap verdict? = _
        rw [sensorEvents_append, hother, List.append_nil]
        exact h.verdicts
      · have hpast := h.waiting.passed
        have hall := hwaiting.passed
        rw [Diag.ecuTranscript, ecuEvents_busTrace] at hpast hall
        rw [controlEvents_append, hown, Diag.transcript_append, List.filterMap_append,
          List.filterMap_append, hpast] at hall
        have hpassed := (Diag.submissions_eq_passed w.events).trans (List.append_cancel_left hall)
        rw [books_serve]
        exact ongoing_serve h hcases hpassed

end Control

end Linked

theorem Ongoing.prefixes {b : Books} {past : List Exchange} (h : Ongoing b past) :
    past.map Exchange.step <+: b.asked ∧ b.asked.length ≤ past.length + 1 ∧
      past.map Exchange.served <+: b.served ∧ b.served.length ≤ b.asked.length := by
  cases h with
  | quiet _ hasked hserved | asking _ hasked hserved | serving _ _ _ hasked hserved =>
      rw [hasked, hserved]
      simp

/-- **Every verdict is deserved.** In every run in which no link's timer expires and no step is given
up while something is on its way, each verdict is on the response that the server has computed for the
request of that very step, and says whether it begins as expected, or that it is empty. The verdicts
are on the first of the steps asked and of the requests served, in their order, and at most one
exchange is under way. Restarts of the ECU make no difference. -/
theorem verdicts_truthful (time : Nat) (ops : List Op)
    (hfair : Along State.step State.Fair (.init time) ops) :
    let tr := (run State.step (.init time) ops).2
    ∃ past : List Exchange,
      verdicts tr = past.map Exchange.verdict ∧
      past.map Exchange.step <+: asked tr ∧ (asked tr).length ≤ past.length + 1 ∧
      past.map Exchange.served <+: served tr ∧ (served tr).length ≤ (asked tr).length ∧
      ∀ x ∈ past, ∃ signals, ∃ dtc : Dtc.Manager, dtc.table = Diag.dtcTable ∧
        Answer signals dtc x.request x.response := by
  intro tr
  obtain ⟨past, h⟩ : ∃ past, Kept (run State.step (.init time) ops).1 tr past := by
    refine run_invariant_of (fun (n : State) tr => ∃ past, Kept n tr past) State.Fair ?_ []
      ⟨[], kept_init time⟩ ops hfair
    rintro n tr op ⟨past, h⟩ hop
    cases op with
    | sensor env input => exact h.call hop
    | control env signals input => exact ⟨past, h.serve hop⟩
  obtain ⟨hasked, hone, hserved, hmore⟩ := h.ongoing.prefixes
  refine ⟨past, h.verdicts, hasked, hone, hserved, hmore, fun x hx => ?_⟩
  exact answered h.linked (hserved.subset (List.mem_map_of_mem hx))

/-- A key starts both steps on the functional identifier. To the second there is no response. -/
def functionalRun : List Op :=
  let env : Nat → Env := fun time => { clock := fun _ => time, driver := fun _ => true }
  let signals : Signals := { speedX10 := 0, faultMask := 0 }
  [.sensor (env 0) (.handleKey 'f'.toUInt8), .sensor (env 0) .runSequence,
    .sensor (env 0) .runSequence, .control (env 0) signals .deliver, .sensor (env 5) .deliver,
    .sensor (env 5) .runSequence, .sensor (env 5) .runSequence, .sensor (env 5) .runSequence,
    .control (env 6) signals .deliver, .sensor (env 305) .runSequence]

theorem verdicts_truthful_functionalRun :
    let tr := (run State.step (.init 0) functionalRun).2
    ∃ past : List Exchange, past.length = 2 ∧ verdicts tr = past.map Exchange.verdict := by
  intro tr
  obtain ⟨past, hverdicts, -⟩ := verdicts_truthful 0 functionalRun (by decide +kernel)
  have htwo : (verdicts tr).length = 2 := by decide +kernel
  refine ⟨past, ?_, hverdicts⟩
  rw [← htwo, show verdicts tr = _ from hverdicts, List.length_map]

end MiniEcu.Bench
