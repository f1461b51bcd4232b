import MiniEcu.IsoTp.Applications
import MiniEcu.Diag.App

/-!
# The sequences of the tester

The other half of `tester_app.c`, behind the ring. A key starts a sequence of steps. The main loop
sends the request of a step, waits for the response and compares it with what the step expects, or
waits in vain, and goes on with the next step.
-/

namespace MiniEcu.Sensor.Sequence

open Diag (CanFrame Tester canIdUdsFunctional canIdUdsReqControl canIdUdsRespControl)
open IsoTp (App Bytes Config Env Event Frame Link Mirrors Outcome Reaction World nested react records)
open Memory
open Trace (run run_invariant)

/-! ### Steps -/

def testerBufferSize : Nat := 128
def responseTimeoutMs : Nat := 1000   -- at least P2* of the server
def noResponseWaitMs : Nat := 300

/-- `Step_t`. A step that expects nothing passes if there is no response. -/
structure Step where
  name : String
  req : Bytes
  expect : Option Bytes     -- expected response prefix
  delayMs : Nat := 0        -- wait before sending
  functional : Bool := false
  req_ne : 0 < req.length := by decide
  req_fits : req.length ≤ 7 := by decide   -- a single frame
  expect_ne : expect ≠ some [] := by decide
  expect_fits : ∀ e ∈ expect, e.length ≤ testerBufferSize := by decide
deriving DecidableEq

/-- A table of steps, whose length is cast to eight bits. -/
structure Table where
  steps : List Step
  ne : 0 < steps.length := by decide
  fits : steps.length < 2 ^ 8 := by decide

def rqTp : Bytes := [0x3E, 0x00]
def rsTp : Bytes := [0x7E, 0x00]
def rqVer : Bytes := [0x22, 0xF1, 0x95]
def rsVer : Bytes := [0x62, 0xF1, 0x95]
def rqSpd : Bytes := [0x22, 0x01, 0x00]
def rsSpd : Bytes := [0x62, 0x01, 0x00]
def rqMulti : Bytes := [0x22, 0xF1, 0x95, 0x01, 0x00, 0x01, 0x01]
def rqBad : Bytes := [0x85, 0x01]
def rsBad : Bytes := [0x7F, 0x85, 0x11]
def rqDid : Bytes := [0x22, 0x12, 0x34]
def rsDid : Bytes := [0x7F, 0x22, 0x31]
def rqRst : Bytes := [0x11, 0x01]
def rsRstn : Bytes := [0x7F, 0x11, 0x7E]
def rsRst : Bytes := [0x51, 0x01]
def rqDtc : Bytes := [0x19, 0x02, 0xFF]
def rsDtc : Bytes := [0x59, 0x02, 0x7F]
def rqExt : Bytes := [0x10, 0x03]
def rsExt : Bytes := [0x50, 0x03, 0x00, 0x32, 0x01, 0xF4]
def rqClr : Bytes := [0x14, 0xFF, 0xFF, 0xFF]
def rsClr : Bytes := [0x54]
def rqCnt : Bytes := [0x19, 0x01, 0x08]
def rsCnt0 : Bytes := [0x59, 0x01, 0x7F, 0x01, 0x00, 0x00]
def rqDef : Bytes := [0x10, 0x01]
def rsDef : Bytes := [0x50, 0x01]

/-- `k_seqTest`. -/
def seqTest : Table where
  steps :=
    [{ name := "TesterPresent", req := rqTp, expect := rsTp },
      { name := "ReadDID F195 version", req := rqVer, expect := rsVer },
      { name := "ReadDID 0100 speed", req := rqSpd, expect := rsSpd },
      { name := "ReadDID x3 (tester sends FF+CF)", req := rqMulti, expect := rsVer },
      { name := "Unknown service -> NRC 11", req := rqBad, expect := rsBad },
      { name := "Unknown DID -> NRC 31", req := rqDid, expect := rsDid },
      { name := "Reset in default -> NRC 7E", req := rqRst, expect := rsRstn },
      { name := "Read all DTCs", req := rqDtc, expect := rsDtc },
      { name := "Session extended", req := rqExt, expect := rsExt },
      { name := "Clear all DTCs", req := rqClr, expect := rsClr },
      { name := "Confirmed DTCs = 0", req := rqCnt, expect := rsCnt0 },
      { name := "Session default", req := rqDef, expect := rsDef }]

/-- `k_seqDtc`. -/
def seqDtc : Table where
  steps := [{ name := "Read all DTCs", req := rqDtc, expect := rsDtc }]

/-- `k_seqClear`. -/
def seqClear : Table where
  steps := [{ name := "Clear all DTCs", req := rqClr, expect := rsClr }]

/-- `k_seqVer`. -/
def seqVer : Table where
  steps :=
    [{ name := "ReadDID F195 version", req := rqVer, expect := rsVer },
      { name := "ReadDID 0100 speed", req := rqSpd, expect := rsSpd }]

/-- `k_seqFunc`. -/
def seqFunc : Table where
  steps :=
    [{ name := "Functional TesterPresent", req := rqTp, expect := rsTp, functional := true },
      { name := "Functional unknown service: silent", req := rqBad, expect := none,
        functional := true }]

/-- `k_seqReset`. -/
def seqReset : Table where
  steps :=
    [{ name := "Session extended", req := rqExt, expect := rsExt },
      { name := "ECUReset hard", req := rqRst, expect := rsRst },
      { name := "ECU back: TesterPresent (after 3 s)", req := rqTp, expect := rsTp,
        delayMs := 3000 },
      { name := "ECU back: ReadDID F195", req := rqVer, expect := rsVer }]

/-- The tables that a key starts. -/
def tables : List Table := [seqTest, seqDtc, seqClear, seqVer, seqFunc, seqReset]

/-! ### State -/

/-- `ST_DELAY`, `ST_SEND` and `ST_WAIT`. -/
inductive Phase
  | delay
  | send
  | wait
deriving DecidableEq

/-- The sequence under way, with the current step in it. -/
structure Progress where
  table : Table
  step : Nat
  passed : Nat
  phase : Phase
  timer : Nat
  step_lt : step < table.steps.length

/-- The first step of a sequence is due. -/
def Progress.first (table : Table) (timer : Nat) : Progress where
  table := table
  step := 0
  passed := 0
  phase := .delay
  timer := timer
  step_lt := table.ne

/-- `s_seq[s_step]`. -/
def Progress.current (p : Progress) : Step := p.table.steps.get ⟨p.step, p.step_lt⟩

/-- The statics behind the link. In `ST_IDLE` nothing reads those of the sequence. -/
structure Statics where
  answer : Tester
  progress : Option Progress := none

/-- What can be seen of the main loop: the starts, the requests and the lines that it prints, and the
functional frames, which do not take the way through the link. -/
inductive Report
  | started (table : Table)
  | asked (step : Step)
  | functional (frame : CanFrame) (accepted : Bool)
  | verdict (step : Step) (pass : Bool)
  | done (passed total : Nat)
  | busy
  | help

structure State where
  link : Link
  statics : Statics

/-! ### The link -/

def onResponse (data : Bytes) (result : IsoTp.Result) (a : Statics) : Reaction Statics Report :=
  { app := { a with answer := (Diag.onTesterResponse data result a.answer).app } }

/-- The application behind the link. Its confirmation callback is `NULL`. -/
def testerApp : App Statics Report where
  rxIndication _ data result a := onResponse data result a
  txConfirmation _ _ a := { app := a }

def linkConfig : Config where
  txId := canIdUdsReqControl.toNat
  rxId := canIdUdsRespControl.toNat
  rxBuffer := List.replicate testerBufferSize 0
  txBuffer := List.replicate testerBufferSize 0
  blockSize := 0
  stMin := 0
  nBsTimeoutMs := 0
  nCrTimeoutMs := 0

/-- `TesterApp_Init`. -/
def init : State where
  link := IsoTp.init linkConfig
  statics := { answer := { resp := List.replicate testerBufferSize 0 } }

/-! ### The sequence -/

section Sequence

variable (w : World Statics Report)

/-- `TimeDrv_GetMs`. -/
def look : World Statics Report := { w with reads := w.reads + 1 }

@[simp] theorem app_look : (look w).app = w.app := rfl

def report (r : Report) : World Statics Report := w.log (.app r)

def setProgress (p : Option Progress) : World Statics Report :=
  { w with app := { w.app with progress := p } }

/-- `Finish`. -/
def finish (p : Progress) (pass : Bool) : World Statics Report :=
  let w := report w (.verdict p.current pass)
  let passed := if pass then p.passed + 1 else p.passed
  if h : p.step + 1 < p.table.steps.length then
    look (setProgress w (some { p with
      step := p.step + 1
      passed := passed
      phase := .delay
      timer := w.now
      step_lt := h }))
  else setProgress (report w (.done passed p.table.steps.length)) none

/-- `Start`. -/
def start (table : Table) : World Statics Report :=
  match w.app.progress with
  | some _ => report w .busy
  | none => look (setProgress (report w (.started table)) (some (.first table w.now)))

/-- The request in a single frame. -/
def singleFrame (st : Step) : CanFrame :=
  .full canIdUdsFunctional (.padded (UInt8.ofNat st.req.length :: st.req))

/-- The frame does not take the way through the link. -/
def sendFunctional (st : Step) : World Statics Report :=
  { w with
    sends := w.sends + 1
    events := w.events ++ [.app (.functional (singleFrame st) w.accepts)] }

/-- The statics before a request. -/
def Statics.forget (a : Statics) : Statics :=
  { a with answer := { a.answer with respLen := 0, gotResp := false } }

/-- `SendStep`. -/
def sendStep (p : Progress) : World Statics Report :=
  let st := p.current
  let w := report w (.asked st)
  let w := { w with app := w.app.forget }
  let w := if st.functional then sendFunctional w st else nested testerApp 0 st.req w
  look (setProgress w (some { p with phase := .wait, timer := w.now }))

/-- The response begins with what is expected. -/
def begins (t : Tester) (e : Bytes) : Bool := e.length ≤ t.respLen && t.resp.take e.length = e

/-- The case `ST_WAIT` of `RunSequence`, which has read the clock. -/
def awaitResponse (now : Nat) (p : Progress) : World Statics Report :=
  match p.current.expect with
  | none =>
      -- it passes if the ECU stays silent
      if w.app.answer.gotResp then finish w p false
      else if noResponseWaitMs ≤ elapsed now p.timer then finish w p true
      else w   -- waiting
  | some e =>
      if w.app.answer.gotResp then finish w p (begins w.app.answer e)
      else if responseTimeoutMs ≤ elapsed now p.timer then finish w p false
      else w   -- waiting

/-- `RunSequence`. -/
def runSequence : World Statics Report :=
  let now := w.now
  let w := look w
  match w.app.progress with
  | none => w
  | some p =>
      match p.phase with
      | .delay =>
          if p.current.delayMs ≤ elapsed now p.timer then setProgress w (some { p with phase := .send })
          else w
      | .send => if IsoTp.isTxBusy w.link then w else sendStep w p
      | .wait => awaitResponse w now p

/-- `HandleKey`. -/
def handleKey (key : UInt8) : World Statics Report :=
  if key = 't'.toUInt8 then start w seqTest
  else if key = 'd'.toUInt8 then start w seqDtc
  else if key = 'c'.toUInt8 then start w seqClear
  else if key = 'v'.toUInt8 then start w seqVer
  else if key = 'f'.toUInt8 then start w seqFunc
  else if key = 'r'.toUInt8 then start w seqReset
  else if key = '?'.toUInt8 then report w .help
  else w

end Sequence

/-! ### Runs -/

/-- What `TesterApp_Task` calls: for the frames in the ring, for a key, and in every turn. -/
inductive Input
  | rxFrame (frame : Frame) (dlc : Nat)
  | handleKey (key : UInt8)
  | mainFunction
  | runSequence

def perform (s : State) (env : Env) (i : Input) : World Statics Report :=
  let w : World Statics Report := { link := s.link, app := s.statics, env := env }
  match i with
  | .rxFrame frame dlc => IsoTp.rxFrame testerApp (nested testerApp 0) frame dlc w
  | .handleKey key => handleKey w key
  | .mainFunction => IsoTp.mainFunction testerApp (nested testerApp 0) w
  | .runSequence => runSequence w

def leave (w : World Statics Report) : State := { link := w.link, statics := w.app }

def step (s : State) (i : Env × Input) : State × List (Event Report) :=
  (leave (perform s i.1 i.2), (perform s i.1 i.2).events)

/-! ### Calls on the link -/

theorem attentive_testerApp : testerApp.Attentive where
  confirmed _ _ _ _ := rfl
  indicated clock data result a herr := by
    have hignored : Diag.onTesterResponse data result a.answer = { app := a.answer } :=
      if_neg fun h => herr h.1
    show onResponse data result a = _
    rw [onResponse, hignored]
  sends _ _ := rfl

/-- What the outcome of a call leaves. -/
def hear (o : Outcome) (a : Statics) : Statics :=
  match o with
  | .received data => { a with answer := (Diag.onTesterResponse data .ok a.answer).app }
  | _ => a

theorem complete_testerApp (resubmit : Bytes → World Statics Report → World Statics Report)
    (o : Outcome) (w : World Statics Report) :
    w.complete testerApp resubmit o = { w with app := hear o w.app } := by
  cases o <;> simp [World.complete, World.settle, react, testerApp, onResponse, hear]

theorem Mirrors.testerApp {resubmit : Bytes → World Statics Report → World Statics Report}
    {u v' : World Unit Empty} {a : Statics} {past : List (Event Report)} {o : Outcome}
    {w' : World Statics Report} (h : Mirrors testerApp resubmit u a past o v' w') :
    w'.link = v'.link ∧ w'.app = hear o a ∧ w'.events = past ++ v'.events.map Event.lift := by
  obtain ⟨-, rfl⟩ := h
  rw [complete_testerApp]
  exact ⟨rfl, rfl, rfl⟩

theorem mirrors_rxFrame (s : State) (env : Env) (frame : Frame) (dlc : Nat) :
    ∃ (u v' : World Unit Empty) (o : Outcome), u.events = [] ∧ u.link = s.link ∧
      Mirrors testerApp (nested testerApp 0) u s.statics [] o v'
        (perform s env (.rxFrame frame dlc)) := by
  obtain ⟨o, -, hmirrors⟩ := IsoTp.mirrors_rxFrame testerApp (nested testerApp 0)
    (fun _ v => v) s.statics [] attentive_testerApp frame dlc
    { link := s.link, app := (), env := env }
  exact ⟨_, _, o, rfl, rfl, hmirrors⟩

theorem mirrors_mainFunction (s : State) (env : Env) :
    ∃ (u v' : World Unit Empty) (o : Outcome), u.events = [] ∧ u.link = s.link ∧
      Mirrors testerApp (nested testerApp 0) u s.statics [] o v' (perform s env .mainFunction) := by
  obtain ⟨o, -, hmirrors⟩ := IsoTp.mirrors_mainFunction testerApp (nested testerApp 0)
    (fun _ v => v) s.statics [] attentive_testerApp s.link env
  exact ⟨_, _, o, rfl, rfl, hmirrors⟩

theorem nested_testerApp (m : Bytes) (w : World Statics Report) :
    (nested testerApp 0 m w).app = w.app ∧
      ∃ es : List (Event Empty), (nested testerApp 0 m w).events = w.events ++ es.map Event.lift := by
  by_cases htaken : IsoTp.transmitResult w.link m = .ok
  · obtain ⟨o, hsends, hmirrors⟩ := IsoTp.transmitWith_taken testerApp (fun _ w => w)
      (fun _ v => v) attentive_testerApp htaken
    obtain ⟨-, happ, hevents⟩ := Mirrors.testerApp hmirrors
    refine ⟨?_, _, hevents⟩
    obtain rfl | rfl := hsends <;> exact happ
  · have hrejected := IsoTp.transmitWith_rejected testerApp (fun _ w => w) htaken
    have hnested : nested testerApp 0 m w = _ := congrArg Prod.snd hrejected
    rw [hnested]
    exact ⟨rfl, [.transmit m (IsoTp.transmitResult w.link m)], rfl⟩

/-! ### What a call of the sequence can do -/

/-- How long a step waits for a response. -/
def Step.waitMs (st : Step) : Nat :=
  match st.expect with
  | none => noResponseWaitMs
  | some _ => responseTimeoutMs

/-- The verdict on the response to a step. -/
def Step.judge (st : Step) (t : Tester) : Bool :=
  match st.expect with
  | none => false
  | some e => begins t e

/-- A step ends with a response, or without one when its time is over. -/
inductive Progress.Ends (p : Progress) (answer : Tester) (now : Nat) : Bool → Prop
  | answered (hgot : answer.gotResp = true) : p.Ends answer now (p.current.judge answer)
  | givenUp (hnot : answer.gotResp = false) (hlate : p.current.waitMs ≤ elapsed now p.timer) :
      p.Ends answer now p.current.expect.isNone

theorem awaitResponse_cases (w : World Statics Report) (now : Nat) (p : Progress) :
    awaitResponse w now p = w ∨
      ∃ pass, p.Ends w.app.answer now pass ∧ awaitResponse w now p = finish w p pass := by
  have hanswered : w.app.answer.gotResp = true → ∀ v, v = finish w p (p.current.judge w.app.answer) →
      v = w ∨ ∃ pass, p.Ends w.app.answer now pass ∧ v = finish w p pass :=
    fun hgot v hv => .inr ⟨_, .answered hgot, hv⟩
  have hgivenUp : ¬ w.app.answer.gotResp = true → p.current.waitMs ≤ elapsed now p.timer →
      ∀ v, v = finish w p p.current.expect.isNone →
      v = w ∨ ∃ pass, p.Ends w.app.answer now pass ∧ v = finish w p pass :=
    fun hnot hlate v hv => .inr ⟨_, .givenUp (Bool.eq_false_iff.mpr hnot) hlate, hv⟩
  rw [awaitResponse]
  rw [Step.judge] at hanswered
  rw [Step.waitMs] at hgivenUp
  cases hexpect : p.current.expect with
  | none =>
      rw [hexpect] at hanswered hgivenUp
      simp only []
      split
      · rename_i hgot
        exact hanswered hgot _ rfl
      split
      · rename_i hnot hlate
        exact hgivenUp hnot hlate _ rfl
      · exact .inl rfl
  | some e =>
      rw [hexpect] at hanswered hgivenUp
      simp only []
      split
      · rename_i hgot
        exact hanswered hgot _ rfl
      split
      · rename_i hnot hlate
        exact hgivenUp hnot hlate _ rfl
      · exact .inl rfl

theorem runSequence_cases (w : World Statics Report) :
    (∃ q, (q = w.app.progress ∨ ∃ p, w.app.progress = some p ∧ p.phase = .delay ∧
        q = some { p with phase := .send }) ∧ runSequence w = setProgress (look w) q) ∨
      (∃ p, w.app.progress = some p ∧ p.phase = .send ∧ IsoTp.isTxBusy w.link = false ∧
        runSequence w = sendStep (look w) p) ∨
      ∃ p pass, w.app.progress = some p ∧ p.phase = .wait ∧ p.Ends w.app.answer w.now pass ∧
        runSequence w = finish (look w) p pass := by
  have hidle : ∀ v, v = look w → ∃ q, (q = w.app.progress ∨ ∃ p, w.app.progress = some p ∧
      p.phase = .delay ∧ q = some { p with phase := .send }) ∧ v = setProgress (look w) q :=
    fun v hv => ⟨_, .inl rfl, hv⟩
  simp only [runSequence, app_look]
  cases hprogress : w.app.progress with
  | none =>
      rw [hprogress] at hidle
      exact .inl (hidle _ rfl)
  | some p =>
      rw [hprogress] at hidle
      cases hphase : p.phase with
      | delay =>
          refine .inl ?_
          simp only [hphase]
          split
          · exact ⟨_, .inr ⟨p, rfl, hphase, rfl⟩, rfl⟩
          · exact hidle _ rfl
      | send =>
          simp only [hphase]
          split
          · exact .inl (hidle _ rfl)
          · rename_i hbusy
            exact .inr (.inl ⟨p, rfl, hphase, Bool.eq_false_iff.mpr hbusy, rfl⟩)
      | wait =>
          simp only [hphase]
          obtain hwaits | ⟨pass, hends, hfinish⟩ := awaitResponse_cases (look w) w.now p
          · exact .inl (hidle _ hwaits)
          · exact .inr (.inr ⟨p, pass, rfl, hphase, hends, hfinish⟩)

/-- What the calls report, and what they make of the sequence. -/
inductive Advances : Option Progress → List Report → Option Progress → Prop
  | silent (q : Option Progress) : Advances q [] q
  | noted (q : Option Progress) {r : Report} (hr : r = .busy ∨ r = .help) : Advances q [r] q
  | started (table : Table) (htable : table ∈ tables) (timer : Nat) :
      Advances none [.started table] (some (.first table timer))
  | ready {p : Progress} (hphase : p.phase = .delay) :
      Advances (some p) [] (some { p with phase := .send })
  | asked {p : Progress} (hphase : p.phase = .send) (timer : Nat) {rs : List Report}
      (hrs : rs = [] ∨ ∃ frame accepted, rs = [.functional frame accepted]) :
      Advances (some p) (.asked p.current :: rs) (some { p with phase := .wait, timer := timer })
  | next {p : Progress} (hphase : p.phase = .wait) (pass : Bool) (timer : Nat)
      (h : p.step + 1 < p.table.steps.length) :
      Advances (some p) [.verdict p.current pass] (some { p with
        step := p.step + 1
        passed := if pass then p.passed + 1 else p.passed
        phase := .delay
        timer := timer
        step_lt := h })
  | last {p : Progress} (hphase : p.phase = .wait) (pass : Bool)
      (h : ¬ p.step + 1 < p.table.steps.length) :
      Advances (some p) [.verdict p.current pass,
        .done (if pass then p.passed + 1 else p.passed) p.table.steps.length] none

section Calls

variable (w : World Statics Report)

/-- A piece of a call that leaves the link and the answer alone. -/
def Reports (rs : List Report) (w' : World Statics Report) : Prop :=
  w'.link = w.link ∧ w'.app.answer = w.app.answer ∧ w'.events = w.events ++ rs.map .app

theorem reports_nil : Reports w [] w := ⟨rfl, rfl, (List.append_nil _).symm⟩

theorem finish_spec (p : Progress) (hphase : p.phase = .wait) (pass : Bool) :
    ∃ rs, Reports w rs (finish w p pass) ∧ Advances (some p) rs (finish w p pass).app.progress := by
  rw [finish]
  split
  · rename_i h
    exact ⟨_, ⟨rfl, rfl, rfl⟩, .next hphase pass _ h⟩
  · rename_i h
    refine ⟨_, ⟨rfl, rfl, ?_⟩, .last hphase pass h⟩
    exact List.append_assoc _ _ _

theorem start_spec {table : Table} (htable : table ∈ tables) :
    ∃ rs, Reports w rs (start w table) ∧
      Advances w.app.progress rs (start w table).app.progress := by
  rw [start]
  split
  · rename_i p hprogress
    exact ⟨[.busy], ⟨rfl, rfl, rfl⟩, .noted _ (.inl rfl)⟩
  · rename_i hprogress
    rw [hprogress]
    exact ⟨[.started table], ⟨rfl, rfl, rfl⟩, .started table htable _⟩

theorem handleKey_spec (key : UInt8) :
    ∃ rs, Reports w rs (handleKey w key) ∧
      Advances w.app.progress rs (handleKey w key).app.progress := by
  rw [handleKey]
  split_ifs
  iterate 6 exact start_spec w (by simp [tables])
  · exact ⟨[.help], ⟨rfl, rfl, rfl⟩, .noted _ (.inr rfl)⟩
  · exact ⟨[], reports_nil w, .silent _⟩

/-- The request of a step leaves through the link, or beside it. -/
theorem sendStep_spec (p : Progress) :
    ∃ timer, (sendStep w p).app =
        { w.app.forget with progress := some { p with phase := .wait, timer := timer } } ∧
      (p.current.functional = true → (sendStep w p).link = w.link ∧
        (sendStep w p).events = w.events ++ [.asked p.current,
          .functional (singleFrame p.current) w.accepts].map .app) ∧
      (p.current.functional = false →
        let sent := nested testerApp 0 p.current.req
          { w with app := w.app.forget, events := w.events ++ [.app (.asked p.current)] }
        (sendStep w p).link = sent.link ∧ (sendStep w p).events = sent.events) := by
  cases hfunctional : p.current.functional with
  | true =>
      simp only [sendStep, hfunctional, if_true]
      refine ⟨_, rfl, fun _ => ⟨rfl, ?_⟩, nofun⟩
      exact List.append_assoc _ _ _
  | false =>
      simp only [sendStep, hfunctional, Bool.false_eq_true, if_false]
      let sent := nested testerApp 0 p.current.req
        { report w (.asked p.current) with app := w.app.forget }
      have happ : sent.app = w.app.forget := (nested_testerApp p.current.req _).1
      refine ⟨sent.now, ?_, nofun, fun _ => ⟨rfl, rfl⟩⟩
      rw [← happ]
      rfl

end Calls

def Report.counts : Report → Bool
  | .started _ | .asked _ | .verdict _ _ | .done _ _ => true
  | .functional _ _ | .busy | .help => false

def judged (steps : List Step) (verdicts : List Bool) : List Report :=
  (steps.zip verdicts).flatMap fun v => [.asked v.1, .verdict v.1 v.2]

/-- A sequence that has been run, with the verdicts on its steps. -/
structure Session where
  table : Table
  known : table ∈ tables
  verdicts : List Bool
  complete : verdicts.length = table.steps.length

def Session.reports (s : Session) : List Report :=
  .started s.table :: judged s.table.steps s.verdicts ++
    [.done (s.verdicts.count true) s.table.steps.length]

theorem zip_append_right {α β : Type} (xs : List α) (ys zs : List β) :
    xs.zip (ys ++ zs) = xs.zip ys ++ (xs.drop ys.length).zip zs := by
  induction ys generalizing xs with
  | nil => simp
  | cons y ys ih =>
      cases xs with
      | nil => rfl
      | cons x xs => exact congrArg ((x, y) :: ·) (ih xs)

theorem judged_nil (steps : List Step) : judged steps [] = [] := by
  rw [judged, List.zip_nil_right]
  rfl

theorem judged_append (steps : List Step) (vs vs' : List Bool) :
    judged steps (vs ++ vs') = judged steps vs ++ judged (steps.drop vs.length) vs' := by
  rw [judged, zip_append_right, List.flatMap_append]
  rfl

theorem judged_current (p : Progress) (pass : Bool) :
    judged (p.table.steps.drop p.step) [pass] = [.asked p.current, .verdict p.current pass] := by
  rw [List.drop_eq_getElem_cons p.step_lt, judged, List.zip_cons_cons, List.zip_nil_right]
  rfl

/-- The sessions so far, and the one under way. -/
inductive Accounts : Option Progress → List Report → Prop
  | idle (sessions : List Session) : Accounts none (sessions.flatMap Session.reports)
  | underway (sessions : List Session) {p : Progress} {verdicts : List Bool}
      (hknown : p.table ∈ tables) (hlength : verdicts.length = p.step)
      (hpassed : verdicts.count true = p.passed) :
      Accounts (some p) (sessions.flatMap Session.reports ++
        (.started p.table :: judged p.table.steps verdicts ++
          if p.phase = .wait then [.asked p.current] else []))

theorem Accounts.advance {q q' : Option Progress} {log rs : List Report} (h : Accounts q log)
    (hadvances : Advances q rs q') : Accounts q' (log ++ rs.filter Report.counts) := by
  have hcount : ∀ (verdicts : List Bool) (pass : Bool), (verdicts ++ [pass]).count true =
      if pass then verdicts.count true + 1 else verdicts.count true := by
    intro verdicts pass
    cases pass <;> simp
  cases hadvances with
  | silent =>
      rw [List.filter_nil, List.append_nil]
      exact h
  | noted _ hr =>
      obtain rfl | rfl := hr <;> (rw [List.filter_cons_of_neg (by decide)]; simpa using h)
  | started table htable timer =>
      cases h with
      | idle sessions =>
          have hnext := @Accounts.underway sessions (.first table timer) [] htable rfl rfl
          rw [judged_nil] at hnext
          exact hnext
  | @ready p hphase =>
      cases h with
      | underway sessions hknown hlength hpassed =>
          rw [hphase, List.filter_nil, List.append_nil]
          exact @Accounts.underway sessions { p with phase := .send } _ hknown hlength hpassed
  | @asked p hphase timer rs hrs =>
      cases h with
      | @underway sessions _ verdicts hknown hlength hpassed =>
          have hfilter : (Report.asked p.current :: rs).filter Report.counts =
              [.asked p.current] := by
            obtain rfl | ⟨frame, accepted, rfl⟩ := hrs <;> rfl
          have hcurrent : Progress.current { p with phase := .wait, timer := timer } = p.current :=
            rfl
          have hnext := @Accounts.underway sessions { p with phase := .wait, timer := timer }
            verdicts hknown hlength hpassed
          rw [hfilter, hphase]
          simpa [hcurrent] using hnext
  | @next p hphase pass timer hmore =>
      cases h with
      | @underway sessions _ verdicts hknown hlength hpassed =>
          have hnext := @Accounts.underway sessions { p with
              step := p.step + 1
              passed := if pass then p.passed + 1 else p.passed
              phase := .delay
              timer := timer
              step_lt := hmore } (verdicts ++ [pass]) hknown
            (by rw [List.length_append, hlength]; rfl) (by rw [hcount, hpassed])
          rw [judged_append, hlength, judged_current] at hnext
          have hfilter : [Report.verdict p.current pass].filter Report.counts =
              [.verdict p.current pass] := rfl
          rw [hphase, hfilter]
          simpa using hnext
  | @last p hphase pass hend =>
      cases h with
      | @underway sessions _ verdicts hknown hlength hpassed =>
          have hstep := p.step_lt
          let session : Session :=
            { table := p.table, known := hknown, verdicts := verdicts ++ [pass],
              complete := by rw [List.length_append, hlength, List.length_singleton]; omega }
          have hnext := Accounts.idle (sessions ++ [session])
          have hreports : session.reports = .started p.table :: (judged p.table.steps verdicts ++
              [.asked p.current, .verdict p.current pass]) ++
                [.done (if pass then p.passed + 1 else p.passed) p.table.steps.length] := by
            rw [Session.reports, hcount, hpassed, judged_append, hlength, judged_current]
          rw [List.flatMap_append, List.flatMap_singleton, hreports] at hnext
          have hfilter : [Report.verdict p.current pass, .done (if pass then p.passed + 1 else
              p.passed) p.table.steps.length].filter Report.counts = [.verdict p.current pass,
                .done (if pass then p.passed + 1 else p.passed) p.table.steps.length] := rfl
          rw [hphase, hfilter]
          simpa using hnext

end MiniEcu.Sensor.Sequence
