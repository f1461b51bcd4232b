import MiniEcu.Tester.Remote

/-!
# The scenarios of the tester

The two scenarios of `scenario.cpp` with the texts of their reports. Against the simulated ECU every
step passes whatever has been done to the ECU before, but for one: the reset that is to be refused is
refused in the default session only, and otherwise the ECU really restarts.
-/

namespace MiniEcu.Tester

open Uds (Nrc ResetType Session)

/-! ### Texts -/

def kDigits : List Char := "0123456789ABCDEF".toList

def hexDigit (n : UInt8) : Char := kDigits.getD n.toNat '0'

/-- `hex2`. -/
def hex2 (value : UInt8) : String := String.ofList [hexDigit (value >>> 4), hexDigit (value &&& 0x0F)]

/-- `nrcName`. -/
def nrcName (nrc : UInt8) : String :=
  if nrc = 0x11 then "serviceNotSupported"
  else if nrc = 0x12 then "subFunctionNotSupported"
  else if nrc = 0x13 then "incorrectMessageLengthOrInvalidFormat"
  else if nrc = 0x14 then "responseTooLong"
  else if nrc = 0x31 then "requestOutOfRange"
  else if nrc = 0x78 then "requestCorrectlyReceived-ResponsePending"
  else if nrc = 0x7E then "subFunctionNotSupportedInActiveSession"
  else if nrc = 0x7F then "serviceNotSupportedInActiveSession"
  else "unknown"

/-- `Error::describe`. -/
def Error.describe : Error → String
  | .timeout => "no response"
  | .negative nrc => "NRC " ++ hex2 nrc ++ " " ++ nrcName nrc
  | .malformed => "unexpected response"
  | .sendFailed => "send failed"

def asText (b : Bytes) : String := String.ofList (b.map fun c => Char.ofNat c.toNat)

def speedText (b : Bytes) : String :=
  if b.length ≠ 2 then "?"
  else
    let x10 := (b.getD 0 0).toNat <<< 8 ||| (b.getD 1 0).toNat
    toString (x10 / 10) ++ "." ++ toString (x10 % 10) ++ " km/h"

/-- `formatDtc`: two bits for the system, two for the first digit, and hexadecimal digits. -/
def formatDtc (code : UInt32) : String :=
  let b0 := (code >>> 16).toUInt8
  let b1 := (code >>> 8).toUInt8
  let b2 := code.toUInt8
  String.ofList [['P', 'C', 'B', 'U'].getD (b0 >>> 6).toNat 'P',
      hexDigit ((b0 >>> 4) &&& 0x03), hexDigit (b0 &&& 0x0F)] ++
    hex2 b1 ++ "-" ++ hex2 b2

/-- `summarizeStatus`. -/
def summarizeStatus (status : UInt8) : String :=
  " ".intercalate
    ((if status &&& 0x01 ≠ 0 then ["failed"] else []) ++
      (if status &&& 0x04 ≠ 0 then ["pending"] else []) ++
      (if status &&& 0x08 ≠ 0 then ["confirmed"] else []))

def dtcText (d : Dtc) : String :=
  let summary := summarizeStatus d.status
  formatDtc d.code ++ " " ++ hex2 d.status ++ if summary = "" then "" else " " ++ summary

def dtcListText (dtcs : List Dtc) : String :=
  if dtcs = [] then "no DTC" else ", ".intercalate (dtcs.map dtcText)

/-! ### Reports -/

structure StepResult where
  name : String
  passed : Bool
  detail : String
deriving DecidableEq, Repr

/-- `ScenarioReport`. -/
abbrev Report := List StepResult

def Report.passedCount (r : Report) : Nat := r.countP StepResult.passed

def Report.allPassed (r : Report) : Bool := r.passedCount = r.length

section Steps

variable {τ : Type}

/-- A step of a scenario: a call, and what `Recorder` makes of its result. -/
abbrev Step (τ : Type) := τ → StepResult × τ

def expectOk {α : Type} (name : String) (call : τ → Except Error α × τ) (describe : α → String) : Step τ :=
  fun s =>
    match call s with
    | (.ok value, s) => ({ name := name, passed := true, detail := describe value }, s)
    | (.error e, s) => ({ name := name, passed := false, detail := e.describe }, s)

def expectNrc {α : Type} (name : String) (call : τ → Except Error α × τ) (nrc : UInt8) : Step τ :=
  fun s =>
    match call s with
    | (.ok _, s) => ({ name := name, passed := false, detail := "positive response" }, s)
    | (.error e, s) => ({ name := name, passed := e = .negative nrc, detail := e.describe }, s)

/-- Functional requests that the ECU must not answer. -/
def expectSilence {α : Type} (name : String) (call : τ → Except Error α × τ) : Step τ :=
  fun s =>
    match call s with
    | (.error .timeout, s) => ({ name := name, passed := true, detail := "no response" }, s)
    | (_, s) => ({ name := name, passed := false, detail := "ECU answered" }, s)

def noDetail {α : Type} : α → String := fun _ => ""

/-- The steps one after the other. -/
def runSteps : List (Step τ) → τ → Report × τ
  | [], s => ([], s)
  | step :: steps, s =>
      let (result, s) := step s
      let (report, s) := runSteps steps s
      (result :: report, s)

/-! ### Scenarios -/

variable (t : Transport τ) (timing : ClientTiming)

def kDidSoftwareVersion : UInt16 := 0xF195
def kDidVehicleSpeed : UInt16 := 0x0100
def kDidActiveFaults : UInt16 := 0x0101

def kAllDids : List DidSpec :=
  [{ id := kDidSoftwareVersion, length := 10 }, { id := kDidVehicleSpeed, length := 2 },
    { id := kDidActiveFaults, length := 1 }]

def unknownService : Bytes := [0x85, 0x01]

/-- A read of the confirmed codes that is to find none. -/
def expectNoneConfirmed : Step τ := fun s =>
  match readDtcCount t timing 0x08 s with
  | (.ok count, s) =>
      ({ name := "Confirmed DTCs = 0 after clear", passed := count = 0
         detail := toString count.toNat ++ " confirmed" }, s)
  | (.error e, s) =>
      ({ name := "Confirmed DTCs = 0 after clear", passed := false, detail := e.describe }, s)

def regressionSteps : List (Step τ) :=
  [expectOk "TesterPresent" (testerPresent t timing false) noDetail,
    expectOk "ReadDID F195 version" (readDid t timing kDidSoftwareVersion)
      fun b => "\"" ++ asText b ++ "\"",
    expectOk "ReadDID 0100 speed" (readDid t timing kDidVehicleSpeed) speedText,
    expectOk "ReadDID F195 + 0100 + 0101" (readDids t timing kAllDids)
      fun v => toString v.length ++ " DIDs",
    expectNrc "Unknown service -> NRC 11" (request t timing unknownService false) 0x11,
    expectNrc "Unknown DID -> NRC 31" (readDid t timing 0x1234) 0x31,
    expectNrc "Reset in default session -> NRC 7E" (ecuReset t timing .hard) 0x7E,
    expectOk "Read all DTCs" (readDtcs t timing 0xFF) dtcListText,
    expectOk "Session extended" (startSession t timing .extended)
      fun p => "P2 " ++ toString p.p2 ++ " ms, P2* " ++ toString p.p2Star ++ " ms",
    expectOk "Clear all DTCs" (clearAllDtcs t timing) noDetail,
    expectNoneConfirmed t timing,
    expectOk "Session default" (startSession t timing .default) noDetail,
    expectOk "Functional TesterPresent" (testerPresent t timing true) noDetail,
    expectSilence "Functional unknown service: silent" (request t timing unknownService true)]

def resetSteps : List (Step τ) :=
  [expectOk "Session extended" (startSession t timing .extended) noDetail,
    expectOk "ECUReset hard" (ecuReset t timing .hard) noDetail]

/-- `runRegressionScenario`. -/
def runRegressionScenario (s : τ) : Report × τ := runSteps (regressionSteps t timing) s

/-- `runResetScenario`. -/
def runResetScenario (s : τ) : Report × τ := runSteps (resetSteps t timing) s

variable {t timing} {s s' : τ}

theorem runSteps_cons {step : Step τ} {result : StepResult} (h : step s = (result, s'))
    (steps : List (Step τ)) :
    runSteps (step :: steps) s = (result :: (runSteps steps s').1, (runSteps steps s').2) := by
  rw [runSteps, h]

theorem runSteps_append (first rest : List (Step τ)) (s : τ) :
    runSteps (first ++ rest) s =
      ((runSteps first s).1 ++ (runSteps rest (runSteps first s).2).1,
        (runSteps rest (runSteps first s).2).2) := by
  induction first generalizing s with
  | nil => rfl
  | cons step first ih =>
      simp only [List.cons_append, runSteps, ih]

theorem expectOk_ok {α : Type} {name : String} {call : τ → Except Error α × τ} {describe : α → String}
    {value : α} (h : call s = (.ok value, s')) :
    expectOk name call describe s =
      ({ name := name, passed := true, detail := describe value }, s') := by
  rw [expectOk, h]

theorem expectNrc_ok {α : Type} {name : String} {call : τ → Except Error α × τ} {nrc : UInt8}
    {value : α} (h : call s = (.ok value, s')) :
    expectNrc name call nrc s =
      ({ name := name, passed := false, detail := "positive response" }, s') := by
  rw [expectNrc, h]

theorem expectNrc_refused {α : Type} {name : String} {call : τ → Except Error α × τ} {nrc : UInt8}
    (h : call s = (.error (.negative nrc), s')) :
    expectNrc name call nrc s =
      ({ name := name, passed := true, detail := Error.describe (.negative nrc) }, s') := by
  rw [expectNrc, h]
  simp

end Steps

/-! ### The scenarios against the simulated ECU -/

section Simulated

variable {timing : ClientTiming} (htiming : 0 ≤ timing.maxPending) {e : SimulatedEcu} (h : e.Idle)
include htiming h

theorem request_unknownService :
    request simulatedEcu timing unknownService false e = (.error (.negative 0x11), e.touched) ∧
      request simulatedEcu timing unknownService true e = (.error .timeout, e.touched) := by
  have hsettled : e.settled unknownService = e.touched :=
    SimulatedEcu.settled_eq_touched (by decide) (by decide) (by decide)
  have hresponse : ∀ functional, (e.outcome unknownService functional).response =
      Uds.refusalResponse functional unknownService (some .serviceNotSupported) :=
    SimulatedEcu.response_refused (by decide) rfl
  have hlen : unknownService.length ≤ kMaxResponseLen := by decide
  rw [request_simulated htiming h (by decide) hlen, request_simulated htiming h (by decide) hlen,
    hresponse, hresponse, hsettled]
  exact ⟨rfl, rfl⟩

/-- The steps before the reset change nothing but the time of the last request. -/
theorem run_firstSteps :
    runSteps ((regressionSteps simulatedEcu timing).take 6) e =
      ([⟨"TesterPresent", true, ""⟩,
          ⟨"ReadDID F195 version", true, "\"" ++ asText Diag.fwVersion ++ "\""⟩,
          ⟨"ReadDID 0100 speed", true, speedText (Diag.readSpeed e.signals)⟩,
          ⟨"ReadDID F195 + 0100 + 0101", true, "3 DIDs"⟩,
          ⟨"Unknown service -> NRC 11", true, Error.describe (.negative 0x11)⟩,
          ⟨"Unknown DID -> NRC 31", true, Error.describe (.negative 0x31)⟩],
        e.touched) := by
  have ht := SimulatedEcu.idle_touched h
  have hagree : LengthsAgree (Diag.dids e.signals) kAllDids := by
    intro spec hspec did hfind
    simp only [kAllDids, List.mem_cons, List.not_mem_nil, or_false] at hspec
    obtain rfl | rfl | rfl := hspec <;> cases hfind <;> rfl
  have hpresent : testerPresent simulatedEcu timing false e = (.ok (), e.touched) :=
    invoke_testerPresent htiming h false
  have hversion : readDid simulatedEcu timing kDidSoftwareVersion e.touched =
      (.ok Diag.fwVersion, e.touched) := invoke_readDid htiming ht kDidSoftwareVersion
  have hspeed : readDid simulatedEcu timing kDidVehicleSpeed e.touched =
      (.ok (Diag.readSpeed e.signals), e.touched) := invoke_readDid htiming ht kDidVehicleSpeed
  have hall : readDids simulatedEcu timing kAllDids e.touched =
      (.ok (didValues (Diag.dids e.signals) (kAllDids.map DidSpec.id)), e.touched) :=
    invoke_readDids htiming ht hagree
  have hservice : request simulatedEcu timing unknownService false e.touched =
      (.error (.negative 0x11), e.touched) := (request_unknownService htiming ht).1
  have hdid : readDid simulatedEcu timing 0x1234 e.touched =
      (.error (.negative 0x31), e.touched) := invoke_readDid htiming ht 0x1234
  have hthree : (didValues (Diag.dids e.signals) (kAllDids.map DidSpec.id)).length = 3 := rfl
  simp only [regressionSteps, List.take_succ_cons, List.take_zero]
  rw [runSteps_cons (expectOk_ok hpresent), runSteps_cons (expectOk_ok hversion),
    runSteps_cons (expectOk_ok hspeed), runSteps_cons (expectOk_ok hall),
    runSteps_cons (expectNrc_refused hservice), runSteps_cons (expectNrc_refused hdid)]
  simp only [runSteps, hthree, noDetail]
  rfl

omit htiming in
theorem left_lastCalls :
    ((((((e.left (.readDtcs 0xFF)).left (.startSession .extended)).left .clearAllDtcs).left
      (.readDtcCount 0x08)).left (.startSession .default)).left (.testerPresent true)).touched =
      { e with server := Uds.init e.nowMs, dtc := Dtc.Manager.resetAll Diag.dtcTable } := by
  obtain ⟨-, hpending, htable⟩ := h
  simp [SimulatedEcu.left, SimulatedEcu.touched, Dtc.Manager.clearAll, htable, hpending, Uds.init]

/-- The steps after the reset leave the default session and no trouble codes. -/
theorem run_lastSteps :
    runSteps ((regressionSteps simulatedEcu timing).drop 7) e =
      ([⟨"Read all DTCs", true, dtcListText (dtcsOf e.dtc 0xFF)⟩,
          ⟨"Session extended", true, "P2 50 ms, P2* 5000 ms"⟩, ⟨"Clear all DTCs", true, ""⟩,
          ⟨"Confirmed DTCs = 0 after clear", true, "0 confirmed"⟩, ⟨"Session default", true, ""⟩,
          ⟨"Functional TesterPresent", true, ""⟩,
          ⟨"Functional unknown service: silent", true, "no response"⟩],
        { e with server := Uds.init e.nowMs, dtc := Dtc.Manager.resetAll Diag.dtcTable }) := by
  have h₁ := SimulatedEcu.idle_left h (.readDtcs 0xFF)
  have h₂ := SimulatedEcu.idle_left h₁ (.startSession .extended)
  have h₃ := SimulatedEcu.idle_left h₂ .clearAllDtcs
  have h₄ := SimulatedEcu.idle_left h₃ (.readDtcCount 0x08)
  have h₅ := SimulatedEcu.idle_left h₄ (.startSession .default)
  have h₆ := SimulatedEcu.idle_left h₅ (.testerPresent true)
  have hcodes := invoke_readDtcs htiming h 0xFF
  have hextended := invoke_startSession htiming h₁ .extended
  have hclear := invoke_clearAllDtcs htiming h₂
  have hcount := invoke_readDtcCount htiming h₃ 0x08
  have hdefault := invoke_startSession htiming h₄ .default
  have hpresent := invoke_testerPresent htiming h₅ true
  have hsilent := (request_unknownService htiming h₆).2
  -- the codes have been cleared by then
  have hnone : dtcsOf (Dtc.Manager.resetAll e.dtc.table) 0x08 = [] := by
    rw [h.table]
    decide
  have hconfirmed : expectNoneConfirmed simulatedEcu timing
      (((e.left (.readDtcs 0xFF)).left (.startSession .extended)).left .clearAllDtcs) =
      (⟨"Confirmed DTCs = 0 after clear", true, "0 confirmed"⟩,
        (((e.left (.readDtcs 0xFF)).left (.startSession .extended)).left .clearAllDtcs).left
          (.readDtcCount 0x08)) := by
    have hzero : (((e.left (.readDtcs 0xFF)).left (.startSession .extended)).left
        .clearAllDtcs).answer (.readDtcCount 0x08) = .ok (0 : UInt16) :=
      congrArg (fun dtcs => Except.ok (UInt16.ofNat (List.length dtcs))) hnone
    rw [expectNoneConfirmed, hcount, hzero]
    rfl
  have hsilence : expectSilence "Functional unknown service: silent"
      (request simulatedEcu timing unknownService true)
      ((((((e.left (.readDtcs 0xFF)).left (.startSession .extended)).left .clearAllDtcs).left
        (.readDtcCount 0x08)).left (.startSession .default)).left (.testerPresent true)) =
      (⟨"Functional unknown service: silent", true, "no response"⟩,
        ((((((e.left (.readDtcs 0xFF)).left (.startSession .extended)).left .clearAllDtcs).left
          (.readDtcCount 0x08)).left (.startSession .default)).left (.testerPresent true)).touched) := by
    rw [expectSilence, hsilent]
  simp only [regressionSteps, List.drop_succ_cons, List.drop_zero]
  rw [runSteps_cons (expectOk_ok hcodes), runSteps_cons (expectOk_ok hextended),
    runSteps_cons (expectOk_ok hclear), runSteps_cons hconfirmed,
    runSteps_cons (expectOk_ok hdefault), runSteps_cons (expectOk_ok hpresent),
    runSteps_cons hsilence]
  rw [left_lastCalls h]
  rfl

end Simulated

/-! ### Their reports -/

/-- The report of the regression, as it depends on the state that the ECU is in. -/
def regressionReport (e : SimulatedEcu) : Report :=
  let refused := Error.describe (.negative 0x7E)
  let codes := dtcsOf (e.left (.ecuReset .hard)).dtc 0xFF
  [⟨"TesterPresent", true, ""⟩,
    ⟨"ReadDID F195 version", true, "\"" ++ asText Diag.fwVersion ++ "\""⟩,
    ⟨"ReadDID 0100 speed", true, speedText (Diag.readSpeed e.signals)⟩,
    ⟨"ReadDID F195 + 0100 + 0101", true, "3 DIDs"⟩,
    ⟨"Unknown service -> NRC 11", true, Error.describe (.negative 0x11)⟩,
    ⟨"Unknown DID -> NRC 31", true, Error.describe (.negative 0x31)⟩,
    ⟨"Reset in default session -> NRC 7E", e.server.session = .default,
      if e.server.session = .default then refused else "positive response"⟩,
    ⟨"Read all DTCs", true, dtcListText codes⟩,
    ⟨"Session extended", true, "P2 50 ms, P2* 5000 ms"⟩, ⟨"Clear all DTCs", true, ""⟩,
    ⟨"Confirmed DTCs = 0 after clear", true, "0 confirmed"⟩, ⟨"Session default", true, ""⟩,
    ⟨"Functional TesterPresent", true, ""⟩,
    ⟨"Functional unknown service: silent", true, "no response"⟩]

theorem allPassed_regressionReport (e : SimulatedEcu) :
    (regressionReport e).allPassed ↔ e.server.session = .default := by
  by_cases hsession : e.server.session = .default <;>
    simp [regressionReport, Report.allPassed, Report.passedCount, hsession]

/-- The reset that is to be refused restarts the ECU unless it is in the default session. -/
theorem run_resetStep {timing : ClientTiming} (htiming : 0 ≤ timing.maxPending) {e : SimulatedEcu}
    (h : e.Idle) :
    expectNrc "Reset in default session -> NRC 7E" (ecuReset simulatedEcu timing .hard) 0x7E e =
      (⟨"Reset in default session -> NRC 7E", e.server.session = .default,
        if e.server.session = .default then Error.describe (.negative 0x7E)
        else "positive response"⟩, e.left (.ecuReset .hard)) := by
  have hreset := invoke_ecuReset htiming h .hard
  cases hsession : e.server.session with
  | default =>
      have hanswer : e.answer (.ecuReset .hard) = (.error (.negative 0x7E) : Except Error Unit) := by
        exact if_neg (by simp [hsession])
      rw [hanswer] at hreset
      rw [expectNrc_refused hreset]
      rfl
  | extended =>
      have hanswer : e.answer (.ecuReset .hard) = (.ok () : Except Error Unit) := by
        exact if_pos hsession
      rw [hanswer] at hreset
      rw [expectNrc_ok hreset]
      rfl

/-- What the regression leaves behind: it clears the codes, and may restart the ECU. -/
def SimulatedEcu.regressed (e : SimulatedEcu) : SimulatedEcu :=
  { e.left (.ecuReset .hard) with
    server := Uds.init e.nowMs
    dtc := Dtc.Manager.resetAll Diag.dtcTable }

theorem runRegressionScenario_eq {timing : ClientTiming} (htiming : 0 ≤ timing.maxPending)
    {e : SimulatedEcu} (h : e.Idle) :
    runRegressionScenario simulatedEcu timing e = (regressionReport e, e.regressed) := by
  have hidle := SimulatedEcu.idle_touched h
  have hsplit : regressionSteps simulatedEcu timing =
      (regressionSteps simulatedEcu timing).take 6 ++
        (expectNrc "Reset in default session -> NRC 7E" (ecuReset simulatedEcu timing .hard) 0x7E ::
          (regressionSteps simulatedEcu timing).drop 7) := rfl
  have hleft : e.touched.left (.ecuReset .hard) = e.left (.ecuReset .hard) := by
    cases hsession : e.server.session <;>
      simp [SimulatedEcu.left, SimulatedEcu.touched, SimulatedEcu.powerOn, hsession]
  have hnow : (e.left (.ecuReset .hard)).nowMs = e.nowMs := by
    cases hsession : e.server.session <;>
      simp [SimulatedEcu.left, SimulatedEcu.touched, SimulatedEcu.powerOn, hsession]
  have hlast := run_lastSteps htiming (SimulatedEcu.idle_left h (.ecuReset .hard))
  have hstep := run_resetStep htiming hidle
  rw [hleft] at hstep
  rw [SimulatedEcu.regressed, ← hnow, runRegressionScenario, hsplit, runSteps_append,
    run_firstSteps htiming h, runSteps_cons hstep, hlast]
  rfl

/-- The report of the reset. -/
def resetReport : Report := [⟨"Session extended", true, ""⟩, ⟨"ECUReset hard", true, ""⟩]

theorem runResetScenario_eq {timing : ClientTiming} (htiming : 0 ≤ timing.maxPending)
    {e : SimulatedEcu} (h : e.Idle) :
    runResetScenario simulatedEcu timing e =
      (resetReport, SimulatedEcu.powerOn { e with hardResets := e.hardResets + 1 }) := by
  have hextended := invoke_startSession htiming h .extended
  have hreset := invoke_ecuReset htiming (SimulatedEcu.idle_left h (.startSession .extended)) .hard
  have hanswer : (e.left (.startSession .extended)).answer (.ecuReset .hard) =
      (.ok () : Except Error Unit) := rfl
  rw [hanswer] at hreset
  rw [runResetScenario, resetSteps, runSteps_cons (expectOk_ok hextended),
    runSteps_cons (expectOk_ok hreset)]
  rfl

/-! ### Runs -/

/-- What is done with the tester: single calls, and whole scenarios. -/
inductive TesterOp
  | user (op : UserOp)
  | regression
  | reset

/-- The state that a scenario starts in, and its report. -/
abbrev Reported := SimulatedEcu × Report

def testerStep (timing : ClientTiming) (e : SimulatedEcu) : TesterOp → SimulatedEcu × List Reported
  | .user op => ((clientStep timing e op).1, [])
  | .regression =>
      let (report, e') := runRegressionScenario simulatedEcu timing e
      (e', [(e, report)])
  | .reset =>
      let (report, e') := runResetScenario simulatedEcu timing e
      (e', [(e, report)])

/-- The same without the protocol. -/
def expectedStep (e : SimulatedEcu) : TesterOp → SimulatedEcu × List Reported
  | .user op => ((remoteStep e op).1, [])
  | .regression => (e.regressed, [(e, regressionReport e)])
  | .reset => (SimulatedEcu.powerOn { e with hardResets := e.hardResets + 1 }, [(e, resetReport)])

theorem testerStep_eq {timing : ClientTiming} (htiming : 0 ≤ timing.maxPending) {e : SimulatedEcu}
    (h : e.Idle) (op : TesterOp) :
    testerStep timing e op = expectedStep e op ∧ (testerStep timing e op).1.Idle := by
  cases op with
  | user op =>
      obtain ⟨hleft, hidle⟩ := clientStep_left htiming h op
      exact ⟨congrArg (fun left => (left, [])) hleft, hidle⟩
  | regression =>
      have hleft := SimulatedEcu.idle_left h (.ecuReset .hard)
      rw [testerStep, runRegressionScenario_eq htiming h]
      exact ⟨rfl, hleft.responses, rfl, rfl⟩
  | reset =>
      rw [testerStep, runResetScenario_eq htiming h]
      exact ⟨rfl, h.responses, rfl, rfl⟩

/-- A regression fails at no other step than the reset that is to be refused. -/
theorem failed_regressionReport {e : SimulatedEcu} {result : StepResult}
    (hresult : result ∈ regressionReport e) (hfailed : result.passed = false) :
    result.name = "Reset in default session -> NRC 7E" ∧ e.server.session = .extended := by
  simp only [regressionReport, List.mem_cons, List.not_mem_nil, or_false] at hresult
  obtain rfl | rfl | rfl | rfl | rfl | rfl | rfl | rfl | rfl | rfl | rfl | rfl | rfl | rfl := hresult
  all_goals try cases hfailed
  -- the seventh step is left
  refine ⟨rfl, ?_⟩
  cases hsession : e.server.session with
  | default => simp [hsession] at hfailed
  | extended => rfl

/-- **The scenarios pass on an ECU in the default session.** In every run of calls, monitor reports,
changes of the speed and of the time, and whole scenarios, the reports are those that the state at the
start of the scenario determines. A step fails only where the ECU has been left in the extended session:
it then restarts where the regression wants it to refuse. -/
theorem scenarios_report (timing : ClientTiming) (htiming : 0 ≤ timing.maxPending)
    (ops : List TesterOp) :
    Trace.run (testerStep timing) .initial ops = Trace.run expectedStep .initial ops ∧
      ∀ e report, (e, report) ∈ (Trace.run (testerStep timing) .initial ops).2 →
        (e.server.session = .default → report.allPassed) ∧
        ∀ result ∈ report, result.passed = false →
          result.name = "Reset in default session -> NRC 7E" ∧ e.server.session = .extended := by
  have hrun : Trace.run (testerStep timing) .initial ops = Trace.run expectedStep .initial ops :=
    (Trace.run_congr (I := SimulatedEcu.Idle)
      (fun _ op _ he => testerStep_eq htiming he op) SimulatedEcu.idle_initial).1
  refine ⟨hrun, ?_⟩
  intro e report hreport
  rw [hrun] at hreport
  obtain ⟨before, op, after, -, hop⟩ := Trace.mem_run hreport
  cases op with
  | user op => cases hop
  | regression =>
      obtain ⟨rfl, rfl⟩ := Prod.mk.inj (List.mem_singleton.mp hop)
      exact ⟨(allPassed_regressionReport _).mpr, fun _ => failed_regressionReport⟩
  | reset =>
      obtain ⟨rfl, rfl⟩ := Prod.mk.inj (List.mem_singleton.mp hop)
      refine ⟨fun _ => by decide, ?_⟩
      intro result hresult hfailed
      simp only [resetReport, List.mem_cons, List.not_mem_nil, or_false] at hresult
      obtain rfl | rfl := hresult <;> cases hfailed

/-- Three regressions: one on a new ECU, one in the extended session with a confirmed code, and one on
what this has left. -/
theorem scenarios_report_thrice :
    let ops : List TesterOp := [.regression, .user (.reportMonitor 0 true),
      .user (.call (.startSession .extended)), .regression, .user (.advanceTime 6000), .regression,
      .reset]
    Trace.run (testerStep {}) .initial ops = Trace.run expectedStep .initial ops ∧
      ∀ e report, (e, report) ∈ (Trace.run (testerStep {}) .initial ops).2 →
        (e.server.session = .default → report.allPassed) ∧
        ∀ result ∈ report, result.passed = false →
          result.name = "Reset in default session -> NRC 7E" ∧ e.server.session = .extended :=
  scenarios_report {} (by decide)
    [.regression, .user (.reportMonitor 0 true), .user (.call (.startSession .extended)),
      .regression, .user (.advanceTime 6000), .regression, .reset]

end MiniEcu.Tester
