import MiniEcu.IsoTp.Reactive
import MiniEcu.Uds.Services

/-!
# The diagnostics of the Control ECU

The functions of `diag_app.c`: the UDS server behind the ISO-TP link, its data identifiers and
trouble codes, and the callbacks between the two. The loopback self-test is switched off, so there
is one link; of the self-test's link only the receive path is here. All calls come from one task
except `DiagApp_ReportFault`, which the DTC manager's lock makes one atomic step between two of them.
-/

namespace MiniEcu.Diag

open Memory (copy slice)
open IsoTp (App Config Env Event Frame Link Reaction World nested react)
open Uds (Did ResetType Session)

abbrev Bytes := List UInt8

/-! ### Constants -/

def diagBufferSize : Nat := 256

def canIdUdsReqControl : UInt16 := 0x7E0
def canIdUdsRespControl : UInt16 := 0x7E8
def canIdUdsFunctional : UInt16 := 0x7DF

/-- The bytes of `FW_VERSION`, which is `CTRL-0.3.0`. -/
def fwVersion : Bytes := [0x43, 0x54, 0x52, 0x4C, 0x2D, 0x30, 0x2E, 0x33, 0x2E, 0x30]

/-- `k_dtcTable`. -/
def dtcTable : List Dtc.Config :=
  [{ code := 0xC10087, confirmThreshold := 1 },   -- lost communication with Sensor ECU
    { code := 0x050100, confirmThreshold := 3 },   -- vehicle speed sensor range/performance
    { code := 0xC40081, confirmThreshold := 3 },   -- invalid data received from Sensor ECU
    { code := 0x050096, confirmThreshold := 3 },   -- vehicle speed sensor internal failure
    { code := 0x9A0011, confirmThreshold := 3 }]   -- output driver circuit short to ground

/-! ### Data identifiers -/

/-- What the rest of the application shows to the diagnostics. -/
structure Signals where
  speedX10 : UInt16
  faultMask : UInt8

def readVersion : Bytes := fwVersion

def readSpeed (signals : Signals) : Bytes :=
  [(signals.speedX10 >>> 8).toUInt8, (signals.speedX10 &&& 0xFF).toUInt8]

def readFaults (signals : Signals) : Bytes := [signals.faultMask]

/-- `k_dids`. -/
def dids (signals : Signals) : List Did :=
  [{ id := 0xF195, length := 10, read := readVersion, exact := rfl },
    { id := 0x0100, length := 2, read := readSpeed signals, exact := rfl },
    { id := 0x0101, length := 1, read := readFaults signals, exact := rfl }]

/-! ### State -/

/-- The statics behind the link. `restart` is set once `SysDrv_Restart` has been called. -/
structure Ecu where
  server : Uds.Server
  dtc : Dtc.Manager
  respBuf : Bytes
  restart : Bool := false

structure Request where
  session : Session
  bytes : Bytes
  functional : Bool
deriving DecidableEq, Repr

/-- What the callbacks record: a request with its response, which is empty if there is none, and a
run of the reset callback. -/
inductive Record
  | request (r : Request) (response : Bytes)
  | ecuReset (type : ResetType)
deriving DecidableEq, Repr

/-! ### Callbacks -/

/-- The reset callback. A soft reset starts a new operation cycle. -/
def ecuReset (type : ResetType) (a : Ecu) : Ecu :=
  match type with
  | .soft => { a with dtc := a.dtc.startOperationCycle }
  | .hard => { a with restart := true }

/-- `RespondTo` up to the transmission of the response. -/
def respondTo (signals : Signals) (clock : Nat → Nat) (req : Bytes) (functional : Bool) (a : Ecu) :
    Reaction Ecu Record :=
  let o := Uds.processRequest (dids signals) (clock 0) req functional a.respBuf diagBufferSize
    a.server a.dtc
  { app := { a with server := o.server, dtc := o.dtc, respBuf := o.resp }
    log := [.request { session := a.server.session, bytes := req, functional := functional }
      o.response]
    reads := if req.length = 0 then 0 else 1
    sends := if 0 < o.respLen then [o.response] else [] }

def onEcuRequest (signals : Signals) (clock : Nat → Nat) (data : Bytes) (result : IsoTp.Result)
    (a : Ecu) : Reaction Ecu Record :=
  if result = .ok then respondTo signals clock data false a else { app := a }

def onEcuResponseSent (result : IsoTp.Result) (a : Ecu) : Reaction Ecu Record :=
  if result = .ok then
    -- a reset only after its response is on the bus
    match Uds.executePendingReset a.server with
    | (none, server) => { app := { a with server := server } }
    | (some type, server) =>
        { app := ecuReset type { a with server := server }, log := [.ecuReset type] }
  else { app := a }

/-- The application behind the link. -/
def diagApp (signals : Signals) : App Ecu Record where
  rxIndication clock data result a := onEcuRequest signals clock data result a
  txConfirmation _ result a := onEcuResponseSent result a

/-! ### Public API -/

def linkConfig : Config where
  txId := canIdUdsRespControl.toNat
  rxId := canIdUdsReqControl.toNat
  rxBuffer := List.replicate diagBufferSize 0
  txBuffer := List.replicate diagBufferSize 0
  blockSize := 0   -- tester may send all CFs at once
  stMin := 0
  nBsTimeoutMs := 0
  nCrTimeoutMs := 0

structure State where
  link : Link
  ecu : Ecu

/-- `DiagApp_Init` at the time the clock shows. The table has entries, and not too many. -/
def boot (time : Nat) : State where
  link := IsoTp.init linkConfig
  ecu :=
    { server := Uds.init time
      dtc := Dtc.Manager.resetAll dtcTable
      respBuf := List.replicate diagBufferSize 0 }

/-- `CanDrv_Frame_t`. -/
structure CanFrame where
  id : UInt16
  data : Frame
  dlc : Nat
  dlc_le : dlc ≤ 8
deriving DecidableEq

/-- A frame with all its eight bytes. -/
def CanFrame.full (id : UInt16) (data : Frame) : CanFrame where
  id := id
  data := data
  dlc := 8
  dlc_le := Nat.le_refl 8

/-- The request in a single frame on the functional identifier. -/
def functionalRequest (frame : CanFrame) : Option Bytes :=
  let len := frame.data.pciLow
  if frame.data.pciType = 0 ∧ 0 < len ∧ len < frame.dlc then some (slice frame.data.bytes 1 len)
  else none

/-- `DiagApp_OnFrame`. No confirmation transmits, so callbacks nest no deeper. -/
def onFrame (signals : Signals) (frame : CanFrame) (w : World Ecu Record) : World Ecu Record :=
  let app := diagApp signals
  if frame.id = canIdUdsReqControl then
    IsoTp.rxFrame app (nested app 0) frame.data frame.dlc w
  else if frame.id = canIdUdsFunctional then
    match functionalRequest frame with
    | some req =>
        react (nested app 0)
          (respondTo signals (fun k => w.env.clock (w.reads + k)) req true w.app) w
    | none => w
  else w   -- not for us

/-- `Uds_MainFunction` reads the clock in a non-default session only. -/
def udsMainFunction (w : World Ecu Record) : World Ecu Record :=
  if w.app.server.session = .default then w
  else
    { w with app :=
        { w.app with server := Uds.mainFunction (w.env.clock w.reads) w.app.server } }.tick

/-- `DiagApp_MainFunction`. The rest is not reached once the firmware restarts. -/
def mainFunction (signals : Signals) (w : World Ecu Record) : World Ecu Record :=
  let app := diagApp signals
  let w := IsoTp.mainFunction app (nested app 0) w
  if w.app.restart then w else udsMainFunction w

def reportFault (index : UInt8) (failed : Bool) (w : World Ecu Record) : World Ecu Record :=
  { w with app := { w.app with dtc := w.app.dtc.reportResult index.toNat failed } }

/-! ### The link of the loopback self-test -/

/-- What `OnTesterResponse` writes. -/
structure Tester where
  resp : Bytes
  respLen : Nat := 0
  gotResp : Bool := false

def onTesterResponse (data : Bytes) (result : IsoTp.Result) (t : Tester) : Reaction Tester Empty :=
  if result = .ok ∧ data.length ≤ t.resp.length then
    { app := { resp := copy t.resp 0 data, respLen := data.length, gotResp := true } }
  else { app := t }

/-- Its confirmation callback is `NULL`. -/
def testerApp : App Tester Empty where
  rxIndication _ data result t := onTesterResponse data result t
  txConfirmation _ _ t := { app := t }

/-- `DiagApp_OnFrame` with both links. -/
def onFrameLoopback (signals : Signals) (selfTest : Bool) (frame : CanFrame) (w : World Ecu Record)
    (t : World Tester Empty) : World Ecu Record × World Tester Empty :=
  if frame.id = canIdUdsReqControl ∨ frame.id = canIdUdsFunctional then (onFrame signals frame w, t)
  else if frame.id = canIdUdsRespControl ∧ selfTest then
    (w, IsoTp.rxFrame testerApp (nested testerApp 0) frame.data frame.dlc t)
  else (w, t)   -- not for us

/-! ### Runs -/

inductive Input
  | onFrame (frame : CanFrame)
  | mainFunction
  | reportFault (index : UInt8) (failed : Bool)
deriving DecidableEq

/-- A call, with the driver, the clock and the signals it meets. -/
structure Stimulus where
  env : Env
  signals : Signals
  input : Input

/-- The call itself. -/
def perform (s : State) (i : Stimulus) : World Ecu Record :=
  let w := { link := s.link, app := s.ecu, env := i.env }
  match i.input with
  | .onFrame frame => onFrame i.signals frame w
  | .mainFunction => mainFunction i.signals w
  | .reportFault index failed => reportFault index failed w

/-- What a call leaves. `SysDrv_Restart` never returns to it: the firmware boots. -/
def leave (w : World Ecu Record) : State :=
  if w.app.restart then boot (w.env.clock w.reads) else { link := w.link, ecu := w.app }

def step (s : State) (i : Stimulus) : State × List (Event Record) :=
  (leave (perform s i), (perform s i).events)

/-! ### The callbacks act on success only -/

theorem attentive_diagApp (signals : Signals) : (diagApp signals).Attentive where
  confirmed _ _ _ herr := if_neg herr
  indicated _ _ _ _ herr := if_neg herr
  sends clock a := by
    show (onEcuResponseSent .ok a).sends = []
    rw [onEcuResponseSent, if_pos rfl]
    split <;> rfl

end MiniEcu.Diag
