import MiniEcu.Dtc.Manager
import MiniEcu.Lib.Memory

/-!
# The UDS server

The functions of `uds_server.c`. A service works on a `Ctx`, which carries the server's statics and
the DTC manager along with the request and the response buffer, and answers nothing or a negative
response code. The buffer is memory: a store past its end would make it longer. The clock is a
parameter, read where the source reads it.
-/

namespace MiniEcu.Uds

open Memory

abbrev Bytes := List UInt8

/-! ### Constants -/

abbrev sidDiagSessionControl : UInt8 := 0x10
abbrev sidEcuReset : UInt8 := 0x11
abbrev sidClearDtc : UInt8 := 0x14
abbrev sidReadDtc : UInt8 := 0x19
abbrev sidReadDid : UInt8 := 0x22
abbrev sidTesterPresent : UInt8 := 0x3E
abbrev sidNegativeResponse : UInt8 := 0x7F
abbrev positiveOffset : UInt8 := 0x40

abbrev sprmib : UInt8 := 0x80
abbrev subfunctionMask : UInt8 := 0x7F
abbrev dtcFormatIso14229 : UInt8 := 0x01
abbrev dtcGroupAll : Nat := 0xFFFFFF
abbrev dtcRecordLen : Nat := 4

abbrev p2ServerMs : Nat := 50
abbrev p2StarServerMs : Nat := 5000
abbrev s3ServerMs : Nat := 5000

inductive Nrc
  | serviceNotSupported
  | subfunctionNotSupported
  | incorrectLength
  | responseTooLong
  | requestOutOfRange
  | subfuncNotSuppInSession
  | serviceNotSuppInSession
deriving DecidableEq, Repr

def Nrc.byte : Nrc → UInt8
  | serviceNotSupported => 0x11
  | subfunctionNotSupported => 0x12
  | incorrectLength => 0x13
  | responseTooLong => 0x14
  | requestOutOfRange => 0x31
  | subfuncNotSuppInSession => 0x7E
  | serviceNotSuppInSession => 0x7F

inductive Session
  | default
  | extended
deriving DecidableEq, Repr

def Session.byte : Session → UInt8
  | default => 0x01
  | extended => 0x03

def Session.ofByte? (b : UInt8) : Option Session :=
  if b = 0x01 then some .default else if b = 0x03 then some .extended else none

inductive ResetType
  | hard
  | soft
deriving DecidableEq, Repr

def ResetType.byte : ResetType → UInt8
  | hard => 0x01
  | soft => 0x03

def ResetType.ofByte? (b : UInt8) : Option ResetType :=
  if b = 0x01 then some .hard else if b = 0x03 then some .soft else none

/-! ### State -/

/-- An entry of the DID table. `read` is what the callback of that name would write now, which is
exactly as many bytes as the entry announces. -/
structure Did where
  id : UInt16
  length : UInt8
  read : Bytes
  exact : read.length = length.toNat

/-- The module's statics. `RESET_NONE` is `none`. -/
structure Server where
  session : Session := .default
  lastRequestMs : Nat := 0
  pendingReset : Option ResetType := none
deriving DecidableEq, Repr

/-- `Ctx_t` and what else a service can change. -/
structure Ctx where
  req : Bytes
  resp : Bytes
  respMax : Nat
  respLen : Nat := 0
  suppressPositive : Bool := false
  server : Server
  dtc : Dtc.Manager

namespace Ctx

def byte (c : Ctx) (i : Nat) : UInt8 := c.req.getD i 0

/-- Whether the second byte asks to suppress a positive response. -/
def suppresses (c : Ctx) : Bool := c.byte 1 &&& sprmib ≠ 0

/-- Store bytes at the end of the response. -/
def write (c : Ctx) (bs : Bytes) : Ctx :=
  { c with resp := copy c.resp c.respLen bs, respLen := (c.respLen + bs.length) % 2 ^ 16 }

/-- `Put`, whose answer every caller drops. -/
def put (c : Ctx) (b : UInt8) : Ctx := if c.respMax ≤ c.respLen then c else c.write [b]

def puts (c : Ctx) (bs : Bytes) : Ctx := bs.foldl put c

end Ctx

/-- `Negative`: the length of the response and the buffer it is in. -/
def negative (c : Ctx) (nrc : Nrc) : Nat × Bytes :=
  if c.respMax < 3 then (0, c.resp)
  else (3, copy c.resp 0 [sidNegativeResponse, c.byte 0, nrc.byte])

def findDid (dids : List Did) (id : UInt16) : Option Did := dids.find? fun did => did.id = id

/-! ### Services -/

def sessionControl (c : Ctx) : Option Nrc × Ctx :=
  if c.req.length ≠ 2 then (some .incorrectLength, c)
  else
    match Session.ofByte? (c.byte 1 &&& subfunctionMask) with
    | none => (some .subfunctionNotSupported, c)
    | some session =>
        (none, { c with
          server := { c.server with session := session }
          suppressPositive := c.suppresses }.puts
          [sidDiagSessionControl + positiveOffset, session.byte, UInt8.ofNat (p2ServerMs >>> 8),
            UInt8.ofNat (p2ServerMs &&& 0xFF), UInt8.ofNat ((p2StarServerMs / 10) >>> 8),
            UInt8.ofNat ((p2StarServerMs / 10) &&& 0xFF)])

def ecuReset (c : Ctx) : Option Nrc × Ctx :=
  if c.req.length ≠ 2 then (some .incorrectLength, c)
  else
    match ResetType.ofByte? (c.byte 1 &&& subfunctionMask) with
    | none => (some .subfunctionNotSupported, c)
    | some type =>
        if c.server.session ≠ .extended then (some .subfuncNotSuppInSession, c)
        else
          -- executed after the response is on the bus
          (none, { c with
            server := { c.server with pendingReset := some type }
            suppressPositive := c.suppresses }.puts [sidEcuReset + positiveOffset, type.byte])

def clearDtc (c : Ctx) : Option Nrc × Ctx :=
  if c.req.length ≠ 4 then (some .incorrectLength, c)
  else
    let group := (c.byte 1).toNat <<< 16 ||| (c.byte 2).toNat <<< 8 ||| (c.byte 3).toNat
    if group ≠ dtcGroupAll then (some .requestOutOfRange, c)
    else (none, { c with dtc := c.dtc.clearAll }.puts [sidClearDtc + positiveOffset])

def readDtc (c : Ctx) : Option Nrc × Ctx :=
  let subFunction := c.byte 1 &&& subfunctionMask
  if c.req.length < 2 then (some .incorrectLength, c)
  else if subFunction ≠ 0x01 ∧ subFunction ≠ 0x02 then (some .subfunctionNotSupported, c)
  else if c.req.length ≠ 3 then (some .incorrectLength, c)
  else
    let mask := c.byte 2
    let count := c.dtc.countByStatusMask mask
    let c := c.puts [sidReadDtc + positiveOffset, subFunction, Dtc.statusAvailabilityMask]
    if subFunction = 0x01 then
      (none, c.puts [dtcFormatIso14229, UInt8.ofNat (count >>> 8), UInt8.ofNat (count &&& 0xFF)])
    else
      let room := (c.respMax - c.respLen) / dtcRecordLen
      let maxRecords := if room > 0xFF then 0xFF else room
      if maxRecords < count then (some .responseTooLong, c)
      else (none, c.write (c.dtc.getByStatusMask mask maxRecords))

/-- The `i`-th DID of the request. -/
def requestedDid (c : Ctx) (i : Nat) : UInt16 :=
  (c.byte (1 + 2 * i)).toUInt16 <<< 8 ||| (c.byte (2 + 2 * i)).toUInt16

/-- The loop of `ReadDid` over the DIDs that are left. -/
def readDidLoop (dids : List Did) : List UInt16 → Bool → Ctx → Option Nrc × Ctx
  | [], anyFound, c => (if anyFound then none else some .requestOutOfRange, c)
  | id :: ids, anyFound, c =>
      match findDid dids id with
      | none => readDidLoop dids ids anyFound c   -- unknown DIDs are skipped
      | some did =>
          if c.respMax < c.respLen + 2 + did.length.toNat then (some .responseTooLong, c)
          else
            readDidLoop dids ids true
              ((c.puts [(id >>> 8).toUInt8, id.toUInt8]).write did.read)

def readDid (dids : List Did) (c : Ctx) : Option Nrc × Ctx :=
  if c.req.length < 3 ∨ (c.req.length - 1) % 2 ≠ 0 then (some .incorrectLength, c)
  else
    let nDids := (c.req.length - 1) / 2
    readDidLoop dids ((List.range nDids).map (requestedDid c)) false
      (c.puts [sidReadDid + positiveOffset])

def testerPresent (c : Ctx) : Option Nrc × Ctx :=
  if c.req.length ≠ 2 then (some .incorrectLength, c)
  else if c.byte 1 &&& subfunctionMask ≠ 0x00 then (some .subfunctionNotSupported, c)
  else
    (none, { c with suppressPositive := c.suppresses }.puts
      [sidTesterPresent + positiveOffset, 0x00])

def isSuppressedForFunctional (nrc : Nrc) : Bool :=
  nrc = .serviceNotSupported || nrc = .subfunctionNotSupported || nrc = .requestOutOfRange ||
    nrc = .subfuncNotSuppInSession || nrc = .serviceNotSuppInSession

/-! ### Public API -/

/-- `Uds_Init`, at the time the clock shows. -/
def init (time : Nat) : Server where
  lastRequestMs := time % 2 ^ 32

/-- The service the first byte of the request selects. -/
def service (dids : List Did) (c : Ctx) : Option Nrc × Ctx :=
  if c.byte 0 = sidDiagSessionControl then sessionControl c
  else if c.byte 0 = sidEcuReset then ecuReset c
  else if c.byte 0 = sidClearDtc then clearDtc c
  else if c.byte 0 = sidReadDtc then readDtc c
  else if c.byte 0 = sidReadDid then readDid dids c
  else if c.byte 0 = sidTesterPresent then testerPresent c
  else (some .serviceNotSupported, c)

/-- What `Uds_ProcessRequest` returns and leaves behind. -/
structure Outcome where
  respLen : Nat
  resp : Bytes
  server : Server
  dtc : Dtc.Manager

/-- The bytes the caller is to send. -/
def Outcome.response (o : Outcome) : Bytes := o.resp.take o.respLen

/-- `Uds_ProcessRequest`, if the clock shows `time` when it is read. -/
def processRequest (dids : List Did) (time : Nat) (req : Bytes) (functional : Bool) (resp : Bytes)
    (respMax : Nat) (server : Server) (dtc : Dtc.Manager) : Outcome :=
  if req.length = 0 then { respLen := 0, resp := resp, server := server, dtc := dtc }
  else
    -- any request keeps a non-default session alive
    let server := { server with lastRequestMs := time % 2 ^ 32 }
    let (nrc, c) := service dids
      { req := req, resp := resp, respMax := respMax, server := server, dtc := dtc }
    match nrc with
    | some nrc =>
        if functional ∧ isSuppressedForFunctional nrc then
          { respLen := 0, resp := c.resp, server := c.server, dtc := c.dtc }
        else
          let (respLen, resp) := negative c nrc
          { respLen := respLen, resp := resp, server := c.server, dtc := c.dtc }
    | none =>
        { respLen := if c.suppressPositive then 0 else c.respLen
          resp := c.resp
          server := c.server
          dtc := c.dtc }

/-- `Uds_MainFunction`, if the clock shows `time` when it is read. -/
def mainFunction (time : Nat) (server : Server) : Server :=
  if server.session = .default then server
  else if s3ServerMs ≤ elapsed (time % 2 ^ 32) server.lastRequestMs then
    { server with session := .default }
  else server

/-- `Uds_ExecutePendingReset`: the reset to be run by the callback, if any. -/
def executePendingReset (server : Server) : Option ResetType × Server :=
  match server.pendingReset with
  | none => (none, server)
  | some type => (some type, { server with pendingReset := none, session := .default })

end MiniEcu.Uds
