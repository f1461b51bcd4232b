import MiniEcu.Tester.Client

/-!
# The services of the tester

The other requests of `uds_client.cpp`. They differ in the request and in what they make of the
response; between the two they all wait in the same way.
-/

namespace MiniEcu.Tester

open Uds (Session ResetType)

/-! ### Responses -/

/-- The timing that the response to a session change reports. -/
structure SessionTiming where
  p2 : Nat
  p2Star : Nat
deriving DecidableEq, Repr

/-- A record of ReadDTCInformation. -/
structure Dtc where
  code : UInt32
  status : UInt8
deriving DecidableEq, Repr

/-- The loop of `parseDtcRecords`. -/
def dtcRecordLoop : Bytes → List Dtc
  | hi :: mid :: lo :: status :: rest =>
      { code := Words.be24 hi mid lo, status := status } :: dtcRecordLoop rest
  | _ => []

/-- `parseDtcRecords`. -/
def parseDtcRecords (records : Bytes) : Option (List Dtc) :=
  if records.length % 4 ≠ 0 then none else some (dtcRecordLoop records)

def decodeSession (session : Session) (b : Bytes) : Except Error SessionTiming :=
  if b.length ≠ 6 ∨ b.getD 1 0 ≠ session.byte then .error .malformed
  else
    -- P2 in steps of 1 ms, P2* in steps of 10 ms
    .ok {
      p2 := (Words.be16 (b.getD 2 0) (b.getD 3 0)).toNat
      p2Star := (Words.be16 (b.getD 4 0) (b.getD 5 0)).toNat * 10 }

def decodeTesterPresent (b : Bytes) : Except Error Unit :=
  if b.length ≠ 2 ∨ b.getD 1 0 ≠ 0x00 then .error .malformed else .ok ()

def decodeReset (type : ResetType) (b : Bytes) : Except Error Unit :=
  if b.length < 2 ∨ b.getD 1 0 ≠ type.byte then .error .malformed else .ok ()

def decodeDid (id : UInt16) (b : Bytes) : Except Error Bytes :=
  if b.length < 3 ∨ Words.be16 (b.getD 1 0) (b.getD 2 0) ≠ id then .error .malformed
  else .ok (b.drop 3)

def decodeDtcCount (b : Bytes) : Except Error UInt16 :=
  if b.length ≠ 6 ∨ b.getD 1 0 ≠ 0x01 then .error .malformed
  else .ok (Words.be16 (b.getD 4 0) (b.getD 5 0))

def decodeDtcs (b : Bytes) : Except Error (List Dtc) :=
  if b.length < 3 ∨ b.getD 1 0 ≠ 0x02 then .error .malformed
  else
    match parseDtcRecords (b.drop 3) with
    | none => .error .malformed
    | some dtcs => .ok dtcs

def decodeClear (b : Bytes) : Except Error Unit :=
  if b.length ≠ 1 then .error .malformed else .ok ()

/-! ### Requests -/

section Services

variable {τ : Type} (t : Transport τ) (timing : ClientTiming)

/-- `UdsClient::startSession`. -/
def startSession (session : Session) (s : τ) : Except Error SessionTiming × τ :=
  exchange t timing [Uds.sidDiagSessionControl, session.byte] false (decodeSession session) s

/-- `UdsClient::testerPresent`. -/
def testerPresent (functional : Bool) (s : τ) : Except Error Unit × τ :=
  exchange t timing [Uds.sidTesterPresent, 0x00] functional decodeTesterPresent s

/-- `UdsClient::ecuReset`. -/
def ecuReset (type : ResetType) (s : τ) : Except Error Unit × τ :=
  exchange t timing [Uds.sidEcuReset, type.byte] false (decodeReset type) s

/-- `UdsClient::readDid`. -/
def readDid (id : UInt16) (s : τ) : Except Error Bytes × τ :=
  exchange t timing [Uds.sidReadDid, (id >>> 8).toUInt8, (id &&& 0xFF).toUInt8] false (decodeDid id) s

/-- `UdsClient::readDtcCount`. -/
def readDtcCount (mask : UInt8) (s : τ) : Except Error UInt16 × τ :=
  exchange t timing [Uds.sidReadDtc, 0x01, mask] false decodeDtcCount s

/-- `UdsClient::readDtcs`. -/
def readDtcs (mask : UInt8) (s : τ) : Except Error (List Dtc) × τ :=
  exchange t timing [Uds.sidReadDtc, 0x02, mask] false decodeDtcs s

/-- `UdsClient::clearAllDtcs`. -/
def clearAllDtcs (s : τ) : Except Error Unit × τ :=
  exchange t timing [Uds.sidClearDtc, 0xFF, 0xFF, 0xFF] false decodeClear s

end Services

end MiniEcu.Tester
