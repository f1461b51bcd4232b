import MiniEcu.Diag.App
import MiniEcu.Uds.Grammar

/-!
# The tester

The client of `uds_client.cpp` over a transport, as far as it reads data identifiers, and the
simulated ECU of `simulated_ecu.cpp` as such a transport. The response to a read carries no lengths:
the client takes them from a table of its own.
-/

namespace MiniEcu.Tester

open Uds (Did Server didRecord didRecords findDid knownDid processRequest)

abbrev Bytes := List UInt8

/-! ### Transports -/

/-- `ITransport`. `send` gets a request and whether it is a functional one. -/
structure Transport (τ : Type) where
  send : Bytes → Bool → τ → Bool × τ
  receive : Nat → τ → Option Bytes × τ

/-- The transport takes every request that is not too long and then delivers the response to it. -/
def Transport.Carries {τ : Type} (t : Transport τ) (s : τ) (respond : Bytes → Bytes) : Prop :=
  ∀ req, req ≠ [] → req.length ≤ 4095 → respond req ≠ [] →
    (t.send req false s).1 = true ∧
      ∀ timeout, (t.receive timeout (t.send req false s).2).1 = some (respond req)

/-! ### The client -/

inductive Error
  | timeout
  | negative (nrc : UInt8)
  | malformed
  | sendFailed
deriving DecidableEq, Repr

structure ClientTiming where
  p2 : Nat := 150
  p2Star : Nat := 5500
  maxPending : Int := 10

structure DidSpec where
  id : UInt16
  length : Nat
deriving DecidableEq, Repr

structure DidValue where
  id : UInt16
  data : Bytes
deriving DecidableEq, Repr

/-- `Nrc::ResponsePending`. -/
def nrcResponsePending : UInt8 := 0x78

section Client

variable {τ : Type} (t : Transport τ) (timing : ClientTiming)

/-- The loop of `UdsClient::request`, with the turns that are left. -/
def awaitResponse (sid : UInt8) : Nat → Nat → τ → Except Error Bytes × τ
  | 0, _, s => (.error .timeout, s)
  | pending + 1, timeout, s =>
      match t.receive timeout s with
      | (none, s) => (.error .timeout, s)
      | (some r, s) =>
          if r.length = 3 ∧ r.getD 0 0 = Uds.sidNegativeResponse ∧ r.getD 1 0 = sid then
            if r.getD 2 0 ≠ nrcResponsePending then (.error (.negative (r.getD 2 0)), s)
            else awaitResponse sid pending timing.p2Star s   -- ECU needs more time
          else if r ≠ [] ∧ r.getD 0 0 = sid + Uds.positiveOffset then (.ok r, s)
          else (.error .malformed, s)

/-- `UdsClient::request`. -/
def request (req : Bytes) (functional : Bool) (s : τ) : Except Error Bytes × τ :=
  if req = [] then (.error .malformed, s)
  else
    match t.send req functional s with
    | (false, s) => (.error .sendFailed, s)
    | (true, s) => awaitResponse t timing (req.getD 0 0) (timing.maxPending + 1).toNat timing.p2 s

/-- What all services do: the request, and what is made of the response. -/
def exchange {α : Type} (req : Bytes) (functional : Bool) (decode : Bytes → Except Error α) (s : τ) :
    Except Error α × τ :=
  match request t timing req functional s with
  | (.error e, s) => (.error e, s)
  | (.ok r, s) => (decode r, s)

/-- The loop of `UdsClient::readDids` over what is left of the response. -/
def decodeDids (specs : List DidSpec) : Bytes → Except Error (List DidValue)
  | [] => .ok []
  | [_] => .error .malformed
  | hi :: lo :: rest =>
      match specs.find? fun spec => spec.id = Words.be16 hi lo with
      | none => .error .malformed
      | some spec =>
          if rest.length < spec.length then .error .malformed
          else
            (decodeDids specs (rest.drop spec.length)).map fun values =>
              { id := Words.be16 hi lo, data := rest.take spec.length } :: values
termination_by bs => bs.length
decreasing_by
  simp only [List.length_drop, List.length_cons]
  omega

def readDidsRequest (specs : List DidSpec) : Bytes :=
  Uds.sidReadDid :: specs.flatMap fun spec => Words.bytes spec.id

/-- `UdsClient::readDids`. -/
def readDids (specs : List DidSpec) (s : τ) : Except Error (List DidValue) × τ :=
  match request t timing (readDidsRequest specs) false s with
  | (.error e, s) => (.error e, s)
  | (.ok r, s) => (decodeDids specs (r.drop 1), s)

end Client

/-! ### Exchanges -/

section Exchange

variable {τ : Type} {t : Transport τ} {timing : ClientTiming} {α : Type} {req : Bytes}
  {functional : Bool} {decode : Bytes → Except Error α} {s : τ}

theorem readDids_eq_exchange (specs : List DidSpec) :
    readDids t timing specs s =
      exchange t timing (readDidsRequest specs) false (fun r => decodeDids specs (r.drop 1)) s := rfl

theorem exchange_ok {r : Bytes} (h : (request t timing req functional s).1 = .ok r) :
    (exchange t timing req functional decode s).1 = decode r := by
  rw [exchange]
  generalize request t timing req functional s = result at h
  obtain ⟨outcome, s'⟩ := result
  obtain rfl : outcome = _ := h
  rfl

theorem exchange_error {e : Error} (h : (request t timing req functional s).1 = .error e) :
    (exchange t timing req functional decode s).1 = .error e := by
  rw [exchange]
  generalize request t timing req functional s = result at h
  obtain ⟨outcome, s'⟩ := result
  obtain rfl : outcome = _ := h
  rfl

theorem exchange_state :
    (exchange t timing req functional decode s).2 = (request t timing req functional s).2 := by
  rw [exchange]
  generalize request t timing req functional s = result
  obtain ⟨outcome, s'⟩ := result
  cases outcome <;> rfl

end Exchange

/-! ### Decoding -/

/-- What a read of the given DIDs has to give: the known ones in order, with their data. -/
def didValues (dids : List Did) (ids : List UInt16) : List DidValue :=
  ids.filterMap fun id => (findDid dids id).map fun did => { id := id, data := did.read }

/-- The client and the server know the same lengths. -/
def LengthsAgree (dids : List Did) (specs : List DidSpec) : Prop :=
  ∀ spec ∈ specs, ∀ did, findDid dids spec.id = some did → spec.length = did.length.toNat

section Decoding

variable {dids : List Did} {specs : List DidSpec}

theorem didValues_cons_known {id : UInt16} {did : Did} (hfind : findDid dids id = some did)
    (ids : List UInt16) :
    didValues dids (id :: ids) = { id := id, data := did.read } :: didValues dids ids := by
  rw [didValues, List.filterMap_cons, hfind]
  rfl

theorem didValues_cons_unknown {id : UInt16} (hfind : findDid dids id = none) (ids : List UInt16) :
    didValues dids (id :: ids) = didValues dids ids := by
  rw [didValues, List.filterMap_cons, hfind]
  rfl

/-- The decoder undoes the encoder. -/
theorem decodeDids_didRecords (hagree : LengthsAgree dids specs) {ids : List UInt16}
    (hids : ∀ id ∈ ids, ∃ spec ∈ specs, spec.id = id) :
    decodeDids specs (didRecords dids ids) = .ok (didValues dids ids) := by
  induction ids with
  | nil =>
      rw [didRecords, List.flatMap_nil, decodeDids]
      rfl
  | cons id ids ih =>
      have hrest := ih fun id hid => hids id (List.mem_cons_of_mem _ hid)
      rw [Uds.didRecords_cons]
      cases hfind : findDid dids id with
      | none => rw [Uds.didRecord_unknown hfind, List.nil_append, didValues_cons_unknown hfind, hrest]
      | some did =>
          obtain ⟨spec, hspec, hid⟩ := hids id List.mem_cons_self
          obtain ⟨found, hfound⟩ := Option.isSome_iff_exists.mp
            (List.find?_isSome (p := fun spec : DidSpec => decide (spec.id = id)) |>.mpr
              ⟨spec, hspec, decide_eq_true hid⟩)
          have hfoundId : found.id = id := by
            have hdecide := List.find?_some hfound
            exact of_decide_eq_true hdecide
          have hlength : found.length = did.read.length := by
            rw [did.exact]
            exact hagree found (List.mem_of_find?_eq_some hfound) did (by rw [hfoundId, hfind])
          rw [Uds.didRecord_known hfind, didValues_cons_known hfind]
          show decodeDids specs ((id >>> 8).toUInt8 :: id.toUInt8 ::
            (did.read ++ didRecords dids ids)) = _
          rw [decodeDids, Words.be16_bytes, hfound]
          simp only [hlength, List.length_append, List.take_left', List.drop_left', hrest]
          rw [if_neg (by omega)]
          rfl

end Decoding

/-! ### The simulated ECU -/

def kMaxResponseLen : Nat := 4095

structure SimulatedEcu where
  server : Server
  dtc : Dtc.Manager
  signals : Diag.Signals
  nowMs : Nat
  responses : List Bytes := []
  hardResets : Nat := 0
  softResets : Nat := 0

namespace SimulatedEcu

/-- `powerOn`. Trouble codes and faults live in memory that a restart loses. -/
def powerOn (e : SimulatedEcu) : SimulatedEcu :=
  { e with
    dtc := Dtc.Manager.resetAll Diag.dtcTable
    server := Uds.init e.nowMs
    signals := { e.signals with faultMask := 0 } }

def outcome (e : SimulatedEcu) (req : Bytes) (functional : Bool) : Uds.Outcome :=
  processRequest (Diag.dids e.signals) e.nowMs req functional (List.replicate kMaxResponseLen 0)
    kMaxResponseLen e.server e.dtc

def send (req : Bytes) (functional : Bool) (e : SimulatedEcu) : Bool × SimulatedEcu :=
  if req = [] ∨ kMaxResponseLen < req.length then (false, e)
  else
    let o := outcome e req functional
    let e := { e with
      dtc := o.dtc
      responses := if 0 < o.respLen then e.responses ++ [o.response] else e.responses }
    -- the reset runs only after its response has been sent
    match Uds.executePendingReset o.server with
    | (none, server) => (true, { e with server := server })
    | (some .hard, server) =>
        (true, powerOn { e with server := server, hardResets := e.hardResets + 1 })
    | (some .soft, server) =>
        (true, { e with
          server := server
          softResets := e.softResets + 1
          dtc := e.dtc.startOperationCycle })

def receive (_timeout : Nat) (e : SimulatedEcu) : Option Bytes × SimulatedEcu :=
  match e.responses with
  | [] => (none, e)
  | r :: rs => (some r, { e with responses := rs })

end SimulatedEcu

def simulatedEcu : Transport SimulatedEcu where
  send := SimulatedEcu.send
  receive := SimulatedEcu.receive

/-- The simulated ECU carries requests, as long as it has no response left over. -/
theorem carries_simulatedEcu {e : SimulatedEcu} (hresponses : e.responses = []) :
    simulatedEcu.Carries e fun req => (e.outcome req false).response := by
  intro req hreq hlen hresponse
  have hsome : 0 < (e.outcome req false).respLen := by
    refine Nat.pos_of_ne_zero fun hzero => hresponse ?_
    show List.take _ _ = []
    rw [hzero, List.take_zero]
  have hsend : ∀ e', e'.responses = [(e.outcome req false).response] → ∀ timeout,
      (SimulatedEcu.receive timeout e').1 = some (e.outcome req false).response := by
    intro e' he' timeout
    rw [SimulatedEcu.receive, he']
  show (SimulatedEcu.send req false e).1 = true ∧
    ∀ timeout, (SimulatedEcu.receive timeout (SimulatedEcu.send req false e).2).1 = _
  rw [SimulatedEcu.send, if_neg (by simp [hreq, kMaxResponseLen, hlen])]
  simp only [if_pos hsome, hresponses, List.nil_append]
  split
  · exact ⟨rfl, hsend _ rfl⟩
  · exact ⟨rfl, hsend _ rfl⟩
  · exact ⟨rfl, hsend _ rfl⟩

/-! ### One request -/

section Request

variable {τ : Type} {t : Transport τ} {timing : ClientTiming} {s : τ} {respond : Bytes → Bytes}
  (hcarries : t.Carries s respond) (htiming : 0 ≤ timing.maxPending) {req : Bytes} (hreq : req ≠ [])
  (hlen : req.length ≤ 4095)
include hcarries htiming hreq hlen

theorem request_eq (hresponse : respond req ≠ []) :
    ∃ n s' s'', t.receive timing.p2 s' = (some (respond req), s'') ∧
      request t timing req false s = awaitResponse t timing (req.getD 0 0) (n + 1) timing.p2 s' := by
  obtain ⟨hsend, hreceive⟩ := hcarries req hreq hlen hresponse
  obtain ⟨n, hn⟩ : ∃ n, (timing.maxPending + 1).toNat = n + 1 := ⟨timing.maxPending.toNat, by omega⟩
  refine ⟨n, (t.send req false s).2, (t.receive timing.p2 (t.send req false s).2).2, ?_, ?_⟩
  · exact Prod.ext (hreceive timing.p2) rfl
  · have hsent : t.send req false s = (true, (t.send req false s).2) := Prod.ext hsend rfl
    rw [request, if_neg hreq, ← hn, hsent]

theorem request_negative {nrc : UInt8} (hresponse : respond req = [0x7F, req.getD 0 0, nrc])
    (hfinal : nrc ≠ nrcResponsePending) :
    (request t timing req false s).1 = .error (.negative nrc) := by
  have hsome : respond req ≠ [] := by
    rw [hresponse]
    exact List.cons_ne_nil _ _
  obtain ⟨n, s', s'', hreceive, hrequest⟩ := request_eq hcarries htiming hreq hlen hsome
  rw [hrequest, awaitResponse, hreceive]
  simp [hresponse, hfinal]

theorem request_positive {bs : Bytes}
    (hresponse : respond req = (req.getD 0 0 + Uds.positiveOffset) :: bs)
    (hsid : req.getD 0 0 + Uds.positiveOffset ≠ Uds.sidNegativeResponse) :
    (request t timing req false s).1 = .ok ((req.getD 0 0 + Uds.positiveOffset) :: bs) := by
  have hsome : respond req ≠ [] := by
    rw [hresponse]
    exact List.cons_ne_nil _ _
  obtain ⟨n, s', s'', hreceive, hrequest⟩ := request_eq hcarries htiming hreq hlen hsome
  rw [hrequest, awaitResponse, hreceive]
  simp only [hresponse, List.getD_cons_zero]
  rw [if_neg fun hnegative => hsid hnegative.2.1, if_pos ⟨List.cons_ne_nil _ _, trivial⟩]

end Request

/-! ### Reading data identifiers -/

section Read

variable {dids : List Did} {specs : List DidSpec} {time : Nat} {resp : Bytes} {server : Server}
  {dtc : Dtc.Manager}

theorem readDidsRequest_eq (specs : List DidSpec) :
    readDidsRequest specs = 0x22 :: (specs.map DidSpec.id).flatMap Words.bytes := by
  rw [readDidsRequest, List.flatMap_map]

theorem length_readDidsRequest (specs : List DidSpec) :
    (readDidsRequest specs).length = 1 + 2 * specs.length := by
  rw [readDidsRequest, List.length_cons, List.length_flatMap]
  simp [Nat.mul_comm, Nat.add_comm]

theorem service_readDidsRequest (hsome : specs ≠ []) :
    let c := Uds.startOf time (readDidsRequest specs) server dtc resp resp.length
    Uds.service dids c = Uds.readDidLoop dids (specs.map DidSpec.id) false (c.puts [0x62]) := by
  intro c
  have hreq : c.req = 0x22 :: (specs.map DidSpec.id).flatMap Words.bytes := readDidsRequest_eq specs
  rw [Uds.service_readDid hreq, Uds.readDid_request hreq (by simpa using hsome)]

variable (hnarrow : resp.length < 2 ^ 16) (hmin : 3 ≤ resp.length)
include hnarrow hmin

theorem response_refused (nrc : Uds.Nrc)
    (hrefused : (Uds.service dids (Uds.startOf time (readDidsRequest specs) server dtc resp
      resp.length)).1 = some nrc) :
    (processRequest dids time (readDidsRequest specs) false resp resp.length server dtc).response =
      [0x7F, 0x22, nrc.byte] := by
  rw [Uds.response_of_refused (by rw [length_readDidsRequest]; omega) hmin hnarrow hrefused]
  rfl

theorem response_empty :
    (processRequest dids time (readDidsRequest []) false resp resp.length server dtc).response =
      [0x7F, 0x22, 0x13] :=
  response_refused hnarrow hmin .incorrectLength rfl

theorem response_unknown (hsome : specs ≠ [])
    (hunknown : ¬ (specs.map DidSpec.id).any (knownDid dids)) :
    (processRequest dids time (readDidsRequest specs) false resp resp.length server dtc).response =
      [0x7F, 0x22, 0x31] := by
  apply response_refused hnarrow hmin .requestOutOfRange
  rw [service_readDidsRequest hsome, Uds.readDidLoop_unknown hunknown]

theorem respLen_header (req : Bytes) :
    (Uds.Ctx.puts (Uds.startOf time req server dtc resp resp.length) [0x62]).respLen = 1 := by
  have hroom : 0 + ([0x62] : Bytes).length ≤ resp.length := Nat.le_trans (by decide) hmin
  exact ((Uds.fits_startOf time req server dtc rfl hnarrow).puts_eq hroom).1

theorem response_tooLong (hsome : specs ≠ [])
    (hfull : resp.length < 1 + (didRecords dids (specs.map DidSpec.id)).length) :
    (processRequest dids time (readDidsRequest specs) false resp resp.length server dtc).response =
      [0x7F, 0x22, 0x14] := by
  apply response_refused hnarrow hmin .responseTooLong
  rw [service_readDidsRequest hsome]
  refine Uds.readDidLoop_tooLong
    ((Uds.fits_startOf time _ server dtc rfl hnarrow).puts [0x62]) false ?_
  rw [respLen_header hnarrow hmin, Uds.Ctx.respMax_puts]
  exact hfull

omit hmin in
theorem response_known (hknown : (specs.map DidSpec.id).any (knownDid dids))
    (hroom : 1 + (didRecords dids (specs.map DidSpec.id)).length ≤ resp.length) :
    (processRequest dids time (readDidsRequest specs) false resp resp.length server dtc).response =
      0x62 :: didRecords dids (specs.map DidSpec.id) := by
  have hserved := Uds.readDid_positive
    (Uds.fits_startOf time (readDidsRequest specs) server dtc rfl hnarrow) rfl rfl
    (readDidsRequest_eq specs) hknown (by rw [List.length_cons, Nat.add_comm]; exact hroom)
  have hservice : ∀ c : Uds.Ctx, c.req = readDidsRequest specs →
      Uds.service dids c = Uds.readDid dids c :=
    fun c hreq => Uds.service_readDid (hreq.trans (readDidsRequest_eq specs))
  rw [← hservice _ rfl] at hserved
  rw [Uds.response_of_served (by rw [length_readDidsRequest]; omega) hserved.1, hserved.2]

end Read

/-- **Reading data identifiers.** Over a transport that carries the request and the response, the
client gets the refusal of the server, or exactly the known ones of the requested DIDs with their
data, in the order of the request. -/
theorem readDids_result {τ : Type} (t : Transport τ) (timing : ClientTiming)
    (htiming : 0 ≤ timing.maxPending) (dids : List Did) (specs : List DidSpec)
    (hagree : LengthsAgree dids specs) (hlen : (readDidsRequest specs).length ≤ 4095) (time : Nat)
    (resp : Bytes) (hmin : 3 ≤ resp.length) (hnarrow : resp.length < 2 ^ 16) (server : Server)
    (dtc : Dtc.Manager) (s : τ)
    (hcarries : t.Carries s fun req =>
      (processRequest dids time req false resp resp.length server dtc).response) :
    (readDids t timing specs s).1 =
      if specs = [] then .error (.negative 0x13)
      else if ∀ spec ∈ specs, findDid dids spec.id = none then .error (.negative 0x31)
      else if resp.length < 1 + (didRecords dids (specs.map DidSpec.id)).length then
        .error (.negative 0x14)
      else .ok (didValues dids (specs.map DidSpec.id)) := by
  have hreq : readDidsRequest specs ≠ [] := List.cons_ne_nil _ _
  have hrefused : ∀ nrc : UInt8, nrc ≠ nrcResponsePending →
      (processRequest dids time (readDidsRequest specs) false resp resp.length server dtc).response =
        [0x7F, 0x22, nrc] → (readDids t timing specs s).1 = .error (.negative nrc) := by
    intro nrc hfinal hresponse
    rw [readDids_eq_exchange]
    exact exchange_error (request_negative hcarries htiming hreq hlen hresponse hfinal)
  have hany : (specs.map DidSpec.id).any (knownDid dids) ↔
      ¬ ∀ spec ∈ specs, findDid dids spec.id = none := by
    simp [knownDid, Option.isSome_iff_ne_none]
  split
  · rename_i hempty
    subst hempty
    exact hrefused 0x13 (by decide) (response_empty hnarrow hmin)
  rename_i hsome
  split
  · rename_i hunknown
    exact hrefused 0x31 (by decide)
      (response_unknown hnarrow hmin hsome fun hknown => hany.mp hknown hunknown)
  rename_i hknown
  split
  · rename_i hfull
    exact hrefused 0x14 (by decide) (response_tooLong hnarrow hmin hsome hfull)
  · rename_i hroom
    have hresponse : (processRequest dids time (readDidsRequest specs) false resp resp.length server
        dtc).response = 0x62 :: didRecords dids (specs.map DidSpec.id) :=
      response_known hnarrow (hany.mpr hknown) (Nat.le_of_not_lt hroom)
    have hsid : (0x22 : UInt8) + Uds.positiveOffset ≠ Uds.sidNegativeResponse := by decide
    rw [readDids_eq_exchange, exchange_ok (request_positive hcarries htiming hreq hlen hresponse hsid)]
    exact decodeDids_didRecords hagree fun id hid => List.mem_map.mp hid

/-- The speed is read twice from the simulated ECU, with a DID that it does not know in between. -/
theorem readDids_result_speedTwice :
    let e : SimulatedEcu := {
      server := Uds.init 0
      dtc := Dtc.Manager.resetAll Diag.dtcTable
      signals := { speedX10 := 1234, faultMask := 0 }
      nowMs := 0 }
    (readDids simulatedEcu {} [⟨0x0100, 2⟩, ⟨0x1234, 5⟩, ⟨0x0100, 2⟩] e).1 =
      .ok [⟨0x0100, [0x04, 0xD2]⟩, ⟨0x0100, [0x04, 0xD2]⟩] := by
  intro e
  have hagree : LengthsAgree (Diag.dids e.signals) [⟨0x0100, 2⟩, ⟨0x1234, 5⟩, ⟨0x0100, 2⟩] := by
    intro spec hspec did hfind
    have hids : spec = ⟨0x0100, 2⟩ ∨ spec = ⟨0x1234, 5⟩ := by
      simpa [or_comm, or_left_comm] using hspec
    rcases hids with rfl | rfl
    · have hspeed : (Diag.dids e.signals)[1] = did := Option.some.inj hfind
      rw [← hspeed]
      rfl
    · cases hfind
  have hsize : (List.replicate kMaxResponseLen 0 : Bytes).length = kMaxResponseLen :=
    List.length_replicate
  refine (readDids_result simulatedEcu {} (by decide) (Diag.dids e.signals) _ hagree (by decide) 0
    (List.replicate kMaxResponseLen 0) ?_ ?_ (Uds.init 0) (Dtc.Manager.resetAll Diag.dtcTable) e
    ?_).trans ?_
  · rw [hsize]
    decide
  · rw [hsize]
    decide
  · rw [hsize]
    exact carries_simulatedEcu rfl
  · rw [hsize]
    decide

end MiniEcu.Tester
