import MiniEcu.Tester.Dtcs
import MiniEcu.Tester.Late
import MiniEcu.Tester.Pending
import MiniEcu.Uds.Effects
import MiniEcu.Lib.Trace

/-!
# The tester and the simulated ECU as one machine

A client that talks to the simulated ECU makes remote procedure calls. What a call gives back and what
it leaves behind can be said without a byte of the protocol, and in every run the client and the
server together do just that. Faults, time and speed may change between two calls.
-/

namespace MiniEcu.Tester

open Uds (Did Nrc ResetType Server Session acceptedReset dtcAfter findDid)

namespace SimulatedEcu

/-! ### What else can be done to it -/

/-- `setSpeedX10`. -/
def setSpeedX10 (speed : UInt16) (e : SimulatedEcu) : SimulatedEcu :=
  { e with signals := { e.signals with speedX10 := speed } }

/-- `reportMonitor`. The array of the faults is kept as the mask that is read of it. -/
def reportMonitor (monitor : Fin 5) (failed : Bool) (e : SimulatedEcu) : SimulatedEcu :=
  let bit : UInt8 := 1 <<< UInt8.ofNat monitor.val
  { e with
    signals := { e.signals with
      faultMask :=
        if failed then e.signals.faultMask ||| bit else e.signals.faultMask &&& ~~~bit }
    dtc := e.dtc.reportResult monitor.val failed }

/-- `advanceTime`. -/
def advanceTime (dt : Nat) (e : SimulatedEcu) : SimulatedEcu :=
  { e with
    nowMs := (e.nowMs + dt) % 2 ^ 32
    server := Uds.mainFunction ((e.nowMs + dt) % 2 ^ 32) e.server }

/-- `SimulatedEcu::SimulatedEcu`. -/
def initial : SimulatedEcu where
  server := Uds.init 0
  dtc := Dtc.Manager.resetAll Diag.dtcTable
  signals := { speedX10 := 0, faultMask := 0 }
  nowMs := 0

/-! ### Between two calls -/

/-- Between two calls nothing is on its way, and the codes are those of the table. -/
structure Idle (e : SimulatedEcu) : Prop where
  responses : e.responses = []
  pendingReset : e.server.pendingReset = none
  table : e.dtc.table = Diag.dtcTable

theorem idle_initial : initial.Idle := ⟨rfl, rfl, rfl⟩

/-- What a request leaves behind. -/
def settled (e : SimulatedEcu) (req : Bytes) : SimulatedEcu :=
  let server := e.server.after e.nowMs req
  match acceptedReset e.server.session req with
  | none => { e with server := server, dtc := dtcAfter e.dtc req }
  | some .hard => powerOn { e with hardResets := e.hardResets + 1 }
  | some .soft =>
      { e with
        server := { server with pendingReset := none, session := .default }
        softResets := e.softResets + 1
        dtc := (dtcAfter e.dtc req).startOperationCycle }

variable {e : SimulatedEcu}

theorem table_dtcAfter (dtc : Dtc.Manager) (req : Bytes) : (dtcAfter dtc req).table = dtc.table := by
  rw [dtcAfter]
  split <;> rfl

theorem idle_settled (h : e.Idle) (req : Bytes) : (e.settled req).Idle := by
  obtain ⟨hresponses, hpending, htable⟩ := h
  rw [settled]
  split
  · rename_i hreset
    refine ⟨hresponses, ?_, (table_dtcAfter _ _).trans htable⟩
    show (acceptedReset e.server.session req).or e.server.pendingReset = none
    rw [hreset, hpending]
    rfl
  · exact ⟨hresponses, rfl, rfl⟩
  · exact ⟨hresponses, rfl, (table_dtcAfter _ _).trans htable⟩

theorem fits_outcome (e : SimulatedEcu) (req : Bytes) (functional : Bool) :
    (e.outcome req functional).response.length = (e.outcome req functional).respLen :=
  Uds.length_response _ _ _ _ _ _ List.length_replicate (by decide)

/-- A request that is sent is processed at once, with the reset that it asks for. -/
theorem send_eq (h : e.Idle) {req : Bytes} (hreq : req ≠ []) (hlen : req.length ≤ kMaxResponseLen)
    (functional : Bool) :
    send req functional e = (true, { e.settled req with
      responses :=
        if (e.outcome req functional).response = [] then []
        else [(e.outcome req functional).response] }) := by
  have hfits := fits_outcome e req functional
  have hsome : (if 0 < (e.outcome req functional).respLen then
      e.responses ++ [(e.outcome req functional).response] else e.responses) =
      if (e.outcome req functional).response = [] then []
      else [(e.outcome req functional).response] := by
    rw [h.responses, ← hfits]
    by_cases hnone : (e.outcome req functional).response = []
    · rw [if_pos hnone, hnone]
      rfl
    · rw [if_neg hnone, if_pos (List.length_pos_of_ne_nil hnone)]
      rfl
  have hserver : (e.outcome req functional).server = e.server.after e.nowMs req :=
    Uds.server_processRequest_after _ _ _ _ _ _ _ hreq
  have hdtc : (e.outcome req functional).dtc = dtcAfter e.dtc req :=
    Uds.dtc_processRequest_after _ _ _ _ _ _ _ _
  rw [send, if_neg (by simp [hreq, hlen])]
  simp only [hsome, hserver, hdtc]
  have hpending : (e.server.after e.nowMs req).pendingReset = acceptedReset e.server.session req := by
    show (acceptedReset e.server.session req).or e.server.pendingReset = _
    rw [h.pendingReset, Option.or_none]
  rw [settled, Uds.executePendingReset, hpending]
  cases acceptedReset e.server.session req with
  | none => rfl
  | some type => cases type <;> rfl

/-- A request that fails a check is refused with its code, or not at all. -/
theorem response_refused {req : Bytes} (hreq : req ≠ []) {nrc : Nrc}
    (hrefusal : Uds.refusal (Diag.dids e.signals) e.server.session req = some nrc)
    (functional : Bool) :
    (e.outcome req functional).response = Uds.refusalResponse functional req (some nrc) := by
  have hsize : (List.replicate kMaxResponseLen (0 : UInt8)).length = kMaxResponseLen :=
    List.length_replicate
  have hpos : req.length ≠ 0 := fun hzero => hreq (List.length_eq_zero_iff.mp hzero)
  have hrefused : (Uds.processRequest (Diag.dids e.signals) e.nowMs req functional
      (List.replicate kMaxResponseLen 0) (List.replicate kMaxResponseLen (0 : UInt8)).length
      e.server e.dtc).response = _ :=
    Uds.response_of_refused hpos (by rw [hsize]; decide) (by rw [hsize]; decide)
      (Uds.service_of_refusal hrefusal)
  rw [hsize] at hrefused
  exact hrefused

/-- One that passes is answered. -/
theorem response_positive (h : e.Idle) {req response : Bytes}
    (hpositive : Uds.Positive (Diag.dids e.signals) e.dtc e.server.session req response)
    (hroom : response.length ≤ kMaxResponseLen) (functional : Bool) :
    (e.outcome req functional).response = response := by
  have hsize : (List.replicate kMaxResponseLen (0 : UInt8)).length = kMaxResponseLen :=
    List.length_replicate
  have hwhole : (Uds.processRequest (Diag.dids e.signals) e.nowMs req functional
      (List.replicate kMaxResponseLen 0) (List.replicate kMaxResponseLen (0 : UInt8)).length
      e.server e.dtc).response = _ :=
    Uds.response_of_positive (by rw [hsize]; decide) (by rw [hsize]; decide)
      (by rw [h.table]; decide) hpositive
  rw [hsize, Uds.cut, if_pos hroom] at hwhole
  exact hwhole

end SimulatedEcu

/-! ### One request -/

/-- What the client makes of a message for a request. -/
def verdict (sid : UInt8) (r : Bytes) : Except Error Bytes :=
  if r = [] then .error .timeout
  else if r.length = 3 ∧ r.getD 0 0 = Uds.sidNegativeResponse ∧ r.getD 1 0 = sid then
    .error (.negative (r.getD 2 0))
  else if r.getD 0 0 = sid + Uds.positiveOffset then .ok r
  else .error .malformed

section Request

variable {timing : ClientTiming} (htiming : 0 ≤ timing.maxPending) {e : SimulatedEcu} (h : e.Idle)
include htiming h

/-- A request is a remote procedure call. The simulated ECU never asks for more time. -/
theorem request_simulated {req : Bytes} (hreq : req ≠ []) (hlen : req.length ≤ kMaxResponseLen)
    (functional : Bool) :
    request simulatedEcu timing req functional e =
      (verdict (req.getD 0 0) (e.outcome req functional).response, e.settled req) := by
  obtain ⟨n, hn⟩ : ∃ n, (timing.maxPending + 1).toNat = n + 1 := ⟨timing.maxPending.toNat, by omega⟩
  have hidle := SimulatedEcu.idle_settled h req
  have hsend : simulatedEcu.send req functional e = _ := SimulatedEcu.send_eq h hreq hlen functional
  have htable : e.dtc.table.length ≤ Dtc.maxEntries := by
    rw [h.table]
    decide
  -- the last byte of a refusal is not the code that asks for more time
  have hfinal : ∀ sid, (e.outcome req functional).response ≠ [0x7F, sid, 0x78] :=
    (ecuReply e htable req functional false).final
  rw [request, if_neg hreq, hsend]
  simp only [hn]
  generalize (e.outcome req functional).response = r at hfinal
  by_cases hnone : r = []
  · have hempty : ({ e.settled req with responses := [] } : SimulatedEcu) = e.settled req := by
      rw [← hidle.responses]
    have hreceive : simulatedEcu.receive timing.p2 (e.settled req) = (none, e.settled req) := by
      show SimulatedEcu.receive timing.p2 (e.settled req) = _
      rw [SimulatedEcu.receive, hidle.responses]
    rw [if_pos hnone, verdict, if_pos hnone, hempty, awaitResponse, hreceive]
  · have hreceive : simulatedEcu.receive timing.p2 { e.settled req with responses := [r] } =
        (some r, e.settled req) := by
      show (some r, ({ e.settled req with responses := [] } : SimulatedEcu)) = _
      rw [← hidle.responses]
    rw [if_neg hnone, awaitResponse, hreceive, verdict, if_neg hnone]
    simp only []
    by_cases hnegative : r.length = 3 ∧ r.getD 0 0 = Uds.sidNegativeResponse ∧
        r.getD 1 0 = req.getD 0 0
    · have hcode : r.getD 2 0 ≠ nrcResponsePending := by
        intro hcode
        apply hfinal (req.getD 0 0)
        obtain ⟨hthree, h₀, h₁⟩ := hnegative
        obtain ⟨b₀, b₁, b₂, rfl⟩ := List.length_eq_three.mp hthree
        obtain rfl : b₀ = Uds.sidNegativeResponse := h₀
        obtain rfl : b₁ = req.getD 0 0 := h₁
        obtain rfl : b₂ = nrcResponsePending := hcode
        rfl
      rw [if_pos hnegative, if_pos hnegative, if_pos hcode]
    · rw [if_neg hnegative, if_neg hnegative]
      by_cases hpositive : r.getD 0 0 = req.getD 0 0 + Uds.positiveOffset
      · rw [if_pos ⟨hnone, hpositive⟩, if_pos hpositive]
      · rw [if_neg fun hboth => hpositive hboth.2, if_neg hpositive]

theorem exchange_positive {α : Type} {req : Bytes} {decode : Bytes → Except Error α}
    {functional : Bool} {response : Bytes} (hlen : req.length ≤ kMaxResponseLen)
    (hpositive : Uds.Positive (Diag.dids e.signals) e.dtc e.server.session req response)
    (hroom : response.length ≤ kMaxResponseLen)
    (hhead : response.head? = some (req.getD 0 0 + Uds.positiveOffset))
    (hsid : req.getD 0 0 + Uds.positiveOffset ≠ Uds.sidNegativeResponse) :
    exchange simulatedEcu timing req functional decode e = (decode response, e.settled req) := by
  have hreq : req ≠ [] := by
    rintro rfl
    cases hpositive
  have hresponse : (e.outcome req functional).response = response :=
    SimulatedEcu.response_positive h hpositive hroom functional
  have hnone : response ≠ [] := by
    rintro rfl
    cases hhead
  have hfirst : response.getD 0 0 = req.getD 0 0 + Uds.positiveOffset :=
    (head?_eq_some_iff.mp hhead).2
  rw [exchange, request_simulated htiming h hreq hlen functional, hresponse, verdict, if_neg hnone,
    if_neg fun hboth => hsid (hfirst ▸ hboth.2.1), if_pos hfirst]

theorem exchange_refused {α : Type} {req : Bytes} {decode : Bytes → Except Error α}
    (hreq : req ≠ []) (hlen : req.length ≤ kMaxResponseLen) {nrc : Nrc}
    (hrefusal : Uds.refusal (Diag.dids e.signals) e.server.session req = some nrc) :
    exchange simulatedEcu timing req false decode e =
      (.error (.negative nrc.byte), e.settled req) := by
  have hresponse : (e.outcome req false).response = [0x7F, req.getD 0 0, nrc.byte] :=
    SimulatedEcu.response_refused hreq hrefusal false
  rw [exchange, request_simulated htiming h hreq hlen false, hresponse, verdict, if_neg (by simp),
    if_pos ⟨rfl, rfl, rfl⟩]
  rfl

end Request

/-! ### Calls -/

/-- What a call gives back if it succeeds. -/
def Call.Value : Call → Type
  | .readDid _ => Bytes
  | .readDids _ => List DidValue
  | .readDtcs _ => List Dtc
  | .readDtcCount _ => UInt16
  | .startSession _ => SessionTiming
  | .testerPresent _ => Unit
  | .ecuReset _ => Unit
  | .clearAllDtcs => Unit

/-- The method of `UdsClient`. -/
def invoke {τ : Type} (t : Transport τ) (timing : ClientTiming) (s : τ) :
    (c : Call) → Except Error c.Value × τ
  | .readDid id => readDid t timing id s
  | .readDids specs => readDids t timing specs s
  | .readDtcs mask => readDtcs t timing mask s
  | .readDtcCount mask => readDtcCount t timing mask s
  | .startSession session => startSession t timing session s
  | .testerPresent functional => testerPresent t timing functional s
  | .ecuReset type => ecuReset t timing type s
  | .clearAllDtcs => clearAllDtcs t timing s

/-- `testerPresentSuppressed`. -/
def testerPresentSuppressed {τ : Type} (t : Transport τ) (functional : Bool) (s : τ) : Bool × τ :=
  t.send [0x3E, 0x80] functional s

/-- The lengths that the client expects of several DIDs are those of the ECU. -/
def Call.Agrees : Call → Prop
  | .readDids specs => ∀ signals, LengthsAgree (Diag.dids signals) specs
  | _ => True

namespace SimulatedEcu

/-- A refusal. -/
def refused {α : Type} (nrc : Nrc) : Except Error α := .error (.negative nrc.byte)

/-- What the ECU gives back, said without the protocol. -/
def answer (e : SimulatedEcu) : (c : Call) → Except Error c.Value
  | .readDid id =>
      match findDid (Diag.dids e.signals) id with
      | some did => .ok did.read
      | none => refused .requestOutOfRange
  | .readDids specs =>
      let ids := specs.map DidSpec.id
      if kMaxResponseLen < 1 + 2 * specs.length then .error .sendFailed
      else if specs = [] then refused .incorrectLength
      else if ∀ spec ∈ specs, findDid (Diag.dids e.signals) spec.id = none then
        refused .requestOutOfRange
      else if kMaxResponseLen < 1 + (Uds.didRecords (Diag.dids e.signals) ids).length then
        refused .responseTooLong
      else .ok (didValues (Diag.dids e.signals) ids)
  | .readDtcs mask => .ok (dtcsOf e.dtc mask)
  | .readDtcCount mask => .ok (UInt16.ofNat (dtcsOf e.dtc mask).length)
  | .startSession _ => .ok { p2 := 50, p2Star := 5000 }
  | .testerPresent _ => .ok ()
  | .ecuReset _ => if e.server.session = .extended then .ok () else refused .subfuncNotSuppInSession
  | .clearAllDtcs => .ok ()

/-- Any request keeps the session alive. -/
def touched (e : SimulatedEcu) : SimulatedEcu :=
  { e with server := { e.server with lastRequestMs := e.nowMs % 2 ^ 32 } }

/-- What a call leaves behind. -/
def left (e : SimulatedEcu) : Call → SimulatedEcu
  | .readDids specs => if kMaxResponseLen < 1 + 2 * specs.length then e else e.touched
  | .startSession session =>
      { e.touched with server := { e.touched.server with session := session } }
  | .ecuReset type =>
      if e.server.session = .extended then
        match type with
        | .hard => powerOn { e with hardResets := e.hardResets + 1 }
        | .soft =>
            { e.touched with
              server := { e.touched.server with session := .default }
              softResets := e.softResets + 1
              dtc := e.dtc.startOperationCycle }
      else e.touched
  | .clearAllDtcs => { e.touched with dtc := e.dtc.clearAll }
  | _ => e.touched

variable {e : SimulatedEcu}

/-- Most requests change nothing else. -/
theorem settled_eq_touched {req : Bytes} (hsession : req.getD 0 0 ≠ 0x10)
    (hreset : req.getD 0 0 ≠ 0x11) (hclear : req ≠ [0x14, 0xFF, 0xFF, 0xFF]) :
    e.settled req = e.touched := by
  rw [settled, Uds.acceptedReset_of_ne hreset, touched, dtcAfter, if_neg hclear, Server.after,
    Uds.sessionAfter_of_ne hsession, Uds.acceptedReset_of_ne hreset, Option.none_or]

theorem settled_startSession (session : Session) :
    e.settled [0x10, session.byte] = e.left (.startSession session) := by
  have hreset : ∀ s, acceptedReset s [0x10, session.byte] = none := fun s =>
    Uds.acceptedReset_of_ne (by simp)
  have hafter : Uds.sessionAfter e.server.session [0x10, session.byte] = session := by
    cases session <;> rfl
  rw [settled, hreset, dtcAfter, if_neg (by simp), Server.after, hreset, hafter, Option.none_or]
  rfl

theorem settled_ecuReset (h : e.Idle) (type : ResetType) :
    e.settled [0x11, type.byte] = e.left (.ecuReset type) := by
  have hsession : Uds.sessionAfter e.server.session [0x11, type.byte] = e.server.session :=
    Uds.sessionAfter_of_ne (by simp)
  rw [settled, dtcAfter, if_neg (by simp), Server.after, hsession]
  by_cases hextended : e.server.session = .extended
  · have hreset : acceptedReset e.server.session [0x11, type.byte] = some type := by
      rw [acceptedReset, if_pos ⟨rfl, rfl, hextended⟩]
      cases type <;> rfl
    rw [hreset]
    cases type with
    | hard => exact (if_pos hextended).symm
    | soft =>
        refine Eq.trans ?_ (if_pos hextended).symm
        have hpending := h.pendingReset
        obtain ⟨⟨session, lastRequestMs, pendingReset⟩, _, _, _, _, _, _⟩ := e
        obtain rfl : pendingReset = none := hpending
        rfl
  · have hreset : acceptedReset e.server.session [0x11, type.byte] = none :=
      if_neg fun hboth => hextended hboth.2.2
    rw [hreset, Option.none_or]
    exact (if_neg hextended).symm

theorem settled_clearAllDtcs :
    e.settled [0x14, 0xFF, 0xFF, 0xFF] = e.left .clearAllDtcs := by
  rw [settled, Uds.acceptedReset_of_ne (by simp), dtcAfter, if_pos rfl, Server.after,
    Uds.acceptedReset_of_ne (by simp), Uds.sessionAfter_of_ne (by simp), Option.none_or]
  rfl

end SimulatedEcu

section Invoke

variable {timing : ClientTiming} (htiming : 0 ≤ timing.maxPending) {e : SimulatedEcu} (h : e.Idle)
include htiming h

theorem invoke_readDid (id : UInt16) :
    readDid simulatedEcu timing id e = (e.answer (.readDid id), e.left (.readDid id)) := by
  have hlow : (id &&& 0xFF).toUInt8 = id.toUInt8 := by
    apply UInt8.toNat_inj.mp
    rw [UInt16.toNat_toUInt8, UInt16.toNat_and, UInt16.toNat_toUInt8]
    show (id.toNat &&& 2 ^ 8 - 1) % 2 ^ 8 = _
    rw [Nat.and_two_pow_sub_one_eq_mod, Nat.mod_mod]
  have hid : Words.be16 (id >>> 8).toUInt8 id.toUInt8 = id := Words.be16_bytes id
  have hbytes : Words.bytes id = [(id >>> 8).toUInt8, id.toUInt8] := rfl
  rw [readDid, hlow]
  generalize (id >>> 8).toUInt8 = hi at hid hbytes
  generalize id.toUInt8 = lo at hid hbytes
  have hsettled : e.settled [0x22, hi, lo] = e.left (.readDid id) :=
    SimulatedEcu.settled_eq_touched (by simp) (by simp) (by simp)
  show _ = ((match findDid (Diag.dids e.signals) id with
    | some did => .ok did.read
    | none => SimulatedEcu.refused .requestOutOfRange : Except Error Bytes), _)
  cases hfind : findDid (Diag.dids e.signals) id with
  | none =>
      have hrefusal : Uds.refusal (Diag.dids e.signals) e.server.session [0x22, hi, lo] =
          some .requestOutOfRange := by
        simp [Uds.refusal, Uds.firstFailing, Uds.supported, Uds.sid, Uds.enoughLength,
          Uds.rightLength, Uds.rightSubfunction, Uds.rightSession, Uds.inRange, Words.words, hid,
          Uds.knownDid, hfind]
      rw [exchange_refused htiming h (List.cons_ne_nil _ _) (by simp [kMaxResponseLen]) hrefusal,
        hsettled]
      rfl
  | some did =>
      have hknown : [id].any (Uds.knownDid (Diag.dids e.signals)) := by
        simp [Uds.knownDid, hfind]
      have hrecord : Uds.didRecords (Diag.dids e.signals) [id] = hi :: lo :: did.read := by
        rw [Uds.didRecords_cons, Uds.didRecord_known hfind, hbytes]
        exact List.append_nil _
      have hpositive : Uds.Positive (Diag.dids e.signals) e.dtc e.server.session [0x22, hi, lo]
          (0x62 :: hi :: lo :: did.read) := by
        have hpositive := @Uds.Positive.readDid _ e.dtc e.server.session [id] hknown
        rwa [hrecord, List.flatMap_cons, hbytes] at hpositive
      have hlength : did.read.length < 256 := by
        rw [did.exact]
        exact did.length.toNat_lt
      rw [exchange_positive htiming h (by simp [kMaxResponseLen]) hpositive ?_ rfl (by simp; decide),
        hsettled]
      · simp [decodeDid, hid]
      · simp only [List.length_cons, kMaxResponseLen]
        omega

omit htiming h in
theorem readDids_tooLong {specs : List DidSpec} (hlong : kMaxResponseLen < 1 + 2 * specs.length) :
    readDids simulatedEcu timing specs e = (.error .sendFailed, e) := by
  have hsend : simulatedEcu.send (readDidsRequest specs) false e = (false, e) :=
    if_pos (.inr (by rw [length_readDidsRequest]; exact hlong))
  have hreq : readDidsRequest specs ≠ [] := List.cons_ne_nil _ _
  rw [readDids, request, if_neg hreq, hsend]

/-- What a read of several DIDs leaves behind does not depend on the lengths that are expected. -/
theorem readDids_left (specs : List DidSpec) :
    (readDids simulatedEcu timing specs e).2 = e.left (.readDids specs) := by
  by_cases hlong : kMaxResponseLen < 1 + 2 * specs.length
  · rw [readDids_tooLong hlong]
    exact (if_pos hlong).symm
  · have hshort : (readDidsRequest specs).length ≤ kMaxResponseLen := by
      rw [length_readDidsRequest]
      exact Nat.le_of_not_lt hlong
    have hsid : (readDidsRequest specs).getD 0 0 = 0x22 := rfl
    have hsettled : e.settled (readDidsRequest specs) = e.touched := by
      apply SimulatedEcu.settled_eq_touched (by rw [hsid]; decide) (by rw [hsid]; decide)
      intro hclear
      rw [hclear] at hsid
      exact absurd hsid (by decide)
    have hreq : readDidsRequest specs ≠ [] := List.cons_ne_nil _ _
    rw [readDids_eq_exchange, exchange_state, request_simulated htiming h hreq hshort, hsettled]
    exact (if_neg hlong).symm

theorem readDids_answer {specs : List DidSpec} (hagree : LengthsAgree (Diag.dids e.signals) specs) :
    (readDids simulatedEcu timing specs e).1 = e.answer (.readDids specs) := by
  by_cases hlong : kMaxResponseLen < 1 + 2 * specs.length
  · rw [readDids_tooLong hlong]
    exact (if_pos hlong).symm
  · have hshort : (readDidsRequest specs).length ≤ kMaxResponseLen := by
      rw [length_readDidsRequest]
      exact Nat.le_of_not_lt hlong
    obtain ⟨resp, hresp⟩ : ∃ resp : Bytes, resp = List.replicate kMaxResponseLen 0 := ⟨_, rfl⟩
    have hsize : resp.length = kMaxResponseLen := by rw [hresp, List.length_replicate]
    have hcarries := carries_simulatedEcu h.responses
    simp only [SimulatedEcu.outcome] at hcarries
    rw [← hresp, ← hsize] at hcarries
    have hresult := readDids_result simulatedEcu timing htiming (Diag.dids e.signals) specs hagree
      hshort e.nowMs resp (by rw [hsize]; decide) (by rw [hsize]; decide) e.server e.dtc e hcarries
    rw [hresult, hsize]
    exact (if_neg hlong).symm

theorem invoke_readDids {specs : List DidSpec} (hagree : LengthsAgree (Diag.dids e.signals) specs) :
    readDids simulatedEcu timing specs e = (e.answer (.readDids specs), e.left (.readDids specs)) :=
  Prod.ext (readDids_answer htiming h hagree) (readDids_left htiming h specs)

theorem invoke_readDtcs (mask : UInt8) :
    readDtcs simulatedEcu timing mask e = (e.answer (.readDtcs mask), e.left (.readDtcs mask)) := by
  have hcodes : ∀ c ∈ e.dtc.table, c.code.toNat < 2 ^ 24 := by
    rw [h.table]
    decide
  have hfew : (Uds.dtcRecords e.dtc mask).length ≤ 4 * 5 := by
    rw [Uds.length_dtcRecords]
    refine Nat.mul_le_mul_left 4 (Nat.le_trans (Uds.length_matching_le e.dtc mask) ?_)
    rw [h.table]
    decide
  rw [readDtcs, exchange_positive htiming h (by simp [kMaxResponseLen])
      (.listDtc 0x02 mask (by decide)) ?_ rfl (by simp; decide),
    SimulatedEcu.settled_eq_touched (by simp) (by simp) (by simp)]
  · exact Prod.ext (decodeDtcs_of_records (parseDtcRecords_dtcRecords hcodes mask)) rfl
  · simp only [List.length_append, List.length_cons, List.length_nil, kMaxResponseLen]
    omega

theorem invoke_readDtcCount (mask : UInt8) :
    readDtcCount simulatedEcu timing mask e =
      (e.answer (.readDtcCount mask), e.left (.readDtcCount mask)) := by
  rw [readDtcCount, exchange_positive htiming h (by simp [kMaxResponseLen])
      (.countDtc 0x01 mask (by decide)) (by simp [kMaxResponseLen]) rfl (by simp; decide),
    SimulatedEcu.settled_eq_touched (by simp) (by simp) (by simp)]
  refine Prod.ext ?_ rfl
  show _ = Except.ok (UInt16.ofNat (dtcsOf e.dtc mask).length)
  rw [dtcsOf_eq, List.length_map]
  exact congrArg Except.ok (Words.be16_bytes _)

theorem invoke_startSession (session : Session) :
    startSession simulatedEcu timing session e =
      (e.answer (.startSession session), e.left (.startSession session)) := by
  have hmasked : session.byte &&& 0x7F = session.byte := by cases session <;> rfl
  have hkept : Uds.unlessSuppressed session.byte [0x50, session.byte, 0x00, 0x32, 0x01, 0xF4] =
      [0x50, session.byte, 0x00, 0x32, 0x01, 0xF4] := by cases session <;> rfl
  have hpositive := @Uds.Positive.sessionControl (Diag.dids e.signals) e.dtc e.server.session
    session.byte session hmasked
  rw [hkept] at hpositive
  rw [startSession, exchange_positive htiming h (by simp [kMaxResponseLen]) hpositive
      (by simp [kMaxResponseLen]) rfl (by simp; decide)]
  refine Prod.ext ?_ (SimulatedEcu.settled_startSession session)
  cases session <;> rfl

theorem invoke_testerPresent (functional : Bool) :
    testerPresent simulatedEcu timing functional e =
      (e.answer (.testerPresent functional), e.left (.testerPresent functional)) := by
  rw [testerPresent, exchange_positive htiming h (by simp [kMaxResponseLen])
      (.testerPresent 0x00 (by decide)) (by simp [kMaxResponseLen, Uds.unlessSuppressed]) rfl (by simp; decide),
    SimulatedEcu.settled_eq_touched (by simp) (by simp) (by simp)]
  rfl

theorem invoke_ecuReset (type : ResetType) :
    ecuReset simulatedEcu timing type e = (e.answer (.ecuReset type), e.left (.ecuReset type)) := by
  have hsettled := SimulatedEcu.settled_ecuReset h type
  by_cases hextended : e.server.session = .extended
  · have hanswer : e.answer (.ecuReset type) = .ok () := if_pos hextended
    have hmasked : type.byte &&& 0x7F = type.byte := by cases type <;> rfl
    have hkept : Uds.unlessSuppressed type.byte [0x51, type.byte] = [0x51, type.byte] := by
      cases type <;> rfl
    have hpositive := @Uds.Positive.ecuReset (Diag.dids e.signals) e.dtc e.server.session
      type.byte type hmasked hextended
    rw [hkept] at hpositive
    rw [hanswer, ecuReset, exchange_positive htiming h (by simp [kMaxResponseLen]) hpositive
        (by simp [kMaxResponseLen]) rfl (by simp; decide), hsettled]
    refine Prod.ext ?_ rfl
    cases type <;> rfl
  · have hanswer : e.answer (.ecuReset type) = SimulatedEcu.refused .subfuncNotSuppInSession :=
      if_neg hextended
    have hrefusal : Uds.refusal (Diag.dids e.signals) e.server.session [0x11, type.byte] =
        some .subfuncNotSuppInSession := by
      have hsession : Uds.rightSession [0x11, type.byte] e.server.session = false := by
        simp [Uds.rightSession, Uds.sid, hextended]
      rw [Uds.refusal, hsession]
      cases type <;> rfl
    rw [hanswer, ecuReset, exchange_refused htiming h (List.cons_ne_nil _ _)
      (by simp [kMaxResponseLen]) hrefusal, hsettled]
    rfl

theorem invoke_clearAllDtcs :
    clearAllDtcs simulatedEcu timing e = (e.answer .clearAllDtcs, e.left .clearAllDtcs) := by
  rw [clearAllDtcs, exchange_positive htiming h (by simp [kMaxResponseLen]) .clearDtc
    (by simp [kMaxResponseLen]) rfl (by simp; decide), SimulatedEcu.settled_clearAllDtcs]
  rfl

omit htiming in
theorem testerPresentSuppressed_simulated (functional : Bool) :
    testerPresentSuppressed simulatedEcu functional e = (true, e.touched) := by
  have hpositive : Uds.Positive (Diag.dids e.signals) e.dtc e.server.session [0x3E, 0x80] [] :=
    .testerPresent 0x80 (by decide)
  have hresponse := SimulatedEcu.response_positive h hpositive (by decide) functional
  have hsend := SimulatedEcu.send_eq h (List.cons_ne_nil 0x3E [0x80]) (by simp [kMaxResponseLen])
    functional
  rw [hresponse, SimulatedEcu.settled_eq_touched (by simp) (by simp) (by simp)] at hsend
  apply hsend.trans
  show (true, ({ e.touched with responses := [] } : SimulatedEcu)) = _
  rw [← h.responses]
  rfl

/-- Every call is a remote procedure call. -/
theorem invoke_eq (c : Call) (hagree : c.Agrees) :
    invoke simulatedEcu timing e c = (e.answer c, e.left c) := by
  cases c with
  | readDid id => exact invoke_readDid htiming h id
  | readDids specs => exact invoke_readDids htiming h (hagree e.signals)
  | readDtcs mask => exact invoke_readDtcs htiming h mask
  | readDtcCount mask => exact invoke_readDtcCount htiming h mask
  | startSession session => exact invoke_startSession htiming h session
  | testerPresent functional => exact invoke_testerPresent htiming h functional
  | ecuReset type => exact invoke_ecuReset htiming h type
  | clearAllDtcs => exact invoke_clearAllDtcs htiming h

/-- What it leaves behind is so whatever lengths the client expects. -/
theorem invoke_left (c : Call) : (invoke simulatedEcu timing e c).2 = e.left c := by
  by_cases hagree : c.Agrees
  · exact congrArg Prod.snd (invoke_eq htiming h c hagree)
  · cases c with
    | readDids specs => exact readDids_left htiming h specs
    | _ => exact absurd trivial hagree

end Invoke

/-! ### Runs -/

/-- What a user of the simulation does. -/
inductive UserOp
  | call (c : Call)
  | testerPresentSuppressed (functional : Bool)
  | setSpeedX10 (speed : UInt16)
  | reportMonitor (monitor : Fin 5) (failed : Bool)
  | advanceTime (dt : Nat)

/-- What the client gives back. -/
inductive Returned
  | result (c : Call) (r : Except Error c.Value)
  | sent (ok : Bool)

/-- The client, the transport and the server at work. -/
def clientStep (timing : ClientTiming) (e : SimulatedEcu) : UserOp → SimulatedEcu × List Returned
  | .call c => ((invoke simulatedEcu timing e c).2, [.result c (invoke simulatedEcu timing e c).1])
  | .testerPresentSuppressed functional =>
      let (ok, e) := testerPresentSuppressed simulatedEcu functional e
      (e, [.sent ok])
  | .setSpeedX10 speed => (e.setSpeedX10 speed, [])
  | .reportMonitor monitor failed => (e.reportMonitor monitor failed, [])
  | .advanceTime dt => (e.advanceTime dt, [])

/-- The same without the protocol. -/
def remoteStep (e : SimulatedEcu) : UserOp → SimulatedEcu × List Returned
  | .call c => (e.left c, [.result c (e.answer c)])
  | .testerPresentSuppressed _ => (e.touched, [.sent true])
  | .setSpeedX10 speed => (e.setSpeedX10 speed, [])
  | .reportMonitor monitor failed => (e.reportMonitor monitor failed, [])
  | .advanceTime dt => (e.advanceTime dt, [])

/-- The calls of a run agree with the ECU on the lengths. -/
def UserOp.Agrees : UserOp → Prop
  | .call c => c.Agrees
  | _ => True

namespace SimulatedEcu

variable {e : SimulatedEcu}

theorem idle_touched (h : e.Idle) : e.touched.Idle := ⟨h.responses, h.pendingReset, h.table⟩

theorem idle_left (h : e.Idle) (c : Call) : (e.left c).Idle := by
  cases c with
  | readDids specs =>
      show (if kMaxResponseLen < 1 + 2 * specs.length then e else e.touched).Idle
      split
      · exact h
      · exact idle_touched h
  | startSession session =>
      rw [← settled_startSession]
      exact idle_settled h _
  | ecuReset type =>
      rw [← settled_ecuReset h]
      exact idle_settled h _
  | clearAllDtcs =>
      rw [← settled_clearAllDtcs]
      exact idle_settled h _
  | readDid | readDtcs | readDtcCount | testerPresent => exact idle_touched h

theorem pendingReset_mainFunction (time : Nat) (server : Server) :
    (Uds.mainFunction time server).pendingReset = server.pendingReset := by
  rw [Uds.mainFunction]
  split
  · rfl
  split <;> rfl

theorem idle_remoteStep (h : e.Idle) (op : UserOp) : (remoteStep e op).1.Idle := by
  cases op with
  | call c => exact idle_left h c
  | testerPresentSuppressed functional => exact idle_touched h
  | setSpeedX10 speed => exact ⟨h.responses, h.pendingReset, h.table⟩
  | reportMonitor monitor failed =>
      refine ⟨h.responses, h.pendingReset, ?_⟩
      show (e.dtc.step (.reportResult monitor.val failed)).table = _
      rw [Dtc.Manager.table_step]
      exact h.table
  | advanceTime dt =>
      exact ⟨h.responses, (pendingReset_mainFunction _ _).trans h.pendingReset, h.table⟩

end SimulatedEcu

section Step

variable {timing : ClientTiming} (htiming : 0 ≤ timing.maxPending) {e : SimulatedEcu} (he : e.Idle)
include htiming he

/-- A step leaves an idle ECU as it is left without the protocol, and idle. -/
theorem clientStep_left (op : UserOp) :
    (clientStep timing e op).1 = (remoteStep e op).1 ∧ (clientStep timing e op).1.Idle := by
  have hleft : (clientStep timing e op).1 = (remoteStep e op).1 := by
    cases op with
    | call c => exact invoke_left htiming he c
    | testerPresentSuppressed functional =>
        exact congrArg Prod.snd (testerPresentSuppressed_simulated he functional)
    | _ => rfl
  rw [hleft]
  exact ⟨rfl, SimulatedEcu.idle_remoteStep he op⟩

theorem clientStep_eq {op : UserOp} (hagree : op.Agrees) : clientStep timing e op = remoteStep e op := by
  cases op with
  | call c =>
      rw [clientStep, invoke_eq htiming he c hagree]
      rfl
  | testerPresentSuppressed functional =>
      rw [clientStep, testerPresentSuppressed_simulated he]
      rfl
  | _ => rfl

end Step

/-- **The client and the simulated ECU are a remote procedure call.** In every run of calls, monitor
reports, changes of the speed and of the time, the client over the transport and the server leaves the
ECU as the machine without a protocol does. If the lengths that the client expects of several DIDs are
always those of the ECU, it also gives back the same. -/
theorem client_refines_remote (timing : ClientTiming) (htiming : 0 ≤ timing.maxPending)
    (ops : List UserOp) :
    (Trace.run (clientStep timing) .initial ops).1 = (Trace.run remoteStep .initial ops).1 ∧
      ((∀ op ∈ ops, op.Agrees) →
        Trace.run (clientStep timing) .initial ops = Trace.run remoteStep .initial ops) := by
  constructor
  · exact Trace.run_left SimulatedEcu.Idle (fun _ op he => clientStep_left htiming he op)
      SimulatedEcu.idle_initial ops
  · intro hagree
    exact (Trace.run_congr (I := SimulatedEcu.Idle)
      (fun _ op hop he => ⟨clientStep_eq htiming he (hagree op hop),
        (clientStep_left htiming he op).2⟩) SimulatedEcu.idle_initial).1

/-- A fault is reported, read and cleared, in a session that has to be kept alive. The version is read
with the length that it has. -/
theorem client_refines_remote_faultCleared :
    let ops : List UserOp := [.reportMonitor 0 true, .call (.readDtcs 0x09),
      .call (.readDids [⟨0xF195, 10⟩]), .call (.startSession .extended), .advanceTime 4999,
      .call .clearAllDtcs, .advanceTime 4999, .call (.ecuReset .soft)]
    Trace.run (clientStep {}) .initial ops = Trace.run remoteStep .initial ops := by
  refine (client_refines_remote {} (by decide) [.reportMonitor 0 true, .call (.readDtcs 0x09),
    .call (.readDids [⟨0xF195, 10⟩]), .call (.startSession .extended), .advanceTime 4999,
    .call .clearAllDtcs, .advanceTime 4999, .call (.ecuReset .soft)]).2 ?_
  simp only [List.forall_mem_cons, UserOp.Agrees, Call.Agrees]
  refine ⟨trivial, trivial, fun signals spec hspec => ?_, trivial, trivial, trivial, trivial, trivial,
    by simp⟩
  obtain rfl : spec = ⟨0xF195, 10⟩ := List.mem_singleton.mp hspec
  rintro did hdid
  obtain rfl := Option.some.inj hdid
  rfl

end MiniEcu.Tester
