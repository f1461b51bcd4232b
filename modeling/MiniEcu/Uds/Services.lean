import MiniEcu.Uds.Server
import Mathlib.Tactic.Common

/-!
# What a request does to the response buffer and to the pending reset

Every service stores only inside the buffer it was given, and the length it reports fits. The
pending reset changes in one way only: an ECUReset request that is accepted sets it.
-/

namespace MiniEcu.Uds

open Memory

/-! ### The buffer -/

namespace Ctx

/-- The part of the response that has been written. -/
def content (c : Ctx) : Bytes := c.resp.take c.respLen

/-- The buffer has the size the caller says it has, and the response fits into it. -/
structure Fits (c : Ctx) : Prop where
  sized : c.resp.length = c.respMax
  used : c.respLen ≤ c.respMax
  narrow : c.respMax < 2 ^ 16

variable {c : Ctx}

@[simp] theorem req_write (c : Ctx) (bs : Bytes) : (c.write bs).req = c.req := rfl
@[simp] theorem server_write (c : Ctx) (bs : Bytes) : (c.write bs).server = c.server := rfl
@[simp] theorem dtc_write (c : Ctx) (bs : Bytes) : (c.write bs).dtc = c.dtc := rfl
@[simp] theorem respMax_write (c : Ctx) (bs : Bytes) : (c.write bs).respMax = c.respMax := rfl
@[simp] theorem suppressPositive_write (c : Ctx) (bs : Bytes) :
    (c.write bs).suppressPositive = c.suppressPositive := rfl

theorem Fits.respLen_write (h : c.Fits) {bs : Bytes} (hroom : c.respLen + bs.length ≤ c.respMax) :
    (c.write bs).respLen = c.respLen + bs.length :=
  Nat.mod_eq_of_lt (Nat.lt_of_le_of_lt hroom h.narrow)

theorem Fits.write (h : c.Fits) {bs : Bytes} (hroom : c.respLen + bs.length ≤ c.respMax) :
    (c.write bs).Fits where
  sized := by
    have hlen := length_copy (show c.respLen + bs.length ≤ c.resp.length by rw [h.sized]; exact hroom)
    exact hlen.trans h.sized
  used := by
    rw [h.respLen_write hroom]
    exact hroom
  narrow := h.narrow

theorem Fits.content_write (h : c.Fits) {bs : Bytes} (hroom : c.respLen + bs.length ≤ c.respMax) :
    (c.write bs).content = c.content ++ bs := by
  have hle : c.respLen ≤ c.resp.length := by
    rw [h.sized]
    exact h.used
  rw [content, h.respLen_write hroom]
  exact take_copy hle

theorem put_induction {P : Ctx → Prop} (hwrite : ∀ c b, P c → P (c.write [b])) (bs : Bytes)
    (hc : P c) : P (c.puts bs) := by
  induction bs generalizing c with
  | nil => exact hc
  | cons b bs ih =>
      apply ih
      rw [put]
      split
      · exact hc
      · exact hwrite c b hc

@[simp] theorem req_puts (c : Ctx) (bs : Bytes) : (c.puts bs).req = c.req :=
  put_induction (P := fun d => d.req = c.req) (fun _ _ h => h) bs rfl

@[simp] theorem server_puts (c : Ctx) (bs : Bytes) : (c.puts bs).server = c.server :=
  put_induction (P := fun d => d.server = c.server) (fun _ _ h => h) bs rfl

@[simp] theorem dtc_puts (c : Ctx) (bs : Bytes) : (c.puts bs).dtc = c.dtc :=
  put_induction (P := fun d => d.dtc = c.dtc) (fun _ _ h => h) bs rfl

@[simp] theorem respMax_puts (c : Ctx) (bs : Bytes) : (c.puts bs).respMax = c.respMax :=
  put_induction (P := fun d => d.respMax = c.respMax) (fun _ _ h => h) bs rfl

@[simp] theorem suppressPositive_puts (c : Ctx) (bs : Bytes) :
    (c.puts bs).suppressPositive = c.suppressPositive :=
  put_induction (P := fun d => d.suppressPositive = c.suppressPositive) (fun _ _ h => h) bs rfl

theorem Fits.put (h : c.Fits) (b : UInt8) : (c.put b).Fits := by
  rw [Ctx.put]
  split
  · exact h
  · rename_i hroom
    exact h.write (Nat.lt_of_not_le hroom)

theorem Fits.puts (h : c.Fits) (bs : Bytes) : (c.puts bs).Fits := by
  induction bs generalizing c with
  | nil => exact h
  | cons b bs ih => exact ih (h.put b)

/-- With enough room, every byte is stored. -/
theorem Fits.puts_eq (h : c.Fits) {bs : Bytes} (hroom : c.respLen + bs.length ≤ c.respMax) :
    (c.puts bs).respLen = c.respLen + bs.length ∧ (c.puts bs).content = c.content ++ bs := by
  induction bs generalizing c with
  | nil => simp [Ctx.puts]
  | cons b bs ih =>
      rw [List.length_cons] at hroom
      have hone : c.respLen + [b].length ≤ c.respMax := by
        rw [List.length_singleton]
        omega
      have hput : c.put b = c.write [b] := if_neg (by omega)
      have hlen : (c.write [b]).respLen = c.respLen + 1 := h.respLen_write hone
      obtain ⟨hrespLen, hcontent⟩ := ih (h.write hone) (by
        rw [hlen, respMax_write]
        omega)
      have hputs : c.puts (b :: bs) = (c.write [b]).puts bs := by
        rw [← hput]
        rfl
      rw [hputs, hrespLen, hcontent, hlen, h.content_write hone]
      constructor
      · rw [List.length_cons]
        omega
      · simp

end Ctx

/-! ### The services -/

/-- What every service guarantees of the context it leaves. -/
structure Serves (c c' : Ctx) : Prop where
  fits : c'.Fits
  respMax : c'.respMax = c.respMax

theorem Ctx.Fits.serves {c : Ctx} (h : c.Fits) : Serves c c := ⟨h, rfl⟩

theorem Ctx.Fits.serves_puts {c d : Ctx} (h : d.Fits) (hmax : d.respMax = c.respMax) (bs : Bytes) :
    Serves c (d.puts bs) :=
  ⟨h.puts bs, by rw [Ctx.respMax_puts, hmax]⟩

variable {c : Ctx}

theorem serves_sessionControl (h : c.Fits) : Serves c (sessionControl c).2 := by
  unfold sessionControl
  split
  · exact h.serves
  split
  · exact h.serves
  · apply Ctx.Fits.serves_puts
    · exact ⟨h.sized, h.used, h.narrow⟩
    · rfl

theorem serves_ecuReset (h : c.Fits) : Serves c (ecuReset c).2 := by
  unfold ecuReset
  split
  · exact h.serves
  split
  · exact h.serves
  split
  · exact h.serves
  · apply Ctx.Fits.serves_puts
    · exact ⟨h.sized, h.used, h.narrow⟩
    · rfl

theorem serves_clearDtc (h : c.Fits) : Serves c (clearDtc c).2 := by
  unfold clearDtc
  split
  · exact h.serves
  simp only []
  split
  · exact h.serves
  · apply Ctx.Fits.serves_puts
    · exact ⟨h.sized, h.used, h.narrow⟩
    · rfl

theorem serves_testerPresent (h : c.Fits) : Serves c (testerPresent c).2 := by
  unfold testerPresent
  split
  · exact h.serves
  split
  · exact h.serves
  · apply Ctx.Fits.serves_puts
    · exact ⟨h.sized, h.used, h.narrow⟩
    · rfl

/-- The records the manager is asked for fit behind the header. -/
theorem serves_readDtc (h : c.Fits) : Serves c (readDtc c).2 := by
  unfold readDtc
  simp only []
  split
  · exact h.serves
  split
  · exact h.serves
  split
  · exact h.serves
  have hheader := h.puts [sidReadDtc + positiveOffset, c.byte 1 &&& subfunctionMask,
    Dtc.statusAvailabilityMask]
  split
  · dsimp only
    exact hheader.serves_puts (Ctx.respMax_puts _ _) _
  generalize hmax : (if 0xFF < _ then 0xFF else _ : Nat) = maxRecords
  split
  · exact ⟨hheader, Ctx.respMax_puts _ _⟩
  · refine ⟨hheader.write ?_, Ctx.respMax_puts _ _⟩
    apply Nat.le_trans (Nat.add_le_add_left (Dtc.Manager.length_getByStatusMask_le _ _ _) _)
    have hused := hheader.used
    simp only [dtcRecordLen] at hmax
    split at hmax <;> omega

theorem serves_readDidLoop (dids : List Did) (ids : List UInt16) (anyFound : Bool) (h : c.Fits) :
    Serves c (readDidLoop dids ids anyFound c).2 := by
  induction ids generalizing anyFound c with
  | nil => exact h.serves
  | cons id ids ih =>
      rw [readDidLoop]
      split
      · exact ih anyFound h
      rename_i did _
      split
      · exact h.serves
      rename_i hroom
      have hid : c.respLen + [(id >>> 8).toUInt8, id.toUInt8].length ≤ c.respMax := by
        simp only [List.length_cons, List.length_nil]
        omega
      have hrecord : ((c.puts [(id >>> 8).toUInt8, id.toUInt8]).write did.read).Fits := by
        apply (h.puts _).write
        rw [(h.puts_eq hid).1, did.exact, Ctx.respMax_puts]
        simp only [List.length_cons, List.length_nil]
        omega
      obtain ⟨hfits, hmax⟩ := ih true hrecord
      exact ⟨hfits, hmax.trans (by simp)⟩

theorem serves_readDid (dids : List Did) (h : c.Fits) : Serves c (readDid dids c).2 := by
  unfold readDid
  split
  · exact h.serves
  · obtain ⟨hfits, hmax⟩ := serves_readDidLoop dids _ false (h.puts [sidReadDid + positiveOffset])
    exact ⟨hfits, hmax.trans (by simp)⟩

theorem negative_fits (h : c.Fits) (nrc : Nrc) :
    (negative c nrc).2.length = c.respMax ∧ (negative c nrc).1 ≤ c.respMax := by
  unfold negative
  split
  · exact ⟨h.sized, Nat.zero_le _⟩
  · rename_i hroom
    refine ⟨(length_copy ?_).trans h.sized, Nat.le_of_not_lt hroom⟩
    rw [h.sized]
    exact Nat.le_of_not_lt hroom

/-- Whatever is requested, the service stays inside its buffer. -/
theorem serves_service (dids : List Did) (h : c.Fits) : Serves c (service dids c).2 := by
  unfold service
  split
  · exact serves_sessionControl h
  split
  · exact serves_ecuReset h
  split
  · exact serves_clearDtc h
  split
  · exact serves_readDtc h
  split
  · exact serves_readDid dids h
  split
  · exact serves_testerPresent h
  · exact h.serves

/-! ### What the services leave alone -/

/-- Two contexts that differ in the buffer only. -/
structure Alike (c d : Ctx) : Prop where
  req : c.req = d.req
  server : c.server = d.server
  dtc : c.dtc = d.dtc

section Alike

variable {c d : Ctx}

theorem Alike.puts (h : Alike c d) (bs bs' : Bytes) : Alike (c.puts bs) (d.puts bs') := by
  constructor
  · rw [Ctx.req_puts, Ctx.req_puts, h.req]
  · rw [Ctx.server_puts, Ctx.server_puts, h.server]
  · rw [Ctx.dtc_puts, Ctx.dtc_puts, h.dtc]

theorem Alike.trans {e : Ctx} (h : Alike c d) (h' : Alike d e) : Alike c e :=
  ⟨h.req.trans h'.req, h.server.trans h'.server, h.dtc.trans h'.dtc⟩

theorem Alike.symm (h : Alike c d) : Alike d c := ⟨h.req.symm, h.server.symm, h.dtc.symm⟩

/-- Reading changes nothing. -/
theorem alike_readDtc (c : Ctx) : Alike (readDtc c).2 c := by
  have hsame : Alike c c := ⟨rfl, rfl, rfl⟩
  have hputs : ∀ bs : Bytes, Alike (c.puts bs) c := fun bs => hsame.puts bs []
  rw [readDtc]
  dsimp only
  split
  · exact hsame
  split
  · exact hsame
  split
  · exact hsame
  split
  · dsimp only
    exact (hputs _).puts _ []
  generalize (if _ > 0xFF then 0xFF else _ : Nat) = maxRecords
  split
  · exact hputs _
  · exact ⟨(hputs _).req, (hputs _).server, (hputs _).dtc⟩

theorem alike_readDidLoop (dids : List Did) (ids : List UInt16) (anyFound : Bool) (h : Alike c d) :
    Alike (readDidLoop dids ids anyFound c).2 d := by
  induction ids generalizing anyFound c with
  | nil => exact h
  | cons id ids ih =>
      rw [readDidLoop]
      split
      · exact ih anyFound h
      split
      · exact h
      · have hputs := h.puts [(id >>> 8).toUInt8, id.toUInt8] []
        exact ih true ⟨hputs.req, hputs.server, hputs.dtc⟩

theorem alike_readDid (dids : List Did) (c : Ctx) : Alike (readDid dids c).2 c := by
  rw [readDid]
  split
  · exact ⟨rfl, rfl, rfl⟩
  · exact alike_readDidLoop dids _ _ (Alike.puts ⟨rfl, rfl, rfl⟩ _ [])

end Alike

/-- No service touches the request. -/
theorem req_service (dids : List Did) (c : Ctx) : (service dids c).2.req = c.req := by
  rw [service]
  split
  · rw [sessionControl]
    split
    · rfl
    split
    · rfl
    · exact Ctx.req_puts _ _
  split
  · rw [ecuReset]
    split
    · rfl
    split
    · rfl
    split
    · rfl
    · exact Ctx.req_puts _ _
  split
  · rw [clearDtc]
    split
    · rfl
    dsimp only
    split
    · rfl
    · exact Ctx.req_puts _ _
  split
  · exact (alike_readDtc c).req
  split
  · exact (alike_readDid dids c).req
  split
  · rw [testerPresent]
    split
    · rfl
    split
    · rfl
    · exact Ctx.req_puts _ _
  · rfl

/-! ### The pending reset -/

/-- The reset a request asks for, if the server accepts it in this session. -/
def acceptedReset (session : Session) (req : Bytes) : Option ResetType :=
  if req.length = 2 ∧ req.getD 0 0 = sidEcuReset ∧ session = .extended then
    ResetType.ofByte? (req.getD 1 0 &&& subfunctionMask)
  else none

/-- The request asks for no positive response. -/
def suppressed (req : Bytes) : Bool := req.getD 1 0 &&& sprmib ≠ 0

/-- What a service can do to the server. -/
inductive ServerStep (c : Ctx) : Server → Prop
  | same : ServerStep c c.server
  | session (s : Session) (hsid : c.byte 0 = sidDiagSessionControl) :
      ServerStep c { c.server with session := s }
  | reset (type : ResetType) (haccepted : acceptedReset c.server.session c.req = some type) :
      ServerStep c { c.server with pendingReset := some type }

theorem serverStep_sessionControl (hsid : c.byte 0 = sidDiagSessionControl) :
    ServerStep c (sessionControl c).2.server := by
  rw [sessionControl]
  split
  · exact .same
  split
  · exact .same
  · rw [Ctx.server_puts]
    exact .session _ hsid

theorem serverStep_ecuReset (hsid : c.byte 0 = sidEcuReset) :
    ServerStep c (ecuReset c).2.server := by
  rw [ecuReset]
  split
  · exact .same
  rename_i hlength
  split
  · exact .same
  rename_i type htype
  split
  · exact .same
  rename_i hsession
  have haccepted : acceptedReset c.server.session c.req = some type := by
    rw [acceptedReset, if_pos ⟨not_not.mp hlength, hsid, not_not.mp hsession⟩]
    exact htype
  rw [Ctx.server_puts]
  exact .reset type haccepted

theorem serverStep_service (dids : List Did) (c : Ctx) : ServerStep c (service dids c).2.server := by
  have hsame : ∀ {d : Ctx}, d.server = c.server → ServerStep c d.server := fun hserver => by
    rw [hserver]
    exact .same
  rw [service]
  split
  · rename_i hsid
    exact serverStep_sessionControl hsid
  split
  · rename_i hsid
    exact serverStep_ecuReset hsid
  split
  · rw [clearDtc]
    split
    · exact .same
    dsimp only
    split
    · exact .same
    · exact hsame (Ctx.server_puts _ _)
  split
  · exact hsame (alike_readDtc c).server
  split
  · exact hsame (alike_readDid dids c).server
  split
  · rw [testerPresent]
    split
    · exact .same
    split
    · exact .same
    · exact hsame (Ctx.server_puts _ _)
  · exact .same

theorem pendingReset_service (dids : List Did) (h : acceptedReset c.server.session c.req = none) :
    (service dids c).2.server.pendingReset = c.server.pendingReset := by
  have hstep := serverStep_service dids c
  generalize (service dids c).2.server = server at hstep ⊢
  cases hstep with
  | same => rfl
  | session s hsid => rfl
  | reset type haccepted =>
      rw [haccepted] at h
      cases h

/-- An accepted reset is pending from then on, and its response names its type. -/
theorem service_reset (dids : List Did) (h : c.Fits) (hempty : c.respLen = 0) (hroom : 2 ≤ c.respMax)
    {type : ResetType} (haccepted : acceptedReset c.server.session c.req = some type) :
    (service dids c).1 = none ∧
      (service dids c).2.server = { c.server with pendingReset := some type } ∧
      (service dids c).2.suppressPositive = suppressed c.req ∧
      (service dids c).2.content = [sidEcuReset + positiveOffset, type.byte] := by
  rw [acceptedReset] at haccepted
  split at haccepted
  next hreset =>
    obtain ⟨hlength, hsid, hsession⟩ := hreset
    have hbyte : c.byte 0 = sidEcuReset := hsid
    have htype : ResetType.ofByte? (c.byte 1 &&& subfunctionMask) = some type := haccepted
    have hservice : service dids c = ecuReset c := by
      rw [service, if_neg (by rw [hbyte]; decide), if_pos hbyte]
    rw [hservice, ecuReset, if_neg (by simp [hlength]), htype]
    have haccept : ¬ c.server.session ≠ .extended := not_not.mpr hsession
    simp only [if_neg haccept, Ctx.server_puts, Ctx.suppressPositive_puts, true_and]
    refine ⟨rfl, ?_⟩
    rw [(Ctx.Fits.puts_eq _ _).2]
    · simp [Ctx.content, hempty]
    · exact ⟨h.sized, h.used, h.narrow⟩
    · simpa [hempty] using hroom
  next => cases haccepted

/-! ### The whole request -/

section Request

variable (dids : List Did) (time : Nat) (req : Bytes) (functional : Bool) {resp : Bytes}
  {respMax : Nat} (server : Server) (dtc : Dtc.Manager)

/-- The context in which the services of a request start. -/
def startOf (resp : Bytes) (respMax : Nat) : Ctx where
  req := req
  resp := resp
  respMax := respMax
  server := { server with lastRequestMs := time % 2 ^ 32 }
  dtc := dtc

theorem fits_startOf (hsized : resp.length = respMax) (hnarrow : respMax < 2 ^ 16) :
    (startOf time req server dtc resp respMax).Fits := ⟨hsized, Nat.zero_le _, hnarrow⟩

/-- The answer to a request is that of its service, or a negative one, or none. -/
theorem processRequest_eq (hpos : req.length ≠ 0) :
    let c := (service dids (startOf time req server dtc resp respMax)).2
    processRequest dids time req functional resp respMax server dtc =
      match (service dids (startOf time req server dtc resp respMax)).1 with
      | some nrc =>
          if functional ∧ isSuppressedForFunctional nrc then ⟨0, c.resp, c.server, c.dtc⟩
          else ⟨(negative c nrc).1, (negative c nrc).2, c.server, c.dtc⟩
      | none => ⟨if c.suppressPositive then 0 else c.respLen, c.resp, c.server, c.dtc⟩ := by
  rw [processRequest, if_neg hpos]
  rfl

/-- The response fits into the buffer, and the buffer keeps its size. -/
theorem processRequest_fits (hsized : resp.length = respMax) (hnarrow : respMax < 2 ^ 16) :
    (processRequest dids time req functional resp respMax server dtc).resp.length = respMax ∧
      (processRequest dids time req functional resp respMax server dtc).respLen ≤ respMax := by
  by_cases hpos : req.length = 0
  · rw [processRequest, if_pos hpos]
    exact ⟨hsized, Nat.zero_le _⟩
  have hserves := serves_service dids (fits_startOf time req server dtc hsized hnarrow)
  rw [processRequest_eq dids time req functional server dtc hpos]
  generalize service dids (startOf time req server dtc resp respMax) = served at *
  obtain ⟨nrc, c⟩ := served
  have hfits : c.Fits := hserves.fits
  obtain rfl : c.respMax = respMax := hserves.respMax
  cases nrc with
  | none =>
      refine ⟨hfits.sized, ?_⟩
      show (if c.suppressPositive then 0 else c.respLen) ≤ c.respMax
      split
      · exact Nat.zero_le _
      · exact hfits.used
  | some nrc =>
      show (if _ then _ else _ : Outcome).resp.length = _ ∧ (if _ then _ else _ : Outcome).respLen ≤ _
      split
      · exact ⟨hfits.sized, Nat.zero_le _⟩
      · exact negative_fits hfits nrc

theorem length_response (hsized : resp.length = respMax) (hnarrow : respMax < 2 ^ 16) :
    (processRequest dids time req functional resp respMax server dtc).response.length =
      (processRequest dids time req functional resp respMax server dtc).respLen := by
  obtain ⟨hresp, hle⟩ := processRequest_fits dids time req functional server dtc hsized hnarrow
  rw [Outcome.response, List.length_take, hresp, Nat.min_eq_left hle]

theorem server_processRequest (hpos : req.length ≠ 0) :
    (processRequest dids time req functional resp respMax server dtc).server =
      (service dids (startOf time req server dtc resp respMax)).2.server := by
  rw [processRequest_eq dids time req functional server dtc hpos]
  split
  · split <;> rfl
  · rfl

theorem pendingReset_processRequest (h : acceptedReset server.session req = none) :
    (processRequest dids time req functional resp respMax server dtc).server.pendingReset =
      server.pendingReset := by
  by_cases hpos : req.length = 0
  · rw [processRequest, if_pos hpos]
  · rw [server_processRequest dids time req functional server dtc hpos]
    exact pendingReset_service dids h

/-- An accepted reset is pending from then on. It is answered unless it asks not to be. -/
theorem processRequest_reset (hsized : resp.length = respMax) (hnarrow : respMax < 2 ^ 16)
    (hroom : 2 ≤ respMax) {type : ResetType}
    (haccepted : acceptedReset server.session req = some type) :
    (processRequest dids time req functional resp respMax server dtc).server.pendingReset
        = some type ∧
      (processRequest dids time req functional resp respMax server dtc).response =
        if suppressed req then [] else [sidEcuReset + positiveOffset, type.byte] := by
  have hpos : req.length ≠ 0 := by
    intro hzero
    rw [acceptedReset, if_neg (by omega)] at haccepted
    cases haccepted
  have hreset := service_reset dids (fits_startOf time req server dtc hsized hnarrow) rfl hroom
    haccepted
  rw [processRequest_eq dids time req functional server dtc hpos]
  generalize service dids (startOf time req server dtc resp respMax) = served at *
  obtain ⟨nrc, c⟩ := served
  obtain ⟨hnrc, hserver, hsuppress, hcontent⟩ := hreset
  obtain rfl : nrc = none := hnrc
  have hserver : c.server = _ := hserver
  have hsuppress : c.suppressPositive = suppressed req := hsuppress
  refine ⟨by simp [hserver], ?_⟩
  show c.resp.take (if c.suppressPositive then 0 else c.respLen) = _
  rw [hsuppress]
  cases suppressed req with
  | true => rfl
  | false => exact hcontent

end Request

end MiniEcu.Uds
