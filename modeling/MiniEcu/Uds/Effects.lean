import MiniEcu.Uds.Grammar

/-!
# What a request leaves behind

The session, the pending reset and the trouble codes after a request, as functions of its bytes. What
the response is, and whether there is one, plays no part in it.
-/

namespace MiniEcu.Uds

/-- The session after a request. -/
def sessionAfter (session : Session) (req : Bytes) : Session :=
  if req.length = 2 ∧ req.getD 0 0 = sidDiagSessionControl then
    (Session.ofByte? (req.getD 1 0 &&& subfunctionMask)).getD session
  else session

/-- The server after a request that finds the clock at `time`. -/
def Server.after (s : Server) (time : Nat) (req : Bytes) : Server where
  session := sessionAfter s.session req
  lastRequestMs := time % 2 ^ 32
  pendingReset := (acceptedReset s.session req).or s.pendingReset

/-- The trouble codes after a request. -/
def dtcAfter (dtc : Dtc.Manager) (req : Bytes) : Dtc.Manager :=
  if req = [0x14, 0xFF, 0xFF, 0xFF] then dtc.clearAll else dtc

section Services

variable {c : Ctx}

theorem sessionAfter_of_ne {session : Session} {req : Bytes} (h : req.getD 0 0 ≠ 0x10) :
    sessionAfter session req = session := if_neg fun hboth => h hboth.2

theorem acceptedReset_of_ne {session : Session} {req : Bytes} (h : req.getD 0 0 ≠ 0x11) :
    acceptedReset session req = none := if_neg fun hboth => h hboth.2.1

theorem server_sessionControl (hsid : c.byte 0 = 0x10) :
    (sessionControl c).2.server =
      { c.server with session := sessionAfter c.server.session c.req } := by
  rw [sessionControl, sessionAfter]
  by_cases hlength : c.req.length = 2
  · rw [if_neg (not_not.mpr hlength), if_pos ⟨hlength, hsid⟩]
    have hbyte : c.byte 1 = c.req.getD 1 0 := rfl
    rw [hbyte]
    cases Session.ofByte? (c.req.getD 1 0 &&& subfunctionMask) with
    | none => rfl
    | some session => exact Ctx.server_puts _ _
  · rw [if_pos hlength, if_neg fun hboth => hlength hboth.1]

theorem server_ecuReset (hsid : c.byte 0 = 0x11) :
    (ecuReset c).2.server =
      { c.server with
        pendingReset := (acceptedReset c.server.session c.req).or c.server.pendingReset } := by
  rw [ecuReset, acceptedReset]
  by_cases hlength : c.req.length = 2
  · rw [if_neg (not_not.mpr hlength)]
    have hbyte : c.byte 1 = c.req.getD 1 0 := rfl
    rw [hbyte]
    by_cases hsession : c.server.session = .extended
    · rw [if_pos ⟨hlength, hsid, hsession⟩]
      cases ResetType.ofByte? (c.req.getD 1 0 &&& subfunctionMask) with
      | none => rfl
      | some type =>
          show (if c.server.session ≠ .extended then _ else _ : Option Nrc × Ctx).2.server = _
          rw [if_neg (not_not.mpr hsession)]
          exact Ctx.server_puts _ _
    · rw [if_neg fun hboth => hsession hboth.2.2]
      cases ResetType.ofByte? (c.req.getD 1 0 &&& subfunctionMask) with
      | none => rfl
      | some type =>
          show (if c.server.session ≠ .extended then _ else _ : Option Nrc × Ctx).2.server = _
          rw [if_pos hsession]
          rfl
  · rw [if_pos hlength, if_neg fun hboth => hlength hboth.1]
    rfl

/-- Two services change the server, each one field of it. -/
theorem server_service (dids : List Did) (c : Ctx) :
    (service dids c).2.server =
      { c.server with
        session := sessionAfter c.server.session c.req
        pendingReset := (acceptedReset c.server.session c.req).or c.server.pendingReset } := by
  by_cases hsession : c.byte 0 = 0x10
  · have hservice : service dids c = sessionControl c := if_pos hsession
    have hreset : c.req.getD 0 0 ≠ 0x11 := by
      rw [show c.req.getD 0 0 = 0x10 from hsession]
      decide
    rw [hservice, server_sessionControl hsession, acceptedReset_of_ne hreset, Option.none_or]
  by_cases hreset : c.byte 0 = 0x11
  · have hservice : service dids c = ecuReset c := (if_neg hsession).trans (if_pos hreset)
    rw [hservice, server_ecuReset hreset, sessionAfter_of_ne hsession]
  · rw [sessionAfter_of_ne hsession, acceptedReset_of_ne hreset, Option.none_or]
    have hstep := serverStep_service dids c
    generalize (service dids c).2.server = server at hstep ⊢
    cases hstep with
    | same => rfl
    | session s hsid => exact absurd hsid hsession
    | reset type haccepted =>
        rw [acceptedReset_of_ne hreset] at haccepted
        cases haccepted

theorem dtc_clearDtc (hsid : c.byte 0 = 0x14) : (clearDtc c).2.dtc = dtcAfter c.dtc c.req := by
  rw [clearDtc, dtcAfter]
  by_cases hlength : c.req.length = 4
  · rw [if_neg (not_not.mpr hlength)]
    simp only [dtcGroup_eq, dtcGroupAll]
    obtain ⟨b₀, b₁, b₂, b₃, hreq⟩ := List.length_eq_four.mp hlength
    have hbytes : c.byte 0 = b₀ ∧ c.byte 1 = b₁ ∧ c.byte 2 = b₂ ∧ c.byte 3 = b₃ := by
      simp [Ctx.byte, hreq]
    obtain ⟨h₀, h₁, h₂, h₃⟩ := hbytes
    obtain rfl : b₀ = 0x14 := h₀.symm.trans hsid
    rw [hreq, h₁, h₂, h₃]
    have hlt₁ := b₁.toNat_lt
    have hlt₂ := b₂.toNat_lt
    have hlt₃ := b₃.toNat_lt
    by_cases hall : 65536 * b₁.toNat + 256 * b₂.toNat + b₃.toNat = 0xFFFFFF
    · have hones : b₁ = 0xFF ∧ b₂ = 0xFF ∧ b₃ = 0xFF := by
        refine ⟨?_, ?_, ?_⟩ <;> apply UInt8.toNat_inj.mp <;> simp <;> omega
      obtain ⟨rfl, rfl, rfl⟩ := hones
      rw [if_neg (not_not.mpr hall), if_pos rfl]
      exact Ctx.dtc_puts _ _
    · rw [if_pos hall, if_neg]
      simp only [List.cons.injEq, and_true, true_and]
      rintro ⟨rfl, rfl, rfl⟩
      exact hall rfl
  · rw [if_pos hlength, if_neg]
    intro hreq
    rw [hreq] at hlength
    exact hlength rfl

/-- ClearDiagnosticInformation changes the trouble codes, and nothing else does. -/
theorem dtc_service (dids : List Did) (c : Ctx) : (service dids c).2.dtc = dtcAfter c.dtc c.req := by
  have hother : c.byte 0 ≠ 0x14 → dtcAfter c.dtc c.req = c.dtc := by
    intro hsid
    rw [dtcAfter, if_neg]
    intro hreq
    rw [Ctx.byte, hreq] at hsid
    exact hsid rfl
  by_cases hclear : c.byte 0 = 0x14
  · have hservice : service dids c = clearDtc c := by
      rw [service, hclear]
      rfl
    rw [hservice, dtc_clearDtc hclear]
  rw [hother hclear, service]
  split
  · rw [sessionControl]
    split
    · rfl
    split
    · rfl
    · exact Ctx.dtc_puts _ _
  split
  · rw [ecuReset]
    split
    · rfl
    split
    · rfl
    split
    · rfl
    · exact Ctx.dtc_puts _ _
  split
  · exact (alike_readDtc c).dtc
  split
  · exact (alike_readDid dids c).dtc
  split
  · rw [testerPresent]
    split
    · rfl
    split
    · rfl
    · exact Ctx.dtc_puts _ _
  · rfl

end Services

section Request

variable (dids : List Did) (time : Nat) (req : Bytes) (functional : Bool) (resp : Bytes)
  (respMax : Nat) (server : Server) (dtc : Dtc.Manager)

theorem server_processRequest_after {req : Bytes} (hreq : req ≠ []) :
    (processRequest dids time req functional resp respMax server dtc).server =
      server.after time req := by
  have hpos : req.length ≠ 0 := fun hzero => hreq (List.length_eq_zero_iff.mp hzero)
  rw [server_processRequest dids time req functional server dtc hpos, server_service]
  rfl

theorem dtc_processRequest_after :
    (processRequest dids time req functional resp respMax server dtc).dtc = dtcAfter dtc req := by
  by_cases hreq : req = []
  · rw [hreq]
    rfl
  have hpos : req.length ≠ 0 := fun hzero => hreq (List.length_eq_zero_iff.mp hzero)
  have hdtc := dtc_service dids (startOf time req server dtc resp respMax)
  rw [processRequest_eq dids time req functional server dtc hpos]
  split
  · split <;> exact hdtc
  · exact hdtc

end Request

end MiniEcu.Uds
