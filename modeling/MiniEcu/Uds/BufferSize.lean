import MiniEcu.Uds.Grammar

/-!
# What the size of the response buffer decides

The services look at the buffer for one thing only, whether the response fits. So two servers that
differ in their buffers alone stay equal, and their responses are equal as well, or the one with the
smaller buffer says that its response is too long.
-/

namespace MiniEcu.Uds

/-! ### What is done -/

section Alike

variable {c d : Ctx}

theorem Alike.byte (h : Alike c d) (i : Nat) : c.byte i = d.byte i := by
  rw [Ctx.byte, h.req, Ctx.byte]

theorem alike_sessionControl (h : Alike c d) : Alike (sessionControl c).2 (sessionControl d).2 := by
  rw [sessionControl, sessionControl, h.req, h.byte]
  split
  · exact h
  split
  · exact h
  · apply Alike.puts
    exact ⟨rfl, by rw [h.server], h.dtc⟩

theorem alike_ecuReset (h : Alike c d) : Alike (ecuReset c).2 (ecuReset d).2 := by
  rw [ecuReset, ecuReset, h.req, h.byte, h.server]
  split
  · exact h
  split
  · exact h
  split
  · exact h
  · apply Alike.puts
    exact ⟨rfl, rfl, h.dtc⟩

theorem alike_clearDtc (h : Alike c d) : Alike (clearDtc c).2 (clearDtc d).2 := by
  rw [clearDtc, clearDtc, h.req, h.byte, h.byte, h.byte]
  split
  · exact h
  dsimp only
  split
  · exact h
  · apply Alike.puts
    exact ⟨rfl, h.server, by rw [h.dtc]⟩

theorem alike_testerPresent (h : Alike c d) : Alike (testerPresent c).2 (testerPresent d).2 := by
  rw [testerPresent, testerPresent, h.req, h.byte]
  split
  · exact h
  split
  · exact h
  · apply Alike.puts
    exact ⟨rfl, h.server, h.dtc⟩

/-- What a service does, it does whatever the buffer is. -/
theorem alike_service (dids : List Did) (h : Alike c d) :
    Alike (service dids c).2 (service dids d).2 := by
  rw [service, service, h.byte]
  split
  · exact alike_sessionControl h
  split
  · exact alike_ecuReset h
  split
  · exact alike_clearDtc h
  split
  · exact (alike_readDtc c).trans (h.trans (alike_readDtc d).symm)
  split
  · exact (alike_readDid dids c).trans (h.trans (alike_readDid dids d).symm)
  split
  · exact alike_testerPresent h
  · exact h

end Alike

/-! ### What is answered -/

/-- What a buffer of `m` bytes makes of a positive response. -/
def cut (req response : Bytes) (m : Nat) : Bytes :=
  if response.length ≤ m then response else negativeResponse req .responseTooLong

section Cut

variable (req response : Bytes) {m m₁ m₂ : Nat}

theorem cut_cases (m : Nat) :
    cut req response m = response ∨ cut req response m = negativeResponse req .responseTooLong := by
  rw [cut]
  split
  · exact .inl rfl
  · exact .inr rfl

theorem cut_smaller (hle : m₁ ≤ m₂) : cut req response m₁ = cut req response m₂ ∨
    cut req response m₁ = negativeResponse req .responseTooLong := by
  rw [cut]
  split
  · rename_i hroom
    rw [cut, if_pos (Nat.le_trans hroom hle)]
    exact .inl rfl
  · exact .inr rfl

variable {req response}

theorem tooLong_of_cut (hle : m₁ ≤ m₂)
    (htooLong : cut req response m₂ = negativeResponse req .responseTooLong) :
    cut req response m₁ = negativeResponse req .responseTooLong := by
  rcases cut_smaller req response hle with hsame | htooLong'
  · rw [hsame, htooLong]
  · exact htooLong'

end Cut

section TooLong

variable {dids : List Did} {c : Ctx} (h : c.Fits) (hempty : c.respLen = 0) (hmin : 6 ≤ c.respMax)
include h hempty hmin

theorem listDtc_tooLong {x mask : UInt8} (hreq : c.req = [0x19, x, mask]) (hx : x &&& 0x7F = 0x02)
    (hfull : c.respMax < ([0x59, 0x02, 0x7F] ++ dtcRecords c.dtc mask).length) :
    (readDtc c).1 = some .responseTooLong := by
  rw [List.length_append, length_dtcRecords, List.length_cons, List.length_cons, List.length_cons,
    List.length_nil] at hfull
  have hheader : c.respLen + ([0x59, 0x02, 0x7F] : Bytes).length ≤ c.respMax := by
    rw [hempty]
    exact Nat.le_trans (by decide) hmin
  have hlen : (c.puts [0x59, 0x02, 0x7F]).respLen = 3 := by
    rw [(h.puts_eq hheader).1, hempty]
    rfl
  have hbytes : [sidReadDtc + positiveOffset, 0x02, Dtc.statusAvailabilityMask] =
      [0x59, 0x02, 0x7F] := rfl
  have hfew : (if (c.respMax - 3) / 4 > 0xFF then 0xFF else (c.respMax - 3) / 4) <
      (matching c.dtc mask).length := by
    split <;> omega
  simp only [readDtc, Ctx.byte, hreq, List.length_cons, List.length_nil, List.getD_cons_succ,
    List.getD_cons_zero, subfunctionMask, hx, length_matching, hbytes, hlen, Ctx.respMax_puts,
    dtcRecordLen, if_pos hfew]
  rfl

omit hmin in
theorem readDid_tooLong {ids : List UInt16} (hreq : c.req = 0x22 :: ids.flatMap Words.bytes)
    (hknown : ids.any (knownDid dids)) (hroom : 1 ≤ c.respMax)
    (hfull : c.respMax < (0x62 :: didRecords dids ids).length) :
    (readDid dids c).1 = some .responseTooLong := by
  have hsome : ids ≠ [] := by
    rintro rfl
    simp at hknown
  have hheader : c.respLen + ([0x62] : Bytes).length ≤ c.respMax := by
    rw [hempty]
    exact hroom
  rw [List.length_cons] at hfull
  rw [readDid_request hreq hsome]
  apply readDidLoop_tooLong (h.puts [0x62]) false
  rw [(h.puts_eq hheader).1, Ctx.respMax_puts, hempty, List.length_singleton]
  omega

/-- Of the responses that are longer than six bytes, none is stored in part. -/
theorem service_tooLong {response : Bytes}
    (hpositive : Positive dids c.dtc c.server.session c.req response)
    (hfull : c.respMax < response.length) : (service dids c).1 = some .responseTooLong := by
  have hshort : ∀ {x : UInt8} {bs : Bytes}, c.respMax < (unlessSuppressed x bs).length →
      6 < bs.length := by
    intro x bs hlong
    rw [unlessSuppressed] at hlong
    split at hlong
    · simp at hlong
    · omega
  generalize hreq : c.req = req at hpositive
  cases hpositive with
  | sessionControl x s hx => exact absurd (hshort hfull) (Nat.lt_irrefl 6)
  | ecuReset x type hx hsession => exact absurd (hshort hfull) (by simp)
  | clearDtc => exact absurd hfull (by simp; omega)
  | countDtc x mask hx => exact absurd hfull (by simp; omega)
  | listDtc x mask hx =>
      have hservice : service dids c = readDtc c := by
        rw [service, Ctx.byte, hreq]
        rfl
      rw [hservice]
      exact listDtc_tooLong h hempty hmin hreq hx hfull
  | readDid ids hknown =>
      rw [service_readDid hreq]
      exact readDid_tooLong h hempty hreq hknown (by omega) hfull
  | testerPresent x hx => exact absurd (hshort hfull) (by simp)

end TooLong

section Request

variable {dids : List Did} {time : Nat} {req : Bytes} {functional : Bool} {resp : Bytes}
  {server : Server} {dtc : Dtc.Manager}

theorem response_of_positive (hmin : 6 ≤ resp.length) (hnarrow : resp.length < 2 ^ 16)
    (htable : dtc.table.length ≤ Dtc.maxEntries) {response : Bytes}
    (hpositive : Positive dids dtc server.session req response) :
    (processRequest dids time req functional resp resp.length server dtc).response =
      cut req response resp.length := by
  have hpos : req.length ≠ 0 := by
    cases hpositive <;> simp
  have hfits := fits_startOf time req server dtc rfl hnarrow
  rw [cut]
  split
  · rename_i hroom
    obtain ⟨hserved, hsent⟩ := service_of_positive hfits rfl rfl htable hpositive hroom
    rw [response_of_served hpos hserved, hsent]
  · rename_i hfull
    have hrefused := service_tooLong hfits rfl hmin hpositive (Nat.lt_of_not_le hfull)
    rw [response_of_refused hpos (by omega) hnarrow hrefused, refusalResponse]
    simp [isSuppressedForFunctional]

theorem dtc_processRequest (hpos : req.length ≠ 0) :
    (processRequest dids time req functional resp resp.length server dtc).dtc =
      (service dids (startOf time req server dtc resp resp.length)).2.dtc := by
  rw [processRequest_eq dids time req functional server dtc hpos]
  split
  · split <;> rfl
  · rfl

end Request

/-- **The size of the buffer.** For every request and state, a smaller buffer of six bytes or more
leaves the same state as a larger one. The response is the same, or else the refusal that it is too
long, which the larger buffer never gives alone; a positive response is given whole or not at all. -/
theorem buffer_size (dids : List Did) (time : Nat) (req : Bytes) (functional : Bool)
    (resp₁ resp₂ : Bytes) (server : Server) (dtc : Dtc.Manager)
    (htable : dtc.table.length ≤ Dtc.maxEntries) (hmin : 6 ≤ resp₁.length)
    (hle : resp₁.length ≤ resp₂.length) (hnarrow : resp₂.length < 2 ^ 16) :
    let o₁ := processRequest dids time req functional resp₁ resp₁.length server dtc
    let o₂ := processRequest dids time req functional resp₂ resp₂.length server dtc
    let tooLong := negativeResponse req .responseTooLong
    o₁.server = o₂.server ∧ o₁.dtc = o₂.dtc ∧
      (o₁.response = o₂.response ∨ o₁.response = tooLong) ∧
      (o₂.response = tooLong → o₁.response = tooLong) ∧
      ∀ response, Positive dids dtc server.session req response →
        (o₁.response = response ∨ o₁.response = tooLong) ∧
          (o₂.response = response ∨ o₂.response = tooLong) := by
  intro o₁ o₂ tooLong
  have hnarrow₁ : resp₁.length < 2 ^ 16 := Nat.lt_of_le_of_lt hle hnarrow
  have hmin₂ : 6 ≤ resp₂.length := Nat.le_trans hmin hle
  by_cases hpos : req.length = 0
  · obtain rfl := List.length_eq_zero_iff.mp hpos
    refine ⟨rfl, rfl, .inl ?_, fun h => ?_, fun response hpositive => by cases hpositive⟩
    · show resp₁.take 0 = resp₂.take 0
      rw [List.take_zero, List.take_zero]
    · have hempty : o₂.response = [] := List.take_zero
      exact absurd (h.symm.trans hempty) (List.cons_ne_nil _ _)
  have halike : Alike (service dids (startOf time req server dtc resp₁ resp₁.length)).2
      (service dids (startOf time req server dtc resp₂ resp₂.length)).2 :=
    alike_service dids ⟨rfl, rfl, rfl⟩
  refine ⟨?_, ?_, ?_⟩
  · simp only [o₁, o₂, server_processRequest dids time req functional server dtc hpos, halike.server]
  · simp only [o₁, o₂, dtc_processRequest hpos, halike.dtc]
  by_cases haccepted : ∃ response, Positive dids dtc server.session req response
  · obtain ⟨response, hpositive⟩ := haccepted
    have hresponse₁ : ∀ response, Positive dids dtc server.session req response →
        o₁.response = cut req response resp₁.length :=
      fun response hpositive => response_of_positive hmin hnarrow₁ htable hpositive
    have hresponse₂ : ∀ response, Positive dids dtc server.session req response →
        o₂.response = cut req response resp₂.length :=
      fun response hpositive => response_of_positive hmin₂ hnarrow htable hpositive
    refine ⟨?_, ?_, fun response hpositive => ?_⟩
    · rw [hresponse₁ response hpositive, hresponse₂ response hpositive]
      exact cut_smaller req response hle
    · rw [hresponse₁ response hpositive, hresponse₂ response hpositive]
      exact tooLong_of_cut hle
    · rw [hresponse₁ response hpositive, hresponse₂ response hpositive]
      exact ⟨cut_cases req response _, cut_cases req response _⟩
  cases hrefusal : refusal dids server.session req with
  | none => exact absurd (positive_of_refusal_eq_none hrefusal) haccepted
  | some nrc =>
      have hresponse₁ : o₁.response = refusalResponse functional req (some nrc) :=
        response_of_refused hpos (by omega) hnarrow₁ (service_of_refusal hrefusal)
      have hresponse₂ : o₂.response = refusalResponse functional req (some nrc) :=
        response_of_refused hpos (by omega) hnarrow (service_of_refusal hrefusal)
      have hsame : o₁.response = o₂.response := hresponse₁.trans hresponse₂.symm
      exact ⟨.inl hsame, hsame.trans, fun response hpositive => absurd ⟨response, hpositive⟩ haccepted⟩

/-- The smallest caller and the firmware read the codes of a table with one that matches. -/
theorem buffer_size_sixBytes :
    let dtc := Dtc.Manager.resetAll [⟨0xC10087, 1⟩]
    let o₁ := processRequest [] 0 [0x19, 0x02, 0x10] false (List.replicate 6 0) 6 {} dtc
    let o₂ := processRequest [] 0 [0x19, 0x02, 0x10] false (List.replicate 256 0) 256 {} dtc
    let tooLong := negativeResponse [0x19, 0x02, 0x10] .responseTooLong
    o₁.server = o₂.server ∧ o₁.dtc = o₂.dtc ∧
      (o₁.response = o₂.response ∨ o₁.response = tooLong) ∧
      (o₂.response = tooLong → o₁.response = tooLong) ∧
      ∀ response, Positive [] dtc .default [0x19, 0x02, 0x10] response →
        (o₁.response = response ∨ o₁.response = tooLong) ∧
          (o₂.response = response ∨ o₂.response = tooLong) := by
  intro dtc
  have hsize := buffer_size [] 0 [0x19, 0x02, 0x10] false (List.replicate 6 0)
    (List.replicate 256 0) {} dtc (by decide) (by decide)
    (by simp only [List.length_replicate]; decide) (by rw [List.length_replicate]; decide)
  simpa only [List.length_replicate] using hsize

-- with six bytes there is no room for a record
example :
    let dtc := Dtc.Manager.resetAll [⟨0xC10087, 1⟩]
    (processRequest [] 0 [0x19, 0x02, 0x10] false (List.replicate 6 0) 6 {} dtc).response =
        [0x7F, 0x19, 0x14] ∧
      (processRequest [] 0 [0x19, 0x02, 0x10] false (List.replicate 7 0) 7 {} dtc).response =
        [0x59, 0x02, 0x7F, 0xC1, 0x00, 0x87, 0x50] := by decide +kernel

end MiniEcu.Uds
