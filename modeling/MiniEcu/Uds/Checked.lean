import MiniEcu.Uds.Services

/-!
# The server with every access checked

The functions of `uds_server.c` once more, with each read of the request, each store into the response
and each length that is kept in a narrow type written out and checked. No check ever fails, and what
comes out is what the unchecked server answers. So the server reads the request and writes the
response inside their bounds, and none of its lengths wraps.
-/

namespace MiniEcu.Uds.Checked

open Memory

/-! ### The server -/

def put (c : Ctx) (b : UInt8) : Option Ctx :=
  if c.respMax ≤ c.respLen then some c
  else do
    let resp ← store c.resp c.respLen b
    let respLen ← narrow 16 (c.respLen + 1)
    some { c with resp := resp, respLen := respLen }

def puts (c : Ctx) : Bytes → Option Ctx
  | [] => some c
  | b :: bs => do
      let c ← put c b
      puts c bs

def negative (c : Ctx) (nrc : Nrc) : Option (Nat × Bytes) :=
  if c.respMax < 3 then some (0, c.resp)
  else do
    let sid ← load c.req 0
    let resp ← storeAll c.resp 0 [sidNegativeResponse, sid, nrc.byte]
    some (3, resp)

def sessionControl (c : Ctx) : Option (Option Nrc × Ctx) :=
  if c.req.length ≠ 2 then some (some .incorrectLength, c)
  else do
    let b ← load c.req 1
    match Session.ofByte? (b &&& subfunctionMask) with
    | none => some (some .subfunctionNotSupported, c)
    | some session =>
        let c ← puts { c with
          server := { c.server with session := session }
          suppressPositive := b &&& sprmib ≠ 0 }
          [sidDiagSessionControl + positiveOffset, session.byte, UInt8.ofNat (p2ServerMs >>> 8),
            UInt8.ofNat (p2ServerMs &&& 0xFF), UInt8.ofNat ((p2StarServerMs / 10) >>> 8),
            UInt8.ofNat ((p2StarServerMs / 10) &&& 0xFF)]
        some (none, c)

def ecuReset (c : Ctx) : Option (Option Nrc × Ctx) :=
  if c.req.length ≠ 2 then some (some .incorrectLength, c)
  else do
    let b ← load c.req 1
    match ResetType.ofByte? (b &&& subfunctionMask) with
    | none => some (some .subfunctionNotSupported, c)
    | some type =>
        if c.server.session ≠ .extended then some (some .subfuncNotSuppInSession, c)
        else do
          let c ← puts { c with
            server := { c.server with pendingReset := some type }
            suppressPositive := b &&& sprmib ≠ 0 } [sidEcuReset + positiveOffset, type.byte]
          some (none, c)

def clearDtc (c : Ctx) : Option (Option Nrc × Ctx) :=
  if c.req.length ≠ 4 then some (some .incorrectLength, c)
  else do
    let b₁ ← load c.req 1
    let b₂ ← load c.req 2
    let b₃ ← load c.req 3
    if b₁.toNat <<< 16 ||| b₂.toNat <<< 8 ||| b₃.toNat ≠ dtcGroupAll then
      some (some .requestOutOfRange, c)
    else do
      let c ← puts { c with dtc := c.dtc.clearAll } [sidClearDtc + positiveOffset]
      some (none, c)

/-- The loop of `DtcMgr_CountByStatusMask`. -/
def countByStatusMask (mask : UInt8) : List Dtc.Entry → Nat → Option Nat
  | [], n => some n
  | e :: entries, n =>
      if e.status &&& mask &&& Dtc.statusAvailabilityMask ≠ 0 then do
        let n ← narrow 8 (n + 1)
        countByStatusMask mask entries n
      else countByStatusMask mask entries n

/-- The loop of `DtcMgr_GetByStatusMask`, which stores from `out` on. -/
def getByStatusMask (mask : UInt8) (maxRecords out : Nat) :
    List (Dtc.Config × Dtc.Entry) → Nat → Bytes → Option (Nat × Bytes)
  | [], n, resp => some (n, resp)
  | p :: ps, n, resp =>
      if maxRecords ≤ n then some (n, resp)
      else if p.2.status &&& mask &&& Dtc.statusAvailabilityMask ≠ 0 then do
        let resp ← storeAll resp (out + n * 4) (Dtc.Manager.record p.1 p.2)
        let n ← narrow 8 (n + 1)
        getByStatusMask mask maxRecords out ps n resp
      else getByStatusMask mask maxRecords out ps n resp

def readDtc (c : Ctx) : Option (Option Nrc × Ctx) :=
  if c.req.length < 2 then some (some .incorrectLength, c)
  else do
    let b ← load c.req 1
    let subFunction := b &&& subfunctionMask
    if subFunction ≠ 0x01 ∧ subFunction ≠ 0x02 then some (some .subfunctionNotSupported, c)
    else if c.req.length ≠ 3 then some (some .incorrectLength, c)
    else do
      let mask ← load c.req 2
      let c ← puts c [sidReadDtc + positiveOffset, subFunction, Dtc.statusAvailabilityMask]
      let count ← countByStatusMask mask c.dtc.entries 0
      if subFunction = 0x01 then do
        let c ← puts c [dtcFormatIso14229, UInt8.ofNat (count >>> 8), UInt8.ofNat (count &&& 0xFF)]
        some (none, c)
      else do
        let left ← minus c.respMax c.respLen
        let room ← narrow 16 (left / dtcRecordLen)
        let maxRecords ← narrow 8 (if room > 0xFF then 0xFF else room)
        if maxRecords < count then some (some .responseTooLong, c)
        else do
          let (n, resp) ←
            getByStatusMask mask maxRecords c.respLen (c.dtc.table.zip c.dtc.entries) 0 c.resp
          let respLen ← narrow 16 (c.respLen + n * dtcRecordLen)
          some (none, { c with resp := resp, respLen := respLen })

/-- The loop of `ReadDid`, with `left` DIDs to go. -/
def readDidLoop (dids : List Did) : Nat → Nat → Bool → Ctx → Option (Option Nrc × Ctx)
  | 0, _, anyFound, c => some (if anyFound then none else some .requestOutOfRange, c)
  | left + 1, i, anyFound, c => do
      let hi ← load c.req (1 + 2 * i)
      let lo ← load c.req (2 + 2 * i)
      let id := hi.toUInt16 <<< 8 ||| lo.toUInt16
      let next ← narrow 16 (i + 1)
      match findDid dids id with
      | none => readDidLoop dids left next anyFound c
      | some did =>
          let needed ← narrow 32 (c.respLen + 2 + did.length.toNat)
          if c.respMax < needed then some (some .responseTooLong, c)
          else do
            let c ← puts c [(id >>> 8).toUInt8, id.toUInt8]
            let resp ← storeAll c.resp c.respLen did.read
            let respLen ← narrow 16 (c.respLen + did.length.toNat)
            readDidLoop dids left next true { c with resp := resp, respLen := respLen }

def readDid (dids : List Did) (c : Ctx) : Option (Option Nrc × Ctx) :=
  if c.req.length < 3 ∨ (c.req.length - 1) % 2 ≠ 0 then some (some .incorrectLength, c)
  else do
    let nDids ← narrow 16 ((c.req.length - 1) / 2)
    let c ← puts c [sidReadDid + positiveOffset]
    readDidLoop dids nDids 0 false c

def testerPresent (c : Ctx) : Option (Option Nrc × Ctx) :=
  if c.req.length ≠ 2 then some (some .incorrectLength, c)
  else do
    let b ← load c.req 1
    if b &&& subfunctionMask ≠ 0x00 then some (some .subfunctionNotSupported, c)
    else do
      let c ← puts { c with suppressPositive := b &&& sprmib ≠ 0 }
        [sidTesterPresent + positiveOffset, 0x00]
      some (none, c)

def service (dids : List Did) (c : Ctx) : Option (Option Nrc × Ctx) := do
  let sid ← load c.req 0
  if sid = sidDiagSessionControl then sessionControl c
  else if sid = sidEcuReset then ecuReset c
  else if sid = sidClearDtc then clearDtc c
  else if sid = sidReadDtc then readDtc c
  else if sid = sidReadDid then readDid dids c
  else if sid = sidTesterPresent then testerPresent c
  else some (some .serviceNotSupported, c)

def processRequest (dids : List Did) (time : Nat) (req : Bytes) (functional : Bool) (resp : Bytes)
    (respMax : Nat) (server : Server) (dtc : Dtc.Manager) : Option Outcome :=
  if req.length = 0 then some { respLen := 0, resp := resp, server := server, dtc := dtc }
  else do
    let server := { server with lastRequestMs := time % 2 ^ 32 }
    let (nrc, c) ← service dids
      { req := req, resp := resp, respMax := respMax, server := server, dtc := dtc }
    match nrc with
    | some nrc =>
        if functional ∧ isSuppressedForFunctional nrc then
          some { respLen := 0, resp := c.resp, server := c.server, dtc := c.dtc }
        else do
          let (respLen, resp) ← negative c nrc
          some { respLen := respLen, resp := resp, server := c.server, dtc := c.dtc }
    | none =>
        some {
          respLen := if c.suppressPositive then 0 else c.respLen
          resp := c.resp
          server := c.server
          dtc := c.dtc }

/-! ### No check fails -/

theorem bind_checked {α β : Type} {x : Option α} {a : α} (h : x = some a) (f : α → Option β) :
    (x >>= f) = f a := by
  rw [h]
  rfl

section Stores

variable {c : Ctx}

theorem put_eq (h : c.Fits) (b : UInt8) : put c b = some (c.put b) := by
  rw [put, Ctx.put]
  split
  · rfl
  rename_i hroom
  have hinside : c.respLen < c.resp.length := by
    rw [h.sized]
    omega
  have hnarrow := h.narrow
  have hlen : c.respLen + 1 < 2 ^ 16 := by omega
  rw [bind_checked (store_eq hinside b), bind_checked (narrow_eq hlen), Ctx.write,
    List.length_singleton, Nat.mod_eq_of_lt hlen]

theorem puts_eq (h : c.Fits) (bs : Bytes) : puts c bs = some (c.puts bs) := by
  induction bs generalizing c with
  | nil => rfl
  | cons b bs ih =>
      rw [puts, bind_checked (put_eq h b)]
      exact ih (h.put b)

theorem write_eq (h : c.Fits) {bs : Bytes} (hroom : c.respLen + bs.length ≤ c.respMax) :
    storeAll c.resp c.respLen bs = some (c.write bs).resp ∧
      narrow 16 (c.respLen + bs.length) = some (c.write bs).respLen := by
  have hnarrow := h.narrow
  constructor
  · rw [storeAll_eq (by rwa [h.sized])]
    rfl
  · rw [h.respLen_write hroom, narrow_eq (by omega)]

theorem negative_eq (h : c.Fits) (hreq : c.req.length ≠ 0) (nrc : Nrc) :
    negative c nrc = some (Uds.negative c nrc) := by
  rw [negative, Uds.negative]
  split
  · rfl
  rename_i hroom
  have hfits : 0 + [sidNegativeResponse, c.byte 0, nrc.byte].length ≤ c.resp.length := by
    rw [h.sized]
    exact Nat.le_of_not_lt hroom
  rw [bind_checked (load_eq (Nat.pos_of_ne_zero hreq))]
  exact bind_checked (storeAll_eq hfits) _

end Stores

section Services

variable {c : Ctx}

theorem load_req {i : Nat} (h : i < c.req.length) : load c.req i = some (c.byte i) := load_eq h

theorem answer_eq (h : c.Fits) (server : Server) (dtc : Dtc.Manager) (suppress : Bool) (bs : Bytes) :
    let d := { c with server := server, dtc := dtc, suppressPositive := suppress }
    (puts d bs >>= fun d => some ((none : Option Nrc), d)) = some (none, d.puts bs) := by
  intro d
  have hd : d.Fits := ⟨h.sized, h.used, h.narrow⟩
  exact bind_checked (puts_eq hd bs) _

theorem sessionControl_eq (h : c.Fits) : sessionControl c = some (Uds.sessionControl c) := by
  rw [sessionControl, Uds.sessionControl]
  split
  · rfl
  rename_i hlength
  rw [bind_checked (load_req (by omega))]
  cases Session.ofByte? (c.byte 1 &&& subfunctionMask) with
  | none => rfl
  | some session => exact answer_eq h _ _ _ _

theorem ecuReset_eq (h : c.Fits) : ecuReset c = some (Uds.ecuReset c) := by
  rw [ecuReset, Uds.ecuReset]
  split
  · rfl
  rename_i hlength
  rw [bind_checked (load_req (by omega))]
  cases ResetType.ofByte? (c.byte 1 &&& subfunctionMask) with
  | none => rfl
  | some type =>
      dsimp only
      split
      · rfl
      · exact answer_eq h _ _ _ _

theorem clearDtc_eq (h : c.Fits) : clearDtc c = some (Uds.clearDtc c) := by
  rw [clearDtc, Uds.clearDtc]
  split
  · rfl
  rename_i hlength
  rw [bind_checked (load_req (by omega)), bind_checked (load_req (by omega)),
    bind_checked (load_req (by omega))]
  dsimp only
  split
  · rfl
  · exact answer_eq h _ _ _ _

theorem testerPresent_eq (h : c.Fits) : testerPresent c = some (Uds.testerPresent c) := by
  rw [testerPresent, Uds.testerPresent]
  split
  · rfl
  rename_i hlength
  rw [bind_checked (load_req (by omega))]
  split
  · rfl
  · exact answer_eq h _ _ _ _

/-- The count is at most the number of the entries, and these are counted in a byte. -/
theorem countByStatusMask_eq (mask : UInt8) {entries : List Dtc.Entry} {n : Nat}
    (h : n + entries.length < 2 ^ 8) : countByStatusMask mask entries n =
      some (n + entries.countP fun e => e.status &&& mask &&& Dtc.statusAvailabilityMask ≠ 0) := by
  induction entries generalizing n with
  | nil => rfl
  | cons e entries ih =>
      rw [List.length_cons] at h
      rw [countByStatusMask]
      split
      · rename_i hmatch
        rw [bind_checked (narrow_eq (by omega)), List.countP_cons_of_pos (by simpa using hmatch),
          ih (by omega), Nat.add_assoc, Nat.add_comm 1]
      · rename_i hmatch
        rw [List.countP_cons_of_neg (by simpa using hmatch), ih (by omega)]

theorem getByStatusMask_eq (mask : UInt8) {maxRecords out n : Nat} (hmax : maxRecords < 2 ^ 8)
    (ps : List (Dtc.Config × Dtc.Entry)) {resp : Bytes} (hroom : out + maxRecords * 4 ≤ resp.length) :
    let stored := (ps.filter fun p =>
      p.2.status &&& mask &&& Dtc.statusAvailabilityMask ≠ 0).take (maxRecords - n)
    getByStatusMask mask maxRecords out ps n resp = some (n + stored.length,
      copy resp (out + n * 4) (stored.flatMap fun p => Dtc.Manager.record p.1 p.2)) := by
  induction ps generalizing n resp with
  | nil => simp [getByStatusMask]
  | cons p ps ih =>
      rw [getByStatusMask]
      split
      · rename_i hfull
        simp [Nat.sub_eq_zero_of_le hfull]
      rename_i hfree
      split
      · rename_i hmatch
        have hleft : maxRecords - n = maxRecords - (n + 1) + 1 := by omega
        have hstored : out + n * 4 + (Dtc.Manager.record p.1 p.2).length ≤ resp.length := by
          show out + n * 4 + 4 ≤ resp.length
          omega
        have hnext : out + (n + 1) * 4 = out + n * 4 + (Dtc.Manager.record p.1 p.2).length := by
          show _ = out + n * 4 + 4
          omega
        rw [bind_checked (storeAll_eq hstored), bind_checked (narrow_eq (by omega)),
          ih (by rwa [length_copy hstored]),
          List.filter_cons_of_pos (by simpa using hmatch), hleft, List.take_succ_cons]
        dsimp only
        rw [List.flatMap_cons, hnext, copy_append hstored, List.length_cons, Nat.add_assoc,
          Nat.add_comm 1]
      · rename_i hmatch
        rw [ih hroom, List.filter_cons_of_neg (by simpa using hmatch)]

theorem getByStatusMask_manager (mask : UInt8) {maxRecords out : Nat} (hmax : maxRecords < 2 ^ 8)
    (dtc : Dtc.Manager) {resp : Bytes} (hroom : out + maxRecords * 4 ≤ resp.length) :
    ∃ n, getByStatusMask mask maxRecords out (dtc.table.zip dtc.entries) 0 resp =
        some (n, copy resp out (dtc.getByStatusMask mask maxRecords)) ∧
      n * dtcRecordLen = (dtc.getByStatusMask mask maxRecords).length := by
  have hstored := getByStatusMask_eq mask (n := 0) hmax (dtc.table.zip dtc.entries) hroom
  dsimp only at hstored
  rw [Nat.zero_add, Nat.zero_mul, Nat.add_zero, Nat.sub_zero] at hstored
  refine ⟨_, hstored, ?_⟩
  rw [Dtc.Manager.getByStatusMask, Dtc.Manager.length_records, Nat.mul_comm]

theorem readDtc_eq (h : c.Fits) (htable : c.dtc.table.length < 2 ^ 8) :
    readDtc c = some (Uds.readDtc c) := by
  rw [readDtc, Uds.readDtc]
  dsimp only
  split
  · rfl
  rename_i hshort
  rw [bind_checked (load_req (by omega))]
  split
  · rfl
  split
  · rfl
  rename_i hlength
  rw [bind_checked (load_req (by omega))]
  generalize [sidReadDtc + positiveOffset, c.byte 1 &&& subfunctionMask,
    Dtc.statusAvailabilityMask] = header
  have hfits := h.puts header
  have hused := hfits.used
  have hnarrow := hfits.narrow
  rw [bind_checked (puts_eq h _), ← Ctx.dtc_puts c header]
  rw [← Ctx.dtc_puts c header] at htable
  generalize c.puts header = d at *
  -- the count comes before the header in one of the two and after it in the other
  have hcount : countByStatusMask (c.byte 2) d.dtc.entries 0 =
      some (d.dtc.countByStatusMask (c.byte 2)) := by
    rw [countByStatusMask_eq (c.byte 2) (by rwa [Nat.zero_add, d.dtc.sized]), Nat.zero_add]
    rfl
  rw [bind_checked hcount]
  split
  · exact bind_checked (puts_eq hfits _) _
  rw [bind_checked (minus_eq hused), bind_checked (narrow_eq (by rw [dtcRecordLen]; omega))]
  generalize hmax : (if 0xFF < (d.respMax - d.respLen) / dtcRecordLen then 0xFF
    else (d.respMax - d.respLen) / dtcRecordLen) = maxRecords
  have hbyte : maxRecords < 2 ^ 8 := by
    split at hmax <;> omega
  have hroom : d.respLen + maxRecords * 4 ≤ d.respMax := by
    rw [dtcRecordLen] at hmax
    split at hmax <;> omega
  rw [bind_checked (narrow_eq hbyte)]
  split
  · rfl
  have hresp : d.respLen + maxRecords * 4 ≤ d.resp.length := by
    rw [hfits.sized]
    exact hroom
  obtain ⟨n, hstored, hlen⟩ := getByStatusMask_manager (c.byte 2) hbyte d.dtc hresp
  have hle := Dtc.Manager.length_getByStatusMask_le d.dtc (c.byte 2) maxRecords
  obtain ⟨-, hnew⟩ := write_eq hfits
    (show d.respLen + (d.dtc.getByStatusMask (c.byte 2) maxRecords).length ≤ d.respMax by omega)
  rw [bind_checked hstored]
  dsimp only
  rw [hlen, bind_checked hnew]
  rfl

theorem readDidLoop_eq (dids : List Did) {left i : Nat} (hnarrow : i + left < 2 ^ 16) (anyFound : Bool)
    (h : c.Fits) (hreq : 2 * (i + left) < c.req.length) {d : Ctx} (hd : d.req = c.req) :
    readDidLoop dids left i anyFound c =
      some (Uds.readDidLoop dids ((List.range' i left).map (requestedDid d)) anyFound c) := by
  induction left generalizing i anyFound c with
  | zero => rfl
  | succ left ih =>
      have hid : requestedDid d i = (c.byte (1 + 2 * i)).toUInt16 <<< 8 |||
          (c.byte (2 + 2 * i)).toUInt16 := by
        rw [requestedDid, Ctx.byte, Ctx.byte, hd]
        rfl
      rw [readDidLoop, List.range'_succ, List.map_cons, Uds.readDidLoop, hid,
        bind_checked (load_req (by omega)), bind_checked (load_req (by omega))]
      generalize (c.byte (1 + 2 * i)).toUInt16 <<< 8 ||| (c.byte (2 + 2 * i)).toUInt16 = id
      rw [bind_checked (narrow_eq (by omega))]
      cases findDid dids id with
      | none => exact ih (by omega) anyFound h (by omega) hd
      | some did =>
          have hlength := did.length.toNat_lt
          have hused := h.used
          have hmax := h.narrow
          dsimp only
          rw [bind_checked (narrow_eq (show c.respLen + 2 + did.length.toNat < 2 ^ 32 by omega))]
          split
          · rfl
          rename_i hroom
          rw [bind_checked (puts_eq h _)]
          have hid : c.respLen + [(id >>> 8).toUInt8, id.toUInt8].length ≤ c.respMax := by
            simp only [List.length_cons, List.length_nil]
            omega
          have hput := (h.puts_eq hid).1
          have hfits := h.puts [(id >>> 8).toUInt8, id.toUInt8]
          have hreq' := Ctx.req_puts c [(id >>> 8).toUInt8, id.toUInt8]
          have hmax' := Ctx.respMax_puts c [(id >>> 8).toUInt8, id.toUInt8]
          generalize c.puts [(id >>> 8).toUInt8, id.toUInt8] = c' at *
          have hplace : c'.respLen + did.read.length ≤ c'.respMax := by
            rw [hput, hmax', did.exact]
            simp only [List.length_cons, List.length_nil]
            omega
          obtain ⟨hstored, hlen⟩ := write_eq hfits hplace
          rw [did.exact] at hlen
          rw [bind_checked hstored, bind_checked hlen]
          refine ih (by omega) true (hfits.write hplace) ?_ ?_
          · show 2 * (i + 1 + left) < c'.req.length
            rw [hreq']
            omega
          · exact hd.trans hreq'.symm

theorem readDid_eq (dids : List Did) (h : c.Fits) (hreq : c.req.length < 2 ^ 16) :
    readDid dids c = some (Uds.readDid dids c) := by
  rw [readDid, Uds.readDid]
  split
  · rfl
  rw [bind_checked (narrow_eq (by omega)), bind_checked (puts_eq h _)]
  dsimp only
  rw [List.range_eq_range']
  refine readDidLoop_eq dids (by omega) false (h.puts _) ?_ (Ctx.req_puts c _).symm
  rw [Ctx.req_puts]
  omega

theorem service_eq (dids : List Did) (h : c.Fits) (hpos : c.req.length ≠ 0)
    (hreq : c.req.length < 2 ^ 16) (htable : c.dtc.table.length < 2 ^ 8) :
    service dids c = some (Uds.service dids c) := by
  rw [service, Uds.service, bind_checked (load_req (Nat.pos_of_ne_zero hpos))]
  split
  · exact sessionControl_eq h
  split
  · exact ecuReset_eq h
  split
  · exact clearDtc_eq h
  split
  · exact readDtc_eq h htable
  split
  · exact readDid_eq dids h hreq
  split
  · exact testerPresent_eq h
  · rfl

end Services

/-- **Inside the bounds.** For every table, state, request and buffer, every read lies in the request
and every store in the buffer, every length that is kept in a narrow type fits, and the length
returned is no more than that of the buffer. -/
theorem processRequest_inside (dids : List Did) (time : Nat) {req : Bytes} (functional : Bool)
    (resp : Bytes) (server : Server) {dtc : Dtc.Manager} (hreq : req.length < 2 ^ 16)
    (hresp : resp.length < 2 ^ 16) (htable : dtc.table.length < 2 ^ 8) :
    let o := Uds.processRequest dids time req functional resp resp.length server dtc
    processRequest dids time req functional resp resp.length server dtc = some o ∧
      o.resp.length = resp.length ∧ o.respLen ≤ resp.length := by
  refine ⟨?_, processRequest_fits dids time req functional server dtc rfl hresp⟩
  rw [processRequest, Uds.processRequest]
  split
  · rfl
  rename_i hpos
  have hfits := fits_startOf time req server dtc rfl hresp
  have hserved := (serves_service dids hfits).fits
  have hkept := req_service dids (startOf time req server dtc resp resp.length)
  have hservice := service_eq dids hfits hpos hreq htable
  rw [startOf] at *
  dsimp only
  rw [bind_checked hservice]
  generalize Uds.service dids _ = served at *
  obtain ⟨nrc, c⟩ := served
  cases nrc with
  | none => rfl
  | some nrc =>
      dsimp only
      split
      · rfl
      · rw [bind_checked (negative_eq hserved (by rwa [hkept]) nrc)]

/-- The same identifier twice, in a buffer with room for one record. -/
theorem processRequest_inside_secondTooLong :
    let dids : List Did := [⟨0xF190, 3, [0x41, 0x42, 0x43], rfl⟩]
    let o := Uds.processRequest dids 0 [0x22, 0xF1, 0x90, 0xF1, 0x90] false (List.replicate 7 0) 7 {}
      (Dtc.Manager.resetAll [⟨0xC10087, 1⟩])
    processRequest dids 0 [0x22, 0xF1, 0x90, 0xF1, 0x90] false (List.replicate 7 0) 7 {}
        (Dtc.Manager.resetAll [⟨0xC10087, 1⟩]) = some o ∧
      o.resp.length = 7 ∧ o.respLen ≤ 7 := by
  intro dids
  exact processRequest_inside dids 0 false (List.replicate 7 0) {} (by decide) (by decide) (by decide)

end MiniEcu.Uds.Checked
