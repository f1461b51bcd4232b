import MiniEcu.Lib.Words
import MiniEcu.Uds.Services

/-!
# The request grammar

Which requests the server accepts, with the response to each, and in which order the checks decide
the code of a refusal. Both are stated on the bytes of the request alone; the services are then shown
to agree with them.
-/

namespace MiniEcu.Uds

open Memory

/-! ### Requests and their responses -/

/-- A positive response is held back if the sub-function byte asks for it. -/
def unlessSuppressed (x : UInt8) (response : Bytes) : Bytes :=
  if x &&& 0x80 ≠ 0 then [] else response

/-- What a response holds for one of the requested DIDs. -/
def didRecord (dids : List Did) (id : UInt16) : Bytes :=
  match findDid dids id with
  | none => []
  | some did => Words.bytes id ++ did.read

def didRecords (dids : List Did) (ids : List UInt16) : Bytes := ids.flatMap (didRecord dids)

def knownDid (dids : List Did) (id : UInt16) : Bool := (findDid dids id).isSome

/-- The entries of the DTC table that match a mask, in the order of the table. -/
def matching (dtc : Dtc.Manager) (mask : UInt8) : List (Dtc.Config × Dtc.Entry) :=
  (dtc.table.zip dtc.entries).filter fun p =>
    p.2.status &&& mask &&& Dtc.statusAvailabilityMask ≠ 0

def dtcRecords (dtc : Dtc.Manager) (mask : UInt8) : Bytes :=
  (matching dtc mask).flatMap fun p => Dtc.Manager.record p.1 p.2

/-- The requests that are accepted, each with its response. -/
inductive Positive (dids : List Did) (dtc : Dtc.Manager) (session : Session) : Bytes → Bytes → Prop
  | sessionControl (x : UInt8) (s : Session) (hx : x &&& 0x7F = s.byte) :
      Positive dids dtc session [0x10, x]
        (unlessSuppressed x [0x50, s.byte, 0x00, 0x32, 0x01, 0xF4])
  | ecuReset (x : UInt8) (type : ResetType) (hx : x &&& 0x7F = type.byte)
      (hsession : session = .extended) :
      Positive dids dtc session [0x11, x] (unlessSuppressed x [0x51, type.byte])
  | clearDtc : Positive dids dtc session [0x14, 0xFF, 0xFF, 0xFF] [0x54]
  | countDtc (x mask : UInt8) (hx : x &&& 0x7F = 0x01) :
      Positive dids dtc session [0x19, x, mask]
        ([0x59, 0x01, 0x7F, 0x01] ++ Words.bytes (UInt16.ofNat (matching dtc mask).length))
  | listDtc (x mask : UInt8) (hx : x &&& 0x7F = 0x02) :
      Positive dids dtc session [0x19, x, mask]
        ([0x59, 0x02, 0x7F] ++ dtcRecords dtc mask)
  | readDid (ids : List UInt16) (hknown : ids.any (knownDid dids)) :
      Positive dids dtc session (0x22 :: ids.flatMap Words.bytes) (0x62 :: didRecords dids ids)
  | testerPresent (x : UInt8) (hx : x &&& 0x7F = 0x00) :
      Positive dids dtc session [0x3E, x] (unlessSuppressed x [0x7E, 0x00])

/-! ### Refusals -/

section Checks

variable (req : Bytes)

def sid : UInt8 := req.getD 0 0

def supported : Bool :=
  sid req = 0x10 || sid req = 0x11 || sid req = 0x14 || sid req = 0x19 || sid req = 0x22 ||
    sid req = 0x3E

def rightLength : Bool :=
  if sid req = 0x14 then req.length = 4
  else if sid req = 0x19 then req.length = 3
  else if sid req = 0x22 then 3 ≤ req.length && req.length % 2 = 1
  else req.length = 2

/-- The length that is needed to look at the sub-function. -/
def enoughLength : Bool := if sid req = 0x19 then 2 ≤ req.length else rightLength req

def rightSubfunction : Bool :=
  let subFunction := req.getD 1 0 &&& 0x7F
  if sid req = 0x10 ∨ sid req = 0x11 then subFunction = 0x01 || subFunction = 0x03
  else if sid req = 0x19 then subFunction = 0x01 || subFunction = 0x02
  else if sid req = 0x3E then subFunction = 0x00
  else true

def rightSession (session : Session) : Bool := sid req ≠ 0x11 || session = .extended

/-- The DTC group is the one of all codes, or one of the DIDs is known. -/
def inRange (dids : List Did) : Bool :=
  if sid req = 0x14 then req.drop 1 = [0xFF, 0xFF, 0xFF]
  else if sid req = 0x22 then (Words.words (req.drop 1)).any (knownDid dids)
  else true

end Checks

/-- The code of the first check that fails. -/
def firstFailing : List (Bool × Nrc) → Option Nrc
  | [] => none
  | (ok, nrc) :: checks => if ok then firstFailing checks else some nrc

/-- The order of the checks. ReadDTCInformation looks at its sub-function as soon as it is there,
and at the rest of the length afterwards. -/
def refusal (dids : List Did) (session : Session) (req : Bytes) : Option Nrc :=
  firstFailing
    [(supported req, .serviceNotSupported), (enoughLength req, .incorrectLength),
      (rightSubfunction req, .subfunctionNotSupported), (rightLength req, .incorrectLength),
      (rightSession req session, .subfuncNotSuppInSession), (inRange req dids, .requestOutOfRange)]

/-- The order in which the whole length comes before the sub-function. -/
def refusalByLength (dids : List Did) (session : Session) (req : Bytes) : Option Nrc :=
  firstFailing
    [(supported req, .serviceNotSupported), (rightLength req, .incorrectLength),
      (rightSubfunction req, .subfunctionNotSupported),
      (rightSession req session, .subfuncNotSuppInSession), (inRange req dids, .requestOutOfRange)]

def negativeResponse (req : Bytes) (nrc : Nrc) : Bytes := [0x7F, sid req, nrc.byte]

/-- The response to a refusal. To a functional request, most refusals get none. -/
def refusalResponse (functional : Bool) (req : Bytes) : Option Nrc → Bytes
  | none => []
  | some nrc =>
      if functional ∧ isSuppressedForFunctional nrc then [] else negativeResponse req nrc

/-! ### What is not refused is accepted -/

theorem eq_cons_of_sid {req : Bytes} {b : UInt8} (hsid : sid req = b) (h : 0 < req.length) :
    req = b :: req.drop 1 := by
  match req, h with
  | _ :: _, _ =>
      cases hsid
      rfl

theorem eq_of_length_two {req : Bytes} {b : UInt8} (hsid : sid req = b) (h : req.length = 2) :
    req = [b, req.getD 1 0] := by
  match req, h with
  | [_, x], _ =>
      cases hsid
      rfl

theorem eq_of_length_three {req : Bytes} {b : UInt8} (hsid : sid req = b) (h : req.length = 3) :
    req = [b, req.getD 1 0, req.getD 2 0] := by
  match req, h with
  | [_, x, y], _ =>
      cases hsid
      rfl

theorem firstFailing_eq_none {checks : List (Bool × Nrc)} (h : firstFailing checks = none) :
    ∀ check ∈ checks, check.1 := by
  induction checks with
  | nil => exact fun check hmem => nomatch hmem
  | cons check checks ih =>
      rw [firstFailing] at h
      split at h
      · rename_i hok
        exact List.forall_mem_cons.mpr ⟨hok, ih h⟩
      · cases h

theorem positive_of_refusal_eq_none {dids : List Did} {dtc : Dtc.Manager} {session : Session}
    {req : Bytes} (h : refusal dids session req = none) :
    ∃ response, Positive dids dtc session req response := by
  obtain ⟨hsupported, -, hsub, hlength, hsession, hrange, -⟩ := by
    simpa only [List.forall_mem_cons] using firstFailing_eq_none h
  simp only [supported, Bool.or_eq_true, decide_eq_true_eq, or_assoc] at hsupported
  rcases hsupported with hsid | hsid | hsid | hsid | hsid | hsid
  · have htwo : req.length = 2 := by simpa [rightLength, hsid] using hlength
    rw [eq_of_length_two hsid htwo]
    rcases (by simpa [rightSubfunction, hsid] using hsub) with hx | hx
    · exact ⟨_, .sessionControl _ .default hx⟩
    · exact ⟨_, .sessionControl _ .extended hx⟩
  · have htwo : req.length = 2 := by simpa [rightLength, hsid] using hlength
    have hextended : session = .extended := by simpa [rightSession, hsid] using hsession
    rw [eq_of_length_two hsid htwo]
    rcases (by simpa [rightSubfunction, hsid] using hsub) with hx | hx
    · exact ⟨_, .ecuReset _ .hard hx hextended⟩
    · exact ⟨_, .ecuReset _ .soft hx hextended⟩
  · have hfour : req.length = 4 := by simpa [rightLength, hsid] using hlength
    have hgroup : req.drop 1 = [0xFF, 0xFF, 0xFF] := by simpa [inRange, hsid] using hrange
    rw [eq_cons_of_sid hsid (by omega), hgroup]
    exact ⟨_, .clearDtc⟩
  · have hthree : req.length = 3 := by simpa [rightLength, hsid] using hlength
    rw [eq_of_length_three hsid hthree]
    rcases (by simpa [rightSubfunction, hsid] using hsub) with hx | hx
    · exact ⟨_, .countDtc _ _ hx⟩
    · exact ⟨_, .listDtc _ _ hx⟩
  · obtain ⟨hlong, hodd⟩ : 3 ≤ req.length ∧ req.length % 2 = 1 := by
      simpa [rightLength, hsid] using hlength
    have hknown : (Words.words (req.drop 1)).any (knownDid dids) := by
      simpa [inRange, hsid] using hrange
    have hwords : (req.drop 1).length = 2 * ((req.length - 1) / 2) := by
      rw [List.length_drop]
      omega
    rw [eq_cons_of_sid hsid (by omega), ← Words.flatMap_words hwords]
    exact ⟨_, .readDid _ hknown⟩
  · have htwo : req.length = 2 := by simpa [rightLength, hsid] using hlength
    rw [eq_of_length_two hsid htwo]
    exact ⟨_, .testerPresent _ (by simpa [rightSubfunction, hsid] using hsub)⟩

/-! ### What is refused -/

section Refusals

theorem dtcGroup_eq (b₁ b₂ b₃ : UInt8) :
    b₁.toNat <<< 16 ||| b₂.toNat <<< 8 ||| b₃.toNat =
      65536 * b₁.toNat + 256 * b₂.toNat + b₃.toNat := by
  have hhigh : b₁.toNat <<< 16 ||| b₂.toNat <<< 8 = (b₁.toNat <<< 8 ||| b₂.toNat) <<< 8 := by
    rw [Nat.shiftLeft_or_distrib, ← Nat.shiftLeft_add]
  rw [hhigh, ← Nat.shiftLeft_add_eq_or_of_lt b₃.toNat_lt, ← Nat.shiftLeft_add_eq_or_of_lt b₂.toNat_lt,
    Nat.shiftLeft_eq, Nat.shiftLeft_eq]
  omega

theorem readDidLoop_unknown {dids : List Did} {ids : List UInt16} (h : ¬ ids.any (knownDid dids))
    (c : Ctx) : readDidLoop dids ids false c = (some .requestOutOfRange, c) := by
  induction ids with
  | nil => rfl
  | cons id ids ih =>
      rw [List.any_cons, Bool.or_eq_true, not_or] at h
      have hnone : findDid dids id = none := Option.not_isSome_iff_eq_none.mp h.1
      rw [readDidLoop, hnone]
      exact ih h.2

theorem requestedDids_eq {c : Ctx} {n : Nat} (h : c.req.length = 1 + 2 * n) :
    (List.range n).map (requestedDid c) = Words.words (c.req.drop 1) := by
  have hlen : (c.req.drop 1).length = 2 * n := by
    rw [List.length_drop]
    omega
  rw [← Words.map_range_eq_words hlen]
  refine List.map_congr_left fun i _ => ?_
  have hbyte : ∀ k, (c.req.drop 1).getD k 0 = c.byte (1 + k) := fun k => by
    rw [Ctx.byte, List.getD_eq_getElem?_getD, List.getD_eq_getElem?_getD, List.getElem?_drop]
  rw [requestedDid, Words.be16, hbyte, hbyte, show 1 + (2 * i + 1) = 2 + 2 * i by omega]

variable {dids : List Did} {c : Ctx} {nrc : Nrc}
  (h : refusal dids c.server.session c.req = some nrc)
include h

theorem sessionControl_of_refusal (hsid : sid c.req = 0x10) : (sessionControl c).1 = some nrc := by
  unfold sessionControl
  grind [refusal, firstFailing, supported, enoughLength, rightLength, rightSubfunction,
    rightSession, inRange, Ctx.byte, Session.ofByte?]

theorem ecuReset_of_refusal (hsid : sid c.req = 0x11) : (ecuReset c).1 = some nrc := by
  unfold ecuReset
  grind [refusal, firstFailing, supported, enoughLength, rightLength, rightSubfunction,
    rightSession, inRange, Ctx.byte, ResetType.ofByte?]

theorem testerPresent_of_refusal (hsid : sid c.req = 0x3E) : (testerPresent c).1 = some nrc := by
  unfold testerPresent
  grind [refusal, firstFailing, supported, enoughLength, rightLength, rightSubfunction,
    rightSession, inRange, Ctx.byte, ResetType.ofByte?]

theorem readDtc_of_refusal (hsid : sid c.req = 0x19) : (readDtc c).1 = some nrc := by
  unfold readDtc
  grind [refusal, firstFailing, supported, enoughLength, rightLength, rightSubfunction,
    rightSession, inRange, Ctx.byte]

theorem clearDtc_of_refusal (hsid : sid c.req = 0x14) : (clearDtc c).1 = some nrc := by
  unfold clearDtc
  split
  · grind [refusal, firstFailing, supported, enoughLength, rightLength]
  rename_i hfour
  rw [not_not] at hfour
  have hgroup : ¬ c.req.drop 1 = [0xFF, 0xFF, 0xFF] ∧ nrc = .requestOutOfRange := by
    grind [refusal, firstFailing, supported, enoughLength, rightLength, rightSubfunction,
      rightSession, inRange]
  obtain ⟨hother, rfl⟩ := hgroup
  rw [dtcGroup_eq]
  simp only []
  split
  · rfl
  · rename_i hall
    exfalso
    apply hother
    rw [not_not] at hall
    match hreq : c.req, hfour with
    | [_, b₁, b₂, b₃], _ =>
        simp only [Ctx.byte, hreq, List.getD_cons_succ, List.getD_cons_zero, dtcGroupAll] at hall
        have h₁ := b₁.toNat_lt
        have h₂ := b₂.toNat_lt
        have h₃ := b₃.toNat_lt
        have hbytes : b₁ = 0xFF ∧ b₂ = 0xFF ∧ b₃ = 0xFF := by
          refine ⟨UInt8.toNat_inj.mp ?_, UInt8.toNat_inj.mp ?_, UInt8.toNat_inj.mp ?_⟩ <;>
            simp only [UInt8.reduceToNat] <;> omega
        obtain ⟨rfl, rfl, rfl⟩ := hbytes
        rfl

theorem readDid_of_refusal (hsid : sid c.req = 0x22) : (readDid dids c).1 = some nrc := by
  unfold readDid
  split
  · grind [refusal, firstFailing, supported, enoughLength, rightLength]
  rename_i hlength
  rw [not_or, Nat.not_lt, not_not] at hlength
  have hunknown : ¬ (Words.words (c.req.drop 1)).any (knownDid dids) ∧ nrc = .requestOutOfRange := by
    grind [refusal, firstFailing, supported, enoughLength, rightLength, rightSubfunction,
      rightSession, inRange]
  obtain ⟨hunknown, rfl⟩ := hunknown
  simp only []
  rw [requestedDids_eq (by omega), readDidLoop_unknown hunknown]

end Refusals

/-- A service refuses what the checks refuse, with their code. -/
theorem service_of_refusal {dids : List Did} {c : Ctx} {nrc : Nrc}
    (h : refusal dids c.server.session c.req = some nrc) : (service dids c).1 = some nrc := by
  unfold service
  split
  · exact sessionControl_of_refusal h ‹_›
  split
  · exact ecuReset_of_refusal h ‹_›
  split
  · exact clearDtc_of_refusal h ‹_›
  split
  · exact readDtc_of_refusal h ‹_›
  split
  · exact readDid_of_refusal h ‹_›
  split
  · exact testerPresent_of_refusal h ‹_›
  · grind [refusal, firstFailing, supported, sid, Ctx.byte]

/-! ### What is accepted -/

/-- What a service has put into its response, unless the response is held back. -/
def Ctx.sent (c : Ctx) : Bytes := if c.suppressPositive then [] else c.content

theorem Ctx.Fits.sent_puts {c : Ctx} (h : c.Fits) (hempty : c.respLen = 0)
    (hsent : c.suppressPositive = false) {bs : Bytes} (hroom : bs.length ≤ c.respMax) :
    (c.puts bs).sent = bs := by
  rw [Ctx.sent, Ctx.suppressPositive_puts, hsent, (h.puts_eq (by omega)).2, Ctx.content, hempty,
    List.take_zero]
  rfl

theorem Ctx.Fits.sent_puts_unless {c d : Ctx} (h : c.Fits) (hempty : c.respLen = 0)
    (hresp : d.resp = c.resp) (hlen : d.respLen = c.respLen) (hmax : d.respMax = c.respMax)
    {x : UInt8} (hx : d.suppressPositive = decide (x &&& 0x80 ≠ 0)) {bs : Bytes}
    (hroom : (unlessSuppressed x bs).length ≤ c.respMax) :
    (d.puts bs).sent = unlessSuppressed x bs := by
  have hfits : d.Fits :=
    ⟨by rw [hresp, hmax, h.sized], by rw [hlen, hmax]; exact h.used, by rw [hmax]; exact h.narrow⟩
  rw [unlessSuppressed] at hroom ⊢
  split
  · rename_i hset
    rw [Ctx.sent, Ctx.suppressPositive_puts, hx, decide_eq_true hset]
    rfl
  · rename_i hclear
    rw [if_neg hclear, ← hmax] at hroom
    exact hfits.sent_puts (hlen.trans hempty) (by rw [hx, decide_eq_false hclear]) hroom

theorem Ctx.puts_append (c : Ctx) (bs bs' : Bytes) : c.puts (bs ++ bs') = (c.puts bs).puts bs' :=
  List.foldl_append

theorem length_matching (dtc : Dtc.Manager) (mask : UInt8) :
    dtc.countByStatusMask mask = (matching dtc mask).length := by
  rw [Dtc.Manager.countByStatusMask, matching, ← List.countP_eq_length_filter]
  conv_lhs => rw [← List.map_snd_zip (Nat.le_of_eq dtc.sized), List.countP_map]
  rfl

theorem length_matching_le (dtc : Dtc.Manager) (mask : UInt8) :
    (matching dtc mask).length ≤ dtc.table.length := by
  rw [← length_matching, ← dtc.sized]
  exact List.countP_le_length

theorem length_dtcRecords (dtc : Dtc.Manager) (mask : UInt8) :
    (dtcRecords dtc mask).length = 4 * (matching dtc mask).length := by
  rw [dtcRecords, List.length_flatMap]
  simp [Dtc.Manager.record, Nat.mul_comm]

theorem getByStatusMask_eq (dtc : Dtc.Manager) (mask : UInt8) {maxRecords : Nat}
    (h : (matching dtc mask).length ≤ maxRecords) :
    dtc.getByStatusMask mask maxRecords = dtcRecords dtc mask := by
  show ((matching dtc mask).take maxRecords).flatMap _ = _
  rw [List.take_of_length_le h]
  rfl

section ReadDid

variable {dids : List Did} {c : Ctx}

theorem suppressPositive_readDidLoop (ids : List UInt16) (anyFound : Bool) :
    (readDidLoop dids ids anyFound c).2.suppressPositive = c.suppressPositive := by
  induction ids generalizing anyFound c with
  | nil => rfl
  | cons id ids ih =>
      rw [readDidLoop]
      split
      · exact ih anyFound
      split
      · rfl
      · rw [ih, Ctx.suppressPositive_write, Ctx.suppressPositive_puts]

/-- One turn of the loop for a DID that is known and fits. -/
theorem Ctx.Fits.record (h : c.Fits) (id : UInt16) (did : Did)
    (hroom : c.respLen + 2 + did.length.toNat ≤ c.respMax) :
    ((c.puts (Words.bytes id)).write did.read).Fits ∧
      ((c.puts (Words.bytes id)).write did.read).respLen = c.respLen + 2 + did.length.toNat ∧
      ((c.puts (Words.bytes id)).write did.read).content =
        c.content ++ (Words.bytes id ++ did.read) := by
  have hid : c.respLen + (Words.bytes id).length ≤ c.respMax := by
    rw [Words.length_bytes]
    omega
  obtain ⟨hlen, hcontent⟩ := h.puts_eq hid
  have hfits := h.puts (Words.bytes id)
  have hrest : (c.puts (Words.bytes id)).respLen + did.read.length ≤
      (c.puts (Words.bytes id)).respMax := by
    rw [hlen, Ctx.respMax_puts, did.exact, Words.length_bytes]
    exact hroom
  refine ⟨hfits.write hrest, ?_, ?_⟩
  · rw [hfits.respLen_write hrest, hlen, did.exact, Words.length_bytes]
  · rw [hfits.content_write hrest, hcontent, List.append_assoc]

theorem readDid_request {ids : List UInt16} (hreq : c.req = 0x22 :: ids.flatMap Words.bytes)
    (hsome : ids ≠ []) : readDid dids c = readDidLoop dids ids false (c.puts [0x62]) := by
  have hbytes : (ids.flatMap Words.bytes).length = 2 * ids.length := by
    simp [List.length_flatMap, Nat.mul_comm]
  have hlength : c.req.length = 1 + 2 * ids.length := by
    rw [hreq, List.length_cons, hbytes, Nat.add_comm]
  have hpos := List.length_pos_of_ne_nil hsome
  rw [readDid, if_neg (by omega), show (c.req.length - 1) / 2 = ids.length by omega]
  simp only []
  rw [requestedDids_eq hlength, hreq, List.drop_succ_cons, List.drop_zero, Words.words_flatMap]
  rfl

theorem service_readDid {bs : Bytes} (hreq : c.req = 0x22 :: bs) :
    service dids c = readDid dids c := by
  rw [service, Ctx.byte, hreq]
  rfl

theorem didRecord_known {id : UInt16} {did : Did} (hfind : findDid dids id = some did) :
    didRecord dids id = Words.bytes id ++ did.read := by
  rw [didRecord, hfind]

theorem didRecord_unknown {id : UInt16} (hfind : findDid dids id = none) :
    didRecord dids id = [] := by
  rw [didRecord, hfind]

theorem length_didRecord {id : UInt16} {did : Did} (hfind : findDid dids id = some did) :
    (didRecord dids id).length = 2 + did.length.toNat := by
  rw [didRecord_known hfind, List.length_append, Words.length_bytes, did.exact]

theorem didRecords_cons (id : UInt16) (ids : List UInt16) :
    didRecords dids (id :: ids) = didRecord dids id ++ didRecords dids ids := List.flatMap_cons

/-- With room for all records, the loop appends them. -/
theorem readDidLoop_fits (h : c.Fits) {ids : List UInt16} (anyFound : Bool)
    (hroom : c.respLen + (didRecords dids ids).length ≤ c.respMax) :
    (readDidLoop dids ids anyFound c).1 =
        (if anyFound || ids.any (knownDid dids) then none else some .requestOutOfRange) ∧
      (readDidLoop dids ids anyFound c).2.content = c.content ++ didRecords dids ids := by
  induction ids generalizing anyFound c with
  | nil => simp [readDidLoop, didRecords]
  | cons id ids ih =>
      rw [didRecords_cons, List.length_append] at hroom
      rw [didRecords_cons, List.any_cons, readDidLoop]
      cases hfind : findDid dids id with
      | none =>
          rw [didRecord_unknown hfind] at hroom ⊢
          rw [knownDid, hfind]
          exact ih h anyFound (by simpa using hroom)
      | some did =>
          rw [length_didRecord hfind] at hroom
          obtain ⟨hfits, hlen, hcontent⟩ := h.record id did (by omega)
          obtain ⟨hnrc, hall⟩ := ih hfits true (by
            rw [hlen, Ctx.respMax_write, Ctx.respMax_puts]
            omega)
          simp only [if_neg (show ¬ c.respMax < c.respLen + 2 + did.length.toNat by omega)]
          refine ⟨?_, ?_⟩
          · show (readDidLoop dids ids true ((c.puts (Words.bytes id)).write did.read)).1 = _
            rw [hnrc, knownDid, hfind]
            simp
          · rw [didRecord_known hfind, ← List.append_assoc, ← hcontent]
            exact hall

/-- Without room for all of them, it gives up at the first one that does not fit. -/
theorem readDidLoop_tooLong (h : c.Fits) {ids : List UInt16} (anyFound : Bool)
    (hfull : c.respMax < c.respLen + (didRecords dids ids).length) :
    (readDidLoop dids ids anyFound c).1 = some .responseTooLong := by
  induction ids generalizing anyFound c with
  | nil =>
      rw [didRecords, List.flatMap_nil, List.length_nil] at hfull
      exact absurd h.used (by omega)
  | cons id ids ih =>
      rw [didRecords_cons, List.length_append] at hfull
      rw [readDidLoop]
      cases hfind : findDid dids id with
      | none =>
          rw [didRecord_unknown hfind] at hfull
          exact ih h anyFound (by simpa using hfull)
      | some did =>
          rw [length_didRecord hfind] at hfull
          by_cases hroom : c.respMax < c.respLen + 2 + did.length.toNat
          · simp only [if_pos hroom]
          · simp only [if_neg hroom]
            obtain ⟨hfits, hlen, -⟩ := h.record id did (by omega)
            apply ih hfits true
            show (c.puts (Words.bytes id)).respMax <
              ((c.puts (Words.bytes id)).write did.read).respLen + _
            rw [hlen, Ctx.respMax_puts]
            omega

end ReadDid

theorem ofByte?_byte_session (s : Session) : Session.ofByte? s.byte = some s := by
  cases s <;> rfl

theorem ofByte?_byte_resetType (type : ResetType) : ResetType.ofByte? type.byte = some type := by
  cases type <;> rfl

section Accepted

variable {dids : List Did} {c : Ctx} (h : c.Fits) (hempty : c.respLen = 0) {x : UInt8}
include h hempty

theorem sessionControl_positive {s : Session} (hreq : c.req = [0x10, x]) (hx : x &&& 0x7F = s.byte)
    (hroom : (unlessSuppressed x [0x50, s.byte, 0x00, 0x32, 0x01, 0xF4]).length ≤ c.respMax) :
    (sessionControl c).1 = none ∧
      (sessionControl c).2.sent = unlessSuppressed x [0x50, s.byte, 0x00, 0x32, 0x01, 0xF4] := by
  let d : Ctx := { c with
    server := { c.server with session := s }
    suppressPositive := x &&& 0x80 ≠ 0 }
  have hstored : sessionControl c = (none, d.puts [0x50, s.byte, 0x00, 0x32, 0x01, 0xF4]) := by
    have hsession : Session.ofByte? (x &&& subfunctionMask) = some s := by
      rw [hx, ofByte?_byte_session]
    simp only [d, sessionControl, Ctx.suppresses, Ctx.byte, hreq, List.length_cons, List.length_nil,
      List.getD_cons_succ, List.getD_cons_zero, hsession]
    rfl
  have hall := h.sent_puts_unless (d := d) hempty rfl rfl rfl rfl hroom
  rw [hstored]
  dsimp only
  exact ⟨rfl, hall⟩

theorem ecuReset_positive {type : ResetType} (hreq : c.req = [0x11, x])
    (hx : x &&& 0x7F = type.byte) (hsession : c.server.session = .extended)
    (hroom : (unlessSuppressed x [0x51, type.byte]).length ≤ c.respMax) :
    (ecuReset c).1 = none ∧ (ecuReset c).2.sent = unlessSuppressed x [0x51, type.byte] := by
  let d : Ctx := { c with
    server := { c.server with pendingReset := some type }
    suppressPositive := x &&& 0x80 ≠ 0 }
  have hstored : ecuReset c = (none, d.puts [0x51, type.byte]) := by
    have htype : ResetType.ofByte? (x &&& subfunctionMask) = some type := by
      rw [hx, ofByte?_byte_resetType]
    simp only [d, ecuReset, Ctx.suppresses, Ctx.byte, hreq, List.length_cons, List.length_nil,
      List.getD_cons_succ, List.getD_cons_zero, htype, hsession]
    rfl
  have hall := h.sent_puts_unless (d := d) hempty rfl rfl rfl rfl hroom
  rw [hstored]
  dsimp only
  exact ⟨rfl, hall⟩

theorem testerPresent_positive (hreq : c.req = [0x3E, x]) (hx : x &&& 0x7F = 0x00)
    (hroom : (unlessSuppressed x [0x7E, 0x00]).length ≤ c.respMax) :
    (testerPresent c).1 = none ∧ (testerPresent c).2.sent = unlessSuppressed x [0x7E, 0x00] := by
  let d : Ctx := { c with suppressPositive := x &&& 0x80 ≠ 0 }
  have hstored : testerPresent c = (none, d.puts [0x7E, 0x00]) := by
    simp only [d, testerPresent, Ctx.suppresses, Ctx.byte, hreq, List.length_cons, List.length_nil,
      List.getD_cons_succ, List.getD_cons_zero, subfunctionMask, hx]
    rfl
  have hall := h.sent_puts_unless (d := d) hempty rfl rfl rfl rfl hroom
  rw [hstored]
  dsimp only
  exact ⟨rfl, hall⟩

variable (hsent : c.suppressPositive = false)
include hsent

theorem clearDtc_positive (hreq : c.req = [0x14, 0xFF, 0xFF, 0xFF]) (hroom : 1 ≤ c.respMax) :
    (clearDtc c).1 = none ∧ (clearDtc c).2.sent = [0x54] := by
  have hstored : clearDtc c = (none, { c with dtc := c.dtc.clearAll }.puts [0x54]) := by
    simp only [clearDtc, Ctx.byte, hreq, List.length_cons, List.length_nil,
      List.getD_cons_succ, List.getD_cons_zero]
    rfl
  have hfits : Ctx.Fits { c with dtc := c.dtc.clearAll } := ⟨h.sized, h.used, h.narrow⟩
  rw [hstored]
  dsimp only
  exact ⟨rfl, hfits.sent_puts hempty hsent hroom⟩

theorem countDtc_positive {mask : UInt8} (hreq : c.req = [0x19, x, mask]) (hx : x &&& 0x7F = 0x01)
    (hroom : 6 ≤ c.respMax) :
    (readDtc c).1 = none ∧ (readDtc c).2.sent =
      [0x59, 0x01, 0x7F, 0x01] ++ Words.bytes (UInt16.ofNat (matching c.dtc mask).length) := by
  have hstored : readDtc c = (none, c.puts
      ([0x59, 0x01, 0x7F, 0x01] ++ Words.bytes (UInt16.ofNat (matching c.dtc mask).length))) := by
    have hbytes : [sidReadDtc + positiveOffset, 0x01, Dtc.statusAvailabilityMask] =
        [0x59, 0x01, 0x7F] := rfl
    have hsplit : ∀ bs : Bytes, [0x59, 0x01, 0x7F, 0x01] ++ bs = [0x59, 0x01, 0x7F] ++ 0x01 :: bs :=
      fun _ => rfl
    rw [hsplit, Ctx.puts_append]
    simp only [readDtc, Ctx.byte, hreq, List.length_cons, List.length_nil,
      List.getD_cons_succ, List.getD_cons_zero, subfunctionMask, hx, Words.bytes_ofNat,
      length_matching, hbytes]
    rfl
  rw [hstored]
  dsimp only
  exact ⟨rfl, h.sent_puts hempty hsent hroom⟩

theorem listDtc_positive {mask : UInt8} (hreq : c.req = [0x19, x, mask]) (hx : x &&& 0x7F = 0x02)
    (htable : c.dtc.table.length ≤ Dtc.maxEntries)
    (hroom : ([0x59, 0x02, 0x7F] ++ dtcRecords c.dtc mask).length ≤ c.respMax) :
    (readDtc c).1 = none ∧ (readDtc c).2.sent = [0x59, 0x02, 0x7F] ++ dtcRecords c.dtc mask := by
  rw [List.length_append, length_dtcRecords, List.length_cons, List.length_cons, List.length_cons,
    List.length_nil] at hroom
  have hheader : c.respLen + ([0x59, 0x02, 0x7F] : Bytes).length ≤ c.respMax := by
    rw [hempty]
    exact Nat.le_of_add_right_le hroom
  obtain ⟨hlen, hcontent⟩ := h.puts_eq hheader
  have hfits := h.puts [0x59, 0x02, 0x7F]
  have hfew := Nat.le_trans (length_matching_le c.dtc mask) htable
  rw [Dtc.maxEntries] at hfew
  have hstored : readDtc c = (none, (c.puts [0x59, 0x02, 0x7F]).write (dtcRecords c.dtc mask)) := by
    have hmany : ∀ room, (matching c.dtc mask).length ≤ room →
        (matching c.dtc mask).length ≤ if room > 0xFF then 0xFF else room := by
      intro room hroom
      split <;> omega
    have hrecords := hmany ((c.respMax - 3) / 4) (by omega)
    have hheaderLen : (c.puts [0x59, 0x02, 0x7F]).respLen = 3 := by
      rw [hlen, hempty]
      rfl
    have hbytes : [sidReadDtc + positiveOffset, 0x02, Dtc.statusAvailabilityMask] =
        [0x59, 0x02, 0x7F] := rfl
    simp only [readDtc, Ctx.byte, hreq, List.length_cons, List.length_nil, List.getD_cons_succ,
      List.getD_cons_zero, subfunctionMask, hx, length_matching, hbytes, hheaderLen,
      Ctx.respMax_puts, Ctx.dtc_puts, dtcRecordLen, getByStatusMask_eq _ _ hrecords,
      if_neg (Nat.not_lt.mpr hrecords)]
    rfl
  rw [hstored]
  refine ⟨rfl, ?_⟩
  show Ctx.sent ((c.puts [0x59, 0x02, 0x7F]).write (dtcRecords c.dtc mask)) = _
  have hrest : (c.puts [0x59, 0x02, 0x7F]).respLen + (dtcRecords c.dtc mask).length ≤
      (c.puts [0x59, 0x02, 0x7F]).respMax := by
    rw [hlen, hempty, length_dtcRecords, Ctx.respMax_puts]
    exact hroom
  rw [Ctx.sent, Ctx.suppressPositive_write, Ctx.suppressPositive_puts, hsent,
    hfits.content_write hrest, hcontent, Ctx.content, hempty]
  rfl

theorem readDid_positive {ids : List UInt16} (hreq : c.req = 0x22 :: ids.flatMap Words.bytes)
    (hknown : ids.any (knownDid dids)) (hroom : (0x62 :: didRecords dids ids).length ≤ c.respMax) :
    (readDid dids c).1 = none ∧ (readDid dids c).2.sent = 0x62 :: didRecords dids ids := by
  have hsome : ids ≠ [] := by
    rintro rfl
    simp at hknown
  rw [List.length_cons] at hroom
  have hheader : c.respLen + ([0x62] : Bytes).length ≤ c.respMax := by
    rw [hempty]
    exact Nat.le_of_add_left_le hroom
  obtain ⟨hlen, hcontent⟩ := h.puts_eq hheader
  have hrecords : (c.puts [0x62]).respLen + (didRecords dids ids).length ≤ (c.puts [0x62]).respMax := by
    rw [hlen, hempty, Ctx.respMax_puts, List.length_singleton]
    omega
  obtain ⟨hnrc, hall⟩ := readDidLoop_fits (h.puts [0x62]) false hrecords
  rw [readDid_request hreq hsome]
  refine ⟨?_, ?_⟩
  · rw [hnrc, hknown]
    rfl
  · rw [Ctx.sent, suppressPositive_readDidLoop, Ctx.suppressPositive_puts, hsent, hall, hcontent,
      Ctx.content, hempty]
    rfl

end Accepted

/-- An accepted request is served, and the response is the one it is to have. -/
theorem service_of_positive {dids : List Did} {c : Ctx} (h : c.Fits) (hempty : c.respLen = 0)
    (hsent : c.suppressPositive = false) (htable : c.dtc.table.length ≤ Dtc.maxEntries)
    {response : Bytes} (hpositive : Positive dids c.dtc c.server.session c.req response)
    (hroom : response.length ≤ c.respMax) :
    (service dids c).1 = none ∧ (service dids c).2.sent = response := by
  generalize hreq : c.req = req at hpositive
  cases hpositive with
  | sessionControl x s hx =>
      have hservice : service dids c = sessionControl c := by
        rw [service, Ctx.byte, hreq]
        rfl
      rw [hservice]
      exact sessionControl_positive h hempty hreq hx hroom
  | ecuReset x type hx hsession =>
      have hservice : service dids c = ecuReset c := by
        rw [service, Ctx.byte, hreq]
        rfl
      rw [hservice]
      exact ecuReset_positive h hempty hreq hx hsession hroom
  | clearDtc =>
      have hservice : service dids c = clearDtc c := by
        rw [service, Ctx.byte, hreq]
        rfl
      rw [hservice]
      exact clearDtc_positive h hempty hsent hreq hroom
  | countDtc x mask hx =>
      have hservice : service dids c = readDtc c := by
        rw [service, Ctx.byte, hreq]
        rfl
      rw [hservice]
      exact countDtc_positive h hempty hsent hreq hx hroom
  | listDtc x mask hx =>
      have hservice : service dids c = readDtc c := by
        rw [service, Ctx.byte, hreq]
        rfl
      rw [hservice]
      exact listDtc_positive h hempty hsent hreq hx htable hroom
  | readDid ids hknown =>
      rw [service_readDid hreq]
      exact readDid_positive h hempty hsent hreq hknown hroom
  | testerPresent x hx =>
      have hservice : service dids c = testerPresent c := by
        rw [service, Ctx.byte, hreq]
        rfl
      rw [hservice]
      exact testerPresent_positive h hempty hreq hx hroom

/-! ### The whole request -/

section Request

variable {dids : List Did} {time : Nat} {req : Bytes} {functional : Bool} {resp : Bytes}
  {server : Server} {dtc : Dtc.Manager}

theorem response_of_served (hpos : req.length ≠ 0)
    (hserved : (service dids (startOf time req server dtc resp resp.length)).1 = none) :
    (processRequest dids time req functional resp resp.length server dtc).response =
      (service dids (startOf time req server dtc resp resp.length)).2.sent := by
  rw [processRequest_eq dids time req functional server dtc hpos, hserved]
  generalize (service dids (startOf time req server dtc resp resp.length)).2 = c
  show c.resp.take (if c.suppressPositive then 0 else c.respLen) = c.sent
  rw [Ctx.sent]
  split <;> rfl

theorem response_of_refused (hpos : req.length ≠ 0) (hmin : 3 ≤ resp.length)
    (hnarrow : resp.length < 2 ^ 16) {nrc : Nrc}
    (hrefused : (service dids (startOf time req server dtc resp resp.length)).1 = some nrc) :
    (processRequest dids time req functional resp resp.length server dtc).response =
      refusalResponse functional req (some nrc) := by
  have hserves := serves_service dids (fits_startOf time req server dtc rfl hnarrow)
  have hreq := req_service dids (startOf time req server dtc resp resp.length)
  rw [processRequest_eq dids time req functional server dtc hpos, hrefused, refusalResponse]
  simp only []
  generalize (service dids (startOf time req server dtc resp resp.length)).2 = c at *
  have hmax : c.respMax = resp.length := hserves.respMax
  have hreq : c.req = req := hreq
  split
  · rfl
  · have hnegative : negative c nrc = (3, copy c.resp 0 (negativeResponse req nrc)) := by
      rw [negative, if_neg (by omega), Ctx.byte, hreq]
      rfl
    rw [hnegative]
    exact take_copy_zero c.resp (negativeResponse req nrc)

end Request

/-- A request is answered by the grammar: what it accepts is served with the response it gives, and
everything else gets the response to a refusal. -/
structure Answered (dids : List Did) (time : Nat) (req : Bytes) (functional : Bool) (resp : Bytes)
    (server : Server) (dtc : Dtc.Manager) (refused : Bytes) : Prop where
  served : (service dids (startOf time req server dtc resp resp.length)).1 = none ↔
    ∃ response, Positive dids dtc server.session req response
  positive : ∀ response, Positive dids dtc server.session req response →
    (processRequest dids time req functional resp resp.length server dtc).response = response
  negative : (¬ ∃ response, Positive dids dtc server.session req response) →
    (processRequest dids time req functional resp resp.length server dtc).response = refused

/-- **The request grammar.** In every state, with a buffer that is large enough for the response, a
request is accepted exactly if it is in the grammar, and refused with the code of the first check that
fails. -/
theorem grammar_exact (dids : List Did) (time : Nat) (req : Bytes) (functional : Bool) (resp : Bytes)
    (server : Server) (dtc : Dtc.Manager) (hreq : req ≠ [])
    (htable : dtc.table.length ≤ Dtc.maxEntries) (hnarrow : resp.length < 2 ^ 16)
    (hmin : 3 ≤ resp.length)
    (hroom : ∀ response, Positive dids dtc server.session req response →
      response.length ≤ resp.length) :
    Answered dids time req functional resp server dtc
      (refusalResponse functional req (refusal dids server.session req)) := by
  have hpos : req.length ≠ 0 := fun hzero => hreq (List.length_eq_zero_iff.mp hzero)
  have hfits := fits_startOf time req server dtc rfl hnarrow
  have haccept : ∀ response, Positive dids dtc server.session req response →
      (service dids (startOf time req server dtc resp resp.length)).1 = none ∧
        (service dids (startOf time req server dtc resp resp.length)).2.sent = response :=
    fun response hpositive => service_of_positive hfits rfl rfl htable hpositive
      (hroom response hpositive)
  have hrefuse : (¬ ∃ response, Positive dids dtc server.session req response) →
      ∃ nrc, refusal dids server.session req = some nrc ∧
        (service dids (startOf time req server dtc resp resp.length)).1 = some nrc := by
    intro hnone
    cases hrefusal : refusal dids server.session req with
    | none => exact absurd (positive_of_refusal_eq_none hrefusal) hnone
    | some nrc => exact ⟨nrc, rfl, service_of_refusal hrefusal⟩
  refine ⟨⟨fun hserved => ?_, fun ⟨response, hpositive⟩ => (haccept response hpositive).1⟩,
    fun response hpositive => ?_, fun hnone => ?_⟩
  · by_contra hnone
    obtain ⟨nrc, -, hrefused⟩ := hrefuse hnone
    rw [hserved] at hrefused
    cases hrefused
  · obtain ⟨hserved, hsent⟩ := haccept response hpositive
    rw [response_of_served hpos hserved, hsent]
  · obtain ⟨nrc, hrefusal, hrefused⟩ := hrefuse hnone
    rw [response_of_refused hpos hmin hnarrow hrefused, hrefusal]

/-- A ReadDTCInformation request without its mask is refused for its sub-function, not for its length,
and a functional request for an unknown service gets no response at all. -/
theorem not_answered_byLength :
    ¬ Answered [] 0 [0x19, 0x05] false (List.replicate 256 0) (init 0) (Dtc.Manager.resetAll [])
        (((refusalByLength [] .default [0x19, 0x05]).map (negativeResponse [0x19, 0x05])).getD []) ∧
      ¬ Answered [] 0 [0x85, 0x01] true (List.replicate 256 0) (init 0) (Dtc.Manager.resetAll [])
        (((refusalByLength [] .default [0x85, 0x01]).map (negativeResponse [0x85, 0x01])).getD []) := by
  constructor
  · intro hanswered
    have hnegative := hanswered.negative (by
      intro ⟨response, hpositive⟩
      generalize hreq : ([0x19, 0x05] : Bytes) = req at hpositive
      cases hpositive <;> simp at hreq)
    revert hnegative
    decide +kernel
  · intro hanswered
    have hnegative := hanswered.negative (by
      intro ⟨response, hpositive⟩
      generalize hreq : ([0x85, 0x01] : Bytes) = req at hpositive
      cases hpositive <;> simp at hreq)
    revert hnegative
    decide +kernel

end MiniEcu.Uds
