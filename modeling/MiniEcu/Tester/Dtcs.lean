import MiniEcu.Tester.Services
import MiniEcu.Uds.BufferSize

/-!
# Reading the trouble codes

The server counts the trouble codes that match a mask in one loop and copies them in another. The
client decodes the two responses on its own. Both agree with the memory, and so with each other.
-/

namespace MiniEcu.Tester

open Uds (Did Server processRequest)

/-- What a read of the trouble codes has to give. -/
def dtcsOf (dtc : Dtc.Manager) (mask : UInt8) : List Dtc :=
  ((dtc.table.zip dtc.entries).filter fun p => p.2.status &&& mask &&& 0x7F ≠ 0).map fun p =>
    { code := p.1.code, status := p.2.status &&& 0x7F }

/-! ### The records -/

theorem dtcsOf_eq (dtc : Dtc.Manager) (mask : UInt8) :
    dtcsOf dtc mask = (Uds.matching dtc mask).map fun p =>
      { code := p.1.code, status := p.2.status &&& 0x7F } := rfl

theorem dtcRecordLoop_records {ps : List (Dtc.Config × Dtc.Entry)}
    (hcodes : ∀ p ∈ ps, p.1.code.toNat < 2 ^ 24) :
    dtcRecordLoop (ps.flatMap fun p => Dtc.Manager.record p.1 p.2) =
      ps.map fun p => { code := p.1.code, status := p.2.status &&& 0x7F } := by
  induction ps with
  | nil => rfl
  | cons p ps ih =>
      have hcode := Words.be24_of_lt (hcodes p List.mem_cons_self)
      rw [List.flatMap_cons, List.map_cons, ← ih fun q hq => hcodes q (List.mem_cons_of_mem _ hq)]
      show ({ code := Words.be24 _ _ _, status := _ } : Dtc) :: _ = _
      rw [hcode]
      rfl

theorem parseDtcRecords_dtcRecords {dtc : Dtc.Manager}
    (hcodes : ∀ c ∈ dtc.table, c.code.toNat < 2 ^ 24) (mask : UInt8) :
    parseDtcRecords (Uds.dtcRecords dtc mask) = some (dtcsOf dtc mask) := by
  have hmatching : ∀ p ∈ Uds.matching dtc mask, p.1.code.toNat < 2 ^ 24 := fun p hp =>
    hcodes p.1 (List.of_mem_zip (List.mem_filter.mp hp).1).1
  rw [parseDtcRecords, Uds.length_dtcRecords, if_neg (by omega), Uds.dtcRecords,
    dtcRecordLoop_records hmatching, dtcsOf_eq]

theorem decodeDtcs_of_records {records : Bytes} {dtcs : List Dtc}
    (hrecords : parseDtcRecords records = some dtcs) :
    decodeDtcs (0x59 :: 0x02 :: 0x7F :: records) = .ok dtcs := by
  rw [decodeDtcs, if_neg (by simp), List.drop_succ_cons, List.drop_succ_cons, List.drop_succ_cons,
    List.drop_zero, hrecords]

/-! ### Reading -/

section Read

variable {τ : Type} {t : Transport τ} {timing : ClientTiming} (htiming : 0 ≤ timing.maxPending)
  {dids : List Did} {time : Nat} {resp : Bytes} {server : Server} {dtc : Dtc.Manager} {s : τ}
  (hcarries : t.Carries s fun req =>
    (processRequest dids time req false resp resp.length server dtc).response)
  (htable : dtc.table.length ≤ Dtc.maxEntries) (hmin : 6 ≤ resp.length)
  (hnarrow : resp.length < 2 ^ 16)
include htiming hcarries htable hmin hnarrow

theorem request_readDtc {x mask : UInt8} {bs : Bytes}
    (hpositive : Uds.Positive dids dtc server.session [0x19, x, mask] (0x59 :: bs))
    (hroom : (0x59 :: bs : Bytes).length ≤ resp.length) :
    (request t timing [0x19, x, mask] false s).1 = .ok (0x59 :: bs) := by
  have hresponse : (processRequest dids time [0x19, x, mask] false resp resp.length server
      dtc).response = 0x59 :: bs := by
    rw [Uds.response_of_positive hmin hnarrow htable hpositive, Uds.cut, if_pos hroom]
  exact request_positive hcarries htiming (List.cons_ne_nil _ _) (by simp) hresponse
    (show (0x19 : UInt8) + Uds.positiveOffset ≠ Uds.sidNegativeResponse by decide)

theorem readDtcs_eq (hcodes : ∀ c ∈ dtc.table, c.code.toNat < 2 ^ 24) {mask : UInt8}
    (hroom : 3 + 4 * (dtcsOf dtc mask).length ≤ resp.length) :
    (readDtcs t timing mask s).1 = .ok (dtcsOf dtc mask) := by
  have hfits : ([0x59, 0x02, 0x7F] ++ Uds.dtcRecords dtc mask).length ≤ resp.length := by
    rw [List.length_append, Uds.length_dtcRecords]
    rw [dtcsOf_eq, List.length_map] at hroom
    exact hroom
  rw [readDtcs, exchange_ok (request_readDtc htiming hcarries htable hmin hnarrow
    (.listDtc 0x02 mask (by decide)) hfits)]
  exact decodeDtcs_of_records (parseDtcRecords_dtcRecords hcodes mask)

theorem readDtcCount_eq (mask : UInt8) :
    (readDtcCount t timing mask s).1 = .ok (UInt16.ofNat (dtcsOf dtc mask).length) := by
  rw [readDtcCount, exchange_ok (request_readDtc htiming hcarries htable hmin hnarrow
    (.countDtc 0x01 mask (by decide)) hmin), dtcsOf_eq, List.length_map, decodeDtcCount]
  exact congrArg Except.ok (Words.be16_bytes _)

end Read

/-- **The trouble codes.** Whatever the memory of trouble codes and the mask, the client reads the
codes that match, in the order of the table, each with its supported status bits. If nothing changes
the memory in between, the count it reads is the length of that list. -/
theorem dtcs_agree {τ : Type} (t : Transport τ) (timing : ClientTiming)
    (htiming : 0 ≤ timing.maxPending) (dids dids' : List Did) (dtc : Dtc.Manager)
    (htable : dtc.table.length ≤ Dtc.maxEntries)
    (hcodes : ∀ c ∈ dtc.table, c.code.toNat < 2 ^ 24) (mask : UInt8) (resp : Bytes)
    (hmin : 6 ≤ resp.length) (hroom : 3 + 4 * (dtcsOf dtc mask).length ≤ resp.length)
    (hnarrow : resp.length < 2 ^ 16) (time time' : Nat) (server server' : Server) (s : τ)
    (hlist : t.Carries s fun req =>
      (processRequest dids time req false resp resp.length server dtc).response)
    (hcount : t.Carries (readDtcs t timing mask s).2 fun req =>
      (processRequest dids' time' req false resp resp.length server' dtc).response) :
    (readDtcs t timing mask s).1 = .ok (dtcsOf dtc mask) ∧
      ∃ count, (readDtcCount t timing mask (readDtcs t timing mask s).2).1 = .ok count ∧
        count.toNat = (dtcsOf dtc mask).length := by
  refine ⟨readDtcs_eq htiming hlist htable hmin hnarrow hcodes hroom, _,
    readDtcCount_eq htiming hcount htable hmin hnarrow mask, ?_⟩
  have hfew := Nat.le_trans (Uds.length_matching_le dtc mask) htable
  rw [Dtc.maxEntries] at hfew
  rw [UInt16.toNat_ofNat', dtcsOf_eq, List.length_map]
  omega

/-- The simulated ECU has lost its sensor, and nothing else has failed. -/
theorem dtcs_agree_lostSensor :
    let e : SimulatedEcu := {
      server := Uds.init 0
      dtc := (Dtc.Manager.resetAll Diag.dtcTable).reportResult 0 true
      signals := { speedX10 := 0, faultMask := 1 }
      nowMs := 20 }
    (readDtcs simulatedEcu {} 0x09 e).1 = .ok [{ code := 0xC10087, status := 0x2F }] ∧
      ∃ count, (readDtcCount simulatedEcu {} 0x09 (readDtcs simulatedEcu {} 0x09 e).2).1 = .ok count ∧
        count.toNat = 1 := by
  intro e
  obtain ⟨resp, hresp⟩ : ∃ resp : Bytes, resp = List.replicate kMaxResponseLen 0 := ⟨_, rfl⟩
  have hsize : resp.length = kMaxResponseLen := by rw [hresp, List.length_replicate]
  have hdtcs : dtcsOf e.dtc 0x09 = [{ code := 0xC10087, status := 0x2F }] := by decide +kernel
  -- the read leaves no response behind, and the memory as it was
  have hread : (readDtcs simulatedEcu {} 0x09 e).2.responses = [] ∧
      (readDtcs simulatedEcu {} 0x09 e).2.dtc = e.dtc := by decide +kernel
  have hlist := carries_simulatedEcu (e := e) rfl
  have hcount := carries_simulatedEcu hread.1
  simp only [SimulatedEcu.outcome, hread.2] at hlist hcount
  rw [← hresp, ← hsize] at hlist hcount
  have hagree := dtcs_agree simulatedEcu {} (by decide) _ _ e.dtc (by decide) (by decide) 0x09 _
    (by rw [hsize]; decide) (by rw [hsize, hdtcs]; decide) (by rw [hsize]; decide) _ _ _ _ e hlist hcount
  rw [hdtcs] at hagree
  exact hagree

end MiniEcu.Tester
