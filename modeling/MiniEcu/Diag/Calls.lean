import MiniEcu.Diag.App
import MiniEcu.IsoTp.Callbacks
import MiniEcu.Uds.BufferSize
import MiniEcu.Uds.Effects

/-!
# What a call does to the server and the trouble codes

A call of the diagnostics changes the state behind the link by answering requests and by running
pending resets, and says so in its records. The trouble codes after any number of calls are therefore
those of a history that can be read off the records and the reports.
-/

namespace MiniEcu.Diag

open IsoTp (App World nested records)
open Trace

/-- A request is answered, or a response is out. -/
inductive Reacts (signals : Signals) (a : Ecu) : List Record → Ecu → Prop
  | request (clock : Nat → Nat) (req : Bytes) (functional : Bool) :
      Reacts signals a (respondTo signals clock req functional a).log
        (respondTo signals clock req functional a).app
  | sent : Reacts signals a (onEcuResponseSent .ok a).log (onEcuResponseSent .ok a).app

theorem obeys_diagApp (signals : Signals) : (diagApp signals).Obeys (Reacts signals) where
  indicated clock data a := by
    show Reacts signals a (onEcuRequest signals clock data .ok a).log _
    rw [onEcuRequest, if_pos rfl]
    exact .request clock data false
  confirmed _ _ := .sent

variable {signals : Signals}

/-- A frame makes requests and confirmations, and nothing else. -/
theorem reacts_onFrame (frame : CanFrame) (s : State) (env : IsoTp.Env) :
    Steps (Reacts signals) s.ecu
      (records (onFrame signals frame { link := s.link, app := s.ecu, env := env }).events)
      (onFrame signals frame { link := s.link, app := s.ecu, env := env }).app := by
  rw [onFrame]
  split
  · obtain ⟨o, -, hmirrors⟩ := IsoTp.mirrors_rxFrame (diagApp signals)
      (nested (diagApp signals) 0) (fun _ v => v) s.ecu [] (attentive_diagApp signals)
      frame.data frame.dlc { link := s.link, app := (), env := env }
    exact hmirrors.reaches (obeys_diagApp signals) (attentive_diagApp signals)
  split
  · split
    · rename_i req _
      obtain ⟨es, hes, hsteps⟩ := World.reaches_react (obeys_diagApp signals)
        (attentive_diagApp signals) (w := { link := s.link, app := s.ecu, env := env })
        (.request (fun k => env.clock (0 + k)) req true)
      rw [show (IsoTp.react _ _ _ : World Ecu Record).events = es from hes]
      exact hsteps
    · exact .refl s.ecu
  · exact .refl s.ecu

/-- So does the timer, before `Uds_MainFunction`. -/
theorem reacts_mainFunction (s : State) (env : IsoTp.Env) :
    ∃ a, Steps (Reacts signals) s.ecu
        (records (mainFunction signals { link := s.link, app := s.ecu, env := env }).events) a ∧
      ((mainFunction signals { link := s.link, app := s.ecu, env := env }).app = a ∨
        ∃ time, (mainFunction signals { link := s.link, app := s.ecu, env := env }).app =
          { a with server := Uds.mainFunction time a.server }) := by
  obtain ⟨o, -, hmirrors⟩ := IsoTp.mirrors_mainFunction (diagApp signals)
    (nested (diagApp signals) 0) (fun _ v => v) s.ecu [] (attentive_diagApp signals) s.link env
  have hsteps := hmirrors.reaches (obeys_diagApp signals) (attentive_diagApp signals)
  rw [mainFunction]
  generalize hw : IsoTp.mainFunction (diagApp signals) (nested (diagApp signals) 0)
    { link := s.link, app := s.ecu, env := env } = w
  have hw : IsoTp.mainFunction (diagApp signals) (nested (diagApp signals) 0)
    (World.withApp { link := s.link, app := (), env := env } s.ecu []) = w := hw
  rw [hw] at hsteps
  refine ⟨w.app, ?_⟩
  split
  · exact ⟨hsteps, .inl rfl⟩
  rw [udsMainFunction]
  split
  · exact ⟨hsteps, .inl rfl⟩
  · refine ⟨?_, .inr ⟨_, rfl⟩⟩
    rw [World.events_tick, IsoTp.records_append]
    show Steps _ _ (records w.events ++ []) _
    rwa [List.append_nil]

/-! ### The trouble codes -/

/-- What a record says about the trouble codes. -/
def Record.dtcOps : Record → List Dtc.Manager.Op
  | .request r _ => if r.bytes = [0x14, 0xFF, 0xFF, 0xFF] then [.clearAll] else []
  | .ecuReset .soft => [.startOperationCycle]
  | .ecuReset .hard => []

def Input.dtcOps : Input → List Dtc.Manager.Op
  | .reportFault index failed => [.reportResult index.toNat failed]
  | _ => []

theorem dtc_reacts {a a' : Ecu} {log : List Record} (h : Reacts signals a log a') :
    a'.dtc = a.dtc.replay (log.flatMap Record.dtcOps) := by
  cases h with
  | request clock req functional =>
      show (Uds.processRequest _ _ _ _ _ _ _ _).dtc = a.dtc.replay (_ ++ [])
      rw [Uds.dtc_processRequest_after, Uds.dtcAfter, List.append_nil, Record.dtcOps]
      split <;> rfl
  | sent =>
      obtain ⟨⟨session, lastRequestMs, pending⟩, dtc, respBuf, restart⟩ := a
      cases pending with
      | none => rfl
      | some type => cases type <;> rfl

theorem dtc_steps {a a' : Ecu} {log : List Record} (h : Steps (Reacts signals) a log a') :
    a'.dtc = a.dtc.replay (log.flatMap Record.dtcOps) := by
  refine h.invariant (fun (b : Ecu) tr => b.dtc = a.dtc.replay (tr.flatMap Record.dtcOps)) ?_ [] rfl
  intro b tr es b' hb hstep
  rw [dtc_reacts hstep, hb, List.flatMap_append, Dtc.Manager.replay, Dtc.Manager.replay,
    Dtc.Manager.replay, List.foldl_append]

/-! ### The answers -/

/-- The answers that the grammar allows. A positive one that is too long for the buffer is refused. -/
inductive Answer (signals : Signals) (dtc : Dtc.Manager) (r : Request) : Bytes → Prop
  | refused {nrc : Uds.Nrc} (h : Uds.refusal (dids signals) r.session r.bytes = some nrc) :
      Answer signals dtc r (Uds.refusalResponse r.functional r.bytes (some nrc))
  | accepted {positive : Bytes}
      (h : Uds.Positive (dids signals) dtc r.session r.bytes positive) :
      Answer signals dtc r (Uds.cut r.bytes positive diagBufferSize)

theorem length_negativeResponse (req : Bytes) (nrc : Uds.Nrc) :
    (Uds.negativeResponse req nrc).length = 3 := rfl

theorem length_didRecords_le (ids : List UInt16) :
    (Uds.didRecords (dids signals) ids).length ≤ 12 * ids.length := by
  have hlength : ∀ did ∈ dids signals, did.length.toNat ≤ 10 := by
    intro did hdid
    rw [dids, List.mem_cons, List.mem_cons, List.mem_singleton] at hdid
    obtain rfl | rfl | rfl := hdid <;> simp
  induction ids with
  | nil => exact Nat.zero_le _
  | cons id ids ih =>
      have hrecord : (Uds.didRecord (dids signals) id).length ≤ 12 := by
        cases hfind : Uds.findDid (dids signals) id with
        | none =>
            rw [Uds.didRecord_unknown hfind]
            exact Nat.zero_le _
        | some did =>
            have hknown := hlength did (List.mem_of_find?_eq_some hfind)
            rw [Uds.length_didRecord hfind]
            omega
      rw [Uds.didRecords_cons, List.length_append, List.length_cons]
      omega

/-- A short request has a short response. -/
theorem length_positive_le {dtc : Dtc.Manager} {session : Uds.Session} {req positive : Bytes}
    (hpositive : Uds.Positive (dids signals) dtc session req positive)
    (htable : dtc.table = dtcTable) : positive.length ≤ 23 + 6 * req.length := by
  have hsuppressed : ∀ (x : UInt8) (bs : Bytes), (Uds.unlessSuppressed x bs).length ≤ bs.length := by
    intro x bs
    rw [Uds.unlessSuppressed]
    split <;> simp
  have hmatching : ∀ mask, (Uds.matching dtc mask).length ≤ 5 := fun mask =>
    Nat.le_trans (Uds.length_matching_le dtc mask) (by rw [htable]; decide)
  cases hpositive with
  | sessionControl x s => exact Nat.le_trans (hsuppressed x _) (by simp)
  | ecuReset x type => exact Nat.le_trans (hsuppressed x _) (by simp)
  | testerPresent x => exact Nat.le_trans (hsuppressed x _) (by simp)
  | clearDtc => simp
  | countDtc x mask => simp
  | listDtc x mask =>
      have hcount := hmatching mask
      rw [List.length_append, Uds.length_dtcRecords]
      simp only [List.length_cons, List.length_nil]
      omega
  | readDid ids =>
      have hrecords := @length_didRecords_le signals ids
      have hids : (ids.flatMap Words.bytes).length = 2 * ids.length := by
        rw [List.length_flatMap]
        simp [Nat.mul_comm]
      rw [List.length_cons, List.length_cons, hids]
      omega

theorem Answer.length_le {dtc : Dtc.Manager} {r : Request} {response : Bytes}
    (h : Answer signals dtc r response) (htable : dtc.table = dtcTable) :
    response.length ≤ 23 + 6 * r.bytes.length := by
  cases h with
  | @refused nrc _ =>
      rw [Uds.refusalResponse]
      split
      · exact Nat.zero_le _
      · rw [length_negativeResponse]
        omega
  | @accepted positive hpositive =>
      obtain hcut | hcut := Uds.cut_cases r.bytes positive diagBufferSize
      · rw [hcut]
        exact length_positive_le hpositive htable
      · rw [hcut, length_negativeResponse]
        omega

/-- The grammar with the tables of the Control ECU, in the extended session and with two faults
reported: a request for the version, an unknown identifier and the speed, and one for the codes. -/
theorem grammar_exact_versionAndCodes :
    let signals : Signals := { speedX10 := 1000, faultMask := 0x05 }
    let server : Uds.Server := { Uds.init 0 with session := .extended }
    let dtc := (Dtc.Manager.resetAll dtcTable).replay [.reportResult 0 true, .reportResult 2 true]
    let resp : Bytes := List.replicate diagBufferSize 0
    let reads : Bytes := [0x22, 0xF1, 0x95, 0x12, 0x34, 0x01, 0x00]
    let lists : Bytes := [0x19, 0x02, 0x09]
    Uds.Answered (dids signals) 100 reads false resp server dtc
        (Uds.refusalResponse false reads (Uds.refusal (dids signals) .extended reads)) ∧
      Uds.Answered (dids signals) 100 lists true resp server dtc
        (Uds.refusalResponse true lists (Uds.refusal (dids signals) .extended lists)) := by
  intro signals server dtc resp reads lists
  have hsize : resp.length = 256 := List.length_replicate
  refine ⟨Uds.grammar_exact (dids signals) 100 reads false resp server dtc (by simp [reads])
    (by decide) (by rw [hsize]; decide) (by rw [hsize]; decide) fun response hpositive => ?_,
    Uds.grammar_exact (dids signals) 100 lists true resp server dtc (by simp [lists])
    (by decide) (by rw [hsize]; decide) (by rw [hsize]; decide) fun response hpositive => ?_⟩
  · rw [hsize]
    exact Nat.le_trans (length_positive_le hpositive rfl) (by decide)
  · rw [hsize]
    exact Nat.le_trans (length_positive_le hpositive rfl) (by decide)

/-- A record tells what becomes of the trouble codes. -/
def Record.follow (dtc : Dtc.Manager) (r : Record) : Dtc.Manager := dtc.replay r.dtcOps

/-- A request gets one of these answers. -/
def Record.Answered (signals : Signals) (dtc : Dtc.Manager) : Record → Prop
  | .request r response => r.bytes ≠ [] → Answer signals dtc r response
  | .ecuReset _ => True

theorem foldl_follow (log : List Record) (dtc : Dtc.Manager) :
    log.foldl Record.follow dtc = dtc.replay (log.flatMap Record.dtcOps) := by
  induction log generalizing dtc with
  | nil => rfl
  | cons r log ih =>
      rw [List.foldl_cons, ih, Record.follow, List.flatMap_cons, Dtc.Manager.replay,
        Dtc.Manager.replay, Dtc.Manager.replay, List.foldl_append]

theorem answer_respondTo {a : Ecu} (hsized : a.respBuf.length = diagBufferSize)
    (htable : a.dtc.table.length ≤ Dtc.maxEntries) (signals : Signals) (time : Nat) (r : Request)
    (hsession : r.session = a.server.session) (hreq : r.bytes ≠ []) :
    Answer signals a.dtc r (Uds.processRequest (dids signals) time r.bytes r.functional a.respBuf
      diagBufferSize a.server a.dtc).response := by
  have hpos : r.bytes.length ≠ 0 := fun hzero => hreq (List.length_eq_zero_iff.mp hzero)
  have hnarrow : a.respBuf.length < 2 ^ 16 := by
    rw [hsized]
    decide
  have hroom : 6 ≤ a.respBuf.length := by
    rw [hsized]
    decide
  cases hrefusal : Uds.refusal (dids signals) a.server.session r.bytes with
  | none =>
      obtain ⟨positive, hpositive⟩ :
          ∃ response, Uds.Positive (dids signals) a.dtc a.server.session r.bytes response :=
        Uds.positive_of_refusal_eq_none hrefusal
      have hresponse : (Uds.processRequest (dids signals) time r.bytes r.functional a.respBuf
          a.respBuf.length a.server a.dtc).response = _ :=
        Uds.response_of_positive hroom hnarrow htable hpositive
      rw [hsized] at hresponse
      rw [hresponse]
      exact .accepted (hsession ▸ hpositive)
  | some nrc =>
      have hresponse : (Uds.processRequest (dids signals) time r.bytes r.functional a.respBuf
          a.respBuf.length a.server a.dtc).response = _ :=
        Uds.response_of_refused hpos (by omega) hnarrow (Uds.service_of_refusal hrefusal)
      rw [hsized] at hresponse
      rw [hresponse]
      exact .refused (hsession ▸ hrefusal)

/-- Every request of a call is answered from the trouble codes that the requests before it leave. -/
theorem answered_reacts {a a' : Ecu} {log : List Record} (hsized : a.respBuf.length = diagBufferSize)
    (htable : a.dtc.table.length ≤ Dtc.maxEntries) (h : Reacts signals a log a') :
    Monitored Record.follow (Record.Answered signals) a.dtc log ∧
      a'.respBuf.length = diagBufferSize := by
  cases h with
  | request clock req functional =>
      refine ⟨(monitored_cons _ _ _).mpr ⟨fun hreq => ?_, monitored_nil _⟩, ?_⟩
      · exact answer_respondTo hsized htable signals (clock 0)
          { session := a.server.session, bytes := req, functional := functional } rfl hreq
      · exact (Uds.processRequest_fits (dids signals) (clock 0) req functional a.server a.dtc hsized
          (by decide)).1
  | sent =>
      obtain ⟨⟨session, lastRequestMs, pending⟩, dtc, respBuf, restart⟩ := a
      cases pending with
      | none => exact ⟨monitored_nil _, hsized⟩
      | some type =>
          refine ⟨(monitored_cons _ _ _).mpr ⟨trivial, monitored_nil _⟩, ?_⟩
          cases type <;> exact hsized

theorem answered_steps {a a' : Ecu} {log : List Record} (hsized : a.respBuf.length = diagBufferSize)
    (htable : a.dtc.table.length ≤ Dtc.maxEntries) (h : Steps (Reacts signals) a log a') :
    Monitored Record.follow (Record.Answered signals) a.dtc log ∧
      a'.respBuf.length = diagBufferSize := by
  have hall := h.invariant
    (fun (b : Ecu) tr => b.dtc = tr.foldl Record.follow a.dtc ∧
      Monitored Record.follow (Record.Answered signals) a.dtc tr ∧
        b.respBuf.length = diagBufferSize) ?_ [] ⟨rfl, monitored_nil _, hsized⟩
  · exact hall.2
  intro b tr es b' hb hstep
  obtain ⟨hdtc, hmonitored, hsized⟩ := hb
  have hb : b.dtc.table.length ≤ Dtc.maxEntries := by
    rw [hdtc, foldl_follow, Dtc.Manager.table_replay]
    exact htable
  obtain ⟨hanswered, hsized'⟩ := answered_reacts hsized hb hstep
  refine ⟨?_, (monitored_append _ _ _).mpr ⟨hmonitored, ?_⟩, hsized'⟩
  · rw [dtc_reacts hstep, ← foldl_follow, hdtc, List.foldl_append]
  · rw [← hdtc]
    exact hanswered

/-! ### Calls -/

theorem reacts_perform (s : State) {i : Stimulus} (hinput : i.input.dtcOps = []) :
    ∃ a, Steps (Reacts i.signals) s.ecu (records (perform s i).events) a ∧
      (perform s i).app.dtc = a.dtc ∧ (perform s i).app.respBuf = a.respBuf := by
  obtain ⟨env, signals, input⟩ := i
  cases input with
  | onFrame frame => exact ⟨_, reacts_onFrame frame s env, rfl, rfl⟩
  | mainFunction =>
      obtain ⟨a, hsteps, hsame⟩ := @reacts_mainFunction signals s env
      refine ⟨a, hsteps, ?_⟩
      show (mainFunction signals { link := s.link, app := s.ecu, env := env }).app.dtc = a.dtc ∧
        (mainFunction signals { link := s.link, app := s.ecu, env := env }).app.respBuf = a.respBuf
      obtain happ | ⟨time, happ⟩ := hsame <;> rw [happ] <;> exact ⟨rfl, rfl⟩
  | reportFault index failed => cases hinput

theorem dtc_perform (s : State) (i : Stimulus) :
    (perform s i).app.dtc =
      s.ecu.dtc.replay (i.input.dtcOps ++ (records (perform s i).events).flatMap Record.dtcOps) := by
  by_cases hinput : i.input.dtcOps = []
  · obtain ⟨a, hsteps, hdtc, -⟩ := reacts_perform s hinput
    rw [hdtc, hinput, List.nil_append]
    exact dtc_steps hsteps
  · obtain ⟨env, signals, input⟩ := i
    cases input with
    | reportFault index failed => rfl
    | _ => exact absurd rfl hinput

end MiniEcu.Diag
