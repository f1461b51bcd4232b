import MiniEcu.Diag.App

/-!
# What one call of the diagnostics can do

Seen from outside, a call does one of a few things: nothing; it gives the response on its way up;
it gets the response out, which runs a pending reset; or it processes one request, whose response is
not there, rejected, taken or at once out. `Turn` lists them with what they leave in the sender and
in the pending reset. The runs of the diagnostics are then studied turn by turn.
-/

namespace MiniEcu.Diag

open IsoTp (Event Outcome World Mirrors nested react)
open Uds (ResetType)

/-! ### Transcripts -/

/-- What passes between the UDS server, the link and the reset callback. -/
inductive Entry
  | request (r : Request) (response : Bytes)
  | transmit (message : Bytes) (result : IsoTp.Result)
  | sent (result : IsoTp.Result)
  | reset (type : ResetType)
deriving DecidableEq, Repr

def entry : Event Record → Option Entry
  | .app (.request r response) => some (.request r response)
  | .app (.ecuReset type) => some (.reset type)
  | .transmit message result => some (.transmit message result)
  | .txConfirmation result => some (.sent result)
  | _ => none

def transcript (es : List (Event Record)) : List Entry := es.filterMap entry

@[simp] theorem transcript_append (es fs : List (Event Record)) :
    transcript (es ++ fs) = transcript es ++ transcript fs := List.filterMap_append

theorem transcript_lift {es : List (Event Empty)} (h : ∀ e ∈ es, e.Neutral) :
    transcript (es.map Event.lift) = [] := by
  rw [transcript, List.filterMap_eq_nil_iff]
  intro e he
  obtain ⟨e, hmem, rfl⟩ := List.mem_map.mp he
  have hneutral := h e hmem
  cases e with
  | transmit _ _ => exact hneutral.elim
  | txConfirmation _ => exact hneutral.elim
  | app record => exact record.elim
  | _ => rfl

def outcomeEntries : Outcome → List Entry
  | .confirmed result => [.sent result]
  | _ => []

theorem transcript_performs {v v' : World Unit Empty} {o : Outcome} (h : v.Performs o v') :
    transcript (v'.events.map Event.lift) =
      transcript (v.events.map Event.lift) ++ outcomeEntries o := by
  obtain ⟨es, hes, hneutral⟩ := h.events
  rw [hes, List.map_append, List.map_append, transcript_append, transcript_append,
    transcript_lift hneutral]
  cases o <;> rfl

/-! ### Requests and the pending reset -/

/-- The reset the request asks for, if the server accepts it. -/
def Request.accepted (r : Request) : Option ResetType := Uds.acceptedReset r.session r.bytes

def Request.suppressed (r : Request) : Bool := Uds.suppressed r.bytes

/-- The pending reset after the request. -/
def Request.arms (r : Request) (p : Option ResetType) : Option ResetType := r.accepted.or p

/-- The positive response to an ECUReset request. -/
def resetResponse (type : ResetType) : Bytes :=
  [Uds.sidEcuReset + Uds.positiveOffset, type.byte]

/-- An accepted reset is answered by its own positive response, or not at all. -/
def Request.Genuine (r : Request) (response : Bytes) : Prop :=
  ∀ type, r.accepted = some type → response = if r.suppressed then [] else resetResponse type

def resets (p : Option ResetType) : List Entry := (p.map Entry.reset).toList

/-! ### States -/

def State.pending (s : State) : Option ResetType := s.ecu.server.pendingReset

/-- The state between two calls: the buffers have their sizes and no restart is under way. -/
structure State.Ready (s : State) : Prop where
  txBufferSize : s.link.cfg.txBufferSize = diagBufferSize
  respBuf : s.ecu.respBuf.length = diagBufferSize
  running : s.ecu.restart = false

theorem ready_boot (time : Nat) : (boot time).Ready where
  txBufferSize := List.length_replicate
  respBuf := List.length_replicate
  running := rfl

/-- The state in the middle of a call. -/
def stateOf (w : World Ecu Record) : State where
  link := w.link
  ecu := w.app

theorem leave_running {w : World Ecu Record} (h : w.app.restart = false) : leave w = stateOf w := by
  rw [leave, h]
  rfl

/-- The request that the call passes to the server. -/
def State.arrival (s : State) (i : Stimulus) : Option Request :=
  match i.input with
  | .onFrame frame =>
      if frame.id = canIdUdsReqControl then
        (IsoTp.completed s.link frame.data frame.dlc).map fun req =>
          { session := s.ecu.server.session, bytes := req, functional := false }
      else if frame.id = canIdUdsFunctional then
        (functionalRequest frame).map fun req =>
          { session := s.ecu.server.session, bytes := req, functional := true }
      else none
  | _ => none

/-- The call gives the transmission in progress up. -/
def State.GivesUp (s : State) (i : Stimulus) : Prop :=
  match i.input with
  | .onFrame frame =>
      frame.id = canIdUdsReqControl ∧ IsoTp.Aborts s.link i.env (.rxFrame frame.data frame.dlc)
  | .mainFunction => IsoTp.Aborts s.link i.env .mainFunction
  | .reportFault _ _ => False

instance (s : State) (i : Stimulus) : Decidable (s.GivesUp i) := by
  unfold State.GivesUp
  split <;> infer_instance

/-! ### Turns -/

/-- What a call does to the sender `t` and the pending reset `p`, and its transcript. -/
inductive Turn (arrival : Option Request) (givesUp : Prop) (t : IsoTp.TxSide)
    (p : Option ResetType) : List Entry → IsoTp.TxSide → Option ResetType → Prop
  | quiet {t' : IsoTp.TxSide} (harrival : arrival = none) (hkept : ¬ givesUp)
      (htx : Outcome.none.Allows t t') : Turn arrival givesUp t p [] t' p
  | aborted {t' : IsoTp.TxSide} {result : IsoTp.Result} (harrival : arrival = none)
      (hgivenUp : givesUp) (herr : result ≠ .ok) (hbusy : t.txState ≠ .idle)
      (hidle : t'.txState = .idle) : Turn arrival givesUp t p [.sent result] t' p
  | confirmed {t' : IsoTp.TxSide} (harrival : arrival = none) (hkept : ¬ givesUp)
      (hbusy : t.txState ≠ .idle) (hidle : t'.txState = .idle) :
      Turn arrival givesUp t p (.sent .ok :: resets p) t' none
  | unanswered {t' : IsoTp.TxSide} {r : Request} (harrival : arrival = some r)
      (hkept : ¬ givesUp) (hgenuine : r.Genuine []) (htx : Outcome.none.Allows t t') :
      Turn arrival givesUp t p [.request r []] t' (r.arms p)
  | rejected {t' : IsoTp.TxSide} {r : Request} {response : Bytes} (harrival : arrival = some r)
      (hkept : ¬ givesUp) (hgenuine : r.Genuine response) (hresponse : response ≠ [])
      (hbusy : t.txState ≠ .idle) (htx : Outcome.none.Allows t t') :
      Turn arrival givesUp t p [.request r response, .transmit response .errBusy] t' (r.arms p)
  | taken {t' : IsoTp.TxSide} {r : Request} {response : Bytes} (harrival : arrival = some r)
      (hkept : ¬ givesUp) (hgenuine : r.Genuine response) (hresponse : response ≠ [])
      (hidle : t.txState = .idle) (hwaits : t'.txState ≠ .idle)
      (hfirst : response.length ≤ 7 →
        t'.txState = .sendFirst ∧ t'.txLength = response.length) :
      Turn arrival givesUp t p [.request r response, .transmit response .ok] t' (r.arms p)
  | answered {t' : IsoTp.TxSide} {r : Request} {response : Bytes} (harrival : arrival = some r)
      (hkept : ¬ givesUp) (hgenuine : r.Genuine response) (hresponse : response ≠ [])
      (hidle : t.txState = .idle) (hidle' : t'.txState = .idle) :
      Turn arrival givesUp t p
        (.request r response :: .transmit response .ok :: .sent .ok :: resets (r.arms p)) t' none

/-- The call that ends in the world `w` is such a turn, and leaves a state between two calls. -/
def Turns (arrival : Option Request) (givesUp : Prop) (t : IsoTp.TxSide) (p : Option ResetType)
    (w : World Ecu Record) : Prop :=
  (leave w).Ready ∧
    Turn arrival givesUp t p (transcript w.events) (leave w).link.tx (leave w).pending

section Pieces

variable {arrival : Option Request} {givesUp : Prop} {t : IsoTp.TxSide} {p : Option ResetType}

/-! ### The confirmation -/

theorem onEcuResponseSent_ok (a : Ecu) :
    transcript ((onEcuResponseSent .ok a).log.map .app) = resets a.server.pendingReset ∧
      (onEcuResponseSent .ok a).app.server.pendingReset = none ∧
      (onEcuResponseSent .ok a).app.respBuf = a.respBuf := by
  obtain ⟨⟨session, lastRequestMs, pending⟩, dtc, respBuf, restart⟩ := a
  cases pending with
  | none => exact ⟨rfl, rfl, rfl⟩
  | some type => cases type <;> exact ⟨rfl, rfl, rfl⟩

theorem Turns.of_running {w : World Ecu Record} (hready : (stateOf w).Ready) {es : List Entry}
    (hes : transcript w.events = es) {p' : Option ResetType}
    (hp : w.app.server.pendingReset = p')
    (hturn : Turn arrival givesUp t p es w.link.tx p') : Turns arrival givesUp t p w := by
  rw [Turns, leave_running hready.running, hes]
  refine ⟨hready, ?_⟩
  rw [← hp] at hturn
  exact hturn

/-- After a confirmation the pending reset is run. Whichever it is, the link is idle and no reset
is pending. -/
theorem Turns.of_confirmed {w : World Ecu Record} (hready : (stateOf w).Ready)
    (hidle : w.link.tx.txState = .idle) {es : List Entry} (hes : transcript w.events = es)
    {p' : Option ResetType} (hp : w.app.server.pendingReset = p')
    (hturn : ∀ t' : IsoTp.TxSide, t'.txState = .idle →
      Turn arrival givesUp t p (es ++ resets p') t' none) :
    Turns arrival givesUp t p (w.settle (onEcuResponseSent .ok w.app)) := by
  obtain ⟨hlog, hnone, hrespBuf⟩ := onEcuResponseSent_ok w.app
  have hevents : transcript (w.settle (onEcuResponseSent .ok w.app)).events = es ++ resets p' := by
    rw [World.events_settle, transcript_append, hes, hlog, hp]
  rw [Turns, hevents]
  generalize onEcuResponseSent .ok w.app = reaction at *
  cases hrestart : reaction.app.restart with
  | true =>
      rw [leave, World.app_settle, hrestart]
      exact ⟨ready_boot _, hturn _ rfl⟩
  | false =>
      rw [leave_running hrestart]
      refine ⟨⟨hready.txBufferSize, ?_, hrestart⟩, ?_⟩
      · exact (congrArg List.length hrespBuf).trans hready.respBuf
      · show Turn _ _ _ _ _ w.link.tx reaction.app.server.pendingReset
        rw [hnone]
        exact hturn _ hidle

/-! ### The request -/

/-- What the server does with a request, as far as the rest of the diagnostics is concerned. -/
theorem respondTo_spec (signals : Signals) (clock : Nat → Nat) (req : Bytes) (functional : Bool)
    {a : Ecu} (hsized : a.respBuf.length = diagBufferSize) {r : Request}
    (hr : r = { session := a.server.session, bytes := req, functional := functional }) :
    ∃ response : Bytes, r.Genuine response ∧ response.length ≤ diagBufferSize ∧
      (respondTo signals clock req functional a).log = [.request r response] ∧
      (respondTo signals clock req functional a).sends =
        (if response = [] then [] else [response]) ∧
      (respondTo signals clock req functional a).app.server.pendingReset =
        r.arms a.server.pendingReset ∧
      (respondTo signals clock req functional a).app.respBuf.length = diagBufferSize ∧
      (respondTo signals clock req functional a).app.restart = a.restart := by
  have hfits := Uds.processRequest_fits (dids signals) (clock 0) req functional a.server a.dtc
    hsized (by decide)
  have hlength := Uds.length_response (dids signals) (clock 0) req functional a.server a.dtc
    hsized (by decide)
  have hserver : (Uds.processRequest (dids signals) (clock 0) req functional a.respBuf
      diagBufferSize a.server a.dtc).server.pendingReset = r.arms a.server.pendingReset ∧
      r.Genuine (Uds.processRequest (dids signals) (clock 0) req functional a.respBuf
        diagBufferSize a.server a.dtc).response := by
    subst hr
    rw [Request.arms, Request.Genuine]
    cases haccepted : Request.accepted _ with
    | none =>
        refine ⟨?_, by simp⟩
        exact Uds.pendingReset_processRequest (dids signals) (clock 0) req functional a.server
          a.dtc haccepted
    | some type =>
        obtain ⟨hpending, hresponse⟩ := Uds.processRequest_reset (dids signals) (clock 0) req
          functional a.server a.dtc hsized (by decide) (by decide) haccepted
        refine ⟨hpending, ?_⟩
        intro type' htype
        obtain rfl := Option.some.inj htype
        exact hresponse
  rw [respondTo]
  generalize Uds.processRequest (dids signals) (clock 0) req functional a.respBuf diagBufferSize
    a.server a.dtc = o at *
  refine ⟨o.response, hserver.2, hlength ▸ hfits.2, by rw [hr], ?_, hserver.1, hfits.1, rfl⟩
  show (if 0 < o.respLen then [o.response] else []) = _
  by_cases hempty : o.respLen = 0
  · rw [if_neg (by omega), if_pos (List.eq_nil_of_length_eq_zero (hlength.trans hempty))]
  · rw [if_pos (by omega), if_neg]
    intro hnil
    rw [hnil] at hlength
    exact hempty hlength.symm

theorem transmitResult_response {l : IsoTp.Link} (hsize : l.cfg.txBufferSize = diagBufferSize)
    {response : Bytes} (hpos : response ≠ []) (hlen : response.length ≤ diagBufferSize) :
    IsoTp.transmitResult l response = if l.tx.txState = .idle then .ok else .errBusy := by
  have hparam : ¬ (response.length = 0 ∨ 4095 < response.length ∨
      l.cfg.txBufferSize < response.length) := by
    rw [hsize, List.length_eq_zero_iff]
    simp only [diagBufferSize] at hlen ⊢
    simp only [hpos, false_or, not_or, Nat.not_lt]
    omega
  rw [IsoTp.transmitResult, if_neg hparam]
  split <;> simp_all

theorem turns_taken (signals : Signals) {w : World Ecu Record} (hready : (stateOf w).Ready)
    {r : Request} {response : Bytes} (hevents : transcript w.events = [.request r response])
    (hpending : w.app.server.pendingReset = r.arms p) (hempty : response ≠ [])
    (hlen : response.length ≤ diagBufferSize) (hidle : w.link.tx.txState = .idle)
    (htaken : t.txState = .idle) (hkept : ¬ givesUp) (hgenuine : r.Genuine response) :
    Turns (some r) givesUp t p (nested (diagApp signals) 0 response w) := by
  have hok : IsoTp.transmitResult w.link response = .ok :=
    (transmitResult_response hready.txBufferSize hempty hlen).trans (if_pos hidle)
  obtain ⟨o, ho, hperforms, hout⟩ := IsoTp.transmitWith_taken (diagApp signals)
    (fun _ w => w) (fun _ v => v) (attentive_diagApp signals) hok
  rw [show nested (diagApp signals) 0 response w = _ from hout]
  generalize (IsoTp.transmitWith IsoTp.silent (fun _ v => v) response w.bare).2 = v at hperforms
  have hready' : (stateOf (v.withApp w.app w.events)).Ready :=
    ⟨(congrArg IsoTp.Config.txBufferSize hperforms.cfg).trans hready.txBufferSize,
      hready.respBuf, hready.running⟩
  have htranscript : transcript (v.withApp w.app w.events).events =
      [.request r response, .transmit response .ok] ++ outcomeEntries o := by
    show transcript (_ ++ v.events.map Event.lift) = _
    rw [transcript_append, hevents, transcript_performs hperforms]
    rfl
  obtain rfl | rfl := ho
  · refine .of_running hready' htranscript hpending ?_
    refine .taken rfl hkept hgenuine hempty htaken ?_ ?_
    · intro hsent
      cases hperforms.tx.1.mp hsent
    · intro hshort
      show v.link.tx.txState = _ ∧ v.link.tx.txLength = _
      rw [hperforms.tx.2 rfl hshort]
      exact ⟨rfl, rfl⟩
  · exact .of_confirmed hready' hperforms.tx.2 htranscript hpending fun t' hidle' =>
      .answered rfl hkept hgenuine hempty htaken hidle'

theorem turns_respond (signals : Signals) (clock : Nat → Nat) (req : Bytes) (functional : Bool)
    {w : World Ecu Record} (hready : (stateOf w).Ready) (hquiet : transcript w.events = [])
    (htx : Outcome.none.Allows t w.link.tx) (hkept : ¬ givesUp) {r : Request}
    (hr : r = { session := w.app.server.session, bytes := req, functional := functional }) :
    Turns (some r) givesUp t w.app.server.pendingReset
      (react (nested (diagApp signals) 0) (respondTo signals clock req functional w.app) w) := by
  obtain ⟨response, hgenuine, hlen, hlog, hsends, hpending, hrespBuf, hrestart⟩ :=
    respondTo_spec signals clock req functional (a := w.app) hready.respBuf hr
  generalize respondTo signals clock req functional w.app = reaction at *
  -- the world in which the response is passed to the link
  have hready' : (stateOf (w.settle reaction)).Ready :=
    ⟨hready.txBufferSize, hrespBuf, hrestart.trans hready.running⟩
  have hevents : transcript (w.settle reaction).events = [.request r response] := by
    rw [World.events_settle, transcript_append, hquiet, hlog]
    rfl
  rw [react, hsends]
  by_cases hempty : response = []
  · rw [if_pos hempty]
    subst hempty
    exact .of_running hready' hevents hpending (.unanswered rfl hkept hgenuine htx)
  rw [if_neg hempty]
  show Turns _ _ _ _ (nested (diagApp signals) 0 response (w.settle reaction))
  by_cases hidle : w.link.tx.txState = .idle
  · exact turns_taken signals hready' hevents hpending hempty hlen hidle (htx.1.mp hidle) hkept
      hgenuine
  · have hbusy : IsoTp.transmitResult (w.settle reaction).link response = .errBusy :=
      (transmitResult_response hready'.txBufferSize hempty hlen).trans (if_neg hidle)
    have hrejected := IsoTp.transmitWith_rejected (diagApp signals) (fun _ w => w)
      (hbusy.trans_ne (by decide))
    rw [show nested (diagApp signals) 0 response (w.settle reaction) = _ from
      congrArg Prod.snd hrejected, hbusy]
    refine .of_running hready' ?_ hpending
      (.rejected rfl hkept hgenuine hempty (fun h => hidle (htx.1.mpr h)) htx)
    rw [World.events_log, transcript_append, hevents]
    rfl

/-! ### Calls -/

/-- A call that mirrors the silent link's is a turn of what it completes. -/
theorem turns_complete (signals : Signals) {v v' : World Unit Empty} {a : Ecu} {o : Outcome}
    {message : Option Bytes} {w : World Ecu Record} (hreports : o.Reports givesUp message)
    (hmirrors : Mirrors (diagApp signals) (nested (diagApp signals) 0) v a [] o v' w)
    (hv : v.events = []) (hready : (stateOf (v.withApp a [])).Ready) :
    Turns (message.map fun req =>
        { session := a.server.session, bytes := req, functional := false })
      givesUp v.link.tx a.server.pendingReset w := by
  obtain ⟨hperforms, rfl⟩ := hmirrors
  have hready' : (stateOf (v'.withApp a [])).Ready :=
    ⟨(congrArg IsoTp.Config.txBufferSize hperforms.cfg).trans hready.txBufferSize,
      hready.respBuf, hready.running⟩
  have htranscript : transcript (v'.withApp a []).events = outcomeEntries o := by
    show transcript (v'.events.map Event.lift) = _
    rw [transcript_performs hperforms, hv]
    rfl
  obtain ⟨haborts, rfl⟩ := hreports
  cases o with
  | none =>
      refine .of_running hready' htranscript rfl (.quiet rfl ?_ hperforms.tx)
      exact fun hgivenUp => by simpa using haborts.mpr hgivenUp
  | confirmed result =>
      obtain ⟨hbusy, hidle⟩ := hperforms.tx
      by_cases hok : result = .ok
      · subst hok
        refine .of_confirmed hready' hidle htranscript rfl fun t' hidle' =>
          .confirmed rfl ?_ hbusy hidle'
        intro hgivenUp
        obtain ⟨result, herr, heq⟩ := haborts.mpr hgivenUp
        exact herr (Outcome.confirmed.inj heq).symm
      · have hsettled : ((v'.withApp a []).complete (diagApp signals) (nested (diagApp signals) 0)
            (.confirmed result)) = v'.withApp a [] := by
          show (v'.withApp a []).settle (onEcuResponseSent result a) = _
          rw [onEcuResponseSent, if_neg hok]
          exact IsoTp.settle_self (v'.withApp a [])
        rw [hsettled]
        exact .of_running hready' htranscript rfl
          (.aborted rfl (haborts.mp ⟨result, hok, rfl⟩) hok hbusy hidle)
  | received data =>
      have hkept : ¬ givesUp := fun hgivenUp => by simpa using haborts.mpr hgivenUp
      show Turns _ _ _ _ (react _ (onEcuRequest signals (fun k => v'.env.clock (v'.reads + k)) data
        .ok a) (v'.withApp a []))
      rw [onEcuRequest, if_pos rfl]
      exact turns_respond signals _ data false hready' htranscript hperforms.tx hkept rfl

/-- `Uds_MainFunction` changes the session at most. -/
theorem Turns.rest {w : World Ecu Record} (h : Turns arrival givesUp t p w) :
    Turns arrival givesUp t p (if w.app.restart then w else udsMainFunction w) := by
  cases hrestart : w.app.restart with
  | true => exact h
  | false =>
      rw [if_neg (by decide), udsMainFunction]
      split
      · exact h
      obtain ⟨hready, hturn⟩ := h
      rw [leave_running hrestart] at hready hturn
      refine .of_running ⟨hready.txBufferSize, hready.respBuf, hready.running⟩ ?_ ?_ hturn
      · rw [World.events_tick, transcript_append]
        exact List.append_nil _
      · show (Uds.mainFunction _ w.app.server).pendingReset = w.app.server.pendingReset
        unfold Uds.mainFunction
        split
        · rfl
        split <;> rfl

end Pieces

/-- Every call of the diagnostics is a turn. -/
theorem turn_step {s : State} (h : s.Ready) (i : Stimulus) :
    (step s i).1.Ready ∧ Turn (s.arrival i) (s.GivesUp i) s.link.tx s.pending
      (transcript (step s i).2) (step s i).1.link.tx (step s i).1.pending := by
  obtain ⟨env, signals, input⟩ := i
  show Turns _ _ s.link.tx s.ecu.server.pendingReset (perform s ⟨env, signals, input⟩)
  have hquiet : ∀ {arrival : Option Request} {givesUp : Prop} {w : World Ecu Record},
      arrival = none → ¬ givesUp → (stateOf w).Ready → w.link.tx = s.link.tx → w.events = [] →
      w.app.server.pendingReset = s.ecu.server.pendingReset →
      Turns arrival givesUp s.link.tx s.ecu.server.pendingReset w := by
    intro arrival givesUp w harrival hkept hready htx hevents hpending
    refine .of_running hready (congrArg transcript hevents) hpending (.quiet harrival hkept ?_)
    exact .of_eq (by simp) htx
  cases input with
  | onFrame frame =>
      by_cases hphysical : frame.id = canIdUdsReqControl
      · obtain ⟨o, hreports, hmirrors⟩ := IsoTp.mirrors_rxFrame (diagApp signals)
          (nested (diagApp signals) 0) (fun _ v => v) s.ecu [] (attentive_diagApp signals)
          frame.data frame.dlc { link := s.link, app := (), env := env }
        have hturns := turns_complete signals hreports hmirrors rfl h
        have hgivesUp : s.GivesUp ⟨env, signals, .onFrame frame⟩ =
            IsoTp.Aborts s.link env (.rxFrame frame.data frame.dlc) :=
          propext (and_iff_right hphysical)
        have harrival : s.arrival ⟨env, signals, .onFrame frame⟩ = _ := if_pos hphysical
        have hperform : perform s ⟨env, signals, .onFrame frame⟩ = _ := if_pos hphysical
        rw [hperform, harrival, hgivesUp]
        exact hturns
      have hkept : ¬ s.GivesUp ⟨env, signals, .onFrame frame⟩ := fun hgivesUp =>
        hphysical hgivesUp.1
      by_cases hfunctional : frame.id = canIdUdsFunctional
      · have harrival : s.arrival ⟨env, signals, .onFrame frame⟩ = _ :=
          (if_neg hphysical).trans (if_pos hfunctional)
        have hperform : perform s ⟨env, signals, .onFrame frame⟩ = _ :=
          (if_neg hphysical).trans (if_pos hfunctional)
        rw [hperform, harrival]
        cases functionalRequest frame with
        | none => exact hquiet rfl hkept h rfl rfl rfl
        | some req =>
            exact turns_respond signals _ req true (w := { link := s.link, app := s.ecu, env := env })
              h rfl (.of_eq (by simp) rfl) hkept rfl
      · have harrival : s.arrival ⟨env, signals, .onFrame frame⟩ = none :=
          (if_neg hphysical).trans (if_neg hfunctional)
        have hperform : perform s ⟨env, signals, .onFrame frame⟩ =
            { link := s.link, app := s.ecu, env := env } :=
          (if_neg hphysical).trans (if_neg hfunctional)
        rw [hperform]
        exact hquiet harrival hkept h rfl rfl rfl
  | mainFunction =>
      obtain ⟨o, hreports, hmirrors⟩ := IsoTp.mirrors_mainFunction (diagApp signals)
        (nested (diagApp signals) 0) (fun _ v => v) s.ecu [] (attentive_diagApp signals) s.link env
      exact (turns_complete signals hreports hmirrors rfl h).rest
  | reportFault index failed =>
      exact hquiet rfl not_false ⟨h.txBufferSize, h.respBuf, h.running⟩ rfl rfl rfl

end MiniEcu.Diag
