import MiniEcu.IsoTp.Silent

/-!
# Applications that act on success only

An application that ignores every error, and that transmits nothing when a message has gone out,
acts at one place: where a call has received or sent a whole message. That is the last thing the
call does. Such a call is therefore the call of a silent link, followed by at most one reaction.
-/

namespace MiniEcu.IsoTp

open Memory Trace

variable {σ ε : Type}

/-- Errors leave the application as it is, and no confirmation makes it transmit. -/
structure App.Attentive (app : App σ ε) : Prop where
  confirmed : ∀ clock result a, result ≠ .ok → app.txConfirmation clock result a = { app := a }
  indicated : ∀ clock data result a, result ≠ .ok →
    app.rxIndication clock data result a = { app := a }
  sends : ∀ clock a, (app.txConfirmation clock .ok a).sends = []

/-! ### A silent link with an application behind it -/

def Event.lift : Event Empty → Event ε
  | .getTimeMs time => .getTimeMs time
  | .sendFrame canId frame accepted => .sendFrame canId frame accepted
  | .rxIndication data result => .rxIndication data result
  | .txConfirmation result => .txConfirmation result
  | .transmit message result => .transmit message result
  | .rxWrite offset count => .rxWrite offset count
  | .txWrite offset count => .txWrite offset count
  | .txRead offset count => .txRead offset count
  | .counted bits value => .counted bits value
  | .unfinished => .unfinished

/-- The silent world with an application in the state `a`, after the events `past`. -/
def World.withApp (v : World Unit Empty) (a : σ) (past : List (Event ε)) : World σ ε where
  link := v.link
  app := a
  env := v.env
  reads := v.reads
  sends := v.sends
  events := past ++ v.events.map Event.lift

section WithApp

variable (v : World Unit Empty) (a : σ) (past : List (Event ε))

@[simp] theorem link_withApp : (v.withApp a past).link = v.link := rfl
@[simp] theorem now_withApp : (v.withApp a past).now = v.now := rfl
@[simp] theorem accepts_withApp : (v.withApp a past).accepts = v.accepts := rfl
@[simp] theorem env_withApp : (v.withApp a past).env = v.env := rfl
@[simp] theorem reads_withApp : (v.withApp a past).reads = v.reads := rfl

theorem withApp_setTx (t : TxSide) : (v.setTx t).withApp a past = (v.withApp a past).setTx t := rfl

theorem withApp_setRx (r : RxSide) : (v.setRx r).withApp a past = (v.withApp a past).setRx r := rfl

theorem withApp_log (e : Event Empty) :
    (v.log e).withApp a past = (v.withApp a past).log e.lift := by
  simp [World.withApp, World.log]

theorem withApp_tick : v.tick.withApp a past = (v.withApp a past).tick := by
  simp [World.withApp, World.tick, Event.lift]

theorem withApp_sendFrame (f : Frame) :
    (v.sendFrame f).withApp a past = (v.withApp a past).sendFrame f := by
  simp [World.withApp, World.sendFrame, World.accepts, Event.lift]

theorem withApp_rxSendFlowControl (status : Nat) :
    (rxSendFlowControl status v).withApp a past = rxSendFlowControl status (v.withApp a past) := by
  rw [rxSendFlowControl_eq, rxSendFlowControl_eq, withApp_setRx, withApp_sendFrame]
  rfl

end WithApp

/-! ### What a call completes -/

/-- The outcome of a piece of a call. -/
inductive Outcome
  | none
  | confirmed (result : Result)
  | received (data : Bytes)

namespace Outcome

def events : Outcome → List (Event Empty)
  | none => []
  | confirmed result => [.txConfirmation result]
  | received data => [.rxIndication data .ok]

def message : Outcome → Option Bytes
  | received data => some data
  | _ => Option.none

def ofMessage : Option Bytes → Outcome
  | some data => received data
  | Option.none => none

/-- What the outcome says about the sender before and after. -/
def Allows : Outcome → TxSide → TxSide → Prop
  | confirmed _, t, t' => t.txState ≠ .idle ∧ t'.txState = .idle
  | _, t, t' =>
      (t'.txState = .idle ↔ t.txState = .idle) ∧
        (t.txState = .sendFirst → t.txLength ≤ 7 → t' = t)

theorem Allows.of_eq {o : Outcome} (ho : ∀ result, o ≠ confirmed result) {t t' : TxSide}
    (h : t' = t) : o.Allows t t' := by
  subst h
  cases o with
  | confirmed result => exact absurd rfl (ho result)
  | none => exact ⟨Iff.rfl, fun _ _ => rfl⟩
  | received data => exact ⟨Iff.rfl, fun _ _ => rfl⟩

theorem Allows.of_started {t t' : TxSide} (h : t.txState = .waitFc ∨ t.txState = .sendCf)
    (h' : t'.txState ≠ .idle) : none.Allows t t' := by
  refine ⟨iff_of_false h' ?_, fun hfirst => ?_⟩
  · obtain h | h := h <;> simp [h]
  · obtain h | h := h <;> simp [hfirst] at h

theorem Allows.trans {o : Outcome} {t u t' : TxSide} (h₁ : none.Allows t u) (h₂ : o.Allows u t') :
    o.Allows t t' := by
  have hsame : (t'.txState = .idle ↔ u.txState = .idle) ∧
      (u.txState = .sendFirst → u.txLength ≤ 7 → t' = u) →
      (t'.txState = .idle ↔ t.txState = .idle) ∧
      (t.txState = .sendFirst → t.txLength ≤ 7 → t' = t) := by
    intro ⟨hidle, hfirst⟩
    refine ⟨hidle.trans h₁.1, fun hs hlen => ?_⟩
    have hu := h₁.2 hs hlen
    subst hu
    exact hfirst hs hlen
  cases o with
  | confirmed result => exact ⟨fun hidle => h₂.1 (h₁.1.mpr hidle), h₂.2⟩
  | none => exact hsame h₂
  | received data => exact hsame h₂

end Outcome

/-- Nothing is requested, confirmed or delivered by the event. -/
def Event.Neutral : Event Empty → Prop
  | .txConfirmation _ => False
  | .rxIndication _ result => result ≠ .ok
  | .transmit _ _ => False
  | _ => True

namespace World

/-- `v'` is `v` after neutral events and the outcome. -/
structure Performs (v : World Unit Empty) (o : Outcome) (v' : World Unit Empty) : Prop where
  env : v'.env = v.env
  cfg : v'.link.cfg = v.link.cfg
  events : ∃ es, v'.events = v.events ++ (es ++ o.events) ∧ ∀ e ∈ es, e.Neutral
  tx : o.Allows v.link.tx v'.link.tx

theorem Performs.refl (v : World Unit Empty) : v.Performs .none v :=
  ⟨rfl, rfl, ⟨[], by simp [Outcome.events], by simp⟩, .of_eq (by simp) rfl⟩

theorem Performs.trans {u v v' : World Unit Empty} {o : Outcome} (h₁ : u.Performs .none v)
    (h₂ : v.Performs o v') : u.Performs o v' := by
  obtain ⟨es, hes, hneutral⟩ := h₁.events
  obtain ⟨fs, hfs, hneutral'⟩ := h₂.events
  refine ⟨h₂.env.trans h₁.env, h₂.cfg.trans h₁.cfg, ⟨es ++ fs, ?_, ?_⟩, h₁.tx.trans h₂.tx⟩
  · rw [hfs, hes]
    simp [Outcome.events]
  · intro e he
    exact (List.mem_append.mp he).elim (hneutral e) (hneutral' e)

variable (app : App σ ε) (resubmit : Bytes → World σ ε → World σ ε)

/-- The reaction of the application to the outcome. -/
def complete (o : Outcome) (w : World σ ε) : World σ ε :=
  match o with
  | .none => w
  | .confirmed result =>
      w.settle (app.txConfirmation (fun k => w.env.clock (w.reads + k)) result w.app)
  | .received data =>
      react resubmit (app.rxIndication (fun k => w.env.clock (w.reads + k)) data .ok w.app) w

end World

/-- A function of the code does what its silent counterpart does, and completes what that
completed. -/
def Mirrors (app : App σ ε) (resubmit : Bytes → World σ ε → World σ ε) (v : World Unit Empty)
    (a : σ) (past : List (Event ε)) (o : Outcome) (v' : World Unit Empty) (w' : World σ ε) : Prop :=
  v.Performs o v' ∧ w' = (v'.withApp a past).complete app resubmit o

section Mirrors

variable {app : App σ ε} {resubmit : Bytes → World σ ε → World σ ε}
  {resubmit₀ : Bytes → World Unit Empty → World Unit Empty} {v : World Unit Empty}
  {a : σ} {past : List (Event ε)}

theorem Mirrors.prepend {u v' : World Unit Empty} {o : Outcome} {w' : World σ ε}
    (h : u.Performs .none v) (hm : Mirrors app resubmit v a past o v' w') :
    Mirrors app resubmit u a past o v' w' := ⟨h.trans hm.1, hm.2⟩

theorem Mirrors.none {v' : World Unit Empty} (h : v.Performs .none v') :
    Mirrors app resubmit v a past .none v' (v'.withApp a past) := ⟨h, rfl⟩

variable (v) in
theorem performs_log {e : Event Empty} (h : e.Neutral) : v.Performs .none (v.log e) :=
  ⟨rfl, rfl, ⟨[e], rfl, by simpa using h⟩, .of_eq (by simp) rfl⟩

variable (v) in
theorem performs_tick : v.Performs .none v.tick :=
  ⟨rfl, rfl, ⟨[_], rfl, by simp [Event.Neutral]⟩, .of_eq (by simp) rfl⟩

variable (v) in
theorem performs_sendFrame (f : Frame) : v.Performs .none (v.sendFrame f) :=
  ⟨rfl, rfl, ⟨[_], rfl, by simp [Event.Neutral]⟩, .of_eq (by simp) rfl⟩

variable (v) in
theorem performs_setRx (r : RxSide) : v.Performs .none (v.setRx r) :=
  ⟨rfl, rfl, ⟨[], by simp [Outcome.events], by simp⟩, .of_eq (by simp) rfl⟩

variable (v) in
theorem performs_setTx {t : TxSide} (h : Outcome.none.Allows v.link.tx t) :
    v.Performs .none (v.setTx t) :=
  ⟨rfl, rfl, ⟨[], by simp [Outcome.events], by simp⟩, h⟩

/-! ### The ends of a transmission and of a reception -/

theorem react_of_sends {r : Reaction σ ε} (h : r.sends = []) (w : World σ ε) :
    react resubmit r w = w.settle r := by
  rw [react, h]
  rfl

theorem settle_self (w : World σ ε) : w.settle { app := w.app } = w := by
  simp [World.settle]

theorem App.Attentive.sends_nil (happ : app.Attentive) (clock : Nat → Nat) (result : Result) (a : σ) :
    (app.txConfirmation clock result a).sends = [] := by
  by_cases hok : result = .ok
  · rw [hok]
    exact happ.sends clock a
  · rw [happ.confirmed clock result a hok]

theorem txFinish_withApp (happ : app.Attentive) (result : Result) :
    txFinish app resubmit result (v.withApp a past) =
      ((txFinish silent resubmit₀ result v).withApp a past).complete app resubmit
        (.confirmed result) := by
  rw [txFinish_silent, withApp_log, withApp_setTx]
  exact react_of_sends (happ.sends_nil _ result a) _

theorem rxFinish_withApp_error (happ : app.Attentive) {result : Result} (herr : result ≠ .ok) :
    rxFinish app resubmit result (v.withApp a past) =
      (rxFinish silent resubmit₀ result v).withApp a past := by
  rw [rxFinish_silent, withApp_log, withApp_setRx]
  have hreact : ∀ clock data (w : World σ ε), w.app = a →
      react resubmit (app.rxIndication clock data result a) w = w := by
    intro clock data w hw
    rw [happ.indicated clock data result a herr, react_of_sends rfl, ← hw, settle_self]
  exact hreact _ _ _ rfl

theorem rxFinish_withApp_ok :
    rxFinish app resubmit .ok (v.withApp a past) =
      ((rxFinish silent resubmit₀ .ok v).withApp a past).complete app resubmit
        (.received (v.link.rx.rxBuffer.take v.link.rx.rxLength)) := by
  rw [rxFinish_silent, withApp_log, withApp_setRx]
  rfl

variable (resubmit₀) in
theorem performs_txFinish (result : Result) (hbusy : v.link.tx.txState ≠ .idle) :
    v.Performs (.confirmed result) (txFinish silent resubmit₀ result v) := by
  rw [txFinish_silent]
  exact ⟨rfl, rfl, ⟨[], by simp [Outcome.events], by simp⟩, ⟨hbusy, rfl⟩⟩

variable (resubmit₀) in
theorem performs_rxFinish_error {result : Result} (herr : result ≠ .ok) :
    v.Performs .none (rxFinish silent resubmit₀ result v) := by
  rw [rxFinish_silent]
  exact (performs_setRx v _).trans (performs_log _ herr)

variable (resubmit₀) in
theorem performs_rxFinish_ok :
    v.Performs (.received (v.link.rx.rxBuffer.take v.link.rx.rxLength))
      (rxFinish silent resubmit₀ .ok v) := by
  rw [rxFinish_silent]
  exact ⟨rfl, rfl, ⟨[], by simp [Outcome.events], by simp⟩, .of_eq (by simp) rfl⟩

variable (resubmit₀) in
theorem mirrors_txFinish (happ : app.Attentive) (result : Result) {u : World Unit Empty}
    (h : u.Performs .none v) (hbusy : v.link.tx.txState ≠ .idle) :
    Mirrors app resubmit u a past (.confirmed result) (txFinish silent resubmit₀ result v)
      (txFinish app resubmit result (v.withApp a past)) :=
  ⟨h.trans (performs_txFinish resubmit₀ result hbusy), txFinish_withApp happ result⟩

variable (resubmit₀) in
theorem mirrors_rxFinish_error (happ : app.Attentive) {result : Result} (herr : result ≠ .ok)
    {u : World Unit Empty} (h : u.Performs .none v) :
    Mirrors app resubmit u a past .none (rxFinish silent resubmit₀ result v)
      (rxFinish app resubmit result (v.withApp a past)) :=
  ⟨h.trans (performs_rxFinish_error resubmit₀ herr), rxFinish_withApp_error happ herr⟩

variable (app resubmit resubmit₀ a past) in
theorem mirrors_rxFinish_ok {u : World Unit Empty} (h : u.Performs .none v) :
    Mirrors app resubmit u a past (.received (v.link.rx.rxBuffer.take v.link.rx.rxLength))
      (rxFinish silent resubmit₀ .ok v) (rxFinish app resubmit .ok (v.withApp a past)) :=
  ⟨h.trans (performs_rxFinish_ok resubmit₀), rxFinish_withApp_ok⟩

/-! ### The sender -/

theorem withApp_offeredFirst (v : World Unit Empty) (a : σ) (past : List (Event ε)) :
    (offeredFirst v).withApp a past = offeredFirst (v.withApp a past) := by
  rw [offeredFirst, withApp_sendFrame, withApp_log]
  rfl

theorem withApp_pacedCf (v : World Unit Empty) (a : σ) (past : List (Event ε)) :
    (pacedCf v).withApp a past = pacedCf (v.withApp a past) := by
  unfold pacedCf
  rw [link_withApp]
  split
  · exact withApp_tick v a past
  · rfl

theorem withApp_offeredCf (v : World Unit Empty) (a : σ) (past : List (Event ε)) :
    (offeredCf v).withApp a past = offeredCf (v.withApp a past) := by
  rw [offeredCf, withApp_sendFrame, withApp_log, withApp_pacedCf]
  rfl

theorem withApp_sentCf (v : World Unit Empty) (a : σ) (past : List (Event ε)) :
    (sentCf v).withApp a past = sentCf (v.withApp a past) := by
  rw [sentCf, withApp_tick, withApp_setTx, withApp_log, withApp_offeredCf, sentCf,
    ← withApp_offeredCf]
  rfl

theorem withApp_countedCf (v : World Unit Empty) (a : σ) (past : List (Event ε)) :
    (countedCf v).withApp a past = countedCf (v.withApp a past) := by
  rw [countedCf, withApp_setTx, withApp_log, withApp_sentCf, countedCf, ← withApp_sentCf]
  rfl

/-- What a piece of the sender that may only succeed completes. -/
def Outcome.Sends (o : Outcome) : Prop := o = .none ∨ o = .confirmed .ok

variable (app resubmit resubmit₀ a past) in
/-- Sending the SF or FF completes the transmission or leaves it waiting. -/
theorem mirrors_txSendFirst (happ : app.Attentive) (hs : v.link.tx.txState = .sendFirst) :
    (txSendFirst app resubmit (v.withApp a past)).1 = (txSendFirst silent resubmit₀ v).1 ∧
      ∃ o : Outcome, o.Sends ∧ Mirrors app resubmit v a past o
        (txSendFirst silent resubmit₀ v).2 (txSendFirst app resubmit (v.withApp a past)).2 := by
  have hoffered : v.Performs .none (offeredFirst v) :=
    (performs_log v (by trivial)).trans (performs_sendFrame _ _)
  rw [txSendFirst_eq, txSendFirst_eq, accepts_withApp, link_withApp, ← withApp_offeredFirst]
  cases hacc : v.accepts with
  | false => exact ⟨rfl, .none, .inl rfl, .none hoffered⟩
  | true =>
      refine ⟨rfl, ?_⟩
      simp only [if_true]
      by_cases hlen : v.link.tx.txLength ≤ 7
      · rw [if_pos hlen, if_pos hlen]
        refine ⟨.confirmed .ok, .inr rfl, mirrors_txFinish resubmit₀ happ .ok hoffered ?_⟩
        show v.link.tx.txState ≠ .idle
        simp [hs]
      · rw [if_neg hlen, if_neg hlen]
        have hfirst : v.Performs .none
            ((offeredFirst v).setTx (v.link.tx.afterFirst (v.env.clock v.reads))).tick := by
          refine (hoffered.trans (performs_setTx _ ?_)).trans (performs_tick _)
          show Outcome.none.Allows v.link.tx (v.link.tx.afterFirst _)
          refine ⟨?_, fun _ hle => absurd hle hlen⟩
          simp [hs, TxSide.afterFirst]
        refine ⟨.none, .inl rfl, hfirst, ?_⟩
        rw [World.complete, withApp_tick, withApp_setTx]
        rfl

variable (app resubmit) in
theorem txCfIteration_withApp (v : World Unit Empty) (a : σ) (past : List (Event ε)) :
    txCfIteration app resubmit (v.withApp a past) =
    if 0 < v.link.tx.txStMinMs ∧ elapsed v.now v.link.tx.txLastCfTime ≤ v.link.tx.txStMinMs then
      (false, (pacedCf v).withApp a past)
    else if (pacedCf v).accepts then
      if v.link.tx.txLength ≤ (sentCf v).link.tx.txOffset then
        (true, txFinish app resubmit .ok ((sentCf v).withApp a past))
      else if v.link.tx.txBlockSize ≠ 0 then
        if v.link.tx.txBlockSize ≤ v.link.tx.nextBlockCount then
          (true, (((countedCf v).withApp a past).setTx { (countedCf v).link.tx with
            txState := .waitFc
            txTimerStart := (countedCf v).now }).tick)
        else (true, (countedCf v).withApp a past)
      else (true, (sentCf v).withApp a past)
    else (false, (offeredCf v).withApp a past) := by
  rw [txCfIteration_eq, ← withApp_pacedCf, ← withApp_offeredCf, ← withApp_sentCf,
    ← withApp_countedCf]
  rfl

variable (app resubmit resubmit₀ a past) in
theorem mirrors_txCfIteration (happ : app.Attentive) (hs : v.link.tx.txState = .sendCf) :
    (txCfIteration app resubmit (v.withApp a past)).1 = (txCfIteration silent resubmit₀ v).1 ∧
      ∃ o : Outcome, o.Sends ∧ Mirrors app resubmit v a past o
        (txCfIteration silent resubmit₀ v).2 (txCfIteration app resubmit (v.withApp a past)).2 := by
  have hpaced : v.Performs .none (pacedCf v) := by
    unfold pacedCf
    split
    · exact performs_tick v
    · exact .refl v
  have hoffered : v.Performs .none (offeredCf v) :=
    (hpaced.trans (performs_log _ (by trivial))).trans (performs_sendFrame _ _)
  have htx : (offeredCf v).link.tx = v.link.tx := by simp [offeredCf]
  have hsent : v.Performs .none (sentCf v) := by
    refine ((hoffered.trans (performs_log _ (by trivial))).trans (performs_setTx _ ?_)).trans
      (performs_tick _)
    rw [World.link_log, htx]
    exact .of_started (.inr hs) (by simp [TxSide.advance, hs])
  have hsending : (sentCf v).link.tx.txState = .sendCf := hs
  have hcounted : v.Performs .none (countedCf v) := by
    refine (hsent.trans (performs_log _ (by trivial))).trans (performs_setTx _ ?_)
    exact .of_started (.inr hsending) (by simp [hsending])
  rw [txCfIteration_withApp, txCfIteration_eq]
  by_cases hearly :
      0 < v.link.tx.txStMinMs ∧ elapsed v.now v.link.tx.txLastCfTime ≤ v.link.tx.txStMinMs
  · rw [if_pos hearly, if_pos hearly]
    exact ⟨rfl, .none, .inl rfl, .none hpaced⟩
  rw [if_neg hearly, if_neg hearly]
  by_cases hacc : (pacedCf v).accepts = true
  swap
  · rw [if_neg hacc, if_neg hacc]
    exact ⟨rfl, .none, .inl rfl, .none hoffered⟩
  rw [if_pos hacc, if_pos hacc]
  by_cases hend : v.link.tx.txLength ≤ (sentCf v).link.tx.txOffset
  · rw [if_pos hend, if_pos hend]
    exact ⟨rfl, .confirmed .ok, .inr rfl,
      mirrors_txFinish resubmit₀ happ .ok hsent (by simp [hsending])⟩
  rw [if_neg hend, if_neg hend]
  by_cases hblock : v.link.tx.txBlockSize ≠ 0
  · rw [if_pos hblock, if_pos hblock]
    by_cases hcount : v.link.tx.txBlockSize ≤ v.link.tx.nextBlockCount
    · rw [if_pos hcount, if_pos hcount]
      refine ⟨rfl, .none, .inl rfl,
        (hcounted.trans (performs_setTx _ ?_)).trans (performs_tick _), ?_⟩
      · exact .of_started (.inr hsending) (by simp)
      · rw [World.complete, withApp_tick, withApp_setTx]
    · rw [if_neg hcount, if_neg hcount]
      exact ⟨rfl, .none, .inl rfl, .none hcounted⟩
  · rw [if_neg hblock, if_neg hblock]
    exact ⟨rfl, .none, .inl rfl, .none hsent⟩

/-- Once the message is out, the link is idle whatever the application does about it. -/
theorem Mirrors.idle {v' : World Unit Empty} {result : Result} {w' : World σ ε}
    (h : Mirrors app resubmit v a past (.confirmed result) v' w') :
    v'.link.tx.txState = .idle ∧ w'.link.tx.txState = .idle := by
  obtain ⟨hperforms, rfl⟩ := h
  exact ⟨hperforms.tx.2, hperforms.tx.2⟩

variable (app resubmit resubmit₀ a past) in
theorem mirrors_txCfLoop (happ : app.Attentive) (fuel : Nat) (v : World Unit Empty) :
    ∃ o : Outcome, o.Sends ∧ Mirrors app resubmit v a past o (txCfLoop silent resubmit₀ fuel v)
      (txCfLoop app resubmit fuel (v.withApp a past)) := by
  induction fuel generalizing v with
  | zero =>
      refine ⟨.none, .inl rfl, ?_⟩
      rw [txCfLoop, txCfLoop, link_withApp]
      split
      · have hstopped : Mirrors app resubmit v a past .none (v.log .unfinished)
            ((v.log .unfinished).withApp a past) := .none (performs_log v trivial)
        rwa [withApp_log] at hstopped
      · exact .none (.refl v)
  | succ fuel ih =>
      rw [txCfLoop, txCfLoop, link_withApp]
      by_cases hs : v.link.tx.txState = .sendCf
      · obtain ⟨hflag, o, ho, hmirrors⟩ :=
          mirrors_txCfIteration app resubmit resubmit₀ a past happ hs
        rw [if_pos hs, if_pos hs]
        simp only [hflag]
        cases hkeep : (txCfIteration silent resubmit₀ v).1 with
        | false => exact ⟨o, ho, hmirrors⟩
        | true =>
            simp only [if_true]
            obtain rfl | rfl := ho
            · obtain ⟨hperforms, hout⟩ := hmirrors
              obtain ⟨o, ho, hrest⟩ := ih (txCfIteration silent resubmit₀ v).2
              rw [hout]
              exact ⟨o, ho, hrest.prepend hperforms⟩
            · obtain ⟨hidle, hidle'⟩ := hmirrors.idle
              rw [txCfLoop_of_ne (by simp [hidle]), txCfLoop_of_ne (by simp [hidle'])]
              exact ⟨.confirmed .ok, .inr rfl, hmirrors⟩
      · rw [if_neg hs, if_neg hs]
        exact ⟨.none, .inl rfl, .none (.refl v)⟩

/-- The flow control gives the transmission up. -/
def Refuses (data : Frame) (dlc : Nat) (t : TxSide) : Prop :=
  t.txState = .waitFc ∧ 3 ≤ dlc ∧
    (1 < data.pciLow ∨ data.pciLow = 1 ∧ maxWft < t.nextWaitCount)

instance (data : Frame) (dlc : Nat) (t : TxSide) : Decidable (Refuses data dlc t) :=
  inferInstanceAs (Decidable (_ ∧ _))

/-- A piece of a call gives the transmission up exactly if `aborts`, and completes `message`. -/
structure Outcome.Reports (o : Outcome) (aborts : Prop) (message : Option Bytes) : Prop where
  aborts : (∃ result, result ≠ .ok ∧ o = .confirmed result) ↔ aborts
  message : o.message = message

theorem Outcome.Sends.reports {o : Outcome} (h : o.Sends) {aborts : Prop} (hnot : ¬ aborts) :
    o.Reports aborts Option.none := by
  constructor
  · refine iff_of_false ?_ hnot
    intro ⟨result, herr, ho⟩
    obtain rfl | rfl := h
    · cases ho
    · cases ho
      exact herr rfl
  · obtain rfl | rfl := h <;> rfl

/-- What the receiver completes says nothing about the sender. -/
theorem Outcome.reports_ofMessage (message : Option Bytes) {aborts : Prop} (hnot : ¬ aborts) :
    (ofMessage message).Reports aborts message := by
  cases message with
  | none => exact ⟨iff_of_false (by simp [ofMessage]) hnot, rfl⟩
  | some data => exact ⟨iff_of_false (by simp [ofMessage]) hnot, rfl⟩

variable (app resubmit) in
theorem txOnFlowControl_withApp (data : Frame) (dlc : Nat) (v : World Unit Empty) (a : σ)
    (past : List (Event ε)) :
    txOnFlowControl app resubmit data dlc (v.withApp a past) =
    if v.link.tx.txState ≠ .waitFc ∨ dlc < 3 then v.withApp a past
    else if data.pciLow = 0 then
      txSendConsecutiveFrames app resubmit
        ((v.setTx (v.link.tx.cleared (data.byte 1) (data.byte 2)
          (v.env.clock v.reads))).tick.withApp a past)
    else if data.pciLow = 1 then
      if maxWft < v.link.tx.nextWaitCount then
        txFinish app resubmit .errWftOvrn (((v.log (.counted 8 (v.link.tx.txWaitCount + 1))).setTx
          { v.link.tx with txWaitCount := v.link.tx.nextWaitCount }).withApp a past)
      else ((v.log (.counted 8 (v.link.tx.txWaitCount + 1))).setTx { v.link.tx with
        txWaitCount := v.link.tx.nextWaitCount
        txTimerStart := v.now }).tick.withApp a past
    else if data.pciLow = 2 then txFinish app resubmit .errOverflow (v.withApp a past)
    else txFinish app resubmit .errInvalidFs (v.withApp a past) := by
  simp only [withApp_tick, withApp_setTx, withApp_log]
  rfl

variable (app resubmit resubmit₀ a past) in
theorem mirrors_txSendConsecutiveFrames (happ : app.Attentive) (v : World Unit Empty) :
    ∃ o : Outcome, o.Sends ∧ Mirrors app resubmit v a past o
      (txSendConsecutiveFrames silent resubmit₀ v)
      (txSendConsecutiveFrames app resubmit (v.withApp a past)) :=
  mirrors_txCfLoop app resubmit resubmit₀ a past happ _ v

variable (app resubmit resubmit₀ a past) in
theorem mirrors_txOnFlowControl (happ : app.Attentive) (data : Frame) (dlc : Nat)
    (v : World Unit Empty) :
    ∃ o : Outcome, o.Reports (Refuses data dlc v.link.tx) none ∧
      Mirrors app resubmit v a past o (txOnFlowControl silent resubmit₀ data dlc v)
        (txOnFlowControl app resubmit data dlc (v.withApp a past)) := by
  rw [txOnFlowControl_withApp, txOnFlowControl_eq]
  by_cases hignored : v.link.tx.txState ≠ .waitFc ∨ dlc < 3
  · rw [if_pos hignored, if_pos hignored]
    refine ⟨.none, Outcome.Sends.reports (.inl rfl) ?_, .none (.refl v)⟩
    intro ⟨hs, hdlc, _⟩
    exact hignored.elim (fun hne => hne hs) (fun hlt => absurd hdlc (Nat.not_le_of_lt hlt))
  rw [if_neg hignored, if_neg hignored]
  simp only [not_or, not_not, Nat.not_lt] at hignored
  obtain ⟨hs, hdlc⟩ := hignored
  have hbusy : v.link.tx.txState ≠ .idle := by simp [hs]
  have hgivenUp : ∀ result : Result, result ≠ .ok → Refuses data dlc v.link.tx →
      (Outcome.confirmed result).Reports (Refuses data dlc v.link.tx) none := by
    intro result herr hrefuses
    exact ⟨iff_of_true ⟨result, herr, rfl⟩ hrefuses, rfl⟩
  by_cases hcts : data.pciLow = 0
  · rw [if_pos hcts, if_pos hcts]
    obtain ⟨o, ho, hmirrors⟩ := mirrors_txSendConsecutiveFrames app resubmit resubmit₀ a past happ
      (v.setTx (v.link.tx.cleared (data.byte 1) (data.byte 2)
        (v.env.clock v.reads))).tick
    refine ⟨o, ho.reports ?_, hmirrors.prepend ((performs_setTx v ?_).trans (performs_tick _))⟩
    · intro ⟨_, _, hstatus⟩
      omega
    · exact .of_started (.inl hs) (by simp [TxSide.cleared])
  rw [if_neg hcts, if_neg hcts]
  by_cases hwait : data.pciLow = 1
  · rw [if_pos hwait, if_pos hwait]
    have hlog := performs_log v (e := .counted 8 (v.link.tx.txWaitCount + 1)) trivial
    by_cases hover : maxWft < v.link.tx.nextWaitCount
    · rw [if_pos hover, if_pos hover]
      exact ⟨.confirmed .errWftOvrn, hgivenUp _ (by decide) ⟨hs, hdlc, .inr ⟨hwait, hover⟩⟩,
        mirrors_txFinish resubmit₀ happ .errWftOvrn
          (hlog.trans (performs_setTx _ (.of_started (.inl hs) hbusy))) hbusy⟩
    · rw [if_neg hover, if_neg hover]
      refine ⟨.none, Outcome.Sends.reports (.inl rfl) ?_, .none ?_⟩
      · intro ⟨_, _, hstatus⟩
        exact hstatus.elim (by omega) (fun h => hover h.2)
      · refine (hlog.trans (performs_setTx _ ?_)).trans (performs_tick _)
        exact .of_started (.inl hs) hbusy
  rw [if_neg hwait, if_neg hwait]
  have hrefuses : Refuses data dlc v.link.tx := ⟨hs, hdlc, .inl (by omega)⟩
  by_cases hovflw : data.pciLow = 2
  · rw [if_pos hovflw, if_pos hovflw]
    exact ⟨.confirmed .errOverflow, hgivenUp _ (by decide) hrefuses,
      mirrors_txFinish resubmit₀ happ .errOverflow (.refl v) hbusy⟩
  · rw [if_neg hovflw, if_neg hovflw]
    exact ⟨.confirmed .errInvalidFs, hgivenUp _ (by decide) hrefuses,
      mirrors_txFinish resubmit₀ happ .errInvalidFs (.refl v) hbusy⟩

variable (app resubmit resubmit₀ a past) in
/-- The sender's part of `IsoTp_MainFunction`, which gives up exactly if N_Bs has expired. -/
theorem mirrors_txMainFunction (happ : app.Attentive) (v : World Unit Empty) :
    ∃ o : Outcome, o.Reports v.TxExpired none ∧
      Mirrors app resubmit v a past o (txMainFunction silent resubmit₀ v)
        (txMainFunction app resubmit (v.withApp a past)) := by
  have hcheck : ∀ u : World Unit Empty, v.Performs .none u → u.link.tx.txState ≠ .idle →
      u.now = v.now → u.link.tx.txTimerStart = v.link.tx.txTimerStart →
      (v.link.tx.txState = .sendFirst ∧ v.accepts = false ∨ v.link.tx.txState = .waitFc) →
      ∃ o : Outcome, o.Reports v.TxExpired none ∧
        Mirrors app resubmit v a past o (txCheckTimeout silent resubmit₀ u)
          (txCheckTimeout app resubmit (u.withApp a past)) := by
    intro u hperforms hbusy hnow htimer hwaits
    unfold txCheckTimeout
    simp only [link_withApp, now_withApp, ← withApp_tick, hnow, htimer, hperforms.cfg]
    by_cases hexpired : v.link.cfg.nBsTimeoutMs ≤ elapsed v.now v.link.tx.txTimerStart
    · rw [if_pos hexpired, if_pos hexpired]
      exact ⟨.confirmed .errTimeoutBs, ⟨iff_of_true ⟨_, by decide, rfl⟩ ⟨hwaits, hexpired⟩, rfl⟩,
        mirrors_txFinish resubmit₀ happ .errTimeoutBs (hperforms.trans (performs_tick u)) hbusy⟩
    · rw [if_neg hexpired, if_neg hexpired]
      exact ⟨.none, Outcome.Sends.reports (.inl rfl) fun h => hexpired h.2,
        .none (hperforms.trans (performs_tick u))⟩
  unfold txMainFunction
  rw [link_withApp]
  cases hs : v.link.tx.txState with
  | idle =>
      refine ⟨.none, Outcome.Sends.reports (.inl rfl) ?_, .none (.refl v)⟩
      intro ⟨hwaits, _⟩
      simp [hs] at hwaits
  | sendFirst =>
      obtain ⟨hflag, o, ho, hmirrors⟩ :=
        mirrors_txSendFirst app resubmit resubmit₀ a past happ hs
      simp only [hflag]
      by_cases htaken : (txSendFirst silent resubmit₀ v).1 = true
      · rw [if_pos htaken, if_pos htaken]
        refine ⟨o, ho.reports ?_, hmirrors⟩
        intro ⟨hwaits, _⟩
        have hacc : v.accepts = true := by
          by_contra hrefused
          rw [txSendFirst_eq] at htaken
          simp [hrefused] at htaken
        simp [hs, hacc] at hwaits
      · have hrefused : v.accepts = false := by
          by_contra htrue
          rw [txSendFirst_eq] at htaken
          simp [htrue] at htaken
        rw [if_neg htaken, if_neg htaken, txSendFirst_refused silent resubmit₀ htaken,
          txSendFirst_refused app resubmit (by rwa [hflag]), ← withApp_offeredFirst]
        refine hcheck _ ?_ ?_ rfl rfl (.inl ⟨hs, hrefused⟩)
        · exact (performs_log v (by trivial)).trans (performs_sendFrame _ _)
        · show v.link.tx.txState ≠ .idle
          simp [hs]
  | waitFc => exact hcheck v (.refl v) (by simp [hs]) rfl rfl (.inr hs)
  | sendCf =>
      obtain ⟨o, ho, hmirrors⟩ :=
        mirrors_txSendConsecutiveFrames app resubmit resubmit₀ a past happ v
      refine ⟨o, ho.reports ?_, hmirrors⟩
      intro ⟨hwaits, _⟩
      simp [hs] at hwaits

/-! ### The receiver -/

theorem performs_rxSendFlowControl (status : Nat) (v : World Unit Empty) :
    v.Performs .none (rxSendFlowControl status v) := by
  rw [rxSendFlowControl_eq]
  exact (performs_sendFrame v _).trans (performs_setRx _ _)

variable (app resubmit resubmit₀ a past) in
theorem mirrors_interrupted (happ : app.Attentive) (v : World Unit Empty) :
    Mirrors app resubmit v a past .none (interrupted silent resubmit₀ v)
      (interrupted app resubmit (v.withApp a past)) := by
  unfold interrupted
  rw [link_withApp]
  split
  · exact mirrors_rxFinish_error resubmit₀ happ (by decide) (.refl v)
  · exact .none (.refl v)

/-- The message of a well-formed SF. -/
def singleMessage (l : Link) (data : Frame) (dlc : Nat) : Option Bytes :=
  if data.pciLow = 0 ∨ 7 < data.pciLow ∨ dlc - 1 < data.pciLow ∨
      l.cfg.rxBufferSize < data.pciLow then none
  else some (slice data.bytes 1 data.pciLow)

/-- The message of which the CF is the last frame. -/
def lastMessage (r : RxSide) (data : Frame) (dlc : Nat) : Option Bytes :=
  if r.rxState ≠ .receiving then none
  else if data.pciLow ≠ r.rxSeq then none
  else if dlc - 1 < r.chunk then none
  else if r.rxLength ≤ (r.rxOffset + r.chunk) % 2 ^ 16 then
    some ((copy r.rxBuffer r.rxOffset (slice data.bytes 1 r.chunk)).take r.rxLength)
  else none

/-- The message that is complete once the frame has arrived. -/
def completed (l : Link) (data : Frame) (dlc : Nat) : Option Bytes :=
  if dlc = 0 ∨ canDl < dlc then none
  else if data.pciType = pciTypeSf then singleMessage l data dlc
  else if data.pciType = pciTypeCf then lastMessage l.rx data dlc
  else none

variable (app resubmit resubmit₀ a past) in
theorem mirrors_delivery {u : World Unit Empty} {e : Event Empty} (he : e.Neutral) (r : RxSide)
    (h : u.Performs .none v) :
    Mirrors app resubmit u a past (.received (r.rxBuffer.take r.rxLength))
      (rxFinish silent resubmit₀ .ok ((v.log e).setRx r))
      (rxFinish app resubmit .ok (((v.withApp a past).log e.lift).setRx r)) := by
  have hmirrors := mirrors_rxFinish_ok app resubmit resubmit₀ a past
    ((h.trans (performs_log v he)).trans (performs_setRx _ r))
  rwa [withApp_setRx, withApp_log] at hmirrors

variable (app resubmit resubmit₀ a past) in
theorem mirrors_rxOnSingleFrame (happ : app.Attentive) (data : Frame) (dlc : Nat)
    (v : World Unit Empty) :
    Mirrors app resubmit v a past (.ofMessage (singleMessage v.link data dlc))
      (rxOnSingleFrame silent resubmit₀ data dlc v)
      (rxOnSingleFrame app resubmit data dlc (v.withApp a past)) := by
  obtain ⟨hperforms, hinterrupted⟩ := mirrors_interrupted app resubmit resubmit₀ a past happ v
  rw [rxOnSingleFrame_eq, rxOnSingleFrame_eq, link_withApp, hinterrupted, singleMessage]
  split
  · exact .none (.refl v)
  · rename_i hform
    have hlen : (slice data.bytes 1 data.pciLow).length = data.pciLow := by
      apply length_slice
      rw [data.length_bytes]
      omega
    have htake : ∀ buffer, (copy buffer 0 (slice data.bytes 1 data.pciLow)).take data.pciLow =
        slice data.bytes 1 data.pciLow := by
      intro buffer
      have htake := take_copy_zero buffer (slice data.bytes 1 data.pciLow)
      rwa [hlen] at htake
    have hmirrors := mirrors_delivery app resubmit resubmit₀ a past (e := .rxWrite 0 data.pciLow)
      trivial { (interrupted silent resubmit₀ v).link.rx with
        rxBuffer := copy (interrupted silent resubmit₀ v).link.rx.rxBuffer 0
          (slice data.bytes 1 data.pciLow)
        rxLength := data.pciLow } hperforms
    rw [htake] at hmirrors
    exact hmirrors

theorem withApp_storedCf (data : Bytes) (v : World Unit Empty) (a : σ) (past : List (Event ε)) :
    (storedCf data v).withApp a past = storedCf data (v.withApp a past) := by
  rw [storedCf, withApp_tick, withApp_setRx, withApp_log, withApp_log]
  rfl

variable (app resubmit resubmit₀ a past) in
theorem mirrors_rxOnFirstFrame (happ : app.Attentive) (data : Frame) (dlc : Nat)
    (v : World Unit Empty) :
    Mirrors app resubmit v a past .none (rxOnFirstFrame silent resubmit₀ data dlc v)
      (rxOnFirstFrame app resubmit data dlc (v.withApp a past)) := by
  obtain ⟨hperforms, hinterrupted⟩ := mirrors_interrupted app resubmit resubmit₀ a past happ v
  have heq : rxOnFirstFrame app resubmit data dlc (v.withApp a past) =
      (rxOnFirstFrame silent resubmit₀ data dlc v).withApp a past := by
    rw [rxOnFirstFrame_eq, rxOnFirstFrame_eq, hinterrupted]
    generalize interrupted silent resubmit₀ v = u
    simp only []
    split
    · rfl
    show (if u.link.cfg.rxBufferSize < _ then rxSendFlowControl 2 (u.withApp a past) else _) = _
    split
    · rw [withApp_rxSendFlowControl]
    · rw [withApp_rxSendFlowControl, withApp_tick, withApp_setRx, withApp_log]
      rfl
  rw [heq]
  refine .none ?_
  rw [rxOnFirstFrame_eq]
  simp only []
  split
  · exact .refl v
  split
  · exact hperforms.trans (performs_rxSendFlowControl _ _)
  · exact (((hperforms.trans (performs_log _ (by trivial))).trans (performs_setRx _ _)).trans
      (performs_tick _)).trans (performs_rxSendFlowControl _ _)

variable (app resubmit) in
theorem afterStored_withApp (v : World Unit Empty) (a : σ) (past : List (Event ε)) :
    afterStored app resubmit (v.withApp a past) =
    if v.link.rx.rxLength ≤ v.link.rx.rxOffset then rxFinish app resubmit .ok (v.withApp a past)
    else if v.link.cfg.blockSize.toNat ≠ 0 then
      if v.link.cfg.blockSize.toNat ≤ v.link.rx.nextBlockCount then
        rxSendFlowControl 0 (((v.log (.counted 8 (v.link.rx.rxBlockCount + 1))).setRx
          { v.link.rx with rxBlockCount := 0 }).withApp a past)
      else ((v.log (.counted 8 (v.link.rx.rxBlockCount + 1))).setRx
        { v.link.rx with rxBlockCount := v.link.rx.nextBlockCount }).withApp a past
    else v.withApp a past := by
  simp only [withApp_setRx, withApp_log]
  rfl

variable (app resubmit) in
theorem rxOnConsecutiveFrame_withApp (data : Frame) (dlc : Nat) (v : World Unit Empty) (a : σ)
    (past : List (Event ε)) :
    rxOnConsecutiveFrame app resubmit data dlc (v.withApp a past) =
    if v.link.rx.rxState ≠ .receiving then v.withApp a past
    else if data.pciLow ≠ v.link.rx.rxSeq then rxFinish app resubmit .errWrongSn (v.withApp a past)
    else if dlc - 1 < v.link.rx.chunk then v.withApp a past
    else afterStored app resubmit
      ((storedCf (slice data.bytes 1 v.link.rx.chunk) v).withApp a past) := by
  rw [rxOnConsecutiveFrame_eq, withApp_storedCf]
  rfl

variable (app resubmit resubmit₀ a past) in
theorem mirrors_afterStored {u v : World Unit Empty} (h : u.Performs .none v) :
    Mirrors app resubmit u a past
      (.ofMessage (if v.link.rx.rxLength ≤ v.link.rx.rxOffset then
        some (v.link.rx.rxBuffer.take v.link.rx.rxLength) else none))
      (afterStored silent resubmit₀ v) (afterStored app resubmit (v.withApp a past)) := by
  rw [afterStored_withApp, afterStored]
  have hlog := h.trans (performs_log v (e := .counted 8 (v.link.rx.rxBlockCount + 1)) trivial)
  by_cases hend : v.link.rx.rxLength ≤ v.link.rx.rxOffset
  · rw [if_pos hend, if_pos hend, if_pos hend]
    exact mirrors_rxFinish_ok app resubmit resubmit₀ a past h
  rw [if_neg hend, if_neg hend, if_neg hend]
  by_cases hblock : v.link.cfg.blockSize.toNat ≠ 0
  · rw [if_pos hblock, if_pos hblock]
    by_cases hcount : v.link.cfg.blockSize.toNat ≤ v.link.rx.nextBlockCount
    · rw [if_pos hcount, if_pos hcount]
      exact ⟨(hlog.trans (performs_setRx _ _)).trans (performs_rxSendFlowControl _ _),
        (withApp_rxSendFlowControl _ a past 0).symm⟩
    · rw [if_neg hcount, if_neg hcount]
      exact .none (hlog.trans (performs_setRx _ _))
  · rw [if_neg hblock, if_neg hblock]
    exact ⟨h, rfl⟩

variable (app resubmit resubmit₀ a past) in
theorem mirrors_rxOnConsecutiveFrame (happ : app.Attentive) (data : Frame) (dlc : Nat)
    (v : World Unit Empty) :
    Mirrors app resubmit v a past (.ofMessage (lastMessage v.link.rx data dlc))
      (rxOnConsecutiveFrame silent resubmit₀ data dlc v)
      (rxOnConsecutiveFrame app resubmit data dlc (v.withApp a past)) := by
  rw [rxOnConsecutiveFrame_withApp, rxOnConsecutiveFrame_eq, lastMessage]
  by_cases hs : v.link.rx.rxState ≠ .receiving
  · rw [if_pos hs, if_pos hs, if_pos hs]
    exact .none (.refl v)
  rw [if_neg hs, if_neg hs, if_neg hs]
  by_cases hseq : data.pciLow ≠ v.link.rx.rxSeq
  · rw [if_pos hseq, if_pos hseq, if_pos hseq]
    exact mirrors_rxFinish_error resubmit₀ happ (by decide) (.refl v)
  rw [if_neg hseq, if_neg hseq, if_neg hseq]
  by_cases hshort : dlc - 1 < v.link.rx.chunk
  · rw [if_pos hshort, if_pos hshort, if_pos hshort]
    exact .none (.refl v)
  rw [if_neg hshort, if_neg hshort, if_neg hshort]
  refine mirrors_afterStored app resubmit resubmit₀ a past
    (v := storedCf (slice data.bytes 1 v.link.rx.chunk) v) ?_
  exact (((performs_log v (e := .rxWrite v.link.rx.rxOffset v.link.rx.chunk) trivial).trans
    (performs_log _ (e := .counted 16 (v.link.rx.rxOffset + v.link.rx.chunk)) trivial)).trans
    (performs_setRx _ _)).trans (performs_tick _)

/-! ### Calls -/

/-- The call gives the transmission in progress up. -/
def Aborts (l : Link) (env : Env) : Call → Prop
  | .transmit _ => False
  | .rxFrame data dlc => dlc ≤ 8 ∧ data.pciType = 3 ∧ Refuses data dlc l.tx
  | .mainFunction =>
      (l.tx.txState = .sendFirst ∧ env.driver (if l.rx.rxFcPending then 1 else 0) = false ∨
        l.tx.txState = .waitFc) ∧
      l.cfg.nBsTimeoutMs ≤
        elapsed (env.clock (if l.rx.rxState = .receiving then 1 else 0) % 2 ^ 32) l.tx.txTimerStart

instance (l : Link) (env : Env) : (c : Call) → Decidable (Aborts l env c)
  | .transmit _ => inferInstanceAs (Decidable False)
  | .rxFrame _ _ => inferInstanceAs (Decidable (_ ∧ _ ∧ _))
  | .mainFunction => inferInstanceAs (Decidable (_ ∧ _))

variable (app resubmit resubmit₀ a past) in
theorem mirrors_rxFrame (happ : app.Attentive) (data : Frame) (dlc : Nat) (v : World Unit Empty) :
    ∃ o : Outcome, o.Reports (Aborts v.link v.env (.rxFrame data dlc)) (completed v.link data dlc) ∧
      Mirrors app resubmit v a past o (rxFrame silent resubmit₀ data dlc v)
        (rxFrame app resubmit data dlc (v.withApp a past)) := by
  have hother : data.pciType ≠ 3 → ¬ Aborts v.link v.env (.rxFrame data dlc) :=
    fun hne haborts => hne haborts.2.1
  unfold rxFrame completed
  split
  next hdlc =>
    refine ⟨.none, Outcome.reports_ofMessage none ?_, .none (.refl v)⟩
    intro ⟨hle, _, _, hge, _⟩
    simp only [canDl] at hdlc
    omega
  next hdlc =>
    simp only [canDl, not_or, Nat.not_lt] at hdlc
    simp only [pciTypeSf, pciTypeFf, pciTypeCf, pciTypeFc]
    by_cases hsf : data.pciType = 0
    · simp only [if_pos hsf]
      exact ⟨_, Outcome.reports_ofMessage _ (hother (by omega)),
        mirrors_rxOnSingleFrame app resubmit resubmit₀ a past happ data dlc v⟩
    simp only [if_neg hsf]
    by_cases hff : data.pciType = 1
    · simp only [if_pos hff, if_neg (show data.pciType ≠ 2 by omega)]
      exact ⟨_, Outcome.reports_ofMessage none (hother (by omega)),
        mirrors_rxOnFirstFrame app resubmit resubmit₀ a past happ data dlc v⟩
    simp only [if_neg hff]
    by_cases hcf : data.pciType = 2
    · simp only [if_pos hcf]
      exact ⟨_, Outcome.reports_ofMessage _ (hother (by omega)),
        mirrors_rxOnConsecutiveFrame app resubmit resubmit₀ a past happ data dlc v⟩
    simp only [if_neg hcf]
    by_cases hfc : data.pciType = 3
    · simp only [if_pos hfc]
      obtain ⟨o, ho, hmirrors⟩ :=
        mirrors_txOnFlowControl app resubmit resubmit₀ a past happ data dlc v
      refine ⟨o, ⟨ho.aborts.trans ?_, ho.message⟩, hmirrors⟩
      exact ⟨fun h => ⟨hdlc.2, hfc, h⟩, fun h => h.2.2⟩
    · simp only [if_neg hfc]
      exact ⟨.none, Outcome.reports_ofMessage none (hother hfc), .none (.refl v)⟩

theorem withApp_retried (v : World Unit Empty) (a : σ) (past : List (Event ε)) :
    (retried v).withApp a past =
      if v.link.rx.rxFcPending then rxSendFlowControl v.link.rx.rxFcStatus (v.withApp a past)
      else v.withApp a past := by
  unfold retried
  split
  · exact withApp_rxSendFlowControl v a past _
  · rfl

theorem performs_retried (v : World Unit Empty) : v.Performs .none (retried v) := by
  unfold retried
  split
  · exact performs_rxSendFlowControl _ v
  · exact .refl v

variable (resubmit₀) in
theorem rxMainFunction_eq (v : World Unit Empty) : rxMainFunction silent resubmit₀ v =
    if (retried v).link.rx.rxState = .receiving then
      if (retried v).link.cfg.nCrTimeoutMs ≤
          elapsed (retried v).now (retried v).link.rx.rxTimerStart then
        rxFinish silent resubmit₀ .errTimeoutCr (retried v).tick
      else (retried v).tick
    else retried v := rfl

variable (app resubmit resubmit₀ a past) in
theorem mirrors_rxMainFunction (happ : app.Attentive) (v : World Unit Empty) :
    Mirrors app resubmit v a past .none (rxMainFunction silent resubmit₀ v)
      (rxMainFunction app resubmit (v.withApp a past)) := by
  have hretried := performs_retried v
  have heq : rxMainFunction app resubmit (v.withApp a past) =
      if (retried v).link.rx.rxState = .receiving then
        if (retried v).link.cfg.nCrTimeoutMs ≤
            elapsed (retried v).now (retried v).link.rx.rxTimerStart then
          rxFinish app resubmit .errTimeoutCr ((retried v).tick.withApp a past)
        else (retried v).tick.withApp a past
      else (retried v).withApp a past := by
    have hw : (if (v.withApp a past).link.rx.rxFcPending then
        rxSendFlowControl (v.withApp a past).link.rx.rxFcStatus (v.withApp a past)
        else v.withApp a past) = (retried v).withApp a past := (withApp_retried v a past).symm
    simp only [rxMainFunction, hw, withApp_tick]
    rfl
  rw [heq, rxMainFunction_eq]
  split
  · split
    · exact mirrors_rxFinish_error resubmit₀ happ (by decide) (hretried.trans (performs_tick _))
    · exact .none (hretried.trans (performs_tick _))
  · exact .none hretried

variable (resubmit₀) in
/-- The sender's timer is checked with the readings and answers that the receiver leaves. -/
theorem txExpired_rxMainFunction (l : Link) (env : Env) :
    (rxMainFunction silent resubmit₀ { link := l, app := (), env := env }).TxExpired ↔
      Aborts l env .mainFunction := by
  generalize hv : ({ link := l, app := (), env := env } : World Unit Empty) = v
  have hretried : (retried v).link.tx = l.tx ∧ (retried v).link.cfg = l.cfg ∧
      (retried v).link.rx.rxState = l.rx.rxState ∧ (retried v).env = env ∧ (retried v).reads = 0 ∧
      (retried v).sends = if l.rx.rxFcPending then 1 else 0 := by
    subst hv
    obtain ⟨heq, hpending⟩ | ⟨hpending, heq⟩ := retried_eq { link := l, app := (), env := env }
    · have hpending : l.rx.rxFcPending = false := hpending
      rw [heq, hpending]
      exact ⟨rfl, rfl, rfl, rfl, rfl, rfl⟩
    · have hpending : l.rx.rxFcPending = true := hpending
      rw [heq, hpending]
      refine ⟨rfl, rfl, ?_, rfl, rfl, rfl⟩
      simp only [World.rx_setRx, RxSide.answered]
      split <;> rfl
  obtain ⟨htx, hcfg, hstate, henv, hreads, hsends⟩ := hretried
  have hiff : ∀ w : World Unit Empty, w.link.tx = l.tx → w.link.cfg = l.cfg → w.env = env →
      w.sends = (if l.rx.rxFcPending then 1 else 0) →
      w.reads = (if l.rx.rxState = .receiving then 1 else 0) →
      (w.TxExpired ↔ Aborts l env .mainFunction) := by
    intro w htx hcfg henv hsends hreads
    rw [World.TxExpired, World.accepts, World.now, htx, hcfg, henv, hsends, hreads]
    rfl
  rw [rxMainFunction_eq, hstate]
  split
  next hs =>
    split
    · rw [rxFinish_silent]
      exact hiff _ htx hcfg henv hsends (by simp [hreads, hs])
    · exact hiff _ htx hcfg henv hsends (by simp [hreads, hs])
  next hs => exact hiff _ htx hcfg henv hsends (by simp [hreads, hs])

variable (app resubmit resubmit₀ a past) in
theorem mirrors_mainFunction (happ : app.Attentive) (l : Link) (env : Env) :
    ∃ o : Outcome, o.Reports (Aborts l env .mainFunction) none ∧
      Mirrors app resubmit { link := l, app := (), env := env } a past o
        (mainFunction silent resubmit₀ { link := l, app := (), env := env })
        (mainFunction app resubmit (World.withApp { link := l, app := (), env := env } a past)) := by
  obtain ⟨hperforms, hrx⟩ := mirrors_rxMainFunction app resubmit resubmit₀ a past happ
    { link := l, app := (), env := env }
  obtain ⟨o, ho, hmirrors⟩ := mirrors_txMainFunction app resubmit resubmit₀ a past happ
    (rxMainFunction silent resubmit₀ { link := l, app := (), env := env })
  rw [mainFunction, mainFunction, hrx]
  exact ⟨o, ⟨ho.aborts.trans (txExpired_rxMainFunction resubmit₀ l env), ho.message⟩,
    hmirrors.prepend hperforms⟩

/-! ### Transmissions -/

theorem withApp_accepted (m : Bytes) (v : World Unit Empty) (a : σ) (past : List (Event ε)) :
    (accepted m v).withApp a past = accepted m (v.withApp a past) := by
  rw [accepted, withApp_tick, withApp_setTx, withApp_log, withApp_log]
  rfl

/-- What `IsoTp_Transmit` answers. -/
def transmitResult (l : Link) (m : Bytes) : Result :=
  if m.length = 0 ∨ maxMessageLen < m.length ∨ l.cfg.txBufferSize < m.length then .errParam
  else if l.tx.txState ≠ .idle then .errBusy
  else .ok

variable (app resubmit a past) in
/-- A rejected message leaves nothing but the answer. -/
theorem transmitWith_rejected {m : Bytes} {w : World σ ε} (h : transmitResult w.link m ≠ .ok) :
    transmitWith app resubmit m w =
      (transmitResult w.link m, w.log (.transmit m (transmitResult w.link m))) := by
  rw [transmitWith_eq]
  unfold transmitResult at h ⊢
  simp only [maxMessageLen] at h ⊢
  split
  · rfl
  · rename_i hfits
    rw [if_neg hfits] at h
    split
    · rfl
    · rename_i hidle
      rw [if_neg hidle] at h
      exact absurd rfl h

variable (app resubmit resubmit₀ a past) in
/-- A message that is taken is at once offered to the driver. -/
theorem mirrors_transmitWith (happ : app.Attentive) {m : Bytes} {v : World Unit Empty}
    (h : transmitResult v.link m = .ok) :
    ∃ o : Outcome, o.Sends ∧
      Mirrors app resubmit (accepted m v) a past o (transmitWith silent resubmit₀ m v).2
        (transmitWith app resubmit m (v.withApp a past)).2 := by
  have htaken : ∀ (σ' ε' : Type) (app' : App σ' ε') (res : Bytes → World σ' ε' → World σ' ε')
      (w : World σ' ε'), w.link = v.link →
      (transmitWith app' res m w).2 = (txSendFirst app' res (accepted m w)).2 := by
    intro σ' ε' app' res w hw
    rw [← hw] at h
    rw [transmitWith_eq]
    unfold transmitResult at h
    simp only [maxMessageLen] at h
    split at h
    · cases h
    · rename_i hfits
      split at h
      · cases h
      · rename_i hidle
        rw [if_neg hfits, if_neg hidle]
  obtain ⟨-, o, ho, hmirrors⟩ := mirrors_txSendFirst app resubmit resubmit₀ a past happ
    (v := accepted m v) rfl
  rw [htaken _ _ silent resubmit₀ v rfl, htaken _ _ app resubmit (v.withApp a past) rfl,
    ← withApp_accepted]
  exact ⟨o, ho, hmirrors⟩

/-! ### A transmission in any world -/

/-- The world with nobody behind the link, before anything has happened. -/
def World.bare (w : World σ ε) : World Unit Empty where
  link := w.link
  app := ()
  env := w.env
  reads := w.reads
  sends := w.sends

theorem withApp_bare (w : World σ ε) : w.bare.withApp w.app w.events = w := by
  simp [World.bare, World.withApp]

variable (app resubmit resubmit₀) in
/-- A message that is taken is out at once, or it waits in the sender. -/
theorem transmitWith_taken (happ : app.Attentive) {m : Bytes} {w : World σ ε}
    (h : transmitResult w.link m = .ok) :
    ∃ o : Outcome, o.Sends ∧
      Mirrors app resubmit (accepted m w.bare) w.app w.events o
        (transmitWith silent resubmit₀ m w.bare).2 (transmitWith app resubmit m w).2 := by
  have hmirrors := mirrors_transmitWith app resubmit resubmit₀ w.app w.events happ
    (show transmitResult w.bare.link m = .ok from h)
  rwa [withApp_bare] at hmirrors

end Mirrors

end MiniEcu.IsoTp
