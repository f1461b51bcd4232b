import MiniEcu.IsoTp.Deliveries
import MiniEcu.IsoTp.Outcomes

/-!
# A transmission on a dead bus

From some point on the driver refuses every frame and no flow control arrives. A transmission that
waits for its first frame to be taken or for a flow control is given up by the first call of the
main function that finds N_Bs elapsed, and reports so once. The link may then take another message,
which waits for its own timeout in the same way. A transmission in the middle of its consecutive
frames is not given up: that state has no timeout, and the link stays busy for good.
-/

namespace MiniEcu.IsoTp

open Memory Trace

/-- No frame gets out, and no flow control comes in. -/
def DeadBus (i : Env × Call) : Prop :=
  (∀ k, i.1.driver k = false) ∧
    match i.2 with
    | .rxFrame data _ => data.pciType ≠ pciTypeFc
    | .transmit _ | .mainFunction => True

/-- `IsoTp_Transmit` takes the message: the sender is idle and the message fits. -/
def Takes (s : Link × Unit) (i : Env × Call) : Prop :=
  match i.2 with
  | .transmit m => s.1.tx.txState = .idle ∧ m.length ≠ 0 ∧ m.length ≤ maxMessageLen ∧
      m.length ≤ s.1.cfg.txBufferSize
  | .rxFrame _ _ | .mainFunction => False

/-- A call of the main function reads a clock that is at least N_Bs past the start of the sender's
timer. The receiver reads the clock first if it is receiving. -/
def NBsElapsed (s : Link × Unit) (i : Env × Call) : Prop :=
  i.2 = .mainFunction ∧
    s.1.cfg.nBsTimeoutMs ≤ elapsed
      (i.1.clock (if s.1.rx.rxState = .receiving then 1 else 0) % 2 ^ 32) s.1.tx.txTimerStart

def Event.confirmation {ε : Type} : Event ε → Option Result
  | .txConfirmation result => some result
  | _ => none

/-- The confirmations a trace shows before the next message is taken: those of the message that is
pending where the trace begins. -/
def confirmations {ε : Type} (es : List (Event ε)) : List Result :=
  (es.takeWhile fun e => !e.accepts).filterMap Event.confirmation

/-- The sender is idle, and has confirmed the message once, with an error. -/
def Settled (l : Link) (es : List (Event Empty)) : Prop :=
  l.tx.txState = .idle ∧ ∃ result, result ≠ .ok ∧ confirmations es = [result]

theorem confirmations_append {es : List (Event Empty)} (h : ∀ e ∈ es, e.Incoming)
    (fs : List (Event Empty)) : confirmations (es ++ fs) = confirmations fs := by
  induction es with
  | nil => rfl
  | cons e es ih =>
      have hin := h e List.mem_cons_self
      have hrest := ih fun e he => h e (List.mem_cons_of_mem _ he)
      cases e with
      | txConfirmation result => exact absurd hin id
      | transmit m result => exact absurd hin id
      | _ => exact hrest

/-! ### The sender on a dead bus -/

section Sender

/-- `w'` is `w` after its transmission has been given up. -/
def World.TimesOut (w w' : World Unit Empty) : Prop :=
  ∃ es, w'.events = w.events ++ (es ++ [.txConfirmation .errTimeoutBs]) ∧ ∀ e ∈ es, e.Incoming

theorem World.Hears.timesOut {u v w : World Unit Empty} (h : u.Hears v) (hout : v.TimesOut w) :
    u.TimesOut w := by
  obtain ⟨es, hes, hin⟩ := h
  obtain ⟨fs, hfs, hin'⟩ := hout
  refine ⟨es ++ fs, ?_, List.forall_mem_append.mpr ⟨hin, hin'⟩⟩
  rw [hfs, hes, List.append_assoc, List.append_assoc]

theorem hears_offeredFirst (w : World Unit Empty) : w.Hears (offeredFirst w) :=
  ⟨_, List.append_assoc _ [_] [_], by simp [Event.Incoming]⟩

variable {resubmit : Bytes → World Unit Empty → World Unit Empty} {w : World Unit Empty}
  (hdead : ∀ k, w.env.driver k = false)
include hdead

variable (resubmit) in
theorem dead_txSendFirst : txSendFirst silent resubmit w = (false, offeredFirst w) := by
  have hrefused : w.accepts = false := hdead _
  rw [txSendFirst_eq, hrefused]
  rfl

variable (resubmit) in
theorem dead_txSendConsecutiveFrames (hs : w.link.tx.txState = .sendCf) :
    (txSendConsecutiveFrames silent resubmit w).link = w.link ∧
      w.Hears (txSendConsecutiveFrames silent resubmit w) := by
  have hrefused : (pacedCf w).accepts = false := by
    rw [World.accepts, env_pacedCf]
    exact hdead _
  have hpaced : w.Hears (pacedCf w) := by
    unfold pacedCf
    split
    · exact ⟨[.getTimeMs (w.env.clock w.reads)], rfl, by simp [Event.Incoming]⟩
    · exact .refl w
  have hoffered : (pacedCf w).Hears (offeredCf w) :=
    ⟨_, List.append_assoc _ [_] [_], by simp [Event.Incoming]⟩
  have hlink : (offeredCf w).link = w.link := by simp [offeredCf]
  have hturn := txCfIteration_eq silent resubmit w
  simp only [txSendConsecutiveFrames, txCfLoop, if_pos hs]
  rw [hrefused] at hturn
  by_cases hearly :
      0 < w.link.tx.txStMinMs ∧ elapsed w.now w.link.tx.txLastCfTime ≤ w.link.tx.txStMinMs
  · rw [if_pos hearly] at hturn
    rw [hturn]
    exact ⟨link_pacedCf w, hpaced⟩
  · rw [if_neg hearly] at hturn
    rw [hturn]
    exact ⟨hlink, hpaced.trans hoffered⟩

omit hdead in
variable (resubmit) in
theorem txCheckTimeout_silent (v : World Unit Empty) :
    let out := txCheckTimeout silent resubmit v
    if v.link.cfg.nBsTimeoutMs ≤ elapsed v.now v.link.tx.txTimerStart then
      out.link.tx = { v.link.tx with txState := .idle } ∧ v.TimesOut out
    else out.link.tx = v.link.tx ∧ v.Hears out := by
  simp only [txCheckTimeout]
  split
  · rw [txFinish_silent]
    exact ⟨rfl, [.getTimeMs (v.env.clock v.reads)], List.append_assoc _ [_] [_],
      by simp [Event.Incoming]⟩
  · exact ⟨rfl, _, rfl, by simp [Event.Incoming]⟩

variable (resubmit) in
/-- The sender's part of the main function: only the N_Bs check can end the transmission. -/
theorem dead_txMainFunction :
    let out := txMainFunction silent resubmit w
    if (w.link.tx.txState = .sendFirst ∨ w.link.tx.txState = .waitFc) ∧
        w.link.cfg.nBsTimeoutMs ≤ elapsed w.now w.link.tx.txTimerStart then
      out.link.tx = { w.link.tx with txState := .idle } ∧ w.TimesOut out
    else out.link.tx = w.link.tx ∧ w.Hears out := by
  cases hs : w.link.tx.txState with
  | idle =>
      simp only [txMainFunction, hs, reduceCtorEq, or_self, false_and, if_false]
      exact ⟨trivial, .refl w⟩
  | sendCf =>
      simp only [txMainFunction, hs, reduceCtorEq, or_self, false_and, if_false]
      obtain ⟨hlink, hheard⟩ := dead_txSendConsecutiveFrames resubmit hdead hs
      exact ⟨by rw [hlink], hheard⟩
  | waitFc =>
      have hcheck := txCheckTimeout_silent resubmit w
      simpa only [txMainFunction, hs, or_true, true_and] using hcheck
  | sendFirst =>
      have hfirst := dead_txSendFirst resubmit hdead
      have hoffer := hears_offeredFirst w
      have hcheck : if w.link.cfg.nBsTimeoutMs ≤ elapsed w.now w.link.tx.txTimerStart then _ else _ :=
        txCheckTimeout_silent resubmit (offeredFirst w)
      simp only [txMainFunction, hs, hfirst, true_or, true_and]
      by_cases hexpired : w.link.cfg.nBsTimeoutMs ≤ elapsed w.now w.link.tx.txTimerStart
      · rw [if_pos hexpired] at hcheck ⊢
        obtain ⟨htx, hout⟩ := hcheck
        exact ⟨htx, hoffer.timesOut hout⟩
      · rw [if_neg hexpired] at hcheck ⊢
        obtain ⟨htx, hout⟩ := hcheck
        exact ⟨htx, hoffer.trans hout⟩

end Sender

/-! ### Calls on a dead bus -/

section Calls

theorem rxMainFunction_hears (resubmit : Bytes → World Unit Empty → World Unit Empty)
    (w : World Unit Empty) :
    w.Hears (rxMainFunction silent resubmit w) ∧ (rxMainFunction silent resubmit w).env = w.env ∧
      (rxMainFunction silent resubmit w).reads
        = w.reads + if w.link.rx.rxState = .receiving then 1 else 0 := by
  have hretried : w.Hears (retried w) ∧ (retried w).env = w.env ∧ (retried w).reads = w.reads ∧
      (retried w).link.rx.rxState = w.link.rx.rxState := by
    rcases retried_eq w with ⟨heq, -⟩ | ⟨-, heq⟩
    · rw [heq]
      exact ⟨.refl w, rfl, rfl, rfl⟩
    · rw [heq]
      refine ⟨⟨_, rfl, by simp [Event.Incoming]⟩, rfl, rfl, ?_⟩
      cases w.accepts <;> rfl
  obtain ⟨hhears, henv, hreads, hstate⟩ := hretried
  have htick : (retried w).Hears (retried w).tick := ⟨_, rfl, by simp [Event.Incoming]⟩
  rw [rxMainFunction_retried, hstate]
  by_cases hs : w.link.rx.rxState = .receiving
  · rw [if_pos hs, if_pos hs]
    split
    · refine ⟨hhears.trans (htick.trans (hears_rxFinish _ _)), ?_⟩
      rw [rxFinish_silent]
      exact ⟨henv, congrArg (· + 1) hreads⟩
    · exact ⟨hhears.trans htick, henv, congrArg (· + 1) hreads⟩
  · rw [if_neg hs, if_neg hs]
    exact ⟨hhears, henv, hreads⟩

variable {l : Link} {i : Env × Call}

/-- A call that finds N_Bs elapsed, in a state that has this timeout. -/
def GivesUp (s : Link × Unit) (i : Env × Call) : Prop :=
  (s.1.tx.txState = .sendFirst ∨ s.1.tx.txState = .waitFc) ∧ NBsElapsed s i

theorem GivesUp.busy (h : GivesUp (l, ()) i) : l.tx.txState ≠ .idle := by
  intro hidle
  rw [GivesUp, hidle] at h
  exact absurd h.1 (by decide)

theorem Takes.idle (h : Takes (l, ()) i) : l.tx.txState = .idle := by
  obtain ⟨env, c⟩ := i
  cases c with
  | transmit m => exact h.1
  | _ => exact absurd h id

theorem sendFirst_or_waitFc {s : TxState} (hidle : s ≠ .idle) (hs : s ≠ .sendCf) :
    s = .sendFirst ∨ s = .waitFc := by
  cases s <;> simp_all

/-- What a call on a dead bus does to the sender, and what it lets see. -/
inductive DeadCall (s : Link × Unit) (i : Env × Call) (out : (Link × Unit) × List (Event Empty)) :
    Prop
  | givesUp (h : GivesUp s i) (htx : out.1.1.tx = { s.1.tx with txState := .idle })
      (hone : ∀ es, confirmations (out.2 ++ es) = .errTimeoutBs :: confirmations es)
  | takes (h : Takes s i) (hfirst : out.1.1.tx.txState = .sendFirst)
      (hnone : ∀ es, confirmations (out.2 ++ es) = [])
  | rests (hwaits : ¬ GivesUp s i) (htakes : ¬ Takes s i) (htx : out.1.1.tx = s.1.tx)
      (hnone : ∀ es, confirmations (out.2 ++ es) = confirmations es)

theorem confirmations_hears {w w' : World Unit Empty} (h : w.Hears w') (hw : w.events = [])
    (fs : List (Event Empty)) : confirmations (w'.events ++ fs) = confirmations fs := by
  obtain ⟨es, hes, hin⟩ := h
  rw [hes, hw, List.nil_append, confirmations_append hin]

theorem confirmations_timesOut {w w' : World Unit Empty} (h : w.TimesOut w') (hw : w.events = [])
    (fs : List (Event Empty)) :
    confirmations (w'.events ++ fs) = .errTimeoutBs :: confirmations fs := by
  obtain ⟨es, hes, hin⟩ := h
  rw [hes, hw, List.nil_append, List.append_assoc, confirmations_append hin]
  rfl

theorem dead_transmit (depth : Nat) {env : Env} {m : Bytes} (hdead : DeadBus (env, .transmit m)) :
    DeadCall (l, ()) (env, .transmit m) (call silent depth (l, ()) (env, .transmit m)) := by
  let w : World Unit Empty := { link := l, app := (), env }
  by_cases htakes : Takes (l, ()) (env, .transmit m)
  · obtain ⟨hidle, hpos, hmax, hfit⟩ := htakes
    have hgood : ¬ (m.length = 0 ∨ 4095 < m.length ∨ w.link.cfg.txBufferSize < m.length) :=
      not_or.mpr ⟨hpos, not_or.mpr ⟨Nat.not_lt.mpr hmax, Nat.not_lt.mpr hfit⟩⟩
    have hout : (transmitWith silent (nested silent depth) m w).2 = offeredFirst (accepted m w) := by
      rw [transmitWith_eq, if_neg hgood, if_neg (not_not.mpr hidle)]
      exact congrArg Prod.snd (dead_txSendFirst (w := accepted m w) _ hdead.1)
    refine .takes ⟨hidle, hpos, hmax, hfit⟩ (congrArg (·.link.tx.txState) hout) fun es => ?_
    exact congrArg (fun v : World Unit Empty => confirmations (v.events ++ es)) hout
  · have hout : ∃ result, result ≠ .ok ∧
        (transmitWith silent (nested silent depth) m w).2 = w.log (.transmit m result) := by
      rcases transmit_silent m w with hrejected | ⟨hidle, hpos, hmax, hfit, -⟩
      · exact hrejected
      · exact absurd ⟨hidle, hpos, hmax, hfit⟩ htakes
    obtain ⟨result, hresult, hout⟩ := hout
    refine .rests (fun h => Call.noConfusion h.2.1) htakes (congrArg (·.link.tx) hout) fun es => ?_
    have hrejected : confirmations ([.transmit m result] ++ es) = confirmations es := by
      cases result with
      | ok => exact absurd rfl hresult
      | _ => rfl
    exact (congrArg (fun v : World Unit Empty => confirmations (v.events ++ es)) hout).trans hrejected

theorem dead_rxFrame (depth : Nat) (hinv : LinkInv l) {env : Env} {data : Frame} {dlc : Nat}
    (hdead : DeadBus (env, .rxFrame data dlc)) :
    DeadCall (l, ()) (env, .rxFrame data dlc)
      (call silent depth (l, ()) (env, .rxFrame data dlc)) := by
  let w : World Unit Empty := { link := l, app := (), env }
  have hheard : w.Hears (rxFrame silent (nested silent depth) data dlc w) :=
    hears_rxFrame hdead.2 dlc w
  have hreceives : Receives w (decode data dlc) (rxFrame silent (nested silent depth) data dlc w) :=
    receives_rxFrame hinv.rx hdead.2
  exact .rests (fun h => Call.noConfusion h.2.1) id hreceives.tx (confirmations_hears hheard rfl)

/-- The receiver may read the clock before the sender does. -/
theorem dead_mainFunction (depth : Nat) {env : Env} (hdead : DeadBus (env, .mainFunction)) :
    DeadCall (l, ()) (env, .mainFunction) (call silent depth (l, ()) (env, .mainFunction)) := by
  let w : World Unit Empty := { link := l, app := (), env }
  obtain ⟨hhears, henv, hreads⟩ := rxMainFunction_hears (nested silent depth) w
  obtain ⟨hcfg, htx, -⟩ := rxMainFunction_rx (nested silent depth) w
  have hmain := dead_txMainFunction (nested silent depth)
    (w := rxMainFunction silent (nested silent depth) w) (by rw [henv]; exact hdead.1)
  have hreads : (rxMainFunction silent (nested silent depth) w).reads
      = if l.rx.rxState = .receiving then 1 else 0 := hreads.trans (Nat.zero_add _)
  simp only [hcfg, htx, World.now, henv, hreads] at hmain
  by_cases hgives : (l.tx.txState = .sendFirst ∨ l.tx.txState = .waitFc) ∧
      l.cfg.nBsTimeoutMs ≤ elapsed
        (env.clock (if l.rx.rxState = .receiving then 1 else 0) % 2 ^ 32) l.tx.txTimerStart
  · rw [if_pos hgives] at hmain
    obtain ⟨htx', hout⟩ := hmain
    exact .givesUp ⟨hgives.1, rfl, hgives.2⟩ htx'
      (confirmations_timesOut (hhears.timesOut hout) rfl)
  · rw [if_neg hgives] at hmain
    obtain ⟨htx', hout⟩ := hmain
    exact .rests (fun h => hgives ⟨h.1, h.2.2⟩) id htx' (confirmations_hears (hhears.trans hout) rfl)

/-- A call gives the transmission up, takes a message that then waits for its first frame to get
out, or leaves the sender as it is. -/
theorem dead_call (depth : Nat) (hinv : LinkInv l) (hdead : DeadBus i) :
    DeadCall (l, ()) i (call silent depth (l, ()) i) := by
  obtain ⟨env, c⟩ := i
  cases c with
  | transmit m => exact dead_transmit depth hdead
  | rxFrame data dlc => exact dead_rxFrame depth hinv hdead
  | mainFunction => exact dead_mainFunction depth hdead

end Calls

/-! ### Every continuation -/

section Continuations

variable {l : Link} {calls : List (Env × Call)} (depth : Nat) (hinv : LinkInv l)
  (hdead : ∀ i ∈ calls, DeadBus i)
include hinv hdead

/-- In the middle of its consecutive frames the sender stays there. -/
theorem dead_sendCf (hs : l.tx.txState = .sendCf) :
    (run (call silent depth) (l, ()) calls).1.1.tx.txState = .sendCf := by
  induction calls generalizing l with
  | nil => exact hs
  | cons i calls ih =>
      rw [List.forall_mem_cons] at hdead
      apply ih (linkInv_call hinv depth i) hdead.2
      cases dead_call depth hinv hdead.1 with
      | givesUp h =>
          rw [GivesUp, hs] at h
          exact absurd h.1 (by decide)
      | takes h => exact absurd (hs.symm.trans h.idle) (by decide)
      | rests _ _ htx => exact (congrArg TxSide.txState htx).trans hs

/-- From anywhere else it comes to rest exactly if what is pending, and whatever is taken on the
way, finds N_Bs elapsed. -/
theorem dead_idle_iff (hs : l.tx.txState ≠ .sendCf) :
    (run (call silent depth) (l, ()) calls).1.1.tx.txState = .idle ↔
      (l.tx.txState ≠ .idle → Sometime (call silent depth) NBsElapsed (l, ()) calls) ∧
        Followed (call silent depth) Takes NBsElapsed (l, ()) calls := by
  induction calls generalizing l with
  | nil => exact ⟨fun h => ⟨fun hbusy => absurd h hbusy, trivial⟩, fun h => not_not.mp h.1⟩
  | cons i calls ih =>
      rw [List.forall_mem_cons] at hdead
      have hnext := linkInv_call hinv depth i
      rw [run_cons, Sometime, Followed]
      cases dead_call depth hinv hdead.1 with
      | givesUp h htx =>
          have hidle : (call silent depth (l, ()) i).1.1.tx.txState = .idle := by rw [htx]
          have hbusy : ¬ Takes (l, ()) i := fun ht => h.busy ht.idle
          have hrest := ih hnext hdead.2 (by rw [hidle]; decide)
          rw [hrest]
          exact ⟨fun hr => ⟨fun _ => .inl h.2, fun ht => absurd ht hbusy, hr.2⟩,
            fun hr => ⟨fun hne => absurd hidle hne, hr.2.2⟩⟩
      | takes h hfirst =>
          have hidle : l.tx.txState = .idle := h.idle
          have hrest := ih hnext hdead.2 (by rw [hfirst]; decide)
          rw [hrest, hfirst]
          exact ⟨fun hr => ⟨fun hne => absurd hidle hne, fun _ => hr.1 (by decide), hr.2⟩,
            fun hr => ⟨fun _ => hr.2.1 h, hr.2.2⟩⟩
      | rests hwaits htakes htx =>
          have hrest := ih hnext hdead.2 (by rw [htx]; exact hs)
          rw [htx] at hrest
          rw [hrest]
          have hnot : l.tx.txState ≠ .idle → ¬ NBsElapsed (l, ()) i := fun hne helapsed =>
            hwaits ⟨sendFirst_or_waitFc hne hs, helapsed⟩
          exact ⟨fun hr => ⟨fun hne => .inr (hr.1 hne), fun ht => absurd ht htakes, hr.2⟩,
            fun hr => ⟨fun hne => (hr.1 hne).resolve_left (hnot hne), hr.2.2⟩⟩

/-- With nothing pending, whatever is confirmed has been taken on the way. -/
theorem dead_confirmations_idle (hidle : l.tx.txState = .idle) :
    confirmations (run (call silent depth) (l, ()) calls).2 = [] := by
  induction calls generalizing l with
  | nil => rfl
  | cons i calls ih =>
      rw [List.forall_mem_cons] at hdead
      rw [run_cons]
      cases dead_call depth hinv hdead.1 with
      | givesUp h => exact absurd hidle h.busy
      | takes _ _ hnone => exact hnone _
      | rests _ _ htx hnone =>
          rw [hnone]
          exact ih (linkInv_call hinv depth i) hdead.2 ((congrArg TxSide.txState htx).trans hidle)

/-- What is pending is confirmed once, where N_Bs has elapsed. -/
theorem dead_confirmations (hs : l.tx.txState ≠ .sendCf) (hbusy : l.tx.txState ≠ .idle)
    (helapsed : Sometime (call silent depth) NBsElapsed (l, ()) calls) :
    confirmations (run (call silent depth) (l, ()) calls).2 = [.errTimeoutBs] := by
  induction calls generalizing l with
  | nil => exact absurd helapsed id
  | cons i calls ih =>
      rw [List.forall_mem_cons] at hdead
      have hnext := linkInv_call hinv depth i
      rw [run_cons]
      cases dead_call depth hinv hdead.1 with
      | givesUp h htx hone =>
          rw [hone, dead_confirmations_idle depth hnext hdead.2 (by rw [htx])]
      | takes h => exact absurd h.idle hbusy
      | rests hwaits _ htx hnone =>
          rw [hnone]
          have hnot : ¬ NBsElapsed (l, ()) i := fun h => hwaits ⟨sendFirst_or_waitFc hbusy hs, h⟩
          have hstate := congrArg TxSide.txState htx
          exact ih hnext hdead.2 (ne_of_eq_of_ne hstate hs) (ne_of_eq_of_ne hstate hbusy)
            (helapsed.resolve_left hnot)

/-- Until N_Bs has elapsed the sender stays as it is. -/
theorem dead_kept (hs : l.tx.txState ≠ .sendCf) (hbusy : l.tx.txState ≠ .idle)
    (hnever : ¬ Sometime (call silent depth) NBsElapsed (l, ()) calls) :
    (run (call silent depth) (l, ()) calls).1.1.tx = l.tx ∧
      (run (call silent depth) (l, ()) calls).1.1.cfg = l.cfg := by
  induction calls generalizing l with
  | nil => exact ⟨rfl, rfl⟩
  | cons i calls ih =>
      rw [List.forall_mem_cons] at hdead
      rw [Sometime, not_or] at hnever
      rw [run_cons]
      cases dead_call depth hinv hdead.1 with
      | givesUp h => exact absurd h.2 hnever.1
      | takes h => exact absurd h.idle hbusy
      | rests _ _ htx =>
          have hstate := congrArg TxSide.txState htx
          obtain ⟨hkept, hcfg⟩ := ih (linkInv_call hinv depth i) hdead.2
            (ne_of_eq_of_ne hstate hs) (ne_of_eq_of_ne hstate hbusy) hnever.2
          exact ⟨hkept.trans htx, hcfg.trans (cfg_call hinv depth i)⟩

/-- From a busy state on, the transmission settles exactly if the sender is not in the middle of
its consecutive frames and every wait ends in a timeout. -/
theorem settled_iff (hbusy : l.tx.txState ≠ .idle) :
    Settled (run (call silent depth) (l, ()) calls).1.1 (run (call silent depth) (l, ()) calls).2 ↔
      l.tx.txState ≠ .sendCf ∧ Sometime (call silent depth) NBsElapsed (l, ()) calls ∧
        Followed (call silent depth) Takes NBsElapsed (l, ()) calls := by
  by_cases hs : l.tx.txState = .sendCf
  · have hstuck := dead_sendCf depth hinv hdead hs
    refine iff_of_false (fun h => ?_) (fun h => h.1 hs)
    exact absurd (hstuck.symm.trans h.1) (by decide)
  · have hidle := dead_idle_iff depth hinv hdead hs
    constructor
    · intro h
      obtain ⟨helapsed, hfollowed⟩ := hidle.mp h.1
      exact ⟨hs, helapsed hbusy, hfollowed⟩
    · rintro ⟨-, helapsed, hfollowed⟩
      exact ⟨hidle.mpr ⟨fun _ => helapsed, hfollowed⟩, .errTimeoutBs, by decide,
        dead_confirmations depth hinv hdead hs hbusy helapsed⟩

end Continuations

/-! ### Where the timer was started -/

section Timer

variable {ε : Type} {cfg : Config} {t t' : TxSide} {es tr : List (Event ε)}

/-- The timer of a busy sender holds a clock reading of the past. -/
def TimerRead (t : TxSide) (tr : List (Event ε)) : Prop :=
  t.txState ≠ .idle → ∃ time, .getTimeMs time ∈ tr ∧ t.txTimerStart = time % 2 ^ 32

theorem TimerRead.kept (h : TimerRead t tr) (hbusy : t'.txState ≠ .idle → t.txState ≠ .idle)
    (htimer : t'.txTimerStart = t.txTimerStart) (es : List (Event ε)) : TimerRead t' (tr ++ es) := by
  intro hs
  obtain ⟨time, hmem, heq⟩ := h (hbusy hs)
  exact ⟨time, List.mem_append_left es hmem, htimer.trans heq⟩

theorem TimerRead.started (time : Nat) (htimer : t'.txTimerStart = time % 2 ^ 32)
    (hmem : .getTimeMs time ∈ es) : TimerRead t' (tr ++ es) :=
  fun _ => ⟨time, List.mem_append_right tr hmem, htimer⟩

theorem TimerRead.step (h : TimerRead t tr) (hstep : TxStep cfg t es t') :
    TimerRead t' (tr ++ es) := by
  cases hstep with
  | sending hsending =>
      cases hsending with
      | firstRefused | tooEarly | cfRefused | unfinished => exact h.kept id rfl _
      | singleSent | lastSent => exact fun hs => absurd rfl hs
      | firstSent hs hlen time => exact .started time rfl (by simp)
      | cfSent hs | cfSentInBlock hs => exact h.kept id rfl _
      | blockSent hs hpace time after => exact .started after rfl (by simp)
  | badParam | busy | notYet => exact h.kept id rfl _
  | start m time => exact .started time rfl (by simp)
  | clearToSend data time hs =>
      have hbusy : t.txState ≠ .idle := by
        rw [hs]
        decide
      have htimer : (t.cleared (data.byte 1) (data.byte 2) time).txTimerStart = t.txTimerStart := rfl
      exact h.kept (fun _ => hbusy) htimer _
  | wait time hs => exact .started time rfl (by simp)
  | waitOverrun | flowAborted | timedOut => exact fun hs => absurd rfl hs

theorem timerRead_run (depth : Nat) (cfg : Config) (calls : List (Env × Call)) :
    TimerRead (run (call silent depth) (init cfg, ()) calls).1.1.tx
      (run (call silent depth) (init cfg, ()) calls).2 := by
  refine run_invariant (fun (s : Link × Unit) tr => TimerRead s.1.tx tr) ?_ [] ?_ calls
  · intro s tr i hs
    refine Steps.invariant (fun (s : Link × Unit) tr => TimerRead s.1.tx tr) ?_ tr hs
      (steps_call silent depth s i)
    intro u tr es v hu hstep
    cases hstep with
    | tx htx => exact hu.step htx
    | rx hrx => exact hu.kept id rfl _
    | app => exact hu.kept id rfl _
  · exact fun hs => absurd rfl hs

end Timer

/-- From a busy state `before` on, with nothing getting through any more, the transmission settles
and the link is idle exactly if the sender is not in the middle of its consecutive frames, some call
of the main function finds N_Bs elapsed, and so does one after every message that is taken on the
way. The timer holds a reading `start` of the clock. Where `start` is not after `t₀`, the call
`last` finds N_Bs elapsed if it comes N_Bs and 128 ms after `t₀` and less than a wrap of the clock
after `start`, unless an earlier call has done so. -/
theorem dead_bus_settles_iff (depth : Nat) (cfg : Config) (history calls : List (Env × Call))
    (last : Env)
    (hbusy : (run (call silent depth) (init cfg, ()) history).1.1.tx.txState ≠ .idle)
    (hdead : ∀ i ∈ calls ++ [(last, .mainFunction)], DeadBus i) :
    let before := run (call silent depth) (init cfg, ()) history
    let after := run (call silent depth) before.1 (calls ++ [(last, .mainFunction)])
    (Settled after.1.1 after.2 ↔ before.1.1.tx.txState ≠ .sendCf ∧
      Sometime (call silent depth) NBsElapsed before.1 (calls ++ [(last, .mainFunction)]) ∧
      Followed (call silent depth) Takes NBsElapsed before.1 (calls ++ [(last, .mainFunction)])) ∧
    (∃ start, .getTimeMs start ∈ before.2 ∧ before.1.1.tx.txTimerStart = start % 2 ^ 32) ∧
    ∀ t₀ start, start ≤ t₀ → before.1.1.tx.txTimerStart = start % 2 ^ 32 →
      (∀ k, t₀ + before.1.1.cfg.nBsTimeoutMs + 128 ≤ last.clock k ∧
        last.clock k < start + 2 ^ 32) →
      (Settled after.1.1 after.2 ↔ before.1.1.tx.txState ≠ .sendCf ∧
        Followed (call silent depth) Takes NBsElapsed before.1
          (calls ++ [(last, .mainFunction)])) := by
  intro before after
  have hinv : LinkInv before.1.1 := linkInv_calls silent depth cfg () history
  have hiff := settled_iff depth hinv hdead hbusy
  refine ⟨hiff, timerRead_run depth cfg history hbusy, fun t₀ start hstart htimer hwindow => ?_⟩
  refine hiff.trans (and_congr_right fun hs => and_iff_right ?_)
  rw [sometime_append]
  by_cases hearlier : Sometime (call silent depth) NBsElapsed before.1 calls
  · exact .inl hearlier
  · have hcalls : ∀ i ∈ calls, DeadBus i := fun i hi => hdead i (List.mem_append_left _ hi)
    obtain ⟨hkept, hcfg⟩ := dead_kept depth hinv hcalls hs hbusy hearlier
    refine .inr (.inl ⟨rfl, ?_⟩)
    rw [hkept, hcfg, htimer]
    obtain ⟨hlate, hearly⟩ := hwindow (if (run (call silent depth) before.1 calls).1.1.rx.rxState
      = .receiving then 1 else 0)
    rw [elapsed_eq (by omega) hearly]
    exact Nat.le_sub_of_add_le (by omega)

/-! ### Twenty bytes that do not get out -/

def deadBusConfig : Config where
  txId := 0x7E8
  rxId := 0x7E0
  rxBuffer := List.replicate 32 0
  txBuffer := List.replicate 32 0
  blockSize := 0
  stMin := 0
  nBsTimeoutMs := 0
  nCrTimeoutMs := 0

/-- The driver takes everything at time 0. -/
def openBus : Env := ⟨fun _ => 0, fun _ => true⟩

/-- From time 0 on the driver takes nothing. -/
def closedBus (time : Nat) : Env := ⟨fun _ => time, fun _ => false⟩

/-- The FF goes out, and the flow control for it does not come. -/
def firstFrameOut : List (Env × Call) := [(openBus, .transmit (List.replicate 20 0))]

/-- The flow control comes, and the first CF is refused. -/
def clearedOut : List (Env × Call) :=
  firstFrameOut ++ [(closedBus 0, .rxFrame (flowControlFrame fcStatusCts 0 0) 8)]

/-- The message is given up at 1000 ms, and the next one, taken at 1100 ms, at 2128 ms. -/
theorem dead_bus_settles_firstFrameOut :
    let before := run (call silent 0) (init deadBusConfig, ()) firstFrameOut
    let after := run (call silent 0) before.1 [(closedBus 1000, .mainFunction),
      (closedBus 1100, .transmit (List.replicate 20 0)), (closedBus 2128, .mainFunction)]
    Settled after.1.1 after.2 := by
  have hdead : ∀ i ∈ [(closedBus 1000, Call.mainFunction),
      (closedBus 1100, .transmit (List.replicate 20 0))] ++ [(closedBus 2128, .mainFunction)],
      DeadBus i := by
    simp [DeadBus, closedBus]
  refine (dead_bus_settles_iff 0 deadBusConfig firstFrameOut _ (closedBus 2128) (by decide)
    hdead).1.mpr ⟨by decide, .inl ⟨rfl, by decide⟩, ?_⟩
  exact ⟨fun h => absurd h id, fun _ => .inl ⟨rfl, by decide⟩, fun h => absurd h id, trivial⟩

/-- With the CFs still to go the link is busy 1128 ms later, and has confirmed nothing. -/
theorem not_settled_clearedOut :
    let before := run (call silent 0) (init deadBusConfig, ()) clearedOut
    let after := run (call silent 0) before.1 [(closedBus 1128, .mainFunction)]
    before.1.1.tx.txState ≠ .idle ∧ (∀ i ∈ [(closedBus 1128, Call.mainFunction)], DeadBus i) ∧
      (∀ time, .getTimeMs time ∈ before.2 → time ≤ 0) ∧
      (∀ k, 0 + before.1.1.cfg.nBsTimeoutMs + 128 ≤ (closedBus 1128).clock k ∧
        (closedBus 1128).clock k < 0 + 2 ^ 32) ∧
      ¬ Settled after.1.1 after.2 := by
  have hreadings : (run (call silent 0) (init deadBusConfig, ()) clearedOut).2.filterMap
      (fun e => match e with
        | .getTimeMs time => some time
        | _ => none) = [0, 0, 0] := by decide
  refine ⟨by decide, by simp [DeadBus, closedBus], fun time hmem => ?_, fun _ => ?_, fun h => ?_⟩
  · have htime : time ∈ [0, 0, 0] := by
      rw [← hreadings]
      exact List.mem_filterMap.mpr ⟨_, hmem, rfl⟩
    simpa using htime
  · show 0 + (run (call silent 0) (init deadBusConfig, ()) clearedOut).1.1.cfg.nBsTimeoutMs + 128
      ≤ 1128 ∧ 1128 < 0 + 2 ^ 32
    decide
  · have hbusy : (run (call silent 0) (run (call silent 0) (init deadBusConfig, ()) clearedOut).1
        [(closedBus 1128, .mainFunction)]).1.1.tx.txState ≠ .idle := by decide
    exact hbusy h.1

end MiniEcu.IsoTp
