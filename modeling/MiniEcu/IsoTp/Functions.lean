import MiniEcu.IsoTp.Steps

/-!
# The functions, up to a callback

Each function of `isotp.c` is followed to the elementary steps it takes. A function that can end in
a callback has a spec that stops right before it: `Moves` describes the state the callback finds.
What the callbacks themselves do is left to an assumption, `Resubmits`, on what they reach when they
call `IsoTp_Transmit`.
-/

namespace MiniEcu.IsoTp

open Memory Trace

variable {σ ε : Type}

namespace World

/-- `w'` is `w` after the events `es`, with no callback run and only the sender's side changed. -/
structure Moves (w : World σ ε) (es : List (Event ε)) (w' : World σ ε) : Prop where
  cfg : w'.link.cfg = w.link.cfg
  rx : w'.link.rx = w.link.rx
  app : w'.app = w.app
  env : w'.env = w.env
  events : w'.events = w.events ++ es

/-- `w'` is `w` after the events `es`, with no callback run and only the receiver's side changed. -/
structure RxMoves (w : World σ ε) (es : List (Event ε)) (w' : World σ ε) : Prop where
  cfg : w'.link.cfg = w.link.cfg
  tx : w'.link.tx = w.link.tx
  app : w'.app = w.app
  env : w'.env = w.env
  events : w'.events = w.events ++ es

/-- `w'` is reached from `w` by elementary steps. -/
def Leads (w w' : World σ ε) : Prop :=
  w'.env = w.env ∧ ∃ es, w'.events = w.events ++ es ∧
    Steps LinkStep (w.link, w.app) es (w'.link, w'.app)

namespace Leads

theorem refl (w : World σ ε) : w.Leads w := ⟨rfl, [], by simp, .refl _⟩

theorem trans {u v w : World σ ε} (h₁ : u.Leads v) (h₂ : v.Leads w) : u.Leads w := by
  obtain ⟨henv₁, es, hes, hsteps₁⟩ := h₁
  obtain ⟨henv₂, fs, hfs, hsteps₂⟩ := h₂
  refine ⟨henv₂.trans henv₁, es ++ fs, ?_, hsteps₁.trans hsteps₂⟩
  rw [hfs, hes, List.append_assoc]

theorem of_tx {w w' : World σ ε} {es : List (Event ε)} (hmoves : w.Moves es w')
    (hstep : TxStep w.link.cfg w.link.tx es w'.link.tx) : w.Leads w' := by
  have hlink : w'.link = { w.link with tx := w'.link.tx } := by
    simp only [← hmoves.cfg, ← hmoves.rx]
  refine ⟨hmoves.env, es, hmoves.events, ?_⟩
  rw [hlink, hmoves.app]
  exact .single (.tx hstep)

theorem of_rx {w w' : World σ ε} {es : List (Event ε)} (hmoves : w.RxMoves es w')
    (hstep : RxStep w.link.cfg w.link.rx es w'.link.rx) : w.Leads w' := by
  have hlink : w'.link = { w.link with rx := w'.link.rx } := by
    simp only [← hmoves.cfg, ← hmoves.tx]
  refine ⟨hmoves.env, es, hmoves.events, ?_⟩
  rw [hlink, hmoves.app]
  exact .single (.rx hstep)

end Leads

end World

open World

/-! ### Functions of the sender, up to a callback -/

section Spec

variable (app : App σ ε) (resubmit : Bytes → World σ ε → World σ ε) (w : World σ ε)

/-- What a sending function does: a step of its own, and possibly a confirmation callback. -/
def Sends (w : World σ ε) (out : World σ ε) : Prop :=
  ∃ es w', w.Moves es w' ∧ Sending w.link.cfg w.link.tx es w'.link.tx ∧
    (out = w' ∨ ∃ clock result a, out = react resubmit (app.txConfirmation clock result a) w' ∧
      w'.link.tx.txState = .idle)

theorem txFinish_eq (result : Result) :
    ∃ clock, txFinish app resubmit result w = react resubmit
      (app.txConfirmation clock result w.app)
      ((w.setTx { w.link.tx with txState := .idle }).log (.txConfirmation result)) :=
  ⟨_, rfl⟩

/-- The state after the driver has been offered the SF or FF. -/
def offeredFirst (w : World σ ε) : World σ ε :=
  (w.log (.txRead 0 w.link.tx.firstCount)).sendFrame w.link.tx.first

theorem txSendFirst_eq : txSendFirst app resubmit w =
    if w.accepts then
      (true, if w.link.tx.txLength ≤ 7 then txFinish app resubmit .ok (offeredFirst w)
        else ((offeredFirst w).setTx (w.link.tx.afterFirst (w.env.clock w.reads))).tick)
    else (false, offeredFirst w) := by
  by_cases hlen : w.link.tx.txLength ≤ 7
  · simp only [txSendFirst, sfMaxData, hlen, if_true, offeredFirst, TxSide.firstCount, TxSide.first]
  · simp only [txSendFirst, sfMaxData, hlen, if_false, offeredFirst, TxSide.firstCount, TxSide.first]
    rfl

theorem txSendFirst_refused {w : World σ ε} (h : ¬ (txSendFirst app resubmit w).1 = true) :
    (txSendFirst app resubmit w).2 = offeredFirst w := by
  rw [txSendFirst_eq] at h ⊢
  split
  · rename_i hacc
    exact absurd (by rw [if_pos hacc]) h
  · rfl

theorem txSendFirst_spec (hs : w.link.tx.txState = .sendFirst) :
    Sends app resubmit w (txSendFirst app resubmit w).2 := by
  rw [txSendFirst_eq]
  cases hacc : w.accepts with
  | false =>
      refine ⟨_, offeredFirst w, ⟨rfl, rfl, rfl, rfl, ?_⟩, .firstRefused hs, .inl rfl⟩
      simp [offeredFirst, hacc]
  | true =>
      by_cases hlen : w.link.tx.txLength ≤ 7
      · obtain ⟨clock, heq⟩ := txFinish_eq app resubmit (offeredFirst w) .ok
        refine ⟨_, ((offeredFirst w).setTx { w.link.tx with txState := .idle }).log
          (.txConfirmation .ok), ⟨rfl, rfl, rfl, rfl, ?_⟩, .singleSent hs hlen,
          .inr ⟨clock, .ok, w.app, ?_, rfl⟩⟩
        · simp [offeredFirst, hacc]
        · rw [if_pos rfl, if_pos hlen]
          exact heq
      · refine ⟨_, ((offeredFirst w).setTx (w.link.tx.afterFirst (w.env.clock w.reads))).tick,
          ⟨rfl, rfl, rfl, rfl, ?_⟩, .firstSent hs (by omega) (w.env.clock w.reads), .inl ?_⟩
        · simp [offeredFirst, hacc]
        · simp only [if_pos, hlen, if_false]

/-- The state after the reading of the clock that STmin asks for. -/
def pacedCf (w : World σ ε) : World σ ε := if 0 < w.link.tx.txStMinMs then w.tick else w

/-- The state after the driver has been offered the next CF. -/
def offeredCf (w : World σ ε) : World σ ε :=
  ((pacedCf w).log (.txRead w.link.tx.txOffset w.link.tx.chunk)).sendFrame w.link.tx.consecutive

/-- The state after the driver has taken the next CF. -/
def sentCf (w : World σ ε) : World σ ε :=
  (((offeredCf w).log (.counted 16 (w.link.tx.txOffset + w.link.tx.chunk))).setTx
    (w.link.tx.advance ((offeredCf w).env.clock (offeredCf w).reads))).tick

/-- The state after counting the CF into its block. -/
def countedCf (w : World σ ε) : World σ ε :=
  ((sentCf w).log (.counted 8 (w.link.tx.txBlockCount + 1))).setTx
    { (sentCf w).link.tx with txBlockCount := w.link.tx.nextBlockCount }

theorem txCfIteration_eq : txCfIteration app resubmit w =
    if 0 < w.link.tx.txStMinMs ∧ elapsed w.now w.link.tx.txLastCfTime ≤ w.link.tx.txStMinMs then
      (false, pacedCf w)
    else if (pacedCf w).accepts then
      if w.link.tx.txLength ≤ (sentCf w).link.tx.txOffset then
        (true, txFinish app resubmit .ok (sentCf w))
      else if w.link.tx.txBlockSize ≠ 0 then
        if w.link.tx.txBlockSize ≤ w.link.tx.nextBlockCount then
          (true, ((countedCf w).setTx { (countedCf w).link.tx with
            txState := .waitFc
            txTimerStart := (countedCf w).now }).tick)
        else (true, countedCf w)
      else (true, sentCf w)
    else (false, offeredCf w) := by
  by_cases hpos : 0 < w.link.tx.txStMinMs
  · simp only [txCfIteration, countedCf, sentCf, offeredCf, pacedCf, hpos, if_true]
    rfl
  · simp only [txCfIteration, countedCf, sentCf, offeredCf, pacedCf, hpos, if_false]
    rfl

@[simp] theorem link_pacedCf : (pacedCf w).link = w.link := by
  unfold pacedCf
  split <;> rfl

@[simp] theorem app_pacedCf : (pacedCf w).app = w.app := by
  unfold pacedCf
  split <;> rfl

@[simp] theorem env_pacedCf : (pacedCf w).env = w.env := by
  unfold pacedCf
  split <;> rfl

theorem events_pacedCf
    (h : ¬ (0 < w.link.tx.txStMinMs ∧ elapsed w.now w.link.tx.txLastCfTime ≤ w.link.tx.txStMinMs)) :
    ∃ pace, w.link.tx.Paced pace ∧ (pacedCf w).events = w.events ++ pace := by
  by_cases hpos : 0 < w.link.tx.txStMinMs
  · refine ⟨_, .waited (w.env.clock w.reads) hpos ?_, by rw [pacedCf, if_pos hpos]; rfl⟩
    have hlate : ¬ elapsed w.now w.link.tx.txLastCfTime ≤ w.link.tx.txStMinMs := fun hle => h ⟨hpos, hle⟩
    exact Nat.lt_of_not_le hlate
  · exact ⟨[], .free (by omega), by simp [pacedCf, hpos]⟩

theorem moves_offeredCf {pace : List (Event ε)} (hpace : (pacedCf w).events = w.events ++ pace) :
    w.Moves (pace ++ [.txRead w.link.tx.txOffset w.link.tx.chunk,
      .sendFrame w.link.cfg.txId w.link.tx.consecutive (pacedCf w).accepts]) (offeredCf w) := by
  refine ⟨by simp [offeredCf], by simp [offeredCf], by simp [offeredCf], by simp [offeredCf], ?_⟩
  simp [offeredCf, hpace]

theorem moves_sentCf {pace : List (Event ε)} (hpace : (pacedCf w).events = w.events ++ pace)
    (hacc : (pacedCf w).accepts = true) :
    w.Moves (pace ++ [.txRead w.link.tx.txOffset w.link.tx.chunk,
      .sendFrame w.link.cfg.txId w.link.tx.consecutive true,
      .counted 16 (w.link.tx.txOffset + w.link.tx.chunk),
      .getTimeMs ((offeredCf w).env.clock (offeredCf w).reads)]) (sentCf w) := by
  obtain ⟨hcfg, hrx, happ, henv, hevents⟩ := moves_offeredCf w hpace
  refine ⟨hcfg, hrx, happ, henv, ?_⟩
  simp [sentCf, hevents, hacc]

theorem txCfIteration_spec (hs : w.link.tx.txState = .sendCf) :
    Sends app resubmit w (txCfIteration app resubmit w).2 := by
  rw [txCfIteration_eq]
  by_cases hearly :
      0 < w.link.tx.txStMinMs ∧ elapsed w.now w.link.tx.txLastCfTime ≤ w.link.tx.txStMinMs
  · rw [if_pos hearly]
    refine ⟨[.getTimeMs (w.env.clock w.reads)], pacedCf w,
      ⟨by simp, by simp, by simp, by simp, ?_⟩, ?_, .inl rfl⟩
    · rw [pacedCf, if_pos hearly.1]
      rfl
    · rw [link_pacedCf]
      exact .tooEarly hs _ hearly.1 hearly.2
  rw [if_neg hearly]
  obtain ⟨pace, hpaced, hpace⟩ := events_pacedCf w hearly
  cases hacc : (pacedCf w).accepts with
  | false =>
      refine ⟨_, offeredCf w, hacc ▸ moves_offeredCf w hpace, ?_, .inl rfl⟩
      have htx : (offeredCf w).link.tx = w.link.tx := by simp [offeredCf]
      rw [htx]
      exact .cfRefused hs hpaced
  | true =>
      rw [if_pos rfl]
      obtain ⟨hcfg, hrx, happ, henv, hevents⟩ := moves_sentCf w hpace hacc
      by_cases hend : w.link.tx.txLength ≤ (sentCf w).link.tx.txOffset
      · rw [if_pos hend]
        obtain ⟨clock, heq⟩ := txFinish_eq app resubmit (sentCf w) .ok
        refine ⟨_, ((sentCf w).setTx { (sentCf w).link.tx with txState := .idle }).log
          (.txConfirmation .ok), ⟨hcfg, hrx, happ, henv, ?_⟩, .lastSent hs hpaced _ hend,
          .inr ⟨clock, .ok, _, heq, rfl⟩⟩
        simp [hevents]
      rw [if_neg hend]
      have hmore : (w.link.tx.advance ((offeredCf w).env.clock (offeredCf w).reads)).txOffset
          < w.link.tx.txLength := Nat.lt_of_not_le hend
      by_cases hblock : w.link.tx.txBlockSize ≠ 0
      · rw [if_pos hblock]
        by_cases hcount : w.link.tx.txBlockSize ≤ w.link.tx.nextBlockCount
        · rw [if_pos hcount]
          refine ⟨_, ((countedCf w).setTx { (countedCf w).link.tx with
            txState := .waitFc
            txTimerStart := (countedCf w).now }).tick, ⟨hcfg, hrx, happ, henv, ?_⟩,
            .blockSent hs hpaced _ ((countedCf w).env.clock (countedCf w).reads) hmore hblock hcount,
            .inl rfl⟩
          simp [countedCf, hevents]
        · rw [if_neg hcount]
          refine ⟨_, countedCf w, ⟨hcfg, hrx, happ, henv, ?_⟩,
            .cfSentInBlock hs hpaced _ hmore hblock (Nat.lt_of_not_le hcount), .inl rfl⟩
          simp [countedCf, hevents]
      · rw [if_neg hblock]
        exact ⟨_, sentCf w, ⟨hcfg, hrx, happ, henv, hevents⟩,
          .cfSent hs hpaced _ hmore (by simpa using hblock), .inl rfl⟩

end Spec

/-! ### Callbacks -/

/-- What the proofs know about `IsoTp_Transmit` as a callback calls it: it takes elementary steps,
leaves the receiver alone, and never enters the state in which consecutive frames are sent. -/
structure Resubmits (resubmit : Bytes → World σ ε → World σ ε) : Prop where
  leads : ∀ m w, World.Leads w (resubmit m w)
  cfg : ∀ m w, (resubmit m w).link.cfg = w.link.cfg
  rx : ∀ m w, (resubmit m w).link.rx = w.link.rx
  notCf : ∀ m w, w.link.tx.txState ≠ .sendCf → (resubmit m w).link.tx.txState ≠ .sendCf

section Functions

variable {app : App σ ε} {resubmit : Bytes → World σ ε → World σ ε}

theorem react_induction {P : World σ ε → Prop} (hresubmit : ∀ m v, P v → P (resubmit m v))
    (r : Reaction σ ε) {w : World σ ε} (h : P (w.settle r)) : P (react resubmit r w) := by
  have hfold : ∀ (ms : List Bytes) (v : World σ ε), P v →
      P (ms.foldl (fun w m => resubmit m w) v) := by
    intro ms
    induction ms with
    | nil => exact fun v hv => hv
    | cons m ms ih => exact fun v hv => ih _ (hresubmit m v hv)
  exact hfold _ _ h

theorem react_cfg (hres : Resubmits resubmit) (r : Reaction σ ε) (w : World σ ε) :
    (react resubmit r w).link.cfg = w.link.cfg :=
  react_induction (P := fun v => v.link.cfg = w.link.cfg)
    (fun m v hv => (hres.cfg m v).trans hv) r rfl

theorem react_rx (hres : Resubmits resubmit) (r : Reaction σ ε) (w : World σ ε) :
    (react resubmit r w).link.rx = w.link.rx :=
  react_induction (P := fun v => v.link.rx = w.link.rx)
    (fun m v hv => (hres.rx m v).trans hv) r rfl

theorem react_notCf (hres : Resubmits resubmit) (r : Reaction σ ε) {w : World σ ε}
    (h : w.link.tx.txState ≠ .sendCf) : (react resubmit r w).link.tx.txState ≠ .sendCf :=
  react_induction (P := fun v => v.link.tx.txState ≠ .sendCf) (fun m v => hres.notCf m v) r h

/-! ### The loop ends -/

/-- How many turns the loop can still take. An offset past the end, which no run reaches, may wrap
once. -/
def TxSide.turns (t : TxSide) : Nat :=
  if t.txOffset < t.txLength then t.txLength - t.txOffset else t.txLength + 1

theorem TxSide.turns_advance {t : TxSide} {time : Nat} (hlen : t.txLength < 2 ^ 16)
    (hmore : (t.advance time).txOffset < t.txLength) : (t.advance time).turns < t.turns := by
  have hlength : (t.advance time).txLength = t.txLength := rfl
  unfold turns
  rw [hlength, if_pos hmore]
  split
  · rename_i hbefore
    have hchunk := t.chunk_eq (Nat.le_of_lt hbefore) hlen
    have hoffset : (t.advance time).txOffset = (t.txOffset + t.chunk) % 2 ^ 16 := rfl
    omega
  · omega

theorem txCfLoop_of_ne {fuel : Nat} {w : World σ ε} (h : w.link.tx.txState ≠ .sendCf) :
    txCfLoop app resubmit fuel w = w := by
  cases fuel <;> rw [txCfLoop, if_neg h]

theorem txFinish_notCf (hres : Resubmits resubmit) (result : Result) (w : World σ ε) :
    (txFinish app resubmit result w).link.tx.txState ≠ .sendCf := by
  obtain ⟨clock, heq⟩ := txFinish_eq app resubmit w result
  rw [heq]
  exact react_notCf hres _ (by simp)

/-- A turn after which the loop wants another one ends the sending or shortens what is left. -/
theorem txCfIteration_turns_lt (hres : Resubmits resubmit) {w : World σ ε}
    (hkeep : (txCfIteration app resubmit w).1 = true)
    (hs : (txCfIteration app resubmit w).2.link.tx.txState = .sendCf) :
    (txCfIteration app resubmit w).2.link.tx.txLength = w.link.tx.txLength ∧
      (w.link.tx.txLength < 2 ^ 16 →
        (txCfIteration app resubmit w).2.link.tx.turns < w.link.tx.turns) := by
  rw [txCfIteration_eq] at hkeep hs ⊢
  by_cases hearly :
      0 < w.link.tx.txStMinMs ∧ elapsed w.now w.link.tx.txLastCfTime ≤ w.link.tx.txStMinMs
  · simp only [if_pos hearly] at hkeep
    cases hkeep
  simp only [if_neg hearly] at hkeep hs ⊢
  cases hacc : (pacedCf w).accepts with
  | false =>
      simp only [hacc] at hkeep
      cases hkeep
  | true =>
      simp only [hacc, if_true] at hs ⊢
      by_cases hend : w.link.tx.txLength ≤ (sentCf w).link.tx.txOffset
      · simp only [if_pos hend] at hs
        exact absurd hs (txFinish_notCf hres _ _)
      have hturns := fun hlen => TxSide.turns_advance hlen (Nat.lt_of_not_le hend)
      by_cases hblock : w.link.tx.txBlockSize ≠ 0
      · by_cases hcount : w.link.tx.txBlockSize ≤ w.link.tx.nextBlockCount
        · simp only [if_neg hend, if_pos hblock, if_pos hcount] at hs
          cases hs
        · simp only [if_neg hend, if_pos hblock, if_neg hcount]
          exact ⟨rfl, hturns⟩
      · simp only [if_neg hend, if_neg hblock]
        exact ⟨rfl, hturns⟩

/-- What every turn does, the loop does; the fuel that the message's length gives it is enough. -/
theorem txCfLoop_induction {R : World σ ε → World σ ε → Prop} (hrefl : ∀ v, R v v)
    (htrans : ∀ {u v w}, R u v → R v w → R u w) (hres : Resubmits resubmit)
    (hturn : ∀ v, v.link.tx.txState = .sendCf → R v (txCfIteration app resubmit v).2)
    (hunfinished : ∀ v, v.link.tx.txState = .sendCf → 2 ^ 16 ≤ v.link.tx.txLength →
      R v (v.log .unfinished))
    {fuel : Nat} {w : World σ ε} (hfuel : w.link.tx.txLength < 2 ^ 16 → w.link.tx.turns ≤ fuel) :
    R w (txCfLoop app resubmit fuel w) := by
  induction fuel generalizing w with
  | zero =>
      by_cases hs : w.link.tx.txState = .sendCf
      · have hlen : 2 ^ 16 ≤ w.link.tx.txLength := by
          by_contra hlt
          have hzero := hfuel (Nat.lt_of_not_le hlt)
          unfold TxSide.turns at hzero
          split at hzero <;> omega
        rw [txCfLoop, if_pos hs]
        exact hunfinished w hs hlen
      · rw [txCfLoop_of_ne hs]
        exact hrefl w
  | succ fuel ih =>
      by_cases hs : w.link.tx.txState = .sendCf
      · simp only [txCfLoop, if_pos hs]
        cases hkeep : (txCfIteration app resubmit w).1 with
        | false => exact hturn w hs
        | true =>
            apply htrans (hturn w hs)
            by_cases hnext : (txCfIteration app resubmit w).2.link.tx.txState = .sendCf
            · obtain ⟨hlength, hturns⟩ := txCfIteration_turns_lt hres hkeep hnext
              refine ih fun hlen => ?_
              rw [hlength] at hlen
              have := hturns hlen
              have := hfuel hlen
              omega
            · rw [if_pos rfl, txCfLoop_of_ne hnext]
              exact hrefl _
      · rw [txCfLoop_of_ne hs]
        exact hrefl w

theorem txSendConsecutiveFrames_induction {R : World σ ε → World σ ε → Prop} (hrefl : ∀ v, R v v)
    (htrans : ∀ {u v w}, R u v → R v w → R u w) (hres : Resubmits resubmit)
    (hturn : ∀ v, v.link.tx.txState = .sendCf → R v (txCfIteration app resubmit v).2)
    (hunfinished : ∀ v, v.link.tx.txState = .sendCf → 2 ^ 16 ≤ v.link.tx.txLength →
      R v (v.log .unfinished)) (w : World σ ε) :
    R w (txSendConsecutiveFrames app resubmit w) := by
  refine txCfLoop_induction hrefl htrans hres hturn hunfinished fun _ => ?_
  unfold TxSide.turns
  split <;> omega

theorem txOnFlowControl_eq (data : Frame) (dlc : Nat) (w : World σ ε) :
    txOnFlowControl app resubmit data dlc w =
    if w.link.tx.txState ≠ .waitFc ∨ dlc < 3 then w
    else if data.pciLow = 0 then
      txSendConsecutiveFrames app resubmit
        (w.setTx (w.link.tx.cleared (data.byte 1) (data.byte 2) (w.env.clock w.reads))).tick
    else if data.pciLow = 1 then
      if maxWft < w.link.tx.nextWaitCount then
        txFinish app resubmit .errWftOvrn ((w.log (.counted 8 (w.link.tx.txWaitCount + 1))).setTx
          { w.link.tx with txWaitCount := w.link.tx.nextWaitCount })
      else ((w.log (.counted 8 (w.link.tx.txWaitCount + 1))).setTx { w.link.tx with
        txWaitCount := w.link.tx.nextWaitCount
        txTimerStart := w.now }).tick
    else if data.pciLow = 2 then txFinish app resubmit .errOverflow w
    else txFinish app resubmit .errInvalidFs w :=
  rfl

/-! ### The receiver -/

theorem rxSendFlowControl_eq (status : Nat) (w : World σ ε) :
    rxSendFlowControl status w =
      (w.sendFrame (flowControlFrame status w.link.cfg.blockSize w.link.cfg.stMin)).setRx
        (w.link.rx.answered status w.accepts) := by
  cases hacc : w.accepts <;> simp [rxSendFlowControl, RxSide.answered, hacc]

/-- A reception that is under way gives way to a new one. -/
def interrupted (app : App σ ε) (resubmit : Bytes → World σ ε → World σ ε) (w : World σ ε) :
    World σ ε :=
  if w.link.rx.rxState = .receiving then rxFinish app resubmit .errUnexpPdu w else w

variable (app) in
theorem interrupted_rx (hres : Resubmits resubmit) (w : World σ ε) :
    (interrupted app resubmit w).link.rx = { w.link.rx with rxState := .idle } := by
  unfold interrupted
  split
  · exact react_rx hres _ _
  · rename_i hs
    have hidle : w.link.rx.rxState = .idle := by
      cases hstate : w.link.rx.rxState with
      | idle => rfl
      | receiving => exact absurd hstate hs
    rw [← hidle]

variable (app) in
theorem interrupted_cfg (hres : Resubmits resubmit) (w : World σ ε) :
    (interrupted app resubmit w).link.cfg = w.link.cfg := by
  unfold interrupted
  split
  · exact react_cfg hres _ _
  · rfl

theorem length_slice_payload {f : Frame} {count : Nat} (h : count ≤ 7) :
    (slice f.bytes 1 count).length = count :=
  length_slice (by rw [f.length_bytes]; omega)

theorem rxOnSingleFrame_eq (data : Frame) (dlc : Nat) (w : World σ ε) :
    rxOnSingleFrame app resubmit data dlc w =
    if data.pciLow = 0 ∨ 7 < data.pciLow ∨ dlc - 1 < data.pciLow ∨
        w.link.cfg.rxBufferSize < data.pciLow then w
    else
      let v := interrupted app resubmit w
      rxFinish app resubmit .ok ((v.log (.rxWrite 0 data.pciLow)).setRx { v.link.rx with
        rxBuffer := copy v.link.rx.rxBuffer 0 (slice data.bytes 1 data.pciLow)
        rxLength := data.pciLow }) :=
  rfl

theorem rxOnFirstFrame_eq (data : Frame) (dlc : Nat) (w : World σ ε) :
    rxOnFirstFrame app resubmit data dlc w =
    let length := (data.pciLow <<< 8) ||| data.byte 1
    if dlc < 8 ∨ length ≤ 7 then w
    else
      let v := interrupted app resubmit w
      if v.link.cfg.rxBufferSize < length then rxSendFlowControl 2 v
      else rxSendFlowControl 0 ((v.log (.rxWrite 0 6)).setRx
        (v.link.rx.started length (slice data.bytes 2 6) (v.env.clock v.reads))).tick :=
  rfl

theorem Frame.ffLength_le (f : Frame) : (f.pciLow <<< 8) ||| f.byte 1 ≤ maxMessageLen := by
  have hlow := f.pciLow_lt
  have hbyte := f.byte_lt 1
  have hor : (f.pciLow <<< 8) ||| f.byte 1 = f.pciLow <<< 8 + f.byte 1 :=
    (Nat.shiftLeft_add_eq_or_of_lt hbyte f.pciLow).symm
  rw [hor, Nat.shiftLeft_eq, maxMessageLen]
  omega

/-- The state after the bytes of a CF have been stored. -/
def storedCf (data : Bytes) (w : World σ ε) : World σ ε :=
  (((w.log (.rxWrite w.link.rx.rxOffset w.link.rx.chunk)).log
    (.counted 16 (w.link.rx.rxOffset + w.link.rx.chunk))).setRx
      (w.link.rx.advance data (w.env.clock w.reads))).tick

/-- What `RxOnConsecutiveFrame` does once the bytes are stored. -/
def afterStored (app : App σ ε) (resubmit : Bytes → World σ ε → World σ ε) (v : World σ ε) :
    World σ ε :=
  if v.link.rx.rxLength ≤ v.link.rx.rxOffset then rxFinish app resubmit .ok v
  else if v.link.cfg.blockSize.toNat ≠ 0 then
    if v.link.cfg.blockSize.toNat ≤ v.link.rx.nextBlockCount then
      rxSendFlowControl 0 ((v.log (.counted 8 (v.link.rx.rxBlockCount + 1))).setRx
        { v.link.rx with rxBlockCount := 0 })
    else (v.log (.counted 8 (v.link.rx.rxBlockCount + 1))).setRx
      { v.link.rx with rxBlockCount := v.link.rx.nextBlockCount }
  else v

theorem rxOnConsecutiveFrame_eq (data : Frame) (dlc : Nat) (w : World σ ε) :
    rxOnConsecutiveFrame app resubmit data dlc w =
    if w.link.rx.rxState ≠ .receiving then w
    else if data.pciLow ≠ w.link.rx.rxSeq then rxFinish app resubmit .errWrongSn w
    else if dlc - 1 < w.link.rx.chunk then w
    else afterStored app resubmit (storedCf (slice data.bytes 1 w.link.rx.chunk) w) :=
  rfl

theorem moves_storedCf (data : Bytes) (w : World σ ε) :
    w.RxMoves [.rxWrite w.link.rx.rxOffset w.link.rx.chunk,
      .counted 16 (w.link.rx.rxOffset + w.link.rx.chunk), .getTimeMs (w.env.clock w.reads)]
      (storedCf data w) :=
  ⟨rfl, rfl, rfl, rfl, by simp [storedCf]⟩

/-! ### Transmissions -/

/-- `IsoTp_Transmit` right after it has taken a message. -/
def accepted (m : Bytes) (w : World σ ε) : World σ ε :=
  (((w.log (.transmit m .ok)).log (.txWrite 0 m.length)).setTx
    (w.link.tx.started m (w.env.clock w.reads))).tick

theorem transmitWith_eq (m : Bytes) (w : World σ ε) :
    transmitWith app resubmit m w =
    if m.length = 0 ∨ 4095 < m.length ∨ w.link.cfg.txBufferSize < m.length then
      (.errParam, w.log (.transmit m .errParam))
    else if w.link.tx.txState ≠ .idle then (.errBusy, w.log (.transmit m .errBusy))
    else (.ok, (txSendFirst app resubmit (accepted m w)).2) :=
  rfl

theorem sends_keeps (hres : Resubmits resubmit) {w out : World σ ε} (h : Sends app resubmit w out) :
    out.link.cfg = w.link.cfg ∧ out.link.rx = w.link.rx := by
  obtain ⟨es, w', hmoves, -, rfl | ⟨clock, result, a, rfl, -⟩⟩ := h
  · exact ⟨hmoves.cfg, hmoves.rx⟩
  · exact ⟨(react_cfg hres _ _).trans hmoves.cfg, (react_rx hres _ _).trans hmoves.rx⟩

theorem Sending.notCf {cfg : Config} {t t' : TxSide} {es : List (Event ε)}
    (h : Sending cfg t es t') (hs : t.txState = .sendFirst) : t'.txState ≠ .sendCf := by
  cases h <;> simp_all [TxSide.afterFirst]

theorem sends_notCf (hres : Resubmits resubmit) {w out : World σ ε} (h : Sends app resubmit w out)
    (hs : w.link.tx.txState = .sendFirst) : out.link.tx.txState ≠ .sendCf := by
  obtain ⟨es, w', -, hsending, rfl | ⟨clock, result, a, rfl, hidle⟩⟩ := h
  · exact hsending.notCf hs
  · exact react_notCf hres _ (by simp [hidle])

variable (app resubmit) in
theorem transmitWith_cases (m : Bytes) (w : World σ ε) :
    (∃ result, (transmitWith app resubmit m w).2 = w.log (.transmit m result)) ∨
      Sends app resubmit (accepted m w) (transmitWith app resubmit m w).2 := by
  rw [transmitWith_eq]
  split
  · exact .inl ⟨_, rfl⟩
  split
  · exact .inl ⟨_, rfl⟩
  · exact .inr (txSendFirst_spec app resubmit _ rfl)

end Functions

end MiniEcu.IsoTp
