import MiniEcu.IsoTp.Segmentation

/-!
# The sender's pace

A receiver paces the sender with its flow controls: each clear-to-send allows a block of consecutive
frames and sets the time between them. `signals` reduces a run to what matters for this, and a
monitor reads it as the receiver would: which clear-to-send is in force, how many consecutive frames
have gone out under it, and what the clock read after the last one. The sender keeps its own copy of
these in the link, the time as a 32-bit stamp; its pause is then long enough whatever the counter
wraps to, as long as time itself does not run backwards.
-/

namespace MiniEcu.IsoTp

open Memory Trace World

variable {σ ε : Type}

/-! ### What a receiver sees of the sender -/

/-- What a call says about the pace of the sender. -/
inductive Signal
  /-- A clear-to-send reaches a sender that waits for it, with its BS and its STmin in
  milliseconds. -/
  | granted (blockSize stMinMs : Nat)
  /-- The driver takes an FF. -/
  | first
  /-- The driver takes a CF. -/
  | consecutive
  | time (reading : Nat)
deriving DecidableEq

def Event.signal : Event ε → Option Signal
  | .sendFrame _ f true =>
      if f.pciType = pciTypeFf then some .first
      else if f.pciType = pciTypeCf then some .consecutive
      else none
  | .getTimeMs reading => some (.time reading)
  | _ => none

def grants (l : Link) : Call → List Signal
  | .rxFrame data dlc =>
      if Clears l.tx data dlc then [.granted (data.byte 1) (decodeStMin (data.byte 2))] else []
  | _ => []

/-- A call, reduced to its signals. The frame it passes comes before anything it does. -/
def signals (app : App σ ε) (depth : Nat) (s : Link × σ) (i : Env × Call) :
    (Link × σ) × List Signal :=
  ((call app depth s i).1, grants s.1 i.2 ++ (call app depth s i).2.filterMap Event.signal)

def Signal.reading : Signal → Option Nat
  | .time reading => some reading
  | _ => none

/-- The readings of the clock, in order. -/
def readings (tr : List Signal) : List Nat := tr.filterMap Signal.reading

/-- What the receiver's flow controls demand of the sender next. -/
structure Pace where
  /-- The BS and the STmin of the clear-to-send in force. -/
  grant : Option (Nat × Nat) := none
  /-- How many CFs have followed it. -/
  sent : Nat := 0
  /-- The first reading after the last of these. -/
  stamp : Option Nat := none
  /-- The last reading. -/
  now : Nat := 0

namespace Pace

/-- A new FF takes the clear-to-send back. -/
def follow (p : Pace) : Signal → Pace
  | .granted blockSize stMinMs =>
      { p with grant := some (blockSize, stMinMs), sent := 0, stamp := none }
  | .first => { p with grant := none }
  | .consecutive => { p with sent := p.sent + 1, stamp := none }
  | .time reading => { p with stamp := some (p.stamp.getD reading), now := reading }

/-- A CF is allowed by a clear-to-send, is within its block, and comes later than STmin after the
last one. `between` is how the time between two readings is measured. -/
def Obeys (between : Nat → Nat → Nat) (p : Pace) : Signal → Prop
  | .consecutive => ∃ blockSize stMinMs, p.grant = some (blockSize, stMinMs) ∧
      (blockSize ≠ 0 → p.sent < blockSize) ∧
      (0 < stMinMs → 0 < p.sent → ∃ stamp, p.stamp = some stamp ∧ stMinMs < between p.now stamp)
  | _ => True

/-- The time between two readings, as the code computes it. -/
def wrapped (now stamp : Nat) : Nat := elapsed (now % 2 ^ 32) (stamp % 2 ^ 32)

/-- While the sender sends CFs it knows what is demanded of it. -/
def Matches (p : Pace) (t : TxSide) : Prop :=
  t.txState = .sendCf →
    p.grant = some (t.txBlockSize, t.txStMinMs) ∧
    (t.txBlockSize ≠ 0 → p.sent = t.txBlockCount) ∧
    (0 < p.sent → ∃ stamp, p.stamp = some stamp ∧ t.txLastCfTime = stamp % 2 ^ 32)

/-! ### The sender obeys -/

variable {p : Pace} {t : TxSide}

theorem Matches.of_ne (h : t.txState ≠ .sendCf) : p.Matches t := fun hs => absurd hs h

theorem Matches.time (h : p.Matches t) (reading : Nat) : (p.follow (.time reading)).Matches t := by
  intro hs
  obtain ⟨hgrant, hsent, hstamp⟩ := h hs
  refine ⟨hgrant, hsent, fun hpos => ?_⟩
  obtain ⟨stamp, heq, htime⟩ := hstamp hpos
  exact ⟨stamp, by simp [follow, heq], htime⟩

theorem Matches.times (h : p.Matches t) {tr : List Signal}
    (htimes : ∀ s ∈ tr, ∃ reading, s = .time reading) :
    Monitored follow (Obeys wrapped) p tr ∧ (tr.foldl follow p).Matches t := by
  induction tr generalizing p with
  | nil => exact ⟨monitored_nil p, h⟩
  | cons s tr ih =>
      obtain ⟨reading, rfl⟩ := htimes s List.mem_cons_self
      obtain ⟨hobeys, hmatches⟩ := ih (h.time reading) fun s hs => htimes s (List.mem_cons_of_mem _ hs)
      exact ⟨(monitored_cons _ _ _).mpr ⟨trivial, hobeys⟩, hmatches⟩

/-- A sender that has waited for STmin may send its next CF. -/
theorem Matches.paced {cfg : Config} (h : p.Matches t) (hinv : TxInv cfg t)
    (hs : t.txState = .sendCf) {pace : List (Event ε)} (hpace : t.Paced pace) :
    Monitored follow (Obeys wrapped) p (pace.filterMap Event.signal) ∧
      ((pace.filterMap Event.signal).foldl follow p).Matches t ∧
      Obeys wrapped ((pace.filterMap Event.signal).foldl follow p) .consecutive := by
  have hblock : t.txBlockSize ≠ 0 → p.sent < t.txBlockSize := fun hpos => by
    rw [(h hs).2.1 hpos]
    exact hinv.blockCount hs hpos
  cases hpace with
  | free hzero =>
      refine ⟨monitored_nil p, h, _, _, (h hs).1, hblock, fun hpos => ?_⟩
      omega
  | waited reading hpos hlate =>
      have htimed := h.time reading
      refine ⟨(monitored_cons _ _ _).mpr ⟨trivial, monitored_nil _⟩, htimed, _, _, (htimed hs).1,
        hblock, fun _ hsent => ?_⟩
      obtain ⟨stamp, heq, hstamp⟩ := (htimed hs).2.2 hsent
      refine ⟨stamp, heq, ?_⟩
      rw [hstamp] at hlate
      exact hlate

/-- The monitor accepts the events and agrees with the sender afterwards. -/
def Follows (p : Pace) (es : List (Event ε)) (t' : TxSide) : Prop :=
  Monitored follow (Obeys wrapped) p (es.filterMap Event.signal) ∧
    ((es.filterMap Event.signal).foldl follow p).Matches t'

theorem Matches.quiet (h : p.Matches t) {es : List (Event ε)}
    (hes : ∀ s ∈ es.filterMap Event.signal, ∃ reading, s = .time reading) : p.Follows es t :=
  h.times hes

theorem Follows.of_ne {es : List (Event ε)} (hes : Signal.consecutive ∉ es.filterMap Event.signal)
    (hne : t.txState ≠ .sendCf) : p.Follows es t := by
  refine ⟨fun before s after hsplit => ?_, .of_ne hne⟩
  cases s with
  | consecutive => exact absurd (by simp [hsplit]) hes
  | granted | first | time => trivial

theorem Matches.sent {cfg : Config} (h : p.Matches t) (hinv : TxInv cfg t)
    (hs : t.txState = .sendCf) {pace : List (Event ε)} (hpace : t.Paced pace) {canId : Nat}
    {time : Nat} {rest : List (Event ε)} {t' : TxSide}
    (hrest : ∀ s ∈ rest.filterMap Event.signal, ∃ reading, s = .time reading)
    (hnext : t'.txState = .sendCf →
      t'.txBlockSize = t.txBlockSize ∧ t'.txStMinMs = t.txStMinMs ∧
        (t.txBlockSize ≠ 0 → t'.txBlockCount = t.txBlockCount + 1) ∧
        t'.txLastCfTime = time % 2 ^ 32) :
    p.Follows (pace ++ .txRead t.txOffset t.chunk :: .sendFrame canId t.consecutive true ::
      .counted 16 (t.txOffset + t.chunk) :: .getTimeMs time :: rest) t' := by
  obtain ⟨hpaced, hmatches, hobeys⟩ := h.paced hinv hs hpace
  have hsignals : (.txRead t.txOffset t.chunk :: .sendFrame canId t.consecutive true ::
      .counted 16 (t.txOffset + t.chunk) :: .getTimeMs time :: rest : List (Event ε)).filterMap
        Event.signal = .consecutive :: .time time :: rest.filterMap Event.signal := by
    simp [List.filterMap_cons, Event.signal, hinv.pciType_consecutive_eq hs]
  obtain ⟨hgrant, hcount, -⟩ := hmatches hs
  unfold Follows
  rw [List.filterMap_append, hsignals, monitored_append, List.foldl_append]
  generalize (pace.filterMap Event.signal).foldl follow p = q at hobeys hgrant hcount ⊢
  have hafter : ((q.follow .consecutive).follow (.time time)).Matches t' := by
    intro hs'
    obtain ⟨hblock, hstMin, hnextCount, hstamp⟩ := hnext hs'
    refine ⟨?_, fun hpos => ?_, fun _ => ⟨time, rfl, hstamp⟩⟩
    · rw [hblock, hstMin]
      exact hgrant
    · rw [hblock] at hpos
      rw [hnextCount hpos, ← hcount hpos]
      rfl
  obtain ⟨hobeysRest, hmatches'⟩ := hafter.times hrest
  refine ⟨⟨hpaced, ?_⟩, hmatches'⟩
  exact (monitored_cons _ _ _).mpr ⟨hobeys, (monitored_cons _ _ _).mpr ⟨trivial, hobeysRest⟩⟩

theorem Matches.sending {cfg : Config} {t' : TxSide} {es : List (Event ε)} (h : p.Matches t)
    (hinv : TxInv cfg t) (hstep : Sending cfg t es t') : p.Follows es t' := by
  have hfirst : ∀ canId, (Event.sendFrame (ε := ε) canId t.first true).signal ≠ some .consecutive := by
    intro canId
    have htype := t.pciType_first_le
    have hcf : t.first.pciType ≠ 2 := by
      simp only [pciTypeFf] at htype
      omega
    simp only [Event.signal, pciTypeCf, if_neg hcf]
    split <;> exact nofun
  cases hstep with
  | firstRefused | tooEarly | unfinished =>
      exact h.quiet (by simp [List.filterMap_cons, Event.signal])
  | singleSent hs hlen =>
      refine .of_ne ?_ nofun
      simpa [Event.signal] using hfirst cfg.txId
  | firstSent hs hlen time =>
      refine .of_ne ?_ nofun
      simpa [Event.signal] using hfirst cfg.txId
  | cfRefused hs hpace =>
      obtain ⟨hpaced, hmatches, -⟩ := h.paced hinv hs hpace
      unfold Follows
      rw [List.filterMap_append]
      simpa [List.filterMap_cons, Event.signal] using ⟨hpaced, hmatches⟩
  | lastSent hs hpace time =>
      exact h.sent hinv hs hpace (by simp [List.filterMap_cons, Event.signal]) nofun
  | cfSent hs hpace time hmore hblock =>
      exact h.sent hinv hs hpace (by simp) fun _ => ⟨rfl, rfl, fun hpos => absurd hblock hpos, rfl⟩
  | cfSentInBlock hs hpace time hmore hblock hcount =>
      refine h.sent hinv hs hpace (by simp [List.filterMap_cons, Event.signal]) fun _ =>
        ⟨rfl, rfl, fun _ => ?_, rfl⟩
      have hlt := hinv.blockCount hs hblock
      have hsize := hinv.blockSize
      exact Nat.mod_eq_of_lt (by omega)
  | blockSent hs hpace time after =>
      exact h.sent hinv hs hpace (by simp [List.filterMap_cons, Event.signal]) nofun

/-- Every step of the sender, the start of a block apart. -/
theorem Matches.step {cfg : Config} {t' : TxSide} {es : List (Event ε)} (h : p.Matches t)
    (hinv : TxInv cfg t) (hstep : TxStep cfg t es t')
    (hne : t.txState = .waitFc → t'.txState ≠ .sendCf) : p.Follows es t' := by
  cases hstep with
  | sending hsending => exact h.sending hinv hsending
  | badParam | busy | notYet => exact h.quiet (by simp [List.filterMap_cons, Event.signal])
  | clearToSend data time hs => exact absurd rfl (hne hs)
  | start | waitOverrun | flowAborted | timedOut => exact .of_ne (by simp [Event.signal]) nofun
  | wait time hs hle => exact .of_ne (by simp [Event.signal]) (by simp [hs])

theorem Matches.rxStep {cfg : Config} {r r' : RxSide} {es : List (Event ε)} (h : p.Matches t)
    (hinv : RxInv cfg r) (hstep : RxStep cfg r es r') : p.Follows es t := by
  apply h.quiet
  cases hstep with
  | flowControl status accepted hstatus =>
      have hle := hinv.flowStatus hstatus
      have htype : (flowControlFrame status cfg.blockSize cfg.stMin).pciType = 3 :=
        Frame.pciType_padded (by decide) (by omega) _
      cases accepted <;> simp [List.filterMap_cons, Event.signal, htype]
  | _ => simp [List.filterMap_cons, Event.signal]

end Pace

/-! ### Every call -/

/-- From `w` to `w'` the monitor accepts what happens, and still agrees with the sender. -/
def Keeps (w w' : World σ ε) : Prop :=
  ∃ es, w'.events = w.events ++ es ∧ (LinkInv w.link → LinkInv w'.link ∧
    ∀ p : Pace, p.Matches w.link.tx → p.Follows es w'.link.tx)

theorem Keeps.trans {u v w : World σ ε} (h₁ : Keeps u v) (h₂ : Keeps v w) : Keeps u w := by
  obtain ⟨es, hes, hkeep₁⟩ := h₁
  obtain ⟨fs, hfs, hkeep₂⟩ := h₂
  refine ⟨es ++ fs, by rw [hfs, hes, List.append_assoc], fun hinv => ?_⟩
  obtain ⟨hinv', hfollows₁⟩ := hkeep₁ hinv
  obtain ⟨hinv'', hfollows₂⟩ := hkeep₂ hinv'
  refine ⟨hinv'', fun p hp => ?_⟩
  obtain ⟨hobeys₁, hmatches₁⟩ := hfollows₁ p hp
  obtain ⟨hobeys₂, hmatches₂⟩ := hfollows₂ _ hmatches₁
  unfold Pace.Follows
  rw [List.filterMap_append, monitored_append, List.foldl_append]
  exact ⟨⟨hobeys₁, hobeys₂⟩, hmatches₂⟩

theorem closed_keeps : Closed (Keeps (σ := σ) (ε := ε)) where
  refl w := ⟨[], by simp, fun hinv => ⟨hinv, fun _ hp => hp.quiet (by simp)⟩⟩
  trans := Keeps.trans
  settle w r := by
    refine ⟨r.log.map .app, rfl, fun hinv => ⟨hinv, fun p hp => hp.quiet ?_⟩⟩
    simp [List.filterMap_map, Function.comp_def, Event.signal]
  tx hmoves hstep hne := by
    refine ⟨_, hmoves.events, fun hinv => ⟨⟨?_, ?_⟩, fun p hp => hp.step hinv.tx hstep hne⟩⟩
    · rw [hmoves.cfg, hmoves.rx]
      exact hinv.rx
    · rw [hmoves.cfg]
      exact hinv.tx.step hstep
  rx hmoves hstep := by
    refine ⟨_, hmoves.events, fun hinv => ⟨⟨?_, ?_⟩, fun p hp => ?_⟩⟩
    · rw [hmoves.cfg]
      exact hinv.rx.step hstep
    · rw [hmoves.cfg, hmoves.tx]
      exact hinv.tx
    · rw [hmoves.tx]
      exact hp.rxStep hinv.rx hstep

theorem matches_cleared (p : Pace) (t : TxSide) (blockSize stMin time : Nat) :
    ((p.follow (.granted blockSize (decodeStMin stMin))).follow (.time time)).Matches
      (t.cleared blockSize stMin time) :=
  fun _ => ⟨rfl, fun _ => rfl, fun hpos => absurd hpos (Nat.lt_irrefl 0)⟩

theorem linkInv_clearedBy {data : Frame} {w : World σ ε} (hinv : LinkInv w.link)
    (hs : w.link.tx.txState = .waitFc) : LinkInv (clearedBy data w).link where
  rx := hinv.rx
  tx := hinv.tx.step (.clearToSend (ε := ε) data (w.env.clock w.reads) hs)

theorem grants_eq_nil {l : Link} {c : Call}
    (h : ∀ data dlc, c = .rxFrame data dlc → ¬ Clears l.tx data dlc) : grants l c = [] := by
  cases c with
  | transmit m => rfl
  | mainFunction => rfl
  | rxFrame data dlc => exact if_neg (h data dlc rfl)

theorem call_cts (app : App σ ε) (depth : Nat) {s : Link × σ} (env : Env) {data : Frame} {dlc : Nat}
    (h : Clears s.1.tx data dlc) :
    call app depth s (env, .rxFrame data dlc) =
      let out := txSendConsecutiveFrames app (nested app depth)
        (clearedBy data { link := s.1, app := s.2, env := env })
      ((out.link, out.app), out.events) := by
  let w : World σ ε := { link := s.1, app := s.2, env := env }
  have hframe := rxFrame_cts app (nested app depth) (w := w) h
  simp only [call, invoke, w, hframe]

theorem follows_call (app : App σ ε) (depth : Nat) {s : Link × σ} (hinv : LinkInv s.1)
    (i : Env × Call) {p : Pace} (hp : p.Matches s.1.tx) :
    Monitored Pace.follow (Pace.Obeys Pace.wrapped) p (signals app depth s i).2 ∧
      ((signals app depth s i).2.foldl Pace.follow p).Matches (signals app depth s i).1.1.tx := by
  obtain ⟨env, c⟩ := i
  let w : World σ ε := { link := s.1, app := s.2, env := env }
  by_cases hcts : ∃ data dlc, c = .rxFrame data dlc ∧ Clears s.1.tx data dlc
  · obtain ⟨data, dlc, rfl, hclears⟩ := hcts
    have hsends : Keeps (clearedBy data w)
        (txSendConsecutiveFrames app (nested app depth) (clearedBy data w)) :=
      closed_keeps.txSendConsecutiveFrames (closed_keeps.nested app depth)
        (resubmits_nested app depth) _
    obtain ⟨es, hes, hkeep⟩ := hsends
    have hfollows := (hkeep (linkInv_clearedBy hinv hclears.1)).2 _
      (matches_cleared p s.1.tx (data.byte 1) (data.byte 2) (env.clock 0))
    have hevents : (clearedBy data w).events = [.getTimeMs (env.clock 0)] := rfl
    simp only [signals, grants, if_pos hclears, call_cts app depth env hclears, w, hes, hevents]
    refine ⟨?_, hfollows.2⟩
    exact (monitored_cons _ _ _).mpr ⟨trivial, (monitored_cons _ _ _).mpr ⟨trivial, hfollows.1⟩⟩
  · have hnone : ∀ data dlc, c = .rxFrame data dlc → ¬ Clears s.1.tx data dlc :=
      fun data dlc hc hclears => hcts ⟨data, dlc, hc, hclears⟩
    obtain ⟨es, hes, hkeep⟩ := closed_keeps.invoke app depth (c := c) (w := w)
      fun data dlc hc hclears => absurd hclears (hnone data dlc hc)
    have hsignals : (signals app depth s (env, c)).2 = es.filterMap Event.signal := by
      have hevents : (call app depth s (env, c)).2 = es := hes.trans (List.nil_append es)
      simp only [signals, grants_eq_nil hnone, hevents, List.nil_append]
    rw [hsignals]
    exact (hkeep hinv).2 p hp

/-! ### Every run -/

theorem follows_run (app : App σ ε) (depth : Nat) (cfg : Config) (a : σ)
    (calls : List (Env × Call)) :
    Monitored Pace.follow (Pace.Obeys Pace.wrapped) {}
      (run (signals app depth) (init cfg, a) calls).2 := by
  let I : Link × σ → List Signal → Prop := fun s tr =>
    LinkInv s.1 ∧ Monitored Pace.follow (Pace.Obeys Pace.wrapped) {} tr ∧
      (tr.foldl Pace.follow {}).Matches s.1.tx
  have hstart : I (init cfg, a) [] := ⟨linkInv_init cfg, monitored_nil _, .of_ne nofun⟩
  refine (run_invariant I ?_ [] hstart calls).2.1
  rintro s tr i ⟨hinv, hobeys, hmatches⟩
  obtain ⟨hcall, hmatches'⟩ := follows_call app depth hinv i hmatches
  refine ⟨(hinv.after app depth (.call i.1 i.2)).1, (monitored_append _ _ _).mpr ⟨hobeys, hcall⟩, ?_⟩
  rw [List.foldl_append]
  exact hmatches'

namespace Pace

/-- If time does not run backwards, the stamp is not after the last reading. -/
theorem stamp_le_now {tr : List Signal} (hclock : (readings tr).Pairwise (· ≤ ·)) {p : Pace}
    (hstamp : ∀ stamp, p.stamp = some stamp → stamp ≤ p.now) (hnow : ∀ t ∈ readings tr, p.now ≤ t) :
    ∀ stamp, (tr.foldl follow p).stamp = some stamp → stamp ≤ (tr.foldl follow p).now := by
  induction tr generalizing p with
  | nil => exact hstamp
  | cons s tr ih =>
      rw [List.foldl_cons]
      cases s with
      | granted | consecutive => exact ih hclock (by simp [follow]) hnow
      | first => exact ih hclock hstamp hnow
      | time reading =>
          obtain ⟨hnext, hrest⟩ := List.pairwise_cons.mp hclock
          refine ih hrest (fun stamp heq => ?_) hnext
          have hle : p.now ≤ reading := hnow reading List.mem_cons_self
          cases hold : p.stamp with
          | none =>
              simp only [follow, hold, Option.getD_none, Option.some.injEq] at heq ⊢
              omega
          | some old =>
              have := hstamp old hold
              simp only [follow, hold, Option.getD_some, Option.some.injEq] at heq ⊢
              omega

/-- What the code measures is no more than the time that has passed. -/
theorem obeys_of_wrapped {tr : List Signal} (hclock : (readings tr).Pairwise (· ≤ ·))
    (h : Monitored follow (Obeys wrapped) {} tr) :
    Monitored follow (Obeys fun now stamp => now - stamp) {} tr := by
  intro before s after hsplit
  have hbefore : (readings before).Pairwise (· ≤ ·) := by
    rw [hsplit, readings, List.filterMap_append] at hclock
    exact (List.pairwise_append.mp hclock).1
  have hobeys := h before s after hsplit
  cases s with
  | granted | first | time => trivial
  | consecutive =>
      obtain ⟨blockSize, stMinMs, hgrant, hblock, hpause⟩ := hobeys
      refine ⟨blockSize, stMinMs, hgrant, hblock, fun hpos hsent => ?_⟩
      obtain ⟨stamp, hstamp, hlt⟩ := hpause hpos hsent
      have hle := stamp_le_now hbefore (by simp) (fun _ _ => Nat.zero_le _) stamp hstamp
      exact ⟨stamp, hstamp, Nat.lt_of_lt_of_le hlt (elapsed_le hle)⟩

end Pace

/-! ### The first CF of a block -/

/-- The driver is offered a CF. -/
def Event.OffersCf : Event ε → Prop
  | .sendFrame _ f _ => f.pciType = pciTypeCf
  | _ => False

/-- If the clock advances by less than half its range, the call that processes a clear-to-send
offers the first CF to the driver. -/
def OffersAtOnce (app : App σ ε) (depth : Nat) (s : Link × σ) (i : Env × Call) : Prop :=
  grants s.1 i.2 ≠ [] →
    (readings (signals app depth s i).2).Pairwise (fun t t' => t ≤ t' ∧ t' < t + 2 ^ 31) →
    ∃ e ∈ (call app depth s i).2, e.OffersCf

theorem decodeStMin_le (raw : Nat) : decodeStMin raw ≤ 127 := by
  unfold decodeStMin
  split
  · omega
  split <;> omega

/-- The stamp of a clear-to-send lies far enough in the past. -/
theorem elapsed_cleared {d t₀ t₁ : Nat} (hd : d ≤ 127) (hle : t₀ ≤ t₁) (hlt : t₁ < t₀ + 2 ^ 31) :
    d < elapsed (t₁ % 2 ^ 32) (elapsed (t₀ % 2 ^ 32) (d + 1)) := by
  unfold elapsed wrapSub
  omega

theorem Sending.offersCf {cfg : Config} {t t' : TxSide} {es : List (Event ε)}
    (h : Sending cfg t es t') (hinv : TxInv cfg t) (hs : t.txState = .sendCf) :
    (∃ e ∈ es, e.OffersCf) ∨ ∃ time, es = [.getTimeMs time] ∧
      elapsed (time % 2 ^ 32) t.txLastCfTime ≤ t.txStMinMs := by
  have htype := hinv.pciType_consecutive_eq hs
  cases h with
  | firstRefused hs' | singleSent hs' | firstSent hs' =>
      rw [hs] at hs'
      cases hs'
  | tooEarly _ time hpos h => exact .inr ⟨time, rfl, h⟩
  | cfRefused => exact .inl ⟨.sendFrame cfg.txId t.consecutive false, by simp, htype⟩
  | lastSent | cfSent | cfSentInBlock | blockSent =>
      exact .inl ⟨.sendFrame cfg.txId t.consecutive true, by simp, htype⟩
  | unfinished _ hlen =>
      have hmax := hinv.length
      omega

section Loop

variable {app : App σ ε} {resubmit : Bytes → World σ ε → World σ ε}

theorem events_txCfLoop (hres : Resubmits resubmit) (fuel : Nat) (w : World σ ε) :
    ∃ es, (txCfLoop app resubmit fuel w).events = w.events ++ es := by
  induction fuel generalizing w with
  | zero =>
      unfold txCfLoop
      split
      · exact ⟨[_], rfl⟩
      · exact ⟨[], by simp⟩
  | succ fuel ih =>
      unfold txCfLoop
      split
      · rename_i hs
        obtain ⟨-, es, hes, -⟩ :=
          closed_leads.sends hres.leads (txCfIteration_spec app resubmit w hs)
        simp only []
        split
        · obtain ⟨fs, hfs⟩ := ih (txCfIteration app resubmit w).2
          exact ⟨es ++ fs, by rw [hfs, hes, List.append_assoc]⟩
        · exact ⟨es, hes⟩
      · exact ⟨[], by simp⟩

variable (app) in
/-- The first turn of the loop either offers a CF or reads the clock too early. -/
theorem offersCf_txSendConsecutiveFrames (hres : Resubmits resubmit) {w : World σ ε}
    (hinv : TxInv w.link.cfg w.link.tx) (hs : w.link.tx.txState = .sendCf) :
    ∃ es, (txSendConsecutiveFrames app resubmit w).events = w.events ++ es ∧
      ((∃ e ∈ es, e.OffersCf) ∨ ∃ time rest, es = .getTimeMs time :: rest ∧
        elapsed (time % 2 ^ 32) w.link.tx.txLastCfTime ≤ w.link.tx.txStMinMs) := by
  obtain ⟨es, w', hmoves, hsending, hout⟩ := txCfIteration_spec app resubmit w hs
  have hturn : ∃ fs, (txCfIteration app resubmit w).2.events = w'.events ++ fs := by
    rcases hout with heq | ⟨clock, result, a, heq, -⟩
    · exact ⟨[], by rw [heq, List.append_nil]⟩
    · obtain ⟨-, fs, hfs, -⟩ := closed_leads.react hres.leads (app.txConfirmation clock result a) w'
      exact ⟨fs, by rw [heq, hfs]⟩
  obtain ⟨fs, hfs⟩ := hturn
  have hloop : ∃ gs, (txSendConsecutiveFrames app resubmit w).events
      = (txCfIteration app resubmit w).2.events ++ gs := by
    simp only [txSendConsecutiveFrames, txCfLoop, if_pos hs]
    split
    · exact events_txCfLoop hres _ _
    · exact ⟨[], by simp⟩
  obtain ⟨gs, hgs⟩ := hloop
  refine ⟨es ++ (fs ++ gs), ?_, ?_⟩
  · rw [hgs, hfs, hmoves.events]
    simp
  rcases hsending.offersCf hinv hs with ⟨e, he, hoffers⟩ | ⟨time, rfl, hearly⟩
  · exact .inl ⟨e, List.mem_append_left _ he, hoffers⟩
  · exact .inr ⟨time, fs ++ gs, rfl, hearly⟩

end Loop

theorem offersAtOnce (app : App σ ε) (depth : Nat) {s : Link × σ} (hinv : LinkInv s.1)
    (i : Env × Call) : OffersAtOnce app depth s i := by
  obtain ⟨env, c⟩ := i
  intro hgrants hclock
  have hcts : ∃ data dlc, c = .rxFrame data dlc ∧ Clears s.1.tx data dlc := by
    by_contra hnot
    exact hgrants (grants_eq_nil fun data dlc hc hclears => hnot ⟨data, dlc, hc, hclears⟩)
  obtain ⟨data, dlc, rfl, hclears⟩ := hcts
  let w : World σ ε := clearedBy data { link := s.1, app := s.2, env := env }
  obtain ⟨es, hes, hturn⟩ := offersCf_txSendConsecutiveFrames app (w := w)
    (resubmits_nested app depth) (linkInv_clearedBy hinv hclears.1).tx rfl
  have hevents : (call app depth s (env, .rxFrame data dlc)).2 = .getTimeMs (env.clock 0) :: es := by
    rw [call_cts app depth env hclears]
    exact hes
  rcases hturn with ⟨e, he, hoffers⟩ | ⟨time, rest, rfl, hearly⟩
  · rw [hevents]
    exact ⟨e, List.mem_cons_of_mem _ he, hoffers⟩
  · have hreadings : readings (signals app depth s (env, .rxFrame data dlc)).2
        = env.clock 0 :: time :: readings (rest.filterMap Event.signal) := by
      simp only [signals, hevents, grants, if_pos hclears]
      rfl
    rw [hreadings] at hclock
    obtain ⟨hle, hlt⟩ := (List.pairwise_cons.mp hclock).1 time List.mem_cons_self
    exact absurd (elapsed_cleared (decodeStMin_le (data.byte 2)) hle hlt) (Nat.not_lt.mpr hearly)

/-- In every run in which the clock does not run backwards, every CF is allowed by a clear-to-send
that has come since the FF, lies within its block, and keeps STmin; and the first CF of a block is
offered in the call that processes its clear-to-send. -/
theorem obeys_pace (app : App σ ε) (depth : Nat) (cfg : Config) (a : σ) (calls : List (Env × Call))
    (hclock : (readings (run (signals app depth) (init cfg, a) calls).2).Pairwise (· ≤ ·)) :
    Monitored Pace.follow (Pace.Obeys fun now stamp => now - stamp) {}
      (run (signals app depth) (init cfg, a) calls).2 ∧
    Along (call app depth) (OffersAtOnce app depth) (init cfg, a) calls :=
  ⟨Pace.obeys_of_wrapped hclock (follows_run app depth cfg a calls),
    along_of_invariant (fun s => LinkInv s.1)
      (fun _ i hinv => (hinv.after app depth (.call i.1 i.2)).1)
      (fun _ i hinv => offersAtOnce app depth hinv i) (linkInv_init cfg) calls⟩

/-- Thirty-two bytes of buffer on each side. -/
def paceConfig : Config where
  txId := 0x7E0
  rxId := 0x7E8
  rxBuffer := List.replicate 32 0
  txBuffer := List.replicate 32 0
  blockSize := 0
  stMin := 0
  nBsTimeoutMs := 0
  nCrTimeoutMs := 0

/-- Twenty-two bytes go out around the wrap of the counter: a block of two CFs five milliseconds
apart, and a third one under a flow control of its own. -/
def pacedCalls : List (Env × Call) :=
  [(⟨fun _ => 2 ^ 32 - 20, fun _ => true⟩, .transmit (List.replicate 22 7)),
    (⟨fun _ => 2 ^ 32 - 4, fun _ => true⟩, .rxFrame (flowControlFrame 0 2 5) 8),
    (⟨fun _ => 2 ^ 32 + 1, fun _ => true⟩, .mainFunction),
    (⟨fun _ => 2 ^ 32 + 2, fun _ => true⟩, .mainFunction),
    (⟨fun _ => 2 ^ 32 + 9, fun _ => true⟩, .rxFrame (flowControlFrame 0 0 0xF1) 8)]

theorem obeys_pace_acrossWrap :
    (Monitored Pace.follow (Pace.Obeys fun now stamp => now - stamp) {}
        (run (signals silent 0) (init paceConfig, ()) pacedCalls).2 ∧
      Along (call silent 0) (OffersAtOnce silent 0) (init paceConfig, ()) pacedCalls) ∧
    (run (signals silent 0) (init paceConfig, ()) pacedCalls).2.count .consecutive = 3 :=
  ⟨obeys_pace silent 0 paceConfig () pacedCalls (by decide), by decide⟩

end MiniEcu.IsoTp
