import MiniEcu.IsoTp.Network

/-!
# Two links that agree

As long as no timer of the network expires and every message fits the buffer it is sent to, each end
has been given a prefix of what the other end accepted, nothing ever goes wrong, and at rest the two
lists are equal.
-/

namespace MiniEcu.IsoTp

open Memory Trace

/-- The two ends agree in both directions, and no error has been reported. -/
abbrev Coupled (x y : Node) (ex ey : List (Event Empty)) : Prop := Paired Agrees Event.Fine x y ex ey

theorem Output.Meets.not_isLoss {status : Nat} {o : Output} (h : o.Meets status) : ¬ o.IsLoss := by
  cases o with
  | lost data result => exact absurd h id
  | delivered m => exact id
  | answered s => exact id

/-- A frame that is expected loses nothing and is answered with flow controls only. -/
theorem Direction.Expects.reads {d : Direction} {status : Nat} (h : d.Expects status)
    (hstatus : status < 16) {f : Frame} {rest : List Frame} (hdata : d.data = f :: rest) {r : RxSide}
    {es : List (Event Empty)}
    (hreceive : receive d.receiver.rxBufferSize d.receiver.blockSize.toNat d.rx.assembly (decode f 8)
      = (r.assembly, outputs es))
    (hanswers : Answers d.receiver d.rx r ((outputs es).filter Output.isAnswer) (sentFrames es)) :
    (∀ o ∈ outputs es, ¬ o.IsLoss) ∧ ∀ g ∈ sentFrames es, g.pciType = pciTypeFc := by
  obtain ⟨-, hmeets, hframes, -⟩ := h.received hdata hreceive hanswers
  refine ⟨fun o ho => (hmeets o ho).not_isLoss, fun g hg => ?_⟩
  rw [hframes g hg]
  exact Frame.pciType_padded (by decide) hstatus _

/-- Agreement is kept as long as every accepted message fits. -/
theorem kept_agrees : Kept (fun cfg m => m.length ≤ cfg.rxBufferSize) Event.Fine Agrees where
  tx h := h.tx
  rx h := h.rx
  fine h := h
  sending h hstep := h.sending hstep
  started h hs hpos hmax hfits hfit time := h.started hs hpos hmax hfits hfit time
  arrived h hcontrol := by
    obtain ⟨hs, hframe, -⟩ := h.cleared hcontrol 0
    refine ⟨hs, .inl ⟨?_, fun time => (h.cleared hcontrol time).2.2⟩⟩
    rw [hframe]
    exact Frame.pciLow_padded (by decide) (by decide) _
  received h hdata hrx hreceive hanswers := by
    obtain ⟨hkept, hframes⟩ := h.expects.reads (by decide) hdata hreceive hanswers
    exact ⟨hkept, hframes, (h.received hdata hrx hreceive hanswers).2⟩
  retried h hpending accepted := h.retried hpending accepted

/-! ### Every run -/

/-- Both links are idle and both channels are empty. -/
def Net.AtRest (n : Net) : Prop :=
  isTxBusy n.a.link = false ∧ isTxBusy n.b.link = false ∧ n.a.inbox = [] ∧ n.b.inbox = []

theorem agrees_init (cfgS cfgR : Config) :
    Agrees (direction { link := init cfgS, inbox := [] } { link := init cfgR, inbox := [] } [] []) :=
  ⟨(linkInv_init cfgS).tx, (linkInv_init cfgR).rx, nofun, nofun, nofun, rfl, [], .idle rfl, rfl⟩

/-- The ends of the network are coupled and have the configurations they were initialised with. -/
def InStep (cfgA cfgB : Config) (n : Net) (tr : List (Side × Event Empty)) : Prop :=
  Coupled n.a n.b (eventsAt .a tr) (eventsAt .b tr) ∧
    n.a.link.cfg = (init cfgA).cfg ∧ n.b.link.cfg = (init cfgB).cfg

/-- Every message accepted so far fits the buffer of the other end. -/
def Fits (cfgA cfgB : Config) (tr : List (Side × Event Empty)) : Prop :=
  (∀ m ∈ submissions (eventsAt .a tr), m.length ≤ cfgB.rxBufferSize) ∧
    ∀ m ∈ submissions (eventsAt .b tr), m.length ≤ cfgA.rxBufferSize

theorem Fits.before {cfgA cfgB : Config} {tr tr' : List (Side × Event Empty)}
    (h : Fits cfgA cfgB (tr ++ tr')) : Fits cfgA cfgB tr := by
  constructor
  · intro m hm
    apply h.1
    rw [eventsAt_append, submissions_append]
    exact List.mem_append_left _ hm
  · intro m hm
    apply h.2
    rw [eventsAt_append, submissions_append]
    exact List.mem_append_left _ hm

theorem InStep.step {cfgA cfgB : Config} {n : Net} {tr : List (Side × Event Empty)} (depth : Nat)
    (h : InStep cfgA cfgB n tr) (i : Side × Env × Action) (htimely : n.Timely depth i)
    (hfits : Fits cfgA cfgB (tr ++ (n.step depth i).2)) :
    InStep cfgA cfgB (n.step depth i).1 (tr ++ (n.step depth i).2) := by
  obtain ⟨hcoupled, hcfgA, hcfgB⟩ := h
  have hkept := Net.step_cfg kept_agrees depth hcoupled i
  refine ⟨?_, hkept.1.trans hcfgA, hkept.2.trans hcfgB⟩
  apply Paired.step kept_agrees depth hcoupled i htimely
  · intro m hm
    rw [hcfgB]
    apply hfits.1
    rw [eventsAt_append, submissions_append]
    exact List.mem_append_right _ hm
  · intro m hm
    rw [hcfgA]
    apply hfits.2
    rw [eventsAt_append, submissions_append]
    exact List.mem_append_right _ hm

theorem inStep_run {cfgA cfgB : Config} (depth : Nat) (actions : List (Side × Env × Action))
    (htimely : Along (Net.step depth) (Net.Timely depth) (Net.init cfgA cfgB) actions)
    (hfits : Fits cfgA cfgB (run (Net.step depth) (Net.init cfgA cfgB) actions).2) :
    InStep cfgA cfgB (run (Net.step depth) (Net.init cfgA cfgB) actions).1
      (run (Net.step depth) (Net.init cfgA cfgB) actions).2 := by
  let I : Net → List (Side × Event Empty) → Prop := fun n tr =>
    Fits cfgA cfgB tr → InStep cfgA cfgB n tr
  have hstart : I (Net.init cfgA cfgB) [] := fun _ =>
    ⟨⟨agrees_init cfgA cfgB, agrees_init cfgB cfgA, nofun, nofun⟩, rfl, rfl⟩
  refine run_invariant_of I (Net.Timely depth) ?_ [] hstart actions htimely hfits
  intro n tr i hn hi hall
  exact (hn hall.before).step depth i hi hall

/-- In every run in which no timer expires and every accepted message fits the buffer it is sent to,
each end has been given a prefix of what the other accepted, no error is reported, and at rest each
end has been given everything. -/
theorem two_links_agree (depth : Nat) (cfgA cfgB : Config) (actions : List (Side × Env × Action))
    (htimely : Along (Net.step depth) (Net.Timely depth) (Net.init cfgA cfgB) actions)
    (hfits : Fits cfgA cfgB (run (Net.step depth) (Net.init cfgA cfgB) actions).2) :
    let n := (run (Net.step depth) (Net.init cfgA cfgB) actions).1
    let tr := (run (Net.step depth) (Net.init cfgA cfgB) actions).2
    deliveries (eventsAt .b tr) <+: submissions (eventsAt .a tr) ∧
      deliveries (eventsAt .a tr) <+: submissions (eventsAt .b tr) ∧
      (∀ side, ∀ e ∈ eventsAt side tr, e.Fine) ∧
      (n.AtRest → deliveries (eventsAt .b tr) = submissions (eventsAt .a tr) ∧
        deliveries (eventsAt .a tr) = submissions (eventsAt .b tr)) := by
  intro n tr
  obtain ⟨hcoupled, -⟩ := inStep_run depth actions htimely hfits
  refine ⟨hcoupled.forth.delivered_prefix, hcoupled.back.delivered_prefix, ?_, ?_⟩
  · intro side
    cases side with
    | a => exact hcoupled.here
    | b => exact hcoupled.there
  · intro hrest
    obtain ⟨hidleA, hidleB, hemptyA, hemptyB⟩ := hrest
    have hdataA : dataFrames n.a.inbox = [] := by rw [hemptyA]; rfl
    have hdataB : dataFrames n.b.inbox = [] := by rw [hemptyB]; rfl
    have hA : n.a.link.tx.txState = .idle := by simpa [isTxBusy] using hidleA
    have hB : n.b.link.tx.txState = .idle := by simpa [isTxBusy] using hidleB
    exact ⟨hcoupled.forth.delivered_eq hA hdataB, hcoupled.back.delivered_eq hB hdataA⟩

/-! ### Ten bytes from one end to the other -/

def tenByteConfig : Config where
  txId := 0x7E0
  rxId := 0x7E8
  rxBuffer := List.replicate 16 0
  txBuffer := List.replicate 16 0
  blockSize := 1
  stMin := 0
  nBsTimeoutMs := 0
  nCrTimeoutMs := 0

/-- The driver takes everything, and no time passes. -/
def promptEnv : Env where
  clock _ := 0
  driver _ := true

/-- The message is sent, the FF, its FC and the CF arrive, and the main function runs. -/
def tenByteExchange : List (Side × Env × Action) :=
  [(.a, promptEnv, .transmit (List.range 10 |>.map UInt8.ofNat)), (.b, promptEnv, .deliver),
    (.a, promptEnv, .mainFunction), (.a, promptEnv, .deliver), (.b, promptEnv, .deliver)]

theorem two_links_agree_tenByteExchange :
    deliveries (eventsAt .b
        (run (Net.step 0) (Net.init tenByteConfig tenByteConfig) tenByteExchange).2) =
      submissions (eventsAt .a
        (run (Net.step 0) (Net.init tenByteConfig tenByteConfig) tenByteExchange).2) := by
  have htimely : Along (Net.step 0) (Net.Timely 0) (Net.init tenByteConfig tenByteConfig)
      tenByteExchange := ⟨trivial, trivial, show ¬ Link.Expires 0 _ _ by decide, trivial, trivial,
        trivial⟩
  have hagree := two_links_agree 0 tenByteConfig tenByteConfig tenByteExchange htimely
    ⟨by decide, by decide⟩
  exact (hagree.2.2.2 ⟨by decide, by decide, by decide, by decide⟩).1

end MiniEcu.IsoTp
