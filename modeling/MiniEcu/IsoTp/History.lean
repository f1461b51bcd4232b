import Mathlib.Data.List.Induction
import MiniEcu.IsoTp.Deliveries

/-!
# Which messages a link delivers

The history of a link says which messages it delivers: a single frame delivers its payload, and a
first frame delivers a message once consecutive frames with the right numbers have brought all its
bytes, with nothing in between but frames that a receiver ignores and calls of the main function
that see no timeout. The sending half of the link plays no part in it.
-/

namespace MiniEcu.IsoTp

open Memory Trace

/-! ### The history of a reception -/

/-- The call passes a single frame that fits the buffer, with the payload `d`. -/
def SingleArrives (cfg : Config) (c : Call) (d : Bytes) : Prop :=
  ∃ f dlc, c = .rxFrame f dlc ∧ dlc ≤ 8 ∧ f.pciType = 0 ∧ 1 ≤ f.pciLow ∧ f.pciLow ≤ 7 ∧
    f.pciLow ≤ dlc - 1 ∧ f.pciLow ≤ cfg.rxBufferSize ∧ d = slice f.bytes 1 f.pciLow

/-- The call passes nothing that a reception in progress reacts to: `expected` is the next sequence
number, `missing` how many bytes the next consecutive frame has to bring. -/
def Ignorable (cfg : Config) (expected missing : Nat) : Call → Prop
  | .transmit _ => True
  | .mainFunction => False
  | .rxFrame f dlc =>
      dlc = 0 ∨ 8 < dlc ∨ 3 ≤ f.pciType ∨
      (f.pciType = 0 ∧ ¬ (1 ≤ f.pciLow ∧ f.pciLow ≤ 7 ∧ f.pciLow ≤ dlc - 1 ∧
        f.pciLow ≤ cfg.rxBufferSize)) ∨
      (f.pciType = 1 ∧ (dlc < 8 ∨ f.ffLength ≤ 7)) ∨
      (f.pciType = 2 ∧ f.pciLow = expected ∧ dlc - 1 < missing)

/-- The history ends in a reception: the announced length, the bytes so far, how many consecutive
frames have been taken, and when the last of its frames was. -/
inductive Collecting (cfg : Config) : List (Env × Call) → Nat → Bytes → Nat → Nat → Prop
  | first (before : List (Env × Call)) (env : Env) (f : Frame) {n : Nat} (htype : f.pciType = 1)
      (hn : f.ffLength = n) (hmin : 8 ≤ n) (hfit : n ≤ cfg.rxBufferSize) :
      Collecting cfg (before ++ [(env, .rxFrame f 8)]) n (slice f.bytes 2 6) 0 (env.clock 0)
  | next {ins : List (Env × Call)} {n k time : Nat} {data : Bytes}
      (h : Collecting cfg ins n data k time) (env : Env) (f : Frame)
      (htype : f.pciType = 2) (hseq : f.pciLow = (k + 1) % 16) (hmore : data.length + 7 < n) :
      Collecting cfg (ins ++ [(env, .rxFrame f 8)]) n (data ++ slice f.bytes 1 7) (k + 1)
        (env.clock 0)
  | ignored {ins : List (Env × Call)} {n k time : Nat} {data : Bytes}
      (h : Collecting cfg ins n data k time) (env : Env) (c : Call)
      (hignorable : Ignorable cfg ((k + 1) % 16) (min 7 (n - data.length)) c) :
      Collecting cfg (ins ++ [(env, c)]) n data k time
  | running {ins : List (Env × Call)} {n k time : Nat} {data : Bytes}
      (h : Collecting cfg ins n data k time) (env : Env)
      (hrunning : elapsed (env.clock 0 % 2 ^ 32) (time % 2 ^ 32) < cfg.nCrTimeoutMs) :
      Collecting cfg (ins ++ [(env, .mainFunction)]) n data k time

/-- The call passes the consecutive frame that completes the reception the history ends in. -/
def Completes (cfg : Config) (before : List (Env × Call)) (c : Call) (d : Bytes) : Prop :=
  ∃ n data k time f dlc, Collecting cfg before n data k time ∧ c = .rxFrame f dlc ∧ dlc ≤ 8 ∧
    f.pciType = 2 ∧ f.pciLow = (k + 1) % 16 ∧ min 7 (n - data.length) ≤ dlc - 1 ∧
    n ≤ data.length + 7 ∧ d = (data ++ slice f.bytes 1 7).take n

/-! ### In terms of data units -/

section Pdus

variable {cfg : Config}

theorem singleArrives_iff {c : Call} {d : Bytes} :
    SingleArrives cfg c d ↔ c.pdu = .single d ∧ d.length ≤ cfg.rxBufferSize := by
  constructor
  · rintro ⟨f, dlc, rfl, hdlc, htype, hpos, hmax, henough, hfit, rfl⟩
    rw [length_slice_payload hmax, Call.pdu, decode_sf (by omega) htype, if_neg (by omega)]
    exact ⟨rfl, hfit⟩
  · rintro ⟨hpdu, hfit⟩
    cases c with
    | transmit m => cases hpdu
    | mainFunction => cases hpdu
    | rxFrame f dlc =>
        rcases decode_cases f dlc with heq | ⟨hdlc, htype, hgood, heq⟩ | ⟨-, -, -, heq⟩ | ⟨-, -, heq⟩
        · cases heq.symm.trans hpdu
        · obtain rfl := Pdu.single.inj (heq.symm.trans hpdu)
          rw [length_slice_payload (by omega)] at hfit
          exact ⟨f, dlc, rfl, by omega, htype, by omega, by omega, by omega, hfit, rfl⟩
        · cases heq.symm.trans hpdu
        · cases heq.symm.trans hpdu

theorem pdu_first {c : Call} {n : Nat} {d : Bytes} (h : c.pdu = .first n d) :
    ∃ f, c = .rxFrame f 8 ∧ f.pciType = 1 ∧ f.ffLength = n ∧ 8 ≤ n ∧ d = slice f.bytes 2 6 := by
  cases c with
  | transmit m => cases h
  | mainFunction => cases h
  | rxFrame f dlc =>
      rcases decode_cases f dlc with heq | ⟨-, -, -, heq⟩ | ⟨rfl, htype, hmin, heq⟩ | ⟨-, -, heq⟩
      · cases heq.symm.trans h
      · cases heq.symm.trans h
      · obtain ⟨rfl, rfl⟩ := Pdu.first.inj (heq.symm.trans h)
        exact ⟨f, rfl, htype, rfl, hmin, rfl⟩
      · cases heq.symm.trans h

theorem pdu_consecutive {c : Call} {seq : Nat} {data : Bytes} (h : c.pdu = .consecutive seq data) :
    ∃ f dlc, c = .rxFrame f dlc ∧ ¬ (dlc = 0 ∨ 8 < dlc) ∧ f.pciType = 2 ∧ f.pciLow = seq ∧
      data = slice f.bytes 1 (dlc - 1) := by
  cases c with
  | transmit m => cases h
  | mainFunction => cases h
  | rxFrame f dlc =>
      rcases decode_cases f dlc with heq | ⟨-, -, -, heq⟩ | ⟨-, -, -, heq⟩ | ⟨hdlc, htype, heq⟩
      · cases heq.symm.trans h
      · cases heq.symm.trans h
      · cases heq.symm.trans h
      · obtain ⟨rfl, rfl⟩ := Pdu.consecutive.inj (heq.symm.trans h)
        exact ⟨f, dlc, rfl, hdlc, htype, rfl, rfl⟩

/-- What a reception in progress does not react to, as data units. -/
def Pdu.Ignorable (size expected missing : Nat) : Pdu → Prop
  | .single d => size < d.length
  | .first _ _ => False
  | .consecutive seq data => seq = expected ∧ data.length < missing
  | .other => True

theorem ignorable_iff {expected missing : Nat} {c : Call} (hc : c ≠ .mainFunction) :
    Ignorable cfg expected missing c ↔ c.pdu.Ignorable cfg.rxBufferSize expected missing := by
  cases c with
  | transmit m => exact Iff.rfl
  | mainFunction => exact absurd rfl hc
  | rxFrame f dlc =>
      by_cases hdlc : dlc = 0 ∨ 8 < dlc
      · have hother : decode f dlc = .other := if_pos hdlc
        rw [Call.pdu, hother]
        exact iff_of_true (hdlc.imp_right .inl) trivial
      simp only [Ignorable, Call.pdu]
      by_cases hsf : f.pciType = 0
      · rw [decode_sf hdlc hsf]
        split
        · exact iff_of_true (by omega) trivial
        · rename_i hgood
          rw [Pdu.Ignorable, length_slice_payload (by omega)]
          omega
      by_cases hff : f.pciType = 1
      · rw [decode_ff hdlc hff]
        split
        · exact iff_of_true (by omega) trivial
        · exact iff_of_false (by omega) id
      by_cases hcf : f.pciType = 2
      · rw [decode_cf hdlc hcf, Pdu.Ignorable, length_slice_payload (by omega)]
        omega
      · rw [decode_other hdlc (by omega)]
        exact iff_of_true (by omega) trivial

end Pdus

/-! ### The receiver's state is what the history says -/

/-- The receiver holds the reception that the history ends in. -/
def Holds (r : RxSide) (n : Nat) (data : Bytes) (k time : Nat) : Prop :=
  r.rxTimerStart = time % 2 ^ 32 ∧
    ∃ a, r.assembly = some a ∧ a.length = n ∧ a.data = data ∧ a.seq = (k + 1) % 16

/-- The receiver and the history agree. -/
structure Tracks (cfg : Config) (ins : List (Env × Call)) (r : RxSide) : Prop where
  sound : ∀ n data k time, Collecting cfg ins n data k time → Holds r n data k time
  complete : ∀ a, r.assembly = some a → ∃ k time, Collecting cfg ins a.length a.data k time

/-- What the last call did to the reception that a history ends in. -/
theorem collecting_concat_iff {cfg : Config} {ins : List (Env × Call)} {env : Env} {c : Call}
    {n k time : Nat} {data : Bytes} :
    Collecting cfg (ins ++ [(env, c)]) n data k time ↔
      (∃ f, c = .rxFrame f 8 ∧ f.pciType = 1 ∧ f.ffLength = n ∧ 8 ≤ n ∧ n ≤ cfg.rxBufferSize ∧
        data = slice f.bytes 2 6 ∧ k = 0 ∧ time = env.clock 0) ∨
      (∃ f data' k' time', c = .rxFrame f 8 ∧ Collecting cfg ins n data' k' time' ∧
        f.pciType = 2 ∧ f.pciLow = (k' + 1) % 16 ∧ data'.length + 7 < n ∧
        data = data' ++ slice f.bytes 1 7 ∧ k = k' + 1 ∧ time = env.clock 0) ∨
      (Collecting cfg ins n data k time ∧
        Ignorable cfg ((k + 1) % 16) (min 7 (n - data.length)) c) ∨
      (c = .mainFunction ∧ Collecting cfg ins n data k time ∧
        elapsed (env.clock 0 % 2 ^ 32) (time % 2 ^ 32) < cfg.nCrTimeoutMs) := by
  constructor
  · intro h
    generalize hins : ins ++ [(env, c)] = ins' at h
    cases h with
    | first before env' f htype hn hmin hfit =>
        obtain ⟨rfl, hlast⟩ := List.append_inj' hins rfl
        obtain ⟨rfl, rfl⟩ := Prod.mk.inj (List.singleton_inj.mp hlast)
        exact .inl ⟨f, rfl, htype, hn, hmin, hfit, rfl, rfl, rfl⟩
    | next h env' f htype hseq hmore =>
        obtain ⟨rfl, hlast⟩ := List.append_inj' hins rfl
        obtain ⟨rfl, rfl⟩ := Prod.mk.inj (List.singleton_inj.mp hlast)
        exact .inr (.inl ⟨f, _, _, _, rfl, h, htype, hseq, hmore, rfl, rfl, rfl⟩)
    | ignored h env' c' hignorable =>
        obtain ⟨rfl, hlast⟩ := List.append_inj' hins rfl
        obtain ⟨rfl, rfl⟩ := Prod.mk.inj (List.singleton_inj.mp hlast)
        exact .inr (.inr (.inl ⟨h, hignorable⟩))
    | running h env' hrunning =>
        obtain ⟨rfl, hlast⟩ := List.append_inj' hins rfl
        obtain ⟨rfl, rfl⟩ := Prod.mk.inj (List.singleton_inj.mp hlast)
        exact .inr (.inr (.inr ⟨rfl, h, hrunning⟩))
  · rintro (⟨f, rfl, htype, hn, hmin, hfit, rfl, rfl, rfl⟩ |
      ⟨f, data', k', time', rfl, h, htype, hseq, hmore, rfl, rfl, rfl⟩ | ⟨h, hignorable⟩ |
      ⟨rfl, h, hrunning⟩)
    · exact .first ins env f htype hn hmin hfit
    · exact .next h env f htype hseq hmore
    · exact .ignored h env c hignorable
    · exact .running h env hrunning

section Tracking

variable {l : Link} {ins : List (Env × Call)} {env : Env} {c : Call}

theorem Pdu.Ignorable.unchanged {size : Nat} (blockSize : Nat) {a : Assembly} {p : Pdu}
    (h : p.Ignorable size a.seq a.chunk) :
    receive size blockSize (some a) p = (some a, []) ∧ takes size (some a) p = false := by
  apply receive_unchanged size blockSize
  cases p <;> exact h

/-- A consecutive frame that does not complete the message is one of eight bytes. -/
theorem stored_more {a : Assembly} {data : Bytes} {n k : Nat} (blockSize : Nat)
    (hlength : a.length = n) (hseq : a.seq = (k + 1) % 16) (henough : 7 ≤ data.length)
    (hmore : a.data.length + 7 < n) :
    ∃ b, ((a.extend data).stored blockSize).1 = some b ∧ b.length = n ∧
      b.data = a.data ++ data.take 7 ∧ b.seq = (k + 1 + 1) % 16 := by
  have hchunk : a.chunk = 7 := by
    rw [Assembly.chunk]
    omega
  have hdata : (a.extend data).data = a.data ++ data.take 7 := by
    rw [Assembly.extend, hchunk]
  have hopen : ¬ (a.extend data).length ≤ (a.extend data).data.length := by
    have hlen : (a.extend data).length = n := hlength
    rw [hdata, hlen, List.length_append, List.length_take]
    omega
  have hnext : (a.extend data).seq = (k + 1 + 1) % 16 := by
    have hstep : (a.extend data).seq = (a.seq + 1) % 16 := rfl
    rw [hstep, hseq]
    omega
  rw [Assembly.stored, if_neg hopen]
  split
  · exact ⟨_, rfl, hlength, hdata, hnext⟩
  split
  · exact ⟨_, rfl, hlength, hdata, hnext⟩
  · exact ⟨_, rfl, hlength, hdata, hnext⟩

/-- What the history says after a call, the receiver holds. -/
theorem Tracks.step_sound (hinv : LinkInv l) (h : Tracks l.cfg ins l.rx) (depth : Nat) {n k time : Nat}
    {data : Bytes} (hcollecting : Collecting l.cfg (ins ++ [(env, c)]) n data k time) :
    Holds (call silent depth (l, ()) (env, c)).1.1.rx n data k time := by
  have hrunning : c = .mainFunction → ¬ l.rxExpired env := by
    rintro rfl ⟨-, hexpired⟩
    rcases collecting_concat_iff.mp hcollecting with ⟨f, hc, -⟩ | ⟨f, _, _, _, hc, -⟩ |
      ⟨-, hignorable⟩ | ⟨-, hbefore, htime⟩
    · cases hc
    · cases hc
    · exact hignorable
    · obtain ⟨htimer, -⟩ := h.sound _ _ _ _ hbefore
      rw [htimer] at hexpired
      omega
  obtain ⟨-, htimer, hassembly, -⟩ := reads_call depth env hinv c hrunning
  rcases collecting_concat_iff.mp hcollecting with
    ⟨f, rfl, htype, hn, hmin, hfit, rfl, rfl, rfl⟩ |
    ⟨f, data', k', time', rfl, hbefore, htype, hseq, hmore, rfl, rfl, rfl⟩ |
    ⟨hbefore, hignorable⟩ | ⟨rfl, hbefore, -⟩
  · have hpdu : Call.pdu (.rxFrame f 8) = .first n (slice f.bytes 2 6) := by
      rw [Call.pdu, decode_ff (by decide) htype, hn, if_neg (by omega)]
    rw [hpdu] at htimer hassembly
    simp only [receive, if_neg (Nat.not_lt.mpr hfit)] at hassembly
    exact ⟨by rw [htimer]; simp [takes, hfit], _, hassembly, rfl, rfl, rfl⟩
  · obtain ⟨-, a, ha, hlength, rfl, haseq⟩ := h.sound _ _ _ _ hbefore
    have hpayload : (slice f.bytes 1 7).length = 7 := length_slice_payload (Nat.le_refl 7)
    have hpdu : Call.pdu (.rxFrame f 8) = .consecutive f.pciLow (slice f.bytes 1 7) :=
      decode_cf (by decide) htype
    have hchunk : a.chunk ≤ (slice f.bytes 1 7).length := by
      rw [hpayload]
      exact Nat.min_le_left _ _
    rw [hpdu, ha] at htimer hassembly
    rw [receive_taken _ _ (hseq.trans haseq.symm) hchunk] at hassembly
    obtain ⟨b, hb, hblength, hbdata, hbseq⟩ :=
      stored_more l.cfg.blockSize.toNat hlength haseq (Nat.le_of_eq hpayload.symm) hmore
    refine ⟨?_, b, hassembly.trans hb, hblength, ?_, hbseq⟩
    · rw [htimer]
      simp [takes, hseq, haseq, hchunk]
    · rw [hbdata, List.take_of_length_le (Nat.le_of_eq hpayload)]
  · obtain ⟨htime, a, ha, rfl, rfl, haseq⟩ := h.sound _ _ _ _ hbefore
    have hc : c ≠ .mainFunction := by
      rintro rfl
      exact hignorable
    rw [← haseq] at hignorable
    obtain ⟨hreceive, htakes⟩ := ((ignorable_iff hc).mp hignorable : c.pdu.Ignorable _ a.seq a.chunk).unchanged
      l.cfg.blockSize.toNat
    rw [ha, hreceive] at hassembly
    rw [ha, htakes] at htimer
    exact ⟨htimer.trans htime, a, hassembly, rfl, rfl, haseq⟩
  · obtain ⟨htime, a, ha, hrest⟩ := h.sound _ _ _ _ hbefore
    exact ⟨htimer.trans htime, a, hassembly.trans ha, hrest⟩

theorem stored_some {a b : Assembly} {data : Bytes} {blockSize : Nat}
    (h : ((a.extend data).stored blockSize).1 = some b) :
    b.length = a.length ∧ b.data = a.data ++ data.take a.chunk ∧ b.data.length < a.length := by
  unfold Assembly.stored at h
  split at h
  · cases h
  rename_i hopen
  have hmore : (a.extend data).data.length < a.length := Nat.lt_of_not_le hopen
  split at h
  · obtain rfl := Option.some.inj h
    exact ⟨rfl, rfl, hmore⟩
  split at h
  · obtain rfl := Option.some.inj h
    exact ⟨rfl, rfl, hmore⟩
  · obtain rfl := Option.some.inj h
    exact ⟨rfl, rfl, hmore⟩

theorem Tracks.complete_ignored (h : Tracks l.cfg ins l.rx)
    (hrunning : c = .mainFunction → ¬ l.rxExpired env) {b : Assembly}
    (hbefore : l.rx.assembly = some b)
    (hignorable : c.pdu.Ignorable l.cfg.rxBufferSize b.seq b.chunk) :
    ∃ k time, Collecting l.cfg (ins ++ [(env, c)]) b.length b.data k time := by
  obtain ⟨k, time, hcollecting⟩ := h.complete b hbefore
  obtain ⟨htime, a, ha, -, -, hseq⟩ := h.sound _ _ _ _ hcollecting
  obtain rfl := Option.some.inj (hbefore.symm.trans ha)
  refine ⟨k, time, ?_⟩
  by_cases hc : c = .mainFunction
  · subst hc
    refine .running hcollecting env (Nat.lt_of_not_le fun hexpired => hrunning rfl ?_)
    exact ⟨assembly_receiving hbefore, by rwa [htime]⟩
  · rw [hseq] at hignorable
    exact .ignored hcollecting env c ((ignorable_iff hc).mpr hignorable)

theorem Tracks.complete_stored (h : Tracks l.cfg ins l.rx) {a b : Assembly}
    (ha : l.rx.assembly = some a) {data : Bytes} (hp : c.pdu = .consecutive a.seq data)
    (henough : a.chunk ≤ data.length) {blockSize : Nat}
    (hstored : ((a.extend data).stored blockSize).1 = some b) :
    ∃ k time, Collecting l.cfg (ins ++ [(env, c)]) b.length b.data k time := by
  obtain ⟨hlength, hdata, hmore⟩ := stored_some hstored
  obtain ⟨k, time, hcollecting⟩ := h.complete a ha
  obtain ⟨-, a', ha', -, -, haseq⟩ := h.sound _ _ _ _ hcollecting
  obtain rfl := Option.some.inj (ha.symm.trans ha')
  obtain ⟨f, dlc, rfl, hdlc, htype, hlow, rfl⟩ := pdu_consecutive hp
  have hpayload : (slice f.bytes 1 (dlc - 1)).length = dlc - 1 := length_slice_payload (by omega)
  have hchunk : a.chunk = min 7 (a.length - a.data.length) := rfl
  rw [hpayload] at henough
  rw [hdata, List.length_append, List.length_take, hpayload] at hmore
  have hfull : dlc = 8 := by omega
  subst hfull
  have hseven : a.chunk = 7 := by omega
  rw [hseven, List.take_of_length_le (Nat.le_of_eq hpayload)] at hdata
  rw [hlength, hdata]
  exact ⟨k + 1, _, .next hcollecting env f htype (hlow.trans haseq) (by omega)⟩

/-- What the receiver holds after a call, the history says. -/
theorem Tracks.step_complete (hinv : LinkInv l) (h : Tracks l.cfg ins l.rx) (depth : Nat)
    {b : Assembly} (hb : (call silent depth (l, ()) (env, c)).1.1.rx.assembly = some b) :
    ∃ k time, Collecting l.cfg (ins ++ [(env, c)]) b.length b.data k time := by
  have hrunning : c = .mainFunction → ¬ l.rxExpired env := by
    rintro rfl hexpired
    obtain ⟨-, -, hnone, -⟩ := mainFunction_rx depth env hinv
    rw [hnone hexpired] at hb
    cases hb
  have hassembly := (reads_call depth env hinv c hrunning).assembly
  rw [hb] at hassembly
  have hignored := @Tracks.complete_ignored l ins env c h hrunning b
  cases hp : c.pdu with
  | other =>
      rw [hp] at hassembly hignored
      exact hignored hassembly.symm trivial
  | single d =>
      rw [hp] at hassembly hignored
      by_cases hlong : l.cfg.rxBufferSize < d.length
      · rw [receive, if_pos hlong] at hassembly
        exact hignored hassembly.symm hlong
      · rw [receive, if_neg hlong] at hassembly
        cases hassembly
  | first n d =>
      rw [hp] at hassembly
      by_cases hlong : l.cfg.rxBufferSize < n
      · rw [receive, if_pos hlong] at hassembly
        cases hassembly
      · rw [receive, if_neg hlong] at hassembly
        obtain rfl := Option.some.inj hassembly
        obtain ⟨f, rfl, htype, hn, hmin, rfl⟩ := pdu_first hp
        exact ⟨0, _, .first ins env f htype hn hmin (Nat.le_of_not_lt hlong)⟩
  | consecutive seq data =>
      rw [hp] at hassembly hignored
      cases hx : l.rx.assembly with
      | none =>
          rw [hx] at hassembly
          cases hassembly
      | some a =>
          rw [hx] at hassembly hignored
          by_cases hseq : seq = a.seq
          · subst hseq
            by_cases henough : a.chunk ≤ data.length
            · rw [receive_taken _ _ rfl henough] at hassembly
              exact h.complete_stored hx hp henough hassembly.symm
            · have hshort := Nat.lt_of_not_le henough
              simp only [receive, ne_eq, not_true, if_false, if_pos hshort] at hassembly
              obtain rfl := Option.some.inj hassembly
              exact hignored rfl ⟨rfl, hshort⟩
          · simp only [receive, if_pos hseq] at hassembly
            cases hassembly

theorem Tracks.step (hinv : LinkInv l) (h : Tracks l.cfg ins l.rx) (depth : Nat) (i : Env × Call) :
    Tracks l.cfg (ins ++ [i]) (call silent depth (l, ()) i).1.1.rx where
  sound _ _ _ _ hcollecting := h.step_sound hinv depth hcollecting
  complete _ hb := h.step_complete hinv depth hb

/-- After every run the receiver is what the history says. -/
theorem tracks_run (depth : Nat) (cfg : Config) (ins : List (Env × Call)) :
    LinkInv (run (call silent depth) (init cfg, ()) ins).1.1 ∧
      (run (call silent depth) (init cfg, ()) ins).1.1.cfg = (init cfg).cfg ∧
      Tracks (init cfg).cfg ins (run (call silent depth) (init cfg, ()) ins).1.1.rx := by
  induction ins using List.reverseRecOn with
  | nil =>
      refine ⟨linkInv_init cfg, rfl, fun n data k time h => ?_, fun a ha => ?_⟩
      · generalize hnil : ([] : List (Env × Call)) = ins at h
        cases h <;> simp at hnil
      · cases ha
  | append_singleton ins i ih =>
      obtain ⟨hinv, hcfg, htracks⟩ := ih
      rw [run_concat]
      rw [← hcfg] at htracks
      refine ⟨linkInv_call hinv depth i, (cfg_call hinv depth i).trans hcfg, ?_⟩
      rw [← hcfg]
      exact htracks.step hinv depth i

/-- The frame that completes the reception of the history completes the one the receiver holds. -/
theorem Tracks.completes_iff (hinv : LinkInv l) (h : Tracks l.cfg ins l.rx) {d : Bytes} :
    Completes l.cfg ins c d ↔ ∃ a seq data, l.rx.assembly = some a ∧ c.pdu = .consecutive seq data ∧
      seq = a.seq ∧ a.chunk ≤ data.length ∧ a.length ≤ (a.extend data).data.length ∧
      d = (a.extend data).data := by
  have hopen : ∀ a, l.rx.assembly = some a → a.data.length < a.length := by
    intro a ha
    have hs := assembly_receiving ha
    obtain ⟨a', ha', hlength, hdata, -⟩ := hinv.rx.assembly_eq hs
    obtain rfl := Option.some.inj (ha.symm.trans ha')
    have hfits := (hinv.rx.underway hs).fits
    rw [hlength, hdata, List.length_take]
    omega
  -- the bytes the frame adds, once cut at the announced length
  have hbytes : ∀ (a : Assembly) (f : Frame) (dlc : Nat), dlc ≤ 8 → a.chunk ≤ dlc - 1 →
      a.data.length < a.length → a.length ≤ a.data.length + 7 →
      (a.extend (slice f.bytes 1 (dlc - 1))).data = (a.data ++ slice f.bytes 1 7).take a.length := by
    intro a f dlc hdlc henough hlt hle
    have hchunk : a.chunk = a.length - a.data.length := by
      rw [Assembly.chunk]
      omega
    have hextend : (a.extend (slice f.bytes 1 (dlc - 1))).data
        = a.data ++ (slice f.bytes 1 (dlc - 1)).take a.chunk := rfl
    rw [hextend, List.take_append, List.take_of_length_le (Nat.le_of_lt hlt), ← hchunk, slice, slice,
      List.take_take, List.take_take, Nat.min_eq_left henough, Nat.min_eq_left (by omega)]
  constructor
  · rintro ⟨n, data, k, time, f, dlc, hcollecting, rfl, hdlc, htype, hseq, henough, hend, rfl⟩
    obtain ⟨-, a, ha, rfl, rfl, haseq⟩ := h.sound _ _ _ _ hcollecting
    have hlt := hopen a ha
    have hpos : ¬ (dlc = 0 ∨ 8 < dlc) := by omega
    have hpayload : (slice f.bytes 1 (dlc - 1)).length = dlc - 1 := length_slice_payload (by omega)
    have hchunk : a.chunk = min 7 (a.length - a.data.length) := rfl
    refine ⟨a, f.pciLow, slice f.bytes 1 (dlc - 1), ha, decode_cf hpos htype, hseq.trans haseq.symm,
      by rw [hpayload]; exact henough, ?_, (hbytes a f dlc hdlc henough hlt hend).symm⟩
    rw [hbytes a f dlc hdlc henough hlt hend, List.length_take, List.length_append,
      length_slice_payload (Nat.le_refl 7)]
    omega
  · rintro ⟨a, seq, data, ha, hpdu, hseq, henough, hend, rfl⟩
    obtain ⟨f, dlc, rfl, hdlc, htype, rfl, rfl⟩ := pdu_consecutive hpdu
    obtain ⟨k, time, hcollecting⟩ := h.complete a ha
    obtain ⟨-, a', ha', -, -, haseq⟩ := h.sound _ _ _ _ hcollecting
    obtain rfl := Option.some.inj (ha.symm.trans ha')
    have hlt := hopen a ha
    have hpayload : (slice f.bytes 1 (dlc - 1)).length = dlc - 1 := length_slice_payload (by omega)
    have hchunk : a.chunk = min 7 (a.length - a.data.length) := rfl
    have hextend : (a.extend (slice f.bytes 1 (dlc - 1))).data
        = a.data ++ (slice f.bytes 1 (dlc - 1)).take a.chunk := rfl
    rw [hpayload] at henough
    rw [hextend, List.length_append, List.length_take, hpayload] at hend
    exact ⟨_, _, k, time, f, dlc, hcollecting, rfl, by omega, htype, hseq.trans haseq, henough,
      by omega, hbytes a f dlc (by omega) henough hlt (by omega)⟩

end Tracking

/-! ### Every delivery -/

/-- A call delivers a message exactly when it passes a single frame with that payload or the frame
that completes a reception with these bytes, and then it delivers only that message. -/
theorem delivers_iff (depth : Nat) (cfg : Config) (before : List (Env × Call)) (env : Env) (c : Call)
    (d : Bytes) :
    (d ∈ deliveries (call silent depth (run (call silent depth) (init cfg, ()) before).1 (env, c)).2 ↔
      SingleArrives (init cfg).cfg c d ∨ Completes (init cfg).cfg before c d) ∧
    (deliveries (call silent depth
      (run (call silent depth) (init cfg, ()) before).1 (env, c)).2).length ≤ 1 := by
  obtain ⟨hinv, hcfg, htracks⟩ := tracks_run depth cfg before
  generalize (run (call silent depth) (init cfg, ()) before).1 = s at hinv hcfg htracks ⊢
  obtain ⟨l, ⟨⟩⟩ := s
  rw [← hcfg] at htracks ⊢
  by_cases hc : c = .mainFunction
  · subst hc
    obtain ⟨-, hnone, -⟩ := mainFunction_rx depth env hinv
    rw [hnone, htracks.completes_iff hinv, singleArrives_iff]
    refine ⟨iff_of_false List.not_mem_nil ?_, Nat.zero_le 1⟩
    rintro (⟨hpdu, -⟩ | ⟨a, seq, data, -, hpdu, -⟩)
    · cases hpdu
    · cases hpdu
  · obtain ⟨-, -, -, hdeliveries⟩ := reads_call depth env hinv c fun h => absurd h hc
    rw [hdeliveries, mem_messages_receive, htracks.completes_iff hinv, singleArrives_iff]
    exact ⟨Iff.rfl, length_messages_receive _ _ _ _⟩

end MiniEcu.IsoTp
