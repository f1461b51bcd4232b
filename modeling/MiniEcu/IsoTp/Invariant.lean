import MiniEcu.IsoTp.Refinement

/-!
# The representation invariant of a link

Along every run of calls, with any peer, clock and driver and with callbacks that transmit, the
offset of a transfer under way is six plus a multiple of seven, its sequence number is the number
of that multiple modulo sixteen, and both stay below the length, which fits the buffer. What the
code does with these fields is then harmless: its copies stay inside the buffers, its counters do
not wrap, and the loop that sends consecutive frames ends.
-/

namespace MiniEcu.IsoTp

open Memory Trace

/-! ### The invariant -/

/-- An FF and `k` CFs have passed, and the message is not complete. -/
def Underway (offset seq length size : Nat) : Prop :=
  6 ≤ offset ∧ offset < length ∧ length ≤ min 4095 size ∧
    ∃ k, offset = 6 + 7 * k ∧ seq = (k + 1) % 16

structure RxInv (cfg : Config) (r : RxSide) : Prop where
  buffer : r.rxBuffer.length = cfg.rxBufferSize
  underway : r.rxState = .receiving → Underway r.rxOffset r.rxSeq r.rxLength cfg.rxBufferSize
  length : r.rxState = .receiving → 8 ≤ r.rxLength
  blockCount : r.rxState = .receiving → cfg.blockSize.toNat ≠ 0 →
    r.rxBlockCount < cfg.blockSize.toNat
  fcStatus : r.rxFcStatus ≤ 2

structure TxInv (cfg : Config) (t : TxSide) : Prop where
  buffer : t.txBuffer.length = cfg.txBufferSize
  length : t.txLength ≤ min 4095 cfg.txBufferSize
  underway : t.txState = .waitFc ∨ t.txState = .sendCf →
    Underway t.txOffset t.txSeq t.txLength cfg.txBufferSize
  waitCount : t.txState = .waitFc ∨ t.txState = .sendCf → t.txWaitCount ≤ 10
  blockSize : t.txBlockSize < 2 ^ 8
  blockCount : t.txState = .sendCf → t.txBlockSize ≠ 0 → t.txBlockCount < t.txBlockSize

structure LinkInv (link : Link) : Prop where
  rx : RxInv link.cfg link.rx
  tx : TxInv link.cfg link.tx

/-- The event is a harmless one: accesses inside their buffer, counters within their width, and no
loop cut short. -/
def Event.InBounds {ε : Type} (cfg : Config) : Event ε → Prop
  | .rxWrite offset count => offset + count ≤ cfg.rxBufferSize
  | .txWrite offset count => offset + count ≤ cfg.txBufferSize
  | .txRead offset count => offset + count ≤ cfg.txBufferSize
  | .counted bits value => value < 2 ^ bits
  | .unfinished => False
  | _ => True

/-! ### Transfers under way -/

theorem Underway.advance {offset seq length size : Nat} (h : Underway offset seq length size)
    (hmore : offset + min 7 (length - offset) < length) :
    Underway (offset + min 7 (length - offset)) ((seq + 1) &&& 0x0F) length size := by
  obtain ⟨hmin, hlt, hmax, k, hoffset, hseq⟩ := h
  have hmask : (seq + 1) &&& 0x0F = (seq + 1) % 16 := Nat.and_two_pow_sub_one_eq_mod _ 4
  exact ⟨by omega, hmore, hmax, k + 1, by omega, by omega⟩

theorem Underway.fits {offset seq length size : Nat} (h : Underway offset seq length size) :
    offset + min 7 (length - offset) ≤ length ∧ length ≤ size ∧ length ≤ 4095 ∧ offset < length := by
  obtain ⟨-, hlt, hmax, -⟩ := h
  omega

theorem underway_first {length size : Nat} (hmin : 8 ≤ length) (hmax : length ≤ min 4095 size) :
    Underway 6 1 length size :=
  ⟨Nat.le_refl 6, by omega, hmax, 0, rfl, rfl⟩

/-! ### The receiver keeps it -/

section Receiver

variable {ε : Type} {cfg : Config} {r r' : RxSide}

theorem RxInv.chunk (h : RxInv cfg r) (hs : r.rxState = .receiving) :
    r.chunk = min 7 (r.rxLength - r.rxOffset) := by
  have hfits := (h.underway hs).fits
  exact r.chunk_eq (by omega) (by omega)

theorem RxInv.offset_advance (h : RxInv cfg r) (hs : r.rxState = .receiving) (data : Bytes)
    (time : Nat) : (r.advance data time).rxOffset = r.rxOffset + min 7 (r.rxLength - r.rxOffset) := by
  have hfits := (h.underway hs).fits
  have hoffset : (r.advance data time).rxOffset = (r.rxOffset + r.chunk) % 2 ^ 16 := rfl
  rw [hoffset, h.chunk hs]
  exact Nat.mod_eq_of_lt (by omega)

theorem RxInv.length_advance (h : RxInv cfg r) (hs : r.rxState = .receiving) {data : Bytes}
    (hdata : data.length = r.chunk) (time : Nat) :
    (r.advance data time).rxBuffer.length = cfg.rxBufferSize := by
  have hfits := (h.underway hs).fits
  have hchunk := h.chunk hs
  have hbuffer := h.buffer
  exact (length_copy (by omega)).trans hbuffer

theorem RxInv.advance (h : RxInv cfg r) (hs : r.rxState = .receiving) {data : Bytes}
    (hdata : data.length = r.chunk) {time : Nat}
    (hmore : (r.advance data time).rxOffset < r.rxLength) {count : Nat}
    (hcount : cfg.blockSize.toNat ≠ 0 → count < cfg.blockSize.toNat) :
    RxInv cfg { r.advance data time with rxBlockCount := count } where
  buffer := h.length_advance hs hdata time
  underway _ := by
    have hoffset := h.offset_advance hs data time
    rw [hoffset] at hmore
    have hnext := (h.underway hs).advance hmore
    rwa [← hoffset] at hnext
  length _ := h.length hs
  blockCount _ := hcount
  fcStatus := h.fcStatus

theorem RxInv.idle (h : r.rxBuffer.length = cfg.rxBufferSize) (hstatus : r.rxFcStatus ≤ 2)
    (hs : r.rxState = .idle) : RxInv cfg r where
  buffer := h
  underway hreceiving := by simp [hs] at hreceiving
  length hreceiving := by simp [hs] at hreceiving
  blockCount hreceiving := by simp [hs] at hreceiving
  fcStatus := hstatus

theorem RxInv.flowStatus (h : RxInv cfg r) {status : Nat}
    (hstatus : status ≤ 2 ∨ status = r.rxFcStatus) : status ≤ 2 := by
  rcases hstatus with hle | rfl
  · exact hle
  · exact h.fcStatus

theorem RxInv.step {es : List (Event ε)} (h : RxInv cfg r) (hstep : RxStep cfg r es r') :
    RxInv cfg r' := by
  cases hstep with
  | single data hidle hpos hmax hfit =>
      have hbuffer := h.buffer
      exact .idle ((length_copy (by omega)).trans hbuffer) h.fcStatus hidle
  | first length data time hidle hmin hmax hfit hdata =>
      have hbuffer := h.buffer
      have hlength : (copy r.rxBuffer 0 data).length = r.rxBuffer.length :=
        length_copy (by simp only [hdata, ffData]; omega)
      exact ⟨hlength.trans hbuffer,
        fun _ => underway_first hmin (Nat.le_min.mpr ⟨hmax, hfit⟩), fun _ => hmin,
        fun _ hblock => Nat.pos_of_ne_zero hblock, h.fcStatus⟩
  | flowControl status accepted hstatus =>
      have hstatus := h.flowStatus hstatus
      unfold RxSide.answered
      split
      · exact ⟨h.buffer, h.underway, h.length, h.blockCount, h.fcStatus⟩
      · exact ⟨h.buffer, h.underway, h.length, h.blockCount, hstatus⟩
  | last hs data time hdata hend => exact .idle (h.length_advance hs hdata time) h.fcStatus rfl
  | more hs data time hdata hmore hblock =>
      exact h.advance hs hdata hmore fun hpos => absurd hblock hpos
  | moreInBlock hs data time hdata hmore hcount => exact h.advance hs hdata hmore fun _ => hcount
  | block hs data time hdata hmore hblock hcount =>
      exact h.advance hs hdata hmore fun hpos => Nat.pos_of_ne_zero hpos
  | aborted result hs _ => exact .idle h.buffer h.fcStatus rfl
  | timedOut time hs _ => exact .idle h.buffer h.fcStatus rfl
  | notYet time => exact h

theorem RxInv.inBounds {es : List (Event ε)} (h : RxInv cfg r) (hstep : RxStep cfg r es r') :
    ∀ e ∈ es, e.InBounds cfg := by
  have hcf : r.rxState = .receiving → r.rxOffset + r.chunk ≤ cfg.rxBufferSize ∧
      r.rxOffset + r.chunk < 2 ^ 16 := by
    intro hs
    have hfits := (h.underway hs).fits
    rw [h.chunk hs]
    omega
  have hcount : r.rxState = .receiving → cfg.blockSize.toNat ≠ 0 → r.rxBlockCount + 1 < 2 ^ 8 := by
    intro hs hblock
    have hlt := h.blockCount hs hblock
    have hsize := cfg.blockSize.toNat_lt
    omega
  cases hstep with
  | single data hidle hpos hmax hfit => simpa [Event.InBounds] using hfit
  | first length data time hidle hmin hmax hfit hdata =>
      simp [Event.InBounds]
      omega
  | flowControl | aborted | timedOut | notYet => simp [Event.InBounds]
  | last hs => simpa [Event.InBounds] using hcf hs
  | more hs => simpa [Event.InBounds] using hcf hs
  | moreInBlock hs data time hdata hmore hlt =>
      simpa [Event.InBounds] using ⟨(hcf hs).1, (hcf hs).2, hcount hs (by omega)⟩
  | block hs data time hdata hmore hblock =>
      simpa [Event.InBounds] using ⟨(hcf hs).1, (hcf hs).2, hcount hs hblock⟩

end Receiver

/-! ### The sender keeps it -/

section Sender

variable {ε : Type} {cfg : Config} {t t' : TxSide}

theorem TxInv.chunk (h : TxInv cfg t) (hs : t.txState = .sendCf) :
    t.chunk = min 7 (t.txLength - t.txOffset) := by
  have hfits := (h.underway (.inr hs)).fits
  exact t.chunk_eq (by omega) (by omega)

theorem TxInv.offset_advance (h : TxInv cfg t) (hs : t.txState = .sendCf) (time : Nat) :
    (t.advance time).txOffset = t.txOffset + min 7 (t.txLength - t.txOffset) := by
  have hfits := (h.underway (.inr hs)).fits
  have hoffset : (t.advance time).txOffset = (t.txOffset + t.chunk) % 2 ^ 16 := rfl
  rw [hoffset, h.chunk hs]
  exact Nat.mod_eq_of_lt (by omega)

theorem TxInv.underway_advance (h : TxInv cfg t) (hs : t.txState = .sendCf) {time : Nat}
    (hmore : (t.advance time).txOffset < t.txLength) :
    Underway (t.advance time).txOffset (t.advance time).txSeq t.txLength cfg.txBufferSize := by
  rw [h.offset_advance hs] at hmore ⊢
  exact (h.underway (.inr hs)).advance hmore

theorem TxInv.idle (h : TxInv cfg t) (hbuffer : t'.txBuffer = t.txBuffer)
    (hlength : t'.txLength = t.txLength) (hblock : t'.txBlockSize = t.txBlockSize)
    (hs : t'.txState = .idle) : TxInv cfg t' where
  buffer := hbuffer ▸ h.buffer
  length := hlength ▸ h.length
  underway hbusy := by simp [hs] at hbusy
  waitCount hbusy := by simp [hs] at hbusy
  blockSize := hblock ▸ h.blockSize
  blockCount hbusy := by simp [hs] at hbusy

theorem TxInv.sending {es : List (Event ε)} (h : TxInv cfg t) (hstep : Sending cfg t es t') :
    TxInv cfg t' := by
  cases hstep with
  | firstRefused | tooEarly | cfRefused | unfinished => exact h
  | singleSent => exact h.idle rfl rfl rfl rfl
  | firstSent hs hlen time =>
      exact ⟨h.buffer, h.length, fun _ => underway_first hlen h.length, fun _ => Nat.zero_le _,
        h.blockSize, nofun⟩
  | lastSent => exact h.idle rfl rfl rfl rfl
  | cfSent hs hpace time hmore hblock =>
      exact ⟨h.buffer, h.length, fun _ => h.underway_advance hs hmore,
        fun _ => h.waitCount (.inr hs), h.blockSize, fun _ hpos => absurd hblock hpos⟩
  | cfSentInBlock hs hpace time hmore hblock hcount =>
      exact ⟨h.buffer, h.length, fun _ => h.underway_advance hs hmore,
        fun _ => h.waitCount (.inr hs), h.blockSize, fun _ _ => hcount⟩
  | blockSent hs hpace time after hmore hblock hcount =>
      exact ⟨h.buffer, h.length, fun _ => h.underway_advance hs hmore,
        fun _ => h.waitCount (.inr hs), h.blockSize, nofun⟩

theorem TxInv.step {es : List (Event ε)} (h : TxInv cfg t) (hstep : TxStep cfg t es t') :
    TxInv cfg t' := by
  cases hstep with
  | sending hsending => exact h.sending hsending
  | badParam | busy | notYet => exact h
  | start m time hidle hpos hmax hfit =>
      have hbuffer := h.buffer
      exact ⟨(length_copy (by omega)).trans hbuffer, Nat.le_min.mpr ⟨hmax, hfit⟩, nofun, nofun,
        h.blockSize, nofun⟩
  | clearToSend data time hs =>
      exact ⟨h.buffer, h.length, fun _ => h.underway (.inl hs), fun _ => Nat.zero_le _,
        data.byte_lt 1, fun _ hpos => Nat.pos_of_ne_zero hpos⟩
  | wait time hs hle =>
      exact ⟨h.buffer, h.length, h.underway, fun _ => hle, h.blockSize, h.blockCount⟩
  | waitOverrun | flowAborted | timedOut => exact h.idle rfl rfl rfl rfl

theorem TxSide.Paced.inBounds {pace : List (Event ε)} (h : t.Paced pace) (cfg : Config) :
    ∀ e ∈ pace, e.InBounds cfg := by
  cases h <;> simp [Event.InBounds]

theorem TxInv.sending_inBounds {es : List (Event ε)} (h : TxInv cfg t)
    (hstep : Sending cfg t es t') : ∀ e ∈ es, e.InBounds cfg := by
  have hlength := h.length
  have hfirst : t.firstCount ≤ cfg.txBufferSize := by
    simp only [TxSide.firstCount, sfMaxData, ffData]
    split <;> omega
  have hcf : t.txState = .sendCf → t.txOffset + t.chunk ≤ cfg.txBufferSize ∧
      t.txOffset + t.chunk < 2 ^ 16 := by
    intro hs
    have hfits := (h.underway (.inr hs)).fits
    rw [h.chunk hs]
    omega
  have hcount : t.txState = .sendCf → t.txBlockSize ≠ 0 → t.txBlockCount + 1 < 2 ^ 8 := by
    intro hs hblock
    have hlt := h.blockCount hs hblock
    have hsize := h.blockSize
    omega
  cases hstep with
  | firstRefused | singleSent | firstSent => simpa [Event.InBounds] using hfirst
  | tooEarly => simp [Event.InBounds]
  | cfRefused hs hpace =>
      simpa [Event.InBounds, or_imp, forall_and] using ⟨hpace.inBounds cfg, (hcf hs).1⟩
  | lastSent hs hpace =>
      simpa [Event.InBounds, or_imp, forall_and] using ⟨hpace.inBounds cfg, hcf hs⟩
  | cfSent hs hpace =>
      simpa [Event.InBounds, or_imp, forall_and] using ⟨hpace.inBounds cfg, hcf hs⟩
  | cfSentInBlock hs hpace time hmore hblock =>
      simpa [Event.InBounds, or_imp, forall_and] using
        ⟨hpace.inBounds cfg, (hcf hs).1, (hcf hs).2, hcount hs hblock⟩
  | blockSent hs hpace time after hmore hblock =>
      simpa [Event.InBounds, or_imp, forall_and] using
        ⟨hpace.inBounds cfg, (hcf hs).1, (hcf hs).2, hcount hs hblock⟩
  | unfinished hs hlen => omega

theorem TxInv.inBounds {es : List (Event ε)} (h : TxInv cfg t) (hstep : TxStep cfg t es t') :
    ∀ e ∈ es, e.InBounds cfg := by
  have hwait : t.txState = .waitFc → t.txWaitCount + 1 < 2 ^ 8 := fun hs => by
    have hle := h.waitCount (.inl hs)
    omega
  cases hstep with
  | sending hsending => exact h.sending_inBounds hsending
  | badParam | busy | flowAborted | timedOut | notYet | clearToSend => simp [Event.InBounds]
  | start m time hidle hpos hmax hfit => simpa [Event.InBounds] using hfit
  | wait time hs => simpa [Event.InBounds] using hwait hs
  | waitOverrun hs => simpa [Event.InBounds] using hwait hs

end Sender

/-! ### Along every run -/

section Run

variable {σ ε : Type}

/-- What can be done to a link: initialise it, or call it while the clock and the driver behave in
some way. -/
inductive Op
  | init (cfg : Config)
  | call (env : Env) (c : Call)

def perform (app : App σ ε) (depth : Nat) (s : Link × σ) : Op → (Link × σ) × List (Event ε)
  | .init cfg => ((init cfg, s.2), [])
  | .call env c => call app depth s (env, c)

theorem linkInv_init (cfg : Config) : LinkInv (init cfg) where
  rx := .idle rfl (Nat.zero_le 2) rfl
  tx := ⟨rfl, Nat.zero_le _, nofun, nofun, Nat.two_pow_pos 8, nofun⟩

/-- One elementary step keeps the invariant and is harmless. -/
theorem LinkInv.step {s s' : Link × σ} {es : List (Event ε)} (h : LinkInv s.1)
    (hstep : LinkStep s es s') :
    LinkInv s'.1 ∧ s'.1.cfg = s.1.cfg ∧ ∀ e ∈ es, e.InBounds s.1.cfg := by
  cases hstep with
  | tx htx => exact ⟨⟨h.rx, h.tx.step htx⟩, rfl, h.tx.inBounds htx⟩
  | rx hrx => exact ⟨⟨h.rx.step hrx, h.tx⟩, rfl, h.rx.inBounds hrx⟩
  | app l a a' log => exact ⟨h, rfl, by simp [Event.InBounds]⟩

theorem LinkInv.after {s : Link × σ} (h : LinkInv s.1) (app : App σ ε) (depth : Nat) (op : Op) :
    LinkInv (perform app depth s op).1.1 ∧
      ∀ e ∈ (perform app depth s op).2, e.InBounds s.1.cfg := by
  cases op with
  | init cfg => exact ⟨linkInv_init cfg, fun e he => absurd he List.not_mem_nil⟩
  | call env c =>
      let I : Link × σ → List (Event ε) → Prop := fun s' es =>
        LinkInv s'.1 ∧ s'.1.cfg = s.1.cfg ∧ ∀ e ∈ es, e.InBounds s.1.cfg
      have hstart : I s [] := ⟨h, rfl, fun e he => absurd he List.not_mem_nil⟩
      have hinv := Steps.invariant I ?_ [] hstart (steps_call app depth s (env, c))
      · exact ⟨hinv.1, hinv.2.2⟩
      · rintro u tr es v ⟨hu, hcfg, hes⟩ hstep
        obtain ⟨hv, hkeep, hnew⟩ := hu.step hstep
        rw [hcfg] at hkeep hnew
        exact ⟨hv, hkeep, List.forall_mem_append.mpr ⟨hes, hnew⟩⟩

theorem linkInv_run (app : App σ ε) (depth : Nat) {link : Link} (h : LinkInv link) (a : σ)
    (ops : List Op) : LinkInv (run (perform app depth) (link, a) ops).1.1 :=
  run_invariant (fun (s : Link × σ) _ => LinkInv s.1) (fun _ _ op hs => (hs.after app depth op).1)
    [] h ops

theorem linkInv_calls (app : App σ ε) (depth : Nat) (cfg : Config) (a : σ)
    (calls : List (Env × Call)) : LinkInv (run (call app depth) (init cfg, a) calls).1.1 :=
  run_invariant (fun (s : Link × σ) _ => LinkInv s.1)
    (fun _ _ i hs => (hs.after app depth (.call i.1 i.2)).1) [] (linkInv_init cfg) calls

/-- Whatever has been done to an initialised link, the invariant holds, and the next call accesses
its buffers inside their bounds, wraps no counter and ends its sending loop by itself. -/
theorem link_invariant (app : App σ ε) (depth : Nat) (cfg : Config) (a : σ) (ops : List Op) :
    LinkInv (run (perform app depth) (init cfg, a) ops).1.1 ∧
      ∀ op, ∀ e ∈ (perform app depth (run (perform app depth) (init cfg, a) ops).1 op).2,
        e.InBounds (run (perform app depth) (init cfg, a) ops).1.1.cfg := by
  have hinv := linkInv_run app depth (linkInv_init cfg) a ops
  exact ⟨hinv, fun op => (hinv.after app depth op).2⟩

end Run

end MiniEcu.IsoTp
