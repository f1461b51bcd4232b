import Mathlib.Data.List.TakeDrop
import MiniEcu.IsoTp.Invariant

/-!
# The sender emits the segmentation of the message

`segmentation` says which frames a message is cut into. Between the call that accepts a message and
its confirmation the frames the driver has taken are always a prefix of it, whatever the peer, the
driver and the schedule do, and all of it exactly when the confirmation is positive. The trace is
read by a monitor that keeps the message in flight and its frames so far; the link's own fields
determine what the monitor holds.
-/

namespace MiniEcu.IsoTp

open Memory Trace

/-! ### The reference segmentation -/

/-- The `i`-th consecutive frame of a message, counted from zero. -/
def segment (m : Bytes) (i : Nat) : Frame :=
  consecutiveFrame ((i + 1) % 16) (slice m (6 + 7 * i) 7)

/-- How many consecutive frames carry what the first frame leaves over. -/
def segmentCount (length : Nat) : Nat := (length - 6 + 6) / 7

/-- The frames a message is sent as. -/
def segmentation (m : Bytes) : List Frame :=
  if m.length ≤ 7 then [singleFrame m.length m]
  else firstFrame m.length (m.take 6) :: (List.range (segmentCount m.length)).map (segment m)

theorem length_segmentation {m : Bytes} (h : 7 < m.length) :
    (segmentation m).length = segmentCount m.length + 1 := by
  rw [segmentation, if_neg (by omega), List.length_cons, List.length_map, List.length_range]

theorem take_segmentation_concat {m : Bytes} {k : Nat} (h : 7 < m.length)
    (hk : k < segmentCount m.length) :
    (segmentation m).take (k + 1) ++ [segment m k] = (segmentation m).take (k + 2) := by
  rw [segmentation, if_neg (by omega), List.take_succ_cons, List.take_succ_cons, List.cons_append,
    ← List.map_take, ← List.map_take, List.take_range, List.take_range,
    Nat.min_eq_left (by omega), Nat.min_eq_left (by omega), List.range_succ, List.map_append]
  rfl

/-! ### The monitor -/

/-- The message in flight and the frames of it the driver has taken. -/
abbrev Flight := Option (Bytes × List Frame)

section Monitor

variable {ε : Type}

def follow (x : Flight) : Event ε → Flight
  | .transmit m .ok => some (m, [])
  | .sendFrame _ f true =>
      if f.pciType = pciTypeFc then x else x.map fun (m, fs) => (m, fs ++ [f])
  | .txConfirmation _ => none
  | _ => x

/-- What has been sent is a prefix of the segmentation of the message in flight; a confirmation
belongs to a message in flight, and is positive exactly if all of it has been sent; a message is
only accepted when none is in flight. -/
def FlightCheck (x : Flight) (e : Event ε) : Prop :=
  (∀ m fs, follow x e = some (m, fs) → fs <+: segmentation m) ∧
    (∀ result, e = .txConfirmation result →
      ∃ m fs, x = some (m, fs) ∧ (fs = segmentation m ↔ result = .ok)) ∧
    ∀ m, e = .transmit m .ok → x = none

/-- An event that the monitor does not react to. -/
def Event.Quiet : Event ε → Prop
  | .transmit _ result => result ≠ .ok
  | .sendFrame _ f accepted => accepted = true → f.pciType = pciTypeFc
  | .txConfirmation _ => False
  | _ => True

def Sound (x : Flight) : Prop := ∀ m fs, x = some (m, fs) → fs <+: segmentation m

theorem follow_quiet {x : Flight} {e : Event ε} (h : e.Quiet) : follow x e = x := by
  cases e with
  | transmit m result => cases result <;> first | rfl | exact absurd rfl h
  | sendFrame canId f accepted =>
      cases accepted with
      | false => rfl
      | true => exact if_pos (h rfl)
  | txConfirmation result => exact absurd h id
  | _ => rfl

theorem foldl_quiet {x : Flight} {es : List (Event ε)} (h : ∀ e ∈ es, e.Quiet) :
    es.foldl follow x = x := by
  induction es generalizing x with
  | nil => rfl
  | cons e es ih =>
      obtain ⟨hfirst, hrest⟩ := List.forall_mem_cons.mp h
      rw [List.foldl_cons, follow_quiet hfirst, ih hrest]

theorem flightCheck_quiet {x : Flight} {e : Event ε} (hx : Sound x) (h : e.Quiet) :
    FlightCheck x e := by
  refine ⟨by rwa [follow_quiet h], ?_, ?_⟩
  · rintro result rfl
    exact absurd h id
  · rintro m rfl
    exact absurd rfl h

theorem monitored_quiet {x : Flight} {es : List (Event ε)} (hx : Sound x)
    (h : ∀ e ∈ es, e.Quiet) : Monitored follow FlightCheck x es := by
  induction es with
  | nil => exact monitored_nil x
  | cons e es ih =>
      obtain ⟨hfirst, hrest⟩ := List.forall_mem_cons.mp h
      rw [monitored_cons, follow_quiet hfirst]
      exact ⟨flightCheck_quiet hx hfirst, ih hrest⟩

/-! ### The link knows what is in flight -/

/-- A sender in the middle of the message `m`, with the frames `fs` sent. -/
structure Carries (t : TxSide) (m : Bytes) (fs : List Frame) : Prop where
  message : t.txBuffer.take t.txLength = m
  length : t.txLength = m.length
  nonempty : m.length ≠ 0
  sent : t.txState = .sendFirst ∧ fs = [] ∨
    (t.txState = .waitFc ∨ t.txState = .sendCf) ∧ 7 < m.length ∧
      ∃ k, t.txOffset = 6 + 7 * k ∧ t.txSeq = (k + 1) % 16 ∧ fs = (segmentation m).take (k + 1)

def Flying (t : TxSide) : Flight → Prop
  | none => t.txState = .idle
  | some (m, fs) => Carries t m fs

/-- The monitor accepts the events and agrees with the sender afterwards. -/
def Flies (x : Flight) (es : List (Event ε)) (t : TxSide) : Prop :=
  Flying t (es.foldl follow x) ∧ Monitored follow FlightCheck x es

variable {t : TxSide} {m : Bytes} {fs : List Frame} {es : List (Event ε)}

theorem Carries.sound (h : Carries t m fs) : fs <+: segmentation m := by
  rcases h.sent with ⟨-, rfl⟩ | ⟨-, -, k, -, -, rfl⟩
  · exact List.nil_prefix
  · exact List.take_prefix _ _

theorem Flying.sound {x : Flight} (h : Flying t x) : Sound x := by
  rintro m fs rfl
  exact Carries.sound h

theorem Flies.quiet {x : Flight} (h : Flying t x) (hquiet : ∀ e ∈ es, e.Quiet) : Flies x es t := by
  refine ⟨?_, monitored_quiet h.sound hquiet⟩
  rwa [foldl_quiet hquiet]

theorem Flies.cons_quiet {x : Flight} {e : Event ε} (hx : Sound x) (hquiet : e.Quiet)
    (h : Flies x es t) : Flies x (e :: es) t := by
  rw [Flies, List.foldl_cons, monitored_cons, follow_quiet hquiet]
  exact ⟨h.1, flightCheck_quiet hx hquiet, h.2⟩

theorem Flies.append_quiet {x : Flight} {quiet : List (Event ε)} (hx : Sound x)
    (hquiet : ∀ e ∈ quiet, e.Quiet) (h : Flies x es t) : Flies x (quiet ++ es) t := by
  rw [Flies, List.foldl_append, monitored_append, foldl_quiet hquiet]
  exact ⟨h.1, monitored_quiet hx hquiet, h.2⟩

theorem Flies.cons_sent {canId : Nat} {f : Frame} (htype : f.pciType ≠ pciTypeFc)
    (hnext : fs ++ [f] <+: segmentation m) (h : Flies (some (m, fs ++ [f])) es t) :
    Flies (some (m, fs)) (.sendFrame canId f true :: es) t := by
  have hfollow : follow (some (m, fs)) (.sendFrame (ε := ε) canId f true) = some (m, fs ++ [f]) :=
    if_neg htype
  rw [Flies, List.foldl_cons, monitored_cons, hfollow]
  refine ⟨h.1, ⟨?_, nofun, nofun⟩, h.2⟩
  rw [hfollow]
  rintro m' fs' heq
  cases heq
  exact hnext

theorem Flies.confirmed {result : Result} (hidle : t.txState = .idle)
    (hfull : fs = segmentation m ↔ result = .ok) :
    Flies (ε := ε) (some (m, fs)) [.txConfirmation result] t := by
  refine ⟨hidle, ?_⟩
  rw [monitored_cons]
  refine ⟨⟨nofun, ?_, nofun⟩, monitored_nil _⟩
  rintro result' heq
  cases heq
  exact ⟨m, fs, rfl, hfull⟩

end Monitor

/-! ### The frames on the wire are those of the segmentation -/

section Frames

variable {cfg : Config} {t : TxSide} {m : Bytes} {fs : List Frame}

theorem pciType_consecutiveFrame {seq : Nat} (h : seq < 16) (data : Bytes) :
    (consecutiveFrame seq data).pciType = pciTypeCf :=
  Frame.pciType_padded (by decide) h _

theorem TxSide.pciType_first_le (t : TxSide) : t.first.pciType ≤ pciTypeFf := by
  unfold TxSide.first
  split
  · rename_i hlen
    have htype : (singleFrame t.txLength (slice t.txBuffer 0 t.txLength)).pciType = pciTypeSf :=
      Frame.pciType_padded (by decide) (by simp at hlen; omega) _
    simp [htype]
  · have hlow : (t.txLength >>> 8) &&& 0x0F < 16 := by
      rw [Nat.and_two_pow_sub_one_eq_mod _ 4]
      exact Nat.mod_lt _ (by decide)
    have htype : (firstFrame t.txLength (slice t.txBuffer 0 ffData)).pciType = pciTypeFf :=
      Frame.pciType_padded (by decide) hlow _
    simp [htype]

theorem TxSide.pciType_first (t : TxSide) : t.first.pciType ≠ pciTypeFc := by
  have hle := t.pciType_first_le
  simp only [pciTypeFf, pciTypeFc] at hle ⊢
  omega

theorem Carries.first (h : Carries t m fs) : [t.first] = (segmentation m).take 1 := by
  have hmessage := h.message
  unfold TxSide.first segmentation
  rw [h.length] at hmessage ⊢
  by_cases hlen : m.length ≤ 7
  · rw [if_pos hlen, if_pos hlen]
    simp [slice, hmessage]
  · rw [if_neg hlen, if_neg hlen]
    have hdata : slice t.txBuffer 0 6 = m.take 6 := by
      rw [← hmessage, List.take_take, Nat.min_eq_left (by omega)]
      rfl
    simp [hdata]

theorem Carries.lt_segmentCount (h : Carries t m fs) {k : Nat} (hoffset : t.txOffset = 6 + 7 * k)
    (hlt : t.txOffset < t.txLength) : k < segmentCount m.length := by
  rw [h.length] at hlt
  unfold segmentCount
  omega

theorem Carries.consecutive (h : Carries t m fs) (hinv : TxInv cfg t) (hs : t.txState = .sendCf)
    {k : Nat} (hoffset : t.txOffset = 6 + 7 * k) (hseq : t.txSeq = (k + 1) % 16) :
    t.consecutive = segment m k := by
  rw [TxSide.consecutive, segment, hseq, hinv.chunk hs, ← hoffset, ← h.message, slice_take_min]

theorem TxInv.pciType_consecutive_eq (hinv : TxInv cfg t) (hs : t.txState = .sendCf) :
    t.consecutive.pciType = pciTypeCf := by
  obtain ⟨-, -, -, k, -, hseq⟩ := hinv.underway (.inr hs)
  exact pciType_consecutiveFrame (by omega) _

theorem TxInv.pciType_consecutive (hinv : TxInv cfg t) (hs : t.txState = .sendCf) :
    t.consecutive.pciType ≠ pciTypeFc := by
  rw [hinv.pciType_consecutive_eq hs]
  decide

/-- The segmentation is complete exactly when the offset has reached the end. -/
theorem take_segmentation_eq {k : Nat} (hlen : 7 < m.length) :
    (segmentation m).take (k + 1) = segmentation m ↔ m.length ≤ 6 + 7 * k := by
  rw [List.take_eq_self_iff, length_segmentation hlen, segmentCount]
  omega

end Frames

/-! ### Every step of the sender -/

section Step

variable {ε : Type} {cfg : Config} {t t' : TxSide} {m : Bytes} {fs : List Frame}

theorem TxSide.Paced.quiet {pace : List (Event ε)} (h : t.Paced pace) : ∀ e ∈ pace, e.Quiet := by
  cases h <;> simp [Event.Quiet]

/-- The driver takes the CF number `k`, counted from zero. -/
structure Advances (t : TxSide) (m : Bytes) (fs : List Frame) (time k : Nat) : Prop where
  start : t.txOffset = 6 + 7 * k
  frame : t.consecutive = segment m k
  sent : fs = (segmentation m).take (k + 1)
  long : 7 < m.length
  lt : k < segmentCount m.length
  offset : (t.advance time).txOffset = min (6 + 7 * (k + 1)) m.length
  seq : (t.advance time).txSeq = (k + 1 + 1) % 16

theorem Carries.advances (h : Carries t m fs) (hinv : TxInv cfg t) (hs : t.txState = .sendCf)
    (time : Nat) : ∃ k, Advances t m fs time k := by
  rcases h.sent with ⟨hfirst, -⟩ | ⟨-, hlen, k, hoffset, hseq, hfs⟩
  · rw [hs] at hfirst
    cases hfirst
  obtain ⟨-, hlt, -⟩ := hinv.underway (.inr hs)
  have hcount := h.lt_segmentCount hoffset hlt
  rw [h.length] at hlt
  refine ⟨k, hoffset, h.consecutive hinv hs hoffset hseq, hfs, hlen, hcount, ?_, ?_⟩
  · rw [hinv.offset_advance hs, h.length]
    omega
  · have hmask : (t.txSeq + 1) &&& 0x0F = (t.txSeq + 1) % 16 := Nat.and_two_pow_sub_one_eq_mod _ 4
    have hnext : (t.advance time).txSeq = (t.txSeq + 1) &&& 0x0F := rfl
    rw [hnext, hmask, hseq]
    omega

theorem Advances.carries {time k : Nat} (h : Advances t m fs time k) (hcarries : Carries t m fs)
    (hmore : (t.advance time).txOffset < t.txLength)
    (hbuffer : t'.txBuffer = t.txBuffer) (hlength : t'.txLength = t.txLength)
    (hoffset : t'.txOffset = (t.advance time).txOffset) (hseq : t'.txSeq = (t.advance time).txSeq)
    (hs : t'.txState = .waitFc ∨ t'.txState = .sendCf) :
    Carries t' m ((segmentation m).take (k + 2)) where
  message := by rw [hbuffer, hlength, hcarries.message]
  length := by rw [hlength, hcarries.length]
  nonempty := hcarries.nonempty
  sent := by
    rw [hcarries.length, h.offset] at hmore
    refine .inr ⟨hs, h.long, k + 1, ?_, hseq.trans h.seq, rfl⟩
    rw [hoffset, h.offset]
    omega

theorem flies_cf (h : Carries t m fs) (hinv : TxInv cfg t) (hs : t.txState = .sendCf) (time : Nat)
    {canId : Nat} {pace rest : List (Event ε)} (hpace : t.Paced pace)
    (hrest : ∀ k, Advances t m fs time k →
      Flies (some (m, (segmentation m).take (k + 2))) rest t') :
    Flies (some (m, fs)) (pace ++ (.txRead t.txOffset t.chunk ::
      .sendFrame canId t.consecutive true :: rest)) t' := by
  obtain ⟨k, hk⟩ := h.advances hinv hs time
  have hsound : Sound (some (m, fs)) := Flying.sound (t := t) h
  have hnext : fs ++ [t.consecutive] = (segmentation m).take (k + 2) := by
    rw [hk.frame, hk.sent, take_segmentation_concat hk.long hk.lt]
  refine .append_quiet hsound hpace.quiet (.cons_quiet hsound trivial
    (.cons_sent (hinv.pciType_consecutive hs) ?_ ?_))
  · rw [hnext]
    exact List.take_prefix _ _
  · rw [hnext]
    exact hrest k hk

theorem flies_first {canId : Nat} {rest : List (Event ε)} (h : Carries t m fs)
    (hs : t.txState = .sendFirst)
    (hrest : Flies (some (m, (segmentation m).take 1)) rest t') :
    Flies (some (m, fs))
      (.txRead 0 t.firstCount :: .sendFrame canId t.first true :: rest) t' := by
  have hfs : fs = [] := by
    rcases h.sent with ⟨-, hfs⟩ | ⟨hwait, -⟩
    · exact hfs
    · simp [hs] at hwait
  subst hfs
  have hsound : Sound (some (m, [])) := Flying.sound (t := t) h
  refine .cons_quiet hsound trivial (.cons_sent t.pciType_first ?_ ?_)
  · rw [List.nil_append, h.first]
    exact List.take_prefix _ _
  · rwa [List.nil_append, h.first]

theorem Flying.sending {x : Flight} {es : List (Event ε)} (h : Flying t x) (hinv : TxInv cfg t)
    (hstep : Sending cfg t es t') : Flies x es t' := by
  have hbusy : t.txState ≠ .idle := by cases hstep <;> simp_all
  cases x with
  | none => exact absurd h hbusy
  | some flight =>
  obtain ⟨m, fs⟩ := flight
  have hcarries : Carries t m fs := h
  cases hstep with
  | firstRefused hs => exact .quiet h (by simp [Event.Quiet])
  | tooEarly hs => exact .quiet h (by simp [Event.Quiet])
  | unfinished hs => exact .quiet h (by simp [Event.Quiet])
  | cfRefused hs hpace =>
      exact .append_quiet h.sound hpace.quiet (.quiet h (by simp [Event.Quiet]))
  | singleSent hs hlen =>
      rw [hcarries.length] at hlen
      refine flies_first hcarries hs (.confirmed rfl (iff_of_true ?_ rfl))
      rw [segmentation, if_pos hlen]
      rfl
  | firstSent hs hlen time =>
      refine flies_first hcarries hs (.quiet ?_ (by simp [Event.Quiet]))
      rw [hcarries.length] at hlen
      exact ⟨hcarries.message, hcarries.length, hcarries.nonempty,
        .inr ⟨.inl rfl, hlen, 0, rfl, rfl, rfl⟩⟩
  | lastSent hs hpace time hend =>
      refine flies_cf hcarries hinv hs time hpace fun k hk => ?_
      rw [hcarries.length, hk.offset] at hend
      have hall : (segmentation m).take (k + 2) = segmentation m :=
        (take_segmentation_eq hk.long).mpr (by omega)
      rw [hall]
      have hsound : Sound (some (m, segmentation m)) := by
        rintro m' fs' heq
        cases heq
        exact List.prefix_refl _
      exact .cons_quiet hsound trivial (.cons_quiet hsound trivial
        (.confirmed rfl (iff_of_true rfl rfl)))
  | cfSent hs hpace time hmore hblock =>
      refine flies_cf hcarries hinv hs time hpace fun k hk => .quiet ?_ (by simp [Event.Quiet])
      exact hk.carries hcarries hmore rfl rfl rfl rfl (.inr hs)
  | cfSentInBlock hs hpace time hmore hblock hcount =>
      refine flies_cf hcarries hinv hs time hpace fun k hk => .quiet ?_ (by simp [Event.Quiet])
      exact hk.carries hcarries hmore rfl rfl rfl rfl (.inr hs)
  | blockSent hs hpace time after hmore hblock hcount =>
      refine flies_cf hcarries hinv hs time hpace fun k hk => .quiet ?_ (by simp [Event.Quiet])
      exact hk.carries hcarries hmore rfl rfl rfl rfl (.inl rfl)

theorem Flying.not_idle {m : Bytes} {fs : List Frame} (h : Flying t (some (m, fs))) :
    t.txState ≠ .idle := by
  intro hidle
  rcases h.sent with ⟨hfirst, -⟩ | ⟨hsending, -⟩
  · simp [hidle] at hfirst
  · simp [hidle] at hsending

theorem Carries.incomplete (h : Carries t m fs) (hinv : TxInv cfg t) : fs ≠ segmentation m := by
  rcases h.sent with ⟨-, rfl⟩ | ⟨hsending, hlen, k, hoffset, -, rfl⟩
  · unfold segmentation
    split <;> simp
  · obtain ⟨-, hlt, -⟩ := hinv.underway hsending
    rw [h.length] at hlt
    rw [ne_eq, take_segmentation_eq hlen]
    omega

/-- Giving a message up is reported as an error. -/
theorem Flying.aborted {x : Flight} (quiet : List (Event ε)) {result : Result} (h : Flying t x)
    (hinv : TxInv cfg t) (hbusy : t.txState ≠ .idle) (hquiet : ∀ e ∈ quiet, e.Quiet)
    (hidle : t'.txState = .idle) (hresult : result ≠ .ok) :
    Flies x (quiet ++ [.txConfirmation result]) t' := by
  cases x with
  | none => exact absurd h hbusy
  | some flight =>
      have hcarries : Carries t flight.1 flight.2 := h
      exact .append_quiet h.sound hquiet
        (.confirmed hidle (iff_of_false (hcarries.incomplete hinv) hresult))

theorem Flying.step {x : Flight} {es : List (Event ε)} (h : Flying t x) (hinv : TxInv cfg t)
    (hstep : TxStep cfg t es t') : Flies x es t' := by
  cases hstep with
  | sending hsending => exact h.sending hinv hsending
  | badParam m _ => exact .quiet h (by simp [Event.Quiet])
  | busy m _ => exact .quiet h (by simp [Event.Quiet])
  | notYet time => exact .quiet h (by simp [Event.Quiet])
  | start m time hidle hpos hmax hfit =>
      cases x with
      | some flight => exact absurd hidle (Flying.not_idle h)
      | none =>
          have hcarries : Flying (t.started m time) (some (m, [])) :=
            ⟨take_copy_zero _ _, rfl, hpos, .inl ⟨rfl, rfl⟩⟩
          have hquiet : ∀ e ∈ [Event.txWrite (ε := ε) 0 m.length, .getTimeMs time], e.Quiet := by
            simp [Event.Quiet]
          refine ⟨(Flies.quiet hcarries hquiet).1, ?_⟩
          rw [monitored_cons]
          exact ⟨⟨hcarries.sound, nofun, fun _ _ => rfl⟩, monitored_quiet hcarries.sound hquiet⟩
  | clearToSend data time hs =>
      refine .quiet ?_ (by simp [Event.Quiet])
      cases x with
      | none => simp [Flying, hs] at h
      | some flight =>
          obtain ⟨hmessage, hlength, hpos, hsent⟩ := h
          exact ⟨hmessage, hlength, hpos, hsent.imp (by simp [hs]) fun hrest => ⟨.inr rfl, hrest.2⟩⟩
  | wait time hs hle =>
      refine .quiet ?_ (by simp [Event.Quiet])
      cases x with
      | none => exact h
      | some flight => exact ⟨h.message, h.length, h.nonempty, h.sent⟩
  | waitOverrun hs hover =>
      exact h.aborted [_] hinv (by simp [hs]) (by simp [Event.Quiet]) rfl (by decide)
  | flowAborted result hs hresult =>
      apply h.aborted [] hinv (by simp [hs]) (by simp) rfl
      rcases hresult with rfl | rfl <;> decide
  | timedOut time hs hexpired =>
      refine h.aborted [_] hinv ?_ (by simp [Event.Quiet]) rfl (by decide)
      rcases hs with hs | hs <;> simp [hs]

end Step

/-! ### Every run -/

section Run

variable {σ ε : Type}

theorem RxStep.quiet {cfg : Config} {r r' : RxSide} {es : List (Event ε)} (hinv : RxInv cfg r)
    (h : RxStep cfg r es r') : ∀ e ∈ es, e.Quiet := by
  cases h with
  | flowControl status accepted hstatus =>
      have hle := hinv.flowStatus hstatus
      have htype : (flowControlFrame status cfg.blockSize cfg.stMin).pciType = pciTypeFc :=
        Frame.pciType_padded (by decide) (by omega) _
      simp [Event.Quiet, htype]
  | _ => simp [Event.Quiet]

theorem Flying.linkStep {s s' : Link × σ} {x : Flight} {es : List (Event ε)}
    (h : Flying s.1.tx x) (hinv : LinkInv s.1) (hstep : LinkStep s es s') :
    Flies x es s'.1.tx := by
  cases hstep with
  | tx htx => exact h.step hinv.tx htx
  | rx hrx => exact .quiet h (hrx.quiet hinv.rx)
  | app l a a' log => exact .quiet h (by simp [Event.Quiet])

/-- A call keeps the agreement between the link and the monitor. -/
theorem flying_call (app : App σ ε) (depth : Nat) {s : Link × σ} {tr : List (Event ε)}
    (hinv : LinkInv s.1) (h : Flies none tr s.1.tx) (i : Env × Call) :
    LinkInv (call app depth s i).1.1 ∧
      Flies none (tr ++ (call app depth s i).2) (call app depth s i).1.1.tx := by
  refine Steps.invariant (fun s tr => LinkInv s.1 ∧ Flies none tr s.1.tx) ?_ tr ⟨hinv, h⟩
    (steps_call app depth s i)
  rintro s tr es s' ⟨hinv, hflying, hmonitored⟩ hstep
  obtain ⟨hflying', hmonitored'⟩ := hflying.linkStep hinv hstep
  refine ⟨(hinv.step hstep).1, ?_, ?_⟩
  · rwa [List.foldl_append]
  · exact (monitored_append _ _ _).mpr ⟨hmonitored, hmonitored'⟩

/-- In every run of calls on an initialised link, with callbacks that transmit, the frames sent for
a message are at any time a prefix of its segmentation, and all of it exactly when the confirmation
is positive. -/
theorem sender_emits_segmentation (app : App σ ε) (depth : Nat) (cfg : Config) (a : σ)
    (calls : List (Env × Call)) :
    Monitored follow FlightCheck none (run (call app depth) (init cfg, a) calls).2 := by
  have hstart : LinkInv (init cfg) ∧ Flies (ε := ε) none [] (init cfg).tx :=
    ⟨linkInv_init cfg, rfl, monitored_nil _⟩
  have hrun := run_invariant (fun (s : Link × σ) tr => LinkInv s.1 ∧ Flies none tr s.1.tx)
    (fun s tr i h => flying_call app depth h.1 h.2 i) (s := (init cfg, a)) [] hstart calls
  exact hrun.2.2

end Run

end MiniEcu.IsoTp
