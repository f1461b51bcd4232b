import MiniEcu.Diag.Turns
import MiniEcu.Lib.Trace

/-!
# Which responses are taken, and which resets are run

A run of the diagnostics is a run of turns. A response is taken exactly if the link is idle when its
request arrives. A pending reset is run by the next confirmation, which is its own as long as the
response to every accepted reset goes out; a reset whose response is suppressed waits for somebody
else's.
-/

namespace MiniEcu.Diag

open IsoTp (Outcome)
open Trace
open Uds (ResetType)

/-- Between two calls the state is ready for the next, in every run. -/
theorem ready_run (time : Nat) (is : List Stimulus) : (run step (boot time) is).1.Ready :=
  run_invariant (fun (s : State) _ => s.Ready) (fun _ _ i h => (turn_step h i).1) [] (ready_boot time) is

/-! ### Responses -/

/-- Every response that is not empty is at once passed to `IsoTp_Transmit`, which answers it with
this result. -/
def PassedOn (result : IsoTp.Result) (es : List Entry) : Prop :=
  ∀ before r response after, es = before ++ .request r response :: after → response ≠ [] →
    ∃ rest, after = .transmit response result :: rest

/-- Where the request comes first and no other follows, it is enough to look at what follows it. -/
theorem passedOn_cons {result : IsoTp.Result} {r : Request} {response : Bytes} {es : List Entry}
    (hfirst : response ≠ [] → ∃ rest, es = .transmit response result :: rest)
    (hrest : ∀ r response, .request r response ∉ es) :
    PassedOn result (.request r response :: es) := by
  intro before r' response' after hsplit hresponse
  cases before with
  | nil =>
      obtain ⟨hrequest, rfl⟩ := List.cons.inj hsplit
      obtain ⟨rfl, rfl⟩ := Entry.request.inj hrequest
      exact hfirst hresponse
  | cons e before =>
      obtain ⟨-, rfl⟩ := List.cons.inj hsplit
      exact absurd (List.mem_append_right before List.mem_cons_self) (hrest r' response')

theorem passedOn_of_not_mem {result : IsoTp.Result} {es : List Entry}
    (h : ∀ r response, .request r response ∉ es) : PassedOn result es := by
  intro before r response after hsplit _
  exact absurd (hsplit ▸ List.mem_append_right before List.mem_cons_self) (h r response)

theorem not_mem_resets (p : Option ResetType) (r : Request) (response : Bytes) :
    .request r response ∉ resets p := by
  cases p <;> simp [resets]

theorem Turn.passedOn {arrival : Option Request} {givesUp : Prop} {t t' : IsoTp.TxSide}
    {p p' : Option ResetType} {es : List Entry} (h : Turn arrival givesUp t p es t' p') :
    PassedOn (if t.txState = .idle then .ok else .errBusy) es := by
  cases h with
  | quiet => exact passedOn_of_not_mem (by simp)
  | aborted => exact passedOn_of_not_mem (by simp)
  | confirmed => exact passedOn_of_not_mem (by simp [not_mem_resets])
  | unanswered => exact passedOn_cons (by simp) (by simp)
  | rejected _ _ _ _ hbusy =>
      rw [if_neg hbusy]
      exact passedOn_cons (fun _ => ⟨_, rfl⟩) (by simp)
  | taken _ _ _ _ hidle =>
      rw [if_pos hidle]
      exact passedOn_cons (fun _ => ⟨_, rfl⟩) (by simp)
  | answered _ _ _ _ hidle =>
      rw [if_pos hidle]
      exact passedOn_cons (fun _ => ⟨_, rfl⟩) (by simp [not_mem_resets])

/-- Only the response to the request just before is passed to `IsoTp_Transmit`. If it is not taken,
the call does nothing more about it. -/
def OnlyResponses (es : List Entry) : Prop :=
  ∀ before message result after, es = before ++ .transmit message result :: after →
    (∃ r, before = [.request r message]) ∧ (result ≠ .ok → after = [])

theorem onlyResponses_of_not_mem {es : List Entry} (h : ∀ message result, .transmit message result ∉ es) :
    OnlyResponses es := by
  intro before message result after hsplit
  exact absurd (hsplit ▸ List.mem_append_right before List.mem_cons_self) (h message result)

theorem onlyResponses_cons {r : Request} {response : Bytes} {result : IsoTp.Result} {es : List Entry}
    (hdropped : result ≠ .ok → es = []) (hrest : ∀ message result, .transmit message result ∉ es) :
    OnlyResponses (.request r response :: .transmit response result :: es) := by
  intro before message result' after hsplit
  cases before with
  | nil => cases hsplit
  | cons e before =>
      obtain ⟨rfl, htail⟩ := List.cons.inj hsplit
      cases before with
      | nil =>
          obtain ⟨htransmit, rfl⟩ := List.cons.inj htail
          obtain ⟨rfl, rfl⟩ := Entry.transmit.inj htransmit
          exact ⟨⟨r, rfl⟩, hdropped⟩
      | cons e' before =>
          obtain ⟨-, rfl⟩ := List.cons.inj htail
          exact absurd (List.mem_append_right before List.mem_cons_self) (hrest message result')

theorem transmit_not_mem_resets (p : Option ResetType) (message : Bytes) (result : IsoTp.Result) :
    .transmit message result ∉ resets p := by
  cases p <;> simp [resets]

theorem Turn.onlyResponses {arrival : Option Request} {givesUp : Prop} {t t' : IsoTp.TxSide}
    {p p' : Option ResetType} {es : List Entry} (h : Turn arrival givesUp t p es t' p') :
    OnlyResponses es := by
  cases h with
  | quiet | aborted | unanswered => exact onlyResponses_of_not_mem (by simp)
  | confirmed => exact onlyResponses_of_not_mem (by simp [transmit_not_mem_resets])
  | rejected => exact onlyResponses_cons (fun _ => rfl) (by simp)
  | taken => exact onlyResponses_cons (fun _ => rfl) (by simp)
  | answered => exact onlyResponses_cons (absurd rfl) (by simp [transmit_not_mem_resets])

/-- Whatever has happened before, a response is taken exactly if the link is idle when the call
comes, and is otherwise answered as busy. It is then dropped: no other call passes it on, since all
that a call passes on is the response to its own request. -/
theorem response_passed_on (time : Nat) (is : List Stimulus) (i : Stimulus) :
    let s := (run step (boot time) is).1
    PassedOn (if s.link.tx.txState = .idle then .ok else .errBusy) (transcript (step s i).2) ∧
      OnlyResponses (transcript (step s i).2) :=
  have hturn := (turn_step (ready_run time is) i).2
  ⟨hturn.passedOn, hturn.onlyResponses⟩

/-! ### Calls to try things out with -/

section Calls

open IsoTp (Frame)

/-- A call at a fixed time on a bus that takes every frame, or none. -/
def callAt (time : Nat) (driver : Bool) (input : Input) : Stimulus where
  env := { clock := fun _ => time, driver := fun _ => driver }
  signals := { speedX10 := 0, faultMask := 0 }
  input := input

/-- A frame from the tester. -/
def fromTester (bytes : Bytes) : Input :=
  .onFrame (.full canIdUdsReqControl (.padded bytes))

end Calls

/-- While the version is being read, a session change is executed and its response is lost. -/
theorem not_passedOn_sessionChange :
    ¬ PassedOn .ok (transcript (run step (boot 0)
      [callAt 0 true (fromTester [0x03, 0x22, 0xF1, 0x95]),
        callAt 0 true (fromTester [0x02, 0x10, 0x03])]).2) := by
  have htranscript : transcript (run step (boot 0)
      [callAt 0 true (fromTester [0x03, 0x22, 0xF1, 0x95]),
        callAt 0 true (fromTester [0x02, 0x10, 0x03])]).2 =
      [.request ⟨.default, [0x22, 0xF1, 0x95], false⟩ ([0x62, 0xF1, 0x95] ++ fwVersion),
        .transmit ([0x62, 0xF1, 0x95] ++ fwVersion) .ok] ++
      .request ⟨.default, [0x10, 0x03], false⟩ [0x50, 0x03, 0x00, 0x32, 0x01, 0xF4] ::
      [.transmit [0x50, 0x03, 0x00, 0x32, 0x01, 0xF4] .errBusy] := by decide +kernel
  intro hpassed
  obtain ⟨rest, hrest⟩ := hpassed _ _ _ _ htranscript (by decide)
  simp at hrest

/-! ### Resets -/

/-- What an observer of the transcript remembers: how many requests there have been, the
transmission in flight with the number of the request it answers, the one confirmed by the entry
before, and the reset armed last with the number of its request. -/
structure Watch where
  count : Nat := 0
  flight : Option (Nat × Bytes) := none
  confirmed : Option (Nat × Bytes) := none
  armed : Option (Nat × ResetType) := none

namespace Watch

def follow (m : Watch) : Entry → Watch
  | .request r _ =>
      { m with
        count := m.count + 1
        confirmed := none
        armed := (r.accepted.map fun type => (m.count + 1, type)).or m.armed }
  | .transmit message .ok => { m with flight := some (m.count, message), confirmed := none }
  | .transmit _ _ => { m with confirmed := none }
  | .sent .ok => { m with flight := none, confirmed := m.flight }
  | .sent _ => { m with flight := none, confirmed := none }
  | .reset _ => { m with confirmed := none, armed := none }

/-- A reset is run right after the confirmation of the positive response to the very request that
has armed it. -/
def Check (m : Watch) : Entry → Prop
  | .reset type =>
      ∃ n, m.armed = some (n, type) ∧ m.confirmed = some (n, resetResponse type)
  | _ => True

end Watch

def ResetsAnswered (es : List Entry) : Prop := Monitored Watch.follow Watch.Check {} es

/-- No accepted reset is left without its response: it asks for one, it finds the link idle, and the
response to it is not given up. -/
def Orderly (s : State) (i : Stimulus) : Prop :=
  (∀ r ∈ s.arrival i, r.accepted ≠ none → r.suppressed = false ∧ s.link.tx.txState = .idle) ∧
    (s.pending ≠ none → ¬ s.GivesUp i)

instance (s : State) (i : Stimulus) : Decidable (Orderly s i) := inferInstanceAs (Decidable (_ ∧ _))

/-- A pending reset is the one armed last, and its response waits for the driver. -/
structure Tracks (t : IsoTp.TxSide) (p : Option ResetType) (m : Watch) : Prop where
  waits : ∀ type, p = some type → ∃ n, m.armed = some (n, type) ∧
    m.flight = some (n, resetResponse type) ∧ t.txState = .sendFirst ∧ t.txLength ≤ 7

theorem tracks_none (t : IsoTp.TxSide) (m : Watch) : Tracks t none m := ⟨by simp⟩

/-- A pending reset excludes an idle link. -/
theorem Tracks.pending_none {t : IsoTp.TxSide} {p : Option ResetType} {m : Watch} (h : Tracks t p m)
    (hidle : t.txState = .idle) : p = none := by
  cases p with
  | none => rfl
  | some type =>
      obtain ⟨n, -, -, hfirst, -⟩ := h.waits type rfl
      simp [hidle] at hfirst

theorem Tracks.allows {t t' : IsoTp.TxSide} {p : Option ResetType} {m m' : Watch}
    (h : Tracks t p m) (htx : Outcome.none.Allows t t') (harmed : m'.armed = m.armed)
    (hflight : m'.flight = m.flight) : Tracks t' p m' where
  waits type hp := by
    obtain ⟨n, harm, hfly, hfirst, hlen⟩ := h.waits type hp
    obtain rfl := htx.2 hfirst hlen
    exact ⟨n, harmed.trans harm, hflight.trans hfly, hfirst, hlen⟩

/-- A confirmed message that answers the request which armed the reset. -/
theorem monitored_resets {p : Option ResetType} {m : Watch}
    (h : ∀ type, p = some type →
      ∃ n, m.armed = some (n, type) ∧ m.confirmed = some (n, resetResponse type)) :
    Monitored Watch.follow Watch.Check m (resets p) := by
  cases p with
  | none => exact monitored_nil m
  | some type => exact (monitored_cons m _ _).mpr ⟨h type rfl, monitored_nil _⟩

theorem accepted_none {r : Request} (h : r.accepted = none) (p : Option ResetType) (m : Watch)
    (response : Bytes) :
    r.arms p = p ∧ (m.follow (.request r response)).armed = m.armed := by
  simp [Request.arms, Watch.follow, h]

/-- The response to an accepted reset is short, so the sender keeps it as a whole. -/
theorem tracks_taken {t : IsoTp.TxSide} {m : Watch} {r : Request} {response : Bytes}
    (hanswer : ∀ type, r.accepted = some type → response = resetResponse type)
    (hfirst : response.length ≤ 7 → t.txState = .sendFirst ∧ t.txLength = response.length) :
    Tracks t r.accepted ((m.follow (.request r response)).follow (.transmit response .ok)) where
  waits type htype := by
    have hresponse := hanswer type htype
    have hshort : response.length ≤ 7 := by
      rw [hresponse]
      exact Nat.le_of_ble_eq_true rfl
    obtain ⟨hwaits, hlen⟩ := hfirst hshort
    refine ⟨m.count + 1, ?_, ?_, hwaits, hlen ▸ hshort⟩
    · simp [Watch.follow, htype]
    · rw [← hresponse]
      rfl

/-- A turn of an orderly run answers each reset it runs. -/
theorem Turn.answered_tracks {arrival : Option Request} {givesUp : Prop} {t t' : IsoTp.TxSide}
    {p p' : Option ResetType} {es : List Entry} (h : Turn arrival givesUp t p es t' p') {m : Watch}
    (htracks : Tracks t p m)
    (harrives : ∀ r ∈ arrival, r.accepted ≠ none → r.suppressed = false ∧ t.txState = .idle)
    (hkeeps : p ≠ none → ¬ givesUp) :
    Tracks t' p' (es.foldl Watch.follow m) ∧ Monitored Watch.follow Watch.Check m es := by
  -- an accepted reset that finds the link idle is the only one, and its response names its type
  have hnone : ∀ {r : Request}, arrival = some r → t.txState ≠ .idle → r.accepted = none := by
    intro r harrival hbusy
    by_contra haccepted
    exact hbusy (harrives r harrival haccepted).2
  have hanswer : ∀ {r : Request} {response : Bytes} {type : ResetType}, arrival = some r →
      r.Genuine response → r.accepted = some type → response = resetResponse type := by
    intro r response type harrival hgenuine haccepted
    rw [hgenuine type haccepted, (harrives r harrival (by simp [haccepted])).1]
    rfl
  cases h with
  | quiet _ _ htx => exact ⟨htracks.allows htx rfl rfl, monitored_nil m⟩
  | aborted _ hgivenUp =>
      have hp : p = none := by
        by_contra hpending
        exact hkeeps hpending hgivenUp
      rw [hp]
      exact ⟨tracks_none t' _, (monitored_cons m _ _).mpr ⟨trivial, monitored_nil _⟩⟩
  | confirmed =>
      refine ⟨tracks_none t' _, (monitored_cons m _ _).mpr ⟨trivial, monitored_resets ?_⟩⟩
      intro type hp
      obtain ⟨n, harmed, hflight, -⟩ := htracks.waits type hp
      exact ⟨n, harmed, hflight⟩
  | @unanswered _ r harrival _ hgenuine htx =>
      have haccepted : r.accepted = none := by
        cases haccepted : r.accepted with
        | none => rfl
        | some type => cases hanswer harrival hgenuine haccepted
      obtain ⟨harms, harmed⟩ := accepted_none haccepted p m []
      rw [harms]
      exact ⟨htracks.allows htx harmed rfl,
        (monitored_cons m _ _).mpr ⟨trivial, monitored_nil _⟩⟩
  | @rejected _ r response harrival _ _ _ hbusy htx =>
      obtain ⟨harms, harmed⟩ := accepted_none (hnone harrival hbusy) p m response
      rw [harms]
      exact ⟨htracks.allows htx harmed rfl,
        by simp only [monitored_cons, monitored_nil, Watch.Check, true_and]⟩
  | @taken _ r response harrival _ hgenuine _ hidle _ hfirst =>
      rw [htracks.pending_none hidle, Request.arms, Option.or_none]
      refine ⟨tracks_taken (fun type => hanswer harrival hgenuine) hfirst, ?_⟩
      simp only [monitored_cons, monitored_nil, Watch.Check, true_and]
  | @answered _ r response harrival _ hgenuine _ hidle _ =>
      rw [htracks.pending_none hidle, Request.arms, Option.or_none]
      refine ⟨tracks_none t' _, ?_⟩
      simp only [monitored_cons, Watch.Check, true_and]
      refine monitored_resets fun type htype => ?_
      refine ⟨m.count + 1, by simp [Watch.follow, htype], ?_⟩
      rw [← hanswer harrival hgenuine htype]
      rfl

/-- **Resets only for their own answered requests.** In every run in which each accepted reset asks
for its response, finds the link idle and is not given up on its way, the reset callback runs right
after the confirmation of the positive response to the request that armed it. -/
theorem resets_answered (time : Nat) (is : List Stimulus)
    (horderly : Along step Orderly (boot time) is) :
    ResetsAnswered (transcript (run step (boot time) is).2) := by
  have hinv := run_invariant_of
    (fun (s : State) tr => s.Ready ∧
      Tracks s.link.tx s.pending ((transcript tr).foldl Watch.follow {}) ∧
      ResetsAnswered (transcript tr))
    Orderly ?_ [] ⟨ready_boot time, tracks_none _ _, monitored_nil _⟩ is horderly
  · exact hinv.2.2
  · intro s tr i ⟨hready, htracks, hanswered⟩ ⟨harrives, hkeeps⟩
    obtain ⟨hready', hturn⟩ := turn_step hready i
    obtain ⟨htracks', hmonitored⟩ := hturn.answered_tracks htracks harrives hkeeps
    rw [transcript_append, List.foldl_append]
    exact ⟨hready', htracks', (monitored_append _ _ _).mpr ⟨hanswered, hmonitored⟩⟩

/-- A reset is asked for, answered and run. -/
theorem resets_answered_hardReset :
    ResetsAnswered (transcript (run step (boot 0)
      [callAt 0 true (fromTester [0x02, 0x10, 0x03]),
        callAt 0 false (fromTester [0x02, 0x11, 0x01]), callAt 1 true .mainFunction]).2) :=
  resets_answered 0 _ (by decide +kernel)

/-- A hard reset whose response is suppressed is run when the response to a TesterPresent is out. -/
theorem not_resetsAnswered_suppressed :
    ¬ ResetsAnswered (transcript (run step (boot 0)
      [callAt 0 true (fromTester [0x02, 0x10, 0x03]),
        callAt 0 true (fromTester [0x02, 0x11, 0x81]),
        callAt 0 true (fromTester [0x02, 0x3E, 0x00])]).2) := by
  have htranscript : transcript (run step (boot 0)
      [callAt 0 true (fromTester [0x02, 0x10, 0x03]),
        callAt 0 true (fromTester [0x02, 0x11, 0x81]),
        callAt 0 true (fromTester [0x02, 0x3E, 0x00])]).2 =
      [.request ⟨.default, [0x10, 0x03], false⟩ [0x50, 0x03, 0x00, 0x32, 0x01, 0xF4],
        .transmit [0x50, 0x03, 0x00, 0x32, 0x01, 0xF4] .ok, .sent .ok,
        .request ⟨.extended, [0x11, 0x81], false⟩ [],
        .request ⟨.extended, [0x3E, 0x00], false⟩ [0x7E, 0x00], .transmit [0x7E, 0x00] .ok,
        .sent .ok] ++ .reset .hard :: [] := by decide +kernel
  intro hanswered
  obtain ⟨n, harmed, hconfirmed⟩ := hanswered _ _ _ htranscript
  have hresponse : resetResponse .hard = [0x7E, 0x00] := by
    have hboth : some (3, [0x7E, 0x00]) = some (n, resetResponse .hard) := hconfirmed
    simpa using (congrArg (Option.map Prod.snd) hboth).symm
  exact absurd hresponse (by decide)

/-! ### Resets without a response -/

/-- No request reaches the server in these calls. -/
def Unasked : State → List Stimulus → Prop := Along step fun s i => s.arrival i = none

/-- The transmission in progress is not given up in these calls. -/
def Kept : State → List Stimulus → Prop := Along step fun s i => ¬ s.GivesUp i

section Turns

variable {givesUp : Prop} {t t' : IsoTp.TxSide} {p p' : Option ResetType} {es : List Entry}

theorem Turn.unasked (h : Turn none givesUp t p es t' p') :
    (¬ givesUp ∧ es = [] ∧ Outcome.none.Allows t t' ∧ p' = p) ∨
      (givesUp ∧ (∃ result, es = [.sent result]) ∧ t.txState ≠ .idle ∧ t'.txState = .idle ∧
        p' = p) ∨
      (¬ givesUp ∧ es = .sent .ok :: resets p ∧ t.txState ≠ .idle ∧ t'.txState = .idle) := by
  cases h with
  | quiet _ hkept htx => exact .inl ⟨hkept, rfl, htx, rfl⟩
  | aborted _ hgivenUp _ hbusy hidle => exact .inr (.inl ⟨hgivenUp, ⟨_, rfl⟩, hbusy, hidle, rfl⟩)
  | confirmed _ hkept hbusy hidle => exact .inr (.inr ⟨hkept, rfl, hbusy, hidle⟩)
  | unanswered harrival => cases harrival
  | rejected harrival => cases harrival
  | taken harrival => cases harrival
  | answered harrival => cases harrival

/-- A reset without response is armed, and nothing else happens. -/
theorem Turn.suppressed {r : Request} (h : Turn (some r) givesUp t p es t' p') {type : ResetType}
    (haccepted : r.accepted = some type) (hsuppressed : r.suppressed = true) :
    es = [.request r []] ∧ Outcome.none.Allows t t' ∧ p' = some type := by
  have hempty : ∀ {response : Bytes}, r.Genuine response → response = [] := by
    intro response hgenuine
    rw [hgenuine type haccepted, if_pos hsuppressed]
  have harms : r.arms p = some type := by simp [Request.arms, haccepted]
  cases h with
  | quiet harrival => cases harrival
  | aborted harrival => cases harrival
  | confirmed harrival => cases harrival
  | unanswered harrival _ _ htx =>
      cases harrival
      exact ⟨rfl, htx, harms⟩
  | rejected harrival _ hgenuine hresponse =>
      cases harrival
      exact absurd (hempty hgenuine) hresponse
  | taken harrival _ hgenuine hresponse =>
      cases harrival
      exact absurd (hempty hgenuine) hresponse
  | answered harrival _ hgenuine hresponse =>
      cases harrival
      exact absurd (hempty hgenuine) hresponse

end Turns

/-- On an idle link there is nothing to give up. -/
theorem kept_of_idle {s : State} (hready : s.Ready) (hidle : s.link.tx.txState = .idle)
    {is : List Stimulus} (hunasked : Unasked s is) : Kept s is := by
  induction is generalizing s with
  | nil => trivial
  | cons i is ih =>
      obtain ⟨harrival, hrest⟩ := hunasked
      obtain ⟨hready', hturn⟩ := turn_step hready i
      rw [harrival] at hturn
      obtain ⟨hkept, -, htx, -⟩ | ⟨-, -, hbusy, -⟩ | ⟨-, -, hbusy, -⟩ := hturn.unasked
      · exact ⟨hkept, ih hready' (htx.1.mpr hidle) hrest⟩
      · exact absurd hidle hbusy
      · exact absurd hidle hbusy

/-- Until the link is idle again, a pending reset is run exactly if the transmission in progress is
not given up. -/
theorem reset_mem_iff {s : State} (hready : s.Ready) {type : ResetType}
    (hpending : s.pending = some type) {is : List Stimulus} (hunasked : Unasked s is)
    (hidle : (run step s is).1.link.tx.txState = .idle) :
    .reset type ∈ transcript (run step s is).2 ↔ s.link.tx.txState ≠ .idle ∧ Kept s is := by
  induction is generalizing s with
  | nil =>
      apply iff_of_false (by simp [transcript])
      exact fun h => h.1 hidle
  | cons i is ih =>
      obtain ⟨harrival, hrest⟩ := hunasked
      obtain ⟨hready', hturn⟩ := turn_step hready i
      have hkept : Kept s (i :: is) ↔ ¬ s.GivesUp i ∧ Kept (step s i).1 is := Iff.rfl
      rw [run_cons, transcript_append, List.mem_append, hkept]
      rw [run_cons] at hidle
      rw [harrival] at hturn
      obtain ⟨hnot, hes, htx, hp⟩ | ⟨hgivenUp, ⟨result, hes⟩, -, hidle', hp⟩ |
        ⟨hnot, hes, hbusy, hidle'⟩ := hturn.unasked
      · rw [hes, ih hready' (hp.trans hpending) hrest hidle, ne_eq, ne_eq, htx.1]
        simp [hnot]
      · rw [hes, ih hready' (hp.trans hpending) hrest hidle]
        simp [hgivenUp, hidle']
      · rw [hes, hpending]
        exact iff_of_true (.inl (by simp [resets]))
          ⟨hbusy, hnot, kept_of_idle hready' hidle' hrest⟩

/-- **When an accepted reset without response is executed.** After any run, let a call bring a reset
request that is accepted and asks for no response, and let calls follow that bring no request and
end with the link idle, such as those up to a call of `DiagApp_MainFunction` that returns so. The
reset callback is run for it exactly if the link was still sending another response when the request
came, and that response is not given up. -/
theorem suppressed_reset_executed_iff (time : Nat) (past : List Stimulus) (i : Stimulus)
    (is : List Stimulus) {r : Request} {type : ResetType}
    (harrival : (run step (boot time) past).1.arrival i = some r) (haccepted : r.accepted = some type)
    (hsuppressed : r.suppressed = true)
    (hunasked : Unasked (step (run step (boot time) past).1 i).1 is)
    (hidle : (run step (run step (boot time) past).1 (i :: is)).1.link.tx.txState = .idle) :
    .reset type ∈ transcript (run step (run step (boot time) past).1 (i :: is)).2 ↔
      (run step (boot time) past).1.link.tx.txState ≠ .idle ∧
        Kept (step (run step (boot time) past).1 i).1 is := by
  have hready := ready_run time past
  generalize (run step (boot time) past).1 = s at *
  obtain ⟨hready', hturn⟩ := turn_step hready i
  rw [run_cons, transcript_append, List.mem_append]
  rw [run_cons] at hidle
  rw [harrival] at hturn
  obtain ⟨hes, htx, hp⟩ := hturn.suppressed haccepted hsuppressed
  rw [hes, reset_mem_iff hready' hp hunasked hidle, ne_eq, ne_eq, htx.1]
  simp

/-- While the response to a TesterPresent waits for the driver, a soft reset without response is
accepted, and it is executed when that response is out. -/
theorem suppressed_reset_executed_behindTesterPresent :
    .reset .soft ∈ transcript (run step (run step (boot 0)
        [callAt 0 true (fromTester [0x02, 0x10, 0x03]),
          callAt 0 false (fromTester [0x02, 0x3E, 0x00])]).1
        [callAt 0 true (fromTester [0x02, 0x11, 0x83]), callAt 1 true .mainFunction]).2 ↔
      (run step (boot 0)
        [callAt 0 true (fromTester [0x02, 0x10, 0x03]),
          callAt 0 false (fromTester [0x02, 0x3E, 0x00])]).1.link.tx.txState ≠ .idle ∧
      Kept (step (run step (boot 0)
        [callAt 0 true (fromTester [0x02, 0x10, 0x03]),
          callAt 0 false (fromTester [0x02, 0x3E, 0x00])]).1
        (callAt 0 true (fromTester [0x02, 0x11, 0x83]))).1 [callAt 1 true .mainFunction] :=
  suppressed_reset_executed_iff 0 _ _ _ (r := ⟨.extended, [0x11, 0x83], false⟩)
    (by decide +kernel) (by decide) (by decide) ⟨by decide +kernel, trivial⟩ (by decide +kernel)

/-- On an idle link a hard reset without response is accepted, `DiagApp_MainFunction` returns with
the link idle, and nothing has been reset. -/
theorem not_executed_hardReset :
    let s := (run step (boot 0) [callAt 0 true (fromTester [0x02, 0x10, 0x03])]).1
    let i := callAt 0 true (fromTester [0x02, 0x11, 0x81])
    let r : Request := ⟨.extended, [0x11, 0x81], false⟩
    s.arrival i = some r ∧ r.accepted = some .hard ∧ r.suppressed = true ∧
      (step s i).1.arrival (callAt 1 true .mainFunction) = none ∧
      (run step s [i, callAt 1 true .mainFunction]).1.link.tx.txState = .idle ∧
      .reset .hard ∉ transcript (run step s [i, callAt 1 true .mainFunction]).2 := by
  decide +kernel

end MiniEcu.Diag
