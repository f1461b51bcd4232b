import MiniEcu.Tester.Dtcs
import MiniEcu.Tester.Pending

/-!
# Late responses

A response can arrive after the client has stopped waiting for it. The transport keeps it, and the
client never empties the transport before a request, so the next call takes it for its own. From then
on there is always an older response in front, and no call ever gets its own again.
-/

namespace MiniEcu.Tester

open Uds (Session ResetType processRequest)

/-! ### A transport that keeps late messages -/

/-- What the ECU does with a request: it may ask for more time, and it responds once. The times say
which messages arrive only after the receive that waits for them. -/
structure Reply where
  waits : List Bool := []
  response : Bytes
  late : Bool
  final : ∀ sid, response ≠ [0x7F, sid, 0x78]

/-- A message on its way to the client. -/
structure Message where
  bytes : Bytes
  request : Nat
  late : Bool
deriving DecidableEq

def Message.arrive (m : Message) : Message := { m with late := false }

def pendings (n : Nat) (sid : UInt8) (waits : List Bool) : List Message :=
  waits.map fun late => { bytes := [0x7F, sid, 0x78], request := n, late := late }

def Reply.last (r : Reply) (n : Nat) : Message :=
  { bytes := r.response, request := n, late := r.late }

/-- The messages of the reply to the `n`-th request. -/
def Reply.messages (r : Reply) (n : Nat) (sid : UInt8) : List Message :=
  pendings n sid r.waits ++ [r.last n]

structure Line where
  queue : List Message := []
  requests : Nat := 0
  /-- the last message that the client has taken since its last request -/
  taken : Option Message := none

/-- Messages are delivered in the order they were sent, none is lost. A message that a receive has
waited for in vain is there for the next one. -/
def line (replies : Nat → Option Reply) : Transport Line where
  send req _ s :=
    let queue := s.queue.map Message.arrive
    match replies s.requests with
    | none => (false, { queue := queue, requests := s.requests + 1 })
    | some r =>
        (true, {
          queue := queue ++ r.messages s.requests (req.getD 0 0)
          requests := s.requests + 1 })
  receive _ s :=
    match s.queue with
    | [] => (none, s)
    | m :: rest =>
        if m.late then (none, { s with queue := s.queue.map Message.arrive })
        else (some m.bytes, { s with queue := rest, taken := some m })

/-! ### Sequences of calls -/

inductive Call
  | readDid (id : UInt16)
  | readDids (specs : List DidSpec)
  | readDtcs (mask : UInt8)
  | readDtcCount (mask : UInt8)
  | startSession (session : Session)
  | testerPresent (functional : Bool)
  | ecuReset (type : ResetType)
  | clearAllDtcs

section Calls

variable {τ : Type} (t : Transport τ) (timing : ClientTiming)

/-- Whether a call succeeds, and what it leaves behind. -/
def outcomeOf {α : Type} (result : Except Error α × τ) : Bool × τ := (result.1.isOk, result.2)

def perform (s : τ) : Call → Bool × τ
  | .readDid id => outcomeOf (readDid t timing id s)
  | .readDids specs => outcomeOf (readDids t timing specs s)
  | .readDtcs mask => outcomeOf (readDtcs t timing mask s)
  | .readDtcCount mask => outcomeOf (readDtcCount t timing mask s)
  | .startSession session => outcomeOf (startSession t timing session s)
  | .testerPresent functional => outcomeOf (testerPresent t timing functional s)
  | .ecuReset type => outcomeOf (ecuReset t timing type s)
  | .clearAllDtcs => outcomeOf (clearAllDtcs t timing s)

/-- A call is one request, and succeeds only if the request does. -/
theorem perform_request (s : τ) (call : Call) :
    ∃ req functional, req ≠ [] ∧
      (perform t timing s call).2 = (request t timing req functional s).2 ∧
      ((perform t timing s call).1 = true → ∃ r, (request t timing req functional s).1 = .ok r) := by
  have hexchange : ∀ {α : Type} {req : Bytes} {functional : Bool} {decode : Bytes → Except Error α},
      req ≠ [] → ∃ req' functional', req' ≠ [] ∧
        (outcomeOf (exchange t timing req functional decode s)).2 =
          (request t timing req' functional' s).2 ∧
        ((outcomeOf (exchange t timing req functional decode s)).1 = true →
          ∃ r, (request t timing req' functional' s).1 = .ok r) := by
    intro α req functional decode hreq
    refine ⟨req, functional, hreq, exchange_state, fun hok => ?_⟩
    rw [outcomeOf] at hok
    cases hresult : (request t timing req functional s).1 with
    | ok r => exact ⟨r, rfl⟩
    | error e =>
        rw [exchange_error hresult] at hok
        cases hok
  cases call with
  | readDid id => exact hexchange (List.cons_ne_nil _ _)
  | readDids specs => exact hexchange (List.cons_ne_nil _ _)
  | readDtcs mask => exact hexchange (List.cons_ne_nil _ _)
  | readDtcCount mask => exact hexchange (List.cons_ne_nil _ _)
  | startSession session => exact hexchange (List.cons_ne_nil _ _)
  | testerPresent functional => exact hexchange (List.cons_ne_nil _ _)
  | ecuReset type => exact hexchange (List.cons_ne_nil _ _)
  | clearAllDtcs => exact hexchange (List.cons_ne_nil _ _)

end Calls

/-- A client with its transport, the calls it makes one after the other and the replies to them. -/
structure Run where
  timing : ClientTiming
  calls : Nat → Call
  /-- `none` where the transport refuses the request -/
  replies : Nat → Option Reply

namespace Run

variable (run : Run)

/-- What the first calls leave behind. -/
def before : Nat → Line
  | 0 => {}
  | n + 1 => (perform (line run.replies) run.timing (before n) (run.calls n)).2

def succeeds (n : Nat) : Bool :=
  (perform (line run.replies) run.timing (run.before n) (run.calls n)).1

/-- The `n`-th call has taken the response to its own request last. -/
def GetsOwn (n : Nat) : Prop :=
  ∃ m r, (run.before (n + 1)).taken = some m ∧ m.request = n ∧ run.replies n = some r ∧
    m.bytes = r.response

/-- No call succeeds on the response to another one. -/
def NeverMistaken : Prop := ∀ n, run.succeeds n = true → run.GetsOwn n

end Run

/-- The response arrives while the client still waits for it. -/
def Reply.OnTime (timing : ClientTiming) (r : Reply) : Prop :=
  (∀ late ∈ r.waits, late = false) ∧ r.late = false ∧ r.waits.length ≤ timing.maxPending

/-- After every late response, some later call gets its own response. -/
def Run.Resynchronises (run : Run) : Prop :=
  ∀ k r, run.replies k = some r → ¬ r.OnTime run.timing → ∃ n > k, run.GetsOwn n

/-! ### One receive -/

section Receive

variable (replies : Nat → Option Reply) {s : Line} {m : Message} {rest : List Message}

theorem receive_arrived (hqueue : s.queue = m :: rest) (hlate : m.late = false) (timeout : Nat) :
    (line replies).receive timeout s = (some m.bytes, { s with queue := rest, taken := some m }) := by
  simp [line, hqueue, hlate]

theorem receive_late (hqueue : s.queue = m :: rest) (hlate : m.late = true) (timeout : Nat) :
    (line replies).receive timeout s = (none, { s with queue := s.queue.map Message.arrive }) := by
  simp [line, hqueue, hlate]

end Receive

/-- Receiving does not count requests. -/
theorem requests_await {replies : Nat → Option Reply} (timing : ClientTiming) (sid : UInt8)
    (turns timeout : Nat) (s : Line) :
    (awaitResponse (line replies) timing sid turns timeout s).2.requests = s.requests := by
  have hreceive : ∀ (timeout : Nat) (s : Line),
      ((line replies).receive timeout s).2.requests = s.requests := by
    intro timeout s
    simp only [line]
    split
    · rfl
    · split <;> rfl
  induction turns generalizing timeout s with
  | zero => rfl
  | succ turns ih =>
      have hone := hreceive timeout s
      rw [awaitResponse]
      generalize (line replies).receive timeout s = received at hone ⊢
      obtain ⟨item, s'⟩ := received
      cases item with
      | none => exact hone
      | some r =>
          dsimp only at hone ⊢
          rw [← hone]
          split
          · split
            · rfl
            · exact ih timing.p2Star s'
          · split <;> rfl

/-! ### Behind an older response -/

/-- Messages that do not ask for more time. -/
def Message.Final (m : Message) : Prop := ∀ sid, m.bytes ≠ [0x7F, sid, 0x78]

/-- The transport holds messages of earlier requests, the last of them a response. -/
def Stale (n : Nat) (queue : List Message) : Prop :=
  ∃ ms m, queue = ms ++ [m] ∧ m.Final ∧ ∀ x ∈ queue, x.request < n

theorem final_last (r : Reply) (n : Nat) : (r.last n).Final := r.final

theorem Stale.arrive {n : Nat} {queue : List Message} (h : Stale n queue) :
    Stale n (queue.map Message.arrive) := by
  obtain ⟨ms, m, hqueue, hfinal, hrequests⟩ := h
  refine ⟨ms.map Message.arrive, m.arrive, by rw [hqueue, List.map_append]; rfl, hfinal, ?_⟩
  intro x hx
  obtain ⟨y, hy, rfl⟩ := List.mem_map.mp hx
  exact hrequests y hy

theorem stale_pendings {n : Nat} {m : Message} (hrequest : m.request = n) (hfinal : m.Final)
    (sid : UInt8) (waits : List Bool) : Stale (n + 1) (pendings n sid waits ++ [m]) := by
  refine ⟨pendings n sid waits, m, rfl, hfinal, fun x hx => ?_⟩
  rcases List.mem_append.mp hx with hx | hx
  · obtain ⟨late, -, rfl⟩ := List.mem_map.mp hx
    exact Nat.lt_succ_self n
  · obtain rfl := List.mem_singleton.mp hx
    omega

section Await

variable {replies : Nat → Option Reply} {timing : ClientTiming} {sid : UInt8} {s : Line}
  {m : Message}

variable (replies timing sid) in
/-- A client that waits behind an older response does not get past it. -/
theorem await_stale {ms own : List Message} (hqueue : s.queue = ms ++ m :: own)
    (harrived : ∀ x ∈ ms ++ [m], x.late = false) (hfinal : m.Final) (turns timeout : Nat) :
    let s' := (awaitResponse (line replies) timing sid turns timeout s).2
    (∃ left, s'.queue = left ++ own ∧ ∀ x ∈ left, x ∈ ms ++ [m]) ∧
      (s'.taken = s.taken ∨ ∃ x ∈ ms ++ [m], s'.taken = some x) := by
  induction turns generalizing ms s timeout with
  | zero => exact ⟨⟨ms ++ [m], by simp [awaitResponse, hqueue], fun x hx => hx⟩, .inl rfl⟩
  | succ turns ih =>
      cases ms with
      | nil =>
          obtain ⟨result, -, hresult⟩ := await_final timing
            (receive_arrived replies hqueue (harrived m (by simp)) timeout)
            (fun hpending => hfinal sid (Option.some.inj hpending)) turns
          rw [hresult]
          exact ⟨⟨[], rfl, by simp⟩, .inr ⟨m, by simp, rfl⟩⟩
      | cons x ms =>
          have hreceive := receive_arrived replies hqueue (harrived x (by simp)) timeout
          by_cases hpending : IsPending sid (some x.bytes)
          · rw [await_pending hreceive hpending]
            obtain ⟨⟨left, hleft, hmem⟩, htaken⟩ := ih
              (s := { s with queue := ms ++ m :: own, taken := some x }) rfl
              (fun y hy => harrived y (List.mem_cons_of_mem x hy)) timing.p2Star
            refine ⟨⟨left, hleft, fun y hy => List.mem_cons_of_mem x (hmem y hy)⟩, .inr ?_⟩
            rcases htaken with htaken | ⟨y, hy, htaken⟩
            · exact ⟨x, by simp, htaken⟩
            · exact ⟨y, List.mem_cons_of_mem x hy, htaken⟩
          · obtain ⟨result, -, hresult⟩ := await_final timing hreceive hpending turns
            rw [hresult]
            exact ⟨⟨ms ++ [m], by simp, fun y hy => List.mem_cons_of_mem x hy⟩, .inr ⟨x, by simp, rfl⟩⟩

/-! ### At the front -/

variable {n : Nat}

theorem pendings_cons (n : Nat) (sid : UInt8) (late : Bool) (waits : List Bool) :
    pendings n sid (late :: waits) =
      { bytes := [0x7F, sid, 0x78], request := n, late := late } :: pendings n sid waits := rfl

/-- A client that is in step gets a response that is on time. -/
theorem await_onTime {waits : List Bool} (hqueue : s.queue = pendings n sid waits ++ [m])
    (hwaits : ∀ late ∈ waits, late = false) (hlate : m.late = false) (hfinal : m.Final)
    {turns : Nat} (hturns : waits.length < turns) (timeout : Nat) :
    (awaitResponse (line replies) timing sid turns timeout s).2 =
      { s with queue := [], taken := some m } := by
  obtain ⟨turns, rfl⟩ : ∃ k, turns = k + 1 := ⟨turns - 1, by omega⟩
  induction waits generalizing turns s timeout with
  | nil =>
      obtain ⟨result, -, hresult⟩ := await_final timing
        (receive_arrived replies hqueue hlate timeout)
        (fun hpending => hfinal sid (Option.some.inj hpending)) turns
      rw [hresult]
  | cons late waits ih =>
      rw [List.length_cons] at hturns
      obtain ⟨turns, rfl⟩ : ∃ k, turns = k + 1 := ⟨turns - 1, by omega⟩
      rw [pendings_cons] at hqueue
      rw [await_pending (receive_arrived replies hqueue (hwaits late (by simp)) timeout) rfl,
        ih rfl (fun late hlate => hwaits late (List.mem_cons_of_mem _ hlate)) timing.p2Star turns
          (by omega)]

/-- A response that is late stays in the transport. -/
theorem await_late {waits : List Bool} (hqueue : s.queue = pendings n sid waits ++ [m])
    (hrequest : m.request = n) (hfinal : m.Final) {turns : Nat}
    (hlate : ¬ ((∀ late ∈ waits, late = false) ∧ m.late = false ∧ waits.length < turns))
    (timeout : Nat) :
    Stale (n + 1) (awaitResponse (line replies) timing sid turns timeout s).2.queue := by
  have hstale := stale_pendings hrequest hfinal sid waits
  rw [← hqueue] at hstale
  induction turns generalizing waits s timeout with
  | zero => exact hstale
  | succ turns ih =>
      have hmissed : ∀ {x : Message} {rest : List Message}, s.queue = x :: rest → x.late = true →
          Stale (n + 1) (awaitResponse (line replies) timing sid (turns + 1) timeout s).2.queue := by
        intro x rest hfront hx
        rw [awaitResponse, receive_late replies hfront hx]
        exact hstale.arrive
      cases waits with
      | nil =>
          apply hmissed hqueue
          by_contra harrived
          exact hlate ⟨by simp, by simpa using harrived, Nat.succ_pos _⟩
      | cons late waits =>
          rw [pendings_cons] at hqueue
          cases late with
          | true => exact hmissed hqueue rfl
          | false =>
              rw [await_pending (receive_arrived replies hqueue rfl timeout) rfl]
              refine ih rfl ?_ timing.p2Star (stale_pendings hrequest hfinal sid waits)
              rintro ⟨hwaits, harrived, hturns⟩
              refine hlate ⟨?_, harrived, Nat.succ_lt_succ hturns⟩
              intro late hmem
              rcases List.mem_cons.mp hmem with rfl | hmem
              · rfl
              · exact hwaits late hmem

end Await

/-! ### One request -/

section Request

variable {replies : Nat → Option Reply} {timing : ClientTiming} {s : Line} {r : Reply} {req : Bytes}
  (hreq : req ≠ []) (functional : Bool)
include hreq

theorem request_refused (hreplies : replies s.requests = none) :
    request (line replies) timing req functional s =
      (.error .sendFailed,
        { queue := s.queue.map Message.arrive, requests := s.requests + 1 }) := by
  simp [request, hreq, line, hreplies]

theorem request_sent (hreplies : replies s.requests = some r) :
    request (line replies) timing req functional s =
      awaitResponse (line replies) timing (req.getD 0 0) (timing.maxPending + 1).toNat timing.p2 {
        queue := s.queue.map Message.arrive ++ r.messages s.requests (req.getD 0 0)
        requests := s.requests + 1 } := by
  have hsend : (line replies).send req functional s = (true, {
      queue := s.queue.map Message.arrive ++ r.messages s.requests (req.getD 0 0)
      requests := s.requests + 1 }) := by
    simp [line, hreplies]
  rw [request, if_neg hreq, hsend]

/-- In step, a response that is on time is the one that is taken. -/
theorem request_onTime (hreplies : replies s.requests = some r) (hempty : s.queue = [])
    (honTime : r.OnTime timing) :
    (request (line replies) timing req functional s).2 = {
      queue := []
      requests := s.requests + 1
      taken := some (r.last s.requests) } := by
  obtain ⟨hwaits, hlate, hturns⟩ := honTime
  rw [request_sent hreq functional hreplies, hempty, List.map_nil, List.nil_append]
  exact await_onTime (m := r.last s.requests) rfl hwaits hlate (final_last r _) (by omega) timing.p2

theorem request_late (hreplies : replies s.requests = some r) (hempty : s.queue = [])
    (hlate : ¬ r.OnTime timing) :
    Stale (s.requests + 1) (request (line replies) timing req functional s).2.queue := by
  rw [request_sent hreq functional hreplies, hempty, List.map_nil, List.nil_append]
  refine await_late (m := r.last s.requests) rfl rfl (final_last r _) ?_ timing.p2
  rintro ⟨hwaits, harrived, hturns⟩
  exact hlate ⟨hwaits, harrived, by omega⟩

variable (timing) in
/-- Out of step, the client takes messages of earlier requests only, and stays out of step. -/
theorem request_stale (hreplies : replies s.requests = some r) (hstale : Stale s.requests s.queue) :
    let s' := (request (line replies) timing req functional s).2
    Stale (s.requests + 1) s'.queue ∧ ∀ x, s'.taken = some x → x.request < s.requests := by
  obtain ⟨ms, m, hqueue, hfinal, hrequests⟩ := hstale.arrive
  have harrived : ∀ x ∈ ms ++ [m], x.late = false := by
    intro x hx
    rw [← hqueue] at hx
    obtain ⟨y, -, rfl⟩ := List.mem_map.mp hx
    rfl
  rw [hqueue] at hrequests
  rw [request_sent hreq functional hreplies, hqueue, List.append_assoc]
  obtain ⟨⟨left, hleft, hmem⟩, htaken⟩ := await_stale replies timing (req.getD 0 0) (s := {
      queue := ms ++ m :: r.messages s.requests (req.getD 0 0)
      requests := s.requests + 1 }) rfl harrived hfinal (timing.maxPending + 1).toNat timing.p2
  constructor
  · obtain ⟨ps, own, hown, hownFinal, hlast⟩ :=
      stale_pendings (m := r.last s.requests) rfl (final_last r _) (req.getD 0 0) r.waits
    refine ⟨left ++ ps, own, ?_, hownFinal, ?_⟩
    · rw [List.append_assoc, ← hown]
      exact hleft
    · intro x hx
      rcases List.mem_append.mp (hleft ▸ hx) with hx | hx
      · exact Nat.lt_succ_of_lt (hrequests x (hmem x hx))
      · exact hlast x hx
  · intro x hx
    rcases htaken with htaken | ⟨y, hy, htaken⟩
    · cases htaken.symm.trans hx
    · obtain rfl := Option.some.inj (htaken.symm.trans hx)
      exact hrequests y hy

end Request

/-! ### Whole runs -/

namespace Run

variable {run : Run}

theorem requests_before (run : Run) (n : Nat) : (run.before n).requests = n := by
  induction n with
  | zero => rfl
  | succ n ih =>
      obtain ⟨req, functional, hreq, hnext, -⟩ :=
        perform_request (line run.replies) run.timing (run.before n) (run.calls n)
      rw [before, hnext]
      cases hreplies : run.replies (run.before n).requests with
      | none => rw [request_refused hreq functional hreplies, ih]
      | some r => rw [request_sent hreq functional hreplies, requests_await, ih]

theorem next (run : Run) (n : Nat) :
    ∃ req functional, req ≠ [] ∧
      run.before (n + 1) =
        (request (line run.replies) run.timing req functional (run.before n)).2 ∧
      (run.succeeds n = true →
        ∃ r, (request (line run.replies) run.timing req functional (run.before n)).1 = .ok r) :=
  perform_request (line run.replies) run.timing (run.before n) (run.calls n)

variable {n : Nat} {r : Reply}

theorem next_refused (hreplies : run.replies n = none) :
    run.succeeds n = false ∧
      (run.before (n + 1)).queue = (run.before n).queue.map Message.arrive ∧
      (run.before (n + 1)).taken = none := by
  obtain ⟨req, functional, hreq, hnext, hsucceeds⟩ := run.next n
  rw [← requests_before run n] at hreplies
  rw [hnext]
  rw [request_refused hreq functional hreplies] at hsucceeds ⊢
  refine ⟨Bool.eq_false_iff.mpr fun hok => ?_, rfl, rfl⟩
  obtain ⟨r, hr⟩ := hsucceeds hok
  cases hr

theorem next_onTime (hreplies : run.replies n = some r) (hempty : (run.before n).queue = [])
    (honTime : r.OnTime run.timing) :
    (run.before (n + 1)).queue = [] ∧ (run.before (n + 1)).taken = some (r.last n) := by
  obtain ⟨req, functional, hreq, hnext, -⟩ := run.next n
  rw [← requests_before run n] at hreplies
  rw [hnext, request_onTime hreq functional hreplies hempty honTime, requests_before]
  exact ⟨rfl, rfl⟩

theorem next_late (hreplies : run.replies n = some r) (hempty : (run.before n).queue = [])
    (hlate : ¬ r.OnTime run.timing) : Stale (n + 1) (run.before (n + 1)).queue := by
  obtain ⟨req, functional, hreq, hnext, -⟩ := run.next n
  have hrequests := requests_before run n
  rw [← hrequests] at hreplies
  have hstale := request_late hreq functional hreplies hempty hlate
  rwa [hrequests, ← hnext] at hstale

theorem next_stale (hstale : Stale n (run.before n).queue) :
    Stale (n + 1) (run.before (n + 1)).queue ∧
      ∀ x, (run.before (n + 1)).taken = some x → x.request < n := by
  cases hreplies : run.replies n with
  | none =>
      obtain ⟨-, hqueue, htaken⟩ := next_refused hreplies
      obtain ⟨ms, m, hms, hfinal, hold⟩ := hstale.arrive
      rw [hqueue, htaken]
      exact ⟨⟨ms, m, hms, hfinal, fun x hx => Nat.lt_succ_of_lt (hold x hx)⟩, by simp⟩
  | some r =>
      obtain ⟨req, functional, hreq, hnext, -⟩ := run.next n
      have hrequests := requests_before run n
      rw [← hrequests] at hreplies
      have hstep := request_stale run.timing hreq functional hreplies
        (by rw [hrequests]; exact hstale)
      rwa [hrequests, ← hnext] at hstep

/-- As long as every response is on time, the client is in step. -/
theorem inStep (honTime : ∀ k < n, ∀ r, run.replies k = some r → r.OnTime run.timing) :
    (run.before n).queue = [] := by
  induction n with
  | zero => rfl
  | succ n ih =>
      have hempty := ih fun k hk => honTime k (Nat.lt_succ_of_lt hk)
      cases hreplies : run.replies n with
      | none =>
          rw [(next_refused hreplies).2.1, hempty]
          rfl
      | some r => exact (next_onTime hreplies hempty (honTime n (Nat.lt_succ_self n) r hreplies)).1

/-- After a late response, the client is out of step for ever. -/
theorem outOfStep {k : Nat} (hreplies : run.replies k = some r) (hlate : ¬ r.OnTime run.timing)
    (hempty : (run.before k).queue = []) (hn : k < n) : Stale n (run.before n).queue := by
  induction n with
  | zero => exact absurd hn (Nat.not_lt_zero k)
  | succ n ih =>
      rcases Nat.lt_or_eq_of_le (Nat.le_of_lt_succ hn) with hn | rfl
      · exact (next_stale (ih hn)).1
      · exact next_late hreplies hempty hlate

end Run

/-- **Late responses.** Whatever the calls, the replies and the timing, no call succeeds on the
response to another one and the client resynchronises after every late response, exactly if no
response is late. -/
theorem ownResponses_iff_onTime (run : Run) :
    run.NeverMistaken ∧ run.Resynchronises ↔
      ∀ n r, run.replies n = some r → r.OnTime run.timing := by
  constructor
  · rintro ⟨-, hresync⟩
    by_contra hlate
    push Not at hlate
    classical
    -- the first late response
    obtain ⟨r, hreplies, hr⟩ := Nat.find_spec hlate
    have hempty : (run.before (Nat.find hlate)).queue = [] := Run.inStep fun k hk r hk' => by
      by_contra hnot
      exact Nat.find_min hlate hk ⟨r, hk', hnot⟩
    obtain ⟨n, hn, m, _, htaken, hown, -, -⟩ := hresync _ r hreplies hr
    have hold := (Run.next_stale (Run.outOfStep hreplies hr hempty hn)).2 m htaken
    omega
  · intro honTime
    refine ⟨fun n hsucceeds => ?_, fun k r hreplies hlate => absurd (honTime k r hreplies) hlate⟩
    have hempty := Run.inStep (n := n) fun k _ => honTime k
    cases hreplies : run.replies n with
    | none => cases (Run.next_refused hreplies).1.symm.trans hsucceeds
    | some r =>
        exact ⟨_, r, (Run.next_onTime hreplies hempty (honTime n r hreplies)).2, rfl, hreplies, rfl⟩

/-! ### The replies of the ECU -/

section Server

variable {dids : List Uds.Did} {time : Nat} {req : Bytes} {functional : Bool} {resp : Bytes}
  {server : Uds.Server} {dtc : Dtc.Manager}

theorem head_of_positive {response : Bytes}
    (h : Uds.Positive dids dtc server.session req response) : response.head? ≠ some 0x7F := by
  have hunless : ∀ {x : UInt8} {bs : Bytes}, bs.head? ≠ some 0x7F →
      (Uds.unlessSuppressed x bs).head? ≠ some 0x7F := by
    intro x bs hbs
    rw [Uds.unlessSuppressed]
    split
    · simp
    · exact hbs
  cases h with
  | sessionControl x s hx => exact hunless (by simp)
  | ecuReset x type hx hsession => exact hunless (by simp)
  | clearDtc => simp
  | countDtc x mask hx => simp
  | listDtc x mask hx => simp
  | readDid ids hknown => simp
  | testerPresent x hx => exact hunless (by simp)

/-- The server never asks for more time. -/
theorem response_final (htable : dtc.table.length ≤ Dtc.maxEntries) (hmin : 6 ≤ resp.length)
    (hnarrow : resp.length < 2 ^ 16) (sid : UInt8) :
    (processRequest dids time req functional resp resp.length server dtc).response ≠
      [0x7F, sid, 0x78] := by
  have hnegative : ∀ nrc, Uds.negativeResponse req nrc ≠ [0x7F, sid, 0x78] := by
    intro nrc h
    cases nrc <;> simp [Uds.negativeResponse, Uds.Nrc.byte] at h
  by_cases hpos : req.length = 0
  · obtain rfl := List.length_eq_zero_iff.mp hpos
    show resp.take 0 ≠ _
    simp
  cases hrefusal : Uds.refusal dids server.session req with
  | none =>
      obtain ⟨response, hpositive⟩ := Uds.positive_of_refusal_eq_none hrefusal
      rw [Uds.response_of_positive hmin hnarrow htable hpositive]
      rcases Uds.cut_cases req response resp.length with hwhole | htooLong
      · rw [hwhole]
        intro h
        exact head_of_positive hpositive (by rw [h]; rfl)
      · rw [htooLong]
        exact hnegative .responseTooLong
  | some nrc =>
      rw [Uds.response_of_refused hpos (by omega) hnarrow (Uds.service_of_refusal hrefusal),
        Uds.refusalResponse]
      split
      · simp
      · exact hnegative nrc

end Server

/-- The reply of the simulated ECU to a request. -/
def ecuReply (e : SimulatedEcu) (htable : e.dtc.table.length ≤ Dtc.maxEntries) (req : Bytes)
    (functional late : Bool) : Reply where
  response := (e.outcome req functional).response
  late := late
  final := by
    obtain ⟨resp, hresp⟩ : ∃ resp : Bytes, resp = List.replicate kMaxResponseLen 0 := ⟨_, rfl⟩
    have hsize : resp.length = kMaxResponseLen := by rw [hresp, List.length_replicate]
    rw [SimulatedEcu.outcome, ← hresp, ← hsize]
    exact response_final htable (by rw [hsize]; decide) (by rw [hsize]; decide)

/-- The tester reads the trouble codes again and again. The ECU has lost its sensor at the first
request, and is late with its response; then its memory is cleared. -/
def clearedAfterLate : Run where
  timing := {}
  calls _ := .readDtcs 0x09
  replies
    | 0 =>
        some (ecuReply {
          server := Uds.init 0
          dtc := (Dtc.Manager.resetAll Diag.dtcTable).reportResult 0 true
          signals := { speedX10 := 0, faultMask := 1 }
          nowMs := 20 } (by decide) [0x19, 0x02, 0x09] false true)
    | _ + 1 =>
        some (ecuReply {
          server := Uds.init 0
          dtc := Dtc.Manager.resetAll Diag.dtcTable
          signals := { speedX10 := 0, faultMask := 0 }
          nowMs := 5000 } (by decide) [0x19, 0x02, 0x09] false false)

/-- The second read succeeds and shows a code that is no longer there. -/
theorem mistaken_clearedAfterLate :
    (readDtcs (line clearedAfterLate.replies) {} 0x09 (clearedAfterLate.before 1)).1 =
        .ok [{ code := 0xC10087, status := 0x2F }] ∧
      (clearedAfterLate.replies 1).map Reply.response = some [0x59, 0x02, 0x7F] ∧
      ¬ (clearedAfterLate.NeverMistaken ∧ clearedAfterLate.Resynchronises) := by
  refine ⟨by decide +kernel, by decide +kernel, fun ⟨hmistaken, _⟩ => ?_⟩
  obtain ⟨m, r, htaken, hown, -, -⟩ := hmistaken 1 (by decide +kernel)
  have hfirst : (clearedAfterLate.before 2).taken.map Message.request = some 0 := by decide +kernel
  rw [htaken] at hfirst
  have hrequest := Option.some.inj hfirst
  omega

end MiniEcu.Tester
