import Mathlib.Data.Nat.Find
import MiniEcu.Tester.Client

/-!
# Waiting for the final response

An ECU that needs more time says so, as often as it likes. The client goes on waiting, longer from
then on, but not for ever. The first item that is not such a message decides, and nothing after it is
taken from the transport.
-/

namespace MiniEcu.Tester

/-! ### The transport of the tests -/

/-- What has been asked of the transport. -/
@[ext] structure Script where
  sent : List (Bytes × Bool) := []
  timeouts : List Nat := []
deriving DecidableEq

/-- `ScriptedTransport`: what it delivers is written down beforehand, a message or a time-out each
time. -/
def scriptedTransport (items : Nat → Option Bytes) (sendOk : Bool) : Transport Script where
  send req functional s := (sendOk, { s with sent := s.sent ++ [(req, functional)] })
  receive timeout s := (items s.timeouts.length, { s with timeouts := s.timeouts ++ [timeout] })

/-! ### The item that decides -/

/-- The ECU asks for more time. -/
def IsPending (sid : UInt8) (item : Option Bytes) : Prop := item = some [0x7F, sid, 0x78]

instance (sid : UInt8) (item : Option Bytes) : Decidable (IsPending sid item) :=
  inferInstanceAs (Decidable (_ = _))

/-- What the client makes of an item. -/
inductive Verdict (sid : UInt8) : Option Bytes → Except Error Bytes → Prop
  | timeout : Verdict sid none (.error .timeout)
  | negative (nrc : UInt8) : Verdict sid (some [0x7F, sid, nrc]) (.error (.negative nrc))
  | positive (r : Bytes) (hnot : ∀ nrc, r ≠ [0x7F, sid, nrc]) (hsid : r.head? = some (sid + 0x40)) :
      Verdict sid (some r) (.ok r)
  | malformed (r : Bytes) (hnot : ∀ nrc, r ≠ [0x7F, sid, nrc])
      (hsid : r.head? ≠ some (sid + 0x40)) : Verdict sid (some r) (.error .malformed)

section Await

variable {τ : Type} {t : Transport τ} {timing : ClientTiming} {sid : UInt8} {item : Option Bytes}
  {timeout : Nat} {s s' : τ}

/-- A message that asks for more time uses up one turn. -/
theorem await_pending (hreceive : t.receive timeout s = (item, s')) (hitem : IsPending sid item)
    (turns : Nat) :
    awaitResponse t timing sid (turns + 1) timeout s =
      awaitResponse t timing sid turns timing.p2Star s' := by
  obtain rfl : item = _ := hitem
  rw [awaitResponse, hreceive]
  exact (if_pos ⟨rfl, rfl, rfl⟩).trans (if_neg (not_not.mpr rfl))

theorem head?_eq_some_iff {r : Bytes} {b : UInt8} : r.head? = some b ↔ r ≠ [] ∧ r.getD 0 0 = b := by
  cases r <;> simp

theorem refusal_iff {r : Bytes} :
    r.length = 3 ∧ r.getD 0 0 = Uds.sidNegativeResponse ∧ r.getD 1 0 = sid ↔
      r = [0x7F, sid, r.getD 2 0] := by
  constructor
  · rintro ⟨hlength, hfirst, hsecond⟩
    match r, hlength with
    | [a, b, nrc], _ =>
        obtain rfl : a = 0x7F := hfirst
        obtain rfl : b = sid := hsecond
        rfl
  · intro hr
    rw [hr]
    exact ⟨rfl, rfl, rfl⟩

variable (timing) in
/-- Any other item ends the wait. -/
theorem await_final (hreceive : t.receive timeout s = (item, s')) (hitem : ¬ IsPending sid item)
    (turns : Nat) :
    ∃ result, Verdict sid item result ∧
      awaitResponse t timing sid (turns + 1) timeout s = (result, s') := by
  rw [awaitResponse, hreceive]
  cases item with
  | none => exact ⟨_, .timeout, rfl⟩
  | some r =>
      dsimp only
      split
      · rename_i hrefusal
        have hr := refusal_iff.mp hrefusal
        have hfinal : r.getD 2 0 ≠ nrcResponsePending := by
          intro hpending
          rw [hpending] at hr
          exact hitem (congrArg some hr)
        rw [if_pos hfinal]
        refine ⟨_, ?_, rfl⟩
        generalize r.getD 2 0 = nrc at hr ⊢
        subst hr
        exact .negative nrc
      rename_i hrefusal
      have hnot : ∀ nrc, r ≠ [0x7F, sid, nrc] := by
        intro nrc hr
        subst hr
        exact hrefusal (refusal_iff.mpr rfl)
      split
      · rename_i hpositive
        exact ⟨_, .positive r hnot (head?_eq_some_iff.mpr hpositive), rfl⟩
      · rename_i hother
        exact ⟨_, .malformed r hnot fun hsid => hother (head?_eq_some_iff.mp hsid), rfl⟩

end Await

/-! ### Scripts -/

section Script

variable {items : Nat → Option Bytes} (sendOk : Bool) (timing : ClientTiming) {sid : UInt8}

theorem receive_script (timeout : Nat) (s : Script) :
    (scriptedTransport items sendOk).receive timeout s =
      (items s.timeouts.length, { s with timeouts := s.timeouts ++ [timeout] }) := rfl

/-- The receives of a client that has met `pending` messages before the one that decides. -/
def timeoutsOf (first pending : Nat) : List Nat := first :: List.replicate pending timing.p2Star

/-- All the messages before the item that decides are received, and that one. -/
theorem await_decided {pending turns : Nat} {s : Script} (hturns : pending < turns)
    (hpending : ∀ i < pending, IsPending sid (items (s.timeouts.length + i)))
    (hfinal : ¬ IsPending sid (items (s.timeouts.length + pending))) (timeout : Nat) :
    ∃ result, Verdict sid (items (s.timeouts.length + pending)) result ∧
      awaitResponse (scriptedTransport items sendOk) timing sid turns timeout s =
        (result, { s with timeouts := s.timeouts ++ timeoutsOf timing timeout pending }) := by
  obtain ⟨turns, rfl⟩ : ∃ n, turns = n + 1 := ⟨turns - 1, by omega⟩
  induction pending generalizing turns timeout s with
  | zero => exact await_final timing (receive_script sendOk timeout s) hfinal turns
  | succ pending ih =>
      obtain ⟨turns, rfl⟩ : ∃ n, turns = n + 1 := ⟨turns - 1, by omega⟩
      have hlen : (s.timeouts ++ [timeout]).length = s.timeouts.length + 1 := List.length_append
      have hshift : ∀ i, s.timeouts.length + 1 + i = s.timeouts.length + (i + 1) := fun i => by omega
      have hrest := ih (s := { s with timeouts := s.timeouts ++ [timeout] })
        (fun i hi => by rw [hlen, hshift]; exact hpending (i + 1) (by omega))
        (by rw [hlen, hshift]; exact hfinal) timing.p2Star turns (by omega)
      rw [await_pending (receive_script sendOk timeout s) (hpending 0 (by omega))]
      rw [hlen, hshift, List.append_assoc] at hrest
      exact hrest

/-- Without an item that decides, the client gives up when its turns are used up. -/
theorem await_givesUp {turns timeout : Nat} {s : Script}
    (hpending : ∀ i ≤ turns, IsPending sid (items (s.timeouts.length + i))) :
    awaitResponse (scriptedTransport items sendOk) timing sid (turns + 1) timeout s =
      (.error .timeout, { s with timeouts := s.timeouts ++ timeoutsOf timing timeout turns }) := by
  rw [await_pending (receive_script sendOk timeout s) (hpending 0 (Nat.zero_le _))]
  induction turns generalizing timeout s with
  | zero => rfl
  | succ turns ih =>
      have hlen : (s.timeouts ++ [timeout]).length = s.timeouts.length + 1 := List.length_append
      have hshift : ∀ i, s.timeouts.length + 1 + i = s.timeouts.length + (i + 1) := fun i => by omega
      have hnext : ∀ i ≤ turns, IsPending sid (items ((s.timeouts ++ [timeout]).length + i)) :=
        fun i hi => by
          rw [hlen, hshift]
          exact hpending (i + 1) (by omega)
      rw [await_pending (receive_script sendOk timing.p2Star _) (hnext 0 (Nat.zero_le _)), ih hnext,
        List.append_assoc]
      rfl

/-! ### Requests over a script -/

section Request

variable (items) {m : Nat} (hm : timing.maxPending = m) (body : Bytes) (functional : Bool)
include hm

theorem request_script :
    request (scriptedTransport items true) timing (sid :: body) functional {} =
      awaitResponse (scriptedTransport items true) timing sid (m + 1) timing.p2
        { sent := [(sid :: body, functional)] } := by
  have hturns : (timing.maxPending + 1).toNat = m + 1 := by omega
  rw [← hturns]
  rfl

theorem request_givesUp (hpending : ∀ i ≤ m, IsPending sid (items i)) :
    request (scriptedTransport items true) timing (sid :: body) functional {} =
      (.error .timeout,
        { sent := [(sid :: body, functional)], timeouts := timeoutsOf timing timing.p2 m }) := by
  rw [request_script items timing hm, await_givesUp true timing fun i hi => by simpa using hpending i hi]
  rfl

theorem request_first {n : Nat} (hle : n ≤ m) (hpending : ∀ i < n, IsPending sid (items i))
    (hfinal : ¬ IsPending sid (items n)) :
    ∃ result, Verdict sid (items n) result ∧
      request (scriptedTransport items true) timing (sid :: body) functional {} =
        (result, { sent := [(sid :: body, functional)], timeouts := timeoutsOf timing timing.p2 n }) := by
  obtain ⟨result, hverdict, hresult⟩ := await_decided true timing
    (s := { sent := [(sid :: body, functional)] }) (Nat.lt_succ_of_le hle)
    (fun i hi => by simpa using hpending i hi) (by simpa using hfinal) timing.p2
  rw [List.length_nil, Nat.zero_add] at hverdict
  refine ⟨result, hverdict, ?_⟩
  rw [request_script items timing hm, hresult]
  rfl

end Request

end Script

/-- **Response pending.** Whatever the transport delivers, the client sends its request once. If that
fails it receives nothing. Otherwise the first item that does not ask for more time decides, unless
there are more than `maxPending` before it, which is a time-out. The client takes no item after that
one, and waits P2 for the first item and P2* for the others. -/
theorem request_decided (items : Nat → Option Bytes) (sendOk : Bool) (timing : ClientTiming)
    (htiming : 0 ≤ timing.maxPending) (sid : UInt8) (body : Bytes) (functional : Bool) :
    let (result, s) := request (scriptedTransport items sendOk) timing (sid :: body) functional {}
    s.sent = [(sid :: body, functional)] ∧
      (sendOk = false → result = .error .sendFailed ∧ s.timeouts = []) ∧
      (sendOk = true →
        (∀ pending : Nat, pending ≤ timing.maxPending → (∀ i < pending, IsPending sid (items i)) →
          ¬ IsPending sid (items pending) →
            Verdict sid (items pending) result ∧
              s.timeouts = timing.p2 :: List.replicate pending timing.p2Star) ∧
        ((∀ i : Nat, i ≤ timing.maxPending → IsPending sid (items i)) →
          result = .error .timeout ∧
            s.timeouts = timing.p2 :: List.replicate timing.maxPending.toNat timing.p2Star)) ∧
      s.timeouts.length ≤ timing.maxPending + 1 := by
  obtain ⟨m, hm⟩ : ∃ m : Nat, timing.maxPending = m := ⟨timing.maxPending.toNat, by omega⟩
  cases sendOk with
  | false =>
      refine ⟨rfl, fun _ => ⟨rfl, rfl⟩, fun h => absurd h (by decide), ?_⟩
      show ((0 : Nat) : Int) ≤ _
      omega
  | true =>
      rw [hm, Int.toNat_natCast]
      by_cases hall : ∀ i ≤ m, IsPending sid (items i)
      · rw [request_givesUp items timing hm body functional hall]
        refine ⟨rfl, fun h => absurd h (by decide), fun _ => ⟨?_, fun _ => ⟨rfl, rfl⟩⟩, ?_⟩
        · intro pending hle _ hfinal
          exact absurd (hall pending (by omega)) hfinal
        · simp [timeoutsOf]
      · push Not at hall
        obtain ⟨hle, hfinal⟩ := Nat.find_spec hall
        have hfirst : ∀ i < Nat.find hall, IsPending sid (items i) := fun i hi => by
          have hmin := Nat.find_min hall hi
          push Not at hmin
          exact hmin (by omega)
        generalize Nat.find hall = n at hle hfinal hfirst
        obtain ⟨result, hverdict, hresult⟩ :=
          request_first items timing hm body functional hle hfirst hfinal
        rw [hresult]
        refine ⟨rfl, fun h => absurd h (by decide), fun _ => ⟨?_, ?_⟩, ?_⟩
        · intro pending _ hpending hnot
          obtain rfl : pending = n := by
            by_contra hne
            rcases Nat.lt_or_gt_of_ne hne with hlt | hgt
            · exact hnot (hfirst pending hlt)
            · exact hfinal (hpending n hgt)
          exact ⟨hverdict, rfl⟩
        · intro hpending
          exact absurd (hpending n (by omega)) hfinal
        · simp [timeoutsOf]
          omega

/-- Two requests for more time are followed by a positive response; what comes later stays where it
is. -/
theorem request_decided_twoPending :
    (request (scriptedTransport
      (fun i => [some [0x7F, 0x3E, 0x78], some [0x7F, 0x3E, 0x78], some [0x7E, 0x00],
        some [0x7E, 0x01]].getD i none) true) {} [0x3E, 0x00] false {}).2 =
      { sent := [([0x3E, 0x00], false)], timeouts := [150, 5500, 5500] } := by
  obtain ⟨hsent, -, hreceived, -⟩ := request_decided
    (fun i => [some [0x7F, 0x3E, 0x78], some [0x7F, 0x3E, 0x78], some [0x7E, 0x00],
      some [0x7E, 0x01]].getD i none) true {} (by decide) 0x3E [0x00] false
  obtain ⟨-, htimeouts⟩ := (hreceived rfl).1 2 (by decide) (by decide) (by decide)
  exact Script.ext hsent htimeouts

end MiniEcu.Tester
