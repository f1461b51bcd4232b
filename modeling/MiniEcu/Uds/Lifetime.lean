import MiniEcu.Lib.Trace
import MiniEcu.Uds.Services
import Mathlib.Data.List.Chain

/-!
# The lifetime of the extended session

Runs of the three functions that change the session, with true times. The server keeps the low 32
bits of the time of the last request and compares it with the clock when it is polled. As long as it
is polled often enough, that difference never wraps, and the session ends when the requests stop.
-/

namespace MiniEcu.Uds

open Memory Trace

/-! ### Runs -/

/-- A call of the server. What else a request needs may be different each time. -/
inductive Op
  | processRequest (dids : List Did) (req : Bytes) (functional : Bool) (resp : Bytes) (respMax : Nat)
      (dtc : Dtc.Manager)
  | mainFunction
  | executePendingReset

/-- A call and the true time at which it is made. -/
structure Call where
  time : Nat
  op : Op

/-- What has happened: a request, with what its service returned, or a reset that was executed. -/
inductive Happening
  | request (time : Nat) (req : Bytes) (nrc : Option Nrc)
  | reset (type : ResetType)
deriving DecidableEq

/-- The server, when it was last polled, and the time of the last call. -/
structure Host where
  server : Server
  polled : Nat
  now : Nat
deriving DecidableEq

def bootHost (start : Nat) : Host where
  server := init start
  polled := start
  now := start

def Host.step (h : Host) (c : Call) : Host × List Happening :=
  match c.op with
  | .processRequest dids req functional resp respMax dtc =>
      ({ h with
          server := (processRequest dids c.time req functional resp respMax h.server dtc).server
          now := c.time },
        if req = [] then []
        else [.request c.time req
          (service dids (startOf c.time req h.server dtc resp respMax)).1])
  | .mainFunction => ({ server := mainFunction c.time h.server, polled := c.time, now := c.time }, [])
  | .executePendingReset =>
      ({ h with server := (executePendingReset h.server).2, now := c.time },
        (executePendingReset h.server).1.toList.map .reset)

/-- Time does not go back, and no more than `p` milliseconds pass without a poll. -/
def Prompt (p : Nat) (h : Host) (c : Call) : Prop := h.now ≤ c.time ∧ c.time ≤ h.polled + p

instance (p : Nat) (h : Host) (c : Call) : Decidable (Prompt p h c) :=
  inferInstanceAs (Decidable (_ ∧ _))

/-! ### What keeps a session alive -/

namespace Happening

/-- A request for the extended session that was accepted. -/
def Opens : Happening → Prop
  | request _ req nrc => (req = [0x10, 0x03] ∨ req = [0x10, 0x83]) ∧ nrc = none
  | reset _ => False

/-- A request for the default session that was accepted, or a reset. -/
def Closes : Happening → Prop
  | request _ req nrc => (req = [0x10, 0x01] ∨ req = [0x10, 0x81]) ∧ nrc = none
  | reset _ => True

def requestTime : Happening → Option Nat
  | request time _ _ => some time
  | reset _ => none

end Happening

def requestTimes (tr : List Happening) : List Nat := tr.filterMap Happening.requestTime

/-- The session was opened and not closed since. Since then the requests have been less than `gap`
apart, and the last of them was at the time `last`. -/
def Sustained (tr : List Happening) (gap last : Nat) : Prop :=
  ∃ before opening after, tr = before ++ opening :: after ∧ opening.Opens ∧
    (∀ e ∈ after, ¬ e.Closes) ∧
    (requestTimes (opening :: after)).IsChain (fun r r' => r' < r + gap) ∧
    (requestTimes (opening :: after)).getLast? = some last

/-! ### The services and the session -/

theorem eq_of_and_mask {x : UInt8} {n : Nat} (hn : n < 128) (h : x &&& 0x7F = UInt8.ofNat n) :
    x = UInt8.ofNat n ∨ x = UInt8.ofNat (n + 128) := by
  have hmod : x.toNat % 128 = n := by
    have hnat := congrArg UInt8.toNat h
    rw [UInt8.toNat_and, UInt8.toNat_ofNat', Nat.mod_eq_of_lt (by omega)] at hnat
    rw [← hnat]
    exact (Nat.and_two_pow_sub_one_eq_mod x.toNat 7).symm
  have hx := x.toNat_lt
  by_cases hlow : x.toNat < 128
  · left
    apply UInt8.toNat_inj.mp
    rw [UInt8.toNat_ofNat', Nat.mod_eq_of_lt (by omega)]
    omega
  · right
    apply UInt8.toNat_inj.mp
    rw [UInt8.toNat_ofNat', Nat.mod_eq_of_lt (by omega)]
    omega

theorem lastRequestMs_service (dids : List Did) (c : Ctx) :
    (service dids c).2.server.lastRequestMs = c.server.lastRequestMs := by
  have hstep := serverStep_service dids c
  generalize (service dids c).2.server = server at hstep ⊢
  cases hstep with
  | same => rfl
  | session s hsid => rfl
  | reset type haccepted => rfl

theorem session_service_of_ne (dids : List Did) {c : Ctx} (hsid : c.byte 0 ≠ sidDiagSessionControl) :
    (service dids c).2.server.session = c.server.session := by
  have hstep := serverStep_service dids c
  generalize (service dids c).2.server = server at hstep ⊢
  cases hstep with
  | same => rfl
  | session s hsession => exact absurd hsession hsid
  | reset type haccepted => rfl

/-- A request that is accepted and leaves the session extended has opened it. -/
theorem sessionControl_opens {c : Ctx} (hsid : c.byte 0 = sidDiagSessionControl)
    (haccepted : (sessionControl c).1 = none)
    (hextended : (sessionControl c).2.server.session = .extended) :
    c.req = [0x10, 0x03] ∨ c.req = [0x10, 0x83] := by
  unfold sessionControl at haccepted hextended
  split at haccepted
  · cases haccepted
  rename_i hlength
  rw [if_neg hlength] at hextended
  split at haccepted
  · cases haccepted
  rename_i session hsession
  rw [hsession, Ctx.server_puts] at hextended
  obtain rfl : session = .extended := hextended
  have hmask : c.byte 1 &&& 0x7F = UInt8.ofNat 3 := by
    rw [Session.ofByte?] at hsession
    grind
  match hreq : c.req, not_not.mp hlength with
  | [b, x], _ =>
      rw [Ctx.byte, hreq] at hsid hmask
      obtain rfl : b = 0x10 := hsid
      rcases eq_of_and_mask (by decide) hmask with rfl | rfl
      · exact .inl rfl
      · exact .inr rfl

theorem sessionControl_refused {c : Ctx} (hrefused : (sessionControl c).1 ≠ none) :
    (sessionControl c).2.server.session = c.server.session := by
  unfold sessionControl at *
  grind

theorem session_service (dids : List Did) {c : Ctx}
    (hextended : (service dids c).2.server.session = .extended) :
    ((c.req = [0x10, 0x03] ∨ c.req = [0x10, 0x83]) ∧ (service dids c).1 = none) ∨
      (c.server.session = .extended ∧
        ¬ ((c.req = [0x10, 0x01] ∨ c.req = [0x10, 0x81]) ∧ (service dids c).1 = none)) := by
  by_cases hsid : c.byte 0 = sidDiagSessionControl
  · have hservice : service dids c = sessionControl c := if_pos hsid
    rw [hservice] at hextended ⊢
    by_cases haccepted : (sessionControl c).1 = none
    · exact .inl ⟨sessionControl_opens hsid haccepted hextended, haccepted⟩
    · rw [sessionControl_refused haccepted] at hextended
      exact .inr ⟨hextended, fun hcloses => haccepted hcloses.2⟩
  · rw [session_service_of_ne dids hsid] at hextended
    refine .inr ⟨hextended, fun hcloses => hsid ?_⟩
    rcases hcloses.1 with hreq | hreq <;> rw [Ctx.byte, hreq] <;> rfl

/-! ### What a run keeps -/

section Sustained

variable {tr : List Happening} {gap last time : Nat} {req : Bytes} {nrc : Option Nrc}

theorem sustained_opening (hopens : (Happening.request time req nrc).Opens) :
    Sustained (tr ++ [.request time req nrc]) gap time := by
  refine ⟨tr, .request time req nrc, [], rfl, hopens, by simp, ?_, rfl⟩
  exact List.isChain_singleton _

theorem Sustained.request (h : Sustained tr gap last) (htime : time < last + gap)
    (hopen : ¬ (Happening.request time req nrc).Closes) :
    Sustained (tr ++ [.request time req nrc]) gap time := by
  obtain ⟨before, opening, after, rfl, hopens, hnone, hchain, hlast⟩ := h
  have htimes : requestTimes (opening :: (after ++ [.request time req nrc])) =
      requestTimes (opening :: after) ++ [time] := by
    rw [← List.cons_append, requestTimes, List.filterMap_append]
    rfl
  refine ⟨before, opening, after ++ [.request time req nrc], by simp, hopens, ?_, ?_, ?_⟩
  · intro e he
    rcases List.mem_append.mp he with he | he
    · exact hnone e he
    · rw [List.mem_singleton.mp he]
      exact hopen
  · rw [htimes, List.isChain_append]
    refine ⟨hchain, List.isChain_singleton _, ?_⟩
    intro x hx y hy
    rw [hlast] at hx
    obtain rfl := Option.some.inj hx
    obtain rfl := Option.some.inj hy
    exact htime
  · rw [htimes, List.getLast?_concat]

end Sustained

/-- The last poll saw a request that was less than five seconds old, or has none behind it. -/
structure Lively (gap : Nat) (h : Host) (tr : List Happening) : Prop where
  polled_le : h.polled ≤ h.now
  sustained : h.server.session = .extended →
    ∃ last, Sustained tr gap last ∧ h.server.lastRequestMs = last % 2 ^ 32 ∧ last ≤ h.now ∧
      h.polled < last + s3ServerMs

theorem lively_bootHost (gap start : Nat) : Lively gap (bootHost start) [] where
  polled_le := Nat.le_refl start
  sustained := fun hextended => nomatch hextended

section Step

variable {p : Nat} {h : Host} {tr : List Happening} {time : Nat}

/-- A request refreshes the timer, and may open the session. -/
theorem sustained_processRequest (hlively : Lively (s3ServerMs + p) h tr)
    (hpoll : time ≤ h.polled + p) {req : Bytes} (hreq : req ≠ [])
    (dids : List Did) (functional : Bool) (resp : Bytes) (respMax : Nat) (dtc : Dtc.Manager)
    (hextended : (processRequest dids time req functional resp respMax h.server dtc).server.session
      = .extended) :
    Sustained (tr ++ [.request time req
        (service dids (startOf time req h.server dtc resp respMax)).1]) (s3ServerMs + p) time ∧
      (processRequest dids time req functional resp respMax h.server dtc).server.lastRequestMs
        = time % 2 ^ 32 := by
  have hpos : req.length ≠ 0 := fun hzero => hreq (List.length_eq_zero_iff.mp hzero)
  rw [server_processRequest dids time req functional h.server dtc hpos] at hextended ⊢
  refine ⟨?_, lastRequestMs_service dids _⟩
  rcases session_service dids hextended with hopens | ⟨hbefore, hopen⟩
  · exact sustained_opening hopens
  · obtain ⟨last, hsustained, -, -, hage⟩ := hlively.sustained hbefore
    exact hsustained.request (by omega) hopen

theorem session_of_mainFunction {server : Server}
    (hextended : (mainFunction time server).session = .extended) : server.session = .extended := by
  rw [mainFunction] at hextended
  grind

theorem lastRequestMs_mainFunction (time : Nat) (server : Server) :
    (mainFunction time server).lastRequestMs = server.lastRequestMs := by
  rw [mainFunction]
  grind

/-- A poll that leaves the session extended has seen a young request: the difference cannot have
wrapped. -/
theorem age_mainFunction {last : Nat} (hlast : last ≤ time) (hwrap : time < last + 2 ^ 32)
    (hms : h.server.lastRequestMs = last % 2 ^ 32)
    (hextended : (mainFunction time h.server).session = .extended) : time < last + s3ServerMs := by
  have hsession : ¬ h.server.session = .default := by
    rw [session_of_mainFunction hextended]
    decide
  rw [mainFunction, if_neg hsession] at hextended
  split at hextended
  · cases hextended
  · rename_i hyoung
    rw [hms, elapsed_eq hlast hwrap] at hyoung
    omega

end Step

theorem lively_step {p : Nat} (hp : p ≤ 2 ^ 31) {h : Host} {tr : List Happening} {c : Call}
    (hlively : Lively (s3ServerMs + p) h tr) (hprompt : Prompt p h c) :
    Lively (s3ServerMs + p) (h.step c).1 (tr ++ (h.step c).2) := by
  obtain ⟨time, op⟩ := c
  obtain ⟨hnow, hpoll⟩ : h.now ≤ time ∧ time ≤ h.polled + p := hprompt
  have hs3 : s3ServerMs = 5000 := rfl
  cases op with
  | processRequest dids req functional resp respMax dtc =>
      refine ⟨Nat.le_trans hlively.polled_le hnow, fun hextended => ?_⟩
      by_cases hreq : req = []
      · subst hreq
        obtain ⟨last, hsustained, hms, hlast, hage⟩ := hlively.sustained hextended
        refine ⟨last, ?_, hms, Nat.le_trans hlast hnow, hage⟩
        show Sustained (tr ++ []) _ last
        rw [List.append_nil]
        exact hsustained
      · obtain ⟨hsustained, hms⟩ := sustained_processRequest hlively hpoll hreq dids functional
          resp respMax dtc hextended
        refine ⟨time, ?_, hms, Nat.le_refl _, ?_⟩
        · show Sustained (tr ++ if req = [] then [] else _) _ time
          rw [if_neg hreq]
          exact hsustained
        · have hbefore := Nat.le_trans hlively.polled_le hnow
          show h.polled < time + s3ServerMs
          omega
  | mainFunction =>
      refine ⟨Nat.le_refl _, fun hextended => ?_⟩
      have hbefore := session_of_mainFunction hextended
      obtain ⟨last, hsustained, hms, hlast, hage⟩ := hlively.sustained hbefore
      have hlast := Nat.le_trans hlast hnow
      have hyoung := age_mainFunction hlast (by omega) hms hextended
      refine ⟨last, ?_, (lastRequestMs_mainFunction time h.server).trans hms, hlast, hyoung⟩
      rw [Host.step, List.append_nil]
      exact hsustained
  | executePendingReset =>
      refine ⟨Nat.le_trans hlively.polled_le hnow, fun hextended => ?_⟩
      have hextended : (executePendingReset h.server).2.session = .extended := hextended
      cases hpending : h.server.pendingReset with
      | some type =>
          rw [executePendingReset, hpending] at hextended
          cases hextended
      | none =>
          have hnothing : executePendingReset h.server = (none, h.server) := by
            rw [executePendingReset, hpending]
          rw [hnothing] at hextended
          obtain ⟨last, hsustained, hms, hlast, hage⟩ := hlively.sustained hextended
          rw [Host.step, hnothing]
          exact ⟨last, by simpa using hsustained, hms, Nat.le_trans hlast hnow, hage⟩

theorem lively_run {p : Nat} (hp : p ≤ 2 ^ 31) (start : Nat) {calls : List Call}
    (hprompt : Along Host.step (Prompt p) (bootHost start) calls) :
    Lively (s3ServerMs + p) (run Host.step (bootHost start) calls).1
      (run Host.step (bootHost start) calls).2 :=
  run_invariant_of (Lively (s3ServerMs + p)) (Prompt p)
    (fun _ _ _ hlively hprompt => lively_step hp hlively hprompt) [] (lively_bootHost _ start) calls
    hprompt

theorem session_of_reset {dids : List Did} {c : Ctx} (hsid : c.byte 0 = sidEcuReset)
    (haccepted : (service dids c).1 = none) : c.server.session = .extended := by
  have hservice : service dids c = ecuReset c := by
    rw [service, if_neg (by rw [hsid]; decide), if_pos hsid]
  rw [hservice, ecuReset] at haccepted
  grind

/-- **The lifetime of the extended session.** In every run in which the server is polled at least
every `p` milliseconds, an extended session was opened by a request and not closed since, and the
requests since then, the present included, are less than five seconds and `p` apart; at a poll the
last of them is less than five seconds old. A reset is accepted in such a session only. -/
theorem extended_session_alive {p : Nat} (hp : p ≤ 2 ^ 31) (start : Nat) (calls : List Call)
    (hprompt : Along Host.step (Prompt p) (bootHost start) calls) :
    let r := run Host.step (bootHost start) calls
    (∀ t, r.1.now ≤ t → t ≤ r.1.polled + p → r.1.server.session = .extended →
      ∃ last, Sustained r.2 (s3ServerMs + p) last ∧ t < last + (s3ServerMs + p)) ∧
    (∀ past time, calls = past ++ [⟨time, .mainFunction⟩] → r.1.server.session = .extended →
      ∃ last, Sustained r.2 (s3ServerMs + p) last ∧ time < last + s3ServerMs) ∧
    ∀ (c : Call) (dids : List Did) (req : Bytes) (functional : Bool) (resp : Bytes) (respMax : Nat)
      (dtc : Dtc.Manager), c.op = .processRequest dids req functional resp respMax dtc →
      Prompt p r.1 c → req.getD 0 0 = sidEcuReset →
      (service dids (startOf c.time req r.1.server dtc resp respMax)).1 = none →
      ∃ last, Sustained r.2 (s3ServerMs + p) last ∧ c.time < last + (s3ServerMs + p) := by
  intro r
  have hlively := lively_run hp start hprompt
  have halive : ∀ t, t ≤ r.1.polled + p → r.1.server.session = .extended →
      ∃ last, Sustained r.2 (s3ServerMs + p) last ∧ t < last + (s3ServerMs + p) := by
    intro t hpoll hextended
    obtain ⟨last, hsustained, -, -, hage⟩ := hlively.sustained hextended
    have hpolled : r.1.polled < last + s3ServerMs := hage
    exact ⟨last, hsustained, by omega⟩
  refine ⟨fun t _ hpoll => halive t hpoll, fun past time hcalls hextended => ?_,
    fun c dids req _ resp respMax dtc _ hprompt hsid haccepted => ?_⟩
  · obtain ⟨last, hsustained, -, -, hage⟩ := hlively.sustained hextended
    have hpolled : (run Host.step (bootHost start) calls).1.polled = time := by
      rw [hcalls, run_concat]
      rfl
    rw [hpolled] at hage
    exact ⟨last, hsustained, hage⟩
  · have hextended : (startOf c.time req r.1.server dtc resp respMax).server.session = .extended :=
      session_of_reset hsid haccepted
    exact halive c.time hprompt.2 hextended

/-- The session is opened at 5 ms and polled at 10 ms. -/
theorem extended_session_alive_opened :
    let r := run Host.step (bootHost 0)
      [⟨5, .processRequest [] [0x10, 0x03] false [0, 0, 0, 0, 0, 0] 6 (Dtc.Manager.resetAll [])⟩,
        ⟨10, .mainFunction⟩]
    ∃ last, Sustained r.2 (s3ServerMs + 10) last ∧ 12 < last + (s3ServerMs + 10) :=
  (extended_session_alive (p := 10) (by decide) 0
    [⟨5, .processRequest [] [0x10, 0x03] false [0, 0, 0, 0, 0, 0] 6 (Dtc.Manager.resetAll [])⟩,
      ⟨10, .mainFunction⟩] (by decide +kernel)).1 12 (by decide +kernel) (by decide +kernel)
    (by decide +kernel)

end MiniEcu.Uds
