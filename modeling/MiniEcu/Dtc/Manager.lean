import Mathlib.Data.List.Basic

/-!
# The DTC manager

The functions of `dtc_manager.c` over an explicit state in place of the module's statics. Every
function takes the lock for its whole body, so each is one atomic step. The table is the list the
configuration pointer and the count describe.
-/

namespace MiniEcu.Dtc

/-! ### Status bits -/

abbrev statusTf : UInt8 := 0x01
abbrev statusTftoc : UInt8 := 0x02
abbrev statusPdtc : UInt8 := 0x04
abbrev statusCdtc : UInt8 := 0x08
abbrev statusTncslc : UInt8 := 0x10
abbrev statusTfslc : UInt8 := 0x20
abbrev statusTnctoc : UInt8 := 0x40
abbrev statusWir : UInt8 := 0x80

/-- The status bits the implementation supports. -/
def statusAvailabilityMask : UInt8 := 0xFF &&& ~~~statusWir

/-- After a clear or at power-up, nothing has been tested yet. -/
def statusInitial : UInt8 := statusTncslc ||| statusTnctoc

def maxEntries : Nat := 16

/-! ### Entries -/

structure Config where
  code : UInt32
  confirmThreshold : UInt8
deriving Repr, DecidableEq

structure Entry where
  status : UInt8
  failCount : UInt8
deriving Repr, DecidableEq

/-- What `ResetAll` stores into every entry. -/
def Entry.initial : Entry := { status := statusInitial, failCount := 0 }

def Config.threshold (c : Config) : UInt8 := if c.confirmThreshold = 0 then 1 else c.confirmThreshold

/-- The body of `DtcMgr_ReportResult` for the entry it selects. -/
def Entry.reportResult (e : Entry) (threshold : UInt8) (failed : Bool) : Entry :=
  let status := e.status &&& ~~~(statusTnctoc ||| statusTncslc)
  if failed then
    let status := status ||| (statusTf ||| statusTftoc ||| statusTfslc ||| statusPdtc)
    let failCount := if e.failCount < 0xFF then e.failCount + 1 else e.failCount
    { status := if failCount ≥ threshold then status ||| statusCdtc else status
      failCount := failCount }
  else
    { status := status &&& ~~~statusTf, failCount := 0 }

/-- The loop body of `DtcMgr_StartOperationCycle`. -/
def Entry.startOperationCycle (e : Entry) : Entry :=
  let status := if e.status &&& statusTftoc = 0 then e.status &&& ~~~statusPdtc else e.status
  { e with status := status &&& ~~~statusTftoc ||| statusTnctoc }

/-! ### The manager -/

/-- The module's statics: one entry for each configured trouble code. -/
structure Manager where
  table : List Config
  entries : List Entry
  sized : entries.length = table.length
deriving Repr, DecidableEq

namespace Manager

def resetAll (table : List Config) : Manager where
  table := table
  entries := table.map fun _ => Entry.initial
  sized := List.length_map _

/-- `DtcMgr_Init`; `none` where it returns false, which is also the answer to a null table. -/
def init : Option (List Config) → Option Manager
  | none => none
  | some table =>
      if table.length = 0 ∨ maxEntries < table.length then none else some (resetAll table)

def reportResult (m : Manager) (index : Nat) (failed : Bool) : Manager :=
  if h : index < m.table.length then
    { m with
      entries := m.entries.modify index fun e => e.reportResult m.table[index].threshold failed
      sized := by rw [List.length_modify, m.sized] }
  else m

def startOperationCycle (m : Manager) : Manager :=
  { m with
    entries := m.entries.map Entry.startOperationCycle
    sized := by rw [List.length_map, m.sized] }

def clearAll (m : Manager) : Manager := resetAll m.table

def getStatus (m : Manager) (index : Nat) : UInt8 :=
  if h : index < m.entries.length then m.entries[index].status else 0

def countByStatusMask (m : Manager) (mask : UInt8) : Nat :=
  m.entries.countP fun e => e.status &&& mask &&& statusAvailabilityMask ≠ 0

/-- The four bytes written for one matching entry. -/
def record (c : Config) (e : Entry) : List UInt8 :=
  [(c.code >>> 16).toUInt8, (c.code >>> 8).toUInt8, c.code.toUInt8,
    e.status &&& statusAvailabilityMask]

/-- The records of the first `maxRecords` entries that match the mask. -/
def getByStatusMask (m : Manager) (mask : UInt8) (maxRecords : Nat) : List UInt8 :=
  let matching := (m.table.zip m.entries).filter fun p =>
    p.2.status &&& mask &&& statusAvailabilityMask ≠ 0
  (matching.take maxRecords).flatMap fun p => record p.1 p.2

theorem length_records (ps : List (Config × Entry)) :
    (ps.flatMap fun p => record p.1 p.2).length = 4 * ps.length := by
  induction ps with
  | nil => rfl
  | cons p ps ih =>
      rw [List.flatMap_cons, List.length_append, ih, List.length_cons]
      simp only [record, List.length_cons, List.length_nil]
      omega

theorem length_getByStatusMask_le (m : Manager) (mask : UInt8) (maxRecords : Nat) :
    (m.getByStatusMask mask maxRecords).length ≤ 4 * maxRecords := by
  rw [getByStatusMask, length_records]
  exact Nat.mul_le_mul_left 4 (List.length_take_le _ _)

/-! ### Operations -/

/-- The calls that change the manager. -/
inductive Op
  | reportResult (index : Nat) (failed : Bool)
  | startOperationCycle
  | clearAll
deriving Repr, DecidableEq

def step (m : Manager) : Op → Manager
  | .reportResult index failed => m.reportResult index failed
  | .startOperationCycle => m.startOperationCycle
  | .clearAll => m.clearAll

/-- The state after a history of calls. -/
def replay (m : Manager) (h : List Op) : Manager := h.foldl step m

@[simp] theorem replay_nil (m : Manager) : m.replay [] = m := rfl

@[simp] theorem replay_concat (m : Manager) (h : List Op) (op : Op) :
    m.replay (h ++ [op]) = (m.replay h).step op := by
  simp [replay]

@[simp] theorem table_resetAll (table : List Config) : (resetAll table).table = table := rfl

@[simp] theorem table_step (m : Manager) (op : Op) : (m.step op).table = m.table := by
  cases op with
  | reportResult index failed =>
      simp only [step, reportResult]
      split <;> rfl
  | startOperationCycle => rfl
  | clearAll => rfl

@[simp] theorem table_replay (m : Manager) (h : List Op) : (m.replay h).table = m.table := by
  induction h generalizing m with
  | nil => rfl
  | cons op h ih => exact (ih (m.step op)).trans (table_step m op)

/-- What a call does to one entry. -/
def Entry.step (e : Entry) (threshold : UInt8) (index : Nat) : Op → Entry
  | .reportResult j failed => if j = index then e.reportResult threshold failed else e
  | .startOperationCycle => e.startOperationCycle
  | .clearAll => Entry.initial

/-- An entry changes by its own calls only, and by all of them. -/
theorem entries_step (m : Manager) (op : Op) (index : Nat) :
    (m.step op).entries[index]? =
      (m.table[index]?).bind fun c =>
        (m.entries[index]?).map fun e => Entry.step e c.threshold index op := by
  have hsized := m.sized
  cases op with
  | reportResult j failed =>
      simp only [step, reportResult, Entry.step]
      split
      next hj =>
        rw [List.getElem?_modify]
        by_cases hij : j = index
        · subst hij
          simp [hj]
        · simp only [hij, if_false]
          by_cases hi : index < m.table.length
          · simp [hi]
          · simp [show ¬ index < m.entries.length by omega]
      next hj =>
        by_cases hi : index < m.table.length
        · simp [hi, show ¬ j = index by omega]
        · simp [hi, show ¬ index < m.entries.length by omega]
  | startOperationCycle =>
      simp only [step, startOperationCycle, Entry.step, List.getElem?_map]
      by_cases hi : index < m.table.length
      · simp [hi]
      · simp [show ¬ index < m.entries.length by omega]
  | clearAll =>
      simp only [step, clearAll, resetAll, Entry.step, List.getElem?_map]
      by_cases hi : index < m.table.length
      · simp [hi, show index < m.entries.length by omega]
      · simp [hi]

end Manager

end MiniEcu.Dtc
