import Mathlib.Data.List.Basic
/-!
# Connections with and without autocommit

A connection to a database is in autocommit mode, where what a statement does is committed with it,
or in manual mode, where the statements since the last commit or rollback make up an open
transaction. Switching autocommit on commits what is open. Work is any type; the database is the
list of the work that was committed. Nothing here is about any particular program.
-/

namespace DdingGameServer

universe u

/-- The mode of a connection. An open transaction exists in manual mode only. -/
inductive CommitMode (Work : Type u)
  | autocommit
  | manual (transaction : Option (List Work))
  deriving DecidableEq

/-- **A connection**, and what was committed over it. -/
structure Connection (Work : Type u) where
  mode : CommitMode Work
  committed : List Work
  deriving DecidableEq

namespace Connection

variable {Work : Type u} (c : Connection Work)

/-- A connection as it is opened. -/
def opened : Connection Work := ⟨.autocommit, []⟩

/-- The work that is neither committed nor rolled back. -/
def uncommitted : List Work :=
  match c.mode with
  | .autocommit | .manual none => []
  | .manual (some work) => work

/-- Switch autocommit off. -/
def autocommitOff : Connection Work :=
  match c.mode with
  | .autocommit => { c with mode := .manual none }
  | .manual _ => c

/-- Switch autocommit on: what is open is committed. -/
def autocommitOn : Connection Work :=
  { mode := .autocommit, committed := c.committed ++ c.uncommitted }

/-- Execute a statement that does `work`. -/
def execute (work : List Work) : Connection Work :=
  match c.mode with
  | .autocommit => { c with committed := c.committed ++ work }
  | .manual _ => { c with mode := .manual (some (c.uncommitted ++ work)) }

/-- Roll the open transaction back, if the driver does. -/
def rollback (succeeds : Bool) : Connection Work :=
  match c.mode, succeeds with
  | .manual _, true => { c with mode := .manual none }
  | _, _ => c

/-- The connection is in manual mode. -/
def IsManual : Prop := c.mode ≠ .autocommit

variable {c}

@[simp] theorem isManual_autocommitOff : c.autocommitOff.IsManual := by
  unfold autocommitOff IsManual
  split <;> simp_all

@[simp] theorem committed_autocommitOff : c.autocommitOff.committed = c.committed := by
  unfold autocommitOff
  split <;> rfl

/-- A connection in autocommit mode has nothing open when it is switched. -/
theorem uncommitted_autocommitOff (h : c.mode = .autocommit) : c.autocommitOff.uncommitted = [] := by
  simp [autocommitOff, uncommitted, h]

/-- **In manual mode a statement commits nothing.** -/
theorem IsManual.execute (h : c.IsManual) (work : List Work) : (c.execute work).IsManual ∧
    (c.execute work).committed = c.committed ∧
    (c.execute work).uncommitted = c.uncommitted ++ work := by
  obtain ⟨mode, committed⟩ := c
  cases mode with
  | autocommit => exact absurd rfl h
  | manual transaction => exact ⟨by simp [IsManual, Connection.execute], rfl, rfl⟩

/-- **Nor does a rollback**, which forgets what is open if it succeeds. -/
theorem IsManual.rollback (h : c.IsManual) (succeeds : Bool) : (c.rollback succeeds).IsManual ∧
    (c.rollback succeeds).committed = c.committed ∧
    (c.rollback succeeds).uncommitted = if succeeds then [] else c.uncommitted := by
  obtain ⟨mode, committed⟩ := c
  cases mode with
  | autocommit => exact absurd rfl h
  | manual transaction =>
    cases succeeds with
    | false => exact ⟨h, rfl, rfl⟩
    | true => exact ⟨by simp [IsManual, Connection.rollback], rfl, rfl⟩

/-- **Switching autocommit on leaves the database alone** exactly if nothing is open. -/
theorem committed_autocommitOn_eq_iff :
    c.autocommitOn.committed = c.committed ↔ c.uncommitted = [] :=
  List.append_right_eq_self

end Connection

end DdingGameServer
