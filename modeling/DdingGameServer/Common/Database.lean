import Mathlib.Logic.Function.Basic
import DdingGameServer.Common.Autocommit
/-!
# A database with several connections

Each connection has a mode and a transaction of its own, and what is committed over any of them
joins one log of transactions. Work is any type, and so is what names a connection. What is done
over one connection changes neither the mode nor the transaction of another. Nothing here is about
any particular program.
-/

namespace DdingGameServer

universe u v

/-- **A database**: the mode of each connection, and the transactions that were committed, in
order. -/
structure Database (Conn : Type u) (Work : Type v) where
  mode : Conn → CommitMode Work
  committed : List (List Work)

namespace Database

variable {Conn : Type u} {Work : Type v} (d : Database Conn Work) (c : Conn)

/-- The work over a connection that is neither committed nor rolled back. -/
def uncommitted : List Work := Connection.uncommitted ⟨d.mode c, []⟩

/-- The connection is in manual mode. -/
def IsManual : Prop := d.mode c ≠ .autocommit

variable [DecidableEq Conn]

def setMode (m : CommitMode Work) : Database Conn Work :=
  { d with mode := Function.update d.mode c m }

/-- Switch autocommit off. -/
def autocommitOff : Database Conn Work :=
  match d.mode c with
  | .autocommit => d.setMode c (.manual none)
  | .manual _ => d

/-- Execute statements that do `work`: a transaction of its own in autocommit mode. -/
def execute (work : List Work) : Database Conn Work :=
  match d.mode c with
  | .autocommit => { d with committed := d.committed ++ [work] }
  | .manual _ => d.setMode c (.manual (some (d.uncommitted c ++ work)))

/-- End the transaction by a commit. In autocommit mode there is none. -/
def commit : Database Conn Work :=
  match d.mode c with
  | .autocommit => d
  | .manual _ =>
    { d.setMode c (.manual none) with committed := d.committed ++ [d.uncommitted c] }

/-- End the transaction by a rollback. -/
def rollback : Database Conn Work :=
  match d.mode c with
  | .autocommit => d
  | .manual _ => d.setMode c (.manual none)

/-- Switch autocommit on: what is open is committed. -/
def autocommitOn : Database Conn Work :=
  if d.uncommitted c = [] then d.setMode c .autocommit
  else (d.commit c).setMode c .autocommit

variable {d c} {c' : Conn}

/-! ## The connection itself -/

@[simp] theorem mode_setMode_self {m : CommitMode Work} : (d.setMode c m).mode c = m := by
  simp [setMode]

@[simp] theorem committed_setMode {m : CommitMode Work} :
    (d.setMode c m).committed = d.committed := rfl

@[simp] theorem committed_autocommitOff : (d.autocommitOff c).committed = d.committed := by
  unfold autocommitOff
  split <;> rfl

theorem isManual_autocommitOff : (d.autocommitOff c).IsManual c := by
  unfold autocommitOff IsManual
  cases hmode : d.mode c with
  | autocommit => simp
  | manual transaction => simp [hmode]

/-- Switching autocommit off opens nothing. -/
theorem uncommitted_autocommitOff : (d.autocommitOff c).uncommitted c = d.uncommitted c := by
  unfold autocommitOff
  cases hmode : d.mode c with
  | autocommit => simp [uncommitted, Connection.uncommitted, hmode]
  | manual transaction => rfl

/-- **In manual mode a statement joins the transaction**, and commits nothing. -/
theorem IsManual.execute (h : d.IsManual c) (work : List Work) : (d.execute c work).IsManual c ∧
    (d.execute c work).uncommitted c = d.uncommitted c ++ work ∧
    (d.execute c work).committed = d.committed := by
  unfold Database.execute
  cases hmode : d.mode c with
  | autocommit => exact absurd hmode h
  | manual transaction => exact ⟨by simp [IsManual], by simp [uncommitted, Connection.uncommitted],
      rfl⟩

/-- **A commit makes the transaction the last one of the log.** -/
theorem IsManual.commit (h : d.IsManual c) : (d.commit c).uncommitted c = [] ∧
    (d.commit c).committed = d.committed ++ [d.uncommitted c] := by
  unfold Database.commit
  cases hmode : d.mode c with
  | autocommit => exact absurd hmode h
  | manual transaction => exact ⟨by simp [uncommitted, Connection.uncommitted, setMode], rfl⟩

/-- Where nothing is open, switching autocommit on commits nothing. -/
theorem committed_autocommitOn (h : d.uncommitted c = []) :
    (d.autocommitOn c).committed = d.committed ∧ (d.autocommitOn c).uncommitted c = [] := by
  rw [autocommitOn, if_pos h]
  exact ⟨rfl, by simp [uncommitted, Connection.uncommitted]⟩

/-! ## The other connections -/

/-- **Two databases look the same over a connection.** -/
def SameOver (d d' : Database Conn Work) (c : Conn) : Prop := d'.mode c = d.mode c

omit [DecidableEq Conn] in
theorem SameOver.uncommitted {d' : Database Conn Work} (h : SameOver d d' c) :
    d'.uncommitted c = d.uncommitted c := by
  simp only [Database.uncommitted, show d'.mode c = d.mode c from h]

omit [DecidableEq Conn] in
theorem SameOver.isManual {d' : Database Conn Work} (h : SameOver d d' c) :
    d'.IsManual c ↔ d.IsManual c := by
  simp only [IsManual, show d'.mode c = d.mode c from h]

theorem sameOver_setMode {m : CommitMode Work} (h : c' ≠ c) : SameOver d (d.setMode c m) c' := by
  simp [SameOver, setMode, h]

theorem sameOver_autocommitOff (h : c' ≠ c) : SameOver d (d.autocommitOff c) c' := by
  unfold autocommitOff
  split
  · exact sameOver_setMode h
  · rfl

theorem sameOver_execute {work : List Work} (h : c' ≠ c) : SameOver d (d.execute c work) c' := by
  unfold execute
  split
  · rfl
  · exact sameOver_setMode h

theorem sameOver_commit (h : c' ≠ c) : SameOver d (d.commit c) c' := by
  unfold commit
  split
  · rfl
  · exact sameOver_setMode (d := d) h

theorem sameOver_autocommitOn (h : c' ≠ c) : SameOver d (d.autocommitOn c) c' := by
  unfold autocommitOn
  split
  · exact sameOver_setMode h
  · exact (sameOver_setMode h).trans (sameOver_commit h)

end Database

end DdingGameServer
