import DdingGameServer.Common.NodeList
import DdingGameServer.DBServer.Pool
/-!
# DBServer — closing the connection pool

`DBConnectionPool::Cleanup` walks `connectionList`, gives the handles of each connection back to
ODBC and takes the connection out with `pop_front`, which removes the node the loop stands on. The
pool of AuthServer has the same loop. `cleansUp_iff` says that it closes the pool in the one case
where there is nothing to close.
-/

namespace DdingGameServer

namespace DBServer

open NodeList

universe w

variable {Handle : Type w}

/-- A call that gives something back to ODBC. -/
inductive OdbcCall (Handle : Type w)
  | freeStmt (stmtHandle : Handle)
  | disconnect (dbcHandle : Handle)
  | freeDbc (dbcHandle : Handle)
  deriving DecidableEq

/-- What closes a connection: `SQLFreeHandle(SQL_HANDLE_STMT, ..)`, `SQLDisconnect(..)` and
`SQLFreeHandle(SQL_HANDLE_DBC, ..)`. -/
def DBConnection.closing (connection : DBConnection Handle) : List (OdbcCall Handle) :=
  [.freeStmt connection.stmtHandle, .disconnect connection.dbcHandle,
    .freeDbc connection.dbcHandle]

/-- A turn of the loop of `Cleanup`. -/
def cleanupTurn (calls : List (OdbcCall Handle)) (connection : DBConnection Handle) :
    Turn (List (OdbcCall Handle)) :=
  ⟨calls ++ connection.closing, true, false⟩

/-- The loop of `Cleanup`, with the calls it makes. -/
def closeConnections (fuel : ℕ) (connectionList : NodeList (DBConnection Handle)) :
    Ending (List (OdbcCall Handle)) (DBConnection Handle) :=
  rangeFor cleanupTurn fuel [] connectionList connectionList.first

/-- A `Cleanup`: what it does with some fuel to a `connectionList`. -/
abbrev Cleanup (Handle : Type w) : Type w :=
  ℕ → NodeList (DBConnection Handle) → Ending (List (OdbcCall Handle)) (DBConnection Handle)

/-- `DBConnectionPool::Cleanup` of DBServer. -/
def dbServerCleanup : Cleanup Handle := closeConnections

/-- `DBConnectionPool::Cleanup` of AuthServer. -/
def authServerCleanup : Cleanup Handle := closeConnections

/-- `DisconnectDB`: the pool, and then the default connection. -/
def disconnectDB (cleanup : Cleanup Handle) (defaultConnection : DBConnection Handle) :
    Cleanup Handle := fun fuel connectionList =>
  match cleanup fuel connectionList with
  | .finished calls connectionList =>
    .finished (calls ++ defaultConnection.closing) connectionList
  | ending => ending

/-- **The pool is closed**: `Cleanup` ends without reading a node it has taken out, it has closed
every connection once and left none, and after `DisconnectDB` it closes nothing more. -/
structure CleansUp (cleanup : Cleanup Handle)
    (connectionList : NodeList (DBConnection Handle)) : Prop where
  complete : ∃ fuel calls left, cleanup fuel connectionList = .finished calls left ∧
    calls.Perm (connectionList.values.flatMap DBConnection.closing) ∧ left.values = []
  again : ∀ fuel defaultConnection calls left,
    disconnectDB cleanup defaultConnection fuel connectionList = .finished calls left →
      ∃ fuel, cleanup fuel left = .finished [] left

variable {connectionList left : NodeList (DBConnection Handle)} {calls : List (OdbcCall Handle)}
  {fuel : ℕ}

/-- **The loop comes to its end over no connection**, and makes no call. -/
theorem ends_cleanupTurn_iff :
    Ends cleanupTurn [] connectionList calls left ↔
      left = connectionList ∧ connectionList.nodes = [] ∧ calls = [] := by
  rw [ends_iff fun _ _ => rfl]
  refine and_congr_right fun _ => or_iff_left ?_
  rintro ⟨n, rest, -, hbreaks, -⟩
  cases hbreaks

/-- Over any other list it closes the first connection and reads the node that one was in. -/
theorem closeConnections_of_cons {n : Node (DBConnection Handle)}
    {rest : List (Node (DBConnection Handle))} (h : connectionList.nodes = n :: rest) :
    closeConnections (fuel + 1) connectionList =
      .readsRemoved n.value.closing connectionList.popFront :=
  rangeFor_of_pops h rfl rfl

/-- What `DisconnectDB` leaves is what its `Cleanup` leaves. -/
theorem cleanup_of_disconnectDB {cleanup : Cleanup Handle}
    {defaultConnection : DBConnection Handle}
    (h : disconnectDB cleanup defaultConnection fuel connectionList = .finished calls left) :
    ∃ calls, cleanup fuel connectionList = .finished calls left := by
  unfold disconnectDB at h
  cases hcleanup : cleanup fuel connectionList with
  | finished calls' left' =>
    rw [hcleanup] at h
    cases h
    exact ⟨calls', rfl⟩
  | readsRemoved calls' left' => rw [hcleanup] at h; cases h
  | running calls' left' => rw [hcleanup] at h; cases h

/-- The loop closes the pool exactly where there is nothing in it. -/
theorem cleansUp_closeConnections_iff :
    CleansUp closeConnections connectionList ↔ connectionList.values = [] := by
  have hnodes : connectionList.values = [] ↔ connectionList.nodes = [] := List.map_eq_nil_iff
  constructor
  · rintro ⟨⟨fuel, calls, left, hends, -⟩, -⟩
    exact hnodes.mpr (ends_cleanupTurn_iff.mp ⟨fuel, hends⟩).2.1
  · intro hempty
    have hnone : closeConnections 1 connectionList = .finished [] connectionList :=
      rangeFor_of_nil (hnodes.mp hempty)
    refine ⟨⟨1, [], connectionList, hnone, ?_, hempty⟩, fun fuel default calls left h => ?_⟩
    · rw [hempty]
      exact .refl []
    · obtain ⟨calls', hends⟩ := cleanup_of_disconnectDB h
      obtain ⟨rfl, -, -⟩ := ends_cleanupTurn_iff.mp ⟨fuel, hends⟩
      exact ⟨1, hnone⟩

/-- **Connection pool clean-up is complete exactly for an empty pool**, in both servers. -/
theorem cleansUp_iff (connectionList : NodeList (DBConnection Handle)) :
    (CleansUp dbServerCleanup connectionList ↔ connectionList.values = []) ∧
      (CleansUp authServerCleanup connectionList ↔ connectionList.values = []) :=
  ⟨cleansUp_closeConnections_iff, cleansUp_closeConnections_iff⟩

/-- A pool of one connection. -/
def oneConnection : NodeList (DBConnection ℕ) := ⟨[⟨0, ⟨1, 2⟩⟩], by decide⟩

/-- **Its connection is closed**, and then its node is read. -/
theorem not_cleansUp_one :
    (∀ fuel, dbServerCleanup (fuel + 1) oneConnection =
      .readsRemoved [.freeStmt 2, .disconnect 1, .freeDbc 1] oneConnection.popFront) ∧
      ¬ CleansUp dbServerCleanup oneConnection := by
  have hnodes : oneConnection.nodes = [⟨0, ⟨1, 2⟩⟩] := rfl
  refine ⟨fun fuel => closeConnections_of_cons hnodes, ?_⟩
  rintro ⟨⟨fuel, calls, left, hends, -⟩, -⟩
  obtain ⟨-, hempty, -⟩ := ends_cleanupTurn_iff.mp ⟨fuel, hends⟩
  rw [hnodes] at hempty
  cases hempty

end DBServer

end DdingGameServer
