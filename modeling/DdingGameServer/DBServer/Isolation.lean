import DdingGameServer.DBServer.Model
/-!
# DBServer — several game servers

Every game server numbers its batches from 1, and `batchedDBJobMap` knows a batch by that number
alone. A start packet under a number that is pending is dropped without a word, and a job joins
whatever batch is pending under its number. The batches of two game servers stay apart as long as
no job meets a batch of the other one.
-/

namespace DdingGameServer

namespace DBServer

open GameDB

universe u v w

variable {DB : Type v} {Buf : Type u} {Server : Type w} [SerializationBuf Buf]
  (handle : DBJobHandler DB Buf) (server : UInt64 → Server) {s s' : State DB Buf}
  {p : Packet Buf} {events : List (Event Buf)} {run : BatchRun Buf}

/-- The batch holds what the server that created it sent: `server` says which game server a
connection belongs to. -/
structure Unmixed (key : DBJobKey) (b : BatchedDBJob Buf) : Prop where
  createdBy : b.createdBy.packetId = game2DBBatchedDBJob ∧ b.createdBy.key = key
  sessionId : b.sessionId = b.createdBy.start.sessionId
  jobs : ∀ item ∈ b.bufferList, item = item.packet.item ∧ item.packet.key = key ∧
    server item.packet.requestSessionId = server b.createdBy.requestSessionId

/-- **An execution within one game server**: the jobs, the session and the reply. -/
structure Isolated (run : BatchRun Buf) : Prop where
  batch : Unmixed server run.jobKey run.batchedJob
  answered : server run.requestSessionId = server run.batchedJob.createdBy.requestSessionId

/-- **A job meets only batches of its own game server.** -/
def MeetsOwnBatch (s : State DB Buf) (p : Packet Buf) : Prop :=
  p.packetId ≠ game2DBBatchedDBJob → ∀ b, s.batchedDBJobMap.find p.key = some b →
    server p.requestSessionId = server b.createdBy.requestSessionId

/-- All pending batches are unmixed. -/
def Separated (s : State DB Buf) : Prop :=
  ∀ key b, s.batchedDBJobMap.find key = some b → Unmixed server key b

variable {server}

/-- A batch stays unmixed when a job of its own server joins it. -/
theorem Unmixed.add {b : BatchedDBJob Buf} (hb : Unmixed server p.key b)
    (hp : server p.requestSessionId = server b.createdBy.requestSessionId) :
    Unmixed server p.key (b.add p) := by
  refine ⟨hb.createdBy, hb.sessionId, fun item hitem => ?_⟩
  rcases List.mem_append.mp hitem with hitem | hitem
  · exact hb.jobs item hitem
  · obtain rfl := List.mem_singleton.mp hitem
    exact ⟨rfl, rfl, hp⟩

/-- **A packet leaves the pending batches unmixed.** -/
theorem Separated.handlePacket (hs : Separated server s) :
    Separated server (s.handlePacket handle p).1 := by
  intro key b hfind
  have ht := treated handle s p
  generalize (s.handlePacket handle p).1 = s' at ht hfind
  generalize (s.handlePacket handle p).2 = events at ht
  cases ht with
  | start hid =>
    rcases KeyMap.find_insert_eq_some.mp hfind with hfind | ⟨rfl, -, rfl⟩
    · exact hs key b hfind
    · exact ⟨⟨hid, rfl⟩, rfl, fun item hitem => nomatch hitem⟩
  | invalid => exact hs key b hfind
  | added => exact hs key b (KeyMap.find_of_find_erase hfind)
  | executed => exact hs key b (KeyMap.find_of_find_erase hfind)

/-- The pending batches are unmixed in every run. -/
theorem separated_of_reachable (h : (system handle).Reachable s) : Separated server s := by
  refine System.ReachableUnder.invariant (fun s hinit key b hfind => ?_)
    (fun s p s' hs _ hstep => ?_) h
  · rw [show s.batchedDBJobMap = .empty from hinit] at hfind
    exact nomatch hfind
  · obtain rfl := Option.some.inj hstep
    exact hs.handlePacket handle

/-- **The batches of different game servers do not mix** where a job meets no batch of another
server, whatever happened before. -/
theorem isolated_of_reachable (h : (system handle).Reachable s)
    (hp : MeetsOwnBatch server s p) (hrun : .doBatchedJob run ∈ (s.handlePacket handle p).2) :
    Isolated server run := by
  have hs : Separated server s := separated_of_reachable handle h
  obtain ⟨hid, b, hfind, -, rfl⟩ := runOf_of_executed hrun
  have hserver := hp hid b hfind
  exact ⟨(hs p.key b hfind).add hserver, hserver⟩

/-- Two game servers, on the connections 1 and 2, each start their first batch. -/
def twoStarts : State Unit (List UInt8) :=
  (idleServer.handlePackets succeeds [startPacket 1 1 5 1, startPacket 2 1 6 1]).1

theorem reachable_twoStarts : (system succeeds).Reachable twoStarts := by
  have hinit : (system succeeds).Init idleServer := rfl
  have hrun : (system succeeds).run idleServer [startPacket 1 1 5 1, startPacket 2 1 6 1] =
      some twoStarts := rfl
  exact System.reachable_of_run hinit hrun

/-- The first one's job executes its batch. -/
theorem isolated_firstJob :
    Isolated id (twoStarts.runOf succeeds (jobPacket 1 1 10 [])
      ((startPacket 1 1 5 1).batch.add (jobPacket 1 1 10 []))) := by
  refine isolated_of_reachable succeeds reachable_twoStarts (p := jobPacket 1 1 10 []) ?_ ?_
  · intro _ b hb
    obtain rfl : (startPacket 1 1 5 1).batch = b := Option.some.inj hb
    rfl
  · decide

/-- **The second one's job executes it just as well**: in the first one's batch, for the first one's
session. -/
theorem not_isolated_secondJob :
    ∃ run, .doBatchedJob run ∈ (twoStarts.handlePacket succeeds (jobPacket 2 1 10 [])).2 ∧
      (system succeeds).Reachable twoStarts ∧ ¬ Isolated id run := by
  refine ⟨twoStarts.runOf succeeds (jobPacket 2 1 10 [])
    ((startPacket 1 1 5 1).batch.add (jobPacket 2 1 10 [])), by decide, reachable_twoStarts, ?_⟩
  intro h
  exact absurd h.answered (by decide)

end DBServer

end DdingGameServer
