import DdingGameServer.Common.ScopedLocks
/-!
# GameServer — the locks of the process

Every lock of the game server and its core is held for the length of a block: `ScopeSRWLock`,
`std::lock_guard`, `std::unique_lock` and `std::shared_lock` at its head, or a pair of
`EnterCriticalSection` and `LeaveCriticalSection`. Here each function is what it does with them,
with the functions it calls under a lock spelled out: a `Disconnect` under `pcIdToPCMapLock`, a
record written under `zoneMapLock`, the last reference to a `PC` that is dropped by an `erase`.

The functions take their locks in one order, so that no set of threads ever waits in a circle
(`finishes_of_reachable`). One path does not: where `emplace` refuses a new session,
`MakeNewSession` releases it under `sessionMapLock`, for which `ReleaseSession` takes that lock
again (`stuck_of_makeNewSession`).

A branch is a `choose` and a repetition a `loop`, whatever decides them in the source, and also an
`#if`; a crash is the end of the function. Some loops are never left: that of `Accepter` between two
calls of `accept`, and that of `Reconnecter`. `Logger::Worker` is left out: `RunLoggerThread`, which
starts it, is called by nobody. So are the functions that wait for threads and not for locks,
`main`, `StartServer`, `StopServer` and `Stop`. `DBServer` and `AuthServer` are other processes.
-/

namespace DdingGameServer

namespace GameServer

namespace Locks

open ScopedLocks

/-- The locks of the process. -/
inductive Lock
  | sessionIdToPCMapLock
  | pcIdToPCMapLock
  | objectMapLock
  | zoneMapLock
  | sessionMapLock
  | sessionSetLock
  | jobMapLock
  | reconnectListLock
  | registeredTimerMapLock
  | timerListLock
  | logQueueLock
  /-- `DeadlockChecker::lock`. -/
  | checkerLock
  deriving DecidableEq, Repr

/-- What a function does with the locks. -/
abbrev Function := Code Lock

/-- `SCOPE_WRITE_LOCK`, `std::lock_guard`, `std::unique_lock` and `EnterCriticalSection`. -/
abbrev write (l : Lock) (p : Function) : Function := .scope l .exclusive p

/-- `SCOPE_READ_LOCK` and `std::shared_lock`. -/
abbrev read (l : Lock) (p : Function) : Function := .scope l .shared p

/-- One after the other. -/
def calls (ps : List Function) : Function := ps.foldr .seq .skip

/-- One of them. -/
def oneOf : List Function → Function
  | [] => .skip
  | [p] => p
  | p :: ps => .choose p (oneOf ps)

/-- What is done on one branch only. -/
def optionally (p : Function) : Function := .choose p .skip

/-! ## Logger and DeadlockChecker -/

def writeLog : Function := write .logQueueLock .skip

def printError : Function := writeLog

/-- The lock is taken under `USE_DEDALOCK_CHECKER`. -/
def registerCheckThread : Function := optionally (write .checkerLock .skip)

def deregisteredCheckThread : Function := optionally (write .checkerLock .skip)

/-- It asks every worker for its tick, or returns. -/
def checkDeadlockThread : Function := optionally (.loop (write .checkerLock (.loop .skip)))

/-! ## DBJobManager and the batches -/

def registerDBJob : Function := write .jobMapLock .skip

def getRegistedDBJob : Function := read .jobMapLock .skip

/-- The `erase` drops no last reference: the key it is called with is a batch's own, under which
none is registered. -/
def deregisterDBJob : Function := write .jobMapLock .skip

/-- A reference to a batch is dropped; the last one destroys it. -/
def dropBatchedDBJob : Function := optionally deregisterDBJob

/-- `~PC`, with the runners in `timeLazyRunnerHolder`. -/
def destroyPC : Function := .loop dropBatchedDBJob

def makeBatchedDBJob : Function := registerDBJob

/-- The jobs' own `OnCommit` and `OnRollback` take no lock. -/
def assemblePacket : Function := calls [getRegistedDBJob, dropBatchedDBJob]

/-! ## CMultiLanClient -/

namespace MultiLanClient

def releaseSession : Function := optionally (write .reconnectListLock .skip)

def recvPost : Function := optionally releaseSession

def sendPost : Function := optionally releaseSession

/-- `OnRecv` leads to `AssemblePacket`. -/
def worker : Function :=
  .loop (calls [oneOf [.skip, calls [.loop assemblePacket, recvPost], sendPost],
    optionally releaseSession])

def reconnecter : Function := .loop (calls [write .reconnectListLock .skip, recvPost])

end MultiLanClient

/-- `ExecuteBatchJob`, which sends every job. -/
def executeBatchJob : Function := .loop MultiLanClient.sendPost

/-! ## RIOServer and Broadcaster -/

def onSessionEntered : Function := write .sessionSetLock .skip

def onSessionLeaved : Function := write .sessionSetLock .skip

def getSession : Function := read .sessionMapLock .skip

def disconnect : Function := read .sessionMapLock .skip

def releaseSession : Function := write .sessionMapLock .skip

/-- Where the count reaches 0, -/
def ioCountReachesZero : Function := calls [onSessionLeaved, releaseSession]

/-- or not. -/
def ioCountDecrement : Function := optionally ioCountReachesZero

def recvPost : Function := optionally printError

def makeSendStream : Function := .loop (optionally printError)

def sendPost : Function :=
  .loop (calls [makeSendStream, optionally (calls [printError, ioCountDecrement])])

def sendPacket : Function := sendPost

def braodcastToAllSession : Function :=
  calls [read .sessionSetLock .skip, .loop (calls [getSession, optionally sendPacket])]

/-! ## PCManager, and the only packet handler -/

/-- A duplicate of the PC's id disconnects both sessions under the lock. -/
def insertPC : Function :=
  calls [write .sessionIdToPCMapLock .skip,
    write .pcIdToPCMapLock (optionally (calls [disconnect, disconnect]))]

/-- Each `erase` may drop the last reference to the PC. -/
def erasePCBySessionId : Function :=
  calls [write .sessionIdToPCMapLock (optionally destroyPC),
    optionally (write .pcIdToPCMapLock (optionally destroyPC))]

def erasePCByPCId : Function :=
  calls [write .pcIdToPCMapLock (optionally destroyPC),
    optionally (write .sessionIdToPCMapLock (optionally destroyPC))]

def findPCBySessionId : Function := read .sessionIdToPCMapLock .skip

def findPCByPCId : Function := read .pcIdToPCMapLock .skip

/-- `FireLazyRunnerIfConditionMet` fires runners and writes a record for each that fails. -/
def updateByPing : Function :=
  .loop (calls [executeBatchJob, optionally writeLog, dropBatchedDBJob])

/-- `PacketManager::HandlePacket(RIOSession&, Ping&)`. -/
def handlePacket : Function :=
  calls [findPCBySessionId, optionally (calls [updateByPing, sendPacket]), destroyPC]

/-- `LoadFromDB`, through to `OnFinalizeLoadFromDB`. -/
def loadFromDB : Function := calls [writeLog, writeLog]

def onDBLoadCompleted : Function := insertPC

/-! ## The threads of RIOServer -/

def recvCompleted : Function :=
  calls [.loop (calls [optionally printError, optionally handlePacket]), recvPost,
    optionally releaseSession]

def sendCompleted : Function := oneOf [disconnect, sendPost]

def getIOCompletedContext : Function := calls [getSession, optionally ioCountDecrement]

def invalidIOCompleted : Function := calls [printError, getSession, optionally ioCountDecrement]

def ioCompleted : Function := oneOf [recvCompleted, sendCompleted, invalidIOCompleted]

def worker : Function :=
  calls [registerCheckThread,
    .loop (.loop (calls [getIOCompletedContext,
      optionally (calls [ioCompleted, optionally ioCountDecrement])])),
    deregisteredCheckThread]

/-- **`MakeNewSession`, as far as its `emplace` answers.** Where it refuses, the session's only
reference is given back under the lock. -/
def makeNewSession (emplaced : Bool) : Function :=
  if emplaced then
    oneOf [.skip, printError, calls [write .sessionMapLock .skip, recvPost, ioCountDecrement,
      onSessionEntered]]
  else
    calls [write .sessionMapLock (calls [ioCountReachesZero, printError]), releaseSession]

def accepter : Function := .loop (calls [optionally printError, optionally (makeNewSession true)])

/-! ## GameObjectManager, ZoneManager and TimerManager -/

def insertGameObject : Function := write .objectMapLock .skip

/-- The object may be a PC. -/
def eraseGameObject : Function := write .objectMapLock (optionally destroyPC)

def findObject : Function := read .objectMapLock .skip

def insertZone : Function := write .zoneMapLock writeLog

def deleteZone : Function := write .zoneMapLock (calls [writeLog, writeLog])

def getZone : Function := read .zoneMapLock .skip

def registerTimer : Function := write .registeredTimerMapLock .skip

def stopTimer : Function := write .timerListLock .skip

def deregisterTimer : Function := calls [stopTimer, write .registeredTimerMapLock .skip]

def resumeTimer : Function :=
  calls [write .registeredTimerMapLock .skip, optionally (write .timerListLock .skip)]

def getExpiredTimer : Function := write .timerListLock .skip

def runTimerThread (onTimer : Function) : Function :=
  .loop (calls [getExpiredTimer, .loop onTimer])

/-! ## All of them -/

/-- What the game's own code may call, on any thread. -/
def gameFunctions : List Function :=
  [writeLog, makeBatchedDBJob, executeBatchJob, dropBatchedDBJob, braodcastToAllSession, sendPacket,
    disconnect, insertPC, erasePCBySessionId, erasePCByPCId, findPCBySessionId, findPCByPCId,
    updateByPing, loadFromDB, onDBLoadCompleted, destroyPC, insertGameObject, eraseGameObject,
    findObject, insertZone, deleteZone, getZone, registerTimer, stopTimer, deregisterTimer,
    resumeTimer]

/-- A thread of the game: any calls, in any order. -/
def gameThread : Function := .loop (oneOf gameFunctions)

/-- **What the threads of the process run.** A timer may do whatever the game does. -/
def threadFunctions : List Function :=
  [accepter, worker, MultiLanClient.worker, MultiLanClient.reconnecter, checkDeadlockThread,
    runTimerThread gameThread, gameThread]

/-- The order in which the locks are taken. -/
def rank : Lock → ℕ
  | .sessionIdToPCMapLock | .pcIdToPCMapLock | .objectMapLock | .zoneMapLock => 0
  | .registeredTimerMapLock | .timerListLock | .checkerLock => 0
  | .sessionMapLock | .sessionSetLock | .jobMapLock | .reconnectListLock | .logQueueLock => 1

/-- **Every function takes its locks in that order.** -/
theorem ordered_threadFunctions : ∀ p ∈ threadFunctions, p.ordered rank 0 = true := by
  decide

variable {ps : List Function} {s s' : List (Thread Lock)} {es es' : List (ℕ × Bool)} {i j : ℕ}

/-- The threads before any of them has begun. -/
def start (ps : List Function) : List (Thread Lock) := ps.map fun p => [.code p]

/-- **No deadlock.** However many threads run which functions of the server, and wherever they are:
inside a lock there is one writer or any number of readers, and no thread waits for a lock it holds
itself. Unless all are at their end, one of them can take its next step, whatever is decided on the
way and even if a lock that readers hold lets in no other. And if from some point on no loop goes
round again, they are all at their end after a bounded number of steps, in whatever order they take
them. -/
theorem finishes_of_reachable (hps : ∀ p ∈ ps, p ∈ threadFunctions)
    (h : (threads ps).Reachable s) : Excludes s ∧
    (∀ t ∈ s, ∀ l, wants t = some l → ∀ mode, (l, mode) ∉ held t) ∧
    (¬ Done s → ∃ (i : ℕ) (t : Thread Lock), s[i]? = some t ∧
      ∀ answer, (advance (heldModes s) answer t).isSome = true) ∧
    (∃ es s', (threads ps).Meets Leaves s es ∧ (threads ps).run s es = some s' ∧ Done s') ∧
    ∀ es s', (threads ps).Meets Leaves s es → (threads ps).run s es = some s' →
      es.length ≤ size s ∧ ((∀ e, Leaves s' e → (threads ps).step s' e = none) → Done s') := by
  have hordered : AllOrdered rank s :=
    allOrdered_of_reachable (fun p hp => ordered_threadFunctions p (hps p hp)) h
  refine ⟨excludes_of_reachable h, fun t ht l hl mode hmem => ?_, exists_free hordered,
    finishes hordered⟩
  exact absurd ((hordered t ht).rank_lt_of_wants hl hmem) (Nat.lt_irrefl _)

/-- A worker and a thread of the game, which has begun to erase a PC. -/
theorem finishes_two : ∃ s, (threads [worker, gameThread]).Reachable s ∧
    (∃ t ∈ s, (Lock.pcIdToPCMapLock, LockMode.exclusive) ∈ held t) ∧
    ∃ es s', (threads [worker, gameThread]).run s es = some s' ∧ Done s' ∧
      es.length ≤ size s := by
  obtain ⟨s, hreach, hheld⟩ := System.exists_reachable (threads [worker, gameThread])
    ((1, true) :: List.replicate 9 (1, false) ++ [(1, true), (1, true), (1, true)])
    (f := fun s => s.any fun t => decide ((.pcIdToPCMapLock, .exclusive) ∈ held t)) rfl
    (by decide +kernel)
  obtain ⟨t, ht, hmem⟩ := List.any_eq_true.mp hheld
  have hps : ∀ p ∈ [worker, gameThread], p ∈ threadFunctions := by
    simp [threadFunctions]
  obtain ⟨-, -, -, ⟨es, s', hes, hr, hdone⟩, hbound⟩ := finishes_of_reachable hps hreach
  exact ⟨s, hreach, ⟨t, ht, of_decide_eq_true hmem⟩, es, s', hr, hdone, (hbound es s' hes hr).1⟩

/-! ## A session that is refused -/

theorem dooms_makeNewSession : (makeNewSession false).dooms .sessionMapLock = true := by
  decide

/-- A completion is looked up under the lock. -/
theorem takes_getIOCompletedContext : getIOCompletedContext.takes .sessionMapLock = true := by
  decide

/-- **A refused session stops the accepter for good**, among any other threads and whatever it does
before; and once it is inside `sessionMapLock`, so does every thread that has to take that lock. -/
theorem stuck_of_makeNewSession {before after : Function}
    (hi : ps[i]? = some (.seq before (.seq (makeNewSession false) after)))
    (hr : (threads ps).run (start ps) es = some s) : s[i]? ≠ some [] ∧
    ∀ t, s[i]? = some t → Trapped .sessionMapLock t →
      ∀ (j : ℕ) (u : Thread Lock), s[j]? = some u → Has (Code.takes Lock.sessionMapLock) u →
        ∀ es' s', (threads ps).run s es' = some s' → s'[j]? ≠ some [] := by
  constructor
  · refine not_done_of_doomed (l := .sessionMapLock) ?_ hr
    refine ⟨[.code (.seq before (.seq (makeNewSession false) after))], ?_,
      .inr ⟨_, List.mem_singleton_self _, ?_⟩⟩
    · rw [start, List.getElem?_map, hi, Option.map_some]
    · simp only [Code.dooms, dooms_makeNewSession, Bool.true_or, Bool.or_true]
  · intro t ht htrapped j u hu htakes es' s' hr'
    exact not_done_of_starves ⟨⟨t, ht, htrapped⟩, u, hu, htakes⟩ hr'

/-- The accepter is refused, and a worker is about to look a completion up. -/
theorem stuck_two : ∃ s s',
    (threads [.seq .skip (.seq (makeNewSession false) .skip), getIOCompletedContext]).run
      (start [.seq .skip (.seq (makeNewSession false) .skip), getIOCompletedContext])
      (List.replicate 5 (0, true)) = some s ∧
    (threads [.seq .skip (.seq (makeNewSession false) .skip), getIOCompletedContext]).run s
      [(1, true)] = some s' ∧ s[0]? ≠ some [] ∧ s'[1]? ≠ some [] := by
  have hr : (threads [.seq .skip (.seq (makeNewSession false) .skip), getIOCompletedContext]).run
      (start [.seq .skip (.seq (makeNewSession false) .skip), getIOCompletedContext])
      (List.replicate 5 (0, true)) = some
        [[.code (calls [ioCountReachesZero, printError]), .unlock .sessionMapLock .exclusive,
            .code (.seq releaseSession .skip), .code .skip],
          [.code getIOCompletedContext]] := rfl
  have hstuck := stuck_of_makeNewSession (i := 0) rfl hr
  refine ⟨_, _, hr, rfl, hstuck.1, ?_⟩
  refine hstuck.2 _ rfl ⟨_, _, rfl, _, List.mem_singleton_self _, rfl⟩ 1 _ rfl
    ⟨getIOCompletedContext, List.mem_singleton_self _, takes_getIOCompletedContext⟩
    [(1, true)] _ rfl

end Locks

end GameServer

end DdingGameServer
