import DdingGameServer.Common.KeyMap
import DdingGameServer.Common.System
import DdingGameServer.GameDB.Protocol
/-!
# DBJobManager — who has which key

`MakeBatchedDBJob` constructs a batch, whose constructor draws a key from the manager's counter, and
registers it, for which `RegisterDBJob` draws another one under the lock of the map. Any number of
threads do so at once: one event is one atomic step of one of them.

The counter is kept unwrapped; a draw yields it as a `UINT64`.
-/

namespace DdingGameServer

namespace GameDB

/-- How far the call of `MakeBatchedDBJob` that makes a batch has come. -/
inductive Progress
  /-- The batch is constructed, `RegisterDBJob` not yet entered. -/
  | constructed
  /-- `RegisterDBJob` holds `jobMapLock` and has drawn `key`. -/
  | registering (key : DBJobKey)
  | returned
  deriving DecidableEq, Repr

/-- A `BatchedDBJob`, with the call that makes it. -/
structure RegisteredJob where
  dbJobKey : DBJobKey
  progress : Progress
  /-- History: `DeregisterDBJob` was called with its key after it was returned. -/
  deregistered : Bool
  deriving DecidableEq, Repr

/-- **`DBJobManager`** and the batches, which are known by the order of their construction. -/
structure DBJobManager where
  jobKey : ℕ
  jobMap : KeyMap DBJobKey ℕ
  batches : List RegisteredJob

/-- A step of some thread. -/
inductive ManagerEvent
  /-- The constructor of `BatchedDBJob`. -/
  | construct
  /-- `RegisterDBJob` on a batch, up to its `fetch_add`. -/
  | lockAndDraw (b : ℕ)
  /-- The rest of `RegisterDBJob`; the call returns the batch. -/
  | insert (b : ℕ)
  | deregisterDBJob (jobKey : DBJobKey)
  deriving DecidableEq, Repr

namespace DBJobManager

variable (m : DBJobManager)

/-- `GetDBJobKey`, and the draw in `RegisterDBJob`: a `fetch_add`. -/
def drawn : DBJobKey := UInt64.ofNat m.jobKey

/-- `jobMapLock` is held by a `RegisterDBJob`. -/
def locked : Bool := m.batches.any fun batch =>
  match batch.progress with
  | .registering _ => true
  | _ => false

/-- What `DeregisterDBJob` with `key` means for a batch. -/
def noteDeregistered (key : DBJobKey) (batch : RegisteredJob) : RegisteredJob :=
  if batch.progress = .returned ∧ batch.dbJobKey = key then { batch with deregistered := true }
  else batch

def step : ManagerEvent → Option DBJobManager
  | .construct =>
    some { m with
      jobKey := m.jobKey + 1
      batches := m.batches ++
        [{ dbJobKey := m.drawn, progress := .constructed, deregistered := false }] }
  | .lockAndDraw b =>
    match m.batches[b]? with
    | some batch =>
      if batch.progress = .constructed ∧ m.locked = false then
        some { m with
          jobKey := m.jobKey + 1
          batches := m.batches.set b { batch with progress := .registering m.drawn } }
      else none
    | none => none
  | .insert b =>
    match m.batches[b]? with
    | some batch =>
      match batch.progress with
      | .registering key =>
        some { m with
          jobMap := m.jobMap.insert key b
          batches := m.batches.set b { batch with progress := .returned } }
      | _ => none
    | none => none
  | .deregisterDBJob key =>
    if m.locked = false then
      some { m with
        jobMap := m.jobMap.erase key
        batches := m.batches.map (noteDeregistered key) }
    else none

/-- The manager before the first call. -/
def start : DBJobManager where
  jobKey := 1
  jobMap := .empty
  batches := []

/-- `GetRegistedDBJob`. -/
def getRegistedDBJob (jobKey : DBJobKey) : Option ℕ := m.jobMap.find jobKey

end DBJobManager

/-- What `AssemblePacket` calls on a batch. -/
inductive Settlement
  | onCommit
  | onRollback
  deriving DecidableEq, Repr

/-- `DBJobReply`, with its defaults. -/
structure DBJobReply where
  jobKey : DBJobKey := invalidDBJobKey
  isSuccessed : Bool := false
  deriving DecidableEq, Repr

/-- `ProcedureReplyHandler::AssemblePacket`: which batch a reply settles, and how. -/
def assemblePacket (m : DBJobManager) (packet : DBJobReply) : Option (ℕ × Settlement) :=
  match m.getRegistedDBJob packet.jobKey with
  | none => none
  | some batchJob =>
    if packet.isSuccessed = false then some (batchJob, .onRollback)
    else some (batchJob, .onCommit)

/-- The manager as a transition system. -/
def managerSystem : System DBJobManager ManagerEvent where
  Init m := m = DBJobManager.start
  step := DBJobManager.step

/-! ## What a step does -/

variable {m m' : DBJobManager} {e : ManagerEvent}

/-- **Every step, with what it needs and what it leaves.** -/
inductive Advances (m : DBJobManager) : ManagerEvent → DBJobManager → Prop
  | construct : Advances m .construct
      { m with
        jobKey := m.jobKey + 1
        batches := m.batches ++
          [{ dbJobKey := m.drawn, progress := .constructed, deregistered := false }] }
  | lockAndDraw {b : ℕ} {batch : RegisteredJob} : m.batches[b]? = some batch →
      batch.progress = .constructed → m.locked = false →
      Advances m (.lockAndDraw b)
        { m with
          jobKey := m.jobKey + 1
          batches := m.batches.set b { batch with progress := .registering m.drawn } }
  | insert {b : ℕ} {batch : RegisteredJob} {key : DBJobKey} : m.batches[b]? = some batch →
      batch.progress = .registering key →
      Advances m (.insert b)
        { m with
          jobMap := m.jobMap.insert key b
          batches := m.batches.set b { batch with progress := .returned } }
  | deregisterDBJob {key : DBJobKey} : m.locked = false →
      Advances m (.deregisterDBJob key)
        { m with
          jobMap := m.jobMap.erase key
          batches := m.batches.map (DBJobManager.noteDeregistered key) }

theorem advances (h : m.step e = some m') : Advances m e m' := by
  cases e with
  | construct =>
    obtain rfl := Option.some.inj h
    exact .construct
  | lockAndDraw b =>
    rw [DBJobManager.step] at h
    split at h
    · rename_i batch hb
      split at h
      · rename_i hc
        obtain rfl := Option.some.inj h
        exact .lockAndDraw hb hc.1 hc.2
      · exact nomatch h
    · exact nomatch h
  | insert b =>
    rw [DBJobManager.step] at h
    split at h
    · rename_i batch hb
      split at h
      · rename_i key hkey
        obtain rfl := Option.some.inj h
        exact .insert hb hkey
      · exact nomatch h
    · exact nomatch h
  | deregisterDBJob key =>
    rw [DBJobManager.step] at h
    split at h
    · rename_i hlock
      obtain rfl := Option.some.inj h
      exact .deregisterDBJob hlock
    · exact nomatch h

end GameDB

end DdingGameServer
