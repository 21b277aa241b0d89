import DdingGameServer.Common.KeyMap
import DdingGameServer.Common.System
import DdingGameServer.GameDB.Protocol
/-!
# DBServer — batches of database jobs

A game server sends the start packet of a batch and then its jobs. `HandlePacket` keeps the batches
that wait for jobs in `batchedDBJobMap`, under the key the packets carry, and `DoBatchedJob` runs a
batch in one database transaction and answers the connection its last packet came from.

The stored procedures are not written yet (the switch of `DBJobHandleImpl` is empty), so what a job
does to the database and whether it succeeds is a parameter. The ODBC calls succeed; a commit keeps
what the jobs did, a rollback puts back the database they found.
-/

namespace DdingGameServer

namespace DBServer

open GameDB

universe u v

/-- `DBJobHandleImpl`: from the database, the requesting connection, the session the batch is for,
the packet id and the buffer, the job's result and the database after it. -/
abbrev DBJobHandler (DB : Type v) (Buf : Type u) :=
  DB → UInt64 → SessionId → PacketId → Buf → Bool × DB

/-- The arguments of one call of `HandlePacket`. -/
structure Packet (Buf : Type u) where
  requestSessionId : UInt64
  packetId : PacketId
  recvBuffer : Buf
  deriving DecidableEq

/-- An entry of `bufferList`. -/
structure Item (Buf : Type u) where
  packetId : PacketId
  recvBuffer : Buf
  /-- History: the packet it came with. -/
  packet : Packet Buf
  deriving DecidableEq

/-- A `BatchedDBJob`. -/
structure BatchedDBJob (Buf : Type u) where
  batchSize : UInt8
  sessionId : SessionId
  bufferList : List (Item Buf)
  /-- History: the start packet it was made for. -/
  createdBy : Packet Buf
  deriving DecidableEq

/-- What `DoBatchedJob` writes into its reply, in this order. -/
structure ResultPacket where
  jobKey : DBJobKey
  isSuccess : Bool
  deriving DecidableEq, Repr

/-- The completion type given to `SQLEndTran`. -/
inductive CompletionType
  | sqlCommit
  | sqlRollback
  deriving DecidableEq, Repr

/-- What `DoBatchedJob` does to its connection and to the network. -/
inductive Effect (Buf : Type u)
  | autocommitOff
  | dbJobHandleImpl (item : Item Buf) (result : Bool)
  | sqlEndTran (completion : CompletionType)
  | sendPacket (requestSessionId : UInt64) (resultPacket : ResultPacket)
  | autocommitOn
  deriving DecidableEq

/-- One execution of `DoBatchedJob`. -/
structure BatchRun (Buf : Type u) where
  requestSessionId : UInt64
  jobKey : DBJobKey
  batchedJob : BatchedDBJob Buf
  effects : List (Effect Buf)
  deriving DecidableEq

/-- What a call of `HandlePacket` does besides changing the map. -/
inductive Event (Buf : Type u)
  | procedureHandleImpl (requestSessionId : UInt64) (packetId : PacketId)
  | doBatchedJob (run : BatchRun Buf)
  /-- `Receive invalid job` is printed. -/
  | invalidJob (requestSessionId : UInt64) (packetId : PacketId)
  deriving DecidableEq

variable {DB : Type v} {Buf : Type u}

/-! ## Executing a batch -/

/-- The loop over `bufferList`: the jobs run, each with its result, and the database after them. -/
def jobLoop (handle : DBJobHandler DB Buf) (requestSessionId : UInt64) (sessionId : SessionId)
    (isSuccess : Bool) : DB → List (Item Buf) → List (Item Buf × Bool) × DB
  | db, [] => ([], db)
  | db, item :: rest =>
    let (result, db) := handle db requestSessionId sessionId item.packetId item.recvBuffer
    if isSuccess = false then
      ([(item, result)], db)
    else
      let (ran, db) := jobLoop handle requestSessionId sessionId isSuccess db rest
      ((item, result) :: ran, db)

/-- `DoBatchedJob`. -/
def doBatchedJob (handle : DBJobHandler DB Buf) (db : DB) (requestSessionId : UInt64)
    (jobKey : DBJobKey) (batchedJob : BatchedDBJob Buf) : List (Effect Buf) × DB :=
  -- `result` of the loop is a local of its body: nothing assigns `isSuccess` again.
  let isSuccess := true
  let (ran, db') := jobLoop handle requestSessionId batchedJob.sessionId isSuccess db
    batchedJob.bufferList
  let completion := if isSuccess = true then .sqlCommit else .sqlRollback
  (.autocommitOff :: ran.map (fun (item, result) => .dbJobHandleImpl item result) ++
    [.sqlEndTran completion, .sendPacket requestSessionId ⟨jobKey, isSuccess⟩, .autocommitOn],
   if isSuccess = true then db' else db)

/-! ## Collecting batches -/

variable [SerializationBuf Buf]

/-- The buffer of a reply. -/
def ResultPacket.buffer (r : ResultPacket) : Buf := writeBool (writeUInt64 alloc r.jobKey) r.isSuccess

/-- What `HandlePacket` reads from a packet: the key, and for a start packet the `DBJobStart`. -/
inductive Request (Buf : Type u)
  | batchStart (key : DBJobKey) (job : DBJobStart)
  | job (key : DBJobKey) (packetId : PacketId) (recvBuffer : Buf)
  deriving DecidableEq

def readRequest (packetId : PacketId) (recvBuffer : Buf) : Request Buf :=
  let (key, recvBuffer) := readUInt64 recvBuffer
  if packetId = game2DBBatchedDBJob then
    let (sessionId, recvBuffer) := readUInt64 recvBuffer
    let (batchSize, _) := readUInt32 recvBuffer
    .batchStart key { sessionId, batchSize }
  else .job key packetId recvBuffer

/-- The key a packet carries. -/
def Packet.key (p : Packet Buf) : DBJobKey := (readUInt64 p.recvBuffer).1

/-- What a packet with the id of a start packet starts. -/
def Packet.start (p : Packet Buf) : DBJobStart :=
  let recvBuffer := (readUInt64 p.recvBuffer).2
  { sessionId := (readUInt64 recvBuffer).1
    batchSize := (readUInt32 (readUInt64 recvBuffer).2).1 }

/-- The entry of `bufferList` a packet leads to. -/
def Packet.item (p : Packet Buf) : Item Buf :=
  { packetId := p.packetId, recvBuffer := (readUInt64 p.recvBuffer).2, packet := p }

/-- **The part of `DBServer` the packets work on.** -/
structure State (DB : Type v) (Buf : Type u) where
  batchedDBJobMap : KeyMap DBJobKey (BatchedDBJob Buf)
  db : DB

namespace State

variable (handle : DBJobHandler DB Buf) (s : State DB Buf)

/-- `InsertBatchJob`. The constructor of `BatchedDBJob` takes the size as an `unsigned char`. -/
def insertBatchJob (jobKey : DBJobKey) (job : DBJobStart) (createdBy : Packet Buf) :
    State DB Buf :=
  let batchedJob : BatchedDBJob Buf :=
    { batchSize := job.batchSize.toUInt8, sessionId := job.sessionId, bufferList := [], createdBy }
  { s with batchedDBJobMap := s.batchedDBJobMap.insert jobKey batchedJob }

/-- `IsBatchJobWaitingJob`. -/
def isBatchJobWaitingJob (jobKey : DBJobKey) : Bool := (s.batchedDBJobMap.find jobKey).isSome

/-- `AddItemForJobStart`. -/
def addItemForJobStart (p : Packet Buf) (jobKey : DBJobKey) (item : Item Buf) :
    State DB Buf × List (Event Buf) :=
  match s.batchedDBJobMap.find jobKey with
  | none => (s, [])
  | some batchedJob =>
    let s := { s with batchedDBJobMap := s.batchedDBJobMap.erase jobKey }
    let batchedJob := { batchedJob with bufferList := batchedJob.bufferList ++ [item] }
    if batchedJob.batchSize.toNat = batchedJob.bufferList.length then
      let (effects, db) := doBatchedJob handle s.db p.requestSessionId jobKey batchedJob
      ({ s with db }, [.doBatchedJob ⟨p.requestSessionId, jobKey, batchedJob, effects⟩])
    else (s, [])

/-- `HandlePacket`. -/
def handlePacket (p : Packet Buf) : State DB Buf × List (Event Buf) :=
  match readRequest p.packetId p.recvBuffer with
  | .batchStart key job => (s.insertBatchJob key job p, [])
  | .job key packetId recvBuffer =>
    -- Nothing returns after the procedure: the packet is looked up as a job too.
    let procedure := if key = 0 then [.procedureHandleImpl p.requestSessionId packetId] else []
    if s.isBatchJobWaitingJob key then
      let (s, events) := s.addItemForJobStart handle p key ⟨packetId, recvBuffer, p⟩
      (s, procedure ++ events)
    else (s, procedure ++ [.invalidJob p.requestSessionId packetId])

/-- `OnRecv`. -/
def onRecv (receivedSessionId : UInt64) (outReadBuf : Buf) : State DB Buf × List (Event Buf) :=
  let (packetId, outReadBuf) := readUInt32 outReadBuf
  s.handlePacket handle ⟨receivedSessionId, packetId, outReadBuf⟩

/-- A sequence of packets, each with what handling it did. -/
def handlePackets (s : State DB Buf) :
    List (Packet Buf) → State DB Buf × List (Packet Buf × List (Event Buf))
  | [] => (s, [])
  | p :: ps =>
    let (s₁, events) := s.handlePacket handle p
    let (s₂, rest) := handlePackets s₁ ps
    (s₂, (p, events) :: rest)

end State

/-- DBServer as a transition system over the packets it is given; it starts with no batch. -/
def system (handle : DBJobHandler DB Buf) : System (State DB Buf) (Packet Buf) where
  Init s := s.batchedDBJobMap = .empty
  step s p := some (s.handlePacket handle p).1

/-! ## What handling a packet does -/

variable {handle : DBJobHandler DB Buf} {s s' : State DB Buf} {p : Packet Buf}
  {events : List (Event Buf)}

/-- `ProcedureHandleImpl` is called for a job with key 0. -/
def Packet.procedure (p : Packet Buf) : List (Event Buf) :=
  if p.key = 0 then [.procedureHandleImpl p.requestSessionId p.packetId] else []

/-- The batch a start packet makes. -/
def Packet.batch (p : Packet Buf) : BatchedDBJob Buf :=
  { batchSize := p.start.batchSize.toUInt8, sessionId := p.start.sessionId, bufferList := [],
    createdBy := p }

/-- A batch with the item of one more packet. -/
def BatchedDBJob.add (b : BatchedDBJob Buf) (p : Packet Buf) : BatchedDBJob Buf :=
  { b with bufferList := b.bufferList ++ [p.item] }

/-- The execution of a batch at the packet that completed it. -/
def State.runOf (handle : DBJobHandler DB Buf) (s : State DB Buf) (p : Packet Buf)
    (b : BatchedDBJob Buf) : BatchRun Buf where
  requestSessionId := p.requestSessionId
  jobKey := p.key
  batchedJob := b
  effects := (doBatchedJob handle s.db p.requestSessionId p.key b).1

/-- **Everything `HandlePacket` can do with a packet.** -/
inductive Treated (handle : DBJobHandler DB Buf) (s : State DB Buf) (p : Packet Buf) :
    State DB Buf → List (Event Buf) → Prop
  | start : p.packetId = game2DBBatchedDBJob →
      Treated handle s p
        { s with batchedDBJobMap := s.batchedDBJobMap.insert p.key p.batch } []
  | invalid : p.packetId ≠ game2DBBatchedDBJob → s.batchedDBJobMap.find p.key = none →
      Treated handle s p s (p.procedure ++ [.invalidJob p.requestSessionId p.packetId])
  | added (b : BatchedDBJob Buf) : p.packetId ≠ game2DBBatchedDBJob →
      s.batchedDBJobMap.find p.key = some b →
      b.batchSize.toNat ≠ b.bufferList.length + 1 →
      Treated handle s p { s with batchedDBJobMap := s.batchedDBJobMap.erase p.key } p.procedure
  | executed (b : BatchedDBJob Buf) : p.packetId ≠ game2DBBatchedDBJob →
      s.batchedDBJobMap.find p.key = some b →
      b.batchSize.toNat = b.bufferList.length + 1 →
      Treated handle s p
        { batchedDBJobMap := s.batchedDBJobMap.erase p.key
          db := (doBatchedJob handle s.db p.requestSessionId p.key (b.add p)).2 }
        (p.procedure ++ [.doBatchedJob (s.runOf handle p (b.add p))])

/-- **`HandlePacket` inverted.** -/
theorem treated (handle : DBJobHandler DB Buf) (s : State DB Buf) (p : Packet Buf) :
    Treated handle s p (s.handlePacket handle p).1 (s.handlePacket handle p).2 := by
  by_cases hid : p.packetId = game2DBBatchedDBJob
  · have heq : s.handlePacket handle p =
        ({ s with batchedDBJobMap := s.batchedDBJobMap.insert p.key p.batch }, []) := by
      simp only [State.handlePacket, readRequest, hid, if_true]
      rfl
    rw [heq]
    exact .start hid
  · cases hfind : s.batchedDBJobMap.find p.key with
    | none =>
      have heq : s.handlePacket handle p =
          (s, p.procedure ++ [.invalidJob p.requestSessionId p.packetId]) := by
        have hfind' : s.batchedDBJobMap.find (readUInt64 p.recvBuffer).1 = none := hfind
        simp only [State.handlePacket, readRequest, hid, if_false,
          State.isBatchJobWaitingJob, hfind', Option.isSome_none]
        rfl
      rw [heq]
      exact .invalid hid hfind
    | some b =>
      have hfind' : s.batchedDBJobMap.find (readUInt64 p.recvBuffer).1 = some b := hfind
      by_cases hn : b.batchSize.toNat = b.bufferList.length + 1
      · have heq : s.handlePacket handle p =
            ({ batchedDBJobMap := s.batchedDBJobMap.erase p.key
               db := (doBatchedJob handle s.db p.requestSessionId p.key (b.add p)).2 },
             p.procedure ++ [.doBatchedJob (s.runOf handle p (b.add p))]) := by
          simp only [State.handlePacket, readRequest, hid, if_false,
            State.isBatchJobWaitingJob, State.addItemForJobStart, hfind',
            Option.isSome_some, if_true, List.length_append, List.length_singleton, hn]
          rfl
        rw [heq]
        exact .executed b hid hfind hn
      · have heq : s.handlePacket handle p =
            ({ s with batchedDBJobMap := s.batchedDBJobMap.erase p.key }, p.procedure) := by
          simp only [State.handlePacket, readRequest, hid, if_false,
            State.isBatchJobWaitingJob, State.addItemForJobStart, hfind',
            Option.isSome_some, if_true, List.length_append, List.length_singleton, hn,
            List.append_nil]
          rfl
        rw [heq]
        exact .added b hid hfind hn

/-- **What is executed** is the batch the packet joins, complete with it. -/
theorem runOf_of_executed {run : BatchRun Buf}
    (hrun : .doBatchedJob run ∈ (s.handlePacket handle p).2) :
    p.packetId ≠ game2DBBatchedDBJob ∧ ∃ b, s.batchedDBJobMap.find p.key = some b ∧
      b.batchSize.toNat = b.bufferList.length + 1 ∧ run = s.runOf handle p (b.add p) := by
  have hprocedure : .doBatchedJob run ∉ p.procedure := by
    unfold Packet.procedure
    split <;> simp
  have ht := treated handle s p
  generalize (s.handlePacket handle p).1 = s' at ht
  generalize (s.handlePacket handle p).2 = events at ht hrun
  cases ht with
  | start => exact nomatch hrun
  | invalid => simp [hprocedure] at hrun
  | added => exact absurd hrun hprocedure
  | executed b hid hfind hn => exact ⟨hid, b, hfind, hn, by simpa [hprocedure] using hrun⟩

/-! ## Packets as bytes -/

/-- The packets a game server means to send, on the connection `c`. -/
def startPacket (c key sessionId : UInt64) (batchSize : UInt32) : Packet (List UInt8) :=
  ⟨c, game2DBBatchedDBJob,
    toBytes 8 key.toNat ++ (toBytes 8 sessionId.toNat ++ toBytes 4 batchSize.toNat)⟩

def jobPacket (c key : UInt64) (packetId : PacketId) (payload : List UInt8) :
    Packet (List UInt8) :=
  ⟨c, packetId, toBytes 8 key.toNat ++ payload⟩

/-- A server without batches; no job does anything to its database. -/
def idleServer : State Unit (List UInt8) := ⟨.empty, ()⟩

def succeeds : DBJobHandler Unit (List UInt8) := fun _ _ _ _ _ => (true, ())

end DBServer

end DdingGameServer
