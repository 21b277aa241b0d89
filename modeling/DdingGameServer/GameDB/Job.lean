import DdingGameServer.Common.Channels
import DdingGameServer.GameDB.Protocol
/-!
# DBJob — sending a batch to DBServer

A `DBJob` writes its packet into a buffer when it is constructed, leaving a gap for the key of the
batch; `ExecuteBatchJob` sends a start packet and then executes the jobs, each of which fills its
gap and hands its buffer to a channel of `CMultiLanClient`. A channel is a connection to DBServer;
which one a packet takes is decided packet by packet, round robin over all threads of the process.

Buffers are known by their place in `heap`, where the constructors put them. A step that would make
the process crash, or leave a vector's range, is `none`.
-/

namespace DdingGameServer

namespace GameDB

universe u

variable {Buf : Type u}

/-! ## Jobs and batches -/

/-- `IGameAndDBPacket`, as far as a `DBJob` uses it. -/
structure IGameAndDBPacket (Buf : Type u) where
  getPacketId : PacketId
  /-- Appends nothing unless it is overridden. -/
  packetToBuffer : Buf → Buf := id

/-- `DBJobStart` overrides `GetPacketId` only. -/
def DBJobStart.toPacket (_ : DBJobStart) : IGameAndDBPacket Buf where
  getPacketId := game2DBBatchedDBJob

/-- A pointer into a buffer: the buffer, and the offset in it. -/
structure Position where
  buffer : ℕ
  offset : ℕ
  deriving DecidableEq, Repr

/-- The pointers of a `DBJob`. -/
structure DBJob where
  jobSPBuffer : Option ℕ
  jobKeyPosition : Option Position
  deriving DecidableEq, Repr

/-- The constructor of `DBJob`. The buffer it fills is a local: `jobSPBuffer` keeps its default. -/
def makeDBJob [SerializationBuf Buf] (heap : List Buf) (packet : IGameAndDBPacket Buf) :
    DBJob × List Buf :=
  let buffer := writeUInt32 alloc packet.getPacketId
  let jobKeyPosition := getWriteBufferPtr buffer
  let buffer := moveWritePos buffer 8
  let buffer := packet.packetToBuffer buffer
  ({ jobSPBuffer := none, jobKeyPosition := some ⟨heap.length, jobKeyPosition⟩ }, heap ++ [buffer])

/-- `ERROR_CODE`, of which `AddDBJob` returns the error. -/
inductive ErrorCode
  | batchedDBJobSizeOverflowed
  deriving DecidableEq, Repr

/-- **A `BatchedDBJob`.** `AddDBJob` keeps it within its maximal size. -/
structure BatchedDBJob where
  /-- The session id of `owner`. -/
  sessionId : SessionId
  dbJobKey : DBJobKey
  jobList : List DBJob
  size_le : jobList.length ≤ maximumBatchedDBJobSize

/-- `AddDBJob`. -/
def BatchedDBJob.addDBJob (b : BatchedDBJob) (job : DBJob) : Except ErrorCode BatchedDBJob :=
  if h : maximumBatchedDBJobSize ≤ b.jobList.length then .error .batchedDBJobSizeOverflowed
  else .ok { b with
    jobList := b.jobList ++ [job]
    size_le := by
      rw [List.length_append, List.length_singleton]
      omega }

/-! ## The client -/

/-- Who sent a packet: the batch at hand, as its `i`-th (0 is the start packet), or anybody else. -/
inductive Sender
  | batch (i : ℕ)
  | other
  deriving DecidableEq, Repr

/-- An entry of a `SendQ`. -/
structure Sent where
  buffer : ℕ
  /-- History. -/
  sender : Sender
  deriving DecidableEq, Repr

/-- **`DBClient`**, that is `CMultiLanClient`, and the buffers of the process. -/
structure DBClient (Buf : Type u) where
  heap : List Buf
  /-- `m_byNumOfWorkerThread`. -/
  numOfWorkerThread : UInt8
  /-- `m_channelSelector`. -/
  channelSelector : UInt64
  /-- The `SendQ` of each session. -/
  sessionList : List (List Sent)
  /-- History: what this thread handed to a channel, as it was then. -/
  handed : List (Option Buf)

/-- What other threads do between two sends of one: the selector they advance, and the packets they
put into channels. -/
structure Interference where
  draws : ℕ
  packets : List (ℕ × ℕ)

namespace DBClient

variable (c : DBClient Buf)

/-- Other threads send. -/
def interfere (others : Interference) : DBClient Buf :=
  { c with
    channelSelector := c.channelSelector + UInt64.ofNat others.draws
    sessionList := others.packets.foldl
      (fun sessionList (channelId, buffer) => enqueue sessionList channelId ⟨buffer, .other⟩)
      c.sessionList }

/-- `GetChannelId`. -/
def getChannelId : Option (UInt64 × DBClient Buf) :=
  let channelSelector := c.channelSelector + 1
  if c.numOfWorkerThread = 0 then none
  else some (channelSelector % c.numOfWorkerThread.toUInt64, { c with channelSelector })

/-- `SendPacketImpl`, up to `SendPost`. -/
def sendPacketImpl (sender : Sender) (serializeBuf : Option ℕ) (channelId : UInt64) :
    Option (Bool × DBClient Buf) :=
  match serializeBuf with
  | none => some (false, c)
  | some buffer =>
    if channelId.toNat < c.sessionList.length then
      some (true, { c with
        sessionList := enqueue c.sessionList channelId.toNat ⟨buffer, sender⟩
        handed := c.handed ++ [c.heap[buffer]?] })
    else none

/-- `SendPacket`, without a fixed id. -/
def sendPacket (sender : Sender) (serializeBuf : Option ℕ) : Option (Bool × DBClient Buf) := do
  let (channelId, c) ← c.getChannelId
  c.sendPacketImpl sender serializeBuf channelId

/-- `SendPacketToFixedChannel` on a job. -/
def sendPacketToFixedChannel (sender : Sender) (dbJob : DBJob) : Option (DBClient Buf) := do
  let (_, c) ← c.sendPacket sender dbJob.jobSPBuffer
  some c

end DBClient

/-! ## Executing a batch -/

variable [SerializationBuf Buf]

/-- What reading eight bytes at an address gives; `none` where the process may not read. -/
abbrev Memory := UInt64 → Option UInt64

/-- `ExecuteJob`. The key is used as an address: what is stored is what stands there. -/
def executeJob (readMemory : Memory) (c : DBClient Buf) (sender : Sender) (job : DBJob)
    (batchDBJobKey : DBJobKey) : Option (Bool × DBClient Buf) :=
  match job.jobSPBuffer, job.jobKeyPosition with
  | some _, some position =>
    (readMemory batchDBJobKey).bind fun value => do
      let heap := c.heap.modify position.buffer fun buffer => store buffer position.offset value
      let c ← { c with heap }.sendPacketToFixedChannel sender job
      some (true, c)
  | _, _ => some (false, c)

/-- The loop of `ExecuteBatchJob`; `others i` is what other threads do before the `i`-th packet. -/
def executeJobs (readMemory : Memory) (dbJobKey : DBJobKey) (others : ℕ → Interference) :
    ℕ → DBClient Buf → List DBJob → Option (DBClient Buf)
  | _, c, [] => some c
  | i, c, job :: rest => do
    let (_, c) ← executeJob readMemory (c.interfere (others i)) (.batch i) job dbJobKey
    executeJobs readMemory dbJobKey others (i + 1) c rest

/-- The sends of `ExecuteBatchJob`. -/
def sendBatch (readMemory : Memory) (others : ℕ → Interference) (c : DBClient Buf)
    (batchStartJob : DBJob) (dbJobKey : DBJobKey) (jobList : List DBJob) :
    Option (DBClient Buf) := do
  let c ← (c.interfere (others 0)).sendPacketToFixedChannel (.batch 0) batchStartJob
  executeJobs readMemory dbJobKey others 1 c jobList

/-- `ExecuteBatchJob`; it returns `SUCCESS` whatever happens. -/
def executeBatchJob (readMemory : Memory) (others : ℕ → Interference) (c : DBClient Buf)
    (b : BatchedDBJob) : Option (DBClient Buf) :=
  let dbJobStartPacket : DBJobStart :=
    { batchSize := UInt32.ofNat b.jobList.length, sessionId := b.sessionId }
  let (batchStartJob, heap) := makeDBJob c.heap dbJobStartPacket.toPacket
  sendBatch readMemory others { c with heap } batchStartJob b.dbJobKey b.jobList

/-! ## One packet -/

variable {c c' : DBClient Buf} {sender : Sender} {job : DBJob} {buffer : ℕ} {readMemory : Memory}
  {dbJobKey : DBJobKey} {ok : Bool}

/-- The channel the next packet takes. -/
def DBClient.nextChannel (c : DBClient Buf) : UInt64 :=
  (c.channelSelector + 1) % c.numOfWorkerThread.toUInt64

omit [SerializationBuf Buf] in
/-- **A packet goes to the end of the next channel**, if there is one. -/
theorem sendPacket_eq_some :
    c.sendPacket sender (some buffer) = some (ok, c') ↔
      c.numOfWorkerThread ≠ 0 ∧ c.nextChannel.toNat < c.sessionList.length ∧ ok = true ∧
        c' = { c with
          channelSelector := c.channelSelector + 1
          sessionList := enqueue c.sessionList c.nextChannel.toNat ⟨buffer, sender⟩
          handed := c.handed ++ [c.heap[buffer]?] } := by
  unfold DBClient.sendPacket DBClient.getChannelId DBClient.sendPacketImpl DBClient.nextChannel
  by_cases hW : c.numOfWorkerThread = 0
  · simp [hW]
  · simp only [hW, if_false, Option.bind_eq_bind, Option.bind_some, not_false_eq_true, true_and,
      ne_eq]
    split
    · rename_i hlt
      simp only [hlt, true_and, Option.some.injEq, Prod.mk.injEq]
      exact and_congr eq_comm eq_comm
    · rename_i hlt
      exact iff_of_false (fun h => nomatch h) fun h => hlt h.1

omit [SerializationBuf Buf] in
/-- **Nothing is handed over for a null buffer.** -/
theorem sendPacket_none (h : c.sendPacket sender none = some (ok, c')) :
    ok = false ∧ c'.sessionList = c.sessionList ∧ c'.handed = c.handed := by
  unfold DBClient.sendPacket DBClient.getChannelId DBClient.sendPacketImpl at h
  by_cases hW : c.numOfWorkerThread = 0
  · simp [hW] at h
  · simp only [hW, if_false, Option.bind_eq_bind, Option.bind_some, Option.some.injEq,
      Prod.mk.injEq] at h
    obtain ⟨rfl, rfl⟩ := h
    exact ⟨rfl, rfl, rfl⟩

/-- The constructor leaves a place for the key and no buffer. -/
theorem makeDBJob_fst {heap : List Buf} {packet : IGameAndDBPacket Buf} :
    (makeDBJob heap packet).1.jobSPBuffer = none ∧
      (makeDBJob heap packet).1.jobKeyPosition.isSome := ⟨rfl, rfl⟩

end GameDB

end DdingGameServer
