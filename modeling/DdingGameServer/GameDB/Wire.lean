import DdingGameServer.DBServer.Model
import DdingGameServer.GameDB.Job
/-!
# DBJob — the bytes of a batch

`ExecuteBatchJob` should hand DBServer a start packet and then the jobs, each with the key of the
batch. It hands over nothing: the constructor of `DBJob` fills a buffer that it then forgets, so
that `SendPacketImpl` gets a null pointer for the start packet and `ExecuteJob` returns before it
sends. The forgotten buffer would not do either: a start packet has the same bytes for every
batch.
-/

namespace DdingGameServer

namespace GameDB

universe u

variable {Buf : Type u} [SerializationBuf Buf] {readMemory : Memory} {others : ℕ → Interference}
  {c c' : DBClient Buf} {b : BatchedDBJob} {k : ℕ} {dbJobKey : DBJobKey} {job : DBJob}
  {jobList : List DBJob} {heap : List Buf}

/-! ## What DBServer should read -/

/-- A packet of a job, which appends its payload. -/
structure DBPacket (Buf : Type u) [SerializationBuf Buf] extends IGameAndDBPacket Buf where
  payload : List UInt8
  unread_packetToBuffer : ∀ b, unread (packetToBuffer b) = unread b ++ payload

/-- The packets of a batch, between 1 and 16 of them. -/
structure BatchPackets (Buf : Type u) [SerializationBuf Buf] where
  packets : List (DBPacket Buf)
  pos : 1 ≤ packets.length
  le : packets.length ≤ maximumBatchedDBJobSize

/-- `OnRecv` and `HandlePacket` of DBServer, as far as they read. -/
def decode (recvBuffer : Buf) : DBServer.Request (List UInt8) :=
  let (packetId, recvBuffer) := readUInt32 recvBuffer
  match DBServer.readRequest packetId recvBuffer with
  | .batchStart key job => .batchStart key job
  | .job key packetId recvBuffer => .job key packetId (unread recvBuffer)

/-- The start packet and the jobs, with one key, as they were meant. -/
def meant (sessionId : SessionId) (key : DBJobKey) (packets : List (DBPacket Buf)) :
    List (DBServer.Request (List UInt8)) :=
  .batchStart key { sessionId, batchSize := UInt32.ofNat packets.length } ::
    packets.map fun packet => .job key packet.getPacketId packet.payload

/-! ## What it gets -/

/-- The jobs made for some packets, one after the other, and the buffers with theirs. -/
def makeDBJobs (heap : List Buf) : List (DBPacket Buf) → List DBJob × List Buf
  | [] => ([], heap)
  | packet :: rest =>
    let (job, heap) := makeDBJob heap packet.toIGameAndDBPacket
    let (jobs, heap) := makeDBJobs heap rest
    (job :: jobs, heap)

theorem length_makeDBJobs {packets : List (DBPacket Buf)} :
    (makeDBJobs heap packets).1.length = packets.length := by
  induction packets generalizing heap with
  | nil => rfl
  | cons packet rest ih =>
    show (makeDBJobs _ rest).1.length + 1 = rest.length + 1
    rw [ih]

/-- A batch of jobs made by their constructor. -/
def batchOfPackets (heap : List Buf) (sessionId : SessionId) (dbJobKey : DBJobKey)
    (packets : BatchPackets Buf) : BatchedDBJob where
  sessionId := sessionId
  dbJobKey := dbJobKey
  jobList := (makeDBJobs heap packets.packets).1
  size_le := length_makeDBJobs.trans_le packets.le

/-- **The two sides agree**: what `ExecuteBatchJob` hands to the channels reads as it was meant. -/
def WireAgrees (readMemory : Memory) (others : ℕ → Interference) (c : DBClient Buf)
    (sessionId : SessionId) (dbJobKey : DBJobKey) (packets : BatchPackets Buf) : Prop :=
  ∃ c' handed, executeBatchJob readMemory others
      { c with heap := (makeDBJobs c.heap packets.packets).2 }
      (batchOfPackets c.heap sessionId dbJobKey packets) = some c' ∧
    c'.handed = c.handed ++ handed ∧
    handed.map (Option.map decode) = (meant sessionId dbJobKey packets.packets).map some

/-- The constructor never sets the buffer of a job. -/
theorem jobSPBuffer_of_mem_makeDBJobs {packets : List (DBPacket Buf)}
    (h : job ∈ (makeDBJobs heap packets).1) : job.jobSPBuffer = none := by
  induction packets generalizing heap with
  | nil => exact nomatch h
  | cons packet rest ih =>
    rcases List.mem_cons.mp h with rfl | h
    · exact makeDBJob_fst.1
    · exact ih h

/-- A job without a buffer is not sent. -/
theorem executeJob_of_none {sender : Sender} (h : job.jobSPBuffer = none) :
    executeJob readMemory c sender job dbJobKey = some (false, c) := by
  rw [executeJob, h]

/-- Nor are the jobs of a list, by induction on it. -/
theorem executeJobs_of_none (h : ∀ job ∈ jobList, job.jobSPBuffer = none)
    (hrun : executeJobs readMemory dbJobKey others k c jobList = some c') :
    c'.handed = c.handed := by
  induction jobList generalizing k c with
  | nil =>
    obtain rfl := Option.some.inj hrun
    rfl
  | cons job rest ih =>
    rw [executeJobs, executeJob_of_none (h job List.mem_cons_self)] at hrun
    have hrest : executeJobs readMemory dbJobKey others (k + 1) (c.interfere (others k)) rest =
        some c' := hrun
    have hhanded := ih (fun job hjob => h job (List.mem_cons_of_mem _ hjob)) hrest
    exact hhanded

/-- **A batch whose jobs are made by their constructor hands nothing over.** -/
theorem handed_executeBatchJob (h : ∀ job ∈ b.jobList, job.jobSPBuffer = none)
    (hrun : executeBatchJob readMemory others c b = some c') : c'.handed = c.handed := by
  obtain ⟨c₁, hstart, hjobs⟩ := Option.bind_eq_some_iff.mp hrun
  obtain ⟨⟨ok, c₂⟩, hsent, hc₁⟩ := Option.bind_eq_some_iff.mp hstart
  obtain rfl := Option.some.inj hc₁
  obtain ⟨-, -, hhanded⟩ := sendPacket_none hsent
  exact (executeJobs_of_none h hjobs).trans hhanded

/-- Nor could DBServer read anything from the start packets: they all have the same bytes. -/
theorem makeDBJob_start (job job' : DBJobStart) :
    makeDBJob heap job.toPacket = makeDBJob heap job'.toPacket := rfl

/-- **The two sides agree on no batch.** -/
theorem not_wireAgrees (readMemory : Memory) (others : ℕ → Interference) (c : DBClient Buf)
    (sessionId : SessionId) (dbJobKey : DBJobKey) (packets : BatchPackets Buf) :
    ¬ WireAgrees readMemory others c sessionId dbJobKey packets := by
  rintro ⟨c', handed, hrun, hhanded, hmeant⟩
  have hnone := handed_executeBatchJob (fun _ hjob => jobSPBuffer_of_mem_makeDBJobs hjob) hrun
  obtain rfl : handed = [] := by
    rw [hnone] at hhanded
    exact List.self_eq_append_right.mp hhanded
  exact nomatch hmeant

/-- A packet with the id 10 and the payload `3`. -/
def onePacket : BatchPackets (List UInt8) where
  packets := [{ getPacketId := 10, packetToBuffer := (· ++ [3]), payload := [3],
                unread_packetToBuffer := fun _ => rfl }]
  pos := le_rfl
  le := by decide

/-- A client with one channel. -/
def oneChannel : DBClient (List UInt8) where
  heap := []
  numOfWorkerThread := 1
  channelSelector := 0
  sessionList := [[]]
  handed := []

/-- A batch of one job, over one channel with nobody else sending, hands nothing over. -/
theorem not_wireAgrees_onePacket :
    ¬ WireAgrees (fun _ => some 0) (fun _ => ⟨0, []⟩) oneChannel 5 1 onePacket := by
  rintro ⟨c', handed, hrun, hhanded, hmeant⟩
  obtain rfl := Option.some.inj hrun
  obtain rfl : [] = handed := hhanded
  exact nomatch hmeant

end GameDB

end DdingGameServer
