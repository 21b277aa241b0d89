import DdingGameServer.GameDB.Job
/-!
# DBJob — the order in which a batch arrives

A packet takes the next channel of the round robin, and only packets of one channel arrive in the
order they were sent. So the start packet of a batch arrives before its jobs, and the jobs in their
order, exactly if the turns of the batch all fall on one channel, which is what a single channel
gives, or other senders by chance. A job whose buffer is there also reads memory at the batch's key
before it is sent.
-/

namespace DdingGameServer

namespace GameDB

universe u

variable {Buf : Type u} {c c₀ c' : DBClient Buf} {others : ℕ → Interference}
  {i k n : ℕ} {d buffer : ℕ} {q l : List Sent} {readMemory : Memory} {dbJobKey : DBJobKey}
  {job batchStartJob : DBJob} {jobList : List DBJob} {ok : Bool} {sessionList : List (List Sent)}
  {P : ℕ → List ℕ}

/-! ## Channels and turns -/

/-- The place of a packet in the batch. -/
def Sent.position (s : Sent) : Option ℕ :=
  match s.sender with
  | .batch i => some i
  | .other => none

/-- The packets of the batch among some packets: 0 is the start packet, `i + 1` the job `i`. -/
def batchOf (l : List Sent) : List ℕ := l.filterMap Sent.position

/-- How far the selector has come after `k` packets of the batch. -/
def turns (others : ℕ → Interference) : ℕ → ℕ
  | 0 => 0
  | k + 1 => turns others k + (others k).draws + 1

/-- **The channel of the `i`-th packet of the batch.** -/
def channelOf (c : DBClient Buf) (others : ℕ → Interference) (i : ℕ) : UInt64 :=
  (c.channelSelector + UInt64.ofNat (turns others (i + 1))) % c.numOfWorkerThread.toUInt64

/-- The `i`-th packet of the batch finds a channel. -/
def Sendable (c : DBClient Buf) (others : ℕ → Interference) (i : ℕ) : Prop :=
  c.numOfWorkerThread ≠ 0 ∧ (channelOf c others i).toNat < c.sessionList.length

/-- The pointers of a job are set: its buffer, which is assumed, and the place of the key, which the
constructor sets. -/
def Ready (job : DBJob) : Prop := job.jobSPBuffer.isSome ∧ job.jobKeyPosition.isSome

/-- **The batch arrives in order**: it is sent to its end, and in every delivery of the channels the
start packet comes first and then the jobs as in `jobList`. -/
def ArrivesInOrder [SerializationBuf Buf] (readMemory : Memory) (others : ℕ → Interference)
    (c : DBClient Buf) (batchStartJob : DBJob) (dbJobKey : DBJobKey) (jobList : List DBJob) : Prop :=
  ∃ c', sendBatch readMemory others c batchStartJob dbJobKey jobList = some c' ∧
    ∀ l, Delivers c'.sessionList l → batchOf l = List.range (jobList.length + 1)

/-! ## Sending -/

/-- The packets of the batch in channel `d` are `P d`. -/
def Queues (sessionList : List (List Sent)) (P : ℕ → List ℕ) : Prop :=
  ∀ d q, sessionList[d]? = some q → batchOf q = P d

/-- **The batch is under way**: after `k` of its packets, each channel holds those whose turn it
was. -/
structure Underway (c₀ : DBClient Buf) (others : ℕ → Interference) (k : ℕ) (c : DBClient Buf) :
    Prop where
  workers : c.numOfWorkerThread = c₀.numOfWorkerThread
  sessions : c.sessionList.length = c₀.sessionList.length
  selector : c.channelSelector = c₀.channelSelector + UInt64.ofNat (turns others k)
  queued : Queues c.sessionList fun d =>
    (List.range k).filter fun i => (channelOf c₀ others i).toNat = d

/-- Nothing of the batch was sent before. -/
def Unsent (c : DBClient Buf) : Prop := ∀ q ∈ c.sessionList, batchOf q = []

theorem Unsent.underway (h : Unsent c) : Underway c others 0 c :=
  ⟨rfl, rfl, by simp [turns], fun d q hq => h q (List.mem_of_getElem? hq)⟩

/-- A packet joins one channel. -/
theorem Queues.enqueue {s : Sent} (h : Queues sessionList P) : Queues (enqueue sessionList i s)
    fun d => if i = d then P d ++ batchOf [s] else P d := by
  intro d q hq
  by_cases hd : i = d
  · subst hd
    rw [getElem?_enqueue_self, Option.map_eq_some_iff] at hq
    obtain ⟨q, hq, rfl⟩ := hq
    simp only [if_true, ← h i q hq]
    exact List.filterMap_append
  · rw [getElem?_enqueue_of_ne hd] at hq
    simp only [hd, if_false]
    exact h d q hq

/-- What others put into channels is not of the batch. -/
theorem Queues.foldl_enqueue {packets : List (ℕ × ℕ)} (h : Queues sessionList P) :
    Queues (packets.foldl (fun sessionList (channelId, buffer) =>
      DdingGameServer.enqueue sessionList channelId ⟨buffer, .other⟩) sessionList) P := by
  induction packets generalizing sessionList with
  | nil => exact h
  | cons packet packets ih =>
    refine ih fun d q hq => (h.enqueue d q hq).trans ?_
    show (if packet.1 = d then P d ++ [] else P d) = P d
    rw [List.append_nil, ite_self]

theorem length_foldl_enqueue {packets : List (ℕ × ℕ)} :
    (packets.foldl (fun sessionList (channelId, buffer) =>
      enqueue sessionList channelId ⟨buffer, .other⟩) sessionList).length = sessionList.length := by
  induction packets generalizing sessionList with
  | nil => rfl
  | cons packet packets ih => exact ih.trans length_enqueue

/-- The selector at the next packet. -/
theorem Underway.selector_next (h : Underway c₀ others k c) :
    c.channelSelector + UInt64.ofNat (others k).draws + 1 =
      c₀.channelSelector + UInt64.ofNat (turns others (k + 1)) := by
  rw [h.selector, turns, UInt64.ofNat_add, UInt64.ofNat_add]
  simp only [UInt64.add_assoc]
  rfl

/-- The next packet takes the channel of its turn. -/
theorem Underway.nextChannel (h : Underway c₀ others k c) :
    (c.interfere (others k)).nextChannel = channelOf c₀ others k := by
  show (c.channelSelector + UInt64.ofNat (others k).draws + 1) % c.numOfWorkerThread.toUInt64 = _
  rw [h.selector_next, h.workers, channelOf]

theorem Underway.length_interfere (h : Underway c₀ others k c) :
    (c.interfere (others k)).sessionList.length = c₀.sessionList.length :=
  length_foldl_enqueue.trans h.sessions

/-- **The next packet of the batch** stands at the end of the channel of its turn. -/
theorem Underway.sent (h : Underway c₀ others k c) {heap : List Buf}
    (hsent : { c.interfere (others k) with heap }.sendPacket (.batch k) (some buffer) =
      some (ok, c')) : Sendable c₀ others k ∧ Underway c₀ others (k + 1) c' := by
  obtain ⟨hW, hlt, -, rfl⟩ := sendPacket_eq_some.mp hsent
  have hnext : ({ c.interfere (others k) with heap } : DBClient Buf).nextChannel =
      channelOf c₀ others k := h.nextChannel
  have hW' : c.numOfWorkerThread ≠ 0 := hW
  rw [hnext] at hlt ⊢
  refine ⟨⟨h.workers ▸ hW', h.length_interfere ▸ hlt⟩, h.workers,
    length_enqueue.trans h.length_interfere, h.selector_next, fun d q hq => ?_⟩
  have hqueued : Queues (c.interfere (others k)).sessionList _ := h.queued.foldl_enqueue
  rw [hqueued.enqueue d q hq, List.range_succ]
  beta_reduce
  rw [List.filter_append]
  by_cases hd : (channelOf c₀ others k).toNat = d
  · simp [hd, batchOf, Sent.position]
  · simp [hd]

/-- It is sent if there is a channel for it. -/
theorem Underway.exists_sent (h : Underway c₀ others k c) (heap : List Buf) (buffer : ℕ)
    (hs : Sendable c₀ others k) :
    ∃ c', { c.interfere (others k) with heap }.sendPacket (.batch k) (some buffer) =
      some (true, c') := by
  have hnext : ({ c.interfere (others k) with heap } : DBClient Buf).nextChannel =
      channelOf c₀ others k := h.nextChannel
  refine ⟨_, sendPacket_eq_some.mpr ⟨?_, ?_, rfl, rfl⟩⟩
  · exact fun hW => hs.1 (h.workers ▸ hW)
  · rw [hnext]
    exact h.length_interfere.symm ▸ hs.2

variable [SerializationBuf Buf]

/-- **A job of the batch** that is executed could read its key as an address, and is sent. -/
theorem Underway.executed (h : Underway c₀ others k c) (hjob : Ready job)
    (hrun : executeJob readMemory (c.interfere (others k)) (.batch k) job dbJobKey =
      some (ok, c')) :
    readMemory dbJobKey ≠ none ∧ Sendable c₀ others k ∧ Underway c₀ others (k + 1) c' := by
  obtain ⟨buffer, hbuffer⟩ := Option.isSome_iff_exists.mp hjob.1
  obtain ⟨position, hposition⟩ := Option.isSome_iff_exists.mp hjob.2
  simp only [executeJob, hbuffer, hposition, DBClient.sendPacketToFixedChannel] at hrun
  obtain ⟨value, hvalue, hrun⟩ := Option.bind_eq_some_iff.mp hrun
  obtain ⟨c'', hsent, hc'⟩ := Option.bind_eq_some_iff.mp hrun
  obtain ⟨⟨ok', c₁⟩, hpacket, hc''⟩ := Option.bind_eq_some_iff.mp hsent
  obtain rfl := Option.some.inj hc''
  obtain ⟨-, rfl⟩ := Prod.mk.inj (Option.some.inj hc')
  obtain ⟨hs, hnext⟩ := h.sent hpacket
  exact ⟨by rw [hvalue]; exact Option.some_ne_none value, hs, hnext⟩

/-- And it is executed where both is given. -/
theorem Underway.exists_executed (h : Underway c₀ others k c) (hjob : Ready job)
    (hread : readMemory dbJobKey ≠ none) (hs : Sendable c₀ others k) :
    ∃ c', executeJob readMemory (c.interfere (others k)) (.batch k) job dbJobKey =
      some (true, c') := by
  obtain ⟨buffer, hbuffer⟩ := Option.isSome_iff_exists.mp hjob.1
  obtain ⟨position, hposition⟩ := Option.isSome_iff_exists.mp hjob.2
  obtain ⟨value, hvalue⟩ := Option.ne_none_iff_exists'.mp hread
  let heap := (c.interfere (others k)).heap.modify position.buffer fun buffer =>
    store buffer position.offset value
  obtain ⟨c', hsent⟩ := h.exists_sent heap buffer hs
  have hfixed : { c.interfere (others k) with heap }.sendPacketToFixedChannel (.batch k) job =
      some c' := by
    rw [DBClient.sendPacketToFixedChannel, hbuffer]
    exact Option.bind_eq_some_iff.mpr ⟨_, hsent, rfl⟩
  refine ⟨c', ?_⟩
  simp only [executeJob, hbuffer, hposition, hvalue, Option.bind_some]
  exact Option.bind_eq_some_iff.mpr ⟨c', hfixed, rfl⟩

/-- **The jobs that are executed were all sent**, by induction on the list. -/
theorem Underway.executedJobs (h : Underway c₀ others k c) (hjobs : ∀ job ∈ jobList, Ready job)
    (hrun : executeJobs readMemory dbJobKey others k c jobList = some c') :
    (jobList = [] ∨ readMemory dbJobKey ≠ none) ∧
      (∀ i, k ≤ i → i < k + jobList.length → Sendable c₀ others i) ∧
      Underway c₀ others (k + jobList.length) c' := by
  induction jobList generalizing k c with
  | nil =>
    obtain rfl := Option.some.inj hrun
    exact ⟨.inl rfl, fun i hle hlt => absurd hlt (Nat.not_lt.mpr hle), h⟩
  | cons job rest ih =>
    obtain ⟨⟨ok, c₁⟩, hjob, hrest⟩ := Option.bind_eq_some_iff.mp hrun
    obtain ⟨hread, hs, hnext⟩ := h.executed (hjobs job List.mem_cons_self) hjob
    obtain ⟨-, hsendable, hend⟩ :=
      ih hnext (fun job hmem => hjobs job (List.mem_cons_of_mem _ hmem)) hrest
    rw [List.length_cons]
    refine ⟨.inr hread, fun i hle hlt => ?_, ?_⟩
    · rcases Nat.eq_or_lt_of_le hle with rfl | hlt'
      · exact hs
      · exact hsendable i hlt' (by omega)
    · rwa [show k + (rest.length + 1) = k + 1 + rest.length by omega]

/-- And they are executed where each of them can be. -/
theorem Underway.exists_executedJobs (h : Underway c₀ others k c)
    (hjobs : ∀ job ∈ jobList, Ready job) (hread : jobList = [] ∨ readMemory dbJobKey ≠ none)
    (hs : ∀ i, k ≤ i → i < k + jobList.length → Sendable c₀ others i) :
    ∃ c', executeJobs readMemory dbJobKey others k c jobList = some c' := by
  induction jobList generalizing k c with
  | nil => exact ⟨c, rfl⟩
  | cons job rest ih =>
    have hread' : readMemory dbJobKey ≠ none := by
      rcases hread with hnil | hread
      · exact nomatch hnil
      · exact hread
    rw [List.length_cons] at hs
    have hjob := hjobs job List.mem_cons_self
    obtain ⟨c₁, hc₁⟩ := h.exists_executed hjob hread' (hs k le_rfl (by omega))
    obtain ⟨-, -, hnext⟩ := h.executed hjob hc₁
    obtain ⟨c', hc'⟩ := ih hnext (fun job hmem => hjobs job (List.mem_cons_of_mem _ hmem))
      (.inr hread') fun i hle hlt => hs i (by omega) (by omega)
    refine ⟨c', ?_⟩
    rw [executeJobs, hc₁]
    exact hc'

/-! ## Delivering -/

omit [SerializationBuf Buf] in
/-- **Every delivery is in order exactly if one channel has all the packets.** -/
theorem Underway.inOrder_iff (h : Underway c₀ others (n + 1) c)
    (hs : ∀ i < n + 1, Sendable c₀ others i) :
    (∀ l, Delivers c.sessionList l → batchOf l = List.range (n + 1)) ↔
      ∀ i ≤ n, channelOf c₀ others i = channelOf c₀ others 0 := by
  have hget (i : ℕ) (hi : i < n + 1) :
      ∃ q, c.sessionList[(channelOf c₀ others i).toNat]? = some q := by
    have hlt := (hs i hi).2
    rw [← h.sessions] at hlt
    exact ⟨_, List.getElem?_eq_getElem hlt⟩
  constructor
  · intro horder i hi
    by_contra hne
    -- Deliver the channel of packet `i` first: it holds that packet and not the start packet.
    obtain ⟨q, hq⟩ := hget i (by omega)
    obtain ⟨l, hl⟩ := exists_delivers (c.sessionList.set (channelOf c₀ others i).toNat [])
    have hbatch := horder _ (Delivers.append hq hl)
    have hqueued := h.queued _ q hq
    have hmem : i ∈ batchOf q := by
      rw [hqueued, List.mem_filter, List.mem_range]
      exact ⟨by omega, by simp⟩
    obtain ⟨j, rest, hj⟩ := List.exists_cons_of_ne_nil (List.ne_nil_of_mem hmem)
    rw [batchOf, List.filterMap_append] at hbatch
    have hzero : j = 0 := by
      rw [show q.filterMap Sent.position = j :: rest from hj, List.range_succ_eq_map] at hbatch
      exact (List.cons.inj hbatch).1
    have hstart : 0 ∈ batchOf q := by
      rw [hj, hzero]
      exact List.mem_cons_self
    rw [hqueued, List.mem_filter] at hstart
    have hsame := of_decide_eq_true hstart.2
    exact hne (UInt64.toNat_inj.mp hsame).symm
  · intro hsame l hl
    obtain ⟨q, hq⟩ := hget 0 (by omega)
    have hall : ∀ i ∈ List.range (n + 1),
        (channelOf c₀ others i).toNat = (channelOf c₀ others 0).toNat := by
      intro i hi
      rw [hsame i (by rw [List.mem_range] at hi; omega)]
    have hq' : batchOf q = List.range (n + 1) := by
      rw [h.queued _ q hq, List.filter_eq_self]
      exact fun i hi => decide_eq_true (hall i hi)
    rw [← hq']
    refine hl.filterMap_eq (fun d q' hd hq'' => ?_) hq
    rw [show q'.filterMap Sent.position = _ from h.queued d q' hq'', List.filter_eq_nil_iff]
    intro i hi hdec
    exact hd ((of_decide_eq_true hdec).symm.trans (hall i hi))

/-- **A batch arrives in order exactly if it is sent over one channel**, which exists, and its key
can be read as an address where it has a job. -/
theorem arrivesInOrder_iff (hunsent : Unsent c) (hstart : Ready batchStartJob)
    (hjobs : ∀ job ∈ jobList, Ready job) :
    ArrivesInOrder readMemory others c batchStartJob dbJobKey jobList ↔
      Sendable c others 0 ∧ (∀ i ≤ jobList.length, channelOf c others i = channelOf c others 0) ∧
        (jobList = [] ∨ readMemory dbJobKey ≠ none) := by
  obtain ⟨buffer, hbuffer⟩ := Option.isSome_iff_exists.mp hstart.1
  constructor
  · rintro ⟨c', hsent, horder⟩
    obtain ⟨c₁, hc₁, hrest⟩ := Option.bind_eq_some_iff.mp hsent
    obtain ⟨⟨ok, c₂⟩, hpacket, hc₂⟩ := Option.bind_eq_some_iff.mp hc₁
    obtain rfl := Option.some.inj hc₂
    rw [hbuffer] at hpacket
    obtain ⟨hs, hnext⟩ := hunsent.underway.sent hpacket
    obtain ⟨hread, hsendable, hend⟩ := hnext.executedJobs hjobs hrest
    rw [Nat.zero_add, Nat.add_comm 1] at hend
    refine ⟨hs, (hend.inOrder_iff fun i hi => ?_).mp horder, hread⟩
    rcases Nat.eq_zero_or_pos i with rfl | hpos
    · exact hs
    · exact hsendable i hpos (by omega)
  · rintro ⟨hs, hsame, hread⟩
    have hsendable : ∀ i ≤ jobList.length, Sendable c others i := fun i hi =>
      ⟨hs.1, by rw [hsame i hi]; exact hs.2⟩
    obtain ⟨c₁, hpacket⟩ := hunsent.underway.exists_sent (c.interfere (others 0)).heap buffer hs
    obtain ⟨-, hnext⟩ := hunsent.underway.sent hpacket
    obtain ⟨c', hc'⟩ := hnext.exists_executedJobs hjobs hread fun i hle hlt =>
      hsendable i (by omega)
    obtain ⟨-, -, hend⟩ := hnext.executedJobs hjobs hc'
    rw [Nat.zero_add, Nat.add_comm 1] at hend
    refine ⟨c', ?_, (hend.inOrder_iff fun i hi => hsendable i (by omega)).mpr hsame⟩
    simp only [sendBatch, DBClient.sendPacketToFixedChannel, hbuffer, Option.bind_eq_bind]
    rw [hpacket]
    exact hc'

/-- A client with as many threads as channels, and two buffers. -/
def clientOf (channels : UInt8) : DBClient (List UInt8) where
  heap := [[], []]
  numOfWorkerThread := channels
  channelSelector := 0
  sessionList := List.replicate channels.toNat []
  handed := []

/-- Nobody else sends. -/
def alone : ℕ → Interference := fun _ => ⟨0, []⟩

/-- A job whose buffer is the `b`-th, with the key after its packet id. -/
def jobWith (b : ℕ) : DBJob := ⟨some b, some ⟨b, 4⟩⟩

/-- Over a single channel a batch of one job arrives in order. -/
theorem arrivesInOrder_oneChannel :
    ArrivesInOrder (fun _ => some 0) alone (clientOf 1) (jobWith 0) 1 [jobWith 1] := by
  have hunsent : Unsent (clientOf 1) := by
    intro q hq
    obtain rfl : q = [] := List.eq_of_mem_replicate hq
    rfl
  have hjobs : ∀ job ∈ [jobWith 1], Ready job := by
    intro job hjob
    obtain rfl := List.mem_singleton.mp hjob
    exact ⟨rfl, rfl⟩
  refine (arrivesInOrder_iff hunsent ⟨rfl, rfl⟩ hjobs).mpr ⟨⟨by decide, by decide⟩, ?_, .inr ?_⟩
  · decide
  · exact Option.some_ne_none 0

/-- **Over two channels the job can arrive first**; and where its key cannot be read as an address,
it does not arrive at all. -/
theorem not_arrivesInOrder_twoChannels :
    ¬ ArrivesInOrder (fun _ => some 0) alone (clientOf 2) (jobWith 0) 1 [jobWith 1] ∧
      ¬ ArrivesInOrder (fun _ => none) alone (clientOf 2) (jobWith 0) 1 [jobWith 1] := by
  constructor
  · rintro ⟨c', hsent, horder⟩
    obtain rfl := Option.some.inj hsent
    have hdelivered := horder [⟨1, .batch 1⟩, ⟨0, .batch 0⟩]
      (.deliver (c := 0) rfl (.deliver (c := 1) rfl (.done (by decide))))
    exact absurd hdelivered (by decide)
  · rintro ⟨c', hsent, -⟩
    exact nomatch hsent

end GameDB

end DdingGameServer
