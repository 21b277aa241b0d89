import DdingGameServer.Common.History
import DdingGameServer.MultiLanClient.Wakeup
/-!
# MultiLanClient — in-order, exactly-once hand-over

A record of one live connection is kept beside the state: what was put into `SendQ`, the batches
passed to `WSASend`, and what was freed. The packets move from the queue through the store to the
kernel in one line, which the token keeps in order: its holder alone takes packets from the queue,
writes the store and its count, and frees what the kernel is done with.
-/

namespace DdingGameServer

namespace MultiLanClient

variable {cfg : Config} {s s' : State} {e : Event} {sid : ℕ} {op : Op} {ok : Bool} {se : Session}
  {ids : List ℕ} {o : Outcome} {b : List Buffer} {packet : Buffer}

/-! ## The record of a connection -/

/-- What happened on a channel since its connection was made. -/
structure SendLog where
  /-- The packets put into its `SendQ`. -/
  enqueued : List Buffer
  /-- The buffers passed to the successive `WSASend` calls. -/
  handed : List (List Buffer)
  /-- The buffers passed to `CSerializationBuf::Free`. -/
  freed : List Buffer
  /-- The packets put into the `SendQ` of any channel: the order in which they were sent, where the
  calls do not overlap. -/
  sent : List Buffer

def SendLog.empty : SendLog := ⟨[], [], [], []⟩

def Op.enqueued : Op → List Buffer
  | .enqueue packet => [packet]
  | _ => []

def Op.handed : Op → List (List Buffer)
  | .wsaSend _ wsaSendBuf => [wsaSendBuf]
  | _ => []

/-- The packet a step puts into a `SendQ`. -/
def State.puts (s : State) : Event → List Buffer
  | .exec i _ =>
    match s.threads[i]?.bind Thread.op with
    | some op => op.enqueued
    | none => []
  | _ => []

/-- The record after an operation on the channel. -/
def SendLog.add (log : SendLog) (op : Op) (o : Outcome) : SendLog :=
  { log with
    enqueued := log.enqueued ++ op.enqueued
    handed := log.handed ++ op.handed
    freed := log.freed ++ o.freed }

/-- The record after a step. -/
def SendLog.record (cfg : Config) (sid : ℕ) (log : SendLog) (s : State) (e : Event) : SendLog :=
  let log := { log with sent := log.sent ++ s.puts e }
  match s.outcome cfg sid e with
  | some (op, o) => log.add op o
  | none => log

/-- What a `SendPost` that has not called `WSASend` yet has taken from the queue. -/
def Op.forming : Op → List Buffer
  | .dequeue _ _ b | .setBufferCount _ b | .countSend _ b | .wsaSend _ b => b
  | _ => []

/-- The packets of the channel between its `SendQ` and `WSASend`. -/
def State.forming (sid : ℕ) (s : State) : List Buffer := (s.ops sid).flatMap Op.forming

/-- The store begins with the batch. -/
def Session.stores (se : Session) (b : List Buffer) : Prop :=
  ∀ i < b.length, se.serializeBufStore i = b[i]?

theorem stores_nil : se.stores [] := fun i hi => absurd hi (Nat.not_lt_zero i)

/-- The next packet is written behind the batch. -/
theorem Session.stores.concat (h : se.stores b) {sendQ : List Buffer} :
    ({ se with
        sendQ := sendQ
        serializeBufStore := Function.update se.serializeBufStore b.length (some packet) } :
      Session).stores (b ++ [packet]) := by
  intro i hi
  rw [List.length_append, List.length_singleton] at hi
  rcases Nat.lt_or_ge i b.length with hlt | hge
  · rw [List.getElem?_append_left hlt]
    exact (Function.update_of_ne hlt.ne _ _).trans (h i hlt)
  · obtain rfl : i = b.length := by omega
    rw [List.getElem?_concat_length]
    exact Function.update_self _ _ _

/-! ## What goes with the token -/

/-- Nothing is stored, and everything handed over is freed. -/
def Settled (log : SendLog) (se : Session) : Prop :=
  se.lBufferCount = 0 ∧ log.freed = log.handed.flatten

/-- The batch is in the store, counted, and was handed over last; `n` of its buffers are freed. -/
structure Stored (log : SendLog) (se : Session) (b : List Buffer) (n : ℕ) : Prop where
  count : se.lBufferCount = b.length
  stores : se.stores b
  freed : ∃ earlier, log.handed = earlier ++ [b] ∧ log.freed = earlier.flatten ++ b.take n

/-- A batch `WSASend` accepts. -/
def Batch (b : List Buffer) : Prop := 1 ≤ b.length ∧ b.length ≤ iocpOneSendWsabufMax

/-- **What the holder of the token finds.** -/
def Entitled (log : SendLog) (se : Session) : Op → Prop
  | .dequeue _ useSize b =>
    Settled log se ∧ se.stores b ∧ b.length ≤ useSize ∧ useSize ≤ b.length + se.sendQ.length ∧
      1 ≤ useSize ∧ useSize ≤ iocpOneSendWsabufMax
  | .setBufferCount _ b => Settled log se ∧ se.stores b ∧ Batch b
  | .countSend _ b | .wsaSend _ b =>
    log.freed = log.handed.flatten ∧ se.stores b ∧ Batch b ∧ se.lBufferCount = b.length
  | .sendCompleted => ∃ b, Stored log se b 0
  | .freeSent n i => ∃ b, Stored log se b i ∧ n = b.length ∧ i ≤ b.length
  | .subtractCount n => se.lBufferCount = n ∧ log.freed = log.handed.flatten
  | _ => Settled log se

/-- What the kernel finds. -/
def AtKernel (log : SendLog) (se : Session) (b : List Buffer) : Prop := Stored log se b 0

/-- Whoever does not hold the token neither hands over nor frees anything, and only adds to the
queue. -/
structure Unhandled (log log' : SendLog) (se se' : Session) : Prop where
  handed : log'.handed = log.handed
  freed : log'.freed = log.freed
  lBufferCount : se'.lBufferCount = se.lBufferCount
  store : se'.serializeBufStore = se.serializeBufStore
  sendQ : se.sendQ.length ≤ se'.sendQ.length

variable {log log' : SendLog} {se' : Session} {n : ℕ}

theorem unhandled_add (hhanded : op.handed = []) (hfreed : o.freed = [])
    (hcount : o.session.lBufferCount = se.lBufferCount)
    (hstore : o.session.serializeBufStore = se.serializeBufStore)
    (hq : se.sendQ.length ≤ o.session.sendQ.length) : Unhandled log (log.add op o) se o.session :=
  ⟨by simp [SendLog.add, hhanded], by simp [SendLog.add, hfreed], hcount, hstore, hq⟩

/-- The order over all channels does not matter to it. -/
theorem Unhandled.of_sent {sent : List Buffer}
    (h : Unhandled { log with sent := sent } log' se se') : Unhandled log log' se se' :=
  ⟨h.handed, h.freed, h.lBufferCount, h.store, h.sendQ⟩

theorem Settled.congr (h : Settled log se) (hu : Unhandled log log' se se') : Settled log' se' :=
  ⟨hu.lBufferCount.trans h.1, by rw [hu.freed, hu.handed]; exact h.2⟩

theorem Session.stores.congr (h : se.stores b) (hu : Unhandled log log' se se') : se'.stores b := by
  intro i hi
  rw [hu.store]
  exact h i hi

theorem Stored.congr (h : Stored log se b n) (hu : Unhandled log log' se se') :
    Stored log' se' b n := by
  refine ⟨hu.lBufferCount.trans h.count, h.stores.congr hu, ?_⟩
  rw [hu.handed, hu.freed]
  exact h.freed

theorem Entitled.congr (h : Entitled log se op) (hu : Unhandled log log' se se') :
    Entitled log' se' op := by
  have hfreed : log.freed = log.handed.flatten → log'.freed = log'.handed.flatten := by
    rw [hu.handed, hu.freed]
    exact id
  cases op with
  | dequeue c useSize b =>
    obtain ⟨hset, hstores, hlen, hq, hsize⟩ := h
    exact ⟨hset.congr hu, hstores.congr hu, hlen, by have := hu.sendQ; omega, hsize⟩
  | setBufferCount c b => exact ⟨h.1.congr hu, h.2.1.congr hu, h.2.2⟩
  | countSend c b | wsaSend c b =>
    exact ⟨hfreed h.1, h.2.1.congr hu, h.2.2.1, hu.lBufferCount.trans h.2.2.2⟩
  | sendCompleted =>
    obtain ⟨b, hb⟩ := h
    exact ⟨b, hb.congr hu⟩
  | freeSent n i =>
    obtain ⟨b, hb, hn, hi⟩ := h
    exact ⟨b, hb.congr hu, hn, hi⟩
  | subtractCount n => exact ⟨hu.lBufferCount.trans h.1, hfreed h.2⟩
  | _ => exact Settled.congr h hu

theorem Entitled.of_sent {sent : List Buffer} (h : Entitled log se op) :
    Entitled { log with sent := sent } se op :=
  h.congr ⟨rfl, rfl, rfl, rfl, le_rfl⟩

/-- **The holder's step**: it leaves the next holder, or the kernel, or nobody with what is theirs,
and moves the packets on without a gap. -/
structure HandsOn (log : SendLog) (se : Session) (op : Op) (o : Outcome) : Prop where
  next : ∀ op' ∈ o.next, 0 < op'.holds → Entitled (log.add op o) o.session op'
  kernel : ∀ b, .send b ∈ o.session.posted → .send b ∉ se.posted →
    AtKernel (log.add op o) o.session b
  idle : o.session.ioMode = .nonSending → Settled (log.add op o) o.session
  moved : (log.add op o).handed.flatten ++ o.next.toList.flatMap Op.forming ++ o.session.sendQ =
    log.handed.flatten ++ op.forming ++ se.sendQ
  batch : ∀ b ∈ op.handed, Batch b

/-- A step within the token's own operations. -/
theorem HandsOn.within {op' : Op} (hnext : o.next = some op')
    (hposted : o.session.posted = se.posted) (hmode : o.session.ioMode = .sending)
    (hhanded : op.handed = []) (h : Entitled (log.add op o) o.session op')
    (hmoved : op'.forming ++ o.session.sendQ = op.forming ++ se.sendQ) : HandsOn log se op o := by
  refine ⟨?_, fun b hb hnot => absurd (hposted ▸ hb) hnot, ?_, ?_, by simp [hhanded]⟩
  · intro op₀ hop₀ _
    obtain rfl : op' = op₀ := by simpa [hnext] using hop₀
    exact h
  · intro hnon
    rw [hmode] at hnon
    cases hnon
  · simp only [SendLog.add, hhanded, List.append_nil, hnext, Option.toList_some,
      List.flatMap_singleton, List.append_assoc, hmoved]

/-- A step that gives the token back. -/
theorem HandsOn.gives {op' : Op} (hnext : o.next = some op') (hholds : op'.holds = 0)
    (hform : op'.forming = [] ∧ op.forming = []) (hposted : o.session.posted = se.posted)
    (hhanded : op.handed = []) (h : Settled (log.add op o) o.session)
    (hq : o.session.sendQ = se.sendQ) : HandsOn log se op o := by
  refine ⟨?_, fun b hb hnot => absurd (hposted ▸ hb) hnot, fun _ => h, ?_, by simp [hhanded]⟩
  · intro op₀ hop₀ hpos
    obtain rfl : op' = op₀ := by simpa [hnext] using hop₀
    omega
  · simp only [SendLog.add, hhanded, List.append_nil, hnext, Option.toList_some,
      List.flatMap_singleton, hform, hq]

theorem Exec.handsOn (h : Exec cfg ok sid se ids op o) (hpos : 0 < op.holds)
    (hmode : se.ioMode = .sending) (hok : op.failsSend ok se = false)
    (hF : Entitled log se op) : HandsOn log se op o := by
  cases h with
  | restEmpty c hempty =>
    exact .within rfl rfl hmode rfl
      (Settled.congr hF (unhandled_add rfl rfl rfl rfl le_rfl)) rfl
  | restFound c hsome =>
    have hlen := List.length_pos_iff.mpr hsome
    refine .within rfl rfl hmode rfl ⟨Settled.congr hF (unhandled_add rfl rfl rfl rfl le_rfl),
      stores_nil, Nat.zero_le _, ?_, ?_, ?_⟩ rfl
    · simp
    · simp only [iocpOneSendWsabufMax]
      omega
    · exact Nat.min_le_right _ _
  | modeReset c =>
    exact .gives rfl rfl ⟨rfl, rfl⟩ rfl rfl
      (Settled.congr hF (unhandled_add rfl rfl rfl rfl le_rfl)) rfl
  | dequeued c hlt hcons =>
    obtain ⟨hset, hstores, hlen, hq, hsize⟩ := hF
    rw [hcons, List.length_cons] at hq
    refine .within rfl rfl hmode rfl ⟨?_, hstores.concat, ?_, ?_, hsize⟩ ?_
    · simpa [Settled, SendLog.add, Op.handed] using hset
    · rw [List.length_append, List.length_singleton]
      omega
    · rw [List.length_append, List.length_singleton]
      dsimp only
      omega
    · simp [Op.forming, hcons]
  | dequeuedNothing c hlt hempty =>
    -- the packets counted before the loop are still there: only the holder takes them out
    obtain ⟨-, -, -, hq, -⟩ := hF
    rw [hempty, List.length_nil] at hq
    omega
  | dequeueDone c hge =>
    obtain ⟨hset, hstores, hlen, hq, hsize⟩ := hF
    refine .within rfl rfl hmode rfl
      ⟨hset.congr (unhandled_add rfl rfl rfl rfl le_rfl), hstores, ?_, ?_⟩ rfl
    · omega
    · omega
  | bufferCountSet c b =>
    obtain ⟨hset, hstores, hbatch⟩ := hF
    refine .within rfl rfl hmode rfl ⟨?_, hstores, hbatch, rfl⟩ rfl
    simpa [SendLog.add, Op.handed] using hset.2
  | sendCounted c b =>
    have hsame : Entitled log se (.wsaSend c b) := hF
    exact .within rfl rfl hmode rfl (hsame.congr (unhandled_add rfl rfl rfl rfl le_rfl)) rfl
  | sent c b hok' hconn =>
    obtain ⟨hfreed, hstores, hbatch, hcount⟩ := hF
    refine ⟨?_, fun b' hb' hnot => ?_, fun hnon => (nomatch hmode.symm.trans hnon), ?_, ?_⟩
    · rintro _ ⟨⟩ hpos'
      exact absurd hpos' (lt_irrefl 0)
    · obtain rfl : b' = b := by simpa [hnot] using hb'
      refine ⟨hcount, hstores, log.handed, rfl, ?_⟩
      simpa [SendLog.add] using hfreed
    · simp [SendLog.add, Op.handed, Op.forming]
    · intro b' hb'
      obtain rfl := List.mem_singleton.mp hb'
      exact hbatch
  | sendFailed c b hfail =>
    simp only [Op.failsSend, Bool.not_eq_false', Bool.and_eq_true] at hok
    exact absurd hok hfail
  | sendBegun =>
    obtain ⟨b, hb⟩ := hF
    exact .within rfl rfl hmode rfl ⟨b, hb.congr (unhandled_add rfl rfl rfl rfl le_rfl), hb.count,
      Nat.zero_le _⟩ rfl
  | @sentFreed n i packet hlt hstore =>
    obtain ⟨b, hb, rfl, hi⟩ := hF
    have hlt' : i < b.length := by omega
    obtain ⟨earlier, hhanded, hfreed⟩ := hb.freed
    refine .within rfl rfl hmode rfl ⟨b, ⟨hb.count, hb.stores, earlier, ?_, ?_⟩, rfl, hlt'⟩ rfl
    · simpa [SendLog.add, Op.handed] using hhanded
    · have hget : b[i]? = some packet := (hb.stores i hlt').symm.trans hstore
      simp only [SendLog.add, hfreed, List.append_assoc, List.take_add_one, hget,
        Option.toList_some]
  | @sentDone n i hge =>
    obtain ⟨b, hb, rfl, hi⟩ := hF
    obtain rfl : i = b.length := by omega
    obtain ⟨earlier, hhanded, hfreed⟩ := hb.freed
    refine .within rfl rfl hmode rfl ⟨hb.count, ?_⟩ rfl
    simp [SendLog.add, Op.handed, hhanded, hfreed]
  | countSubtracted n =>
    obtain ⟨hcount, hfreed⟩ := hF
    refine .within rfl rfl hmode rfl ⟨?_, ?_⟩ rfl
    · dsimp only
      omega
    · simpa [SendLog.add, Op.handed] using hfreed
  | sendReset =>
    exact .gives rfl rfl ⟨rfl, rfl⟩ rfl rfl
      (Settled.congr hF (unhandled_add rfl rfl rfl rfl le_rfl)) rfl
  | _ => exact absurd hpos (lt_irrefl 0)

/-! ## Steps of others -/

theorem Op.forming_of_holds (h : op.holds = 0) : op.forming = [] := by
  cases op <;> first | rfl | cases h

/-- An operation that neither holds the token nor frees only adds to the queue. -/
theorem Exec.unhandled (h : Exec cfg ok sid se ids op o) (hholds : op.holds = 0)
    (hfrees : op.frees = 0) :
    op.handed = [] ∧ o.freed = [] ∧ o.session.sendQ = se.sendQ ++ op.enqueued := by
  cases h with
  | enqueued packet => exact ⟨rfl, rfl, rfl⟩
  | ringFull | recvFailed | workerEnded => exact ⟨rfl, rfl, (List.append_nil se.sendQ).symm⟩
  | _ =>
    first
    | exact ⟨rfl, rfl, (List.append_nil _).symm⟩
    | exact absurd hholds Nat.one_ne_zero
    | exact absurd hfrees Nat.one_ne_zero

/-- It takes no packets along either. -/
theorem Exec.forming_next (h : Exec cfg ok sid se ids op o) (hholds : op.holds = 0) :
    o.next.toList.flatMap Op.forming = [] := by
  refine List.flatMap_eq_nil_iff.mpr fun op' hop' => ?_
  rcases Nat.eq_zero_or_pos op'.holds with hzero | hpos
  · exact Op.forming_of_holds hzero
  · obtain ⟨-, c, rfl⟩ := h.next_of_holds hholds (Option.mem_toList.mp hop') hpos
    rfl

/-- The operations on other channels are not recorded. -/
theorem record_of_none (h : s.outcome cfg sid e = none) :
    log.record cfg sid s e = { log with sent := log.sent ++ s.puts e } := by
  rw [SendLog.record, h]

theorem record_of_some (h : s.outcome cfg sid e = some (op, o)) :
    log.record cfg sid s e = { log with sent := log.sent ++ s.puts e }.add op o := by
  rw [SendLog.record, h]

theorem record_sent : (log.record cfg sid s e).sent = log.sent ++ s.puts e := by
  rw [SendLog.record]
  split <;> rfl

theorem record_enqueued : (log.record cfg sid s e).enqueued =
    log.enqueued ++ (s.outcome cfg sid e).elim [] fun x => x.1.enqueued := by
  rw [SendLog.record]
  split
  · rename_i hout
    rw [hout]
    rfl
  · rename_i hout
    rw [hout]
    exact (List.append_nil _).symm

/-- What a step of somebody else leaves alone. -/
structure Untouched (sid : ℕ) (log log' : SendLog) (s s' : State) : Prop where
  unhandled : Unhandled log log' (s.session sid) (s'.session sid)
  forming : s'.forming sid = s.forming sid
  queued : ∃ new, (s'.session sid).sendQ = (s.session sid).sendQ ++ new ∧
    log'.enqueued = log.enqueued ++ new

/-- A step without an operation on the channel. -/
theorem untouched_of_same (hout : s.outcome cfg sid e = none)
    (hstore : (s'.session sid).lBufferCount = (s.session sid).lBufferCount ∧
      (s'.session sid).serializeBufStore = (s.session sid).serializeBufStore)
    (hq : (s'.session sid).sendQ = (s.session sid).sendQ)
    (hforming : s'.forming sid = s.forming sid) :
    Untouched sid log (log.record cfg sid s e) s s' := by
  rw [record_of_none hout]
  exact ⟨⟨rfl, rfl, hstore.1, hstore.2, by rw [hq]⟩, hforming, [], by rw [hq, List.append_nil],
    (List.append_nil _).symm⟩

theorem Step.untouched (hs : Step cfg s e s') (log : SendLog) (hst : Staffed cfg s)
    (hreleased : tally Op.releases (s.ops sid) = 0)
    (hother : ∀ op ok o, ¬ s.holderRuns cfg sid e op ok o) :
    Untouched sid log (log.record cfg sid s e) s s' := by
  have hstore := hs.store_of_other hst hother
  have hadd : ∀ {op' : Op}, Replaces [] [op'] (s.ops sid) (s'.ops sid) → op'.forming = [] →
      s'.forming sid = s.forming sid :=
    fun hops hnil => hops.flatMap_congr (by simp [hnil])
  have hsame : s'.ops sid = s.ops sid → s'.forming sid = s.forming sid :=
    fun hops => by rw [State.forming, hops]; rfl
  cases hs.alters sid with
  | kept hse hops hcrash =>
    exact untouched_of_same (outcome_of_crash hcrash) hstore (by rw [hse]) (hsame hops)
  | started hid hse hops => exact untouched_of_same rfl hstore (by rw [hse]; rfl) (hadd hops rfl)
  | sent _ _ _ _ _ hse _ hops => exact untouched_of_same rfl hstore (by rw [hse]) (hadd hops rfl)
  | finished hr hse hops => exact untouched_of_same rfl hstore (by rw [hse]; rfl) (hsame hops)
  | @taken s' i k t c _ _ hc hse hops =>
    have hnil : c.op.forming = [] := by
      cases c with
      | recv data =>
        simp only [Completion.op]
        split <;> rfl
      | send b => rfl
    exact untouched_of_same rfl hstore (by rw [hse]; rfl) (hadd hops hnil)
  | reconnecting _ _ _ _ hse hops =>
    exact untouched_of_same rfl hstore (by rw [hse]) (hadd hops rfl)
  | @executed s' i t op o ok hi hsid hop ho hse hids hops =>
    have hx := execOp_cases ho
    have hrun : s.running sid (.exec i ok) = some (op, ok) := running_eq hi hsid hop
    have hmem : op ∈ s.ops sid := hops.mem_old List.mem_cons_self
    have hzero := Nat.eq_zero_of_not_pos fun hpos => hother op ok o ⟨hrun, hpos, ho⟩
    have hnorel : op.frees = 0 :=
      Nat.le_zero.mp (tally_eq_zero.mp hreleased op hmem ▸ op.frees_le_releases)
    obtain ⟨hhanded, hfreed, hq⟩ := hx.unhandled hzero hnorel
    rw [hse] at hstore
    rw [record_of_some (outcome_eq hrun ho)]
    refine ⟨.of_sent (hse ▸ unhandled_add hhanded hfreed hstore.1 hstore.2 ?_),
      hops.flatMap_congr ?_, op.enqueued, hse ▸ hq, rfl⟩
    · rw [hx.forming_next hzero, List.flatMap_singleton, Op.forming_of_holds hzero]
    · rw [hq, List.length_append]
      omega

/-! ## The invariant -/

/-- A packet that was sent with a `fixedId` is put into the channel of that id. -/
def Addressed (cfg : Config) (s : State) : Prop :=
  ∀ t ∈ s.threads, ∀ p, t.op = some (.enqueue p) → ∀ fixedId, p.fixedId = some fixedId →
    t.session = fixedId.toNat % cfg.numOfUsingWorkerThread

theorem Exec.next_ne_enqueue (h : Exec cfg ok sid se ids op o) :
    o.next ≠ some (.enqueue packet) := by
  have hresume : ∀ {c : Caller} {r : PostRetval}, c.resume r ≠ some (.enqueue packet) := by
    intro c r
    cases c <;> cases r <;> simp [Caller.resume]
  have hdec : ∀ {c : Caller} {next : Option Op}, next ≠ some (.enqueue packet) →
      (decrement se ids c next).next ≠ some (.enqueue packet) := by
    intro c next hne
    rcases decrement_next se ids c next with h | h
    · rw [h]; simp
    · rw [h]; exact hne
  cases h with
  | casFailed c | recheckEmpty c | recvPosted c | pushed c => exact hresume
  | ringFull c | recvFailed c | sendFailed c => exact hdec hresume
  | workerEnded => exact hdec (by simp)
  | socketClosed c =>
    dsimp only
    split
    · simp
    · exact hresume
  | _ => simp

theorem addressed_of_reachable (h : (system cfg).Reachable s) : Addressed cfg s := by
  refine reachable_of_step (C := fun _ _ => True) (P := Addressed cfg) (fun senders => ?_)
    (fun s e s' _ hP _ hs => ?_) h
  · intro t ht p hp
    obtain ⟨-, hops⟩ := (staffed_initial cfg senders).fresh t.session (Nat.zero_le _)
    have : Op.enqueue p ∈ (initialState cfg senders).ops t.session := mem_ops.mpr ⟨t, ht, rfl, hp⟩
    rw [hops] at this
    cases this
  · have hset : ∀ {i sid : ℕ} {t : Thread} {op : Option Op}, s'.threads =
        s.threads.set i { t with session := sid, op := op } →
        (∀ p, op = some (.enqueue p) → ∀ fixedId, p.fixedId = some fixedId →
          sid = fixedId.toNat % cfg.numOfUsingWorkerThread) → Addressed cfg s' := by
      intro i sid t op hthreads hnew u hu p hp
      rcases List.mem_or_eq_of_mem_set (hthreads ▸ hu) with hu | rfl
      · exact hP u hu p hp
      · exact hnew p hp
    cases hs with
    | sessionStarted => exact hset rfl (by simp)
    | startReturned | sendCrashed | finished | execCrashed => exact hP
    | packetSent _ _ _ _ hchannel =>
      refine hset rfl fun p hp fixedId hfixed => ?_
      obtain rfl := Op.enqueue.inj (Option.some.inj hp)
      dsimp only at hfixed
      subst hfixed
      simp only [getChannelId, Prod.mk.injEq] at hchannel
      have hsid := hchannel.1
      split at hsid
      · cases hsid
      · exact (Option.some.inj hsid).symm
    | @taken i sid k t c =>
      refine hset rfl fun p hp => ?_
      cases c with
      | recv data =>
        simp only [Completion.op] at hp
        split at hp <;> cases hp
      | send b => cases hp
    | reconnecting => exact hset rfl (by simp)
    | executed ok hi hop ho =>
      exact hset rfl fun p hp => absurd hp (execOp_cases ho).next_ne_enqueue

/-- Selects the packets sent with a `fixedId`. -/
def Buffer.sentWith (fixedId : UInt64) (packet : Buffer) : Bool := packet.fixedId = some fixedId

/-- **What holds of a live connection and its record.** -/
structure Ordered (cfg : Config) (sid : ℕ) (s : State) (log : SendLog) : Prop where
  tokens : s.tokens sid = (s.session sid).ioMode.taken
  released : tally Op.releases (s.ops sid) = 0
  carried : Carried sid (Entitled log (s.session sid)) (AtKernel log (s.session sid))
    (Settled log (s.session sid)) s
  moved : log.handed.flatten ++ s.forming sid ++ (s.session sid).sendQ = log.enqueued
  batch : ∀ b ∈ log.handed, Batch b
  fixedId : ∀ fixedId : UInt64, fixedId.toNat % cfg.numOfUsingWorkerThread = sid →
    log.enqueued.filter (Buffer.sentWith fixedId) = log.sent.filter (Buffer.sentWith fixedId)

theorem ordered_of_atRest (hr : (system cfg).Reachable s) (h : AtRest sid s) :
    Ordered cfg sid s .empty := by
  have hzero : ∀ op ∈ s.ops sid, op.holds = 0 := fun op hop =>
    holds_of_not_sends (h.idle.ops op hop)
  have hnone := not_mem_of_sends h.idle.outstanding
  refine ⟨(sendAlive_of_atRest h).tokens, h.released, ⟨fun op hop hpos => ?_, fun b hb => ?_,
    fun b hb => ?_, fun hmode => ⟨lBufferCount_eq_zero hr hmode, rfl⟩⟩, ?_, by simp [SendLog.empty],
    fun _ _ => rfl⟩
  · exact absurd (hzero op hop) hpos.ne'
  · exact absurd hb (hnone b).1
  · exact absurd hb (hnone b).2
  · have hforming : s.forming sid = [] :=
      List.flatMap_eq_nil_iff.mpr fun op hop => Op.forming_of_holds (hzero op hop)
    rw [hforming, h.drained.sendQ]
    rfl

/-- No `ReleaseSession` begins on a live connection. -/
theorem Step.released (hs : Step cfg s e s') (hlive : live cfg sid s e = true)
    (h : tally Op.releases (s.ops sid) = 0) : tally Op.releases (s'.ops sid) = 0 := by
  have hadd : ∀ {op' : Op}, Replaces [] [op'] (s.ops sid) (s'.ops sid) → op'.releases = 0 →
      tally Op.releases (s'.ops sid) = 0 := by
    intro op' hops hzero
    have := hops.tally_eq Op.releases
    simp only [tally_nil, tally_cons] at this
    omega
  cases hs.alters sid with
  | kept _ hops | finished _ _ hops => rw [hops]; exact h
  | started _ _ hops | sent _ _ _ _ _ _ _ hops | reconnecting _ _ _ _ _ hops => exact hadd hops rfl
  | @taken s' i k t c _ _ _ _ hops =>
    refine hadd hops ?_
    cases c with
    | recv data =>
      simp only [Completion.op]
      split <;> rfl
    | send b => rfl
  | executed hi hsid hop ho hse hids hops =>
    have hmem := hops.mem_old List.mem_cons_self
    have hnext := (execOp_cases ho).releases (tally_eq_zero.mp h _ hmem)
    rw [if_neg (not_releasing_of_live hlive (running_eq hi hsid hop))] at hnext
    have := hops.tally_eq Op.releases
    simp only [tally_nil, tally_cons] at this
    omega

/-- A packet put into another channel has not the `fixedId` of this one. -/
theorem Step.puts_filter (hs : Step cfg s e s') (ha : Addressed cfg s) {fixedId : UInt64}
    (hsid : fixedId.toNat % cfg.numOfUsingWorkerThread = sid) :
    (s.puts e).filter (Buffer.sentWith fixedId) =
      ((s.outcome cfg sid e).elim [] fun x => x.1.enqueued).filter (Buffer.sentWith fixedId) := by
  cases hs with
  | @executed i t op o ok hi hop ho =>
    have hputs : s.puts (.exec i ok) = op.enqueued := by simp [State.puts, hi, hop]
    rw [hputs]
    by_cases hthere : t.session = sid
    · subst hthere
      rw [outcome_eq (running_eq hi rfl hop) ho]
      rfl
    · have hnone : s.outcome cfg sid (.exec i ok) = none := by
        rw [State.outcome, running_of_ne hi hthere]
        rfl
      rw [hnone]
      cases op with
      | enqueue p =>
        have hp : Buffer.sentWith fixedId p = false := by
          simp only [Buffer.sentWith, decide_eq_false_iff_not]
          intro hfixed
          exact hthere ((ha t (List.mem_of_getElem? hi) p hop fixedId hfixed).trans hsid)
        simp [Op.enqueued, hp]
      | _ => rfl
  | @execCrashed i t op ok hi hop hcrash =>
    have hputs : s.puts (.exec i ok) = [] := by
      simp only [State.puts, hi, Option.bind_some, hop]
      cases op with
      | enqueue p => simp [execOp] at hcrash
      | _ => rfl
    have hout : s.outcome cfg sid (.exec i ok) = none := by
      by_cases hthere : t.session = sid
      · subst hthere
        simp [State.outcome, running_eq hi rfl hop, hcrash]
      · rw [State.outcome, running_of_ne hi hthere]
        rfl
    rw [hputs, hout]
    rfl
  | _ => rfl

/-- **Every step of a live connection keeps the order.** -/
theorem Ordered.step (h : Ordered cfg sid s log) (hr : (system cfg).Reachable s)
    (hlive : live cfg sid s e = true) (hs : Step cfg s e s') :
    Ordered cfg sid s' (log.record cfg sid s e) := by
  have hst := staffed_of_reachable hr
  have hle := h.tokens.le
  have hfails := sendFails_of_live hlive
  -- the holder's step, with what it hands on
  have hholder : ∀ {op ok o}, s.holderRuns cfg sid e op ok o →
      log.record cfg sid s e = { log with sent := log.sent ++ s.puts e }.add op o ∧
      s'.session sid = o.session ∧ Replaces [op] o.next.toList (s.ops sid) (s'.ops sid) ∧
      HandsOn { log with sent := log.sent ++ s.puts e } (s.session sid) op o := by
    intro op ok o hh
    obtain ⟨hrun, hpos, ho⟩ := hh
    obtain ⟨hse, hops⟩ := hs.session_of_outcome hrun ho
    have hmem : op ∈ s.ops sid := hops.mem_old List.mem_cons_self
    refine ⟨record_of_some (outcome_eq hrun ho), hse, hops, (execOp_cases ho).handsOn hpos
      (mode_of_holds hle hmem hpos) ?_ (h.carried.ops op hmem hpos).of_sent⟩
    simpa only [sendFails, hrun] using hfails
  refine ⟨hs.tokens_eq hst hfails h.tokens, hs.released hlive h.released, ?_, ?_, ?_,
    fun fixedId hsid => ?_⟩
  · refine h.carried.step hs hst hle (fun hother => ?_) (fun hI _ => hI) (fun b hb => ⟨b, hb⟩)
      (fun op ok o hh hF => ?_)
    · obtain ⟨hu, -, -⟩ := hs.untouched log hst h.released hother
      exact ⟨fun op _ _ hF => hF.congr hu, fun b _ hb => hb.congr hu, fun hI => hI.congr hu⟩
    · obtain ⟨hlog, hse, -, hon⟩ := hholder hh
      rw [hlog, hse]
      exact ⟨hon.next, hon.kernel, hon.idle⟩
  · by_cases hother : ∀ op ok o, ¬ s.holderRuns cfg sid e op ok o
    · obtain ⟨hu, hforming, new, hq, henq⟩ := hs.untouched log hst h.released hother
      rw [hu.handed, hforming, hq, henq, ← h.moved, List.append_assoc, List.append_assoc,
        List.append_assoc]
    · push Not at hother
      obtain ⟨op, ok, o, hh⟩ := hother
      obtain ⟨hlog, hse, hops, hon⟩ := hholder hh
      -- nobody but the holder has packets between the queue and the kernel
      have hone := (alone_of_holds hle (mem_ops_of_running hh.1) hh.2.1).2
      obtain ⟨hold, hnew⟩ := hops.flatMap_eq (F := Op.forming) (fun _ => Op.forming_of_holds) hone
      rw [State.forming, hnew, hlog, hse, hon.moved, ← List.flatMap_singleton Op.forming op, ← hold]
      have henq : op.enqueued = [] := by
        have := hh.2.1
        cases op <;> first | rfl | exact absurd this (lt_irrefl 0)
      simp only [SendLog.add, henq, List.append_nil]
      exact h.moved
  · by_cases hother : ∀ op ok o, ¬ s.holderRuns cfg sid e op ok o
    · obtain ⟨hu, -, -⟩ := hs.untouched log hst h.released hother
      rw [hu.handed]
      exact h.batch
    · push Not at hother
      obtain ⟨op, ok, o, hh⟩ := hother
      obtain ⟨hlog, -, -, hon⟩ := hholder hh
      intro b hb
      rw [hlog] at hb
      rcases List.mem_append.mp hb with hb | hb
      · exact h.batch b hb
      · exact hon.batch b hb
  · rw [record_enqueued, record_sent, List.filter_append, List.filter_append,
      h.fixedId fixedId hsid, hs.puts_filter (addressed_of_reachable hr) hsid]

/-! ## The result -/

/-- How many buffers of its batch a send completion has freed. -/
def Op.freesFrom : Op → Option ℕ
  | .sendCompleted => some 0
  | .freeSent _ i => some i
  | _ => none

/-- A batch at the kernel, or in the completion queue. -/
def Session.outstandingSend (se : Session) (b : List Buffer) : Prop :=
  .send b ∈ se.posted ∨ .send b ∈ se.completed

/-- **In order, and exactly once.** -/
structure HandedOver (cfg : Config) (sid : ℕ) (s : State) (log : SendLog) : Prop where
  /-- The packets handed over, the ones on their way and the ones in `SendQ` are those enqueued. -/
  order : log.handed.flatten ++ s.forming sid ++ (s.session sid).sendQ = log.enqueued
  batch : ∀ b ∈ log.handed, 1 ≤ b.length ∧ b.length ≤ iocpOneSendWsabufMax
  outstanding : (s.session sid).sends ≤ 1
  /-- While a batch is outstanding it is what the store begins with. -/
  store : ∀ b, (s.session sid).outstandingSend b → (s.session sid).lBufferCount = b.length ∧
    ∀ i < b.length, (s.session sid).serializeBufStore i = b[i]?
  /-- It was handed over last, and everything before it is freed. -/
  freedBefore : ∀ b, (s.session sid).outstandingSend b →
    ∃ earlier, log.handed = earlier ++ [b] ∧ log.freed = earlier.flatten
  /-- Its own completion frees it, one buffer after the other. -/
  freedNow : ∀ op ∈ s.ops sid, ∀ n ∈ op.freesFrom,
    ∃ earlier b, log.handed = earlier ++ [b] ∧ log.freed = earlier.flatten ++ b.take n
  /-- Then, and until the next `WSASend`, all that was handed over is freed. -/
  freedAfter : (s.session sid).sends = 0 → (∀ op ∈ s.ops sid, op.freesFrom = none) →
    log.freed = log.handed.flatten
  /-- The packets sent with one `fixedId` are all here, in the order in which they were sent. -/
  fixedId : ∀ fixedId : UInt64, fixedId.toNat % cfg.numOfUsingWorkerThread = sid →
    (log.handed.flatten ++ s.forming sid ++ (s.session sid).sendQ).filter
      (fun packet => packet.fixedId = some fixedId) =
    log.sent.filter (fun packet => packet.fixedId = some fixedId)

theorem Ordered.kernel (h : Ordered cfg sid s log) (hb : (s.session sid).outstandingSend b) :
    Stored log (s.session sid) b 0 :=
  hb.elim (h.carried.posted b) (h.carried.completed b)

theorem Ordered.handedOver (h : Ordered cfg sid s log) : HandedOver cfg sid s log := by
  have htaken := (s.session sid).ioMode.taken_le_one
  have htokens := h.tokens
  rw [State.tokens] at htokens
  refine ⟨h.moved, h.batch, by omega, fun b hb => ⟨(h.kernel hb).count, (h.kernel hb).stores⟩,
    fun b hb => ?_, fun op hop n hn => ?_, fun hsends hnone => ?_, fun fixedId hsid => ?_⟩
  · obtain ⟨earlier, hhanded, hfreed⟩ := (h.kernel hb).freed
    exact ⟨earlier, hhanded, by rw [hfreed, List.take_zero, List.append_nil]⟩
  · cases op with
    | sendCompleted =>
      obtain rfl : n = 0 := (Option.some.inj hn).symm
      obtain ⟨b, hb⟩ := h.carried.ops _ hop Nat.one_pos
      obtain ⟨earlier, hfreed⟩ := hb.freed
      exact ⟨earlier, b, hfreed⟩
    | freeSent m i =>
      obtain rfl : n = i := (Option.some.inj hn).symm
      obtain ⟨b, hb, -, -⟩ := h.carried.ops _ hop Nat.one_pos
      obtain ⟨earlier, hfreed⟩ := hb.freed
      exact ⟨earlier, b, hfreed⟩
    | _ => cases hn
  · cases hm : (s.session sid).ioMode with
    | nonSending => exact (h.carried.idle hm).2
    | sending =>
      -- somebody holds the token, and it is not the kernel
      rw [hm, hsends, IoMode.taken] at htokens
      obtain ⟨op, hop, hpos⟩ := tally_pos.mp (by omega : 0 < tally Op.holds (s.ops sid))
      have hF := h.carried.ops op hop hpos
      have hnot := hnone op hop
      cases op with
      | sendCompleted | freeSent => cases hnot
      | dequeue | setBufferCount => exact hF.1.2
      | countSend | wsaSend => exact hF.1
      | subtractCount => exact hF.2
      | getRestSize | resetMode | resetSending => exact And.right hF
      | _ => exact absurd hpos (lt_irrefl 0)
  · rw [h.moved]
    exact h.fixedId fixedId hsid

/-- **In-order, exactly-once hand-over**, at every moment of a live connection. -/
theorem handedOver_of_live {x : State × SendLog}
    (h : ((connection cfg sid).recorded SendLog.empty (SendLog.record cfg sid)).ReachableUnder
      (fun x e => live cfg sid x.1 e = true) x) : HandedOver cfg sid x.1 x.2 := by
  refine Ordered.handedOver (System.ReachableUnder.recorded_invariant (P := Ordered cfg sid)
    (fun s (hs : (system cfg).Reachable s ∧ AtRest sid s) => ordered_of_atRest hs.1 hs.2)
    (fun s log e s' hr hP hlive hs => ?_) h)
  exact hP.step (reachable_of_connection hr) hlive (step_cases hs)

/-- Two threads send; both packets are handed over, one after the other, and freed. -/
theorem handedOver_twoSenders : ∃ x : State × SendLog,
    (x.2.handed = [[⟨0, none⟩], [⟨1, none⟩]] ∧ x.2.freed = [⟨0, none⟩, ⟨1, none⟩]) ∧
      HandedOver oneChannel 0 x.1 x.2 := by
  obtain ⟨x, hx, hf⟩ := System.exists_reachableUnder
    ((connection oneChannel 0).recorded SendLog.empty (SendLog.record oneChannel 0)) twoSendersRun
    (s := (initialState oneChannel 2, SendLog.empty)) (c := fun x e => live oneChannel 0 x.1 e)
    (f := fun x => decide
      (x.2.handed = [[⟨0, none⟩], [⟨1, none⟩]] ∧ x.2.freed = [⟨0, none⟩, ⟨1, none⟩]))
    ⟨⟨.init ⟨2, rfl⟩, atRest_initial 2⟩, rfl⟩ (by decide +kernel)
  exact ⟨x, of_decide_eq_true hf, handedOver_of_live hx⟩

end MultiLanClient

end DdingGameServer
