import DdingGameServer.MultiLanClient.Packets
/-!
# MultiLanClient — who frees a packet

A packet is freed by the handler of its completion, by `ReleaseSession` from the store, or by
`ReleaseSession` from the queue. What each of them does to the store and the queue is said here, one
operation at a time: the store begins with the packets it counts, of which the first are freed, and
an operation moves packets on without losing or doubling one.
-/

namespace DdingGameServer

namespace MultiLanClient

variable {cfg : Config} {s s' : State} {e : Event} {sid i i' : ℕ} {op op' : Op} {ok : Bool}
  {se se' : Session} {ids : List ℕ} {o : Outcome} {c : Caller} {r : PostRetval} {packet : Buffer}
  {b b' w : List Buffer}

/-! ## What is recorded -/

/-- What became of the packets of one session. -/
structure FreeLog where
  /-- The packets put into its `SendQ`. -/
  enqueued : List Buffer
  /-- The buffers passed to `CSerializationBuf::Free`, by threads at any session. -/
  freed : List Buffer
  /-- The packets enqueued when its last `ReleaseSession` began. -/
  began : List Buffer
  /-- Those a `ReleaseSession` has left behind that is through with its loops. -/
  released : List Buffer
  /-- A `WSASend` has failed. -/
  sendFailed : Bool
  /-- `ReleaseSession` was called after that. -/
  releasedSince : Bool

def FreeLog.empty : FreeLog := ⟨[], [], [], [], false, false⟩

/-- The record at the beginning and at the end of the loops of `ReleaseSession`. -/
def FreeLog.mark (log : FreeLog) : Op → FreeLog
  | .releaseSession _ => { log with began := log.enqueued, releasedSince := log.sendFailed }
  | .freeQueued _ 0 _ => { log with released := log.released ++ log.began }
  | _ => log

/-- The record of packets after a step. -/
def FreeLog.note (cfg : Config) (sid : ℕ) (log : FreeLog) (s : State) (e : Event) : FreeLog :=
  { log with
    enqueued := log.enqueued ++ s.enqueues cfg sid e
    freed := log.freed ++ s.frees cfg e
    sendFailed := log.sendFailed || sendFails sid s e }

/-- The record after a step. -/
def FreeLog.record (cfg : Config) (sid : ℕ) (log : FreeLog) (s : State) (e : Event) : FreeLog :=
  match s.outcome cfg sid e with
  | some (op, _) => (log.note cfg sid s e).mark op
  | none => log.note cfg sid s e

/-- 1 for an operation that works on the store or takes from the queue. -/
def Op.carries : Op → ℕ
  | .dequeue _ _ _ | .setBufferCount _ _ | .countSend _ _ | .wsaSend _ _ | .sendCompleted
  | .freeSent _ _ | .subtractCount _ => 1
  | _ => 0

variable {log log' : FreeLog}

/-! ## What the store holds -/

/-- The packets a thread has taken from the queue and not counted yet. -/
def Op.dequeued : Op → List Buffer
  | .dequeue _ _ w | .setBufferCount _ w => w
  | _ => []

/-- How often the packet is among them. -/
def Op.takes (packet : Buffer) (op : Op) : ℕ := op.dequeued.count packet

/-- **The store begins with the packets it counts**, `i` of which are freed. -/
structure Session.counts (se : Session) (b : List Buffer) (i : ℕ) : Prop where
  count : se.lBufferCount = b.length
  stores : se.stores b
  le : i ≤ b.length

/-- What the holder of the token knows of the store. -/
def Holding (se : Session) (b : List Buffer) (i : ℕ) : Op → Prop
  | .dequeue _ useSize w =>
    b = [] ∧ se.stores w ∧ w.length ≤ useSize ∧ useSize ≤ w.length + se.sendQ.length
  | .setBufferCount _ w => b = [] ∧ se.stores w
  | .countSend _ _ | .wsaSend _ _ | .sendCompleted => i = 0
  | .freeSent n j => n = b.length ∧ j = i
  | .subtractCount n => n = b.length ∧ i = b.length
  | _ => b = []

/-- Every packet `ReleaseSession` found is freed, among `live`, or among `q`. -/
structure Left (log : FreeLog) (live q : List Buffer) : Prop where
  marked : log.sendFailed = true → log.releasedSince = true
  began : ∀ packet ∈ log.began, packet ∈ log.freed ∨ packet ∈ live ∨ packet ∈ q

/-- What a thread in `ReleaseSession` knows. -/
def Freeing (log : FreeLog) (se : Session) (b : List Buffer) (i : ℕ) : Op → Prop
  | .readRestSize _ n => n = b.length ∧ i = 0 ∧ Left log b se.sendQ
  | .freeStored _ n j rest =>
    n = b.length ∧ j = i ∧ rest ≤ se.sendQ.length ∧ Left log (b.drop i) (se.sendQ.take rest)
  | .freeQueued _ rest _ =>
    i = b.length ∧ rest ≤ se.sendQ.length ∧ Left log [] (se.sendQ.take rest)
  | _ => True

/-- An operation moves packets and loses none: from the thread into the queue, out of the queue,
into the store, and out of it. -/
def Conserves (se : Session) (op : Op) (o : Outcome) (live live' : List Buffer) : Prop :=
  ∀ packet, o.freed.count packet + live'.count packet +
      tally (Op.takes packet) o.next.toList + o.session.sendQ.count packet =
    live.count packet + op.takes packet + se.sendQ.count packet + op.waits packet

/-- An operation that only hands on what it has. -/
theorem conserves_of_same {live : List Buffer} (hfreed : o.freed = [])
    (hq : o.session.sendQ = se.sendQ) (henq : op.enqueued = [])
    (hnext : ∀ packet, tally (Op.takes packet) o.next.toList = op.takes packet) :
    Conserves se op o live live := by
  intro packet
  rw [hfreed, hq, hnext, Op.waits, henq, List.count_nil]
  omega

/-! ## Operations of the holder -/

/-- **What the holder's step leaves**: the store counts `b'`, `i'` of which are freed. -/
structure Passes (ok : Bool) (se : Session) (op : Op) (o : Outcome) (b : List Buffer) (i : ℕ)
    (b' : List Buffer) (i' : ℕ) : Prop where
  counts : o.session.counts b' i'
  conserves : Conserves se op o (b.drop i) (b'.drop i')
  next : ∀ op' ∈ o.next, 0 < op'.holds → Holding o.session b' i' op'
  kernel : ∀ w, .send w ∈ o.session.posted → .send w ∉ se.posted → i' = 0
  idle : o.session.ioMode = .nonSending → b' = []
  failed : op.failsSend ok se = true → i' = 0
  /-- An operation that does not carry packets leaves all as it was. -/
  same : op.carries = 0 → b' = b ∧ i' = i ∧ o.session.sendQ = se.sendQ

theorem Session.counts.of_eq (h : se.counts b i) (hcount : se'.lBufferCount = se.lBufferCount)
    (hstore : se'.serializeBufStore = se.serializeBufStore) : se'.counts b i :=
  ⟨hcount.trans h.count, fun k hk => (congrFun hstore k).trans (h.stores k hk), h.le⟩

theorem counts_nil (h : se.lBufferCount = 0) : se.counts [] 0 := ⟨h, stores_nil, le_rfl⟩

/-- A step within the token's own operations. -/
theorem Passes.within (hnext : o.next = some op') (hposted : o.session.posted = se.posted)
    (hmode : o.session.ioMode = .sending) (hfails : op.failsSend ok se = false)
    (hcounts : o.session.counts b' i') (hconserves : Conserves se op o (b.drop i) (b'.drop i'))
    (h : Holding o.session b' i' op')
    (hsame : op.carries = 0 → b' = b ∧ i' = i ∧ o.session.sendQ = se.sendQ) :
    Passes ok se op o b i b' i' := by
  refine ⟨hcounts, hconserves, ?_, fun w hw hnot => absurd (hposted ▸ hw) hnot,
    fun hnon => absurd (hmode.symm.trans hnon) (by decide),
    fun hf => absurd (hfails.symm.trans hf) Bool.false_ne_true, hsame⟩
  intro op₀ hop₀ _
  obtain rfl : op' = op₀ := by simpa [hnext] using hop₀
  exact h

/-- A step that gives the token back. -/
theorem Passes.gives (hnext : o.next = some op') (hholds : op'.holds = 0)
    (hposted : o.session.posted = se.posted) (hfails : op.failsSend ok se = false)
    (hcounts : o.session.counts b i) (hconserves : Conserves se op o (b.drop i) (b.drop i))
    (h : b = []) (hq : o.session.sendQ = se.sendQ) : Passes ok se op o b i b i := by
  refine ⟨hcounts, hconserves, ?_, fun w hw hnot => absurd (hposted ▸ hw) hnot, fun _ => h,
    fun hf => absurd (hfails.symm.trans hf) Bool.false_ne_true, fun _ => ⟨rfl, rfl, hq⟩⟩
  intro op₀ hop₀ hpos
  obtain rfl : op' = op₀ := by simpa [hnext] using hop₀
  omega

theorem dequeued_resume (r : PostRetval) :
    tally (Op.takes packet) (c.resume r).toList = 0 := by
  cases c <;> cases r <;> rfl

/-- The next packet of the store is freed. -/
theorem Session.counts.free (h : se.counts b i) (hi : i < b.length)
    (hstore : se.serializeBufStore i = some packet) :
    se.counts b (i + 1) ∧ b.drop i = packet :: b.drop (i + 1) := by
  refine ⟨⟨h.count, h.stores, hi⟩, ?_⟩
  have hget : b[i]? = some packet := (h.stores i hi).symm.trans hstore
  obtain ⟨_, rfl⟩ := List.getElem?_eq_some_iff.mp hget
  exact List.drop_eq_getElem_cons hi

theorem Exec.passes (h : Exec cfg ok sid se ids op o) (hpos : 0 < op.holds)
    (hmode : se.ioMode = .sending) (hcounts : se.counts b i) (hF : Holding se b i op) :
    ∃ b' i', Passes ok se op o b i b' i' := by
  cases h with
  | restEmpty c hempty =>
    exact ⟨b, i, .within rfl rfl hmode rfl hcounts (conserves_of_same rfl rfl rfl fun _ => rfl)
      hF fun _ => ⟨rfl, rfl, rfl⟩⟩
  | restFound c hsome =>
    refine ⟨b, i, .within rfl rfl hmode rfl hcounts (conserves_of_same rfl rfl rfl fun _ => rfl)
      ⟨hF, stores_nil, Nat.zero_le _, ?_⟩ fun _ => ⟨rfl, rfl, rfl⟩⟩
    rw [List.length_nil, Nat.zero_add]
    exact Nat.min_le_left _ _
  | modeReset c =>
    exact ⟨b, i, .gives rfl rfl rfl rfl (hcounts.of_eq rfl rfl)
      (conserves_of_same rfl rfl rfl fun _ => rfl) hF rfl⟩
  | @dequeued c u w q packet hlt hcons =>
    obtain ⟨rfl, hstores, hlen, hq⟩ := hF
    rw [hcons, List.length_cons] at hq
    refine ⟨[], 0, .within rfl rfl hmode rfl (counts_nil hcounts.count) (fun x => ?_)
      ⟨rfl, hstores.concat, ?_, ?_⟩ (fun h => absurd h Nat.one_ne_zero)⟩
    · simp only [hcons, Op.takes, Op.waits, Op.dequeued, Op.enqueued, List.drop_nil, List.count_nil,
        List.count_append, List.count_cons, Option.toList_some, tally_cons, tally_nil]
      omega
    · rw [List.length_append, List.length_singleton]
      omega
    · rw [List.length_append, List.length_singleton]
      dsimp only
      omega
  | dequeuedNothing c hlt hempty =>
    -- the packets counted before the loop are still there: only the holder takes them out
    obtain ⟨-, -, -, hq⟩ := hF
    rw [hempty, List.length_nil] at hq
    omega
  | dequeueDone c hge =>
    obtain ⟨rfl, hstores, -, -⟩ := hF
    exact ⟨[], i, .within rfl rfl hmode rfl hcounts (conserves_of_same rfl rfl rfl fun _ => rfl)
      ⟨rfl, hstores⟩ (fun h => absurd h Nat.one_ne_zero)⟩
  | bufferCountSet c w =>
    obtain ⟨rfl, hstores⟩ := hF
    refine ⟨w, 0, .within rfl rfl hmode rfl ⟨rfl, hstores, Nat.zero_le _⟩ (fun x => ?_) rfl
      (fun h => absurd h Nat.one_ne_zero)⟩
    simp [Op.takes, Op.waits, Op.dequeued, Op.enqueued]
  | sendCounted c w =>
    exact ⟨b, i, .within rfl rfl hmode rfl (hcounts.of_eq rfl rfl)
      (conserves_of_same rfl rfl rfl fun _ => rfl) hF
      (fun h => absurd h Nat.one_ne_zero)⟩
  | sent c w hok hconn =>
    refine ⟨b, i, hcounts.of_eq rfl rfl, conserves_of_same rfl rfl rfl fun _ => rfl, ?_,
      fun _ _ _ => hF, fun hnon => absurd (hmode.symm.trans hnon) (by decide), fun _ => hF,
      fun h => absurd h Nat.one_ne_zero⟩
    rintro _ ⟨⟩ hpos'
    exact absurd hpos' (lt_irrefl 0)
  | sendFailed c w hfail =>
    have hnext := holds_decrement se ids c (c.resume .err) holds_resume
    refine ⟨b, i, hcounts.of_eq rfl rfl, fun x => ?_, fun op' hop' hpos' => ?_,
      fun w' hw' hnot => absurd hw' hnot, fun hnon => absurd (hmode.symm.trans hnon) (by decide),
      fun _ => hF, fun h => absurd h Nat.one_ne_zero⟩
    · rw [tally_decrement, dequeued_resume]
      simp [decrement, Op.takes, Op.waits, Op.dequeued, Op.enqueued]
    · exact absurd (tally_eq_zero.mp hnext op' (Option.mem_toList.mpr hop')) hpos'.ne'
  | sendBegun =>
    obtain rfl : i = 0 := hF
    exact ⟨b, 0, .within rfl rfl hmode rfl hcounts (conserves_of_same rfl rfl rfl fun _ => rfl)
      ⟨hcounts.count, rfl⟩ (fun h => absurd h Nat.one_ne_zero)⟩
  | @sentFreed n j packet hlt hstore =>
    obtain ⟨rfl, rfl⟩ := hF
    obtain ⟨hcounts', hdrop⟩ := hcounts.free (by omega) hstore
    refine ⟨b, j + 1, .within rfl rfl hmode rfl hcounts' (fun x => ?_) ⟨rfl, rfl⟩
      (fun h => absurd h Nat.one_ne_zero)⟩
    simp only [hdrop, Op.takes, Op.waits, Op.dequeued, Op.enqueued, List.count_nil, List.count_cons,
      Option.toList_some, tally_cons, tally_nil]
    omega
  | @sentDone n j hge =>
    obtain ⟨rfl, rfl⟩ := hF
    have := hcounts.le
    exact ⟨b, j, .within rfl rfl hmode rfl hcounts (conserves_of_same rfl rfl rfl fun _ => rfl)
      ⟨rfl, by omega⟩ (fun h => absurd h Nat.one_ne_zero)⟩
  | countSubtracted n =>
    obtain ⟨rfl, rfl⟩ := hF
    refine ⟨[], 0, .within rfl rfl hmode rfl (counts_nil ?_) (fun x => ?_) rfl
      (fun h => absurd h Nat.one_ne_zero)⟩
    · dsimp only
      rw [hcounts.count]
      omega
    · simp [Op.takes, Op.waits, Op.dequeued, Op.enqueued]
  | sendReset =>
    exact ⟨b, i, .gives rfl rfl rfl rfl (hcounts.of_eq rfl rfl)
      (conserves_of_same rfl rfl rfl fun _ => rfl) hF rfl⟩
  | _ => exact absurd hpos (lt_irrefl 0)

/-! ## Operations of `ReleaseSession` -/

/-- **What a step of `ReleaseSession` leaves**, in the store and to itself. -/
structure Releases (log : FreeLog) (se : Session) (op : Op) (o : Outcome) (b : List Buffer)
    (i i' : ℕ) : Prop where
  counts : o.session.counts b i'
  conserves : Conserves se op o (b.drop i) (b.drop i')
  next : ∀ op' ∈ o.next, Freeing (log.mark op) o.session b i' op'
  /-- It reads the rest of the session, but does not touch it. -/
  session : o.session = { se with sendQ := o.session.sendQ }
  marked : (log.mark op).sendFailed = true → (log.mark op).releasedSince = true
  released : ∀ packet ∈ (log.mark op).released,
    packet ∈ log.released ∨ (packet ∈ log.began ∧ packet ∈ log.freed)

/-- The record of a step of which the session sees no more than what is freed. -/
structure FreeLog.Frees (log log' : FreeLog) (freed : List Buffer) : Prop where
  freed : log'.freed = log.freed ++ freed
  began : log'.began = log.began
  sendFailed : log'.sendFailed = log.sendFailed
  releasedSince : log'.releasedSince = log.releasedSince

/-- What is freed leaves the store or the queue. -/
theorem Left.free {freed live live' q q' : List Buffer} (h : Left log live q)
    (hlog : log.Frees log' freed) (hlive : ∀ packet ∈ live, packet ∈ freed ∨ packet ∈ live')
    (hq : ∀ packet ∈ q, packet ∈ freed ∨ packet ∈ q') : Left log' live' q' := by
  refine ⟨fun hfailed => ?_, fun packet hmem => ?_⟩
  · rw [hlog.releasedSince]
    exact h.marked (hlog.sendFailed ▸ hfailed)
  · rw [hlog.freed, List.mem_append]
    rcases h.began packet (hlog.began ▸ hmem) with hmem | hmem | hmem
    · exact .inl (.inl hmem)
    · exact (hlive packet hmem).imp .inr .inl
    · exact (hq packet hmem).imp .inr .inr

/-- `ReleaseSession` finds what is enqueued in the store and in the queue. -/
theorem Exec.releaseSession (h : Exec cfg ok sid se ids (.releaseSession c) o)
    (hcounts : se.counts b i) (hzero : i = 0)
    (hleft : ∀ packet ∈ log.enqueued, packet ∈ log.freed ∨ packet ∈ b ∨ packet ∈ se.sendQ) :
    Releases log se (.releaseSession c) o b i i := by
  cases h
  refine ⟨hcounts, conserves_of_same rfl rfl rfl fun _ => rfl, ?_, rfl, id, fun _ => .inl⟩
  rintro _ ⟨⟩
  exact ⟨hcounts.count, hzero, id, hleft⟩

/-- **The loops of `ReleaseSession`** free the store and then as much of the queue as they found. -/
theorem Exec.frees (h : Exec cfg ok sid se ids op o) (hpos : 0 < op.frees)
    (hne : ∀ c, op ≠ .releaseSession c) (hcounts : se.counts b i) (hF : Freeing log se b i op)
    (hlog : log.Frees log' o.freed) : ∃ i', Releases log' se op o b i i' := by
  have hmarked : (log.sendFailed = true → log.releasedSince = true) →
      log'.sendFailed = true → log'.releasedSince = true := fun h hfailed =>
    hlog.releasedSince.trans (h (hlog.sendFailed ▸ hfailed))
  cases h with
  | releaseEntered c => exact absurd rfl (hne c)
  | restRead c n =>
    obtain ⟨rfl, rfl, hleft⟩ := hF
    refine ⟨0, hcounts, conserves_of_same rfl rfl rfl fun _ => rfl, ?_, rfl,
      hmarked hleft.marked, fun _ => .inl⟩
    rintro _ ⟨⟩
    refine ⟨rfl, rfl, le_rfl, ?_⟩
    rw [List.take_length]
    exact hleft.free hlog (fun _ => .inr) (fun _ => .inr)
  | @storedFreed c n j rest packet hlt hstore =>
    obtain ⟨rfl, rfl, hrest, hleft⟩ := hF
    obtain ⟨hcounts', hdrop⟩ := hcounts.free (by omega) hstore
    refine ⟨j + 1, hcounts', fun x => ?_, ?_, rfl, hmarked hleft.marked, fun _ => .inl⟩
    · simp only [hdrop, Op.takes, Op.waits, Op.dequeued, Op.enqueued, List.count_nil,
        List.count_cons, Option.toList_some, tally_cons, tally_nil]
      omega
    · rintro _ ⟨⟩
      refine ⟨rfl, rfl, hrest, hleft.free hlog (fun x hx => ?_) (fun _ => .inr)⟩
      rw [hdrop] at hx
      exact (List.mem_cons.mp hx).imp_left List.mem_singleton.mpr
  | @storedDone c n j rest hge =>
    obtain ⟨rfl, rfl, hrest, hleft⟩ := hF
    have hdone : j = b.length := le_antisymm hcounts.le (by omega)
    refine ⟨j, hcounts, conserves_of_same rfl rfl rfl fun _ => rfl, ?_, rfl,
      hmarked hleft.marked, fun _ => .inl⟩
    rintro _ ⟨⟩
    refine ⟨hdone, hrest, hleft.free hlog (fun x hx => ?_) (fun _ => .inr)⟩
    rw [hdone, List.drop_length] at hx
    cases hx
  | @queuedFreed c rest deleteBuf packet q hcons =>
    obtain ⟨hdone, hrest, hleft⟩ := hF
    rw [hcons, List.length_cons] at hrest
    rw [hcons, List.take_succ_cons] at hleft
    refine ⟨i, hcounts.of_eq rfl rfl, fun x => ?_, ?_, rfl, hmarked hleft.marked, fun _ => .inl⟩
    · simp only [hcons, Op.takes, Op.waits, Op.dequeued, Op.enqueued, List.count_nil,
        List.count_cons, Option.toList_some, tally_cons, tally_nil]
      omega
    · rintro _ ⟨⟩
      refine ⟨hdone, Nat.le_of_succ_le_succ hrest, hleft.free hlog (fun _ => .inr) (fun x hx => ?_)⟩
      exact (List.mem_cons.mp hx).imp_left List.mem_singleton.mpr
  | queuedNothing c rest hempty =>
    -- nobody else takes packets from the queue
    obtain ⟨-, hrest, -⟩ := hF
    rw [hempty] at hrest
    exact absurd hrest (Nat.not_succ_le_zero _)
  | queuedDone c deleteBuf =>
    obtain ⟨hdone, -, hleft⟩ := hF
    have hleft' : Left log' [] [] := hleft.free hlog (fun _ => .inr) (fun _ => .inr)
    refine ⟨i, hcounts, conserves_of_same rfl rfl rfl fun _ => rfl, ?_, rfl, hleft'.marked,
      fun packet hmem => ?_⟩
    · rintro _ ⟨⟩
      exact trivial
    · refine (List.mem_append.mp hmem).imp_right fun hmem => ?_
      exact ⟨hmem, by simpa using hleft'.began packet hmem⟩
  | _ => exact absurd hpos (lt_irrefl 0)

/-- Nobody enters the loops but through the beginning of `ReleaseSession`. -/
theorem Exec.freeing_next (h : Exec cfg ok sid se ids op o) (hop : op.frees = 0)
    (hnext : o.next = some op') : Freeing log se' b i op' := by
  have hresume : ∀ {c : Caller} {r : PostRetval}, c.resume r = some op' →
      Freeing log se' b i op' := by
    intro c r hr
    cases c <;> cases r <;> simp only [Caller.resume, Option.some.injEq, reduceCtorEq] at hr <;>
      subst hr <;> exact trivial
  have hdec : ∀ {c : Caller} {next : Option Op}, (next = some op' → Freeing log se' b i op') →
      (decrement se ids c next).next = some op' → Freeing log se' b i op' := by
    intro c next hyes heq
    rcases decrement_next se ids c next with h | h
    · rw [h] at heq
      cases heq
      exact trivial
    · exact hyes (h.symm.trans heq)
  cases h with
  | casFailed c | recheckEmpty c | recvPosted c | pushed c => exact hresume hnext
  | sendFailed c | ringFull c | recvFailed c => exact hdec hresume hnext
  | workerEnded =>
    refine hdec (fun hnone => ?_) hnext
    cases hnone
  | socketClosed c =>
    dsimp only at hnext
    split at hnext
    · cases hnext
      exact trivial
    · exact hresume hnext
  | popped => cases hnext
  | releaseEntered | restRead | storedFreed | storedDone | queuedFreed | queuedNothing
  | queuedDone => exact absurd hop Nat.one_ne_zero
  | _ =>
    cases hnext
    exact trivial

theorem freeing_of_frees (h : op.frees = 0) : Freeing log se b i op := by
  cases op <;> first | exact trivial | exact absurd h Nat.one_ne_zero

end MultiLanClient

end DdingGameServer
