import DdingGameServer.Common.Tally
import DdingGameServer.MultiLanClient.Model
/-!
# MultiLanClient — what one step does

`Step` is `step` turned into cases. `State.ops sid` lists where the threads at the session `sid`
are, so that what a thread owes, holds or is about to do is a weight on its operation, added up
over the list. `Alters` is one step seen from one session: a thread comes to it with an operation,
executes one, or leaves, and the data of the session changes with that only.
-/

namespace DdingGameServer

namespace MultiLanClient

variable {cfg : Config} {s s' : State} {e : Event} {sid i k : ℕ} {t : Thread} {op : Op}
  {ok : Bool} {data : List UInt8} {se : Session} {ids : List ℕ} {o : Outcome} {c : Completion}

/-! ## The steps as cases -/

/-- The kernel finishes a request with what it received. -/
def Request.finish (r : Request) (data : List UInt8) : Completion :=
  match r with
  | .recv => .recv data
  | .send wsaSendBuf => .send wsaSendBuf

/-- The session after the `k`-th of its posted operations is finished. -/
def Session.finish (se : Session) (k : ℕ) (c : Completion) : Session :=
  { se with posted := se.posted.eraseIdx k, completed := se.completed ++ [c] }

/-- The session after a worker took the `k`-th of its completions. -/
def Session.take (se : Session) (k : ℕ) : Session :=
  { se with completed := se.completed.eraseIdx k }

/-- The session after `Start` connected it. -/
def Session.start (se : Session) : Session :=
  { se with lBufferCount := 0, ioMode := .nonSending, connected := true }

/-- **A step, with what its guard checked.** -/
inductive Step (cfg : Config) (s : State) : Event → State → Prop
  | sessionStarted {i : ℕ} {t : Thread} :
      s.threads[i]? = some t → t.role = .start → t.op = none →
      s.sessionIdGenerator < cfg.numOfSession →
      Step cfg s (.startSession i)
        { (s.setSession s.sessionIdGenerator (s.session s.sessionIdGenerator).start).goTo i t
            s.sessionIdGenerator (some (.recvPost .start)) with
          sessionIdGenerator := s.sessionIdGenerator + 1 }
  | startReturned {i : ℕ} {t : Thread} :
      s.threads[i]? = some t → t.role = .start → t.op = none →
      s.sessionIdGenerator = cfg.numOfSession →
      Step cfg s (.startReturn i) { s with started := true }
  | packetSent {i sid : ℕ} {t : Thread} {fixedId : Option UInt64} {selected : UInt64} :
      s.threads[i]? = some t → t.role = .sender → t.op = none → s.started = true →
      getChannelId cfg s.channelSelector fixedId = (some sid, selected) → sid < cfg.numOfSession →
      Step cfg s (.sendPacket i fixedId)
        { s.goTo i t sid (some (.enqueue ⟨s.nextSerial, fixedId⟩)) with
          nextSerial := s.nextSerial + 1, channelSelector := selected }
  | sendCrashed (i : ℕ) (fixedId : Option UInt64) :
      Step cfg s (.sendPacket i fixedId) { s with crashed := true }
  | finished {sid k : ℕ} {r : Request} {data : List UInt8} :
      (s.session sid).posted[k]? = some r →
      Step cfg s (.complete sid k data)
        (s.setSession sid ((s.session sid).finish k (r.finish data)))
  | taken {i sid k : ℕ} {t : Thread} {c : Completion} :
      s.threads[i]? = some t → t.role = .worker → t.op = none →
      (s.session sid).completed[k]? = some c →
      Step cfg s (.getQueuedCompletion i sid k)
        ((s.setSession sid ((s.session sid).take k)).goTo i t sid (some c.op))
  | reconnecting {i sid : ℕ} {t : Thread} :
      s.threads[i]? = some t → t.role = .reconnecter → t.op = none →
      s.reconnectIdList.head? = some sid →
      Step cfg s (.reconnect i) (s.goTo i t sid (some .newSocket))
  | executed {i : ℕ} {t : Thread} {op : Op} {o : Outcome} (ok : Bool) :
      s.threads[i]? = some t → t.op = some op →
      execOp cfg op ok t.session (s.session t.session) s.reconnectIdList = some o →
      Step cfg s (.exec i ok)
        { (s.setSession t.session o.session).goTo i t t.session o.next with
          reconnectIdList := o.reconnectIdList }
  | execCrashed {i : ℕ} {t : Thread} {op : Op} (ok : Bool) :
      s.threads[i]? = some t → t.op = some op →
      execOp cfg op ok t.session (s.session t.session) s.reconnectIdList = none →
      Step cfg s (.exec i ok) { s with crashed := true }

/-- **Every step is one of the cases.** -/
theorem step_cases (h : step cfg s e = some s') : Step cfg s e s' := by
  unfold step at h
  split at h
  · cases h
  cases e with
  | startSession i =>
    obtain ⟨t, ht, h⟩ := Option.bind_eq_some_iff.mp h
    simp only [startSession] at h
    split at h
    · rename_i hg
      cases h
      exact .sessionStarted ht hg.1 hg.2.1 hg.2.2
    · cases h
  | startReturn i =>
    obtain ⟨t, ht, h⟩ := Option.bind_eq_some_iff.mp h
    simp only [startReturn] at h
    split at h
    · rename_i hg
      cases h
      exact .startReturned ht hg.1 hg.2.1 hg.2.2
    · cases h
  | sendPacket i fixedId =>
    obtain ⟨t, ht, h⟩ := Option.bind_eq_some_iff.mp h
    simp only [sendPacket] at h
    split at h
    · rename_i hg
      split at h
      · cases h
        exact .sendCrashed i fixedId
      · rename_i sid hsid
        split at h
        · rename_i hlt
          cases h
          exact .packetSent ht hg.1 hg.2.1 hg.2.2 (by rw [← hsid]) hlt
        · cases h
          exact .sendCrashed i fixedId
    · cases h
  | complete sid k data =>
    obtain ⟨r, hr, h⟩ := Option.bind_eq_some_iff.mp h
    cases r with
    | recv =>
      simp only at h
      split at h
      · cases h
        exact .finished hr
      · cases h
    | send wsaSendBuf =>
      cases h
      exact .finished hr
  | getQueuedCompletion i sid k =>
    obtain ⟨t, ht, h⟩ := Option.bind_eq_some_iff.mp h
    simp only [getQueuedCompletion] at h
    split at h
    · rename_i hg
      obtain ⟨c, hc, rfl⟩ := Option.map_eq_some_iff.mp h
      exact .taken ht hg.1 hg.2 hc
    · cases h
  | reconnect i =>
    obtain ⟨t, ht, h⟩ := Option.bind_eq_some_iff.mp h
    simp only [reconnect] at h
    split at h
    · rename_i hg
      obtain ⟨sid, hsid, rfl⟩ := Option.map_eq_some_iff.mp h
      exact .reconnecting ht hg.1 hg.2 hsid
    · cases h
  | exec i ok =>
    obtain ⟨t, ht, h⟩ := Option.bind_eq_some_iff.mp h
    obtain ⟨op, hop, h⟩ := Option.map_eq_some_iff.mp h
    split at h
    · rename_i hexec
      subst h
      exact .execCrashed ok ht hop hexec
    · rename_i o hexec
      subst h
      exact .executed ok ht hop hexec

/-- **The rule for what is kept by every step of the client.** A step may use what is known of every
reachable state. -/
theorem reachable_of_step {C : State → Event → Prop} {P : State → Prop}
    (hinit : ∀ senders, P (initialState cfg senders))
    (hstep : ∀ s e s', (system cfg).Reachable s → P s → C s e → Step cfg s e s' → P s')
    (h : (system cfg).ReachableUnder C s) : P s := by
  induction h with
  | init h =>
    obtain ⟨senders, rfl⟩ := h
    exact hinit senders
  | step hr hC hs ih => exact hstep _ _ _ hr.reachable ih hC (step_cases hs)

/-! ## The operations as cases -/

/-- **An operation that does not crash, with what it found.** -/
inductive Exec (cfg : Config) (ok : Bool) (sid : ℕ) (se : Session) (ids : List ℕ) :
    Op → Outcome → Prop
  | enqueued (packet : Buffer) :
      Exec cfg ok sid se ids (.enqueue packet) ⟨{ se with sendQ := se.sendQ ++ [packet] }, ids, [],
        some (.sendPostCas .sendPacketImpl)⟩
  | casFailed (c : Caller) : se.ioMode = .sending →
      Exec cfg ok sid se ids (.sendPostCas c) ⟨se, ids, [], c.resume .complete⟩
  | casTaken (c : Caller) : se.ioMode = .nonSending →
      Exec cfg ok sid se ids (.sendPostCas c)
        ⟨{ se with ioMode := .sending }, ids, [], some (.getRestSize c)⟩
  | restEmpty (c : Caller) : se.sendQ = [] →
      Exec cfg ok sid se ids (.getRestSize c) ⟨se, ids, [], some (.resetMode c)⟩
  | restFound (c : Caller) : se.sendQ ≠ [] →
      Exec cfg ok sid se ids (.getRestSize c)
        ⟨se, ids, [], some (.dequeue c (min se.sendQ.length iocpOneSendWsabufMax) [])⟩
  | modeReset (c : Caller) :
      Exec cfg ok sid se ids (.resetMode c)
        ⟨{ se with ioMode := .nonSending }, ids, [], some (.recheckRestSize c)⟩
  | recheckFound (c : Caller) : se.sendQ ≠ [] →
      Exec cfg ok sid se ids (.recheckRestSize c) ⟨se, ids, [], some (.sendPostCas c)⟩
  | recheckEmpty (c : Caller) : se.sendQ = [] →
      Exec cfg ok sid se ids (.recheckRestSize c) ⟨se, ids, [], c.resume .complete⟩
  | dequeued (c : Caller) {useSize : ℕ} {wsaSendBuf sendQ : List Buffer} {packet : Buffer} :
      wsaSendBuf.length < useSize → se.sendQ = packet :: sendQ →
      Exec cfg ok sid se ids (.dequeue c useSize wsaSendBuf)
        ⟨{ se with
            sendQ := sendQ
            serializeBufStore :=
              Function.update se.serializeBufStore wsaSendBuf.length (some packet) },
          ids, [], some (.dequeue c useSize (wsaSendBuf ++ [packet]))⟩
  | dequeuedNothing (c : Caller) {useSize : ℕ} {wsaSendBuf : List Buffer} {packet : Buffer} :
      wsaSendBuf.length < useSize → se.sendQ = [] →
      se.serializeBufStore wsaSendBuf.length = some packet →
      Exec cfg ok sid se ids (.dequeue c useSize wsaSendBuf)
        ⟨se, ids, [], some (.dequeue c useSize (wsaSendBuf ++ [packet]))⟩
  | dequeueDone (c : Caller) {useSize : ℕ} {wsaSendBuf : List Buffer} :
      useSize ≤ wsaSendBuf.length →
      Exec cfg ok sid se ids (.dequeue c useSize wsaSendBuf)
        ⟨se, ids, [], some (.setBufferCount c wsaSendBuf)⟩
  | bufferCountSet (c : Caller) (wsaSendBuf : List Buffer) :
      Exec cfg ok sid se ids (.setBufferCount c wsaSendBuf)
        ⟨{ se with lBufferCount := wsaSendBuf.length }, ids, [], some (.countSend c wsaSendBuf)⟩
  | sendCounted (c : Caller) (wsaSendBuf : List Buffer) :
      Exec cfg ok sid se ids (.countSend c wsaSendBuf)
        ⟨{ se with ioCount := se.ioCount + 1 }, ids, [], some (.wsaSend c wsaSendBuf)⟩
  | sent (c : Caller) (wsaSendBuf : List Buffer) : ok = true → se.connected = true →
      Exec cfg ok sid se ids (.wsaSend c wsaSendBuf)
        ⟨{ se with posted := se.posted ++ [.send wsaSendBuf] }, ids, [], some (.sendPostCas c)⟩
  | sendFailed (c : Caller) (wsaSendBuf : List Buffer) : ¬ (ok = true ∧ se.connected = true) →
      Exec cfg ok sid se ids (.wsaSend c wsaSendBuf) (decrement se ids c (c.resume .err))
  | ringFull (c : Caller) : cfg.ringCapacity ≤ se.ringBuffer.length →
      Exec cfg ok sid se ids (.recvPost c) (decrement se ids c (c.resume .err))
  | ringOpen (c : Caller) : se.ringBuffer.length < cfg.ringCapacity →
      Exec cfg ok sid se ids (.recvPost c) ⟨se, ids, [], some (.countRecv c)⟩
  | recvCounted (c : Caller) :
      Exec cfg ok sid se ids (.countRecv c)
        ⟨{ se with ioCount := se.ioCount + 1 }, ids, [], some (.wsaRecv c)⟩
  | recvPosted (c : Caller) : ok = true → se.connected = true →
      Exec cfg ok sid se ids (.wsaRecv c)
        ⟨{ se with posted := se.posted ++ [.recv] }, ids, [], c.resume .complete⟩
  | recvFailed (c : Caller) : ¬ (ok = true ∧ se.connected = true) →
      Exec cfg ok sid se ids (.wsaRecv c) (decrement se ids c (c.resume .err))
  | releaseEntered (c : Caller) :
      Exec cfg ok sid se ids (.releaseSession c)
        ⟨se, ids, [], some (.readRestSize c se.lBufferCount)⟩
  | restRead (c : Caller) (n : ℤ) :
      Exec cfg ok sid se ids (.readRestSize c n)
        ⟨se, ids, [], some (.freeStored c n 0 se.sendQ.length)⟩
  | storedFreed (c : Caller) {n : ℤ} {i : ℕ} (rest : ℕ) {packet : Buffer} :
      i < n → se.serializeBufStore i = some packet →
      Exec cfg ok sid se ids (.freeStored c n i rest)
        ⟨se, ids, [packet], some (.freeStored c n (i + 1) rest)⟩
  | storedDone (c : Caller) {n : ℤ} {i : ℕ} (rest : ℕ) : n ≤ i →
      Exec cfg ok sid se ids (.freeStored c n i rest)
        ⟨se, ids, [], some (.freeQueued c rest none)⟩
  | queuedFreed (c : Caller) (rest : ℕ) (deleteBuf : Option Buffer) {packet : Buffer}
      {sendQ : List Buffer} : se.sendQ = packet :: sendQ →
      Exec cfg ok sid se ids (.freeQueued c (rest + 1) deleteBuf)
        ⟨{ se with sendQ := sendQ }, ids, [packet], some (.freeQueued c rest (some packet))⟩
  | queuedNothing (c : Caller) (rest : ℕ) {packet : Buffer} : se.sendQ = [] →
      Exec cfg ok sid se ids (.freeQueued c (rest + 1) (some packet))
        ⟨se, ids, [packet], some (.freeQueued c rest (some packet))⟩
  | queuedDone (c : Caller) (deleteBuf : Option Buffer) :
      Exec cfg ok sid se ids (.freeQueued c 0 deleteBuf) ⟨se, ids, [], some (.closeSocket c)⟩
  | socketClosed (c : Caller) :
      Exec cfg ok sid se ids (.closeSocket c) ⟨{ se with connected := false }, ids, [],
        if cfg.isReconnect then some (.invalidateSocket c) else c.resume .errSessionDeleted⟩
  | socketInvalidated (c : Caller) :
      Exec cfg ok sid se ids (.invalidateSocket c)
        ⟨{ se with connected := false }, ids, [], some (.pushReconnect c)⟩
  | pushed (c : Caller) :
      Exec cfg ok sid se ids (.pushReconnect c)
        ⟨se, ids ++ [sid], [], c.resume .errSessionDeleted⟩
  | recvHandled (data : List UInt8) :
      Exec cfg ok sid se ids (.recvCompleted data)
        ⟨{ se with ringBuffer := (recvCompleted se.ringBuffer data).rest }, ids, [],
          some (.recvPost .worker)⟩
  | sendBegun :
      Exec cfg ok sid se ids .sendCompleted ⟨se, ids, [], some (.freeSent se.lBufferCount 0)⟩
  | sentFreed {n : ℤ} {i : ℕ} {packet : Buffer} :
      i < n → se.serializeBufStore i = some packet →
      Exec cfg ok sid se ids (.freeSent n i) ⟨se, ids, [packet], some (.freeSent n (i + 1))⟩
  | sentDone {n : ℤ} {i : ℕ} : n ≤ i →
      Exec cfg ok sid se ids (.freeSent n i) ⟨se, ids, [], some (.subtractCount n)⟩
  | countSubtracted (n : ℤ) :
      Exec cfg ok sid se ids (.subtractCount n)
        ⟨{ se with lBufferCount := se.lBufferCount - n }, ids, [], some .resetSending⟩
  | sendReset :
      Exec cfg ok sid se ids .resetSending
        ⟨{ se with ioMode := .nonSending }, ids, [], some (.sendPostCas .worker)⟩
  | workerEnded : Exec cfg ok sid se ids .workerEnd (decrement se ids .worker none)
  | socketRenewed :
      Exec cfg ok sid se ids .newSocket ⟨{ se with connected := false }, ids, [], some .connect⟩
  | connected :
      Exec cfg ok sid se ids .connect
        ⟨{ se with connected := true }, ids, [], some (.recvPost .reconnecter)⟩
  | popped : Exec cfg ok sid se ids .popFront ⟨se, ids.tail, [], none⟩

/-- **Every operation is one of the cases.** -/
theorem execOp_cases (h : execOp cfg op ok sid se ids = some o) : Exec cfg ok sid se ids op o := by
  cases op with
  | enqueue packet => cases h; exact .enqueued packet
  | sendPostCas c =>
    simp only [execOp] at h
    split at h
    · rename_i hmode; cases h; exact .casFailed c hmode
    · rename_i hmode; cases h; exact .casTaken c hmode
  | getRestSize c =>
    simp only [execOp] at h
    split at h
    · rename_i hempty; cases h; exact .restEmpty c (List.length_eq_zero_iff.mp hempty)
    · rename_i hsome; cases h; exact .restFound c (mt List.length_eq_zero_iff.mpr hsome)
  | resetMode c => cases h; exact .modeReset c
  | recheckRestSize c =>
    simp only [execOp] at h
    split at h
    · rename_i hsome; cases h; exact .recheckFound c (List.length_pos_iff.mp hsome)
    · rename_i hempty
      cases h
      exact .recheckEmpty c (List.length_eq_zero_iff.mp (Nat.eq_zero_of_not_pos hempty))
  | dequeue c useSize wsaSendBuf =>
    simp only [execOp] at h
    split at h
    · rename_i hlt
      split at h
      · rename_i hq; cases h; exact .dequeued c hlt hq
      · rename_i hq
        obtain ⟨packet, hstore, rfl⟩ := Option.map_eq_some_iff.mp h
        exact .dequeuedNothing c hlt hq hstore
    · rename_i hge; cases h; exact .dequeueDone c (Nat.le_of_not_lt hge)
  | setBufferCount c wsaSendBuf => cases h; exact .bufferCountSet c wsaSendBuf
  | countSend c wsaSendBuf => cases h; exact .sendCounted c wsaSendBuf
  | wsaSend c wsaSendBuf =>
    simp only [execOp] at h
    split at h
    · rename_i hok; cases h; exact .sent c wsaSendBuf hok.1 hok.2
    · rename_i hok; cases h; exact .sendFailed c wsaSendBuf hok
  | recvPost c =>
    simp only [execOp] at h
    split at h
    · rename_i hfull; cases h; exact .ringFull c hfull
    · rename_i hopen; cases h; exact .ringOpen c (Nat.lt_of_not_le hopen)
  | countRecv c => cases h; exact .recvCounted c
  | wsaRecv c =>
    simp only [execOp] at h
    split at h
    · rename_i hok; cases h; exact .recvPosted c hok.1 hok.2
    · rename_i hok; cases h; exact .recvFailed c hok
  | releaseSession c => cases h; exact .releaseEntered c
  | readRestSize c n => cases h; exact .restRead c n
  | freeStored c n i rest =>
    simp only [execOp] at h
    split at h
    · rename_i hlt
      obtain ⟨packet, hstore, rfl⟩ := Option.map_eq_some_iff.mp h
      exact .storedFreed c rest hlt hstore
    · rename_i hge; cases h; exact .storedDone c rest (Int.not_lt.mp hge)
  | freeQueued c rest deleteBuf =>
    cases rest with
    | zero => cases h; exact .queuedDone c deleteBuf
    | succ rest =>
      simp only [execOp] at h
      split at h
      · rename_i hq; cases h; exact .queuedFreed c rest deleteBuf hq
      · rename_i hq
        obtain ⟨packet, rfl, rfl⟩ := Option.map_eq_some_iff.mp h
        exact .queuedNothing c rest hq
  | closeSocket c => cases h; exact .socketClosed c
  | invalidateSocket c => cases h; exact .socketInvalidated c
  | pushReconnect c => cases h; exact .pushed c
  | recvCompleted data => cases h; exact .recvHandled data
  | sendCompleted => cases h; exact .sendBegun
  | freeSent n i =>
    simp only [execOp] at h
    split at h
    · rename_i hlt
      obtain ⟨packet, hstore, rfl⟩ := Option.map_eq_some_iff.mp h
      exact .sentFreed hlt hstore
    · rename_i hge; cases h; exact .sentDone (Int.not_lt.mp hge)
  | subtractCount n => cases h; exact .countSubtracted n
  | resetSending => cases h; exact .sendReset
  | workerEnd => cases h; exact .workerEnded
  | newSocket => cases h; exact .socketRenewed
  | connect => cases h; exact .connected
  | popFront => cases h; exact .popped

/-! ## Giving a reference back -/

/-- A decrement goes on, or ends in `ReleaseSession`. -/
theorem decrement_next (se : Session) (ids : List ℕ) (c : Caller) (next : Option Op) :
    (decrement se ids c next).next = some (.releaseSession c) ∨
      (decrement se ids c next).next = next := by
  simp only [decrement]
  split
  · exact .inl rfl
  · exact .inr rfl

/-- Which of the two: `ReleaseSession` exactly from the last reference. -/
theorem tally_decrement {c : Caller} (f : Op → ℕ) (next : Option Op) :
    tally f (decrement se ids c next).next.toList =
      if se.ioCount = 1 then f (.releaseSession c) else tally f next.toList := by
  have hone : se.ioCount - 1 = 0 ↔ se.ioCount = 1 := by omega
  simp only [decrement, hone]
  split
  · exact Nat.add_zero _
  · rfl

/-- 1 for an operation of `ReleaseSession`. -/
def Op.releases : Op → ℕ
  | .releaseSession _ | .readRestSize _ _ | .freeStored _ _ _ _ | .freeQueued _ _ _ | .closeSocket _
  | .invalidateSocket _ | .pushReconnect _ => 1
  | _ => 0

/-- 1 for `ReleaseSession` until it has freed what it found. -/
def Op.frees : Op → ℕ
  | .releaseSession _ | .readRestSize _ _ | .freeStored _ _ _ _ | .freeQueued _ _ _ => 1
  | _ => 0

theorem Op.frees_le_releases (op : Op) : op.frees ≤ op.releases := by
  cases op <;> simp [Op.frees, Op.releases]

/-- The operation decrements `m_IOCount`: a worker is done, or a post is given up. -/
def Op.givesBack (cfg : Config) (ok : Bool) (se : Session) : Op → Bool
  | .workerEnd => true
  | .recvPost _ => cfg.ringCapacity ≤ se.ringBuffer.length
  | .wsaSend _ _ | .wsaRecv _ => !(ok && se.connected)
  | _ => false

@[simp] theorem releases_resume {c : Caller} {r : PostRetval} :
    tally Op.releases (c.resume r).toList = 0 := by
  cases c <;> cases r <;> rfl

theorem releases_decrement {c : Caller} {next : Option Op}
    (h : tally Op.releases next.toList = 0) :
    tally Op.releases (decrement se ids c next).next.toList = if se.ioCount = 1 then 1 else 0 := by
  rw [tally_decrement, h]
  rfl

theorem not_and_eq_true {a b : Bool} : ¬ (a = true ∧ b = true) ↔ (!(a && b)) = true := by
  cases a <;> cases b <;> simp

/-- **`ReleaseSession` is entered where the last reference is given back**, and left at its end. -/
theorem Exec.releases (h : Exec cfg ok sid se ids op o) (hop : op.releases = 0) :
    tally Op.releases o.next.toList =
      if op.givesBack cfg ok se = true ∧ se.ioCount = 1 then 1 else 0 := by
  cases h with
  | sendFailed c b hfail | recvFailed c hfail =>
    rw [releases_decrement releases_resume]
    simp only [Op.givesBack, not_and_eq_true.mp hfail, true_and]
  | ringFull c hfull =>
    rw [releases_decrement releases_resume]
    simp only [Op.givesBack, hfull, decide_true, true_and]
  | workerEnded =>
    rw [releases_decrement rfl]
    simp only [Op.givesBack, true_and]
  | ringOpen c hopen =>
    rw [if_neg (fun h => by simp [Op.givesBack] at h; omega)]
    rfl
  | sent c b hok hconn | recvPosted c hok hconn =>
    simp [Op.givesBack, hok, hconn, Op.releases]
  | socketClosed c => simp [Op.releases] at hop
  | _ => simp_all [Op.givesBack, Op.releases]

/-! ## What is about to happen -/

/-- The operation an event is about to execute on the session `sid`, with the kernel's answer. -/
def State.running (sid : ℕ) (s : State) : Event → Option (Op × Bool)
  | .exec i ok =>
    s.threads[i]?.bind fun t => if t.session = sid then t.op.map fun op => (op, ok) else none
  | _ => none

theorem running_eq (hi : s.threads[i]? = some t) (hsid : t.session = sid) (hop : t.op = some op) :
    s.running sid (.exec i ok) = some (op, ok) := by
  simp [State.running, hi, hsid, hop]

theorem running_of_ne (hi : s.threads[i]? = some t) (hsid : t.session ≠ sid) :
    s.running sid (.exec i ok) = none := by
  simp [State.running, hi, hsid]

/-- The operation a step executes on the session `sid`, with what it does. -/
def State.outcome (cfg : Config) (sid : ℕ) (s : State) (e : Event) : Option (Op × Outcome) :=
  (s.running sid e).bind fun x =>
    (execOp cfg x.1 x.2 sid (s.session sid) s.reconnectIdList).map fun o => (x.1, o)

theorem outcome_eq (hrun : s.running sid e = some (op, ok))
    (ho : execOp cfg op ok sid (s.session sid) s.reconnectIdList = some o) :
    s.outcome cfg sid e = some (op, o) := by
  simp [State.outcome, hrun, ho]

/-- And conversely. -/
theorem execOp_of_outcome (h : s.outcome cfg sid e = some (op, o)) :
    ∃ ok, s.running sid e = some (op, ok) ∧
      execOp cfg op ok sid (s.session sid) s.reconnectIdList = some o := by
  obtain ⟨⟨op', ok⟩, hrun, h⟩ := Option.bind_eq_some_iff.mp h
  obtain ⟨o', ho, heq⟩ := Option.map_eq_some_iff.mp h
  obtain ⟨rfl, rfl⟩ := Prod.mk.inj heq
  exact ⟨ok, hrun, ho⟩

theorem outcome_of_crash (h : ∀ op ok, s.running sid e = some (op, ok) →
    execOp cfg op ok sid (s.session sid) s.reconnectIdList = none) :
    s.outcome cfg sid e = none := by
  simp only [State.outcome, Option.bind_eq_none_iff]
  rintro ⟨op, ok⟩ hrun
  rw [h op ok hrun]
  rfl

/-! ## Where the threads are -/

/-- The operations the threads at the session `sid` are at. -/
def State.ops (sid : ℕ) (s : State) : List Op :=
  s.threads.filterMap fun t => if t.session = sid then t.op else none

theorem mem_ops : op ∈ s.ops sid ↔ ∃ t ∈ s.threads, t.session = sid ∧ t.op = some op := by
  simp only [State.ops, List.mem_filterMap]
  refine exists_congr fun t => and_congr_right fun _ => ?_
  split
  · rename_i h
    simp [h]
  · rename_i h
    simp [h]

theorem mem_ops_of_running (h : s.running sid e = some (op, ok)) : op ∈ s.ops sid := by
  cases e with
  | exec i ok' =>
    obtain ⟨t, hi, h⟩ := Option.bind_eq_some_iff.mp h
    split at h
    · rename_i hsid
      obtain ⟨op', hop, heq⟩ := Option.map_eq_some_iff.mp h
      obtain ⟨rfl, -⟩ := Prod.mk.inj heq
      exact mem_ops.mpr ⟨t, List.mem_of_getElem? hi, hsid, hop⟩
    · cases h
  | _ => cases h

/-- A thread that moves is all that changes. -/
theorem ops_goTo (sid : ℕ) (hi : s.threads[i]? = some t) (sid' : ℕ) (next : Option Op) :
    Replaces (if t.session = sid then t.op else none).toList
      (if sid' = sid then next else none).toList (s.ops sid) ((s.goTo i t sid' next).ops sid) :=
  replaces_filterMap_set (F := fun t : Thread => if t.session = sid then t.op else none) hi
    { t with session := sid', op := next }

/-- An idle thread takes up an operation. -/
theorem ops_goTo_of_idle (hi : s.threads[i]? = some t) (hidle : t.op = none) (next : Option Op) :
    Replaces [] next.toList (s.ops sid) ((s.goTo i t sid next).ops sid) := by
  have h := ops_goTo sid hi sid next
  rw [hidle, ite_self, if_pos rfl] at h
  exact h

/-- What threads do elsewhere does not show. -/
theorem ops_goTo_of_ne {sid' : ℕ} (hi : s.threads[i]? = some t) (hne : sid' ≠ sid)
    (ht : t.op = none ∨ t.session ≠ sid) (next : Option Op) :
    (s.goTo i t sid' next).ops sid = s.ops sid := by
  have h := ops_goTo sid hi sid' next
  have hold : (if t.session = sid then t.op else none) = none := by
    rcases ht with ht | ht
    · rw [ht, ite_self]
    · exact if_neg ht
  rw [hold, if_neg hne] at h
  obtain ⟨l₁, l₂, h, h'⟩ := h
  exact h'.trans h.symm

/-! ## One step, seen from one session -/

/-- **What one step does to the session `sid`** and to the threads at it. -/
inductive Alters (cfg : Config) (sid : ℕ) (s : State) : Event → State → Prop
  | kept {e : Event} {s' : State} :
      s'.session sid = s.session sid → s'.ops sid = s.ops sid →
      (∀ op ok, s.running sid e = some (op, ok) →
        execOp cfg op ok sid (s.session sid) s.reconnectIdList = none) → Alters cfg sid s e s'
  | started {s' : State} {i : ℕ} :
      sid = s.sessionIdGenerator → s'.session sid = (s.session sid).start →
      Replaces [] [.recvPost .start] (s.ops sid) (s'.ops sid) →
      Alters cfg sid s (.startSession i) s'
  | sent {s' : State} {i : ℕ} {t : Thread} {fixedId : Option UInt64} {selected : UInt64} :
      s.threads[i]? = some t → t.role = .sender → s.started = true →
      getChannelId cfg s.channelSelector fixedId = (some sid, selected) → sid < cfg.numOfSession →
      s'.session sid = s.session sid → s'.nextSerial = s.nextSerial + 1 →
      Replaces [] [.enqueue ⟨s.nextSerial, fixedId⟩] (s.ops sid) (s'.ops sid) →
      Alters cfg sid s (.sendPacket i fixedId) s'
  | finished {s' : State} {k : ℕ} {r : Request} {data : List UInt8} :
      (s.session sid).posted[k]? = some r →
      s'.session sid = (s.session sid).finish k (r.finish data) → s'.ops sid = s.ops sid →
      Alters cfg sid s (.complete sid k data) s'
  | taken {s' : State} {i k : ℕ} {t : Thread} {c : Completion} :
      s.threads[i]? = some t → t.role = .worker → (s.session sid).completed[k]? = some c →
      s'.session sid = (s.session sid).take k →
      Replaces [] [c.op] (s.ops sid) (s'.ops sid) →
      Alters cfg sid s (.getQueuedCompletion i sid k) s'
  | reconnecting {s' : State} {i : ℕ} {t : Thread} :
      s.threads[i]? = some t → t.role = .reconnecter → t.op = none →
      s.reconnectIdList.head? = some sid → s'.session sid = s.session sid →
      Replaces [] [.newSocket] (s.ops sid) (s'.ops sid) → Alters cfg sid s (.reconnect i) s'
  | executed {s' : State} {i : ℕ} {t : Thread} {op : Op} {o : Outcome} {ok : Bool} :
      s.threads[i]? = some t → t.session = sid → t.op = some op →
      execOp cfg op ok sid (s.session sid) s.reconnectIdList = some o →
      s'.session sid = o.session → s'.reconnectIdList = o.reconnectIdList →
      Replaces [op] o.next.toList (s.ops sid) (s'.ops sid) →
      Alters cfg sid s (.exec i ok) s'

/-- **Every step alters every session in one of these ways.** -/
theorem Step.alters (h : Step cfg s e s') (sid : ℕ) : Alters cfg sid s e s' := by
  cases h with
  | @sessionStarted i t hi hrole hidle hlt =>
    by_cases hsid : s.sessionIdGenerator = sid
    · subst hsid
      exact .started rfl (Function.update_self _ _ _) (ops_goTo_of_idle hi hidle _)
    · exact .kept (Function.update_of_ne (Ne.symm hsid) _ _)
        (ops_goTo_of_ne hi hsid (.inl hidle) _) (fun _ _ h => nomatch h)
  | startReturned => exact .kept rfl rfl (fun _ _ h => nomatch h)
  | @packetSent i sid' t fixedId selected hi hrole hidle hstarted hchannel hlt =>
    by_cases hsid : sid' = sid
    · subst hsid
      exact .sent hi hrole hstarted hchannel hlt rfl rfl (ops_goTo_of_idle hi hidle _)
    · exact .kept rfl (ops_goTo_of_ne hi hsid (.inl hidle) _) (fun _ _ h => nomatch h)
  | sendCrashed => exact .kept rfl rfl (fun _ _ h => nomatch h)
  | @finished sid' k r data hr =>
    by_cases hsid : sid' = sid
    · subst hsid
      exact .finished hr (Function.update_self _ _ _) rfl
    · exact .kept (Function.update_of_ne (Ne.symm hsid) _ _) rfl (fun _ _ h => nomatch h)
  | @taken i sid' k t c hi hrole hidle hc =>
    by_cases hsid : sid' = sid
    · subst hsid
      exact .taken hi hrole hc (Function.update_self _ _ _) (ops_goTo_of_idle hi hidle _)
    · exact .kept (Function.update_of_ne (Ne.symm hsid) _ _)
        (ops_goTo_of_ne hi hsid (.inl hidle) _) (fun _ _ h => nomatch h)
  | @reconnecting i sid' t hi hrole hidle hhead =>
    by_cases hsid : sid' = sid
    · subst hsid
      exact .reconnecting hi hrole hidle hhead rfl (ops_goTo_of_idle hi hidle _)
    · exact .kept rfl (ops_goTo_of_ne hi hsid (.inl hidle) _) (fun _ _ h => nomatch h)
  | @executed i t op o ok hi hop ho =>
    by_cases hsid : t.session = sid
    · subst hsid
      have hops := ops_goTo t.session hi t.session o.next
      rw [if_pos rfl, if_pos rfl, hop] at hops
      exact .executed hi rfl hop ho (Function.update_self _ _ _) rfl hops
    · exact .kept (Function.update_of_ne (Ne.symm hsid) _ _)
        (ops_goTo_of_ne hi hsid (.inr hsid) _)
        (fun _ _ h => nomatch (running_of_ne hi hsid).symm.trans h)
  | @execCrashed i t op ok hi hop hcrash =>
    refine .kept rfl rfl fun op' ok' h => ?_
    by_cases hsid : t.session = sid
    · obtain ⟨rfl, rfl⟩ := Prod.mk.inj (Option.some.inj ((running_eq hi hsid hop).symm.trans h))
      subst hsid
      exact hcrash
    · exact nomatch (running_of_ne hi hsid).symm.trans h

/-- What an operation on the session makes of it. -/
theorem Step.session_of_outcome (h : Step cfg s e s') (hrun : s.running sid e = some (op, ok))
    (ho : execOp cfg op ok sid (s.session sid) s.reconnectIdList = some o) :
    s'.session sid = o.session ∧ Replaces [op] o.next.toList (s.ops sid) (s'.ops sid) := by
  cases h.alters sid with
  | kept _ _ hcrash => exact nomatch (hcrash op ok hrun).symm.trans ho
  | executed hi hsid hop ho' hse _ hops =>
    obtain ⟨rfl, rfl⟩ := Prod.mk.inj (Option.some.inj ((running_eq hi hsid hop).symm.trans hrun))
    obtain rfl := Option.some.inj (ho'.symm.trans ho)
    exact ⟨hse, hops⟩
  | _ => cases hrun

end MultiLanClient

end DdingGameServer
