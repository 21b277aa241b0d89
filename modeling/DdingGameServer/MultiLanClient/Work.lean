import Mathlib.Tactic.Ring
import DdingGameServer.Common.Progress
import DdingGameServer.MultiLanClient.References
import DdingGameServer.MultiLanClient.Token
/-!
# MultiLanClient — the work of the client

The threads of the client go round in circles by design: `SendPost` until the queue is empty,
`Worker` from one completion to the next, `Reconnecter` from one lost connection to the next. Each
such round is paid for. What `State.work` says is left to do gets less by every operation of a
thread, every completion that a worker takes and every id that `Reconnecter` takes up, and
grows only with what comes from outside: a session that `Start` connects, a packet that is sent, a
completion, and a `WSARecv` of `Reconnecter` that the kernel refuses. This is so in every run, also
in those where a session is released twice at once. There each of the threads may have counted the
same packets of the queue, so a packet is worth a round to every thread.

Two rounds of `Reconnecter` cost nothing and have no end: every five seconds it looks at a list that
is empty, and every second it tries a `connect` again that failed. They do nothing to the sessions,
and none of this counts them; `connect` is one step here, which ends with a connection.
-/

namespace DdingGameServer

namespace MultiLanClient

variable {cfg : Config} {s s' : State} {e : Event} {es : List Event} {sid i n m : ℕ} {t : Thread}
  {op : Op} {ok : Bool} {se se' : Session} {ids : List ℕ} {o : Outcome} {c : Caller}
  {r : PostRetval}

/-! ## What is left to do -/

/-- What an id on `sessionReconnectIdList` leads to. -/
def reconnectWork : ℕ := 227

/-- What a reference is worth while it is counted, and what `Reconnecter` needs to try again. -/
def attemptWork : ℕ := 220

/-- What a packet leads to that begins a batch. -/
def batchWork : ℕ := 430

/-- What `closesocket` leads to, for the caller of `ReleaseSession`. Another thread than
`Reconnecter` can take its socket from it. -/
def Caller.closeWork : Caller → ℕ
  | .reconnecter => reconnectWork + 4
  | _ => reconnectWork + 4 + 2 * attemptWork

/-- **How many steps an operation leads to**, at most, with `n` threads, on a session with `rest`
packets in its queue. What was counted and is not there any more is still to do, and so is the
attempt of `Reconnecter` on a socket that is gone. -/
def Op.work (n rest : ℕ) (connected : Bool) : Op → ℕ
  | .popFront => 1
  | .pushReconnect _ => reconnectWork + 2
  | .invalidateSocket c => c.closeWork - 1 - if c = .reconnecter then 0 else attemptWork
  | .closeSocket c => c.closeWork
  | .freeQueued c m _ => c.closeWork + 1 + (m - rest)
  | .freeStored c k i m => c.closeWork + 2 + (k - i).toNat + (m - rest)
  | .readRestSize c k => c.closeWork + 3 + k.toNat
  | .releaseSession c => c.closeWork + 204
  | .workerEnd => 876
  | .recheckRestSize _ => 877 + 4 * min 1 rest
  | .resetMode _ => 878 + 4 * min 1 rest
  | .getRestSize _ => 879
  | .sendPostCas _ => 880
  | .dequeue _ useSize b =>
    if b = [] then 878 + batchWork * (1 - rest) else 1104 + (useSize - b.length)
  | .setBufferCount _ _ => 1103
  | .countSend _ _ => 882 + attemptWork
  | .wsaSend _ _ => 881
  | .wsaRecv c => if c = .reconnecter then 2 + (!connected).toNat * attemptWork else 877
  | .countRecv c =>
    if c = .reconnecter then 3 + attemptWork + (!connected).toNat * attemptWork
    else 878 + attemptWork
  | .recvPost c =>
    if c = .reconnecter then 4 + attemptWork + (!connected).toNat * attemptWork
    else 879 + attemptWork
  | .connect => 5 + attemptWork
  | .newSocket => 6 + attemptWork
  | .recvCompleted _ => 880 + attemptWork
  | .resetSending => 881
  | .subtractCount _ => 882
  | .freeSent k i => 883 + (k - i).toNat
  | .sendCompleted => 1084
  | .enqueue _ => 881 + batchWork * (n + 1) + 4 * n

/-- What a completion leads to. -/
def Completion.work (c : Completion) : ℕ := 1 + c.op.work 0 0 true

/-- What is left to do for the packets, the references and the completions of a session. -/
def Session.work (n : ℕ) (se : Session) : ℕ :=
  batchWork * (n + 1) * se.sendQ.length + attemptWork * se.ioCount.toNat +
    tally Completion.work se.completed

/-- What an operation leads to on a session. -/
def Session.opWork (n : ℕ) (se : Session) (op : Op) : ℕ :=
  op.work n se.sendQ.length se.connected

/-- What a thread has to do. -/
def Thread.work (n : ℕ) (session : ℕ → Session) (t : Thread) : ℕ :=
  t.op.elim 0 ((session t.session).opWork n)

/-- 1 for `Reconnecter` while it works on the front of the list. -/
def Thread.reconnects (t : Thread) : ℕ := t.op.elim 0 Op.reconnects

/-- **What is left to do.** -/
def State.work (cfg : Config) (s : State) : ℕ :=
  (!s.crashed).toNat +
    tally (fun sid => (s.session sid).work s.threads.length) (List.range cfg.numOfSession) +
    tally (Thread.work s.threads.length s.session) s.threads +
    reconnectWork * (s.reconnectIdList.length - tally Thread.reconnects s.threads)

/-- A step of a thread. -/
def Event.own : Event → Bool
  | .exec _ _ | .getQueuedCompletion _ _ _ | .reconnect _ => true
  | _ => false

/-- The kernel refuses a `WSARecv` of `Reconnecter`. -/
def Op.refused (ok : Bool) : Op → Bool
  | .wsaRecv .reconnecter => !ok
  | _ => false

/-- **What comes from outside with an event.** -/
def State.price (s : State) : Event → ℕ
  | .startSession _ => 879 + attemptWork
  | .sendPacket _ _ => 881 + batchWork * (s.threads.length + 1) + 4 * s.threads.length
  | .complete _ _ _ => 881 + attemptWork
  | .exec i ok =>
    (s.threads[i]?.any fun t => t.op.any (Op.refused ok)).toNat * attemptWork
  | _ => 0

/-- 1 for `Reconnecter` on its way to `WSARecv`, on the socket it has connected. -/
def Op.attempts : Op → ℕ
  | .recvPost c | .countRecv c | .wsaRecv c => c.settles
  | _ => 0

/-- **What a step on the session adds to the work of each other thread**: packets that came or were
taken, and to `m` of them that the socket is gone. -/
def Session.stir (n m : ℕ) (se se' : Session) : ℕ :=
  n * (4 * (se'.sendQ.length - se.sendQ.length) +
      batchWork * (se.sendQ.length - se'.sendQ.length)) +
    (se.connected && !se'.connected).toNat * attemptWork * m

/-- A batch is not empty and not too long. -/
def Op.Fits : Op → Prop
  | .dequeue _ useSize b => 0 < useSize ∧ useSize ≤ iocpOneSendWsabufMax ∧ b.length ≤ useSize
  | .setBufferCount _ b => b.length ≤ iocpOneSendWsabufMax
  | _ => True

/-! ## One operation -/

theorem work_resume (se : Session) (n : ℕ) (c : Caller) (r : PostRetval) :
    tally (se.opWork n) (c.resume r).toList ≤ 876 := by
  cases c <;> cases r <;> simp [Caller.resume, Session.opWork, Op.work]

theorem work_resume_reconnecter (se : Session) (n : ℕ) (r : PostRetval) :
    tally (se.opWork n) (Caller.reconnecter.resume r).toList = 1 := by
  cases r <;> simp [Caller.resume, Session.opWork, Op.work]

theorem work_resume_deleted (se : Session) (n : ℕ) (c : Caller) :
    tally (se.opWork n) (c.resume .errSessionDeleted).toList ≤ 1 := by
  cases c <;> simp [Caller.resume, Session.opWork, Op.work]

theorem closeWork_of_ne (hc : c ≠ .reconnecter) : c.closeWork = 671 := by
  cases c <;> first | rfl | exact absurd rfl hc

theorem stir_of_same (hsendQ : se'.sendQ = se.sendQ) (hconnected : se'.connected = se.connected) :
    se.stir n m se' = 0 := by
  simp [Session.stir, hsendQ, hconnected]

theorem one_le_work_invalidateSocket {rest : ℕ} {connected : Bool} (c : Caller) :
    1 ≤ Op.work n rest connected (.invalidateSocket c) := by
  cases c <;> simp [Op.work, Caller.closeWork, reconnectWork, attemptWork]

theorem work_invalidateSocket_lt (n : ℕ) (se : Session) (c : Caller) :
    1 + Op.work n se.sendQ.length false (.invalidateSocket c) +
      (if c = .reconnecter then 0 else attemptWork) ≤ se.opWork n (.closeSocket c) := by
  cases c <;> simp [Session.opWork, Op.work, Caller.closeWork, reconnectWork, attemptWork]

/-- A socket that is gone is seen by `Reconnecter`, unless it closed it. -/
theorem stir_closed (n : ℕ) (se : Session) {c : Caller}
    (hm : m + (if c.role = .reconnecter then 1 else 0) ≤ 1) :
    se.stir n m { se with connected := false } ≤ if c = .reconnecter then 0 else attemptWork := by
  have hconnected : se.connected.toNat ≤ 1 := Bool.toNat_le _
  by_cases hc : c = .reconnecter
  · subst hc
    obtain rfl : m = 0 := by simpa [Caller.role] using hm
    simp [Session.stir]
  · have hle : m ≤ 1 := Nat.le_trans (Nat.le_add_right ..) hm
    have := Nat.mul_le_mul (Nat.mul_le_mul_right attemptWork hconnected) hle
    simpa [Session.stir, hc] using this

theorem stir_decrement {next : Option Op} : se.stir n m (decrement se ids c next).session = 0 :=
  stir_of_same rfl rfl

/-- **A reference given back pays for its release.** -/
theorem work_decrement (n : ℕ) (se : Session) (ids : List ℕ) (c : Caller) (next : Option Op)
    (hnext : tally (se.opWork n) next.toList ≤ m)
    (hclose : c.closeWork + 204 ≤ m + attemptWork) :
    (decrement se ids c next).session.work n +
        tally ((decrement se ids c next).session.opWork n) (decrement se ids c next).next.toList ≤
      se.work n + m := by
  have hopWork : (decrement se ids c next).session.opWork n = se.opWork n := rfl
  have hrelease : se.opWork n (.releaseSession c) = c.closeWork + 204 := rfl
  rw [hopWork, tally_decrement]
  simp only [decrement, Session.work, attemptWork] at hclose ⊢
  split
  · rename_i hone
    simp only [hone, hrelease]
    omega
  · omega

/-- What is left of a call is less than the call, -/
theorem work_resume_lt (se : Session) (n : ℕ) (c : Caller) (r : PostRetval) :
    1 + tally (se.opWork n) (c.resume r).toList ≤ se.opWork n (.wsaRecv c) := by
  by_cases hc : c = .reconnecter
  · subst hc
    rw [work_resume_reconnecter, Session.opWork, Op.work, if_pos rfl]
    omega
  · have := work_resume se n c r
    rw [Session.opWork, Op.work, if_neg hc]
    omega

/-- **An operation is a step less**, with what it adds to the work of others. -/
theorem Exec.work (h : Exec cfg ok sid se ids op o) (hfits : op.Fits)
    (hcount : se.lBufferCount ≤ iocpOneSendWsabufMax)
    (hm : op.attempts = 0 → m + op.reconnects ≤ 1) :
    1 + o.session.work n + tally (o.session.opWork n) o.next.toList +
        reconnectWork * op.pushes + se.stir n m o.session ≤
      se.work n + se.opWork n op + (op.refused ok).toNat * attemptWork := by
  cases h with
  | casFailed c | recheckEmpty c =>
    have := work_resume se n c .complete
    simp only [Session.stir, Op.pushes, Session.opWork, Op.work, Nat.sub_self, Bool.and_not_self,
      Bool.toNat_false] at this ⊢
    omega
  | recvPosted c hok =>
    have := work_resume_lt { se with posted := se.posted ++ [.recv] } n c .complete
    simp only [Session.stir, Op.pushes, Nat.sub_self, Bool.and_not_self, Bool.toNat_false,
      Session.opWork, Session.work] at this ⊢
    omega
  | enqueued packet =>
    have hadd : se.sendQ.length + 1 - se.sendQ.length = 1 := Nat.add_sub_cancel_left ..
    have hsub : se.sendQ.length - (se.sendQ.length + 1) = 0 := Nat.sub_eq_zero_of_le (Nat.le_succ _)
    simp only [Session.work, Session.opWork, Op.work, Session.stir, Op.pushes, List.length_append,
      List.length_singleton, hadd, hsub, Nat.mul_add, Option.toList_some, tally_cons, tally_nil,
      Bool.and_not_self, Bool.toNat_false]
    omega
  | @dequeued c useSize b sendQ packet hlt hsendQ =>
    have hsub : sendQ.length - (sendQ.length + 1) = 0 := Nat.sub_eq_zero_of_le (Nat.le_succ _)
    have hadd : sendQ.length + 1 - sendQ.length = 1 := Nat.add_sub_cancel_left ..
    obtain ⟨-, hmax, -⟩ := hfits
    rw [iocpOneSendWsabufMax] at hmax
    by_cases hb : b = []
    · subst hb
      simp [Session.work, Session.opWork, Op.work, Session.stir, Op.pushes, hsendQ, hadd, hsub,
        Nat.mul_add, batchWork]
      omega
    · simp [Session.work, Session.opWork, Op.work, Session.stir, Op.pushes, hsendQ, hadd, hsub,
        Nat.mul_add, batchWork, hb]
      omega
  | @dequeuedNothing c useSize b packet hlt hsendQ hstore =>
    obtain ⟨-, hmax, -⟩ := hfits
    rw [iocpOneSendWsabufMax] at hmax
    by_cases hb : b = []
    · subst hb
      simp [Session.work, Session.opWork, Op.work, Session.stir, Op.pushes, hsendQ, batchWork]
      omega
    · simp [Session.work, Session.opWork, Op.work, Session.stir, Op.pushes, hsendQ, batchWork, hb]
      omega
  | @dequeueDone c useSize b hle =>
    have hb : b ≠ [] := by
      rintro rfl
      exact absurd hfits.1 (Nat.not_lt.mpr hle)
    simp [Session.work, Session.opWork, Op.work, Session.stir, Op.pushes, hb]
    omega
  | sendCounted c b =>
    have hcount : (se.ioCount + 1).toNat ≤ se.ioCount.toNat + 1 := by omega
    simp [Session.work, Session.opWork, Op.work, Session.stir, Op.pushes, attemptWork]
    omega
  | recvCounted c =>
    have hcount : (se.ioCount + 1).toNat ≤ se.ioCount.toNat + 1 := by omega
    simp [Session.work, Session.opWork, Op.work, Session.stir, Op.pushes, attemptWork]
    split <;> omega
  | @queuedFreed c rest deleteBuf packet sendQ hsendQ =>
    have hsub : sendQ.length - (sendQ.length + 1) = 0 := Nat.sub_eq_zero_of_le (Nat.le_succ _)
    have hadd : sendQ.length + 1 - sendQ.length = 1 := Nat.add_sub_cancel_left ..
    simp [Session.work, Session.opWork, Op.work, Session.stir, Op.pushes, hsendQ, hadd, hsub,
      Nat.mul_add, batchWork]
    omega
  | queuedNothing c rest hsendQ =>
    simp [Session.work, Session.opWork, Op.work, Session.stir, Op.pushes, hsendQ]
    omega
  | sendFailed c b hfail =>
    have hdec := work_decrement (m := 880) n se ids c (c.resume .err)
      ((work_resume se n c .err).trans (by omega)) (by cases c <;> decide)
    rw [stir_decrement]
    simp only [Op.pushes, Session.opWork, Op.work] at hdec ⊢
    omega
  | workerEnded =>
    have hdec := work_decrement (m := 875) n se ids .worker none (Nat.zero_le _) (by decide)
    rw [stir_decrement]
    simp only [Op.pushes, Session.opWork, Op.work] at hdec ⊢
    omega
  | ringFull c hfull =>
    rw [stir_decrement]
    by_cases hc : c = .reconnecter
    · -- `Reconnecter` comes back for the session with a reference less
      subst hc
      have hdec := work_decrement (m := 223) n se ids .reconnecter (Caller.resume .reconnecter .err)
        ((work_resume_reconnecter se n .err).le.trans (by omega)) (by decide)
      simp only [Op.pushes, Session.opWork, Op.work, attemptWork] at hdec ⊢
      simp
      omega
    · have hdec := work_decrement (m := 1098) n se ids c (c.resume .err)
        ((work_resume se n c .err).trans (by omega)) (by rw [closeWork_of_ne hc]; decide)
      simp [Op.pushes, Session.opWork, Op.work, attemptWork, hc] at hdec ⊢
      omega
  | recvFailed c hfail =>
    rw [stir_decrement]
    by_cases hc : c = .reconnecter
    · -- the kernel refused, or somebody else closed the socket
      subst hc
      have hdec := work_decrement (m := 221) n se ids .reconnecter (Caller.resume .reconnecter .err)
        ((work_resume_reconnecter se n .err).le.trans (by omega)) (by decide)
      have hpaid : 1 ≤ (!se.connected).toNat + (!ok).toNat := by
        cases hc : se.connected <;> cases ok <;> simp_all
      simp [Op.pushes, Session.opWork, Op.work, attemptWork, Op.refused] at hdec ⊢
      omega
    · have hdec := work_decrement n se ids c (c.resume .err) (work_resume se n c .err)
        (by rw [closeWork_of_ne hc]; decide)
      simp [Op.pushes, Session.opWork, Op.work, attemptWork, hc] at hdec ⊢
      omega
  | socketClosed c =>
    have hstir := stir_closed n se (c := c) (hm rfl)
    have hnext : tally (Session.opWork n { se with connected := false }) (if cfg.isReconnect then
        some (.invalidateSocket c) else c.resume .errSessionDeleted).toList ≤
          Op.work n se.sendQ.length false (.invalidateSocket c) := by
      split
      · exact le_rfl
      · exact (work_resume_deleted _ n c).trans (one_le_work_invalidateSocket c)
    have hclose := work_invalidateSocket_lt n se c
    simp only [Session.work, Op.pushes] at hnext ⊢
    omega
  | socketInvalidated c =>
    have hstir := stir_closed n se (c := c) (hm rfl)
    cases c <;>
      simp [Session.work, Session.opWork, Op.work, Op.pushes, Caller.closeWork, reconnectWork,
        attemptWork] at hstir ⊢ <;>
      omega
  | pushed c =>
    have hdone := work_resume_deleted se n c
    simp [Session.work, Op.work, Session.stir, Op.pushes, Session.opWork] at hdone ⊢
    omega
  | socketRenewed =>
    obtain rfl : m = 0 := by simpa [Op.reconnects, Op.role] using hm rfl
    simp [Session.work, Session.opWork, Op.work, Session.stir, Op.pushes]
    omega
  | sendBegun | releaseEntered c =>
    rw [iocpOneSendWsabufMax] at hcount
    simp [Session.work, Session.opWork, Op.work, Session.stir, Op.pushes]
    omega
  | recheckFound c hsendQ | restFound c hsendQ =>
    have := List.length_pos_iff.mpr hsendQ
    simp [Session.work, Session.opWork, Op.work, Session.stir, Op.pushes, batchWork]
    omega
  | restEmpty c hsendQ =>
    simp [Session.work, Session.opWork, Op.work, Session.stir, Op.pushes, hsendQ]
    omega
  | ringOpen c hopen =>
    simp [Session.work, Session.opWork, Op.work, Session.stir, Op.pushes]
    split <;> omega
  | _ =>
    simp [Session.work, Session.opWork, Op.work, Session.stir, Op.pushes, attemptWork]
    omega

/-- **What the others see of it.** -/
theorem opWork_le (n : ℕ) (se se' : Session) (op : Op) : se'.opWork n op ≤ se.opWork n op +
    (4 * (se'.sendQ.length - se.sendQ.length) +
      batchWork * (se.sendQ.length - se'.sendQ.length) +
      (se.connected && !se'.connected).toNat * attemptWork * op.attempts) := by
  cases op with
  | freeQueued c m b | freeStored c k i m =>
    simp only [Session.opWork, Op.work, batchWork]
    omega
  | recheckRestSize c | resetMode c =>
    simp only [Session.opWork, Op.work]
    omega
  | dequeue c useSize b =>
    simp only [Session.opWork, Op.work, batchWork]
    split <;> omega
  | recvPost c | countRecv c | wsaRecv c =>
    cases c <;> cases hc : se.connected <;> cases hc' : se'.connected <;>
      simp [Session.opWork, Op.work, Op.attempts, Caller.settles, hc, hc']
    all_goals omega
  | _ => exact Nat.le_add_right _ _

/-- `Reconnecter` goes on until it has popped the front of the list. -/
theorem Exec.popFront (h : Exec cfg ok sid se ids op o) (hrole : op.role = .reconnecter)
    (hnext : o.next = none) : op = .popFront := by
  have hresume : ∀ {c : Caller} {r}, c.role = .reconnecter → c.resume r ≠ none := by
    intro c r hc
    cases c <;> cases r <;> simp_all [Caller.role, Caller.resume]
  have hdec : ∀ {c : Caller} {r}, c.role = .reconnecter →
      (decrement se ids c (c.resume r)).next ≠ none := by
    intro c r hc
    rcases decrement_next se ids c (c.resume r) with h | h <;> rw [h]
    · exact Option.some_ne_none _
    · exact hresume hc
  cases h with
  | casFailed c | recheckEmpty c | recvPosted c | pushed c => exact absurd hnext (hresume hrole)
  | sendFailed c | ringFull c | recvFailed c => exact absurd hnext (hdec hrole)
  | socketClosed c =>
    dsimp only at hnext
    split at hnext
    · cases hnext
    · exact absurd hnext (hresume hrole)
  | workerEnded => cases hrole
  | popped => rfl
  | _ => cases hnext

/-- What an operation does to the list, and whether its front stays in work. -/
theorem Exec.list (h : Exec cfg ok sid se ids op o) :
    o.reconnectIdList.length ≤ ids.length + op.pushes - op.pops ∧
      op.reconnects ≤ tally Op.reconnects o.next.toList + op.pops := by
  constructor
  · cases h with
    | pushed c => simp [Op.pushes, Op.pops]
    | popped => simp [Op.pushes, Op.pops]
    | _ => exact Nat.le_refl _
  · by_cases hrole : op.role = .reconnecter
    · cases hnext : o.next with
      | none =>
        obtain rfl := h.popFront hrole hnext
        exact Nat.le_add_left _ _
      | some op' =>
        have hone : op'.reconnects = op.reconnects := by
          rw [Op.reconnects, Op.reconnects, h.role hnext]
        simp only [Option.toList_some, tally_cons, tally_nil]
        omega
    · rw [Op.reconnects, if_neg hrole]
      exact Nat.zero_le _

/-! ## Batches -/

/-- **What is known of the batches**, in every reachable state. -/
structure Batched (s : State) : Prop where
  ops : ∀ t ∈ s.threads, ∀ op ∈ t.op, op.Fits
  count : ∀ sid, (s.session sid).lBufferCount ≤ iocpOneSendWsabufMax

theorem fits_resume (h : op ∈ c.resume r) : op.Fits := by
  cases c <;> cases r <;> cases h <;> trivial

theorem fits_decrement {next : Option Op} (hnext : ∀ op ∈ next, op.Fits)
    (h : op ∈ (decrement se ids c next).next) : op.Fits := by
  rcases decrement_next se ids c next with heq | heq <;> rw [heq] at h
  · cases h
    trivial
  · exact hnext op h

/-- **An operation keeps a batch what it is.** -/
theorem Exec.fits (h : Exec cfg ok sid se ids op o) (hfits : op.Fits)
    (hcount : se.lBufferCount ≤ iocpOneSendWsabufMax)
    (hsub : ∀ k, op = .subtractCount k → se.lBufferCount = k) :
    (∀ op' ∈ o.next, op'.Fits) ∧ o.session.lBufferCount ≤ iocpOneSendWsabufMax := by
  cases h with
  | casFailed c | recheckEmpty c | recvPosted c | pushed c =>
    exact ⟨fun _ hop => fits_resume hop, hcount⟩
  | sendFailed c | ringFull c | recvFailed c =>
    exact ⟨fun _ hop => fits_decrement (fun _ h => fits_resume h) hop, hcount⟩
  | workerEnded => exact ⟨fun _ hop => fits_decrement (by simp) hop, hcount⟩
  | socketClosed c =>
    refine ⟨fun op' hop => ?_, hcount⟩
    dsimp only at hop
    split at hop
    · cases hop
      trivial
    · exact fits_resume hop
  | restFound c hsendQ =>
    refine ⟨?_, hcount⟩
    rintro _ ⟨⟩
    have := List.length_pos_iff.mpr hsendQ
    exact ⟨lt_min this (by decide), Nat.min_le_right _ _, Nat.zero_le _⟩
  | dequeued c hlt hsendQ | dequeuedNothing c hlt hsendQ =>
    obtain ⟨hpos, hmax, -⟩ := hfits
    refine ⟨?_, hcount⟩
    rintro _ ⟨⟩
    refine ⟨hpos, hmax, ?_⟩
    rw [List.length_append, List.length_singleton]
    exact hlt
  | dequeueDone c hle =>
    refine ⟨?_, hcount⟩
    rintro _ ⟨⟩
    exact hfits.2.2.trans hfits.2.1
  | bufferCountSet c b =>
    refine ⟨?_, Int.ofNat_le.mpr hfits⟩
    rintro _ ⟨⟩
    trivial
  | countSubtracted k =>
    refine ⟨?_, ?_⟩
    · rintro _ ⟨⟩
      trivial
    · simp [hsub k rfl]
  | popped => exact ⟨fun _ hop => (nomatch hop), hcount⟩
  | _ =>
    refine ⟨?_, hcount⟩
    rintro _ ⟨⟩
    trivial

theorem Completion.fits_op (c : Completion) : c.op.Fits := by
  cases c with
  | recv data =>
    simp only [Completion.op]
    split <;> trivial
  | send b => trivial

theorem batched_initial (cfg : Config) (senders : ℕ) : Batched (initialState cfg senders) := by
  refine ⟨fun t ht op hop => ?_, fun sid => Int.natCast_nonneg _⟩
  simp only [initialState, List.mem_cons, List.mem_append, List.mem_replicate] at ht
  rcases ht with rfl | rfl | ⟨-, rfl⟩ | ⟨-, rfl⟩ <;> cases hop

theorem Batched.goTo {op : Option Op} (h : Batched s) (hop : ∀ op' ∈ op, op'.Fits) :
    ∀ u ∈ (s.goTo i t sid op).threads, ∀ op' ∈ u.op, op'.Fits := by
  intro u hu op' hop'
  rcases List.mem_or_eq_of_mem_set hu with hu | rfl
  · exact h.ops u hu op' hop'
  · exact hop op' hop'

/-- **Every step keeps the batches what they are.** -/
theorem Batched.step (h : Batched s) (hc : ∀ sid, Counted sid s) (hs : Step cfg s e s') :
    Batched s' := by
  have hset : ∀ {sid} {se : Session}, se.lBufferCount ≤ iocpOneSendWsabufMax →
      ∀ sid', (Function.update s.session sid se sid').lBufferCount ≤ iocpOneSendWsabufMax := by
    intro sid se hse sid'
    by_cases hsid : sid' = sid
    · rw [hsid, Function.update_self]
      exact hse
    · rw [Function.update_of_ne hsid]
      exact h.count sid'
  cases hs with
  | sessionStarted hi =>
    exact ⟨h.goTo (by rintro _ ⟨⟩; trivial), hset (Int.natCast_nonneg _)⟩
  | packetSent hi => exact ⟨h.goTo (by rintro _ ⟨⟩; trivial), h.count⟩
  | finished hr => exact ⟨h.ops, hset (h.count _)⟩
  | @taken i sid k t c hi =>
    exact ⟨h.goTo (by rintro _ ⟨⟩; exact c.fits_op), hset (h.count _)⟩
  | reconnecting hi => exact ⟨h.goTo (by rintro _ ⟨⟩; trivial), h.count⟩
  | @executed i t op o ok hi hop ho =>
    have ht := List.mem_of_getElem? hi
    have hsub : ∀ k, op = .subtractCount k → (s.session t.session).lBufferCount = k := by
      rintro k rfl
      exact (hc t.session).ops _ (mem_ops.mpr ⟨t, ht, rfl, hop⟩) Nat.one_pos
    have hfits := (execOp_cases ho).fits (h.ops t ht op hop) (h.count _) hsub
    exact ⟨h.goTo hfits.1, hset hfits.2⟩
  | startReturned | sendCrashed | execCrashed => exact ⟨h.ops, h.count⟩

theorem batched_of_reachable (h : (system cfg).Reachable s) : Batched s :=
  reachable_of_step (C := fun _ _ => True) (batched_initial cfg)
    (fun _ _ _ hr h _ hs => h.step (counted_of_reachable hr) hs) h

/-! ## One step -/

/-- 1 for `Reconnecter` on its way to `WSARecv`. -/
def Thread.attempts (t : Thread) : ℕ := t.op.elim 0 Op.attempts

theorem Op.attempts_le_reconnects (op : Op) : op.attempts ≤ op.reconnects := by
  have hcaller : ∀ c : Caller, c.settles ≤ if c.role = .reconnecter then 1 else 0 := by
    intro c
    cases c <;> decide
  cases op <;> first | exact hcaller _ | exact Nat.zero_le _

theorem Staffed.role_of_reconnects (h : Staffed cfg s) (ht : t ∈ s.threads)
    (hpos : 0 < t.reconnects) : t.role = .reconnecter := by
  cases hop : t.op with
  | none => simp [Thread.reconnects, hop] at hpos
  | some op =>
    simp only [Thread.reconnects, hop, Option.elim_some, Op.reconnects] at hpos
    split at hpos
    · rename_i hrole
      exact (h.role t ht op hop).symm.trans hrole
    · exact absurd hpos (lt_irrefl 0)

/-- There is one `Reconnecter`, on all sessions together, -/
theorem Staffed.tally_reconnects_le_one (h : Staffed cfg s) :
    tally Thread.reconnects s.threads ≤ 1 := by
  have hone : ∀ t : Thread, t.reconnects ≤ 1 := by
    intro t
    unfold Thread.reconnects
    cases t.op with
    | none => exact Nat.zero_le _
    | some op =>
      simp only [Option.elim_some, Op.reconnects]
      split <;> omega
  refine tally_le_one (fun t _ => hone t)
    (List.pairwise_iff_getElem.mpr fun i j hi hj hlt hpos => ?_)
  by_contra hne
  have hij := h.reconnecter i j _ _ (List.getElem?_eq_getElem hi) (List.getElem?_eq_getElem hj)
    (h.role_of_reconnects (List.getElem_mem hi) hpos)
    (h.role_of_reconnects (List.getElem_mem hj) (Nat.pos_of_ne_zero hne))
  omega

/-- and while it is idle nobody works on the front of the list. -/
theorem Staffed.tally_reconnects_eq_zero (h : Staffed cfg s) (hi : s.threads[i]? = some t)
    (hrole : t.role = .reconnecter) (hidle : t.op = none) :
    tally Thread.reconnects s.threads = 0 := by
  refine tally_eq_zero.mpr fun u hu => Nat.eq_zero_of_not_pos fun hpos => ?_
  obtain ⟨j, hj⟩ := List.mem_iff_getElem?.mp hu
  obtain rfl := h.reconnecter i j t u hi hj hrole (h.role_of_reconnects hu hpos)
  obtain rfl := Option.some.inj (hi.symm.trans hj)
  simp [Thread.reconnects, hidle] at hpos

/-- While a thread is elsewhere, nobody or somebody else attempts to reconnect. -/
theorem Staffed.attempts_le (h : Staffed cfg s) (hi : s.threads[i]? = some t)
    (hop : t.op = some op) (hzero : op.attempts = 0) :
    tally Thread.attempts s.threads + op.reconnects ≤ 1 := by
  refine le_trans (tally_add_le_tally (g := Thread.reconnects) (fun u _ => ?_) hi ?_)
    h.tally_reconnects_le_one
  · unfold Thread.attempts Thread.reconnects
    cases u.op with
    | none => exact le_rfl
    | some op => exact op.attempts_le_reconnects
  · simp [Thread.attempts, Thread.reconnects, hop, hzero]

/-- What the threads see of a change of a session. -/
theorem tally_stir (se se' : Session) (l : List Thread) :
    tally (fun t => 4 * (se'.sendQ.length - se.sendQ.length) +
        batchWork * (se.sendQ.length - se'.sendQ.length) +
        (se.connected && !se'.connected).toNat * attemptWork * t.attempts) l =
      se.stir l.length (tally Thread.attempts l) se' := by
  induction l with
  | nil => simp [Session.stir]
  | cons t l ih =>
    rw [tally_cons, ih, tally_cons, List.length_cons, Session.stir, Session.stir]
    ring

/-- The work of the sessions, where one of them changes. -/
theorem tally_work_setSession (se : Session) (session : ℕ → Session) (n : ℕ)
    (hsid : sid < cfg.numOfSession) :
    tally (fun sid' => (Function.update session sid se sid').work n)
        (List.range cfg.numOfSession) + (session sid).work n =
      tally (fun sid' => (session sid').work n) (List.range cfg.numOfSession) + se.work n :=
  tally_update (w := Session.work n) se session List.nodup_range (List.mem_range.mpr hsid)

/-- An idle thread takes up an operation, on sessions that are no more work than before. -/
theorem tally_work_goTo (session : ℕ → Session) (sid : ℕ) (op : Op)
    (hi : s.threads[i]? = some t) (hidle : t.op = none)
    (hle : ∀ sid op, (session sid).opWork s.threads.length op ≤
      (s.session sid).opWork s.threads.length op) :
    tally (Thread.work s.threads.length session)
        (s.threads.set i { t with session := sid, op := some op }) ≤
      tally (Thread.work s.threads.length s.session) s.threads +
        (session sid).opWork s.threads.length op := by
  have h := tally_set_le (f := Thread.work s.threads.length s.session)
    (g := Thread.work s.threads.length session) (d := fun _ => 0)
    (c := { t with session := sid, op := some op }) hi fun u _ => by
      unfold Thread.work
      cases u.op with
      | none => exact Nat.le_refl _
      | some op => exact hle _ _
  have hzero : tally (fun _ : Thread => 0) s.threads = 0 := tally_eq_zero.mpr fun _ _ => rfl
  have hwork : Thread.work s.threads.length s.session t = 0 := by rw [Thread.work, hidle]; rfl
  rw [hzero, hwork] at h
  exact h

theorem tally_reconnects_goTo (sid : ℕ) (op : Op) (hi : s.threads[i]? = some t)
    (hidle : t.op = none) :
    tally Thread.reconnects (s.threads.set i { t with session := sid, op := some op }) =
      tally Thread.reconnects s.threads + op.reconnects := by
  have h := tally_set (f := Thread.reconnects) (b := { t with session := sid, op := some op }) hi
  have hzero : t.reconnects = 0 := by rw [Thread.reconnects, hidle]; rfl
  rw [hzero] at h
  exact h

/-- **An operation changes one session**, and what it adds to the work of the others is stirred. -/
theorem tally_work_exec (hi : s.threads[i]? = some t) (hop : t.op = some op) (se : Session)
    (next : Option Op) :
    tally (Thread.work s.threads.length (Function.update s.session t.session se))
        (s.threads.set i { t with op := next }) +
        (s.session t.session).opWork s.threads.length op ≤
      tally (Thread.work s.threads.length s.session) s.threads +
        tally (se.opWork s.threads.length) next.toList +
        (s.session t.session).stir s.threads.length (tally Thread.attempts s.threads) se := by
  have h := tally_set_le (f := Thread.work s.threads.length s.session)
    (g := Thread.work s.threads.length (Function.update s.session t.session se))
    (d := fun u => 4 * (se.sendQ.length - (s.session t.session).sendQ.length) +
        batchWork * ((s.session t.session).sendQ.length - se.sendQ.length) +
        ((s.session t.session).connected && !se.connected).toNat * attemptWork * u.attempts)
    (c := { t with op := next }) hi fun u _ => by
      unfold Thread.work Thread.attempts
      cases u.op with
      | none => exact Nat.zero_le _
      | some op' =>
        simp only [Option.elim_some]
        by_cases hsid : u.session = t.session
        · rw [hsid, Function.update_self]
          exact opWork_le _ _ _ op'
        · rw [Function.update_of_ne hsid]
          exact Nat.le_add_right _ _
  have hold : Thread.work s.threads.length s.session t =
      (s.session t.session).opWork s.threads.length op := by rw [Thread.work, hop]; rfl
  have hnew : Thread.work s.threads.length (Function.update s.session t.session se)
      { t with op := next } = tally (se.opWork s.threads.length) next.toList := by
    simp only [Thread.work, Function.update_self]
    cases next <;> simp
  rwa [tally_stir, hold, hnew] at h

theorem crashed_of_step (h : step cfg s e = some s') : s.crashed = false := by
  unfold step at h
  split at h
  · cases h
  · rename_i hc
    simpa using hc

theorem work_op (n : ℕ) (se : Session) (c : Completion) : 1 + se.opWork n c.op = c.work := by
  cases c with
  | recv data =>
    simp only [Session.opWork, Completion.work, Completion.op]
    split <;> rfl
  | send b => rfl

theorem work_le (c : Completion) : c.work ≤ 881 + attemptWork := by
  cases c with
  | recv data =>
    simp only [Completion.work, Completion.op]
    split <;> simp [Op.work, attemptWork]
  | send b => simp [Completion.work, Completion.op, Op.work, attemptWork]

theorem opWork_start_le (op : Op) : se.start.opWork n op ≤ se.opWork n op := by
  simpa [Session.start] using opWork_le n se se.start op

/-- What a session is owed by the kernel says that `Start` has reached it. -/
theorem Staffed.lt_of_outstanding (h : Staffed cfg s) (hout : 0 < (s.session sid).outstanding) :
    sid < cfg.numOfSession := by
  by_contra hge
  rw [(h.fresh sid (h.bound.trans (Nat.le_of_not_lt hge))).1] at hout
  exact absurd hout (lt_irrefl 0)

/-- A session that keeps its queue and its socket is the same work to the threads. -/
theorem Thread.work_update (session : ℕ → Session) (sid : ℕ) (se : Session)
    (hsendQ : se.sendQ = (session sid).sendQ)
    (hconnected : se.connected = (session sid).connected) :
    Thread.work n (Function.update session sid se) = Thread.work n session := by
  funext t
  unfold Thread.work
  by_cases hsid : t.session = sid
  · rw [hsid, Function.update_self]
    unfold Session.opWork
    rw [hsendQ, hconnected]
  · rw [Function.update_of_ne hsid]

/-- A completion is put in the queue, -/
theorem work_finish {k : ℕ} (c : Completion) : (se.finish k c).work n = se.work n + c.work := by
  simp only [Session.finish, Session.work, tally_append, tally_cons, tally_nil]
  omega

/-- and taken by a worker. -/
theorem work_take {k : ℕ} {c : Completion} (h : se.completed[k]? = some c) :
    (se.take k).work n + c.work = se.work n := by
  have hcompleted := (replaces_eraseIdx h).tally_eq Completion.work
  simp only [tally_cons, tally_nil] at hcompleted
  simp only [Session.take, Session.work]
  omega

/-- **A step of a thread is a step less to do**, and no step adds more than comes with it. -/
theorem work_step (hr : (system cfg).Reachable s) (h : step cfg s e = some s') :
    [e].countP Event.own + s'.work cfg ≤ s.work cfg + s.price e := by
  have hst := staffed_of_reachable hr
  have hb := batched_of_reachable hr
  have hcrashed := crashed_of_step h
  cases step_cases h with
  | @sessionStarted i t hi hrole hidle hlt =>
    have hsessions := tally_work_setSession (s.session s.sessionIdGenerator).start s.session
      s.threads.length hlt
    have hthreads := tally_work_goTo (Function.update s.session s.sessionIdGenerator
      (s.session s.sessionIdGenerator).start) s.sessionIdGenerator (.recvPost .start) hi hidle
        fun sid op => by
          by_cases hsid : sid = s.sessionIdGenerator
          · rw [hsid, Function.update_self]
            exact opWork_start_le op
          · rw [Function.update_of_ne hsid]
    have hreconnects := tally_reconnects_goTo s.sessionIdGenerator (.recvPost .start) hi hidle
    have hstart : (s.session s.sessionIdGenerator).start.work s.threads.length =
      (s.session s.sessionIdGenerator).work s.threads.length := rfl
    have hrecvPost : (s.session s.sessionIdGenerator).start.opWork s.threads.length
      (.recvPost .start) = 879 + attemptWork := rfl
    have hzero : Op.reconnects (.recvPost .start) = 0 := rfl
    show 0 + State.work cfg _ ≤ _ + (879 + attemptWork)
    rw [Function.update_self, hrecvPost] at hthreads
    simp only [State.work, State.setSession, State.goTo, List.length_set, hreconnects, hzero,
      Nat.add_zero]
    omega
  | startReturned => exact Nat.le_of_eq (Nat.zero_add _)
  | @packetSent i sid t fixedId selected hi hrole hidle =>
    have hthreads := tally_work_goTo s.session sid (.enqueue ⟨s.nextSerial, fixedId⟩) hi hidle
      fun _ _ => Nat.le_refl _
    have hreconnects := tally_reconnects_goTo sid (.enqueue ⟨s.nextSerial, fixedId⟩) hi hidle
    have hzero : Op.reconnects (.enqueue ⟨s.nextSerial, fixedId⟩) = 0 := rfl
    show 0 + State.work cfg _ ≤
      _ + (s.session sid).opWork s.threads.length (.enqueue ⟨s.nextSerial, fixedId⟩)
    simp only [State.work, State.goTo, List.length_set, hreconnects, hzero, Nat.add_zero]
    omega
  | sendCrashed i fixedId =>
    simp only [State.work, Event.own, List.countP_cons, List.countP_nil, Bool.not_true,
      Bool.toNat_false]
    simp only [Bool.false_eq_true, if_false]
    omega
  | @finished sid k r data hpost =>
    have hpos : 0 < (s.session sid).outstanding :=
      Nat.add_pos_left (List.length_pos_of_mem (List.mem_of_getElem? hpost)) _
    have hsessions := tally_work_setSession ((s.session sid).finish k (r.finish data)) s.session
      s.threads.length (hst.lt_of_outstanding hpos)
    have hle := work_le (r.finish data)
    rw [work_finish] at hsessions
    show 0 + State.work cfg _ ≤ _ + (881 + attemptWork)
    simp only [State.work, State.setSession,
      Thread.work_update s.session sid ((s.session sid).finish k _) rfl rfl]
    omega
  | @taken i sid k t c hi hrole hidle hc =>
    have hpos : 0 < (s.session sid).outstanding :=
      Nat.add_pos_right _ (List.length_pos_of_mem (List.mem_of_getElem? hc))
    have hsessions := tally_work_setSession ((s.session sid).take k) s.session
      s.threads.length (hst.lt_of_outstanding hpos)
    have htake := work_take (n := s.threads.length) hc
    have hthreads := tally_work_goTo s.session sid c.op hi hidle fun _ _ => Nat.le_refl _
    have hreconnects := tally_reconnects_goTo sid c.op hi hidle
    have hzero : c.op.reconnects = 0 := by rw [Op.reconnects, c.role_op]; rfl
    have hwork := work_op s.threads.length (s.session sid) c
    show 1 + State.work cfg _ ≤ _ + 0
    simp only [State.work, State.setSession, State.goTo, List.length_set, hreconnects, hzero,
      Thread.work_update s.session sid ((s.session sid).take k) rfl rfl,
      Nat.add_zero]
    omega
  | @reconnecting i sid t hi hrole hidle hhead =>
    have hthreads := tally_work_goTo s.session sid .newSocket hi hidle fun _ _ => Nat.le_refl _
    have hreconnects := tally_reconnects_goTo sid .newSocket hi hidle
    have hone : Op.reconnects .newSocket = 1 := rfl
    have hpos := List.length_pos_of_mem (List.mem_of_head? hhead)
    have hfree := hst.tally_reconnects_eq_zero hi hrole hidle
    have hwork : (s.session sid).opWork s.threads.length .newSocket + 1 = reconnectWork := rfl
    have hlist : reconnectWork * (s.reconnectIdList.length - 1) + reconnectWork =
        reconnectWork * s.reconnectIdList.length := by
      rw [← Nat.mul_succ]
      congr 1
      omega
    show 1 + State.work cfg _ ≤ _ + 0
    simp only [State.work, State.goTo, List.length_set, hreconnects, hone, hfree, Nat.zero_add,
      Nat.sub_zero]
    omega
  | @executed i t op o ok hi hop ho =>
    have ht := List.mem_of_getElem? hi
    have hx := execOp_cases ho
    have hwork := hx.work (n := s.threads.length) (hb.ops t ht op hop) (hb.count _)
      (hst.attempts_le hi hop)
    have hthreads := tally_work_exec hi hop o.session o.next
    have hsessions := tally_work_setSession o.session s.session s.threads.length
      ((hst.lt_of_op ht hop).trans_le hst.bound)
    have hreconnects := tally_set (f := Thread.reconnects) (b := { t with op := o.next }) hi
    obtain ⟨hlength, hfront⟩ := hx.list
    have hold : t.reconnects = op.reconnects := by rw [Thread.reconnects, hop]; rfl
    have hnew : Thread.reconnects { t with op := o.next } = tally Op.reconnects o.next.toList := by
      unfold Thread.reconnects
      cases o.next <;> simp
    have hprice : s.price (.exec i ok) = (op.refused ok).toNat * attemptWork := by
      simp [State.price, hi, hop]
    have hlist : reconnectWork * (o.reconnectIdList.length -
        tally Thread.reconnects (s.threads.set i { t with op := o.next })) ≤
        reconnectWork * (s.reconnectIdList.length - tally Thread.reconnects s.threads) +
          reconnectWork * op.pushes := by
      rw [← Nat.mul_add]
      refine Nat.mul_le_mul_left _ ?_
      omega
    rw [hprice]
    show 1 + State.work cfg _ ≤ _
    simp only [State.work, State.setSession, State.goTo, List.length_set]
    omega
  | execCrashed =>
    simp only [State.work, State.price, Event.own, List.countP_cons, List.countP_nil, hcrashed,
      Bool.not_true, Bool.not_false, Bool.toNat_false, Bool.toNat_true, if_true]
    omega

/-! ## Whole runs -/

theorem work_initial (cfg : Config) (senders : ℕ) : (initialState cfg senders).work cfg = 1 := by
  have hidle : ∀ t ∈ (initialState cfg senders).threads, t.op = none := by
    intro t ht
    simp only [initialState, List.mem_cons, List.mem_append, List.mem_replicate] at ht
    rcases ht with rfl | rfl | ⟨-, rfl⟩ | ⟨-, rfl⟩ <;> rfl
  have hsessions : ∀ n, tally (fun sid => ((initialState cfg senders).session sid).work n)
      (List.range cfg.numOfSession) = 0 := fun n => tally_eq_zero.mpr fun _ _ => rfl
  have hthreads : ∀ n, tally (Thread.work n (initialState cfg senders).session)
      (initialState cfg senders).threads = 0 := fun n =>
    tally_eq_zero.mpr fun t ht => by rw [Thread.work, hidle t ht]; rfl
  have hlist : (initialState cfg senders).reconnectIdList.length = 0 := rfl
  rw [State.work, hsessions, hthreads, hlist, Nat.zero_sub]
  rfl

/-- **What is known of the work in every run**, from any reachable state. -/
theorem work_of_run (h : (system cfg).Reachable s) (hr : (system cfg).run s es = some s') :
    (system cfg).Reachable s' ∧
      es.countP Event.own + s'.work cfg ≤ s.work cfg + (system cfg).cost State.price s es :=
  System.countP_le_of_cost (I := (system cfg).Reachable) (State.work cfg) State.price Event.own
    (fun _ _ _ hI hstep => ⟨.step hI trivial hstep, work_step hI hstep⟩) h hr

/-- **The client does not go in circles.** In every run, for any number of workers and senders and
in any order of their steps, the operations of the threads on the sessions, the completions that the
workers take and the ids that `Reconnecter` takes up are together bounded by what came from outside:
so much for each session that `Start` connects, each packet that is sent, each completion, and each
`WSARecv` of `Reconnecter` that the kernel refuses. The waiting of `Reconnecter` between two looks
at the list and two attempts to connect is not among them. -/
theorem turns_le_of_run (h : (system cfg).Init s) (hr : (system cfg).run s es = some s') :
    es.countP Event.own ≤ 1 + (system cfg).cost State.price s es := by
  have hle := (work_of_run (.init h) hr).2
  obtain ⟨senders, rfl⟩ := h
  rw [work_initial] at hle
  omega

/-- A channel that is released twice, and whose next connection the kernel refuses: 42 steps, and
the session is on the list three times. -/
theorem turns_le_refused : ∃ es s',
    (system oneChannel).run (initialState oneChannel 1) es = some s' ∧
    s'.reconnectIdList = [0, 0, 0] ∧ es.countP Event.own = 42 ∧
    es.countP Event.own ≤ 1 + (system oneChannel).cost State.price (initialState oneChannel 1) es ∧
    (system oneChannel).cost State.price (initialState oneChannel 1) es = 5467 := by
  let es : List Event := lostRun ++ .sendPacket 3 (some 7) :: execs 3 16 ++ .reconnect 1 ::
    execs 1 4 ++ .exec 1 false :: execs 1 8
  obtain ⟨s', -, hr, hs⟩ := (system oneChannel).exists_run es (s := initialState oneChannel 1)
    (c := fun _ _ => true) (f := fun s => s.reconnectIdList = [0, 0, 0]) (by decide +kernel)
  exact ⟨es, s', hr, of_decide_eq_true hs, by decide +kernel, turns_le_of_run ⟨1, rfl⟩ hr,
    by decide +kernel⟩

end MultiLanClient

end DdingGameServer
