import DdingGameServer.Common.Progress
import DdingGameServer.RIOServer.RefCount
/-!
# RIOServer — the work of the server

What one operation leads to is bounded, for all its loops. `SendPost` goes round again, but gets
past its compare-exchange only once for each completion of a send; `MakeSendStream` goes on as long
as there are packets in the queue; each frame takes a byte off the ring at least; and a request that
was posted ends once. So there is a measure, `State.work`, that every operation of a thread, every
completion that a worker takes and every end of a request decreases, and that only grows with what
comes from outside: sessions, calls, bytes, and the packets that handlers send. In every run the
operations and completions are paid for by these (`steps_le_of_run`): whatever the order of the
steps, no call and no completion keeps the server going for ever.

A worker that finds its queue empty looks again, and the accepter tries again where `accept` fails.
These rounds have no end and change nothing that is modelled: there are no steps for them, and the
bound does not count them.
-/

namespace DdingGameServer

namespace RIOServer

variable {cfg : NetConfig} {s s' : State} {e : Event} {es : List Event} {sid : SessionId} {op : Op}
  {ok : Bool} {replies : List NetBuffer} {sh : Shared} {se : RIOSession} {res : IoPostError}

/-! ## What is left to do -/

/-- What a request the kernel works on leads to: it ends without data, a worker takes it, and gives
its reference back. -/
def requestWork : ℕ := 10

/-- What a compare-exchange leads to that gets through. -/
def roundWork : ℕ := 16

/-- **How many steps an operation leads to**, at most. What it leads to only with others is theirs:
the round of a compare-exchange is with `ioMode`, a packet of a stream with the queue, a frame with
the ring, and what a handler sends with the handler. -/
def Op.work : Op → ℕ
  | .incWorkerCount | .onSessionEntered | .incSessionCount | .countRecv | .onSessionLeaved
  | .closeSocket | .decWorkerCount | .decSessionCount | .eraseSession | .onSessionReleased
  | .onRecvPacket _ | .setSendDisconnect | .sendPostCas => 1
  | .enqueue _ | .sendPostRecheck | .sendCompleted => 2
  | .releaseOnError _ => 6
  | .ioCountDecrement => 7
  | .workerTail _ | .invalidIOCompleted _ => 8
  | .rioReceive | .rioSend _ _ => 12
  | .countSend _ _ => 13
  | .streamLoop _ _ _ _ => 14
  | .makeSendStream => 15
  | .sendPostCheck => roundWork
  | .sendPostReset | .sendIOCompleted => 19
  | .emplaceSession => 22
  | .recvCompleted data => 19 + data.length
  | .getIOCompletedContext _ data => if data = [] then 8 else 28 + data.length

/-- What the kernel and the workers have to do for a session. -/
def RIOSession.work (se : RIOSession) : ℕ :=
  (if se.ioMode = .ioNoneSending then roundWork else 0) + se.sendQueue.length +
    se.recvBuffer.length + requestWork * se.posted.length +
    tally (fun c => 1 + (Op.getIOCompletedContext c.1 c.2).work) se.completed

/-- **What is left to do.** -/
def State.work (s : State) : ℕ :=
  tally (fun sid => (s.session sid).work) (List.range (s.nextSessionId + 1)) +
    tally (fun t => tally Op.work t.code) s.threads

/-- A step of a thread, or of the kernel. -/
def Event.own : Event → Bool
  | .exec _ _ _ | .dequeue _ _ _ | .complete _ _ _ => true
  | _ => false

/-- **What comes from outside with an event**: a session and the bytes its ring is left with, a
call, the bytes of a completion, the packets that a handler sends. -/
def Event.price : Event → ℕ
  | .accept _ _ ring _ => 39 + ring.length
  | .getSession _ _ => 0
  | .sendPacket _ _ => 3
  | .sendPacketAndDisconnect _ _ => 4
  | .complete _ _ data => 21 * data.length
  | .dequeue _ _ _ => 0
  | .exec _ _ replies => 3 * replies.length

/-! ## One operation -/

/-- Every frame takes a byte at least. -/
theorem length_packets_add_rest (cfg : NetConfig) (fuel : ℕ) (ring : List UInt8) :
    (recvLoop cfg fuel ring).packets.length + (recvLoop cfg fuel ring).rest.length ≤
      ring.length := by
  induction fuel generalizing ring with
  | zero => simp [recvLoop]
  | succ fuel ih =>
    unfold recvLoop
    split
    · simp
    dsimp only
    split
    · simp
    split
    · simp
    rename_i hlong hpos _
    split
    · simp only [List.length_nil, List.length_drop]
      omega
    · have := ih ((ring.drop cfg.headerSize).drop (getPayloadLength cfg ring))
      simp only [List.length_drop, List.length_cons] at this ⊢
      omega

theorem tally_work_onRecvPacket (packets : List (List UInt8)) :
    tally Op.work (packets.map .onRecvPacket) = packets.length := by
  induction packets with
  | nil => rfl
  | cons packet packets ih =>
    rw [List.map_cons, tally_cons, ih, List.length_cons]
    exact Nat.add_comm _ _

theorem tally_work_replies : tally Op.work (replies.flatMap sendPacket) = 3 * replies.length := by
  induction replies with
  | nil => rfl
  | cons packet replies ih =>
    rw [List.flatMap_cons, tally_append, ih, List.length_cons]
    show 3 + _ = _
    omega

/-- **An operation is a step less**, but for what a handler sends. -/
theorem execOp_work {o : Outcome} (ho : o = execOp cfg op ok replies sid sh se res) :
    1 + o.session.work + tally Op.work o.code ≤ se.work + op.work + 3 * replies.length := by
  subst ho
  cases op with
  | recvCompleted data =>
    have hle := length_packets_add_rest cfg (se.recvBuffer ++ data).length (se.recvBuffer ++ data)
    simp only [execOp, recvPost, tally_append, tally_work_onRecvPacket, tally_cons, tally_nil,
      Op.work, RIOSession.work, List.length_append] at hle ⊢
    omega
  | onRecvPacket packet =>
    simp only [execOp, tally_work_replies, Op.work]
    omega
  | getIOCompletedContext c data =>
    -- with data it is the start of a completion, without a reference given back
    simp only [execOp]
    by_cases hdata : data = [] <;> repeat' split
    all_goals
      simp_all [RIOSession.work, Op.work]
    all_goals omega
  | _ =>
    simp only [execOp]
    repeat' split
    all_goals
      simp_all [RIOSession.work, Op.work, roundWork, requestWork, sendPost, recvPost,
        releaseSession, enterNewSession, rioSendBufferIsNull]
    all_goals omega

/-! ## One step -/

/-- Sessions whose ids have not been drawn are as they were. -/
def Unmade (s : State) : Prop := ∀ sid, s.nextSessionId < sid → s.session sid = RIOSession.new 0

theorem unmade_step (h : Unmade s) (hrc : RefCounted s) (hs : Step cfg s e s') : Unmade s' := by
  intro sid hsid
  have hsid' : s.nextSessionId < sid := Nat.lt_of_le_of_lt hs.nextSessionId_le hsid
  cases hs.moves sid with
  | unmoved hse hmem hp => rw [hse, h sid hsid']
  | entered threadId hid hnext _ hse hsh hp => exact absurd hnext (Nat.ne_of_lt hsid)
  | called hi ht hc hse hsh hp => rw [hse, h sid hsid']
  | completed data hc hse hsh hp =>
    rw [h sid hsid'] at hc
    cases hc
  | dequeued hi hcode hrole hc hse hsh hp =>
    rw [h sid hsid'] at hc
    cases hc
  | executed ok replies hi ht hcode ho hse hsh hp =>
    exact absurd (hrc.drawn _ (List.mem_of_getElem? hi)) (Nat.not_le.mpr (ht ▸ hsid'))

/-- The work of the sessions, where one of them changes, -/
theorem tally_work_update (se : RIOSession) (session : SessionId → RIOSession) {n : ℕ}
    (hsid : sid ≤ n) :
    tally (fun sid' => (Function.update session sid se sid').work) (List.range (n + 1)) +
        (session sid).work =
      tally (fun sid' => (session sid').work) (List.range (n + 1)) + se.work :=
  tally_update (w := RIOSession.work) se session List.nodup_range
    (List.mem_range.mpr (Nat.lt_succ_of_le hsid))

/-- and where one is made. -/
theorem tally_work_new (se : RIOSession) (session : SessionId → RIOSession) (n : ℕ) :
    tally (fun sid => (Function.update session (n + 1) se sid).work) (List.range (n + 1 + 1)) =
      tally (fun sid => (session sid).work) (List.range (n + 1)) + se.work := by
  rw [List.range_succ, tally_append, tally_cons, tally_nil, Function.update_self, Nat.add_zero]
  congr 1
  refine tally_congr fun sid hsid => ?_
  rw [Function.update_of_ne (Nat.ne_of_lt (List.mem_range.mp hsid))]

/-- The work of a thread that is given another code. -/
theorem tally_work_set {i : ℕ} {t u : Thread} (hi : s.threads[i]? = some t) :
    tally (fun t => tally Op.work t.code) (s.threads.set i u) + tally Op.work t.code =
      tally (fun t => tally Op.work t.code) s.threads + tally Op.work u.code :=
  tally_set hi

theorem Calls.work_eq {i : ℕ} {code : List Op} (h : Calls i e code) :
    tally Op.work code = e.price ∧ [e].countP Event.own = 0 := by
  cases h with
  | sendPacket packet => exact ⟨rfl, rfl⟩
  | sendPacketAndDisconnect packet => exact ⟨rfl, rfl⟩

/-- What a completion leaves to do. -/
theorem work_getIOCompletedContext (c : IOContext) (data : List UInt8) :
    (Op.getIOCompletedContext c data).work ≤ 8 + 21 * data.length := by
  cases data with
  | nil => exact Nat.le_refl _
  | cons x data =>
    simp only [Op.work, List.cons_ne_nil, if_false, List.length_cons]
    omega

/-- A request that ends is a completion instead, -/
theorem work_complete {k : ℕ} {c : IOContext} (data : List UInt8) (h : se.posted[k]? = some c) :
    { se with posted := se.posted.eraseIdx k
              completed := se.completed ++ [(c, data)] : RIOSession }.work + requestWork =
      se.work + (1 + (Op.getIOCompletedContext c data).work) := by
  have hlt := (List.getElem?_eq_some_iff.mp h).1
  have hpos : (se.posted.eraseIdx k).length + 1 = se.posted.length := by
    rw [List.length_eraseIdx_of_lt hlt]
    omega
  simp only [RIOSession.work, tally_append, tally_cons, tally_nil, requestWork]
  omega

/-- and a completion that is taken is its worker's. -/
theorem work_dequeue {k : ℕ} {c : IOContext × List UInt8} (h : se.completed[k]? = some c) :
    { se with completed := se.completed.eraseIdx k : RIOSession }.work +
      (1 + (Op.getIOCompletedContext c.1 c.2).work) = se.work := by
  have hcompleted := (replaces_eraseIdx h).tally_eq fun c =>
    1 + (Op.getIOCompletedContext c.1 c.2).work
  simp only [tally_cons, tally_nil] at hcompleted
  simp only [RIOSession.work]
  omega

/-- **A step of the server is a step less to do**, but for what comes with it. -/
theorem work_step (h : Unmade s) (hrc : RefCounted s) (hs : Step cfg s e s') :
    [e].countP Event.own + s'.work ≤ s.work + e.price := by
  have hdrawn : ∀ {sid}, 0 < (s.session sid).outstanding (fun _ => true) → sid ≤ s.nextSessionId :=
    fun hpos => Nat.not_lt.mp fun hlt => hpos.ne' ((hrc.untouched _ hlt).outstanding _)
  cases hs with
  | @acceptFailed ring i threadId =>
    have hnew := h s.newSessionId lt_newSessionId
    have hsame : Function.update s.session (s.nextSessionId + 1) (RIOSession.new 0) = s.session :=
      Function.update_eq_self_iff.mpr hnew.symm
    have hwork := tally_work_new (.new 0) s.session s.nextSessionId
    rw [hsame] at hwork
    have hse : (RIOSession.new 0).work = 16 := rfl
    show 0 + State.work _ ≤ _ + (39 + ring.length)
    simp only [State.work, State.newSessionId, hwork, hse]
    omega
  | @accepted i threadId ring t hi hcode hid =>
    have hthread := tally_work_set
      (u := { t with session := s.newSessionId, code := makeNewSession }) hi
    have hsessions := tally_work_new (initSession threadId ring) s.session s.nextSessionId
    have hse : (initSession threadId ring).work = 16 + ring.length := by
      simp [RIOSession.work, initSession, RIOSession.new, roundWork]
    have hcodework : tally Op.work makeNewSession = 23 := rfl
    simp only [hcode, tally_nil, hcodework] at hthread
    show 0 + State.work _ ≤ _ + (39 + ring.length)
    simp only [State.work, State.setThread, State.setSession, State.newSessionId] at hthread ⊢
    omega
  | @gotSession i t sid hi hcode hmem =>
    have hthread := tally_work_set (u := { t with session := sid }) hi
    show 0 + State.work _ ≤ _ + 0
    simp only [State.work, State.setThread] at hthread ⊢
    omega
  | @called i t e code hi hcode hne hcall =>
    have hthread := tally_work_set (u := { t with code := code }) hi
    obtain ⟨hwork, hown⟩ := hcall.work_eq
    simp only [hcode, tally_nil, hwork] at hthread
    rw [hown]
    simp only [State.work, State.setThread] at hthread ⊢
    omega
  | @completed sid k c data hc =>
    have hpos : 0 < (s.session sid).outstanding fun _ => true := by
      have := countP_eraseIdx (f := fun _ => true) hc
      simp only [List.countP_singleton, if_true] at this
      exact Nat.lt_of_lt_of_le (by omega) (Nat.le_add_right _ _)
    have hwork := fun se => tally_work_update se s.session (hdrawn hpos)
    have hcomplete := work_complete data hc
    have hget := work_getIOCompletedContext c data
    show 1 + State.work _ ≤ _ + 21 * data.length
    simp only [State.work, State.setSession, requestWork] at hcomplete ⊢
    have := hwork { s.session sid with
      posted := (s.session sid).posted.eraseIdx k
      completed := (s.session sid).completed ++ [(c, data)] }
    dsimp only at this
    omega
  | @dequeued i t sid k c hi hcode hrole hc =>
    have hwork := fun se => tally_work_update se s.session
      (hdrawn (outstanding_pos_of_completed hc))
    have hthread := tally_work_set (u := { t with
      session := sid, result := .success, code := [.getIOCompletedContext c.1 c.2] }) hi
    have hdequeue := work_dequeue hc
    simp only [hcode, tally_nil, tally_cons] at hthread
    show 1 + State.work _ ≤ _ + 0
    have := hwork { s.session sid with completed := (s.session sid).completed.eraseIdx k }
    dsimp only at this
    simp only [State.work, State.setSession, State.setThread] at hthread ⊢
    omega
  | @executed i t op rest o ok replies hi hcode ho =>
    have hwork := tally_work_update o.session s.session (hrc.drawn t (List.mem_of_getElem? hi))
    have hthread := tally_work_set (u := { t with
      result := o.result, code := o.code ++ rest }) hi
    have hop := execOp_work ho
    simp only [hcode, tally_cons, tally_append] at hthread
    show 1 + State.work _ ≤ _ + 3 * replies.length
    simp only [State.work, State.setSession, State.setThread] at hthread ⊢
    omega

/-! ## Whole runs -/

/-- **What is known of the work in every run**, from any state that the invariants hold of. -/
theorem work_of_run (h : Unmade s) (hrc : RefCounted s) (hr : (system cfg).run s es = some s') :
    (Unmade s' ∧ RefCounted s') ∧
      es.countP Event.own + s'.work ≤ s.work + tally Event.price es := by
  rw [← System.cost_eq_tally hr]
  exact System.countP_le_of_cost (I := fun s => Unmade s ∧ RefCounted s) State.work
    (fun _ => Event.price) Event.own
    (fun _ _ _ hI hstep =>
      have hs := step_cases hstep
      ⟨⟨unmade_step hI.1 hI.2 hs, refCounted_step hI.2 hs⟩, work_step hI.1 hI.2 hs⟩) ⟨h, hrc⟩ hr

end RIOServer

end DdingGameServer
