import DdingGameServer.Common.History
import DdingGameServer.RIOServer.SendPath
/-!
# RIOServer — one send and one receive at a time

`ioMode` keeps the senders of a session apart: from the compare-exchange of `SendPost` to the
exchange of `SendIOCompleted` the word has one owner, a thread on its way to `RIOSend`, the request
at the kernel, or its completion. A failed post, an empty stream and a completion without bytes lose
the word, which leaves no owner at all. Receives need no word, as a `RecvPost` is only reached from
`MakeNewSession` and from the completion of the receive before it.

The memory behind `sendBuffer` is a history: whatever the copies of `MakeSendStream` put into it, it
is what it was when `RIOSend` was called until the completion is handled.
-/

namespace DdingGameServer

namespace RIOServer

variable {cfg : NetConfig} {s s' : State} {e : Event} {sid : SessionId} {op : Op} {ok : Bool}
  {replies : List NetBuffer} {sh : Shared} {se : RIOSession} {res : IoPostError} {o : Outcome}

/-! ## Owners -/

/-- The context of a receive request. -/
def IOContext.isRecv (c : IOContext) : Bool := c.ioType = .opRecv

/-- Is inside `MakeSendStream`. -/
def Op.streams : Op → Bool
  | .makeSendStream | .streamLoop _ _ _ _ => true
  | _ => false

/-- Has the completion of a send in hand and has not reset `ioMode` yet. -/
def Op.answers : Op → Bool
  | .getIOCompletedContext c _ => c.isSend
  | .sendIOCompleted => true
  | _ => false

/-- Owns `IO_SENDING`. -/
def Op.owns : Op → Bool
  | .sendPostCheck | .sendPostReset | .makeSendStream | .streamLoop _ _ _ _ | .countSend _ _
  | .rioSend _ _ | .sendIOCompleted => true
  | .getIOCompletedContext c _ => c.isSend
  | _ => false

/-- Leads to the one `RecvPost` of a session. -/
def Op.receives : Op → Bool
  | .emplaceSession | .rioReceive | .recvCompleted _ => true
  | .getIOCompletedContext c _ => c.isRecv
  | _ => false

instance : Op.Apart Op.streams := ⟨rfl, fun _ => rfl, rfl, fun _ => rfl⟩
instance : Op.Apart Op.answers := ⟨rfl, fun _ => rfl, rfl, fun _ => rfl⟩
instance : Op.Apart Op.owns := ⟨rfl, fun _ => rfl, rfl, fun _ => rfl⟩
instance : Op.Apart Op.receives := ⟨rfl, fun _ => rfl, rfl, fun _ => rfl⟩

instance : Op.Follows IOContext.isSend Op.answers := ⟨fun _ _ => rfl⟩
instance : Op.Follows IOContext.isSend Op.owns := ⟨fun _ _ => rfl⟩
instance : Op.Follows IOContext.isRecv Op.receives := ⟨fun _ _ => rfl⟩

/-- The sends of a session that `RIOSend` took and whose completion is not handled. -/
def State.unhandledSends (sid : SessionId) (s : State) : ℕ :=
  (s.session sid).outstanding IOContext.isSend + s.pending Op.answers sid

theorem IoMode.taken_le_one (m : IoMode) : m.taken ≤ 1 := by cases m <;> decide

/-- A thread in `MakeSendStream` and a thread with a completion are both owners. -/
theorem pending_streams_answers_le (s : State) (sid : SessionId) :
    s.pending Op.streams sid + s.pending Op.answers sid ≤ s.pending Op.owns sid := by
  have hop : ∀ op : Op, (if op.streams then 1 else 0) + (if op.answers then 1 else 0) ≤
      if op.owns then 1 else 0 := by
    intro op
    cases op <;> simp [Op.streams, Op.answers, Op.owns]
    rfl
  simp only [pending_eq_countP]
  induction s.codeOn sid with
  | nil => simp
  | cons op l ih =>
    have := hop op
    simp only [List.countP_cons]
    omega

/-! ## One operation -/

/-- **An owner is made where `ioMode` is taken**, and where it is given back the owner is gone. -/
theorem execOp_owns (ho : o = execOp cfg op ok replies sid sh se res) :
    o.session.outstanding IOContext.isSend + o.code.countP Op.owns + se.ioMode.taken ≤
      se.outstanding IOContext.isSend + [op].countP Op.owns + o.session.ioMode.taken := by
  have htaken := se.ioMode.taken_le_one
  subst ho
  unfold execOp
  repeat' split
  all_goals
    simp_all [Op.owns, IoMode.taken, RIOSession.outstanding, IOContext.isSend, sendPost, recvPost,
      releaseSession, enterNewSession, List.countP_append, List.countP_cons]
  all_goals omega

/-- A receive is posted in place of what led to it. -/
theorem execOp_receives (ho : o = execOp cfg op ok replies sid sh se res) :
    o.session.outstanding IOContext.isRecv + o.code.countP Op.receives ≤
      se.outstanding IOContext.isRecv + [op].countP Op.receives := by
  subst ho
  unfold execOp
  repeat' split
  all_goals
    simp_all [Op.receives, RIOSession.outstanding, IOContext.isRecv, sendPost, recvPost,
      releaseSession, enterNewSession, List.countP_append, List.countP_cons]
  all_goals omega

/-- Only `RIOSend` makes a send to be handled. -/
theorem execOp_answers (ho : o = execOp cfg op ok replies sid sh se res)
    (hop : ∀ context copied, op ≠ .rioSend context copied) :
    o.session.outstanding IOContext.isSend + o.code.countP Op.answers ≤
      se.outstanding IOContext.isSend + [op].countP Op.answers := by
  subst ho
  unfold execOp
  repeat' split
  all_goals
    simp_all [Op.answers, RIOSession.outstanding, IOContext.isSend, sendPost, recvPost,
      releaseSession, enterNewSession, List.countP_append, List.countP_cons]

/-! ## The invariant -/

/-- **`ioMode` has one owner, and one receive is on its way**, in every reachable state. -/
structure Owned (sid : SessionId) (s : State) : Prop where
  sends : (s.session sid).outstanding IOContext.isSend + s.pending Op.owns sid ≤
    (s.session sid).ioMode.taken
  receives : (s.session sid).outstanding IOContext.isRecv + s.pending Op.receives sid ≤ 1

theorem owned_step (h : Owned sid s) (hrc : RefCounted s) (hs : Step cfg s e s') :
    Owned sid s' := by
  obtain ⟨hsend, hrecv⟩ := h
  cases hs.alters sid with
  | kept hk =>
    obtain ⟨posted, completed, hse⟩ := hk.session
    have hmode : (s'.session sid).ioMode = (s.session sid).ioMode := by rw [hse]
    exact ⟨by rw [hk.followed, hmode]; exact hsend, by rw [hk.followed]; exact hrecv⟩
  | entered threadId hid hnext hlt hse hsh hp =>
    refine ⟨?_, ?_⟩
    · rw [hse, hp, hrc.pending_new hid]
      exact le_rfl
    · rw [hse, hp, hrc.pending_new hid]
      exact le_rfl
  | executed ok replies hi hsid hcode ho hse hsh hp =>
    have hos := execOp_owns ho
    have hor := execOp_receives ho
    have hps := hp Op.owns
    have hpr := hp Op.receives
    rw [← hse] at hos hor
    exact ⟨by omega, by omega⟩

theorem owned_of_reachable (h : (system cfg).Reachable s) (sid : SessionId) : Owned sid s := by
  refine (reachable_of_step (P := fun s => RefCounted s ∧ Owned sid s)
    (fun n senders => ⟨refCounted_initial n senders, ?_, ?_⟩)
    (fun s e s' hP _ hs => ⟨refCounted_step hP.1 hs, owned_step hP.2 hP.1 hs⟩) h).2
  · rw [pending_initial]
    exact le_rfl
  · rw [pending_initial]
    exact Nat.zero_le _

/-- A send is not handed over twice, and nobody writes a stream over it. -/
theorem Owned.apart (h : Owned sid s) :
    s.unhandledSends sid + s.pending Op.streams sid ≤ 1 := by
  have hsend := h.sends
  have htaken := (s.session sid).ioMode.taken_le_one
  have hle := pending_streams_answers_le s sid
  rw [State.unhandledSends]
  omega

/-! ## The bytes the kernel reads -/

section Memory

variable {M : Type} {copy : Op → RIOSession → M → M}

/-- The memory behind the `sendBuffer` of the sessions: what is in it, and what was in it when
`RIOSend` was last called. -/
structure SendMemory (M : Type) where
  sendBuffer : SessionId → M
  handed : SessionId → M

/-- What an operation on the session `sid` does to it. `MakeSendStream` alone writes into
`rioSendBuffer`; `copy` is what its copies do to the memory, whatever they do. -/
def SendMemory.exec (copy : Op → RIOSession → M → M) (m : SendMemory M) (sid : SessionId) (op : Op)
    (se : RIOSession) : SendMemory M :=
  if op.streams then
    { m with sendBuffer := Function.update m.sendBuffer sid (copy op se (m.sendBuffer sid)) }
  else
    match op with
    | .rioSend _ _ => { m with handed := Function.update m.handed sid (m.sendBuffer sid) }
    | _ => m

/-- **How a step changes it.** -/
def SendMemory.record (copy : Op → RIOSession → M → M) (m : SendMemory M) (s : State) (e : Event) :
    SendMemory M :=
  match s.executing e with
  | some (t, op, _) => m.exec copy t.session op (s.session t.session)
  | none => m

/-- **One send and one receive of `sid` at a time.** -/
structure SendExclusive (sid : SessionId) (s : State) (m : SendMemory M) : Prop where
  sends : s.unhandledSends sid ≤ 1
  receives : (s.session sid).outstanding IOContext.isRecv ≤ 1
  streams : s.pending Op.streams sid ≤ 1
  /-- `MakeSendStream` runs while no send of the session is with the kernel. -/
  apart : 0 < s.unhandledSends sid → s.pending Op.streams sid = 0
  /-- So the bytes handed over stay what they were. -/
  bytes : 0 < s.unhandledSends sid → m.sendBuffer sid = m.handed sid

variable {m : SendMemory M}

/-- Only `RIOSend` makes a send of the session to be handled. -/
theorem Step.unhandledSends_le (hs : Step cfg s e s') (hrc : RefCounted s)
    (hsend : ∀ t context copied rest, s.executing e = some (t, .rioSend context copied, rest) →
      t.session ≠ sid) : s'.unhandledSends sid ≤ s.unhandledSends sid := by
  simp only [State.unhandledSends]
  cases hs.alters sid with
  | kept hk => exact (hk.followed _ _).le
  | entered threadId hid hnext hlt hse hsh hp =>
    rw [hse, hp, hrc.pending_new hid]
    exact Nat.zero_le _
  | @executed s' i t op rest o ok replies hi hsid hcode ho hse hsh hp =>
    have hop : ∀ context copied, op ≠ .rioSend context copied := by
      rintro context copied rfl
      exact hsend _ _ _ _ (executing_eq hi hcode) hsid
    have hoa := execOp_answers ho hop
    have hpa := hp Op.answers
    rw [← hse] at hoa
    omega

/-- An operation on another session changes nothing. -/
theorem exec_of_ne (copy : Op → RIOSession → M → M) {sid' : SessionId} (h : sid' ≠ sid)
    (m : SendMemory M) (op : Op) (se : RIOSession) :
    (m.exec copy sid' op se).sendBuffer sid = m.sendBuffer sid ∧
      (m.exec copy sid' op se).handed sid = m.handed sid := by
  unfold SendMemory.exec
  split
  · exact ⟨Function.update_of_ne (Ne.symm h) _ _, rfl⟩
  · split
    · exact ⟨rfl, Function.update_of_ne (Ne.symm h) _ _⟩
    · exact ⟨rfl, rfl⟩

/-- Outside `MakeSendStream` what is in the memory goes on being what was handed over. -/
theorem exec_bytes (hop : op.streams = false)
    (h : (∀ context copied, op ≠ .rioSend context copied) → m.sendBuffer sid = m.handed sid) :
    (m.exec copy sid op se).sendBuffer sid = (m.exec copy sid op se).handed sid := by
  unfold SendMemory.exec
  simp only [hop, Bool.false_eq_true, if_false]
  split
  · simp only [Function.update_self]
  · rename_i hne
    exact h fun context copied heq => hne context copied heq

/-- **The bytes handed over are kept**, as no stream is written while they are with the kernel. -/
theorem bytes_step (hrc : RefCounted s) (how : Owned sid s)
    (h : 0 < s.unhandledSends sid → m.sendBuffer sid = m.handed sid) (hs : Step cfg s e s')
    (hpos : 0 < s'.unhandledSends sid) :
    (m.record copy s e).sendBuffer sid = (m.record copy s e).handed sid := by
  have hold : (∀ t context copied rest, s.executing e = some (t, .rioSend context copied, rest) →
      t.session ≠ sid) → m.sendBuffer sid = m.handed sid :=
    fun hne => h (hpos.trans_le (hs.unhandledSends_le hrc hne))
  unfold SendMemory.record
  rcases hx : s.executing e with _ | ⟨t, op, rest⟩
  · exact hold fun t context copied rest hx' => by rw [hx] at hx'; cases hx'
  obtain ⟨i, ok, replies, rfl, hi, hcode⟩ := executing_eq_some hx
  by_cases hsid : t.session = sid
  · subst hsid
    have hst : op.streams = false := by
      -- a thread in `MakeSendStream` leaves no send to be handled
      by_contra hst
      have hone : 0 < s.pending Op.streams t.session :=
        pending_pos_of_next hi rfl hcode (by simpa using hst)
      have hle : s'.unhandledSends t.session ≤ s.unhandledSends t.session := by
        refine hs.unhandledSends_le hrc fun t' context copied rest' hx' => ?_
        rw [hx] at hx'
        cases hx'
        exact absurd rfl hst
      have := how.apart
      omega
    refine exec_bytes hst fun hne => hold fun t' context copied rest' hx' => ?_
    rw [hx] at hx'
    cases hx'
    exact absurd rfl (hne context copied)
  · obtain ⟨hb, hh⟩ := exec_of_ne copy hsid m op (s.session t.session)
    simp only [hb, hh]
    refine hold fun t' context copied rest' hx' => ?_
    rw [hx] at hx'
    cases hx'
    exact hsid

/-- **One send and one receive at a time**, in every reachable state and whatever was in the memory
at the start. -/
theorem sendExclusive_of_reachable {start : SendMemory M}
    (h : ((system cfg).recorded start (SendMemory.record copy)).Reachable (s, m))
    (sid : SessionId) : SendExclusive sid s m := by
  have how : Owned sid s := owned_of_reachable h.of_recorded sid
  have hapart := how.apart
  refine ⟨by omega, by have := how.receives; omega, by omega, by omega, ?_⟩
  refine System.ReachableUnder.recorded_invariant
    (P := fun s m => 0 < s.unhandledSends sid → m.sendBuffer sid = m.handed sid)
    ?_ (fun s m e s' hr hP _ hs => ?_) h
  · rintro s ⟨n, senders, rfl⟩ hpos
    rw [State.unhandledSends, pending_initial] at hpos
    exact absurd hpos (lt_irrefl 0)
  · exact bytes_step (refCounted_of_reachableUnder hr) (owned_of_reachable hr sid) hP
      (step_cases hs)

/-- Two packets are enqueued while the send of a first one is with the kernel. -/
theorem sendExclusive_inFlight : ∃ s, ∃ m : SendMemory (List NetBuffer),
    s.unhandledSends 2 = 1 ∧ SendExclusive 2 s m := by
  obtain ⟨⟨s, m⟩, hreach, hs⟩ := System.exists_reachable
    ((system checksumConfig).recorded (⟨fun _ => [], fun _ => []⟩ : SendMemory (List NetBuffer))
      (SendMemory.record fun _ se m => m ++ se.sendQueue.take 1))
    (.accept 0 0 [] true :: execs 0 7 ++ [.getSession 2 2, .sendPacket 2 [1, 2]] ++ execs 2 9 ++
      [.sendPacket 2 [3]] ++ execs 2 2 ++ [.sendPacket 2 [4]] ++ execs 2 2)
    (s := (initialState 1 1, ⟨fun _ => [], fun _ => []⟩))
    (f := fun x => x.1.unhandledSends 2 = 1 ∧ (x.1.session 2).sendQueue = [[3], [4]])
    ⟨⟨1, 1, rfl⟩, rfl⟩ (by decide +kernel)
  exact ⟨s, m, (of_decide_eq_true hs).1, sendExclusive_of_reachable hreach 2⟩

end Memory

end RIOServer

end DdingGameServer
