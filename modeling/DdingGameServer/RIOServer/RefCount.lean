import DdingGameServer.RIOServer.Steps
/-!
# RIOServer — the reference count

`ioCount` counts the outstanding requests of a session and the references its threads hold. Which
operations hold one is a matter of class: an operation `keeps` one that it will give back or hand to
the kernel, `waits` on a completion whose reference it has taken over, or is the late increment
after a `RIOReceive` that the kernel may already have answered (`uncounted`). `RefCounted.law` is
the balance between them in every reachable state. The other side of it is `Guarded`: whatever
still leads to a `RIOReceive` of a thread is followed, in that thread, by a reference given back.
-/

namespace DdingGameServer

namespace RIOServer

variable {cfg : NetConfig} {s s' : State} {e : Event} {sid : SessionId} {p : Op → Bool}
  {op : Op} {rest : List Op} {ok : Bool} {replies : List NetBuffer} {sh : Shared}
  {se : RIOSession} {res : IoPostError}

/-! ## Classes of operations -/

/-- A reference given back by `IOCountDecrement`, now or at the end of the completion. -/
def Op.anchors : Op → Bool
  | .ioCountDecrement | .workerTail _ => true
  | _ => false

/-- Holds a reference the count knows of. -/
def Op.keeps : Op → Bool
  | .ioCountDecrement | .workerTail _ | .rioSend _ _ | .emplaceSession => true
  | _ => false

/-- Holds the reference of a completion taken from the queue. -/
def Op.waits : Op → Bool
  | .getIOCompletedContext _ _ | .invalidIOCompleted _ => true
  | _ => false

/-- The increment of `RecvPost`, made after the kernel took the request. -/
def Op.uncounted : Op → Bool
  | .countRecv => true
  | _ => false

/-- Leads to a `RIOReceive`, or counts one. -/
def Op.posts : Op → Bool
  | .rioReceive | .countRecv | .recvCompleted _ => true
  | _ => false

/-- Leads to the decision of `RecvCompleted` to release. -/
def Op.handles : Op → Bool
  | .recvCompleted _ | .releaseOnError _ => true
  | _ => false

/-- Puts the session into `sessionMap`. -/
def Op.emplaces : Op → Bool
  | .emplaceSession => true
  | _ => false

/-- May still lead to a request of the session being posted, once the count of a session cannot be
raised any more. -/
def Op.stirs : Op → Bool
  | .getIOCompletedContext _ _ | .invalidIOCompleted _ | .recvCompleted _ | .rioReceive
  | .rioSend _ _ | .emplaceSession => true
  | _ => false

/-- The body of `ReleaseSession`. -/
def Op.releasing : Op → Bool
  | .closeSocket | .decWorkerCount | .decSessionCount | .eraseSession | .onSessionReleased => true
  | _ => false

/-- The first operation of that body. -/
def Op.begins : Op → Bool
  | .closeSocket => true
  | _ => false

/-- The one that takes the session out of `sessionMap`. -/
def Op.erases : Op → Bool
  | .eraseSession => true
  | _ => false

/-- A class of operations that the callers of the server never push: none of its members is a
packet handler, an enqueue or the entry of `SendPost`. -/
class Op.Apart (p : Op → Bool) : Prop where
  setSendDisconnect : p .setSendDisconnect = false
  enqueue : ∀ packet, p (.enqueue packet) = false
  sendPostCas : p .sendPostCas = false
  onRecvPacket : ∀ packet, p (.onRecvPacket packet) = false

instance : Op.Apart Op.anchors := ⟨rfl, fun _ => rfl, rfl, fun _ => rfl⟩
instance : Op.Apart Op.keeps := ⟨rfl, fun _ => rfl, rfl, fun _ => rfl⟩
instance : Op.Apart Op.waits := ⟨rfl, fun _ => rfl, rfl, fun _ => rfl⟩
instance : Op.Apart Op.uncounted := ⟨rfl, fun _ => rfl, rfl, fun _ => rfl⟩
instance : Op.Apart Op.posts := ⟨rfl, fun _ => rfl, rfl, fun _ => rfl⟩
instance : Op.Apart Op.handles := ⟨rfl, fun _ => rfl, rfl, fun _ => rfl⟩
instance : Op.Apart Op.emplaces := ⟨rfl, fun _ => rfl, rfl, fun _ => rfl⟩
instance : Op.Apart Op.stirs := ⟨rfl, fun _ => rfl, rfl, fun _ => rfl⟩
instance : Op.Apart Op.releasing := ⟨rfl, fun _ => rfl, rfl, fun _ => rfl⟩
instance : Op.Apart Op.begins := ⟨rfl, fun _ => rfl, rfl, fun _ => rfl⟩
instance : Op.Apart Op.erases := ⟨rfl, fun _ => rfl, rfl, fun _ => rfl⟩

/-- Such a class follows the requests in `q` if a completion taken from its queue makes an operation
of the class exactly where its request was in `q`. -/
class Op.Follows (q : IOContext → Bool) (p : Op → Bool) [Op.Apart p] : Prop where
  follows : ∀ c data, p (.getIOCompletedContext c data) = q c

instance : Op.Follows (fun _ => true) Op.waits := ⟨fun _ _ => rfl⟩
instance : Op.Follows (fun _ => true) Op.stirs := ⟨fun _ _ => rfl⟩
instance : Op.Follows (fun _ => false) Op.keeps := ⟨fun _ _ => rfl⟩
instance : Op.Follows (fun _ => false) Op.uncounted := ⟨fun _ _ => rfl⟩
instance : Op.Follows (fun _ => false) Op.handles := ⟨fun _ _ => rfl⟩
instance : Op.Follows (fun _ => false) Op.emplaces := ⟨fun _ _ => rfl⟩
instance : Op.Follows (fun _ => false) Op.releasing := ⟨fun _ _ => rfl⟩
instance : Op.Follows (fun _ => false) Op.begins := ⟨fun _ _ => rfl⟩
instance : Op.Follows (fun _ => false) Op.erases := ⟨fun _ _ => rfl⟩

@[simp] theorem countP_sendPacket [Op.Apart p] {packet : NetBuffer} :
    (sendPacket packet).countP p = 0 := by
  simp [sendPacket, sendPost, Op.Apart.enqueue, Op.Apart.sendPostCas]

@[simp] theorem countP_replies [Op.Apart p] : (replies.flatMap sendPacket).countP p = 0 := by
  induction replies with
  | nil => rfl
  | cons packet replies ih => simp [List.flatMap_cons, List.countP_append, ih]

@[simp] theorem countP_onRecvPacket [Op.Apart p] {packets : List (List UInt8)} :
    packets.countP (p ∘ Op.onRecvPacket) = 0 := by
  simp [List.countP_eq_zero, Op.Apart.onRecvPacket]

/-- A call pushes nothing of such a class. -/
theorem Calls.countP_eq_zero [Op.Apart p] {i : ℕ} {code : List Op} (h : Calls i e code) :
    code.countP p = 0 := by
  cases h with
  | sendPacket packet => simp
  | sendPacketAndDisconnect packet => simp [Op.Apart.setSendDisconnect]

/-- So it leaves what is pending of it as it was. -/
theorem Calls.pending_eq [Op.Apart p] {i : ℕ} {code : List Op} (h : Calls i e code)
    (hp : ∀ p, s'.pending p sid = s.pending p sid + code.countP p) :
    s'.pending p sid = s.pending p sid := by
  rw [hp, h.countP_eq_zero, Nat.add_zero]

/-! ## Steps that execute nothing on a session -/

/-- **What such a step leaves of the session**: its data but for the two lists of its requests, its
place in `sessionMap`, and what is outstanding and pending together of a class and the requests it
follows. -/
structure Kept (sid : SessionId) (s s' : State) : Prop where
  session : ∃ posted completed,
    s'.session sid = { s.session sid with posted := posted, completed := completed }
  mem : sid ∈ s'.shared.sessionMap ↔ sid ∈ s.shared.sessionMap
  outstanding_le : ∀ q, (s'.session sid).outstanding q ≤ (s.session sid).outstanding q
  pending_le : ∀ p, s.pending p sid ≤ s'.pending p sid
  followed : ∀ (q : IOContext → Bool) (p : Op → Bool) [Op.Apart p] [Op.Follows q p],
    (s'.session sid).outstanding q + s'.pending p sid =
      (s.session sid).outstanding q + s.pending p sid
  /-- What is pending changes only where an idle worker of the session takes a completion. -/
  taken : (∀ (p : Op → Bool) [Op.Apart p], s'.pending p sid = s.pending p sid) ∨
    ∃ t ∈ s.threads, t.code = [] ∧ t.role = .worker (s.session sid).threadId

/-- A class that follows no request stays as it was. -/
theorem Kept.pending (h : Kept sid s s') (p : Op → Bool) [Op.Apart p]
    [Op.Follows (fun _ => false) p] : s'.pending p sid = s.pending p sid := by
  have hf := h.followed (fun _ => false) p
  simpa [RIOSession.outstanding] using hf

/-- **One step and one session, as far as counts go**: the step leaves it, makes it, or executes an
operation on it. -/
inductive Alters (cfg : NetConfig) (sid : SessionId) (s : State) : Event → State → Prop
  | kept {e : Event} {s' : State} : Kept sid s s' → Alters cfg sid s e s'
  | entered {e : Event} {s' : State} {ring : List UInt8} (threadId : ℕ) :
      sid = s.newSessionId → s'.nextSessionId = sid →
      threadId < s.shared.numOfSessionInWorkerThread.length →
      s'.session sid = initSession threadId ring → s'.shared = s.shared →
      (∀ p, s'.pending p sid = s.pending p sid + makeNewSession.countP p) → Alters cfg sid s e s'
  | executed {s' : State} {i : ℕ} {t : Thread} {op : Op} {rest : List Op} {o : Outcome} (ok : Bool)
      (replies : List NetBuffer) :
      s.threads[i]? = some t → t.session = sid → t.code = op :: rest →
      o = execOp cfg op ok replies sid s.shared (s.session sid) t.result →
      s'.session sid = o.session → s'.shared = o.shared →
      (∀ p, s'.pending p sid + [op].countP p = s.pending p sid + o.code.countP p) →
      Alters cfg sid s (.exec i ok replies) s'

/-- **Every step does one of the three.** -/
theorem Step.alters (h : Step cfg s e s') (sid : SessionId) : Alters cfg sid s e s' := by
  cases h.moves sid with
  | unmoved hse hmem hp =>
    exact .kept ⟨⟨_, _, hse⟩, hmem, fun q => by rw [hse], fun p => (hp p).ge,
      fun q p _ _ => by rw [hse, hp], .inl fun p _ => hp p⟩
  | entered threadId hid hnext hlt hse hsh hp => exact .entered threadId hid hnext hlt hse hsh hp
  | called _ _ hc hse hsh hp =>
    exact .kept ⟨⟨_, _, hse⟩, by rw [hsh], fun q => by rw [hse],
      fun p => (Nat.le_add_right _ _).trans (hp p).ge, fun q p _ _ => by rw [hse, hc.pending_eq hp],
      .inl fun p _ => hc.pending_eq hp⟩
  | completed data hc hse hsh hp =>
    exact .kept ⟨⟨_, _, hse⟩, by rw [hsh], fun q => by rw [hse, outstanding_complete hc],
      fun p => (hp p).ge, fun q p _ _ => by rw [hse, outstanding_complete hc, hp],
      .inl fun p _ => hp p⟩
  | @dequeued s' i k t c hi hcode hrole hc hse hsh hp =>
    have hout := fun q => outstanding_dequeue (q := q) hc
    simp only [← hse] at hout
    refine .kept ⟨⟨_, _, hse⟩, by rw [hsh], fun q => (Nat.le_add_right _ _).trans (hout q).le,
      fun p => (Nat.le_add_right _ _).trans (hp p).ge, fun q p _ hf => ?_,
      .inr ⟨t, List.mem_of_getElem? hi, hcode, hrole⟩⟩
    -- the completion is pending where it was outstanding
    have hpass : [.getIOCompletedContext c.1 c.2].countP p = [c.1].countP q := by
      rw [List.countP_singleton, List.countP_singleton, hf.follows]
    rw [hp, hpass, ← hout q]
    omega
  | executed ok replies hi hsid hcode ho hse hsh hp =>
    exact .executed ok replies hi hsid hcode ho hse hsh hp

/-! ## One operation -/

/-- **No operation lets the count fall behind.** What an operation adds to the outstanding requests
and to the references held, it adds to `ioCount` or owes as a late increment. -/
theorem execOp_balance {o : Outcome} (ho : o = execOp cfg op ok replies sid sh se res) :
    (o.session.outstanding (fun _ => true) : ℤ) + o.code.countP Op.waits +
        o.code.countP Op.keeps + se.ioCount + [op].countP Op.uncounted ≤
      o.session.ioCount + o.code.countP Op.uncounted + se.outstanding (fun _ => true) +
        [op].countP Op.waits + [op].countP Op.keeps := by
  subst ho
  unfold execOp
  repeat' split
  all_goals
    simp [Op.keeps, Op.waits, Op.uncounted, RIOSession.outstanding, sendPost, recvPost,
      releaseSession, enterNewSession, List.countP_append, List.countP_cons]
  all_goals omega

/-- An `emplace` is never pushed. -/
theorem execOp_emplaces :
    (execOp cfg op ok replies sid sh se res).code.countP Op.emplaces = 0 := by
  unfold execOp
  repeat' split
  all_goals
    simp [Op.emplaces, sendPost, recvPost, releaseSession, enterNewSession, List.countP_append]

/-- Whether an operation calls `ReleaseSession`. -/
def startsRelease (op : Op) (sid : SessionId) (sh : Shared) (se : RIOSession) : Bool :=
  match op with
  | .ioCountDecrement => se.ioCount = 1
  | .releaseOnError packetError => packetError
  | .emplaceSession => sid ∈ sh.sessionMap
  | _ => false

/-- A class met once in the body of `ReleaseSession` and nowhere else. -/
class Op.OncePerRelease (p : Op → Bool) : Prop where
  apart : Op.Apart p
  once : releaseSession.countP p = 1
  nowhereElse : ∀ op, op.releasing = false → p op = false

instance : Op.OncePerRelease Op.begins :=
  ⟨inferInstance, rfl, fun op h => by cases op <;> simp_all [Op.releasing, Op.begins]⟩
instance : Op.OncePerRelease Op.erases :=
  ⟨inferInstance, rfl, fun op h => by cases op <;> simp_all [Op.releasing, Op.erases]⟩

/-- Only `ReleaseSession` pushes its own operations. -/
theorem execOp_releasing {o : Outcome} (ho : o = execOp cfg op ok replies sid sh se res)
    (h : startsRelease op sid sh se = false) :
    o.code.countP Op.releasing = 0 := by
  subst ho
  unfold execOp
  repeat' split
  all_goals
    simp_all [startsRelease, Op.releasing, sendPost, recvPost, enterNewSession, List.countP_append]
  omega

/-- **An operation pushes the body of `ReleaseSession` once, where it calls it.** -/
theorem execOp_oncePerRelease {o : Outcome} (ho : o = execOp cfg op ok replies sid sh se res)
    (p : Op → Bool) [hp : Op.OncePerRelease p] :
    o.code.countP p = if startsRelease op sid sh se then 1 else 0 := by
  have honce := hp.once
  have hdec : p .ioCountDecrement = false := hp.nowhereElse _ rfl
  have hleave : p .onSessionLeaved = false := hp.nowhereElse _ rfl
  split
  · rename_i h
    subst ho
    cases op with
    | ioCountDecrement =>
      have hc : se.ioCount - 1 = 0 := by simpa [startsRelease, sub_eq_zero] using h
      simp [execOp, hc, hleave, honce]
    | releaseOnError packetError =>
      obtain rfl : packetError = true := h
      exact honce
    | emplaceSession =>
      have hm : sid ∈ sh.sessionMap := by simpa [startsRelease] using h
      simp [execOp, hm, hdec, honce]
    | _ => cases h
  · rename_i h
    have hrel := execOp_releasing ho (by simpa using h)
    rw [List.countP_eq_zero] at hrel ⊢
    intro op' hop'
    simp [hp.nowhereElse op' (by simpa using hrel op' hop')]

/-! ## What leads to a receive is followed by a reference -/

/-- An operation that an anchor has to follow. -/
def Op.anchored (op : Op) : Bool := op.posts || op.handles

instance : Op.Apart Op.anchored := ⟨rfl, fun _ => rfl, rfl, fun _ => rfl⟩

/-- An operation that pushes such ones. -/
def Op.raises : Op → Bool
  | .emplaceSession | .rioReceive | .getIOCompletedContext _ _ | .recvCompleted _ => true
  | _ => false

/-- **Every anchored operation is followed by more anchors than posts.** -/
def Guarded : List Op → Prop
  | [] => True
  | op :: rest =>
    (op.anchored = true → rest.countP Op.posts < rest.countP Op.anchors) ∧ Guarded rest

/-- Operations that are not anchored change nothing. -/
theorem guarded_append {l : List Op} (hl : l.countP Op.anchored = 0) (h : Guarded rest) :
    Guarded (l ++ rest) := by
  induction l with
  | nil => exact h
  | cons op l ih =>
    rw [List.countP_cons] at hl
    refine ⟨fun ha => ?_, ih (by omega)⟩
    simp [ha] at hl

/-- So a thread owes at least as many references as posts. -/
theorem Guarded.posts_le {l : List Op} (h : Guarded l) :
    l.countP Op.posts ≤ l.countP Op.anchors := by
  induction l with
  | nil => simp
  | cons op l ih =>
    have hl := ih h.2
    simp only [List.countP_cons]
    cases hp : op.posts with
    | false => simp; omega
    | true =>
      have := h.1 (by simp [Op.anchored, hp])
      simp; omega

/-- And one at least where it handles a receive. -/
theorem Guarded.anchors_pos {l : List Op} (h : Guarded l) (hl : 0 < l.countP Op.handles) :
    0 < l.countP Op.anchors := by
  induction l with
  | nil => simp at hl
  | cons op l ih =>
    rw [List.countP_cons] at hl ⊢
    cases hh : op.handles with
    | false => have := ih h.2 (by simpa [hh] using hl); omega
    | true => have := h.1 (by simp [Op.anchored, hh]); omega

theorem execOp_anchored (h : op.raises = false) :
    (execOp cfg op ok replies sid sh se res).code.countP Op.anchored = 0 := by
  unfold execOp
  repeat' split
  all_goals
    simp_all [Op.raises, Op.anchored, Op.posts, Op.handles, sendPost, releaseSession]

/-- **Executing an operation keeps a thread guarded.** -/
theorem Guarded.exec (h : Guarded (op :: rest)) :
    Guarded ((execOp cfg op ok replies sid sh se res).code ++ rest) := by
  have hle := h.2.posts_le
  by_cases hr : op.raises = false
  · exact guarded_append (execOp_anchored hr) h.2
  · cases op with
    | emplaceSession =>
      simp only [execOp]
      split
      · exact guarded_append (l := .ioCountDecrement :: releaseSession) rfl h.2
      · -- the receive of `MakeNewSession` is followed by the accepter's own decrement
        refine ⟨fun _ => ?_, guarded_append (l := [_, _, _]) rfl h.2⟩
        simp [Op.posts, Op.anchors, List.countP_cons]
        omega
    | rioReceive =>
      have hlt := h.1 rfl
      cases ok with
      | true => exact ⟨fun _ => hlt, h.2⟩
      | false => exact h.2
    | getIOCompletedContext c data =>
      simp only [execOp]
      split
      · split
        · exact guarded_append (by simp [Op.anchored, Op.posts, Op.handles]) h.2
        · split
          · refine ⟨fun _ => ?_, guarded_append (l := [_]) rfl h.2⟩
            simp [Op.posts, Op.anchors, List.countP_cons]
            omega
          all_goals exact guarded_append (by simp [Op.anchored, Op.posts, Op.handles]) h.2
      · exact h.2
    | recvCompleted data =>
      have hlt := h.1 rfl
      simp only [execOp, List.append_assoc]
      refine guarded_append (by simp) ⟨fun _ => ?_, fun _ => hlt, h.2⟩
      simpa [Op.posts, Op.anchors, List.countP_cons] using hlt
    | _ => exact absurd rfl hr

/-! ## The invariant -/

/-- A session that no step has touched yet. -/
structure Untouched (sid : SessionId) (s : State) : Prop where
  outstanding : ∀ q, (s.session sid).outstanding q = 0
  releases : (s.session sid).releases = 0
  notMem : sid ∉ s.shared.sessionMap

/-- **What the reference count keeps in every reachable state.** -/
structure RefCounted (s : State) : Prop where
  /-- Outstanding requests and references held are counted, but for the increments still owed. -/
  law : ∀ sid, ((s.session sid).outstanding (fun _ => true) : ℤ) + s.pending Op.waits sid +
    s.pending Op.keeps sid ≤ (s.session sid).ioCount + s.pending Op.uncounted sid
  guarded : ∀ t ∈ s.threads, Guarded t.code
  /-- No thread works on a session whose id has not been drawn. -/
  drawn : ∀ t ∈ s.threads, t.session ≤ s.nextSessionId
  untouched : ∀ sid, s.nextSessionId < sid → Untouched sid s
  /-- A session is put into `sessionMap` once. -/
  once : ∀ sid, sid ∈ s.shared.sessionMap → s.pending Op.emplaces sid = 0
  emplaceOnce : ∀ sid, s.pending Op.emplaces sid ≤ 1

/-- Nothing is pending on a session whose id has not been drawn. -/
theorem RefCounted.pending_eq_zero (h : RefCounted s) (hsid : s.nextSessionId < sid) :
    s.pending p sid = 0 := by
  refine tally_eq_zero.mpr fun t ht => Thread.owes_of_ne fun heq => ?_
  exact absurd (h.drawn t ht) (Nat.not_le.mpr (heq ▸ hsid))

/-- So nothing is pending on a session that is about to be made. -/
theorem RefCounted.pending_new (h : RefCounted s) (hid : sid = s.newSessionId) :
    s.pending p sid = 0 :=
  h.pending_eq_zero (hid ▸ lt_newSessionId)

/-- The posts pending on a session are covered by its anchors. -/
theorem RefCounted.posts_le (h : RefCounted s) (sid : SessionId) :
    s.pending Op.posts sid ≤ s.pending Op.anchors sid := by
  refine tally_le_tally fun t ht => ?_
  simp only [Thread.owes]
  split
  · exact (h.guarded t ht).posts_le
  · exact le_rfl

/-- With one to spare where a thread is about to decide on a release. -/
theorem RefCounted.posts_lt (h : RefCounted s) {i : ℕ} {t : Thread} {packetError : Bool}
    (hi : s.threads[i]? = some t) (hcode : t.code = .releaseOnError packetError :: rest) :
    s.pending Op.posts t.session < s.pending Op.anchors t.session := by
  refine tally_add_le_tally (n := 1) (fun u hu => ?_) hi ?_
  · simp only [Thread.owes]
    split
    · exact (h.guarded u hu).posts_le
    · exact le_rfl
  · have hg := h.guarded t (List.mem_of_getElem? hi)
    rw [hcode] at hg
    have := hg.1 rfl
    rw [Thread.owes_self, Thread.owes_self, hcode]
    simpa [List.countP_cons, Op.posts, Op.anchors, Nat.succ_le_iff] using this

/-- The classes overlap as the operations say. -/
theorem countP_stirs (l : List Op) :
    l.countP Op.stirs + l.countP Op.uncounted + l.countP Op.anchors =
      l.countP Op.waits + l.countP Op.posts + l.countP Op.keeps := by
  induction l with
  | nil => rfl
  | cons op l ih =>
    simp only [List.countP_cons]
    cases op <;> simp [Op.stirs, Op.uncounted, Op.anchors, Op.waits, Op.posts, Op.keeps] <;> omega

theorem pending_stirs (s : State) (sid : SessionId) :
    s.pending Op.stirs sid + s.pending Op.uncounted sid + s.pending Op.anchors sid =
      s.pending Op.waits sid + s.pending Op.posts sid + s.pending Op.keeps sid := by
  simp only [pending_eq_countP]
  exact countP_stirs (s.codeOn sid)

/-- **A session nobody refers to is quiet.** Where the count is used up by the anchors that no post
accounts for, no request of the session is outstanding, and none can be posted by what its threads
still have to do. -/
theorem RefCounted.quiet (h : RefCounted s) (sid : SessionId)
    (hle : (s.session sid).ioCount + s.pending Op.posts sid ≤ s.pending Op.anchors sid) :
    (s.session sid).outstanding (fun _ => true) = 0 ∧ s.pending Op.stirs sid = 0 := by
  have hlaw := h.law sid
  have hst := pending_stirs s sid
  omega

/-! ## The invariant is kept -/

theorem idle_initial {numOfWorkerThread senders : ℕ} {t : Thread}
    (ht : t ∈ (initialState numOfWorkerThread senders).threads) : t.code = [] ∧ t.session = 0 := by
  simp only [initialState, List.cons_append, List.mem_cons, List.mem_append, List.mem_map,
    List.mem_replicate] at ht
  rcases ht with rfl | ⟨k, -, rfl⟩ | ⟨-, rfl⟩ <;> exact ⟨rfl, rfl⟩

theorem pending_initial {numOfWorkerThread senders : ℕ} (p : Op → Bool) (sid : SessionId) :
    (initialState numOfWorkerThread senders).pending p sid = 0 :=
  tally_eq_zero.mpr fun _ ht => Thread.owes_of_idle (idle_initial ht).1

theorem refCounted_initial (numOfWorkerThread senders : ℕ) :
    RefCounted (initialState numOfWorkerThread senders) := by
  refine ⟨fun sid => ?_, fun t ht => ?_, fun t ht => ?_, fun sid _ => ⟨fun _ => rfl, rfl, ?_⟩, ?_,
    fun sid => ?_⟩
  · rw [pending_initial, pending_initial, pending_initial]
    rfl
  · rw [(idle_initial ht).1]
    exact trivial
  · rw [(idle_initial ht).2]
    exact Nat.zero_le _
  · simp [initialState]
  · simp [initialState]
  · rw [pending_initial]
    exact Nat.zero_le _

theorem refCounted_step (h : RefCounted s) (hs : Step cfg s e s') : RefCounted s' where
  law sid := by
    have hlaw := h.law sid
    cases hs.alters sid with
    | kept hk =>
      obtain ⟨posted, completed, hse⟩ := hk.session
      have hcount : (s'.session sid).ioCount = (s.session sid).ioCount := by rw [hse]
      have hwaits := hk.followed (fun _ => true) Op.waits
      rw [hcount, hk.pending Op.keeps, hk.pending Op.uncounted]
      omega
    | entered threadId hid hnext hlt hse hsh hp =>
      rw [hse, hp, hp, hp, h.pending_new hid, h.pending_new hid, h.pending_new hid]
      exact le_rfl
    | executed ok replies hi hsid hcode ho hse hsh hp =>
      have hbal := execOp_balance ho
      have hw := hp Op.waits
      have hk := hp Op.keeps
      have hu := hp Op.uncounted
      rw [hse]
      omega
  guarded := by
    cases hs with
    | acceptFailed i threadId => exact h.guarded
    | accepted hi hcode hid =>
      exact forall_mem_set h.guarded (guarded_append (l := makeNewSession) rfl trivial)
    | @gotSession i t sid hi hcode hmem =>
      refine forall_mem_set h.guarded ?_
      rw [show { t with session := sid : Thread }.code = [] from hcode]
      exact trivial
    | @called i t e code hi hcode hne hcall =>
      refine forall_mem_set h.guarded ?_
      have := guarded_append (hcall.countP_eq_zero (p := Op.anchored)) (show Guarded [] from trivial)
      rwa [List.append_nil] at this
    | completed data hc => exact h.guarded
    | dequeued hi hcode hrole hc =>
      exact forall_mem_set h.guarded (guarded_append (l := [_]) rfl trivial)
    | executed ok replies hi hcode ho =>
      subst ho
      have hg := h.guarded _ (List.mem_of_getElem? hi)
      rw [hcode] at hg
      exact forall_mem_set h.guarded hg.exec
  drawn := by
    have hd := fun t ht => (h.drawn t ht).trans hs.nextSessionId_le
    cases hs with
    | acceptFailed i threadId => exact hd
    | accepted hi hcode hid => exact forall_mem_set hd le_rfl
    | gotSession hi hcode hmem =>
      refine forall_mem_set hd (Nat.not_lt.mp fun hlt => ?_)
      exact (h.untouched _ hlt).notMem hmem
    | @called i t e code hi hcode hne hcall =>
      exact forall_mem_set hd (hd t (List.mem_of_getElem? hi))
    | completed data hc => exact hd
    | dequeued hi hcode hrole hc =>
      refine forall_mem_set hd (Nat.not_lt.mp fun hlt => ?_)
      exact (outstanding_pos_of_completed hc).ne' ((h.untouched _ hlt).outstanding _)
    | @executed i t op rest o ok replies hi hcode ho =>
      exact forall_mem_set hd (hd t (List.mem_of_getElem? hi))
  untouched sid hlt := by
    have hun := h.untouched sid (Nat.lt_of_le_of_lt hs.nextSessionId_le hlt)
    cases hs.alters sid with
    | kept hk =>
      obtain ⟨posted, completed, hse⟩ := hk.session
      refine ⟨fun q => ?_, by rw [hse]; exact hun.releases, fun hm => hun.notMem (hk.mem.mp hm)⟩
      exact Nat.le_zero.mp ((hk.outstanding_le q).trans (hun.outstanding q).le)
    | entered threadId hid hnext _ hse hsh hp => exact absurd hnext.symm.le (Nat.not_le.mpr hlt)
    | executed ok replies hi hsid hcode ho hse hsh hp =>
      have hle := (h.drawn _ (List.mem_of_getElem? hi)).trans hs.nextSessionId_le
      exact absurd (hsid ▸ hle) (Nat.not_le.mpr hlt)
  once sid hmem' := by
    have honce := h.once sid
    cases hs.alters sid with
    | kept hk => rw [hk.pending]; exact honce (hk.mem.mp hmem')
    | entered threadId hid hnext _ hse hsh hp =>
      rw [hsh] at hmem'
      exact absurd hmem' (h.untouched sid (hid ▸ lt_newSessionId)).notMem
    | @executed s' i t op rest o ok replies hi hsid hcode ho hse hsh hp =>
      have hone := h.emplaceOnce sid
      have he := hp Op.emplaces
      rw [ho, execOp_emplaces] at he
      by_cases hop : op = .emplaceSession
      · subst hop
        simp only [List.countP_singleton, Op.emplaces, if_true] at he
        omega
      · have hmem : sid ∈ s.shared.sessionMap := by
          rw [hsh, ho, execOp_sessionMap, if_neg hop] at hmem'
          split at hmem'
          · exact Finset.mem_of_mem_erase hmem'
          · exact hmem'
        have := honce hmem
        omega
  emplaceOnce sid := by
    have hone := h.emplaceOnce sid
    cases hs.alters sid with
    | kept hk => rw [hk.pending]; exact hone
    | entered threadId hid hnext _ hse hsh hp =>
      rw [hp, h.pending_new hid]
      exact le_rfl
    | executed ok replies hi hsid hcode ho hse hsh hp =>
      have he := hp Op.emplaces
      rw [ho, execOp_emplaces] at he
      omega

/-- **Every reachable state is reference-counted.** -/
theorem refCounted_of_reachableUnder {C : State → Event → Prop}
    (h : (system cfg).ReachableUnder C s) : RefCounted s :=
  reachable_of_step refCounted_initial (fun _ _ _ hs _ hst => refCounted_step hs hst) h

/-! ## How far a release has begun -/

/-- How often `ReleaseSession` was called on the session: its body was entered, or is about to
be. -/
def State.begun (sid : SessionId) (s : State) : ℕ :=
  (s.session sid).releases + s.pending Op.begins sid

/-- It depends on the body's first operation only. -/
theorem begun_congr (hr : (s'.session sid).releases = (s.session sid).releases)
    (hp : s'.pending Op.begins sid = s.pending Op.begins sid) : s'.begun sid = s.begun sid := by
  rw [State.begun, hr, hp, State.begun]

theorem Kept.begun_eq (h : Kept sid s s') : s'.begun sid = s.begun sid := by
  obtain ⟨posted, completed, hse⟩ := h.session
  exact begun_congr (by rw [hse]) (h.pending _)

/-- **A call of `ReleaseSession` is the only thing that moves `begun`.** -/
theorem begun_exec {s s' : State} {o : Outcome} (ho : o = execOp cfg op ok replies sid s.shared
    (s.session sid) res) (hse : s'.session sid = o.session)
    (hp : s'.pending Op.begins sid + [op].countP Op.begins =
      s.pending Op.begins sid + o.code.countP Op.begins) :
    s'.begun sid =
      s.begun sid + if startsRelease op sid s.shared (s.session sid) then 1 else 0 := by
  rw [execOp_oncePerRelease ho] at hp
  simp only [State.begun, hse, ho, execOp_releases]
  have hop : [op].countP Op.begins = if op = .closeSocket then 1 else 0 := by
    cases op <;> rfl
  omega

/-- An `emplace` never finds its session in the map. -/
theorem RefCounted.notMem_of_emplace (h : RefCounted s) {i : ℕ} {t : Thread}
    (hi : s.threads[i]? = some t) (hcode : t.code = .emplaceSession :: rest) :
    t.session ∉ s.shared.sessionMap := by
  intro hmem
  have hpos : 0 < s.pending Op.emplaces t.session := pending_pos_of_next hi rfl hcode rfl
  exact hpos.ne' (h.once _ hmem)

end RIOServer

end DdingGameServer
