import DdingGameServer.RIOServer.Staff
/-!
# RIOServer — the I/O count of a session in the map

The reference count is an equation while its session is in `sessionMap`: `ioCount`, and the
increments `RecvPost` still owes, are the accepter's own reference, the requests whose completion
was not accepted, the sends on their way to `RIOSend` or back from a failed one, and the completions
that have not given their reference back. Outside the map it is only the inequality of
`RefCounted.law`, as `GetIOCompletedContext` then drops a completion and its reference with it.
-/

namespace DdingGameServer

namespace RIOServer

variable {cfg : NetConfig} {s s' : State} {e : Event} {sid : SessionId} {op : Op} {ok : Bool}
  {replies : List NetBuffer} {sh : Shared} {se : RIOSession} {res : IoPostError} {o : Outcome}

/-! ## What a reference is held for -/

/-- An `IOCountDecrement`. -/
def Op.decrements : Op → Bool
  | .ioCountDecrement => true
  | _ => false

/-- Gives the accepter's own reference back, or leads to it. -/
def Op.initial : Op → Bool
  | .ioCountDecrement | .emplaceSession => true
  | _ => false

/-- Is about to look at a completion taken from the queue. -/
def Op.unaccepted : Op → Bool
  | .getIOCompletedContext _ _ => true
  | _ => false

/-- Is about to call `RIOSend`, its increment made. -/
def Op.counted : Op → Bool
  | .rioSend _ _ => true
  | _ => false

/-- The end of a completion in `Worker`. -/
def Op.finishes : Op → Bool
  | .workerTail _ => true
  | _ => false

/-- Leads to the `IOCountDecrement` of an accepted completion. -/
def Op.accepted : Op → Bool
  | .workerTail _ | .invalidIOCompleted _ => true
  | _ => false

/-- Holds a reference, for whatever it is. -/
def Op.refers : Op → Bool
  | .ioCountDecrement | .emplaceSession | .getIOCompletedContext _ _ | .rioSend _ _ | .workerTail _
  | .invalidIOCompleted _ => true
  | _ => false

instance : Op.Apart Op.initial := ⟨rfl, fun _ => rfl, rfl, fun _ => rfl⟩
instance : Op.Apart Op.refers := ⟨rfl, fun _ => rfl, rfl, fun _ => rfl⟩
instance : Op.Follows (fun _ => true) Op.refers := ⟨fun _ _ => rfl⟩

/-- An operation holds a reference for one purpose. -/
theorem countP_refers (l : List Op) :
    l.countP Op.refers = l.countP Op.initial + l.countP Op.unaccepted + l.countP Op.counted +
      l.countP Op.accepted := by
  induction l with
  | nil => rfl
  | cons op l ih =>
    simp only [List.countP_cons]
    cases op <;>
      simp [Op.refers, Op.initial, Op.unaccepted, Op.counted, Op.accepted] <;> omega

theorem countP_initial (l : List Op) :
    l.countP Op.initial = l.countP Op.decrements + l.countP Op.emplaces := by
  induction l with
  | nil => rfl
  | cons op l ih =>
    simp only [List.countP_cons]
    cases op <;> simp [Op.initial, Op.decrements, Op.emplaces] <;> omega

/-! ## The terms of the equation -/

/-- The receives that `RIOReceive` took and `RecvPost` has not counted yet. -/
def State.uncountedReceives (sid : SessionId) (s : State) : ℕ := s.pending Op.uncounted sid

/-- 1 while the accepter holds the reference `MakeNewSession` began with. -/
def State.initialReference (sid : SessionId) (s : State) : ℕ :=
  if ∃ t ∈ s.threads, t.role = .accepter ∧ t.session = sid ∧ ∃ op ∈ t.code, op.initial = true then 1
  else 0

/-- The requests whose completion `GetIOCompletedContext` has not accepted yet. -/
def State.unacceptedRequests (sid : SessionId) (s : State) : ℕ :=
  (s.session sid).outstanding (fun _ => true) + s.pending Op.unaccepted sid

/-- The failed sends a thread has not uncounted. A worker sends inside a completion, whose own
decrement is behind its `workerTail`. -/
def Thread.failedSends (sid : SessionId) (t : Thread) : ℕ :=
  if t.session = sid then
    match t.role with
    | .accepter => 0
    | .worker _ => if t.code.any Op.finishes then t.code.countP Op.decrements else 0
    | .sender => t.code.countP Op.decrements
  else 0

/-- The sends counted whose `RIOSend` was not called, or failed and was not uncounted. -/
def State.countedSends (sid : SessionId) (s : State) : ℕ :=
  s.pending Op.counted sid + tally (Thread.failedSends sid) s.threads

/-- The decrement of a completion that a worker is about to execute. -/
def Thread.ownDecrement (sid : SessionId) (t : Thread) : ℕ :=
  if t.session = sid then
    match t.role with
    | .worker _ => if t.code.any Op.finishes then 0 else t.code.countP Op.decrements
    | _ => 0
  else 0

/-- The completions accepted by `GetIOCompletedContext` that have not given their reference back. -/
def State.acceptedCompletions (sid : SessionId) (s : State) : ℕ :=
  s.pending Op.accepted sid + tally (Thread.ownDecrement sid) s.threads

/-- **The account of a session.** -/
structure Accounted (sid : SessionId) (s : State) : Prop where
  law : (s.session sid).ioCount + s.uncountedReceives sid =
    s.initialReference sid + s.unacceptedRequests sid + s.countedSends sid +
      s.acceptedCompletions sid
  negative : (s.session sid).ioCount < 0 → 0 < s.uncountedReceives sid

/-! ## One operation -/

/-- **An operation balances the count**, unless it drops a completion of a session that is not in
the map. -/
theorem execOp_refers (ho : o = execOp cfg op ok replies sid sh se res)
    (hmem : op.waits = true → sid ∈ sh.sessionMap)
    (hres : res ≠ .invalidOperationType ∧ res ≠ .isDeletedSession) :
    o.session.ioCount + o.code.countP Op.uncounted + se.outstanding (fun _ => true) +
        [op].countP Op.refers =
      se.ioCount + [op].countP Op.uncounted + o.session.outstanding (fun _ => true) +
        o.code.countP Op.refers := by
  subst ho
  unfold execOp
  repeat' split
  all_goals
    simp_all [Op.refers, Op.uncounted, Op.waits, RIOSession.outstanding, sendPost, recvPost,
      releaseSession, enterNewSession, List.countP_append, List.countP_cons]
  all_goals omega

/-- No operation leaves the results that `Worker` answers with `continue`. -/
theorem execOp_result (ho : o = execOp cfg op ok replies sid sh se res)
    (hres : res ≠ .invalidOperationType ∧ res ≠ .isDeletedSession) :
    o.result ≠ .invalidOperationType ∧ o.result ≠ .isDeletedSession := by
  subst ho
  unfold execOp
  repeat' split
  all_goals simp_all

/-- What the accepter executes. -/
def Op.accepts : Op → Bool
  | .incWorkerCount | .emplaceSession | .onSessionEntered | .incSessionCount | .rioReceive
  | .countRecv | .ioCountDecrement | .onSessionLeaved | .closeSocket | .decWorkerCount
  | .decSessionCount | .eraseSession | .onSessionReleased => true
  | _ => false

/-- It stays among these operations, and its own reference is one. -/
theorem execOp_accepts (ho : o = execOp cfg op ok replies sid sh se res) (h : op.accepts = true) :
    (∀ op' ∈ o.code, op'.accepts = true) ∧ o.code.countP Op.initial ≤ [op].countP Op.initial := by
  subst ho
  unfold execOp
  repeat' split
  all_goals
    simp_all [Op.accepts, Op.initial, recvPost, releaseSession, enterNewSession, List.countP_cons]

/-! ## Who executes what -/

/-- **What a thread has in its code goes with its role.** -/
structure Assigned (t : Thread) : Prop where
  accepts : t.role = .accepter → ∀ op ∈ t.code, op.accepts = true
  oneReference : t.role = .accepter → t.code.countP Op.initial ≤ 1
  emplaces : t.role ≠ .accepter → t.code.countP Op.emplaces = 0
  result : t.result ≠ .invalidOperationType ∧ t.result ≠ .isDeletedSession

/-- The threads of the server: each with its code, and one accepter. -/
structure Assignment (s : State) : Prop where
  assigned : ∀ t ∈ s.threads, Assigned t
  oneAccepter : (s.threads.map Thread.role).Pairwise fun a b => a = .accepter → b ≠ .accepter

/-- `MakeNewSession` is called by the accepter. -/
theorem role_of_accept {i threadId : ℕ} {ring : List UInt8} {t : Thread}
    (h : step cfg s (.accept i threadId ring ok) = some s') (hi : s.threads[i]? = some t) :
    t.role = .accepter := by
  unfold step at h
  split at h
  · cases h
  · simp only [hi, Option.bind_some, accept] at h
    split at h
    · rename_i hg
      exact hg.1
    · cases h

/-- And the sending functions by the other threads. -/
theorem role_of_call {i : ℕ} {t : Thread} {code : List Op} (hc : Calls i e code)
    (h : step cfg s e = some s') (hi : s.threads[i]? = some t) : t.role = .sender := by
  unfold step at h
  split at h
  · cases h
  · cases hc with
    | sendPacket packet =>
      simp only [hi, Option.bind_some, call] at h
      split at h
      · rename_i hg
        exact hg.1
      · cases h
    | sendPacketAndDisconnect packet =>
      simp only [hi, Option.bind_some, call] at h
      split at h
      · rename_i hg
        exact hg.1
      · cases h

theorem assignment_initial (numOfWorkerThread senders : ℕ) :
    Assignment (initialState numOfWorkerThread senders) := by
  refine ⟨fun t ht => ?_, ?_⟩
  · have hcode := (idle_initial ht).1
    have hres : t.result = .success := by
      simp only [initialState, List.cons_append, List.mem_cons, List.mem_append, List.mem_map,
        List.mem_replicate] at ht
      rcases ht with rfl | ⟨k, -, rfl⟩ | ⟨-, rfl⟩ <;> rfl
    refine ⟨fun _ op hop => ?_, fun _ => ?_, fun _ => ?_, ?_⟩
    · rw [hcode] at hop
      cases hop
    · rw [hcode]
      exact Nat.zero_le _
    · rw [hcode]
      rfl
    · rw [hres]
      exact ⟨by decide, by decide⟩
  · simp only [initialState, List.cons_append, List.map_cons, List.map_append, List.map_map,
      List.map_replicate, Thread.idle, List.pairwise_cons]
    refine ⟨fun b hb _ => ?_, List.Pairwise.imp_of_mem (R := fun _ _ => True) ?_
      (List.pairwise_of_forall fun _ _ => trivial)⟩
    · simp only [List.mem_append, List.mem_map, List.mem_replicate, Function.comp] at hb
      rcases hb with ⟨k, -, rfl⟩ | ⟨-, rfl⟩ <;> simp [Thread.idle]
    · intro a b ha _ _ hacc
      simp only [List.mem_append, List.mem_map, List.mem_replicate, Function.comp] at ha
      rcases ha with ⟨k, -, rfl⟩ | ⟨-, rfl⟩ <;> cases hacc

theorem assignment_step (h : Assignment s) (hstep : step cfg s e = some s') : Assignment s' := by
  have hs := step_cases hstep
  refine ⟨?_, by rw [hs.roles]; exact h.oneAccepter⟩
  have hold := h.assigned
  cases hs with
  | acceptFailed i threadId => exact hold
  | @accepted i threadId ring t hi hcode hid =>
    have hrole := role_of_accept hstep hi
    refine forall_mem_set hold ⟨fun _ op hop => ?_, fun _ => le_rfl, fun hne => absurd hrole hne,
      (hold t (List.mem_of_getElem? hi)).result⟩
    simp only [makeNewSession, List.mem_cons, List.not_mem_nil, or_false] at hop
    rcases hop with rfl | rfl <;> rfl
  | @gotSession i t sid hi hcode hmem =>
    obtain ⟨ha, hone, hem, hres⟩ := hold t (List.mem_of_getElem? hi)
    exact forall_mem_set hold ⟨ha, hone, hem, hres⟩
  | @called i t e code hi hcode hne hcall =>
    have hrole := role_of_call hcall hstep hi
    refine forall_mem_set hold ⟨fun hacc => ?_, fun hacc => ?_, fun _ => hcall.countP_eq_zero,
      (hold t (List.mem_of_getElem? hi)).result⟩
    · cases hrole.symm.trans hacc
    · cases hrole.symm.trans hacc
  | completed data hc => exact hold
  | @dequeued i t sid k c hi hcode hrole hc =>
    refine forall_mem_set hold ⟨fun hacc => ?_, fun hacc => ?_, fun _ => rfl,
      ⟨by simp, by simp⟩⟩
    · cases hrole.symm.trans hacc
    · cases hrole.symm.trans hacc
  | @executed i t op rest o ok replies hi hcode ho =>
    have ht := hold t (List.mem_of_getElem? hi)
    have hem : o.code.countP Op.emplaces = 0 := by
      rw [ho]
      exact execOp_emplaces
    refine forall_mem_set hold ⟨fun hacc op' hop' => ?_, fun hacc => ?_, fun hne => ?_,
      execOp_result ho ht.result⟩
    · have hops := ht.accepts hacc
      rw [hcode] at hops
      rcases List.mem_append.mp hop' with hnew | hrest
      · exact (execOp_accepts ho (hops op List.mem_cons_self)).1 op' hnew
      · exact hops op' (List.mem_cons_of_mem _ hrest)
    · have hops := ht.accepts hacc
      have hone := ht.oneReference hacc
      rw [hcode] at hops hone
      have hle := (execOp_accepts ho (hops op List.mem_cons_self)).2
      rw [List.countP_append]
      rw [← List.singleton_append, List.countP_append] at hone
      omega
    · have hzero := ht.emplaces hne
      rw [hcode, List.countP_cons] at hzero
      rw [List.countP_append, hem]
      omega

/-! ## A session that is not in the map yet -/

/-- **While its `emplace` is ahead, a session is the accepter's alone.** -/
structure Entering (s : State) : Prop where
  code : ∀ t ∈ s.threads, 0 < s.pending Op.emplaces t.session →
    t.code = makeNewSession ∨ t.code = [.emplaceSession]
  outstanding : ∀ sid, 0 < s.pending Op.emplaces sid →
    (s.session sid).outstanding (fun _ => true) = 0

theorem entering_initial (numOfWorkerThread senders : ℕ) :
    Entering (initialState numOfWorkerThread senders) := by
  refine ⟨fun t _ h => ?_, fun sid h => ?_⟩
  · rw [pending_initial] at h
    exact absurd h (lt_irrefl 0)
  · rw [pending_initial] at h
    exact absurd h (lt_irrefl 0)

/-- An operation on such a session is one of the accepter's first two. -/
theorem Entering.op_eq (h : Entering s) {i : ℕ} {t : Thread} {rest : List Op}
    (hi : s.threads[i]? = some t) (hcode : t.code = op :: rest)
    (hpos : 0 < s.pending Op.emplaces t.session) :
    (op = .incWorkerCount ∧ rest = [.emplaceSession]) ∨ (op = .emplaceSession ∧ rest = []) := by
  rcases h.code t (List.mem_of_getElem? hi) hpos with hc | hc
  · rw [hcode] at hc
    obtain ⟨rfl, rfl⟩ := List.cons.inj hc
    exact .inl ⟨rfl, rfl⟩
  · rw [hcode] at hc
    obtain ⟨rfl, rfl⟩ := List.cons.inj hc
    exact .inr ⟨rfl, rfl⟩

/-- An `emplace` is executed and not pushed. -/
theorem Step.emplaces_pos (hs : Step cfg s e s') (hdrawn : sid ≤ s.nextSessionId)
    (hpos : 0 < s'.pending Op.emplaces sid) : 0 < s.pending Op.emplaces sid := by
  cases hs.alters sid with
  | kept hk => rwa [hk.pending] at hpos
  | entered threadId hid hnext _ hse hsh hp =>
    exact absurd (hid ▸ hdrawn) (Nat.not_le.mpr lt_newSessionId)
  | executed ok replies hi hsid hcode ho hse hsh hp =>
    have he := hp Op.emplaces
    rw [ho, execOp_emplaces] at he
    omega

/-- There is one, and then none. -/
theorem Step.emplaced {i : ℕ} {t : Thread} {rest : List Op}
    (hs : Step cfg s (.exec i ok replies) s') (hrc : RefCounted s) (hi : s.threads[i]? = some t)
    (hcode : t.code = .emplaceSession :: rest) : s'.pending Op.emplaces t.session = 0 := by
  have he := hs.exec_pending hi hcode Op.emplaces
  have hone := hrc.emplaceOnce t.session
  rw [execOp_emplaces] at he
  simp only [List.countP_singleton, Op.emplaces, if_true] at he
  omega

theorem entering_step (h : Entering s) (hrc : RefCounted s) (hs : Step cfg s e s') :
    Entering s' where
  code := by
    have hold : ∀ t ∈ s.threads, 0 < s'.pending Op.emplaces t.session →
        t.code = makeNewSession ∨ t.code = [.emplaceSession] :=
      fun t ht hpos => h.code t ht (hs.emplaces_pos (hrc.drawn t ht) hpos)
    have hs' := hs
    cases hs with
    | acceptFailed i threadId => exact hold
    | accepted hi hcode hid => exact forall_mem_set hold fun _ => .inl rfl
    | @gotSession i t sid hi hcode hmem =>
      refine forall_mem_set hold fun hpos => ?_
      have hdrawn : sid ≤ s.nextSessionId :=
        Nat.not_lt.mp fun hlt => (hrc.untouched _ hlt).notMem hmem
      exact absurd (hrc.once sid hmem) (hs'.emplaces_pos hdrawn hpos).ne'
    | @called i t e code hi hcode hne hcall =>
      refine forall_mem_set hold fun hpos => ?_
      have ht := List.mem_of_getElem? hi
      -- an idle thread is not the accepter about to put its session into the map
      rcases h.code t ht (hs'.emplaces_pos (hrc.drawn t ht) hpos) with hc | hc
      · rw [hcode] at hc; cases hc
      · rw [hcode] at hc; cases hc
    | completed data hc => exact hold
    | @dequeued i t sid k c hi hcode hrole hc =>
      refine forall_mem_set hold fun hpos => ?_
      have hout := outstanding_pos_of_completed hc
      have hdrawn : sid ≤ s.nextSessionId :=
        Nat.not_lt.mp fun hlt => hout.ne' ((hrc.untouched _ hlt).outstanding _)
      exact absurd (h.outstanding sid (hs'.emplaces_pos hdrawn hpos)) hout.ne'
    | @executed i t op rest o ok replies hi hcode ho =>
      refine forall_mem_set hold fun hpos => ?_
      have ht := List.mem_of_getElem? hi
      have hpos' := hs'.emplaces_pos (hrc.drawn t ht) hpos
      rcases h.op_eq hi hcode hpos' with ⟨rfl, rfl⟩ | ⟨rfl, rfl⟩
      · subst ho
        exact .inr rfl
      · exact absurd (hs'.emplaced hrc hi hcode) hpos.ne'
  outstanding sid hpos := by
    cases hs.alters sid with
    | kept hk =>
      have hzero := h.outstanding sid (by rwa [hk.pending] at hpos)
      exact Nat.le_zero.mp ((hk.outstanding_le _).trans hzero.le)
    | entered threadId hid hnext _ hse hsh hp =>
      rw [hse]
      rfl
    | @executed s' i t op rest o ok replies hi hsid hcode ho hse hsh hp =>
      have he := hp Op.emplaces
      rw [ho, execOp_emplaces] at he
      have hpos' : 0 < s.pending Op.emplaces sid := by omega
      rw [hse]
      rcases h.op_eq hi hcode (hsid ▸ hpos') with ⟨rfl, -⟩ | ⟨rfl, -⟩
      · subst ho
        exact h.outstanding sid hpos'
      · have hone := hrc.emplaceOnce sid
        simp only [List.countP_singleton, Op.emplaces, if_true] at he
        omega

/-! ## The law -/

/-- **The count of a session in the map, or on its way there.** -/
structure Balanced (s : State) : Prop where
  law : ∀ sid, sid ∈ s.shared.sessionMap ∨ 0 < s.pending Op.emplaces sid →
    (s.session sid).ioCount + s.pending Op.uncounted sid =
      (s.session sid).outstanding (fun _ => true) + s.pending Op.refers sid

theorem balanced_initial (numOfWorkerThread senders : ℕ) :
    Balanced (initialState numOfWorkerThread senders) := by
  refine ⟨fun sid h => ?_⟩
  rw [pending_initial] at h
  simp [initialState] at h

theorem balanced_step (h : Balanced s) (hrc : RefCounted s) (hen : Entering s) (has : Assignment s)
    (hs : Step cfg s e s') : Balanced s' where
  law sid hin := by
    cases hs.alters sid with
    | kept hk =>
      rw [hk.mem, hk.pending] at hin
      obtain ⟨posted, completed, hse⟩ := hk.session
      have hcount : (s'.session sid).ioCount = (s.session sid).ioCount := by rw [hse]
      have hrefers := hk.followed (fun _ => true) Op.refers
      have hlaw := h.law sid hin
      rw [hcount, hk.pending Op.uncounted]
      omega
    | entered threadId hid hnext hlt hse hsh hp =>
      rw [hse, hp, hp, hrc.pending_new hid, hrc.pending_new hid]
      rfl
    | @executed s' i t op rest o ok replies hi hsid hcode ho hse hsh hp =>
      have he := hp Op.emplaces
      have hr := hp Op.refers
      have hu := hp Op.uncounted
      have hemplaces : o.code.countP Op.emplaces = 0 := by rw [ho]; exact execOp_emplaces
      -- it was in the map before, or this step has put it there
      have hin' : sid ∈ s.shared.sessionMap ∨ 0 < s.pending Op.emplaces sid := by
        rcases hin with hmem | hpos
        · by_cases hop : op = .emplaceSession
          · exact .inr (pending_pos_of_next hi hsid hcode (by rw [hop]; rfl))
          · rw [hsh, ho, execOp_sessionMap, if_neg hop] at hmem
            split at hmem
            · exact .inl (Finset.mem_of_mem_erase hmem)
            · exact .inl hmem
        · exact .inr (by omega)
      have hwaits : op.waits = true → sid ∈ s.shared.sessionMap := by
        intro hw
        rcases hin' with hmem | hpos
        · exact hmem
        · rcases hen.op_eq hi hcode (hsid ▸ hpos) with ⟨rfl, -⟩ | ⟨rfl, -⟩ <;> cases hw
      have hbal := execOp_refers ho hwaits (has.assigned t (List.mem_of_getElem? hi)).result
      have hlaw := h.law sid hin'
      rw [hse]
      omega

/-- **What is known of the threads and the count in every reachable state.** -/
structure Audited (s : State) : Prop where
  refCounted : RefCounted s
  assignment : Assignment s
  entering : Entering s
  balanced : Balanced s

theorem audited_of_reachable (h : (system cfg).Reachable s) : Audited s := by
  refine System.ReachableUnder.invariant ?_ (fun s e s' hP _ hstep => ?_) h
  · rintro s ⟨numOfWorkerThread, senders, rfl⟩
    exact ⟨refCounted_initial _ _, assignment_initial _ _, entering_initial _ _,
      balanced_initial _ _⟩
  · obtain ⟨hrc, has, hen, hco⟩ := hP
    have hs := step_cases hstep
    exact ⟨refCounted_step hrc hs, assignment_step has hstep, entering_step hen hrc hs,
      balanced_step hco hrc hen has hs⟩

/-! ## Whose decrement it is -/

/-- The reference of the accepter, where the thread is the accepter and holds it. -/
def Thread.reference (sid : SessionId) (t : Thread) : ℕ :=
  if t.session = sid ∧ t.role = .accepter then t.code.countP Op.initial else 0

/-- **A decrement ahead is the accepter's own, a failed send's, or a completion's.** -/
theorem Assigned.owes_initial {t : Thread} (h : Assigned t) (sid : SessionId) :
    t.owes Op.initial sid = t.reference sid + t.failedSends sid + t.ownDecrement sid := by
  have hini := countP_initial t.code
  unfold Thread.owes Thread.reference Thread.failedSends Thread.ownDecrement
  by_cases hsid : t.session = sid
  · cases hrole : t.role with
    | accepter => simp [hsid]
    | worker k =>
      have hzero := h.emplaces (by rw [hrole]; simp)
      by_cases hf : t.code.any Op.finishes = true
      · simp only [hsid, hf, if_true]
        simp
        omega
      · simp only [hsid, hf, if_true]
        simp
        omega
    | sender =>
      have hzero := h.emplaces (by rw [hrole]; simp)
      simp only [hsid, if_true]
      simp
      omega
  · simp [hsid]

/-- The accepter holds one reference or none. -/
theorem Assignment.tally_reference (h : Assignment s) (sid : SessionId) :
    tally (Thread.reference sid) s.threads = s.initialReference sid := by
  have hle : tally (Thread.reference sid) s.threads ≤ 1 := by
    refine tally_le_one (fun t ht => ?_) ((List.pairwise_map.mp h.oneAccepter).imp ?_)
    · unfold Thread.reference
      split
      · rename_i hacc
        exact (h.assigned t ht).oneReference hacc.2
      · exact Nat.zero_le _
    · intro a b hab ha
      have hacc : a.role = .accepter := by
        by_contra hne
        simp [Thread.reference, hne] at ha
      simp [Thread.reference, hab hacc]
  have hpos : 0 < tally (Thread.reference sid) s.threads ↔ ∃ t ∈ s.threads,
      t.role = .accepter ∧ t.session = sid ∧ ∃ op ∈ t.code, op.initial = true := by
    rw [tally_pos]
    refine exists_congr fun t => and_congr_right fun _ => ?_
    unfold Thread.reference
    split
    · rename_i hacc
      simp [hacc.1, hacc.2, List.countP_pos_iff]
    · rename_i hacc
      constructor
      · intro hlt
        exact absurd hlt (lt_irrefl 0)
      · rintro ⟨hrole, hsid, -⟩
        exact absurd ⟨hsid, hrole⟩ hacc
  unfold State.initialReference
  split
  · rename_i hex
    have := hpos.mpr hex
    omega
  · rename_i hno
    have := mt hpos.mp hno
    omega

theorem Assignment.pending_initial_eq (h : Assignment s) (sid : SessionId) :
    s.pending Op.initial sid = s.initialReference sid +
      tally (Thread.failedSends sid) s.threads + tally (Thread.ownDecrement sid) s.threads := by
  rw [← h.tally_reference, ← tally_add, ← tally_add]
  exact tally_congr fun t ht => (h.assigned t ht).owes_initial sid

/-- **The I/O count is accounted for**, in every reachable state and for every session in the
map. -/
theorem accounted_of_reachable (h : (system cfg).Reachable s) (hmem : sid ∈ s.shared.sessionMap) :
    Accounted sid s := by
  obtain ⟨-, has, -, hco⟩ := audited_of_reachable h
  have hlaw := hco.law sid (.inl hmem)
  have hini := has.pending_initial_eq sid
  have hrefers : s.pending Op.refers sid = s.pending Op.initial sid + s.pending Op.unaccepted sid +
      s.pending Op.counted sid + s.pending Op.accepted sid := by
    simp only [pending_eq_countP]
    exact countP_refers _
  have heq : (s.session sid).ioCount + s.uncountedReceives sid =
      s.initialReference sid + s.unacceptedRequests sid + s.countedSends sid +
        s.acceptedCompletions sid := by
    unfold State.uncountedReceives State.unacceptedRequests State.countedSends
      State.acceptedCompletions
    omega
  exact ⟨heq, by omega⟩

/-- The worker is in the handler of a packet and has a failed send to uncount there, while the
accepter is at its own decrement: the count is 3, and no receive is posted. -/
theorem accounted_failedSend : ∃ s, 2 ∈ s.shared.sessionMap ∧ (s.session 2).ioCount = 3 ∧
    s.countedSends 2 = 1 ∧ Accounted 2 s := by
  obtain ⟨s, hreach, hs⟩ := System.exists_reachable (system checksumConfig)
    (.accept 0 0 [] true :: execs 0 4 ++ [.complete 2 0 [119, 1, 0, 0, 7, 7], .dequeue 1 2 0] ++
      execs 1 2 ++ [.exec 1 true [[1]]] ++ execs 1 7 ++ [.exec 1 false []])
    (s := initialState 1 0)
    (f := fun s => 2 ∈ s.shared.sessionMap ∧ (s.session 2).ioCount = 3 ∧ s.countedSends 2 = 1)
    ⟨1, 0, rfl⟩ (by decide +kernel)
  have hs := of_decide_eq_true hs
  exact ⟨s, hs.1, hs.2.1, hs.2.2, accounted_of_reachable hreach hs.1⟩

end RIOServer

end DdingGameServer
