import DdingGameServer.MultiLanClient.Steps
/-!
# MultiLanClient — which thread works on which session

What holds of the threads in every reachable state, whatever the kernel answers: a session `Start`
has not reached is untouched; an operation is executed by a thread of its own kind; and the one
`Reconnecter` works on the session at the front of `sessionReconnectIdList`, which stays there until
it is done.
-/

namespace DdingGameServer

namespace MultiLanClient

variable {cfg : Config} {s s' : State} {e : Event} {sid i j : ℕ} {t u : Thread} {op : Op}
  {ok : Bool} {se : Session} {ids : List ℕ} {o : Outcome}

/-! ## Roles -/

/-- The role of the thread that makes the call. -/
def Caller.role : Caller → Role
  | .sendPacketImpl => .sender
  | .worker => .worker
  | .reconnecter => .reconnecter
  | .start => .start

/-- The role of the thread an operation belongs to. -/
def Op.role : Op → Role
  | .enqueue _ => .sender
  | .sendPostCas c | .getRestSize c | .resetMode c | .recheckRestSize c | .dequeue c _ _
  | .setBufferCount c _ | .countSend c _ | .wsaSend c _ | .recvPost c | .countRecv c | .wsaRecv c
  | .releaseSession c | .readRestSize c _ | .freeStored c _ _ _ | .freeQueued c _ _
  | .closeSocket c | .invalidateSocket c | .pushReconnect c => c.role
  | .recvCompleted _ | .sendCompleted | .freeSent _ _ | .subtractCount _ | .resetSending
  | .workerEnd => .worker
  | .newSocket | .connect | .popFront => .reconnecter

theorem role_of_resume {c : Caller} {r : PostRetval} (h : c.resume r = some op) :
    op.role = c.role := by
  cases c <;> cases r <;> simp [Caller.resume] at h <;> subst h <;> rfl

theorem role_of_decrement {c : Caller} {next : Option Op} (hnext : ∀ op ∈ next, op.role = c.role)
    (h : (decrement se ids c next).next = some op) : op.role = c.role := by
  simp only [decrement] at h
  split at h
  · cases h
    rfl
  · exact hnext op h

/-- An operation leads to one of the same thread. -/
theorem Exec.role (h : Exec cfg ok sid se ids op o) {op' : Op} (hnext : o.next = some op') :
    op'.role = op.role := by
  cases h with
  | casFailed c | recheckEmpty c | recvPosted c | pushed c => exact role_of_resume hnext
  | sendFailed c | ringFull c | recvFailed c =>
    exact role_of_decrement (fun _ h => role_of_resume h) hnext
  | workerEnded => exact role_of_decrement (by simp) hnext
  | socketClosed c =>
    dsimp only at hnext
    split at hnext
    · cases hnext
      rfl
    · exact role_of_resume hnext
  | popped => cases hnext
  | _ => cases hnext; rfl

theorem Completion.role_op (c : Completion) : c.op.role = .worker := by
  cases c with
  | recv data =>
    simp only [Completion.op]
    split <;> rfl
  | send wsaSendBuf => rfl

/-! ## The list of sessions to reconnect -/

/-- Only `ReleaseSession` and `pop_front` change `sessionReconnectIdList`. -/
theorem Exec.reconnectIdList (h : Exec cfg ok sid se ids op o) :
    o.reconnectIdList = ids ∨ (op.role = .reconnecter ∧ op = .popFront ∧ o.next = none ∧
      o.reconnectIdList = ids.tail) ∨ o.reconnectIdList = ids ++ [sid] := by
  cases h with
  | pushed c => exact .inr (.inr rfl)
  | popped => exact .inr (.inl ⟨rfl, rfl, rfl, rfl⟩)
  | _ => exact .inl rfl

/-- **Who works where**, in every reachable state. -/
structure Staffed (cfg : Config) (s : State) : Prop where
  bound : s.sessionIdGenerator ≤ cfg.numOfSession
  started : s.started = true → s.sessionIdGenerator = cfg.numOfSession
  /-- A session `Start` has not reached is as it was made, and nobody is there. -/
  fresh : ∀ sid, s.sessionIdGenerator ≤ sid → s.session sid = Session.new ∧ s.ops sid = []
  reached : ∀ sid ∈ s.reconnectIdList, sid < s.sessionIdGenerator
  role : ∀ t ∈ s.threads, ∀ op ∈ t.op, op.role = t.role
  /-- There is one `Reconnecter`. -/
  reconnecter : ∀ (i j : ℕ) (t u : Thread), s.threads[i]? = some t → s.threads[j]? = some u →
    t.role = .reconnecter → u.role = .reconnecter → i = j
  /-- It works on the session at the front of the list. -/
  front : ∀ t ∈ s.threads, ∀ op ∈ t.op, op.role = .reconnecter →
    s.reconnectIdList.head? = some t.session

theorem staffed_initial (cfg : Config) (senders : ℕ) : Staffed cfg (initialState cfg senders) := by
  have hidle : ∀ t ∈ (initialState cfg senders).threads, t.op = none := by
    intro t ht
    simp only [initialState, List.mem_cons, List.mem_append, List.mem_replicate] at ht
    rcases ht with rfl | rfl | ⟨-, rfl⟩ | ⟨-, rfl⟩ <;> rfl
  refine ⟨Nat.zero_le _, fun h => (nomatch h), fun sid _ => ⟨rfl, ?_⟩, fun sid h => (nomatch h),
    fun t ht op hop => ?_, fun i j t u hi hj ht hu => ?_, fun t ht op hop => ?_⟩
  · rw [List.eq_nil_iff_forall_not_mem]
    intro op hop
    obtain ⟨t, ht, -, h⟩ := mem_ops.mp hop
    rw [hidle t ht] at h
    cases h
  · rw [hidle t ht] at hop
    cases hop
  · have hone : ∀ i t, (initialState cfg senders).threads[i]? = some t → t.role = .reconnecter →
        i = 1 := by
      intro i t hi ht
      match i with
      | 0 => cases hi; cases ht
      | 1 => rfl
      | i + 2 =>
        have hmem := List.mem_of_getElem? (show (List.replicate cfg.numOfWorkerThread
          (Thread.idle .worker) ++ List.replicate senders (Thread.idle .sender))[i]? = some t by
            simpa [initialState] using hi)
        simp only [List.mem_append, List.mem_replicate] at hmem
        rcases hmem with ⟨-, rfl⟩ | ⟨-, rfl⟩ <;> cases ht
    rw [hone i t hi ht, hone j u hj hu]
  · rw [hidle t ht] at hop
    cases hop

/-! ## One step -/

/-- What a step does to the threads: one of them moves, or none does. -/
inductive Moved (s s' : State) : Prop
  | none : s'.threads = s.threads → Moved s s'
  | one {i : ℕ} {t : Thread} {sid : ℕ} {op : Option Op} : s.threads[i]? = some t →
      s'.threads = s.threads.set i { t with session := sid, op := op } →
      (∀ op' ∈ op, op'.role = t.role) → Moved s s'

theorem Step.moved (h : Step cfg s e s') (hrole : ∀ t ∈ s.threads, ∀ op ∈ t.op, op.role = t.role) :
    Moved s s' := by
  cases h with
  | sessionStarted hi ht => exact .one hi rfl (by rintro _ ⟨⟩; exact ht.symm)
  | packetSent hi ht => exact .one hi rfl (by rintro _ ⟨⟩; exact ht.symm)
  | @taken i sid k t c hi ht =>
    exact .one hi rfl (by rintro _ ⟨⟩; exact (Completion.role_op c).trans ht.symm)
  | reconnecting hi ht => exact .one hi rfl (by rintro _ ⟨⟩; exact ht.symm)
  | executed ok hi hop ho =>
    refine .one hi rfl fun op' hnext => ?_
    rw [(execOp_cases ho).role hnext]
    exact hrole _ (List.mem_of_getElem? hi) _ hop
  | _ => exact .none rfl

/-- Every thread keeps its role. -/
theorem Moved.role (h : Moved s s') (hj : s'.threads[j]? = some u) :
    ∃ t, s.threads[j]? = some t ∧ t.role = u.role := by
  cases h with
  | none hthreads => exact ⟨u, hthreads ▸ hj, rfl⟩
  | one hi hthreads hrole =>
    rw [hthreads] at hj
    rcases getElem?_set_eq_some hj with ⟨rfl, rfl⟩ | ⟨-, hj⟩
    · exact ⟨_, hi, rfl⟩
    · exact ⟨u, hj, rfl⟩

/-- `Start` goes on to the next session. -/
theorem Step.sessionIdGenerator_le (h : Step cfg s e s') :
    s.sessionIdGenerator ≤ s'.sessionIdGenerator := by
  cases h with
  | sessionStarted => exact Nat.le_succ _
  | _ => exact le_rfl

/-- A thread that is at an operation is at a session `Start` has reached. -/
theorem Staffed.lt_of_op (h : Staffed cfg s) (ht : t ∈ s.threads) (hop : t.op = some op) :
    t.session < s.sessionIdGenerator := by
  by_contra hge
  have hmem : op ∈ s.ops t.session := mem_ops.mpr ⟨t, ht, rfl, hop⟩
  rw [(h.fresh t.session (Nat.le_of_not_lt hge)).2] at hmem
  cases hmem

theorem Staffed.fresh_step (h : Staffed cfg s) (hs : Step cfg s e s')
    (hsid : s'.sessionIdGenerator ≤ sid) : s'.session sid = Session.new ∧ s'.ops sid = [] := by
  have hle : s.sessionIdGenerator ≤ sid := hs.sessionIdGenerator_le.trans hsid
  obtain ⟨hse, hops⟩ := h.fresh sid hle
  have hdone : ∀ {op' : Op}, op' ∉ s.ops sid := by simp [hops]
  cases hs.alters sid with
  | kept hse' hops' => exact ⟨hse'.trans hse, hops'.trans hops⟩
  | started hid =>
    -- the session `Start` connects is reached by that
    cases hs with
    | sessionStarted => exact absurd hsid (by simp only; omega)
  | sent _ _ hstarted _ hlt => exact absurd hle (by have := h.started hstarted; omega)
  | finished hr => simp [hse, Session.new] at hr
  | taken _ _ hc => simp [hse, Session.new] at hc
  | reconnecting _ _ _ hhead =>
    exact absurd (h.reached sid (List.mem_of_head? hhead)) (Nat.not_lt.mpr hle)
  | executed hi ht hop =>
    exact absurd (mem_ops.mpr ⟨_, List.mem_of_getElem? hi, ht, hop⟩) hdone

/-- The list after a step: as it was, or without its front, or longer by a session that a thread is
at. -/
theorem Step.reconnectIdList (h : Step cfg s e s') :
    s'.reconnectIdList = s.reconnectIdList ∨
    (∃ i t, s.threads[i]? = some t ∧ t.op = some .popFront ∧
      s'.threads = s.threads.set i { t with op := none } ∧
      s'.reconnectIdList = s.reconnectIdList.tail) ∨
    ∃ t ∈ s.threads, t.op ≠ none ∧ s'.reconnectIdList = s.reconnectIdList ++ [t.session] := by
  cases h with
  | @executed i t op o ok hi hop ho =>
    rcases (execOp_cases ho).reconnectIdList with h | ⟨-, rfl, hnext, h⟩ | h
    · exact .inl h
    · refine .inr (.inl ⟨i, t, hi, hop, ?_, h⟩)
      rw [← hnext]
      rfl
    · exact .inr (.inr ⟨t, List.mem_of_getElem? hi, by simp [hop], h⟩)
  | _ => exact .inl rfl

theorem Staffed.front_step (h : Staffed cfg s) (hs : Step cfg s e s') (hu : u ∈ s'.threads)
    (hop : u.op = some op) (hrole : op.role = .reconnecter) :
    s'.reconnectIdList.head? = some u.session := by
  have hm := hs.moved h.role
  obtain ⟨j, hj⟩ := List.mem_iff_getElem?.mp hu
  obtain ⟨u₀, hj₀, hu₀⟩ := hm.role hj
  have hur : u.role = .reconnecter := by
    cases hm with
    | none hthreads => exact (h.role u (hthreads ▸ hu) op hop) ▸ hrole
    | one hi hthreads hr =>
      rw [hthreads] at hj
      rcases getElem?_set_eq_some hj with ⟨rfl, rfl⟩ | ⟨-, hj⟩
      · exact (hr op hop) ▸ hrole
      · exact (h.role u (List.mem_of_getElem? hj) op hop) ▸ hrole
  -- the front of the list before the step is the session of `u` already
  have hfront : s.reconnectIdList.head? = some u.session := by
    cases hs with
    | @sessionStarted i t hi ht =>
      rcases getElem?_set_eq_some hj with ⟨rfl, rfl⟩ | ⟨-, hj⟩
      · rw [ht] at hur; cases hur
      · exact h.front u (List.mem_of_getElem? hj) op hop hrole
    | @packetSent i sid t _ _ hi ht =>
      rcases getElem?_set_eq_some hj with ⟨rfl, rfl⟩ | ⟨-, hj⟩
      · rw [ht] at hur; cases hur
      · exact h.front u (List.mem_of_getElem? hj) op hop hrole
    | @taken i sid k t _ hi ht =>
      rcases getElem?_set_eq_some hj with ⟨rfl, rfl⟩ | ⟨-, hj⟩
      · rw [ht] at hur; cases hur
      · exact h.front u (List.mem_of_getElem? hj) op hop hrole
    | @reconnecting i sid t hi ht hidle hhead =>
      rcases getElem?_set_eq_some hj with ⟨rfl, rfl⟩ | ⟨-, hj⟩
      · exact hhead
      · exact h.front u (List.mem_of_getElem? hj) op hop hrole
    | @executed i t op₀ o ok hi hop₀ ho =>
      rcases getElem?_set_eq_some hj with ⟨rfl, rfl⟩ | ⟨-, hj⟩
      · exact h.front t (List.mem_of_getElem? hi) op₀ hop₀
          (((execOp_cases ho).role hop).symm.trans hrole)
      · exact h.front u (List.mem_of_getElem? hj) op hop hrole
    | startReturned | sendCrashed | finished | execCrashed => exact h.front u hu op hop hrole
  rcases hs.reconnectIdList with hlist | ⟨i, t, hi, ht, hthreads, -⟩ | ⟨t, -, -, hlist⟩
  · rw [hlist, hfront]
  · -- only the `Reconnecter` pops, and it is idle then
    have hti : t.role = .reconnecter :=
      (h.role t (List.mem_of_getElem? hi) _ ht).symm
    obtain rfl := h.reconnecter j i u₀ t hj₀ hi (hu₀.trans hur) hti
    rw [hthreads] at hj
    rcases getElem?_set_eq_some hj with ⟨-, rfl⟩ | ⟨hne, -⟩
    · cases hop
    · exact absurd rfl hne
  · rw [hlist, List.head?_append, hfront]
    rfl

/-- **Every step keeps it so.** -/
theorem Staffed.step (h : Staffed cfg s) (hs : Step cfg s e s') : Staffed cfg s' := by
  have hm := hs.moved h.role
  refine ⟨?_, fun hstarted => ?_, fun sid hsid => h.fresh_step hs hsid, fun sid hsid => ?_,
    fun u hu op hop => ?_, fun i j t u hi hj ht hu => ?_,
    fun u hu op hop hrole => h.front_step hs hu hop hrole⟩
  · cases hs with
    | sessionStarted _ _ _ hlt => exact hlt
    | _ => exact h.bound
  · cases hs with
    | sessionStarted _ _ _ hlt => exact absurd (h.started hstarted) hlt.ne
    | startReturned _ _ _ hall => exact hall
    | _ => exact h.started hstarted
  · have hle := hs.sessionIdGenerator_le
    rcases hs.reconnectIdList with hlist | ⟨-, -, -, -, -, hlist⟩ | ⟨t, ht, hop, hlist⟩
    · have := h.reached sid (hlist ▸ hsid)
      omega
    · have := h.reached sid (List.mem_of_mem_tail (hlist ▸ hsid))
      omega
    · rw [hlist] at hsid
      rcases List.mem_append.mp hsid with hsid | hsid
      · have := h.reached sid hsid
        omega
      · obtain ⟨op, hop⟩ := Option.ne_none_iff_exists'.mp hop
        have := h.lt_of_op ht hop
        rw [List.mem_singleton.mp hsid]
        omega
  · cases hm with
    | none hthreads => exact h.role u (hthreads ▸ hu) op hop
    | one hi hthreads hrole =>
      rcases List.mem_or_eq_of_mem_set (hthreads ▸ hu) with hu | rfl
      · exact h.role u hu op hop
      · exact hrole op hop
  · obtain ⟨t₀, hi₀, ht₀⟩ := hm.role hi
    obtain ⟨u₀, hj₀, hu₀⟩ := hm.role hj
    exact h.reconnecter i j t₀ u₀ hi₀ hj₀ (ht₀.trans ht) (hu₀.trans hu)

theorem staffed_of_reachable (h : (system cfg).Reachable s) : Staffed cfg s :=
  reachable_of_step (C := fun _ _ => True) (staffed_initial cfg) (fun _ _ _ _ h _ hs => h.step hs) h

end MultiLanClient

end DdingGameServer
