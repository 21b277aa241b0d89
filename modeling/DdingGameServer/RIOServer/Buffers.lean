import DdingGameServer.RIOServer.RefCount
/-!
# RIOServer — buffers and outstanding requests

`ReleaseSession` gives the session's two buffers back to the shared pools, so it must not run while
the kernel may still write into one and read from the other. A release by the reference count is
safe: at zero no request is outstanding, and none can follow, except from a sender that raises the
count again. A release by `RecvCompleted` on a malformed packet is not, since the next receive has
been posted by then. `releasesUnreferenced` is the condition on a step that leaves both out.
-/

namespace DdingGameServer

namespace RIOServer

variable {cfg : NetConfig} {s s' : State} {e : Event} {sid : SessionId} {op : Op} {ok : Bool}
  {replies : List NetBuffer} {sh : Shared} {se : RIOSession} {res : IoPostError}

/-- No thread is inside `ReleaseSession` while a request of the session is outstanding. -/
def ReleasesDrained (s : State) : Prop :=
  ∀ t ∈ s.threads, (∃ op ∈ t.code, op.releasing = true) → (s.session t.session).posted = []

instance (s : State) : Decidable (ReleasesDrained s) :=
  inferInstanceAs (Decidable (∀ t ∈ s.threads, (∃ op ∈ t.code, op.releasing = true) →
    (s.session t.session).posted = []))

/-- No send is counted on a session whose release has begun, and a malformed packet releases only a
session to which no reference but the worker's own is left. -/
def releasesUnreferenced (s : State) (e : Event) : Bool :=
  match s.executing e with
  | some (t, .countSend _ _, _) => s.begun t.session = 0
  | some (t, .releaseOnError true, _) => (s.session t.session).ioCount = 1
  | _ => true

/-- Nothing of the session is outstanding, and nothing that is pending on it posts a request. -/
structure Quiet (sid : SessionId) (s : State) : Prop where
  outstanding : (s.session sid).outstanding (fun _ => true) = 0
  stirs : s.pending Op.stirs sid = 0

theorem Quiet.posted_eq_nil (h : Quiet sid s) : (s.session sid).posted = [] := by
  have := h.outstanding
  simp only [RIOSession.outstanding, List.countP_true] at this
  exact List.eq_nil_of_length_eq_zero (by omega)

/-- An operation that neither stirs nor counts a send leaves the requests alone. -/
theorem execOp_stirs {o : Outcome} (ho : o = execOp cfg op ok replies sid sh se res)
    (h : op.stirs = false) (hc : ∀ ctx copied, op ≠ .countSend ctx copied) :
    o.code.countP Op.stirs = 0 ∧
      o.session.posted = se.posted ∧
      o.session.completed = se.completed := by
  subst ho
  unfold execOp
  repeat' split
  all_goals simp_all [Op.stirs, sendPost, releaseSession]

/-- **Quiet is kept by every such operation.** -/
theorem Quiet.exec {o : Outcome} (h : Quiet sid s) (h0 : op.stirs = false)
    (hc : ∀ ctx copied, op ≠ .countSend ctx copied)
    (ho : o = execOp cfg op ok replies sid s.shared (s.session sid) res)
    (hse : s'.session sid = o.session)
    (hp : s'.pending Op.stirs sid + [op].countP Op.stirs =
      s.pending Op.stirs sid + o.code.countP Op.stirs) : Quiet sid s' := by
  obtain ⟨hcode, hposted, hcompleted⟩ := execOp_stirs ho h0 hc
  have hout := h.outstanding
  have hst := h.stirs
  constructor
  · rw [hse, RIOSession.outstanding, hposted, hcompleted]
    exact hout
  · omega

/-- What the invariant adds to the reference count: a release that has begun finds the session
quiet. -/
structure Returned (s : State) : Prop where
  quiet : ∀ sid, 0 < s.begun sid → Quiet sid s
  begun : ∀ sid, 0 < s.pending Op.releasing sid → 0 < s.begun sid

theorem returned_step (h : Returned s) (hrc : RefCounted s) (hc : releasesUnreferenced s e = true)
    (hs : Step cfg s e s') : Returned s' := by
  have hrc' := refCounted_step hrc hs
  constructor
  · intro sid hb'
    cases hs.alters sid with
    | kept hk =>
      obtain ⟨hout, hst⟩ := h.quiet sid (hk.begun_eq ▸ hb')
      have hboth := hk.followed (fun _ => true) Op.stirs
      exact ⟨by omega, by omega⟩
    | entered threadId hid hnext _ hse hsh hp =>
      rw [State.begun, hse, hp, hrc.pending_new hid] at hb'
      exact absurd hb' (lt_irrefl 0)
    | @executed s' i t op rest o ok replies hi hsid hcode ho hse hsh hp =>
      subst hsid
      rw [releasesUnreferenced, executing_eq hi hcode] at hc
      have hb := begun_exec ho hse (hp Op.begins)
      by_cases hb0 : 0 < s.begun t.session
      · have hq := h.quiet _ hb0
        refine hq.exec (next_eq_false hi rfl hcode hq.stirs) ?_ ho hse (hp _)
        rintro ctx copied rfl
        exact hb0.ne' (by simpa using hc)
      · -- the release begins with this operation
        have hstart : startsRelease op t.session s.shared (s.session t.session) = true := by
          by_contra hno
          rw [if_neg hno] at hb
          omega
        cases op with
        | ioCountDecrement =>
          have hone : (s.session t.session).ioCount = 1 := by simpa [startsRelease] using hstart
          have hzero : (s'.session t.session).ioCount = 0 := by
            rw [hse, ho]
            simp [execOp, hone]
          have hle := hrc'.posts_le t.session
          obtain ⟨hout, hst⟩ := hrc'.quiet t.session (by omega)
          exact ⟨hout, hst⟩
        | releaseOnError packetError =>
          obtain rfl : packetError = true := hstart
          have hlt := hrc.posts_lt hi hcode
          have hone : (s.session t.session).ioCount = 1 := by simpa using hc
          obtain ⟨hout, hst⟩ := hrc.quiet t.session (by omega)
          exact Quiet.exec ⟨hout, hst⟩ rfl (by simp) ho hse (hp _)
        | emplaceSession =>
          exact absurd (by simpa [startsRelease] using hstart) (hrc.notMem_of_emplace hi hcode)
        | _ => cases hstart
  · intro sid hp'
    cases hs.alters sid with
    | kept hk =>
      rw [hk.begun_eq]
      exact h.begun sid (by rwa [hk.pending] at hp')
    | entered threadId hid hnext _ hse hsh hp =>
      rw [hp, hrc.pending_new hid] at hp'
      exact absurd hp' (lt_irrefl 0)
    | @executed s' i t op rest o ok replies hi hsid hcode ho hse hsh hp =>
      have hb := begun_exec ho hse (hp Op.begins)
      by_cases hstart : startsRelease op sid s.shared (s.session sid) = true
      · rw [if_pos hstart] at hb
        omega
      · have hrel := hp Op.releasing
        rw [execOp_releasing ho (by simpa using hstart)] at hrel
        have := h.begun sid (by omega)
        omega

theorem returned_initial (numOfWorkerThread senders : ℕ) :
    Returned (initialState numOfWorkerThread senders) := by
  have hp : ∀ p sid, (initialState numOfWorkerThread senders).pending p sid = 0 :=
    pending_initial
  refine ⟨fun sid h => ?_, fun sid h => ?_⟩
  · rw [State.begun, hp] at h
    exact absurd h (lt_irrefl 0)
  · rw [hp] at h
    exact absurd h (lt_irrefl 0)

/-- **No buffer goes back while the kernel may still use it.** In every run whose steps all meet
`releasesUnreferenced`, no thread is inside `ReleaseSession` while a receive or a send posted for
that session is outstanding. -/
theorem releasesDrained_of_reachableUnder
    (h : (system cfg).ReachableUnder (fun s e => releasesUnreferenced s e = true) s) :
    ReleasesDrained s := by
  have hinv : RefCounted s ∧ Returned s := by
    refine reachable_of_step (P := fun s => RefCounted s ∧ Returned s) (fun n m =>
      ⟨refCounted_initial n m, returned_initial n m⟩) (fun s e s' hP hc hs => ?_) h
    exact ⟨refCounted_step hP.1 hs, returned_step hP.2 hP.1 hc hs⟩
  rintro t ht ⟨op, hop, hrel⟩
  exact (hinv.2.quiet _ (hinv.2.begun _ (pending_pos ht hop hrel))).posted_eq_nil

/-- A release in such a run: the client closes, and the worker enters `ReleaseSession`. -/
theorem releasesDrained_zeroByte : ∃ s,
    (system checksumConfig).ReachableUnder (fun s e => releasesUnreferenced s e = true) s ∧
      (∃ t ∈ s.threads, ∃ op ∈ t.code, op.releasing = true) ∧ ReleasesDrained s := by
  obtain ⟨s, hs, hf⟩ := System.exists_reachableUnder (system checksumConfig)
    (.accept 0 0 [] true :: execs 0 5 ++ [.complete 2 0 [], .dequeue 1 2 0] ++ execs 1 2)
    (s := initialState 1 0) (c := releasesUnreferenced)
    (f := fun s => decide (∃ t ∈ s.threads, ∃ op ∈ t.code, op.releasing = true)) ⟨1, 0, rfl⟩
    (by decide +kernel)
  exact ⟨s, hs, of_decide_eq_true hf, releasesDrained_of_reachableUnder hs⟩

/-- **`RecvCompleted` releases with a receive posted.** A frame whose checksum is wrong makes it
post the next receive and then release the session. -/
theorem not_releasesDrained : ¬ ∀ s, (system checksumConfig).Reachable s → ReleasesDrained s := by
  intro hall
  obtain ⟨s, hs, hf⟩ := System.exists_reachable (system checksumConfig)
    (.accept 0 0 [] true :: execs 0 5 ++ [.complete 2 0 [119, 1, 0, 0, 9, 7], .dequeue 1 2 0] ++
      execs 1 5)
    (s := initialState 1 0) (f := fun s => decide (¬ ReleasesDrained s)) ⟨1, 0, rfl⟩
    (by decide +kernel)
  exact of_decide_eq_true hf (hall s hs)

end RIOServer

end DdingGameServer
