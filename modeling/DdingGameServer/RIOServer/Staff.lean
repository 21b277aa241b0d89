import DdingGameServer.RIOServer.RefCount
/-!
# RIOServer — which thread works on which session

What holds of the threads in every reachable state, whatever the kernel answers: a completion queue
has one worker, a completion of a session is handled by that session's worker and one at a time,
and a thread only works on a session that exists. None of it depends on how often the session has
been released.
-/

namespace DdingGameServer

namespace RIOServer

variable {cfg : NetConfig} {s s' : State} {e : Event} {sid : SessionId} {p : Op → Bool} {op : Op}
  {rest : List Op} {ok : Bool} {replies : List NetBuffer} {sh : Shared} {se : RIOSession}
  {res : IoPostError}

/-- The stages of a completion up to the decision to release. -/
def Op.stages : Op → Bool
  | .getIOCompletedContext _ _ | .invalidIOCompleted _ | .recvCompleted _ | .releaseOnError _ =>
    true
  | _ => false

instance : Op.Apart Op.stages := ⟨rfl, fun _ => rfl, rfl, fun _ => rfl⟩

/-- A completion has one stage at a time. -/
theorem execOp_stages {o : Outcome} (ho : o = execOp cfg op ok replies sid sh se res) :
    o.code.countP Op.stages ≤ [op].countP Op.stages := by
  subst ho
  unfold execOp
  repeat' split
  all_goals
    simp [Op.stages, sendPost, recvPost, releaseSession, enterNewSession, List.countP_append,
      List.countP_cons]

/-- A session that exists: it is in the map, or about to be put there, or was released. -/
structure Known (sid : SessionId) (s : State) : Prop where
  known : sid ∈ s.shared.sessionMap ∨ 0 < s.pending Op.emplaces sid ∨ 0 < s.begun sid
  threadId : (s.session sid).threadId < s.shared.numOfSessionInWorkerThread.length

/-- **Which threads work on which sessions**, in every reachable state. -/
structure Staffed (s : State) : Prop where
  /-- A completion queue has one worker. -/
  workers : (s.threads.map Thread.role).Pairwise fun a b => ∀ k, a = .worker k → b ≠ .worker k
  /-- Completions are handled by the session's worker. -/
  staged : ∀ t ∈ s.threads, ∀ op ∈ t.code, op.stages = true →
    t.role = .worker (s.session t.session).threadId
  oneStage : ∀ sid, s.pending Op.stages sid ≤ 1
  erases : ∀ sid, s.pending Op.erases sid ≤ s.begun sid
  knownThread : ∀ t ∈ s.threads, t.code ≠ [] ∨ t.session ≠ 0 → Known t.session s
  knownOutstanding : ∀ sid, 0 < (s.session sid).outstanding (fun _ => true) → Known sid s
  knownMem : ∀ sid ∈ s.shared.sessionMap, Known sid s

/-- Two workers of one completion queue are one thread. -/
theorem Staffed.index_eq (h : Staffed s) {i j k : ℕ} {t u : Thread} (hi : s.threads[i]? = some t)
    (hj : s.threads[j]? = some u) (ht : t.role = .worker k) (hu : u.role = .worker k) : i = j := by
  obtain ⟨hi', rfl⟩ := List.getElem?_eq_some_iff.mp hi
  obtain ⟨hj', rfl⟩ := List.getElem?_eq_some_iff.mp hj
  have hw := List.pairwise_iff_getElem.mp h.workers
  rcases Nat.lt_trichotomy i j with hlt | rfl | hlt
  · exact absurd (by rwa [List.getElem_map]) (hw i j (by simpa using hi') (by simpa using hj') hlt
      k (by rwa [List.getElem_map]))
  · rfl
  · exact absurd (by rwa [List.getElem_map]) (hw j i (by simpa using hj') (by simpa using hi') hlt
      k (by rwa [List.getElem_map]))

theorem Staffed.eq_of_role (h : Staffed s) {k : ℕ} {t u : Thread} (ht : t ∈ s.threads)
    (hu : u ∈ s.threads) (hrole : t.role = .worker k) (hrole' : u.role = .worker k) : t = u := by
  obtain ⟨i, hi⟩ := List.mem_iff_getElem?.mp ht
  obtain ⟨j, hj⟩ := List.mem_iff_getElem?.mp hu
  obtain rfl := h.index_eq hi hj hrole hrole'
  exact Option.some.inj (hi.symm.trans hj)

theorem staffed_initial (numOfWorkerThread senders : ℕ) :
    Staffed (initialState numOfWorkerThread senders) := by
  refine ⟨?_, fun t ht op hop => ?_, fun sid => ?_, fun sid => ?_, fun t ht h => ?_,
    fun sid h => ?_, fun sid h => ?_⟩
  · have hworkers : ((List.range numOfWorkerThread).map Role.worker).Pairwise
        fun a b => ∀ k, a = .worker k → b ≠ .worker k := by
      refine List.pairwise_map.mpr (List.nodup_range.imp fun hne k ha hb => hne ?_)
      rw [Role.worker.inj ha, Role.worker.inj hb]
    simpa [initialState, Thread.idle, Function.comp_def, List.pairwise_append,
      List.pairwise_replicate] using hworkers
  · rw [(idle_initial ht).1] at hop
    cases hop
  · rw [pending_initial]
    exact Nat.zero_le _
  · rw [pending_initial]
    exact Nat.zero_le _
  · rw [(idle_initial ht).1, (idle_initial ht).2] at h
    simp at h
  · exact absurd h (lt_irrefl 0)
  · simp [initialState] at h

/-- A step replaces one thread by one of the same role, or none. -/
theorem Step.roles (h : Step cfg s e s') :
    s'.threads.map Thread.role = s.threads.map Thread.role := by
  have hset : ∀ {i : ℕ} {t u : Thread}, s.threads[i]? = some t → u.role = t.role →
      (s.threads.set i u).map Thread.role = s.threads.map Thread.role := by
    intro i t u hi hu
    obtain ⟨hlt, rfl⟩ := List.getElem?_eq_some_iff.mp hi
    have hlt' : i < (s.threads.map Thread.role).length := by simpa using hlt
    rw [List.map_set, hu, ← List.getElem_map Thread.role (h := hlt'), List.set_getElem_self]
  cases h with
  | acceptFailed i threadId => rfl
  | accepted hi hcode hid => exact hset hi rfl
  | gotSession hi hcode hmem => exact hset hi rfl
  | called hi hcode hne hcall => exact hset hi rfl
  | completed data hc => rfl
  | dequeued hi hcode hrole hc => exact hset hi rfl
  | executed ok replies hi hcode ho => exact hset hi rfl

/-- A session keeps its worker. -/
theorem Step.threadId (h : Step cfg s e s') (hsid : sid ≤ s.nextSessionId) :
    (s'.session sid).threadId = (s.session sid).threadId := by
  cases h.alters sid with
  | kept hk =>
    obtain ⟨posted, completed, hse⟩ := hk.session
    rw [hse]
  | entered threadId hid hnext _ hse hsh hp =>
    exact absurd (hid ▸ hsid) (Nat.not_le.mpr lt_newSessionId)
  | executed ok replies hi hsid hcode ho hse hsh hp => rw [hse, ho, execOp_threadId]

/-- The number of workers is fixed. -/
theorem Step.workers_length (h : Step cfg s e s') :
    s'.shared.numOfSessionInWorkerThread.length = s.shared.numOfSessionInWorkerThread.length := by
  cases h with
  | executed ok replies hi hcode ho =>
    subst ho
    unfold execOp
    repeat' split
    all_goals simp [Shared.freeContext, Shared.allocContext]
  | _ => rfl

/-- A session in the map stays there unless the operation erases it. -/
theorem mem_execOp_sessionMap {o : Outcome} {op : Op} {ok : Bool} {replies : List NetBuffer}
    {sh : Shared} {se : RIOSession} {res : IoPostError}
    (ho : o = execOp cfg op ok replies sid sh se res) (hop : op ≠ .eraseSession)
    (hmem : sid ∈ sh.sessionMap) : sid ∈ o.shared.sessionMap := by
  rw [ho, execOp_sessionMap, if_neg hop]
  split
  · exact Finset.mem_insert_of_mem hmem
  · exact hmem

/-- **A session that exists goes on existing.** -/
theorem Known.step (h : Known sid s) (herases : s.pending Op.erases sid ≤ s.begun sid)
    (hs : Step cfg s e s') : Known sid s' := by
  have hlt := h.threadId
  rw [← hs.workers_length] at hlt
  cases hs.alters sid with
  | kept hk =>
    obtain ⟨posted, completed, hse⟩ := hk.session
    refine ⟨?_, by rwa [hse]⟩
    rw [hk.mem, hk.pending, hk.begun_eq]
    exact h.known
  | entered threadId hid hnext hlt' hse hsh hp =>
    refine ⟨.inr (.inl ?_), by rw [hse, hsh]; exact hlt'⟩
    rw [hp]
    exact Nat.succ_pos _
  | @executed s' i t op rest o ok replies hi hsid hcode ho hse hsh hp =>
    have hb := begun_exec ho hse (hp Op.begins)
    refine ⟨?_, by rw [hse, ho, execOp_threadId]; exact hlt⟩
    rw [hsh]
    rcases h.known with hmem | hem | hbeg
    · by_cases hop : op = .eraseSession
      · subst hop
        have hpos : 0 < s.pending Op.erases sid := pending_pos_of_next hi hsid hcode rfl
        exact .inr (.inr (by omega))
      · exact .inl (mem_execOp_sessionMap ho hop hmem)
    · by_cases hop : op = .emplaceSession
      · left
        rw [ho, execOp_sessionMap, if_pos hop]
        exact Finset.mem_insert_self _ _
      · have he := hp Op.emplaces
        have hzero : [op].countP Op.emplaces = 0 := by
          cases op <;> first | rfl | exact absurd rfl hop
        rw [ho, execOp_emplaces] at he
        exact .inr (.inl (by omega))
    · exact .inr (.inr (by omega))

theorem staffed_step (h : Staffed s) (hrc : RefCounted s) (hs : Step cfg s e s') : Staffed s' where
  workers := by rw [hs.roles]; exact h.workers
  staged := by
    have hold : ∀ t ∈ s.threads, ∀ op ∈ t.code, op.stages = true →
        t.role = .worker (s'.session t.session).threadId := by
      intro t ht op hop hst
      rw [hs.threadId (hrc.drawn t ht)]
      exact h.staged t ht op hop hst
    have hnone : ∀ {code : List Op} {r : Role} {sid : SessionId}, code.countP Op.stages = 0 →
        ∀ op ∈ code, op.stages = true → r = .worker (s'.session sid).threadId := by
      intro code r sid hzero op hop hst
      exact absurd hst (List.countP_eq_zero.mp hzero op hop)
    cases hs with
    | acceptFailed i threadId => exact hold
    | accepted hi hcode hid => exact forall_mem_set hold (hnone rfl)
    | gotSession hi hcode hmem => exact forall_mem_set hold (hnone (by rw [hcode]; rfl))
    | called hi hcode hne hcall => exact forall_mem_set hold (hnone hcall.countP_eq_zero)
    | completed data hc => exact hold
    | @dequeued i t sid k c hi hcode hrole hc =>
      refine forall_mem_set hold fun op hop hst => ?_
      rw [hrole]
      exact congrArg Role.worker (by simp [State.setThread, State.setSession])
    | @executed i t op rest o ok replies hi hcode ho =>
      refine forall_mem_set hold fun op' hop' hst => ?_
      have hrole : ∃ op₀ ∈ t.code, op₀.stages = true := by
        rcases List.mem_append.mp hop' with hnew | hold'
        · have hle := execOp_stages ho
          have hpos : 0 < o.code.countP Op.stages := List.countP_pos_iff.mpr ⟨op', hnew, hst⟩
          obtain ⟨op₀, hop₀, hst₀⟩ := List.countP_pos_iff.mp (hpos.trans_le hle)
          exact ⟨op₀, by rw [hcode, List.mem_singleton.mp hop₀]; exact List.mem_cons_self, hst₀⟩
        · exact ⟨op', by rw [hcode]; exact List.mem_cons_of_mem _ hold', hst⟩
      obtain ⟨op₀, hop₀, hst₀⟩ := hrole
      exact hold t (List.mem_of_getElem? hi) op₀ hop₀ hst₀
  oneStage sid := by
    have hone := h.oneStage sid
    cases hs.moves sid with
    | unmoved hse hmem hp => rw [hp]; exact hone
    | entered threadId hid hnext _ hse hsh hp =>
      rw [hp, hrc.pending_new hid]
      exact Nat.zero_le _
    | called _ _ hc hse hsh hp => rw [hc.pending_eq hp]; exact hone
    | completed data hc hse hsh hp => rw [hp]; exact hone
    | @dequeued s' i k t c hi hcode hrole hc hse hsh hp =>
      -- the session's worker is idle, so no completion of the session is being handled
      have hzero : s.pending Op.stages sid = 0 := by
        by_contra hpos
        obtain ⟨u, hu, husid, op, hop, hst⟩ := exists_of_pending_pos (Nat.pos_of_ne_zero hpos)
        have hurole := h.staged u hu op hop hst
        rw [husid] at hurole
        obtain rfl := h.eq_of_role (List.mem_of_getElem? hi) hu hrole hurole
        rw [hcode] at hop
        cases hop
      rw [hp, hzero]
      exact le_rfl
    | @executed s' i t op rest o ok replies hi hsid hcode ho hse hsh hp =>
      have hle := execOp_stages ho
      have hst := hp Op.stages
      omega
  erases sid := by
    have hle := h.erases sid
    cases hs.alters sid with
    | kept hk => rw [hk.pending, hk.begun_eq]; exact hle
    | entered threadId hid hnext _ hse hsh hp =>
      rw [hp, hrc.pending_new hid]
      exact Nat.zero_le _
    | @executed s' i t op rest o ok replies hi hsid hcode ho hse hsh hp =>
      have hb := begun_exec ho hse (hp Op.begins)
      have he := hp Op.erases
      rw [execOp_oncePerRelease ho] at he
      omega
  knownThread := by
    have hkeep : ∀ {sid}, Known sid s → Known sid s' := fun hk => hk.step (h.erases _) hs
    have hold := fun t ht hne => hkeep (h.knownThread t ht hne)
    cases hs with
    | acceptFailed i threadId => exact hold
    | @accepted i threadId ring t hi hcode hid =>
      refine forall_mem_set hold fun _ => ⟨.inr (.inl ?_), ?_⟩
      · have hmem : Op.emplaceSession ∈ makeNewSession := by simp [makeNewSession]
        exact pending_pos (t := { t with session := s.newSessionId, code := makeNewSession })
          (List.mem_set (List.getElem?_eq_some_iff.mp hi).1 _) hmem rfl
      · simpa [State.setThread, State.setSession, initSession, RIOSession.new] using hid
    | gotSession hi hcode hmem =>
      exact forall_mem_set hold fun _ => hkeep (h.knownMem _ hmem)
    | @called i t e code hi hcode hne hcall =>
      exact forall_mem_set hold fun _ => hold t (List.mem_of_getElem? hi) (.inr hne)
    | completed data hc => exact hold
    | dequeued hi hcode hrole hc =>
      exact forall_mem_set hold fun _ =>
        hkeep (h.knownOutstanding _ (outstanding_pos_of_completed hc))
    | @executed i t op rest o ok replies hi hcode ho =>
      exact forall_mem_set hold fun _ =>
        hold t (List.mem_of_getElem? hi) (.inl (by rw [hcode]; exact List.cons_ne_nil _ _))
  knownOutstanding sid hpos := by
    have hkeep : ∀ {sid}, Known sid s → Known sid s' := fun hk => hk.step (h.erases _) hs
    cases hs.alters sid with
    | kept hk => exact hkeep (h.knownOutstanding sid (hpos.trans_le (hk.outstanding_le _)))
    | entered threadId hid hnext _ hse hsh hp =>
      rw [hse] at hpos
      exact absurd hpos (lt_irrefl 0)
    | executed ok replies hi hsid hcode ho hse hsh hp =>
      have hk := h.knownThread _ (List.mem_of_getElem? hi)
        (.inl (by rw [hcode]; exact List.cons_ne_nil _ _))
      exact hkeep (hsid ▸ hk)
  knownMem sid hmem' := by
    have hkeep : ∀ {sid}, Known sid s → Known sid s' := fun hk => hk.step (h.erases _) hs
    cases hs.alters sid with
    | kept hk => exact hkeep (h.knownMem sid (hk.mem.mp hmem'))
    | entered threadId hid hnext _ hse hsh hp =>
      rw [hsh] at hmem'
      exact hkeep (h.knownMem sid hmem')
    | executed ok replies hi hsid hcode ho hse hsh hp =>
      have hk := h.knownThread _ (List.mem_of_getElem? hi)
        (.inl (by rw [hcode]; exact List.cons_ne_nil _ _))
      exact hkeep (hsid ▸ hk)

end RIOServer

end DdingGameServer
