import DdingGameServer.RIOServer.Account
import DdingGameServer.RIOServer.Returns
import DdingGameServer.RIOServer.Work
/-!
# RIOServer — a server whose connections are closed comes to rest

Nothing comes in any more: no session is accepted, no sender calls, no packet handler answers, and
every request at the kernel ends without bytes, as where the clients have closed their connections.
What the threads and the kernel still do then is bounded by what was left to do, in any order
(`work_of_run`). And where there is nothing left for them, every session has been released: a
session in the map that nobody has begun to release has references, `ioCount` says which of them
(`Balanced`), and each is a request or an operation. So every maximal run ends with an empty map, no
thread in the middle of anything and the buffers of every session back in their pools
(`drained_of_reachable`). Whether a session was released once or twice plays no part, and the two
buffers that an `InitSession` has taken when it fails are lost and those of no session.
-/

namespace DdingGameServer

namespace RIOServer

variable {cfg : NetConfig} {s s' : State} {e : Event} {es : List Event} {sid : SessionId} {op : Op}
  {ok : Bool} {replies : List NetBuffer} {sh : Shared} {se : RIOSession} {res : IoPostError}

/-- A step with no byte from outside: one of a thread, or the end of a request without bytes. -/
def Event.drains (e : Event) : Prop := e.own = true ∧ e.price = 0

instance (e : Event) : Decidable e.drains := inferInstanceAs (Decidable (_ ∧ _))

/-! ## A release goes through -/

/-- Gives the session's buffers back. -/
def Op.returns : Op → Bool
  | .onSessionReleased => true
  | _ => false

instance : Op.Apart Op.returns := ⟨rfl, fun _ => rfl, rfl, fun _ => rfl⟩
instance : Op.Follows (fun _ => false) Op.returns := ⟨fun _ _ => rfl⟩
instance : Op.OncePerRelease Op.returns :=
  ⟨inferInstance, rfl, fun op h => by cases op <;> simp_all [Op.releasing, Op.returns]⟩

/-- **What a session is owed**, in every reachable state. -/
structure Pursued (s : State) : Prop where
  /-- No session is released before it is in the map. -/
  entering : ∀ sid, 0 < s.pending Op.emplaces sid → s.begun sid = 0
  /-- Nobody has begun to release it: it has references. -/
  counted : ∀ sid, sid ∈ s.shared.sessionMap ∨ 0 < s.pending Op.emplaces sid → s.begun sid = 0 →
    1 ≤ (s.session sid).ioCount
  /-- Somebody has, and goes on to take it out of the map, -/
  erased : ∀ sid ∈ s.shared.sessionMap, 0 < s.begun sid → 0 < s.pending Op.erases sid
  /-- and to give its buffers back. -/
  returned : ∀ sid, (s.session sid).holdsBuffers = true → 0 < s.begun sid →
    0 < s.pending Op.returns sid
  known : ∀ sid, (s.session sid).holdsBuffers = true → Known sid s
  /-- Every completion queue has a worker. -/
  manned : ∀ k < s.shared.numOfSessionInWorkerThread.length, .worker k ∈ s.threads.map Thread.role

theorem pursued_initial (numOfWorkerThread senders : ℕ) :
    Pursued (initialState numOfWorkerThread senders) := by
  have hbegun : ∀ sid, (initialState numOfWorkerThread senders).begun sid = 0 := fun sid => by
    rw [State.begun, pending_initial]
    rfl
  refine ⟨fun sid _ => hbegun sid, fun sid h _ => ?_, fun sid h => ?_, fun sid h => ?_,
    fun sid h => ?_, fun k hk => ?_⟩
  · rw [pending_initial] at h
    simp [initialState] at h
  · simp [initialState] at h
  · cases h
  · cases h
  · simp only [initialState, List.length_replicate] at hk
    simp only [initialState, List.cons_append, List.map_cons, List.map_append, List.map_map]
    refine List.mem_cons_of_mem _ (List.mem_append_left _ ?_)
    exact List.mem_map.mpr ⟨k, List.mem_range.mpr hk, rfl⟩

/-- A release that an operation begins pushes every part of its body. -/
theorem pending_of_begun (p : Op → Bool) [Op.OncePerRelease p] {o : Outcome}
    (ho : o = execOp cfg op ok replies sid s.shared (s.session sid) res)
    (hse : s'.session sid = o.session)
    (hp : ∀ p, s'.pending p sid + [op].countP p = s.pending p sid + o.code.countP p)
    (hop : p op = false) (hold : 0 < s.begun sid → 0 < s.pending p sid)
    (h : 0 < s'.begun sid) : 0 < s'.pending p sid := by
  have hb := begun_exec ho hse (hp Op.begins)
  have hq := hp p
  have hzero : [op].countP p = 0 := by simp [hop]
  rw [execOp_oncePerRelease ho] at hq
  split at hb <;> rename_i hstart <;> simp only [hstart] at hq
  · simp only [if_true] at hq
    omega
  · have := hold (by omega)
    omega

/-- A count that holds a reference reaches zero only where a release begins. -/
theorem one_le_execOp_ioCount {o : Outcome} (ho : o = execOp cfg op ok replies sid sh se res)
    (hstart : startsRelease op sid sh se = false) (h : 1 ≤ se.ioCount) : 1 ≤ o.session.ioCount := by
  subst ho
  unfold execOp
  repeat' split
  all_goals simp_all [startsRelease]
  all_goals omega

/-- A session that is in the map, or about to be, was so before. -/
theorem mem_or_emplaces_of_exec {i : ℕ} {t : Thread} {rest : List Op} {o : Outcome}
    (hi : s.threads[i]? = some t) (hsid : t.session = sid) (hcode : t.code = op :: rest)
    (ho : o = execOp cfg op ok replies sid s.shared (s.session sid) res)
    (hsh : s'.shared = o.shared)
    (hp : s'.pending Op.emplaces sid + [op].countP Op.emplaces =
      s.pending Op.emplaces sid + o.code.countP Op.emplaces)
    (h : sid ∈ s'.shared.sessionMap ∨ 0 < s'.pending Op.emplaces sid) :
    sid ∈ s.shared.sessionMap ∨ 0 < s.pending Op.emplaces sid := by
  rw [ho, execOp_emplaces] at hp
  rcases h with hmem | hpos
  · by_cases hop : op = .emplaceSession
    · exact .inr (pending_pos_of_next hi hsid hcode (by rw [hop]; rfl))
    · rw [hsh, ho, execOp_sessionMap, if_neg hop] at hmem
      split at hmem
      · exact .inl (Finset.mem_of_mem_erase hmem)
      · exact .inl hmem
  · exact .inr (by omega)

theorem pursued_step (h : Pursued s) (hrc : RefCounted s) (hen : Entering s) (hst : Staffed s)
    (hs : Step cfg s e s') : Pursued s' where
  entering sid hpos := by
    cases hs.alters sid with
    | kept hk =>
      rw [hk.begun_eq]
      exact h.entering sid (by rwa [hk.pending] at hpos)
    | entered threadId hid hnext hlt hse hsh hp =>
      rw [State.begun, hse, hp, hrc.pending_new hid]
      rfl
    | @executed s' i t op rest o ok replies hi hsid hcode ho hse hsh hp =>
      have he := hp Op.emplaces
      rw [ho, execOp_emplaces] at he
      have hpos' : 0 < s.pending Op.emplaces sid := by omega
      rw [begun_exec ho hse (hp Op.begins), h.entering sid hpos']
      rcases hen.op_eq hi hcode (hsid ▸ hpos') with ⟨rfl, -⟩ | ⟨rfl, -⟩
      · rfl
      · have hmem := hrc.notMem_of_emplace hi hcode
        rw [hsid] at hmem
        simp [startsRelease, hmem]
  counted sid hin hb := by
    cases hs.alters sid with
    | kept hk =>
      obtain ⟨posted, completed, hse⟩ := hk.session
      rw [hk.mem, hk.pending] at hin
      rw [hse]
      exact h.counted sid hin (hk.begun_eq ▸ hb)
    | entered threadId hid hnext hlt hse hsh hp =>
      rw [hse]
      exact le_rfl
    | @executed s' i t op rest o ok replies hi hsid hcode ho hse hsh hp =>
      have hbegun := begun_exec ho hse (hp Op.begins)
      have hstart : startsRelease op sid s.shared (s.session sid) = false := by
        by_contra hstart
        rw [Bool.not_eq_false] at hstart
        rw [if_pos hstart] at hbegun
        omega
      rw [hse]
      refine one_le_execOp_ioCount ho hstart (h.counted sid ?_ (by omega))
      exact mem_or_emplaces_of_exec hi hsid hcode ho hsh (hp Op.emplaces) hin
  erased sid hmem hb := by
    cases hs.alters sid with
    | kept hk =>
      rw [hk.pending]
      exact h.erased sid (hk.mem.mp hmem) (hk.begun_eq ▸ hb)
    | entered threadId hid hnext hlt hse hsh hp =>
      rw [hsh] at hmem
      exact absurd hmem (hrc.untouched sid (hid ▸ lt_newSessionId)).notMem
    | @executed s' i t op rest o ok replies hi hsid hcode ho hse hsh hp =>
      have hop : op ≠ .eraseSession := by
        rintro rfl
        rw [hsh, ho, execOp_sessionMap] at hmem
        simp at hmem
      refine pending_of_begun Op.erases ho hse hp
        (by cases op <;> first | rfl | exact absurd rfl hop) (fun hbegun => ?_) hb
      have hin := mem_or_emplaces_of_exec hi hsid hcode ho hsh (hp Op.emplaces) (.inl hmem)
      rcases hin with hm | hpos
      · exact h.erased sid hm hbegun
      · exact absurd (h.entering sid hpos) hbegun.ne'
  returned sid hholds hb := by
    cases hs.alters sid with
    | kept hk =>
      obtain ⟨posted, completed, hse⟩ := hk.session
      rw [hse] at hholds
      rw [hk.pending]
      exact h.returned sid hholds (hk.begun_eq ▸ hb)
    | entered threadId hid hnext hlt hse hsh hp =>
      rw [State.begun, hse, hp, hrc.pending_new hid] at hb
      exact absurd hb (lt_irrefl 0)
    | @executed s' i t op rest o ok replies hi hsid hcode ho hse hsh hp =>
      rw [hse, ho, execOp_holdsBuffers] at hholds
      split at hholds
      · cases hholds
      · rename_i hop
        exact pending_of_begun Op.returns ho hse hp
          (by cases op <;> first | rfl | exact absurd rfl hop) (h.returned sid hholds) hb
  known sid hholds := by
    cases hs.alters sid with
    | kept hk =>
      obtain ⟨posted, completed, hse⟩ := hk.session
      rw [hse] at hholds
      exact (h.known sid hholds).step (hst.erases sid) hs
    | entered threadId hid hnext hlt hse hsh hp =>
      refine ⟨.inr (.inl ?_), by rw [hse, hsh]; exact hlt⟩
      rw [hp]
      exact Nat.succ_pos _
    | @executed s' i t op rest o ok replies hi hsid hcode ho hse hsh hp =>
      rw [hse, ho, execOp_holdsBuffers] at hholds
      split at hholds
      · cases hholds
      · exact (h.known sid hholds).step (hst.erases sid) hs
  manned := by
    rw [hs.workers_length, hs.roles]
    exact h.manned

/-- **What is known of the work and of the releases in every reachable state.** -/
structure Supervised (s : State) : Prop where
  audited : Audited s
  unmade : Unmade s
  staffed : Staffed s
  pursued : Pursued s

theorem supervised_step (h : Supervised s) (hstep : step cfg s e = some s') : Supervised s' := by
  have hs := step_cases hstep
  obtain ⟨⟨hrc, has, hen, hba⟩, hun, hst, hpu⟩ := h
  exact ⟨⟨refCounted_step hrc hs, assignment_step has hstep, entering_step hen hrc hs,
    balanced_step hba hrc hen has hs⟩, unmade_step hun hrc hs, staffed_step hst hrc hs,
    pursued_step hpu hrc hen hst hs⟩

theorem supervised_of_reachable (h : (system cfg).Reachable s) : Supervised s := by
  refine System.ReachableUnder.invariant ?_ (fun s e s' hP _ hstep => supervised_step hP hstep) h
  rintro s ⟨numOfWorkerThread, senders, rfl⟩
  exact ⟨⟨refCounted_initial _ _, assignment_initial _ _, entering_initial _ _,
    balanced_initial _ _⟩, fun _ _ => rfl, staffed_initial _ _, pursued_initial _ _⟩

/-! ## At rest -/

/-- No such step is left. -/
def AtRest (cfg : NetConfig) (s : State) : Prop := ∀ e : Event, e.drains → step cfg s e = none

/-- A thread at rest has nothing to do, -/
theorem AtRest.code_eq_nil (h : AtRest cfg s) (hc : s.shared.crashed = false) {t : Thread}
    (ht : t ∈ s.threads) : t.code = [] := by
  obtain ⟨i, hi⟩ := List.mem_iff_getElem?.mp ht
  cases hcode : t.code with
  | nil => rfl
  | cons op rest =>
    have hnone := h (.exec i true []) ⟨rfl, rfl⟩
    simp [step, hc, hi, exec, hcode] at hnone

/-- the kernel works on no request, -/
theorem AtRest.posted_eq_nil (h : AtRest cfg s) (hc : s.shared.crashed = false) (sid : SessionId) :
    (s.session sid).posted = [] := by
  cases hposted : (s.session sid).posted with
  | nil => rfl
  | cons c posted =>
    have hnone := h (.complete sid 0 []) ⟨rfl, rfl⟩
    simp [step, hc, complete, hposted] at hnone

/-- and no completion waits for its worker. -/
theorem AtRest.completed_eq_nil (h : AtRest cfg s) (hc : s.shared.crashed = false)
    (hsup : Supervised s) (sid : SessionId) : (s.session sid).completed = [] := by
  cases hcompleted : (s.session sid).completed with
  | nil => rfl
  | cons c completed =>
    have hout : 0 < (s.session sid).outstanding fun _ => true :=
      outstanding_pos_of_completed (k := 0) (by rw [hcompleted]; rfl)
    have hknown := hsup.staffed.knownOutstanding sid hout
    obtain ⟨t, ht, hrole⟩ := List.mem_map.mp (hsup.pursued.manned _ hknown.threadId)
    obtain ⟨i, hi⟩ := List.mem_iff_getElem?.mp ht
    have hnone := h (.dequeue i sid 0) ⟨rfl, rfl⟩
    simp [step, hc, hi, dequeue, hrole, h.code_eq_nil hc ht, hcompleted] at hnone

/-- **The server has come to rest since `s₀`**, and every session is released. -/
structure Drained (s₀ s : State) : Prop where
  idle : ∀ t ∈ s.threads, t.code = []
  requests : ∀ sid, (s.session sid).posted = [] ∧ (s.session sid).completed = []
  sessionMap : s.shared.sessionMap = ∅
  /-- The buffers of the sessions are back in their pools. -/
  buffers : ∀ sid, (s₀.session sid).holdsBuffers = true → (s.session sid).holdsBuffers = false
  released : ∀ sid, (s₀.session sid).holdsBuffers = true → 0 < (s.session sid).releases

theorem AtRest.drained {s₀ : State} (h : AtRest cfg s) (hc : s.shared.crashed = false)
    (hsup : Supervised s)
    (hknown : ∀ sid, (s₀.session sid).holdsBuffers = true → Known sid s) : Drained s₀ s := by
  have hidle := fun t ht => h.code_eq_nil (t := t) hc ht
  have hpending : ∀ p sid, s.pending p sid = 0 := fun p sid =>
    tally_eq_zero.mpr fun t ht => Thread.owes_of_idle (hidle t ht)
  have hrequests := fun sid => And.intro (h.posted_eq_nil hc sid) (h.completed_eq_nil hc hsup sid)
  have hout : ∀ sid, (s.session sid).outstanding (fun _ => true) = 0 := fun sid => by
    simp [RIOSession.outstanding, hrequests sid]
  -- a session in the map that nobody releases has references, and there is nothing to hold them
  have hmap : ∀ sid, sid ∉ s.shared.sessionMap := by
    intro sid hmem
    rcases Nat.eq_zero_or_pos (s.begun sid) with hzero | hpos
    · have hcount := hsup.pursued.counted sid (.inl hmem) hzero
      have hlaw := hsup.audited.balanced.law sid (.inl hmem)
      rw [hpending, hpending, hout] at hlaw
      omega
    · have := hsup.pursued.erased sid hmem hpos
      rw [hpending] at this
      exact absurd this (lt_irrefl 0)
  have hbegun : ∀ sid, Known sid s → 0 < s.begun sid := by
    intro sid hk
    rcases hk.known with hmem | hem | hb
    · exact absurd hmem (hmap sid)
    · rw [hpending] at hem
      exact absurd hem (lt_irrefl 0)
    · exact hb
  refine ⟨hidle, hrequests, Finset.eq_empty_of_forall_notMem hmap, fun sid _ => ?_,
    fun sid hsid => ?_⟩
  · by_contra hholds
    rw [Bool.not_eq_false] at hholds
    have := hsup.pursued.returned sid hholds (hbegun sid (hsup.pursued.known sid hholds))
    rw [hpending] at this
    exact absurd this (lt_irrefl 0)
  · have hb := hbegun sid (hknown sid hsid)
    rw [State.begun, hpending, Nat.add_zero] at hb
    exact hb

/-- A run of such steps has no price. -/
theorem countP_own_of_drains (hes : ∀ e ∈ es, e.drains) :
    es.countP Event.own = es.length ∧ tally Event.price es = 0 :=
  ⟨List.countP_eq_length.mpr fun e he => (hes e he).1, tally_eq_zero.mpr fun e he => (hes e he).2⟩

/-- Such a run is bounded by the work that was left. -/
theorem length_le_work (hsup : Supervised s) (hes : ∀ e ∈ es, e.drains)
    (hr : (system cfg).run s es = some s') : es.length + s'.work ≤ s.work := by
  obtain ⟨hown, hprice⟩ := countP_own_of_drains hes
  have hwork := (work_of_run hsup.unmade hsup.audited.refCounted hr).2
  omega

/-- What is known of a session goes on being known along a run. -/
theorem supervised_of_run (hsup : Supervised s) (hr : (system cfg).run s es = some s') :
    Supervised s' ∧ ∀ sid, (s.session sid).holdsBuffers = true → Known sid s' := by
  have hmeets : (system cfg).Meets (fun _ _ => True) s es := System.meets_true
  refine hmeets.invariant
    (P := fun s' => Supervised s' ∧ ∀ sid, (s.session sid).holdsBuffers = true → Known sid s')
    (fun t e t' hP _ ht => ?_) hr ⟨hsup, hsup.pursued.known⟩
  obtain ⟨hsup', hknown⟩ := hP
  exact ⟨supervised_step hsup' ht, fun sid hsid =>
    (hknown sid hsid).step (hsup'.staffed.erases sid) (step_cases ht)⟩

/-- **A server whose connections are closed comes to rest, with every session released.** From every
reachable state the steps of the threads, with every request ending without bytes, lead to rest;
there are never more of them than work was left, in whatever order they come; and where they come to
rest, unless the server has crashed, no session is in the map, no thread is in the middle of
anything, no request is outstanding, and every session that had its buffers was released and its
buffers are back. -/
theorem drained_of_reachable (h : (system cfg).Reachable s) :
    (system cfg).Leads Event.drains (AtRest cfg) s ∧
      ∀ es s', (∀ e ∈ es, e.drains) → (system cfg).run s es = some s' →
        es.length ≤ s.work ∧ (AtRest cfg s' → s'.shared.crashed = true ∨ Drained s s') := by
  have hsup := supervised_of_reachable h
  refine ⟨System.leads_of_measure (I := Supervised) State.work (fun t ht hrest => ?_) hsup,
    fun es s' hes hr => ⟨?_, fun hrest => ?_⟩⟩
  · obtain ⟨e, he, hne⟩ : ∃ e : Event, e.drains ∧ step cfg t e ≠ none := by
      by_contra hcon
      push Not at hcon
      exact hrest hcon
    obtain ⟨t', ht'⟩ := Option.ne_none_iff_exists'.mp hne
    have hr : (system cfg).run t [e] = some t' := System.run_cons_eq_some.mpr ⟨t', ht', rfl⟩
    have hlt := length_le_work ht (List.forall_mem_singleton.mpr he) hr
    rw [List.length_singleton] at hlt
    exact ⟨e, t', he, ht', supervised_step ht ht', .inr (by omega)⟩
  · have := length_le_work hsup hes hr
    omega
  · obtain ⟨hsup', hknown⟩ := supervised_of_run hsup hr
    cases hc : s'.shared.crashed with
    | true => exact .inl rfl
    | false => exact .inr (hrest.drained hc hsup' hknown)

/-- A client whose packet is being answered closes its connection: the server comes to rest within
77 steps. -/
theorem drained_answering : ∃ s, (system checksumConfig).Reachable s ∧
    (2 ∈ s.shared.sessionMap ∧ (s.session 2).holdsBuffers = true ∧ s.work = 77) ∧
    ∃ es s', es.length ≤ 77 ∧ (system checksumConfig).run s es = some s' ∧
      AtRest checksumConfig s' ∧ (s'.shared.crashed = true ∨ Drained s s') := by
  obtain ⟨s, hreach, hs⟩ := System.exists_reachable (system checksumConfig)
    (.accept 0 0 [] true :: execs 0 7 ++ [.complete 2 0 [119, 1, 0, 0, 7, 7], .dequeue 1 2 0] ++
      execs 1 2 ++ [.exec 1 true [[1]]]) (s := initialState 1 0)
    (f := fun s => 2 ∈ s.shared.sessionMap ∧ (s.session 2).holdsBuffers = true ∧ s.work = 77)
    ⟨1, 0, rfl⟩ (by decide +kernel)
  have hs := of_decide_eq_true hs
  obtain ⟨hleads, hall⟩ := drained_of_reachable hreach
  obtain ⟨es, s', hes, hr, hrest⟩ := hleads
  obtain ⟨hle, hdrained⟩ := hall es s' hes hr
  exact ⟨s, hreach, hs, es, s', hs.2.2 ▸ hle, hr, hrest, hdrained hrest⟩

end RIOServer

end DdingGameServer
