import Mathlib.Data.Finset.Card
import Mathlib.Data.List.Perm.Basic
import DdingGameServer.Common.History
import DdingGameServer.RIOServer.Account
/-!
# RIOServer — the objects of `contextPool`

A context is allocated for a request and travels with it: from `RecvPost` or `SendPost` to the
kernel, back to a worker with the completion, and into the pool at one of the exits of `Worker`.
Three exits of the two post functions lose it: a `RIOReceive` or a `RIOSend` that fails, and a
send stream with nothing in it. `ContextLaw` is the balance of a whole run with these losses
written down; without them every allocated context is with a request or a thread.
-/

namespace DdingGameServer

namespace RIOServer

variable {cfg : NetConfig} {s s' : State} {e : Event} {es : List Event} {sid : SessionId} {op : Op}
  {ok : Bool} {replies : List NetBuffer} {sh : Shared} {se : RIOSession} {res : IoPostError}
  {o : Outcome} {k : ℕ}

/-! ## Who holds a context -/

/-- The context an operation was given. -/
def Op.contexts : Op → List ℕ
  | .getIOCompletedContext c _ | .invalidIOCompleted c | .workerTail c => [c.context]
  | .streamLoop context _ _ _ | .countSend context _ | .rioSend context _ => [context]
  | _ => []

/-- The contexts of a session's requests, from the post to the dequeue of the completion. -/
def RIOSession.contexts (se : RIOSession) : List ℕ :=
  se.posted.map IOContext.context ++ se.completed.map fun c => c.1.context

/-- The contexts of all outstanding requests. -/
def State.requestContexts (s : State) : List ℕ :=
  (List.range (s.nextSessionId + 1)).flatMap fun sid => (s.session sid).contexts

/-- The contexts a thread holds. -/
def Thread.contexts (t : Thread) : List ℕ := t.code.flatMap Op.contexts

/-- The contexts held by threads inside `RecvPost`, `SendPost` or the handling of a completion. -/
def State.heldContexts (s : State) : List ℕ := s.threads.flatMap Thread.contexts

/-- The context an operation takes from the pool. -/
def allocatedContexts (op : Op) (sh : Shared) : List ℕ :=
  match op with
  | .rioReceive | .makeSendStream => [sh.nextContext]
  | _ => []

/-- The context an operation gives to `contextPool.Free`. -/
def freedContexts (op : Op) (sid : SessionId) (sh : Shared) (se : RIOSession) (res : IoPostError) :
    List ℕ :=
  match op with
  | .getIOCompletedContext c data =>
    if sid ∈ sh.sessionMap then if data = [] ∨ se.ioCancle = true then [c.context] else []
    else [c.context]
  | .invalidIOCompleted c => [c.context]
  | .workerTail c => if res = .invalidOperationType then [] else [c.context]
  | _ => []

/-- The context an operation loses: `RIOReceive` or `RIOSend` fails, or the stream is empty. -/
def leakedContexts (op : Op) (ok : Bool) (sh : Shared) : List ℕ :=
  match op with
  | .rioReceive => if ok then [] else [sh.nextContext]
  | .rioSend context _ => if ok then [] else [context]
  | .streamLoop context 0 0 _ => [context]
  | _ => []

/-- The contexts an event frees. -/
def freedBy (s : State) (e : Event) : List ℕ :=
  match s.executing e with
  | some (t, op, _) => freedContexts op t.session s.shared (s.session t.session) t.result
  | none => []

/-- The contexts it loses. -/
def leakedBy (s : State) (e : Event) : List ℕ :=
  match e, s.executing e with
  | .exec _ ok _, some (_, op, _) => leakedContexts op ok s.shared
  | _, _ => []

/-- What was freed and what was lost in a run. -/
structure ContextHistory where
  freed : List ℕ
  leaked : List ℕ

def ContextHistory.start : ContextHistory := ⟨[], []⟩

/-- The history after an event. -/
def ContextHistory.record (h : ContextHistory) (s : State) (e : Event) : ContextHistory where
  freed := h.freed ++ freedBy s e
  leaked := h.leaked ++ leakedBy s e

/-- The server with the history of its contexts. -/
def contextSystem (cfg : NetConfig) : System (State × ContextHistory) Event :=
  (system cfg).recorded .start ContextHistory.record

/-- **Contexts are conserved**: the allocated ones are those of the outstanding requests and those
held by threads, and none was freed twice. -/
structure ContextsConserved (s : State) (h : ContextHistory) : Prop where
  card_eq : s.shared.contextPool.card = s.requestContexts.length + s.heldContexts.length
  freedOnce : h.freed.Nodup

/-- The step loses no context: no `RIOReceive` and no `RIOSend` fails, and no send stream is
empty. -/
def KeepsContext (s : State) (e : Event) : Prop := leakedBy s e = []

instance : Decidable (KeepsContext s e) := inferInstanceAs (Decidable (leakedBy s e = []))

/-! ## One operation -/

/-- Handlers and the sends they make begin without a context. -/
@[simp] theorem contexts_onRecvPacket {packets : List (List UInt8)} :
    (packets.map Op.onRecvPacket).flatMap Op.contexts = [] := by
  simp [List.flatMap_eq_nil_iff, Op.contexts]

@[simp] theorem contexts_sendPacket {packet : NetBuffer} :
    (sendPacket packet).flatMap Op.contexts = [] := rfl

@[simp] theorem contexts_replies : (replies.flatMap sendPacket).flatMap Op.contexts = [] := by
  simp [List.flatMap_assoc]

/-- What an operation does to the pool. -/
theorem execOp_contextPool (ho : o = execOp cfg op ok replies sid sh se res) :
    (k ∈ o.shared.contextPool ↔ (k ∈ sh.contextPool ∨ k ∈ allocatedContexts op sh) ∧
        k ∉ freedContexts op sid sh se res) ∧
      o.shared.nextContext = sh.nextContext + (allocatedContexts op sh).length := by
  subst ho
  unfold execOp
  repeat' split
  all_goals
    simp_all [allocatedContexts, freedContexts, Shared.freeContext, Shared.allocContext]
  all_goals tauto

/-- **An operation hands its contexts on**, frees them or loses them. -/
theorem execOp_contexts (ho : o = execOp cfg op ok replies sid sh se res)
    (hcrash : o.shared.crashed = false) (hres : res ≠ .invalidOperationType) :
    o.session.contexts.count k + (o.code.flatMap Op.contexts).count k +
        (freedContexts op sid sh se res).count k + (leakedContexts op ok sh).count k =
      se.contexts.count k + op.contexts.count k + (allocatedContexts op sh).count k := by
  subst ho
  unfold execOp at hcrash ⊢
  repeat' split
  all_goals
    simp_all [allocatedContexts, freedContexts, leakedContexts, Op.contexts, RIOSession.contexts,
      sendPost, recvPost, releaseSession, enterNewSession, List.count_append, List.count_cons]
  all_goals omega

/-! ## What one step moves -/

/-- The contexts of the requests and of the threads. -/
def State.contextCount (k : ℕ) (s : State) : ℕ :=
  s.requestContexts.count k + s.heldContexts.count k

theorem count_heldContexts : s.heldContexts.count k =
    tally (fun t => t.contexts.count k) s.threads :=
  count_flatMap_eq_tally

theorem count_requestContexts : s.requestContexts.count k =
    tally (fun sid => (s.session sid).contexts.count k) (List.range (s.nextSessionId + 1)) :=
  count_flatMap_eq_tally

/-- A session without requests has no context. -/
theorem contexts_eq_nil (h : ∀ q, se.outstanding q = 0) : se.contexts = [] := by
  have hzero := h fun _ => true
  simp only [RIOSession.outstanding, List.countP_true, Nat.add_eq_zero_iff,
    List.length_eq_zero_iff] at hzero
  rw [RIOSession.contexts, hzero.1, hzero.2]
  rfl

/-- A session added without requests. -/
theorem requestContexts_of_new (hnext : s'.nextSessionId = s.newSessionId)
    (hnew : (s'.session s.newSessionId).contexts = [])
    (h : ∀ sid', sid' ≠ s.newSessionId → s'.session sid' = s.session sid') :
    s'.requestContexts = s.requestContexts := by
  have hold : ∀ sid' ∈ List.range (s.nextSessionId + 1),
      (s'.session sid').contexts = (s.session sid').contexts := by
    intro sid' hmem
    rw [h sid' (Nat.ne_of_lt (List.mem_range.mp hmem))]
  rw [State.requestContexts, hnext, State.newSessionId, List.range_succ, List.flatMap_append,
    List.flatMap_singleton, ← State.newSessionId, hnew, List.append_nil]
  exact List.flatMap_congr hold

/-- One session changed. -/
theorem count_requestContexts_of_session (hnext : s'.nextSessionId = s.nextSessionId)
    (hsid : sid ≤ s.nextSessionId) (h : ∀ sid', sid' ≠ sid → s'.session sid' = s.session sid') :
    s'.requestContexts.count k + (s.session sid).contexts.count k =
      s.requestContexts.count k + (s'.session sid).contexts.count k := by
  have hmem : sid ∈ List.range (s.nextSessionId + 1) := List.mem_range.mpr (Nat.lt_succ_of_le hsid)
  rw [count_requestContexts, count_requestContexts, hnext]
  refine tally_change (f := fun sid => (s.session sid).contexts.count k)
    (g := fun sid => (s'.session sid).contexts.count k) List.nodup_range hmem fun sid' _ hne => ?_
  rw [h sid' hne]

theorem count_requestContexts_setSession (hsid : sid ≤ s.nextSessionId) (se : RIOSession) :
    (s.setSession sid se).requestContexts.count k + (s.session sid).contexts.count k =
      s.requestContexts.count k + se.contexts.count k := by
  have hnext : (s.setSession sid se).nextSessionId = s.nextSessionId := rfl
  have hself : (s.setSession sid se).session sid = se := Function.update_self _ _ _
  have hset := count_requestContexts_of_session (k := k) hnext hsid
    fun sid' hne => Function.update_of_ne hne _ _
  rwa [hself] at hset

/-- One thread changed. -/
theorem count_heldContexts_set {i : ℕ} {t u : Thread} (hi : s.threads[i]? = some t)
    (h : s'.threads = s.threads.set i u) :
    s'.heldContexts.count k + t.contexts.count k = s.heldContexts.count k + u.contexts.count k := by
  rw [count_heldContexts, count_heldContexts, h]
  exact tally_set hi

/-- **A step moves the count by what it does to one session and one thread.** -/
theorem contextCount_set {i : ℕ} {t u : Thread} (hi : s.threads[i]? = some t)
    (hthreads : s'.threads = s.threads.set i u) (hnext : s'.nextSessionId = s.nextSessionId)
    (hsid : sid ≤ s.nextSessionId) (h : ∀ sid', sid' ≠ sid → s'.session sid' = s.session sid') :
    s'.contextCount k + ((s.session sid).contexts.count k + t.contexts.count k) =
      s.contextCount k + ((s'.session sid).contexts.count k + u.contexts.count k) := by
  have hreq := count_requestContexts_of_session (k := k) hnext hsid h
  have hheld := count_heldContexts_set (k := k) hi hthreads
  unfold State.contextCount
  omega

/-- So it leaves it where these two balance. -/
theorem contextCount_of_balance {i : ℕ} {t u : Thread} (hi : s.threads[i]? = some t)
    (hthreads : s'.threads = s.threads.set i u) (hnext : s'.nextSessionId = s.nextSessionId)
    (hsid : sid ≤ s.nextSessionId) (h : ∀ sid', sid' ≠ sid → s'.session sid' = s.session sid')
    (hbal : (s'.session sid).contexts.count k + u.contexts.count k =
      (s.session sid).contexts.count k + t.contexts.count k) :
    s'.contextCount k = s.contextCount k := by
  have := contextCount_set (k := k) hi hthreads hnext hsid h
  omega

/-- A completion keeps its context on its way to the queue. -/
theorem contexts_complete {k' : ℕ} {c : IOContext} {data : List UInt8}
    (h : se.posted[k']? = some c) :
    { se with posted := se.posted.eraseIdx k'
              completed := se.completed ++ [(c, data)] : RIOSession }.contexts.count k =
      se.contexts.count k := by
  have hpost := (List.getElem_cons_eraseIdx_perm (List.getElem?_eq_some_iff.mp h).1).map
    IOContext.context
  rw [(List.getElem?_eq_some_iff.mp h).2] at hpost
  have hcount := hpost.count_eq k
  simp only [RIOSession.contexts, List.map_append, List.map_cons, List.map_nil, List.count_append,
    List.count_cons, List.count_nil] at hcount ⊢
  omega

/-- And from the queue to the worker. -/
theorem contexts_dequeue {k' : ℕ} {c : IOContext × List UInt8} (h : se.completed[k']? = some c) :
    { se with completed := se.completed.eraseIdx k' : RIOSession }.contexts.count k +
      [c.1.context].count k = se.contexts.count k := by
  have hcomp := (List.getElem_cons_eraseIdx_perm (List.getElem?_eq_some_iff.mp h).1).map
    fun c => c.1.context
  rw [(List.getElem?_eq_some_iff.mp h).2] at hcomp
  have hcount := hcomp.count_eq k
  simp only [RIOSession.contexts, List.map_cons, List.count_append, List.count_cons,
    List.count_nil] at hcount ⊢
  omega

/-- A session with an outstanding request has been drawn. -/
theorem RefCounted.le_of_outstanding (h : RefCounted s)
    (hpos : 0 < (s.session sid).outstanding fun _ => true) : sid ≤ s.nextSessionId := by
  by_contra hlt
  exact hpos.ne' ((h.untouched sid (Nat.lt_of_not_le hlt)).outstanding _)

/-- **A step that executes nothing moves contexts between requests and threads.** -/
theorem contextCount_of_not_exec (hrc : RefCounted s) (hs : Step cfg s e s')
    (he : ∀ i ok replies, e ≠ .exec i ok replies) : s'.contextCount k = s.contextCount k := by
  have hun : (s.session s.newSessionId).contexts = [] :=
    contexts_eq_nil (hrc.untouched s.newSessionId lt_newSessionId).outstanding
  cases hs with
  | acceptFailed i threadId =>
    have hreq : State.requestContexts { s with nextSessionId := s.newSessionId } =
        s.requestContexts := requestContexts_of_new rfl hun fun _ _ => rfl
    rw [State.contextCount, hreq]
    rfl
  | @accepted i threadId ring t hi hcode hid =>
    have hreq : State.requestContexts { (s.setSession s.newSessionId
        (initSession threadId ring)).setThread i { t with
          session := s.newSessionId, code := makeNewSession } with
        nextSessionId := s.newSessionId } = s.requestContexts :=
      requestContexts_of_new rfl
        (by simp [State.setThread, State.setSession, initSession, RIOSession.new,
          RIOSession.contexts]) fun sid' hne => Function.update_of_ne hne _ _
    have hheld : (State.heldContexts (s.setThread i { t with
        session := s.newSessionId, code := makeNewSession })).count k = s.heldContexts.count k := by
      have ht : t.contexts = [] := by rw [Thread.contexts, hcode]; rfl
      refine Nat.add_right_cancel ((count_heldContexts_set hi (by rfl)).trans ?_)
      rw [ht]
      rfl
    rw [State.contextCount, hreq]
    exact congrArg (s.requestContexts.count k + ·) hheld
  | @gotSession i t sid hi hcode hmem =>
    exact contextCount_of_balance (u := { t with session := sid }) hi rfl rfl (Nat.zero_le _)
      (fun _ _ => rfl) rfl
  | @called i t e code hi hcode hne hcall =>
    have hnone : code.flatMap Op.contexts = [] := by cases hcall <;> rfl
    refine contextCount_of_balance (u := { t with code := code }) hi rfl rfl (Nat.zero_le _)
      (fun _ _ => rfl) ?_
    simp [Thread.contexts, hcode, hnone, State.setThread]
  | @completed sid k' c data hc =>
    have hsid : sid ≤ s.nextSessionId := by
      refine hrc.le_of_outstanding ?_
      have hlen := (List.getElem?_eq_some_iff.mp hc).1
      rw [RIOSession.outstanding, List.countP_true]
      omega
    have hreq := count_requestContexts_setSession (k := k) hsid { s.session sid with
      posted := (s.session sid).posted.eraseIdx k'
      completed := (s.session sid).completed ++ [(c, data)] }
    rw [contexts_complete hc] at hreq
    exact congrArg (· + s.heldContexts.count k) (Nat.add_right_cancel hreq)
  | @dequeued i t sid k' c hi hcode hrole hc =>
    have hsid := hrc.le_of_outstanding (outstanding_pos_of_completed hc)
    refine contextCount_of_balance (u := { t with
      session := sid, result := .success, code := [.getIOCompletedContext c.1 c.2] }) hi rfl rfl
      hsid (fun sid' hne => Function.update_of_ne hne _ _) ?_
    rw [← contexts_dequeue hc]
    simp [State.setThread, State.setSession, Thread.contexts, Op.contexts, hcode]
  | executed ok replies hi hcode ho => exact absurd rfl (he _ _ _)

/-! ## The law of a run -/

/-- **What is kept of the contexts in every run.** -/
structure ContextLaw (s : State) (h : ContextHistory) : Prop where
  /-- An allocated context is with one request, with one thread, or lost. -/
  law : s.shared.crashed = false → ∀ k, s.contextCount k + h.leaked.count k =
    if k ∈ s.shared.contextPool then 1 else 0
  /-- A context handed out is allocated or was freed once. -/
  once : ∀ k, h.freed.count k + (if k ∈ s.shared.contextPool then 1 else 0) =
    if k < s.shared.nextContext then 1 else 0

theorem contextLaw_initial (numOfWorkerThread senders : ℕ) :
    ContextLaw (initialState numOfWorkerThread senders) .start := by
  have hheld : (initialState numOfWorkerThread senders).heldContexts = [] :=
    List.flatMap_eq_nil_iff.mpr fun t ht => by rw [Thread.contexts, (idle_initial ht).1]; rfl
  refine ⟨fun _ k => ?_, fun k => rfl⟩
  rw [State.contextCount, hheld]
  rfl

/-- A step that executes nothing writes nothing down. -/
theorem record_of_not_exec {h : ContextHistory} (he : ∀ i ok replies, e ≠ .exec i ok replies) :
    h.record s e = h := by
  cases e with
  | exec i ok replies => exact absurd rfl (he i ok replies)
  | _ => simp [ContextHistory.record, freedBy, leakedBy, State.executing]

theorem record_exec {h : ContextHistory} {i : ℕ} {t : Thread} {rest : List Op}
    (hi : s.threads[i]? = some t) (hcode : t.code = op :: rest) :
    h.record s (.exec i ok replies) =
      { freed := h.freed ++ freedContexts op t.session s.shared (s.session t.session) t.result
        leaked := h.leaked ++ leakedContexts op ok s.shared } := by
  simp only [ContextHistory.record, freedBy, leakedBy, executing_eq hi hcode]

/-- An operation frees at most the context it was given. -/
theorem freedContexts_eq (op : Op) (sid : SessionId) (sh : Shared) (se : RIOSession)
    (res : IoPostError) : freedContexts op sid sh se res = [] ∨
    (freedContexts op sid sh se res = op.contexts ∧ op.contexts.length = 1 ∧
      allocatedContexts op sh = []) := by
  unfold freedContexts
  repeat' split
  all_goals first | exact .inl rfl | exact .inr ⟨rfl, rfl, rfl⟩

theorem allocatedContexts_eq (op : Op) (sh : Shared) : allocatedContexts op sh = [] ∨
    allocatedContexts op sh = [sh.nextContext] := by
  unfold allocatedContexts
  split
  · exact .inr rfl
  · exact .inr rfl
  · exact .inl rfl

/-- **The pool changes by what an operation allocates and frees**, where the one is new and the
other allocated. -/
theorem execOp_pool_balance (ho : o = execOp cfg op ok replies sid sh se res)
    (hnew : sh.nextContext ∉ sh.contextPool) (hheld : ∀ c ∈ op.contexts, c ∈ sh.contextPool) :
    (if k ∈ o.shared.contextPool then 1 else 0) + (freedContexts op sid sh se res).count k =
      (if k ∈ sh.contextPool then 1 else 0) + (allocatedContexts op sh).count k := by
  have hpool := (execOp_contextPool (k := k) ho).1
  rcases freedContexts_eq op sid sh se res with
    hnone | ⟨hfreed, hone, hnoalloc⟩
  · rcases allocatedContexts_eq op sh with ha | ha
    · simp only [hnone, ha, List.not_mem_nil, or_false, not_false_eq_true, and_true] at hpool
      simp only [hnone, ha, hpool]
    · simp only [hnone, ha, List.mem_singleton, List.not_mem_nil, not_false_eq_true,
        and_true] at hpool
      by_cases hk : k = sh.nextContext
      · subst hk
        simp [hnone, ha, hpool, hnew]
      · simp [hnone, ha, hpool, hk, Ne.symm hk]
  · obtain ⟨c, hc⟩ := List.length_eq_one_iff.mp hone
    rw [hc] at hfreed hheld
    have hmem : c ∈ sh.contextPool := hheld c List.mem_cons_self
    simp only [hfreed, hnoalloc, List.not_mem_nil, or_false, List.mem_singleton] at hpool
    by_cases hk : k = c
    · subst hk
      simp [hfreed, hnoalloc, hpool, hmem]
    · simp [hfreed, hnoalloc, hpool, hk, Ne.symm hk]

/-- **An operation keeps the law.** What it frees it held, so it was allocated; what it allocates is
new. -/
theorem contextLaw_exec {h : ContextHistory} {i : ℕ} {t : Thread} {rest : List Op}
    (hlaw : ContextLaw s h) (hrun : s.shared.crashed = false) (hsid : t.session ≤ s.nextSessionId)
    (hres : t.result ≠ .invalidOperationType) (hi : s.threads[i]? = some t)
    (hcode : t.code = op :: rest) (hs : Step cfg s (.exec i ok replies) s') :
    ContextLaw s' (h.record s (.exec i ok replies)) := by
  have hthreads := hs.exec_threads hi hcode
  have hse := hs.exec_session hi hcode
  have hsh := hs.exec_shared hi hcode
  obtain ⟨hids, hothers⟩ := hs.exec_others hi
  rw [record_exec hi hcode]
  generalize ho : execOp cfg op ok replies t.session s.shared (s.session t.session) t.result = o
    at hthreads hse hsh
  have hnew : s.shared.nextContext ∉ s.shared.contextPool := by
    intro hmem
    have := hlaw.once s.shared.nextContext
    rw [if_pos hmem, if_neg (lt_irrefl _)] at this
    omega
  have hheld : ∀ c ∈ op.contexts, c ∈ s.shared.contextPool := by
    intro c hc
    by_contra hmem
    have hzero := hlaw.law hrun c
    rw [if_neg hmem, State.contextCount, count_heldContexts] at hzero
    have hle : t.contexts.count c ≤ tally (fun t => t.contexts.count c) s.threads :=
      le_tally (f := fun t : Thread => t.contexts.count c) hi
    have hpos : 0 < t.contexts.count c := by
      rw [List.count_pos_iff, Thread.contexts, hcode, List.flatMap_cons]
      exact List.mem_append_left _ hc
    omega
  have hbal := fun k => execOp_pool_balance (k := k) ho.symm hnew hheld
  refine ⟨fun hcrash k => ?_, fun k => ?_⟩
  · have hcount := contextCount_set (k := k) hi hthreads hids hsid hothers
    have hctx := execOp_contexts (k := k) ho.symm (hsh ▸ hcrash) hres
    have hold := hlaw.law hrun k
    have hb := hbal k
    simp only [Thread.contexts, hcode, List.flatMap_cons, List.flatMap_append, List.count_append,
      hse] at hcount
    rw [List.count_append, hsh]
    omega
  · have hold := hlaw.once k
    have hb := hbal k
    have hnext := (execOp_contextPool (k := k) ho.symm).2
    rw [List.count_append, hsh, hnext]
    rcases allocatedContexts_eq op s.shared with ha | ha
    · rw [ha] at hb ⊢
      simp only [List.count_nil, List.length_nil, Nat.add_zero] at hb ⊢
      omega
    · rw [ha] at hb ⊢
      simp only [List.count_cons, List.count_nil, List.length_singleton, Nat.zero_add,
        beq_iff_eq] at hb ⊢
      by_cases hk : s.shared.nextContext = k
      · subst hk
        rw [if_neg (lt_irrefl _)] at hold
        rw [if_pos rfl] at hb
        rw [if_pos (Nat.lt_succ_self _)]
        omega
      · rw [if_neg hk] at hb
        have hlt : k < s.shared.nextContext + 1 ↔ k < s.shared.nextContext := by omega
        simp only [hlt]
        omega

/-- **Every step keeps the law.** -/
theorem contextLaw_step {h : ContextHistory} (hlaw : ContextLaw s h) (hau : Audited s)
    (hstep : step cfg s e = some s') : ContextLaw s' (h.record s e) := by
  have hs := step_cases hstep
  have hrun := crashed_of_step hstep
  have hkept : (∀ i ok replies, e ≠ .exec i ok replies) → ContextLaw s' (h.record s e) := by
    intro he
    have hsh := hs.shared_of_not_exec he
    rw [record_of_not_exec he]
    refine ⟨fun _ k => ?_, fun k => ?_⟩
    · rw [contextCount_of_not_exec hau.refCounted hs he, hsh]
      exact hlaw.law hrun k
    · rw [hsh]
      exact hlaw.once k
  cases e with
  | exec i ok replies =>
    obtain ⟨t, op, rest, hi, hcode⟩ := hs.exec_next
    have ht := List.mem_of_getElem? hi
    exact contextLaw_exec hlaw hrun (hau.refCounted.drawn t ht)
      (hau.assignment.assigned t ht).result.1 hi hcode hs
  | _ => exact hkept nofun

/-- **The law of contexts holds in every run.** -/
theorem contextLaw_of_reachable {C : State × ContextHistory → Event → Prop}
    {x : State × ContextHistory} (h : (contextSystem cfg).ReachableUnder C x) :
    ContextLaw x.1 x.2 := by
  refine System.ReachableUnder.recorded_invariant ?_ ?_ h
  · rintro s ⟨numOfWorkerThread, senders, rfl⟩
    exact contextLaw_initial _ _
  · intro s hist e s' hreach hlaw _ hstep
    exact contextLaw_step hlaw (audited_of_reachable hreach) hstep

/-! ## The contexts are conserved -/

/-- **The balance of the pool**: allocated contexts are with requests, with threads, or lost. -/
theorem ContextLaw.card_eq {h : ContextHistory} (hlaw : ContextLaw s h)
    (hrun : s.shared.crashed = false) : s.shared.contextPool.card =
      s.requestContexts.length + s.heldContexts.length + h.leaked.length := by
  have hperm : s.shared.contextPool.toList.Perm
      (s.requestContexts ++ s.heldContexts ++ h.leaked) := by
    rw [List.perm_iff_count]
    intro k
    have := hlaw.law hrun k
    rw [State.contextCount] at this
    rw [List.count_append, List.count_append, this,
      List.Nodup.count (Finset.nodup_toList _)]
    simp only [Finset.mem_toList]
  rw [← Finset.length_toList, hperm.length_eq, List.length_append, List.length_append]

/-- No context is freed twice, in any run. -/
theorem ContextLaw.nodup_freed {h : ContextHistory} (hlaw : ContextLaw s h) : h.freed.Nodup := by
  rw [List.nodup_iff_count_le_one]
  intro k
  have := hlaw.once k
  split at this <;> split at this <;> omega

/-- So contexts are conserved where none was lost. -/
theorem ContextLaw.conserved_iff {h : ContextHistory} (hlaw : ContextLaw s h)
    (hrun : s.shared.crashed = false) : ContextsConserved s h ↔ h.leaked = [] := by
  have hcard := hlaw.card_eq hrun
  constructor
  · intro hcon
    have := hcon.card_eq
    exact List.eq_nil_of_length_eq_zero (by omega)
  · intro hnil
    rw [hnil, List.length_nil, Nat.add_zero] at hcard
    exact ⟨hcard, hlaw.nodup_freed⟩

variable {x x' : State × ContextHistory}

/-- What a run has lost stays lost, so nothing is lost exactly where no step loses a context. -/
theorem leaked_eq_nil_iff (h : (contextSystem cfg).run x es = some x') : x'.2.leaked = [] ↔
    x.2.leaked = [] ∧ (contextSystem cfg).Meets (fun x e => KeepsContext x.1 e) x es := by
  refine System.holds_iff_meets (P := fun x => x.2.leaked = []) (I := fun _ => True)
    (fun _ _ _ _ _ => trivial) (fun y e y' _ hy => ?_) h trivial
  have hrecord : y'.2.leaked = y.2.leaked ++ leakedBy y.1 e := by
    rw [(System.recorded_step_eq_some.mp hy).2]
    rfl
  rw [hrecord, List.append_eq_nil_iff]
  rfl

/-- **Contexts are conserved in a run exactly as long as none of its steps loses one**: as long as
every `RIOReceive` and `RIOSend` succeeds and no send stream is empty. -/
theorem contextsConserved_iff {start : State × ContextHistory}
    (hinit : (contextSystem cfg).Init start) (hr : (contextSystem cfg).run start es = some x)
    (hrun : x.1.shared.crashed = false) : ContextsConserved x.1 x.2 ↔
      (contextSystem cfg).Meets (fun x e => KeepsContext x.1 e) start es := by
  have hlaw := contextLaw_of_reachable (System.reachable_of_run hinit hr)
  have hstart : start.2.leaked = [] := by
    rw [hinit.2]
    rfl
  rw [hlaw.conserved_iff hrun, leaked_eq_nil_iff hr]
  exact and_iff_right hstart

/-- A worker has taken the completion of the first receive: the context is with it. -/
theorem contextsConserved_received : ∃ x : State × ContextHistory, ContextsConserved x.1 x.2 ∧
    x.1.shared.contextPool.card = 1 ∧ x.1.heldContexts = [0] := by
  obtain ⟨x, hm, hr, hx⟩ := System.exists_run (contextSystem checksumConfig)
    (.accept 0 0 [] true :: execs 0 6 ++ [.complete 2 0 [119], .dequeue 1 2 0])
    (s := (initialState 1 0, .start)) (c := fun x e => decide (KeepsContext x.1 e))
    (f := fun x => x.1.shared.crashed = false ∧ x.1.shared.contextPool.card = 1 ∧
      x.1.heldContexts = [0]) (by decide +kernel)
  obtain ⟨hrun, hcard, hheld⟩ := of_decide_eq_true hx
  refine ⟨x, (contextsConserved_iff ⟨⟨1, 0, rfl⟩, rfl⟩ hr hrun).mpr ?_, hcard, hheld⟩
  exact hm.mono fun _ _ => of_decide_eq_true

/-- The first receive of a session fails: its context is allocated for ever. -/
theorem not_contextsConserved_failedReceive : ∃ x : State × ContextHistory,
    (contextSystem checksumConfig).Reachable x ∧ x.1.shared.crashed = false ∧
      ¬ ContextsConserved x.1 x.2 := by
  obtain ⟨x, hreach, hx⟩ := System.exists_reachable (contextSystem checksumConfig)
    (.accept 0 0 [] true :: execs 0 2 ++ [.exec 0 false []]) (s := (initialState 1 0, .start))
    (f := fun x => x.1.shared.crashed = false ∧ x.1.shared.contextPool.card = 1 ∧
      x.1.requestContexts.length + x.1.heldContexts.length = 0) ⟨⟨1, 0, rfl⟩, rfl⟩
    (by decide +kernel)
  obtain ⟨hrun, hcard, hnone⟩ := of_decide_eq_true hx
  refine ⟨x, hreach, hrun, fun hcon => ?_⟩
  have := hcon.card_eq
  omega

end RIOServer

end DdingGameServer
