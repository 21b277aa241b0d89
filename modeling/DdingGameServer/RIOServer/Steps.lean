import Mathlib.Data.List.Count
import Mathlib.Data.List.Perm.Basic
import DdingGameServer.Common.Tally
import DdingGameServer.RIOServer.Model
/-!
# RIOServer — what one step does

`Step` is `step` turned into cases, one for each way a step can succeed, with everything the guard
checked. The counts the invariants are stated in live here as well: `pending p sid s` is how many
operations satisfying `p` the threads still have to execute on the session `sid`, and
`outstanding q se` is how many requests satisfying `q` the kernel has not given back to a worker.
Last, `Moves` is one step seen from one session: its data and its pending operations change in one
of five ways, or not at all.
-/

namespace DdingGameServer

namespace RIOServer

variable {cfg : NetConfig} {s s' : State} {e : Event} {sid : SessionId} {p : Op → Bool}
  {q : IOContext → Bool}

/-! ## The steps as cases -/

/-- The code of a call of `SendPacket` or `SendPacketAndDisconnect`, and the event that makes it. -/
inductive Calls (i : ℕ) : Event → List Op → Prop
  | sendPacket (packet : NetBuffer) :
      Calls i (.sendPacket i packet) (RIOServer.sendPacket packet)
  | sendPacketAndDisconnect (packet : NetBuffer) :
      Calls i (.sendPacketAndDisconnect i packet)
        (.setSendDisconnect :: RIOServer.sendPacket packet)

/-- **A step, with what its guard checked.** -/
inductive Step (cfg : NetConfig) (s : State) : Event → State → Prop
  | acceptFailed {ring : List UInt8} (i threadId : ℕ) :
      Step cfg s (.accept i threadId ring false) { s with nextSessionId := s.newSessionId }
  | accepted {i threadId : ℕ} {ring : List UInt8} {t : Thread} :
      s.threads[i]? = some t → t.code = [] →
      threadId < s.shared.numOfSessionInWorkerThread.length →
      Step cfg s (.accept i threadId ring true)
        { (s.setSession s.newSessionId (initSession threadId ring)).setThread i
            { t with session := s.newSessionId, code := makeNewSession } with
          nextSessionId := s.newSessionId }
  | gotSession {i : ℕ} {t : Thread} {sid : SessionId} :
      s.threads[i]? = some t → t.code = [] → sid ∈ s.shared.sessionMap →
      Step cfg s (.getSession i sid) (s.setThread i { t with session := sid })
  | called {i : ℕ} {t : Thread} {e : Event} {code : List Op} :
      s.threads[i]? = some t → t.code = [] → t.session ≠ 0 → Calls i e code →
      Step cfg s e (s.setThread i { t with code := code })
  | completed {sid : SessionId} {k : ℕ} {c : IOContext} (data : List UInt8) :
      (s.session sid).posted[k]? = some c →
      Step cfg s (.complete sid k data)
        (s.setSession sid { s.session sid with
          posted := (s.session sid).posted.eraseIdx k
          completed := (s.session sid).completed ++ [(c, data)] })
  | dequeued {i : ℕ} {t : Thread} {sid : SessionId} {k : ℕ} {c : IOContext × List UInt8} :
      s.threads[i]? = some t → t.code = [] → t.role = .worker (s.session sid).threadId →
      (s.session sid).completed[k]? = some c →
      Step cfg s (.dequeue i sid k)
        ((s.setSession sid { s.session sid with
            completed := (s.session sid).completed.eraseIdx k }).setThread i
          { t with session := sid, result := .success, code := [.getIOCompletedContext c.1 c.2] })
  | executed {i : ℕ} {t : Thread} {op : Op} {rest : List Op} {o : Outcome} (ok : Bool)
      (replies : List NetBuffer) :
      s.threads[i]? = some t → t.code = op :: rest →
      o = execOp cfg op ok replies t.session s.shared (s.session t.session) t.result →
      Step cfg s (.exec i ok replies)
        { (s.setSession t.session o.session).setThread i
            { t with result := o.result, code := o.code ++ rest } with shared := o.shared }

/-- **Every step is one of the cases.** -/
theorem step_cases (h : step cfg s e = some s') : Step cfg s e s' := by
  unfold step at h
  split at h
  · cases h
  cases e with
  | accept i threadId ring ok =>
    obtain ⟨t, ht, h⟩ := Option.bind_eq_some_iff.mp h
    simp only [accept] at h
    split at h
    · rename_i hg
      cases ok with
      | true => cases h; exact .accepted ht hg.2.1 hg.2.2
      | false => cases h; exact .acceptFailed _ _
    · cases h
  | getSession i sid =>
    obtain ⟨t, ht, h⟩ := Option.bind_eq_some_iff.mp h
    simp only [getSession] at h
    split at h
    · rename_i hg
      cases h
      exact .gotSession ht hg.2.1 hg.2.2
    · cases h
  | sendPacket i packet =>
    obtain ⟨t, ht, h⟩ := Option.bind_eq_some_iff.mp h
    simp only [call] at h
    split at h
    · rename_i hg
      cases h
      exact .called ht hg.2.1 hg.2.2 (.sendPacket _)
    · cases h
  | sendPacketAndDisconnect i packet =>
    obtain ⟨t, ht, h⟩ := Option.bind_eq_some_iff.mp h
    simp only [call] at h
    split at h
    · rename_i hg
      cases h
      exact .called ht hg.2.1 hg.2.2 (.sendPacketAndDisconnect _)
    · cases h
  | complete sid k data =>
    obtain ⟨c, hc, rfl⟩ := Option.map_eq_some_iff.mp h
    exact .completed _ hc
  | dequeue i sid k =>
    obtain ⟨t, ht, h⟩ := Option.bind_eq_some_iff.mp h
    simp only [dequeue] at h
    split at h
    · rename_i hg
      obtain ⟨c, hc, rfl⟩ := Option.map_eq_some_iff.mp h
      exact .dequeued ht hg.2 hg.1 hc
    · cases h
  | exec i ok replies =>
    obtain ⟨t, ht, h⟩ := Option.bind_eq_some_iff.mp h
    simp only [exec] at h
    split at h
    · cases h
    · rename_i hcode
      cases h
      exact .executed _ _ ht hcode rfl

/-- A server that takes a step has not crashed. -/
theorem crashed_of_step (h : step cfg s e = some s') : s.shared.crashed = false := by
  unfold step at h
  split at h
  · cases h
  · rename_i hc
    simpa using hc

/-- **The rule for what is kept by every step of the server.** -/
theorem reachable_of_step {C : State → Event → Prop} {P : State → Prop}
    (hinit : ∀ numOfWorkerThread senders, P (initialState numOfWorkerThread senders))
    (hstep : ∀ s e s', P s → C s e → Step cfg s e s' → P s')
    (h : (system cfg).ReachableUnder C s) : P s := by
  refine System.ReachableUnder.invariant ?_ (fun s e s' hP hC hs => ?_) h
  · rintro s ⟨numOfWorkerThread, senders, rfl⟩
    exact hinit _ _
  · exact hstep s e s' hP hC (step_cases hs)

/-- What an event is about to execute: the thread, its next operation and the ones after it. -/
def State.executing (s : State) : Event → Option (Thread × Op × List Op)
  | .exec i _ _ =>
    s.threads[i]?.bind fun t =>
      match t.code with
      | [] => none
      | op :: rest => some (t, op, rest)
  | _ => none

theorem executing_eq {i : ℕ} {t : Thread} {op : Op} {rest : List Op} {ok : Bool}
    {replies : List NetBuffer} (hi : s.threads[i]? = some t) (hcode : t.code = op :: rest) :
    s.executing (.exec i ok replies) = some (t, op, rest) := by
  simp [State.executing, hi, hcode]

theorem executing_eq_some {t : Thread} {op : Op} {rest : List Op}
    (h : s.executing e = some (t, op, rest)) : ∃ i ok replies, e = .exec i ok replies ∧
      s.threads[i]? = some t ∧ t.code = op :: rest := by
  cases e with
  | exec i ok replies =>
    obtain ⟨t', ht', h⟩ := Option.bind_eq_some_iff.mp h
    split at h
    · cases h
    · rename_i hcode
      cases h
      exact ⟨i, ok, replies, rfl, ht', hcode⟩
  | _ => cases h

/-- What holds of every idle thread, and is kept for the thread a step replaces, holds of every
thread. -/
theorem forall_mem_set {P : Thread → Prop} {l : List Thread} {i : ℕ} {t : Thread}
    (h : ∀ u ∈ l, P u) (ht : P t) : ∀ u ∈ l.set i t, P u := by
  intro u hu
  rcases List.mem_or_eq_of_mem_set hu with hu | rfl
  · exact h u hu
  · exact ht

/-- The threads after an operation of the thread at place `i`. -/
theorem Step.exec_threads {i : ℕ} {t : Thread} {op : Op} {rest : List Op} {ok : Bool}
    {replies : List NetBuffer} (h : Step cfg s (.exec i ok replies) s')
    (hi : s.threads[i]? = some t) (hcode : t.code = op :: rest) :
    s'.threads = s.threads.set i { t with
      result := (execOp cfg op ok replies t.session s.shared (s.session t.session) t.result).result
      code := (execOp cfg op ok replies t.session s.shared (s.session t.session) t.result).code ++
        rest } := by
  cases h with
  | called _ _ _ hcall => cases hcall
  | executed _ _ hi' hcode' ho =>
    obtain rfl := Option.some.inj (hi.symm.trans hi')
    obtain ⟨rfl, rfl⟩ := List.cons.inj (hcode.symm.trans hcode')
    subst ho
    rfl

/-- And its session. -/
theorem Step.exec_session {i : ℕ} {t : Thread} {op : Op} {rest : List Op} {ok : Bool}
    {replies : List NetBuffer} (h : Step cfg s (.exec i ok replies) s')
    (hi : s.threads[i]? = some t) (hcode : t.code = op :: rest) :
    s'.session t.session =
      (execOp cfg op ok replies t.session s.shared (s.session t.session) t.result).session := by
  cases h with
  | called _ _ _ hcall => cases hcall
  | executed _ _ hi' hcode' ho =>
    obtain rfl := Option.some.inj (hi.symm.trans hi')
    obtain ⟨rfl, rfl⟩ := List.cons.inj (hcode.symm.trans hcode')
    subst ho
    exact Function.update_self _ _ _

/-- A thread executes the first operation of its code. -/
theorem Step.exec_next {i : ℕ} {ok : Bool} {replies : List NetBuffer}
    (h : Step cfg s (.exec i ok replies) s') :
    ∃ t op rest, s.threads[i]? = some t ∧ t.code = op :: rest := by
  cases h with
  | called _ _ _ hcall => cases hcall
  | executed _ _ hi hcode _ => exact ⟨_, _, _, hi, hcode⟩

/-- What the threads share changes with operations only. -/
theorem Step.shared_of_not_exec (h : Step cfg s e s')
    (he : ∀ i ok replies, e ≠ .exec i ok replies) : s'.shared = s.shared := by
  cases h with
  | executed ok replies _ _ _ => exact absurd rfl (he _ ok replies)
  | _ => rfl

/-- The other sessions, and the ids drawn, stay. -/
theorem Step.exec_others {i : ℕ} {t : Thread} {ok : Bool} {replies : List NetBuffer}
    (h : Step cfg s (.exec i ok replies) s') (hi : s.threads[i]? = some t) :
    s'.nextSessionId = s.nextSessionId ∧
      ∀ sid, sid ≠ t.session → s'.session sid = s.session sid := by
  cases h with
  | called _ _ _ hcall => cases hcall
  | executed _ _ hi' hcode' ho =>
    obtain rfl := Option.some.inj (hi.symm.trans hi')
    exact ⟨rfl, fun sid hne => Function.update_of_ne hne _ _⟩

/-- And what the threads share. -/
theorem Step.exec_shared {i : ℕ} {t : Thread} {op : Op} {rest : List Op} {ok : Bool}
    {replies : List NetBuffer} (h : Step cfg s (.exec i ok replies) s')
    (hi : s.threads[i]? = some t) (hcode : t.code = op :: rest) :
    s'.shared =
      (execOp cfg op ok replies t.session s.shared (s.session t.session) t.result).shared := by
  cases h with
  | called _ _ _ hcall => cases hcall
  | executed _ _ hi' hcode' ho =>
    obtain rfl := Option.some.inj (hi.symm.trans hi')
    obtain ⟨rfl, rfl⟩ := List.cons.inj (hcode.symm.trans hcode')
    subst ho
    rfl

/-- A new session id is larger than every id drawn before. -/
theorem lt_newSessionId : s.nextSessionId < s.newSessionId := Nat.lt_succ_self _

/-- Session ids are drawn upwards. -/
theorem Step.nextSessionId_le (h : Step cfg s e s') : s.nextSessionId ≤ s'.nextSessionId := by
  cases h with
  | acceptFailed i threadId => exact Nat.le_succ _
  | accepted hi hcode hid => exact Nat.le_succ _
  | _ => exact le_rfl

/-! ## One operation -/

section Operation

variable (cfg : NetConfig) (op : Op) (ok : Bool) (replies : List NetBuffer) (sid : SessionId)
  (sh : Shared) (se : RIOSession) (res : IoPostError)

/-- Only `emplace` and `erase` touch `sessionMap`. -/
theorem execOp_sessionMap :
    (execOp cfg op ok replies sid sh se res).shared.sessionMap =
      if op = .emplaceSession then insert sid sh.sessionMap
      else if op = .eraseSession then sh.sessionMap.erase sid
      else sh.sessionMap := by
  unfold execOp
  repeat' split
  all_goals simp_all [Shared.freeContext, Shared.allocContext]

/-- And only at the session's own id. -/
theorem mem_execOp_sessionMap_of_ne {sid' : SessionId} (h : sid' ≠ sid) :
    sid' ∈ (execOp cfg op ok replies sid sh se res).shared.sessionMap ↔ sid' ∈ sh.sessionMap := by
  rw [execOp_sessionMap]
  split
  · simp [h]
  · split
    · simp [h]
    · rfl

/-- A session keeps its worker. -/
@[simp] theorem execOp_threadId :
    (execOp cfg op ok replies sid sh se res).session.threadId = se.threadId := by
  unfold execOp
  repeat' split
  all_goals rfl

/-- The body of `ReleaseSession` starts with `closesocket`. -/
theorem execOp_releases :
    (execOp cfg op ok replies sid sh se res).session.releases =
      se.releases + if op = .closeSocket then 1 else 0 := by
  unfold execOp
  repeat' split
  all_goals simp_all

end Operation

/-! ## What is left to do -/

/-- How many operations satisfying `p` a thread still has to execute on `sid`. -/
def Thread.owes (p : Op → Bool) (sid : SessionId) (t : Thread) : ℕ :=
  if t.session = sid then t.code.countP p else 0

/-- How many such operations all threads together still have to execute on `sid`. -/
def State.pending (p : Op → Bool) (sid : SessionId) (s : State) : ℕ :=
  tally (Thread.owes p sid) s.threads

/-- How many requests satisfying `q` the kernel works on, or has finished without a worker having
taken them. -/
def RIOSession.outstanding (q : IOContext → Bool) (se : RIOSession) : ℕ :=
  se.posted.countP q + se.completed.countP fun c => q c.1

@[simp] theorem Thread.owes_of_idle {t : Thread} (h : t.code = []) : t.owes p sid = 0 := by
  simp [Thread.owes, h]

theorem Thread.owes_of_ne {t : Thread} (h : t.session ≠ sid) : t.owes p sid = 0 := by
  simp [Thread.owes, h]

theorem Thread.owes_self (t : Thread) : t.owes p t.session = t.code.countP p := by
  simp [Thread.owes]

/-- An operation a thread has in its code is pending. -/
theorem pending_pos {t : Thread} {op : Op} (ht : t ∈ s.threads) (hop : op ∈ t.code) (hp : p op) :
    0 < s.pending p t.session := by
  have hle : t.owes p t.session ≤ s.pending p t.session := le_tally_of_mem ht
  have hpos : 0 < t.code.countP p := List.countP_pos_iff.mpr ⟨op, hop, hp⟩
  rw [Thread.owes_self] at hle
  omega

/-- So is the operation a thread is about to execute. -/
theorem pending_pos_of_next {i : ℕ} {t : Thread} {op : Op} {rest : List Op}
    (hi : s.threads[i]? = some t) (hsid : t.session = sid) (hcode : t.code = op :: rest)
    (hp : p op = true) : 0 < s.pending p sid := by
  have hop : op ∈ t.code := by rw [hcode]; exact List.mem_cons_self
  exact hsid ▸ pending_pos (List.mem_of_getElem? hi) hop hp

/-- Which is therefore in no class that nothing pending belongs to. -/
theorem next_eq_false {i : ℕ} {t : Thread} {op : Op} {rest : List Op}
    (hi : s.threads[i]? = some t) (hsid : t.session = sid) (hcode : t.code = op :: rest)
    (hzero : s.pending p sid = 0) : p op = false := by
  by_contra hp
  exact (pending_pos_of_next hi hsid hcode (by simpa using hp)).ne' hzero

/-- And where something is pending, some thread has it in its code. -/
theorem exists_of_pending_pos (h : 0 < s.pending p sid) :
    ∃ t ∈ s.threads, t.session = sid ∧ ∃ op ∈ t.code, p op := by
  by_contra hcon
  push Not at hcon
  refine absurd (tally_eq_zero.mpr fun t ht => ?_) h.ne'
  by_cases hsid : t.session = sid
  · simpa [Thread.owes, hsid, List.countP_eq_zero] using hcon t ht hsid
  · exact Thread.owes_of_ne hsid

/-- The operations all threads together still have to execute on `sid`. -/
def State.codeOn (sid : SessionId) (s : State) : List Op :=
  s.threads.flatMap fun t => if t.session = sid then t.code else []

/-- What is pending is counted in them, so that what holds of the counts in any code holds of what
is pending. -/
theorem pending_eq_countP (s : State) (sid : SessionId) (p : Op → Bool) :
    s.pending p sid = (s.codeOn sid).countP p := by
  unfold State.pending State.codeOn
  induction s.threads with
  | nil => rfl
  | cons t l ih =>
    rw [tally_cons, List.flatMap_cons, List.countP_append, ih, Thread.owes]
    split <;> rfl

/-- A thread that was idle owes exactly its new code. -/
theorem pending_of_idle (sid : SessionId) {i : ℕ} {t : Thread} (hi : s.threads[i]? = some t)
    (ht : t.code = []) (u : Thread) :
    tally (Thread.owes p sid) (s.threads.set i u) = s.pending p sid + u.owes p sid := by
  have := tally_set (f := Thread.owes p sid) (b := u) hi
  rwa [Thread.owes_of_idle ht] at this

/-- A thread that executes an operation owes what it leads to instead. -/
theorem pending_of_exec {i : ℕ} {t u : Thread} {op : Op} {rest code : List Op}
    (hi : s.threads[i]? = some t) (ht : t.code = op :: rest) (hu : u.session = t.session)
    (hcode : u.code = code ++ rest) (hs' : s'.threads = s.threads.set i u) :
    s'.pending p t.session + [op].countP p = s.pending p t.session + code.countP p := by
  have := tally_set (f := Thread.owes p t.session) (b := u) hi
  rw [← hs'] at this
  simp only [Thread.owes, hu, ht, hcode, if_true, List.countP_append, List.countP_cons,
    List.countP_nil] at this ⊢
  simp only [State.pending]
  omega

theorem Step.exec_pending {i : ℕ} {t : Thread} {op : Op} {rest : List Op} {ok : Bool}
    {replies : List NetBuffer} (h : Step cfg s (.exec i ok replies) s')
    (hi : s.threads[i]? = some t) (hcode : t.code = op :: rest) (p : Op → Bool) :
    s'.pending p t.session + [op].countP p = s.pending p t.session +
      (execOp cfg op ok replies t.session s.shared (s.session t.session) t.result).code.countP p :=
  pending_of_exec hi hcode (by rfl) (by rfl) (h.exec_threads hi hcode)

/-- Taking one entry out of a list takes its count out. -/
theorem countP_eraseIdx {α : Type} {f : α → Bool} {l : List α} {k : ℕ} {a : α}
    (h : l[k]? = some a) : (l.eraseIdx k).countP f + [a].countP f = l.countP f := by
  obtain ⟨hk, rfl⟩ := List.getElem?_eq_some_iff.mp h
  rw [List.countP_singleton, ← (List.getElem_cons_eraseIdx_perm hk).countP_eq, List.countP_cons]

/-- A completion is still outstanding until a worker takes it. -/
theorem outstanding_complete {se : RIOSession} {k : ℕ} {c : IOContext} {data : List UInt8}
    (h : se.posted[k]? = some c) :
    { se with posted := se.posted.eraseIdx k
              completed := se.completed ++ [(c, data)] : RIOSession }.outstanding q =
      se.outstanding q := by
  have := countP_eraseIdx (f := q) h
  simp only [RIOSession.outstanding, List.countP_append, List.countP_singleton] at this ⊢
  omega

theorem outstanding_dequeue {se : RIOSession} {k : ℕ} {c : IOContext × List UInt8}
    (h : se.completed[k]? = some c) :
    { se with completed := se.completed.eraseIdx k : RIOSession }.outstanding q +
      [c.1].countP q = se.outstanding q := by
  have := countP_eraseIdx (f := fun c => q c.1) h
  simp only [RIOSession.outstanding, List.countP_singleton] at this ⊢
  omega

theorem outstanding_pos_of_completed {se : RIOSession} {k : ℕ} {c : IOContext × List UInt8}
    (h : se.completed[k]? = some c) : 0 < se.outstanding fun _ => true := by
  have := outstanding_dequeue (q := fun _ => true) h
  simp only [List.countP_singleton, if_true] at this
  omega

/-! ## One step, seen from one session -/

/-- **What one step does to the session `sid`**: to its data, to its place in `sessionMap` and to
what is pending on it. -/
inductive Moves (cfg : NetConfig) (sid : SessionId) (s : State) : Event → State → Prop
  | unmoved {e : Event} {s' : State} :
      s'.session sid = s.session sid →
      (sid ∈ s'.shared.sessionMap ↔ sid ∈ s.shared.sessionMap) →
      (∀ p, s'.pending p sid = s.pending p sid) → Moves cfg sid s e s'
  | entered {e : Event} {s' : State} {ring : List UInt8} (threadId : ℕ) :
      sid = s.newSessionId → s'.nextSessionId = sid →
      threadId < s.shared.numOfSessionInWorkerThread.length →
      s'.session sid = initSession threadId ring → s'.shared = s.shared →
      (∀ p, s'.pending p sid = s.pending p sid + makeNewSession.countP p) → Moves cfg sid s e s'
  | called {e : Event} {s' : State} {i : ℕ} {t : Thread} {code : List Op} :
      s.threads[i]? = some t → t.session = sid → Calls i e code →
      s'.session sid = s.session sid → s'.shared = s.shared →
      (∀ p, s'.pending p sid = s.pending p sid + code.countP p) → Moves cfg sid s e s'
  | completed {s' : State} {k : ℕ} {c : IOContext} (data : List UInt8) :
      (s.session sid).posted[k]? = some c →
      s'.session sid = { s.session sid with
        posted := (s.session sid).posted.eraseIdx k
        completed := (s.session sid).completed ++ [(c, data)] } →
      s'.shared = s.shared → (∀ p, s'.pending p sid = s.pending p sid) →
      Moves cfg sid s (.complete sid k data) s'
  | dequeued {s' : State} {i k : ℕ} {t : Thread} {c : IOContext × List UInt8} :
      s.threads[i]? = some t → t.code = [] → t.role = .worker (s.session sid).threadId →
      (s.session sid).completed[k]? = some c →
      s'.session sid = { s.session sid with completed := (s.session sid).completed.eraseIdx k } →
      s'.shared = s.shared →
      (∀ p, s'.pending p sid = s.pending p sid + [.getIOCompletedContext c.1 c.2].countP p) →
      Moves cfg sid s (.dequeue i sid k) s'
  | executed {s' : State} {i : ℕ} {t : Thread} {op : Op} {rest : List Op} {o : Outcome} (ok : Bool)
      (replies : List NetBuffer) :
      s.threads[i]? = some t → t.session = sid → t.code = op :: rest →
      o = execOp cfg op ok replies sid s.shared (s.session sid) t.result →
      s'.session sid = o.session → s'.shared = o.shared →
      (∀ p, s'.pending p sid + [op].countP p = s.pending p sid + o.code.countP p) →
      Moves cfg sid s (.exec i ok replies) s'

/-- **Every step moves every session in one of these ways.** -/
theorem Step.moves (h : Step cfg s e s') (sid : SessionId) : Moves cfg sid s e s' := by
  cases h with
  | acceptFailed i threadId => exact .unmoved rfl Iff.rfl fun _ => rfl
  | @accepted i threadId ring t hi hcode hid =>
    have hp := fun p => pending_of_idle (p := p) sid hi hcode
      { t with session := s.newSessionId, code := makeNewSession }
    by_cases hsid : sid = s.newSessionId
    · subst hsid
      exact .entered threadId rfl rfl hid (Function.update_self _ _ _) rfl fun p =>
        (hp p).trans (by rw [Thread.owes, if_pos rfl])
    · exact .unmoved (Function.update_of_ne hsid _ _) Iff.rfl fun p =>
        (hp p).trans (by rw [Thread.owes_of_ne (Ne.symm hsid), Nat.add_zero])
  | @gotSession i t sid' hi hcode hmem =>
    refine .unmoved rfl Iff.rfl fun p => ?_
    refine (pending_of_idle sid hi hcode { t with session := sid' }).trans ?_
    rw [Thread.owes_of_idle (t := { t with session := sid' }) hcode, Nat.add_zero]
  | @called i t e code hi hcode hne hcall =>
    have hp := fun p => pending_of_idle (p := p) sid hi hcode { t with code := code }
    by_cases hsid : t.session = sid
    · exact .called hi hsid hcall rfl rfl fun p =>
        (hp p).trans (by rw [Thread.owes, if_pos hsid])
    · exact .unmoved rfl Iff.rfl fun p =>
        (hp p).trans (by rw [Thread.owes_of_ne (t := { t with code := code }) hsid, Nat.add_zero])
  | @completed sid' k c data hc =>
    by_cases hsid : sid = sid'
    · subst hsid
      exact .completed data hc (Function.update_self _ _ _) rfl fun _ => rfl
    · exact .unmoved (Function.update_of_ne hsid _ _) Iff.rfl fun _ => rfl
  | @dequeued i t sid' k c hi hcode hrole hc =>
    have hp := fun p => pending_of_idle (p := p) sid hi hcode
      { t with session := sid', result := .success, code := [.getIOCompletedContext c.1 c.2] }
    by_cases hsid : sid = sid'
    · subst hsid
      exact .dequeued hi hcode hrole hc (Function.update_self _ _ _) rfl fun p =>
        (hp p).trans (by rw [Thread.owes, if_pos rfl])
    · exact .unmoved (Function.update_of_ne hsid _ _) Iff.rfl fun p =>
        (hp p).trans (by rw [Thread.owes_of_ne (Ne.symm hsid), Nat.add_zero])
  | @executed i t op rest o ok replies hi hcode ho =>
    by_cases hsid : t.session = sid
    · subst hsid
      exact .executed ok replies hi rfl hcode ho (Function.update_self _ _ _) rfl fun p =>
        pending_of_exec (u := { t with result := o.result, code := o.code ++ rest }) hi hcode
          rfl rfl rfl
    · refine .unmoved (Function.update_of_ne (Ne.symm hsid) _ _) ?_ fun p => ?_
      · subst ho
        exact mem_execOp_sessionMap_of_ne _ _ _ _ _ _ _ _ (Ne.symm hsid)
      · have := tally_set (f := Thread.owes p sid) (b := { t with
          result := o.result, code := o.code ++ rest }) hi
        rw [Thread.owes_of_ne hsid, Thread.owes_of_ne (by exact hsid)] at this
        simpa [State.pending, State.setThread, State.setSession] using this

end RIOServer

end DdingGameServer
